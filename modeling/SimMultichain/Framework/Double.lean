import Mathlib

/-!
# Numbers of JavaScript

A number is a double, and `parseInt` takes its integer part from its text: the digits of the
shortest decimal that rounds to it, with an exponent if it is below `10⁻⁶` or not below `10²¹`. Of a
text with an exponent, that is the first digit. For integers below `2⁵³` whose quotient is not as
small as that, `parseInt` of the quotient is the quotient of the integers (`parseInt_div`).

Quotients that overflow are left out.
-/

namespace SIM

/-- The number `mantissa * 2 ^ exponent`. -/
structure Double where
  mantissa : ℕ
  exponent : ℤ

namespace Double

variable (x : Double)

/-- The number is `x.num / x.den`. -/
def num : ℕ := x.mantissa * 2 ^ x.exponent.toNat

def den : ℕ := 2 ^ (-x.exponent).toNat

/-- `n / d` to the nearest integer, to the even one of two. -/
def roundHalfEven (n d : ℕ) : ℕ :=
  if 2 * (n % d) < d ∨ 2 * (n % d) = d ∧ n / d % 2 = 0 then n / d else n / d + 1

/-- The exponent with which the mantissa of `a / b` has 53 bits, or that of subnormal numbers. -/
def exponentOf (a b : ℕ) : ℤ :=
  let e : ℤ := a.log2 - b.log2 - 52
  max (if a * 2 ^ (-e).toNat < 2 ^ 52 * (b * 2 ^ e.toNat) then e - 1 else e) (-1074)

/-- `a / b`, rounded to a double. -/
def div (a b : ℕ) : Double where
  mantissa := roundHalfEven (a * 2 ^ (-exponentOf a b).toNat) (b * 2 ^ (exponentOf a b).toNat)
  exponent := exponentOf a b

/-- `x < y`, as numbers. -/
def lt (y : Double) : Bool := x.num * y.den < y.num * x.den

/-- The same number. -/
def same (y : Double) : Bool := x.num * y.den = y.num * x.den

/-- The first digit of the shortest decimal that rounds to a number between `digit` and `digit + 1`
times `n / d`: the greater one, if that by itself rounds to the number. -/
def shortestDigit (digit n d : ℕ) : ℕ :=
  if x.same (div ((digit + 1) * n) d) then if digit = 9 then 1 else digit + 1 else digit

/-- The first digit of the text of a number. -/
def firstDigit : ℕ :=
  if x.den ≤ x.num then
    let n := 10 ^ Nat.log 10 (x.num / x.den)
    x.shortestDigit (x.num / x.den / n) n 1
  else
    let d := 10 ^ Nat.clog 10 ((x.den + x.num - 1) / x.num)
    x.shortestDigit (x.num * d / x.den) 1 d

/-- `parseInt` of the text of a number that is not negative. -/
def parseInt : ℕ :=
  if x.num = 0 then 0
  else if x.lt (div 1 (10 ^ 6)) || 10 ^ 21 ≤ x.num / x.den then x.firstDigit
  else x.num / x.den

/-! ## Quotients of integers -/

variable {a b : ℕ}

theorem le_roundHalfEven (n d : ℕ) : n / d ≤ roundHalfEven n d := by
  unfold roundHalfEven
  split_ifs <;> omega

/-- What is rounded up is at least half of the divisor. -/
theorem roundHalfEven_cases (n d : ℕ) :
    roundHalfEven n d = n / d ∨ roundHalfEven n d = n / d + 1 ∧ d ≤ 2 * (n % d) := by
  unfold roundHalfEven
  split_ifs with h
  · exact .inl rfl
  · exact .inr ⟨rfl, by omega⟩

/-- The exponent of a quotient that is neither large nor small, and that its mantissa has 53 bits. -/
theorem exists_exponentOf (hb : 0 < b) (ha : a < 2 ^ 53) (hab : b ≤ 2 ^ 18 * a) :
    ∃ k : ℕ, k ≤ 71 ∧ exponentOf a b = -k ∧ 2 ^ 52 * b ≤ a * 2 ^ k := by
  have ha₀ : a ≠ 0 := by rintro rfl; omega
  have hla : a.log2 < 53 := (Nat.log2_lt ha₀).mpr ha
  have hlb : b.log2 < a.log2 + 19 := by
    rw [Nat.log2_lt hb.ne']
    calc b ≤ 2 ^ 18 * a := hab
      _ < 2 ^ 18 * 2 ^ (a.log2 + 1) := by
          exact Nat.mul_lt_mul_of_pos_left Nat.lt_log2_self (by decide)
      _ = 2 ^ (a.log2 + 19) := by rw [← Nat.pow_add]; congr 1; omega
  obtain ⟨k, hk⟩ : ∃ k : ℕ, k + a.log2 = 52 + b.log2 := ⟨52 + b.log2 - a.log2, by omega⟩
  have he : (a.log2 : ℤ) - b.log2 - 52 = -k := by omega
  have htoNat : (-(k : ℤ)).toNat = 0 := by omega
  have hneg : (- -(k : ℤ)).toNat = k := by omega
  simp only [exponentOf, he, htoNat, hneg, Nat.pow_zero, Nat.mul_one]
  split_ifs with hlt
  · refine ⟨k + 1, by omega, by omega, ?_⟩
    calc 2 ^ 52 * b ≤ 2 ^ 52 * 2 ^ (b.log2 + 1) := Nat.mul_le_mul_left _ Nat.lt_log2_self.le
      _ = 2 ^ a.log2 * 2 ^ (k + 1) := by rw [← Nat.pow_add, ← Nat.pow_add]; congr 1; omega
      _ ≤ a * 2 ^ (k + 1) := Nat.mul_le_mul_right _ (Nat.log2_self_le ha₀)
  · exact ⟨k, by omega, by omega, not_lt.mp hlt⟩

/-- A quotient with 53 bits is not rounded to the next integer. -/
theorem roundHalfEven_div {k : ℕ} (hb : 0 < b) (ha : a < 2 ^ 53) (hk : 2 ^ 52 * b ≤ a * 2 ^ k) :
    roundHalfEven (a * 2 ^ k) b / 2 ^ k = a / b := by
  have hpow : 0 < 2 ^ k := Nat.two_pow_pos k
  have hfloor : a * 2 ^ k / b / 2 ^ k = a / b := by
    rw [Nat.div_div_eq_div_mul, Nat.mul_div_mul_right _ _ hpow]
  rcases roundHalfEven_cases (a * 2 ^ k) b with h | ⟨h, hhalf⟩
  · rw [h, hfloor]
  · refine le_antisymm ?_ ?_
    · rw [← Nat.lt_succ_iff, Nat.div_lt_iff_lt_mul hpow, h]
      by_contra hge
      -- the remainder is at least half of `b`, so that `2 ^ (k + 1)` is at most `b`
      have hrem := Nat.div_add_mod (a * 2 ^ k) b
      have hnext : a < b * (a / b + 1) := by
        rw [Nat.mul_add, Nat.mul_one]
        have := Nat.div_add_mod a b
        have := Nat.mod_lt a hb
        omega
      have hle : 2 ^ k * (a + 1) ≤ 2 ^ k * (b * (a / b + 1)) := Nat.mul_le_mul_left _ hnext
      have hq : (a / b + 1) * 2 ^ k ≤ a * 2 ^ k / b + 1 := not_lt.mp hge
      have hbq : b * ((a / b + 1) * 2 ^ k) ≤ b * (a * 2 ^ k / b + 1) := Nat.mul_le_mul_left _ hq
      have h₁ : 2 ^ k * (b * (a / b + 1)) = b * ((a / b + 1) * 2 ^ k) := by ring
      have h₂ : 2 ^ k * (a + 1) = a * 2 ^ k + 2 ^ k := by ring
      have h₃ : b * (a * 2 ^ k / b + 1) = b * (a * 2 ^ k / b) + b := by ring
      have hbound : 2 * 2 ^ k ≤ b := by omega
      have : 2 ^ 53 * 2 ^ k ≤ a * 2 ^ k := by
        calc 2 ^ 53 * 2 ^ k = 2 ^ 52 * (2 * 2 ^ k) := by ring
          _ ≤ 2 ^ 52 * b := Nat.mul_le_mul_left _ hbound
          _ ≤ a * 2 ^ k := hk
      exact absurd (Nat.le_of_mul_le_mul_right this hpow) (not_le.mpr ha)
    · rw [← hfloor]
      exact Nat.div_le_div_right (le_roundHalfEven _ _)

theorem parseInt_div_zero (b : ℕ) : (div 0 b).parseInt = 0 := by
  have hnum : (div 0 b).num = 0 := by
    simp only [num, div, roundHalfEven, Nat.zero_mul, Nat.zero_div, Nat.zero_mod]
    simp
  rw [parseInt, if_pos hnum]

/-- The integer part of a quotient is that of the integers, if the quotient is not small. -/
theorem parseInt_div (hb : 0 < b) (ha : a < 2 ^ 53) (hab : b ≤ 2 ^ 18 * a) :
    (div a b).parseInt = a / b := by
  obtain ⟨k, hk, he, hnormal⟩ := exists_exponentOf hb ha hab
  have htoNat : (-(k : ℤ)).toNat = 0 := by omega
  have hneg : (- -(k : ℤ)).toNat = k := by omega
  have hnum : (div a b).num = roundHalfEven (a * 2 ^ k) b := by
    simp only [num, div, he, htoNat, hneg, Nat.pow_zero, Nat.mul_one]
  have hden : (div a b).den = 2 ^ k := by simp only [den, div, he, hneg]
  have hfloor : (div a b).num / (div a b).den = a / b := by
    rw [hnum, hden, roundHalfEven_div hb ha hnormal]
  have hbits : 2 ^ 52 ≤ (div a b).num := by
    rw [hnum]
    exact ((Nat.le_div_iff_mul_le hb).mpr hnormal).trans (le_roundHalfEven _ _)
  have hsmall : (div a b).lt (div 1 (10 ^ 6)) = false := by
    have hmillionth : (div 1 (10 ^ 6)).num = 4722366482869645 ∧ (div 1 (10 ^ 6)).den = 2 ^ 72 := by
      decide +kernel
    rw [lt, hmillionth.1, hmillionth.2, hden, decide_eq_false_iff_not, not_lt]
    calc 4722366482869645 * 2 ^ k ≤ 4722366482869645 * 2 ^ 71 :=
          Nat.mul_le_mul_left _ (Nat.pow_le_pow_right (by decide) hk)
      _ ≤ 2 ^ 52 * 2 ^ 72 := by decide
      _ ≤ (div a b).num * 2 ^ 72 := Nat.mul_le_mul_right _ hbits
  have hlarge : ¬ 10 ^ 21 ≤ (div a b).num / (div a b).den := by
    rw [hfloor]
    have := Nat.div_le_self a b
    omega
  rw [parseInt, if_neg (by omega), hsmall, Bool.false_or, if_neg (by rwa [decide_eq_true_eq]), hfloor]

end Double

/-- `parseInt(a / b)` -/
def parseIntDiv (a : ℤ) (b : ℕ) : ℤ := a.sign * (Double.div a.natAbs b).parseInt

-- `parseInt("5e-7")` and `parseInt("1e+21")`
example : parseIntDiv 1 2000000 = 5 ∧ parseIntDiv (10 ^ 21) 1 = 1 := by decide +kernel

end SIM
