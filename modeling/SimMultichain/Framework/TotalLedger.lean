import Mathlib

/-!
# Ledgers in total maps

The ledger of `Framework.Ledger`, kept in maps that hold a value at every key and
the default value where nothing was written. The default may also be written, so
the maps do not tell an entry from a missing one, and only the counter, of `w`
bits, says how many entries an owner has.

A write at a computed key destroys what another owner has there, so `Tabulates`
is kept only while `key` separates the keys in use, which are collected in `U`:

* `Tabulates.append`: writing at the counter's key and advancing the counter
  appends, as long as the counter does not start over;
* `Tabulates.get_key`: reading the map reads the list, and the default past its
  end. In particular the counter's key holds the default
  (`Tabulates.get_key_count`).
-/

namespace SIM

variable {A K V : Type*} {w : Nat}

/-- The maps `entries` and `count` hold the ledger `led`, whose keys are among those of `U`. -/
structure Tabulates [Zero V] (key : A → BitVec w → K) (U : Set (A × BitVec w)) (entries : K → V)
    (count : A → BitVec w) (led : A → List V) : Prop where
  counted (a : A) : (count a).toNat = (led a).length
  used {a : A} {i : Nat} : i < (led a).length → (a, BitVec.ofNat w i) ∈ U
  stored {a : A} {i : Nat} {v : V} : (led a)[i]? = some v → entries (key a (BitVec.ofNat w i)) = v
  rest {k : K} : (∀ a i, i < (led a).length → k ≠ key a (BitVec.ofNat w i)) → entries k = 0

namespace Tabulates

variable [Zero V] {key : A → BitVec w → K} {U U' : Set (A × BitVec w)} {entries : K → V}
  {count : A → BitVec w} {led led' : A → List V}

/-- Maps without a write hold the empty ledger. -/
theorem nil (h : ∀ a, led a = []) : Tabulates key U (fun _ => 0) (fun _ => 0) led where
  counted a := by rw [h a]; rfl
  used {a i} hi := by rw [h a] at hi; exact absurd hi (Nat.not_lt_zero _)
  stored {a i v} hv := by rw [h a] at hv; cases hv
  rest _ := rfl

theorem length_lt (h : Tabulates key U entries count led) (a : A) : (led a).length < 2 ^ w := by
  rw [← h.counted a]; exact (count a).isLt

/-- The counter is the number of entries. -/
theorem count_eq (h : Tabulates key U entries count led) (a : A) :
    count a = BitVec.ofNat w (led a).length := by
  rw [← h.counted a, BitVec.ofNat_toNat, BitVec.setWidth_eq]

/-- More keys may be in use. -/
theorem mono (h : Tabulates key U entries count led) (hU : U ⊆ U') (hl : ∀ a, led' a = led a) :
    Tabulates key U' entries count led' := by
  obtain rfl : led' = led := funext hl
  exact ⟨h.counted, fun hi => hU (h.used hi), h.stored, h.rest⟩

/-- Where `key` separates the keys in use, reading the map reads the list. -/
theorem get_key (h : Tabulates key U entries count led)
    (hinj : Set.InjOn (fun p : A × BitVec w => key p.1 p.2) U) {a : A} {i : BitVec w}
    (hai : (a, i) ∈ U) : entries (key a i) = ((led a)[i.toNat]?).getD 0 := by
  cases hv : (led a)[i.toNat]? with
  | some v =>
    have hs := h.stored hv
    rwa [BitVec.ofNat_toNat, BitVec.setWidth_eq] at hs
  | none =>
    refine h.rest fun b j hj hk => ?_
    have e := hinj hai (h.used hj) hk
    simp only [Prod.mk.injEq] at e
    obtain ⟨rfl, rfl⟩ := e
    have hjw : j < 2 ^ w := lt_trans hj (h.length_lt a)
    rw [BitVec.toNat_ofNat, Nat.mod_eq_of_lt hjw, List.getElem?_eq_getElem hj] at hv
    cases hv

/-- Where `key` separates the keys in use, the counter's key holds the default. -/
theorem get_key_count (h : Tabulates key U entries count led)
    (hinj : Set.InjOn (fun p : A × BitVec w => key p.1 p.2) U) {a : A} (ha : (a, count a) ∈ U) :
    entries (key a (count a)) = 0 := by
  rw [h.get_key hinj ha, h.counted a, List.getElem?_eq_none le_rfl]
  rfl

/-- Writing at the counter's key and advancing the counter appends. -/
theorem append [DecidableEq A] [DecidableEq K] (h : Tabulates key U entries count led)
    (hinj : Set.InjOn (fun p : A × BitVec w => key p.1 p.2) U) {a : A} {v : V}
    (ha : (a, count a) ∈ U) (hroom : (count a).toNat + 1 < 2 ^ w)
    (hself : led' a = led a ++ [v]) (hother : ∀ b, b ≠ a → led' b = led b) :
    Tabulates key U (Function.update entries (key a (count a)) v)
      (Function.update count a (count a + 1)) led' := by
  have hc := h.count_eq a
  have hlen : (led' a).length = (led a).length + 1 := by rw [hself, List.length_append]; rfl
  have hkeep : ∀ b i, i < (led b).length → key b (BitVec.ofNat w i) ≠ key a (count a) := by
    intro b i hi hk
    have e := hinj (h.used hi) ha hk
    simp only [Prod.mk.injEq] at e
    obtain ⟨rfl, hi'⟩ := e
    have hn := congrArg BitVec.toNat hi'
    rw [h.counted b, BitVec.toNat_ofNat, Nat.mod_eq_of_lt (lt_trans hi (h.length_lt b))] at hn
    omega
  refine ⟨fun b => ?_, fun {b i} hi => ?_, fun {b i u} hu => ?_, fun {k} hk => ?_⟩
  · by_cases hb : b = a
    · subst hb
      have hw : 1 < 2 ^ w := by omega
      have h1 : (1 : BitVec w).toNat = 1 := Nat.mod_eq_of_lt hw
      rw [Function.update_self, hlen, BitVec.toNat_add, h1, Nat.mod_eq_of_lt hroom, h.counted b]
    · rw [Function.update_of_ne hb, hother b hb, h.counted b]
  · by_cases hb : b = a
    · subst hb
      rw [hlen] at hi
      rcases Nat.lt_succ_iff_lt_or_eq.mp hi with hi | rfl
      · exact h.used hi
      · rwa [← hc]
    · rw [hother b hb] at hi; exact h.used hi
  · by_cases hb : b = a
    · subst hb
      rw [hself] at hu
      rcases lt_trichotomy i (led b).length with hi | hi | hi
      · rw [List.getElem?_append_left hi] at hu
        rw [Function.update_of_ne (hkeep b i hi), h.stored hu]
      · subst hi
        simp only [List.getElem?_concat_length, Option.some.injEq] at hu
        rw [← hc, Function.update_self, hu]
      · rw [List.getElem?_eq_none (by rw [List.length_append, List.length_singleton]; omega)] at hu
        cases hu
    · rw [hother b hb] at hu
      have hi := (List.getElem?_eq_some_iff.mp hu).1
      rw [Function.update_of_ne (hkeep b i hi), h.stored hu]
  · have hne : k ≠ key a (count a) := by
      have := hk a (led a).length (by omega)
      rwa [← hc] at this
    rw [Function.update_of_ne hne]
    refine h.rest fun b i hi => hk b i ?_
    by_cases hb : b = a
    · subst hb; omega
    · rw [hother b hb]; exact hi

end Tabulates

end SIM
