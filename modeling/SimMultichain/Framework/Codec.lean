import Mathlib

/-!
# Codecs

A reader takes a value off the front of a byte string, or fails. A `Codec` is a
reader with an encoder that it inverts exactly: it reads `a` and leaves `rest` if
and only if the string is the encoding of `a` followed by `rest`. So an encoding
is read back completely, and nothing else is read as its value.

Codecs for bytes, little-endian 32-bit words and byte arrays are put together with
`Codec.pair`. A value of an enum is read by `Reader.variants`: an index byte, and
then by the reader that a table has for it. What a value so read says about the
bytes is `Reader.variants_eq_some`, with `Codec.map_eq_some` for the variant's
fields.
-/

namespace SIM

/-- A value read off a byte string, and the bytes left over. -/
abbrev Reader (α : Type) := List UInt8 → Option (α × List UInt8)

namespace Reader

variable {α β : Type}

/-- Reads nothing. -/
def fail : Reader α := fun _ => none

def map (f : α → β) (r : Reader α) : Reader β := fun bs => (r bs).map fun p => (f p.1, p.2)

/-- Read an index byte, and then by the reader of that index in the table, or by `other`. -/
def variants (table : List (UInt8 × Reader α)) (other : UInt8 → Reader α) : Reader α
  | [] => none
  | i :: bs => ((table.lookup i).getD (other i)) bs

variable {bs rest : List UInt8}

@[simp] theorem fail_apply : (fail : Reader α) bs = none := rfl

theorem map_eq_some {f : α → β} {r : Reader α} {b : β} :
    r.map f bs = some (b, rest) ↔ ∃ a, r bs = some (a, rest) ∧ f a = b := by
  simp only [map, Option.map_eq_some_iff, Prod.mk.injEq]
  constructor
  · rintro ⟨⟨a, rest'⟩, h, rfl, rfl⟩
    exact ⟨a, h, rfl⟩
  · rintro ⟨a, h, rfl⟩
    exact ⟨(a, rest), h, rfl, rfl⟩

@[simp] theorem variants_nil {table : List (UInt8 × Reader α)} {other : UInt8 → Reader α} :
    variants table other [] = none := rfl

/-- With one reader for each index, the value was read by one of the table or by `other`. -/
theorem variants_eq_some {table : List (UInt8 × Reader α)} {other : UInt8 → Reader α} {a : α}
    {i : UInt8} (hnd : (table.map Prod.fst).Nodup) :
    variants table other (i :: bs) = some (a, rest) ↔
      (∃ r, (i, r) ∈ table ∧ r bs = some (a, rest)) ∨
        i ∉ table.map Prod.fst ∧ other i bs = some (a, rest) := by
  simp only [variants]
  induction table with
  | nil => simp
  | cons p table ih =>
    obtain ⟨j, r⟩ := p
    obtain ⟨hj, hnd⟩ := List.nodup_cons.mp hnd
    by_cases hij : i = j
    · -- the index occurs once, so no later reader has it
      subst hij
      have hmem : ∀ r', (i, r') ∉ table := fun r' hr => hj (List.mem_map.mpr ⟨(i, r'), hr, rfl⟩)
      simp [hmem]
    · have hlookup : ((j, r) :: table).lookup i = table.lookup i := by
        rw [List.lookup_cons, beq_false_of_ne hij]
      rw [hlookup, ih hnd]
      simp [hij]

end Reader

/-- An encoder and the reader that inverts it. -/
structure Codec (α : Type) where
  encode : α → List UInt8
  decode : Reader α
  decode_eq_some {bs rest : List UInt8} {a : α} :
    decode bs = some (a, rest) ↔ bs = encode a ++ rest

namespace Codec

variable {α β : Type}

/-- A mapped codec reads the encodings of what is mapped. -/
theorem map_eq_some (c : Codec α) {f : α → β} {b : β} {bs rest : List UInt8} :
    c.decode.map f bs = some (b, rest) ↔ ∃ a, bs = c.encode a ++ rest ∧ f a = b := by
  simp only [Reader.map_eq_some, c.decode_eq_some]

/-- `u8` -/
def byte : Codec UInt8 where
  encode b := [b]
  decode
    | [] => none
    | b :: bs => some (b, bs)
  decode_eq_some {bs rest a} := by cases bs <;> simp

/-- One value after the other. -/
def pair (c : Codec α) (d : Codec β) : Codec (α × β) where
  encode p := c.encode p.1 ++ d.encode p.2
  decode bs := do
    let (a, bs) ← c.decode bs
    let (b, bs) ← d.decode bs
    return ((a, b), bs)
  decode_eq_some {bs rest p} := by
    obtain ⟨a, b⟩ := p
    simp only [List.append_assoc, Option.bind_eq_bind, Option.pure_def, Option.bind_eq_some_iff,
      Option.some.injEq, Prod.mk.injEq, Prod.exists, c.decode_eq_some, d.decode_eq_some]
    constructor
    · rintro ⟨a', bs', rfl, b', bs'', rfl, ⟨rfl, rfl⟩, rfl⟩
      rfl
    · rintro rfl
      exact ⟨a, _, rfl, b, _, rfl, ⟨rfl, rfl⟩, rfl⟩

@[simp] theorem pair_encode (c : Codec α) (d : Codec β) (p : α × β) :
    (c.pair d).encode p = c.encode p.1 ++ d.encode p.2 := rfl

/-- `[u8; n]` -/
def array (n : Nat) : Codec (Vector UInt8 n) where
  encode v := v.toList
  decode bs :=
    if h : n ≤ bs.length then some (⟨(bs.take n).toArray, by simp [h]⟩, bs.drop n) else none
  decode_eq_some {bs rest v} := by
    constructor
    · intro h
      split at h
      · simp only [Option.some.injEq, Prod.mk.injEq] at h
        obtain ⟨rfl, rfl⟩ := h
        simp [Vector.toList]
      · cases h
    · rintro rfl
      have hlen : v.toList.length = n := v.length_toList
      rw [dif_pos (by rw [List.length_append]; omega)]
      simp only [List.take_left' hlen, List.drop_left' hlen, Option.some.injEq, Prod.mk.injEq, and_true]
      exact Vector.toList_inj.mp (by simp [Vector.toList])

theorem ofNat_toNat_add_mul (b : UInt8) (n : Nat) : UInt8.ofNat (b.toNat + 256 * n) = b := by
  apply UInt8.toNat_inj.mp
  have := b.toNat_lt
  simp only [UInt8.toNat_ofNat']
  omega

/-- `u32`, little-endian. -/
def u32 : Codec UInt32 where
  encode n := [UInt8.ofNat n.toNat, UInt8.ofNat (n.toNat / 256), UInt8.ofNat (n.toNat / 65536),
    UInt8.ofNat (n.toNat / 16777216)]
  decode
    | b₀ :: b₁ :: b₂ :: b₃ :: bs =>
      some (UInt32.ofNat (b₀.toNat + 256 * (b₁.toNat + 256 * (b₂.toNat + 256 * b₃.toNat))), bs)
    | _ => none
  decode_eq_some {bs rest n} := by
    constructor
    · intro h
      split at h
      · rename_i b₀ b₁ b₂ b₃ bs
        simp only [Option.some.injEq, Prod.mk.injEq] at h
        obtain ⟨rfl, rfl⟩ := h
        have h₀ := b₀.toNat_lt
        have h₁ := b₁.toNat_lt
        have h₂ := b₂.toNat_lt
        have h₃ := b₃.toNat_lt
        rw [UInt32.toNat_ofNat_of_lt' (by simp only [UInt32.size]; omega)]
        have e₁ : (b₀.toNat + 256 * (b₁.toNat + 256 * (b₂.toNat + 256 * b₃.toNat))) / 256 =
            b₁.toNat + 256 * (b₂.toNat + 256 * b₃.toNat) := by omega
        have e₂ : (b₀.toNat + 256 * (b₁.toNat + 256 * (b₂.toNat + 256 * b₃.toNat))) / 65536 =
            b₂.toNat + 256 * b₃.toNat := by omega
        have e₃ : (b₀.toNat + 256 * (b₁.toNat + 256 * (b₂.toNat + 256 * b₃.toNat))) / 16777216 =
            b₃.toNat := by omega
        rw [e₁, e₂, e₃, ofNat_toNat_add_mul, ofNat_toNat_add_mul, ofNat_toNat_add_mul,
          UInt8.ofNat_toNat]
        rfl
      · cases h
    · rintro rfl
      have hn := n.toNat_lt
      simp only [List.cons_append, List.nil_append, Option.some.injEq, Prod.mk.injEq, and_true]
      apply UInt32.toNat_inj.mp
      simp only [UInt8.toNat_ofNat', UInt32.toNat_ofNat']
      omega

end Codec

end SIM
