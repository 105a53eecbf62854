import Mathlib

/-!
# Storage maps

A key-value map as a runtime stores it: every key holds a value or none.
`m ≤ m'` says that `m'` keeps every entry of `m`, with its value; an insertion
at a key that holds nothing only goes up (`le_insert`), which is all that a
write-once map ever does.
-/

namespace SIM

/-- A map from keys to optional values. -/
@[ext] structure StorageMap (K V : Type*) where
  get : K → Option V

namespace StorageMap

variable {K V : Type*}

/-- The map without entries. -/
def empty : StorageMap K V := ⟨fun _ => none⟩

/-- Whether a key holds a value. -/
def containsKey (m : StorageMap K V) (k : K) : Bool := (m.get k).isSome

/-- Store a value at a key, in the place of what it held. -/
def insert [DecidableEq K] (m : StorageMap K V) (k : K) (v : V) : StorageMap K V :=
  ⟨fun k' => if k' = k then some v else m.get k'⟩

/-- Remove what a key holds. -/
def erase [DecidableEq K] (m : StorageMap K V) (k : K) : StorageMap K V :=
  ⟨fun k' => if k' = k then none else m.get k'⟩

instance : Inhabited (StorageMap K V) := ⟨empty⟩

@[simp] theorem get_empty (k : K) : (empty : StorageMap K V).get k = none := rfl

theorem containsKey_eq_true {m : StorageMap K V} {k : K} :
    m.containsKey k = true ↔ ∃ v, m.get k = some v := Option.isSome_iff_exists

theorem containsKey_eq_false {m : StorageMap K V} {k : K} :
    m.containsKey k = false ↔ m.get k = none := by
  simp [containsKey]

section Insert

variable [DecidableEq K] {m : StorageMap K V} {k k' : K} {v w : V}

theorem get_insert : (m.insert k v).get k' = if k' = k then some v else m.get k' := rfl

@[simp] theorem get_insert_self : (m.insert k v).get k = some v := by simp [get_insert]

theorem get_insert_of_ne (h : k' ≠ k) : (m.insert k v).get k' = m.get k' := by
  simp [get_insert, h]

theorem containsKey_insert :
    (m.insert k v).containsKey k' = true ↔ k' = k ∨ m.containsKey k' = true := by
  by_cases h : k' = k <;> simp [containsKey, get_insert, h]

/-- An entry after an insertion is the one inserted, or was there before. -/
theorem get_insert_cases (h : (m.insert k v).get k' = some w) :
    k' = k ∧ w = v ∨ k' ≠ k ∧ m.get k' = some w := by
  by_cases hk : k' = k
  · subst hk; simp only [get_insert_self, Option.some.injEq] at h; exact .inl ⟨rfl, h.symm⟩
  · rw [get_insert_of_ne hk] at h; exact .inr ⟨hk, h⟩

/-- Two insertions at keys that held nothing agree only if they store the same value at the same
key. -/
theorem insert_inj (hk : m.get k = none) (h : m.insert k v = m.insert k' w) : k = k' ∧ v = w := by
  have hg : (m.insert k' w).get k = some v := by rw [← h, get_insert_self]
  rcases get_insert_cases hg with ⟨e, e'⟩ | ⟨-, e⟩
  · exact ⟨e, e'⟩
  · rw [hk] at e; cases e

theorem get_erase : (m.erase k).get k' = if k' = k then none else m.get k' := rfl

@[simp] theorem get_erase_self : (m.erase k).get k = none := by simp [get_erase]

theorem get_erase_of_ne (h : k' ≠ k) : (m.erase k).get k' = m.get k' := by
  simp [get_erase, h]

theorem erase_of_get_eq_none (h : m.get k = none) : m.erase k = m := by
  refine StorageMap.ext (funext fun k' => ?_)
  rw [get_erase]
  split_ifs with e
  · rw [e, h]
  · rfl

theorem get_foldl_erase (l : List K) :
    (l.foldl erase m).get k = if k ∈ l then none else m.get k := by
  induction l generalizing m with
  | nil => simp
  | cons k' l ih =>
    rw [List.foldl_cons, ih, get_erase]
    by_cases hk : k = k' <;> simp [hk]

end Insert

/-! ## Keeping entries -/

/-- `m'` keeps the entries of `m`. -/
instance : PartialOrder (StorageMap K V) where
  le m m' := ∀ k v, m.get k = some v → m'.get k = some v
  le_refl _ _ _ h := h
  le_trans _ _ _ h h' k v hk := h' k v (h k v hk)
  le_antisymm m m' h h' := by
    refine StorageMap.ext (funext fun k => Option.ext fun v => ⟨h k v, h' k v⟩)

/-- Writing a key that holds nothing keeps every entry. -/
theorem le_insert [DecidableEq K] {m : StorageMap K V} {k : K} (v : V)
    (hk : m.containsKey k = false) : m ≤ m.insert k v := by
  intro k' w hw
  rw [get_insert_of_ne, hw]
  rintro rfl
  rw [containsKey_eq_false.mp hk] at hw; cases hw

end StorageMap

end SIM
