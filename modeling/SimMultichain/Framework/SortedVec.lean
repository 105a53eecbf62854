import Mathlib

/-!
# Vectors searched by halving

The search a slice is searched with (`binarySearchBy`), and vectors that are kept
in strictly ascending order by inserting and removing at the position it finds.
`SortedVec` carries the order as a field, so that `insert` and `remove` are set
operations: `SortedVec.mem_insert`, `SortedVec.mem_remove`.

`swapRemove` takes an element out of a vector and puts the last one in its place.
-/

namespace SIM

/-! ## Halving -/

section Search

variable {α : Type*}

/-- The loop of `binary_search_by` over the positions from `left` up to `right`. -/
def searchLoop (cmp : α → Ordering) (l : List α) : Nat → Nat → Nat → Except Nat Nat
  | 0, left, _ => .error left
  | fuel + 1, left, right =>
    if left < right then
      let mid := left + (right - left) / 2
      match (l[mid]?).map cmp with
      | some .lt => searchLoop cmp l fuel (mid + 1) right
      | some .gt => searchLoop cmp l fuel left mid
      | some .eq => .ok mid
      | none => .error left
    else .error left

/-- `slice::binary_search_by`: the position of an element that `cmp` finds equal, or the one where
it could be inserted. -/
def binarySearchBy (cmp : α → Ordering) (l : List α) : Except Nat Nat :=
  searchLoop cmp l l.length 0 l.length

/-- What a search of `l` returns when `cmp` ascends along it. -/
def Found (cmp : α → Ordering) (l : List α) : Except Nat Nat → Prop
  | .ok i => ∃ a, l[i]? = some a ∧ cmp a = .eq
  | .error i => i ≤ l.length ∧ (∀ a ∈ l.take i, cmp a = .lt) ∧ ∀ a ∈ l.drop i, cmp a = .gt

variable {cmp : α → Ordering} {l : List α}

theorem searchLoop_found (hs : l.Pairwise fun a b => (cmp b = .lt → cmp a = .lt) ∧ (cmp a = .gt → cmp b = .gt))
    {fuel left right : Nat} (hf : right - left ≤ fuel) (hlr : left ≤ right) (hr : right ≤ l.length)
    (hlt : ∀ a ∈ l.take left, cmp a = .lt) (hgt : ∀ a ∈ l.drop right, cmp a = .gt) :
    Found cmp l (searchLoop cmp l fuel left right) := by
  fun_induction searchLoop cmp l fuel left right with
  | case1 left right =>
    obtain rfl : left = right := by omega
    exact ⟨hr, hlt, hgt⟩
  | case2 right fuel left h mid hm ih =>
    -- everything up to `mid` is below
    obtain ⟨a, ha, hca⟩ := Option.map_eq_some_iff.mp hm
    obtain ⟨hml, rfl⟩ := List.getElem?_eq_some_iff.mp ha
    refine ih (by omega) (by omega) hr ?_ hgt
    intro b hb
    rw [List.take_add_one, List.mem_append, ha] at hb
    rcases hb with hb | hb
    · obtain ⟨j, hj, rfl⟩ := List.mem_take_iff_getElem.mp hb
      exact (List.pairwise_iff_getElem.mp hs j mid (by omega) hml (by omega)).1 hca
    · simp only [Option.toList_some, List.mem_singleton] at hb
      rw [hb, hca]
  | case3 right fuel left h mid hm ih =>
    -- everything from `mid` on is above
    obtain ⟨a, ha, hca⟩ := Option.map_eq_some_iff.mp hm
    obtain ⟨hml, rfl⟩ := List.getElem?_eq_some_iff.mp ha
    refine ih (by omega) (by omega) (by omega) hlt ?_
    intro b hb
    obtain ⟨j, hj, rfl⟩ := List.mem_drop_iff_getElem.mp hb
    rcases Nat.eq_zero_or_pos j with rfl | hpos
    · simpa using hca
    · exact (List.pairwise_iff_getElem.mp hs mid (mid + j) hml (by omega) (by omega)).2 hca
  | case4 right fuel left h mid hm =>
    obtain ⟨a, ha, hca⟩ := Option.map_eq_some_iff.mp hm
    exact ⟨a, ha, hca⟩
  | case5 right fuel left h mid hm =>
    have : l.length ≤ mid := by simpa using hm
    omega
  | case6 fuel left right h =>
    obtain rfl : left = right := by omega
    exact ⟨hr, hlt, hgt⟩

theorem binarySearchBy_found
    (hs : l.Pairwise fun a b => (cmp b = .lt → cmp a = .lt) ∧ (cmp a = .gt → cmp b = .gt)) :
    Found cmp l (binarySearchBy cmp l) :=
  searchLoop_found hs (by omega) (by omega) le_rfl (by simp) (by simp)

end Search

section Keys

variable {α κ : Type*} [LinearOrder κ]

/-- `slice::binary_search_by_key` -/
def binarySearchByKey (l : List α) (key : α → κ) (k : κ) : Except Nat Nat :=
  binarySearchBy (fun a => compare (key a) k) l

theorem binarySearchByKey_found {l : List α} {key : α → κ} {k : κ}
    (hs : l.Pairwise fun a b => key a < key b) :
    Found (fun a => compare (key a) k) l (binarySearchByKey l key k) := by
  refine binarySearchBy_found (hs.imp fun {a b} hab => ⟨fun h => ?_, fun h => ?_⟩)
  · rw [compare_lt_iff_lt] at h ⊢
    exact hab.trans h
  · rw [compare_gt_iff_gt] at h ⊢
    exact lt_trans h hab

/-- A search finds the keys that are there. -/
theorem isOk_binarySearchByKey {l : List α} {key : α → κ} {k : κ}
    (hs : l.Pairwise fun a b => key a < key b) :
    (binarySearchByKey l key k).isOk = true ↔ ∃ a ∈ l, key a = k := by
  have hf := binarySearchByKey_found (k := k) hs
  cases hr : binarySearchByKey l key k with
  | ok i =>
    rw [hr] at hf
    obtain ⟨a, ha, hc⟩ := hf
    exact ⟨fun _ => ⟨a, List.mem_of_getElem? ha, compare_eq_iff_eq.mp hc⟩, fun _ => rfl⟩
  | error i =>
    rw [hr] at hf
    obtain ⟨-, hlt, hgt⟩ := hf
    refine ⟨fun h => Bool.noConfusion h, ?_⟩
    rintro ⟨a, ha, rfl⟩
    rw [← List.take_append_drop i l, List.mem_append] at ha
    rcases ha with ha | ha
    · exact absurd (hlt a ha) (by simp)
    · exact absurd (hgt a ha) (by simp)

end Keys

/-! ## Vectors in ascending order -/

/-- A vector in strictly ascending order. -/
@[ext] structure SortedVec (α : Type*) [LinearOrder α] where
  items : List α
  sorted : items.Pairwise (· < ·)

namespace SortedVec

variable {α : Type*} [LinearOrder α]

instance : Membership α (SortedVec α) := ⟨fun v x => x ∈ v.items⟩

instance (v : SortedVec α) (x : α) : Decidable (x ∈ v) := inferInstanceAs (Decidable (x ∈ v.items))

instance : DecidableEq (SortedVec α) := fun v w =>
  decidable_of_iff (v.items = w.items) SortedVec.ext_iff.symm

def empty : SortedVec α := ⟨[], .nil⟩

instance : Inhabited (SortedVec α) := ⟨empty⟩

theorem mem_items {v : SortedVec α} {x : α} : x ∈ v.items ↔ x ∈ v := Iff.rfl

@[simp] theorem not_mem_empty (x : α) : x ∉ (empty : SortedVec α) := List.not_mem_nil

theorem nodup (v : SortedVec α) : v.items.Nodup := v.sorted.imp fun h => ne_of_lt h

/-- `slice::binary_search` -/
def search (v : SortedVec α) (x : α) : Except Nat Nat := binarySearchByKey v.items id x

theorem search_found (v : SortedVec α) (x : α) :
    Found (fun a => compare a x) v.items (v.search x) := binarySearchByKey_found v.sorted

theorem isOk_search {v : SortedVec α} {x : α} : (v.search x).isOk = true ↔ x ∈ v := by
  have hs : v.items.Pairwise fun a b => id a < id b := v.sorted
  rw [search, isOk_binarySearchByKey hs]
  exact ⟨fun ⟨a, ha, e⟩ => e ▸ ha, fun h => ⟨x, h, rfl⟩⟩

theorem search_ok {v : SortedVec α} {x : α} {i : Nat} (h : v.search x = .ok i) :
    v.items[i]? = some x := by
  have hf := v.search_found x
  rw [h] at hf
  obtain ⟨a, ha, hc⟩ := hf
  rw [ha, compare_eq_iff_eq.mp hc]

theorem not_mem_of_search_error {v : SortedVec α} {x : α} {i : Nat} (h : v.search x = .error i) :
    x ∉ v := by
  rw [← isOk_search, h]
  exact Bool.false_ne_true

/-- Inserting where the search ends keeps the order. -/
theorem sorted_insertIdx {v : SortedVec α} {x : α} {i : Nat} (h : v.search x = .error i) :
    (v.items.take i ++ x :: v.items.drop i).Pairwise (· < ·) := by
  have hf := v.search_found x
  rw [h] at hf
  obtain ⟨-, hlt, hgt⟩ := hf
  have hs := v.sorted
  rw [← List.take_append_drop i v.items, List.pairwise_append] at hs
  obtain ⟨ht, hd, htd⟩ := hs
  refine List.pairwise_append.mpr ⟨ht, List.pairwise_cons.mpr ⟨fun a ha => ?_, hd⟩, ?_⟩
  · exact compare_gt_iff_gt.mp (hgt a ha)
  · intro a ha b hb
    rcases List.mem_cons.mp hb with rfl | hb
    · exact compare_lt_iff_lt.mp (hlt a ha)
    · exact htd a ha b hb

/-- `if let Err(i) = v.binary_search(&x) { v.insert(i, x) }` -/
def insert (v : SortedVec α) (x : α) : SortedVec α :=
  match h : v.search x with
  | .ok _ => v
  | .error i => ⟨v.items.take i ++ x :: v.items.drop i, sorted_insertIdx h⟩

/-- `if let Ok(i) = v.binary_search(&x) { v.remove(i) }` -/
def remove (v : SortedVec α) (x : α) : SortedVec α :=
  match v.search x with
  | .ok i => ⟨v.items.eraseIdx i, v.sorted.eraseIdx i⟩
  | .error _ => v

@[simp] theorem mem_insert {v : SortedVec α} {x y : α} : y ∈ v.insert x ↔ y = x ∨ y ∈ v := by
  unfold insert
  split
  · rename_i i h
    have hx : x ∈ v := List.mem_of_getElem? (search_ok h)
    exact ⟨.inr, fun hy => hy.elim (fun e => e ▸ hx) id⟩
  · rename_i i h
    rw [← mem_items, ← mem_items]
    conv_rhs => rw [← List.take_append_drop i v.items]
    simp only [List.mem_append, List.mem_cons]
    tauto

@[simp] theorem mem_remove {v : SortedVec α} {x y : α} : y ∈ v.remove x ↔ y ≠ x ∧ y ∈ v := by
  unfold remove
  split
  · rename_i i h
    obtain ⟨hi, rfl⟩ := List.getElem?_eq_some_iff.mp (search_ok h)
    change y ∈ v.items.eraseIdx i ↔ _
    rw [← v.nodup.erase_getElem i hi, v.nodup.mem_erase_iff, mem_items]
  · rename_i i h
    have hx := not_mem_of_search_error h
    refine ⟨fun hy => ⟨?_, hy⟩, And.right⟩
    rintro rfl
    exact hx hy

/-- A list sorted and without its duplicates. -/
def ofList (l : List α) : SortedVec α := l.foldl insert empty

@[simp] theorem mem_ofList {l : List α} {x : α} : x ∈ ofList l ↔ x ∈ l := by
  have key : ∀ v : SortedVec α, x ∈ l.foldl insert v ↔ x ∈ v ∨ x ∈ l := by
    induction l with
    | nil => simp
    | cons y l ih =>
      intro v
      rw [List.foldl_cons, ih, mem_insert, List.mem_cons]
      tauto
  simp [ofList, key]

end SortedVec

/-! ## Taking an element out -/

section SwapRemove

open scoped List

variable {α : Type*}

/-- `Vec::swap_remove`: the last element takes the place of the one removed. -/
def swapRemove (l : List α) (i : Nat) : List α :=
  match l.getLast? with
  | some x => (l.set i x).dropLast
  | none => l

/-- Up to the order, an element less. -/
theorem swapRemove_perm {l : List α} {i : Nat} {a : α} (h : l[i]? = some a) :
    a :: swapRemove l i ~ l := by
  obtain ⟨hi, rfl⟩ := List.getElem?_eq_some_iff.mp h
  rcases List.eq_nil_or_concat l with rfl | ⟨l, x, rfl⟩
  · simp at hi
  · simp only [List.concat_eq_append] at hi ⊢
    simp only [swapRemove, List.getLast?_append, List.getLast?_singleton, Option.some_or]
    rcases Nat.lt_or_ge i l.length with hlt | hge
    · rw [List.set_append_left _ _ hlt, List.dropLast_concat, List.getElem_append_left hlt]
      calc l[i] :: l.set i x
        _ ~ l[i] :: x :: l.eraseIdx i := (List.set_perm_cons_eraseIdx hlt x).cons _
        _ ~ x :: l[i] :: l.eraseIdx i := .swap ..
        _ ~ x :: l := (List.getElem_cons_eraseIdx_perm hlt).cons x
        _ ~ l ++ [x] := (List.perm_append_singleton x l).symm
    · obtain rfl : i = l.length := by simp at hi; omega
      simpa using (List.perm_append_singleton x l).symm

/-- From the position on, the elements are ones that came after it. -/
theorem getElem?_swapRemove {l : List α} {i j : Nat} {a : α} (hij : i ≤ j)
    (h : (swapRemove l i)[j]? = some a) : ∃ k, i < k ∧ l[k]? = some a := by
  rcases List.eq_nil_or_concat l with rfl | ⟨l, x, rfl⟩
  · simp [swapRemove] at h
  · simp only [List.concat_eq_append, swapRemove, List.getLast?_append, List.getLast?_singleton,
      Option.some_or] at h ⊢
    have hj : j < l.length := by
      have := (List.getElem?_eq_some_iff.mp h).1
      simpa using this
    rw [List.set_append_left _ _ (by omega), List.dropLast_concat] at h
    rcases hij.eq_or_lt with rfl | hlt
    · rw [List.getElem?_set_self hj] at h
      exact ⟨l.length, hj, by simpa using h⟩
    · rw [List.getElem?_set_ne (by omega)] at h
      exact ⟨j, hlt, by rw [List.getElem?_append_left hj, h]⟩

end SwapRemove

end SIM
