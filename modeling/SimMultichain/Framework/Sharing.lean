import Mathlib

/-!
# Sharing out work

Three ways to share out work among the members of a list, and what each guarantees.

* `slice l count p`: part `p` of a list that is cut into pieces of `count` entries. Different pieces of
  a list without duplicates share nothing (`ne_of_mem_slice`), and the first pieces together are
  the beginning of the list (`exists_mem_slice_iff`); `exists_beyond_iff` is about pieces that are
  not used to their ends.
* `TakesTurns members keys`: `keys` goes through `members` again and again. No member has two turns
  more than another (`TakesTurns.count_le`).
* `Numbered key num start l`: the entries of `l` with one key are numbered in order, from `start`
  of the key on. Lists with different keys can be put together (`Numbered.flatMap`), and no two
  entries have the same key and number (`Numbered.nodup`).

`count_blocks_eq_iff` is about a count that is kept by whole blocks.
-/

namespace SIM

/-! ## Slices -/

section Slice

variable {α : Type*}

/-- The entries from `start` on, as far as there are any. -/
theorem filterMap_range'_getElem? (l : List α) (start n : ℕ) :
    (List.range' start n).filterMap (fun i => l[i]?) = (l.drop start).take n := by
  induction n generalizing start with
  | zero => simp
  | succ n ih =>
    rw [List.range'_succ]
    cases h : l[start]? with
    | none =>
      have hlen := List.getElem?_eq_none_iff.mp h
      rw [List.filterMap_cons_none (by simpa using h), ih, List.drop_eq_nil_of_le hlen,
        List.drop_eq_nil_of_le (by omega)]
      simp
    | some a =>
      obtain ⟨hlt, rfl⟩ := List.getElem?_eq_some_iff.mp h
      rw [List.filterMap_cons_some h, ih, List.drop_eq_getElem_cons hlt, List.take_succ_cons]

/-- Part `p` of a list that is cut into pieces of `count` entries; the last piece may be shorter. -/
def slice (l : List α) (count p : ℕ) : List α := (l.drop (p * count)).take count

variable {l : List α} {count parts p q : ℕ}

theorem length_slice (l : List α) (count p : ℕ) :
    (slice l count p).length = min count (l.length - p * count) := by
  rw [slice, List.length_take, List.length_drop]

theorem getElem?_slice {k : ℕ} (hk : k < count) : (slice l count p)[k]? = l[p * count + k]? := by
  rw [slice, List.getElem?_take_of_lt hk, List.getElem?_drop]

theorem getElem?_of_mem_slice {a : α} (ha : a ∈ slice l count p) :
    ∃ k < count, l[p * count + k]? = some a := by
  obtain ⟨k, hk, rfl⟩ := List.mem_iff_getElem.mp ha
  have hlt : k < count := by
    rw [length_slice] at hk
    omega
  exact ⟨k, hlt, by rw [← getElem?_slice hlt, List.getElem?_eq_getElem hk]⟩

theorem nodup_slice (h : l.Nodup) : (slice l count p).Nodup :=
  h.sublist ((List.take_sublist ..).trans (List.drop_sublist ..))

/-- Different pieces of a list without duplicates share nothing. -/
theorem ne_of_mem_slice (h : l.Nodup) (hpq : p ≠ q) {a b : α} (ha : a ∈ slice l count p)
    (hb : b ∈ slice l count q) : a ≠ b := by
  rintro rfl
  obtain ⟨k, hk, hak⟩ := getElem?_of_mem_slice ha
  obtain ⟨j, hj, haj⟩ := getElem?_of_mem_slice hb
  obtain ⟨hlt, -⟩ := List.getElem?_eq_some_iff.mp hak
  have hidx := (List.getElem?_inj hlt h).mp (hak.trans haj.symm)
  -- the pieces are the quotients of the positions
  have hdiv : ∀ p k, k < count → (p * count + k) / count = p := by
    intro p k hk
    rw [Nat.mul_comm, Nat.mul_add_div (by omega), Nat.div_eq_of_lt hk, Nat.add_zero]
  exact hpq (by rw [← hdiv p k hk, hidx, hdiv q j hj])

/-- The first pieces of a list together are its beginning. -/
theorem exists_mem_slice_iff {a : α} :
    (∃ p < parts, a ∈ slice l count p) ↔ a ∈ l.take (parts * count) := by
  constructor
  · rintro ⟨p, hp, ha⟩
    obtain ⟨k, hk, hak⟩ := getElem?_of_mem_slice ha
    have hlt : p * count + k < parts * count :=
      calc p * count + k < (p + 1) * count := by
            rw [Nat.add_one_mul]; omega
        _ ≤ parts * count := Nat.mul_le_mul_right _ hp
    exact List.mem_of_getElem? ((List.getElem?_take_of_lt hlt).trans hak)
  · intro ha
    obtain ⟨j, hj⟩ := List.mem_iff_getElem?.mp ha
    have hlt : j < parts * count := by
      obtain ⟨hlt, -⟩ := List.getElem?_eq_some_iff.mp hj
      rw [List.length_take] at hlt
      omega
    have hpos : 0 < count := Nat.pos_of_mul_pos_left (Nat.zero_lt_of_lt hlt)
    rw [List.getElem?_take_of_lt hlt] at hj
    refine ⟨j / count, Nat.div_lt_of_lt_mul (by rwa [Nat.mul_comm]), ?_⟩
    refine List.mem_of_getElem? (i := j % count) ?_
    rw [getElem?_slice (Nat.mod_lt _ hpos), Nat.div_add_mod', hj]

/-- How far the first pieces reach of which only the first `share` entries are used: to the last
used entry of the last piece that begins before the end `n` of the list. -/
theorem exists_beyond_iff {n share bound : ℕ} (hparts : 0 < parts) (hshare : 0 < share) :
    (∃ p < parts, ∃ k < min count share, bound ≤ p * count + k ∧ p * count + k < n) ↔
      bound < min n (min (parts - 1) ((n - 1) / count) * count + min count share) := by
  rcases Nat.eq_zero_or_pos count with rfl | hcount
  · simp
  constructor
  · rintro ⟨p, hp, k, hk, hbound, hn⟩
    have hdiv : p ≤ (n - 1) / count := (Nat.le_div_iff_mul_le hcount).mpr (by omega)
    have hle := Nat.mul_le_mul_right count (le_min (Nat.le_sub_one_of_lt hp) hdiv)
    omega
  · intro hbound
    have hlast : min (parts - 1) ((n - 1) / count) ≤ parts - 1 := Nat.min_le_left ..
    have hstart : min (parts - 1) ((n - 1) / count) * count ≤ n - 1 :=
      (Nat.mul_le_mul_right _ (Nat.min_le_right ..)).trans (Nat.div_mul_le_self ..)
    generalize min (parts - 1) ((n - 1) / count) = last at hbound hlast hstart
    exact ⟨last, by omega, min (n - last * count) (min count share) - 1, by omega, by omega, by omega⟩

theorem mem_take_iff_lt (h : l.Nodup) {a : α} {j m : ℕ} (hj : l[j]? = some a) :
    a ∈ l.take m ↔ j < m := by
  obtain ⟨hlt, -⟩ := List.getElem?_eq_some_iff.mp hj
  constructor
  · intro ha
    obtain ⟨i, hi⟩ := List.mem_iff_getElem?.mp ha
    have him : i < m := by
      obtain ⟨him, -⟩ := List.getElem?_eq_some_iff.mp hi
      rw [List.length_take] at him
      omega
    rw [List.getElem?_take_of_lt him] at hi
    rwa [(List.getElem?_inj hlt h).mp (hj.trans hi.symm)]
  · intro hjm
    exact List.mem_of_getElem? ((List.getElem?_take_of_lt hjm).trans hj)

end Slice

/-! ## Turns -/

section Turns

variable {κ : Type*}

/-- `keys` goes through `members` again and again. -/
def TakesTurns (members keys : List κ) : Prop :=
  ∀ j < keys.length, keys[j]? = members[j % members.length]?

variable {members keys : List κ} {a b : κ}

theorem TakesTurns.nil : TakesTurns members [] := by
  intro j hj
  simp at hj

theorem TakesTurns.snoc (h : TakesTurns members keys)
    (ha : members[keys.length % members.length]? = some a) : TakesTurns members (keys ++ [a]) := by
  intro j hj
  rw [List.length_append, List.length_singleton] at hj
  rcases Nat.lt_or_ge j keys.length with hlt | hge
  · rw [List.getElem?_append_left hlt, h j hlt]
  · obtain rfl : j = keys.length := by omega
    rw [List.getElem?_concat_length, ha]

theorem TakesTurns.mem (h : TakesTurns members keys) (ha : a ∈ keys) : a ∈ members := by
  obtain ⟨j, hj, rfl⟩ := List.mem_iff_getElem.mp ha
  have := h j hj
  rw [List.getElem?_eq_getElem hj] at this
  exact List.mem_of_getElem? this.symm

variable [DecidableEq κ]

theorem TakesTurns.count_eq (h : TakesTurns members keys) (hnd : members.Nodup) {k : ℕ}
    (hk : members[k]? = some a) :
    keys.count a = Nat.count (· % members.length = k) keys.length := by
  obtain ⟨hlt, -⟩ := List.getElem?_eq_some_iff.mp hk
  induction keys using List.reverseRecOn with
  | nil => simp
  | append_singleton keys x ih =>
    have hpre : TakesTurns members keys := by
      intro j hj
      have := h j (by rw [List.length_append]; omega)
      rwa [List.getElem?_append_left hj] at this
    have hx : some x = members[keys.length % members.length]? := by
      have := h keys.length (by simp)
      rwa [List.getElem?_concat_length] at this
    rw [List.count_append, List.length_append, List.length_singleton, Nat.count_succ, ih hpre,
      List.count_singleton]
    have hiff : x = a ↔ keys.length % members.length = k := by
      rw [← Option.some_inj, hx, ← hk]
      exact List.getElem?_inj (Nat.mod_lt _ (by omega)) hnd
    simp only [beq_iff_eq, hiff]

/-- No member has two turns more than another. -/
theorem TakesTurns.count_le (h : TakesTurns members keys) (hnd : members.Nodup) (ha : a ∈ members)
    (hb : b ∈ members) : keys.count a ≤ keys.count b + 1 := by
  obtain ⟨j, hj, hja⟩ := List.getElem_of_mem ha
  obtain ⟨k, hk, hkb⟩ := List.getElem_of_mem hb
  have hcount : ∀ i < members.length, Nat.count (· % members.length = i) keys.length =
      keys.length / members.length + if i < keys.length % members.length then 1 else 0 := by
    intro i hi
    have := Nat.count_modEq_card (by omega : 0 < members.length) i (b := keys.length)
    simpa only [Nat.ModEq, Nat.mod_eq_of_lt hi] using this
  rw [h.count_eq hnd (List.getElem?_eq_some_iff.mpr ⟨hj, hja⟩),
    h.count_eq hnd (List.getElem?_eq_some_iff.mpr ⟨hk, hkb⟩), hcount j hj, hcount k hk]
  split <;> split <;> omega

end Turns

/-! ## Numbers -/

section Numbers

variable {τ κ : Type*} [DecidableEq κ]

/-- The entries with one key are numbered in order, from `start` of the key on. -/
def Numbered (key : τ → κ) (num : τ → ℕ) (start : κ → ℕ) (l : List τ) : Prop :=
  ∀ k, (l.filter (key · = k)).map num = List.range' (start k) (l.countP (key · = k))

namespace Numbered

variable {key : τ → κ} {num : τ → ℕ} {start : κ → ℕ} {l l' : List τ}

theorem nil : Numbered key num start [] := by
  intro k
  simp

theorem snoc (h : Numbered key num start l) {t : τ}
    (ht : num t = start (key t) + l.countP (key · = key t)) : Numbered key num start (l ++ [t]) := by
  intro k
  rw [List.filter_append, List.map_append, h k, List.countP_append]
  by_cases hk : key t = k
  · subst hk
    simp [ht, List.range'_concat]
  · simp [hk]

theorem append (h : Numbered key num start l) (h' : Numbered key num start l')
    (hne : ∀ t ∈ l, ∀ t' ∈ l', key t ≠ key t') : Numbered key num start (l ++ l') := by
  intro k
  rw [List.filter_append, List.map_append, h k, h' k, List.countP_append]
  by_cases hk : ∃ t ∈ l, key t = k
  · obtain ⟨t, ht, rfl⟩ := hk
    have hzero : l'.countP (key · = key t) = 0 := by
      rw [List.countP_eq_zero]
      intro t' ht'
      simpa using (hne t ht t' ht').symm
    simp [hzero]
  · have hzero : l.countP (key · = k) = 0 := by
      rw [List.countP_eq_zero]
      intro t ht
      simpa using fun he => hk ⟨t, ht, he⟩
    simp [hzero]

/-- Lists that share no key, put together. -/
theorem flatMap {ι : Type*} {f : ι → List τ} {is : List ι}
    (h : ∀ i ∈ is, Numbered key num start (f i))
    (hne : is.Pairwise fun i j => ∀ t ∈ f i, ∀ t' ∈ f j, key t ≠ key t') :
    Numbered key num start (is.flatMap f) := by
  induction is with
  | nil => exact nil
  | cons i is ih =>
    rw [List.pairwise_cons] at hne
    rw [List.flatMap_cons]
    refine (h i List.mem_cons_self).append (ih (fun j hj => h j (List.mem_cons_of_mem _ hj)) hne.2) ?_
    intro t ht t' ht'
    obtain ⟨j, hj, hmem⟩ := List.mem_flatMap.mp ht'
    exact hne.1 j hj t ht t' hmem

/-- No two entries have the same key and number. -/
theorem nodup (h : Numbered key num start l) : (l.map fun t => (key t, num t)).Nodup := by
  rw [List.nodup_iff_count_le_one]
  rintro ⟨k, n⟩
  have hcount : (l.map fun t => (key t, num t)).count (k, n) =
      ((l.filter (key · = k)).map num).count n := by
    rw [List.count_eq_countP, List.count_eq_countP, List.countP_map, List.countP_map,
      List.countP_filter]
    refine List.countP_congr fun t _ => ?_
    simp [and_comm]
  rw [hcount, h k]
  exact List.nodup_iff_count_le_one.mp List.nodup_range' n

end Numbered

end Numbers

/-! ## Blocks -/

section Blocks

variable (p : ℕ → Bool) (d : ℕ)

/-- Whether all of block `b` of `d` numbers satisfies `p`. -/
def wholeBlock (b : ℕ) : Bool := (List.range d).all fun j => p (b * d + j)

theorem countP_range_add_block (q : ℕ) : (List.range ((q + 1) * d)).countP p =
    (List.range (q * d)).countP p + (List.range d).countP fun j => p (q * d + j) := by
  rw [Nat.add_one_mul, List.range_add, List.countP_append, List.countP_map]
  rfl

/-- Counting whole blocks only counts too little in a block that is neither whole nor empty. -/
theorem block_le (b : ℕ) :
    (if wholeBlock p d b = true then d else 0) ≤ (List.range d).countP fun j => p (b * d + j) := by
  split
  · rename_i hall
    rw [wholeBlock, List.all_eq_true] at hall
    rw [List.countP_eq_length.mpr hall, List.length_range]
  · exact Nat.zero_le _

theorem block_eq_iff (b : ℕ) :
    (if wholeBlock p d b = true then d else 0) = ((List.range d).countP fun j => p (b * d + j)) ↔
      (∀ j < d, p (b * d + j) = true) ∨ ∀ j < d, p (b * d + j) = false := by
  have hall : wholeBlock p d b = true ↔ ∀ j < d, p (b * d + j) = true := by
    simp [wholeBlock]
  have hnone : ((List.range d).countP fun j => p (b * d + j)) = 0 ↔ ∀ j < d, p (b * d + j) = false := by
    simp [List.countP_eq_zero]
  rw [← hall, ← hnone]
  split
  · rename_i h
    have := block_le p d b
    rw [if_pos h] at this
    have hle := List.countP_le_length (p := fun j => p (b * d + j)) (l := List.range d)
    rw [List.length_range] at hle
    simp only [h, true_or, iff_true]
    omega
  · rename_i h
    simp only [h, Bool.false_eq_true, false_or]
    exact eq_comm

/-- Counting whole blocks only is right when every block is whole or empty. -/
theorem count_blocks_eq_iff (q : ℕ) :
    d * (List.range q).countP (wholeBlock p d) = (List.range (q * d)).countP p ↔
      ∀ b < q, (∀ j < d, p (b * d + j) = true) ∨ ∀ j < d, p (b * d + j) = false := by
  have hsucc : ∀ q, d * (List.range (q + 1)).countP (wholeBlock p d) =
      d * (List.range q).countP (wholeBlock p d) + if wholeBlock p d q = true then d else 0 := by
    intro q
    rw [List.range_succ, List.countP_append, List.countP_singleton, Nat.mul_add]
    split <;> simp
  have hle : ∀ q, d * (List.range q).countP (wholeBlock p d) ≤ (List.range (q * d)).countP p := by
    intro q
    induction q with
    | zero => simp
    | succ q ih =>
      rw [hsucc, countP_range_add_block]
      exact Nat.add_le_add ih (block_le p d q)
  induction q with
  | zero => simp
  | succ q ih =>
    rw [hsucc, countP_range_add_block, Nat.forall_lt_succ_right]
    have hq := hle q
    have hblock := block_le p d q
    refine Iff.trans ?_ (and_congr ih (block_eq_iff p d q))
    omega

end Blocks

end SIM
