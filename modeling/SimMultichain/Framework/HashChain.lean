import Mathlib

/-!
# Chains of hashes

The head of a chain of hashes over a list of entries: every link is the hash of
the head before it and an entry. Where the hash function separates the links that
were computed, and none of them is the value the chain starts from, the head
determines the whole list (`chainHead_inj`).
-/

namespace SIM

variable {H α : Type*} (link : H → α → H) (start : H)

/-- The head of the chain over a list, oldest entry first. -/
def chainHead (l : List α) : H := l.foldl link start

/-- The links computed for a list: the head before each entry, with the entry. -/
def chainLinks : H → List α → List (H × α)
  | _, [] => []
  | h, a :: l => (h, a) :: chainLinks (link h a) l

/-- The hash function separates the links in `ps`, and none of them hashes to `start`. -/
structure ChainFree (ps : List (H × α)) : Prop where
  inj : ∀ p ∈ ps, ∀ q ∈ ps, link p.1 p.2 = link q.1 q.2 → p = q
  fresh : ∀ p ∈ ps, link p.1 p.2 ≠ start

@[simp] theorem chainHead_nil : chainHead link start ([] : List α) = start := rfl

theorem chainHead_append (l l' : List α) :
    chainHead link start (l ++ l') = chainHead link (chainHead link start l) l' := List.foldl_append

theorem chainHead_snoc (l : List α) (a : α) :
    chainHead link start (l ++ [a]) = link (chainHead link start l) a := by
  rw [chainHead_append]; rfl

theorem chainLinks_append (h : H) (l l' : List α) :
    chainLinks link h (l ++ l') = chainLinks link h l ++ chainLinks link (chainHead link h l) l' := by
  induction l generalizing h with
  | nil => rfl
  | cons a l ih =>
    rw [List.cons_append, chainLinks, chainLinks, ih]
    rfl

theorem chainLinks_snoc (l : List α) (a : α) : chainLinks link start (l ++ [a]) =
    chainLinks link start l ++ [(chainHead link start l, a)] := by
  rw [chainLinks_append]; rfl

theorem last_mem_chainLinks (l : List α) (a : α) :
    (chainHead link start l, a) ∈ chainLinks link start (l ++ [a]) := by
  simp [chainLinks_snoc]

theorem chainLinks_subset_snoc (l : List α) (a : α) :
    chainLinks link start l ⊆ chainLinks link start (l ++ [a]) := by
  simp [chainLinks_snoc]

variable {link start}

/-- The head determines the list. -/
theorem chainHead_inj {ps : List (H × α)} (hps : ChainFree link start ps) {l l' : List α}
    (hl : chainLinks link start l ⊆ ps) (hl' : chainLinks link start l' ⊆ ps)
    (h : chainHead link start l = chainHead link start l') : l = l' := by
  -- the last links have the same hash, so they are the same
  induction l using List.reverseRecOn generalizing l' with
  | nil =>
    induction l' using List.reverseRecOn with
    | nil => rfl
    | append_singleton l' b =>
      rw [chainHead_nil, chainHead_snoc] at h
      exact absurd h.symm (hps.fresh _ (hl' (last_mem_chainLinks ..)))
  | append_singleton l a ih =>
    induction l' using List.reverseRecOn with
    | nil =>
      rw [chainHead_nil, chainHead_snoc] at h
      exact absurd h (hps.fresh _ (hl (last_mem_chainLinks ..)))
    | append_singleton l' b =>
      rw [chainHead_snoc, chainHead_snoc] at h
      obtain ⟨hh, rfl⟩ := Prod.mk.inj
        (hps.inj _ (hl (last_mem_chainLinks ..)) _ (hl' (last_mem_chainLinks ..)) h)
      rw [ih (List.Subset.trans (chainLinks_subset_snoc ..) hl)
        (List.Subset.trans (chainLinks_subset_snoc ..) hl') hh]

end SIM
