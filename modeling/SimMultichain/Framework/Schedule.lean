import SimMultichain.Framework.Machine

/-!
# Runs that end

A schedule is an endless sequence of inputs. Two rules say that a run ends, both from a measure:

* `Machine.ends_of_fair`: along a schedule on which awaited inputs come sooner or later, if every
  input that does something lowers the measure, and something that does is awaited until the end;
* `Machine.exists_run_to`: with inputs of our choice, if one of them lowers the measure until the
  end.

`again` makes a schedule on which each of a sequence of inputs comes again and again.
-/

namespace SIM

namespace Machine

variable {σ ι ο : Type*} (M : Machine σ ι ο)

/-- The state after the first `t` inputs of a schedule. -/
def after (s : σ) (inputs : ℕ → ι) (t : ℕ) : σ := M.run s ((List.range t).map inputs)

@[simp] theorem after_zero (s : σ) (inputs : ℕ → ι) : M.after s inputs 0 = s := rfl

theorem after_succ (s : σ) (inputs : ℕ → ι) (t : ℕ) :
    M.after s inputs (t + 1) = M.next (M.after s inputs t) (inputs t) := by
  rw [after, List.range_succ, List.map_append]
  exact M.run_snoc s _ _

variable {M} {s : σ} {inputs : ℕ → ι} (Inv Done : σ → Prop)

/-- A fair run of a machine whose inputs do nothing or lower a measure reaches the end. -/
theorem ends_of_fair (awaits : σ → ι → Prop) (size : σ → ℕ)
    (hstep : ∀ s i, Inv s → ¬ Done s →
      M.next s i = s ∨ Inv (M.next s i) ∧ size (M.next s i) < size s)
    (hmove : ∀ s, Inv s → ¬ Done s → ∃ i, awaits s i ∧ M.next s i ≠ s)
    (hfair : ∀ t i, awaits (M.after s inputs t) i → ∃ t' ≥ t, inputs t' = i) (hs : Inv s) :
    ∃ t, Inv (M.after s inputs t) ∧ Done (M.after s inputs t) := by
  -- from any time on, by what is left at that time
  suffices h : ∀ n t, size (M.after s inputs t) = n → Inv (M.after s inputs t) →
      ∃ t, Inv (M.after s inputs t) ∧ Done (M.after s inputs t) from h _ 0 rfl hs
  intro n
  induction n using Nat.strong_induction_on with
  | _ n ih =>
    intro t hn hinv
    by_cases hdone : Done (M.after s inputs t)
    · exact ⟨t, hinv, hdone⟩
    obtain ⟨i, hawaits, hi⟩ := hmove _ hinv hdone
    obtain ⟨t', ht', rfl⟩ := hfair t i hawaits
    -- the first time that something happens is at `t'` at the latest
    have hfirst : ∃ u ≥ t, M.after s inputs u = M.after s inputs t ∧
        M.next (M.after s inputs u) (inputs u) ≠ M.after s inputs u := by
      by_contra hnone
      push Not at hnone
      have hsame : ∀ d, M.after s inputs (t + d) = M.after s inputs t := by
        intro d
        induction d with
        | zero => rfl
        | succ d ihd =>
          rw [← Nat.add_assoc, M.after_succ, hnone (t + d) (Nat.le_add_right ..) ihd, ihd]
      obtain ⟨d, rfl⟩ := Nat.exists_eq_add_of_le ht'
      exact hi (by rw [← hsame d]; exact hnone _ ht' (hsame d))
    obtain ⟨u, -, hu, hne⟩ := hfirst
    rw [hu] at hne
    obtain heq | ⟨hinv', hlt⟩ := hstep _ (inputs u) hinv hdone
    · exact absurd heq hne
    · refine ih _ ?_ (u + 1) rfl ?_
      · rwa [M.after_succ, hu, ← hn]
      · rwa [M.after_succ, hu]

/-- With inputs of our choice, a machine is led to the end. -/
theorem exists_run_to {α : Type*} [Preorder α] [WellFoundedLT α] (size : σ → α) (ok : ι → Prop)
    (hmove : ∀ s, Inv s → ¬ Done s → ∃ i, ok i ∧ Inv (M.next s i) ∧ size (M.next s i) < size s)
    (hs : Inv s) : ∃ is, (∀ i ∈ is, ok i) ∧ Inv (M.run s is) ∧ Done (M.run s is) := by
  suffices h : ∀ n s, size s = n → Inv s →
      ∃ is, (∀ i ∈ is, ok i) ∧ Inv (M.run s is) ∧ Done (M.run s is) from h _ s rfl hs
  intro n
  induction n using WellFoundedLT.induction with
  | _ n ih =>
    rintro s rfl hinv
    by_cases hdone : Done s
    · exact ⟨[], by simp, hinv, hdone⟩
    obtain ⟨i, hok, hinv', hlt⟩ := hmove s hinv hdone
    obtain ⟨is, hoks, hend⟩ := ih _ hlt _ rfl hinv'
    exact ⟨i :: is, List.forall_mem_cons.mpr ⟨hok, hoks⟩, hend⟩

end Machine

/-- Each of a sequence of inputs, again and again. -/
def again {ι : Type*} (f : ℕ → ι) (t : ℕ) : ι := f (Nat.unpair t).1

theorem exists_again {ι : Type*} (f : ℕ → ι) (k t : ℕ) : ∃ t' ≥ t, again f t' = f k :=
  ⟨Nat.pair k t, Nat.right_le_pair k t, by rw [again, Nat.unpair_pair]⟩

end SIM
