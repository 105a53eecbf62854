import Mathlib

/-!
# Computations that ask an oracle once

A computation that is given an oracle, as a function of the oracle. `Asks f a` says what it means
that `f` asks the oracle for `a` and for nothing else, without looking into `f`: oracles that agree
at `a` give the same result, and not all oracles do. There is at most one such point (`Asks.eq`).
-/

namespace SIM

variable {α β γ : Type*}

/-- The result depends on the oracle through its answer at `a` at most. -/
def Reads (f : (α → β) → γ) (a : α) : Prop := ∀ h h' : α → β, h a = h' a → f h = f h'

/-- The result depends on the oracle, through its answer at `a` only. -/
def Asks (f : (α → β) → γ) (a : α) : Prop := Reads f a ∧ ∃ h h' : α → β, f h ≠ f h'

/-- An oracle that answers as `h` at one of two points and as `h'` at the other links any two
results. -/
theorem Asks.eq [DecidableEq α] {f : (α → β) → γ} {a b : α} (ha : Asks f a) (hb : Reads f b) :
    a = b := by
  obtain ⟨hreads, h, h', hne⟩ := ha
  by_contra hab
  refine hne ?_
  calc f h = f (Function.update h b (h' b)) := hreads _ _ (Function.update_of_ne hab _ _).symm
    _ = f h' := hb _ _ (Function.update_self b (h' b) h)

end SIM
