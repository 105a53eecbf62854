import Mathlib

/-!
# Bodies that keep their writes when they fail

A body reads and writes a state and may stop with an error; the state it leaves
then is the one at that point, so an error does not undo what came before it.
`Body.exec` runs a body, and the rules below run it one operation at a time:
the first operation of a sequence either ends it with an error or passes its
result and state on.
-/

namespace SIM

/-- A body over states `σ` with errors `ε`. -/
abbrev Body (σ ε : Type) := ExceptT ε (StateM σ)

namespace Body

variable {σ ε α β : Type}

/-- A body's result, and the state it leaves. -/
def exec (x : Body σ ε α) (s : σ) : Except ε α × σ := (ExceptT.run x).run s

/-- Stop with an error unless a condition holds. -/
def ensure (cond : Bool) (error : ε) : Body σ ε Unit := if cond then pure () else throw error

@[simp] theorem exec_throw (e : ε) (s : σ) : (throw e : Body σ ε α).exec s = (.error e, s) := rfl

theorem exec_bind_ok {x : Body σ ε α} {s s' : σ} {a : α} (h : x.exec s = (.ok a, s'))
    (f : α → Body σ ε β) : (x >>= f).exec s = (f a).exec s' := by
  simp only [exec, ExceptT.run_bind, StateT.run_bind] at h ⊢
  rw [h]; rfl

theorem exec_bind_error {x : Body σ ε α} {s s' : σ} {e : ε} (h : x.exec s = (.error e, s'))
    (f : α → Body σ ε β) : (x >>= f).exec s = (.error e, s') := by
  simp only [exec, ExceptT.run_bind, StateT.run_bind] at h ⊢
  rw [h]; rfl

@[simp] theorem exec_throw_bind (e : ε) (f : α → Body σ ε β) (s : σ) :
    (throw e >>= f : Body σ ε β).exec s = (.error e, s) := exec_bind_error (exec_throw e s) f

@[simp] theorem exec_ensure_bind (cond : Bool) (e : ε) (f : Unit → Body σ ε β) (s : σ) :
    (ensure cond e >>= f).exec s = if cond then (f ()).exec s else (.error e, s) := by
  cases cond <;> rfl

end Body

end SIM
