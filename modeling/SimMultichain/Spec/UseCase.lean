import Mathlib

/-!
# The accident use case

What a platform of the use case is for, without its accounts, storage and keys:
factories are opened, factories create vehicles, created vehicles become active,
and active vehicles report accidents. A command that is not allowed changes
nothing.
-/

namespace SIM.Spec

inductive Command (A D : Type*) where
  | createFactory (f : A)
  | createVehicle (f v : A)
  | initVehicle (v : A)
  | reportAccident (v : A) (d : D)

/-- The open factories, who created which vehicle, the active vehicles and their reports. -/
structure UseCase (A D : Type*) where
  factories : Set A
  creator : A → Option A
  active : Set A
  reports : A → List D

namespace UseCase

variable {A D : Type*}

/-- Nothing is registered yet. -/
def empty : UseCase A D := ⟨∅, fun _ => none, ∅, fun _ => []⟩

/-- When a command is accepted. -/
def Allowed (u : UseCase A D) : Command A D → Prop
  | .createFactory f => f ∉ u.factories
  | .createVehicle f v => f ∈ u.factories ∧ u.creator v = none
  | .initVehicle v => u.creator v ≠ none
  | .reportAccident v _ => v ∈ u.active

variable [DecidableEq A]

/-- What an accepted command does. -/
def perform (u : UseCase A D) : Command A D → UseCase A D
  | .createFactory f => { u with factories := insert f u.factories }
  | .createVehicle f v => { u with creator := Function.update u.creator v (some f) }
  | .initVehicle v => { u with active := insert v u.active }
  | .reportAccident v d => { u with reports := Function.update u.reports v (u.reports v ++ [d]) }

open Classical in
noncomputable def next (u : UseCase A D) (c : Command A D) : UseCase A D :=
  if u.Allowed c then u.perform c else u

/-- After a list of commands. -/
noncomputable def after (cs : List (Command A D)) : UseCase A D := cs.foldl next empty

theorem next_of_allowed {u : UseCase A D} {c : Command A D} (h : u.Allowed c) :
    u.next c = u.perform c := if_pos h

theorem next_of_not_allowed {u : UseCase A D} {c : Command A D} (h : ¬u.Allowed c) :
    u.next c = u := if_neg h

theorem after_snoc (cs : List (Command A D)) (c : Command A D) :
    after (cs ++ [c]) = (after cs).next c := by
  rw [after, List.foldl_append]; rfl

end UseCase

end SIM.Spec
