import Mathlib

/-!
# The exchange of evidence

What the two chains are for, without chains: vehicles report accidents, drivers
declare them at the insurer, the insurer asks for what was reported, and holds
the answers as evidence. Questions and answers travel as messages that may
overtake each other. The insurer keeps the first answer it receives about an
accident.

* `Genuine`: a declared accident, with the data its vehicle reported for it;
* `Sound`: every answer on its way and every piece of evidence is genuine, and
  every question is about a declared accident. All steps keep this
  (`Sound.step`, `Sound.steps`);
* `evidence_steps`: evidence stays;
* `Sound.receive`: once an answer is received, the insurer holds the data it
  carries, also when it held an answer before.
-/

namespace SIM.Spec

/-- A message: a question about the `k`-th accident of `v`, or the answer to it. -/
inductive Message (V D : Type*) where
  | request (v : V) (k : ℕ)
  | reply (v : V) (k : ℕ) (d : D)

/-- What vehicles reported and drivers declared, the messages on their way, and what the insurer
holds. Accidents of a vehicle are numbered from 1. -/
@[ext] structure Exchange (V D : Type*) where
  reports : V → List D
  declared : Set (V × ℕ)
  messages : Multiset (Message V D)
  evidence : V × ℕ → Option D

namespace Exchange

variable {V D : Type*}

/-- Nothing happened yet. -/
def empty : Exchange V D := ⟨fun _ => [], ∅, 0, fun _ => none⟩

/-- The `k`-th accident of `v` was declared, and `d` is what `v` reported for it. -/
structure Genuine (s : Exchange V D) (v : V) (k : ℕ) (d : D) : Prop where
  declared : (v, k) ∈ s.declared
  pos : k ≠ 0
  reported : (s.reports v)[k - 1]? = some d

/-- There is one genuine answer about an accident. -/
theorem Genuine.unique {s : Exchange V D} {v : V} {k : ℕ} {d d' : D} (h : Genuine s v k d)
    (h' : Genuine s v k d') : d = d' :=
  Option.some.inj (h.reported.symm.trans h'.reported)

structure Sound (s : Exchange V D) : Prop where
  requested {v : V} {k : ℕ} : .request v k ∈ s.messages → (v, k) ∈ s.declared
  replied {v : V} {k : ℕ} {d : D} : .reply v k d ∈ s.messages → Genuine s v k d
  held {v : V} {k : ℕ} {d : D} : s.evidence (v, k) = some d → Genuine s v k d

theorem Sound.empty : Sound (Exchange.empty : Exchange V D) :=
  ⟨fun h => absurd h (Multiset.notMem_zero _), fun h => absurd h (Multiset.notMem_zero _), nofun⟩

/-- What the insurer holds about an accident is what any answer on its way says about it. -/
theorem Sound.receive {s : Exchange V D} (hs : Sound s) {v : V} {k : ℕ} {d : D}
    (hm : .reply v k d ∈ s.messages) : (s.evidence (v, k)).or (some d) = some d := by
  cases he : s.evidence (v, k) with
  | none => rfl
  | some d' => rw [(hs.held he).unique (hs.replied hm)]; rfl

/-! ## Steps -/

variable [DecidableEq V]

inductive Step (s : Exchange V D) : Exchange V D → Prop where
  | report (v : V) (d : D) :
    Step s { s with reports := Function.update s.reports v (s.reports v ++ [d]) }
  | declare (v : V) (k : ℕ) : Step s { s with declared := insert (v, k) s.declared }
  | ask {v : V} {k : ℕ} (declared : (v, k) ∈ s.declared) :
    Step s { s with messages := .request v k ::ₘ s.messages }
  | answer {v : V} {k : ℕ} {d : D} {ms : Multiset (Message V D)}
      (request : s.messages = .request v k ::ₘ ms) (pos : k ≠ 0)
      (reported : (s.reports v)[k - 1]? = some d) :
    Step s { s with messages := .reply v k d ::ₘ ms }
  | ignore {v : V} {k : ℕ} {ms : Multiset (Message V D)}
      (request : s.messages = .request v k ::ₘ ms) : Step s { s with messages := ms }
  | receive {v : V} {k : ℕ} {d : D} {ms : Multiset (Message V D)}
      (reply : s.messages = .reply v k d ::ₘ ms) :
    Step s { s with
      messages := ms
      evidence := Function.update s.evidence (v, k) ((s.evidence (v, k)).or (some d)) }

/-- Any number of steps. -/
abbrev Steps : Exchange V D → Exchange V D → Prop := Relation.ReflTransGen Step

variable {s s' : Exchange V D} {v : V} {k : ℕ} {d : D}

/-- What a vehicle reported first is not changed by what it reports later. -/
theorem reports_step (h : Step s s') {i : ℕ} (hi : (s.reports v)[i]? = some d) :
    (s'.reports v)[i]? = some d := by
  cases h with
  | report w e =>
    show (Function.update s.reports w (s.reports w ++ [e]) v)[i]? = some d
    by_cases hw : v = w
    · subst hw
      have hlt := (List.getElem?_eq_some_iff.mp hi).1
      rw [Function.update_self, List.getElem?_append_left hlt, hi]
    · rw [Function.update_of_ne hw, hi]
  | _ => exact hi

theorem declared_step (h : Step s s') (hd : (v, k) ∈ s.declared) : (v, k) ∈ s'.declared := by
  cases h with
  | declare w j => exact Set.mem_insert_of_mem _ hd
  | _ => exact hd

theorem Genuine.step (h : Genuine s v k d) (hs : Step s s') : Genuine s' v k d :=
  ⟨declared_step hs h.declared, h.pos, reports_step hs h.reported⟩

/-! ## Soundness is kept -/

theorem Sound.step (hs : Sound s) (h : Step s s') : Sound s' := by
  -- it is enough that what is new in `s'` is genuine in `s`
  suffices hnew : (∀ v k, .request v k ∈ s'.messages → (v, k) ∈ s'.declared) ∧
      (∀ v k d, .reply v k d ∈ s'.messages → Genuine s v k d) ∧
      ∀ v k d, s'.evidence (v, k) = some d → Genuine s v k d from
    ⟨hnew.1 _ _, fun hm => (hnew.2.1 _ _ _ hm).step h, fun he => (hnew.2.2 _ _ _ he).step h⟩
  have hold : ∀ {m m' : Message V D} {ms}, s.messages = m ::ₘ ms → m' ∈ ms → m' ∈ s.messages :=
    fun hms hm => hms ▸ Multiset.mem_cons_of_mem hm
  cases h with
  | report v d => exact ⟨fun _ _ => hs.requested, fun _ _ _ => hs.replied, fun _ _ _ => hs.held⟩
  | declare v k =>
    exact ⟨fun _ _ hm => Set.mem_insert_of_mem _ (hs.requested hm), fun _ _ _ => hs.replied,
      fun _ _ _ => hs.held⟩
  | ask declared =>
    refine ⟨fun v k hm => ?_, fun v k d hm => ?_, fun _ _ _ => hs.held⟩
    · rcases Multiset.mem_cons.mp hm with he | hm
      · cases he; exact declared
      · exact hs.requested hm
    · rcases Multiset.mem_cons.mp hm with he | hm
      · cases he
      · exact hs.replied hm
  | answer request pos reported =>
    refine ⟨fun v k hm => ?_, fun v k d hm => ?_, fun _ _ _ => hs.held⟩
    · rcases Multiset.mem_cons.mp hm with he | hm
      · cases he
      · exact hs.requested (hold request hm)
    · rcases Multiset.mem_cons.mp hm with he | hm
      · cases he
        exact ⟨hs.requested (request ▸ Multiset.mem_cons_self _ _), pos, reported⟩
      · exact hs.replied (hold request hm)
  | ignore request =>
    exact ⟨fun _ _ hm => hs.requested (hold request hm), fun _ _ _ hm => hs.replied (hold request hm),
      fun _ _ _ => hs.held⟩
  | @receive v k d ms reply =>
    refine ⟨fun _ _ hm => hs.requested (hold reply hm), fun _ _ _ hm => hs.replied (hold reply hm),
      fun w j e he => ?_⟩
    by_cases hx : (w, j) = (v, k)
    · cases hx
      simp only [Function.update_self, Option.or_eq_some_iff] at he
      rcases he with he | ⟨-, he⟩
      · exact hs.held he
      · cases he
        exact hs.replied (reply ▸ Multiset.mem_cons_self _ _)
    · simp only [Function.update_of_ne hx] at he
      exact hs.held he

theorem Sound.steps (hs : Sound s) (h : Steps s s') : Sound s' := by
  induction h with
  | refl => exact hs
  | tail _ hstep ih => exact ih.step hstep

/-! ## Evidence stays -/

theorem evidence_step (h : Step s s') {x : V × ℕ} (hx : s.evidence x = some d) :
    s'.evidence x = some d := by
  cases h with
  | @receive v k e ms reply =>
    show Function.update s.evidence (v, k) ((s.evidence (v, k)).or (some e)) x = some d
    by_cases hk : x = (v, k)
    · subst hk; rw [Function.update_self, hx]; rfl
    · rw [Function.update_of_ne hk, hx]
  | _ => exact hx

theorem evidence_steps (h : Steps s s') {x : V × ℕ} (hx : s.evidence x = some d) :
    s'.evidence x = some d := by
  induction h with
  | refl => exact hx
  | tail _ hstep ih => exact evidence_step hstep ih

end Exchange

end SIM.Spec
