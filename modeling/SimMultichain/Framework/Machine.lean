import Mathlib

/-!
# Machines and their runs

A deterministic machine with outputs, its runs over a list of inputs, and the
history of a run: for every input the state it met and the output it gave.

* `Machine.invariant`: what holds of the empty history and the first state, and
  is kept by every step whose history entry satisfies `ok`, holds of every run
  whose entries do;
* `Machine.le_run`: a value that no step lowers is not lowered by a run;
* `Machine.run_le_sub`: a number that every step lowers is 0 after a run of that length;
* `Component`: a machine whose steps move a part of its state as another
  machine's steps do, or leave that part alone. A run of the whole is then a run
  of the part, with the same history (`Component.run_proj`,
  `Component.trace_proj`).
-/

namespace SIM

/-- A machine: from a state and an input, the next state and an output. -/
structure Machine (σ ι ο : Type*) where
  step : σ → ι → σ × ο

/-- One step of a run, as its history records it. -/
structure Entry (σ ι ο : Type*) where
  before : σ
  input : ι
  output : ο

namespace Machine

variable {σ ι ο : Type*} (M : Machine σ ι ο)

/-- The state after an input. -/
def next (s : σ) (i : ι) : σ := (M.step s i).1

/-- The history entry of an input met in state `s`. -/
def entry (s : σ) (i : ι) : Entry σ ι ο := ⟨s, i, (M.step s i).2⟩

/-- The state after a list of inputs. -/
def run (s : σ) (is : List ι) : σ := is.foldl M.next s

/-- The history of a list of inputs, oldest first. -/
def trace : σ → List ι → List (Entry σ ι ο)
  | _, [] => []
  | s, i :: is => M.entry s i :: trace (M.next s i) is

@[simp] theorem entry_before (s : σ) (i : ι) : (M.entry s i).before = s := rfl
@[simp] theorem entry_input (s : σ) (i : ι) : (M.entry s i).input = i := rfl
@[simp] theorem entry_output (s : σ) (i : ι) : (M.entry s i).output = (M.step s i).2 := rfl

@[simp] theorem run_nil (s : σ) : M.run s [] = s := rfl
@[simp] theorem trace_nil (s : σ) : M.trace s [] = [] := rfl
@[simp] theorem run_cons (s : σ) (i : ι) (is : List ι) :
    M.run s (i :: is) = M.run (M.next s i) is := rfl
@[simp] theorem trace_cons (s : σ) (i : ι) (is : List ι) :
    M.trace s (i :: is) = M.entry s i :: M.trace (M.next s i) is := rfl

theorem run_append (s : σ) (is js : List ι) : M.run s (is ++ js) = M.run (M.run s is) js :=
  List.foldl_append

theorem trace_append (s : σ) (is js : List ι) :
    M.trace s (is ++ js) = M.trace s is ++ M.trace (M.run s is) js := by
  induction is generalizing s with
  | nil => rfl
  | cons i is ih => simp only [List.cons_append, trace_cons, run_cons, ih]

theorem run_snoc (s : σ) (is : List ι) (i : ι) : M.run s (is ++ [i]) = M.next (M.run s is) i := by
  rw [run_append, run_cons, run_nil]

theorem trace_snoc (s : σ) (is : List ι) (i : ι) :
    M.trace s (is ++ [i]) = M.trace s is ++ [M.entry (M.run s is) i] := by
  rw [trace_append, trace_cons, trace_nil]

/-- A step of a run, with the inputs before it. -/
theorem mem_trace {s : σ} {is : List ι} {e : Entry σ ι ο} :
    e ∈ M.trace s is ↔ ∃ ps i qs, is = ps ++ i :: qs ∧ e = M.entry (M.run s ps) i := by
  induction is generalizing s with
  | nil => simp
  | cons j is ih =>
    rw [trace_cons, List.mem_cons, ih]
    constructor
    · rintro (rfl | ⟨ps, i, qs, rfl, rfl⟩)
      · exact ⟨[], j, is, rfl, rfl⟩
      · exact ⟨j :: ps, i, qs, rfl, rfl⟩
    · rintro ⟨ps, i, qs, h, rfl⟩
      cases ps with
      | nil => cases h; exact .inl rfl
      | cons p ps => cases h; exact .inr ⟨ps, i, qs, rfl, rfl⟩

/-- What the first state satisfies with no history, and every step allowed by `ok` keeps, holds
after every run all of whose steps are allowed. -/
theorem invariant (P : List (Entry σ ι ο) → σ → Prop) (ok : Entry σ ι ο → Prop) {s : σ}
    (hinit : P [] s)
    (hstep : ∀ h t i, ok (M.entry t i) → P h t → P (h ++ [M.entry t i]) (M.next t i))
    {is : List ι} (hok : ∀ e ∈ M.trace s is, ok e) : P (M.trace s is) (M.run s is) := by
  induction is using List.reverseRecOn with
  | nil => exact hinit
  | append_singleton is i ih =>
    rw [trace_snoc] at hok
    rw [trace_snoc, run_snoc]
    exact hstep _ _ _ (hok _ (by simp)) (ih fun e he => hok e (List.mem_append_left _ he))

/-- A value that no step lowers is not lowered by a run. -/
theorem le_run {τ : Type*} [Preorder τ] (f : σ → τ) (hstep : ∀ s i, f s ≤ f (M.next s i)) (s : σ)
    (is : List ι) : f s ≤ f (M.run s is) := by
  induction is generalizing s with
  | nil => exact le_rfl
  | cons i is ih => exact (hstep s i).trans (ih _)

/-- A number that every step lowers until it is 0. -/
theorem run_le_sub (f : σ → Nat) (hstep : ∀ s i, f (M.next s i) ≤ f s - 1) (s : σ) (is : List ι) :
    f (M.run s is) ≤ f s - is.length := by
  induction is generalizing s with
  | nil => exact Nat.le_refl _
  | cons i is ih =>
    have h := ih (M.next s i)
    have h' := hstep s i
    rw [run_cons, List.length_cons]
    omega

end Machine

/-! ## Components -/

/-- A part of a machine `M` that moves as the machine `N`: `part` is its state within that of
`M`, and `proj` the history entry of `N` that a history entry of `M` amounts to, if any. -/
structure Component {σ ι ο σ' ι' ο' : Type*} (M : Machine σ ι ο) (N : Machine σ' ι' ο') where
  part : σ → σ'
  proj : Entry σ ι ο → Option (Entry σ' ι' ο')
  keep : ∀ s i, proj (M.entry s i) = none → part (M.next s i) = part s
  move : ∀ s i e, proj (M.entry s i) = some e →
    e = N.entry (part s) e.input ∧ part (M.next s i) = N.next (part s) e.input

namespace Component

variable {σ ι ο σ' ι' ο' : Type*} {M : Machine σ ι ο} {N : Machine σ' ι' ο'} (C : Component M N)

/-- The history of the part, within that of the whole. -/
def history (h : List (Entry σ ι ο)) : List (Entry σ' ι' ο') := h.filterMap C.proj

/-- The inputs the part received, within the history of the whole. -/
def inputs (h : List (Entry σ ι ο)) : List ι' := (C.history h).map Entry.input

/-- The part of a run of the whole is a run of the part, with its history. -/
theorem run_trace_proj (s : σ) (is : List ι) :
    C.part (M.run s is) = N.run (C.part s) (C.inputs (M.trace s is)) ∧
      C.history (M.trace s is) = N.trace (C.part s) (C.inputs (M.trace s is)) := by
  induction is generalizing s with
  | nil => exact ⟨rfl, rfl⟩
  | cons i is ih =>
    obtain ⟨hr, ht⟩ := ih (M.next s i)
    simp only [inputs, history, Machine.run_cons, Machine.trace_cons] at hr ht ⊢
    cases hp : C.proj (M.entry s i) with
    | none =>
      rw [C.keep s i hp] at hr ht
      rw [List.filterMap_cons_none hp]
      exact ⟨hr, ht⟩
    | some e =>
      obtain ⟨he, hn⟩ := C.move s i e hp
      rw [List.filterMap_cons_some hp, List.map_cons, Machine.run_cons, Machine.trace_cons, ← hn,
        ← he]
      exact ⟨hr, congrArg _ ht⟩

theorem run_proj (s : σ) (is : List ι) :
    C.part (M.run s is) = N.run (C.part s) (C.inputs (M.trace s is)) := (C.run_trace_proj s is).1

theorem trace_proj (s : σ) (is : List ι) :
    C.history (M.trace s is) = N.trace (C.part s) (C.inputs (M.trace s is)) :=
  (C.run_trace_proj s is).2

end Component

end SIM
