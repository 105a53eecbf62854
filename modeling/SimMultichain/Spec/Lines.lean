import Mathlib
import SimMultichain.Framework.Channel

/-!
# Lines between parties

What a message router between parties is for, without its queues in storage: a line
from one party to another is requested by one and agreed to by the other; agreed
lines are connected together, if both parties are admitted; lines are closed when a
party asks for it or leaves. Messages are sent on open lines with the time of their
sending, and a party receives, on all lines to it, everything up to a time that it
chooses.

* `Sound`: what all allowed operations keep (`Sound.apply`): messages wait in the order of their
  times, after the time their receiver has received up to, and no line is both
  requested and open;
* `line_apply`: what one operation does to a line that is open before and after it. What was sent
  on it grows by what the operation sends, and what waits is the part of that after the
  time received up to.
-/

namespace SIM.Spec

/-- What is known of lines and messages from outside: the two ends of a line, and when a message
was sent. -/
structure Names (X P M : Type*) where
  src : X → P
  dst : X → P
  stamp : M → ℕ

/-- The requested lines, with their terms and whether the other party agreed; the open lines, with
their terms and messages; the lines to be closed, and up to when every party has received. -/
structure Lines (X P T M : Type*) where
  requested : X → Option (T × Bool)
  line : X → Option (T × Channel M)
  closing : Set X
  received : P → Option ℕ

inductive LineOp (X P T M : Type*) where
  | request (x : X) (terms : T)
  | agree (x : X) (complete : T → T)
  | withdraw (x : X)
  | connect (admitted : Set P)
  | askClose (x : X)
  | closeAsked
  | forget (gone : Set P)
  | cut (p : P)
  | receive (p : P) (upTo : ℕ)
  | send (x : X) (m : M)

/-- The operations that move messages. -/
def LineOp.IsMessage {X P T M : Type*} : LineOp X P T M → Prop
  | .send _ _ => True
  | .receive _ _ => True
  | _ => False

namespace Lines

variable {X P T M : Type*}

/-- No line was ever requested. -/
def empty : Lines X P T M := ⟨fun _ => none, fun _ => none, ∅, fun _ => none⟩

/-- A message waits for a party that has received up to `w`. -/
def isAfter (stamp : M → ℕ) (w : Option ℕ) (m : M) : Bool := w.all (· < stamp m)

section Operations

variable (N : Names X P M)

open Classical in
/-- The agreed lines in `D` are connected, if their parties are admitted, and no longer requested. -/
noncomputable def connectIn (D : Set X) (admitted : Set P) (a : Lines X P T M) : Lines X P T M :=
  { a with
    requested := fun x =>
      match a.requested x with
      | some (t, true) => if x ∈ D then none else some (t, true)
      | r => r
    line := fun x =>
      match a.requested x with
      | some (t, true) =>
        if x ∈ D ∧ N.src x ∈ admitted ∧ N.dst x ∈ admitted then some (t, .start []) else a.line x
      | _ => a.line x }

open Classical in
/-- The lines in `D` are closed. -/
noncomputable def closeIn (D : Set X) (a : Lines X P T M) : Lines X P T M :=
  { a with line := fun x => if x ∈ D then none else a.line x }

open Classical in
/-- The requests in `D` are dropped. -/
noncomputable def forgetIn (D : Set X) (a : Lines X P T M) : Lines X P T M :=
  { a with requested := fun x => if x ∈ D then none else a.requested x }

open Classical in
/-- A party receives everything sent up to a time. -/
noncomputable def receiveUpTo (p : P) (upTo : ℕ) (a : Lines X P T M) : Lines X P T M :=
  { a with
    line := fun x =>
      if N.dst x = p then (a.line x).map fun l => (l.1, l.2.receiveWhile fun m => N.stamp m ≤ upTo)
      else a.line x
    received := Function.update a.received p (some upTo) }

open Classical in
noncomputable def apply (a : Lines X P T M) : LineOp X P T M → Lines X P T M
  | .request x terms => { a with requested := Function.update a.requested x (some (terms, false)) }
  | .agree x complete =>
    { a with
      requested := Function.update a.requested x ((a.requested x).map fun r => (complete r.1, true)) }
  | .withdraw x => { a with requested := Function.update a.requested x none }
  | .connect admitted => a.connectIn N Set.univ admitted
  | .askClose x => { a with closing := insert x a.closing }
  | .closeAsked => { a.closeIn a.closing with closing := ∅ }
  | .forget gone => a.forgetIn {x | N.src x ∈ gone ∨ N.dst x ∈ gone}
  | .cut p => a.closeIn {x | N.src x = p ∨ N.dst x = p}
  | .receive p upTo => a.receiveUpTo N p upTo
  | .send x m =>
    { a with line := Function.update a.line x ((a.line x).map fun l => (l.1, l.2.send [m])) }

/-- The lines after some operations. -/
noncomputable def applyAll (a : Lines X P T M) (ops : List (LineOp X P T M)) : Lines X P T M :=
  ops.foldl (apply N) a

/-- What must hold for an operation at time `now`: lines that are open are not requested again and
only those are asked to be closed, and a party receives up to a later time than before, which
has passed. -/
def Allowed (now : ℕ) (a : Lines X P T M) : LineOp X P T M → Prop
  | .request x _ => a.line x = none
  | .agree x _ => (a.requested x).isSome
  | .askClose x => (a.line x).isSome
  | .receive p upTo => upTo < now ∧ ∀ w, a.received p = some w → w ≤ upTo
  | .send _ m => N.stamp m = now
  | _ => True

open Classical in
/-- What an operation sends on a line. -/
noncomputable def sentOn (x : X) : LineOp X P T M → List M
  | .send y m => if y = x then [m] else []
  | _ => []

end Operations

/-! ## What operations on one line or party do -/

section Apply

variable {N : Names X P M} {a : Lines X P T M} {x y : X}

@[simp] theorem requested_request (terms : T) :
    (a.apply N (.request x terms)).requested x = some (terms, false) := by simp [apply]

theorem requested_request_of_ne {terms : T} (h : y ≠ x) :
    (a.apply N (.request x terms)).requested y = a.requested y := by simp [apply, h]

@[simp] theorem requested_agree (complete : T → T) : (a.apply N (.agree x complete)).requested x =
    (a.requested x).map fun r => (complete r.1, true) := by simp [apply]

theorem requested_agree_of_ne {complete : T → T} (h : y ≠ x) :
    (a.apply N (.agree x complete)).requested y = a.requested y := by simp [apply, h]

@[simp] theorem requested_withdraw : (a.apply N (.withdraw x)).requested x = none := by simp [apply]

theorem requested_withdraw_of_ne (h : y ≠ x) :
    (a.apply N (.withdraw x)).requested y = a.requested y := by simp [apply, h]

@[simp] theorem line_send (m : M) : (a.apply N (.send x m)).line x =
    (a.line x).map fun l => (l.1, l.2.send [m]) := by simp [apply]

theorem line_send_of_ne {m : M} (h : y ≠ x) : (a.apply N (.send x m)).line y = a.line y := by simp [apply, h]

@[simp] theorem received_receive (p : P) (upTo : ℕ) :
    (a.apply N (.receive p upTo)).received p = some upTo := by simp [apply, receiveUpTo]

theorem received_receive_of_ne {p q : P} {upTo : ℕ} (h : q ≠ p) :
    (a.apply N (.receive p upTo)).received q = a.received q := by simp [apply, receiveUpTo, h]

/-- Nothing is sent on a line that is not open. -/
theorem send_of_line_eq_none {m : M} (h : a.line x = none) : a.apply N (.send x m) = a := by
  classical
  simp only [apply, h, Option.map_none]
  rw [← h, Function.update_eq_self]

end Apply

/-! ## Connecting -/

section Connect

variable {N : Names X P M} {admitted : Set P} {a : Lines X P T M}

open Classical in
/-- Connecting some lines first. -/
theorem connectIn_univ_connectIn (D : Set X) :
    (a.connectIn N D admitted).connectIn N Set.univ admitted = a.connectIn N Set.univ admitted := by
  simp only [connectIn, mk.injEq, and_true]
  constructor
  · funext x
    rcases a.requested x with _ | ⟨t, _ | _⟩ <;> by_cases hx : x ∈ D <;> simp [hx]
  · funext x
    rcases a.requested x with _ | ⟨t, _ | _⟩ <;> by_cases hx : x ∈ D <;> simp [hx, and_iff_right]

/-- Once they are connected, no line is agreed. -/
theorem connectIn_univ_requested (N : Names X P M) (admitted : Set P) (x : X) (t : T) :
    (a.connectIn N Set.univ admitted).requested x ≠ some (t, true) := by
  intro h
  simp only [connectIn, Set.mem_univ, if_true] at h
  split at h
  · cases h
  · rename_i hne
    exact hne t h

/-- Without agreed lines there is nothing to connect. -/
theorem connectIn_univ_of_forall (h : ∀ x t, a.requested x ≠ some (t, true)) :
    a.connectIn N Set.univ admitted = a := by
  have hx : ∀ x, (∃ t, a.requested x = some (t, false)) ∨ a.requested x = none := by
    intro x
    rcases hr : a.requested x with _ | ⟨t, _ | _⟩
    · exact .inr rfl
    · exact .inl ⟨t, rfl⟩
    · exact absurd hr (h x t)
  obtain ⟨requested, line, closing, received⟩ := a
  simp only [connectIn, mk.injEq, and_true]
  constructor <;> funext x <;> rcases hx x with ⟨t, ht⟩ | ht <;> simp only at ht <;> rw [ht]

end Connect

/-! ## Soundness -/

section Sound

variable {N : Names X P M} {now : ℕ} {a : Lines X P T M}

structure Sound (N : Names X P M) (now : ℕ) (a : Lines X P T M) : Prop where
  ascending {x t c} : a.line x = some (t, c) → c.queue.Pairwise fun m m' => N.stamp m ≤ N.stamp m'
  past {x t c m} : a.line x = some (t, c) → m ∈ c.queue → N.stamp m ≤ now
  waits {x t c m w} : a.line x = some (t, c) → m ∈ c.queue → a.received (N.dst x) = some w →
    w < N.stamp m
  passed {p w} : a.received p = some w → w < now
  apart {x} : (a.requested x).isSome → a.line x = none

theorem Sound.empty : Sound N now (empty : Lines X P T M) := by
  constructor <;> intros <;> simp_all [Lines.empty]

theorem Sound.later (h : Sound N now a) {now' : ℕ} (hn : now ≤ now') : Sound N now' a where
  ascending := h.ascending
  past hl hm := (h.past hl hm).trans hn
  waits := h.waits
  passed hr := (h.passed hr).trans_le hn
  apart := h.apart

/-- Lines that are fewer, or empty, and requests for lines that are not open. -/
theorem Sound.of_fewer (h : Sound N now a) {a' : Lines X P T M} (hr : a'.received = a.received)
    (hl : ∀ x t c, a'.line x = some (t, c) → a.line x = some (t, c) ∨ c.queue = [])
    (ha : ∀ x, (a'.requested x).isSome → a'.line x = none) : Sound N now a' where
  ascending {x t c} hx := by
    rcases hl x t c hx with hx | hx
    · exact h.ascending hx
    · simp [hx]
  past {x t c m} hx hm := by
    rcases hl x t c hx with hx | hx
    · exact h.past hx hm
    · simp [hx] at hm
  waits {x t c m w} hx hm hw := by
    rcases hl x t c hx with hx | hx
    · exact h.waits hx hm (hr ▸ hw)
    · simp [hx] at hm
  passed hw := h.passed (hr ▸ hw)
  apart {x} := ha x

theorem Sound.connectIn (h : Sound N now a) (D : Set X) (admitted : Set P) :
    Sound N now (a.connectIn N D admitted) := by
  refine h.of_fewer rfl (fun x t c hx => ?_) fun x hx => ?_
  · simp only [Lines.connectIn] at hx
    split at hx
    · split at hx
      · cases hx; exact .inr rfl
      · exact .inl hx
    · exact .inl hx
  · have hs : (a.requested x).isSome := by
      simp only [Lines.connectIn] at hx
      split at hx
      · rename_i hr
        rw [hr]; rfl
      · exact hx
    simp only [Lines.connectIn] at hx ⊢
    split
    · rename_i t hr
      rw [hr] at hx
      split_ifs at hx with hD
      · cases hx
      · rw [if_neg (by tauto)]
        exact h.apart hs
    · exact h.apart hs

theorem Sound.closeIn (h : Sound N now a) (D : Set X) : Sound N now (a.closeIn D) := by
  refine h.of_fewer rfl (fun x t c hx => ?_) fun x hx => ?_
  · simp only [Lines.closeIn] at hx
    split_ifs at hx
    exact .inl hx
  · simp only [Lines.closeIn]
    split_ifs
    · rfl
    · exact h.apart hx

theorem Sound.forgetIn (h : Sound N now a) (D : Set X) : Sound N now (a.forgetIn D) := by
  refine h.of_fewer rfl (fun x t c hx => .inl hx) fun x hx => h.apart ?_
  simp only [Lines.forgetIn] at hx
  split_ifs at hx
  · cases hx
  · exact hx

/-- In a queue in the order of the times, the messages up to a time come first. -/
theorem dropWhile_eq_filter {stamp : M → ℕ} {q : List M} (hq : q.Pairwise fun m m' => stamp m ≤ stamp m')
    (n : ℕ) : q.dropWhile (fun m => stamp m ≤ n) = q.filter (isAfter stamp (some n)) := by
  induction q with
  | nil => rfl
  | cons m q ih =>
    rw [List.pairwise_cons] at hq
    by_cases hm : stamp m ≤ n
    · rw [List.dropWhile_cons_of_pos (by simpa using hm), ih hq.2, List.filter_cons_of_neg]
      simpa [isAfter] using hm
    · rw [List.dropWhile_cons_of_neg (by simpa using hm), eq_comm, List.filter_eq_self]
      intro m' hm'
      have : stamp m ≤ stamp m' := by
        rcases List.mem_cons.mp hm' with rfl | hm'
        · exact le_rfl
        · exact hq.1 _ hm'
      simp only [isAfter, Option.all_some, decide_eq_true_eq]
      omega

theorem Sound.receiveUpTo (h : Sound N now a) {p : P} {n : ℕ} (hn : n < now) :
    Sound N now (a.receiveUpTo N p n) := by
  classical
  -- a line after it: unchanged, or to `p` and without what was sent up to `n`
  have hline : ∀ x t c, (a.receiveUpTo N p n).line x = some (t, c) →
      (N.dst x ≠ p ∧ a.line x = some (t, c)) ∨
        ∃ c', N.dst x = p ∧ a.line x = some (t, c') ∧
          c.queue = c'.queue.filter (isAfter N.stamp (some n)) := by
    intro x t c hx
    simp only [Lines.receiveUpTo] at hx
    split_ifs at hx with hp
    · obtain ⟨⟨t', c'⟩, hl, he⟩ := Option.map_eq_some_iff.mp hx
      cases he
      exact .inr ⟨c', hp, hl, dropWhile_eq_filter (h.ascending hl) n⟩
    · exact .inl ⟨hp, hx⟩
  refine ⟨fun {x t c} hx => ?_, fun {x t c m} hx hm => ?_, fun {x t c m w} hx hm hw => ?_,
    fun {q w} hw => ?_, fun {x} hx => ?_⟩
  · rcases hline x t c hx with ⟨-, hl⟩ | ⟨c', -, hl, hq⟩
    · exact h.ascending hl
    · rw [hq]; exact (h.ascending hl).filter _
  · rcases hline x t c hx with ⟨-, hl⟩ | ⟨c', -, hl, hq⟩
    · exact h.past hl hm
    · rw [hq] at hm; exact h.past hl (List.mem_of_mem_filter hm)
  · simp only [Lines.receiveUpTo] at hw
    rcases hline x t c hx with ⟨hne, hl⟩ | ⟨c', rfl, hl, hq⟩
    · rw [Function.update_of_ne hne] at hw; exact h.waits hl hm hw
    · rw [Function.update_self] at hw
      cases hw
      rw [hq] at hm
      simpa [isAfter] using (List.mem_filter.mp hm).2
  · simp only [Lines.receiveUpTo] at hw
    by_cases hqp : q = p
    · rw [hqp, Function.update_self] at hw; cases hw; exact hn
    · rw [Function.update_of_ne hqp] at hw; exact h.passed hw
  · have := h.apart (x := x) hx
    simp [Lines.receiveUpTo, this]

theorem Sound.send (h : Sound N now a) {x : X} {m : M} (hm : N.stamp m = now) :
    Sound N now (a.apply N (.send x m)) := by
  classical
  have hline : ∀ y t c, (a.apply N (.send x m)).line y = some (t, c) →
      a.line y = some (t, c) ∨ ∃ c', a.line y = some (t, c') ∧ c.queue = c'.queue ++ [m] := by
    intro y t c hy
    simp only [Lines.apply] at hy
    by_cases hyx : y = x
    · subst hyx
      rw [Function.update_self] at hy
      obtain ⟨⟨t', c'⟩, hl, he⟩ := Option.map_eq_some_iff.mp hy
      cases he
      exact .inr ⟨c', hl, rfl⟩
    · rw [Function.update_of_ne hyx] at hy
      exact .inl hy
  refine ⟨fun {y t c} hy => ?_, fun {y t c m'} hy hm' => ?_, fun {y t c m' w} hy hm' hw => ?_,
    fun {q w} hw => h.passed hw, fun {y} hy => ?_⟩
  · rcases hline y t c hy with hl | ⟨c', hl, hq⟩
    · exact h.ascending hl
    · rw [hq]
      refine List.pairwise_append.mpr ⟨h.ascending hl, List.pairwise_singleton .., ?_⟩
      intro m₁ h₁ m₂ h₂
      rw [List.mem_singleton.mp h₂, hm]
      exact h.past hl h₁
  · rcases hline y t c hy with hl | ⟨c', hl, hq⟩
    · exact h.past hl hm'
    · rw [hq, List.mem_append, List.mem_singleton] at hm'
      rcases hm' with hm' | rfl
      · exact h.past hl hm'
      · exact hm.le
  · rcases hline y t c hy with hl | ⟨c', hl, hq⟩
    · exact h.waits hl hm' hw
    · rw [hq, List.mem_append, List.mem_singleton] at hm'
      rcases hm' with hm' | rfl
      · exact h.waits hl hm' hw
      · exact hm ▸ h.passed hw
  · have := h.apart (x := y) hy
    simp only [Lines.apply]
    by_cases hyx : y = x
    · subst hyx; simp [this]
    · rw [Function.update_of_ne hyx, this]

theorem Sound.apply (h : Sound N now a) {op : LineOp X P T M} (ho : Allowed N now a op) :
    Sound N now (a.apply N op) := by
  classical
  cases op with
  | request x terms =>
    refine h.of_fewer rfl (fun _ _ _ hx => .inl hx) fun y hy => ?_
    by_cases hyx : y = x
    · exact hyx ▸ ho
    · simp only [Lines.apply, Function.update_of_ne hyx] at hy
      exact h.apart hy
  | agree x complete =>
    refine h.of_fewer rfl (fun _ _ _ hx => .inl hx) fun y hy => h.apart ?_
    by_cases hyx : y = x
    · exact hyx ▸ ho
    · simpa only [Lines.apply, Function.update_of_ne hyx] using hy
  | withdraw x =>
    refine h.of_fewer rfl (fun _ _ _ hx => .inl hx) fun y hy => h.apart ?_
    by_cases hyx : y = x
    · simp [Lines.apply, hyx] at hy
    · simpa only [Lines.apply, Function.update_of_ne hyx] using hy
  | connect admitted => exact h.connectIn _ _
  | askClose x => exact h.of_fewer rfl (fun _ _ _ hx => .inl hx) fun y hy => h.apart hy
  | closeAsked =>
    have h' := h.closeIn a.closing
    exact h'.of_fewer rfl (fun _ _ _ hx => .inl hx) fun y hy => h'.apart hy
  | forget gone => exact h.forgetIn _
  | cut p => exact h.closeIn _
  | receive p upTo => exact h.receiveUpTo ho.1
  | send x m => exact h.send ho

/-- An open line is not requested. -/
theorem Sound.requested_eq_none (h : Sound N now a) {x : X} {l : T × Channel M}
    (hx : a.line x = some l) : a.requested x = none := by
  by_contra hne
  have := h.apart (Option.isSome_iff_ne_none.mpr hne)
  rw [hx] at this; cases this

/-! ## What an operation does to an open line -/

theorem filter_isAfter_self (h : Sound N now a) {x : X} {t : T} {c : Channel M}
    (hx : a.line x = some (t, c)) : c.queue.filter (isAfter N.stamp (a.received (N.dst x))) = c.queue := by
  refine List.filter_eq_self.mpr fun m hm => ?_
  cases hw : a.received (N.dst x) with
  | none => rfl
  | some w => simpa [isAfter] using h.waits hx hm hw

/-- A line that is open before and after an operation keeps its terms; what was sent on it grows by
what the operation sends, and what waits is the part of it that its receiver has not received up
to. -/
theorem line_apply (h : Sound N now a) {op : LineOp X P T M} (ho : Allowed N now a op) {x : X} {t t' : T}
    {c c' : Channel M} (hx : a.line x = some (t, c)) (hx' : (a.apply N op).line x = some (t', c')) :
    t' = t ∧ c'.sent = c.sent ++ sentOn x op ∧
      c'.queue = (c.queue ++ sentOn x op).filter
        (isAfter N.stamp ((a.apply N op).received (N.dst x))) := by
  classical
  -- a line that an operation leaves alone
  have hsame : (a.apply N op).line x = a.line x → sentOn x op = [] →
      (a.apply N op).received = a.received → t' = t ∧ c'.sent = c.sent ++ sentOn x op ∧
        c'.queue = (c.queue ++ sentOn x op).filter
          (isAfter N.stamp ((a.apply N op).received (N.dst x))) := by
    intro hl hs hr
    rw [hl, hx] at hx'
    cases hx'
    rw [hs, hr, List.append_nil, List.append_nil, filter_isAfter_self h hx]
    exact ⟨rfl, rfl, rfl⟩
  have hreq := h.requested_eq_none hx
  cases op with
  | request y terms => exact hsame rfl rfl rfl
  | agree y complete => exact hsame rfl rfl rfl
  | withdraw y => exact hsame rfl rfl rfl
  | connect admitted => exact hsame (by simp [Lines.apply, Lines.connectIn, hreq]) rfl rfl
  | askClose y => exact hsame rfl rfl rfl
  | closeAsked =>
    refine hsame ?_ rfl rfl
    simp only [Lines.apply, Lines.closeIn] at hx' ⊢
    split_ifs at hx' with hc
    rw [if_neg hc]
  | forget gone => exact hsame rfl rfl rfl
  | cut p =>
    refine hsame ?_ rfl rfl
    simp only [Lines.apply, Lines.closeIn] at hx' ⊢
    split_ifs at hx' with hc
    rw [if_neg hc]
  | receive p n =>
    by_cases hp : N.dst x = p
    · simp only [Lines.apply, Lines.receiveUpTo, if_pos hp, hx, Option.map_some, Option.some.injEq,
        Prod.mk.injEq] at hx'
      obtain ⟨rfl, rfl⟩ := hx'
      refine ⟨rfl, by simp [sentOn], ?_⟩
      simp only [sentOn, List.append_nil, Lines.apply, Lines.receiveUpTo, hp, Function.update_self]
      exact dropWhile_eq_filter (h.ascending hx) n
    · have hl : (a.apply N (.receive p n)).line x = a.line x := by
        simp [Lines.apply, Lines.receiveUpTo, hp]
      have hr : (a.apply N (.receive p n)).received (N.dst x) = a.received (N.dst x) := by
        simp [Lines.apply, Lines.receiveUpTo, Function.update_of_ne hp]
      rw [hl, hx] at hx'
      cases hx'
      rw [hr]
      simp only [sentOn, List.append_nil, filter_isAfter_self h hx, and_self]
  | send y m =>
    by_cases hyx : y = x
    · subst hyx
      simp only [Lines.apply, Function.update_self, hx, Option.map_some, Option.some.injEq,
        Prod.mk.injEq] at hx'
      obtain ⟨rfl, rfl⟩ := hx'
      refine ⟨rfl, by simp [sentOn], ?_⟩
      have hs := h.send (x := y) ho
      have hy : (a.apply N (.send y m)).line y = some (t, c.send [m]) := by
        simp [Lines.apply, hx]
      have := filter_isAfter_self hs hy
      simp only [sentOn]
      exact this.symm
    · refine hsame ?_ (by simp [sentOn, hyx]) rfl
      simp only [Lines.apply]
      rw [Function.update_of_ne (Ne.symm hyx)]

/-! ## Several operations -/

/-- No party has received up to an earlier time than before. -/
def Later (a a' : Lines X P T M) : Prop :=
  ∀ p w, a.received p = some w → ∃ w', a'.received p = some w' ∧ w ≤ w'

theorem Later.refl (a : Lines X P T M) : Later a a := fun _ w h => ⟨w, h, le_rfl⟩

theorem Later.trans {a' a'' : Lines X P T M} (h : Later a a') (h' : Later a' a'') : Later a a'' := by
  intro p w hw
  obtain ⟨w', hw', hle⟩ := h p w hw
  obtain ⟨w'', hw'', hle'⟩ := h' p w' hw'
  exact ⟨w'', hw'', hle.trans hle'⟩

theorem later_apply {op : LineOp X P T M} (ho : Allowed N now a op) : Later a (a.apply N op) := by
  cases op with
  | receive p upTo =>
    intro q w hw
    by_cases hq : q = p
    · subst hq; exact ⟨upTo, received_receive q upTo, ho.2 w hw⟩
    · exact ⟨w, (received_receive_of_ne hq).trans hw, le_rfl⟩
  | _ => exact Later.refl a

/-- What becomes of a line between `a` and `a'`, if it is open in both: `sent` was sent on it, and
what waits is the part of it that its receiver has not received up to. -/
structure Continues (N : Names X P M) (x : X) (a a' : Lines X P T M) (sent : List M) : Prop where
  later : Later a a'
  line {t c t' c'} : a.line x = some (t, c) → a'.line x = some (t', c') →
    t' = t ∧ c'.sent = c.sent ++ sent ∧
      c'.queue = (c.queue ++ sent).filter (isAfter N.stamp (a'.received (N.dst x)))

theorem Continues.refl (h : Sound N now a) (x : X) : Continues N x a a [] where
  later := Later.refl a
  line hx hx' := by
    rw [hx] at hx'
    cases hx'
    simp [filter_isAfter_self h hx]

theorem continues_apply (h : Sound N now a) {op : LineOp X P T M} (ho : Allowed N now a op) (x : X) :
    Continues N x a (a.apply N op) (sentOn x op) :=
  ⟨later_apply ho, line_apply h ho⟩

/-- What is after a later time is after an earlier one. -/
theorem isAfter_of_later {a' : Lines X P T M} (h : Later a a') {p : P} {m : M}
    (hm : isAfter N.stamp (a'.received p) m) : isAfter N.stamp (a.received p) m := by
  cases hw : a.received p with
  | none => rfl
  | some w =>
    obtain ⟨w', hw', hle⟩ := h p w hw
    rw [hw'] at hm
    simp only [isAfter, Option.all_some, decide_eq_true_eq] at hm ⊢
    omega

/-- A line that stays open continues. -/
theorem Continues.trans {x : X} {a₁ a₂ : Lines X P T M} {sent₁ sent₂ : List M}
    (h : Continues N x a a₁ sent₁) (h' : Continues N x a₁ a₂ sent₂) (ho : (a₁.line x).isSome) :
    Continues N x a a₂ (sent₁ ++ sent₂) where
  later := h.later.trans h'.later
  line {t c t' c'} hx hx' := by
    obtain ⟨⟨t₁, c₁⟩, hx₁⟩ := Option.isSome_iff_exists.mp ho
    obtain ⟨rfl, hs₁, hq₁⟩ := h.line hx hx₁
    obtain ⟨rfl, hs₂, hq₂⟩ := h'.line hx₁ hx'
    refine ⟨rfl, by rw [hs₂, hs₁, List.append_assoc], ?_⟩
    have hf : (c.queue ++ sent₁).filter (isAfter N.stamp (a₂.received (N.dst x))) =
        c₁.queue.filter (isAfter N.stamp (a₂.received (N.dst x))) := by
      rw [hq₁, List.filter_filter]
      refine List.filter_congr fun m _ => ?_
      rw [eq_comm, Bool.and_eq_left_iff_imp]
      exact isAfter_of_later h'.later
    rw [hq₂, List.filter_append, ← List.append_assoc, List.filter_append _ sent₂, hf]

/-- Operations one after the other, each allowed where it comes. -/
def AllowedAll (N : Names X P M) (now : ℕ) (a : Lines X P T M) : List (LineOp X P T M) → Prop
  | [] => True
  | op :: ops => Allowed N now a op ∧ AllowedAll N now (a.apply N op) ops

theorem Sound.applyAll (h : Sound N now a) {ops : List (LineOp X P T M)}
    (ho : AllowedAll N now a ops) : Sound N now (a.applyAll N ops) := by
  induction ops generalizing a with
  | nil => exact h
  | cons op ops ih => exact ih (h.apply ho.1) ho.2

theorem requested_apply_eq_none {x : X} (hr : a.requested x = none) {op : LineOp X P T M}
    (ho : ∀ t, op ≠ .request x t) : (a.apply N op).requested x = none := by
  cases op with
  | request y terms =>
    have hne : x ≠ y := by rintro rfl; exact ho terms rfl
    exact (requested_request_of_ne hne).trans hr
  | agree y complete =>
    by_cases hxy : x = y
    · subst hxy; simp [hr]
    · exact (requested_agree_of_ne hxy).trans hr
  | withdraw y =>
    by_cases hxy : x = y
    · subst hxy; simp
    · exact (requested_withdraw_of_ne hxy).trans hr
  | connect admitted => simp [Lines.apply, Lines.connectIn, hr]
  | forget gone => simp [Lines.apply, Lines.forgetIn, hr]
  | _ => exact hr

/-- Without a request for it, no operation opens a line. -/
theorem line_apply_eq_none {x : X} (hr : a.requested x = none) (hl : a.line x = none)
    (op : LineOp X P T M) : (a.apply N op).line x = none := by
  cases op with
  | connect admitted => simp [Lines.apply, Lines.connectIn, hr, hl]
  | closeAsked => simp [Lines.apply, Lines.closeIn, hl]
  | cut p => simp [Lines.apply, Lines.closeIn, hl]
  | receive p upTo => simp [Lines.apply, Lines.receiveUpTo, hl]
  | send y m =>
    by_cases hxy : x = y
    · subst hxy; simp [hl]
    · exact (line_send_of_ne hxy).trans hl
  | _ => exact hl

theorem line_applyAll_eq_none {x : X} (hr : a.requested x = none) (hl : a.line x = none)
    {ops : List (LineOp X P T M)} (ho : ∀ op ∈ ops, ∀ t, op ≠ .request x t) :
    (a.applyAll N ops).line x = none := by
  induction ops generalizing a with
  | nil => exact hl
  | cons op ops ih =>
    exact ih (requested_apply_eq_none hr (ho op List.mem_cons_self)) (line_apply_eq_none hr hl op)
      fun op' hop' => ho op' (List.mem_cons_of_mem _ hop')

/-- An open line that is not requested meanwhile continues through several operations. -/
theorem continues_applyAll (h : Sound N now a) {x : X} {ops : List (LineOp X P T M)}
    (ho : AllowedAll N now a ops) (hr : ∀ op ∈ ops, ∀ t, op ≠ .request x t) :
    Continues N x a (a.applyAll N ops) (ops.flatMap (sentOn x)) := by
  induction ops generalizing a with
  | nil => exact Continues.refl h x
  | cons op ops ih =>
    have h₁ := continues_apply h ho.1 x
    have h₂ := ih (h.apply ho.1) ho.2 fun op' hop' => hr op' (List.mem_cons_of_mem _ hop')
    by_cases hx : ((a.apply N op).line x).isSome
    · rw [List.flatMap_cons]
      exact h₁.trans h₂ hx
    · -- a line that an operation closes stays closed
      refine ⟨h₁.later.trans h₂.later, fun {t c t' c'} hl hl' => ?_⟩
      have hreq := h.requested_eq_none hl
      have hnone := line_applyAll_eq_none (N := N)
        (requested_apply_eq_none hreq (hr op List.mem_cons_self))
        (Option.not_isSome_iff_eq_none.mp hx) fun op' hop' => hr op' (List.mem_cons_of_mem _ hop')
      have e : a.applyAll N (op :: ops) = (a.apply N op).applyAll N ops := rfl
      rw [e, hnone] at hl'
      cases hl'

/-! ## What lines and requests come from -/

/-- A line after an operation that moves no messages was there before, or was agreed and is
connected now. -/
theorem line_of_not_isMessage {op : LineOp X P T M} (ho : ¬ op.IsMessage) {x : X}
    {l : T × Channel M} (h : (a.apply N op).line x = some l) :
    a.line x = some l ∨ l.2 = .start [] ∧ a.requested x = some (l.1, true) ∧
      ∃ admitted, op = .connect admitted ∧ N.src x ∈ admitted ∧ N.dst x ∈ admitted := by
  cases op with
  | connect admitted =>
    simp only [Lines.apply, Lines.connectIn] at h
    split at h
    · rename_i t hr
      split_ifs at h with hadm
      · cases h
        exact .inr ⟨rfl, hr, admitted, rfl, hadm.2⟩
      · exact .inl h
    · exact .inl h
  | closeAsked =>
    simp only [Lines.apply, Lines.closeIn] at h
    split_ifs at h
    exact .inl h
  | cut p =>
    simp only [Lines.apply, Lines.closeIn] at h
    split_ifs at h
    exact .inl h
  | send y m => exact absurd trivial ho
  | receive p n => exact absurd trivial ho
  | _ => exact .inl h

/-- Operations that move messages open no line. -/
theorem isSome_line_of_isMessage {op : LineOp X P T M} (ho : op.IsMessage) {x : X}
    (h : ((a.apply N op).line x).isSome) : (a.line x).isSome := by
  cases op with
  | send y m =>
    by_cases hxy : x = y
    · subst hxy
      rwa [line_send, Option.isSome_map] at h
    · rwa [line_send_of_ne hxy] at h
  | receive p n =>
    simp only [Lines.apply, Lines.receiveUpTo] at h
    split_ifs at h
    · rwa [Option.isSome_map] at h
    · exact h
  | _ => exact ho.elim

theorem isSome_line_applyAll_of_isMessage {ops : List (LineOp X P T M)}
    (ho : ∀ op ∈ ops, op.IsMessage) {x : X} (h : ((a.applyAll N ops).line x).isSome) :
    (a.line x).isSome := by
  induction ops generalizing a with
  | nil => exact h
  | cons op ops ih =>
    rw [List.forall_mem_cons] at ho
    exact isSome_line_of_isMessage ho.1 (ih ho.2 h)

theorem line_applyAll_of_not_isMessage {ops : List (LineOp X P T M)}
    (ho : ∀ op ∈ ops, ¬ op.IsMessage) {x : X} {l : T × Channel M}
    (h : (a.applyAll N ops).line x = some l) :
    a.line x = some l ∨ l.2 = .start [] ∧ ∃ admitted, .connect admitted ∈ ops := by
  induction ops generalizing a with
  | nil => exact .inl h
  | cons op ops ih =>
    rw [List.forall_mem_cons] at ho
    rcases ih ho.2 h with h' | ⟨hl, admitted, hm⟩
    · rcases line_of_not_isMessage ho.1 h' with h'' | ⟨hl, -, admitted, rfl, -⟩
      · exact .inl h''
      · exact .inr ⟨hl, admitted, List.mem_cons_self⟩
    · exact .inr ⟨hl, admitted, List.mem_cons_of_mem _ hm⟩

/-- A request after an operation was there before, or is new, or is agreed to now. -/
theorem requested_apply_cases {op : LineOp X P T M} {x : X} {r : T × Bool}
    (h : (a.apply N op).requested x = some r) :
    a.requested x = some r ∨ (op = .request x r.1 ∧ r.2 = false) ∨
      ∃ complete r₀, op = .agree x complete ∧ a.requested x = some r₀ ∧ r = (complete r₀.1, true) := by
  cases op with
  | request y terms =>
    by_cases hxy : x = y
    · subst hxy
      rw [requested_request] at h
      cases h
      exact .inr (.inl ⟨rfl, rfl⟩)
    · exact .inl ((requested_request_of_ne hxy).symm.trans h)
  | agree y complete =>
    by_cases hxy : x = y
    · subst hxy
      rw [requested_agree] at h
      obtain ⟨r₀, hr₀, rfl⟩ := Option.map_eq_some_iff.mp h
      exact .inr (.inr ⟨complete, r₀, rfl, hr₀, rfl⟩)
    · exact .inl ((requested_agree_of_ne hxy).symm.trans h)
  | withdraw y =>
    by_cases hxy : x = y
    · subst hxy
      rw [requested_withdraw] at h
      cases h
    · exact .inl ((requested_withdraw_of_ne hxy).symm.trans h)
  | connect admitted =>
    simp only [Lines.apply, Lines.connectIn, Set.mem_univ, if_true] at h
    split at h
    · cases h
    · exact .inl h
  | forget gone =>
    simp only [Lines.apply, Lines.forgetIn] at h
    split_ifs at h
    exact .inl h
  | _ => exact .inl h

/-- All terms, requested or agreed, satisfy `Q`. -/
structure AllTerms (Q : X → T → Prop) (a : Lines X P T M) : Prop where
  requested {x r} : a.requested x = some r → Q x r.1
  line {x l} : a.line x = some l → Q x l.1

/-- What the terms of a request satisfy and an agreement keeps. -/
theorem AllTerms.apply {Q : X → T → Prop} (h : AllTerms Q a) {op : LineOp X P T M}
    (hr : ∀ x t, op = .request x t → Q x t)
    (ha : ∀ x complete t, op = .agree x complete → Q x t → Q x (complete t)) :
    AllTerms Q (a.apply N op) where
  requested {x r} hx := by
    rcases requested_apply_cases hx with hx | ⟨ho, -⟩ | ⟨complete, r₀, ho, hr₀, rfl⟩
    · exact h.requested hx
    · exact hr x _ ho
    · exact ha x complete _ ho (h.requested hr₀)
  line {x l} hx := by
    classical
    cases op with
    | send y m =>
      by_cases hxy : x = y
      · subst hxy
        rw [line_send] at hx
        obtain ⟨l', hl', rfl⟩ := Option.map_eq_some_iff.mp hx
        exact h.line (l := l') hl'
      · exact h.line ((line_send_of_ne hxy).symm.trans hx)
    | receive p n =>
      simp only [Lines.apply, Lines.receiveUpTo] at hx
      split_ifs at hx
      · obtain ⟨l', hl', rfl⟩ := Option.map_eq_some_iff.mp hx
        exact h.line (l := l') hl'
      · exact h.line hx
    | _ =>
      rcases line_of_not_isMessage (N := N) (by simp [LineOp.IsMessage]) hx with hx | ⟨-, hx, -⟩
      · exact h.line hx
      · exact h.requested hx

theorem AllTerms.applyAll {Q : X → T → Prop} (h : AllTerms Q a) {ops : List (LineOp X P T M)}
    (hr : ∀ x t, .request x t ∈ ops → Q x t)
    (ha : ∀ x complete t, .agree x complete ∈ ops → Q x t → Q x (complete t)) :
    AllTerms Q (a.applyAll N ops) := by
  induction ops generalizing a with
  | nil => exact h
  | cons op ops ih =>
    refine ih (h.apply (fun x t he => ?_) fun x complete t he => ?_)
      (fun x t hm => hr x t (List.mem_cons_of_mem _ hm))
      fun x complete t hm => ha x complete t (List.mem_cons_of_mem _ hm)
    · exact hr x t (he ▸ List.mem_cons_self)
    · exact ha x complete t (he ▸ List.mem_cons_self)

end Sound

end Lines

end SIM.Spec
