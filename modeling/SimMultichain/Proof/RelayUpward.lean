import SimMultichain.Proof.Ump
import SimMultichain.Proof.RelayRuns

/-!
# Upward messages of a running relay chain

What the steps of the relay chain do to the queues of upward messages: candidates that are
included append to them, rounds take from their fronts, and a session change empties those of
the paras that go.

* `needsDispatch_of_reachable`: the list of paras to visit has those with messages;
* `round_restarts`: where a para goes, the others lose their place in the round;
* `upward_of_run`: from a para that stays, nothing is lost, taken twice or taken out of order;
* `upward_drained`: rounds empty the queues.
-/

namespace SIM.Proof.Relay

open SIM.Impl (ParaId Hash)
open SIM.Impl.Relay
open SIM.Proof.Ump (takenFrom Listed Honest messages rounds)

variable {host : Host} {s s' : State} {i : Input}

/-! ## A step -/

theorem Move.upward (h : Move i s s') (hi : ∀ sink, i ≠ .processUpward sink) :
    SameUpward s.ump s'.ump ∨ ∃ n, i = .newSession n ∧
      s'.ump = s.ump.performOutgoingParaCleanup (s.paras.applyActionsQueue n).2 := by
  cases h with
  | idle s' _ _ _ hu => exact .inl (hu.upward hi)
  | session n hrmp hi _ => exact .inr ⟨n, hi, rfl⟩
  | _ => exact .inl ⟨rfl, rfl⟩

/-- What a step does to the upward queues, where it includes no candidate and is no round. -/
theorem upward_next (host : Host) (hn : ∀ para c, ¬ Includes s i para c) (hi : ∀ sink, i ≠ .processUpward sink) :
    SameUpward s.ump ((relay host).next s i).ump ∨ ∃ n, i = .newSession n ∧
      ((relay host).next s i).ump =
        s.ump.performOutgoingParaCleanup (s.paras.applyActionsQueue n).2 := by
  have hm : Moves i s ((relay host).next s i) := moves_of_not_includes hn
  generalize (relay host).next s i = s' at hm
  cases hm with
  | one hm => exact hm.upward hi
  | two _ hm' _ hr =>
    obtain ⟨dmp, hrmp, rfl⟩ := hr
    exact hm'.upward hi

theorem Includes.upward {para : ParaId} {c : CandidatePendingAvailability}
    (h : Includes s i para c) : ((relay host).next s i).ump =
      (s.ump.receiveUpwardMessages para c.commitments.upwardMessages).1 := by
  rw [h.next]
  rfl

theorem listed_next (h : Listed s.ump) (i : Input) : Listed ((relay host).next s i).ump := by
  by_cases hinc : ∃ para c, Includes s i para c
  · obtain ⟨para, c, hc⟩ := hinc
    rw [hc.upward]
    exact h.receive para _
  · by_cases hround : ∃ sink, i = .processUpward sink
    · obtain ⟨sink, rfl⟩ := hround
      exact (Ump.processPending_spec h s.config firstMessageFactorPercent sink).2
    · rcases upward_next host (fun para c hc => hinc ⟨para, c, hc⟩)
        (fun sink hs => hround ⟨sink, hs⟩) with hsame | ⟨n, -, he⟩
      · intro p
        rw [hsame.needsDispatch, hsame.queues]
        exact h p
      · rw [he]
        exact h.cleanup _

theorem listed_of_reachable (h : Reachable host s) : Listed s.ump := by
  induction h with
  | first hg _ =>
    refine listed_next (genesis_induction (P := fun s => Listed s.ump) hg ?_ ?_).1 _
    · intro configuration paras _ _
      exact Listed.empty
    · intro s s' _ _ hm hs p
      rcases hm.upward (fun sink hs => by cases hs) with hsame | ⟨n, hi, -⟩
      · rw [hsame.needsDispatch, hsame.queues]
        exact hs p
      · cases hi
  | step _ i _ ih => exact listed_next ih i

/-- In every state the relay chain reaches, the paras that the next round visits are those with
messages. -/
theorem needsDispatch_of_reachable (h : Reachable host s) (p : ParaId) :
    p ∈ s.ump.needsDispatch ↔ s.ump.relayDispatchQueues p ≠ [] :=
  listed_of_reachable h p

/-- The first para sends two messages upward. -/
def twoUpward : List Input :=
  [.backed 2000 ⟨[[5], [6]], [], [], 1, 0⟩, .newBlock, .available 2000]

theorem needsDispatch_of_reachable_twoParas :
    2000 ∈ ((relay plainHost).run twoParasFirst twoUpward).ump.needsDispatch ↔
      ((relay plainHost).run twoParasFirst twoUpward).ump.relayDispatchQueues 2000 ≠ [] :=
  needsDispatch_of_reachable (reachable_twoParasFirst.run twoUpward) 2000

/-- A session change in which paras go keeps the start of the next round only if it is the one para
that goes, and drops every other. Either way the next round begins with the first of the paras to
visit, also where the para whose turn it was stays. -/
theorem round_restarts (h : Reachable host s) (n : SessionIndex)
    (hout : (s.paras.applyActionsQueue n).2 ≠ []) :
    ((relay host).next s (.newSession n)).ump.nextDispatchRoundStartWith =
        s.ump.nextDispatchRoundStartWith.filter
          (fun p => ∀ q ∈ (s.paras.applyActionsQueue n).2, p = q) ∧
      (NeedsDispatchCursor.new ((relay host).next s (.newSession n)).ump).peek =
        ((relay host).next s (.newSession n)).ump.needsDispatch.items.head? := by
  -- the session change does not stop half-way
  obtain ⟨a, ha⟩ := invariant_of_reachable h
  have hsome := ha.output_isSome (.newSession n)
  have hump : ((relay host).next s (.newSession n)).ump =
      s.ump.performOutgoingParaCleanup (s.paras.applyActionsQueue n).2 := by
    simp only [relay, Machine.next, State.applyNewSession] at hsome ⊢
    split at hsome
    · cases hsome
    · rfl
  rw [hump]
  exact ⟨Ump.start_cleanup _ s.ump, (Ump.stale_cleanup hout s.ump).peek_new⟩

/-! Three paras with two messages each. A round takes the first messages of two of them, so that the
third comes next; then the second is taken off the chain. -/

def threeParas : Option State :=
  State.genesis plainHost (fun _ _ => true) defaultParachainsHostConfiguration
    [(2000, ⟨[0], true⟩), (2001, ⟨[0], true⟩), (2002, ⟨[0], true⟩)] []

theorem threeParas_isSome : threeParas.isSome = true := by decide +kernel

def threeParasFirst : State := (relay plainHost).next (threeParas.get threeParas_isSome) .newBlock

/-- A sink that takes two messages in a round. -/
def takesTwo : UmpSink := fun calls _ _ _ => if calls < 2 then .ok 1 else .error (zeroHash, 2)

def secondGoes : List Input :=
  [.backed 2000 ⟨[[5], [6]], [], [], 0, 0⟩, .backed 2001 ⟨[[5], [6]], [], [], 0, 0⟩,
    .backed 2002 ⟨[[5], [6]], [], [], 0, 0⟩, .newBlock, .available 2000, .available 2001,
    .available 2002, .processUpward takesTwo,
    .sudoCall (fun _ _ => true) (.sudoScheduleParaCleanup 2001 false), .newSession 1]

/-- The turn of the third para is lost, though it stays: the next round begins with the first. -/
theorem round_restarts_threeParas :
    let s := (relay plainHost).run threeParasFirst secondGoes
    let s' := (relay plainHost).next s (.newSession 2)
    (s.ump.nextDispatchRoundStartWith = some 2002 ∧ (s.paras.applyActionsQueue 2).2 = [2001] ∧
        s'.ump.needsDispatch.items = [2000, 2002]) ∧
      s'.ump.nextDispatchRoundStartWith = none ∧
      (NeedsDispatchCursor.new s'.ump).peek = some 2000 := by
  intro s s'
  have hreach : Reachable plainHost s :=
    Reachable.run (.first (Option.some_get threeParas_isSome).symm trivial) secondGoes
  have hstart : s.ump.nextDispatchRoundStartWith = some 2002 := by decide +kernel
  have hout : (s.paras.applyActionsQueue 2).2 = [2001] := by decide +kernel
  have hvisit : s'.ump.needsDispatch.items = [2000, 2002] := by decide +kernel
  obtain ⟨hfilter, hpeek⟩ := round_restarts hreach 2 (by rw [hout]; exact List.cons_ne_nil _ _)
  refine ⟨⟨hstart, hout, hvisit⟩, ?_, ?_⟩
  · rw [hfilter, hstart, hout]
    simp [Option.filter]
  · rw [hpeek, hvisit]
    rfl

/-! ## Runs -/

/-- What a step takes from the queue of a para: something in rounds only. -/
def takenBy (p : ParaId) (e : Entry State Input Impl.Relay.Outcome) : List UpwardMessage :=
  match e.input with
  | .processUpward sink => takenFrom p (e.before.ump.processPendingUpwardMessages e.before.config
      firstMessageFactorPercent sink).2.1
  | _ => []

/-- The candidate that a step includes, with its para. -/
def includedBy (e : Entry State Input Impl.Relay.Outcome) : Option (ParaId × CandidateCommitments) :=
  match e.input with
  | .available para =>
    match e.before.pendingAvailability.get para with
    | some c => if c.backedInNumber < e.before.blockNumber then some (para, c.commitments) else none
    | none => none
  | _ => none

/-- What a step receives from a para: the messages of its candidate, if the step includes it. -/
def receivedFrom (p : ParaId) (e : Entry State Input Impl.Relay.Outcome) : List UpwardMessage :=
  match includedBy e with
  | some (para, c) => if para = p then c.upwardMessages else []
  | none => []

/-- A step does not take the para off the chain. -/
def KeepsPara (p : ParaId) (e : Entry State Input Impl.Relay.Outcome) : Prop :=
  ∀ n, e.input = .newSession n → p ∉ (e.before.paras.applyActionsQueue n).2

theorem keepsPara_of_not_mem {is : List Input} (h : ∀ n, .newSession n ∉ is) {p : ParaId} :
    ∀ e ∈ (relay host).trace s is, KeepsPara p e := by
  intro e he n hn
  obtain ⟨ps, j, qs, rfl, rfl⟩ := ((relay host).mem_trace).mp he
  rw [show j = .newSession n from hn] at h
  exact absurd (List.mem_append_right _ List.mem_cons_self) (h n)

theorem includedBy_of_includes {para : ParaId} {c : CandidatePendingAvailability}
    (h : Includes s i para c) : includedBy ((relay host).entry s i) = some (para, c.commitments) := by
  obtain ⟨rfl, hp, hb⟩ := h
  simp [includedBy, hp, hb]

theorem includedBy_of_not_includes (h : ∀ para c, ¬ Includes s i para c) :
    includedBy ((relay host).entry s i) = none := by
  unfold includedBy
  split
  · rename_i para hi
    split
    · rename_i c hp
      exact if_neg fun hb => h para c ⟨hi, hp, hb⟩
    · rfl
  · rfl

theorem takenBy_of_ne (h : ∀ sink, i ≠ .processUpward sink) (p : ParaId) :
    takenBy p ((relay host).entry s i) = [] := by
  unfold takenBy
  split
  · rename_i sink hi
    exact absurd hi (h sink)
  · rfl

/-- A step takes from the front of a queue and appends to its end. -/
theorem upward_step (h : Listed s.ump) {p : ParaId} (hk : KeepsPara p ((relay host).entry s i)) :
    takenBy p ((relay host).entry s i) ++ ((relay host).next s i).ump.relayDispatchQueues p =
      s.ump.relayDispatchQueues p ++ receivedFrom p ((relay host).entry s i) := by
  by_cases hinc : ∃ para c, Includes s i para c
  · obtain ⟨para, c, hc⟩ := hinc
    have hne : ∀ sink, i ≠ .processUpward sink := by
      intro sink hs
      rw [hc.input] at hs
      cases hs
    rw [takenBy_of_ne hne, receivedFrom, includedBy_of_includes hc, hc.upward, Ump.queues_receive,
      List.nil_append]
  · have hnone : ∀ para c, ¬ Includes s i para c := fun para c hc => hinc ⟨para, c, hc⟩
    rw [receivedFrom, includedBy_of_not_includes hnone, List.append_nil]
    by_cases hround : ∃ sink, i = .processUpward sink
    · obtain ⟨sink, rfl⟩ := hround
      exact (Ump.processPending_spec h s.config firstMessageFactorPercent sink).1 p
    · have hne : ∀ sink, i ≠ .processUpward sink := fun sink hs => hround ⟨sink, hs⟩
      rw [takenBy_of_ne hne, List.nil_append]
      rcases upward_next host hnone hne with hsame | ⟨n, hi, he⟩
      · rw [hsame.queues]
      · rw [he, Ump.queues_cleanup]
        exact if_neg (hk n hi)

/-- While a para stays on the chain, the messages that rounds take from it are those it had queued and
those it sends, in order; what is not taken is still in its queue. -/
theorem upward_of_run (h : Reachable host s) {p : ParaId} {is : List Input}
    (hk : ∀ e ∈ (relay host).trace s is, KeepsPara p e) :
    ((relay host).trace s is).flatMap (takenBy p) ++
        ((relay host).run s is).ump.relayDispatchQueues p =
      s.ump.relayDispatchQueues p ++ ((relay host).trace s is).flatMap (receivedFrom p) := by
  induction is generalizing s with
  | nil => simp
  | cons i is ih =>
    rw [Machine.trace_cons, List.forall_mem_cons] at hk
    have hstep := upward_step (listed_of_reachable h) hk.1
    have hrest := ih (h.step i trivial) hk.2
    rw [Machine.trace_cons, Machine.run_cons, List.flatMap_cons, List.flatMap_cons, List.append_assoc,
      hrest, ← List.append_assoc, hstep, List.append_assoc]

/-- A sink that takes every message, at a small weight. -/
def takesAll : UmpSink := fun _ _ _ _ => .ok 1

theorem honest_takesAll : Honest takesAll := by
  intro n p msg w id required h
  cases h

theorem upward_of_run_twoParas :
    ((relay plainHost).trace twoParasFirst (twoUpward ++ [.processUpward takesAll])).flatMap
        (takenBy 2000) = [[5], [6]] ∧
      ((relay plainHost).trace twoParasFirst (twoUpward ++ [.processUpward takesAll])).flatMap
          (takenBy 2000) ++
        ((relay plainHost).run twoParasFirst
          (twoUpward ++ [.processUpward takesAll])).ump.relayDispatchQueues 2000 =
      twoParasFirst.ump.relayDispatchQueues 2000 ++
        ((relay plainHost).trace twoParasFirst (twoUpward ++ [.processUpward takesAll])).flatMap
          (receivedFrom 2000) := by
  refine ⟨by decide +kernel, upward_of_run reachable_twoParasFirst (keepsPara_of_not_mem ?_)⟩
  simp [twoUpward]

/-! ## Draining -/

/-- The weights of a configuration let every message be taken in a round's first place, or be put
aside. -/
structure Serviceable (config : HostConfiguration) : Prop where
  total : 0 < config.umpServiceTotalWeight
  individual : config.umpMaxIndividualWeight ≤
    config.umpServiceTotalWeight * firstMessageFactorPercent / 100

theorem run_processUpward (sinks : List UmpSink) :
    ((relay host).run s (sinks.map .processUpward)).ump =
      rounds s.config firstMessageFactorPercent sinks s.ump := by
  induction sinks generalizing s with
  | nil => rfl
  | cons sink sinks ih =>
    rw [List.map_cons, Machine.run_cons, ih]
    rfl

/-- From every state the relay chain reaches, as many rounds as messages are pending empty all
queues of upward messages. -/
theorem upward_drained (h : Reachable host s) (hc : Serviceable s.config) {sinks : List UmpSink}
    (hsinks : ∀ sink ∈ sinks, Honest sink) (hlen : messages s.ump ≤ sinks.length) (p : ParaId) :
    ((relay host).run s (sinks.map .processUpward)).ump.relayDispatchQueues p = [] := by
  rw [run_processUpward]
  exact Ump.rounds_drain (listed_of_reachable h) hsinks hc.total hc.individual hlen p

theorem upward_drained_twoParas :
    messages ((relay plainHost).run twoParasFirst twoUpward).ump = 2 ∧
      ((relay plainHost).run ((relay plainHost).run twoParasFirst twoUpward)
        ([takesAll, takesAll].map .processUpward)).ump.relayDispatchQueues 2000 = [] := by
  refine ⟨by decide +kernel, upward_drained (reachable_twoParasFirst.run twoUpward)
    ⟨by decide +kernel, by decide +kernel⟩ ?_ (by decide +kernel) 2000⟩
  intro sink hs
  rw [List.mem_pair, or_self] at hs
  exact hs ▸ honest_takesAll

end SIM.Proof.Relay
