import SimMultichain.Proof.RelayLines

/-!
# HRMP over whole runs

What holds of the storage of HRMP in every state that the relay chain reaches from its genesis:

* `consistent_of_reachable`: the lists, indexes, contents and digests agree with each other, and no
  step stops the runtime; the counts of requests are left out, for they may be stale;
* `contents_of_open`: while a channel is open, nothing that is sent on it is lost, sent twice or
  reordered: its contents are everything sent, without what its recipient has processed;
* `pruned_at_inclusion`: a candidate that is included takes from a channel what the channel held at
  the end of its parent block, up to the candidate's watermark, however many blocks later it
  is included;
* `queued_eq_of_mqcHead_eq`: the head of a channel's message queue chain determines all messages
  sent on it.
-/

namespace SIM.Proof.Relay

open SIM.Impl (ParaId Hash)
open SIM.Impl.Relay
open SIM.Proof.Hrmp
open SIM.Spec (Lines LineOp)
open SIM.Spec.Lines (Allowed AllowedAll Continues isAfter)

/-- What is assumed of the surroundings of a relay chain: of its genesis, and of every step. -/
structure Env where
  genesis : HostConfiguration → List (ParaId × ParaGenesisArgs) → Prop
  step : Entry State Input Impl.Relay.Outcome → Prop

/-- The states of the relay chain from its first block on, within surroundings. -/
inductive ReachableIn (E : Env) (host : Host) : State → Prop
  | first {canReserve : CanReserve} {config : HostConfiguration}
      {paras : List (ParaId × ParaGenesisArgs)}
      {channels : List (ParaId × ParaId × UInt32 × UInt32)} {g : State}
      (hg : State.genesis host canReserve config paras channels = some g)
      (he : E.genesis config paras) : ReachableIn E host ((relay host).next g .newBlock)
  | step {s : State} (h : ReachableIn E host s) (i : Input) (he : E.step ((relay host).entry s i)) :
      ReachableIn E host ((relay host).next s i)

/-- All states of the relay chain, whatever its surroundings do. -/
abbrev Reachable : Host → State → Prop := ReachableIn ⟨fun _ _ => True, fun _ => True⟩

variable {host : Host} {s s' : State} {a : HrmpLines} {i : Input}

theorem ReachableIn.run {E : Env} (h : ReachableIn E host s) {is : List Input}
    (he : ∀ e ∈ (relay host).trace s is, E.step e) : ReachableIn E host ((relay host).run s is) := by
  induction is generalizing s with
  | nil => exact h
  | cons i is ih =>
    rw [Machine.trace_cons, List.forall_mem_cons] at he
    exact ih (h.step i he.1) he.2

theorem Reachable.run (h : Reachable host s) (is : List Input) :
    Reachable host ((relay host).run s is) := ReachableIn.run h fun _ _ => trivial

/-! ## Genesis -/

/-- Channels are preopened by requests and their acceptance. -/
theorem preopen_induction {P : State → Prop} (hcall : ∀ s s', Called s s' → P s → P s')
    {canReserve : CanReserve} {channels : List (ParaId × ParaId × UInt32 × UInt32)}
    (h : s.preopen host canReserve channels = .ok s') (hs : P s) : P s' := by
  induction channels generalizing s with
  | nil => cases h; exact hs
  | cons c channels ih =>
    obtain ⟨sender, recipient, maxCapacity, maxMessageSize⟩ := c
    simp only [State.preopen, bind, Except.bind] at h
    cases h₁ : s.initOpenChannel host canReserve sender recipient maxCapacity maxMessageSize with
    | error e => simp only [h₁] at h; cases h
    | ok s₁ =>
      cases h₂ : s₁.acceptOpenChannel host canReserve recipient sender with
      | error e => simp only [h₁, h₂] at h; cases h
      | ok s₂ =>
        simp only [h₁, h₂] at h
        exact ih h (hcall _ _ (called_acceptOpenChannel h₂) (hcall _ _ (called_initOpenChannel h₁) hs))

/-- The state of a genesis before its channels are opened. -/
def beforeChannels (configuration : Configuration) (paras : Paras) : State :=
  ⟨0, 0, configuration, paras, ⟨fun _ => [], fun _ => zeroHash⟩, .empty, .empty, .empty⟩

/-- What holds before the channels are opened, and is kept by the moves that open them, holds of a
genesis. -/
theorem genesis_induction {P : State → Prop} {canReserve : CanReserve} {config : HostConfiguration}
    {paras : List (ParaId × ParaGenesisArgs)} {channels : List (ParaId × ParaId × UInt32 × UInt32)}
    {g : State} (hg : State.genesis host canReserve config paras channels = some g)
    (h₀ : ∀ configuration paras', Configuration.build config = some configuration →
      Paras.build paras = some paras' → P (beforeChannels configuration paras'))
    (hmove : ∀ s s', s.config = config → s.pendingAvailability = .empty →
      Move (.hrmpCall canReserve .root .forceProcessHrmpOpen) s s' → P s → P s') :
    P g ∧ g.blockNumber = 0 ∧ g.pendingAvailability = .empty ∧ g.config = config := by
  simp only [State.genesis, bind, Option.bind_eq_some_iff] at hg
  obtain ⟨configuration, hc, paras', hp, s, hs, hrmp, hr, hg⟩ := hg
  cases hg
  have hs' : State.preopen host canReserve (beforeChannels configuration paras') channels = .ok s := by
    change (State.preopen host canReserve (beforeChannels configuration paras') channels).toOption =
      some s at hs
    cases h : State.preopen host canReserve (beforeChannels configuration paras') channels with
    | error e => rw [h] at hs; cases hs
    | ok s₁ => rw [h] at hs; cases hs; rfl
  have hbuild : configuration.activeConfig = config := by
    unfold Configuration.build at hc
    split_ifs at hc
    cases hc; rfl
  have hpre := preopen_induction (P := fun s => P s ∧ s.config = config ∧ s.blockNumber = 0 ∧
    s.pendingAvailability = .empty)
    (fun s s' h => by
      rintro ⟨hP, hrest⟩
      have hm := h.move (.hrmpCall canReserve .root .forceProcessHrmpOpen)
      obtain ⟨dmp, hrmp, rfl⟩ := h.rest
      exact ⟨hmove _ _ hrest.1 hrest.2.2 hm hP, hrest⟩) hs' ⟨h₀ _ _ hc hp, hbuild, rfl, rfl⟩
  obtain ⟨hP, hconf, hb, hpend⟩ := hpre
  exact ⟨hmove _ _ hconf hpend (.processOpen hrmp ⟨_, rfl⟩ (hconf ▸ hr)) hP, hb, hpend, hconf⟩

/-! ## The invariant holds -/

theorem core_beforeChannels (host : Host) (configuration : Configuration) (paras : Paras) :
    Core host (beforeChannels configuration paras) Lines.empty :=
  ⟨Hrmp.Represents.empty host 0, Lines.Sound.empty, fun _ _ hr => by cases hr⟩

/-- In the first block no candidate waits yet. -/
theorem waiting_first {g : State} (hb : g.blockNumber = 0) (hp : g.pendingAvailability = .empty) :
    Waiting ((relay host).next g .newBlock) := by
  constructor <;> intros <;> simp_all [Machine.next, relay]

/-- What a step queues on a channel: the messages of the candidate it includes, if it does. -/
def queuedOn (id : HrmpChannelId) (e : Entry State Input Impl.Relay.Outcome) : List InboundHrmpMessage :=
  match e.input with
  | .available para =>
    match e.before.pendingAvailability.get para with
    | some c =>
      if c.backedInNumber < e.before.blockNumber then
        outbound e.before.blockNumber para c.commitments.horizontalMessages id
      else []
    | none => []
  | _ => []

theorem queuedOn_of_includes {i : Input} {para : ParaId} {c : CandidatePendingAvailability}
    (h : Includes s i para c) (id : HrmpChannelId) : queuedOn id ((relay host).entry s i) =
      outbound s.blockNumber para c.commitments.horizontalMessages id := by
  obtain ⟨rfl, hp, hb⟩ := h
  simp [queuedOn, hp, hb]

theorem queuedOn_of_not_includes {i : Input} (h : ∀ para c, ¬ Includes s i para c)
    (id : HrmpChannelId) : queuedOn id ((relay host).entry s i) = [] := by
  unfold queuedOn
  split
  · rename_i para hi
    split
    · rename_i c hp
      exact if_neg fun hb => h para c ⟨hi, hp, hb⟩
    · rfl
  · rfl

/-- A step keeps the invariant, and a channel that it leaves open continues. -/
theorem Invariant.step (h : Invariant host s a) (i : Input) :
    ∃ a', Invariant host ((relay host).next s i) a' ∧
      ∀ id, Continues names id a a' (queuedOn id ((relay host).entry s i)) := by
  rcases step_cases host s i with ⟨para, c, hi⟩ | ⟨hn, hm⟩
  · rw [hi.next]
    obtain ⟨h', hc⟩ := h.included hi.pending hi.backed
    exact ⟨_, h', fun id => queuedOn_of_includes hi id ▸ hc id⟩
  · simp only [queuedOn_of_not_includes hn]
    generalize (relay host).next s i = s' at hm
    cases hm with
    | one hm =>
      obtain ⟨ops, ho, h'⟩ := h.move hm
      exact ⟨_, h', ho.continues⟩
    | two hm hm' hch =>
      obtain ⟨ops₁, ho₁, h₁⟩ := h.move hm
      obtain ⟨ops₂, ho₂, h₂⟩ := h₁.move hm'
      refine ⟨_, h₂, fun id => ?_⟩
      by_cases ho : ((a.applyAll names ops₁).line id).isSome
      · exact (ho₁.continues id).trans (ho₂.continues id) ho
      · -- the first of two moves closes nothing
        refine ⟨(ho₁.continues id).later.trans (ho₂.continues id).later,
          fun {t c t' c'} hl _ => absurd ?_ ho⟩
        have := congrArg (fun m => (m.get id).isSome) hch
        simp only [h.rep.channels, h₁.rep.channels, Option.isSome_map, hl] at this
        exact this

theorem invariant_of_reachable (h : Reachable host s) : ∃ a, Invariant host s a := by
  induction h with
  | first hg _ =>
    obtain ⟨⟨a, hc⟩, hb, hp, -⟩ := genesis_induction (P := fun s => ∃ a, Core host s a) hg
      (fun _ _ _ _ => ⟨_, core_beforeChannels ..⟩)
      fun _ _ _ _ hm ⟨_, h⟩ => let ⟨_, ho⟩ := h.move hm; ⟨_, ho.core⟩
    obtain ⟨ops, ho⟩ := hc.move (.newBlock rfl)
    exact ⟨_, ho.core, waiting_first hb hp⟩
  | step _ i _ ih =>
    obtain ⟨a, ha⟩ := ih
    obtain ⟨a', ha', -⟩ := ha.step i
    exact ⟨a', ha'⟩

/-! ## Consistency -/

/-- What the storage items of HRMP have to do with each other, the counts of requests and the validity
of paras apart. -/
structure Consistent (now : BlockNumber) (s : Hrmp) : Prop where
  requestsNodup : s.openChannelRequestsList.Nodup
  mem_requests (id : HrmpChannelId) :
    id ∈ s.openChannelRequestsList ↔ (s.openChannelRequests.get id).isSome
  closesNodup : s.closeChannelRequestsList.Nodup
  mem_closes (id : HrmpChannelId) :
    id ∈ s.closeChannelRequestsList ↔ (s.closeChannelRequests.get id).isSome
  ingress (p q : ParaId) : q ∈ s.ingressChannelsIndex p ↔ (s.channels.get ⟨q, p⟩).isSome
  egress (p q : ParaId) : q ∈ s.egressChannelsIndex p ↔ (s.channels.get ⟨p, q⟩).isSome
  apart (id : HrmpChannelId) : (s.openChannelRequests.get id).isSome → s.channels.get id = none
  contents {id ms} : s.channelContents.get id = some ms → ms ≠ [] ∧ (s.channels.get id).isSome
  counts {id c} : s.channels.get id = some c → c.msgCount = UInt32.ofNat (s.contents id).length ∧
    c.totalSize = UInt32.ofNat (Hrmp.dataSize (s.contents id))
  ascending (id : HrmpChannelId) : Ascending (s.contents id)
  past {id m} : m ∈ s.contents id → m.sentAt ≤ now
  waits {id m w} : m ∈ s.contents id → s.watermarks.get id.recipient = some w → w < m.sentAt
  watermark_lt {p w} : s.watermarks.get p = some w → w < now
  digestSorted (p : ParaId) : (s.channelDigests p).Pairwise fun e e' => e.1 < e'.1
  digestPast {p e} : e ∈ s.channelDigests p → e.1 ≤ now
  digestNodup {p e} : e ∈ s.channelDigests p → e.2 ≠ [] ∧ e.2.Nodup
  digestCovers {id m} : m ∈ s.contents id →
    ∃ e ∈ s.channelDigests id.recipient, e.1 = m.sentAt ∧ id.sender ∈ e.2

/-- The messages in a channel are those that wait on its line. -/
theorem mem_contents {now : BlockNumber} {s : Hrmp} (h : Hrmp.Represents host now s a) {id : HrmpChannelId}
    {m : InboundHrmpMessage} (hm : m ∈ s.contents id) :
    ∃ t c, a.line id = some (t, c) ∧ s.contents id = c.queue := by
  cases hl : a.line id with
  | none => simp [Hrmp.contents, h.contents, hl] at hm
  | some l => exact ⟨l.1, l.2, rfl, h.contents_eq hl⟩

theorem Core.consistent (h : Core host s a) : Consistent s.blockNumber s.hrmp where
  requestsNodup := h.rep.requestsNodup
  mem_requests id := by rw [h.rep.mem_requests, h.rep.requests, Option.isSome_map]
  closesNodup := h.rep.closesNodup
  mem_closes id := by rw [h.rep.mem_closes, h.rep.closes]
  ingress p q := by rw [h.rep.ingress, h.rep.channels, Option.isSome_map]
  egress p q := by rw [h.rep.egress, h.rep.channels, Option.isSome_map]
  apart id hr := by
    rw [h.rep.requests, Option.isSome_map] at hr
    rw [h.rep.channels, h.sound.apart hr]
    rfl
  contents {id ms} hms := by
    rw [h.rep.contents] at hms
    obtain ⟨l, hl, hq⟩ := Option.bind_eq_some_iff.mp hms
    unfold toContents at hq
    split_ifs at hq with hne
    cases hq
    exact ⟨hne, by rw [h.rep.channels, hl]; rfl⟩
  counts {id c} hc := by
    rw [h.rep.channels] at hc
    obtain ⟨l, hl, rfl⟩ := Option.map_eq_some_iff.mp hc
    rw [h.rep.contents_eq hl]
    exact ⟨rfl, rfl⟩
  ascending id := by
    cases hl : a.line id with
    | none => simp [Hrmp.contents, h.rep.contents, hl]
    | some l => rw [h.rep.contents_eq hl]; exact h.sound.ascending hl
  past hm := by
    obtain ⟨t, c, hl, hq⟩ := mem_contents h.rep hm
    exact h.sound.past hl (hq ▸ hm)
  waits hm hw := by
    obtain ⟨t, c, hl, hq⟩ := mem_contents h.rep hm
    exact h.sound.waits hl (hq ▸ hm) (h.rep.watermarks _ ▸ hw)
  watermark_lt hw := h.sound.passed (h.rep.watermarks _ ▸ hw)
  digestSorted := h.rep.digestSorted
  digestPast := h.rep.digestPast
  digestNodup := h.rep.digestNodup
  digestCovers hm := by
    obtain ⟨t, c, hl, hq⟩ := mem_contents h.rep hm
    exact h.rep.digestCovers hl (hq ▸ hm)

theorem isSome_attempt (s : State) (r : Except DispatchError State) (events : List Event) :
    (s.attempt r events).2.isSome := by
  cases r <;> rfl

theorem isSome_byParachain (s : State) (origin : Origin) {f : ParaId → State × Impl.Relay.Outcome}
    (hf : ∀ id, (f id).2.isSome) : (s.byParachain origin f).2.isSome := by
  cases origin with
  | parachain id => exact hf id
  | _ => rfl

theorem isSome_byRoot (s : State) (origin : Origin) {r : State × Impl.Relay.Outcome}
    (hr : r.2.isSome) : (s.byRoot origin r).2.isSome := by
  cases origin with
  | root => exact hr
  | _ => rfl

theorem isSome_parasChange (s : State) (r : Except Paras.Error Paras) (e : ParasSudoWrapperError) :
    (s.parasChange r e).2.isSome := by
  cases r <;> rfl

theorem Core.isSome_hrmpCall (h : Core host s a) (canReserve : CanReserve) (origin : Origin)
    (call : HrmpCall) : (s.hrmpCall host canReserve origin call).2.isSome := by
  cases call with
  | hrmpCancelOpenRequest channelId openRequests =>
    refine isSome_byParachain _ _ fun id => ?_
    split_ifs
    · exact isSome_attempt ..
    · rfl
  | forceProcessHrmpOpen =>
    refine isSome_byRoot _ _ ?_
    obtain ⟨hrmp, e, -⟩ := h.rep.processOpen h.sound s.paras.isValidPara h.deposited
    rw [e]
    rfl
  | forceCleanHrmp para => exact isSome_byRoot _ _ rfl
  | forceProcessHrmpClose => exact isSome_byRoot _ _ rfl
  | _ => exact isSome_byParachain _ _ fun id => isSome_attempt ..

theorem isSome_sudoCall (host : Host) (s : State) (canReserve : CanReserve) (call : SudoCall) :
    (s.sudoCall host canReserve call).2.isSome := by
  cases call with
  | sudoScheduleParaInitialize id genesis fastTracked => exact isSome_parasChange ..
  | sudoScheduleParaCleanup id upgrading => exact isSome_parasChange ..
  | sudoScheduleParathreadUpgrade id =>
    simp only [State.sudoCall]
    split_ifs
    · exact isSome_parasChange ..
    · rfl
  | sudoScheduleParachainDowngrade id =>
    simp only [State.sudoCall]
    split_ifs
    · exact isSome_parasChange ..
    · rfl
  | sudoQueueDownwardXcm id xcm =>
    simp only [State.sudoCall]
    split_ifs
    · split <;> rfl
    · rfl
  | sudoEstablishHrmpChannel sender recipient maxCapacity maxMessageSize =>
    simp only [State.sudoCall]
    split
    · rfl
    · split <;> rfl

/-- No step stops the runtime. -/
theorem Core.output_isSome (h : Core host s a) (i : Input) : ((relay host).step s i).2.isSome := by
  cases i with
  | hrmpCall canReserve origin call => exact h.isSome_hrmpCall canReserve origin call
  | sudoCall canReserve call => exact isSome_sudoCall host s canReserve call
  | sendXcm wrapVersion dest msg =>
    simp only [relay, State.sendXcm]
    split
    · split
      · rfl
      · split <;> rfl
    · rfl
  | setConfig updater =>
    simp only [relay]
    split <;> rfl
  | backed para c =>
    change (s.processCandidate para c).2.isSome
    simp only [State.processCandidate]
    split
    · rfl
    · split_ifs <;> rfl
  | available para =>
    change (s.includeCandidate host para).2.isSome
    simp only [State.includeCandidate]
    split
    · rfl
    · split_ifs <;> rfl
  | serviceOverweight sink index weightLimit =>
    simp only [relay]
    split <;> rfl
  | newSession n =>
    change (s.applyNewSession n).2.isSome
    obtain ⟨hrmp, e, -⟩ := h.rep.newSession h.sound h.deposited
      (s.paras.applyActionsQueue n).1.isValidPara (s.paras.applyActionsQueue n).2
    simp only [State.applyNewSession, e]
    rfl
  | _ => rfl

/-- In every state the relay chain reaches, the storage of HRMP is consistent, and no input stops
the runtime. -/
theorem consistent_of_reachable (h : Reachable host s) :
    Consistent s.blockNumber s.hrmp ∧ ∀ i, ((relay host).step s i).2.isSome := by
  obtain ⟨a, ha⟩ := invariant_of_reachable h
  exact ⟨ha.consistent, ha.output_isSome⟩

/-! A small relay chain: two paras with a channel from the one to the other, in its
first block. -/

/-- A host whose hash of a message is its first byte. -/
def plainHost : Host where
  hashOf m := Vector.replicate 32 (m.headD 0)
  hashLink _ _ m := m
  encode _ := []
  transactional := true

def twoParas : Option State :=
  State.genesis plainHost (fun _ _ => true) defaultParachainsHostConfiguration
    [(2000, ⟨[0], true⟩), (2001, ⟨[0], true⟩)] [(2000, 2001, 8, 1024)]

theorem twoParas_isSome : twoParas.isSome = true := by decide +kernel

def twoParasFirst : State := (relay plainHost).next (twoParas.get twoParas_isSome) .newBlock

theorem reachable_twoParasFirst : Reachable plainHost twoParasFirst :=
  .first (Option.some_get twoParas_isSome).symm trivial

theorem consistent_of_reachable_twoParas :
    Consistent twoParasFirst.blockNumber twoParasFirst.hrmp ∧
      ∀ i, ((relay plainHost).step twoParasFirst i).2.isSome :=
  consistent_of_reachable reachable_twoParasFirst

-- A request goes with its recipient, but is still counted for its sender.
example :
    let s := (relay plainHost).run twoParasFirst
      [.hrmpCall (fun _ _ => true) (.parachain 2001) (.hrmpInitOpenChannel 2000 8 1024),
        .sudoCall (fun _ _ => true) (.sudoScheduleParaCleanup 2000 false),
        .newSession 1, .newSession 2]
    s.hrmp.openChannelRequestsList = [] ∧ s.hrmp.openChannelRequestCount 2001 = 1 := by
  decide +kernel

/-! ## Messages -/

/-- A channel is open in every state of a run. -/
def StaysOpen (host : Host) (id : HrmpChannelId) (s : State) (is : List Input) : Prop :=
  ∀ n ≤ is.length, (((relay host).run s (is.take n)).hrmp.channels.get id).isSome

/-- Everything that a run queues on a channel. -/
def queuedAlong (host : Host) (id : HrmpChannelId) (s : State) (is : List Input) :
    List InboundHrmpMessage :=
  ((relay host).trace s is).flatMap (queuedOn id)

/-- The messages after a watermark, all where there is none. -/
def afterWatermark (w : Option BlockNumber) (ms : List InboundHrmpMessage) :
    List InboundHrmpMessage :=
  ms.filter fun m => w.all (· < m.sentAt)

theorem StaysOpen.start {id : HrmpChannelId} {is : List Input} (h : StaysOpen host id s is) :
    (s.hrmp.channels.get id).isSome := h 0 (Nat.zero_le _)

theorem StaysOpen.last {id : HrmpChannelId} {is : List Input} (h : StaysOpen host id s is) :
    (((relay host).run s is).hrmp.channels.get id).isSome := by
  simpa using h is.length le_rfl

theorem StaysOpen.tail {id : HrmpChannelId} {i : Input} {is : List Input}
    (h : StaysOpen host id s (i :: is)) : StaysOpen host id ((relay host).next s i) is :=
  fun n hn => h (n + 1) (Nat.succ_le_succ hn)

/-- A channel that stays open is one line all along. -/
theorem Invariant.run (h : Invariant host s a) {id : HrmpChannelId} {is : List Input}
    (ho : StaysOpen host id s is) : ∃ a', Invariant host ((relay host).run s is) a' ∧
      Continues names id a a' (queuedAlong host id s is) := by
  induction is generalizing s a with
  | nil => exact ⟨a, h, Continues.refl h.sound id⟩
  | cons i is ih =>
    obtain ⟨a₁, h₁, hc₁⟩ := h.step i
    obtain ⟨a₂, h₂, hc₂⟩ := ih h₁ ho.tail
    have hopen := ho.tail.start
    rw [h₁.rep.channels, Option.isSome_map] at hopen
    refine ⟨a₂, h₂, ?_⟩
    rw [queuedAlong, Machine.trace_cons, List.flatMap_cons]
    exact (hc₁ id).trans hc₂ hopen

/-- What becomes of a channel that stays open, in storage. -/
theorem channel_of_open (h : Reachable host s) {id : HrmpChannelId} {is : List Input}
    (ho : StaysOpen host id s is) : ∃ t c t' c',
      s.hrmp.channels.get id = some (toChannel host (t, c)) ∧ s.hrmp.contents id = c.queue ∧
      ((relay host).run s is).hrmp.channels.get id = some (toChannel host (t', c')) ∧
      ((relay host).run s is).hrmp.contents id = c'.queue ∧
      t' = t ∧ c'.sent = c.sent ++ queuedAlong host id s is ∧
      c'.queue = afterWatermark (((relay host).run s is).hrmp.watermarks.get id.recipient)
        (c.queue ++ queuedAlong host id s is) := by
  obtain ⟨a, ha⟩ := invariant_of_reachable h
  obtain ⟨a', ha', hc⟩ := ha.run ho
  have hs := ho.start
  have he := ho.last
  rw [ha.rep.channels, Option.isSome_map] at hs
  rw [ha'.rep.channels, Option.isSome_map] at he
  obtain ⟨⟨t, c⟩, hl⟩ := Option.isSome_iff_exists.mp hs
  obtain ⟨⟨t', c'⟩, hl'⟩ := Option.isSome_iff_exists.mp he
  refine ⟨t, c, t', c', by rw [ha.rep.channels, hl]; rfl, ha.rep.contents_eq hl,
    by rw [ha'.rep.channels, hl']; rfl, ha'.rep.contents_eq hl', ?_⟩
  rw [ha'.rep.watermarks]
  exact hc.line hl hl'

/-- While a channel is open, its contents are what it held and what was queued on it since, in
order, without what its recipient has processed. -/
theorem contents_of_open (h : Reachable host s) {id : HrmpChannelId} {is : List Input}
    (ho : StaysOpen host id s is) :
    ((relay host).run s is).hrmp.contents id =
      afterWatermark (((relay host).run s is).hrmp.watermarks.get id.recipient)
        (s.hrmp.contents id ++ queuedAlong host id s is) := by
  obtain ⟨t, c, t', c', -, hq, -, hq', -, -, he⟩ := channel_of_open h ho
  rw [hq, hq', he]

/-- The first para sends a message, which is queued in the second block. -/
def oneMessage : List Input :=
  [.backed 2000 ⟨[], [⟨2001, [7]⟩], [], 1, 0⟩, .newBlock, .available 2000]

/-- It sends another in its next candidate, which is queued in the third block. -/
def twoMessages : List Input :=
  oneMessage ++ [.backed 2000 ⟨[], [⟨2001, [8]⟩], [], 0, 1⟩, .newBlock, .available 2000]

/-- The second para then processes the first message. -/
def firstProcessed : List Input :=
  twoMessages ++ [.backed 2001 ⟨[], [], [], 1, 2⟩, .newBlock, .available 2001]

theorem firstProcessed_staysOpen :
    StaysOpen plainHost ⟨2000, 2001⟩ twoParasFirst firstProcessed := by
  intro n hn
  have hn : n ≤ 9 := hn
  interval_cases n <;> decide +kernel

theorem contents_of_open_twoParas :
    let s := (relay plainHost).run twoParasFirst firstProcessed
    (queuedAlong plainHost ⟨2000, 2001⟩ twoParasFirst firstProcessed = [⟨2, [7]⟩, ⟨3, [8]⟩] ∧
        s.hrmp.watermarks.get 2001 = some 2) ∧
      s.hrmp.contents ⟨2000, 2001⟩ = [⟨3, [8]⟩] := by
  intro s
  have hqueued : queuedAlong plainHost ⟨2000, 2001⟩ twoParasFirst firstProcessed =
      [⟨2, [7]⟩, ⟨3, [8]⟩] := by decide +kernel
  have hmark : s.hrmp.watermarks.get 2001 = some 2 := by decide +kernel
  have hempty : twoParasFirst.hrmp.contents ⟨2000, 2001⟩ = [] := by decide +kernel
  refine ⟨⟨hqueued, hmark⟩, ?_⟩
  rw [contents_of_open reachable_twoParasFirst firstProcessed_staysOpen, hmark, hqueued, hempty]
  decide

/-! ## The message queue chain -/

/-- The head of a channel's chain. -/
def headOf (s : State) (id : HrmpChannelId) : Option Hash := (s.hrmp.channels.get id).bind (·.mqcHead)

theorem mqcHead_eq_none {ms : List InboundHrmpMessage} : mqcHead host ms = none ↔ ms = [] := by
  unfold mqcHead
  split_ifs with h <;> simp [h]

/-- The head of a channel that had no message is that of everything queued on it. -/
theorem headOf_run (h : Reachable host s) {id : HrmpChannelId} {is : List Input}
    (ho : StaysOpen host id s is) (hn : headOf s id = none) :
    headOf ((relay host).run s is) id = mqcHead host (queuedAlong host id s is) := by
  obtain ⟨t, c, t', c', hc, -, hc', -, -, hs, -⟩ := channel_of_open h ho
  rw [headOf, hc] at hn
  have hnil : c.sent = [] := mqcHead_eq_none.mp hn
  rw [headOf, hc', Option.bind_some]
  change mqcHead host c'.sent = _
  rw [hs, hnil, List.nil_append]

/-- The head of a channel's chain determines all messages queued on the channel, with the blocks they
were queued in, where the hashes of the links of the two chains are not the same by accident. -/
theorem queued_eq_of_mqcHead_eq {s₁ s₂ : State} (h₁ : Reachable host s₁) (h₂ : Reachable host s₂)
    {id₁ id₂ : HrmpChannelId} {is₁ is₂ : List Input} (ho₁ : StaysOpen host id₁ s₁ is₁)
    (ho₂ : StaysOpen host id₂ s₂ is₂) (hn₁ : headOf s₁ id₁ = none) (hn₂ : headOf s₂ id₂ = none)
    (hfree : ChainFree (Hrmp.mqcLink host) zeroHash
      (chainLinks (Hrmp.mqcLink host) zeroHash (queuedAlong host id₁ s₁ is₁) ++
        chainLinks (Hrmp.mqcLink host) zeroHash (queuedAlong host id₂ s₂ is₂)))
    (he : headOf ((relay host).run s₁ is₁) id₁ = headOf ((relay host).run s₂ is₂) id₂) :
    queuedAlong host id₁ s₁ is₁ = queuedAlong host id₂ s₂ is₂ := by
  rw [headOf_run h₁ ho₁ hn₁, headOf_run h₂ ho₂ hn₂] at he
  refine chainHead_inj hfree (List.subset_append_left _ _) (List.subset_append_right _ _) ?_
  unfold mqcHead at he
  split_ifs at he with e₁ e₂
  · rw [e₁, e₂]
  · exact Option.some.inj he

/-- The same two messages, with candidates of the second para in between. -/
def twoMessagesBetween : List Input :=
  [.backed 2001 ⟨[], [], [], 1, 0⟩, .backed 2000 ⟨[], [⟨2001, [7]⟩], [], 1, 0⟩, .newBlock,
    .available 2001, .available 2000, .backed 2000 ⟨[], [⟨2001, [8]⟩], [], 0, 1⟩,
    .backed 2001 ⟨[], [], [], 0, 1⟩, .newBlock, .available 2000, .available 2001]

theorem queued_eq_of_mqcHead_eq_twoParas :
    let s := (relay plainHost).run twoParasFirst twoMessages
    let s' := (relay plainHost).run twoParasFirst twoMessagesBetween
    (headOf s ⟨2000, 2001⟩ = some (Vector.replicate 32 8) ∧ s.hrmp.watermarks.get 2001 = none ∧
        s'.hrmp.watermarks.get 2001 = some 1) ∧
      queuedAlong plainHost ⟨2000, 2001⟩ twoParasFirst twoMessages =
        queuedAlong plainHost ⟨2000, 2001⟩ twoParasFirst twoMessagesBetween := by
  refine ⟨by decide +kernel, queued_eq_of_mqcHead_eq reachable_twoParasFirst reachable_twoParasFirst
    ?_ ?_ (by decide +kernel) (by decide +kernel) ⟨by decide +kernel, by decide +kernel⟩
    (by decide +kernel)⟩
  · intro n hn
    have hn : n ≤ 6 := hn
    interval_cases n <;> decide +kernel
  · intro n hn
    have hn : n ≤ 10 := hn
    interval_cases n <;> decide +kernel

/-! ## What a candidate takes -/

theorem Move.blockNumber_le (h : Move i s s') : s.blockNumber ≤ s'.blockNumber := by
  cases h with
  | idle s' _ hf _ => exact hf.blockNumber.ge
  | newBlock _ => exact Nat.le_succ _
  | _ => exact le_rfl

theorem blockNumber_le_next (host : Host) (s : State) (i : Input) :
    s.blockNumber ≤ ((relay host).next s i).blockNumber :=
  step_induction (P := fun s' => s.blockNumber ≤ s'.blockNumber)
    (fun _ _ hm h => h.trans hm.blockNumber_le) (fun _ _ _ _ _ h => h) le_rfl

/-- What is queued from a block on has the number of that block or a later one. -/
theorem le_sentAt_of_mem_queuedAlong {id : HrmpChannelId} {is : List Input} {m : InboundHrmpMessage}
    (hm : m ∈ queuedAlong host id s is) : s.blockNumber ≤ m.sentAt := by
  induction is generalizing s with
  | nil => cases hm
  | cons i is ih =>
    rw [queuedAlong, Machine.trace_cons, List.flatMap_cons, List.mem_append] at hm
    rcases hm with hm | hm
    · rcases step_cases host s i with ⟨para, c, hi⟩ | ⟨hn, -⟩
      · rw [queuedOn_of_includes hi] at hm
        obtain ⟨m', -, rfl⟩ := List.mem_map.mp hm
        exact le_rfl
      · rw [queuedOn_of_not_includes hn] at hm
        cases hm
    · exact (blockNumber_le_next host s i).trans (ih hm)

/-- What a candidate takes from a channel when it is included, though messages may have been queued
and other candidates included since it was backed: what the channel held at the end of the
block before that (the parent that the candidate was built on), from the para's last watermark
up to the candidate's. -/
theorem pruned_at_inclusion (h : Reachable host s) {q para : ParaId} (is : List Input)
    {c : CandidatePendingAvailability} (hq : q ≠ para)
    (ho : StaysOpen host ⟨q, para⟩ s (.newBlock :: is))
    (hi : Includes ((relay host).run s (.newBlock :: is)) (.available para) para c)
    (hb : c.backedInNumber = s.blockNumber + 1) :
    ((relay host).run s (.newBlock :: is ++ [.available para])).hrmp.contents ⟨q, para⟩ =
        (((relay host).run s (.newBlock :: is)).hrmp.contents ⟨q, para⟩).filter
          (fun m => ¬ m.sentAt ≤ c.commitments.hrmpWatermark) ∧
      (((relay host).run s (.newBlock :: is)).hrmp.contents ⟨q, para⟩).filter
          (fun m => m.sentAt ≤ c.commitments.hrmpWatermark) =
        (afterWatermark (((relay host).run s (.newBlock :: is)).hrmp.watermarks.get para)
          (s.hrmp.contents ⟨q, para⟩)).filter fun m => m.sentAt ≤ c.commitments.hrmpWatermark := by
  obtain ⟨a, ha⟩ := invariant_of_reachable (h.run (.newBlock :: is))
  refine ⟨?_, ?_⟩
  · obtain ⟨ha', -⟩ := ha.included hi.pending hi.backed
    have hopen := ho.last
    rw [ha.rep.channels, Option.isSome_map] at hopen
    obtain ⟨l, hl⟩ := Option.isSome_iff_exists.mp hopen
    have hl' : (a.applyAll names (inclusionOps ((relay host).run s (.newBlock :: is)).blockNumber para
        c.commitments)).line ⟨q, para⟩ = some (received c.commitments.hrmpWatermark l) := by
      refine (line_sends_of_ne (by exact hq) _ _ _).trans ?_
      rw [line_receive, if_pos rfl, hl]
      rfl
    rw [Machine.run_snoc, hi.next, ha'.rep.contents_eq hl', ha.rep.contents_eq hl]
    exact queue_received (ha.sound.ascending hl)
  · -- what was queued since is later than the candidate's watermark
    have hlater : (queuedAlong host ⟨q, para⟩ s (.newBlock :: is)).filter
        (fun m => m.sentAt ≤ c.commitments.hrmpWatermark) = [] := by
      refine List.filter_eq_nil_iff.mpr fun m hm => ?_
      have hm' : m ∈ queuedAlong host ⟨q, para⟩ ((relay host).next s .newBlock) is := hm
      have hle : s.blockNumber + 1 ≤ m.sentAt := le_sentAt_of_mem_queuedAlong hm'
      have hlt := ha.waiting.watermark_lt hi.pending
      simp only [decide_eq_true_eq]
      exact not_le.mpr (lt_of_lt_of_le hlt (hb ▸ hle))
    obtain ⟨_, _, _, _, -, hheld, -, hnow, -, -, he⟩ := channel_of_open h ho
    rw [hnow, he, ← hheld, afterWatermark, afterWatermark, List.filter_append, List.filter_append,
      List.filter_comm _ _ (queuedAlong _ _ _ _), hlater, List.filter_nil, List.append_nil]

/-- The second para processes the message in its own candidate, built on the second block. -/
theorem pruned_at_inclusion_twoParas :
    ((relay plainHost).run ((relay plainHost).run twoParasFirst oneMessage)
        ([.newBlock, .backed 2001 ⟨[], [], [], 1, 2⟩, .newBlock] ++ [.available 2001])).hrmp.contents
        ⟨2000, 2001⟩ =
      (((relay plainHost).run ((relay plainHost).run twoParasFirst oneMessage)
        [.newBlock, .backed 2001 ⟨[], [], [], 1, 2⟩, .newBlock]).hrmp.contents ⟨2000, 2001⟩).filter
          (fun m => ¬ m.sentAt ≤ 2) :=
  (pruned_at_inclusion (c := ⟨⟨[], [], [], 1, 2⟩, 2, 3⟩) (reachable_twoParasFirst.run oneMessage)
    [.backed 2001 ⟨[], [], [], 1, 2⟩, .newBlock] (by decide)
    (by
      intro n hn
      have hn : n ≤ 3 := hn
      interval_cases n <;> decide +kernel)
    ⟨rfl, by decide +kernel, by decide +kernel⟩ (by decide +kernel)).1

end SIM.Proof.Relay
