import SimMultichain.Impl.Relay

/-!
# What a step of the relay chain does to HRMP

The calls, candidates and sessions of the relay chain in one list of moves (`Move`), each with what
the source checked before it and what it stores. A step of the relay chain is the inclusion of a
candidate, or a move, or two moves where root establishes a channel by a request and its acceptance
(`step_cases`). What every move and every inclusion keeps is kept by every step
(`step_induction`).

A move leaves out what does not concern HRMP: `Frame` is what it keeps.
-/

namespace SIM.Proof.Relay

open SIM.Impl (ParaId Hash Instruction)
open SIM.Impl.Relay

/-! ## What the calls store -/

/-- A request is stored, and the deposit of the sender reserved. -/
def requestStored (config : HostConfiguration) (id : HrmpChannelId)
    (proposedMaxCapacity proposedMaxMessageSize : UInt32) (s : Hrmp) : Hrmp :=
  { s with
    reserved := Function.update s.reserved id.sender (s.reserved id.sender + config.hrmpSenderDeposit)
    openChannelRequestCount :=
      Function.update s.openChannelRequestCount id.sender (s.openChannelRequestCount id.sender + 1)
    openChannelRequests := s.openChannelRequests.insert id
      ⟨false, config.hrmpSenderDeposit, proposedMaxMessageSize, proposedMaxCapacity,
        config.hrmpChannelMaxTotalSize⟩
    openChannelRequestsList := s.openChannelRequestsList ++ [id] }

/-- A request is marked as confirmed, and the deposit of the recipient reserved. -/
def acceptStored (config : HostConfiguration) (id : HrmpChannelId) (request : HrmpOpenChannelRequest)
    (s : Hrmp) : Hrmp :=
  { s with
    reserved :=
      Function.update s.reserved id.recipient (s.reserved id.recipient + config.hrmpRecipientDeposit)
    openChannelRequests := s.openChannelRequests.insert id { request with confirmed := true }
    acceptedChannelRequestCount := Function.update s.acceptedChannelRequestCount id.recipient
      (s.acceptedChannelRequestCount id.recipient + 1) }

/-- A request is removed, and the deposit of the sender returned. -/
def cancelStored (id : HrmpChannelId) (request : HrmpOpenChannelRequest) (s : Hrmp) : Hrmp :=
  { s with
    openChannelRequests := s.openChannelRequests.erase id
    openChannelRequestsList := if id ∈ s.openChannelRequestsList then
      swapRemove s.openChannelRequestsList (s.openChannelRequestsList.idxOf id)
      else s.openChannelRequestsList
    openChannelRequestCount := Hrmp.decreased s.openChannelRequestCount id.sender
    reserved := Function.update s.reserved id.sender (s.reserved id.sender - request.senderDeposit) }

/-- A request to close a channel is stored. -/
def closeStored (id : HrmpChannelId) (s : Hrmp) : Hrmp :=
  { s with
    closeChannelRequests := s.closeChannelRequests.insert id ()
    closeChannelRequestsList := s.closeChannelRequestsList ++ [id] }

/-! ## What the calls check -/

/-- The limit on the channels from a para. -/
def outboundLimit (s : State) (para : ParaId) : UInt32 :=
  if s.paras.isParathread para then s.config.hrmpMaxParathreadOutboundChannels
  else s.config.hrmpMaxParachainOutboundChannels

/-- The limit on the channels to a para. -/
def inboundLimit (s : State) (para : ParaId) : UInt32 :=
  if s.paras.isParathread para then s.config.hrmpMaxParathreadInboundChannels
  else s.config.hrmpMaxParachainInboundChannels

structure CanRequest (s : State) (id : HrmpChannelId) (capacity size : UInt32) : Prop where
  ne : id.sender ≠ id.recipient
  validRecipient : s.paras.isValidPara id.recipient = true
  capacity_pos : 0 < capacity
  capacity_le : capacity ≤ s.config.hrmpChannelMaxCapacity
  size_pos : 0 < size
  size_le : size ≤ s.config.hrmpChannelMaxMessageSize
  notRequested : s.hrmp.openChannelRequests.get id = none
  notOpen : s.hrmp.channels.get id = none
  limit : UInt32.ofNat (s.hrmp.egressChannelsIndex id.sender).items.length +
    s.hrmp.openChannelRequestCount id.sender < outboundLimit s id.sender

structure CanAccept (s : State) (id : HrmpChannelId) (request : HrmpOpenChannelRequest) : Prop where
  requested : s.hrmp.openChannelRequests.get id = some request
  unconfirmed : request.confirmed = false
  limit : UInt32.ofNat (s.hrmp.ingressChannelsIndex id.recipient).items.length +
    s.hrmp.acceptedChannelRequestCount id.recipient < inboundLimit s id.recipient

/-- What a candidate is checked for when it is backed. -/
structure CanBack (s : State) (para : ParaId) (c : CandidateCommitments) : Prop where
  free : s.pendingAvailability.get para = none
  downward : (s.dmp.checkProcessedDownwardMessages para c.processedDownwardMessages).isOk = true
  upward : (s.ump.checkUpwardMessages s.config para c.upwardMessages).isOk = true
  watermark : (s.hrmp.checkHrmpWatermark para (s.blockNumber - 1) c.hrmpWatermark).isOk = true
  outbound : (s.hrmp.checkOutboundHrmp s.config para c.horizontalMessages).isOk = true

/-! ## Moves -/

/-- What moves other than a session change do not touch. -/
structure Frame (s s' : State) : Prop where
  blockNumber : s'.blockNumber = s.blockNumber
  sessionIndex : s'.sessionIndex = s.sessionIndex
  config : s'.config = s.config

/-- The state after the session `n` has begun, with its changes to HRMP. -/
def sessionState (s : State) (n : SessionIndex) (hrmp : Hrmp) : State :=
  { s with
    sessionIndex := n
    configuration := s.configuration.initializerOnNewSession n
    paras := (s.paras.applyActionsQueue n).1
    hrmp
    pendingAvailability := .empty
    dmp := s.dmp.performOutgoingParaCleanup (s.paras.applyActionsQueue n).2
    ump := s.ump.performOutgoingParaCleanup (s.paras.applyActionsQueue n).2 }

/-- The queues of upward messages are as they were. -/
structure SameUpward (u u' : Ump) : Prop where
  queues : u'.relayDispatchQueues = u.relayDispatchQueues
  needsDispatch : u'.needsDispatch = u.needsDispatch

/-- What only some inputs change. -/
structure Untouched (i : Input) (s s' : State) : Prop where
  upward : (∀ sink, i ≠ .processUpward sink) → SameUpward s.ump s'.ump
  configuration : (∀ updater, i ≠ .setConfig updater) → (∀ b, i ≠ .setBypassConsistencyCheck b) →
    s'.configuration = s.configuration

/-- What happens to HRMP with an input, inclusions of candidates apart. The input is said where it
matters. -/
inductive Move (i : Input) (s : State) : State → Prop
  /-- Something else, which may have freed the places of some candidates. -/
  | idle (s' : State) (h : s'.hrmp = s.hrmp) (hf : Frame s s')
      (hp : ∀ p c, s'.pendingAvailability.get p = some c → s.pendingAvailability.get p = some c)
      (hu : Untouched i s s') : Move i s s'
  | newBlock (hi : i = .newBlock) : Move i s { s with blockNumber := s.blockNumber + 1 }
  | request (dmp : Dmp) (id : HrmpChannelId) (capacity size : UInt32)
      (h : CanRequest s id capacity size) :
      Move i s { s with dmp, hrmp := requestStored s.config id capacity size s.hrmp }
  | accept (dmp : Dmp) (id : HrmpChannelId) (request : HrmpOpenChannelRequest)
      (h : CanAccept s id request) :
      Move i s { s with dmp, hrmp := acceptStored s.config id request s.hrmp }
  | cancel (id : HrmpChannelId) (request : HrmpOpenChannelRequest)
      (hr : s.hrmp.openChannelRequests.get id = some request) (hc : request.confirmed = false) :
      Move i s { s with hrmp := cancelStored id request s.hrmp }
  | askClose (dmp : Dmp) (id : HrmpChannelId) (ho : (s.hrmp.channels.get id).isSome)
      (hn : s.hrmp.closeChannelRequests.get id = none) :
      Move i s { s with dmp, hrmp := closeStored id s.hrmp }
  | clean (para : ParaId) : Move i s { s with hrmp := s.hrmp.cleanHrmpAfterOutgoing para }
  | processOpen (hrmp : Hrmp) (hi : ∃ canReserve, i = .hrmpCall canReserve .root .forceProcessHrmpOpen)
      (h : s.hrmp.processHrmpOpenChannelRequests s.paras.isValidPara s.config = some hrmp) :
      Move i s { s with hrmp }
  | processClose : Move i s { s with hrmp := s.hrmp.processHrmpCloseChannelRequests }
  | backed (para : ParaId) (c : CandidateCommitments) (hi : i = .backed para c) (h : CanBack s para c) :
      Move i s { s with
        pendingAvailability :=
          s.pendingAvailability.insert para ⟨c, s.blockNumber - 1, s.blockNumber⟩ }
  | session (n : SessionIndex) (hrmp : Hrmp) (hi : i = .newSession n)
      (h : s.hrmp.initializerOnNewSession (s.paras.applyActionsQueue n).1.isValidPara s.config
        (s.paras.applyActionsQueue n).2 = some hrmp) : Move i s (sessionState s n hrmp)

/-- The moves of a step. -/
inductive Moves (i : Input) (s : State) : State → Prop
  | one {s' : State} (h : Move i s s') : Moves i s s'
  | two {s₁ s' : State} (h : Move i s s₁) (h' : Move i s₁ s')
      (hc : s₁.hrmp.channels = s.hrmp.channels) (hr : ∃ dmp hrmp, s₁ = { s with dmp, hrmp }) :
      Moves i s s'

theorem Moves.refl (i : Input) (s : State) : Moves i s s :=
  .one (.idle s rfl ⟨rfl, rfl, rfl⟩ (fun _ _ hc => hc) ⟨fun _ => ⟨rfl, rfl⟩, fun _ _ => rfl⟩)

/-- The state after the candidate of a para was included. -/
def includedState (host : Host) (s : State) (para : ParaId) (c : CandidateCommitments) : State :=
  ({ s with pendingAvailability := s.pendingAvailability.erase para }.enactCandidate host para c).1

/-! ## Steps -/

variable {host : Host} {canReserve : CanReserve} {s s' : State} {i : Input}

/-- `ensure!` passes if its condition holds. -/
theorem ensure_bind {cond : Prop} [Decidable cond] {e : DispatchError} {α : Type}
    {f : Unit → Except DispatchError α} {x : α} :
    (ensure cond e >>= f) = .ok x ↔ cond ∧ f () = .ok x := by
  unfold ensure
  split_ifs with h
  · exact ⟨fun hf => ⟨h, hf⟩, fun hf => hf.2⟩
  · exact ⟨(by cases ·), fun hf => absurd hf.1 h⟩

theorem notify_eq (host : Host) (s : State) (para : ParaId) (message : Instruction) :
    ∃ dmp, s.notify host para message = { s with dmp } := by
  unfold State.notify
  split
  · exact ⟨_, rfl⟩
  · exact ⟨s.dmp, rfl⟩

theorem reserve_eq_ok {para : ParaId} {amount : Balance} {f : State → Except DispatchError State} :
    (s.reserve canReserve para amount >>= f) = .ok s' ↔ canReserve para amount = true ∧
      f { s with hrmp := { s.hrmp with
        reserved := Function.update s.hrmp.reserved para (s.hrmp.reserved para + amount) } } =
          .ok s' := by
  unfold State.reserve
  split_ifs with h
  · exact ⟨fun hf => ⟨h, hf⟩, fun hf => hf.2⟩
  · exact ⟨(by cases ·), fun hf => absurd hf.1 h⟩

/-- A call of a para about its channels changes the storage of HRMP and notifies. -/
structure Called (s s' : State) : Prop where
  move (i : Input) : Move i s s'
  channels : s'.hrmp.channels = s.hrmp.channels
  rest : ∃ dmp hrmp, s' = { s with dmp, hrmp }

theorem called_initOpenChannel {origin recipient : ParaId} {capacity size : UInt32}
    (h : s.initOpenChannel host canReserve origin recipient capacity size = .ok s') :
    Called s s' := by
  simp only [State.initOpenChannel, ensure_bind, reserve_eq_ok] at h
  obtain ⟨h₁, h₂, h₃, h₄, h₅, h₆, h₇, h₈, h₉, -, h⟩ := h
  cases h
  obtain ⟨dmp, e⟩ := notify_eq host _ recipient
    (.hrmpNewChannelOpenRequest origin size capacity)
  rw [e]
  exact ⟨fun _ => .request dmp ⟨origin, recipient⟩ capacity size
    ⟨h₁, h₂, h₃, h₄, h₅, h₆, by simpa using h₇, by simpa using h₈, h₉⟩, rfl, _, _, rfl⟩

theorem called_acceptOpenChannel {origin sender : ParaId}
    (h : s.acceptOpenChannel host canReserve origin sender = .ok s') : Called s s' := by
  unfold State.acceptOpenChannel at h
  cases hr : s.hrmp.openChannelRequests.get ⟨sender, origin⟩ with
  | none => simp only [hr] at h; cases h
  | some request =>
    simp only [hr, ensure_bind, reserve_eq_ok] at h
    obtain ⟨h₁, h₂, -, h⟩ := h
    cases h
    obtain ⟨dmp, e⟩ := notify_eq host _ sender (.hrmpChannelAccepted origin)
    rw [e]
    exact ⟨fun _ => .accept dmp ⟨sender, origin⟩ request ⟨hr, by simpa using h₁, h₂⟩, rfl, _, _, rfl⟩

theorem move_cancelOpenRequest {origin : ParaId} {id : HrmpChannelId}
    (h : s.cancelOpenRequest origin id = .ok s') : Move i s s' := by
  unfold State.cancelOpenRequest at h
  rw [ensure_bind] at h
  obtain ⟨-, h⟩ := h
  cases hr : s.hrmp.openChannelRequests.get id with
  | none => simp only [hr] at h; cases h
  | some request =>
    simp only [hr, ensure_bind] at h
    obtain ⟨hc, h⟩ := h
    cases h
    exact .cancel id request hr (by simpa using hc)

theorem move_closeChannel {origin : ParaId} {id : HrmpChannelId}
    (h : s.closeChannel host origin id = .ok s') : Move i s s' := by
  simp only [State.closeChannel, ensure_bind] at h
  obtain ⟨-, h₁, h₂, h⟩ := h
  cases h
  obtain ⟨dmp, e⟩ := notify_eq host _ (if origin = id.sender then id.recipient else id.sender)
    (.hrmpChannelClosing origin id.sender id.recipient)
  rw [e]
  exact .askClose dmp id h₁ (by simpa using h₂)

theorem moves_attempt {r : Except DispatchError State} {events : List Event}
    (h : ∀ s', r = .ok s' → Move i s s') : Moves i s (s.attempt r events).1 := by
  cases r with
  | ok s' => exact .one (h s' rfl)
  | error e => exact .refl i s

theorem moves_byParachain {origin : Origin} {f : ParaId → State × Impl.Relay.Outcome}
    (h : ∀ id, Moves i s (f id).1) : Moves i s (s.byParachain origin f).1 := by
  cases origin with
  | parachain id => exact h id
  | root => exact .refl i s
  | signed => exact .refl i s

theorem moves_byRoot {origin : Origin} {r : State × Impl.Relay.Outcome} (h : Moves i s r.1) :
    Moves i s (s.byRoot origin r).1 := by
  cases origin with
  | root => exact h
  | parachain id => exact .refl i s
  | signed => exact .refl i s

theorem moves_hrmpCall (origin : Origin) (call : HrmpCall) :
    Moves (.hrmpCall canReserve origin call) s (s.hrmpCall host canReserve origin call).1 := by
  cases call with
  | hrmpInitOpenChannel recipient capacity size =>
    exact moves_byParachain fun id => moves_attempt fun s' h => (called_initOpenChannel h).move _
  | hrmpAcceptOpenChannel sender =>
    exact moves_byParachain fun id => moves_attempt fun s' h => (called_acceptOpenChannel h).move _
  | hrmpCloseChannel channelId =>
    exact moves_byParachain fun id => moves_attempt fun s' => move_closeChannel
  | hrmpCancelOpenRequest channelId openRequests =>
    refine moves_byParachain fun id => ?_
    split_ifs
    · exact moves_attempt fun s' => move_cancelOpenRequest
    · exact .refl _ s
  | forceCleanHrmp para => exact moves_byRoot (.one (.clean para))
  | forceProcessHrmpOpen =>
    cases origin with
    | root =>
      simp only [State.hrmpCall, State.byRoot]
      split
      · rename_i hrmp h; exact .one (.processOpen hrmp ⟨_, rfl⟩ h)
      · exact .refl _ s
    | parachain id => exact .refl _ s
    | signed => exact .refl _ s
  | forceProcessHrmpClose => exact moves_byRoot (.one .processClose)

/-- A state that differs only in paras, queues or configurations to come. -/
theorem move_of_eq (h : s'.hrmp = s.hrmp) (hb : s'.blockNumber = s.blockNumber)
    (hi : s'.sessionIndex = s.sessionIndex)
    (hc : s'.configuration.activeConfig = s.configuration.activeConfig)
    (hp : s'.pendingAvailability = s.pendingAvailability)
    (hu : Untouched i s s') : Moves i s s' :=
  .one (.idle s' h ⟨hb, hi, hc⟩ (fun _ _ hc => hp ▸ hc) hu)

theorem moves_parasChange (r : Except Paras.Error Paras) (error : ParasSudoWrapperError) :
    Moves i s (s.parasChange r error).1 := by
  cases r with
  | ok paras => exact move_of_eq rfl rfl rfl rfl rfl ⟨fun _ => ⟨rfl, rfl⟩, fun _ _ => rfl⟩
  | error e => exact .refl i s

theorem moves_sudoCall (call : SudoCall) : Moves i s (s.sudoCall host canReserve call).1 := by
  cases call with
  | sudoScheduleParaInitialize id genesis fastTracked => exact moves_parasChange ..
  | sudoScheduleParaCleanup id upgrading => exact moves_parasChange ..
  | sudoScheduleParathreadUpgrade id =>
    simp only [State.sudoCall]
    split_ifs
    · exact moves_parasChange ..
    · exact .refl i s
  | sudoScheduleParachainDowngrade id =>
    simp only [State.sudoCall]
    split_ifs
    · exact moves_parasChange ..
    · exact .refl i s
  | sudoQueueDownwardXcm id xcm =>
    simp only [State.sudoCall]
    split_ifs
    · split
      · exact move_of_eq rfl rfl rfl rfl rfl ⟨fun _ => ⟨rfl, rfl⟩, fun _ _ => rfl⟩
      · exact .refl i s
    · exact .refl i s
  | sudoEstablishHrmpChannel sender recipient maxCapacity maxMessageSize =>
    simp only [State.sudoCall]
    split
    · exact .refl i s
    · rename_i s₁ h₁
      have hr := called_initOpenChannel h₁
      split
      · rename_i s₂ h₂
        exact .two (hr.move i) ((called_acceptOpenChannel h₂).move i) hr.channels hr.rest
      · split_ifs
        · exact .refl i s
        · exact .one (hr.move i)

theorem moves_processCandidate (para : ParaId) (c : CandidateCommitments) :
    Moves (.backed para c) s (s.processCandidate para c).1 := by
  simp only [State.processCandidate]
  split
  · exact .refl _ s
  · rename_i hc
    split_ifs with hp
    · exact .refl _ s
    · refine .one (.backed para c rfl ?_)
      unfold State.checkValidationOutputs at hc
      split_ifs at hc with h₁ h₂ h₃ h₄ h₅
      exact ⟨by simpa using hp, by simpa using h₂, by simpa using h₃, by simpa using h₄,
        by simpa using h₅⟩

theorem moves_applyNewSession (n : SessionIndex) :
    Moves (.newSession n) s (s.applyNewSession n).1 := by
  simp only [State.applyNewSession]
  split
  · exact .refl _ s
  · rename_i hrmp h
    exact .one (.session n hrmp rfl h)

/-- A step includes a candidate that was backed in an earlier block. -/
structure Includes (s : State) (i : Input) (para : ParaId) (c : CandidatePendingAvailability) :
    Prop where
  input : i = .available para
  pending : s.pendingAvailability.get para = some c
  backed : c.backedInNumber < s.blockNumber

theorem Includes.next {i : Input} {para : ParaId} {c : CandidatePendingAvailability}
    (h : Includes s i para c) : (relay host).next s i = includedState host s para c.commitments := by
  obtain ⟨rfl, hp, hb⟩ := h
  simp only [Machine.next, relay, State.includeCandidate, hp, if_pos hb]
  rfl

theorem moves_of_not_includes {i : Input} (h : ∀ para c, ¬ Includes s i para c) :
    Moves i s ((relay host).next s i) := by
  cases i with
  | newBlock => exact .one (.newBlock rfl)
  | hrmpCall canReserve origin call => exact moves_hrmpCall origin call
  | sudoCall canReserve call => exact moves_sudoCall call
  | sendXcm wrapVersion dest msg =>
    simp only [Machine.next, relay, State.sendXcm]
    split
    · split
      · exact .refl _ s
      · split
        · exact move_of_eq rfl rfl rfl rfl rfl ⟨fun _ => ⟨rfl, rfl⟩, fun _ _ => rfl⟩
        · exact .refl _ s
    · exact .refl _ s
  | forceQueueAction id => exact move_of_eq rfl rfl rfl rfl rfl ⟨fun _ => ⟨rfl, rfl⟩, fun _ _ => rfl⟩
  | concludeVote causes accepted sessionsObserved =>
    exact move_of_eq rfl rfl rfl rfl rfl ⟨fun _ => ⟨rfl, rfl⟩, fun _ _ => rfl⟩
  | setConfig updater =>
    simp only [Machine.next, relay]
    split
    · rename_i configuration h
      have hc : configuration.activeConfig = s.configuration.activeConfig := by
        simp only [Configuration.scheduleConfigUpdate] at h
        split_ifs at h
        cases h; rfl
      exact move_of_eq rfl rfl rfl hc rfl ⟨fun _ => ⟨rfl, rfl⟩, fun h => absurd rfl (h updater)⟩
    · exact .refl _ s
  | setBypassConsistencyCheck new =>
    exact move_of_eq rfl rfl rfl rfl rfl ⟨fun _ => ⟨rfl, rfl⟩, fun _ h => absurd rfl (h new)⟩
  | backed para commitments => exact moves_processCandidate para commitments
  | available para =>
    cases hp : s.pendingAvailability.get para with
    | none =>
      simp only [Machine.next, relay, State.includeCandidate, hp]
      exact .refl _ s
    | some c =>
      have hb : ¬ c.backedInNumber < s.blockNumber := fun hb => h para c ⟨rfl, hp, hb⟩
      simp only [Machine.next, relay, State.includeCandidate, hp, if_neg hb]
      exact .refl _ s
  | freed para =>
    refine .one (.idle _ rfl ⟨rfl, rfl, rfl⟩ (fun p c hc => ?_)
      ⟨fun _ => ⟨rfl, rfl⟩, fun _ _ => rfl⟩)
    change (s.pendingAvailability.erase para).get p = some c at hc
    rw [StorageMap.get_erase] at hc
    split_ifs at hc
    exact hc
  | processUpward sink =>
    exact move_of_eq rfl rfl rfl rfl rfl ⟨fun h => absurd rfl (h sink), fun _ _ => rfl⟩
  | serviceOverweight sink index weightLimit =>
    simp only [Machine.next, relay]
    split
    · rename_i ump events h
      refine move_of_eq rfl rfl rfl rfl rfl ⟨fun _ => ?_, fun _ _ => rfl⟩
      unfold Ump.serviceOverweight at h
      split at h
      · cases h
      · split at h
        · cases h
        · cases h
          exact ⟨rfl, rfl⟩
    · exact .refl _ s
  | newSession n => exact moves_applyNewSession n

/-- A step of the relay chain includes a candidate or makes moves. -/
theorem step_cases (host : Host) (s : State) (i : Input) :
    (∃ para c, Includes s i para c) ∨
      (∀ para c, ¬ Includes s i para c) ∧ Moves i s ((relay host).next s i) := by
  by_cases h : ∃ para c, Includes s i para c
  · exact .inl h
  · have hn : ∀ para c, ¬ Includes s i para c := fun para c hc => h ⟨para, c, hc⟩
    exact .inr ⟨hn, moves_of_not_includes hn⟩

/-- What every move and every inclusion of a candidate keeps, every step keeps. -/
theorem step_induction {P : State → Prop} (hmove : ∀ s s', Move i s s' → P s → P s')
    (hincl : ∀ s para c, s.pendingAvailability.get para = some c → c.backedInNumber < s.blockNumber →
      P s → P (includedState host s para c.commitments)) (h : P s) :
    P ((relay host).next s i) := by
  rcases step_cases host s i with ⟨para, c, hi⟩ | ⟨-, hm⟩
  · rw [hi.next]; exact hincl s para c hi.pending hi.backed h
  · cases hm with
    | one hm => exact hmove _ _ hm h
    | two hm hm' => exact hmove _ _ hm' (hmove _ _ hm h)

end SIM.Proof.Relay
