import SimMultichain.Framework.Machine
import SimMultichain.Impl.Ump

/-!
# The relay chain

The relay chain as a machine: the calls of the `hrmp` pallet and of
`paras_sudo_wrapper`, messages to paras (`xcm_sender`), candidates of paras from
their backing to their inclusion (`inclusion`), rounds of upward messages, and
session changes in the order of the initializer. A candidate is checked against
the block it is backed in, and takes effect when it is included, in a later block.

Left to the environment are the validators (which candidates are backed, become
available or are freed, and the votes on new code), whether a reserve of a deposit
goes through, who sends messages to paras, and what the sink does with an upward
message: the calls that it makes and the messages that it sends are inputs of
their own.
-/

namespace SIM.Impl.Relay

inductive Origin where
  | root
  | parachain (id : ParaId)
  | signed

structure CandidateCommitments where
  upwardMessages : List UpwardMessage
  horizontalMessages : List OutboundHrmpMessage
  headData : List UInt8
  processedDownwardMessages : UInt32
  hrmpWatermark : BlockNumber
  deriving DecidableEq

structure CandidatePendingAvailability where
  commitments : CandidateCommitments
  relayParentNumber : BlockNumber
  backedInNumber : BlockNumber
  deriving DecidableEq

structure State where
  blockNumber : BlockNumber
  sessionIndex : SessionIndex
  configuration : Configuration
  paras : Paras
  dmp : Dmp
  ump : Ump
  hrmp : Hrmp
  pendingAvailability : StorageMap ParaId CandidatePendingAvailability

/-! ## Errors and events -/

namespace Hrmp

inductive Error where
  | openHrmpChannelToSelf
  | openHrmpChannelInvalidRecipient
  | openHrmpChannelZeroCapacity
  | openHrmpChannelCapacityExceedsLimit
  | openHrmpChannelZeroMessageSize
  | openHrmpChannelMessageSizeExceedsLimit
  | openHrmpChannelAlreadyExists
  | openHrmpChannelAlreadyRequested
  | openHrmpChannelLimitExceeded
  | acceptHrmpChannelDoesntExist
  | acceptHrmpChannelAlreadyConfirmed
  | acceptHrmpChannelLimitExceeded
  | closeHrmpChannelUnauthorized
  | closeHrmpChannelDoesntExist
  | closeHrmpChannelAlreadyUnderway
  | cancelHrmpOpenChannelUnauthorized
  | openHrmpChannelDoesntExist
  | openHrmpChannelAlreadyConfirmed
  | wrongWitness
  deriving DecidableEq

inductive Event where
  | openChannelRequested (sender recipient : ParaId) (proposedMaxCapacity proposedMaxMessageSize : UInt32)
  | openChannelCanceled (byParachain : ParaId) (channelId : HrmpChannelId)
  | openChannelAccepted (sender recipient : ParaId)
  | channelClosed (byParachain : ParaId) (channelId : HrmpChannelId)
  deriving DecidableEq

end Hrmp

inductive ParasSudoWrapperError where
  | paraDoesntExist
  | paraAlreadyExists
  | exceedsMaxMessageSize
  | couldntCleanup
  | notParathread
  | notParachain
  | cannotUpgrade
  | cannotDowngrade
  deriving DecidableEq

inductive InclusionError where
  | candidateScheduledBeforeParaFree
  | headDataTooLarge
  | incorrectDownwardMessageHandling
  | invalidUpwardMessages
  | hrmpWatermarkMishandling
  | invalidOutboundHrmp
  deriving DecidableEq

/-- The errors of the router. -/
inductive SendError where
  | cannotReachDestination (dest : MultiLocation) (msg : Xcm)
  | destinationUnsupported
  | exceedsMaxMessageSize

inductive DispatchError where
  | badOrigin
  /-- The currency refused to reserve a deposit. -/
  | insufficientBalance
  | hrmp (error : Hrmp.Error)
  | parasSudoWrapper (error : ParasSudoWrapperError)
  | configuration (error : Configuration.Error)
  | inclusion (error : InclusionError)
  | ump (error : Ump.Error)
  | send (error : SendError)

inductive Event where
  | hrmp (event : Hrmp.Event)
  | ump (event : Ump.Event)
  deriving DecidableEq

/-- `ensure!` -/
def ensure (cond : Prop) [Decidable cond] (error : DispatchError) : Except DispatchError Unit :=
  if cond then .ok () else .error error

/-! ## Requests -/

/-- Whether the currency can reserve an amount on the account of a para. -/
abbrev CanReserve := ParaId → Balance → Bool

namespace State

variable (host : Host) (canReserve : CanReserve) (s : State)

def config : HostConfiguration := s.configuration.activeConfig

/-- Notify a para; a notification that is too large is only logged. -/
def notify (para : ParaId) (message : Instruction) : State :=
  match s.dmp.queueDownwardMessage host s.config s.blockNumber para (host.encode [message]) with
  | .ok dmp => { s with dmp }
  | .error .exceedsMaxMessageSize => s

/-- `T::Currency::reserve` -/
def reserve (para : ParaId) (amount : Balance) : Except DispatchError State :=
  if canReserve para amount then
    .ok { s with hrmp := { s.hrmp with
      reserved := Function.update s.hrmp.reserved para (s.hrmp.reserved para + amount) } }
  else .error .insufficientBalance

/-- Nothing is written before the deposit is reserved. -/
def initOpenChannel (origin recipient : ParaId) (proposedMaxCapacity proposedMaxMessageSize : UInt32) :
    Except DispatchError State := do
  let config := s.config
  let id : HrmpChannelId := ⟨origin, recipient⟩
  ensure (origin ≠ recipient) (.hrmp .openHrmpChannelToSelf)
  ensure (s.paras.isValidPara recipient) (.hrmp .openHrmpChannelInvalidRecipient)
  ensure (proposedMaxCapacity > 0) (.hrmp .openHrmpChannelZeroCapacity)
  ensure (proposedMaxCapacity ≤ config.hrmpChannelMaxCapacity)
    (.hrmp .openHrmpChannelCapacityExceedsLimit)
  ensure (proposedMaxMessageSize > 0) (.hrmp .openHrmpChannelZeroMessageSize)
  ensure (proposedMaxMessageSize ≤ config.hrmpChannelMaxMessageSize)
    (.hrmp .openHrmpChannelMessageSizeExceedsLimit)
  -- the errors of these two are the wrong way round
  ensure (s.hrmp.openChannelRequests.get id).isNone (.hrmp .openHrmpChannelAlreadyExists)
  ensure (s.hrmp.channels.get id).isNone (.hrmp .openHrmpChannelAlreadyRequested)
  let egressCnt := UInt32.ofNat (s.hrmp.egressChannelsIndex origin).items.length
  let openReqCnt := s.hrmp.openChannelRequestCount origin
  let channelNumLimit := if s.paras.isParathread origin then config.hrmpMaxParathreadOutboundChannels
    else config.hrmpMaxParachainOutboundChannels
  ensure (egressCnt + openReqCnt < channelNumLimit) (.hrmp .openHrmpChannelLimitExceeded)
  let s ← s.reserve canReserve origin config.hrmpSenderDeposit
  let request : HrmpOpenChannelRequest :=
    ⟨false, config.hrmpSenderDeposit, proposedMaxMessageSize, proposedMaxCapacity,
      config.hrmpChannelMaxTotalSize⟩
  let s := { s with hrmp := { s.hrmp with
    openChannelRequestCount := Function.update s.hrmp.openChannelRequestCount origin (openReqCnt + 1)
    openChannelRequests := s.hrmp.openChannelRequests.insert id request
    openChannelRequestsList := s.hrmp.openChannelRequestsList ++ [id] } }
  return s.notify host recipient
    (.hrmpNewChannelOpenRequest origin proposedMaxMessageSize proposedMaxCapacity)

def acceptOpenChannel (origin sender : ParaId) : Except DispatchError State := do
  let config := s.config
  let id : HrmpChannelId := ⟨sender, origin⟩
  match s.hrmp.openChannelRequests.get id with
  | none => throw (.hrmp .acceptHrmpChannelDoesntExist)
  | some channelReq =>
    ensure (!channelReq.confirmed) (.hrmp .acceptHrmpChannelAlreadyConfirmed)
    let channelNumLimit := if s.paras.isParathread origin then config.hrmpMaxParathreadInboundChannels
      else config.hrmpMaxParachainInboundChannels
    let ingressCnt := UInt32.ofNat (s.hrmp.ingressChannelsIndex origin).items.length
    let acceptedCnt := s.hrmp.acceptedChannelRequestCount origin
    ensure (ingressCnt + acceptedCnt < channelNumLimit) (.hrmp .acceptHrmpChannelLimitExceeded)
    let s ← s.reserve canReserve origin config.hrmpRecipientDeposit
    let s := { s with hrmp := { s.hrmp with
      openChannelRequests := s.hrmp.openChannelRequests.insert id { channelReq with confirmed := true }
      acceptedChannelRequestCount :=
        Function.update s.hrmp.acceptedChannelRequestCount origin (acceptedCnt + 1) } }
    return s.notify host sender (.hrmpChannelAccepted origin)

def cancelOpenRequest (origin : ParaId) (id : HrmpChannelId) : Except DispatchError State := do
  ensure (id.isParticipant origin) (.hrmp .cancelHrmpOpenChannelUnauthorized)
  match s.hrmp.openChannelRequests.get id with
  | none => throw (.hrmp .openHrmpChannelDoesntExist)
  | some openChannelReq =>
    ensure (!openChannelReq.confirmed) (.hrmp .openHrmpChannelAlreadyConfirmed)
    let reqs := s.hrmp.openChannelRequestsList
    let hrmp := { s.hrmp with
      openChannelRequests := s.hrmp.openChannelRequests.erase id
      openChannelRequestsList := if id ∈ reqs then swapRemove reqs (reqs.idxOf id) else reqs }
    return { s with
      hrmp := (hrmp.decreaseOpenChannelRequestCount id.sender).unreserve id.sender
        openChannelReq.senderDeposit }

def closeChannel (origin : ParaId) (id : HrmpChannelId) : Except DispatchError State := do
  ensure (id.isParticipant origin) (.hrmp .closeHrmpChannelUnauthorized)
  ensure (s.hrmp.channels.get id).isSome (.hrmp .closeHrmpChannelDoesntExist)
  ensure (s.hrmp.closeChannelRequests.get id).isNone (.hrmp .closeHrmpChannelAlreadyUnderway)
  let s := { s with hrmp := { s.hrmp with
    closeChannelRequests := s.hrmp.closeChannelRequests.insert id ()
    closeChannelRequestsList := s.hrmp.closeChannelRequestsList ++ [id] } }
  let oppositeParty := if origin = id.sender then id.recipient else id.sender
  return s.notify host oppositeParty (.hrmpChannelClosing origin id.sender id.recipient)

end State

/-! ## Calls -/

inductive HrmpCall where
  | hrmpInitOpenChannel (recipient : ParaId) (proposedMaxCapacity proposedMaxMessageSize : UInt32)
  | hrmpAcceptOpenChannel (sender : ParaId)
  | hrmpCloseChannel (channelId : HrmpChannelId)
  | forceCleanHrmp (para : ParaId)
  | forceProcessHrmpOpen
  | forceProcessHrmpClose
  | hrmpCancelOpenRequest (channelId : HrmpChannelId) (openRequests : UInt32)

/-- The calls of `paras_sudo_wrapper`. `fastTracked` and `upgrading` are what the code storage
tells about a new para's code and about a code upgrade. -/
inductive SudoCall where
  | sudoScheduleParaInitialize (id : ParaId) (genesis : ParaGenesisArgs) (fastTracked : Bool)
  | sudoScheduleParaCleanup (id : ParaId) (upgrading : Bool)
  | sudoScheduleParathreadUpgrade (id : ParaId)
  | sudoScheduleParachainDowngrade (id : ParaId)
  | sudoQueueDownwardXcm (id : ParaId) (xcm : Xcm)
  | sudoEstablishHrmpChannel (sender recipient : ParaId) (maxCapacity maxMessageSize : UInt32)

/-- What a step returned: nothing where the runtime stopped. -/
abbrev Outcome := Option (Except DispatchError (List Event))

namespace State

variable (host : Host) (canReserve : CanReserve) (s : State)

/-- A call whose error leaves the state as it was. -/
def attempt (r : Except DispatchError State) (events : List Event) : State × Outcome :=
  match r with
  | .ok s' => (s', some (.ok events))
  | .error e => (s, some (.error e))

/-- `ensure_parachain` -/
def byParachain : Origin → (ParaId → State × Outcome) → State × Outcome
  | .parachain id, f => f id
  | _, _ => (s, some (.error .badOrigin))

/-- `ensure_root` -/
def byRoot : Origin → State × Outcome → State × Outcome
  | .root, r => r
  | _, _ => (s, some (.error .badOrigin))

def hrmpCall (origin : Origin) : HrmpCall → State × Outcome
  | .hrmpInitOpenChannel recipient capacity size => s.byParachain origin fun id =>
    s.attempt (s.initOpenChannel host canReserve id recipient capacity size)
      [.hrmp (.openChannelRequested id recipient capacity size)]
  | .hrmpAcceptOpenChannel sender => s.byParachain origin fun id =>
    s.attempt (s.acceptOpenChannel host canReserve id sender)
      [.hrmp (.openChannelAccepted sender id)]
  | .hrmpCloseChannel channelId => s.byParachain origin fun id =>
    s.attempt (s.closeChannel host id channelId) [.hrmp (.channelClosed id channelId)]
  | .hrmpCancelOpenRequest channelId openRequests => s.byParachain origin fun id =>
    if UInt32.ofNat s.hrmp.openChannelRequestsList.length ≤ openRequests then
      s.attempt (s.cancelOpenRequest id channelId) [.hrmp (.openChannelCanceled id channelId)]
    else (s, some (.error (.hrmp .wrongWitness)))
  | .forceCleanHrmp para =>
    s.byRoot origin ({ s with hrmp := s.hrmp.cleanHrmpAfterOutgoing para }, some (.ok []))
  | .forceProcessHrmpOpen => s.byRoot origin <|
    match s.hrmp.processHrmpOpenChannelRequests s.paras.isValidPara s.config with
    | some hrmp => ({ s with hrmp }, some (.ok []))
    | none => (s, none)
  | .forceProcessHrmpClose =>
    s.byRoot origin ({ s with hrmp := s.hrmp.processHrmpCloseChannelRequests }, some (.ok []))

/-- A change of the `paras` pallet, whose errors the wrapper replaces. -/
def parasChange (r : Except Paras.Error Paras) (error : ParasSudoWrapperError) : State × Outcome :=
  match r with
  | .ok paras => ({ s with paras }, some (.ok []))
  | .error _ => (s, some (.error (.parasSudoWrapper error)))

/-- The calls of `paras_sudo_wrapper`, by root. -/
def sudoCall : SudoCall → State × Outcome
  | .sudoScheduleParaInitialize id genesis fastTracked =>
    s.parasChange (s.paras.scheduleParaInitialize s.sessionIndex id genesis fastTracked)
      .paraAlreadyExists
  | .sudoScheduleParaCleanup id upgrading =>
    s.parasChange (s.paras.scheduleParaCleanup s.sessionIndex id upgrading) .couldntCleanup
  | .sudoScheduleParathreadUpgrade id =>
    if s.paras.paraLifecycles.get id = some .parathread then
      s.parasChange (s.paras.scheduleParathreadUpgrade s.sessionIndex id) .cannotUpgrade
    else (s, some (.error (.parasSudoWrapper .notParathread)))
  | .sudoScheduleParachainDowngrade id =>
    if s.paras.paraLifecycles.get id = some .parachain then
      s.parasChange (s.paras.scheduleParachainDowngrade s.sessionIndex id) .cannotDowngrade
    else (s, some (.error (.parasSudoWrapper .notParachain)))
  | .sudoQueueDownwardXcm id xcm =>
    if s.paras.isValidPara id then
      match s.dmp.queueDownwardMessage host s.config s.blockNumber id (host.encode xcm) with
      | .ok dmp => ({ s with dmp }, some (.ok []))
      | .error .exceedsMaxMessageSize =>
        (s, some (.error (.parasSudoWrapper .exceedsMaxMessageSize)))
    else (s, some (.error (.parasSudoWrapper .paraDoesntExist)))
  | .sudoEstablishHrmpChannel sender recipient maxCapacity maxMessageSize =>
    match s.initOpenChannel host canReserve sender recipient maxCapacity maxMessageSize with
    | .error e => (s, some (.error e))
    | .ok s' =>
      -- the request stays if it cannot be accepted, unless the dispatcher undoes it
      match s'.acceptOpenChannel host canReserve recipient sender with
      | .ok s'' => (s'', some (.ok []))
      | .error e => (if host.transactional then s else s', some (.error e))

/-- The para below the relay chain that a location is:
`MultiLocation { parents: 0, interior: X1(Parachain(id)) }` -/
def childParachain (dest : MultiLocation) : Option ParaId :=
  match dest.parents, dest.interior.items with
  | 0, [.parachain id] => some id
  | _, _ => none

/-- `ChildParachainRouter::send_xcm`. `wrapVersion` gives the message in a version that the
destination takes, encoded. -/
def sendXcm (wrapVersion : MultiLocation → Xcm → Option (List UInt8)) (dest : MultiLocation)
    (msg : Xcm) : State × Outcome :=
  match childParachain dest with
  | some id =>
    match wrapVersion dest msg with
    | none => (s, some (.error (.send .destinationUnsupported)))
    | some versionedXcm =>
      match s.dmp.queueDownwardMessage host s.config s.blockNumber id versionedXcm with
      | .ok dmp => ({ s with dmp }, some (.ok []))
      | .error .exceedsMaxMessageSize => (s, some (.error (.send .exceedsMaxMessageSize)))
  | none => (s, some (.error (.send (.cannotReachDestination dest msg))))

/-! ## Candidates -/

/-- `check_validation_outputs`, new code aside, with the errors as they are reported. -/
def checkValidationOutputs (para : ParaId) (relayParentNumber : BlockNumber)
    (c : CandidateCommitments) : Except InclusionError Unit :=
  if c.headData.length > s.config.maxHeadDataSize.toNat then .error .headDataTooLarge
  else if !(s.dmp.checkProcessedDownwardMessages para c.processedDownwardMessages).isOk then
    .error .incorrectDownwardMessageHandling
  else if !(s.ump.checkUpwardMessages s.config para c.upwardMessages).isOk then
    .error .invalidUpwardMessages
  else if !(s.hrmp.checkHrmpWatermark para relayParentNumber c.hrmpWatermark).isOk then
    .error .hrmpWatermarkMishandling
  else if !(s.hrmp.checkOutboundHrmp s.config para c.horizontalMessages).isOk then
    .error .invalidOutboundHrmp
  else .ok ()

/-- A candidate of `process_candidates`, in the context of the parent block. -/
def processCandidate (para : ParaId) (c : CandidateCommitments) : State × Outcome :=
  let relayParentNumber := s.blockNumber - 1
  match s.checkValidationOutputs para relayParentNumber c with
  | .error e => (s, some (.error (.inclusion e)))
  | .ok () =>
    if (s.pendingAvailability.get para).isSome then
      (s, some (.error (.inclusion .candidateScheduledBeforeParaFree)))
    else
      ({ s with
        pendingAvailability :=
          s.pendingAvailability.insert para ⟨c, relayParentNumber, s.blockNumber⟩ }, some (.ok []))

/-- The messages of a candidate, in the order of `enact_candidate`. -/
def enactCandidate (para : ParaId) (c : CandidateCommitments) : State × List Event :=
  let (ump, events) := s.ump.receiveUpwardMessages para c.upwardMessages
  ({ s with
    dmp := s.dmp.pruneDmq para c.processedDownwardMessages
    ump
    hrmp := (s.hrmp.pruneHrmp para c.hrmpWatermark).queueOutboundHrmp host s.blockNumber para
      c.horizontalMessages }, events.map .ump)

/-- A para's candidate has become available. The bitfields of a block are processed before its
candidates, so that none is included in the block that backs it. -/
def includeCandidate (para : ParaId) : State × Outcome :=
  match s.pendingAvailability.get para with
  | none => (s, some (.ok []))
  | some pending =>
    if pending.backedInNumber < s.blockNumber then
      let (s, events) := { s with pendingAvailability := s.pendingAvailability.erase para }.enactCandidate
        host para pending.commitments
      (s, some (.ok events))
    else (s, some (.ok []))

/-! ## Sessions -/

/-- `apply_new_session`, as far as it touches the pallets modelled. -/
def applyNewSession (sessionIndex : SessionIndex) : State × Outcome :=
  let prevConfig := s.config
  let configuration := s.configuration.initializerOnNewSession sessionIndex
  let (paras, outgoingParas) := s.paras.applyActionsQueue sessionIndex
  match s.hrmp.initializerOnNewSession paras.isValidPara prevConfig outgoingParas with
  | none => (s, none)
  | some hrmp =>
    ({ s with
      sessionIndex, configuration, paras, hrmp
      pendingAvailability := .empty
      dmp := s.dmp.performOutgoingParaCleanup outgoingParas
      ump := s.ump.performOutgoingParaCleanup outgoingParas }, some (.ok []))

end State

/-! ## The machine -/

inductive Input where
  | newBlock
  | hrmpCall (canReserve : CanReserve) (origin : Origin) (call : HrmpCall)
  | sudoCall (canReserve : CanReserve) (call : SudoCall)
  | sendXcm (wrapVersion : MultiLocation → Xcm → Option (List UInt8)) (dest : MultiLocation)
      (msg : Xcm)
  | forceQueueAction (id : ParaId)
  | concludeVote (causes : List ParaId) (accepted : Bool) (sessionsObserved : SessionIndex)
  | setConfig (updater : HostConfiguration → HostConfiguration)
  | setBypassConsistencyCheck (new : Bool)
  | backed (para : ParaId) (commitments : CandidateCommitments)
  | available (para : ParaId)
  /-- The candidate of a para timed out, or was found invalid in a dispute. -/
  | freed (para : ParaId)
  | processUpward (sink : UmpSink)
  | serviceOverweight (sink : ParaId → UpwardMessage → Weight → Except (Hash × Weight) Weight)
      (index : OverweightIndex) (weightLimit : Weight)
  | newSession (sessionIndex : SessionIndex)

/-- `FirstMessageFactorPercent` -/
def firstMessageFactorPercent : Weight := 100

/-- The relay chain. -/
def relay (host : Host) : Machine State Input Outcome where
  step s
    | .newBlock => ({ s with blockNumber := s.blockNumber + 1 }, some (.ok []))
    | .hrmpCall canReserve origin call => s.hrmpCall host canReserve origin call
    | .sudoCall canReserve call => s.sudoCall host canReserve call
    | .sendXcm wrapVersion dest msg => s.sendXcm host wrapVersion dest msg
    | .forceQueueAction id =>
      ({ s with paras := s.paras.forceQueueAction s.sessionIndex id }, some (.ok []))
    | .concludeVote causes accepted sessionsObserved =>
      ({ s with paras := s.paras.concludeVote s.sessionIndex causes accepted sessionsObserved },
        some (.ok []))
    | .setConfig updater =>
      match s.configuration.scheduleConfigUpdate s.sessionIndex updater with
      | .ok configuration => ({ s with configuration }, some (.ok []))
      | .error e => (s, some (.error (.configuration e)))
    | .setBypassConsistencyCheck new =>
      ({ s with configuration := { s.configuration with bypassConsistencyCheck := new } },
        some (.ok []))
    | .backed para commitments => s.processCandidate para commitments
    | .available para => s.includeCandidate host para
    | .freed para =>
      ({ s with pendingAvailability := s.pendingAvailability.erase para }, some (.ok []))
    | .processUpward sink =>
      let (ump, _, events) :=
        s.ump.processPendingUpwardMessages s.config firstMessageFactorPercent sink
      ({ s with ump }, some (.ok (events.map .ump)))
    | .serviceOverweight sink index weightLimit =>
      match s.ump.serviceOverweight sink index weightLimit with
      | .ok (ump, events) => ({ s with ump }, some (.ok (events.map .ump)))
      | .error e => (s, some (.error (.ump e)))
    | .newSession sessionIndex => s.applyNewSession sessionIndex

/-! ## Genesis -/

/-- `preopen_hrmp_channel` for every channel of the genesis configuration. -/
def State.preopen (host : Host) (canReserve : CanReserve) :
    State → List (ParaId × ParaId × UInt32 × UInt32) → Except DispatchError State
  | s, [] => .ok s
  | s, (sender, recipient, maxCapacity, maxMessageSize) :: rest => do
    let s ← s.initOpenChannel host canReserve sender recipient maxCapacity maxMessageSize
    let s ← s.acceptOpenChannel host canReserve recipient sender
    preopen host canReserve s rest

/-- The paras of the genesis configuration, initialised at once. -/
def Paras.build (paras : List (ParaId × ParaGenesisArgs)) : Option Paras :=
  if paras.any fun p => p.2.validationCode.isEmpty then none
  else some <| paras.foldl
    (fun s p =>
      if p.2.parachain then
        { s with
          parachains := s.parachains.insert p.1
          paraLifecycles := s.paraLifecycles.insert p.1 .parachain }
      else { s with paraLifecycles := s.paraLifecycles.insert p.1 .parathread })
    ⟨.empty, fun _ => .empty, .empty, .empty, []⟩

/-- The state a relay chain starts from; `none` where the node refuses its configuration. -/
def State.genesis (host : Host) (canReserve : CanReserve) (config : HostConfiguration)
    (paras : List (ParaId × ParaGenesisArgs))
    (preopenHrmpChannels : List (ParaId × ParaId × UInt32 × UInt32)) : Option State := do
  let configuration ← Configuration.build config
  let paras ← Paras.build paras
  let s : State := ⟨0, 0, configuration, paras, ⟨fun _ => [], fun _ => zeroHash⟩, .empty, .empty, .empty⟩
  let s ← (s.preopen host canReserve preopenHrmpChannels).toOption
  let hrmp ← s.hrmp.processHrmpOpenChannelRequests s.paras.isValidPara config
  return { s with hrmp }

end SIM.Impl.Relay
