import SimMultichain.Impl.Paras

/-!
# Message queues of the relay chain: DMP and HRMP

The `dmp` pallet, which queues messages from the relay chain to its paras, and the
`hrmp` pallet, which queues messages between paras: the requests to open and to
close channels, the channels with their indexes by sender and by recipient, their
contents, and for every recipient the digest of the blocks in which it was sent
messages. The calls of the `hrmp` pallet that reach into other pallets are in
`Impl.Relay`.

A map whose absent entries read as a default (`ValueQuery`) is a function, unless the
source tells absent entries from default ones. `reserved` stands for the balances
that `T::Currency` holds back on the accounts of the paras.
-/

namespace SIM.Impl.Relay

/-- What the runtime takes from its host: hashes (of a message, and of a link of a message queue
chain), the encoding of XCM, and whether the dispatcher undoes a call that fails. -/
structure Host where
  hashOf : List UInt8 → Hash
  hashLink : Hash → BlockNumber → Hash → Hash
  encode : Xcm → List UInt8
  transactional : Bool

/-- `Hash::default()` -/
def zeroHash : Hash := Vector.replicate 32 0

/-! ## Downward messages -/

structure InboundDownwardMessage where
  sentAt : BlockNumber
  msg : List UInt8
  deriving DecidableEq

structure Dmp where
  downwardMessageQueues : ParaId → List InboundDownwardMessage
  downwardMessageQueueHeads : ParaId → Hash

namespace Dmp

inductive QueueDownwardMessageError where
  | exceedsMaxMessageSize
  deriving DecidableEq

inductive ProcessedDownwardMessagesAcceptanceErr where
  | advancementRule
  | underflow (processedDownwardMessages dmqLength : UInt32)
  deriving DecidableEq

/-- The next head of a downward message queue chain. -/
def mqcLink (host : Host) (head : Hash) (m : InboundDownwardMessage) : Hash :=
  host.hashLink head m.sentAt (host.hashOf m.msg)

def queueDownwardMessage (host : Host) (config : HostConfiguration) (now : BlockNumber)
    (para : ParaId) (msg : List UInt8) (s : Dmp) : Except QueueDownwardMessageError Dmp :=
  if UInt32.ofNat msg.length > config.maxDownwardMessageSize then .error .exceedsMaxMessageSize
  else
    let inbound : InboundDownwardMessage := ⟨now, msg⟩
    .ok {
      downwardMessageQueueHeads := Function.update s.downwardMessageQueueHeads para
        (mqcLink host (s.downwardMessageQueueHeads para) inbound)
      downwardMessageQueues := Function.update s.downwardMessageQueues para
        (s.downwardMessageQueues para ++ [inbound]) }

/-- `decode_len(&para).unwrap_or(0).saturated_into::<u32>()` -/
def dmqLength (s : Dmp) (para : ParaId) : UInt32 :=
  UInt32.ofNat (min (s.downwardMessageQueues para).length (2 ^ 32 - 1))

def checkProcessedDownwardMessages (s : Dmp) (para : ParaId) (processedDownwardMessages : UInt32) :
    Except ProcessedDownwardMessagesAcceptanceErr Unit :=
  let dmqLength := s.dmqLength para
  if dmqLength > 0 ∧ processedDownwardMessages = 0 then .error .advancementRule
  else if dmqLength < processedDownwardMessages then
    .error (.underflow processedDownwardMessages dmqLength)
  else .ok ()

def pruneDmq (para : ParaId) (processedDownwardMessages : UInt32) (s : Dmp) : Dmp :=
  let q := s.downwardMessageQueues para
  { s with
    downwardMessageQueues := Function.update s.downwardMessageQueues para
      (if processedDownwardMessages.toNat > q.length then []
      else q.drop processedDownwardMessages.toNat) }

def cleanDmpAfterOutgoing (outgoingPara : ParaId) (s : Dmp) : Dmp where
  downwardMessageQueues := Function.update s.downwardMessageQueues outgoingPara []
  downwardMessageQueueHeads := Function.update s.downwardMessageQueueHeads outgoingPara zeroHash

/-- `perform_outgoing_para_cleanup` -/
def performOutgoingParaCleanup (outgoing : List ParaId) (s : Dmp) : Dmp :=
  outgoing.foldl (fun s p => s.cleanDmpAfterOutgoing p) s

end Dmp

/-! ## Channels -/

@[ext] structure HrmpChannelId where
  sender : ParaId
  recipient : ParaId
  deriving DecidableEq

namespace HrmpChannelId

def isParticipant (id : HrmpChannelId) (para : ParaId) : Bool :=
  para = id.sender || para = id.recipient

/-- The derived order: by sender, then by recipient. -/
instance : LinearOrder HrmpChannelId :=
  LinearOrder.lift' (fun id => toLex (id.sender, id.recipient)) fun a b h => by
    obtain ⟨hs, hr⟩ := Prod.mk.inj (toLex_inj.mp h)
    cases a; cases b; simp_all

end HrmpChannelId

/-- The deprecated age of a request is left out. -/
structure HrmpOpenChannelRequest where
  confirmed : Bool
  senderDeposit : Balance
  maxMessageSize : UInt32
  maxCapacity : UInt32
  maxTotalSize : UInt32
  deriving DecidableEq

structure HrmpChannel where
  maxCapacity : UInt32
  maxTotalSize : UInt32
  maxMessageSize : UInt32
  msgCount : UInt32
  totalSize : UInt32
  mqcHead : Option Hash
  senderDeposit : Balance
  recipientDeposit : Balance
  deriving DecidableEq

/-- The channel of a confirmed request, empty. -/
def HrmpOpenChannelRequest.channel (request : HrmpOpenChannelRequest) (config : HostConfiguration) :
    HrmpChannel where
  senderDeposit := request.senderDeposit
  recipientDeposit := config.hrmpRecipientDeposit
  maxCapacity := request.maxCapacity
  maxTotalSize := request.maxTotalSize
  maxMessageSize := request.maxMessageSize
  msgCount := 0
  totalSize := 0
  mqcHead := none

structure InboundHrmpMessage where
  sentAt : BlockNumber
  data : List UInt8
  deriving DecidableEq

structure OutboundHrmpMessage where
  recipient : ParaId
  data : List UInt8
  deriving DecidableEq

structure Hrmp where
  openChannelRequests : StorageMap HrmpChannelId HrmpOpenChannelRequest
  openChannelRequestsList : List HrmpChannelId
  openChannelRequestCount : ParaId → UInt32
  acceptedChannelRequestCount : ParaId → UInt32
  closeChannelRequests : StorageMap HrmpChannelId Unit
  closeChannelRequestsList : List HrmpChannelId
  watermarks : StorageMap ParaId BlockNumber
  channels : StorageMap HrmpChannelId HrmpChannel
  ingressChannelsIndex : ParaId → SortedVec ParaId
  egressChannelsIndex : ParaId → SortedVec ParaId
  channelContents : StorageMap HrmpChannelId (List InboundHrmpMessage)
  channelDigests : ParaId → List (BlockNumber × List ParaId)
  reserved : ParaId → Balance

namespace Hrmp

inductive HrmpWatermarkAcceptanceErr where
  | advancementRule (newWatermark lastWatermark : BlockNumber)
  | aheadRelayParent (newWatermark relayChainParentNumber : BlockNumber)
  | landsOnBlockWithNoMessages (newWatermark : BlockNumber)
  deriving DecidableEq

inductive OutboundHrmpAcceptanceErr where
  | moreMessagesThanPermitted (sent permitted : UInt32)
  | notSorted (idx : UInt32)
  | noSuchChannel (idx : UInt32) (channelId : HrmpChannelId)
  | maxMessageSizeExceeded (idx msgSize maxSize : UInt32)
  | totalSizeExceeded (idx totalSize limit : UInt32)
  | capacityExceeded (idx count limit : UInt32)
  deriving DecidableEq

def empty : Hrmp where
  openChannelRequests := .empty
  openChannelRequestsList := []
  openChannelRequestCount := fun _ => 0
  acceptedChannelRequestCount := fun _ => 0
  closeChannelRequests := .empty
  closeChannelRequestsList := []
  watermarks := .empty
  channels := .empty
  ingressChannelsIndex := fun _ => .empty
  egressChannelsIndex := fun _ => .empty
  channelContents := .empty
  channelDigests := fun _ => []
  reserved := fun _ => 0

/-- The contents of a channel, none of which is read as the empty vector. -/
def contents (s : Hrmp) (id : HrmpChannelId) : List InboundHrmpMessage :=
  (s.channelContents.get id).getD []

/-- `T::Currency::unreserve`: as much as is reserved, at most. -/
def unreserve (para : ParaId) (amount : Balance) (s : Hrmp) : Hrmp :=
  { s with reserved := Function.update s.reserved para (s.reserved para - amount) }

/-- A count of requests less, an absent one being 0. -/
def decreased (count : ParaId → UInt32) (para : ParaId) : ParaId → UInt32 :=
  Function.update count para (if count para = 0 then 0 else count para - 1)

def decreaseOpenChannelRequestCount (sender : ParaId) (s : Hrmp) : Hrmp :=
  { s with openChannelRequestCount := decreased s.openChannelRequestCount sender }

def decreaseAcceptedChannelRequestCount (recipient : ParaId) (s : Hrmp) : Hrmp :=
  { s with acceptedChannelRequestCount := decreased s.acceptedChannelRequestCount recipient }

/-! ## Closing -/

def closeHrmpChannel (id : HrmpChannelId) (s : Hrmp) : Hrmp :=
  let s :=
    match s.channels.get id with
    | some channel =>
      { s with channels := s.channels.erase id }
        |>.unreserve id.sender channel.senderDeposit
        |>.unreserve id.recipient channel.recipientDeposit
    | none => s
  { s with
    channelContents := s.channelContents.erase id
    egressChannelsIndex := Function.update s.egressChannelsIndex id.sender
      ((s.egressChannelsIndex id.sender).remove id.recipient)
    ingressChannelsIndex := Function.update s.ingressChannelsIndex id.recipient
      ((s.ingressChannelsIndex id.recipient).remove id.sender) }

/-- `clean_hrmp_after_outgoing` -/
def cleanHrmpAfterOutgoing (outgoingPara : ParaId) (s : Hrmp) : Hrmp :=
  let ingress := (s.ingressChannelsIndex outgoingPara).items.map fun sender =>
    HrmpChannelId.mk sender outgoingPara
  let egress := (s.egressChannelsIndex outgoingPara).items.map fun recipient =>
    HrmpChannelId.mk outgoingPara recipient
  let toClose := SortedVec.ofList (ingress ++ egress)
  toClose.items.foldl (fun s id => s.closeHrmpChannel id)
    { s with
      openChannelRequestCount := Function.update s.openChannelRequestCount outgoingPara 0
      acceptedChannelRequestCount := Function.update s.acceptedChannelRequestCount outgoingPara 0
      ingressChannelsIndex := Function.update s.ingressChannelsIndex outgoingPara .empty
      egressChannelsIndex := Function.update s.egressChannelsIndex outgoingPara .empty }

/-- One request of the loop of `clean_open_channel_requests`. -/
def cleanRequest (config : HostConfiguration) (outgoing : List ParaId) (s : Hrmp)
    (id : HrmpChannelId) : Hrmp :=
  match s.openChannelRequests.get id with
  | none => s
  | some request =>
    let s := { s with openChannelRequests := s.openChannelRequests.erase id }
    -- the deposit of a para that goes is not returned to it
    let s := if id.sender ∈ outgoing then s else s.unreserve id.sender request.senderDeposit
    if request.confirmed then
      let s := if id.recipient ∈ outgoing then s
        else s.unreserve id.recipient config.hrmpRecipientDeposit
      s.decreaseAcceptedChannelRequestCount id.recipient
    else s

/-- `clean_open_channel_requests`: the requests in which a para that goes takes part. The count of
a sender that stays is not decreased. -/
def cleanOpenChannelRequests (config : HostConfiguration) (outgoing : List ParaId) (s : Hrmp) :
    Hrmp :=
  let leaves (id : HrmpChannelId) : Bool := outgoing.any id.isParticipant
  let go := s.openChannelRequestsList.filter leaves
  let stay := s.openChannelRequestsList.filter fun id => !leaves id
  go.foldl (fun s id => s.cleanRequest config outgoing id) { s with openChannelRequestsList := stay }

/-- `perform_outgoing_para_cleanup` -/
def performOutgoingParaCleanup (config : HostConfiguration) (outgoing : List ParaId) (s : Hrmp) :
    Hrmp :=
  outgoing.foldl (fun s p => s.cleanHrmpAfterOutgoing p) (s.cleanOpenChannelRequests config outgoing)

def processHrmpCloseChannelRequests (s : Hrmp) : Hrmp :=
  s.closeChannelRequestsList.foldl
    (fun s id => { s with closeChannelRequests := s.closeChannelRequests.erase id }.closeHrmpChannel id)
    { s with closeChannelRequestsList := [] }

/-! ## Opening -/

/-- A confirmed request is dropped, and opens its channel if both paras are valid. -/
def enactRequest (isValidPara : ParaId → Bool) (config : HostConfiguration) (id : HrmpChannelId)
    (request : HrmpOpenChannelRequest) (s : Hrmp) : Hrmp :=
  let s :=
    if isValidPara id.sender && isValidPara id.recipient then
      { s with
        channels := s.channels.insert id (request.channel config)
        ingressChannelsIndex := Function.update s.ingressChannelsIndex id.recipient
          ((s.ingressChannelsIndex id.recipient).insert id.sender)
        egressChannelsIndex := Function.update s.egressChannelsIndex id.sender
          ((s.egressChannelsIndex id.sender).insert id.recipient) }
    else s
  let s := (s.decreaseOpenChannelRequestCount id.sender).decreaseAcceptedChannelRequestCount
    id.recipient
  { s with openChannelRequests := s.openChannelRequests.erase id }

/-- The loop of `process_hrmp_open_channel_requests`, from the end of the list to its start. `none`
where a listed request does not exist, which stops the runtime. -/
def processOpenLoop (isValidPara : ParaId → Bool) (config : HostConfiguration) :
    Nat → List HrmpChannelId → Hrmp → Option (List HrmpChannelId × Hrmp)
  | 0, reqs, s => some (reqs, s)
  | idx + 1, reqs, s =>
    match reqs[idx]? with
    | none => none
    | some id =>
      match s.openChannelRequests.get id with
      | none => none
      | some request =>
        if request.confirmed then
          processOpenLoop isValidPara config idx (swapRemove reqs idx)
            (s.enactRequest isValidPara config id request)
        else processOpenLoop isValidPara config idx reqs s

def processHrmpOpenChannelRequests (isValidPara : ParaId → Bool) (config : HostConfiguration)
    (s : Hrmp) : Option Hrmp :=
  (processOpenLoop isValidPara config s.openChannelRequestsList.length s.openChannelRequestsList s).map
    fun (reqs, s) => { s with openChannelRequestsList := reqs }

/-- `initializer_on_new_session`, after the `paras` pallet has let go of `outgoing`. -/
def initializerOnNewSession (isValidPara : ParaId → Bool) (prevConfig : HostConfiguration)
    (outgoing : List ParaId) (s : Hrmp) : Option Hrmp :=
  (s.performOutgoingParaCleanup prevConfig outgoing).processHrmpOpenChannelRequests isValidPara
    prevConfig |>.map processHrmpCloseChannelRequests

/-! ## Messages -/

def checkHrmpWatermark (s : Hrmp) (recipient : ParaId)
    (relayChainParentNumber newHrmpWatermark : BlockNumber) :
    Except HrmpWatermarkAcceptanceErr Unit := do
  if let some lastWatermark := s.watermarks.get recipient then
    if newHrmpWatermark ≤ lastWatermark then
      throw (.advancementRule newHrmpWatermark lastWatermark)
  if newHrmpWatermark > relayChainParentNumber then
    throw (.aheadRelayParent newHrmpWatermark relayChainParentNumber)
  if newHrmpWatermark = relayChainParentNumber then return
  if !(binarySearchByKey (s.channelDigests recipient) Prod.fst newHrmpWatermark).isOk then
    throw (.landsOnBlockWithNoMessages newHrmpWatermark)

/-- The loop of `check_outbound_hrmp`. -/
def checkOutboundLoop (s : Hrmp) (sender : ParaId) :
    Nat → Option ParaId → List OutboundHrmpMessage → Except OutboundHrmpAcceptanceErr Unit
  | _, _, [] => .ok ()
  | idx, lastRecipient, outMsg :: rest =>
    if lastRecipient.any (outMsg.recipient ≤ ·) then .error (.notSorted (.ofNat idx))
    else
      match s.channels.get ⟨sender, outMsg.recipient⟩ with
      | none => .error (.noSuchChannel (.ofNat idx) ⟨sender, outMsg.recipient⟩)
      | some channel =>
        let msgSize := UInt32.ofNat outMsg.data.length
        let newTotalSize := channel.totalSize + msgSize
        let newMsgCount := channel.msgCount + 1
        if msgSize > channel.maxMessageSize then
          .error (.maxMessageSizeExceeded (.ofNat idx) msgSize channel.maxMessageSize)
        else if newTotalSize > channel.maxTotalSize then
          .error (.totalSizeExceeded (.ofNat idx) newTotalSize channel.maxTotalSize)
        else if newMsgCount > channel.maxCapacity then
          .error (.capacityExceeded (.ofNat idx) newMsgCount channel.maxCapacity)
        else checkOutboundLoop s sender (idx + 1) (some outMsg.recipient) rest

def checkOutboundHrmp (s : Hrmp) (config : HostConfiguration) (sender : ParaId)
    (outHrmpMsgs : List OutboundHrmpMessage) : Except OutboundHrmpAcceptanceErr Unit :=
  if UInt32.ofNat outHrmpMsgs.length > config.hrmpMaxMessageNumPerCandidate then
    .error (.moreMessagesThanPermitted (.ofNat outHrmpMsgs.length)
      config.hrmpMaxMessageNumPerCandidate)
  else s.checkOutboundLoop sender 0 none outHrmpMsgs

/-- The bytes of a list of messages. -/
def dataSize (ms : List InboundHrmpMessage) : Nat := (ms.map fun m => m.data.length).sum

/-- One channel of `prune_hrmp`, up to the new watermark. -/
def pruneChannel (newHrmpWatermark : BlockNumber) (s : Hrmp) (id : HrmpChannelId) : Hrmp :=
  let pruned := (s.contents id).filter fun m => m.sentAt ≤ newHrmpWatermark
  let leftover := (s.contents id).filter fun m => ¬ m.sentAt ≤ newHrmpWatermark
  let s := { s with
    channelContents := if leftover.isEmpty then s.channelContents.erase id
      else s.channelContents.insert id leftover }
  match s.channels.get id with
  | none => s
  | some channel =>
    { s with
      channels := s.channels.insert id { channel with
        msgCount := channel.msgCount - UInt32.ofNat pruned.length
        totalSize := channel.totalSize - UInt32.ofNat (dataSize pruned) } }

/-- `prune_hrmp`: the channels to prune are found in the recipient's digest. -/
def pruneHrmp (recipient : ParaId) (newHrmpWatermark : BlockNumber) (s : Hrmp) : Hrmp :=
  let digest := s.channelDigests recipient
  let senders := SortedVec.ofList
    ((digest.filter fun entry => entry.1 ≤ newHrmpWatermark).flatMap Prod.snd)
  let leftover := digest.filter fun entry => ¬ entry.1 ≤ newHrmpWatermark
  let s := { s with channelDigests := Function.update s.channelDigests recipient leftover }
  let s := senders.items.foldl (fun s sender => s.pruneChannel newHrmpWatermark ⟨sender, recipient⟩) s
  { s with watermarks := s.watermarks.insert recipient newHrmpWatermark }

/-- The next head of a channel's message queue chain. -/
def mqcLink (host : Host) (head : Hash) (m : InboundHrmpMessage) : Hash :=
  host.hashLink head m.sentAt (host.hashOf m.data)

/-- Note in a recipient's digest that `sender` sent it a message in block `now`. -/
def noteInDigest (now : BlockNumber) (sender : ParaId) (digest : List (BlockNumber × List ParaId)) :
    List (BlockNumber × List ParaId) :=
  match digest.getLast? with
  | some (blockNo, d) =>
    if blockNo = now then digest.dropLast ++ [(blockNo, d ++ [sender])] else digest ++ [(now, [sender])]
  | none => digest ++ [(now, [sender])]

/-- One message of `queue_outbound_hrmp`. A message on a channel that was closed since its
candidate was accepted is dropped. -/
def queueMessage (host : Host) (now : BlockNumber) (sender : ParaId) (s : Hrmp)
    (outMsg : OutboundHrmpMessage) : Hrmp :=
  let id : HrmpChannelId := ⟨sender, outMsg.recipient⟩
  match s.channels.get id with
  | none => s
  | some channel =>
    let inbound : InboundHrmpMessage := ⟨now, outMsg.data⟩
    { s with
      channels := s.channels.insert id { channel with
        msgCount := channel.msgCount + 1
        totalSize := channel.totalSize + UInt32.ofNat inbound.data.length
        mqcHead := some (mqcLink host (channel.mqcHead.getD zeroHash) inbound) }
      channelContents := s.channelContents.insert id (s.contents id ++ [inbound])
      channelDigests := Function.update s.channelDigests id.recipient
        (noteInDigest now sender (s.channelDigests id.recipient)) }

def queueOutboundHrmp (host : Host) (now : BlockNumber) (sender : ParaId)
    (outHrmpMsgs : List OutboundHrmpMessage) (s : Hrmp) : Hrmp :=
  outHrmpMsgs.foldl (queueMessage host now sender) s

end Hrmp

end SIM.Impl.Relay
