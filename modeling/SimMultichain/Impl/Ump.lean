import SimMultichain.Impl.Hrmp

/-!
# Upward messages of the relay chain

The `ump` pallet: for every para the queue of its messages to the relay chain, with
the number and total size kept beside it, and the round in which pending messages
are handed to the sink. The round visits the paras in turn, starting where the last
one stopped (`NeedsDispatchCursor`), and works on queues that are read once and
written back at its end (`QueueCache`).

What the sink does with a message is not modelled: its answer is an input, and
the messages it took are the round's output.
-/

namespace SIM.Impl.Relay

abbrev UpwardMessage := List UInt8
abbrev OverweightIndex := UInt64

/-- `(cnt, size)` of a queue. -/
structure QueueSize where
  count : UInt32
  size : UInt32
  deriving DecidableEq

structure Ump where
  relayDispatchQueues : ParaId → List UpwardMessage
  relayDispatchQueueSize : ParaId → QueueSize
  needsDispatch : SortedVec ParaId
  nextDispatchRoundStartWith : Option ParaId
  overweight : StorageMap OverweightIndex (ParaId × UpwardMessage)
  overweightCount : OverweightIndex

/-- `process_upward_message` at its `n`-th call: the weight used, or the message's id and the
weight it needs, which is more than the limit. -/
abbrev UmpSink := Nat → ParaId → UpwardMessage → Weight → Except (Hash × Weight) Weight

namespace Ump

inductive AcceptanceCheckErr where
  | moreMessagesThanPermitted (sent permitted : UInt32)
  | messageSize (idx msgSize maxSize : UInt32)
  | capacityExceeded (count limit : UInt32)
  | totalSizeExceeded (totalSize limit : UInt32)
  deriving DecidableEq

inductive Event where
  | weightExhausted (id : Hash) (remaining required : Weight)
  | upwardMessagesReceived (para : ParaId) (count size : UInt32)
  | overweightEnqueued (para : ParaId) (id : Hash) (overweightIndex : OverweightIndex)
      (required : Weight)
  | overweightServiced (overweightIndex : OverweightIndex) (used : Weight)
  deriving DecidableEq

inductive Error where
  | unknownMessageIndex
  | weightOverLimit
  deriving DecidableEq

def empty : Ump where
  relayDispatchQueues := fun _ => []
  relayDispatchQueueSize := fun _ => ⟨0, 0⟩
  needsDispatch := .empty
  nextDispatchRoundStartWith := none
  overweight := .empty
  overweightCount := 0

/-- `clean_ump_after_outgoing`. The start of the next round is kept if it is the para that goes, and
forgotten otherwise. -/
def cleanUmpAfterOutgoing (outgoingPara : ParaId) (s : Ump) : Ump :=
  { s with
    relayDispatchQueueSize := Function.update s.relayDispatchQueueSize outgoingPara ⟨0, 0⟩
    relayDispatchQueues := Function.update s.relayDispatchQueues outgoingPara []
    needsDispatch := s.needsDispatch.remove outgoingPara
    nextDispatchRoundStartWith := s.nextDispatchRoundStartWith.filter (· = outgoingPara) }

/-- `perform_outgoing_para_cleanup` -/
def performOutgoingParaCleanup (outgoing : List ParaId) (s : Ump) : Ump :=
  outgoing.foldl (fun s p => s.cleanUmpAfterOutgoing p) s

/-! ## Acceptance -/

/-- The loop of `check_upward_messages`: the number and size of the queue with the messages. -/
def checkLoop (config : HostConfiguration) :
    Nat → QueueSize → List UpwardMessage → Except AcceptanceCheckErr QueueSize
  | _, q, [] => .ok q
  | idx, q, msg :: rest =>
    let msgSize := UInt32.ofNat msg.length
    if msgSize > config.maxUpwardMessageSize then
      .error (.messageSize (.ofNat idx) msgSize config.maxUpwardMessageSize)
    else checkLoop config (idx + 1) ⟨q.count + 1, q.size + msgSize⟩ rest

def checkUpwardMessages (s : Ump) (config : HostConfiguration) (para : ParaId)
    (upwardMessages : List UpwardMessage) : Except AcceptanceCheckErr Unit :=
  if UInt32.ofNat upwardMessages.length > config.maxUpwardMessageNumPerCandidate then
    .error (.moreMessagesThanPermitted (.ofNat upwardMessages.length)
      config.maxUpwardMessageNumPerCandidate)
  else
    match checkLoop config 0 (s.relayDispatchQueueSize para) upwardMessages with
    | .error e => .error e
    | .ok q =>
      if q.count > config.maxUpwardQueueCount then
        .error (.capacityExceeded q.count config.maxUpwardQueueCount)
      else if q.size > config.maxUpwardQueueSize then
        .error (.totalSizeExceeded q.size config.maxUpwardQueueSize)
      else .ok ()

/-- `fold((0, 0), |(cnt, size), d| (cnt + 1, size + d.len() as u32))` -/
def extra (upwardMessages : List UpwardMessage) : QueueSize :=
  upwardMessages.foldl (fun q d => ⟨q.count + 1, q.size + UInt32.ofNat d.length⟩) ⟨0, 0⟩

def receiveUpwardMessages (para : ParaId) (upwardMessages : List UpwardMessage) (s : Ump) :
    Ump × List Event :=
  if upwardMessages.isEmpty then (s, [])
  else
    let e := extra upwardMessages
    let q := s.relayDispatchQueueSize para
    ({ s with
      relayDispatchQueues := Function.update s.relayDispatchQueues para
        (s.relayDispatchQueues para ++ upwardMessages)
      relayDispatchQueueSize := Function.update s.relayDispatchQueueSize para
        ⟨q.count + e.count, q.size + e.size⟩
      needsDispatch := s.needsDispatch.insert para },
      [.upwardMessagesReceived para e.count e.size])

/-- `stash_overweight` -/
def stashOverweight (sender : ParaId) (upwardMessage : UpwardMessage) (s : Ump) :
    Ump × OverweightIndex :=
  let index := s.overweightCount
  ({ s with
    overweightCount := index + 1
    overweight := s.overweight.insert index (sender, upwardMessage) }, index)

/-- `service_overweight`, by an origin that may: the sink's answer decides. -/
def serviceOverweight (sink : ParaId → UpwardMessage → Weight → Except (Hash × Weight) Weight)
    (index : OverweightIndex) (weightLimit : Weight) (s : Ump) : Except Error (Ump × List Event) :=
  match s.overweight.get index with
  | none => .error .unknownMessageIndex
  | some (sender, data) =>
    match sink sender data weightLimit with
    | .error _ => .error .weightOverLimit
    | .ok used =>
      .ok ({ s with overweight := s.overweight.erase index }, [.overweightServiced index used])

end Ump

/-! ## The cache -/

structure QueueCacheEntry where
  queue : List UpwardMessage
  totalSize : UInt32
  consumedCount : Nat
  consumedSize : Nat

abbrev QueueCache := StorageMap ParaId QueueCacheEntry

namespace QueueCache

variable (s : Ump)

/-- `ensure_cached`: the entry of a para, read from the storage at its first use. -/
def ensureCached (cache : QueueCache) (para : ParaId) : QueueCacheEntry :=
  (cache.get para).getD
    ⟨s.relayDispatchQueues para, (s.relayDispatchQueueSize para).size, 0, 0⟩

def peekFront (cache : QueueCache) (para : ParaId) : QueueCache × Option UpwardMessage :=
  let entry := ensureCached s cache para
  (cache.insert para entry, entry.queue[entry.consumedCount]?)

def consumeFront (cache : QueueCache) (para : ParaId) : QueueCache × Option UpwardMessage :=
  let entry := ensureCached s cache para
  match entry.queue[entry.consumedCount]? with
  | some msg =>
    -- `mem::take` leaves an empty message behind
    (cache.insert para { entry with
      queue := entry.queue.set entry.consumedCount []
      consumedCount := entry.consumedCount + 1
      consumedSize := entry.consumedSize + msg.length }, some msg)
  | none => (cache.insert para entry, none)

def isEmpty (cache : QueueCache) (para : ParaId) : QueueCache × Bool :=
  let entry := ensureCached s cache para
  (cache.insert para entry, decide (entry.queue.length ≤ entry.consumedCount))

/-- `flush`: every entry writes its own para's queue, so that their order does not matter. -/
def flush (cache : QueueCache) : Ump :=
  { s with
    relayDispatchQueues := fun para =>
      match cache.get para with
      | none => s.relayDispatchQueues para
      | some entry =>
        if entry.queue.length ≤ entry.consumedCount then []
        else if 0 < entry.consumedCount then entry.queue.drop entry.consumedCount
        else s.relayDispatchQueues para
    relayDispatchQueueSize := fun para =>
      match cache.get para with
      | none => s.relayDispatchQueueSize para
      | some entry =>
        if entry.queue.length ≤ entry.consumedCount then ⟨0, 0⟩
        else if 0 < entry.consumedCount then
          ⟨UInt32.ofNat (entry.queue.length - entry.consumedCount),
            -- `saturating_sub`
            if entry.totalSize ≤ UInt32.ofNat entry.consumedSize then 0
            else entry.totalSize - UInt32.ofNat entry.consumedSize⟩
        else s.relayDispatchQueueSize para }

end QueueCache

/-! ## The cursor -/

structure NeedsDispatchCursor where
  needsDispatch : SortedVec ParaId
  index : Nat

namespace NeedsDispatchCursor

def new (s : Ump) : NeedsDispatchCursor where
  needsDispatch := s.needsDispatch
  index :=
    match s.nextDispatchRoundStartWith with
    | some para =>
      match s.needsDispatch.search para with
      | .ok foundIndex => foundIndex
      | .error _ => 0
    | none => 0

variable (c : NeedsDispatchCursor)

def peek : Option ParaId := c.needsDispatch.items[c.index]?

def advance : NeedsDispatchCursor :=
  if c.needsDispatch.items.isEmpty then c
  else { c with index := (c.index + 1) % c.needsDispatch.items.length }

def remove : NeedsDispatchCursor :=
  if c.needsDispatch.items.isEmpty then c
  else
    let needsDispatch : SortedVec ParaId :=
      ⟨c.needsDispatch.items.eraseIdx c.index, c.needsDispatch.sorted.eraseIdx c.index⟩
    ⟨needsDispatch, if (needsDispatch.items[c.index]?).isNone then 0 else c.index⟩

def flush (s : Ump) : Ump :=
  { s with nextDispatchRoundStartWith := c.peek, needsDispatch := c.needsDispatch }

end NeedsDispatchCursor

/-! ## A round -/

/-- A message taken from its queue: by the sink, or stashed as too heavy. -/
inductive Taken where
  | processed (para : ParaId) (msg : UpwardMessage)
  | stashed (para : ParaId) (msg : UpwardMessage)
  deriving DecidableEq

def Taken.para : Taken → ParaId
  | .processed para _ | .stashed para _ => para

def Taken.msg : Taken → UpwardMessage
  | .processed _ msg | .stashed _ msg => msg

/-- What `process_pending_upward_messages` works on. The storage still holds the queues as they
were at its start. -/
structure Round where
  storage : Ump
  cursor : NeedsDispatchCursor
  cache : QueueCache
  weightUsed : Weight
  calls : Nat
  taken : List Taken
  events : List Ump.Event

namespace Round

variable (config : HostConfiguration) (firstMessageFactorPercent : Weight) (sink : UmpSink)

def start (s : Ump) : Round := ⟨s, .new s, .empty, 0, 0, [], []⟩

/-- The weight the next message may use. -/
def maxWeight (r : Round) : Weight :=
  if r.weightUsed = 0 then config.umpServiceTotalWeight * firstMessageFactorPercent / 100
  else config.umpServiceTotalWeight - r.weightUsed

/-- `if queue_cache.is_empty(dispatchee) { cursor.remove() } else { cursor.advance() }` -/
def proceed (r : Round) (dispatchee : ParaId) : Round :=
  let (cache, isEmpty) := QueueCache.isEmpty r.storage r.cache dispatchee
  { r with cache, cursor := if isEmpty then r.cursor.remove else r.cursor.advance }

/-- One turn of the loop: the next state of the loop, or the one in which it was left. -/
def turn (r : Round) : Except Round Round :=
  match r.cursor.peek with
  | none => .error r
  | some dispatchee =>
    if r.weightUsed ≥ config.umpServiceTotalWeight then .error r
    else
      let maxWeight := r.maxWeight config firstMessageFactorPercent
      match QueueCache.peekFront r.storage r.cache dispatchee with
      | (cache, none) => .ok ({ r with cache }.proceed dispatchee)
      | (cache, some upwardMessage) =>
        match sink r.calls dispatchee upwardMessage maxWeight with
        | .ok used =>
          let (cache, _) := QueueCache.consumeFront r.storage cache dispatchee
          .ok ({ r with
            cache
            weightUsed := r.weightUsed + used
            calls := r.calls + 1
            taken := r.taken ++ [Taken.processed dispatchee upwardMessage] }.proceed dispatchee)
        | .error (id, required) =>
          if required > config.umpMaxIndividualWeight then
            match QueueCache.consumeFront r.storage cache dispatchee with
            | (cache, some upwardMessage) =>
              let (storage, index) := r.storage.stashOverweight dispatchee upwardMessage
              .ok ({ r with
                storage, cache
                calls := r.calls + 1
                taken := r.taken ++ [Taken.stashed dispatchee upwardMessage]
                events := r.events ++
                  [Ump.Event.overweightEnqueued dispatchee id index required] }.proceed dispatchee)
            | (cache, none) => .error { r with cache }
          else
            .error { r with
              cache
              calls := r.calls + 1
              events := r.events ++ [.weightExhausted id maxWeight required] }

def loop : Nat → Round → Round
  | 0, r => r
  | fuel + 1, r =>
    match r.turn config firstMessageFactorPercent sink with
    | .error r => r
    | .ok r => loop fuel r

end Round

/-- The messages of the queues to visit, and the queues: more turns than a round takes. -/
def Ump.pending (s : Ump) : Nat :=
  (s.needsDispatch.items.map fun para => (s.relayDispatchQueues para).length).sum +
    s.needsDispatch.items.length

/-- `process_pending_upward_messages`, with the messages it took and its events. -/
def Ump.processPendingUpwardMessages (config : HostConfiguration)
    (firstMessageFactorPercent : Weight) (sink : UmpSink) (s : Ump) :
    Ump × List Taken × List Ump.Event :=
  let r := Round.loop config firstMessageFactorPercent sink (s.pending + 1) (.start s)
  (QueueCache.flush (r.cursor.flush r.storage) r.cache, r.taken, r.events)

end SIM.Impl.Relay
