import Mathlib
import SimMultichain.Impl.Chain

/-!
# The two chains

Renault's chain (para 2000) and the insurer's (para 3000), each with its own
storage, and the XCM messages in flight between them. The system takes one step
at a time: a new block on one chain, a call by a local origin, or the delivery of
any message in flight. A delivered `Transact` is dispatched with the origin that
`SiblingParachainAsNative` gives its sender.
-/

namespace SIM.Impl

/-- A message on its way, with the para that sent it. -/
structure Packet (AccountId : Type) where
  source : ParaId
  message : Transact AccountId
  deriving DecidableEq

/-- Which of the two chains. -/
inductive Side where
  | renault
  | insurer
  deriving DecidableEq

def Side.para : Side → ParaId
  | .renault => 2000
  | .insurer => 3000

/-- The chain with a para id. -/
def Side.ofPara (id : ParaId) : Option Side :=
  if id = 2000 then some .renault else if id = 3000 then some .insurer else none

/-- `SiblingParachainAsNative::convert_origin`, for the location of a sibling para. -/
def convertOrigin {AccountId : Type} (source : ParaId) : OriginKind → Option (Origin AccountId)
  | .native => some (.cumulusXcm (.siblingPara source))
  | _ => none

/-- The runtime's call for a mirrored one. -/
def ParaChainCall.toCall {AccountId : Type} : ParaChainCall AccountId → Call AccountId
  | .palletSimRenaultAccident (.requestData v k) => .renault (.requestData v k)
  | .palletSimInsuranceAccident (.receiveData v k d) => .insurer (.receiveData v k d)

structure System (AccountId BlockNumber : Type) where
  renault : Storage AccountId BlockNumber
  insurer : Storage AccountId BlockNumber
  inFlight : Multiset (Packet AccountId)

/-- The storage of one of the chains. -/
def System.on {AccountId BlockNumber : Type} (σ : System AccountId BlockNumber) :
    Side → Storage AccountId BlockNumber
  | .renault => σ.renault
  | .insurer => σ.insurer

/-- The origins of calls that do not come from another chain. -/
inductive LocalOrigin (AccountId : Type) where
  | root
  | signed (who : AccountId)

def LocalOrigin.toOrigin {AccountId : Type} : LocalOrigin AccountId → Origin AccountId
  | .root => .root
  | .signed who => .signed who

inductive Action (AccountId BlockNumber : Type) where
  | newBlock (side : Side) (number : BlockNumber)
  | renaultCall (router : SendXcm AccountId) (origin : LocalOrigin AccountId)
      (call : RenaultCall AccountId)
  | insurerCall (router : SendXcm AccountId) (origin : LocalOrigin AccountId)
      (call : InsurerCall AccountId)
  | deliver (router : SendXcm AccountId) (packet : Packet AccountId)

/-- What a step ran, and on which chain. -/
structure Executed (AccountId BlockNumber : Type) where
  side : Side
  input : Input AccountId BlockNumber
  receipt : Option (Receipt AccountId BlockNumber)

section

variable {AccountId BlockNumber : Type}

/-- The messages of a receipt, in flight. -/
def packets (source : ParaId) : Option (Receipt AccountId BlockNumber) → Multiset (Packet AccountId)
  | some r => (r.sent.map fun m => ⟨source, m⟩ : List (Packet AccountId))
  | none => 0

variable [DecidableEq AccountId] (cfg : Config AccountId)

/-- One step of one of the chains. -/
def System.exec (σ : System AccountId BlockNumber) (side : Side) (i : Input AccountId BlockNumber) :
    System AccountId BlockNumber × Option (Executed AccountId BlockNumber) :=
  match side with
  | .renault =>
    let r := (chain cfg).step σ.renault i
    ({ σ with renault := r.1, inFlight := σ.inFlight + packets side.para r.2 }, some ⟨side, i, r.2⟩)
  | .insurer =>
    let r := (chain cfg).step σ.insurer i
    ({ σ with insurer := r.1, inFlight := σ.inFlight + packets side.para r.2 }, some ⟨side, i, r.2⟩)

/-- Deliver a message: it is taken out of those in flight and its call is dispatched on the chain
it is addressed to. -/
def System.deliver (σ : System AccountId BlockNumber) (router : SendXcm AccountId)
    (p : Packet AccountId) :
    System AccountId BlockNumber × Option (Executed AccountId BlockNumber) :=
  if p ∈ σ.inFlight then
    let σ' := { σ with inFlight := σ.inFlight.erase p }
    match Side.ofPara p.message.dest, convertOrigin p.source p.message.originType with
    | some side, some origin => σ'.exec cfg side (.call router origin p.message.call.toCall)
    | _, _ => (σ', none)
  else (σ, none)

/-- The two chains and their messages. -/
def network : Machine (System AccountId BlockNumber) (Action AccountId BlockNumber)
    (Option (Executed AccountId BlockNumber)) where
  step σ
    | .newBlock side number => σ.exec cfg side (.newBlock number)
    | .renaultCall router origin call =>
      σ.exec cfg .renault (.call router origin.toOrigin (.renault call))
    | .insurerCall router origin call =>
      σ.exec cfg .insurer (.call router origin.toOrigin (.insurer call))
    | .deliver router packet => σ.deliver cfg router packet

/-- Both chains at genesis, and no message in flight. -/
def System.init (gR gI : Genesis AccountId BlockNumber) : System AccountId BlockNumber :=
  ⟨gR.storage, gI.storage, 0⟩

end

/-! ## Histories -/

/-- A step of the two chains, as their history records it. -/
abbrev NetworkEntry (AccountId BlockNumber : Type) :=
  Entry (System AccountId BlockNumber) (Action AccountId BlockNumber)
    (Option (Executed AccountId BlockNumber))

section

variable {AccountId BlockNumber : Type}

/-- The step of one of the chains that a step of the system ran. -/
def NetworkEntry.onChain (side : Side) (e : NetworkEntry AccountId BlockNumber) :
    Option (ChainEntry AccountId BlockNumber) :=
  match e.output with
  | some x => if x.side = side then some ⟨e.before.on side, x.input, x.receipt⟩ else none
  | none => none

/-- The history of one of the chains. -/
def historyOf (side : Side) (h : List (NetworkEntry AccountId BlockNumber)) :
    List (ChainEntry AccountId BlockNumber) := h.filterMap (NetworkEntry.onChain side)

/-- The accounts and counts whose composite key either chain computed. -/
def keysOf (h : List (NetworkEntry AccountId BlockNumber)) : List (AccountId × UInt32) :=
  usedIn (historyOf .renault h) ++ usedIn (historyOf .insurer h)

end

/-- A data request of the insurer's chain, on its way. -/
def requestPacket {AccountId : Type} (v : AccountId) (k : UInt32) : Packet AccountId :=
  ⟨3000, SimInsuranceAccident.dataRequest v k⟩

/-- A reply of Renault's chain to the insurer's, on its way. -/
def replyPacket {AccountId : Type} (v : AccountId) (k : UInt32) (d : DataHash) : Packet AccountId :=
  ⟨2000, SimRenaultAccident.dataReply 3000 v k d⟩

end SIM.Impl
