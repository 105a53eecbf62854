import SimMultichain.Framework.Machine
import SimMultichain.Impl.Renault
import SimMultichain.Impl.Insurance

/-!
# A chain

The nine calls of the four pallets, their dispatch, and a chain as a machine
over calls and block numbers. Both chains run the same runtime; a chain in its
Renault role is one that meets `RenaultCall`s only, and one in its insurer role
meets `InsurerCall`s only.

`keysUsed` lists the accounts and counts whose composite key a call computes,
and `reports` and `declarations` read the accepted reports of a vehicle and the
accepted declarations of a driver off a history.
-/

namespace SIM.Impl

variable {AccountId BlockNumber : Type}

inductive RenaultCall (AccountId : Type) where
  | createFactory (factoryId : AccountId)
  | createVehicle (vehicleId : AccountId)
  | initVehicle (vehicleId : AccountId)
  | reportAccident (dataHash : DataHash)
  | requestData (vehicleId : AccountId) (vehicleAccidentCount : UInt32)
  | setIpfsStatus (ipfsId : DataHash) (status : UInt8)
  deriving DecidableEq

inductive InsurerCall (AccountId : Type) where
  | signUp (driverProfile : SimInsurance.DriverProfile AccountId)
  | reportAccident (vehicleId : AccountId) (vehicleAccidentCount : UInt32)
  | receiveData (vehicleId : AccountId) (vehicleAccidentCount : UInt32) (data : DataHash)
  deriving DecidableEq

/-- The runtime's `Call`, of the four pallets. -/
inductive Call (AccountId : Type) where
  | renault (call : RenaultCall AccountId)
  | insurer (call : InsurerCall AccountId)
  deriving DecidableEq

section Dispatch

variable [DecidableEq AccountId] (cfg : Config AccountId)

/-- The body of a call. -/
def Call.body (router : SendXcm AccountId) (origin : Origin AccountId) :
    Call AccountId → Dispatch AccountId BlockNumber Unit
  | .renault (.createFactory f) => SimRenault.createFactory origin f
  | .renault (.createVehicle v) => SimRenault.createVehicle origin v
  | .renault (.initVehicle v) => SimRenault.initVehicle origin v
  | .renault (.reportAccident d) => SimRenaultAccident.reportAccident cfg origin d
  | .renault (.requestData v k) => SimRenaultAccident.requestData cfg router origin v k
  | .renault (.setIpfsStatus d status) => SimRenaultAccident.setIpfsStatus origin d status
  | .insurer (.signUp profile) => SimInsurance.signUp origin profile
  | .insurer (.reportAccident v k) => SimInsuranceAccident.reportAccident cfg router origin v k
  | .insurer (.receiveData v k d) => SimInsuranceAccident.receiveData cfg origin v k d

/-- Run the body of a call on a storage. -/
def Call.exec (router : SendXcm AccountId) (origin : Origin AccountId) (call : Call AccountId)
    (s : Storage AccountId BlockNumber) :
    Except DispatchError Unit × Context AccountId BlockNumber :=
  (call.body cfg router origin).exec ⟨s, [], []⟩

/-- What is left of a call besides the storage. -/
structure Receipt (AccountId BlockNumber : Type) where
  result : Except DispatchError Unit
  events : List (Event AccountId BlockNumber)
  sent : List (Transact AccountId)

/-- The dispatcher: an error undoes what the body did if the dispatcher is transactional. -/
def dispatch (router : SendXcm AccountId) (origin : Origin AccountId) (call : Call AccountId)
    (s : Storage AccountId BlockNumber) :
    Storage AccountId BlockNumber × Receipt AccountId BlockNumber :=
  match call.exec cfg router origin s with
  | (.ok (), c) => (c.storage, ⟨.ok (), c.events, c.sent⟩)
  | (.error e, c) =>
    if cfg.transactional then (s, ⟨.error e, [], []⟩) else (c.storage, ⟨.error e, c.events, c.sent⟩)

/-- What a chain meets: a new block, or a call with its origin, sent while the XCM router
answers as `router`. -/
inductive Input (AccountId BlockNumber : Type) where
  | newBlock (number : BlockNumber)
  | call (router : SendXcm AccountId) (origin : Origin AccountId) (call : Call AccountId)

/-- A chain. A new block has no receipt. -/
def chain : Machine (Storage AccountId BlockNumber) (Input AccountId BlockNumber)
    (Option (Receipt AccountId BlockNumber)) where
  step s
    | .newBlock number => ({ s with blockNumber := number }, none)
    | .call router origin call =>
      let r := dispatch cfg router origin call s
      (r.1, some r.2)

end Dispatch

/-! ## Genesis -/

structure Genesis (AccountId BlockNumber : Type) where
  blockNumber : BlockNumber
  initFactoryAndVehicle : Option AccountId
  initDriver : Option AccountId

def Storage.empty (blockNumber : BlockNumber) : Storage AccountId BlockNumber :=
  ⟨blockNumber, .empty, .empty, .empty, .empty, .empty, .empty, .empty, .empty, .empty, .empty⟩

/-- The storage a chain starts from. -/
def Genesis.storage [DecidableEq AccountId] (g : Genesis AccountId BlockNumber) :
    Storage AccountId BlockNumber :=
  SimInsurance.build g.initDriver
    (SimRenault.build g.initFactoryAndVehicle (Storage.empty g.blockNumber))

/-! ## Histories -/

/-- A step of a chain, as its history records it. -/
abbrev ChainEntry (AccountId BlockNumber : Type) :=
  Entry (Storage AccountId BlockNumber) (Input AccountId BlockNumber)
    (Option (Receipt AccountId BlockNumber))

/-- The account and count whose composite key `getAccidentData` computes, if any. -/
def keysQueried (v : AccountId) (k : UInt32) : List (AccountId × UInt32) :=
  if k = 0 then [] else [(v, k - 1)]

/-- The accounts and counts whose composite key a call computes. -/
def keysUsed (s : Storage AccountId BlockNumber) :
    Input AccountId BlockNumber → List (AccountId × UInt32)
  | .call _ (.signed v) (.renault (.reportAccident _)) =>
    if SimRenault.isVehicle s v then [(v, (s.accidentCount.get v).getD 0)] else []
  | .call _ (.cumulusXcm (.siblingPara _)) (.renault (.requestData v k)) =>
    if SimRenault.isVehicle s v then keysQueried v k else []
  | .call _ (.signed d) (.insurer (.reportAccident _ _)) =>
    if SimInsurance.isDriver s d then [(d, (s.declaredAccidentsCount.get d).getD 0)] else []
  | .call _ (.cumulusXcm (.siblingPara _)) (.insurer (.receiveData v k _)) => [(v, k)]
  | _ => []

/-- The keys used along a history. -/
def usedIn (h : List (ChainEntry AccountId BlockNumber)) : List (AccountId × UInt32) :=
  h.flatMap fun e => keysUsed e.before e.input

/-- A call that returned `Ok`, with its origin. -/
def ChainEntry.successful (e : ChainEntry AccountId BlockNumber) :
    Option (Origin AccountId × Call AccountId) :=
  match e.input, e.output with
  | .call _ origin call, some ⟨.ok (), _, _⟩ => some (origin, call)
  | _, _ => none

/-- The calls of a history that returned `Ok`, oldest first. -/
def successes (h : List (ChainEntry AccountId BlockNumber)) :
    List (Origin AccountId × Call AccountId) := h.filterMap ChainEntry.successful

/-- A call that was signed by an account and returned `Ok`. -/
def ChainEntry.accepted [DecidableEq AccountId] (who : AccountId)
    (e : ChainEntry AccountId BlockNumber) : Option (Call AccountId) :=
  match e.input, e.output with
  | .call _ (.signed a) call, some ⟨.ok (), _, _⟩ => if a = who then some call else none
  | _, _ => none

/-- The data hash of a step that is an accepted report of a vehicle. -/
def reportOf [DecidableEq AccountId] (v : AccountId) (e : ChainEntry AccountId BlockNumber) :
    Option DataHash :=
  match e.accepted v with
  | some (.renault (.reportAccident d)) => some d
  | _ => none

/-- The data hashes of the accepted reports of a vehicle, oldest first. -/
def reports [DecidableEq AccountId] (v : AccountId) (h : List (ChainEntry AccountId BlockNumber)) :
    List DataHash := h.filterMap (reportOf v)

/-- The vehicle and count of a step that is an accepted declaration of a driver. -/
def declarationOf [DecidableEq AccountId] (d : AccountId) (e : ChainEntry AccountId BlockNumber) :
    Option (AccountId × UInt32) :=
  match e.accepted d with
  | some (.insurer (.reportAccident v k)) => some (v, k)
  | _ => none

/-- The accepted declarations of a driver, oldest first. -/
def declarations [DecidableEq AccountId] (d : AccountId)
    (h : List (ChainEntry AccountId BlockNumber)) : List (AccountId × UInt32) :=
  h.filterMap (declarationOf d)

/-- A `receiveData` call that a sibling para made. -/
structure Delivery (AccountId : Type) where
  source : ParaId
  vehicleId : AccountId
  vehicleAccidentCount : UInt32
  data : DataHash
  deriving DecidableEq

/-- The `receiveData` call of a step, if a sibling para made it; whether or not it was accepted. -/
def ChainEntry.delivery (e : ChainEntry AccountId BlockNumber) : Option (Delivery AccountId) :=
  match e.input with
  | .call _ (.cumulusXcm (.siblingPara p)) (.insurer (.receiveData v k d)) => some ⟨p, v, k, d⟩
  | _ => none

/-- The `receiveData` calls of sibling paras, oldest first. -/
def deliveries (h : List (ChainEntry AccountId BlockNumber)) : List (Delivery AccountId) :=
  h.filterMap ChainEntry.delivery

end SIM.Impl
