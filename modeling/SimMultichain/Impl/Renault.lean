import SimMultichain.Impl.Storage

/-!
# The Renault pallets

`sim_renault` registers factories and their vehicles; `sim_renault_accident`
keeps the vehicles' accident reports and answers the data requests of sibling
chains.
-/

namespace SIM.Impl

open Body (ensure)

variable {AccountId BlockNumber : Type}

namespace SimRenault

def createFactory [DecidableEq AccountId] (origin : Origin AccountId) (factoryId : AccountId) :
    Dispatch AccountId BlockNumber Unit := do
  ensureRoot origin
  ensure (!(← storage).factories.containsKey factoryId) (.simRenault .factoryAlreadyStored)
  let currentBlock := (← storage).blockNumber
  modifyStorage fun s => { s with factories := s.factories.insert factoryId currentBlock }
  depositEvent (.simRenault (.factoryStored factoryId))

def createVehicle [DecidableEq AccountId] (origin : Origin AccountId) (vehicleId : AccountId) :
    Dispatch AccountId BlockNumber Unit := do
  let who ← ensureSigned origin
  ensure ((← storage).factories.containsKey who) (.simRenault .unknownFactory)
  ensure (!(← storage).vehicles.containsKey vehicleId) (.simRenault .vehicleAlreadyStored)
  let currentBlock := (← storage).blockNumber
  modifyStorage fun s => { s with vehicles := s.vehicles.insert vehicleId (who, currentBlock) }
  depositEvent (.simRenault (.vehicleStored vehicleId who))

def initVehicle [DecidableEq AccountId] (origin : Origin AccountId) (vehicleId : AccountId) :
    Dispatch AccountId BlockNumber Unit := do
  let who ← ensureSigned origin
  ensure ((← storage).vehicles.containsKey who) (.simRenault .unknownVehicle)
  ensure (who = vehicleId) (.simRenault .vehicleNotMatchingOrigin)
  modifyStorage fun s => { s with vehiclesStatus := s.vehiclesStatus.insert vehicleId true }
  depositEvent (.simRenault (.vehicleInitialized vehicleId))

def isVehicle (s : Storage AccountId BlockNumber) (vehicleId : AccountId) : Bool :=
  let status := (s.vehiclesStatus.get vehicleId).getD false
  if status = true then true else false

/-- `GenesisConfig::build`: one account may be a factory and its own initialised vehicle. -/
def build [DecidableEq AccountId] (initFactoryAndVehicle : Option AccountId)
    (s : Storage AccountId BlockNumber) : Storage AccountId BlockNumber :=
  match initFactoryAndVehicle with
  | some a =>
    { s with
      factories := s.factories.insert a s.blockNumber
      vehicles := s.vehicles.insert a (a, s.blockNumber)
      vehiclesStatus := s.vehiclesStatus.insert a true }
  | none => s

end SimRenault

namespace SimRenaultAccident

variable (cfg : Config AccountId)

def createCompositeKey (parts : List (List UInt8)) : Hash :=
  let concatenated := parts.foldl (fun res new => res ++ new) []
  cfg.sha256 concatenated

def reportAccident [DecidableEq AccountId] (origin : Origin AccountId) (dataHash : DataHash) :
    Dispatch AccountId BlockNumber Unit := do
  let vehicleId ← ensureSigned origin
  ensure (SimRenault.isVehicle (← storage) vehicleId) (.simRenaultAccident .unknownVehicle)
  let count := ((← storage).accidentCount.get vehicleId).getD 0
  let accidentKey := createCompositeKey cfg [cfg.encode vehicleId, toLeBytes count]
  ensure (!(← storage).accidents.containsKey accidentKey)
    (.simRenaultAccident .accidentAlreadyStored)
  modifyStorage fun s => { s with accidents := s.accidents.insert accidentKey dataHash }
  modifyStorage fun s => { s with ipfsStatus := s.ipfsStatus.insert dataHash 0 }
  -- `u32` addition, which wraps in the release profile
  let nextCount := count + 1
  modifyStorage fun s => { s with accidentCount := s.accidentCount.insert vehicleId nextCount }
  depositEvent (.simRenaultAccident (.accidentStored vehicleId count dataHash))

def getAccidentData (s : Storage AccountId BlockNumber) (vehicleId : AccountId)
    (accidentCount : UInt32) : Except GetAccidentDataError DataHash :=
  if accidentCount ≤ 0 then
    .error .getVehicleAccidentDataBadCount
  else
    let newAccidentCount := accidentCount - 1
    let accidentKey := createCompositeKey cfg [cfg.encode vehicleId, toLeBytes newAccidentCount]
    match s.accidents.get accidentKey with
    | some data => .ok data
    | none => .error .getVehicleAccidentDataNotExist

/-- The reply to a data request, addressed to the para that sent it. -/
def dataReply (destPara : ParaId) (vehicleId : AccountId) (vehicleAccidentCount : UInt32)
    (value : DataHash) : Transact AccountId where
  dest := destPara
  originType := .native
  requireWeightAtMost := 1000
  call := .palletSimInsuranceAccident (.receiveData vehicleId vehicleAccidentCount value)

def requestData (router : SendXcm AccountId) (origin : Origin AccountId) (vehicleId : AccountId)
    (vehicleAccidentCount : UInt32) : Dispatch AccountId BlockNumber Unit := do
  let originPara ← ensureSiblingPara origin
  depositEvent (.simRenaultAccident
    (.receiveVehicleDataRequest originPara vehicleId vehicleAccidentCount))
  let vehicleStatus := SimRenault.isVehicle (← storage) vehicleId
  ensure vehicleStatus (.simRenaultAccident .vehicleStatusError)
  let destPara := originPara
  match getAccidentData cfg (← storage) vehicleId vehicleAccidentCount with
  | .ok value =>
    match ← sendXcm router (dataReply destPara vehicleId vehicleAccidentCount value) with
    | .ok () =>
      depositEvent (.simRenaultAccident (.sendVehicleDataRequestReply originPara vehicleStatus))
    | .error e =>
      depositEvent (.simRenaultAccident (.errorSendVehicleDataRequestReply destPara e))
      throw (.other "SendXcmError")
  | .error _ => throw (.other "Can't find data for vehicle")

def setIpfsStatus (origin : Origin AccountId) (ipfsId : DataHash) (status : UInt8) :
    Dispatch AccountId BlockNumber Unit := do
  let _ ← ensureSigned origin
  ensure ((← storage).ipfsStatus.containsKey ipfsId) (.simRenaultAccident .ipfsStatusError)
  modifyStorage fun s => { s with ipfsStatus := s.ipfsStatus.insert ipfsId status }
  depositEvent (.simRenaultAccident (.newIpfsStatus ipfsId status))

end SimRenaultAccident

end SIM.Impl
