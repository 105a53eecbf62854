import SimMultichain.Impl.Storage

/-!
# The insurance pallets

`sim_insurance` keeps the drivers' subscriptions; `sim_insurance_accident` files
their accident declarations, requests the vehicle's data from Renault's chain and
stores the data a sibling chain sends.
-/

namespace SIM.Impl

open Body (ensure)

variable {AccountId BlockNumber : Type}

namespace SimInsurance

def signUp [DecidableEq AccountId] (origin : Origin AccountId)
    (driverProfile : DriverProfile AccountId) : Dispatch AccountId BlockNumber Unit := do
  let who ← ensureSigned origin
  let currentBlock := (← storage).blockNumber
  modifyStorage fun s =>
    { s with subscriptions := s.subscriptions.insert who (driverProfile, currentBlock) }
  depositEvent (.simInsurance (.newSignUp who (driverProfile, currentBlock)))

def isDriver (s : Storage AccountId BlockNumber) (driverId : AccountId) : Bool :=
  let status := s.subscriptions.containsKey driverId
  if status = true then true else false

/-- The profile of the driver subscribed at genesis. -/
def initProfile (initDriver : AccountId) : DriverProfile AccountId where
  name := "Luc Gerrits".toUTF8.data.toList
  age := 26
  contractStart := 2022
  contractEnd := 2025
  licenceCode := "AB 123 CD".toUTF8.data.toList
  contractPlan := .standard
  vehicleId := initDriver

/-- `GenesisConfig::build` -/
def build [DecidableEq AccountId] (initDriver : Option AccountId)
    (s : Storage AccountId BlockNumber) : Storage AccountId BlockNumber :=
  match initDriver with
  | some d => { s with subscriptions := s.subscriptions.insert d (initProfile d, s.blockNumber) }
  | none => s

end SimInsurance

namespace SimInsuranceAccident

variable (cfg : Config AccountId)

def createCompositeKey (parts : List (List UInt8)) : Hash :=
  let concatenated := parts.foldl (fun res new => res ++ new) []
  cfg.sha256 concatenated

/-- The request for a vehicle's data that a declaration sends to para 2000. -/
def dataRequest (vehicleId : AccountId) (vehicleAccidentCount : UInt32) :
    Transact AccountId where
  dest := 2000
  originType := .native
  requireWeightAtMost := 1000
  call := .palletSimRenaultAccident (.requestData vehicleId vehicleAccidentCount)

def reportAccident [DecidableEq AccountId] (router : SendXcm AccountId) (origin : Origin AccountId)
    (vehicleId : AccountId) (vehicleAccidentCount : UInt32) : Dispatch AccountId BlockNumber Unit := do
  let driverId ← ensureSigned origin
  ensure (SimInsurance.isDriver (← storage) driverId) (.simInsuranceAccident .unknownDriver)
  let count := ((← storage).declaredAccidentsCount.get driverId).getD 0
  let driverAccidentKey := createCompositeKey cfg [cfg.encode driverId, toLeBytes count]
  ensure (!(← storage).declaredAccidents.containsKey driverAccidentKey)
    (.simInsuranceAccident .accidentAlreadyStored)
  modifyStorage fun s =>
    { s with declaredAccidents :=
        s.declaredAccidents.insert driverAccidentKey (vehicleId, vehicleAccidentCount) }
  let nextCount := count + 1
  -- the counter is read at the driver's id and written at the vehicle's
  modifyStorage fun s =>
    { s with declaredAccidentsCount := s.declaredAccidentsCount.insert vehicleId nextCount }
  depositEvent (.simInsuranceAccident
    (.accidentStored driverId count vehicleId vehicleAccidentCount))
  let para : ParaId := 2000
  match ← sendXcm router (dataRequest vehicleId vehicleAccidentCount) with
  | .ok () =>
    depositEvent (.simInsuranceAccident (.requestData para vehicleId vehicleAccidentCount))
  | .error e =>
    depositEvent (.simInsuranceAccident (.errorRequestData para e))
    throw (.other "ErrorRequestData")

def receiveData (origin : Origin AccountId) (vehicleId : AccountId) (vehicleAccidentCount : UInt32)
    (data : DataHash) : Dispatch AccountId BlockNumber Unit := do
  let originPara ← ensureSiblingPara origin
  depositEvent (.simInsuranceAccident
    (.receiveData originPara vehicleId vehicleAccidentCount data))
  let vehicleAccidentKey :=
    createCompositeKey cfg [cfg.encode vehicleId, toLeBytes vehicleAccidentCount]
  ensure (!(← storage).accidentsData.containsKey vehicleAccidentKey)
    (.simInsuranceAccident .accidentDataAlreadyStored)
  modifyStorage fun s => { s with accidentsData := s.accidentsData.insert vehicleAccidentKey data }
  depositEvent (.simInsuranceAccident (.accidentDataStored vehicleId vehicleAccidentCount data))

end SimInsuranceAccident

end SIM.Impl
