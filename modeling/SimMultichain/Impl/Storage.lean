import SimMultichain.Framework.Body
import SimMultichain.Impl.Frame

/-!
# The data model of the four pallets

The storage maps, events and errors of `sim_renault`, `sim_renault_accident`,
`sim_insurance` and `sim_insurance_accident`, and the monad their calls are
written in. A call body (`Dispatch`) keeps what it wrote when it fails: it runs
on a context and returns a result and the context it leaves, and rolling back is
left to the dispatcher (`Impl.Chain`).
-/

namespace SIM.Impl

/-! ## sim_renault -/

namespace SimRenault

inductive Error where
  | factoryAlreadyStored
  | unknownFactory
  | unknownVehicle
  | vehicleAlreadyStored
  | vehicleNotMatchingOrigin
  deriving DecidableEq

inductive Event (AccountId : Type) where
  | factoryStored (factoryId : AccountId)
  | vehicleStored (vehicleId who : AccountId)
  | vehicleInitialized (vehicleId : AccountId)
  deriving DecidableEq

end SimRenault

/-! ## sim_renault_accident -/

namespace SimRenaultAccident

inductive GetAccidentDataError where
  | getVehicleAccidentDataBadCount
  | getVehicleAccidentDataNotExist
  deriving DecidableEq

inductive Error where
  | unknownVehicle
  | accidentAlreadyStored
  | vehicleNotMatchingOrigin
  | vehicleStatusError
  | ipfsStatusError
  deriving DecidableEq

inductive Event (AccountId : Type) where
  | accidentStored (vehicleId : AccountId) (count : UInt32) (dataHash : DataHash)
  | receiveVehicleDataRequest (para : ParaId) (vehicleId : AccountId) (count : UInt32)
  | sendVehicleDataRequestReply (para : ParaId) (vehicleStatus : Bool)
  | errorSendVehicleDataRequestReply (para : ParaId) (error : SendError AccountId)
  | newIpfsStatus (ipfsId : DataHash) (status : UInt8)
  deriving DecidableEq

end SimRenaultAccident

/-! ## sim_insurance -/

namespace SimInsurance

inductive ContractPlan where
  | premium
  | standard
  | minimal
  deriving DecidableEq

structure DriverProfile (AccountId : Type) where
  name : List UInt8
  age : UInt8
  licenceCode : List UInt8
  contractStart : Int64
  contractEnd : Int64
  contractPlan : ContractPlan
  vehicleId : AccountId
  deriving DecidableEq

inductive Event (AccountId BlockNumber : Type) where
  | newSignUp (who : AccountId) (subscription : DriverProfile AccountId × BlockNumber)
  deriving DecidableEq

end SimInsurance

/-! ## sim_insurance_accident -/

namespace SimInsuranceAccident

inductive Error where
  | unknownDriver
  | accidentAlreadyStored
  | accidentDataAlreadyStored
  | driverNotMatchingOrigin
  | errorSendXcm
  deriving DecidableEq

inductive Event (AccountId : Type) where
  | accidentStored (driverId : AccountId) (count : UInt32) (vehicleId : AccountId)
      (vehicleAccidentCount : UInt32)
  | requestData (para : ParaId) (vehicleId : AccountId) (count : UInt32)
  | errorRequestData (para : ParaId) (error : SendError AccountId)
  | receiveData (para : ParaId) (vehicleId : AccountId) (count : UInt32) (data : DataHash)
  | accidentDataStored (vehicleId : AccountId) (count : UInt32) (data : DataHash)
  deriving DecidableEq

end SimInsuranceAccident

/-! ## A chain's storage -/

inductive DispatchError where
  | badOrigin
  | other (text : String)
  | simRenault (error : SimRenault.Error)
  | simRenaultAccident (error : SimRenaultAccident.Error)
  | simInsuranceAccident (error : SimInsuranceAccident.Error)
  deriving DecidableEq

inductive Event (AccountId BlockNumber : Type) where
  | simRenault (event : SimRenault.Event AccountId)
  | simRenaultAccident (event : SimRenaultAccident.Event AccountId)
  | simInsurance (event : SimInsurance.Event AccountId BlockNumber)
  | simInsuranceAccident (event : SimInsuranceAccident.Event AccountId)
  deriving DecidableEq

/-- The storage maps of the four pallets, and the system pallet's block number. -/
structure Storage (AccountId BlockNumber : Type) where
  blockNumber : BlockNumber
  factories : StorageMap AccountId BlockNumber
  vehicles : StorageMap AccountId (AccountId × BlockNumber)
  vehiclesStatus : StorageMap AccountId Bool
  accidents : StorageMap Hash DataHash
  accidentCount : StorageMap AccountId UInt32
  ipfsStatus : StorageMap DataHash UInt8
  subscriptions : StorageMap AccountId (SimInsurance.DriverProfile AccountId × BlockNumber)
  declaredAccidents : StorageMap Hash (AccountId × UInt32)
  accidentsData : StorageMap Hash DataHash
  declaredAccidentsCount : StorageMap AccountId UInt32

/-- What a call body runs on: the storage, the events it has deposited and the messages it has
handed to the XCM sender. -/
structure Context (AccountId BlockNumber : Type) where
  storage : Storage AccountId BlockNumber
  events : List (Event AccountId BlockNumber)
  sent : List (Transact AccountId)

/-! ## Call bodies -/

/-- A call body. An error leaves the context as it is at that point. -/
abbrev Dispatch (AccountId BlockNumber : Type) :=
  Body (Context AccountId BlockNumber) DispatchError

section

variable {AccountId BlockNumber : Type}

def ensureSigned : Origin AccountId → Dispatch AccountId BlockNumber AccountId
  | .signed who => pure who
  | _ => throw .badOrigin

def ensureRoot : Origin AccountId → Dispatch AccountId BlockNumber Unit
  | .root => pure ()
  | _ => throw .badOrigin

/-- `cumulus_pallet_xcm::ensure_sibling_para` -/
def ensureSiblingPara : Origin AccountId → Dispatch AccountId BlockNumber ParaId
  | .cumulusXcm (.siblingPara id) => pure id
  | _ => throw .badOrigin

def storage : Dispatch AccountId BlockNumber (Storage AccountId BlockNumber) :=
  return (← get).storage

def modifyStorage (f : Storage AccountId BlockNumber → Storage AccountId BlockNumber) :
    Dispatch AccountId BlockNumber Unit :=
  modify fun c => { c with storage := f c.storage }

def depositEvent (event : Event AccountId BlockNumber) : Dispatch AccountId BlockNumber Unit :=
  modify fun c => { c with events := c.events ++ [event] }

/-- Hand a message to the router: an accepted one is on its way. -/
def sendXcm (router : SendXcm AccountId) (message : Transact AccountId) :
    Dispatch AccountId BlockNumber (Except (SendError AccountId) Unit) := do
  match router message with
  | .ok () =>
    modify fun c => { c with sent := c.sent ++ [message] }
    return .ok ()
  | .error e => return .error e

end

end SIM.Impl
