import Mathlib
import SimMultichain.Framework.Machine
import SimMultichain.Impl.Ethereum

/-!
# The VehicleManagement contract

The use case of the Renault pallets as a Solidity contract: its state, its
functions, and the contract as a machine over transactions. A function runs on a
context and stops at the first failed `require`; the transaction then undoes what
it did and leaves no event.

`keysUsed` lists the vehicle and count whose key a transaction computes, and
`reports` reads the successful reports of a vehicle off a history.
-/

namespace SIM.Impl.VehicleManagement

open Ethereum
open Body (ensure)
open Function (update)

structure Vehicle where
  factoryId : Address
  creationBlock : Uint256
  deriving DecidableEq

/-- The state variables. A mapping holds zero where nothing was written. -/
structure State where
  admin : Address
  factories : Address → Uint256
  vehicles : Address → Vehicle
  vehicleStatus : Address → Bool
  accidents : Bytes32 → Bytes32
  accidentCount : Address → Uint256

inductive Event where
  | factoryStored (factoryId origin : Address)
  | vehicleStored (vehicleId origin : Address)
  | vehicleInitialized (vehicleId : Address)
  | accidentStored (dataHash : Bytes32) (vehicleId : Address) (count : Uint256)
  deriving DecidableEq

/-- What a function runs on: the state and the events it has emitted. -/
structure Context where
  state : State
  events : List Event

abbrev Contract := Body Context Revert

def state : Contract State := return (← get).state

def modifyState (f : State → State) : Contract Unit :=
  modify fun c => { c with state := f c.state }

def emit (event : Event) : Contract Unit := modify fun c => { c with events := c.events ++ [event] }

def require (cond : Bool) (message : String) : Contract Unit := ensure cond (.reason message)

/-- `x + 1` in checked arithmetic. -/
def increment (x : Uint256) : Contract Uint256 := do
  ensure (x.toNat + 1 < 2 ^ 256) (.panic 0x11)
  return x + 1

/-- The constructor. -/
def deploy (sender : Address) : State :=
  ⟨sender, fun _ => 0, fun _ => ⟨0, 0⟩, fun _ => false, fun _ => 0, fun _ => 0⟩

/-! ## Functions -/

section Functions

variable (keccak256 : List UInt8 → Bytes32) (msg : Msg)

def onlyAdmin : Contract Unit := do
  require (msg.sender = (← state).admin) "Only admin can perform this action."

def createFactory (factoryId : Address) : Contract Unit := do
  onlyAdmin msg
  require ((← state).factories factoryId = 0) "Factory already stored."
  modifyState fun s => { s with factories := update s.factories factoryId msg.blockNumber }
  emit (.factoryStored factoryId msg.sender)

def createVehicle (vehicleId : Address) : Contract Unit := do
  require (msg.sender = (← state).admin ∨ (← state).factories msg.sender ≠ 0)
    "Only factories can create vehicles."
  require (((← state).vehicles vehicleId).factoryId = 0) "Vehicle already stored."
  modifyState fun s =>
    { s with vehicles := update s.vehicles vehicleId ⟨msg.sender, msg.blockNumber⟩ }
  emit (.vehicleStored vehicleId msg.sender)

def initVehicle (vehicleId : Address) : Contract Unit := do
  require (((← state).vehicles vehicleId).factoryId ≠ 0) "Unknown vehicle."
  require (msg.sender = ((← state).vehicles vehicleId).factoryId) "Vehicle does not match origin."
  modifyState fun s => { s with vehicleStatus := update s.vehicleStatus vehicleId true }
  emit (.vehicleInitialized vehicleId)

def reportAccident (vehicleId : Address) (dataHash : Bytes32) : Contract Unit := do
  require (((← state).vehicles vehicleId).factoryId ≠ 0) "Vehicle is not registered."
  require ((← state).vehicleStatus vehicleId) "Vehicle is not active."
  let accidentKey := keccak256 (encodePacked vehicleId ((← state).accidentCount vehicleId))
  require ((← state).accidents accidentKey = 0)
    "Accident already stored for this vehicle and count."
  modifyState fun s => { s with accidents := update s.accidents accidentKey dataHash }
  let count ← increment ((← state).accidentCount vehicleId)
  modifyState fun s => { s with accidentCount := update s.accidentCount vehicleId count }
  emit (.accidentStored dataHash vehicleId ((← state).accidentCount vehicleId))

def changeAdmin (newAdmin : Address) : Contract Unit := do
  onlyAdmin msg
  modifyState fun s => { s with admin := newAdmin }

end Functions

/-! ## Views -/

def isVehicle (s : State) (vehicleId : Address) : Bool :=
  (s.vehicles vehicleId).factoryId ≠ 0 && s.vehicleStatus vehicleId

def getAccidentCount (s : State) (vehicleId : Address) : Uint256 := s.accidentCount vehicleId

def getAccidentData (keccak256 : List UInt8 → Bytes32) (s : State) (vehicleId : Address)
    (count : Uint256) : Bytes32 :=
  let accidentKey := keccak256 (encodePacked vehicleId count)
  s.accidents accidentKey

/-! ## Transactions -/

inductive Call where
  | createFactory (factoryId : Address)
  | createVehicle (vehicleId : Address)
  | initVehicle (vehicleId : Address)
  | reportAccident (vehicleId : Address) (dataHash : Bytes32)
  | changeAdmin (newAdmin : Address)
  deriving DecidableEq

structure Transaction where
  msg : Msg
  call : Call
  deriving DecidableEq

section Contract

variable (keccak256 : List UInt8 → Bytes32)

/-- The function a transaction calls. -/
def Transaction.body (tx : Transaction) : Contract Unit :=
  match tx.call with
  | .createFactory f => createFactory tx.msg f
  | .createVehicle v => createVehicle tx.msg v
  | .initVehicle v => initVehicle tx.msg v
  | .reportAccident v d => reportAccident keccak256 v d
  | .changeAdmin a => changeAdmin tx.msg a

/-- What is left of a call made in state `s`: its events, or the state as it was. -/
def settle (s : State) : Except Revert Unit × Context → State × Except Revert (List Event)
  | (.ok (), c) => (c.state, .ok c.events)
  | (.error e, _) => (s, .error e)

/-- The contract. -/
def contract : Machine State Transaction (Except Revert (List Event)) where
  step s tx := settle s ((tx.body keccak256).exec ⟨s, []⟩)

end Contract

/-! ## Histories -/

/-- A transaction, as the contract's history records it. -/
abbrev TxEntry := Entry State Transaction (Except Revert (List Event))

/-- A transaction that did not revert. -/
def TxEntry.successful (e : TxEntry) : Option (Address × Call) :=
  match e.output with
  | .ok _ => some (e.input.msg.sender, e.input.call)
  | .error _ => none

/-- The vehicle and count whose key a transaction computes. -/
def keysUsed (s : State) (tx : Transaction) : List (Address × Uint256) :=
  match tx.call with
  | .reportAccident v _ => if isVehicle s v then [(v, s.accidentCount v)] else []
  | _ => []

/-- The keys used along a history. -/
def usedIn (h : List TxEntry) : List (Address × Uint256) :=
  h.flatMap fun e => keysUsed e.before e.input

/-- The data hash of a step that is a successful report for a vehicle. -/
def reportOf (v : Address) (e : TxEntry) : Option Bytes32 :=
  match e.successful with
  | some (_, .reportAccident w d) => if w = v then some d else none
  | _ => none

/-- The data hashes of the successful reports for a vehicle, oldest first. -/
def reports (v : Address) (h : List TxEntry) : List Bytes32 := h.filterMap (reportOf v)

/-! Accounts of the concrete runs: who deploys the contract, a factory and its vehicle. -/

def owner : Address := 0xa1
def factory : Address := 0xfa
def car : Address := 0xca

end SIM.Impl.VehicleManagement
