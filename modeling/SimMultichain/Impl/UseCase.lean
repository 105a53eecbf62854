import SimMultichain.Impl.Chain
import SimMultichain.Impl.VehicleManagement
import SimMultichain.Spec.UseCase

/-!
# The use case on both platforms

How the commands of the use case are given to the Renault pallets, as calls of
their accounts, and to the contract, as transactions. The pallets take Root for
the opening of a factory and the vehicle itself for the rest; the contract takes
its admin, the vehicle's factory, and anyone for a report.
-/

namespace SIM.Impl

open Ethereum (Address Uint256 Bytes32)
open SIM.Spec (Command)

variable {A D AccountId BlockNumber : Type}

/-- The accounts and the data of the use case, as the two platforms write them. -/
structure Encoding (A D AccountId : Type) where
  account : A → AccountId
  address : A → Address
  dataHash : D → DataHash
  bytes32 : D → Bytes32
  account_inj : Function.Injective account
  address_inj : Function.Injective address

/-- A command with the blocks it is put in, and who sends the transaction where the command leaves
it open. -/
structure Turn (A D BlockNumber : Type) where
  command : Command A D
  paraBlock : BlockNumber
  ethBlock : Uint256
  sender : Address

namespace Encoding

variable (enc : Encoding A D AccountId)

/-! ## Pallets -/

def origin : Command A D → Origin AccountId
  | .createFactory _ => .root
  | .createVehicle f _ => .signed (enc.account f)
  | .initVehicle v => .signed (enc.account v)
  | .reportAccident v _ => .signed (enc.account v)

def call : Command A D → Call AccountId
  | .createFactory f => .renault (.createFactory (enc.account f))
  | .createVehicle _ v => .renault (.createVehicle (enc.account v))
  | .initVehicle v => .renault (.initVehicle (enc.account v))
  | .reportAccident _ d => .renault (.reportAccident (enc.dataHash d))

/-- The call of a command. -/
def input (router : SendXcm AccountId) (c : Command A D) : Input AccountId BlockNumber :=
  .call router (enc.origin c) (enc.call c)

/-- A turn starts its block and makes its call. -/
def inputs (router : SendXcm AccountId) (ts : List (Turn A D BlockNumber)) :
    List (Input AccountId BlockNumber) :=
  ts.flatMap fun t => [.newBlock t.paraBlock, enc.input router t.command]

/-! ## Contract -/

/-- The transaction of a turn, in the contract's state `s`. -/
def transaction (s : VehicleManagement.State) (t : Turn A D BlockNumber) :
    VehicleManagement.Transaction :=
  match t.command with
  | .createFactory f => ⟨⟨s.admin, t.ethBlock⟩, .createFactory (enc.address f)⟩
  | .createVehicle f v => ⟨⟨enc.address f, t.ethBlock⟩, .createVehicle (enc.address v)⟩
  | .initVehicle v =>
    let factoryId := (s.vehicles (enc.address v)).factoryId
    ⟨⟨if factoryId = 0 then t.sender else factoryId, t.ethBlock⟩, .initVehicle (enc.address v)⟩
  | .reportAccident v d =>
    ⟨⟨t.sender, t.ethBlock⟩, .reportAccident (enc.address v) (enc.bytes32 d)⟩

/-- The transactions of the turns, from the state `s` on. -/
def transactions (keccak256 : List UInt8 → Bytes32) :
    VehicleManagement.State → List (Turn A D BlockNumber) → List VehicleManagement.Transaction
  | _, [] => []
  | s, t :: ts =>
    let tx := enc.transaction s t
    tx :: transactions keccak256 ((VehicleManagement.contract keccak256).next s tx) ts

end Encoding

end SIM.Impl
