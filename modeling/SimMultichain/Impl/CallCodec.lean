import SimMultichain.Framework.Codec
import SimMultichain.Impl.System

/-!
# Calls as bytes

The bytes of the mirrored calls that the two accident pallets put into a
`Transact`, and the reader of the runtime's `Call`. Both sides are enums of
enums, one index byte per level: the mirrors fix theirs by `#[codec(index)]`, the
runtime has the pallet indices of `construct_runtime!` and numbers a pallet's calls
in the order of their declaration. Fields follow in order.

The readers of a driver's profile and of the calls of the other pallets are
parameters.
-/

namespace SIM.Impl

variable {AccountId Other : Type}

/-- The runtime's `Call`: one of the four pallets, or of another one. -/
inductive RuntimeCall (AccountId Other : Type) where
  | sim (call : Call AccountId)
  | other (pallet : UInt8) (call : Other)
  deriving DecidableEq

section

variable (account : Codec AccountId)

/-! ## Mirrors -/

/-- The derived `Encode` of the mirror in `sim_insurance_accident`. -/
def PalletSimRenaultAccidentCall.encode : PalletSimRenaultAccidentCall AccountId → List UInt8
  | .requestData vehicleId vehicleAccidentCount =>
    1 :: (account.encode vehicleId ++ Codec.u32.encode vehicleAccidentCount)

/-- The derived `Encode` of the mirror in `sim_renault_accident`. -/
def PalletSimInsuranceAccidentCall.encode : PalletSimInsuranceAccidentCall AccountId → List UInt8
  | .receiveData vehicleId vehicleAccidentCount data =>
    1 :: (account.encode vehicleId ++ Codec.u32.encode vehicleAccidentCount ++
      (Codec.array 36).encode data)

def ParaChainCall.encode : ParaChainCall AccountId → List UInt8
  | .palletSimRenaultAccident call => 101 :: call.encode account
  | .palletSimInsuranceAccident call => 103 :: call.encode account

/-! ## Pallets -/

def SimRenault.decodeCall : Reader (RenaultCall AccountId) := Reader.variants
  [(0, account.decode.map .createFactory),
    (1, account.decode.map .createVehicle),
    (2, account.decode.map .initVehicle)]
  fun _ => .fail

def SimRenaultAccident.decodeCall : Reader (RenaultCall AccountId) := Reader.variants
  [(0, (Codec.array 36).decode.map .reportAccident),
    (1, (account.pair Codec.u32).decode.map fun p => .requestData p.1 p.2),
    (2, ((Codec.array 36).pair Codec.byte).decode.map fun p => .setIpfsStatus p.1 p.2)]
  fun _ => .fail

def SimInsurance.decodeCall (profile : Reader (SimInsurance.DriverProfile AccountId)) :
    Reader (InsurerCall AccountId) := Reader.variants
  [(0, profile.map .signUp)]
  fun _ => .fail

def SimInsuranceAccident.decodeCall : Reader (InsurerCall AccountId) := Reader.variants
  [(0, (account.pair Codec.u32).decode.map fun p => .reportAccident p.1 p.2),
    (1, ((account.pair Codec.u32).pair (Codec.array 36)).decode.map fun p =>
      .receiveData p.1.1 p.1.2 p.2)]
  fun _ => .fail

/-! ## Runtime -/

/-- The derived `Decode` of the runtime's `Call`. -/
def RuntimeCall.decode (profile : Reader (SimInsurance.DriverProfile AccountId))
    (other : UInt8 → Reader Other) : Reader (RuntimeCall AccountId Other) := Reader.variants
  [(100, (SimRenault.decodeCall account).map fun c => .sim (.renault c)),
    (101, (SimRenaultAccident.decodeCall account).map fun c => .sim (.renault c)),
    (102, (SimInsurance.decodeCall profile).map fun c => .sim (.insurer c)),
    (103, (SimInsuranceAccident.decodeCall account).map fun c => .sim (.insurer c))]
  fun i => (other i).map (.other i)

end

end SIM.Impl
