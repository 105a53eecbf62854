import Mathlib
import SimMultichain.Framework.StorageMap

/-!
# The runtime the pallets are written against

The parts of FRAME, XCM and the codec that the four `sim` pallets use: origins,
errors, the messages handed to the XCM sender, and the composite keys both
accident pallets hash their entries under.

`Config` holds what is not decided by the pallets: the SCALE encoding of
account ids (one width, distinct ids encoded differently), the SHA-256 function,
and whether the dispatcher rolls the storage back when a call returns an error.
-/

namespace SIM.Impl

/-- `[u8; 32]` -/
abbrev Hash := Vector UInt8 32

/-- `[u8; 36]`, the IPFS id or data hash of an accident. -/
abbrev DataHash := Vector UInt8 36

abbrev ParaId := UInt32

/-! ## Origins -/

/-- `cumulus_pallet_xcm::Origin` -/
inductive CumulusOrigin where
  | relay
  | siblingPara (id : ParaId)
  deriving DecidableEq

/-- The runtime's `Origin`: `RawOrigin` of the system pallet and the two XCM pallets' origins. -/
inductive Origin (AccountId : Type) where
  | root
  | signed (who : AccountId)
  | none
  | cumulusXcm (origin : CumulusOrigin)
  | polkadotXcm
  deriving DecidableEq

/-! ## Outgoing XCM

The pallets mirror the runtime's calls in enums of their own
(`ParaChainCall`), one in each accident pallet; the two are put together here. -/

inductive PalletSimRenaultAccidentCall (AccountId : Type) where
  | requestData (vehicleId : AccountId) (vehicleAccidentCount : UInt32)
  deriving DecidableEq

inductive PalletSimInsuranceAccidentCall (AccountId : Type) where
  | receiveData (vehicleId : AccountId) (vehicleAccidentCount : UInt32) (data : DataHash)
  deriving DecidableEq

inductive ParaChainCall (AccountId : Type) where
  | palletSimRenaultAccident (call : PalletSimRenaultAccidentCall AccountId)
  | palletSimInsuranceAccident (call : PalletSimInsuranceAccidentCall AccountId)
  deriving DecidableEq

inductive OriginKind where
  | native
  | sovereignAccount
  | superuser
  | xcm
  deriving DecidableEq

/-- `Xcm(vec![Transact { .. }])`, sent to `(1, Junction::Parachain(dest))`. -/
structure Transact (AccountId : Type) where
  dest : ParaId
  originType : OriginKind
  requireWeightAtMost : UInt64
  call : ParaChainCall AccountId
  deriving DecidableEq

inductive SendError (AccountId : Type) where
  | cannotReachDestination (message : Transact AccountId)
  | transport (text : String)
  | unroutable
  | destinationUnsupported
  | exceedsMaxMessageSize
  deriving DecidableEq

/-- `SendXcm::send_xcm`: what the router answers to a message. -/
abbrev SendXcm (AccountId : Type) := Transact AccountId → Except (SendError AccountId) Unit

/-! ## Keys -/

structure Config (AccountId : Type) where
  encode : AccountId → List UInt8
  width : Nat
  length_encode : ∀ a, (encode a).length = width
  encode_inj : Function.Injective encode
  sha256 : List UInt8 → Hash
  transactional : Bool

/-- `u32::to_le_bytes` -/
def toLeBytes (n : UInt32) : List UInt8 :=
  [n.toUInt8, (n >>> 8).toUInt8, (n >>> 16).toUInt8, (n >>> 24).toUInt8]

namespace Config

variable {AccountId : Type} (cfg : Config AccountId)

/-- The bytes hashed for the parts of `a` and `count`. -/
def preimage (a : AccountId) (count : UInt32) : List UInt8 := cfg.encode a ++ toLeBytes count

/-- The composite key of `a` and `count`. -/
def key (a : AccountId) (count : UInt32) : Hash := cfg.sha256 (cfg.preimage a count)

/-- SHA-256 has no collision on the preimages of the keys in `ks`. -/
def CollisionFree (ks : List (AccountId × UInt32)) : Prop :=
  Set.InjOn cfg.sha256 {m | ∃ p ∈ ks, m = cfg.preimage p.1 p.2}

theorem toLeBytes_inj : Function.Injective toLeBytes := by
  intro m n h
  simp only [toLeBytes, List.cons.injEq, and_true] at h
  obtain ⟨h0, h1, h2, h3⟩ := h
  apply UInt32.toNat_inj.mp
  have e0 := congrArg UInt8.toNat h0
  have e1 := congrArg UInt8.toNat h1
  have e2 := congrArg UInt8.toNat h2
  have e3 := congrArg UInt8.toNat h3
  simp only [UInt32.toNat_toUInt8, UInt32.toNat_shiftRight, Nat.shiftRight_eq_div_pow,
    UInt32.toNat_ofNat, Nat.reduceMod, Nat.reducePow] at e0 e1 e2 e3
  have hm := m.toNat_lt
  have hn := n.toNat_lt
  omega

/-- The two parts are concatenated without a separator, and their widths keep them apart. -/
theorem preimage_inj {a b : AccountId} {m n : UInt32} (h : cfg.preimage a m = cfg.preimage b n) :
    a = b ∧ m = n := by
  obtain ⟨ha, hm⟩ := List.append_inj h (by rw [cfg.length_encode, cfg.length_encode])
  exact ⟨cfg.encode_inj ha, toLeBytes_inj hm⟩

variable {cfg}

theorem CollisionFree.injOn {ks : List (AccountId × UInt32)} (h : cfg.CollisionFree ks) :
    Set.InjOn (fun p : AccountId × UInt32 => cfg.key p.1 p.2) {p | p ∈ ks} := by
  intro p hp q hq hpq
  obtain ⟨h1, h2⟩ := cfg.preimage_inj (h ⟨p, hp, rfl⟩ ⟨q, hq, rfl⟩ hpq)
  exact Prod.ext h1 h2

theorem CollisionFree.mono {ks ks' : List (AccountId × UInt32)} (h : cfg.CollisionFree ks')
    (hk : ks ⊆ ks') : cfg.CollisionFree ks := by
  refine Set.InjOn.mono ?_ h
  rintro _ ⟨p, hp, rfl⟩
  exact ⟨p, hk hp, rfl⟩

/-- Two keys in use are equal only for the same account and count. -/
theorem CollisionFree.key_inj {ks : List (AccountId × UInt32)} (h : cfg.CollisionFree ks)
    {a b : AccountId} {m n : UInt32} (ha : (a, m) ∈ ks) (hb : (b, n) ∈ ks)
    (hk : cfg.key a m = cfg.key b n) : a = b ∧ m = n := by
  have := h.injOn ha hb hk
  simpa only [Prod.mk.injEq] using this

/-- Distinct keys, checked pair by pair. -/
theorem CollisionFree.of_pairs {ks : List (AccountId × UInt32)}
    (h : ∀ p ∈ ks, ∀ q ∈ ks, cfg.key p.1 p.2 = cfg.key q.1 q.2 → p = q) : cfg.CollisionFree ks := by
  rintro _ ⟨p, hp, rfl⟩ _ ⟨q, hq, rfl⟩ hpq
  rw [h p hp q hq hpq]

end Config

end SIM.Impl
