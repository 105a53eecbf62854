import SimMultichain.Impl.CallCodec
import SimMultichain.Impl.Runtime

/-!
# The mirrored calls are the runtime's calls

The two accident pallets never see each other's `Call`: what they send is encoded
by enums of their own. Of the runtime's pallets only `sim_renault_accident` reads
a `request_data` and only `sim_insurance_accident` a `receive_data`, each from the
bytes that the mirror on the other side has for it (`decode_requestData`,
`decode_receiveData`).
-/

namespace SIM.Proof

open SIM.Impl

variable {AccountId Other : Type} (account : Codec AccountId)
  (profile : Reader (SimInsurance.DriverProfile AccountId)) (other : UInt8 → Reader Other)
  {bs rest : List UInt8} {v : AccountId} {k : UInt32} {d : DataHash}

/-! ## Pallets -/

theorem simRenault_decode_requestData :
    SimRenault.decodeCall account bs ≠ some (.requestData v k, rest) := by
  cases bs with
  | nil => simp [SimRenault.decodeCall]
  | cons i bs =>
    rw [SimRenault.decodeCall, ne_eq, Reader.variants_eq_some (by simp)]
    simp [or_and_right, exists_or, Codec.map_eq_some]

theorem simRenaultAccident_decode_requestData :
    SimRenaultAccident.decodeCall account bs = some (.requestData v k, rest) ↔
      bs = (PalletSimRenaultAccidentCall.requestData v k).encode account ++ rest := by
  cases bs with
  | nil => simp [SimRenaultAccident.decodeCall, PalletSimRenaultAccidentCall.encode]
  | cons i bs =>
    rw [SimRenaultAccident.decodeCall, Reader.variants_eq_some (by simp)]
    simp [or_and_right, exists_or, Codec.map_eq_some, PalletSimRenaultAccidentCall.encode]

theorem simInsurance_decode_receiveData :
    SimInsurance.decodeCall profile bs ≠ some (.receiveData v k d, rest) := by
  cases bs with
  | nil => simp [SimInsurance.decodeCall]
  | cons i bs =>
    rw [SimInsurance.decodeCall, ne_eq, Reader.variants_eq_some (by simp)]
    simp [Reader.map_eq_some]

theorem simInsuranceAccident_decode_receiveData :
    SimInsuranceAccident.decodeCall account bs = some (.receiveData v k d, rest) ↔
      bs = (PalletSimInsuranceAccidentCall.receiveData v k d).encode account ++ rest := by
  cases bs with
  | nil => simp [SimInsuranceAccident.decodeCall, PalletSimInsuranceAccidentCall.encode]
  | cons i bs =>
    rw [SimInsuranceAccident.decodeCall, Reader.variants_eq_some (by simp)]
    simp [or_and_right, exists_or, Codec.map_eq_some, PalletSimInsuranceAccidentCall.encode]

/-! ## Runtime -/

theorem decode_requestData :
    RuntimeCall.decode account profile other bs = some (.sim (.renault (.requestData v k)), rest) ↔
      bs = (ParaChainCall.palletSimRenaultAccident (.requestData v k)).encode account ++ rest := by
  cases bs with
  | nil => simp [RuntimeCall.decode, ParaChainCall.encode]
  | cons i bs =>
    rw [RuntimeCall.decode, Reader.variants_eq_some (by simp)]
    simp [or_and_right, exists_or, Reader.map_eq_some, simRenault_decode_requestData,
      simRenaultAccident_decode_requestData, ParaChainCall.encode]

theorem decode_receiveData :
    RuntimeCall.decode account profile other bs = some (.sim (.insurer (.receiveData v k d)), rest) ↔
      bs = (ParaChainCall.palletSimInsuranceAccident (.receiveData v k d)).encode account ++ rest := by
  cases bs with
  | nil => simp [RuntimeCall.decode, ParaChainCall.encode]
  | cons i bs =>
    rw [RuntimeCall.decode, Reader.variants_eq_some (by simp)]
    simp [or_and_right, exists_or, Reader.map_eq_some, simInsurance_decode_receiveData,
      simInsuranceAccident_decode_receiveData, ParaChainCall.encode]

/-- What is dispatched for a message in flight is what the runtime reads from its bytes. -/
theorem decode_encode (call : ParaChainCall AccountId) :
    RuntimeCall.decode account profile other (call.encode account) = some (.sim call.toCall, []) := by
  rcases call with ⟨v, k⟩ | ⟨v, k, d⟩
  · rw [ParaChainCall.toCall, decode_requestData, List.append_nil]
  · rw [ParaChainCall.toCall, decode_receiveData, List.append_nil]

/-- The runtime reads a mirror's bytes as the call with the same arguments and leaves none over,
and bytes that it reads so are the mirror's. -/
theorem mirrors_agree (v : AccountId) (k : UInt32) (d : DataHash) :
    RuntimeCall.decode account profile other
        ((ParaChainCall.palletSimRenaultAccident (.requestData v k)).encode account) =
      some (.sim (.renault (.requestData v k)), []) ∧
    RuntimeCall.decode account profile other
        ((ParaChainCall.palletSimInsuranceAccident (.receiveData v k d)).encode account) =
      some (.sim (.insurer (.receiveData v k d)), []) ∧
    ∀ bs,
      (RuntimeCall.decode account profile other bs = some (.sim (.renault (.requestData v k)), []) →
        bs = (ParaChainCall.palletSimRenaultAccident (.requestData v k)).encode account) ∧
      (RuntimeCall.decode account profile other bs = some (.sim (.insurer (.receiveData v k d)), []) →
        bs = (ParaChainCall.palletSimInsuranceAccident (.receiveData v k d)).encode account) := by
  refine ⟨decode_encode account profile other (.palletSimRenaultAccident (.requestData v k)),
    decode_encode account profile other (.palletSimInsuranceAccident (.receiveData v k d)),
    fun bs => ⟨fun h => ?_, fun h => ?_⟩⟩
  · rw [decode_requestData, List.append_nil] at h; exact h
  · rw [decode_receiveData, List.append_nil] at h; exact h

/-- With `AccountId32` a request is the two indices, the account and the count. -/
example : (ParaChainCall.palletSimRenaultAccident (.requestData alice 258)).encode (Codec.array 32) =
    [101, 1] ++ List.replicate 32 0xa1 ++ [2, 1, 0, 0] := by decide

end SIM.Proof
