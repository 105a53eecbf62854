import SimMultichain.Proof.ContractUseCase
import SimMultichain.Proof.PalletsUseCase

/-!
# The two implementations agree

The pallets and the contract both refine `Spec.UseCase`, so they accept the same
commands and hold the same registrations and reports (`Agree`) after every prefix
of the same turns, as long as the turns are `Admissible`. What is missing is a
missing entry on the pallets and a zero in the contract, and accidents are
counted from one there and from zero here.
-/

namespace SIM.Proof

open SIM.Impl
open SIM.Impl.Ethereum (Address Bytes32)
open SIM.Spec (Command UseCase)
open Contract (Proper ContractHolds Consistent contractRun contractTrace contractEntry)

variable {A D AccountId BlockNumber : Type} [DecidableEq AccountId] (cfg : Config AccountId)
  (enc : Encoding A D AccountId) (keccak256 : List UInt8 → Bytes32)

/-- What the pallets hold in the storage `s`, with the history `h`, and the contract in the state
`t`, with the history `k`, is the same. -/
structure Agree (h : List (ChainEntry AccountId BlockNumber)) (s : Storage AccountId BlockNumber)
    (k : List VehicleManagement.TxEntry) (t : VehicleManagement.State) : Prop where
  factories (f : A) :
    t.factories (enc.address f) ≠ 0 ↔ s.factories.containsKey (enc.account f) = true
  vehicles (v f : A) : enc.address f ≠ 0 → ((t.vehicles (enc.address v)).factoryId = enc.address f ↔
    ∃ b, s.vehicles.get (enc.account v) = some (enc.account f, b))
  unregistered (v : A) : (t.vehicles (enc.address v)).factoryId = 0 ↔
    s.vehicles.get (enc.account v) = none
  isVehicle (v : A) : VehicleManagement.isVehicle t (enc.address v) =
    SimRenault.isVehicle s (enc.account v)
  accidentCount (v : A) : (VehicleManagement.getAccidentCount t (enc.address v)).toNat =
    ((s.accidentCount.get (enc.account v)).getD 0).toNat
  data (v : A) : ∃ ds : List D, reports (enc.account v) h = ds.map enc.dataHash ∧
    VehicleManagement.reports (enc.address v) k = ds.map enc.bytes32 ∧
    (t.accidentCount (enc.address v)).toNat = ds.length ∧
    ∀ i d, ds[i]? = some d →
      SimRenaultAccident.getAccidentData cfg s (enc.account v) (UInt32.ofNat (i + 1)) =
          .ok (enc.dataHash d) ∧
        VehicleManagement.getAccidentData keccak256 t (enc.address v) (BitVec.ofNat 256 i) =
          enc.bytes32 d
  noData (v : A) (i : ℕ) : (t.accidentCount (enc.address v)).toNat ≤ i → i + 1 < 2 ^ 32 →
    cfg.CollisionFree (usedIn h ++ [(enc.account v, UInt32.ofNat i)]) →
    Ethereum.CollisionFree keccak256
      (VehicleManagement.usedIn k ++ [(enc.address v, BitVec.ofNat 256 i)]) →
    SimRenaultAccident.getAccidentData cfg s (enc.account v) (UInt32.ofNat (i + 1)) =
        .error .getVehicleAccidentDataNotExist ∧
      VehicleManagement.getAccidentData keccak256 t (enc.address v) (BitVec.ofNat 256 i) = 0

section Agree

variable {cfg enc keccak256} {u : UseCase A D} {h : List (ChainEntry AccountId BlockNumber)}
  {s : Storage AccountId BlockNumber} {k : List VehicleManagement.TxEntry}
  {t : VehicleManagement.State}

/-- The `k`-th accident, counted from one, is at the index below. -/
theorem ofNat_succ_sub_one (i : ℕ) : UInt32.ofNat (i + 1) - 1 = UInt32.ofNat i := by
  rw [UInt32.ofNat_add]
  exact UInt32.add_sub_cancel _ _

theorem ofNat_succ_ne_zero {i : ℕ} (hi : i + 1 < 2 ^ 32) : UInt32.ofNat (i + 1) ≠ 0 := by
  intro h
  have := congrArg UInt32.toNat h
  rw [ofNat_toNat_of_lt hi] at this
  exact absurd this (Nat.succ_ne_zero i)

/-- Two platforms that hold the same agree. -/
theorem agree_of_holds (hp : PalletsHold enc u h s) (hl : AccidentLedger cfg h s)
    (hc : ContractHolds enc u k t) (hk : Contract.ContractLedger keccak256 k t)
    (hs : Consistent t) (hcf : Ethereum.CollisionFree keccak256 (VehicleManagement.usedIn k))
    (hlt : ∀ v, (reports (enc.account v) h).length < 2 ^ 32) :
    Agree cfg enc keccak256 h s k t := by
  have ht := hk hcf
  have hlen : ∀ v, (t.accidentCount (enc.address v)).toNat = (u.reports v).length := fun v => by
    rw [ht.counted, hc.made v, List.length_map]
  have hlen' : ∀ v, (reports (enc.account v) h).length = (u.reports v).length := fun v => by
    rw [hp.made v, List.length_map]
  refine ⟨fun f => ?_, fun v f hf => ?_, fun v => ?_, fun v => ?_, fun v => ?_, fun v => ?_,
    fun v i hi hi' hcf hkf => ?_⟩
  · rw [hc.factories f, hp.factories f]
  · have hv := hp.vehicles v
    rw [hc.vehicles v]
    cases hu : u.creator v with
    | none =>
      rw [hu, Option.map_none, Option.map_eq_none_iff] at hv
      simp only [hv, Option.map_none, Option.getD_none, reduceCtorEq, exists_false, iff_false]
      exact hf.symm
    | some g =>
      obtain ⟨⟨f', b⟩, hg, rfl⟩ := Option.map_eq_some_iff.mp (hv.trans (congrArg _ hu))
      simp [hg, enc.address_inj.eq_iff, enc.account_inj.eq_iff]
  · have hv := (hc.created_iff v).trans (hp.created_iff v).symm
    rw [← not_iff_not, ← ne_eq, hv, StorageMap.containsKey, Option.isSome_iff_ne_none]
  · rw [hs.isVehicle_eq, Bool.eq_iff_iff, hc.active v, hp.active v]
  · rw [VehicleManagement.getAccidentCount, hlen v, ← hlen' v, hl.represents.count_getD, ofNat_toNat_of_lt (hlt v)]
  · refine ⟨u.reports v, hp.made v, hc.made v, hlen v, fun i d hd => ⟨?_, ?_⟩⟩
    · have hi := (List.getElem?_eq_some_iff.mp hd).1
      have hi' : i + 1 < 2 ^ 32 := lt_of_le_of_lt hi (by rw [← hlen' v]; exact hlt v)
      refine (getAccidentData_eq_ok cfg s).mpr ⟨ofNat_succ_ne_zero hi', ?_⟩
      rw [ofNat_succ_sub_one]
      refine hl.represents.stored ?_
      rw [hp.made v, List.getElem?_map, hd]; rfl
    · refine ht.stored ?_
      rw [hc.made v, List.getElem?_map, hd]; rfl
  · have hne := ofNat_succ_ne_zero hi'
    constructor
    · rw [hl.getAccidentData_eq cfg (enc.account v) hne, ofNat_toNat_of_lt hi', Nat.add_sub_cancel,
        List.getElem?_eq_none (by rw [hlen' v, ← hlen v]; exact hi)]
      · rfl
      · rw [keysQueried, if_neg hne, ofNat_succ_sub_one]; exact hcf
    · have ht' := hk.tabulates keccak256 hkf
      have hget := ht'.get_key hkf.injOn (List.mem_append_right _ List.mem_cons_self)
      have hpow : i < 2 ^ 256 := lt_trans (by omega) (show (2 : ℕ) ^ 32 < 2 ^ 256 by decide)
      rw [BitVec.toNat_ofNat, Nat.mod_eq_of_lt hpow,
        List.getElem?_eq_none (by rw [hc.made v, List.length_map, ← hlen v]; exact hi)] at hget
      exact hget

end Agree

/-! ## Runs -/

section Run

variable (router : SendXcm AccountId) (g : Genesis AccountId BlockNumber) (deployer : Address)

/-- Turns without collisions of either platform's keys, in which no vehicle makes `2³²` reports and
which are as the contract asks for. -/
structure Admissible (ts : List (Turn A D BlockNumber)) : Prop where
  pallets : cfg.CollisionFree (usedIn (palletsTrace cfg enc router g ts))
  contract : Ethereum.CollisionFree keccak256
    (VehicleManagement.usedIn (contractTrace keccak256 enc deployer ts))
  few (v : A) : (reports (enc.account v) (palletsTrace cfg enc router g ts)).length < 2 ^ 32
  proper {ps qs : List (Turn A D BlockNumber)} {t : Turn A D BlockNumber} : ts = ps ++ t :: qs →
    Proper enc (contractRun keccak256 enc deployer ps) t

variable {cfg enc keccak256 router g deployer}

theorem Admissible.dropLast {ts : List (Turn A D BlockNumber)} {t : Turn A D BlockNumber}
    (h : Admissible cfg enc keccak256 router g deployer (ts ++ [t])) :
    Admissible cfg enc keccak256 router g deployer ts where
  pallets := by
    refine h.pallets.mono ?_
    rw [palletsTrace_snoc]
    exact fun p hp => usedIn_subset _ _ (usedIn_subset _ _ hp)
  contract := by
    refine h.contract.mono ?_
    rw [Contract.contractTrace_snoc]
    exact Contract.ContractLedger.usedIn_subset _ _
  few v := by
    have hv := h.few v
    rw [palletsTrace_snoc, reports_append, reports_append, List.length_append,
      List.length_append] at hv
    omega
  proper {ps qs t'} hts := h.proper (show ts ++ [t] = ps ++ t' :: (qs ++ [t]) by rw [hts]; simp)

/-- The first part of admissible turns. -/
theorem Admissible.of_append {ps qs : List (Turn A D BlockNumber)}
    (h : Admissible cfg enc keccak256 router g deployer (ps ++ qs)) :
    Admissible cfg enc keccak256 router g deployer ps := by
  induction qs using List.reverseRecOn with
  | nil => rwa [List.append_nil] at h
  | append_singleton qs t ih =>
    rw [← List.append_assoc] at h
    exact ih h.dropLast

variable [DecidableEq A]

/-- Both platforms hold what the use case does after admissible turns. -/
theorem both_hold (hg : g.initFactoryAndVehicle = none) {ts : List (Turn A D BlockNumber)}
    (h : Admissible cfg enc keccak256 router g deployer ts) :
    let u := UseCase.after (ts.map Turn.command)
    PalletsHold enc u (palletsTrace cfg enc router g ts) (palletsRun cfg enc router g ts) ∧
      ContractHolds enc u (contractTrace keccak256 enc deployer ts)
        (contractRun keccak256 enc deployer ts) := by
  induction ts using List.reverseRecOn with
  | nil => exact ⟨palletsHold_init hg, Contract.contractHolds_init enc deployer⟩
  | append_singleton ts t ih =>
    obtain ⟨hp, hc⟩ := ih h.dropLast
    have hlt : ∀ v, ((UseCase.after (ts.map Turn.command)).reports v).length < 2 ^ 32 := fun v => by
      have hv := h.dropLast.few v
      rwa [hp.made v, List.length_map] at hv
    rw [List.map_append, List.map_singleton, UseCase.after_snoc]
    exact ⟨(hp.turn h.pallets h.few).2, (hc.turn h.contract hlt (h.proper rfl)).2⟩

/-- In every list of admissible turns, the pallets accept a turn's command exactly if the contract
does, and after every first part of the turns the two agree. -/
theorem implementations_agree (hg : g.initFactoryAndVehicle = none)
    {ts : List (Turn A D BlockNumber)}
    (h : Admissible cfg enc keccak256 router g deployer ts) :
    (∀ ps t qs, ts = ps ++ t :: qs →
        (Succeeded (palletsEntry cfg enc router (palletsRun cfg enc router g ps) t) ↔
          (contractEntry keccak256 enc (contractRun keccak256 enc deployer ps) t).successful.isSome)) ∧
      ∀ ps qs, ts = ps ++ qs →
        Agree cfg enc keccak256 (palletsTrace cfg enc router g ps) (palletsRun cfg enc router g ps)
          (contractTrace keccak256 enc deployer ps) (contractRun keccak256 enc deployer ps) := by
  constructor
  · rintro ps t qs rfl
    rw [List.append_cons] at h
    have hps := h.of_append
    obtain ⟨hp, hc⟩ := both_hold hg hps.dropLast
    have hlt : ∀ v, ((UseCase.after (ps.map Turn.command)).reports v).length < 2 ^ 32 := fun v => by
      have hv := hps.dropLast.few v
      rwa [hp.made v, List.length_map] at hv
    exact (hp.turn hps.pallets hps.few).1.trans (hc.turn hps.contract hlt (hps.proper rfl)).1.symm
  · rintro ps qs rfl
    have hps := h.of_append
    obtain ⟨hp, hc⟩ := both_hold hg hps
    exact agree_of_holds hp (accidentLedger_run cfg g _) hc
      (Contract.contractLedger_run keccak256 deployer _)
      (Contract.consistent_run keccak256 deployer _) hps.contract hps.few

end Run

/-- A vehicle (`true`), its factory (`false`), and two accidents. -/
def twoParties : Encoding Bool Bool AccountId32 where
  account a := if a then alice else bob
  address a := if a then VehicleManagement.car else VehicleManagement.factory
  dataHash d := if d then hash1 else hash2
  bytes32 d := if d then 7 else 0
  account_inj := by unfold Function.Injective; decide
  address_inj := by unfold Function.Injective; decide

/-- The vehicle is registered and reports both accidents. -/
def registerAndReport : List (Turn Bool Bool UInt32) :=
  [⟨.createFactory false, 1, 1, VehicleManagement.car⟩,
    ⟨.createVehicle false true, 1, 1, VehicleManagement.car⟩,
    ⟨.initVehicle true, 1, 2, VehicleManagement.car⟩,
    ⟨.reportAccident true true, 2, 3, VehicleManagement.car⟩,
    ⟨.reportAccident true false, 2, 4, VehicleManagement.car⟩]

theorem registerAndReport_admissible :
    Admissible (runtime false) twoParties Ethereum.Keccak.digest (fun _ => .ok ()) ⟨0, none, none⟩
      VehicleManagement.owner registerAndReport where
  pallets := by
    have hu : usedIn (palletsTrace (runtime false) twoParties (fun _ => .ok ()) ⟨0, none, none⟩
        registerAndReport) = [(alice, 0), (alice, 1)] := by decide +kernel
    rw [hu]
    exact runtime_collisionFree.mono (by simp)
  contract := by
    have hu : VehicleManagement.usedIn (contractTrace Ethereum.Keccak.digest twoParties
        VehicleManagement.owner registerAndReport) =
        [(VehicleManagement.car, 0), (VehicleManagement.car, 1)] := by decide +kernel
    rewrite [hu]
    exact Contract.keccak_collisionFree.mono (by simp)
  few v := by cases v <;> decide +kernel
  proper {ps qs t} hts := by
    -- the owner is not the factory, so only the blocks and the factory's address count
    rcases ps with _ | ⟨p, _ | ⟨p, _ | ⟨p, _ | ⟨p, _ | ⟨p, ps⟩⟩⟩⟩⟩
    · cases hts; exact ⟨by decide, nofun⟩
    · cases hts
      refine ⟨by decide, fun hc => ?_⟩
      cases hc
      exact ⟨by decide, fun ha => absurd ha (by decide)⟩
    · cases hts; exact ⟨by decide, nofun⟩
    · cases hts; exact ⟨by decide, nofun⟩
    · cases hts; exact ⟨by decide, nofun⟩
    · exact absurd hts (by simp [registerAndReport])

theorem implementations_agree_registerAndReport :
    Admissible (runtime false) twoParties Ethereum.Keccak.digest (fun _ => .ok ()) ⟨0, none, none⟩
        VehicleManagement.owner registerAndReport ∧
      Agree (runtime false) twoParties Ethereum.Keccak.digest
        (palletsTrace (runtime false) twoParties (fun _ => .ok ()) ⟨0, none, none⟩ registerAndReport)
        (palletsRun (runtime false) twoParties (fun _ => .ok ()) ⟨0, none, none⟩ registerAndReport)
        (contractTrace Ethereum.Keccak.digest twoParties VehicleManagement.owner registerAndReport)
        (contractRun Ethereum.Keccak.digest twoParties VehicleManagement.owner registerAndReport) :=
  ⟨registerAndReport_admissible,
    (implementations_agree rfl registerAndReport_admissible).2 registerAndReport []
      (List.append_nil _).symm⟩

end SIM.Proof
