import SimMultichain.Framework.TotalLedger
import SimMultichain.Proof.Contract

/-!
# The contract's accident ledger

`accidents` and `accidentCount` hold the ledger of the vehicles' successful
reports (`ContractLedger`, an instance of `Tabulates`) as long as Keccak has no
collision on the keys in use. The guard of `reportAccident` compares with zero,
which is also a data hash that may be reported; that no key is written twice
rests on the counter alone, and the guard never stops a report.
-/

namespace SIM.Proof.Contract

open SIM.Impl.Ethereum SIM.Impl.VehicleManagement

variable (keccak256 : List UInt8 → Bytes32)

/-- After the history `h`, the state `s` holds the reports of `h`. -/
def ContractLedger (h : List TxEntry) (s : State) : Prop :=
  CollisionFree keccak256 (usedIn h) →
    Tabulates (packedKey keccak256) {p | p ∈ usedIn h} s.accidents s.accidentCount
      fun v => reports v h

namespace ContractLedger

variable {keccak256} {h : List TxEntry} {s s' : State} {e : TxEntry}

theorem usedIn_subset (h : List TxEntry) (e : TxEntry) : usedIn h ⊆ usedIn (h ++ [e]) := by
  rw [usedIn_snoc]
  exact List.subset_append_left _ _

/-- A step that is no successful report and leaves the two maps alone keeps the ledger. -/
theorem frame (hl : ContractLedger keccak256 h s) (hr : ∀ v, reportOf v e = none)
    (ha : s'.accidents = s.accidents) (hc : s'.accidentCount = s.accidentCount) :
    ContractLedger keccak256 (h ++ [e]) s' := by
  intro hcf
  have ht := hl (hcf.mono (usedIn_subset h e))
  rw [ha, hc]
  refine ht.mono (fun p hp => usedIn_subset h e hp) fun v => ?_
  rw [reports_snoc, hr v, Option.toList_none, List.append_nil]

/-- A successful report appends to the ledger. -/
theorem report (hl : ContractLedger keccak256 h s) {msg : Msg} {v : Address} {d : Bytes32}
    {ev : List Event} (vehicle : isVehicle s v = true)
    (room : (s.accidentCount v).toNat + 1 < 2 ^ 256) :
    ContractLedger keccak256 (h ++ [⟨s, ⟨msg, .reportAccident v d⟩, .ok ev⟩])
      (reported keccak256 s v d) := by
  set e : TxEntry := ⟨s, ⟨msg, .reportAccident v d⟩, .ok ev⟩ with he
  intro hcf
  have ht := hl (hcf.mono (usedIn_subset h e))
  have hkey : (v, s.accidentCount v) ∈ usedIn (h ++ [e]) := by
    rw [usedIn_snoc]
    apply List.mem_append_right
    simp [he, keysUsed, vehicle]
  have hmono := ht.mono (fun p hp => usedIn_subset h e hp) fun _ => rfl
  refine hmono.append hcf.injOn hkey room ?_ fun w hw => ?_
  · rw [reports_snoc, he, reportOf_report, if_pos rfl, Option.toList_some]
  · rw [reports_snoc, he, reportOf_report, if_neg hw.symm, Option.toList_none, List.append_nil]

/-- Every step of the contract keeps the ledger. -/
theorem step (hl : ContractLedger keccak256 h s) (hs : TxStep keccak256 s e s') :
    ContractLedger keccak256 (h ++ [e]) s' := by
  cases hs with
  | createFactory _ _ => exact hl.frame (fun _ => rfl) rfl rfl
  | createVehicle _ _ => exact hl.frame (fun _ => rfl) rfl rfl
  | initVehicle _ _ => exact hl.frame (fun _ => rfl) rfl rfl
  | reportAccident vehicle _ room => exact hl.report vehicle room
  | changeAdmin _ => exact hl.frame (fun _ => rfl) rfl rfl
  | reverted => exact hl.frame (fun _ => rfl) rfl rfl

end ContractLedger

/-- Every run of the contract keeps the ledger. -/
theorem contractLedger_run (deployer : Address) (txs : List Transaction) :
    ContractLedger keccak256 ((contract keccak256).trace (deploy deployer) txs)
      ((contract keccak256).run (deploy deployer) txs) :=
  contract_invariant keccak256 (ContractLedger keccak256) (fun _ => True)
    (fun _ => .nil fun _ => rfl) (fun _ _ _ _ hs _ hl => hl.step hs) fun _ _ => trivial

/-- The ledger, with the keys of what is asked next. -/
theorem ContractLedger.tabulates {h : List TxEntry} {s : State} (hl : ContractLedger keccak256 h s)
    {ks : List (Address × Uint256)} (hcf : CollisionFree keccak256 (usedIn h ++ ks)) :
    Tabulates (packedKey keccak256) {p | p ∈ usedIn h ++ ks} s.accidents s.accidentCount
      fun v => reports v h :=
  (hl (hcf.mono (List.subset_append_left _ _))).mono (fun _ hp => List.mem_append_left _ hp)
    fun _ => rfl

/-- A report for an active vehicle whose key is free goes through, unless the counter is at its
last value. -/
theorem report_ok {s : State} {v : Address} (vehicle : isVehicle s v = true)
    (free : s.accidents (packedKey keccak256 v (s.accidentCount v)) = 0)
    (room : (s.accidentCount v).toNat + 1 < 2 ^ 256) (msg : Msg) (d : Bytes32) :
    (contract keccak256).step s ⟨msg, .reportAccident v d⟩ =
      (reported keccak256 s v d, .ok [.accidentStored d v (s.accidentCount v + 1)]) := by
  obtain ⟨hv, ha⟩ := isVehicle_eq_true.mp vehicle
  rw [reportAccident_step, if_pos hv, if_pos ha, if_pos free, if_pos room]

/-- A report for anything else than an active vehicle reverts. -/
theorem report_reverts {s : State} {v : Address} (h : isVehicle s v = false) (msg : Msg)
    (d : Bytes32) :
    ∃ e, (contract keccak256).step s ⟨msg, .reportAccident v d⟩ = (s, .error e) := by
  rw [reportAccident_step]
  split <;> rename_i hv
  · rw [if_neg fun ha => Bool.eq_false_iff.mp h (isVehicle_eq_true.mpr ⟨hv, ha⟩)]
    exact ⟨_, rfl⟩
  · exact ⟨_, rfl⟩

/-- The guard on the key does not stop a report whose key is free. -/
theorem report_not_stored {s : State} {v : Address}
    (free : s.accidents (packedKey keccak256 v (s.accidentCount v)) = 0) (msg : Msg) (d : Bytes32) :
    ((contract keccak256).step s ⟨msg, .reportAccident v d⟩).2 ≠
      .error (.reason "Accident already stored for this vehicle and count.") := by
  rw [reportAccident_step, if_pos free]
  split
  · split
    · split <;> simp
    · simp
  · simp

theorem isVehicle_eq_false {s : State} {v : Address} :
    isVehicle s v = false ↔ (s.vehicles v).factoryId = 0 ∨ s.vehicleStatus v = false := by
  rw [isVehicle, Bool.and_eq_false_iff, decide_eq_false_iff_not, not_not]

/-- After every run of the contract, `accidentCount` is the number of successful reports for `v`,
`getAccidentData` reads the `i`-th of them and zero past the last, and one more report reverts
exactly if `v` is not registered or not active, never because its key is taken. -/
theorem contract_accidents_are_reports (deployer : Address) (txs : List Transaction) (v : Address)
    (i : Uint256) :
    let h := (contract keccak256).trace (deploy deployer) txs
    let s := (contract keccak256).run (deploy deployer) txs
    CollisionFree keccak256 (usedIn h ++ [(v, i), (v, s.accidentCount v)]) →
    (s.accidentCount v).toNat = (reports v h).length ∧
      (∀ hi : i.toNat < (reports v h).length,
        getAccidentData keccak256 s v i = (reports v h).get ⟨i.toNat, hi⟩) ∧
      ((reports v h).length ≤ i.toNat → getAccidentData keccak256 s v i = 0) ∧
      ∀ msg d,
        ((reports v h).length + 1 < 2 ^ 256 →
          ((∃ e, ((contract keccak256).step s ⟨msg, .reportAccident v d⟩).2 = .error e) ↔
            (s.vehicles v).factoryId = 0 ∨ s.vehicleStatus v = false)) ∧
        ((contract keccak256).step s ⟨msg, .reportAccident v d⟩).2 ≠
          .error (.reason "Accident already stored for this vehicle and count.") := by
  intro h s hcf
  have ht := (contractLedger_run keccak256 deployer txs).tabulates keccak256 hcf
  have hget : getAccidentData keccak256 s v i = ((reports v h)[i.toNat]?).getD 0 :=
    ht.get_key hcf.injOn (List.mem_append_right _ List.mem_cons_self)
  have hfree : s.accidents (packedKey keccak256 v (s.accidentCount v)) = 0 :=
    ht.get_key_count hcf.injOn
      (List.mem_append_right _ (List.mem_cons_of_mem _ (List.mem_singleton.mpr rfl)))
  refine ⟨ht.counted v, fun hi => ?_, fun hi => ?_, fun msg d => ⟨fun hn => ?_, ?_⟩⟩
  · rw [hget, List.getElem?_eq_getElem hi]; rfl
  · rw [hget, List.getElem?_eq_none hi]; rfl
  · have hroom : (s.accidentCount v).toNat + 1 < 2 ^ 256 := by rw [ht.counted v]; exact hn
    rw [← isVehicle_eq_false]
    cases hv : isVehicle s v with
    | true => rw [report_ok keccak256 hv hfree hroom]; simp
    | false =>
      obtain ⟨e, he⟩ := report_reverts keccak256 hv msg d
      exact ⟨fun _ => rfl, fun _ => ⟨e, by rw [he]⟩⟩
  · exact report_not_stored keccak256 hfree msg d

/-- The keys of the concrete runs do not collide. -/
theorem keccak_collisionFree : CollisionFree Keccak.digest [(car, 0), (car, 1), (car, 2)] :=
  .of_nodup (by decide +kernel)

/-- A factory and its vehicle are registered, and the vehicle reports zero and then seven. -/
def twoAccidents : List Transaction :=
  [⟨⟨owner, 1⟩, .createFactory factory⟩, ⟨⟨factory, 2⟩, .createVehicle car⟩,
    ⟨⟨factory, 2⟩, .initVehicle car⟩, ⟨⟨car, 3⟩, .reportAccident car 0⟩,
    ⟨⟨owner, 3⟩, .reportAccident car 7⟩]

theorem twoAccidents_history :
    usedIn ((contract Keccak.digest).trace (deploy owner) twoAccidents) = [(car, 0), (car, 1)] ∧
      ((contract Keccak.digest).run (deploy owner) twoAccidents).accidentCount car = 2 ∧
      reports car ((contract Keccak.digest).trace (deploy owner) twoAccidents) = [0, 7] := by
  decide +kernel

theorem contract_accidents_are_reports_twoAccidents :
    let h := (contract Keccak.digest).trace (deploy owner) twoAccidents
    let s := (contract Keccak.digest).run (deploy owner) twoAccidents
    CollisionFree Keccak.digest (usedIn h ++ [(car, 1), (car, s.accidentCount car)]) ∧
      getAccidentData Keccak.digest s car 1 = 7 := by
  obtain ⟨hu, hc, hr⟩ := twoAccidents_history
  have hall := contract_accidents_are_reports Keccak.digest owner twoAccidents car 1
  simp only [hu, hc] at hall ⊢
  have hcf : CollisionFree Keccak.digest ([(car, 0), (car, 1)] ++ [(car, 1), (car, 2)]) :=
    keccak_collisionFree.mono (by simp)
  obtain ⟨-, hk, -⟩ := hall hcf
  exact ⟨hcf, (hk (by rw [hr]; decide)).trans (List.get_of_eq hr _)⟩

end SIM.Proof.Contract
