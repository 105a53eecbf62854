import SimMultichain.Framework.Ledger
import SimMultichain.Impl.Runtime
import SimMultichain.Proof.WriteOnce

/-!
# Renault's accident ledger

`Accidents` and `AccidentCount` hold the ledger of the vehicles' accepted
reports (`AccidentLedger`, an instance of `Represents`): `reportAccident` appends
to it, and no other call touches it. `getAccidentData` then reads it with a
1-based index.
-/

namespace SIM.Proof

open SIM.Impl

variable {AccountId BlockNumber : Type} [DecidableEq AccountId] (cfg : Config AccountId)

/-- After the history `h`, the storage `s` holds the reports of `h`; their keys are among those
used, and who reported is an initialised vehicle. -/
structure AccidentLedger (h : List (ChainEntry AccountId BlockNumber))
    (s : Storage AccountId BlockNumber) : Prop where
  represents : Represents cfg.key s.accidents s.accidentCount fun v => reports v h
  used : KeysIn (fun v => reports v h) {p | p ∈ usedIn h}
  vehicle {v : AccountId} : reports v h ≠ [] → SimRenault.isVehicle s v = true

namespace AccidentLedger

variable {cfg} {h : List (ChainEntry AccountId BlockNumber)} {s s' : Storage AccountId BlockNumber}
  {e : ChainEntry AccountId BlockNumber}

/-- A step that is no accepted report and leaves the two maps alone keeps the ledger. -/
theorem frame (hl : AccidentLedger cfg h s) (hr : ∀ v, reportOf v e = none)
    (ha : s'.accidents = s.accidents) (hc : s'.accidentCount = s.accidentCount)
    (hv : ∀ v, SimRenault.isVehicle s v = true → SimRenault.isVehicle s' v = true) :
    AccidentLedger cfg (h ++ [e]) s' := by
  have hrep : ∀ v, reports v (h ++ [e]) = reports v h := fun v => by
    rw [reports_snoc, hr v, Option.toList_none, List.append_nil]
  refine ⟨?_, hl.used.mono hrep (usedIn_subset h e), fun {v} hne => ?_⟩
  · simp only [hrep, ha, hc]; exact hl.represents
  · rw [hrep v] at hne; exact hv v (hl.vehicle hne)

/-- An accepted report appends to the ledger. -/
theorem report (hl : AccidentLedger cfg h s) {router : SendXcm AccountId} {v : AccountId}
    {d : DataHash} {ev : List (Event AccountId BlockNumber)} {sent : List (Transact AccountId)}
    (vehicle : SimRenault.isVehicle s v = true)
    (free : s.accidents.containsKey (cfg.key v (accidents s v)) = false) :
    AccidentLedger cfg
      (h ++ [⟨s, .call router (.signed v) (.renault (.reportAccident d)), some ⟨.ok (), ev, sent⟩⟩])
      (reported cfg s v d) := by
  set e : ChainEntry AccountId BlockNumber :=
    ⟨s, .call router (.signed v) (.renault (.reportAccident d)), some ⟨.ok (), ev, sent⟩⟩ with he
  have hself : reports v (h ++ [e]) = reports v h ++ [d] := by
    rw [reports_snoc, he, reportOf_report, if_pos rfl, Option.toList_some]
  have hother : ∀ w, w ≠ v → reports w (h ++ [e]) = reports w h := by
    intro w hw
    rw [reports_snoc, he, reportOf_report, if_neg hw.symm, Option.toList_none, List.append_nil]
  have hkey : (v, accidents s v) ∈ usedIn (h ++ [e]) := by
    rw [usedIn_snoc]; simp [he, keysUsed, vehicle]
  rw [accidents, hl.represents.count_getD v] at hkey
  refine ⟨hl.represents.append rfl (StorageMap.containsKey_eq_false.mp free) hself hother,
    hl.used.append hself hother (usedIn_subset h e) hkey, fun {w} hne => ?_⟩
  · by_cases hw : w = v
    · subst hw; exact vehicle
    · rw [hother w hw] at hne; exact hl.vehicle hne

/-- Every step of a chain keeps the ledger. -/
theorem step (hl : AccidentLedger cfg h s) (hs : ChainStep cfg s e s') :
    AccidentLedger cfg (h ++ [e]) s' := by
  cases hs with
  | newBlock n => exact hl.frame (fun _ => rfl) rfl rfl fun _ => id
  | call effect =>
    have hv := (evidence_effect cfg effect).2.2.2.2.2
    cases effect with
    | reportAccident vehicle free => exact hl.report vehicle free
    | createFactory _ => exact hl.frame (fun _ => reportOf_of_ne nofun) rfl rfl hv
    | createVehicle _ _ => exact hl.frame (fun _ => reportOf_of_ne nofun) rfl rfl hv
    | initVehicle _ => exact hl.frame (fun _ => reportOf_of_ne nofun) rfl rfl hv
    | requestData _ _ _ => exact hl.frame (fun _ => reportOf_of_ne nofun) rfl rfl hv
    | setIpfsStatus _ => exact hl.frame (fun _ => reportOf_of_ne nofun) rfl rfl hv
    | signUp => exact hl.frame (fun _ => reportOf_of_ne nofun) rfl rfl hv
    | declare _ _ _ => exact hl.frame (fun _ => reportOf_of_ne nofun) rfl rfl hv
    | undelivered _ _ _ => exact hl.frame (fun _ => reportOf_error) rfl rfl hv
    | receiveData _ => exact hl.frame (fun _ => reportOf_of_ne nofun) rfl rfl hv
    | failed => exact hl.frame (fun _ => reportOf_error) rfl rfl hv

end AccidentLedger

/-- A chain starts with the empty ledger. -/
theorem accidentLedger_init (g : Genesis AccountId BlockNumber) :
    AccidentLedger cfg [] g.storage := by
  refine ⟨?_, fun _ _ hi => absurd hi (Nat.not_lt_zero _), fun hne => absurd rfl hne⟩
  rw [(genesis_unwritten g).accidents, (genesis_unwritten g).accidentCount]
  exact .nil fun _ => rfl

/-- The ledger, read by `getAccidentData`. -/
theorem AccidentLedger.getAccidentData_eq {h : List (ChainEntry AccountId BlockNumber)}
    {s : Storage AccountId BlockNumber} (hl : AccidentLedger cfg h s) (v : AccountId) {k : UInt32}
    (hk : k ≠ 0) (hcf : cfg.CollisionFree (usedIn h ++ keysQueried v k)) :
    SimRenaultAccident.getAccidentData cfg s v k = answer (reports v h)[k.toNat - 1]? := by
  have hn : (k - 1).toNat = k.toNat - 1 := by
    have : 1 ≤ k := by
      rw [UInt32.le_iff_toNat_le]
      exact Nat.one_le_iff_ne_zero.mpr fun h => hk (UInt32.toNat_inj.mp h)
    rw [UInt32.toNat_sub_of_le _ _ this]; rfl
  have hq : (v, k - 1) ∈ usedIn h ++ keysQueried v k := by simp [keysQueried, hk]
  rw [getAccidentData_pos cfg s v hk, hl.represents.get_key hcf.injOn
    (hl.used.mono (fun _ => rfl) fun _ => List.mem_append_left _) hq, hn]

/-- Every run of a chain keeps the ledger. -/
theorem accidentLedger_run (g : Genesis AccountId BlockNumber)
    (is : List (Input AccountId BlockNumber)) :
    AccidentLedger cfg ((chain cfg).trace g.storage is) ((chain cfg).run g.storage is) :=
  chain_invariant cfg (AccidentLedger cfg) (fun _ => True) (accidentLedger_init cfg g)
    (fun _ _ _ _ hs _ hl => hl.step hs) fun _ _ => trivial

/-- After every run of a chain, `getAccidentData v k` is the `k`-th accepted report of `v`, and an
error for every other `k`; `AccidentCount` is their number modulo `2³²`, absent when there is
none; and `Accidents` holds nothing but the reports of vehicles. -/
theorem accidents_are_reports (g : Genesis AccountId BlockNumber)
    (is : List (Input AccountId BlockNumber)) (v : AccountId) (k : UInt32) :
    let h := (chain cfg).trace g.storage is
    let s := (chain cfg).run g.storage is
    cfg.CollisionFree (usedIn h ++ keysQueried v k) →
    (k = 0 → SimRenaultAccident.getAccidentData cfg s v k = .error .getVehicleAccidentDataBadCount) ∧
      (∀ hk : 1 ≤ k.toNat ∧ k.toNat ≤ (reports v h).length,
        SimRenaultAccident.getAccidentData cfg s v k =
          .ok ((reports v h).get ⟨k.toNat - 1, by omega⟩)) ∧
      ((reports v h).length < k.toNat →
        SimRenaultAccident.getAccidentData cfg s v k = .error .getVehicleAccidentDataNotExist) ∧
      (s.accidentCount.get v =
        if (reports v h).length = 0 then none else some (UInt32.ofNat ((reports v h).length % 2 ^ 32))) ∧
      ∀ key, s.accidents.containsKey key = true → ∃ w i, SimRenault.isVehicle s w = true ∧
        i < (reports w h).length ∧
        key = SimRenaultAccident.createCompositeKey cfg [cfg.encode w, toLeBytes (UInt32.ofNat i)] := by
  intro h s hcf
  have hl : AccidentLedger cfg h s := accidentLedger_run cfg g is
  have hpos : ∀ n, n < k.toNat → k ≠ 0 := by rintro n hn rfl; exact Nat.not_lt_zero _ hn
  refine ⟨?_, fun hk => ?_, fun hk => ?_, ?_, fun key hkey => ?_⟩
  · rintro rfl; exact getAccidentData_zero cfg s v
  · have hlt : k.toNat - 1 < (reports v h).length := by omega
    rw [hl.getAccidentData_eq cfg v (hpos 0 (by omega)) hcf, List.getElem?_eq_getElem hlt]
    rfl
  · rw [hl.getAccidentData_eq cfg v (hpos _ hk) hcf, List.getElem?_eq_none (by omega), answer]
  · have hc := hl.represents.counted v
    simp only [List.length_eq_zero_iff]
    rw [hc, UInt32.ofNat_mod_size]
  · obtain ⟨d, hd⟩ := StorageMap.containsKey_eq_true.mp hkey
    obtain ⟨w, i, hi, rfl⟩ := hl.represents.only hd
    have hlt := (List.getElem?_eq_some_iff.mp hi).1
    exact ⟨w, i, hl.vehicle fun hn => by rw [hn] at hlt; exact absurd hlt (Nat.not_lt_zero _), hlt, rfl⟩

/-- A chain whose genesis vehicle reports two accidents. -/
def twoReports : List (Input AccountId32 UInt32) :=
  [.call (fun _ => .ok ()) (.signed alice) (.renault (.reportAccident hash1)),
    .call (fun _ => .ok ()) (.signed alice) (.renault (.reportAccident hash2))]

theorem accidents_are_reports_twoReports :
    let h := (chain (runtime false)).trace renaultGenesis.storage twoReports
    let s := (chain (runtime false)).run renaultGenesis.storage twoReports
    (runtime false).CollisionFree (usedIn h ++ keysQueried alice 2) ∧
      SimRenaultAccident.getAccidentData (runtime false) s alice 2 = .ok hash2 := by
  intro h s
  have hu : usedIn h ++ keysQueried alice 2 = [(alice, 0), (alice, 1), (alice, 1)] := by
    decide +kernel
  have hr : reports alice h = [hash1, hash2] := by decide +kernel
  have hcf : (runtime false).CollisionFree (usedIn h ++ keysQueried alice 2) := by
    rw [hu]; exact runtime_collisionFree.mono (by simp)
  obtain ⟨-, hk, -⟩ := accidents_are_reports (runtime false) renaultGenesis twoReports alice 2 hcf
  exact ⟨hcf, (hk (by rw [hr]; decide)).trans (congrArg Except.ok (List.get_of_eq hr _))⟩

end SIM.Proof
