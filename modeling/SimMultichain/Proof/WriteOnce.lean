import SimMultichain.Proof.History

/-!
# Evidence is written once

The maps that hold evidence only ever gain entries: every insertion into them is
behind a check that its key is free, in whatever state the counters are and
whatever keys collide. `evidence` puts the five maps and the set of initialised
vehicles into one order, and no step of a chain goes down in it.
-/

namespace SIM.Proof

open SIM.Impl

variable {AccountId BlockNumber : Type}

/-- The write-once maps of a chain, and its initialised vehicles. -/
def evidence (s : Storage AccountId BlockNumber) :
    StorageMap AccountId BlockNumber × StorageMap AccountId (AccountId × BlockNumber) ×
      StorageMap Hash DataHash × StorageMap Hash (AccountId × UInt32) × StorageMap Hash DataHash ×
      (AccountId → Prop) :=
  (s.factories, s.vehicles, s.accidents, s.declaredAccidents, s.accidentsData,
    fun v => SimRenault.isVehicle s v = true)

variable [DecidableEq AccountId] (cfg : Config AccountId)

/-- Initialising a vehicle leaves the initialised ones so. -/
theorem isVehicle_insert {s : Storage AccountId BlockNumber} {v w : AccountId}
    (h : SimRenault.isVehicle s w = true) :
    SimRenault.isVehicle { s with vehiclesStatus := s.vehiclesStatus.insert v true } w = true := by
  rw [isVehicle_eq_true] at h ⊢
  by_cases hw : w = v
  · subst hw; exact StorageMap.get_insert_self
  · rw [StorageMap.get_insert_of_ne hw, h]

theorem evidence_effect {router : SendXcm AccountId} {s s' : Storage AccountId BlockNumber}
    {o : Origin AccountId} {call : Call AccountId} {r : Except DispatchError Unit}
    {sent : List (Transact AccountId)} (h : Effect cfg router s o call r s' sent) :
    evidence s ≤ evidence s' := by
  cases h with
  | createFactory free => exact ⟨StorageMap.le_insert _ free, le_rfl⟩
  | createVehicle _ free => exact ⟨le_rfl, StorageMap.le_insert _ free, le_rfl⟩
  | initVehicle _ => exact ⟨le_rfl, le_rfl, le_rfl, le_rfl, le_rfl, fun _ => isVehicle_insert⟩
  | reportAccident _ free => exact ⟨le_rfl, le_rfl, StorageMap.le_insert _ free, le_rfl⟩
  | declare _ free _ => exact ⟨le_rfl, le_rfl, le_rfl, StorageMap.le_insert _ free, le_rfl⟩
  | undelivered _ free _ => exact ⟨le_rfl, le_rfl, le_rfl, StorageMap.le_insert _ free, le_rfl⟩
  | receiveData free => exact ⟨le_rfl, le_rfl, le_rfl, le_rfl, StorageMap.le_insert _ free, le_rfl⟩
  | requestData _ _ _ => exact le_rfl
  | setIpfsStatus _ => exact le_rfl
  | signUp => exact le_rfl
  | failed => exact le_rfl

theorem evidence_next (s : Storage AccountId BlockNumber) (i : Input AccountId BlockNumber) :
    evidence s ≤ evidence ((chain cfg).next s i) := by
  cases i with
  | newBlock n => exact le_rfl
  | call router o call => exact evidence_effect cfg (dispatch_effect cfg router s o call)

theorem evidence_run (s : Storage AccountId BlockNumber) (is : List (Input AccountId BlockNumber)) :
    evidence s ≤ evidence ((chain cfg).run s is) :=
  (chain cfg).le_run evidence (evidence_next cfg) s is

/-- An entry of the five evidence maps keeps its value in every later state of a run, and an
initialised vehicle stays one: over any calls by any origins, any answers of the router, either
dispatcher, any hash function and any counters. -/
theorem evidence_written_once (g : Genesis AccountId BlockNumber)
    (is js : List (Input AccountId BlockNumber)) :
    let s := (chain cfg).run g.storage is
    let s' := (chain cfg).run g.storage (is ++ js)
    (∀ f b, s.factories.get f = some b → s'.factories.get f = some b) ∧
      (∀ v fb, s.vehicles.get v = some fb → s'.vehicles.get v = some fb) ∧
      (∀ k d, s.accidents.get k = some d → s'.accidents.get k = some d) ∧
      (∀ k a, s.declaredAccidents.get k = some a → s'.declaredAccidents.get k = some a) ∧
      (∀ k d, s.accidentsData.get k = some d → s'.accidentsData.get k = some d) ∧
      ∀ v, SimRenault.isVehicle s v = true → SimRenault.isVehicle s' v = true := by
  simp only [Machine.run_append]
  exact evidence_run cfg _ js

end SIM.Proof
