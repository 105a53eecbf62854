import SimMultichain.Impl.Runtime
import SimMultichain.Proof.Effect

/-!
# Failing calls

A call body that fails leaves the storage as it was in all cases but one: the
insurer's `reportAccident` files the declaration and advances a counter before
it hands the data request to the XCM router, and returns the router's refusal as
an error. `exec_atomic_iff` says that this is the only case.
-/

namespace SIM.Proof

open SIM.Impl

variable {AccountId BlockNumber : Type} [DecidableEq AccountId] (cfg : Config AccountId)

/-- The call is a declaration that passes all its checks, and the router refuses its request. -/
def RefusedDeclaration (router : SendXcm AccountId) (o : Origin AccountId) (call : Call AccountId)
    (s : Storage AccountId BlockNumber) : Prop :=
  ∃ driver v k e, o = .signed driver ∧ call = .insurer (.reportAccident v k) ∧
    SimInsurance.isDriver s driver = true ∧
    s.declaredAccidents.containsKey (cfg.key driver (declared s driver)) = false ∧
    router (SimInsuranceAccident.dataRequest v k) = .error e

/-- A body that fails without being a refused declaration changed nothing. -/
theorem storage_of_error {router : SendXcm AccountId} {o : Origin AccountId}
    {call : Call AccountId} {s s' : Storage AccountId BlockNumber} {e : DispatchError}
    {sent : List (Transact AccountId)} (h : Effect cfg router s o call (.error e) s' sent)
    (hn : ¬ RefusedDeclaration cfg router o call s) : s' = s := by
  cases h with
  | undelivered subscribed free refused =>
    exact absurd ⟨_, _, _, _, rfl, rfl, subscribed, free, refused⟩ hn
  | failed => rfl

/-- A refused declaration is on file. -/
theorem filed_ne {s : Storage AccountId BlockNumber} {driver v : AccountId} {k : UInt32}
    (free : s.declaredAccidents.containsKey (cfg.key driver (declared s driver)) = false) :
    filed cfg s driver v k ≠ s := by
  intro h
  have hd : (filed cfg s driver v k).declaredAccidents.get (cfg.key driver (declared s driver)) =
      some (v, k) := StorageMap.get_insert_self
  rw [h, StorageMap.containsKey_eq_false.mp free] at hd
  cases hd

/-- Whenever a call body returns an error, it has changed no storage map: exactly unless it is the
insurer's `reportAccident`, signed by a subscribed driver whose next declaration key is free, and
the router refuses the data request. -/
theorem exec_atomic_iff (router : SendXcm AccountId) (o : Origin AccountId) (call : Call AccountId)
    (s : Storage AccountId BlockNumber) :
    (∀ e, (call.exec cfg router o s).1 = .error e → (call.exec cfg router o s).2.storage = s) ↔
      ¬ RefusedDeclaration cfg router o call s := by
  constructor
  · rintro h ⟨driver, v, k, e, rfl, rfl, subscribed, free, refused⟩
    have hx : (Call.insurer (.reportAccident v k)).exec cfg router (.signed driver) s =
        (.error (.other "ErrorRequestData"),
          { storage := filed cfg s driver v k
            events := [.simInsuranceAccident (.accidentStored driver (declared s driver) v k),
              .simInsuranceAccident (.errorRequestData 2000 e)]
            sent := [] }) := by
      simp only [Call.exec, Call.body, declare_exec, subscribed, free, refused]
      rfl
    rw [hx] at h
    exact filed_ne cfg free (h _ rfl)
  · intro hn e he
    have hx := exec_effect cfg router s o call
    simp only [he] at hx
    exact storage_of_error cfg hx hn

/-- A subscribed driver declares an accident while no channel to para 2000 is open: the call
returns an error, with the declaration on file and the vehicle's counter advanced. -/
theorem refused_declaration_not_atomic :
    let s := insurerGenesis.storage
    let r := (Call.insurer (.reportAccident bob 1)).exec (runtime false)
      (fun _ => .error .unroutable) (.signed alice) s
    r.1 = .error (.other "ErrorRequestData") ∧
      s.declaredAccidents.get ((runtime false).key alice 0) = none ∧
      r.2.storage.declaredAccidents.get ((runtime false).key alice 0) = some (bob, 1) ∧
      s.declaredAccidentsCount.get bob = none ∧
      r.2.storage.declaredAccidentsCount.get bob = some 1 ∧
      r.2.storage ≠ s := by
  intro s r
  have hd : r.2.storage.declaredAccidents.get ((runtime false).key alice 0) = some (bob, 1) := by
    decide +kernel
  refine ⟨by decide +kernel, rfl, hd, rfl, by decide +kernel, fun h => ?_⟩
  rw [h] at hd
  cases hd

end SIM.Proof
