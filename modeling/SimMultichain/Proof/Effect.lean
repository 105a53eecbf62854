import SimMultichain.Proof.Dispatch

/-!
# The effect of a call

`Effect` says once what a call can do to the storage, which messages it sends
and what it returns: one case for each call that returns `Ok`, one for every
call that fails with the storage as it was, and one for a declaration whose
request the router refuses (`undelivered`), which fails after writing. A
dispatched call has one of these effects (`dispatch_effect`) whether or not the
dispatcher rolls back, and invariants of a chain are proved by cases on it.
-/

namespace SIM.Proof

open SIM.Impl

variable {AccountId BlockNumber : Type} [DecidableEq AccountId] (cfg : Config AccountId)
  (router : SendXcm AccountId)

/-- What a call can do, from the storage `s` and while the router answers as `router`: its origin,
the call, its result, the storage after it and the messages it sent. -/
inductive Effect (s : Storage AccountId BlockNumber) : Origin AccountId → Call AccountId →
    Except DispatchError Unit → Storage AccountId BlockNumber → List (Transact AccountId) → Prop where
  | createFactory {f : AccountId} (free : s.factories.containsKey f = false) :
    Effect s .root (.renault (.createFactory f)) (.ok ())
      { s with factories := s.factories.insert f s.blockNumber } []
  | createVehicle {who v : AccountId} (factory : s.factories.containsKey who = true)
      (free : s.vehicles.containsKey v = false) :
    Effect s (.signed who) (.renault (.createVehicle v)) (.ok ())
      { s with vehicles := s.vehicles.insert v (who, s.blockNumber) } []
  | initVehicle {v : AccountId} (vehicle : s.vehicles.containsKey v = true) :
    Effect s (.signed v) (.renault (.initVehicle v)) (.ok ())
      { s with vehiclesStatus := s.vehiclesStatus.insert v true } []
  | reportAccident {v : AccountId} {d : DataHash} (vehicle : SimRenault.isVehicle s v = true)
      (free : s.accidents.containsKey (cfg.key v (accidents s v)) = false) :
    Effect s (.signed v) (.renault (.reportAccident d)) (.ok ()) (reported cfg s v d) []
  | requestData {p : ParaId} {v : AccountId} {k : UInt32} {d : DataHash}
      (vehicle : SimRenault.isVehicle s v = true)
      (data : SimRenaultAccident.getAccidentData cfg s v k = .ok d)
      (taken : router (SimRenaultAccident.dataReply p v k d) = .ok ()) :
    Effect s (.cumulusXcm (.siblingPara p)) (.renault (.requestData v k)) (.ok ()) s
      [SimRenaultAccident.dataReply p v k d]
  | setIpfsStatus {who : AccountId} {d : DataHash} {status : UInt8}
      (known : s.ipfsStatus.containsKey d = true) :
    Effect s (.signed who) (.renault (.setIpfsStatus d status)) (.ok ())
      { s with ipfsStatus := s.ipfsStatus.insert d status } []
  | signUp {who : AccountId} {profile : SimInsurance.DriverProfile AccountId} :
    Effect s (.signed who) (.insurer (.signUp profile)) (.ok ())
      { s with subscriptions := s.subscriptions.insert who (profile, s.blockNumber) } []
  | declare {driver v : AccountId} {k : UInt32} (subscribed : SimInsurance.isDriver s driver = true)
      (free : s.declaredAccidents.containsKey (cfg.key driver (declared s driver)) = false)
      (taken : router (SimInsuranceAccident.dataRequest v k) = .ok ()) :
    Effect s (.signed driver) (.insurer (.reportAccident v k)) (.ok ()) (filed cfg s driver v k)
      [SimInsuranceAccident.dataRequest v k]
  | undelivered {driver v : AccountId} {k : UInt32} {e : SendError AccountId}
      (subscribed : SimInsurance.isDriver s driver = true)
      (free : s.declaredAccidents.containsKey (cfg.key driver (declared s driver)) = false)
      (refused : router (SimInsuranceAccident.dataRequest v k) = .error e) :
    Effect s (.signed driver) (.insurer (.reportAccident v k)) (.error (.other "ErrorRequestData"))
      (filed cfg s driver v k) []
  | receiveData {p : ParaId} {v : AccountId} {k : UInt32} {d : DataHash}
      (free : s.accidentsData.containsKey (cfg.key v k) = false) :
    Effect s (.cumulusXcm (.siblingPara p)) (.insurer (.receiveData v k d)) (.ok ())
      { s with accidentsData := s.accidentsData.insert (cfg.key v k) d } []
  | failed {o : Origin AccountId} {c : Call AccountId} {e : DispatchError} :
    Effect s o c (.error e) s []

/-! ## Bodies and dispatch -/

/-- The effect of a Renault call's body. -/
theorem renault_effect (s : Storage AccountId BlockNumber) (o : Origin AccountId)
    (call : RenaultCall AccountId) :
    let r := (Call.renault call).exec cfg router o s
    Effect cfg router s o (.renault call) r.1 r.2.storage r.2.sent := by
  cases call with
  | createFactory f =>
    by_cases ho : o = .root
    · subst ho
      simp only [Call.exec, Call.body, createFactory_exec]
      split <;> rename_i h
      · exact .failed
      · exact .createFactory (by simpa using h)
    · simp only [Call.exec, Call.body, SimRenault.createFactory, ensureRoot_of_ne ho,
        Body.exec_throw_bind]
      exact .failed
  | createVehicle v =>
    rcases signed_or o with ⟨who, rfl⟩ | ho
    · simp only [Call.exec, Call.body, createVehicle_exec]
      split <;> rename_i h
      · split <;> rename_i h'
        · exact .failed
        · exact .createVehicle h (by simpa using h')
      · exact .failed
    · simp only [Call.exec, Call.body, SimRenault.createVehicle, exec_not_signed _ ho]
      exact .failed
  | initVehicle v =>
    rcases signed_or o with ⟨who, rfl⟩ | ho
    · simp only [Call.exec, Call.body, initVehicle_exec]
      split <;> rename_i h
      · split <;> rename_i h'
        · subst h'; exact .initVehicle h
        · exact .failed
      · exact .failed
    · simp only [Call.exec, Call.body, SimRenault.initVehicle, exec_not_signed _ ho]
      exact .failed
  | reportAccident d =>
    rcases signed_or o with ⟨who, rfl⟩ | ho
    · simp only [Call.exec, Call.body, reportAccident_exec]
      split <;> rename_i h
      · split <;> rename_i h'
        · exact .failed
        · exact .reportAccident h (by simpa using h')
      · exact .failed
    · simp only [Call.exec, Call.body, SimRenaultAccident.reportAccident, exec_not_signed _ ho]
      exact .failed
  | requestData v k =>
    rcases sibling_or o with ⟨p, rfl⟩ | ho
    · simp only [Call.exec, Call.body, requestData_exec]
      split <;> rename_i h
      · split <;> rename_i d h'
        · split <;> rename_i hr
          · exact .requestData h h' hr
          · exact .failed
        · exact .failed
      · exact .failed
    · simp only [Call.exec, Call.body, SimRenaultAccident.requestData, exec_not_sibling _ ho]
      exact .failed
  | setIpfsStatus d status =>
    rcases signed_or o with ⟨who, rfl⟩ | ho
    · simp only [Call.exec, Call.body, setIpfsStatus_exec]
      split <;> rename_i h
      · exact .setIpfsStatus h
      · exact .failed
    · simp only [Call.exec, Call.body, SimRenaultAccident.setIpfsStatus, exec_not_signed _ ho]
      exact .failed

/-- The effect of an insurer call's body. -/
theorem insurer_effect (s : Storage AccountId BlockNumber) (o : Origin AccountId)
    (call : InsurerCall AccountId) :
    let r := (Call.insurer call).exec cfg router o s
    Effect cfg router s o (.insurer call) r.1 r.2.storage r.2.sent := by
  cases call with
  | signUp profile =>
    rcases signed_or o with ⟨who, rfl⟩ | ho
    · simp only [Call.exec, Call.body, signUp_exec]
      exact .signUp
    · simp only [Call.exec, Call.body, SimInsurance.signUp, exec_not_signed _ ho]
      exact .failed
  | reportAccident v k =>
    rcases signed_or o with ⟨who, rfl⟩ | ho
    · simp only [Call.exec, Call.body, declare_exec]
      split <;> rename_i h
      · split <;> rename_i h'
        · exact .failed
        · split <;> rename_i hr
          · exact .declare h (by simpa using h') hr
          · exact .undelivered h (by simpa using h') hr
      · exact .failed
    · simp only [Call.exec, Call.body, SimInsuranceAccident.reportAccident, exec_not_signed _ ho]
      exact .failed
  | receiveData v k d =>
    rcases sibling_or o with ⟨p, rfl⟩ | ho
    · simp only [Call.exec, Call.body, receiveData_exec]
      split <;> rename_i h
      · exact .failed
      · exact .receiveData (by simpa using h)
    · simp only [Call.exec, Call.body, SimInsuranceAccident.receiveData, exec_not_sibling _ ho]
      exact .failed

/-- The effect of a call's body. -/
theorem exec_effect (s : Storage AccountId BlockNumber) (o : Origin AccountId)
    (call : Call AccountId) :
    let r := call.exec cfg router o s
    Effect cfg router s o call r.1 r.2.storage r.2.sent := by
  cases call with
  | renault call => exact renault_effect cfg router s o call
  | insurer call => exact insurer_effect cfg router s o call

/-- The effect of a dispatched call: rolling back turns a failure into one that changed nothing. -/
theorem dispatch_effect (s : Storage AccountId BlockNumber) (o : Origin AccountId)
    (call : Call AccountId) :
    let r := dispatch cfg router o call s
    Effect cfg router s o call r.2.result r.1 r.2.sent := by
  have h := exec_effect cfg router s o call
  simp only [dispatch] at h ⊢
  generalize call.exec cfg router o s = r at h ⊢
  obtain ⟨e | u, c⟩ := r
  · simp only
    split
    · exact .failed
    · exact h
  · exact h

end SIM.Proof
