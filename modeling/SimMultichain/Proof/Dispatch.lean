import SimMultichain.Impl.Chain

/-!
# What a call does

The nine call bodies, run on a storage: one equation per body (`*_exec`), from
the rules for the operations they are made of. Every later proof uses these
equations, or what `Proof.Effect` derives from them.
-/

namespace SIM.Proof

open SIM.Impl
open SIM.Body (ensure)

variable {AccountId BlockNumber : Type}

/-! ## Operations -/

section Operations

variable {β : Type} (c : Context AccountId BlockNumber)

@[simp] theorem exec_storage_bind
    (f : Storage AccountId BlockNumber → Dispatch AccountId BlockNumber β) :
    Body.exec (storage >>= f) c = (f c.storage).exec c := Body.exec_bind_ok rfl f

@[simp] theorem exec_modifyStorage_bind
    (g : Storage AccountId BlockNumber → Storage AccountId BlockNumber)
    (f : Unit → Dispatch AccountId BlockNumber β) :
    Body.exec (modifyStorage g >>= f) c = (f ()).exec { c with storage := g c.storage } :=
  Body.exec_bind_ok rfl f

@[simp] theorem exec_depositEvent (e : Event AccountId BlockNumber) :
    Body.exec (depositEvent e) c = (.ok (), { c with events := c.events ++ [e] }) := rfl

@[simp] theorem exec_depositEvent_bind (e : Event AccountId BlockNumber)
    (f : Unit → Dispatch AccountId BlockNumber β) :
    Body.exec (depositEvent e >>= f) c = (f ()).exec { c with events := c.events ++ [e] } :=
  Body.exec_bind_ok rfl f

theorem exec_sendXcm_bind_ok {router : SendXcm AccountId} {m : Transact AccountId}
    (h : router m = .ok ())
    (f : Except (SendError AccountId) Unit → Dispatch AccountId BlockNumber β) :
    Body.exec (sendXcm router m >>= f) c = (f (.ok ())).exec { c with sent := c.sent ++ [m] } := by
  refine Body.exec_bind_ok ?_ f
  simp only [sendXcm, h]; rfl

theorem exec_sendXcm_bind_error {router : SendXcm AccountId} {m : Transact AccountId}
    {e : SendError AccountId} (h : router m = .error e)
    (f : Except (SendError AccountId) Unit → Dispatch AccountId BlockNumber β) :
    Body.exec (sendXcm router m >>= f) c = (f (.error e)).exec c := by
  refine Body.exec_bind_ok ?_ f
  simp only [sendXcm, h]; rfl

@[simp] theorem ensureSigned_signed (who : AccountId) :
    (ensureSigned (.signed who) : Dispatch AccountId BlockNumber AccountId) = pure who := rfl

@[simp] theorem ensureRoot_root :
    (ensureRoot .root : Dispatch AccountId BlockNumber Unit) = pure () := rfl

@[simp] theorem ensureSiblingPara_siblingPara (id : ParaId) :
    (ensureSiblingPara (.cumulusXcm (.siblingPara id)) : Dispatch AccountId BlockNumber ParaId) =
      pure id := rfl

theorem ensureSigned_of_ne {o : Origin AccountId} (h : ∀ who, o ≠ .signed who) :
    (ensureSigned o : Dispatch AccountId BlockNumber AccountId) = throw .badOrigin := by
  cases o with
  | signed who => exact absurd rfl (h who)
  | _ => rfl

theorem ensureRoot_of_ne {o : Origin AccountId} (h : o ≠ .root) :
    (ensureRoot o : Dispatch AccountId BlockNumber Unit) = throw .badOrigin := by
  cases o with
  | root => exact absurd rfl h
  | _ => rfl

theorem ensureSiblingPara_of_ne {o : Origin AccountId}
    (h : ∀ id, o ≠ .cumulusXcm (.siblingPara id)) :
    (ensureSiblingPara o : Dispatch AccountId BlockNumber ParaId) = throw .badOrigin := by
  cases o with
  | cumulusXcm o =>
    cases o with
    | siblingPara id => exact absurd rfl (h id)
    | relay => rfl
  | _ => rfl

/-- A body that starts by asking for a signed origin fails at once on another. -/
theorem exec_not_signed {o : Origin AccountId} (ho : ∀ who, o ≠ .signed who)
    (f : AccountId → Dispatch AccountId BlockNumber β) :
    Body.exec (ensureSigned o >>= f) c = (.error .badOrigin, c) := by
  rw [ensureSigned_of_ne ho, Body.exec_throw_bind]

/-- A body that starts by asking for a sibling's origin fails at once on another. -/
theorem exec_not_sibling {o : Origin AccountId} (ho : ∀ p, o ≠ .cumulusXcm (.siblingPara p))
    (f : ParaId → Dispatch AccountId BlockNumber β) :
    Body.exec (ensureSiblingPara o >>= f) c = (.error .badOrigin, c) := by
  rw [ensureSiblingPara_of_ne ho, Body.exec_throw_bind]

theorem signed_or (o : Origin AccountId) : (∃ who, o = .signed who) ∨ ∀ who, o ≠ .signed who := by
  cases o with
  | signed who => exact .inl ⟨who, rfl⟩
  | _ => exact .inr fun _ => nofun

theorem sibling_or (o : Origin AccountId) :
    (∃ p, o = .cumulusXcm (.siblingPara p)) ∨ ∀ p, o ≠ .cumulusXcm (.siblingPara p) := by
  cases o with
  | cumulusXcm o =>
    cases o with
    | siblingPara p => exact .inl ⟨p, rfl⟩
    | relay => exact .inr fun _ => nofun
  | _ => exact .inr fun _ => nofun

end Operations

/-! ## Keys and queries -/

section Queries

variable (cfg : Config AccountId) (s : Storage AccountId BlockNumber)

theorem renault_key (a : AccountId) (n : UInt32) :
    SimRenaultAccident.createCompositeKey cfg [cfg.encode a, toLeBytes n] = cfg.key a n := rfl

theorem insurer_key (a : AccountId) (n : UInt32) :
    SimInsuranceAccident.createCompositeKey cfg [cfg.encode a, toLeBytes n] = cfg.key a n := rfl

theorem isVehicle_eq_true {v : AccountId} :
    SimRenault.isVehicle s v = true ↔ s.vehiclesStatus.get v = some true := by
  simp only [SimRenault.isVehicle]
  cases s.vehiclesStatus.get v with
  | none => simp
  | some b => cases b <;> simp

/-- A vehicle's counter, as `reportAccident` reads it. -/
abbrev accidents (v : AccountId) : UInt32 := (s.accidentCount.get v).getD 0

/-- A driver's counter, as the insurer's `reportAccident` reads it. -/
abbrev declared (d : AccountId) : UInt32 := (s.declaredAccidentsCount.get d).getD 0

theorem getAccidentData_zero (v : AccountId) :
    SimRenaultAccident.getAccidentData cfg s v 0 = .error .getVehicleAccidentDataBadCount := by
  simp [SimRenaultAccident.getAccidentData]

/-- The answer to a query that found `data`. -/
def answer : Option DataHash → Except SimRenaultAccident.GetAccidentDataError DataHash
  | some data => .ok data
  | none => .error .getVehicleAccidentDataNotExist

theorem answer_eq_ok {data : Option DataHash} {d : DataHash} :
    answer data = .ok d ↔ data = some d := by
  cases data <;> simp [answer]

theorem getAccidentData_pos (v : AccountId) {k : UInt32} (hk : k ≠ 0) :
    SimRenaultAccident.getAccidentData cfg s v k =
      answer (s.accidents.get (cfg.key v (k - 1))) := by
  have h : ¬ k ≤ 0 := by
    rw [UInt32.le_iff_toNat_le]
    have : k.toNat ≠ 0 := fun h => hk (UInt32.toNat_inj.mp h)
    simpa using this
  simp only [SimRenaultAccident.getAccidentData, h, if_false, renault_key]
  cases s.accidents.get (cfg.key v (k - 1)) <;> rfl

theorem getAccidentData_eq_ok {v : AccountId} {k : UInt32} {d : DataHash} :
    SimRenaultAccident.getAccidentData cfg s v k = .ok d ↔
      k ≠ 0 ∧ s.accidents.get (cfg.key v (k - 1)) = some d := by
  by_cases hk : k = 0
  · subst hk; simp [getAccidentData_zero]
  · rw [getAccidentData_pos cfg s v hk, answer_eq_ok]
    simp [hk]

end Queries

/-! ## Bodies -/

section Bodies

variable [DecidableEq AccountId] (cfg : Config AccountId) (c : Context AccountId BlockNumber)

theorem createFactory_exec (f : AccountId) :
    (SimRenault.createFactory .root f).exec c =
      if c.storage.factories.containsKey f then
        (.error (.simRenault .factoryAlreadyStored), c)
      else
        (.ok (), { c with
          storage := { c.storage with
            factories := c.storage.factories.insert f c.storage.blockNumber }
          events := c.events ++ [.simRenault (.factoryStored f)] }) := by
  cases h : c.storage.factories.containsKey f <;> simp [SimRenault.createFactory, h]

theorem createVehicle_exec (who v : AccountId) :
    (SimRenault.createVehicle (.signed who) v).exec c =
      if c.storage.factories.containsKey who then
        if c.storage.vehicles.containsKey v then
          (.error (.simRenault .vehicleAlreadyStored), c)
        else
          (.ok (), { c with
            storage := { c.storage with
              vehicles := c.storage.vehicles.insert v (who, c.storage.blockNumber) }
            events := c.events ++ [.simRenault (.vehicleStored v who)] })
      else (.error (.simRenault .unknownFactory), c) := by
  cases h : c.storage.factories.containsKey who <;>
    cases h' : c.storage.vehicles.containsKey v <;> simp [SimRenault.createVehicle, h, h']

theorem initVehicle_exec (who v : AccountId) :
    (SimRenault.initVehicle (.signed who) v).exec c =
      if c.storage.vehicles.containsKey who then
        if who = v then
          (.ok (), { c with
            storage := { c.storage with vehiclesStatus := c.storage.vehiclesStatus.insert v true }
            events := c.events ++ [.simRenault (.vehicleInitialized v)] })
        else (.error (.simRenault .vehicleNotMatchingOrigin), c)
      else (.error (.simRenault .unknownVehicle), c) := by
  by_cases h' : who = v
  · subst h'
    cases h : c.storage.vehicles.containsKey who <;> simp [SimRenault.initVehicle, h]
  · cases h : c.storage.vehicles.containsKey who <;> simp [SimRenault.initVehicle, h, h']

/-- The storage after a report of `v` that is accepted. -/
def reported (s : Storage AccountId BlockNumber) (v : AccountId) (d : DataHash) :
    Storage AccountId BlockNumber :=
  { s with
    accidents := s.accidents.insert (cfg.key v (accidents s v)) d
    ipfsStatus := s.ipfsStatus.insert d 0
    accidentCount := s.accidentCount.insert v (accidents s v + 1) }

theorem reportAccident_exec (v : AccountId) (d : DataHash) :
    (SimRenaultAccident.reportAccident cfg (.signed v) d).exec c =
      if SimRenault.isVehicle c.storage v then
        if c.storage.accidents.containsKey (cfg.key v (accidents c.storage v)) then
          (.error (.simRenaultAccident .accidentAlreadyStored), c)
        else
          (.ok (), { c with
            storage := reported cfg c.storage v d
            events := c.events ++
              [.simRenaultAccident (.accidentStored v (accidents c.storage v) d)] })
      else (.error (.simRenaultAccident .unknownVehicle), c) := by
  cases h : SimRenault.isVehicle c.storage v <;>
    cases h' : c.storage.accidents.containsKey (cfg.key v (accidents c.storage v)) <;>
    simp [SimRenaultAccident.reportAccident, renault_key, reported, h, h']

omit [DecidableEq AccountId] in
theorem requestData_exec (router : SendXcm AccountId) (p : ParaId) (v : AccountId) (k : UInt32) :
    (SimRenaultAccident.requestData cfg router (.cumulusXcm (.siblingPara p)) v k).exec c =
      let c' : Context AccountId BlockNumber := { c with
        events := c.events ++ [.simRenaultAccident (.receiveVehicleDataRequest p v k)] }
      if SimRenault.isVehicle c.storage v then
        match SimRenaultAccident.getAccidentData cfg c.storage v k with
        | .ok d =>
          match router (SimRenaultAccident.dataReply p v k d) with
          | .ok () => (.ok (), { c' with
              events := c'.events ++ [.simRenaultAccident (.sendVehicleDataRequestReply p true)]
              sent := c'.sent ++ [SimRenaultAccident.dataReply p v k d] })
          | .error e => (.error (.other "SendXcmError"), { c' with
              events := c'.events ++
                [.simRenaultAccident (.errorSendVehicleDataRequestReply p e)] })
        | .error _ => (.error (.other "Can't find data for vehicle"), c')
      else (.error (.simRenaultAccident .vehicleStatusError), c') := by
  cases h : SimRenault.isVehicle c.storage v with
  | false => simp [SimRenaultAccident.requestData, h]
  | true =>
    simp only [SimRenaultAccident.requestData, ensureSiblingPara_siblingPara, pure_bind,
      exec_depositEvent_bind, exec_storage_bind, h, Body.exec_ensure_bind, if_true]
    cases SimRenaultAccident.getAccidentData cfg c.storage v k with
    | error e => rfl
    | ok d =>
      cases hr : router (SimRenaultAccident.dataReply p v k d) with
      | ok u => simp only [exec_sendXcm_bind_ok _ hr, exec_depositEvent, hr]
      | error e => simp only [exec_sendXcm_bind_error _ hr, exec_depositEvent_bind, Body.exec_throw, hr]

omit [DecidableEq AccountId] in
theorem setIpfsStatus_exec (who : AccountId) (d : DataHash) (status : UInt8) :
    (SimRenaultAccident.setIpfsStatus (.signed who) d status).exec c =
      if c.storage.ipfsStatus.containsKey d then
        (.ok (), { c with
          storage := { c.storage with ipfsStatus := c.storage.ipfsStatus.insert d status }
          events := c.events ++ [.simRenaultAccident (.newIpfsStatus d status)] })
      else (.error (.simRenaultAccident .ipfsStatusError), c) := by
  cases h : c.storage.ipfsStatus.containsKey d <;> simp [SimRenaultAccident.setIpfsStatus, h]

theorem signUp_exec (who : AccountId) (profile : SimInsurance.DriverProfile AccountId) :
    (SimInsurance.signUp (.signed who) profile).exec c =
      (.ok (), { c with
        storage := { c.storage with
          subscriptions := c.storage.subscriptions.insert who (profile, c.storage.blockNumber) }
        events := c.events ++ [.simInsurance (.newSignUp who (profile, c.storage.blockNumber))] }) :=
  rfl

/-- The storage after a declaration of `driver` that is filed, whether or not its request is
sent. -/
def filed (s : Storage AccountId BlockNumber) (driver v : AccountId) (k : UInt32) :
    Storage AccountId BlockNumber :=
  { s with
    declaredAccidents := s.declaredAccidents.insert (cfg.key driver (declared s driver)) (v, k)
    declaredAccidentsCount := s.declaredAccidentsCount.insert v (declared s driver + 1) }

theorem declare_exec (router : SendXcm AccountId) (driver v : AccountId) (k : UInt32) :
    (SimInsuranceAccident.reportAccident cfg router (.signed driver) v k).exec c =
      if SimInsurance.isDriver c.storage driver then
        if c.storage.declaredAccidents.containsKey (cfg.key driver (declared c.storage driver)) then
          (.error (.simInsuranceAccident .accidentAlreadyStored), c)
        else
          let c' : Context AccountId BlockNumber := { c with
            storage := filed cfg c.storage driver v k
            events := c.events ++
              [.simInsuranceAccident (.accidentStored driver (declared c.storage driver) v k)] }
          match router (SimInsuranceAccident.dataRequest v k) with
          | .ok () => (.ok (), { c' with
              events := c'.events ++ [.simInsuranceAccident (.requestData 2000 v k)]
              sent := c'.sent ++ [SimInsuranceAccident.dataRequest v k] })
          | .error e => (.error (.other "ErrorRequestData"), { c' with
              events := c'.events ++ [.simInsuranceAccident (.errorRequestData 2000 e)] })
      else (.error (.simInsuranceAccident .unknownDriver), c) := by
  cases h : SimInsurance.isDriver c.storage driver with
  | false => simp [SimInsuranceAccident.reportAccident, h]
  | true =>
    cases h' : c.storage.declaredAccidents.containsKey (cfg.key driver (declared c.storage driver)) with
    | true => simp [SimInsuranceAccident.reportAccident, insurer_key, h, h']
    | false =>
      simp only [SimInsuranceAccident.reportAccident, ensureSigned_signed, pure_bind, insurer_key,
        exec_depositEvent_bind, exec_storage_bind, exec_modifyStorage_bind, h, h',
        Body.exec_ensure_bind, if_true, Bool.not_false]
      cases hr : router (SimInsuranceAccident.dataRequest v k) with
      | ok u => simp only [exec_sendXcm_bind_ok _ hr, exec_depositEvent]; rfl
      | error e =>
        simp only [exec_sendXcm_bind_error _ hr, exec_depositEvent_bind, Body.exec_throw]; rfl

omit [DecidableEq AccountId] in
theorem receiveData_exec (p : ParaId) (v : AccountId) (k : UInt32) (d : DataHash) :
    (SimInsuranceAccident.receiveData cfg (.cumulusXcm (.siblingPara p)) v k d).exec c =
      let c' : Context AccountId BlockNumber := { c with events := c.events ++ [.simInsuranceAccident (.receiveData p v k d)] }
      if c.storage.accidentsData.containsKey (cfg.key v k) then
        (.error (.simInsuranceAccident .accidentDataAlreadyStored), c')
      else
        (.ok (), { c' with
          storage := { c.storage with
            accidentsData := c.storage.accidentsData.insert (cfg.key v k) d }
          events := c'.events ++ [.simInsuranceAccident (.accidentDataStored v k d)] }) := by
  cases h : c.storage.accidentsData.containsKey (cfg.key v k) <;>
    simp [SimInsuranceAccident.receiveData, insurer_key, h]

end Bodies

end SIM.Proof
