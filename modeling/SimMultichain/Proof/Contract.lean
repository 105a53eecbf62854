import SimMultichain.Impl.VehicleManagement

/-!
# What a transaction does

The five functions of the contract, run as transactions: one equation per
function (`*_step`), and from these the one way the contract steps (`TxStep`):
it reverts and stays as it was, or one function did its writes under its guards.
-/

namespace SIM.Proof.Contract

open SIM.Impl.Ethereum SIM.Impl.VehicleManagement
open Function (update)

/-! ## Operations -/

section Operations

variable {β : Type} (c : Context)

@[simp] theorem exec_state_bind (f : State → Contract β) :
    Body.exec (state >>= f) c = (f c.state).exec c := Body.exec_bind_ok rfl f

@[simp] theorem exec_modifyState (g : State → State) :
    Body.exec (modifyState g) c = (.ok (), { c with state := g c.state }) := rfl

@[simp] theorem exec_modifyState_bind (g : State → State) (f : Unit → Contract β) :
    Body.exec (modifyState g >>= f) c = (f ()).exec { c with state := g c.state } :=
  Body.exec_bind_ok rfl f

@[simp] theorem exec_emit (e : Event) :
    Body.exec (emit e) c = (.ok (), { c with events := c.events ++ [e] }) := rfl

@[simp] theorem exec_require_bind (cond : Bool) (m : String) (f : Unit → Contract β) :
    Body.exec (require cond m >>= f) c =
      if cond then (f ()).exec c else (.error (.reason m), c) := Body.exec_ensure_bind _ _ _ _

@[simp] theorem exec_increment_bind (x : Uint256) (f : Uint256 → Contract β) :
    Body.exec (increment x >>= f) c =
      if x.toNat + 1 < 2 ^ 256 then (f (x + 1)).exec c else (.error (.panic 0x11), c) := by
  simp only [increment, bind_assoc, Body.exec_ensure_bind, pure_bind, decide_eq_true_eq]

@[simp] theorem exec_onlyAdmin_bind (msg : Msg) (f : Unit → Contract β) :
    Body.exec (onlyAdmin msg >>= f) c =
      if msg.sender = c.state.admin then (f ()).exec c
      else (.error (.reason "Only admin can perform this action."), c) := by
  simp only [onlyAdmin, bind_assoc, exec_state_bind, exec_require_bind, decide_eq_true_eq]

theorem settle_ok (s : State) : settle s (.ok (), c) = (c.state, .ok c.events) := rfl

theorem settle_error (s : State) (e : Revert) : settle s (.error e, c) = (s, .error e) := rfl

theorem settle_ite (s : State) (p : Prop) [Decidable p] (x y : Except Revert Unit × Context) :
    settle s (if p then x else y) = if p then settle s x else settle s y := apply_ite _ _ _ _

end Operations

/-! ## Functions -/

section Functions

variable (keccak256 : List UInt8 → Bytes32) (s : State) (msg : Msg)

theorem createFactory_step (f : Address) :
    (contract keccak256).step s ⟨msg, .createFactory f⟩ =
      if msg.sender = s.admin then
        if s.factories f = 0 then
          ({ s with factories := update s.factories f msg.blockNumber },
            .ok [.factoryStored f msg.sender])
        else (s, .error (.reason "Factory already stored."))
      else (s, .error (.reason "Only admin can perform this action.")) := by
  simp only [contract, Transaction.body, createFactory, exec_onlyAdmin_bind, exec_state_bind,
    exec_require_bind, exec_modifyState_bind, exec_emit, decide_eq_true_eq, List.nil_append,
    settle_ite, settle_ok, settle_error]

theorem createVehicle_step (v : Address) :
    (contract keccak256).step s ⟨msg, .createVehicle v⟩ =
      if msg.sender = s.admin ∨ s.factories msg.sender ≠ 0 then
        if (s.vehicles v).factoryId = 0 then
          ({ s with vehicles := update s.vehicles v ⟨msg.sender, msg.blockNumber⟩ },
            .ok [.vehicleStored v msg.sender])
        else (s, .error (.reason "Vehicle already stored."))
      else (s, .error (.reason "Only factories can create vehicles.")) := by
  simp only [contract, Transaction.body, createVehicle, exec_state_bind, exec_require_bind,
    exec_modifyState_bind, exec_emit, decide_eq_true_eq, List.nil_append, settle_ite, settle_ok, settle_error]

theorem initVehicle_step (v : Address) :
    (contract keccak256).step s ⟨msg, .initVehicle v⟩ =
      if (s.vehicles v).factoryId ≠ 0 then
        if msg.sender = (s.vehicles v).factoryId then
          ({ s with vehicleStatus := update s.vehicleStatus v true }, .ok [.vehicleInitialized v])
        else (s, .error (.reason "Vehicle does not match origin."))
      else (s, .error (.reason "Unknown vehicle.")) := by
  simp only [contract, Transaction.body, initVehicle, exec_state_bind, exec_require_bind,
    exec_modifyState_bind, exec_emit, decide_eq_true_eq, List.nil_append, settle_ite, settle_ok, settle_error]

/-- The state after a report. -/
def reported (v : Address) (d : Bytes32) : State :=
  { s with
    accidents := update s.accidents (packedKey keccak256 v (s.accidentCount v)) d
    accidentCount := update s.accidentCount v (s.accidentCount v + 1) }

theorem reportAccident_step (v : Address) (d : Bytes32) :
    (contract keccak256).step s ⟨msg, .reportAccident v d⟩ =
      if (s.vehicles v).factoryId ≠ 0 then
        if s.vehicleStatus v = true then
          if s.accidents (packedKey keccak256 v (s.accidentCount v)) = 0 then
            if (s.accidentCount v).toNat + 1 < 2 ^ 256 then
              (reported keccak256 s v d, .ok [.accidentStored d v (s.accidentCount v + 1)])
            else (s, .error (.panic 0x11))
          else (s, .error (.reason "Accident already stored for this vehicle and count."))
        else (s, .error (.reason "Vehicle is not active."))
      else (s, .error (.reason "Vehicle is not registered.")) := by
  simp only [contract, Transaction.body, reportAccident, exec_state_bind, exec_require_bind,
    exec_modifyState_bind, exec_increment_bind, exec_emit, decide_eq_true_eq, List.nil_append,
    Function.update_self, settle_ite, settle_ok, settle_error]
  rfl

theorem changeAdmin_step (a : Address) :
    (contract keccak256).step s ⟨msg, .changeAdmin a⟩ =
      if msg.sender = s.admin then ({ s with admin := a }, .ok [])
      else (s, .error (.reason "Only admin can perform this action.")) := by
  simp only [contract, Transaction.body, changeAdmin, exec_onlyAdmin_bind, exec_modifyState,
    settle_ite, settle_ok, settle_error]

end Functions

/-! ## Steps -/

section Step

variable (keccak256 : List UInt8 → Bytes32)

/-- What a step of the contract can be: its history entry and the state after it. -/
inductive TxStep (s : State) : TxEntry → State → Prop where
  | createFactory {msg : Msg} {f : Address} (admin : msg.sender = s.admin)
      (free : s.factories f = 0) :
    TxStep s ⟨s, ⟨msg, .createFactory f⟩, .ok [.factoryStored f msg.sender]⟩
      { s with factories := update s.factories f msg.blockNumber }
  | createVehicle {msg : Msg} {v : Address} (may : msg.sender = s.admin ∨ s.factories msg.sender ≠ 0)
      (free : (s.vehicles v).factoryId = 0) :
    TxStep s ⟨s, ⟨msg, .createVehicle v⟩, .ok [.vehicleStored v msg.sender]⟩
      { s with vehicles := update s.vehicles v ⟨msg.sender, msg.blockNumber⟩ }
  | initVehicle {msg : Msg} {v : Address} (known : (s.vehicles v).factoryId ≠ 0)
      (creator : msg.sender = (s.vehicles v).factoryId) :
    TxStep s ⟨s, ⟨msg, .initVehicle v⟩, .ok [.vehicleInitialized v]⟩
      { s with vehicleStatus := update s.vehicleStatus v true }
  | reportAccident {msg : Msg} {v : Address} {d : Bytes32} (vehicle : isVehicle s v = true)
      (free : s.accidents (packedKey keccak256 v (s.accidentCount v)) = 0)
      (room : (s.accidentCount v).toNat + 1 < 2 ^ 256) :
    TxStep s ⟨s, ⟨msg, .reportAccident v d⟩, .ok [.accidentStored d v (s.accidentCount v + 1)]⟩
      (reported keccak256 s v d)
  | changeAdmin {msg : Msg} {a : Address} (admin : msg.sender = s.admin) :
    TxStep s ⟨s, ⟨msg, .changeAdmin a⟩, .ok []⟩ { s with admin := a }
  | reverted {tx : Transaction} {e : Revert} : TxStep s ⟨s, tx, .error e⟩ s

theorem isVehicle_eq_true {s : State} {v : Address} :
    isVehicle s v = true ↔ (s.vehicles v).factoryId ≠ 0 ∧ s.vehicleStatus v = true := by
  rw [isVehicle, Bool.and_eq_true, decide_eq_true_eq]

theorem contract_step (s : State) (tx : Transaction) :
    TxStep keccak256 s ((contract keccak256).entry s tx) ((contract keccak256).next s tx) := by
  obtain ⟨msg, call⟩ := tx
  simp only [Machine.entry, Machine.next]
  cases call with
  | createFactory f =>
    rw [createFactory_step]
    split <;> rename_i ha
    · split <;> rename_i hf
      · exact .createFactory ha hf
      · exact .reverted
    · exact .reverted
  | createVehicle v =>
    rw [createVehicle_step]
    split <;> rename_i ha
    · split <;> rename_i hf
      · exact .createVehicle ha hf
      · exact .reverted
    · exact .reverted
  | initVehicle v =>
    rw [initVehicle_step]
    split <;> rename_i hv
    · split <;> rename_i hc
      · exact .initVehicle hv hc
      · exact .reverted
    · exact .reverted
  | reportAccident v d =>
    rw [reportAccident_step]
    split <;> rename_i hv
    · split <;> rename_i ha
      · split <;> rename_i hf
        · split <;> rename_i hr
          · exact .reportAccident (isVehicle_eq_true.mpr ⟨hv, ha⟩) hf hr
          · exact .reverted
        · exact .reverted
      · exact .reverted
    · exact .reverted
  | changeAdmin a =>
    rw [changeAdmin_step]
    split <;> rename_i ha
    · exact .changeAdmin ha
    · exact .reverted

/-- What the first state satisfies with no history, and every allowed step of the contract keeps,
holds after every run of the contract whose steps are allowed. -/
theorem contract_invariant (P : List TxEntry → State → Prop) (ok : TxEntry → Prop) {s : State}
    (hinit : P [] s) (hstep : ∀ h t e t', TxStep keccak256 t e t' → ok e → P h t → P (h ++ [e]) t')
    {txs : List Transaction} (hok : ∀ e ∈ (contract keccak256).trace s txs, ok e) :
    P ((contract keccak256).trace s txs) ((contract keccak256).run s txs) :=
  (contract keccak256).invariant P ok hinit
    (fun h t tx => hstep h t _ _ (contract_step keccak256 t tx)) hok

end Step

/-! ## Histories -/

theorem usedIn_snoc (h : List TxEntry) (e : TxEntry) :
    usedIn (h ++ [e]) = usedIn h ++ keysUsed e.before e.input := by
  simp [usedIn]

theorem reports_snoc (v : Address) (h : List TxEntry) (e : TxEntry) :
    reports v (h ++ [e]) = reports v h ++ (reportOf v e).toList := by
  rw [reports, List.filterMap_append]
  cases he : reportOf v e <;> simp [reports, he]

/-- A successful report is one for its vehicle. -/
theorem reportOf_report (v w : Address) (s : State) (msg : Msg) (d : Bytes32) (ev : List Event) :
    reportOf w ⟨s, ⟨msg, .reportAccident v d⟩, .ok ev⟩ = if v = w then some d else none := rfl

end SIM.Proof.Contract
