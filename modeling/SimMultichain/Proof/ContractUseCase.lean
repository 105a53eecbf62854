import SimMultichain.Impl.UseCase
import SimMultichain.Proof.ContractAuthority
import SimMultichain.Proof.ContractLedger

/-!
# The contract carries out the use case

The contract refines `Spec.UseCase`: `ContractHolds` relates what is registered
and reported to the state and the history, a transaction goes through exactly if
its command is allowed (`ContractHolds.accept`, `ContractHolds.refuse`), and a
turn keeps the relation (`ContractHolds.turn`). Zero stands for what is missing,
so blocks and the senders that create vehicles must not be zero; and the admin
may create vehicles without being a factory, so a turn in which it does so must
have it registered.
-/

namespace SIM.Proof.Contract

open SIM.Impl (Encoding Turn)
open SIM.Impl.Ethereum SIM.Impl.VehicleManagement
open SIM.Spec (Command UseCase)
open Function (update)

variable {A D AccountId BlockNumber : Type} (keccak256 : List UInt8 → Bytes32)
  (enc : Encoding A D AccountId)

/-- The state `s`, with its history `h`, holds what the use case does. -/
structure ContractHolds (u : UseCase A D) (h : List TxEntry) (s : State) : Prop where
  factories (f : A) : s.factories (enc.address f) ≠ 0 ↔ f ∈ u.factories
  vehicles (v : A) :
    (s.vehicles (enc.address v)).factoryId = ((u.creator v).map enc.address).getD 0
  creator {v f : A} : u.creator v = some f → enc.address f ≠ 0
  active (v : A) : s.vehicleStatus (enc.address v) = true ↔ v ∈ u.active
  made (v : A) : reports (enc.address v) h = (u.reports v).map enc.bytes32

/-- The state after the transaction of a turn whose command is allowed. -/
def executed (s : State) (t : Turn A D BlockNumber) : State :=
  match t.command with
  | .createFactory f => { s with factories := update s.factories (enc.address f) t.ethBlock }
  | .createVehicle f v =>
    { s with vehicles := update s.vehicles (enc.address v) ⟨enc.address f, t.ethBlock⟩ }
  | .initVehicle v => { s with vehicleStatus := update s.vehicleStatus (enc.address v) true }
  | .reportAccident v d => reported keccak256 s (enc.address v) (enc.bytes32 d)

/-- What the contract asks of a turn: its block is not zero, and a vehicle is created by an account
that is not zero and, if it is the admin, a registered factory. -/
structure Proper (s : State) (t : Turn A D BlockNumber) : Prop where
  block : t.ethBlock ≠ 0
  creator {f v : A} : t.command = .createVehicle f v → enc.address f ≠ 0 ∧
    (enc.address f = s.admin → s.factories (enc.address f) ≠ 0)

namespace ContractHolds

variable {enc} {u : UseCase A D} {h : List TxEntry} {s : State} {t : Turn A D BlockNumber}

theorem created_iff (hc : ContractHolds enc u h s) (v : A) :
    (s.vehicles (enc.address v)).factoryId ≠ 0 ↔ u.creator v ≠ none := by
  rw [hc.vehicles v]
  cases hv : u.creator v with
  | none => simp
  | some f => simpa using hc.creator hv

/-- The transaction of an allowed command goes through, a report if its key is free and the counter
has room. -/
theorem accept (hc : ContractHolds enc u h s) (hs : Consistent s) (ha : u.Allowed t.command)
    (free : ∀ v d, t.command = .reportAccident v d →
      s.accidents (packedKey keccak256 (enc.address v) (s.accidentCount (enc.address v))) = 0 ∧
        (s.accidentCount (enc.address v)).toNat + 1 < 2 ^ 256) :
    ∃ ev, (contract keccak256).step s (enc.transaction s t) =
      (executed keccak256 enc s t, .ok ev) := by
  obtain ⟨c, paraBlock, ethBlock, sender⟩ := t
  simp only [Encoding.transaction, executed] at ha free ⊢
  cases c with
  | createFactory f =>
    have hf : s.factories (enc.address f) = 0 := by_contra fun hf => ha ((hc.factories f).mp hf)
    exact ⟨_, (createFactory_step keccak256 s _ _).trans ((if_pos rfl).trans (if_pos hf))⟩
  | createVehicle f v =>
    have hf := (hc.factories f).mpr ha.1
    have hv : (s.vehicles (enc.address v)).factoryId = 0 :=
      by_contra fun hv => (hc.created_iff v).mp hv ha.2
    exact ⟨_, (createVehicle_step keccak256 s _ _).trans ((if_pos (.inr hf)).trans (if_pos hv))⟩
  | initVehicle v =>
    have hv := (hc.created_iff v).mpr ha
    exact ⟨_, (initVehicle_step keccak256 s _ _).trans ((if_pos hv).trans (if_pos (if_neg hv)))⟩
  | reportAccident v d =>
    have hv : isVehicle s (enc.address v) = true := by
      rw [hs.isVehicle_eq]; exact (hc.active v).mpr ha
    obtain ⟨hf, hroom⟩ := free v d rfl
    exact ⟨_, report_ok keccak256 hv hf hroom _ _⟩

/-- The transaction of any other command reverts. -/
theorem refuse (hc : ContractHolds enc u h s) (hs : Consistent s) (hp : Proper enc s t)
    (ha : ¬u.Allowed t.command) :
    ∃ e, (contract keccak256).step s (enc.transaction s t) = (s, .error e) := by
  have hcr := @hp.creator
  obtain ⟨c, paraBlock, ethBlock, sender⟩ := t
  simp only [Encoding.transaction] at ha hcr ⊢
  cases c with
  | createFactory f =>
    have hf := (hc.factories f).mpr (not_not.mp ha)
    exact ⟨_, (createFactory_step keccak256 s _ _).trans ((if_pos rfl).trans (if_neg hf))⟩
  | createVehicle f v =>
    by_cases hf : f ∈ u.factories
    · have hv := (hc.created_iff v).mpr fun hv => ha ⟨hf, hv⟩
      exact ⟨_, (createVehicle_step keccak256 s _ _).trans
        ((if_pos (.inr ((hc.factories f).mpr hf))).trans (if_neg hv))⟩
    · have hn : ¬s.factories (enc.address f) ≠ 0 := mt (hc.factories f).mp hf
      exact ⟨_, (createVehicle_step keccak256 s _ _).trans
        (if_neg fun h => h.elim (fun h => hn ((hcr rfl).2 h)) hn)⟩
  | initVehicle v =>
    exact ⟨_, (initVehicle_step keccak256 s _ _).trans (if_neg (mt (hc.created_iff v).mp ha))⟩
  | reportAccident v d =>
    refine report_reverts keccak256 ?_ _ _
    rw [hs.isVehicle_eq]
    exact Bool.eq_false_iff.mpr (mt (hc.active v).mp ha)

/-! ## Steps -/

/-- A step that reports nothing and leaves the registrations alone. -/
theorem frame (hc : ContractHolds enc u h s) {e : TxEntry} {s' : State}
    (he : ∀ v, reportOf v e = none) (hf : s'.factories = s.factories)
    (hv : s'.vehicles = s.vehicles) (ha : s'.vehicleStatus = s.vehicleStatus) :
    ContractHolds enc u (h ++ [e]) s' where
  factories f := by rw [hf]; exact hc.factories f
  vehicles v := by rw [hv]; exact hc.vehicles v
  creator := hc.creator
  active v := by rw [ha]; exact hc.active v
  made v := by
    rw [reports_snoc, he, Option.toList_none, List.append_nil]
    exact hc.made v

/-- The step of an allowed command. -/
theorem perform [DecidableEq A] (hc : ContractHolds enc u h s) (hp : Proper enc s t)
    (ev : List Event) :
    ContractHolds enc (u.perform t.command) (h ++ [⟨s, enc.transaction s t, .ok ev⟩])
      (executed keccak256 enc s t) := by
  have hblock := hp.block
  have hcr := @hp.creator
  obtain ⟨c, paraBlock, ethBlock, sender⟩ := t
  simp only [Encoding.transaction, executed] at hblock hcr ⊢
  cases c with
  | createFactory f =>
    have hk := hc.frame (e := ⟨s, ⟨⟨s.admin, ethBlock⟩, .createFactory (enc.address f)⟩, .ok ev⟩)
      (fun _ => rfl) rfl rfl rfl
    refine ⟨fun g => ?_, hk.vehicles, hk.creator, hk.active, hk.made⟩
    rw [UseCase.perform, Set.mem_insert_iff, ← hc.factories g]
    by_cases hg : g = f
    · subst hg; simpa using hblock
    · simp [Function.update_of_ne (mt (fun e => enc.address_inj e) hg), hg]
  | createVehicle f v =>
    have hk := hc.frame (e := ⟨s, ⟨⟨enc.address f, ethBlock⟩, .createVehicle (enc.address v)⟩, .ok ev⟩)
      (fun _ => rfl) rfl rfl rfl
    refine ⟨hk.factories, fun w => ?_, fun {w g} hw => ?_, hk.active, hk.made⟩
    · by_cases hw : w = v
      · subst hw; simp [UseCase.perform]
      · simp only [UseCase.perform, Function.update_of_ne hw,
          Function.update_of_ne (mt (fun e => enc.address_inj e) hw)]
        exact hc.vehicles w
    · by_cases hwv : w = v
      · subst hwv
        simp only [UseCase.perform, Function.update_self, Option.some.injEq] at hw
        subst hw
        exact (hcr rfl).1
      · simp only [UseCase.perform, Function.update_of_ne hwv] at hw
        exact hc.creator hw
  | initVehicle v =>
    refine ⟨hc.factories, hc.vehicles, hc.creator, fun w => ?_, fun w => ?_⟩
    · rw [UseCase.perform, Set.mem_insert_iff, ← hc.active w]
      by_cases hw : w = v
      · subst hw; simp
      · simp [Function.update_of_ne (mt (fun e => enc.address_inj e) hw), hw]
    · rw [reports_snoc]
      exact (List.append_nil _).trans (hc.made w)
  | reportAccident v d =>
    refine ⟨hc.factories, hc.vehicles, hc.creator, hc.active, fun w => ?_⟩
    rw [reports_snoc, reportOf_report]
    by_cases hw : w = v
    · subst hw
      simp [UseCase.perform, hc.made w]
    · rw [if_neg (mt (fun e => (enc.address_inj e).symm) hw)]
      simp [UseCase.perform, Function.update_of_ne hw, hc.made w]

end ContractHolds

/-! ## Runs -/

section Run

variable (deployer : Address)

/-- The state after a list of turns on the contract. -/
def contractRun (ts : List (Turn A D BlockNumber)) : State :=
  (contract keccak256).run (deploy deployer) (enc.transactions keccak256 (deploy deployer) ts)

/-- The history of a list of turns on the contract. -/
def contractTrace (ts : List (Turn A D BlockNumber)) : List TxEntry :=
  (contract keccak256).trace (deploy deployer) (enc.transactions keccak256 (deploy deployer) ts)

/-- The entry of a turn's transaction in the state `s`. -/
def contractEntry (s : State) (t : Turn A D BlockNumber) : TxEntry :=
  (contract keccak256).entry s (enc.transaction s t)

theorem transactions_snoc (s : State) (ts : List (Turn A D BlockNumber))
    (t : Turn A D BlockNumber) :
    enc.transactions keccak256 s (ts ++ [t]) =
      enc.transactions keccak256 s ts ++
        [enc.transaction ((contract keccak256).run s (enc.transactions keccak256 s ts)) t] := by
  induction ts generalizing s with
  | nil => rfl
  | cons t' ts ih =>
    simp only [List.cons_append, Encoding.transactions, ih, Machine.run_cons]

theorem contractTrace_snoc (ts : List (Turn A D BlockNumber)) (t : Turn A D BlockNumber) :
    contractTrace keccak256 enc deployer (ts ++ [t]) =
      contractTrace keccak256 enc deployer ts ++
        [contractEntry keccak256 enc (contractRun keccak256 enc deployer ts) t] := by
  rw [contractTrace, transactions_snoc, Machine.trace_snoc]
  rfl

theorem contractRun_snoc (ts : List (Turn A D BlockNumber)) (t : Turn A D BlockNumber) :
    contractRun keccak256 enc deployer (ts ++ [t]) =
      (contract keccak256).next (contractRun keccak256 enc deployer ts)
        (enc.transaction (contractRun keccak256 enc deployer ts) t) := by
  rw [contractRun, transactions_snoc, Machine.run_snoc]
  rfl

theorem contractHolds_init : ContractHolds enc UseCase.empty [] (deploy deployer) where
  factories f := by simp [deploy, UseCase.empty]
  vehicles v := rfl
  creator hv := by cases hv
  active v := by simp [deploy, UseCase.empty]
  made v := rfl

variable {keccak256 enc deployer}

/-- A vehicle's key is free, and its counter has room, when its turn to report comes. -/
theorem reportKey_zero {ts : List (Turn A D BlockNumber)} {t : Turn A D BlockNumber} {v : A} {d : D}
    (hcf : CollisionFree keccak256 (usedIn (contractTrace keccak256 enc deployer (ts ++ [t]))))
    (hlt : (reports (enc.address v) (contractTrace keccak256 enc deployer ts)).length < 2 ^ 32)
    (hc : t.command = .reportAccident v d)
    (hv : isVehicle (contractRun keccak256 enc deployer ts) (enc.address v) = true) :
    let s := contractRun keccak256 enc deployer ts
    s.accidents (packedKey keccak256 (enc.address v) (s.accidentCount (enc.address v))) = 0 ∧
      (s.accidentCount (enc.address v)).toNat + 1 < 2 ^ 256 := by
  intro s
  rw [contractTrace_snoc, usedIn_snoc] at hcf
  have hl : ContractLedger keccak256 (contractTrace keccak256 enc deployer ts) s :=
    contractLedger_run keccak256 deployer (enc.transactions keccak256 (deploy deployer) ts)
  have ht := hl.tabulates keccak256 hcf
  have hkey : (enc.address v, s.accidentCount (enc.address v)) ∈
      keysUsed (contractEntry keccak256 enc s t).before (contractEntry keccak256 enc s t).input := by
    simp [contractEntry, Encoding.transaction, hc, keysUsed, hv, s]
  refine ⟨ht.get_key_count hcf.injOn (List.mem_append_right _ hkey), ?_⟩
  have hn := ht.counted (enc.address v)
  have hpow : (2 : ℕ) ^ 32 + 1 < 2 ^ 256 := by decide
  omega

variable [DecidableEq A]

/-- One turn: its transaction goes through exactly if the command is allowed. -/
theorem ContractHolds.turn {ts : List (Turn A D BlockNumber)} {t : Turn A D BlockNumber}
    {u : UseCase A D}
    (hcf : CollisionFree keccak256 (usedIn (contractTrace keccak256 enc deployer (ts ++ [t]))))
    (hlt : ∀ v, (u.reports v).length < 2 ^ 32)
    (hp : Proper enc (contractRun keccak256 enc deployer ts) t)
    (hc : ContractHolds enc u (contractTrace keccak256 enc deployer ts)
      (contractRun keccak256 enc deployer ts)) :
    ((contractEntry keccak256 enc (contractRun keccak256 enc deployer ts) t).successful.isSome ↔
        u.Allowed t.command) ∧
      ContractHolds enc (u.next t.command) (contractTrace keccak256 enc deployer (ts ++ [t]))
        (contractRun keccak256 enc deployer (ts ++ [t])) := by
  have hs : Consistent (contractRun keccak256 enc deployer ts) := consistent_run _ _ _
  have hfree := fun v d he hv => reportKey_zero (d := d) hcf
    (by rw [hc.made v, List.length_map]; exact hlt v) he hv
  rw [contractTrace_snoc, contractRun_snoc, contractEntry, Machine.entry, Machine.next]
  generalize contractRun keccak256 enc deployer ts = s at *
  by_cases ha : u.Allowed t.command
  · obtain ⟨ev, he⟩ := hc.accept keccak256 hs ha fun v d hv => hfree v d hv (by
      rw [hs.isVehicle_eq]
      exact (hc.active v).mpr (by rw [hv] at ha; exact ha))
    rw [he, UseCase.next_of_allowed ha]
    exact ⟨⟨fun _ => ha, fun _ => rfl⟩, hc.perform keccak256 hp ev⟩
  · obtain ⟨e, he⟩ := hc.refuse keccak256 hs hp ha
    rw [he, UseCase.next_of_not_allowed ha]
    exact ⟨⟨fun h => absurd h Bool.false_ne_true, fun h => absurd h ha⟩,
      hc.frame (fun _ => rfl) rfl rfl rfl⟩

end Run

end SIM.Proof.Contract
