import SimMultichain.Proof.Contract

/-!
# Who may do what in the contract

The admin of the contract can be replaced, and the right to open a factory or to
create a vehicle is that of the admin, or factory, at the moment of the
transaction. `Succession` follows the admins from the deployer through the
appointments of a history, `Made` is a successful call of a history with the
state it met, and `Authority` ties what a state holds to the calls that wrote it.
-/

namespace SIM.Proof.Contract

open SIM.Impl.Ethereum SIM.Impl.VehicleManagement

/-- The sender and the new admin of a step that changed the admin. -/
def appointmentOf (e : TxEntry) : Option (Address × Address) :=
  match e.successful with
  | some (sender, .changeAdmin a) => some (sender, a)
  | _ => none

/-- The changes of the admin, oldest first. -/
def appointments (h : List TxEntry) : List (Address × Address) := h.filterMap appointmentOf

/-- From `a`, every appointment is made by who was appointed before, and the last one is `b`. -/
def Succession (a : Address) : List (Address × Address) → Address → Prop
  | [], b => b = a
  | (sender, newAdmin) :: rest, b => sender = a ∧ Succession newAdmin rest b

/-- In the history `h` of a contract of `deployer`, `sender` successfully made `call`, in the
state `t`, whose admin is the one in force then. -/
def Made (deployer : Address) (h : List TxEntry) (sender : Address) (call : Call) (t : State) :
    Prop :=
  ∃ hs e hs', h = hs ++ e :: hs' ∧ e.successful = some (sender, call) ∧ e.before = t ∧
    Succession deployer (appointments hs) t.admin

theorem succession_snoc {a b c : Address} {l : List (Address × Address)} (h : Succession a l b) :
    Succession a (l ++ [(b, c)]) c := by
  induction l generalizing a with
  | nil => exact ⟨h, rfl⟩
  | cons p l ih => exact ⟨h.1, ih h.2⟩

theorem appointments_snoc (h : List TxEntry) (e : TxEntry) :
    appointments (h ++ [e]) = appointments h ++ (appointmentOf e).toList := by
  rw [appointments, List.filterMap_append]
  cases he : appointmentOf e <;> simp [appointments, he]

namespace Made

variable {deployer sender : Address} {h : List TxEntry} {call : Call} {t : State}

theorem snoc (hm : Made deployer h sender call t) (e : TxEntry) :
    Made deployer (h ++ [e]) sender call t := by
  obtain ⟨hs, e', hs', rfl, he⟩ := hm
  exact ⟨hs, e', hs' ++ [e], by simp, he⟩

/-- The last call of a history. -/
theorem last {e : TxEntry} (hs : Succession deployer (appointments h) e.before.admin)
    (he : e.successful = some (sender, call)) : Made deployer (h ++ [e]) sender call e.before :=
  ⟨h, e, [], rfl, he, rfl, hs⟩

end Made

/-! ## What a step writes -/

section Step

variable {keccak256 : List UInt8 → Bytes32} {s s' : State} {e : TxEntry}

theorem TxStep.before_eq (hs : TxStep keccak256 s e s') : e.before = s := by
  cases hs <;> rfl

theorem TxStep.admin_cases (hs : TxStep keccak256 s e s') :
    s'.admin = s.admin ∧ appointmentOf e = none ∨ appointmentOf e = some (s.admin, s'.admin) := by
  cases hs with
  | changeAdmin admin => exact .inr (by rw [← admin]; rfl)
  | _ => exact .inl ⟨rfl, rfl⟩

theorem TxStep.factories_cases (hs : TxStep keccak256 s e s') (f : Address) :
    s'.factories f = s.factories f ∨
      s.factories f = 0 ∧ e.successful = some (s.admin, .createFactory f) := by
  cases hs with
  | @createFactory msg g admin free =>
    by_cases hf : f = g
    · subst hf; exact .inr ⟨free, by rw [← admin]; rfl⟩
    · exact .inl (Function.update_of_ne hf _ _)
  | _ => exact .inl rfl

theorem TxStep.vehicles_cases (hs : TxStep keccak256 s e s') (v : Address) :
    s'.vehicles v = s.vehicles v ∧ (∀ a, e.successful ≠ some (a, .createVehicle v)) ∨
      (s.vehicles v).factoryId = 0 ∧ (s'.vehicles v).factoryId = e.input.msg.sender ∧
      e.successful = some (e.input.msg.sender, .createVehicle v) ∧
      (e.input.msg.sender = s.admin ∨ s.factories e.input.msg.sender ≠ 0) := by
  cases hs with
  | @createVehicle msg w may free =>
    by_cases hv : v = w
    · subst hv
      have hself : (Function.update s.vehicles v ⟨msg.sender, msg.blockNumber⟩ v).factoryId =
          msg.sender := by rw [Function.update_self]
      exact .inr ⟨free, hself, rfl, may⟩
    · refine .inl ⟨Function.update_of_ne hv _ _, fun a ha => hv ?_⟩
      cases ha; rfl
  | _ => exact .inl ⟨rfl, fun _ => nofun⟩

/-- A vehicle is initialised by its factory. -/
theorem TxStep.init_sender (hs : TxStep keccak256 s e s') {v a : Address}
    (he : e.successful = some (a, .initVehicle v)) :
    s'.vehicles v = s.vehicles v ∧ (s.vehicles v).factoryId = a ∧ a ≠ 0 := by
  cases hs with
  | initVehicle known creator =>
    cases he
    exact ⟨rfl, creator.symm, by rw [creator]; exact known⟩
  | _ => cases he

/-- What was written as a factory stays. -/
theorem TxStep.factories_kept (hs : TxStep keccak256 s e s') {f : Address} (hf : s.factories f ≠ 0) :
    s'.factories f = s.factories f := by
  rcases hs.factories_cases f with h | ⟨h, -⟩
  · exact h
  · exact absurd h hf

/-- What was written as a vehicle stays. -/
theorem TxStep.vehicles_kept (hs : TxStep keccak256 s e s') {v : Address}
    (hv : (s.vehicles v).factoryId ≠ 0) : s'.vehicles v = s.vehicles v := by
  rcases hs.vehicles_cases v with ⟨h, -⟩ | ⟨h, -⟩
  · exact h
  · exact absurd h hv

end Step

/-! ## What a state holds -/

/-- An active vehicle was created, and only active vehicles have reports. -/
structure Consistent (s : State) : Prop where
  active {v : Address} : s.vehicleStatus v = true → (s.vehicles v).factoryId ≠ 0
  reporting {v : Address} : 0 < (s.accidentCount v).toNat → s.vehicleStatus v = true

namespace Consistent

variable {keccak256 : List UInt8 → Bytes32} {s s' : State} {e : TxEntry}

theorem init (deployer : Address) : Consistent (deploy deployer) where
  active ha := absurd ha Bool.false_ne_true
  reporting hn := absurd hn (Nat.lt_irrefl 0)

theorem isVehicle_eq (hc : Consistent s) (v : Address) : isVehicle s v = s.vehicleStatus v := by
  cases hv : s.vehicleStatus v with
  | true => exact isVehicle_eq_true.mpr ⟨hc.active hv, hv⟩
  | false => exact Bool.eq_false_iff.mpr fun h => by simp [(isVehicle_eq_true.mp h).2] at hv

theorem step (hc : Consistent s) (hs : TxStep keccak256 s e s') : Consistent s' := by
  refine ⟨fun {v} ha => ?_, fun {v} hn => ?_⟩
  · -- a vehicle that is active already, or is activated by this step, is not written
    have hv : (s.vehicles v).factoryId ≠ 0 := by
      cases hs with
      | @initVehicle msg w known creator =>
        by_cases hw : v = w
        · subst hw; exact known
        · exact hc.active ((Function.update_of_ne hw true s.vehicleStatus).symm.trans ha)
      | _ => exact hc.active ha
    rw [hs.vehicles_kept hv]
    exact hv
  · cases hs with
    | @initVehicle msg w known creator =>
      by_cases hw : v = w
      · subst hw; exact Function.update_self _ _ _
      · exact (Function.update_of_ne hw true s.vehicleStatus).trans (hc.reporting hn)
    | @reportAccident msg w d vehicle free room =>
      by_cases hw : v = w
      · subst hw; exact (isVehicle_eq_true.mp vehicle).2
      · have hk : (reported keccak256 s w d).accidentCount v = s.accidentCount v :=
          Function.update_of_ne hw _ _
        rw [hk] at hn
        exact hc.reporting hn
    | _ => exact hc.reporting hn

end Consistent

/-- Every run of the contract is consistent. -/
theorem consistent_run (keccak256 : List UInt8 → Bytes32) (deployer : Address)
    (txs : List Transaction) : Consistent ((contract keccak256).run (deploy deployer) txs) :=
  contract_invariant keccak256 (fun _ => Consistent) (fun _ => True)
    (Consistent.init deployer)
    (fun _ _ _ _ hs _ hc => hc.step hs) fun _ _ => trivial

/-! ## Who wrote it -/

/-- After the history `h` of a contract of `deployer`. -/
structure Authority (deployer : Address) (h : List TxEntry) (s : State) : Prop where
  succession : Succession deployer (appointments h) s.admin
  opened {f : Address} : s.factories f ≠ 0 → ∃ t, Made deployer h t.admin (.createFactory f) t
  created {v : Address} : s.vehicles v ≠ ⟨0, 0⟩ → (s.vehicles v).factoryId ≠ 0 ∧
    ∃ t, Made deployer h (s.vehicles v).factoryId (.createVehicle v) t ∧
      ((s.vehicles v).factoryId = t.admin ∨ t.factories (s.vehicles v).factoryId ≠ 0)
  creator {e : TxEntry} {v a : Address} : e ∈ h →
    e.successful = some (a, .createVehicle v) ∨ e.successful = some (a, .initVehicle v) →
    (s.vehicles v).factoryId = a ∧ a ≠ 0

namespace Authority

variable {keccak256 : List UInt8 → Bytes32} {deployer : Address} {h : List TxEntry} {s s' : State}
  {e : TxEntry}

theorem init (deployer : Address) : Authority deployer [] (deploy deployer) where
  succession := rfl
  opened hf := absurd rfl hf
  created hv := absurd rfl hv
  creator he := absurd he List.not_mem_nil

/-- A step of a sender other than zero. -/
theorem step (ha : Authority deployer h s) (hs : TxStep keccak256 s e s')
    (hne : e.input.msg.sender ≠ 0) : Authority deployer (h ++ [e]) s' := by
  have hlast : ∀ {sender call}, e.successful = some (sender, call) →
      Made deployer (h ++ [e]) sender call s := by
    intro sender call he
    have hm := Made.last (e := e) (by rw [hs.before_eq]; exact ha.succession) he
    rwa [hs.before_eq] at hm
  refine ⟨?_, fun {f} hf => ?_, fun {v} hv => ?_, fun {e' v a} he' hc => ?_⟩
  · rw [appointments_snoc]
    rcases hs.admin_cases with ⟨hadm, hn⟩ | hn
    · rw [hn, hadm, Option.toList_none, List.append_nil]; exact ha.succession
    · rw [hn, Option.toList_some]; exact succession_snoc ha.succession
  · rcases hs.factories_cases f with hk | ⟨-, he⟩
    · rw [hk] at hf
      obtain ⟨t, ht⟩ := ha.opened hf
      exact ⟨t, ht.snoc e⟩
    · exact ⟨s, hlast he⟩
  · rcases hs.vehicles_cases v with ⟨hk, -⟩ | ⟨-, hk, he, hmay⟩
    · rw [hk] at hv ⊢
      obtain ⟨hv', t, ht, hmay⟩ := ha.created hv
      exact ⟨hv', t, ht.snoc e, hmay⟩
    · rw [hk]
      exact ⟨hne, s, hlast he, hmay⟩
  · rcases List.mem_append.mp he' with he' | he'
    · obtain ⟨hv, hz⟩ := ha.creator he' hc
      rw [hs.vehicles_kept (by rw [hv]; exact hz)]
      exact ⟨hv, hz⟩
    · rw [List.mem_singleton.mp he'] at hc
      rcases hc with hc | hc
      · rcases hs.vehicles_cases v with ⟨-, hk⟩ | ⟨-, hk, he, -⟩
        · exact absurd hc (hk a)
        · rw [hc] at he
          cases he
          exact ⟨hk, hne⟩
      · obtain ⟨hk, hv⟩ := hs.init_sender hc
        rw [hk]; exact hv

end Authority

/-- Every run of the contract, by senders other than zero. -/
theorem authority_run (keccak256 : List UInt8 → Bytes32) (deployer : Address)
    {txs : List Transaction} (hne : ∀ tx ∈ txs, tx.msg.sender ≠ 0) :
    Authority deployer ((contract keccak256).trace (deploy deployer) txs)
      ((contract keccak256).run (deploy deployer) txs) := by
  refine contract_invariant keccak256 (Authority deployer) (fun e => e.input.msg.sender ≠ 0)
    (Authority.init deployer) (fun _ _ _ _ hs hok ha => ha.step hs hok) fun e he => ?_
  obtain ⟨ps, tx, qs, rfl, rfl⟩ := (contract keccak256).mem_trace.mp he
  exact hne tx (by simp)

/-- Registrations are never rewritten. -/
theorem registrations_kept (keccak256 : List UInt8 → Bytes32) (s : State) (txs : List Transaction) :
    (∀ f, s.factories f ≠ 0 →
        ((contract keccak256).run s txs).factories f = s.factories f) ∧
      ∀ v, (s.vehicles v).factoryId ≠ 0 →
        ((contract keccak256).run s txs).vehicles v = s.vehicles v := by
  refine ⟨fun f hf => ?_, fun v hv => ?_⟩
  · exact contract_invariant keccak256 (fun _ t => t.factories f = s.factories f) (fun _ => True) rfl
      (fun _ _ _ _ hs _ ht => (hs.factories_kept (by rw [ht]; exact hf)).trans ht) fun _ _ => trivial
  · exact contract_invariant keccak256 (fun _ t => t.vehicles v = s.vehicles v) (fun _ => True) rfl
      (fun _ _ _ _ hs _ ht => (hs.vehicles_kept (by rw [ht]; exact hv)).trans ht) fun _ _ => trivial

/-- After every run of the contract by senders other than zero, and after every later one: active
vehicles were created and only they have reports; registrations stay; factories were opened by the
admin then in force, and vehicles are recorded with who created them, then admin or a factory;
and a vehicle was initialised by who is recorded. The admins in force succeed one another from the
deployer. -/
theorem contract_authority (keccak256 : List UInt8 → Bytes32) (deployer : Address)
    (txs later : List Transaction) (hne : ∀ tx ∈ txs, tx.msg.sender ≠ 0) :
    let h := (contract keccak256).trace (deploy deployer) txs
    let s := (contract keccak256).run (deploy deployer) txs
    let s' := (contract keccak256).run s later
    (∀ v, s.vehicleStatus v = true → (s.vehicles v).factoryId ≠ 0) ∧
      (∀ v, 0 < (s.accidentCount v).toNat → isVehicle s v = true) ∧
      (∀ f, s.factories f ≠ 0 → s'.factories f = s.factories f) ∧
      (∀ v, s.vehicles v ≠ ⟨0, 0⟩ → s'.vehicles v = s.vehicles v) ∧
      (∀ f, s.factories f ≠ 0 → ∃ t, Made deployer h t.admin (.createFactory f) t) ∧
      Succession deployer (appointments h) s.admin ∧
      (∀ v, s.vehicles v ≠ ⟨0, 0⟩ →
        ∃ t, Made deployer h (s.vehicles v).factoryId (.createVehicle v) t ∧
          ((s.vehicles v).factoryId = t.admin ∨ t.factories (s.vehicles v).factoryId ≠ 0)) ∧
      ∀ e : TxEntry, e ∈ h → ∀ v a,
        e.successful = some (a, .createVehicle v) ∨ e.successful = some (a, .initVehicle v) →
          a = (s.vehicles v).factoryId := by
  intro h s s'
  have hc : Consistent s := consistent_run keccak256 deployer txs
  have ha : Authority deployer h s := authority_run keccak256 deployer hne
  obtain ⟨hf, hv⟩ := registrations_kept keccak256 s later
  refine ⟨fun v => hc.active, fun v hn => ?_, hf, fun v hz => hv v (ha.created hz).1,
    fun f => ha.opened, ha.succession, fun v hz => (ha.created hz).2,
    fun e he v a hea => (ha.creator he hea).1.symm⟩
  rw [hc.isVehicle_eq]
  exact hc.reporting hn

/-- The owner steps back for the factory, which opens itself as a factory and creates the car. -/
def handedOver : List Transaction :=
  [⟨⟨owner, 1⟩, .changeAdmin factory⟩, ⟨⟨factory, 2⟩, .createFactory factory⟩,
    ⟨⟨factory, 2⟩, .changeAdmin owner⟩, ⟨⟨factory, 3⟩, .createVehicle car⟩]

theorem contract_authority_handedOver :
    let h := (contract Keccak.digest).trace (deploy owner) handedOver
    let s := (contract Keccak.digest).run (deploy owner) handedOver
    (∀ tx ∈ handedOver, tx.msg.sender ≠ 0) ∧ s.factories factory ≠ 0 ∧
      (∃ t, Made owner h t.admin (.createFactory factory) t) ∧ Succession owner (appointments h) owner := by
  intro h s
  have hne : ∀ tx ∈ handedOver, tx.msg.sender ≠ 0 := by decide
  have hf : s.factories factory ≠ 0 := by decide
  have ho : s.admin = owner := by decide
  obtain ⟨-, -, -, -, hopen, hs, -⟩ := contract_authority Keccak.digest owner handedOver [] hne
  exact ⟨hne, hf, hopen factory hf, ho ▸ hs⟩

end SIM.Proof.Contract
