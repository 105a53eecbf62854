import SimMultichain.Framework.Ledger
import SimMultichain.Impl.Runtime
import SimMultichain.Proof.History

/-!
# The insurer's declarations

The insurer's `reportAccident` reads a driver's counter at the driver's id and
writes the next count at the id of the vehicle. When every driver declares the
vehicle of its own account, this is the ledger that the storage documentation
describes (`OwnLedger`, an instance of `Represents`). `declaration_ledger_iff`
says that it is the ledger only then: a driver that names another account keeps
its old count with one declaration more. What such a declaration does to the
driver whose account it names is in `Proof.Interference`.
-/

namespace SIM.Proof

open SIM.Impl

variable {AccountId BlockNumber : Type}

/-- A step in which `driver`, then subscribed, declares the accident `k` of `v`. -/
def Declares (e : ChainEntry AccountId BlockNumber) (driver v : AccountId) (k : UInt32) : Prop :=
  (∃ router, e.input = .call router (.signed driver) (.insurer (.reportAccident v k))) ∧
    SimInsurance.isDriver e.before driver = true

/-- The router takes every message, in every step of the history. -/
def SendsSucceed (h : List (ChainEntry AccountId BlockNumber)) : Prop :=
  ∀ e ∈ h, ∀ router o c, e.input = .call router o c → ∀ m, router m = .ok ()

variable [DecidableEq AccountId] (cfg : Config AccountId)

/-- What the storage documentation says of a driver: its declarations were accepted, its counter is
their number, and the `i`-th is filed under the composite key of the driver and `i`. -/
structure DeclarationLedger (h : List (ChainEntry AccountId BlockNumber))
    (s : Storage AccountId BlockNumber) (driver : AccountId) : Prop where
  accepted : ∀ e ∈ h, ∀ v k, Declares e driver v k → Succeeded e
  counted : (declared s driver).toNat = (declarations driver h).length
  filed : ∀ i : Fin (declarations driver h).length, s.declaredAccidents.get
    (SimInsuranceAccident.createCompositeKey cfg
      [cfg.encode driver, toLeBytes (UInt32.ofNat i)]) = some ((declarations driver h).get i)

/-- The call of a subscribed driver, when the router takes its request. -/
theorem dispatch_declare {router : SendXcm AccountId} {s : Storage AccountId BlockNumber}
    {driver v : AccountId} {k : UInt32} (hd : SimInsurance.isDriver s driver = true)
    (hr : router (SimInsuranceAccident.dataRequest v k) = .ok ()) :
    let r := dispatch cfg router (.signed driver) (.insurer (.reportAccident v k)) s
    (r.2.result, r.1) =
      if s.declaredAccidents.containsKey (cfg.key driver (declared s driver)) then
        (.error (.simInsuranceAccident .accidentAlreadyStored), s)
      else (.ok (), filed cfg s driver v k) := by
  simp only [dispatch, Call.exec, Call.body, declare_exec, hd, hr, if_true]
  cases s.declaredAccidents.containsKey (cfg.key driver (declared s driver)) with
  | true => cases cfg.transactional <;> rfl
  | false => rfl

/-! ## Declarations of the own vehicle -/

/-- After the history `h`, the storage `s` holds the declarations of `h` by driver; their keys are
among those used, and every declaration was accepted. -/
structure OwnLedger (h : List (ChainEntry AccountId BlockNumber))
    (s : Storage AccountId BlockNumber) : Prop where
  represents : Represents cfg.key s.declaredAccidents s.declaredAccidentsCount
    fun d => declarations d h
  used : KeysIn (fun d => declarations d h) {p | p ∈ usedIn h}
  accepted : ∀ e ∈ h, ∀ d v k, Declares e d v k → Succeeded e

namespace OwnLedger

variable {cfg} {h : List (ChainEntry AccountId BlockNumber)} {s s' : Storage AccountId BlockNumber}
  {e : ChainEntry AccountId BlockNumber}

/-- A step that is no accepted declaration and leaves the two maps alone keeps the ledger. -/
theorem frame (hl : OwnLedger cfg h s) (hd : ∀ d, declarationOf d e = none)
    (ha : s'.declaredAccidents = s.declaredAccidents)
    (hc : s'.declaredAccidentsCount = s.declaredAccidentsCount)
    (hok : ∀ d v k, Declares e d v k → Succeeded e) : OwnLedger cfg (h ++ [e]) s' := by
  have hdecl : ∀ d, declarations d (h ++ [e]) = declarations d h := fun d => by
    rw [declarations_snoc, hd d, Option.toList_none, List.append_nil]
  refine ⟨?_, hl.used.mono hdecl (usedIn_subset h e), fun e' he' => ?_⟩
  · simp only [hdecl, ha, hc]; exact hl.represents
  · rcases List.mem_append.mp he' with he' | he'
    · exact hl.accepted e' he'
    · rw [List.mem_singleton.mp he']; exact hok

/-- An accepted declaration of the own vehicle appends to the ledger. -/
theorem declare (hl : OwnLedger cfg h s) {router : SendXcm AccountId} {d : AccountId} {k : UInt32}
    {ev : List (Event AccountId BlockNumber)} {sent : List (Transact AccountId)}
    (subscribed : SimInsurance.isDriver s d = true)
    (free : s.declaredAccidents.containsKey (cfg.key d (declared s d)) = false)
    (he : e = ⟨s, .call router (.signed d) (.insurer (.reportAccident d k)),
      some ⟨.ok (), ev, sent⟩⟩) :
    OwnLedger cfg (h ++ [e]) (Proof.filed cfg s d d k) := by
  have hself : declarations d (h ++ [e]) = declarations d h ++ [(d, k)] := by
    rw [declarations_snoc]; simp [he, declarationOf]
  have hother : ∀ b, b ≠ d → declarations b (h ++ [e]) = declarations b h := by
    intro b hb
    rw [declarations_snoc]; simp [he, declarationOf, Ne.symm hb]
  have hkey : (d, declared s d) ∈ usedIn (h ++ [e]) := by
    rw [usedIn_snoc]; simp [he, keysUsed, subscribed]
  rw [declared, hl.represents.count_getD d] at hkey
  refine ⟨hl.represents.append rfl (StorageMap.containsKey_eq_false.mp free) hself hother,
    hl.used.append hself hother (usedIn_subset h e) hkey, fun e' he' => ?_⟩
  rcases List.mem_append.mp he' with he' | he'
  · exact hl.accepted e' he'
  · rw [List.mem_singleton.mp he', he]
    exact fun _ _ _ _ => ⟨_, rfl, rfl⟩

/-- A step keeps the ledger if a declaration in it is accepted and of the own vehicle. -/
theorem step (hl : OwnLedger cfg h s) (hs : ChainStep cfg s e s')
    (hown : ∀ d v k, Declares e d v k → v = d) (hok : ∀ d v k, Declares e d v k → Succeeded e) :
    OwnLedger cfg (h ++ [e]) s' := by
  cases hs with
  | newBlock n => exact hl.frame (fun _ => rfl) rfl rfl hok
  | call effect =>
    cases effect with
    | declare subscribed free taken =>
      obtain rfl := hown _ _ _ ⟨⟨_, rfl⟩, subscribed⟩
      exact hl.declare subscribed free rfl
    | undelivered subscribed _ _ =>
      obtain ⟨r, hr, hres⟩ := hok _ _ _ ⟨⟨_, rfl⟩, subscribed⟩
      cases hr; cases hres
    | createFactory _ => exact hl.frame (fun _ => declarationOf_of_ne nofun) rfl rfl hok
    | createVehicle _ _ => exact hl.frame (fun _ => declarationOf_of_ne nofun) rfl rfl hok
    | initVehicle _ => exact hl.frame (fun _ => declarationOf_of_ne nofun) rfl rfl hok
    | reportAccident _ _ => exact hl.frame (fun _ => declarationOf_of_ne nofun) rfl rfl hok
    | requestData _ _ _ => exact hl.frame (fun _ => declarationOf_of_ne nofun) rfl rfl hok
    | setIpfsStatus _ => exact hl.frame (fun _ => declarationOf_of_ne nofun) rfl rfl hok
    | signUp => exact hl.frame (fun _ => declarationOf_of_ne nofun) rfl rfl hok
    | receiveData _ => exact hl.frame (fun _ => declarationOf_of_ne nofun) rfl rfl hok
    | failed => exact hl.frame (fun _ => declarationOf_error) rfl rfl hok

/-- While the counters have not started over and no keys collide, the declarations of subscribed
drivers are accepted. -/
theorem succeeds (hl : OwnLedger cfg h s) {i : Input AccountId BlockNumber}
    (hcf : cfg.CollisionFree (usedIn (h ++ [(chain cfg).entry s i])))
    (hlt : ∀ d, (declarations d h).length < 2 ^ 32)
    (hsend : ∀ router o c, i = .call router o c → ∀ m, router m = .ok ()) {d v : AccountId}
    {k : UInt32} (hd : Declares ((chain cfg).entry s i) d v k) :
    Succeeded ((chain cfg).entry s i) := by
  obtain ⟨⟨router, hi⟩, subscribed⟩ := hd
  simp only [Machine.entry_input] at hi
  simp only [Machine.entry_before] at subscribed
  subst hi
  have hkey : (d, declared s d) ∈ usedIn (h ++ [(chain cfg).entry s
      (.call router (.signed d) (.insurer (.reportAccident v k)))]) := by
    rw [usedIn_snoc]; simp [keysUsed, subscribed]
  have free := hl.represents.get_key_count hcf.injOn
    (hl.used.mono (fun _ => rfl) (usedIn_subset h _)) hkey (hlt d)
  have hr := dispatch_declare cfg (v := v) (k := k) subscribed (hsend _ _ _ rfl _)
  rw [StorageMap.containsKey_eq_false.mpr free] at hr
  exact ⟨_, rfl, congrArg Prod.fst hr⟩

/-- What the ledger says of one driver. -/
theorem of_driver (hl : OwnLedger cfg h s) {d : AccountId}
    (hlt : (declarations d h).length < 2 ^ 32) : DeclarationLedger cfg h s d := by
  refine ⟨fun e he v k => hl.accepted e he d v k, ?_, fun i => ?_⟩
  · rw [declared, hl.represents.count_getD d, ofNat_toNat_of_lt hlt]
  · exact hl.represents.stored (List.getElem?_eq_getElem i.isLt)

/-- Every run in which drivers declare their own vehicles only keeps the ledger. -/
theorem run (g : Genesis AccountId BlockNumber) {is : List (Input AccountId BlockNumber)}
    (hsend : SendsSucceed ((chain cfg).trace g.storage is))
    (hown : ∀ e ∈ (chain cfg).trace g.storage is, ∀ d v k, Declares e d v k → v = d)
    (hcf : cfg.CollisionFree (usedIn ((chain cfg).trace g.storage is)))
    (hlt : ∀ d, (declarations d ((chain cfg).trace g.storage is)).length < 2 ^ 32) :
    OwnLedger cfg ((chain cfg).trace g.storage is) ((chain cfg).run g.storage is) := by
  refine (chain cfg).invariant
    (fun h s => cfg.CollisionFree (usedIn h) → (∀ d, (declarations d h).length < 2 ^ 32) →
      OwnLedger cfg h s)
    (fun e => (∀ router o c, e.input = .call router o c → ∀ m, router m = .ok ()) ∧
      ∀ d v k, Declares e d v k → v = d)
    (fun _ _ => ?_) (fun h s i hi ih hcf hlt => ?_) (fun e he => ⟨hsend e he, hown e he⟩) hcf hlt
  · refine ⟨?_, fun _ _ hi => absurd hi (Nat.not_lt_zero _), fun e he => by cases he⟩
    rw [(genesis_unwritten g).declaredAccidents, (genesis_unwritten g).declaredAccidentsCount]
    exact .nil fun _ => rfl
  · have hlt' : ∀ d, (declarations d h).length < 2 ^ 32 := by
      intro d
      have := hlt d
      rw [declarations_snoc, List.length_append] at this
      omega
    have hl : OwnLedger cfg h s := ih (hcf.mono fun _ hp => usedIn_subset h _ hp) hlt'
    exact hl.step (chain_step cfg s i) hi.2 fun _ _ _ => hl.succeeds hcf hlt' hi.1

end OwnLedger

/-- A declaration that names another account leaves its driver subscribed, and without the
documented ledger: it is refused, or the driver keeps the count it had. -/
theorem foreign_declaration {h : List (ChainEntry AccountId BlockNumber)}
    {s : Storage AccountId BlockNumber} {router : SendXcm AccountId} {d v : AccountId} {k : UInt32}
    (subscribed : SimInsurance.isDriver s d = true) (hr : ∀ m, router m = .ok ()) (hv : v ≠ d)
    (hl : DeclarationLedger cfg h s d) :
    let i : Input AccountId BlockNumber := .call router (.signed d) (.insurer (.reportAccident v k))
    SimInsurance.isDriver ((chain cfg).next s i) d = true ∧
      ¬ DeclarationLedger cfg (h ++ [(chain cfg).entry s i]) ((chain cfg).next s i) d := by
  intro i
  have hdisp := dispatch_declare cfg (v := v) (k := k) subscribed (hr _)
  simp only [i, chain_entry_call, chain_next_call]
  generalize dispatch cfg router (.signed d) (.insurer (.reportAccident v k)) s = r at hdisp ⊢
  obtain ⟨s', res, ev, sent⟩ := r
  split at hdisp
  · obtain ⟨rfl, rfl⟩ := Prod.mk.inj hdisp
    refine ⟨subscribed, fun hl' => ?_⟩
    obtain ⟨r, hout, hres⟩ := hl'.accepted _ (List.mem_append_right h (List.mem_singleton_self _)) v k
      ⟨⟨router, rfl⟩, subscribed⟩
    cases hout; cases hres
  · obtain ⟨rfl, rfl⟩ := Prod.mk.inj hdisp
    refine ⟨subscribed, fun hl' => ?_⟩
    have hcount := hl'.counted
    have hsame : declared (filed cfg s d v k) d = declared s d := by
      simp only [declared, filed, StorageMap.get_insert_of_ne (Ne.symm hv)]
    rw [hsame, hl.counted, declarations_snoc, List.length_append] at hcount
    simp [declarationOf] at hcount

/-- A run in which the router takes every message has the documented ledger for every subscribed
driver, after each of its steps, exactly if no driver declares the accident of an account other than
its own. -/
theorem declaration_ledger_iff (g : Genesis AccountId BlockNumber)
    (is : List (Input AccountId BlockNumber)) :
    let h := (chain cfg).trace g.storage is
    SendsSucceed h → (∀ d, (declarations d h).length < 2 ^ 32) → cfg.CollisionFree (usedIn h) →
    ((∀ ps, ps <+: is → ∀ d, SimInsurance.isDriver ((chain cfg).run g.storage ps) d = true →
        DeclarationLedger cfg ((chain cfg).trace g.storage ps) ((chain cfg).run g.storage ps) d) ↔
      ∀ e ∈ h, ∀ d v k, Declares e d v k → v = d) := by
  intro h hsend hlt hcf
  constructor
  · intro hall e he d v k hd
    obtain ⟨ps, i, qs, rfl, rfl⟩ := (chain cfg).mem_trace.mp he
    obtain ⟨⟨router, hi⟩, subscribed⟩ := hd
    simp only [Machine.entry_input] at hi
    simp only [Machine.entry_before] at subscribed
    subst hi
    by_contra hne
    have hps := hall ps (List.prefix_append _ _) d subscribed
    obtain ⟨hsub, hn⟩ := foreign_declaration cfg (k := k) subscribed (hsend _ he _ _ _ rfl) hne hps
    have hnext := hall (ps ++ [_]) ⟨qs, List.append_cons ps _ qs |>.symm⟩ d
    rw [Machine.run_snoc, Machine.trace_snoc] at hnext
    exact hn (hnext hsub)
  · rintro hown ps ⟨qs, rfl⟩ d -
    have ht : h = (chain cfg).trace g.storage ps ++
        (chain cfg).trace ((chain cfg).run g.storage ps) qs := (chain cfg).trace_append _ _ _
    have hmem : ∀ e ∈ (chain cfg).trace g.storage ps, e ∈ h := by
      intro e he
      rw [ht]; exact List.mem_append_left _ he
    have hlt' : ∀ d, (declarations d ((chain cfg).trace g.storage ps)).length < 2 ^ 32 := by
      intro d
      have := hlt d
      rw [ht, declarations, List.filterMap_append, List.length_append] at this
      exact lt_of_le_of_lt (Nat.le_add_right _ _) this
    have hcf' : cfg.CollisionFree (usedIn ((chain cfg).trace g.storage ps)) := by
      refine hcf.mono ?_
      rw [ht, usedIn_append]
      exact List.subset_append_left _ _
    exact (OwnLedger.run g (fun e he => hsend e (hmem e he)) (fun e he => hown e (hmem e he)) hcf'
      hlt').of_driver (hlt' d)

/-- Two declarations of the genesis driver, both of accidents of `v`. -/
def twoDeclarations (v : AccountId32) : List (Input AccountId32 UInt32) :=
  [.call (fun _ => .ok ()) (.signed alice) (.insurer (.reportAccident v 1)),
    .call (fun _ => .ok ()) (.signed alice) (.insurer (.reportAccident v 2))]

theorem twoDeclarations_sendsSucceed (v : AccountId32) :
    SendsSucceed ((chain (runtime false)).trace insurerGenesis.storage (twoDeclarations v)) := by
  intro e he router o c hi m
  simp only [twoDeclarations, Machine.trace_cons, Machine.trace_nil, List.mem_cons,
    List.not_mem_nil, or_false] at he
  rcases he with rfl | rfl <;> cases hi <;> rfl

theorem twoDeclarations_length (v d : AccountId32) :
    (declarations d ((chain (runtime false)).trace insurerGenesis.storage (twoDeclarations v))).length
      < 2 ^ 32 :=
  lt_of_le_of_lt (List.length_filterMap_le _ _) (by simp [twoDeclarations])

theorem declaration_ledger_own :
    let h := (chain (runtime false)).trace insurerGenesis.storage (twoDeclarations alice)
    let s := (chain (runtime false)).run insurerGenesis.storage (twoDeclarations alice)
    SendsSucceed h ∧ (∀ d, (declarations d h).length < 2 ^ 32) ∧
      (runtime false).CollisionFree (usedIn h) ∧ declarations alice h = [(alice, 1), (alice, 2)] ∧
      DeclarationLedger (runtime false) h s alice := by
  intro h s
  obtain ⟨hu, hd, ha⟩ : usedIn h = [(alice, 0), (alice, 1)] ∧
      declarations alice h = [(alice, 1), (alice, 2)] ∧ SimInsurance.isDriver s alice = true := by
    decide +kernel
  have hcf : (runtime false).CollisionFree (usedIn h) := by
    rw [hu]; exact runtime_collisionFree.mono (by simp)
  have hsend : SendsSucceed h := twoDeclarations_sendsSucceed alice
  have hlt : ∀ d, (declarations d h).length < 2 ^ 32 := twoDeclarations_length alice
  have hown : ∀ e ∈ h, ∀ d v k, Declares e d v k → v = d := by
    rintro e he d v k ⟨⟨router, hi⟩, -⟩
    simp only [h, twoDeclarations, Machine.trace_cons, Machine.trace_nil, List.mem_cons,
      List.not_mem_nil, or_false] at he
    rcases he with rfl | rfl <;> cases hi <;> rfl
  exact ⟨hsend, hlt, hcf, hd,
    (declaration_ledger_iff (runtime false) insurerGenesis (twoDeclarations alice) hsend hlt hcf).mpr
      hown _ (List.prefix_refl _) alice ha⟩

/-- A subscribed driver declares two accidents of another account's vehicle: the second call is
refused, and the driver's counter is absent after the first was accepted. -/
theorem second_declaration_refused :
    let h := (chain (runtime false)).trace insurerGenesis.storage (twoDeclarations bob)
    let s := (chain (runtime false)).run insurerGenesis.storage (twoDeclarations bob)
    SendsSucceed h ∧ (∀ d, (declarations d h).length < 2 ^ 32) ∧
      (runtime false).CollisionFree (usedIn h) ∧ SimInsurance.isDriver s alice = true ∧
      h.map (fun e => e.output.map Receipt.result) =
        [some (.ok ()), some (.error (.simInsuranceAccident .accidentAlreadyStored))] ∧
      declarations alice h = [(bob, 1)] ∧ s.declaredAccidentsCount.get alice = none ∧
      ¬ DeclarationLedger (runtime false) h s alice := by
  intro h s
  obtain ⟨hu, ha, hres, hd, hc⟩ : usedIn h = [(alice, 0), (alice, 0)] ∧
      SimInsurance.isDriver s alice = true ∧
      h.map (fun e => e.output.map Receipt.result) =
        [some (.ok ()), some (.error (.simInsuranceAccident .accidentAlreadyStored))] ∧
      declarations alice h = [(bob, 1)] ∧ s.declaredAccidentsCount.get alice = none := by
    decide +kernel
  refine ⟨twoDeclarations_sendsSucceed bob, twoDeclarations_length bob, ?_, ha, hres, hd, hc,
    fun hl => ?_⟩
  · rw [hu]; exact runtime_collisionFree.mono (by simp)
  · have hcount := hl.counted
    rw [hd, declared, hc] at hcount
    cases hcount

end SIM.Proof
