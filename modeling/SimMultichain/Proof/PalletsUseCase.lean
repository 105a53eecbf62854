import SimMultichain.Impl.UseCase
import SimMultichain.Proof.Registration
import SimMultichain.Proof.Reporting

/-!
# The pallets carry out the use case

The Renault pallets refine `Spec.UseCase`: `PalletsHold` relates what is
registered and reported to the storage maps and the history, a call is accepted
exactly if its command is allowed (`PalletsHold.accept`, `PalletsHold.refuse`),
and a turn keeps the relation (`PalletsHold.turn`) as long as no keys collide and
no vehicle makes `2³²` reports.
-/

namespace SIM.Proof

open SIM.Impl
open SIM.Spec (Command UseCase)

variable {A D AccountId BlockNumber : Type} [DecidableEq AccountId]
  (cfg : Config AccountId) (enc : Encoding A D AccountId)

/-- The storage `s`, with its history `h`, holds what the use case does. -/
structure PalletsHold (u : UseCase A D) (h : List (ChainEntry AccountId BlockNumber))
    (s : Storage AccountId BlockNumber) : Prop where
  factories (f : A) : s.factories.containsKey (enc.account f) = true ↔ f ∈ u.factories
  vehicles (v : A) : (s.vehicles.get (enc.account v)).map Prod.fst = (u.creator v).map enc.account
  active (v : A) : SimRenault.isVehicle s (enc.account v) = true ↔ v ∈ u.active
  made (v : A) : reports (enc.account v) h = (u.reports v).map enc.dataHash

/-- The storage after the call of an allowed command. -/
def performed (s : Storage AccountId BlockNumber) : Command A D → Storage AccountId BlockNumber
  | .createFactory f =>
    { s with factories := s.factories.insert (enc.account f) s.blockNumber }
  | .createVehicle f v =>
    { s with vehicles := s.vehicles.insert (enc.account v) (enc.account f, s.blockNumber) }
  | .initVehicle v => { s with vehiclesStatus := s.vehiclesStatus.insert (enc.account v) true }
  | .reportAccident v d => reported cfg s (enc.account v) (enc.dataHash d)

/-! ## Calls -/

section Calls

variable {cfg} {router : SendXcm AccountId} {o : Origin AccountId} {call : Call AccountId}
  {s : Storage AccountId BlockNumber} {c : Context AccountId BlockNumber}

theorem dispatch_of_ok (h : call.exec cfg router o s = (.ok (), c)) :
    ∃ ev sent, dispatch cfg router o call s = (c.storage, ⟨.ok (), ev, sent⟩) := by
  simp only [dispatch, h]
  exact ⟨_, _, rfl⟩

/-- A call that fails before its first write changes nothing. -/
theorem dispatch_of_error {e : DispatchError} (h : call.exec cfg router o s = (.error e, c))
    (hs : c.storage = s) : ∃ ev sent, dispatch cfg router o call s = (s, ⟨.error e, ev, sent⟩) := by
  simp only [dispatch, h]
  split
  · exact ⟨_, _, rfl⟩
  · rw [hs]; exact ⟨_, _, rfl⟩

end Calls

namespace PalletsHold

variable {enc} (router : SendXcm AccountId) {u : UseCase A D}
  {h : List (ChainEntry AccountId BlockNumber)} {s : Storage AccountId BlockNumber}

theorem created_iff (hp : PalletsHold enc u h s) (v : A) :
    s.vehicles.containsKey (enc.account v) = true ↔ u.creator v ≠ none := by
  have hv := hp.vehicles v
  rw [StorageMap.containsKey]
  cases hg : s.vehicles.get (enc.account v) <;> cases hc : u.creator v <;> simp [hg, hc] at hv ⊢

/-- The call of an allowed command is accepted, a report if its key is free. -/
theorem accept (hp : PalletsHold enc u h s) {c : Command A D} (hc : u.Allowed c)
    (free : ∀ v d, c = .reportAccident v d →
      s.accidents.containsKey (cfg.key (enc.account v) (accidents s (enc.account v))) = false) :
    ∃ ev sent, dispatch cfg router (enc.origin c) (enc.call c) s =
      (performed cfg enc s c, ⟨.ok (), ev, sent⟩) := by
  cases c with
  | createFactory f =>
    have hf : ¬s.factories.containsKey (enc.account f) = true := fun hf => hc ((hp.factories f).mp hf)
    have hx : (enc.call (.createFactory f)).exec cfg router (enc.origin (.createFactory f)) s = _ :=
      (createFactory_exec ⟨s, [], []⟩ _).trans (if_neg hf)
    exact dispatch_of_ok hx
  | createVehicle f v =>
    have hf := (hp.factories f).mpr hc.1
    have hv : ¬s.vehicles.containsKey (enc.account v) = true :=
      fun hv => (hp.created_iff v).mp hv hc.2
    have hx : (enc.call (.createVehicle f v)).exec cfg router (enc.origin (.createVehicle f v)) s = _ :=
      (createVehicle_exec ⟨s, [], []⟩ _ _).trans ((if_pos hf).trans (if_neg hv))
    exact dispatch_of_ok hx
  | initVehicle v =>
    have hv := (hp.created_iff v).mpr hc
    have hx : (enc.call (.initVehicle v)).exec cfg router (enc.origin (.initVehicle v)) s = _ :=
      (initVehicle_exec ⟨s, [], []⟩ _ _).trans ((if_pos hv).trans (if_pos rfl))
    exact dispatch_of_ok hx
  | reportAccident v d =>
    have hv := (hp.active v).mpr hc
    have hf := Bool.eq_false_iff.mp (free v d rfl)
    have hx : (enc.call (.reportAccident v d)).exec cfg router (enc.origin (.reportAccident v d)) s = _ :=
      (reportAccident_exec cfg ⟨s, [], []⟩ _ _).trans ((if_pos hv).trans (if_neg hf))
    exact dispatch_of_ok hx

/-- The call of any other command fails and changes nothing. -/
theorem refuse (hp : PalletsHold enc u h s) {c : Command A D} (hc : ¬u.Allowed c) :
    ∃ e ev sent, dispatch cfg router (enc.origin c) (enc.call c) s = (s, ⟨.error e, ev, sent⟩) := by
  cases c with
  | createFactory f =>
    have hf := (hp.factories f).mpr (not_not.mp hc)
    exact ⟨_, dispatch_of_error ((createFactory_exec ⟨s, [], []⟩ _).trans (if_pos hf)) rfl⟩
  | createVehicle f v =>
    by_cases hf : f ∈ u.factories
    · have hv := (hp.created_iff v).mpr fun hv => hc ⟨hf, hv⟩
      exact ⟨_, dispatch_of_error ((createVehicle_exec ⟨s, [], []⟩ _ _).trans
        ((if_pos ((hp.factories f).mpr hf)).trans (if_pos hv))) rfl⟩
    · exact ⟨_, dispatch_of_error ((createVehicle_exec ⟨s, [], []⟩ _ _).trans
        (if_neg (mt (hp.factories f).mp hf))) rfl⟩
  | initVehicle v =>
    have hv := mt (hp.created_iff v).mp hc
    exact ⟨_, dispatch_of_error ((initVehicle_exec ⟨s, [], []⟩ _ _).trans (if_neg hv)) rfl⟩
  | reportAccident v d =>
    have hv := mt (hp.active v).mp hc
    exact ⟨_, dispatch_of_error ((reportAccident_exec cfg ⟨s, [], []⟩ _ _).trans (if_neg hv)) rfl⟩

/-! ## Steps -/

/-- A step that reports nothing and leaves the registrations alone. -/
theorem frame (hp : PalletsHold enc u h s) {e : ChainEntry AccountId BlockNumber}
    {s' : Storage AccountId BlockNumber} (he : ∀ v, reportOf v e = none)
    (hf : s'.factories = s.factories) (hv : s'.vehicles = s.vehicles)
    (ha : s'.vehiclesStatus = s.vehiclesStatus) : PalletsHold enc u (h ++ [e]) s' where
  factories f := by rw [hf]; exact hp.factories f
  vehicles v := by rw [hv]; exact hp.vehicles v
  active v := by rw [SimRenault.isVehicle, ha]; exact hp.active v
  made v := by
    rw [reports_snoc, he, Option.toList_none, List.append_nil]
    exact hp.made v

/-- The step of an allowed command. -/
theorem perform [DecidableEq A] (hp : PalletsHold enc u h s) (c : Command A D)
    (ev : List (Event AccountId BlockNumber)) (sent : List (Transact AccountId)) :
    PalletsHold enc (u.perform c) (h ++ [⟨s, enc.input router c, some ⟨.ok (), ev, sent⟩⟩])
      (performed cfg enc s c) := by
  cases c with
  | createFactory f =>
    have hk := hp.frame (e := ⟨s, enc.input router (.createFactory f), some ⟨.ok (), ev, sent⟩⟩)
      (fun _ => reportOf_of_ne nofun) rfl rfl rfl
    refine ⟨fun g => ?_, hk.vehicles, hk.active, hk.made⟩
    rw [performed, StorageMap.containsKey_insert, enc.account_inj.eq_iff, hp.factories g]
    exact Set.mem_insert_iff.symm
  | createVehicle f v =>
    have hk := hp.frame (e := ⟨s, enc.input router (.createVehicle f v), some ⟨.ok (), ev, sent⟩⟩)
      (fun _ => reportOf_of_ne nofun) rfl rfl rfl
    refine ⟨hk.factories, fun w => ?_, hk.active, hk.made⟩
    by_cases hw : w = v
    · subst hw
      simp [performed, UseCase.perform]
    · simp only [performed, UseCase.perform, Function.update_of_ne hw]
      rw [StorageMap.get_insert_of_ne (mt (fun e => enc.account_inj e) hw)]
      exact hp.vehicles w
  | initVehicle v =>
    have hk := hp.frame (e := ⟨s, enc.input router (.initVehicle v), some ⟨.ok (), ev, sent⟩⟩)
      (fun _ => reportOf_of_ne nofun) rfl rfl rfl
    refine ⟨hk.factories, hk.vehicles, fun w => ?_, hk.made⟩
    rw [UseCase.perform, Set.mem_insert_iff, ← hp.active w, isVehicle_eq_true, isVehicle_eq_true]
    by_cases hw : w = v
    · subst hw
      simp [performed]
    · rw [performed, StorageMap.get_insert_of_ne (mt (fun e => enc.account_inj e) hw)]
      simp [hw]
  | reportAccident v d =>
    refine ⟨hp.factories, hp.vehicles, hp.active, fun w => ?_⟩
    rw [reports_snoc, Encoding.input, Encoding.origin, Encoding.call, reportOf_report]
    by_cases hw : w = v
    · subst hw
      simp [UseCase.perform, hp.made w]
    · rw [if_neg (mt (fun e => (enc.account_inj e).symm) hw)]
      simp [UseCase.perform, Function.update_of_ne hw, hp.made w]

end PalletsHold

/-! ## Runs -/

section Run

variable (router : SendXcm AccountId) (g : Genesis AccountId BlockNumber)

/-- The history of a list of turns on the pallets. -/
def palletsTrace (ts : List (Turn A D BlockNumber)) : List (ChainEntry AccountId BlockNumber) :=
  (chain cfg).trace g.storage (enc.inputs router ts)

/-- The storage after a list of turns on the pallets. -/
def palletsRun (ts : List (Turn A D BlockNumber)) : Storage AccountId BlockNumber :=
  (chain cfg).run g.storage (enc.inputs router ts)

/-- The entry of a turn's call in the storage `s`. -/
def palletsEntry (s : Storage AccountId BlockNumber) (t : Turn A D BlockNumber) :
    ChainEntry AccountId BlockNumber :=
  (chain cfg).entry ((chain cfg).next s (.newBlock t.paraBlock)) (enc.input router t.command)

theorem palletsTrace_snoc (ts : List (Turn A D BlockNumber)) (t : Turn A D BlockNumber) :
    palletsTrace cfg enc router g (ts ++ [t]) =
      palletsTrace cfg enc router g ts ++
        [(chain cfg).entry (palletsRun cfg enc router g ts) (.newBlock t.paraBlock)] ++
        [palletsEntry cfg enc router (palletsRun cfg enc router g ts) t] := by
  simp only [palletsTrace, palletsRun, Encoding.inputs, List.flatMap_append, Machine.trace_append]
  simp [palletsEntry]

theorem palletsRun_snoc (ts : List (Turn A D BlockNumber)) (t : Turn A D BlockNumber) :
    palletsRun cfg enc router g (ts ++ [t]) =
      (chain cfg).next ((chain cfg).next (palletsRun cfg enc router g ts) (.newBlock t.paraBlock))
        (enc.input router t.command) := by
  simp only [palletsRun, Encoding.inputs, List.flatMap_append, Machine.run_append]
  simp

/-- The pallets hold the ledger of their reports before a turn's call, too. -/
theorem accidentLedger_turns (ts : List (Turn A D BlockNumber)) (n : BlockNumber) :
    AccidentLedger cfg
      (palletsTrace cfg enc router g ts ++
        [(chain cfg).entry (palletsRun cfg enc router g ts) (.newBlock n)])
      ((chain cfg).next (palletsRun cfg enc router g ts) (.newBlock n)) := by
  have hl := accidentLedger_run cfg g (enc.inputs router ts ++ [.newBlock n])
  rwa [Machine.trace_snoc, Machine.run_snoc] at hl

variable {cfg enc router g}

theorem palletsHold_init (hg : g.initFactoryAndVehicle = none) :
    PalletsHold enc UseCase.empty [] g.storage := by
  have hr := registry_genesis g
  rw [hg] at hr
  simp only [registry, Prod.mk.injEq] at hr
  obtain ⟨hf, hv, ha, -, -⟩ := hr
  refine ⟨fun f => ?_, fun v => ?_, fun v => ?_, fun v => rfl⟩
  · rw [hf]; simp [StorageMap.containsKey, UseCase.empty]
  · rw [hv]; rfl
  · rw [isVehicle_eq_true, ha]; simp [UseCase.empty]

/-- A vehicle's key is free when its turn to report comes. -/
theorem reportKey_free {ts : List (Turn A D BlockNumber)} {t : Turn A D BlockNumber} {v : A} {d : D}
    (hcf : cfg.CollisionFree (usedIn (palletsTrace cfg enc router g (ts ++ [t]))))
    (hlt : (reports (enc.account v) (palletsTrace cfg enc router g (ts ++ [t]))).length < 2 ^ 32)
    (hc : t.command = .reportAccident v d)
    (hv : SimRenault.isVehicle ((chain cfg).next (palletsRun cfg enc router g ts)
      (.newBlock t.paraBlock)) (enc.account v) = true) :
    let s := (chain cfg).next (palletsRun cfg enc router g ts) (.newBlock t.paraBlock)
    s.accidents.containsKey (cfg.key (enc.account v) (accidents s (enc.account v))) = false := by
  intro s
  rw [palletsTrace_snoc] at hcf hlt
  have hl := accidentLedger_turns cfg enc router g ts t.paraBlock
  refine (hl.nextKey_free_iff hcf (usedIn_subset _ _) ?_).mpr ?_
  · rw [usedIn_snoc]
    apply List.mem_append_right
    simp [palletsEntry, Encoding.input, Encoding.origin, Encoding.call, hc, keysUsed, hv]
  · rw [reports_snoc, List.length_append] at hlt
    omega

variable [DecidableEq A]

/-- One turn: its call is accepted exactly if the command is allowed. -/
theorem PalletsHold.turn {ts : List (Turn A D BlockNumber)} {t : Turn A D BlockNumber}
    {u : UseCase A D}
    (hcf : cfg.CollisionFree (usedIn (palletsTrace cfg enc router g (ts ++ [t]))))
    (hlt : ∀ v, (reports (enc.account v) (palletsTrace cfg enc router g (ts ++ [t]))).length < 2 ^ 32)
    (hp : PalletsHold enc u (palletsTrace cfg enc router g ts) (palletsRun cfg enc router g ts)) :
    (Succeeded (palletsEntry cfg enc router (palletsRun cfg enc router g ts) t) ↔
        u.Allowed t.command) ∧
      PalletsHold enc (u.next t.command) (palletsTrace cfg enc router g (ts ++ [t]))
        (palletsRun cfg enc router g (ts ++ [t])) := by
  have hfree := fun v d hc hv => reportKey_free (d := d) hcf (hlt v) hc hv
  have hp' : PalletsHold enc u
      (palletsTrace cfg enc router g ts ++
        [(chain cfg).entry (palletsRun cfg enc router g ts) (.newBlock t.paraBlock)])
      ((chain cfg).next (palletsRun cfg enc router g ts) (.newBlock t.paraBlock)) :=
    hp.frame (fun _ => rfl) rfl rfl rfl
  rw [palletsTrace_snoc, palletsRun_snoc, palletsEntry, Encoding.input, chain_entry_call,
    chain_next_call]
  generalize (chain cfg).next (palletsRun cfg enc router g ts) (.newBlock t.paraBlock) = s at *
  by_cases hc : u.Allowed t.command
  · obtain ⟨ev, sent, hd⟩ := hp'.accept cfg router hc fun v d he =>
      hfree v d he ((hp'.active v).mpr (by rw [he] at hc; exact hc))
    rw [hd, UseCase.next_of_allowed hc]
    exact ⟨⟨fun _ => hc, fun _ => ⟨_, rfl, rfl⟩⟩, hp'.perform cfg router t.command ev sent⟩
  · obtain ⟨e, ev, sent, hd⟩ := hp'.refuse cfg router hc
    rw [hd, UseCase.next_of_not_allowed hc]
    refine ⟨⟨?_, fun h => absurd h hc⟩, hp'.frame (fun _ => reportOf_error) rfl rfl rfl⟩
    rintro ⟨r, hr, hok⟩
    cases hr; cases hok

end Run

end SIM.Proof
