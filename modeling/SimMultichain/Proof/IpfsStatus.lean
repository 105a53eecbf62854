import SimMultichain.Proof.Reporting

/-!
# The check status of IPFS ids

`IpfsStatus` has an entry for every data hash of an accepted report, and for no
other (`ipfsStatus_are_reports`). The entry is keyed by the hash and shared by all
reports that carry it: an accepted report puts it back to 0, also when the hash
was reported and checked before. `verdict_kept_iff` says that this is the only way
a verdict is lost without a later one.
-/

namespace SIM.Proof

open SIM.Impl

variable {AccountId BlockNumber : Type}

/-- A step in which `setIpfsStatus d status` succeeds. -/
def Checks (e : ChainEntry AccountId BlockNumber) (d : DataHash) (status : UInt8) : Prop :=
  (∃ router who, e.input = .call router (.signed who) (.renault (.setIpfsStatus d status))) ∧
    Succeeded e

variable [DecidableEq AccountId]

/-! ## What a step does to the statuses -/

/-- A step reports a hash, checks one, or leaves the statuses alone. -/
inductive StatusStep (s : Storage AccountId BlockNumber) (e : ChainEntry AccountId BlockNumber)
    (s' : Storage AccountId BlockNumber) : Prop where
  | report {v : AccountId} {d : DataHash}
      (reported : ∀ w, reportOf w e = if v = w then some d else none)
      (after : s'.ipfsStatus = s.ipfsStatus.insert d 0)
  | check {d : DataHash} {status : UInt8} (checks : Checks e d status)
      (known : s.ipfsStatus.containsKey d = true) (reported : ∀ w, reportOf w e = none)
      (after : s'.ipfsStatus = s.ipfsStatus.insert d status)
  | other (reported : ∀ w, reportOf w e = none) (after : s'.ipfsStatus = s.ipfsStatus)

variable (cfg : Config AccountId)

theorem status_step {s s' : Storage AccountId BlockNumber} {e : ChainEntry AccountId BlockNumber}
    (hs : ChainStep cfg s e s') : StatusStep s e s' := by
  cases hs with
  | newBlock n => exact .other (fun _ => rfl) rfl
  | call effect =>
    cases effect with
    | reportAccident _ _ => exact .report (fun w => reportOf_report _ w _ _ _ _ _) rfl
    | setIpfsStatus known =>
      exact .check ⟨⟨_, _, rfl⟩, _, rfl, rfl⟩ known (fun _ => reportOf_of_ne nofun) rfl
    | createFactory _ => exact .other (fun _ => reportOf_of_ne nofun) rfl
    | createVehicle _ _ => exact .other (fun _ => reportOf_of_ne nofun) rfl
    | initVehicle _ => exact .other (fun _ => reportOf_of_ne nofun) rfl
    | requestData _ _ _ => exact .other (fun _ => reportOf_of_ne nofun) rfl
    | signUp => exact .other (fun _ => reportOf_of_ne nofun) rfl
    | declare _ _ _ => exact .other (fun _ => reportOf_of_ne nofun) rfl
    | undelivered _ _ _ => exact .other (fun _ => reportOf_error) rfl
    | receiveData _ => exact .other (fun _ => reportOf_of_ne nofun) rfl
    | failed => exact .other (fun _ => reportOf_error) rfl

/-! ## Entries -/

theorem genesis_ipfsStatus (g : Genesis AccountId BlockNumber) : g.storage.ipfsStatus = .empty := by
  simp only [Genesis.storage, SimInsurance.build, SimRenault.build]
  cases g.initDriver <;> cases g.initFactoryAndVehicle <;> rfl

/-- A run gives an entry to the hashes of its reports, and to no other. -/
theorem ipfsStatus_run (g : Genesis AccountId BlockNumber) (is : List (Input AccountId BlockNumber))
    (d : DataHash) :
    ((chain cfg).run g.storage is).ipfsStatus.containsKey d = true ↔
      ∃ v, d ∈ reports v ((chain cfg).trace g.storage is) := by
  refine chain_invariant cfg (fun h s => s.ipfsStatus.containsKey d = true ↔ ∃ v, d ∈ reports v h)
    (fun _ => True) ?_ (fun h s e s' hs _ ih => ?_) fun _ _ => trivial
  · simp [genesis_ipfsStatus, reports, StorageMap.containsKey]
  · simp only [reports_snoc, List.mem_append]
    cases status_step cfg hs with
    | other reported after => simp [after, reported, ih]
    | @check d' _ _ known reported after =>
      simp only [after, reported, StorageMap.containsKey_insert, ih, Option.toList_none,
        List.not_mem_nil, or_false, or_iff_right_iff_imp]
      rintro rfl
      exact ih.mp known
    | @report v d' reported after =>
      simp only [after, reported, StorageMap.containsKey_insert, ih]
      constructor
      · rintro (rfl | ⟨w, hw⟩)
        · exact ⟨v, .inr (by simp)⟩
        · exact ⟨w, .inl hw⟩
      · rintro ⟨w, hw | hw⟩
        · exact .inr ⟨w, hw⟩
        · by_cases hv : v = w <;> simp [hv] at hw
          exact .inl hw

/-- The hashes of the reports are those that `Accidents` holds. -/
theorem accidents_run (g : Genesis AccountId BlockNumber) (is : List (Input AccountId BlockNumber))
    (d : DataHash) :
    (∃ key, ((chain cfg).run g.storage is).accidents.get key = some d) ↔
      ∃ v, d ∈ reports v ((chain cfg).trace g.storage is) := by
  have hl := accidentLedger_run cfg g is
  constructor
  · rintro ⟨key, hkey⟩
    obtain ⟨v, i, hi, -⟩ := hl.represents.only hkey
    exact ⟨v, List.mem_of_getElem? hi⟩
  · rintro ⟨v, hv⟩
    obtain ⟨i, hi⟩ := List.mem_iff_getElem?.mp hv
    exact ⟨_, hl.represents.stored hi⟩

/-- The call that sets a status. -/
theorem dispatch_check (router : SendXcm AccountId) (s : Storage AccountId BlockNumber)
    (who : AccountId) (d : DataHash) (status : UInt8) :
    let r := dispatch cfg router (.signed who) (.renault (.setIpfsStatus d status)) s
    (r.2.result, r.1) =
      if s.ipfsStatus.containsKey d then
        (.ok (), { s with ipfsStatus := s.ipfsStatus.insert d status })
      else (.error (.simRenaultAccident .ipfsStatusError), s) := by
  simp only [dispatch, Call.exec, Call.body, setIpfsStatus_exec]
  cases s.ipfsStatus.containsKey d with
  | false => cases cfg.transactional <;> rfl
  | true => rfl

theorem check_ok_iff (router : SendXcm AccountId) (s : Storage AccountId BlockNumber)
    (who : AccountId) (d : DataHash) (status : UInt8) :
    (dispatch cfg router (.signed who) (.renault (.setIpfsStatus d status)) s).2.result = .ok () ↔
      s.ipfsStatus.containsKey d = true := by
  have hr := dispatch_check cfg router s who d status
  simp only [Prod.ext_iff] at hr
  rw [hr.1]
  split <;> simp [*]

/-- After every run of a chain, `IpfsStatus` has an entry for a data hash exactly if an accepted
report of the run carried it, exactly if `Accidents` holds it somewhere; and a signed origin can set
its status exactly then. -/
theorem ipfsStatus_are_reports (g : Genesis AccountId BlockNumber)
    (is : List (Input AccountId BlockNumber)) (d : DataHash) :
    let h := (chain cfg).trace g.storage is
    let s := (chain cfg).run g.storage is
    (s.ipfsStatus.containsKey d = true ↔ ∃ v, d ∈ reports v h) ∧
      ((∃ v, d ∈ reports v h) ↔ ∃ key, s.accidents.get key = some d) ∧
      ∀ router who status,
        (dispatch cfg router (.signed who) (.renault (.setIpfsStatus d status)) s).2.result = .ok () ↔
          ∃ key, s.accidents.get key = some d := by
  intro h s
  have hi := ipfsStatus_run cfg g is d
  have ha := accidents_run cfg g is d
  refine ⟨hi, ha.symm, fun router who status => ?_⟩
  rw [check_ok_iff, hi, ha]

/-! ## Verdicts -/

/-- A step that checks no status of `d` keeps it, unless it reports `d`. -/
theorem status_kept {s s' : Storage AccountId BlockNumber} {e : ChainEntry AccountId BlockNumber}
    {d : DataHash} (hs : ChainStep cfg s e s') (hc : ∀ status, ¬ Checks e d status)
    (hr : ∀ v, reportOf v e ≠ some d) : s'.ipfsStatus.get d = s.ipfsStatus.get d := by
  cases status_step cfg hs with
  | other _ after => rw [after]
  | @check d' status checks _ _ after =>
    have hne : d ≠ d' := by rintro rfl; exact hc status checks
    rw [after, StorageMap.get_insert_of_ne hne]
  | @report v d' reported after =>
    have hne : d ≠ d' := by rintro rfl; exact hr v (by simp [reported])
    rw [after, StorageMap.get_insert_of_ne hne]

/-- A step that reports `d` puts its status back to 0. -/
theorem status_lost {s s' : Storage AccountId BlockNumber} {e : ChainEntry AccountId BlockNumber}
    {v : AccountId} {d : DataHash} (hs : ChainStep cfg s e s') (hr : reportOf v e = some d) :
    s'.ipfsStatus.get d = some 0 := by
  cases status_step cfg hs with
  | other reported _ => rw [reported] at hr; cases hr
  | check _ _ reported _ => rw [reported] at hr; cases hr
  | @report w d' reported after =>
    rw [reported] at hr
    by_cases hw : w = v <;> simp [hw] at hr
    rw [after, hr, StorageMap.get_insert_self]

/-- While no status of `d` is set, its status stays through a run exactly if no step reports `d`. -/
theorem status_run_iff {s : Storage AccountId BlockNumber} {d : DataHash} {status : UInt8}
    (hstatus : s.ipfsStatus.get d = some status) (hne : status ≠ 0)
    {js : List (Input AccountId BlockNumber)}
    (hc : ∀ e ∈ (chain cfg).trace s js, ∀ status, ¬ Checks e d status) :
    (∀ ks, ks <+: js → ((chain cfg).run s ks).ipfsStatus.get d = some status) ↔
      ∀ e ∈ (chain cfg).trace s js, ∀ v, ¬ Reports cfg e v d := by
  induction js generalizing s with
  | nil => simp [hstatus]
  | cons j js ih =>
    have hstep := chain_step cfg s j
    simp only [Machine.trace_cons, List.forall_mem_cons] at hc ⊢
    by_cases hr : ∃ v, Reports cfg ((chain cfg).entry s j) v d
    · obtain ⟨v, hv⟩ := hr
      have hlost := status_lost cfg hstep ((reports_iff cfg).mp hv)
      refine iff_of_false (fun hall => ?_) fun hno => hno.1 v hv
      have h1 := hall [j] ⟨js, rfl⟩
      rw [Machine.run_cons, Machine.run_nil, hlost] at h1
      exact hne (Option.some.inj h1).symm
    · have hkept := status_kept cfg hstep hc.1 fun v hv => hr ⟨v, (reports_iff cfg).mpr hv⟩
      rw [← ih (hkept.trans hstatus) hc.2]
      constructor
      · intro hall
        exact ⟨fun v hv => hr ⟨v, hv⟩, fun ks hks => hall (j :: ks) (List.cons_prefix_cons.mpr ⟨rfl, hks⟩)⟩
      · rintro ⟨-, hall⟩ ks hks
        cases ks with
        | nil => exact hstatus
        | cons k ks =>
          obtain ⟨rfl, hpre⟩ := List.cons_prefix_cons.mp hks
          exact hall ks hpre

/-- A verdict on `d` that was set in a run stays until the next one on `d` exactly if, up to there,
no initialised vehicle with a free key reports `d`. -/
theorem verdict_kept_iff (g : Genesis AccountId BlockNumber) (is js : List (Input AccountId BlockNumber))
    (router : SendXcm AccountId) (who : AccountId) (d : DataHash) (status : UInt8) :
    let s := (chain cfg).run g.storage is
    let i := Input.call router (.signed who) (.renault (.setIpfsStatus d status))
    let t := (chain cfg).next s i
    status = 1 ∨ status = 2 → Checks ((chain cfg).entry s i) d status →
    (∀ e ∈ (chain cfg).trace t js, ∀ status', ¬ Checks e d status') →
    ((∀ ks, ks <+: js → ((chain cfg).run t ks).ipfsStatus.get d = some status) ↔
      ∀ e ∈ (chain cfg).trace t js, ∀ v, ¬ Reports cfg e v d) := by
  intro s i t hverdict hset hno
  have hne : status ≠ 0 := by rcases hverdict with rfl | rfl <;> decide
  refine status_run_iff cfg ?_ hne hno
  obtain ⟨-, r, hout, hres⟩ := hset
  rw [chain_entry_call, Option.some.injEq] at hout
  subst hout
  have hr := dispatch_check cfg router s who d status
  rw [if_pos ((check_ok_iff cfg router s who d status).mp hres), Prod.ext_iff] at hr
  rw [show t = { s with ipfsStatus := s.ipfsStatus.insert d status } from hr.2]
  exact StorageMap.get_insert_self

theorem not_checks_report (s : Storage AccountId32 UInt32) (d d' : DataHash) (status : UInt8) :
    ¬ Checks ((chain (runtime false)).entry s (report d)) d' status := by
  rintro ⟨⟨router, who, hi⟩, -⟩
  cases hi

theorem verdict_kept_other :
    Checks ((chain (runtime false)).entry
        ((chain (runtime false)).run renaultGenesis.storage [report hash1])
        (.call (fun _ => .ok ()) (.signed bob) (.renault (.setIpfsStatus hash1 1)))) hash1 1 ∧
      ((chain (runtime false)).run ((chain (runtime false)).next
        ((chain (runtime false)).run renaultGenesis.storage [report hash1])
        (.call (fun _ => .ok ()) (.signed bob) (.renault (.setIpfsStatus hash1 1))))
        [report hash2]).ipfsStatus.get hash1 = some 1 := by
  have hset : Checks ((chain (runtime false)).entry
      ((chain (runtime false)).run renaultGenesis.storage [report hash1])
      (.call (fun _ => .ok ()) (.signed bob) (.renault (.setIpfsStatus hash1 1)))) hash1 1 :=
    ⟨⟨_, _, rfl⟩, _, rfl, by decide +kernel⟩
  have hiff := verdict_kept_iff (runtime false) renaultGenesis [report hash1] [report hash2]
    (fun _ => .ok ()) bob hash1 1 (.inl rfl) hset (by
      simp only [Machine.trace_cons, Machine.trace_nil, List.mem_singleton]
      rintro e rfl status
      exact not_checks_report _ _ _ _)
  refine ⟨hset, hiff.mpr ?_ [report hash2] (List.prefix_refl _)⟩
  simp only [Machine.trace_cons, Machine.trace_nil, List.mem_singleton]
  rintro e rfl v ⟨⟨router, hi⟩, -⟩
  simp only [Machine.entry_input, report, Input.call.injEq, Call.renault.injEq,
    RenaultCall.reportAccident.injEq] at hi
  exact absurd hi.2.2 (by decide)

/-- A reported id is checked and found OK, and reported once more: it is unchecked again, with no
status set since. -/
theorem verdict_lost :
    let s := (chain (runtime false)).run renaultGenesis.storage [report hash1]
    let i := Input.call (fun _ => .ok ()) (.signed bob) (.renault (.setIpfsStatus hash1 1))
    let t := (chain (runtime false)).next s i
    Checks ((chain (runtime false)).entry s i) hash1 1 ∧ t.ipfsStatus.get hash1 = some 1 ∧
      (∀ e ∈ (chain (runtime false)).trace t [report hash1], ∀ status, ¬ Checks e hash1 status) ∧
      ((chain (runtime false)).run t [report hash1]).ipfsStatus.get hash1 = some 0 := by
  intro s i t
  refine ⟨⟨⟨_, _, rfl⟩, _, rfl, by decide +kernel⟩, by decide +kernel, ?_, by decide +kernel⟩
  simp only [Machine.trace_cons, Machine.trace_nil, List.mem_singleton]
  rintro e rfl status
  exact not_checks_report _ _ _ _

end SIM.Proof
