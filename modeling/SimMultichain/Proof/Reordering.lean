import SimMultichain.Proof.IpfsStatus

/-!
# The order of reports

The reports of different vehicles do not meet: what a report gets, and what it adds
to `Accidents` under which key, depends on the vehicle's own reports before it only
(`answers`). The order in which a block interleaves them is then irrelevant, for the
results as well as for the maps (`reports_commute`).
-/

namespace SIM.Proof

open SIM.Impl

variable {AccountId BlockNumber : Type}

/-- A call of Renault's `reportAccident`, by any origin. -/
def IsReport (i : Input AccountId BlockNumber) : Prop :=
  ∃ router o d, i = .call router o (.renault (.reportAccident d))

/-- What a report gets: its result, and what `Accidents` holds after it under the keys that held
nothing before it. -/
structure Outcome where
  data : DataHash
  result : Option (Except DispatchError Unit)
  filed : Hash → Option DataHash

variable [DecidableEq AccountId] (cfg : Config AccountId)

/-- Whether an input is signed by an account. -/
def signedBy (v : AccountId) : Input AccountId BlockNumber → Bool
  | .call _ (.signed a) _ => a = v
  | _ => false

/-- The data hash of a report call signed by `v`. -/
def reportBy (v : AccountId) : Input AccountId BlockNumber → Option DataHash
  | .call _ (.signed a) (.renault (.reportAccident d)) => if a = v then some d else none
  | _ => none

/-- The entries that `Accidents` has after a step and did not have before it. -/
def added (e : ChainEntry AccountId BlockNumber) (k : Hash) : Option DataHash :=
  if e.before.accidents.containsKey k then none
  else ((chain cfg).next e.before e.input).accidents.get k

/-- A step files `d` under the key `k`, which held nothing, and leaves `Accidents` as it was
otherwise. -/
structure FiledUnder (e : ChainEntry AccountId BlockNumber) (d : DataHash) (k : Hash) : Prop where
  absent : e.before.accidents.get k = none
  stored : ((chain cfg).next e.before e.input).accidents = e.before.accidents.insert k d

/-- What a report call of `v` gets in a step. -/
def outcomeOf (v : AccountId) (e : ChainEntry AccountId BlockNumber) : Option Outcome :=
  (reportBy v e.input).map fun d => ⟨d, e.output.map Receipt.result, added cfg e⟩

/-- What the report calls of `v` get, oldest first. -/
def outcomes (v : AccountId) (h : List (ChainEntry AccountId BlockNumber)) : List Outcome :=
  h.filterMap (outcomeOf cfg v)

/-- The data of a report that was accepted. -/
def Outcome.accepted (o : Outcome) : Option DataHash :=
  match o.result with
  | some (.ok ()) => some o.data
  | _ => none

omit [DecidableEq AccountId] in
/-- What a vehicle with `n` accepted reports gets for one more. -/
def outcome (v : AccountId) (vehicle : Bool) (n : Nat) (d : DataHash) : Outcome :=
  if vehicle then
    if n < 2 ^ 32 then
      ⟨d, some (.ok ()), fun k => if k = cfg.key v (UInt32.ofNat n) then some d else none⟩
    else ⟨d, some (.error (.simRenaultAccident .accidentAlreadyStored)), fun _ => none⟩
  else ⟨d, some (.error (.simRenaultAccident .unknownVehicle)), fun _ => none⟩

/-- What a vehicle with `n` accepted reports gets for the reports `ds`. -/
def answers (v : AccountId) (vehicle : Bool) : Nat → List DataHash → List Outcome
  | _, [] => []
  | n, d :: ds => outcome cfg v vehicle n d ::
      answers v vehicle (n + (outcome cfg v vehicle n d).accepted.toList.length) ds

/-! ## A report on its own -/

omit [DecidableEq AccountId] in
theorem isReport_call {router : SendXcm AccountId} {o : Origin AccountId} {d : DataHash} :
    IsReport (.call router o (.renault (.reportAccident d)) : Input AccountId BlockNumber) :=
  ⟨router, o, d, rfl⟩

theorem reportBy_eq_some {v : AccountId} {i : Input AccountId BlockNumber} {d : DataHash} :
    reportBy v i = some d ↔ ∃ router, i = .call router (.signed v) (.renault (.reportAccident d)) := by
  unfold reportBy
  split
  · rename_i router a d'
    by_cases ha : a = v <;> simp [ha]
  · rename_i hne
    simp only [reduceCtorEq, false_iff, not_exists]
    exact fun router hi => hne router v d hi

/-- An accepted report of `v` is a report call signed by `v`. -/
theorem reportBy_of_reportOf {v : AccountId} {e : ChainEntry AccountId BlockNumber} {d : DataHash}
    (h : reportOf v e = some d) : reportBy v e.input = some d := by
  obtain ⟨s, i, r⟩ := e
  cases i with
  | newBlock n => cases h
  | call router o call =>
    obtain ⟨rfl, rfl, -⟩ := accepted_eq_some (reportOf_eq_some.mp h)
    simp [reportBy]

theorem reportOf_eq_outcomeOf (v : AccountId) (e : ChainEntry AccountId BlockNumber) :
    reportOf v e = (outcomeOf cfg v e).bind Outcome.accepted := by
  cases hb : reportBy v e.input with
  | none =>
    have hr : reportOf v e = none := by
      by_contra hne
      obtain ⟨d, hd⟩ := Option.ne_none_iff_exists'.mp hne
      rw [reportBy_of_reportOf hd] at hb
      cases hb
    simp [outcomeOf, hb, hr]
  | some d =>
    obtain ⟨s, i, r⟩ := e
    obtain ⟨router, rfl⟩ := reportBy_eq_some.mp hb
    cases r with
    | none => simp [outcomeOf, reportBy, reportOf, ChainEntry.accepted, Outcome.accepted]
    | some receipt =>
      obtain ⟨_ | ⟨⟨⟩⟩, ev, sent⟩ := receipt
      · simp [outcomeOf, reportBy, Outcome.accepted]
      · simp [outcomeOf, reportBy, reportOf_report, Outcome.accepted]

theorem reports_eq_outcomes (v : AccountId) (h : List (ChainEntry AccountId BlockNumber)) :
    reports v h = (outcomes cfg v h).filterMap Outcome.accepted := by
  rw [outcomes, List.filterMap_filterMap, reports]
  exact congrArg (List.filterMap · h) (funext (reportOf_eq_outcomeOf cfg v))

section Step

variable {cfg} {h : List (ChainEntry AccountId BlockNumber)} {s : Storage AccountId BlockNumber}
  {i : Input AccountId BlockNumber}

theorem isVehicle_report (hi : IsReport i) (v : AccountId) :
    SimRenault.isVehicle ((chain cfg).next s i) v = SimRenault.isVehicle s v := by
  obtain ⟨router, o, d, rfl⟩ := hi
  have hs := dispatch_effect cfg router s o (.renault (.reportAccident d))
  rw [chain_next_call]
  generalize dispatch cfg router o (.renault (.reportAccident d)) s = r at hs ⊢
  obtain ⟨s', res, ev, sent⟩ := r
  cases hs with
  | reportAccident _ _ => rfl
  | failed => rfl

/-- A step that leaves `Accidents` alone adds nothing. -/
theorem added_of_eq {e : ChainEntry AccountId BlockNumber}
    (h : ((chain cfg).next e.before e.input).accidents = e.before.accidents) :
    added cfg e = fun _ => none := by
  funext k
  unfold added
  split_ifs with hk
  · rfl
  · rw [h]
    exact StorageMap.containsKey_eq_false.mp (by simpa using hk)

/-- A step that files `d` under `k` adds that entry. -/
theorem FiledUnder.added_eq {e : ChainEntry AccountId BlockNumber} {d : DataHash} {k : Hash}
    (h : FiledUnder cfg e d k) : added cfg e = fun k' => if k' = k then some d else none := by
  funext k'
  unfold added
  rw [h.stored, StorageMap.get_insert]
  split_ifs with hk he he
  · rw [he, StorageMap.containsKey, h.absent] at hk
    cases hk
  · rfl
  · rfl
  · exact StorageMap.containsKey_eq_false.mp (by simpa using hk)

/-- A report that is accepted is filed under the key of the number of the reports before it. -/
theorem filedUnder_of_ok {v : AccountId} {d : DataHash} (hi : reportBy v i = some d)
    (hok : ((chain cfg).entry s i).output.map Receipt.result = some (.ok ())) :
    FiledUnder cfg ((chain cfg).entry s i) d (cfg.key v (accidents s v)) := by
  obtain ⟨router, rfl⟩ := reportBy_eq_some.mp hi
  have hs := dispatch_effect cfg router s (.signed v) (.renault (.reportAccident d))
  have hres : (dispatch cfg router (.signed v) (.renault (.reportAccident d)) s).2.result = .ok () :=
    Option.some.inj hok
  rw [chain_entry_call]
  generalize hr : dispatch cfg router (.signed v) (.renault (.reportAccident d)) s = r at hs hres ⊢
  obtain ⟨s', res, ev, sent⟩ := r
  cases hs with
  | reportAccident _ free =>
    refine ⟨StorageMap.containsKey_eq_false.mp free, ?_⟩
    rw [chain_next_call, hr]
  | failed => cases hres

/-- What a report call of `v` gets, from the number of its accepted reports. -/
theorem outcomeOf_report (hl : AccidentLedger cfg h s) {ks : List (AccountId × UInt32)}
    (hcf : cfg.CollisionFree ks) (hu : usedIn (h ++ [(chain cfg).entry s i]) ⊆ ks) {v : AccountId}
    {d : DataHash} (hi : reportBy v i = some d) :
    outcomeOf cfg v ((chain cfg).entry s i) =
      some (outcome cfg v (SimRenault.isVehicle s v) (reports v h).length d) := by
  obtain ⟨router, hrouter⟩ := reportBy_eq_some.mp hi
  have hr := dispatch_report cfg router s v d
  have hresult : ((chain cfg).entry s i).output.map Receipt.result =
      some (dispatch cfg router (.signed v) (.renault (.reportAccident d)) s).2.result := by
    rw [hrouter, chain_entry_call]
    rfl
  have hnext : (chain cfg).next s i =
      (dispatch cfg router (.signed v) (.renault (.reportAccident d)) s).1 := by
    rw [hrouter, chain_next_call]
  rw [outcomeOf, Machine.entry_input, hi, Option.map_some, Option.some.injEq]
  cases hv : SimRenault.isVehicle s v with
  | false =>
    simp only [hv, Bool.false_eq_true, if_false, Prod.mk.injEq] at hr
    rw [hr.1] at hresult
    rw [hr.2] at hnext
    rw [hresult, added_of_eq (congrArg Storage.accidents hnext), outcome, if_neg Bool.false_ne_true]
  | true =>
    have hfree := hl.nextKey_free_iff hcf
      (fun _ hp => hu (usedIn_subset h _ hp)) (v := v)
      (hu (by rw [usedIn_snoc, hrouter]; simp [keysUsed, hv]))
    by_cases hlt : (reports v h).length < 2 ^ 32
    · simp only [hv, hfree.mpr hlt, if_true, Bool.false_eq_true, if_false, Prod.mk.injEq] at hr
      rw [hr.1] at hresult
      rw [(filedUnder_of_ok hi hresult).added_eq, hresult, outcome, if_pos rfl, if_pos hlt, accidents,
        hl.represents.count_getD]
    · have htaken : s.accidents.containsKey (cfg.key v (accidents s v)) = true := by
        by_contra hf
        exact hlt (hfree.mp (by simpa using hf))
      simp only [hv, htaken, if_true, Prod.mk.injEq] at hr
      rw [hr.1] at hresult
      rw [hr.2] at hnext
      rw [hresult, added_of_eq (congrArg Storage.accidents hnext), outcome, if_pos rfl, if_neg hlt]

/-- What the report calls of a run get: for every account, what its own calls before and in the run
make of them. -/
theorem outcomes_run {ks : List (AccountId × UInt32)} (hcf : cfg.CollisionFree ks) (v : AccountId)
    {l : List (Input AccountId BlockNumber)} (hrep : ∀ i ∈ l, IsReport i)
    (hl : AccidentLedger cfg h s) (hu : usedIn (h ++ (chain cfg).trace s l) ⊆ ks) :
    outcomes cfg v ((chain cfg).trace s l) =
      answers cfg v (SimRenault.isVehicle s v) (reports v h).length (l.filterMap (reportBy v)) := by
  induction l generalizing h s with
  | nil => rfl
  | cons i l ih =>
    rw [Machine.trace_cons, List.append_cons] at hu
    have hu' : usedIn (h ++ [(chain cfg).entry s i]) ⊆ ks := by
      rw [usedIn_append] at hu
      exact (List.append_subset.mp hu).1
    have ih := ih (fun j hj => hrep j (List.mem_cons_of_mem _ hj)) (hl.step (chain_step cfg s i)) hu
    rw [isVehicle_report (hrep i List.mem_cons_self), reports_snoc, List.length_append] at ih
    rw [Machine.trace_cons, outcomes, List.filterMap_cons, ← outcomes, ih, List.filterMap_cons]
    rw [reportOf_eq_outcomeOf cfg]
    cases hi : reportBy v i with
    | none => simp [outcomeOf, hi]
    | some d => rw [outcomeOf_report hl hcf hu' hi]; rfl

/-- A run of reports sets the hashes of those it accepts to unchecked, and no other. -/
theorem ipfsStatus_reports {l : List (Input AccountId BlockNumber)} (hrep : ∀ i ∈ l, IsReport i)
    (d : DataHash) :
    ((∃ v, d ∈ reports v ((chain cfg).trace s l)) ∧
        ((chain cfg).run s l).ipfsStatus.get d = some 0) ∨
      ((¬ ∃ v, d ∈ reports v ((chain cfg).trace s l)) ∧
        ((chain cfg).run s l).ipfsStatus.get d = s.ipfsStatus.get d) := by
  induction l generalizing s with
  | nil => exact .inr ⟨by simp [reports], rfl⟩
  | cons i l ih =>
    have hcons : ∀ v, reports v ((chain cfg).trace s (i :: l)) =
        (reportOf v ((chain cfg).entry s i)).toList ++
          reports v ((chain cfg).trace ((chain cfg).next s i) l) := fun v => by
      rw [Machine.trace_cons, ← List.singleton_append, reports_append, ← List.nil_append [_],
        reports_snoc]
      rfl
    simp only [hcons, List.mem_append, Option.mem_toList, Machine.run_cons]
    rcases ih (fun j hj => hrep j (List.mem_cons_of_mem _ hj)) with ⟨⟨v, hv⟩, hget⟩ | ⟨hno, hget⟩
    · exact .inl ⟨⟨v, .inr hv⟩, hget⟩
    · by_cases hd : ∃ v, reportOf v ((chain cfg).entry s i) = some d
      · obtain ⟨v, hv⟩ := hd
        exact .inl ⟨⟨v, .inl hv⟩, hget.trans (status_lost cfg (chain_step cfg s i) hv)⟩
      · have hnone : ¬ ∃ v, reportOf v ((chain cfg).entry s i) = some d ∨
            d ∈ reports v ((chain cfg).trace ((chain cfg).next s i) l) := by
          rintro ⟨v, hv | hv⟩
          · exact hd ⟨v, hv⟩
          · exact hno ⟨v, hv⟩
        refine .inr ⟨hnone, ?_⟩
        refine hget.trans (status_kept cfg (chain_step cfg s i) ?_ fun v hv => hd ⟨v, hv⟩)
        rintro status ⟨⟨router, who, hi⟩, -⟩
        obtain ⟨router', o, d', rfl⟩ := hrep i List.mem_cons_self
        cases hi

/-- Runs of reports that accept the same data leave the same statuses. -/
theorem ipfsStatus_eq_of_reports {l l' : List (Input AccountId BlockNumber)}
    (hrep : ∀ i ∈ l, IsReport i) (hrep' : ∀ i ∈ l', IsReport i)
    (hsame : ∀ v, reports v ((chain cfg).trace s l) = reports v ((chain cfg).trace s l')) :
    ((chain cfg).run s l).ipfsStatus = ((chain cfg).run s l').ipfsStatus := by
  refine StorageMap.ext (funext fun d => ?_)
  have hd := @ipfsStatus_reports _ _ _ cfg s _ hrep d
  have hd' := @ipfsStatus_reports _ _ _ cfg s _ hrep' d
  simp only [hsame] at hd
  rcases hd with ⟨hv, hget⟩ | ⟨hv, hget⟩ <;> rcases hd' with ⟨hv', hget'⟩ | ⟨hv', hget'⟩
  · rw [hget, hget']
  · exact absurd hv hv'
  · exact absurd hv' hv
  · rw [hget, hget']

/-- Report calls without a signature fail. -/
theorem report_unsigned {l : List (Input AccountId BlockNumber)} (hrep : ∀ i ∈ l, IsReport i)
    {e : ChainEntry AccountId BlockNumber} (he : e ∈ (chain cfg).trace s l)
    (hns : ∀ v, signedBy v e.input = false) :
    e.output.map Receipt.result = some (.error .badOrigin) := by
  obtain ⟨ps, i, qs, rfl, rfl⟩ := (chain cfg).mem_trace.mp he
  obtain ⟨router, o, d, rfl⟩ := hrep i (by simp)
  have ho : ∀ who, o ≠ .signed who := by
    rintro who rfl
    simpa [signedBy] using hns who
  simp only [chain_entry_call, Option.map_some, dispatch, Call.exec, Call.body,
    SimRenaultAccident.reportAccident, exec_not_signed _ ho]
  cases cfg.transactional <;> rfl

end Step

/-- The report calls of `v` are among the calls it signed. -/
theorem filterMap_reportBy (v : AccountId) (l : List (Input AccountId BlockNumber)) :
    l.filterMap (reportBy v) = (l.filter (signedBy v)).filterMap (reportBy v) := by
  rw [List.filterMap_filter]
  refine List.filterMap_congr fun i _ => ?_
  cases hi : reportBy v i with
  | none => simp
  | some d =>
    obtain ⟨router, rfl⟩ := reportBy_eq_some.mp hi
    simp [signedBy]

/-- Two sequences of report calls with the same calls of every account, in the same order, end in
the same `Accidents`, `AccidentCount` and `IpfsStatus`. Each call of an account has the same result
in both and adds the same entries to `Accidents`; one that is accepted adds its data under a key that
held nothing, and nothing else. The calls without a signature fail. -/
theorem reports_commute (g : Genesis AccountId BlockNumber)
    (is l l' : List (Input AccountId BlockNumber)) :
    let s := (chain cfg).run g.storage is
    let t := (chain cfg).trace s l
    let t' := (chain cfg).trace s l'
    (∀ i ∈ l ++ l', IsReport i) → (∀ v, l.filter (signedBy v) = l'.filter (signedBy v)) →
    cfg.CollisionFree (usedIn ((chain cfg).trace g.storage is) ++ usedIn t ++ usedIn t') →
    (((chain cfg).run s l).accidents = ((chain cfg).run s l').accidents ∧
        ((chain cfg).run s l).accidentCount = ((chain cfg).run s l').accidentCount ∧
        ((chain cfg).run s l).ipfsStatus = ((chain cfg).run s l').ipfsStatus) ∧
      (∀ v, outcomes cfg v t = outcomes cfg v t') ∧
      (∀ e ∈ t ++ t', ∀ v d, reportBy v e.input = some d →
        e.output.map Receipt.result = some (.ok ()) → ∃ k, FiledUnder cfg e d k) ∧
      ∀ e ∈ t ++ t', (∀ v, signedBy v e.input = false) →
        e.output.map Receipt.result = some (.error .badOrigin) := by
  intro s t t' hrep hsame hcf
  obtain ⟨hrepl, hrepl'⟩ := List.forall_mem_append.mp hrep
  have hl : AccidentLedger cfg ((chain cfg).trace g.storage is) s := accidentLedger_run cfg g is
  have hout : ∀ v, outcomes cfg v t = outcomes cfg v t' := by
    intro v
    rw [outcomes_run hcf v hrepl hl (by rw [usedIn_append]; exact List.subset_append_left _ _),
      outcomes_run hcf v hrepl' hl (by rw [usedIn_append]; intro p; simp; tauto),
      filterMap_reportBy v l, filterMap_reportBy v l', hsame v]
  have hreports : ∀ v, reports v t' = reports v t := fun v => by
    rw [reports_eq_outcomes cfg, reports_eq_outcomes cfg, hout v]
  refine ⟨?_, hout, fun e he v d hi hok => ?_, fun e he => ?_⟩
  · have h1 := (accidentLedger_run cfg g (is ++ l)).represents
    have h2 := (accidentLedger_run cfg g (is ++ l')).represents
    simp only [Machine.trace_append, Machine.run_append, reports_append] at h1 h2
    simp only [t, t', s] at hreports
    simp only [hreports] at h2
    obtain ⟨ha, hc⟩ := h1.unique h2
    exact ⟨ha, hc, ipfsStatus_eq_of_reports hrepl hrepl' fun v => (hreports v).symm⟩
  · have hentry : e = (chain cfg).entry e.before e.input := by
      rcases List.mem_append.mp he with he | he
      all_goals
        obtain ⟨ps, i, qs, -, rfl⟩ := (chain cfg).mem_trace.mp he
        rfl
    rw [hentry] at hok ⊢
    exact ⟨_, filedUnder_of_ok hi hok⟩
  · rcases List.mem_append.mp he with he | he
    · exact report_unsigned hrepl he
    · exact report_unsigned hrepl' he

/-- The genesis factory creates a second vehicle, which initialises itself. -/
def twoVehicles : List (Input AccountId32 UInt32) :=
  [.call (fun _ => .ok ()) (.signed alice) (.renault (.createVehicle bob)),
    .call (fun _ => .ok ()) (.signed bob) (.renault (.initVehicle bob))]

/-- A report of the second vehicle. -/
def report' (d : DataHash) : Input AccountId32 UInt32 :=
  .call (fun _ => .ok ()) (.signed bob) (.renault (.reportAccident d))

/-- The reports of both vehicles are in `Accidents`, under the keys of their first reports, whichever
comes first; each was filed by the vehicle's own call. -/
theorem reports_commute_twoVehicles :
    let s := (chain (runtime false)).run renaultGenesis.storage twoVehicles
    let l := [report hash1, report' hash2]
    let l' := [report' hash2, report hash1]
    (runtime false).CollisionFree (usedIn ((chain (runtime false)).trace renaultGenesis.storage
        twoVehicles) ++ usedIn ((chain (runtime false)).trace s l) ++
          usedIn ((chain (runtime false)).trace s l')) ∧
      (((chain (runtime false)).run s l').accidents.get ((runtime false).key alice 0) = some hash1 ∧
        ((chain (runtime false)).run s l').accidents.get ((runtime false).key bob 0) = some hash2) ∧
      ((chain (runtime false)).run s l).accidents = ((chain (runtime false)).run s l').accidents ∧
      ∃ k, FiledUnder (runtime false) ((chain (runtime false)).entry s (report hash1)) hash1 k := by
  intro s l l'
  have hu : usedIn ((chain (runtime false)).trace renaultGenesis.storage twoVehicles) ++
      usedIn ((chain (runtime false)).trace s l) ++ usedIn ((chain (runtime false)).trace s l') =
        [(alice, 0), (bob, 0), (bob, 0), (alice, 0)] := by decide +kernel
  have hcf : (runtime false).CollisionFree [(alice, 0), (bob, 0), (bob, 0), (alice, 0)] :=
    .of_pairs (by decide +kernel)
  rw [← hu] at hcf
  have hrep : ∀ i ∈ l ++ l', IsReport i := by
    simp only [l, l', List.cons_append, List.nil_append, List.forall_mem_cons]
    exact ⟨isReport_call, isReport_call, isReport_call, isReport_call, nofun⟩
  have hsame : ∀ v, l.filter (signedBy v) = l'.filter (signedBy v) := by
    intro v
    have hne : alice ≠ bob := by decide
    by_cases ha : alice = v
    · subst ha; simp [l, l', report, report', signedBy, hne.symm]
    · simp [l, l', report, report', signedBy, List.filter_cons, ha]
  obtain ⟨⟨haccidents, -⟩, -, hfiled, -⟩ :=
    reports_commute (runtime false) renaultGenesis twoVehicles l l' hrep hsame hcf
  refine ⟨hcf, ⟨by decide +kernel, by decide +kernel⟩, haccidents,
    hfiled _ List.mem_cons_self alice hash1 (by decide) (by decide +kernel)⟩

end SIM.Proof
