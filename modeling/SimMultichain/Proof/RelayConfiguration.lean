import SimMultichain.Proof.RelayRuns

/-!
# The configuration of a running relay chain

A change of the configuration is scheduled two sessions ahead, on top of the changes
scheduled before it. Where sessions follow one another, the changes that wait are in the order
of their sessions, at most two (`Scheduled`), and the last of them, or the active configuration
if none waits, is the one that all changes so far add up to (`Configuration.baseConfig`).

* `consistent_config_of_reachable`: unless the check is bypassed, no inconsistent configuration ever
  becomes active or is scheduled;
* `update_takes_effect`: a change is active two sessions later, and not before.
-/

namespace SIM.Proof.Relay

open SIM.Impl (ParaId)
open SIM.Impl.Relay

variable {host : Host} {s s' : State} {i : Input}

/-! ## A step -/

/-- What a step does to the configurations. -/
inductive ConfigStep (s : State) (i : Input) (s' : State) : Prop
  | kept (hc : s'.configuration = s.configuration) (hs : s'.sessionIndex = s.sessionIndex)
  | updated (updater : HostConfiguration → HostConfiguration) (hi : i = .setConfig updater)
      (hc : s.configuration.scheduleConfigUpdate s.sessionIndex updater = .ok s'.configuration)
      (hs : s'.sessionIndex = s.sessionIndex)
  | bypass (new : Bool) (hi : i = .setBypassConsistencyCheck new)
      (hc : s'.configuration = { s.configuration with bypassConsistencyCheck := new })
      (hs : s'.sessionIndex = s.sessionIndex)
  | session (n : SessionIndex) (hi : i = .newSession n)
      (hc : s'.configuration = s.configuration.initializerOnNewSession n) (hs : s'.sessionIndex = n)

theorem Move.config (h : Move i s s') (hu : ∀ updater, i ≠ .setConfig updater)
    (hb : ∀ b, i ≠ .setBypassConsistencyCheck b) : ConfigStep s i s' := by
  cases h with
  | idle s' _ hf _ ht => exact .kept (ht.configuration hu hb) hf.sessionIndex
  | session n hrmp hi _ => exact .session n hi rfl rfl
  | _ => exact .kept rfl rfl

/-- A call of HRMP leaves the configurations alone. -/
theorem Move.config_hrmpCall {canReserve : CanReserve} {origin : Origin} {call : HrmpCall}
    (h : Move (.hrmpCall canReserve origin call) s s') :
    s'.configuration = s.configuration ∧ s'.sessionIndex = s.sessionIndex := by
  cases h.config (fun updater hi => by cases hi) (fun b hi => by cases hi) with
  | kept hc hs => exact ⟨hc, hs⟩
  | updated updater hi _ _ => cases hi
  | bypass new hi _ _ => cases hi
  | session n hi _ _ => cases hi

theorem config_next (host : Host) (s : State) (i : Input) :
    ConfigStep s i ((relay host).next s i) := by
  rcases step_cases host s i with ⟨para, c, hi⟩ | ⟨hn, hm⟩
  · rw [hi.next]
    exact .kept rfl rfl
  · by_cases hu : ∃ updater, i = .setConfig updater
    · obtain ⟨updater, rfl⟩ := hu
      simp only [Machine.next, relay]
      split
      · rename_i configuration hc
        exact .updated updater rfl hc rfl
      · exact .kept rfl rfl
    · by_cases hb : ∃ b, i = .setBypassConsistencyCheck b
      · obtain ⟨b, rfl⟩ := hb
        exact .bypass b rfl rfl rfl
      · have hu' : ∀ updater, i ≠ .setConfig updater := fun updater he => hu ⟨updater, he⟩
        have hb' : ∀ b, i ≠ .setBypassConsistencyCheck b := fun b he => hb ⟨b, he⟩
        generalize (relay host).next s i = s' at hm
        cases hm with
        | one hm => exact hm.config hu' hb'
        | two _ hm' _ hr =>
          obtain ⟨dmp, hrmp, rfl⟩ := hr
          cases hm'.config hu' hb' with
          | kept hc hs => exact .kept hc hs
          | updated updater hi hc hs => exact .updated updater hi hc hs
          | bypass new hi hc hs => exact .bypass new hi hc hs
          | session n hi hc hs => exact .session n hi hc hs

/-! ## Consistency -/

/-- The check is not bypassed, and every configuration passes it. -/
structure AllConsistent (c : Configuration) : Prop where
  checked : c.bypassConsistencyCheck = false
  active : c.activeConfig.consistent = true
  pending : ∀ p ∈ c.pendingConfigs, p.2.consistent = true

theorem snd_mem_replaceFrom {session : SessionIndex} {config : HostConfiguration}
    {l : List (SessionIndex × HostConfiguration)} {p : SessionIndex × HostConfiguration}
    (h : p ∈ Configuration.replaceFrom session config l) : p.2 = config ∨ p ∈ l := by
  induction l with
  | nil => exact .inl (congrArg Prod.snd (List.mem_singleton.mp h))
  | cons q l ih =>
    obtain ⟨at', c⟩ := q
    unfold Configuration.replaceFrom at h
    split_ifs at h
    · rcases List.mem_cons.mp h with rfl | h
      · exact .inl rfl
      · exact .inr (List.mem_cons_of_mem _ h)
    · rcases List.mem_cons.mp h with rfl | h
      · exact .inr List.mem_cons_self
      · exact (ih h).imp_right (List.mem_cons_of_mem _)

/-- The last entry of a list that has a property, or what stands in for it. -/
theorem getLast?_getD_of_forall {P : HostConfiguration → Prop} {c : HostConfiguration}
    {l : List (SessionIndex × HostConfiguration)} (hl : ∀ p ∈ l, P p.2) (hc : P c) :
    P ((l.getLast?.map Prod.snd).getD c) := by
  cases hlast : l.getLast? with
  | none => exact hc
  | some p => exact hl p (List.mem_of_getLast? hlast)

theorem AllConsistent.base {c : Configuration} (h : AllConsistent c) : c.baseConfig.consistent = true :=
  getLast?_getD_of_forall (P := fun c => c.consistent = true) h.pending h.active

theorem AllConsistent.next (h : AllConsistent s.configuration)
    (hi : i ≠ .setBypassConsistencyCheck true) :
    AllConsistent ((relay host).next s i).configuration := by
  cases config_next host s i with
  | kept hc _ => rw [hc]; exact h
  | bypass new hb hc _ =>
    rw [hc]
    cases new with
    | false => exact ⟨rfl, h.active, h.pending⟩
    | true => exact absurd hb hi
  | updated updater _ hc _ =>
    unfold Configuration.scheduleConfigUpdate at hc
    dsimp only at hc
    split_ifs at hc with hbad
    rw [← Except.ok.inj hc]
    refine ⟨h.checked, h.active, fun p hp => ?_⟩
    rcases snd_mem_replaceFrom hp with he | hold
    · -- the base is consistent, so that an inconsistent change is refused
      rw [he]
      by_contra hne
      exact hbad (by simp [h.checked, h.base, hne])
    · exact h.pending p hold
  | session n _ hc _ =>
    rw [hc]
    refine ⟨h.checked, ?_, fun p hp => h.pending p (List.mem_filter.mp hp).1⟩
    exact getLast?_getD_of_forall (P := fun c => c.consistent = true)
      (fun p hp => h.pending p (List.mem_filter.mp hp).1) h.active

/-- Nobody bypasses the check. -/
def checkedEnv : Env where
  genesis _ _ := True
  step e := e.input ≠ .setBypassConsistencyCheck true

/-- Where the check is not bypassed, no inconsistent configuration becomes active or is scheduled. -/
theorem consistent_config_of_reachable (h : ReachableIn checkedEnv host s) :
    s.config.consistent = true ∧ ∀ p ∈ s.configuration.pendingConfigs, p.2.consistent = true := by
  have hall : AllConsistent s.configuration := by
    induction h with
    | first hg _ =>
      refine AllConsistent.next ?_ (fun hi => by cases hi)
      refine (genesis_induction (P := fun s => AllConsistent s.configuration) hg ?_ ?_).1
      · intro configuration paras hb _
        unfold Configuration.build at hb
        split_ifs at hb with hc
        cases hb
        exact ⟨rfl, hc, fun p hp => by cases hp⟩
      · intro s s' _ _ hm hs
        rw [hm.config_hrmpCall.1]
        exact hs
    | step _ i he ih => exact ih.next he
  exact ⟨hall.active, hall.pending⟩

/-- The first block, where a change that would be inconsistent was refused. -/
theorem consistent_config_of_reachable_twoParas :
    ((relay plainHost).next twoParasFirst
        (.setConfig fun c => { c with noShowSlots := 0 })).config.consistent = true ∧
      ∀ p ∈ ((relay plainHost).next twoParasFirst
        (.setConfig fun c => { c with noShowSlots := 0 })).configuration.pendingConfigs,
        p.2.consistent = true :=
  consistent_config_of_reachable
    ((ReachableIn.first (Option.some_get twoParas_isSome).symm trivial).step _ fun hi => by cases hi)

/-! ## The delay of a change -/

section Schedule

variable {session : SessionIndex} {config : HostConfiguration}
  {l : List (SessionIndex × HostConfiguration)}

/-- A change replaces one for the same session, and comes last. -/
theorem replaceFrom_eq (hs : l.Pairwise fun p q => p.1 < q.1) (hb : ∀ p ∈ l, p.1 ≤ session) :
    Configuration.replaceFrom session config l =
      l.filter (fun p => p.1 < session) ++ [(session, config)] := by
  induction l with
  | nil => rfl
  | cons p l ih =>
    obtain ⟨at', c⟩ := p
    rw [List.pairwise_cons] at hs
    rw [List.forall_mem_cons] at hb
    unfold Configuration.replaceFrom
    split_ifs with hle
    · -- nothing comes after the session of the change
      obtain rfl : at' = session := le_antisymm hb.1 hle
      have hnil : l = [] := List.eq_nil_iff_forall_not_mem.mpr fun q hq =>
        absurd (hs.1 q hq) (not_lt.mpr (hb.2 q hq))
      simp [hnil]
    · rw [ih hs.2 hb.2, List.filter_cons_of_pos (by simpa using hle), List.cons_append]

/-- The configuration that all changes add up to stays the same when some of them become due. -/
theorem baseConfig_initializerOnNewSession {c : Configuration}
    (hs : c.pendingConfigs.Pairwise fun p q => p.1 < q.1) (n : SessionIndex) :
    (c.initializerOnNewSession n).baseConfig = c.baseConfig := by
  unfold Configuration.initializerOnNewSession Configuration.baseConfig
  dsimp only
  rcases List.eq_nil_or_concat c.pendingConfigs with hnil | ⟨init, q, hq⟩
  · rw [hnil]
    rfl
  · rw [List.concat_eq_append] at hq
    rw [hq] at hs ⊢
    by_cases hle : q.1 ≤ n
    · -- all are due
      have hall : ∀ p ∈ init ++ [q], p.1 ≤ n := by
        intro p hp
        rcases List.mem_append.mp hp with hp | hp
        · exact ((List.pairwise_append.mp hs).2.2 p hp q List.mem_cons_self).le.trans hle
        · rw [List.mem_singleton.mp hp]
          exact hle
      rw [List.filter_eq_nil_iff.mpr (fun p hp => by simpa using hall p hp),
        List.filter_eq_self.mpr (fun p hp => by simpa using hall p hp)]
      simp
    · have hfuture : (init ++ [q]).filter (fun p => ¬ p.1 ≤ n) =
          init.filter (fun p => ¬ p.1 ≤ n) ++ [q] := by
        rw [List.filter_append, List.filter_cons_of_pos (by simpa using hle), List.filter_nil]
      rw [hfuture]
      simp

end Schedule

/-- The changes that wait, in the order of their sessions, which are the next two. -/
structure Scheduled (s : State) : Prop where
  sorted : s.configuration.pendingConfigs.Pairwise fun p q => p.1 < q.1
  next : ∀ p ∈ s.configuration.pendingConfigs, s.sessionIndex < p.1
  last : ∀ p ∈ s.configuration.pendingConfigs, p.1 ≤ scheduledSession s.sessionIndex

theorem Scheduled.congr (h : Scheduled s)
    (hp : s'.configuration.pendingConfigs = s.configuration.pendingConfigs)
    (hs : s'.sessionIndex = s.sessionIndex) : Scheduled s' := by
  constructor <;> rw [hp]
  · exact h.sorted
  · rw [hs]
    exact h.next
  · rw [hs]
    exact h.last

/-- Sessions follow one another. -/
def sessionsEnv : Env where
  genesis _ _ := True
  step e := ∀ n, e.input = .newSession n → n = e.before.sessionIndex + 1

theorem scheduleConfigUpdate_eq {c c' : Configuration} {session : SessionIndex}
    {updater : HostConfiguration → HostConfiguration}
    (h : c.scheduleConfigUpdate session updater = .ok c') : c' = { c with
      pendingConfigs := Configuration.replaceFrom (scheduledSession session) (updater c.baseConfig)
        c.pendingConfigs } := by
  unfold Configuration.scheduleConfigUpdate at h
  dsimp only at h
  split_ifs at h
  exact (Except.ok.inj h).symm

theorem Scheduled.step (h : Scheduled s)
    (hi : ∀ n, i = .newSession n → n = s.sessionIndex + 1) : Scheduled ((relay host).next s i) := by
  cases config_next host s i with
  | kept hc hs => exact h.congr (congrArg Configuration.pendingConfigs hc) hs
  | bypass new _ hc hs => exact h.congr (by rw [hc]) hs
  | updated updater _ hc hs =>
    have he := scheduleConfigUpdate_eq hc
    rw [replaceFrom_eq h.sorted h.last] at he
    have hmem : ∀ p ∈ ((relay host).next s i).configuration.pendingConfigs,
        p ∈ s.configuration.pendingConfigs ∨ p.1 = scheduledSession s.sessionIndex := by
      intro p hp
      rw [he] at hp
      rcases List.mem_append.mp hp with hp | hp
      · exact .inl (List.mem_filter.mp hp).1
      · exact .inr (congrArg Prod.fst (List.mem_singleton.mp hp))
    refine ⟨?_, fun p hp => ?_, fun p hp => ?_⟩
    · rw [he]
      refine List.pairwise_append.mpr ⟨h.sorted.filter _, List.pairwise_singleton .., ?_⟩
      intro p hp q hq
      rw [List.mem_singleton.mp hq]
      simpa using (List.mem_filter.mp hp).2
    · rw [hs]
      rcases hmem p hp with hold | hnew
      · exact h.next p hold
      · rw [hnew]
        exact Nat.lt_add_of_pos_right (by decide)
    · rw [hs]
      rcases hmem p hp with hold | hnew
      · exact h.last p hold
      · exact hnew.le
  | session n hn hc hs =>
    obtain rfl := hi n hn
    refine ⟨?_, fun p hp => ?_, fun p hp => ?_⟩
    · rw [hc]
      exact h.sorted.filter _
    · rw [hc] at hp
      rw [hs]
      simpa using (List.mem_filter.mp hp).2
    · rw [hc] at hp
      rw [hs]
      exact (h.last p (List.mem_filter.mp hp).1).trans (Nat.le_succ _)

theorem scheduled_of_reachable (h : ReachableIn sessionsEnv host s) : Scheduled s := by
  induction h with
  | first hg _ =>
    refine Scheduled.step ?_ (fun n hi => by cases hi)
    refine (genesis_induction (P := Scheduled) hg ?_ ?_).1
    · intro configuration paras hb _
      unfold Configuration.build at hb
      split_ifs at hb
      cases hb
      exact ⟨.nil, fun p hp => (by cases hp), fun p hp => (by cases hp)⟩
    · intro s s' _ _ hm hs
      exact hs.congr (congrArg Configuration.pendingConfigs hm.config_hrmpCall.1) hm.config_hrmpCall.2
  | step _ i he ih => exact ih.step he

/-- Without changes of the configuration, those that wait are old ones, and all add up to the
same. -/
theorem config_run (h : ReachableIn sessionsEnv host s) {is : List Input}
    (hno : ∀ updater, .setConfig updater ∉ is)
    (henv : ∀ e ∈ (relay host).trace s is, sessionsEnv.step e) :
    ((relay host).run s is).configuration.baseConfig = s.configuration.baseConfig ∧
      ∀ p ∈ ((relay host).run s is).configuration.pendingConfigs,
        p ∈ s.configuration.pendingConfigs := by
  induction is generalizing s with
  | nil => exact ⟨rfl, fun p hp => hp⟩
  | cons i is ih =>
    rw [Machine.trace_cons, List.forall_mem_cons] at henv
    obtain ⟨hbase, hpend⟩ := ih (h.step i henv.1)
      (fun updater hm => hno updater (List.mem_cons_of_mem _ hm)) henv.2
    rw [Machine.run_cons]
    have hstep : ((relay host).next s i).configuration.baseConfig = s.configuration.baseConfig ∧
        ∀ p ∈ ((relay host).next s i).configuration.pendingConfigs,
          p ∈ s.configuration.pendingConfigs := by
      cases config_next host s i with
      | kept hc _ => rw [hc]; exact ⟨rfl, fun p hp => hp⟩
      | bypass new _ hc _ => rw [hc]; exact ⟨rfl, fun p hp => hp⟩
      | updated updater hi _ _ => exact absurd (hi ▸ List.mem_cons_self) (hno updater)
      | session n _ hc _ =>
        rw [hc]
        exact ⟨baseConfig_initializerOnNewSession (scheduled_of_reachable h).sorted n,
          fun p hp => (List.mem_filter.mp hp).1⟩
    exact ⟨hbase.trans hstep.1, fun p hp => hstep.2 p (hpend p hp)⟩

/-- A change that is accepted is active from the second session on, with all changes that it was
made on top of; the next session still starts with the configuration it would have had. -/
theorem update_takes_effect (h : ReachableIn sessionsEnv host s)
    (updater : HostConfiguration → HostConfiguration) {c : Configuration}
    (hok : s.configuration.scheduleConfigUpdate s.sessionIndex updater = .ok c) (is : List Input)
    (hno : ∀ updater', .setConfig updater' ∉ is)
    (henv : ∀ e ∈ (relay host).trace ((relay host).next s (.setConfig updater)) is, sessionsEnv.step e)
    (hses : s.sessionIndex + 2 ≤
      ((relay host).run s (.setConfig updater :: is)).sessionIndex) :
    ((relay host).run s (.setConfig updater :: is)).config = updater s.configuration.baseConfig ∧
      (c.initializerOnNewSession (s.sessionIndex + 1)).activeConfig =
        (s.configuration.initializerOnNewSession (s.sessionIndex + 1)).activeConfig := by
  have hsched := scheduled_of_reachable h
  have he := scheduleConfigUpdate_eq hok
  rw [replaceFrom_eq hsched.sorted hsched.last] at he
  constructor
  · have hnext : (relay host).next s (.setConfig updater) = { s with configuration := c } := by
      simp only [Machine.next, relay, hok]
    have hreach := h.step (.setConfig updater) (fun n hi => by cases hi)
    have hfinal := scheduled_of_reachable (hreach.run henv)
    obtain ⟨hbase, hpend⟩ := config_run hreach hno henv
    have hlast := (scheduled_of_reachable hreach).last
    rw [Machine.run_cons] at hses ⊢
    -- all that waited has become due
    have hnil : ((relay host).run ((relay host).next s (.setConfig updater))
        is).configuration.pendingConfigs = [] := by
      refine List.eq_nil_iff_forall_not_mem.mpr fun p hp => ?_
      have hle : p.1 ≤ scheduledSession ((relay host).next s (.setConfig updater)).sessionIndex :=
        hlast p (hpend p hp)
      rw [hnext] at hle
      exact absurd (hle.trans hses) (not_le.mpr (hfinal.next p hp))
    rw [Configuration.baseConfig, hnil] at hbase
    refine hbase.trans ?_
    rw [hnext, Configuration.baseConfig, he]
    simp
  · rw [he]
    simp only [Configuration.initializerOnNewSession, List.filter_append, List.filter_filter]
    have hdue : ∀ p : SessionIndex × HostConfiguration,
        (decide (p.1 ≤ s.sessionIndex + 1) && decide (p.1 < scheduledSession s.sessionIndex)) =
          decide (p.1 ≤ s.sessionIndex + 1) := by
      intro p
      rw [Bool.and_eq_left_iff_imp, decide_eq_true_eq, decide_eq_true_eq]
      exact fun hle => Nat.lt_succ_of_le hle
    have hnew : [(scheduledSession s.sessionIndex, updater s.configuration.baseConfig)].filter
        (fun p => p.1 ≤ s.sessionIndex + 1) = [] := by
      rw [List.filter_eq_nil_iff]
      intro p hp
      rw [List.mem_singleton.mp hp, decide_eq_true_eq]
      exact not_le.mpr (Nat.lt_succ_self _)
    rw [hnew, List.append_nil]
    simp only [hdue]

/-- A longer queue of upward messages. -/
def longerQueue (c : HostConfiguration) : HostConfiguration := { c with maxUpwardQueueCount := 9 }

theorem update_takes_effect_twoParas :
    ((relay plainHost).run twoParasFirst
      [.setConfig longerQueue, .newSession 1, .newSession 2]).config.maxUpwardQueueCount = 9 := by
  have henv : ∀ e ∈ (relay plainHost).trace ((relay plainHost).next twoParasFirst
      (.setConfig longerQueue)) [.newSession 1, .newSession 2], sessionsEnv.step e := by
    simp only [Machine.trace_cons, Machine.trace_nil, List.forall_mem_cons]
    refine ⟨fun n hn => ?_, fun n hn => ?_, fun e he => by cases he⟩
    · cases hn
      decide +kernel
    · cases hn
      decide +kernel
  have hreach : ReachableIn sessionsEnv plainHost twoParasFirst :=
    .first (Option.some_get twoParas_isSome).symm trivial
  rw [(update_takes_effect hreach longerQueue rfl [.newSession 1, .newSession 2] (by simp) henv
    (by decide +kernel)).1]
  rfl

end SIM.Proof.Relay
