import SimMultichain.Proof.SenderProcess

/-!
# The phases of a benchmark

A coordinator that leads its workers through their phases. What it has sent is a function of the
messages it has handled so far (`issued`): `init` to a worker that has started, `prepare` to all
once all have answered `init_ok`, `send` to all once all have answered `prepare_ok`, `exit` to a
worker that has answered `send_ok`. With that, every worker gets the commands of the script one
after the other (`Coordinated.command_due`), and its steps are those of `Proof.SenderProcess`.
-/

namespace SIM.Proof.Benchmark

open SIM.Impl.Benchmark

variable {AccountId : Type} {script : Script}

/-! ## What a worker says -/

/-- The messages of a worker that runs to its end. -/
def replyPlan (n success failed finished : Nat) : List Reply :=
  [.initWorker, .initOk, .prepareStats n, .prepareOk, .sendStats success failed finished, .sendOk]

theorem Talk.sent_prefix {received : List Command} {sent : List Reply}
    (h : Talk script received sent) :
    ∃ n success failed finished, sent <+: replyPlan n success failed finished := by
  cases h with
  | started => exact ⟨0, 0, 0, 0, by simp [replyPlan]⟩
  | initialising => exact ⟨0, 0, 0, 0, by simp [replyPlan]⟩
  | ready => exact ⟨0, 0, 0, 0, by simp [replyPlan]⟩
  | preparing => exact ⟨0, 0, 0, 0, by simp [replyPlan]⟩
  | prepared n => exact ⟨n, 0, 0, 0, by simp [replyPlan]⟩
  | sending n => exact ⟨n, 0, 0, 0, by simp [replyPlan]⟩
  | reported n success failed finished => exact ⟨n, success, failed, finished, by simp [replyPlan]⟩
  | done n success failed finished => exact ⟨n, success, failed, finished, List.prefix_rfl⟩
  | exited n success failed finished => exact ⟨n, success, failed, finished, List.prefix_rfl⟩

theorem Talk.received_of_sendOk {received : List Command} {sent : List Reply}
    (h : Talk script received sent) (hs : .sendOk ∈ sent) : script.send ∈ received := by
  cases h with
  | done => simp
  | exited => simp [plan]
  | _ => simp at hs

/-- The messages that come after given ones. -/
inductive Hears : List Reply → Reply → Prop
  | initWorker : Hears [] .initWorker
  | initOk : Hears [.initWorker] .initOk
  | prepareStats (n : Nat) : Hears [.initWorker, .initOk] (.prepareStats n)
  | prepareOk (n : Nat) : Hears [.initWorker, .initOk, .prepareStats n] .prepareOk
  | sendStats (n success failed finished : Nat) :
      Hears [.initWorker, .initOk, .prepareStats n, .prepareOk] (.sendStats success failed finished)
  | sendOk (n success failed finished : Nat) :
      Hears [.initWorker, .initOk, .prepareStats n, .prepareOk, .sendStats success failed finished]
        .sendOk

theorem hears_of_prefix {l : List Reply} {m : Reply} {n success failed finished : Nat}
    (h : l ++ [m] <+: replyPlan n success failed finished) : Hears l m := by
  rcases l with _ | ⟨x₀, _ | ⟨x₁, _ | ⟨x₂, _ | ⟨x₃, _ | ⟨x₄, _ | ⟨x₅, l⟩⟩⟩⟩⟩⟩ <;>
    simp only [replyPlan, List.nil_append, List.cons_append, List.cons_prefix_cons, List.nil_prefix,
      and_true] at h
  · subst h; exact .initWorker
  · obtain ⟨rfl, rfl⟩ := h; exact .initOk
  · obtain ⟨rfl, rfl, rfl⟩ := h; exact .prepareStats _
  · obtain ⟨rfl, rfl, rfl, rfl⟩ := h; exact .prepareOk _
  · obtain ⟨rfl, rfl, rfl, rfl, rfl⟩ := h; exact .sendStats ..
  · obtain ⟨rfl, rfl, rfl, rfl, rfl, rfl⟩ := h; exact .sendOk ..
  · obtain ⟨-, -, -, -, -, -, h⟩ := h
    simp at h

/-- A first part of a worker's messages that has the last one is all of them. -/
theorem eq_of_sendOk_mem {l sent : List Reply} {n success failed finished : Nat}
    (hl : l <+: sent) (hs : sent <+: replyPlan n success failed finished) (hm : .sendOk ∈ l) :
    l = sent := by
  refine hl.eq_of_length_le ?_
  have hlen : (replyPlan n success failed finished).length ≤ l.length := by
    by_contra hlt
    have hp : l <+: (replyPlan n success failed finished).dropLast := by
      rw [List.dropLast_eq_take, List.prefix_take_iff]
      exact ⟨hl.trans hs, by omega⟩
    have := hp.subset hm
    simp [replyPlan] at this
  exact hs.length_le.trans hlen

/-! ## What the coordinator sends -/

/-- What a worker has been sent when the coordinator has handled the messages `heard`. -/
def issued (script : Script) (heard : Fin script.nbProcesses → List Reply)
    (i : Fin script.nbProcesses) : List Command :=
  (if .initWorker ∈ heard i then [.init] else []) ++
    (if ∀ j, .initOk ∈ heard j then [script.prepare] else []) ++
    (if ∀ j, .prepareOk ∈ heard j then [script.send] else []) ++
    if .sendOk ∈ heard i then [.exit] else []

/-- The messages of each worker that the coordinator has handled. -/
abbrev heard (s : Network script AccountId) (i : Fin script.nbProcesses) : List Reply :=
  (s.replies i).delivered

/-! What a message adds to the totals. -/

def successOf : Reply → Nat
  | .sendStats success _ _ => success
  | _ => 0

def failedOf : Reply → Nat
  | .sendStats _ failed _ => failed
  | _ => 0

def finishedOf : Reply → Nat
  | .sendStats _ _ finished => finished
  | _ => 0

def preparedOf : Reply → Nat
  | .prepareStats finished => finished
  | _ => 0

/-- The totals of the messages of all workers. -/
def totals (l : Fin script.nbProcesses → List Reply) : Totals where
  success := ∑ i, ((l i).map successOf).sum
  failed := ∑ i, ((l i).map failedOf).sum
  finished := ∑ i, ((l i).map finishedOf).sum
  preparedFinished := ∑ i, ((l i).map preparedOf).sum

/-- What holds of a coordinator and its workers at any time. -/
structure Coordinated (s : Network script AccountId) : Prop where
  stage : ∀ i, Stage script (s.worker i) (s.commands i).delivered (s.replies i).sent
  issued : ∀ i, (s.commands i).sent = issued script (heard s) i
  initOk : s.coordinator.processesInitOk = ∑ i, (heard s i).count .initOk
  prepareOk : s.coordinator.processesPrepareOk = ∑ i, (heard s i).count .prepareOk
  tot : s.coordinator.tot = totals (heard s)
  report : ∀ t, s.coordinator.report = some t → t = s.coordinator.tot

theorem heard_start : heard (.start script : Network script AccountId) = fun _ => [] := rfl

theorem issued_nil (i : Fin script.nbProcesses) : issued script (fun _ => []) i = [] := by
  have h : ∀ m : Reply, ¬ ∀ _j : Fin script.nbProcesses, m ∈ [] := fun m h => by simpa using h i
  unfold issued
  rw [if_neg (h _), if_neg (h _)]
  rfl

theorem Coordinated.start : Coordinated (.start script : Network script AccountId) where
  stage _ := .started
  issued i := by rw [heard_start, issued_nil]; rfl
  initOk := by rw [heard_start]; simp [Network.start, Coordinator.start]
  prepareOk := by rw [heard_start]; simp [Network.start, Coordinator.start]
  tot := by rw [heard_start]; simp [Network.start, Coordinator.start, totals]
  report t ht := by cases ht

/-! ## Consequences -/

/-- How many messages a worker has sent tells which ones. -/
theorem mem_of_prefix {l : List Reply} {n success failed finished : Nat}
    (h : l <+: replyPlan n success failed finished) :
    (.initWorker ∈ l ↔ 1 ≤ l.length) ∧ (.initOk ∈ l ↔ 2 ≤ l.length) ∧
      (.prepareOk ∈ l ↔ 4 ≤ l.length) ∧ (.sendOk ∈ l ↔ 6 ≤ l.length) := by
  have hlen : l.length ≤ 6 := h.length_le
  obtain ⟨k, hk⟩ : ∃ k, l.length = k := ⟨_, rfl⟩
  have htake : l = (replyPlan n success failed finished).take k := hk ▸ List.prefix_iff_eq_take.mp h
  rw [hk] at hlen ⊢
  rw [htake]
  interval_cases k <;> simp [replyPlan]

theorem count_of_prefix {l : List Reply} {n success failed finished : Nat}
    (h : l <+: replyPlan n success failed finished) (m : Reply) : l.count m ≤ 1 := by
  have hnodup : (replyPlan n success failed finished).Nodup := by simp [replyPlan]
  exact List.nodup_iff_count_le_one.mp (hnodup.sublist h.sublist) m

section Issued

variable {H : Fin script.nbProcesses → List Reply} {i : Fin script.nbProcesses}

theorem prepare_mem_issued : script.prepare ∈ issued script H i ↔ ∀ j, .initOk ∈ H j := by
  by_cases h : ∀ j, .initOk ∈ H j <;> by_cases h' : ∀ j, .prepareOk ∈ H j <;>
    simp [issued, h, h', Script.prepare, Script.send]

theorem send_mem_issued : script.send ∈ issued script H i ↔ ∀ j, .prepareOk ∈ H j := by
  by_cases h : ∀ j, .initOk ∈ H j <;> by_cases h' : ∀ j, .prepareOk ∈ H j <;>
    simp [issued, h, h', Script.prepare, Script.send]

theorem exit_mem_issued : .exit ∈ issued script H i ↔ .sendOk ∈ H i := by
  by_cases h : ∀ j, .initOk ∈ H j <;> by_cases h' : ∀ j, .prepareOk ∈ H j <;>
    simp [issued, h, h', Script.prepare, Script.send]

end Issued

namespace Coordinated

variable {s : Network script AccountId} (h : Coordinated s)
include h

theorem heard_prefix (i : Fin script.nbProcesses) :
    ∃ n success failed finished, heard s i <+: replyPlan n success failed finished := by
  obtain ⟨n, success, failed, finished, hs⟩ := (h.stage i).talk.sent_prefix
  exact ⟨n, success, failed, finished, (s.replies i).delivered_prefix_sent.trans hs⟩

theorem initWorker_of_initOk {i : Fin script.nbProcesses} (hm : .initOk ∈ heard s i) :
    .initWorker ∈ heard s i := by
  obtain ⟨n, success, failed, finished, hp⟩ := h.heard_prefix i
  obtain ⟨h1, h2, -⟩ := mem_of_prefix hp
  rw [h1]
  rw [h2] at hm
  omega

theorem initOk_of_prepareOk {i : Fin script.nbProcesses} (hm : .prepareOk ∈ heard s i) :
    .initOk ∈ heard s i := by
  obtain ⟨n, success, failed, finished, hp⟩ := h.heard_prefix i
  obtain ⟨-, h2, h4, -⟩ := mem_of_prefix hp
  rw [h2]
  rw [h4] at hm
  omega

omit h in
theorem mem_sent {i : Fin script.nbProcesses} {m : Reply} (hm : m ∈ heard s i) :
    m ∈ (s.replies i).sent := (s.replies i).delivered_prefix_sent.subset hm

/-- A worker answers `send_ok` after all have answered `prepare_ok`. -/
theorem prepareOk_of_sendOk {i : Fin script.nbProcesses} (hm : .sendOk ∈ heard s i)
    (j : Fin script.nbProcesses) : .prepareOk ∈ heard s j := by
  have hreceived := (h.stage i).talk.received_of_sendOk (mem_sent hm)
  have hsent := (s.commands i).delivered_prefix_sent.subset hreceived
  rw [h.issued i] at hsent
  exact send_mem_issued.mp hsent j

theorem issued_prefix (i : Fin script.nbProcesses) : (s.commands i).sent <+: plan script := by
  rw [h.issued i]
  have hexit : .sendOk ∈ heard s i → ∀ j, .prepareOk ∈ heard s j := h.prepareOk_of_sendOk
  have hsend : (∀ j, .prepareOk ∈ heard s j) → ∀ j, .initOk ∈ heard s j :=
    fun hj j => h.initOk_of_prepareOk (hj j)
  have hprepare : (∀ j, .initOk ∈ heard s j) → .initWorker ∈ heard s i :=
    fun hj => h.initWorker_of_initOk (hj i)
  unfold Benchmark.issued plan
  by_cases h1 : .initWorker ∈ heard s i
  · by_cases h2 : ∀ j, .initOk ∈ heard s j
    · by_cases h3 : ∀ j, .prepareOk ∈ heard s j
      · by_cases h4 : .sendOk ∈ heard s i <;> simp [h1, h2, h3, h4]
      · have h4 := mt hexit h3
        simp [h1, h2, h3, h4]
    · have h3 := mt hsend h2
      have h4 := mt hexit h3
      simp [h1, h2, h3, h4]
  · have h2 := mt hprepare h1
    have h3 := mt hsend h2
    have h4 := mt hexit h3
    simp [h1, h2, h3, h4]

/-- A command that reaches a worker is the next one of the script, and is due. -/
theorem command_due {i : Fin script.nbProcesses} {c : Command} {channel : Channel Command}
    (hc : (s.commands i).receive = some (c, channel)) :
    (s.commands i).delivered ++ [c] <+: plan script ∧ Due (s.replies i).sent c := by
  have hnext : (s.commands i).delivered ++ [c] <+: (s.commands i).sent := by
    rw [← Channel.delivered_of_receive hc, ← Channel.sent_of_receive hc]
    exact channel.delivered_prefix_sent
  have hmem : c ∈ Benchmark.issued script (heard s) i := by
    rw [← h.issued i]
    exact hnext.subset (by simp)
  have hplan := hnext.trans (h.issued_prefix i)
  refine ⟨hplan, ?_⟩
  have hcases : c ∈ plan script := hplan.subset (by simp)
  simp only [plan, List.mem_cons, List.not_mem_nil, or_false] at hcases
  rcases hcases with rfl | rfl | rfl | rfl
  · trivial
  · exact mem_sent (prepare_mem_issued.mp hmem i)
  · exact mem_sent (send_mem_issued.mp hmem i)
  · exact mem_sent (exit_mem_issued.mp hmem)

end Coordinated

/-! ## Steps of the workers -/

section Steps

variable {env : Env AccountId} {s : Network script AccountId}

/-- A worker, which may have received a command, meets an event after which it is at a stage again. -/
theorem coordinated_workerStep (h : Coordinated s) {i : Fin script.nbProcesses} {event : Event}
    {commands : Fin script.nbProcesses → Channel Command}
    (hsent : ∀ j, (commands j).sent = (s.commands j).sent)
    (hothers : ∀ j, j ≠ i → commands j = s.commands j)
    (hstage : Stage script ((senderProcess env i script.nbProcesses).step (s.worker i) event).1
      (commands i).delivered
      ((s.replies i).sent ++ ((senderProcess env i script.nbProcesses).step (s.worker i) event).2)) :
    Coordinated (({ s with commands := commands }).workerStep env i event) := by
  have hheard : heard (({ s with commands := commands }).workerStep env i event) = heard s := by
    funext j
    by_cases hj : j = i
    · subst hj; simp [Network.workerStep, heard]
    · simp [Network.workerStep, heard, hj]
  refine ⟨fun j => ?_, fun j => ?_, ?_, ?_, ?_, h.report⟩
  · by_cases hj : j = i
    · subst hj
      simpa [Network.workerStep] using hstage
    · simpa [Network.workerStep, hj, hothers j hj] using h.stage j
  · rw [hheard]
    exact (hsent j).trans (h.issued j)
  · rw [hheard]; exact h.initOk
  · rw [hheard]; exact h.prepareOk
  · rw [hheard]; exact h.tot

theorem coordinated_onCommand (h : Coordinated s) (i : Fin script.nbProcesses) :
    Coordinated (s.onCommand env i) := by
  unfold Network.onCommand
  split
  · exact h
  · rename_i c channel hc
    split
    · exact h
    · rename_i hx
      have hx : (s.worker i).exited = none := by simpa using hx
      obtain ⟨hplan, hdue⟩ := h.command_due hc
      refine coordinated_workerStep h (fun j => ?_) (fun j hj => Function.update_of_ne hj _ _) ?_
      · by_cases hj : j = i
        · subst hj
          rw [Function.update_self, Channel.sent_of_receive hc]
        · rw [Function.update_of_ne hj]
      · rw [Function.update_self, Channel.delivered_of_receive hc]
        exact stage_next (h.stage i) ⟨hx, hplan, hdue⟩

/-! ## Steps of the coordinator -/

section Reply

variable {H : Fin script.nbProcesses → List Reply} {i : Fin script.nbProcesses} {m : Reply}

/-- One message more, of a kind that everyone is asked for. -/
theorem forall_mem_update_iff {x : Reply} :
    (∀ j, x ∈ Function.update H i (H i ++ [m]) j) ↔ (∀ j, j ≠ i → x ∈ H j) ∧ (x ∈ H i ∨ x = m) := by
  constructor
  · intro h
    refine ⟨fun j hj => ?_, ?_⟩
    · have := h j
      rwa [Function.update_of_ne hj] at this
    · have := h i
      rw [Function.update_self] at this
      simpa using this
  · rintro ⟨h, hi⟩ j
    by_cases hj : j = i
    · subst hj
      rw [Function.update_self]
      simpa using hi
    · rw [Function.update_of_ne hj]
      exact h j hj

theorem forall_mem_update_of_ne {x : Reply} (hne : x ≠ m) :
    (∀ j, x ∈ Function.update H i (H i ++ [m]) j) ↔ ∀ j, x ∈ H j := by
  rw [forall_mem_update_iff]
  constructor
  · rintro ⟨h, hi⟩ j
    by_cases hj : j = i
    · subst hj
      exact hi.resolve_right hne
    · exact h j hj
  · exact fun h => ⟨fun j _ => h j, .inl (h i)⟩

/-- A counter of a message that each worker sends once reaches their number with the last one. -/
theorem counter_eq_iff {x : Reply} (hx : x ∉ H i) (hcount : ∀ j, (H j).count x ≤ 1) :
    ∑ j, (H j).count x + 1 = script.nbProcesses ↔ ∀ j, x ∈ Function.update H i (H i ++ [x]) j := by
  have hsum : ∑ j, (Function.update H i (H i ++ [x]) j).count x = ∑ j, (H j).count x + 1 :=
    sum_update_add (fun l => l.count x) H i (by simp)
  have hcard := sum_count_eq_card_iff (l := Function.update H i (H i ++ [x])) (x := x) fun j => by
    by_cases hj : j = i
    · subst hj
      rw [Function.update_self, List.count_append, List.count_eq_zero.mpr hx]
      simp
    · rw [Function.update_of_ne hj]
      exact hcount j
  rwa [hsum, Fintype.card_fin] at hcard

/-- What the coordinator sends when it handles a message, with its counters as they were. -/
theorem issued_update {c : Coordinator} (hears : Hears (H i) m)
    (hinit : c.processesInitOk = ∑ j, (H j).count .initOk)
    (hprepare : c.processesPrepareOk = ∑ j, (H j).count .prepareOk)
    (hcount : ∀ j x, (H j).count x ≤ 1) (hsend : ∀ j, .sendOk ∈ H j → ∀ k, .prepareOk ∈ H k)
    (j : Fin script.nbProcesses) :
    issued script (Function.update H i (H i ++ [m])) j =
      issued script H j ++ (onReply script c i m).2 j := by
  have hmem : ∀ x, x ∈ Function.update H i (H i ++ [m]) j ↔ x ∈ H j ∨ (j = i ∧ x = m) := by
    intro x
    by_cases hj : j = i
    · subst hj; simp
    · simp [hj]
  -- while someone has not answered `prepare_ok`, no one has answered `send_ok`
  have hquiet : .prepareOk ∉ H i → .sendOk ∉ H j := fun hi hj => hi (hsend j hj i)
  -- the other kinds of messages change none of the conditions
  have hsame : ∀ x, x ≠ m → ((∀ k, x ∈ Function.update H i (H i ++ [m]) k) ↔ ∀ k, x ∈ H k) :=
    fun x hx => forall_mem_update_of_ne hx
  unfold issued
  simp only [hmem]
  obtain ⟨l, hHi⟩ : ∃ l, H i = l := ⟨_, rfl⟩
  rw [hHi] at hears
  cases hears with
  | initWorker =>
    have h1 : ¬ ∀ k, .initOk ∈ H k := fun h => by simpa [hHi] using h i
    have h2 : ¬ ∀ k, .prepareOk ∈ H k := fun h => by simpa [hHi] using h i
    have h3 : .sendOk ∉ H j := hquiet (by simp [hHi])
    simp only [hsame _ (by simp : Reply.initOk ≠ .initWorker),
      hsame _ (by simp : Reply.prepareOk ≠ .initWorker), h1, h2, h3]
    by_cases hj : j = i
    · subst hj; simp [hHi, onReply]
    · simp [hj, onReply]
  | initOk =>
    have h1 : ¬ ∀ k, .initOk ∈ H k := fun h => by simpa [hHi] using h i
    have h2 : ¬ ∀ k, .prepareOk ∈ H k := fun h => by simpa [hHi] using h i
    have h3 : .sendOk ∉ H j := hquiet (by simp [hHi])
    have h4 := counter_eq_iff (i := i) (x := .initOk) (by simp [hHi]) fun k => hcount k _
    simp only [hsame _ (by simp : Reply.prepareOk ≠ .initOk), h1, h2, h3, ← h4, onReply, hinit]
    by_cases hp : ∑ k, (H k).count .initOk + 1 = script.nbProcesses <;> simp [hp]
  | prepareStats n =>
    simp only [hsame _ (by simp : Reply.initOk ≠ .prepareStats n),
      hsame _ (by simp : Reply.prepareOk ≠ .prepareStats n)]
    simp [onReply]
  | prepareOk n =>
    have h2 : ¬ ∀ k, .prepareOk ∈ H k := fun h => by simpa [hHi] using h i
    have h3 : .sendOk ∉ H j := hquiet (by simp [hHi])
    have h4 := counter_eq_iff (i := i) (x := .prepareOk) (by simp [hHi]) fun k => hcount k _
    simp only [hsame _ (by simp : Reply.initOk ≠ .prepareOk), h2, h3, ← h4, onReply, hprepare]
    by_cases hp : ∑ k, (H k).count .prepareOk + 1 = script.nbProcesses <;> simp [hp]
  | sendStats n success failed finished =>
    simp only [hsame _ (by simp : Reply.initOk ≠ .sendStats success failed finished),
      hsame _ (by simp : Reply.prepareOk ≠ .sendStats success failed finished)]
    simp [onReply]
  | sendOk n success failed finished =>
    simp only [hsame _ (by simp : Reply.initOk ≠ .sendOk),
      hsame _ (by simp : Reply.prepareOk ≠ .sendOk)]
    by_cases hj : j = i
    · subst hj; simp [hHi, onReply]
    · simp [hj, onReply]

theorem onReply_initOk (c : Coordinator) (i : Fin script.nbProcesses) (m : Reply) :
    (onReply script c i m).1.processesInitOk = c.processesInitOk + [m].count .initOk := by
  cases m <;> simp [onReply]

theorem onReply_prepareOk (c : Coordinator) (i : Fin script.nbProcesses) (m : Reply) :
    (onReply script c i m).1.processesPrepareOk = c.processesPrepareOk + [m].count .prepareOk := by
  cases m <;> simp [onReply]

theorem onReply_tot (c : Coordinator) (i : Fin script.nbProcesses) (m : Reply) :
    (onReply script c i m).1.tot =
      ⟨c.tot.success + successOf m, c.tot.failed + failedOf m, c.tot.finished + finishedOf m,
        c.tot.preparedFinished + preparedOf m⟩ := by
  cases m <;> simp [onReply, successOf, failedOf, finishedOf, preparedOf]

theorem onReply_report (c : Coordinator) (i : Fin script.nbProcesses) (m : Reply) :
    (onReply script c i m).1.report = c.report := by
  cases m <;> rfl

theorem totals_update (H : Fin script.nbProcesses → List Reply) (i : Fin script.nbProcesses)
    (m : Reply) :
    totals (Function.update H i (H i ++ [m])) =
      ⟨(totals H).success + successOf m, (totals H).failed + failedOf m,
        (totals H).finished + finishedOf m, (totals H).preparedFinished + preparedOf m⟩ := by
  have hsum : ∀ f : Reply → Nat, ∑ j, ((Function.update H i (H i ++ [m]) j).map f).sum =
      ∑ j, ((H j).map f).sum + f m :=
    fun f => sum_update_add (fun l => (l.map f).sum) H i (by simp)
  simp only [totals, hsum]

end Reply

theorem coordinated_onReply (h : Coordinated s) (hreport : s.coordinator.report = none)
    (i : Fin script.nbProcesses) : Coordinated (s.onReply i) := by
  unfold Network.onReply
  split
  · exact h
  · rename_i m channel hm
    have hupdate : (fun j => (Function.update s.replies i channel j).delivered) =
        Function.update (heard s) i (heard s i ++ [m]) := by
      funext j
      by_cases hj : j = i
      · subst hj
        rw [Function.update_self, Function.update_self, Channel.delivered_of_receive hm]
      · rw [Function.update_of_ne hj, Function.update_of_ne hj]
    have hears : Hears (heard s i) m := by
      obtain ⟨n, success, failed, finished, hs⟩ := (h.stage i).talk.sent_prefix
      refine hears_of_prefix (List.IsPrefix.trans ?_ hs)
      rw [← Channel.delivered_of_receive hm, ← Channel.sent_of_receive hm]
      exact channel.delivered_prefix_sent
    have hcount : ∀ j x, (heard s j).count x ≤ 1 := by
      intro j x
      obtain ⟨n, success, failed, finished, hp⟩ := h.heard_prefix j
      exact count_of_prefix hp x
    have hsum : ∀ x, ∑ j, (heard s j).count x + [m].count x =
        ∑ j, (Function.update (heard s) i (heard s i ++ [m]) j).count x :=
      fun x => (sum_update_add (fun l => l.count x) (heard s) i List.count_append).symm
    refine ⟨fun j => ?_, fun j => ?_, ?_, ?_, ?_, fun t ht => ?_⟩
    · by_cases hj : j = i
      · subst hj
        simpa [Channel.sent_of_receive hm] using h.stage j
      · simpa [hj] using h.stage j
    · simp only [Channel.sent_send, h.issued j]
      exact (congrFun (congrArg (issued script) hupdate) j).trans
        (issued_update hears h.initOk h.prepareOk hcount (fun j => h.prepareOk_of_sendOk) j) |>.symm
    · rw [onReply_initOk, h.initOk, hsum, ← hupdate]
    · rw [onReply_prepareOk, h.prepareOk, hsum, ← hupdate]
    · rw [onReply_tot, h.tot, ← totals_update, ← hupdate]
    · rw [onReply_report, hreport] at ht
      cases ht

theorem coordinated_onExit (h : Coordinated s) (i : Fin script.nbProcesses) :
    Coordinated (s.onExit i) := by
  unfold Network.onExit
  split
  · unfold onExit
    simp only
    split
    · exact ⟨h.stage, h.issued, h.initOk, h.prepareOk, h.tot, fun t ht => (Option.some.inj ht).symm⟩
    · exact ⟨h.stage, h.issued, h.initOk, h.prepareOk, h.tot, h.report⟩
  · exact h

theorem coordinated_next (h : Coordinated s) (o : Occurrence script) :
    Coordinated ((network env).next s o) := by
  cases o with
  | reply i =>
    cases hr : s.coordinator.report with
    | none => simpa [Machine.next, network, hr] using coordinated_onReply h hr i
    | some t => simpa [Machine.next, network, hr] using h
  | exitEvent i =>
    cases hr : s.coordinator.report with
    | none => simpa [Machine.next, network, hr] using coordinated_onExit h i
    | some t => simpa [Machine.next, network, hr] using h
  | command i => exact coordinated_onCommand h i
  | resume i n a =>
    exact coordinated_workerStep h (fun _ => rfl) (fun _ _ => rfl)
      (stage_next (h.stage i) trivial)
  | crash i =>
    exact coordinated_workerStep h (fun _ => rfl) (fun _ _ => rfl)
      (stage_next (h.stage i) trivial)

end Steps

/-! ## Runs -/

variable {env : Env AccountId}

theorem coordinated_run {s : Network script AccountId} (h : Coordinated s)
    (os : List (Occurrence script)) : Coordinated ((network env).run s os) := by
  induction os generalizing s with
  | nil => exact h
  | cons o os ih => exact ih (coordinated_next h o)

/-- From `s` to `s'` nothing happens to a worker. -/
structure Rests (s s' : Network script AccountId) (j : Fin script.nbProcesses) : Prop where
  worker : s'.worker j = s.worker j
  received : (s'.commands j).delivered = (s.commands j).delivered
  sent : (s'.replies j).sent = (s.replies j).sent

/-- From `s` to `s'` a worker meets an event. -/
structure Moves (env : Env AccountId) (s s' : Network script AccountId) (j : Fin script.nbProcesses)
    (event : Event) : Prop where
  worker : s'.worker j = ((senderProcess env j script.nbProcesses).step (s.worker j) event).1
  received : (s'.commands j).delivered = receivedBy (s.commands j).delivered event
  sent : (s'.replies j).sent = (s.replies j).sent ++
    ((senderProcess env j script.nbProcesses).step (s.worker j) event).2

variable {s : Network script AccountId}

theorem rests_of_ne {i j : Fin script.nbProcesses} (hj : j ≠ i) (event : Event) :
    Rests s (s.workerStep env i event) j := by
  constructor <;> simp [Network.workerStep, hj]

theorem moves_workerStep (i : Fin script.nbProcesses) {event : Event}
    (he : ∀ c, event ≠ .message c) : Moves env s (s.workerStep env i event) i event := by
  refine ⟨by simp [Network.workerStep], ?_, by simp [Network.workerStep]⟩
  cases event with
  | message c => exact absurd rfl (he c)
  | resume n a => rfl
  | crash => rfl

theorem moves_onCommand (h : Coordinated s) (i : Fin script.nbProcesses) :
    Rests s (s.onCommand env i) i ∨ ∃ c, (s.worker i).exited = none ∧
      (s.commands i).delivered ++ [c] <+: plan script ∧ Due (s.replies i).sent c ∧
      Moves env s (s.onCommand env i) i (.message c) := by
  unfold Network.onCommand
  split
  · exact .inl ⟨rfl, rfl, rfl⟩
  · rename_i c channel hc
    split
    · exact .inl ⟨rfl, rfl, rfl⟩
    · rename_i hx
      obtain ⟨hplan, hdue⟩ := h.command_due hc
      refine .inr ⟨c, by simpa using hx, hplan, hdue, ?_, ?_, ?_⟩
      · simp [Network.workerStep]
      · simp [Network.workerStep, receivedBy, Channel.delivered_of_receive hc]
      · simp [Network.workerStep]

theorem rests_onCommand {i j : Fin script.nbProcesses} (hj : j ≠ i) :
    Rests s (s.onCommand env i) j := by
  unfold Network.onCommand
  split
  · exact ⟨rfl, rfl, rfl⟩
  · split
    · exact ⟨rfl, rfl, rfl⟩
    · constructor <;> simp [Network.workerStep, hj]

theorem rests_onReply (i j : Fin script.nbProcesses) : Rests s (s.onReply i) j := by
  unfold Network.onReply
  split
  · exact ⟨rfl, rfl, rfl⟩
  · rename_i m channel hm
    refine ⟨rfl, by simp, ?_⟩
    by_cases hj : j = i
    · subst hj
      simp [Channel.sent_of_receive hm]
    · simp [hj]

theorem rests_onExit (i j : Fin script.nbProcesses) : Rests s (s.onExit i) j := by
  unfold Network.onExit
  split <;> exact ⟨rfl, rfl, rfl⟩

/-- What happens to a worker, other than commands, satisfies `ok`. -/
def Allows (ok : Event → Prop) : Occurrence script → Prop
  | .resume _ n a => ok (.resume n a)
  | .crash _ => ok .crash
  | _ => True

/-- A step of a benchmark leaves a worker alone, or is a step of that worker. -/
theorem next_worker (h : Coordinated s) {ok : Event → Prop} {o : Occurrence script}
    (hok : Allows ok o) (j : Fin script.nbProcesses) :
    Rests s ((network env).next s o) j ∨ ∃ event,
      Meets script ok (s.worker j) (s.commands j).delivered (s.replies j).sent event ∧
      Moves env s ((network env).next s o) j event := by
  cases o with
  | reply i =>
    cases hr : s.coordinator.report with
    | none => left; simpa [Machine.next, network, hr] using rests_onReply i j
    | some t => left; simpa [Machine.next, network, hr] using ⟨rfl, rfl, rfl⟩
  | exitEvent i =>
    cases hr : s.coordinator.report with
    | none => left; simpa [Machine.next, network, hr] using rests_onExit i j
    | some t => left; simpa [Machine.next, network, hr] using ⟨rfl, rfl, rfl⟩
  | command i =>
    by_cases hj : j = i
    · subst hj
      refine (moves_onCommand h j).imp_right ?_
      rintro ⟨c, hx, hplan, hdue, hmoves⟩
      exact ⟨.message c, ⟨hx, hplan, hdue⟩, hmoves⟩
    · exact .inl (rests_onCommand hj)
  | resume i n a =>
    by_cases hj : j = i
    · subst hj
      exact .inr ⟨.resume n a, hok, moves_workerStep j (by simp)⟩
    · exact .inl (rests_of_ne hj _)
  | crash i =>
    by_cases hj : j = i
    · subst hj
      exact .inr ⟨.crash, hok, moves_workerStep j (by simp)⟩
    · exact .inl (rests_of_ne hj _)

/-- The steps of each worker keep `Inv`. -/
def Keeps (env : Env AccountId) (ok : Event → Prop)
    (Inv : Fin script.nbProcesses → Worker AccountId → List Command → List Reply → Prop) : Prop :=
  ∀ (i : Fin script.nbProcesses) w received sent w' received' out, Stage script w received sent →
    Step script env i script.nbProcesses ok w received sent w' received' out →
    Inv i w received sent → Inv i w' received' (sent ++ out)

section Keeps

variable {ok : Event → Prop}
  {Inv : Fin script.nbProcesses → Worker AccountId → List Command → List Reply → Prop}

theorem Keeps.next (hkeeps : Keeps env ok Inv) (h : Coordinated s)
    (hs : ∀ i, Inv i (s.worker i) (s.commands i).delivered (s.replies i).sent)
    {o : Occurrence script} (hok : Allows ok o) (i : Fin script.nbProcesses) :
    Inv i (((network env).next s o).worker i) (((network env).next s o).commands i).delivered
      (((network env).next s o).replies i).sent := by
  rcases next_worker h hok i with hr | ⟨event, hmeets, hm⟩
  · rw [hr.worker, hr.received, hr.sent]
    exact hs i
  · rw [hm.worker, hm.received, hm.sent]
    exact hkeeps i _ _ _ _ _ _ (h.stage i) (worker_step (h.stage i) hmeets) (hs i)

/-- What a worker's own steps keep, a run of the benchmark keeps. -/
theorem Keeps.run (hkeeps : Keeps env ok Inv) (h : Coordinated s)
    (hs : ∀ i, Inv i (s.worker i) (s.commands i).delivered (s.replies i).sent)
    {os : List (Occurrence script)} (hok : ∀ o ∈ os, Allows ok o) (i : Fin script.nbProcesses) :
    Inv i (((network env).run s os).worker i) (((network env).run s os).commands i).delivered
      (((network env).run s os).replies i).sent := by
  induction os generalizing s with
  | nil => exact hs i
  | cons o os ih =>
    exact ih (coordinated_next h o) (hkeeps.next h hs (hok o List.mem_cons_self))
      fun o' ho' => hok o' (List.mem_cons_of_mem _ ho')

end Keeps

/-- Everything is allowed. -/
theorem allows_true (o : Occurrence script) : Allows (fun _ => True) o := by
  cases o <;> trivial

/-! ## The barrier -/

/-- Once a worker has told that it is prepared, its transactions stay as they are. -/
theorem transactions_run (h : Coordinated s) {j : Fin script.nbProcesses}
    (hj : .prepareOk ∈ (s.replies j).sent) (os : List (Occurrence script)) :
    (((network env).run s os).worker j).transactions = (s.worker j).transactions := by
  have hkeeps : Keeps env (fun _ => True) fun (i : Fin script.nbProcesses) w _ sent =>
      i = j → .prepareOk ∈ sent ∧ w.transactions = (s.worker j).transactions := by
    intro i w received sent w' received' out _ hstep hi he
    obtain ⟨hok, htx⟩ := hi he
    exact ⟨List.mem_append_left _ hok, (hstep.transactions_frozen hok).trans htx⟩
  have hinv := hkeeps.run h (fun i he => by subst he; exact ⟨hj, rfl⟩)
    (fun o (_ : o ∈ os) => allows_true o) j
  exact (hinv rfl).2

/-- A worker that has exited on command has had all its messages handled. -/
theorem Coordinated.heard_eq_sent (h : Coordinated s) {i : Fin script.nbProcesses}
    (hx : (s.worker i).exited = some .command) : heard s i = (s.replies i).sent := by
  have hreceived := (h.stage i).received_of_exited hx
  have hexit : .exit ∈ (s.commands i).sent := by
    refine (s.commands i).delivered_prefix_sent.subset ?_
    rw [hreceived]
    simp [plan]
  rw [h.issued i, exit_mem_issued] at hexit
  obtain ⟨n, success, failed, finished, hs⟩ := (h.stage i).talk.sent_prefix
  exact eq_of_sendOk_mem (s.replies i).delivered_prefix_sent hs hexit

def isPrepare : Command → Bool
  | .prepare .. => true
  | _ => false

def isSend : Command → Bool
  | .send _ => true
  | _ => false

/-- No worker is ahead of another by a phase, and the final report has every worker's numbers. -/
theorem phase_barrier (env : Env AccountId) (limit : Int) (nbProcesses : Nat)
    (transactionType : TransactionType)
    (os : List (Occurrence (reportAccident limit nbProcesses transactionType))) :
    let s := (network env).run (.start (reportAccident limit nbProcesses transactionType)) os
    (∀ i, (s.commands i).sent.countP isPrepare ≤ 1 ∧
      ∀ c ∈ (s.commands i).sent, isPrepare c = true → ∀ j, .initOk ∈ (s.replies j).delivered) ∧
    (∀ i, (s.commands i).sent.countP isSend ≤ 1 ∧
      ∀ c ∈ (s.commands i).sent, isSend c = true → ∀ j, .prepareOk ∈ (s.replies j).delivered) ∧
    (∀ i, (s.worker i).submitted ≠ [] → ∀ j, .prepareOk ∈ (s.replies j).sent ∧
      (s.worker j).transactions.length =
        planned (reportAccident limit nbProcesses transactionType) ∧
      ∀ os', (((network env).run s os').worker j).transactions = (s.worker j).transactions) ∧
    ∀ t, s.coordinator.report = some t → (∀ i, (s.worker i).exited = some .command) →
      t = totals fun i => (s.replies i).sent := by
  intro s
  have h : Coordinated s := coordinated_run .start os
  have hmem : ∀ i c, c ∈ (s.commands i).sent →
      c ∈ plan (reportAccident limit nbProcesses transactionType) :=
    fun i c hc => (h.issued_prefix i).subset hc
  refine ⟨fun i => ⟨?_, fun c hc hp => ?_⟩, fun i => ⟨?_, fun c hc hp => ?_⟩, fun i hs j => ?_, ?_⟩
  · exact (h.issued_prefix i).sublist.countP_le.trans
      (by simp [plan, isPrepare, Script.prepare, Script.send, List.countP_cons])
  · obtain rfl : c = (reportAccident limit nbProcesses transactionType).prepare := by
      have := hmem i c hc
      simp only [plan, List.mem_cons, List.not_mem_nil, or_false] at this
      rcases this with rfl | rfl | rfl | rfl <;> simp_all [isPrepare, Script.send]
    rw [h.issued i] at hc
    exact prepare_mem_issued.mp hc
  · exact (h.issued_prefix i).sublist.countP_le.trans
      (by simp [plan, isSend, Script.prepare, Script.send, List.countP_cons])
  · obtain rfl : c = (reportAccident limit nbProcesses transactionType).send := by
      have := hmem i c hc
      simp only [plan, List.mem_cons, List.not_mem_nil, or_false] at this
      rcases this with rfl | rfl | rfl | rfl <;> simp_all [isSend, Script.prepare]
    rw [h.issued i] at hc
    exact send_mem_issued.mp hc
  · have hsend := (s.commands i).delivered_prefix_sent.subset ((h.stage i).send_of_submitted hs)
    rw [h.issued i, send_mem_issued] at hsend
    have hj := Coordinated.mem_sent (hsend j)
    exact ⟨hj, (h.stage j).length_transactions hj, fun os' => transactions_run h hj os'⟩
  · intro t ht hx
    rw [h.report t ht, h.tot]
    congr 1
    funext i
    exact h.heard_eq_sent (hx i)

end SIM.Proof.Benchmark
