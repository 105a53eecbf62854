import SimMultichain.Framework.Schedule
import SimMultichain.Proof.Outcome

/-!
# Benchmarks that end

A benchmark whose workers get good answers can be led to its end (`exists_completed`). The argument
has three parts: no worker fails (`Step.alive`); while the final report is not made, someone can
move (`exists_enabled`); and a move of our choice leaves less to do (`exists_move`), where what is
left to a worker is the commands it has not received, then the work of its handler, then the
messages and the `exit` event that the coordinator has not handled.

Where some workers do not find what they are asked for, any other one can still be led to the end of
`prepare`, while these are kept waiting (`exists_prepared`).
-/

namespace SIM.Proof.Benchmark

open SIM.Impl.Benchmark

variable {AccountId : Type}

/-! ## Workers that do not fail -/

/-- Nothing that ends a worker. -/
def Unfailing : Event → Prop
  | .resume _ (.apiReady ready) => ready = true
  | .resume _ (.signed signed) => signed = true
  | .crash => False
  | _ => True

/-- A worker finds what its script asks it for: accounts in its pieces of the files, and a client that
takes the data. -/
structure Supplied (script : Script) (env : Env AccountId) (p : Nat) : Prop where
  signers : 0 < planned script → 0 < (piece env.files p script.nbProcesses .vehicle).length
  dataHash : 0 < planned script → script.prepareType = .reportAccidentRenault →
    (env.toDataHash dataSha256sum).isSome
  factories : script.sendType = .newCar → 0 < (piece env.files p script.nbProcesses .factory).length

/-- All workers of a script find what it asks them for. -/
structure Feasible (script : Script) (env : Env AccountId) : Prop where
  processes : 0 < script.nbProcesses
  equal : env.files.vehicles.length = env.files.drivers.length
  supplied (i : Fin script.nbProcesses) : Supplied script env i

section Worker

variable {script : Script} {env : Env AccountId} {p : Nat} {w w' : Worker AccountId}
  {received received' : List Command} {sent out : List Reply}

theorem exists_newTransaction {arrays : Arrays AccountId} {type : TransactionType}
    (hr : isReport type = true) (hpos : 0 < arrays.vehicles.length)
    (hlen : arrays.vehicles.length = arrays.drivers.length)
    (hdata : type = .reportAccidentRenault → (env.toDataHash dataSha256sum).isSome) (i : Nat) :
    ∃ tx, newTransaction env arrays i type = some tx := by
  have hv : i % arrays.vehicles.length < arrays.vehicles.length := Nat.mod_lt _ hpos
  cases type with
  | reportAccidentRenault =>
    obtain ⟨d, hd⟩ := Option.isSome_iff_exists.mp (hdata rfl)
    exact ⟨_, by simp only [newTransaction, List.getElem?_eq_getElem hv, hd]; rfl⟩
  | reportAccidentInsurance =>
    have hd : i % arrays.drivers.length < arrays.drivers.length := Nat.mod_lt _ (by omega)
    have hv : i % arrays.drivers.length < arrays.vehicles.length := by omega
    exact ⟨_, by
      simp only [newTransaction, List.getElem?_eq_getElem hd, List.getElem?_eq_getElem hv]; rfl⟩
  | _ => cases hr

/-- `prepare` finds the accounts that it signs with. -/
theorem exited_prepareFrom (hfiles : env.files.vehicles.length = env.files.drivers.length)
    (hsup : Supplied script env p)
    (ha : w.arrays.map addresses = some (piece env.files p script.nbProcesses)) (i : Nat) :
    (prepareFrom env w (jobOf script) i).worker.exited = w.exited := by
  cases hr : isReport script.prepareType with
  | false => rw [prepareFrom_other hr]
  | true =>
    rw [prepareFrom_report hr]
    split
    · rename_i hlt
      have hplan : planned script = script.limit.toNat := by simp [planned, hr]
      have hpos : 0 < planned script := by simp only at hlt; omega
      obtain ⟨arrays, harrays, haddresses⟩ := Option.map_eq_some_iff.mp ha
      have hlength : ∀ kind, (arrays.pairs kind).length =
          (piece env.files p script.nbProcesses kind).length := by
        intro kind
        rw [← haddresses, length_addresses]
      have hvehicles : 0 < arrays.vehicles.length := by
        rw [show arrays.vehicles.length = _ from hlength .vehicle]
        exact hsup.signers hpos
      have hlen : arrays.vehicles.length = arrays.drivers.length := by
        rw [show arrays.vehicles.length = _ from hlength .vehicle,
          show arrays.drivers.length = _ from hlength .driver]
        exact length_piece_eq hfiles p script.nbProcesses
      obtain ⟨tx, htx⟩ := exists_newTransaction hr hvehicles hlen (hsup.dataHash hpos) i
      simp only [harrays, Option.bind_some, jobOf, htx]
    · rfl

/-- With good answers, no worker fails that finds what it is asked for. -/
theorem Step.alive (hfiles : env.files.vehicles.length = env.files.drivers.length)
    (hs : Step script env p script.nbProcesses Unfailing w received sent w' received' out)
    (hsup : script.prepare ∈ received' → Supplied script env p)
    (h : Sound script env p script.nbProcesses w received sent) (hx : w.exited ≠ some .failure) :
    w'.exited ≠ some .failure := by
  have hlen := fun _ : script.sendType = .signup => length_piece_eq hfiles p script.nbProcesses
  cases hs with
  | idle => exact hx
  | crash hok => exact hok.elim
  | init => simp [Worker.start]
  | notLoaded n hok => cases hok
  | loaded => simp [Worker.start]
  | @unequal arrays hne =>
    refine absurd ?_ hne
    have hlength := fun kind => congrArg List.length (h.loaded arrays rfl kind)
    have hpieces := length_piece_eq hfiles p script.nbProcesses
    simp only [length_addresses] at hlength
    exact (hlength .vehicle).trans (hpieces.trans (hlength .driver).symm)
  | prepare => simp [Turn.after, Worker.start]
  | @nextIndex w kind i reads n read =>
    obtain ⟨pairs, hw, -⟩ := onNextIndex_worker env w kind i reads (jobOf script) read
    simpa only [Turn.after, hw] using hx
  | rested hp' =>
    have ha := h.arrays hx (by simp)
    simpa only [Turn.after, exited_prepareFrom hfiles (hsup (by simp)) ha] using hx
  | notSigned n hp hok => cases hok
  | @signed w w' tx hp' hw =>
    have ha := (arrays_signed hw).trans (h.arrays hx (by simp))
    have hx' : w'.exited = w.exited := by rw [hw]
    simpa only [Turn.after, exited_prepareFrom hfiles (hsup (by simp)) ha, hx'] using hx
  | send hh hx' hsub =>
    have ha := h.arrays hx (by simp)
    rw [Script.send, (sendRun_onMessage (p := p) ha hsub hx' hlen).2]
    simp
  | slept hs =>
    rw [((h.sendRun hs.exited).turn script.nbProcesses hs.exited hlen hs.handlers .timer rfl).2]
    simp
  | settled => exact hx
  | settledLate => exact hx
  | waited hs =>
    rw [((h.sendRun hs.exited).turn script.nbProcesses hs.exited hlen hs.handlers .timer rfl).2]
    simp
  | finished => exact hx
  | exit => simp

/-! ## What is left to a worker -/

variable (script) in
/-- What a handler has still to do, for `n` submissions in rounds of `d`. -/
def handlerLeft (d n : Nat) : Handler AccountId → Nat
  | .initApi => 1
  | .readNonces _ _ reads _ => reads.length + planned script + 3
  | .rest _ => planned script + 2
  | .sign _ i _ => planned script - i + 1
  | h => sendSize d n h

variable (script) in
/-- What the handlers of a worker have still to do. -/
def left (accounts : AccountKind → List AccountId) (w : Worker AccountId) : Nat :=
  (w.handlers.map (handlerLeft script (strideOf accounts script.sendType)
    (totalOf accounts w.transactions script.sendType))).sum

theorem left_of_handlers {handler : Handler AccountId} (accounts : AccountKind → List AccountId)
    (hh : w.handlers = [handler]) :
    left script accounts w = handlerLeft script (strideOf accounts script.sendType)
      (totalOf accounts w.transactions script.sendType) handler := by
  simp only [left, hh, List.map_cons, List.map_nil, List.sum_singleton]

theorem left_of_sendRun {accounts : AccountKind → List AccountId}
    {base : List (Transaction AccountId)}
    (h : SendRun env p accounts base script.sendType w out) :
    left script accounts w = sendLeft accounts script.sendType w := by
  cases h with
  | sending call R _ _ hh =>
    simp only [left, sendLeft, hh, List.map_cons, List.map_nil, handlerLeft]
  | waiting call R _ _ _ hh =>
    simp only [left, sendLeft, hh, List.map_cons, List.map_nil, handlerLeft]
  | reported call R _ _ _ _ hh =>
    simp only [left, sendLeft, hh, List.map_cons, List.map_nil, handlerLeft]
  | done call R _ _ _ _ hh => simp only [left, sendLeft, hh, List.map_nil]

theorem left_readFrom (accounts : AccountKind → List AccountId) (w : Worker AccountId)
    (reads : List (AccountKind × Nat)) :
    left script accounts (Turn.after (readFrom w (jobOf script) reads)) ≤
      reads.length + planned script + 2 := by
  cases reads with
  | nil => simp [left, Turn.after, readFrom, handlerLeft]
  | cons r reads =>
    simp only [left, Turn.after, readFrom, Option.toList, List.map_cons, List.map_nil,
      List.sum_singleton, handlerLeft, List.length_cons]
    omega

theorem left_prepareFrom (accounts : AccountKind → List AccountId) (w : Worker AccountId)
    (i : Nat) :
    left script accounts (Turn.after (prepareFrom env w (jobOf script) i)) ≤
      planned script - i + 1 := by
  cases hr : isReport script.prepareType with
  | false =>
    rw [prepareFrom_other hr]
    simp [left, Turn.after]
  | true =>
    rw [prepareFrom_report hr]
    split
    · split <;> simp [left, Turn.after, handlerLeft]
    · simp [left, Turn.after]

theorem unfailing_of_awaitsAnswer {handler : Handler AccountId} {a : Answer}
    (h : AwaitsAnswer handler a) (n : Nat) : Unfailing (.resume n a) := by
  cases a with
  | timer => trivial
  | settled k => trivial
  | _ => cases handler <;> cases h

theorem Supplied.stride_pos (hsup : Supplied script env p) :
    0 < strideOf (piece env.files p script.nbProcesses) script.sendType := by
  cases htype : script.sendType with
  | newCar => exact hsup.factories htype
  | _ => exact Nat.one_pos

/-- A call of `send` that is not over can be led on. -/
theorem exists_answer_send (hfiles : env.files.vehicles.length = env.files.drivers.length)
    (hsup : Supplied script env p)
    (h : SendRun env p (piece env.files p script.nbProcesses) [] script.sendType w out)
    (hx : w.exited = none) (hne : w.handlers ≠ []) :
    ∃ a, Unfailing (.resume 0 a) ∧ left script (piece env.files p script.nbProcesses)
        ((senderProcess env p script.nbProcesses).step w (.resume 0 a)).1 <
      left script (piece env.files p script.nbProcesses) w := by
  have hlen := fun _ : script.sendType = .signup => length_piece_eq hfiles p script.nbProcesses
  obtain ⟨handler, a, hh, hawaits, hless⟩ :=
    h.exists_answer script.nbProcesses hx hlen hsup.stride_pos hne
  refine ⟨a, unfailing_of_awaitsAnswer hawaits 0, ?_⟩
  have hleads : LeadsOn env p (piece env.files p script.nbProcesses) [] w script.nbProcesses
      script.sendType out 0 a := h.answer hx hlen 0 a
  rcases hleads with heq | ⟨w', more, heq, hrun, -⟩
  · rw [heq] at hless
    exact absurd hless (lt_irrefl _)
  · rw [heq] at hless ⊢
    rw [left_of_sendRun h, left_of_sendRun hrun]
    exact hless

/-- A worker that awaits something can be led on. -/
theorem exists_answer (hfiles : env.files.vehicles.length = env.files.drivers.length)
    (hsup : script.prepare ∈ received → Supplied script env p) (hst : Stage script w received sent)
    (h : Sound script env p script.nbProcesses w received sent) (hx : w.exited = none)
    (hne : w.handlers ≠ []) :
    ∃ a, Unfailing (.resume 0 a) ∧ left script (piece env.files p script.nbProcesses)
        ((senderProcess env p script.nbProcesses).step w (.resume 0 a)).1 <
      left script (piece env.files p script.nbProcesses) w := by
  cases hst with
  | started => exact absurd rfl hne
  | initialising =>
    refine ⟨.apiReady true, rfl, ?_⟩
    rw [next_answer hx rfl rfl]
    simp [left, Turn.after, handlerLeft]
  | ready => exact absurd rfl hne
  | preparing hprep =>
    obtain ⟨⟨kind, i, reads, rfl⟩, -⟩ | ⟨rfl, -⟩ | ⟨tx, rfl, hr, hlt⟩ := hprep.progress
    · refine ⟨.nextIndex true, trivial, ?_⟩
      rw [next_answer hx hprep.handlers rfl, left_of_handlers _ hprep.handlers]
      exact Nat.lt_succ_of_le (left_readFrom _ _ reads)
    · refine ⟨.timer, trivial, ?_⟩
      rw [next_answer hx hprep.handlers rfl, left_of_handlers _ hprep.handlers]
      exact Nat.lt_succ_of_le (left_prepareFrom _ w 0)
    · refine ⟨.signed true, rfl, ?_⟩
      have hplan : planned script = script.limit.toNat := by simp [planned, hr]
      rw [next_answer hx hprep.handlers rfl, left_of_handlers _ hprep.handlers, onSigned, if_pos rfl]
      refine lt_of_le_of_lt (left_prepareFrom _ _ _) ?_
      simp only [handlerLeft]
      omega
  | prepared hh => exact absurd hh hne
  | sending hs =>
    obtain ⟨out, -, hrun⟩ := h.sends (by simp [hx]) (by simp)
    exact exists_answer_send hfiles (hsup (by simp)) hrun hx hne
  | reported =>
    obtain ⟨out, -, hrun⟩ := h.sends (by simp [hx]) (by simp)
    exact exists_answer_send hfiles (hsup (by simp)) hrun hx hne
  | done _ _ _ hh => exact absurd hh hne
  | exited _ _ _ he => rw [hx] at he; cases he
  | failed _ he => rw [hx] at he; cases he

/-- A worker that awaits nothing awaits a command, or has exited. -/
theorem Stage.rests (h : Stage script w received sent) (hx : w.exited ≠ some .failure)
    (hh : w.exited = none → w.handlers = []) :
    (w.exited = none ∧ received = [] ∧ sent = [.initWorker]) ∨
    (w.exited = none ∧ received = [.init] ∧ sent = [.initWorker, .initOk]) ∨
    (w.exited = none ∧ received = [.init, script.prepare] ∧ sent = preparedReplies script) ∨
    (∃ success failed finished,
      (w.exited = none ∧ received = [.init, script.prepare, script.send] ∨
        w.exited = some .command) ∧
      sent = preparedReplies script ++ [.sendStats success failed finished, .sendOk]) := by
  cases h with
  | started => exact .inl ⟨rfl, rfl, rfl⟩
  | initialising => cases hh rfl
  | ready => exact .inr (.inl ⟨rfl, rfl, rfl⟩)
  | preparing hp => rw [hp.handlers] at hh; cases hh hp.exited
  | prepared _ hx => exact .inr (.inr (.inl ⟨hx, rfl, rfl⟩))
  | sending hs => rw [hs.handlers] at hh; cases hh hs.exited
  | reported _ _ _ hfinish hx => rw [hfinish] at hh; cases hh hx
  | done success failed finished _ hx =>
    exact .inr (.inr (.inr ⟨success, failed, finished, .inl ⟨hx, rfl⟩, rfl⟩))
  | exited success failed finished he =>
    exact .inr (.inr (.inr ⟨success, failed, finished, .inr he, rfl⟩))
  | failed _ he => exact absurd he hx

theorem Stage.exited_of_received_nil (h : Stage script w received sent)
    (hx : w.exited ≠ some .failure) (hr : received = []) : w.exited = none := by
  cases he : w.exited with
  | none => rfl
  | some e =>
    cases e with
    | command =>
      rw [h.received_of_exited he] at hr
      cases hr
    | failure => exact absurd he hx

end Worker

/-! ## `exit` events -/

section Network

variable {script : Script} {env : Env AccountId} {s : Network script AccountId}
  {i : Fin script.nbProcesses}

/-- What the coordinator knows of the workers that have exited. -/
structure Exits (s : Network script AccountId) : Prop where
  counted : s.coordinator.processesExited = ∑ i, (s.exitSeen i).toNat
  seen : ∀ i, s.exitSeen i = true → (s.worker i).exited.isSome = true
  report : s.coordinator.report.isSome = true ↔
    s.coordinator.processesExited = script.nbProcesses

theorem Exits.start (hP : 0 < script.nbProcesses) :
    Exits (.start script : Network script AccountId) where
  counted := by simp [Network.start, Coordinator.start]
  seen i h := by cases h
  report := by simp [Network.start, Coordinator.start, hP.ne]

/-- The final report is made when all workers' `exit` events are handled. -/
theorem Exits.report_iff (h : Exits s) :
    s.coordinator.report.isSome = true ↔ ∀ i, s.exitSeen i = true := by
  rw [h.report, h.counted, ← sum_toNat_eq_card_iff, Fintype.card_fin]

/-- A worker that has exited stays so. -/
theorem exited_next (h : Coordinated s) (o : Occurrence script) {i : Fin script.nbProcesses}
    {e : Exit} (hx : (s.worker i).exited = some e) :
    (((network env).next s o).worker i).exited = some e := by
  rcases next_worker h (allows_true o) i with hr | ⟨event, -, hm⟩
  · rw [hr.worker, hx]
  · rw [hm.worker, step_exited hx, hx]

/-- Steps that are no `exit` event. -/
theorem Exits.keep (he : Exits s) (h : Coordinated s) {o : Occurrence script}
    (hseen : ((network env).next s o).exitSeen = s.exitSeen)
    (hexited : ((network env).next s o).coordinator.processesExited = s.coordinator.processesExited)
    (hreport : ((network env).next s o).coordinator.report = s.coordinator.report) :
    Exits ((network env).next s o) := by
  refine ⟨?_, fun i hi => ?_, ?_⟩
  · rw [hexited, hseen]
    exact he.counted
  · rw [hseen] at hi
    obtain ⟨e, hx⟩ := Option.isSome_iff_exists.mp (he.seen i hi)
    rw [exited_next h o hx]
    rfl
  · rw [hexited, hreport]
    exact he.report

theorem onReply_processesExited (c : Coordinator) (i : Fin script.nbProcesses) (m : Reply) :
    (onReply script c i m).1.processesExited = c.processesExited := by
  cases m <;> rfl

/-- An `exit` event is handled. -/
theorem Exits.onExit (he : Exits s) (hreport : s.coordinator.report = none)
    (i : Fin script.nbProcesses) : Exits (s.onExit i) := by
  unfold Network.onExit
  split
  · rename_i hcond
    obtain ⟨hexited, hnot⟩ : (s.worker i).exited.isSome = true ∧ s.exitSeen i = false := by
      simpa using hcond
    have hsum : ∑ j, (Function.update s.exitSeen i true j).toNat = ∑ j, (s.exitSeen j).toNat + 1 :=
      sum_update_add Bool.toNat s.exitSeen i (by simp [hnot])
    refine ⟨?_, fun j hj => ?_, ?_⟩
    · simp only [hsum, ← he.counted, Impl.Benchmark.onExit]
      split <;> rfl
    · by_cases hji : j = i
      · subst hji
        exact hexited
      · simp only [Function.update_of_ne hji] at hj
        exact he.seen j hj
    · simp only [Impl.Benchmark.onExit]
      split
      · rename_i hall
        simpa using hall
      · rename_i hall
        simpa [hreport] using hall
  · exact he

theorem exits_next (he : Exits s) (h : Coordinated s) (o : Occurrence script) :
    Exits ((network env).next s o) := by
  cases o with
  | reply i =>
    cases hr : s.coordinator.report with
    | some t => simpa [Machine.next, network, hr] using he
    | none =>
      refine he.keep h ?_ ?_ ?_ <;> simp only [Machine.next, network, hr, Option.isSome_none,
        Bool.false_eq_true, if_false, Network.onReply] <;> split
      · rfl
      · rfl
      · rfl
      · exact onReply_processesExited ..
      · exact hr
      · exact (onReply_report ..).trans hr
  | exitEvent i =>
    cases hr : s.coordinator.report with
    | some t => simpa [Machine.next, network, hr] using he
    | none => simpa [Machine.next, network, hr] using he.onExit hr i
  | command i =>
    refine he.keep h ?_ ?_ ?_ <;> simp only [Machine.next, network, Network.onCommand] <;> split
    · rfl
    · split <;> rfl
    · rfl
    · split <;> rfl
    · rfl
    · split <;> rfl
  | resume i n a => exact he.keep h rfl rfl rfl
  | crash i => exact he.keep h rfl rfl rfl

/-! ## No deadlock -/

/-- A worker has gone on as far as it can without a command, and its messages are handled. -/
structure Quiet (s : Network script AccountId) (i : Fin script.nbProcesses) : Prop where
  replies : (s.replies i).queue = []
  handlers : (s.worker i).exited = none → (s.worker i).handlers = []

theorem Quiet.heard_eq {i : Fin script.nbProcesses} (h : Quiet s i) :
    heard s i = (s.replies i).sent := by
  rw [Channel.sent, h.replies, List.append_nil]

/-- The commands that a worker has received are all that were issued, if none is on its way. -/
theorem delivered_eq_issued (h : Coordinated s) {i : Fin script.nbProcesses}
    (hc : (s.commands i).queue = []) : (s.commands i).delivered = issued script (heard s) i := by
  rw [← h.issued i, Channel.sent, hc, List.append_nil]

/-- A worker that awaits no `init` is initialised. -/
theorem Quiet.initOk_mem (hq : Quiet s i) (h : Coordinated s)
    (halive : (s.worker i).exited ≠ some .failure)
    (hc : (s.commands i).delivered = [] → (s.commands i).queue = []) : .initOk ∈ heard s i := by
  rcases (h.stage i).rests halive hq.handlers with
    ⟨-, hr, hs⟩ | ⟨-, -, hs⟩ | ⟨-, -, hs⟩ | ⟨_, _, _, -, hs⟩
  · have := delivered_eq_issued h (hc hr)
    rw [hr, issued, hq.heard_eq, hs] at this
    simp at this
  all_goals
    rw [hq.heard_eq, hs]
    simp

/-- When all are initialised, a worker that awaits no command is prepared. -/
theorem Quiet.prepareOk_mem (hq : Quiet s i) (h : Coordinated s)
    (halive : (s.worker i).exited ≠ some .failure) (hinit : ∀ j, .initOk ∈ heard s j)
    (hc : (s.worker i).exited = none → (s.commands i).queue = []) : .prepareOk ∈ heard s i := by
  have hmem : script.prepare ∈ issued script (heard s) i := prepare_mem_issued.mpr hinit
  rcases (h.stage i).rests halive hq.handlers with
    ⟨hx, hr, -⟩ | ⟨hx, hr, -⟩ | ⟨-, -, hs⟩ | ⟨_, _, _, -, hs⟩
  · rw [← delivered_eq_issued h (hc hx), hr] at hmem
    cases hmem
  · rw [← delivered_eq_issued h (hc hx), hr] at hmem
    simp [Script.prepare] at hmem
  all_goals
    rw [hq.heard_eq, hs]
    simp

/-- When all are prepared, a worker that awaits no command has exited. -/
theorem Quiet.exited (hq : Quiet s i) (h : Coordinated s)
    (halive : (s.worker i).exited ≠ some .failure) (hprepare : ∀ j, .prepareOk ∈ heard s j)
    (hc : (s.worker i).exited = none → (s.commands i).queue = []) :
    (s.worker i).exited = some .command := by
  have hmem : script.send ∈ issued script (heard s) i := send_mem_issued.mpr hprepare
  rcases (h.stage i).rests halive hq.handlers with
    ⟨hx, hr, -⟩ | ⟨hx, hr, -⟩ | ⟨hx, hr, -⟩ | ⟨_, _, _, ⟨hx, hr⟩ | hx, hs⟩
  · rw [← delivered_eq_issued h (hc hx), hr] at hmem
    cases hmem
  · rw [← delivered_eq_issued h (hc hx), hr] at hmem
    simp [Script.send] at hmem
  · rw [← delivered_eq_issued h (hc hx), hr] at hmem
    simp [Script.send, Script.prepare] at hmem
  · have hexit : .exit ∈ issued script (heard s) i := exit_mem_issued.mpr (by
      rw [hq.heard_eq, hs]; simp)
    rw [← delivered_eq_issued h (hc hx), hr] at hexit
    simp [Script.send, Script.prepare] at hexit
  · exact hx

/-- Someone can move: a message, an answer, a command or an `exit` event is there for worker `i`. -/
def Enabled (s : Network script AccountId) (i : Fin script.nbProcesses) : Prop :=
  (s.replies i).queue ≠ [] ∨
    (s.worker i).exited = none ∧ ((s.worker i).handlers ≠ [] ∨ (s.commands i).queue ≠ []) ∨
    (s.worker i).exited.isSome = true ∧ s.exitSeen i = false

/-- Before the final report someone can move. -/
theorem exists_enabled (h : Coordinated s) (he : Exits s)
    (halive : ∀ i, (s.worker i).exited ≠ some .failure) (hreport : s.coordinator.report = none) :
    ∃ i, Enabled s i := by
  by_contra hnone
  have hstuck : ∀ i, ¬ Enabled s i := fun i hi => hnone ⟨i, hi⟩
  simp only [Enabled, not_or, not_and, not_not, ne_eq] at hstuck
  have hquiet : ∀ i, Quiet s i := fun i => ⟨(hstuck i).1, fun hx => ((hstuck i).2.1 hx).1⟩
  have hcommands := fun i hx => ((hstuck i).2.1 hx).2
  -- each phase is over: a worker that awaits its next command would have received it
  have hinit : ∀ i, .initOk ∈ heard s i := by
    intro i
    refine (hquiet i).initOk_mem h (halive i) fun hr => hcommands i ?_
    exact (h.stage i).exited_of_received_nil (halive i) hr
  have hprepare := fun i => (hquiet i).prepareOk_mem h (halive i) hinit (hcommands i)
  have hexited := fun i => (hquiet i).exited h (halive i) hprepare (hcommands i)
  have hall : ∀ i, s.exitSeen i = true := by
    intro i
    have := (hstuck i).2.2 (by rw [hexited i]; rfl)
    simpa using this
  have := he.report_iff.mpr hall
  rw [hreport] at this
  cases this

/-! ## Moves -/

variable (env) in
/-- What is left to each worker: commands, then work, then what the coordinator has to handle. -/
def size (s : Network script AccountId) (i : Fin script.nbProcesses) : ℕ ×ₗ (ℕ ×ₗ ℕ) :=
  toLex (4 - (s.commands i).delivered.length,
    toLex (left script (piece env.files i script.nbProcesses) (s.worker i),
      (s.replies i).queue.length + (!s.exitSeen i).toNat))

/-- A move of one worker leaves less to do for all. -/
theorem size_lt {s' : Network script AccountId} (i : Fin script.nbProcesses)
    (hothers : ∀ j, j ≠ i → size env s' j = size env s j) (hi : size env s' i < size env s i) :
    size env s' < size env s := by
  refine Pi.lt_def.mpr ⟨fun j => ?_, i, hi⟩
  by_cases hj : j = i
  · subst hj
    exact hi.le
  · exact (hothers j hj).le

theorem size_onReply {i : Fin script.nbProcesses} {m : Reply} {channel : Channel Reply}
    (hm : (s.replies i).receive = some (m, channel)) : size env (s.onReply i) < size env s := by
  refine size_lt i (fun j hj => ?_) ?_
  · simp [size, Network.onReply, hm, hj]
  · have hqueue := Channel.length_queue_of_receive hm
    simp only [size, Network.onReply, hm, Function.update_self, Channel.delivered_send,
      Prod.Lex.toLex_lt_toLex]
    exact .inr ⟨trivial, .inr ⟨trivial, by omega⟩⟩

theorem size_onExit {i : Fin script.nbProcesses} (hx : (s.worker i).exited.isSome = true)
    (hseen : s.exitSeen i = false) : size env (s.onExit i) < size env s := by
  refine size_lt i (fun j hj => ?_) ?_
  · simp [size, Network.onExit, hx, hseen, hj]
  · simp [size, Network.onExit, hx, hseen, Prod.Lex.toLex_lt_toLex]

theorem size_resume {i : Fin script.nbProcesses} {n : Nat} {a : Answer}
    (hless : left script (piece env.files i script.nbProcesses)
        ((senderProcess env i script.nbProcesses).step (s.worker i) (.resume n a)).1 <
      left script (piece env.files i script.nbProcesses) (s.worker i)) :
    size env (s.workerStep env i (.resume n a)) < size env s := by
  refine size_lt i (fun j hj => ?_) ?_
  · simp [size, Network.workerStep, hj]
  · simp only [size, Network.workerStep, Function.update_self, Prod.Lex.toLex_lt_toLex]
    exact .inr ⟨trivial, .inl hless⟩

theorem size_onCommand (h : Coordinated s) {i : Fin script.nbProcesses} {c : Command}
    {channel : Channel Command} (hc : (s.commands i).receive = some (c, channel))
    (hx : (s.worker i).exited = none) : size env (s.onCommand env i) < size env s := by
  refine size_lt i (fun j hj => ?_) ?_
  · simp [size, Network.onCommand, Network.workerStep, hc, hx, hj]
  · have hlength : (s.commands i).delivered.length + 1 ≤ 4 := by
      have := (h.command_due hc).1.length_le
      simpa [plan] using this
    simp only [size, Network.onCommand, Network.workerStep, hc, hx, Option.isSome_none,
      Bool.false_eq_true, if_false, Function.update_self, Channel.delivered_of_receive hc,
      List.length_append, List.length_singleton, Prod.Lex.toLex_lt_toLex]
    exact .inl (by omega)

/-! ## Good answers -/

variable (env) in
/-- A benchmark in which no worker has failed that finds what it was asked for. -/
structure Healthy (s : Network script AccountId) : Prop where
  coordinated : Coordinated s
  exits : Exits s
  workers : ∀ i : Fin script.nbProcesses,
    Sound script env i script.nbProcesses (s.worker i) (s.commands i).delivered
      (s.replies i).sent ∧
      ((script.prepare ∈ (s.commands i).delivered → Supplied script env i) →
        (s.worker i).exited ≠ some .failure)

theorem healthy_start (hprocesses : 0 < script.nbProcesses) : Healthy env (.start script) :=
  ⟨.start, .start hprocesses, fun _ => ⟨.start, fun _ => by simp [Network.start, Worker.start]⟩⟩

theorem Step.received_subset {p : Nat} {w w' : Worker AccountId} {received received' : List Command}
    {sent out : List Reply} {ok : Event → Prop}
    (h : Step script env p script.nbProcesses ok w received sent w' received' out) :
    received ⊆ received' := by
  cases h <;> simp [plan]

theorem keeps_alive (hfiles : env.files.vehicles.length = env.files.drivers.length) :
    Keeps env Unfailing fun (i : Fin script.nbProcesses) w received sent =>
      Sound script env i script.nbProcesses w received sent ∧
        ((script.prepare ∈ received → Supplied script env i) → w.exited ≠ some .failure) := by
  intro i w received sent w' received' out _ hstep h
  refine ⟨hstep.sound hfiles h.1, fun hsup => hstep.alive hfiles hsup h.1 (h.2 fun hmem => ?_)⟩
  exact hsup (hstep.received_subset hmem)

theorem healthy_next (hfiles : env.files.vehicles.length = env.files.drivers.length)
    (h : Healthy env s) {o : Occurrence script} (hok : Allows Unfailing o) :
    Healthy env ((network env).next s o) :=
  ⟨coordinated_next h.coordinated o, exits_next h.exits h.coordinated o,
    (keeps_alive hfiles).next h.coordinated h.workers hok⟩

theorem size_next_reply (hreport : s.coordinator.report = none) {i : Fin script.nbProcesses}
    (hreply : (s.replies i).queue ≠ []) :
    size env ((network env).next s (.reply i)) < size env s := by
  obtain ⟨⟨m, channel⟩, hm⟩ := Option.ne_none_iff_exists'.mp (mt Channel.receive_eq_none.mp hreply)
  simpa [Machine.next, network, hreport] using size_onReply hm

theorem exists_next_resume (hfiles : env.files.vehicles.length = env.files.drivers.length)
    (h : Healthy env s) {i : Fin script.nbProcesses}
    (hsup : script.prepare ∈ (s.commands i).delivered → Supplied script env i)
    (hx : (s.worker i).exited = none) (hhandler : (s.worker i).handlers ≠ []) :
    ∃ a, Unfailing (.resume 0 a) ∧
      size env ((network env).next s (.resume i 0 a)) < size env s := by
  obtain ⟨a, hok, hless⟩ := exists_answer hfiles hsup (h.coordinated.stage i) (h.workers i).1 hx
    hhandler
  exact ⟨a, hok, size_resume hless⟩

/-! ## The end -/

theorem Healthy.alive (h : Healthy env s) (hf : Feasible script env) (i : Fin script.nbProcesses) :
    (s.worker i).exited ≠ some .failure := (h.workers i).2 fun _ => hf.supplied i

/-- Before the final report there is a move that leaves less to do. -/
theorem exists_move (hf : Feasible script env) (h : Healthy env s)
    (hreport : s.coordinator.report = none) :
    ∃ o, Allows Unfailing o ∧ size env ((network env).next s o) < size env s := by
  obtain ⟨i, hi⟩ := exists_enabled h.coordinated h.exits (h.alive hf) hreport
  rcases hi with hreply | ⟨hx, hhandler | hcommand⟩ | ⟨hx, hseen⟩
  · exact ⟨.reply i, trivial, size_next_reply hreport hreply⟩
  · obtain ⟨a, hok, hless⟩ := exists_next_resume hf.equal h (fun _ => hf.supplied i) hx hhandler
    exact ⟨.resume i 0 a, hok, hless⟩
  · obtain ⟨⟨c, channel⟩, hc⟩ := Option.ne_none_iff_exists'.mp
      (mt Channel.receive_eq_none.mp hcommand)
    exact ⟨.command i, trivial, size_onCommand h.coordinated hc hx⟩
  · refine ⟨.exitEvent i, trivial, ?_⟩
    simpa [Machine.next, network, hreport] using size_onExit hx hseen

/-- A script whose workers find what it asks them for can be led to its end. -/
theorem exists_completed (hf : Feasible script env) :
    ∃ os, Completed ((network env).run (.start script) os) := by
  obtain ⟨os, -, h, hdone⟩ := Machine.exists_run_to (Healthy env)
    (fun s => s.coordinator.report.isSome = true) (size env) (Allows Unfailing)
    (fun s h hnot => by
      obtain ⟨o, hok, hless⟩ := exists_move hf h (by simpa using hnot)
      exact ⟨o, hok, healthy_next hf.equal h hok, hless⟩) (healthy_start hf.processes)
  refine ⟨os, hdone, fun i => ?_⟩
  have hexited := h.exits.seen i (h.exits.report_iff.mp hdone i)
  obtain ⟨e, he⟩ := Option.isSome_iff_exists.mp hexited
  cases e with
  | command => exact he
  | failure => exact absurd he (h.alive hf i)

/-! ## The end of `prepare` -/

variable (env i) in
/-- Only worker `i` has received `prepare`. -/
structure Favours (s : Network script AccountId) : Prop where
  healthy : Healthy env s
  waiting (j : Fin script.nbProcesses) : j ≠ i → script.prepare ∉ (s.commands j).delivered

theorem Favours.supplied (h : Favours env i s) (hsup : Supplied script env i)
    (j : Fin script.nbProcesses) (hj : script.prepare ∈ (s.commands j).delivered) :
    Supplied script env j := by
  by_cases hji : j = i
  · exact hji ▸ hsup
  · exact absurd hj (h.waiting j hji)

theorem Favours.alive (h : Favours env i s) (hsup : Supplied script env i)
    (j : Fin script.nbProcesses) : (s.worker j).exited ≠ some .failure :=
  (h.healthy.workers j).2 (h.supplied hsup j)

theorem delivered_next_reply (i j : Fin script.nbProcesses) :
    (((network env).next s (.reply i)).commands j).delivered = (s.commands j).delivered := by
  simp only [Machine.next, network]
  split
  · rfl
  · unfold Network.onReply
    split
    · rfl
    · exact Channel.delivered_send ..

theorem delivered_next_command {j : Fin script.nbProcesses} {c : Command} {channel : Channel Command}
    (hc : (s.commands j).receive = some (c, channel)) (hx : (s.worker j).exited = none) :
    (fun k => (((network env).next s (.command j)).commands k).delivered) =
      Function.update (fun k => (s.commands k).delivered) j ((s.commands j).delivered ++ [c]) := by
  funext k
  by_cases hk : k = j
  · subst hk
    simp [Machine.next, network, Network.onCommand, Network.workerStep, hc, hx,
      Channel.delivered_of_receive hc]
  · simp [Machine.next, network, Network.onCommand, Network.workerStep, hc, hx, hk]

/-- The final report is not made before worker `i` is prepared. -/
theorem Favours.report_eq_none (h : Favours env i s) (hsup : Supplied script env i)
    (hnot : .prepareOk ∉ (s.replies i).sent) : s.coordinator.report = none := by
  rw [Option.eq_none_iff_forall_ne_some]
  intro t ht
  have hexited := h.healthy.exits.seen i (h.healthy.exits.report_iff.mp (by rw [ht]; rfl) i)
  obtain ⟨e, he⟩ := Option.isSome_iff_exists.mp hexited
  cases e with
  | failure => exact h.alive hsup i he
  | command =>
    rcases (h.healthy.coordinated.stage i).rests (h.alive hsup i) (by rw [he]; intro hx; cases hx) with
      ⟨hx, -⟩ | ⟨hx, -⟩ | ⟨hx, -⟩ | ⟨_, _, _, -, hs⟩
    · rw [he] at hx; cases hx
    · rw [he] at hx; cases hx
    · rw [he] at hx; cases hx
    · exact hnot (by rw [hs]; simp)

section Answers

variable (hfiles : env.files.vehicles.length = env.files.drivers.length)
include hfiles

theorem Favours.next_reply (h : Favours env i s) (j : Fin script.nbProcesses) :
    Favours env i ((network env).next s (.reply j)) := by
  refine ⟨healthy_next hfiles h.healthy trivial, fun k hk => ?_⟩
  rw [delivered_next_reply]
  exact h.waiting k hk

/-- The first command of another worker is not `prepare`. -/
theorem Favours.next_command (h : Favours env i s) {j : Fin script.nbProcesses} {c : Command}
    {channel : Channel Command} (hc : (s.commands j).receive = some (c, channel))
    (hx : (s.worker j).exited = none) (hj : j = i ∨ (s.commands j).delivered = []) :
    Favours env i ((network env).next s (.command j)) := by
  refine ⟨healthy_next hfiles h.healthy trivial, fun k hk => ?_⟩
  rw [congrFun (delivered_next_command hc hx) k]
  by_cases hkj : k = j
  · subst hkj
    have hnil := hj.resolve_left hk
    have hfirst := (h.healthy.coordinated.command_due hc).1
    rw [hnil] at hfirst
    have hc : c = .init := by simpa [plan] using hfirst
    simp [hnil, hc, Script.prepare]
  · rw [Function.update_of_ne hkj]
    exact h.waiting k hk

/-- Before worker `i` is prepared there is a move that leaves less to do, and no other worker with
`prepare`. -/
theorem Favours.exists_move (h : Favours env i s) (hsup : Supplied script env i)
    (hnot : .prepareOk ∉ (s.replies i).sent) :
    ∃ o, Allows Unfailing o ∧ Favours env i ((network env).next s o) ∧
      size env ((network env).next s o) < size env s := by
  have hco := h.healthy.coordinated
  by_contra hnone
  have hquiet : ∀ j, Quiet s j := by
    intro j
    refine ⟨?_, fun hx => ?_⟩
    · by_contra hreply
      exact hnone ⟨.reply j, trivial, h.next_reply hfiles j,
        size_next_reply (h.report_eq_none hsup hnot) hreply⟩
    · by_contra hhandler
      obtain ⟨a, hok, hless⟩ := exists_next_resume hfiles h.healthy (h.supplied hsup j) hx hhandler
      exact hnone ⟨.resume j 0 a, hok, ⟨healthy_next hfiles h.healthy hok, h.waiting⟩, hless⟩
  -- a command is on its way to another worker only if it is not the first
  have hcommand : ∀ j, (s.worker j).exited = none →
      (j = i ∨ (s.commands j).delivered = []) → (s.commands j).queue = [] := by
    intro j hx hj
    by_contra hqueue
    obtain ⟨⟨c, channel⟩, hc⟩ := Option.ne_none_iff_exists'.mp
      (mt Channel.receive_eq_none.mp hqueue)
    exact hnone ⟨.command j, trivial, h.next_command hfiles hc hx hj, size_onCommand hco hc hx⟩
  have hinit : ∀ j, .initOk ∈ heard s j := by
    intro j
    refine (hquiet j).initOk_mem hco (h.alive hsup j) fun hr => hcommand j ?_ (.inr hr)
    exact (hco.stage j).exited_of_received_nil (h.alive hsup j) hr
  have hprepare := (hquiet i).prepareOk_mem hco (h.alive hsup i) hinit
    fun hx => hcommand i hx (.inl rfl)
  rw [(hquiet i).heard_eq] at hprepare
  exact hnot hprepare

/-- A worker that finds what it is asked for can be led to the end of `prepare`. -/
theorem exists_prepared (hprocesses : 0 < script.nbProcesses) (hsup : Supplied script env i) :
    ∃ os, .prepareOk ∈ (((network env).run (.start script) os).replies i).sent := by
  obtain ⟨os, -, -, hdone⟩ := Machine.exists_run_to (Favours env i)
    (fun s => .prepareOk ∈ (s.replies i).sent) (size env) (Allows Unfailing)
    (fun s h hnot => h.exists_move hfiles hsup hnot)
    (show Favours env i (.start script) from
      ⟨healthy_start hprocesses, fun _ _ hmem => by cases hmem⟩)
  exact ⟨os, hdone⟩

end Answers

end Network

end SIM.Proof.Benchmark
