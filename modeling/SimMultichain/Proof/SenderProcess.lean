import SimMultichain.Impl.Benchmark

/-!
# The phases of a worker

A worker that is sent the commands of a script one after the other, each once it has answered the
one before, runs one handler at a time. `Stage` says how far it is, by the commands it has received
and the messages it has sent, and `Step` what each of its steps does (`worker_step`,
`Step.stage`). A worker that fails stops where it is.
-/

namespace SIM.Proof.Benchmark

open SIM.Impl.Benchmark

variable {AccountId : Type}

/-! ## Commands and replies -/

/-- The commands of a script, in the order in which a worker is sent them. -/
def plan (script : Script) : List Command := [.init, script.prepare, script.send, .exit]

/-- Whether `prepare` signs transactions of a type. -/
def isReport : TransactionType → Bool
  | .reportAccidentRenault | .reportAccidentInsurance => true
  | _ => false

/-- The number of transactions that a worker signs. -/
def planned (script : Script) : Nat :=
  if isReport script.prepareType then script.limit.toNat else 0

/-- What `prepare` is called with. -/
abbrev jobOf (script : Script) : Job := ⟨script.prepareType, script.limit⟩

/-- The messages of a worker that is prepared. -/
abbrev preparedReplies (script : Script) : List Reply :=
  [.initWorker, .initOk, .prepareStats (planned script), .prepareOk]

/-- The commands that a worker has received with the messages it has sent by then. -/
inductive Talk (script : Script) : List Command → List Reply → Prop
  | started : Talk script [] [.initWorker]
  | initialising : Talk script [.init] [.initWorker]
  | ready : Talk script [.init] [.initWorker, .initOk]
  | preparing : Talk script [.init, script.prepare] [.initWorker, .initOk]
  | prepared (n : Nat) :
      Talk script [.init, script.prepare] [.initWorker, .initOk, .prepareStats n, .prepareOk]
  | sending (n : Nat) :
      Talk script [.init, script.prepare, script.send]
        [.initWorker, .initOk, .prepareStats n, .prepareOk]
  | reported (n success failed finished : Nat) :
      Talk script [.init, script.prepare, script.send]
        [.initWorker, .initOk, .prepareStats n, .prepareOk, .sendStats success failed finished]
  | done (n success failed finished : Nat) :
      Talk script [.init, script.prepare, script.send]
        [.initWorker, .initOk, .prepareStats n, .prepareOk, .sendStats success failed finished,
          .sendOk]
  | exited (n success failed finished : Nat) :
      Talk script (plan script)
        [.initWorker, .initOk, .prepareStats n, .prepareOk, .sendStats success failed finished,
          .sendOk]

/-! ## Stages -/

/-- A worker that runs `prepare`: it reads nonces, rests, or signs its next transaction. -/
structure Preparing (script : Script) (w : Worker AccountId) (h : Handler AccountId) : Prop where
  handlers : w.handlers = [h]
  exited : w.exited = none
  submitted : w.submitted = []
  progress :
    ((∃ kind i reads, h = .readNonces kind i reads (jobOf script)) ∧ w.transactions = []) ∨
    (h = .rest (jobOf script) ∧ w.transactions = []) ∨
    ∃ tx, h = .sign (jobOf script) w.transactions.length tx ∧
      isReport script.prepareType = true ∧ w.transactions.length < script.limit

/-- The call of `send` that a handler runs. -/
def callOf : Handler AccountId → Option SendCall
  | .send call _ => some call
  | .wait call => some call
  | _ => none

/-- A worker that runs `send`. -/
structure Sends (script : Script) (w : Worker AccountId) (h : Handler AccountId) : Prop where
  handlers : w.handlers = [h]
  exited : w.exited = none
  transactions : w.transactions.length = planned script
  progress : ∃ call, callOf h = some call ∧ call.transactionType = script.sendType

theorem Sends.transactionType {script : Script} {w : Worker AccountId} {h : Handler AccountId}
    (hs : Sends script w h) {call : SendCall} (hc : callOf h = some call) :
    call.transactionType = script.sendType := by
  obtain ⟨call', hc', htype⟩ := hs.progress
  rw [hc] at hc'
  cases hc'
  exact htype

/-- How far a worker is. -/
inductive Stage (script : Script) : Worker AccountId → List Command → List Reply → Prop
  | started : Stage script .start [] [.initWorker]
  | initialising : Stage script { Worker.start with handlers := [.initApi] } [.init] [.initWorker]
  | ready (pairs : Arrays AccountId) :
      Stage script { Worker.start with pairs := some pairs } [.init] [.initWorker, .initOk]
  | preparing {w : Worker AccountId} {h : Handler AccountId} : Preparing script w h →
      Stage script w [.init, script.prepare] [.initWorker, .initOk]
  | prepared {w : Worker AccountId} : w.handlers = [] → w.exited = none → w.submitted = [] →
      w.transactions.length = planned script →
      Stage script w [.init, script.prepare] (preparedReplies script)
  | sending {w : Worker AccountId} {h : Handler AccountId} : Sends script w h →
      Stage script w [.init, script.prepare, script.send] (preparedReplies script)
  | reported {w : Worker AccountId} (success failed finished : Nat) : w.handlers = [.finish] →
      w.exited = none → w.transactions.length = planned script →
      Stage script w [.init, script.prepare, script.send]
        (preparedReplies script ++ [.sendStats success failed finished])
  | done {w : Worker AccountId} (success failed finished : Nat) : w.handlers = [] →
      w.exited = none → w.transactions.length = planned script →
      Stage script w [.init, script.prepare, script.send]
        (preparedReplies script ++ [.sendStats success failed finished, .sendOk])
  | exited {w : Worker AccountId} (success failed finished : Nat) : w.exited = some .command →
      w.transactions.length = planned script →
      Stage script w (plan script)
        (preparedReplies script ++ [.sendStats success failed finished, .sendOk])
  | failed {w : Worker AccountId} {received : List Command} {sent : List Reply} :
      Talk script received sent → w.exited = some .failure →
      (w.submitted ≠ [] → script.send ∈ received) →
      (.prepareOk ∈ sent → w.transactions.length = planned script) → Stage script w received sent

variable {script : Script} {w : Worker AccountId} {received : List Command} {sent : List Reply}

theorem Stage.talk (h : Stage script w received sent) : Talk script received sent := by
  cases h with
  | started => exact .started
  | initialising => exact .initialising
  | ready => exact .ready
  | preparing => exact .preparing
  | prepared => exact .prepared _
  | sending => exact .sending _
  | reported => exact .reported ..
  | done => exact .done ..
  | exited => exact .exited ..
  | failed h => exact h

/-- A transaction is submitted by a worker that has been told to send. -/
theorem Stage.send_of_submitted (h : Stage script w received sent) (hs : w.submitted ≠ []) :
    script.send ∈ received := by
  cases h with
  | started => exact absurd rfl hs
  | initialising => exact absurd rfl hs
  | ready => exact absurd rfl hs
  | preparing hp => exact absurd hp.submitted hs
  | prepared _ _ hsub => exact absurd hsub hs
  | sending => simp
  | reported => simp
  | done => simp
  | exited => simp [plan]
  | failed _ _ himp _ => exact himp hs

/-- A worker that has told that it is prepared has signed all it should. -/
theorem Stage.length_transactions (h : Stage script w received sent) (hok : .prepareOk ∈ sent) :
    w.transactions.length = planned script := by
  cases h with
  | started => simp at hok
  | initialising => simp at hok
  | ready => simp at hok
  | preparing => simp at hok
  | prepared _ _ _ hlen => exact hlen
  | sending hs => exact hs.transactions
  | reported _ _ _ _ _ hlen => exact hlen
  | done _ _ _ _ _ hlen => exact hlen
  | exited _ _ _ _ hlen => exact hlen
  | failed _ _ _ himp => exact himp hok

/-- A worker that has exited on command has received every command. -/
theorem Stage.received_of_exited (h : Stage script w received sent) (he : w.exited = some .command) :
    received = plan script := by
  cases h with
  | started => cases he
  | initialising => cases he
  | ready => cases he
  | preparing hp => rw [hp.exited] at he; cases he
  | prepared _ hx => rw [hx] at he; cases he
  | sending hs => rw [hs.exited] at he; cases he
  | reported _ _ _ _ hx => rw [hx] at he; cases he
  | done _ _ _ _ hx => rw [hx] at he; cases he
  | exited => rfl
  | failed _ hx => rw [hx] at he; cases he

/-! ## Steps -/

variable {env : Env AccountId} {p tot : Nat}

theorem step_exited {e : Exit} (h : w.exited = some e) (event : Event) :
    (senderProcess env p tot).step w event = (w, []) := by
  simp [senderProcess, h]

theorem step_resume_nil (hh : w.handlers = []) (n : Nat) (a : Answer) :
    (senderProcess env p tot).step w (.resume n a) = (w, []) := by
  cases hx : w.exited <;> simp [senderProcess, hx, hh]

section Turns

@[simp] theorem fail_sent (w : Worker AccountId) : (Turn.fail w).sent = [] := rfl
@[simp] theorem fail_next (w : Worker AccountId) : (Turn.fail w).next = none := rfl
@[simp] theorem fail_worker (w : Worker AccountId) :
    (Turn.fail w).worker = { w with exited := some .failure } := rfl

@[simp] theorem readFrom_worker (w : Worker AccountId) (job : Job) (reads : List (AccountKind × Nat)) :
    (readFrom w job reads).worker = w := by
  cases reads <;> rfl

@[simp] theorem readFrom_sent (w : Worker AccountId) (job : Job) (reads : List (AccountKind × Nat)) :
    (readFrom w job reads).sent = [] := by
  cases reads <;> rfl

theorem onNextIndex_sent (w : Worker AccountId) (kind : AccountKind) (i : Nat)
    (reads : List (AccountKind × Nat)) (job : Job) (read : Bool) :
    (onNextIndex env w kind i reads job read).sent = [] := by
  unfold onNextIndex
  split <;> simp

/-- A transaction that is signed is added to those before. -/
theorem onSigned_true {w w' : Worker AccountId} {job : Job} {tx : Transaction AccountId}
    (hw : w' = { w with
      transactions := w.transactions ++ [tx]
      pairs := w.pairs.map (countNonce · w.transactions.length job.transactionType) }) :
    onSigned env w job w.transactions.length tx true = prepareFrom env w' job w'.transactions.length := by
  subst hw
  have hdrop : w.transactions.drop (w.transactions.length + 1) = [] :=
    List.drop_eq_nil_of_le (Nat.le_succ _)
  simp [onSigned, hdrop]

variable (env) in
/-- A turn of `prepare` leaves the worker as it was, or failed. -/
theorem prepareFrom_worker (w : Worker AccountId) (job : Job) (i : Nat) :
    ∃ exited, (prepareFrom env w job i).worker = { w with exited := exited } := by
  unfold prepareFrom
  repeat' split
  all_goals exact ⟨_, rfl⟩

theorem prepareFrom_handlers (w : Worker AccountId) (job : Job) (i : Nat) :
    (prepareFrom env w job i).worker.handlers = w.handlers := by
  obtain ⟨exited, hw⟩ := prepareFrom_worker env w job i
  rw [hw]

theorem prepareFrom_transactions (w : Worker AccountId) (job : Job) (i : Nat) :
    (prepareFrom env w job i).worker.transactions = w.transactions := by
  obtain ⟨exited, hw⟩ := prepareFrom_worker env w job i
  rw [hw]

theorem waitAll_worker (w : Worker AccountId) (call : SendCall) : (waitAll w call).worker = w := by
  unfold waitAll
  split <;> rfl

variable (env) in
/-- A turn of `send` changes nonces and submits, or fails. -/
theorem sendFrom_worker (w : Worker AccountId) (call : SendCall) (i : Nat) :
    ∃ pairs submitted exited, (sendFrom env w call i).worker =
      { w with pairs := pairs, submitted := submitted, exited := exited } := by
  unfold sendFrom
  split
  · split <;> exact ⟨_, _, _, rfl⟩
  · rw [waitAll_worker]
    exact ⟨_, _, _, rfl⟩

theorem sendFrom_handlers (w : Worker AccountId) (call : SendCall) (i : Nat) :
    (sendFrom env w call i).worker.handlers = w.handlers := by
  obtain ⟨pairs, submitted, exited, hw⟩ := sendFrom_worker env w call i
  rw [hw]

theorem sendFrom_transactions (w : Worker AccountId) (call : SendCall) (i : Nat) :
    (sendFrom env w call i).worker.transactions = w.transactions := by
  obtain ⟨pairs, submitted, exited, hw⟩ := sendFrom_worker env w call i
  rw [hw]

/-- A handler leaves the list of handlers to the event loop. -/
theorem onAnswer_handlers {h : Handler AccountId} {a : Answer} {turn : Turn AccountId}
    (ha : onAnswer env p tot w h a = some turn) : turn.worker.handlers = w.handlers := by
  unfold onAnswer at ha
  split at ha
  · split at ha <;> cases ha <;> rfl
  · cases ha
    unfold onNextIndex
    split <;> simp
  · cases ha; exact prepareFrom_handlers ..
  · cases ha
    unfold onSigned
    split
    · exact prepareFrom_handlers ..
    · rfl
  · cases ha; exact sendFrom_handlers ..
  · cases ha; rfl
  · cases ha; rw [waitAll_worker]
  · cases ha; rfl
  · cases ha; rfl
  · cases ha

theorem onMessage_handlers (w : Worker AccountId) (c : Command) :
    (onMessage env w c).worker.handlers = w.handlers := by
  unfold onMessage
  split
  · rfl
  · split
    · rfl
    · simp only
      split <;> simp
  · split
    · rfl
    · exact sendFrom_handlers ..
  · rfl

theorem onMessage_transactions (w : Worker AccountId) (c : Command) :
    (onMessage env w c).worker.transactions = w.transactions := by
  unfold onMessage
  split
  · rfl
  · split
    · rfl
    · simp only
      split <;> simp
  · split
    · rfl
    · exact sendFrom_transactions ..
  · rfl

end Turns

/-- The worker after a turn of its only handler. -/
def Turn.after (turn : Turn AccountId) : Worker AccountId :=
  { turn.worker with handlers := turn.next.toList }

/-- A worker that awaits nothing handles a command. -/
theorem step_message (hx : w.exited = none) (hh : w.handlers = []) (c : Command) :
    (senderProcess env p tot).step w (.message c) =
      (Turn.after (onMessage env w c), (onMessage env w c).sent) := by
  simp [senderProcess, hx, hh, onMessage_handlers, Turn.after]

/-- A worker with one handler goes on with it. -/
theorem step_answer {h : Handler AccountId} {a : Answer} {turn : Turn AccountId}
    (hx : w.exited = none) (hh : w.handlers = [h]) (ha : onAnswer env p tot w h a = some turn) :
    (senderProcess env p tot).step w (.resume 0 a) = (Turn.after turn, turn.sent) := by
  have hw := onAnswer_handlers ha
  simp [senderProcess, hx, hh, ha, hw, Turn.after]

theorem next_answer {h : Handler AccountId} {a : Answer} {turn : Turn AccountId}
    (hx : w.exited = none) (hh : w.handlers = [h]) (ha : onAnswer env p tot w h a = some turn) :
    ((senderProcess env p tot).step w (.resume 0 a)).1 = Turn.after turn := by
  rw [step_answer hx hh ha]

/-- A worker with one handler goes on with it, or meets an answer that it does not await. -/
theorem step_resume {h : Handler AccountId} (hx : w.exited = none) (hh : w.handlers = [h]) (n : Nat)
    (a : Answer) :
    (senderProcess env p tot).step w (.resume n a) = (w, []) ∨
      ∃ turn, onAnswer env p tot w h a = some turn ∧
        (senderProcess env p tot).step w (.resume n a) = (Turn.after turn, turn.sent) := by
  cases n with
  | zero =>
    cases ha : onAnswer env p tot w h a with
    | none => left; simp [senderProcess, hx, hh, ha]
    | some turn => exact .inr ⟨turn, rfl, step_answer hx hh ha⟩
  | succ n => left; simp [senderProcess, hx, hh]

/-! ## Turns and stages -/

theorem stage_readFrom (hx : w.exited = none) (hsub : w.submitted = []) (htx : w.transactions = [])
    (reads : List (AccountKind × Nat)) :
    Stage script (Turn.after (readFrom w (jobOf script) reads))
      [.init, script.prepare] [.initWorker, .initOk] := by
  cases reads with
  | nil => exact .preparing ⟨rfl, hx, hsub, .inr (.inl ⟨rfl, htx⟩)⟩
  | cons r reads => exact .preparing ⟨rfl, hx, hsub, .inl ⟨⟨_, _, _, rfl⟩, htx⟩⟩

/-- `prepare` for a type that it signs transactions of. -/
theorem prepareFrom_report {job : Job} (hr : isReport job.transactionType = true) (i : Nat) :
    prepareFrom env w job i =
      if i < job.limit then
        match w.arrays.bind (newTransaction env · i job.transactionType) with
        | some tx => ⟨w, [], some (.sign job i tx)⟩
        | none => .fail w
      else ⟨w, [.prepareStats i, .prepareOk], none⟩ := by
  obtain ⟨type, limit⟩ := job
  cases type with
  | reportAccidentRenault => rfl
  | reportAccidentInsurance => rfl
  | _ => cases hr

theorem prepareFrom_other {job : Job} (hr : isReport job.transactionType = false) (i : Nat) :
    prepareFrom env w job i = ⟨w, [.prepareStats 0, .prepareOk], none⟩ := by
  obtain ⟨type, limit⟩ := job
  cases type with
  | reportAccidentRenault => cases hr
  | reportAccidentInsurance => cases hr
  | _ => rfl

variable (env) in
theorem stage_prepareFrom (hx : w.exited = none) (hsub : w.submitted = [])
    (hle : w.transactions.length ≤ planned script) :
    Stage script
      (Turn.after (prepareFrom env w (jobOf script) w.transactions.length))
      [.init, script.prepare]
      ([.initWorker, .initOk] ++
        (prepareFrom env w (jobOf script) w.transactions.length).sent) := by
  have hfail : Stage script (Turn.after (Turn.fail w)) [.init, script.prepare]
      [.initWorker, .initOk] :=
    .failed .preparing rfl (fun h => absurd hsub h) (by simp)
  cases hr : isReport script.prepareType with
  | true =>
    have hplan : planned script = script.limit.toNat := by simp [planned, hr]
    rw [prepareFrom_report hr]
    split
    · rename_i hlt
      split
      · exact .preparing ⟨rfl, hx, hsub, .inr (.inr ⟨_, rfl, hr, hlt⟩)⟩
      · exact hfail
    · rename_i hlt
      have hlen : w.transactions.length = planned script := by simp only at hlt; omega
      rw [hlen]
      exact .prepared rfl hx hsub hlen
  | false =>
    have hplan : planned script = 0 := by simp [planned, hr]
    rw [prepareFrom_other hr, ← hplan]
    exact .prepared rfl hx hsub (show w.transactions.length = planned script by omega)

theorem promise_transactionType (call : SendCall) (i : Nat) (round : Round AccountId) :
    (call.promise i round).transactionType = call.transactionType := by
  unfold SendCall.promise
  repeat' split
  all_goals rfl

theorem settled_transactionType (accepts : Nat → Bool) (call : SendCall) (k : Nat) :
    (call.settled accepts k).transactionType = call.transactionType := by
  unfold SendCall.settled
  split
  · rfl
  · simp only
    repeat' split
    all_goals rfl

theorem stage_waitAll (hx : w.exited = none) (hlen : w.transactions.length = planned script)
    {call : SendCall}
    (hc : call.transactionType = script.sendType) :
    Stage script (Turn.after (waitAll w call)) [.init, script.prepare, script.send]
      (preparedReplies script ++ (waitAll w call).sent) := by
  unfold waitAll
  split
  · exact .sending ⟨rfl, hx, hlen, _, rfl, hc⟩
  · exact .reported _ _ _ rfl hx hlen

theorem stage_sendFrom (hx : w.exited = none) (hlen : w.transactions.length = planned script)
    {call : SendCall}
    (hc : call.transactionType = script.sendType) (i : Nat) :
    Stage script (Turn.after (sendFrom env w call i)) [.init, script.prepare, script.send]
      (preparedReplies script ++ (sendFrom env w call i).sent) := by
  unfold sendFrom
  split
  · split
    · exact .sending ⟨rfl, hx, hlen, _, rfl, by rw [promise_transactionType, hc]⟩
    · exact .failed (.sending _) rfl (by simp) fun _ => hlen
  · exact stage_waitAll hx hlen hc

/-! ## What a step does -/

/-- The message that a worker has sent before it is sent a command. -/
def Due (sent : List Reply) : Command → Prop
  | .init => True
  | .prepare _ _ => .initOk ∈ sent
  | .send _ => .prepareOk ∈ sent
  | .exit => .sendOk ∈ sent

/-- An event that a worker can meet: the next command of its script, in time, or another event
that satisfies `ok`. -/
def Meets (script : Script) (ok : Event → Prop) (w : Worker AccountId) (received : List Command)
    (sent : List Reply) : Event → Prop
  | .message c => w.exited = none ∧ received ++ [c] <+: plan script ∧ Due sent c
  | event => ok event

/-- The commands received after an event. -/
def receivedBy (received : List Command) : Event → List Command
  | .message c => received ++ [c]
  | _ => received

/-- A step of a worker, by its stage: the worker that it leaves, the commands received by then and
the messages that it sends. -/
inductive Step (script : Script) (env : Env AccountId) (p tot : Nat) (ok : Event → Prop) :
    Worker AccountId → List Command → List Reply →
      Worker AccountId → List Command → List Reply → Prop
  | idle {w : Worker AccountId} {received : List Command} {sent : List Reply} :
      Step script env p tot ok w received sent w received []
  | crash {w : Worker AccountId} {received : List Command} {sent : List Reply} : ok .crash →
      w.exited = none →
      Step script env p tot ok w received sent { w with exited := some .failure } received []
  | init :
      Step script env p tot ok .start [] [.initWorker]
        { Worker.start with handlers := [.initApi] } [.init] []
  | notLoaded (n : Nat) : ok (.resume n (.apiReady false)) →
      Step script env p tot ok { Worker.start with handlers := [.initApi] } [.init] [.initWorker]
        { Worker.start with exited := some .failure } [.init] []
  | loaded :
      Step script env p tot ok { Worker.start with handlers := [.initApi] } [.init] [.initWorker]
        { Worker.start with pairs := some (makeAll env.files (some (p, tot))) } [.init] [.initOk]
  | unequal {arrays : Arrays AccountId} : arrays.vehicles.length ≠ arrays.drivers.length →
      Step script env p tot ok { Worker.start with pairs := some arrays } [.init]
        [.initWorker, .initOk]
        { Worker.start with pairs := some arrays, assigned := true, exited := some .failure }
        [.init, script.prepare] []
  | prepare {arrays : Arrays AccountId} : arrays.vehicles.length = arrays.drivers.length →
      Step script env p tot ok { Worker.start with pairs := some arrays } [.init]
        [.initWorker, .initOk]
        (Turn.after (readFrom { Worker.start with pairs := some arrays, assigned := true }
          (jobOf script) (nonceReads arrays)))
        [.init, script.prepare] []
  | nextIndex {w : Worker AccountId} {kind : AccountKind} {i : Nat}
      {reads : List (AccountKind × Nat)} (n : Nat) (read : Bool) :
      Preparing script w (.readNonces kind i reads (jobOf script)) →
      ok (.resume n (.nextIndex read)) →
      Step script env p tot ok w [.init, script.prepare] [.initWorker, .initOk]
        (Turn.after (onNextIndex env w kind i reads (jobOf script) read)) [.init, script.prepare] []
  | rested {w : Worker AccountId} : Preparing script w (.rest (jobOf script)) →
      Step script env p tot ok w [.init, script.prepare] [.initWorker, .initOk]
        (Turn.after (prepareFrom env w (jobOf script) 0)) [.init, script.prepare]
        (prepareFrom env w (jobOf script) 0).sent
  | notSigned {w : Worker AccountId} {tx : Transaction AccountId} (n : Nat) :
      Preparing script w (.sign (jobOf script) w.transactions.length tx) →
      ok (.resume n (.signed false)) →
      Step script env p tot ok w [.init, script.prepare] [.initWorker, .initOk]
        { w with handlers := [], exited := some .failure } [.init, script.prepare] []
  | signed {w w' : Worker AccountId} {tx : Transaction AccountId} :
      Preparing script w (.sign (jobOf script) w.transactions.length tx) →
      w' = { w with
        transactions := w.transactions ++ [tx]
        pairs := w.pairs.map (countNonce · w.transactions.length script.prepareType) } →
      Step script env p tot ok w [.init, script.prepare] [.initWorker, .initOk]
        (Turn.after (prepareFrom env w' (jobOf script) w'.transactions.length)) [.init, script.prepare]
        (prepareFrom env w' (jobOf script) w'.transactions.length).sent
  | send {w : Worker AccountId} : w.handlers = [] → w.exited = none → w.submitted = [] →
      w.transactions.length = planned script →
      Step script env p tot ok w [.init, script.prepare] (preparedReplies script)
        (Turn.after (onMessage env w script.send)) [.init, script.prepare, script.send]
        (onMessage env w script.send).sent
  | slept {w : Worker AccountId} {call : SendCall} {i : Nat} : Sends script w (.send call i) →
      Step script env p tot ok w [.init, script.prepare, script.send] (preparedReplies script)
        (Turn.after (sendFrom env w call (i + stride w call.transactionType)))
        [.init, script.prepare, script.send]
        (sendFrom env w call (i + stride w call.transactionType)).sent
  | settled {w : Worker AccountId} {call : SendCall} {i : Nat} (k : Nat) :
      Sends script w (.send call i) →
      Step script env p tot ok w [.init, script.prepare, script.send] (preparedReplies script)
        { w with handlers := [.send (call.settled (env.accepts p) k) i] }
        [.init, script.prepare, script.send] []
  | settledLate {w : Worker AccountId} {call : SendCall} (k : Nat) : Sends script w (.wait call) →
      Step script env p tot ok w [.init, script.prepare, script.send] (preparedReplies script)
        { w with handlers := [.wait (call.settled (env.accepts p) k)] }
        [.init, script.prepare, script.send] []
  | waited {w : Worker AccountId} {call : SendCall} : Sends script w (.wait call) →
      Step script env p tot ok w [.init, script.prepare, script.send] (preparedReplies script)
        (Turn.after (waitAll w call)) [.init, script.prepare, script.send] (waitAll w call).sent
  | finished {w : Worker AccountId} (success failed finished : Nat) : w.handlers = [.finish] →
      w.exited = none → w.transactions.length = planned script →
      Step script env p tot ok w [.init, script.prepare, script.send]
        (preparedReplies script ++ [.sendStats success failed finished])
        { w with handlers := [] } [.init, script.prepare, script.send] [.sendOk]
  | exit {w : Worker AccountId} (success failed finished : Nat) : w.handlers = [] →
      w.exited = none → w.transactions.length = planned script →
      Step script env p tot ok w [.init, script.prepare, script.send]
        (preparedReplies script ++ [.sendStats success failed finished, .sendOk])
        { w with handlers := [], exited := some .command } (plan script) []

variable {ok : Event → Prop}

/-- A step of the event loop, for a worker that has one handler: it meets an answer that it does
not await, or does a turn. -/
theorem step_of_turn {handler : Handler AccountId} (hx : w.exited = none)
    (hh : w.handlers = [handler]) (n : Nat) (a : Answer)
    (hturn : ∀ turn, onAnswer env p tot w handler a = some turn →
      Step script env p tot ok w received sent (Turn.after turn) received turn.sent) :
    Step script env p tot ok w received sent ((senderProcess env p tot).step w (.resume n a)).1
      received ((senderProcess env p tot).step w (.resume n a)).2 := by
  rcases step_resume hx hh n a with heq | ⟨turn, ha, heq⟩
  · rw [heq]; exact .idle
  · rw [heq]; exact hturn turn ha

theorem step_of_resume (h : Stage script w received sent) {n : Nat} {a : Answer}
    (hok : ok (.resume n a)) :
    Step script env p tot ok w received sent ((senderProcess env p tot).step w (.resume n a)).1
      received ((senderProcess env p tot).step w (.resume n a)).2 := by
  have hidle : w.handlers = [] → Step script env p tot ok w received sent
      ((senderProcess env p tot).step w (.resume n a)).1 received
      ((senderProcess env p tot).step w (.resume n a)).2 := by
    intro hh
    rw [step_resume_nil hh]
    exact .idle
  have hexited : ∀ e, w.exited = some e → Step script env p tot ok w received sent
      ((senderProcess env p tot).step w (.resume n a)).1 received
      ((senderProcess env p tot).step w (.resume n a)).2 := by
    intro e he
    rw [step_exited he]
    exact .idle
  cases h with
  | started => exact hidle rfl
  | ready => exact hidle rfl
  | prepared hh => exact hidle hh
  | done _ _ _ hh => exact hidle hh
  | exited _ _ _ hx => exact hexited _ hx
  | failed _ hx => exact hexited _ hx
  | initialising =>
    refine step_of_turn rfl rfl n a fun turn ha => ?_
    cases a with
    | apiReady ready =>
      cases ready with
      | true => cases ha; exact .loaded
      | false => cases ha; exact .notLoaded n hok
    | _ => cases ha
  | @preparing w handler hp =>
    refine step_of_turn hp.exited hp.handlers n a fun turn ha => ?_
    obtain ⟨⟨kind, i, reads, rfl⟩, -⟩ | ⟨rfl, -⟩ | ⟨tx, rfl, -⟩ := hp.progress
    · cases a with
      | nextIndex read =>
        cases ha
        rw [onNextIndex_sent]
        exact .nextIndex n read hp hok
      | _ => cases ha
    · cases a with
      | timer => cases ha; exact .rested hp
      | _ => cases ha
    · cases a with
      | signed signed =>
        cases ha
        cases signed with
        | true => rw [onSigned_true rfl]; exact .signed hp rfl
        | false => exact .notSigned n hp hok
      | _ => cases ha
  | @sending w handler hs =>
    refine step_of_turn hs.exited hs.handlers n a fun turn ha => ?_
    obtain ⟨call, hc, -⟩ := hs.progress
    cases handler with
    | send call i =>
      cases a with
      | timer => cases ha; exact .slept hs
      | settled k => cases ha; exact .settled k hs
      | _ => cases ha
    | wait call =>
      cases a with
      | timer => cases ha; exact .waited hs
      | settled k => cases ha; exact .settledLate k hs
      | _ => cases ha
    | _ => cases hc
  | @reported w success failed finished hh hx hlen =>
    refine step_of_turn hx hh n a fun turn ha => ?_
    cases a with
    | timer => cases ha; exact .finished success failed finished hh hx hlen
    | _ => cases ha

/-- The next command of the script starts the next handler. -/
theorem step_of_message (h : Stage script w received sent) (hx : w.exited = none) {c : Command}
    (hplan : received ++ [c] <+: plan script) (hdue : Due sent c) :
    Step script env p tot ok w received sent ((senderProcess env p tot).step w (.message c)).1
      (received ++ [c]) ((senderProcess env p tot).step w (.message c)).2 := by
  cases h with
  | started =>
    obtain rfl : c = .init := by simpa [plan] using hplan
    rw [step_message hx rfl]
    exact .init
  | initialising =>
    obtain rfl : c = script.prepare := by simpa [plan] using hplan
    simp [Due, Script.prepare] at hdue
  | ready arrays =>
    obtain rfl : c = script.prepare := by simpa [plan] using hplan
    rw [step_message hx rfl]
    by_cases hlen : arrays.vehicles.length = arrays.drivers.length
    · simp only [Script.prepare, onMessage, hlen, ne_eq, not_true_eq_false, if_false, readFrom_sent]
      exact .prepare hlen
    · simp only [Script.prepare, onMessage, ne_eq, hlen, not_false_eq_true, if_true]
      exact .unequal hlen
  | preparing =>
    obtain rfl : c = script.send := by simpa [plan] using hplan
    simp [Due, Script.send] at hdue
  | prepared hh _ hsub hlen =>
    obtain rfl : c = script.send := by simpa [plan] using hplan
    rw [step_message hx hh]
    exact .send hh hx hsub hlen
  | sending =>
    obtain rfl : c = .exit := by simpa [plan] using hplan
    simp [Due] at hdue
  | reported =>
    obtain rfl : c = .exit := by simpa [plan] using hplan
    simp [Due] at hdue
  | done success failed finished hh _ hlen =>
    obtain rfl : c = .exit := by simpa [plan] using hplan
    rw [step_message hx hh]
    exact .exit success failed finished hh hx hlen
  | exited _ _ _ he => rw [hx] at he; cases he
  | failed _ he => rw [hx] at he; cases he

/-- What a worker meets, it meets with a step. -/
theorem worker_step (h : Stage script w received sent) {event : Event}
    (hm : Meets script ok w received sent event) :
    Step script env p tot ok w received sent ((senderProcess env p tot).step w event).1
      (receivedBy received event) ((senderProcess env p tot).step w event).2 := by
  cases event with
  | message c =>
    obtain ⟨hx, hplan, hdue⟩ := hm
    exact step_of_message h hx hplan hdue
  | resume n a => exact step_of_resume h hm
  | crash =>
    cases hx : w.exited with
    | some e => rw [step_exited hx]; exact .idle
    | none =>
      have hstep : (senderProcess env p tot).step w .crash =
          ({ w with exited := some .failure }, []) := by
        simp [senderProcess, hx]
      rw [hstep]
      exact .crash hm hx

/-- A step leads to a stage again. -/
theorem Step.stage {w' : Worker AccountId} {received' : List Command} {out : List Reply}
    (hs : Step script env p tot ok w received sent w' received' out)
    (h : Stage script w received sent) : Stage script w' received' (sent ++ out) := by
  cases hs with
  | idle => simpa using h
  | crash =>
    rw [List.append_nil]
    exact .failed h.talk rfl (fun hs => h.send_of_submitted hs) fun hok => h.length_transactions hok
  | init => exact .initialising
  | notLoaded => exact .failed .initialising rfl (fun hs => absurd rfl hs) (by simp)
  | loaded => exact .ready _
  | unequal => exact .failed .preparing rfl (fun hs => absurd rfl hs) (by simp)
  | @prepare arrays =>
    exact stage_readFrom (w := { Worker.start with pairs := some arrays, assigned := true }) rfl rfl
      rfl (nonceReads arrays)
  | @nextIndex w kind i reads n read hp =>
    obtain ⟨-, htx⟩ | ⟨hh, -⟩ | ⟨tx, hh, -⟩ := hp.progress
    · have hx := hp.exited
      have hsub := hp.submitted
      unfold onNextIndex
      split
      · apply stage_readFrom <;> assumption
      · exact stage_readFrom hx hsub htx _
    · cases hh
    · cases hh
  | @rested w hp =>
    obtain ⟨⟨_, _, _, hh⟩, -⟩ | ⟨-, htx⟩ | ⟨tx, hh, -⟩ := hp.progress
    · cases hh
    · have hle : w.transactions.length ≤ planned script := by rw [htx]; exact Nat.zero_le _
      have := stage_prepareFrom env hp.exited hp.submitted hle
      rwa [htx, List.length_nil] at this
    · cases hh
  | @notSigned w tx n hp => exact .failed .preparing rfl (fun hs => absurd hp.submitted hs) (by simp)
  | @signed w w' tx hp hw =>
    obtain ⟨⟨_, _, _, hh⟩, -⟩ | ⟨hh, -⟩ | ⟨tx, hh, hr, hlt⟩ := hp.progress
    · cases hh
    · cases hh
    · have hplan : planned script = script.limit.toNat := by simp [planned, hr]
      have hlen : w'.transactions.length = w.transactions.length + 1 := by simp [hw]
      have hle : w'.transactions.length ≤ planned script := by omega
      exact stage_prepareFrom env (by rw [hw]; exact hp.exited) (by rw [hw]; exact hp.submitted) hle
  | @send w hh hx hsub hlen =>
    simp only [Script.send, onMessage]
    split
    · exact .failed (.sending _) rfl (by simp [Script.send]) fun _ => hlen
    · exact stage_sendFrom hx hlen rfl 0
  | @slept w call i hs => exact stage_sendFrom hs.exited hs.transactions (hs.transactionType rfl) _
  | @settled w call i k hs =>
    refine .sending ⟨rfl, hs.exited, hs.transactions, _, rfl, ?_⟩
    rw [settled_transactionType, hs.transactionType rfl]
  | @settledLate w call k hs =>
    refine .sending ⟨rfl, hs.exited, hs.transactions, _, rfl, ?_⟩
    rw [settled_transactionType, hs.transactionType rfl]
  | @waited w call hs => exact stage_waitAll hs.exited hs.transactions (hs.transactionType rfl)
  | @finished w success failed finished hh hx hlen => exact .done success failed finished rfl hx hlen
  | @exit w success failed finished hh hx hlen => exact .exited success failed finished rfl hlen

theorem stage_next (h : Stage script w received sent) {event : Event}
    (hm : Meets script (fun _ => True) w received sent event) :
    Stage script ((senderProcess env p tot).step w event).1 (receivedBy received event)
      (sent ++ ((senderProcess env p tot).step w event).2) := (worker_step h hm).stage h

/-- Once it has told that it is prepared, a worker signs nothing more. -/
theorem Step.transactions_frozen {w' : Worker AccountId} {received' : List Command}
    {out : List Reply} (hs : Step script env p tot ok w received sent w' received' out)
    (hok : .prepareOk ∈ sent) : w'.transactions = w.transactions := by
  cases hs with
  | idle => rfl
  | crash => rfl
  | send => exact onMessage_transactions ..
  | slept => exact sendFrom_transactions ..
  | settled => rfl
  | settledLate => rfl
  | @waited w call => simp only [Turn.after, waitAll_worker]
  | finished => rfl
  | exit => rfl
  | _ => simp at hok

end SIM.Proof.Benchmark
