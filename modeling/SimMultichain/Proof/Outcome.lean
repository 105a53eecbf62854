import SimMultichain.Proof.PhaseBarrier
import SimMultichain.Proof.Sending

/-!
# What a worker has done

`Proof.Sending` is about one call of `send`, from any worker. Here the call is the one of a script:
`Sound` follows a worker from its start, with its pieces of the account files, into the call and to
its end. A worker that has exited on command has made every submission of its pieces, in order
(`Sound.submitted`), and has told how many it counted (`Sound.sent`).
-/

namespace SIM.Proof.Benchmark

open SIM.Impl.Benchmark

variable {AccountId : Type}

/-! ## The call of `send` -/

section Send

variable {env : Env AccountId} {p tot : Nat} {accounts : AccountKind → List AccountId}
  {base : List (Transaction AccountId)} {type : TransactionType} {w : Worker AccountId}
  {out : List Reply}

theorem SendRun.arrays (h : SendRun env p accounts base type w out) :
    w.arrays.map addresses = some accounts := by
  cases h with
  | sending _ _ _ hs => exact hs.arrays
  | waiting _ _ _ hs => exact hs.arrays
  | reported _ _ _ hs => exact hs.arrays
  | done _ _ _ hs => exact hs.arrays

variable (tot) in
/-- A turn of the handler leads on in the call. -/
theorem SendRun.turn (h : SendRun env p accounts base type w out) (hx : w.exited = none)
    (hlen : type = .signup → (accounts .vehicle).length = (accounts .driver).length)
    {handler : Handler AccountId} {turn : Turn AccountId} (hh : w.handlers = [handler]) (a : Answer)
    (ha : onAnswer env p tot w handler a = some turn) :
    SendRun env p accounts base type (Turn.after turn) (out ++ turn.sent) ∧
      (Turn.after turn).exited = none := by
  have hstep := step_answer hx hh ha
  have hleads : LeadsOn env p accounts base w tot type out 0 a := h.answer hx hlen 0 a
  rcases hleads with heq | ⟨w', more, heq, hrun, -, hx', -⟩
  · rw [hstep] at heq
    obtain ⟨hw, hsent⟩ := Prod.mk.inj heq
    rw [hw, hsent, List.append_nil]
    exact ⟨h, hx⟩
  · rw [hstep] at heq
    cases heq
    exact ⟨hrun, hx'⟩

/-- The command starts the call. -/
theorem sendRun_onMessage (ha : w.arrays.map addresses = some accounts) (hsub : w.submitted = [])
    (hx : w.exited = none)
    (hlen : type = .signup → (accounts .vehicle).length = (accounts .driver).length) :
    SendRun env p accounts [] type (Turn.after (onMessage env w (.send type)))
        (onMessage env w (.send type)).sent ∧
      (Turn.after (onMessage env w (.send type))).exited = none := by
  have hstart : SendingAt env p accounts w.submitted w
      ⟨type, totalOf accounts w.transactions type, 0, 0, 0, []⟩ 0 := .start ha type
  have hrun := sendRun_sendFrom hstart hlen
  have hexited := hstart.exited_sendFrom hlen
  rw [Nat.zero_mul] at hrun hexited
  rw [hsub] at hrun
  rw [SendingAt.onMessage_send ha type]
  exact ⟨hrun, hexited.trans hx⟩

end Send

/-! ## The worker -/

section Worker

variable (script : Script) (env : Env AccountId) (p tot : Nat)

/-- What a worker of a script has by the commands it has received, unless it has failed: the
pieces of the files from `prepare` on, and the call of `send` from `send` on. -/
structure Sound (w : Worker AccountId) (received : List Command) (sent : List Reply) : Prop where
  loaded : Loaded env.files p tot w
  length : w.transactions.length ≤ planned script
  arrays : w.exited ≠ some .failure → script.prepare ∈ received →
    w.arrays.map addresses = some (piece env.files p tot)
  sends : w.exited ≠ some .failure → script.send ∈ received →
    ∃ out, sent = preparedReplies script ++ out ∧
      SendRun env p (piece env.files p tot) [] script.sendType w out

variable {script env p tot} {w w' : Worker AccountId} {tx : Transaction AccountId}
  {received received' : List Command} {sent out : List Reply} {ok : Event → Prop}

theorem arrays_map_addresses (w : Worker AccountId) :
    w.arrays.map addresses = if w.assigned then w.pairs.map addresses else none := by
  unfold Worker.arrays
  split <;> rfl

theorem Loaded.map_addresses (h : Loaded env.files p tot w) {arrays : Arrays AccountId}
    (ha : w.pairs = some arrays) : w.pairs.map addresses = some (piece env.files p tot) := by
  rw [ha, Option.map_some]
  exact congrArg some (funext fun kind => h arrays ha kind)

theorem Sound.start : Sound script env p tot .start [] [.initWorker] where
  loaded := loaded_start _ _ _
  length := Nat.zero_le _
  arrays _ h := by cases h
  sends _ h := by cases h

/-- What a worker has that has failed. -/
theorem Sound.of_failed (hloaded : Loaded env.files p tot w)
    (hlength : w.transactions.length ≤ planned script) (hx : w.exited = some .failure) :
    Sound script env p tot w received sent :=
  ⟨hloaded, hlength, fun h => absurd hx h, fun h => absurd hx h⟩

/-- What a worker has that runs `prepare`. -/
theorem Sound.of_preparing (hloaded : Loaded env.files p tot w)
    (hlength : w.transactions.length ≤ planned script)
    (ha : w.arrays.map addresses = some (piece env.files p tot)) :
    Sound script env p tot w [.init, script.prepare] sent :=
  ⟨hloaded, hlength, fun _ _ => ha, fun _ h => by simp [Script.prepare, Script.send] at h⟩

/-- What a worker has that runs `send`. -/
theorem Sound.of_sendRun (hloaded : Loaded env.files p tot w)
    (hlength : w.transactions.length ≤ planned script)
    (h : SendRun env p (piece env.files p tot) [] script.sendType w out) :
    Sound script env p tot w received (preparedReplies script ++ out) :=
  ⟨hloaded, hlength, fun _ _ => h.arrays, fun _ _ => ⟨out, rfl, h⟩⟩

theorem Sound.sendRun (h : Sound script env p tot w [.init, script.prepare, script.send]
    (preparedReplies script ++ out)) (hx : w.exited = none) :
    SendRun env p (piece env.files p tot) [] script.sendType w out := by
  obtain ⟨out', hsent, hrun⟩ := h.sends (by simp [hx]) (by simp)
  rwa [List.append_cancel_left hsent]

/-- No step signs more than it should. -/
theorem Step.length_transactions (hs : Step script env p tot ok w received sent w' received' out)
    (h : w.transactions.length ≤ planned script) : w'.transactions.length ≤ planned script := by
  cases hs with
  | idle => exact h
  | crash => exact h
  | init => exact h
  | notLoaded => exact h
  | loaded => exact h
  | unequal => exact h
  | prepare => simp [Turn.after, Worker.start]
  | @nextIndex w kind i reads n read =>
    obtain ⟨pairs, hw, -⟩ := onNextIndex_worker env w kind i reads (jobOf script) read
    simpa only [Turn.after, hw] using h
  | rested => simpa only [Turn.after, prepareFrom_transactions] using h
  | notSigned => exact h
  | @signed w w' tx hp hw =>
    obtain ⟨⟨_, _, _, hh⟩, -⟩ | ⟨hh, -⟩ | ⟨tx, hh, hr, hlt⟩ := hp.progress
    · cases hh
    · cases hh
    · simp only [Turn.after, prepareFrom_transactions, hw, List.length_append, List.length_singleton,
        planned, hr, if_true]
      omega
  | send => simpa only [Turn.after, onMessage_transactions] using h
  | slept => simpa only [Turn.after, sendFrom_transactions] using h
  | settled => exact h
  | settledLate => exact h
  | waited => simpa only [Turn.after, waitAll_worker] using h
  | finished => exact h
  | exit => exact h

/-- No step of `prepare` changes the accounts of the arrays. -/
theorem arrays_of_pairs (hassigned : w'.assigned = w.assigned)
    (hpairs : w'.pairs.map addresses = w.pairs.map addresses) :
    w'.arrays.map addresses = w.arrays.map addresses := by
  rw [arrays_map_addresses, arrays_map_addresses, hassigned, hpairs]

theorem arrays_prepareFrom (w : Worker AccountId) (job : Job) (i : Nat) :
    (Turn.after (prepareFrom env w job i)).arrays = w.arrays := by
  obtain ⟨exited, hw⟩ := prepareFrom_worker env w job i
  rw [Turn.after, hw]
  rfl

theorem arrays_signed (htx : w' = { w with
      transactions := w.transactions ++ [tx]
      pairs := w.pairs.map (countNonce · w.transactions.length script.prepareType) }) :
    w'.arrays.map addresses = w.arrays.map addresses := by
  subst htx
  exact arrays_of_pairs rfl (map_countNonce ..)

theorem Step.sound (hfiles : env.files.vehicles.length = env.files.drivers.length)
    (hs : Step script env p tot ok w received sent w' received' out)
    (h : Sound script env p tot w received sent) :
    Sound script env p tot w' received' (sent ++ out) := by
  have hloaded := hs.loads h.loaded
  have hlength := hs.length_transactions h.length
  have hlen := fun _ : script.sendType = .signup => length_piece_eq hfiles p tot
  cases hs with
  | idle => simpa using h
  | crash => exact .of_failed hloaded hlength rfl
  | init => exact ⟨hloaded, hlength, fun _ h => by simp [Script.prepare] at h,
      fun _ h => by simp [Script.send] at h⟩
  | notLoaded => exact .of_failed hloaded hlength rfl
  | loaded => exact ⟨hloaded, hlength, fun _ h => by simp [Script.prepare] at h,
      fun _ h => by simp [Script.send] at h⟩
  | unequal => exact .of_failed hloaded hlength rfl
  | @prepare arrays =>
    refine .of_preparing hloaded hlength ?_
    rw [arrays_map_addresses]
    simp only [Turn.after, readFrom_worker, if_true]
    exact h.loaded.map_addresses rfl
  | @nextIndex w kind i reads n read hp =>
    obtain ⟨pairs, hw, haddresses⟩ := onNextIndex_worker env w kind i reads (jobOf script) read
    refine .of_preparing hloaded hlength ?_
    rw [arrays_of_pairs (w := w) (by rw [Turn.after, hw]) (by rw [Turn.after, hw, haddresses])]
    exact h.arrays (by simp [hp.exited]) (by simp)
  | rested hp =>
    refine .of_preparing hloaded hlength ?_
    rw [arrays_prepareFrom]
    exact h.arrays (by simp [hp.exited]) (by simp)
  | notSigned => exact .of_failed hloaded hlength rfl
  | signed hp hw =>
    refine .of_preparing hloaded hlength ?_
    rw [arrays_prepareFrom, arrays_signed hw]
    exact h.arrays (by simp [hp.exited]) (by simp)
  | send hh hx hsub =>
    exact .of_sendRun hloaded hlength
      (sendRun_onMessage (h.arrays (by simp [hx]) (by simp)) hsub hx hlen).1
  | slept hs =>
    have hrun := h.sendRun hs.exited
    exact .of_sendRun hloaded hlength (hrun.turn tot hs.exited hlen hs.handlers .timer rfl).1
  | settled k hs =>
    have hrun := h.sendRun hs.exited
    exact .of_sendRun hloaded hlength (hrun.turn tot hs.exited hlen hs.handlers (.settled k) rfl).1
  | settledLate k hs =>
    have hrun := h.sendRun hs.exited
    exact .of_sendRun hloaded hlength (hrun.turn tot hs.exited hlen hs.handlers (.settled k) rfl).1
  | waited hs =>
    have hrun := h.sendRun hs.exited
    exact .of_sendRun hloaded hlength (hrun.turn tot hs.exited hlen hs.handlers .timer rfl).1
  | finished success failed finished hh hx =>
    have hrun := h.sendRun hx
    rw [List.append_assoc]
    exact .of_sendRun hloaded hlength (hrun.turn tot hx hlen hh .timer rfl).1
  | exit success failed finished hh hx =>
    have hrun := h.sendRun hx
    rw [List.append_nil]
    refine .of_sendRun hloaded hlength ?_
    cases hrun with
    | done call R hcall hs hle hfin _ =>
      exact .done call R hcall ⟨hs.arrays, hs.accounted, hs.started, hs.submitted⟩ hle hfin rfl

/-- The call of `send` of a worker that has exited on command. -/
theorem Sound.done (h : Sound script env p tot w received sent) (hst : Stage script w received sent)
    (hx : w.exited = some .command) :
    ∃ call R, call.transactionType = script.sendType ∧
      SendingAt env p (piece env.files p tot) [] w call R ∧
      totalOf (piece env.files p tot) w.transactions script.sendType ≤
        R * strideOf (piece env.files p tot) script.sendType ∧
      totalOf (piece env.files p tot) w.transactions script.sendType ≤ call.finished ∧
      sent = preparedReplies script ++
        [.sendStats call.success call.failed call.finished, .sendOk] := by
  have hreceived := hst.received_of_exited hx
  subst hreceived
  obtain ⟨out, hsent, hrun⟩ := h.sends (by simp [hx]) (by simp [plan])
  have hall : ∃ success failed finished,
      sent = preparedReplies script ++ [.sendStats success failed finished, .sendOk] := by
    cases hst with
    | exited success failed finished => exact ⟨success, failed, finished, rfl⟩
    | failed _ hfailed => rw [hx] at hfailed; cases hfailed
  obtain ⟨success, failed, finished, hall⟩ := hall
  have hout := List.append_cancel_left (hsent.symm.trans hall)
  cases hrun with
  | sending => cases hout
  | waiting => cases hout
  | reported => cases hout
  | done call R hcall hs hle hfin _ => exact ⟨call, R, hcall, hs, hle, hfin, hsent⟩

/-- A worker that has exited on command has made every submission, in order. -/
theorem Sound.submitted (h : Sound script env p tot w received sent)
    (hst : Stage script w received sent) (hx : w.exited = some .command)
    (hfiles : env.files.vehicles.length = env.files.drivers.length) :
    w.submitted.map view =
      (List.range (totalOf (piece env.files p tot) w.transactions script.sendType)).filterMap
        (submission env.address (piece env.files p tot) w.transactions script.sendType) := by
  obtain ⟨call, R, hcall, hs, hle, -⟩ := h.done hst hx
  rw [← hcall] at hle ⊢
  obtain ⟨new, hnew, hview⟩ := hs.submitted_all (fun _ => length_piece_eq hfiles p tot) hle
  rw [hnew]
  exact hview

section Reports

variable {type : TransactionType} (hr : isReport type = true)
include hr

theorem strideOf_report (accounts : AccountKind → List AccountId) : strideOf accounts type = 1 := by
  cases type with
  | newCar => cases hr
  | _ => rfl

theorem totalOf_report (accounts : AccountKind → List AccountId)
    (transactions : List (Transaction AccountId)) :
    totalOf accounts transactions type = transactions.length := by
  cases type with
  | reportAccidentRenault => rfl
  | reportAccidentInsurance => rfl
  | _ => cases hr

theorem submission_report (address : AccountId → List UInt8)
    (accounts : AccountKind → List AccountId) (transactions : List (Transaction AccountId)) :
    submission address accounts transactions type = fun k => transactions[k]?.map view := by
  funext k
  cases type with
  | reportAccidentRenault => rfl
  | reportAccidentInsurance => rfl
  | _ => cases hr

end Reports

/-- A worker that sends its reports and has exited on command has sent each. -/
theorem Sound.submitted_reports (h : Sound script env p tot w received sent)
    (hst : Stage script w received sent) (hx : w.exited = some .command)
    (hfiles : env.files.vehicles.length = env.files.drivers.length)
    (hr : isReport script.sendType = true) :
    w.submitted.map view = w.transactions.map view := by
  rw [h.submitted hst hx hfiles, totalOf_report hr, submission_report hr, List.range_eq_range',
    ← List.map_filterMap, filterMap_range'_getElem?, List.drop_zero, List.take_length]

/-- A worker that sends its reports and has exited on command has counted each. -/
theorem Sound.finished (h : Sound script env p tot w received sent)
    (hst : Stage script w received sent) (hx : w.exited = some .command)
    (hr : isReport script.sendType = true) :
    (sent.map finishedOf).sum = w.transactions.length := by
  obtain ⟨call, R, hcall, hs, hle, hfin, hsent⟩ := h.done hst hx
  have hstride := strideOf_report hr (piece env.files p tot)
  have htotal := totalOf_report hr (piece env.files p tot) w.transactions
  have haccounted := hs.accounted
  have hstarted := hs.started
  rw [hcall, hstride, htotal] at haccounted hstarted
  rw [hstride, htotal] at hle
  rw [htotal] at hfin
  obtain ⟨heq, -⟩ := haccounted.exact (Nat.one_dvd _) hstarted hle hfin
  rw [hsent]
  simpa [finishedOf] using heq

end Worker

/-! ## All workers -/

section Network

variable {script : Script} {env : Env AccountId} {s : Network script AccountId}

/-- A benchmark that has ended: its final report is made, and every worker has exited on command. -/
structure Completed (s : Network script AccountId) : Prop where
  report : s.coordinator.report.isSome = true
  exited : ∀ i, (s.worker i).exited = some .command

/-- The transactions that the workers have submitted. -/
def submissions (s : Network script AccountId) : List (Transaction AccountId) :=
  (List.finRange script.nbProcesses).flatMap fun i => (s.worker i).submitted

theorem keeps_sound (hfiles : env.files.vehicles.length = env.files.drivers.length)
    (ok : Event → Prop) :
    Keeps env ok fun i : Fin script.nbProcesses => Sound script env i script.nbProcesses :=
  fun _ _ _ _ _ _ _ _ hstep h => hstep.sound hfiles h

theorem sound_run (hfiles : env.files.vehicles.length = env.files.drivers.length)
    (os : List (Occurrence script)) (i : Fin script.nbProcesses) :
    Sound script env i script.nbProcesses (((network env).run (.start script) os).worker i)
      (((network env).run (.start script) os).commands i).delivered
      (((network env).run (.start script) os).replies i).sent :=
  (keeps_sound hfiles fun _ => True).run .start (fun _ => .start) (fun o _ => allows_true o) i

/-- What the workers of a benchmark that has ended have submitted. -/
theorem view_mem_submissions (hfiles : env.files.vehicles.length = env.files.drivers.length)
    {os : List (Occurrence script)} (hc : Completed ((network env).run (.start script) os))
    (x : AccountId × Extrinsic AccountId) :
    (∃ tx ∈ submissions ((network env).run (.start script) os), view tx = x) ↔
      ∃ i : Fin script.nbProcesses,
        ∃ k < totalOf (piece env.files i script.nbProcesses)
          (((network env).run (.start script) os).worker i).transactions script.sendType,
        submission env.address (piece env.files i script.nbProcesses)
          (((network env).run (.start script) os).worker i).transactions script.sendType k =
            some x := by
  have h : Coordinated ((network env).run (.start script) os) := coordinated_run .start os
  have hsubmitted := fun i =>
    (sound_run hfiles os i).submitted (h.stage i) (hc.exited i) hfiles
  constructor
  · rintro ⟨tx, htx, rfl⟩
    obtain ⟨i, -, htx⟩ := List.mem_flatMap.mp htx
    have hview := List.mem_map_of_mem (f := view) htx
    rw [hsubmitted i, List.mem_filterMap] at hview
    obtain ⟨k, hk, hx⟩ := hview
    exact ⟨i, k, List.mem_range.mp hk, hx⟩
  · rintro ⟨i, k, hk, hx⟩
    have hview := List.mem_filterMap.mpr ⟨k, List.mem_range.mpr hk, hx⟩
    rw [← hsubmitted i] at hview
    obtain ⟨tx, htx, rfl⟩ := List.mem_map.mp hview
    exact ⟨tx, List.mem_flatMap.mpr ⟨i, List.mem_finRange i, htx⟩, rfl⟩

end Network

end SIM.Proof.Benchmark
