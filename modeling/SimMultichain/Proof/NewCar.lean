import SimMultichain.Framework.Schedule
import SimMultichain.Proof.Sending

/-!
# The vehicle creation step

`send("new_car")` of one worker, along a schedule of answers on which each `sleep` ends and each
submission settles. It ends unless there are vehicles and no factories (`newCar_ends`), and its
report is then that of the rounds: right when the rounds fit in exactly and each of them is
accepted or rejected as a whole (`new_car_counts_iff`).
-/

namespace SIM.Proof.Benchmark

open SIM.Impl.Benchmark

variable {AccountId : Type}

/-! ## Answers -/

section Runs

variable (env : Env AccountId) (p tot : Nat)

/-- A worker that meets answers only. -/
def answered : Machine (Worker AccountId) Answer (List Reply) where
  step w a := (senderProcess env p tot).step w (.resume 0 a)

/-- A schedule on which all that a worker awaits comes. -/
def Fair (w : Worker AccountId) (answers : Nat → Answer) : Prop :=
  ∀ t h a, h ∈ ((answered env p tot).after w answers t).handlers → AwaitsAnswer h a →
    ∃ t' ≥ t, answers t' = a

/-- A worker when it has been told to send `new_car`, and what it has sent by then. -/
def newCarStart (w : Worker AccountId) : Worker AccountId × List Reply :=
  (senderProcess env p tot).step w (.message (.send .newCar))

/-- The worker at time `t` of a schedule, and what it has sent by then. -/
def newCar (w : Worker AccountId) (answers : Nat → Answer) (t : Nat) :
    Worker AccountId × List Reply :=
  let start := newCarStart env p tot w
  ((answered env p tot).after start.1 answers t,
    start.2 ++ ((answered env p tot).trace start.1 ((List.range t).map answers)).flatMap (·.output))

/-- The sleeps end and the submissions settle, again and again. -/
def everyAnswer : Nat → Answer := again fun
  | 0 => .timer
  | k + 1 => .settled k

theorem fair_everyAnswer (w : Worker AccountId) : Fair env p tot w everyAnswer := by
  have htimer : ∀ t, ∃ t' ≥ t, everyAnswer t' = .timer := exists_again _ 0
  have hsettled : ∀ k t, ∃ t' ≥ t, everyAnswer t' = .settled k := fun k => exists_again _ (k + 1)
  intro t h a _ ha
  cases a with
  | timer => exact htimer t
  | settled k => exact hsettled k t
  | _ => cases h <;> cases ha

end Runs

/-! ## Runs -/

variable {env : Env AccountId} {p tot : Nat} {arrays : Arrays AccountId} {w : Worker AccountId}
  {answers : Nat → Answer}

theorem newCar_zero (w : Worker AccountId) (answers : Nat → Answer) :
    newCar env p tot w answers 0 = newCarStart env p tot w := by
  simp [newCar]

theorem newCar_succ (w : Worker AccountId) (answers : Nat → Answer) (t : Nat) :
    newCar env p tot w answers (t + 1) =
      (((answered env p tot).step (newCar env p tot w answers t).1 (answers t)).1,
        (newCar env p tot w answers t).2 ++
          ((answered env p tot).step (newCar env p tot w answers t).1 (answers t)).2) := by
  simp only [newCar, Machine.after_succ]
  refine Prod.ext rfl ?_
  rw [List.range_succ, List.map_append, List.map_singleton, Machine.trace_snoc, List.flatMap_append]
  simp [Machine.after]

theorem not_signup {accounts : AccountKind → List AccountId} : TransactionType.newCar = .signup →
    (accounts .vehicle).length = (accounts .driver).length := by
  intro h
  cases h

variable (env p tot answers) in
/-- At every time the worker is in its call of `send`, by what it has sent. -/
theorem sendRun_newCar (hx : w.exited = none) (hh : w.handlers = []) (ha : w.arrays = some arrays)
    (t : Nat) :
    SendRun env p (addresses arrays) w.submitted .newCar (newCar env p tot w answers t).1
        (newCar env p tot w answers t).2 ∧ (newCar env p tot w answers t).1.exited = none := by
  have hacc : w.arrays.map addresses = some (addresses arrays) := by rw [ha]; rfl
  induction t with
  | zero =>
    rw [newCar_zero, newCarStart, step_message hx hh, SendingAt.onMessage_send hacc]
    have hs : SendingAt env p (addresses arrays) w.submitted w _ 0 := .start hacc .newCar
    have hrun := sendRun_sendFrom hs not_signup
    have hexited := hs.exited_sendFrom not_signup
    rw [Nat.zero_mul] at hrun hexited
    exact ⟨hrun, hexited.trans hx⟩
  | succ t ih =>
    rw [newCar_succ]
    have hon : LeadsOn env p (addresses arrays) w.submitted _ tot .newCar _ 0 (answers t) :=
      ih.1.answer ih.2 not_signup 0 (answers t)
    rcases hon with heq | ⟨w', more, heq, hrun, -, hx', -⟩
    · simp only [answered, heq, List.append_nil]
      exact ih
    · simp only [answered, heq]
      exact ⟨hrun, hx'⟩

section Ends

variable {v : Worker AccountId} {base : List (Transaction AccountId)} {out : List Reply}

theorem not_reported_or (h : SendRun env p (addresses arrays) base .newCar v out)
    (hout : out.length ≤ 1) :
    SendRun env p (addresses arrays) base .newCar v [] ∨ v.handlers = [.finish] := by
  cases h with
  | sending call R hcall hs hh => exact .inl (.sending call R hcall hs hh)
  | waiting call R hcall hs hle hh => exact .inl (.waiting call R hcall hs hle hh)
  | reported call R hcall hs hle hfin hh => exact .inr hh
  | done => simp at hout

/-- A call that is about to finish has reported. -/
theorem exists_sendStats (h : SendRun env p (addresses arrays) base .newCar v out)
    (hfinish : v.handlers = [.finish]) :
    ∃ success failed finished, out = [.sendStats success failed finished] := by
  cases h with
  | sending _ _ _ _ hh => rw [hh] at hfinish; cases hfinish
  | waiting _ _ _ _ _ hh => rw [hh] at hfinish; cases hfinish
  | reported => exact ⟨_, _, _, rfl⟩
  | done _ _ _ _ _ _ hh => rw [hh] at hfinish; cases hfinish

/-- What one answer does to a call that has not reported yet. -/
theorem newCar_answer (hrun : SendRun env p (addresses arrays) base .newCar v [])
    (hx : v.exited = none) (hd : 0 < strideOf (addresses arrays) .newCar) (a : Answer) :
    (answered env p tot).next v a = v ∨
      ((SendRun env p (addresses arrays) base .newCar ((answered env p tot).next v a) [] ∨
          ((answered env p tot).next v a).handlers = [.finish]) ∧
        ((answered env p tot).next v a).exited = none) ∧
      sendLeft (addresses arrays) .newCar ((answered env p tot).next v a) <
        sendLeft (addresses arrays) .newCar v := by
  have hon : LeadsOn env p (addresses arrays) base v tot .newCar [] 0 a :=
    hrun.answer hx not_signup 0 a
  rcases hon with heq | ⟨v', more, heq, hrun', hmore, hx', -, hless⟩
  · left
    simp only [Machine.next, answered, heq]
  · right
    simp only [Machine.next, answered, heq]
    exact ⟨⟨not_reported_or hrun' hmore, hx'⟩, hless hd⟩

/-- A call that has not reported yet awaits an answer that leads on. -/
theorem newCar_awaits (hrun : SendRun env p (addresses arrays) base .newCar v [])
    (hx : v.exited = none) (hd : 0 < strideOf (addresses arrays) .newCar) :
    ∃ a, (∃ h ∈ v.handlers, AwaitsAnswer h a) ∧ (answered env p tot).next v a ≠ v := by
  have hne : v.handlers ≠ [] := by
    cases hrun with
    | sending _ _ _ _ hh => simp [hh]
    | waiting _ _ _ _ _ hh => simp [hh]
  obtain ⟨h, a, hh, hawaits, hless⟩ := hrun.exists_answer tot hx not_signup hd hne
  refine ⟨a, ⟨h, by simp [hh], hawaits⟩, fun heq => ?_⟩
  rw [show ((senderProcess env p tot).step v (.resume 0 a)).1 = v from heq] at hless
  exact lt_irrefl _ hless

end Ends

/-- With factories, the call reports. -/
theorem newCar_ends (hx : w.exited = none) (hh : w.handlers = []) (ha : w.arrays = some arrays)
    (hm : 0 < arrays.factories.length)
    (hfair : Fair env p tot (newCarStart env p tot w).1 answers) :
    ∃ t, (newCar env p tot w answers t).1.handlers = [.finish] := by
  have hd : 0 < strideOf (addresses arrays) .newCar := by
    rwa [strideOf, length_addresses]
  obtain ⟨hrun, hexited⟩ := sendRun_newCar env p tot answers hx hh ha 0
  rw [newCar_zero] at hrun hexited
  have hout : (newCarStart env p tot w).2.length ≤ 1 := by
    rw [newCarStart, step_message hx hh, SendingAt.onMessage_send (by rw [ha]; rfl)]
    exact length_sent_sendFrom ..
  obtain ⟨t, -, hdone⟩ := Machine.ends_of_fair
    (fun v => (SendRun env p (addresses arrays) w.submitted .newCar v [] ∨
      v.handlers = [.finish]) ∧ v.exited = none)
    (fun v => v.handlers = [.finish])
    (fun v a => ∃ h ∈ v.handlers, AwaitsAnswer h a) (sendLeft (addresses arrays) .newCar)
    (fun v a hinv hdone => newCar_answer (hinv.1.resolve_right hdone) hinv.2 hd a)
    (fun v hinv hdone => newCar_awaits (hinv.1.resolve_right hdone) hinv.2 hd)
    (fun t a hawaits => by
      obtain ⟨h, hmem, hawaits⟩ := hawaits
      exact hfair t h a hmem hawaits)
    ⟨not_reported_or hrun hout, hexited⟩
  exact ⟨t, hdone⟩

/-! ## The report -/

section Report

variable (env p tot w arrays answers) in
/-- By time `t` the call has reported the outcome of its submissions, which were one for each
vehicle. -/
structure CountsCars (t : Nat) : Prop where
  report : ∃ success failed,
    (newCar env p tot w answers t).2 = [.sendStats success failed arrays.vehicles.length] ∧
      success + failed = arrays.vehicles.length ∧
      success = (List.range arrays.vehicles.length).countP (env.accepts p)
  created : ∃ new, (newCar env p tot w answers t).1.submitted = w.submitted ++ new ∧
    new.map (·.call) = arrays.vehicles.map fun car => .createVehicle car.address

theorem countP_goodRound {accepts : Nat → Bool} {d n : Nat} :
    (List.range (n / d)).countP (goodRound accepts d n) =
      (List.range (n / d)).countP (wholeBlock accepts d) := by
  refine List.countP_congr fun b hb => ?_
  have hfits : b * d + d ≤ n := by
    rw [← Nat.add_one_mul]
    exact (Nat.mul_le_mul_right d (List.mem_range.mp hb)).trans (Nat.div_mul_le_self n d)
  simp [goodRound, wholeBlock, hfits, List.range'_eq_map_range]

/-- The calls of the submissions of `new_car`. -/
theorem calls_newCar (hm : 0 < arrays.factories.length) (address : AccountId → List UInt8)
    (transactions : List (Transaction AccountId)) :
    ((List.range arrays.vehicles.length).filterMap
      (submission address (addresses arrays) transactions .newCar)).map Prod.snd =
      arrays.vehicles.map fun car => .createVehicle car.address := by
  have hcall : ∀ k, (submission address (addresses arrays) transactions .newCar k).map Prod.snd =
      arrays.vehicles[k]?.map fun car => .createVehicle car.address := by
    intro k
    have hlen := length_addresses arrays .factory
    have hk : k % (addresses arrays .factory).length < (addresses arrays .factory).length :=
      Nat.mod_lt _ (by rw [hlen]; exact hm)
    simp only [submission, List.getElem?_eq_getElem hk, getElem?_addresses, Arrays.pairs]
    cases arrays.vehicles[k]? <;> rfl
  rw [List.map_filterMap]
  simp only [hcall]
  rw [← List.map_filterMap, List.range_eq_range', filterMap_range'_getElem?, List.drop_zero,
    List.take_length]

theorem total_newCar (transactions : List (Transaction AccountId)) :
    totalOf (addresses arrays) transactions .newCar = arrays.vehicles.length :=
  length_addresses arrays .vehicle

theorem stride_newCar : strideOf (addresses arrays) .newCar = arrays.factories.length :=
  length_addresses arrays .factory

/-- The state of the call when it has reported. -/
theorem exists_call (hx : w.exited = none) (hh : w.handlers = []) (ha : w.arrays = some arrays)
    {t success failed finished : Nat}
    (hout : (newCar env p tot w answers t).2 = [.sendStats success failed finished]) :
    ∃ call R, call.transactionType = .newCar ∧
      SendingAt env p (addresses arrays) w.submitted (newCar env p tot w answers t).1 call R ∧
      arrays.vehicles.length ≤ R * arrays.factories.length ∧
      arrays.vehicles.length ≤ call.finished ∧ call.success = success ∧ call.failed = failed ∧
      call.finished = finished := by
  obtain ⟨hrun, -⟩ := sendRun_newCar env p tot answers hx hh ha t
  rw [hout] at hrun
  cases hrun with
  | reported call R hcall hs hle hfin =>
    rw [total_newCar] at hle hfin
    rw [stride_newCar] at hle
    exact ⟨call, R, hcall, hs, hle, hfin, rfl, rfl, rfl⟩

variable (env p arrays) in
/-- The vehicles are shared out among the factories without a rest, and the submissions of each
round have one outcome. -/
def EvenRounds : Prop :=
  arrays.factories.length ∣ arrays.vehicles.length ∧
    ∀ b < arrays.vehicles.length / arrays.factories.length,
      (∀ j < arrays.factories.length, env.accepts p (b * arrays.factories.length + j) = true) ∨
        ∀ j < arrays.factories.length, env.accepts p (b * arrays.factories.length + j) = false

/-- Whole rounds are counted as they should be when the rounds are even. -/
theorem success_eq_iff (hd : arrays.factories.length ∣ arrays.vehicles.length) :
    arrays.factories.length * (List.range (arrays.vehicles.length / arrays.factories.length)).countP
        (goodRound (env.accepts p) arrays.factories.length arrays.vehicles.length) =
      (List.range arrays.vehicles.length).countP (env.accepts p) ↔ EvenRounds env p arrays := by
  have hblocks := count_blocks_eq_iff (env.accepts p) arrays.factories.length
    (arrays.vehicles.length / arrays.factories.length)
  rw [Nat.div_mul_cancel hd] at hblocks
  rw [countP_goodRound, hblocks]
  exact ⟨fun h => ⟨hd, h⟩, fun h => h.2⟩

/-- With even rounds, the report is right. -/
theorem countsCars_of_report (hx : w.exited = none) (hh : w.handlers = [])
    (ha : w.arrays = some arrays) (hm : arrays.vehicles.length = 0 ∨ 0 < arrays.factories.length)
    (heven : EvenRounds env p arrays) {t success failed finished : Nat}
    (hout : (newCar env p tot w answers t).2 = [.sendStats success failed finished]) :
    CountsCars env p tot arrays w answers t := by
  obtain ⟨call, R, hcall, hs, hle, hfin, rfl, rfl, rfl⟩ := exists_call hx hh ha hout
  have hacc := hs.accounted
  have hstarted := hs.started
  rw [hcall, total_newCar, stride_newCar] at hacc hstarted
  obtain ⟨hfinished, hsuccess⟩ := hacc.exact heven.1 hstarted hle hfin
  have hsum := hacc.finished
  constructor
  · refine ⟨call.success, call.failed, by rw [hout, hfinished], by omega, ?_⟩
    rw [hsuccess]
    exact (success_eq_iff heven.1).mpr heven
  · obtain ⟨new, hnew, hview⟩ := hs.submitted_all (by rw [hcall]; exact not_signup)
      (by rw [hcall, total_newCar, stride_newCar]; exact hle)
    refine ⟨new, hnew, ?_⟩
    rw [hcall, total_newCar] at hview
    have hsnd : new.map (·.call) = (new.map view).map Prod.snd := by
      rw [List.map_map]
      rfl
    rw [hsnd, hview]
    rcases hm with hzero | hm
    · simp [List.length_eq_zero_iff.mp hzero]
    · exact calls_newCar hm _ _

/-- A right report comes of even rounds. -/
theorem CountsCars.even (hx : w.exited = none) (hh : w.handlers = []) (ha : w.arrays = some arrays)
    {t : Nat} (h : CountsCars env p tot arrays w answers t) (hn : arrays.vehicles.length ≠ 0) :
    0 < arrays.factories.length ∧ EvenRounds env p arrays := by
  obtain ⟨success, failed, hout, -, hcount⟩ := h.report
  obtain ⟨call, R, hcall, hs, hle, hfin, rfl, rfl, hfinished⟩ := exists_call hx hh ha hout
  have hacc := hs.accounted
  have hstarted := hs.started
  rw [hcall, total_newCar, stride_newCar] at hacc hstarted
  have hm : 0 < arrays.factories.length := by
    by_contra hzero
    rw [Nat.eq_zero_of_not_pos hzero, Nat.mul_zero] at hle
    omega
  have hd : arrays.factories.length ∣ arrays.vehicles.length := by
    have hcounted := hacc.counted
    rw [hfinished] at hcounted
    exact (Nat.dvd_add_left (Dvd.intro _ rfl)).mp (hcounted ▸ Dvd.intro _ rfl)
  obtain ⟨-, hsuccess⟩ := hacc.exact hd hstarted hle hfin
  exact ⟨hm, (success_eq_iff hd).mp (by rw [← hsuccess, hcount])⟩

/-- Without vehicles, the call reports at once. -/
theorem newCar_none (hx : w.exited = none) (hh : w.handlers = []) (ha : w.arrays = some arrays)
    (hn : arrays.vehicles.length = 0) : (newCar env p tot w answers 0).2 = [.sendStats 0 0 0] := by
  have hacc : w.arrays.map addresses = some (addresses arrays) := by rw [ha]; rfl
  rw [newCar_zero, newCarStart, step_message hx hh, SendingAt.onMessage_send hacc]
  simp [sendFrom, waitAll, total_newCar, hn]

end Report

/-- `send("new_car")` ends with a right report, whatever comes first, if and only if there are no
vehicles, or they go up evenly in rounds of the factories whose submissions share their outcome. -/
theorem new_car_counts_iff (env : Env AccountId) (p tot : Nat) (w : Worker AccountId)
    (arrays : Arrays AccountId) (hx : w.exited = none) (hh : w.handlers = [])
    (ha : w.arrays = some arrays) :
    (∀ answers, Fair env p tot (newCarStart env p tot w).1 answers →
        ∃ t, CountsCars env p tot arrays w answers t) ↔
      arrays.vehicles.length = 0 ∨
        0 < arrays.factories.length ∧ arrays.factories.length ∣ arrays.vehicles.length ∧
          ∀ b < arrays.vehicles.length / arrays.factories.length,
            (∀ j < arrays.factories.length,
              env.accepts p (b * arrays.factories.length + j) = true) ∨
            ∀ j < arrays.factories.length,
              env.accepts p (b * arrays.factories.length + j) = false := by
  constructor
  · intro h
    by_cases hn : arrays.vehicles.length = 0
    · exact .inl hn
    · obtain ⟨t, ht⟩ := h everyAnswer (fair_everyAnswer env p tot _)
      exact .inr (ht.even hx hh ha hn)
  · rintro (hn | ⟨hm, heven⟩) answers hfair
    · have heven : EvenRounds env p arrays := by
        rw [EvenRounds, hn]
        exact ⟨Nat.dvd_zero _, fun b hb => by simp at hb⟩
      exact ⟨0, countsCars_of_report hx hh ha (.inl hn) heven (newCar_none hx hh ha hn)⟩
    · obtain ⟨t, ht⟩ := newCar_ends hx hh ha hm hfair
      obtain ⟨hrun, -⟩ := sendRun_newCar env p tot answers hx hh ha t
      obtain ⟨success, failed, finished, hout⟩ := exists_sendStats hrun ht
      exact ⟨t, countsCars_of_report hx hh ha (.inr hm) heven hout⟩

/-! Two factories. -/

/-- The arrays of a worker with two factories. -/
def twoFactories (vehicles : List Nat) : Arrays Nat :=
  ⟨[⟨1, 0⟩, ⟨2, 0⟩], vehicles.map fun car => ⟨car, 0⟩, []⟩

/-- A worker that is prepared. -/
def preparedWith (arrays : Arrays Nat) : Worker Nat := ⟨some arrays, true, [], [], [], none⟩

/-- A chain that accepts the first `n` submissions. -/
def acceptsFirst (n : Nat) : Env Nat where
  files := ⟨[], [], []⟩
  address _ := []
  toDataHash _ := none
  nextIndex _ := 0
  accepts _ k := k < n

theorem new_car_counts_four_cars :
    ∃ t, CountsCars (acceptsFirst 2) 0 10 (twoFactories [10, 11, 12, 13])
      (preparedWith (twoFactories [10, 11, 12, 13])) everyAnswer t := by
  have hright := (new_car_counts_iff (acceptsFirst 2) 0 10
    (preparedWith (twoFactories [10, 11, 12, 13])) (twoFactories [10, 11, 12, 13]) rfl rfl rfl).mpr
    (.inr (by decide))
  exact hright everyAnswer (fair_everyAnswer _ _ _ _)

/-- Three cars are submitted and accepted; two are reported as created and two as failed. -/
theorem three_cars_miscounted :
    (newCar (acceptsFirst 3) 0 10 (preparedWith (twoFactories [10, 11, 12]))
        (fun t => [.settled 0, .settled 1].getD t .timer) 4).2 = [.sendStats 2 2 4] ∧
      (newCar (acceptsFirst 3) 0 10 (preparedWith (twoFactories [10, 11, 12]))
        (fun t => [.settled 0, .settled 1].getD t .timer) 4).1.submitted.map (·.call) =
          [.createVehicle 10, .createVehicle 11, .createVehicle 12] ∧
      ¬ ∀ answers, Fair (acceptsFirst 3) 0 10
          (newCarStart (acceptsFirst 3) 0 10 (preparedWith (twoFactories [10, 11, 12]))).1 answers →
        ∃ t, CountsCars (acceptsFirst 3) 0 10 (twoFactories [10, 11, 12])
          (preparedWith (twoFactories [10, 11, 12])) answers t := by
  refine ⟨by decide +kernel, by decide +kernel, fun h => ?_⟩
  obtain ⟨t, ht⟩ := h everyAnswer (fair_everyAnswer _ _ _ _)
  obtain ⟨-, hdvd, -⟩ := ht.even rfl rfl rfl (by decide)
  exact absurd hdvd (by decide)

end SIM.Proof.Benchmark
