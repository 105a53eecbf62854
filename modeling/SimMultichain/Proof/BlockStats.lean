import SimMultichain.Impl.BlockStats

/-!
# The rows of `get_block_stats`

The loop increments `block_nb` before any callback can go on, and a callback reads
it only at its end: whatever the order of the answers, a row has the timestamp and
the events of one block, and the number of a later one (`RowOf`). The number of
extrinsics is that of the block before the one it names. When every callback ends
before the next block arrives, each row is that of its block but for the number,
which is one too high (`quiet_csv`).
-/

namespace SIM.Proof.BlockStats

open SIM.Impl.BlockStats

/-- The rows have one that says it is of block `b`, and it has the timestamp, block time, extrinsic
count and event count of `b`. -/
def HasBlock (chain : Chain) (rows : List Row) (b : Nat) : Prop :=
  rows.filter (fun r => r.block = b) =
    [⟨b, chain.timestamp b, (chain.timestamp b : Int) - chain.timestamp (b - 1),
      some (chain.block b).extrinsics.length, (chain.block b).events⟩]

variable (chain : Chain) (start stop : Nat)

/-- A row of a block after the first one, under the number of a later block. -/
def RowOf (r : Row) : Prop :=
  ∃ b, start < b ∧ b < r.block ∧ r.block ≤ stop + 1 ∧ r.timestamp = chain.timestamp b ∧
    r.events = (chain.block b).events ∧
    r.transactions = some (chain.block (r.block - 1)).extrinsics.length

/-- A callback of a block after the first one that the loop has passed. -/
structure CallbackOf (blockNb : Nat) (c : Callback) : Prop where
  started : start < c.number
  passed : c.number < blockNb
  time : c.currentTime = chain.timestamp c.number

/-- What holds whenever the script awaits an answer. -/
structure Awaiting (s : State) : Prop where
  start_le : start ≤ s.blockNb
  le_stop : s.csv = none → s.blockNb ≤ stop + 1
  data : start < s.blockNb → s.currentBlockData = some (chain.block (s.blockNb - 1))
  first : s.blockNb = start → s.previousTime = 0
  callbacks : ∀ c ∈ s.callbacks, CallbackOf chain start s.blockNb c
  rows : ∀ r ∈ s.rows, RowOf chain start stop r
  csv : ∀ rows, s.csv = some rows → rows = s.rows

variable {chain start stop}

theorem getElem?_timestamp (n : Nat) :
    (chain.block n).extrinsics[timestampIndex chain.name]? = some (chain.timestamp n) :=
  List.getElem?_eq_getElem (chain.hasTimestamp n)

theorem CallbackOf.mono {n n' : Nat} {c : Callback} (h : CallbackOf chain start n c) (hn : n ≤ n') :
    CallbackOf chain start n' c := ⟨h.started, Nat.lt_of_lt_of_le h.passed hn, h.time⟩

/-! ## Steps -/

theorem next_block {s : State} (hcsv : s.csv = none) :
    (script chain stop).next s .block = onBlock chain stop s := by
  simp [Machine.next, script, hcsv]

theorem next_callback {s : State} (hcsv : s.csv = none) (i : Nat) :
    (script chain stop).next s (.callback i) = onCallback chain s i := by
  simp [Machine.next, script, hcsv]

theorem next_exited {s : State} {rows : List Row} (hcsv : s.csv = some rows) (a : Answer) :
    (script chain stop).next s a = s := by
  simp [Machine.next, script, hcsv]

/-- With no previous time yet, the callback of a block ends at once. -/
theorem onBlock_of_eq_zero {s : State} (h : s.previousTime = 0) :
    onBlock chain stop s = nextBlock stop
      { s with
        currentBlockData := some (chain.block s.blockNb)
        previousTime := chain.timestamp s.blockNb } := by
  simp only [onBlock, startCallback, getElem?_timestamp, h, ne_eq, not_true_eq_false, if_false]

theorem onBlock_of_ne_zero {s : State} (h : s.previousTime ≠ 0) :
    onBlock chain stop s = nextBlock stop
      { s with
        currentBlockData := some (chain.block s.blockNb)
        callbacks := s.callbacks ++ [⟨.apiAt, chain.timestamp s.blockNb, s.blockNb⟩] } := by
  simp only [onBlock, startCallback, getElem?_timestamp, if_pos h]

variable {s : State}

theorem Awaiting.init (hle : start ≤ stop) : Awaiting chain start stop (.init start) where
  start_le := Nat.le_refl _
  le_stop _ := by simp only [State.init]; omega
  data h := absurd h (Nat.lt_irrefl _)
  first _ := rfl
  callbacks := nofun
  rows := nofun
  csv := nofun

/-- Going on to the next block, once the variables have been set for this one. -/
theorem awaiting_nextBlock (hstart : start ≤ s.blockNb) (hstop : s.blockNb ≤ stop + 1)
    (hdata : s.currentBlockData = some (chain.block s.blockNb))
    (hcallbacks : ∀ c ∈ s.callbacks, CallbackOf chain start (s.blockNb + 1) c)
    (hrows : ∀ r ∈ s.rows, RowOf chain start stop r) (hcsv : s.csv = none) :
    Awaiting chain start stop (nextBlock stop s) := by
  unfold nextBlock
  split
  · exact ⟨by simp only; omega, nofun, fun _ => hdata, fun h => by simp only at h; omega, hcallbacks,
      hrows, fun rows h => (Option.some.inj h).symm⟩
  · rename_i hlast
    refine ⟨by simp only; omega, fun _ => by simp only; omega, fun _ => hdata,
      fun h => by simp only at h; omega, hcallbacks, hrows, fun rows h => ?_⟩
    rw [hcsv] at h
    cases h

theorem awaiting_onBlock (h : Awaiting chain start stop s) (hcsv : s.csv = none) :
    Awaiting chain start stop (onBlock chain stop s) := by
  have hpassed : ∀ c ∈ s.callbacks, CallbackOf chain start (s.blockNb + 1) c :=
    fun c hc => (h.callbacks c hc).mono (Nat.le_succ _)
  by_cases hprev : s.previousTime = 0
  · rw [onBlock_of_eq_zero hprev]
    exact awaiting_nextBlock h.start_le (h.le_stop hcsv) rfl hpassed h.rows hcsv
  · rw [onBlock_of_ne_zero hprev]
    refine awaiting_nextBlock h.start_le (h.le_stop hcsv) rfl (fun c hc => ?_) h.rows hcsv
    rcases List.mem_append.mp hc with hc | hc
    · exact hpassed c hc
    · -- the first block has no previous time, so this one comes after it
      have hstart : start ≠ s.blockNb := fun he => hprev (h.first he.symm)
      rw [List.mem_singleton.mp hc]
      exact ⟨Nat.lt_of_le_of_ne h.start_le hstart, Nat.lt_succ_self _, rfl⟩

/-- A callback ends with a row of its block, under the number the loop has come to. -/
theorem awaiting_pushRow (h : Awaiting chain start stop s) (hcsv : s.csv = none) {c : Callback}
    (hc : CallbackOf chain start s.blockNb c) :
    Awaiting chain start stop (pushRow chain s c) where
  start_le := h.start_le
  le_stop := h.le_stop
  data := h.data
  first hb := by have := hc.started; have := hc.passed; simp only [pushRow] at hb; omega
  callbacks := h.callbacks
  rows r hr := by
    rcases List.mem_append.mp hr with hr | hr
    · exact h.rows r hr
    · rw [List.mem_singleton.mp hr]
      have hdata := h.data (Nat.lt_trans hc.started hc.passed)
      exact ⟨c.number, hc.started, hc.passed, h.le_stop hcsv, hc.time, rfl, by rw [hdata]; rfl⟩
  csv rows hrows := by
    rw [pushRow, hcsv] at hrows
    cases hrows

/-- Other callbacks may await. -/
theorem Awaiting.withCallbacks (h : Awaiting chain start stop s) {cs : List Callback}
    (hcs : ∀ c ∈ cs, CallbackOf chain start s.blockNb c) :
    Awaiting chain start stop { s with callbacks := cs } :=
  ⟨h.start_le, h.le_stop, h.data, h.first, hcs, h.rows, h.csv⟩

theorem awaiting_onCallback (h : Awaiting chain start stop s) (hcsv : s.csv = none) (i : Nat) :
    Awaiting chain start stop (onCallback chain s i) := by
  unfold onCallback
  split
  · exact h
  · rename_i c hi
    have hc := h.callbacks c (List.mem_of_getElem? hi)
    split
    · refine h.withCallbacks fun c' hc' => ?_
      rcases List.mem_or_eq_of_mem_set hc' with hc' | rfl
      · exact h.callbacks c' hc'
      · exact ⟨hc.started, hc.passed, hc.time⟩
    · have hrest := h.withCallbacks fun c' (hc' : c' ∈ s.callbacks.eraseIdx i) =>
        h.callbacks c' (List.mem_of_mem_eraseIdx hc')
      exact awaiting_pushRow hrest hcsv hc

theorem awaiting_step (h : Awaiting chain start stop s) (a : Answer) :
    Awaiting chain start stop ((script chain stop).next s a) := by
  cases hcsv : s.csv with
  | some rows => rw [next_exited hcsv]; exact h
  | none =>
    cases a with
    | block => rw [next_block hcsv]; exact awaiting_onBlock h hcsv
    | callback i => rw [next_callback hcsv]; exact awaiting_onCallback h hcsv i

/-- However the answers arrive. -/
theorem awaiting_run (hle : start ≤ stop) (answers : List Answer) :
    Awaiting chain start stop ((script chain stop).run (.init start) answers) :=
  (script chain stop).invariant (fun _ s => Awaiting chain start stop s) (fun _ => True) (.init hle)
    (fun _ _ a _ h => awaiting_step h a) fun _ _ => trivial

/-! ## The quiet order -/

/-- Every callback ends before the next block arrives, for `n` blocks. -/
def quietRounds : Nat → List Answer
  | 0 => []
  | n + 1 => quietRounds n ++ [.block, .callback 0, .callback 0]

/-- The first block, the blocks up to `stop` with their callbacks, and the block after them. -/
def quiet (start stop : Nat) : List Answer := .block :: quietRounds (stop - start) ++ [.block]

/-- The row of block `b`, but for its number. -/
def quietRow (chain : Chain) (b : Nat) : Row :=
  ⟨b + 1, chain.timestamp b, (chain.timestamp b : Int) - chain.timestamp (b - 1),
    some (chain.block b).extrinsics.length, (chain.block b).events⟩

/-- Block `n` is done, and the next one is awaited. -/
def afterBlock (chain : Chain) (n : Nat) (rows : List Row) : State :=
  ⟨n + 1, some (chain.block n), chain.timestamp n, rows, [], none⟩

theorem quiet_first (hle : start ≤ stop) :
    (script chain stop).next (.init start) .block = afterBlock chain start [] := by
  have hlast : ¬ start + 1 = stop + 2 := by omega
  rw [next_block rfl, onBlock_of_eq_zero rfl, nextBlock, State.init, if_neg hlast, afterBlock]

theorem quiet_round {n : Nat} (hn : n < stop) (ht : chain.timestamp n ≠ 0) (rows : List Row) :
    (script chain stop).run (afterBlock chain n rows) [.block, .callback 0, .callback 0] =
      afterBlock chain (n + 1) (rows ++ [quietRow chain (n + 1)]) := by
  have hlast : ¬ n + 1 + 1 = stop + 2 := by omega
  rw [Machine.run_cons, next_block rfl, afterBlock, onBlock_of_ne_zero ht, nextBlock, if_neg hlast]
  rfl

theorem quiet_rounds (ht : ∀ n, chain.timestamp n ≠ 0) {k : Nat} (hk : start + k ≤ stop) :
    (script chain stop).run (afterBlock chain start []) (quietRounds k) =
      afterBlock chain (start + k) ((List.range' (start + 1) k).map (quietRow chain)) := by
  induction k with
  | zero => rfl
  | succ k ih =>
    have hrange : List.range' (start + 1) (k + 1) = List.range' (start + 1) k ++ [start + k + 1] := by
      rw [List.range'_concat, Nat.one_mul, Nat.add_right_comm]
    rw [quietRounds, Machine.run_append, ih (by omega), quiet_round (by omega) (ht _), hrange,
      List.map_append, List.map_singleton, Nat.add_assoc]

theorem quiet_last (ht : chain.timestamp stop ≠ 0) (rows : List Row) :
    ((script chain stop).next (afterBlock chain stop rows) .block).csv = some rows := by
  rw [next_block rfl, afterBlock, onBlock_of_ne_zero ht, nextBlock, if_pos rfl]

/-- In the quiet order the CSV has a row for each block after the first one, up to the last, with
all that belongs to the block but its number. -/
theorem quiet_csv (hle : start ≤ stop) (ht : ∀ n, chain.timestamp n ≠ 0) :
    ((script chain stop).run (.init start) (quiet start stop)).csv =
      some ((List.range' (start + 1) (stop - start)).map (quietRow chain)) := by
  rw [quiet, List.cons_append, Machine.run_cons, quiet_first hle, Machine.run_snoc,
    quiet_rounds ht (by omega), Nat.add_sub_cancel' hle, quiet_last (ht stop)]

/-! ## The CSV -/

/-- Every row in the CSV has the timestamp and the events of a block, and the number of a later
one. -/
theorem csv_rowOf (hle : start ≤ stop) {answers : List Answer} {rows : List Row}
    (h : ((script chain stop).run (.init start) answers).csv = some rows) :
    ∀ r ∈ rows, RowOf chain start stop r := by
  have hrun : Awaiting chain start stop _ := awaiting_run hle answers
  rw [hrun.csv rows h]
  exact hrun.rows

/-- In no order of the answers does the CSV have the blocks after the first one, up to the last,
unless there are none. -/
theorem rows_have_blocks_iff (hle : start ≤ stop) (answers : List Answer) {rows : List Row}
    (h : ((script chain stop).run (.init start) answers).csv = some rows) :
    (∀ b, start < b → b ≤ stop → HasBlock chain rows b) ↔ start = stop := by
  constructor
  · intro hall
    by_contra hne
    -- a row under `start + 1` would be of a block between the two
    have hb := hall (start + 1) (Nat.lt_succ_self _) (by omega)
    have hr := List.mem_filter.mp (hb ▸ List.mem_cons_self :
      (_ : Row) ∈ rows.filter fun r => r.block = start + 1)
    obtain ⟨b, hstart, hlt, -⟩ := csv_rowOf hle h _ hr.1
    simp only at hlt
    omega
  · intro heq b hlt hb
    omega

/-- A chain with a block every twelve seconds, each with one extrinsic and one event more than
the one before it. -/
def sampleChain : Chain where
  name := "Renault"
  block n := ⟨n :: 12000 * (n + 1) :: List.replicate n 0, n + 5⟩
  hasTimestamp n := by simp [timestampIndex]

/-- The answers in which both callbacks end only after block 3 has arrived, the later one first. -/
def lateAnswers : List Answer :=
  [.block, .block, .block, .callback 1, .callback 1, .callback 0, .callback 0, .block]

theorem rows_have_blocks_iff_lateAnswers :
    ((script sampleChain 3).run (.init 1) lateAnswers).csv =
        some [⟨4, 48000, 24000, some 5, 8⟩, ⟨4, 36000, -12000, some 5, 7⟩] ∧
      ¬ ∀ b, 1 < b → b ≤ 3 →
        HasBlock sampleChain [⟨4, 48000, 24000, some 5, 8⟩, ⟨4, 36000, -12000, some 5, 7⟩] b := by
  have h : ((script sampleChain 3).run (.init 1) lateAnswers).csv =
      some [⟨4, 48000, 24000, some 5, 8⟩, ⟨4, 36000, -12000, some 5, 7⟩] := by decide +kernel
  exact ⟨h, fun hall => absurd ((rows_have_blocks_iff (by decide) lateAnswers h).mp hall) (by decide)⟩

/-- The rows of blocks 2 and 3 in the quiet order, under the numbers 3 and 4. -/
theorem block_numbers_too_high :
    ((script sampleChain 3).run (.init 1) (quiet 1 3)).csv =
        some [⟨3, 36000, 12000, some 4, 7⟩, ⟨4, 48000, 12000, some 5, 8⟩] ∧
      sampleChain.timestamp 2 = 36000 ∧ sampleChain.timestamp 3 = 48000 ∧
      ¬ HasBlock sampleChain [⟨3, 36000, 12000, some 4, 7⟩, ⟨4, 48000, 12000, some 5, 8⟩] 2 := by
  refine ⟨by decide +kernel, by decide +kernel, by decide +kernel, ?_⟩
  simp [HasBlock]

end SIM.Proof.BlockStats
