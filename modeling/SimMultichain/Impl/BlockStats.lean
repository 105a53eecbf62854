import SimMultichain.Framework.Machine

/-!
# `get_block_stats`

The block loop of `get_block_stats.ts`, run for given start and stop blocks. The
loop awaits one block after the other. For the timestamp extrinsic of each block
it starts a callback that it does not await, and that awaits `api.at` and then
the block's events. Loop and callbacks share the variables of `myApp`.

In the event loop a continuation runs to its next `await` or to its end without
interruption, and any answer that is awaited may be the next to arrive. A step
is one such answer with what runs on it.
-/

namespace SIM.Impl.BlockStats

/-- A block as the script reads it: for each extrinsic the number that its arguments print as
(only that of the timestamp is ever read), and how many events the block has. -/
structure Block where
  extrinsics : List Nat
  events : Nat
  deriving DecidableEq

/-- The timestamp pallet's index depends on the runtime. -/
def timestampIndex (chainName : String) : Nat := if chainName = "Rococo Local Testnet" then 0 else 1

/-- A chain of blocks, each with its timestamp extrinsic. -/
structure Chain where
  name : String
  block : Nat → Block
  hasTimestamp : ∀ n, timestampIndex name < (block n).extrinsics.length

def Chain.timestamp (chain : Chain) (n : Nat) : Nat :=
  (chain.block n).extrinsics.get ⟨timestampIndex chain.name, chain.hasTimestamp n⟩

/-- A row of the CSV. Its `blocktime` is `diff / 1000` and its `tps` is `transactions / blocktime`. -/
structure Row where
  block : Nat
  timestamp : Nat
  diff : Int
  transactions : Option Nat
  events : Nat
  deriving DecidableEq

/-- What a callback awaits. -/
inductive Stage where
  | apiAt
  | events
  deriving DecidableEq

/-- A callback that has not ended: its own `current_time`, and the block whose hash it gave to
`api.at`. -/
structure Callback where
  stage : Stage
  currentTime : Nat
  number : Nat
  deriving DecidableEq

/-- The shared variables, the unfinished callbacks in the order they started in, and the rows in
the CSV file once it is written. `previous_time` is `'0'` until a timestamp was seen. -/
structure State where
  blockNb : Nat
  currentBlockData : Option Block
  previousTime : Nat
  rows : List Row
  callbacks : List Callback
  csv : Option (List Row)
  deriving DecidableEq

/-- The loop awaits its first block. -/
def State.init (start : Nat) : State := ⟨start, none, 0, [], [], none⟩

/-- The next answer: the block that the loop awaits, or what a callback awaits. -/
inductive Answer where
  | block
  | callback (i : Nat)
  deriving DecidableEq

section

variable (chain : Chain) (stop : Nat)

/-- The callback of the timestamp extrinsic, up to its first `await`; the others do nothing. -/
def startCallback (s : State) (data : Block) : State :=
  match data.extrinsics[timestampIndex chain.name]? with
  | none => s
  | some currentTime =>
    if s.previousTime ≠ 0 then
      { s with callbacks := s.callbacks ++ [⟨.apiAt, currentTime, s.blockNb⟩] }
    else { s with previousTime := currentTime }

/-- The loop's variable `block_nb`, incremented: the next block is awaited, or the rows are
written and the process exits. -/
def nextBlock (s : State) : State :=
  if s.blockNb + 1 = stop + 2 then { s with blockNb := s.blockNb + 1, csv := some s.rows }
  else { s with blockNb := s.blockNb + 1 }

/-- The loop's body, from the answer to `getBlockByNumber` on. -/
def onBlock (s : State) : State :=
  let data := chain.block s.blockNb
  nextBlock stop (startCallback chain { s with currentBlockData := some data } data)

/-- The rest of a callback, from the answer to `system.events` on. -/
def pushRow (s : State) (c : Callback) : State :=
  let events := (chain.block c.number).events
  let diff : Int := c.currentTime - s.previousTime
  { s with
    rows := s.rows ++
      [⟨s.blockNb, c.currentTime, diff, s.currentBlockData.map (·.extrinsics.length), events⟩]
    previousTime := c.currentTime }

def onCallback (s : State) (i : Nat) : State :=
  match s.callbacks[i]? with
  | none => s
  | some c =>
    match c.stage with
    | .apiAt => { s with callbacks := s.callbacks.set i { c with stage := .events } }
    | .events => pushRow chain { s with callbacks := s.callbacks.eraseIdx i } c

/-- The script. Once it has called `process.exit`, nothing runs any more. -/
def script : Machine State Answer Unit where
  step s answer :=
    if s.csv.isSome then (s, ())
    else
      match answer with
      | .block => (onBlock chain stop s, ())
      | .callback i => (onCallback chain s i, ())

end

end SIM.Impl.BlockStats
