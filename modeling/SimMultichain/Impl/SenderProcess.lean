import SimMultichain.Framework.Double
import SimMultichain.Framework.Machine
import SimMultichain.Impl.Storage

/-!
# The benchmark's workers

`sender_process.js`, with the account functions of `substrate_sim_lib.js` that it uses. A worker
is a machine: its inputs are the commands that its parent sends and the answers to what it awaits,
its outputs the messages that it sends to its parent.

In the event loop a handler runs to its next `await`, or to its end, without interruption. A
command starts a handler of its own, whether or not others still await something. The callbacks of
a `send` share its counters; they are kept with it, as the promises that have not settled yet.

An exception that no one catches, and `process.exit(1)`, end the process (`Exit.failure`).
-/

namespace SIM.Impl.Benchmark

variable {AccountId : Type}

/-! ## Accounts -/

/-- The account files that `genAccounts.js` writes. -/
structure Files (AccountId : Type) where
  factories : List AccountId
  vehicles : List AccountId
  drivers : List AccountId

/-- An entry of an array of key pairs, with that of the array of their nonces. -/
structure Pair (AccountId : Type) where
  address : AccountId
  nonce : Nat
  deriving DecidableEq

/-- `account_count` -/
def accountCount (totAccounts totProcesses : Nat) : Nat :=
  (Double.div totAccounts totProcesses).parseInt

/-- What the three `makeAll...` functions do with their file: without a process they load it
whole, with `process_id` and `tot_processes` they load the piece of that process. The exception at
an entry that is not there is caught, and leaves what was loaded before. -/
def makeAllOf (file : List AccountId) : Option (Nat × Nat) → List (Pair AccountId)
  | none => file.map fun a => ⟨a, 0⟩
  | some (processId, totProcesses) =>
    let count := accountCount file.length totProcesses
    (List.range' (processId * count) count).filterMap fun i =>
      file[i]?.map fun a => ⟨a, 0⟩

/-- `FACTORIES_PAIRS[process_id]`, `VEHICLES_PAIRS[process_id]` and `DRIVERS_PAIRS[process_id]`, with
their nonces. -/
structure Arrays (AccountId : Type) where
  factories : List (Pair AccountId)
  vehicles : List (Pair AccountId)
  drivers : List (Pair AccountId)
  deriving DecidableEq

def makeAllFactories (files : Files AccountId) (process : Option (Nat × Nat)) :
    List (Pair AccountId) := makeAllOf files.factories process

def makeAllVehicles (files : Files AccountId) (process : Option (Nat × Nat)) :
    List (Pair AccountId) := makeAllOf files.vehicles process

def makeAllDrivers (files : Files AccountId) (process : Option (Nat × Nat)) :
    List (Pair AccountId) := makeAllOf files.drivers process

def makeAll (files : Files AccountId) (process : Option (Nat × Nat)) : Arrays AccountId where
  factories := makeAllFactories files process
  vehicles := makeAllVehicles files process
  drivers := makeAllDrivers files process

inductive AccountKind where
  | factory
  | vehicle
  | driver
  deriving DecidableEq

namespace Arrays

def pairs (arrays : Arrays AccountId) : AccountKind → List (Pair AccountId)
  | .factory => arrays.factories
  | .vehicle => arrays.vehicles
  | .driver => arrays.drivers

/-- Change entry `i` of one of the arrays. -/
def modify (arrays : Arrays AccountId) (kind : AccountKind) (i : Nat)
    (f : Pair AccountId → Pair AccountId) : Arrays AccountId :=
  match kind with
  | .factory => { arrays with factories := arrays.factories.modify i f }
  | .vehicle => { arrays with vehicles := arrays.vehicles.modify i f }
  | .driver => { arrays with drivers := arrays.drivers.modify i f }

end Arrays

/-- `nonces[i]++` -/
def Pair.next (pair : Pair AccountId) : Pair AccountId := { pair with nonce := pair.nonce + 1 }

/-! ## Messages -/

/-- The types that `prepare` and `send` know; `other` is any other string, or none. -/
inductive TransactionType where
  | newCar
  | initCar
  | signup
  | reportAccidentRenault
  | reportAccidentInsurance
  | other
  deriving DecidableEq

/-- The `cmd`s that a worker receives. -/
inductive Command where
  | init
  | prepare (transactionType : TransactionType) (limit : Int)
  | send (transactionType : TransactionType)
  | exit
  deriving DecidableEq

/-- The `cmd`s that a worker sends. -/
inductive Reply where
  | initWorker
  | initOk
  | prepareStats (finished : Nat)
  | prepareOk
  | sendStats (success failed finished : Nat)
  | sendOk
  deriving DecidableEq

/-! ## Transactions -/

/-- The extrinsics of the benchmark, with the arguments it gives them. -/
inductive Extrinsic (AccountId : Type) where
  | createVehicle (vehicle : AccountId)
  | initVehicle (vehicle : AccountId)
  | signUp (profile : SimInsurance.DriverProfile AccountId)
  | reportAccidentRenault (dataHash : DataHash)
  | reportAccidentInsurance (vehicle : AccountId) (vehicleAccidentCount : UInt32)
  deriving DecidableEq

/-- A signed extrinsic. -/
structure Transaction (AccountId : Type) where
  signer : AccountId
  nonce : Nat
  call : Extrinsic AccountId
  deriving DecidableEq

/-- The data that all reports of the benchmark have. -/
def dataSha256sum : List UInt8 :=
  [0x64, 0xec, 0x88, 0xca, 0x00, 0xb2, 0x68, 0xe5, 0xba, 0x1a, 0x35, 0x67, 0x8a, 0x1b, 0x53, 0x16,
   0xd2, 0x12, 0xf4, 0xf3, 0x66, 0xb2, 0x47, 0x72, 0x32, 0x53, 0x4a, 0x8a, 0xec, 0xa3, 0x7f, 0x3c]

/-- The profile that a driver signs up with; `address` prints an account. -/
def signUpProfile (address : AccountId → List UInt8) (driver vehicle : AccountId) :
    SimInsurance.DriverProfile AccountId where
  name := "Driver ".toUTF8.data.toList ++ address driver
  age := 25
  licenceCode := "XYZ 123 ABC".toUTF8.data.toList
  contractStart := 2022
  contractEnd := 2023
  contractPlan := .standard
  vehicleId := vehicle

/-! ## The state of a worker -/

/-- What `prepare` is called with. -/
structure Job where
  transactionType : TransactionType
  limit : Int
  deriving DecidableEq

/-- A `Promise.all`, or a single promise, of an iteration of `send` that has not settled: the
iteration's `i`, what it adds to the counters and which submissions are still awaited. -/
structure Batch where
  first : Nat
  size : Nat
  submissions : List Nat
  deriving DecidableEq

/-- The variables of a call of `send`, and its promises that have not settled. -/
structure SendCall where
  transactionType : TransactionType
  waitTotalOf : Nat
  finished : Nat
  success : Nat
  failed : Nat
  batches : List Batch
  deriving DecidableEq

/-- A handler, by what it awaits. -/
inductive Handler (AccountId : Type) where
  /-- `initApi` -/
  | initApi
  /-- `accountNextIndex` of an account, with the reads that come after it -/
  | readNonces (kind : AccountKind) (i : Nat) (reads : List (AccountKind × Nat)) (job : Job)
  /-- `sleep(2000)` before `prepare` -/
  | rest (job : Job)
  /-- the signature of the transaction of iteration `i` of `prepare` -/
  | sign (job : Job) (i : Nat) (tx : Transaction AccountId)
  /-- `sleep(wait_time)` at the end of iteration `i` of `send` -/
  | send (call : SendCall) (i : Nat)
  /-- `sleep(500)` at the end of `send` -/
  | wait (call : SendCall)
  /-- `sleep(1000)` after `send` -/
  | finish
  deriving DecidableEq

inductive Exit where
  | command
  | failure
  deriving DecidableEq

/-- A worker. `pairs` are the library's arrays once they are loaded; `vehicle_array` and the other
arrays are these, once they are `assigned`. `submitted` has all transactions submitted so far. -/
structure Worker (AccountId : Type) where
  pairs : Option (Arrays AccountId)
  assigned : Bool
  transactions : List (Transaction AccountId)
  handlers : List (Handler AccountId)
  submitted : List (Transaction AccountId)
  exited : Option Exit
  deriving DecidableEq

namespace Worker

def start : Worker AccountId := ⟨none, false, [], [], [], none⟩

/-- `vehicle_array` and the other arrays, undefined before the first `prepare`. -/
def arrays (w : Worker AccountId) : Option (Arrays AccountId) := if w.assigned then w.pairs else none

end Worker

/-- What a handler does until it awaits `next`, or ends: the worker it leaves, its other handlers
apart, and the messages it sends. -/
structure Turn (AccountId : Type) where
  worker : Worker AccountId
  sent : List Reply
  next : Option (Handler AccountId)

def Turn.fail (w : Worker AccountId) : Turn AccountId := ⟨{ w with exited := some .failure }, [], none⟩

/-- What the workers meet: the files, how an address prints, what the client makes of bytes that are
given for a data hash (it may refuse them), the next nonces of the accounts on the chain, and which
submissions of each process are accepted. -/
structure Env (AccountId : Type) where
  files : Files AccountId
  address : AccountId → List UInt8
  toDataHash : List UInt8 → Option DataHash
  nextIndex : AccountId → Nat
  accepts : Nat → Nat → Bool

section

variable (env : Env AccountId)

/-! ## `prepare` -/

/-- The reads of nonces, in order. -/
def nonceReads (arrays : Arrays AccountId) : List (AccountKind × Nat) :=
  (List.range arrays.vehicles.length).map (.vehicle, ·) ++
    (List.range arrays.factories.length).map (.factory, ·) ++
    (List.range arrays.drivers.length).map (.driver, ·)

def readFrom (w : Worker AccountId) (job : Job) : List (AccountKind × Nat) → Turn AccountId
  | [] => ⟨w, [], some (.rest job)⟩
  | (kind, i) :: reads => ⟨w, [], some (.readNonces kind i reads job)⟩

/-- A nonce is read; an error ends the loop over this kind of accounts. -/
def onNextIndex (w : Worker AccountId) (kind : AccountKind) (i : Nat)
    (reads : List (AccountKind × Nat)) (job : Job) (ok : Bool) : Turn AccountId :=
  if ok then
    let read (pair : Pair AccountId) := { pair with nonce := env.nextIndex pair.address }
    readFrom { w with pairs := w.pairs.map (·.modify kind i read) } job reads
  else readFrom w job (reads.filter fun r => r.1 ≠ kind)

/-- The transaction of iteration `i` of `prepare`, if the accounts are there and the client takes the
arguments. The pallet's data hash has 36 bytes, that of the benchmark 32. -/
def newTransaction (arrays : Arrays AccountId) (i : Nat) :
    TransactionType → Option (Transaction AccountId)
  | .reportAccidentRenault => do
    let carIndex := i % arrays.vehicles.length
    let car ← arrays.vehicles[carIndex]?
    let dataHash ← env.toDataHash dataSha256sum
    return ⟨car.address, car.nonce, .reportAccidentRenault dataHash⟩
  | .reportAccidentInsurance => do
    let carIndex := i % arrays.drivers.length
    let driver ← arrays.drivers[carIndex]?
    let car ← arrays.vehicles[carIndex]?
    return ⟨driver.address, driver.nonce, .reportAccidentInsurance car.address 1⟩
  | _ => none

/-- The arrays after iteration `i` of `prepare`. -/
def countNonce (arrays : Arrays AccountId) (i : Nat) : TransactionType → Arrays AccountId
  | .reportAccidentRenault => arrays.modify .vehicle (i % arrays.vehicles.length) .next
  | .reportAccidentInsurance => arrays.modify .driver (i % arrays.drivers.length) .next
  | _ => arrays

/-- `prepare` from iteration `i` on. Its `finished` is `i` throughout. -/
def prepareFrom (w : Worker AccountId) (job : Job) (i : Nat) : Turn AccountId :=
  match job.transactionType with
  | .reportAccidentRenault | .reportAccidentInsurance =>
    if i < job.limit then
      match w.arrays.bind (newTransaction env · i job.transactionType) with
      | some tx => ⟨w, [], some (.sign job i tx)⟩
      | none => .fail w
    else ⟨w, [.prepareStats i, .prepareOk], none⟩
  | _ => ⟨w, [.prepareStats 0, .prepareOk], none⟩

def onSigned (w : Worker AccountId) (job : Job) (i : Nat) (tx : Transaction AccountId) (ok : Bool) :
    Turn AccountId :=
  if ok then
    prepareFrom env { w with
      -- `transactions[i]` is set, for the first time or again
      transactions := w.transactions.take i ++ tx :: w.transactions.drop (i + 1)
      pairs := w.pairs.map (countNonce · i job.transactionType) } job (i + 1)
  else .fail w

/-! ## `send` -/

/-- An iteration of `send`: what it adds to the counters when it has settled, its submissions by
number (none where there is no account to submit for) and the arrays it leaves. -/
structure Round (AccountId : Type) where
  size : Nat
  submissions : List (Nat × Option (Transaction AccountId))
  pairs : Option (Arrays AccountId)

/-- Each factory adds a car, whether or not there is one left. -/
def newCarRound (arrays : Arrays AccountId) (i : Nat) : Round AccountId where
  size := arrays.factories.length
  submissions := (List.range arrays.factories.length).map fun j => (i + j, do
    let factory ← arrays.factories[j]?
    let car ← arrays.vehicles[i + j]?
    return ⟨factory.address, factory.nonce, .createVehicle car.address⟩)
  pairs := some { arrays with factories := arrays.factories.map .next }

def initCarRound (arrays : Arrays AccountId) (i : Nat) : Round AccountId where
  size := 1
  submissions := [(i, do
    let car ← arrays.vehicles[i]?
    return ⟨car.address, car.nonce, .initVehicle car.address⟩)]
  pairs := some (arrays.modify .vehicle i .next)

/-- The profile is made outside of the promise, so that a missing vehicle is an exception. -/
def signupRound (arrays : Arrays AccountId) (i : Nat) : Option (Round AccountId) := do
  let car ← arrays.vehicles[i]?
  return {
    size := 1
    submissions := [(i, do
      let driver ← arrays.drivers[i]?
      return ⟨driver.address, driver.nonce,
        .signUp (signUpProfile env.address driver.address car.address)⟩)]
    pairs := some (arrays.modify .driver i .next) }

def reportRound (w : Worker AccountId) (i : Nat) : Round AccountId where
  size := 1
  submissions := [(i, w.transactions[i]?)]
  pairs := w.pairs

def round (w : Worker AccountId) (i : Nat) : TransactionType → Option (Round AccountId)
  | .newCar => w.arrays.map (newCarRound · i)
  | .initCar => w.arrays.map (initCarRound · i)
  | .signup => w.arrays.bind (signupRound env · i)
  | .reportAccidentRenault | .reportAccidentInsurance => some (reportRound w i)
  | .other => none

/-- `wait_total_of`, which is also where the loop ends. -/
def waitTotalOf (w : Worker AccountId) : TransactionType → Option Nat
  | .newCar | .initCar => w.arrays.map (·.vehicles.length)
  | .signup => w.arrays.map (·.drivers.length)
  | .reportAccidentRenault | .reportAccidentInsurance => some w.transactions.length
  | .other => some 0

/-- What the loop adds to `i`. -/
def stride (w : Worker AccountId) : TransactionType → Nat
  | .newCar => (w.arrays.map (·.factories.length)).getD 0
  | _ => 1

namespace SendCall

def resolved (call : SendCall) (size : Nat) : SendCall :=
  { call with finished := call.finished + size, success := call.success + size }

def rejected (call : SendCall) (size : Nat) : SendCall :=
  { call with finished := call.finished + size, failed := call.failed + size }

/-- The promise of an iteration. The submission for a missing account throws, which rejects it at
once; a promise of nothing resolves at once. -/
def promise (call : SendCall) (i : Nat) (round : Round AccountId) : SendCall :=
  if round.submissions.any fun s => s.2.isNone then call.rejected round.size
  else if round.submissions = [] then call.resolved round.size
  else { call with batches := call.batches ++ [⟨i, round.size, round.submissions.map (·.1)⟩] }

/-- Submission `k` settles. Its promise is rejected with it, or resolved with the last one. -/
def settled (accepts : Nat → Bool) (call : SendCall) (k : Nat) : SendCall :=
  match call.batches.find? fun batch => k ∈ batch.submissions with
  | none => call
  | some batch =>
    let others := call.batches.filter fun batch => k ∉ batch.submissions
    if accepts k then
      if batch.submissions.erase k = [] then { call with batches := others }.resolved batch.size
      else { call with
        batches := call.batches.map fun b => { b with submissions := b.submissions.erase k } }
    else { call with batches := others }.rejected batch.size

end SendCall

/-- The test of the last loop of `send`. -/
def waitAll (w : Worker AccountId) (call : SendCall) : Turn AccountId :=
  if call.finished < call.waitTotalOf then ⟨w, [], some (.wait call)⟩
  else ⟨w, [.sendStats call.success call.failed call.finished], some .finish⟩

/-- `send` from iteration `i` on. -/
def sendFrom (w : Worker AccountId) (call : SendCall) (i : Nat) : Turn AccountId :=
  if i < call.waitTotalOf then
    match round env w i call.transactionType with
    | some round =>
      ⟨{ w with
          pairs := round.pairs
          submitted := w.submitted ++ round.submissions.filterMap (·.2) },
        [], some (.send (call.promise i round) i)⟩
    | none => .fail w
  else waitAll w call

/-! ## The worker -/

/-- An answer to what a handler awaits: `initApi`, `accountNextIndex` and `signAsync` may fail; a
`sleep` ends; submission `k` settles. -/
inductive Answer where
  | apiReady (ok : Bool)
  | nextIndex (ok : Bool)
  | signed (ok : Bool)
  | timer
  | settled (k : Nat)
  deriving DecidableEq

/-- What a worker meets: a command, an answer to its `n`th handler, or its end from outside. -/
inductive Event where
  | message (command : Command)
  | resume (n : Nat) (answer : Answer)
  | crash
  deriving DecidableEq

variable (processId totProcesses : Nat)

/-- What a command starts. -/
def onMessage (w : Worker AccountId) : Command → Turn AccountId
  | .init => ⟨w, [], some .initApi⟩
  | .prepare transactionType limit =>
    match w.pairs with
    | none => .fail w
    | some arrays =>
      let w := { w with assigned := true }
      if arrays.vehicles.length ≠ arrays.drivers.length then .fail w
      else readFrom w ⟨transactionType, limit⟩ (nonceReads arrays)
  | .send transactionType =>
    match waitTotalOf w transactionType with
    | none => .fail w
    | some n => sendFrom env w ⟨transactionType, n, 0, 0, 0, []⟩ 0
  | .exit => ⟨{ w with exited := some .command }, [], none⟩

/-- What a handler does with an answer, if it awaits it. -/
def onAnswer (w : Worker AccountId) : Handler AccountId → Answer → Option (Turn AccountId)
  | .initApi, .apiReady ok =>
    if ok then
      some ⟨{ w with pairs := some (makeAll env.files (some (processId, totProcesses))) },
        [.initOk], none⟩
    else some (.fail w)
  | .readNonces kind i reads job, .nextIndex ok => some (onNextIndex env w kind i reads job ok)
  | .rest job, .timer => some (prepareFrom env w job 0)
  | .sign job i tx, .signed ok => some (onSigned env w job i tx ok)
  | .send call i, .timer => some (sendFrom env w call (i + stride w call.transactionType))
  | .send call i, .settled k =>
    some ⟨w, [], some (.send (call.settled (env.accepts processId) k) i)⟩
  | .wait call, .timer => some (waitAll w call)
  | .wait call, .settled k => some ⟨w, [], some (.wait (call.settled (env.accepts processId) k))⟩
  | .finish, .timer => some ⟨w, [.sendOk], none⟩
  | _, _ => none

/-- A worker process. It has sent `init_worker` when it starts. -/
def senderProcess : Machine (Worker AccountId) Event (List Reply) where
  step w event :=
    if w.exited.isSome then (w, [])
    else
      match event with
      | .message command =>
        let turn := onMessage env w command
        ({ turn.worker with handlers := turn.worker.handlers ++ turn.next.toList }, turn.sent)
      | .resume n answer =>
        match w.handlers[n]?.bind fun h => onAnswer env processId totProcesses w h answer with
        | none => (w, [])
        | some turn =>
          ({ turn.worker with
              handlers := turn.worker.handlers.take n ++ turn.next.toList ++
                turn.worker.handlers.drop (n + 1) }, turn.sent)
      | .crash => ({ w with exited := some .failure }, [])

end

end SIM.Impl.Benchmark
