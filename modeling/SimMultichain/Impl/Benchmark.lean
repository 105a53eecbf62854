import SimMultichain.Framework.Channel
import SimMultichain.Impl.SenderProcess

/-!
# The benchmark's coordinators

`report_accident.js` and the three set-up scripts `init_createVehicles.js`, `init_initVehicles.js`
and `init_signups.js` fork workers and lead them through the same phases; they differ in the number
of workers and in what `prepare` and `send` are told (`Script`). A coordinator and its workers run
side by side, with a channel each way between the coordinator and every worker.

The coordinator's handlers do not await anything, so a message is handled at once. The `exit`
event of a worker is no message: it can come before messages of that worker that are still on
their way.
-/

namespace SIM.Impl.Benchmark

/-- The number of workers, and the type and limit sent with `prepare` and the type sent with
`send`. -/
structure Script where
  nbProcesses : Nat
  prepareType : TransactionType
  limit : Int
  sendType : TransactionType
  deriving DecidableEq

namespace Script

def prepare (script : Script) : Command := .prepare script.prepareType script.limit

def send (script : Script) : Command := .send script.sendType

end Script

/-- `report_accident.js`; `limit` and `nbProcesses` are the numbers that it has read. -/
def reportAccident (limit : Int) (nbProcesses : Nat) (transactionType : TransactionType) : Script where
  nbProcesses := nbProcesses
  prepareType := transactionType
  limit := parseIntDiv limit nbProcesses
  sendType := transactionType

/-- `init_createVehicles.js` -/
def initCreateVehicles : Script := ⟨10, .other, -1, .newCar⟩

/-- `init_initVehicles.js` -/
def initInitVehicles : Script := ⟨10, .other, -1, .initCar⟩

/-- `init_signups.js` -/
def initSignups : Script := ⟨10, .other, -1, .signup⟩

/-- The totals of the final report. -/
structure Totals where
  success : Nat
  failed : Nat
  finished : Nat
  preparedFinished : Nat
  deriving DecidableEq

/-- The variables of a coordinator, and its final report once it is made. -/
structure Coordinator where
  processesExited : Nat
  processesInitOk : Nat
  processesPrepareOk : Nat
  tot : Totals
  report : Option Totals
  deriving DecidableEq

def Coordinator.start : Coordinator := ⟨0, 0, 0, ⟨0, 0, 0, 0⟩, none⟩

section

variable (script : Script)

/-- The messages sent to each worker when one message is handled. -/
abbrev Commands := Fin script.nbProcesses → List Command

/-- `processes_arr[i].on('message', ..)` -/
def onReply (c : Coordinator) (i : Fin script.nbProcesses) : Reply → Coordinator × Commands script
  | .initWorker => (c, Function.update (fun _ => []) i [.init])
  | .initOk =>
    let c := { c with processesInitOk := c.processesInitOk + 1 }
    (c, if c.processesInitOk = script.nbProcesses then fun _ => [script.prepare] else fun _ => [])
  | .prepareOk =>
    let c := { c with processesPrepareOk := c.processesPrepareOk + 1 }
    (c, if c.processesPrepareOk = script.nbProcesses then fun _ => [script.send] else fun _ => [])
  | .prepareStats finished =>
    ({ c with tot.preparedFinished := c.tot.preparedFinished + finished }, fun _ => [])
  | .sendStats success failed finished =>
    ({ c with
        tot.success := c.tot.success + success
        tot.failed := c.tot.failed + failed
        tot.finished := c.tot.finished + finished }, fun _ => [])
  | .sendOk => (c, Function.update (fun _ => []) i [.exit])

/-- `processes_arr[i].on('exit', ..)` -/
def onExit (c : Coordinator) : Coordinator :=
  let c := { c with processesExited := c.processesExited + 1 }
  if c.processesExited = script.nbProcesses then { c with report := some c.tot } else c

/-- A coordinator and its workers, the channels from and to each worker, and which workers' `exit`
events have been handled. -/
structure Network (AccountId : Type) where
  coordinator : Coordinator
  worker : Fin script.nbProcesses → Worker AccountId
  replies : Fin script.nbProcesses → Channel Reply
  commands : Fin script.nbProcesses → Channel Command
  exitSeen : Fin script.nbProcesses → Bool

/-- The workers are forked; each sends `init_worker` when it starts. -/
def Network.start {AccountId : Type} : Network script AccountId where
  coordinator := .start
  worker _ := .start
  replies _ := .start [.initWorker]
  commands _ := .start []
  exitSeen _ := false

/-- What can happen next: the coordinator receives the next message of a worker, or its `exit`
event; a worker receives the next message of the coordinator, an answer, or its end from outside. -/
inductive Occurrence where
  | reply (i : Fin script.nbProcesses)
  | exitEvent (i : Fin script.nbProcesses)
  | command (i : Fin script.nbProcesses)
  | resume (i : Fin script.nbProcesses) (n : Nat) (answer : Answer)
  | crash (i : Fin script.nbProcesses)
  deriving DecidableEq

variable {script} {AccountId : Type} (env : Env AccountId)

/-- A worker meets an event. -/
def Network.workerStep (s : Network script AccountId) (i : Fin script.nbProcesses) (event : Event) :
    Network script AccountId :=
  let r := (senderProcess env i script.nbProcesses).step (s.worker i) event
  { s with
    worker := Function.update s.worker i r.1
    replies := Function.update s.replies i ((s.replies i).send r.2) }

/-- The coordinator receives the next message of a worker. -/
def Network.onReply (s : Network script AccountId) (i : Fin script.nbProcesses) :
    Network script AccountId :=
  match (s.replies i).receive with
  | none => s
  | some (reply, channel) =>
    let r := Benchmark.onReply script s.coordinator i reply
    { s with
      coordinator := r.1
      replies := Function.update s.replies i channel
      commands := fun j => (s.commands j).send (r.2 j) }

/-- A worker receives the next message of the coordinator. -/
def Network.onCommand (s : Network script AccountId) (i : Fin script.nbProcesses) :
    Network script AccountId :=
  match (s.commands i).receive with
  | none => s
  | some (command, channel) =>
    if (s.worker i).exited.isSome then s
    else ({ s with commands := Function.update s.commands i channel }).workerStep env i
      (.message command)

/-- The coordinator receives the `exit` event of a worker. -/
def Network.onExit (s : Network script AccountId) (i : Fin script.nbProcesses) :
    Network script AccountId :=
  if (s.worker i).exited.isSome && !s.exitSeen i then
    { s with
      coordinator := Benchmark.onExit script s.coordinator
      exitSeen := Function.update s.exitSeen i true }
  else s

/-- A benchmark script and its workers. After its final report the coordinator has exited. -/
def network : Machine (Network script AccountId) (Occurrence script) Unit where
  step s
    | .reply i => if s.coordinator.report.isSome then (s, ()) else (s.onReply i, ())
    | .exitEvent i => if s.coordinator.report.isSome then (s, ()) else (s.onExit i, ())
    | .command i => (s.onCommand env i, ())
    | .resume i n answer => (s.workerStep env i (.resume n answer), ())
    | .crash i => (s.workerStep env i .crash, ())

end

end SIM.Impl.Benchmark
