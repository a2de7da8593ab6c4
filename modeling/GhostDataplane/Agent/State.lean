import GhostDataplane.Agent.Cpu
import GhostDataplane.Lib.Checked

/-!
# Tasks, CPU states and the scheduler's tables

`NetTask`, `CpuState` and `NetScheduler` of the agent, field by field. A
task pointer is a `TaskId`, an identity handed out by the allocator and
never handed out twice: `Slot` says whether the identity is still unborn,
names a live `NetTask`, or was freed. Dereferencing anything but a live task
stops the run, so a dangling pointer is visible in the model as a reference
to a `freed` slot and a use of it as an abort.

Of the ghOSt library the tables keep one thing per CPU, the `RunRequest`
that `enclave()->GetRunRequest(cpu)` hands out: either committed with the
kernel's answer, or opened and still in flight. The kernel answers at a
moment the agent cannot see, so an in-flight request becomes committed when
the agent polls it and the environment has an answer. A synchronous commit
leaves its request committed whatever the answer was, and a committed
request stays so until it is opened again.

`log` is the agent's side of the conversation, oldest entry first: what it
took off the run queues, every request it opened, with the tables as they
stood at that moment, and every batched transaction it reaped. No operation
reads it.
-/

namespace GhostDataplane.Agent

open GhostDataplane.Lib

/-- A task pointer. -/
abbrev TaskId := Nat

/-- `NetTask`'s run states. -/
inductive RunState where
  | blocked
  | queued
  | onCpu
  | yielding
  | pending
deriving DecidableEq, Repr

/-- `NetTask`. A `startSubmit` of `none` is `absl::InfiniteFuture()`, and
`cpu` is uninitialized until the task has been placed somewhere. -/
structure NetTask where
  startSubmit : Option Int := none
  runState : RunState := .blocked
  cpu : Option CpuId := none
  prioBoost : Bool := false
  runtime : Nat := 0
  elapsedRuntime : Nat := 0
  preempted : Bool := false
  allowedCpulist : CpuList := .emptyCpuList
  highPriority : Bool
  seqnum : Nat := 0
deriving DecidableEq

/-- What the allocator knows about a task pointer. -/
inductive Slot where
  | unborn
  | live (k : NetTask)
  | freed
deriving DecidableEq

/-- `NetScheduler::CpuState`, without the agent pointer. -/
structure CpuState where
  current : Option TaskId := none
  next : Option TaskId := none
  inSwitchto : Bool := false
deriving DecidableEq

/-- The kernel's answer to a transaction: `GHOST_TXN_COMPLETE`,
`GHOST_TXN_CPU_UNAVAIL`, or any of the other failures. -/
inductive TxnState where
  | complete
  | cpuUnavail
  | other
deriving DecidableEq

/-- A `RunRequest` as the agent sees it. -/
inductive RunRequest where
  | committed (st : TxnState)
  | inFlight
deriving DecidableEq

/-- `req->committed()`. -/
def RunRequest.isCommitted : RunRequest → Bool
  | .committed _ => true
  | .inFlight => false

/-- A transaction at the moment its request is opened: the CPU and the
target task, whether it waits for the batched commit, and what the tables
held for them. -/
structure Txn where
  cpu : CpuId
  target : TaskId
  batched : Bool
  cpuState : CpuState
  req : RunRequest
  task : NetTask
deriving DecidableEq

/-- One entry of the agent's log. -/
inductive Event where
  | dequeued (t : TaskId)
  | opened (x : Txn)
  | unscheduled (c : CpuId) (prev : TaskId) (req : RunRequest)
  | submitted (cpus : CpuList)
  | reaped (c : CpuId) (t : TaskId) (st : TxnState)
  | pinged (c : CpuId)
deriving DecidableEq

/-- `NetScheduler`, with the task allocator and the enclave's requests. -/
structure NetScheduler where
  task : TaskId → Slot
  cpuStates : CpuId → CpuState
  req : CpuId → RunRequest
  globalCpuid : CpuId
  globalHomeCpu : CpuId
  numTasks : Int
  runQueue : List TaskId
  runQueueLowPriority : List TaskId
  yieldingTasks : List TaskId
  globaliter : Nat
  cpuhist : Nat → Int
  globalMigrations : Nat
  txnFailUnavail : Nat
  txnFailOther : Nat
  txnSuccess : Nat
  txnTotal : Nat
  log : List Event

/-- The assertions of the scheduler, one name for each condition that a
`CHECK` states. -/
inductive Check where
  | runtimeGe
  | cpuValid
  | onCpuOrPending
  | currentOrNext
  | switchtoCpuRange
  | notInSwitchto
  | inSwitchto
  | getAffinity
  | affinityCount
  | allowedNonempty
  | blocked
  | notPending
  | queued
  | inRunqueue
  | notQueued
  | nextIsTask
  | noCurrent
  | noNext
  | synced
  | committed
  | commit
  | prevNonNull
  | onCpu
  | notOnCpu
  | yieldable
  | yielding
  | inSync
deriving DecidableEq, Repr

/-- Why a run stopped: a failed `CHECK`, a dereference of a task that is not
live, an index by an uninitialized CPU, a `TaskNew` for a task that is not
fresh, or a loop that was given too few rounds. -/
inductive Abort where
  | check (c : Check)
  | useAfterFree (t : TaskId)
  | badCpu
  | notFresh (t : TaskId)
  | outOfFuel
deriving DecidableEq, Repr

/-- A scheduler operation. -/
abbrev Sched (α : Type) : Type := Checked NetScheduler Abort α

/-! ## Updating the tables -/

namespace NetScheduler

/-- Write a task's record. -/
def setTask (s : NetScheduler) (t : TaskId) (k : NetTask) : NetScheduler :=
  { s with task := Function.update s.task t (.live k) }

/-- Write a CPU's record. -/
def setCpu (s : NetScheduler) (c : CpuId) (cs : CpuState) : NetScheduler :=
  { s with cpuStates := Function.update s.cpuStates c cs }

/-- `cs->current = o`. -/
def setCurrent (s : NetScheduler) (c : CpuId) (o : Option TaskId) :
    NetScheduler := s.setCpu c { s.cpuStates c with current := o }

/-- `cs->next = o`. -/
def setNext (s : NetScheduler) (c : CpuId) (o : Option TaskId) :
    NetScheduler := s.setCpu c { s.cpuStates c with next := o }

/-- `cs->in_switchto = b`. -/
def setInSwitchto (s : NetScheduler) (c : CpuId) (b : Bool) :
    NetScheduler := s.setCpu c { s.cpuStates c with inSwitchto := b }

/-- Change the state of a CPU's run request. -/
def setReq (s : NetScheduler) (c : CpuId) (r : RunRequest) : NetScheduler :=
  { s with req := Function.update s.req c r }

/-- Append to the log. -/
def note (s : NetScheduler) (e : Event) : NetScheduler :=
  { s with log := s.log ++ [e] }

/-- One end of a queue: the front for a boosted or preempted task. -/
def pushEnd (q : List TaskId) (t : TaskId) (k : NetTask) : List TaskId :=
  if k.prioBoost || k.preempted then t :: q else q ++ [t]

/-- The queue part of `Enqueue`: the task's priority decides the class. -/
def push (s : NetScheduler) (t : TaskId) (k : NetTask) : NetScheduler :=
  { s with
    runQueue := if k.highPriority then pushEnd s.runQueue t k else s.runQueue
    runQueueLowPriority :=
      if k.highPriority then s.runQueueLowPriority
      else pushEnd s.runQueueLowPriority t k }

end NetScheduler

/-- Dereference a task pointer. -/
def deref (t : TaskId) : Sched NetTask := fun s =>
  match s.task t with
  | .live k => .ok (k, s)
  | _ => .error (.useAfterFree t)

/-- Write through a task pointer. -/
def modifyTask (t : TaskId) (f : NetTask → NetTask) : Sched Unit := fun s =>
  match s.task t with
  | .live k => .ok ((), s.setTask t (f k))
  | _ => .error (.useAfterFree t)

/-- `CHECK(b)`. -/
def check (b : Bool) (c : Check) : Sched Unit := Checked.check b (.check c)

/-- `req->committed()` on the request of `c`. The answer is what the kernel
has written by now, if anything. -/
def committed (c : CpuId) (answer : Option TxnState) : Sched Bool := fun s =>
  match s.req c, answer with
  | .committed _, _ => .ok (true, s)
  | .inFlight, some st => .ok (true, s.setReq c (.committed st))
  | .inFlight, none => .ok (false, s)

end GhostDataplane.Agent
