import GhostDataplane.Agent.Schedule
import GhostDataplane.Lib.Machine

/-!
# Runs of the scheduler

The agent's thread drains its message queue into the callbacks and calls
`GlobalSchedule`, or `PickNextGlobalCPU` when the kernel wants its CPU; a run
is any sequence of these operations, each with whatever the environment
answers, in which nothing stopped. Which messages can follow which is left
open: a run may contain any message about any live task, and the callbacks'
own checks are all that rules one out.

The dispatcher of the ghOSt library does two things before a callback sees
the message. It allocates the task of a `TASK_NEW`, as a `NetTask` whose
`high_priority` nobody has written yet, and it advances the task's sequence
number to that of the message.
-/

namespace GhostDataplane.Agent

open GhostDataplane.Lib

/-- One operation of the agent, with what it reads from outside. -/
inductive Op where
  | taskNew (t : TaskId) (uninitPriority : Bool) (msg : TaskNewMsg)
  | taskRunnable (t : TaskId) (msg : TaskWakeupMsg)
  | taskDead (t : TaskId) (seqnum : Nat)
  | taskDeparted (t : TaskId) (msg : TaskOffCpuMsg)
  | taskBlocked (t : TaskId) (msg : TaskOffCpuMsg)
  | taskPreempted (t : TaskId) (msg : TaskOffCpuMsg)
  | taskYield (t : TaskId) (msg : TaskOffCpuMsg)
  | taskSwitchto (t : TaskId) (msg : TaskOffCpuMsg)
  | globalSchedule (env : RoundEnv)
  | pickNextGlobalCpu (env : MigrateEnv)

/-- The operations that a message of the kernel stands for. -/
def Op.isMessage : Op → Bool
  | .globalSchedule _ | .pickNextGlobalCpu _ => false
  | _ => true

/-- `new NetTask`: a fresh identity with the constructor's defaults. -/
def allocate (t : TaskId) (uninitPriority : Bool) : Sched Unit := fun s =>
  match s.task t with
  | .unborn => .ok ((), s.setTask t { highPriority := uninitPriority })
  | _ => .error (.notFresh t)

/-- The dispatcher's `task->Advance(msg.seqnum())`. -/
def advance (t : TaskId) (seqnum : Nat) : Sched Unit :=
  modifyTask t fun k => { k with seqnum := seqnum }

def perform (cfg : Config) : Op → Sched Unit
  | .taskNew t uninitPriority msg => do
      allocate t uninitPriority
      taskNew cfg t msg
  | .taskRunnable t msg => do
      advance t msg.seqnum
      taskRunnable t msg
  | .taskDead t seqnum => do
      advance t seqnum
      taskDead t
  | .taskDeparted t msg => do
      advance t msg.seqnum
      taskDeparted cfg t msg
  | .taskBlocked t msg => do
      advance t msg.seqnum
      taskBlocked cfg t msg
  | .taskPreempted t msg => do
      advance t msg.seqnum
      taskPreempted cfg t msg
  | .taskYield t msg => do
      advance t msg.seqnum
      taskYield cfg t msg
  | .taskSwitchto t msg => do
      advance t msg.seqnum
      taskSwitchto cfg t msg
  | .globalSchedule env => globalSchedule cfg env
  | .pickNextGlobalCpu env => pickNextGlobalCpu cfg env

/-- The tables at the end of the constructor, with the global agent at home
on `c`: no task, and every request committed. The histogram's slots start out
uninitialized. -/
def emptyTables (c : CpuId) (cpuhist : Nat → Int) (st : TxnState) :
    NetScheduler where
  task := fun _ => .unborn
  cpuStates := fun _ => {}
  req := fun _ => .committed st
  globalCpuid := c
  globalHomeCpu := c
  numTasks := 0
  runQueue := []
  runQueueLowPriority := []
  yieldingTasks := []
  globaliter := 0
  cpuhist := cpuhist
  globalMigrations := 0
  txnFailUnavail := 0
  txnFailOther := 0
  txnSuccess := 0
  txnTotal := 0
  log := []

/-- The constructor: the configured global CPU if it is in the enclave, the
enclave's first CPU otherwise. -/
def construct (cfg : Config) (globalCpu : CpuId) (cpuhist : Nat → Int)
    (st : TxnState) : Except Abort NetScheduler :=
  if cfg.cpus.isSet globalCpu then .ok (emptyTables globalCpu cpuhist st)
  else
    match cfg.cpus.front with
    | none => .error (.check .cpuValid)
    | some c => .ok (emptyTables c cpuhist st)

/-- A percentage of `txn_total_` that `DumpState` prints, as the exact
quotient. -/
def NetScheduler.percentOfTotal (s : NetScheduler) (n : Nat) : Rat :=
  ((n * 100 : Nat) : Rat) / (s.txnTotal : Rat)

/-- The scheduler as a transition system. -/
def netScheduler (cfg : Config) : Machine NetScheduler Op where
  init s := ∃ globalCpu cpuhist st, construct cfg globalCpu cpuhist st = .ok s
  step s op s' := perform cfg op s = .ok ((), s')

/-- No promise about the steps. -/
def anyOp (_ : NetScheduler) (_ : Op) : Prop := True

/-- Tasks depart only while they are blocked. -/
def departsBlocked (s : NetScheduler) : Op → Prop
  | .taskDeparted t _ => ∀ k, s.task t = .live k → k.runState = .blocked
  | _ => True

/-- The states of all runs. -/
def Reachable (cfg : Config) : NetScheduler → Prop :=
  (netScheduler cfg).Reach anyOp

/-- The states of the runs in which tasks depart only while blocked. -/
def CleanReachable (cfg : Config) : NetScheduler → Prop :=
  (netScheduler cfg).Reach departsBlocked

theorem CleanReachable.reachable {cfg : Config} {s : NetScheduler}
    (h : CleanReachable cfg s) : Reachable cfg s :=
  Machine.Reach.mono (fun _ _ _ => trivial) h

/-! ## Finite runs -/

/-- Perform operations one after the other. -/
def performAll (cfg : Config) : List Op → Sched Unit
  | [] => pure ()
  | op :: ops => do
      perform cfg op
      performAll cfg ops

theorem reach_performAll {cfg : Config} {ok : NetScheduler → Op → Prop}
    {ops : List Op} {s s' : NetScheduler} (hs : (netScheduler cfg).Reach ok s)
    (hok : ∀ op ∈ ops, ∀ s, ok s op)
    (h : performAll cfg ops s = .ok ((), s')) :
    (netScheduler cfg).Reach ok s' := by
  induction ops generalizing s with
  | nil =>
      cases Checked.pure_ok.mp h
      exact hs
  | cons op ops ih =>
      obtain ⟨u, s₁, hop, h⟩ := Checked.bind_ok.mp h
      exact ih (hs.step (hok op List.mem_cons_self s) hop)
        (fun op' hmem => hok op' (List.mem_cons_of_mem op hmem)) h

/-- Two CPUs of one node, and no affinity to enforce. -/
def twoCpus : Config where
  cpus := ⟨[0, 1], by decide⟩
  enforceAffinityMask := false
  topology := ⟨fun _ => .emptyCpuList, fun _ => .emptyCpuList, fun _ => 0⟩
  maxCpus := 2

/-- The two CPUs with the global agent at home on the first. -/
def twoCpusStart : NetScheduler := emptyTables 0 (fun _ => 0) .complete

theorem twoCpusStart_init : (netScheduler twoCpus).init twoCpusStart :=
  ⟨0, fun _ => 0, .complete, rfl⟩

/-- A new task with sequence number 1 that may run anywhere. -/
def newTask (t : TaskId) (uninitPriority runnable : Bool) (name : String) :
    Op :=
  .taskNew t uninitPriority ⟨1, 0, runnable, some twoCpus.cpus, name⟩

/-- Three CPUs of one node, and an affinity to enforce. -/
def threeCpus : Config where
  cpus := ⟨[0, 1, 2], by decide⟩
  enforceAffinityMask := true
  topology := ⟨fun _ => .emptyCpuList, fun _ => .emptyCpuList, fun _ => 0⟩
  maxCpus := 3

theorem threeCpus_init : (netScheduler threeCpus).init twoCpusStart :=
  ⟨0, fun _ => 0, .complete, rfl⟩

/-- A message that a task went off its CPU, or yielded, with sequence number
2 and no transaction to reap. -/
def offCpuMsg : TaskOffCpuMsg := ⟨2, 0, false, 1, none⟩

/-- A round in which both CPUs are available, every transaction succeeds and
every task is off its CPU with sequence number 1. -/
def calmRound : RoundEnv where
  available := fun _ => true
  answer := fun _ => some .complete
  taskName := fun _ => ""
  taskNameAgain := fun _ => ""
  bernoulli := fun _ => false
  scanTime := fun _ => 0
  onCpu := fun _ => false
  barrier := fun _ => 1
  swRuntime := fun _ => 0
  commit := fun _ => .complete
  submitTime := fun _ => 0

end GhostDataplane.Agent
