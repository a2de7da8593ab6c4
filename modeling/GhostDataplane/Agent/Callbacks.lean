import GhostDataplane.Agent.State
import Mathlib.Data.List.Infix

/-!
# Queues, reaping, preemption and the message callbacks

The operations of `net_scheduler.cc` below the scheduling round, in the
source's order of effects. Every `CHECK` is a `check` at the place where the
source has it. What a function reads from outside the scheduler comes in as
an argument: a message carries its payload and the kernel's answer to the
transaction that the callback may have to reap, a preemption carries the
answer to its synchronous commit and the status word's runtime.

The four callbacks for a task that went off its CPU share their middle part:
`leaveCpu` is the branch for a task the agent had placed, `leaveSwitchto` the
branch for a task that ran at the end of a switchto chain.
-/

namespace GhostDataplane.Agent

open GhostDataplane.Lib

/-- What the agent was configured with, and the machine it runs on. -/
structure Config where
  cpus : CpuList
  enforceAffinityMask : Bool
  topology : Topology
  maxCpus : Nat

/-- `absl::StrContains`. -/
def strContains (haystack needle : String) : Bool :=
  decide (needle.toList <:+: haystack.toList)

/-- `NetTask::SetRuntime`, as called by `UpdateTaskRuntime` and
`UpdateRuntime`. -/
def updateTaskRuntime (t : TaskId) (newRuntime : Nat)
    (updateElapsedRuntime : Bool) : Sched Unit := do
  let k ← deref t
  check (k.runtime ≤ newRuntime) .runtimeGe
  modifyTask t fun k =>
    { k with
      elapsedRuntime :=
        if updateElapsedRuntime then k.elapsedRuntime + (newRuntime - k.runtime)
        else k.elapsedRuntime
      runtime := newRuntime }

/-- `cpu_state_of`: the CPU that a task the agent placed is on. -/
def cpuStateOf (t : TaskId) : Sched CpuId := do
  let k ← deref t
  match k.cpu with
  | none => Checked.throw (.check .cpuValid)
  | some c => do
      check (k.runState = .onCpu || k.runState = .pending) .onCpuOrPending
      let s ← Checked.get
      check ((s.cpuStates c).current = some t || (s.cpuStates c).next = some t)
        .currentOrNext
      pure c

def cpuEnteringSwitchto (cfg : Config) (cpu : Int) : Sched Unit := do
  check (0 ≤ cpu) .switchtoCpuRange
  check (cpu < cfg.maxCpus) .switchtoCpuRange
  let s ← Checked.get
  check (!(s.cpuStates cpu.toNat).inSwitchto) .notInSwitchto
  Checked.modify fun s => s.setInSwitchto cpu.toNat true

def cpuLeavingSwitchto (cfg : Config) (cpu : Int) : Sched Unit := do
  check (0 ≤ cpu) .switchtoCpuRange
  check (cpu < cfg.maxCpus) .switchtoCpuRange
  let s ← Checked.get
  check (s.cpuStates cpu.toNat).inSwitchto .inSwitchto
  Checked.modify fun s => s.setInSwitchto cpu.toNat false

/-! ## The run queues -/

def enqueue (t : TaskId) : Sched Unit := do
  modifyTask t fun k => { k with runState := .queued }
  let k ← deref t
  Checked.modify fun s => s.push t k

/-- `Dequeue`: the front of the high-priority queue, else of the other. -/
def dequeue : Sched (Option TaskId) := fun s =>
  match s.runQueue with
  | t :: rest =>
      .ok (some t, { s with runQueue := rest, log := s.log ++ [.dequeued t] })
  | [] =>
      match s.runQueueLowPriority with
      | [] => .ok (none, s)
      | t :: rest =>
          .ok (some t, { s with
            runQueueLowPriority := rest, log := s.log ++ [.dequeued t] })

/-- `RemoveFromRunqueue`. -/
def removeFromRunqueue (t : TaskId) (runState : RunState) : Sched Unit := do
  let k ← deref t
  check (k.runState = .queued) .queued
  let s ← Checked.get
  (if t ∈ s.runQueue then
    Checked.modify fun s => { s with runQueue := s.runQueue.erase t }
  else do
    check (t ∈ s.runQueueLowPriority) .inRunqueue
    Checked.modify fun s =>
      { s with runQueueLowPriority := s.runQueueLowPriority.erase t })
  modifyTask t fun k => { k with runState := runState }

/-- `Yield`. -/
def yieldTask (t : TaskId) : Sched Unit := do
  let k ← deref t
  check (k.runState = .onCpu || k.runState = .queued || k.runState = .blocked)
    .yieldable
  modifyTask t fun k => { k with runState := .yielding }
  Checked.modify fun s => { s with yieldingTasks := s.yieldingTasks ++ [t] }

/-! ## Transactions -/

/-- `SyncCpuState`: reap the batched transaction of a CPU, if it has one.
A success makes the task current, a failure puts it back into a run queue. -/
def syncCpuState (cpu : Option CpuId) (answer : Option TxnState) :
    Sched Bool :=
  match cpu with
  | none => Checked.throw (.check .cpuValid)
  | some c => do
      let s ← Checked.get
      match (s.cpuStates c).next with
      | none => pure true
      | some next => do
          let k ← deref next
          check (k.runState ≠ .queued) .notQueued
          let done ← committed c answer
          check done .committed
          Checked.modify fun s => s.setNext c none
          let s ← Checked.get
          match s.req c with
          | .inFlight => Checked.throw (.check .committed)
          | .committed .complete => do
              Checked.modify fun s => s.setCurrent c (some next)
              modifyTask next fun k =>
                { k with runState := .onCpu, prioBoost := false, cpu := some c }
              Checked.modify fun s =>
                { s with
                  txnSuccess := s.txnSuccess + 1
                  log := s.log ++ [.reaped c next .complete] }
              pure true
          | .committed st => do
              modifyTask next fun k =>
                { k with cpu := none, startSubmit := none }
              enqueue next
              Checked.modify fun s =>
                if st = .cpuUnavail then
                  { s with
                    txnFailUnavail := s.txnFailUnavail + 1
                    log := s.log ++ [.reaped c next st] }
                else
                  { s with
                    txnFailOther := s.txnFailOther + 1
                    log := s.log ++ [.reaped c next st] }
              pure false

/-- `req->Open({target, target_barrier})` for a batched or a synchronous
commit; `cs` is the CPU's record as the caller found it. -/
def openRequest (c : CpuId) (next : TaskId) (batched : Bool) (cs : CpuState) :
    Sched Unit := do
  let k ← deref next
  Checked.modify fun s =>
    (s.note (.opened ⟨c, next, batched, cs, s.req c, k⟩)).setReq c .inFlight

/-- `PreemptTask`: put `next`, or nothing, in the place of `prev`. `commit`
is the kernel's answer to the synchronous commit. -/
def preemptTask (prev next : Option TaskId) (commit : TxnState)
    (swRuntime : TaskId → Nat) : Sched Bool :=
  match prev with
  | none => Checked.throw (.check .prevNonNull)
  | some p => do
      let k ← deref p
      check (k.runState ≠ .pending) .notPending
      check (k.runState = .onCpu) .onCpu
      if next = some p then pure true
      else
        match next, k.cpu with
        | _, none => Checked.throw .badCpu
        | some n, some c => do
            let kn ← deref n
            check (kn.runState ≠ .onCpu) .notOnCpu
            let s ← Checked.get
            openRequest c n false (s.cpuStates c)
            Checked.modify fun s => s.setReq c (.committed commit)
            if commit = .complete then do
              Checked.modify fun s => s.setCurrent c (some n)
              modifyTask n fun kn =>
                { kn with runState := .onCpu, cpu := some c }
              -- No message reports the runtime of a task the agent evicts.
              updateTaskRuntime p (swRuntime p) true
              pure true
            else pure false
        | none, some c => do
            Checked.modify fun s =>
              (s.note (.unscheduled c p (s.req c))).setReq c .inFlight
            Checked.modify fun s => s.setReq c (.committed commit)
            check (commit = .complete) .commit
            Checked.modify fun s => s.setCurrent c none
            pure true

/-- `ReplaceExistingTask`: kick out the task on `c` in favour of `next`. -/
def replaceExistingTask (c : CpuId) (next : TaskId) (commit : TxnState)
    (swRuntime : TaskId → Nat) (now : Int) : Sched Unit := do
  let s ← Checked.get
  let prev := (s.cpuStates c).current
  let inSync ← preemptTask prev (some next) commit swRuntime
  match prev with
  | none => Checked.throw (.check .prevNonNull)
  | some p => do
      modifyTask p fun k => { k with preempted := false, prioBoost := true }
      enqueue p
      (if inSync then do
        modifyTask next fun k =>
          { k with prioBoost := false, preempted := false }
        Checked.modify fun s => s.setNext c none
      else do
        Checked.modify fun s => s.setCurrent c none
        yieldTask next)
      modifyTask next fun k => { k with startSubmit := some now }
      Checked.modify fun s => { s with txnTotal := s.txnTotal + 1 }

/-! ## The callbacks -/

/-- The payload of `TASK_NEW`, with what `sched_getaffinity` and the task's
comm file answer while the callback runs. -/
structure TaskNewMsg where
  seqnum : Nat
  runtime : Nat
  runnable : Bool
  affinity : Option CpuList
  name : String

/-- The payload of `TASK_WAKEUP`. -/
structure TaskWakeupMsg where
  seqnum : Nat
  deferrable : Bool

/-- The payload of the messages about a task that went off its CPU, and the
kernel's answer to the transaction that may still be pending for it. -/
structure TaskOffCpuMsg where
  seqnum : Nat
  runtime : Nat
  fromSwitchto : Bool
  cpu : Int
  answer : Option TxnState

/-- `AdjustTaskPriority`. -/
def adjustTaskPriority (t : TaskId) (name : String) : Sched Unit :=
  modifyTask t fun k =>
    { k with highPriority := strContains name "EngineThread" }

/-- The CPUs of the enclave that the affinity mask allows, on top of those
already in the list. -/
def allowCpus (cpus : List CpuId) (allowed : CpuList) (l : CpuList) : CpuList :=
  cpus.foldl (fun l c => if allowed.isSet c then l.set c else l) l

def taskNew (cfg : Config) (t : TaskId) (msg : TaskNewMsg) : Sched Unit := do
  updateTaskRuntime t msg.runtime false
  modifyTask t fun k => { k with seqnum := msg.seqnum, runState := .blocked }
  (if msg.runnable then enqueue t else pure ())
  match msg.affinity with
  | none => Checked.throw (.check .getAffinity)
  | some allowed => do
      check (allowed.ids.length ≤ cfg.maxCpus) .affinityCount
      modifyTask t fun k =>
        { k with
          allowedCpulist := allowCpus cfg.cpus.ids allowed k.allowedCpulist }
      let k ← deref t
      check (!k.allowedCpulist.isEmpty) .allowedNonempty
      adjustTaskPriority t msg.name
      Checked.modify fun s => { s with numTasks := s.numTasks + 1 }

def taskRunnable (t : TaskId) (msg : TaskWakeupMsg) : Sched Unit := do
  let k ← deref t
  check (k.runState = .blocked) .blocked
  check (k.runState ≠ .pending) .notPending
  modifyTask t fun k => { k with prioBoost := !msg.deferrable }
  enqueue t

/-- `allocator()->FreeTask(task)` and the count that goes with it. -/
def freeTask (t : TaskId) : Sched Unit := do
  let _ ← deref t
  Checked.modify fun s =>
    { s with
      task := Function.update s.task t .freed
      numTasks := s.numTasks - 1 }

def taskDeparted (cfg : Config) (t : TaskId) (msg : TaskOffCpuMsg) :
    Sched Unit := do
  (if msg.fromSwitchto then cpuLeavingSwitchto cfg msg.cpu else pure ())
  freeTask t

def taskDead (t : TaskId) : Sched Unit := do
  let k ← deref t
  check (k.runState = .blocked) .blocked
  freeTask t

/-- A task the agent placed went off its CPU: if its transaction was still
pending the CPU is synced first, and the task is no longer current. -/
def leaveCpu (t : TaskId) (msg : TaskOffCpuMsg) : Sched Unit := do
  updateTaskRuntime t msg.runtime true
  let c ← cpuStateOf t
  let k ← deref t
  (if k.runState = .pending then do
    let s ← Checked.get
    check ((s.cpuStates c).next = some t) .nextIsTask
    check ((s.cpuStates c).current = none) .noCurrent
    let completed ← syncCpuState k.cpu msg.answer
    check completed .synced
  else pure ())
  Checked.modify fun s => s.setCurrent c none

/-- A task that was the target of a switchto went off its CPU: it must have
been blocked, and the CPU leaves the chain. -/
def leaveSwitchto (cfg : Config) (t : TaskId) (msg : TaskOffCpuMsg) :
    Sched Unit := do
  let k ← deref t
  check (k.runState = .blocked) .blocked
  updateTaskRuntime t msg.runtime true
  cpuLeavingSwitchto cfg msg.cpu

/-- Only a task the agent scheduled has a submission time to forget. -/
def forgetSubmit (t : TaskId) (msg : TaskOffCpuMsg) : Sched Unit :=
  if msg.fromSwitchto then pure ()
  else modifyTask t fun k => { k with startSubmit := none }

def taskBlocked (cfg : Config) (t : TaskId) (msg : TaskOffCpuMsg) :
    Sched Unit := do
  modifyTask t fun k => { k with prioBoost := false }
  let k ← deref t
  (if k.runState = .onCpu || k.runState = .pending then do
    leaveCpu t msg
    modifyTask t fun k => { k with runState := .blocked }
  else if msg.fromSwitchto then
    leaveSwitchto cfg t msg
  else do
    check (k.runState = .queued) .queued
    removeFromRunqueue t .blocked)
  forgetSubmit t msg

def taskPreempted (cfg : Config) (t : TaskId) (msg : TaskOffCpuMsg) :
    Sched Unit := do
  modifyTask t fun k => { k with preempted := true, prioBoost := false }
  let k ← deref t
  (if k.runState = .onCpu || k.runState = .pending then do
    leaveCpu t msg
    enqueue t
  else if msg.fromSwitchto then do
    leaveSwitchto cfg t msg
    enqueue t
  else
    check (k.runState = .queued) .queued)
  forgetSubmit t msg

def taskYield (cfg : Config) (t : TaskId) (msg : TaskOffCpuMsg) :
    Sched Unit := do
  modifyTask t fun k => { k with prioBoost := false }
  let k ← deref t
  (if k.runState = .onCpu || k.runState = .pending then do
    leaveCpu t msg
    yieldTask t
  else if msg.fromSwitchto then do
    leaveSwitchto cfg t msg
    yieldTask t
  else
    check (k.runState = .queued) .queued)
  forgetSubmit t msg

def taskSwitchto (cfg : Config) (t : TaskId) (msg : TaskOffCpuMsg) :
    Sched Unit := do
  cpuEnteringSwitchto cfg msg.cpu
  modifyTask t fun k => { k with prioBoost := false }
  let k ← deref t
  if k.runState = .onCpu || k.runState = .pending then do
    leaveCpu t msg
    modifyTask t fun k => { k with runState := .blocked }
  else do
    check (k.runState = .queued) .queued
    removeFromRunqueue t .blocked

end GhostDataplane.Agent
