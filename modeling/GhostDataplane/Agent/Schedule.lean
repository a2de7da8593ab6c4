import GhostDataplane.Agent.Callbacks

/-!
# The scheduling round and the migration of the global agent

`GlobalSchedule` is three passes: a scan of the enclave's CPUs that reaps
what has committed and collects the idle CPUs and the preemption candidates,
a loop that takes tasks off the run queues and finds each a CPU, and the
return of the yielding tasks. `PickNextGlobalCPU` is one loop that looks for
a CPU to move the global agent to, and the hand-over.

What a round reads from outside is one `RoundEnv`. A round asks each of its
questions at most once per CPU or per task, so a function of the CPU or the
task covers every way the answers can come out; the task name, which two
branches of the scan read one after the other, has one field for each read.
The migration loop asks again about the home CPU at every step, so those two
questions are answered per step.

The assignment loop does not visibly terminate, since an eviction puts a
task back into a run queue. It is given one entry for each queued task and
each preemption candidate, and one for the exit.
-/

namespace GhostDataplane.Agent

open GhostDataplane.Lib

/-- `PickNextCpu`: an available CPU for the task, as close as possible to the
one it ran on last. -/
def pickNextCpu (topology : Topology) (availCpus : CpuList) (task : NetTask)
    (enforceAffinity : Bool) : Option CpuId :=
  let allowedCpus :=
    if enforceAffinity then task.allowedCpulist.intersection availCpus
    else availCpus
  if allowedCpus.isEmpty then none
  else
    match task.cpu with
    | none => allowedCpus.front
    | some previousCpu =>
        if allowedCpus.isSet previousCpu then some previousCpu
        else
          match (allowedCpus.intersection
            (topology.siblings previousCpu)).front with
          | some siblingCpu => some siblingCpu
          | none =>
              match (allowedCpus.intersection
                (topology.l3Siblings previousCpu)).front with
              | some l3SiblingCpu => some l3SiblingCpu
              | none =>
                  match allowedCpus.ids.find? fun allowedCpu =>
                    topology.numaNode previousCpu
                      = topology.numaNode allowedCpu with
                  | some allowedCpu => some allowedCpu
                  | none => allowedCpus.front

/-- What one call of `GlobalSchedule` reads from outside the scheduler. -/
structure RoundEnv where
  /-- `Available(cpu)`. -/
  available : CpuId → Bool
  /-- What the kernel has answered when the CPU's request is polled. -/
  answer : CpuId → Option TxnState
  /-- The task's comm, as the first name test of the scan reads it. -/
  taskName : TaskId → String
  /-- The task's comm, as the second name test reads it. -/
  taskNameAgain : TaskId → String
  /-- `absl::Bernoulli(bitgen, 1.0/50.0)`. -/
  bernoulli : CpuId → Bool
  /-- `MonotonicNow()` in the scan, in nanoseconds. -/
  scanTime : CpuId → Int
  /-- `status_word.on_cpu()`. -/
  onCpu : TaskId → Bool
  /-- `status_word.barrier()`. -/
  barrier : TaskId → Nat
  /-- `status_word.runtime()`. -/
  swRuntime : TaskId → Nat
  /-- The kernel's answer to a synchronous commit. -/
  commit : CpuId → TxnState
  /-- `MonotonicNow()` at the submission. -/
  submitTime : TaskId → Int

/-! ## The scan -/

/-- What the scan collects. -/
structure Scan where
  availCpus : CpuList
  availCpusLowPriority : CpuList
  unavail : Nat

/-- `MonotonicNow() - start_submit > absl::Microseconds(300)`. Nothing is
later than the infinite future. -/
def ranFor300us (now : Int) : Option Int → Bool
  | none => false
  | some startSubmit => decide (now - startSubmit > 300000)

/-- Is the task that was just found running on the CPU one that may be
preempted? -/
def preemptable (env : RoundEnv) (c : CpuId) (t : TaskId) (k : NetTask) :
    Bool :=
  (strContains (env.taskName t) "memcached" && env.bernoulli c &&
    ranFor300us (env.scanTime c) k.startSubmit) ||
  !strContains (env.taskNameAgain t) "memcached"

/-- The classification at the end of one step of the scan. -/
def classify (env : RoundEnv) (c : CpuId) (a : Scan) : Sched Scan := do
  let s ← Checked.get
  match (s.cpuStates c).current with
  | none =>
      if (s.cpuStates c).inSwitchto then pure a
      else pure { a with availCpus := a.availCpus.set c }
  | some t => do
      let k ← deref t
      if preemptable env c t k then
        pure { a with availCpusLowPriority := a.availCpusLowPriority.set c }
      else pure a

/-- One step of the scan. -/
def scanCpu (env : RoundEnv) (c : CpuId) (a : Scan) : Sched Scan := do
  let s ← Checked.get
  if !env.available c then do
    -- The CPU was lost to another class: reap what it may have left behind.
    (if (s.cpuStates c).next.isSome then do
      let done ← committed c (env.answer c)
      if done then do
        let _ ← syncCpuState (some c) (env.answer c)
        pure ()
      else pure ()
    else pure ())
    pure { a with unavail := a.unavail + 1 }
  else if c = s.globalCpuid || (s.cpuStates c).current.isSome then pure a
  else do
    let done ← committed c (env.answer c)
    if done then do
      let _ ← syncCpuState (some c) (env.answer c)
      classify env c a
    else pure a

def scanCpus (env : RoundEnv) : List CpuId → Scan → Sched Scan
  | [], a => pure a
  | c :: cs, a => do
      let a ← scanCpu env c a
      scanCpus env cs a

/-! ## The assignment loop -/

/-- The CPU sets of the assignment loop. -/
structure Assign where
  availCpus : CpuList
  availCpusLowPriority : CpuList
  assignedCpus : CpuList

/-- Open a batched transaction that puts `next` on the idle CPU `c`. -/
def assignIdle (env : RoundEnv) (c : CpuId) (next : TaskId) : Sched Unit := do
  let s ← Checked.get
  let cs := s.cpuStates c
  check (cs.next = none) .noNext
  check (cs.current = none) .noCurrent
  Checked.modify fun s => s.setNext c (some next)
  openRequest c next true cs
  modifyTask next fun k =>
    { k with
      runState := .pending
      cpu := some c
      -- Fold `preempted` into `prioBoost` in case the transaction fails.
      prioBoost := k.prioBoost || k.preempted
      preempted := false
      startSubmit := some (env.submitTime next) }
  Checked.modify fun s => { s with txnTotal := s.txnTotal + 1 }

/-- The body of the assignment loop for a task taken off a run queue. The
source asks for a CPU of a set only when the set is not empty; an empty set
has none to offer. -/
def assignTask (cfg : Config) (env : RoundEnv) (next : TaskId) (a : Assign) :
    Sched Assign := do
  let k ← deref next
  check (k.runState ≠ .pending) .notPending
  if env.onCpu next || k.seqnum ≠ env.barrier next then do
    yieldTask next
    pure a
  else
    match pickNextCpu cfg.topology a.availCpus k cfg.enforceAffinityMask with
    | some c => do
        assignIdle env c next
        pure { a with
          availCpus := a.availCpus.clear c
          assignedCpus := a.assignedCpus.set c }
    | none =>
        match pickNextCpu cfg.topology a.availCpusLowPriority k
          cfg.enforceAffinityMask with
        | some c => do
            replaceExistingTask c next (env.commit c) env.swRuntime
              (env.submitTime next)
            pure { a with
              availCpusLowPriority := a.availCpusLowPriority.clear c }
        | none => do
            yieldTask next
            pure a

/-- The assignment loop, entered at most `fuel` times. -/
def assignLoop (cfg : Config) (env : RoundEnv) : Nat → Assign → Sched Assign
  | 0, _ => Checked.throw .outOfFuel
  | fuel + 1, a =>
      if a.availCpus.isEmpty && a.availCpusLowPriority.isEmpty then pure a
      else do
        let next ← dequeue
        match next with
        | none => pure a
        | some next => do
            let a ← assignTask cfg env next a
            assignLoop cfg env fuel a

/-! ## The round -/

/-- Put yielding tasks back into the run queues. -/
def requeue : List TaskId → Sched Unit
  | [] => pure ()
  | t :: ts => do
      let k ← deref t
      check (k.runState = .yielding) .yielding
      enqueue t
      requeue ts

/-- The last slot of the histogram takes everything beyond it. -/
def kCpuHistLen : Nat := 12

def bumpCpuhist (unavail : Nat) (s : NetScheduler) : NetScheduler :=
  let slot := if unavail > kCpuHistLen - 1 then kCpuHistLen - 1 else unavail
  { s with
    cpuhist := Function.update s.cpuhist slot (s.cpuhist slot + 1)
    globaliter := s.globaliter + 1 }

def globalSchedule (cfg : Config) (env : RoundEnv) : Sched Unit := do
  let scan ← scanCpus env cfg.cpus.ids ⟨.emptyCpuList, .emptyCpuList, 0⟩
  let s ← Checked.get
  let fuel := s.runQueue.length + s.runQueueLowPriority.length +
    scan.availCpusLowPriority.ids.length + 1
  let a ← assignLoop cfg env fuel
    ⟨scan.availCpus, scan.availCpusLowPriority, .emptyCpuList⟩
  (if a.assignedCpus.isEmpty then pure ()
  else Checked.modify fun s => s.note (.submitted a.assignedCpus))
  let s ← Checked.get
  requeue s.yieldingTasks
  Checked.modify fun s => { s with yieldingTasks := [] }
  Checked.modify (bumpCpuhist scan.unavail)

/-! ## The migration of the global agent -/

/-- What one call of `PickNextGlobalCPU` reads from outside. The first two
fields are indexed by the CPU the loop has come to. -/
structure MigrateEnv where
  /-- `Available(global_home_cpu_)`. -/
  homeAvailable : CpuId → Bool
  /-- What the kernel has answered when the home CPU's request is polled. -/
  homeAnswer : CpuId → Option TxnState
  /-- `Available(cpu)`. -/
  available : CpuId → Bool
  /-- What the kernel has answered when the CPU's request is polled. -/
  answer : CpuId → Option TxnState
  /-- The kernel's answer to the unschedule commit. -/
  commit : TxnState

/-- The first half of one turn of the search: can the global agent return to its
home CPU? `globalCpuId` is what was read before the loop. -/
def tryHome (env : MigrateEnv) (globalCpuId c : CpuId) : Sched Bool := do
  let s ← Checked.get
  if s.globalHomeCpu ≠ globalCpuId && env.homeAvailable c then do
    let done ← committed s.globalHomeCpu (env.homeAnswer c)
    if done then do
      let _ ← syncCpuState (some s.globalHomeCpu) (env.homeAnswer c)
      pure true
    else pure false
  else pure false

/-- The second half: can it go to `c`? -/
def tryCpu (cfg : Config) (env : MigrateEnv) (globalCpuId c : CpuId) :
    Sched Bool := do
  let s ← Checked.get
  if (s.cpuStates c).inSwitchto then pure false
  else if cfg.topology.numaNode c ≠ cfg.topology.numaNode s.globalHomeCpu then
    pure false
  else if c ≠ globalCpuId && env.available c then
    committed c (env.answer c)
  else pure false

/-- One turn of the search, and the CPU that it ends on. -/
def searchCpu (cfg : Config) (env : MigrateEnv) (globalCpuId c : CpuId) :
    Sched (Option CpuId) := do
  let home ← tryHome env globalCpuId c
  if home then do
    let s ← Checked.get
    pure (some s.globalHomeCpu)
  else do
    let here ← tryCpu cfg env globalCpuId c
    pure (if here then some c else none)

/-- The search for a CPU to move to. -/
def findTarget (cfg : Config) (env : MigrateEnv) (globalCpuId : CpuId) :
    List CpuId → Sched (Option CpuId)
  | [] => pure none
  | c :: cs => do
      let target ← searchCpu cfg env globalCpuId c
      match target with
      | some target => pure (some target)
      | none => findTarget cfg env globalCpuId cs

/-- Sync the target. -/
def settleTarget (env : MigrateEnv) (target : CpuId) : Sched Unit := do
  let done ← committed target (env.answer target)
  check done .committed
  let s ← Checked.get
  if (s.cpuStates target).next.isSome then do
    let _ ← syncCpuState (some target) (env.answer target)
    pure ()
  else pure ()

/-- Make the target give up its task. -/
def vacateTarget (env : MigrateEnv) (target : CpuId) :
    Option TaskId → Sched Unit
  | none => pure ()
  | some prev => do
      let k ← deref prev
      check (k.runState = .onCpu) .onCpu
      let inSync ← preemptTask (some prev) none env.commit fun _ => 0
      check inSync .inSync
      modifyTask prev fun k => { k with prioBoost := true }
      enqueue prev
      Checked.modify fun s => s.setCurrent target none

/-- The tables after the global agent moved to `c`. -/
def NetScheduler.handOver (s : NetScheduler) (c : CpuId) : NetScheduler :=
  { s with
    globalCpuid := c
    globalMigrations := s.globalMigrations + 1
    log := s.log ++ [.pinged c] }

/-- Vacate the target and hand the global agent over to it. -/
def migrateTo (env : MigrateEnv) (target : CpuId) : Sched Unit := do
  settleTarget env target
  let s ← Checked.get
  vacateTarget env target (s.cpuStates target).current
  Checked.modify fun s => s.handOver target

def pickNextGlobalCpu (cfg : Config) (env : MigrateEnv) : Sched Unit := do
  let s ← Checked.get
  let target ← findTarget cfg env s.globalCpuid cfg.cpus.ids
  match target with
  | none => pure ()
  | some target => migrateTo env target

end GhostDataplane.Agent
