import GhostDataplane.Agent.System
import Mathlib.Data.Set.Defs

/-!
# The threads of the agents

Every CPU of the enclave has an agent, and every agent runs `AgentThread`: a
loop that looks whether its CPU is the global one, and if so drains the
message channel and schedules, or moves the global agent elsewhere when the
kernel wants the CPU back. The agents share one scheduler and take no lock.
What keeps them apart is `global_cpuid_`, an atomic that each reads at the
head of its loop and that the global agent overwrites in the middle of
`PickNextGlobalCPU`.

`System` takes the operations of the scheduler whole, one after the other.
Here they are cut where another thread can come in between: a CPU of the
scan, a task of the assignment loop, a CPU of the search are one step each.
`Pc` says where a thread is, with its local variables, and an action of the
system is one step of one thread or a message from the kernel, in any order.

The old global agent goes on for two lines after it has handed over: it pings
the new one and increments `global_migrations_`, an ordinary integer. The
scheduler's own record of the migration, `globalMigrations` and the entry in
its log, is written with the hand-over as in `migrateTo`; the integer in
memory is `migrations`, and its increment is a load and a store. A ping wakes
an agent from `LocalYield`, which may also return by itself.
-/

namespace GhostDataplane.Agent

open GhostDataplane.Lib

/-- Where the thread of an agent is, with its local variables. -/
inductive Pc where
  /-- `while (!Finished())`, up to the comparison with the global id. -/
  | head
  | localYield
  /-- Past the comparison, before `boosted_priority()`. -/
  | boosted
  /-- On entry to `PickNextGlobalCPU`. -/
  | pickNext
  /-- In its loop, with the CPUs still to look at. -/
  | search (globalCpuId : CpuId) (env : MigrateEnv) (cpus : List CpuId)
  | settle (env : MigrateEnv) (target : CpuId)
  | vacate (env : MigrateEnv) (target : CpuId)
  | setGlobal (target : CpuId)
  | ping (target : CpuId)
  /-- `++global_migrations_`. -/
  | load
  | store (migrations : Nat)
  | peek
  | dispatch (msg : Op)
  | consume
  /-- In the scan of `GlobalSchedule`, with the CPUs still to visit. -/
  | scan (env : RoundEnv) (cpus : List CpuId) (a : Scan)
  | assign (env : RoundEnv) (a : Assign) (unavail : Nat)
  | submit (a : Assign) (unavail : Nat)
  | requeue (tasks : List TaskId) (unavail : Nat)
  | bump (unavail : Nat)
  | finished

/-- In the global branch: past the check that the CPU is the global one, and
neither back at the head of the loop nor past `SetGlobalCPU`. -/
def Pc.inside : Pc → Bool
  | .head | .localYield | .ping _ | .load | .store _ | .finished => false
  | _ => true

/-- What the step of a thread reads from outside. -/
structure Reads where
  finished : Bool
  boostedPriority : Bool
  migrate : MigrateEnv
  round : RoundEnv

/-- The shared state of the agents. The channel is the list of all messages
the kernel has produced and the number of those consumed. -/
structure World where
  sched : NetScheduler
  pc : CpuId → Pc
  migrations : Nat
  produced : List Op
  consumed : Nat
  /-- The messages given to `DispatchMessage`, oldest first. -/
  dispatched : List Op

/-- The thread on `c` goes to `pc`. -/
def World.goto (w : World) (c : CpuId) (pc : Pc) : World :=
  { w with pc := Function.update w.pc c pc }

/-- The thread on `c` works on the scheduler and goes where that tells it. -/
def World.exec (w : World) (c : CpuId) (m : Sched Pc) : Except Abort World :=
  match m w.sched with
  | .ok (pc, s) => .ok { w.goto c pc with sched := s }
  | .error e => .error e

/-- What the thread on `c` does to the scheduler at a program counter, and
where it goes. The counters where it works on the channel or the integer are
left to `threadStep`. -/
def schedStep (cfg : Config) (r : Reads) (c : CpuId) : Pc → Sched Pc
  | .head => do
      let s ← Checked.get
      pure (if r.finished then .finished
        else if c ≠ s.globalCpuid then .localYield
        else .boosted)
  | .localYield => pure .head
  | .boosted => pure (if r.boostedPriority then .pickNext else .peek)
  | .pickNext => do
      let s ← Checked.get
      pure (.search s.globalCpuid r.migrate cfg.cpus.ids)
  | .search _ _ [] => pure .head
  | .search globalCpuId env (d :: cpus) => do
      let target ← searchCpu cfg env globalCpuId d
      match target with
      | some target => pure (.settle env target)
      | none => pure (.search globalCpuId env cpus)
  | .settle env target => do
      settleTarget env target
      pure (.vacate env target)
  | .vacate env target => do
      let s ← Checked.get
      vacateTarget env target (s.cpuStates target).current
      pure (.setGlobal target)
  | .setGlobal target => do
      Checked.modify fun s => s.handOver target
      pure (.ping target)
  | .ping _ => pure .load
  | .dispatch msg => do
      perform cfg msg
      pure .consume
  | .scan env [] a =>
      pure (.assign env ⟨a.availCpus, a.availCpusLowPriority, .emptyCpuList⟩
        a.unavail)
  | .scan env (d :: cpus) a => do
      let a ← scanCpu env d a
      pure (.scan env cpus a)
  | .assign env a unavail =>
      if a.availCpus.isEmpty && a.availCpusLowPriority.isEmpty then
        pure (.submit a unavail)
      else do
        let next ← dequeue
        match next with
        | none => pure (.submit a unavail)
        | some next => do
            let a ← assignTask cfg env next a
            pure (.assign env a unavail)
  | .submit a unavail => do
      (if a.assignedCpus.isEmpty then pure ()
      else Checked.modify fun s => s.note (.submitted a.assignedCpus))
      let s ← Checked.get
      pure (.requeue s.yieldingTasks unavail)
  | .requeue [] unavail => do
      Checked.modify fun s => { s with yieldingTasks := [] }
      pure (.bump unavail)
  | .requeue (t :: tasks) unavail => do
      let k ← deref t
      check (k.runState = .yielding) .yielding
      enqueue t
      pure (.requeue tasks unavail)
  | .bump unavail => do
      Checked.modify (bumpCpuhist unavail)
      pure .head
  | pc => pure pc

/-- One step of the thread on `c`. -/
def threadStep (cfg : Config) (r : Reads) (c : CpuId) (w : World) :
    Except Abort World :=
  match w.pc c with
  | .load => .ok (w.goto c (.store w.migrations))
  | .store migrations =>
      .ok { w.goto c .head with migrations := migrations + 1 }
  | .peek =>
      match w.produced[w.consumed]? with
      | some msg => .ok (w.goto c (.dispatch msg))
      | none => .ok (w.goto c
          (.scan r.round cfg.cpus.ids ⟨.emptyCpuList, .emptyCpuList, 0⟩))
  | .dispatch msg => do
      let w ← w.exec c (schedStep cfg r c (.dispatch msg))
      .ok { w with dispatched := w.dispatched ++ [msg] }
  | .consume => .ok { w.goto c .peek with consumed := w.consumed + 1 }
  | pc => w.exec c (schedStep cfg r c pc)

/-- The kernel produces a message, or the thread on `c` takes a step. -/
inductive Action where
  | produce (msg : Op)
  | run (c : CpuId) (r : Reads)

/-- The agents on the CPUs `agents` as a transition system. -/
def agentThreads (cfg : Config) (agents : Set CpuId) :
    Machine World Action where
  init w := (netScheduler cfg).init w.sched ∧ (∀ c, w.pc c = .head) ∧
    w.produced = [] ∧ w.consumed = 0 ∧ w.dispatched = []
  step w act w' :=
    match act with
    | .produce msg => msg.isMessage = true ∧
        w' = { w with produced := w.produced ++ [msg] }
    | .run c r => c ∈ agents ∧ threadStep cfg r c w = .ok w'

/-- The states of all interleavings. -/
def ThreadsReachable (cfg : Config) (agents : Set CpuId) : World → Prop :=
  (agentThreads cfg agents).Reach fun _ _ => True

end GhostDataplane.Agent
