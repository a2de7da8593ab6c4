import GhostDataplane.Agent.Threads

/-!
# The agent's process, from the flags to the end

`ParseNetConfig` turns the flags into a configuration. The constructor of
`FullNetAgent` makes the scheduler and starts an agent on each CPU of the
enclave. The destructor checks that no task is left in a run queue, reads the
global id, swaps the agent of that CPU with the first one and has the agents
terminated in the order that results.

The destructor runs in the main thread while the agents are still at work, so
each of its reads is a step of its own and the agents may take any steps in
between. The list `agents_` belongs to the ghOSt library and is not part of the
source, so it is a parameter here: all that is known of it is that there is one
agent for each CPU of the enclave. Nor is it part of the source how the library
terminates an agent; the destructor ends with the order in which it hands the
agents over.
-/

namespace GhostDataplane.Agent

open GhostDataplane.Lib

/-- The `CHECK`s of `ParseNetConfig`, `ValidatePreExitState` and
`~FullNetAgent`. -/
inductive ProcessCheck where
  | ghostCpusGt
  | globalcpuEq
  | globalcpuIsSet
  | runQueueEq
  | runQueueLowPriorityEq
  | frontEq
deriving DecidableEq

/-- The flags; `ghost_cpus` is the list that `ParseCpuStr` makes of it. -/
structure Flags where
  ghostCpus : CpuList
  globalcpu : Int
  enforceAffinity : Bool

/-- `ParseNetConfig`, with `global_cpu_` beside the rest of the
configuration. -/
def parseNetConfig (topology : Topology) (maxCpus : Nat) (flags : Flags) :
    Except ProcessCheck (Config × CpuId) :=
  if flags.ghostCpus.ids.length ≤ 1 then .error .ghostCpusGt
  else if flags.globalcpu < 0 ∧ flags.globalcpu ≠ -1 then .error .globalcpuEq
  else
    -- `GetNthCpu(0)` of a list with more than one CPU.
    let globalcpu :=
      if flags.globalcpu < 0 then flags.ghostCpus.ids.headD 0
      else flags.globalcpu.toNat
    if flags.ghostCpus.isSet globalcpu then
      .ok (⟨flags.ghostCpus, flags.enforceAffinity, topology, maxCpus⟩,
        globalcpu)
    else .error .globalcpuIsSet

/-- The loop of the destructor over the agents behind the first one, with its
`iter_swap`: the agent that is now the first, and those behind it. -/
def swapFront (front globalCpuid : CpuId) :
    List CpuId → Option (CpuId × List CpuId)
  | [] => none
  | agent :: agents =>
      if agent = globalCpuid then some (agent, front :: agents)
      else (swapFront front globalCpuid agents).map fun swapped =>
        (swapped.1, agent :: swapped.2)

/-- The agent of the global CPU is brought to the front. -/
def bringToFront (globalCpuid : CpuId) : List CpuId → List CpuId
  | [] => []
  | front :: agents =>
      if front = globalCpuid then front :: agents
      else
        match swapFront front globalCpuid agents with
        | none => front :: agents
        | some (first, rest) => first :: rest

/-- Where the destructor is. -/
inductive ExitPc where
  /-- Before the first `CHECK_EQ` of `ValidatePreExitState`. -/
  | validate
  | validateLowPriority
  | readGlobal
  | reorder (globalCpuid : CpuId)
  /-- `TerminateAgentTasks` is called. -/
  | terminate (agents : List CpuId)
  | abort (check : ProcessCheck)
deriving DecidableEq

/-- One step of the destructor. -/
def exitStep (agents : List CpuId) (s : NetScheduler) : ExitPc → ExitPc
  | .validate =>
      if s.runQueue.length = 0 then .validateLowPriority else .abort .runQueueEq
  | .validateLowPriority =>
      if s.runQueueLowPriority.length = 0 then .readGlobal
      else .abort .runQueueLowPriorityEq
  | .readGlobal => .reorder s.globalCpuid
  | .reorder globalCpuid =>
      let agents := bringToFront globalCpuid agents
      if agents.head? = some globalCpuid then .terminate agents
      else .abort .frontEq
  | pc => pc

structure AgentProcess where
  world : World
  exit : ExitPc

/-- A step of the agents or the kernel, or one of the destructor. -/
inductive ProcessAction where
  | agents (act : Action)
  | exit

/-- The process with a configuration, `global_cpu_` and the CPUs of
`agents_`. -/
def agentProcess (cfg : Config) (globalCpu : CpuId) (agents : List CpuId) :
    Machine AgentProcess ProcessAction where
  init p :=
    (∃ cpuhist st, construct cfg globalCpu cpuhist st = .ok p.world.sched) ∧
    (∀ c, p.world.pc c = .head) ∧ p.world.produced = [] ∧ p.world.consumed = 0 ∧
    p.world.dispatched = [] ∧ p.exit = .validate
  step p act p' :=
    match act with
    | .agents act =>
        (agentThreads cfg {c | c ∈ cfg.cpus}).step p.world act p'.world ∧
          p'.exit = p.exit
    | .exit => p' = { p with exit := exitStep agents p.world.sched p.exit }

/-- The states of all interleavings of the agents with the destructor. -/
def ProcessReachable (cfg : Config) (globalCpu : CpuId) (agents : List CpuId) :
    AgentProcess → Prop :=
  (agentProcess cfg globalCpu agents).Reach fun _ _ => True

end GhostDataplane.Agent
