import GhostDataplane.Engine.Threads
import GhostDataplane.Engine.SharedSetup
import GhostDataplane.Lib.Runs

/-!
# The engine as a whole

`main_loop` on every core, from its first statement to its last. A coprocessor
makes its set-up, which begins with the reading of the rule file, calls
`coprocessor` until `kni_stop` is set and then makes its teardown; the thread of
the fast path calls `fastpath` until `kni_stop` is set. The signal handler
increments `kni_stop`, and each thread reads it between two iterations.

The pieces are those of `Engine.Threads` and `Engine.SharedSetup`. What is new
is that they run together: a coprocessor that is done with its set-up handles
packets while others are still in theirs, `fw_packet_handler` looks a source up
in whatever `lpm_tbl` points to at that moment, and a teardown frees the array
that `rules` points to at that moment, whoever allocated it.

Four things take the engine down: a set-up that calls `rte_exit` or goes through
a pointer that is NULL or was never stored, a packet that `fw_packet_handler`
cannot read, a block that is used after it was freed and one that is freed
twice. There are no more steps then. A call of `lpm_teardown` is one step.
`print_stats` only reads and is left out.

`inspected` is for the statements: the verdict on each packet, and whether every
set-up was done when it was given.
-/

namespace GhostDataplane.Engine

open GhostDataplane.Lib

/-- Where a thread is in `main_loop`. -/
inductive LoopPc where
  /-- In `coprocessor_setup`. -/
  | setup
  /-- At the read of `kni_stop`. -/
  | check
  /-- In `fastpath` or `coprocessor`. -/
  | body
  /-- At `coprocessor_teardown`. -/
  | teardown
  | returned
deriving DecidableEq

/-- What takes the engine down once the set-ups are over. -/
inductive Crash where
  | handler (fault : Fault)
  | freedMemory
deriving DecidableEq

/-- What a run is about: the contents of the packets, and the rules in the
file. -/
structure Config where
  bytes : Mbuf → Nat → UInt8
  file : List FwRule

/-- The build with coprocessors, if the firewall's verdict is this. -/
def Config.setup (cfg : Config) (action : FwAction) : Setup where
  disableNf := false
  bytes := cfg.bytes
  fwPacketHandler _ := action

/-- The process. -/
structure Process where
  world : World
  setups : Setups
  /-- The blocks that were passed to `free`. -/
  freed : List Nat
  stats : FirewallPktStats
  kniStop : Nat
  rx : LoopPc
  coproc : Nat → LoopPc
  crash : Option Crash
  inspected : Mbuf → Option (FwAction × Bool)

namespace Process

def start : Process where
  world := World.start
  setups := Setups.start
  freed := []
  stats := {}
  kniStop := 0
  rx := .check
  coproc _ := .setup
  crash := none
  inspected _ := none

/-- Has something taken the engine down? -/
def down (p : Process) : Bool := p.setups.crashed || p.crash.isSome

/-- What `lpm_tbl` points to. -/
def table (p : Process) : Option RteLpm :=
  p.setups.shared.lpmTbl.map p.setups.shared.tables

/-- Are all set-ups done, with every rule in the table? -/
def settled (p : Process) : Bool :=
  (List.range kniKthread).all fun i => p.setups.pc i == .finished 0

def setCoproc (p : Process) (i : Nat) (pc : LoopPc) : Process :=
  { p with coproc := Function.update p.coproc i pc }

end Process

/-- The read of `kni_stop`; `out` is behind the loop. -/
def checkStop (kniStop : Nat) (out : LoopPc) : LoopPc :=
  if kniStop ≠ 0 then out else .body

/-- At the beginning of `fastpath`. -/
def FastPc.atHead : FastPc → Bool
  | .rxBurst 0 => true
  | _ => false

/-- At the beginning of `coprocessor`. -/
def CoprocPc.atHead : CoprocPc → Bool
  | .start => true
  | .process _ => false

/-- Is the set-up over? -/
def SetupPc.isFinished : SetupPc → Bool
  | .finished _ => true
  | _ => false

/-- The blocks that a statement of the set-up goes through. -/
def SetupPc.uses (file : List FwRule) (s : Shared) : SetupPc → List Nat
  | .mallocRule i => if i < file.length then s.rules.toList else []
  | .storeIp i | .storeDepth i | .storeAction i =>
      s.rules.toList ++ (s.ruleAt i).toList
  | .addRule rules numRules i =>
      if i < numRules then
        rules.toList ++
          (rules.bind fun array => (s.slots array i).addr).toList
      else []
  | _ => []

/-- What is passed to `free` for a slot, nothing if the slot was never
stored. -/
def Slot.freed : Slot → Option (List Nat)
  | .unset => none
  | .null => some []
  | .rule addr => some [addr]

/-- What `lpm_teardown(rules, num_rules)` passes to `free`, nothing if it comes
to a slot that was never stored. -/
def Shared.freeList (s : Shared) : Option (List Nat) :=
  match s.rules with
  | none => some []
  | some array =>
      ((List.range s.numRules).mapM fun i => (s.slots array i).freed).map
        fun blocks => blocks.flatten ++ [array]

/-- One step of the thread of the fast path. -/
def rxStep (cfg : Config) (env : Env) (p : Process) : Process :=
  match p.rx with
  | .check => { p with rx := checkStop p.kniStop .returned }
  | .body =>
      let world := p.world.step (cfg.setup .forward) (.fast env)
      { p with
        world := world
        rx := if world.fast.atHead then .check else .body }
  | .setup | .teardown | .returned => p

/-- One step of a coprocessor that is in `coprocessor_setup`. -/
def coprocSetup (cfg : Config) (i : Nat) (setupEnv : SetupEnv) (p : Process) :
    Process :=
  if ((p.setups.pc i).uses cfg.file p.setups.shared).any
      (p.freed.contains ·) then
    { p with crash := some .freedMemory }
  else
    let setups := p.setups.step cfg.file ⟨i, setupEnv⟩
    { p with setups := setups }.setCoproc i
      (if (setups.pc i).isFinished then .check else .setup)

/-- One step of a coprocessor that is in `coprocessor`. -/
def coprocBody (cfg : Config) (i : Nat) (env : Env) (p : Process) : Process :=
  match p.world.coproc i with
  | .process (pkt :: _) =>
      match fwPacketHandler p.table (cfg.bytes pkt) p.stats with
      | .error fault => { p with crash := some (.handler fault) }
      | .ok (action, stats) =>
          { p with
            world := p.world.step (cfg.setup action) (.coproc i env)
            stats := stats
            inspected :=
              Function.update p.inspected pkt (some (action, p.settled)) }
  | _ =>
      let world := p.world.step (cfg.setup .forward) (.coproc i env)
      { p with world := world }.setCoproc i
        (if (world.coproc i).atHead then .check else .body)

/-- `coprocessor_teardown`. -/
def coprocTeardown (i : Nat) (p : Process) : Process :=
  match p.setups.shared.freeList with
  | none => { p with crash := some .freedMemory }
  | some blocks =>
      if blocks.any (p.freed.contains ·) then
        { p with crash := some .freedMemory }
      else { p with freed := p.freed ++ blocks }.setCoproc i .returned

/-- One step of the thread of a coprocessor. -/
def coprocLoopStep (cfg : Config) (i : Nat) (env : Env) (setupEnv : SetupEnv)
    (p : Process) : Process :=
  match p.coproc i with
  | .setup => coprocSetup cfg i setupEnv p
  | .check => p.setCoproc i (checkStop p.kniStop .teardown)
  | .body => coprocBody cfg i env p
  | .teardown => coprocTeardown i p
  | .returned => p

/-- A signal, or a step of a thread with what the libraries say. -/
inductive ProcessAction where
  | signal
  | rx (env : Env)
  | coproc (lcoreId : Nat) (env : Env) (setupEnv : SetupEnv)

def Process.step (cfg : Config) (p : Process) (a : ProcessAction) : Process :=
  if p.down then p
  else
    match a with
    | .signal => { p with kniStop := p.kniStop + 1 }
    | .rx env => rxStep cfg env p
    | .coproc i env setupEnv => coprocLoopStep cfg i env setupEnv p

/-- The process as a machine. -/
def process (cfg : Config) : Machine Process ProcessAction where
  init p := p = Process.start
  step p a p' := p' = p.step cfg a

/-- The thread exists, and the packets that come in are new. -/
def served (cfg : Config) (p : Process) : ProcessAction → Prop
  | .signal => True
  | .rx env => promised (cfg.setup .forward) p.world (.fast env)
  | .coproc i _ _ => i < kniKthread

/-- The states of the runs of the process. -/
def Process.Reachable (cfg : Config) (p : Process) : Prop :=
  (process cfg).Reach (served cfg) p

/-! ## Runs that can be computed -/

instance (cfg : Config) (p : Process) :
    (a : ProcessAction) → Decidable (served cfg p a)
  | .signal => isTrue trivial
  | .rx env => inferInstanceAs
      (Decidable (promised (cfg.setup .forward) p.world (.fast env)))
  | .coproc i _ _ => inferInstanceAs (Decidable (i < kniKthread))

/-- The state after the actions. -/
def Process.run (cfg : Config) (p : Process) : List ProcessAction → Process
  | [] => p
  | a :: actions => (p.step cfg a).run cfg actions

/-- Every action is one that is served when its turn comes. -/
def servedAll (cfg : Config) (p : Process) : List ProcessAction → Bool
  | [] => true
  | a :: actions =>
      decide (served cfg p a) && servedAll cfg (p.step cfg a) actions

theorem steps_run {cfg : Config} {p : Process} {actions : List ProcessAction}
    (hserved : servedAll cfg p actions = true) :
    (process cfg).Steps (served cfg) p actions (p.run cfg actions) := by
  induction actions generalizing p with
  | nil => exact .nil
  | cons a actions ih =>
      rw [servedAll, Bool.and_eq_true, decide_eq_true_eq] at hserved
      exact .cons hserved.1 rfl (ih hserved.2)

end GhostDataplane.Engine
