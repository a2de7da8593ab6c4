import GhostDataplane.Engine.Switch
import GhostDataplane.Lib.Machine

/-!
# Runs of the engine

`main_loop` runs `fastpath(5, 5)` over and over on one thread and, unless the
build says `DISABLE_NF`, `coprocessor` on each of the lcores 0 to 4. A run
interleaves the steps of these threads in any order.

Of the DPDK library a run promises that the packets `rte_kni_rx_burst`
returns are at most as many as asked for and have not been seen before. That
`rte_kni_tx_burst` takes a prefix, that `rte_ring_enqueue_bulk` takes all or
nothing and that rings are first in, first out is in the steps themselves.
-/

namespace GhostDataplane.Engine

open GhostDataplane.Lib

/-- The packets received, in the order in which the fast path got them. -/
def received (log : List Event) : List Mbuf :=
  log.flatMap fun
    | .received _ pkts => pkts
    | _ => []

/-- The packets freed. -/
def freed (log : List Event) : List Mbuf :=
  log.flatMap fun
    | .freed pkt => [pkt]
    | _ => []

/-- The packets handed to `rte_kni_tx_burst` for port `i`. -/
def handed (i : Nat) (log : List Event) : List Mbuf :=
  log.flatMap fun
    | .kniTx kni pkts _ => if kni = i then pkts else []
    | _ => []

/-- The packets that `rte_kni_tx_burst` took for port `i`. -/
def accepted (i : Nat) (log : List Event) : List Mbuf :=
  log.flatMap fun
    | .kniTx kni pkts sent => if kni = i then pkts.take sent else []
    | _ => []

/-- The calls of `process_packet` for the packet: who made it, and the
result. -/
def inspections (pkt : Mbuf) (log : List Event) : List (Nat × Int) :=
  log.flatMap fun
    | .processed coproc pkt' ret => if pkt' = pkt then [(coproc, ret)] else []
    | _ => []

/-- An enqueue or a transmission that came up short. -/
def Event.short : Event → Bool
  | .kniTx _ pkts sent | .ringEnqueue pkts sent => decide (sent < pkts.length)
  | _ => false

/-- The engine and its threads. -/
structure World where
  state : State
  fast : FastPc
  coproc : Nat → CoprocPc

/-- The thread that takes a step, and what the step is told. -/
inductive Action where
  | fast (env : Env)
  | coproc (lcoreId : Nat) (env : Env)

def World.step (setup : Setup) (w : World) : Action → World
  | .fast env =>
      let (pc, s) := fastStep setup kniKthread kniKthread env w.fast w.state
      { w with state := s, fast := pc }
  | .coproc i env =>
      let (pc, s) := coprocStep setup env i (w.coproc i) w.state
      { w with state := s, coproc := Function.update w.coproc i pc }

/-- The engine after `read_config`, with every thread at the beginning. -/
def World.start : World := ⟨configured, .rxBurst 0, fun _ => .start⟩

/-- The thread exists, and the library keeps its promises. -/
def promised (setup : Setup) (w : World) : Action → Prop
  | .fast env => ∀ k, w.fast = .rxBurst k →
      env.burst.length ≤ pktBurstSz ∧ env.burst.Nodup ∧
        ∀ pkt ∈ env.burst, pkt ∉ received w.state.log
  | .coproc i _ => i < kniKthread ∧ setup.disableNf = false

/-- The thread exists; nothing is asked of the library. -/
def launched (setup : Setup) : Action → Prop
  | .fast _ => True
  | .coproc i _ => i < kniKthread ∧ setup.disableNf = false

theorem launched_of_promised {setup : Setup} {w : World} {a : Action}
    (h : promised setup w a) : launched setup a := by
  cases a with
  | fast env => trivial
  | coproc i env => exact h

/-- The engine as a machine. -/
def engine (setup : Setup) : Machine World Action where
  init w := w = World.start
  step w a w' := w' = w.step setup a

/-- The states of the engine's runs. -/
def Reachable (setup : Setup) (w : World) : Prop :=
  (engine setup).Reach (promised setup) w

/-! ## Runs that can be computed -/

/-- The promise of a burst matters only to a step that asks for one. -/
instance (setup : Setup) (w : World) :
    (a : Action) → Decidable (promised setup w a)
  | .fast env =>
      match hpc : w.fast with
      | .rxBurst k =>
          decidable_of_iff
            (env.burst.length ≤ pktBurstSz ∧ env.burst.Nodup ∧
              ∀ pkt ∈ env.burst, pkt ∉ received w.state.log)
            ⟨fun h _ _ => h, fun h => h k hpc⟩
      | .route .. | .flushPort .. | .flushNf .. | .dequeue _ | .forward .. =>
          isTrue fun _ h => by rw [hpc] at h; cases h
  | .coproc i _ =>
      inferInstanceAs (Decidable (i < kniKthread ∧ setup.disableNf = false))

/-- The state after the actions. -/
def World.run (setup : Setup) (w : World) : List Action → World
  | [] => w
  | a :: actions => (w.step setup a).run setup actions

/-- Every action is promised when its turn comes. -/
def kept (setup : Setup) (w : World) : List Action → Bool
  | [] => true
  | a :: actions =>
      decide (promised setup w a) && kept setup (w.step setup a) actions

theorem Reachable.run {setup : Setup} {w : World} {actions : List Action}
    (h : Reachable setup w) (hkept : kept setup w actions = true) :
    Reachable setup (w.run setup actions) := by
  induction actions generalizing w with
  | nil => exact h
  | cons a actions ih =>
      rw [kept, Bool.and_eq_true, decide_eq_true_eq] at hkept
      exact ih (.step h hkept.1 rfl) hkept.2

end GhostDataplane.Engine
