import GhostDataplane.Engine.Threads

/-!
# The statistics

Between two iterations of the fast path `main_loop` may call `print_stats`,
which prints the counters of every port and every coprocessor and sets them to
zero. A `Meter` is the engine with somebody who adds up what is printed and
counts the packets that the fast path fetches from the coprocessors; neither
has an effect on the engine.

`print_stats` is one step here. A coprocessor that runs in the middle of it
only touches the counters of its own transmit side.
-/

namespace GhostDataplane.Engine

open GhostDataplane.Lib

def KniInterfaceStats.add (a b : KniInterfaceStats) : KniInterfaceStats where
  rxPackets := a.rxPackets + b.rxPackets
  parseErr := a.parseErr + b.parseErr
  txPackets := a.txPackets + b.txPackets
  txDropped := a.txDropped + b.txDropped

def CoprocessorStats.add (a b : CoprocessorStats) : CoprocessorStats where
  rxPackets := a.rxPackets + b.rxPackets
  rxDropped := a.rxDropped + b.rxDropped
  txPackets := a.txPackets + b.txPackets
  txDropped := a.txDropped + b.txDropped

/-- The engine, what was printed so far, and how many packets the fast path
has dequeued from `nf[i].tx_q`. -/
structure Meter where
  world : World
  kni : Nat → KniInterfaceStats
  nf : Nat → CoprocessorStats
  dequeued : Nat → Nat

namespace Meter

/-- The counters of a port, as if they had never been set to zero. -/
def kniTotal (m : Meter) (i : Nat) : KniInterfaceStats :=
  (m.kni i).add (m.world.state.kniStats i)

/-- The counters of a coprocessor, likewise. -/
def nfTotal (m : Meter) (i : Nat) : CoprocessorStats :=
  (m.nf i).add (m.world.state.nfStats i)

end Meter

/-- The body of the first loop of `print_stats`. -/
def printKni (i : Nat) (m : Meter) : Meter :=
  { m with
    kni := Function.update m.kni i (m.kniTotal i)
    world.state := m.world.state.setKniStats i {} }

/-- The body of the second loop of `print_stats`. -/
def printNf (i : Nat) (m : Meter) : Meter :=
  { m with
    nf := Function.update m.nf i (m.nfTotal i)
    world.state := m.world.state.setNfStats i {} }

/-- `print_stats`. -/
def printStats (m : Meter) : Meter :=
  forLoop kniKthread printNf (forLoop kniKthread printKni m)

/-- The step of the fast path from the first to the second program counter may
be one that dequeues. -/
def countDequeued : FastPc → FastPc → (Nat → Nat) → Nat → Nat
  | .dequeue _, .forward c burst, d => Function.update d c (d c + burst.length)
  | _, _, d => d

inductive MeterAction where
  | engine (a : Action)
  | printStats

def Meter.step (setup : Setup) (m : Meter) : MeterAction → Meter
  | .engine a =>
      { m with
        world := m.world.step setup a
        dequeued :=
          countDequeued m.world.fast (m.world.step setup a).fast m.dequeued }
  | .printStats => printStats m

/-- The thread exists, and the statistics are printed between two iterations. -/
def metered (setup : Setup) (m : Meter) : MeterAction → Prop
  | .engine a => launched setup a
  | .printStats => m.world.fast = .rxBurst 0

def Meter.start : Meter := ⟨World.start, fun _ => {}, fun _ => {}, fun _ => 0⟩

/-- The engine under the meter as a machine. -/
def meter (setup : Setup) : Machine Meter MeterAction where
  init m := m = Meter.start
  step m a m' := m' = m.step setup a

end GhostDataplane.Engine
