import GhostDataplane.Engine.Threads
import GhostDataplane.Lib.Bank

/-!
# What the engine is for

Seen from far enough away the engine is a set of places and a few ways in
which a packet goes from one to the next. `Pipe` keeps what lies where,
together with what has been received, handed to the ports and inspected so
far, and whether anything ever came up short. `Pipe.Move` lists the ways:
each is a `Bank.shift` from one place to another, or an arrival.

Nothing here speaks of threads, program counters or counts. That the engine
does no more than this, whatever the order in which its threads take their
steps, is `Proofs/PipeSteps.lean`; what follows for its packets is proved of the
moves alone.
-/

namespace GhostDataplane.Engine

open GhostDataplane.Lib

/-- Where a packet can be. -/
inductive Place where
  /-- In the burst that the fast path received from a port. -/
  | routing
  /-- In `nf[i].rx`. -/
  | nfRx (i : Nat)
  /-- In `nf[i].rx_q`. -/
  | rxQ (i : Nat)
  /-- In the burst that coprocessor `i` received. -/
  | inspecting (i : Nat)
  /-- In `nf[i].tx`. -/
  | nfTx (i : Nat)
  /-- In `nf[i].tx_q`. -/
  | txQ (i : Nat)
  /-- In the burst that the fast path received from coprocessor `i`. -/
  | forwarding (i : Nat)
  /-- In `tx_mgr.tx[i]`. -/
  | tx (i : Nat)
  /-- Taken by `rte_kni_tx_burst` for port `i`. -/
  | accepted (i : Nat)
  /-- Freed. -/
  | freed
deriving DecidableEq

/-- The port that `get_next_hop` finds for a packet once the engine is
configured. -/
def nextHop (setup : Setup) (pkt : Mbuf) : Nat :=
  getNextHop configured.txMgr.routingTable (setup.bytes pkt)

theorem nextHop_routed (setup : Setup) (pkt : Mbuf) :
    Routed (nextHop setup pkt) := by
  unfold nextHop getNextHop
  split
  · exact Or.inl rfl
  · exact configured_route _

/-- A packet with a port is an IPv4 packet. -/
theorem etherType_of_nextHop {setup : Setup} {pkt : Mbuf}
    (h : nextHop setup pkt ≠ unknownPort) :
    etherType (setup.bytes pkt) = etherTypeIPv4 := by
  by_contra hne
  rw [nextHop, getNextHop, if_pos hne] at h
  exact h rfl

/-- The engine from far away. -/
@[ext]
structure Pipe where
  bank : Bank Place Mbuf
  received : List Mbuf
  handed : Nat → List Mbuf
  inspections : Mbuf → List (Nat × Int)
  short : Bool

/-- The ways that a packet goes without being looked at. -/
inductive Edge : Place → Place → Prop where
  | flushRx {i : Nat} : Edge (.nfRx i) (.rxQ i)
  | fetch {i : Nat} : Edge (.rxQ i) (.inspecting i)
  | flushTx {i : Nat} : Edge (.nfTx i) (.txQ i)
  | collect {i : Nat} : Edge (.txQ i) (.forwarding i)
  | forward {i : Nat} : Edge (.forwarding i) (.tx i)
  | transmit {i : Nat} : Edge (.tx i) (.accepted i)

/-- The buffers whose contents may not fit where they are flushed to. -/
inductive Lossy : Place → Prop where
  | nfRx {i : Nat} : Lossy (.nfRx i)
  | nfTx {i : Nat} : Lossy (.nfTx i)
  | tx {i : Nat} : Lossy (.tx i)

namespace Pipe

/-- Carry packets. -/
def shift (q : Pipe) (a b : Place) (n : Nat) : Pipe :=
  { q with bank := q.bank.shift a b n }

/-- Note the result of an inspection. -/
def inspected (q : Pipe) (i : Nat) (pkt : Mbuf) (ret : Int) : Pipe :=
  { q with
    inspections := Function.update q.inspections pkt
      (q.inspections pkt ++ [(i, ret)]) }

/-- Where a routed packet goes. -/
def entry (setup : Setup) (i : Nat) : Place :=
  if setup.disableNf then .tx i else .nfRx i

/-- All that can happen to the packets. -/
inductive Move (setup : Setup) : Pipe → Pipe → Prop where
  | arrive {q : Pipe} {pkts : List Mbuf} (hnodup : pkts.Nodup)
      (hfresh : ∀ pkt ∈ pkts, pkt ∉ q.received) :
      Move setup q
        { q with
          bank := q.bank.arrive .routing pkts
          received := q.received ++ pkts }
  | refuse {q : Pipe} {pkt : Mbuf} {rest : List Mbuf}
      (hburst : q.bank .routing = pkt :: rest)
      (hhop : nextHop setup pkt = unknownPort) :
      Move setup q (q.shift .routing .freed 1)
  | stage {q : Pipe} {pkt : Mbuf} {rest : List Mbuf} {i : Nat}
      (hburst : q.bank .routing = pkt :: rest) (hhop : nextHop setup pkt = i)
      (hi : i < kniKthread) : Move setup q (q.shift .routing (entry setup i) 1)
  | advance {q : Pipe} {a b : Place} {n : Nat} (he : Edge a b) :
      Move setup q (q.shift a b n)
  | pass {q : Pipe} {pkt : Mbuf} {rest : List Mbuf} {i : Nat}
      (hburst : q.bank (.inspecting i) = pkt :: rest)
      (hret : processPacket setup pkt = 0) :
      Move setup q ((q.inspected i pkt 0).shift (.inspecting i) (.nfTx i) 1)
  | reject {q : Pipe} {pkt : Mbuf} {rest : List Mbuf} {i : Nat}
      (hburst : q.bank (.inspecting i) = pkt :: rest)
      (hret : processPacket setup pkt ≠ 0) :
      Move setup q ((q.inspected i pkt (processPacket setup pkt)).shift
        (.inspecting i) .freed 1)
  | hand {q : Pipe} {i : Nat} (hi : i < kniKthread) :
      Move setup q
        { q with
          handed := Function.update q.handed i (q.handed i ++ q.bank (.tx i)) }
  | lose {q : Pipe} {a : Place} {n : Nat} (ha : Lossy a) :
      Move setup q { q.shift a .freed n with short := true }

/-- A sequence of moves. -/
inductive Moves (setup : Setup) : Pipe → Pipe → Prop where
  | refl {q : Pipe} : Moves setup q q
  | head {q q₁ q' : Pipe} (hm : Move setup q q₁) (hrest : Moves setup q₁ q') :
      Moves setup q q'

theorem Move.moves {setup : Setup} {q q' : Pipe} (h : Move setup q q') :
    Moves setup q q' := .head h .refl

theorem Moves.trans {setup : Setup} {q q₁ q' : Pipe} (h : Moves setup q q₁)
    (h' : Moves setup q₁ q') : Moves setup q q' := by
  induction h with
  | refl => exact h'
  | head hm _ ih => exact .head hm (ih h')

/-- What every move preserves, a sequence of moves preserves. The step may
use that its source was come to by moves as well. -/
theorem Moves.invariant {setup : Setup} {P : Pipe → Prop} {q q' : Pipe}
    (h : Moves setup q q') (hp : P q)
    (hmove : ∀ q₁ q₂, Moves setup q q₁ → P q₁ → Move setup q₁ q₂ → P q₂) :
    P q' := by
  induction h with
  | refl => exact hp
  | head hm _ ih =>
      refine ih (hmove _ _ .refl hp hm) fun q₁ q₂ hr => ?_
      exact hmove q₁ q₂ (.head hm hr)

/-- Nothing anywhere. -/
def empty : Pipe := ⟨fun _ => [], [], fun _ => [], fun _ => [], false⟩

end Pipe

end GhostDataplane.Engine
