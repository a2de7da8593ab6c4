import Mathlib.Logic.Function.Basic

/-!
# The engine's data and its configuration

The packet engine forwards between five virtual ports. A port has a staging
buffer in front of its kernel interface, and a coprocessor of its own with
two staging buffers and two rings: the fast path hands packets to the
coprocessor over the one ring and gets them back over the other.

The arrays are functions of their index and a staging buffer is the list of
its slots below `count`. The rings of the DPDK library are lists as well,
oldest first. `log` is not in the source: it records the calls that take a
packet from the outside or let it go, and the verdicts of the coprocessors,
so that a run can be judged by what it did.
-/

namespace GhostDataplane.Engine

/-- A packet descriptor. The pool may hand out a freed one again; that is
another packet, and another `Mbuf`. -/
abbrev Mbuf := Nat

/-- `PKT_BURST_SZ`. -/
def pktBurstSz : Nat := 32

/-- `KNI_KTHREAD`. -/
def kniKthread : Nat := 5

/-- `UNKNOWN_PORT`. -/
def unknownPort : Nat := 0xFFFF

/-- `UINT16_MAX`. -/
def uint16Max : Nat := 0xFFFF

/-- `RTE_IPV4`. -/
def rteIPv4 (a b c d : Nat) : Nat :=
  ((a &&& 0xff) <<< 24) ||| ((b &&& 0xff) <<< 16) ||| ((c &&& 0xff) <<< 8) |||
    (d &&& 0xff)

/-- `struct packet_buf`: the slots below `count`. -/
abbrev PacketBuf := List Mbuf

/-- `struct kni_config`. -/
structure KniConfig where
  id : Nat
  ip : Nat
  coreId : Nat

/-- `struct queue_mgr`. -/
structure QueueMgr where
  tx : Nat → PacketBuf
  nbActiveKni : Nat
  kniCnf : Nat → KniConfig
  routingTable : Nat → Nat

/-- `struct coprocessor_mgr`. -/
structure CoprocessorMgr where
  rxQ : List Mbuf
  txQ : List Mbuf
  rx : PacketBuf
  tx : PacketBuf

/-- `struct kni_interface_stats`. -/
structure KniInterfaceStats where
  rxPackets : Nat := 0
  parseErr : Nat := 0
  txPackets : Nat := 0
  txDropped : Nat := 0

/-- `struct coprocessor_stats`. -/
structure CoprocessorStats where
  rxPackets : Nat := 0
  rxDropped : Nat := 0
  txPackets : Nat := 0
  txDropped : Nat := 0

/-- What a run has done with its packets. -/
inductive Event where
  /-- `rte_kni_rx_burst` returned these packets. -/
  | received (kni : Nat) (pkts : List Mbuf)
  /-- `rte_pktmbuf_free`. -/
  | freed (pkt : Mbuf)
  /-- `rte_kni_tx_burst` was given these packets and took the first `sent`. -/
  | kniTx (kni : Nat) (pkts : List Mbuf) (sent : Nat)
  /-- `rte_ring_enqueue_bulk` was given these packets and took `sent`. -/
  | ringEnqueue (pkts : List Mbuf) (sent : Nat)
  /-- `process_packet` returned `ret` to this coprocessor. -/
  | processed (coproc : Nat) (pkt : Mbuf) (ret : Int)

/-- The static data of the engine. -/
structure State where
  txMgr : QueueMgr
  nf : Nat → CoprocessorMgr
  kniStats : Nat → KniInterfaceStats
  nfStats : Nat → CoprocessorStats
  log : List Event

namespace State

def note (s : State) (e : Event) : State := { s with log := s.log ++ [e] }

def setTx (s : State) (i : Nat) (buf : PacketBuf) : State :=
  { s with txMgr.tx := Function.update s.txMgr.tx i buf }

def setNf (s : State) (i : Nat) (m : CoprocessorMgr) : State :=
  { s with nf := Function.update s.nf i m }

def setRoute (s : State) (ip port : Nat) : State :=
  { s with txMgr.routingTable := Function.update s.txMgr.routingTable ip port }

def setKniCnf (s : State) (i : Nat) (cnf : KniConfig) : State :=
  { s with txMgr.kniCnf := Function.update s.txMgr.kniCnf i cnf }

def setKniStats (s : State) (i : Nat) (st : KniInterfaceStats) : State :=
  { s with kniStats := Function.update s.kniStats i st }

def setNfStats (s : State) (i : Nat) (st : CoprocessorStats) : State :=
  { s with nfStats := Function.update s.nfStats i st }

end State

/-- The static data before `main`, with the buffers of `tx_mgr` allocated. -/
def zeroed : State where
  txMgr := ⟨fun _ => [], 0, fun _ => ⟨0, 0, 0⟩, fun _ => 0⟩
  nf := fun _ => ⟨[], [], [], []⟩
  kniStats := fun _ => {}
  nfStats := fun _ => {}
  log := []

/-- `for (i = 0; i < n; i++)`. -/
def forLoop {σ : Type} (n : Nat) (body : Nat → σ → σ) (s : σ) : σ :=
  (List.range n).foldl (fun s i => body i s) s

theorem forLoop_invariant {σ : Type} {n : Nat} {body : Nat → σ → σ}
    {I : σ → Prop} (hstep : ∀ i, i < n → ∀ s, I s → I (body i s)) {s : σ}
    (hi : I s) : I (forLoop n body s) := by
  have hloop : ∀ (is : List Nat) (s : σ), (∀ i ∈ is, i < n) → I s →
      I (is.foldl (fun s i => body i s) s) := by
    intro is
    induction is with
    | nil => exact fun _ _ hs => hs
    | cons i is ih =>
        intro s his hs
        rw [List.foldl_cons]
        exact ih (body i s) (fun j hj => his j (List.mem_cons_of_mem i hj))
          (hstep i (his i List.mem_cons_self) s hs)
  exact hloop (List.range n) s (fun _ hi => List.mem_range.mp hi) hi

/-- `read_config`. The first loop runs over the ports where the comment above
it speaks of every destination. `rte_ring_create` is taken to succeed; its
result is not looked at. -/
def readConfig (s : State) : State :=
  let s := forLoop kniKthread (fun i s => s.setRoute i uint16Max) s
  let s := forLoop kniKthread
    (fun i s => s.setKniCnf i ⟨i, rteIPv4 192 167 10 (i + 1), i⟩) s
  let s := { s with txMgr.nbActiveKni := kniKthread }
  let s := forLoop kniKthread
    (fun i s => s.setNf i { s.nf i with rxQ := [], txQ := [] }) s
  forLoop s.txMgr.nbActiveKni
    (fun i s => s.setRoute ((s.txMgr.kniCnf i).ip &&& 0xFFFF)
      ((s.txMgr.kniCnf i).id % 0x10000)) s

/-- The engine when its threads start. -/
def configured : State := readConfig zeroed

theorem configured_nbActiveKni :
    configured.txMgr.nbActiveKni = kniKthread := rfl

theorem configured_nf (i : Nat) : configured.nf i = ⟨[], [], [], []⟩ := by
  have hnf : configured.nf = forLoop kniKthread
      (fun j m => Function.update m j { m j with rxQ := [], txQ := [] })
      zeroed.nf := rfl
  rw [hnf]
  refine forLoop_invariant
    (I := fun m : Nat → CoprocessorMgr => ∀ i, m i = ⟨[], [], [], []⟩)
    (fun j _ m hm i => ?_) (fun _ => rfl) i
  by_cases hij : i = j
  · simp [hij, hm j]
  · simp [hij, hm i]

/-- The destination is routed to one of the ports or to none. -/
def Routed (port : Nat) : Prop := port = unknownPort ∨ port < kniKthread

theorem Routed.update {table : Nat → Nat} {ip port : Nat}
    (h : ∀ ip, Routed (table ip)) (hport : Routed port) :
    ∀ ip', Routed (Function.update table ip port ip') := by
  intro ip'
  by_cases hip : ip' = ip
  · rw [hip, Function.update_self]
    exact hport
  · rw [Function.update_of_ne hip]
    exact h ip'

theorem configured_route : ∀ ip, Routed (configured.txMgr.routingTable ip) := by
  have htable : configured.txMgr.routingTable =
      forLoop kniKthread
        (fun i t => Function.update t (rteIPv4 192 167 10 (i + 1) &&& 0xFFFF) i)
        (forLoop kniKthread (fun i t => Function.update t i uint16Max)
          zeroed.txMgr.routingTable) := rfl
  rw [htable]
  refine forLoop_invariant (I := fun t : Nat → Nat => ∀ ip, Routed (t ip))
    (fun i hi _ ht => Routed.update ht (Or.inr hi)) ?_
  refine forLoop_invariant (I := fun t : Nat → Nat => ∀ ip, Routed (t ip))
    (fun _ _ _ ht => Routed.update ht (Or.inl rfl)) ?_
  exact fun _ => Or.inr (show 0 < kniKthread by decide)

end GhostDataplane.Engine
