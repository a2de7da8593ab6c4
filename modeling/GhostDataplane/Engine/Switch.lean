import GhostDataplane.Engine.Init

/-!
# The fast path and the coprocessors

The functions of `switch.c` and the two thread bodies. The three staging
buffers are flushed and filled by near-identical code; `flush` and `enqueue`
are that code, with the `Stage` saying which buffer, where it empties to and
which counters it bumps.

`fastpath` and `coprocessor` run on threads of their own and share nothing
but the rings. Their bodies are cut where the outside can tell: each step of
`fastStep` and `coprocStep` handles one packet or makes one call to the DPDK
library, and the program counter carries the loop indices and what is left
of the local `pkts_burst`. After the last step of an iteration the counter is
back where it began.
-/

namespace GhostDataplane.Engine

/-! ## Routing -/

/-- `rte_be_to_cpu_16` of the two bytes at `off`. -/
def rteBeToCpu16 (bytes : Nat → UInt8) (off : Nat) : Nat :=
  (bytes off).toNat * 0x100 + (bytes (off + 1)).toNat

/-- `rte_be_to_cpu_32` of the four bytes at `off`. -/
def rteBeToCpu32 (bytes : Nat → UInt8) (off : Nat) : Nat :=
  rteBeToCpu16 bytes off * 0x10000 + rteBeToCpu16 bytes (off + 2)

/-- `ETHER_TYPE_IPv4`. -/
def etherTypeIPv4 : Nat := 0x0800

/-- `eth->ether_type`, in host order. -/
def etherType (bytes : Nat → UInt8) : Nat := rteBeToCpu16 bytes 12

/-- `ip_hdr->dst_addr`, in host order. The IP header follows the 14 bytes of
the Ethernet header. -/
def ipDst (bytes : Nat → UInt8) : Nat := rteBeToCpu32 bytes (14 + 16)

/-- `get_next_hop`. -/
def getNextHop (routingTable : Nat → Nat) (bytes : Nat → UInt8) : Nat :=
  if etherType bytes ≠ etherTypeIPv4 then unknownPort
  else routingTable (ipDst bytes &&& 0xFFFF)

/-! ## Staging buffers -/

/-- What one step is told by the DPDK library. -/
structure Env where
  /-- The packets that `rte_kni_rx_burst` returns. -/
  burst : List Mbuf
  /-- How many packets `rte_kni_tx_burst` would take. -/
  accept : Nat
  /-- Does `rte_ring_enqueue_bulk` find room for all the packets? -/
  room : Bool
  /-- How many packets `rte_ring_dequeue_burst` finds in the ring. -/
  avail : Nat

/-- `tx_mgr.tx`, `nf[].rx` and `nf[].tx`. -/
inductive Stage where
  | port
  | nfRx
  | nfTx
deriving DecidableEq

namespace Stage

def buf : Stage → State → Nat → PacketBuf
  | port, s, i => s.txMgr.tx i
  | nfRx, s, i => (s.nf i).rx
  | nfTx, s, i => (s.nf i).tx

def setBuf : Stage → State → Nat → PacketBuf → State
  | port, s, i, b => s.setTx i b
  | nfRx, s, i, b => s.setNf i { s.nf i with rx := b }
  | nfTx, s, i, b => s.setNf i { s.nf i with tx := b }

/-- How many of `count` packets are taken: a prefix by the kernel interface,
all or nothing by a ring. -/
def sent (env : Env) (count : Nat) : Stage → Nat
  | port => min env.accept count
  | nfRx | nfTx => if env.room then count else 0

/-- Hand over the buffer. -/
def deliver : Stage → Nat → PacketBuf → Nat → State → State
  | port, i, b, sent, s => s.note (.kniTx i b sent)
  | nfRx, i, b, sent, s =>
      (s.note (.ringEnqueue b sent)).setNf i
        { s.nf i with rxQ := (s.nf i).rxQ ++ b.take sent }
  | nfTx, i, b, sent, s =>
      (s.note (.ringEnqueue b sent)).setNf i
        { s.nf i with txQ := (s.nf i).txQ ++ b.take sent }

/-- Update the statistics. -/
def count : Stage → Nat → Nat → Nat → State → State
  | port, i, sent, dropped, s =>
      s.setKniStats i { s.kniStats i with
        txPackets := (s.kniStats i).txPackets + sent
        txDropped := (s.kniStats i).txDropped + dropped }
  | nfRx, i, sent, dropped, s =>
      s.setNfStats i { s.nfStats i with
        rxPackets := (s.nfStats i).rxPackets + sent
        rxDropped := (s.nfStats i).rxDropped + dropped }
  | nfTx, i, sent, dropped, s =>
      s.setNfStats i { s.nfStats i with
        txPackets := (s.nfStats i).txPackets + sent
        txDropped := (s.nfStats i).txDropped + dropped }

end Stage

/-- `rte_pktmbuf_free`. -/
def rtePktmbufFree (pkt : Mbuf) (s : State) : State := s.note (.freed pkt)

/-- The loop that frees what was not taken. -/
def freeAll : List Mbuf → State → State
  | [], s => s
  | pkt :: pkts, s => freeAll pkts (rtePktmbufFree pkt s)

def flush (st : Stage) (env : Env) (i : Nat) (s : State) : State :=
  if i ≥ s.txMgr.nbActiveKni then s
  else
    let buf := st.buf s i
    if buf.length = 0 then s
    else
      let sent := st.sent env buf.length
      let s := st.deliver i buf sent s
      let s := freeAll (buf.drop sent) s
      let s := st.count i sent (buf.length - sent) s
      st.setBuf s i []

def enqueue (st : Stage) (env : Env) (pkt : Mbuf) (i : Nat) (s : State) :
    State :=
  if i ≥ s.txMgr.nbActiveKni then s
  else
    let s := st.setBuf s i (st.buf s i ++ [pkt])
    if (st.buf s i).length = pktBurstSz then flush st env i s else s

def flushPortQueue : Env → Nat → State → State := flush .port

def flushNfRxQueue : Env → Nat → State → State := flush .nfRx

def flushNfTxQueue : Env → Nat → State → State := flush .nfTx

def enqueuePort : Env → Mbuf → Nat → State → State := enqueue .port

def enqueueNfRx : Env → Mbuf → Nat → State → State := enqueue .nfRx

def enqueueNfTx : Env → Mbuf → Nat → State → State := enqueue .nfTx

/-! ## The threads -/

/-- `enum FW_ACTION`. -/
inductive FwAction where
  | forward
  | drop
deriving DecidableEq

/-- What a run is about: the build, the contents of the packets, and what the
firewall thinks of them. -/
structure Setup where
  /-- Is `DISABLE_NF` defined? -/
  disableNf : Bool
  bytes : Mbuf → Nat → UInt8
  fwPacketHandler : Mbuf → FwAction

/-- `process_packet`, compiled with the `ENABLE_FW_NF` of `coprocessor.h`. -/
def processPacket (setup : Setup) (pkt : Mbuf) : Int :=
  if setup.fwPacketHandler pkt ≠ .forward then -1 else 0

/-- Where the thread of the fast path is. -/
inductive FastPc where
  /-- At the head of the loop over the ports. -/
  | rxBurst (kniIdx : Nat)
  /-- In the loop over the packets it received from a port. -/
  | route (kniIdx : Nat) (burst : List Mbuf)
  /-- In the first loop of `flush_all`, in its first or second call. -/
  | flushPort (again : Bool) (kniIdx : Nat)
  /-- In the second loop of `flush_all`. -/
  | flushNf (again : Bool) (coprocIdx : Nat)
  /-- At the head of the loop over the coprocessors. -/
  | dequeue (coprocIdx : Nat)
  /-- In the loop over the packets it received from a coprocessor. -/
  | forward (coprocIdx : Nat) (burst : List Mbuf)

/-- One step of `fastpath(nb_kni, nb_coproc)`. -/
def fastStep (setup : Setup) (nbKni nbCoproc : Nat) (env : Env) :
    FastPc → State → FastPc × State
  | .rxBurst k, s =>
      if k < nbKni then
        (.route k env.burst, (s.note (.received k env.burst)).setKniStats k
          { s.kniStats k with
            rxPackets := (s.kniStats k).rxPackets + env.burst.length })
      else (.flushPort false 0, s)
  | .route k [], s => (.rxBurst (k + 1), s)
  | .route k (pkt :: burst), s =>
      let port := getNextHop s.txMgr.routingTable (setup.bytes pkt)
      if port = unknownPort then
        (.route k burst, (rtePktmbufFree pkt s).setKniStats k
          { s.kniStats k with parseErr := (s.kniStats k).parseErr + 1 })
      else if setup.disableNf then (.route k burst, enqueuePort env pkt port s)
      else (.route k burst, enqueueNfRx env pkt port s)
  | .flushPort again k, s =>
      if k < nbKni then (.flushPort again (k + 1), flushPortQueue env k s)
      else (.flushNf again 0, s)
  | .flushNf again c, s =>
      if c < nbCoproc then (.flushNf again (c + 1), flushNfRxQueue env c s)
      -- The second half of the function is not compiled with `DISABLE_NF`.
      else if again || setup.disableNf then (.rxBurst 0, s)
      else (.dequeue 0, s)
  | .dequeue c, s =>
      if c < nbCoproc then
        let n := min env.avail pktBurstSz
        (.forward c ((s.nf c).txQ.take n),
          s.setNf c { s.nf c with txQ := (s.nf c).txQ.drop n })
      else (.flushPort true 0, s)
  | .forward c [], s => (.dequeue (c + 1), s)
  | .forward c (pkt :: burst), s => (.forward c burst, enqueuePort env pkt c s)

/-- Where the thread of a coprocessor is. -/
inductive CoprocPc where
  /-- At the beginning of the function. -/
  | start
  /-- In the loop over the packets it received. -/
  | process (burst : List Mbuf)

/-- One step of `coprocessor` on the lcore `lcoreId`. -/
def coprocStep (setup : Setup) (env : Env) (lcoreId : Nat) :
    CoprocPc → State → CoprocPc × State
  | .start, s =>
      let n := min env.avail pktBurstSz
      (.process ((s.nf lcoreId).rxQ.take n),
        s.setNf lcoreId { s.nf lcoreId with rxQ := (s.nf lcoreId).rxQ.drop n })
  | .process [], s => (.start, flushNfTxQueue env lcoreId s)
  | .process (pkt :: burst), s =>
      let ret := processPacket setup pkt
      let s := s.note (.processed lcoreId pkt ret)
      if ret = 0 then (.process burst, enqueueNfTx env pkt lcoreId s)
      else (.process burst, rtePktmbufFree pkt s)

end GhostDataplane.Engine
