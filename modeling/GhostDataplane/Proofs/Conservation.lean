import GhostDataplane.Proofs.PipeSteps

/-!
# No packet is lost or doubled

Every packet that `rte_kni_rx_burst` ever returned is in one place, once:
freed, taken by a port, in a staging buffer or a ring, or in the burst that
some thread is working on. `Pipe.Conserved` says so of the pipe, and
`Conserved.move` needs to know no more of a move than where it carries
packets from and to, which is `Pipe.Move.carries`.

The places are those of the five ports: `confined` says that nothing ever
lies at an index that the arrays of the engine do not have. That is where the
routing table comes in. `read_config` leaves every destination with one of
the five ports or with none, so an index that reaches an enqueue is below
`nb_active_kni`, and the early return that would leak the packet is never
taken.
-/

namespace GhostDataplane.Engine

open GhostDataplane.Lib

/-- The place is there: its index is that of a port. -/
def Place.Valid : Place → Prop
  | .routing | .freed => True
  | .nfRx i | .rxQ i | .inspecting i | .nfTx i | .txQ i | .forwarding i | .tx i
  | .accepted i => i < kniKthread

theorem Edge.ne {a b : Place} (he : Edge a b) : a ≠ b := by
  cases he <;> exact Place.noConfusion

theorem Lossy.ne_freed {a : Place} (ha : Lossy a) : a ≠ .freed := by
  cases ha <;> exact Place.noConfusion

namespace Pipe

theorem entry_valid {setup : Setup} {i : Nat} (hi : i < kniKthread) :
    (entry setup i).Valid := by
  unfold entry
  split <;> exact hi

theorem entry_ne_routing {setup : Setup} {i : Nat} :
    entry setup i ≠ .routing := by
  unfold entry
  split <;> exact Place.noConfusion

/-- What a move does to the places. -/
theorem Move.carries {setup : Setup} {q q' : Pipe} (h : Move setup q q') :
    (∃ pkts : List Mbuf, pkts.Nodup ∧ (∀ pkt ∈ pkts, pkt ∉ q.received) ∧
      q'.bank = q.bank.arrive .routing pkts ∧
      q'.received = q.received ++ pkts) ∨
    q'.received = q.received ∧ (q'.bank = q.bank ∨
      ∃ a b n, a ≠ b ∧ (a.Valid → b.Valid) ∧
        q'.bank = q.bank.shift a b n) := by
  cases h with
  | @arrive pkts hnodup hfresh =>
      exact Or.inl ⟨pkts, hnodup, hfresh, rfl, rfl⟩
  | refuse =>
      exact Or.inr ⟨rfl, Or.inr
        ⟨.routing, .freed, 1, Place.noConfusion, fun _ => trivial, rfl⟩⟩
  | @stage pkt rest i _ _ hi =>
      exact Or.inr ⟨rfl, Or.inr ⟨.routing, entry setup i, 1,
        entry_ne_routing.symm, fun _ => entry_valid hi, rfl⟩⟩
  | @advance a b n he =>
      refine Or.inr ⟨rfl, Or.inr ⟨a, b, n, he.ne, ?_, rfl⟩⟩
      cases he <;> exact id
  | @pass pkt rest i =>
      exact Or.inr ⟨rfl, Or.inr
        ⟨.inspecting i, .nfTx i, 1, Place.noConfusion, id, rfl⟩⟩
  | @reject pkt rest i =>
      exact Or.inr ⟨rfl, Or.inr
        ⟨.inspecting i, .freed, 1, Place.noConfusion, fun _ => trivial, rfl⟩⟩
  | hand => exact Or.inr ⟨rfl, Or.inl rfl⟩
  | @lose a n ha =>
      exact Or.inr ⟨rfl, Or.inr
        ⟨a, .freed, n, ha.ne_freed, fun _ => trivial, rfl⟩⟩

/-- The packets received are where the engine can find them. -/
structure Conserved (q : Pipe) : Prop where
  sound : q.bank.Sound q.received
  confined : ∀ a : Place, ¬ a.Valid → q.bank a = []

theorem conserved_empty : Conserved empty :=
  ⟨⟨fun _ h => absurd h List.not_mem_nil, fun _ _ _ => List.not_mem_nil⟩,
    fun _ _ => rfl⟩

theorem Conserved.move {setup : Setup} {q q' : Pipe} (h : Conserved q)
    (hm : Move setup q q') : Conserved q' := by
  rcases hm.carries with ⟨pkts, hnodup, hfresh, hbank, hrec⟩ | ⟨hrec, hbank⟩
  · refine ⟨hrec ▸ hbank ▸ h.sound.arrive hnodup hfresh, fun a ha => ?_⟩
    have hrouting : a ≠ .routing := fun heq => ha (heq ▸ trivial)
    rw [hbank, Bank.arrive_other hrouting, h.confined a ha]
  · rcases hbank with hbank | ⟨a, b, n, hab, hvalid, hbank⟩
    · exact ⟨hrec ▸ hbank ▸ h.sound, hbank ▸ h.confined⟩
    · refine ⟨hrec ▸ hbank ▸ h.sound.shift hab, fun c hc => ?_⟩
      rw [hbank]
      by_cases ha : a.Valid
      · have hca : c ≠ a := fun heq => hc (heq ▸ ha)
        have hcb : c ≠ b := fun heq => hc (heq ▸ hvalid ha)
        rw [Bank.shift_other hca hcb, h.confined c hc]
      · rw [Bank.shift_nil (h.confined a ha), h.confined c hc]

theorem Moves.conserved {setup : Setup} {q : Pipe} (h : Moves setup empty q) :
    Conserved q :=
  h.invariant conserved_empty fun _ _ _ hq hm => hq.move hm

end Pipe

/-- Every packet received lies in exactly one of the places that exist, exactly
once, and nothing else lies anywhere; and an index that a thread is about to
hand to `enqueue_nf_rx`, `enqueue_port` or `enqueue_nf_tx` is below
`nb_active_kni`. -/
theorem packets_conserved {setup : Setup} {w : World} (h : Reachable setup w) :
    (∀ pkt ∈ received w.state.log, ∃ a : Place, a.Valid ∧
      ∀ b, (w.bank b).count pkt = if b = a then 1 else 0) ∧
    (∀ pkt, pkt ∉ received w.state.log → ∀ b, pkt ∉ w.bank b) ∧
    (∀ k pkt burst, w.fast = .route k (pkt :: burst) →
      getNextHop w.state.txMgr.routingTable (setup.bytes pkt) ≠ unknownPort →
      getNextHop w.state.txMgr.routingTable (setup.bytes pkt) <
        w.state.txMgr.nbActiveKni) ∧
    (∀ c pkt burst, w.fast = .forward c (pkt :: burst) →
      c < w.state.txMgr.nbActiveKni) ∧
    (∀ i pkt burst, w.coproc i = .process (pkt :: burst) →
      i < w.state.txMgr.nbActiveKni) := by
  have hw := wired_of_reachable h
  have hq := (pipe_moves_of_reachable h).conserved
  refine ⟨fun pkt hpkt => ?_, hq.sound.none, fun k pkt burst _ hport => ?_,
    fun c pkt burst hpc => ?_, fun i pkt burst hpc => ?_⟩
  · obtain ⟨a, ha⟩ := hq.sound.one pkt hpkt
    refine ⟨a, ?_, ha⟩
    by_contra hvalid
    have hcount := ha a
    rw [if_pos rfl, hq.confined a hvalid] at hcount
    exact Nat.zero_ne_one hcount
  · rw [hw.conf.table] at hport ⊢
    rw [hw.conf.nb]
    exact (nextHop_routed setup pkt).resolve_left hport
  · rw [hw.conf.nb]
    exact hw.forward c _ hpc
  · rw [hw.conf.nb]
    exact hw.process i _ hpc

/-- IPv4 packets for port `pkt % 5`, of which the firewall drops number 1. -/
def sampleSetup : Setup where
  disableNf := false
  bytes pkt off :=
    match off with
    | 12 => 0x08
    | 32 => 10
    | 33 => UInt8.ofNat (pkt % 5 + 1)
    | _ => 0
  fwPacketHandler pkt := if pkt = 1 then .drop else .forward

/-- What a step is told when the rings and the ports take everything. -/
def sampleEnv : Env := ⟨[], pktBurstSz, true, pktBurstSz⟩

/-- Two iterations of the fast path. Port 0 sends the packets 0, 1 and 5, and
coprocessors 0 and 1 each run once in the middle of the first. -/
def sampleRun : List Action :=
  .fast { sampleEnv with burst := [0, 1, 5] } ::
    List.replicate 24 (.fast sampleEnv) ++
    List.replicate 4 (.coproc 0 sampleEnv) ++
    List.replicate 3 (.coproc 1 sampleEnv) ++
    List.replicate 16 (.fast sampleEnv)

/-- The sample run after its first `n` actions. -/
def World.sample (n : Nat) : World :=
  World.start.run sampleSetup (sampleRun.take n)

theorem sample_reachable {n : Nat} (hn : n ≤ sampleRun.length) :
    Reachable sampleSetup (World.sample n) := by
  have hkept : ∀ n ≤ sampleRun.length,
      kept sampleSetup World.start (sampleRun.take n) = true := by
    decide +kernel
  exact Reachable.run (.init rfl) (hkept n hn)

/-- In the middle of the run the three packets are in three places. -/
theorem packets_conserved_midway :
    received (World.sample 27).state.log = [0, 1, 5] ∧
      (World.sample 27).bank (.nfTx 0) = [0] ∧
      (World.sample 27).bank (.rxQ 1) = [1] ∧
      (World.sample 27).bank (.inspecting 0) = [5] ∧
      ∀ pkt ∈ received (World.sample 27).state.log, ∃ a : Place, a.Valid ∧
        ∀ b, ((World.sample 27).bank b).count pkt = if b = a then 1 else 0 :=
  ⟨by decide +kernel, by decide +kernel, by decide +kernel, by decide +kernel,
    (packets_conserved (sample_reachable (by decide))).1⟩

end GhostDataplane.Engine
