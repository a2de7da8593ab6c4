import GhostDataplane.Engine.Stats
import GhostDataplane.Proofs.Staging
import Mathlib.Algebra.BigOperators.Group.Finset.Basic
import Mathlib.Algebra.BigOperators.Group.Finset.Piecewise

/-!
# The counters balance

A counter is bumped when a buffer is flushed, which can be many steps after
the packet was put there. `entered` closes the gap: what a buffer's counters
say, sent and dropped together, and what is in the buffer now. A flush does
not change it, and an enqueue adds one.

With that the balance holds between any two steps, up to the packets that the
fast path has in hand: every packet that arrived was refused, entered one of
the buffers at the entry or is still to be routed, and every packet that was
fetched from a coprocessor entered the buffer of its port or is still to be
forwarded. At the end of an iteration nothing is in hand and the buffers are
empty.
-/

namespace GhostDataplane.Engine

open GhostDataplane.Lib

/-- The packets that a stage sent or dropped. -/
def Stage.counted : Stage → KniInterfaceStats → CoprocessorStats → Nat
  | .port, k, _ => k.txPackets + k.txDropped
  | .nfRx, _, c => c.rxPackets + c.rxDropped
  | .nfTx, _, c => c.txPackets + c.txDropped

theorem counted_add (st : Stage) (k k' : KniInterfaceStats)
    (c c' : CoprocessorStats) :
    st.counted (k.add k') (c.add c') = st.counted k c + st.counted k' c' := by
  cases st <;>
    simp only [Stage.counted, KniInterfaceStats.add, CoprocessorStats.add] <;>
      omega

/-- The packets that ever entered the buffer, as far as the counters go back. -/
def Stage.entered (st : Stage) (s : State) (i : Nat) : Nat :=
  st.counted (s.kniStats i) (s.nfStats i) + (st.buf s i).length

/-! ## What the operations do to the counters -/

section Operations

variable {st st' : Stage} {env : Env} {i j : Nat} {s : State}

theorem setBuf_stats {b : PacketBuf} :
    (st.setBuf s i b).kniStats = s.kniStats ∧
      (st.setBuf s i b).nfStats = s.nfStats := by
  cases st <;> exact ⟨rfl, rfl⟩

theorem deliver_stats {b : PacketBuf} {n : Nat} :
    (st.deliver i b n s).kniStats = s.kniStats ∧
      (st.deliver i b n s).nfStats = s.nfStats := by
  cases st <;> exact ⟨rfl, rfl⟩

theorem freeAll_stats {pkts : List Mbuf} :
    (freeAll pkts s).kniStats = s.kniStats ∧
      (freeAll pkts s).nfStats = s.nfStats := by
  rw [freeAll_eq]
  exact ⟨rfl, rfl⟩

theorem counted_count {n m : Nat} :
    st'.counted ((st.count i n m s).kniStats j) ((st.count i n m s).nfStats j) =
      st'.counted (s.kniStats j) (s.nfStats j) +
        if st' = st ∧ j = i then n + m else 0 := by
  by_cases hj : j = i
  · subst hj
    cases st <;> cases st' <;>
      simp [Stage.count, Stage.counted, State.setKniStats, State.setNfStats] <;>
      omega
  · cases st <;> cases st' <;>
      simp [Stage.count, Stage.counted, State.setKniStats, State.setNfStats, hj]

/-- A flush moves packets from the buffer to the counters. -/
theorem entered_flush (hi : i < s.txMgr.nbActiveKni) :
    st'.entered (flush st env i s) j = st'.entered s j := by
  by_cases hempty : st.buf s i = []
  · rw [flush_idle hempty]
  · have hbuf : st'.buf (flush st env i s) j = _ := buf_flush hi
    have hidx : ¬ i ≥ s.txMgr.nbActiveKni := by omega
    have hlen : (st.buf s i).length ≠ 0 := by simpa using hempty
    have hsent := st.sent_le env (st.buf s i).length
    rw [Stage.entered, hbuf, Stage.entered]
    simp only [flush, if_neg hidx, if_neg hlen, setBuf_stats, counted_count,
      freeAll_stats, deliver_stats]
    split
    · next h =>
        obtain ⟨rfl, rfl⟩ := h
        rw [List.length_nil]
        omega
    · rfl

/-- An enqueue adds a packet. -/
theorem entered_enqueue {pkt : Mbuf} (hi : i < s.txMgr.nbActiveKni) :
    st'.entered (enqueue st env pkt i s) j =
      st'.entered s j + if st' = st ∧ j = i then 1 else 0 := by
  have hput : st'.entered (st.setBuf s i (st.buf s i ++ [pkt])) j =
      st'.entered s j + if st' = st ∧ j = i then 1 else 0 := by
    rw [Stage.entered, Stage.entered, buf_setBuf, setBuf_stats.1,
      setBuf_stats.2]
    split
    · next h =>
        obtain ⟨rfl, rfl⟩ := h
        rw [List.length_append, List.length_singleton]
        omega
    · rfl
  have hcases : enqueue st env pkt i s = _ ∨ enqueue st env pkt i s = _ :=
    enqueue_eq hi
  rcases hcases with h | h
  · rw [h, hput]
  · have hnb : (st.setBuf s i (st.buf s i ++ [pkt])).txMgr.nbActiveKni =
        s.txMgr.nbActiveKni := setBuf_nb
    rw [h, entered_flush (hnb ▸ hi), hput]

/-- What a port received and what of it was refused is not the business of a
buffer. -/
theorem flush_intake :
    ((flush st env i s).kniStats j).rxPackets = (s.kniStats j).rxPackets ∧
      ((flush st env i s).kniStats j).parseErr = (s.kniStats j).parseErr := by
  unfold flush
  simp only
  split
  · exact ⟨rfl, rfl⟩
  · split
    · exact ⟨rfl, rfl⟩
    · rw [setBuf_stats.1]
      cases st with
      | port =>
          by_cases hj : j = i
          · subst hj
            simp [Stage.count, State.setKniStats, freeAll_stats, deliver_stats]
          · simp [Stage.count, State.setKniStats, freeAll_stats,
              deliver_stats, hj]
      | nfRx | nfTx =>
          simp [Stage.count, State.setNfStats, freeAll_stats, deliver_stats]

theorem enqueue_intake {pkt : Mbuf} :
    ((enqueue st env pkt i s).kniStats j).rxPackets = (s.kniStats j).rxPackets ∧
      ((enqueue st env pkt i s).kniStats j).parseErr =
        (s.kniStats j).parseErr := by
  by_cases hi : i < s.txMgr.nbActiveKni
  · have hcases : enqueue st env pkt i s = _ ∨ enqueue st env pkt i s = _ :=
      enqueue_eq hi
    rcases hcases with h | h
    · rw [h, setBuf_stats.1]
      exact ⟨rfl, rfl⟩
    · rw [h, flush_intake.1, flush_intake.2, setBuf_stats.1]
      exact ⟨rfl, rfl⟩
  · rw [enqueue_outside hi]
    exact ⟨rfl, rfl⟩

end Operations

/-! ## In and out -/

/-- Where a packet that has a port is put. -/
def Setup.entry (setup : Setup) :
    Stage := if setup.disableNf then .port else .nfRx

/-- The packets in hand that have yet to be routed. -/
def FastPc.routing : FastPc → Nat
  | .route _ burst => burst.length
  | _ => 0

/-- The packets in hand that are for port `i`. -/
def FastPc.forwarding (i : Nat) : FastPc → Nat
  | .forward c burst => if c = i then burst.length else 0
  | _ => 0

/-- The sum over the five ports, or over the five coprocessors. -/
def total (f : Nat → Nat) : Nat := ∑ i ∈ Finset.range kniKthread, f i

theorem total_add (f g : Nat → Nat) :
    total (fun i => f i + g i) = total f + total g := Finset.sum_add_distrib

theorem total_single {i n : Nat} (hi : i < kniKthread) :
    total (fun j => if j = i then n else 0) = n := by
  rw [total, Finset.sum_ite_eq', if_pos (Finset.mem_range.mpr hi)]

theorem total_zero : total (fun _ => 0) = 0 := Finset.sum_const_zero

/-- What a step adds: `rx` to what the ports received, `err` to what was
refused, `ent` to what entered the buffers of the fast path. -/
structure Flow (s s' : State) (rx err : Nat → Nat) (ent : Stage → Nat → Nat) :
    Prop where
  rx : ∀ k, (s'.kniStats k).rxPackets = (s.kniStats k).rxPackets + rx k
  err : ∀ k, (s'.kniStats k).parseErr = (s.kniStats k).parseErr + err k
  ent : ∀ st i, st ≠ .nfTx → st.entered s' i = st.entered s i + ent st i

section Flow

variable {st : Stage} {env : Env} {i : Nat} {s s' : State}

theorem Flow.refl : Flow s s (fun _ => 0) (fun _ => 0) (fun _ _ => 0) :=
  ⟨fun _ => rfl, fun _ => rfl, fun _ _ _ => rfl⟩

theorem Flow.flush (hi : i < s.txMgr.nbActiveKni) :
    Flow s (flush st env i s) (fun _ => 0) (fun _ => 0) (fun _ _ => 0) :=
  ⟨fun _ => flush_intake.1, fun _ => flush_intake.2,
    fun _ _ _ => entered_flush hi⟩

theorem Flow.enqueue {pkt : Mbuf} (hi : i < s.txMgr.nbActiveKni) :
    Flow s (enqueue st env pkt i s) (fun _ => 0) (fun _ => 0)
      (fun st' j => if st' = st ∧ j = i then 1 else 0) :=
  ⟨fun _ => enqueue_intake.1, fun _ => enqueue_intake.2,
    fun _ _ _ => entered_enqueue hi⟩

/-- A step that leaves the counters and the buffers alone. -/
theorem Flow.idle (hkni : s'.kniStats = s.kniStats)
    (hnf : s'.nfStats = s.nfStats)
    (hbuf : ∀ st i, Stage.buf st s' i = Stage.buf st s i) :
    Flow s s' (fun _ => 0) (fun _ => 0) (fun _ _ => 0) :=
  ⟨fun k => congrArg (fun f => (f k).rxPackets) hkni,
    fun k => congrArg (fun f => (f k).parseErr) hkni,
    fun st i _ => by simp only [Stage.entered, hkni, hnf, hbuf, Nat.add_zero]⟩

/-- A step that bumps the counters of what a port received and refused. -/
theorem Flow.intake {s₁ : State} {k n e : Nat} (hkni : s₁.kniStats = s.kniStats)
    (hnf : s₁.nfStats = s.nfStats)
    (hbuf : ∀ st i, Stage.buf st s₁ i = Stage.buf st s i) :
    Flow s (s₁.setKniStats k { s.kniStats k with
        rxPackets := (s.kniStats k).rxPackets + n
        parseErr := (s.kniStats k).parseErr + e })
      (fun j => if j = k then n else 0) (fun j => if j = k then e else 0)
      (fun _ _ => 0) := by
  refine ⟨fun j => ?_, fun j => ?_, fun st j hst => ?_⟩
  · by_cases hj : j = k
    · subst hj
      simp [State.setKniStats]
    · simp [State.setKniStats, hkni, hj]
  · by_cases hj : j = k
    · subst hj
      simp [State.setKniStats]
    · simp [State.setKniStats, hkni, hj]
  · rw [Stage.entered, buf_setKniStats, hbuf, Stage.entered]
    by_cases hj : j = k
    · subst hj
      cases st <;> simp [Stage.counted, State.setKniStats, hnf]
    · cases st <;> simp [Stage.counted, State.setKniStats, hkni, hnf, hj]

end Flow

/-! ## The steps -/

/-- The fast path works on a port that exists, and looks at the coprocessors
only where there are some. -/
def Lanes (setup : Setup) : FastPc → Prop
  | .route k _ => k < kniKthread
  | .dequeue _ | .forward _ _ => setup.disableNf = false
  | .rxBurst _ | .flushPort _ _ | .flushNf _ _ => True

section Steps

variable {setup : Setup} {w : World} {env : Env}

/-- Every packet in hand goes somewhere. -/
structure Settles (setup : Setup) (w : World) (pc : FastPc) (s' : State) :
    Prop where
  flow : ∃ rx err ent, Flow w.state s' rx err ent ∧
    total rx + w.fast.routing =
      total err + total (ent setup.entry) + pc.routing ∧
    (setup.disableNf = false → ∀ d i, ent .port i + pc.forwarding i + d i =
      w.fast.forwarding i + countDequeued w.fast pc d i)
  lanes : Lanes setup pc

/-- A step that neither takes a packet in hand nor lets one go. -/
theorem Settles.quiet {pc pc' : FastPc} {s' : State} (hpc : w.fast = pc)
    (hflow : Flow w.state s' (fun _ => 0) (fun _ => 0) (fun _ _ => 0))
    (hrouting : pc'.routing = pc.routing)
    (hforwarding : ∀ d i, pc'.forwarding i + d i =
      pc.forwarding i + countDequeued pc pc' d i)
    (hl : Lanes setup pc') : Settles setup w pc' s' := by
  subst hpc
  refine ⟨⟨_, _, _, hflow, ?_, fun _ d i => ?_⟩, hl⟩
  · rw [hrouting]
    simp only [total_zero, Nat.zero_add]
  · rw [Nat.zero_add]
    exact hforwarding d i

/-- A step that bumps the counters of port `k` by as many packets as it takes
in hand. -/
theorem Settles.intake {pc : FastPc} {s₁ : State} {k n e : Nat}
    {burst : List Mbuf} (hpc : w.fast = pc) (hk : k < kniKthread)
    (hkni : s₁.kniStats = w.state.kniStats) (hnf : s₁.nfStats = w.state.nfStats)
    (hbuf : ∀ st i, Stage.buf st s₁ i = Stage.buf st w.state i)
    (hrouting : n + pc.routing = e + burst.length)
    (hforwarding : ∀ d i,
      d i = pc.forwarding i + countDequeued pc (.route k burst) d i) :
    Settles setup w (.route k burst) (s₁.setKniStats k { w.state.kniStats k with
      rxPackets := (w.state.kniStats k).rxPackets + n
      parseErr := (w.state.kniStats k).parseErr + e }) := by
  subst hpc
  refine ⟨⟨_, _, _, .intake hkni hnf hbuf, ?_, fun _ d i => ?_⟩, hk⟩
  · rw [total_single hk, total_single hk, total_zero, hrouting]
    rfl
  · rw [← hforwarding]
    exact Nat.zero_add _

/-- A packet that is routed enters a buffer at the entry. -/
theorem Settles.enter {k port : Nat} {pkt : Mbuf} {burst : List Mbuf}
    (hpc : w.fast = .route k (pkt :: burst)) (hk : k < kniKthread)
    (hport : port < kniKthread) (hnb : w.state.txMgr.nbActiveKni = kniKthread) :
    Settles setup w (.route k burst)
      (enqueue setup.entry env pkt port w.state) := by
  refine ⟨⟨_, _, _, .enqueue (hnb ▸ hport), ?_, fun hnf d i => ?_⟩, hk⟩
  · simp only [true_and, total_single hport, total_zero, hpc, FastPc.routing,
      List.length_cons]
    omega
  · have hentry : setup.entry = .nfRx := by simp [Setup.entry, hnf]
    simp [hentry, hpc, FastPc.forwarding, countDequeued]

/-- A packet that comes from a coprocessor goes to its port. -/
theorem Settles.leave {c : Nat} {pkt : Mbuf} {burst : List Mbuf}
    (hpc : w.fast = .forward c (pkt :: burst)) (hc : c < kniKthread)
    (hnf : setup.disableNf = false)
    (hnb : w.state.txMgr.nbActiveKni = kniKthread) :
    Settles setup w (.forward c burst) (enqueue .port env pkt c w.state) := by
  have hentry : setup.entry = .nfRx := by simp [Setup.entry, hnf]
  refine ⟨⟨_, _, _, .enqueue (hnb ▸ hc), ?_, fun _ d i => ?_⟩, hnf⟩
  · simp [hentry, hpc, FastPc.routing, total_zero]
  · rw [hpc]
    by_cases hi : c = i
    · subst hi
      simp [FastPc.forwarding, countDequeued]
      omega
    · simp [FastPc.forwarding, countDequeued, hi, Ne.symm hi]

/-- A burst that is dequeued is in hand. -/
theorem forwarding_add_eq_countDequeued (c : Nat) (burst : List Mbuf)
    (d : Nat → Nat) (i : Nat) :
    (FastPc.forward c burst).forwarding i + d i =
      countDequeued (.dequeue c) (.forward c burst) d i := by
  by_cases hi : c = i
  · subst hi
    simp [FastPc.forwarding, countDequeued]
    omega
  · simp [FastPc.forwarding, countDequeued, hi, Ne.symm hi]

theorem fastStep_settles (env : Env) (hw : Wired w) (hl : Lanes setup w.fast) :
    Settles setup w (fastStep setup kniKthread kniKthread env w.fast w.state).1
      (fastStep setup kniKthread kniKthread env w.fast w.state).2 := by
  have hnb := hw.conf.nb
  cases hpc : w.fast with
  | rxBurst k =>
      rw [fastStep]
      split
      · next hk =>
          exact .intake (e := 0) hpc hk rfl rfl (fun _ _ => buf_note)
            (Nat.add_comm _ _) fun d i => (Nat.zero_add _).symm
      · exact .quiet hpc .refl rfl (fun _ _ => rfl) trivial
  | route k burst =>
      have hk : k < kniKthread := by rwa [hpc] at hl
      cases burst with
      | nil => exact .quiet hpc .refl rfl (fun _ _ => rfl) trivial
      | cons pkt burst =>
          rw [fastStep]
          simp only
          split
          · refine .intake (n := 0) hpc hk rfl rfl (fun _ _ => buf_note) ?_
              fun d i => (Nat.zero_add _).symm
            rw [FastPc.routing, List.length_cons]
            omega
          · next hne =>
              have hport : getNextHop w.state.txMgr.routingTable
                  (setup.bytes pkt) < kniKthread := by
                rw [hw.conf.table] at hne ⊢
                exact (nextHop_routed setup pkt).resolve_left hne
              have henter : Settles setup w (.route k burst)
                  (enqueue setup.entry env pkt _ w.state) :=
                .enter hpc hk hport hnb
              split
              · next hnf =>
                  rwa [show setup.entry = .port from if_pos hnf] at henter
              · next hnf =>
                  rwa [show setup.entry = .nfRx from if_neg hnf] at henter
  | flushPort again k =>
      rw [fastStep]
      split
      · next hk =>
          exact .quiet hpc (.flush (hnb ▸ hk)) rfl (fun _ _ => rfl) trivial
      · exact .quiet hpc .refl rfl (fun _ _ => rfl) trivial
  | flushNf again c =>
      rw [fastStep]
      split
      · next hc =>
          exact .quiet hpc (.flush (hnb ▸ hc)) rfl (fun _ _ => rfl) trivial
      · split
        · exact .quiet hpc .refl rfl (fun _ _ => rfl) trivial
        · next hnf =>
            simp only [Bool.or_eq_true, not_or, Bool.not_eq_true] at hnf
            exact .quiet hpc .refl rfl (fun _ _ => rfl) hnf.2
  | dequeue c =>
      have hnf : setup.disableNf = false := by rwa [hpc] at hl
      rw [fastStep]
      split
      · refine .quiet hpc
          (.idle rfl rfl fun st i => buf_setNf (by rfl) (by rfl))
          rfl (fun d i => ?_) hnf
        exact (forwarding_add_eq_countDequeued c _ d i).trans
          (Nat.zero_add _).symm
      · exact .quiet hpc .refl rfl (fun _ _ => rfl) trivial
  | forward c burst =>
      have hnf : setup.disableNf = false := by rwa [hpc] at hl
      cases burst with
      | nil =>
          rw [fastStep]
          refine .quiet hpc .refl rfl (fun d i => ?_) hnf
          simp [FastPc.forwarding, countDequeued]
      | cons pkt burst => exact .leave hpc (hw.forward c _ hpc) hnf hnb

/-- A coprocessor leaves all this alone. -/
theorem coprocStep_flow {i : Nat} (hi : i < w.state.txMgr.nbActiveKni)
    (pc : CoprocPc) :
    Flow w.state (coprocStep setup env i pc w.state).2 (fun _ => 0) (fun _ => 0)
      (fun _ _ => 0) := by
  cases pc with
  | start => exact .idle rfl rfl fun st j => buf_setNf (by rfl) (by rfl)
  | process burst =>
      cases burst with
      | nil => exact .flush hi
      | cons pkt burst =>
          rw [coprocStep]
          split
          · have henq :
                Flow (w.state.note _)
                  (enqueueNfTx env pkt i (w.state.note
                    (.processed i pkt (processPacket setup pkt)))) _ _ _ :=
              .enqueue hi
            refine ⟨henq.rx, henq.err,
              fun st j hst => (henq.ent st j hst).trans ?_⟩
            simp only [hst, false_and, if_false, Nat.add_zero]
            rw [Stage.entered, buf_note]
            rfl
          · exact .idle rfl rfl fun st j => buf_note.trans buf_note

end Steps

/-! ## Under the meter -/

/-- The packets that ever entered the buffer. -/
def Meter.entered (m : Meter) (st : Stage) (i : Nat) : Nat :=
  st.counted (m.kniTotal i) (m.nfTotal i) + (st.buf m.world.state i).length

theorem Meter.entered_eq (m : Meter) (st : Stage) (i : Nat) :
    m.entered st i =
      st.counted (m.kni i) (m.nf i) + st.entered m.world.state i := by
  rw [Meter.entered, Meter.kniTotal, Meter.nfTotal, counted_add, Stage.entered,
    Nat.add_assoc]

/-- Everything that came in is accounted for. -/
structure Balanced (setup : Setup) (m : Meter) : Prop where
  arrivals : total (fun k => (m.kniTotal k).rxPackets) =
    total (fun k => (m.kniTotal k).parseErr) +
      total (fun i => m.entered setup.entry i) + m.world.fast.routing
  departures : setup.disableNf = false →
    ∀ i, m.entered .port i + m.world.fast.forwarding i = m.dequeued i

section Meter

variable {setup : Setup} {m : Meter}

/-- What a step of the engine adds shows in the totals. -/
theorem Flow.meter {w : World} {d rx err : Nat → Nat} {ent : Stage → Nat → Nat}
    (h : Flow m.world.state w.state rx err ent) :
    let m' : Meter := { m with world := w, dequeued := d }
    total (fun k => (m'.kniTotal k).rxPackets) =
      total (fun k => (m.kniTotal k).rxPackets) + total rx ∧
    total (fun k => (m'.kniTotal k).parseErr) =
      total (fun k => (m.kniTotal k).parseErr) + total err ∧
    ∀ st i, st ≠ .nfTx → m'.entered st i = m.entered st i + ent st i := by
  intro m'
  refine ⟨?_, ?_, fun st i hst => ?_⟩
  · rw [← total_add]
    refine congrArg total (funext fun k => ?_)
    have hk : (m'.kniTotal k).rxPackets =
        (m.kni k).rxPackets + (w.state.kniStats k).rxPackets := rfl
    rw [hk, h.rx k, ← Nat.add_assoc]
    rfl
  · rw [← total_add]
    refine congrArg total (funext fun k => ?_)
    have hk : (m'.kniTotal k).parseErr =
        (m.kni k).parseErr + (w.state.kniStats k).parseErr := rfl
    rw [hk, h.err k, ← Nat.add_assoc]
    rfl
  · rw [m'.entered_eq, m.entered_eq, h.ent st i hst, Nat.add_assoc]

theorem entry_ne (setup : Setup) : setup.entry ≠ .nfTx := by
  unfold Setup.entry
  split <;> decide

/-- A step that settles what it has in hand keeps the balance. -/
theorem Balanced.flow {w : World} {d rx err : Nat → Nat}
    {ent : Stage → Nat → Nat} (h : Balanced setup m)
    (hflow : Flow m.world.state w.state rx err ent)
    (harrive : total rx + m.world.fast.routing =
      total err + total (ent setup.entry) + w.fast.routing)
    (hdepart : setup.disableNf = false → ∀ i,
      ent .port i + w.fast.forwarding i + m.dequeued i =
        m.world.fast.forwarding i + d i) :
    Balanced setup { m with world := w, dequeued := d } := by
  obtain ⟨hrx, herr, hent⟩ := hflow.meter (m := m) (w := w) (d := d)
  constructor
  · have hentered : total (fun i => Meter.entered
        { m with world := w, dequeued := d } setup.entry i) =
        total (fun i => m.entered setup.entry i) + total (ent setup.entry) := by
      rw [← total_add]
      exact congrArg total (funext fun i => hent _ i (entry_ne setup))
    have hbefore := h.arrivals
    simp only [hrx, herr, hentered]
    omega
  · intro hnf i
    have hbefore := h.departures hnf i
    have hafter := hdepart hnf i
    rw [hent .port i (by decide)]
    simp only
    omega

/-- What a run of the engine under the meter keeps. -/
structure Metered (setup : Setup) (m : Meter) : Prop where
  wired : Wired m.world
  staged : Staged m.world
  lanes : Lanes setup m.world.fast
  balanced : Balanced setup m

theorem Metered.engine {a : Action} (h : Metered setup m)
    (hlaunched : launched setup a) :
    Metered setup (m.step setup (.engine a)) := by
  cases a with
  | fast env =>
      have hsettles : Settles setup m.world _ _ :=
        fastStep_settles env h.wired h.lanes
      obtain ⟨rx, err, ent, hflow, harrive, hdepart⟩ := hsettles.flow
      exact ⟨h.wired.step hlaunched, h.staged.step hlaunched, hsettles.lanes,
        h.balanced.flow hflow harrive fun hnf i => hdepart hnf m.dequeued i⟩
  | coproc i env =>
      have hi : i < m.world.state.txMgr.nbActiveKni := by
        rw [h.wired.conf.nb]
        exact hlaunched.1
      have hcount : countDequeued m.world.fast m.world.fast m.dequeued =
          m.dequeued := by
        cases m.world.fast <;> rfl
      refine ⟨h.wired.step hlaunched, h.staged.step hlaunched, h.lanes,
        h.balanced.flow (coprocStep_flow hi _) ?_ fun _ j => ?_⟩
      · simp only [total_zero, Nat.zero_add]
        rfl
      · rw [Nat.zero_add]
        exact congrArg (m.world.fast.forwarding j + ·) (congrFun hcount j).symm

end Meter

/-! ## Printing -/

/-- Printing moves counters to the printed ones and touches nothing else. -/
structure Printed (m m' : Meter) : Prop where
  fast : m'.world.fast = m.world.fast
  coproc : m'.world.coproc = m.world.coproc
  txMgr : m'.world.state.txMgr = m.world.state.txMgr
  nf : m'.world.state.nf = m.world.state.nf
  kniTotal : m'.kniTotal = m.kniTotal
  nfTotal : m'.nfTotal = m.nfTotal
  dequeued : m'.dequeued = m.dequeued

section Printing

variable {setup : Setup} {m m₁ m' : Meter} {i : Nat}

theorem Printed.trans (h : Printed m m₁) (h' : Printed m₁ m') : Printed m m' :=
  ⟨h'.fast.trans h.fast, h'.coproc.trans h.coproc, h'.txMgr.trans h.txMgr,
    h'.nf.trans h.nf, h'.kniTotal.trans h.kniTotal, h'.nfTotal.trans h.nfTotal,
    h'.dequeued.trans h.dequeued⟩

theorem printed_printKni : Printed m (printKni i m) := by
  refine ⟨rfl, rfl, rfl, rfl, funext fun j => ?_, rfl, rfl⟩
  by_cases hj : j = i
  · subst hj
    simp [Meter.kniTotal, printKni, State.setKniStats, KniInterfaceStats.add]
  · simp [Meter.kniTotal, printKni, State.setKniStats, hj]

theorem printed_printNf : Printed m (printNf i m) := by
  refine ⟨rfl, rfl, rfl, rfl, rfl, funext fun j => ?_, rfl⟩
  by_cases hj : j = i
  · subst hj
    simp [Meter.nfTotal, printNf, State.setNfStats, CoprocessorStats.add]
  · simp [Meter.nfTotal, printNf, State.setNfStats, hj]

theorem printed_printStats : Printed m (printStats m) := by
  have hkni : Printed m (forLoop kniKthread printKni m) :=
    forLoop_invariant (I := Printed m) (fun _ _ _ h => h.trans printed_printKni)
      ⟨rfl, rfl, rfl, rfl, rfl, rfl, rfl⟩
  exact forLoop_invariant (I := Printed m)
    (fun _ _ _ h => h.trans printed_printNf) hkni

theorem Printed.buf (h : Printed m m') (st : Stage) (j : Nat) :
    st.buf m'.world.state j = st.buf m.world.state j := by
  cases st <;> simp only [Stage.buf, h.txMgr, h.nf]

theorem Printed.metered (hp : Printed m m') (h : Metered setup m) :
    Metered setup m' := by
  have hentered : m'.entered = m.entered := by
    funext st j
    simp only [Meter.entered, hp.kniTotal, hp.nfTotal, hp.buf]
  refine ⟨⟨⟨?_, ?_⟩, ?_, ?_⟩, ⟨?_, ?_, ?_⟩, ?_, ⟨?_, ?_⟩⟩
  · rw [hp.txMgr]
    exact h.wired.conf.nb
  · rw [hp.txMgr]
    exact h.wired.conf.table
  · rw [hp.fast]
    exact h.wired.forward
  · rw [hp.coproc]
    exact h.wired.process
  · exact h.staged.bounded.congr (by rw [hp.txMgr]) hp.buf
  · rw [hp.fast]
    exact fun st j hj => (hp.buf st j).trans (h.staged.fast st j hj)
  · rw [hp.coproc]
    exact fun j hj => (hp.buf .nfTx j).trans (h.staged.coproc j hj)
  · rw [hp.fast]
    exact h.lanes
  · rw [hp.kniTotal, hentered, hp.fast]
    exact h.balanced.arrivals
  · rw [hentered, hp.fast, hp.dequeued]
    exact h.balanced.departures

end Printing

theorem metered_start (setup : Setup) : Metered setup Meter.start := by
  have hkni : ∀ k, Meter.start.kniTotal k = {} := fun k => rfl
  have hentered : ∀ st i, st ≠ .nfTx → Meter.start.entered st i = 0 := by
    intro st i hst
    have hempty : st.buf World.start.state i = [] :=
      staged_start.fast st i ⟨rfl, hst⟩
    have hcounted :
        st.counted (Meter.start.kniTotal i) (Meter.start.nfTotal i) = 0 := by
      cases st <;> rfl
    rw [Meter.entered, hcounted,
      show Meter.start.world = World.start from rfl, hempty]
    rfl
  refine ⟨wired_start, staged_start, trivial, ?_, fun _ i => ?_⟩
  · simp only [hkni, funext fun i => hentered setup.entry i (entry_ne setup)]
    rfl
  · rw [hentered .port i (by decide)]
    rfl

theorem metered_of_reach {setup : Setup} {m : Meter}
    (h : (meter setup).Reach (metered setup) m) : Metered setup m := by
  refine Machine.Reach.invariant ?_ ?_ h
  · intro m hm
    rw [show m = Meter.start from hm]
    exact metered_start setup
  · intro m a m' _ hm hok hstep
    rw [show m' = m.step setup a from hstep]
    cases a with
    | engine a => exact hm.engine hok
    | printStats => exact printed_printStats.metered hm

/-- After every iteration of the fast path, however the coprocessors ran
meanwhile and whenever the statistics were printed: what the ports received
was refused, or counted by the coprocessor that it was for; and what was
counted at a port is what was fetched from its coprocessor. In the build
without coprocessors, what was received was refused or counted at a port. -/
theorem counters_balance {setup : Setup} {m : Meter}
    (h : (meter setup).Reach (metered setup) m)
    (hpc : m.world.fast = .rxBurst 0) :
    (setup.disableNf = false →
      ∑ k ∈ Finset.range kniKthread, (m.kniTotal k).rxPackets =
        ∑ k ∈ Finset.range kniKthread, (m.kniTotal k).parseErr +
        ∑ i ∈ Finset.range kniKthread,
          ((m.nfTotal i).rxPackets + (m.nfTotal i).rxDropped) ∧
      ∀ i, (m.kniTotal i).txPackets + (m.kniTotal i).txDropped = m.dequeued i) ∧
    (setup.disableNf = true →
      ∑ k ∈ Finset.range kniKthread, (m.kniTotal k).rxPackets =
        ∑ k ∈ Finset.range kniKthread, (m.kniTotal k).parseErr +
        ∑ i ∈ Finset.range kniKthread,
          ((m.kniTotal i).txPackets + (m.kniTotal i).txDropped)) := by
  have hm := metered_of_reach h
  -- Nothing is in hand, and nothing is in the buffers.
  have hentered : ∀ st i, st ≠ .nfTx →
      m.entered st i = st.counted (m.kniTotal i) (m.nfTotal i) := by
    intro st i hst
    rw [Meter.entered, hm.staged.fast st i (hpc ▸ ⟨rfl, hst⟩)]
    rfl
  have harrive := hm.balanced.arrivals
  rw [hpc, funext fun i => hentered setup.entry i (entry_ne setup)] at harrive
  refine ⟨fun hnf => ⟨?_, fun i => ?_⟩, fun hnf => ?_⟩
  · rw [show setup.entry = .nfRx by simp [Setup.entry, hnf]] at harrive
    exact harrive
  · have hdepart := hm.balanced.departures hnf i
    rw [hpc, hentered .port i (by decide)] at hdepart
    exact hdepart
  · rw [show setup.entry = .port by simp [Setup.entry, hnf]] at harrive
    exact harrive

/-- The meter after these steps of the engine. -/
def Meter.run (setup : Setup) (m : Meter) (actions : List Action) : Meter :=
  actions.foldl (fun m a => m.step setup (.engine a)) m

theorem Meter.reach_run {setup : Setup} {m : Meter} {actions : List Action}
    (h : (meter setup).Reach (metered setup) m)
    (hlaunched : ∀ a ∈ actions, launched setup a) :
    (meter setup).Reach (metered setup) (m.run setup actions) := by
  induction actions generalizing m with
  | nil => exact h
  | cons a actions ih =>
      rw [List.forall_mem_cons] at hlaunched
      exact ih (.step (a := .engine a) h hlaunched.1 rfl) hlaunched.2

/-- Is the fast path between two iterations? -/
def FastPc.between : FastPc → Bool
  | .rxBurst 0 => true
  | _ => false

theorem FastPc.eq_of_between {pc : FastPc} (h : pc.between = true) :
    pc = .rxBurst 0 := by
  cases pc with
  | rxBurst k =>
      cases k with
      | zero => rfl
      | succ k => cases h
  | route k burst | flushPort again k | flushNf again c | dequeue c
  | forward c burst => cases h

instance (setup : Setup) : (a : Action) → Decidable (launched setup a)
  | .fast _ => isTrue trivial
  | .coproc i _ =>
      inferInstanceAs (Decidable (i < kniKthread ∧ setup.disableNf = false))

/-- The sample run, to the end of the iteration. -/
def sampleMeter : Meter :=
  Meter.start.run sampleSetup (sampleRun ++ List.replicate 10 (.fast sampleEnv))

/-- The statistics of the sample run, printed: two of the three packets came
back from coprocessor 0 and went out. -/
theorem counters_balance_sample :
    (printStats sampleMeter).world.state.kniStats 0 = {} ∧
      ((printStats sampleMeter).kniTotal 0).rxPackets = 3 ∧
      ((printStats sampleMeter).kniTotal 0).txPackets = 2 ∧
      ((printStats sampleMeter).kniTotal 0).txPackets +
          ((printStats sampleMeter).kniTotal 0).txDropped =
        (printStats sampleMeter).dequeued 0 := by
  have hpc : sampleMeter.world.fast = .rxBurst 0 :=
    FastPc.eq_of_between (by decide +kernel)
  have hreach : (meter sampleSetup).Reach (metered sampleSetup) sampleMeter :=
    Meter.reach_run (.init rfl) (by decide +kernel)
  have hprinted : (meter sampleSetup).Reach (metered sampleSetup)
      (printStats sampleMeter) := .step (a := .printStats) hreach hpc rfl
  have hfast : (printStats sampleMeter).world.fast = .rxBurst 0 :=
    printed_printStats.fast.trans hpc
  exact ⟨rfl, by decide +kernel, by decide +kernel,
    ((counters_balance hprinted hfast).1 rfl).2 0⟩

end GhostDataplane.Engine
