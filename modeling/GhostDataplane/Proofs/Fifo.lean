import GhostDataplane.Proofs.Inspection

/-!
# Every port is served first in, first out

On its way to port `i` a packet passes through the burst of the fast path, two
staging buffers and a ring in front of the coprocessor, the coprocessor's
burst, as much again behind it, and the staging buffer of the port. Each of
these is flushed, fetched or drained by a different loop, in batches of its
own. `pipeline` puts them in a row; read from the port backwards and looking
only at the packets that the port wants, the row is one queue. Carrying
packets from one stage to the next does not change what is in it, and an
arrival is an arrival at its end.

So the queue together with what the port has taken is what was received for
the port (`Pipe.Streams`), except for what did not fit somewhere. Both builds
have such a row; without the coprocessors it is just shorter.
-/

namespace GhostDataplane.Engine

open GhostDataplane.Lib

/-- Is the packet for port `i`, and does the firewall let it pass? -/
def wanted (setup : Setup) (i : Nat) (pkt : Mbuf) : Bool :=
  decide (nextHop setup pkt = i) &&
    (setup.disableNf || decide (setup.fwPacketHandler pkt = .forward))

/-- The places on the way to port `i`, from the port backwards. -/
def pipeline (setup : Setup) (i : Nat) : List Place :=
  if setup.disableNf then [.accepted i, .tx i, .routing]
  else [.accepted i, .tx i, .forwarding i, .txQ i, .nfTx i, .inspecting i,
    .rxQ i, .nfRx i, .routing]

section Pipeline

variable {setup : Setup} {i j : Nat} {a b : Place} {pkt : Mbuf}

theorem pipeline_nodup : (pipeline setup i).Nodup := by
  unfold pipeline
  split <;> simp

/-- It begins in the burst of the fast path. -/
theorem pipeline_routing :
    ∃ pre, pipeline setup i = pre ++ [.routing] ∧ .routing ∉ pre := by
  unfold pipeline
  split
  · exact ⟨[.accepted i, .tx i], rfl, by simp⟩
  · exact ⟨[.accepted i, .tx i, .forwarding i, .txQ i, .nfTx i, .inspecting i,
      .rxQ i, .nfRx i], rfl, by simp⟩

theorem freed_not_mem_pipeline : Place.freed ∉ pipeline setup i := by
  unfold pipeline
  split <;> simp

/-- The stage `b` comes right after the stage `a`. -/
def Next (setup : Setup) (i : Nat) (a b : Place) : Prop :=
  ∃ pre post, pipeline setup i = pre ++ b :: a :: post

theorem entry_next : Next setup i .routing (Pipe.entry setup i) := by
  unfold Next Pipe.entry pipeline
  split
  · exact ⟨[.accepted i], [], rfl⟩
  · exact ⟨[.accepted i, .tx i, .forwarding i, .txQ i, .nfTx i, .inspecting i,
      .rxQ i], [], rfl⟩

theorem pass_next (hnf : setup.disableNf = false) :
    Next setup i (.inspecting i) (.nfTx i) :=
  ⟨[.accepted i, .tx i, .forwarding i, .txQ i], [.rxQ i, .nfRx i, .routing],
    if_neg (by simp [hnf])⟩

/-- With the coprocessors, every edge of the port is on the way. -/
theorem Edge.next (hnf : setup.disableNf = false) (he : Edge a b)
    (ha : a ∈ pipeline setup i) : Next setup i a b := by
  have hpipe : pipeline setup i = _ := if_neg (by simp [hnf])
  unfold Next
  rw [hpipe] at ha ⊢
  cases he with
  | @flushRx j =>
      obtain rfl : j = i := by simpa using ha
      exact ⟨[_, _, _, _, _, _], [_], rfl⟩
  | @fetch j =>
      obtain rfl : j = i := by simpa using ha
      exact ⟨[_, _, _, _, _], [_, _], rfl⟩
  | @flushTx j =>
      obtain rfl : j = i := by simpa using ha
      exact ⟨[_, _, _], [_, _, _, _], rfl⟩
  | @collect j =>
      obtain rfl : j = i := by simpa using ha
      exact ⟨[_, _], [_, _, _, _, _], rfl⟩
  | @forward j =>
      obtain rfl : j = i := by simpa using ha
      exact ⟨[_], [_, _, _, _, _, _], rfl⟩
  | @transmit j =>
      obtain rfl : j = i := by simpa using ha
      exact ⟨[], [_, _, _, _, _, _, _], rfl⟩

/-- An edge of another port is nowhere on it. -/
theorem Edge.not_mem (hnf : setup.disableNf = false) (he : Edge a b)
    (ha : a ∉ pipeline setup i) : b ∉ pipeline setup i := by
  have hpipe : pipeline setup i = _ := if_neg (by simp [hnf])
  rw [hpipe] at ha ⊢
  cases he <;> simpa using ha

theorem flow_next {k : Bank Place Mbuf} {φ : Mbuf → Bool} {n : Nat}
    (h : Next setup i a b) :
    Bank.flow (pipeline setup i) φ (k.shift a b n) =
      Bank.flow (pipeline setup i) φ k := by
  obtain ⟨pre, post, hpipe⟩ := h
  have hnodup : (pipeline setup i).Nodup := pipeline_nodup
  rw [hpipe] at hnodup ⊢
  exact Bank.flow_shift_adjacent hnodup

/-- A packet that the port does not want. -/
theorem filter_take_one {φ : Mbuf → Bool} {pkt : Mbuf} {rest : List Mbuf}
    (h : φ pkt = false) : ((pkt :: rest).take 1).filter φ = [] := by
  simp [h]

theorem wanted_of_nextHop_ne (h : nextHop setup pkt ≠ i) :
    wanted setup i pkt = false := by
  simp [wanted, h]

theorem wanted_of_rejected (hnf : setup.disableNf = false)
    (h : processPacket setup pkt ≠ 0) : wanted setup i pkt = false := by
  have hdrop : setup.fwPacketHandler pkt ≠ .forward := by
    intro hforward
    simp [processPacket, hforward] at h
  simp [wanted, hnf, hdrop]

end Pipeline

namespace Pipe

variable {setup : Setup} {q q' : Pipe} {i : Nat} {a b : Place} {n : Nat}

/-- What the port has taken and what is on its way make up what was received
for it. -/
structure Streams (setup : Setup) (i : Nat) (q : Pipe) : Prop where
  sublist : (Bank.flow (pipeline setup i) (wanted setup i) q.bank).Sublist
    (q.received.filter (wanted setup i))
  whole : q.short = false →
    Bank.flow (pipeline setup i) (wanted setup i) q.bank =
      q.received.filter (wanted setup i)

theorem streams_empty : Streams setup i empty := by
  have hflow : Bank.flow (pipeline setup i) (wanted setup i) empty.bank = [] :=
    Bank.flow_eq_nil fun _ _ => rfl
  exact ⟨by rw [hflow]; exact List.nil_sublist _, fun _ => hflow⟩

/-- A move that changes neither the queue nor what was received. -/
theorem Streams.congr (h : Streams setup i q)
    (hflow : Bank.flow (pipeline setup i) (wanted setup i) q'.bank =
      Bank.flow (pipeline setup i) (wanted setup i) q.bank)
    (hrec : q'.received = q.received) (hshort : q'.short = q.short) :
    Streams setup i q' := by
  refine ⟨?_, fun hs => ?_⟩
  · rw [hflow, hrec]
    exact h.sublist
  · rw [hflow, hrec]
    exact h.whole (hshort ▸ hs)

/-- Without the coprocessors the places around them are empty. -/
theorem Inspected.eq_nil (h : Inspected setup q)
    (hfit : ∀ pkt, q.Fits setup a pkt → setup.disableNf = false)
    (hdis : setup.disableNf = true) : q.bank a = [] := by
  refine List.eq_nil_iff_forall_not_mem.mpr fun pkt hpkt => ?_
  have hnf := hfit pkt (h.fits a pkt hpkt)
  rw [hdis] at hnf
  cases hnf

theorem Inspected.edge_flow (h : Inspected setup q) (he : Edge a b)
    (φ : Mbuf → Bool) :
    Bank.flow (pipeline setup i) φ (q.bank.shift a b n) =
      Bank.flow (pipeline setup i) φ q.bank := by
  cases hnf : setup.disableNf with
  | false =>
      by_cases ha : a ∈ pipeline setup i
      · exact flow_next (he.next hnf ha)
      · exact Bank.flow_shift_outside ha (he.not_mem hnf ha)
  | true =>
      have hpipe : pipeline setup i = [.accepted i, .tx i, .routing] :=
        if_pos hnf
      cases he with
      | @transmit j =>
          by_cases hji : j = i
          · rw [hji]
            exact flow_next ⟨[], [_], hpipe⟩
          · refine Bank.flow_shift_outside ?_ ?_ <;> simp [hpipe, hji]
      | flushRx | fetch | flushTx | collect | forward =>
          refine congrArg _ (Bank.shift_nil (h.eq_nil ?_ hnf))
          exact fun _ hfit => hfit.1

/-- Every move but a loss leaves the queue as it is or adds to its end. -/
theorem Streams.move (h : Streams setup i q) (hq : Inspected setup q)
    (hi : i < kniKthread) (hm : Move setup q q') : Streams setup i q' := by
  have hskip : ∀ {a b : Place} {pkt : Mbuf} {rest : List Mbuf},
      q.bank a = pkt :: rest → a ≠ b → wanted setup i pkt = false →
      Bank.flow (pipeline setup i) (wanted setup i) (q.bank.shift a b 1) =
        Bank.flow (pipeline setup i) (wanted setup i) q.bank := by
    intro a b pkt rest hburst hab hpkt
    exact Bank.flow_shift_invisible hab (hburst ▸ filter_take_one hpkt)
  cases hm with
  | @arrive pkts _ _ =>
      have hflow : Bank.flow (pipeline setup i) (wanted setup i)
          (q.bank.arrive .routing pkts) =
          Bank.flow (pipeline setup i) (wanted setup i) q.bank ++
            pkts.filter (wanted setup i) := by
        obtain ⟨pre, hpipe, hpre⟩ :
          ∃ pre, pipeline setup i = pre ++ [.routing] ∧ _ := pipeline_routing
        rw [hpipe]
        exact Bank.flow_arrive_last hpre
      refine ⟨?_, fun hshort => ?_⟩
      · rw [hflow, List.filter_append]
        exact h.sublist.append_right _
      · rw [hflow, List.filter_append, h.whole hshort]
  | @refuse pkt rest hburst hhop =>
      have hne : nextHop setup pkt ≠ i := by
        have hlt : kniKthread < unknownPort := by decide
        omega
      exact h.congr (hskip hburst Place.noConfusion (wanted_of_nextHop_ne hne))
        rfl rfl
  | @stage pkt rest j hburst hhop hj =>
      refine h.congr ?_ rfl rfl
      by_cases hji : j = i
      · rw [hji]
        exact flow_next entry_next
      · exact hskip hburst entry_ne_routing.symm
          (wanted_of_nextHop_ne (hhop ▸ hji))
  | advance he => exact h.congr (hq.edge_flow he _) rfl rfl
  | @pass pkt rest j hburst hret =>
      have hfit := hq.fits _ pkt (hburst ▸ List.mem_cons_self)
      refine h.congr ?_ rfl rfl
      by_cases hji : j = i
      · rw [hji]
        exact flow_next (pass_next hfit.1)
      · have hne : nextHop setup pkt ≠ i :=
          fun heq => hji (hfit.2.1.symm.trans heq)
        exact hskip hburst Place.noConfusion (wanted_of_nextHop_ne hne)
  | @reject pkt rest j hburst hret =>
      have hfit := hq.fits _ pkt (hburst ▸ List.mem_cons_self)
      exact h.congr (hskip hburst Place.noConfusion
        (wanted_of_rejected hfit.1 hret)) rfl rfl
  | hand => exact h.congr rfl rfl rfl
  | lose ha =>
      refine ⟨?_, fun hshort => by cases hshort⟩
      exact (Bank.flow_shift_out ha.ne_freed freed_not_mem_pipeline).trans
        h.sublist

theorem Moves.streams (h : Moves setup empty q) (hi : i < kniKthread) :
    Streams setup i q :=
  h.invariant streams_empty fun _ _ hr hq hm => hq.move hr.inspected hi hm

end Pipe

/-- A port takes nothing that it does not want. -/
theorem filter_accepted {setup : Setup} {w : World} {i : Nat}
    (h : Reachable setup w) : (accepted i w.state.log).filter (wanted setup i) =
      accepted i w.state.log := by
  refine List.filter_eq_self.mpr fun pkt hpkt => ?_
  obtain ⟨hhop, hins⟩ := (inspected_of_reachable h).fits (.accepted i) pkt hpkt
  cases hnf : setup.disableNf with
  | true => simp [wanted, hhop, hnf]
  | false =>
      have hforward : setup.fwPacketHandler pkt = .forward := by
        have hret := (hins hnf).2
        unfold processPacket at hret
        split at hret
        · cases hret
        · next hf => exact not_not.mp hf
      simp [wanted, hhop, hforward]

section Ports

variable {setup : Setup} {w : World} {i : Nat}

theorem flow_accepted (h : Reachable setup w) :
    Bank.flow (pipeline setup i) (wanted setup i) w.bank =
      accepted i w.state.log ++
        Bank.flow (pipeline setup i).tail (wanted setup i) w.bank := by
  have hpipe : pipeline setup i = .accepted i :: (pipeline setup i).tail := by
    unfold pipeline
    split <;> rfl
  have haccepted : (w.bank (.accepted i)).filter (wanted setup i) =
      accepted i w.state.log := filter_accepted h
  rw [hpipe, Bank.flow_cons, haccepted, List.tail_cons]

theorem accepted_sublist (hi : i < kniKthread) (h : Reachable setup w) :
    (accepted i w.state.log).Sublist
      ((received w.state.log).filter (wanted setup i)) := by
  have hstream := ((pipe_moves_of_reachable h).streams hi).sublist
  rw [show w.pipe.bank = w.bank from rfl, flow_accepted h] at hstream
  exact (List.sublist_append_left _ _).trans hstream

/-- When nothing came up short and nothing is on its way any more, a port has
taken all that was received for it. -/
theorem accepted_whole (hi : i < kniKthread) (h : Reachable setup w)
    (hshort : w.state.log.any Event.short = false)
    (hempty : ∀ a ∈ (pipeline setup i).tail, w.bank a = []) :
    accepted i w.state.log =
      (received w.state.log).filter (wanted setup i) := by
  have hstream := ((pipe_moves_of_reachable h).streams hi).whole hshort
  rw [show w.pipe.bank = w.bank from rfl, flow_accepted h,
    Bank.flow_eq_nil hempty, List.append_nil] at hstream
  exact hstream

end Ports

/-- The packets received for port `i` that the firewall lets pass, in the order
in which the fast path received them. -/
def due (setup : Setup) (w : World) (i : Nat) : List Mbuf :=
  (received w.state.log).filter fun pkt =>
    decide (getNextHop w.state.txMgr.routingTable (setup.bytes pkt) = i ∧
      setup.fwPacketHandler pkt = .forward)

/-- The buffers and rings of port `i` are empty, and no thread holds a packet
that has yet to reach them. Between two iterations none does. -/
structure Drained (w : World) (i : Nat) : Prop where
  tx : w.state.txMgr.tx i = []
  nfRx : (w.state.nf i).rx = []
  rxQ : (w.state.nf i).rxQ = []
  nfTx : (w.state.nf i).tx = []
  txQ : (w.state.nf i).txQ = []
  fast : w.fast.burst = []
  coproc : (w.coproc i).burst = []

theorem Drained.bank_eq_nil {setup : Setup} {w : World} {i : Nat}
    (h : Drained w i) : ∀ a ∈ (pipeline setup i).tail, w.bank a = [] := by
  have hall : ∀ a ∈ [Place.tx i, .forwarding i, .txQ i, .nfTx i, .inspecting i,
      .rxQ i, .nfRx i, .routing], w.bank a = [] := by
    simp only [List.forall_mem_cons]
    exact ⟨h.tx, bank_forwarding_idle h.fast, h.txQ, h.nfTx,
      bank_inspecting.trans h.coproc, h.rxQ, h.nfRx,
      bank_routing_idle h.fast, fun _ hmem => absurd hmem List.not_mem_nil⟩
  intro a ha
  refine hall a ?_
  unfold pipeline at ha
  split at ha
  · simp only [List.tail_cons, List.mem_cons, List.not_mem_nil, or_false] at ha
    rcases ha with rfl | rfl <;> simp
  · exact ha

theorem due_eq {setup : Setup} {w : World} {i : Nat}
    (hnf : setup.disableNf = false) (h : Reachable setup w) :
    due setup w i = (received w.state.log).filter (wanted setup i) := by
  refine List.filter_congr fun pkt _ => ?_
  rw [(wired_of_reachable h).conf.table, Bool.decide_and]
  simp only [wanted, hnf, Bool.false_or]
  rfl

/-- What a port has taken is a subsequence of what is due to it. If nothing ever
came up short, then once nothing is on its way to the port it is all that is
due, and that is what the port has taken in any run of the build without the
coprocessors that received the packets the firewall let pass. -/
theorem port_fifo {setup : Setup} {w : World} {i : Nat}
    (hnf : setup.disableNf = false) (hi : i < kniKthread)
    (h : Reachable setup w) :
    (accepted i w.state.log).Sublist (due setup w i) ∧
    (w.state.log.any Event.short = false → Drained w i →
      accepted i w.state.log = due setup w i ∧
      ∀ w', Reachable { setup with disableNf := true } w' →
        received w'.state.log = (received w.state.log).filter
          (fun pkt => decide (setup.fwPacketHandler pkt = .forward)) →
        w'.state.log.any Event.short = false →
        w'.state.txMgr.tx i = [] → w'.fast.burst = [] →
        accepted i w'.state.log = accepted i w.state.log) := by
  rw [due_eq hnf h]
  refine ⟨accepted_sublist hi h, fun hshort hdrained => ?_⟩
  have hwhole := accepted_whole hi h hshort hdrained.bank_eq_nil
  refine ⟨hwhole, fun w' h' hrec hshort' htx hfast => ?_⟩
  have hempty : ∀ a ∈ (pipeline { setup with disableNf := true } i).tail,
      w'.bank a = [] := by
    intro a ha
    simp only [pipeline, if_true, List.tail_cons, List.mem_cons,
      List.not_mem_nil, or_false] at ha
    rcases ha with rfl | rfl
    · exact htx
    · exact bank_routing_idle hfast
  -- The firewall has already been applied to what the other build received.
  have hwanted : ∀ pkt, (wanted { setup with disableNf := true } i pkt &&
      decide (setup.fwPacketHandler pkt = .forward)) = wanted setup i pkt := by
    intro pkt
    simp only [wanted, hnf, Bool.true_or, Bool.false_or, Bool.and_true]
    rfl
  rw [accepted_whole hi h' hshort' hempty, hwhole, hrec, List.filter_filter]
  exact List.filter_congr fun pkt _ => hwanted pkt

/-- The build without the coprocessors gets what the firewall lets pass of the
sample run. -/
def sampleRunDisabled : List Action :=
  .fast { sampleEnv with burst := [0, 5] } ::
    List.replicate 13 (.fast sampleEnv)

def World.sampleDisabled : World :=
  World.start.run { sampleSetup with disableNf := true } sampleRunDisabled

theorem port_fifo_sample :
    due sampleSetup (World.sample 48) 0 = [0, 5] ∧
      accepted 0 (World.sample 48).state.log = [0, 5] ∧
      accepted 0 World.sampleDisabled.state.log = [0, 5] := by
  have hdrained : Drained (World.sample 48) 0 :=
    ⟨by decide +kernel, by decide +kernel, by decide +kernel, by decide +kernel,
      by decide +kernel, by decide +kernel, by decide +kernel⟩
  have hdue : due sampleSetup (World.sample 48) 0 = [0, 5] := by decide +kernel
  have hreach : Reachable { sampleSetup with disableNf := true }
      World.sampleDisabled := Reachable.run (.init rfl) (by decide +kernel)
  obtain ⟨haccepted, hother⟩ :=
    (port_fifo (i := 0) rfl (by decide)
      (sample_reachable (n := 48) (by decide))).2
      (by decide +kernel) hdrained
  rw [hdue] at haccepted
  have heq := hother World.sampleDisabled hreach (by decide +kernel)
    (by decide +kernel) (by decide +kernel) (by decide +kernel)
  exact ⟨hdue, haccepted, heq.trans haccepted⟩

end GhostDataplane.Engine
