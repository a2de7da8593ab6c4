import GhostDataplane.Proofs.Conservation

/-!
# Nothing is sent that was not routed and inspected

Three loops index the same arrays by three different things: the fast path by
the port that `get_next_hop` found, a coprocessor by its lcore, and the loop
that fetches the results by the number of the ring. `Pipe.Fits` says what
they agree on. A packet that lies at index `i` of any array was routed to
`i`; before the coprocessor it has not been inspected, and behind it it has
been inspected once, by `i`, with result 0.

The inspection is where the order of things matters: its result is written
down for the packet wherever the packet is, so what is known of the other
places survives only because it is in none of them. That is
`Conserved.sound`.

The build without coprocessors is covered too: there the arrays between the
routing and the ports stay empty, and a packet in front of a port was routed
to it and no more.
-/

namespace GhostDataplane.Engine

open GhostDataplane.Lib

namespace Pipe

/-- What is known of a packet by where it lies. -/
def Fits (setup : Setup) (q : Pipe) : Place → Mbuf → Prop
  | .routing, pkt => q.inspections pkt = []
  | .nfRx i, pkt | .rxQ i, pkt | .inspecting i, pkt =>
      setup.disableNf = false ∧ nextHop setup pkt = i ∧ q.inspections pkt = []
  | .nfTx i, pkt | .txQ i, pkt | .forwarding i, pkt =>
      setup.disableNf = false ∧ nextHop setup pkt = i ∧
        q.inspections pkt = [(i, 0)] ∧ processPacket setup pkt = 0
  | .tx i, pkt | .accepted i, pkt =>
      nextHop setup pkt = i ∧ (setup.disableNf = false →
        q.inspections pkt = [(i, 0)] ∧ processPacket setup pkt = 0)
  | .freed, _ => True

/-- Every packet fits where it lies, and fitted where it was handed over. -/
structure Inspected (setup : Setup) (q : Pipe) : Prop where
  fits : ∀ a, ∀ pkt ∈ q.bank a, q.Fits setup a pkt
  handed : ∀ i, ∀ pkt ∈ q.handed i, i < kniKthread ∧ q.Fits setup (.tx i) pkt
  known : ∀ pkt, q.inspections pkt ≠ [] → pkt ∈ q.received

variable {setup : Setup} {q q' : Pipe} {a b : Place} {n i : Nat} {pkt : Mbuf}

/-- Only the record of the packet itself counts. -/
theorem Fits.congr (h : q.Fits setup a pkt)
    (hins : q'.inspections pkt = q.inspections pkt) : q'.Fits setup a pkt := by
  cases a <;> simp only [Fits, hins] at h ⊢ <;> exact h

theorem Fits.edge (he : Edge a b) (h : q.Fits setup a pkt) :
    q.Fits setup b pkt := by
  cases he with
  | flushRx | fetch | flushTx | collect | transmit => exact h
  | forward => exact ⟨h.2.1, fun _ => h.2.2⟩

theorem Fits.entry (h : q.Fits setup .routing pkt)
    (hhop : nextHop setup pkt = i) : q.Fits setup (entry setup i) pkt := by
  unfold Pipe.entry
  split
  · next hdis => exact ⟨hhop, fun hnf => absurd (hdis.symm.trans hnf) (by simp)⟩
  · next hdis => exact ⟨Bool.eq_false_iff.mpr hdis, hhop, h⟩

/-- Packets carried to where they fit. -/
theorem Inspected.shift (h : Inspected setup q) (hab : a ≠ b)
    (hfit : ∀ pkt ∈ (q.bank a).take n, q.Fits setup a pkt →
      q.Fits setup b pkt) :
    Inspected setup (q.shift a b n) := by
  refine ⟨fun c pkt hpkt => Fits.congr (q := q) ?_ rfl,
    fun j pkt hpkt => ?_, h.known⟩
  · rcases Bank.mem_shift hab hpkt with hmem | ⟨hcb, hmem⟩
    · exact h.fits c pkt hmem
    · rw [hcb]
      exact hfit pkt hmem (h.fits a pkt (List.mem_of_mem_take hmem))
  · obtain ⟨hj, hfits⟩ := h.handed j pkt hpkt
    exact ⟨hj, hfits.congr rfl⟩

/-- An inspection. The packet had not been inspected before, so it was never
handed over, and it is nowhere but at the front of the burst. -/
theorem Inspected.judge {rest : List Mbuf} {ret : Int} (h : Inspected setup q)
    (hsound : q.bank.Sound q.received)
    (hburst : q.bank (.inspecting i) = pkt :: rest) (hb : .inspecting i ≠ b)
    (hfit : (q.inspected i pkt ret).Fits setup b pkt) :
    Inspected setup ((q.inspected i pkt ret).shift (.inspecting i) b 1) := by
  have hmem : pkt ∈ q.bank (.inspecting i) := hburst ▸ List.mem_cons_self
  obtain ⟨hnf, -, hnone⟩ := h.fits _ pkt hmem
  have hother : ∀ pkt', pkt' ≠ pkt →
      (q.inspected i pkt ret).inspections pkt' = q.inspections pkt' :=
    fun pkt' hne => Function.update_of_ne hne _ _
  have hbank : ((q.inspected i pkt ret).shift (.inspecting i) b 1).bank =
      q.bank.shift (.inspecting i) b 1 := rfl
  have htarget : pkt ∈ q.bank.shift (.inspecting i) b 1 b := by
    rw [Bank.shift_target, hburst]
    exact List.mem_append_right _ List.mem_cons_self
  refine ⟨fun c pkt' hpkt' => ?_, fun j pkt' hpkt' => ?_, fun pkt' hpkt' => ?_⟩
  · rw [hbank] at hpkt'
    by_cases heq : pkt' = pkt
    · rw [heq] at hpkt' ⊢
      rw [(hsound.shift hb).place_unique htarget hpkt']
      exact hfit.congr rfl
    · refine Fits.congr (q := q) ?_ (hother pkt' heq)
      rcases Bank.mem_shift hb hpkt' with hmem' | ⟨-, hmem'⟩
      · exact h.fits c pkt' hmem'
      · rw [hburst] at hmem'
        exact absurd (List.mem_singleton.mp hmem') heq
  · have hne : pkt' ≠ pkt := by
      intro heq
      have hins := ((h.handed j pkt' hpkt').2.2 hnf).1
      rw [heq, hnone] at hins
      cases hins
    obtain ⟨hj, hfits⟩ := h.handed j pkt' hpkt'
    exact ⟨hj, hfits.congr (hother pkt' hne)⟩
  · by_cases heq : pkt' = pkt
    · rw [heq]
      exact hsound.mem_known hmem
    · exact h.known pkt' (hother pkt' heq ▸ hpkt')

theorem Inspected.arrive {pkts : List Mbuf} (h : Inspected setup q)
    (hfresh : ∀ pkt ∈ pkts, pkt ∉ q.received) :
    Inspected setup { q with
      bank := q.bank.arrive .routing pkts
      received := q.received ++ pkts } := by
  refine ⟨fun c pkt hpkt => Fits.congr (q := q) ?_ rfl, fun j pkt hpkt => ?_,
    fun pkt hpkt => List.mem_append_left _ (h.known pkt hpkt)⟩
  · by_cases hc : c = .routing
    · rw [hc] at hpkt ⊢
      simp only [Bank.arrive_self, List.mem_append] at hpkt
      rcases hpkt with hmem | hmem
      · exact h.fits .routing pkt hmem
      · by_contra hins
        exact hfresh pkt hmem (h.known pkt hins)
    · simp only [Bank.arrive_other hc] at hpkt
      exact h.fits c pkt hpkt
  · obtain ⟨hj, hfits⟩ := h.handed j pkt hpkt
    exact ⟨hj, hfits.congr rfl⟩

theorem Inspected.hand (h : Inspected setup q) (hi : i < kniKthread) :
    Inspected setup { q with
      handed := Function.update q.handed i
        (q.handed i ++ q.bank (.tx i)) } := by
  refine ⟨fun c pkt hpkt => (h.fits c pkt hpkt).congr rfl, fun j pkt hpkt => ?_,
    h.known⟩
  have hold : j < kniKthread ∧ q.Fits setup (.tx j) pkt := by
    by_cases hji : j = i
    · rw [hji] at hpkt ⊢
      simp only [Function.update_self, List.mem_append] at hpkt
      rcases hpkt with hmem | hmem
      · exact h.handed i pkt hmem
      · exact ⟨hi, h.fits (.tx i) pkt hmem⟩
    · simp only [Function.update_of_ne hji] at hpkt
      exact h.handed j pkt hpkt
  exact ⟨hold.1, hold.2.congr rfl⟩

theorem Inspected.move (h : Inspected setup q)
    (hsound : q.bank.Sound q.received) (hm : Move setup q q') :
    Inspected setup q' := by
  cases hm with
  | arrive _ hfresh => exact h.arrive hfresh
  | refuse => exact h.shift Place.noConfusion fun _ _ _ => trivial
  | @stage pkt rest i hburst hhop hi =>
      refine h.shift entry_ne_routing.symm fun pkt' hmem hfit => ?_
      rw [hburst] at hmem
      rw [List.mem_singleton.mp hmem] at hfit ⊢
      exact hfit.entry hhop
  | advance he => exact h.shift he.ne fun _ _ hfit => hfit.edge he
  | @pass pkt rest i hburst hret =>
      obtain ⟨hnf, hhop, hnone⟩ :=
        h.fits (.inspecting i) pkt (hburst ▸ List.mem_cons_self)
      refine h.judge hsound hburst Place.noConfusion ⟨hnf, hhop, ?_, hret⟩
      simp [inspected, hnone]
  | reject hburst _ => exact h.judge hsound hburst Place.noConfusion trivial
  | hand hi => exact h.hand hi
  | @lose a n ha =>
      have hshift : Inspected setup (q.shift a .freed n) :=
        h.shift ha.ne_freed fun _ _ _ => trivial
      refine ⟨fun c pkt hpkt => (hshift.fits c pkt hpkt).congr rfl,
        fun j pkt hpkt => ?_, hshift.known⟩
      obtain ⟨hj, hfits⟩ := hshift.handed j pkt hpkt
      exact ⟨hj, hfits.congr rfl⟩

theorem inspected_empty : Inspected setup empty :=
  ⟨fun _ _ h => absurd h List.not_mem_nil,
    fun _ _ h => absurd h List.not_mem_nil, fun _ h => absurd rfl h⟩

theorem Moves.inspected (h : Moves setup empty q) : Inspected setup q :=
  h.invariant inspected_empty fun _ _ hr hq hm => hq.move hr.conserved.sound hm

end Pipe

theorem inspected_of_reachable {setup : Setup} {w : World}
    (h : Reachable setup w) : w.pipe.Inspected setup :=
  (pipe_moves_of_reachable h).inspected

/-- What the fast path hands to `rte_kni_tx_burst` for a port is an IPv4 packet
that `get_next_hop` routed to the port and that `process_packet` was called for
once, by the port's coprocessor, with result 0. A packet without a port, or with
any other result, is handed to none. -/
theorem handed_routed_and_inspected {setup : Setup} {w : World}
    (hnf : setup.disableNf = false) (h : Reachable setup w) :
    (∀ i, ∀ pkt ∈ handed i w.state.log,
      etherType (setup.bytes pkt) = etherTypeIPv4 ∧
      getNextHop w.state.txMgr.routingTable (setup.bytes pkt) = i ∧
      inspections pkt w.state.log = [(i, 0)]) ∧
    (∀ pkt, (getNextHop w.state.txMgr.routingTable (setup.bytes pkt) =
        unknownPort ∨ ∃ call ∈ inspections pkt w.state.log, call.2 ≠ 0) →
      ∀ i, pkt ∉ handed i w.state.log) := by
  have htable := (wired_of_reachable h).conf.table
  have hhanded := (inspected_of_reachable h).handed
  have hport : ∀ i, ∀ pkt ∈ handed i w.state.log, i ≠ unknownPort := by
    intro i pkt hpkt
    have hi := (hhanded i pkt hpkt).1
    have hlt : kniKthread < unknownPort := by decide
    omega
  rw [htable]
  refine ⟨fun i pkt hpkt => ?_, fun pkt hbad i hpkt => ?_⟩
  · obtain ⟨-, hhop, hins⟩ := hhanded i pkt hpkt
    exact ⟨etherType_of_nextHop (hhop ▸ hport i pkt hpkt), hhop, (hins hnf).1⟩
  · obtain ⟨-, hhop, hins⟩ := hhanded i pkt hpkt
    rcases hbad with hunknown | ⟨call, hcall, hret⟩
    · exact hport i pkt hpkt (hhop.symm.trans hunknown)
    · rw [show inspections pkt w.state.log = [(i, 0)] from (hins hnf).1,
        List.mem_singleton] at hcall
      exact hret (hcall ▸ rfl)

/-- At the end of the run, packets 0 and 5 were handed to port 0, and packet 1
was rejected. -/
theorem handed_routed_and_inspected_sample :
    handed 0 (World.sample 48).state.log = [0, 5] ∧
      inspections 1 (World.sample 48).state.log = [(1, -1)] ∧
      inspections 5 (World.sample 48).state.log = [(0, 0)] ∧
      1 ∉ handed 1 (World.sample 48).state.log := by
  have hsample :=
    handed_routed_and_inspected rfl (sample_reachable (n := 48) (by decide))
  have hins : inspections 1 (World.sample 48).state.log = [(1, -1)] := by
    decide +kernel
  have hhanded : handed 0 (World.sample 48).state.log = [0, 5] := by
    decide +kernel
  exact ⟨hhanded, hins, (hsample.1 0 5 (by rw [hhanded]; decide)).2.2,
    hsample.2 1 (Or.inr ⟨(1, -1), by rw [hins]; decide, by decide⟩) 1⟩

end GhostDataplane.Engine
