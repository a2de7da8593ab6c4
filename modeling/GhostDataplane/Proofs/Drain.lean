import GhostDataplane.Lib.Runs
import GhostDataplane.Lib.Weight
import GhostDataplane.Proofs.Events
import GhostDataplane.Proofs.Inspection
import GhostDataplane.Proofs.Staging

/-!
# The engine drains

When no port sends anything any more, every packet that is still in the engine
comes out of it: it is taken by a port or it is freed. That takes every thread
to run now and then and a dequeue to see something of what is in its ring, and
nothing of the ports and the rings beyond that; a packet that they do not take
is freed.

`World.load` weighs each packet by the number of hand-overs that are left for
it. No step raises it, and a step that does not lower it leaves every packet
where it is. So it is enough that some thread is about to move a packet, and
stays about to as long as nobody else does. A coprocessor with a packet in one
of its three places needs two steps. The fast path goes through its places in a
fixed order, and may have passed the packet when it comes to lie there: `Swept`
is what it knows to be empty since the beginning of the iteration, so the packet
has moved at the end of the next iteration at the latest.
-/

namespace GhostDataplane.Engine

open GhostDataplane.Lib

/-! ## The load -/

/-- The hand-overs that are left for a packet in a place. -/
def Place.weight : Place → Nat
  | .routing => 8
  | .nfRx _ => 7
  | .rxQ _ => 6
  | .inspecting _ => 5
  | .nfTx _ => 4
  | .txQ _ => 3
  | .forwarding _ => 2
  | .tx _ => 1
  | .accepted _ | .freed => 0

/-- The places of one port. -/
def portPlaces (i : Nat) : List Place :=
  [.nfRx i, .rxQ i, .inspecting i, .nfTx i, .txQ i, .forwarding i,
    .tx i, .accepted i]

/-- The places of the engine. -/
def places : Finset Place :=
  (.routing :: .freed :: (List.range kniKthread).flatMap portPlaces).toFinset

theorem mem_places {a : Place} : a ∈ places ↔ a.Valid := by
  rw [places, List.mem_toFinset]
  cases a <;> simp [portPlaces, Place.Valid]

/-- The hand-overs that are left for all packets. -/
def World.load (w : World) : Nat := w.bank.load places Place.weight

namespace Pipe

variable {setup : Setup} {q q' : Pipe}

/-- Every move that is not an arrival goes downhill. -/
theorem Move.downhill (h : Move setup q q') :
    (∃ pkts : List Mbuf, q'.bank = q.bank.arrive .routing pkts ∧
      q'.received = q.received ++ pkts) ∨
    q'.received = q.received ∧ (q'.bank = q.bank ∨
      ∃ a b n, a ≠ b ∧ (a.Valid → b.Valid) ∧ b.weight < a.weight ∧
        q'.bank = q.bank.shift a b n) := by
  cases h with
  | @arrive pkts => exact .inl ⟨pkts, rfl, rfl⟩
  | refuse =>
      exact .inr ⟨rfl, .inr ⟨.routing, .freed, 1, Place.noConfusion,
        fun _ => trivial, by decide, rfl⟩⟩
  | @stage pkt rest i _ _ hi =>
      refine .inr ⟨rfl, .inr ⟨.routing, entry setup i, 1, entry_ne_routing.symm,
        fun _ => entry_valid hi, ?_, rfl⟩⟩
      unfold entry
      split
      · exact (by decide : 1 < 8)
      · exact (by decide : 7 < 8)
  | @advance a b n he =>
      refine .inr ⟨rfl, .inr ⟨a, b, n, he.ne, ?_, ?_, rfl⟩⟩
      · cases he <;> exact id
      · cases he <;> exact Nat.lt_succ_self _
  | @pass pkt rest i =>
      exact .inr ⟨rfl, .inr ⟨.inspecting i, .nfTx i, 1, Place.noConfusion, id,
        Nat.lt_succ_self _, rfl⟩⟩
  | @reject pkt rest i =>
      exact .inr ⟨rfl, .inr ⟨.inspecting i, .freed, 1, Place.noConfusion,
        fun _ => trivial, Nat.zero_lt_succ _, rfl⟩⟩
  | hand => exact .inr ⟨rfl, .inl rfl⟩
  | @lose a n ha =>
      refine .inr
        ⟨rfl, .inr ⟨a, .freed, n, ha.ne_freed, fun _ => trivial, ?_, rfl⟩⟩
      cases ha <;> exact Nat.zero_lt_succ _

/-- Moves without an arrival lower the load or leave everything in its place. -/
theorem Moves.load (h : Moves setup q q') (hq : Conserved q) :
    q.received.length ≤ q'.received.length ∧
    (q'.received.length = q.received.length →
      q'.bank.load places Place.weight < q.bank.load places Place.weight ∨
        q'.bank = q.bank) := by
  induction h with
  | refl => exact ⟨Nat.le_refl _, fun _ => .inr rfl⟩
  | @head q q₁ q' hm _ ih =>
      obtain ⟨hle, hrest⟩ := ih (hq.move hm)
      rcases hm.downhill with ⟨pkts, hbank, hrec⟩ | ⟨hrec, hbank⟩
      · rw [hrec, List.length_append] at hle hrest
        refine ⟨by omega, fun hlen => ?_⟩
        have hnil : pkts = [] := List.length_eq_zero_iff.mp (by omega)
        have hsame : q₁.bank = q.bank := by
          rw [hbank, hnil, Bank.arrive, List.append_nil,
            Function.update_eq_self]
        rw [← hsame]
        exact hrest (by omega)
      · rw [hrec] at hle hrest
        refine ⟨hle, fun hlen => ?_⟩
        have hfirst : q₁.bank.load places Place.weight <
            q.bank.load places Place.weight ∨
            q₁.bank = q.bank := by
          rcases hbank with hbank | ⟨a, b, n, hab, hvalid, hweight, hbank⟩
          · exact .inr hbank
          · rw [hbank]
            by_cases ha : a.Valid
            · exact Bank.load_shift (mem_places.mpr (hvalid ha)) hab hweight
                (.inl (mem_places.mpr ha))
            · exact .inr (Bank.shift_nil (hq.confined a ha))
        rcases hfirst with hlt | hsame
        · rcases hrest hlen with hlt' | hsame'
          · exact .inl (hlt'.trans hlt)
          · rw [hsame']
            exact .inl hlt
        · rw [← hsame]
          exact hrest hlen

end Pipe

/-! ## Runs without arrivals -/

/-- No port sends anything, and a dequeue sees something of what there is. -/
def draining (setup : Setup) (_ : World) : Action → Prop
  | .fast env => env.burst = [] ∧ 0 < env.avail
  | .coproc i env => i < kniKthread ∧ setup.disableNf = false ∧ 0 < env.avail

section Draining

variable {setup : Setup} {w w' : World} {a : Action}

theorem promised_of_draining (h : draining setup w a) : promised setup w a := by
  cases a with
  | fast env =>
      rintro k -
      rw [h.1]
      exact ⟨Nat.zero_le _, List.nodup_nil, fun _ h => by cases h⟩
  | coproc i env => exact ⟨h.1, h.2.1⟩

theorem received_of_draining (h : draining setup w a) :
    received (w.step setup a).state.log = received w.state.log := by
  cases a with
  | fast env => exact received_fastStep_nil h.1
  | coproc i env => exact received_coprocStep

/-- A step lowers the load, or every packet stays where it is. -/
theorem load_step (hw : Reachable setup w) (h : draining setup w a) :
    (w.step setup a).load < w.load ∨ (w.step setup a).bank = w.bank := by
  have hwired := wired_of_reachable hw
  have hmoves : Pipe.Moves setup w.pipe (w.step setup a).pipe := by
    cases a with
    | fast env => exact fastStep_moves hwired (promised_of_draining h)
    | coproc i env => exact coprocStep_moves hwired h.1
  exact (hmoves.load (pipe_moves_of_reachable hw).conserved).2
    (congrArg List.length (received_of_draining h))

end Draining

/-! ## An iteration of the fast path -/

/-- The steps that are left at the head of the loop over the coprocessors. -/
def dequeueRank (c : Nat) : Nat :=
  (kniKthread - c) * (pktBurstSz + 2) + 1 + 2 * (kniKthread + 1)

/-- The steps that are left at the head of the loop over the ports. -/
def rxRank (k : Nat) : Nat :=
  (kniKthread - k) * (pktBurstSz + 2) + 1 + 2 * (kniKthread + 1) + dequeueRank 0

/-- The steps that are left of an iteration, at most. -/
def FastPc.rank : FastPc → Nat
  | .rxBurst k => rxRank k
  | .route k burst => burst.length + 1 + rxRank (k + 1)
  | .flushPort again k =>
      (kniKthread - k) + 1 + (kniKthread + 1) +
        (if again then 0 else dequeueRank 0)
  | .flushNf again c =>
      (kniKthread - c) + 1 + (if again then 0 else dequeueRank 0)
  | .dequeue c => dequeueRank c
  | .forward c burst => burst.length + 1 + dequeueRank (c + 1)

/-- The steps of an iteration, at most. -/
def lap : Nat := rxRank 0

section Lap

variable {setup : Setup} {env : Env} {s : State}

/-- There is one step less to go, or the iteration is over. -/
theorem fastStep_rank {pc : FastPc}
    (hburst : ∀ k, pc = .rxBurst k → env.burst.length ≤ pktBurstSz) :
    (fastStep setup kniKthread kniKthread env pc s).1.rank < pc.rank ∨
      (fastStep setup kniKthread kniKthread env pc s).1 = .rxBurst 0 ∧
        ∃ again c, pc = .flushNf again c ∧ kniKthread ≤ c ∧
          (again = true ∨ setup.disableNf = true) := by
  cases pc with
  | rxBurst k =>
      left
      have hlen := hburst k rfl
      rw [fastStep]
      split
      · simp only [FastPc.rank, rxRank, kniKthread, pktBurstSz] at *
        omega
      · simp only [FastPc.rank, rxRank, kniKthread, pktBurstSz,
          Bool.false_eq_true, if_false] at *
        omega
  | route k burst =>
      left
      cases burst with
      | nil =>
          simp only [fastStep, FastPc.rank, List.length_nil]
          omega
      | cons pkt burst =>
          have hpc :
              (fastStep setup kniKthread kniKthread env
                (.route k (pkt :: burst)) s).1 =
              .route k burst := by
            rw [fastStep]
            dsimp only
            split
            · rfl
            · split <;> rfl
          rw [hpc]
          simp only [FastPc.rank, List.length_cons]
          omega
  | flushPort again k =>
      left
      rw [fastStep]
      split <;>
        · simp only [FastPc.rank, kniKthread] at *
          omega
  | flushNf again c =>
      rw [fastStep]
      split
      · left
        simp only [FastPc.rank, kniKthread] at *
        omega
      · next hc =>
          split
          · next hend =>
              exact .inr
                ⟨rfl, again, c, rfl, Nat.le_of_not_lt hc, by simpa using hend⟩
          · next hend =>
              left
              have hagain : again = false := by
                simp only [Bool.or_eq_true, not_or, Bool.not_eq_true] at hend
                exact hend.1
              simp only [FastPc.rank, hagain, Bool.false_eq_true, if_false]
              omega
  | dequeue c =>
      left
      rw [fastStep]
      split
      · have htake :=
          List.length_take_le (min env.avail pktBurstSz) (s.nf c).txQ
        simp only [FastPc.rank, dequeueRank, kniKthread, pktBurstSz] at *
        omega
      · simp only [FastPc.rank, dequeueRank, kniKthread, pktBurstSz, if_true]
          at *
        omega
  | forward c burst =>
      left
      cases burst with
      | nil =>
          simp only [fastStep, FastPc.rank, List.length_nil]
          omega
      | cons pkt burst =>
          simp only [fastStep, FastPc.rank, List.length_cons]
          omega

end Lap

/-- What the fast path has found empty since the beginning of the iteration, if
no packet has moved. -/
def Swept (k : Bank Place Mbuf) : FastPc → Prop
  | .rxBurst _ | .route _ _ => True
  | .flushPort false j => ∀ i < j, k (.tx i) = []
  | .flushNf false j => (∀ i < kniKthread, k (.tx i) = []) ∧
        ∀ i < j, k (.nfRx i) = []
  | .dequeue j => (∀ i < kniKthread, k (.tx i) = [] ∧ k (.nfRx i) = []) ∧
      ∀ i < j, k (.txQ i) = []
  | .forward j _ => (∀ i < kniKthread, k (.tx i) = [] ∧ k (.nfRx i) = []) ∧
      ∀ i ≤ j, k (.txQ i) = []
  | .flushPort true _ | .flushNf true _ =>
      ∀ i < kniKthread, (k (.tx i) = [] ∧ k (.nfRx i) = []) ∧ k (.txQ i) = []

/-- The places that the fast path takes packets from. -/
def Place.OfFast : Place → Prop
  | .routing | .nfRx _ | .txQ _ | .forwarding _ | .tx _ => True
  | .rxQ _ | .inspecting _ | .nfTx _ | .accepted _ | .freed => False

section Swept

variable {setup : Setup} {env : Env} {w : World}

/-- A flush leaves nothing. -/
theorem flush_bank_nil (st : Stage) {i : Nat} (hw : Configured w.state)
    (hi : i < kniKthread) :
    World.bank { w with state := flush st env i w.state } (st.place i) = [] :=
  (st.bank_place _ i).trans
    ((buf_flush (by rw [hw.nb]; exact hi)).trans (if_pos ⟨rfl, rfl⟩))

/-- If no packet moves, the fast path knows of one more place that it is
empty. -/
theorem Swept.step (hw : Wired w) (havail : 0 < env.avail)
    (hsame : (w.step setup (.fast env)).bank = w.bank)
    (h : Swept w.bank w.fast) :
    Swept w.bank (w.step setup (.fast env)).fast := by
  rw [World.step] at hsame ⊢
  cases hpc : w.fast with
  | rxBurst k =>
      simp only [hpc, fastStep] at hsame ⊢
      split
      · trivial
      · exact fun i hi => absurd hi (Nat.not_lt_zero i)
  | route k burst =>
      cases burst with
      | nil => trivial
      | cons pkt burst =>
          simp only [fastStep]
          split
          · trivial
          · split <;> trivial
  | flushPort again k =>
      rw [hpc] at h hsame
      simp only [fastStep] at hsame ⊢
      by_cases hk : k < kniKthread
      · rw [if_pos hk] at hsame ⊢
        have hempty : w.bank (.tx k) = [] := by
          rw [← hsame]
          exact flush_bank_nil .port hw.conf hk
        cases again with
        | true => exact h
        | false =>
            intro i hi
            rcases Nat.lt_succ_iff_lt_or_eq.mp hi with hlt | rfl
            · exact h i hlt
            · exact hempty
      · rw [if_neg hk]
        cases again with
        | true => exact h
        | false =>
            refine ⟨fun i hi => h i ?_,
              fun i hi => absurd hi (Nat.not_lt_zero i)⟩
            exact Nat.lt_of_lt_of_le hi (Nat.le_of_not_lt hk)
  | flushNf again c =>
      rw [hpc] at h hsame
      simp only [fastStep] at hsame ⊢
      by_cases hc : c < kniKthread
      · rw [if_pos hc] at hsame ⊢
        have hempty : w.bank (.nfRx c) = [] := by
          rw [← hsame]
          exact flush_bank_nil .nfRx hw.conf hc
        cases again with
        | true => exact h
        | false =>
            refine ⟨h.1, fun i hi => ?_⟩
            rcases Nat.lt_succ_iff_lt_or_eq.mp hi with hlt | rfl
            · exact h.2 i hlt
            · exact hempty
      · rw [if_neg hc]
        split
        · trivial
        · next hend =>
            have hagain : again = false := by
              simp only [Bool.or_eq_true, not_or, Bool.not_eq_true] at hend
              exact hend.1
            rw [hagain] at h
            refine ⟨fun i hi => ⟨h.1 i hi, h.2 i ?_⟩,
              fun i hi => absurd hi (Nat.not_lt_zero i)⟩
            exact Nat.lt_of_lt_of_le hi (Nat.le_of_not_lt hc)
  | dequeue c =>
      rw [hpc] at h hsame
      simp only [fastStep] at hsame ⊢
      by_cases hc : c < kniKthread
      · rw [if_pos hc] at hsame ⊢
        have hempty : w.bank (.txQ c) = [] := by
          have hdrop : (w.state.nf c).txQ.drop (min env.avail pktBurstSz) =
              (w.state.nf c).txQ := by
            have heq := congrFun hsame (.txQ c)
            simpa [World.bank, State.setNf] using heq
          have hlen := congrArg List.length hdrop
          rw [List.length_drop] at hlen
          refine List.length_eq_zero_iff.mp
            (show (w.state.nf c).txQ.length = 0 from ?_)
          have hpos : 0 < pktBurstSz := by decide
          omega
        refine ⟨h.1, fun i hi => ?_⟩
        rcases Nat.lt_or_eq_of_le hi with hlt | rfl
        · exact h.2 i hlt
        · exact hempty
      · rw [if_neg hc]
        refine fun i hi => ⟨h.1 i hi, h.2 i ?_⟩
        exact Nat.lt_of_lt_of_le hi (Nat.le_of_not_lt hc)
  | forward c burst =>
      rw [hpc] at h
      cases burst with
      | nil => exact ⟨h.1, fun i hi => h.2 i (Nat.le_of_lt_succ hi)⟩
      | cons pkt burst => exact h

/-- At the end of an iteration in which no packet moved there is none. -/
theorem Swept.finished {again : Bool} {c : Nat} (hw : Reachable setup w)
    (h : Swept w.bank w.fast) (hpc : w.fast = .flushNf again c)
    (hc : kniKthread ≤ c) (hend : again = true ∨ setup.disableNf = true)
    {a : Place} (ha : a.OfFast) (hvalid : a.Valid) : w.bank a = [] := by
  have hidle : w.fast.burst = [] := by
    rw [hpc]
    rfl
  rw [hpc] at h
  have hall : ∀ i < kniKthread, (w.bank (.tx i) = [] ∧ w.bank (.nfRx i) = []) ∧
      w.bank (.txQ i) = [] := by
    cases again with
    | true => exact h
    | false =>
        -- Without coprocessors nothing ever comes into their rings.
        have hnf : setup.disableNf = true :=
          hend.resolve_left Bool.false_ne_true
        refine fun i hi => ⟨⟨h.1 i hi, h.2 i (Nat.lt_of_lt_of_le hi hc)⟩, ?_⟩
        refine List.eq_nil_iff_forall_not_mem.mpr fun pkt hpkt => ?_
        have hfit := ((inspected_of_reachable hw).fits (.txQ i) pkt hpkt).1
        rw [hnf] at hfit
        cases hfit
  cases a with
  | routing => exact bank_routing_idle hidle
  | forwarding i => exact bank_forwarding_idle hidle
  | nfRx i => exact (hall i hvalid).1.2
  | txQ i => exact (hall i hvalid).2
  | tx i => exact (hall i hvalid).1.1
  | rxQ i | inspecting i | nfTx i | accepted i | freed => exact ha.elim

end Swept

/-! ## Who moves a packet -/

/-- A step of the fast path. -/
def Action.isFast : Action → Bool
  | .fast _ => true
  | .coproc _ _ => false

/-- A step of coprocessor `i`. -/
def Action.isCoproc (i : Nat) : Action → Bool
  | .fast _ => false
  | .coproc j _ => j == i

/-- There is a packet for the fast path. -/
def World.FastHas (w : World) : Prop := ∃ a, a.OfFast ∧ w.bank a ≠ []

/-- There is a packet for coprocessor `i`. -/
def World.CoprocHas (i : Nat) (w : World) : Prop :=
  ∃ a, (a = .rxQ i ∨ a = .inspecting i ∨ a = .nfTx i) ∧ w.bank a ≠ []

open Classical in
/-- The steps after which the fast path has moved a packet, if it does not move
one before: to the end of the iteration, and of another one if it may have
passed it. -/
noncomputable def World.fastWait (w : World) : Nat :=
  w.fast.rank + (if Swept w.bank w.fast then 0 else lap + 1)

open Classical in
/-- The same for a coprocessor. -/
noncomputable def World.coprocWait (i : Nat) (w : World) : Nat :=
  match w.coproc i with
  | .start => if w.bank (.rxQ i) = [] then 1 else 0
  | .process _ => if w.bank (.nfTx i) = [] then 1 else 0

/-- One packet less in the burst. -/
theorem coprocStep_process {setup : Setup} {env : Env} {i : Nat} {pkt : Mbuf}
    {burst : List Mbuf} {s : State} :
    (coprocStep setup env i (.process (pkt :: burst)) s).1 =
      .process burst := by
  rw [coprocStep]
  split <;> rfl

section Waits

variable {setup : Setup} {w : World} {a : Action} {i : Nat}

theorem valid_of_bank (hw : Reachable setup w) {b : Place}
    (hb : w.bank b ≠ []) : b.Valid := by
  by_contra hvalid
  exact hb ((pipe_moves_of_reachable hw).conserved.confined b hvalid)

theorem swept_head (k : Bank Place Mbuf) : Swept k (.rxBurst 0) := trivial

/-- The fast path moves a packet, or it has one step less to wait. -/
theorem fast_moves (hw : Reachable setup w) (ha : draining setup w a)
    (hhas : w.FastHas) :
    (w.step setup a).load < w.load ∨ (w.step setup a).FastHas ∧
      (w.step setup a).fastWait + (if a.isFast then 1 else 0) ≤ w.fastWait := by
  refine (load_step hw ha).imp id fun hsame => ⟨?_, ?_⟩
  · obtain ⟨b, hb, hne⟩ := hhas
    exact ⟨b, hb, by rwa [hsame]⟩
  · unfold World.fastWait
    rw [hsame]
    cases a with
    | coproc j env => exact Nat.le_refl _
    | fast env =>
        obtain ⟨hburst, havail⟩ := ha
        have hrank : (w.step setup (.fast env)).fast.rank < w.fast.rank ∨
            (w.step setup (.fast env)).fast = .rxBurst 0 ∧ _ :=
          fastStep_rank fun k _ => by rw [hburst]; exact Nat.zero_le _
        simp only [Action.isFast, if_true]
        rcases hrank with hlt | ⟨hhead, again, c, hpc, hc, hend⟩
        · by_cases hswept : Swept w.bank w.fast
          · rw [if_pos (hswept.step (wired_of_reachable hw) havail hsame),
              if_pos hswept]
            omega
          · rw [if_neg hswept]
            split <;> omega
        · have hnot : ¬ Swept w.bank w.fast := by
            intro hswept
            obtain ⟨b, hb, hne⟩ := hhas
            exact hne (hswept.finished hw hpc hc hend hb (valid_of_bank hw hne))
          rw [hhead, if_pos (swept_head _), if_neg hnot]
          show lap + 0 + 1 ≤ _
          omega

/-- A coprocessor moves a packet, or it has one step less to wait. -/
theorem coproc_moves (hw : Reachable setup w) (ha : draining setup w a)
    (hhas : w.CoprocHas i) :
    (w.step setup a).load < w.load ∨ (w.step setup a).CoprocHas i ∧
      (w.step setup a).coprocWait i + (if a.isCoproc i then 1 else 0) ≤
        w.coprocWait i := by
  refine (load_step hw ha).imp id fun hsame => ?_
  have hhas' : (w.step setup a).CoprocHas i := by
    obtain ⟨b, hb, hne⟩ := hhas
    exact ⟨b, hb, by rwa [hsame]⟩
  refine ⟨hhas', ?_⟩
  cases a with
  | fast env =>
      unfold World.coprocWait
      rw [hsame]
      exact Nat.le_refl _
  | coproc j env =>
      by_cases hj : j = i
      · subst hj
        obtain ⟨hlt, -, havail⟩ := ha
        simp only [Action.isCoproc, beq_self_eq_true, if_true]
        have hins : (w.step setup (.coproc j env)).bank (.inspecting j) =
            ((coprocStep setup env j (w.coproc j) w.state).1).burst := by
          rw [bank_inspecting]
          exact congrArg CoprocPc.burst (Function.update_self _ _ _)
        have hnext : (w.step setup (.coproc j env)).coproc j =
            (coprocStep setup env j (w.coproc j) w.state).1 :=
              Function.update_self _ _ _
        rw [hsame, bank_inspecting] at hins
        obtain ⟨b, hb, hne⟩ := hhas
        cases hpc : w.coproc j with
        | start =>
            -- The ring is empty, so there is something to flush.
            rw [hpc] at hins
            have hring : w.bank (.rxQ j) = [] := by
              have hpos : 0 < pktBurstSz := by decide
              rcases List.take_eq_nil_iff.mp hins.symm with hzero | hnil
              · omega
              · exact hnil
            have hflush : w.bank (.nfTx j) ≠ [] := by
              rcases hb with rfl | rfl | rfl
              · exact absurd hring hne
              · rw [bank_inspecting, hpc] at hne
                exact absurd rfl hne
              · exact hne
            unfold World.coprocWait
            rw [hnext, hpc, hsame]
            simp only [coprocStep, if_neg hflush, if_pos hring]
            exact Nat.le_refl _
        | process burst =>
            cases burst with
            | nil =>
                -- The buffer is empty, so there is something in the ring.
                have hflush : w.bank (.nfTx j) = [] := by
                  rw [← hsame]
                  simp only [World.step, hpc, coprocStep]
                  exact flush_bank_nil .nfTx (w := { w with
                    coproc := Function.update w.coproc j .start })
                      (wired_of_reachable hw).conf hlt
                have hring : w.bank (.rxQ j) ≠ [] := by
                  rcases hb with rfl | rfl | rfl
                  · exact hne
                  · rw [bank_inspecting, hpc] at hne
                    exact absurd rfl hne
                  · exact absurd hflush hne
                unfold World.coprocWait
                rw [hnext, hpc, hsame]
                simp only [coprocStep, if_neg hring, if_pos hflush]
                exact Nat.le_refl _
            | cons pkt burst =>
                rw [hpc, coprocStep_process] at hins
                exact absurd (congrArg List.length hins) (Nat.succ_ne_self _)
      · have hother : (w.step setup (.coproc j env)).coproc i = w.coproc i :=
          Function.update_of_ne (Ne.symm hj) _ _
        have hown : (Action.coproc j env).isCoproc i = false := by
          simpa [Action.isCoproc] using hj
        unfold World.coprocWait
        rw [hsame, hother, hown]
        exact Nat.le_refl _

theorem reachable_of_draining {w' : World} {actions : List Action}
    (hw : Reachable setup w)
    (hrun : (engine setup).Steps (draining setup) w actions w') :
    Reachable setup w' :=
  hrun.invariant hw fun _ _ _ hr ha hs => .step hr (promised_of_draining ha) hs

theorem rank_le_lap (hw : Reachable setup w) : w.fast.rank ≤ lap := by
  refine Machine.Reach.invariant (I := fun w => w.fast.rank ≤ lap)
    (fun w hw => ?_)
    (fun w a w' _ hle ha hs => ?_) hw
  · rw [show w = World.start from hw]
    exact Nat.le_refl _
  · rw [show w' = w.step setup a from hs]
    cases a with
    | coproc i env => exact hle
    | fast env =>
        have hrank : (w.step setup (.fast env)).fast.rank < w.fast.rank ∨
            (w.step setup (.fast env)).fast = .rxBurst 0 ∧ _ :=
          fastStep_rank fun k hk => (ha k hk).1
        rcases hrank with hlt | ⟨hhead, -⟩
        · omega
        · rw [hhead]
          exact Nat.le_refl _

theorem load_le_of_draining {w' : World} {actions : List Action}
    (hw : Reachable setup w)
    (hrun : (engine setup).Steps (draining setup) w actions w') :
    w'.load ≤ w.load := by
  refine (hrun.invariant (I := fun t => Reachable setup t ∧ t.load ≤ w.load)
    ⟨hw, Nat.le_refl _⟩ fun t a t' ht ha hs =>
      ⟨.step ht.1 (promised_of_draining ha) hs, ?_⟩).2
  rw [show t' = t.step setup a from hs]
  have hle := ht.2
  rcases load_step ht.1 ha with hlt | hsame
  · omega
  · rwa [World.load, hsame]

end Waits

/-! ## All packets -/

/-- Every thread has enough steps to move a packet. -/
def Busy (setup : Setup) (round : List Action) : Prop :=
  2 * lap + 2 ≤ round.countP Action.isFast ∧
    (setup.disableNf = false →
      ∀ i < kniKthread, 2 ≤ round.countP (Action.isCoproc i))

section Rounds

variable {setup : Setup} {w w' : World} {round : List Action}

theorem lowers_of_fastHas (hw : Reachable setup w)
    (hrun : (engine setup).Steps (draining setup) w round w')
    (hbusy : Busy setup round) (hhas : w.FastHas) : w'.load < w.load := by
  refine hrun.lowers World.load World.fastWait Action.isFast World.FastHas hw
    (fun t a t' ht ha hs => ?_) hhas ?_
  · have hone : (engine setup).Steps (draining setup) t [a] t' :=
      .cons ha hs .nil
    refine ⟨reachable_of_draining ht hone, load_le_of_draining ht hone,
      fun hhas => ?_⟩
    rw [show t' = t.step setup a from hs]
    exact fast_moves ht ha hhas
  · have hrank := rank_le_lap hw
    have hcount := hbusy.1
    unfold World.fastWait
    split <;> omega

theorem lowers_of_coprocHas {i : Nat} (hw : Reachable setup w)
    (hrun : (engine setup).Steps (draining setup) w round w')
    (hcount : 2 ≤ round.countP (Action.isCoproc i)) (hhas : w.CoprocHas i) :
    w'.load < w.load := by
  refine hrun.lowers World.load (World.coprocWait i) (Action.isCoproc i)
    (World.CoprocHas i) hw
    (fun t a t' ht ha hs => ?_) hhas ?_
  · have hone : (engine setup).Steps (draining setup) t [a] t' :=
      .cons ha hs .nil
    refine ⟨reachable_of_draining ht hone, load_le_of_draining ht hone,
      fun hhas => ?_⟩
    rw [show t' = t.step setup a from hs]
    exact coproc_moves ht ha hhas
  · unfold World.coprocWait
    split <;> split <;> omega

/-- As long as there is a packet in the engine, a round moves one. -/
theorem round_lowers (hw : Reachable setup w)
    (hrun : (engine setup).Steps (draining setup) w round w')
    (hbusy : Busy setup round) :
    w'.load < w.load ∨ w'.load = 0 := by
  by_cases hzero : w.load = 0
  · have hle := load_le_of_draining hw hrun
    exact .inr (by omega)
  · left
    obtain ⟨a, hplace, hweight, hne⟩ :
        ∃ a ∈ places, a.weight ≠ 0 ∧ w.bank a ≠ [] := by
      by_contra hnone
      push Not at hnone
      refine hzero (Bank.load_eq_zero_iff.mpr fun a ha => ?_)
      exact or_iff_not_imp_left.mpr (hnone a ha)
    have hi := mem_places.mp hplace
    have hfast : a.OfFast → w'.load < w.load := fun ha =>
      lowers_of_fastHas hw hrun hbusy ⟨a, ha, hne⟩
    -- What lies with a coprocessor says that there are coprocessors.
    obtain ⟨pkt, hpkt⟩ := List.exists_mem_of_ne_nil _ hne
    have hfits := (inspected_of_reachable hw).fits a pkt hpkt
    cases a with
    | routing | nfRx i | txQ i | forwarding i | tx i => exact hfast trivial
    | rxQ i =>
        exact lowers_of_coprocHas hw hrun (hbusy.2 hfits.1 i hi)
          ⟨_, .inl rfl, hne⟩
    | inspecting i =>
        exact lowers_of_coprocHas hw hrun (hbusy.2 hfits.1 i hi)
          ⟨_, .inr (.inl rfl), hne⟩
    | nfTx i =>
        exact lowers_of_coprocHas hw hrun (hbusy.2 hfits.1 i hi)
          ⟨_, .inr (.inr rfl), hne⟩
    | accepted i | freed => exact absurd rfl hweight

end Rounds

/-- From any state that a run comes to, once the ports send nothing and as long
as every thread gets its turns, there are no more rounds with a packet in the
engine than there are hand-overs left: after them every packet that was ever
received has been taken by a port or freed. -/
theorem engine_drains {setup : Setup} {w w' : World}
    {rounds : List (List Action)} (hw : Reachable setup w)
    (hrun : (engine setup).Steps (draining setup) w rounds.flatten w')
    (hrounds : ∀ r ∈ rounds, Busy setup r) (hlength : w.load ≤ rounds.length) :
    received w'.state.log = received w.state.log ∧
      ∀ pkt ∈ received w.state.log,
        (∃ i < kniKthread, pkt ∈ accepted i w'.state.log) ∨
        pkt ∈ freed w'.state.log := by
  have hreceived : received w'.state.log = received w.state.log := by
    refine hrun.invariant
      (I := fun t => received t.state.log = received w.state.log) rfl
      fun t a t' ht ha hs => ?_
    rw [show t' = t.step setup a from hs, received_of_draining ha, ht]
  have hbusy : (engine setup).Rounds (draining setup) (fun _ => Busy setup)
      rounds.length w w' := hrun.rounds fun r hr _ => hrounds r hr
  have hzero : w'.load = 0 :=
    hbusy.lowers (I := Reachable setup) hw (fun t actions t' ht hsteps hround =>
      ⟨reachable_of_draining ht hsteps, round_lowers ht hsteps hround⟩) hlength
  refine ⟨hreceived, fun pkt hpkt => ?_⟩
  have hw' := reachable_of_draining hw hrun
  obtain ⟨a, ha⟩ := (pipe_moves_of_reachable hw').conserved.sound.one pkt
    (show pkt ∈ received w'.state.log by rwa [hreceived])
  have hmem : pkt ∈ w'.bank a := List.count_pos_iff.mp (by
    have hone : (w'.bank a).count pkt = 1 := (ha a).trans (if_pos rfl)
    omega)
  have hne : w'.bank a ≠ [] := List.ne_nil_of_mem hmem
  have hvalid := valid_of_bank hw' hne
  have hweight : a.weight = 0 :=
    (Bank.load_eq_zero_iff.mp hzero a (mem_places.mpr hvalid)).resolve_right hne
  cases a with
  | accepted i => exact .inl ⟨i, hvalid, hmem⟩
  | freed => exact .inr hmem
  | routing | nfRx i | rxQ i | inspecting i | nfTx i | txQ i | forwarding i
      | tx i => cases hweight

/-- A round in which the threads take their steps one after the other. -/
def sampleRound : List Action :=
  List.replicate (2 * lap + 2) (.fast sampleEnv) ++
    (List.range kniKthread).flatMap fun i =>
      List.replicate 2 (.coproc i sampleEnv)

theorem sampleRound_busy : Busy sampleSetup sampleRound := by
  refine ⟨?_, fun _ => ?_⟩
  · rw [sampleRound, List.countP_append, List.countP_replicate]
    exact Nat.le_add_right _ _
  · decide +kernel

theorem steps_of_draining {setup : Setup} {w : World} {actions : List Action}
    (h : ∀ a ∈ actions, ∀ w, draining setup w a) :
    (engine setup).Steps (draining setup) w actions (w.run setup actions) := by
  induction actions generalizing w with
  | nil => exact .nil
  | cons a actions ih =>
      obtain ⟨ha, hrest⟩ := List.forall_mem_cons.mp h
      exact .cons (ha w) rfl (ih hrest)

theorem sampleRound_draining (w : World) :
    ∀ a ∈ sampleRound, draining sampleSetup w a := by
  refine List.forall_mem_append.mpr ⟨fun a ha => ?_, fun a ha => ?_⟩
  · rw [List.eq_of_mem_replicate ha]
    exact ⟨rfl, by decide⟩
  · obtain ⟨i, hi, ha⟩ := List.mem_flatMap.mp ha
    rw [List.eq_of_mem_replicate ha]
    exact ⟨List.mem_range.mp hi, rfl, by decide⟩

/-- In the middle of the sample run there are three packets in the engine, and
after fifteen rounds packet 5 is out. -/
theorem engine_drains_sample :
    ∃ w', (engine sampleSetup).Steps (draining sampleSetup) (World.sample 27)
        (List.replicate 15 sampleRound).flatten w' ∧
      ((∃ i < kniKthread, 5 ∈ accepted i w'.state.log) ∨
        5 ∈ freed w'.state.log) := by
  have hall : ∀ a ∈ (List.replicate 15 sampleRound).flatten, ∀ w,
      draining sampleSetup w a := by
    intro a ha w
    obtain ⟨r, hr, ha⟩ := List.mem_flatten.mp ha
    rw [List.eq_of_mem_replicate hr] at ha
    exact sampleRound_draining w a ha
  have hrun := steps_of_draining (w := World.sample 27) hall
  refine ⟨_, hrun,
    (engine_drains (sample_reachable (by decide)) hrun (fun r hr => ?_)
    (by decide +kernel)).2 5 (by decide +kernel)⟩
  rw [List.eq_of_mem_replicate hr]
  exact sampleRound_busy

end GhostDataplane.Engine
