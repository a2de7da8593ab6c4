import GhostDataplane.Engine.Pipe

/-!
# The engine is a pipe

`World.pipe` forgets the threads: it reads off a state of the engine what
lies where, and off its log what has happened. Every step of every thread is
then a few moves of the pipe, and none when nothing but a program counter
changed.

Two things have to be known about a state for that. The configuration is the
one `read_config` made, so every port that `get_next_hop` finds is one of the
five and no enqueue returns early; and a thread in the middle of a burst is
where its loop put it. `Wired` says so, and is itself an invariant.
-/

namespace GhostDataplane.Engine

open GhostDataplane.Lib

/-! ## The log -/

section Log

variable {log log' : List Event} {i : Nat} {pkt : Mbuf}

theorem received_append :
    received (log ++ log') = received log ++ received log' :=
      List.flatMap_append

theorem freed_append : freed (log ++ log') = freed log ++ freed log' :=
  List.flatMap_append

theorem handed_append :
    handed i (log ++ log') = handed i log ++ handed i log' :=
  List.flatMap_append

theorem accepted_append :
    accepted i (log ++ log') = accepted i log ++ accepted i log' :=
  List.flatMap_append

theorem inspections_append : inspections pkt (log ++ log') =
    inspections pkt log ++ inspections pkt log' := List.flatMap_append

/-- The entries that the loop over the packets to free writes. -/
theorem freed_map (pkts : List Mbuf) : freed (pkts.map .freed) = pkts := by
  induction pkts with
  | nil => rfl
  | cons pkt pkts ih => exact congrArg (pkt :: ·) ih

theorem flatMap_map_freed {β : Type} {f : Event → List β} (pkts : List Mbuf)
    (hf : ∀ pkt, f (.freed pkt) = []) : (pkts.map .freed).flatMap f = [] := by
  rw [List.flatMap_eq_nil_iff]
  intro e he
  obtain ⟨pkt, -, rfl⟩ := List.mem_map.mp he
  exact hf pkt

theorem any_short_map_freed (pkts : List Mbuf) :
    (pkts.map Event.freed).any Event.short = false := by
  rw [List.any_eq_false]
  intro e he
  obtain ⟨pkt, -, rfl⟩ := List.mem_map.mp he
  exact Bool.false_ne_true

end Log

theorem freeAll_eq (pkts : List Mbuf) (s : State) :
    freeAll pkts s = { s with log := s.log ++ pkts.map .freed } := by
  induction pkts generalizing s with
  | nil => simp [freeAll]
  | cons pkt pkts ih => simp [freeAll, ih, rtePktmbufFree, State.note]

/-! ## Reading off the pipe -/

def World.bank (w : World) : Bank Place Mbuf
  | .routing =>
      match w.fast with
      | .route _ burst => burst
      | _ => []
  | .nfRx i => (w.state.nf i).rx
  | .rxQ i => (w.state.nf i).rxQ
  | .inspecting i =>
      match w.coproc i with
      | .process burst => burst
      | .start => []
  | .nfTx i => (w.state.nf i).tx
  | .txQ i => (w.state.nf i).txQ
  | .forwarding i =>
      match w.fast with
      | .forward c burst => if c = i then burst else []
      | _ => []
  | .tx i => w.state.txMgr.tx i
  | .accepted i => accepted i w.state.log
  | .freed => freed w.state.log

def World.pipe (w : World) : Pipe where
  bank := w.bank
  received := received w.state.log
  handed := fun i => handed i w.state.log
  inspections := fun pkt => inspections pkt w.state.log
  short := w.state.log.any Event.short

namespace Stage

/-- The place that the stage's buffer is. -/
def place : Stage → Nat → Place
  | port => .tx
  | nfRx => .nfRx
  | nfTx => .nfTx

/-- The place that it is flushed to. -/
def out : Stage → Nat → Place
  | port => .accepted
  | nfRx => .rxQ
  | nfTx => .txQ

theorem edge (st : Stage) (i : Nat) : Edge (st.place i) (st.out i) := by
  cases st with
  | port => exact .transmit
  | nfRx => exact .flushRx
  | nfTx => exact .flushTx

theorem lossy (st : Stage) (i : Nat) : Lossy (st.place i) := by
  cases st with
  | port => exact .tx
  | nfRx => exact .nfRx
  | nfTx => exact .nfTx

theorem bank_place (st : Stage) (w : World) (i : Nat) :
    w.bank (st.place i) = st.buf w.state i := by
  cases st <;> rfl

theorem sent_le (st : Stage) (env : Env) (n : Nat) : st.sent env n ≤ n := by
  cases st with
  | port => exact Nat.min_le_right _ _
  | nfRx | nfTx =>
      simp only [sent]
      split <;> omega

end Stage

/-! ## What the places see of an update -/

section Updates

variable {w : World} {i : Nat}

/-- Write one of the buffers or rings. -/
def State.put (s : State) : Place → List Mbuf → State
  | .nfRx i, b => s.setNf i { s.nf i with rx := b }
  | .rxQ i, b => s.setNf i { s.nf i with rxQ := b }
  | .nfTx i, b => s.setNf i { s.nf i with tx := b }
  | .txQ i, b => s.setNf i { s.nf i with txQ := b }
  | .tx i, b => s.setTx i b
  | _, _ => s

/-- The places that are buffers or rings. -/
def Place.stored : Place → Bool
  | .nfRx _ | .rxQ _ | .nfTx _ | .txQ _ | .tx _ => true
  | _ => false

theorem bank_put (place : Place) {b : List Mbuf} (h : place.stored = true) :
    World.bank { w with state := w.state.put place b } =
      Function.update w.bank place b := by
  funext place'
  cases place with
  | nfRx i | rxQ i | nfTx i | txQ i | tx i =>
      rw [Function.update_apply]
      cases place' <;>
        simp only [World.bank, State.put, State.setNf, State.setTx,
          Function.update_apply, reduceCtorEq, if_false, Place.nfRx.injEq,
          Place.rxQ.injEq, Place.nfTx.injEq, Place.txQ.injEq, Place.tx.injEq]
      all_goals
        split
        · simp_all
        · rfl
  | routing | inspecting i | forwarding i | accepted i | freed => cases h

/-- What a place gets from an event. -/
def gain (e : Event) : Place → List Mbuf
  | .accepted i => accepted i [e]
  | .freed => freed [e]
  | _ => []

theorem bank_note {e : Event} :
    World.bank { w with state := w.state.note e } =
      fun place => w.bank place ++ gain e place := by
  funext place
  cases place with
  | accepted i => exact accepted_append
  | freed => exact freed_append
  | routing | nfRx i | rxQ i | inspecting i | nfTx i | txQ i | forwarding i
  | tx i => exact (List.append_nil _).symm

theorem bank_freeAll {pkts : List Mbuf} :
    World.bank { w with state := freeAll pkts w.state } =
      Function.update w.bank .freed (w.bank .freed ++ pkts) := by
  rw [freeAll_eq]
  funext place
  rw [Function.update_apply]
  cases place with
  | freed =>
      rw [if_pos rfl]
      exact freed_append.trans (by rw [freed_map]; rfl)
  | accepted i =>
      rw [if_neg (by simp)]
      exact accepted_append.trans (by
        rw [accepted, accepted, flatMap_map_freed pkts fun _ => rfl,
          List.append_nil]; rfl)
  | routing | nfRx i | rxQ i | inspecting i | nfTx i | txQ i | forwarding i
  | tx i => rfl

end Updates

/-! ## Flushing -/

section Flush

variable {st : Stage} {w : World} {i : Nat}

theorem bank_setBuf {b : PacketBuf} :
    World.bank { w with state := st.setBuf w.state i b } =
      Function.update w.bank (st.place i) b := by
  cases st with
  | port => exact bank_put (.tx i) rfl
  | nfRx => exact bank_put (.nfRx i) rfl
  | nfTx => exact bank_put (.nfTx i) rfl

theorem bank_count {sent dropped : Nat} :
    World.bank { w with state := st.count i sent dropped w.state } =
      w.bank := by
  cases st <;> rfl

/-- A ring takes packets. -/
theorem bank_ringEnqueue (place : Place) {b : PacketBuf} {sent : Nat}
    {pkts : List Mbuf} (h : place.stored = true) :
    World.bank { w with
        state := (w.state.note (.ringEnqueue b sent)).put place pkts } =
      Function.update w.bank place pkts := by
  have hnote :
      World.bank { w with state := w.state.note (.ringEnqueue b sent) } =
      w.bank := by
    rw [bank_note]
    funext place
    cases place <;> exact List.append_nil _
  rw [← hnote]
  exact bank_put (w := { w with state := w.state.note (.ringEnqueue b sent) })
    place h

theorem bank_deliver {b : PacketBuf} {sent : Nat} :
    World.bank { w with state := st.deliver i b sent w.state } =
      Function.update w.bank (st.out i) (w.bank (st.out i) ++ b.take sent) := by
  cases st with
  | port =>
      refine bank_note.trans ?_
      funext place
      rw [Function.update_apply]
      split
      · next h =>
          rw [h]
          simp [gain, accepted, Stage.out]
      · next h =>
          cases place with
          | accepted j =>
              have hij : i ≠ j := fun heq => h (heq ▸ rfl)
              simp [gain, accepted, hij]
          | routing | nfRx j | rxQ j | inspecting j | nfTx j | txQ j
          | forwarding j | tx j | freed => exact List.append_nil _
  | nfRx => exact bank_ringEnqueue (.rxQ i) rfl
  | nfTx => exact bank_ringEnqueue (.txQ i) rfl

/-- What a flush does to the places. -/
theorem flush_bank {env : Env} (hi : i < w.state.txMgr.nbActiveKni)
    (hne : st.buf w.state i ≠ []) :
    World.bank { w with state := flush st env i w.state } =
      (w.bank.shift (st.place i) (st.out i)
        (st.sent env (st.buf w.state i).length)).shift (st.place i) .freed
        (st.buf w.state i).length := by
  have hlen : (st.buf w.state i).length ≠ 0 := by simpa using hne
  have hidx : ¬ i ≥ w.state.txMgr.nbActiveKni := by omega
  let b := st.buf w.state i
  let n := st.sent env b.length
  let w₁ : World := { w with state := st.deliver i b n w.state }
  let w₂ : World := { w₁ with state := freeAll (b.drop n) w₁.state }
  let w₃ : World := { w₂ with state := st.count i n (b.length - n) w₂.state }
  have hflush : World.bank { w with state := flush st env i w.state } =
      World.bank { w₃ with state := st.setBuf w₃.state i [] } := by
    simp only [flush, if_neg hidx, if_neg hlen]
    rfl
  have hcount : w₃.bank = w₂.bank := bank_count
  have hfree : w₂.bank = Function.update w₁.bank .freed
      (w₁.bank .freed ++ b.drop n) := bank_freeAll
  have hdeliver : w₁.bank = Function.update w.bank (st.out i)
      (w.bank (st.out i) ++ b.take n) := bank_deliver
  have hout : st.out i ≠ .freed := by cases st <;> simp [Stage.out]
  have hplace : st.place i ≠ st.out i ∧ st.place i ≠ .freed := by
    cases st <;> simp [Stage.place, Stage.out]
  have hshift := Bank.shift_rest (k := w.bank) (n := n) hplace.1 hplace.2 hout
  rw [st.bank_place] at hshift
  rw [hflush, bank_setBuf, hcount, hfree, hdeliver,
    Function.update_of_ne (Ne.symm hout)]
  exact hshift.symm

/-- What the log says about the hand-over of a buffer. -/
def Stage.event : Stage → Nat → PacketBuf → Nat → Event
  | port, i, b, sent => .kniTx i b sent
  | nfRx, _, b, sent | nfTx, _, b, sent => .ringEnqueue b sent

theorem flush_log {env : Env} {s : State} (hi : i < s.txMgr.nbActiveKni)
    (hne : st.buf s i ≠ []) :
    (flush st env i s).log = s.log ++
      (st.event i (st.buf s i) (st.sent env (st.buf s i).length) ::
        ((st.buf s i).drop (st.sent env (st.buf s i).length)).map .freed) := by
  have hlen : (st.buf s i).length ≠ 0 := by simpa using hne
  have hidx : ¬ i ≥ s.txMgr.nbActiveKni := by omega
  simp only [flush, if_neg hidx, if_neg hlen, freeAll_eq]
  rw [List.append_cons]
  cases st <;> rfl

theorem flush_idle {env : Env} {s : State} (h : st.buf s i = []) :
    flush st env i s = s := by
  simp [flush, h]

theorem flush_txMgr {env : Env} {s : State} :
    (flush st env i s).txMgr.nbActiveKni = s.txMgr.nbActiveKni ∧
      (flush st env i s).txMgr.routingTable = s.txMgr.routingTable := by
  simp only [flush, freeAll_eq]
  split
  · exact ⟨rfl, rfl⟩
  · split
    · exact ⟨rfl, rfl⟩
    · cases st <;> exact ⟨rfl, rfl⟩

/-- The packets handed to the ports, after the buffer was. -/
def Stage.handedTo (handed : Nat → List Mbuf) (i : Nat) (b : PacketBuf) :
    Stage → Nat → List Mbuf
  | port => Function.update handed i (handed i ++ b)
  | nfRx | nfTx => handed

theorem handed_event {log : List Event} {b : PacketBuf} {sent j : Nat} :
    handed j log ++ handed j [st.event i b sent] =
      st.handedTo (fun j => handed j log) i b j := by
  cases st with
  | port =>
      rw [Stage.handedTo, Function.update_apply]
      by_cases hji : j = i
      · rw [if_pos hji, hji]
        simp [Stage.event, handed]
      · have hij : i ≠ j := fun heq => hji heq.symm
        simp [Stage.event, handed, hij, hji]
  | nfRx | nfTx => exact List.append_nil _

/-- The pipe after a flush. -/
theorem flush_pipe {env : Env} (hi : i < w.state.txMgr.nbActiveKni)
    (hne : st.buf w.state i ≠ []) :
    World.pipe { w with state := flush st env i w.state } =
      { bank := (w.bank.shift (st.place i) (st.out i)
          (st.sent env (st.buf w.state i).length)).shift (st.place i) .freed
          (st.buf w.state i).length
        received := w.pipe.received
        handed := st.handedTo w.pipe.handed i (st.buf w.state i)
        inspections := w.pipe.inspections
        short := w.pipe.short || decide
          (st.sent env (st.buf w.state i).length <
            (st.buf w.state i).length) } := by
  have hlog : (flush st env i w.state).log = _ := flush_log hi hne
  have hskip : ∀ {β : Type} {f : Event → List β} (e : Event) (pkts : List Mbuf),
      (∀ pkt, f (.freed pkt) = []) →
      List.flatMap f (e :: pkts.map .freed) = List.flatMap f [e] := by
    intro β f e pkts hf
    rw [List.flatMap_cons, List.flatMap_singleton, flatMap_map_freed pkts hf,
      List.append_nil]
  refine Pipe.ext (flush_bank hi hne) ?_ ?_ ?_ ?_
  · refine (congrArg received hlog).trans (received_append.trans ?_)
    rw [received, received, hskip _ _ fun _ => rfl]
    cases st <;> exact List.append_nil _
  · funext j
    refine (congrArg (handed j) hlog).trans (handed_append.trans ?_)
    rw [handed, handed, hskip _ _ fun _ => rfl]
    exact handed_event
  · funext pkt
    refine (congrArg (inspections pkt) hlog).trans (inspections_append.trans ?_)
    rw [inspections, inspections, hskip _ _ fun _ => rfl]
    cases st <;> exact List.append_nil _
  · refine (congrArg (fun log => List.any log Event.short) hlog).trans ?_
    rw [List.any_append, List.any_cons, any_short_map_freed, Bool.or_false]
    cases st <;> rfl

/-- A flush is a hand-over of what fits and a loss of what does not. -/
theorem flush_moves {setup : Setup} {env : Env}
    (hnb : w.state.txMgr.nbActiveKni = kniKthread) (hi : i < kniKthread) :
    Pipe.Moves setup w.pipe
      (World.pipe { w with state := flush st env i w.state }) := by
  by_cases hne : st.buf w.state i = []
  · rw [flush_idle hne]
    exact .refl
  rw [flush_pipe (by omega) hne]
  have hbuf : w.bank (st.place i) = st.buf w.state i := st.bank_place w i
  let q₁ : Pipe := { w.pipe with
    handed := st.handedTo w.pipe.handed i (st.buf w.state i) }
  have hhand : Pipe.Moves setup w.pipe q₁ := by
    cases st with
    | port => exact (Pipe.Move.hand hi).moves
    | nfRx | nfTx => exact .refl
  have hadvance : Pipe.Move setup q₁ (q₁.shift (st.place i) (st.out i)
      (st.sent env (st.buf w.state i).length)) := .advance (st.edge i)
  refine hhand.trans (.head hadvance ?_)
  have hsent := st.sent_le env (st.buf w.state i).length
  by_cases hshort : st.sent env (st.buf w.state i).length <
      (st.buf w.state i).length
  · rw [decide_eq_true hshort, Bool.or_true]
    exact (Pipe.Move.lose (st.lossy i)).moves
  · have hrest : w.bank.shift (st.place i) (st.out i)
        (st.sent env (st.buf w.state i).length) (st.place i) = [] := by
      rw [Bank.shift_source (by cases st <;> simp [Stage.place, Stage.out]),
        hbuf]
      exact List.drop_eq_nil_of_le (by omega)
    rw [Bank.shift_nil hrest, decide_eq_false hshort, Bool.or_false]
    exact .refl

end Flush

/-! ## Program counters -/

/-- What is left of the fast path's burst. -/
def FastPc.burst : FastPc → List Mbuf
  | .route _ burst | .forward _ burst => burst
  | _ => []

/-- What is left of the burst of a coprocessor. -/
def CoprocPc.burst : CoprocPc → List Mbuf
  | .process burst => burst
  | .start => []

section Counters

variable {w : World} {burst : List Mbuf}

theorem bank_routing_idle (h : w.fast.burst = []) : w.bank .routing = [] := by
  simp only [World.bank]
  split
  · next hpc =>
      rw [hpc] at h
      exact h
  · rfl

theorem bank_forwarding_idle {i : Nat} (h : w.fast.burst = []) :
    w.bank (.forwarding i) = [] := by
  simp only [World.bank]
  split
  · next c burst hpc =>
      rw [hpc] at h
      rw [show burst = [] from h]
      exact ite_self []
  · rfl

theorem bank_inspecting {i : Nat} :
    w.bank (.inspecting i) = (w.coproc i).burst := by
  simp only [World.bank]
  cases w.coproc i <;> rfl

theorem bank_fast_idle {pc : FastPc} (h : w.fast.burst = [])
    (hpc : pc.burst = []) : World.bank { w with fast := pc } = w.bank := by
  funext place
  cases place with
  | routing => exact (bank_routing_idle hpc).trans (bank_routing_idle h).symm
  | forwarding i =>
      exact (bank_forwarding_idle hpc).trans (bank_forwarding_idle h).symm
  | nfRx i | rxQ i | inspecting i | nfTx i | txQ i | tx i
      | accepted i | freed =>
      rfl

theorem bank_route {k : Nat} (h : ∀ c b, w.fast = .forward c b → b = []) :
    World.bank { w with fast := .route k burst } =
      Function.update w.bank .routing burst := by
  funext place
  rw [Function.update_apply]
  cases place with
  | routing => rfl
  | forwarding i =>
      rw [if_neg (by simp)]
      simp only [World.bank]
      split
      · next c b hf =>
          rw [h c b hf]
          split <;> rfl
      · rfl
  | nfRx i | rxQ i | inspecting i | nfTx i | txQ i | tx i
      | accepted i | freed =>
      rfl

theorem bank_forward {c : Nat} (h : ∀ k b, w.fast = .route k b → b = [])
    (hc : ∀ c' b, w.fast = .forward c' b → c' = c) :
    World.bank { w with fast := .forward c burst } =
      Function.update w.bank (.forwarding c) burst := by
  funext place
  rw [Function.update_apply]
  cases place with
  | routing =>
      rw [if_neg (by simp)]
      simp only [World.bank]
      split
      · next k b hf => exact (h k b hf).symm
      · rfl
  | forwarding i =>
      simp only [World.bank, Place.forwarding.injEq]
      by_cases hic : i = c
      · rw [if_pos hic.symm, if_pos hic]
      · rw [if_neg fun heq => hic heq.symm, if_neg hic]
        split
        · next c' b hf => rw [hc c' b hf, if_neg fun heq => hic heq.symm]
        · rfl
  | nfRx i | rxQ i | inspecting i | nfTx i | txQ i | tx i
      | accepted i | freed =>
      rfl

theorem bank_process {i : Nat} :
    World.bank { w with
        coproc := Function.update w.coproc i (.process burst) } =
      Function.update w.bank (.inspecting i) burst := by
  funext place
  rw [Function.update_apply]
  cases place with
  | inspecting j =>
      simp only [World.bank, Place.inspecting.injEq, Function.update_apply]
      by_cases hji : j = i
      · rw [if_pos hji, if_pos hji]
      · rw [if_neg hji, if_neg hji]
  | routing | nfRx j | rxQ j | nfTx j | txQ j | forwarding j | tx j | accepted j
  | freed => rfl

theorem bank_coproc_start {i : Nat} (h : w.coproc i = .process []) :
    World.bank { w with coproc := Function.update w.coproc i .start } =
      w.bank := by
  funext place
  cases place with
  | inspecting j =>
      simp only [World.bank, Function.update_apply]
      by_cases hji : j = i
      · rw [if_pos hji, hji, h]
      · rw [if_neg hji]
  | routing | nfRx j | rxQ j | nfTx j | txQ j | forwarding j | tx j | accepted j
  | freed => rfl

end Counters

end GhostDataplane.Engine
