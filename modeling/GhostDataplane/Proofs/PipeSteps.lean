import GhostDataplane.Proofs.Pipe

/-!
# Every step of a thread is a move of the pipe

`fastStep_moves` and `coprocStep_moves` go through the steps of the two
threads. Most are one move; a step that fills a staging buffer flushes it and
is a few; a step that only advances a loop index is none.
-/

namespace GhostDataplane.Engine

open GhostDataplane.Lib

/-- The configuration is the one that `read_config` made. -/
structure Configured (s : State) : Prop where
  nb : s.txMgr.nbActiveKni = kniKthread
  table : s.txMgr.routingTable = configured.txMgr.routingTable

/-- The engine is configured, and a thread that works on a burst got it from a
coprocessor that exists, or is one. -/
structure Wired (w : World) : Prop where
  conf : Configured w.state
  forward : ∀ c burst, w.fast = .forward c burst → c < kniKthread
  process : ∀ i burst, w.coproc i = .process burst → i < kniKthread

/-! ## Enqueueing -/

theorem enqueue_eq {st : Stage} {env : Env} {pkt : Mbuf} {i : Nat} {s : State}
    (hi : i < s.txMgr.nbActiveKni) :
    enqueue st env pkt i s = st.setBuf s i (st.buf s i ++ [pkt]) ∨
      enqueue st env pkt i s =
        flush st env i (st.setBuf s i (st.buf s i ++ [pkt])) := by
  have hidx : ¬ i ≥ s.txMgr.nbActiveKni := by omega
  simp only [enqueue, if_neg hidx]
  split
  · exact Or.inr rfl
  · exact Or.inl rfl

theorem setBuf_nb {st : Stage} {s : State} {i : Nat} {b : PacketBuf} :
    (st.setBuf s i b).txMgr.nbActiveKni = s.txMgr.nbActiveKni := by
  cases st <;> rfl

theorem setBuf_table {st : Stage} {s : State} {i : Nat} {b : PacketBuf} :
    (st.setBuf s i b).txMgr.routingTable = s.txMgr.routingTable := by
  cases st <;> rfl

theorem setBuf_log {st : Stage} {s : State} {i : Nat} {b : PacketBuf} :
    (st.setBuf s i b).log = s.log := by
  cases st <;> rfl

/-- A thread that takes the next packet of its burst and enqueues it: `w₀` is
the state with the burst advanced. The packet moves to the buffer, which may
then be flushed. -/
theorem enqueue_moves {setup : Setup} {st : Stage} {env : Env} {w : World}
    (w₀ : World) {src : Place} {pkt : Mbuf} {rest : List Mbuf} {i : Nat}
    {q : Pipe} (hstate : w₀.state = w.state)
    (hbank : w₀.bank = Function.update w.bank src rest)
    (hsrc : w.bank src = pkt :: rest)
    (hnb : w.state.txMgr.nbActiveKni = kniKthread) (hi : i < kniKthread)
    (hmove : Pipe.Moves setup q (w.pipe.shift src (st.place i) 1)) :
    Pipe.Moves setup q
      (World.pipe { w₀ with state := enqueue st env pkt i w.state }) := by
  let w₁ : World := { w₀ with
    state := st.setBuf w₀.state i (st.buf w₀.state i ++ [pkt]) }
  have hbank₁ : w₁.bank = w.bank.shift src (st.place i) 1 := by
    have hset : w₁.bank = Function.update w₀.bank (st.place i)
        (st.buf w₀.state i ++ [pkt]) := bank_setBuf
    rw [hset, hbank, hstate, Bank.shift, hsrc, st.bank_place]
    rfl
  have hlog₁ : w₁.state.log = w.state.log := setBuf_log.trans (by rw [hstate])
  have hpipe₁ : w₁.pipe = w.pipe.shift src (st.place i) 1 := by
    refine Pipe.ext hbank₁ ?_ ?_ ?_ ?_ <;> simp only [World.pipe, hlog₁] <;> rfl
  rw [← hpipe₁] at hmove
  have hcases : enqueue st env pkt i w.state = _ ∨
      enqueue st env pkt i w.state = _ :=
    enqueue_eq (hnb ▸ hi)
  rcases hcases with heq | heq
  · rw [heq]
    simp only [w₁, hstate] at hmove
    exact hmove
  · rw [heq]
    refine hmove.trans ?_
    have hnb₁ : w₁.state.txMgr.nbActiveKni = kniKthread := by
      rw [show w₁.state.txMgr.nbActiveKni = w₀.state.txMgr.nbActiveKni from
        setBuf_nb, hstate, hnb]
    have hflush : Pipe.Moves setup w₁.pipe
        (World.pipe { w₁ with state := flush st env i w₁.state }) :=
      flush_moves hnb₁ hi
    simp only [w₁, hstate] at hflush ⊢
    exact hflush

/-- The same for a thread that frees the packet. -/
theorem free_pipe {w : World} (w₀ : World) {src : Place} {pkt : Mbuf}
    {rest : List Mbuf}
    (hstate : w₀.state = w.state)
    (hbank : w₀.bank = Function.update w.bank src rest)
    (hsrc : w.bank src = pkt :: rest) :
    World.pipe { w₀ with state := rtePktmbufFree pkt w.state } =
      w.pipe.shift src .freed 1 := by
  have hfree : World.bank { w₀ with state := freeAll [pkt] w₀.state } =
      Function.update w₀.bank .freed (w₀.bank .freed ++ [pkt]) := bank_freeAll
  rw [hstate] at hfree
  refine Pipe.ext ?_ ?_ ?_ ?_ ?_
  · refine hfree.trans ?_
    have hfreed : w₀.bank .freed = w.bank .freed := by
      simp only [World.bank, hstate]
    rw [hfreed, hbank]
    simp only [World.pipe, Pipe.shift, Bank.shift, hsrc]
    rfl
  · exact received_append.trans (List.append_nil _)
  · funext i
    exact handed_append.trans (List.append_nil _)
  · funext pkt
    exact inspections_append.trans (List.append_nil _)
  · simp [World.pipe, rtePktmbufFree, State.note, Event.short, Pipe.shift]

/-! ## The fast path -/

section Fast

variable {setup : Setup} {env : Env} {w : World} {k c : Nat}
  {pkt : Mbuf} {burst : List Mbuf}

/-- A step that only moves the program counter. -/
theorem pipe_fast_idle {pc : FastPc} (h : w.fast.burst = [])
    (hpc : pc.burst = []) : World.pipe { w with fast := pc } = w.pipe := by
  refine Pipe.ext (bank_fast_idle h hpc) rfl rfl rfl rfl

theorem fast_rxBurst_moves (hpc : w.fast = .rxBurst k)
    (hnodup : env.burst.Nodup)
    (hfresh : ∀ pkt ∈ env.burst, pkt ∉ received w.state.log)
    (st : KniInterfaceStats) :
    Pipe.Moves setup w.pipe (World.pipe { w with
      state := (w.state.note (.received k env.burst)).setKniStats k st
      fast := .route k env.burst }) := by
  have harrive : Pipe.Move setup w.pipe _ := .arrive hnodup hfresh
  refine Pipe.Move.moves (Eq.mp (congrArg _ ?_) harrive)
  have hrouting : w.bank .routing = [] := by simp only [World.bank, hpc]
  refine Pipe.ext ?_ ?_ ?_ ?_ ?_
  · let w₁ : World := { w with
      state := (w.state.note (.received k env.burst)).setKniStats k st }
    have hnote : w₁.bank = w.bank := by
      refine (bank_note (e := .received k env.burst)).trans ?_
      funext place
      cases place <;> exact List.append_nil _
    have hroute : World.bank { w₁ with fast := .route k env.burst } = _ :=
      bank_route (by simp [w₁, hpc])
    rw [hnote] at hroute
    refine (Eq.trans hroute ?_).symm
    simp only [Bank.arrive, World.pipe, hrouting, List.nil_append]
  · refine (received_append.trans ?_).symm
    simp [World.pipe, received]
  · funext i
    exact (handed_append.trans (List.append_nil _)).symm
  · funext pkt
    exact (inspections_append.trans (List.append_nil _)).symm
  · simp [World.pipe, State.note, State.setKniStats, Event.short]

/-- A packet without a port is freed. -/
theorem fast_refuse_moves (hpc : w.fast = .route k (pkt :: burst))
    (hhop : nextHop setup pkt = unknownPort) (st : KniInterfaceStats) :
    Pipe.Moves setup w.pipe (World.pipe { w with
      state := (rtePktmbufFree pkt w.state).setKniStats k st
      fast := .route k burst }) := by
  have hburst : w.bank .routing = pkt :: burst := by
    simp only [World.bank, hpc]
  have hrefuse : Pipe.Move setup w.pipe _ := .refuse hburst hhop
  have hfree : World.pipe { w with
      state := rtePktmbufFree pkt w.state
      fast := .route k burst } = _ :=
    free_pipe { w with fast := .route k burst } rfl
      (bank_route (by simp [hpc])) hburst
  rw [← hfree] at hrefuse
  exact hrefuse.moves

/-- A packet with a port is enqueued for it, or for its coprocessor. -/
theorem fast_stage_moves {st : Stage} {i : Nat} (hw : Wired w)
    (hpc : w.fast = .route k (pkt :: burst)) (hhop : nextHop setup pkt = i)
    (hi : i < kniKthread) (hst : Pipe.entry setup i = st.place i) :
    Pipe.Moves setup w.pipe (World.pipe { w with
      state := enqueue st env pkt i w.state
      fast := .route k burst }) := by
  have hburst : w.bank .routing = pkt :: burst := by
    simp only [World.bank, hpc]
  have hstage : Pipe.Move setup w.pipe _ := .stage hburst hhop hi
  rw [hst] at hstage
  exact enqueue_moves { w with fast := .route k burst } rfl
    (bank_route (by simp [hpc])) hburst hw.conf.nb hi hstage.moves

/-- The fast path fetches what a coprocessor let pass. -/
theorem fast_dequeue_moves {n : Nat} (hpc : w.fast = .dequeue c) :
    Pipe.Moves setup w.pipe (World.pipe { w with
      state := w.state.setNf c
        { w.state.nf c with txQ := (w.state.nf c).txQ.drop n }
      fast := .forward c ((w.state.nf c).txQ.take n) }) := by
  have hcollect : Pipe.Move setup w.pipe (w.pipe.shift _ _ n) :=
    .advance (.collect (i := c))
  refine Pipe.Move.moves (Eq.mp (congrArg _ ?_) hcollect)
  refine Pipe.ext ?_ rfl rfl rfl rfl
  let w₁ : World := { w with
    state := w.state.put (.txQ c) ((w.state.nf c).txQ.drop n) }
  have hput : w₁.bank = Function.update w.bank (.txQ c)
      ((w.state.nf c).txQ.drop n) := bank_put (.txQ c) rfl
  have hforward : World.bank { w₁ with
      fast := .forward c ((w.state.nf c).txQ.take n) } = _ :=
    bank_forward (by simp [w₁, hpc]) (by simp [w₁, hpc])
  have hidle : w.bank (.forwarding c) = [] := by simp only [World.bank, hpc]
  refine (Eq.trans hforward ?_).symm
  rw [hput]
  simp only [World.pipe, Pipe.shift, Bank.shift, hidle, List.nil_append]
  rfl

theorem fast_forward_moves (hw : Wired w)
    (hpc : w.fast = .forward c (pkt :: burst)) :
    Pipe.Moves setup w.pipe (World.pipe { w with
      state := enqueuePort env pkt c w.state
      fast := .forward c burst }) := by
  have hburst : w.bank (.forwarding c) = pkt :: burst := by
    simp [World.bank, hpc]
  have hforward : Pipe.Move setup w.pipe (w.pipe.shift _ _ 1) :=
    .advance (.forward (i := c))
  unfold enqueuePort
  exact enqueue_moves { w with fast := .forward c burst } rfl
    (bank_forward (by simp [hpc]) (by simp [hpc])) hburst hw.conf.nb
    (hw.forward c _ hpc) hforward.moves

theorem fast_flush_moves {st : Stage} {i : Nat} {pc : FastPc} (hw : Wired w)
    (hi : i < kniKthread) (hidle : w.fast.burst = []) (hpc : pc.burst = []) :
    Pipe.Moves setup w.pipe (World.pipe { w with
      state := flush st env i w.state
      fast := pc }) := by
  rw [← pipe_fast_idle hidle hpc]
  exact flush_moves (w := { w with fast := pc }) hw.conf.nb hi

/-- Every step of the fast path is a few moves. -/
theorem fastStep_moves (hw : Wired w)
    (hpromise : promised setup w (.fast env)) :
    Pipe.Moves setup w.pipe (w.step setup (.fast env)).pipe := by
  have hidle : ∀ pc : FastPc, w.fast.burst = [] → pc.burst = [] →
      Pipe.Moves setup w.pipe (World.pipe { w with fast := pc }) := by
    intro pc h hpc
    rw [pipe_fast_idle h hpc]
    exact .refl
  simp only [World.step]
  cases hpc : w.fast with
  | rxBurst k =>
      obtain ⟨-, hnodup, hfresh⟩ := hpromise k hpc
      simp only [fastStep]
      split
      · exact fast_rxBurst_moves hpc hnodup hfresh _
      · exact hidle _ (by rw [hpc]; rfl) rfl
  | route k burst =>
      cases burst with
      | nil => exact hidle _ (by rw [hpc]; rfl) rfl
      | cons pkt burst =>
          have hhop : getNextHop w.state.txMgr.routingTable (setup.bytes pkt) =
              nextHop setup pkt := by rw [hw.conf.table]; rfl
          simp only [fastStep, hhop]
          split
          · next hunknown => exact fast_refuse_moves hpc hunknown _
          · next hknown =>
              have hi := (nextHop_routed setup pkt).resolve_left hknown
              split
              · next hdis =>
                  exact fast_stage_moves hw hpc rfl hi (if_pos hdis)
              · next hdis =>
                  exact fast_stage_moves hw hpc rfl hi (if_neg hdis)
  | flushPort again k =>
      simp only [fastStep]
      split
      · next hk => exact fast_flush_moves hw hk (by rw [hpc]; rfl) rfl
      · exact hidle _ (by rw [hpc]; rfl) rfl
  | flushNf again c =>
      simp only [fastStep]
      split
      · next hc => exact fast_flush_moves hw hc (by rw [hpc]; rfl) rfl
      · split <;> exact hidle _ (by rw [hpc]; rfl) rfl
  | dequeue c =>
      simp only [fastStep]
      split
      · exact fast_dequeue_moves hpc
      · exact hidle _ (by rw [hpc]; rfl) rfl
  | forward c burst =>
      cases burst with
      | nil => exact hidle _ (by rw [hpc]; rfl) rfl
      | cons pkt burst => exact fast_forward_moves hw hpc

end Fast

/-! ## The coprocessors -/

section Coproc

variable {setup : Setup} {env : Env} {w : World} {i : Nat}
  {pkt : Mbuf} {burst : List Mbuf}

theorem coproc_fetch_moves {n : Nat} (hpc : w.coproc i = .start) :
    Pipe.Moves setup w.pipe (World.pipe { w with
      state := w.state.setNf i
        { w.state.nf i with rxQ := (w.state.nf i).rxQ.drop n }
      coproc := Function.update w.coproc i
        (.process ((w.state.nf i).rxQ.take n)) }) := by
  have hfetch : Pipe.Move setup w.pipe (w.pipe.shift _ _ n) :=
    .advance (.fetch (i := i))
  refine Pipe.Move.moves (Eq.mp (congrArg _ ?_) hfetch)
  refine Pipe.ext ?_ rfl rfl rfl rfl
  let w₁ : World := { w with
    state := w.state.put (.rxQ i) ((w.state.nf i).rxQ.drop n) }
  have hput : w₁.bank = Function.update w.bank (.rxQ i)
      ((w.state.nf i).rxQ.drop n) := bank_put (.rxQ i) rfl
  have hprocess : World.bank { w₁ with
      coproc := Function.update w₁.coproc i
        (.process ((w.state.nf i).rxQ.take n)) } = _ := bank_process
  have hidle : w.bank (.inspecting i) = [] := by simp only [World.bank, hpc]
  refine (Eq.trans hprocess ?_).symm
  rw [hput]
  simp only [World.pipe, Pipe.shift, Bank.shift, hidle, List.nil_append]
  rfl

/-- The log entry of an inspection. -/
theorem pipe_processed {ret : Int} :
    World.pipe { w with state := w.state.note (.processed i pkt ret) } =
      w.pipe.inspected i pkt ret := by
  refine Pipe.ext ?_ ?_ ?_ ?_ ?_
  · refine bank_note.trans ?_
    funext place
    cases place <;> exact List.append_nil _
  · exact received_append.trans (List.append_nil _)
  · funext j
    exact handed_append.trans (List.append_nil _)
  · funext pkt'
    refine inspections_append.trans ?_
    simp only [Pipe.inspected, Function.update_apply]
    by_cases heq : pkt' = pkt
    · rw [if_pos heq, heq]
      simp [World.pipe, inspections]
    · rw [if_neg heq]
      simp [World.pipe, inspections, Ne.symm heq]
  · simp [World.pipe, State.note, Event.short, Pipe.inspected]

theorem coproc_pass_moves (hw : Wired w)
    (hpc : w.coproc i = .process (pkt :: burst))
    (hret : processPacket setup pkt = 0) :
    Pipe.Moves setup w.pipe (World.pipe { w with
      state := enqueueNfTx env pkt i (w.state.note (.processed i pkt 0))
      coproc := Function.update w.coproc i (.process burst) }) := by
  have hburst : w.bank (.inspecting i) = pkt :: burst := by
    simp only [World.bank, hpc]
  have hpass : Pipe.Move setup w.pipe _ := .pass hburst hret
  let w₁ : World := { w with state := w.state.note (.processed i pkt 0) }
  have hw₁ : w₁.pipe = w.pipe.inspected i pkt 0 := pipe_processed
  have hbank₁ : w₁.bank = w.bank := congrArg Pipe.bank hw₁
  rw [← hw₁] at hpass
  unfold enqueueNfTx
  exact enqueue_moves (w := w₁) { w₁ with
      coproc := Function.update w₁.coproc i (.process burst) } rfl
    bank_process (hbank₁ ▸ hburst) hw.conf.nb (hw.process i _ hpc) hpass.moves

theorem coproc_reject_moves (hpc : w.coproc i = .process (pkt :: burst))
    (hret : processPacket setup pkt ≠ 0) :
    Pipe.Moves setup w.pipe (World.pipe { w with
      state := rtePktmbufFree pkt
        (w.state.note (.processed i pkt (processPacket setup pkt)))
      coproc := Function.update w.coproc i (.process burst) }) := by
  have hburst : w.bank (.inspecting i) = pkt :: burst := by
    simp only [World.bank, hpc]
  have hreject : Pipe.Move setup w.pipe _ := .reject hburst hret
  let w₁ : World := { w with
    state := w.state.note (.processed i pkt (processPacket setup pkt)) }
  have hw₁ : w₁.pipe = w.pipe.inspected i pkt _ := pipe_processed
  have hbank₁ : w₁.bank = w.bank := congrArg Pipe.bank hw₁
  let w₀ : World := { w₁ with
    coproc := Function.update w₁.coproc i (.process burst) }
  have hfree :
      World.pipe { w₀ with state := rtePktmbufFree pkt w₁.state } = _ :=
    free_pipe w₀ rfl bank_process (hbank₁ ▸ hburst)
  rw [← hw₁, ← hfree] at hreject
  exact hreject.moves

/-- Every step of a coprocessor is a few moves. -/
theorem coprocStep_moves (hw : Wired w) (hi : i < kniKthread) :
    Pipe.Moves setup w.pipe (w.step setup (.coproc i env)).pipe := by
  simp only [World.step]
  cases hpc : w.coproc i with
  | start => exact coproc_fetch_moves hpc
  | process burst =>
      cases burst with
      | nil =>
          let w₀ : World :=
            { w with coproc := Function.update w.coproc i .start }
          have hw₀ : w₀.pipe = w.pipe :=
            Pipe.ext (bank_coproc_start hpc) rfl rfl rfl rfl
          rw [← hw₀]
          exact flush_moves (w := w₀) hw.conf.nb hi
      | cons pkt burst =>
          simp only [coprocStep]
          split
          · next hret =>
              rw [hret]
              exact coproc_pass_moves hw hpc hret
          · next hret => exact coproc_reject_moves hpc hret

end Coproc

/-! ## Runs -/

section Configured

variable {setup : Setup} {st : Stage} {env : Env} {s : State} {i : Nat}

theorem Configured.flush (h : Configured s) : Configured (flush st env i s) :=
  ⟨flush_txMgr.1.trans h.nb, flush_txMgr.2.trans h.table⟩

theorem Configured.enqueue {pkt : Mbuf} (h : Configured s) :
    Configured (enqueue st env pkt i s) := by
  have hset : ∀ b, Configured (st.setBuf s i b) := fun b =>
    ⟨setBuf_nb.trans h.nb, setBuf_table.trans h.table⟩
  simp only [Engine.enqueue]
  split
  · exact h
  · split
    · exact (hset _).flush
    · exact hset _

theorem Configured.fastStep {pc : FastPc} (h : Configured s) :
    Configured (fastStep setup kniKthread kniKthread env pc s).2 := by
  cases pc with
  | rxBurst k | dequeue c =>
      simp only [Engine.fastStep]
      split <;> exact ⟨h.nb, h.table⟩
  | flushPort again k =>
      simp only [Engine.fastStep]
      split
      · exact h.flush
      · exact h
  | flushNf again c =>
      simp only [Engine.fastStep]
      split
      · exact h.flush
      · split <;> exact h
  | route k burst =>
      cases burst with
      | nil => exact h
      | cons pkt burst =>
          simp only [Engine.fastStep]
          split
          · exact ⟨h.nb, h.table⟩
          · split <;> exact h.enqueue
  | forward c burst =>
      cases burst with
      | nil => exact h
      | cons pkt burst => exact h.enqueue

theorem Configured.coprocStep {pc : CoprocPc} (h : Configured s) :
    Configured (coprocStep setup env i pc s).2 := by
  have hnote : ∀ e, Configured (s.note e) := fun _ => ⟨h.nb, h.table⟩
  cases pc with
  | start => exact ⟨h.nb, h.table⟩
  | process burst =>
      cases burst with
      | nil => exact h.flush
      | cons pkt burst =>
          simp only [Engine.coprocStep]
          split
          · exact (hnote _).enqueue
          · exact ⟨h.nb, h.table⟩

/-- A burst from a coprocessor comes from one of the five. -/
theorem fastStep_forward {pc : FastPc} {c : Nat} {burst : List Mbuf}
    (hpc : ∀ c burst, pc = .forward c burst → c < kniKthread)
    (h : (fastStep setup kniKthread kniKthread env pc s).1 = .forward c burst) :
    c < kniKthread := by
  cases pc with
  | rxBurst k | flushPort again k =>
      simp only [Engine.fastStep] at h
      split at h <;> cases h
  | flushNf again c =>
      simp only [Engine.fastStep] at h
      split at h
      · cases h
      · split at h <;> cases h
  | route k burst =>
      cases burst with
      | nil => cases h
      | cons pkt burst =>
          simp only [Engine.fastStep] at h
          split at h
          · cases h
          · split at h <;> cases h
  | dequeue c =>
      simp only [Engine.fastStep] at h
      split at h
      · next hc =>
          cases h
          exact hc
      · cases h
  | forward c burst =>
      cases burst with
      | nil => cases h
      | cons pkt burst =>
          cases h
          exact hpc c _ rfl

end Configured

theorem Wired.step {setup : Setup} {w : World} {a : Action} (hw : Wired w)
    (hlaunched : launched setup a) : Wired (w.step setup a) := by
  cases a with
  | fast env =>
      exact ⟨hw.conf.fastStep, fun c burst h => fastStep_forward hw.forward h,
        hw.process⟩
  | coproc i env =>
      refine ⟨hw.conf.coprocStep, hw.forward, fun j burst h => ?_⟩
      by_cases hji : j = i
      · exact hji ▸ hlaunched.1
      · simp only [World.step, Function.update_of_ne hji] at h
        exact hw.process j burst h

theorem wired_start : Wired World.start :=
  ⟨⟨configured_nbActiveKni, rfl⟩, by simp [World.start], by simp [World.start]⟩

theorem wired_of_reachable {setup : Setup} {w : World} (h : Reachable setup w) :
    Wired w := by
  refine Machine.Reach.invariant ?_ ?_ h
  · intro w hw
    rw [show w = World.start from hw]
    exact wired_start
  · intro w a w' _ hw hpromise hstep
    rw [show w' = w.step setup a from hstep]
    exact hw.step (launched_of_promised hpromise)

theorem pipe_start : World.start.pipe = Pipe.empty := by
  refine Pipe.ext ?_ ?_ ?_ ?_ ?_
  · funext place
    cases place with
    | nfRx i | rxQ i | nfTx i | txQ i =>
        simp [World.pipe, World.bank, World.start, configured_nf, Pipe.empty]
    | routing | inspecting i | forwarding i | tx i | accepted i | freed => rfl
  · rfl
  · rfl
  · rfl
  · rfl

/-- Whatever the interleaving, a run of the engine is a sequence of moves of its
pipe. -/
theorem pipe_moves_of_reachable {setup : Setup} {w : World}
    (h : Reachable setup w) : Pipe.Moves setup Pipe.empty w.pipe := by
  refine Machine.Reach.invariant
    (I := fun w => Pipe.Moves setup Pipe.empty w.pipe) ?_ ?_ h
  · intro w hw
    rw [show w = World.start from hw, pipe_start]
    exact .refl
  · intro w a w' hr hmoves hpromise hstep
    have hw := wired_of_reachable hr
    rw [show w' = w.step setup a from hstep]
    refine hmoves.trans ?_
    cases a with
    | fast env => exact fastStep_moves hw hpromise
    | coproc i env => exact coprocStep_moves hw hpromise.1

end GhostDataplane.Engine
