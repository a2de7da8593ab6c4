import GhostDataplane.Proofs.Conservation

/-!
# The staging buffers

Each of the three kinds of staging buffer has 32 slots, and nothing checks an
index before it is written: an enqueue stores the packet at `count` and flushes
the buffer if that made 32. What keeps the index inside is that a buffer with
32 packets does not survive the enqueue that made it. A flush empties the
buffer whatever becomes of the packets, and so a buffer is below 32 between any
two steps of the threads.

The flushes at the end of an iteration go over all the buffers, so that an
iteration leaves none of its own behind. `FastPc.emptied` says which buffers
are empty at a point of the fast path, as far as its loops have come. The
threads do not get in each other's way: the fast path fills `tx` and `nf.rx`,
a coprocessor its own `nf.tx`.
-/

namespace GhostDataplane.Engine

open GhostDataplane.Lib

/-! ## What the operations do to the buffers -/

section Buffers

variable {st st' : Stage} {env : Env} {i j : Nat} {s : State}

theorem buf_setBuf {b : PacketBuf} :
    st'.buf (st.setBuf s i b) j =
      if st' = st ∧ j = i then b else st'.buf s j := by
  by_cases hj : j = i
  · subst hj
    cases st <;> cases st' <;>
      simp [Stage.buf, Stage.setBuf, State.setTx, State.setNf]
  · cases st <;> cases st' <;>
      simp [Stage.buf, Stage.setBuf, State.setTx, State.setNf, hj]

theorem buf_note {e : Event} : st'.buf (s.note e) j = st'.buf s j := by
  cases st' <;> rfl

theorem buf_freeAll {pkts : List Mbuf} :
    st'.buf (freeAll pkts s) j = st'.buf s j := by
  rw [freeAll_eq]
  cases st' <;> rfl

theorem buf_count {n m : Nat} : st'.buf (st.count i n m s) j = st'.buf s j := by
  cases st <;> cases st' <;> rfl

theorem buf_setKniStats {k : Nat} {c : KniInterfaceStats} :
    st'.buf (s.setKniStats k c) j = st'.buf s j := by
  cases st' <;> rfl

/-- Nothing that is done to a ring shows in a buffer. -/
theorem buf_setNf {m : CoprocessorMgr} (hrx : m.rx = (s.nf i).rx)
    (htx : m.tx = (s.nf i).tx) : st'.buf (s.setNf i m) j = st'.buf s j := by
  by_cases hj : j = i
  · subst hj
    cases st' <;> simp [Stage.buf, State.setNf, hrx, htx]
  · cases st' <;> simp [Stage.buf, State.setNf, hj]

theorem buf_deliver {b : PacketBuf} {n : Nat} :
    st'.buf (st.deliver i b n s) j = st'.buf s j := by
  cases st with
  | port => exact buf_note
  | nfRx => exact (buf_setNf (by rfl) (by rfl)).trans buf_note
  | nfTx => exact (buf_setNf (by rfl) (by rfl)).trans buf_note

/-- A flush empties its buffer. -/
theorem buf_flush (hi : i < s.txMgr.nbActiveKni) :
    st'.buf (flush st env i s) j =
      if st' = st ∧ j = i then [] else st'.buf s j := by
  have hidx : ¬ i ≥ s.txMgr.nbActiveKni := by omega
  by_cases hempty : st.buf s i = []
  · rw [flush_idle hempty]
    split
    · next h =>
        obtain ⟨rfl, rfl⟩ := h
        exact hempty
    · rfl
  · have hlen : (st.buf s i).length ≠ 0 := by simpa using hempty
    simp only [flush, if_neg hidx, if_neg hlen]
    rw [buf_setBuf, buf_count, buf_freeAll, buf_deliver]

/-- An enqueue adds the packet, or leaves the buffer empty if that made it
full. -/
theorem buf_enqueue {pkt : Mbuf} (hi : i < s.txMgr.nbActiveKni) :
    st'.buf (enqueue st env pkt i s) j =
      if st' = st ∧ j = i then
        if (st.buf s i).length + 1 = pktBurstSz then [] else st.buf s i ++ [pkt]
      else st'.buf s j := by
  have hidx : ¬ i ≥ s.txMgr.nbActiveKni := by omega
  have hbuf : st.buf (st.setBuf s i (st.buf s i ++ [pkt])) i =
      st.buf s i ++ [pkt] := by rw [buf_setBuf, if_pos ⟨rfl, rfl⟩]
  simp only [enqueue, if_neg hidx, hbuf, List.length_append,
    List.length_singleton]
  split
  · have hnb : (st.setBuf s i (st.buf s i ++ [pkt])).txMgr.nbActiveKni =
        s.txMgr.nbActiveKni := setBuf_nb
    rw [buf_flush (hnb ▸ hi), buf_setBuf]
    split
    · rfl
    · rfl
  · exact buf_setBuf

end Buffers

/-! ## Between two steps -/

/-- No buffer is full, and only those of the five ports are used. -/
structure Bounded (s : State) : Prop where
  nb : s.txMgr.nbActiveKni = kniKthread
  length : ∀ st i, (Stage.buf st s i).length < pktBurstSz
  unused : ∀ st i, kniKthread ≤ i → Stage.buf st s i = []

section Bounded

variable {st : Stage} {env : Env} {i : Nat} {s s' : State}

theorem Bounded.congr (h : Bounded s)
    (hnb : s'.txMgr.nbActiveKni = s.txMgr.nbActiveKni)
    (hbuf : ∀ st i, Stage.buf st s' i = Stage.buf st s i) : Bounded s' :=
  ⟨hnb.trans h.nb, fun st i => hbuf st i ▸ h.length st i,
    fun st i hi => (hbuf st i).trans (h.unused st i hi)⟩

theorem Bounded.flush (h : Bounded s) (hi : i < kniKthread) :
    Bounded (flush st env i s) := by
  have hbuf : ∀ st' j, Stage.buf st' (Engine.flush st env i s) j = _ :=
    fun st' j => buf_flush (h.nb ▸ hi)
  refine ⟨flush_txMgr.1.trans h.nb, fun st' j => ?_, fun st' j hj => ?_⟩
  · rw [hbuf]
    split
    · decide
    · exact h.length st' j
  · rw [hbuf]
    split
    · rfl
    · exact h.unused st' j hj

theorem enqueue_outside {pkt : Mbuf} (hi : ¬ i < s.txMgr.nbActiveKni) :
    enqueue st env pkt i s = s := if_pos (Nat.le_of_not_lt hi)

theorem enqueue_nb {pkt : Mbuf} :
    (enqueue st env pkt i s).txMgr.nbActiveKni = s.txMgr.nbActiveKni := by
  by_cases hi : i < s.txMgr.nbActiveKni
  · have hcases : enqueue st env pkt i s = _ ∨ enqueue st env pkt i s = _ :=
      enqueue_eq hi
    rcases hcases with h | h
    · rw [h, setBuf_nb]
    · rw [h, flush_txMgr.1, setBuf_nb]
  · rw [enqueue_outside hi]

/-- The test for equality is never stepped over. -/
theorem Bounded.enqueue {pkt : Mbuf} (h : Bounded s) :
    Bounded (enqueue st env pkt i s) := by
  by_cases hi : i < s.txMgr.nbActiveKni
  · have hbuf : ∀ st' j, Stage.buf st' (Engine.enqueue st env pkt i s) j = _ :=
      fun st' j => buf_enqueue hi
    have hlen := h.length st i
    refine ⟨enqueue_nb.trans h.nb, fun st' j => ?_, fun st' j hj => ?_⟩
    · rw [hbuf]
      split
      · split
        · decide
        · rw [List.length_append, List.length_singleton]
          omega
      · exact h.length st' j
    · rw [hbuf, if_neg]
      · exact h.unused st' j hj
      · rintro ⟨-, rfl⟩
        exact absurd hi (Nat.not_lt.mpr (h.nb ▸ hj))
  · rw [enqueue_outside hi]
    exact h

end Bounded

/-! ## Along a run -/

/-- The buffers of the fast path that are empty at this point. -/
def FastPc.emptied : FastPc → Stage → Nat → Prop
  | .rxBurst k, st, _ => k = 0 ∧ st ≠ .nfTx
  | .flushPort _ k, st, i => st = .port ∧ i < k
  | .flushNf _ c, st, i => st = .port ∨ st = .nfRx ∧ i < c
  | .route .., _, _ | .dequeue _, _, _ | .forward .., _, _ => False

theorem FastPc.emptied_ne {pc : FastPc} {st : Stage} {i : Nat}
    (h : pc.emptied st i) : st ≠ .nfTx := by
  rintro rfl
  cases pc with
  | rxBurst k => exact h.2 rfl
  | flushPort again k => cases h.1
  | flushNf again c =>
      rcases h with h | ⟨h, -⟩
      · cases h
      · cases h
  | route k burst | dequeue c | forward c burst => exact h

/-- The buffers at any point of a run. -/
structure Staged (w : World) : Prop where
  bounded : Bounded w.state
  fast : ∀ st i, w.fast.emptied st i → Stage.buf st w.state i = []
  coproc : ∀ i, w.coproc i = .start → Stage.buf .nfTx w.state i = []

theorem staged_start : Staged World.start := by
  have hempty : ∀ st i, Stage.buf st World.start.state i = [] := by
    intro st i
    cases st with
    | port => rfl
    | nfRx | nfTx => simp [Stage.buf, World.start, configured_nf]
  refine ⟨⟨configured_nbActiveKni, fun st i => ?_, fun st i _ => hempty st i⟩,
    fun st i _ => hempty st i, fun i _ => hempty .nfTx i⟩
  rw [hempty]
  decide

section Step

variable {setup : Setup} {w : World} {env : Env}

/-- A step of the fast path that leaves the buffers alone. -/
theorem Staged.fast_idle {s' : State} {pc : FastPc} (h : Staged w)
    (hnb : s'.txMgr.nbActiveKni = w.state.txMgr.nbActiveKni)
    (hbuf : ∀ st i, Stage.buf st s' i = Stage.buf st w.state i)
    (hpc : ∀ st i, pc.emptied st i → Stage.buf st w.state i = []) :
    Staged { w with state := s', fast := pc } :=
  ⟨h.bounded.congr hnb hbuf, fun st i hi => (hbuf st i).trans (hpc st i hi),
    fun i hi => (hbuf .nfTx i).trans (h.coproc i hi)⟩

/-- A step of the fast path that enqueues a packet. -/
theorem Staged.fast_enqueue {st : Stage} {pkt : Mbuf} {i : Nat} {pc : FastPc}
    (h : Staged w) (hst : st ≠ .nfTx) (hpc : ∀ st i, ¬ pc.emptied st i) :
    Staged { w with state := enqueue st env pkt i w.state, fast := pc } := by
  refine ⟨h.bounded.enqueue, fun st' j hj => absurd hj (hpc st' j),
    fun j hj => ?_⟩
  by_cases hi : i < w.state.txMgr.nbActiveKni
  · simp only [buf_enqueue hi, hst.symm, false_and, if_false]
    exact h.coproc j hj
  · simp only [enqueue_outside hi]
    exact h.coproc j hj

/-- A step of the fast path that flushes a buffer. -/
theorem Staged.fast_flush {st : Stage} {i : Nat} {pc : FastPc} (h : Staged w)
    (hst : st ≠ .nfTx) (hi : i < kniKthread)
    (hpc : ∀ st' j, pc.emptied st' j →
      (st' = st ∧ j = i) ∨ w.fast.emptied st' j) :
    Staged { w with state := flush st env i w.state, fast := pc } := by
  have hbuf : ∀ st' j, Stage.buf st' (flush st env i w.state) j = _ :=
    fun st' j => buf_flush (h.bounded.nb ▸ hi)
  refine ⟨h.bounded.flush hi, fun st' j hj => ?_, fun j hj => ?_⟩
  · rw [hbuf]
    split
    · rfl
    · next hne => exact h.fast st' j ((hpc st' j hj).resolve_left hne)
  · simp only [hbuf, hst.symm, false_and, if_false]
    exact h.coproc j hj

/-- The loop of `flush_all` over the ports, in which `k` of them are done. -/
theorem Staged.flushPort {again : Bool} {k : Nat} (h : Staged w)
    (hpc : w.fast = .flushPort again k) :
    Staged { w with
      state := (Engine.fastStep setup kniKthread kniKthread env
        (.flushPort again k) w.state).2
      fast := (Engine.fastStep setup kniKthread kniKthread env
        (.flushPort again k) w.state).1 } := by
  rw [Engine.fastStep]
  split
  · next hk =>
      refine h.fast_flush (by decide) hk ?_
      rintro st i ⟨rfl, hi⟩
      rw [hpc]
      rcases Nat.lt_succ_iff_lt_or_eq.mp hi with hlt | heq
      · exact Or.inr ⟨rfl, hlt⟩
      · exact Or.inl ⟨rfl, heq⟩
  · next hk =>
      refine h.fast_idle rfl (fun _ _ => rfl) ?_
      rintro st i (rfl | ⟨-, hi⟩)
      · by_cases hi : i < k
        · exact h.fast .port i (hpc ▸ ⟨rfl, hi⟩)
        · exact h.bounded.unused .port i (by omega)
      · exact absurd hi (Nat.not_lt_zero i)

/-- The loop of `flush_all` over the coprocessors: the ports are done, and what
is left to do is `nf.rx` from `c` on. -/
theorem Staged.flushNf {again : Bool} {c : Nat} (h : Staged w)
    (hpc : w.fast = .flushNf again c) :
    Staged { w with
      state := (Engine.fastStep setup kniKthread kniKthread env
        (.flushNf again c) w.state).2
      fast := (Engine.fastStep setup kniKthread kniKthread env
        (.flushNf again c) w.state).1 } := by
  rw [Engine.fastStep]
  split
  · next hc =>
      refine h.fast_flush (by decide) hc ?_
      rintro st i (rfl | ⟨rfl, hi⟩)
      · exact Or.inr (hpc ▸ Or.inl rfl)
      · rcases Nat.lt_succ_iff_lt_or_eq.mp hi with hlt | heq
        · exact Or.inr (hpc ▸ Or.inr ⟨rfl, hlt⟩)
        · exact Or.inl ⟨rfl, heq⟩
  · next hc =>
      split
      · refine h.fast_idle rfl (fun _ _ => rfl) ?_
        rintro st i ⟨-, hst⟩
        cases st with
        | port => exact h.fast .port i (hpc ▸ Or.inl rfl)
        | nfRx =>
            by_cases hi : i < c
            · exact h.fast .nfRx i (hpc ▸ Or.inr ⟨rfl, hi⟩)
            · exact h.bounded.unused .nfRx i (by omega)
        | nfTx => exact absurd rfl hst
      · exact h.fast_idle rfl (fun _ _ => rfl) fun _ _ hi => hi.elim

theorem Staged.fastStep (h : Staged w) : Staged (w.step setup (.fast env)) := by
  show Staged { w with
    state := (Engine.fastStep setup kniKthread kniKthread env w.fast w.state).2
    fast := (Engine.fastStep setup kniKthread kniKthread env w.fast w.state).1 }
  cases hpc : w.fast with
  | rxBurst k =>
      rw [Engine.fastStep]
      split
      · exact h.fast_idle rfl (fun st i => buf_setKniStats.trans buf_note)
          fun st i hi => hi.elim
      · refine h.fast_idle rfl (fun _ _ => rfl) fun st i hi => ?_
        exact absurd hi.2 (Nat.not_lt_zero i)
  | route k burst =>
      cases burst with
      | nil =>
          refine h.fast_idle rfl (fun _ _ => rfl) fun st i hi => ?_
          exact absurd hi.1 (Nat.succ_ne_zero k)
      | cons pkt burst =>
          rw [Engine.fastStep]
          simp only
          split
          · exact h.fast_idle rfl (fun st i => buf_setKniStats.trans buf_note)
              fun st i hi => hi.elim
          · split
            · exact h.fast_enqueue (by decide) fun _ _ => id
            · exact h.fast_enqueue (by decide) fun _ _ => id
  | flushPort again k => exact h.flushPort hpc
  | flushNf again c => exact h.flushNf hpc
  | dequeue c =>
      rw [Engine.fastStep]
      split
      · exact h.fast_idle rfl (fun st i => buf_setNf (by rfl) (by rfl))
          fun _ _ hi => hi.elim
      · refine h.fast_idle rfl (fun _ _ => rfl) fun st i hi => ?_
        exact absurd hi.2 (Nat.not_lt_zero i)
  | forward c burst =>
      cases burst with
      | nil => exact h.fast_idle rfl (fun _ _ => rfl) fun _ _ hi => hi.elim
      | cons pkt burst => exact h.fast_enqueue (by decide) fun _ _ => id

/-- A step of a coprocessor does not touch the buffers of the fast path, nor
those of another coprocessor. -/
theorem Staged.coproc_own {s' : State} {i : Nat} {pc : CoprocPc} (h : Staged w)
    (hbounded : Bounded s')
    (hbuf : ∀ st j, ¬ (st = .nfTx ∧ j = i) →
      Stage.buf st s' j = Stage.buf st w.state j)
    (hpc : pc = .start → Stage.buf .nfTx s' i = []) :
    Staged { w with state := s', coproc := Function.update w.coproc i pc } := by
  refine ⟨hbounded, fun st j hj => ?_, fun j hj => ?_⟩
  · rw [hbuf st j fun hst => FastPc.emptied_ne hj hst.1]
    exact h.fast st j hj
  · by_cases hji : j = i
    · subst hji
      simp only [Function.update_self] at hj
      exact hpc hj
    · simp only [Function.update_of_ne hji] at hj
      rw [hbuf .nfTx j fun hst => hji hst.2]
      exact h.coproc j hj

theorem Staged.coprocStep {i : Nat} (h : Staged w) (hi : i < kniKthread) :
    Staged (w.step setup (.coproc i env)) := by
  show Staged { w with
    state := (Engine.coprocStep setup env i (w.coproc i) w.state).2
    coproc := Function.update w.coproc i
      (Engine.coprocStep setup env i (w.coproc i) w.state).1 }
  cases w.coproc i with
  | start =>
      have hbuf : ∀ st j, Stage.buf st
          (Engine.coprocStep setup env i .start w.state).2 j =
            Stage.buf st w.state j := fun st j => buf_setNf (by rfl) (by rfl)
      exact h.coproc_own (h.bounded.congr rfl hbuf) (fun st j _ => hbuf st j)
        (by simp [Engine.coprocStep])
  | process burst =>
      cases burst with
      | nil =>
          have hbuf : ∀ st j, Stage.buf st (flush .nfTx env i w.state) j = _ :=
            fun st j => buf_flush (h.bounded.nb ▸ hi)
          refine h.coproc_own (h.bounded.flush hi)
            (fun st j hst => ?_) fun _ => ?_
          · exact (hbuf st j).trans (if_neg hst)
          · exact (hbuf .nfTx i).trans (if_pos ⟨rfl, rfl⟩)
      | cons pkt burst =>
          -- The note of the verdict comes first and changes no buffer.
          have hnoted : Bounded
              (w.state.note (.processed i pkt (processPacket setup pkt))) :=
            h.bounded.congr rfl fun _ _ => buf_note
          rw [Engine.coprocStep]
          split
          · refine h.coproc_own hnoted.enqueue (fun st j hst => ?_) (by simp)
            exact (buf_enqueue (hnoted.nb ▸ hi)).trans
              ((if_neg hst).trans buf_note)
          · refine h.coproc_own (hnoted.congr rfl fun _ _ => buf_note)
              (fun st j _ => buf_note.trans buf_note) (by simp)

theorem Staged.step {a : Action} (h : Staged w) (hlaunched : launched setup a) :
    Staged (w.step setup a) := by
  cases a with
  | fast env => exact h.fastStep
  | coproc i env => exact h.coprocStep hlaunched.1

end Step

/-- Whatever the bursts, the routes and the answers of the library, no enqueue
finds its buffer full, so that it writes inside the array; an iteration of the
fast path leaves nothing in the buffers of the ports and of the coprocessors,
and one of a coprocessor nothing in its own. -/
theorem staging_buffers_bounded {setup : Setup} {w : World}
    (h : (engine setup).Reach (fun _ => launched setup) w) :
    (∀ st i, (Stage.buf st w.state i).length < pktBurstSz) ∧
    (w.fast = .rxBurst 0 →
      ∀ i, w.state.txMgr.tx i = [] ∧ (w.state.nf i).rx = []) ∧
    (∀ i, w.coproc i = .start → (w.state.nf i).tx = []) := by
  have hstaged : Staged w := by
    refine Machine.Reach.invariant ?_ ?_ h
    · intro w hw
      rw [show w = World.start from hw]
      exact staged_start
    · intro w a w' _ hw hlaunched hstep
      rw [show w' = w.step setup a from hstep]
      exact hw.step hlaunched
  refine ⟨hstaged.bounded.length, fun hpc i => ⟨?_, ?_⟩, hstaged.coproc⟩
  · exact hstaged.fast .port i (hpc ▸ ⟨rfl, by decide⟩)
  · exact hstaged.fast .nfRx i (hpc ▸ ⟨rfl, by decide⟩)

/-- Two of the three packets of the sample run are in the buffer of one
coprocessor before it is flushed. -/
theorem staging_buffers_bounded_sample :
    ((World.sample 4).state.nf 0).rx = [0, 5] ∧
      ∀ st i, (Stage.buf st (World.sample 4).state i).length < pktBurstSz := by
  have hreach : (engine sampleSetup).Reach (fun _ => launched sampleSetup)
      (World.sample 4) :=
    (sample_reachable (by decide)).mono fun _ _ => launched_of_promised
  exact ⟨by decide +kernel, (staging_buffers_bounded hreach).1⟩

end GhostDataplane.Engine
