import GhostDataplane.Proofs.PipeSteps

/-!
# What a step writes down

The log of the engine is what the statements about its runs are read off. A step
of the fast path adds what it received and what it passed on or freed; a step of
a coprocessor adds the inspection of the packet that is next, and then what it
passed on or freed. So the list of the packets received and the inspections of a
packet change where one expects it and nowhere else.
-/

namespace GhostDataplane.Engine

open GhostDataplane.Lib

/-- The log grew by events of a kind. -/
def Emits (kind : Event → Prop) (s s' : State) : Prop :=
  ∃ es, s'.log = s.log ++ es ∧ ∀ e ∈ es, kind e

/-- Packets go on, or are freed. -/
def Event.Outgoing : Event → Prop
  | .freed _ | .kniTx .. | .ringEnqueue .. => True
  | .received .. | .processed .. => False

section Emits

variable {setup : Setup} {st : Stage} {env : Env} {i : Nat} {s s' : State}
  {pkt : Mbuf} {kind kind' : Event → Prop}

theorem emits_of_log_eq (h : s'.log = s.log) : Emits kind s s' :=
  ⟨[], h.trans (List.append_nil _).symm, List.forall_mem_nil _⟩

theorem emits_note {e : Event} (h : kind e) (hlog : s'.log = s.log ++ [e]) :
    Emits kind s s' := ⟨[e], hlog, List.forall_mem_singleton.mpr h⟩

theorem Emits.mono (h : Emits kind s s') (hle : ∀ e, kind e → kind' e) :
    Emits kind' s s' := by
  obtain ⟨es, hlog, hes⟩ := h
  exact ⟨es, hlog, fun e he => hle e (hes e he)⟩

theorem flush_emits : Emits Event.Outgoing s (flush st env i s) := by
  by_cases hi : i < s.txMgr.nbActiveKni
  · by_cases hne : st.buf s i = []
    · rw [flush_idle hne]
      exact emits_of_log_eq rfl
    · refine ⟨_, flush_log hi hne, List.forall_mem_cons.mpr ⟨?_, ?_⟩⟩
      · cases st <;> trivial
      · intro e he
        obtain ⟨pkt, -, rfl⟩ := List.mem_map.mp he
        trivial
  · rw [flush, if_pos (Nat.le_of_not_lt hi)]
    exact emits_of_log_eq rfl

theorem enqueue_emits : Emits Event.Outgoing s (enqueue st env pkt i s) := by
  have hset : ∀ b : PacketBuf, (st.setBuf s i b).log = s.log :=
    fun b => setBuf_log
  unfold enqueue
  split
  · exact emits_of_log_eq rfl
  · dsimp only
    split
    · have hflush : Emits Event.Outgoing (st.setBuf s i (st.buf s i ++ [pkt]))
          (flush st env i (st.setBuf s i (st.buf s i ++ [pkt]))) := flush_emits
      obtain ⟨es, hlog, hes⟩ := hflush
      exact ⟨es, hlog.trans (by rw [hset]), hes⟩
    · exact emits_of_log_eq (hset _)

/-- The fast path receives what it is given, and inspects nothing. -/
theorem fastStep_emits {nbKni nbCoproc : Nat} {pc : FastPc} :
    Emits (fun e => e.Outgoing ∨ ∃ k, e = .received k env.burst) s
      (fastStep setup nbKni nbCoproc env pc s).2 := by
  have hout : ∀ {s'}, Emits Event.Outgoing s s' →
      Emits (fun e => e.Outgoing ∨ ∃ k, e = .received k env.burst) s s' :=
    fun h => h.mono fun _ => .inl
  cases pc with
  | rxBurst k =>
      rw [fastStep]
      split
      · exact emits_note (.inr ⟨k, rfl⟩) rfl
      · exact emits_of_log_eq rfl
  | route k burst =>
      cases burst with
      | nil => exact emits_of_log_eq rfl
      | cons pkt burst =>
          rw [fastStep]
          dsimp only
          split
          · exact emits_note (e := .freed pkt) (.inl trivial) rfl
          · split <;> exact hout enqueue_emits
  | flushPort again k =>
      rw [fastStep]
      split
      · exact hout flush_emits
      · exact emits_of_log_eq rfl
  | flushNf again c =>
      rw [fastStep]
      split
      · exact hout flush_emits
      · split <;> exact emits_of_log_eq rfl
  | dequeue c =>
      rw [fastStep]
      split <;> exact emits_of_log_eq rfl
  | forward c burst =>
      cases burst with
      | nil => exact emits_of_log_eq rfl
      | cons pkt burst => exact hout enqueue_emits

/-- A coprocessor inspects the packet that is next, and then passes it on or
frees it. -/
theorem coprocStep_emits (setup : Setup) (env : Env) (i : Nat) (pc : CoprocPc)
    (s : State) :
    ∃ s₁ : State, s₁.log = s.log ++ pc.burst.head?.toList.map (fun pkt =>
        .processed i pkt (processPacket setup pkt)) ∧
      Emits Event.Outgoing s₁ (coprocStep setup env i pc s).2 := by
  cases pc with
  | start => exact ⟨s, (List.append_nil _).symm, emits_of_log_eq rfl⟩
  | process burst =>
      cases burst with
      | nil => exact ⟨s, (List.append_nil _).symm, flush_emits⟩
      | cons pkt burst =>
          refine ⟨s.note (.processed i pkt (processPacket setup pkt)), rfl, ?_⟩
          rw [coprocStep]
          split
          · exact enqueue_emits
          · exact emits_note (e := .freed pkt) trivial rfl

theorem inspections_of_emits (h : Emits kind s s')
    (hkind : ∀ e, kind e → ∀ c p r, e ≠ .processed c p r) :
    inspections pkt s'.log = inspections pkt s.log := by
  obtain ⟨es, hlog, hes⟩ := h
  have hnone : inspections pkt es = [] := by
    refine List.flatMap_eq_nil_iff.mpr fun e he => ?_
    cases e with
    | processed c p r => exact absurd rfl (hkind _ (hes _ he) c p r)
    | _ => rfl
  rw [hlog, inspections_append, hnone, List.append_nil]

theorem Event.Outgoing.ne_processed {e : Event} (h : e.Outgoing) (c : Nat)
    (pkt : Mbuf) (ret : Int) : e ≠ .processed c pkt ret := by
  rintro rfl
  exact h

theorem inspections_fastStep {nbKni nbCoproc : Nat} {pc : FastPc} :
    inspections pkt (fastStep setup nbKni nbCoproc env pc s).2.log =
      inspections pkt s.log := by
  refine inspections_of_emits fastStep_emits fun e he c p r => ?_
  rcases he with hout | ⟨k, rfl⟩
  · exact hout.ne_processed c p r
  · exact Event.noConfusion

theorem inspections_coprocStep {pc : CoprocPc} :
    inspections pkt (coprocStep setup env i pc s).2.log =
      inspections pkt s.log ++ (if pc.burst.head? = some pkt then
        [(i, processPacket setup pkt)] else []) := by
  obtain ⟨s₁, hlog, hemits⟩ := coprocStep_emits setup env i pc s
  rw [inspections_of_emits hemits fun e he => he.ne_processed, hlog,
    inspections_append]
  cases pc.burst.head? with
  | none => rfl
  | some pkt' =>
      by_cases heq : pkt' = pkt
      · simp [inspections, heq]
      · simp [inspections, heq]

theorem received_of_emits {pkts : List Mbuf} (h : Emits kind s s')
    (hkind : ∀ e, kind e → ∀ k b, e = .received k b → b = pkts) :
    ∀ pkt ∈ received s'.log, pkt ∈ received s.log ∨ pkt ∈ pkts := by
  obtain ⟨es, hlog, hes⟩ := h
  intro pkt hpkt
  rw [hlog, received_append] at hpkt
  refine (List.mem_append.mp hpkt).imp id fun hmem => ?_
  obtain ⟨e, he, hmem⟩ := List.mem_flatMap.mp hmem
  cases e with
  | received k b =>
      rw [← hkind _ (hes _ he) k b rfl]
      exact hmem
  | _ => cases hmem

theorem received_eq_of_emits (h : Emits kind s s')
    (hkind : ∀ e, kind e → ∀ k b, e = .received k b → b = []) :
    received s'.log = received s.log := by
  obtain ⟨es, hlog, hes⟩ := h
  have hnone : received es = [] := by
    refine List.flatMap_eq_nil_iff.mpr fun e he => ?_
    cases e with
    | received k b => exact hkind _ (hes _ he) k b rfl
    | _ => rfl
  rw [hlog, received_append, hnone, List.append_nil]

theorem burst_of_received {e : Event} {k : Nat} {b : List Mbuf}
    (h : e.Outgoing ∨ ∃ k, e = .received k env.burst)
    (heq : e = .received k b) : b = env.burst := by
  rcases h with hout | ⟨k', rfl⟩
  · rw [heq] at hout
    exact hout.elim
  · cases heq
    rfl

theorem received_fastStep {nbKni nbCoproc : Nat} {pc : FastPc} :
    ∀ pkt ∈ received (fastStep setup nbKni nbCoproc env pc s).2.log,
      pkt ∈ received s.log ∨ pkt ∈ env.burst :=
  received_of_emits fastStep_emits fun _ he _ _ => burst_of_received he

theorem received_fastStep_nil {nbKni nbCoproc : Nat} {pc : FastPc}
    (h : env.burst = []) :
    received (fastStep setup nbKni nbCoproc env pc s).2.log = received s.log :=
  received_eq_of_emits fastStep_emits fun _ he _ _ heq =>
    (burst_of_received he heq).trans h

theorem received_coprocStep {pc : CoprocPc} :
    received (coprocStep setup env i pc s).2.log = received s.log := by
  obtain ⟨s₁, hlog, hemits⟩ := coprocStep_emits setup env i pc s
  rw [received_eq_of_emits hemits fun e he k b heq =>
      (heq ▸ he : (Event.received k b).Outgoing).elim,
    hlog, received_append]
  cases pc.burst.head? with
  | none => simp [received]
  | some pkt => simp [received]

end Emits

end GhostDataplane.Engine
