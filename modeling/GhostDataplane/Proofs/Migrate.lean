import GhostDataplane.Proofs.Assign

/-!
# The migration of the global agent

The search for a CPU ends on one whose request has committed, and the
hand-over syncs that CPU once more and unschedules what runs there.
-/

namespace GhostDataplane.Agent

open GhostDataplane.Lib

section Search

variable {cfg : Config} {env : MigrateEnv} {g c : CpuId} {s s' : NetScheduler}
  {o : Option CpuId}

theorem tryHome_ok {b : Bool} (h : tryHome env g c s = .ok (b, s')) :
    (b = false ∧ s' = s) ∨
      (b = true ∧ s.globalHomeCpu ≠ g ∧ env.homeAvailable c = true ∧
        Settled s.globalHomeCpu s s') := by
  simp only [tryHome, Checked.bind_get] at h
  split at h
  · next hhome =>
      obtain ⟨done, s₁, hcom, h⟩ := Checked.bind_ok.mp h
      cases done with
      | true =>
          obtain ⟨_, s₂, hsync, h⟩ := Checked.bind_ok.mp h
          cases Checked.pure_ok.mp h
          simp only [ne_eq, Bool.and_eq_true, decide_eq_true_eq] at hhome
          exact Or.inr ⟨rfl, hhome.1, hhome.2, settled_of hcom hsync⟩
      | false =>
          cases Checked.pure_ok.mp h
          exact Or.inl ⟨rfl, ((committed_ok hcom).2.2 rfl).1⟩
  · cases Checked.pure_ok.mp h
    exact Or.inl ⟨rfl, rfl⟩

/-- What one turn of the search can do. -/
inductive SearchTurn (cfg : Config) (env : MigrateEnv) (g c : CpuId)
    (s : NetScheduler) : Option CpuId → NetScheduler → Prop where
  | home {s' : NetScheduler} (hne : s.globalHomeCpu ≠ g)
      (hav : env.homeAvailable c = true)
      (hset : Settled s.globalHomeCpu s s') :
      SearchTurn cfg env g c s (some s.globalHomeCpu) s'
  | here {s' : NetScheduler} {st : TxnState} (hne : c ≠ g)
      (hav : env.available c = true)
      (hnode : cfg.topology.numaNode c =
        cfg.topology.numaNode s.globalHomeCpu)
      (hsw : (s.cpuStates c).inSwitchto = false) (hpoll : Polled c s s')
      (hst : s'.req c = .committed st) : SearchTurn cfg env g c s (some c) s'
  | passed : SearchTurn cfg env g c s none s

theorem searchCpu_cases (h : searchCpu cfg env g c s = .ok (o, s')) :
    SearchTurn cfg env g c s o s' := by
  rw [searchCpu, Checked.bind_ok] at h
  obtain ⟨home, s₁, hhome, h⟩ := h
  rcases tryHome_ok hhome with ⟨rfl, rfl⟩ | ⟨rfl, hne, hav, hset⟩
  · rw [if_neg (by simp), Checked.bind_ok] at h
    obtain ⟨here, s₂, hhere, h⟩ := h
    cases Checked.pure_ok.mp h
    simp only [tryCpu, Checked.bind_get] at hhere
    split at hhere
    · cases Checked.pure_ok.mp hhere
      exact .passed
    next hsw =>
    split at hhere
    · cases Checked.pure_ok.mp hhere
      exact .passed
    next hnode =>
    split at hhere
    · next hfree =>
        simp only [ne_eq, Bool.and_eq_true, decide_eq_true_eq] at hfree
        obtain ⟨hpoll, htrue, hfalse⟩ := committed_ok hhere
        cases here with
        | true =>
            obtain ⟨st, hst⟩ := htrue rfl
            exact .here hfree.1 hfree.2 (not_not.mp hnode) (by simpa using hsw)
              hpoll hst
        | false =>
            obtain ⟨rfl, -⟩ := hfalse rfl
            exact .passed
    · cases Checked.pure_ok.mp hhere
      exact .passed
  · simp only [if_true, Checked.bind_get] at h
    cases Checked.pure_ok.mp h
    rw [hset.confined.globalHomeCpu]
    exact .home hne hav hset

/-- A search that finds a CPU does so in one of its turns, and the turns before
it have changed nothing. -/
theorem findTarget_cases {cs : List CpuId}
    (h : findTarget cfg env g cs s = .ok (o, s')) :
    (o = none ∧ s' = s) ∨
      ∃ target, o = some target ∧
        ∃ c ∈ cs, SearchTurn cfg env g c s (some target) s' := by
  induction cs with
  | nil =>
      cases Checked.pure_ok.mp h
      exact Or.inl ⟨rfl, rfl⟩
  | cons c cs ih =>
      rw [findTarget, Checked.bind_ok] at h
      obtain ⟨found, s₁, hsearch, h⟩ := h
      have hturn := searchCpu_cases hsearch
      cases found with
      | some target =>
          cases Checked.pure_ok.mp h
          exact Or.inr ⟨target, rfl, c, List.mem_cons_self, hturn⟩
      | none =>
          cases hturn
          rcases ih h with hnone | ⟨target, ho, d, hd, hturn⟩
          · exact Or.inl hnone
          · exact Or.inr ⟨target, ho, d, List.mem_cons_of_mem c hd, hturn⟩

/-- The CPU that is found has committed its request. -/
theorem SearchTurn.committed {target : CpuId}
    (h : SearchTurn cfg env g c s (some target) s') :
    ∃ st, s'.req target = .committed st := by
  cases h with
  | home _ _ hset => exact hset.committed
  | here _ _ _ _ _ hst => exact ⟨_, hst⟩

/-- It has been synced or polled. -/
theorem SearchTurn.settled {target : CpuId}
    (h : SearchTurn cfg env g c s (some target) s') :
    Settled target s s' ∨ Polled target s s' := by
  cases h with
  | home _ _ hset => exact Or.inl hset
  | here _ _ _ _ hpoll _ => exact Or.inr hpoll

end Search

/-- The tables after the task `p` was unscheduled from `c` and queued. -/
def NetScheduler.unscheduled (s : NetScheduler) (c : CpuId) (p : TaskId)
    (k : NetTask) : NetScheduler :=
  (((s.openUnschedule c p .complete).setCurrent c none).setTask p
    { k with prioBoost := true, runState := .queued }).push p
    { k with prioBoost := true }

theorem preemptTask_none_ok {s s' : NetScheduler} {c : CpuId} {p : TaskId}
    {k : NetTask} {st : TxnState} {swRuntime : TaskId → Nat} {b : Bool}
    (hk : s.task p = .live k) (hon : k.runState = .onCpu)
    (hcpu : k.cpu = some c) :
    preemptTask (some p) none st swRuntime s = .ok (b, s') ↔
      st = .complete ∧ b = true ∧
        s' = (s.openUnschedule c p .complete).setCurrent c none := by
  unfold preemptTask
  simp only []
  rw [deref_bind hk, check_bind (by simp [hon]), check_bind (by simp [hon]),
    if_neg (by simp)]
  simp only [hcpu]
  rw [Checked.modify_bind, Checked.modify_bind, setReq_setReq]
  simp only [bind_check, decide_eq_true_eq, Checked.bind_modify,
    Checked.pure_ok]
  constructor
  · rintro ⟨rfl, hr⟩
    cases hr
    exact ⟨rfl, rfl, rfl⟩
  · rintro ⟨rfl, rfl, rfl⟩
    exact ⟨rfl, rfl⟩

theorem vacateTarget_ok {env : MigrateEnv} {c : CpuId} {p : TaskId}
    {k : NetTask} {s s' : NetScheduler} (hk : s.task p = .live k)
    (hon : k.runState = .onCpu) (hcpu : k.cpu = some c) :
    vacateTarget env c (some p) s = .ok ((), s') ↔
      env.commit = .complete ∧ s' = s.unscheduled c p k := by
  let s₁ := (s.openUnschedule c p .complete).setCurrent c none
  have hpre : ∀ b s₂, preemptTask (some p) none env.commit (fun _ => 0) s =
      .ok (b, s₂) ↔ env.commit = .complete ∧ b = true ∧ s₂ = s₁ :=
    fun b s₂ => preemptTask_none_ok hk hon hcpu
  have hrest : (do
      modifyTask p fun k => { k with prioBoost := true }
      enqueue p
      Checked.modify fun s => s.setCurrent c none : Sched Unit) s₁ =
      .ok ((), s.unscheduled c p k) := by
    rw [modifyTask_bind (by exact hk),
      Checked.bind_eq (enqueue_eq (setTask_task_self _ _ _)), setTask_setTask]
    simp only [Checked.modify, NetScheduler.unscheduled, s₁,
      NetScheduler.setTask, NetScheduler.setCurrent, NetScheduler.setCpu,
      NetScheduler.push, Function.update_idem, Function.update_self]
  rw [vacateTarget, deref_bind hk, check_bind (by simp [hon]), Checked.bind_ok]
  simp only [hpre]
  constructor
  · rintro ⟨b, s₂, ⟨hst, rfl, rfl⟩, h⟩
    rw [check_bind rfl, hrest] at h
    cases h
    exact ⟨hst, rfl⟩
  · rintro ⟨hst, rfl⟩
    refine ⟨true, s₁, ⟨hst, rfl, rfl⟩, ?_⟩
    rw [check_bind rfl, hrest]

theorem vacateTarget_live {env : MigrateEnv} {c : CpuId} {p : TaskId}
    {s s' : NetScheduler} (h : vacateTarget env c (some p) s = .ok ((), s')) :
    ∃ k, s.task p = .live k := by
  obtain ⟨k, hk, -⟩ := bind_deref.mp h
  exact ⟨k, hk⟩

theorem settleTarget_settled {env : MigrateEnv} {target : CpuId}
    {s s' : NetScheduler} (h : settleTarget env target s = .ok ((), s')) :
    Settled target s s' := by
  obtain ⟨done, s₀, hcom, h⟩ := Checked.bind_ok.mp h
  rw [bind_check, Checked.bind_get] at h
  obtain ⟨rfl, h⟩ := h
  split at h
  · obtain ⟨_, s₁, hsync, h⟩ := Checked.bind_ok.mp h
    cases Checked.pure_ok.mp h
    exact settled_of hcom hsync
  · next hn =>
      cases Checked.pure_ok.mp h
      obtain ⟨hpoll, hst, -⟩ := committed_ok hcom
      refine Or.inl ⟨?_, hpoll, hst rfl⟩
      rw [hpoll.eq] at hn
      simpa using hn

/-- All that the hand-over can do. -/
theorem migrateTo_cases {env : MigrateEnv} {c : CpuId} {s s' : NetScheduler}
    (h : migrateTo env c s = .ok ((), s')) :
    ∃ s₁ s₂, Settled c s s₁ ∧
      vacateTarget env c (s₁.cpuStates c).current s₁ = .ok ((), s₂) ∧
      s' = s₂.handOver c := by
  rw [migrateTo, Checked.bind_ok] at h
  obtain ⟨_, s₁, hset, h⟩ := h
  rw [Checked.bind_get, Checked.bind_ok] at h
  obtain ⟨_, s₂, hvac, h⟩ := h
  cases Checked.modify_ok.mp h
  exact ⟨s₁, s₂, settleTarget_settled hset, hvac, rfl⟩

/-- Unscheduling moves the task from the CPU to the front of its queue. -/
theorem unscheduled_moves {s : NetScheduler} {c : CpuId} {p : TaskId}
    {k : NetTask} {H : Set TaskId} (hp : Placed s H)
    (hcur : (s.cpuStates c).current = some p) (hk : s.task p = .live k) :
    Moves s H (s.unscheduled c p k) H := by
  obtain ⟨hpH, -, -⟩ := hp.at_current hk hcur
  have hnext : (s.cpuStates c).next = none :=
    (hp.exclusive c).resolve_left (by simp [hcur])
  have hmem : p ∈ insert p H := Set.mem_insert p H
  let s₁ := (s.openUnschedule c p .complete).setCurrent c none
  let l : NetTask := { k with prioBoost := true }
  have htouch : Move s₁ (insert p H) (s₁.setTask p l) (insert p H) :=
    .touch (k := k) (by exact hk) (Or.inl hmem) rfl
  have henq := Move.enqueue (setTask_task_self s₁ p l) hmem
  rw [setTask_setTask, insert_diff hpH] at henq
  exact .head (.openUnschedule hnext) (.head (.vacate (by exact hk)
    (by exact hcur)) (.head htouch henq.moves))

theorem pickNextGlobalCpu_moves {cfg : Config} {env : MigrateEnv}
    {s s' : NetScheduler} {H : Set TaskId} (hp : Placed s H)
    (h : pickNextGlobalCpu cfg env s = .ok ((), s')) : Moves s H s' H := by
  rw [pickNextGlobalCpu, Checked.bind_get, Checked.bind_ok] at h
  obtain ⟨target, s₁, hfind, h⟩ := h
  rcases findTarget_cases hfind with ⟨rfl, rfl⟩ | ⟨c, rfl, _, -, hturn⟩
  · cases Checked.pure_ok.mp h
    exact .refl
  · obtain ⟨s₂, s₃, hset, hvac, rfl⟩ := migrateTo_cases h
    have hm₂ : Moves s H s₂ H := by
      rcases hturn.settled with hset' | hpoll
      · have hm₁ := hset'.moves hp
        exact hm₁.trans (hset.moves (hp.moves hm₁))
      · exact (hset.of_polled hpoll).moves hp
    have hp₂ := hp.moves hm₂
    refine hm₂.trans ?_
    cases hcur : (s₂.cpuStates c).current with
    | none =>
        rw [hcur] at hvac
        cases Checked.pure_ok.mp hvac
        exact (Move.handOver hcur hset.next).moves
    | some p =>
        rw [hcur] at hvac
        obtain ⟨k, hk⟩ := vacateTarget_live hvac
        obtain ⟨-, hon, hcpu⟩ := hp₂.at_current hk hcur
        obtain ⟨-, rfl⟩ := (vacateTarget_ok hk hon hcpu).mp hvac
        refine (unscheduled_moves hp₂ hcur hk).trans (Move.handOver ?_ ?_).moves
        · exact congrArg CpuState.current (setCpu_self s₂ c _)
        · exact (congrArg CpuState.next (setCpu_self s₂ c _)).trans hset.next

end GhostDataplane.Agent
