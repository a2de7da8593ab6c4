import GhostDataplane.Proofs.NoAbort
import GhostDataplane.Proofs.RoundSound
import GhostDataplane.Proofs.Transactions

/-!
# Who is preempted for whom

A comment in `GlobalSchedule` says that only a high-priority task that found
no CPU may preempt a task of lower priority. The code does not look at the
priorities. It evicts the task that the scan has just made current, if the
task's name lets it, in favour of whichever task `Dequeue` hands out when no
CPU is idle.

`PreemptsByPriority` says, of the state in which a round begins, what the
rule rests on instead: every task that may come off a run queue in the round
outranks every task that may be reaped on a CPU it is allowed on. A task may
come off a run queue if it is in one already, or if its transaction is still
open, since the transaction may fail or the task may be evicted in turn. One
half of the result is an invariant of the round. The other half is a round
in which the kernel and the status words let exactly one task through.
-/

namespace GhostDataplane.Agent

open GhostDataplane.Lib

/-- Every task that a round from `s` may evict is outranked by every task
that it may be evicted for. -/
def PreemptsByPriority (cfg : Config) (s : NetScheduler) : Prop :=
  ∀ c p kp n kn, c ∈ cfg.cpus → c ≠ s.globalCpuid →
    (s.cpuStates c).next = some p → s.task p = .live kp →
    Contender cfg s n → n ≠ p → s.task n = .live kn →
    (cfg.enforceAffinityMask = true → c ∈ kn.allowedCpulist) →
    kn.highPriority = true ∧ kp.highPriority = false

/-- In the events of a round that began in `s`, every eviction is of a task
that is not of high priority, in favour of one that is. The only transactions
of a round that are not batched are those of `ReplaceExistingTask`. -/
def RespectsPriority (s : NetScheduler) (evs : List Event) : Prop :=
  ∀ x ∈ txns evs, x.batched = false → ∃ p k, x.cpuState.current = some p ∧
    s.task p = .live k ∧ x.task.highPriority = true ∧ k.highPriority = false

/-- Every round from `s` respects the priorities. -/
def RoundsRespectPriority (cfg : Config) (s : NetScheduler) : Prop :=
  ∀ env s' evs, globalSchedule cfg env s = .ok ((), s') →
    s'.log = s.log ++ evs → RespectsPriority s evs

theorem roundsRespectPriority_of {cfg : Config} {s : NetScheduler}
    (hp : Placed s ∅) (h : PreemptsByPriority cfg s) :
    RoundsRespectPriority cfg s := by
  intro env s' evs hround hlog x hx hb
  obtain ⟨evs', hlog', -, -, hsound, -⟩ := globalSchedule_events hp hround
  cases List.append_cancel_left (hlog.symm.trans hlog')
  have htx := hsound x hx
  obtain ⟨k, hk, hfix⟩ := htx.record
  obtain ⟨p, kp, hne, hkp, hnext, hcur⟩ := htx.evicts hb
  obtain ⟨hhigh, hlow⟩ := h x.cpu p kp x.target k htx.mem htx.notGlobal hnext
    hkp htx.contender (Ne.symm hne) hk
    fun he => NetTask.allowedCpulist_of_fixed hfix ▸ htx.affinity he
  exact ⟨p, kp, hcur, hkp,
    (NetTask.highPriority_of_fixed hfix).trans hhigh, hlow⟩

/-! ## A round that breaks it

If some task may be evicted for one that does not outrank it, the following
round does it. The CPU of the first is the only one that is available, and
its transaction succeeds. The second is the only task that is off its CPU
with all its messages seen; if it is pending somewhere, its transaction
fails. Nothing has run since the last messages. -/

/-- The round that lets only `n` through, and only to `c`. -/
def provoke (s : NetScheduler) (c : CpuId) (n : TaskId) : RoundEnv where
  available d := decide (d = c)
  answer d :=
    if d = c then some .complete
    else if (s.cpuStates d).next = some n then some .other
    else none
  taskName _ := ""
  taskNameAgain _ := ""
  bernoulli _ := false
  scanTime _ := 0
  onCpu t := decide (t ≠ n)
  barrier t :=
    match s.task t with
    | .live k => k.seqnum
    | _ => 0
  swRuntime t :=
    match s.task t with
    | .live k => k.runtime
    | _ => 0
  commit _ := .other
  submitTime _ := 0

theorem provoke_runtimeLe {s : NetScheduler} {c : CpuId} {n : TaskId} :
    RuntimeLe (provoke s c n) s := by
  intro t k hk
  simp [provoke, hk]

/-- What a pending task is, between operations. -/
structure Pending (s : NetScheduler) (c : CpuId) (t : TaskId) : Prop where
  placed : Placed s ∅
  live : ∃ k, s.task t = .live k
  next : (s.cpuStates c).next = some t
  req : s.req c = .inFlight

/-- The visit of another CPU leaves it so. -/
theorem Pending.scanStep {env : RoundEnv} {c d : CpuId} {t : TaskId}
    {a a' : Scan} {s s' : NetScheduler} (h : Pending s c t) (hne : c ≠ d)
    (hstep : ScanStep env d s a s' a') : Pending s' c t := by
  have hm := hstep.moves h.placed
  have hf := hstep.confined
  exact ⟨h.placed.moves hm, (hm.live_iff t).mpr h.live,
    by rw [hf.cpuStates c hne]; exact h.next, (hf.req c hne).trans h.req⟩

/-- Polling a pending request and reaping it, when the kernel has answered. -/
theorem Pending.reaped {c : CpuId} {t : TaskId} {k : NetTask} {st : TxnState}
    {s s' : NetScheduler} {b : Bool} (h : Pending s c t)
    (hk : s.task t = .live k)
    (hsync : syncCpuState (some c) (some st) (s.setReq c (.committed st)) =
      .ok (b, s')) :
    (st = .complete → s' = reapedOk s c t k) ∧
      (st ≠ .complete → s' = reapedFail s c t k st) := by
  have hself : (s.setReq c (.committed st)).req c = .committed st :=
    Function.update_self c _ _
  rcases syncCpuState_cases hsync with
    ⟨hn, -⟩ | ⟨t', k', st', hn, hk', hr, hcase⟩
  · cases h.next.symm.trans hn
  · cases h.next.symm.trans hn
    cases hk.symm.trans hk'
    rw [hself] at hr
    cases hr.resolve_left (by simp)
    rcases hcase with ⟨rfl, -, rfl⟩ | ⟨hne, -, rfl⟩
    · exact ⟨fun _ => by rw [reapedOk, reap_setReq, reapedOk],
        fun hne => absurd rfl hne⟩
    · exact ⟨fun heq => absurd heq hne,
        fun _ => by rw [reapedFail, reap_setReq, reapedFail]⟩

theorem committed_inFlight {c : CpuId} {st : TxnState} {s : NetScheduler}
    (h : s.req c = .inFlight) :
    committed c (some st) s = .ok (true, s.setReq c (.committed st)) := by
  unfold committed
  rw [h]

theorem Pending.current {c : CpuId} {t : TaskId} {s : NetScheduler}
    (h : Pending s c t) : (s.cpuStates c).current = none :=
  (h.placed.exclusive c).resolve_right (by simp [h.next])

/-- The visit of a CPU whose transaction has succeeded makes it a candidate,
unless the task's name protects it. -/
theorem Pending.candidate {env : RoundEnv} {c : CpuId} {t : TaskId}
    {a a' : Scan} {s s' : NetScheduler} (h : Pending s c t)
    (hglobal : c ≠ s.globalCpuid) (hav : env.available c = true)
    (hans : env.answer c = some .complete) (hname : env.taskNameAgain t = "")
    (hstep : scanCpu env c a s = .ok (a', s')) :
    c ∈ a'.availCpusLowPriority := by
  obtain ⟨k, hk⟩ := h.live
  simp only [scanCpu, Checked.bind_get] at hstep
  rw [if_neg (by simp [hav]), if_neg (by simp [hglobal, h.current]), hans,
    Checked.bind_eq (committed_inFlight h.req), if_pos rfl,
    Checked.bind_ok] at hstep
  obtain ⟨b, s₁, hsync, hclass⟩ := hstep
  cases (h.reaped hk hsync).1 rfl
  have hcur : ((reapedOk s c t k).cpuStates c).current = some t :=
    congrArg CpuState.current (setCpu_self _ c _)
  obtain ⟨-, ⟨hnone, -⟩ | ⟨hnone, -⟩ | ⟨t', k', hcur', -, hpre⟩⟩ :=
    classify_ok hclass
  · cases hcur.symm.trans hnone
  · cases hcur.symm.trans hnone
  · cases hcur.symm.trans hcur'
    rcases hpre with ⟨-, rfl⟩ | ⟨hno, -⟩
    · exact CpuList.mem_set.mpr (Or.inl rfl)
    · have hplain : strContains "" "memcached" = false := by decide
      simp [preemptable, hname, hplain] at hno

/-- The visit of a lost CPU whose transaction has failed queues its task. -/
theorem Pending.queued {env : RoundEnv} {c : CpuId} {t : TaskId}
    {a a' : Scan} {s s' : NetScheduler} (h : Pending s c t)
    (hav : env.available c = false) (hans : env.answer c = some .other)
    (hstep : scanCpu env c a s = .ok (a', s')) :
    t ∈ s'.runQueue ++ s'.runQueueLowPriority := by
  obtain ⟨k, hk⟩ := h.live
  simp only [scanCpu, Checked.bind_get] at hstep
  rw [if_pos (by simp [hav]), if_pos (by simp [h.next]), hans,
    Checked.bind_ok] at hstep
  obtain ⟨_, s₁, hreap, hr⟩ := hstep
  cases Checked.pure_ok.mp hr
  rw [Checked.bind_eq (committed_inFlight h.req), if_pos rfl,
    Checked.bind_ok] at hreap
  obtain ⟨b, s₂, hsync, hr⟩ := hreap
  cases Checked.pure_ok.mp hr
  cases (h.reaped hk hsync).2 (by simp)
  exact reapedFail_queued

theorem Settled.mem_queue {c : CpuId} {s s' : NetScheduler} {t : TaskId}
    (h : Settled c s s') (ht : t ∈ s.runQueue ++ s.runQueueLowPriority) :
    t ∈ s'.runQueue ++ s'.runQueueLowPriority := by
  rcases h with ⟨-, hpoll, -⟩ | ⟨b, u, k, st, -, -, -, hcase⟩
  · rw [hpoll.eq]
    exact ht
  · rcases hcase with ⟨-, -, rfl⟩ | ⟨-, -, rfl⟩
    · exact ht
    · exact mem_push.mpr (Or.inr ht)

theorem ScanStep.mem_queue {env : RoundEnv} {c : CpuId} {a a' : Scan}
    {s s' : NetScheduler} {t : TaskId} (h : ScanStep env c s a s' a')
    (ht : t ∈ s.runQueue ++ s.runQueueLowPriority) :
    t ∈ s'.runQueue ++ s'.runQueueLowPriority := by
  rcases h.same_or_settled with rfl | hset
  · exact ht
  · exact hset.mem_queue ht

section Provoke

variable {cfg : Config} {c : CpuId} {p n : TaskId} {a a' : Scan}
  {s s' : NetScheduler}

/-- The scan of such a round ends with `c` a candidate. -/
theorem provoke_candidate (h : Pending s c p) (hc : c ∈ cfg.cpus)
    (hglobal : c ≠ s.globalCpuid)
    (hscan : scanCpus (provoke s c n) cfg.cpus.ids a s = .ok (a', s')) :
    c ∈ a'.availCpusLowPriority := by
  refine scanCpus_visit
    (P := fun s₁ => Pending s₁ c p ∧ s₁.globalCpuid = s.globalCpuid)
    (Q := fun _ a => c ∈ a.availCpusLowPriority) ?_ ?_ ?_ hc ⟨h, rfl⟩ hscan
  · rintro d s₁ a₁ s₂ a₂ hcd ⟨hpend, hg⟩ hstep
    exact ⟨hpend.scanStep hcd hstep, hstep.confined.globalCpuid.trans hg⟩
  · rintro s₁ a₁ s₂ a₂ ⟨hpend, hg⟩ hstep
    exact hpend.candidate (hg ▸ hglobal) (by simp [provoke])
      (by simp [provoke]) rfl hstep
  · intro d s₁ a₁ s₂ a₂ hmem hstep
    exact hstep.mem_lowPriority hmem

/-- And with `n` in a run queue. -/
theorem provoke_queued (hp : Placed s ∅) (hf : InFlight s)
    (hlive : ∃ k, s.task n = .live k) (hcont : Contender cfg s n)
    (hnext : (s.cpuStates c).next ≠ some n)
    (hscan : scanCpus (provoke s c n) cfg.cpus.ids a s = .ok (a', s')) :
    n ∈ s'.runQueue ++ s'.runQueueLowPriority := by
  rcases hcont with hq | ⟨d, hd, hn⟩
  · exact scanCpus_invariant
      (I := fun s => n ∈ s.runQueue ++ s.runQueueLowPriority)
      (fun _ _ _ _ _ _ hq hstep => hstep.mem_queue hq) hq hscan
  · have hdc : d ≠ c := fun heq => hnext (heq ▸ hn)
    refine scanCpus_visit (P := fun s₁ => Pending s₁ d n)
      (Q := fun s _ => n ∈ s.runQueue ++ s.runQueueLowPriority)
      (fun _ _ _ _ _ hne hpend hstep => hpend.scanStep hne hstep) ?_
      (fun _ _ _ _ _ hq hstep => hstep.mem_queue hq) hd
      ⟨hp, hlive, hn, hf d n hn⟩ hscan
    intro s₁ a₁ s₂ a₂ hpend hstep
    exact hpend.queued (by simp [provoke, hdc])
      (by simp [provoke, hdc, hn]) hstep

end Provoke

theorem AssignStep.log {cfg : Config} {env : RoundEnv} {n : TaskId}
    {k : NetTask} {s s' : NetScheduler} {a a' : Assign}
    (h : AssignStep cfg env n k s a s' a') : ∃ evs, s'.log = s.log ++ evs := by
  cases h with
  | stale | unplaced => exact ⟨[], (List.append_nil _).symm⟩
  | batched => exact ⟨_, rfl⟩
  | replaced _ _ _ hrep => exact ⟨_, hrep.log⟩

theorem assignLoop_log {cfg : Config} {env : RoundEnv} {fuel : Nat}
    {a a' : Assign} {s s' : NetScheduler} (hp : Placed s ∅)
    (h : assignLoop cfg env fuel a s = .ok (a', s')) :
    ∃ evs, s'.log = s.log ++ evs := by
  refine assignLoop_invariant (I := fun s₁ _ => ∃ evs, s₁.log = s.log ++ evs)
    ?_ hp ⟨[], (List.append_nil _).symm⟩ h
  rintro s₁ a₁ n k s₂ s₃ a₂ - ⟨evs, hlog⟩ ht has
  obtain ⟨evs', hlog'⟩ := has.log
  exact ⟨evs ++ [.dequeued n] ++ evs', by rw [hlog', ht.log, hlog]; simp⟩

theorem Taken.mem_of_ne {s s₁ : NetScheduler} {n t : TaskId} {k : NetTask}
    (h : Taken s n k s₁) (hne : t ≠ n)
    (ht : t ∈ s.runQueue ++ s.runQueueLowPriority) :
    t ∈ s₁.runQueue ++ s₁.runQueueLowPriority := by
  rcases dequeue_some h.dequeued with ⟨rest, hq, rfl⟩ | ⟨hq, rest, hl, rfl⟩
  · rw [hq] at ht
    exact (List.mem_cons.mp ht).resolve_left hne
  · rw [hq, List.nil_append, hl] at ht
    rw [hq]
    exact (List.mem_cons.mp ht).resolve_left hne

/-- A task that is seen on its CPU yields. -/
theorem AssignStep.of_onCpu {cfg : Config} {env : RoundEnv} {n : TaskId}
    {k : NetTask} {s s' : NetScheduler} {a a' : Assign}
    (h : AssignStep cfg env n k s a s' a') (hon : env.onCpu n = true) :
    s' = s.yielded n k ∧ a' = a := by
  cases h with
  | stale => exact ⟨rfl, rfl⟩
  | batched hr _ _ _ | replaced hr _ _ _ | unplaced hr _ _ =>
      cases hr.1.symm.trans hon

/-- A task that is ready evicts the task of the only candidate. -/
theorem AssignStep.evicts {cfg : Config} {env : RoundEnv} {n p : TaskId}
    {k : NetTask} {s s' : NetScheduler} {a a' : Assign} {c : CpuId}
    (h : AssignStep cfg env n k s a s' a') (hready : Ready env n k)
    (hidle : ∀ d, d ∉ a.availCpus)
    (hlow : ∀ d, d ∈ a.availCpusLowPriority ↔ d = c)
    (hallowed : cfg.enforceAffinityMask = true → c ∈ k.allowedCpulist)
    (hcur : (s.cpuStates c).current = some p) :
    ∃ x, s'.log = s.log ++ [.opened x] ∧ x.batched = false ∧
      x.cpuState.current = some p ∧ x.task = k := by
  cases h with
  | stale hstale => exact absurd hready hstale
  | batched _ hpick _ _ => exact absurd (pickNextCpu_mem hpick).1 (hidle _)
  | unplaced _ _ hnone =>
      exact absurd (mem_allowedCpus.mpr ⟨(hlow c).mpr rfl, hallowed⟩)
        (pickNextCpu_none hnone c)
  | replaced _ _ hpick hrep =>
      cases (hlow _).mp (pickNextCpu_mem hpick).1
      exact ⟨_, hrep.log, rfl, hcur, rfl⟩

/-- With one candidate and no idle CPU, the only task that is ready evicts
the candidate's task, however long the others keep the loop busy. -/
theorem assignLoop_evicts {cfg : Config} {env : RoundEnv} {fuel : Nat}
    {a a' : Assign} {s s' : NetScheduler} {c : CpuId} {p n : TaskId}
    {k : NetTask} (hp : Placed s ∅) (hidle : ∀ d, d ∉ a.availCpus)
    (hlow : ∀ d, d ∈ a.availCpusLowPriority ↔ d = c)
    (hcur : (s.cpuStates c).current = some p)
    (hn : n ∈ s.runQueue ++ s.runQueueLowPriority) (hk : s.task n = .live k)
    (hready : Ready env n k) (hothers : ∀ t, t ≠ n → env.onCpu t = true)
    (hallowed : cfg.enforceAffinityMask = true → c ∈ k.allowedCpulist)
    (h : assignLoop cfg env fuel a s = .ok (a', s')) :
    ∃ evs x, s'.log = s.log ++ evs ∧ x ∈ txns evs ∧ x.batched = false ∧
      x.cpuState.current = some p ∧ x.task = k := by
  induction fuel generalizing a s with
  | zero => exact (Checked.throw_ok.mp h).elim
  | succ fuel ih =>
      unfold assignLoop at h
      split at h
      · next hempty =>
          rw [Bool.and_eq_true] at hempty
          exact absurd ((hlow c).mpr rfl) (CpuList.isEmpty_iff.mp hempty.2 c)
      · rw [Checked.bind_ok] at h
        obtain ⟨next, s₁, hd, h⟩ := h
        cases next with
        | none =>
            obtain ⟨hq, hl, -⟩ := dequeue_none hd
            rw [hq, hl] at hn
            cases hn
        | some m =>
            simp only [Checked.bind_ok] at h
            obtain ⟨a₁, s₂, hassign, h⟩ := h
            obtain ⟨km, hkm, -⟩ := bind_deref.mp hassign
            have ht := taken_of_dequeue hp hd hkm
            have has := assignTask_cases ht.placed hkm ht.queued hassign
            have hp₂ := hp.moves (has.moves ht)
            by_cases hmn : m = n
            · subst hmn
              rw [ht.task, hk] at hkm
              cases hkm
              have hcur₁ : (s₁.cpuStates c).current = some p :=
                ht.cpuStates ▸ hcur
              obtain ⟨x, hopened, hx⟩ :=
                has.evicts hready hidle hlow hallowed hcur₁
              obtain ⟨evs, hlog⟩ := assignLoop_log hp₂ h
              rw [hopened, ht.log, List.append_assoc, List.append_assoc] at hlog
              exact ⟨_, x, hlog, List.mem_cons_self, hx⟩
            · obtain ⟨rfl, rfl⟩ := has.of_onCpu (hothers m hmn)
              have hcur₁ : (s₁.cpuStates c).current = some p :=
                ht.cpuStates ▸ hcur
              obtain ⟨evs, x, hlog, hx, hrest⟩ := ih hp₂ hidle hlow hcur₁
                (ht.mem_of_ne (Ne.symm hmn) hn)
                ((setTask_task_ne (Ne.symm hmn)).trans
                  ((congrFun ht.task n).trans hk)) h
              refine ⟨.dequeued m :: evs, x, ?_, hx, hrest⟩
              rw [hlog, show (s₁.yielded m km).log = s₁.log from rfl, ht.log,
                List.append_assoc]
              rfl

theorem preemptsByPriority_of {cfg : Config} {s : NetScheduler}
    (hp : Placed s ∅) (hi : Intact s) (hf : InFlight s)
    (h : RoundsRespectPriority cfg s) : PreemptsByPriority cfg s := by
  intro c p kp n kn hc hglobal hnext hkp hcont hne hkn hallowed
  have hpend : Pending s c p := ⟨hp, ⟨kp, hkp⟩, hnext, hf c p hnext⟩
  have hsucc : (globalSchedule cfg (provoke s c n)).Succeeds s :=
    globalSchedule_succeeds hp hi provoke_runtimeLe
  obtain ⟨⟨u, s'⟩, hsched⟩ := hsucc
  obtain ⟨scan, s₁, a, s₂, s₃, s₄, hround⟩ := globalSchedule_round hsched
  have hm := hround.moves_scan hp
  have hlow := provoke_candidate hpend hc hglobal hround.scanned
  have hq := provoke_queued hp hf ⟨kn, hkn⟩ hcont
    (by rw [hnext]; simpa using Ne.symm hne) hround.scanned
  have ho := scan_offers hround.scanned
  -- Only `c` is available, so the two sets are empty and `c` alone.
  have honly : ∀ d, (provoke s c n).available d = true → d = c := fun d hd =>
    of_decide_eq_true hd
  obtain ⟨p', hnext', hcur⟩ := (ho.candidate c hlow).reaped
  cases hnext.symm.trans hnext'
  -- The record of `n` is the one of `s` as far as the loop reads it.
  obtain ⟨k₁, hk₁, hfix⟩ := hm.live hkn
  obtain ⟨k, hk, -, hseq⟩ := scanCpus_record hround.scanned hk₁
  cases hkn.symm.trans hk
  have hready : Ready (provoke s c n) n k₁ :=
    ⟨by simp [provoke], by rw [hseq]; simp [provoke, hkn]⟩
  obtain ⟨evs, x, hlog, hx, hb, hxcur, hxk⟩ := assignLoop_evicts (hp.moves hm)
    (fun d hd => by
      have hdc := honly d (ho.idle d hd).available
      exact absurd hdc (ho.disjoint hd hlow))
    (fun d => ⟨fun hd => honly d (ho.candidate d hd).available,
      fun hdc => hdc ▸ hlow⟩) hcur hq hk₁ hready
    (fun t ht => by simpa [provoke] using ht)
    (fun he => NetTask.allowedCpulist_of_fixed hfix ▸ hallowed he)
    hround.assigned
  obtain ⟨evs₀, hlog₀, -⟩ := scanCpus_log hround.scanned
  obtain ⟨evs₁, hlog₁, -⟩ := hround.log_submitted
  rw [hlog, hlog₀, List.append_assoc, List.append_assoc] at hlog₁
  have hmem : x ∈ txns (evs₀ ++ (evs ++ evs₁)) := by
    rw [txns_append, txns_append]
    exact List.mem_append_right _ (List.mem_append_left _ hx)
  obtain ⟨p', kp', hcur', hkp', hhigh, hlow'⟩ := h _ s' _ hsched hlog₁ x hmem hb
  cases hxcur.symm.trans hcur'
  cases hkp.symm.trans hkp'
  rw [hxk, NetTask.highPriority_of_fixed hfix] at hhigh
  exact ⟨hhigh, hlow'⟩

/-- A round evicts only tasks that are not of high priority, and only for
tasks that are, if every task that may come off a run queue outranks every
task that may be reaped on a CPU it is allowed on. In a run whose tasks depart
while blocked that is exactly when every round does. -/
theorem preemption_respects_priority_iff {cfg : Config} {s : NetScheduler}
    (h : Reachable cfg s) :
    (PreemptsByPriority cfg s → RoundsRespectPriority cfg s) ∧
      (CleanReachable cfg s →
        (RoundsRespectPriority cfg s ↔ PreemptsByPriority cfg s)) := by
  have hp := (sound_of_reachable h).placed
  exact ⟨roundsRespectPriority_of hp, fun hclean =>
    ⟨preemptsByPriority_of hp (intact_of_cleanReachable hclean)
      (inFlight_of_reachable h), roundsRespectPriority_of hp⟩⟩

/-- With a low-priority task about to be reaped and a high-priority one in
the queue, every round keeps the rule. -/
theorem preemption_respects_priority_iff_high_queued :
    ∃ s, CleanReachable twoCpus s ∧ PreemptsByPriority twoCpus s ∧
      (s.cpuStates 1).next = some 0 ∧ s.runQueue = [1] ∧
      RoundsRespectPriority twoCpus s := by
  have hrun : ∃ s k₀ k₁, performAll twoCpus
      [newTask 0 false true "app", .globalSchedule calmRound,
        newTask 1 true true "EngineThread/0"] twoCpusStart = .ok ((), s) ∧
      (s.cpuStates 0).next = none ∧ (s.cpuStates 1).next = some 0 ∧
      s.runQueue = [1] ∧ s.runQueueLowPriority = [] ∧
      s.task 0 = .live k₀ ∧ s.task 1 = .live k₁ ∧
      k₀.highPriority = false ∧ k₁.highPriority = true :=
    ⟨_, _, _, rfl, rfl, rfl, rfl, rfl, rfl, rfl, rfl, rfl⟩
  obtain ⟨s, k₀, k₁, hrun, hn₀, hn₁, hq, hl, hk₀, hk₁, hlow, hhigh⟩ := hrun
  have hreach : CleanReachable twoCpus s :=
    reach_performAll (.init twoCpusStart_init)
      (by simp [newTask, departsBlocked]) hrun
  have hcpus : ∀ c, c ∈ twoCpus.cpus → c = 0 ∨ c = 1 := by
    intro c hc
    simpa [twoCpus] using CpuList.mem_def.mp hc
  have hpre : PreemptsByPriority twoCpus s := by
    intro c p kp n kn hc _ hnext hkp hcont hne hkn _
    have hc1 : c = 1 := by
      rcases hcpus c hc with rfl | rfl
      · cases hn₀.symm.trans hnext
      · rfl
    subst hc1
    cases hn₁.symm.trans hnext
    have hn : n = 1 := by
      rcases hcont with hmem | ⟨d, hd, hnd⟩
      · simpa [hq, hl] using hmem
      · rcases hcpus d hd with rfl | rfl
        · cases hn₀.symm.trans hnd
        · cases hn₁.symm.trans hnd
          exact absurd rfl hne
    subst hn
    cases hk₀.symm.trans hkp
    cases hk₁.symm.trans hkn
    exact ⟨hhigh, hlow⟩
  exact ⟨s, hreach, hpre, hn₁, hq,
    (preemption_respects_priority_iff hreach.reachable).1 hpre⟩

/-- A low-priority task evicts a high-priority one. -/
theorem lowPriority_evicts_highPriority :
    ∃ s s' evs k, CleanReachable twoCpus s ∧
      globalSchedule twoCpus calmRound s = .ok ((), s') ∧
      s'.log = s.log ++ evs ∧ s.task 0 = .live k ∧ k.highPriority = true ∧
      (txns evs).map (fun x => (x.cpuState.current, x.target, x.batched,
        x.task.highPriority)) = [(some 0, 1, false, false)] ∧
      ¬ RespectsPriority s evs := by
  have hrun : ∃ s s' evs k, performAll twoCpus
      [newTask 0 true true "EngineThread/0", .globalSchedule calmRound,
        newTask 1 false true "app"] twoCpusStart = .ok ((), s) ∧
      globalSchedule twoCpus calmRound s = .ok ((), s') ∧
      s'.log = s.log ++ evs ∧ s.task 0 = .live k ∧ k.highPriority = true ∧
      (txns evs).map (fun x => (x.cpuState.current, x.target, x.batched,
        x.task.highPriority)) = [(some 0, 1, false, false)] :=
    ⟨_, _, [_, _, _], _, rfl, rfl, rfl, rfl, rfl, rfl⟩
  obtain ⟨s, s', evs, k, hrun, hround, hlog, hk, hhigh, htx⟩ := hrun
  have hreach : CleanReachable twoCpus s :=
    reach_performAll (.init twoCpusStart_init)
      (by simp [newTask, departsBlocked]) hrun
  refine ⟨s, s', evs, k, hreach, hround, hlog, hk, hhigh, htx, fun hresp => ?_⟩
  obtain ⟨x, hx, hfields⟩ : ∃ x ∈ txns evs, (x.cpuState.current, x.target,
      x.batched, x.task.highPriority) = (some 0, 1, false, false) :=
    List.mem_map.mp (htx ▸ List.mem_singleton.mpr rfl)
  simp only [Prod.mk.injEq] at hfields
  obtain ⟨p, kp, -, -, hnext, -⟩ := hresp x hx hfields.2.2.1
  cases hfields.2.2.2.symm.trans hnext

end GhostDataplane.Agent
