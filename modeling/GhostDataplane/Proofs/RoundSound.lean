import GhostDataplane.Lib.Log
import GhostDataplane.Proofs.Placement

/-!
# Soundness of a scheduling round

The transactions of a round are the `opened` entries that it adds to the log.
That no task and no CPU is used twice is an invariant of the assignment loop.
A CPU leaves the set it was picked from and is in no other. A task is spent
once it was the target of a transaction: it waits for its CPU, runs on one
that is no candidate any more, or yields, and so it is not queued and nobody
evicts it before the round is over.
-/

namespace GhostDataplane.Agent

open GhostDataplane.Lib

/-- The transactions among the events. -/
def txns (evs : List Event) : List Txn :=
  evs.filterMap fun
    | .opened x => some x
    | _ => none

/-- A task that a round from `s` may take off a run queue. -/
def Contender (cfg : Config) (s : NetScheduler) (t : TaskId) : Prop :=
  t ∈ s.runQueue ++ s.runQueueLowPriority ∨
    ∃ c ∈ cfg.cpus, (s.cpuStates c).next = some t

/-- What is true of every transaction of a round that began in `s₀`. -/
structure TxnSound (cfg : Config) (env : RoundEnv) (s₀ : NetScheduler)
    (x : Txn) : Prop where
  record : ∃ k, s₀.task x.target = .live k ∧ x.task.fixed = k.fixed
  contender : Contender cfg s₀ x.target
  offCpu : env.onCpu x.target = false
  barrier : x.task.seqnum = env.barrier x.target
  mem : x.cpu ∈ cfg.cpus
  available : env.available x.cpu = true
  notGlobal : x.cpu ≠ s₀.globalCpuid
  committed : x.req.isCommitted = true
  idle : x.batched = true → x.cpuState.current = none ∧
    x.cpuState.next = none ∧ x.cpuState.inSwitchto = false
  evicts : x.batched = false → ∃ p k, p ≠ x.target ∧ s₀.task p = .live k ∧
    (s₀.cpuStates x.cpu).next = some p ∧ x.cpuState.current = some p
  affinity : cfg.enforceAffinityMask = true → x.cpu ∈ x.task.allowedCpulist

/-- The target of a transaction was just taken off a run queue. -/
def FromQueue (before : List Event) : Event → Prop
  | .opened x => before.getLast? = some (.dequeued x.target)
  | _ => True

/-- The task will not be the target of another transaction of the round. -/
structure Spent (s : NetScheduler) (candidates : CpuList) (t : TaskId) :
    Prop where
  notQueued : ∃ k, s.task t = .live k ∧ k.runState ≠ .queued
  notCandidate : ∀ c ∈ candidates, (s.cpuStates c).current ≠ some t

/-- The invariant of the loop, in a round that began in `s₀` and has written
`evs` to the log so far. -/
structure RoundInv (cfg : Config) (env : RoundEnv) (s₀ s : NetScheduler)
    (a : Assign) (evs : List Event) : Prop where
  moved : Moves s₀ ∅ s ∅
  global : s.globalCpuid = s₀.globalCpuid
  offers : Offers cfg env s₀ s a.availCpus a.availCpusLowPriority
  contender : ∀ t ∈ s.runQueue ++ s.runQueueLowPriority, Contender cfg s₀ t
  log : s.log = s₀.log ++ evs
  targets : ((txns evs).map Txn.target).Nodup
  cpus : ((txns evs).map Txn.cpu).Nodup
  sound : ∀ x ∈ txns evs, TxnSound cfg env s₀ x
  fromQueue : Log.Ok FromQueue evs
  used : ∀ x ∈ txns evs,
    x.cpu ∉ a.availCpus ∧ x.cpu ∉ a.availCpusLowPriority
  spent : ∀ x ∈ txns evs, Spent s a.availCpusLowPriority x.target

theorem txns_append {evs evs' : List Event} :
    txns (evs ++ evs') = txns evs ++ txns evs' := List.filterMap_append

/-- One more transaction, on something that none of the others has. -/
theorem nodup_map_concat {β : Type} {f : Txn → β} {xs : List Txn} {x : Txn}
    (h : (xs.map f).Nodup) (hx : ∀ y ∈ xs, f y ≠ f x) :
    ((xs ++ [x]).map f).Nodup := by
  rw [List.map_append]
  refine List.nodup_append.mpr ⟨h, List.nodup_singleton _, ?_⟩
  intro b hb b' hb'
  obtain ⟨y, hy, rfl⟩ := List.mem_map.mp hb
  rw [List.mem_singleton.mp hb']
  exact hx y hy

theorem forall_mem_concat {P : Txn → Prop} {xs : List Txn} {x : Txn}
    (h : ∀ y ∈ xs, P y) (hx : P x) : ∀ y ∈ xs ++ [x], P y := by
  intro y hy
  rcases List.mem_append.mp hy with hy | hy
  · exact h y hy
  · rw [List.mem_singleton.mp hy]
    exact hx

theorem Spent.frame {s s' : NetScheduler} {l l' : CpuList} {t : TaskId}
    (h : Spent s l t) (htask : s'.task t = s.task t)
    (hcpu : ∀ c ∈ l', c ∈ l ∧ s'.cpuStates c = s.cpuStates c) :
    Spent s' l' t := by
  refine ⟨htask ▸ h.notQueued, fun c hc => ?_⟩
  rw [(hcpu c hc).2]
  exact h.notCandidate c (hcpu c hc).1

/-- A task that is not queued, and not running on a candidate, is spent. -/
theorem Placed.spent {s : NetScheduler} {l : CpuList} {t : TaskId}
    {k : NetTask} (hp : Placed s ∅) (hk : s.task t = .live k)
    (hq : k.runState ≠ .queued)
    (hcpu : k.runState = .onCpu → ∀ c ∈ l, k.cpu ≠ some c) : Spent s l t := by
  refine ⟨⟨k, hk, hq⟩, fun c hc hcur => ?_⟩
  obtain ⟨-, hon, hkc⟩ := hp.at_current hk hcur
  exact hcpu hon c hc hkc

/-- The task that replaced another runs on a CPU that is no candidate any
more, or yields. -/
theorem Replaced.spent {s s' : NetScheduler} {c : CpuId} {n p : TaskId}
    {kn k : NetTask} {st : TxnState} {swRuntime : TaskId → Nat} {now : Int}
    {l : CpuList} (h : Replaced s c n kn st swRuntime now p k s')
    (hp : Placed s' ∅) : Spent s' (l.clear c) n := by
  obtain ⟨k', hk', ⟨hon, hcpu⟩ | hy⟩ := h.task_target
  · refine hp.spent hk' (by simp [hon]) fun _ d hd hkd => ?_
    rw [hcpu] at hkd
    cases hkd
    exact (CpuList.mem_clear.mp hd).2 rfl
  · refine hp.spent hk' (by simp [hy]) fun hon => ?_
    rw [hy] at hon
    cases hon

section Turn

variable {cfg : Config} {env : RoundEnv} {n : TaskId} {k : NetTask}
  {s₀ s s₁ s' : NetScheduler} {a a' : Assign} {evs : List Event}

theorem Taken.log (h : Taken s n k s₁) : s₁.log = s.log ++ [.dequeued n] := by
  rcases dequeue_some h.dequeued with ⟨rest, -, rfl⟩ | ⟨-, rest, -, rfl⟩ <;> rfl

theorem Taken.globalCpuid (h : Taken s n k s₁) :
    s₁.globalCpuid = s.globalCpuid := by
  rcases dequeue_some h.dequeued with ⟨rest, -, rfl⟩ | ⟨-, rest, -, rfl⟩ <;> rfl

theorem Taken.mem_of_mem {t : TaskId} (h : Taken s n k s₁)
    (ht : t ∈ s₁.runQueue ++ s₁.runQueueLowPriority) :
    t ∈ s.runQueue ++ s.runQueueLowPriority := by
  rcases dequeue_some h.dequeued with ⟨rest, hq, rfl⟩ | ⟨hq, rest, hl, rfl⟩
  · rw [hq]
    exact List.mem_cons_of_mem n ht
  · rw [hq, List.nil_append] at *
    rw [hl]
    exact List.mem_cons_of_mem n ht

/-- A spent task is not the one that was just taken off a queue. -/
theorem Spent.ne_taken {l : CpuList} {t : TaskId} (h : Spent s l t)
    (ht : Taken s n k s₁) : t ≠ n := by
  rintro rfl
  obtain ⟨k', hk', hq⟩ := h.notQueued
  rw [← ht.task, ht.live] at hk'
  cases hk'
  exact hq ht.queued

/-- A turn that only took the task off its queue and let it yield. -/
theorem RoundInv.yielded (h : RoundInv cfg env s₀ s a evs)
    (ht : Taken s n k s₁) (hm : Moves s ∅ (s₁.yielded n k) ∅)
    (ho : Offers cfg env s₀ (s₁.yielded n k) a.availCpus
      a.availCpusLowPriority) :
    RoundInv cfg env s₀ (s₁.yielded n k) a (evs ++ [.dequeued n]) := by
  have htx : txns (evs ++ [.dequeued n]) = txns evs := by
    rw [txns_append]
    exact List.append_nil _
  refine ⟨h.moved.trans hm, ht.globalCpuid.trans h.global, ho,
    fun t hq => h.contender t (ht.mem_of_mem hq), ?_, htx ▸ h.targets,
    htx ▸ h.cpus, htx ▸ h.sound,
    Log.ok_append_singleton.mpr ⟨h.fromQueue, trivial⟩, htx ▸ h.used, ?_⟩
  · rw [show (s₁.yielded n k).log = s₁.log from rfl, ht.log, h.log,
      List.append_assoc]
  · rw [htx]
    intro x hx
    have hsp := h.spent x hx
    refine hsp.frame ?_ fun c hc => ⟨hc, congrFun ht.cpuStates c⟩
    exact (setTask_task_ne (hsp.ne_taken ht)).trans (congrFun ht.task x.target)

/-- A turn that opened a transaction. -/
theorem RoundInv.opened {x : Txn} (h : RoundInv cfg env s₀ s a evs)
    (ht : Taken s n k s₁) (hm : Moves s ∅ s' ∅)
    (ho : Offers cfg env s₀ s' a'.availCpus a'.availCpusLowPriority)
    (hconf : Confined x.cpu s₁ s') (hlog : s'.log = s₁.log ++ [.opened x])
    (hn : x.target = n) (hsound : TxnSound cfg env s₀ x)
    (hcpu : x.cpu ∈ a.availCpus ∨ x.cpu ∈ a.availCpusLowPriority)
    (hidle : ∀ c ∈ a'.availCpus, c ∈ a.availCpus ∧ c ≠ x.cpu)
    (hcand : ∀ c ∈ a'.availCpusLowPriority,
      c ∈ a.availCpusLowPriority ∧ c ≠ x.cpu)
    (htask : ∀ u, u ≠ n → Spent s a.availCpusLowPriority u →
      s'.task u = s₁.task u)
    (hspent : Spent s' a'.availCpusLowPriority n)
    (hcont : ∀ t ∈ s'.runQueue ++ s'.runQueueLowPriority,
      t ∈ s₁.runQueue ++ s₁.runQueueLowPriority ∨ Contender cfg s₀ t) :
    RoundInv cfg env s₀ s' a' (evs ++ [.dequeued n] ++ [.opened x]) := by
  have htx : txns (evs ++ [.dequeued n] ++ [.opened x]) = txns evs ++ [x] := by
    rw [txns_append, txns_append]
    exact congrArg (· ++ [x]) (List.append_nil _)
  have hfresh : ∀ y ∈ txns evs, y.target ≠ n := fun y hy =>
    (h.spent y hy).ne_taken ht
  have hfresh' : ∀ y ∈ txns evs, y.cpu ≠ x.cpu := by
    intro y hy hyx
    rcases hcpu with hc | hc
    · exact (h.used y hy).1 (hyx ▸ hc)
    · exact (h.used y hy).2 (hyx ▸ hc)
  refine ⟨h.moved.trans hm, ?_, ho, fun t hq => (hcont t hq).elim
    (fun hq => h.contender t (ht.mem_of_mem hq)) id, ?_, ?_, ?_, ?_, ?_, ?_, ?_⟩
  · rw [hconf.globalCpuid, ht.globalCpuid, h.global]
  · rw [hlog, ht.log, h.log]
    simp
  · rw [htx]
    exact nodup_map_concat h.targets (hn ▸ hfresh)
  · rw [htx]
    exact nodup_map_concat h.cpus hfresh'
  · rw [htx]
    exact forall_mem_concat h.sound hsound
  · refine Log.ok_append_singleton.mpr
      ⟨Log.ok_append_singleton.mpr ⟨h.fromQueue, trivial⟩, ?_⟩
    simp [FromQueue, hn]
  · rw [htx]
    refine forall_mem_concat (fun y hy => ?_)
      ⟨fun hc => (hidle _ hc).2 rfl, fun hc => (hcand _ hc).2 rfl⟩
    exact ⟨fun hc => (h.used y hy).1 (hidle _ hc).1,
      fun hc => (h.used y hy).2 (hcand _ hc).1⟩
  · rw [htx]
    refine forall_mem_concat (fun y hy => ?_) (hn ▸ hspent)
    have hsp := h.spent y hy
    refine hsp.frame ?_ fun c hc => ⟨(hcand c hc).1, ?_⟩
    · exact (htask _ (hfresh y hy) hsp).trans (congrFun ht.task y.target)
    · rw [hconf.cpuStates c (hcand c hc).2, ht.cpuStates]

/-- The part of `TxnSound` that both kinds of transactions get the same way. -/
theorem RoundInv.txnSound {c : CpuId} {batched : Bool} {l : CpuList}
    (h : RoundInv cfg env s₀ s a evs) (ht : Taken s n k s₁)
    (huse : Usable cfg env s₁ c) (hready : Ready env n k)
    (hpick : pickNextCpu cfg.topology l k cfg.enforceAffinityMask = some c)
    (hidle : batched = true → Idle cfg env s₁ c)
    (hevict : batched = false → ∃ p k, p ≠ n ∧ s₀.task p = .live k ∧
      (s₀.cpuStates c).next = some p ∧ (s₁.cpuStates c).current = some p) :
    TxnSound cfg env s₀ ⟨c, n, batched, s₁.cpuStates c, s₁.req c, k⟩ where
  record := by
    have hk : s.task n = .live k := ht.task ▸ ht.live
    obtain ⟨l, hl⟩ := (h.moved.live_iff n).mp ⟨k, hk⟩
    obtain ⟨k', hk', hfix⟩ := h.moved.live hl
    cases hk.symm.trans hk'
    exact ⟨l, hl, hfix⟩
  contender := h.contender n (dequeue_mem ht.dequeued)
  offCpu := hready.1
  barrier := hready.2
  mem := huse.mem
  available := huse.available
  notGlobal := by
    rw [← h.global, ← ht.globalCpuid]
    exact huse.notGlobal
  committed := by
    obtain ⟨st, hst⟩ := huse.committed
    simp only [hst]
    rfl
  idle := fun hb => ⟨(hidle hb).current, (hidle hb).next, (hidle hb).inSwitchto⟩
  evicts := hevict
  affinity := (pickNextCpu_mem hpick).2

theorem RoundInv.turn (hp : Placed s₀ ∅) (h : RoundInv cfg env s₀ s a evs)
    (ht : Taken s n k s₁) (has : AssignStep cfg env n k s₁ a s' a') :
    ∃ evs', RoundInv cfg env s₀ s' a' evs' := by
  have hm := has.moves ht
  have ho := AssignStep.offers ht has h.offers
  have ho₁ := ht.offers h.offers
  have hp' : Placed s' ∅ := hp.moves (h.moved.trans hm)
  cases has with
  | stale | unplaced => exact ⟨_, h.yielded ht hm ho⟩
  | @batched c hready hpick hnext hcur =>
      have hc := (pickNextCpu_mem hpick).1
      have hid := ho₁.idle c hc
      refine ⟨_, h.opened (x := ⟨c, n, true, s₁.cpuStates c, s₁.req c, k⟩) ht hm
        ho openBatched_confined rfl rfl
        (h.txnSound ht hid.toUsable hready hpick (fun _ => hid)
          fun hb => by cases hb) (Or.inl hc)
        (fun d hd => CpuList.mem_clear.mp hd)
        (fun d hd => ⟨hd, Ne.symm (ho₁.disjoint hc hd)⟩)
        (fun u hu _ => setTask_task_ne hu) ?_ fun _ => Or.inl⟩
      exact hp'.spent (setTask_task_self _ n _) (by simp [NetTask.submitted])
        (fun hon => by simp [NetTask.submitted] at hon)
  | @replaced c p kp _ hready hidle hpick hrep =>
      have hc := (pickNextCpu_mem hpick).1
      have hcand := ho₁.candidate c hc
      have hpn : p ≠ n := by
        rintro rfl
        cases hrep.live.symm.trans ht.live
        cases hrep.onCpu.symm.trans ht.queued
      obtain ⟨kp₀, hkp₀⟩ :=
        (h.moved.live_iff p).mp ⟨kp, congrFun ht.task p ▸ hrep.live⟩
      obtain ⟨p', hnext, hcur⟩ := hcand.reaped
      cases hcur.symm.trans hrep.current
      refine ⟨_,
        h.opened (x := ⟨c, n, false, s₁.cpuStates c, s₁.req c, k⟩) ht hm
        ho hrep.confined hrep.log rfl
        (h.txnSound ht hcand.toUsable hready hpick (fun hb => by cases hb)
          fun _ => ⟨p, kp₀, hpn, hkp₀, hnext, hcur⟩) (Or.inr hc)
        (fun d hd => ⟨hd, ho₁.disjoint hd hc⟩)
        (fun d hd => CpuList.mem_clear.mp hd) (fun u hu hsp => ?_) ?_
        fun t hq => ?_⟩
      · refine hrep.task_other hu fun hup => ?_
        have hcur : (s.cpuStates c).current = some p :=
          ht.cpuStates ▸ hrep.current
        exact hsp.notCandidate c hc (hup ▸ hcur)
      · exact hrep.spent hp'
      · rcases hrep.mem_queue hq with rfl | hq
        · exact Or.inr (Or.inr ⟨c, hcand.mem, hnext⟩)
        · exact Or.inl hq

end Turn

/-! ## The phases around the loop -/

/-- The scan writes nothing to the log but what it reaped. -/
theorem Settled.log {c : CpuId} {s s' : NetScheduler} (h : Settled c s s') :
    ∃ evs, s'.log = s.log ++ evs ∧ ∀ e ∈ evs, ∃ t st, e = .reaped c t st := by
  rcases h with ⟨-, hpoll, -⟩ | ⟨b, t, k, st, -, -, -, hcase⟩
  · exact ⟨[], by rw [hpoll.eq]; simp, by simp⟩
  · refine ⟨[.reaped c t st], ?_, by simp⟩
    rcases hcase with ⟨rfl, -, rfl⟩ | ⟨-, -, rfl⟩ <;> rfl

theorem scanCpus_log {env : RoundEnv} {cs : List CpuId} {a a' : Scan}
    {s s' : NetScheduler} (h : scanCpus env cs a s = .ok (a', s')) :
    ∃ evs, s'.log = s.log ++ evs ∧ ∀ e ∈ evs, ∃ c t st, e = .reaped c t st := by
  refine scanCpus_invariant (I := fun s' => ∃ evs, s'.log = s.log ++ evs ∧
    ∀ e ∈ evs, ∃ c t st, e = .reaped c t st) ?_ ⟨[], by simp, by simp⟩ h
  rintro c - s₁ a₁ s₂ a₂ ⟨evs, hlog, hevs⟩ hstep
  rcases hstep.same_or_settled with rfl | hset
  · exact ⟨evs, hlog, hevs⟩
  · obtain ⟨evs', hlog', hevs'⟩ := hset.log
    refine ⟨evs ++ evs', by rw [hlog', hlog, List.append_assoc], fun e he => ?_⟩
    rcases List.mem_append.mp he with he | he
    · exact hevs e he
    · exact ⟨c, hevs' e he⟩

theorem Settled.contender {c : CpuId} {s s' : NetScheduler} {t : TaskId}
    (h : Settled c s s') (ht : t ∈ s'.runQueue ++ s'.runQueueLowPriority) :
    t ∈ s.runQueue ++ s.runQueueLowPriority ∨
    (s.cpuStates c).next = some t := by
  rcases h with ⟨-, hpoll, -⟩ | ⟨b, u, k, st, hn, -, -, hcase⟩
  · rw [hpoll.eq] at ht
    exact Or.inl ht
  · rcases hcase with ⟨-, -, rfl⟩ | ⟨-, -, rfl⟩
    · exact Or.inl ht
    · rcases mem_push.mp ht with rfl | ht
      · exact Or.inr hn
      · exact Or.inl ht

/-- The scan visits every CPU once, so the tasks whose transactions it finds
failed were pending when the round began. -/
theorem scanCpus_contender {cfg : Config} {env : RoundEnv} {cs : List CpuId}
    {a a' : Scan} {s₀ s s' : NetScheduler} {t : TaskId}
    (h : scanCpus env cs a s = .ok (a', s')) (hnodup : cs.Nodup)
    (hsub : ∀ c ∈ cs, c ∈ cfg.cpus)
    (hs₀ : ∀ c ∈ cs, s.cpuStates c = s₀.cpuStates c)
    (hq : ∀ t ∈ s.runQueue ++ s.runQueueLowPriority, Contender cfg s₀ t)
    (ht : t ∈ s'.runQueue ++ s'.runQueueLowPriority) : Contender cfg s₀ t := by
  induction cs generalizing a s with
  | nil =>
      cases Checked.pure_ok.mp h
      exact hq t ht
  | cons c cs ih =>
      obtain ⟨a₁, s₁, hhere, h⟩ := Checked.bind_ok.mp h
      obtain ⟨hc, hnodup⟩ := List.nodup_cons.mp hnodup
      have hstep := scanCpu_cases hhere
      refine ih h hnodup (fun d hd => hsub d (List.mem_cons_of_mem c hd))
        (fun d hd => ?_) fun u hu => ?_
      · have hdc : d ≠ c := fun heq => hc (heq ▸ hd)
        rw [hstep.confined.cpuStates d hdc]
        exact hs₀ d (List.mem_cons_of_mem c hd)
      · rcases hstep.same_or_settled with rfl | hset
        · exact hq u hu
        · rcases hset.contender hu with hu | hn
          · exact hq u hu
          · rw [hs₀ c List.mem_cons_self] at hn
            exact Or.inr ⟨c, hsub c List.mem_cons_self, hn⟩

theorem scanCpus_globalCpuid {env : RoundEnv} {cs : List CpuId} {a a' : Scan}
    {s s' : NetScheduler} (h : scanCpus env cs a s = .ok (a', s')) :
    s'.globalCpuid = s.globalCpuid :=
  scanCpus_invariant (I := fun s₁ => s₁.globalCpuid = s.globalCpuid)
    (fun _ _ _ _ _ _ hg hstep => hstep.confined.globalCpuid.trans hg) rfl h

theorem requeue_log {ts : List TaskId} {s s' : NetScheduler} {u : Unit}
    (h : requeue ts s = .ok (u, s')) : s'.log = s.log := by
  induction ts generalizing s with
  | nil =>
      cases Checked.pure_ok.mp h
      rfl
  | cons t ts ih =>
      obtain ⟨k, hk, h⟩ := bind_deref.mp h
      obtain ⟨-, h⟩ := bind_check.mp h
      rw [Checked.bind_eq (enqueue_eq hk)] at h
      have hlog := ih h
      exact hlog

theorem txns_eq_nil {evs : List Event} (h : ∀ x, .opened x ∉ evs) :
    txns evs = [] := by
  refine List.filterMap_eq_nil_iff.mpr fun e he => ?_
  cases e with
  | opened x => exact absurd he (h x)
  | dequeued | submitted | reaped | unscheduled | pinged => rfl

/-- The invariant at the end of the loop. -/
theorem Round.inv {cfg : Config} {env : RoundEnv} {scan : Scan} {a : Assign}
    {s s₁ s₂ s₃ s₄ s' : NetScheduler}
    (h : Round cfg env s scan s₁ a s₂ s₃ s₄ s') (hp : Placed s ∅) :
    ∃ evs, RoundInv cfg env s s₂ a evs := by
  have hm := h.moves_scan hp
  obtain ⟨evs, hlog, hevs⟩ := scanCpus_log h.scanned
  have htx : txns evs = [] := txns_eq_nil fun x hx => by
    obtain ⟨c, t, st, he⟩ := hevs _ hx
    cases he
  have hok : Log.Ok FromQueue ([] ++ evs) := Log.ok_nil.append fun e he _ => by
    obtain ⟨c, t, st, rfl⟩ := hevs e he
    trivial
  refine assignLoop_invariant
    (I := fun s₂ a => ∃ evs, RoundInv cfg env s s₂ a evs)
    ?_ (hp.moves hm) ⟨evs, ?_⟩ h.assigned
  · rintro s₂ a n k s₃ s₄ a' - ⟨evs, hinv⟩ ht has
    exact hinv.turn hp ht has
  · exact ⟨hm, scanCpus_globalCpuid h.scanned, scan_offers h.scanned,
      fun t ht => scanCpus_contender h.scanned cfg.cpus.nodup (fun _ hc => hc)
        (fun _ _ => rfl) (fun _ => Or.inl) ht, hlog,
      by simp [htx], by simp [htx], by simp [htx], hok, by simp [htx],
      by simp [htx]⟩

/-- After the loop a round writes at most that it submitted. -/
theorem Round.log_submitted {cfg : Config} {env : RoundEnv} {scan : Scan}
    {a : Assign} {s s₁ s₂ s₃ s₄ s' : NetScheduler}
    (h : Round cfg env s scan s₁ a s₂ s₃ s₄ s') :
    ∃ evs, s'.log = s₂.log ++ evs ∧
      ∀ e ∈ evs, e = .submitted a.assignedCpus := by
  have hlog : s'.log = s₃.log := by
    have hreq := requeue_log h.requeued
    rw [h.finished]
    exact hreq
  rcases h.submitted with rfl | rfl
  · exact ⟨[], by rw [hlog, List.append_nil], by simp⟩
  · exact ⟨[.submitted a.assignedCpus], hlog, by simp⟩

/-- What a round adds to the log, and what is true of it. -/
theorem globalSchedule_events {cfg : Config} {env : RoundEnv}
    {s s' : NetScheduler} (hp : Placed s ∅)
    (h : globalSchedule cfg env s = .ok ((), s')) :
    ∃ evs, s'.log = s.log ++ evs ∧
      ((txns evs).map Txn.target).Nodup ∧ ((txns evs).map Txn.cpu).Nodup ∧
      (∀ x ∈ txns evs, TxnSound cfg env s x) ∧ Log.Ok FromQueue evs := by
  obtain ⟨scan, s₁, a, s₂, s₃, s₄, hround⟩ := globalSchedule_round h
  obtain ⟨evs, hinv⟩ := hround.inv hp
  obtain ⟨evs', hlog', hevs'⟩ := hround.log_submitted
  have hnone : txns evs' = [] := txns_eq_nil fun x hx => by cases hevs' _ hx
  have htx : txns (evs ++ evs') = txns evs := by
    rw [txns_append, hnone, List.append_nil]
  have hok : Log.Ok FromQueue (evs ++ evs') :=
    hinv.fromQueue.append fun e he _ => by
      cases hevs' e he
      trivial
  exact ⟨evs ++ evs', by rw [hlog', hinv.log, List.append_assoc],
    htx ▸ hinv.targets, htx ▸ hinv.cpus, htx ▸ hinv.sound, hok⟩

/-- The transactions of a round use no task and no CPU twice, and each of
them is sound: its target was just taken off a run queue, was off its CPU and
had seen all its messages, and its CPU was one the round may use. -/
theorem globalSchedule_sound {cfg : Config} {env : RoundEnv}
    {s s' : NetScheduler} (hr : Reachable cfg s)
    (h : globalSchedule cfg env s = .ok ((), s')) :
    ∃ evs, s'.log = s.log ++ evs ∧
      ((txns evs).map Txn.target).Nodup ∧ ((txns evs).map Txn.cpu).Nodup ∧
      (∀ x ∈ txns evs, TxnSound cfg env s x) ∧ Log.Ok FromQueue evs :=
  globalSchedule_events (sound_of_reachable hr).placed h

/-- A round that reaps one task and replaces it at once by another. -/
theorem globalSchedule_sound_two :
    ∃ s s' evs, CleanReachable twoCpus s ∧
      globalSchedule twoCpus calmRound s = .ok ((), s') ∧
      s'.log = s.log ++ evs ∧
      (txns evs).map (fun x => (x.target, x.cpu, x.batched)) = [(1, 1, false)] ∧
      ((txns evs).map Txn.target).Nodup ∧
      ∀ x ∈ txns evs, TxnSound twoCpus calmRound s x := by
  have hrun : ∃ s s' evs, performAll twoCpus
      [newTask 0 false true "app", .globalSchedule calmRound,
        newTask 1 true true "EngineThread/0"] twoCpusStart = .ok ((), s) ∧
      globalSchedule twoCpus calmRound s = .ok ((), s') ∧
      s'.log = s.log ++ evs ∧
      (txns evs).map (fun x => (x.target, x.cpu, x.batched)) =
        [(1, 1, false)] :=
    ⟨_, _, [_, _, _], rfl, rfl, rfl, rfl⟩
  obtain ⟨s, s', evs, hrun, hround, hlog, htx⟩ := hrun
  have hreach : CleanReachable twoCpus s :=
    reach_performAll (.init twoCpusStart_init)
      (by simp [newTask, departsBlocked]) hrun
  obtain ⟨evs', hlog', htargets, -, hsound, -⟩ :=
    globalSchedule_sound hreach.reachable hround
  cases List.append_cancel_left (hlog.symm.trans hlog')
  exact ⟨s, s', evs, hreach, hround, hlog, htx, htargets, hsound⟩

end GhostDataplane.Agent
