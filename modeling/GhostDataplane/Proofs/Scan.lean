import GhostDataplane.Proofs.Replace

/-!
# The scan of the CPUs

One step of the scan polls the request of its CPU, reaps it if it has
committed, and classifies the CPU. `ScanStep` lists what such a step can do
and `Confined` says that it does it to no other CPU, so what the scan has
found out about a CPU still holds when it comes to its end.
-/

namespace GhostDataplane.Agent

open GhostDataplane.Lib

/-- `c` was synced, with its request committed. -/
def Settled (c : CpuId) (s s' : NetScheduler) : Prop :=
  ((s.cpuStates c).next = none ∧ Polled c s s' ∧
    ∃ st, s'.req c = .committed st) ∨ ∃ b, Reaped c s s' b

theorem Polled.trans {c : CpuId} {s s₁ s' : NetScheduler}
    (h : Polled c s s₁) (h' : Polled c s₁ s') : Polled c s s' := by
  rcases h' with rfl | ⟨st', hf, rfl⟩
  · exact h
  · rcases h with rfl | ⟨st, hf', rfl⟩
    · exact Or.inr ⟨st', hf, rfl⟩
    · exact Or.inr ⟨st', hf', setReq_setReq⟩

theorem reap_setReq {s : NetScheduler} {c : CpuId} {t : TaskId}
    {st : TxnState} {r : RunRequest} :
    (s.setReq c r).reap c t st = s.reap c t st := by
  simp [NetScheduler.reap, NetScheduler.setReq, NetScheduler.setNext,
    NetScheduler.setCpu]

/-- Polling first what is then reaped changes nothing. -/
theorem Reaped.of_polled {c : CpuId} {s s₁ s' : NetScheduler} {b : Bool}
    (hpoll : Polled c s s₁) (h : Reaped c s₁ s' b) : Reaped c s s' b := by
  rcases hpoll with rfl | ⟨st', hf, rfl⟩
  · exact h
  · obtain ⟨t, k, st, hn, hk, hr, hcase⟩ := h
    refine ⟨t, k, st, hn, hk, Or.inl hf, ?_⟩
    rcases hcase with ⟨rfl, hb, rfl⟩ | ⟨hne, hb, rfl⟩
    · exact Or.inl ⟨rfl, hb, by rw [reapedOk, reap_setReq, reapedOk]⟩
    · exact Or.inr ⟨hne, hb, by rw [reapedFail, reap_setReq, reapedFail]⟩

theorem Settled.of_polled {c : CpuId} {s s₁ s' : NetScheduler}
    (hpoll : Polled c s s₁) (h : Settled c s₁ s') : Settled c s s' := by
  rcases h with ⟨hn, hpoll', hst⟩ | ⟨b, hreap⟩
  · rw [hpoll.eq] at hn
    exact Or.inl ⟨hn, hpoll.trans hpoll', hst⟩
  · exact Or.inr ⟨b, hreap.of_polled hpoll⟩

theorem settled_of {c : CpuId} {answer : Option TxnState}
    {s s₁ s' : NetScheduler} {b : Bool}
    (hcom : committed c answer s = .ok (true, s₁))
    (hsync : syncCpuState (some c) answer s₁ = .ok (b, s')) :
    Settled c s s' := by
  obtain ⟨hpoll, hreq, -⟩ := committed_ok hcom
  refine Settled.of_polled hpoll ?_
  rcases syncCpuState_cases hsync with ⟨hn, -, rfl⟩ | hreap
  · exact Or.inl ⟨hn, Or.inl rfl, hreq rfl⟩
  · exact Or.inr ⟨b, hreap⟩

/-- Nothing about any CPU but `c` changed. -/
structure Confined (c : CpuId) (s s' : NetScheduler) : Prop where
  cpuStates : ∀ d, d ≠ c → s'.cpuStates d = s.cpuStates d
  req : ∀ d, d ≠ c → s'.req d = s.req d
  inSwitchto : (s'.cpuStates c).inSwitchto = (s.cpuStates c).inSwitchto
  globalCpuid : s'.globalCpuid = s.globalCpuid
  globalHomeCpu : s'.globalHomeCpu = s.globalHomeCpu

theorem Confined.refl {c : CpuId} {s : NetScheduler} : Confined c s s :=
  ⟨fun _ _ => rfl, fun _ _ => rfl, rfl, rfl, rfl⟩

theorem Polled.confined {c : CpuId} {s s' : NetScheduler}
    (h : Polled c s s') : Confined c s s' := by
  rcases h with rfl | ⟨st, -, rfl⟩
  · exact .refl
  · exact ⟨fun _ _ => rfl, fun d hd => Function.update_of_ne hd _ _, rfl, rfl,
      rfl⟩

theorem Reaped.confined {c : CpuId} {s s' : NetScheduler} {b : Bool}
    (h : Reaped c s s' b) : Confined c s s' := by
  obtain ⟨t, k, st, -, -, -, ⟨-, -, rfl⟩ | ⟨-, -, rfl⟩⟩ := h
  · refine ⟨fun d hd => (setCpu_ne hd).trans (setCpu_ne hd),
      fun d hd => Function.update_of_ne hd _ _, ?_, rfl, rfl⟩
    simp [reapedOk, NetScheduler.setCurrent, NetScheduler.reap,
      NetScheduler.setNext, NetScheduler.setTask]
  · refine ⟨fun d hd => setCpu_ne hd,
      fun d hd => Function.update_of_ne hd _ _, ?_, rfl, rfl⟩
    simp [reapedFail, NetScheduler.push, NetScheduler.reap,
      NetScheduler.setNext, NetScheduler.setTask]

theorem Reaped.next {c : CpuId} {s s' : NetScheduler} {b : Bool}
    (h : Reaped c s s' b) : (s'.cpuStates c).next = none := by
  obtain ⟨t, k, st, -, -, -, ⟨-, -, rfl⟩ | ⟨-, -, rfl⟩⟩ := h
  · simp [reapedOk, NetScheduler.setCurrent, NetScheduler.reap,
      NetScheduler.setNext, NetScheduler.setTask]
  · simp [reapedFail, NetScheduler.push, NetScheduler.reap,
      NetScheduler.setNext, NetScheduler.setTask]

theorem Reaped.committed {c : CpuId} {s s' : NetScheduler} {b : Bool}
    (h : Reaped c s s' b) : ∃ st, s'.req c = .committed st := by
  obtain ⟨t, k, st, -, -, -, ⟨rfl, -, rfl⟩ | ⟨-, -, rfl⟩⟩ := h
  · exact ⟨.complete, Function.update_self c _ _⟩
  · exact ⟨st, Function.update_self c _ _⟩

section Settled

variable {c : CpuId} {s s' : NetScheduler}

theorem Settled.confined (h : Settled c s s') : Confined c s s' := by
  rcases h with ⟨-, hpoll, -⟩ | ⟨b, hreap⟩
  · exact hpoll.confined
  · exact hreap.confined

theorem Settled.next (h : Settled c s s') : (s'.cpuStates c).next = none := by
  rcases h with ⟨hn, hpoll, -⟩ | ⟨b, hreap⟩
  · rw [hpoll.eq]
    exact hn
  · exact hreap.next

theorem Settled.committed (h : Settled c s s') :
    ∃ st, s'.req c = .committed st := by
  rcases h with ⟨-, -, hst⟩ | ⟨b, hreap⟩
  · exact hst
  · exact hreap.committed

theorem Settled.moves {H : Set TaskId} (hp : Placed s H)
    (h : Settled c s s') : Moves s H s' H := by
  rcases h with ⟨hn, hpoll, -⟩ | ⟨b, hreap⟩
  · exact hpoll.moves hn
  · exact hreap.moves hp

end Settled

/-- What the classification makes of a CPU that was just settled. -/
def Classified (env : RoundEnv) (c : CpuId) (s : NetScheduler) (a a' : Scan) :
    Prop :=
  ((s.cpuStates c).current = none ∧ (s.cpuStates c).inSwitchto = true ∧
    a' = a) ∨
  ((s.cpuStates c).current = none ∧ (s.cpuStates c).inSwitchto = false ∧
    a' = { a with availCpus := a.availCpus.set c }) ∨
  ∃ t k, (s.cpuStates c).current = some t ∧ s.task t = .live k ∧
    ((preemptable env c t k = true ∧
        a' = { a with availCpusLowPriority := a.availCpusLowPriority.set c }) ∨
      (preemptable env c t k = false ∧ a' = a))

theorem classify_ok {env : RoundEnv} {c : CpuId} {a a' : Scan}
    {s s' : NetScheduler} (h : classify env c a s = .ok (a', s')) :
    s' = s ∧ Classified env c s a a' := by
  simp only [classify, Checked.bind_get] at h
  cases hcur : (s.cpuStates c).current with
  | none =>
      simp only [hcur] at h
      split at h
      · next hsw =>
          cases Checked.pure_ok.mp h
          exact ⟨rfl, Or.inl ⟨hcur, hsw, rfl⟩⟩
      · next hsw =>
          cases Checked.pure_ok.mp h
          exact ⟨rfl, Or.inr (Or.inl ⟨hcur, by simpa using hsw, rfl⟩)⟩
  | some t =>
      simp only [hcur] at h
      obtain ⟨k, hk, h⟩ := bind_deref.mp h
      split at h
      · next hpre =>
          cases Checked.pure_ok.mp h
          exact ⟨rfl, Or.inr (Or.inr ⟨t, k, hcur, hk, Or.inl ⟨hpre, rfl⟩⟩)⟩
      · next hpre =>
          cases Checked.pure_ok.mp h
          exact ⟨rfl, Or.inr (Or.inr ⟨t, k, hcur, hk,
            Or.inr ⟨by simpa using hpre, rfl⟩⟩)⟩

/-- All that one step of the scan can do. -/
inductive ScanStep (env : RoundEnv) (c : CpuId) (s : NetScheduler) (a : Scan) :
    NetScheduler → Scan → Prop where
  | lost (hav : env.available c = false) :
      ScanStep env c s a s { a with unavail := a.unavail + 1 }
  | reclaimed {s' : NetScheduler} (hav : env.available c = false)
      (hset : Settled c s s') :
      ScanStep env c s a s' { a with unavail := a.unavail + 1 }
  | skipped (hbusy : c = s.globalCpuid ∨ (s.cpuStates c).current.isSome) :
      ScanStep env c s a s a
  | inFlight (hreq : s.req c = .inFlight) : ScanStep env c s a s a
  | settled {s' : NetScheduler} {a' : Scan} (hav : env.available c = true)
      (hglobal : c ≠ s.globalCpuid) (hcur : (s.cpuStates c).current = none)
      (hset : Settled c s s') (hclass : Classified env c s' a a') :
      ScanStep env c s a s' a'

theorem scanCpu_cases {env : RoundEnv} {c : CpuId} {a a' : Scan}
    {s s' : NetScheduler} (h : scanCpu env c a s = .ok (a', s')) :
    ScanStep env c s a s' a' := by
  simp only [scanCpu, Checked.bind_get] at h
  cases hav : env.available c with
  | false =>
      simp only [hav, Bool.not_false, if_true] at h
      obtain ⟨_, s₁, hreap, h⟩ := Checked.bind_ok.mp h
      cases Checked.pure_ok.mp h
      split at hreap
      · obtain ⟨done, s₂, hcom, hreap⟩ := Checked.bind_ok.mp hreap
        cases done with
        | true =>
            obtain ⟨b, s₃, hsync, hreap⟩ := Checked.bind_ok.mp hreap
            cases Checked.pure_ok.mp hreap
            exact .reclaimed hav (settled_of hcom hsync)
        | false =>
            cases Checked.pure_ok.mp hreap
            cases ((committed_ok hcom).2.2 rfl).1
            exact .lost hav
      · cases Checked.pure_ok.mp hreap
        exact .lost hav
  | true =>
      simp only [hav, Bool.not_true, Bool.false_eq_true, if_false] at h
      split at h
      · next hbusy =>
          cases Checked.pure_ok.mp h
          exact .skipped (by simpa using hbusy)
      · next hbusy =>
          simp only [Bool.or_eq_true, decide_eq_true_eq, not_or,
            Option.not_isSome_iff_eq_none] at hbusy
          obtain ⟨done, s₁, hcom, h⟩ := Checked.bind_ok.mp h
          cases done with
          | true =>
              obtain ⟨b, s₂, hsync, h⟩ := Checked.bind_ok.mp h
              obtain ⟨rfl, hclass⟩ := classify_ok h
              exact .settled hav hbusy.1 hbusy.2 (settled_of hcom hsync) hclass
          | false =>
              cases Checked.pure_ok.mp h
              obtain ⟨rfl, hreq⟩ := (committed_ok hcom).2.2 rfl
              exact .inFlight hreq

/-- A step either leaves the tables alone or settles its CPU. -/
theorem ScanStep.same_or_settled {env : RoundEnv} {c : CpuId} {a a' : Scan}
    {s s' : NetScheduler} (h : ScanStep env c s a s' a') :
    s' = s ∨ Settled c s s' := by
  cases h with
  | lost | skipped | inFlight => exact Or.inl rfl
  | reclaimed _ hset | settled _ _ _ hset _ => exact Or.inr hset

theorem ScanStep.moves {env : RoundEnv} {c : CpuId} {a a' : Scan}
    {s s' : NetScheduler} {H : Set TaskId} (hp : Placed s H)
    (h : ScanStep env c s a s' a') : Moves s H s' H := by
  rcases h.same_or_settled with rfl | hset
  · exact .refl
  · exact hset.moves hp

theorem ScanStep.confined {env : RoundEnv} {c : CpuId} {a a' : Scan}
    {s s' : NetScheduler} (h : ScanStep env c s a s' a') : Confined c s s' := by
  rcases h.same_or_settled with rfl | hset
  · exact .refl
  · exact hset.confined

/-- The scan's invariant rule: what survives every step survives the scan. -/
theorem scanCpus_invariant {env : RoundEnv} {I : NetScheduler → Prop}
    {cs : List CpuId}
    (hstep : ∀ c ∈ cs, ∀ s a s' a', I s → ScanStep env c s a s' a' → I s')
    {a a' : Scan} {s s' : NetScheduler} (hi : I s)
    (h : scanCpus env cs a s = .ok (a', s')) : I s' := by
  induction cs generalizing a s with
  | nil =>
      cases Checked.pure_ok.mp h
      exact hi
  | cons c cs ih =>
      obtain ⟨a₁, s₁, hhere, h⟩ := Checked.bind_ok.mp h
      exact ih (fun d hd => hstep d (List.mem_cons_of_mem c hd))
        (hstep c List.mem_cons_self s a s₁ a₁ hi (scanCpu_cases hhere)) h

/-- What the visit of `c` establishes and later visits keep holds in the end,
if the visits before it keep what it needs. -/
theorem scanCpus_visit {env : RoundEnv} {c : CpuId} {P : NetScheduler → Prop}
    {Q : NetScheduler → Scan → Prop}
    (hbefore : ∀ d s a s' a', c ≠ d → P s → ScanStep env d s a s' a' → P s')
    (hvisit : ∀ s a s' a', P s → scanCpu env c a s = .ok (a', s') → Q s' a')
    (hafter : ∀ d s a s' a', Q s a → ScanStep env d s a s' a' → Q s' a')
    {cs : List CpuId} {a a' : Scan} {s s' : NetScheduler} (hc : c ∈ cs)
    (hp : P s) (h : scanCpus env cs a s = .ok (a', s')) : Q s' a' := by
  have hkeep : ∀ cs (a a' : Scan) s s', Q s a →
      scanCpus env cs a s = .ok (a', s') → Q s' a' := by
    intro cs
    induction cs with
    | nil =>
        intro a a' s s' hq h
        cases Checked.pure_ok.mp h
        exact hq
    | cons d cs ih =>
        intro a a' s s' hq h
        obtain ⟨a₁, s₁, hhere, h⟩ := Checked.bind_ok.mp h
        exact ih a₁ a' s₁ s' (hafter d s a s₁ a₁ hq (scanCpu_cases hhere)) h
  induction cs generalizing a s with
  | nil => cases hc
  | cons d cs ih =>
      rw [scanCpus, Checked.bind_ok] at h
      obtain ⟨a₁, s₁, hhere, h⟩ := h
      by_cases hcd : c = d
      · subst hcd
        exact hkeep cs a₁ a' s₁ s' (hvisit s a s₁ a₁ hp hhere) h
      · exact ih ((List.mem_cons.mp hc).resolve_left hcd)
          (hbefore d s a s₁ a₁ hcd hp (scanCpu_cases hhere)) h

theorem scanCpus_moves {env : RoundEnv} {cs : List CpuId} {a a' : Scan}
    {s s' : NetScheduler} {H : Set TaskId} (hp : Placed s H)
    (h : scanCpus env cs a s = .ok (a', s')) : Moves s H s' H :=
  scanCpus_invariant (I := fun s₁ => Moves s H s₁ H)
    (fun _ _ _ _ _ _ hm hst => hm.trans (hst.moves (hp.moves hm))) .refl h

/-! ## What the scan has found out -/

/-- A CPU that the round may put a task on. -/
structure Usable (cfg : Config) (env : RoundEnv) (s : NetScheduler)
    (c : CpuId) : Prop where
  mem : c ∈ cfg.cpus
  available : env.available c = true
  notGlobal : c ≠ s.globalCpuid
  committed : ∃ st, s.req c = .committed st
  next : (s.cpuStates c).next = none

/-- A usable CPU with nothing on it. -/
structure Idle (cfg : Config) (env : RoundEnv) (s : NetScheduler)
    (c : CpuId) : Prop extends Usable cfg env s c where
  current : (s.cpuStates c).current = none
  inSwitchto : (s.cpuStates c).inSwitchto = false

/-- A usable CPU whose task the scan itself made current: it was next on the
CPU when the round began, in `s₀`. -/
structure Candidate (cfg : Config) (env : RoundEnv) (s₀ s : NetScheduler)
    (c : CpuId) : Prop extends Usable cfg env s c where
  reaped : ∃ t, (s₀.cpuStates c).next = some t ∧
    (s.cpuStates c).current = some t

theorem Usable.confined {cfg : Config} {env : RoundEnv} {s s' : NetScheduler}
    {c d : CpuId} (h : Usable cfg env s c) (hne : c ≠ d)
    (hf : Confined d s s') : Usable cfg env s' c where
  mem := h.mem
  available := h.available
  notGlobal := by rw [hf.globalCpuid]; exact h.notGlobal
  committed := by rw [hf.req c hne]; exact h.committed
  next := by rw [hf.cpuStates c hne]; exact h.next

theorem Idle.confined {cfg : Config} {env : RoundEnv} {s s' : NetScheduler}
    {c d : CpuId} (h : Idle cfg env s c) (hne : c ≠ d)
    (hf : Confined d s s') : Idle cfg env s' c where
  toUsable := h.toUsable.confined hne hf
  current := by rw [hf.cpuStates c hne]; exact h.current
  inSwitchto := by rw [hf.cpuStates c hne]; exact h.inSwitchto

theorem Candidate.confined {cfg : Config} {env : RoundEnv}
    {s₀ s s' : NetScheduler} {c d : CpuId} (h : Candidate cfg env s₀ s c)
    (hne : c ≠ d) (hf : Confined d s s') : Candidate cfg env s₀ s' c where
  toUsable := h.toUsable.confined hne hf
  reaped := by rw [hf.cpuStates c hne]; exact h.reaped

/-- The two sets of CPUs that a round works with. -/
structure Offers (cfg : Config) (env : RoundEnv) (s₀ s : NetScheduler)
    (availCpus availCpusLowPriority : CpuList) : Prop where
  idle : ∀ c ∈ availCpus, Idle cfg env s c
  candidate : ∀ c ∈ availCpusLowPriority, Candidate cfg env s₀ s c

theorem Offers.disjoint {cfg : Config} {env : RoundEnv} {s₀ s : NetScheduler}
    {l l' : CpuList} {c d : CpuId} (h : Offers cfg env s₀ s l l') (hc : c ∈ l)
    (hd : d ∈ l') : c ≠ d := by
  rintro rfl
  obtain ⟨t, -, hcur⟩ := (h.candidate c hd).reaped
  rw [(h.idle c hc).current] at hcur
  cases hcur

/-- A change that is to no CPU. -/
theorem Offers.congr {cfg : Config} {env : RoundEnv} {s₀ s s' : NetScheduler}
    {l l' : CpuList} (h : Offers cfg env s₀ s l l')
    (hcpu : s'.cpuStates = s.cpuStates) (hreq : s'.req = s.req)
    (hglobal : s'.globalCpuid = s.globalCpuid) : Offers cfg env s₀ s' l l' := by
  have huse : ∀ c, Usable cfg env s c → Usable cfg env s' c := fun c hu =>
    ⟨hu.mem, hu.available, hglobal ▸ hu.notGlobal, hreq ▸ hu.committed,
      hcpu ▸ hu.next⟩
  exact ⟨fun c hc =>
    ⟨huse c (h.idle c hc).toUsable, hcpu ▸ (h.idle c hc).current,
      hcpu ▸ (h.idle c hc).inSwitchto⟩,
    fun c hc => ⟨huse c (h.candidate c hc).toUsable,
      hcpu ▸ (h.candidate c hc).reaped⟩⟩

/-- A change confined to a CPU that is offered no more. -/
theorem Offers.confined {cfg : Config} {env : RoundEnv}
    {s₀ s s' : NetScheduler} {l l' m m' : CpuList} {d : CpuId}
    (h : Offers cfg env s₀ s l l') (hf : Confined d s s')
    (hm : ∀ c ∈ m, c ∈ l ∧ c ≠ d) (hm' : ∀ c ∈ m', c ∈ l' ∧ c ≠ d) :
    Offers cfg env s₀ s' m m' :=
  ⟨fun c hc => (h.idle c (hm c hc).1).confined (hm c hc).2 hf,
    fun c hc => (h.candidate c (hm' c hc).1).confined (hm' c hc).2 hf⟩

/-- A CPU that was settled without a task and has one now got it from its own
transaction. -/
theorem Settled.reaped {c : CpuId} {s s' : NetScheduler} {t : TaskId}
    (h : Settled c s s') (hcur : (s.cpuStates c).current = none)
    (hcur' : (s'.cpuStates c).current = some t) :
    (s.cpuStates c).next = some t := by
  rcases h with ⟨-, hpoll, -⟩ | ⟨b, t', k, st, hn, -, -, hcase⟩
  · rw [hpoll.eq, hcur] at hcur'
    cases hcur'
  · rcases hcase with ⟨-, -, rfl⟩ | ⟨-, -, rfl⟩
    · rw [reapedOk_current] at hcur'
      cases hcur'
      exact hn
    · rw [reapedFail_current, hcur] at hcur'
      cases hcur'

theorem ScanStep.offers {cfg : Config} {env : RoundEnv} {c : CpuId}
    {a a' : Scan} {s₀ s s' : NetScheduler} (h : ScanStep env c s a s' a')
    (ho : Offers cfg env s₀ s a.availCpus a.availCpusLowPriority)
    (hc : c ∈ cfg.cpus) (hnew : c ∉ a.availCpus)
    (hnew' : c ∉ a.availCpusLowPriority)
    (hs₀ : s.cpuStates c = s₀.cpuStates c) :
    Offers cfg env s₀ s' a'.availCpus a'.availCpusLowPriority := by
  have hkeep : Offers cfg env s₀ s' a.availCpus a.availCpusLowPriority :=
    ho.confined h.confined
      (fun d hd => ⟨hd, fun hdc => hnew (hdc ▸ hd)⟩)
      (fun d hd => ⟨hd, fun hdc => hnew' (hdc ▸ hd)⟩)
  cases h with
  | lost | reclaimed | skipped | inFlight => exact hkeep
  | settled hav hglobal hcur hset hclass =>
      have huse : Usable cfg env s' c :=
        ⟨hc, hav, by rw [hset.confined.globalCpuid]; exact hglobal,
          hset.committed, hset.next⟩
      rcases hclass with ⟨-, -, rfl⟩ | ⟨hcur', hsw, rfl⟩ |
        ⟨t, k, hcur', -, ⟨-, rfl⟩ | ⟨-, rfl⟩⟩
      · exact hkeep
      · refine ⟨fun d hd => ?_, hkeep.candidate⟩
        rcases CpuList.mem_set.mp hd with rfl | hd
        · exact ⟨huse, hcur', hsw⟩
        · exact hkeep.idle d hd
      · refine ⟨hkeep.idle, fun d hd => ?_⟩
        rcases CpuList.mem_set.mp hd with rfl | hd
        · exact ⟨huse, t, hs₀ ▸ hset.reaped hcur hcur', hcur'⟩
        · exact hkeep.candidate d hd
      · exact hkeep

theorem ScanStep.mem {env : RoundEnv} {c d : CpuId} {a a' : Scan}
    {s s' : NetScheduler} (h : ScanStep env c s a s' a') :
    (d ∈ a'.availCpus → d = c ∨ d ∈ a.availCpus) ∧
      (d ∈ a'.availCpusLowPriority → d = c ∨ d ∈ a.availCpusLowPriority) := by
  cases h with
  | lost | reclaimed | skipped | inFlight => exact ⟨Or.inr, Or.inr⟩
  | settled _ _ _ _ hclass =>
      rcases hclass with ⟨-, -, rfl⟩ | ⟨-, -, rfl⟩ |
        ⟨t, k, -, -, ⟨-, rfl⟩ | ⟨-, rfl⟩⟩
      · exact ⟨Or.inr, Or.inr⟩
      · exact ⟨CpuList.mem_set.mp, Or.inr⟩
      · exact ⟨Or.inr, CpuList.mem_set.mp⟩
      · exact ⟨Or.inr, Or.inr⟩

theorem ScanStep.mem_lowPriority {env : RoundEnv} {c d : CpuId} {a a' : Scan}
    {s s' : NetScheduler} (h : ScanStep env c s a s' a')
    (hd : d ∈ a.availCpusLowPriority) : d ∈ a'.availCpusLowPriority := by
  cases h with
  | lost | reclaimed | skipped | inFlight => exact hd
  | settled _ _ _ _ hclass =>
      rcases hclass with ⟨-, -, rfl⟩ | ⟨-, -, rfl⟩ |
        ⟨t, k, -, -, ⟨-, rfl⟩ | ⟨-, rfl⟩⟩
      · exact hd
      · exact hd
      · exact CpuList.mem_set.mpr (Or.inr hd)
      · exact hd

/-- The scan visits every CPU once, so what it says about the CPUs behind it
is not undone by the ones ahead. -/
theorem scanCpus_offers {cfg : Config} {env : RoundEnv} {cs : List CpuId}
    {a a' : Scan} {s₀ s s' : NetScheduler}
    (h : scanCpus env cs a s = .ok (a', s')) (hnodup : cs.Nodup)
    (hsub : ∀ c ∈ cs, c ∈ cfg.cpus)
    (hnew : ∀ c ∈ cs, c ∉ a.availCpus ∧ c ∉ a.availCpusLowPriority)
    (hs₀ : ∀ c ∈ cs, s.cpuStates c = s₀.cpuStates c)
    (ho : Offers cfg env s₀ s a.availCpus a.availCpusLowPriority) :
    Offers cfg env s₀ s' a'.availCpus a'.availCpusLowPriority := by
  induction cs generalizing a s with
  | nil =>
      cases Checked.pure_ok.mp h
      exact ho
  | cons c cs ih =>
      obtain ⟨a₁, s₁, hstep, h⟩ := Checked.bind_ok.mp h
      have hscan := scanCpu_cases hstep
      have hmem := List.mem_cons_self (a := c) (l := cs)
      obtain ⟨hc, hcs⟩ := List.nodup_cons.mp hnodup
      have hne : ∀ d ∈ cs, d ≠ c := fun d hd hdc => hc (hdc ▸ hd)
      refine ih h hcs (fun d hd => hsub d (List.mem_cons_of_mem c hd))
        (fun d hd => ?_) (fun d hd => ?_) ?_
      · have hold := hnew d (List.mem_cons_of_mem c hd)
        exact ⟨fun hin => (hscan.mem.1 hin).elim (hne d hd) hold.1,
          fun hin => (hscan.mem.2 hin).elim (hne d hd) hold.2⟩
      · rw [hscan.confined.cpuStates d (hne d hd)]
        exact hs₀ d (List.mem_cons_of_mem c hd)
      · exact hscan.offers ho (hsub c hmem) (hnew c hmem).1 (hnew c hmem).2
          (hs₀ c hmem)

/-- The offers at the end of the scan. -/
theorem scan_offers {cfg : Config} {env : RoundEnv} {scan : Scan}
    {s s' : NetScheduler}
    (h : scanCpus env cfg.cpus.ids ⟨.emptyCpuList, .emptyCpuList, 0⟩ s =
      .ok (scan, s')) :
    Offers cfg env s s' scan.availCpus scan.availCpusLowPriority :=
  scanCpus_offers h cfg.cpus.nodup (fun _ hc => hc)
    (fun _ _ => ⟨CpuList.not_mem_emptyCpuList, CpuList.not_mem_emptyCpuList⟩)
    (fun _ _ => rfl)
    ⟨fun _ hc => absurd hc CpuList.not_mem_emptyCpuList,
      fun _ hc => absurd hc CpuList.not_mem_emptyCpuList⟩

end GhostDataplane.Agent
