import GhostDataplane.Proofs.Placement

/-!
# The candidates for preemption

The scan leaves a CPU alone when the tables already have a current task for
it, and the classification that makes a CPU a candidate comes after that. So
a CPU is a candidate only in the round that reaps the transaction of its
task. From the next round on the task is current when the scan comes to the
CPU, and no later round offers it for preemption, whoever is waiting.
-/

namespace GhostDataplane.Agent

open GhostDataplane.Lib

/-- If the CPU runs a task that is not memcached, it is a candidate. -/
def Offered (env : RoundEnv) (c : CpuId) (s : NetScheduler) (a : Scan) : Prop :=
  ∀ t, (s.cpuStates c).current = some t →
    strContains (env.taskNameAgain t) "memcached" = false →
    c ∈ a.availCpusLowPriority

theorem Offered.scanStep {env : RoundEnv} {c d : CpuId} {s s' : NetScheduler}
    {a a' : Scan} (h : Offered env c s a) (hav : env.available c = true)
    (hstep : ScanStep env d s a s' a') : Offered env c s' a' := by
  intro t hcur hname
  by_cases hcd : c = d
  · subst hcd
    cases hstep with
    | lost hlost | reclaimed hlost _ =>
        rw [hav] at hlost
        cases hlost
    | skipped | inFlight => exact h t hcur hname
    | settled _ _ _ _ hclass =>
        rcases hclass with ⟨hnone, -⟩ | ⟨hnone, -⟩ | ⟨t', k, hcur', -, hcase⟩
        · rw [hcur] at hnone
          cases hnone
        · rw [hcur] at hnone
          cases hnone
        · cases hcur'.symm.trans hcur
          rcases hcase with ⟨-, rfl⟩ | ⟨hpre, -⟩
          · exact CpuList.mem_set.mpr (Or.inl rfl)
          · simp [preemptable, hname] at hpre
  · rw [hstep.confined.cpuStates c hcd] at hcur
    exact hstep.mem_lowPriority (h t hcur hname)

/-- A round offers a CPU that runs a task other than memcached for preemption
exactly if the CPU had no current task when the round began, so that the task
was made current by the round's own scan. -/
theorem firewall_candidate_iff {cfg : Config} {env : RoundEnv}
    {s s₁ : NetScheduler} {scan : Scan} {c : CpuId} {t : TaskId}
    (h : Reachable cfg s)
    (hscan : scanCpus env cfg.cpus.ids ⟨.emptyCpuList, .emptyCpuList, 0⟩ s =
      .ok (scan, s₁))
    (hc : c ∈ cfg.cpus) (hav : env.available c = true)
    (hcur : (s₁.cpuStates c).current = some t)
    (hname : strContains (env.taskNameAgain t) "memcached" = false) :
    c ∈ scan.availCpusLowPriority ↔ (s.cpuStates c).current = none := by
  constructor
  · intro hmem
    obtain ⟨t', hnext, -⟩ := ((scan_offers hscan).candidate c hmem).reaped
    refine ((sound_of_reachable h).placed.exclusive c).resolve_right ?_
    rw [hnext]
    simp
  · intro hnone
    have hoffered : Offered env c s₁ scan := by
      refine scanCpus_visit (P := fun s => (s.cpuStates c).current = none)
        (Q := Offered env c) ?_ ?_ (fun d s a s' a' hq => hq.scanStep hav) hc
        hnone hscan
      · intro d s a s' a' hcd hp hstep
        rw [hstep.confined.cpuStates c hcd]
        exact hp
      · intro s a s' a' hp hvisit
        have hstart : Offered env c s a := by
          intro t hcur
          rw [hp] at hcur
          cases hcur
        exact hstart.scanStep hav (scanCpu_cases hvisit)
    exact hoffered t hcur hname

/-- The round that reaps the transaction of its task has the CPU as a
candidate. -/
theorem firewall_candidate_iff_fresh :
    ∃ s s₁ scan, Reachable twoCpus s ∧
      scanCpus calmRound twoCpus.cpus.ids ⟨.emptyCpuList, .emptyCpuList, 0⟩ s =
        .ok (scan, s₁) ∧
      (s₁.cpuStates 1).current = some 0 ∧ 1 ∈ scan.availCpusLowPriority := by
  have hrun : ∃ s s₁ scan, performAll twoCpus
      [newTask 0 true true "EngineThread/0", .globalSchedule calmRound]
      twoCpusStart = .ok ((), s) ∧
      scanCpus calmRound twoCpus.cpus.ids ⟨.emptyCpuList, .emptyCpuList, 0⟩ s =
        .ok (scan, s₁) ∧
      (s.cpuStates 1).current = none ∧ (s₁.cpuStates 1).current = some 0 :=
    ⟨_, _, _, rfl, rfl, rfl, rfl⟩
  obtain ⟨s, s₁, scan, hrun, hscan, hnone, hcur⟩ := hrun
  have hreach : Reachable twoCpus s :=
    reach_performAll (.init twoCpusStart_init) (fun _ _ _ => trivial) hrun
  exact ⟨s, s₁, scan, hreach, hscan, hcur,
    (firewall_candidate_iff hreach hscan (by decide) rfl hcur (by decide)).mpr
      hnone⟩

/-- A task of low priority that was placed two rounds ago is not a candidate,
while a task of high priority is waiting. -/
theorem running_firewall_not_candidate :
    ∃ s s₁ scan, Reachable twoCpus s ∧ s.runQueue = [1] ∧
      scanCpus calmRound twoCpus.cpus.ids ⟨.emptyCpuList, .emptyCpuList, 0⟩ s =
        .ok (scan, s₁) ∧
      1 ≠ s.globalCpuid ∧ calmRound.available 1 = true ∧
      (s₁.cpuStates 1).current = some 0 ∧
      strContains (calmRound.taskNameAgain 0) "memcached" = false ∧
      1 ∉ scan.availCpusLowPriority := by
  have hrun : ∃ s s₁ scan, performAll twoCpus
      [newTask 0 false true "app", .globalSchedule calmRound,
        .globalSchedule calmRound, newTask 1 true true "EngineThread/0"]
      twoCpusStart = .ok ((), s) ∧ s.runQueue = [1] ∧
      scanCpus calmRound twoCpus.cpus.ids ⟨.emptyCpuList, .emptyCpuList, 0⟩ s =
        .ok (scan, s₁) ∧
      1 ≠ s.globalCpuid ∧ (s₁.cpuStates 1).current = some 0 ∧
      1 ∉ scan.availCpusLowPriority :=
    ⟨_, _, _, rfl, rfl, rfl, by decide, rfl, by decide⟩
  obtain ⟨s, s₁, scan, hrun, hq, hscan, hglobal, hcur, hnot⟩ := hrun
  exact ⟨s, s₁, scan,
    reach_performAll (.init twoCpusStart_init) (fun _ _ _ => trivial) hrun, hq,
    hscan, hglobal, rfl, hcur, by decide, hnot⟩

end GhostDataplane.Agent
