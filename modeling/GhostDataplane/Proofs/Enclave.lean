import GhostDataplane.Proofs.Exclusion
import GhostDataplane.Proofs.GlobalCpu

/-!
# The global agent stays in the enclave

There are agents on the CPUs of the enclave and on no others, so the global id
had better name one of them: a global agent that nobody runs would leave every
message unread. The constructor picks its CPU from the enclave, and the search
for another one has two sources, the CPUs of the enclave and the home CPU, which
is where the constructor put the agent. What the search has found travels
through three program counters before it becomes the global id, and other
threads take steps in the meantime, so the invariant also speaks of those
counters.
-/

namespace GhostDataplane.Agent

open GhostDataplane.Lib

/-- The CPUs that a thread still looks at, or has chosen, are in the enclave. -/
def Pc.Inside (cfg : Config) : Pc → Prop
  | .search _ _ cpus => ∀ d ∈ cpus, d ∈ cfg.cpus
  | .settle _ target | .vacate _ target | .setGlobal target => target ∈ cfg.cpus
  | _ => True

structure OnEnclave (cfg : Config) (w : World) : Prop where
  global : w.sched.globalCpuid ∈ cfg.cpus
  home : w.sched.globalHomeCpu ∈ cfg.cpus
  threads : ∀ c, (w.pc c).Inside cfg

section Steps

variable {cfg : Config} {c : CpuId} {pc pc' : Pc} {s s' : NetScheduler}
  {w w' : World}

/-- No step moves the home. -/
theorem Holds.globalHomeCpu (h : Holds cfg pc s)
    (hstep : SchedStep cfg c s pc pc' s') :
    s'.globalHomeCpu = s.globalHomeCpu := by
  cases hstep with
  | outside | entered | picking | draining | searching | nowhere
  | handedOver | collected | exhausted | requeued | cleared | bumped => rfl
  | found hsearch | passed hsearch =>
      rcases (searchCpu_cases hsearch).changes with rfl | ⟨e, hset | hpoll⟩
      · rfl
      · exact hset.confined.globalHomeCpu
      · exact hpoll.confined.globalHomeCpu
  | settled hset => exact (settleTarget_settled hset).confined.globalHomeCpu
  | vacated hvac =>
      have hp : Placed s ∅ := h.fits
      cases vacateTarget_cases hp hvac with
      | idle | evicted => rfl
  | scanned hscan => exact (scanCpu_cases hscan).confined.globalHomeCpu
  | @assigned env a a' unavail n s₁ s' hmore hd hassign =>
      obtain ⟨k, ht, has⟩ := assignTask_taken h.fits hd hassign
      have htaken : s₁.globalHomeCpu = s.globalHomeCpu := by
        rcases dequeue_some hd with ⟨rest, -, rfl⟩ | ⟨-, rest, -, rfl⟩ <;> rfl
      cases has with
      | stale | batched | unplaced => exact htaken
      | replaced _ _ _ hrep => exact hrep.confined.globalHomeCpu.trans htaken
  | submitted hsub =>
      split at hsub
      · cases Checked.pure_ok.mp hsub
        rfl
      · cases Checked.modify_ok.mp hsub
        rfl

/-- The global id is written once, with the CPU that was chosen. -/
theorem Holds.globalCpuid_mem (h : Holds cfg pc s)
    (hstep : SchedStep cfg c s pc pc' s') (hpc : pc.Inside cfg)
    (hglobal : s.globalCpuid ∈ cfg.cpus) : s'.globalCpuid ∈ cfg.cpus := by
  by_cases hin : pc'.inside = true
  · rw [h.globalCpuid hstep hin]
    exact hglobal
  · cases hstep with
    | outside | nowhere | bumped => exact hglobal
    | handedOver => exact hpc
    | _ => exact absurd rfl hin

theorem Pc.inside_of_outside (hpc : pc.inside = false) : pc.Inside cfg := by
  cases pc with
  | search | settle | vacate | setGlobal => cases hpc
  | _ => trivial

/-- What a thread chooses comes from the enclave. -/
theorem Holds.inside (h : Holds cfg pc s) (hstep : SchedStep cfg c s pc pc' s')
    (hpc : pc.Inside cfg) (hhome : s.globalHomeCpu ∈ cfg.cpus) :
    pc'.Inside cfg := by
  have hhome' := h.globalHomeCpu hstep
  cases hstep with
  | outside _ hpc' => exact Pc.inside_of_outside hpc'
  | searching => exact fun d hd => hd
  | passed => exact fun d hd => hpc d (List.mem_cons_of_mem _ hd)
  | found hsearch =>
      cases searchCpu_cases hsearch with
      | home => exact hhome
      | here => exact hpc _ List.mem_cons_self
  | settled | vacated => exact hpc
  | _ => trivial

/-- A thread outside has not chosen anything, and does not choose in its first
step. -/
theorem SchedStep.inside_of_outside (h : SchedStep cfg c s pc pc' s')
    (hpc : pc.inside = false) : pc'.Inside cfg := by
  cases h with
  | outside _ hpc' => exact Pc.inside_of_outside hpc'
  | entered => trivial
  | _ => cases hpc

/-! ## What holds of every thread -/

/-- What the thread that took a step has kept, and the others had. -/
theorem update_pc {P : Pc → Prop} {pcs : CpuId → Pc} {d : CpuId} (hpc : P pc)
    (hd : P (pcs d)) :
    P (Function.update pcs c pc d) := by
  by_cases hdc : d = c
  · rw [hdc, Function.update_self]
    exact hpc
  · rw [Function.update_of_ne hdc]
    exact hd

theorem ThreadsInv.outside (h : ThreadsInv cfg w)
    (hc : c ≠ w.sched.globalCpuid) :
    (w.pc c).inside = false := by
  by_contra hin
  exact hc (h.holder c (by simpa using hin))

/-- What is dispatched is a message from the kernel. -/
theorem ThreadsInv.isMessage {msg : Op} (h : ThreadsInv cfg w)
    (hpc : w.pc c = .dispatch msg) :
    msg.isMessage = true := by
  obtain ⟨-, -, hdrain⟩ := h.held hpc rfl
  exact h.messages msg (List.mem_of_getElem? (hdrain.offered msg rfl))

/-- The home of the global agent is where the constructor put it. -/
theorem ThreadsInv.globalHomeCpu (h : ThreadsInv cfg w)
    (hstep : ThreadStep cfg c w w') :
    w'.sched.globalHomeCpu = w.sched.globalHomeCpu := by
  cases hstep with
  | sched _ hstep =>
      by_cases hin : (w.pc c).inside = true
      · obtain ⟨-, hholds, -⟩ := h.held rfl hin
        exact hholds.globalHomeCpu hstep
      · obtain ⟨rfl, -⟩ := hstep.outside_cases (by simpa using hin)
        rfl
  | message | drained | consumed => rfl
  | dispatched hpc hperf =>
      exact (perform_cleared (h.isMessage hpc) hperf).globalHomeCpu

theorem OnEnclave.step (h : OnEnclave cfg w) (hinv : ThreadsInv cfg w)
    (hstep : ThreadStep cfg c w w') : OnEnclave cfg w' := by
  have hhome : w'.sched.globalHomeCpu ∈ cfg.cpus := by
    rw [hinv.globalHomeCpu hstep]
    exact h.home
  have hthreads : ∀ pc', pc'.Inside cfg →
      ∀ d, (Function.update w.pc c pc' d).Inside cfg :=
    fun _ hpc' d => update_pc hpc' (h.threads d)
  cases hstep with
  | sched hpc hstep =>
      by_cases hin : (w.pc c).inside = true
      · obtain ⟨-, hholds, -⟩ := hinv.held rfl hin
        exact ⟨hholds.globalCpuid_mem hstep (h.threads c) h.global, hhome,
          hthreads _ (hholds.inside hstep (h.threads c) h.home)⟩
      · have hout : (w.pc c).inside = false := by simpa using hin
        obtain ⟨rfl, -⟩ := hstep.outside_cases hout
        exact ⟨h.global, hhome, hthreads _ (hstep.inside_of_outside hout)⟩
  | message | drained | consumed => exact ⟨h.global, hhome, hthreads _ trivial⟩
  | @dispatched msg s' hpc hperf =>
      refine ⟨?_, hhome, hthreads _ trivial⟩
      show s'.globalCpuid ∈ cfg.cpus
      rw [(perform_cleared (hinv.isMessage hpc) hperf).globalCpuid]
      exact h.global

end Steps

theorem onEnclave_of_reachable {cfg : Config} {agents : Set CpuId} {w : World}
    (h : ThreadsReachable cfg agents w) : OnEnclave cfg w := by
  refine Machine.Reach.invariant (I := OnEnclave cfg) ?_ ?_ h
  · rintro w ⟨⟨globalCpu, cpuhist, st, hcon⟩, hpc, -⟩
    obtain ⟨c, hc, hsched⟩ := construct_ok hcon
    refine ⟨?_, ?_, fun d => ?_⟩
    · rw [hsched]
      exact hc
    · rw [hsched]
      exact hc
    · rw [hpc d]
      trivial
  · intro w act w' hr hon _ hstep
    cases act with
    | produce msg =>
        obtain ⟨-, rfl⟩ := hstep
        exact ⟨hon.global, hon.home, hon.threads⟩
    | run c r =>
        exact hon.step (threadsInv_of_reachable hr) (threadStep_cases hstep.2)

end GhostDataplane.Agent
