import GhostDataplane.Proofs.Messages
import GhostDataplane.Proofs.Serve

/-!
# The agents stop

An agent looks at `Finished()` at the head of its loop and nowhere else, so once
it is told to stop it has to come back there: out of a migration, out of a
round, and out of the drain loop, which goes on for as long as the channel has
something in it. This module bounds the steps that takes, for each agent on its
own and whatever the others do.

An agent outside of the global branch is a few steps from the head and does not
enter the branch again. Inside, `Pc.lap` of `Serve` already counts the way to
the head; new is the drain loop, which comes before a round and makes it longer.
A message can put a task on a run queue, which the round may visit twice, and
lay one aside, which it puts back: three steps of the round that the message has
to pay for, besides the three that it takes itself.
-/

namespace GhostDataplane.Agent

open GhostDataplane.Lib

/-! ## What a message adds to the queues -/

section Queues

variable {cfg : Config} {t : TaskId} {k k' : NetTask} {op : Op}
  {s s' : NetScheduler}

theorem QueueChange.queueLength_le (h : QueueChange t k k' s s') :
    queueLength s' ≤ queueLength s + 1 := by
  unfold queueLength
  cases h with
  | same _ hq hl =>
      rw [hq, hl]
      exact Nat.le_succ _
  | pushed _ _ hq hl =>
      rw [hq, hl]
      exact Nat.le_of_eq length_push
  | erased _ _ hq hl =>
      rw [hq, hl, NetScheduler.unqueue]
      have hhigh : (s.runQueue.erase t).length ≤ s.runQueue.length :=
        List.length_erase_le
      have hlow : (s.runQueueLowPriority.erase t).length ≤
          s.runQueueLowPriority.length :=
        List.length_erase_le
      split
      · show (s.runQueue.erase t).length + s.runQueueLowPriority.length ≤ _
        omega
      · show s.runQueue.length + (s.runQueueLowPriority.erase t).length ≤ _
        omega

theorem perform_queueLength_le (hop : op.isMessage = true)
    (h : perform cfg op s = .ok ((), s')) :
    queueLength s' ≤ queueLength s + 1 := by
  cases op with
  | globalSchedule | pickNextGlobalCpu => cases hop
  | taskNew t p msg =>
      cases taskNew_step h with
      | moves hne => exact absurd rfl (hne t p msg)
      | new => exact Nat.le_succ _
      | newRunnable => exact Nat.le_of_eq length_push
  | taskDead t n =>
      obtain ⟨k, -, -, rfl⟩ := taskDead_ok h
      exact Nat.le_succ _
  | taskDeparted t msg =>
      obtain ⟨k, -, rfl | ⟨c, rfl⟩⟩ := taskDeparted_ok h
      · exact Nat.le_succ _
      · exact Nat.le_succ _
  | taskRunnable =>
      obtain ⟨k, k', hr, -⟩ := taskRunnable_reply h
      exact hr.queue.queueLength_le
  | taskPreempted =>
      obtain ⟨k, k', hr, -⟩ := taskPreempted_reply h
      exact hr.queue.queueLength_le
  | taskYield =>
      obtain ⟨k, k', hr, -⟩ := taskYield_reply h
      exact hr.queue.queueLength_le
  | taskBlocked =>
      obtain ⟨k, k', hr, -⟩ := taskBlocked_reply h
      exact hr.queue.queueLength_le
  | taskSwitchto =>
      obtain ⟨k, k', hr, -⟩ := taskSwitchto_reply h
      exact hr.queue.queueLength_le

end Queues

/-! ## How far an agent is from its end -/

/-- The steps of a round that begins with these tables. -/
def roundSteps (cfg : Config) (s : NetScheduler) : Nat :=
  5 * cfg.cpus.ids.length + 2 * queueLength s + s.yieldingTasks.length

/-- Steps that are left to an agent that is told to stop, with `left` messages
in the channel. -/
def Pc.ending (cfg : Config) (s : NetScheduler) (left : Nat) : Pc → Nat
  | .boosted => cfg.cpus.ids.length + roundSteps cfg s + 6 * left + 13
  | .peek => roundSteps cfg s + 6 * left + 10
  | .dispatch _ => roundSteps cfg s + 6 * left + 9
  | .consume => roundSteps cfg s + 6 * left + 5
  | pc => pc.lap cfg s

/-- The same for the agent on `c`. -/
def World.untilEnd (cfg : Config) (c : CpuId) (w : World) : Nat :=
  (w.pc c).ending cfg w.sched (w.produced.length - w.consumed)

section Ending

variable {cfg : Config} {c d : CpuId} {pc pc' : Pc} {s s' : NetScheduler}
  {left left' : Nat} {w w' : World} {r : Reads}

theorem Pc.ending_eq_lap (hchannel : pc.onChannel = false)
    (hne : pc ≠ .boosted) :
    pc.ending cfg s left = pc.lap cfg s := by
  cases pc with
  | boosted => exact absurd rfl hne
  | peek | dispatch | consume => cases hchannel
  | _ => rfl

/-- Outside of the global branch the tables do not matter. -/
theorem Pc.ending_outside (hpc : pc.inside = false) :
    pc.ending cfg s left = pc.ending cfg s' left' := by
  cases pc with
  | head | localYield | ping | load | store | finished => rfl
  | _ => cases hpc

theorem Pc.finished_of_ending (h : pc.ending cfg s left = 0) :
    pc = .finished := by
  cases pc with
  | finished => rfl
  | _ =>
      simp only [Pc.ending, Pc.lap] at h
      omega

/-- A step in the global branch that leaves the channel alone. -/
theorem Holds.ending_lt (h : Holds cfg pc s)
    (hstep : SchedStep cfg c s pc pc' s') (hpc : pc.inside = true)
    (hchannel : pc.onChannel = false) :
    pc'.ending cfg s' left < pc.ending cfg s left := by
  by_cases hb : pc = .boosted
  · cases hstep with
    | picking | draining =>
        simp only [Pc.ending, Pc.lap]
        omega
    | outside hout => cases hout.symm.trans hpc
    | _ => cases hb
  · have hlap := h.lap_lt hstep hpc hb
    rw [Pc.ending_eq_lap hchannel hb]
    refine Nat.lt_of_le_of_lt (Nat.le_of_eq ?_) hlap
    cases hstep with
    | outside hout => cases hout.symm.trans hpc
    | entered => cases hpc
    | picking | draining => exact absurd rfl hb
    | _ => rfl

/-- An agent outside of the global branch that is told to stop. -/
theorem threadStep_stopping (hr : r.finished = true)
    (h : threadStep cfg r c w = .ok w') (hpc : (w.pc c).inside = false) :
    ∃ pc' migrations, w' = { w.goto c pc' with migrations := migrations } ∧
      ∀ left, pc'.ending cfg w.sched left ≤
        (w.pc c).ending cfg w.sched left - 1 := by
  unfold threadStep at h
  cases hc : w.pc c with
  | head =>
      simp only [hc, World.exec, schedStep, Checked.get_bind, hr] at h
      cases h
      exact ⟨.finished, w.migrations, rfl, fun _ => Nat.zero_le _⟩
  | finished =>
      simp only [hc] at h
      cases h
      exact ⟨.finished, w.migrations, rfl, fun _ => Nat.zero_le _⟩
  | localYield | ping | load | store =>
      simp only [hc] at h
      cases h
      exact ⟨_, _, rfl, fun _ => Nat.le_refl _⟩
  | _ =>
      rw [hc] at hpc
      cases hpc

/-- Each step of an agent that is told to stop is one of those counted. -/
theorem ThreadsInv.stopping (h : ThreadsInv cfg w) (hr : r.finished = true)
    (hstep : Agent.threadStep cfg r c w = .ok w') :
    w'.untilEnd cfg c ≤ w.untilEnd cfg c - 1 := by
  by_cases hin : (w.pc c).inside = true
  · obtain ⟨-, hholds, hdrain⟩ := h.held rfl hin
    refine Nat.le_sub_one_of_lt ?_
    cases threadStep_cases hstep with
    | sched hchannel hs =>
        simp only [World.untilEnd, World.goto, Function.update_self]
        exact hholds.ending_lt hs hin hchannel
    | message hpc =>
        simp only [World.untilEnd, World.goto, Function.update_self,
          hpc, Pc.ending]
        omega
    | drained hpc =>
        simp only [World.untilEnd, World.goto, Function.update_self, hpc,
          Pc.ending, Pc.lap, roundSteps, CpuList.emptyCpuList, List.length_nil]
        omega
    | dispatched hpc hperf =>
        have hqueue := perform_queueLength_le (h.isMessage hpc) hperf
        have hyielding := perform_yieldingTasks_le (h.isMessage hpc) hperf
        simp only [World.untilEnd, World.goto, Function.update_self, hpc,
          Pc.ending, roundSteps]
        omega
    | consumed hpc =>
        have hbound := hdrain.bound
        simp only [hpc, Pc.handed] at hbound
        simp only [World.untilEnd, World.goto, Function.update_self,
          hpc, Pc.ending]
        omega
  · obtain ⟨pc', migrations, rfl, hle⟩ :=
      threadStep_stopping hr hstep (by simpa using hin)
    simp only [World.untilEnd, World.goto, Function.update_self]
    exact hle _

/-- The steps of the others do not take an agent further away. -/
theorem ThreadsInv.untilEnd_other (h : ThreadsInv cfg w) (hd : d ≠ c)
    (hstep : ThreadStep cfg d w w') : w'.untilEnd cfg c = w.untilEnd cfg c := by
  have hsame : w'.pc c = w.pc c := by
    cases hstep with
    | sched | message | drained | dispatched | consumed =>
        exact Function.update_of_ne hd.symm _ _
  unfold World.untilEnd
  rw [hsame]
  by_cases hin : (w.pc c).inside = true
  · -- The agent is the one inside, so the other is outside and stays there.
    have hout : (w.pc d).inside = false := h.outside (h.holder c hin ▸ hd)
    cases hstep with
    | sched _ hs =>
        obtain ⟨rfl, -⟩ := hs.outside_cases hout
        rfl
    | message hpc | drained hpc | dispatched hpc | consumed hpc =>
        rw [hpc] at hout
        cases hout
  · exact Pc.ending_outside (by simpa using hin)

end Ending

/-! ## Runs -/

/-- The kernel sends nothing more, and the agent on `c` is told to stop. -/
def told (c : CpuId) (_ : World) : Action → Prop
  | .produce _ => False
  | .run d r => d = c → r.finished = true

/-- An agent that is told to stop returns within as many steps of its own as are
left to it, whatever the others do; and when all have returned, none has left an
operation of the scheduler half done. -/
theorem agents_stop {cfg : Config} {agents : Set CpuId} {w w' : World}
    {c : CpuId} {actions : List Action} (hw : ThreadsReachable cfg agents w)
    (hrun : (agentThreads cfg agents).Steps (told c) w actions w')
    (henough : w.untilEnd cfg c ≤ actions.countP (Action.isBy c)) :
    w'.pc c = .finished ∧
      ((∀ d ∈ cfg.cpus, w'.pc d = .finished) → Reachable cfg w'.sched) := by
  have hrank : w'.untilEnd cfg c ≤
      w.untilEnd cfg c - actions.countP (Action.isBy c) := by
    refine hrun.rank_le (World.untilEnd cfg c) (Action.isBy c)
      (I := ThreadsReachable cfg agents) hw ?_
    intro w₁ a w₂ hw₁ ha hstep
    refine ⟨.step hw₁ trivial hstep, ?_⟩
    have hinv := threadsInv_of_reachable hw₁
    cases a with
    | produce msg => cases ha
    | run d r =>
        by_cases hd : d = c
        · subst hd
          rw [Action.isBy, beq_self_eq_true, if_pos rfl]
          exact hinv.stopping (ha rfl) hstep.2
        · rw [hinv.untilEnd_other hd (threadStep_cases hstep.2)]
          simp [Action.isBy, hd]
  have hw' : ThreadsReachable cfg agents w' := by
    refine hrun.invariant (I := ThreadsReachable cfg agents) hw ?_
    intro w₁ a w₂ hw₁ _ hstep
    exact .step hw₁ trivial hstep
  refine ⟨Pc.finished_of_ending (Nat.le_zero.mp (hrank.trans (by omega))),
    fun hall => ?_⟩
  refine (threads_serializable hw').2 ?_
  rw [hall _ (onEnclave_of_reachable hw').global]
  rfl

/-- What an agent reads that is told to stop while the kernel wants its CPU. -/
def lastReads : Reads := ⟨true, true, calmMigration, calmRound⟩

/-- The agent of CPU 0 is in the middle of a migration when it is told to stop.
It hands its role over to the agent of CPU 1, which goes on. -/
theorem agents_stop_migrating :
    ∃ w w', ThreadsReachable twoCpus {c | c < 2} w ∧
      w.pc 0 = .vacate calmMigration 1 ∧
      w.dispatched.length < w.produced.length ∧
      (agentThreads twoCpus {c | c < 2}).Steps (told 0) w
        (List.replicate 9 [.run 0 lastReads, .run 1 (calmReads false)]).flatten
          w' ∧
      w'.pc 0 = .finished := by
  have hrun :
      ∃ w w', runThreads twoCpus (List.replicate 6 (0, calmReads true))
        twoWaiting = .ok w ∧
      w.pc 0 = .vacate calmMigration 1 ∧
      w.dispatched.length < w.produced.length ∧
      w.untilEnd twoCpus 0 = 9 ∧
      runThreads twoCpus (List.replicate 9
        [(0, lastReads), (1, calmReads false)]).flatten w = .ok w' :=
    ⟨_, _, rfl, rfl, Nat.zero_lt_one, rfl, rfl⟩
  obtain ⟨w, w', hfirst, hvacate, hwaits, huntil, hrest⟩ := hrun
  have hw : ThreadsReachable twoCpus {c | c < 2} w :=
    reach_runThreads twoWaiting_reachable (by simp) hfirst
  have htold :
      ∀ step ∈ (List.replicate 9 [(0, lastReads),
        (1, calmReads false)]).flatten,
      step.1 ∈ {c : CpuId | c < 2} ∧ ∀ w, told 0 w (.run step.1 step.2) := by
    intro step hstep
    obtain ⟨round, hround, hstep⟩ := List.mem_flatten.mp hstep
    rw [List.eq_of_mem_replicate hround] at hstep
    rcases List.mem_pair.mp hstep with rfl | rfl
    · exact ⟨Nat.zero_lt_two, fun _ _ => rfl⟩
    · exact ⟨Nat.one_lt_two, fun _ hother => absurd hother Nat.one_ne_zero⟩
  have hsteps : (agentThreads twoCpus {c | c < 2}).Steps (told 0) w
      (List.replicate 9 [.run 0 lastReads, .run 1 (calmReads false)]).flatten
        w' :=
    steps_runThreads htold hrest
  refine ⟨w, w', hw, hvacate, hwaits, hsteps, (agents_stop hw hsteps ?_).1⟩
  rw [huntil]
  exact Nat.le_of_eq rfl

end GhostDataplane.Agent
