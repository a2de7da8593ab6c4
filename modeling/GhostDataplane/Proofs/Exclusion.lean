import GhostDataplane.Proofs.Interleaving
import GhostDataplane.Proofs.Replies
import Mathlib.Data.List.Infix

/-!
# At most one agent schedules

The token is the global id. A thread enters the global branch when it has
read its own CPU there, and as long as it is inside the id stays what it is:
the steps of the thread itself do not write it, the hand-over apart, and the
other threads are outside and touch no table at all. So whoever is inside is
on the global CPU, and the agents are on different ones. The hand-over writes
the id and leaves the branch in the same step.

Two things follow from there being one such thread. It drains the channel
alone, so the messages come out one by one and in their order, whichever
agents took turns at it. And nobody disturbs it in the middle of an
operation, so what holds of the scheduler's runs by whole operations holds of
the threads: while no agent is inside, the tables are in a `Reachable` state.
-/

namespace GhostDataplane.Agent

open GhostDataplane.Lib

/-! ## One step of the system -/

/-- All that a step of the thread on `c` can do. -/
inductive ThreadStep (cfg : Config) (c : CpuId) (w : World) : World → Prop where
  | sched {pc' : Pc} {s' : NetScheduler} {migrations : Nat}
      (hpc : (w.pc c).onChannel = false)
      (hstep : SchedStep cfg c w.sched (w.pc c) pc' s') :
      ThreadStep cfg c w
        { w.goto c pc' with sched := s', migrations := migrations }
  | message {msg : Op} (hpc : w.pc c = .peek)
      (hmsg : w.produced[w.consumed]? = some msg) :
      ThreadStep cfg c w (w.goto c (.dispatch msg))
  | drained {env : RoundEnv} (hpc : w.pc c = .peek)
      (hmsg : w.produced[w.consumed]? = none) :
      ThreadStep cfg c w (w.goto c
        (.scan env cfg.cpus.ids ⟨.emptyCpuList, .emptyCpuList, 0⟩))
  | dispatched {msg : Op} {s' : NetScheduler} (hpc : w.pc c = .dispatch msg)
      (hperf : perform cfg msg w.sched = .ok ((), s')) :
      ThreadStep cfg c w { w.goto c .consume with
        sched := s'
        dispatched := w.dispatched ++ [msg] }
  | consumed (hpc : w.pc c = .consume) :
      ThreadStep cfg c w
        { w.goto c .peek with consumed := w.consumed + 1 }

theorem exec_ok {w w' : World} {c : CpuId} {m : Sched Pc}
    (h : w.exec c m = .ok w') :
    ∃ pc s, m w.sched = .ok (pc, s) ∧ w' = { w.goto c pc with sched := s } := by
  unfold World.exec at h
  split at h
  · next pc s hm =>
      cases h
      exact ⟨pc, s, hm, rfl⟩
  · cases h

theorem threadStep_cases {cfg : Config} {r : Reads} {c : CpuId}
    {w w' : World} (h : threadStep cfg r c w = .ok w') :
    ThreadStep cfg c w w' := by
  have hother : (w.pc c).onChannel = false →
      w.exec c (schedStep cfg r c (w.pc c)) = .ok w' →
      ThreadStep cfg c w w' := by
    intro hpc hexec
    obtain ⟨pc, s, hm, rfl⟩ := exec_ok hexec
    exact .sched hpc (schedStep_cases hpc hm)
  unfold threadStep at h
  cases hpc : w.pc c with
  | load =>
      simp only [hpc] at h
      cases h
      exact .sched (by rw [hpc]; rfl) (.outside (by rw [hpc]; rfl) rfl)
  | store m =>
      simp only [hpc] at h
      cases h
      exact .sched (by rw [hpc]; rfl) (.outside (by rw [hpc]; rfl) rfl)
  | peek =>
      simp only [hpc] at h
      split at h
      · next msg hmsg =>
          cases h
          exact .message hpc hmsg
      · next hmsg =>
          cases h
          exact .drained hpc hmsg
  | dispatch msg =>
      simp only [hpc] at h
      cases hexec : w.exec c (schedStep cfg r c (.dispatch msg)) with
      | error e =>
          rw [hexec] at h
          cases h
      | ok w₁ =>
          rw [hexec] at h
          cases h
          obtain ⟨pc, s, hm, rfl⟩ := exec_ok hexec
          obtain ⟨_, s₁, hperf, hm⟩ := Checked.bind_ok.mp hm
          cases Checked.pure_ok.mp hm
          exact .dispatched hpc hperf
  | consume =>
      simp only [hpc] at h
      cases h
      exact .consumed hpc
  | _ =>
      rw [hpc] at hother
      simp only [hpc] at h
      exact hother rfl h

/-! ## The invariant -/

/-- The message that was dispatched and not yet consumed. -/
def Pc.handed : Pc → Nat
  | .consume => 1
  | _ => 0

/-- The message that was peeked and not yet dispatched. -/
def Pc.peeked : Pc → Option Op
  | .dispatch msg => some msg
  | _ => none

/-- The channel as the thread at `pc` sees it. -/
structure Drain (w : World) (pc : Pc) : Prop where
  dispatched : w.dispatched = w.produced.take (w.consumed + pc.handed)
  bound : w.consumed + pc.handed ≤ w.produced.length
  offered : ∀ msg, pc.peeked = some msg → w.produced[w.consumed]? = some msg

structure ThreadsInv (cfg : Config) (w : World) : Prop where
  /-- Whoever is inside is on the global CPU. -/
  holder : ∀ c, (w.pc c).inside = true → c = w.sched.globalCpuid
  holds : Holds cfg (w.pc w.sched.globalCpuid) w.sched
  drain : Drain w (w.pc w.sched.globalCpuid)
  messages : ∀ msg ∈ w.produced, msg.isMessage = true

section Channel

variable {cfg : Config} {c : CpuId} {w w' : World} {pc pc' : Pc}
  {s s' : NetScheduler}

theorem Pc.handed_outside (h : pc.inside = false) :
    pc.handed = 0 ∧ pc.peeked = none := by
  cases pc with
  | head | localYield | ping | load | store | finished => exact ⟨rfl, rfl⟩
  | _ => cases h

/-- A thread that does not work on the channel sees it as it was. -/
theorem Drain.idle (h : Drain w pc) (hpc : pc.handed = 0)
    (hpc' : pc'.handed = 0 ∧ pc'.peeked = none)
    (hdispatched : w'.dispatched = w.dispatched)
    (hproduced : w'.produced = w.produced)
    (hconsumed : w'.consumed = w.consumed) : Drain w' pc' := by
  have hd := h.dispatched
  have hb := h.bound
  rw [hpc] at hd hb
  refine ⟨?_, ?_, fun msg hmsg => by cases hpc'.2.symm.trans hmsg⟩
  · rw [hdispatched, hproduced, hconsumed, hpc'.1]
    exact hd
  · rw [hproduced, hconsumed, hpc'.1]
    exact hb

theorem SchedStep.handed (h : SchedStep cfg c s pc pc' s') :
    pc'.handed = 0 ∧ pc'.peeked = none := by
  cases h with
  | outside _ hpc' => exact Pc.handed_outside hpc'
  | _ => exact ⟨rfl, rfl⟩

/-- A thread outside the branch leaves the tables alone, and enters it only
on the global CPU. -/
theorem SchedStep.outside_cases (h : SchedStep cfg c s pc pc' s')
    (hpc : pc.inside = false) :
    s' = s ∧ (pc'.inside = true → c = s.globalCpuid) := by
  cases h with
  | outside _ hpc' => exact ⟨rfl, fun hin => by cases hpc'.symm.trans hin⟩
  | entered hglobal => exact ⟨rfl, fun _ => hglobal⟩
  | _ => cases hpc

theorem Drain.dispatch {msg : Op} (h : Drain w (.dispatch msg))
    (hdispatched : w'.dispatched = w.dispatched ++ [msg])
    (hproduced : w'.produced = w.produced)
    (hconsumed : w'.consumed = w.consumed) : Drain w' .consume := by
  have hmsg := h.offered msg rfl
  have hd := h.dispatched
  obtain ⟨hlt, -⟩ := List.getElem?_eq_some_iff.mp hmsg
  refine ⟨?_, ?_, nofun⟩
  · rw [hdispatched, hproduced, hconsumed, hd]
    show List.take (w.consumed + 0) w.produced ++ [msg] =
      List.take (w.consumed + 1) w.produced
    rw [Nat.add_zero, List.take_add_one, hmsg]
    rfl
  · rw [hproduced, hconsumed]
    exact hlt

end Channel

section Inv

variable {cfg : Config} {c : CpuId} {w w' : World} {pc' : Pc}
  {s' : NetScheduler}

/-- The thread on the global CPU took a step. -/
theorem ThreadsInv.holderStep (h : ThreadsInv cfg w)
    (hc : c = w.sched.globalCpuid) (hpc : w'.pc = Function.update w.pc c pc')
    (hproduced : w'.produced = w.produced) (hholds : Holds cfg pc' w'.sched)
    (hin : pc'.inside = true → w'.sched.globalCpuid = w.sched.globalCpuid)
    (hdrain : Drain w' pc') : ThreadsInv cfg w' := by
  have hothers : ∀ d, d ≠ c → (w.pc d).inside = false := by
    intro d hd
    by_contra hin
    exact hd ((h.holder d (by simpa using hin)).trans hc.symm)
  have hglobal : Holds cfg (w'.pc w'.sched.globalCpuid) w'.sched ∧
      Drain w' (w'.pc w'.sched.globalCpuid) := by
    rw [hpc]
    by_cases hg : w'.sched.globalCpuid = c
    · rw [hg, Function.update_self]
      exact ⟨hholds, hdrain⟩
    · -- The id went elsewhere, so the thread is outside now.
      have hout : pc'.inside = false := by
        by_contra hin'
        exact hg ((hin (by simpa using hin')).trans hc.symm)
      rw [Function.update_of_ne hg]
      exact ⟨holds_outside (hholds.reachable (Pc.finish_outside hout))
          (hothers _ hg),
        hdrain.idle (Pc.handed_outside hout).1
          (Pc.handed_outside (hothers _ hg))
          rfl rfl rfl⟩
  refine ⟨fun d hd => ?_, hglobal.1, hglobal.2,
    by rw [hproduced]; exact h.messages⟩
  rw [hpc] at hd
  by_cases hdc : d = c
  · subst hdc
    rw [Function.update_self] at hd
    rw [hin hd]
    exact hc
  · rw [Function.update_of_ne hdc] at hd
    cases (hothers d hdc).symm.trans hd

/-- A thread elsewhere took a step, which did not lead it inside. -/
theorem ThreadsInv.otherStep (h : ThreadsInv cfg w)
    (hc : c ≠ w.sched.globalCpuid) (hpc : w'.pc = Function.update w.pc c pc')
    (hproduced : w'.produced = w.produced) (hsched : w'.sched = w.sched)
    (hout : pc'.inside = false) (hdrain : Drain w' (w.pc w.sched.globalCpuid)) :
    ThreadsInv cfg w' := by
  have hsame : w'.pc w.sched.globalCpuid = w.pc w.sched.globalCpuid := by
    rw [hpc, Function.update_of_ne hc.symm]
  refine ⟨fun d hd => ?_, ?_, ?_, by rw [hproduced]; exact h.messages⟩
  · rw [hpc] at hd
    rw [hsched]
    by_cases hdc : d = c
    · subst hdc
      rw [Function.update_self, hout] at hd
      cases hd
    · rw [Function.update_of_ne hdc] at hd
      exact h.holder d hd
  · rw [hsched, hsame]
    exact h.holds
  · rw [hsched, hsame]
    exact hdrain

/-- A thread inside the branch is the holder. -/
theorem ThreadsInv.held {pc : Pc} (h : ThreadsInv cfg w) (hpc : w.pc c = pc)
    (hin : pc.inside = true) :
    c = w.sched.globalCpuid ∧ Holds cfg pc w.sched ∧ Drain w pc := by
  have hc := h.holder c (hpc ▸ hin)
  have hholds := h.holds
  have hdrain := h.drain
  rw [← hc, hpc] at hholds hdrain
  exact ⟨hc, hholds, hdrain⟩

theorem Pc.handed_offChannel {pc : Pc} (h : pc.onChannel = false) :
    pc.handed = 0 := by
  cases pc with
  | consume => cases h
  | _ => rfl

/-- A thread took a step of the scheduler. -/
theorem ThreadsInv.schedStep {m : Nat} (h : ThreadsInv cfg w)
    (hpc : (w.pc c).onChannel = false)
    (hstep : SchedStep cfg c w.sched (w.pc c) pc' s') :
    ThreadsInv cfg { w.goto c pc' with sched := s', migrations := m } := by
  by_cases hc : c = w.sched.globalCpuid
  · have hholds := h.holds
    have hdrain := h.drain
    rw [← hc] at hholds hdrain
    exact h.holderStep hc rfl rfl (hholds.step hstep)
      (hholds.globalCpuid hstep)
      (hdrain.idle (Pc.handed_offChannel hpc) hstep.handed rfl rfl rfl)
  · have hpcOut : (w.pc c).inside = false := by
      by_contra hin
      exact hc (h.holder c (by simpa using hin))
    obtain ⟨rfl, henter⟩ := hstep.outside_cases hpcOut
    have hout : pc'.inside = false := by
      by_contra hin
      exact hc (henter (by simpa using hin))
    have hd := h.drain
    exact h.otherStep hc rfl rfl rfl hout ⟨hd.dispatched, hd.bound, hd.offered⟩

theorem ThreadsInv.threadStep (h : ThreadsInv cfg w)
    (hstep : ThreadStep cfg c w w') : ThreadsInv cfg w' := by
  cases hstep with
  | sched hpc hstep => exact h.schedStep hpc hstep
  | @message msg hpc hmsg =>
      obtain ⟨hc, hholds, hdrain⟩ := h.held hpc rfl
      have hr := hholds.reachable rfl
      refine h.holderStep hc rfl rfl ?_ (fun _ => rfl) ?_
      · exact ⟨fun s' hs' => .step hr trivial hs', trivial⟩
      · refine ⟨hdrain.dispatched, hdrain.bound, fun msg' hmsg' => ?_⟩
        cases hmsg'
        exact hmsg
  | @drained env hpc hmsg =>
      obtain ⟨hc, hholds, hdrain⟩ := h.held hpc rfl
      have hr := hholds.reachable rfl
      refine h.holderStep hc rfl rfl ?_ (fun _ => rfl) ?_
      · exact ⟨fun s' hs' => .step (a := .globalSchedule env) hr trivial hs',
          placed_of_reachable hr⟩
      · exact hdrain.idle rfl ⟨rfl, rfl⟩ rfl rfl rfl
  | @dispatched msg s' hpc hperf =>
      obtain ⟨hc, hholds, hdrain⟩ := h.held hpc rfl
      have hmem := List.mem_of_getElem? (hdrain.offered msg rfl)
      refine h.holderStep hc rfl rfl ?_ (fun _ => ?_) ?_
      · refine ⟨fun s₁ hs₁ => ?_, trivial⟩
        cases Checked.pure_ok.mp hs₁
        exact hholds.serial s' hperf
      · exact (perform_cleared (h.messages msg hmem) hperf).globalCpuid
      · exact hdrain.dispatch rfl rfl rfl
  | consumed hpc =>
      obtain ⟨hc, hholds, hdrain⟩ := h.held hpc rfl
      refine h.holderStep hc rfl rfl ⟨hholds.serial, trivial⟩ (fun _ => rfl) ?_
      exact ⟨hdrain.dispatched, hdrain.bound, nofun⟩

theorem ThreadsInv.produce {msg : Op} (h : ThreadsInv cfg w)
    (hmsg : msg.isMessage = true) :
    ThreadsInv cfg { w with produced := w.produced ++ [msg] } := by
  refine ⟨h.holder, h.holds, ⟨?_, ?_, ?_⟩, ?_⟩
  · show w.dispatched = (w.produced ++ [msg]).take _
    rw [List.take_append_of_le_length h.drain.bound]
    exact h.drain.dispatched
  · show _ ≤ (w.produced ++ [msg]).length
    rw [List.length_append]
    exact Nat.le_add_right_of_le h.drain.bound
  · intro msg' hpc
    have hold := h.drain.offered msg' hpc
    obtain ⟨hlt, -⟩ := List.getElem?_eq_some_iff.mp hold
    show (w.produced ++ [msg])[w.consumed]? = some msg'
    rw [List.getElem?_append_left hlt]
    exact hold
  · intro msg' hmem
    rcases List.mem_append.mp hmem with hmem | hmem
    · exact h.messages msg' hmem
    · rw [List.mem_singleton.mp hmem]
      exact hmsg

theorem threadsInv_of_reachable {agents : Set CpuId}
    (h : ThreadsReachable cfg agents w) : ThreadsInv cfg w := by
  refine Machine.Reach.invariant (I := ThreadsInv cfg) ?_ ?_ h
  · rintro w ⟨hsched, hpc, hprod, hcons, hdisp⟩
    refine ⟨fun c hin => ?_, ?_, ?_, ?_⟩
    · rw [hpc c] at hin
      cases hin
    · rw [hpc]
      exact holds_outside (.init hsched) rfl
    · rw [hpc]
      refine ⟨?_, ?_, nofun⟩
      · rw [hdisp, hprod, List.take_nil]
      · rw [hcons]
        exact Nat.zero_le _
    · rw [hprod]
      exact nofun
  · intro w act w' _ hinv _ hstep
    cases act with
    | produce msg =>
        obtain ⟨hmsg, rfl⟩ := hstep
        exact hinv.produce hmsg
    | run c r => exact hinv.threadStep (threadStep_cases hstep.2)

end Inv

/-! ## What the threads keep to -/

section Results

variable {cfg : Config} {agents : Set CpuId} {w w' : World}

/-- The scheduler is on its way to a state that it reaches by whole
operations, and while no agent is inside it is in one. -/
theorem threads_serializable (h : ThreadsReachable cfg agents w) :
    (∀ s', (w.pc w.sched.globalCpuid).finish cfg w.sched = .ok ((), s') →
      Reachable cfg s') ∧
    ((w.pc w.sched.globalCpuid).inside = false → Reachable cfg w.sched) := by
  have hholds := (threadsInv_of_reachable h).holds
  exact ⟨hholds.serial, fun hout => hholds.reachable (Pc.finish_outside hout)⟩

/-- Only the thread inside the global branch changes the tables. -/
theorem ThreadsInv.sched_of_step {act : Action} (h : ThreadsInv cfg w)
    (hstep : (agentThreads cfg agents).step w act w')
    (hsched : w'.sched ≠ w.sched) :
    ∃ r, act = .run w.sched.globalCpuid r ∧
      (w.pc w.sched.globalCpuid).inside = true := by
  cases act with
  | produce msg =>
      obtain ⟨-, rfl⟩ := hstep
      exact absurd rfl hsched
  | run c r =>
      have hin : (w.pc c).inside = true := by
        cases threadStep_cases hstep.2 with
        | sched _ hs =>
            by_contra hout
            exact hsched (hs.outside_cases (by simpa using hout)).1
        | message | drained | consumed => exact absurd rfl hsched
        | dispatched hpc _ => rw [hpc]; rfl
      have hc := h.holder c hin
      rw [← hc]
      exact ⟨r, rfl, hin⟩

/-- A step dispatches nothing, or the message after the last one. -/
theorem ThreadsInv.dispatched_of_step {act : Action} (h : ThreadsInv cfg w)
    (hstep : (agentThreads cfg agents).step w act w') :
    w'.dispatched = w.dispatched ∨
      ∃ msg, w.produced[w.dispatched.length]? = some msg ∧
        w'.dispatched = w.dispatched ++ [msg] ∧
        perform cfg msg w.sched = .ok ((), w'.sched) := by
  cases act with
  | produce msg =>
      obtain ⟨-, rfl⟩ := hstep
      exact Or.inl rfl
  | run c r =>
      cases threadStep_cases hstep.2 with
      | sched | message | drained | consumed => exact Or.inl rfl
      | @dispatched msg s' hpc hperf =>
          have hc := h.holder c (by rw [hpc]; rfl)
          have hdrain := h.drain
          rw [← hc, hpc] at hdrain
          have hlen : w.dispatched.length = w.consumed := by
            rw [hdrain.dispatched, List.length_take]
            exact Nat.min_eq_left hdrain.bound
          refine Or.inr ⟨msg, ?_, rfl, hperf⟩
          rw [hlen]
          exact hdrain.offered msg rfl

/-- The drain loop ends when there is nothing left to dispatch. -/
theorem ThreadsInv.drained {c : CpuId} {r : Reads} (h : ThreadsInv cfg w)
    (hstep : Agent.threadStep cfg r c w = .ok w') (hpc : w.pc c = .peek) :
    (∃ msg, w'.pc c = .dispatch msg) ∨ w.dispatched = w.produced := by
  have hdrain := h.drain
  rw [← h.holder c (by rw [hpc]; rfl), hpc] at hdrain
  cases threadStep_cases hstep with
  | sched hpc' _ =>
      rw [hpc] at hpc'
      cases hpc'
  | @message msg _ _ => exact Or.inl ⟨msg, Function.update_self c _ _⟩
  | drained _ hmsg =>
      refine Or.inr (hdrain.dispatched.trans (List.take_of_length_le ?_))
      exact List.getElem?_eq_none_iff.mp hmsg
  | dispatched hpc' _ | consumed hpc' => cases hpc.symm.trans hpc'

/-- At most one agent is in the global branch; no other changes the tables;
and the messages are dispatched one by one in the order of the channel, all
of them before the drain loop ends. -/
theorem one_agent_schedules (h : ThreadsReachable cfg agents w) :
    (∀ c d, (w.pc c).inside = true → (w.pc d).inside = true → c = d) ∧
    (∀ act w', (agentThreads cfg agents).step w act w' → w'.sched ≠ w.sched →
      ∃ r, act = .run w.sched.globalCpuid r ∧
        (w.pc w.sched.globalCpuid).inside = true) ∧
    w.dispatched <+: w.produced ∧
    (∀ act w', (agentThreads cfg agents).step w act w' →
      w'.dispatched = w.dispatched ∨
        ∃ msg, w.produced[w.dispatched.length]? = some msg ∧
          w'.dispatched = w.dispatched ++ [msg] ∧
          perform cfg msg w.sched = .ok ((), w'.sched)) ∧
    (∀ c r w', threadStep cfg r c w = .ok w' → w.pc c = .peek →
      (∃ msg, w'.pc c = .dispatch msg) ∨ w.dispatched = w.produced) := by
  have hinv := threadsInv_of_reachable h
  refine ⟨?_, ?_, ?_, ?_, ?_⟩
  · intro c d hc hd
    exact (hinv.holder c hc).trans (hinv.holder d hd).symm
  · exact fun act w' hstep => hinv.sched_of_step hstep
  · rw [hinv.drain.dispatched]
    exact List.take_prefix _ _
  · exact fun act w' hstep => hinv.dispatched_of_step hstep
  · exact fun c r w' hstep => hinv.drained hstep

end Results

/-- Let the threads take steps one after the other. -/
def runThreads (cfg : Config) :
    List (CpuId × Reads) → World → Except Abort World
  | [], w => .ok w
  | (c, r) :: steps, w => do
      let w ← threadStep cfg r c w
      runThreads cfg steps w

theorem reach_runThreads {cfg : Config} {agents : Set CpuId}
    {steps : List (CpuId × Reads)} {w w' : World}
    (hw : ThreadsReachable cfg agents w)
    (hagents : ∀ step ∈ steps, step.1 ∈ agents)
    (h : runThreads cfg steps w = .ok w') : ThreadsReachable cfg agents w' := by
  induction steps generalizing w with
  | nil =>
      cases h
      exact hw
  | cons step steps ih =>
      obtain ⟨c, r⟩ := step
      rw [runThreads] at h
      cases hstep : threadStep cfg r c w with
      | error e =>
          rw [hstep] at h
          cases h
      | ok w₁ =>
          rw [hstep] at h
          have hc := hagents (c, r) List.mem_cons_self
          exact ih (.step (a := .run c r) hw trivial ⟨hc, hstep⟩)
            (fun step hmem => hagents step (List.mem_cons_of_mem _ hmem)) h

/-- What a thread reads when nothing stands in its way. -/
def calmReads (boostedPriority : Bool) : Reads :=
  ⟨false, boostedPriority, calmMigration, calmRound⟩

/-- The agent of CPU 0 hands over while a message waits, and is not done with
the migration when the agent of CPU 1 has dispatched it. -/
theorem one_agent_schedules_migrated :
    ∃ w, ThreadsReachable twoCpus {c | c < 2} w ∧ w.pc 0 = .ping 1 ∧
      (w.pc 1).inside = true ∧ w.dispatched.length = 1 ∧
      w.dispatched <+: w.produced := by
  let start : World := ⟨twoCpusStart, fun _ => .head, 0, [], 0, []⟩
  let msg := newTask 0 true true "EngineThread/0"
  have hstart : ThreadsReachable twoCpus {c | c < 2}
      { start with produced := [msg] } :=
    .step (a := .produce msg) (.init ⟨twoCpusStart_init, fun _ => rfl, rfl, rfl,
      rfl⟩) trivial ⟨rfl, rfl⟩
  have hrun : ∃ w, runThreads twoCpus
      (List.replicate 8 (0, calmReads true) ++
        List.replicate 4 (1, calmReads false))
      { start with produced := [msg] } = .ok w ∧ w.pc 0 = .ping 1 ∧
      (w.pc 1).inside = true ∧ w.dispatched.length = 1 :=
    ⟨_, rfl, rfl, rfl, rfl⟩
  obtain ⟨w, hrun, hping, hin, hlen⟩ := hrun
  have hreach := reach_runThreads hstart (by simp) hrun
  exact ⟨w, hreach, hping, hin, hlen, (one_agent_schedules hreach).2.2.1⟩

end GhostDataplane.Agent
