import GhostDataplane.Agent.Cgroups
import Mathlib.Data.Finset.Card

/-!
# What a scrape moves

A scrape is a sequence of calls of `MoveToScheduler`, and which calls they are
does not depend on how they come out. `Tries` puts that down: a computation
tries a list of threads, one after the other, and returns how many of the
calls moved one. The functions of the watcher are taken apart into their lists
once; the rest is about lists of threads, and about who is in the list of the
whole tree.

A thread may come up many times, in the branch for the exact name, in the loop
over the rules and in several directories. Once it is in ghOSt further calls
do nothing and count nothing, so that the order and the repetitions do not
show in the result.
-/

namespace GhostDataplane.Agent

open GhostDataplane.Lib

/-! ## Trying a list of threads -/

section Trying

variable (env : ScrapeEnv)

/-- Does the call move the thread? -/
def moves (tid : Tid) (s : Procs) : Bool :=
  decide (s.policy tid ≠ .ghost) && env.schedTaskEnterGhost tid

/-- The state after the call. -/
def tryMove (tid : Tid) (s : Procs) : Procs where
  policy :=
    if env.schedTaskEnterGhost tid then Function.update s.policy tid .ghost
    else s.policy
  attempts := if s.policy tid = .ghost then s.attempts else s.attempts ++ [tid]

/-- The state after a call for each of the threads. -/
def after : List Tid → Procs → Procs
  | [], s => s
  | tid :: tids, s => after tids (tryMove env tid s)

/-- How many of the calls move a thread. -/
def movedBy : List Tid → Procs → Nat
  | [], _ => 0
  | tid :: tids, s => (moves env tid s).toNat + movedBy tids (tryMove env tid s)

/-- The computation tries these threads. -/
def Tries (m : Scrape Nat) (tids : List Tid) : Prop :=
  ∀ s, m s = .ok (movedBy env tids s, after env tids s)

variable {env} {tid : Tid} {tids xs ys : List Tid} {s : Procs}

theorem moveToScheduler_eq :
    moveToScheduler env tid .ghost s =
      .ok (moves env tid s, tryMove env tid s) := by
  unfold moveToScheduler moves tryMove
  rw [Checked.get_bind]
  by_cases hghost : s.policy tid = .ghost
  · have hsame : Function.update s.policy tid .ghost = s.policy := by
      rw [← hghost, Function.update_eq_self]
    simp only [hsame, ite_self, hghost, ne_eq, not_true,
      decide_false, Bool.false_and]
    rfl
  · simp only [if_neg hghost, if_true]
    cases henter : env.schedTaskEnterGhost tid with
    | true =>
        simp only [if_true, Checked.modify_bind, Checked.get_bind]
        rw [Checked.check_bind (by simp)]
        simp [hghost]
        rfl
    | false =>
        simp [hghost]
        rfl

theorem tryMove_policy (t : Tid) :
    (tryMove env tid s).policy t =
      if t = tid ∧ env.schedTaskEnterGhost t = true then .ghost
      else s.policy t := by
  by_cases ht : t = tid
  · subst ht
    cases henter : env.schedTaskEnterGhost t <;> simp [tryMove, henter]
  · cases henter : env.schedTaskEnterGhost tid <;> simp [tryMove, henter, ht]

theorem after_append :
    after env (xs ++ ys) s = after env ys (after env xs s) := by
  induction xs generalizing s with
  | nil => rfl
  | cons x xs ih => exact ih

theorem movedBy_append :
    movedBy env (xs ++ ys) s =
      movedBy env xs s + movedBy env ys (after env xs s) := by
  induction xs generalizing s with
  | nil => exact (Nat.zero_add _).symm
  | cons x xs ih =>
      simp only [List.cons_append, movedBy, after, ih]
      omega

theorem tries_nil : Tries env (pure 0) [] := fun _ => rfl

theorem Tries.seq {m k : Scrape Nat} (hm : Tries env m xs)
    (hk : Tries env k ys) :
    Tries env (m >>= fun a => k >>= fun b => pure (a + b)) (xs ++ ys) := by
  intro s
  rw [Checked.bind_eq (hm s), Checked.bind_eq (hk _),
    movedBy_append, after_append]
  rfl

/-- A thread that was tried is in ghOSt if it can be. -/
theorem after_policy (t : Tid) :
    (after env tids s).policy t =
      if t ∈ tids ∧ env.schedTaskEnterGhost t = true then .ghost
      else s.policy t := by
  induction tids generalizing s with
  | nil => simp [after]
  | cons x tids ih =>
      rw [after, ih, tryMove_policy]
      by_cases htx : t = x
      · cases henter : env.schedTaskEnterGhost x <;> simp [htx, henter]
      · simp [htx]

/-- The kernel is asked for the threads that are not in ghOSt yet. -/
theorem after_attempts :
    ∃ new, (after env tids s).attempts = s.attempts ++ new ∧
      ∀ t, t ∈ new ↔ t ∈ tids ∧ s.policy t ≠ .ghost := by
  induction tids generalizing s with
  | nil => exact ⟨[], (List.append_nil _).symm, by simp⟩
  | cons x tids ih =>
      obtain ⟨new, hnew, hmem⟩ := ih (s := tryMove env x s)
      by_cases hghost : s.policy x = .ghost
      · refine ⟨new, ?_, fun t => ?_⟩
        · rw [after, hnew, tryMove, if_pos hghost]
        · rw [hmem, tryMove_policy, List.mem_cons]
          by_cases htx : t = x
          · simp [htx, hghost]
          · simp [htx]
      · refine ⟨x :: new, ?_, fun t => ?_⟩
        · rw [after, hnew, tryMove, if_neg hghost, List.append_assoc]
          rfl
        · rw [List.mem_cons, hmem, tryMove_policy, List.mem_cons]
          by_cases htx : t = x
          · simp [htx, hghost]
          · simp [htx]

/-- Every thread that changes its class is counted once. -/
theorem movedBy_card :
    ∃ changed : Finset Tid,
      (∀ t, t ∈ changed ↔ (after env tids s).policy t ≠ s.policy t) ∧
      movedBy env tids s = changed.card := by
  induction tids generalizing s with
  | nil => exact ⟨∅, by simp [after], rfl⟩
  | cons x tids ih =>
      obtain ⟨changed, hmem, hcard⟩ := ih (s := tryMove env x s)
      cases hmoves : moves env x s with
      | true =>
          simp only [moves, Bool.and_eq_true, decide_eq_true_eq] at hmoves
          -- From now on the thread is in ghOSt and does not change again.
          have hghost : (tryMove env x s).policy x = .ghost := by
            rw [tryMove_policy, if_pos ⟨rfl, hmoves.2⟩]
          have hstays :
              (after env tids (tryMove env x s)).policy x = .ghost := by
            rw [after_policy, hghost, ite_self]
          have hnot : x ∉ changed := by
            rw [hmem, hghost, hstays]
            exact fun h => h rfl
          refine ⟨insert x changed, fun t => ?_, ?_⟩
          · rw [Finset.mem_insert, hmem, after]
            by_cases htx : t = x
            · subst htx
              simp [hstays, Ne.symm hmoves.1]
            · simp [htx, tryMove_policy]
          · rw [movedBy, hcard, Finset.card_insert_of_notMem hnot]
            simp [moves, hmoves.1, hmoves.2]
            omega
      | false =>
          have hsame : (tryMove env x s).policy = s.policy := by
            funext t
            rw [tryMove_policy]
            split
            next h =>
                obtain ⟨rfl, henter⟩ := h
                simp only [moves, henter, Bool.and_true,
                  decide_eq_false_iff_not, ne_eq, not_not] at hmoves
                exact hmoves.symm
            next => rfl
          refine ⟨changed, fun t => ?_, ?_⟩
          · rw [hmem, after, hsame]
          · rw [movedBy, hcard, hmoves]
            exact Nat.zero_add _

end Trying

/-! ## Which threads a scrape tries -/

section Tried

variable (env : ScrapeEnv) (skipdir : String) (rules : Rules)

/-- The threads of a control group that a pattern for names selects. -/
def triedTids (tasks : Option (List Tid)) (pattern : String) : List Tid :=
  (tasks.getD []).filter (namePattern env pattern)

/-- The threads tried by the loop over the rules. -/
def triedRules (cgroupName : String) (tasks : Option (List Tid)) : List Tid :=
  (rules.filter fun rule => strContains cgroupName rule.1).flatMap fun rule =>
    triedTids env tasks rule.2

/-- The threads tried because a rule names the control group. -/
def triedExact (cgroupName : String) (tasks : Option (List Tid)) : List Tid :=
  (rules.find? fun rule => rule.1 == cgroupName).toList.flatMap fun rule =>
    triedTids env tasks rule.2

mutual

/-- The threads tried in a directory and below it. -/
def triedDirectory (path : String) : Directory → List Tid
  | ⟨_, tasks, subdirs⟩ =>
      if skipdir = path then []
      else
        let cgroupName := substr path kCgroupPathPrefix.length
        triedExact env rules cgroupName tasks ++
          (triedRules env rules cgroupName tasks ++ triedSubdirs path subdirs)

/-- The threads tried in the subdirectories. -/
def triedSubdirs (path : String) : List Directory → List Tid
  | [] => []
  | dir :: dirs =>
      triedDirectory (path ++ "/" ++ dir.name) dir ++ triedSubdirs path dirs

end

variable {env skipdir rules} {path cgroupName pattern : String}
  {tasks : Option (List Tid)} {tids : List Tid}

theorem moveTids_tries :
    Tries env (moveTids env pattern tids)
      (tids.filter (namePattern env pattern)) := by
  induction tids with
  | nil => exact tries_nil
  | cons tid tids ih =>
      rw [moveTids, List.filter_cons]
      split
      next h =>
          intro s
          rw [Checked.bind_eq moveToScheduler_eq, Checked.bind_eq (ih _)]
          rfl
      next h => exact ih

theorem moveTasksToGhost_tries :
    Tries env (moveTasksToGhost env tasks pattern)
      (triedTids env tasks pattern) := by
  cases tasks with
  | none => exact tries_nil
  | some tids => exact moveTids_tries

theorem scrapeRules_tries :
    Tries env (scrapeRules env cgroupName tasks rules)
      (triedRules env rules cgroupName tasks) := by
  induction rules with
  | nil => exact tries_nil
  | cons rule rules ih =>
      obtain ⟨cgroupPattern, taskNamePattern⟩ := rule
      rw [scrapeRules, triedRules, List.filter_cons]
      split
      next h => exact moveTasksToGhost_tries.seq ih
      next h => exact ih

theorem scrapeExact_tries :
    Tries env (scrapeExact env cgroupName tasks rules)
      (triedExact env rules cgroupName tasks) := by
  unfold scrapeExact triedExact
  cases rules.find? fun rule => rule.1 == cgroupName with
  | none => exact tries_nil
  | some rule =>
      rw [Option.toList_some, List.flatMap_singleton]
      exact moveTasksToGhost_tries

mutual

/-- The functions of the watcher try the threads of their list. -/
theorem scrapeDirectory_tries (path : String) :
    ∀ dir, Tries env (scrapeDirectory env skipdir rules path dir)
      (triedDirectory env skipdir rules path dir)
  | ⟨_, tasks, subdirs⟩ => by
      rw [scrapeDirectory, triedDirectory]
      split
      next h => exact tries_nil
      next h =>
          intro s
          rw [Checked.bind_eq (scrapeExact_tries s),
            Checked.bind_eq (scrapeRules_tries _),
            Checked.bind_eq (scrapeSubdirs_tries path subdirs _)]
          simp only [movedBy_append, after_append]
          rfl

theorem scrapeSubdirs_tries (path : String) :
    ∀ dirs, Tries env (scrapeSubdirs env skipdir rules path dirs)
      (triedSubdirs env skipdir rules path dirs)
  | [] => by
      rw [scrapeSubdirs, triedSubdirs]
      exact tries_nil
  | dir :: dirs => by
      rw [scrapeSubdirs, triedSubdirs]
      exact (scrapeDirectory_tries _ dir).seq (scrapeSubdirs_tries path dirs)

end

end Tried

/-! ## Who is in the list of the tree -/

/-- The directory `e` with the path `p` is in the tree of `d` at `path`, and
neither it nor a directory above it is `skipdir`. -/
inductive Unskipped (skipdir : String) :
    String → Directory → String → Directory → Prop
  | self {path : String} {d : Directory} (hskip : skipdir ≠ path) :
      Unskipped skipdir path d path d
  | child {path p name : String} {tasks : Option (List Tid)}
      {subdirs : List Directory} {d e : Directory} (hskip : skipdir ≠ path)
      (hmem : d ∈ subdirs)
      (hchild : Unskipped skipdir (path ++ "/" ++ d.name) d p e) :
      Unskipped skipdir path ⟨name, tasks, subdirs⟩ p e

/-- The rule asks for the thread when it is in the control group with this
path. -/
def RuleAsks (env : ScrapeEnv) (path : String) (t : Tid)
    (rule : String × String) : Prop :=
  strContains (substr path kCgroupPathPrefix.length) rule.1 = true ∧
    (rule.2 = "*" ∨ strContains (env.taskName t) rule.2 = true)

/-- The thread is listed in a directory of the tree that is not skipped, and a
rule asks for it there. -/
def Wanted (env : ScrapeEnv) (skipdir : String) (rules : Rules) (path : String)
    (root : Directory) (t : Tid) : Prop :=
  ∃ p name tasks subdirs,
    Unskipped skipdir path root p ⟨name, tasks, subdirs⟩ ∧
    t ∈ tasks.getD [] ∧ ∃ rule ∈ rules, RuleAsks env p t rule

section Membership

variable {env : ScrapeEnv} {skipdir : String} {rules : Rules} {path : String}
  {tasks : Option (List Tid)} {t : Tid}

theorem mem_triedTids {pattern : String} :
    t ∈ triedTids env tasks pattern ↔
      t ∈ tasks.getD [] ∧
        (pattern = "*" ∨ strContains (env.taskName t) pattern = true) := by
  simp [triedTids, namePattern]

/-- The branch for the exact name tries only what the loop tries again: a
string contains itself. -/
theorem mem_triedRules_of_mem_triedExact {cgroupName : String}
    (h : t ∈ triedExact env rules cgroupName tasks) :
    t ∈ triedRules env rules cgroupName tasks := by
  obtain ⟨rule, hrule, ht⟩ := List.mem_flatMap.mp h
  have hfind := Option.mem_toList.mp hrule
  have hname : rule.1 = cgroupName := by simpa using List.find?_some hfind
  refine List.mem_flatMap.mpr ⟨rule, List.mem_filter.mpr ⟨?_, ?_⟩, ht⟩
  · exact List.mem_of_find?_eq_some hfind
  · rw [hname, strContains, decide_eq_true_eq]

theorem mem_triedRules :
    t ∈ triedRules env rules (substr path kCgroupPathPrefix.length) tasks ↔
      t ∈ tasks.getD [] ∧ ∃ rule ∈ rules, RuleAsks env path t rule := by
  simp only [triedRules, List.mem_flatMap, List.mem_filter,
    mem_triedTids, RuleAsks]
  constructor
  · rintro ⟨rule, ⟨hrule, hname⟩, ht, hpattern⟩
    exact ⟨ht, rule, hrule, hname, hpattern⟩
  · rintro ⟨ht, rule, hrule, hname, hpattern⟩
    exact ⟨rule, ⟨hrule, hname⟩, ht, hpattern⟩

/-- What is wanted in a tree is wanted at its root or in a subtree. -/
theorem wanted_mk {name : String} {subdirs : List Directory}
    (hskip : skipdir ≠ path) :
    Wanted env skipdir rules path ⟨name, tasks, subdirs⟩ t ↔
      (t ∈ tasks.getD [] ∧ ∃ rule ∈ rules, RuleAsks env path t rule) ∨
      ∃ d ∈ subdirs, Wanted env skipdir rules (path ++ "/" ++ d.name) d t := by
  constructor
  · rintro ⟨p, _, _, _, hin, hasked⟩
    cases hin with
    | self => exact .inl hasked
    | child _ hmem hchild => exact .inr ⟨_, hmem, p, _, _, _, hchild, hasked⟩
  · rintro (hasked | ⟨d, hmem, p, _, _, _, hin, hasked⟩)
    · exact ⟨path, name, tasks, subdirs, .self hskip, hasked⟩
    · exact ⟨p, _, _, _, .child hskip hmem hin, hasked⟩

theorem not_wanted_skipdir {d : Directory} :
    ¬ Wanted env skipdir rules skipdir d t := by
  rintro ⟨_, _, _, _, hin, _⟩
  cases hin with
  | self hskip => exact hskip rfl
  | child hskip => exact hskip rfl

mutual

theorem mem_triedDirectory (path : String) :
    ∀ dir, t ∈ triedDirectory env skipdir rules path dir ↔
      Wanted env skipdir rules path dir t
  | ⟨name, tasks, subdirs⟩ => by
      rw [triedDirectory]
      split
      next h =>
          subst h
          exact iff_of_false (List.not_mem_nil) not_wanted_skipdir
      next h =>
          rw [wanted_mk h, List.mem_append, List.mem_append,
            mem_triedSubdirs path subdirs, ← mem_triedRules, ← or_assoc,
            or_iff_right_of_imp mem_triedRules_of_mem_triedExact]

theorem mem_triedSubdirs (path : String) :
    ∀ dirs, t ∈ triedSubdirs env skipdir rules path dirs ↔
      ∃ d ∈ dirs, Wanted env skipdir rules (path ++ "/" ++ d.name) d t
  | [] => by simp [triedSubdirs]
  | dir :: dirs => by
      rw [triedSubdirs, List.mem_append, mem_triedDirectory _ dir,
        mem_triedSubdirs path dirs, List.exists_mem_cons_iff]

end

end Membership

/-- A scrape asks the kernel to move exactly the wanted threads that are not in
ghOSt, those that can enter ghOSt end there, no other thread changes its class,
and the count returned is the number of threads that changed it. The rules are
an arbitrary list, so this holds for every order in which the map may be
iterated over. -/
theorem scrape_moves_exactly_wanted (env : ScrapeEnv) (skipdir : String)
    (rules : Rules) (root : Directory) (s : Procs) :
    ∃ moved s', scrapeCgroups env skipdir rules root s = .ok (moved, s') ∧
      (∃ new, s'.attempts = s.attempts ++ new ∧
        ∀ t, t ∈ new ↔
          s.policy t ≠ .ghost ∧
          Wanted env skipdir rules kCgroupPathPrefix root t) ∧
      (∀ t, s'.policy t ≠ s.policy t ↔
        s.policy t ≠ .ghost ∧ env.schedTaskEnterGhost t = true ∧
          Wanted env skipdir rules kCgroupPathPrefix root t) ∧
      (∀ t, s'.policy t ≠ s.policy t → s'.policy t = .ghost) ∧
      ∃ changed : Finset Tid,
        (∀ t, t ∈ changed ↔ s'.policy t ≠ s.policy t) ∧
        moved = changed.card := by
  refine ⟨_, _, scrapeDirectory_tries kCgroupPathPrefix root s, ?_, fun t => ?_,
    fun t => ?_, movedBy_card⟩
  · obtain ⟨new, hnew, hmem⟩ := after_attempts
    exact ⟨new, hnew, fun t => by rw [hmem, mem_triedDirectory, and_comm]⟩
  · rw [after_policy, ← mem_triedDirectory]
    split
    next h => simp [h, eq_comm]
    next h => simpa [and_comm] using fun _ => h
  · rw [after_policy]
    split
    next h => exact fun _ => rfl
    next h => exact fun hne => absurd rfl hne

end GhostDataplane.Agent
