import GhostDataplane.Agent.Callbacks

/-!
# The cgroup watcher

`ScrapeCgroups` walks the hierarchy of control groups and moves the tasks that
a rule asks for into the ghOSt scheduling class. A rule is a pair of patterns,
one for the path of the control group and one for the name of the task; the
rules come from a hash map and are listed here in the order in which the map
iterates over them.

The tree is what the file system shows: each directory with the thread
identifiers in its `tasks` file, if there is one, and its subdirectories in the
order in which they are iterated over. Names do not change while the tree is
walked, and whether a thread can enter a scheduling class does not either.
`attempts` records the threads for which the kernel was asked to change the
class.
-/

namespace GhostDataplane.Agent

open GhostDataplane.Lib

abbrev Tid := Nat

/-- The scheduling classes: `SCHED_GHOST`, and the others by number. -/
inductive Policy where
  | ghost
  | other (n : Nat)
deriving DecidableEq

/-- A directory with its name, the contents of its `tasks` file and its
subdirectories. -/
inductive Directory where
  | mk (name : String) (tasks : Option (List Tid)) (subdirs : List Directory)

def Directory.name : Directory → String
  | ⟨name, _, _⟩ => name

/-- `containers_to_tasks_rules`: pairs of a container pattern and a task name
pattern. -/
abbrev Rules := List (String × String)

/-- What the kernel knows. -/
structure Procs where
  /-- `sched_getscheduler`. -/
  policy : Tid → Policy
  attempts : List Tid

/-- The kernel's side of a scrape. -/
structure ScrapeEnv where
  /-- `GetTaskName`. -/
  taskName : Tid → String
  /-- Does `SchedTaskEnterGhost` return 0? -/
  schedTaskEnterGhost : Tid → Bool
  /-- Does `sched_setscheduler` return 0? -/
  schedSetscheduler : Tid → Policy → Bool

/-- The `CHECK_EQ` of `MoveToScheduler`. -/
inductive ScrapeFailure where
  | policyEq
deriving DecidableEq

abbrev Scrape := Checked Procs ScrapeFailure

/-- `kCgroupPathPrefix`. -/
def kCgroupPathPrefix : String := "/sys/fs/cgroup/cpu"

/-- `string_view::substr` with one argument. -/
def substr (s : String) (pos : Nat) :
    String := String.ofList (s.toList.drop pos)

/-- `MoveToScheduler`. -/
def moveToScheduler (env : ScrapeEnv) (tid : Tid) (scheduler : Policy) :
    Scrape Bool := do
  let procs ← Checked.get
  if procs.policy tid = scheduler then pure false
  else
    Checked.modify fun s => { s with attempts := s.attempts ++ [tid] }
    let ret :=
      if scheduler = .ghost then env.schedTaskEnterGhost tid
      else env.schedSetscheduler tid scheduler
    if ret then
      Checked.modify fun s =>
        { s with policy := Function.update s.policy tid scheduler }
      let procs ← Checked.get
      Checked.check (procs.policy tid = scheduler) .policyEq
      pure true
    else pure false

/-- The test on the name of a task. -/
def namePattern (env : ScrapeEnv) (pattern : String) (tid : Tid) : Bool :=
  pattern == "*" || strContains (env.taskName tid) pattern

/-- The loop of `MoveTasksToGhost` over the lines of the file. -/
def moveTids (env : ScrapeEnv) (pattern : String) : List Tid → Scrape Nat
  | [] => pure 0
  | tid :: tids =>
      if namePattern env pattern tid then do
        let moved ← moveToScheduler env tid .ghost
        let rest ← moveTids env pattern tids
        pure (moved.toNat + rest)
      else moveTids env pattern tids

/-- `MoveTasksToGhost`. -/
def moveTasksToGhost (env : ScrapeEnv) (tasks : Option (List Tid))
    (pattern : String) : Scrape Nat :=
  match tasks with
  | none => pure 0
  | some tids => moveTids env pattern tids

/-- The loop of `ScrapeDirectory` over the rules. -/
def scrapeRules (env : ScrapeEnv) (cgroupName : String)
    (tasks : Option (List Tid)) : Rules → Scrape Nat
  | [] => pure 0
  | (cgroupPattern, taskNamePattern) :: rules =>
      if strContains cgroupName cgroupPattern then do
        let moved ← moveTasksToGhost env tasks taskNamePattern
        let rest ← scrapeRules env cgroupName tasks rules
        pure (moved + rest)
      else scrapeRules env cgroupName tasks rules

/-- The branch of `ScrapeDirectory` for a rule that names the control group. -/
def scrapeExact (env : ScrapeEnv) (cgroupName : String)
    (tasks : Option (List Tid)) (rules : Rules) : Scrape Nat :=
  match rules.find? fun rule => rule.1 == cgroupName with
  | none => pure 0
  | some (_, taskNamePattern) => moveTasksToGhost env tasks taskNamePattern

mutual

/-- `ScrapeDirectory`. -/
def scrapeDirectory (env : ScrapeEnv) (skipdir : String) (rules : Rules)
    (path : String) : Directory → Scrape Nat
  | ⟨_, tasks, subdirs⟩ =>
      if skipdir = path then pure 0
      else do
        let cgroupName := substr path kCgroupPathPrefix.length
        let exactly ← scrapeExact env cgroupName tasks rules
        let matched ← scrapeRules env cgroupName tasks rules
        let below ← scrapeSubdirs env skipdir rules path subdirs
        pure (exactly + (matched + below))

/-- The loop of `ScrapeDirectory` over the subdirectories. -/
def scrapeSubdirs (env : ScrapeEnv) (skipdir : String) (rules : Rules)
    (path : String) : List Directory → Scrape Nat
  | [] => pure 0
  | dir :: dirs => do
      let moved ← scrapeDirectory env skipdir rules
        (path ++ "/" ++ dir.name) dir
      let rest ← scrapeSubdirs env skipdir rules path dirs
      pure (moved + rest)

end

/-- `ScrapeCgroups`, on the tree below `kCgroupPathPrefix`. -/
def scrapeCgroups (env : ScrapeEnv) (skipdir : String) (rules : Rules)
    (root : Directory) : Scrape Nat :=
  scrapeDirectory env skipdir rules kCgroupPathPrefix root

end GhostDataplane.Agent
