import GhostDataplane.Engine.Firewall

/-!
# Starting and stopping the coprocessors

Every coprocessor thread calls `coprocessor_setup` before its first packet and
`coprocessor_teardown` after its last. A setup reads the rule file into an
array of pointers, one allocation for each rule, and fills the table with it;
a teardown frees the array and what it points to. `file` is what was read,
rule by rule.

The array and the number of rules are globals that all coprocessors share.
`setup_rules` writes the global array; the variable of the same name in
`coprocessor_setup` is a local that receives the result and is forgotten.

Allocations are identities, handed out in their order and never twice. `freed`
records what was passed to `free`, oldest first. A `Fleet` is the shared data
with what each thread has done so far; each call is one step, and who
allocated which array is remembered for the sake of the statements.
-/

namespace GhostDataplane.Engine

/-- What `rules` points to: the array's identity, and for each of its slots
the identity and the contents of the rule. -/
structure RuleArray where
  ptr : Nat
  entries : List (Nat × FwRule)

/-- The globals of the firewall, and the allocator. -/
structure Globals where
  rules : Option RuleArray
  numRules : Nat
  lpmTbl : Option RteLpm
  brk : Nat
  freed : List Nat

/-- One allocation for each rule. -/
def mallocRules (brk : Nat) : List FwRule → List (Nat × FwRule)
  | [] => []
  | rule :: file => (brk, rule) :: mallocRules (brk + 1) file

/-- `setup_rules`, which returns the array and writes `*total_rules`. -/
def setupRules (file : List FwRule) (g : Globals) : RuleArray × Globals :=
  let array : RuleArray := ⟨g.brk, mallocRules (g.brk + 1) file⟩
  (array, { g with
    rules := some array
    numRules := file.length
    brk := g.brk + 1 + file.length })

/-- `coprocessor_setup`. The result of `lpm_setup` is not looked at. -/
def coprocessorSetup (env : LpmEnv) (file : List FwRule) (g : Globals) :
    Int × Globals :=
  let (rules, g) := setupRules file g
  let (_, lpmTbl) := lpmSetup env ((rules.entries.take g.numRules).map Prod.snd)
  (0, { g with lpmTbl := lpmTbl })

/-- What `lpm_teardown` passes to `free`, in this order. -/
def freeList (rules : Option RuleArray) (numRules : Nat) : List Nat :=
  match rules with
  | none => []
  | some array => (array.entries.take numRules).map Prod.fst ++ [array.ptr]

/-- `lpm_teardown`. -/
def lpmTeardown (rules : Option RuleArray) (numRules : Nat) (g : Globals) :
    Globals := { g with freed := g.freed ++ freeList rules numRules }

/-- `coprocessor_teardown`. The globals keep pointing to what was freed. -/
def coprocessorTeardown (g : Globals) : Int × Globals :=
  (0, lpmTeardown g.rules g.numRules g)

/-! ## Many coprocessors -/

/-- What a coprocessor's thread has done. -/
inductive Phase where
  | fresh
  | running
  | stopped
deriving DecidableEq

/-- The coprocessors: the data they share, where each is, and the arrays that
were allocated, with the coprocessor each was allocated for. -/
structure Fleet where
  globals : Globals
  phase : Nat → Phase
  arrays : List (Nat × RuleArray)

/-- Before the first setup. -/
def Fleet.start : Fleet := ⟨⟨none, 0, none, 0, []⟩, fun _ => .fresh, []⟩

/-- A call of coprocessor `i`. -/
inductive Call where
  | setup (i : Nat) (env : LpmEnv) (file : List FwRule)
  | teardown (i : Nat)

def Fleet.call (f : Fleet) : Call → Fleet
  | .setup i env file =>
      { globals := (coprocessorSetup env file f.globals).2
        phase := Function.update f.phase i .running
        arrays := (i, (setupRules file f.globals).1) :: f.arrays }
  | .teardown i =>
      { f with
        globals := (coprocessorTeardown f.globals).2
        phase := Function.update f.phase i .stopped }

def Fleet.calls (f : Fleet) : List Call → Fleet
  | [] => f
  | c :: cs => (f.call c).calls cs

/-- Each coprocessor is set up once, and torn down once after that. -/
def InOrder (f : Fleet) : List Call → Prop
  | [] => True
  | c :: cs =>
      (match c with
      | .setup i _ _ => f.phase i = .fresh
      | .teardown i => f.phase i = .running) ∧ InOrder (f.call c) cs

end GhostDataplane.Engine
