import GhostDataplane.Engine.Firewall
import GhostDataplane.Lib.Machine
import Mathlib.Logic.Function.Basic

/-!
# Set-ups that run at the same time

`Engine.Coprocessor` takes a call of `coprocessor_setup` for one step. In the
engine the coprocessors make these calls on threads of their own, all at once,
and `rules`, `num_rules` and `lpm_tbl` are globals that every set-up writes and
reads again in almost every statement. Here a step is one such statement, and
the steps of the coprocessors may come in any order.

Each set-up reads the rule file for itself. `file` is what there is to be read,
rule by rule, and whether a set-up comes to it is left open at each step: the
loop that reads the file may go on, for ever if it likes, or run over its
buffer; there may be no tree in the end, or an item without one of its fields,
and then `rte_exit` is called; an address may be none, and then it is not
stored. Of the two variables called `rules` the loop of `setup_rules` uses the
global one; what `lpm_setup` gets is a copy, made when `setup_rules` returns.

Memory is a number for each block, and every block is a new one. `malloc` may
return NULL, which nobody looks at. Nothing is stored in what it returns
otherwise. A field of a rule that was never stored is read all the same, and
what the read finds is left open. A pointer that was never stored is not: to go
through it takes the engine down here, as it does to go through NULL, although
on the machine anything may happen. A call of the DPDK library is one step.
-/

namespace GhostDataplane.Engine

open GhostDataplane.Lib

/-! ## Memory -/

/-- A `struct fw_rule` in memory: what has been stored in its fields. -/
structure RuleMemory where
  srcIp : Option UInt32
  depth : Option UInt8
  action : Option UInt8

namespace RuleMemory

/-- A rule as `malloc` returns it. -/
def malloced : RuleMemory := ⟨none, none, none⟩

/-- What a read of the fields finds; `junk` is what stands where nothing was
stored. -/
def read (m : RuleMemory) (junk : FwRule) : FwRule where
  srcIp := m.srcIp.getD junk.srcIp
  depth := m.depth.getD junk.depth
  action := m.action.getD junk.action

/-- Have all fields been stored? -/
def written (m : RuleMemory) : Bool :=
  m.srcIp.isSome && m.depth.isSome && m.action.isSome

end RuleMemory

/-- A pointer in an array of rules. -/
inductive Slot where
  /-- As `malloc` left it. -/
  | unset
  | null
  | rule (addr : Nat)
deriving DecidableEq

/-- The rule that can be come to through the pointer. -/
def Slot.addr : Slot → Option Nat
  | .rule addr => some addr
  | .unset | .null => none

/-- The globals of the firewall, and the memory. -/
structure Shared where
  rules : Option Nat
  numRules : Nat
  lpmTbl : Option Nat
  /-- The pointers in the array at an address, by their index. -/
  slots : Nat → Nat → Slot
  memory : Nat → RuleMemory
  tables : Nat → RteLpm
  /-- The next block. -/
  brk : Nat

namespace Shared

def start : Shared where
  rules := none
  numRules := 0
  lpmTbl := none
  slots _ _ := .unset
  memory _ := .malloced
  tables _ := Lpm.empty
  brk := 0

/-- `rules = malloc(..)`. -/
def mallocArray (s : Shared) (granted : Bool) : Shared :=
  if granted then
    { s with
      rules := some s.brk
      slots := Function.update s.slots s.brk fun _ => .unset
      brk := s.brk + 1 }
  else { s with rules := none }

/-- A store to `array[i]`. -/
def setSlot (s : Shared) (array i : Nat) (slot : Slot) : Shared :=
  { s with
    slots := Function.update s.slots array
      (Function.update (s.slots array) i slot) }

/-- `array[i] = malloc(..)`. -/
def mallocRule (s : Shared) (granted : Bool) (array i : Nat) : Shared :=
  if granted then
    { s with
      memory := Function.update s.memory s.brk .malloced
      brk := s.brk + 1 }.setSlot array i (.rule s.brk)
  else s.setSlot array i .null

/-- The rule that `rules[i]` points to. -/
def ruleAt (s : Shared) (i : Nat) : Option Nat :=
  s.rules.bind fun array => (s.slots array i).addr

/-- A store to a field of the rule at an address. -/
def store (s : Shared) (rule : Nat) (field : RuleMemory → RuleMemory) :
    Shared :=
  { s with memory := Function.update s.memory rule (field (s.memory rule)) }

/-- `lpm_tbl = rte_lpm_create(..)`. -/
def createTable (s : Shared) (create : Bool) : Shared :=
  if create then
    { s with
      lpmTbl := some s.brk
      tables := Function.update s.tables s.brk Lpm.empty
      brk := s.brk + 1 }
  else { s with lpmTbl := none }

/-- `rte_lpm_add(lpm_tbl, ..)`. -/
def addRule (s : Shared) (room : Bool) (r : FwRule) : Int × Shared :=
  let (ret, table) := rteLpmAdd room (s.lpmTbl.map s.tables)
    r.srcIp.toNat r.depth.toNat r.action.toNat
  match s.lpmTbl, table with
  | some addr, some t =>
      (ret, { s with tables := Function.update s.tables addr t })
  | _, _ => (ret, s)

end Shared

/-! ## One set-up -/

/-- What `fw_config_parse_file` comes to in a step. -/
inductive FileRead where
  /-- The loop that reads the file goes on. -/
  | reading
  /-- A byte is written outside `temp_buf` or `json_str`. -/
  | outside
  /-- NULL is returned. -/
  | null
  /-- The tree is returned. -/
  | parsed
deriving DecidableEq

/-- What a statement of a set-up meets with. -/
structure SetupEnv where
  read : FileRead
  /-- The item has an `ip`, a `depth` and an `action`. -/
  fields : Bool
  /-- The string of the item is an address. -/
  parses : Bool
  malloc : Bool
  /-- What is found in fields that were never stored. -/
  junk : FwRule
  /-- A table can be created. -/
  create : Bool
  /-- There is room in the table. -/
  room : Bool

/-- The file is read and has the rules in it. -/
def SetupEnv.loads (env : SetupEnv) : Bool :=
  env.read != .outside && env.read != .null && env.fields

/-- Where a coprocessor is in `coprocessor_setup`. -/
inductive SetupPc where
  /-- At `fw_config_parse_file(rules_file)`. -/
  | readFile
  /-- At `*total_rules = num_rules`. -/
  | storeCount
  /-- At `rules = malloc(..)`. -/
  | mallocArray
  /-- At the head of the loop of `setup_rules`. -/
  | mallocRule (ruleIdx : Nat)
  /-- At `fw_pkt_parse_ip(.., &rules[rule_idx]->src_ip)`. -/
  | storeIp (ruleIdx : Nat)
  /-- At `rules[rule_idx]->depth = ..`. -/
  | storeDepth (ruleIdx : Nat)
  /-- At `rules[rule_idx]->action = ..`. -/
  | storeAction (ruleIdx : Nat)
  /-- At `return rules`. -/
  | returnRules
  /-- At the call of `lpm_setup`, where `num_rules` is read. -/
  | callLpmSetup (rules : Option Nat)
  /-- At `lpm_tbl = rte_lpm_create(..)`. -/
  | createTable (rules : Option Nat) (numRules : Nat)
  /-- At the head of the loop of `lpm_setup`, which prints the rule and adds
  it. -/
  | addRule (rules : Option Nat) (numRules ruleIdx : Nat)
  /-- The result of `lpm_setup` is there, and nobody looks at it. -/
  | finished (ret : Int)
deriving DecidableEq

/-- `fw_pkt_parse_ip(.., &rules[i]->src_ip)`. The field is the first of the
rule, so that the callee notices a NULL. -/
def storeSrcIp (env : SetupEnv) (r : FwRule) (slot : Slot) (s : Shared) :
    Option Shared :=
  match slot with
  | .null => some s
  | .rule addr =>
      if env.parses then
        some (s.store addr fun m => { m with srcIp := some r.srcIp })
      else some s
  | .unset => if env.parses then none else some s

/-- A store to another field of the rule with index `i`, and where it leads. -/
def storeField (file : List FwRule) (i : Nat)
    (field : FwRule → RuleMemory → RuleMemory) (pc : SetupPc) (s : Shared) :
    Option (SetupPc × Shared) :=
  (s.ruleAt i).bind fun rule =>
    (file[i]?).map fun r => (pc, s.store rule (field r))

/-- One statement of `coprocessor_setup`, nothing if it takes the engine
down. -/
def setupStep (file : List FwRule) (env : SetupEnv) :
    SetupPc → Shared → Option (SetupPc × Shared)
  | .readFile, s =>
      match env.read with
      | .reading => some (.readFile, s)
      | .parsed => some (.storeCount, s)
      -- With NULL, `rte_exit` is called.
      | .outside | .null => none
  | .storeCount, s => some (.mallocArray, { s with numRules := file.length })
  | .mallocArray, s => some (.mallocRule 0, s.mallocArray env.malloc)
  | .mallocRule i, s =>
      if i < file.length then
        -- Without one of the fields, `rte_exit` is called.
        if env.fields then
          s.rules.map fun array => (.storeIp i, s.mallocRule env.malloc array i)
        else none
      else some (.returnRules, s)
  | .storeIp i, s =>
      s.rules.bind fun array => (file[i]?).bind fun r =>
        (storeSrcIp env r (s.slots array i) s).map fun s => (.storeDepth i, s)
  | .storeDepth i, s =>
      storeField file i (fun r m => { m with depth := some r.depth })
        (.storeAction i) s
  | .storeAction i, s =>
      storeField file i (fun r m => { m with action := some r.action })
        (.mallocRule (i + 1)) s
  | .returnRules, s => some (.callLpmSetup s.rules, s)
  | .callLpmSetup rules, s => some (.createTable rules s.numRules, s)
  | .createTable rules numRules, s =>
      some (.addRule rules numRules 0, s.createTable env.create)
  | .addRule rules numRules i, s =>
      if i < numRules then
        (rules.bind fun array => (s.slots array i).addr).map fun addr =>
          let (ret, s) := s.addRule env.room ((s.memory addr).read env.junk)
          if ret < 0 then (.finished 1, s)
          else (.addRule rules numRules (i + 1), s)
      else some (.finished 0, s)
  | .finished ret, s => some (.finished ret, s)

/-! ## Several coprocessors -/

/-- The coprocessors in their set-ups. -/
structure Setups where
  shared : Shared
  pc : Nat → SetupPc
  crashed : Bool

def Setups.start : Setups := ⟨.start, fun _ => .readFile, false⟩

/-- Whose turn it is, and what the statement meets with. -/
structure SetupAction where
  lcoreId : Nat
  env : SetupEnv

def Setups.step (file : List FwRule) (w : Setups) (a : SetupAction) : Setups :=
  if w.crashed then w
  else
    match setupStep file a.env (w.pc a.lcoreId) w.shared with
    | none => { w with crashed := true }
    | some (pc, s) =>
        { w with shared := s, pc := Function.update w.pc a.lcoreId pc }

/-- The set-ups of a rule file as a machine. -/
def setups (file : List FwRule) : Machine Setups SetupAction where
  init w := w = Setups.start
  step w a w' := w' = w.step file a

/-- There are `n` coprocessors. -/
def amongFirst (n : Nat) (_ : Setups) (a : SetupAction) : Prop := a.lcoreId < n

/-- No set-up begins while another is under way. -/
def oneAtATime (w : Setups) (a : SetupAction) : Prop :=
  ∀ j, j ≠ a.lcoreId → w.pc j = .readFile ∨ ∃ ret, w.pc j = .finished ret

/-- The library creates every table that is asked for. -/
def tablesCreated (_ : Setups) (a : SetupAction) : Prop := a.env.create = true

/-- The file is loaded, and there is memory. -/
def provided (_ : Setups) (a : SetupAction) : Prop :=
  a.env.loads = true ∧ a.env.malloc = true

/-- If a rule is added here, have its fields been stored? -/
def SetupPc.readsStored (s : Shared) : SetupPc → Bool
  | .addRule (some array) numRules i =>
      decide (numRules ≤ i) ||
        (s.slots array i).addr.all fun addr => (s.memory addr).written
  | _ => true

/-- No rule is added before all its fields have been stored. -/
def readsStored (w : Setups) (a : SetupAction) : Prop :=
  (w.pc a.lcoreId).readsStored w.shared = true

/-- The state after the actions. -/
def Setups.run (file : List FwRule) (w : Setups) : List SetupAction → Setups
  | [] => w
  | a :: actions => (w.step file a).run file actions

/-- All goes well, and memory is cleared. -/
def SetupEnv.fine : SetupEnv where
  read := .parsed
  fields := true
  parses := true
  malloc := true
  junk := ⟨0, 0, 0⟩
  create := true
  room := true

end GhostDataplane.Engine
