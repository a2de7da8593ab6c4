import GhostDataplane.Engine.ConfigFile
import GhostDataplane.Engine.Json

/-!
# From the file to the rules

`setup_rules` the way it is called, with the name of a file. What
`fw_config_parse_file` has read goes to `cJSON_Parse`, and the rules are taken
from the items of the tree that comes back.

None of the allocations in `setup_rules` is checked, so that one that fails ends
in a store through NULL. Of the memory, `heap` has the blocks of the tree and of
the rules; `json_str` is not among them.

The tree is not returned. When the loop is over the variable that it walks with
is NULL, and `cJSON_Delete` of NULL does nothing.
-/

namespace GhostDataplane.Engine

open GhostDataplane.Lib

/-- Why `setup_rules` does not return. -/
inductive LoadStop where
  /-- The loop that reads the file goes on for ever. -/
  | endless
  /-- A byte is written outside `temp_buf` or `json_str`. -/
  | outside
  | json (fault : JsonFault)
  /-- A store through a NULL that `malloc` returned. -/
  | nullPointer
  | rteExit (why : RteExit)
deriving DecidableEq

/-- `fw_config_parse_file`, with the tree that it returns. -/
def fwConfigParseTree (env : FileEnv) (round : Rat → Double) (limit : Nat)
    (filename : Option CString) (heap : Heap) :
    Except LoadStop (Option Item × Heap) :=
  match fwConfigParseFile env tempBufSize limit filename with
  | none => .error .endless
  | some .null => .ok (none, heap)
  | some .outside => .error .outside
  | some (.parse jsonStr) =>
      match cJSONParse round (CString.ofBuffer jsonStr) heap with
      | .error fault => .error (.json fault)
      | .ok (.error _, heap) => .ok (none, heap)
      | .ok (.ok item, heap) => .ok (some item, heap)

/-- `cJSON_GetObjectItem`, of an item. -/
def getObjectItem (object : Item) (name : String) : Option Item :=
  object.child.find? fun item =>
    caseInsensitiveEq name (item.string.map Prod.snd)

/-- One turn of the loop of `setup_rules`: the block of the rule, and what is
stored in it. -/
def loadRule (env : RulesEnv) (rules : Option Nat) (ruleIdx : Nat)
    (rulesJson : Item) (heap : Heap) :
    Except LoadStop ((Nat × FwRule) × Heap) :=
  match getObjectItem rulesJson "ip", getObjectItem rulesJson "depth",
    getObjectItem rulesJson "action" with
  | none, _, _ => .error (.rteExit .ip)
  | some _, none, _ => .error (.rteExit .depth)
  | some _, some _, none => .error (.rteExit .action)
  | some rulesIp, some depth, some action =>
      match rules, heap.allocate with
      | none, _ | some _, (none, _) => .error .nullPointer
      | some _, (some ptr, heap) =>
          let srcIp := env.malloced ruleIdx
          let (_, dest) := fwPktParseIp env.unrepresentable
            (rulesIp.valuestring.map Prod.snd) (some srcIp)
          .ok ((ptr,
            ⟨dest.getD srcIp, toUInt8 depth.valueint, toUInt8 action.valueint⟩),
            heap)

/-- The loop of `setup_rules`, from the rule with index `ruleIdx` on. -/
def loadRules (env : RulesEnv) (rules : Option Nat) :
    (ruleIdx : Nat) → List Item → Heap →
    Except LoadStop (List (Nat × FwRule) × Heap)
  | _, [], heap => .ok ([], heap)
  | ruleIdx, rulesJson :: next, heap =>
      match loadRule env rules ruleIdx rulesJson heap with
      | .error stop => .error stop
      | .ok (entry, heap) =>
          match loadRules env rules (ruleIdx + 1) next heap with
          | .error stop => .error stop
          | .ok (entries, heap) => .ok (entry :: entries, heap)

/-- `setup_rules`: the array, which may be NULL if it has no entries, and
`*total_rules`. -/
def setupRulesFile (fileEnv : FileEnv) (env : RulesEnv) (round : Rat → Double)
    (limit : Nat) (rulesFile : Option CString) (heap : Heap) :
    Except LoadStop ((Option RuleArray × Nat) × Heap) :=
  match fwConfigParseTree fileEnv round limit rulesFile heap with
  | .error stop => .error stop
  | .ok (none, _) => .error (.rteExit .rulesFile)
  | .ok (some rulesJson, heap) =>
      let numRules := rulesJson.child.length
      let (rules, heap) := heap.allocate
      match loadRules env rules 0 rulesJson.child heap with
      | .error stop => .error stop
      | .ok (entries, heap) =>
          .ok ((rules.map fun ptr => ⟨ptr, entries⟩, numRules), heap)

end GhostDataplane.Engine
