import GhostDataplane.Engine.Address
import GhostDataplane.Engine.Coprocessor
import Mathlib.Algebra.Order.Ring.Rat

/-!
# Loading the rule file

`setup_rules` walks the children of the parsed file and makes one rule of
each. The file is what cJSON made of it, a tree of items. An item has a name
if it is in an object, and carries its value in three fields: `child`, the
first item of an array or an object; `valuestring`, which is NULL unless the
item is a string; and `valueint`, which a number sets to its integral part, as
far as an `int` goes, and which is 0 otherwise, but 1 for `true`.

What `malloc` returns is not initialised. `malloced` is what stands in the
memory of a rule before it is filled; an address that cannot be parsed leaves
it there. `malloc` itself is taken to succeed.
-/

namespace GhostDataplane.Engine

open GhostDataplane.Lib

/-! ## cJSON -/

/-- The values of `strtod`. -/
inductive Double where
  | finite (q : Rat)
  | infinity (negative : Bool)

/-- An item without its name, which its parent knows. -/
inductive CJson where
  | null
  | bool (b : Bool)
  | string (s : CString)
  | number (valuedouble : Double)
  | array (items : List CJson)
  | object (items : List (CString × CJson))

/-- `INT_MAX`. -/
def intMax : Int := 0x7FFFFFFF

/-- `INT_MIN`. -/
def intMin : Int := -0x80000000

/-- What `parse_number` stores in `valueint`. -/
def Double.valueInt : Double → Int
  | .infinity negative => if negative then intMin else intMax
  | .finite q =>
      if q ≥ intMax then intMax
      else if q ≤ intMin then intMin
      else q.num.tdiv q.den

namespace CJson

/-- The list that `child` points to, each item with its name. -/
def child : CJson → List (Option CString × CJson)
  | .array items => items.map fun item => (none, item)
  | .object items => items.map fun item => (some item.1, item.2)
  | _ => []

def valueString : CJson → Option CString
  | .string s => some s
  | _ => none

def valueInt : CJson → Int
  | .number d => d.valueInt
  | .bool true => 1
  | _ => 0

/-- The children, without their names. -/
def children (item : CJson) : List CJson := item.child.map Prod.snd

end CJson

/-- `case_insensitive_strcmp`, of a name and a string that may be NULL: are
they equal? -/
def caseInsensitiveEq (name : String) (string : Option CString) : Bool :=
  match string with
  | none => false
  | some s => name.toList.map Char.toLower == s.chars.map Char.toLower

/-- `cJSON_GetObjectItem`. -/
def cJSONGetObjectItem (object : CJson) (name : String) : Option CJson :=
  (object.child.find? fun item => caseInsensitiveEq name item.1).map Prod.snd

/-! ## `setup_rules` -/

/-- Why `rte_exit` was called. -/
inductive RteExit where
  /-- The rule file could not be parsed, or was not found. -/
  | rulesFile
  /-- `IP not found/invalid`. -/
  | ip
  /-- `Depth not found/invalid`. -/
  | depth
  /-- `Action not found/invalid`. -/
  | action
  /-- `Coprocessor setup failed.` -/
  | coprocessorSetup
deriving DecidableEq

/-- What the C library does in one `setup_rules`. -/
structure RulesEnv where
  /-- `src_ip` in the memory of the rule with this index, as `malloc` left
  it. -/
  malloced : Nat → UInt32
  /-- What `sscanf` stores for a number that does not fit. -/
  unrepresentable : Numeral → Nat

/-- `fw_config_get_item_count`. -/
def fwConfigGetItemCount (config : Option CJson) : Nat :=
  match config with
  | none => 0
  | some root => root.children.length

/-- The conversion of an `int` to `uint8_t`. -/
def toUInt8 (v : Int) : UInt8 := UInt8.ofNat (v % 256).toNat

/-- One turn of the loop of `setup_rules`. -/
def readRule (env : RulesEnv) (ruleIdx : Nat) (rulesJson : CJson) :
    Except RteExit FwRule :=
  match cJSONGetObjectItem rulesJson "ip", cJSONGetObjectItem rulesJson "depth",
    cJSONGetObjectItem rulesJson "action" with
  | none, _, _ => .error .ip
  | some _, none, _ => .error .depth
  | some _, some _, none => .error .action
  | some rulesIp, some depth, some action =>
      -- The result of `fw_pkt_parse_ip` is not looked at.
      let srcIp := env.malloced ruleIdx
      let (_, dest) :=
        fwPktParseIp env.unrepresentable rulesIp.valueString (some srcIp)
      .ok ⟨dest.getD srcIp, toUInt8 depth.valueInt, toUInt8 action.valueInt⟩

/-- The loop of `setup_rules`, from the rule with index `ruleIdx` on. -/
def readRules (env : RulesEnv) :
    (ruleIdx : Nat) → List CJson → Except RteExit (List FwRule)
  | _, [] => .ok []
  | ruleIdx, rulesJson :: next =>
      match readRule env ruleIdx rulesJson with
      | .error e => .error e
      | .ok rule =>
          match readRules env (ruleIdx + 1) next with
          | .error e => .error e
          | .ok rules => .ok (rule :: rules)

/-- The rules that `setup_rules` makes of the parsed file. -/
def rulesOf (env : RulesEnv) (rulesJson : Option CJson) :
    Except RteExit (List FwRule) :=
  match rulesJson with
  | none => .error .rulesFile
  | some root => readRules env 0 root.children

/-- `setup_rules` on the parsed file. The number of rules is counted before
they are read. -/
def setupRulesFrom (env : RulesEnv) (rulesJson : Option CJson) (g : Globals) :
    Except RteExit (RuleArray × Globals) :=
  match rulesOf env rulesJson with
  | .error e => .error e
  | .ok file =>
      let (array, g) := setupRules file g
      .ok (array, { g with numRules := fwConfigGetItemCount rulesJson })

/-! ## Starting a coprocessor -/

/-- `coprocessor_setup` on the parsed file. -/
def coprocessorSetupFrom (rulesEnv : RulesEnv) (env : LpmEnv)
    (rulesJson : Option CJson) (g : Globals) : Except RteExit (Int × Globals) :=
  match setupRulesFrom rulesEnv rulesJson g with
  | .error e => .error e
  | .ok (rules, g) =>
      let (_, lpmTbl) :=
        lpmSetup env ((rules.entries.take g.numRules).map Prod.snd)
      .ok (0, { g with lpmTbl := lpmTbl })

/-- The beginning of `main_loop` on the core of a coprocessor. -/
def startCoprocessor (rulesEnv : RulesEnv) (env : LpmEnv)
    (rulesJson : Option CJson) (g : Globals) : Except RteExit Globals :=
  match coprocessorSetupFrom rulesEnv env rulesJson g with
  | .error e => .error e
  | .ok (ret, g) => if ret ≠ 0 then .error .coprocessorSetup else .ok g

end GhostDataplane.Engine
