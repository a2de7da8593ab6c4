import GhostDataplane.Engine.Rules
import GhostDataplane.Proofs.Address
import GhostDataplane.Proofs.RuleMemory
import GhostDataplane.Proofs.Verdict
import Mathlib.Data.List.Forall2

/-!
# From the rule file to the rules in force

Two things go wrong between the file and the table, and neither is reported.

Reading a rule checks that its three items are there, and nothing else. What
is there is forced into the fields: an address that is no dotted quad leaves
what the memory held, or is read as another one; a number is cut to its low
byte, and something that is not a number is 0. Rules come out as the file
says exactly if every child has an address and two numbers that fit.

Setting up the table stops at the first rule that cannot be added, and says
so. `coprocessor_setup` does not listen: it returns 0 whatever happened, and
`main_loop` goes on.
-/

namespace GhostDataplane.Engine

open GhostDataplane.Lib

/-- The child has the three items that `setup_rules` looks for. -/
def HasFields (child : CJson) : Prop :=
  ∀ name ∈ ["ip", "depth", "action"], (cJSONGetObjectItem child name).isSome

/-- The item is this number. -/
def IsNumber (item : Option CJson) (n : Nat) : Prop :=
  item = some (.number (.finite n))

theorem IsNumber.unique {item : Option CJson} {n m : Nat}
    (hn : IsNumber item n) (hm : IsNumber item m) : n = m := by
  have h := hn.symm.trans hm
  rw [Option.some_inj, CJson.number.injEq, Double.finite.injEq] at h
  exact_mod_cast h

/-- The rule says what the child says. -/
structure Faithful (child : CJson) (rule : FwRule) : Prop where
  ip : ∃ s a b c d, cJSONGetObjectItem child "ip" = some (.string s) ∧
    DottedQuad s a b c d ∧
    rule.srcIp.toNat = a * 0x1000000 + b * 0x10000 + c * 0x100 + d
  depth : IsNumber (cJSONGetObjectItem child "depth") rule.depth.toNat
  action : IsNumber (cJSONGetObjectItem child "action") rule.action.toNat

/-- The child has a dotted quad and two numbers that fit the fields of a
rule. -/
structure WellFormed (child : CJson) : Prop where
  ip : ∃ s a b c d, cJSONGetObjectItem child "ip" = some (.string s) ∧
    DottedQuad s a b c d
  depth : ∃ n ≤ 255, IsNumber (cJSONGetObjectItem child "depth") n
  action : ∃ n ≤ 255, IsNumber (cJSONGetObjectItem child "action") n

/-! ## One rule -/

section Rule

variable {env : RulesEnv} {i : Nat} {child : CJson} {rule : FwRule}

theorem readRule_ok :
    readRule env i child = .ok rule ↔
      ∃ ip depth action, cJSONGetObjectItem child "ip" = some ip ∧
        cJSONGetObjectItem child "depth" = some depth ∧
        cJSONGetObjectItem child "action" = some action ∧
        rule = ⟨(fwPktParseIp env.unrepresentable ip.valueString
            (some (env.malloced i))).2.getD (env.malloced i),
          toUInt8 depth.valueInt, toUInt8 action.valueInt⟩ := by
  unfold readRule
  split
  · next h => simp [h]
  · next h => simp [h]
  · next h => simp [h]
  · next hip hdepth haction =>
      simp only [hip, hdepth, haction, Option.some_inj, Except.ok.injEq]
      constructor
      · rintro rfl
        exact ⟨_, _, _, rfl, rfl, rfl, rfl⟩
      · rintro ⟨_, _, _, rfl, rfl, rfl, rfl⟩
        rfl

theorem readRule_succeeds_iff :
    (∃ rule, readRule env i child = .ok rule) ↔ HasFields child := by
  simp only [readRule_ok, HasFields, List.forall_mem_cons, List.not_mem_nil,
    false_imp_iff, implies_true, and_true, Option.isSome_iff_exists]
  constructor
  · rintro ⟨rule, ip, depth, action, hip, hdepth, haction, -⟩
    exact ⟨⟨ip, hip⟩, ⟨depth, hdepth⟩, ⟨action, haction⟩⟩
  · rintro ⟨⟨ip, hip⟩, ⟨depth, hdepth⟩, ⟨action, haction⟩⟩
    exact ⟨_, ip, depth, action, hip, hdepth, haction, rfl⟩

/-- A number that fits comes through. -/
theorem toUInt8_valueInt {n : Nat} (h : n ≤ 255) :
    (toUInt8 (CJson.number (.finite n)).valueInt).toNat = n := by
  have hmax : ¬ ((n : Rat) ≥ intMax) := by
    have hlt : (n : Int) < intMax := by
      rw [intMax]
      omega
    exact not_le_of_gt (by exact_mod_cast hlt)
  have hmin : ¬ ((n : Rat) ≤ intMin) := by
    have hlt : intMin < (n : Int) := by
      rw [intMin]
      omega
    exact not_le_of_gt (by exact_mod_cast hlt)
  have hint : (CJson.number (.finite n)).valueInt = n := by
    simp only [CJson.valueInt, Double.valueInt, if_neg hmax, if_neg hmin,
      Rat.num_natCast, Rat.den_natCast, Nat.cast_one, Int.tdiv_one]
  have hmod : ((n : Int) % 256).toNat = n := by omega
  rw [hint, toUInt8, hmod]
  exact UInt8.toNat_ofNat_of_lt' (Nat.lt_succ_of_le h)

theorem Faithful.wellFormed (h : Faithful child rule) : WellFormed child := by
  obtain ⟨s, a, b, c, d, hip, hquad, -⟩ := h.ip
  have hfits : ∀ x : UInt8, x.toNat ≤ 255 :=
    fun x => Nat.le_of_lt_succ x.toNat_lt
  exact ⟨⟨s, a, b, c, d, hip, hquad⟩, ⟨_, hfits _, h.depth⟩,
    ⟨_, hfits _, h.action⟩⟩

theorem WellFormed.faithful (h : WellFormed child)
    (hread : readRule env i child = .ok rule) : Faithful child rule := by
  obtain ⟨s, a, b, c, d, hip, hquad⟩ := h.ip
  obtain ⟨n, hn, hdepth⟩ := h.depth
  obtain ⟨m, hm, haction⟩ := h.action
  obtain ⟨ip, depth, action, hip', hdepth', haction', rfl⟩ :=
    readRule_ok.mp hread
  cases hip.symm.trans hip'
  cases hdepth.symm.trans hdepth'
  cases haction.symm.trans haction'
  obtain ⟨x, hparse, hx⟩ := hquad.parsed env.unrepresentable (env.malloced i)
  refine ⟨⟨s, a, b, c, d, hip, hquad, ?_⟩, ?_, ?_⟩
  · rw [CJson.valueString, hparse]
    exact hx
  · rw [IsNumber, hdepth', toUInt8_valueInt hn]
  · rw [IsNumber, haction', toUInt8_valueInt hm]

end Rule

/-! ## All rules -/

section Rules

variable {env : RulesEnv} {i : Nat} {items : List CJson} {rules : List FwRule}

/-- Both walks go through the same list: one rule for each child. -/
theorem readRules_forall₂ (h : readRules env i items = .ok rules) :
    List.Forall₂ (fun child rule => ∃ k, readRule env k child = .ok rule)
      items rules := by
  induction items generalizing i rules with
  | nil =>
      cases h
      exact .nil
  | cons child items ih =>
      rw [readRules] at h
      split at h
      · cases h
      · next rule hrule =>
          split at h
          · cases h
          · next rest hrest =>
              cases h
              exact .cons ⟨i, hrule⟩ (ih hrest)

theorem readRules_succeeds_iff (env : RulesEnv) (i : Nat) :
    (∃ rules, readRules env i items = .ok rules) ↔
      ∀ child ∈ items, HasFields child := by
  induction items generalizing i with
  | nil => exact iff_of_true ⟨[], rfl⟩ (List.forall_mem_nil _)
  | cons child items ih =>
      rw [List.forall_mem_cons, ← readRule_succeeds_iff, ← ih]
      constructor
      · rintro ⟨rules, h⟩
        rw [readRules] at h
        split at h
        · cases h
        · next rule hrule =>
            split at h
            · cases h
            · next rest hrest => exact ⟨⟨rule, hrule⟩, ⟨rest, hrest⟩⟩
      · rintro ⟨⟨rule, hrule⟩, ⟨rest, hrest⟩⟩
        exact ⟨rule :: rest, by rw [readRules, hrule, hrest]⟩

theorem forall₂_faithful_iff (h : readRules env i items = .ok rules) :
    List.Forall₂ Faithful items rules ↔ ∀ child ∈ items, WellFormed child := by
  constructor
  · intro hall
    have hboth : List.Forall₂ (fun child rule => WellFormed child ∧
        Faithful child rule) items rules :=
      hall.imp fun child rule hf => ⟨hf.wellFormed, hf⟩
    exact ((List.forall₂_and_left _ _).mp hboth).1
  · intro hall
    have hboth := (List.forall₂_and_left _ _).mpr ⟨hall, readRules_forall₂ h⟩
    exact hboth.imp fun child rule ⟨hwf, k, hread⟩ => hwf.faithful hread

theorem readRules_length (h : readRules env i items = .ok rules) :
    rules.length = items.length := (readRules_forall₂ h).length_eq.symm

end Rules

/-! ## The array -/

section Array

variable {env : RulesEnv} {json : Option CJson} {g : Globals}

theorem fwConfigGetItemCount_eq {file : List FwRule}
    (h : rulesOf env json = .ok file) :
    fwConfigGetItemCount json = file.length := by
  cases json with
  | none => cases h
  | some root => exact (readRules_length h).symm

/-- Where the file can be read at all, it is read as a list of rules, and the
rest is the memory. -/
theorem setupRulesFrom_ok {r : RuleArray × Globals} :
    setupRulesFrom env json g = .ok r ↔
      ∃ file, rulesOf env json = .ok file ∧ r = setupRules file g := by
  unfold setupRulesFrom
  cases hfile : rulesOf env json with
  | error e => simp
  | ok file =>
      simp only [fwConfigGetItemCount_eq hfile, Except.ok.injEq]
      constructor
      · rintro rfl
        exact ⟨file, rfl, rfl⟩
      · rintro ⟨_, rfl, rfl⟩
        rfl

end Array

/-- If `setup_rules` returns, the rules are what the file says. -/
def LoadsFaithfully (env : RulesEnv) (root : CJson) (g : Globals) : Prop :=
  ∀ array g', setupRulesFrom env (some root) g = .ok (array, g') →
    g'.numRules = root.children.length ∧
    array.entries.length = root.children.length ∧
    List.Forall₂ Faithful root.children (array.entries.map Prod.snd)

/-- `setup_rules` returns exactly if every child has its three items, and then
with one rule for each child. The rules are what the file says exactly if
every child has a dotted quad and two numbers that fit. -/
theorem loads_faithfully_iff (env : RulesEnv) (root : CJson) (g : Globals) :
    (∀ array g', setupRulesFrom env (some root) g = .ok (array, g') →
      g'.numRules = root.children.length ∧
      array.entries.length = root.children.length) ∧
    ((∃ r, setupRulesFrom env (some root) g = .ok r) ↔
      ∀ child ∈ root.children, HasFields child) ∧
    (LoadsFaithfully env root g ↔
      ((∀ child ∈ root.children, HasFields child) →
        ∀ child ∈ root.children, WellFormed child)) := by
  have hlength : ∀ array g', setupRulesFrom env (some root) g =
      .ok (array, g') →
      g'.numRules = root.children.length ∧
      array.entries.length = root.children.length := by
    intro array g' h
    obtain ⟨file, hfile, hr⟩ := setupRulesFrom_ok.mp h
    cases hr
    have hlen := readRules_length hfile
    exact ⟨hlen, (mallocRules_length _ _).trans hlen⟩
  have hreturns : (∃ r, setupRulesFrom env (some root) g = .ok r) ↔
      ∀ child ∈ root.children, HasFields child := by
    rw [← readRules_succeeds_iff env 0]
    constructor
    · rintro ⟨r, h⟩
      obtain ⟨file, hfile, -⟩ := setupRulesFrom_ok.mp h
      exact ⟨file, hfile⟩
    · rintro ⟨file, hfile⟩
      exact ⟨_, setupRulesFrom_ok.mpr ⟨file, hfile, rfl⟩⟩
  -- In either direction the array is the list of rules that was read.
  have hrules : ∀ array g', setupRulesFrom env (some root) g = .ok (array, g') →
      (List.Forall₂ Faithful root.children (array.entries.map Prod.snd) ↔
        ∀ child ∈ root.children, WellFormed child) := by
    intro array g' h
    obtain ⟨file, hfile, hr⟩ := setupRulesFrom_ok.mp h
    cases hr
    rw [mallocRules_rules]
    exact forall₂_faithful_iff hfile
  refine ⟨hlength, hreturns, ?_⟩
  constructor
  · intro hloads hfields
    obtain ⟨⟨array, g'⟩, h⟩ := hreturns.mpr hfields
    exact (hrules array g' h).mp (hloads array g' h).2.2
  · intro hwf array g' h
    obtain ⟨hnum, hlen⟩ := hlength array g' h
    exact ⟨hnum, hlen, (hrules array g' h).mpr (hwf (hreturns.mp ⟨_, h⟩))⟩

/-- The rule that accepts or drops 10.0.0.0 with this depth. -/
def tenRule (depth action : Nat) : CJson :=
  .object [(⟨"ip".toList, by decide⟩, .string ⟨"10.0.0.0".toList, by decide⟩),
    (⟨"depth".toList, by decide⟩, .number (.finite depth)),
    (⟨"action".toList, by decide⟩, .number (.finite action))]

/-- A file with this rule alone. -/
def tenFile (depth action : Nat) : CJson :=
  .object [(⟨"rule1".toList, by decide⟩, tenRule depth action)]

theorem tenFile_rules (env : RulesEnv) (depth action : Nat) :
    rulesOf env (some (tenFile depth action)) =
      .ok [⟨0x0A000000, toUInt8 (CJson.number (.finite depth)).valueInt,
        toUInt8 (CJson.number (.finite action)).valueInt⟩] := by
  have hscan : sscanf (Numeral.value uintLimit env.unrepresentable)
      ⟨"10.0.0.0".toList, by decide⟩ ipFormat = (4, [10, 0, 0, 0]) := rfl
  have hrule : readRule env 0 (tenRule depth action) =
      .ok ⟨0x0A000000, toUInt8 (CJson.number (.finite depth)).valueInt,
        toUInt8 (CJson.number (.finite action)).valueInt⟩ := by
    refine readRule_ok.mpr ⟨_, _, _, rfl, rfl, rfl, ?_⟩
    simp only [CJson.valueString, fwPktParseIp, hscan]
    rfl
  show readRules env 0 [tenRule depth action] = _
  rw [readRules, hrule, readRules]

/-- Memory that happens to be zero. -/
def zeroedEnv : RulesEnv := ⟨fun _ => 0, fun _ => 0⟩

/-- The action 256, which drops, is installed as 0, which accepts. -/
theorem action_installed_as_accept :
    ∃ array g', setupRulesFrom zeroedEnv (some (tenFile 8 256))
        Fleet.start.globals = .ok (array, g') ∧
      IsNumber (cJSONGetObjectItem (tenRule 8 256) "action") 256 ∧
      array.entries.map Prod.snd = [⟨0x0A000000, 8, 0⟩] ∧
      ¬ LoadsFaithfully zeroedEnv (tenFile 8 256) Fleet.start.globals := by
  have hfile : rulesOf zeroedEnv (some (tenFile 8 256)) =
      .ok [⟨0x0A000000, 8, 0⟩] := by
    rw [tenFile_rules]
    decide +kernel
  have hret : setupRulesFrom zeroedEnv (some (tenFile 8 256))
      Fleet.start.globals =
      .ok (setupRules [⟨0x0A000000, 8, 0⟩] Fleet.start.globals) :=
    setupRulesFrom_ok.mpr ⟨_, hfile, rfl⟩
  have haction : IsNumber (cJSONGetObjectItem (tenRule 8 256) "action") 256 :=
    rfl
  refine ⟨_, _, hret, haction, mallocRules_rules _ _, fun hloads => ?_⟩
  obtain ⟨-, -, hall⟩ := hloads _ _ hret
  obtain ⟨hfaithful, -⟩ := List.forall₂_cons.mp hall
  have hcut : 256 = (0 : UInt8).toNat := haction.unique hfaithful.action
  exact absurd hcut (by decide)

/-! ## The table -/

section Table

variable {env : LpmEnv} {file : List FwRule}

theorem rteLpmAdd_ret (room : Bool) (t : RteLpm) (r : FwRule) :
    0 ≤ (rteLpmAdd room (some t) r.srcIp.toNat r.depth.toNat r.action.toNat).1 ↔
      r.DepthOk ∧ room = true := by
  unfold rteLpmAdd FwRule.DepthOk
  simp only []
  split
  · next h => simp [einval]; omega
  · next h =>
      split
      · next hroom => simp [hroom]; omega
      · next hroom => simp [hroom, enospc]

/-- The loop gets to its end exactly if every rule can be added. -/
theorem lpmAddRules_zero_iff {i : Nat} {t : RteLpm} :
    (∃ tbl, lpmAddRules env i file (some t) = (0, some tbl)) ↔
      ∀ k r, file[k]? = some r → r.DepthOk ∧ env.room (i + k) = true := by
  induction file generalizing i t with
  | nil => exact iff_of_true ⟨t, rfl⟩ (by simp)
  | cons r file ih =>
      have hret := rteLpmAdd_ret (env.room i) t r
      rw [lpmAddRules]
      rcases rteLpmAdd_some (env.room i) t r.srcIp.toNat r.depth.toNat
        r.action.toNat with ⟨ret, hadd, hneg⟩ | ⟨-, hadd⟩
      · rw [hadd] at hret ⊢
        simp only [if_pos hneg]
        refine iff_of_false ?_ fun hall => ?_
        · rintro ⟨tbl, h⟩
          cases h
        · exact absurd (hret.mpr (hall 0 r rfl)) (Int.not_le.mpr hneg)
      · rw [hadd] at hret ⊢
        have hadded := hret.mp (Int.le_refl 0)
        refine ih.trans ⟨fun hall k q hq => ?_, fun hall k q hq => ?_⟩
        · cases k with
          | zero =>
              cases hq
              exact hadded
          | succ k => exact Nat.add_right_comm i 1 k ▸ hall k q hq
        · exact Nat.add_right_comm i 1 k ▸ hall (k + 1) q hq

theorem lpmAddRules_none {i : Nat} :
    (lpmAddRules env i file none).2 = none := by
  cases file with
  | nil => rfl
  | cons r file => rfl

/-- The table is there, and every rule was added to it. -/
def InForce (env : LpmEnv) (file : List FwRule) : Prop :=
  ∃ tbl, lpmSetup env file = (0, some tbl)

theorem inForce_iff :
    InForce env file ↔ env.create = true ∧
      ∀ k r, file[k]? = some r → r.DepthOk ∧ env.room k = true := by
  unfold InForce lpmSetup
  cases hcreate : env.create with
  | true =>
      have hall : (∃ tbl, lpmAddRules env 0 file (some Lpm.empty) =
          (0, some tbl)) ↔ _ := lpmAddRules_zero_iff
      simpa using hall
  | false =>
      have hnone : (lpmAddRules env 0 file none).2 = none := lpmAddRules_none
      simp only [Bool.false_eq_true, if_false, false_and, iff_false]
      rintro ⟨tbl, h⟩
      rw [h] at hnone
      cases hnone

end Table

/-! ## The coprocessor -/

section Coprocessor

variable {rulesEnv : RulesEnv} {env : LpmEnv} {json : Option CJson}
  {file : List FwRule} {g : Globals}

theorem coprocessorSetupFrom_eq (h : rulesOf rulesEnv json = .ok file) :
    coprocessorSetupFrom rulesEnv env json g =
      .ok (coprocessorSetup env file g) := by
  rw [coprocessorSetupFrom, setupRulesFrom_ok.mpr ⟨file, h, rfl⟩]
  rfl

theorem coprocessorSetup_lpmTbl :
    (coprocessorSetup env file g).2.lpmTbl = (lpmSetup env file).2 := by
  simp only [coprocessorSetup, setupRules]
  rw [List.map_take, mallocRules_rules, List.take_length]

theorem startCoprocessor_eq (h : rulesOf rulesEnv json = .ok file) :
    startCoprocessor rulesEnv env json g =
      .ok (coprocessorSetup env file g).2 := by
  rw [startCoprocessor, coprocessorSetupFrom_eq h]
  rfl

end Coprocessor

/-- A setup that returns 0 means that the rules are in force, and one that
could not put them in force returns something else, whereupon `main_loop`
exits. -/
structure SetupReports (rulesEnv : RulesEnv) (env : LpmEnv)
    (json : Option CJson) (g : Globals) (file : List FwRule) : Prop where
  success : ∀ g', coprocessorSetupFrom rulesEnv env json g = .ok (0, g') →
    InForce env file
  failure : ¬ InForce env file →
    (∃ ret g', coprocessorSetupFrom rulesEnv env json g = .ok (ret, g') ∧
      ret ≠ 0) ∧
    startCoprocessor rulesEnv env json g = .error .coprocessorSetup

/-- `coprocessor_setup` returns 0 for every file that can be read, `main_loop`
goes on, and the table is whatever `lpm_setup` left. So the result means what
it should exactly if nothing goes wrong: the table is created and every rule
can be added, with the depth that it was loaded with. -/
theorem setup_reports_iff {rulesEnv : RulesEnv} {json : Option CJson}
    {file : List FwRule} (h : rulesOf rulesEnv json = .ok file) (env : LpmEnv)
    (g : Globals) :
    (∃ g', coprocessorSetupFrom rulesEnv env json g = .ok (0, g') ∧
      startCoprocessor rulesEnv env json g = .ok g' ∧
      g'.lpmTbl = (lpmSetup env file).2) ∧
    (SetupReports rulesEnv env json g file ↔
      env.create = true ∧
        ∀ k r, file[k]? = some r → r.DepthOk ∧ env.room k = true) := by
  have hsetup : coprocessorSetupFrom rulesEnv env json g =
      .ok (coprocessorSetup env file g) := coprocessorSetupFrom_eq h
  refine ⟨⟨_, hsetup, startCoprocessor_eq h, coprocessorSetup_lpmTbl⟩, ?_⟩
  rw [← inForce_iff]
  constructor
  · exact fun hreports => hreports.success _ hsetup
  · exact fun hforce => ⟨fun _ _ => hforce, fun hno => absurd hforce hno⟩

theorem tenFile_rule {depth action : Nat} (hd : depth ≤ 255)
    (ha : action ≤ 255) :
    rulesOf zeroedEnv (some (tenFile depth action)) =
      .ok [⟨0x0A000000, UInt8.ofNat depth, UInt8.ofNat action⟩] := by
  have hfits : ∀ n : Nat, n ≤ 255 →
      toUInt8 (CJson.number (.finite n)).valueInt = UInt8.ofNat n := by
    intro n hn
    refine UInt8.toNat_inj.mp ?_
    rw [toUInt8_valueInt hn]
    exact (UInt8.toNat_ofNat_of_lt' (Nat.lt_succ_of_le hn)).symm
  rw [tenFile_rules, hfits depth hd, hfits action ha]

/-- A depth of 8 is in order. -/
theorem setup_reports_iff_ten :
    SetupReports zeroedEnv sampleLpmEnv (some (tenFile 8 1)) Fleet.start.globals
      [⟨0x0A000000, 8, 1⟩] := by
  refine (setup_reports_iff (tenFile_rule (by decide) (by decide)) sampleLpmEnv
    Fleet.start.globals).2.mpr ⟨rfl, fun k r hr => ⟨?_, rfl⟩⟩
  cases k with
  | zero =>
      cases hr
      exact ⟨by decide, by decide⟩
  | succ k => cases hr

/-- With a depth of 33 the rule is not added, and `main_loop` goes on with an
empty table. -/
theorem truncated_rules_reported_as_success :
    ∃ g', rulesOf zeroedEnv (some (tenFile 33 1)) = .ok [⟨0x0A000000, 33, 1⟩] ∧
      coprocessorSetupFrom zeroedEnv sampleLpmEnv (some (tenFile 33 1))
        Fleet.start.globals = .ok (0, g') ∧
      startCoprocessor zeroedEnv sampleLpmEnv (some (tenFile 33 1))
        Fleet.start.globals = .ok g' ∧
      g'.lpmTbl = some Lpm.empty ∧
      lpmSetup sampleLpmEnv [⟨0x0A000000, 33, 1⟩] = (1, some Lpm.empty) := by
  have hfile : rulesOf zeroedEnv (some (tenFile 33 1)) =
      .ok [⟨0x0A000000, 33, 1⟩] := tenFile_rule (by decide) (by decide)
  have hsetup : lpmSetup sampleLpmEnv [⟨0x0A000000, 33, 1⟩] =
      (1, some Lpm.empty) := rfl
  refine ⟨(coprocessorSetup sampleLpmEnv [⟨0x0A000000, 33, 1⟩]
    Fleet.start.globals).2, hfile, coprocessorSetupFrom_eq hfile,
    startCoprocessor_eq hfile, ?_, hsetup⟩
  rw [coprocessorSetup_lpmTbl, hsetup]

end GhostDataplane.Engine
