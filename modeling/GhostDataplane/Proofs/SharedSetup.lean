import GhostDataplane.Engine.SharedSetup
import GhostDataplane.Lib.Hands
import GhostDataplane.Proofs.RuleFile

/-!
# What becomes of set-ups that overlap

A set-up goes back to the global array for every store. If another set-up has
put an array of its own there in the meantime, the store goes through a slot of
that array, and the slot may never have been filled. So set-ups that overlap can
take the engine down. They can also come through with a rule that nobody wrote:
a set-up that was given the array of another adds what it finds in it, and that
may not have been stored yet, or may never be.

All set-ups read the same file, and a store puts at index `i` what the file has
at `i`, whichever array and whichever block it goes to. That is `Provenance`,
and it holds in every order of the statements. So a rule whose fields have all
been stored is a rule of the file; and if only such rules are added, then when
all are done, the table that was created last has been given every rule by the
set-up that created it, and by the others nothing but rules of the same file in
the order of the file. `Lib.Hands` says that this comes to the table of a set-up
on its own.

`Grounded` is what holds in any case, `Consistent` what holds as long as nobody
adds a rule before its time.
-/

namespace GhostDataplane.Engine

open GhostDataplane.Lib

section Shared

variable {file : List FwRule} {env : SetupEnv} {s s' : Shared} {granted : Bool}
  {array array' i i' rule : Nat} {r : FwRule}

theorem memory_store_self {field : RuleMemory → RuleMemory} :
    (s.store rule field).memory rule = field (s.memory rule) :=
  Function.update_self _ _ _

theorem memory_store_of_ne {field : RuleMemory → RuleMemory} {addr : Nat}
    (h : addr ≠ rule) : (s.store rule field).memory addr = s.memory addr :=
  Function.update_of_ne h _ _

theorem memory_mallocRule_brk :
    (s.mallocRule true array i).memory s.brk = .malloced :=
  Function.update_self _ _ _

theorem memory_mallocRule_of_lt {addr : Nat} (h : addr < s.brk) :
    (s.mallocRule granted array i).memory addr = s.memory addr := by
  cases granted with
  | false => rfl
  | true => exact Function.update_of_ne (Nat.ne_of_lt h) _ _

theorem numRules_mallocArray :
    (s.mallocArray granted).numRules = s.numRules := by
  cases granted <;> rfl

theorem lpmTbl_mallocArray : (s.mallocArray granted).lpmTbl = s.lpmTbl := by
  cases granted <;> rfl

theorem tables_mallocArray : (s.mallocArray granted).tables = s.tables := by
  cases granted <;> rfl

theorem numRules_mallocRule :
    (s.mallocRule granted array i).numRules = s.numRules := by
  cases granted <;> rfl

theorem lpmTbl_mallocRule :
    (s.mallocRule granted array i).lpmTbl = s.lpmTbl := by
  cases granted <;> rfl

theorem tables_mallocRule :
    (s.mallocRule granted array i).tables = s.tables := by
  cases granted <;> rfl

theorem numRules_createTable :
    (s.createTable granted).numRules = s.numRules := by
  cases granted <;> rfl

theorem slots_setSlot_self {slot : Slot} :
    (s.setSlot array i slot).slots array i = slot := by
  simp [Shared.setSlot]

/-- After a store to a slot, a slot is that one or an old one. -/
theorem slots_setSlot {slot slot' : Slot} {k : Nat}
    (h : (s.setSlot array i slot).slots array' k = slot') :
    (array' = array ∧ k = i ∧ slot' = slot) ∨ s.slots array' k = slot' := by
  unfold Shared.setSlot at h
  by_cases harray : array' = array
  · rw [harray] at h ⊢
    by_cases hk : k = i
    · rw [hk] at h ⊢
      simp only [Function.update_self] at h
      exact .inl ⟨rfl, rfl, h.symm⟩
    · simp only [Function.update_self, Function.update_of_ne hk] at h
      exact .inr h
  · simp only [Function.update_of_ne harray] at h
    exact .inr h

theorem addr_eq_some {slot : Slot} (h : slot.addr = some rule) :
    slot = .rule rule := by
  cases slot with
  | rule addr => rw [Option.some.inj h]
  | _ => cases h

/-! ## Where the contents of the memory are from -/

/-- What is stored is what the rule has. -/
structure RuleMemory.Agrees (m : RuleMemory) (r : FwRule) : Prop where
  srcIp : ∀ x ∈ m.srcIp, x = r.srcIp
  depth : ∀ x ∈ m.depth, x = r.depth
  action : ∀ x ∈ m.action, x = r.action

theorem written_iff {m : RuleMemory} :
    m.written = true ↔
      m.srcIp.isSome ∧ m.depth.isSome ∧ m.action.isSome := by
  rw [RuleMemory.written, Bool.and_eq_true, Bool.and_eq_true, and_assoc]

/-- A rule that is all stored is read as it is. -/
theorem RuleMemory.Agrees.read_eq {m : RuleMemory} (h : m.Agrees r)
    (hw : m.written = true) (junk : FwRule) : m.read junk = r := by
  obtain ⟨hip, hdepth, haction⟩ := written_iff.mp hw
  obtain ⟨srcIp, hip⟩ := Option.isSome_iff_exists.mp hip
  obtain ⟨depth, hdepth⟩ := Option.isSome_iff_exists.mp hdepth
  obtain ⟨action, haction⟩ := Option.isSome_iff_exists.mp haction
  rw [RuleMemory.read, hip, hdepth, haction, Option.getD_some,
    Option.getD_some, Option.getD_some, h.srcIp srcIp hip,
    h.depth depth hdepth, h.action action haction]

/-- A slot with index `i` points to a block that is for the rule with index `i`,
in whichever array it is. -/
structure Provenance (file : List FwRule) (s : Shared) : Prop where
  rules_lt : ∀ {array}, s.rules = some array → array < s.brk
  lt : ∀ {array i rule}, s.slots array i = .rule rule →
    array < s.brk ∧ rule < s.brk
  index : ∀ {array array' i i' rule}, s.slots array i = .rule rule →
    s.slots array' i' = .rule rule → i = i'
  agrees : ∀ {array i rule}, s.slots array i = .rule rule →
    ∃ r, file[i]? = some r ∧ (s.memory rule).Agrees r

theorem provenance_start : Provenance file .start where
  rules_lt h := by cases h
  lt h := by cases h
  index h := by cases h
  agrees h := by cases h

theorem Provenance.congr (h : Provenance file s)
    (hrules : ∀ array, s'.rules = some array → s.rules = some array)
    (hslots : ∀ {array i rule}, s'.slots array i = .rule rule →
      s.slots array i = .rule rule)
    (hmemory : s'.memory = s.memory) (hbrk : s.brk ≤ s'.brk) :
    Provenance file s' := by
  refine ⟨fun hr => ?_, fun hslot => ?_, fun hslot hslot' => ?_,
    fun hslot => ?_⟩
  · exact Nat.lt_of_lt_of_le (h.rules_lt (hrules _ hr)) hbrk
  · exact (h.lt (hslots hslot)).imp (Nat.lt_of_lt_of_le · hbrk)
      (Nat.lt_of_lt_of_le · hbrk)
  · exact h.index (hslots hslot) (hslots hslot')
  · rw [hmemory]
    exact h.agrees (hslots hslot)

theorem Provenance.mallocArray (h : Provenance file s) :
    Provenance file (s.mallocArray granted) := by
  cases granted with
  | false => exact h.congr (fun _ hr => by cases hr) id rfl (Nat.le_refl _)
  | true =>
      -- The slots of the new array are not set, so a slot with a pointer is an
      -- old one.
      have hold : ∀ {array i rule},
          (s.mallocArray true).slots array i = .rule rule →
          s.slots array i = .rule rule := by
        intro array i rule hslot
        by_cases heq : array = s.brk
        · simp [Shared.mallocArray, heq] at hslot
        · simpa [Shared.mallocArray, heq] using hslot
      refine ⟨fun hrules => ?_, fun hslot => ?_, fun hslot hslot' => ?_,
        fun hslot => ?_⟩
      · cases hrules
        exact Nat.lt_succ_self _
      · exact (h.lt (hold hslot)).imp Nat.lt_succ_of_lt Nat.lt_succ_of_lt
      · exact h.index (hold hslot) (hold hslot')
      · exact h.agrees (hold hslot)

/-- A NULL in a slot is no pointer. -/
theorem Provenance.setNull (h : Provenance file s) :
    Provenance file (s.setSlot array i .null) := by
  refine h.congr (fun _ hr => hr) (fun hslot => ?_) rfl (Nat.le_refl _)
  rcases slots_setSlot hslot with ⟨-, -, hnull⟩ | hold
  · cases hnull
  · exact hold

theorem Provenance.mallocRule (h : Provenance file s)
    (hrules : s.rules = some array) (hi : i < file.length) :
    Provenance file (s.mallocRule granted array i) := by
  cases granted with
  | false => exact h.setNull
  | true =>
      -- A slot is the new one with the new block, or an old one.
      have hcases : ∀ {array' k addr},
          (s.mallocRule true array i).slots array' k = .rule addr →
          (array' = array ∧ k = i ∧ addr = s.brk) ∨
            s.slots array' k = .rule addr := by
        intro array' k addr hslot
        exact (slots_setSlot hslot).imp_left
          (And.imp_right (And.imp_right fun heq => Slot.rule.inj heq))
      refine ⟨fun hr => Nat.lt_succ_of_lt (h.rules_lt hr), fun hslot => ?_,
        fun hslot hslot' => ?_, fun hslot => ?_⟩
      · rcases hcases hslot with ⟨rfl, -, rfl⟩ | hold
        · exact ⟨Nat.lt_succ_of_lt (h.rules_lt hrules), Nat.lt_succ_self _⟩
        · exact (h.lt hold).imp Nat.lt_succ_of_lt Nat.lt_succ_of_lt
      · rcases hcases hslot with ⟨-, rfl, rfl⟩ | hold
        · rcases hcases hslot' with ⟨-, rfl, -⟩ | hold'
          · rfl
          · exact absurd (h.lt hold').2 (Nat.lt_irrefl _)
        · rcases hcases hslot' with ⟨-, rfl, rfl⟩ | hold'
          · exact absurd (h.lt hold).2 (Nat.lt_irrefl _)
          · exact h.index hold hold'
      · rcases hcases hslot with ⟨-, rfl, rfl⟩ | hold
        · refine ⟨file[_], List.getElem?_eq_getElem hi, ?_⟩
          rw [memory_mallocRule_brk]
          exact ⟨by simp [RuleMemory.malloced], by simp [RuleMemory.malloced],
            by simp [RuleMemory.malloced]⟩
        · obtain ⟨r, hr, hagrees⟩ := h.agrees hold
          refine ⟨r, hr, ?_⟩
          rw [memory_mallocRule_of_lt (h.lt hold).2]
          exact hagrees

theorem Provenance.store {field : RuleMemory → RuleMemory}
    (h : Provenance file s) (hslot : s.slots array i = .rule rule)
    (hr : file[i]? = some r)
    (hfield : ∀ m : RuleMemory, m.Agrees r → (field m).Agrees r) :
    Provenance file (s.store rule field) := by
  refine ⟨h.rules_lt, h.lt, h.index, fun {array' i' rule'} hslot' => ?_⟩
  obtain ⟨r', hr', hagrees⟩ := h.agrees hslot'
  refine ⟨r', hr', ?_⟩
  by_cases heq : rule' = rule
  · rw [heq] at hslot' hagrees ⊢
    rw [← h.index hslot hslot', hr] at hr'
    cases hr'
    rw [memory_store_self]
    exact hfield _ hagrees
  · rw [memory_store_of_ne heq]
    exact hagrees

/-- A rule that is all stored and read through a slot is the rule of the
file. -/
theorem Provenance.read (h : Provenance file s)
    (hslot : s.slots array i = .rule rule)
    (hw : (s.memory rule).written = true) (junk : FwRule) :
    file[i]? = some ((s.memory rule).read junk) := by
  obtain ⟨r, hr, hagrees⟩ := h.agrees hslot
  rw [hagrees.read_eq hw, hr]

/-! ## What a statement does -/

/-- The table at an address, with a rule more. -/
def Shared.addTo (s : Shared) (t : Nat) (r : FwRule) : Shared :=
  { s with
    tables := Function.update s.tables t ((s.tables t).add rteLpmMaxDepth
      r.entry.addr r.entry.depth r.entry.hop) }

/-- An addition fails for want of a table or of room or because of the depth,
and changes nothing. One that succeeds changes the table that `lpm_tbl` points
to. -/
theorem addRule_cases (room : Bool) (r : FwRule) (s : Shared) :
    ((s.lpmTbl = none ∨ ¬ r.DepthOk ∨ room = false) ∧
      ∃ ret < 0, s.addRule room r = (ret, s)) ∨
    ∃ t, s.lpmTbl = some t ∧ r.DepthOk ∧ s.addRule room r =
      (0, s.addTo t r) := by
  obtain ⟨rules, numRules, lpmTbl, slots, memory, tables, brk⟩ := s
  cases lpmTbl with
  | none => exact .inl ⟨.inl rfl, -einval, by decide, rfl⟩
  | some t =>
      have hret := rteLpmAdd_ret room (tables t) r
      unfold Shared.addRule
      simp only [Option.map_some]
      rcases rteLpmAdd_some room (tables t) r.srcIp.toNat r.depth.toNat
        r.action.toNat with ⟨ret, hadd, hneg⟩ | ⟨hdepth, hadd⟩
      · rw [hadd] at hret ⊢
        have hwhy := mt hret.mpr (Int.not_le.mpr hneg)
        rw [not_and_or, Bool.not_eq_true] at hwhy
        refine .inl ⟨.inr hwhy, ret, hneg, ?_⟩
        simp only [Function.update_eq_self]
      · refine .inr ⟨t, rfl, hdepth, ?_⟩
        rw [hadd]
        rfl

/-- The three stores to the fields of a rule. -/
inductive Store (r : FwRule) (i : Nat) :
    SetupPc → SetupPc → (RuleMemory → RuleMemory) → Prop where
  | ip : Store r i (.storeIp i) (.storeDepth i) fun m =>
      { m with srcIp := some r.srcIp }
  | depth : Store r i (.storeDepth i) (.storeAction i) fun m =>
      { m with depth := some r.depth }
  | action : Store r i (.storeAction i) (.mallocRule (i + 1)) fun m =>
      { m with action := some r.action }

/-- All that a statement can do, if it does not take the engine down. -/
inductive Statement (file : List FwRule) (env : SetupEnv) :
    SetupPc → Shared → SetupPc → Shared → Prop where
  | reading {s : Shared} (henv : env.read = .reading) :
      Statement file env .readFile s .readFile s
  | parsed {s : Shared} (henv : env.read = .parsed) :
      Statement file env .readFile s .storeCount s
  | storeCount {s : Shared} :
      Statement file env .storeCount s .mallocArray
        { s with numRules := file.length }
  | mallocArray {s : Shared} :
      Statement file env .mallocArray s (.mallocRule 0)
        (s.mallocArray env.malloc)
  | mallocRule {s : Shared} {array i : Nat} (hi : i < file.length)
      (hrules : s.rules = some array) :
      Statement file env (.mallocRule i) s (.storeIp i)
        (s.mallocRule env.malloc array i)
  | loaded {s : Shared} {i : Nat} (hi : file.length ≤ i) :
      Statement file env (.mallocRule i) s .returnRules s
  | store {s : Shared} {array i rule : Nat} {r : FwRule} {pc pc' : SetupPc}
      {field : RuleMemory → RuleMemory} (hrules : s.rules = some array)
      (hslot : s.slots array i = .rule rule) (hr : file[i]? = some r)
      (hfield : Store r i pc pc' field) :
      Statement file env pc s pc' (s.store rule field)
  | skipIp {s : Shared} {array i : Nat} (hrules : s.rules = some array)
      (hwhy : s.slots array i = .null ∨ env.parses = false) :
      Statement file env (.storeIp i) s (.storeDepth i) s
  | returnRules {s : Shared} :
      Statement file env .returnRules s (.callLpmSetup s.rules) s
  | callLpmSetup {s : Shared} {rules : Option Nat} :
      Statement file env (.callLpmSetup rules) s
        (.createTable rules s.numRules) s
  | createTable {s : Shared} {rules : Option Nat} {n : Nat} :
      Statement file env (.createTable rules n) s (.addRule rules n 0)
        (s.createTable env.create)
  | add {s : Shared} {array n i addr t : Nat} {r : FwRule} (hi : i < n)
      (hslot : s.slots array i = .rule addr)
      (hr : (s.memory addr).read env.junk = r) (ht : s.lpmTbl = some t)
      (hdepth : r.DepthOk) :
      Statement file env (.addRule (some array) n i) s
        (.addRule (some array) n (i + 1)) (s.addTo t r)
  | addFailed {s : Shared} {array n i addr : Nat} {r : FwRule} (hi : i < n)
      (hslot : s.slots array i = .rule addr)
      (hr : (s.memory addr).read env.junk = r)
      (hwhy : s.lpmTbl = none ∨ ¬ r.DepthOk ∨ env.room = false) :
      Statement file env (.addRule (some array) n i) s (.finished 1) s
  | added {s : Shared} {rules : Option Nat} {n i : Nat} (hi : n ≤ i) :
      Statement file env (.addRule rules n i) s (.finished 0) s
  | finished {s : Shared} {ret : Int} :
      Statement file env (.finished ret) s (.finished ret) s

theorem storeSrcIp_statement (hrules : s.rules = some array)
    (hr : file[i]? = some r)
    (h : storeSrcIp env r (s.slots array i) s = some s') :
    Statement file env (.storeIp i) s (.storeDepth i) s' := by
  unfold storeSrcIp at h
  split at h
  · next hslot =>
      cases h
      exact .skipIp hrules (.inl hslot)
  · next hslot =>
      split at h
      · cases h
        exact .store hrules hslot hr .ip
      · next hparses =>
          cases h
          exact .skipIp hrules (.inr (Bool.eq_false_iff.mpr hparses))
  · split at h
    · cases h
    · next hparses =>
        cases h
        exact .skipIp hrules (.inr (Bool.eq_false_iff.mpr hparses))

theorem storeField_statement {pc pc' pc'' : SetupPc}
    {field : FwRule → RuleMemory → RuleMemory}
    (hfield : ∀ r, Store r i pc pc' (field r))
    (h : storeField file i field pc' s = some (pc'', s')) :
    Statement file env pc s pc'' s' := by
  obtain ⟨rule, hrule, h⟩ := Option.bind_eq_some_iff.mp h
  obtain ⟨r, hr, h⟩ := Option.map_eq_some_iff.mp h
  obtain ⟨array, hrules, hslot⟩ := Option.bind_eq_some_iff.mp hrule
  cases h
  exact .store hrules (addr_eq_some hslot) hr (hfield r)

theorem setupStep_statement {pc pc' : SetupPc}
    (h : setupStep file env pc s = some (pc', s')) :
    Statement file env pc s pc' s' := by
  cases pc with
  | readFile =>
      rw [setupStep] at h
      split at h
      · next henv => cases h; exact .reading henv
      · next henv => cases h; exact .parsed henv
      · cases h
      · cases h
  | storeCount => cases h; exact .storeCount
  | mallocArray => cases h; exact .mallocArray
  | mallocRule i =>
      rw [setupStep] at h
      split at h
      · next hi =>
          split at h
          · obtain ⟨array, hrules, h⟩ := Option.map_eq_some_iff.mp h
            cases h
            exact .mallocRule hi hrules
          · cases h
      · next hi =>
          cases h
          exact .loaded (Nat.le_of_not_lt hi)
  | storeIp i =>
      obtain ⟨array, hrules, h⟩ := Option.bind_eq_some_iff.mp h
      obtain ⟨r, hr, h⟩ := Option.bind_eq_some_iff.mp h
      obtain ⟨s₁, hstore, h⟩ := Option.map_eq_some_iff.mp h
      cases h
      exact storeSrcIp_statement hrules hr hstore
  | storeDepth i => exact storeField_statement (fun r => .depth) h
  | storeAction i => exact storeField_statement (fun r => .action) h
  | returnRules => cases h; exact .returnRules
  | callLpmSetup rules => cases h; exact .callLpmSetup
  | createTable rules n => cases h; exact .createTable
  | addRule rules n i =>
      rw [setupStep] at h
      split at h
      · next hi =>
          obtain ⟨addr, hslot, h⟩ := Option.map_eq_some_iff.mp h
          obtain ⟨array, rfl, hslot⟩ := Option.bind_eq_some_iff.mp hslot
          have hslot := addr_eq_some hslot
          rcases addRule_cases env.room ((s.memory addr).read env.junk) s with
            ⟨hwhy, ret, hneg, hadd⟩ | ⟨t, ht, hdepth, hadd⟩
          · simp only [hadd, if_pos hneg] at h
            cases h
            exact .addFailed hi hslot rfl hwhy
          · simp only [hadd, Int.lt_irrefl, if_false] at h
            cases h
            exact .add hi hslot rfl ht hdepth
      · next hi =>
          cases h
          exact .added (Nat.le_of_not_lt hi)
  | finished ret => cases h; exact .finished

end Shared

/-! ## Every order of the statements -/

section Grounded

variable {file : List FwRule} {w : Setups} {env : SetupEnv}

/-- What a coprocessor that has come this far knows. -/
def SetupPc.Sound (file : List FwRule) (numRules : Nat) : SetupPc → Prop
  | .readFile | .storeCount => True
  | .mallocArray | .mallocRule _ | .returnRules | .callLpmSetup _
  | .finished _ => numRules = file.length
  | .storeIp i | .storeDepth i | .storeAction i =>
      numRules = file.length ∧ i < file.length
  | .createTable _ n | .addRule _ n _ =>
      numRules = file.length ∧ n = file.length

/-- A store to `num_rules` stores what is there. -/
theorem SetupPc.Sound.stored {pc : SetupPc} {numRules : Nat}
    (h : pc.Sound file numRules) : pc.Sound file file.length := by
  cases pc with
  | readFile | storeCount => trivial
  | mallocArray | mallocRule | returnRules | callLpmSetup | finished => rfl
  | storeIp | storeDepth | storeAction | createTable | addRule =>
      exact ⟨rfl, h.2⟩

/-- A coprocessor is about to add the rule with this index. -/
def Setups.Adding (w : Setups) (k : Nat) : Prop :=
  ∃ i rules n, w.pc i = .addRule rules n k

/-- A set-up has reported a failure. -/
def Setups.Failed (w : Setups) : Prop := ∃ i, ∃ ret ≠ 0, w.pc i = .finished ret

/-- Behind `rte_lpm_create`. -/
def SetupPc.PastCreate : SetupPc → Prop
  | .addRule _ _ _ | .finished _ => True
  | _ => False

/-- What holds whatever the order. If there is no table although one was asked
for, the set-up that asked last has failed or is about to. -/
structure Grounded (file : List FwRule) (w : Setups) : Prop where
  provenance : Provenance file w.shared
  sound : ∀ i, (w.pc i).Sound file w.shared.numRules
  created : file ≠ [] → w.shared.lpmTbl = none →
    (∀ i, ¬ (w.pc i).PastCreate) ∨ w.Failed ∨ w.Adding 0

theorem Statement.numRules {pc pc' : SetupPc} {s s' : Shared}
    (h : Statement file env pc s pc' s') :
    s'.numRules = s.numRules ∨ s'.numRules = file.length := by
  cases h with
  | storeCount => exact .inr rfl
  | mallocArray => exact .inl numRules_mallocArray
  | mallocRule => exact .inl numRules_mallocRule
  | createTable => exact .inl numRules_createTable
  | _ => exact .inl rfl

theorem Statement.provenance {pc pc' : SetupPc} {s s' : Shared}
    (h : Statement file env pc s pc' s') (hp : Provenance file s) :
    Provenance file s' := by
  cases h with
  | mallocArray => exact hp.mallocArray
  | mallocRule hi hrules => exact hp.mallocRule hrules hi
  | store hrules hslot hr hfield =>
      refine hp.store hslot hr fun m hm => ?_
      cases hfield with
      | ip => exact ⟨fun x hx => (Option.some.inj hx).symm, hm.depth, hm.action⟩
      | depth =>
          exact ⟨hm.srcIp, fun x hx => (Option.some.inj hx).symm, hm.action⟩
      | action =>
          exact ⟨hm.srcIp, hm.depth, fun x hx => (Option.some.inj hx).symm⟩
  | createTable =>
      unfold Shared.createTable
      split
      · exact hp.congr (fun _ hr => hr) id rfl (Nat.le_succ _)
      · exact hp.congr (fun _ hr => hr) id rfl (Nat.le_refl _)
  | storeCount | add => exact hp.congr (fun _ hr => hr) id rfl (Nat.le_refl _)
  | _ => exact hp

/-- What the coprocessor knows afterwards. -/
theorem Statement.sound {pc pc' : SetupPc} {s s' : Shared}
    (h : Statement file env pc s pc' s')
    (hsound : pc.Sound file s.numRules) : pc'.Sound file s'.numRules := by
  cases h with
  | reading | parsed => trivial
  | storeCount => rfl
  | mallocArray => exact numRules_mallocArray.trans hsound
  | mallocRule hi => exact ⟨numRules_mallocRule.trans hsound, hi⟩
  | loaded => exact hsound
  | store _ _ _ hfield =>
      cases hfield with
      | ip | depth => exact hsound
      | action => exact hsound.1
  | skipIp => exact hsound
  | returnRules => exact hsound
  | callLpmSetup => exact ⟨hsound, hsound⟩
  | createTable => exact ⟨numRules_createTable.trans hsound.1, hsound.2⟩
  | add => exact hsound
  | addFailed | added => exact hsound.1
  | finished => exact hsound

/-- Nothing but `rte_lpm_create` touches `lpm_tbl`, and no other statement leads
past it. -/
theorem Statement.lpmTbl {pc pc' : SetupPc} {s s' : Shared}
    (h : Statement file env pc s pc' s') :
    (∃ rules n, pc' = .addRule rules n 0 ∧ s' = s.createTable env.create) ∨
      s'.lpmTbl = s.lpmTbl ∧ (pc.PastCreate ↔ pc'.PastCreate) := by
  cases h with
  | createTable => exact .inl ⟨_, _, rfl, rfl⟩
  | mallocArray => exact .inr ⟨lpmTbl_mallocArray, Iff.rfl⟩
  | mallocRule => exact .inr ⟨lpmTbl_mallocRule, Iff.rfl⟩
  | store _ _ _ hfield => cases hfield <;> exact .inr ⟨rfl, Iff.rfl⟩
  | _ => exact .inr ⟨rfl, Iff.rfl⟩

section Step

variable {pc pc' : SetupPc} {s' : Shared} {i : Nat}

/-- The coprocessor has gone on. -/
def Setups.advance (w : Setups) (i : Nat) (pc : SetupPc) (s : Shared) :
    Setups :=
  { w with shared := s, pc := Function.update w.pc i pc }

theorem pc_advance_self : (w.advance i pc' s').pc i = pc' :=
  Function.update_self _ _ _

theorem pc_advance_of_ne {j : Nat} (h : j ≠ i) :
    (w.advance i pc' s').pc j = w.pc j :=
  Function.update_of_ne h _ _

theorem Grounded.sound_advance (h : Grounded file w)
    (hst : Statement file env (w.pc i) w.shared pc' s') (j : Nat) :
    ((w.advance i pc' s').pc j).Sound file s'.numRules := by
  by_cases hj : j = i
  · rw [hj, pc_advance_self]
    exact hst.sound (h.sound i)
  · rw [pc_advance_of_ne hj]
    rcases hst.numRules with heq | heq
    · rw [heq]
      exact h.sound j
    · rw [heq]
      exact (h.sound j).stored

/-- The others are where they were. -/
theorem adding_advance {k : Nat} (h : w.Adding k)
    (hi : ∀ rules n, w.pc i = .addRule rules n k → pc' = .addRule rules n k) :
    (w.advance i pc' s').Adding k := by
  obtain ⟨j, rules, n, hj⟩ := h
  by_cases heq : j = i
  · rw [heq] at hj
    exact ⟨i, rules, n, pc_advance_self.trans (hi rules n hj)⟩
  · exact ⟨j, rules, n, (pc_advance_of_ne heq).trans hj⟩

/-- A failure stays on record. -/
theorem failed_advance
    (hst : Statement file env (w.pc i) w.shared pc' s') (h : w.Failed) :
    (w.advance i pc' s').Failed := by
  obtain ⟨j, ret, hret, hj⟩ := h
  refine ⟨j, ret, hret, ?_⟩
  by_cases heq : j = i
  · rw [heq] at hj ⊢
    rw [hj] at hst
    cases hst with
    | store _ _ _ hfield => cases hfield
    | finished => exact pc_advance_self
  · rw [pc_advance_of_ne heq, hj]

/-- Where a set-up that is about to add a rule goes: it fails, or it was through
with the list, or there is a table. -/
theorem Statement.adding {s : Shared} {rules : Option Nat} {n k : Nat}
    (h : Statement file env (.addRule rules n k) s pc' s') :
    n ≤ k ∨ pc' = .finished 1 ∨ s'.lpmTbl ≠ none := by
  cases h with
  | add _ _ _ ht => exact .inr (.inr (by
      rw [show (Shared.addTo _ _ _).lpmTbl = _ from ht]
      exact Option.some_ne_none _))
  | addFailed => exact .inr (.inl rfl)
  | added hi => exact .inl hi
  | store _ _ _ hfield => cases hfield

theorem Grounded.created_advance (h : Grounded file w)
    (hst : Statement file env (w.pc i) w.shared pc' s') (hfile : file ≠ [])
    (hnone : s'.lpmTbl = none) :
    (∀ j, ¬ ((w.advance i pc' s').pc j).PastCreate) ∨
      (w.advance i pc' s').Failed ∨ (w.advance i pc' s').Adding 0 := by
  rcases hst.lpmTbl with ⟨rules, n, rfl, -⟩ | ⟨hkept, hpast⟩
  · exact .inr (.inr ⟨i, rules, n, pc_advance_self⟩)
  rcases h.created hfile (hkept ▸ hnone) with hbefore | hfailed | hadding
  · refine .inl fun j => ?_
    by_cases hj : j = i
    · rw [hj, pc_advance_self, ← hpast]
      exact hbefore i
    · rw [pc_advance_of_ne hj]
      exact hbefore j
  · exact .inr (.inl (failed_advance hst hfailed))
  · -- The one that is about to add the first rule does so without a table.
    obtain ⟨j, rules, n, hj⟩ := hadding
    by_cases heq : j = i
    · have hsound := h.sound i
      rw [heq] at hj
      rw [hj] at hst hsound
      rcases hst.adding with hle | rfl | hsome
      · have hn : n = file.length := hsound.2
        exact absurd (List.eq_nil_of_length_eq_zero (by omega)) hfile
      · exact .inr (.inl ⟨i, 1, by decide, pc_advance_self⟩)
      · exact absurd hnone hsome
    · exact .inr (.inr ⟨j, rules, n, (pc_advance_of_ne heq).trans hj⟩)

theorem Grounded.advance (h : Grounded file w)
    (hst : Statement file env (w.pc i) w.shared pc' s') :
    Grounded file (w.advance i pc' s') where
  provenance := hst.provenance h.provenance
  sound := h.sound_advance hst
  created := h.created_advance hst

end Step

theorem grounded_start : Grounded file .start where
  provenance := provenance_start
  sound _ := trivial
  created _ _ := .inl fun _ => id

/-- All that a step can do. -/
theorem setups_step_cases (w : Setups) (a : SetupAction) :
    (w.crashed = true ∧ w.step file a = w) ∨
    (w.crashed = false ∧ setupStep file a.env (w.pc a.lcoreId) w.shared = none ∧
      w.step file a = { w with crashed := true }) ∨
    ∃ pc s, w.crashed = false ∧
      setupStep file a.env (w.pc a.lcoreId) w.shared = some (pc, s) ∧
      w.step file a = w.advance a.lcoreId pc s := by
  unfold Setups.step
  split
  · next hcrash => exact .inl ⟨hcrash, rfl⟩
  · next hcrash =>
      have hcrash : w.crashed = false := Bool.eq_false_iff.mpr hcrash
      split
      · next hnone => exact .inr (.inl ⟨hcrash, hnone, rfl⟩)
      · next pc s hsome => exact .inr (.inr ⟨pc, s, hcrash, hsome, rfl⟩)

theorem Grounded.step (h : Grounded file w) (a : SetupAction) :
    Grounded file (w.step file a) := by
  rcases setups_step_cases w a with
    ⟨-, heq⟩ | ⟨-, -, heq⟩ | ⟨pc, s, -, hsome, heq⟩
  · rwa [heq]
  · rw [heq]
    exact ⟨h.provenance, h.sound, h.created⟩
  · rw [heq]
    exact h.advance (setupStep_statement hsome)

theorem grounded_of_reach {ok : Setups → SetupAction → Prop}
    (h : (setups file).Reach ok w) : Grounded file w := by
  refine h.invariant (fun w hw => ?_) fun w a w' _ hw _ hstep => ?_
  · rw [show w = Setups.start from hw]
    exact grounded_start
  · rw [show w' = w.step file a from hstep]
    exact hw.step a

end Grounded

/-! ## No rule before its time -/

section Consistent

variable {file : List FwRule} {w : Setups} {env : SetupEnv}

/-- The rules that were added have depths that the library takes. -/
def SetupPc.Took (file : List FwRule) : SetupPc → Prop
  | .addRule _ _ i => ∀ k < i, ∀ r, file[k]? = some r → r.DepthOk
  | .finished ret => ret = 0 → ∀ r ∈ file, r.DepthOk
  | _ => True

/-- Every entry of every table is that of a rule of the file. -/
def TablesFrom (file : List FwRule) (tables : Nat → RteLpm) : Prop :=
  ∀ t d p hop, tables t d p = some hop →
    ∃ r ∈ file.map FwRule.entry, r.At rteLpmMaxDepth d p ∧ r.hop = hop

/-- What holds as long as the rules that are added have been stored. -/
structure Consistent (file : List FwRule) (w : Setups) : Prop
    extends Grounded file w where
  took : ∀ i, (w.pc i).Took file
  entries : TablesFrom file w.shared.tables
  filling : ∀ t, w.shared.lpmTbl = some t → w.Failed ∨
    Lpm.Filling rteLpmMaxDepth (file.map FwRule.entry) (w.shared.tables t)
      w.Adding

theorem entry_getElem? {k : Nat} {r : FwRule} (h : file[k]? = some r) :
    (file.map FwRule.entry)[k]? = some r.entry := by
  rw [List.getElem?_map, h]
  rfl

/-- A rule that is added, if it has been stored, is the one of the file. -/
theorem Provenance.added {s : Shared} {array n i addr : Nat}
    (hp : Provenance file s) (junk : FwRule) (hi : i < n)
    (hslot : s.slots array i = .rule addr)
    (hstored : (SetupPc.addRule (some array) n i).readsStored s = true) :
    file[i]? = some ((s.memory addr).read junk) := by
  rw [SetupPc.readsStored, decide_eq_false (Nat.not_le_of_lt hi),
    Bool.false_or, hslot] at hstored
  exact hp.read hslot hstored junk

theorem Statement.took {pc pc' : SetupPc} {s s' : Shared}
    (h : Statement file env pc s pc' s') (hp : Provenance file s)
    (hsound : pc.Sound file s.numRules) (hstored : pc.readsStored s = true)
    (htook : pc.Took file) : pc'.Took file := by
  cases h with
  | createTable => exact fun k hk => absurd hk (Nat.not_lt_zero _)
  | add hi hslot hr ht hdepth =>
      intro k hk r' hr'
      rcases Nat.lt_succ_iff_lt_or_eq.mp hk with hk | rfl
      · exact htook k hk r' hr'
      · rw [hp.added _ hi hslot hstored, hr] at hr'
        cases hr'
        exact hdepth
  | addFailed => exact fun h => by cases h
  | added hi =>
      intro _ r hr
      obtain ⟨k, hk, rfl⟩ := List.getElem_of_mem hr
      have hn := hsound.2
      exact htook k (by omega) _ (List.getElem?_eq_getElem hk)
  | finished => exact htook
  | store _ _ _ hfield => cases hfield <;> trivial
  | _ => trivial

/-- An entry comes with a rule that is added, and that is one of the file. -/
theorem Statement.entries {pc pc' : SetupPc} {s s' : Shared}
    (h : Statement file env pc s pc' s') (hp : Provenance file s)
    (hstored : pc.readsStored s = true) (hentries : TablesFrom file s.tables) :
    TablesFrom file s'.tables := by
  intro t d p hop hhop
  cases h with
  | mallocArray => exact hentries t d p hop (tables_mallocArray ▸ hhop)
  | mallocRule => exact hentries t d p hop (tables_mallocRule ▸ hhop)
  | createTable =>
      unfold Shared.createTable at hhop
      split at hhop
      · by_cases ht : t = s.brk
        · simp only [ht, Function.update_self] at hhop
          cases hhop
        · simp only [Function.update_of_ne ht] at hhop
          exact hentries t d p hop hhop
      · exact hentries t d p hop hhop
  | @add _ array n k addr t' r hi hslot hr ht hdepth =>
      unfold Shared.addTo at hhop
      by_cases heq : t = t'
      · simp only [heq, Function.update_self] at hhop
        by_cases hat : r.entry.At rteLpmMaxDepth d p
        · rw [Lpm.add_of_at hat] at hhop
          have hread := hp.added env.junk hi hslot hstored
          rw [hr] at hread
          exact ⟨r.entry, List.mem_of_getElem? (entry_getElem? hread), hat,
            Option.some.inj hhop⟩
        · rw [Lpm.add_of_not_at hat] at hhop
          exact hentries t' d p hop hhop
      · simp only [Function.update_of_ne heq] at hhop
        exact hentries t d p hop hhop
  | _ => exact hentries t d p hop hhop

theorem consistent_start : Consistent file .start where
  toGrounded := grounded_start
  took _ := trivial
  entries t d p hop h := by cases h
  filling t h := by cases h

section Step

variable {pc' : SetupPc} {s' : Shared} {i : Nat}

theorem Consistent.took_advance (h : Consistent file w)
    (hst : Statement file env (w.pc i) w.shared pc' s')
    (hstored : (w.pc i).readsStored w.shared = true) (j : Nat) :
    ((w.advance i pc' s').pc j).Took file := by
  by_cases hj : j = i
  · rw [hj, pc_advance_self]
    exact hst.took h.provenance (h.sound i) hstored (h.took i)
  · rw [pc_advance_of_ne hj]
    exact h.took j

theorem Consistent.filling_advance (h : Consistent file w)
    (hst : Statement file env (w.pc i) w.shared pc' s')
    (hstored : (w.pc i).readsStored w.shared = true) {t : Nat}
    (ht : s'.lpmTbl = some t) :
    (w.advance i pc' s').Failed ∨
      Lpm.Filling rteLpmMaxDepth (file.map FwRule.entry) (s'.tables t)
        (w.advance i pc' s').Adding := by
  -- Where neither the table nor what the coprocessor adds is concerned.
  have hkeep : s'.lpmTbl = w.shared.lpmTbl → s'.tables = w.shared.tables →
      (∀ k < file.length, ∀ rules n, w.pc i = .addRule rules n k →
        pc' = .addRule rules n k) →
      (w.advance i pc' s').Failed ∨
      Lpm.Filling rteLpmMaxDepth (file.map FwRule.entry) (s'.tables t)
        (w.advance i pc' s').Adding := by
    intro htbl htables hpc
    rw [htbl] at ht
    rw [htables]
    refine (h.filling t ht).imp (failed_advance hst) fun hfill =>
      hfill.mono fun k hk hadd => ?_
    exact adding_advance hadd (hpc k (by simpa using hk))
  have hfailed := fun hf => failed_advance (w := w) hst hf
  have hsound := h.sound i
  generalize hpc : w.pc i = pc at hst hsound hkeep hstored
  generalize hs : w.shared = s at hst hkeep hstored
  cases hst with
  | mallocArray =>
      exact hkeep lpmTbl_mallocArray tables_mallocArray
        fun k hk rules n heq => by cases heq
  | mallocRule =>
      exact hkeep lpmTbl_mallocRule tables_mallocRule
        fun k hk rules n heq => by cases heq
  | createTable =>
      unfold Shared.createTable at ht ⊢
      split at ht
      · next hcreate =>
          cases ht
          rw [if_pos hcreate]
          refine .inr ?_
          simp only [Function.update_self]
          exact .empty ⟨i, _, _, pc_advance_self⟩
      · cases ht
  | @add _ array n k addr t' r hi hslot hr ht' hdepth =>
      cases ht'.symm.trans ht
      have hread : file[k]? = some r := by
        rw [← hr]
        exact (hs ▸ h.provenance).added _ hi hslot hstored
      refine (h.filling t (by rw [hs]; exact ht')).imp hfailed fun hfill => ?_
      unfold Shared.addTo
      simp only [Function.update_self]
      rw [hs] at hfill
      refine hfill.add (entry_getElem? hread) (fun m hadd hne => ?_)
        ⟨i, _, _, pc_advance_self⟩
      refine adding_advance hadd fun rules n' heq => ?_
      rw [hpc] at heq
      cases heq
      exact absurd rfl hne
  | addFailed => exact .inl ⟨i, 1, by decide, pc_advance_self⟩
  | added hi =>
      refine hkeep rfl rfl fun k hk rules n heq => ?_
      cases heq
      have hn := hsound.2
      omega
  | finished => exact hkeep rfl rfl fun k hk rules n heq => heq
  | store _ _ _ hfield =>
      refine hkeep rfl rfl fun k hk rules n heq => ?_
      rw [heq] at hfield
      cases hfield
  | _ => exact hkeep rfl rfl fun k hk rules n heq => by cases heq

theorem Consistent.advance (h : Consistent file w)
    (hst : Statement file env (w.pc i) w.shared pc' s')
    (hstored : (w.pc i).readsStored w.shared = true) :
    Consistent file (w.advance i pc' s') where
  toGrounded := h.toGrounded.advance hst
  took := h.took_advance hst hstored
  entries := hst.entries h.provenance hstored h.entries
  filling _ ht := h.filling_advance hst hstored ht

end Step

theorem Consistent.step (h : Consistent file w) {a : SetupAction}
    (hstored : readsStored w a) : Consistent file (w.step file a) := by
  rcases setups_step_cases w a with
    ⟨-, heq⟩ | ⟨-, -, heq⟩ | ⟨pc, s, -, hsome, heq⟩
  · rwa [heq]
  · rw [heq]
    exact ⟨⟨h.provenance, h.sound, h.created⟩, h.took, h.entries, h.filling⟩
  · rw [heq]
    exact h.advance (setupStep_statement hsome) hstored

theorem consistent_of_reach {ok : Setups → SetupAction → Prop}
    (hok : ∀ w a, ok w a → readsStored w a) (h : (setups file).Reach ok w) :
    Consistent file w := by
  refine h.invariant (fun w hw => ?_) fun w a w' _ hw ha hstep => ?_
  · rw [show w = Setups.start from hw]
    exact consistent_start
  · rw [show w' = w.step file a from hstep]
    exact hw.step (hok w a ha)

/-! ## All set-ups done -/

/-- There is a table, unless there was nothing to add to it. -/
theorem Grounded.lpmTbl_ne_none (h : Grounded file w)
    (hall : ∀ i, w.pc i = .readFile ∨ w.pc i = .finished 0)
    (hsome : ∃ i, w.pc i = .finished 0) (hfile : file ≠ []) :
    w.shared.lpmTbl ≠ none := by
  intro hnone
  rcases h.created hfile hnone with hbefore | ⟨j, ret, hret, hj⟩ |
    ⟨j, rules, n, hj⟩
  · obtain ⟨i, hi⟩ := hsome
    exact hbefore i (by rw [hi]; trivial)
  · rcases hall j with hj' | hj'
    · rw [hj'] at hj
      cases hj
    · rw [hj'] at hj
      cases hj
      exact hret rfl
  · rcases hall j with hj' | hj'
    · rw [hj'] at hj
      cases hj
    · rw [hj'] at hj
      cases hj

/-- The table of a set-up on its own. -/
theorem Consistent.lpmSetup_eq {t : Nat} (h : Consistent file w)
    (hall : ∀ i, w.pc i = .readFile ∨ w.pc i = .finished 0)
    (hsome : ∃ i, w.pc i = .finished 0) (ht : w.shared.lpmTbl = some t) :
    lpmSetup ⟨true, fun _ => true⟩ file = (0, some (w.shared.tables t)) := by
  obtain ⟨i, hi⟩ := hsome
  have htook := h.took i
  rw [hi] at htook
  have hforce : InForce ⟨true, fun _ => true⟩ file :=
    inForce_iff.mpr ⟨rfl, fun k r hr =>
      ⟨htook rfl r (List.mem_of_getElem? hr), rfl⟩⟩
  obtain ⟨tbl, hsetup⟩ := hforce
  rw [hsetup, (lpmSetup_ok hsetup).1]
  rcases h.filling t ht with ⟨j, ret, hret, hj⟩ | hfill
  · rcases hall j with hj' | hj'
    · rw [hj'] at hj
      cases hj
    · rw [hj'] at hj
      cases hj
      exact absurd rfl hret
  · rw [hfill.done]
    rintro k - ⟨j, rules, n, hj⟩
    rcases hall j with hj' | hj'
    · rw [hj'] at hj
      cases hj
    · rw [hj'] at hj
      cases hj

end Consistent

section Created

variable {file : List FwRule} {w : Setups} {env : SetupEnv}

/-- A table that is there stays, or is replaced by another. -/
theorem Statement.created {pc pc' : SetupPc} {s s' : Shared}
    (h : Statement file env pc s pc' s') (hcreate : env.create = true)
    (hpast : pc.PastCreate → s.lpmTbl ≠ none) :
    (s.lpmTbl ≠ none → s'.lpmTbl ≠ none) ∧
      (pc'.PastCreate → s'.lpmTbl ≠ none) := by
  rcases h.lpmTbl with ⟨rules, n, -, rfl⟩ | ⟨hkept, hiff⟩
  · rw [Shared.createTable, if_pos hcreate]
    exact ⟨fun _ => Option.some_ne_none _, fun _ => Option.some_ne_none _⟩
  · rw [hkept]
    exact ⟨id, fun hpast' => hpast (hiff.mpr hpast')⟩

theorem created_of_reach (h : (setups file).Reach tablesCreated w) :
    ∀ i, (w.pc i).PastCreate → w.shared.lpmTbl ≠ none := by
  refine h.invariant
    (I := fun w => ∀ i, (w.pc i).PastCreate → w.shared.lpmTbl ≠ none)
    (fun w hw i hpast => ?_) fun w a w' _ hw hcreate hstep => ?_
  · rw [show w = Setups.start from hw] at hpast
    exact hpast.elim
  · rw [show w' = w.step file a from hstep]
    rcases setups_step_cases w a with
      ⟨-, heq⟩ | ⟨-, -, heq⟩ | ⟨pc, s, -, hsome, heq⟩
    · rwa [heq]
    · rw [heq]
      exact hw
    · rw [heq]
      obtain ⟨hkept, hpast⟩ :=
        (setupStep_statement hsome).created hcreate (hw a.lcoreId)
      intro i hi
      by_cases hia : i = a.lcoreId
      · rw [hia, pc_advance_self] at hi
        exact hpast hi
      · rw [pc_advance_of_ne hia] at hi
        exact hkept (hw i hi)

end Created

/-- What the handler does with a packet of version 4 once the rules are in the
table. -/
theorem fwPacketHandler_forward_iff {env : LpmEnv} {file : List FwRule}
    {tbl : RteLpm} {bytes : Nat → UInt8}
    (hsetup : lpmSetup env file = (0, some tbl)) (hv : ipVersion bytes = 4)
    (stats : FirewallPktStats) :
    ∃ action stats', fwPacketHandler (some tbl) bytes stats =
        .ok (action, stats') ∧
      (action = .forward ↔
        (∀ r ∈ file, ¬ r.Matches (ipSrc bytes etherHdrSize)) ∨
        ∃ r, LongestMatch file (ipSrc bytes etherHdrSize) r ∧
          r.action = 0) := by
  refine ⟨_, _, fwPacketHandler_version hv, ?_⟩
  rw [actionOf_forward]
  by_cases hmatch : ∃ r ∈ file, r.Matches (ipSrc bytes etherHdrSize)
  · rw [lookup_accepts_iff hsetup hmatch, or_iff_right]
    obtain ⟨r, hr, hm⟩ := hmatch
    exact fun hnone => hnone r hr hm
  · have hnone : ∀ r ∈ file, ¬ r.Matches (ipSrc bytes etherHdrSize) :=
      fun r hr hm => hmatch ⟨r, hr, hm⟩
    rw [lookup_no_match hsetup hnone]
    exact iff_of_true rfl (.inl hnone)

/-! ## Runs that can be computed -/

section Run

variable {file : List FwRule} {ok : Setups → SetupAction → Prop} {w : Setups}
  {actions : List SetupAction}

/-- Every action is permitted when its turn comes. -/
def Setups.permits (file : List FwRule) (ok : Setups → SetupAction → Bool)
    (w : Setups) : List SetupAction → Bool
  | [] => true
  | a :: actions => ok w a && (w.step file a).permits file ok actions

theorem reach_run (allowed : Setups → SetupAction → Bool)
    (h : (setups file).Reach ok w)
    (hok : ∀ w a, allowed w a = true → ok w a)
    (hpermits : w.permits file allowed actions = true) :
    (setups file).Reach ok (w.run file actions) := by
  induction actions generalizing w with
  | nil => exact h
  | cons a actions ih =>
      rw [Setups.permits, Bool.and_eq_true] at hpermits
      exact ih (.step h (hok w a hpermits.1) rfl) hpermits.2

theorem pc_step_of_ne {a : SetupAction} {j : Nat} (h : j ≠ a.lcoreId) :
    (w.step file a).pc j = w.pc j := by
  rcases setups_step_cases w a with
    ⟨-, heq⟩ | ⟨-, -, heq⟩ | ⟨pc, s, -, -, heq⟩
  · rw [heq]
  · rw [heq]
  · rw [heq, pc_advance_of_ne h]

/-- A coprocessor that has no turn stays where it is. -/
theorem pc_run_of_ne {j : Nat} (h : ∀ a ∈ actions, j ≠ a.lcoreId) :
    (w.run file actions).pc j = w.pc j := by
  induction actions generalizing w with
  | nil => rfl
  | cons a actions ih =>
      obtain ⟨ha, hrest⟩ := List.forall_mem_cons.mp h
      rw [Setups.run, ih hrest, pc_step_of_ne ha]

end Run

end GhostDataplane.Engine
