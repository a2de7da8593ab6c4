import GhostDataplane.Proofs.SharedSetup

/-!
# Set-ups one at a time, and several at once

A set-up that nobody disturbs, whose file is loaded and who gets the memory it
asks for, fills the array that it goes back to, so that every slot it goes
through was stored. If every address parses, every rule that it adds was stored
too. `Ready` is what such a set-up has achieved by its program counter. It is
enough that the others have not begun or are done: they may have left anything
behind, the array is a new one.

Two set-ups at once are enough to take the engine down, and a rule in the file
is enough for a pointer that is not there: the second set-up puts its new array
in place of the array of the first between two statements of the first. Three
are enough for a table with a rule in it that is in no file.

A set-up on its own comes to its end, one statement at a time (`alone`). That is
used for a run that is in no way out of order and still not what the firewall is
for: between the creation of a table and the first rule in it, whoever has been
set up before decides by an empty table.
-/

namespace GhostDataplane.Engine

open GhostDataplane.Lib

section Ready

variable {file : List FwRule} {env : SetupEnv} {s s' : Shared}
  {array n i rule : Nat} {full : Prop}

/-! ## What a set-up has achieved -/

/-- The first `n` slots of the array lead to rules, which have been stored if
`full` holds. -/
def Shared.Holds (full : Prop) (s : Shared) (array n : Nat) : Prop :=
  ∀ k < n, ∃ addr, s.slots array k = .rule addr ∧
    (full → (s.memory addr).written = true)

/-- What a set-up that was not disturbed has achieved when it is here. -/
def SetupPc.Ready (file : List FwRule) (full : Prop) (s : Shared) :
    SetupPc → Prop
  | .readFile | .storeCount | .mallocArray | .finished _ => True
  | .mallocRule i => i ≤ file.length ∧
      ∃ array, s.rules = some array ∧ s.Holds full array i
  | .storeIp i => ∃ array rule, s.rules = some array ∧ s.Holds full array i ∧
      s.slots array i = .rule rule
  | .storeDepth i => ∃ array rule, s.rules = some array ∧
      s.Holds full array i ∧ s.slots array i = .rule rule ∧
      (full → (s.memory rule).srcIp.isSome)
  | .storeAction i => ∃ array rule, s.rules = some array ∧
      s.Holds full array i ∧ s.slots array i = .rule rule ∧
      (full → (s.memory rule).srcIp.isSome ∧ (s.memory rule).depth.isSome)
  | .returnRules =>
      ∃ array, s.rules = some array ∧ s.Holds full array file.length
  | .callLpmSetup rules | .createTable rules _ | .addRule rules _ _ =>
      ∃ array, rules = some array ∧ s.Holds full array file.length

theorem Shared.Holds.congr (h : s.Holds full array n)
    (hslots : s'.slots = s.slots) (hmemory : s'.memory = s.memory) :
    s'.Holds full array n := by
  intro k hk
  obtain ⟨addr, haddr, hw⟩ := h k hk
  refine ⟨addr, by rw [hslots, haddr], ?_⟩
  rwa [hmemory]

/-- A store to a field keeps what was stored. -/
theorem Store.written {r : FwRule} {pc pc' : SetupPc}
    {field : RuleMemory → RuleMemory} (h : Store r i pc pc' field)
    {m : RuleMemory} (hw : m.written = true) : (field m).written = true := by
  rw [written_iff] at hw ⊢
  cases h with
  | ip => exact ⟨rfl, hw.2⟩
  | depth => exact ⟨hw.1, rfl, hw.2.2⟩
  | action => exact ⟨hw.1, hw.2.1, rfl⟩

theorem Shared.Holds.store {r : FwRule} {pc pc' : SetupPc}
    {field : RuleMemory → RuleMemory} (h : s.Holds full array n)
    (hfield : Store r i pc pc' field) :
    (s.store rule field).Holds full array n := by
  intro k hk
  obtain ⟨addr, haddr, hw⟩ := h k hk
  refine ⟨addr, haddr, fun hfull => ?_⟩
  by_cases heq : addr = rule
  · rw [heq, memory_store_self]
    exact hfield.written (heq ▸ hw hfull)
  · rw [memory_store_of_ne heq]
    exact hw hfull

theorem slots_mallocRule_self :
    (s.mallocRule true array i).slots array i = .rule s.brk :=
  slots_setSlot_self

theorem Shared.Holds.mallocRule (h : s.Holds full array i)
    (hp : Provenance file s) :
    (s.mallocRule true array i).Holds full array i := by
  intro k hk
  obtain ⟨addr, haddr, hw⟩ := h k hk
  refine ⟨addr, ?_, fun hfull => ?_⟩
  · simp only [Shared.mallocRule, Shared.setSlot, if_true,
      Function.update_self, Function.update_of_ne (Nat.ne_of_lt hk), haddr]
  · rw [memory_mallocRule_of_lt (hp.lt haddr).2]
    exact hw hfull

/-- One rule more. -/
theorem Shared.Holds.succ (h : s.Holds full array i)
    (hslot : s.slots array i = .rule rule)
    (hw : full → (s.memory rule).written = true) :
    s.Holds full array (i + 1) := by
  intro k hk
  rcases Nat.lt_succ_iff_lt_or_eq.mp hk with hk | rfl
  · exact h k hk
  · exact ⟨rule, hslot, hw⟩

/-- The store of a field, by a set-up that is ready for it. -/
theorem Store.ready {r : FwRule} {pc pc' : SetupPc}
    {field : RuleMemory → RuleMemory} (hfield : Store r i pc pc' field)
    (hrules : s.rules = some array) (hslot : s.slots array i = .rule rule)
    (hsound : pc.Sound file s.numRules) (hready : pc.Ready file full s) :
    pc'.Ready file full (s.store rule field) := by
  have hkeep : ∀ {n}, s.Holds full array n →
      (s.store rule field).Holds full array n :=
    fun hholds => hholds.store hfield
  have hmemory : (s.store rule field).memory rule = field (s.memory rule) :=
    memory_store_self
  cases hfield with
  | ip =>
      obtain ⟨array, rule, hrules', hholds, hslot'⟩ := hready
      cases hrules.symm.trans hrules'
      cases hslot.symm.trans hslot'
      refine ⟨_, _, hrules, hkeep hholds, hslot, fun _ => ?_⟩
      rw [hmemory]
      rfl
  | depth =>
      obtain ⟨array, rule, hrules', hholds, hslot', hip⟩ := hready
      cases hrules.symm.trans hrules'
      cases hslot.symm.trans hslot'
      refine ⟨_, _, hrules, hkeep hholds, hslot, fun hfull => ?_⟩
      rw [hmemory]
      exact ⟨hip hfull, rfl⟩
  | action =>
      obtain ⟨array, rule, hrules', hholds, hslot', hfields⟩ := hready
      cases hrules.symm.trans hrules'
      cases hslot.symm.trans hslot'
      refine ⟨hsound.2, _, hrules, (hkeep hholds).succ hslot fun hfull => ?_⟩
      rw [hmemory, written_iff]
      exact ⟨(hfields hfull).1, (hfields hfull).2, rfl⟩

theorem Statement.ready {pc pc' : SetupPc}
    (h : Statement file env pc s pc' s') (hmalloc : env.malloc = true)
    (hparses : full → env.parses = true) (hp : Provenance file s)
    (hsound : pc.Sound file s.numRules) (hready : pc.Ready file full s) :
    pc'.Ready file full s' := by
  cases h with
  | reading | parsed | storeCount => trivial
  | mallocArray =>
      rw [hmalloc]
      exact ⟨Nat.zero_le _, s.brk, rfl,
        fun k hk => absurd hk (Nat.not_lt_zero k)⟩
  | mallocRule hi hrules =>
      rw [hmalloc]
      obtain ⟨-, array, hrules', hholds⟩ := hready
      cases hrules.symm.trans hrules'
      exact ⟨_, s.brk, hrules, hholds.mallocRule hp, slots_mallocRule_self⟩
  | loaded hi =>
      obtain ⟨hle, array, hrules, hholds⟩ := hready
      rw [Nat.le_antisymm hle hi] at hholds
      exact ⟨array, hrules, hholds⟩
  | store hrules hslot _ hfield =>
      exact hfield.ready hrules hslot hsound hready
  | skipIp hrules hwhy =>
      obtain ⟨array, rule, hrules', hholds, hslot⟩ := hready
      cases hrules.symm.trans hrules'
      refine ⟨_, _, hrules, hholds, hslot, fun hfull => ?_⟩
      rcases hwhy with hnull | hno
      · cases hslot.symm.trans hnull
      · cases (hparses hfull).symm.trans hno
  | returnRules =>
      obtain ⟨array, hrules, hholds⟩ := hready
      exact ⟨array, hrules, hholds⟩
  | callLpmSetup => exact hready
  | createTable =>
      obtain ⟨array, hrules, hholds⟩ := hready
      refine ⟨array, hrules, ?_⟩
      unfold Shared.createTable
      split
      · exact hholds.congr rfl rfl
      · exact hholds.congr rfl rfl
  | add =>
      obtain ⟨array, hrules, hholds⟩ := hready
      exact ⟨array, hrules, hholds.congr rfl rfl⟩
  | addFailed | added | finished => trivial

theorem storeField_ne_none {field : FwRule → RuleMemory → RuleMemory}
    {pc : SetupPc} (hrules : s.rules = some array)
    (hslot : s.slots array i = .rule rule) (hi : i < file.length) :
    storeField file i field pc s ≠ none := by
  simp [storeField, Shared.ruleAt, Slot.addr, hrules, hslot,
    List.getElem?_eq_getElem hi]

/-- A set-up that is ready does not take the engine down, if the file is
loaded. -/
theorem SetupPc.Ready.step {pc : SetupPc} (h : pc.Ready file full s)
    (hsound : pc.Sound file s.numRules) (hloads : env.loads = true) :
    setupStep file env pc s ≠ none := by
  simp only [SetupEnv.loads, Bool.and_eq_true, bne_iff_ne] at hloads
  obtain ⟨⟨houtside, hnull⟩, hfields⟩ := hloads
  cases pc with
  | readFile =>
      rw [setupStep]
      split
      · exact Option.some_ne_none _
      · exact Option.some_ne_none _
      · next heq => exact absurd heq houtside
      · next heq => exact absurd heq hnull
  | mallocRule i =>
      obtain ⟨-, array, hrules, -⟩ := h
      rw [setupStep]
      by_cases hi : i < file.length
      · rw [if_pos hi, if_pos hfields, hrules]
        exact Option.some_ne_none _
      · rw [if_neg hi]
        exact Option.some_ne_none _
  | storeIp i =>
      obtain ⟨array, rule, hrules, -, hslot⟩ := h
      have hi : i < file.length := hsound.2
      simp only [setupStep, hrules, Option.bind_some, hslot, storeSrcIp,
        List.getElem?_eq_getElem hi]
      split <;> exact Option.some_ne_none _
  | storeDepth i =>
      obtain ⟨array, rule, hrules, -, hslot, -⟩ := h
      exact storeField_ne_none hrules hslot hsound.2
  | storeAction i =>
      obtain ⟨array, rule, hrules, -, hslot, -⟩ := h
      exact storeField_ne_none hrules hslot hsound.2
  | addRule rules n i =>
      obtain ⟨array, rfl, hholds⟩ := h
      have hn : n = file.length := hsound.2
      rw [setupStep]
      split
      · next hi =>
          obtain ⟨addr, haddr, -⟩ := hholds i (by omega)
          simp [haddr, Slot.addr]
      · simp
  | _ => simp [setupStep]

/-- A set-up that is ready, with every address parsed, adds rules that have been
stored. -/
theorem SetupPc.Ready.readsStored {pc : SetupPc} (h : pc.Ready file True s)
    (hsound : pc.Sound file s.numRules) : pc.readsStored s = true := by
  cases pc with
  | addRule rules n i =>
      obtain ⟨array, rfl, hholds⟩ := h
      have hn : n = file.length := hsound.2
      rw [SetupPc.readsStored, Bool.or_eq_true, decide_eq_true_eq]
      by_cases hi : n ≤ i
      · exact .inl hi
      · obtain ⟨addr, haddr, hw⟩ := hholds i (by omega)
        rw [haddr]
        exact .inr (hw trivial)
  | _ => rfl

end Ready

/-! ## One at a time -/

section Serial

variable {file : List FwRule} {w : Setups} {full : Prop}

/-- Everybody is ready, and nothing has happened. -/
structure Serial (file : List FwRule) (full : Prop) (w : Setups) : Prop where
  grounded : Grounded file w
  crashed : w.crashed = false
  ready : ∀ i, (w.pc i).Ready file full w.shared

theorem serial_start : Serial file full .start :=
  ⟨grounded_start, rfl, fun _ => trivial⟩

/-- A step of the one whose turn it is. -/
theorem Serial.step (h : Serial file full w) {a : SetupAction}
    (ha : oneAtATime w a) (hprovided : provided w a)
    (hparses : full → a.env.parses = true) :
    ∃ pc s, setupStep file a.env (w.pc a.lcoreId) w.shared = some (pc, s) ∧
      w.step file a = w.advance a.lcoreId pc s ∧
      Serial file full (w.advance a.lcoreId pc s) := by
  obtain ⟨⟨pc, s⟩, hstep⟩ := Option.ne_none_iff_exists'.mp
    ((h.ready a.lcoreId).step (h.grounded.sound a.lcoreId) hprovided.1)
  have hst := setupStep_statement hstep
  refine ⟨pc, s, hstep, ?_, h.grounded.advance hst, h.crashed, fun j => ?_⟩
  · rw [Setups.step, if_neg (by rw [h.crashed]; exact Bool.false_ne_true),
      hstep]
    rfl
  · by_cases hj : j = a.lcoreId
    · rw [hj, pc_advance_self]
      exact hst.ready hprovided.2 hparses h.grounded.provenance
        (h.grounded.sound _) (h.ready _)
    · rw [pc_advance_of_ne hj]
      rcases ha j hj with hpc | ⟨ret, hpc⟩
      · rw [hpc]
        trivial
      · rw [hpc]
        trivial

theorem serial_of_reach {ok : Setups → SetupAction → Prop}
    (hok : ∀ w a, (setups file).Reach ok w → ok w a →
      oneAtATime w a ∧ provided w a ∧ (full → a.env.parses = true))
    (h : (setups file).Reach ok w) : Serial file full w := by
  refine h.invariant (fun w hw => ?_) fun w a w' hreach hw ha hstep => ?_
  · rw [show w = Setups.start from hw]
    exact serial_start
  · obtain ⟨hone, hprovided, hparses⟩ := hok w a hreach ha
    obtain ⟨pc, s, -, heq, hserial⟩ := hw.step hone hprovided hparses
    rw [show w' = w.step file a from hstep, heq]
    exact hserial

/-- Set-ups that are made one at a time, with every address parsed, add nothing
before its time. -/
theorem reach_readsStored
    (h : (setups file).Reach
      (fun w a => oneAtATime w a ∧ provided w a ∧ a.env.parses = true) w) :
    (setups file).Reach readsStored w := by
  induction h with
  | init hw => exact .init hw
  | @step w w' a hreach ha hstep ih =>
      have hserial : Serial file True w := by
        refine serial_of_reach (fun w a _ ha => ?_) hreach
        exact ⟨ha.1, ha.2.1, fun _ => ha.2.2⟩
      exact .step ih ((hserial.ready a.lcoreId).readsStored
        (hserial.grounded.sound a.lcoreId)) hstep

end Serial

/-- However the statements of the set-ups were mixed, if no rule was added
before all its fields had been stored, then when all that have read their file
are done and none has reported a failure, the table is the one that a single
set-up makes, and the firewall decides by the rules of the file. Set-ups that
are made one at a time, with a file that is loaded, memory to be had and
addresses that parse, add no rule before its time. -/
theorem setups_converge (file : List FwRule) :
    (∀ w, (setups file).Reach readsStored w →
      (∀ i, w.pc i = .readFile ∨ w.pc i = .finished 0) →
      (∃ i, w.pc i = .finished 0) →
      (file ≠ [] → w.shared.lpmTbl ≠ none) ∧
      ∀ t, w.shared.lpmTbl = some t →
        lpmSetup ⟨true, fun _ => true⟩ file = (0, some (w.shared.tables t)) ∧
        ∀ bytes stats, ipVersion bytes = 4 →
          ∃ action stats',
            fwPacketHandler (some (w.shared.tables t)) bytes stats =
              .ok (action, stats') ∧
            (action = .forward ↔
              (∀ r ∈ file, ¬ r.Matches (ipSrc bytes etherHdrSize)) ∨
              ∃ r, LongestMatch file (ipSrc bytes etherHdrSize) r ∧
                r.action = 0)) ∧
    ∀ w, (setups file).Reach
        (fun w a => oneAtATime w a ∧ provided w a ∧ a.env.parses = true) w →
      (setups file).Reach readsStored w := by
  refine ⟨fun w h hall hsome => ⟨fun hfile => ?_, fun t ht => ?_⟩,
    fun w h => reach_readsStored h⟩
  · exact (grounded_of_reach h).lpmTbl_ne_none hall hsome hfile
  · have hsetup :=
      (consistent_of_reach (fun _ _ => id) h).lpmSetup_eq hall hsome ht
    exact ⟨hsetup, fun bytes stats hv =>
      fwPacketHandler_forward_iff hsetup hv stats⟩

/-- Coprocessor 0 is about to create its table when coprocessor 1 makes all of
its set-up; then it goes on. -/
def overlappingRun : List SetupAction :=
  List.replicate 10 ⟨0, .fine⟩ ++ List.replicate 13 ⟨1, .fine⟩ ++
    List.replicate 3 ⟨0, .fine⟩

/-- The two set-ups of the run have left the table of the one rule. -/
theorem setups_converge_overlapping :
    ∃ t, (Setups.start.run [sampleRule] overlappingRun).shared.lpmTbl = some t ∧
      lpmSetup ⟨true, fun _ => true⟩ [sampleRule] =
        (0, some
          ((Setups.start.run [sampleRule] overlappingRun).shared.tables
            t)) := by
  have hreach : (setups [sampleRule]).Reach readsStored
      (Setups.start.run [sampleRule] overlappingRun) :=
    reach_run (fun w a => (w.pc a.lcoreId).readsStored w.shared)
      (.init rfl) (fun _ _ => id) (by decide +kernel)
  have hdone : ∀ i < 2,
      (Setups.start.run [sampleRule] overlappingRun).pc i = .finished 0 := by
    decide +kernel
  have hall : ∀ i,
      (Setups.start.run [sampleRule] overlappingRun).pc i = .readFile ∨
      (Setups.start.run [sampleRule] overlappingRun).pc i = .finished 0 := by
    intro i
    by_cases hi : i < 2
    · exact .inr (hdone i hi)
    · refine .inl (pc_run_of_ne fun a ha => ?_)
      have hlt : a.lcoreId < 2 := by
        revert ha
        simp only [overlappingRun, List.mem_append, List.mem_replicate]
        rintro ((⟨-, rfl⟩ | ⟨-, rfl⟩) | ⟨-, rfl⟩) <;> decide
      omega
  obtain ⟨hsome, htable⟩ := (setups_converge [sampleRule]).1 _ hreach hall
    ⟨0, hdone 0 (by decide)⟩
  obtain ⟨t, ht⟩ := Option.ne_none_iff_exists'.mp (hsome (List.cons_ne_nil _ _))
  exact ⟨t, ht, (htable t ht).1⟩

/-! ## Several at once -/

section Crash

variable {file : List FwRule} {w : Setups} {n : Nat}

theorem pc_of_not_among {ok : Setups → SetupAction → Prop}
    (hok : ∀ w a, ok w a → amongFirst n w a) (h : (setups file).Reach ok w) :
    ∀ j, n ≤ j → w.pc j = .readFile := by
  refine h.invariant (I := fun w => ∀ j, n ≤ j → w.pc j = .readFile)
    (fun w hw j _ => ?_) fun w a w' _ hw ha hstep j hj => ?_
  · rw [show w = Setups.start from hw]
    rfl
  · have hlt : a.lcoreId < n := hok w a ha
    have hne : j ≠ a.lcoreId := by omega
    rw [show w' = w.step file a from hstep, pc_step_of_ne hne]
    exact hw j hj

/-- A coprocessor that is the only one has no other to wait for. -/
theorem serial_of_one
    (h : (setups file).Reach (fun w a => amongFirst 1 w a ∧ provided w a) w) :
    Serial file False w := by
  refine serial_of_reach (fun w a hreach ha => ?_) h
  refine ⟨fun j hj => .inl ?_, ha.2, False.elim⟩
  have hlt : a.lcoreId < 1 := ha.1
  exact pc_of_not_among (fun _ _ hok => hok.1) hreach j (by omega)

/-- Without a rule there is no slot to go through. -/
theorem setupStep_nil {pc : SetupPc} {s : Shared} {env : SetupEnv}
    (hsound : pc.Sound [] s.numRules) (hloads : env.loads = true) :
    setupStep [] env pc s ≠ none := by
  cases pc with
  | readFile =>
      have hready : SetupPc.readFile.Ready [] False s := trivial
      exact hready.step hsound hloads
  | storeIp i | storeDepth i | storeAction i =>
      exact absurd hsound.2 (Nat.not_lt_zero i)
  | addRule rules n i =>
      have hn : n = 0 := hsound.2
      simp [setupStep, hn]
  | _ => simp [setupStep]

theorem not_crashed_of_nil {ok : Setups → SetupAction → Prop}
    (hok : ∀ w a, ok w a → provided w a) (h : (setups []).Reach ok w) :
    w.crashed = false := by
  refine h.invariant (I := fun w => w.crashed = false) (fun w hw => ?_)
    fun w a w' hreach hw ha hstep => ?_
  · rw [show w = Setups.start from hw]
    rfl
  · rw [show w' = w.step [] a from hstep]
    rcases setups_step_cases w a with
      ⟨-, heq⟩ | ⟨-, hnone, -⟩ | ⟨pc, s, -, -, heq⟩
    · rw [heq]
      exact hw
    · exact absurd hnone (setupStep_nil
        ((grounded_of_reach hreach).sound a.lcoreId) (hok w a ha).1)
    · rw [heq]
      exact hw

/-- The second coprocessor puts its array in place of the first's when the first
has filled a slot and not yet gone through it. -/
def crashingRun : List SetupAction :=
  List.replicate 4 ⟨0, .fine⟩ ++ List.replicate 3 ⟨1, .fine⟩ ++ [⟨0, .fine⟩]

theorem crashingRun_crashed (r : FwRule) (rules : List FwRule) :
    (Setups.start.run (r :: rules) crashingRun).crashed = true := rfl

end Crash

/-- Coprocessors whose file is loaded and who get their memory can take the
engine down while they are set up exactly if there are two of them and the file
has a rule. Set up one after the other, they never do. Without that, one of them
is enough: if the file is not loaded, whatever is in it, and if there is no
memory for a rule. -/
theorem setup_crashes_iff (file : List FwRule) :
    (∀ n, (∃ w, (setups file).Reach
        (fun w a => amongFirst n w a ∧ provided w a) w ∧ w.crashed = true) ↔
      2 ≤ n ∧ file ≠ []) ∧
    (∀ w, (setups file).Reach (fun w a => oneAtATime w a ∧ provided w a) w →
      w.crashed = false) ∧
    (∃ w, (setups file).Reach
      (fun w a => amongFirst 1 w a ∧ a.env.malloc = true) w ∧
      w.crashed = true) ∧
    (file ≠ [] → ∃ w, (setups file).Reach
      (fun w a => amongFirst 1 w a ∧ a.env.loads = true) w ∧
      w.crashed = true) := by
  refine ⟨fun n => ⟨?_, ?_⟩, fun w hw => ?_, ?_, fun hfile => ?_⟩
  · rintro ⟨w, hw, hcrash⟩
    constructor
    · by_contra hn
      have hone : (setups file).Reach
          (fun w a => amongFirst 1 w a ∧ provided w a) w := by
        refine hw.mono fun _ a ha => ⟨?_, ha.2⟩
        have hlt : a.lcoreId < n := ha.1
        exact show a.lcoreId < 1 by omega
      rw [(serial_of_one hone).crashed] at hcrash
      cases hcrash
    · rintro rfl
      rw [not_crashed_of_nil (fun _ _ hok => hok.2) hw] at hcrash
      cases hcrash
  · rintro ⟨hn, hfile⟩
    obtain ⟨r, rules, rfl⟩ := List.exists_cons_of_ne_nil hfile
    refine ⟨_, reach_run (fun _ a => a.lcoreId < 2 &&
      (a.env.loads && a.env.malloc)) (.init rfl) (fun _ a ha => ?_) rfl,
      crashingRun_crashed r rules⟩
    rw [Bool.and_eq_true, Bool.and_eq_true, decide_eq_true_eq] at ha
    exact ⟨Nat.lt_of_lt_of_le ha.1 hn, ha.2⟩
  · have hserial : Serial file False w :=
      serial_of_reach (fun _ _ _ ha => ⟨ha.1, ha.2, False.elim⟩) hw
    exact hserial.crashed
  · exact ⟨_, .step (a := ⟨0, { SetupEnv.fine with read := .null }⟩)
      (.init rfl) ⟨Nat.zero_lt_one, rfl⟩ rfl, rfl⟩
  · obtain ⟨r, rules, rfl⟩ := List.exists_cons_of_ne_nil hfile
    refine ⟨Setups.start.run (r :: rules)
        (List.replicate 4 ⟨0, { SetupEnv.fine with malloc := false }⟩),
      reach_run (fun _ a => a.lcoreId < 1 && a.env.loads)
        (.init rfl) (fun _ a ha => ?_) rfl, rfl⟩
    rw [Bool.and_eq_true, decide_eq_true_eq] at ha
    exact ha

/-! ## A set-up on its own -/

section Alone

variable {file : List FwRule} {w : Setups} {n : Nat}

/-- The number of statements that are left of a set-up. -/
def SetupPc.rank (length : Nat) : SetupPc → Nat
  | .readFile => 5 * length + 8
  | .storeCount => 5 * length + 7
  | .mallocArray => 5 * length + 6
  | .mallocRule i => 4 * (length - i) + length + 5
  | .storeIp i => 4 * (length - i) + length + 4
  | .storeDepth i => 4 * (length - i) + length + 3
  | .storeAction i => 4 * (length - i) + length + 2
  | .returnRules => length + 4
  | .callLpmSetup _ => length + 3
  | .createTable _ _ => length + 2
  | .addRule _ _ i => length - i + 1
  | .finished _ => 0

/-- There is one statement less to go. If all goes well nothing fails. -/
theorem Statement.rank {s s' : Shared} {pc pc' : SetupPc}
    (h : Statement file .fine pc s pc' s') (hp : Provenance file s)
    (hsound : pc.Sound file s.numRules) (hready : pc.Ready file True s)
    (hdepth : ∀ r ∈ file, r.DepthOk) (hpast : pc.PastCreate → s.lpmTbl ≠ none)
    (hpos : 0 < pc.rank file.length) :
    pc'.rank file.length + 1 = pc.rank file.length ∧
      ∀ ret, pc' = .finished ret → ret = 0 := by
  have hstored := hready.readsStored hsound
  cases h with
  | reading henv => cases henv
  | parsed | storeCount | mallocRule | returnRules | callLpmSetup
  | createTable => exact ⟨rfl, fun _ hret => by cases hret⟩
  | mallocArray | loaded =>
      refine ⟨?_, fun _ hret => by cases hret⟩
      simp only [SetupPc.rank]
      omega
  | store _ _ _ hfield =>
      cases hfield with
      | ip | depth => exact ⟨rfl, fun _ hret => by cases hret⟩
      | action =>
          refine ⟨?_, fun _ hret => by cases hret⟩
          have hi := hsound.2
          simp only [SetupPc.rank]
          omega
  | skipIp => exact ⟨rfl, fun _ hret => by cases hret⟩
  | add hi =>
      refine ⟨?_, fun _ hret => by cases hret⟩
      have hn := hsound.2
      simp only [SetupPc.rank]
      omega
  | addFailed hi hslot hr hwhy =>
      have hread := hp.added SetupEnv.fine.junk hi hslot hstored
      rw [hr] at hread
      rcases hwhy with hnone | hbad | hroom
      · exact absurd hnone (hpast trivial)
      · exact absurd (hdepth _ (List.mem_of_getElem? hread)) hbad
      · cases hroom
  | added hi =>
      refine ⟨?_, fun _ hret => by cases hret; rfl⟩
      have hn := hsound.2
      simp only [SetupPc.rank]
      omega
  | finished => exact absurd hpos (Nat.lt_irrefl 0)

/-- The first `n` coprocessors, one at a time, and all goes well. -/
def orderly (n : Nat) (w : Setups) (a : SetupAction) : Prop :=
  amongFirst n w a ∧ a.env = .fine ∧ oneAtATime w a

theorem orderly.tablesCreated {a : SetupAction} (h : orderly n w a) :
    tablesCreated w a :=
  show a.env.create = true by rw [h.2.1]; rfl

theorem serial_of_orderly (h : (setups file).Reach (orderly n) w) :
    Serial file True w := by
  refine serial_of_reach (fun w a _ ha => ?_) h
  obtain ⟨-, henv, hone⟩ := ha
  rw [provided, henv]
  exact ⟨hone, ⟨rfl, rfl⟩, fun _ => rfl⟩

/-- A coprocessor can go on to any statement that is ahead of it. -/
theorem alone {i m : Nat} (hi : i < n) (hdepth : ∀ r ∈ file, r.DepthOk)
    (h : (setups file).Reach (orderly n) w)
    (hothers : ∀ j, j ≠ i → w.pc j = .readFile ∨ ∃ ret, w.pc j = .finished ret)
    (hret : ∀ ret, w.pc i = .finished ret → ret = 0)
    (hm : m ≤ (w.pc i).rank file.length) :
    ∃ w', (setups file).Reach (orderly n) w' ∧
      (w'.pc i).rank file.length = m ∧
      (∀ ret, w'.pc i = .finished ret → ret = 0) ∧
      ∀ j, j ≠ i → w'.pc j = w.pc j := by
  obtain ⟨k, hk⟩ := Nat.exists_eq_add_of_le hm
  clear hm
  induction k generalizing w with
  | zero => exact ⟨w, h, hk, hret, fun _ _ => rfl⟩
  | succ k ih =>
      have hserial := serial_of_orderly h
      have hcreated := created_of_reach
        (h.mono fun _ _ ha => ha.tablesCreated)
      have hok : orderly n w ⟨i, .fine⟩ := ⟨hi, rfl, hothers⟩
      obtain ⟨pc, s, hstep, heq, -⟩ :
          ∃ pc s, setupStep file .fine (w.pc i) w.shared = some (pc, s) ∧
            w.step file ⟨i, .fine⟩ = w.advance i pc s ∧ _ :=
        hserial.step hok.2.2 ⟨rfl, rfl⟩ fun _ => rfl
      obtain ⟨hrank, hret'⟩ := (setupStep_statement hstep).rank
        hserial.grounded.provenance (hserial.grounded.sound i)
        (hserial.ready i) hdepth (hcreated i) (by omega)
      have hreach : (setups file).Reach (orderly n) (w.advance i pc s) :=
        .step h hok heq.symm
      obtain ⟨w', hreach', hrank', hret'', hothers'⟩ := ih hreach
        (fun j hj => by rw [pc_advance_of_ne hj]; exact hothers j hj)
        (by rwa [pc_advance_self]) (by rw [pc_advance_self]; omega)
      refine ⟨w', hreach', hrank', hret'', fun j hj => ?_⟩
      rw [hothers' j hj, pc_advance_of_ne hj]

end Alone

/-! ## What the firewall does in the meantime -/

/-- Drop what comes from 10.0.0.0/8. -/
def tenDropped : FwRule := ⟨0x0A000000, 8, 1⟩

/-- An empty table forwards everything. -/
theorem fwPacketHandler_empty {bytes : Nat → UInt8} (hv : ipVersion bytes = 4)
    (stats : FirewallPktStats) :
    ∃ stats', fwPacketHandler (some Lpm.empty) bytes stats =
      .ok (.forward, stats') := by
  have hmiss :
      Lpm.lookup rteLpmMaxDepth (Lpm.empty : RteLpm)
        (ipSrc bytes etherHdrSize) =
      none := Lpm.search_of_miss fun _ _ => rfl
  rw [fwPacketHandler_version hv, rteLpmLookup, hmiss]
  exact ⟨_, rfl⟩

/-- For every file of rules that the library takes there is a run with two
coprocessors, set up one after the other, in which the first is done and at work
while the second has just created its table; and then the firewall forwards
every packet of version 4, whatever the rules say of it. -/
theorem setup_opens_firewall (file : List FwRule)
    (hdepth : ∀ r ∈ file, r.DepthOk) :
    ∃ w, (setups file).Reach (fun w a => amongFirst 2 w a ∧ tablesCreated w a ∧
        oneAtATime w a) w ∧
      w.crashed = false ∧ w.pc 0 = .finished 0 ∧
      ∀ bytes stats, ipVersion bytes = 4 →
        ∃ stats', fwPacketHandler
          (w.shared.lpmTbl.map w.shared.tables) bytes stats =
          .ok (.forward, stats') := by
  -- The first coprocessor runs to the end of its set-up.
  obtain ⟨w₁, hreach₁, hrank₁, hret₁, hothers₁⟩ :=
    alone (i := 0) (m := 0) (n := 2)
    (by decide) hdepth (.init rfl) (fun _ _ => .inl rfl) (fun _ h => by cases h)
    (Nat.zero_le _)
  have hpc₁ : w₁.pc 0 = .finished 0 := by
    cases hpc : w₁.pc 0 with
    | finished ret => rw [hret₁ ret hpc]
    | _ =>
        rw [hpc] at hrank₁
        simp only [SetupPc.rank] at hrank₁
        omega
  have hone : w₁.pc 1 = .readFile := hothers₁ 1 (by decide)
  have hidle₁ : ∀ j, j ≠ 1 →
      w₁.pc j = .readFile ∨ ∃ ret, w₁.pc j = .finished ret := by
    intro j hj
    by_cases hj0 : j = 0
    · rw [hj0]
      exact .inr ⟨0, hpc₁⟩
    · exact .inl (hothers₁ j hj0)
  -- The second runs up to the creation of its table, and creates it.
  obtain ⟨w₂, hreach₂, hrank₂, -, hothers₂⟩ :=
    alone (i := 1) (m := file.length + 2)
    (by decide) hdepth hreach₁ hidle₁ (fun _ h => by rw [hone] at h; cases h)
    (by rw [hone]; simp only [SetupPc.rank]; omega)
  have hidle₂ : ∀ j, j ≠ 1 →
      w₂.pc j = .readFile ∨ ∃ ret, w₂.pc j = .finished ret := by
    intro j hj
    rw [hothers₂ j hj]
    exact hidle₁ j hj
  have hok : orderly 2 w₂ ⟨1, .fine⟩ := ⟨Nat.lt_succ_self 1, rfl, hidle₂⟩
  have hserial := serial_of_orderly hreach₂
  have hsound := hserial.grounded.sound 1
  obtain ⟨rules, n, hpc₂⟩ : ∃ rules n, w₂.pc 1 = .createTable rules n := by
    cases hpc : w₂.pc 1 with
    | createTable rules n => exact ⟨rules, n, rfl⟩
    | storeIp i | storeDepth i | storeAction i =>
        rw [hpc] at hrank₂ hsound
        have hi := hsound.2
        simp only [SetupPc.rank] at hrank₂
        omega
    | _ =>
        rw [hpc] at hrank₂
        simp only [SetupPc.rank] at hrank₂
        omega
  obtain ⟨pc, s, hstep, heq, hserial'⟩ :
      ∃ pc s, setupStep file .fine (w₂.pc 1) w₂.shared = some (pc, s) ∧
        w₂.step file ⟨1, .fine⟩ = w₂.advance 1 pc s ∧ _ :=
    hserial.step hok.2.2 ⟨rfl, rfl⟩ fun _ => rfl
  rw [hpc₂] at hstep
  cases hstep
  have hreach₃ : (setups file).Reach (orderly 2) _ :=
    .step hreach₂ hok heq.symm
  refine ⟨_, hreach₃.mono fun _ _ ha => ⟨ha.1, ha.tablesCreated, ha.2.2⟩,
    hserial'.crashed, ?_, ?_⟩
  · rw [pc_advance_of_ne (by decide), hothers₂ 0 (by decide), hpc₁]
  · intro bytes stats hv
    have htable : (w₂.shared.createTable true).lpmTbl.map
        (w₂.shared.createTable true).tables = some Lpm.empty := by
      simp [Shared.createTable]
    show ∃ stats', fwPacketHandler ((w₂.shared.createTable true).lpmTbl.map
      (w₂.shared.createTable true).tables) bytes stats = .ok (.forward, stats')
    rw [htable]
    exact fwPacketHandler_empty hv stats

/-- A packet of 10.0.0.1 is forwarded while the second coprocessor is being set
up. -/
theorem setup_opens_firewall_ten :
    ∃ w, (setups [tenDropped]).Reach
      (fun w a => amongFirst 2 w a ∧ tablesCreated w a ∧
        oneAtATime w a) w ∧ w.pc 0 = .finished 0 ∧
      ∃ stats', fwPacketHandler (w.shared.lpmTbl.map w.shared.tables)
        (samplePacket 10 0 0 1) {} = .ok (.forward, stats') := by
  obtain ⟨w, hreach, -, hpc, hopen⟩ := setup_opens_firewall [tenDropped]
    (List.forall_mem_singleton.mpr ⟨by decide, by decide⟩)
  exact ⟨w, hreach, hpc, hopen _ {} (by decide)⟩

/-! ## A rule that is in no file -/

/-- Coprocessor 0 has filled its array when coprocessor 1 puts one in its place
with a rule that is not stored yet, and so it is given that array. Before
anything is stored there coprocessor 2 puts a third array in place, and the
stores of coprocessor 1 go to that one. Coprocessor 0 is the last to create a
table. -/
def strayRun (env : SetupEnv) : List SetupAction :=
  List.replicate 8 ⟨0, env⟩ ++ List.replicate 4 ⟨1, env⟩ ++ [⟨0, env⟩] ++
    List.replicate 4 ⟨2, env⟩ ++ List.replicate 9 ⟨1, env⟩ ++
    List.replicate 9 ⟨2, env⟩ ++ List.replicate 4 ⟨0, env⟩

/-- What the new blocks have in them drops 192.0.0.0/8. -/
def strayEnv : SetupEnv := { SetupEnv.fine with junk := ⟨0xC0000000, 8, 1⟩ }

/-- Three set-ups that overlap, where nothing goes wrong and nothing is
reported: the table has a rule that is in no file, and not the one of the
file. -/
theorem stray_rule_in_table :
    ∃ w, (setups [tenDropped]).Reach (fun w a => amongFirst 3 w a ∧
        provided w a ∧ tablesCreated w a) w ∧
      w.crashed = false ∧ (∀ i < 3, w.pc i = .finished 0) ∧
      (fwPacketHandler (w.shared.lpmTbl.map w.shared.tables)
        (samplePacket 10 0 0 1) {}).map Prod.fst = .ok .forward ∧
      (fwPacketHandler (w.shared.lpmTbl.map w.shared.tables)
        (samplePacket 192 167 10 1) {}).map Prod.fst = .ok .drop := by
  refine ⟨Setups.start.run [tenDropped] (strayRun strayEnv),
    reach_run (fun _ a => a.lcoreId < 3 && (a.env.loads &&
      a.env.malloc && a.env.create)) (.init rfl) (fun _ a ha => ?_) rfl, rfl,
    by decide +kernel, by decide +kernel, by decide +kernel⟩
  simp only [Bool.and_eq_true, decide_eq_true_eq] at ha
  exact ⟨ha.1, ha.2.1, ha.2.2⟩

end GhostDataplane.Engine
