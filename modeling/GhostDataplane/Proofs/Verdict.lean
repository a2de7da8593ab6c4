import GhostDataplane.Engine.Firewall
import GhostDataplane.Proofs.Inspection

/-!
# What the firewall decides

The verdict of `fw_packet_handler` is the next hop of the lookup, zero for
accept. The variable that the lookup writes starts out as zero, and the
assignment of `FW_DROP` for a lookup that found nothing is overwritten by the
switch behind it. So a source that no rule matches is accepted: the firewall
is a longest-prefix match with default accept, and does what a default deny
would do exactly on the sources that some rule matches.

Before that the handler asks for the IP header a second time. The first time
it looked whether there is one, and went on either way; a frame with the
EtherType of IPv4 and another version in its first nibble has none. The fast
path looks at the EtherType only, so such a frame comes to a coprocessor, and
takes the engine down.
-/

namespace GhostDataplane.Engine

open GhostDataplane.Lib

/-! ## The table after `lpm_setup` -/

/-- The rule as the table takes it. -/
def FwRule.entry (r : FwRule) : Lpm.Rule Nat :=
  ⟨r.srcIp.toNat, r.depth.toNat, r.action.toNat⟩

/-- The rule's prefix is one of the address. -/
def FwRule.Matches (r : FwRule) (ip : Nat) : Prop :=
  r.entry.Matches rteLpmMaxDepth ip

/-- The longest of the rules that match the address, and the last added one
among those of equal prefixes. -/
def LongestMatch (rules : List FwRule) (ip : Nat) (r : FwRule) : Prop :=
  r ∈ rules ∧ Lpm.IsBest rteLpmMaxDepth (rules.map FwRule.entry) ip r.entry

/-- The depth is one that the library takes. -/
def FwRule.DepthOk (r : FwRule) : Prop :=
  1 ≤ r.depth.toNat ∧ r.depth.toNat ≤ rteLpmMaxDepth

section Table

variable {env : LpmEnv} {rules : List FwRule} {t tbl : RteLpm} {ip : Nat}

theorem rteLpmAdd_some (room : Bool) (t : RteLpm) (ip depth hop : Nat) :
    (∃ ret, rteLpmAdd room (some t) ip depth hop = (ret, some t) ∧ ret < 0) ∨
      ((1 ≤ depth ∧ depth ≤ rteLpmMaxDepth) ∧
        rteLpmAdd room (some t) ip depth hop =
          (0, some (t.add rteLpmMaxDepth ip depth hop))) := by
  unfold rteLpmAdd
  simp only []
  split
  · exact Or.inl ⟨_, rfl, by decide⟩
  · next hdepth =>
      split
      · exact Or.inr ⟨by omega, rfl⟩
      · exact Or.inl ⟨_, rfl, by decide⟩

/-- Rules that were all added are in the table in their order. -/
theorem lpmAddRules_ok {i : Nat}
    (h : lpmAddRules env i rules (some t) = (0, some tbl)) :
    tbl = Lpm.addAll rteLpmMaxDepth t (rules.map FwRule.entry) ∧
      ∀ r ∈ rules, r.DepthOk := by
  induction rules generalizing i t with
  | nil =>
      cases h
      exact ⟨rfl, nofun⟩
  | cons r rules ih =>
      rw [lpmAddRules] at h
      rcases rteLpmAdd_some (env.room i) t r.srcIp.toNat r.depth.toNat
        r.action.toNat with ⟨ret, hadd, hneg⟩ | ⟨hdepth, hadd⟩
      · rw [hadd] at h
        simp only [if_pos hneg] at h
        cases h
      · rw [hadd] at h
        obtain ⟨htbl, hrest⟩ := ih h
        refine ⟨htbl, fun q hq => ?_⟩
        rcases List.mem_cons.mp hq with rfl | hq
        · exact hdepth
        · exact hrest q hq

theorem lpmSetup_ok (h : lpmSetup env rules = (0, some tbl)) :
    tbl = Lpm.addAll rteLpmMaxDepth Lpm.empty (rules.map FwRule.entry) ∧
      ∀ r ∈ rules, r.DepthOk := by
  unfold lpmSetup at h
  split at h
  · exact lpmAddRules_ok h
  · cases rules with
    | nil => cases h
    | cons r rules => cases h

/-- The lookup finds the longest match. -/
theorem lookup_longestMatch {r : FwRule}
    (h : lpmSetup env rules = (0, some tbl)) (hr : LongestMatch rules ip r) :
    rteLpmLookup tbl ip 0 = (0, r.action.toNat) := by
  obtain ⟨rfl, hdepth⟩ := lpmSetup_ok h
  obtain ⟨hpos, hle⟩ := hdepth r hr.1
  unfold rteLpmLookup
  rw [Lpm.addAll_lookup (r := r.entry) hpos hle hr.2]
  rfl

/-- On a miss the next hop is the zero it was. -/
theorem lookup_no_match (h : lpmSetup env rules = (0, some tbl))
    (hnone : ∀ r ∈ rules, ¬ r.Matches ip) :
    rteLpmLookup tbl ip 0 = (-enoent, 0) := by
  obtain ⟨rfl, -⟩ := lpmSetup_ok h
  unfold rteLpmLookup
  rw [Lpm.addAll_lookup_none]
  intro q hq
  obtain ⟨r, hr, rfl⟩ := List.mem_map.mp hq
  exact hnone r hr

theorem exists_longestMatch (h : ∃ r ∈ rules, r.Matches ip) :
    ∃ r, LongestMatch rules ip r := by
  obtain ⟨r, hr, hm⟩ := h
  have hexists : ∃ q, Lpm.IsBest rteLpmMaxDepth (rules.map FwRule.entry) ip q :=
    Lpm.exists_isBest ⟨r.entry, List.mem_map_of_mem hr, hm⟩
  obtain ⟨q, hbest⟩ := hexists
  obtain ⟨r', hr', rfl⟩ := List.mem_map.mp hbest.mem.1
  exact ⟨r', hr', hbest⟩

theorem LongestMatch.mem {r : FwRule} (h : LongestMatch rules ip r) :
    r ∈ rules ∧ r.Matches ip :=
  ⟨h.1, h.2.mem.2⟩

/-- Where a rule matches, the next hop is zero exactly if the longest match
accepts. -/
theorem lookup_accepts_iff (h : lpmSetup env rules = (0, some tbl))
    (hmatch : ∃ r ∈ rules, r.Matches ip) :
    (rteLpmLookup tbl ip 0).2 = 0 ↔
      ∃ r, LongestMatch rules ip r ∧ r.action = 0 := by
  have hhop : ∀ r, LongestMatch rules ip r →
      ((rteLpmLookup tbl ip 0).2 = 0 ↔ r.action = 0) := by
    intro r hr
    rw [lookup_longestMatch h hr]
    show r.action.toNat = (0 : UInt8).toNat ↔ r.action = 0
    exact UInt8.toNat_inj
  constructor
  · intro hzero
    obtain ⟨r, hr⟩ := exists_longestMatch hmatch
    exact ⟨r, hr, (hhop r hr).mp hzero⟩
  · rintro ⟨r, hr, hzero⟩
    exact (hhop r hr).mpr hzero

end Table

/-! ## The verdict -/

section Verdict

variable {env : LpmEnv} {rules : List FwRule} {tbl : RteLpm}
  {bytes : Nat → UInt8} {stats : FirewallPktStats}

/-- What the switch makes of the next hop. -/
def actionOf (rule : Nat) : FwAction := if rule = 0 then .forward else .drop

theorem actionOf_forward {rule : Nat} :
    actionOf rule = .forward ↔ rule = 0 := by
  unfold actionOf
  split
  · next hzero => exact iff_of_true rfl hzero
  · next hzero => exact iff_of_false nofun hzero

theorem fwPacketHandler_version (hv : ipVersion bytes = 4) :
    fwPacketHandler (some tbl) bytes stats =
      .ok (actionOf (rteLpmLookup tbl (ipSrc bytes etherHdrSize) 0).2,
        { stats with pktTotal := stats.pktTotal + 1 }) := by
  have hhdr : fwPktIPv4Hdr bytes = some etherHdrSize := if_neg fun hne => hne hv
  simp only [fwPacketHandler, fwPktIsIPv4, hhdr, actionOf]
  split
  · next hrule =>
      rw [if_pos hrule]
      rfl
  · next hrule =>
      rw [if_neg hrule]
      rfl

theorem fwPacketHandler_no_header {lpmTbl : Option RteLpm}
    (hv : ipVersion bytes ≠ 4) :
    fwPacketHandler lpmTbl bytes stats = .error .nullHeader := by
  have hhdr : fwPktIPv4Hdr bytes = none := if_pos hv
  simp only [fwPacketHandler, hhdr]

/-- The firewall forwards a packet if no rule matches its source, or if the
longest match accepts it. Default deny is what it does exactly for the
sources that some rule matches. -/
theorem firewall_verdict_iff (stats : FirewallPktStats)
    (hsetup : lpmSetup env rules = (0, some tbl)) (hv : ipVersion bytes = 4) :
    ∃ action stats', fwPacketHandler (some tbl) bytes stats =
      .ok (action, stats') ∧
      (action = .forward ↔
        (∀ r ∈ rules, ¬ r.Matches (ipSrc bytes etherHdrSize)) ∨
        ∃ r, LongestMatch rules (ipSrc bytes etherHdrSize) r ∧ r.action = 0) ∧
      ((action = .forward ↔
          ∃ r, LongestMatch rules (ipSrc bytes etherHdrSize) r ∧ r.action = 0) ↔
        ∃ r ∈ rules, r.Matches (ipSrc bytes etherHdrSize)) := by
  refine ⟨_, _, fwPacketHandler_version hv, ?_⟩
  rw [actionOf_forward]
  by_cases hmatch : ∃ r ∈ rules, r.Matches (ipSrc bytes etherHdrSize)
  · have hsome : ¬ ∀ r ∈ rules, ¬ r.Matches (ipSrc bytes etherHdrSize) := by
      obtain ⟨r, hr, hm⟩ := hmatch
      exact fun hnone => hnone r hr hm
    have hiff := lookup_accepts_iff hsetup hmatch
    exact ⟨hiff.trans (or_iff_right hsome).symm, iff_of_true hiff hmatch⟩
  · have hnone : ∀ r ∈ rules, ¬ r.Matches (ipSrc bytes etherHdrSize) :=
      fun r hr hm => hmatch ⟨r, hr, hm⟩
    have hzero : (rteLpmLookup tbl (ipSrc bytes etherHdrSize) 0).2 = 0 := by
      rw [lookup_no_match hsetup hnone]
    refine ⟨iff_of_true hzero (Or.inl hnone),
      iff_of_false (fun hdeny => ?_) hmatch⟩
    obtain ⟨r, hbest, -⟩ := hdeny.mp hzero
    exact hmatch ⟨r, hbest.mem⟩

end Verdict

/-- An IPv4 packet with the source address `a.b.c.d`. -/
def samplePacket (a b c d : UInt8) (off : Nat) : UInt8 :=
  match off with
  | 12 => 0x08
  | 14 => 0x45
  | 26 => a
  | 27 => b
  | 28 => c
  | 29 => d
  | _ => 0

/-- The table with the one rule. -/
def sampleTable : RteLpm :=
  Lpm.add rteLpmMaxDepth Lpm.empty sampleRule.srcIp.toNat
    sampleRule.depth.toNat sampleRule.action.toNat

theorem sampleTable_setup :
    lpmSetup sampleLpmEnv [sampleRule] = (0, some sampleTable) := rfl

/-- A packet of 192.167.10.1 matches the rule, and is accepted. -/
theorem firewall_verdict_iff_accepted :
    ∃ stats', fwPacketHandler (some sampleTable)
      (samplePacket 192 167 10 1) {} =
      .ok (.forward, stats') := by
  have hmatch : sampleRule.Matches
      (ipSrc (samplePacket 192 167 10 1) etherHdrSize) := by
    unfold FwRule.Matches Lpm.Rule.Matches
    decide
  have hbest : LongestMatch [sampleRule]
      (ipSrc (samplePacket 192 167 10 1) etherHdrSize) sampleRule :=
    ⟨List.mem_singleton_self _, [], [], rfl, hmatch, nofun, nofun⟩
  have hv : ipVersion (samplePacket 192 167 10 1) = 4 := by decide
  obtain ⟨action, stats', hok, hverdict, -⟩ :=
    firewall_verdict_iff {} sampleTable_setup hv
  rw [hverdict.mpr (Or.inr ⟨sampleRule, hbest, rfl⟩)] at hok
  exact ⟨stats', hok⟩

/-- A packet of 10.0.0.1 matches no rule, and is forwarded. -/
theorem unmatched_source_forwarded :
    lpmSetup sampleLpmEnv [sampleRule] = (0, some sampleTable) ∧
      ipVersion (samplePacket 10 0 0 1) = 4 ∧
      (∀ r ∈ [sampleRule],
        ¬ r.Matches (ipSrc (samplePacket 10 0 0 1) etherHdrSize)) ∧
      ∃ stats', fwPacketHandler (some sampleTable) (samplePacket 10 0 0 1) {} =
        .ok (.forward, stats') := by
  have hv : ipVersion (samplePacket 10 0 0 1) = 4 := by decide
  have hnone : ∀ r ∈ [sampleRule],
      ¬ r.Matches (ipSrc (samplePacket 10 0 0 1) etherHdrSize) := by
    intro r hr
    rw [List.mem_singleton.mp hr]
    unfold FwRule.Matches Lpm.Rule.Matches
    decide
  have hok :
      fwPacketHandler (some sampleTable) (samplePacket 10 0 0 1) {} = _ :=
    fwPacketHandler_version hv
  rw [lookup_no_match sampleTable_setup hnone] at hok
  exact ⟨sampleTable_setup, hv, hnone, _, hok⟩

/-! ## Frames without a header -/

/-- What a coprocessor is about to process has the EtherType of IPv4. -/
theorem etherType_of_process {setup : Setup} {w : World} {i : Nat} {pkt : Mbuf}
    {burst : List Mbuf} (h : Reachable setup w)
    (hpc : w.coproc i = .process (pkt :: burst)) :
    etherType (setup.bytes pkt) = etherTypeIPv4 := by
  have hi : i < kniKthread := (wired_of_reachable h).process i _ hpc
  have hmem : pkt ∈ w.pipe.bank (.inspecting i) := by
    show pkt ∈ w.bank (.inspecting i)
    rw [bank_inspecting, hpc]
    exact List.mem_cons_self
  obtain ⟨-, hhop, -⟩ := (inspected_of_reachable h).fits _ pkt hmem
  refine etherType_of_nextHop ?_
  have hlt : kniKthread < unknownPort := by decide
  omega

/-- The handler returns only with a header and a table. -/
theorem fwPacketHandler_ok {lpmTbl : Option RteLpm} {bytes : Nat → UInt8}
    {stats : FirewallPktStats} {r : FwAction × FirewallPktStats}
    (h : fwPacketHandler lpmTbl bytes stats = .ok r) :
    ipVersion bytes = 4 ∧ ∃ tbl, lpmTbl = some tbl := by
  have hv : ipVersion bytes = 4 := by
    by_contra hv
    rw [fwPacketHandler_no_header hv] at h
    cases h
  refine ⟨hv, Option.ne_none_iff_exists'.mp fun hnone => ?_⟩
  have hhdr : fwPktIPv4Hdr bytes = some etherHdrSize := if_neg fun hne => hne hv
  simp only [fwPacketHandler, hhdr, hnone] at h
  cases h

/-- A packet that comes to a coprocessor has the EtherType of IPv4; and on a
packet with that EtherType, whatever it holds otherwise, the handler
completes, and drops what is not of version 4, exactly if it is of
version 4 and there is a table. -/
theorem handler_completes_iff (setup : Setup) :
    (∀ w i pkt burst, Reachable setup w →
      w.coproc i = .process (pkt :: burst) →
      etherType (setup.bytes pkt) = etherTypeIPv4) ∧
    ∀ bytes, etherType bytes = etherTypeIPv4 → ∀ (lpmTbl : Option RteLpm) stats,
      ((∃ action stats', fwPacketHandler lpmTbl bytes stats =
          .ok (action, stats') ∧ (ipVersion bytes ≠ 4 → action = .drop)) ↔
        ipVersion bytes = 4 ∧ ∃ tbl, lpmTbl = some tbl) := by
  refine ⟨fun w i pkt burst => etherType_of_process,
    fun bytes _ lpmTbl stats => ?_⟩
  constructor
  · rintro ⟨action, stats', hok, -⟩
    exact fwPacketHandler_ok hok
  · rintro ⟨hv, tbl, rfl⟩
    exact ⟨_, _, fwPacketHandler_version hv, fun hne => absurd hv hne⟩

theorem sample_process : (World.sample 27).coproc 0 = .process [5] := by
  have hburst : ((World.sample 27).coproc 0).burst = [5] := by decide +kernel
  cases hpc : (World.sample 27).coproc 0 with
  | start =>
      rw [hpc] at hburst
      cases hburst
  | process burst =>
      rw [hpc] at hburst
      rw [show burst = [5] from hburst]

/-- The packet that coprocessor 0 of the sample run is about to process, and
a packet of version 4. -/
theorem handler_completes_iff_sample :
    etherType (sampleSetup.bytes 5) = etherTypeIPv4 ∧
      ∃ action stats', fwPacketHandler (some sampleTable)
        (samplePacket 192 167 10 1) {} = .ok (action, stats') := by
  obtain ⟨hether, hcompletes⟩ := handler_completes_iff sampleSetup
  have hv : ipVersion (samplePacket 192 167 10 1) = 4 := by decide
  obtain ⟨action, stats', hok, -⟩ :=
    (hcompletes (samplePacket 192 167 10 1) rfl (some sampleTable) {}).mpr
      ⟨hv, sampleTable, rfl⟩
  exact ⟨hether _ _ _ _ (sample_reachable (by decide)) sample_process,
    action, stats', hok⟩

/-- A frame with the EtherType of IPv4 and version 0 comes to coprocessor 0,
and the handler dereferences a NULL header. -/
theorem headerless_frame_faults :
    ∃ setup w pkt, Reachable setup w ∧ w.coproc 0 = .process [pkt] ∧
      ipVersion (setup.bytes pkt) = 0 ∧
      ∀ lpmTbl stats, fwPacketHandler lpmTbl (setup.bytes pkt) stats =
        .error .nullHeader := by
  have hv : ipVersion (sampleSetup.bytes 5) = 0 := by decide
  refine ⟨sampleSetup, World.sample 27, 5, sample_reachable (by decide),
    sample_process, hv, fun lpmTbl stats => fwPacketHandler_no_header ?_⟩
  rw [hv]
  decide

end GhostDataplane.Engine
