import GhostDataplane.Engine.Switch
import GhostDataplane.Lib.Lpm

/-!
# The firewall

The network function of the coprocessors: `lpm_setup` fills a table of the
DPDK library with the rules, `fw_packet_handler` looks the source address of
a packet up in it. The library's table is taken to be what its name says, a
longest-prefix match over host-order addresses of 32 bits; the next hop of a
rule is its action.

`rte_lpm_add` refuses a NULL table and a depth outside 1..32, and otherwise
succeeds if the table has room, which is up to the library. A lookup that
finds nothing returns a negative value and leaves the next hop as it was. A
lookup in a NULL table dereferences it, and so does reading the source
address through a NULL header: both are a `Fault`.
-/

namespace GhostDataplane.Engine

open GhostDataplane.Lib

/-- `struct fw_rule`. -/
structure FwRule where
  srcIp : UInt32
  depth : UInt8
  action : UInt8
deriving DecidableEq

/-- `struct firewall_pkt_stats`, without the counters that nothing bumps. -/
structure FirewallPktStats where
  pktNotIPv4 : Nat := 0
  pktTotal : Nat := 0
deriving DecidableEq

/-- What takes the engine down. -/
inductive Fault where
  | nullHeader
  | nullTable
deriving DecidableEq

/-! ## The table -/

/-- The width of an address, and `RTE_LPM_MAX_DEPTH`. -/
def rteLpmMaxDepth : Nat := 32

/-- `struct rte_lpm`, with the next hop of each prefix. -/
abbrev RteLpm := Lpm Nat

def einval : Int := 22

def enospc : Int := 28

def enoent : Int := 2

/-- `rte_lpm_add`. -/
def rteLpmAdd (room : Bool) (lpm : Option RteLpm) (ip depth nextHop : Nat) :
    Int × Option RteLpm :=
  match lpm with
  | none => (-einval, none)
  | some t =>
      if depth < 1 ∨ depth > rteLpmMaxDepth then (-einval, some t)
      else if room then (0, some (t.add rteLpmMaxDepth ip depth nextHop))
      else (-enospc, some t)

/-- `rte_lpm_lookup`, with the value that `*next_hop` has before and the one
it has after. -/
def rteLpmLookup (lpm : RteLpm) (ip nextHop : Nat) : Int × Nat :=
  match lpm.lookup rteLpmMaxDepth ip with
  | some hop => (0, hop)
  | none => (-enoent, nextHop)

/-- What the library does in one `lpm_setup`. -/
structure LpmEnv where
  /-- Does `rte_lpm_create` return a table? -/
  create : Bool
  /-- Does the table have room for the rule with this index? -/
  room : Nat → Bool

/-- The loop of `lpm_setup`, from the rule with index `ruleIdx` on. -/
def lpmAddRules (env : LpmEnv) :
    (ruleIdx : Nat) → List FwRule → Option RteLpm → Int × Option RteLpm
  | _, [], lpmTbl => (0, lpmTbl)
  | ruleIdx, rule :: rules, lpmTbl =>
      let (ret, lpmTbl) := rteLpmAdd (env.room ruleIdx) lpmTbl
        rule.srcIp.toNat rule.depth.toNat rule.action.toNat
      if ret < 0 then (1, lpmTbl)
      else lpmAddRules env (ruleIdx + 1) rules lpmTbl

/-- `lpm_setup`: the result, and `lpm_tbl` afterwards. -/
def lpmSetup (env : LpmEnv) (rules : List FwRule) : Int × Option RteLpm :=
  -- A table that could not be created is reported and used all the same.
  let lpmTbl := if env.create then some Lpm.empty else none
  lpmAddRules env 0 rules lpmTbl

/-! ## The handler -/

/-- `sizeof(struct ether_hdr)`. -/
def etherHdrSize : Nat := 14

/-- `(ip_hdr->version_ihl >> 4) & 0b1111`. -/
def ipVersion (bytes : Nat → UInt8) : Nat :=
  ((bytes etherHdrSize).toNat >>> 4) &&& 0b1111

/-- `fw_pkt_ipv4_hdr`: where the header is, or NULL. -/
def fwPktIPv4Hdr (bytes : Nat → UInt8) : Option Nat :=
  if ipVersion bytes ≠ 4 then none else some etherHdrSize

/-- `fw_pkt_is_ipv4`. -/
def fwPktIsIPv4 (bytes : Nat → UInt8) : Bool := (fwPktIPv4Hdr bytes).isSome

/-- `ip_hdr->src_addr`, in host order. -/
def ipSrc (bytes : Nat → UInt8) (ipHdr : Nat) :
    Nat := rteBeToCpu32 bytes (ipHdr + 12)

/-- `fw_packet_handler`. The two early assignments of `FW_DROP` to `action`
have no effect: neither returns, and the switch assigns in both its cases. -/
def fwPacketHandler (lpmTbl : Option RteLpm) (bytes : Nat → UInt8)
    (stats : FirewallPktStats) : Except Fault (FwAction × FirewallPktStats) :=
  let stats := { stats with pktTotal := stats.pktTotal + 1 }
  let stats :=
    if !fwPktIsIPv4 bytes then { stats with pktNotIPv4 := stats.pktNotIPv4 + 1 }
    else stats
  match fwPktIPv4Hdr bytes, lpmTbl with
  | none, _ => .error .nullHeader
  | some _, none => .error .nullTable
  | some ipHdr, some lpm =>
      let (_, rule) := rteLpmLookup lpm (ipSrc bytes ipHdr) 0
      match rule with
      | 0 => .ok (.forward, stats)
      | _ => .ok (.drop, stats)

/-! ## A rule -/

/-- A library that can create the table and has room for every rule. -/
def sampleLpmEnv : LpmEnv := ⟨true, fun _ => true⟩

/-- Accept 192.167.10.0/24. -/
def sampleRule : FwRule := ⟨0xC0A70A00, 24, 0⟩

end GhostDataplane.Engine
