import GhostDataplane.Engine.Init
import GhostDataplane.Lib.Text

/-!
# Addresses as text

The firewall reads its rules' addresses with `sscanf` and prints them with
`snprintf`, both with the same format. A pointer that may be NULL is an
option; a function that writes through a pointer returns what is there
afterwards.
-/

namespace GhostDataplane.Engine

open GhostDataplane.Lib

/-- `"%u.%u.%u.%u"`. -/
def ipFormat : List Directive :=
  [.unsigned, .ordinary '.', .unsigned, .ordinary '.', .unsigned, .ordinary '.',
    .unsigned]

/-- `UINT_MAX + 1`. -/
def uintLimit : Nat := 0x100000000

/-- The size of `ip_string`. -/
def ipStringSize : Nat := 16

/-- The arguments that `fw_pkt_parse_char_ip` prints. -/
def octets (ipv4 : UInt32) : List Nat :=
  [(ipv4.toNat >>> 24) &&& 0xFF, (ipv4.toNat >>> 16) &&& 0xFF,
    (ipv4.toNat >>> 8) &&& 0xFF, ipv4.toNat &&& 0xFF]

/-- `fw_pkt_parse_char_ip`: what it writes to `ip_str`. -/
def fwPktParseCharIp (ipv4 : UInt32) : List Char :=
  snprintf ipStringSize (sprint ipFormat (octets ipv4))

/-- `fw_pkt_parse_ip`: the result, and `*dest` afterwards. -/
def fwPktParseIp (unrepresentable : Numeral → Nat) (ipStr : Option CString)
    (dest : Option UInt32) : Int × Option UInt32 :=
  match ipStr, dest with
  | some s, some _ =>
      let (ret, values) :=
        sscanf (Numeral.value uintLimit unrepresentable) s ipFormat
      let ip := fun i => values.getD i 0
      if ret ≠ 4 then (-1, dest)
      else (0, some (UInt32.ofNat (rteIPv4 (ip 0) (ip 1) (ip 2) (ip 3))))
  | _, _ => (-1, dest)

end GhostDataplane.Engine
