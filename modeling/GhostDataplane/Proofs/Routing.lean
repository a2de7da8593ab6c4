import GhostDataplane.Proofs.Conservation

/-!
# Where a destination is routed to

`read_config` fills the routing table with two loops. The second writes the
entry of each port. The first is meant to fill the whole table with the port
that stands for none, but it counts the ports and not the entries: all but
five of the other entries are left as static data begins, zero, and zero is a
port. So a destination that nobody configured is dropped if the low half of
its address is below five, and goes to port 0 otherwise.
-/

namespace GhostDataplane.Engine

/-! ## Loops that write a table -/

section Loop

variable {n : Nat} {key val : Nat → Nat} {table : Nat → Nat} {d : Nat}

theorem forLoop_succ {σ : Type} {n : Nat} {body : Nat → σ → σ} {s : σ} :
    forLoop (n + 1) body s = body n (forLoop n body s) := by
  rw [forLoop, List.range_succ, List.foldl_append]
  rfl

/-- An entry that is not written stays as it was. -/
theorem forLoop_update_of_ne (h : ∀ i, i < n → key i ≠ d) :
    forLoop n (fun i t => Function.update t (key i) (val i)) table d =
      table d := by
  induction n with
  | zero => rfl
  | succ n ih =>
      rw [forLoop_succ, Function.update_of_ne (h n (Nat.lt_succ_self n)).symm]
      exact ih fun i hi => h i (Nat.lt_succ_of_lt hi)

/-- An entry that is written once holds what was written. -/
theorem forLoop_update_self {i : Nat} (hi : i < n)
    (hinj : ∀ j, j < n → key j = key i → j = i) :
    forLoop n (fun i t => Function.update t (key i) (val i)) table (key i) =
      val i := by
  induction n with
  | zero => exact absurd hi (Nat.not_lt_zero i)
  | succ n ih =>
      rw [forLoop_succ]
      by_cases hin : key n = key i
      · rw [hinj n (Nat.lt_succ_self n) hin, Function.update_self]
      · have hne : i ≠ n := fun heq => hin (heq ▸ rfl)
        rw [Function.update_of_ne (Ne.symm hin)]
        exact ih (by omega) fun j hj => hinj j (Nat.lt_succ_of_lt hj)

end Loop

/-! ## The table -/

/-- The low 16 bits of the address that `read_config` gives to port `i`. -/
def portKey (i : Nat) : Nat := rteIPv4 192 167 10 (i + 1) &&& 0xFFFF

/-- The destination is the address of port `i`, as far as the table looks. -/
def AddressOf (i : Nat) (ip : Nat) : Prop :=
  i < kniKthread ∧ ip &&& 0xFFFF = portKey i

theorem portKey_inj {i j : Nat} (hi : i < kniKthread) (hj : j < kniKthread)
    (h : portKey i = portKey j) : i = j := by
  have hall : ∀ i < kniKthread, portKey i = portKey 0 + i := by decide
  have hi' := hall i hi
  have hj' := hall j hj
  omega

/-- The two loops of `read_config` that write the table. -/
theorem routingTable_configured : configured.txMgr.routingTable =
    forLoop kniKthread (fun i t => Function.update t (portKey i) i)
      (forLoop kniKthread (fun i t => Function.update t i uint16Max)
        fun _ => 0) := rfl

theorem routingTable_port {i : Nat} (hi : i < kniKthread) :
    configured.txMgr.routingTable (portKey i) = i := by
  rw [routingTable_configured]
  exact forLoop_update_self hi fun j hj h => portKey_inj hj hi h

/-- The other entries are what the first loop made of them. -/
theorem routingTable_other {d : Nat} (h : ∀ i, i < kniKthread → portKey i ≠ d) :
    configured.txMgr.routingTable d =
      if d < kniKthread then unknownPort else 0 := by
  rw [routingTable_configured, forLoop_update_of_ne h]
  split
  · next hd => exact forLoop_update_self hd fun _ _ hij => hij
  · next hd =>
      refine forLoop_update_of_ne fun i hi hid => hd ?_
      rw [← hid]
      exact hi

/-! ## The fast path -/

section Hop

variable {bytes : Nat → UInt8}

theorem getNextHop_ip (hip : etherType bytes = etherTypeIPv4) :
    getNextHop configured.txMgr.routingTable bytes =
      configured.txMgr.routingTable (ipDst bytes &&& 0xFFFF) :=
  if_neg fun hne => hne hip

theorem getNextHop_port {i : Nat} (hip : etherType bytes = etherTypeIPv4)
    (hi : AddressOf i (ipDst bytes)) :
    getNextHop configured.txMgr.routingTable bytes = i := by
  rw [getNextHop_ip hip, hi.2, routingTable_port hi.1]

theorem getNextHop_other (hip : etherType bytes = etherTypeIPv4)
    (h : ∀ i, ¬ AddressOf i (ipDst bytes)) :
    getNextHop configured.txMgr.routingTable bytes =
      if ipDst bytes &&& 0xFFFF < kniKthread then unknownPort else 0 := by
  rw [getNextHop_ip hip]
  exact routingTable_other fun i hi hkey => h i ⟨hi, hkey.symm⟩

/-- What the routing should do with a destination: the address of a port is
routed to the port, any other to none. -/
def RoutedExactly (bytes : Nat → UInt8) : Prop :=
  (∀ i, AddressOf i (ipDst bytes) →
    getNextHop configured.txMgr.routingTable bytes = i) ∧
  ((∀ i, ¬ AddressOf i (ipDst bytes)) →
    getNextHop configured.txMgr.routingTable bytes = unknownPort)

theorem routedExactly_of_low (hip : etherType bytes = etherTypeIPv4)
    (h : (∃ i, AddressOf i (ipDst bytes)) ∨
      ipDst bytes &&& 0xFFFF < kniKthread) : RoutedExactly bytes := by
  refine ⟨fun i hi => getNextHop_port hip hi, fun hnone => ?_⟩
  obtain ⟨i, hi⟩ | hlow := h
  · exact absurd hi (hnone i)
  · rw [getNextHop_other hip hnone, if_pos hlow]

theorem RoutedExactly.low (h : RoutedExactly bytes)
    (hip : etherType bytes = etherTypeIPv4) :
    (∃ i, AddressOf i (ipDst bytes)) ∨ ipDst bytes &&& 0xFFFF < kniKthread := by
  by_contra hcon
  rw [not_or, not_exists] at hcon
  have hhop := h.2 hcon.1
  rw [getNextHop_other hip hcon.1, if_neg hcon.2] at hhop
  cases hhop

/-- The address of a port is routed to that port, and no address is that of
two. Any other destination is routed to none exactly if its low half is below
the number of ports; the fast path then frees the packet and counts it. Above
that it is routed to port 0. -/
theorem routedExactly_iff (hip : etherType bytes = etherTypeIPv4) :
    (∀ i j, AddressOf i (ipDst bytes) → AddressOf j (ipDst bytes) → i = j) ∧
    (∀ i, AddressOf i (ipDst bytes) →
      getNextHop configured.txMgr.routingTable bytes = i) ∧
    (RoutedExactly bytes ↔ (∃ i, AddressOf i (ipDst bytes)) ∨
      ipDst bytes &&& 0xFFFF < kniKthread) ∧
    ∀ (setup : Setup) (w : World) (env : Env) (k : Nat) (pkt : Mbuf)
      (burst : List Mbuf), Reachable setup w →
      w.fast = .route k (pkt :: burst) →
      setup.bytes pkt = bytes → (∀ i, ¬ AddressOf i (ipDst bytes)) →
      w.step setup (.fast env) =
        if ipDst bytes &&& 0xFFFF < kniKthread then
          { w with
            fast := .route k burst
            state := (rtePktmbufFree pkt w.state).setKniStats k
              { w.state.kniStats k with
                parseErr := (w.state.kniStats k).parseErr + 1 } }
        else
          { w with
            fast := .route k burst
            state :=
              if setup.disableNf then enqueuePort env pkt 0 w.state
              else enqueueNfRx env pkt 0 w.state } := by
  refine ⟨fun i j hi hj => ?_, fun i hi => getNextHop_port hip hi, ?_, ?_⟩
  · exact portKey_inj hi.1 hj.1 (hi.2.symm.trans hj.2)
  · exact ⟨fun h => h.low hip, routedExactly_of_low hip⟩
  · intro setup w env k pkt burst hreach hfast hbytes hnone
    have htable := (wired_of_reachable hreach).conf.table
    have hhop := getNextHop_other hip hnone
    have hzero : (0 : Nat) ≠ unknownPort := by decide
    simp only [World.step, hfast, fastStep, htable, hbytes, hhop]
    by_cases hlow : ipDst bytes &&& 0xFFFF < kniKthread
    · rw [if_pos hlow, if_pos rfl, if_pos hlow]
    · rw [if_neg hlow, if_neg hzero, if_neg hlow]
      split <;> rfl

end Hop

/-- An IPv4 packet for the address of port 0. -/
theorem routedExactly_iff_port :
    etherType (sampleSetup.bytes 0) = etherTypeIPv4 ∧
      AddressOf 0 (ipDst (sampleSetup.bytes 0)) ∧
      RoutedExactly (sampleSetup.bytes 0) := by
  have haddr : AddressOf 0 (ipDst (sampleSetup.bytes 0)) :=
    ⟨by decide, by decide⟩
  exact ⟨rfl, haddr, (routedExactly_iff rfl).2.2.1.mpr (Or.inl ⟨0, haddr⟩)⟩

/-- An IPv4 packet for 192.167.10.6, which is the address of no port. -/
def strayPacket (off : Nat) : UInt8 :=
  match off with
  | 12 => 0x08
  | 30 => 192
  | 31 => 167
  | 32 => 10
  | 33 => 6
  | _ => 0

/-- A destination that nobody configured is routed to port 0. -/
theorem stray_routed_to_port_zero :
    etherType strayPacket = etherTypeIPv4 ∧
      ipDst strayPacket = rteIPv4 192 167 10 6 ∧
      (∀ i, ¬ AddressOf i (ipDst strayPacket)) ∧
      getNextHop configured.txMgr.routingTable strayPacket = 0 ∧
      0 ≠ unknownPort := by
  have hnone : ∀ i, ¬ AddressOf i (ipDst strayPacket) := by
    have hall : ∀ i < kniKthread, ipDst strayPacket &&& 0xFFFF ≠ portKey i := by
      decide
    rintro i ⟨hi, hkey⟩
    exact hall i hi hkey
  have hhop := (getNextHop_other rfl hnone).trans (if_neg (by decide))
  exact ⟨rfl, rfl, hnone, hhop, by decide⟩

end GhostDataplane.Engine
