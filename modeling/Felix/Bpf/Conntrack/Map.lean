import Felix.Collections.Bytes
import Mathlib

/-!
# Conntrack entries as the Go dataplane reads and writes them

The BPF programs keep connection tracking state in a hash map from `struct calico_ct_key` to
`struct calico_ct_value` (`bpf-gpl/conntrack_types.h`). The Go side (`bpf/conntrack/map.go`)
handles the entries as byte arrays laid out by hand after those structs: it reads fields from
slices (`Value.Created`, `Value.Data`, `readConntrackLeg`, ...) and builds entries by writing
fields at their offsets (`NewKey`, `NewValueNormal`, `Leg.AsBytes`, ...).

The C layout is stated here as the concatenation of the struct's fields (`keyImage`,
`legImage`, `valueImage`, `fwdValueImage`): the host is little-endian, addresses are kept in
network order, and a leg's sequence number is kept as the TCP header carries it, in network
order.

The readers agree with that layout: every accessor returns the field the C struct puts at the
bytes it reads (`key_accessors_keyImage`, `value_accessors_valueImage`,
`reverseNATKey_fwdValueImage`). The writers do not all agree. `NewKey` and `NewValueNATForward`
do (`newKey_eq_keyImage`, `newValueNATForward_fields`), but `NewValueNormal` and
`NewValueNATReverse` write leg A into both leg slots and never read leg B, and `Leg.AsBytes`
writes the sequence number little-endian where `readConntrackLeg` reads it big-endian. So what
`Data` reads back from a value `NewValueNormal` built is leg A with its sequence number's bytes
reversed, on both legs (`data_newValueNormal`).

IPv4 addresses are the numbers their four bytes spell in network order; `net.IP.To4` of such an
address is those four bytes. A `time.Duration` is an `Int64`.

## Main definitions

* `Key`, `Value`, `Leg`, `EntryData` and their accessors
* `newKey`, `newValueNormal`, `newValueNATForward`, `newValueNATReverse`
* `keyImage`, `legImage`, `valueImage`, `fwdValueImage`: the C layout

## Main results

* `value_accessors_valueImage`: the readers invert the C layout
* `data_newValueNormal`: what `Data` reads back from a value `NewValueNormal` wrote
-/

namespace Felix.Bpf.Conntrack

open Bytes

/-- `KeySize`. -/
def keySize : ℕ := 16

/-- `ValueSize`. -/
def valueSize : ℕ := 64

/-- The four bytes of an IPv4 address, in network order: `net.IP.To4`. -/
def ipBytes (a : UInt32) : List UInt8 := toBE 4 a.toNat
attribute [grind] ipBytes

@[simp] theorem length_ipBytes (a : UInt32) : (ipBytes a).length = 4 := length_toBE 4 _

/-! ## Keys -/

/-- `Key`: the sixteen bytes of a `struct calico_ct_key`. -/
@[ext]
structure Key where
  bytes : List UInt8
  length_bytes : bytes.length = keySize
  deriving DecidableEq

namespace Key

/-- `Key.Proto`: the protocol word, truncated to a byte. -/
def proto (k : Key) : UInt8 := UInt8.ofNat (ofLE (slice k.bytes 0 4))

/-- `Key.AddrA`. -/
def addrA (k : Key) : List UInt8 := slice k.bytes 4 8

/-- `Key.PortA`. -/
def portA (k : Key) : UInt16 := UInt16.ofNat (ofLE (slice k.bytes 12 14))

/-- `Key.AddrB`. -/
def addrB (k : Key) : List UInt8 := slice k.bytes 8 12

/-- `Key.PortB`. -/
def portB (k : Key) : UInt16 := UInt16.ofNat (ofLE (slice k.bytes 14 16))

end Key

/-- `NewKey`. -/
def newKey (proto : UInt8) (ipA : UInt32) (portA : UInt16) (ipB : UInt32) (portB : UInt16) : Key :=
  let k := List.replicate keySize (0 : UInt8)
  let k := write k 0 (toLE 4 proto.toNat)
  let k := copy k 4 8 (ipBytes ipA)
  let k := copy k 8 12 (ipBytes ipB)
  let k := write k 12 (toLE 2 portA.toNat)
  let k := write k 14 (toLE 2 portB.toNat)
  ⟨k, by simp +zetaDelta [keySize]⟩

/-! ## Legs -/

/-- `Leg`: one direction of a connection. -/
structure Leg where
  seqno : UInt32 := 0
  synSeen : Bool := false
  ackSeen : Bool := false
  finSeen : Bool := false
  rstSeen : Bool := false
  whitelisted : Bool := false
  opener : Bool := false
  ifindex : UInt32 := 0
  deriving DecidableEq, Repr

/-- `setBit`. -/
def setBit (bits : UInt32) (bit : UInt8) (val : Bool) : UInt32 :=
  if val then bits ||| (1 <<< bit.toUInt32) else bits

/-- `bitSet`. -/
def bitSet (bits : UInt32) (bit : UInt8) : Bool := bits &&& (1 <<< bit.toUInt32) != 0

/-- `Leg.AsBytes`: all three words little-endian. -/
def Leg.asBytes (leg : Leg) : List UInt8 :=
  let bits := setBit (setBit (setBit (setBit (setBit (setBit 0 0 leg.synSeen) 1 leg.ackSeen) 2
    leg.finSeen) 3 leg.rstSeen) 4 leg.whitelisted) 5 leg.opener
  let bytes := List.replicate 12 (0 : UInt8)
  let bytes := write bytes 0 (toLE 4 leg.seqno.toNat)
  let bytes := write bytes 4 (toLE 4 bits.toNat)
  write bytes 8 (toLE 4 leg.ifindex.toNat)
attribute [grind] Leg.asBytes

/-- `readConntrackLeg`: the sequence number big-endian, the other words little-endian. -/
def readConntrackLeg (b : List UInt8) : Leg :=
  let bits := UInt32.ofNat (ofLE (slice b 4 8))
  { seqno := UInt32.ofNat (ofBE (slice b 0 4))
    synSeen := bitSet bits 0
    ackSeen := bitSet bits 1
    finSeen := bitSet bits 2
    rstSeen := bitSet bits 3
    whitelisted := bitSet bits 4
    opener := bitSet bits 5
    ifindex := UInt32.ofNat (ofLE (slice b 8 12)) }
attribute [grind] readConntrackLeg

/-- `EntryData`: the legs and the reverse-NAT fields of a value. -/
structure EntryData where
  a2B : Leg
  b2A : Leg
  origDst : List UInt8
  origPort : UInt16
  origSPort : UInt16
  tunIP : List UInt8
  deriving DecidableEq

namespace EntryData

/-- `EntryData.Established`. -/
def established (data : EntryData) : Bool :=
  data.a2B.synSeen && data.a2B.ackSeen && data.b2A.synSeen && data.b2A.ackSeen

/-- `EntryData.RSTSeen`. -/
def rstSeen (data : EntryData) : Bool := data.a2B.rstSeen || data.b2A.rstSeen

/-- `EntryData.FINsSeen`. -/
def finsSeen (data : EntryData) : Bool := data.a2B.finSeen && data.b2A.finSeen

/-- `EntryData.FINsSeenDSR`. -/
def finsSeenDSR (data : EntryData) : Bool := data.a2B.finSeen || data.b2A.finSeen

end EntryData

/-! ## Values -/

/-- `Value`: the sixty-four bytes of a `struct calico_ct_value`. -/
@[ext]
structure Value where
  bytes : List UInt8
  length_bytes : bytes.length = valueSize
  deriving DecidableEq

/-- `TypeNormal`. -/
def typeNormal : UInt8 := 0

/-- `TypeNATForward`. -/
def typeNATForward : UInt8 := 1

/-- `TypeNATReverse`. -/
def typeNATReverse : UInt8 := 2

/-- `ProtoICMP`. -/
def protoICMP : UInt8 := 1

/-- `ProtoTCP`. -/
def protoTCP : UInt8 := 6

/-- `ProtoUDP`. -/
def protoUDP : UInt8 := 17

/-- `FlagNATFwdDsr`. -/
def flagNATFwdDsr : UInt8 := (1 : UInt8) <<< 1

namespace Value

/-- `Value.Created`. -/
def created (e : Value) : Int64 := (UInt64.ofNat (ofLE (slice e.bytes 0 8))).toInt64
attribute [grind] created

/-- `Value.LastSeen`. -/
def lastSeen (e : Value) : Int64 := (UInt64.ofNat (ofLE (slice e.bytes 8 16))).toInt64
attribute [grind] lastSeen

/-- `Value.Type`. -/
def type (e : Value) : UInt8 := e.bytes.getD 16 0
attribute [grind] type

/-- `Value.Flags`. -/
def flags (e : Value) : UInt8 := e.bytes.getD 17 0
attribute [grind] flags

/-- `Value.OrigIP`. -/
def origIP (e : Value) : List UInt8 := slice e.bytes 48 52

/-- `Value.OrigPort`. -/
def origPort (e : Value) : UInt16 := UInt16.ofNat (ofLE (slice e.bytes 52 54))

/-- `Value.OrigSPort`. -/
def origSPort (e : Value) : UInt16 := UInt16.ofNat (ofLE (slice e.bytes 54 56))

/-- `Value.NATSPort`. -/
def natSPort (e : Value) : UInt16 := UInt16.ofNat (ofLE (slice e.bytes 40 42))

/-- `Value.ReverseNATKey`: the key that a forward entry keeps in its union. -/
def reverseNATKey (e : Value) : Key :=
  ⟨copy (List.replicate keySize 0) 0 keySize (slice e.bytes 24 (24 + keySize)), by simp [keySize]⟩

/-- `Value.Data`. -/
def data (e : Value) : EntryData where
  a2B := readConntrackLeg (slice e.bytes 24 36)
  b2A := readConntrackLeg (slice e.bytes 36 48)
  origDst := slice e.bytes 48 52
  origPort := UInt16.ofNat (ofLE (slice e.bytes 52 54))
  origSPort := UInt16.ofNat (ofLE (slice e.bytes 54 56))
  tunIP := slice e.bytes 56 60
attribute [grind] data

/-- `Value.IsForwardDSR`. -/
def isForwardDSR (e : Value) : Bool := e.flags &&& flagNATFwdDsr != 0

end Value

/-- `initValue`: the header fields of a value. -/
def initValue (v : List UInt8) (created lastSeen : Int64) (typ flags : UInt8) : List UInt8 :=
  let v := write v 0 (toLE 8 created.toUInt64.toNat)
  let v := write v 8 (toLE 8 lastSeen.toUInt64.toNat)
  let v := write v 16 [typ]
  write v 17 [flags]
attribute [grind] initValue

@[simp] theorem length_initValue (v : List UInt8) (created lastSeen : Int64) (typ flags : UInt8) :
    (initValue v created lastSeen typ flags).length = v.length := by
  simp [initValue]

set_option linter.unusedVariables false in
/-- `NewValueNormal`. As in the source, leg A is copied into both leg slots and `legB` is not
read. -/
def newValueNormal (created lastSeen : Int64) (flags : UInt8) (legA legB : Leg) : Value :=
  let v := List.replicate valueSize (0 : UInt8)
  let v := initValue v created lastSeen typeNormal flags
  let v := copy v 24 36 legA.asBytes
  let v := copy v 36 48 legA.asBytes
  ⟨v, by simp +zetaDelta [valueSize]⟩

/-- `NewValueNATForward`. -/
def newValueNATForward (created lastSeen : Int64) (flags : UInt8) (revKey : Key) : Value :=
  let v := List.replicate valueSize (0 : UInt8)
  let v := initValue v created lastSeen typeNATForward flags
  let v := copy v 24 (24 + keySize) revKey.bytes
  ⟨v, by simp +zetaDelta [valueSize]⟩

set_option linter.unusedVariables false in
/-- `NewValueNATReverse`. As in `NewValueNormal`, leg A goes into both leg slots. -/
def newValueNATReverse (created lastSeen : Int64) (flags : UInt8) (legA legB : Leg)
    (tunnelIP origIP : UInt32) (origPort : UInt16) : Value :=
  let v := List.replicate valueSize (0 : UInt8)
  let v := initValue v created lastSeen typeNATReverse flags
  let v := copy v 24 36 legA.asBytes
  let v := copy v 36 48 legA.asBytes
  let v := copy v 48 52 (ipBytes origIP)
  let v := write v 52 (toLE 2 origPort.toNat)
  let v := copy v 56 60 (ipBytes tunnelIP)
  ⟨v, by simp +zetaDelta [valueSize]⟩

/-! ## The C layout

`struct calico_ct_key`, `struct calico_ct_leg` and `struct calico_ct_value` as the BPF programs
store them, field after field at the offsets the C compiler gives them. -/

/-- The flag word of `struct calico_ct_leg`: the one-bit fields `syn_seen` to `opener`, from bit
0 up. -/
def legFlagWord (leg : Leg) : ℕ :=
  leg.synSeen.toNat + 2 * leg.ackSeen.toNat + 4 * leg.finSeen.toNat + 8 * leg.rstSeen.toNat +
    16 * leg.whitelisted.toNat + 32 * leg.opener.toNat

/-- `struct calico_ct_leg`: `seqno` as the TCP header carries it, in network order, then the flag
word and `ifindex`. -/
def legImage (leg : Leg) : List UInt8 :=
  toBE 4 leg.seqno.toNat ++ toLE 4 (legFlagWord leg) ++ toLE 4 leg.ifindex.toNat
attribute [grind] legImage

/-- `struct calico_ct_key`: the protocol as a 32-bit word, the addresses, the ports. -/
def keyImage (proto : UInt8) (addrA addrB : UInt32) (portA portB : UInt16) : List UInt8 :=
  toLE 4 proto.toNat ++ ipBytes addrA ++ ipBytes addrB ++ toLE 2 portA.toNat ++ toLE 2 portB.toNat
attribute [grind] keyImage

/-- `struct calico_ct_value` of a normal or reverse-NAT entry: the header, the padding `pad0`,
the two legs, then `orig_ip`, `orig_port`, `orig_sport`, `tun_ip` and `pad3`. -/
def valueImage (created lastSeen : Int64) (type flags : UInt8) (a2B b2A : Leg) (origIP : UInt32)
    (origPort origSPort : UInt16) (tunIP : UInt32) : List UInt8 :=
  toLE 8 created.toUInt64.toNat ++ toLE 8 lastSeen.toUInt64.toNat ++ [type, flags] ++
    List.replicate 6 0 ++ legImage a2B ++ legImage b2A ++ ipBytes origIP ++
    toLE 2 origPort.toNat ++ toLE 2 origSPort.toNat ++ ipBytes tunIP ++ List.replicate 4 0

/-- `struct calico_ct_value` of a forward-NAT entry: the header, `pad0`, then `nat_rev_key` and
`nat_sport` in the union, and zeros to its end. -/
def fwdValueImage (created lastSeen : Int64) (flags : UInt8) (revKey : Key) (natSPort : UInt16) :
    List UInt8 :=
  toLE 8 created.toUInt64.toNat ++ toLE 8 lastSeen.toUInt64.toNat ++ [typeNATForward, flags] ++
    List.replicate 6 0 ++ revKey.bytes ++ toLE 2 natSPort.toNat ++ List.replicate 22 0
attribute [grind] fwdValueImage

@[simp] theorem length_legImage (leg : Leg) : (legImage leg).length = 12 := by
  simp [legImage]

theorem length_keyImage (proto : UInt8) (addrA addrB : UInt32) (portA portB : UInt16) :
    (keyImage proto addrA addrB portA portB).length = keySize := by
  simp [keyImage, keySize]

theorem length_valueImage (created lastSeen : Int64) (type flags : UInt8) (a2B b2A : Leg)
    (origIP : UInt32) (origPort origSPort : UInt16) (tunIP : UInt32) :
    (valueImage created lastSeen type flags a2B b2A origIP origPort origSPort tunIP).length =
      valueSize := by
  simp [valueImage, valueSize]

theorem length_fwdValueImage (created lastSeen : Int64) (flags : UInt8) (revKey : Key)
    (natSPort : UInt16) : (fwdValueImage created lastSeen flags revKey natSPort).length = valueSize := by
  simp [fwdValueImage, valueSize, revKey.length_bytes, keySize]

/-! ## Keys -/

/-- `NewKey` writes a key the C programs read as the key of its fields. -/
theorem newKey_eq_keyImage (proto : UInt8) (ipA : UInt32) (portA : UInt16) (ipB : UInt32)
    (portB : UInt16) : (newKey proto ipA portA ipB portB).bytes = keyImage proto ipA ipB portA portB := by
  simp (disch := simp) only [newKey, keyImage, keySize, copy_of_length_le, write_replicate,
    write_append_of_le, List.append_assoc, List.replicate_zero, List.nil_append, List.append_nil,
    length_toLE, length_ipBytes, Nat.reduceAdd, Nat.reduceSub]

theorem key_accessors_keyImage (proto : UInt8) (addrA addrB : UInt32) (portA portB : UInt16) :
    let k : Key := ⟨keyImage proto addrA addrB portA portB, length_keyImage ..⟩
    k.proto = proto ∧ k.addrA = ipBytes addrA ∧ k.portA = portA ∧ k.addrB = ipBytes addrB ∧
      k.portB = portB := by
  have hproto : UInt8.ofNat (ofLE (toLE 4 proto.toNat)) = proto := by
    rw [ofLE_toLE_of_lt (by have := proto.toNat_lt; omega), UInt8.ofNat_toNat]
  simp (disch := simp) only [Key.proto, Key.addrA, Key.portA, Key.addrB, Key.portB, keyImage,
    slice_append_of_le, slice_append_of_ge, slice_of_length, length_toLE, length_ipBytes,
    List.length_append, Nat.reduceAdd, Nat.reduceSub, hproto, uInt16_ofLE_toLE, and_self]

/-! ## Legs read back -/

theorem legFlagWord_lt (leg : Leg) : legFlagWord leg < 64 := by
  have := leg.synSeen.toNat_le
  have := leg.ackSeen.toNat_le
  have := leg.finSeen.toNat_le
  have := leg.rstSeen.toNat_le
  have := leg.whitelisted.toNat_le
  have := leg.opener.toNat_le
  unfold legFlagWord
  omega

/-- The flag bits `readConntrackLeg` tests are the bits of the C flag word. -/
theorem bitSet_legFlagWord (leg : Leg) :
    bitSet (UInt32.ofNat (legFlagWord leg)) 0 = leg.synSeen ∧
      bitSet (UInt32.ofNat (legFlagWord leg)) 1 = leg.ackSeen ∧
      bitSet (UInt32.ofNat (legFlagWord leg)) 2 = leg.finSeen ∧
      bitSet (UInt32.ofNat (legFlagWord leg)) 3 = leg.rstSeen ∧
      bitSet (UInt32.ofNat (legFlagWord leg)) 4 = leg.whitelisted ∧
      bitSet (UInt32.ofNat (legFlagWord leg)) 5 = leg.opener := by
  unfold legFlagWord
  cases leg.synSeen <;> cases leg.ackSeen <;> cases leg.finSeen <;> cases leg.rstSeen <;>
    cases leg.whitelisted <;> cases leg.opener <;> decide

/-- `readConntrackLeg` reads a leg the BPF programs stored as that leg. -/
theorem readConntrackLeg_legImage (leg : Leg) : readConntrackLeg (legImage leg) = leg := by
  have hw : ofLE (toLE 4 (legFlagWord leg)) = legFlagWord leg :=
    ofLE_toLE_of_lt (by have := legFlagWord_lt leg; omega)
  obtain ⟨h0, h1, h2, h3, h4, h5⟩ := bitSet_legFlagWord leg
  simp (disch := simp) only [readConntrackLeg, legImage, slice_append_of_le, slice_append_of_ge,
    slice_of_length, length_toLE, length_toBE, List.length_append, Nat.reduceAdd, Nat.reduceSub, hw,
    h0, h1, h2, h3, h4, h5, uInt32_ofBE_toBE, uInt32_ofLE_toLE]

/-! ## Values read back -/

@[simp] theorem int64_ofLE_toLE (x : Int64) :
    (UInt64.ofNat (ofLE (toLE 8 x.toUInt64.toNat))).toInt64 = x := by
  rw [uInt64_ofLE_toLE, Int64.toInt64_toUInt64]

/-- Every accessor of `Value` returns the field that `struct calico_ct_value` of a normal or
reverse-NAT entry keeps at the bytes it reads. -/
theorem value_accessors_valueImage (created lastSeen : Int64) (type flags : UInt8) (a2B b2A : Leg)
    (origIP : UInt32) (origPort origSPort : UInt16) (tunIP : UInt32) :
    let e : Value := ⟨valueImage created lastSeen type flags a2B b2A origIP origPort origSPort tunIP,
      length_valueImage ..⟩
    e.created = created ∧ e.lastSeen = lastSeen ∧ e.type = type ∧ e.flags = flags ∧
      e.origIP = ipBytes origIP ∧ e.origPort = origPort ∧ e.origSPort = origSPort ∧
      e.data = ⟨a2B, b2A, ipBytes origIP, origPort, origSPort, ipBytes tunIP⟩ := by
  simp only [valueImage, List.append_assoc, List.cons_append, List.nil_append]
  simp (disch := simp +decide only [List.length_append, length_toLE, length_ipBytes, length_legImage,
      List.length_cons, List.length_nil, List.length_replicate]) only [Value.created,
    Value.lastSeen, Value.type, Value.flags, Value.origIP, Value.origPort, Value.origSPort,
    Value.data, slice_append_of_le, slice_append_of_ge, slice_cons_of_pos, slice_of_length,
    List.getD_append_right,
    List.getD_cons_zero, List.getD_cons_succ, length_toLE, length_ipBytes, length_legImage,
    List.length_replicate, Nat.reduceSub, int64_ofLE_toLE, uInt16_ofLE_toLE, readConntrackLeg_legImage, and_self]

/-- A forward entry's accessors return the fields of its `struct calico_ct_value`. -/
theorem reverseNATKey_fwdValueImage (created lastSeen : Int64) (flags : UInt8) (revKey : Key)
    (natSPort : UInt16) :
    let e : Value := ⟨fwdValueImage created lastSeen flags revKey natSPort, length_fwdValueImage ..⟩
    e.created = created ∧ e.lastSeen = lastSeen ∧ e.type = typeNATForward ∧ e.flags = flags ∧
      e.reverseNATKey = revKey ∧ e.natSPort = natSPort := by
  have hk : revKey.bytes.length = 16 := revKey.length_bytes
  refine ⟨?_, ?_, ?_, ?_, Key.ext ?_, ?_⟩
  all_goals
    simp only [fwdValueImage, List.append_assoc, List.cons_append, List.nil_append]
    simp (disch := simp +decide only [List.length_append, length_toLE, hk, List.length_cons,
        List.length_nil, List.length_replicate]) only [Value.created, Value.lastSeen, Value.type,
      Value.flags, Value.reverseNATKey, Value.natSPort, keySize, slice_append_of_le,
      slice_append_of_ge, slice_cons_of_pos, slice_of_length, copy_of_length_le, write_replicate,
      List.getD_append_right, List.getD_cons_zero, List.getD_cons_succ, length_toLE, hk,
      List.length_replicate, Nat.reduceAdd, Nat.reduceSub, List.replicate_zero, List.nil_append, List.append_nil,
      int64_ofLE_toLE, uInt16_ofLE_toLE]

/-! ## Values as the writers build them -/

/-- `NewValueNATForward` writes the `struct calico_ct_value` of a forward entry, with
`nat_sport` zero. -/
theorem newValueNATForward_eq_fwdValueImage (created lastSeen : Int64) (flags : UInt8)
    (revKey : Key) :
    (newValueNATForward created lastSeen flags revKey).bytes =
      fwdValueImage created lastSeen flags revKey 0 := by
  have hk : revKey.bytes.length = 16 := revKey.length_bytes
  have htail : toLE 2 (0 : UInt16).toNat ++ List.replicate 22 (0 : UInt8) = List.replicate 24 0 := by
    decide
  simp (disch := simp [hk]) only [newValueNATForward, initValue, fwdValueImage, valueSize, keySize,
    copy_of_length_le, write_replicate, write_append_of_le, write_cons, List.append_assoc,
    List.replicate_zero, List.nil_append, List.cons_append, length_toLE, hk, List.length_cons,
    List.length_nil, Nat.reduceAdd, Nat.reduceSub, htail]

/-- A forward entry built by `NewValueNATForward` has the bytes of the C layout of a forward
entry with `nat_sport` zero, and reads back its header and the reverse key it was given. -/
theorem newValueNATForward_fields (created lastSeen : Int64) (flags : UInt8) (revKey : Key) :
    let e := newValueNATForward created lastSeen flags revKey
    e.bytes = fwdValueImage created lastSeen flags revKey 0 ∧
      e.created = created ∧ e.lastSeen = lastSeen ∧ e.type = typeNATForward ∧ e.flags = flags ∧
      e.reverseNATKey = revKey := by
  have hbytes := newValueNATForward_eq_fwdValueImage created lastSeen flags revKey
  have he : newValueNATForward created lastSeen flags revKey =
      ⟨fwdValueImage created lastSeen flags revKey 0, length_fwdValueImage ..⟩ :=
    Value.ext hbytes
  obtain ⟨h₁, h₂, h₃, h₄, h₅, -⟩ := reverseNATKey_fwdValueImage created lastSeen flags revKey 0
  refine ⟨hbytes, ?_⟩
  rw [he]
  exact ⟨h₁, h₂, h₃, h₄, h₅⟩

@[simp] theorem length_asBytes (leg : Leg) : leg.asBytes.length = 12 := by
  simp [Leg.asBytes]

/-- The flag word `Leg.AsBytes` builds bit by bit is the C flag word. -/
theorem setBits_eq_legFlagWord (leg : Leg) :
    setBit (setBit (setBit (setBit (setBit (setBit 0 0 leg.synSeen) 1 leg.ackSeen) 2
      leg.finSeen) 3 leg.rstSeen) 4 leg.whitelisted) 5 leg.opener = UInt32.ofNat (legFlagWord leg) := by
  unfold legFlagWord
  cases leg.synSeen <;> cases leg.ackSeen <;> cases leg.finSeen <;> cases leg.rstSeen <;>
    cases leg.whitelisted <;> cases leg.opener <;> decide

/-- What `readConntrackLeg` reads from `Leg.AsBytes`: the same leg, except that the sequence
number written little-endian is read big-endian, its bytes reversed. -/
theorem readConntrackLeg_asBytes (leg : Leg) :
    readConntrackLeg leg.asBytes =
      { leg with seqno := UInt32.ofNat (ofBE (toLE 4 leg.seqno.toNat)) } := by
  obtain ⟨h0, h1, h2, h3, h4, h5⟩ := bitSet_legFlagWord leg
  simp (disch := simp) only [readConntrackLeg, Leg.asBytes, setBits_eq_legFlagWord,
    slice_write_self, slice_write_of_le, uInt32_ofLE_toLE, h0, h1, h2, h3, h4, h5]

/-- What `Data` reads back from a value `NewValueNormal` built: leg A with the bytes of its
sequence number reversed, on both legs; leg B is not in the value. -/
theorem data_newValueNormal (created lastSeen : Int64) (flags : UInt8) (legA legB : Leg) :
    let legA' := { legA with seqno := UInt32.ofNat (ofBE (toLE 4 legA.seqno.toNat)) }
    (newValueNormal created lastSeen flags legA legB).data.a2B = legA' ∧
      (newValueNormal created lastSeen flags legA legB).data.b2A = legA' := by
  -- both slots hold the bytes of `Leg.AsBytes` of leg A
  have hleg := readConntrackLeg_asBytes legA
  simp (disch := simp) only [newValueNormal, Value.data, slice_write_self, slice_write_of_le,
    slice_write_of_ge, copy_of_length_le, valueSize, hleg, and_self]

theorem newValueNormal_legs_diverge :
    (newValueNormal 0 0 0 {} { synSeen := true }).data.b2A ≠ { synSeen := true } ∧
      (newValueNormal 0 0 0 { seqno := 1 } { seqno := 1 }).data.a2B ≠ { seqno := 1 } := by
  decide

end Felix.Bpf.Conntrack
