import Felix.LabelIndex.NamedPortIndex
import Felix.Collections.Bytes

/-!
# IP set members in the BPF dataplane

The calculation graph sends an IP set's members as strings (`memberToProto`): a CIDR, or,
for a named port, an address with a protocol and a port, `10.0.0.1,tcp:80`. The BPF
dataplane stores each member as a key of its longest-prefix-match IP set map
(`ProtoIPSetMemberToBPFEntry`): the prefix length, the set's ID, the address, the port and
the protocol. A CIDR's entry matches on the ID and the CIDR's prefix of the address; a named
port's entry matches on all of them.

The entry is built only for the protocols `tcp` and `udp`. The calculation graph also sends
`sctp` named ports, and for those no entry is built: a packet that the member stands for is
not in the set (`sctpMember_has_no_entry`).

This module models the string forms of addresses and CIDRs of the `ip` package and of Go's
`net.ParseIP` and `net.ParseCIDR` for IPv4, `memberToProto` of `calc/event_sequencer.go`, and
`MakeBPFIPSetEntry` and `ProtoIPSetMemberToBPFEntry` of `bpf/ipsets/map.go`. Strings are read
as lists of characters. A panic is an error with its message.

## Main definitions

* `V4CIDR`, `mustParseCIDROrIP`, `v4AddrString`, `V4CIDR.containsV4`
* `memberToProto`, `makeBPFIPSetEntry`, `protoIPSetMemberToBPFEntry`, `IPSetEntry.setID`
* `memberMatches`: the packets a member stands for
-/

namespace Felix.Bpf

open LabelIndex

/-! ## IPv4 addresses and CIDRs -/

/-- `ip.V4CIDR`: an address, masked to the prefix, and the prefix length. The address is the
number its four bytes spell in network order. -/
structure V4CIDR where
  addr : UInt32
  prefixLen : ℕ
  deriving DecidableEq

/-- `ip.CIDR` as the BPF dataplane reads it: an IPv4 CIDR, or an IPv6 one, which it skips. -/
inductive CIDR where
  | v4 (c : V4CIDR)
  | v6
  deriving DecidableEq

/-- `dtoi`, as its callers use it: the number that the whole string spells in decimal, when
it is a non-empty string of digits. -/
def dtoi (cs : List Char) : Option ℕ :=
  if cs ≠ [] ∧ cs.all Char.isDigit = true then
    some (cs.foldl (fun n c => 10 * n + (c.toNat - '0'.toNat)) 0)
  else none

/-- `parseIPv4`: four decimal bytes separated by dots. -/
def parseIPv4 (s : List Char) : Option UInt32 :=
  match (s.splitOn '.').map dtoi with
  | [some a, some b, some c, some d] =>
    if a ≤ 255 ∧ b ≤ 255 ∧ c ≤ 255 ∧ d ≤ 255 then
      some (UInt32.ofNat (((a * 256 + b) * 256 + c) * 256 + d))
    else none
  | _ => none

/-- `net.CIDRMask(n, 32)`: the top `n` bits. -/
def cidrMask (n : ℕ) : UInt32 := UInt32.ofNat (2 ^ 32 - 2 ^ (32 - n))

/-- `MustParseCIDROrIP`: an address is a full-length CIDR, and a CIDR's address is masked to
its prefix. Without a slash, `net.ParseIP` reads an IPv4 address if a dot comes before any
colon and an IPv6 one if a colon does; with one, `net.ParseCIDR` reads the part before the
first slash as an IPv4 address, or else as an IPv6 one. The model does not check the syntax
of IPv6 addresses: a string with a colon that is not IPv4 is taken as IPv6. -/
def mustParseCIDROrIP (s : String) : Except String CIDR :=
  let failed : Except String CIDR := .error "Failed to parse CIDR"
  match s.toList.splitOn '/' with
  | [addr] =>
    match addr.find? fun c => c = '.' ∨ c = ':' with
    | some '.' =>
      match parseIPv4 addr with
      | some a => .ok (.v4 ⟨a, 32⟩)
      | none => failed
    | some _ => .ok .v6
    | none => failed
  | [addr, mask] =>
    match parseIPv4 addr, dtoi mask with
    | some a, some n => if n ≤ 32 then .ok (.v4 ⟨a &&& cidrMask n, n⟩) else failed
    | some _, none => failed
    | none, some n => if ':' ∈ addr ∧ n ≤ 128 then .ok .v6 else failed
    | none, none => failed
  | _ => failed

/-- `V4Addr.String`: the dotted decimal form. -/
def v4AddrString (a : UInt32) : String :=
  toString (a >>> 24).toNat ++ "." ++ toString ((a >>> 16) &&& 0xff).toNat ++ "." ++
    toString ((a >>> 8) &&& 0xff).toNat ++ "." ++ toString (a &&& 0xff).toNat

/-- `V4CIDR.String`. -/
def V4CIDR.toString (c : V4CIDR) : String := v4AddrString c.addr ++ "/" ++ ToString.toString c.prefixLen

/-- `V4CIDR.ContainsV4`: the address agrees with the CIDR's on the prefix. -/
def V4CIDR.containsV4 (c : V4CIDR) (a : UInt32) : Bool := (c.addr ^^^ a) &&& cidrMask c.prefixLen == 0

/-! ## Members and entries -/

/-- `memberToProto`: a member as the calculation graph sends it, its CIDR, or for a named
port its address with the protocol and the port. -/
def memberToProto (member : IPSetMember V4CIDR) : Except String String :=
  let namedPort (proto : String) : String :=
    v4AddrString member.cidr.addr ++ "," ++ proto ++ ":" ++ toString member.portNumber.toNat
  if member.protocol = protocolNone then .ok member.cidr.toString
  else if member.protocol = protocolTCP then .ok (namedPort "tcp")
  else if member.protocol = protocolUDP then .ok (namedPort "udp")
  else if member.protocol = protocolSCTP then .ok (namedPort "sctp")
  else .error "Unknown IP set member type"

/-- `IPSetEntry`: the twenty bytes of a key of the IP set map. -/
abbrev IPSetEntry := List UInt8

/-- The `k` little-endian bytes of `n`. -/
def leBytes (n : ℕ) : ℕ → List UInt8
  | 0 => []
  | k + 1 => UInt8.ofNat n :: leBytes (n / 256) k

/-- The `k` big-endian bytes of `n`. -/
def beBytes (n k : ℕ) : List UInt8 := (leBytes n k).reverse

/-- `MakeBPFIPSetEntry`: a CIDR's entry matches on the set ID and the CIDR's prefix; a named
port's on the ID, the address, the port and the protocol. -/
def makeBPFIPSetEntry (setID : UInt64) (cidr : V4CIDR) (port : UInt16) (proto : UInt8) :
    IPSetEntry :=
  let prefixLen := if proto = 0 then 64 + cidr.prefixLen else 64 + 32 + 16 + 8
  leBytes prefixLen 4 ++ beBytes setID.toNat 8 ++ beBytes cidr.addr.toNat 4 ++
    leBytes port.toNat 2 ++ [proto, 0]

/-- `IPSetEntry.SetID`: the ID of the entry's set, big-endian in bytes 4 to 11. -/
def IPSetEntry.setID (entry : IPSetEntry) : UInt64 :=
  UInt64.ofNat (Bytes.ofBE (Bytes.slice entry 4 12))

/-- `strconv.ParseUint(s, 10, 16)`. -/
def parseUint16 (cs : List Char) : Option UInt16 :=
  match dtoi cs with
  | some n => if n < 65536 then some (UInt16.ofNat n) else none
  | none => none

/-- `ProtoIPSetMemberToBPFEntry`: the entry of a member, none for an IPv6 member or a named
port of another protocol than `tcp` or `udp`. -/
def protoIPSetMemberToBPFEntry (id : UInt64) (member : String) :
    Except String (Option IPSetEntry) :=
  let entryFor (cidrStr : List Char) (port : UInt16) (protocol : UInt8) :
      Except String (Option IPSetEntry) :=
    match mustParseCIDROrIP (String.ofList cidrStr) with
    | .ok (.v4 cidr) => .ok (some (makeBPFIPSetEntry id cidr port protocol))
    | .ok .v6 => .ok none
    | .error e => .error e
  if ',' ∈ member.toList then
    -- a named port: the address, then the protocol and the port
    match member.toList.splitOn ',' with
    | cidrStr :: rest :: _ =>
      let parts := rest.splitOn ':'
      let protocol : Option UInt8 :=
        if parts.head? = some "tcp".toList then some 6
        else if parts.head? = some "udp".toList then some 17
        else none
      match protocol, parts with
      | none, _ => .ok none
      | some protocol, _ :: portStr :: _ =>
        match parseUint16 portStr with
        | some port => entryFor cidrStr port protocol
        | none => .error "Failed to parse port"
      | some _, _ => .error "index out of range"
    | _ => .error "index out of range"
  else entryFor member.toList 0 0
attribute [grind] protoIPSetMemberToBPFEntry

/-! ## Entries carry their set's ID -/

theorem leBytes_eq_toLE (n k : ℕ) : leBytes n k = Bytes.toLE k n := by
  induction k generalizing n with
  | zero => rfl
  | succ k ih => rw [leBytes, ih, Bytes.toLE_succ]

/-- `SetID` reads back the ID that `MakeBPFIPSetEntry` wrote. -/
theorem setID_makeBPFIPSetEntry (setID : UInt64) (cidr : V4CIDR) (port : UInt16) (proto : UInt8) :
    IPSetEntry.setID (makeBPFIPSetEntry setID cidr port proto) = setID := by
  have hlen : (leBytes (if proto = 0 then 64 + cidr.prefixLen else 64 + 32 + 16 + 8) 4).length =
      4 := by
    rw [leBytes_eq_toLE, Bytes.length_toLE]
  have hid : (beBytes setID.toNat 8).length = 8 := by
    rw [beBytes, List.length_reverse, leBytes_eq_toLE, Bytes.length_toLE]
  simp only [IPSetEntry.setID, makeBPFIPSetEntry, List.append_assoc]
  rw [Bytes.slice_append_of_ge hlen.le, hlen, Bytes.slice_append_of_le (by rw [hid]),
    Bytes.slice_of_length hid, beBytes, leBytes_eq_toLE]
  exact Bytes.uInt64_ofBE_toBE setID

/-- Every entry of a member of the set `id` carries `id`. -/
theorem setID_of_protoIPSetMemberToBPFEntry {id : UInt64} {member : String} {entry : IPSetEntry}
    (h : protoIPSetMemberToBPFEntry id member = .ok (some entry)) : IPSetEntry.setID entry = id := by
  -- every entry the function returns is built by `makeBPFIPSetEntry id`
  have hmk : ∀ (cidrStr : List Char) (port : UInt16) (protocol : UInt8),
      (match mustParseCIDROrIP (String.ofList cidrStr) with
        | .ok (.v4 cidr) => .ok (some (makeBPFIPSetEntry id cidr port protocol))
        | .ok .v6 => .ok none
        | .error e => .error e : Except String (Option IPSetEntry)) = .ok (some entry) →
      IPSetEntry.setID entry = id := by
    intro cidrStr port protocol he
    split at he
    · cases he
      exact setID_makeBPFIPSetEntry _ _ _ _
    · cases he
    · cases he
  unfold protoIPSetMemberToBPFEntry at h
  split_ifs at h
  · -- a named port: its address, protocol and port
    split at h
    · dsimp only at h
      split at h
      · cases h
      · split at h
        · exact hmk _ _ _ h
        · cases h
      · cases h
    · cases h
  · exact hmk _ _ _ h

/-- What a member stands for, as in the `hash:net` and `hash:ip,port` sets of the iptables
dataplane: the addresses of its CIDR, and for a named port only its protocol and port. -/
def memberMatches (m : IPSetMember V4CIDR) (a : UInt32) (port : UInt16) (proto : UInt8) :
    Bool :=
  m.cidr.containsV4 a && (m.protocol == protocolNone || (proto == m.protocol && port == m.portNumber))

/-! ## Named ports by protocol -/

/-- A named-port member of `10.0.0.1` on port 80 of a protocol. -/
def namedPortMember (protocol : IPSetPortProtocol) : IPSetMember V4CIDR :=
  ⟨⟨0x0a000001, 32⟩, protocol, 80⟩

/-- A TCP named port gets the entry of its address, port and protocol. -/
example : memberToProto (namedPortMember protocolTCP) = .ok "10.0.0.1,tcp:80" ∧
    protoIPSetMemberToBPFEntry 1 "10.0.0.1,tcp:80" =
      .ok (some (makeBPFIPSetEntry 1 ⟨0x0a000001, 32⟩ 80 6)) := by
  decide

/-! ## SCTP named ports -/

/-- The decimal digits of a number are digits. -/
theorem isDigit_of_mem_toDigits {n : ℕ} {c : Char} (h : c ∈ Nat.toDigits 10 n) :
    c.isDigit = true :=
  Nat.isDigit_of_mem_toDigits (by decide) (by decide) h

/-- The dotted form of an address has digits and dots only. -/
theorem mem_v4AddrString {a : UInt32} {c : Char} (h : c ∈ (v4AddrString a).toList) :
    c.isDigit = true ∨ c = '.' := by
  simp only [v4AddrString, String.toList_append, List.mem_append, toString, Nat.repr,
    String.toList_ofList] at h
  have hdot : c ∈ ".".toList → c = '.' := by simp
  rcases h with ((((((h | h) | h) | h) | h) | h) | h)
  · exact .inl (isDigit_of_mem_toDigits h)
  · exact .inr (hdot h)
  · exact .inl (isDigit_of_mem_toDigits h)
  · exact .inr (hdot h)
  · exact .inl (isDigit_of_mem_toDigits h)
  · exact .inr (hdot h)
  · exact .inl (isDigit_of_mem_toDigits h)

theorem memberToProto_sctp {m : IPSetMember V4CIDR} (h : m.protocol = protocolSCTP) :
    memberToProto m =
      .ok (v4AddrString m.cidr.addr ++ "," ++ "sctp" ++ ":" ++ toString m.portNumber.toNat) := by
  simp [memberToProto, h, protocolNone, protocolTCP, protocolUDP, protocolSCTP]

/-- **No SCTP named port gets an entry.** Whatever its address and port, the string the
calculation graph sends for an SCTP named-port member splits into its address and
`sctp:port`, and `ProtoIPSetMemberToBPFEntry` returns `nil` for the protocol. -/
theorem sctpNamedPort_has_no_entry (id : UInt64) (m : IPSetMember V4CIDR)
    (h : m.protocol = protocolSCTP) :
    ∃ s, memberToProto m = .ok s ∧ protoIPSetMemberToBPFEntry id s = .ok none := by
  refine ⟨_, memberToProto_sctp h, ?_⟩
  -- the address has no comma, and the port neither a comma nor a colon
  have hA : ',' ∉ (v4AddrString m.cidr.addr).toList := fun hc => by
    rcases mem_v4AddrString hc with hd | hd <;> revert hd <;> decide
  have hD : ∀ x, x.isDigit = false → x ∉ Nat.toDigits 10 m.portNumber.toNat := fun x hx hc => by
    rw [isDigit_of_mem_toDigits hc] at hx
    cases hx
  -- so the member splits at its one comma, then at its one colon
  have hsplit : (v4AddrString m.cidr.addr ++ "," ++ "sctp" ++ ":" ++
      toString m.portNumber.toNat).toList.splitOn ',' =
        [(v4AddrString m.cidr.addr).toList, "sctp:".toList ++ Nat.toDigits 10 m.portNumber.toNat] := by
    rw [← @List.splitOn_intercalate Char [(v4AddrString m.cidr.addr).toList,
      "sctp:".toList ++ Nat.toDigits 10 m.portNumber.toNat] _ _ ',']
    · simp [toString, Nat.repr]
    · simp [hA, hD ',' (by decide)]
    · simp
  have hparts : ("sctp:".toList ++ Nat.toDigits 10 m.portNumber.toNat).splitOn ':' =
      ["sctp".toList, Nat.toDigits 10 m.portNumber.toNat] := by
    rw [← @List.splitOn_intercalate Char ["sctp".toList, Nat.toDigits 10 m.portNumber.toNat] _ _ ':']
    · simp
    · simp [hD ':' (by decide)]
    · simp
  have hcomma : ',' ∈ (v4AddrString m.cidr.addr ++ "," ++ "sctp" ++ ":" ++
      toString m.portNumber.toNat).toList := by simp
  have htcp : "sctp".toList ≠ "tcp".toList := by decide
  have hudp : "sctp".toList ≠ "udp".toList := by decide
  simp only [protoIPSetMemberToBPFEntry, hcomma, if_true, hsplit, hparts, List.head?_cons,
    Option.some.injEq, htcp, hudp, if_false]

theorem sctpNamedPort_has_no_entry_demo :
    ∃ s, memberToProto (namedPortMember protocolSCTP) = .ok s ∧ protoIPSetMemberToBPFEntry 7 s = .ok none :=
  sctpNamedPort_has_no_entry 7 (namedPortMember protocolSCTP) rfl

/-- The SCTP member `10.0.0.1,sctp:80` that the calculation graph sends stands for an SCTP
packet from `10.0.0.1` to port 80, but it gets no entry, so no lookup finds it. -/
theorem sctpMember_has_no_entry :
    memberToProto (namedPortMember protocolSCTP) = .ok "10.0.0.1,sctp:80" ∧
      memberMatches (namedPortMember protocolSCTP) 0x0a000001 80 132 = true ∧
      protoIPSetMemberToBPFEntry 1 "10.0.0.1,sctp:80" = .ok none := by
  decide

end Felix.Bpf
