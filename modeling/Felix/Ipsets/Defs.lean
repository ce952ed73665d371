import Felix.Bpf.IPSets
import Felix.Collections.IterSet
import Felix.Rules.Policy
import Mathlib

/-!
# IP set types, names and the kernel's IP sets

The definitions of `ipset_defs.go` that the IP sets manager uses: the three types of IP set
Felix creates and how a member of each is put in canonical form, and `IPVersionConfig`, which
names the main and temporary IP sets of one IP version and tells which names are Felix's.

Below them, the kernel side that the manager drives through the `ipset` command: a map from
IP set name to the set's type and members. `ipset list` lists it; `ipset restore` applies
lines one at a time and stops at the first that fails, keeping what the lines before it did
(it is not atomic); `ipset destroy` removes one set.

## Main definitions

* `IPSetType`, `IPSetType.isMemberIPV6`, `IPSetType.canonicaliseMember`
* `IPVersionConfig`, `newIPVersionConfig`, `nameForTempIPSet`, `ownsIPSet`, `isTempIPSetName`
* `Kernel`, `RestoreLine`, `Kernel.restoreLine`, `Kernel.restore`, `Kernel.destroy`
-/

namespace Felix.Ipsets

open Bpf

/-! ## Types and members -/

/-- `IPSetType`: the types of IP set Felix creates. -/
inductive IPSetType where
  | hashIP
  | hashIPPort
  | hashNet
  deriving DecidableEq, Repr

/-- `IPSetType.SetType`: the type's name in `ipset` commands. -/
def IPSetType.setType : IPSetType → String
  | .hashIP => "hash:ip"
  | .hashIPPort => "hash:ip,port"
  | .hashNet => "hash:net"

/-- `IPSetType.IsMemberIPV6`: an IPv6 member has a colon in its address. -/
def IPSetType.isMemberIPV6 (t : IPSetType) (member : String) : Bool :=
  match t with
  | .hashIP | .hashNet => ':' ∈ member.toList
  | .hashIPPort => ':' ∈ ((member.toList.splitOn ',').headD [])

/-- `ip.FromString` followed by the address's `String`: the dotted form of an IPv4 address.
As in `mustParseCIDROrIP`, `net.ParseIP` reads the text as IPv4 if a dot comes before any
colon and as IPv6 if a colon does; an IPv6 address keeps its text. -/
def addrFromString (s : List Char) : Option String :=
  match s.find? fun c => c = '.' ∨ c = ':' with
  | some '.' => (parseIPv4 s).map v4AddrString
  | some _ => some (String.ofList s)
  | none => none

/-- `strconv.Atoi`: an optional sign and decimal digits, within the range of `int`. -/
def atoi (cs : List Char) : Option ℤ :=
  let v : Option ℤ :=
    match cs with
    | '-' :: ds => (dtoi ds).map fun n => -(n : ℤ)
    | '+' :: ds => (dtoi ds).map fun n => (n : ℤ)
    | ds => (dtoi ds).map fun n => (n : ℤ)
  v.filter fun n => -2 ^ 63 ≤ n ∧ n < 2 ^ 63

/-- The text `strings.Split(s, sep)[i]` reads, or an index-out-of-range panic. -/
def splitPart (s : List Char) (sep : Char) (i : ℕ) : Except String (List Char) :=
  match (s.splitOn sep)[i]? with
  | some part => .ok part
  | none => .error "index out of range"

/-- `IPSetType.CanonicaliseMember`, followed by the member's `String`: the text Felix writes
for a member and compares members by. An address is printed in dotted form, a CIDR with its
prefix length and its address masked to it, and an IP-and-port member as
`ip,protocol:port` with the protocol in lower case and the port as a `uint16`. -/
def IPSetType.canonicaliseMember (t : IPSetType) (member : String) : Except String String :=
  match t with
  | .hashIP =>
    match addrFromString member.toList with
    | some a => .ok a
    | none => .error "Failed to parse IP"
  | .hashIPPort =>
    match member.toList.splitOn ',' with
    | [ipPart, rest] => do
      let ipAddr ← match addrFromString ipPart with
        | some a => pure a
        | none => throw "Failed to parse IP part of IP,port member"
      let proto ← splitPart rest ':' 0
      let protoName := String.ofList (proto.map Char.toLower)
      if protoName ≠ "udp" ∧ protoName ≠ "tcp" ∧ protoName ≠ "sctp" then throw "Unknown protocol"
      let portText ← splitPart rest ':' 1
      match atoi portText with
      | some port => pure (ipAddr ++ "," ++ protoName ++ ":" ++ toString (UInt16.ofInt port).toNat)
      | none => throw "Bad port"
    | _ => .error "Failed to parse IP,port IP set member"
  | .hashNet =>
    match mustParseCIDROrIP member with
    | .ok (.v4 c) => .ok c.toString
    | .ok .v6 => .ok member
    | .error e => .error e

/-- `IPFamily`. -/
inductive IPFamily where
  | inet
  | inet6
  deriving DecidableEq, Repr

/-- The family's name in `ipset` commands. -/
def IPFamily.toString : IPFamily → String
  | .inet => "inet"
  | .inet6 => "inet6"

/-- `IPSetMetadata`. -/
structure IPSetMetadata where
  setID : String
  type : IPSetType
  maxSize : ℕ
  deriving DecidableEq

/-! ## Names -/

/-- `IPVersionConfig`: the names of one IP version's IP sets. The regular expression that
`OwnsIPSet` matches, `^(p₁|p₂|…)` over quoted prefixes, is kept as its list of prefixes. -/
structure IPVersionConfig extends Rules.IPVersionConfig where
  family : IPFamily
  setNamePrefix : String
  tempSetNamePrefix : String
  ourNamePrefixes : List String

/-- `mainIpsetToken`. -/
def mainIpsetToken : String := "0"

/-- `tempIpsetToken`. -/
def tempIpsetToken : String := "t"

/-- `NewIPVersionConfig`. -/
def newIPVersionConfig (family : IPFamily) (namePrefix : String)
    (allHistoricPrefixes extraUnversionedIPSets : List String) : IPVersionConfig :=
  let version := match family with
    | .inet => "4"
    | .inet6 => "6"
  let versionedPrefix := namePrefix ++ version
  { family := family
    setNamePrefix := versionedPrefix
    tempSetNamePrefix := versionedPrefix ++ tempIpsetToken
    mainSetNamePrefix := versionedPrefix ++ mainIpsetToken
    ourNamePrefixes := (namePrefix ++ version) :: allHistoricPrefixes.map (· ++ version) ++
      extraUnversionedIPSets }

/-- `NameForTempIPSet`. -/
def IPVersionConfig.nameForTempIPSet (c : IPVersionConfig) (n : ℕ) : String :=
  c.tempSetNamePrefix ++ toString n

/-- `OwnsIPSet`: the name starts with one of Felix's prefixes. -/
def IPVersionConfig.ownsIPSet (c : IPVersionConfig) (setName : String) : Bool :=
  c.ourNamePrefixes.any fun p => p.toList.isPrefixOf setName.toList

/-- `IsTempIPSetName`. -/
def IPVersionConfig.isTempIPSetName (c : IPVersionConfig) (setName : String) : Bool :=
  c.tempSetNamePrefix.toList.isPrefixOf setName.toList

/-! ## The kernel's IP sets -/

/-- An IP set in the kernel: its type and its members, as `ipset list` prints them. -/
structure KernelIPSet where
  type : IPSetType
  members : IterSet String

/-- The kernel's IP sets, by name. -/
abbrev Kernel := AList fun _ : String => KernelIPSet

/-- A line of `ipset restore` input, as the manager writes them. -/
inductive RestoreLine where
  | create (name : String) (type : IPSetType) (family : IPFamily) (maxSize : ℕ)
  | add (name member : String)
  | delExist (name member : String)
  | swap (name₁ name₂ : String)
  | destroy (name : String)
  | commit

/-- The text of the line, from the format strings of the writers. -/
def RestoreLine.text : RestoreLine → String
  | .create n t f m => "create " ++ n ++ " " ++ t.setType ++ " family " ++ f.toString ++
      " maxelem " ++ toString m
  | .add n m => "add " ++ n ++ " " ++ m
  | .delExist n m => "del " ++ n ++ " " ++ m ++ " --exist"
  | .swap a b => "swap " ++ a ++ " " ++ b
  | .destroy n => "destroy " ++ n
  | .commit => "COMMIT"
attribute [grind] RestoreLine.text

/-- What one line does to the kernel, or `none` where `ipset` reports an error: creating a
set that exists, adding a member a set has, naming a set that does not exist, or swapping
two sets of different types. -/
def Kernel.restoreLine (k : Kernel) : RestoreLine → Option Kernel
  | .create n t _ _ => if n ∈ k then none else some (k.insert n ⟨t, ∅⟩)
  | .add n m => (k.lookup n).bind fun ks =>
      if m ∈ ks.members then none else some (k.insert n { ks with members := ks.members.add m })
  | .delExist n m => (k.lookup n).map fun ks =>
      k.insert n { ks with members := ks.members.discard m }
  | .swap a b => (k.lookup a).bind fun ka => (k.lookup b).bind fun kb =>
      if ka.type = kb.type then some ((k.insert a kb).insert b ka) else none
  | .destroy n => if n ∈ k then some (k.erase n) else none
  | .commit => some k
attribute [grind] Kernel.restoreLine

/-- `ipset restore`: the lines in order, up to the first that fails. The kernel keeps the
effect of the lines before it; the flag says whether every line went through. -/
def Kernel.restore : Kernel → List RestoreLine → Kernel × Bool
  | k, [] => (k, true)
  | k, l :: ls =>
    match k.restoreLine l with
    | some k' => k'.restore ls
    | none => (k, false)
attribute [grind] Kernel.restore

/-- `ipset destroy`. -/
def Kernel.destroy (k : Kernel) (name : String) : Option Kernel :=
  k.restoreLine (.destroy name)

/-- `ipset list`: each set's name and members. -/
def Kernel.list (k : Kernel) : List (String × List String) :=
  k.entries.map fun e => (e.1, e.2.members.toList)

end Felix.Ipsets
