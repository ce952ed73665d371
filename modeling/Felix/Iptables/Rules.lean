import Mathlib

/-!
# iptables rules and what they do to a packet

The `iptables` package renders a rule as match criteria, one fragment per call of the match
builder, and an action. This module models a rule the same way, with each fragment kept as
the call that wrote it (`Criterion`), and gives the rules their meaning in iptables: a rule
whose criteria all hold applies its action; `MARK` rewrites the packet mark, `LOG` logs, and
both go on to the next rule; `RETURN`, `DROP` and `ACCEPT` end the chain. A `--jump` to
another chain goes on with the mark that chain returns, or ends with its verdict. The chains
jumped to are given by what they do, as a parameter of the run.

What a criterion reads of the packet beyond its own fields (which addresses a CIDR or an IP
set holds, which numbers a protocol name stands for) is an `Env`.

## Main definitions

* `Criterion`, `MatchCriteria`, `Action`, `Rule`
* `Packet`, `Env`, `Criterion.holds`, `Outcome`, `runRules`
-/

namespace Felix.Iptables

/-- `proto.PortRange`: the ports from `first` to `last`. -/
structure PortRange where
  first : ℕ
  last : ℕ
  deriving DecidableEq

/-- A fragment of a rule's match, as the call of the match builder that wrote it. -/
inductive Criterion where
  /-- `-m mark --mark 0/mark` -/
  | markClear (mark : UInt32)
  /-- `-m mark --mark mark/mark` -/
  | markSingleBitSet (mark : UInt32)
  | protocol (name : String)
  | notProtocol (name : String)
  | protocolNum (num : UInt8)
  | notProtocolNum (num : UInt8)
  | sourceNet (net : String)
  | notSourceNet (net : String)
  | destNet (net : String)
  | notDestNet (net : String)
  /-- `-m set --match-set name src` -/
  | sourceIPSet (name : String)
  | notSourceIPSet (name : String)
  /-- `-m set --match-set name src,src`: the address with the protocol and port -/
  | sourceIPPortSet (name : String)
  | notSourceIPPortSet (name : String)
  | destIPSet (name : String)
  | notDestIPSet (name : String)
  | destIPPortSet (name : String)
  | notDestIPPortSet (name : String)
  /-- `-m multiport --destination-ports` over single ports -/
  | destPorts (ports : List UInt16)
  /-- `-m multiport --source-ports` over ranges -/
  | sourcePortRanges (ports : List PortRange)
  | notSourcePortRanges (ports : List PortRange)
  | destPortRanges (ports : List PortRange)
  | notDestPortRanges (ports : List PortRange)
  /-- `-m icmp --icmp-type t` -/
  | icmpType (t : UInt8)
  | notICMPType (t : UInt8)
  | icmpTypeAndCode (t c : UInt8)
  | notICMPTypeAndCode (t c : UInt8)
  /-- `-m icmp6 --icmpv6-type t` -/
  | icmpV6Type (t : UInt8)
  | notICMPV6Type (t : UInt8)
  | icmpV6TypeAndCode (t c : UInt8)
  | notICMPV6TypeAndCode (t c : UInt8)
  /-- `-m conntrack --ctstate stateNames`, the names separated by commas -/
  | conntrackState (stateNames : String)
  deriving DecidableEq

/-- `MatchCriteria`: the fragments of a match, in order. -/
abbrev MatchCriteria := List Criterion

/-- The actions a rule can take. Each `MARK` action renders `--set-mark value/mask`. -/
inductive Action where
  | dropAction
  | acceptAction
  | returnAction
  | logAction (prefix_ : String)
  | setMarkAction (mark : UInt32)
  | clearMarkAction (mark : UInt32)
  | setMaskedMarkAction (mark mask : UInt32)
  | jumpAction (target : String)
  | noTrackAction
  deriving DecidableEq

/-- `iptables.Rule`, without its comments. -/
structure Rule where
  matchCriteria : MatchCriteria
  action : Action
  deriving DecidableEq

/-- The fields of a packet that rules look at. -/
structure Packet (Addr : Type) where
  srcAddr : Addr
  dstAddr : Addr
  protocol : UInt8
  srcPort : ℕ
  dstPort : ℕ
  icmpType : UInt8
  icmpCode : UInt8
  /-- The conntrack state's name, such as `ESTABLISHED`. -/
  ctState : String

/-- What the kernel knows beyond the packet: the protocol numbers a name stands for, the
addresses of a CIDR, and the members of the IP sets by name, addresses or (address,
protocol, port) triples. -/
structure Env (Addr : Type) where
  protocolNamed : String → UInt8 → Bool
  inNet : String → Addr → Bool
  inIPSet : String → Addr → Bool
  inIPPortSet : String → Addr → UInt8 → ℕ → Bool

/-- `MARK --set-mark value/mask`: the bits of `mask` and `value` are cleared and those of
`value` set. -/
def setMark (value mask mark : UInt32) : UInt32 := (mark &&& ~~~(mask ||| value)) ||| value
attribute [grind] setMark

/-- The port is in one of the ranges. -/
def inPortRanges (ports : List PortRange) (port : ℕ) : Bool :=
  ports.any fun pr => pr.first ≤ port && port ≤ pr.last

variable {Addr : Type}

/-- Whether a criterion holds of a packet with a mark. -/
def Criterion.holds (env : Env Addr) (pkt : Packet Addr) (mark : UInt32) : Criterion → Bool
  | .markClear m => mark &&& m == 0
  | .markSingleBitSet m => mark &&& m == m
  | .protocol name => env.protocolNamed name pkt.protocol
  | .notProtocol name => !env.protocolNamed name pkt.protocol
  | .protocolNum num => pkt.protocol == num
  | .notProtocolNum num => pkt.protocol != num
  | .sourceNet net => env.inNet net pkt.srcAddr
  | .notSourceNet net => !env.inNet net pkt.srcAddr
  | .destNet net => env.inNet net pkt.dstAddr
  | .notDestNet net => !env.inNet net pkt.dstAddr
  | .sourceIPSet name => env.inIPSet name pkt.srcAddr
  | .notSourceIPSet name => !env.inIPSet name pkt.srcAddr
  | .sourceIPPortSet name => env.inIPPortSet name pkt.srcAddr pkt.protocol pkt.srcPort
  | .notSourceIPPortSet name => !env.inIPPortSet name pkt.srcAddr pkt.protocol pkt.srcPort
  | .destIPSet name => env.inIPSet name pkt.dstAddr
  | .notDestIPSet name => !env.inIPSet name pkt.dstAddr
  | .destIPPortSet name => env.inIPPortSet name pkt.dstAddr pkt.protocol pkt.dstPort
  | .notDestIPPortSet name => !env.inIPPortSet name pkt.dstAddr pkt.protocol pkt.dstPort
  | .destPorts ports => ports.any fun p => p.toNat == pkt.dstPort
  | .sourcePortRanges ports => inPortRanges ports pkt.srcPort
  | .notSourcePortRanges ports => !inPortRanges ports pkt.srcPort
  | .destPortRanges ports => inPortRanges ports pkt.dstPort
  | .notDestPortRanges ports => !inPortRanges ports pkt.dstPort
  | .icmpType t | .icmpV6Type t => pkt.icmpType == t
  | .notICMPType t | .notICMPV6Type t => pkt.icmpType != t
  | .icmpTypeAndCode t c | .icmpV6TypeAndCode t c => pkt.icmpType == t && pkt.icmpCode == c
  | .notICMPTypeAndCode t c | .notICMPV6TypeAndCode t c => !(pkt.icmpType == t && pkt.icmpCode == c)
  | .conntrackState stateNames => pkt.ctState.toList ∈ stateNames.toList.splitOn ','
attribute [grind] Criterion.holds

/-- How a run of rules ends: past its last rule, or at a rule that returns, drops or
accepts. -/
inductive Verdict where
  | fallThrough
  | returned
  | dropped
  | accepted
  deriving DecidableEq

/-- The verdict, the packet's mark, and whether some rule logged the packet. -/
structure Outcome where
  verdict : Verdict
  mark : UInt32
  logged : Bool
  deriving DecidableEq

/-- The rules in order, from the mark `mark`. A jump runs the chain `jump` names; a chain
that returns or falls through goes on to the next rule with its mark. -/
def runRules (env : Env Addr) (jump : String → Packet Addr → UInt32 → Outcome) (pkt : Packet Addr) :
    List Rule → UInt32 → Bool → Outcome
  | [], mark, logged => ⟨.fallThrough, mark, logged⟩
  | r :: rs, mark, logged =>
    if r.matchCriteria.all (·.holds env pkt mark) then
      match r.action with
      | .dropAction => ⟨.dropped, mark, logged⟩
      | .acceptAction => ⟨.accepted, mark, logged⟩
      | .returnAction => ⟨.returned, mark, logged⟩
      | .logAction _ => runRules env jump pkt rs mark true
      | .setMarkAction m => runRules env jump pkt rs (setMark m m mark) logged
      | .clearMarkAction m => runRules env jump pkt rs (setMark 0 m mark) logged
      | .setMaskedMarkAction m mask => runRules env jump pkt rs (setMark m mask mark) logged
      -- `NOTRACK` marks the connection untracked and goes on
      | .noTrackAction => runRules env jump pkt rs mark logged
      | .jumpAction target =>
        let o := jump target pkt mark
        match o.verdict with
        | .returned | .fallThrough => runRules env jump pkt rs o.mark (logged || o.logged)
        | .dropped | .accepted => { o with logged := logged || o.logged }
    else runRules env jump pkt rs mark logged
attribute [grind] runRules

theorem Outcome.verdict_cases (o : Outcome) :
    o.verdict = .fallThrough ∨ o.verdict = .returned ∨ o.verdict = .dropped ∨
      o.verdict = .accepted := by
  cases o.verdict <;> simp

/-- The chain goes back to its caller, by `RETURN` or past its last rule, with the mark. -/
def Outcome.Continues (o : Outcome) (mark : UInt32) : Prop :=
  (o.verdict = .returned ∨ o.verdict = .fallThrough) ∧ o.mark = mark

/-! ## Mark bits -/

theorem or_and_self_right (m a : UInt32) : (m ||| a) &&& a = a := by
  apply UInt32.toBitVec_inj.mp
  ext i
  simp +contextual

theorem or_and_eq_zero {m p a : UInt32} (hm : m &&& a = 0) (hp : p &&& a = 0) :
    (m ||| p) &&& a = 0 := by
  have hm' := congrArg UInt32.toBitVec hm
  have hp' := congrArg UInt32.toBitVec hp
  apply UInt32.toBitVec_inj.mp
  simp only [UInt32.toBitVec_and, UInt32.toBitVec_or, UInt32.toBitVec_zero] at *
  rw [BitVec.and_or_distrib_right, hm', hp', BitVec.or_zero]

/-- `MARK --set-mark 0/mask` clears the bits of `mask`. -/
theorem setMark_clear_and (a m : UInt32) : setMark 0 a m &&& a = 0 := by
  apply UInt32.toBitVec_inj.mp
  ext i
  simp [setMark]

/-- Clearing a bit keeps another one clear. -/
theorem setMark_clear_and_of_and {m a : UInt32} (p : UInt32) (hm : m &&& a = 0) :
    setMark 0 p m &&& a = 0 := by
  have hm' := congrArg UInt32.toBitVec hm
  apply UInt32.toBitVec_inj.mp
  simp only [setMark, UInt32.toBitVec_and, UInt32.toBitVec_or, UInt32.toBitVec_not,
    UInt32.toBitVec_zero, BitVec.or_zero] at *
  rw [BitVec.and_assoc, BitVec.and_comm (~~~_), ← BitVec.and_assoc, hm', BitVec.zero_and]

/-- `MARK --set-mark a/a` sets the bits of `a`. -/
theorem setMark_self_and (a m : UInt32) : setMark a a m &&& a = a := by
  simp only [setMark, or_and_self_right]

/-! ## Runs of rules -/

section Run

variable {env : Env Addr} {jump : String → Packet Addr → UInt32 → Outcome} {pkt : Packet Addr}

/-- Rules after others run when the others fall through, from the mark they leave. -/
theorem runRules_append (rs₁ rs₂ : List Rule) (mark : UInt32) (logged : Bool) :
    runRules env jump pkt (rs₁ ++ rs₂) mark logged =
      let o := runRules env jump pkt rs₁ mark logged
      if o.verdict = .fallThrough then runRules env jump pkt rs₂ o.mark o.logged else o := by
  induction rs₁ generalizing mark logged with
  | nil => rfl
  | cons r rs ih =>
    simp only [List.cons_append, runRules]
    split
    · cases r.action with
      | jumpAction target =>
        -- a chain that ends the run ends both runs; one that goes back goes on in both
        obtain hv | hv | hv | hv := (jump target pkt mark).verdict_cases <;> simp [hv, ih]
      | _ => simp [ih]
    · exact ih mark logged

theorem runRules_append_of_fallThrough {rs₁ : List Rule} (rs₂ : List Rule) {mark : UInt32}
    {logged : Bool} (h : (runRules env jump pkt rs₁ mark logged).verdict = .fallThrough) :
    runRules env jump pkt (rs₁ ++ rs₂) mark logged =
      runRules env jump pkt rs₂ (runRules env jump pkt rs₁ mark logged).mark
        (runRules env jump pkt rs₁ mark logged).logged := by
  rw [runRules_append]
  simp only [h, if_true]

theorem runRules_append_of_ne_fallThrough {rs₁ : List Rule} (rs₂ : List Rule) {mark : UInt32}
    {logged : Bool} (h : (runRules env jump pkt rs₁ mark logged).verdict ≠ .fallThrough) :
    runRules env jump pkt (rs₁ ++ rs₂) mark logged = runRules env jump pkt rs₁ mark logged := by
  rw [runRules_append]
  simp only [h, if_false]

/-- A rule whose criteria do not hold is passed over. -/
theorem runRules_cons_of_not_holds {r : Rule} (rs : List Rule) {mark : UInt32} (logged : Bool)
    (h : r.matchCriteria.all (·.holds env pkt mark) = false) :
    runRules env jump pkt (r :: rs) mark logged = runRules env jump pkt rs mark logged := by
  simp [runRules, h]

/-- `MARK --set-mark 0/m` on every packet. -/
theorem runRules_clearMark (m : UInt32) (rs : List Rule) (mark : UInt32) (logged : Bool) :
    runRules env jump pkt (⟨[], .clearMarkAction m⟩ :: rs) mark logged =
      runRules env jump pkt rs (setMark 0 m mark) logged := rfl

/-- A jump to a chain that goes back with a mark goes on from that mark. -/
theorem runRules_jump_of_continues {crit : MatchCriteria} {target : String} (rs : List Rule)
    {mark mark' : UInt32} (logged : Bool) (h : crit.all (·.holds env pkt mark) = true)
    (hc : (jump target pkt mark).Continues mark') :
    runRules env jump pkt (⟨crit, .jumpAction target⟩ :: rs) mark logged =
      runRules env jump pkt rs mark' (logged || (jump target pkt mark).logged) := by
  obtain ⟨hv | hv, hm⟩ := hc <;> simp [runRules, h, hv, hm]

/-- A jump to a chain that ends with a verdict ends with it. -/
theorem runRules_jump_verdict {crit : MatchCriteria} {target : String} (rs : List Rule)
    {mark : UInt32} (logged : Bool) (h : crit.all (·.holds env pkt mark) = true)
    (hv : (jump target pkt mark).verdict ≠ .returned ∧ (jump target pkt mark).verdict ≠ .fallThrough) :
    (runRules env jump pkt (⟨crit, .jumpAction target⟩ :: rs) mark logged).verdict =
        (jump target pkt mark).verdict ∧
      (runRules env jump pkt (⟨crit, .jumpAction target⟩ :: rs) mark logged).mark =
        (jump target pkt mark).mark := by
  obtain ⟨h₁, h₂⟩ := hv
  obtain hv | hv | hv | hv := (jump target pkt mark).verdict_cases <;> simp_all [runRules]

end Run

end Felix.Iptables
