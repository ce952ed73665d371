import Felix.Rules.Endpoints
import Felix.Rules.PolicySpec

/-!
# Endpoint chains decide by policies, then profiles

What a normal endpoint chain should do with a packet is the reference evaluation: the
policies in order, the first that decides allowing or denying it or passing it to the
profiles, and a packet no policy decides dropped; then the profiles in order, the first that
allows or denies deciding, and a packet none decides dropped. The policy and profile chains
are taken as they act: each allows, denies, passes or does not match the packet, and says so
with the accept and pass bits.

Before the reference come the chain's other rules. An admin-down endpoint drops everything.
The packets of established connections get the allow action; only when that action is
`RETURN` do they also get the accept bit, and with the default `ACCEPT` they are accepted at
once (`established_accepted_without_accept_bit`). `INVALID` packets are dropped unless that
check is disabled; the failsafe chain of a host endpoint may accept the packet; and packets
encapsulated in VXLAN or IP-in-IP are dropped where the chain does not allow them
(`normalEndpointChain_policy_then_profile`).

## Main definitions

* `ChainVerdict`, `profilesAllow`, `firstDecision`, `referenceAllows`
* `ChainVerdict.ActsOn`: what a policy or profile chain does to the mark
* `ChainResult`, `normalChainSpec`
-/

namespace Felix.Rules

open Iptables

/-! ## The reference -/

/-- What the first rule of a policy or profile chain that matches a packet says, or that no
rule matches. -/
inductive ChainVerdict where
  | allow
  | deny
  | pass
  | noMatch
  deriving DecidableEq

/-- The profiles in order: the first that allows or denies decides, and a packet no profile
decides is dropped. -/
def profilesAllow : List ChainVerdict → Bool
  | [] => false
  | .allow :: _ => true
  | .deny :: _ => false
  | _ :: vs => profilesAllow vs
attribute [grind] profilesAllow

/-- The first verdict that is not `noMatch`. -/
def firstDecision : List ChainVerdict → ChainVerdict
  | [] => .noMatch
  | .noMatch :: vs => firstDecision vs
  | v :: _ => v
attribute [grind] firstDecision

/-- With policies, the first that decides allows, denies or passes to the profiles, and a
packet no policy decides is dropped; without policies the profiles decide. -/
def referenceAllows (policies profiles : List ChainVerdict) : Bool :=
  if policies.isEmpty then profilesAllow profiles
  else
    match firstDecision policies with
    | .allow => true
    | .pass => profilesAllow profiles
    | .deny | .noMatch => false

example : referenceAllows [.noMatch, .pass] [.pass, .allow] = true := by decide

/-- A profile cannot allow what no policy passed. -/
example : referenceAllows [.noMatch] [.allow] = false := by decide

/-! ## Chains as they act -/

/-- The accept and pass bits are set, and apart. -/
structure DefaultRuleRenderer.ValidMarks (r : DefaultRuleRenderer) : Prop where
  accept_ne_zero : r.iptablesMarkAccept ≠ 0
  pass_ne_zero : r.iptablesMarkPass ≠ 0
  pass_and_accept : r.iptablesMarkPass &&& r.iptablesMarkAccept = 0

/-- What a policy or profile chain jumped to with `mark` does: it returns with the accept bit
set for allow, or the pass bit for pass, drops for deny, and otherwise returns with the mark
unchanged. -/
def ChainVerdict.ActsOn (r : DefaultRuleRenderer) (mark : UInt32) : ChainVerdict → Outcome → Prop
  | .allow, o => o.Continues (mark ||| r.iptablesMarkAccept)
  | .deny, o => o.verdict = .dropped
  | .pass, o => o.Continues (mark ||| r.iptablesMarkPass)
  | .noMatch, o => o.Continues mark
attribute [grind] ChainVerdict.ActsOn

/-- How the rules for a policy or a profile end: returned with the accept bit for allow,
dropped for deny, and going on with the pass bit for pass or with the mark unchanged. -/
def ChainVerdict.Ends (r : DefaultRuleRenderer) (mark : UInt32) : ChainVerdict → Outcome → Prop
  | .allow, o => o.verdict = .returned ∧ o.mark = mark ||| r.iptablesMarkAccept
  | .deny, o => o.verdict = .dropped
  | .pass, o => o.verdict = .fallThrough ∧ o.mark = mark ||| r.iptablesMarkPass
  | .noMatch, o => o.verdict = .fallThrough ∧ o.mark = mark
attribute [grind] ChainVerdict.Ends

/-- What the failsafe chain does: it accepts the packet, or lets it through, with its mark. -/
def FailsafeActs (accepts : Bool) (mark : UInt32) (o : Outcome) : Prop :=
  if accepts then o.verdict = .accepted ∧ o.mark = mark else o.Continues mark

/-! ## What a normal endpoint chain should do -/

/-- How a normal endpoint chain ends, as the chain that jumped to it sees it. -/
inductive ChainResult where
  | dropped
  /-- accepted, with the mark it came with -/
  | acceptedAsIs
  /-- returned, with the accept bit set -/
  | returnedAccepted
  deriving DecidableEq

/-- An outcome is the result. -/
def ChainResult.Describes (r : DefaultRuleRenderer) (mark : UInt32) : ChainResult → Outcome → Prop
  | .dropped, o => o.verdict = .dropped
  | .acceptedAsIs, o => o.verdict = .accepted ∧ o.mark = mark
  | .returnedAccepted, o =>
    o.verdict = .returned ∧ o.mark &&& r.iptablesMarkAccept = r.iptablesMarkAccept
attribute [grind] ChainResult.Describes

variable {Addr : Type}

/-- The packet is of an established connection. -/
def established (pkt : Packet Addr) : Bool :=
  pkt.ctState == "RELATED" || pkt.ctState == "ESTABLISHED"

/-- The packet is VXLAN or IP-in-IP that the chain does not allow. -/
def DefaultRuleRenderer.dropsEncap (r : DefaultRuleRenderer) (pkt : Packet Addr)
    (allowVXLANEncap allowIPIPEncap : Bool) : Bool :=
  (!allowVXLANEncap && pkt.protocol == protoUDP && pkt.dstPort == r.vxlanPort % 65536) ||
    (!allowIPIPEncap && pkt.protocol == protoIPIP)

/-- What a normal endpoint chain should do with a packet: drop everything for an admin-down
endpoint; apply the allow action to an established connection's packet, with the accept bit
when that action returns; drop an `INVALID` packet unless that check is disabled; accept what
the failsafe chain accepts; drop encapsulated packets it does not allow; and decide the rest
by the reference. -/
def normalChainSpec (r : DefaultRuleRenderer) (pkt : Packet Addr)
    (adminUp failsafeAccepts allowVXLANEncap allowIPIPEncap : Bool)
    (policies profiles : List ChainVerdict) : ChainResult :=
  if !adminUp then .dropped
  else if established pkt then
    if r.filterAllowAction = Action.acceptAction then .acceptedAsIs else .returnedAccepted
  else if pkt.ctState == "INVALID" && !r.disableConntrackInvalid then .dropped
  else if failsafeAccepts then .acceptedAsIs
  else if r.dropsEncap pkt allowVXLANEncap allowIPIPEncap then .dropped
  else if referenceAllows policies profiles then .returnedAccepted
  else .dropped

/-! ## The chain in segments -/

/-- The jump to the failsafe chain, if there is one. -/
def failsafeRules (failsafeChain : String) : List Rule :=
  if failsafeChain ≠ "" then [⟨[], .jumpAction failsafeChain⟩] else []
attribute [grind] failsafeRules

namespace DefaultRuleRenderer

variable (hash : String → String) (r : DefaultRuleRenderer)

/-- The drops of encapsulated packets. -/
def encapRules (allowVXLANEncap allowIPIPEncap : Bool) : List Rule :=
  (if !allowVXLANEncap then
    [⟨[.protocolNum protoUDP, .destPorts [r.vxlanPort.toUInt16]], .dropAction⟩]
  else []) ++
    (if !allowIPIPEncap then [⟨[.protocolNum protoIPIP], .dropAction⟩] else [])
attribute [grind] encapRules

/-- The policies of a normal chain. -/
def normalPolicyRules (policyPrefix : String) (policyNames : List String) : List Rule :=
  if policyNames ≠ [] then
    [⟨[], .clearMarkAction r.iptablesMarkPass⟩] ++
      policyNames.flatMap (r.policyJumpRules hash policyPrefix .chainTypeNormal) ++
      [⟨[.markClear r.iptablesMarkPass], .dropAction⟩]
  else []
attribute [grind] normalPolicyRules

/-- The profiles of a normal chain. -/
def normalProfileRules (profilePrefix : String) (profileIds : List String) : List Rule :=
  profileIds.flatMap (r.profileJumpRules hash profilePrefix) ++ [⟨[], .dropAction⟩]
attribute [grind] normalProfileRules

theorem ite_append_nil {α : Type} (c : Prop) [Decidable c] (l x : List α) :
    (if c then l ++ x else l) = l ++ if c then x else [] := by
  split <;> simp

/-- A normal chain of an admin-up endpoint, segment by segment. -/
theorem endpointIptablesChain_normal_rules (policyNames profileIds : List String)
    (name policyPrefix profilePrefix endpointPrefix failsafeChain : String) (allowAction : Action)
    (allowVXLANEncap allowIPIPEncap : Bool) :
    (r.endpointIptablesChain hash policyNames profileIds name policyPrefix profilePrefix
        endpointPrefix failsafeChain .chainTypeNormal true allowAction allowVXLANEncap
        allowIPIPEncap).rules =
      r.appendConntrackRules [] allowAction ++ (failsafeRules failsafeChain ++
        ([⟨[], .clearMarkAction r.iptablesMarkAccept⟩] ++ (r.encapRules allowVXLANEncap allowIPIPEncap ++
          (r.normalPolicyRules hash policyPrefix policyNames ++
            r.normalProfileRules hash profilePrefix profileIds)))) := by
  simp only [endpointIptablesChain, failsafeRules, encapRules, normalPolicyRules,
    normalProfileRules, ite_append_nil]
  by_cases h : policyNames = [] <;> simp [h]

end DefaultRuleRenderer

/-! ## Each segment -/

section Segments

open DefaultRuleRenderer

variable (env : Env Addr) {jump : String → Packet Addr → UInt32 → Outcome} {pkt : Packet Addr}
  (hash : String → String) {r : DefaultRuleRenderer}

theorem conntrackState_established_holds (mark : UInt32) :
    (Criterion.conntrackState "RELATED,ESTABLISHED").holds env pkt mark = established pkt := by
  have hsplit : "RELATED,ESTABLISHED".toList.splitOn ',' =
      ["RELATED".toList, "ESTABLISHED".toList] := by decide
  simp only [Criterion.holds]
  rw [hsplit]
  simp only [List.mem_cons, List.not_mem_nil, or_false, String.toList_inj, established,
    Bool.decide_or, beq_eq_decide]

theorem conntrackState_invalid_holds (mark : UInt32) :
    (Criterion.conntrackState "INVALID").holds env pkt mark = (pkt.ctState == "INVALID") := by
  have hsplit : "INVALID".toList.splitOn ',' = ["INVALID".toList] := by decide
  simp only [Criterion.holds]
  rw [hsplit]
  simp only [List.mem_cons, List.not_mem_nil, or_false, String.toList_inj, beq_eq_decide]

/-- The conntrack rules, with the filter table's allow action: the packets of established
connections are accepted, or marked accepted and returned; `INVALID` ones are dropped unless
that check is disabled. -/
theorem runConntrackRules (mark : UInt32) (logged : Bool) :
    runRules env jump pkt (r.appendConntrackRules [] r.filterAllowAction) mark logged =
      if established pkt then
        if r.filterAllowAction = Action.acceptAction then ⟨.accepted, mark, logged⟩
        else ⟨.returned, setMark r.iptablesMarkAccept r.iptablesMarkAccept mark, logged⟩
      else if pkt.ctState == "INVALID" && !r.disableConntrackInvalid then ⟨.dropped, mark, logged⟩
      else ⟨.fallThrough, mark, logged⟩ := by
  unfold filterAllowAction
  -- the allow action, whether the packet is established, and whether `INVALID` is checked
  by_cases hRet : r.iptablesFilterAllowAction = "RETURN" <;>
    cases hEst : established pkt <;> cases hDis : r.disableConntrackInvalid <;>
    simp [hRet, hEst, hDis, appendConntrackRules, runRules, conntrackState_established_holds,
      conntrackState_invalid_holds]

/-- The failsafe jump accepts what the failsafe chain accepts, and lets the rest through. -/
theorem runFailsafeRules {failsafeChain : String} {accepts : Bool}
    (hFailsafe : failsafeChain ≠ "" → ∀ m, FailsafeActs accepts m (jump failsafeChain pkt m))
    (mark : UInt32) (logged : Bool) :
    if (failsafeChain != "" && accepts) = true then
      (runRules env jump pkt (failsafeRules failsafeChain) mark logged).verdict = .accepted ∧
        (runRules env jump pkt (failsafeRules failsafeChain) mark logged).mark = mark
    else
      (runRules env jump pkt (failsafeRules failsafeChain) mark logged).verdict = .fallThrough ∧
        (runRules env jump pkt (failsafeRules failsafeChain) mark logged).mark = mark := by
  by_cases hNone : failsafeChain = ""
  · simp [hNone, failsafeRules, runRules]
  have hRules : failsafeRules failsafeChain = [⟨[], .jumpAction failsafeChain⟩] := by
    simp [failsafeRules, hNone]
  have hActs := hFailsafe hNone mark
  have hAll : ([] : MatchCriteria).all (·.holds env pkt mark) = true := rfl
  rw [hRules]
  cases accepts with
  | false =>
    simp only [FailsafeActs, Bool.false_eq_true, if_false] at hActs
    rw [runRules_jump_of_continues [] logged hAll hActs]
    simp [runRules]
  | true =>
    simp only [FailsafeActs, if_true] at hActs
    have hv : (jump failsafeChain pkt mark).verdict ≠ .returned ∧
        (jump failsafeChain pkt mark).verdict ≠ .fallThrough := by simp [hActs.1]
    simp [hNone, runRules_jump_verdict [] logged hAll hv, hActs]

/-- The drops of encapsulated packets drop what the chain does not allow. -/
theorem runEncapRules (allowVXLANEncap allowIPIPEncap : Bool) (mark : UInt32) (logged : Bool) :
    runRules env jump pkt (r.encapRules allowVXLANEncap allowIPIPEncap) mark logged =
      if r.dropsEncap pkt allowVXLANEncap allowIPIPEncap then ⟨.dropped, mark, logged⟩
      else ⟨.fallThrough, mark, logged⟩ := by
  cases allowVXLANEncap <;> cases allowIPIPEncap <;>
    simp [encapRules, dropsEncap, runRules, Criterion.holds, @eq_comm ℕ (r.vxlanPort % 65536), ite_or]

/-! ## The policies and the profiles -/

/-- A jump to a policy or profile chain, then a return if it accepted, ends as the chain
acted. -/
theorem runJumpThenReturn (hMarks : r.ValidMarks) {crit : MatchCriteria} {target : String}
    {v : ChainVerdict} {mark : UInt32} (hv : v.ActsOn r mark (jump target pkt mark))
    (hCrit : crit.all (·.holds env pkt mark) = true) (hA : mark &&& r.iptablesMarkAccept = 0)
    (logged : Bool) :
    v.Ends r mark (runRules env jump pkt
      [⟨crit, .jumpAction target⟩, ⟨[.markSingleBitSet r.iptablesMarkAccept], .returnAction⟩]
      mark logged) := by
  have hClear : (mark &&& r.iptablesMarkAccept == r.iptablesMarkAccept) = false := by
    simp [hA, Ne.symm hMarks.accept_ne_zero]
  cases v with
  | allow =>
    rw [runRules_jump_of_continues _ logged hCrit hv]
    simp [ChainVerdict.Ends, runRules, Criterion.holds, or_and_self_right]
  | deny =>
    have hd : (jump target pkt mark).verdict ≠ .returned ∧
        (jump target pkt mark).verdict ≠ .fallThrough := by
      simp only [ChainVerdict.ActsOn] at hv
      simp [hv]
    exact (runRules_jump_verdict _ logged hCrit hd).1.trans hv
  | pass =>
    rw [runRules_jump_of_continues _ logged hCrit hv]
    -- the pass bit leaves the accept bit clear
    have hPA : (mark ||| r.iptablesMarkPass) &&& r.iptablesMarkAccept = 0 :=
      or_and_eq_zero hA hMarks.pass_and_accept
    simp [ChainVerdict.Ends, runRules, Criterion.holds, hPA, Ne.symm hMarks.accept_ne_zero]
  | noMatch =>
    rw [runRules_jump_of_continues _ logged hCrit hv]
    simp [ChainVerdict.Ends, runRules, Criterion.holds, hClear]

/-- One policy, from a mark with neither bit set. -/
theorem runPolicyJump (hMarks : r.ValidMarks) {policyPrefix polID : String} {v : ChainVerdict}
    (hv : ∀ m, v.ActsOn r m (jump (policyChainName hash policyPrefix polID) pkt m))
    {mark : UInt32} (hA : mark &&& r.iptablesMarkAccept = 0)
    (hP : mark &&& r.iptablesMarkPass = 0) (logged : Bool) :
    v.Ends r mark
      (runRules env jump pkt (r.policyJumpRules hash policyPrefix .chainTypeNormal polID) mark
        logged) := by
  have hCrit : [Criterion.markClear r.iptablesMarkPass].all (·.holds env pkt mark) = true := by
    simp [Criterion.holds, hP]
  simpa [policyJumpRules] using runJumpThenReturn env hMarks (hv mark) hCrit hA logged

/-- One profile, from a mark with the accept bit clear. -/
theorem runProfileJump (hMarks : r.ValidMarks) {profilePrefix profileID : String}
    {v : ChainVerdict}
    (hv : ∀ m, v.ActsOn r m (jump (profileChainName hash profilePrefix profileID) pkt m))
    {mark : UInt32} (hA : mark &&& r.iptablesMarkAccept = 0) (logged : Bool) :
    v.Ends r mark
      (runRules env jump pkt (r.profileJumpRules hash profilePrefix profileID) mark logged) :=
  runJumpThenReturn env hMarks (hv mark) rfl hA logged

/-- Once a policy has passed the packet, the jumps to the policies after it are passed over. -/
theorem runPolicyJumps_of_passed (hMarks : r.ValidMarks) {policyPrefix : String}
    (policyNames : List String) {mark : UInt32} (hA : mark &&& r.iptablesMarkAccept = 0)
    (hP : mark &&& r.iptablesMarkPass = r.iptablesMarkPass) (logged : Bool) :
    runRules env jump pkt (policyNames.flatMap (r.policyJumpRules hash policyPrefix .chainTypeNormal))
      mark logged = ⟨.fallThrough, mark, logged⟩ := by
  induction policyNames with
  | nil => rfl
  | cons p ps ih =>
    simp [policyJumpRules, runRules, Criterion.holds, hA, hP, hMarks.pass_ne_zero,
      Ne.symm hMarks.accept_ne_zero, ih]

/-- The jumps to the policies, from a mark with neither bit set, end as the first policy
that decides. -/
theorem runPolicyJumps (hMarks : r.ValidMarks) {policyPrefix : String}
    {polVerdict : String → ChainVerdict} {policyNames : List String}
    (hPol : ∀ p ∈ policyNames, ∀ m,
      (polVerdict p).ActsOn r m (jump (policyChainName hash policyPrefix p) pkt m))
    {mark : UInt32} (hA : mark &&& r.iptablesMarkAccept = 0)
    (hP : mark &&& r.iptablesMarkPass = 0) (logged : Bool) :
    (firstDecision (policyNames.map polVerdict)).Ends r mark
      (runRules env jump pkt (policyNames.flatMap (r.policyJumpRules hash policyPrefix .chainTypeNormal))
        mark logged) := by
  induction policyNames generalizing logged with
  | nil => simp [firstDecision, ChainVerdict.Ends, runRules]
  | cons p ps ih =>
    have hOne := runPolicyJump env hash hMarks (hPol p (by simp)) hA hP logged
    have hRest := ih (fun q hq => hPol q (by simp [hq]))
    rw [List.flatMap_cons, List.map_cons]
    -- the first policy decides, unless it does not match the packet
    cases hv : polVerdict p with
    | allow =>
      rw [hv] at hOne
      rw [runRules_append_of_ne_fallThrough _ (by rw [hOne.1]; decide)]
      simpa [firstDecision] using hOne
    | deny =>
      rw [hv] at hOne
      rw [runRules_append_of_ne_fallThrough _ (by rw [hOne]; decide)]
      simpa [firstDecision] using hOne
    | pass =>
      rw [hv] at hOne
      rw [runRules_append_of_fallThrough _ hOne.1, hOne.2,
        runPolicyJumps_of_passed env hash hMarks ps (or_and_eq_zero hA hMarks.pass_and_accept)
          (or_and_self_right _ _)]
      simp [firstDecision, ChainVerdict.Ends]
    | noMatch =>
      rw [hv] at hOne
      rw [runRules_append_of_fallThrough _ hOne.1, hOne.2]
      simpa [firstDecision] using hRest _

/-- The profiles of a normal chain, from a mark with the accept bit clear, return with the
accept bit when the first that decides allows, and drop otherwise. -/
theorem runNormalProfileRules (hMarks : r.ValidMarks) {profilePrefix : String}
    {profVerdict : String → ChainVerdict} {profileIds : List String}
    (hProf : ∀ q ∈ profileIds, ∀ m,
      (profVerdict q).ActsOn r m (jump (profileChainName hash profilePrefix q) pkt m))
    {mark : UInt32} (hA : mark &&& r.iptablesMarkAccept = 0) (mark₀ : UInt32) (logged : Bool) :
    (if profilesAllow (profileIds.map profVerdict) then ChainResult.returnedAccepted
      else .dropped).Describes r mark₀
      (runRules env jump pkt (r.normalProfileRules hash profilePrefix profileIds) mark logged) := by
  induction profileIds generalizing mark logged with
  | nil => simp [normalProfileRules, profilesAllow, ChainResult.Describes, runRules]
  | cons q qs ih =>
    have hOne := runProfileJump env hash hMarks (hProf q (by simp)) hA logged
    have hRest := @ih fun q' hq => hProf q' (by simp [hq])
    have hRules : r.normalProfileRules hash profilePrefix (q :: qs) =
        r.profileJumpRules hash profilePrefix q ++ r.normalProfileRules hash profilePrefix qs := by
      simp [normalProfileRules]
    rw [hRules, List.map_cons]
    cases hv : profVerdict q with
    | allow =>
      rw [hv] at hOne
      simp only [ChainVerdict.Ends] at hOne
      rw [runRules_append_of_ne_fallThrough _ (by rw [hOne.1]; decide)]
      simp [profilesAllow, ChainResult.Describes, hOne, or_and_self_right]
    | deny =>
      rw [hv] at hOne
      simp only [ChainVerdict.Ends] at hOne
      rw [runRules_append_of_ne_fallThrough _ (by rw [hOne]; decide)]
      simp [profilesAllow, ChainResult.Describes, hOne]
    | pass =>
      -- a pass in a profile goes on to the next profile
      rw [hv] at hOne
      rw [runRules_append_of_fallThrough _ hOne.1, hOne.2]
      exact hRest (or_and_eq_zero hA hMarks.pass_and_accept) _
    | noMatch =>
      rw [hv] at hOne
      rw [runRules_append_of_fallThrough _ hOne.1, hOne.2]
      exact hRest hA _

/-- The policies and then the profiles of a normal chain, from a mark with the accept bit
clear, return with the accept bit when the reference allows the packet, and drop it
otherwise. -/
theorem runNormalPolicyAndProfileRules (hMarks : r.ValidMarks)
    {policyPrefix profilePrefix : String} {polVerdict profVerdict : String → ChainVerdict}
    {policyNames profileIds : List String}
    (hPol : ∀ p ∈ policyNames, ∀ m,
      (polVerdict p).ActsOn r m (jump (policyChainName hash policyPrefix p) pkt m))
    (hProf : ∀ q ∈ profileIds, ∀ m,
      (profVerdict q).ActsOn r m (jump (profileChainName hash profilePrefix q) pkt m))
    {mark : UInt32} (hA : mark &&& r.iptablesMarkAccept = 0) (mark₀ : UInt32) (logged : Bool) :
    (if referenceAllows (policyNames.map polVerdict) (profileIds.map profVerdict) then
        ChainResult.returnedAccepted
      else .dropped).Describes r mark₀
      (runRules env jump pkt (r.normalPolicyRules hash policyPrefix policyNames ++
        r.normalProfileRules hash profilePrefix profileIds) mark logged) := by
  by_cases hNil : policyNames = []
  · -- without policies the profiles decide
    subst hNil
    simpa [normalPolicyRules, referenceAllows] using
      runNormalProfileRules env hash hMarks hProf hA mark₀ logged
  have hRules : r.normalPolicyRules hash policyPrefix policyNames =
      ⟨[], .clearMarkAction r.iptablesMarkPass⟩ ::
        (policyNames.flatMap (r.policyJumpRules hash policyPrefix .chainTypeNormal) ++
          [⟨[.markClear r.iptablesMarkPass], .dropAction⟩]) := by
    simp [normalPolicyRules, hNil]
  -- the pass bit is cleared before the first policy
  have hA₁ := setMark_clear_and_of_and r.iptablesMarkPass hA
  have hP₁ := setMark_clear_and r.iptablesMarkPass mark
  have hLoop := runPolicyJumps env hash hMarks hPol hA₁ hP₁ logged
  have hRef : referenceAllows (policyNames.map polVerdict) (profileIds.map profVerdict) =
      match firstDecision (policyNames.map polVerdict) with
      | .allow => true
      | .pass => profilesAllow (profileIds.map profVerdict)
      | .deny | .noMatch => false := by
    simp [referenceAllows, hNil]
  rw [hRules, List.cons_append, runRules_clearMark, List.append_assoc, hRef]
  cases hd : firstDecision (policyNames.map polVerdict) with
  | allow =>
    rw [hd] at hLoop
    simp only [ChainVerdict.Ends] at hLoop
    rw [runRules_append_of_ne_fallThrough _ (by rw [hLoop.1]; decide)]
    simp [ChainResult.Describes, hLoop, or_and_self_right]
  | deny =>
    rw [hd] at hLoop
    simp only [ChainVerdict.Ends] at hLoop
    rw [runRules_append_of_ne_fallThrough _ (by rw [hLoop]; decide)]
    simp [ChainResult.Describes, hLoop]
  | pass =>
    -- a pass skips the drop and goes on to the profiles
    rw [hd] at hLoop
    have hPass : (setMark 0 r.iptablesMarkPass mark ||| r.iptablesMarkPass) &&&
        r.iptablesMarkPass = r.iptablesMarkPass := or_and_self_right _ _
    rw [runRules_append_of_fallThrough _ hLoop.1, hLoop.2, List.singleton_append,
      runRules_cons_of_not_holds _ _ (by simp [Criterion.holds, hPass, hMarks.pass_ne_zero])]
    exact runNormalProfileRules env hash hMarks hProf (or_and_eq_zero hA₁ hMarks.pass_and_accept)
      mark₀ _
  | noMatch =>
    -- no policy passed the packet: it is dropped
    rw [hd] at hLoop
    rw [runRules_append_of_fallThrough _ hLoop.1, hLoop.2]
    simp [ChainResult.Describes, runRules, Criterion.holds, hP₁]

/-! ## The endpoint chain -/

/-- A normal endpoint chain, rendered with the filter table's allow action, does with every
packet and mark what `normalChainSpec` says, when its policy and profile chains act as their
verdicts and its failsafe chain accepts or lets the packet through. -/
theorem normalEndpointChain_policy_then_profile (hMarks : r.ValidMarks)
    {policyNames profileIds : List String} {policyPrefix profilePrefix failsafeChain : String}
    {polVerdict profVerdict : String → ChainVerdict} {failsafeAccepts : Bool}
    (hPol : ∀ p ∈ policyNames, ∀ m,
      (polVerdict p).ActsOn r m (jump (policyChainName hash policyPrefix p) pkt m))
    (hProf : ∀ q ∈ profileIds, ∀ m,
      (profVerdict q).ActsOn r m (jump (profileChainName hash profilePrefix q) pkt m))
    (hFailsafe : failsafeChain ≠ "" → ∀ m, FailsafeActs failsafeAccepts m (jump failsafeChain pkt m))
    (name endpointPrefix : String) (adminUp allowVXLANEncap allowIPIPEncap : Bool)
    (mark : UInt32) (logged : Bool) :
    (normalChainSpec r pkt adminUp (failsafeChain != "" && failsafeAccepts) allowVXLANEncap
        allowIPIPEncap (policyNames.map polVerdict) (profileIds.map profVerdict)).Describes r mark
      (runRules env jump pkt
        (r.endpointIptablesChain hash policyNames profileIds name policyPrefix profilePrefix
          endpointPrefix failsafeChain .chainTypeNormal adminUp r.filterAllowAction
          allowVXLANEncap allowIPIPEncap).rules mark logged) := by
  cases adminUp
  case false =>
    -- an admin-down endpoint's chain is one drop
    simp [normalChainSpec, endpointIptablesChain, ChainResult.Describes, runRules]
  rw [endpointIptablesChain_normal_rules, runRules_append, runConntrackRules]
  -- the conntrack rules decide the packets of established connections and invalid ones
  by_cases hEst : established pkt = true
  · by_cases hAccept : r.filterAllowAction = Action.acceptAction <;>
      simp [normalChainSpec, hEst, hAccept, ChainResult.Describes, setMark_self_and]
  by_cases hInv : (pkt.ctState == "INVALID" && !r.disableConntrackInvalid) = true
  · simp [normalChainSpec, hEst, hInv, ChainResult.Describes]
  simp only [hEst, hInv, Bool.false_eq_true, if_false, if_true]
  -- the failsafe chain accepts some packets of a host endpoint
  have hFs := runFailsafeRules env hFailsafe mark logged
  by_cases hAccepts : (failsafeChain != "" && failsafeAccepts) = true
  · rw [if_pos hAccepts] at hFs
    rw [runRules_append_of_ne_fallThrough _ (by rw [hFs.1]; decide)]
    simp [normalChainSpec, hEst, hInv, hAccepts, ChainResult.Describes, hFs]
  rw [if_neg hAccepts] at hFs
  rw [runRules_append_of_fallThrough _ hFs.1, hFs.2, List.singleton_append, runRules_clearMark,
    runRules_append, runEncapRules]
  -- the encapsulated packets the chain does not allow are dropped
  by_cases hEncap : r.dropsEncap pkt allowVXLANEncap allowIPIPEncap = true
  · simp [normalChainSpec, hEst, hInv, hAccepts, hEncap, ChainResult.Describes]
  -- the rest is decided by the reference
  simpa [normalChainSpec, hEst, hInv, hAccepts, hEncap] using
    runNormalPolicyAndProfileRules env hash hMarks hPol hProf (setMark_clear_and _ mark) mark _

end Segments

/-- Chains of a workload's ingress: policy `p1` does not match, `p2` passes, and profile `q`
allows. -/
def demoJump : String → Packet String → UInt32 → Outcome
  | "cali-pi-p2", _, m => ⟨.returned, m ||| 0x100, false⟩
  | "cali-pri-q", _, m => ⟨.returned, m ||| 0x80, false⟩
  | _, _, m => ⟨.fallThrough, m, false⟩

/-- The verdicts `demoJump`'s chains act as. -/
def demoVerdict : String → ChainVerdict
  | "p2" => .pass
  | "q" => .allow
  | _ => .noMatch

theorem workloadIngress_passed_then_allowed :
    (normalChainSpec testRenderer strayPacket true ("" != "" && false) true true
        (["p1", "p2"].map demoVerdict) (["q"].map demoVerdict)).Describes testRenderer 0
      (runRules slash32Env demoJump strayPacket
        (testRenderer.endpointIptablesChain id ["p1", "p2"] ["q"] "cali1" policyInboundPfx
          profileInboundPfx workloadToEndpointPfx "" .chainTypeNormal true
          testRenderer.filterAllowAction true true).rules 0 false) :=
  normalEndpointChain_policy_then_profile slash32Env id ⟨by decide, by decide, by decide⟩
    (by
      have h₁ : policyChainName id policyInboundPfx "p1" = "cali-pi-p1" := by decide
      have h₂ : policyChainName id policyInboundPfx "p2" = "cali-pi-p2" := by decide
      intro p hp m
      simp only [List.mem_cons, List.not_mem_nil, or_false] at hp
      rcases hp with rfl | rfl <;>
        simp [h₁, h₂, demoJump, demoVerdict, ChainVerdict.ActsOn, Outcome.Continues, testRenderer])
    (by
      have h : profileChainName id profileInboundPfx "q" = "cali-pri-q" := by decide
      intro q hq m
      simp only [List.mem_cons, List.not_mem_nil, or_false] at hq
      subst hq
      simp [h, demoJump, demoVerdict, ChainVerdict.ActsOn, Outcome.Continues, testRenderer])
    (fun h => absurd rfl h) "cali1" workloadToEndpointPfx true true true 0 false

/-- A packet of an established connection. -/
def establishedPacket : Packet String := { strayPacket with ctState := "ESTABLISHED" }

/-- With the default allow action, `ACCEPT`, both chains of a workload accept the packets of
established connections at once, with the mark they came with: the accept bit is not set. -/
theorem established_accepted_without_accept_bit :
    testRenderer.filterAllowAction = Action.acceptAction ∧
      ∀ c ∈ testRenderer.workloadEndpointToIptablesChains id "cali1" true ["p1", "p2"] ["p1"] ["q"],
        runRules slash32Env demoJump establishedPacket c.rules 0 false = ⟨.accepted, 0, false⟩ := by
  decide

end Felix.Rules
