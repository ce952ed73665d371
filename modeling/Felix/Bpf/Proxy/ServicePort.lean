import Mathlib

/-!
# Comparing service ports

`ServicePortEqual` decides whether the BPF proxy may keep a service's NAT ID across a resync: two
`k8sp.ServicePort`s are equal when their accessors agree. It compares the cluster IP with
`net.IP.Equal`, the scalars with `==`, the `InternalTrafficPolicy` pointers with `==` (the
pointers, not what they point at), and the four string lists with `stringsEqual`.

`stringsEqual` checks the lengths, then either the one element or that every string of the second
list is in the first. That is weaker than equality as multisets, and not symmetric: `[x, y]`
matches `[x, x]`, but `[x, x]` does not match `[x, y]`. Both comparisons are instances of `Agree`,
one structure of the fifteen accessor comparisons with the pointer and list comparisons as
parameters: the code's (`servicePortEqual_iff`) and the one its doc comment describes
(`AccessorsAgree`, an equivalence). The code's relation is reflexive and transitive, holds for
ports equal up to the order of their lists, and is neither symmetric nor that of the doc comment
(`servicePortEqual_spec`, `servicePortEqual_not_symm`).

## Main definitions

* `ServicePort`: the values of the accessors of a `k8sp.ServicePort`
* `ipEqual`, `stringsEqual`, `servicePortEqual`, `applySvcID`
* `Agree`, `AccessorsAgree`

## Main results

* `ipEqual_iff`: `net.IP.Equal` identifies an IPv4 address with its IPv4-in-IPv6 form
* `stringsEqual_iff`: the same length, and the second list's strings among the first's
* `servicePortEqual_spec`, `servicePortEqual_not_symm`
* `applySvcID_of_agree`: a port that changes only in the order of its lists keeps its ID
-/

namespace Felix.Bpf.Proxy

/-- Go's `net.IP`: 4 bytes for the IPv4 form, 16 for the IPv6 form. -/
abbrev IP := List UInt8

/-- The first twelve bytes of an IPv4 address in IPv6 form. -/
def v4InV6Prefix : IP := [0, 0, 0, 0, 0, 0, 0, 0, 0, 0, 0xff, 0xff]

/-- `net.IP.Equal`: the same bytes, or one IPv4 address in its 4-byte and its 16-byte form. -/
def ipEqual (ip x : IP) : Bool :=
  if ip.length = x.length then ip == x
  else if ip.length = 4 ∧ x.length = 16 then x.take 12 == v4InV6Prefix && ip == x.drop 12
  else if ip.length = 16 ∧ x.length = 4 then ip.take 12 == v4InV6Prefix && ip.drop 12 == x
  else false

/-- What the accessors of a `k8sp.ServicePort` return, `String()` apart. `InternalTrafficPolicy`
returns a pointer, modelled as `none` for nil or the address it holds; Go's `==` on pointers
compares the addresses. -/
structure ServicePort where
  clusterIP : IP
  port : ℤ
  sessionAffinityType : String
  stickyMaxAgeSeconds : ℤ
  protocol : String
  healthCheckNodePort : ℤ
  nodePort : ℤ
  nodeLocalExternal : Bool
  nodeLocalInternal : Bool
  hintsAnnotation : String
  internalTrafficPolicy : Option ℕ
  externalIPStrings : List String
  loadBalancerIPStrings : List String
  loadBalancerSourceRanges : List String
  topologyKeys : List String

/-- `stringsEqual`: the same length, then the one element, or every string of `b` among those of
`a` (the source puts `a` in a map and looks up each string of `b`). -/
def stringsEqual (a b : List String) : Bool :=
  if a.length ≠ b.length then false
  else if a.length = 1 then a[0]? == b[0]?
  else b.all fun s => a.contains s

/-- `ServicePortEqual`. -/
def servicePortEqual (a b : ServicePort) : Bool :=
  ipEqual a.clusterIP b.clusterIP &&
    a.port == b.port &&
    a.sessionAffinityType == b.sessionAffinityType &&
    a.stickyMaxAgeSeconds == b.stickyMaxAgeSeconds &&
    a.protocol == b.protocol &&
    a.healthCheckNodePort == b.healthCheckNodePort &&
    a.nodePort == b.nodePort &&
    a.nodeLocalExternal == b.nodeLocalExternal &&
    a.nodeLocalInternal == b.nodeLocalInternal &&
    a.hintsAnnotation == b.hintsAnnotation &&
    a.internalTrafficPolicy == b.internalTrafficPolicy &&
    stringsEqual a.externalIPStrings b.externalIPStrings &&
    stringsEqual a.loadBalancerIPStrings b.loadBalancerIPStrings &&
    stringsEqual a.loadBalancerSourceRanges b.loadBalancerSourceRanges &&
    stringsEqual a.topologyKeys b.topologyKeys

/-! ## `net.IP.Equal` -/

section IP

variable {a b c : IP}

theorem length_v4InV6Prefix : v4InV6Prefix.length = 12 := rfl

/-- Two addresses are equal when their bytes are, or when one is the IPv4-in-IPv6 form of the
other. -/
theorem ipEqual_iff :
    ipEqual a b = true ↔
      a = b ∨ (a.length = 4 ∧ b = v4InV6Prefix ++ a) ∨
        (b.length = 4 ∧ a = v4InV6Prefix ++ b) := by
  unfold ipEqual
  split_ifs with hlen h4 h16
  · -- equal lengths: the mapped forms are 12 bytes longer, so only the bytes can agree
    simp only [beq_iff_eq]
    constructor
    · exact .inl
    · rintro (h | ⟨-, rfl⟩ | ⟨-, rfl⟩)
      · exact h
      · simp [length_v4InV6Prefix] at hlen
      · simp [length_v4InV6Prefix] at hlen
  · simp only [Bool.and_eq_true, beq_iff_eq]
    constructor
    · rintro ⟨hpre, rfl⟩
      exact .inr (.inl ⟨h4.1, by rw [← hpre, List.take_append_drop]⟩)
    · rintro (rfl | ⟨-, rfl⟩ | ⟨h, -⟩)
      · exact absurd rfl hlen
      · simp [v4InV6Prefix]
      · omega
  · simp only [Bool.and_eq_true, beq_iff_eq]
    constructor
    · rintro ⟨hpre, rfl⟩
      exact .inr (.inr ⟨h16.2, by rw [← hpre, List.take_append_drop]⟩)
    · rintro (rfl | ⟨h, -⟩ | ⟨-, rfl⟩)
      · exact absurd rfl hlen
      · omega
      · simp [v4InV6Prefix]
  · simp only [false_iff]
    rintro (rfl | ⟨h, rfl⟩ | ⟨h, rfl⟩)
    · exact hlen rfl
    · simp [length_v4InV6Prefix, h] at h4
    · simp [length_v4InV6Prefix, h] at h16

theorem ipEqual_refl (a : IP) : ipEqual a a = true := ipEqual_iff.mpr (.inl rfl)

theorem ipEqual_trans (h₁ : ipEqual a b = true) (h₂ : ipEqual b c = true) :
    ipEqual a c = true := by
  rw [ipEqual_iff] at h₁ h₂ ⊢
  rcases h₁ with rfl | ⟨ha, rfl⟩ | ⟨hb, rfl⟩
  · exact h₂
  · -- `b` is the mapped form of `a`, so `c` is `a` again or `b`
    rcases h₂ with rfl | ⟨hb, -⟩ | ⟨hc, hbc⟩
    · exact .inr (.inl ⟨ha, rfl⟩)
    · simp only [List.length_append, length_v4InV6Prefix] at hb
      omega
    · exact .inl (List.append_cancel_left hbc)
  · rcases h₂ with rfl | ⟨-, rfl⟩ | ⟨hc, rfl⟩
    · exact .inr (.inr ⟨hb, rfl⟩)
    · exact .inl rfl
    · simp only [List.length_append, length_v4InV6Prefix] at hb
      omega

theorem ipEqual_symm (h : ipEqual a b = true) : ipEqual b a = true := by
  rw [ipEqual_iff] at h ⊢
  rcases h with rfl | h | h
  · exact .inl rfl
  · exact .inr (.inr h)
  · exact .inr (.inl h)

end IP

/-! ## `stringsEqual` -/

/-- What `stringsEqual a b` checks: as many strings in both, and each string of `b` among those
of `a`. -/
def SameLengthSubset (a b : List String) : Prop := a.length = b.length ∧ b ⊆ a

section Strings

variable {a b c : List String}

/-- Past its length check `stringsEqual` asks only that the strings of `b` be among those of `a`:
for one string each, that is the comparison of the two strings the source makes. -/
theorem stringsEqual_iff : stringsEqual a b = true ↔ SameLengthSubset a b := by
  unfold stringsEqual SameLengthSubset
  split_ifs with hlen h1
  · simp [hlen]
  · -- one string each
    obtain ⟨x, rfl⟩ := List.length_eq_one_iff.mp h1
    obtain ⟨y, rfl⟩ := List.length_eq_one_iff.mp (by omega : b.length = 1)
    simp only [List.getElem?_cons_zero, beq_iff_eq, Option.some.injEq, List.length_singleton,
      List.cons_subset, List.mem_singleton, List.nil_subset, true_and, and_true]
    exact eq_comm
  · simp only [List.all_eq_true, List.contains_iff_mem]
    exact ⟨fun h => ⟨by omega, h⟩, fun h => h.2⟩

theorem SameLengthSubset.refl (a : List String) : SameLengthSubset a a :=
  ⟨rfl, List.Subset.refl a⟩

theorem SameLengthSubset.trans (h₁ : SameLengthSubset a b) (h₂ : SameLengthSubset b c) :
    SameLengthSubset a c :=
  ⟨h₁.1.trans h₂.1, List.Subset.trans h₂.2 h₁.2⟩

/-- Lists equal up to order pass `stringsEqual`. -/
theorem sameLengthSubset_of_perm (h : a.Perm b) : SameLengthSubset a b :=
  ⟨h.length_eq, fun _ hs => h.mem_iff.mpr hs⟩

end Strings

/-! ## `ServicePortEqual` -/

/-- Two ports agree, the `InternalTrafficPolicy` pointers compared by `ptr` and the string lists
by `strs`: the cluster IPs are the same address for `net.IP.Equal`, and the other scalars are
equal. -/
@[mk_iff]
structure Agree (ptr : Option ℕ → Option ℕ → Prop) (strs : List String → List String → Prop)
    (a b : ServicePort) : Prop where
  clusterIP : ipEqual a.clusterIP b.clusterIP = true
  port : a.port = b.port
  sessionAffinityType : a.sessionAffinityType = b.sessionAffinityType
  stickyMaxAgeSeconds : a.stickyMaxAgeSeconds = b.stickyMaxAgeSeconds
  protocol : a.protocol = b.protocol
  healthCheckNodePort : a.healthCheckNodePort = b.healthCheckNodePort
  nodePort : a.nodePort = b.nodePort
  nodeLocalExternal : a.nodeLocalExternal = b.nodeLocalExternal
  nodeLocalInternal : a.nodeLocalInternal = b.nodeLocalInternal
  hintsAnnotation : a.hintsAnnotation = b.hintsAnnotation
  internalTrafficPolicy : ptr a.internalTrafficPolicy b.internalTrafficPolicy
  externalIPStrings : strs a.externalIPStrings b.externalIPStrings
  loadBalancerIPStrings : strs a.loadBalancerIPStrings b.loadBalancerIPStrings
  loadBalancerSourceRanges : strs a.loadBalancerSourceRanges b.loadBalancerSourceRanges
  topologyKeys : strs a.topologyKeys b.topologyKeys

/-- The relation the doc comment of `ServicePortEqual` describes, for a heap `deref` that gives
the policy at each address: every accessor presents the same value, the pointers through what
they point to and the string lists as multisets. -/
def AccessorsAgree (deref : ℕ → String) : ServicePort → ServicePort → Prop :=
  Agree (fun x y => x.map deref = y.map deref) List.Perm

section Agree

variable {ptr ptr' : Option ℕ → Option ℕ → Prop}
  {strs strs' : List String → List String → Prop} {a b c : ServicePort}

theorem Agree.refl (hp : ∀ x, ptr x x) (hs : ∀ l, strs l l) (a : ServicePort) :
    Agree ptr strs a a :=
  ⟨ipEqual_refl _, rfl, rfl, rfl, rfl, rfl, rfl, rfl, rfl, rfl, hp _, hs _, hs _, hs _, hs _⟩

theorem Agree.symm (h : Agree ptr strs a b) (hp : ∀ x y, ptr x y → ptr y x)
    (hs : ∀ l l', strs l l' → strs l' l) : Agree ptr strs b a :=
  ⟨ipEqual_symm h.clusterIP, h.port.symm, h.sessionAffinityType.symm,
    h.stickyMaxAgeSeconds.symm, h.protocol.symm, h.healthCheckNodePort.symm, h.nodePort.symm,
    h.nodeLocalExternal.symm, h.nodeLocalInternal.symm, h.hintsAnnotation.symm,
    hp _ _ h.internalTrafficPolicy, hs _ _ h.externalIPStrings, hs _ _ h.loadBalancerIPStrings,
    hs _ _ h.loadBalancerSourceRanges, hs _ _ h.topologyKeys⟩

theorem Agree.trans (h₁ : Agree ptr strs a b) (h₂ : Agree ptr strs b c)
    (hp : ∀ x y z, ptr x y → ptr y z → ptr x z)
    (hs : ∀ l l' l'', strs l l' → strs l' l'' → strs l l'') : Agree ptr strs a c :=
  ⟨ipEqual_trans h₁.clusterIP h₂.clusterIP, h₁.port.trans h₂.port,
    h₁.sessionAffinityType.trans h₂.sessionAffinityType,
    h₁.stickyMaxAgeSeconds.trans h₂.stickyMaxAgeSeconds, h₁.protocol.trans h₂.protocol,
    h₁.healthCheckNodePort.trans h₂.healthCheckNodePort, h₁.nodePort.trans h₂.nodePort,
    h₁.nodeLocalExternal.trans h₂.nodeLocalExternal,
    h₁.nodeLocalInternal.trans h₂.nodeLocalInternal,
    h₁.hintsAnnotation.trans h₂.hintsAnnotation,
    hp _ _ _ h₁.internalTrafficPolicy h₂.internalTrafficPolicy,
    hs _ _ _ h₁.externalIPStrings h₂.externalIPStrings,
    hs _ _ _ h₁.loadBalancerIPStrings h₂.loadBalancerIPStrings,
    hs _ _ _ h₁.loadBalancerSourceRanges h₂.loadBalancerSourceRanges,
    hs _ _ _ h₁.topologyKeys h₂.topologyKeys⟩

theorem Agree.mono (h : Agree ptr strs a b) (hp : ∀ x y, ptr x y → ptr' x y)
    (hs : ∀ l l', strs l l' → strs' l l') : Agree ptr' strs' a b :=
  ⟨h.clusterIP, h.port, h.sessionAffinityType, h.stickyMaxAgeSeconds, h.protocol,
    h.healthCheckNodePort, h.nodePort, h.nodeLocalExternal, h.nodeLocalInternal,
    h.hintsAnnotation, hp _ _ h.internalTrafficPolicy, hs _ _ h.externalIPStrings,
    hs _ _ h.loadBalancerIPStrings, hs _ _ h.loadBalancerSourceRanges, hs _ _ h.topologyKeys⟩

end Agree

/-- `ServicePortEqual` compares the pointers and checks each list of `b` against that of `a`. -/
theorem servicePortEqual_iff (a b : ServicePort) :
    servicePortEqual a b = true ↔ Agree Eq SameLengthSubset a b := by
  simp only [servicePortEqual, Bool.and_eq_true, beq_iff_eq, stringsEqual_iff, agree_iff,
    and_assoc]

/-- Ports equal up to the order of their lists compare equal. -/
theorem servicePortEqual_of_perm (h : Agree Eq List.Perm a b) : servicePortEqual a b = true :=
  (servicePortEqual_iff a b).mpr (h.mono (fun _ _ => id) fun _ _ => sameLengthSubset_of_perm)

/-- A port with every accessor at its zero value. -/
def zeroPort : ServicePort :=
  ⟨[], 0, "", 0, "", 0, 0, false, false, "", none, [], [], [], []⟩

/-- `ServicePortEqual` holds exactly when the pointers are the same and each list of `b` is as
long as that of `a` and drawn from it. It is reflexive and transitive, and holds for ports whose
lists differ only in order. -/
theorem servicePortEqual_spec :
    (∀ a b, servicePortEqual a b = true ↔ Agree Eq SameLengthSubset a b) ∧
      (∀ a, servicePortEqual a a = true) ∧
      (∀ a b c, servicePortEqual a b = true → servicePortEqual b c = true →
        servicePortEqual a c = true) ∧
      (∀ a b, Agree Eq List.Perm a b → servicePortEqual a b = true) := by
  refine ⟨servicePortEqual_iff, fun a => ?_, fun a b c h₁ h₂ => ?_,
    fun _ _ => servicePortEqual_of_perm⟩
  · exact (servicePortEqual_iff a a).mpr (Agree.refl (fun _ => rfl) SameLengthSubset.refl a)
  · rw [servicePortEqual_iff] at h₁ h₂ ⊢
    exact h₁.trans h₂ (fun _ _ _ => Eq.trans) fun _ _ _ => SameLengthSubset.trans

theorem servicePortEqual_spec_reordered :
    servicePortEqual { zeroPort with topologyKeys := ["a", "b"] }
      { zeroPort with topologyKeys := ["b", "a"] } = true :=
  servicePortEqual_spec.2.2.2 _ _
    ⟨ipEqual_refl _, rfl, rfl, rfl, rfl, rfl, rfl, rfl, rfl, rfl, rfl, .nil, .nil, .nil,
      .swap "b" "a" []⟩

/-- `ServicePortEqual` is not the relation of its doc comment, nor symmetric: `[x, y]` passes
against `[x, x]` but not the other way, and two pointers to the same policy compare unequal. -/
theorem servicePortEqual_not_symm :
    servicePortEqual { zeroPort with externalIPStrings := ["x", "y"] }
        { zeroPort with externalIPStrings := ["x", "x"] } = true ∧
      servicePortEqual { zeroPort with externalIPStrings := ["x", "x"] }
        { zeroPort with externalIPStrings := ["x", "y"] } = false ∧
      AccessorsAgree (fun _ => "Local") { zeroPort with internalTrafficPolicy := some 1 }
        { zeroPort with internalTrafficPolicy := some 2 } ∧
      servicePortEqual { zeroPort with internalTrafficPolicy := some 1 }
        { zeroPort with internalTrafficPolicy := some 2 } = false := by
  refine ⟨by decide, by decide, ?_, by decide⟩
  exact ⟨ipEqual_refl _, rfl, rfl, rfl, rfl, rfl, rfl, rfl, rfl, rfl, rfl, .nil, .nil, .nil, .nil⟩

/-- The ID `applySvc` gives a service: the one it had when its port compares equal to the one it
had, or else a new one. -/
def applySvcID (old : Option (ServicePort × UInt32)) (sinfo : ServicePort) (newID : UInt32) :
    UInt32 :=
  match old with
  | some (svc, id) => if servicePortEqual svc sinfo then id else newID
  | none => newID

/-- A service whose port changes at most in the order of its lists keeps its ID. -/
theorem applySvcID_of_agree {svc sinfo : ServicePort} (h : Agree Eq List.Perm svc sinfo)
    (oldID newID : UInt32) : applySvcID (some (svc, oldID)) sinfo newID = oldID := by
  simp [applySvcID, servicePortEqual_of_perm h]

end Felix.Bpf.Proxy
