import Felix.Calc.ActiveRules
import Felix.LabelIndex.InheritData

/-!
# What the rule scanner was last told

The promise of `ActiveRulesCalculator` is about the last call the rule scanner received for
each policy and each profile. After any updates that do not panic, the last call about a policy
sent it as active, with the policy held now, exactly when the policy is known and its selector
matches the labels of some local endpoint (its own, then those its profiles give it); otherwise
it sent the policy as inactive, or nothing was ever sent. The last call about a profile sent it
as active, with its rules or `DummyDropRules`, exactly when some local endpoint lists it;
otherwise as inactive, or nothing (`Inv.policyActive_iff`, `Inv.profileActive_iff`).

The invariant `Inv` carries this for the calculator's own view of activity, which is whether a
key has a set in `policyIDToEndpointKeys` or `profileIDToEndpointKeys`, and ties those maps to
the index: the policy map holds the index's matches, the index holds a selector that evaluates
as each known policy's own, and the profile map holds the profile IDs of the index's items.
The index's callbacks report exactly the change of its matches (`Consistent.apply`), so
replaying them keeps the policy map right (`onMatches_spec`).

## Main definitions

* `PolicySent`, `ProfileSent`: what the last call about a key says
* `PolicyActive`, `ProfileActive`: activity in terms of the local endpoints
* `ActiveRulesCalculator.Inv`

## Main results

* `ActiveRulesCalculator.Inv.onUpdate`: one update keeps the invariant
* `ActiveRulesCalculator.Inv.policyActive_iff`, `ActiveRulesCalculator.Inv.profileActive_iff`:
  the calculator's own view of activity is activity in terms of the local endpoints
-/

namespace Felix.Calc

open Replication LabelIndex InheritIndex

variable {EK PK Sel Pol R : Type}

/-! ## The last call about a key -/

section Last

variable {out o : List (ArcCallback EK PK Pol R)} {key : PK} {name : String}
  {c : ArcCallback EK PK Pol R}

theorem lastProfileEvent_append (name : String) (out o : List (ArcCallback EK PK Pol R)) :
    lastProfileEvent name (out ++ o) = (lastProfileEvent name o).or (lastProfileEvent name out) := by
  simp [lastProfileEvent, List.filter_append, List.getLast?_append]

/-- Calls about other profiles leave a profile's last call. -/
theorem lastProfileEvent_append_of_none (h : lastProfileEvent name o = none) :
    lastProfileEvent name (out ++ o) = lastProfileEvent name out := by
  rw [lastProfileEvent_append, h, Option.none_or]

/-- A call about the profile is its last. -/
theorem lastProfileEvent_append_of_some (h : lastProfileEvent name o = some c) :
    lastProfileEvent name (out ++ o) = some c := by
  rw [lastProfileEvent_append, h, Option.some_or]

variable [DecidableEq PK]

theorem lastPolicyEvent_append (key : PK) (out o : List (ArcCallback EK PK Pol R)) :
    lastPolicyEvent key (out ++ o) = (lastPolicyEvent key o).or (lastPolicyEvent key out) := by
  simp [lastPolicyEvent, List.filter_append, List.getLast?_append]

/-- Calls about other policies leave a policy's last call. -/
theorem lastPolicyEvent_append_of_none (h : lastPolicyEvent key o = none) :
    lastPolicyEvent key (out ++ o) = lastPolicyEvent key out := by
  rw [lastPolicyEvent_append, h, Option.none_or]

/-- A call about the policy is its last. -/
theorem lastPolicyEvent_append_of_some (h : lastPolicyEvent key o = some c) :
    lastPolicyEvent key (out ++ o) = some c := by
  rw [lastPolicyEvent_append, h, Option.some_or]

end Last

/-! ## What the last call says -/

/-- The last call `last` about the policy `key`, as activity `active` has it: an active policy
was last sent as active, with a policy `Q` allows; an inactive one was last sent as inactive,
or never. -/
def PolicySent (Q : PK → Pol → Prop) (active : Prop) (key : PK)
    (last : Option (ArcCallback EK PK Pol R)) : Prop :=
  (active → ∃ policy, Q key policy ∧ last = some (.onPolicyActive key policy)) ∧
    (¬active → last = none ∨ last = some (.onPolicyInactive key))

/-- The last call `last` about the profile `name`, as activity `active` has it: an active
profile was last sent as active, with the rules `rules`; an inactive one was last sent as
inactive, or never. -/
def ProfileSent (active : Prop) (name : String) (rules : ProfileRules R)
    (last : Option (ArcCallback EK PK Pol R)) : Prop :=
  (active → last = some (.onProfileActive name rules)) ∧
    (¬active → last = none ∨ last = some (.onProfileInactive name))

section Sent

variable {Q Q' : PK → Pol → Prop} {active active' : Prop} {key : PK} {name : String}
  {rules : ProfileRules R} {last : Option (ArcCallback EK PK Pol R)}

theorem PolicySent.mono (h : PolicySent Q active key last) (hQ : ∀ p, Q key p → Q' key p) :
    PolicySent Q' active key last := by
  refine ⟨fun ha => ?_, h.2⟩
  obtain ⟨policy, hq, hl⟩ := h.1 ha
  exact ⟨policy, hQ policy hq, hl⟩

theorem PolicySent.congr (h : PolicySent Q active key last) (ha : active ↔ active') :
    PolicySent Q active' key last :=
  ⟨fun h' => h.1 (ha.mpr h'), fun h' => h.2 (mt ha.mp h')⟩

theorem ProfileSent.congr (h : ProfileSent active name rules last) (ha : active ↔ active') :
    ProfileSent active' name rules last :=
  ⟨fun h' => h.1 (ha.mpr h'), fun h' => h.2 (mt ha.mp h')⟩

end Sent

namespace EndpointKeyToProfileIDMap

/-- The second loop of `Update`: an ID is left to remove when it was to be removed and is not
given again; every ID given that was not to be removed is added, and nothing else is. -/
theorem foldl_keepOrAdd (l : List String) : ∀ removed added : IterSet String,
    (∀ id, id ∈ (l.foldl keepOrAdd (removed, added)).1 ↔ id ∈ removed ∧ id ∉ l) ∧
      (∀ id, id ∈ added → id ∈ (l.foldl keepOrAdd (removed, added)).2) ∧
      (∀ id, id ∈ (l.foldl keepOrAdd (removed, added)).2 → id ∈ added ∨ id ∈ l) ∧
      ∀ id, id ∈ l → id ∉ removed → id ∈ (l.foldl keepOrAdd (removed, added)).2 := by
  induction l with
  | nil => intro removed added; simp
  | cons x l ih =>
    intro removed added
    rw [List.foldl_cons]
    by_cases hx : x ∈ removed
    · -- `x` was to be removed: it stays
      rw [show keepOrAdd (removed, added) x = (removed.discard x, added) from if_pos hx]
      obtain ⟨h₁, h₂, h₃, h₄⟩ := ih (removed.discard x) added
      refine ⟨fun id => ?_, h₂, fun id hid => ?_, fun id hid hr => ?_⟩
      · rw [h₁, IterSet.mem_discard, List.mem_cons]
        tauto
      · rcases h₃ id hid with h | h
        · exact .inl h
        · exact .inr (List.mem_cons_of_mem x h)
      · rcases List.mem_cons.mp hid with rfl | hid
        · exact absurd hx hr
        · exact h₄ id hid fun h => hr (IterSet.mem_discard.mp h).2
    · -- `x` is new: it is added
      rw [show keepOrAdd (removed, added) x = (removed, added.add x) from if_neg hx]
      obtain ⟨h₁, h₂, h₃, h₄⟩ := ih removed (added.add x)
      refine ⟨fun id => ?_, fun id hid => h₂ id (IterSet.mem_add.mpr (.inr hid)),
        fun id hid => ?_, fun id hid hr => ?_⟩
      · rw [h₁, List.mem_cons]
        constructor
        · rintro ⟨hr, hl⟩
          exact ⟨hr, fun h => h.elim (fun e => hx (e ▸ hr)) hl⟩
        · rintro ⟨hr, hl⟩
          exact ⟨hr, fun h => hl (.inr h)⟩
      · rcases h₃ id hid with h | h
        · rcases IterSet.mem_add.mp h with rfl | h
          · exact .inr List.mem_cons_self
          · exact .inl h
        · exact .inr (List.mem_cons_of_mem x h)
      · rcases List.mem_cons.mp hid with rfl | hid
        · exact h₂ id (IterSet.mem_add.mpr (.inl rfl))
        · exact h₄ id hid hr

variable [DecidableEq EK]

theorem update_eq (key : EK) (profileIDs : List String) (idx : EndpointKeyToProfileIDMap EK) :
    idx.update key profileIDs =
      (if profileIDs.length > 0 then ⟨idx.endpointKeyToProfileIDs.insert key profileIDs⟩
        else ⟨idx.endpointKeyToProfileIDs.erase key⟩,
        (profileIDs.foldl keepOrAdd
          ((idx.profileIDs key).foldl (fun removed id => removed.add id) ∅, ∅)).1,
        (profileIDs.foldl keepOrAdd
          ((idx.profileIDs key).foldl (fun removed id => removed.add id) ∅, ∅)).2) := rfl

/-- **`Update`**: the endpoint's profile IDs are stored, and the IDs removed and added are
those it no longer has and those it has anew, give or take IDs it keeps. -/
theorem update_spec (key : EK) (profileIDs : List String) (idx : EndpointKeyToProfileIDMap EK) :
    (∀ e, (idx.update key profileIDs).1.profileIDs e =
        if e = key then profileIDs else idx.profileIDs e) ∧
      (∀ id, id ∈ (idx.update key profileIDs).2.1 ↔ id ∈ idx.profileIDs key ∧ id ∉ profileIDs) ∧
      (∀ id, id ∈ (idx.update key profileIDs).2.2 → id ∈ profileIDs) ∧
      ∀ id, id ∈ profileIDs → id ∉ idx.profileIDs key → id ∈ (idx.update key profileIDs).2.2 := by
  obtain ⟨h₁, -, h₃, h₄⟩ := foldl_keepOrAdd profileIDs
    ((idx.profileIDs key).foldl (fun removed id => removed.add id) ∅) ∅
  rw [update_eq]
  refine ⟨fun e => ?_, fun id => ?_, fun id hid => ?_, fun id hid hold => ?_⟩
  · -- an endpoint left with no profiles is not stored
    unfold EndpointKeyToProfileIDMap.profileIDs
    by_cases he : e = key
    · subst he
      rw [if_pos rfl]
      by_cases hlen : profileIDs.length > 0
      · rw [if_pos hlen]
        simp
      · rw [if_neg hlen]
        simp [List.eq_nil_of_length_eq_zero (Nat.eq_zero_of_not_pos hlen)]
    · rw [if_neg he]
      split_ifs <;> simp [AList.lookup_insert_ne he, AList.lookup_erase_ne he]
  · rw [h₁, IterSet.mem_foldl_add]
    simp
  · exact (h₃ id hid).resolve_left (IterSet.not_mem_empty id)
  · exact h₄ id hid fun h => hold ((IterSet.mem_foldl_add.mp h).resolve_right (IterSet.not_mem_empty id))

end EndpointKeyToProfileIDMap

namespace ActiveRulesCalculator

/-- The rules an active profile is sent: its own when known, else `DummyDropRules`. -/
def profileRules (denyRule : R) (arc : ActiveRulesCalculator EK PK Sel Pol R) (name : String) :
    ProfileRules R :=
  (arc.allProfileRules.lookup name).getD (dummyDropRules denyRule)
attribute [grind] profileRules

/-- The last call about every profile is right for the calculator's view of its activity. -/
def ProfilesSent (denyRule : R) (arc : ActiveRulesCalculator EK PK Sel Pol R)
    (out : List (ArcCallback EK PK Pol R)) : Prop :=
  ∀ name, ProfileSent (name ∈ arc.profileIDToEndpointKeys) name (arc.profileRules denyRule name)
    (lastProfileEvent name out)

variable {arc arc' arc'' : ActiveRulesCalculator EK PK Sel Pol R}
  {out o : List (ArcCallback EK PK Pol R)} {denyRule : R}

/-- Calls about no profile, with the profile map and rules unchanged, keep the profiles' last
calls. -/
theorem ProfilesSent.frame (h : ProfilesSent denyRule arc out)
    (hmap : arc'.profileIDToEndpointKeys = arc.profileIDToEndpointKeys)
    (hrules : arc'.allProfileRules = arc.allProfileRules)
    (ho : ∀ name, lastProfileEvent name o = none) : ProfilesSent denyRule arc' (out ++ o) := by
  intro name
  rw [lastProfileEvent_append_of_none (ho name), hmap, profileRules, hrules]
  exact h name

theorem sendProfileUpdate_eq (name : String) :
    arc.sendProfileUpdate denyRule name =
      if name ∈ arc.profileIDToEndpointKeys then [.onProfileActive name (arc.profileRules denyRule name)]
      else [.onProfileInactive name] := by
  unfold sendProfileUpdate profileRules
  split_ifs
  · cases arc.allProfileRules.lookup name <;> rfl
  · rfl

variable [DecidableEq PK]

/-- The last call about every policy is right for the calculator's view of its activity. -/
def PoliciesSent (Q : PK → Pol → Prop) (arc : ActiveRulesCalculator EK PK Sel Pol R)
    (out : List (ArcCallback EK PK Pol R)) : Prop :=
  ∀ key, PolicySent Q (key ∈ arc.policyIDToEndpointKeys) key (lastPolicyEvent key out)

/-- The policies the calculator holds. -/
def Known (arc : ActiveRulesCalculator EK PK Sel Pol R) (key : PK) (policy : Pol) : Prop :=
  arc.allPolicies.lookup key = some policy

variable {Q : PK → Pol → Prop}

/-- Calls about no policy, with the policy map unchanged, keep the policies' last calls. -/
theorem PoliciesSent.frame (h : PoliciesSent Q arc out)
    (hmap : arc'.policyIDToEndpointKeys = arc.policyIDToEndpointKeys)
    (ho : ∀ key, lastPolicyEvent key o = none) : PoliciesSent Q arc' (out ++ o) := by
  intro key
  rw [lastPolicyEvent_append_of_none (ho key), hmap]
  exact h key

theorem sendPolicyUpdate_of_active {key : PK} {sent : List (ArcCallback EK PK Pol R)}
    (ha : key ∈ arc.policyIDToEndpointKeys) (h : arc.sendPolicyUpdate key = .ok sent) :
    ∃ policy, arc.allPolicies.lookup key = some policy ∧ sent = [.onPolicyActive key policy] := by
  unfold sendPolicyUpdate at h
  rw [if_pos ha] at h
  split at h
  · rename_i policy hp
    cases h
    exact ⟨policy, hp, rfl⟩
  · cases h

theorem sendPolicyUpdate_of_inactive {key : PK} (ha : key ∉ arc.policyIDToEndpointKeys) :
    arc.sendPolicyUpdate key = .ok [.onPolicyInactive key] := by
  unfold sendPolicyUpdate
  rw [if_neg ha]

/-! ## The index's callbacks -/

variable [DecidableEq EK]

/-- `onMatchStarted`: the pair is stored, and a policy that was not active is sent as active. -/
theorem onMatchStarted_eq {key : PK} {e : EK} (h : arc.onMatchStarted key e = .ok (arc', o)) :
    arc' = { arc with policyIDToEndpointKeys := arc.policyIDToEndpointKeys.put key e } ∧
      (key ∈ arc.policyIDToEndpointKeys ∧ o = [.onPolicyMatch key e] ∨
        ∃ policy, arc.allPolicies.lookup key = some policy ∧
          o = [.onPolicyActive key policy, .onPolicyMatch key e]) := by
  unfold onMatchStarted at h
  by_cases ha : key ∈ arc.policyIDToEndpointKeys
  · simp only [ha, decide_true, if_true] at h
    obtain ⟨rfl, rfl⟩ := Prod.mk.inj (Except.ok.inj h)
    exact ⟨rfl, .inl ⟨ha, rfl⟩⟩
  · simp only [ha, decide_false, Bool.false_eq_true, if_false] at h
    obtain ⟨sent, hsent, h⟩ := bind_eq_ok h
    obtain ⟨rfl, rfl⟩ := Prod.mk.inj (Except.ok.inj h)
    obtain ⟨policy, hp, rfl⟩ :=
      sendPolicyUpdate_of_active (SetMap.mem_keys_put.mpr (.inl rfl)) hsent
    exact ⟨rfl, .inr ⟨policy, hp, rfl⟩⟩

/-- `onMatchStopped`: the pair is dropped, and a policy left with no match is sent as
inactive. -/
theorem onMatchStopped_eq {key : PK} {e : EK} (h : arc.onMatchStopped key e = .ok (arc', o)) :
    arc' = { arc with policyIDToEndpointKeys := arc.policyIDToEndpointKeys.discard key e } ∧
      (key ∈ arc'.policyIDToEndpointKeys ∧ o = [.onPolicyMatchStopped key e] ∨
        key ∉ arc'.policyIDToEndpointKeys ∧
          o = [.onPolicyInactive key, .onPolicyMatchStopped key e]) := by
  unfold onMatchStopped at h
  by_cases ha : key ∈ arc.policyIDToEndpointKeys.discard key e
  · simp only [ha, if_true] at h
    obtain ⟨rfl, rfl⟩ := Prod.mk.inj (Except.ok.inj h)
    exact ⟨rfl, .inl ⟨ha, rfl⟩⟩
  · simp only [ha, if_false] at h
    rw [sendPolicyUpdate_of_inactive ha, ok_bind] at h
    obtain ⟨rfl, rfl⟩ := Prod.mk.inj (Except.ok.inj h)
    exact ⟨rfl, .inr ⟨ha, rfl⟩⟩

theorem PoliciesSent.onMatchStarted (hQ : ∀ key policy, arc.allPolicies.lookup key = some policy → Q key policy)
    (h : PoliciesSent Q arc out) {key : PK} {e : EK} (hm : arc.onMatchStarted key e = .ok (arc', o)) :
    PoliciesSent Q arc' (out ++ o) := by
  obtain ⟨rfl, ho⟩ := onMatchStarted_eq hm
  intro key'
  by_cases hk : key' = key
  · subst hk
    have hin : key' ∈ arc.policyIDToEndpointKeys.put key' e := SetMap.mem_keys_put.mpr (.inl rfl)
    refine ⟨fun _ => ?_, fun hn => absurd hin hn⟩
    rcases ho with ⟨ha, rfl⟩ | ⟨policy, hp, rfl⟩
    · -- already active: the last call stays
      obtain ⟨policy, hq, hl⟩ := (h key').1 ha
      refine ⟨policy, hq, ?_⟩
      rw [lastPolicyEvent_append_of_none (by simp [lastPolicyEvent, ArcCallback.policyKey?]), hl]
    · exact ⟨policy, hQ key' policy hp,
        lastPolicyEvent_append_of_some (by simp [lastPolicyEvent, ArcCallback.policyKey?])⟩
  · have hnone : lastPolicyEvent key' o = none := by
      rcases ho with ⟨-, rfl⟩ | ⟨policy, -, rfl⟩ <;>
        simp [lastPolicyEvent, ArcCallback.policyKey?, Ne.symm hk]
    rw [lastPolicyEvent_append_of_none hnone]
    exact (h key').congr (SetMap.mem_keys_put.trans (or_iff_right hk)).symm

theorem PoliciesSent.onMatchStopped (h : PoliciesSent Q arc out)
    (hne : arc.policyIDToEndpointKeys.NoEmpty) {key : PK} {e : EK}
    (hm : arc.onMatchStopped key e = .ok (arc', o)) : PoliciesSent Q arc' (out ++ o) := by
  obtain ⟨rfl, ho⟩ := onMatchStopped_eq hm
  intro key'
  by_cases hk : key' = key
  · subst hk
    rcases ho with ⟨ha, rfl⟩ | ⟨ha, rfl⟩
    · -- still active, so active before, and the last call stays
      have ha₀ : key' ∈ arc.policyIDToEndpointKeys := by
        obtain ⟨e', he'⟩ := (hne.discard key' e).mem_keys_iff.mp ha
        exact hne.mem_keys_iff.mpr ⟨e', (SetMap.mem_discard.mp he').2⟩
      refine ⟨fun _ => ?_, fun hn => absurd ha hn⟩
      rw [lastPolicyEvent_append_of_none (by simp [lastPolicyEvent, ArcCallback.policyKey?])]
      exact (h key').1 ha₀
    · exact ⟨fun ha' => absurd ha' ha,
        fun _ => .inr (lastPolicyEvent_append_of_some (by simp [lastPolicyEvent, ArcCallback.policyKey?]))⟩
  · have hnone : lastPolicyEvent key' o = none := by
      rcases ho with ⟨-, rfl⟩ | ⟨-, rfl⟩ <;>
        simp [lastPolicyEvent, ArcCallback.policyKey?, Ne.symm hk]
    rw [lastPolicyEvent_append_of_none hnone]
    exact (h key').congr (SetMap.mem_keys_discard_of_ne hk).symm

/-- `arc'` differs from `arc` in the index and the policy map alone. -/
structure IndexOnly (arc arc' : ActiveRulesCalculator EK PK Sel Pol R) : Prop where
  allPolicies : arc'.allPolicies = arc.allPolicies
  allProfileRules : arc'.allProfileRules = arc.allProfileRules
  profileIDToEndpointKeys : arc'.profileIDToEndpointKeys = arc.profileIDToEndpointKeys
  endpointKeyToProfileIDs : arc'.endpointKeyToProfileIDs = arc.endpointKeyToProfileIDs

omit [DecidableEq PK] [DecidableEq EK] in
theorem IndexOnly.trans (h : IndexOnly arc arc') (h' : IndexOnly arc' arc'') : IndexOnly arc arc'' :=
  ⟨h'.1.trans h.1, h'.2.trans h.2, h'.3.trans h.3, h'.4.trans h.4⟩

/-- **Replaying the index's callbacks.** Callbacks that replay a change of the matches, from
those the policy map holds to `r'`, leave the map holding `r'`, send as active every policy
that gains its first match and as inactive every policy that loses its last, and touch
nothing else. -/
theorem onMatches_spec {callbacks : List (MatchCallback PK EK)} {r' : PK × EK → Prop}
    (hQ : ∀ key policy, arc.allPolicies.lookup key = some policy → Q key policy)
    (hrep : Replays (fun k => arc.policyIDToEndpointKeys.Mem k.1 k.2) r' callbacks)
    (hne : arc.policyIDToEndpointKeys.NoEmpty) (hsent : PoliciesSent Q arc out)
    (hrun : forEach (fun callback arc => arc.onMatch callback) callbacks arc = .ok (arc', o)) :
    IndexOnly arc arc' ∧ arc'.labelIndex = arc.labelIndex ∧
      (∀ key e, arc'.policyIDToEndpointKeys.Mem key e ↔ r' (key, e)) ∧
      arc'.policyIDToEndpointKeys.NoEmpty ∧ PoliciesSent Q arc' (out ++ o) ∧
      ∀ name, lastProfileEvent name o = none := by
  induction callbacks generalizing arc out o with
  | nil =>
    obtain ⟨rfl, rfl⟩ := Prod.mk.inj (Except.ok.inj hrun)
    exact ⟨⟨rfl, rfl, rfl, rfl⟩, rfl, fun key e => hrep (key, e), hne, by simpa using hsent,
      fun _ => rfl⟩
  | cons c callbacks ih =>
    obtain ⟨arc₁, o₁, arc₂, o₂, h₁, h₂, hr⟩ := forEach_cons_eq_ok hrun
    obtain ⟨rfl, rfl⟩ := Prod.mk.inj hr
    -- the first callback stores or drops its pair, and sends only about its policy
    have hstep : IndexOnly arc arc₁ ∧ arc₁.labelIndex = arc.labelIndex ∧
        Replays (fun k => arc₁.policyIDToEndpointKeys.Mem k.1 k.2) r' callbacks ∧
        arc₁.policyIDToEndpointKeys.NoEmpty ∧ PoliciesSent Q arc₁ (out ++ o₁) ∧
        ∀ name, lastProfileEvent name o₁ = none := by
      rcases c with ⟨key, e⟩ | ⟨key, e⟩
      · have hsent₁ := hsent.onMatchStarted hQ h₁
        obtain ⟨rfl, ho⟩ := onMatchStarted_eq h₁
        refine ⟨⟨rfl, rfl, rfl, rfl⟩, rfl, hrep.2.congr_left fun k => ?_, hne.put key e, hsent₁,
          fun name => ?_⟩
        · rw [SetMap.mem_put, Prod.ext_iff]
        · rcases ho with ⟨-, rfl⟩ | ⟨-, -, rfl⟩ <;>
            simp [lastProfileEvent, ArcCallback.profileName?]
      · have hsent₁ := hsent.onMatchStopped hne h₁
        obtain ⟨rfl, ho⟩ := onMatchStopped_eq h₁
        refine ⟨⟨rfl, rfl, rfl, rfl⟩, rfl, hrep.2.congr_left fun k => ?_, hne.discard key e,
          hsent₁, fun name => ?_⟩
        · rw [SetMap.mem_discard, ne_eq, Prod.ext_iff]
        · rcases ho with ⟨-, rfl⟩ | ⟨-, rfl⟩ <;>
            simp [lastProfileEvent, ArcCallback.profileName?]
    obtain ⟨hio₁, hidx₁, hrep₁, hne₁, hsent₁, hprof₁⟩ := hstep
    obtain ⟨hio₂, hidx₂, hmem, hne₂, hsent₂, hprof₂⟩ :=
      ih (by rwa [hio₁.allPolicies]) hrep₁ hne₁ hsent₁ h₂
    refine ⟨hio₁.trans hio₂, hidx₂.trans hidx₁, hmem, hne₂, by rwa [← List.append_assoc],
      fun name => ?_⟩
    rw [lastProfileEvent_append_of_none (hprof₂ name), hprof₁ name]

section Index

variable {UID : Type} [DecidableEq UID] {evaluateLabels : Sel → (String → Option String) → Bool}
  {uniqueID : Sel → UID}

/-- **An operation of the index**, then its callbacks: the index stays consistent, the policy
map holds its matches after the operation, and every policy whose activity changed is sent. -/
theorem updateLabelIndex_spec {op : Op EK PK Sel}
    (hc : Consistent evaluateLabels arc.labelIndex)
    (hm : ∀ key e, arc.policyIDToEndpointKeys.Mem key e ↔ arc.labelIndex.labelIdsBySelId.Mem key e)
    (hne : arc.policyIDToEndpointKeys.NoEmpty)
    (hQ : ∀ key policy, arc.allPolicies.lookup key = some policy → Q key policy)
    (hsent : PoliciesSent Q arc out)
    (h : arc.updateLabelIndex evaluateLabels uniqueID op = .ok (arc', o)) :
    (∃ callbacks, arc.labelIndex.apply evaluateLabels uniqueID op = .ok (arc'.labelIndex, callbacks)) ∧
      IndexOnly arc arc' ∧ Consistent evaluateLabels arc'.labelIndex ∧
      (∀ key e, arc'.policyIDToEndpointKeys.Mem key e ↔ arc'.labelIndex.labelIdsBySelId.Mem key e) ∧
      arc'.policyIDToEndpointKeys.NoEmpty ∧ PoliciesSent Q arc' (out ++ o) ∧
      ∀ name, lastProfileEvent name o = none := by
  unfold updateLabelIndex at h
  obtain ⟨⟨idx', callbacks⟩, happ, hloop⟩ := bind_eq_ok h
  obtain ⟨hc', hrep⟩ := hc.apply happ
  -- the callbacks replay the change of the matches on the policy map, which holds the old ones
  have hrep' : Replays (fun k => arc.policyIDToEndpointKeys.Mem k.1 k.2) (Recorded idx') callbacks :=
    (hrep.congr (fun k => ((hm k.1 k.2).trans (hc.recorded_iff k)).symm)
      fun k => (hc'.recorded_iff k).symm).replays
  obtain ⟨hio, hidx, hmem, hne', hsent', hprof⟩ :=
    onMatches_spec (by exact hQ) (by exact hrep') (by exact hne) (by exact hsent) hloop
  refine ⟨⟨callbacks, by rw [hidx]; exact happ⟩, ⟨hio.allPolicies, hio.allProfileRules,
    hio.profileIDToEndpointKeys, hio.endpointKeyToProfileIDs⟩,
    by rw [hidx]; exact hc', fun key e => ?_, hne', hsent', hprof⟩
  rw [hmem, hidx]
  rfl

end Index

/-! ## The profiles of an endpoint -/

/-- `arc'` differs from `arc` in the profile map and the record of profile IDs alone. -/
structure ProfilesOnly (arc arc' : ActiveRulesCalculator EK PK Sel Pol R) : Prop where
  allPolicies : arc'.allPolicies = arc.allPolicies
  allProfileRules : arc'.allProfileRules = arc.allProfileRules
  policyIDToEndpointKeys : arc'.policyIDToEndpointKeys = arc.policyIDToEndpointKeys
  labelIndex : arc'.labelIndex = arc.labelIndex

omit [DecidableEq PK] [DecidableEq EK] in
theorem ProfilesOnly.trans (h : ProfilesOnly arc arc') (h' : ProfilesOnly arc' arc'') :
    ProfilesOnly arc arc'' :=
  ⟨h'.1.trans h.1, h'.2.trans h.2, h'.3.trans h.3, h'.4.trans h.4⟩

omit [DecidableEq PK] [DecidableEq EK] in
/-- What `sendProfileUpdate` says about any other profile: nothing. -/
theorem lastProfileEvent_sendProfileUpdate_ne {name id : String} (hn : name ≠ id) :
    lastProfileEvent name (arc.sendProfileUpdate denyRule id) = none := by
  rw [sendProfileUpdate_eq]
  split_ifs <;> simp [lastProfileEvent, ArcCallback.profileName?, Ne.symm hn]

omit [DecidableEq EK] in
theorem lastPolicyEvent_sendProfileUpdate (key : PK) (id : String) :
    lastPolicyEvent key (arc.sendProfileUpdate denyRule id) = none := by
  rw [sendProfileUpdate_eq]
  split_ifs <;> simp [lastPolicyEvent, ArcCallback.policyKey?]

/-- A turn of the first loop: the endpoint joins the profile, and the profile is active
after it, sent when it was not active before. -/
theorem addProfileEndpoint_spec {key : EK} {id : String} (h : ProfilesSent denyRule arc out)
    (hr : arc.addProfileEndpoint denyRule key id = (arc', o)) :
    ProfilesOnly arc arc' ∧ arc'.endpointKeyToProfileIDs = arc.endpointKeyToProfileIDs ∧
      arc'.profileIDToEndpointKeys = arc.profileIDToEndpointKeys.put id key ∧
      ProfilesSent denyRule arc' (out ++ o) ∧ ∀ k, lastPolicyEvent k o = none := by
  unfold addProfileEndpoint at hr
  obtain ⟨rfl, rfl⟩ := Prod.mk.inj hr
  refine ⟨⟨rfl, rfl, rfl, rfl⟩, rfl, rfl, fun name => ?_, fun k => ?_⟩
  · by_cases hn : name = id
    · subst hn
      have hin : name ∈ arc.profileIDToEndpointKeys.put name key :=
        SetMap.mem_keys_put.mpr (.inl rfl)
      refine ⟨fun _ => ?_, fun hn => absurd hin hn⟩
      by_cases hw : name ∈ arc.profileIDToEndpointKeys
      · -- already active: the last call stays
        simp only [hw, decide_true, if_true, List.append_nil]
        exact (h name).1 hw
      · simp only [hw, decide_false, Bool.false_eq_true, if_false]
        rw [sendProfileUpdate_eq, if_pos hin]
        exact lastProfileEvent_append_of_some (by simp [lastProfileEvent, ArcCallback.profileName?])
    · rw [lastProfileEvent_append_of_none (by split_ifs; rfl; exact lastProfileEvent_sendProfileUpdate_ne hn)]
      exact (h name).congr (SetMap.mem_keys_put.trans (or_iff_right hn)).symm
  · split_ifs
    · rfl
    · exact lastPolicyEvent_sendProfileUpdate k id

/-- A turn of the second loop: the endpoint leaves the profile, and a profile left with no
endpoint is sent as inactive. -/
theorem removeProfileEndpoint_spec {key : EK} {id : String} (h : ProfilesSent denyRule arc out)
    (hne : arc.profileIDToEndpointKeys.NoEmpty)
    (hr : arc.removeProfileEndpoint denyRule key id = (arc', o)) :
    ProfilesOnly arc arc' ∧ arc'.endpointKeyToProfileIDs = arc.endpointKeyToProfileIDs ∧
      arc'.profileIDToEndpointKeys = arc.profileIDToEndpointKeys.discard id key ∧
      ProfilesSent denyRule arc' (out ++ o) ∧ ∀ k, lastPolicyEvent k o = none := by
  unfold removeProfileEndpoint at hr
  obtain ⟨rfl, rfl⟩ := Prod.mk.inj hr
  refine ⟨⟨rfl, rfl, rfl, rfl⟩, rfl, rfl, fun name => ?_, fun k => ?_⟩
  · by_cases hn : name = id
    · subst hn
      by_cases hw : name ∈ arc.profileIDToEndpointKeys.discard name key
      · -- still active, so active before, and the last call stays
        have hw₀ : name ∈ arc.profileIDToEndpointKeys := by
          obtain ⟨e', he'⟩ := (hne.discard name key).mem_keys_iff.mp hw
          exact hne.mem_keys_iff.mpr ⟨e', (SetMap.mem_discard.mp he').2⟩
        refine ⟨fun _ => ?_, fun hn => absurd hw hn⟩
        simp only [hw, if_true, List.append_nil]
        exact (h name).1 hw₀
      · refine ⟨fun hw' => absurd hw' hw, fun _ => .inr ?_⟩
        simp only [hw, if_false]
        rw [sendProfileUpdate_eq, if_neg hw]
        exact lastProfileEvent_append_of_some (by simp [lastProfileEvent, ArcCallback.profileName?])
    · rw [lastProfileEvent_append_of_none (by split_ifs; rfl; exact lastProfileEvent_sendProfileUpdate_ne hn)]
      exact (h name).congr (SetMap.mem_keys_discard_of_ne hn).symm
  · split_ifs
    · rfl
    · exact lastPolicyEvent_sendProfileUpdate k id

/-- The first loop of `updateEndpointProfileIDs`: the endpoint joins every profile of the
list. -/
theorem addProfileEndpoints_spec (key : EK) :
    ∀ (ids : List String) {arc arc' : ActiveRulesCalculator EK PK Sel Pol R}
      {out o : List (ArcCallback EK PK Pol R)}, ProfilesSent denyRule arc out →
      arc.profileIDToEndpointKeys.NoEmpty →
      forEachPure (addProfileEndpoint denyRule key) ids arc = (arc', o) →
      ProfilesOnly arc arc' ∧ arc'.endpointKeyToProfileIDs = arc.endpointKeyToProfileIDs ∧
        (∀ name e, arc'.profileIDToEndpointKeys.Mem name e ↔
          name ∈ ids ∧ e = key ∨ arc.profileIDToEndpointKeys.Mem name e) ∧
        arc'.profileIDToEndpointKeys.NoEmpty ∧ ProfilesSent denyRule arc' (out ++ o) ∧
        ∀ k, lastPolicyEvent k o = none
  | [], arc, _, out, _, h, hne, hr => by
    obtain ⟨rfl, rfl⟩ := Prod.mk.inj hr
    exact ⟨⟨rfl, rfl, rfl, rfl⟩, rfl, by simp, hne, by simpa using h, fun _ => rfl⟩
  | id :: ids, arc, arc', out, o, h, hne, hr => by
    obtain ⟨arc₁, o₁, o₂, h₁, h₂, ho⟩ := forEachPure_cons_eq hr
    change o = o₁ ++ o₂ at ho
    obtain ⟨hpo₁, hrec₁, hmap₁, hsent₁, hpol₁⟩ := addProfileEndpoint_spec h h₁
    have hne₁ : arc₁.profileIDToEndpointKeys.NoEmpty := hmap₁ ▸ hne.put id key
    obtain ⟨hpo₂, hrec₂, hmem₂, hne₂, hsent₂, hpol₂⟩ :=
      addProfileEndpoints_spec key ids hsent₁ hne₁ h₂
    refine ⟨hpo₁.trans hpo₂, hrec₂.trans hrec₁, fun name e => ?_, hne₂, ?_, fun k => ?_⟩
    · rw [hmem₂, hmap₁, SetMap.mem_put, List.mem_cons]
      tauto
    · rw [ho, ← List.append_assoc]
      exact hsent₂
    · rw [ho, lastPolicyEvent_append_of_none (hpol₂ k), hpol₁ k]

/-- The second loop of `updateEndpointProfileIDs`: the endpoint leaves every profile of the
list. -/
theorem removeProfileEndpoints_spec (key : EK) :
    ∀ (ids : List String) {arc arc' : ActiveRulesCalculator EK PK Sel Pol R}
      {out o : List (ArcCallback EK PK Pol R)}, ProfilesSent denyRule arc out →
      arc.profileIDToEndpointKeys.NoEmpty →
      forEachPure (removeProfileEndpoint denyRule key) ids arc = (arc', o) →
      ProfilesOnly arc arc' ∧ arc'.endpointKeyToProfileIDs = arc.endpointKeyToProfileIDs ∧
        (∀ name e, arc'.profileIDToEndpointKeys.Mem name e ↔
          ¬(name ∈ ids ∧ e = key) ∧ arc.profileIDToEndpointKeys.Mem name e) ∧
        arc'.profileIDToEndpointKeys.NoEmpty ∧ ProfilesSent denyRule arc' (out ++ o) ∧
        ∀ k, lastPolicyEvent k o = none
  | [], arc, _, out, _, h, hne, hr => by
    obtain ⟨rfl, rfl⟩ := Prod.mk.inj hr
    exact ⟨⟨rfl, rfl, rfl, rfl⟩, rfl, by simp, hne, by simpa using h, fun _ => rfl⟩
  | id :: ids, arc, arc', out, o, h, hne, hr => by
    obtain ⟨arc₁, o₁, o₂, h₁, h₂, ho⟩ := forEachPure_cons_eq hr
    change o = o₁ ++ o₂ at ho
    obtain ⟨hpo₁, hrec₁, hmap₁, hsent₁, hpol₁⟩ := removeProfileEndpoint_spec h hne h₁
    have hne₁ : arc₁.profileIDToEndpointKeys.NoEmpty := hmap₁ ▸ hne.discard id key
    obtain ⟨hpo₂, hrec₂, hmem₂, hne₂, hsent₂, hpol₂⟩ :=
      removeProfileEndpoints_spec key ids hsent₁ hne₁ h₂
    refine ⟨hpo₁.trans hpo₂, hrec₂.trans hrec₁, fun name e => ?_, hne₂, ?_, fun k => ?_⟩
    · rw [hmem₂, hmap₁, SetMap.mem_discard, List.mem_cons]
      tauto
    · rw [ho, ← List.append_assoc]
      exact hsent₂
    · rw [ho, lastPolicyEvent_append_of_none (hpol₂ k), hpol₁ k]

omit [DecidableEq PK] in
theorem updateEndpointProfileIDs_eq (key : EK) (profileIDs : List String) :
    arc.updateEndpointProfileIDs denyRule key profileIDs =
      let u := arc.endpointKeyToProfileIDs.update key profileIDs
      let added := forEachPure (addProfileEndpoint denyRule key) u.2.2.toList
        { arc with endpointKeyToProfileIDs := u.1 }
      let removed := forEachPure (removeProfileEndpoint denyRule key) u.2.1.toList added.1
      (removed.1, added.2 ++ removed.2) := rfl

/-- **`updateEndpointProfileIDs`**: the endpoint's profile IDs are recorded, the profile map
then holds the recorded IDs of every endpoint, and every profile whose activity changed is
sent. -/
theorem updateEndpointProfileIDs_spec {key : EK} {profileIDs : List String}
    (hm : ∀ name e, arc.profileIDToEndpointKeys.Mem name e ↔
      name ∈ arc.endpointKeyToProfileIDs.profileIDs e)
    (hne : arc.profileIDToEndpointKeys.NoEmpty) (hsent : ProfilesSent denyRule arc out)
    (hr : arc.updateEndpointProfileIDs denyRule key profileIDs = (arc', o)) :
    ProfilesOnly arc arc' ∧
      (∀ e, arc'.endpointKeyToProfileIDs.profileIDs e =
        if e = key then profileIDs else arc.endpointKeyToProfileIDs.profileIDs e) ∧
      (∀ name e, arc'.profileIDToEndpointKeys.Mem name e ↔
        name ∈ arc'.endpointKeyToProfileIDs.profileIDs e) ∧
      arc'.profileIDToEndpointKeys.NoEmpty ∧ ProfilesSent denyRule arc' (out ++ o) ∧
      ∀ k, lastPolicyEvent k o = none := by
  obtain ⟨hids, hrem, hadd, hadd'⟩ := arc.endpointKeyToProfileIDs.update_spec key profileIDs
  rw [updateEndpointProfileIDs_eq] at hr
  obtain ⟨rfl, rfl⟩ := Prod.mk.inj hr
  set u := arc.endpointKeyToProfileIDs.update key profileIDs
  -- the new IDs are recorded first, then the profiles are told
  have hadd₀ : forEachPure (addProfileEndpoint denyRule key) u.2.2.toList
      { arc with endpointKeyToProfileIDs := u.1 } = _ := rfl
  obtain ⟨hpo₁, hrec₁, hmem₁, hne₁, hsent₁, hpol₁⟩ :=
    addProfileEndpoints_spec key u.2.2.toList (by exact hsent) (by exact hne) hadd₀
  obtain ⟨hpo₂, hrec₂, hmem₂, hne₂, hsent₂, hpol₂⟩ :=
    removeProfileEndpoints_spec key u.2.1.toList hsent₁ hne₁ rfl
  have hrec : (forEachPure (removeProfileEndpoint denyRule key) u.2.1.toList
      (forEachPure (addProfileEndpoint denyRule key) u.2.2.toList
        { arc with endpointKeyToProfileIDs := u.1 }).1).1.endpointKeyToProfileIDs = u.1 :=
    hrec₂.trans hrec₁
  refine ⟨⟨hpo₂.1.trans hpo₁.1, hpo₂.2.trans hpo₁.2, hpo₂.3.trans hpo₁.3, hpo₂.4.trans hpo₁.4⟩,
    fun e => by rw [hrec, hids], fun name e => ?_, hne₂, by rwa [← List.append_assoc],
    fun k => by rw [lastPolicyEvent_append_of_none (hpol₂ k), hpol₁ k]⟩
  -- the endpoint joins the added profiles, then leaves the removed ones
  rw [hmem₂, hmem₁, hrec, hids, IterSet.mem_toList, IterSet.mem_toList]
  by_cases he : e = key
  · subst he
    rw [if_pos rfl, hm, hrem]
    have h₁ := hadd name
    have h₂ := hadd' name
    tauto
  · rw [if_neg he, hm]
    tauto

/-! ## The invariant -/

section Invariant

variable (denyRule) (evaluateLabels : Sel → (String → Option String) → Bool)
  (parseSelector : Pol → Option Sel)

/-- The index's selector `s` evaluates as the selector of `policy`. -/
def SelectorOf (s : Sel) (policy : Pol) : Prop :=
  ∃ sel, parseSelector policy = some sel ∧ evaluateLabels s = evaluateLabels sel

/-- **The invariant of the calculator**, with the calls `out` it has made: the index is
consistent and holds a selector for exactly the known policies, each evaluating as the
policy's own; the policy map holds the index's matches and the profile map the recorded
profile IDs, which are the parents of the index's items; neither map holds an empty set; and
the last call about every policy and profile is right for the maps. -/
structure Inv (arc : ActiveRulesCalculator EK PK Sel Pol R) (out : List (ArcCallback EK PK Pol R)) :
    Prop where
  consistent : Consistent evaluateLabels arc.labelIndex
  selectors : ∀ key, Option.Rel (SelectorOf evaluateLabels parseSelector)
    (arc.labelIndex.selectorsById.lookup key) (arc.allPolicies.lookup key)
  policyMatches : ∀ key e,
    arc.policyIDToEndpointKeys.Mem key e ↔ arc.labelIndex.labelIdsBySelId.Mem key e
  policyNoEmpty : arc.policyIDToEndpointKeys.NoEmpty
  profileIDs : ∀ e, arc.endpointKeyToProfileIDs.profileIDs e =
    ((arc.labelIndex.itemDataByID.lookup e).map ItemData.parents).getD []
  profileEndpoints : ∀ name e,
    arc.profileIDToEndpointKeys.Mem name e ↔ name ∈ arc.endpointKeyToProfileIDs.profileIDs e
  profileNoEmpty : arc.profileIDToEndpointKeys.NoEmpty
  policySent : PoliciesSent (Known arc) arc out
  profileSent : ProfilesSent denyRule arc out

theorem inv_new :
    Inv denyRule evaluateLabels parseSelector (newActiveRulesCalculator : ActiveRulesCalculator EK PK Sel Pol R) [] where
  consistent := consistent_new evaluateLabels
  selectors _ := by
    simp only [newActiveRulesCalculator, InheritIndex.new, AList.lookup_empty]
    exact .none
  policyMatches _ _ := by simp [newActiveRulesCalculator, InheritIndex.new, SetMap.Mem]
  policyNoEmpty _ _ h := by simp [newActiveRulesCalculator] at h
  profileIDs _ := by
    simp [newActiveRulesCalculator, InheritIndex.new, newEndpointKeyToProfileIDMap,
      EndpointKeyToProfileIDMap.profileIDs]
  profileEndpoints _ _ := by
    simp [newActiveRulesCalculator, newEndpointKeyToProfileIDMap,
      EndpointKeyToProfileIDMap.profileIDs, SetMap.Mem]
  profileNoEmpty _ _ h := by simp [newActiveRulesCalculator] at h
  policySent key := ⟨fun h => by simp [newActiveRulesCalculator] at h, fun _ => .inl rfl⟩
  profileSent name := ⟨fun h => by simp [newActiveRulesCalculator] at h, fun _ => .inl rfl⟩

end Invariant

/-! ## One update keeps the invariant -/

section Step

variable {evaluateLabels : Sel → (String → Option String) → Bool} {parseSelector : Pol → Option Sel}
  {UID : Type} [DecidableEq UID] {uniqueID : Sel → UID}

omit [DecidableEq EK] in
theorem known_eq_of_allPolicies (h : arc'.allPolicies = arc.allPolicies) : Known arc' = Known arc := by
  unfold Known
  rw [h]

omit [DecidableEq EK] [DecidableEq PK] in
/-- Setting the rules of one profile: an active profile is sent its new rules. -/
theorem ProfilesSent.setRules {name : String} (h : ProfilesSent denyRule arc out)
    (hmap : arc'.profileIDToEndpointKeys = arc.profileIDToEndpointKeys)
    (hrules : ∀ n, n ≠ name → arc'.allProfileRules.lookup n = arc.allProfileRules.lookup n) :
    ProfilesSent denyRule arc'
      (out ++ if name ∈ arc'.profileIDToEndpointKeys then arc'.sendProfileUpdate denyRule name else []) := by
  intro n
  by_cases hn : n = name
  · subst hn
    by_cases ha : n ∈ arc'.profileIDToEndpointKeys
    · rw [if_pos ha, sendProfileUpdate_eq, if_pos ha]
      exact ⟨fun _ => lastProfileEvent_append_of_some
        (by simp [lastProfileEvent, ArcCallback.profileName?]), fun hn => absurd ha hn⟩
    · rw [if_neg ha, List.append_nil]
      exact ⟨fun h' => absurd h' ha, fun _ => (h n).2 (hmap ▸ ha)⟩
  · have hnone : lastProfileEvent n
        (if name ∈ arc'.profileIDToEndpointKeys then arc'.sendProfileUpdate denyRule name else []) =
          none := by
      split_ifs
      · exact lastProfileEvent_sendProfileUpdate_ne hn
      · rfl
    rw [lastProfileEvent_append_of_none hnone, hmap, profileRules, hrules n hn]
    exact h n

/-- An operation of the index that keeps its items and selectors: a profile's labels or tags
change. -/
theorem Inv.updateLabelIndex_of_data (h : Inv denyRule evaluateLabels parseSelector arc out)
    {op : Op EK PK Sel} (hop : arc.updateLabelIndex evaluateLabels uniqueID op = .ok (arc', o))
    (hdata : ∀ idx' callbacks, arc.labelIndex.apply evaluateLabels uniqueID op = .ok (idx', callbacks) →
      idx'.itemDataByID = arc.labelIndex.itemDataByID ∧ idx'.selectorsById = arc.labelIndex.selectorsById) :
    Inv denyRule evaluateLabels parseSelector arc' (out ++ o) := by
  obtain ⟨⟨callbacks, happ⟩, hio, hc, hm, hne, hsent, hprof⟩ := updateLabelIndex_spec h.consistent
    h.policyMatches h.policyNoEmpty (fun _ _ hp => hp) h.policySent hop
  obtain ⟨hitems, hsel⟩ := hdata _ _ happ
  refine ⟨hc, fun key => ?_, hm, hne, fun e => ?_, fun name e => ?_, ?_, ?_, ?_⟩
  · rw [hsel, hio.allPolicies]
    exact h.selectors key
  · rw [hitems, hio.endpointKeyToProfileIDs]
    exact h.profileIDs e
  · rw [hio.profileIDToEndpointKeys, hio.endpointKeyToProfileIDs]
    exact h.profileEndpoints name e
  · rw [hio.profileIDToEndpointKeys]
    exact h.profileNoEmpty
  · rw [known_eq_of_allPolicies hio.allPolicies]
    exact hsent
  · exact h.profileSent.frame hio.profileIDToEndpointKeys hio.allProfileRules hprof

variable [DecidableEq Pol] [DecidableEq R]

/-- An endpoint update that does not panic records the profile IDs, then runs the endpoint's
operation on the index. -/
theorem onUpdate_endpoint_eq_ok {key : EK} {value : Option LocalEndpoint}
    (hop : arc.onUpdate denyRule evaluateLabels uniqueID parseSelector (.endpoint key value) =
      .ok (arc', o)) :
    ∃ arc₁ sent o₂,
      arc.updateEndpointProfileIDs denyRule key ((value.map (·.profileIDs)).getD []) = (arc₁, sent) ∧
        arc₁.updateLabelIndex evaluateLabels uniqueID (endpointOp key value) = .ok (arc', o₂) ∧
        o = sent ++ o₂ := by
  simp only [onUpdate] at hop
  rcases hu : arc.updateEndpointProfileIDs denyRule key ((value.map (·.profileIDs)).getD []) with
    ⟨arc₁, sent⟩
  rw [hu] at hop
  obtain ⟨⟨arc₂, o₂⟩, hidx, hr⟩ := map_eq_ok hop
  obtain ⟨rfl, rfl⟩ := Prod.mk.inj hr
  exact ⟨arc₁, sent, o₂, hu, hidx, rfl⟩

/-- An update of a local endpoint: its profile IDs, then its labels and parents in the index. -/
theorem Inv.onEndpoint (h : Inv denyRule evaluateLabels parseSelector arc out) {key : EK}
    {value : Option LocalEndpoint}
    (hop : arc.onUpdate denyRule evaluateLabels uniqueID parseSelector (.endpoint key value) =
      .ok (arc', o)) :
    Inv denyRule evaluateLabels parseSelector arc' (out ++ o) := by
  obtain ⟨arc₁, sent, o₂, hu, hidx, rfl⟩ := onUpdate_endpoint_eq_ok hop
  -- the profile IDs first
  obtain ⟨hpo, hids, hmem₁, hne₁, hsent₁, hpol₁⟩ :=
    updateEndpointProfileIDs_spec h.profileEndpoints h.profileNoEmpty h.profileSent hu
  have hpsent₁ : PoliciesSent (Known arc) arc₁ (out ++ sent) :=
    h.policySent.frame hpo.policyIDToEndpointKeys hpol₁
  -- then the index
  obtain ⟨⟨callbacks, happ⟩, hio, hc, hm, hne, hsent, hprof⟩ :=
    updateLabelIndex_spec (hpo.labelIndex ▸ h.consistent)
      (by rw [hpo.policyIDToEndpointKeys, hpo.labelIndex]; exact h.policyMatches)
      (hpo.policyIDToEndpointKeys ▸ h.policyNoEmpty)
      (fun _ _ hp => by unfold Known; rwa [← hpo.allPolicies]) hpsent₁ hidx
  rw [hpo.labelIndex] at happ
  -- what the index now holds for the endpoint
  have hdata : (∀ e, ((arc'.labelIndex.itemDataByID.lookup e).map ItemData.parents).getD [] =
      if e = key then (value.map (·.profileIDs)).getD []
      else ((arc.labelIndex.itemDataByID.lookup e).map ItemData.parents).getD []) ∧
      arc'.labelIndex.selectorsById = arc.labelIndex.selectorsById := by
    cases value with
    | some endpoint =>
      obtain ⟨hitems, hsel⟩ := updateLabels_data evaluateLabels happ
      refine ⟨fun e => ?_, hsel⟩
      rw [hitems]
      by_cases he : e = key
      · subst he
        simp
      · simp [AList.lookup_insert_ne he, he]
    | none =>
      obtain ⟨hitems, hsel⟩ := deleteLabels_data evaluateLabels happ
      refine ⟨fun e => ?_, hsel⟩
      rw [hitems]
      by_cases he : e = key
      · subst he
        simp
      · simp [AList.lookup_erase_ne he, he]
  refine ⟨hc, fun key => ?_, hm, hne, fun e => ?_, fun name e => ?_, ?_, ?_, ?_⟩
  · rw [hdata.2, hio.allPolicies, hpo.allPolicies]
    exact h.selectors key
  · rw [hio.endpointKeyToProfileIDs, hids, hdata.1, h.profileIDs]
  · rw [hio.profileIDToEndpointKeys, hio.endpointKeyToProfileIDs]
    exact hmem₁ name e
  · rw [hio.profileIDToEndpointKeys]
    exact hne₁
  · rw [known_eq_of_allPolicies (hio.allPolicies.trans hpo.allPolicies), ← List.append_assoc]
    exact hsent
  · rw [← List.append_assoc]
    exact hsent₁.frame hio.profileIDToEndpointKeys hio.allProfileRules hprof

/-- An update of a profile's rules: an active profile is sent them. -/
theorem Inv.onProfileRules (h : Inv denyRule evaluateLabels parseSelector arc out) {name : String}
    {value : Option (ProfileRules R)}
    (hop : arc.onUpdate denyRule evaluateLabels uniqueID parseSelector (.profileRules name value) =
      .ok (arc', o)) :
    Inv denyRule evaluateLabels parseSelector arc' (out ++ o) := by
  -- only the rules change, and the calls are about the profile alone
  have hrest : ∀ arc₁ : ActiveRulesCalculator EK PK Sel Pol R,
      arc₁ = { arc with allProfileRules := arc₁.allProfileRules } →
      (∀ n, n ≠ name → arc₁.allProfileRules.lookup n = arc.allProfileRules.lookup n) →
      Inv denyRule evaluateLabels parseSelector arc₁
        (out ++ if name ∈ arc₁.profileIDToEndpointKeys then arc₁.sendProfileUpdate denyRule name
          else []) := by
    intro arc₁ harc hrules
    have hmap : arc₁.profileIDToEndpointKeys = arc.profileIDToEndpointKeys := by rw [harc]
    have hpol : ∀ key, lastPolicyEvent key
        (if name ∈ arc₁.profileIDToEndpointKeys then arc₁.sendProfileUpdate denyRule name
          else []) = none := by
      intro key
      split_ifs
      · exact lastPolicyEvent_sendProfileUpdate key name
      · rfl
    rw [harc] at hrules hmap hpol ⊢
    exact ⟨h.consistent, h.selectors, h.policyMatches, h.policyNoEmpty, h.profileIDs,
      h.profileEndpoints, h.profileNoEmpty, h.policySent.frame rfl hpol,
      h.profileSent.setRules hmap hrules⟩
  cases value with
  | some rules =>
    simp only [onUpdate] at hop
    by_cases hsame : arc.allProfileRules.lookup name = some rules
    · -- the rules held: nothing changes
      rw [if_pos hsame] at hop
      obtain ⟨rfl, rfl⟩ := Prod.mk.inj (Except.ok.inj hop)
      simpa using h
    · rw [if_neg hsame] at hop
      obtain ⟨rfl, rfl⟩ := Prod.mk.inj (Except.ok.inj hop)
      exact hrest _ rfl fun n hn => AList.lookup_insert_ne hn
  | none =>
    simp only [onUpdate] at hop
    obtain ⟨rfl, rfl⟩ := Prod.mk.inj (Except.ok.inj hop)
    exact hrest _ rfl fun n hn => AList.lookup_erase_ne hn

/-- An update of a policy: the index takes its selector, and an active policy is sent whole. -/
theorem Inv.onPolicy (huid : ∀ s s', uniqueID s = uniqueID s' → evaluateLabels s = evaluateLabels s')
    (h : Inv denyRule evaluateLabels parseSelector arc out) {key : PK} {policy : Pol}
    (hop : arc.onUpdate denyRule evaluateLabels uniqueID parseSelector (.policy key (some policy)) =
      .ok (arc', o)) :
    Inv denyRule evaluateLabels parseSelector arc' (out ++ o) := by
  simp only [onUpdate] at hop
  by_cases hsame : arc.allPolicies.lookup key = some policy
  · -- the policy held: nothing changes
    rw [if_pos hsame] at hop
    obtain ⟨rfl, rfl⟩ := Prod.mk.inj (Except.ok.inj hop)
    simpa using h
  rw [if_neg hsame] at hop
  rcases hp : parseSelector policy with _ | sel
  · rw [hp] at hop
    cases hop
  rw [hp] at hop
  obtain ⟨⟨arc₂, callbacks⟩, hidx, hrest⟩ := bind_eq_ok hop
  -- until the end, the policy may still be last sent with its old value
  have hsent₁ : PoliciesSent (fun k p => k = key ∨ (arc.allPolicies.insert key policy).lookup k = some p)
      { arc with allPolicies := arc.allPolicies.insert key policy } out := fun k =>
    (h.policySent k).mono fun p hk => by
      by_cases hk' : k = key
      · exact .inl hk'
      · exact .inr (by rw [AList.lookup_insert_ne hk']; exact hk)
  obtain ⟨⟨cbs, happ⟩, hio, hc, hm, hne, hsent, hprof⟩ :=
    updateLabelIndex_spec (by exact h.consistent) (by exact h.policyMatches)
      (by exact h.policyNoEmpty) (fun _ _ hp => .inr hp) hsent₁ hidx
  obtain ⟨hitems, hsel, held, hheld, hheldUid⟩ := updateSelector_data evaluateLabels happ
  have hall : arc₂.allPolicies = arc.allPolicies.insert key policy := hio.allPolicies
  -- an active policy is sent with its new value
  have hfinal : ∃ sent, (arc₂, callbacks ++ sent) = (arc', o) ∧
      (key ∈ arc₂.policyIDToEndpointKeys → sent = [.onPolicyActive key policy]) ∧
      (key ∉ arc₂.policyIDToEndpointKeys → sent = []) := by
    by_cases ha : key ∈ arc₂.policyIDToEndpointKeys
    · rw [if_pos ha] at hrest
      obtain ⟨sent, hs, hrest⟩ := bind_eq_ok hrest
      obtain ⟨p', hp', rfl⟩ := sendPolicyUpdate_of_active ha hs
      rw [hall, AList.lookup_insert] at hp'
      cases hp'
      exact ⟨_, Except.ok.inj hrest, fun _ => rfl, fun hn => absurd ha hn⟩
    · rw [if_neg ha] at hrest
      exact ⟨[], Except.ok.inj hrest, fun hn => absurd hn ha, fun _ => rfl⟩
  obtain ⟨sent, hres, hact, hinact⟩ := hfinal
  obtain ⟨rfl, rfl⟩ := Prod.mk.inj hres
  have hsentKey : ∀ k, k ≠ key → lastPolicyEvent k sent = none := fun k hk => by
    by_cases ha : key ∈ arc₂.policyIDToEndpointKeys
    · rw [hact ha]
      simp [lastPolicyEvent, ArcCallback.policyKey?, Ne.symm hk]
    · rw [hinact ha]
      rfl
  have hsentProf : ∀ name, lastProfileEvent name sent = none := fun name => by
    by_cases ha : key ∈ arc₂.policyIDToEndpointKeys
    · rw [hact ha]
      rfl
    · rw [hinact ha]
      rfl
  refine ⟨hc, fun k => ?_, hm, hne, fun e => ?_, fun name e => ?_, ?_, fun k => ?_, ?_⟩
  · by_cases hk : k = key
    · -- the held selector has the unique ID of the new one, so it evaluates alike
      subst hk
      rw [hheld, hall, AList.lookup_insert]
      exact .some ⟨sel, hp, huid _ _ hheldUid⟩
    · rw [hsel k hk, hall, AList.lookup_insert_ne hk]
      exact h.selectors k
  · rw [hitems, hio.endpointKeyToProfileIDs]
    exact h.profileIDs e
  · rw [hio.profileIDToEndpointKeys, hio.endpointKeyToProfileIDs]
    exact h.profileEndpoints name e
  · rw [hio.profileIDToEndpointKeys]
    exact h.profileNoEmpty
  · rw [← List.append_assoc]
    by_cases hk : k = key
    · subst hk
      refine ⟨fun ha => ⟨policy, by unfold Known; rw [hall, AList.lookup_insert], ?_⟩,
        fun ha => ?_⟩
      · rw [hact ha]
        exact lastPolicyEvent_append_of_some (by simp [lastPolicyEvent, ArcCallback.policyKey?])
      · rw [hinact ha, List.append_nil]
        exact (hsent k).2 ha
    · rw [lastPolicyEvent_append_of_none (hsentKey k hk)]
      refine (hsent k).mono fun p hq => ?_
      unfold Known
      rw [hall]
      exact hq.resolve_left hk
  · rw [← List.append_assoc]
    exact (h.profileSent.frame hio.profileIDToEndpointKeys hio.allProfileRules hprof).frame rfl rfl
      hsentProf

/-- A policy is deleted: the index drops its selector, whose matches stop. -/
theorem Inv.onPolicyDelete (h : Inv denyRule evaluateLabels parseSelector arc out) {key : PK}
    (hop : arc.onUpdate denyRule evaluateLabels uniqueID parseSelector (.policy key none) =
      .ok (arc', o)) :
    Inv denyRule evaluateLabels parseSelector arc' (out ++ o) := by
  simp only [onUpdate] at hop
  have hsent₁ : PoliciesSent (fun k p => k = key ∨ (arc.allPolicies.erase key).lookup k = some p)
      { arc with allPolicies := arc.allPolicies.erase key } out := fun k =>
    (h.policySent k).mono fun p hk => by
      by_cases hk' : k = key
      · exact .inl hk'
      · exact .inr (by rw [AList.lookup_erase_ne hk']; exact hk)
  obtain ⟨⟨cbs, happ⟩, hio, hc, hm, hne, hsent, hprof⟩ :=
    updateLabelIndex_spec (by exact h.consistent) (by exact h.policyMatches)
      (by exact h.policyNoEmpty) (fun _ _ hp => .inr hp) hsent₁ hop
  obtain ⟨hitems, hsel⟩ := deleteSelector_data happ
  have hall : arc'.allPolicies = arc.allPolicies.erase key := hio.allPolicies
  -- the policy has no selector left, so no match, and it is not active
  have hinact : key ∉ arc'.policyIDToEndpointKeys := by
    intro ha
    obtain ⟨e, he⟩ := hne.mem_keys_iff.mp ha
    have hkey := selector_of_matches evaluateLabels ((hc.recorded_iff (key, e)).mp ((hm key e).mp he))
    rw [hsel, AList.mem_erase] at hkey
    exact hkey.1 rfl
  refine ⟨hc, fun k => ?_, hm, hne, fun e => ?_, fun name e => ?_, ?_, fun k => ?_, ?_⟩
  · rw [hsel, hall]
    by_cases hk : k = key
    · subst hk
      simp only [AList.lookup_erase]
      exact .none
    · rw [AList.lookup_erase_ne hk, AList.lookup_erase_ne hk]
      exact h.selectors k
  · rw [hitems, hio.endpointKeyToProfileIDs]
    exact h.profileIDs e
  · rw [hio.profileIDToEndpointKeys, hio.endpointKeyToProfileIDs]
    exact h.profileEndpoints name e
  · rw [hio.profileIDToEndpointKeys]
    exact h.profileNoEmpty
  · by_cases hk : k = key
    · subst hk
      exact ⟨fun ha => absurd ha hinact, (hsent k).2⟩
    · refine (hsent k).mono fun p hq => ?_
      unfold Known
      rw [hall]
      exact hq.resolve_left hk
  · exact h.profileSent.frame hio.profileIDToEndpointKeys hio.allProfileRules hprof

/-- **One update** that does not panic keeps the invariant. -/
theorem Inv.onUpdate (huid : ∀ s s', uniqueID s = uniqueID s' → evaluateLabels s = evaluateLabels s')
    (h : Inv denyRule evaluateLabels parseSelector arc out) {update : ArcUpdate EK PK Pol R}
    (hop : arc.onUpdate denyRule evaluateLabels uniqueID parseSelector update = .ok (arc', o)) :
    Inv denyRule evaluateLabels parseSelector arc' (out ++ o) := by
  cases update with
  | endpoint key value => exact h.onEndpoint hop
  | policy key value =>
    cases value with
    | some policy => exact h.onPolicy huid hop
    | none => exact h.onPolicyDelete hop
  | profileRules name value => exact h.onProfileRules hop
  | profileLabels name value =>
    -- a profile's labels and tags are the index's parents: no item or selector changes
    cases value with
    | some labels =>
      exact h.updateLabelIndex_of_data hop fun _ _ happ => updateParent_data evaluateLabels happ
    | none =>
      exact h.updateLabelIndex_of_data hop fun _ _ happ => deleteParent_data evaluateLabels happ
  | profileTags name value =>
    cases value with
    | some tags =>
      exact h.updateLabelIndex_of_data hop fun _ _ happ => updateParent_data evaluateLabels happ
    | none =>
      exact h.updateLabelIndex_of_data hop fun _ _ happ => deleteParent_data evaluateLabels happ

/-- **A run** of updates that does not panic keeps the invariant. -/
theorem Inv.runFrom (huid : ∀ s s', uniqueID s = uniqueID s' → evaluateLabels s = evaluateLabels s')
    (h : Inv denyRule evaluateLabels parseSelector arc out) (updates : List (ArcUpdate EK PK Pol R))
    (hrun : runFrom denyRule evaluateLabels uniqueID parseSelector updates arc = .ok (arc', o)) :
    Inv denyRule evaluateLabels parseSelector arc' (out ++ o) := by
  induction updates generalizing arc out arc' o with
  | nil =>
    obtain ⟨rfl, rfl⟩ := Prod.mk.inj (Except.ok.inj hrun)
    simpa using h
  | cons update updates ih =>
    obtain ⟨arc₁, o₁, arc₂, o₂, h₁, h₂, hr⟩ := forEach_cons_eq_ok hrun
    obtain ⟨rfl, rfl⟩ := Prod.mk.inj hr
    rw [← List.append_assoc]
    exact ih (h.onUpdate huid h₁) h₂

end Step

/-! ## Activity in terms of the local endpoints -/

section Active

variable (evaluateLabels : Sel → (String → Option String) → Bool) (parseSelector : Pol → Option Sel)

/-- A policy is active when it is known and its selector matches the labels of some local
endpoint: its own, then those its profiles give it. -/
def PolicyActive (arc : ActiveRulesCalculator EK PK Sel Pol R) (key : PK) : Prop :=
  ∃ policy sel, arc.allPolicies.lookup key = some policy ∧ parseSelector policy = some sel ∧
    ∃ e d, arc.labelIndex.itemDataByID.lookup e = some d ∧
      evaluateLabels sel (arc.labelIndex.get d) = true

/-- A profile is active when some local endpoint lists it among its profile IDs. -/
def ProfileActive (arc : ActiveRulesCalculator EK PK Sel Pol R) (name : String) : Prop :=
  ∃ e d, arc.labelIndex.itemDataByID.lookup e = some d ∧ name ∈ d.parents

variable {evaluateLabels parseSelector}

/-- The selector the index holds for a known policy evaluates as the policy's own. -/
theorem Inv.selector_of_known (h : Inv denyRule evaluateLabels parseSelector arc out) {key : PK}
    {policy : Pol} (hpol : arc.allPolicies.lookup key = some policy) :
    ∃ s, arc.labelIndex.selectorsById.lookup key = some s ∧
      SelectorOf evaluateLabels parseSelector s policy := by
  have hrel := h.selectors key
  rw [hpol] at hrel
  generalize arc.labelIndex.selectorsById.lookup key = l at hrel
  cases hrel with
  | some hs => exact ⟨_, rfl, hs⟩

/-- A selector the index holds is that of a known policy. -/
theorem Inv.known_of_selector (h : Inv denyRule evaluateLabels parseSelector arc out) {key : PK}
    {s : Sel} (hs : arc.labelIndex.selectorsById.lookup key = some s) :
    ∃ policy, arc.allPolicies.lookup key = some policy ∧
      SelectorOf evaluateLabels parseSelector s policy := by
  have hrel := h.selectors key
  rw [hs] at hrel
  generalize arc.allPolicies.lookup key = l at hrel
  cases hrel with
  | some hp => exact ⟨_, rfl, hp⟩

/-- A policy has a set in the policy map exactly when it is active. -/
theorem Inv.policyActive_iff (h : Inv denyRule evaluateLabels parseSelector arc out) (key : PK) :
    arc.PolicyActive evaluateLabels parseSelector key ↔ key ∈ arc.policyIDToEndpointKeys := by
  rw [h.policyNoEmpty.mem_keys_iff]
  -- the map holds the index's matches
  have hmatch : ∀ e, arc.policyIDToEndpointKeys.Mem key e ↔
      Matches evaluateLabels arc.labelIndex (key, e) := fun e =>
    (h.policyMatches key e).trans (h.consistent.recorded_iff (key, e))
  simp only [hmatch]
  constructor
  · rintro ⟨policy, sel, hpol, hsel, e, d, hd, he⟩
    obtain ⟨s, hs, sel', hsel', heval⟩ := h.selector_of_known hpol
    rw [hsel] at hsel'
    cases hsel'
    exact ⟨e, s, d, hs, hd, by rw [heval]; exact he⟩
  · rintro ⟨e, s, d, hs, hd, he⟩
    obtain ⟨policy, hpol, sel, hsel, heval⟩ := h.known_of_selector hs
    exact ⟨policy, sel, hpol, hsel, e, d, hd, by rw [← heval]; exact he⟩

/-- A profile has a set in the profile map exactly when it is active. -/
theorem Inv.profileActive_iff (h : Inv denyRule evaluateLabels parseSelector arc out)
    (name : String) : arc.ProfileActive name ↔ name ∈ arc.profileIDToEndpointKeys := by
  rw [h.profileNoEmpty.mem_keys_iff]
  simp only [h.profileEndpoints, h.profileIDs]
  constructor
  · rintro ⟨e, d, hd, hn⟩
    exact ⟨e, by rw [hd]; exact hn⟩
  · rintro ⟨e, he⟩
    cases hd : arc.labelIndex.itemDataByID.lookup e with
    | none => simp [hd] at he
    | some d => exact ⟨e, d, hd, by simpa [hd] using he⟩

end Active

end ActiveRulesCalculator

end Felix.Calc
