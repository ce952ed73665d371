import Felix.Calc.SequencerSim

/-!
# Flushes are dependency-safe

`Flush` sends its messages in an order meant to keep the consumer referentially closed
after every single message: IP sets before the policies and profiles that name them,
policies and profiles before the endpoints that name them, and the removals the other way
round. This module proves that it does. For every run in which the sequencer does not panic
and the calculation graph's state is closed after every call, every state the consumer
passes through, message by message, is closed. No IP set protocol is assumed.

The invariant `Tracks` is the simulation's `Stands` with a weaker relation on IP sets,
`SetTracks`, which records only whether a set exists: downstream exactly when it was sent,
upstream exactly when its addition is pending or it was sent and its removal is not. That
much survives calls that break the protocol, and it is all the closure argument needs. The
flush is run against a consumer that refuses to enter a state that is not closed
(`closedTake`); that it takes every message is the theorem.

## Main definitions

* `SetTracks v down up`, `Tracks buf down up`
* `closedTake`: the consumer that refuses to leave the closed states

## Main results

* `Tracks.step`: a call that does not panic keeps the invariant
* `Tracks.flush`: every message of a flush keeps the consumer closed
* `eventSequencer_dependency_safe`: the whole run, from `NewEventSequencer`
-/

namespace Felix.Calc

open Replication EventSequencer Felix.Calc.Dataplane

variable {P : Payloads}

/-- The record `v` of one IP set agrees with the consumer (`down`) and the calls (`up`) as
to whether the set exists: the consumer holds it exactly when it was sent, and it exists
upstream exactly when its addition is pending or it was sent and its removal is not. -/
structure SetTracks (v : SetView P) (down up : Option (P.SetType × Finset P.Member)) : Prop where
  sent_eq : v.sent = down.isSome
  up_eq : up.isSome = (v.added.isSome || v.sent && !v.removed)
  not_removed_of_added : v.added.isSome → v.removed = false
  sent_of_removed : v.removed = true → v.sent = true

/-- The invariant of dependency safety: every IP set's record tracks whether the set exists,
and each keyed buffer replicates. -/
abbrev Tracks (buf : EventSequencer P) (down up : Dataplane P) : Prop :=
  Stands SetTracks buf down up

theorem tracks_new : Tracks (EventSequencer.new : EventSequencer P) .empty .empty where
  ipSets s := ⟨by simp [setView, EventSequencer.new, Dataplane.empty],
    by simp [setView, EventSequencer.new, Dataplane.empty], by simp [setView, EventSequencer.new],
    by simp [setView, EventSequencer.new]⟩
  policies := replicates_empty
  profiles := replicates_empty
  endpoints := replicates_empty

/-! ## One set's record -/

section SetTracks

variable {v : SetView P} {down up : Option (P.SetType × Finset P.Member)}

/-- `OnIPSetAdded`: the set exists upstream and its addition is pending. -/
theorem SetTracks.ipSetAdded (h : SetTracks v down up) (t : P.SetType)
    (o : P.SetType × Finset P.Member) :
    SetTracks ⟨some t, false, v.sent, ∅, ∅⟩ down (some o) where
  sent_eq := h.sent_eq
  up_eq := by simp
  not_removed_of_added _ := rfl
  sent_of_removed hr := absurd hr Bool.false_ne_true

/-- `OnIPSetRemoved`: the set is gone upstream, and its removal is pending if it was sent. -/
theorem SetTracks.ipSetRemoved (h : SetTracks v down up) :
    SetTracks ⟨none, v.sent || v.removed, v.sent, ∅, ∅⟩ down none where
  sent_eq := h.sent_eq
  up_eq := by cases v.sent <;> simp
  not_removed_of_added ha := absurd ha (by simp)
  sent_of_removed hr := by
    rcases Bool.or_eq_true_iff.mp hr with hs | hr
    · exact hs
    · exact h.sent_of_removed hr

/-- A change that leaves the record's addition, removal and sending alone, and whether the
set exists on either side, keeps the relation: the member calls and deltas. -/
theorem SetTracks.congr (h : SetTracks v down up) {w : SetView P}
    {down' up' : Option (P.SetType × Finset P.Member)} (hadd : w.added = v.added)
    (hrem : w.removed = v.removed) (hsent : w.sent = v.sent)
    (hdown : down'.isSome = down.isSome) (hup : up'.isSome = up.isSome) :
    SetTracks w down' up' where
  sent_eq := by rw [hsent, hdown]; exact h.sent_eq
  up_eq := by rw [hup, hadd, hrem, hsent]; exact h.up_eq
  not_removed_of_added := by rw [hadd, hrem]; exact h.not_removed_of_added
  sent_of_removed := by rw [hrem, hsent]; exact h.sent_of_removed

/-- A turn of `flushAddedIPSets`: the set is now sent and held downstream. -/
theorem SetTracks.flushAddedIPSet (h : SetTracks v down up) {t : P.SetType}
    (ht : v.added = some t) (o : P.SetType × Finset P.Member) :
    SetTracks { v with added := none, sent := true, addedMembers := ∅ } (some o) up where
  sent_eq := rfl
  up_eq := by
    -- a set with a pending addition has no pending removal, and exists upstream
    have hr : v.removed = false := h.not_removed_of_added (by simp [ht])
    rw [h.up_eq, ht, hr]
    rfl
  not_removed_of_added ha := absurd ha (by simp)
  sent_of_removed _ := rfl

/-- A turn of `flushRemovedIPSets`: the set is neither sent nor held downstream. -/
theorem SetTracks.flushRemovedIPSet (h : SetTracks v down up) (hr : v.removed = true) :
    SetTracks { v with removed := false, sent := false, addedMembers := ∅, removedMembers := ∅ }
      none up where
  sent_eq := rfl
  up_eq := by
    -- a set with a pending removal has no pending addition, and does not exist upstream
    have hadd : v.added = none := by
      cases hv : v.added with
      | none => rfl
      | some t =>
        have hr' := h.not_removed_of_added (by simp [hv])
        rw [hr] at hr'
        cases hr'
    rw [h.up_eq, hadd, hr]
    simp
  not_removed_of_added _ := rfl
  sent_of_removed hr := absurd hr Bool.false_ne_true

/-- With no addition pending, a set that exists upstream is held downstream. -/
theorem SetTracks.down_isSome (h : SetTracks v down up) (hadd : v.added = none)
    (hup : up.isSome) : down.isSome := by
  rw [h.up_eq, hadd] at hup
  simp only [Option.isSome_none, Bool.false_or, Bool.and_eq_true, Bool.not_eq_eq_eq_not,
    Bool.not_true] at hup
  rw [← h.sent_eq]
  exact hup.1

/-- A set whose removal is pending does not exist upstream. -/
theorem SetTracks.up_eq_none (h : SetTracks v down up) (hr : v.removed = true) : up = none := by
  have hadd : v.added = none := by
    cases hv : v.added with
    | none => rfl
    | some t =>
      have hr' := h.not_removed_of_added (by simp [hv])
      rw [hr] at hr'
      cases hr'
  have hup := h.up_eq
  rw [hadd, hr] at hup
  simpa using hup

end SetTracks

/-! ## The calls, with no protocol -/

section Calls

variable {buf buf' : EventSequencer P} {down up : Dataplane P}

/-- An IP set call that returns a state sends nothing. -/
theorem ok_of_map_eq_ok {x : Except String (EventSequencer P)}
    {r : EventSequencer P × List (Message P)} (h : (·, []) <$> x = Except.ok r) :
    ∃ b, x = .ok b ∧ r = (b, []) := by
  cases x with
  | error e => cases h
  | ok b => exact ⟨b, rfl, (Except.ok.inj h).symm⟩

/-- **One call**: a call other than `Flush` that does not panic sends nothing and keeps the
invariant for the upstream state it describes, whether or not it keeps to the protocol. -/
theorem Tracks.step (h : Tracks buf down up) {c : Call P} (hc : c ≠ .flush)
    {ms : List (Message P)} (hstep : buf.step c = .ok (buf', ms)) :
    ms = [] ∧ Tracks buf' down (upstreamStep up c) := by
  cases c with
  | ipSetAdded s t =>
    obtain ⟨b, hb, hr⟩ := ok_of_map_eq_ok hstep
    obtain ⟨rfl, rfl⟩ := Prod.mk.inj hr
    obtain ⟨-, hview, hother, hpol, hprof, hend⟩ := onIPSetAdded_eq_ok hb
    refine ⟨rfl, h.setCall ?_ hother hpol hprof hend⟩
    rw [hview]
    exact (h.ipSets s).ipSetAdded t _
  | ipSetRemoved s =>
    obtain ⟨b, hb, hr⟩ := ok_of_map_eq_ok hstep
    obtain ⟨rfl, rfl⟩ := Prod.mk.inj hr
    obtain ⟨-, hview, hother, hpol, hprof, hend⟩ := onIPSetRemoved_eq_ok hb
    refine ⟨rfl, h.setCall ?_ hother hpol hprof hend⟩
    rw [hview]
    exact (h.ipSets s).ipSetRemoved
  | ipSetMemberAdded s m =>
    obtain ⟨b, hb, hr⟩ := ok_of_map_eq_ok hstep
    obtain ⟨rfl, rfl⟩ := Prod.mk.inj hr
    obtain ⟨-, hview, hother, hpol, hprof, hend⟩ := onIPSetMemberAdded_eq_ok hb
    refine ⟨rfl, h.setCall ?_ hother hpol hprof hend⟩
    -- only the members change, on both sides
    rw [hview]
    split_ifs <;> exact (h.ipSets s).congr rfl rfl rfl rfl Option.isSome_map
  | ipSetMemberRemoved s m =>
    obtain ⟨b, hb, hr⟩ := ok_of_map_eq_ok hstep
    obtain ⟨rfl, rfl⟩ := Prod.mk.inj hr
    obtain ⟨-, hview, hother, hpol, hprof, hend⟩ := onIPSetMemberRemoved_eq_ok hb
    refine ⟨rfl, h.setCall ?_ hother hpol hprof hend⟩
    rw [hview]
    split_ifs <;> exact (h.ipSets s).congr rfl rfl rfl rfl Option.isSome_map
  -- the keyed kinds: the buffer's own lemmas
  | policyActive k r =>
    obtain ⟨rfl, rfl⟩ := Prod.mk.inj (Except.ok.inj hstep).symm
    exact ⟨rfl, h.ipSets, h.policies.update k r, h.profiles, h.endpoints⟩
  | policyInactive k =>
    obtain ⟨rfl, rfl⟩ := Prod.mk.inj (Except.ok.inj hstep).symm
    exact ⟨rfl, h.ipSets, h.policies.remove k, h.profiles, h.endpoints⟩
  | profileActive k r =>
    obtain ⟨rfl, rfl⟩ := Prod.mk.inj (Except.ok.inj hstep).symm
    exact ⟨rfl, h.ipSets, h.policies, h.profiles.update k r, h.endpoints⟩
  | profileInactive k =>
    obtain ⟨rfl, rfl⟩ := Prod.mk.inj (Except.ok.inj hstep).symm
    exact ⟨rfl, h.ipSets, h.policies, h.profiles.remove k, h.endpoints⟩
  | endpointTierUpdate k ep tiers =>
    obtain ⟨rfl, rfl⟩ := Prod.mk.inj (Except.ok.inj hstep).symm
    cases ep with
    | none => exact ⟨rfl, h.ipSets, h.policies, h.profiles, h.endpoints.remove k⟩
    | some ep => exact ⟨rfl, h.ipSets, h.policies, h.profiles, h.endpoints.update k (ep, tiers)⟩
  | flush => exact absurd rfl hc

end Calls

/-! ## The flush, message by message -/

section Flush

variable (ipSetsOf : P.Rules → List P.SetID) (policiesOf : P.Tiers → List P.PolicyKey)
  (profilesOf : P.Endpoint → List P.ProfileKey)

open Classical in
/-- The consumer that reads each message as `MockDataplane.OnEvent` does and refuses to
enter a state that is not referentially closed. -/
noncomputable def closedTake : Dataplane P → Message P → Option (Dataplane P) :=
  guarded (Closed ipSetsOf policiesOf profilesOf) Dataplane.apply

variable {ipSetsOf policiesOf profilesOf}

open Classical in
/-- A message safe for a closed state is taken. -/
theorem closedTake_of_safeFor {d : Dataplane P} {m : Message P}
    (hd : Closed ipSetsOf policiesOf profilesOf d) (hm : SafeFor ipSetsOf policiesOf profilesOf d m) :
    closedTake ipSetsOf policiesOf profilesOf d m = some (d.apply m) :=
  guarded_eq_some.mpr ⟨rfl, hd.apply hm⟩

variable {buf : EventSequencer P} {down up : Dataplane P}

/-- During the update phases, an update carries the upstream value, which names only what
exists upstream; with the IP set additions sent, that is held downstream. -/
theorem Tracks.safeFor_policyUpdate (h : Tracks buf down up)
    (hup : Closed ipSetsOf policiesOf profilesOf up) (hset : IPSetsSettled buf)
    {k : P.PolicyKey} {r : P.Rules} (hk : buf.policies.pendingUpdates.lookup k = some r) :
    SafeFor ipSetsOf policiesOf profilesOf down (.activePolicyUpdate k r) := by
  have hupk : up.policies k = some r :=
    (h.policies.up_of_update k (AList.lookup_isSome.mp (by simp [hk]))).trans hk
  intro s hs
  exact (h.ipSets s).down_isSome (hset s).1 (hup.policies k r hupk s hs)

theorem Tracks.safeFor_profileUpdate (h : Tracks buf down up)
    (hup : Closed ipSetsOf policiesOf profilesOf up) (hset : IPSetsSettled buf)
    {k : P.ProfileKey} {r : P.Rules} (hk : buf.profiles.pendingUpdates.lookup k = some r) :
    SafeFor ipSetsOf policiesOf profilesOf down (.activeProfileUpdate k r) := by
  have hupk : up.profiles k = some r :=
    (h.profiles.up_of_update k (AList.lookup_isSome.mp (by simp [hk]))).trans hk
  intro s hs
  exact (h.ipSets s).down_isSome (hset s).1 (hup.profiles k r hupk s hs)

/-- An endpoint update names only policies and profiles that exist upstream; with their
updates sent, those are held downstream. -/
theorem Tracks.safeFor_endpointUpdate (h : Tracks buf down up)
    (hup : Closed ipSetsOf policiesOf profilesOf up) (hpolU : ∀ k, k ∉ buf.policies.pendingUpdates)
    (hprofU : ∀ k, k ∉ buf.profiles.pendingUpdates)
    {k : P.EndpointKey} {e : P.Endpoint × P.Tiers}
    (hk : buf.endpoints.pendingUpdates.lookup k = some e) :
    SafeFor ipSetsOf policiesOf profilesOf down (.endpointUpdate k e.1 e.2) := by
  have hupk : up.endpoints k = some e :=
    (h.endpoints.up_of_update k (AList.lookup_isSome.mp (by simp [hk]))).trans hk
  exact ⟨fun p hp => h.policies.isSome_of_up hpolU (hup.endpointPolicies k e hupk p hp),
    fun p hp => h.profiles.isSome_of_up hprofU (hup.endpointProfiles k e hupk p hp)⟩

/-- A profile deletion, once the endpoints are all sent: the consumer's endpoints are the
upstream ones, and none of those names a profile that no longer exists. -/
theorem Tracks.safeFor_profileRemove (h : Tracks buf down up)
    (hup : Closed ipSetsOf policiesOf profilesOf up) (hepU : ∀ k, k ∉ buf.endpoints.pendingUpdates)
    (hepD : ∀ k, k ∉ buf.endpoints.pendingDeletes) {k : P.ProfileKey}
    (hk : k ∈ buf.profiles.pendingDeletes) :
    SafeFor ipSetsOf policiesOf profilesOf down (.activeProfileRemove k) := by
  have hend : down.endpoints = up.endpoints := h.endpoints.eq_of_idle hepU hepD
  have hnone : up.profiles k = none := h.profiles.up_of_delete k hk
  intro k' e he hke
  have hp := hup.endpointProfiles k' e (hend ▸ he) k hke
  rw [hnone] at hp
  cases hp

theorem Tracks.safeFor_policyRemove (h : Tracks buf down up)
    (hup : Closed ipSetsOf policiesOf profilesOf up) (hepU : ∀ k, k ∉ buf.endpoints.pendingUpdates)
    (hepD : ∀ k, k ∉ buf.endpoints.pendingDeletes) {k : P.PolicyKey}
    (hk : k ∈ buf.policies.pendingDeletes) :
    SafeFor ipSetsOf policiesOf profilesOf down (.activePolicyRemove k) := by
  have hend : down.endpoints = up.endpoints := h.endpoints.eq_of_idle hepU hepD
  have hnone : up.policies k = none := h.policies.up_of_delete k hk
  intro k' e he hke
  have hp := hup.endpointPolicies k' e (hend ▸ he) k hke
  rw [hnone] at hp
  cases hp

/-- An IP set removal, once everything else is sent: the consumer's policies and profiles are
the upstream ones, and none of those names a set that no longer exists. -/
theorem Tracks.safeFor_ipSetRemove (h : Tracks buf down up)
    (hup : Closed ipSetsOf policiesOf profilesOf up) (hupd : UpdatesSent buf)
    (hdel : DeletesSent buf) {s : P.SetID} (hr : (buf.setView s).removed = true) :
    SafeFor ipSetsOf policiesOf profilesOf down (.ipSetRemove s) := by
  have hpol : down.policies = up.policies := h.policies.eq_of_idle hupd.1 hdel.2.2
  have hprof : down.profiles = up.profiles := h.profiles.eq_of_idle hupd.2.1 hdel.2.1
  have hnone : up.ipSets s = none := (h.ipSets s).up_eq_none hr
  refine ⟨fun k r hk hs => ?_, fun k r hk hs => ?_⟩
  · have hp := hup.policies k r (hpol ▸ hk) s hs
    rw [hnone] at hp
    cases hp
  · have hp := hup.profiles k r (hprof ▸ hk) s hs
    rw [hnone] at hp
    cases hp

/-- The IP set additions and deltas of a flush, against the closing consumer. -/
theorem Tracks.triple_ipSetAdditions :
    Triple (closedTake ipSetsOf policiesOf profilesOf)
      (fun b d => Tracks b d up ∧ Closed ipSetsOf policiesOf profilesOf d)
      (emitSeq flushAddedIPSets flushIPSetDeltas)
      (fun b d => (Tracks b d up ∧ Closed ipSetsOf policiesOf profilesOf d) ∧ IPSetsSettled b) := by
  -- sending a set, or a delta, never leaves a state that is not closed
  have h₁ : Triple (closedTake ipSetsOf policiesOf profilesOf)
      (fun b d => Tracks b d up ∧ Closed ipSetsOf policiesOf profilesOf d) flushAddedIPSets _ :=
    triple_flushAddedIPSets _ fun b d s t ⟨hb, hd⟩ hs =>
      ⟨_, closedTake_of_safeFor hd trivial,
        Stands.flushAddedIPSet hb ((hb.ipSets s).flushAddedIPSet hs _), hd.apply trivial⟩
  refine (h₁.seq (triple_flushIPSetDeltas _ ?_)).mono (fun _ _ h => h) ?_
  · rintro b d s ⟨⟨hb, hd⟩, hadd⟩ -
    exact ⟨_, closedTake_of_safeFor hd trivial,
      ⟨Stands.flushAddsOrRemoves hb ((hb.ipSets s).congr rfl rfl rfl Option.isSome_map rfl),
        hd.apply trivial⟩, added_flushAddsOrRemoves hadd s⟩
  · rintro b d ⟨⟨hT, hadd⟩, hclean⟩
    exact ⟨hT, fun s => ⟨hadd s, hclean s⟩⟩

/-- The update phases of a flush, against the closing consumer: each update names only what
the consumer already holds. -/
theorem Tracks.triple_updates (hup : Closed ipSetsOf policiesOf profilesOf up) :
    Triple (closedTake ipSetsOf policiesOf profilesOf)
      (fun b d => (Tracks b d up ∧ Closed ipSetsOf policiesOf profilesOf d) ∧ IPSetsSettled b)
      (emitSeq flushPolicyUpdates (emitSeq flushProfileUpdates flushEndpointTierUpdates))
      (fun b d => ((Tracks b d up ∧ Closed ipSetsOf policiesOf profilesOf d) ∧ IPSetsSettled b) ∧
        UpdatesSent b) := by
  have h₃ : Triple (closedTake ipSetsOf policiesOf profilesOf)
      (fun b d => (Tracks b d up ∧ Closed ipSetsOf policiesOf profilesOf d) ∧ IPSetsSettled b)
      flushPolicyUpdates _ :=
    triple_flushPolicyUpdates _ fun b d k r ⟨⟨hb, hd⟩, hset⟩ hk =>
      have hm := hb.safeFor_policyUpdate hup hset hk
      ⟨_, closedTake_of_safeFor hd hm, ⟨hb.sendPolicyUpdate hk, hd.apply hm⟩, hset⟩
  refine (h₃.seq ((triple_flushProfileUpdates _ ?_).seq
    (triple_flushEndpointTierUpdates _ ?_))).mono (fun _ _ h => h) ?_
  · rintro b d k r ⟨⟨⟨hb, hd⟩, hset⟩, hpol⟩ hk
    have hm := hb.safeFor_profileUpdate hup hset hk
    exact ⟨_, closedTake_of_safeFor hd hm, ⟨⟨hb.sendProfileUpdate hk, hd.apply hm⟩, hset⟩, hpol⟩
  · -- the policies and profiles are all sent before the first endpoint
    rintro b d k e ⟨⟨⟨⟨hb, hd⟩, hset⟩, hpol⟩, hprof⟩ hk
    have hm := hb.safeFor_endpointUpdate hup hpol hprof hk
    exact ⟨_, closedTake_of_safeFor hd hm,
      ⟨⟨⟨hb.sendEndpointUpdate hk, hd.apply hm⟩, hset⟩, hpol⟩, hprof⟩
  · rintro b d ⟨⟨⟨hI, hpol⟩, hprof⟩, hep⟩
    exact ⟨hI, hpol, hprof, hep⟩

/-- The deletion phases of a flush, against the closing consumer: each deletion removes
something nothing held still names. -/
theorem Tracks.triple_deletes (hup : Closed ipSetsOf policiesOf profilesOf up) :
    Triple (closedTake ipSetsOf policiesOf profilesOf)
      (fun b d => ((Tracks b d up ∧ Closed ipSetsOf policiesOf profilesOf d) ∧ IPSetsSettled b) ∧
        UpdatesSent b)
      (emitSeq flushEndpointTierDeletes (emitSeq flushProfileDeletes flushPolicyDeletes))
      (fun b d => (((Tracks b d up ∧ Closed ipSetsOf policiesOf profilesOf d) ∧ IPSetsSettled b) ∧
        UpdatesSent b) ∧ DeletesSent b) := by
  have h₆ : Triple (closedTake ipSetsOf policiesOf profilesOf)
      (fun b d => ((Tracks b d up ∧ Closed ipSetsOf policiesOf profilesOf d) ∧ IPSetsSettled b) ∧
        UpdatesSent b) flushEndpointTierDeletes _ :=
    triple_flushEndpointTierDeletes _ fun b d k ⟨⟨⟨hb, hd⟩, hset⟩, hupd⟩ hk =>
      ⟨_, closedTake_of_safeFor hd trivial,
        ⟨⟨(hb.sendEndpointDelete hk).2, hd.apply trivial⟩, hset⟩, hupd⟩
  refine (h₆.seq ((triple_flushProfileDeletes _ ?_).seq
    (triple_flushPolicyDeletes _ ?_))).mono (fun _ _ h => h) ?_
  · -- the endpoints are all sent before the first profile is removed
    rintro b d k ⟨⟨⟨⟨hb, hd⟩, hset⟩, hupd⟩, hep⟩ hk
    have hm := hb.safeFor_profileRemove hup hupd.2.2 hep hk
    exact ⟨_, closedTake_of_safeFor hd hm,
      ⟨⟨⟨(hb.sendProfileDelete hk).2, hd.apply hm⟩, hset⟩, hupd⟩, hep⟩
  · rintro b d k ⟨⟨⟨⟨⟨hb, hd⟩, hset⟩, hupd⟩, hep⟩, hprof⟩ hk
    have hm := hb.safeFor_policyRemove hup hupd.2.2 hep hk
    exact ⟨_, closedTake_of_safeFor hd hm,
      ⟨⟨⟨⟨(hb.sendPolicyDelete hk).2, hd.apply hm⟩, hset⟩, hupd⟩, hep⟩, hprof⟩
  · rintro b d ⟨⟨⟨hJ, hep⟩, hprof⟩, hpol⟩
    exact ⟨hJ, hep, hprof, hpol⟩

/-- The IP set removals, last, against the closing consumer: the policies and profiles held
are the upstream ones, and name no removed set. -/
theorem Tracks.triple_ipSetRemovals (hup : Closed ipSetsOf policiesOf profilesOf up) :
    Triple (closedTake ipSetsOf policiesOf profilesOf)
      (fun b d => (((Tracks b d up ∧ Closed ipSetsOf policiesOf profilesOf d) ∧ IPSetsSettled b) ∧
        UpdatesSent b) ∧ DeletesSent b)
      flushRemovedIPSets
      (fun b d => ((((Tracks b d up ∧ Closed ipSetsOf policiesOf profilesOf d) ∧ IPSetsSettled b) ∧
        UpdatesSent b) ∧ DeletesSent b) ∧ ∀ s, (b.setView s).removed = false) := by
  refine triple_flushRemovedIPSets _ ?_
  rintro b d s ⟨⟨⟨⟨hb, hd⟩, hset⟩, hupd⟩, hdel⟩ hr
  have hm := hb.safeFor_ipSetRemove hup hupd hdel hr
  exact ⟨_, closedTake_of_safeFor hd hm,
    ⟨⟨⟨⟨Stands.flushRemovedIPSet hb ((hb.ipSets s).flushRemovedIPSet hr), hd.apply hm⟩,
      hset.flushRemovedIPSet s⟩, hupd⟩, hdel⟩⟩

/-- **A whole flush is dependency-safe**: from a closed consumer and a closed upstream state,
the closing consumer takes every message of the flush; the invariant holds after. -/
theorem Tracks.flush (h : Tracks buf down up) (hdown : Closed ipSetsOf policiesOf profilesOf down)
    (hup : Closed ipSetsOf policiesOf profilesOf up) :
    ∃ down', buf.flush.2.foldlM (closedTake ipSetsOf policiesOf profilesOf) down = some down' ∧
      Tracks buf.flush.1 down' up ∧ Closed ipSetsOf policiesOf profilesOf down' := by
  have hflush := (Tracks.triple_ipSetAdditions.seq ((Tracks.triple_updates hup).seq
    ((Tracks.triple_deletes hup).seq (Tracks.triple_ipSetRemovals hup)))) buf down ⟨h, hdown⟩
  obtain ⟨d', hd', ⟨⟨⟨⟨⟨hT, hcl⟩, -⟩, -⟩, -⟩, -⟩⟩ := hflush
  rw [← flush_eq_phases] at hd' hT
  exact ⟨d', hd', hT, hcl⟩

/-- **A run**: from the invariant and a closed consumer, every run in which the sequencer
does not panic and the upstream state is closed after every call is taken whole by the
closing consumer. -/
theorem Tracks.run (h : Tracks buf down up) (hdown : Closed ipSetsOf policiesOf profilesOf down)
    (calls : List (Call P))
    (hclosed : ∀ n, Closed ipSetsOf policiesOf profilesOf ((calls.take n).foldl upstreamStep up))
    {buf' : EventSequencer P} {ms : List (Message P)} (hrun : buf.runFrom calls = .ok (buf', ms)) :
    ∃ down', ms.foldlM (closedTake ipSetsOf policiesOf profilesOf) down = some down' := by
  induction calls generalizing buf down up buf' ms with
  | nil =>
    obtain ⟨-, rfl⟩ := Prod.mk.inj (Except.ok.inj hrun).symm
    exact ⟨down, rfl⟩
  | cons c cs ih =>
    obtain ⟨b₁, ms₁, b', ms', hstep, hrest, hr⟩ := runFrom_cons_eq_ok hrun
    obtain ⟨rfl, rfl⟩ := Prod.mk.inj hr
    -- the upstream state stays closed after every later call
    have hclosed' : ∀ n, Closed ipSetsOf policiesOf profilesOf
        ((cs.take n).foldl upstreamStep (upstreamStep up c)) := fun n => by
      simpa using hclosed (n + 1)
    by_cases hc : c = .flush
    · subst hc
      -- a flush, from an upstream state closed before it
      have hflush : buf.flush = (b₁, ms₁) := Except.ok.inj hstep
      obtain ⟨d₁, hd₁, hT, hcl⟩ := h.flush hdown (by simpa using hclosed 0)
      rw [hflush] at hd₁ hT
      obtain ⟨d', hd'⟩ := ih hT hcl hclosed' hrest
      exact ⟨d', by rw [List.foldlM_append, hd₁]; exact hd'⟩
    · obtain ⟨rfl, hT⟩ := h.step hc hstep
      exact ih hT hdown hclosed' hrest

end Flush

/-- **Dependency safety.** For every run from `NewEventSequencer` in which the sequencer does
not panic and the upstream state is referentially closed after every call, the consumer that
applies the messages in order is referentially closed after every single message: no policy
or profile arrives before the IP sets it names, no endpoint before the policies and profiles
it names, and nothing is removed while something held still names it. What a payload names
is given by `ipSetsOf`, `policiesOf` and `profilesOf`. -/
theorem eventSequencer_dependency_safe (ipSetsOf : P.Rules → List P.SetID)
    (policiesOf : P.Tiers → List P.PolicyKey) (profilesOf : P.Endpoint → List P.ProfileKey)
    (calls : List (Call P)) {buf : EventSequencer P} {ms : List (Message P)}
    (hrun : EventSequencer.new.runFrom calls = .ok (buf, ms))
    (hclosed : ∀ n, Closed ipSetsOf policiesOf profilesOf (upstream (calls.take n))) :
    ∀ d ∈ ms.scanl Dataplane.apply Dataplane.empty, Closed ipSetsOf policiesOf profilesOf d := by
  obtain ⟨d', hd'⟩ := tracks_new.run (closed_empty ipSetsOf policiesOf profilesOf) calls hclosed hrun
  classical
  exact scanl_of_foldlM_guarded hd' (closed_empty ipSetsOf policiesOf profilesOf)

/-- A run that adds a set, a policy naming it and an endpoint naming the policy, and then
takes them away again in the same order. -/
def safetyDemo : List (Call natPayloads) :=
  [.ipSetAdded 1 0, .policyActive 3 1, .endpointTierUpdate 5 (some 0) 3, .flush,
    .endpointTierUpdate 5 none 0, .policyInactive 3, .ipSetRemoved 1, .flush]

theorem eventSequencer_dependency_safe_demo :
    ∃ buf ms, EventSequencer.new.runFrom safetyDemo = .ok (buf, ms) ∧
      ∀ d ∈ ms.scanl Dataplane.apply Dataplane.empty,
        Closed (fun r => [r]) (fun t => [t]) (fun _ => []) d := by
  have hclosed : ∀ n, Closed (P := natPayloads) (fun r => [r]) (fun t => [t]) (fun _ => [])
      (upstream (safetyDemo.take n)) := by
    intro n
    rcases n with _ | _ | _ | _ | _ | _ | _ | _ | n <;>
      constructor <;>
      simp [safetyDemo, upstream, upstreamStep, Dataplane.empty, Function.update_apply]
  exact ⟨_, _, rfl, eventSequencer_dependency_safe _ _ _ safetyDemo rfl hclosed⟩

end Felix.Calc
