import Felix.Replication.Buffer

/-!
# The event sequencer

`EventSequencer` (`calc/event_sequencer.go`) sits between the calculation graph and the
dataplane. The graph calls it with changes (an IP set became active, a member joined a set,
a policy became active, an endpoint's tiers changed); it buffers and coalesces them, and on
`Flush` it sends them downstream as messages, in an order meant to be dependency-safe: IP
set additions, IP set deltas, policy updates, profile updates and endpoint updates, then
endpoint, profile, policy and IP set removals.

This module models the IP set, policy, profile and endpoint paths of the sequencer. The
sequencer only stores and forwards its payloads, so their types are parameters, collected
in `Payloads`. The three keyed kinds follow one pattern, the coalescing buffer of
`Felix.Replication.Buffer`; IP sets have their own bookkeeping of added and removed
members, kept in two multi-valued maps. The IP set methods `log.Panic` when called out of
protocol; they return the panic's text as an error here.

## Main definitions

* `EventSequencer`: the buffered state; `EventSequencer.new` is `NewEventSequencer`
* `onIPSetAdded`, `onIPSetRemoved`, `onIPSetMemberAdded`, `onIPSetMemberRemoved`,
  `onPolicyActive`, `onPolicyInactive`, `onProfileActive`, `onProfileInactive`,
  `onEndpointTierUpdate`: the calls
* `flush`: `Flush`, as its nine phases in the source's order
* `Call`, `step`, `runFrom`: a sequence of calls and the messages it sends
-/

namespace Felix.Calc

open Replication

/-- The types of what the sequencer stores and forwards without looking inside: IP set IDs
and types, members, policy and profile keys, parsed rules, endpoint keys, endpoints and
their tiers. The sequencer compares IDs, keys and members, as Go map keys. -/
structure Payloads where
  SetID : Type
  SetType : Type
  Member : Type
  PolicyKey : Type
  ProfileKey : Type
  Rules : Type
  EndpointKey : Type
  Endpoint : Type
  Tiers : Type
  [decEqSetID : DecidableEq SetID]
  [decEqMember : DecidableEq Member]
  [decEqPolicyKey : DecidableEq PolicyKey]
  [decEqProfileKey : DecidableEq ProfileKey]
  [decEqEndpointKey : DecidableEq EndpointKey]

attribute [instance] Payloads.decEqSetID Payloads.decEqMember Payloads.decEqPolicyKey
  Payloads.decEqProfileKey Payloads.decEqEndpointKey

variable (P : Payloads)

/-- The messages `Flush` sends downstream (`proto.IPSetUpdate`, `proto.IPSetDeltaUpdate`,
`proto.IPSetRemove`, `proto.ActivePolicyUpdate` and so on). A workload and a host endpoint
are told apart by their key. -/
inductive Message where
  | ipSetUpdate (id : P.SetID) (members : List P.Member) (type : P.SetType)
  | ipSetDeltaUpdate (id : P.SetID) (addedMembers removedMembers : List P.Member)
  | ipSetRemove (id : P.SetID)
  | activePolicyUpdate (id : P.PolicyKey) (policy : P.Rules)
  | activePolicyRemove (id : P.PolicyKey)
  | activeProfileUpdate (id : P.ProfileKey) (profile : P.Rules)
  | activeProfileRemove (id : P.ProfileKey)
  | endpointUpdate (id : P.EndpointKey) (endpoint : P.Endpoint) (tiers : P.Tiers)
  | endpointRemove (id : P.EndpointKey)

/-- The fields of `EventSequencer` that its IP set, policy, profile and endpoint paths read
and write. -/
structure EventSequencer where
  pendingAddedIPSets : AList (fun _ : P.SetID => P.SetType)
  pendingRemovedIPSets : IterSet P.SetID
  pendingAddedIPSetMembers : IterSet (P.SetID × P.Member)
  pendingRemovedIPSetMembers : IterSet (P.SetID × P.Member)
  /-- `pendingPolicyUpdates`, `pendingPolicyDeletes` and `sentPolicies`. -/
  policies : Buffer P.PolicyKey P.Rules
  /-- `pendingProfileUpdates`, `pendingProfileDeletes` and `sentProfiles`. -/
  profiles : Buffer P.ProfileKey P.Rules
  /-- `pendingEndpointUpdates` and `pendingEndpointTierUpdates` (always written together),
  `pendingEndpointDeletes` and `sentEndpoints`. -/
  endpoints : Buffer P.EndpointKey (P.Endpoint × P.Tiers)
  sentIPSets : IterSet P.SetID

namespace EventSequencer

variable {P}

/-- `NewEventSequencer`: nothing pending, nothing sent. -/
def new : EventSequencer P := ⟨∅, ∅, ∅, ∅, .empty, .empty, .empty, ∅⟩

/-! ## The calls -/

/-- `OnIPSetAdded`. An add implicitly means that the set is now empty. -/
def onIPSetAdded (setID : P.SetID) (ipSetType : P.SetType) (buf : EventSequencer P) :
    Except String (EventSequencer P) :=
  if setID ∈ buf.sentIPSets ∧ setID ∉ buf.pendingRemovedIPSets then
    .error "OnIPSetAdded called for existing IP set"
  else
    .ok { buf with
      pendingAddedIPSets := buf.pendingAddedIPSets.insert setID ipSetType
      pendingRemovedIPSets := buf.pendingRemovedIPSets.discard setID
      pendingAddedIPSetMembers := buf.pendingAddedIPSetMembers.discardKey setID
      pendingRemovedIPSetMembers := buf.pendingRemovedIPSetMembers.discardKey setID }

/-- `OnIPSetRemoved`. -/
def onIPSetRemoved (setID : P.SetID) (buf : EventSequencer P) : Except String (EventSequencer P) :=
  if setID ∉ buf.sentIPSets ∧ setID ∉ buf.pendingAddedIPSets then
    .error "IPSetRemoved called for unknown IP set"
  else
    .ok { buf with
      pendingRemovedIPSets :=
        if setID ∈ buf.sentIPSets then buf.pendingRemovedIPSets.add setID
        else buf.pendingRemovedIPSets
      pendingAddedIPSets := buf.pendingAddedIPSets.erase setID
      pendingAddedIPSetMembers := buf.pendingAddedIPSetMembers.discardKey setID
      pendingRemovedIPSetMembers := buf.pendingRemovedIPSetMembers.discardKey setID }

/-- `OnIPSetMemberAdded`: cancels a pending removal of the member, or queues its addition. -/
def onIPSetMemberAdded (setID : P.SetID) (member : P.Member) (buf : EventSequencer P) :
    Except String (EventSequencer P) :=
  if setID ∉ buf.sentIPSets ∧ setID ∉ buf.pendingAddedIPSets then
    .error "Member added to unknown IP set"
  else if (setID, member) ∈ buf.pendingRemovedIPSetMembers then
    .ok { buf with
      pendingRemovedIPSetMembers := buf.pendingRemovedIPSetMembers.discard (setID, member) }
  else
    .ok { buf with
      pendingAddedIPSetMembers := buf.pendingAddedIPSetMembers.add (setID, member) }

/-- `OnIPSetMemberRemoved`: cancels a pending addition of the member, or queues its
removal. -/
def onIPSetMemberRemoved (setID : P.SetID) (member : P.Member) (buf : EventSequencer P) :
    Except String (EventSequencer P) :=
  if setID ∉ buf.sentIPSets ∧ setID ∉ buf.pendingAddedIPSets then
    .error "Member removed from unknown IP set"
  else if (setID, member) ∈ buf.pendingAddedIPSetMembers then
    .ok { buf with
      pendingAddedIPSetMembers := buf.pendingAddedIPSetMembers.discard (setID, member) }
  else
    .ok { buf with
      pendingRemovedIPSetMembers := buf.pendingRemovedIPSetMembers.add (setID, member) }

/-- `OnPolicyActive`. -/
def onPolicyActive (key : P.PolicyKey) (rules : P.Rules) (buf : EventSequencer P) :
    EventSequencer P :=
  { buf with policies := buf.policies.update key rules }

/-- `OnPolicyInactive`. -/
def onPolicyInactive (key : P.PolicyKey) (buf : EventSequencer P) : EventSequencer P :=
  { buf with policies := buf.policies.remove key }

/-- `OnProfileActive`. -/
def onProfileActive (key : P.ProfileKey) (rules : P.Rules) (buf : EventSequencer P) :
    EventSequencer P :=
  { buf with profiles := buf.profiles.update key rules }

/-- `OnProfileInactive`. -/
def onProfileInactive (key : P.ProfileKey) (buf : EventSequencer P) : EventSequencer P :=
  { buf with profiles := buf.profiles.remove key }

/-- `OnEndpointTierUpdate`: a `nil` endpoint is a deletion, which squashes any queued
update. -/
def onEndpointTierUpdate (key : P.EndpointKey) (endpoint : Option P.Endpoint)
    (filteredTiers : P.Tiers) (buf : EventSequencer P) :
    EventSequencer P :=
  match endpoint with
  | none => { buf with endpoints := buf.endpoints.remove key }
  | some ep => { buf with endpoints := buf.endpoints.update key (ep, filteredTiers) }

/-! ## The phases of `Flush` -/

/-- One turn of `flushAddedIPSets`: send the set whole, with the members added since. -/
def flushAddedIPSet (buf : EventSequencer P) (e : Σ _ : P.SetID, P.SetType) :
    EventSequencer P × Message P :=
  ({ buf with
      pendingAddedIPSetMembers := buf.pendingAddedIPSetMembers.discardKey e.1
      sentIPSets := buf.sentIPSets.add e.1
      pendingAddedIPSets := buf.pendingAddedIPSets.erase e.1 },
    .ipSetUpdate e.1 (buf.pendingAddedIPSetMembers.valuesOf e.1) e.2)

/-- `flushAddedIPSets`. -/
def flushAddedIPSets (buf : EventSequencer P) : EventSequencer P × List (Message P) :=
  emitLoop flushAddedIPSet buf.pendingAddedIPSets.entries buf

/-- `flushAddsOrRemoves`: one delta with the set's pending additions and removals. -/
def flushAddsOrRemoves (buf : EventSequencer P) (setID : P.SetID) : EventSequencer P × Message P :=
  ({ buf with
      pendingAddedIPSetMembers := buf.pendingAddedIPSetMembers.discardKey setID
      pendingRemovedIPSetMembers := buf.pendingRemovedIPSetMembers.discardKey setID },
    .ipSetDeltaUpdate setID (buf.pendingAddedIPSetMembers.valuesOf setID)
      (buf.pendingRemovedIPSetMembers.valuesOf setID))

/-- `flushIPSetDeltas`: first every set with a pending removal, then every set left with a
pending addition. -/
def flushIPSetDeltas (buf : EventSequencer P) : EventSequencer P × List (Message P) :=
  emitSeq (fun b => emitLoop flushAddsOrRemoves b.pendingRemovedIPSetMembers.keys b)
    (fun b => emitLoop flushAddsOrRemoves b.pendingAddedIPSetMembers.keys b) buf

/-- One turn of `flushRemovedIPSets`. -/
def flushRemovedIPSet (buf : EventSequencer P) (setID : P.SetID) : EventSequencer P × Message P :=
  ({ buf with
      pendingRemovedIPSetMembers := buf.pendingRemovedIPSetMembers.discardKey setID
      pendingAddedIPSetMembers := buf.pendingAddedIPSetMembers.discardKey setID
      pendingRemovedIPSets := buf.pendingRemovedIPSets.discard setID
      sentIPSets := buf.sentIPSets.discard setID },
    .ipSetRemove setID)

/-- `flushRemovedIPSets`. -/
def flushRemovedIPSets (buf : EventSequencer P) : EventSequencer P × List (Message P) :=
  emitLoop flushRemovedIPSet buf.pendingRemovedIPSets.toList buf

/-- `flushPolicyUpdates`. -/
def flushPolicyUpdates (buf : EventSequencer P) : EventSequencer P × List (Message P) :=
  ({ buf with policies := buf.policies.flushUpdates.1 },
    buf.policies.flushUpdates.2.map fun e => .activePolicyUpdate e.1 e.2)

/-- `flushPolicyDeletes`. -/
def flushPolicyDeletes (buf : EventSequencer P) : EventSequencer P × List (Message P) :=
  ({ buf with policies := buf.policies.flushDeletes.1 },
    buf.policies.flushDeletes.2.map .activePolicyRemove)

/-- `flushProfileUpdates`. -/
def flushProfileUpdates (buf : EventSequencer P) : EventSequencer P × List (Message P) :=
  ({ buf with profiles := buf.profiles.flushUpdates.1 },
    buf.profiles.flushUpdates.2.map fun e => .activeProfileUpdate e.1 e.2)

/-- `flushProfileDeletes`. -/
def flushProfileDeletes (buf : EventSequencer P) : EventSequencer P × List (Message P) :=
  ({ buf with profiles := buf.profiles.flushDeletes.1 },
    buf.profiles.flushDeletes.2.map .activeProfileRemove)

/-- `flushEndpointTierUpdates`. -/
def flushEndpointTierUpdates (buf : EventSequencer P) : EventSequencer P × List (Message P) :=
  ({ buf with endpoints := buf.endpoints.flushUpdates.1 },
    buf.endpoints.flushUpdates.2.map fun e => .endpointUpdate e.1 e.2.1 e.2.2)

/-- `flushEndpointTierDeletes`. -/
def flushEndpointTierDeletes (buf : EventSequencer P) : EventSequencer P × List (Message P) :=
  ({ buf with endpoints := buf.endpoints.flushDeletes.1 },
    buf.endpoints.flushDeletes.2.map .endpointRemove)

/-- The additions and updates of `Flush`, in dependency order. -/
def flushAdditions : EventSequencer P → EventSequencer P × List (Message P) :=
  emitSeq flushAddedIPSets <| emitSeq flushIPSetDeltas <| emitSeq flushPolicyUpdates <|
    emitSeq flushProfileUpdates flushEndpointTierUpdates

/-- The removals of `Flush`, in reverse dependency order. -/
def flushRemovals : EventSequencer P → EventSequencer P × List (Message P) :=
  emitSeq flushEndpointTierDeletes <| emitSeq flushProfileDeletes <|
    emitSeq flushPolicyDeletes flushRemovedIPSets

/-- `Flush`: the additions and updates, then the removals. -/
def flush : EventSequencer P → EventSequencer P × List (Message P) :=
  emitSeq flushAdditions flushRemovals

end EventSequencer

/-- A call the calculation graph makes on the sequencer. -/
inductive Call where
  | ipSetAdded (setID : P.SetID) (ipSetType : P.SetType)
  | ipSetRemoved (setID : P.SetID)
  | ipSetMemberAdded (setID : P.SetID) (member : P.Member)
  | ipSetMemberRemoved (setID : P.SetID) (member : P.Member)
  | policyActive (key : P.PolicyKey) (rules : P.Rules)
  | policyInactive (key : P.PolicyKey)
  | profileActive (key : P.ProfileKey) (rules : P.Rules)
  | profileInactive (key : P.ProfileKey)
  | endpointTierUpdate (key : P.EndpointKey) (endpoint : Option P.Endpoint)
      (filteredTiers : P.Tiers)
  | flush

namespace EventSequencer

variable {P}

/-- One call, and the messages it sends: only `Flush` sends any. -/
def step (buf : EventSequencer P) : Call P → Except String (EventSequencer P × List (Message P))
  | .ipSetAdded s t => (·, []) <$> buf.onIPSetAdded s t
  | .ipSetRemoved s => (·, []) <$> buf.onIPSetRemoved s
  | .ipSetMemberAdded s m => (·, []) <$> buf.onIPSetMemberAdded s m
  | .ipSetMemberRemoved s m => (·, []) <$> buf.onIPSetMemberRemoved s m
  | .policyActive k r => .ok (buf.onPolicyActive k r, [])
  | .policyInactive k => .ok (buf.onPolicyInactive k, [])
  | .profileActive k r => .ok (buf.onProfileActive k r, [])
  | .profileInactive k => .ok (buf.onProfileInactive k, [])
  | .endpointTierUpdate k ep tiers => .ok (buf.onEndpointTierUpdate k ep tiers, [])
  | .flush => .ok buf.flush

/-- A sequence of calls from `buf`: the final state and every message sent, in order. A
panic ends the run. -/
def runFrom (buf : EventSequencer P) :
    List (Call P) → Except String (EventSequencer P × List (Message P))
  | [] => .ok (buf, [])
  | c :: cs => do
    let (b, ms) ← buf.step c
    let (b', ms') ← runFrom b cs
    return (b', ms ++ ms')

/-- A run that succeeds is its first call, then the rest of the run from there. -/
theorem runFrom_cons_eq_ok {buf : EventSequencer P} {c : Call P} {cs : List (Call P)}
    {r : EventSequencer P × List (Message P)} (h : buf.runFrom (c :: cs) = .ok r) :
    ∃ b ms b' ms', buf.step c = .ok (b, ms) ∧ b.runFrom cs = .ok (b', ms') ∧ r = (b', ms ++ ms') := by
  simp only [runFrom] at h
  cases hs : buf.step c with
  | error e =>
    rw [hs] at h
    cases h
  | ok p =>
    rw [hs] at h
    -- the first call succeeded: the run continues from its state
    change (p.1.runFrom cs >>= fun q => pure (q.1, p.2 ++ q.2)) = Except.ok r at h
    cases hr : p.1.runFrom cs with
    | error e =>
      rw [hr] at h
      cases h
    | ok q =>
      rw [hr] at h
      exact ⟨p.1, p.2, q.1, q.2, rfl, hr, (Except.ok.inj h).symm⟩

end EventSequencer

end Felix.Calc
