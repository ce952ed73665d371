import Felix.Bpf.IPSetsManagerInvariant
import Mathlib

/-!
# The BPF IP sets manager writes the members of the live sets

The calls of the calculation graph ask, for each string ID, for a set of members or for no
set (`requested`, a fold of `IPSetsOp.request`). The manager serves them: a requested set is
live under its string's ID and wants the entries of its members, and a string that is not
requested has no live set (`Serves`, `Wants`). Together with the invariants of
`IPSetsManagerInvariant` this gives the manager's two guarantees, for every run from a fresh
manager and any contents of the map:

* after an `ApplyUpdates` that ends with no resync scheduled, which every `ApplyUpdates` in
  which no call of the map fails does, the map holds exactly the entries of the members of
  the requested sets;
* an ID is released only when no entry of the map carries it, and two live sets never share
  an ID.

Each needs one condition that the calls of the calculation graph meet. `RemoveMembers` removes
entries, not strings: two strings of one set with the same entry, such as `10.0.0.1` and
`10.0.0.1/32`, stand and fall together, so the first guarantee needs the members a run names
for a set to have distinct entries (`MembersDistinct`), as canonical strings do. And a resync
rebuilds the pending removals from its scan of the map: when the scan fails part-way, a set
queued for deletion can be released with entries the scan did not reach, so the second
guarantee needs the scan of that `ApplyUpdates` to complete.

## Main definitions

* `IPSetsOp.request`, `requested`: what a run asks for
* `MembersDistinct`: distinct members of a set have distinct entries
* `Serves`, `Wants`, `Reaches`: the manager and the requests after a run

## Main results

* `Reaches.apply`, `Reaches.runFrom`: every call keeps `Reaches`
* `bpfIPSets_converge`: the two guarantees
-/

namespace Felix.Bpf

open Idalloc BpfIPSets Replication

/-! ## What the calls ask for -/

/-- The members a call asks of the set `setID`, given those asked before (none if there is no
such set): `AddOrReplaceIPSet` sets them, `RemoveIPSet` removes the set, and the deltas add
and remove members. -/
def IPSetsOp.request (setID : String) (r : Option (Set String)) : IPSetsOp → Option (Set String)
  | .addOrReplaceIPSet s members => if s = setID then some {x | x ∈ members} else r
  | .removeIPSet s => if s = setID then none else r
  | .addMembers s members => if s = setID then r.map (· ∪ {x | x ∈ members}) else r
  | .removeMembers s members => if s = setID then r.map (· \ {x | x ∈ members}) else r
  | .queueResync => r
  | .applyUpdates _ => r

/-- The members a run asks of a set, or none if it asks for no set. -/
def requested (ops : List IPSetsOp) (setID : String) : Option (Set String) :=
  ops.foldl (IPSetsOp.request setID) none

/-- The member strings a call names for a set. -/
def IPSetsOp.membersOf (setID : String) : IPSetsOp → List String
  | .addOrReplaceIPSet s members | .addMembers s members | .removeMembers s members =>
    if s = setID then members else []
  | _ => []
attribute [grind] IPSetsOp.membersOf

/-- Distinct strings of `S setID` have distinct entries in every set. -/
def DistinctOn (S : String → Set String) : Prop :=
  ∀ setID id x y e, x ∈ S setID → y ∈ S setID → protoIPSetMemberToBPFEntry id x = .ok (some e) →
    protoIPSetMemberToBPFEntry id y = .ok (some e) → x = y

/-- Distinct member strings that a run names for one set have distinct entries. -/
def MembersDistinct (ops : List IPSetsOp) : Prop :=
  DistinctOn fun setID => {x | x ∈ ops.flatMap (IPSetsOp.membersOf setID)}

/-- `e` is the entry, in the set `id`, of one of the members `M`. -/
def EntryOf (id : UInt64) (M : Set String) (e : IPSetEntry) : Prop :=
  ∃ x ∈ M, protoIPSetMemberToBPFEntry id x = .ok (some e)

/-! ## The manager serves the requests -/

/-- The manager serves the requests `R`: a requested string has a live set, and an unrequested
one has none. -/
structure Serves (m : BpfIPSets) (R : String → Option (Set String)) : Prop where
  live : ∀ setID M, R setID = some M → ∃ s, m.getExistingIPSetString setID = some s ∧ s.deleted = false
  gone : ∀ setID s, R setID = none → m.getExistingIPSetString setID = some s → s.deleted = true

/-- Each requested set wants exactly the entries of its requested members. -/
def Wants (m : BpfIPSets) (R : String → Option (Set String)) : Prop :=
  ∀ setID M s, R setID = some M → m.getExistingIPSetString setID = some s →
    ∀ e, e ∈ s.desiredEntries ↔ EntryOf (m.ipSetIDAllocator.getNoAlloc setID) M e

/-- What holds after every run, for the requests `R` and strings `S` that contain the members
requested: the manager is consistent, in sync with the map unless a resync is scheduled, and
serves `R`; where distinct strings of `S` have distinct entries, each requested set wants its
members' entries. -/
structure Reaches (S : String → Set String) (st : BpfIPSets × IterSet IPSetEntry)
    (R : String → Option (Set String)) : Prop where
  wf : st.1.Wf
  synced : st.1.resyncScheduled = false → st.1.Synced st.2
  serves : Serves st.1 R
  sub : ∀ setID M, R setID = some M → M ⊆ S setID
  wants : DistinctOn S → Wants st.1 R

/-! ## Each call keeps `Reaches` -/

theorem entryOf_union {id : UInt64} {M N : Set String} {e : IPSetEntry} :
    EntryOf id (M ∪ N) e ↔ EntryOf id M e ∨ EntryOf id N e := by
  simp only [EntryOf, Set.mem_union, or_and_right, exists_or]

/-- Removing members removes their entries, when no kept member shares its entry with a removed
one. -/
theorem entryOf_diff {id : UInt64} {M N : Set String} {e : IPSetEntry}
    (hD : ∀ x ∈ M, ∀ y ∈ N, protoIPSetMemberToBPFEntry id x = .ok (some e) →
      protoIPSetMemberToBPFEntry id y = .ok (some e) → x = y) :
    EntryOf id (M \ N) e ↔ EntryOf id M e ∧ ¬EntryOf id N e := by
  constructor
  · rintro ⟨x, ⟨hxM, hxN⟩, hx⟩
    refine ⟨⟨x, hxM, hx⟩, ?_⟩
    rintro ⟨y, hyN, hy⟩
    rw [hD x hxM y hyN hx hy] at hxN
    exact hxN hyN
  · rintro ⟨⟨x, hxM, hx⟩, hN⟩
    exact ⟨x, ⟨hxM, fun hxN => hN ⟨x, hxN, hx⟩⟩, hx⟩

variable {m m' : BpfIPSets} {id : UInt64} {s s' : BpfIPSet}

/-- Storing `s'` under the ID of `setID`, with the other strings' IDs unchanged, changes the
manager's view of `setID` only. -/
theorem getExistingIPSetString_stored {setID : String} (hm : m.Wf) (hm' : m'.Wf)
    (hst : Stored m m' id s') (hid : m'.ipSetIDAllocator.getNoAlloc setID = id)
    (hother : ∀ x, x ≠ setID → m'.ipSetIDAllocator.getNoAlloc x = m.ipSetIDAllocator.getNoAlloc x)
    (x : String) :
    m'.getExistingIPSetString x = if x = setID then some s' else m.getExistingIPSetString x := by
  rw [hm'.getExistingIPSetString_eq, hm.getExistingIPSetString_eq]
  split_ifs with hx
  · rw [hx, hid]
    exact hst.lookup_self
  · rw [hother x hx]
    apply hst.lookup_ne
    -- the ID of `setID` is allocated to `setID` alone
    intro hxid
    have h0 : m'.ipSetIDAllocator.getNoAlloc x ≠ 0 := by
      rw [hother x hx, hxid]
      exact hm'.ne_zero hst.lookup_self
    exact hx (IDAllocator.getNoAlloc_inj ((hother x hx).trans (hxid.trans hid.symm)) h0)

section Reaches

variable {S : String → Set String} {st st' : BpfIPSets × IterSet IPSetEntry}
  {R R' : String → Option (Set String)}

/-- A call that stores `s'` under the ID of `setID`, keeps the manager consistent and in sync,
and asks nothing new of other strings keeps `Reaches`, if `s'` answers what it asks of
`setID`. -/
theorem Reaches.stored {setID : String} (hr : Reaches S st R)
    (hw' : st'.1.Wf) (hsync : st'.1.resyncScheduled = false → st'.1.Synced st'.2)
    (hst : Stored st.1 st'.1 id s') (hid : st'.1.ipSetIDAllocator.getNoAlloc setID = id)
    (hother : ∀ x, x ≠ setID →
      st'.1.ipSetIDAllocator.getNoAlloc x = st.1.ipSetIDAllocator.getNoAlloc x)
    (hR : ∀ x, x ≠ setID → R' x = R x)
    (hself : R' setID = none ∧ s'.deleted = true ∨
      ∃ M, R' setID = some M ∧ M ⊆ S setID ∧ s'.deleted = false ∧
        (DistinctOn S → ∀ e, e ∈ s'.desiredEntries ↔ EntryOf id M e)) :
    Reaches S st' R' := by
  have hview := getExistingIPSetString_stored hr.wf hw' hst hid hother
  refine ⟨hw', hsync, ⟨fun x M hM => ?_, fun x t hM ht => ?_⟩, fun x M hM => ?_,
    fun hD x M t hM ht => ?_⟩
  · -- a requested string has a live set
    rw [hview]
    split_ifs with hx
    · subst hx
      rcases hself with ⟨hn, -⟩ | ⟨M', -, -, hd, -⟩
      · rw [hn] at hM
        cases hM
      · exact ⟨s', rfl, hd⟩
    · exact hr.serves.live x M ((hR x hx).symm.trans hM)
  · -- an unrequested string has none
    rw [hview] at ht
    split_ifs at ht with hx
    · subst hx
      cases ht
      rcases hself with ⟨-, hd⟩ | ⟨M', hM', -⟩
      · exact hd
      · rw [hM'] at hM
        cases hM
    · exact hr.serves.gone x t ((hR x hx).symm.trans hM) ht
  · by_cases hx : x = setID
    · subst hx
      rcases hself with ⟨hn, -⟩ | ⟨M', hM', hsub, -⟩
      · rw [hn] at hM
        cases hM
      · rw [hM'] at hM
        cases hM
        exact hsub
    · exact hr.sub x M ((hR x hx).symm.trans hM)
  · -- a requested set wants its members' entries
    rw [hview] at ht
    split_ifs at ht with hx
    · subst hx
      cases ht
      rcases hself with ⟨hn, -⟩ | ⟨M', hM', -, -, hdes⟩
      · rw [hn] at hM
        cases hM
      · rw [hM'] at hM
        cases hM
        rw [hid]
        exact hdes hD
    · rw [hother x hx]
      exact hr.wants hD x M t ((hR x hx).symm.trans hM) ht

/-- A string with a live set is requested, with members whose entries the set wants. -/
theorem Reaches.requested_of_live {setID : String} (hr : Reaches S st R)
    (hl : st.1.ipSets.lookup (st.1.ipSetIDAllocator.getNoAlloc setID) = some s)
    (hd : s.deleted = false) :
    ∃ M, R setID = some M ∧ M ⊆ S setID ∧ (DistinctOn S → ∀ e,
      e ∈ s.desiredEntries ↔ EntryOf (st.1.ipSetIDAllocator.getNoAlloc setID) M e) := by
  have hv : st.1.getExistingIPSetString setID = some s := by
    rw [hr.wf.getExistingIPSetString_eq]
    exact hl
  cases hR : R setID with
  | none =>
    rw [hr.serves.gone setID s hR hv] at hd
    cases hd
  | some M => exact ⟨M, rfl, hr.sub _ _ hR, fun hD => hr.wants hD setID M s hR hv⟩

/-- A delta of `setID` keeps `Reaches`, asking `g` of the members `setID` had, for an `op` that
keeps a live set consistent, changes only what it wants, and changes that as `g` changes the
members. -/
theorem Reaches.updateMembers {op : BpfIPSet → IPSetEntry → BpfIPSet} {setID : String}
    {members : List String} (g : Set String → Set String) (hr : Reaches S st R)
    (hop : ∀ (id : UInt64) (s s' : BpfIPSet), s.Wf id → s.deleted = false →
      s.forEachMemberEntry op members = .ok s' → s'.Wf id ∧ BpfIPSet.Rewanted s s')
    (hdes : ∀ (id : UInt64) (s s' : BpfIPSet) (M : Set String), s.Wf id → s.deleted = false → s.forEachMemberEntry op members = .ok s' →
      M ⊆ S setID → DistinctOn S → (∀ e, e ∈ s.desiredEntries ↔ EntryOf id M e) →
      ∀ e, e ∈ s'.desiredEntries ↔ EntryOf id (g M) e)
    (hsub : ∀ M, M ⊆ S setID → g M ⊆ S setID)
    (hR : ∀ x, R' x = if setID = x then (R x).map g else R x)
    (h : st.1.updateMembers op setID members = .ok m') : Reaches S (m', st.2) R' := by
  obtain ⟨hw', hsync, hres, halloc, s, s', hl, hd, hs', hst⟩ :=
    hr.wf.updateMembers hop h
  obtain ⟨M, hM, hMS, hwant⟩ := hr.requested_of_live hl hd
  have hs := (hr.wf.sets _ s hl).1
  refine hr.stored hw' (fun h₀ => hsync _ (hr.synced (hres.symm.trans h₀))) hst (by rw [halloc])
    (fun x _ => by rw [halloc]) (fun x hx => by rw [hR, if_neg (Ne.symm hx)])
    (.inr ⟨g M, ?_, hsub M hMS, (hop _ s s' hs hd hs').2.deleted.trans hd,
      fun hD => hdes _ s s' M hs hd hs' hMS hD (hwant hD)⟩)
  rw [hR, if_pos rfl, hM]
  rfl

/-- The view of a string after the manager shrinks: a set it still has is the one it had. -/
theorem BpfIPSets.Shrinks.getExistingIPSetString {setID : String} (hm : m.Wf) (hsh : Shrinks m m')
    (h : m'.getExistingIPSetString setID = some s') :
    ∃ s, m.getExistingIPSetString setID = some s ∧
      m'.ipSetIDAllocator.getNoAlloc setID = m.ipSetIDAllocator.getNoAlloc setID ∧
      s'.desiredEntries = s.desiredEntries ∧ s'.deleted = s.deleted := by
  obtain ⟨h0, hl⟩ := getExistingIPSetString_eq_some h
  -- the allocator gave the string no new ID
  have hid : m.ipSetIDAllocator.getNoAlloc setID = m'.ipSetIDAllocator.getNoAlloc setID :=
    (IDAllocator.getNoAlloc_eq_iff h0).mpr
      (hsh.alloc _ _ ((IDAllocator.getNoAlloc_eq_iff h0).mp rfl))
  obtain ⟨s, hs, -, hdes, hdel⟩ := hsh.lookup _ s' hl
  refine ⟨s, ?_, hid.symm, hdes, hdel⟩
  rw [hm.getExistingIPSetString_eq, hid]
  exact hs

/-- A live set stays when the manager shrinks. -/
theorem BpfIPSets.Shrinks.getExistingIPSetString_live {setID : String} (hm : m.Wf) (hm' : m'.Wf)
    (hsh : Shrinks m m') (h : m.getExistingIPSetString setID = some s) (hd : s.deleted = false) :
    ∃ s', m'.getExistingIPSetString setID = some s' := by
  obtain ⟨h0, hl⟩ := getExistingIPSetString_eq_some h
  obtain ⟨s', hs'⟩ := Option.isSome_iff_exists.mp (AList.lookup_isSome.mpr (hsh.live _ s hl hd))
  obtain ⟨t, ht, horig, -⟩ := hsh.lookup _ s' hs'
  rw [hl] at ht
  cases ht
  -- the set keeps its name, so the allocator still gives the string its ID
  have hname : s.originalID = setID :=
    Option.some.inj ((hm.sets _ s hl).2.symm.trans (IDAllocator.lookup_of_getNoAlloc h0))
  have hid : m'.ipSetIDAllocator.getNoAlloc setID = m.ipSetIDAllocator.getNoAlloc setID := by
    apply IDAllocator.getNoAlloc_of_lookup
    rw [(hm'.sets _ s' hs').2, horig, hname]
  exact ⟨s', by rw [hm'.getExistingIPSetString_eq, hid]; exact hs'⟩

theorem Serves.shrinks (hS : Serves m R) (hm : m.Wf) (hm' : m'.Wf) (hsh : Shrinks m m') :
    Serves m' R where
  live x M hM := by
    obtain ⟨s, hs, hd⟩ := hS.live x M hM
    obtain ⟨s', hs'⟩ := hsh.getExistingIPSetString_live hm hm' hs hd
    obtain ⟨t, ht, -, -, hdel⟩ := hsh.getExistingIPSetString hm hs'
    rw [hs] at ht
    cases ht
    exact ⟨s', hs', hdel.trans hd⟩
  gone x s' hM hs' := by
    obtain ⟨s, hs, -, -, hdel⟩ := hsh.getExistingIPSetString hm hs'
    exact hdel.trans (hS.gone x s hM hs)

theorem Wants.shrinks (hW : Wants m R) (hm : m.Wf) (hsh : Shrinks m m') : Wants m' R :=
  fun x M s' hM hs' e => by
    obtain ⟨s, hs, hid, hdes, -⟩ := hsh.getExistingIPSetString hm hs'
    rw [hdes, hid]
    exact hW x M s hM hs e

/-- Every call keeps `Reaches`, asking what it asks, when the members it names are among `S`. -/
theorem Reaches.apply {trialHash : String → UInt64 → UInt64} {op : IPSetsOp}
    (hr : Reaches S st R) (hS : ∀ setID, ∀ x ∈ op.membersOf setID, x ∈ S setID)
    (h : BpfIPSets.apply trialHash st op = .ok st') :
    Reaches S st' fun setID => op.request setID (R setID) := by
  cases op with
  | addOrReplaceIPSet setID members =>
    obtain ⟨m', h', rfl⟩ := map_eq_ok h
    obtain ⟨hw', hsync, hres, alloc, id, s₂, ha, halloc, hst, hd, hdes⟩ :=
      hr.wf.addOrReplaceIPSet h'
    obtain ⟨-, hid, hother⟩ := IDAllocator.getNoAlloc_getOrAlloc ha
    refine hr.stored hw' (fun h₀ => hsync _ (hr.synced (hres.symm.trans h₀))) hst
      (by rw [halloc, hid]) (fun x hx => by rw [halloc, hother x hx])
      (fun x hx => by simp [IPSetsOp.request, Ne.symm hx])
      (.inr ⟨{x | x ∈ members}, by simp [IPSetsOp.request], fun x hx => ?_, hd,
        fun _ e => hdes e⟩)
    exact hS setID x (by simpa [IPSetsOp.membersOf] using hx)
  | removeIPSet setID =>
    obtain ⟨m', h', rfl⟩ := map_eq_ok h
    obtain ⟨hw', hsync, hres, halloc, s', hst, hd⟩ := hr.wf.removeIPSet h'
    exact hr.stored hw' (fun h₀ => hsync _ (hr.synced (hres.symm.trans h₀))) hst (by rw [halloc])
      (fun x _ => by rw [halloc]) (fun x hx => by simp [IPSetsOp.request, Ne.symm hx])
      (.inl ⟨by simp [IPSetsOp.request], hd⟩)
  | addMembers setID members =>
    obtain ⟨m', h', rfl⟩ := map_eq_ok h
    refine hr.updateMembers (· ∪ {x | x ∈ members})
      (fun id s s' hs hd h => ⟨(hs.forEachMemberEntry_addMember hd h).1,
        (hs.forEachMemberEntry_addMember hd h).2.1⟩)
      (fun id s s' M hs hd h _ _ hM e => ?_) (fun M hM x hx => ?_) (fun _ => rfl) h'
    · rw [(hs.forEachMemberEntry_addMember hd h).2.2 e, hM e, entryOf_union]
      exact or_comm
    · rcases hx with hx | hx
      · exact hM hx
      · exact hS setID x (by simpa [IPSetsOp.membersOf] using hx)
  | removeMembers setID members =>
    obtain ⟨m', h', rfl⟩ := map_eq_ok h
    have hN : {x | x ∈ members} ⊆ S setID := fun x hx =>
      hS setID x (by simpa [IPSetsOp.membersOf] using hx)
    refine hr.updateMembers (· \ {x | x ∈ members})
      (fun id s s' hs hd h => ⟨(hs.forEachMemberEntry_removeMember hd h).1,
        (hs.forEachMemberEntry_removeMember hd h).2.1⟩)
      (fun id s s' M hs hd h hMS hD hM e => ?_) (fun M hM => Set.sdiff_subset.trans hM)
      (fun _ => rfl) h'
    rw [(hs.forEachMemberEntry_removeMember hd h).2.2 e, hM e,
      entryOf_diff fun x hx y hy => hD setID id x y e (hMS hx) (hN hy)]
    exact and_comm
  | queueResync =>
    cases h
    exact ⟨hr.wf.queueResync, fun h₀ => by simp at h₀, ⟨hr.serves.live, hr.serves.gone⟩, hr.sub,
      hr.wants⟩
  | applyUpdates f =>
    obtain ⟨m', dp'⟩ := st'
    obtain ⟨hw', hsh, -, hsync⟩ := hr.wf.applyUpdates hr.synced h
    exact ⟨hw', fun h₀ => (hsync h₀).1, hr.serves.shrinks hr.wf hw' hsh, hr.sub,
      fun hD => (hr.wants hD).shrinks hr.wf hsh⟩

/-- Every run keeps `Reaches`, asking what its calls ask, when the members they name are among
`S`. -/
theorem Reaches.runFrom {trialHash : String → UInt64 → UInt64} {ops : List IPSetsOp}
    (hr : Reaches S st R) (hS : ∀ op ∈ ops, ∀ setID, ∀ x ∈ op.membersOf setID, x ∈ S setID)
    (h : BpfIPSets.runFrom trialHash ops st = .ok st') :
    Reaches S st' fun setID => ops.foldl (IPSetsOp.request setID) (R setID) := by
  induction ops generalizing st R with
  | nil =>
    cases h
    exact hr
  | cons op ops ih =>
    rw [BpfIPSets.runFrom, List.foldlM_cons] at h
    obtain ⟨st₁, h₁, h⟩ := bind_eq_ok h
    exact ih (hr.apply (hS op List.mem_cons_self) h₁)
      (fun op' hop => hS op' (List.mem_cons_of_mem _ hop)) h

/-- A fresh manager, with any contents of the map, asks nothing. -/
theorem reaches_new (S : String → Set String) (dataplane : IterSet IPSetEntry) :
    Reaches S (new IDAllocator.new, dataplane) fun _ => none where
  wf := {
    allocated := fun _ h => absurd h (AList.notMem_empty _)
    sets := fun _ _ h => by cases h
    dirty := fun _ h => absurd h (IterSet.not_mem_empty _) }
  synced h := by cases h
  serves := {
    live := fun _ _ h => by cases h
    gone := fun _ _ _ h => by cases h }
  sub _ _ h := by cases h
  wants _ _ _ _ h := by cases h

/-- When the manager is in sync with the map and no set is dirty, the map holds exactly the
entries of the members of the requested sets. -/
theorem Reaches.mem_iff_entryOf (hr : Reaches S st R) (hD : DistinctOn S)
    (hres : st.1.resyncScheduled = false) (hclean : ∀ x, x ∉ st.1.dirtyIPSetIDs) (e : IPSetEntry) :
    e ∈ st.2 ↔ ∃ setID M, R setID = some M ∧
      EntryOf (st.1.ipSetIDAllocator.getNoAlloc setID) M e := by
  have hS := hr.synced hres
  -- every set is clean, so the map holds what each set wants
  have hclean' : ∀ id s, st.1.ipSets.lookup id = some s → s.dirty = false := fun id s hl => by
    cases hd : s.dirty
    · rfl
    · exact absurd (hS.dirty id s hl hd) (hclean id)
  have hprog : ∀ id s, st.1.ipSets.lookup id = some s → IPSetEntry.setID e = id →
      (e ∈ st.2 ↔ e ∈ s.desiredEntries) := fun id s hl he => by
    rw [hS.entries id s hl e he, BpfIPSet.programmed_of_clean (hclean' id s hl) e]
  constructor
  · -- an entry of the map is wanted by the set of its ID, which its string requests
    intro he
    obtain ⟨s, hl⟩ := Option.isSome_iff_exists.mp (AList.lookup_isSome.mpr (hS.known e he))
    have hid := IDAllocator.getNoAlloc_of_lookup (hr.wf.sets _ s hl).2
    have hd : s.deleted = false := (BpfIPSet.dirty_eq_false.mp (hclean' _ s hl)).2.2
    obtain ⟨M, hM, -, hwant⟩ := hr.requested_of_live (by rw [hid]; exact hl) hd
    exact ⟨s.originalID, M, hM, (hwant hD e).mp ((hprog _ s hl rfl).mp he)⟩
  · -- a requested member's entry is wanted by the string's live set
    rintro ⟨setID, M, hM, x, hx, hxe⟩
    obtain ⟨s, hv, -⟩ := hr.serves.live setID M hM
    obtain ⟨-, hl⟩ := getExistingIPSetString_eq_some hv
    exact (hprog _ s hl (setID_of_protoIPSetMemberToBPFEntry hxe)).mpr
      ((hr.wants hD setID M s hM hv e).mpr ⟨x, hx, hxe⟩)

end Reaches

/-! ## The guarantees -/

/-- The manager's guarantees after every run from a fresh manager, whatever the map held. No two
strings' sets share an ID, and `ApplyUpdates` returns. An ID it releases leaves no entry of the
map behind, unless the scan of its resync failed. If no call fails, it ends with no resync
scheduled; and then the map holds exactly the entries of the members of the requested sets,
when the members the run names for a set have distinct entries. -/
theorem bpfIPSets_converge (trialHash : String → UInt64 → UInt64) (dataplane : IterSet IPSetEntry)
    {ops : List IPSetsOp} {m : BpfIPSets} {dp : IterSet IPSetEntry}
    (hrun : runFrom trialHash ops (new IDAllocator.new, dataplane) = .ok (m, dp)) :
    (∀ setID₁ setID₂ s₁ s₂, m.getExistingIPSetString setID₁ = some s₁ →
      m.getExistingIPSetString setID₂ = some s₂ → s₁.id = s₂.id → setID₁ = setID₂) ∧
    ∀ f : IPSetMapFailures, ∃ m' dp', m.applyUpdates f dp = .ok (m', dp') ∧
      ((m.resyncScheduled = true → f.iterFailsAfter = none) →
        ∀ id ∈ m.ipSetIDAllocator.uint64ToStr, id ∉ m'.ipSetIDAllocator.uint64ToStr →
          ∀ e ∈ dp', IPSetEntry.setID e ≠ id) ∧
      (f = IPSetMapFailures.none → m'.resyncScheduled = false) ∧
      (MembersDistinct ops → m'.resyncScheduled = false →
        ∀ e, e ∈ dp' ↔ ∃ setID M, requested ops setID = some M ∧
          ∃ x ∈ M, protoIPSetMemberToBPFEntry (m'.ipSetIDAllocator.getNoAlloc setID) x =
            .ok (some e)) := by
  have hr := (reaches_new (fun setID => {x | x ∈ ops.flatMap (IPSetsOp.membersOf setID)})
    dataplane).runFrom (fun op hop setID x hx => List.mem_flatMap.mpr ⟨op, hop, hx⟩) hrun
  refine ⟨fun _ _ _ _ h₁ h₂ h => hr.wf.getExistingIPSetString_inj h₁ h₂ h, fun f => ?_⟩
  obtain ⟨⟨m', dp'⟩, h⟩ := hr.wf.applyUpdates_ok f dp
  obtain ⟨hw', -, hrel, hsync⟩ := hr.wf.applyUpdates hr.synced h
  have h' : BpfIPSets.apply trialHash (m, dp) (.applyUpdates f) = .ok (m', dp') := h
  have hr' := hr.apply (fun _ _ hx => by cases hx) h'
  refine ⟨m', dp', h, fun hf id hid hid' => ?_, ?_, fun hD hres => hr'.mem_iff_entryOf hD hres (hsync hres).2⟩
  · -- the allocator knows exactly the IDs of the sets
    exact hrel hf id (hr.wf.mem_iff.mpr hid) fun hm => hid' (hw'.mem_iff.mp hm)
  · rintro rfl
    exact hr.wf.applyUpdates_none h

/-- The run that creates `a` and `b` and removes `b`. -/
def twoSetsRun : List IPSetsOp :=
  [.addOrReplaceIPSet "a" ["10.0.0.1"], .addOrReplaceIPSet "b" ["10.0.0.2"], .removeIPSet "b"]

/-- The run names one member per set, so its members are distinct. -/
theorem membersDistinct_twoSetsRun : MembersDistinct twoSetsRun := by
  intro setID id x y e hx hy _ _
  simp only [twoSetsRun, Set.mem_ofPred_eq, List.flatMap_cons, List.flatMap_nil, List.mem_append,
    IPSetsOp.membersOf, List.append_nil] at hx hy
  -- each set of the run is named with one member
  have hab : ¬ ("a" = setID ∧ "b" = setID) := fun ⟨ha, hb⟩ => absurd (ha.trans hb.symm) (by decide)
  split_ifs at hx hy <;> simp_all

/-- Every `ApplyUpdates` after the run returns, one with no failure ends with no resync
scheduled, and then the map holds exactly the entries of the requested members. -/
theorem bpfIPSets_converge_two_sets :
    ∃ m dp, runFrom (fun _ n => n + 1) twoSetsRun (new IDAllocator.new, ∅) = .ok (m, dp) ∧
      MembersDistinct twoSetsRun ∧
      ∀ f, ∃ m' dp', m.applyUpdates f dp = .ok (m', dp') ∧
        (f = IPSetMapFailures.none → m'.resyncScheduled = false) ∧
        (m'.resyncScheduled = false → ∀ e, e ∈ dp' ↔ ∃ setID M, requested twoSetsRun setID = some M ∧
          ∃ x ∈ M, protoIPSetMemberToBPFEntry (m'.ipSetIDAllocator.getNoAlloc setID) x = .ok (some e)) := by
  obtain ⟨⟨m, dp⟩, h⟩ : ∃ st, runFrom (fun _ n => n + 1) twoSetsRun (new IDAllocator.new, ∅) = .ok st :=
    ⟨_, rfl⟩
  refine ⟨m, dp, h, membersDistinct_twoSetsRun, fun f => ?_⟩
  obtain ⟨m', dp', hu, -, hnone, hconv⟩ := (bpfIPSets_converge _ _ h).2 f
  exact ⟨m', dp', hu, hnone, hconv membersDistinct_twoSetsRun⟩

/-- Without their conditions the guarantees fail. `10.0.0.1` and `10.0.0.1/32` have one entry,
so removing the first takes the entry of the second, still requested, out of the map, although
no call fails. And a resync whose scan fails before it reaches the entry of a set queued for
deletion forgets that entry, and releases the set's ID with the entry still in the map. -/
theorem bpfIPSets_shared_entry_and_early_release :
    (∃ m dp, runFrom (fun _ n => n + 1) [.addOrReplaceIPSet "a" ["10.0.0.1", "10.0.0.1/32"],
        .removeMembers "a" ["10.0.0.1"], .applyUpdates IPSetMapFailures.none] (new IDAllocator.new, ∅) =
        .ok (m, dp) ∧ m.resyncScheduled = false ∧ dp.toList = [] ∧
      ∃ M, requested [.addOrReplaceIPSet "a" ["10.0.0.1", "10.0.0.1/32"],
        .removeMembers "a" ["10.0.0.1"], .applyUpdates IPSetMapFailures.none] "a" = some M ∧
        "10.0.0.1/32" ∈ M ∧
        ∃ e, protoIPSetMemberToBPFEntry (m.ipSetIDAllocator.getNoAlloc "a") "10.0.0.1/32" =
          .ok (some e)) ∧
    (∃ m dp m' dp', runFrom (fun _ n => n + 1) [.addOrReplaceIPSet "a" ["10.0.0.1"],
        .applyUpdates IPSetMapFailures.none, .removeIPSet "a", .queueResync] (new IDAllocator.new, ∅) =
        .ok (m, dp) ∧
      m.applyUpdates ⟨some 0, fun _ => false, fun _ => false⟩ dp = .ok (m', dp') ∧
      m.ipSetIDAllocator.uint64ToStr.lookup 1 = some "a" ∧
      m'.ipSetIDAllocator.uint64ToStr.lookup 1 = none ∧ dp'.toList.map IPSetEntry.setID = [1]) :=
  ⟨⟨_, _, rfl, by decide, by decide, _, rfl, by simp, _, rfl⟩,
    ⟨_, _, _, _, rfl, rfl, by decide, by decide, by decide⟩⟩

end Felix.Bpf
