import Felix.Calc.RuleScanner

/-!
# The rule scanner's active IP sets are those the active rules use

The scanner is right when a subscriber that replays its `OnIPSetActive` and
`OnIPSetInactive` calls holds, after every call, exactly the UIDs that the active policies
and profiles use, and when no UID is made active, or inactive, twice in a row.

`Consistent` is the invariant of the scanner: the two multi-valued maps are inverse and
hold no empty set, and the stored IP sets are those of the UIDs in use, each under its own
UID. `Transition` is what a turn, a loop or a call does from a consistent state: it keeps
the state consistent, stores the pairs its relation names, and replays the change of the
UIDs in use (`Replays`). Each loop turn is a transition (`Consistent.addUID`,
`Consistent.removeUID`); the loops compose their turns (`Consistent.addUIDs`,
`Consistent.removeUIDs`), and `updateRules` composes the loops. Go ranges over the sets of
added and removed UIDs in no fixed order; the loops are transitions whatever order they visit
the UIDs in (`Consistent.updateLoops`), and the model's order is one of them.

## Main definitions

* `rulesAfter`: the rules of each policy and profile after some calls
* `RuleScanner.Consistent`, `RuleScanner.Transition`

## Main results

* `RuleScanner.Consistent.updateLoops`: the two loops of `updateRules`, in any order
* `RuleScanner.Consistent.updateRules`: the key's pairs become those of its new rules
* `ruleScanner_ipSet_activity`: the invariant over every run from `NewRuleScanner`
-/

namespace Felix.Calc

open Replication

variable {PK QK R P D : Type} [DecidableEq PK] [DecidableEq QK]

/-! ## What the calls leave in use -/

/-- The policy or profile a call is about. -/
def ScanOp.key : ScanOp PK QK R → PK ⊕ QK
  | .onPolicyActive key _ | .onPolicyInactive key => .inl key
  | .onProfileActive key _ | .onProfileInactive key => .inr key

/-- The rules a call leaves its policy or profile with: none once it is inactive. -/
def ScanOp.rules : ScanOp PK QK R → List R
  | .onPolicyActive _ policy => policy.inboundRules ++ policy.outboundRules
  | .onProfileActive _ profile => profile.inboundRules ++ profile.outboundRules
  | .onPolicyInactive _ | .onProfileInactive _ => []

/-- The rules of each policy and profile after the calls, from those of `rules`. -/
def rulesAfterFrom (rules : PK ⊕ QK → List R) (ops : List (ScanOp PK QK R)) : PK ⊕ QK → List R :=
  ops.foldl (fun rules op => Function.update rules op.key op.rules) rules

/-- The rules of each policy and profile after the calls. -/
def rulesAfter (ops : List (ScanOp PK QK R)) : PK ⊕ QK → List R := rulesAfterFrom (fun _ => []) ops

variable (ruleToParsedRule : R → P × List D) (uniqueID : D → String)

/-- The UIDs of the IP sets that the rules use. -/
def uidsOf (rules : List R) : List String :=
  rules.flatMap fun rule => (ruleToParsedRule rule).2.map uniqueID
attribute [grind] uidsOf

/-- The UIDs that some policy or profile uses after the calls. -/
def UsedAfter (ops : List (ScanOp PK QK R)) (uid : String) : Prop :=
  ∃ key, uid ∈ uidsOf ruleToParsedRule uniqueID (rulesAfter ops key)

/-- What a subscriber reads of a callback: the UID of an IP set made active or inactive. -/
def ScanCallback.ipSetChange : ScanCallback PK QK P D → Option (Change String)
  | .onIPSetActive ipSet => some (.started (uniqueID ipSet))
  | .onIPSetInactive (some ipSet) => some (.stopped (uniqueID ipSet))
  | _ => none
attribute [grind] ScanCallback.ipSetChange

/-- The IP set changes of the callbacks, in order. -/
def ipSetChanges (cbs : List (ScanCallback PK QK P D)) : List (Change String) :=
  cbs.filterMap (ScanCallback.ipSetChange uniqueID)
attribute [grind] ipSetChanges

/-! ## The IP sets of a list of rules -/

section Current

variable {ruleToParsedRule uniqueID}

/-- An association list whose every entry is stored under the UID of its IP set. -/
def KeyedBy (uniqueID : D → String) (m : AList (fun _ : String => D)) : Prop :=
  ∀ uid ipSet, m.lookup uid = some ipSet → uniqueID ipSet = uid

theorem keyedBy_foldl_insert {m : AList (fun _ : String => D)} (hm : KeyedBy uniqueID m)
    (ipSets : List D) :
    KeyedBy uniqueID (ipSets.foldl (fun m ipSet => m.insert (uniqueID ipSet) ipSet) m) ∧
      ∀ uid, uid ∈ ipSets.foldl (fun m ipSet => m.insert (uniqueID ipSet) ipSet) m ↔
        uid ∈ m ∨ uid ∈ ipSets.map uniqueID := by
  induction ipSets generalizing m with
  | nil => simpa using hm
  | cons d ds ih =>
    -- the first IP set goes in under its own UID
    have hm' : KeyedBy uniqueID (m.insert (uniqueID d) d) := by
      intro uid ipSet h
      by_cases hu : uid = uniqueID d
      · subst hu
        simp only [AList.lookup_insert, Option.some.injEq] at h
        rw [← h]
      · rw [AList.lookup_insert_ne hu] at h
        exact hm uid ipSet h
    obtain ⟨hk, hmem⟩ := ih hm'
    refine ⟨hk, fun uid => ?_⟩
    rw [List.foldl_cons, hmem, AList.mem_insert]
    simp only [List.map_cons, List.mem_cons]
    tauto

variable (ruleToParsedRule uniqueID) in
theorem currentUIDToIPSet_spec (inbound outbound : List R) :
    KeyedBy uniqueID (RuleScanner.currentUIDToIPSet ruleToParsedRule uniqueID inbound outbound) ∧
      ∀ uid, uid ∈ RuleScanner.currentUIDToIPSet ruleToParsedRule uniqueID inbound outbound ↔
        uid ∈ uidsOf ruleToParsedRule uniqueID (inbound ++ outbound) := by
  -- the outer fold over the rules, from any keyed list
  suffices h : ∀ (rules : List R) (m : AList (fun _ : String => D)), KeyedBy uniqueID m →
      KeyedBy uniqueID (rules.foldl (fun m rule =>
          (ruleToParsedRule rule).2.foldl (fun m ipSet => m.insert (uniqueID ipSet) ipSet) m) m) ∧
        ∀ uid, uid ∈ rules.foldl (fun m rule =>
            (ruleToParsedRule rule).2.foldl (fun m ipSet => m.insert (uniqueID ipSet) ipSet) m) m ↔
          uid ∈ m ∨ uid ∈ uidsOf ruleToParsedRule uniqueID rules by
    obtain ⟨hk, hmem⟩ := h (inbound ++ outbound) ∅ (fun _ _ h => by simp at h)
    exact ⟨hk, fun uid => (hmem uid).trans (by simp)⟩
  intro rules
  induction rules with
  | nil => exact fun m hm => ⟨hm, by simp [uidsOf]⟩
  | cons rule rules ih =>
    intro m hm
    obtain ⟨hk₁, hmem₁⟩ := keyedBy_foldl_insert hm (ruleToParsedRule rule).2
    obtain ⟨hk, hmem⟩ := ih _ hk₁
    refine ⟨hk, fun uid => ?_⟩
    rw [List.foldl_cons, hmem, hmem₁]
    simp only [uidsOf, List.flatMap_cons, List.mem_append]
    tauto

end Current

namespace RuleScanner

variable {ruleToParsedRule uniqueID}

/-! ## The invariant -/

/-- `ContainsKey` of `uidsToRulesIDs`: some policy or profile uses the UID. -/
def Active (rs : RuleScanner PK QK D) (uid : String) : Prop := uid ∈ rs.uidsToRulesIDs
attribute [grind] Active

variable (uniqueID) in
/-- The invariant of the scanner: the two maps are inverse and hold no empty set, and the
stored IP sets are those of the UIDs in use, each under its own UID. -/
structure Consistent (rs : RuleScanner PK QK D) : Prop where
  inverse : ∀ key uid, rs.rulesIDToUIDs.Mem key uid ↔ rs.uidsToRulesIDs.Mem uid key
  byKey : rs.rulesIDToUIDs.NoEmpty
  byUID : rs.uidsToRulesIDs.NoEmpty
  stored : ∀ uid, uid ∈ rs.ipSetsByUID ↔ rs.Active uid
  keyed : KeyedBy uniqueID rs.ipSetsByUID

variable (uniqueID) in
theorem consistent_new : Consistent uniqueID (newRuleScanner : RuleScanner PK QK D) where
  inverse _ _ := by simp [newRuleScanner, SetMap.Mem]
  byKey _ _ h := by simp [newRuleScanner] at h
  byUID _ _ h := by simp [newRuleScanner] at h
  stored _ := by simp [newRuleScanner, Active]
  keyed _ _ h := by simp [newRuleScanner] at h

variable {rs rs' rs₁ : RuleScanner PK QK D} {key : PK ⊕ QK} {uid : String}

/-- A UID is in use exactly when some policy or profile has it. -/
theorem Consistent.active_iff (h : Consistent uniqueID rs) :
    rs.Active uid ↔ ∃ key, rs.rulesIDToUIDs.Mem key uid := by
  simp only [Active, h.byUID.mem_keys_iff, h.inverse]

variable (uniqueID) in
/-- What a turn, a loop or a call does from a consistent state: the state stays consistent,
the stored pairs are those of `rel`, the callbacks replay the change of the UIDs in use, and
`OnIPSetInactive` is never called without an IP set. -/
structure Transition (rs rs' : RuleScanner PK QK D) (cbs : List (ScanCallback PK QK P D))
    (rel : PK ⊕ QK → String → Prop) : Prop where
  consistent : Consistent uniqueID rs'
  mem_iff : ∀ k u, rs'.rulesIDToUIDs.Mem k u ↔ rel k u
  replays : Replays rs.Active rs'.Active (ipSetChanges uniqueID cbs)
  no_nil : .onIPSetInactive none ∉ cbs

theorem Consistent.transition_nil (h : Consistent uniqueID rs) :
    Transition uniqueID rs rs ([] : List (ScanCallback PK QK P D)) rs.rulesIDToUIDs.Mem :=
  ⟨h, fun _ _ => Iff.rfl, fun _ => Iff.rfl, List.not_mem_nil⟩

theorem Transition.append {cbs₁ cbs₂ : List (ScanCallback PK QK P D)} {rel₁ rel₂ : PK ⊕ QK → String → Prop}
    {rs₂ : RuleScanner PK QK D} (h₁ : Transition uniqueID rs rs₁ cbs₁ rel₁)
    (h₂ : Transition uniqueID rs₁ rs₂ cbs₂ rel₂) : Transition uniqueID rs rs₂ (cbs₁ ++ cbs₂) rel₂ where
  consistent := h₂.consistent
  mem_iff := h₂.mem_iff
  replays := by
    rw [ipSetChanges, List.filterMap_append]
    exact h₁.replays.append h₂.replays
  no_nil := by
    rw [List.mem_append]
    exact fun h => h.elim h₁.no_nil h₂.no_nil

theorem Transition.congr {cbs : List (ScanCallback PK QK P D)} {rel rel' : PK ⊕ QK → String → Prop}
    (h : Transition uniqueID rs rs' cbs rel) (hrel : ∀ k u, rel k u ↔ rel' k u) :
    Transition uniqueID rs rs' cbs rel' :=
  { h with mem_iff := fun k u => (h.mem_iff k u).trans (hrel k u) }

/-! ## A turn of each loop -/

section Turns

variable {ipSet : D} {cbs : List (ScanCallback PK QK P D)}

theorem addUID_of_active (hB : uid ∈ rs.uidsToRulesIDs) :
    rs.addUID key uid ipSet = (({ rs with
      rulesIDToUIDs := rs.rulesIDToUIDs.put key uid
      uidsToRulesIDs := rs.uidsToRulesIDs.put uid key } : RuleScanner PK QK D),
      ([] : List (ScanCallback PK QK P D))) := by
  simp [addUID, hB]

theorem addUID_of_inactive (hB : uid ∉ rs.uidsToRulesIDs) :
    rs.addUID key uid ipSet = (({ rs with
      ipSetsByUID := rs.ipSetsByUID.insert uid ipSet
      rulesIDToUIDs := rs.rulesIDToUIDs.put key uid
      uidsToRulesIDs := rs.uidsToRulesIDs.put uid key } : RuleScanner PK QK D),
      [(.onIPSetActive ipSet : ScanCallback PK QK P D)]) := by
  simp [addUID, hB]

/-- **A turn of the add loop** records the pair, and makes its UID active if it was not. -/
theorem Consistent.addUID (h : Consistent uniqueID rs) (hd : uniqueID ipSet = uid)
    (hstep : rs.addUID key uid ipSet = (rs', cbs)) :
    Transition uniqueID rs rs' cbs fun k u => (k = key ∧ u = uid) ∨ rs.rulesIDToUIDs.Mem k u := by
  have hinv : ∀ k u, (rs.rulesIDToUIDs.put key uid).Mem k u ↔ (rs.uidsToRulesIDs.put uid key).Mem u k := by
    intro k u
    simp only [SetMap.mem_put, h.inverse]
    tauto
  by_cases hB : uid ∈ rs.uidsToRulesIDs
  · rw [addUID_of_active hB] at hstep
    obtain ⟨rfl, rfl⟩ := Prod.mk.inj hstep
    -- the UID was in use: only the pair is new
    have hact : ∀ u, u ∈ rs.uidsToRulesIDs.put uid key ↔ rs.Active u := by
      intro u
      rw [SetMap.mem_keys_put, Active]
      constructor
      · rintro (rfl | hu) <;> assumption
      · exact .inr
    refine ⟨⟨hinv, h.byKey.put key uid, h.byUID.put uid key, fun u => ?_, h.keyed⟩,
      fun k u => SetMap.mem_put, fun u => (hact u).symm, List.not_mem_nil⟩
    exact (h.stored u).trans (hact u).symm
  · rw [addUID_of_inactive hB] at hstep
    obtain ⟨rfl, rfl⟩ := Prod.mk.inj hstep
    -- the UID was not in use: its IP set is stored and it becomes active
    have hkeyed : KeyedBy uniqueID (rs.ipSetsByUID.insert uid ipSet) := by
      intro u d hu
      by_cases he : u = uid
      · subst he
        simp only [AList.lookup_insert, Option.some.injEq] at hu
        rw [← hu, hd]
      · rw [AList.lookup_insert_ne he] at hu
        exact h.keyed u d hu
    refine ⟨⟨hinv, h.byKey.put key uid, h.byUID.put uid key, fun u => ?_, hkeyed⟩,
      fun k u => SetMap.mem_put, ?_, by simp⟩
    · rw [AList.mem_insert, h.stored, Active, Active, SetMap.mem_keys_put]
    · simp only [ipSetChanges, List.filterMap_cons, List.filterMap_nil, ScanCallback.ipSetChange, hd]
      exact replays_started hB fun u => SetMap.mem_keys_put

/-- The scanner with the pair dropped from both maps, before the turn looks at what is left. -/
def discardPair (key : PK ⊕ QK) (uid : String) (rs : RuleScanner PK QK D) : RuleScanner PK QK D :=
  { rs with
    rulesIDToUIDs := rs.rulesIDToUIDs.discard key uid
    uidsToRulesIDs := rs.uidsToRulesIDs.discard uid key }
attribute [grind] discardPair

theorem removeUID_of_used (hB : uid ∈ (discardPair key uid rs).uidsToRulesIDs) :
    rs.removeUID key uid = (discardPair key uid rs, ([] : List (ScanCallback PK QK P D))) := by
  simp only [discardPair] at hB
  simp [removeUID, discardPair, hB]

theorem removeUID_of_unused (hB : uid ∉ (discardPair key uid rs).uidsToRulesIDs) :
    rs.removeUID key uid = ({ discardPair key uid rs with ipSetsByUID := rs.ipSetsByUID.erase uid },
      [(.onIPSetInactive (rs.ipSetsByUID.lookup uid) : ScanCallback PK QK P D)]) := by
  simp only [discardPair] at hB
  simp [removeUID, discardPair, hB]

/-- Dropping the pair leaves every other UID's use as it was. -/
theorem discardPair_active_of_ne (u : String) (hu : u ≠ uid) :
    (discardPair key uid rs).Active u ↔ rs.Active u :=
  SetMap.mem_keys_discard_of_ne hu

/-- **A turn of the remove loop** drops a pair the scanner holds, and makes its UID inactive
if that was its last user. -/
theorem Consistent.removeUID (h : Consistent uniqueID rs) (hm : rs.rulesIDToUIDs.Mem key uid)
    (hstep : rs.removeUID key uid = (rs', cbs)) :
    Transition uniqueID rs rs' cbs fun k u => ¬(k = key ∧ u = uid) ∧ rs.rulesIDToUIDs.Mem k u := by
  have hinv : ∀ k u, (discardPair key uid rs).rulesIDToUIDs.Mem k u ↔
      (discardPair key uid rs).uidsToRulesIDs.Mem u k := by
    intro k u
    simp only [discardPair, SetMap.mem_discard, h.inverse]
    tauto
  have hkey := h.byKey.discard key uid
  have huid := h.byUID.discard uid key
  have hact : rs.Active uid := h.active_iff.mpr ⟨key, hm⟩
  by_cases hB : uid ∈ (discardPair key uid rs).uidsToRulesIDs
  · rw [removeUID_of_used hB] at hstep
    obtain ⟨rfl, rfl⟩ := Prod.mk.inj hstep
    -- another policy or profile still uses the UID: nothing becomes inactive
    have hsame : ∀ u, rs.Active u ↔ (discardPair key uid rs).Active u := by
      intro u
      by_cases hu : u = uid
      · subst hu
        exact ⟨fun _ => hB, fun _ => hact⟩
      · exact (discardPair_active_of_ne u hu).symm
    refine ⟨⟨hinv, hkey, huid, fun u => (h.stored u).trans (hsame u), h.keyed⟩,
      fun k u => SetMap.mem_discard, hsame, List.not_mem_nil⟩
  · rw [removeUID_of_unused hB] at hstep
    obtain ⟨rfl, rfl⟩ := Prod.mk.inj hstep
    -- the last user is gone: the stored IP set, under this UID, is dropped and reported
    obtain ⟨ipSet', hlookup⟩ := Option.isSome_iff_exists.mp
      (AList.lookup_isSome.mpr ((h.stored uid).mpr hact))
    have hactive : ∀ u, (discardPair key uid rs).Active u ↔ u ≠ uid ∧ rs.Active u := by
      intro u
      by_cases hu : u = uid
      · subst hu
        exact ⟨fun h' => absurd h' hB, fun h' => absurd rfl h'.1⟩
      · exact (discardPair_active_of_ne u hu).trans (and_iff_right hu).symm
    refine ⟨⟨hinv, hkey, huid, fun u => ?_, fun u d hu => ?_⟩, fun k u => SetMap.mem_discard, ?_,
      by simp [hlookup]⟩
    · rw [AList.mem_erase, h.stored]
      exact (hactive u).symm
    · by_cases he : u = uid
      · subst he
        simp at hu
      · rw [AList.lookup_erase_ne he] at hu
        exact h.keyed u d hu
    · simp only [ipSetChanges, List.filterMap_cons, List.filterMap_nil, hlookup,
        ScanCallback.ipSetChange, h.keyed uid ipSet' hlookup]
      exact replays_stopped hact hactive

end Turns

/-! ## The loops and `updateRules` -/

section Loops

variable {cbs : List (ScanCallback PK QK P D)}

/-- **The add loop** records the key's pair with each UID it visits. -/
theorem Consistent.addUIDs (h : Consistent uniqueID rs) {es : List (Σ _ : String, D)}
    (hes : ∀ e ∈ es, uniqueID e.2 = e.1)
    (hrun : forEachPure (fun e rs => rs.addUID key e.1 e.2) es rs = (rs', cbs)) :
    Transition uniqueID rs rs' cbs fun k u => (k = key ∧ u ∈ es.map Sigma.fst) ∨ rs.rulesIDToUIDs.Mem k u := by
  induction es generalizing rs rs' cbs with
  | nil =>
    obtain ⟨rfl, rfl⟩ := Prod.mk.inj hrun
    exact h.transition_nil.congr fun k u => by simp
  | cons e es ih =>
    obtain ⟨rs₁, cbs₁, cbs₂, h₁, h₂, rfl⟩ := forEachPure_cons_eq hrun
    have t₁ := h.addUID (hes e (List.mem_cons_self ..)) h₁
    have t₂ := ih t₁.consistent (fun e' he' => hes e' (List.mem_cons_of_mem _ he')) h₂
    refine (t₁.append t₂).congr fun k u => ?_
    simp only [t₁.mem_iff, List.map_cons, List.mem_cons]
    tauto

/-- **The remove loop** drops the key's pair with each UID it visits, all of which it holds. -/
theorem Consistent.removeUIDs (h : Consistent uniqueID rs) {uids : List String} (hnd : uids.Nodup)
    (hmem : ∀ u ∈ uids, rs.rulesIDToUIDs.Mem key u)
    (hrun : forEachPure (RuleScanner.removeUID key) uids rs = (rs', cbs)) :
    Transition uniqueID rs rs' cbs fun k u => ¬(k = key ∧ u ∈ uids) ∧ rs.rulesIDToUIDs.Mem k u := by
  induction uids generalizing rs rs' cbs with
  | nil =>
    obtain ⟨rfl, rfl⟩ := Prod.mk.inj hrun
    exact h.transition_nil.congr fun k u => by simp
  | cons v vs ih =>
    obtain ⟨hv, hvs⟩ := List.nodup_cons.mp hnd
    obtain ⟨rs₁, cbs₁, cbs₂, h₁, h₂, rfl⟩ := forEachPure_cons_eq hrun
    have t₁ := h.removeUID (hmem v (List.mem_cons_self ..)) h₁
    -- the later UIDs differ from this one, so the key still holds them
    have hmem₁ : ∀ u ∈ vs, rs₁.rulesIDToUIDs.Mem key u := fun u hu =>
      (t₁.mem_iff key u).mpr ⟨fun he => hv (he.2 ▸ hu), hmem u (List.mem_cons_of_mem _ hu)⟩
    have t₂ := ih t₁.consistent hvs hmem₁ h₂
    refine (t₁.append t₂).congr fun k u => ?_
    simp only [t₁.mem_iff, List.mem_cons]
    tauto

theorem mem_addedUids {current : AList (fun _ : String => D)} (u : String) :
    u ∈ (rs.addedUids key current).map Sigma.fst ↔ u ∈ current ∧ ¬rs.rulesIDToUIDs.Mem key u := by
  rw [AList.mem_keys, AList.keys, List.keys]
  simp only [addedUids, List.mem_map, List.mem_filter, decide_eq_true_eq]
  constructor
  · rintro ⟨e, ⟨he, hn⟩, rfl⟩
    exact ⟨⟨e, he, rfl⟩, hn⟩
  · rintro ⟨⟨e, he, rfl⟩, hn⟩
    exact ⟨e, ⟨he, hn⟩, rfl⟩

theorem mem_removedUids {current : AList (fun _ : String => D)} (u : String) :
    u ∈ rs.removedUids key current ↔ rs.rulesIDToUIDs.Mem key u ∧ u ∉ current := by
  simp [removedUids, SetMap.Mem]

/-- **The two loops of `updateRules`, in any order.** Go ranges over the sets of added and of
removed UIDs in an order it does not specify; whatever order the two loops visit them in, the key
ends with exactly the UIDs of `current` and the other keys keep theirs. -/
theorem Consistent.updateLoops (h : Consistent uniqueID rs) {current : AList (fun _ : String => D)}
    (hkeyed : KeyedBy uniqueID current) {adds : List (Σ _ : String, D)} {removes : List String}
    (hadds : adds.Perm (rs.addedUids key current)) (hremoves : removes.Perm (rs.removedUids key current))
    {rs₂ : RuleScanner PK QK D} {cbs₁ cbs₂ : List (ScanCallback PK QK P D)}
    (h₁ : forEachPure (fun e rs => RuleScanner.addUID key e.1 e.2 rs) adds rs = (rs₁, cbs₁))
    (h₂ : forEachPure (RuleScanner.removeUID key) removes rs₁ = (rs₂, cbs₂)) :
    Transition uniqueID rs rs₂ (cbs₁ ++ cbs₂) fun k u =>
      if k = key then u ∈ current else rs.rulesIDToUIDs.Mem k u := by
  -- the add loop visits the new UIDs, each with the IP set stored under it
  have hes : ∀ e ∈ adds, uniqueID e.2 = e.1 := fun e he =>
    hkeyed e.1 e.2 (AList.mem_lookup_iff.mpr (List.mem_filter.mp (hadds.subset he)).1)
  have t₁ := h.addUIDs hes h₁
  -- the remove loop visits distinct UIDs that the key still holds after the add loop
  have hnd : removes.Nodup :=
    hremoves.nodup_iff.mpr (((rs.rulesIDToUIDs.lookup key).getD ∅).nodup.filter _)
  have hmem : ∀ u ∈ removes, rs₁.rulesIDToUIDs.Mem key u := fun u hu =>
    (t₁.mem_iff key u).mpr (.inr ((mem_removedUids u).mp (hremoves.subset hu)).1)
  have t₂ := t₁.consistent.removeUIDs hnd hmem h₂
  refine (t₁.append t₂).congr fun k u => ?_
  rw [t₁.mem_iff, (hadds.map Sigma.fst).mem_iff, mem_addedUids, hremoves.mem_iff, mem_removedUids]
  by_cases hk : k = key
  · subst hk
    simp only [if_true]
    tauto
  · simp [hk]

variable (ruleToParsedRule) in
/-- **`updateRules`** gives the key exactly the UIDs of its new rules and leaves the other
keys. -/
theorem Consistent.updateRules (h : Consistent uniqueID rs) {inbound outbound : List R}
    {untracked preDNAT : Bool} {origNamespace : String} {parsed : ParsedRules P}
    (hup : rs.updateRules ruleToParsedRule uniqueID key inbound outbound untracked preDNAT
      origNamespace = ((rs', cbs), parsed)) :
    Transition uniqueID rs rs' cbs fun k u =>
      if k = key then u ∈ uidsOf ruleToParsedRule uniqueID (inbound ++ outbound)
      else rs.rulesIDToUIDs.Mem k u := by
  obtain ⟨hkeyed, hcurrent⟩ := currentUIDToIPSet_spec ruleToParsedRule uniqueID inbound outbound
  simp only [RuleScanner.updateRules] at hup
  rcases h₁ : forEachPure (fun e rs => RuleScanner.addUID key e.1 e.2 rs)
      (rs.addedUids key (RuleScanner.currentUIDToIPSet ruleToParsedRule uniqueID inbound outbound))
      rs with ⟨rs₁, cbs₁⟩
  rcases h₂ : forEachPure (RuleScanner.removeUID (P := P) key)
      (rs.removedUids key (RuleScanner.currentUIDToIPSet ruleToParsedRule uniqueID inbound outbound))
      rs₁ with ⟨rs₂, cbs₂⟩
  rw [h₁] at hup
  simp only [h₂, Prod.mk.injEq] at hup
  obtain ⟨⟨rfl, rfl⟩, -⟩ := hup
  -- the model's order of the two loops is one of Go's
  refine (h.updateLoops hkeyed (List.Perm.refl _) (List.Perm.refl _) h₁ h₂).congr fun k u => ?_
  rw [hcurrent]

end Loops

/-! ## Calls and runs -/

section Runs

variable {cbs : List (ScanCallback PK QK P D)} {rules : PK ⊕ QK → List R}

/-- A call ends with a rules callback, which says nothing about IP sets. -/
theorem Transition.snoc {rel : PK ⊕ QK → String → Prop} (h : Transition uniqueID rs rs' cbs rel)
    (cb : ScanCallback PK QK P D) (hcb : cb.ipSetChange uniqueID = none)
    (hne : cb ≠ .onIPSetInactive none) : Transition uniqueID rs rs' (cbs ++ [cb]) rel where
  consistent := h.consistent
  mem_iff := h.mem_iff
  replays := by simpa [ipSetChanges, List.filterMap_append, hcb] using h.replays
  no_nil := by simpa [List.mem_append, Ne.symm hne] using h.no_nil

variable (ruleToParsedRule) in
/-- `updateRules` on a key and its rules, then a rules callback. -/
theorem Consistent.updateRules_snoc (h : Consistent uniqueID rs)
    (hrules : ∀ k u, rs.rulesIDToUIDs.Mem k u ↔ u ∈ uidsOf ruleToParsedRule uniqueID (rules k))
    {key : PK ⊕ QK} {inbound outbound : List R} {untracked preDNAT : Bool} {origNamespace : String}
    {parsed : ParsedRules P} (hup : rs.updateRules ruleToParsedRule uniqueID key inbound outbound
      untracked preDNAT origNamespace = ((rs', cbs), parsed))
    (cb : ScanCallback PK QK P D) (hcb : cb.ipSetChange uniqueID = none)
    (hne : cb ≠ .onIPSetInactive none) :
    Transition uniqueID rs rs' (cbs ++ [cb]) fun k u =>
      u ∈ uidsOf ruleToParsedRule uniqueID (Function.update rules key (inbound ++ outbound) k) := by
  refine ((h.updateRules ruleToParsedRule hup).snoc cb hcb hne).congr fun k u => ?_
  by_cases hk : k = key
  · subst hk
    simp
  · simp [hk, hrules]

variable (ruleToParsedRule) in
/-- **A call**: the policy or profile it is about gets the UIDs of the rules it leaves. -/
theorem Consistent.apply (h : Consistent uniqueID rs)
    (hrules : ∀ k u, rs.rulesIDToUIDs.Mem k u ↔ u ∈ uidsOf ruleToParsedRule uniqueID (rules k))
    {op : ScanOp PK QK R} (hop : rs.apply ruleToParsedRule uniqueID op = (rs', cbs)) :
    Transition uniqueID rs rs' cbs fun k u =>
      u ∈ uidsOf ruleToParsedRule uniqueID (Function.update rules op.key op.rules k) := by
  -- every call is `updateRules` on its key and rules, then its rules callback
  cases op with
  | onPolicyActive k pol =>
    rcases hu : rs.updateRules ruleToParsedRule uniqueID (.inl k) pol.inboundRules
      pol.outboundRules pol.doNotTrack pol.preDNAT pol.«namespace» with ⟨⟨rs₁, cbs₁⟩, parsed⟩
    simp only [RuleScanner.apply, RuleScanner.onPolicyActive, hu, Prod.mk.injEq] at hop
    obtain ⟨rfl, rfl⟩ := hop
    exact h.updateRules_snoc ruleToParsedRule hrules hu _ rfl (by simp)
  | onPolicyInactive k =>
    rcases hu : rs.updateRules ruleToParsedRule uniqueID (.inl k) [] [] false false "" with
      ⟨⟨rs₁, cbs₁⟩, parsed⟩
    simp only [RuleScanner.apply, RuleScanner.onPolicyInactive, hu, Prod.mk.injEq] at hop
    obtain ⟨rfl, rfl⟩ := hop
    exact h.updateRules_snoc ruleToParsedRule hrules hu _ rfl (by simp)
  | onProfileActive k prof =>
    rcases hu : rs.updateRules ruleToParsedRule uniqueID (.inr k) prof.inboundRules
      prof.outboundRules false false "" with ⟨⟨rs₁, cbs₁⟩, parsed⟩
    simp only [RuleScanner.apply, RuleScanner.onProfileActive, hu, Prod.mk.injEq] at hop
    obtain ⟨rfl, rfl⟩ := hop
    exact h.updateRules_snoc ruleToParsedRule hrules hu _ rfl (by simp)
  | onProfileInactive k =>
    rcases hu : rs.updateRules ruleToParsedRule uniqueID (.inr k) [] [] false false "" with
      ⟨⟨rs₁, cbs₁⟩, parsed⟩
    simp only [RuleScanner.apply, RuleScanner.onProfileInactive, hu, Prod.mk.injEq] at hop
    obtain ⟨rfl, rfl⟩ := hop
    exact h.updateRules_snoc ruleToParsedRule hrules hu _ rfl (by simp)

variable (ruleToParsedRule) in
/-- **A run**: every call is a transition, and the pairs stored follow the rules. -/
theorem Consistent.runFrom (h : Consistent uniqueID rs)
    (hrules : ∀ k u, rs.rulesIDToUIDs.Mem k u ↔ u ∈ uidsOf ruleToParsedRule uniqueID (rules k))
    {ops : List (ScanOp PK QK R)} (hrun : rs.runFrom ruleToParsedRule uniqueID ops = (rs', cbs)) :
    Transition uniqueID rs rs' cbs fun k u =>
      u ∈ uidsOf ruleToParsedRule uniqueID (rulesAfterFrom rules ops k) := by
  induction ops generalizing rs rs' cbs rules with
  | nil =>
    obtain ⟨rfl, rfl⟩ := Prod.mk.inj hrun
    exact h.transition_nil.congr hrules
  | cons op ops ih =>
    obtain ⟨rs₁, cbs₁, cbs₂, h₁, h₂, rfl⟩ := forEachPure_cons_eq hrun
    have t₁ := h.apply ruleToParsedRule hrules h₁
    exact t₁.append (ih t₁.consistent t₁.mem_iff h₂)

end Runs

end RuleScanner

/-- **The rule scanner's IP set invariant.** After any calls from `NewRuleScanner`, the UIDs
each policy or profile has in `rulesIDToUIDs` are exactly those of the rules it was left
with, and `uidsToRulesIDs` holds the same pairs the other way round; `ipSetsByUID` holds
exactly the UIDs some active policy or profile uses; `OnIPSetInactive` was never called
without an IP set; and a subscriber replaying the `OnIPSetActive` and `OnIPSetInactive`
calls from nothing never finds a UID already active when it is made active, or inactive
when it is made inactive, and ends holding exactly the UIDs in use. -/
theorem ruleScanner_ipSet_activity (ruleToParsedRule : R → P × List D) (uniqueID : D → String)
    (ops : List (ScanOp PK QK R)) {rs : RuleScanner PK QK D} {cbs : List (ScanCallback PK QK P D)}
    (hrun : RuleScanner.runFrom ruleToParsedRule uniqueID ops newRuleScanner = (rs, cbs)) :
    (∀ key uid, rs.rulesIDToUIDs.Mem key uid ↔ uid ∈ uidsOf ruleToParsedRule uniqueID (rulesAfter ops key)) ∧
      (∀ key uid, rs.uidsToRulesIDs.Mem uid key ↔ rs.rulesIDToUIDs.Mem key uid) ∧
      (∀ uid, uid ∈ rs.ipSetsByUID ↔ UsedAfter ruleToParsedRule uniqueID ops uid) ∧
      .onIPSetInactive none ∉ cbs ∧
      Replays (fun _ => False) (UsedAfter ruleToParsedRule uniqueID ops) (ipSetChanges uniqueID cbs) := by
  -- no key has a UID at the start, as no key has rules
  have hnew : ∀ k u, (newRuleScanner : RuleScanner PK QK D).rulesIDToUIDs.Mem k u ↔
      u ∈ uidsOf ruleToParsedRule uniqueID ([] : List R) := fun k u => by
    simp [newRuleScanner, SetMap.Mem, uidsOf]
  have t := (RuleScanner.consistent_new uniqueID).runFrom ruleToParsedRule hnew hrun
  -- the UIDs in use are those some key holds
  have hused : ∀ uid, rs.Active uid ↔ UsedAfter ruleToParsedRule uniqueID ops uid := fun uid =>
    t.consistent.active_iff.trans (exists_congr fun k => t.mem_iff k uid)
  refine ⟨t.mem_iff, fun k u => (t.consistent.inverse k u).symm,
    fun uid => (t.consistent.stored uid).trans (hused uid), t.no_nil, ?_⟩
  have hempty : ∀ uid, (newRuleScanner : RuleScanner PK QK D).Active uid ↔ False := by
    simp [RuleScanner.Active, newRuleScanner]
  exact (t.replays.congr_left hempty).congr_right hused

/-- A policy using the IP sets `a` and `b`, a profile using `a`, and the policy made
inactive: `a` stays active for the profile, `b` becomes inactive. A rule is the list of the
UIDs of its IP sets. -/
def scanDemo : List (ScanOp ℕ ℕ (List String)) :=
  [.onPolicyActive 1 ⟨"", [["a", "b"]], [], false, false⟩, .onProfileActive 7 ⟨[["a"]], []⟩,
    .onPolicyInactive 1]

example : ipSetChanges id
    (RuleScanner.runFrom (fun r : List String => ((), r)) id scanDemo newRuleScanner).2 =
      [.started "b", .started "a", .stopped "b"] := by
  decide

theorem ruleScanner_shared_ipSet_demo :
    ∃ rs cbs, RuleScanner.runFrom (fun r : List String => ((), r)) id scanDemo newRuleScanner =
        (rs, cbs) ∧
      (∀ key uid, rs.rulesIDToUIDs.Mem key uid ↔
        uid ∈ uidsOf (fun r : List String => ((), r)) id (rulesAfter scanDemo key)) ∧
      (∀ key uid, rs.uidsToRulesIDs.Mem uid key ↔ rs.rulesIDToUIDs.Mem key uid) ∧
      (∀ uid, uid ∈ rs.ipSetsByUID ↔ UsedAfter (fun r : List String => ((), r)) id scanDemo uid) ∧
      .onIPSetInactive none ∉ cbs ∧
      Replays (fun _ => False) (UsedAfter (fun r : List String => ((), r)) id scanDemo)
        (ipSetChanges id cbs) :=
  ⟨_, _, rfl, ruleScanner_ipSet_activity _ _ scanDemo rfl⟩

end Felix.Calc
