import Felix.Calc.ActiveRulesInvariant
import Felix.LabelIndex.InheritListed
import Mathlib

/-!
# What the active rules calculator was last told, over the updates

The calculator keeps the latest value every update gave: each policy and each profile's rules
in its own maps, and each local endpoint and each profile's labels and tags in its label index
(`ActiveRulesCalculator.Holds`). Its promise can therefore be stated over the updates alone
(`activeRulesCalculator_last_events`): a policy is active when the last update of the policy
gave it, its selector parses, and it matches the labels the last updates give some local
endpoint (`PolicyActiveAfter`); a profile is active when the last update of some local endpoint
lists it (`ProfileActiveAfter`).

Each operation of the label index keeps its records listing only the endpoints that name them
(`InheritIndex.Listed`), so a profile that one endpoint alone lists, twice, is listed with that
endpoint alone; deleting the endpoint then makes the calculator panic
(`activeRulesCalculator_duplicate_profile_panics`).

## Main definitions

* `lastGiven`: the value the last update about a key gave it
* `endpointLabels`: a local endpoint's labels after the updates, its own and then its profiles'
* `PolicyActiveAfter`, `ProfileActiveAfter`
* `ActiveRulesCalculator.Holds`: the calculator's maps hold the last values

## Main results

* `ActiveRulesCalculator.Holds.onUpdate`, `ActiveRulesCalculator.Holds.runFrom`
* `activeRulesCalculator_last_events`
* `ActiveRulesCalculator.listed_runFrom`: runs keep the index's records listing only the endpoints
  that name them
* `activeRulesCalculator_duplicate_profile_panics`
-/

namespace Felix.Calc

open Replication LabelIndex InheritIndex

variable {EK PK Sel Pol R : Type}

/-! ## What the updates last said of a key -/

/-- The value the last update that says something of a key gave it, `init` before any such
update: `valueOf u` is `some v` when `u` gives the key the value `v` (`none` for a deletion),
and `none` when `u` is about something else. -/
def lastGiven {U V : Type} (valueOf : U → Option (Option V)) (init : Option V) (updates : List U) :
    Option V :=
  updates.foldl (fun v u => (valueOf u).getD v) init

theorem lastGiven_append_singleton {U V : Type} (valueOf : U → Option (Option V)) (init : Option V)
    (updates : List U) (u : U) :
    lastGiven valueOf init (updates ++ [u]) = (valueOf u).getD (lastGiven valueOf init updates) := by
  rw [lastGiven, List.foldl_append, List.foldl_cons, List.foldl_nil]
  rfl

namespace ArcUpdate

/-- What an update says of the policy `key`. -/
def policyValue [DecidableEq PK] (key : PK) : ArcUpdate EK PK Pol R → Option (Option Pol)
  | .policy k value => if key = k then some value else none
  | _ => none

/-- What an update says of the local endpoint `key`. -/
def endpointValue [DecidableEq EK] (key : EK) : ArcUpdate EK PK Pol R → Option (Option LocalEndpoint)
  | .endpoint k value => if key = k then some value else none
  | _ => none

/-- What an update says of the rules of the profile `name`. -/
def profileRulesValue (name : String) : ArcUpdate EK PK Pol R → Option (Option (ProfileRules R))
  | .profileRules n value => if name = n then some value else none
  | _ => none

/-- What an update says of the labels of the profile `name`. -/
def profileLabelsValue (name : String) : ArcUpdate EK PK Pol R → Option (Option Labels)
  | .profileLabels n value => if name = n then some value else none
  | _ => none

/-- What an update says of the tags of the profile `name`. -/
def profileTagsValue (name : String) : ArcUpdate EK PK Pol R → Option (Option (List String))
  | .profileTags n value => if name = n then some value else none
  | _ => none

end ArcUpdate

/-! ## Activity in terms of the updates -/

section After

variable [DecidableEq EK] [DecidableEq PK] (updates : List (ArcUpdate EK PK Pol R))

/-- The labels and tags the updates last gave the profile `name`. -/
def profileData (name : String) : ParentData EK :=
  ⟨lastGiven (·.profileLabelsValue name) none updates,
    lastGiven (·.profileTagsValue name) none updates, none⟩

/-- The labels of a local endpoint after the updates, as `itemData.Get` reads them: its own
label, else the label or tag of that name of the first of its profiles that has one. -/
def endpointLabels (ep : LocalEndpoint) (labelName : String) : Option String :=
  match ep.labels.lookup labelName with
  | some value => some value
  | none => ep.profileIDs.findSome? fun p => (profileData updates p).get labelName

variable (evaluateLabels : Sel → (String → Option String) → Bool) (parseSelector : Pol → Option Sel)

/-- The policy `key` is active after the updates: the last update of the policy gave it, its
selector parses, and it matches the labels of some local endpoint the last update of the
endpoint gave. -/
def PolicyActiveAfter (key : PK) : Prop :=
  ∃ policy sel, lastGiven (·.policyValue key) none updates = some policy ∧
    parseSelector policy = some sel ∧
    ∃ e ep, lastGiven (·.endpointValue e) none updates = some ep ∧
      evaluateLabels sel (endpointLabels updates ep) = true

/-- The profile `name` is active after the updates: the last update of some local endpoint
lists it among the endpoint's profile IDs. -/
def ProfileActiveAfter (name : String) : Prop :=
  ∃ e ep, lastGiven (·.endpointValue e) none updates = some ep ∧ name ∈ ep.profileIDs

end After

namespace ActiveRulesCalculator

/-! ## The calls that write the maps -/

section Frames

variable [DecidableEq EK] [DecidableEq PK] {arc arc' : ActiveRulesCalculator EK PK Sel Pol R}
  {o : List (ArcCallback EK PK Pol R)}

omit [DecidableEq PK] [DecidableEq EK] in
theorem ProfilesOnly.forEachPure
    {body : String → ActiveRulesCalculator EK PK Sel Pol R →
      ActiveRulesCalculator EK PK Sel Pol R × List (ArcCallback EK PK Pol R)}
    (hbody : ∀ id arc, ProfilesOnly arc (body id arc).1) :
    ∀ (l : List String) (arc : ActiveRulesCalculator EK PK Sel Pol R),
      ProfilesOnly arc (Replication.forEachPure body l arc).1
  | [], _ => ⟨rfl, rfl, rfl, rfl⟩
  | id :: l, arc => (hbody id arc).trans (ProfilesOnly.forEachPure hbody l (body id arc).1)

omit [DecidableEq PK] in
/-- Recording an endpoint's profile IDs writes the profile map and the record alone. -/
theorem updateEndpointProfileIDs_profilesOnly (denyRule : R) (key : EK) (profileIDs : List String) :
    ProfilesOnly arc (arc.updateEndpointProfileIDs denyRule key profileIDs).1 := by
  rw [updateEndpointProfileIDs_eq]
  have hadd : ∀ id (a : ActiveRulesCalculator EK PK Sel Pol R),
      ProfilesOnly a (addProfileEndpoint denyRule key id a).1 := fun _ _ => ⟨rfl, rfl, rfl, rfl⟩
  have hrem : ∀ id (a : ActiveRulesCalculator EK PK Sel Pol R),
      ProfilesOnly a (removeProfileEndpoint denyRule key id a).1 := fun _ _ => ⟨rfl, rfl, rfl, rfl⟩
  exact ((⟨rfl, rfl, rfl, rfl⟩ : ProfilesOnly arc { arc with
    endpointKeyToProfileIDs := (arc.endpointKeyToProfileIDs.update key profileIDs).1 }).trans
      (ProfilesOnly.forEachPure hadd _ _)).trans (ProfilesOnly.forEachPure hrem _ _)

/-- An operation of the index, then its callbacks: the index is the operation's, and only the
policy map changes besides. -/
theorem updateLabelIndex_frame {UID : Type} [DecidableEq UID]
    {evaluateLabels : Sel → (String → Option String) → Bool} {uniqueID : Sel → UID}
    {op : Op EK PK Sel} (h : arc.updateLabelIndex evaluateLabels uniqueID op = .ok (arc', o)) :
    (∃ callbacks, arc.labelIndex.apply evaluateLabels uniqueID op = .ok (arc'.labelIndex, callbacks)) ∧
      IndexOnly arc arc' := by
  unfold updateLabelIndex at h
  obtain ⟨⟨idx', callbacks⟩, happ, hloop⟩ := bind_eq_ok h
  -- each callback stores or drops one pair of the policy map
  have hstep : ∀ (c : MatchCallback PK EK) (a a' : ActiveRulesCalculator EK PK Sel Pol R) o',
      IndexOnly arc a ∧ a.labelIndex = idx' → a.onMatch c = .ok (a', o') →
        IndexOnly arc a' ∧ a'.labelIndex = idx' := by
    rintro c a a' o' ⟨hio, hidx⟩ hc
    rcases c with ⟨key, e⟩ | ⟨key, e⟩
    · obtain ⟨rfl, -⟩ := onMatchStarted_eq hc
      exact ⟨⟨hio.1, hio.2, hio.3, hio.4⟩, hidx⟩
    · obtain ⟨rfl, -⟩ := onMatchStopped_eq hc
      exact ⟨⟨hio.1, hio.2, hio.3, hio.4⟩, hidx⟩
  have hloop' : forEach (fun callback arc => arc.onMatch callback) callbacks
      { arc with labelIndex := idx' } = .ok (arc', o) := hloop
  obtain ⟨hio, hidx⟩ := forEach_ok_induction (fun a => IndexOnly arc a ∧ a.labelIndex = idx') hstep
    (⟨⟨rfl, rfl, rfl, rfl⟩, rfl⟩ : IndexOnly arc { arc with labelIndex := idx' } ∧ _) hloop'
  exact ⟨⟨callbacks, by rw [hidx]; exact happ⟩, hio⟩

/-- An endpoint update that does not panic writes the profile maps alone, and then runs the
endpoint's operation on the index. -/
theorem onUpdate_endpoint_frame [DecidableEq Pol] [DecidableEq R] {UID : Type} [DecidableEq UID]
    {denyRule : R} {evaluateLabels : Sel → (String → Option String) → Bool} {uniqueID : Sel → UID}
    {parseSelector : Pol → Option Sel} {key : EK} {value : Option LocalEndpoint}
    (hu : arc.onUpdate denyRule evaluateLabels uniqueID parseSelector (.endpoint key value) =
      .ok (arc', o)) :
    ∃ arc₁ o₁, ProfilesOnly arc arc₁ ∧
      arc₁.updateLabelIndex evaluateLabels uniqueID (endpointOp key value) = .ok (arc', o₁) := by
  obtain ⟨arc₁, sent, o₂, hr, hidx, -⟩ := onUpdate_endpoint_eq_ok hu
  have hpo : ProfilesOnly arc (arc.updateEndpointProfileIDs denyRule key
      ((value.map (·.profileIDs)).getD [])).1 := updateEndpointProfileIDs_profilesOnly denyRule key _
  rw [hr] at hpo
  exact ⟨arc₁, o₂, hpo, hidx⟩

/-- A policy update that does not panic: a policy equal to the one held changes nothing;
otherwise the policy is stored, its selector parses, and the index updates the selector. -/
theorem onUpdate_policy_eq_ok [DecidableEq Pol] [DecidableEq R] {UID : Type} [DecidableEq UID]
    {denyRule : R} {evaluateLabels : Sel → (String → Option String) → Bool} {uniqueID : Sel → UID}
    {parseSelector : Pol → Option Sel} {key : PK} {policy : Pol}
    (hu : arc.onUpdate denyRule evaluateLabels uniqueID parseSelector (.policy key (some policy)) =
      .ok (arc', o)) :
    (arc.allPolicies.lookup key = some policy ∧ arc' = arc ∧ o = []) ∨
      ∃ sel callbacks, { arc with allPolicies := arc.allPolicies.insert key policy }.updateLabelIndex
        evaluateLabels uniqueID (.updateSelector key sel) = .ok (arc', callbacks) := by
  simp only [ActiveRulesCalculator.onUpdate] at hu
  by_cases hsame : arc.allPolicies.lookup key = some policy
  · rw [if_pos hsame] at hu
    obtain ⟨rfl, rfl⟩ := Prod.mk.inj (Except.ok.inj hu)
    exact .inl ⟨hsame, rfl, rfl⟩
  rw [if_neg hsame] at hu
  rcases hp : parseSelector policy with _ | sel
  · rw [hp] at hu
    cases hu
  rw [hp] at hu
  obtain ⟨⟨arc₂, callbacks⟩, hidx, hrest⟩ := bind_eq_ok hu
  -- whether or not the policy is sent, the calculator is the one the index left
  have harc : arc' = arc₂ := by
    split_ifs at hrest <;> obtain ⟨sent, -, hfin⟩ := bind_eq_ok hrest <;>
      exact (Prod.mk.inj (Except.ok.inj hfin)).1.symm
  subst harc
  exact .inr ⟨sel, callbacks, hidx⟩

end Frames

/-! ## The calculator holds the last values -/

section Holds

variable [DecidableEq EK] [DecidableEq PK] {arc arc' : ActiveRulesCalculator EK PK Sel Pol R}
  {o out : List (ArcCallback EK PK Pol R)} {updates : List (ArcUpdate EK PK Pol R)}

/-- The calculator holds what the updates last said: each policy and each profile's rules in
its maps, each local endpoint's labels and profile IDs as an item of its index, and each
profile's labels and tags in the index's record of the profile. -/
structure Holds (updates : List (ArcUpdate EK PK Pol R)) (arc : ActiveRulesCalculator EK PK Sel Pol R) :
    Prop where
  policies : ∀ key, arc.allPolicies.lookup key = lastGiven (·.policyValue key) none updates
  profileRules : ∀ name,
    arc.allProfileRules.lookup name = lastGiven (·.profileRulesValue name) none updates
  items : ∀ e, arc.labelIndex.itemDataByID.lookup e =
    (lastGiven (·.endpointValue e) none updates).map fun ep => ⟨ep.labels, ep.profileIDs⟩
  parents : ∀ p, arc.labelIndex.parentFields p =
    ((profileData updates p).labels, (profileData updates p).tags)

theorem holds_new :
    Holds ([] : List (ArcUpdate EK PK Pol R))
      (newActiveRulesCalculator : ActiveRulesCalculator EK PK Sel Pol R) where
  policies _ := rfl
  profileRules _ := rfl
  items _ := rfl
  parents _ := rfl

/-- One more update: each value the calculator holds is the one the update gives, or the one
it held when the update says nothing of it. -/
theorem Holds.snoc (h : Holds updates arc) (u : ArcUpdate EK PK Pol R)
    (hpol : ∀ key, arc'.allPolicies.lookup key = (u.policyValue key).getD (arc.allPolicies.lookup key))
    (hrules : ∀ name, arc'.allProfileRules.lookup name =
      (u.profileRulesValue name).getD (arc.allProfileRules.lookup name))
    (hitems : ∀ e, arc'.labelIndex.itemDataByID.lookup e =
      ((u.endpointValue e).map (·.map fun ep => ⟨ep.labels, ep.profileIDs⟩)).getD
        (arc.labelIndex.itemDataByID.lookup e))
    (hparents : ∀ p, arc'.labelIndex.parentFields p =
      ((u.profileLabelsValue p).getD (arc.labelIndex.parentFields p).1,
        (u.profileTagsValue p).getD (arc.labelIndex.parentFields p).2)) :
    Holds (updates ++ [u]) arc' where
  policies key := by rw [lastGiven_append_singleton, hpol, h.policies]
  profileRules name := by rw [lastGiven_append_singleton, hrules, h.profileRules]
  items e := by
    rw [lastGiven_append_singleton, hitems, h.items]
    cases u.endpointValue e <;> rfl
  parents p := by
    rw [hparents, h.parents]
    simp only [profileData, lastGiven_append_singleton]

variable {UID : Type} [DecidableEq UID] {evaluateLabels : Sel → (String → Option String) → Bool}
  {uniqueID : Sel → UID}

/-- An update the calculator hands to its index as the operation `op`, after writing its policy
map alone: the index holds the items and the parents' labels and tags the update gives when `op`
stores them. -/
theorem Holds.snoc_of_index (h : Holds updates arc) (u : ArcUpdate EK PK Pol R) {op : Op EK PK Sel}
    {arc₁ : ActiveRulesCalculator EK PK Sel Pol R}
    (hidx : arc₁.updateLabelIndex evaluateLabels uniqueID op = .ok (arc', o))
    (hlabel : arc₁.labelIndex = arc.labelIndex) (hrules : arc₁.allProfileRules = arc.allProfileRules)
    (hpol : ∀ key, arc₁.allPolicies.lookup key = (u.policyValue key).getD (arc.allPolicies.lookup key))
    (hurules : ∀ name, u.profileRulesValue name = none)
    (hitems : ∀ e d, op.itemData e d =
      ((u.endpointValue e).map (·.map fun ep => ⟨ep.labels, ep.profileIDs⟩)).getD d)
    (hparents : ∀ p fs, op.parentFields p fs =
      ((u.profileLabelsValue p).getD fs.1, (u.profileTagsValue p).getD fs.2)) :
    Holds (updates ++ [u]) arc' := by
  obtain ⟨⟨callbacks, happ⟩, hio⟩ := updateLabelIndex_frame hidx
  rw [hlabel] at happ
  refine h.snoc u (fun key => ?_) (fun name => ?_) (fun e => ?_) (fun p => ?_)
  · rw [hio.allPolicies, hpol]
  · rw [hio.allProfileRules, hrules, hurules, Option.getD_none]
  · rw [apply_itemData happ, hitems]
  · rw [apply_parentFields happ, hparents]

variable [DecidableEq Pol] [DecidableEq R] {denyRule : R} {parseSelector : Pol → Option Sel}

/-- **One update** that does not panic: the calculator holds the values it gives. -/
theorem Holds.onUpdate (h : Holds updates arc) {u : ArcUpdate EK PK Pol R}
    (hu : arc.onUpdate denyRule evaluateLabels uniqueID parseSelector u = .ok (arc', o)) :
    Holds (updates ++ [u]) arc' := by
  cases u with
  | endpoint key value =>
    -- the profile IDs first, then the endpoint's item in the index
    obtain ⟨arc₁, o₁, hpo, hidx⟩ := onUpdate_endpoint_frame hu
    refine h.snoc_of_index _ hidx hpo.labelIndex hpo.allProfileRules
      (fun _ => by rw [hpo.allPolicies]; rfl) (fun _ => rfl) (fun e d => ?_) (fun _ _ => ?_)
    · by_cases he : e = key <;> cases value <;>
        simp [endpointOp, Op.itemData, ArcUpdate.endpointValue, he]
    · cases value <;> rfl
  | policy key value =>
    cases value with
    | some policy =>
      rcases onUpdate_policy_eq_ok hu with ⟨hsame, rfl, rfl⟩ | ⟨sel, callbacks, hidx⟩
      · -- the policy held: nothing changes
        refine h.snoc _ (fun k => ?_) (fun _ => rfl) (fun _ => rfl) (fun _ => rfl)
        by_cases hk : k = key
        · subst hk
          simp [ArcUpdate.policyValue, hsame]
        · simp [ArcUpdate.policyValue, hk]
      refine h.snoc_of_index _ hidx rfl rfl (fun k => ?_) (fun _ => rfl) (fun _ _ => rfl)
        (fun _ _ => rfl)
      by_cases hk : k = key
      · subst hk
        simp [ArcUpdate.policyValue]
      · simp [ArcUpdate.policyValue, hk, AList.lookup_insert_ne hk]
    | none =>
      simp only [ActiveRulesCalculator.onUpdate] at hu
      refine h.snoc_of_index _ hu rfl rfl (fun k => ?_) (fun _ => rfl) (fun _ _ => rfl)
        (fun _ _ => rfl)
      by_cases hk : k = key
      · subst hk
        simp [ArcUpdate.policyValue]
      · simp [ArcUpdate.policyValue, hk, AList.lookup_erase_ne hk]
  | profileRules name value =>
    cases value with
    | some rules =>
      simp only [ActiveRulesCalculator.onUpdate] at hu
      by_cases hsame : arc.allProfileRules.lookup name = some rules
      · rw [if_pos hsame] at hu
        obtain ⟨rfl, rfl⟩ := Prod.mk.inj (Except.ok.inj hu)
        refine h.snoc _ (fun _ => rfl) (fun n => ?_) (fun _ => rfl) (fun _ => rfl)
        by_cases hn : n = name
        · subst hn
          simp [ArcUpdate.profileRulesValue, hsame]
        · simp [ArcUpdate.profileRulesValue, hn]
      rw [if_neg hsame] at hu
      obtain ⟨rfl, rfl⟩ := Prod.mk.inj (Except.ok.inj hu)
      refine h.snoc _ (fun _ => rfl) (fun n => ?_) (fun _ => rfl) (fun _ => rfl)
      by_cases hn : n = name
      · subst hn
        simp [ArcUpdate.profileRulesValue]
      · simp [ArcUpdate.profileRulesValue, hn, AList.lookup_insert_ne hn]
    | none =>
      simp only [ActiveRulesCalculator.onUpdate] at hu
      obtain ⟨rfl, rfl⟩ := Prod.mk.inj (Except.ok.inj hu)
      refine h.snoc _ (fun _ => rfl) (fun n => ?_) (fun _ => rfl) (fun _ => rfl)
      by_cases hn : n = name
      · subst hn
        simp [ArcUpdate.profileRulesValue]
      · simp [ArcUpdate.profileRulesValue, hn, AList.lookup_erase_ne hn]
  | profileLabels name value =>
    -- the profile's labels are those of its record in the index
    cases value <;> simp only [ActiveRulesCalculator.onUpdate] at hu <;>
      refine h.snoc_of_index _ hu rfl rfl (fun _ => rfl) (fun _ => rfl) (fun _ _ => rfl)
        (fun p _ => ?_) <;>
      by_cases hp : p = name <;> simp [Op.parentFields, ArcUpdate.profileLabelsValue, ArcUpdate.profileTagsValue, hp]
  | profileTags name value =>
    cases value <;> simp only [ActiveRulesCalculator.onUpdate] at hu <;>
      refine h.snoc_of_index _ hu rfl rfl (fun _ => rfl) (fun _ => rfl) (fun _ _ => rfl)
        (fun p _ => ?_) <;>
      by_cases hp : p = name <;> simp [Op.parentFields, ArcUpdate.profileLabelsValue, ArcUpdate.profileTagsValue, hp]

/-- **A run** of updates that does not panic: the calculator holds the values the updates
gave. -/
theorem Holds.runFrom (h : Holds updates arc) (us : List (ArcUpdate EK PK Pol R))
    (hrun : ActiveRulesCalculator.runFrom denyRule evaluateLabels uniqueID parseSelector us arc =
      .ok (arc', o)) :
    Holds (updates ++ us) arc' := by
  induction us generalizing updates arc arc' o with
  | nil =>
    obtain ⟨rfl, -⟩ := Prod.mk.inj (Except.ok.inj hrun)
    simpa using h
  | cons u us ih =>
    obtain ⟨arc₁, o₁, arc₂, o₂, h₁, h₂, hr⟩ := forEach_cons_eq_ok hrun
    obtain ⟨rfl, -⟩ := Prod.mk.inj hr
    rw [← List.singleton_append, ← List.append_assoc]
    exact ih (h.onUpdate h₁) h₂

/-! ## Activity in terms of the updates -/

omit [DecidableEq Pol] [DecidableEq R] in
/-- An endpoint's item reads the labels the updates give the endpoint. -/
theorem Holds.get_eq (h : Holds updates arc) (ep : LocalEndpoint) :
    arc.labelIndex.get ⟨ep.labels, ep.profileIDs⟩ = endpointLabels updates ep := by
  funext labelName
  unfold InheritIndex.get endpointLabels
  dsimp only
  cases ep.labels.lookup labelName with
  | some value => rfl
  | none =>
    -- each profile is read through the labels and tags its record holds
    show ep.profileIDs.findSome? (fun p => arc.labelIndex.parentLabel p labelName) = _
    congr 1
    funext p
    rw [parentLabel_eq_get_parentFields, h.parents p]
    rfl

omit [DecidableEq Pol] [DecidableEq R] in
variable (evaluateLabels parseSelector) in
theorem Holds.policyActive_iff (h : Holds updates arc) (key : PK) :
    arc.PolicyActive evaluateLabels parseSelector key ↔
      PolicyActiveAfter updates evaluateLabels parseSelector key := by
  unfold PolicyActive PolicyActiveAfter
  simp only [h.policies, h.items, Option.map_eq_some_iff]
  constructor
  · rintro ⟨policy, sel, hpol, hsel, e, _, ⟨ep, hep, rfl⟩, heval⟩
    exact ⟨policy, sel, hpol, hsel, e, ep, hep, by rw [← h.get_eq]; exact heval⟩
  · rintro ⟨policy, sel, hpol, hsel, e, ep, hep, heval⟩
    exact ⟨policy, sel, hpol, hsel, e, _, ⟨ep, hep, rfl⟩, by rw [h.get_eq]; exact heval⟩

omit [DecidableEq Pol] [DecidableEq R] in
theorem Holds.profileActive_iff (h : Holds updates arc) (name : String) :
    arc.ProfileActive name ↔ ProfileActiveAfter updates name := by
  unfold ProfileActive ProfileActiveAfter
  simp only [h.items, Option.map_eq_some_iff]
  constructor
  · rintro ⟨e, _, ⟨ep, hep, rfl⟩, hn⟩
    exact ⟨e, ep, hep, hn⟩
  · rintro ⟨e, ep, hep, hn⟩
    exact ⟨e, _, ⟨ep, hep, rfl⟩, hn⟩

end Holds

/-! ## The index's records list only the endpoints that name them -/

section Listed

variable [DecidableEq EK] [DecidableEq PK] {arc arc' : ActiveRulesCalculator EK PK Sel Pol R}
  {o : List (ArcCallback EK PK Pol R)} {UID : Type} [DecidableEq UID]
  {evaluateLabels : Sel → (String → Option String) → Bool} {uniqueID : Sel → UID}
  [DecidableEq Pol] [DecidableEq R] {denyRule : R} {parseSelector : Pol → Option Sel}

/-- One update that does not panic leaves the label index as it was or applies one operation
to it. -/
theorem onUpdate_labelIndex {u : ArcUpdate EK PK Pol R}
    (hu : arc.onUpdate denyRule evaluateLabels uniqueID parseSelector u = .ok (arc', o)) :
    arc'.labelIndex = arc.labelIndex ∨
      ∃ op callbacks, arc.labelIndex.apply evaluateLabels uniqueID op = .ok (arc'.labelIndex, callbacks) := by
  cases u with
  | endpoint key value =>
    -- recording the profile IDs leaves the index to the endpoint's operation
    obtain ⟨arc₁, o₁, hpo, hidx⟩ := onUpdate_endpoint_frame hu
    obtain ⟨⟨callbacks, happ⟩, -⟩ := updateLabelIndex_frame hidx
    rw [hpo.labelIndex] at happ
    exact .inr ⟨_, callbacks, happ⟩
  | policy key value =>
    cases value with
    | some policy =>
      rcases onUpdate_policy_eq_ok hu with ⟨-, rfl, -⟩ | ⟨sel, callbacks, hidx⟩
      · exact .inl rfl
      obtain ⟨⟨callbacks, happ⟩, -⟩ := updateLabelIndex_frame hidx
      exact .inr ⟨_, callbacks, happ⟩
    | none =>
      simp only [ActiveRulesCalculator.onUpdate] at hu
      obtain ⟨⟨callbacks, happ⟩, -⟩ := updateLabelIndex_frame hu
      exact .inr ⟨_, callbacks, happ⟩
  | profileRules name value =>
    -- the rules are the calculator's own: the index is untouched
    cases value with
    | some rules =>
      simp only [ActiveRulesCalculator.onUpdate] at hu
      split_ifs at hu <;> obtain ⟨rfl, -⟩ := Prod.mk.inj (Except.ok.inj hu) <;> exact .inl rfl
    | none =>
      simp only [ActiveRulesCalculator.onUpdate] at hu
      obtain ⟨rfl, -⟩ := Prod.mk.inj (Except.ok.inj hu)
      exact .inl rfl
  | profileLabels name value =>
    cases value <;> simp only [ActiveRulesCalculator.onUpdate] at hu <;>
      obtain ⟨⟨callbacks, happ⟩, -⟩ := updateLabelIndex_frame hu <;> exact .inr ⟨_, callbacks, happ⟩
  | profileTags name value =>
    cases value <;> simp only [ActiveRulesCalculator.onUpdate] at hu <;>
      obtain ⟨⟨callbacks, happ⟩, -⟩ := updateLabelIndex_frame hu <;> exact .inr ⟨_, callbacks, happ⟩

/-- **A run** that does not panic keeps the index's records listing only the endpoints that name
them. -/
theorem listed_runFrom (h : arc.labelIndex.Listed) (us : List (ArcUpdate EK PK Pol R))
    (hrun : ActiveRulesCalculator.runFrom denyRule evaluateLabels uniqueID parseSelector us arc =
      .ok (arc', o)) :
    arc'.labelIndex.Listed := by
  refine forEach_ok_induction (fun a : ActiveRulesCalculator EK PK Sel Pol R => a.labelIndex.Listed)
    (fun u a a' o' ha hu => ?_) h hrun
  rcases onUpdate_labelIndex hu with hidx | ⟨op, callbacks, happ⟩
  · rw [hidx]
    exact ha
  · exact ha.apply happ

/-- Deleting an endpoint: a panic of the index's operation is the calculator's. -/
theorem onUpdate_endpoint_none_of_error {e : String} {key : EK}
    (h : arc.labelIndex.deleteLabels evaluateLabels key = .error e) :
    arc.onUpdate denyRule evaluateLabels uniqueID parseSelector (.endpoint key none) = .error e := by
  have hpo : ProfilesOnly arc (arc.updateEndpointProfileIDs denyRule key []).1 :=
    updateEndpointProfileIDs_profilesOnly denyRule key []
  simp only [ActiveRulesCalculator.onUpdate, Option.map_none, Option.getD_none]
  rcases hr : arc.updateEndpointProfileIDs denyRule key [] with ⟨arc₁, sent⟩
  rw [hr] at hpo
  -- the deletion's operation runs on the index the profile IDs left as it was
  have hidx : arc₁.updateLabelIndex evaluateLabels uniqueID (endpointOp key none) = .error e := by
    unfold updateLabelIndex
    rw [hpo.labelIndex]
    change (arc.labelIndex.deleteLabels evaluateLabels key >>= _) = _
    rw [h]
    rfl
  simp only [hidx]
  rfl

end Listed

end ActiveRulesCalculator

open ActiveRulesCalculator in
/-- **The last calls of the active rules calculator.** After any updates of local endpoints,
policies and profiles (rules, labels and tags) that do not panic, and with selectors of the
same unique ID evaluating alike: the last call the rule scanner received about a policy sent
it as active, with the value the last update of the policy gave, exactly when that update gave
one whose selector matches the labels of some local endpoint, and otherwise sent it as inactive
or never came; the last call about a profile sent it as active, with the rules the last update
of its rules gave or `DummyDropRules` when none did, exactly when the last update of some local
endpoint lists it, and otherwise sent it as inactive or never came. -/
theorem activeRulesCalculator_last_events {UID : Type} [DecidableEq EK] [DecidableEq PK]
    [DecidableEq UID] [DecidableEq Pol] [DecidableEq R] (denyRule : R)
    (evaluateLabels : Sel → (String → Option String) → Bool) (uniqueID : Sel → UID)
    (parseSelector : Pol → Option Sel)
    (huid : ∀ s s', uniqueID s = uniqueID s' → evaluateLabels s = evaluateLabels s')
    (updates : List (ArcUpdate EK PK Pol R)) {arc : ActiveRulesCalculator EK PK Sel Pol R}
    {out : List (ArcCallback EK PK Pol R)}
    (hrun : runFrom denyRule evaluateLabels uniqueID parseSelector updates newActiveRulesCalculator =
      .ok (arc, out)) :
    (∀ key, PolicySent (fun key policy => lastGiven (·.policyValue key) none updates = some policy)
        (PolicyActiveAfter updates evaluateLabels parseSelector key) key (lastPolicyEvent key out)) ∧
      ∀ name, ProfileSent (ProfileActiveAfter updates name) name
        ((lastGiven (·.profileRulesValue name) none updates).getD (dummyDropRules denyRule))
        (lastProfileEvent name out) := by
  have h := (inv_new denyRule evaluateLabels parseSelector).runFrom huid updates hrun
  rw [List.nil_append] at h
  have hh := holds_new.runFrom updates hrun
  rw [List.nil_append] at hh
  -- the calculator's own view of activity, then its maps, are those of the updates
  refine ⟨fun key => ?_, fun name => ?_⟩
  · have hsent := (h.policySent key).congr ((h.policyActive_iff key).symm.trans
      (hh.policyActive_iff evaluateLabels parseSelector key))
    exact hsent.mono fun policy hp => (hh.policies key).symm.trans hp
  · have hsent := (h.profileSent name).congr ((h.profileActive_iff name).symm.trans
      (hh.profileActive_iff name))
    rw [profileRules, hh.profileRules name] at hsent
    exact hsent

/-- A profile whose labels a policy selects, an endpoint that joins it and a second profile,
the first profile's rules arriving while it is active, and the endpoint then leaving it. -/
def arcDemo : List (ArcUpdate ℕ ℕ String String) :=
  [.profileLabels "prof" (some ((∅ : Labels).insert "env" "prod")), .policy 7 (some "env"),
    .endpoint 1 (some ⟨∅, ["prof", "other"]⟩), .profileRules "prof" (some ⟨["allow"], []⟩),
    .endpoint 1 (some ⟨∅, ["other"]⟩)]

theorem activeRulesCalculator_last_events_demo :
    ∃ (arc : ActiveRulesCalculator ℕ ℕ String String String)
      (out : List (ArcCallback ℕ ℕ String String)),
      (∀ s s' : String, s = s' → hasLabel s = hasLabel s') ∧
      ActiveRulesCalculator.runFrom "deny" hasLabel (fun sel : String => sel) some arcDemo
        newActiveRulesCalculator = .ok (arc, out) ∧
      (∀ key, PolicySent (fun key policy => lastGiven (·.policyValue key) none arcDemo = some policy)
        (PolicyActiveAfter arcDemo hasLabel some key) key (lastPolicyEvent key out)) ∧
      ∀ name, ProfileSent (ProfileActiveAfter arcDemo name) name
        ((lastGiven (·.profileRulesValue name) none arcDemo).getD (dummyDropRules "deny"))
        (lastProfileEvent name out) :=
  ⟨_, _, fun _ _ h => h ▸ rfl, rfl,
    activeRulesCalculator_last_events "deny" hasLabel (fun sel : String => sel) some
      (fun _ _ h => h ▸ rfl) arcDemo rfl⟩

open ActiveRulesCalculator in
/-- **Deleting an endpoint that alone lists a profile twice panics.** After any updates that do
not panic, if the last update of a local endpoint lists the profile `p` twice among its profile
IDs and the last update of no other local endpoint lists `p`, the update that deletes the
endpoint panics: its label index leaves `p` once for each listing, and the second time the
profile's set of items is `nil`. -/
theorem activeRulesCalculator_duplicate_profile_panics {UID : Type} [DecidableEq EK] [DecidableEq PK]
    [DecidableEq UID] [DecidableEq Pol] [DecidableEq R] (denyRule : R)
    (evaluateLabels : Sel → (String → Option String) → Bool) (uniqueID : Sel → UID)
    (parseSelector : Pol → Option Sel) (updates : List (ArcUpdate EK PK Pol R))
    {arc : ActiveRulesCalculator EK PK Sel Pol R} {out : List (ArcCallback EK PK Pol R)}
    (hrun : runFrom denyRule evaluateLabels uniqueID parseSelector updates newActiveRulesCalculator =
      .ok (arc, out))
    (e : EK) (ep : LocalEndpoint) (p : String)
    (hep : lastGiven (·.endpointValue e) none updates = some ep) (hdup : List.Duplicate p ep.profileIDs)
    (honly : ∀ e' ep', e' ≠ e → lastGiven (·.endpointValue e') none updates = some ep' →
      p ∉ ep'.profileIDs) :
    arc.onUpdate denyRule evaluateLabels uniqueID parseSelector (.endpoint e none) =
      .error nilDereference := by
  have hh := holds_new.runFrom updates hrun
  rw [List.nil_append] at hh
  have hl : arc.labelIndex.Listed := listed_runFrom listed_new updates hrun
  -- the endpoint's item lists `p` twice, and no other item lists it
  have hd : arc.labelIndex.itemDataByID.lookup e = some ⟨ep.labels, ep.profileIDs⟩ := by
    rw [hh.items, hep]
    rfl
  have hothers : ∀ i d, i ≠ e → arc.labelIndex.itemDataByID.lookup i = some d → p ∉ d.parents := by
    intro i d hi hid
    rw [hh.items, Option.map_eq_some_iff] at hid
    obtain ⟨ep', hep', rfl⟩ := hid
    exact honly i ep' hi hep'
  exact onUpdate_endpoint_none_of_error (deleteLabels_of_duplicate evaluateLabels hl hd hdup hothers)

/-- A local endpoint that lists a profile twice. -/
def duplicateProfileDemo : List (ArcUpdate ℕ ℕ String String) :=
  [.endpoint 1 (some ⟨∅, ["prof", "prof"]⟩)]

/-- Deleting the endpoint that lists the profile twice panics. -/
theorem activeRulesCalculator_duplicate_profile_panics_demo :
    ∃ (arc : ActiveRulesCalculator ℕ ℕ String String String)
      (out : List (ArcCallback ℕ ℕ String String)),
      ActiveRulesCalculator.runFrom "deny" hasLabel (fun sel : String => sel) some duplicateProfileDemo
        newActiveRulesCalculator = .ok (arc, out) ∧
      lastGiven (·.endpointValue 1) none duplicateProfileDemo = some ⟨∅, ["prof", "prof"]⟩ ∧
      List.Duplicate "prof" ["prof", "prof"] ∧
      arc.onUpdate "deny" hasLabel (fun sel : String => sel) some (.endpoint 1 none) =
        .error nilDereference :=
  have hdup : List.Duplicate "prof" ["prof", "prof"] :=
    List.duplicate_cons_self_iff.mpr (List.mem_singleton_self _)
  ⟨_, _, rfl, rfl, hdup, activeRulesCalculator_duplicate_profile_panics "deny" hasLabel
    (fun sel : String => sel) some duplicateProfileDemo rfl 1 ⟨∅, ["prof", "prof"]⟩ "prof" rfl hdup
      fun e' ep' he h => by simp [duplicateProfileDemo, lastGiven, ArcUpdate.endpointValue, he] at h⟩

end Felix.Calc
