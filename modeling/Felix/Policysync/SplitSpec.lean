import Felix.Policysync.Split
import Felix.Calc.Dataplane

/-!
# Splitting keeps an IP set message's meaning

`splitMembers` cuts a list into chunks of at most `MaxMembersPerMessage` members that read the
list again when flattened, as many as the list's length over the chunk size, rounded up, and
at least one.

A dataplane reads an IP set message as `Dataplane.apply` does. The messages of
`splitIPSetUpdate` then do what the unsplit update does (`foldl_splitIPSetUpdate`): the
further chunks are deltas that only add. Two deltas of one set do what one delta with both
their members does when the second adds nothing the first removes (`apply_delta_delta`). The
delta loop consumes a chunk at every turn (`deltaStep_spec`), so it ends within as many turns
as there are chunks, and its messages add every added member and remove every removed one;
when no member is both added and removed, that is what the unsplit delta does
(`foldl_splitIPSetDeltaUpdate`).

## Main results

* `flatten_splitMembers`, `length_le_of_mem_splitMembers`, `length_splitMembers`
* `deltaStep_spec`, `length_deltaLoop_le`, `foldl_deltaLoop`, `deltaLoop_fuel`
* `split_preserves_meaning`: both splits keep the size bound and the meaning
-/

namespace Felix.Policysync

open Felix.Calc

/-! ## Chunks -/

section Members

variable {α : Type}

@[simp]
theorem splitMembersLoop_nil : splitMembersLoop ([] : List α) = [] := by
  rw [splitMembersLoop]

theorem splitMembersLoop_cons (m : α) (ms : List α) :
    splitMembersLoop (m :: ms) =
      (m :: ms).take maxMembersPerMessage ::
        splitMembersLoop ((m :: ms).drop maxMembersPerMessage) := by
  rw [splitMembersLoop]

/-- The chunks read the list. -/
theorem flatten_splitMembersLoop : ∀ l : List α, (splitMembersLoop l).flatten = l
  | [] => by rw [splitMembersLoop_nil, List.flatten_nil]
  | m :: ms => by
    rw [splitMembersLoop_cons, List.flatten_cons, flatten_splitMembersLoop, List.take_append_drop]
termination_by l => l.length
decreasing_by simp only [List.length_drop, List.length_cons, maxMembersPerMessage]; omega

/-- Every chunk has `MaxMembersPerMessage` members at most. -/
theorem length_le_of_mem_splitMembersLoop :
    ∀ l : List α, ∀ c ∈ splitMembersLoop l, c.length ≤ maxMembersPerMessage
  | [] => by simp
  | m :: ms => by
    intro c hc
    rw [splitMembersLoop_cons, List.mem_cons] at hc
    rcases hc with rfl | hc
    · exact List.length_take_le _ _
    · exact length_le_of_mem_splitMembersLoop _ c hc
termination_by l => l.length
decreasing_by simp only [List.length_drop, List.length_cons, maxMembersPerMessage]; omega

/-- There are as many chunks as the length over the chunk size, rounded up. -/
theorem length_splitMembersLoop : ∀ l : List α,
    (splitMembersLoop l).length = (l.length + maxMembersPerMessage - 1) / maxMembersPerMessage
  | [] => by simp [maxMembersPerMessage]
  | m :: ms => by
    rw [splitMembersLoop_cons, List.length_cons, length_splitMembersLoop, List.length_drop]
    simp only [List.length_cons, maxMembersPerMessage]
    omega
termination_by l => l.length
decreasing_by simp only [List.length_drop, List.length_cons, maxMembersPerMessage]; omega

theorem flatten_splitMembers (l : List α) : (splitMembers l).flatten = l := by
  unfold splitMembers
  split_ifs with h
  · rw [h]
    rfl
  · exact flatten_splitMembersLoop l

theorem length_le_of_mem_splitMembers {l : List α} :
    ∀ c ∈ splitMembers l, c.length ≤ maxMembersPerMessage := by
  unfold splitMembers
  split_ifs
  · simp
  · exact length_le_of_mem_splitMembersLoop l

/-- `splitMembers` has one chunk for the empty list, and otherwise the chunks of its loop. -/
theorem length_splitMembers (l : List α) :
    (splitMembers l).length =
      max 1 ((l.length + maxMembersPerMessage - 1) / maxMembersPerMessage) := by
  unfold splitMembers
  split_ifs with h
  · simp [h, maxMembersPerMessage]
  · have hl : 0 < l.length := List.length_pos_iff.mpr h
    rw [length_splitMembersLoop]
    simp only [maxMembersPerMessage]
    omega

theorem splitMembers_ne_nil (l : List α) : splitMembers l ≠ [] := by
  have h := length_splitMembers l
  intro hnil
  rw [hnil, List.length_nil] at h
  omega

end Members

/-! ## What IP set messages do -/

section Apply

variable {P : Payloads} (d : Dataplane P) (id : P.SetID)

/-- The members a delta leaves in a set: its added ones joined, then its removed ones taken. -/
theorem union_sdiff_union_sdiff {s a r a' r' : Finset P.Member} (h : Disjoint a' r) :
    ((s ∪ a) \ r ∪ a') \ r' = (s ∪ (a ∪ a')) \ (r ∪ r') := by
  ext x
  simp only [Finset.mem_sdiff, Finset.mem_union]
  have hx : x ∈ a' → x ∉ r := fun ha' hr => Finset.disjoint_left.mp h ha' hr
  tauto

/-- Two deltas of one set are one delta with the members of both, when the second adds nothing
the first removes. -/
theorem apply_delta_delta {a r a' r' : List P.Member} (h : List.Disjoint a' r) :
    (d.apply (.ipSetDeltaUpdate id a r)).apply (.ipSetDeltaUpdate id a' r') =
      d.apply (.ipSetDeltaUpdate id (a ++ a') (r ++ r')) := by
  have hfin : Disjoint a'.toFinset r.toFinset :=
    Finset.disjoint_left.mpr fun _ ha hr => h (List.mem_toFinset.mp ha) (List.mem_toFinset.mp hr)
  ext1
  · funext x
    by_cases hx : x = id
    · subst hx
      cases hd : d.ipSets x with
      | none => simp [Dataplane.apply, hd]
      | some e => simp [Dataplane.apply, hd, List.toFinset_append, union_sdiff_union_sdiff hfin]
    · simp [Dataplane.apply, Function.update_of_ne hx]
  all_goals rfl

/-- A delta reads its members as sets. -/
theorem apply_delta_congr {a r a' r' : List P.Member} (ha : a.toFinset = a'.toFinset)
    (hr : r.toFinset = r'.toFinset) :
    d.apply (.ipSetDeltaUpdate id a r) = d.apply (.ipSetDeltaUpdate id a' r') := by
  simp only [Dataplane.apply, ha, hr]

/-- A delta with no members changes nothing. -/
@[simp]
theorem apply_delta_nil : d.apply (.ipSetDeltaUpdate id [] []) = d := by
  ext1
  · funext x
    by_cases hx : x = id
    · subst hx
      cases hd : d.ipSets x <;> simp [Dataplane.apply, hd]
    · simp [Dataplane.apply]
  all_goals rfl

/-- A delta that only adds, after an update, is one update with both member lists. -/
theorem apply_update_delta (members a : List P.Member) (type : P.SetType) :
    (d.apply (.ipSetUpdate id members type)).apply (.ipSetDeltaUpdate id a []) =
      d.apply (.ipSetUpdate id (members ++ a) type) := by
  ext1
  · funext x
    by_cases hx : x = id
    · subst hx
      simp [Dataplane.apply, List.toFinset_append]
    · simp [Dataplane.apply, Function.update_of_ne hx]
  all_goals rfl

end Apply

/-! ## The update -/

section Update

variable {P : Payloads} (id : P.SetID)

/-- Deltas that add the chunks `rest`, after an update with `members`. -/
theorem foldl_apply_adds (type : P.SetType) (rest : List (List P.Member)) :
    ∀ (members : List P.Member) (d : Dataplane P),
      (rest.map fun ms => Message.ipSetDeltaUpdate id ms []).foldl Dataplane.apply
          (d.apply (.ipSetUpdate id members type)) =
        d.apply (.ipSetUpdate id (members ++ rest.flatten) type) := by
  induction rest with
  | nil => simp
  | cons c rest ih =>
    intro members d
    rw [List.map_cons, List.foldl_cons, apply_update_delta, ih, List.flatten_cons,
      List.append_assoc]

/-- `splitIPSetUpdate` is an update with the first chunk and deltas adding the others. -/
theorem splitIPSetUpdate_eq (members : List P.Member) (type : P.SetType) :
    ∃ first rest, splitMembers members = first :: rest ∧
      splitIPSetUpdate id members type =
        .ipSetUpdate id first type :: rest.map fun ms => .ipSetDeltaUpdate id ms [] := by
  cases h : splitMembers members with
  | nil => exact absurd h (splitMembers_ne_nil members)
  | cons first rest => exact ⟨first, rest, rfl, by rw [splitIPSetUpdate, h]⟩

/-- **The split update does what the update does.** -/
theorem foldl_splitIPSetUpdate (members : List P.Member) (type : P.SetType) (d : Dataplane P) :
    (splitIPSetUpdate id members type).foldl Dataplane.apply d =
      d.apply (.ipSetUpdate id members type) := by
  obtain ⟨first, rest, hsplit, heq⟩ := splitIPSetUpdate_eq id members type
  have hflat : first ++ rest.flatten = members := by
    rw [← List.flatten_cons, ← hsplit, flatten_splitMembers]
  rw [heq, List.foldl_cons, foldl_apply_adds, hflat]

end Update

/-! ## The delta loop -/

section Delta

variable {P : Payloads} (id : P.SetID)

/-- The chunks of a chunk list have `MaxMembersPerMessage` members at most. -/
def Chunked (cs : List (List P.Member)) : Prop := ∀ c ∈ cs, c.length ≤ maxMembersPerMessage

/-- **A turn of the delta loop.** It adds the first chunk of added members, if any, and either
removes the last chunk of removed members, when it fits beside it, or nothing, which only
happens when no chunk of removed members is left or a chunk of added members was taken. -/
theorem deltaStep_spec {adds dels : List (List P.Member)} (hadds : Chunked adds)
    (hdels : Chunked dels) :
    ∃ r dels',
      deltaStep id adds dels = (.ipSetDeltaUpdate id (adds.headD []) r, adds.tail, dels') ∧
      (adds.headD []).length + r.length ≤ maxMembersPerMessage ∧
      (dels = dels' ++ [r] ∨ (dels' = dels ∧ r = [] ∧ (dels = [] ∨ adds ≠ []))) := by
  have ha : (adds.headD []).length ≤ maxMembersPerMessage := by
    cases adds with
    | nil => exact Nat.zero_le _
    | cons a adds => exact hadds a List.mem_cons_self
  unfold deltaStep
  cases hl : dels.getLast? with
  | none =>
    have hnil : dels = [] := List.getLast?_eq_none_iff.mp hl
    exact ⟨[], dels, rfl, by simpa using ha, .inr ⟨rfl, rfl, .inl hnil⟩⟩
  | some c =>
    have hc : dels = dels.dropLast ++ [c] := (List.dropLast_append_getLast? c hl).symm
    by_cases hfit : (adds.headD []).length + c.length ≤ maxMembersPerMessage
    · exact ⟨c, dels.dropLast, by simp only [hfit, if_true], hfit, .inl hc⟩
    · refine ⟨[], dels, by simp only [hfit, if_false], by simpa using ha,
        .inr ⟨rfl, rfl, .inr ?_⟩⟩
      rintro rfl
      exact hfit (by simpa using hdels c (List.mem_of_getLast? hl))

section Turn

variable {adds dels dels' : List (List P.Member)} {r : List P.Member}

theorem Chunked.tail (h : Chunked adds) : Chunked adds.tail :=
  fun c hc => h c (List.mem_of_mem_tail hc)

/-- The removed chunks after a turn are removed chunks from before it. -/
theorem mem_of_turn
    (hrest : dels = dels' ++ [r] ∨ (dels' = dels ∧ r = [] ∧ (dels = [] ∨ adds ≠ [])))
    {c : List P.Member} (hc : c ∈ dels') : c ∈ dels := by
  rcases hrest with rfl | ⟨rfl, -, -⟩
  · exact List.mem_append_left _ hc
  · exact hc

theorem Chunked.of_turn (h : Chunked dels)
    (hrest : dels = dels' ++ [r] ∨ (dels' = dels ∧ r = [] ∧ (dels = [] ∨ adds ≠ []))) :
    Chunked dels' :=
  fun c hc => h c (mem_of_turn hrest hc)

/-- Every turn consumes a chunk. -/
theorem length_lt_of_turn (hpos : 0 < adds.length + dels.length)
    (hrest : dels = dels' ++ [r] ∨ (dels' = dels ∧ r = [] ∧ (dels = [] ∨ adds ≠ []))) :
    adds.tail.length + dels'.length < adds.length + dels.length := by
  rw [List.length_tail]
  rcases hrest with rfl | ⟨rfl, -, hnil | hne⟩
  · simp only [List.length_append, List.length_singleton]
    omega
  · subst hnil
    simp only [List.length_nil, Nat.add_zero] at hpos ⊢
    omega
  · have := List.length_pos_iff.mpr hne
    omega

/-- The removed members after a turn, with the chunk it removed, are those before it. -/
theorem toFinset_flatten_of_turn
    (hrest : dels = dels' ++ [r] ∨ (dels' = dels ∧ r = [] ∧ (dels = [] ∨ adds ≠ []))) :
    (r ++ dels'.flatten).toFinset = dels.flatten.toFinset := by
  rcases hrest with rfl | ⟨rfl, rfl, -⟩
  · rw [List.flatten_append, List.toFinset_append, List.toFinset_append, Finset.union_comm,
      List.flatten_singleton]
  · rfl

end Turn

theorem flatten_eq_headD_append_tail (adds : List (List P.Member)) :
    adds.flatten = adds.headD [] ++ adds.tail.flatten := by
  cases adds <;> rfl

/-- With no chunk left the loop stops. -/
theorem deltaLoop_nil (fuel : ℕ) : deltaLoop id fuel ([] : List (List P.Member)) [] = [] := by
  cases fuel <;> rfl

/-- The loop sends at most one message for each chunk. -/
theorem length_deltaLoop_le (fuel : ℕ) :
    ∀ {adds dels : List (List P.Member)}, Chunked adds → Chunked dels →
      (deltaLoop id fuel adds dels).length ≤ adds.length + dels.length := by
  induction fuel with
  | zero => intro adds dels _ _; exact Nat.zero_le _
  | succ fuel ih =>
    intro adds dels hadds hdels
    rw [deltaLoop]
    split_ifs with hpos
    · obtain ⟨r, dels', hstep, -, hrest⟩ := deltaStep_spec id hadds hdels
      rw [hstep, List.length_cons]
      have hlt := length_lt_of_turn hpos hrest
      have hle := ih hadds.tail (hdels.of_turn hrest)
      omega
    · exact Nat.zero_le _

/-- Every message of the loop is a delta of the set with `MaxMembersPerMessage` members at
most. -/
theorem mem_deltaLoop (fuel : ℕ) :
    ∀ {adds dels : List (List P.Member)}, Chunked adds → Chunked dels →
      ∀ m ∈ deltaLoop id fuel adds dels, ∃ a r, m = .ipSetDeltaUpdate id a r ∧
        a.length + r.length ≤ maxMembersPerMessage := by
  induction fuel with
  | zero => intro adds dels _ _ m hm; cases hm
  | succ fuel ih =>
    intro adds dels hadds hdels m hm
    rw [deltaLoop] at hm
    split_ifs at hm with hpos
    · obtain ⟨r, dels', hstep, hsize, hrest⟩ := deltaStep_spec id hadds hdels
      rw [hstep, List.mem_cons] at hm
      rcases hm with rfl | hm
      · exact ⟨_, r, rfl, hsize⟩
      · exact ih hadds.tail (hdels.of_turn hrest) m hm
    · cases hm

/-- **The loop's messages do what one delta does** with every chunk, when it has fuel for
every chunk and no member is both added and removed. -/
theorem foldl_deltaLoop (fuel : ℕ) :
    ∀ {adds dels : List (List P.Member)} (d : Dataplane P), Chunked adds → Chunked dels →
      adds.length + dels.length ≤ fuel → List.Disjoint adds.flatten dels.flatten →
        (deltaLoop id fuel adds dels).foldl Dataplane.apply d =
          d.apply (.ipSetDeltaUpdate id adds.flatten dels.flatten) := by
  induction fuel with
  | zero =>
    intro adds dels d _ _ hfuel _
    obtain ⟨rfl, rfl⟩ : adds = [] ∧ dels = [] := by
      rw [← List.length_eq_zero_iff, ← List.length_eq_zero_iff]
      omega
    rw [deltaLoop_nil]
    simp
  | succ fuel ih =>
    intro adds dels d hadds hdels hfuel hdisj
    rw [deltaLoop]
    split_ifs with hpos
    · obtain ⟨r, dels', hstep, -, hrest⟩ := deltaStep_spec id hadds hdels
      rw [hstep, List.foldl_cons]
      have hsub : ∀ x ∈ r ++ dels'.flatten, x ∈ dels.flatten := fun x hx =>
        List.mem_toFinset.mp (toFinset_flatten_of_turn hrest ▸ List.mem_toFinset.mpr hx)
      have hadds' : adds.flatten = adds.headD [] ++ adds.tail.flatten :=
        flatten_eq_headD_append_tail adds
      -- what is left to add is disjoint from what was and is left to remove
      have htail : ∀ x ∈ adds.tail.flatten, x ∈ adds.flatten := fun x hx => by
        rw [hadds']
        exact List.mem_append_right _ hx
      have hdisj' : List.Disjoint adds.tail.flatten dels'.flatten := fun x ha hd =>
        hdisj (htail x ha) (hsub x (List.mem_append_right _ hd))
      have hdisjr : List.Disjoint adds.tail.flatten r := fun x ha hr =>
        hdisj (htail x ha) (hsub x (List.mem_append_left _ hr))
      have hlt := length_lt_of_turn hpos hrest
      rw [ih _ hadds.tail (hdels.of_turn hrest) (by omega) hdisj', apply_delta_delta _ _ hdisjr,
        ← hadds']
      exact apply_delta_congr _ _ rfl (toFinset_flatten_of_turn hrest)
    · obtain ⟨rfl, rfl⟩ : adds = [] ∧ dels = [] := by
        rw [← List.length_eq_zero_iff, ← List.length_eq_zero_iff]
        omega
      simp

/-- **The fuel is a bound, not a cut**: with fuel for every chunk, more fuel sends the same
messages, so the loop is the source's loop, which runs until no chunk is left. -/
theorem deltaLoop_fuel (fuel : ℕ) :
    ∀ {adds dels : List (List P.Member)}, Chunked adds → Chunked dels →
      adds.length + dels.length ≤ fuel →
        deltaLoop id (fuel + 1) adds dels = deltaLoop id fuel adds dels := by
  induction fuel with
  | zero =>
    intro adds dels _ _ hfuel
    obtain ⟨rfl, rfl⟩ : adds = [] ∧ dels = [] := by
      rw [← List.length_eq_zero_iff, ← List.length_eq_zero_iff]
      omega
    rw [deltaLoop_nil, deltaLoop_nil]
  | succ fuel ih =>
    intro adds dels hadds hdels hfuel
    conv_lhs => rw [deltaLoop]
    conv_rhs => rw [deltaLoop]
    split_ifs with hpos
    · obtain ⟨r, dels', hstep, -, hrest⟩ := deltaStep_spec id hadds hdels
      have hlt := length_lt_of_turn hpos hrest
      rw [hstep]
      dsimp only
      rw [ih hadds.tail (hdels.of_turn hrest) (by omega)]
    · rfl

end Delta

/-! ## The split delta -/

section Split

variable {P : Payloads} (id : P.SetID)

theorem chunked_splitMembers (l : List P.Member) : Chunked (splitMembers l) :=
  fun _ hc => length_le_of_mem_splitMembers _ hc

/-- **The split delta does what the delta does**, when no member is both added and removed. -/
theorem foldl_splitIPSetDeltaUpdate {A R : List P.Member} (h : List.Disjoint A R)
    (d : Dataplane P) :
    (splitIPSetDeltaUpdate id A R).foldl Dataplane.apply d =
      d.apply (.ipSetDeltaUpdate id A R) := by
  have hdisj : List.Disjoint (splitMembers A).flatten (splitMembers R).flatten := by
    rw [flatten_splitMembers, flatten_splitMembers]
    exact h
  unfold splitIPSetDeltaUpdate
  rw [foldl_deltaLoop _ _ _ (chunked_splitMembers A) (chunked_splitMembers R) le_rfl hdisj,
    flatten_splitMembers, flatten_splitMembers]

/-- The split delta has at most one message for each chunk. -/
theorem length_splitIPSetDeltaUpdate_le (A R : List P.Member) :
    (splitIPSetDeltaUpdate id A R).length ≤
      max 1 ((A.length + maxMembersPerMessage - 1) / maxMembersPerMessage) +
        max 1 ((R.length + maxMembersPerMessage - 1) / maxMembersPerMessage) := by
  unfold splitIPSetDeltaUpdate
  rw [← length_splitMembers A, ← length_splitMembers R]
  exact length_deltaLoop_le _ _ (chunked_splitMembers A) (chunked_splitMembers R)

/-- The split delta has a message: there is always a chunk of added members. -/
theorem splitIPSetDeltaUpdate_ne_nil (A R : List P.Member) :
    splitIPSetDeltaUpdate id A R ≠ [] := by
  obtain ⟨c, cs, hc⟩ := List.exists_cons_of_ne_nil (splitMembers_ne_nil A)
  show deltaLoop id ((splitMembers A).length + (splitMembers R).length) (splitMembers A)
    (splitMembers R) ≠ []
  rw [hc, List.length_cons, Nat.add_right_comm, deltaLoop,
    if_pos (by simp only [List.length_cons]; omega)]
  split
  exact List.cons_ne_nil _ _

/-- **Splitting IP set messages for gRPC keeps their meaning and the size bound.** The split of
an update with the members `L` is an update followed by deltas, each with
`MaxMembersPerMessage` members at most, and applied in order to any dataplane they leave the
set with exactly the members of `L`. The split of a delta adding `A` and removing `R`, with no
member in both, has at least one message and at most one for each chunk of `A` and each chunk
of `R`; each is a delta of the set with `MaxMembersPerMessage` added and removed members at
most, and applied in order to a set `S` they leave `(S ∪ A) \ R`. -/
theorem split_preserves_meaning (type : P.SetType) :
    (∀ L : List P.Member,
      (∃ (first : List P.Member) (rest : List (List P.Member)),
        splitIPSetUpdate id L type =
          .ipSetUpdate id first type :: rest.map (fun ms => .ipSetDeltaUpdate id ms []) ∧
        first.length ≤ maxMembersPerMessage ∧
        ∀ ms ∈ rest, ms.length ≤ maxMembersPerMessage) ∧
      ∀ d : Dataplane P,
        ((splitIPSetUpdate id L type).foldl Dataplane.apply d).ipSets id =
          some (type, L.toFinset)) ∧
    ∀ A R : List P.Member, List.Disjoint A R →
      1 ≤ (splitIPSetDeltaUpdate id A R).length ∧
      (splitIPSetDeltaUpdate id A R).length ≤
        max 1 ((A.length + maxMembersPerMessage - 1) / maxMembersPerMessage) +
          max 1 ((R.length + maxMembersPerMessage - 1) / maxMembersPerMessage) ∧
      (∀ m ∈ splitIPSetDeltaUpdate id A R, ∃ a r, m = .ipSetDeltaUpdate id a r ∧
        a.length + r.length ≤ maxMembersPerMessage) ∧
      ∀ (d : Dataplane P) (t : P.SetType) (S : Finset P.Member), d.ipSets id = some (t, S) →
        ((splitIPSetDeltaUpdate id A R).foldl Dataplane.apply d).ipSets id =
          some (t, (S ∪ A.toFinset) \ R.toFinset) := by
  refine ⟨fun L => ⟨?_, fun d => ?_⟩,
    fun A R h => ⟨?_, length_splitIPSetDeltaUpdate_le id A R, ?_, fun d t S hS => ?_⟩⟩
  · obtain ⟨first, rest, hsplit, heq⟩ := splitIPSetUpdate_eq id L type
    have hchunks : ∀ c ∈ splitMembers L, c.length ≤ maxMembersPerMessage :=
      length_le_of_mem_splitMembers
    rw [hsplit] at hchunks
    exact ⟨first, rest, heq, hchunks first List.mem_cons_self,
      fun ms hms => hchunks ms (List.mem_cons_of_mem _ hms)⟩
  · rw [foldl_splitIPSetUpdate]
    simp [Dataplane.apply]
  · exact List.length_pos_iff.mpr (splitIPSetDeltaUpdate_ne_nil id A R)
  · exact mem_deltaLoop id _ (chunked_splitMembers A) (chunked_splitMembers R)
  · rw [foldl_splitIPSetDeltaUpdate id h]
    simp [Dataplane.apply, hS]

/-- Payloads with strings for IP set IDs, types and members, as the protobuf messages of the
policy-sync server carry them. -/
def stringPayloads : Payloads where
  SetID := String
  SetType := String
  Member := String
  PolicyKey := Unit
  ProfileKey := Unit
  Rules := Unit
  EndpointKey := Unit
  Endpoint := Unit
  Tiers := Unit

/-- A delta adding one member and removing another splits into one or two messages. -/
theorem split_preserves_meaning_oneEach :
    List.Disjoint (["10.0.0.1"] : List String) ["10.0.0.2"] ∧
      1 ≤ (splitIPSetDeltaUpdate (P := stringPayloads) "s" ["10.0.0.1"] ["10.0.0.2"]).length ∧
      (splitIPSetDeltaUpdate (P := stringPayloads) "s" ["10.0.0.1"] ["10.0.0.2"]).length ≤ 2 :=
    by
  have hd : List.Disjoint (["10.0.0.1"] : List String) ["10.0.0.2"] := by simp
  have h := (split_preserves_meaning (P := stringPayloads) "s" "hash:ip").2
    ["10.0.0.1"] ["10.0.0.2"] hd
  exact ⟨hd, h.1, h.2.1.trans (by decide)⟩

end Split

end Felix.Policysync
