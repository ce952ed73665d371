import Felix.Config.ConfigParams

/-!
# Resolution honours the sources' precedence

A raw value of a source is a value of the known parameter `p` when its name is `p`'s in some
case and the source may set `p` (`IsValueOf`). It is invalid when it is `none` for a non-zero
parameter, or does not parse for a parameter that dies on a parse failure (`Invalid`); a valid
one means the zero value, the parsed value or the default (`claimedValue`). The value of `p` in
effect is the one of the highest source that has one (`winner`).

`resolve` visits the raw values source by source from the highest (`rawEntries`). Each value
fails exactly when it is an invalid value of a known parameter (`resolveValue_error_iff`), so
the loops fail exactly when some value is invalid (`foldlM_resolveValue_ok_iff`). Otherwise the
state after the values visited so far holds, for every known parameter, the first of them that
is a value of the parameter (`Holds`), since the names of one source differ in every case and
the sources come in descending order (`resolveValue_holds`, `holds_foldlM`). After every value,
that is the winner (`resolve_spec`), and after any run of `UpdateFrom` the last call resolves
the raw maps the sources were last given (`updateFrom_resolves`).

## Main definitions

* `rawEntries`, `IsValueOf`, `Invalid`, `claimedValue`, `winner`, `Holds`, `lastRaw`

## Main results

* `resolveValue_error_iff`, `resolveValue_holds`: one raw value
* `foldlM_resolveValue_ok_iff`, `holds_foldlM`, `resolve_spec`: the loops
* `updateFrom_resolves`: the last call of a run of `UpdateFrom`
-/

namespace Felix.ConfigParams

section Spec

variable {V : Type} (toLower : String → String) (knownParams : String → Option (Param V))

/-- The raw values in the order `resolve` visits them, each with its source. -/
def rawEntries (raw : Source → List (String × String)) : List (Source × (String × String)) :=
  sourcesInDescendingOrder.flatMap fun s => (raw s).map (s, ·)

/-- The raw value `x.2` of the source `x.1` is a value of the parameter `p`: its name is `p`'s
in some case, and the source is local or `p` is not local-only. -/
def IsValueOf (p : Param V) (x : Source × (String × String)) : Prop :=
  toLower x.2.1 = toLower p.metadata.name ∧
    (p.metadata.«local» = true → x.1.isLocal = true)

instance (p : Param V) (x : Source × (String × String)) : Decidable (IsValueOf toLower p x) :=
  inferInstanceAs (Decidable (_ ∧ _))

/-- A raw value the parameter `p` rejects: `none`, in any case, for a non-zero parameter, or a
value that does not parse for a parameter that dies on a parse failure. -/
def Invalid (p : Param V) (v : String) : Prop :=
  (toLower v = "none" ∧ p.metadata.nonZero = true) ∨
    (toLower v ≠ "none" ∧ p.metadata.dieOnParseFailure = true ∧
      ∃ err, p.parse v = .error err)

/-- What a valid raw value means: the zero value for `none`, else the parsed value, or the
default for a value that does not parse. -/
def claimedValue (p : Param V) (v : String) : V :=
  if toLower v = "none" then p.metadata.zeroValue
  else
    match p.parse v with
    | .ok value => value
    | .error _ => p.metadata.default

/-- The value of `p` in effect: the first value of `p` of the highest source that has one. -/
def winner (raw : Source → List (String × String)) (p : Param V) : Option (Source × String) :=
  ((rawEntries raw).find? fun x => decide (IsValueOf toLower p x)).map fun x => (x.1, x.2.2)

/-- An entry of `rawEntries` that `resolve` rejects: an invalid value of a known parameter. -/
def BadEntry (x : Source × (String × String)) : Prop :=
  ∃ p, knownParams (toLower x.2.1) = some p ∧ IsValueOf toLower p x ∧ Invalid toLower p x.2.2

/-- The order of `rawEntries`: a later entry is of a lower source, or of the same source under
a name that differs in every case. -/
def Earlier (y x : Source × (String × String)) : Prop :=
  x.1.toNat < y.1.toNat ∨ (y.1 = x.1 ∧ toLower y.2.1 ≠ toLower x.2.1)

/-- The names of a raw map differ in every case. -/
def DistinctNames (raw : List (String × String)) : Prop :=
  raw.Pairwise fun a b => toLower a.1 ≠ toLower b.1

instance (raw : List (String × String)) : Decidable (DistinctNames toLower raw) :=
  inferInstanceAs (Decidable (List.Pairwise _ _))

/-- What the state of `resolve` holds of the known parameter `p`, filed under `k`, after the
entries `P`: the first of them that is a value of `p` is its source, field and raw value; when
there is none, it has no source and no raw value. -/
def HoldsAt (P : List (Source × (String × String))) (st : Resolving V) (k : String)
    (p : Param V) : Prop :=
  match P.find? fun y => decide (IsValueOf toLower p y) with
  | some x =>
    st.nameToSource k = x.1 ∧ st.fields p.metadata.name = claimedValue toLower p x.2.2 ∧
      st.newRawValues.lookup p.metadata.name = some x.2.2
  | none => st.nameToSource k = .default ∧ st.newRawValues.lookup p.metadata.name = none
attribute [grind] HoldsAt

/-- `HoldsAt` for every known parameter. -/
def Holds (P : List (Source × (String × String))) (st : Resolving V) : Prop :=
  ∀ k p, knownParams k = some p → HoldsAt toLower P st k p

/-- The raw map each source was last given, without its empty values: what `UpdateFrom`
stores. -/
def lastRaw (init : Source → List (String × String))
    (calls : List (List (String × String) × Source)) : Source → List (String × String) :=
  calls.foldl (fun raws c => Function.update raws c.2 (c.1.filter fun e => e.2 ≠ "")) init

end Spec

section Values

variable {V : Type} {toLower : String → String}

theorem parseValue_eq_ok {p : Param V} {v : String} (h : ¬ Invalid toLower p v) :
    parseValue toLower p v = .ok (claimedValue toLower p v) := by
  unfold Invalid at h
  unfold parseValue claimedValue
  by_cases hn : toLower v = "none"
  · have hz : p.metadata.nonZero = false := by simpa [hn] using h
    simp [hn, hz]
  · cases hp : p.parse v with
    | ok value => simp [hn]
    | error err =>
      have hd : p.metadata.dieOnParseFailure = false := by simpa [hn, hp] using h
      simp [hn, hd]

theorem parseValue_error_of_invalid {p : Param V} {v : String} (h : Invalid toLower p v) :
    ∃ err, parseValue toLower p v = .error err := by
  unfold parseValue
  rcases h with ⟨hn, hz⟩ | ⟨hn, hd, err, hp⟩
  · exact ⟨"non-zero field cannot be set to none", by simp [hn, hz]⟩
  · exact ⟨err, by simp [hn, hd, hp]⟩

theorem eq_claimedValue_of_parseValue {p : Param V} {v : String} {w : V}
    (h : parseValue toLower p v = .ok w) : w = claimedValue toLower p v := by
  by_cases hinv : Invalid toLower p v
  · obtain ⟨err, herr⟩ := parseValue_error_of_invalid hinv
    rw [herr] at h
    cases h
  · rw [parseValue_eq_ok hinv] at h
    injection h with h
    exact h.symm

end Values

section Entries

variable {V : Type} {toLower : String → String} {knownParams : String → Option (Param V)}

/-! ## What the state holds of one parameter -/

theorem holdsAt_append_of_not {P : List (Source × (String × String))} {st : Resolving V}
    {k : String} {p : Param V} {x : Source × (String × String)} (hx : ¬ IsValueOf toLower p x) :
    HoldsAt toLower (P ++ [x]) st k p ↔ HoldsAt toLower P st k p := by
  unfold HoldsAt
  rw [List.find?_append]
  simp [hx]

theorem holdsAt_append_of_isSome {P : List (Source × (String × String))} {st : Resolving V}
    {k : String} {p : Param V} {x : Source × (String × String)}
    (h : (P.find? fun y => decide (IsValueOf toLower p y)).isSome) :
    HoldsAt toLower (P ++ [x]) st k p ↔ HoldsAt toLower P st k p := by
  obtain ⟨y, hy⟩ := Option.isSome_iff_exists.mp h
  unfold HoldsAt
  rw [List.find?_append, hy]
  rfl

/-- What the state holds of a parameter is read at its key and its name only. -/
theorem HoldsAt.congr {P : List (Source × (String × String))} {st st' : Resolving V}
    {k : String} {p : Param V} (h : HoldsAt toLower P st k p)
    (hs : st'.nameToSource k = st.nameToSource k)
    (hf : st'.fields p.metadata.name = st.fields p.metadata.name)
    (hr : st'.newRawValues.lookup p.metadata.name = st.newRawValues.lookup p.metadata.name) :
    HoldsAt toLower P st' k p := by
  unfold HoldsAt at h ⊢
  rw [hs, hf, hr]
  exact h

/-- The first value of a parameter, written. -/
theorem holdsAt_write {P : List (Source × (String × String))} {st' : Resolving V} {k : String}
    {p : Param V} {x : Source × (String × String)}
    (hnone : (P.find? fun y => decide (IsValueOf toLower p y)) = none) (hx : IsValueOf toLower p x)
    (hs : st'.nameToSource k = x.1) (hf : st'.fields p.metadata.name = claimedValue toLower p x.2.2)
    (hr : st'.newRawValues.lookup p.metadata.name = some x.2.2) :
    HoldsAt toLower (P ++ [x]) st' k p := by
  unfold HoldsAt
  rw [List.find?_append, hnone]
  simp [hx, hs, hf, hr]

/-! ## One raw value -/

/-- A raw value that is no value of the known parameter `p` leaves what the state holds of `p`:
the source at its key, its field and its raw value. -/
theorem resolveValue_frame
    (hknown : ∀ k p, knownParams k = some p → toLower p.metadata.name = k) {source : Source}
    {st st' : Resolving V} {x : String × String}
    (hx : resolveValue toLower knownParams source st x = .ok st') {k : String} {p : Param V}
    (hk : knownParams k = some p) (hv : ¬ IsValueOf toLower p (source, x)) :
    st'.nameToSource k = st.nameToSource k ∧
      st'.fields p.metadata.name = st.fields p.metadata.name ∧
      st'.newRawValues.lookup p.metadata.name = st.newRawValues.lookup p.metadata.name := by
  obtain ⟨rawName, rawValue⟩ := x
  have hk' := hknown k p hk
  unfold resolveValue at hx
  dsimp only at hx
  cases hq : knownParams (toLower rawName) with
  | none =>
    -- an unknown name is neither `p`'s key nor `p`'s name
    simp only [hq] at hx
    have hne : toLower rawName ≠ k := fun h => by rw [h, hk] at hq; cases hq
    have hname : p.metadata.name ≠ rawName := fun h => hne (h ▸ hk')
    split_ifs at hx
    · cases hx
      simp [Function.update_of_ne (Ne.symm hne), AList.lookup_insert_ne hname]
    · cases hx
      simp
  | some q =>
    simp only [hq] at hx
    by_cases hloc : (q.metadata.«local» && !source.isLocal) = true
    · simp only [hloc, if_true] at hx
      cases hx
      simp
    simp only [hloc] at hx
    cases hpv : parseValue toLower q rawValue with
    | error err => simp [hpv] at hx
    | ok value =>
      simp only [hpv] at hx
      by_cases hlt : source.toNat < (st.nameToSource (toLower rawName)).toNat
      · simp only [hlt, if_true] at hx
        cases hx
        simp
      simp only [hlt, if_false] at hx
      cases hx
      -- the value written is `q`'s, and `q` is not `p`: else the raw value would be `p`'s
      have hne : toLower rawName ≠ k := by
        intro h
        have hqp : q = p := by
          rw [h, hk] at hq
          exact (Option.some.inj hq).symm
        subst hqp
        exact hv ⟨h.trans hk'.symm, fun hl => by simpa [hl] using hloc⟩
      have hname : q.metadata.name ≠ p.metadata.name := fun h =>
        hne (by rw [← hknown _ q hq, h, hk'])
      simp [Function.update_of_ne (Ne.symm hne), Function.update_of_ne (Ne.symm hname),
        AList.lookup_insert_ne (Ne.symm hname)]

/-- **One raw value.** After a raw value `x` that follows the entries `P` in the order of
`rawEntries`, the state holds, for every known parameter, its first value among `P` and `x`. -/
theorem resolveValue_holds
    (hknown : ∀ k p, knownParams k = some p → toLower p.metadata.name = k)
    {P : List (Source × (String × String))} {st st' : Resolving V}
    {x : Source × (String × String)} (h : Holds toLower knownParams P st)
    (hP : ∀ y ∈ P, Earlier toLower y x)
    (hx : resolveValue toLower knownParams x.1 st x.2 = .ok st') :
    Holds toLower knownParams (P ++ [x]) st' := by
  intro k p hk
  by_cases hv : IsValueOf toLower p x
  swap
  · obtain ⟨hs, hf, hr⟩ := resolveValue_frame hknown hx hk hv
    exact (holdsAt_append_of_not hv).mpr ((h k p hk).congr hs hf hr)
  -- `x` is a value of `p`, filed under `p`'s key
  obtain ⟨source, rawName, rawValue⟩ := x
  have hkx : toLower rawName = k := hv.1.trans (hknown k p hk)
  subst hkx
  have hloc : ¬ (p.metadata.«local» && !source.isLocal) = true := by
    intro hl
    simp only [Bool.and_eq_true, Bool.not_eq_eq_eq_not, Bool.not_true] at hl
    simp [hv.2 hl.1] at hl
  unfold resolveValue at hx
  simp only [hk, hloc] at hx
  cases hpv : parseValue toLower p rawValue with
  | error err => simp [hpv] at hx
  | ok value =>
    simp only [hpv] at hx
    -- the first value of `p` among `P`, if any, is of a higher source
    have hfirst : ∀ y, (P.find? fun y => decide (IsValueOf toLower p y)) = some y →
        source.toNat < y.1.toNat := by
      intro y hy
      have hyv : IsValueOf toLower p y := by simpa using List.find?_some hy
      rcases hP y (List.mem_of_find?_eq_some hy) with hlt | ⟨_, hne⟩
      · exact hlt
      · exact absurd (hyv.1.trans hv.1.symm) hne
    have hat := h _ p hk
    unfold HoldsAt at hat
    by_cases hlt : source.toNat < (st.nameToSource (toLower rawName)).toNat
    · -- a higher source already gave `p`: nothing changes
      simp only [hlt, if_true] at hx
      cases hx
      cases hf : P.find? fun y => decide (IsValueOf toLower p y) with
      | none =>
        rw [hf] at hat
        rw [hat.1] at hlt
        simp [Source.toNat] at hlt
      | some y => exact (holdsAt_append_of_isSome (by simp [hf])).mpr (h _ p hk)
    · -- `x` is the first value of `p`, and it is written
      simp only [hlt] at hx
      cases hx
      have hnone : (P.find? fun y => decide (IsValueOf toLower p y)) = none := by
        cases hf : P.find? fun y => decide (IsValueOf toLower p y) with
        | none => rfl
        | some y =>
          rw [hf] at hat
          exact absurd (hat.1 ▸ hfirst y hf) hlt
      exact holdsAt_write hnone hv (by simp) (by simp [eq_claimedValue_of_parseValue hpv])
        (by simp)

/-- **One raw value fails** exactly when it is an invalid value of a known parameter. -/
theorem resolveValue_error_iff
    (hknown : ∀ k p, knownParams k = some p → toLower p.metadata.name = k) (source : Source)
    (st : Resolving V) (x : String × String) :
    (∃ e, resolveValue toLower knownParams source st x = .error e) ↔
      BadEntry toLower knownParams (source, x) := by
  obtain ⟨rawName, rawValue⟩ := x
  unfold BadEntry resolveValue
  dsimp only
  cases hq : knownParams (toLower rawName) with
  | none => split_ifs <;> simp
  | some q =>
    have hname : toLower rawName = toLower q.metadata.name := (hknown _ q hq).symm
    simp only [Option.some.injEq, exists_eq_left', IsValueOf, hname, true_and]
    by_cases hloc : (q.metadata.«local» && !source.isLocal) = true
    · simp only [Bool.and_eq_true, Bool.not_eq_eq_eq_not, Bool.not_true] at hloc
      simp [hloc]
    have hloc' : q.metadata.«local» = true → source.isLocal = true := by
      intro hl
      simpa [hl] using hloc
    simp only [hloc, Bool.false_eq_true, if_false]
    by_cases hinv : Invalid toLower q rawValue
    · obtain ⟨err, herr⟩ := parseValue_error_of_invalid hinv
      simp only [herr]
      exact ⟨fun _ => ⟨hloc', hinv⟩, fun _ => ⟨_, rfl⟩⟩
    · rw [parseValue_eq_ok hinv]
      simp only [hinv, and_false, iff_false, not_exists]
      intro e
      split_ifs <;> simp

end Entries

section Loops

variable {V : Type} {toLower : String → String} {knownParams : String → Option (Param V)}

/-- The two loops of `resolve` are one loop over `rawEntries`. -/
theorem resolveLoop_eq (raw : Source → List (String × String)) (st : Resolving V) :
    resolveLoop toLower knownParams raw st =
      (rawEntries raw).foldlM (fun st x => resolveValue toLower knownParams x.1 st x.2) st := by
  unfold resolveLoop rawEntries
  generalize sourcesInDescendingOrder = L
  induction L generalizing st with
  | nil => rfl
  | cons s L ih =>
    simp only [List.foldlM_cons, List.flatMap_cons, List.foldlM_append, List.foldlM_map]
    congr 1
    funext st₁
    exact ih st₁

/-- `rawEntries` is in the order `Earlier` says: the sources descend, and within one source the
names differ in every case. -/
theorem pairwise_rawEntries (raw : Source → List (String × String))
    (hraw : ∀ s, DistinctNames toLower (raw s)) :
    (rawEntries raw).Pairwise (Earlier toLower) := by
  unfold rawEntries
  rw [List.pairwise_flatMap]
  refine ⟨fun s _ => ?_, ?_⟩
  · rw [List.pairwise_map]
    exact (hraw s).imp fun hne => Or.inr ⟨rfl, hne⟩
  · have hdesc : sourcesInDescendingOrder.Pairwise (fun a b => b.toNat < a.toNat) := by decide
    refine hdesc.imp fun hlt x hx y hy => Or.inl ?_
    obtain ⟨_, _, rfl⟩ := List.mem_map.mp hx
    obtain ⟨_, _, rfl⟩ := List.mem_map.mp hy
    exact hlt

/-- **The loops fail** exactly when some raw value is an invalid value of a known parameter. -/
theorem foldlM_resolveValue_ok_iff
    (hknown : ∀ k p, knownParams k = some p → toLower p.metadata.name = k)
    (L : List (Source × (String × String))) (st : Resolving V) :
    (∃ st', L.foldlM (fun st x => resolveValue toLower knownParams x.1 st x.2) st = .ok st') ↔
      ∀ x ∈ L, ¬ BadEntry toLower knownParams x := by
  induction L generalizing st with
  | nil => exact ⟨fun _ _ hx => absurd hx List.not_mem_nil, fun _ => ⟨st, rfl⟩⟩
  | cons x L ih =>
    rw [List.foldlM_cons]
    cases hx : resolveValue toLower knownParams x.1 st x.2 with
    | error e =>
      have hbad := (resolveValue_error_iff hknown x.1 st x.2).mp ⟨e, hx⟩
      exact ⟨fun ⟨_, h⟩ => (nomatch h), fun h => absurd hbad (h x List.mem_cons_self)⟩
    | ok st₁ =>
      have hgood : ¬ BadEntry toLower knownParams x := fun hb => by
        obtain ⟨e, he⟩ := (resolveValue_error_iff hknown x.1 st x.2).mpr hb
        rw [hx] at he
        cases he
      change (∃ st', L.foldlM _ st₁ = Except.ok st') ↔ _
      rw [ih st₁, List.forall_mem_cons]
      exact ⟨fun h => ⟨hgood, h⟩, fun h => h.2⟩

/-- **The loops hold the first values.** From a state that holds the first values among the
entries `P`, a successful run over the entries `L` that follow them ends in a state that holds
the first values among `P ++ L`. The induction is on `L`, with `P` growing. -/
theorem holds_foldlM (hknown : ∀ k p, knownParams k = some p → toLower p.metadata.name = k)
    (L : List (Source × (String × String))) :
    ∀ P st st', Holds toLower knownParams P st → (P ++ L).Pairwise (Earlier toLower) →
      L.foldlM (fun st x => resolveValue toLower knownParams x.1 st x.2) st = .ok st' →
        Holds toLower knownParams (P ++ L) st' := by
  induction L with
  | nil =>
    intro P st st' h _ hL
    cases hL
    simpa using h
  | cons x L ih =>
    intro P st st' h hpw hL
    rw [List.foldlM_cons] at hL
    cases hx : resolveValue toLower knownParams x.1 st x.2 with
    | error e =>
      rw [hx] at hL
      cases hL
    | ok st₁ =>
      rw [hx] at hL
      have hP : ∀ y ∈ P, Earlier toLower y x := fun y hy =>
        (List.pairwise_append.mp hpw).2.2 y hy x List.mem_cons_self
      have h₁ := resolveValue_holds hknown h hP hx
      have hpw₁ : (P ++ [x] ++ L).Pairwise (Earlier toLower) := by simpa using hpw
      simpa using ih (P ++ [x]) st₁ st' h₁ hpw₁ hL

/-- Before the loops nothing is held: no parameter has a source or a raw value. -/
theorem holds_nil (fields : String → V) :
    Holds toLower knownParams [] ⟨fields, ∅, fun _ => .default⟩ := by
  intro k p _
  simp [HoldsAt]

/-- **Resolution.** On raw maps whose names differ in every case, `resolve` fails exactly when
some raw value is an invalid value of a known parameter. Otherwise every known parameter with a
value takes, as its field and its raw value, the value of the highest source that has one. -/
theorem resolve_spec (hknown : ∀ k p, knownParams k = some p → toLower p.metadata.name = k)
    (config : Config V) (hraw : ∀ s, DistinctNames toLower (config.sourceToRawConfig s)) :
    ((Config.resolve toLower knownParams config).2.2.isSome ↔
        ∃ x ∈ rawEntries config.sourceToRawConfig, BadEntry toLower knownParams x) ∧
      ((Config.resolve toLower knownParams config).2.2 = none →
        ∀ k p, knownParams k = some p →
          ∀ s v, winner toLower config.sourceToRawConfig p = some (s, v) →
            (Config.resolve toLower knownParams config).1.fields p.metadata.name =
                claimedValue toLower p v ∧
              (Config.resolve toLower knownParams config).1.rawValues.lookup p.metadata.name =
                some v) := by
  have hok := foldlM_resolveValue_ok_iff hknown (rawEntries config.sourceToRawConfig)
    ⟨config.fields, ∅, fun _ => .default⟩
  unfold Config.resolve
  rw [resolveLoop_eq]
  cases hl : (rawEntries config.sourceToRawConfig).foldlM
      (fun st x => resolveValue toLower knownParams x.1 st x.2)
      ⟨config.fields, ∅, fun _ => .default⟩ with
  | error e =>
    obtain ⟨err, st⟩ := e
    refine ⟨⟨fun _ => ?_, fun _ => rfl⟩, fun h => (nomatch h)⟩
    by_contra hnone
    obtain ⟨_, h⟩ := hok.mpr fun x hx hb => hnone ⟨x, hx, hb⟩
    rw [hl] at h
    cases h
  | ok st =>
    have hgood := hok.mp ⟨st, hl⟩
    refine ⟨⟨fun h => (nomatch h), fun ⟨x, hx, hb⟩ => absurd hb (hgood x hx)⟩, ?_⟩
    intro _ k p hk s v hw
    have hholds : HoldsAt toLower (rawEntries config.sourceToRawConfig) st k p := by
      have h := holds_foldlM hknown _ [] _ st (holds_nil config.fields)
        (pairwise_rawEntries _ hraw) hl
      exact h k p hk
    -- the winner is the first value of `p`, which the final state holds
    obtain ⟨x, hx, hxv⟩ := Option.map_eq_some_iff.mp hw
    obtain ⟨rfl, rfl⟩ := Prod.mk.inj hxv
    rw [HoldsAt, hx] at hholds
    exact hholds.2

end Loops

section Updates

variable {V : Type} {toLower : String → String} {knownParams : String → Option (Param V)}

/-- The config after the calls `UpdateFrom(rawData, source)` of `calls`, in order. -/
def updateFromAll (toLower : String → String) (knownParams : String → Option (Param V))
    (calls : List (List (String × String) × Source)) (config : Config V) : Config V :=
  calls.foldl (fun c x => (Config.updateFrom toLower knownParams c x.1 x.2).1) config

@[simp]
theorem resolve_sourceToRawConfig (config : Config V) :
    (Config.resolve toLower knownParams config).1.sourceToRawConfig = config.sourceToRawConfig := by
  unfold Config.resolve
  split <;> rfl

/-- A run of `UpdateFrom` stores the raw map each source was last given. -/
theorem sourceToRawConfig_updateFromAll (calls : List (List (String × String) × Source))
    (config : Config V) :
    (updateFromAll toLower knownParams calls config).sourceToRawConfig =
      lastRaw config.sourceToRawConfig calls := by
  induction calls generalizing config with
  | nil => rfl
  | cons c calls ih =>
    rw [updateFromAll, List.foldl_cons, ← updateFromAll, ih]
    simp only [Config.updateFrom, resolve_sourceToRawConfig]
    rfl

/-- The raw maps last given keep their names distinct in every case. -/
theorem distinctNames_lastRaw {init : Source → List (String × String)}
    {calls : List (List (String × String) × Source)}
    (hinit : ∀ s, DistinctNames toLower (init s))
    (hcalls : ∀ c ∈ calls, DistinctNames toLower c.1) (s : Source) :
    DistinctNames toLower (lastRaw init calls s) := by
  induction calls generalizing init with
  | nil => exact hinit s
  | cons c calls ih =>
    refine ih (fun s' => ?_) fun c' hc' => hcalls c' (List.mem_cons_of_mem _ hc')
    dsimp only
    by_cases hs : s' = c.2
    · subst hs
      rw [Function.update_self]
      exact (hcalls c List.mem_cons_self).filter _
    · rw [Function.update_of_ne hs]
      exact hinit s'

/-- The last call of a run resolves the raw maps the sources were last given. -/
theorem updateFrom_updateFromAll (calls : List (List (String × String) × Source))
    (config₀ : Config V) (rawData : List (String × String)) (source : Source) :
    Config.updateFrom toLower knownParams (updateFromAll toLower knownParams calls config₀)
        rawData source =
      Config.resolve toLower knownParams
        { updateFromAll toLower knownParams calls config₀ with
          sourceToRawConfig :=
            lastRaw config₀.sourceToRawConfig (calls ++ [(rawData, source)]) } := by
  rw [Config.updateFrom, sourceToRawConfig_updateFromAll]
  simp only [lastRaw, List.foldl_append, List.foldl_cons, List.foldl_nil]

/-- **Config resolution honours source precedence.** From a config with no raw maps, and after
any run of `UpdateFrom` calls whose raw maps have names distinct in every case, the last call
fails exactly when a raw value each source was last given is an invalid value of a known
parameter. When it does not fail, every known parameter that has a value in some source takes,
as its field and its raw value, the value of the highest such source. The raw maps last given
have no empty values, so a value here is a non-empty one. -/
theorem updateFrom_resolves
    (hknown : ∀ k p, knownParams k = some p → toLower p.metadata.name = k)
    (config₀ : Config V) (h₀ : ∀ s, config₀.sourceToRawConfig s = [])
    (calls : List (List (String × String) × Source)) (rawData : List (String × String))
    (source : Source)
    (hcalls : ∀ c ∈ calls ++ [(rawData, source)], DistinctNames toLower c.1) :
    let r := Config.updateFrom toLower knownParams
      (updateFromAll toLower knownParams calls config₀) rawData source
    let raws := lastRaw config₀.sourceToRawConfig (calls ++ [(rawData, source)])
    (r.2.2.isSome ↔ ∃ x ∈ rawEntries raws, BadEntry toLower knownParams x) ∧
      (r.2.2 = none → ∀ k p, knownParams k = some p →
        ∀ s v, winner toLower raws p = some (s, v) →
          r.1.fields p.metadata.name = claimedValue toLower p v ∧
            r.1.rawValues.lookup p.metadata.name = some v) := by
  intro r raws
  have hinit : ∀ s, DistinctNames toLower (config₀.sourceToRawConfig s) := fun s => by
    rw [h₀ s]
    exact List.Pairwise.nil
  have hraws : ∀ s, DistinctNames toLower (raws s) := distinctNames_lastRaw hinit hcalls
  have hr : r = Config.resolve toLower knownParams
      { updateFromAll toLower knownParams calls config₀ with sourceToRawConfig := raws } :=
    updateFrom_updateFromAll calls config₀ rawData source
  rw [hr]
  exact resolve_spec hknown _ hraws

/-- One known parameter, `LogSeverityScreen`, that takes the levels `1` and `2`, defaults to `3`
and dies on any other value. -/
def demoParams (k : String) : Option (Param ℕ) :=
  if k = "logseverityscreen" then
    some ⟨⟨"LogSeverityScreen", 3, 0, false, true, false⟩, fun v =>
      if v = "1" then .ok 1 else if v = "2" then .ok 2 else .error "unknown log level"⟩
  else none

/-- A new config, the config file setting the parameter to `2`, and then the environment setting
it to `1` under another spelling, beside an empty value. -/
theorem updateFrom_resolves_envOverFile :
    let config₀ : Config ℕ := ⟨fun _ => 0, ∅, fun _ => [], none⟩
    let calls := [([("LogSeverityScreen", "2")], Source.configFile)]
    let rawData := [("logseverityscreen", "1"), ("LogFilePath", "")]
    (∀ k p, demoParams k = some p → String.toLower p.metadata.name = k) ∧
      (∀ s, config₀.sourceToRawConfig s = []) ∧
      (∀ c ∈ calls ++ [(rawData, .environmentVariable)], DistinctNames String.toLower c.1) ∧
      let r := Config.updateFrom String.toLower demoParams
        (updateFromAll String.toLower demoParams calls config₀) rawData .environmentVariable
      let raws := lastRaw config₀.sourceToRawConfig (calls ++ [(rawData, .environmentVariable)])
      (r.2.2.isSome ↔ ∃ x ∈ rawEntries raws, BadEntry String.toLower demoParams x) ∧
        (r.2.2 = none → ∀ k p, demoParams k = some p →
          ∀ s v, winner String.toLower raws p = some (s, v) →
            r.1.fields p.metadata.name = claimedValue String.toLower p v ∧
              r.1.rawValues.lookup p.metadata.name = some v) := by
  intro config₀ calls rawData
  have hknown : ∀ k p, demoParams k = some p → String.toLower p.metadata.name = k := by
    intro k p h
    unfold demoParams at h
    split_ifs at h with hk
    cases h
    subst hk
    decide +kernel
  have hcalls : ∀ c ∈ calls ++ [(rawData, .environmentVariable)],
      DistinctNames String.toLower c.1 := by
    decide +kernel
  exact ⟨hknown, fun _ => rfl, hcalls,
    updateFrom_resolves hknown config₀ (fun _ => rfl) calls rawData .environmentVariable hcalls⟩

end Updates

end Felix.ConfigParams
