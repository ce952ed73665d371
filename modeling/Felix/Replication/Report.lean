import Mathlib

/-!
# Reporting the changes of a relation

An index that maintains a relation and calls back a subscriber on every change, once for
a pair that starts being related and once for a pair that stops, keeps the subscriber's
copy of the relation exact only if its reports are exact. `Reports r r' evs` says that the
reports `evs` of a change from `r` to `r'` name each pair that started or stopped being
related exactly once, and nothing else.

The index changes its relation in loops whose turns may fail, each turn rewriting the
pairs of one group. `Rewrites J r touch target f` says that `f`, from any state satisfying
`J`, succeeds, keeps `J`, sets the relation `r` to `target` on the pairs `touch` names,
leaves every other pair, and reports its change. `forEach` is the loop, and
`forEach_rewrites` its rule: turns that rewrite disjoint groups make a loop that rewrites
their union.

A subscriber that only counts starts and stops sees the reports as a replay: `Replays r r'
evs` says that replaying `evs` on a copy of `r`, each start finding its key absent and each
stop finding it present, ends at `r'`. `forEachPure` is the loop whose turns cannot fail.

## Main definitions

* `Change κ`, `Reports r r' evs`, `Replays r r' evs`
* `forEach body xs s`: a loop whose turns may fail and send reports
* `forEachPure body xs s`: a loop whose turns cannot fail
* `Rewrites J r touch target f`

## Main results

* `Reports.append`, `Replays.append`: the reports of two changes in a row compose
* `forEach_rewrites`: the loop rule
-/

namespace Replication

universe u

variable {α κ σ ε : Type*}

/-- A reported change: the pair `k` started, or stopped, being related. -/
inductive Change (κ : Type*) where
  | started (k : κ)
  | stopped (k : κ)
  deriving DecidableEq

/-- `evs` reports exactly the change from `r` to `r'`. -/
def Reports (r r' : κ → Prop) (evs : List (Change κ)) : Prop :=
  evs.Nodup ∧ ∀ k, (Change.started k ∈ evs ↔ ¬r k ∧ r' k) ∧ (Change.stopped k ∈ evs ↔ r k ∧ ¬r' k)

section Reports

variable {r r' r'' : κ → Prop} {e e' : List (Change κ)} {k : κ}

/-- No change, reported by nothing. -/
theorem reports_nil (h : ∀ k, r k ↔ r' k) : Reports r r' [] :=
  ⟨List.nodup_nil, fun k => by simp [h k]⟩

theorem reports_started (hk : ¬r k) (h : ∀ k', r' k' ↔ k' = k ∨ r k') :
    Reports r r' [.started k] := by
  refine ⟨List.nodup_singleton _, fun k' => ⟨?_, ?_⟩⟩
  · by_cases hk' : k' = k
    · subst hk'
      simp [h, hk]
    · simp [h, hk']
  · simp only [List.mem_singleton, reduceCtorEq, false_iff, h]
    tauto

theorem reports_stopped (hk : r k) (h : ∀ k', r' k' ↔ k' ≠ k ∧ r k') :
    Reports r r' [.stopped k] := by
  refine ⟨List.nodup_singleton _, fun k' => ⟨?_, ?_⟩⟩
  · simp only [List.mem_singleton, reduceCtorEq, false_iff, h]
    tauto
  · by_cases hk' : k' = k
    · subst hk'
      simp [h, hk]
    · simp [h, hk']

/-- **Composition**: two changes report their composite when no pair changes in both. -/
theorem Reports.append (h₁ : Reports r r' e) (h₂ : Reports r' r'' e')
    (hd : ∀ k, (r k ↔ r' k) ∨ (r' k ↔ r'' k)) : Reports r r'' (e ++ e') := by
  refine ⟨List.nodup_append.mpr ⟨h₁.1, h₂.1, ?_⟩, fun k => ⟨?_, ?_⟩⟩
  · -- a change reported by both would change its pair twice
    rintro c hc c' hc' rfl
    cases c with
    | started k =>
      have := (h₁.2 k).1.mp hc
      have := (h₂.2 k).1.mp hc'
      rcases hd k with h | h <;> tauto
    | stopped k =>
      have := (h₁.2 k).2.mp hc
      have := (h₂.2 k).2.mp hc'
      rcases hd k with h | h <;> tauto
  · rw [List.mem_append, (h₁.2 k).1, (h₂.2 k).1]
    rcases hd k with h | h <;> tauto
  · rw [List.mem_append, (h₁.2 k).2, (h₂.2 k).2]
    rcases hd k with h | h <;> tauto

theorem Reports.congr {q q' : κ → Prop} (h : Reports r r' e) (hq : ∀ k, r k ↔ q k)
    (hq' : ∀ k, r' k ↔ q' k) : Reports q q' e :=
  ⟨h.1, fun k => by rw [← hq k, ← hq' k]; exact h.2 k⟩

end Reports

/-! ## Replaying reports

A subscriber keeps its copy of the relation by replaying the reports in order, adding the
pair of a start and removing that of a stop. Over a whole history of reports, `Replays` is
what it takes for that copy to stay right: no pair is started while the copy holds it, or
stopped while it does not, so no pair is started, or stopped, twice in a row. -/

/-- Replaying `evs` on the copy `r`: each start finds its pair absent, each stop finds it
present, and the copy ends as `r'`. -/
def Replays (r r' : κ → Prop) : List (Change κ) → Prop
  | [] => ∀ k, r k ↔ r' k
  | .started k :: evs => ¬r k ∧ Replays (fun k' => k' = k ∨ r k') r' evs
  | .stopped k :: evs => r k ∧ Replays (fun k' => k' ≠ k ∧ r k') r' evs

section Replays

variable {r r' r'' : κ → Prop} {e e' : List (Change κ)} {k : κ}

theorem Replays.congr_left {q : κ → Prop} (h : Replays r r' e) (hq : ∀ k, r k ↔ q k) :
    Replays q r' e := by
  have : r = q := funext fun k => propext (hq k)
  exact this ▸ h

theorem Replays.congr_right {q : κ → Prop} (h : Replays r r' e) (hq : ∀ k, r' k ↔ q k) :
    Replays r q e := by
  have : r' = q := funext fun k => propext (hq k)
  exact this ▸ h

theorem replays_started (hk : ¬r k) (h : ∀ k', r' k' ↔ k' = k ∨ r k') :
    Replays r r' [.started k] :=
  ⟨hk, fun k' => (h k').symm⟩

theorem replays_stopped (hk : r k) (h : ∀ k', r' k' ↔ k' ≠ k ∧ r k') :
    Replays r r' [.stopped k] :=
  ⟨hk, fun k' => (h k').symm⟩

/-- **Composition**: replaying one history, then the next from where the first left the
copy. -/
theorem Replays.append (h₁ : Replays r r' e) (h₂ : Replays r' r'' e') : Replays r r'' (e ++ e') := by
  induction e generalizing r with
  | nil => exact h₂.congr_left fun k => (h₁ k).symm
  | cons c e ih =>
    cases c with
    | started k => exact ⟨h₁.1, ih h₁.2⟩
    | stopped k => exact ⟨h₁.1, ih h₁.2⟩

/-- Exact reports replay: no pair is reported twice, so a start finds its pair absent and a
stop finds it present. -/
theorem Reports.replays (h : Reports r r' e) : Replays r r' e := by
  induction e generalizing r with
  | nil =>
    intro k
    have hk := h.2 k
    simp only [List.not_mem_nil, false_iff, not_and, not_not] at hk
    exact ⟨fun hr => hk.2 hr, fun hr' => by_contra fun hr => hk.1 hr hr'⟩
  | cons c e ih =>
    obtain ⟨hc, hnd⟩ := List.nodup_cons.mp h.1
    -- the pair of the head has no other report; every other pair keeps its reports
    cases c with
    | started k =>
      have hk := (h.2 k).1.mp List.mem_cons_self
      refine ⟨hk.1, ih ⟨hnd, fun k' => ?_⟩⟩
      by_cases hk' : k' = k
      · subst hk'
        have hs : Change.stopped k' ∉ e := fun hs =>
          hk.1 ((h.2 k').2.mp (List.mem_cons_of_mem _ hs)).1
        simp [hc, hs, hk.2]
      · have hk'' := h.2 k'
        simp only [List.mem_cons, Change.started.injEq, hk', false_or, reduceCtorEq] at hk''
        simpa [hk'] using hk''
    | stopped k =>
      have hk := (h.2 k).2.mp List.mem_cons_self
      refine ⟨hk.1, ih ⟨hnd, fun k' => ?_⟩⟩
      by_cases hk' : k' = k
      · subst hk'
        have hs : Change.started k' ∉ e := fun hs =>
          ((h.2 k').1.mp (List.mem_cons_of_mem _ hs)).1 hk.1
        simp [hc, hs, hk.2]
      · have hk'' := h.2 k'
        simp only [List.mem_cons, Change.stopped.injEq, hk', false_or, reduceCtorEq] at hk''
        simpa [hk'] using hk''

end Replays

/-! ## Loops -/

section Loop

variable {ω : Type*}

/-- A `for` loop over `xs` whose turns may fail, threading a state and collecting what the
turns send. -/
def forEach (body : α → σ → Except ε (σ × List ω)) : List α → σ → Except ε (σ × List ω)
  | [], s => .ok (s, [])
  | a :: as, s => do
    let (s₁, o₁) ← body a s
    let (s₂, o₂) ← forEach body as s₁
    pure (s₂, o₁ ++ o₂)
attribute [grind] forEach

variable {body : α → σ → Except ε (σ × List ω)}

@[simp] theorem forEach_nil (s : σ) : forEach body [] s = .ok (s, []) := rfl

@[simp] theorem ok_bind {β γ : Type u} {a : β} {f : β → Except ε γ} :
    (Except.ok a >>= f) = f a := rfl

/-- The first step of a successful `Except` computation succeeded. -/
theorem bind_eq_ok {β γ : Type u} {x : Except ε β} {f : β → Except ε γ} {r : γ}
    (h : (x >>= f) = .ok r) : ∃ b, x = .ok b ∧ f b = .ok r := by
  cases x with
  | error e => cases h
  | ok b => exact ⟨b, rfl, h⟩

/-- A successful `Except` computation mapped by `f` gave `f` of its result. -/
theorem map_eq_ok {β γ : Type u} {x : Except ε β} {f : β → γ} {r : γ}
    (h : (f <$> x) = .ok r) : ∃ b, x = .ok b ∧ f b = r := by
  cases x with
  | error e => cases h
  | ok b =>
    cases h
    exact ⟨b, rfl, rfl⟩

theorem forEach_cons_of_ok {a : α} {as : List α} {s s₁ s₂ : σ} {o₁ o₂ : List ω}
    (h₁ : body a s = .ok (s₁, o₁)) (h₂ : forEach body as s₁ = .ok (s₂, o₂)) :
    forEach body (a :: as) s = .ok (s₂, o₁ ++ o₂) := by
  rw [forEach, h₁]
  change (forEach body as s₁ >>= fun q => pure (q.1, o₁ ++ q.2)) = _
  rw [h₂]
  rfl

/-- A loop over `a :: as` that succeeds ran its first turn, then the rest, successfully. -/
theorem forEach_cons_eq_ok {a : α} {as : List α} {s : σ} {r : σ × List ω}
    (h : forEach body (a :: as) s = .ok r) :
    ∃ s₁ o₁ s₂ o₂, body a s = .ok (s₁, o₁) ∧ forEach body as s₁ = .ok (s₂, o₂) ∧
      r = (s₂, o₁ ++ o₂) := by
  rw [forEach] at h
  obtain ⟨⟨s₁, o₁⟩, h₁, h⟩ := bind_eq_ok h
  obtain ⟨⟨s₂, o₂⟩, h₂, h⟩ := bind_eq_ok h
  exact ⟨s₁, o₁, s₂, o₂, h₁, h₂, (Except.ok.inj h).symm⟩

/-- An invariant that each successful turn of a loop keeps holds after the loop. -/
theorem forEach_ok_induction (P : σ → Prop)
    (hstep : ∀ a s s' o, P s → body a s = .ok (s', o) → P s') :
    ∀ {l : List α} {s s' : σ} {o : List ω}, P s → forEach body l s = .ok (s', o) → P s'
  | [], _, _, _, hs, h => by
    obtain ⟨rfl, -⟩ := Prod.mk.inj (Except.ok.inj h)
    exact hs
  | a :: _, s, _, _, hs, h => by
    obtain ⟨s₁, o₁, s₂, o₂, h₁, h₂, hr⟩ := forEach_cons_eq_ok h
    obtain ⟨rfl, -⟩ := Prod.mk.inj hr
    exact forEach_ok_induction P hstep (hstep a s s₁ o₁ hs h₁) h₂

/-- An invariant that each successful turn of a fallible fold keeps holds after the fold. -/
theorem foldlM_ok_induction {f : σ → α → Except ε σ} (P : σ → Prop)
    (hstep : ∀ s a s', P s → f s a = .ok s' → P s') :
    ∀ {l : List α} {s s' : σ}, P s → l.foldlM f s = .ok s' → P s'
  | [], _, _, hs, h => by
    cases h
    exact hs
  | a :: _, s, _, hs, h => by
    rw [List.foldlM_cons] at h
    obtain ⟨s₁, h₁, h₂⟩ := bind_eq_ok h
    exact foldlM_ok_induction P hstep (hstep s a s₁ hs h₁) h₂

/-- A fallible fold succeeds when each of its turns succeeds and keeps an invariant, from a
state the invariant describes and on an element of the list. -/
theorem foldlM_ok_of_step {f : σ → α → Except ε σ} (P : σ → Prop) {l : List α}
    (hstep : ∀ s a, a ∈ l → P s → ∃ s', f s a = .ok s' ∧ P s') :
    ∀ {s : σ}, P s → ∃ s', l.foldlM f s = .ok s' ∧ P s' := by
  induction l with
  | nil => exact fun hs => ⟨_, rfl, hs⟩
  | cons a l ih =>
    intro s hs
    obtain ⟨s₁, h₁, hs₁⟩ := hstep s a List.mem_cons_self hs
    obtain ⟨s₂, h₂, hs₂⟩ := ih (fun s b hb => hstep s b (List.mem_cons_of_mem a hb)) hs₁
    refine ⟨s₂, ?_, hs₂⟩
    rw [List.foldlM_cons, h₁]
    exact h₂

section Pointwise

variable {ι β : Type*}

/-- A fold whose turn on `a` changes the view `π` only at the key `k a`, where it applies
`g a`: after it, the view at the key of each turn is `g` of the view before, and every other
key's view is as before. The keys of the turns are distinct, so that each key has one turn. -/
theorem foldl_pointwise (k : α → ι) (π : σ → ι → β) {f : σ → α → σ} {g : α → β → β}
    (hframe : ∀ s a x, x ≠ k a → π (f s a) x = π s x)
    (hself : ∀ s a, π (f s a) (k a) = g a (π s (k a))) :
    ∀ {l : List α}, (l.map k).Nodup → ∀ s,
      (∀ a ∈ l, π (l.foldl f s) (k a) = g a (π s (k a))) ∧
        ∀ x, x ∉ l.map k → π (l.foldl f s) x = π s x
  | [], _, _ => ⟨by simp, fun _ _ => rfl⟩
  | a :: l, hl, s => by
    rw [List.map_cons, List.nodup_cons] at hl
    obtain ⟨hrest, hother⟩ := foldl_pointwise k π hframe hself hl.2 (f s a)
    refine ⟨?_, ?_⟩
    · intro b hb
      rcases List.mem_cons.mp hb with rfl | hb
      -- the turn on `b` is the first; no later turn has its key
      · rw [List.foldl_cons, hother _ hl.1, hself]
      · have hne : k b ≠ k a := fun h => hl.1 (h ▸ List.mem_map_of_mem hb)
        rw [List.foldl_cons, hrest b hb, hframe s a _ hne]
    · intro x hx
      rw [List.map_cons, List.mem_cons, not_or] at hx
      rw [List.foldl_cons, hother x hx.2, hframe s a x hx.1]

/-- `foldl_pointwise` for a fold whose turns may fail and keep an invariant `I`, with a turn's
effect at its key given by a relation `R` between the view before and after. -/
theorem foldlM_pointwise (k : α → ι) (π : σ → ι → β) {f : σ → α → Except ε σ}
    (R : α → β → β → Prop) (I : σ → Prop)
    (hinv : ∀ s a s', I s → f s a = .ok s' → I s')
    (hframe : ∀ s a s' x, I s → f s a = .ok s' → x ≠ k a → π s' x = π s x)
    (hself : ∀ s a s', I s → f s a = .ok s' → R a (π s (k a)) (π s' (k a))) :
    ∀ {l : List α} {s s' : σ}, (l.map k).Nodup → I s → l.foldlM f s = .ok s' →
      (∀ a ∈ l, R a (π s (k a)) (π s' (k a))) ∧ ∀ x, x ∉ l.map k → π s' x = π s x
  | [], _, _, _, _, h => by
    cases h
    exact ⟨by simp, fun _ _ => rfl⟩
  | a :: l, s, s', hl, hs, h => by
    rw [List.foldlM_cons] at h
    obtain ⟨s₁, h₁, h₂⟩ := bind_eq_ok h
    rw [List.map_cons, List.nodup_cons] at hl
    obtain ⟨hrest, hother⟩ :=
      foldlM_pointwise k π R I hinv hframe hself hl.2 (hinv s a s₁ hs h₁) h₂
    refine ⟨?_, ?_⟩
    · intro b hb
      rcases List.mem_cons.mp hb with rfl | hb
      -- the turn on `b` is the first; no later turn has its key
      · rw [hother _ hl.1]
        exact hself s b s₁ hs h₁
      · have hne : k b ≠ k a := fun h => hl.1 (h ▸ List.mem_map_of_mem hb)
        rw [← hframe s a s₁ _ hs h₁ hne]
        exact hrest b hb
    · intro x hx
      rw [List.map_cons, List.mem_cons, not_or] at hx
      rw [hother x hx.2, hframe s a s₁ x hs h₁ hx.1]

end Pointwise

/-- A `for` loop over `xs` whose turns cannot fail, threading a state and collecting what
the turns send. -/
def forEachPure (body : α → σ → σ × List ω) : List α → σ → σ × List ω
  | [], s => (s, [])
  | a :: as, s =>
    let (s₁, o₁) := body a s
    let (s₂, o₂) := forEachPure body as s₁
    (s₂, o₁ ++ o₂)

/-- A loop over `a :: as` ran its first turn, then the rest. -/
theorem forEachPure_cons_eq {body : α → σ → σ × List ω} {a : α} {as : List α} {s : σ}
    {r : σ × List ω} (h : forEachPure body (a :: as) s = r) :
    ∃ s₁ o₁ o₂, body a s = (s₁, o₁) ∧ forEachPure body as s₁ = (r.1, o₂) ∧ r.2 = o₁ ++ o₂ := by
  subst h
  exact ⟨_, _, _, rfl, rfl, rfl⟩

end Loop

/-- From any state satisfying `J`, the turn `f` succeeds and keeps `J`; it sets `r` to
`target` on the pairs `touch` names and leaves every other pair; and it reports its change. -/
def Rewrites (J : σ → Prop) (r : σ → κ → Prop) (touch target : κ → Prop)
    (f : σ → Except ε (σ × List (Change κ))) : Prop :=
  ∀ s, J s → ∃ s' o, f s = .ok (s', o) ∧ J s' ∧ (∀ k, touch k → (r s' k ↔ target k)) ∧
    (∀ k, ¬touch k → (r s' k ↔ r s k)) ∧ Reports (r s) (r s') o

variable {J : σ → Prop} {r : σ → κ → Prop} {target : κ → Prop}

/-- The same turn, with its group and its target described another way. -/
theorem Rewrites.of_iff {touch touch' target' : κ → Prop} {f : σ → Except ε (σ × List (Change κ))}
    (h : Rewrites J r touch target f) (ht : ∀ k, touch k ↔ touch' k)
    (hg : ∀ k, touch k → (target k ↔ target' k)) : Rewrites J r touch' target' f := by
  intro s hs
  obtain ⟨s', o, hf, hJ, htouch, hrest, hr⟩ := h s hs
  refine ⟨s', o, hf, hJ, fun k hk => ?_, fun k hk => hrest k fun h => hk ((ht k).mp h), hr⟩
  have hk' := (ht k).mpr hk
  exact (htouch k hk').trans (hg k hk')

/-- A turn that agrees, on the states satisfying `J`, with one that rewrites. -/
theorem Rewrites.of_eqOn {touch : κ → Prop} {f f' : σ → Except ε (σ × List (Change κ))}
    (h : Rewrites J r touch target f) (hf : ∀ s, J s → f' s = f s) :
    Rewrites J r touch target f' := by
  intro s hs
  rw [hf s hs]
  exact h s hs

/-- **The loop rule**: over distinct elements whose turns rewrite disjoint groups of pairs, the
loop rewrites the union of the groups. -/
theorem forEach_rewrites {body : α → σ → Except ε (σ × List (Change κ))} {touch : α → κ → Prop}
    {xs : List α} (hxs : xs.Nodup)
    (hdisj : ∀ a ∈ xs, ∀ b ∈ xs, a ≠ b → ∀ k, touch a k → ¬touch b k)
    (hbody : ∀ a ∈ xs, Rewrites J r (touch a) target (body a)) :
    Rewrites J r (fun k => ∃ a ∈ xs, touch a k) target (forEach body xs) := by
  induction xs with
  | nil => exact fun s hs => ⟨s, [], rfl, hs, by simp, by simp, reports_nil fun _ => Iff.rfl⟩
  | cons a as ih =>
    obtain ⟨ha, has⟩ := List.nodup_cons.mp hxs
    -- a pair of the head's group is touched by no later turn
    have hfresh : ∀ k, touch a k → ¬∃ b ∈ as, touch b k := fun k hk ⟨b, hb, hbk⟩ =>
      hdisj a (List.mem_cons_self ..) b (List.mem_cons_of_mem _ hb) (fun e => ha (e ▸ hb)) k hk hbk
    have ih' := ih has (fun b hb c hc => hdisj b (List.mem_cons_of_mem _ hb) c
      (List.mem_cons_of_mem _ hc)) (fun b hb => hbody b (List.mem_cons_of_mem _ hb))
    intro s hs
    obtain ⟨s₁, o₁, h₁, hJ₁, ht₁, hu₁, hr₁⟩ := hbody a (List.mem_cons_self ..) s hs
    obtain ⟨s₂, o₂, h₂, hJ₂, ht₂, hu₂, hr₂⟩ := ih' s₁ hJ₁
    refine ⟨s₂, o₁ ++ o₂, forEach_cons_of_ok h₁ h₂, hJ₂, ?_, ?_, ?_⟩
    · rintro k ⟨b, hb, hbk⟩
      rcases List.mem_cons.mp hb with rfl | hb
      · exact (hu₂ k (hfresh k hbk)).trans (ht₁ k hbk)
      · exact ht₂ k ⟨b, hb, hbk⟩
    · intro k hk
      have hk₁ : ¬touch a k := fun h => hk ⟨a, List.mem_cons_self .., h⟩
      exact (hu₂ k fun ⟨b, hb, hbk⟩ => hk ⟨b, List.mem_cons_of_mem _ hb, hbk⟩).trans (hu₁ k hk₁)
    · refine hr₁.append hr₂ fun k => ?_
      by_cases hk : touch a k
      · exact .inr (hu₂ k (hfresh k hk)).symm
      · exact .inl (hu₁ k hk).symm

end Replication
