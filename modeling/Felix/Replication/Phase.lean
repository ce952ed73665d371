import Felix.Replication.Buffer

/-!
# Phases that send messages, and the consumer that takes them

A flush is a sequence of phases, each a loop that updates the producer's state and sends
one message per turn. `Triple take pre p post` is a Hoare triple for such a phase `p`: from
a producer state and a consumer state satisfying `pre`, the consumer takes every message
`p` sends (`take` returns `none` for a message it refuses), and the two states left
satisfy `post`. Triples compose along `emitSeq`, and `triple_emitLoop` is the loop rule,
with an invariant indexed by the elements the loop has still to visit.

## Main definitions

* `Triple take pre p post`

## Main results

* `Triple.seq`: sequencing
* `triple_emitLoop`: the loop rule
* `foldlM_take_scanl`: a consumer that takes every message only into states satisfying
  `Q` passes only through states satisfying `Q`
* `triple_flushUpdates`, `triple_flushDeletes`: the loop rule for the two loops of a
  `Buffer` that is one component (`Lens`) of the producer's state
-/

namespace Replication

variable {σ δ μ α : Type*}

/-- From `pre`, the consumer takes every message of the phase `p`, and `post` holds after. -/
def Triple (take : δ → μ → Option δ) (pre : σ → δ → Prop) (p : σ → σ × List μ)
    (post : σ → δ → Prop) : Prop :=
  ∀ s d, pre s d → ∃ d', (p s).2.foldlM take d = some d' ∧ post (p s).1 d'

variable {take : δ → μ → Option δ} {pre mid post : σ → δ → Prop}

/-- **Sequencing**: a phase from `pre` to `mid` followed by one from `mid` to `post`. -/
theorem Triple.seq {p q : σ → σ × List μ} (h₁ : Triple take pre p mid)
    (h₂ : Triple take mid q post) : Triple take pre (emitSeq p q) post := by
  intro s d hs
  obtain ⟨d₁, hd₁, hmid⟩ := h₁ s d hs
  obtain ⟨d₂, hd₂, hpost⟩ := h₂ (p s).1 d₁ hmid
  refine ⟨d₂, ?_, hpost⟩
  simp only [emitSeq, List.foldlM_append, hd₁]
  exact hd₂

theorem Triple.mono {p : σ → σ × List μ} {pre' post' : σ → δ → Prop} (h : Triple take pre p post)
    (hpre : ∀ s d, pre' s d → pre s d) (hpost : ∀ s d, post s d → post' s d) :
    Triple take pre' p post' := by
  intro s d hs
  obtain ⟨d', hd', hp⟩ := h s d (hpre s d hs)
  exact ⟨d', hd', hpost _ _ hp⟩

/-- **The loop rule**: an invariant over the elements still to visit, kept by each turn. -/
theorem triple_emitLoop {body : σ → α → σ × μ} (inv : List α → σ → δ → Prop)
    (hbody : ∀ x xs s d, inv (x :: xs) s d →
      ∃ d', take d (body s x).2 = some d' ∧ inv xs (body s x).1 d')
    (xs : List α) (s : σ) (d : δ) (h : inv xs s d) :
    ∃ d', (emitLoop body xs s).2.foldlM take d = some d' ∧ inv [] (emitLoop body xs s).1 d' := by
  induction xs generalizing s d with
  | nil => exact ⟨d, rfl, h⟩
  | cons x xs ih =>
    obtain ⟨d₁, hd₁, hinv⟩ := hbody x xs s d h
    obtain ⟨d₂, hd₂, hinv₂⟩ := ih (body s x).1 d₁ hinv
    refine ⟨d₂, ?_, hinv₂⟩
    simp only [emitLoop_cons, List.foldlM_cons, hd₁]
    exact hd₂

/-- A consumer whose every step, when it succeeds, is `step` ends where the plain fold of
`step` ends. -/
theorem foldlM_eq_foldl {step : δ → μ → δ} (htake : ∀ d m d', take d m = some d' → d' = step d m) :
    ∀ (ms : List μ) (d d' : δ), ms.foldlM take d = some d' → d' = ms.foldl step d := by
  intro ms
  induction ms with
  | nil =>
    intro d d' h
    exact (Option.some.inj h).symm
  | cons m ms ih =>
    intro d d' h
    simp only [List.foldlM_cons] at h
    cases hm : take d m with
    | none => simp [hm] at h
    | some d₁ =>
      rw [hm] at h
      rw [List.foldl_cons, ← htake d m d₁ hm]
      exact ih d₁ d' h

/-- A consumer that takes a message only into a state satisfying `Q` passes, over a whole
sequence it takes, only through states satisfying `Q`. -/
theorem foldlM_take_scanl {step : δ → μ → δ} {Q : δ → Prop}
    (htake : ∀ d m d', take d m = some d' → d' = step d m ∧ Q d') :
    ∀ (ms : List μ) (d d' : δ), ms.foldlM take d = some d' → Q d →
      ∀ x ∈ ms.scanl step d, Q x := by
  intro ms
  induction ms with
  | nil =>
    intro d d' _ hd x hx
    simp only [List.scanl_nil, List.mem_singleton] at hx
    exact hx ▸ hd
  | cons m ms ih =>
    intro d d' h hd x hx
    simp only [List.foldlM_cons] at h
    cases hm : take d m with
    | none => simp [hm] at h
    | some d₁ =>
      obtain ⟨rfl, hq⟩ := htake d m d₁ hm
      rw [hm] at h
      simp only [List.scanl_cons, List.mem_cons] at hx
      rcases hx with rfl | hx
      · exact hd
      · exact ih _ d' h hq x hx

/-- A consumer that reads each message by `step` and refuses to enter a state outside
`Q`: it takes a whole sequence exactly when every state the sequence passes through
satisfies `Q`. -/
def guarded (Q : δ → Prop) [DecidablePred Q] (step : δ → μ → δ) (d : δ) (m : μ) : Option δ :=
  if Q (step d m) then some (step d m) else none

@[simp] theorem guarded_eq_some {Q : δ → Prop} [DecidablePred Q] {step : δ → μ → δ} {d d' : δ}
    {m : μ} : guarded Q step d m = some d' ↔ d' = step d m ∧ Q d' := by
  unfold guarded
  split_ifs with h
  · constructor
    · rintro ⟨⟩
      exact ⟨rfl, h⟩
    · rintro ⟨rfl, -⟩
      rfl
  · simp only [false_iff, not_and]
    rintro rfl
    exact h

/-- A sequence the guarded consumer takes passes, state by state, only through `Q`. -/
theorem scanl_of_foldlM_guarded {Q : δ → Prop} [DecidablePred Q] {step : δ → μ → δ}
    {ms : List μ} {d d' : δ} (h : ms.foldlM (guarded Q step) d = some d') (hd : Q d) :
    ∀ x ∈ ms.scanl step d, Q x :=
  foldlM_take_scanl (fun _ _ _ h => guarded_eq_some.mp h) ms d d' h hd

/-! ## The loops of a buffer inside a larger state -/

/-- A component of a state: `get` reads it and `set` replaces it, leaving the rest alone. -/
structure Lens (σ τ : Type*) where
  get : σ → τ
  set : σ → τ → σ
  get_set : ∀ s t, get (set s t) = t
  set_set : ∀ s t t', set (set s t) t' = set s t'
  set_get : ∀ s, set s (get s) = s

attribute [simp] Lens.get_set Lens.set_set Lens.set_get

/-- A loop run on one component of the state, its messages relabelled, is a loop on the
whole state. -/
theorem emitLoop_lens {τ ν : Type*} (L : Lens σ τ) (body : τ → α → τ × ν) (f : ν → μ)
    (xs : List α) (s : σ) :
    emitLoop (fun s x => (L.set s (body (L.get s) x).1, f (body (L.get s) x).2)) xs s =
      (L.set s (emitLoop body xs (L.get s)).1, (emitLoop body xs (L.get s)).2.map f) := by
  induction xs generalizing s with
  | nil => simp
  | cons x xs ih => simp [ih]

section Drain

variable {K V : Type*} [DecidableEq K] (L : Lens σ (Buffer K V)) (inv : σ → δ → Prop)

/-- **The update loop**: an invariant that the consumer keeps while taking each queued
update holds after the loop, which leaves nothing queued. -/
theorem triple_flushUpdates (mk : K × V → μ)
    (hturn : ∀ s d k v, inv s d → (L.get s).pendingUpdates.lookup k = some v →
      ∃ d', take d (mk (k, v)) = some d' ∧ inv (L.set s ((L.get s).sendUpdate k)) d') :
    Triple take inv (fun s => (L.set s (L.get s).flushUpdates.1, (L.get s).flushUpdates.2.map mk))
      (fun s d => inv s d ∧ ∀ k, k ∉ (L.get s).pendingUpdates) := by
  intro s d hs
  -- the loop runs over the entries queued when it starts, each turn taking the first off
  have hbody : ∀ (e : Σ _ : K, V) xs s d,
      (inv s d ∧ (L.get s).pendingUpdates.entries = e :: xs) →
      ∃ d', take d (mk (e.1, e.2)) = some d' ∧
        (inv (L.set s ((L.get s).sendUpdate e.1)) d' ∧
          (L.get (L.set s ((L.get s).sendUpdate e.1))).pendingUpdates.entries = xs) := by
    rintro ⟨k, v⟩ xs s d ⟨hinv, hxs⟩
    have hk : (L.get s).pendingUpdates.lookup k = some v := by
      simp [AList.lookup, hxs]
    obtain ⟨d', hd', hinv'⟩ := hturn s d k v hinv hk
    exact ⟨d', hd', hinv', by simpa using Buffer.sendUpdate_entries hxs⟩
  obtain ⟨d', hd', hinv, hnil⟩ :=
    @triple_emitLoop σ δ μ _ take (fun s e => (L.set s ((L.get s).sendUpdate e.1), mk (e.1, e.2)))
      (fun xs s d => inv s d ∧ (L.get s).pendingUpdates.entries = xs)
      hbody (L.get s).pendingUpdates.entries s d ⟨hs, rfl⟩
  have hloop := emitLoop_lens L (fun (c : Buffer K V) (e : Σ _ : K, V) => (c.sendUpdate e.1, (e.1, e.2)))
    mk (L.get s).pendingUpdates.entries s
  rw [hloop] at hd' hinv hnil
  refine ⟨d', hd', hinv, fun k hk => ?_⟩
  dsimp only at hk hnil
  simp only [Lens.get_set, Buffer.flushUpdates] at hk hnil
  rw [AList.mem_keys, AList.keys, hnil] at hk
  exact List.not_mem_nil hk

/-- **The deletion loop**: an invariant that the consumer keeps while taking each queued
deletion holds after the loop, which leaves nothing queued. -/
theorem triple_flushDeletes (mk : K → μ)
    (hturn : ∀ s d k, inv s d → k ∈ (L.get s).pendingDeletes →
      ∃ d', take d (mk k) = some d' ∧ inv (L.set s ((L.get s).sendDelete k)) d') :
    Triple take inv (fun s => (L.set s (L.get s).flushDeletes.1, (L.get s).flushDeletes.2.map mk))
      (fun s d => inv s d ∧ ∀ k, k ∉ (L.get s).pendingDeletes) := by
  intro s d hs
  have hbody : ∀ (k : K) xs s d, (inv s d ∧ (L.get s).pendingDeletes.toList = k :: xs) →
      ∃ d', take d (mk k) = some d' ∧
        (inv (L.set s ((L.get s).sendDelete k)) d' ∧
          (L.get (L.set s ((L.get s).sendDelete k))).pendingDeletes.toList = xs) := by
    rintro k xs s d ⟨hinv, hxs⟩
    have hk : k ∈ (L.get s).pendingDeletes := by
      rw [← IterSet.mem_toList, hxs]
      exact List.mem_cons_self
    obtain ⟨d', hd', hinv'⟩ := hturn s d k hinv hk
    exact ⟨d', hd', hinv', by simpa using Buffer.sendDelete_toList hxs⟩
  obtain ⟨d', hd', hinv, hnil⟩ :=
    @triple_emitLoop σ δ μ _ take (fun s k => (L.set s ((L.get s).sendDelete k), mk k))
      (fun xs s d => inv s d ∧ (L.get s).pendingDeletes.toList = xs)
      hbody (L.get s).pendingDeletes.toList s d ⟨hs, rfl⟩
  have hloop := emitLoop_lens L (fun (c : Buffer K V) (k : K) => (c.sendDelete k, k)) mk
    (L.get s).pendingDeletes.toList s
  rw [hloop] at hd' hinv hnil
  refine ⟨d', hd', hinv, fun k hk => ?_⟩
  dsimp only at hk hnil
  simp only [Lens.get_set, Buffer.flushDeletes] at hk hnil
  rw [← IterSet.mem_toList, hnil] at hk
  exact List.not_mem_nil hk

end Drain

end Replication
