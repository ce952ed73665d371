import Mathlib

/-!
# Ones' complement checksums

The Internet checksum (RFC 1071) of a run of 16-bit words is the ones' complement of their ones'
complement sum, so that data carrying a correct checksum sums to all ones. Ones' complement
addition adds the carry out of the top bit back in; on words it is addition modulo `65535` with
`65535` in place of `0` for every non-zero sum. RFC 1624 updates a checksum when some words of
the data change, without summing the data again: `HC' = ~(~HC + ~m + m')`.

Everything the rewriting of a checksummed header needs follows from two facts: a run of words is
valid iff its plain sum is a non-zero multiple of `65535` (`valid_iff`), and the RFC 1624 update
moves the checksum by exactly what the changed words moved the sum (`replace_mod`).

## Main definitions

* `add`, `compl`, `sum`: ones' complement arithmetic on 16-bit words
* `Valid ws`: the words, their checksum among them, sum to all ones
* `replace hc m m'`: RFC 1624, eqn. 3

## Main results

* `valid_iff`, `Valid.of_sum_mod`
* `replace_mod`
-/

namespace OnesComplement

/-- Ones' complement addition of 16-bit words: the carry out of the top bit is added back in. -/
def add (a b : ℕ) : ℕ := if a + b < 65536 then a + b else a + b - 65535

/-- The ones' complement of a 16-bit word. -/
def compl (a : ℕ) : ℕ := 65535 - a

/-- The ones' complement sum of a run of 16-bit words. -/
def sum (ws : List ℕ) : ℕ := ws.foldl add 0
attribute [grind] sum

/-- A run of words that carries its checksum: their ones' complement sum is all ones. -/
def Valid (ws : List ℕ) : Prop := sum ws = 65535

instance (ws : List ℕ) : Decidable (Valid ws) := inferInstanceAs (Decidable (_ = _))

/-- RFC 1624, eqn. 3: the checksum of data whose words `m` became `m'`, from its checksum `hc`
before. -/
def replace (hc : ℕ) (m m' : List ℕ) : ℕ := compl (sum (compl hc :: m.map compl ++ m'))

/-- Every word of the run fits in 16 bits. -/
def Words (ws : List ℕ) : Prop := ∀ w ∈ ws, w < 65536

/-! ## Addition -/

section Add

variable {a b : ℕ}

theorem add_lt (ha : a < 65536) (hb : b < 65536) : add a b < 65536 := by
  unfold add
  split <;> omega

theorem add_mod (a b : ℕ) : add a b % 65535 = (a + b) % 65535 := by
  unfold add
  split <;> omega

theorem add_eq_zero_iff : add a b = 0 ↔ a + b = 0 := by
  unfold add
  split <;> omega

end Add

/-! ## Sums -/

section Sum

variable {ws : List ℕ}

theorem Words.append {ws ws' : List ℕ} (h : Words ws) (h' : Words ws') : Words (ws ++ ws') := by
  intro w hw
  rcases List.mem_append.mp hw with hw | hw
  · exact h w hw
  · exact h' w hw

-- The sum is a fold from `0`; each fact is proved for every accumulator by induction on the words.
theorem foldl_add_lt (hws : Words ws) : ∀ {acc}, acc < 65536 → ws.foldl add acc < 65536 := by
  induction ws with
  | nil => exact id
  | cons w ws ih =>
    intro acc hacc
    exact ih (fun v hv => hws v (List.mem_cons_of_mem w hv))
      (add_lt hacc (hws w List.mem_cons_self))

theorem foldl_add_mod (ws : List ℕ) :
    ∀ acc, ws.foldl add acc % 65535 = (acc + ws.sum) % 65535 := by
  induction ws with
  | nil => simp
  | cons w ws ih =>
    intro acc
    rw [List.foldl_cons, ih, List.sum_cons, Nat.add_mod, add_mod, ← Nat.add_mod,
      Nat.add_assoc]

theorem foldl_add_eq_zero_iff (ws : List ℕ) :
    ∀ acc, ws.foldl add acc = 0 ↔ acc + ws.sum = 0 := by
  induction ws with
  | nil => simp
  | cons w ws ih =>
    intro acc
    rw [List.foldl_cons, ih, List.sum_cons]
    have h : add acc w = 0 ↔ acc + w = 0 := add_eq_zero_iff
    omega

theorem sum_lt (hws : Words ws) : sum ws < 65536 := foldl_add_lt hws (by omega)

theorem sum_mod (ws : List ℕ) : sum ws % 65535 = ws.sum % 65535 := by
  rw [sum, foldl_add_mod, Nat.zero_add]

theorem sum_eq_zero_iff (ws : List ℕ) : sum ws = 0 ↔ ws.sum = 0 := by
  rw [sum, foldl_add_eq_zero_iff, Nat.zero_add]

/-- A run of words is valid iff its plain sum is a non-zero multiple of `65535`. -/
theorem valid_iff (hws : Words ws) : Valid ws ↔ ws.sum % 65535 = 0 ∧ ws.sum ≠ 0 := by
  have hlt := sum_lt hws
  have hmod := sum_mod ws
  have hzero := sum_eq_zero_iff ws
  unfold Valid
  constructor
  · intro h
    refine ⟨by omega, fun hs => ?_⟩
    rw [hzero.mpr hs] at h
    omega
  · rintro ⟨hs, hne⟩
    have : sum ws ≠ 0 := fun h => hne (hzero.mp h)
    omega

/-- Validity moves along a change of the words that keeps their sum modulo `65535` and away
from `0`. -/
theorem Valid.of_sum_mod {ws' : List ℕ} (hv : Valid ws) (hws : Words ws) (hws' : Words ws')
    (hmod : ws'.sum % 65535 = ws.sum % 65535) (hne : ws'.sum ≠ 0) : Valid ws' := by
  rw [valid_iff hws] at hv
  rw [valid_iff hws']
  exact ⟨by omega, hne⟩

end Sum

/-! ## RFC 1624 updates -/

theorem sum_map_compl_mod {m : List ℕ} (hm : Words m) :
    ((m.map compl).sum + m.sum) % 65535 = 0 := by
  induction m with
  | nil => rfl
  | cons w m ih =>
    have hw : w < 65536 := hm w List.mem_cons_self
    have h := ih fun v hv => hm v (List.mem_cons_of_mem w hv)
    rw [List.map_cons, List.sum_cons, List.sum_cons, compl]
    omega

theorem words_replace_arg (hc : ℕ) (m : List ℕ) {m' : List ℕ} (hm' : Words m') :
    Words (compl hc :: m.map compl ++ m') := by
  have hcompl : ∀ v, compl v < 65536 := fun v => by
    unfold compl
    omega
  intro w hw
  rcases List.mem_append.mp hw with hw | hw
  · rcases List.mem_cons.mp hw with rfl | hw
    · exact hcompl hc
    · obtain ⟨v, -, rfl⟩ := List.mem_map.mp hw
      exact hcompl v
  · exact hm' w hw

theorem replace_lt (hc : ℕ) (m m' : List ℕ) : replace hc m m' < 65536 := by
  unfold replace compl
  omega

/-- The RFC 1624 update moves the checksum by what the new words took from the sum. -/
theorem replace_mod {hc : ℕ} {m m' : List ℕ} (hhc : hc < 65536) (hm : Words m) (hm' : Words m') :
    (replace hc m m' + m'.sum) % 65535 = (hc + m.sum) % 65535 := by
  have hlt := sum_lt (words_replace_arg hc m hm')
  have hmod := sum_mod (compl hc :: m.map compl ++ m')
  have hcompl := sum_map_compl_mod hm
  rw [List.sum_append, List.sum_cons] at hmod
  unfold replace
  generalize sum (compl hc :: m.map compl ++ m') = S at hlt hmod ⊢
  generalize (m.map compl).sum = C at hmod hcompl
  unfold compl at hmod ⊢
  omega

end OnesComplement
