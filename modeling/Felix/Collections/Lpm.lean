import Felix.Collections.Bytes
import Mathlib

/-!
# Longest-prefix-match keys

A longest-prefix-match trie (the kernel's `BPF_MAP_TYPE_LPM_TRIE`) keys its entries by
`struct bpf_lpm_trie_key`: a 32-bit prefix length in host order, then the data. It compares
data bit by bit, the most significant bit of each byte first, and an entry matches a lookup key
when the entry's prefix is no longer than the key's and the two agree on its bits.

When the data is a concatenation of fields, agreeing on a prefix that covers whole leading fields
is equality of those fields followed by agreement on the rest (`prefixAgree_append_iff`), and
agreement on the first bits of a big-endian word is agreement of the word's top bits
(`prefixAgree_toBE_iff`). These two rules turn a match against a struct key into equations on
its fields.

## Main definitions

* `bit`: bit `i` of a byte string, in the trie's order
* `PrefixAgree n e d`: `e` and `d` agree on their first `n` bits
* `prefixLen`, `data`, `Matches`: LPM keys and their matching

## Main results

* `prefixAgree_full_iff`, `prefixAgree_append_iff`, `prefixAgree_append_of_le`
* `prefixAgree_toBE_iff`
* `matches_toLE_append_iff`
-/

namespace Lpm

open Bytes

/-- Bit `i` of a byte string, the most significant bit of each byte first; a string reads as
zeros past its end. -/
def bit (bs : List UInt8) (i : ℕ) : Bool := (bs.getD (i / 8) 0).toNat.testBit (7 - i % 8)

/-- The first `n` bits of `e` and `d` agree. -/
def PrefixAgree (n : ℕ) (e d : List UInt8) : Prop := ∀ i < n, bit e i = bit d i

instance (n : ℕ) (e d : List UInt8) : Decidable (PrefixAgree n e d) :=
  inferInstanceAs (Decidable (∀ i < n, bit e i = bit d i))

/-- The prefix length of an LPM key, `bpf_lpm_trie_key.prefixlen`, in host (little-endian)
order. -/
def prefixLen (key : List UInt8) : ℕ := ofLE (key.take 4)

/-- The data of an LPM key, after its prefix length. -/
def data (key : List UInt8) : List UInt8 := key.drop 4

/-- An entry matches a lookup key when its prefix is no longer than the key's and their data
agree on it. -/
def Matches (entry key : List UInt8) : Prop :=
  prefixLen entry ≤ prefixLen key ∧ PrefixAgree (prefixLen entry) (data entry) (data key)

instance (entry key : List UInt8) : Decidable (Matches entry key) :=
  inferInstanceAs (Decidable (_ ∧ _))

/-! ## Bits of concatenations -/

section Append

variable {l₁ : List UInt8} {i : ℕ}

theorem bit_append_of_lt (l₂ : List UInt8) (h : i < 8 * l₁.length) :
    bit (l₁ ++ l₂) i = bit l₁ i := by
  unfold bit
  rw [List.getD_append _ _ _ _ (by omega)]

theorem bit_append_add (l₁ l₂ : List UInt8) (i : ℕ) :
    bit (l₁ ++ l₂) (8 * l₁.length + i) = bit l₂ i := by
  unfold bit
  rw [List.getD_append_right _ _ _ _ (by omega)]
  have hdiv : (8 * l₁.length + i) / 8 - l₁.length = i / 8 := by omega
  have hmod : (8 * l₁.length + i) % 8 = i % 8 := by omega
  rw [hdiv, hmod]

/-- Bit `j` of a byte, counted from the least significant, is its trie bit `7 - j`. -/
theorem bit_eq_testBit (l : List UInt8) (k j : ℕ) (hj : j < 8) :
    bit l (8 * k + (7 - j)) = (l.getD k 0).toNat.testBit j := by
  unfold bit
  have hdiv : (8 * k + (7 - j)) / 8 = k := by omega
  have hmod : 7 - (8 * k + (7 - j)) % 8 = j := by omega
  rw [hdiv, hmod]

/-- Two bytes with the same eight bits are equal. -/
theorem byte_eq_of_testBit {x y : UInt8} (h : ∀ j < 8, x.toNat.testBit j = y.toNat.testBit j) :
    x = y := by
  apply UInt8.toNat_inj.mp
  apply Nat.eq_of_testBit_eq
  intro j
  by_cases hj : j < 8
  · exact h j hj
  · have h8 : 2 ^ 8 ≤ 2 ^ j := Nat.pow_le_pow_right (by omega) (by omega)
    have hx : x.toNat < 2 ^ j := lt_of_lt_of_le x.toNat_lt h8
    have hy : y.toNat < 2 ^ j := lt_of_lt_of_le y.toNat_lt h8
    rw [Nat.testBit_lt_two_pow hx, Nat.testBit_lt_two_pow hy]

end Append

/-! ## Agreement on a prefix -/

section Agree

variable {n m : ℕ} {e d e₁ e₂ d₁ d₂ : List UInt8}

theorem PrefixAgree.mono (h : m ≤ n) (hp : PrefixAgree n e d) : PrefixAgree m e d :=
  fun i hi => hp i (by omega)

/-- Agreeing on every bit of two strings of one length is equality. -/
theorem prefixAgree_full_iff (h : e.length = d.length) :
    PrefixAgree (8 * e.length) e d ↔ e = d := by
  refine ⟨fun hp => ?_, fun he => he ▸ fun _ _ => rfl⟩
  apply List.ext_getElem h
  intro k hk₁ hk₂
  rw [← List.getD_eq_getElem e 0 hk₁, ← List.getD_eq_getElem d 0 hk₂]
  apply byte_eq_of_testBit
  intro j hj
  rw [← bit_eq_testBit e k j hj, ← bit_eq_testBit d k j hj]
  exact hp _ (by omega)

/-- A prefix that covers the leading strings agrees iff they are equal and the rest agrees. -/
theorem prefixAgree_append_iff (h : e₁.length = d₁.length) :
    PrefixAgree (8 * e₁.length + n) (e₁ ++ e₂) (d₁ ++ d₂) ↔ e₁ = d₁ ∧ PrefixAgree n e₂ d₂ := by
  constructor
  · intro hp
    have h₁ : PrefixAgree (8 * e₁.length) e₁ d₁ := fun i hi => by
      rw [← bit_append_of_lt e₂ hi, ← bit_append_of_lt d₂ (show i < 8 * d₁.length by omega)]
      exact hp i (by omega)
    refine ⟨(prefixAgree_full_iff h).mp h₁, fun i hi => ?_⟩
    rw [← bit_append_add e₁ e₂, ← bit_append_add d₁ d₂, ← h]
    exact hp _ (by omega)
  · rintro ⟨rfl, hp⟩ i hi
    by_cases hlt : i < 8 * e₁.length
    · rw [bit_append_of_lt e₂ hlt, bit_append_of_lt d₂ hlt]
    · obtain ⟨j, rfl⟩ : ∃ j, i = 8 * e₁.length + j := ⟨i - 8 * e₁.length, by omega⟩
      rw [bit_append_add, bit_append_add]
      exact hp j (by omega)

/-- A prefix within the leading strings sees only them. -/
theorem prefixAgree_append_of_le (hn : n ≤ 8 * e₁.length) (h : e₁.length = d₁.length) :
    PrefixAgree n (e₁ ++ e₂) (d₁ ++ d₂) ↔ PrefixAgree n e₁ d₁ := by
  constructor
  · intro hp i hi
    rw [← bit_append_of_lt e₂ (show i < 8 * e₁.length by omega),
      ← bit_append_of_lt d₂ (show i < 8 * d₁.length by omega)]
    exact hp i hi
  · intro hp i hi
    rw [bit_append_of_lt e₂ (show i < 8 * e₁.length by omega),
      bit_append_of_lt d₂ (show i < 8 * d₁.length by omega)]
    exact hp i hi

end Agree

/-! ## Big-endian words -/

/-- Trie bit `i` of a big-endian word is the word's bit `8 w - 1 - i`. -/
theorem bit_toBE {w x i : ℕ} (h : i < 8 * w) : bit (toBE w x) i = x.testBit (8 * w - 1 - i) := by
  unfold bit toBE
  rw [List.getD_reverse _ (by simp only [length_toLE]; omega), getD_toLE, length_toLE,
    if_pos (by omega),
    UInt8.toNat_ofNat', Nat.testBit_mod_two_pow, decide_eq_true (by omega), Bool.true_and,
    show (256 : ℕ) ^ (w - 1 - i / 8) = 2 ^ (8 * (w - 1 - i / 8)) by rw [Nat.pow_mul],
    Nat.testBit_div_two_pow]
  congr 1
  omega

/-- The first `n` trie bits of two big-endian words agree iff their top `n` bits do. -/
theorem prefixAgree_toBE_iff {w n x y : ℕ} (hn : n ≤ 8 * w) :
    PrefixAgree n (toBE w x) (toBE w y) ↔
      ∀ j, 8 * w - n ≤ j → j < 8 * w → x.testBit j = y.testBit j := by
  constructor
  · intro hp j hj₁ hj₂
    have := hp (8 * w - 1 - j) (by omega)
    rwa [bit_toBE (by omega), bit_toBE (by omega), show 8 * w - 1 - (8 * w - 1 - j) = j by omega]
      at this
  · intro hp i hi
    rw [bit_toBE (by omega), bit_toBE (by omega)]
    exact hp _ (by omega) (by omega)

/-! ## Matching -/

/-- Keys laid out as a prefix length and then data match as their two parts say. -/
theorem matches_toLE_append_iff {p q : ℕ} {e d : List UInt8} (hp : p < 2 ^ 32)
    (hq : q < 2 ^ 32) :
    Matches (toLE 4 p ++ e) (toLE 4 q ++ d) ↔ p ≤ q ∧ PrefixAgree p e d := by
  have hlen : ∀ n (l : List UInt8),
      (toLE 4 n ++ l).take 4 = toLE 4 n ∧ (toLE 4 n ++ l).drop 4 = l :=
    fun n l => ⟨List.take_left' (length_toLE 4 n), List.drop_left' (length_toLE 4 n)⟩
  unfold Matches prefixLen data
  rw [(hlen p e).1, (hlen p e).2, (hlen q d).1, (hlen q d).2, ofLE_toLE_of_lt (by omega),
    ofLE_toLE_of_lt (by omega)]

end Lpm
