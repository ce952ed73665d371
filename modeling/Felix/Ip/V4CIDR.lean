import Mathlib

/-!
# IPv4 CIDRs

`ip.V4CIDR` is an address and a prefix length. The trie of `trie.go` compares CIDRs through
three functions: `ContainsV4` (the CIDR's prefix holds an address), `V4Addr.NthBit` (one bit of
an address, the most significant first) and `V4CommonPrefix` (the longest prefix two CIDRs
share). They are written here as the source computes them, on the address's big-endian value
(`V4Addr.AsUint32`), with Go's shifts: a shift by the word's width or more gives zero.

Below them is what they compute. `bitAt a i` is bit `i` of an address, the most significant
first, and a CIDR `Contains` another when its prefix is no longer and the two addresses agree
on it. On canonical CIDRs, whose address bits past the prefix are zero, containment is the
order of a tree: two CIDRs that contain a third are nested (`Contains.total`), and
`V4CommonPrefix` gives the smallest CIDR that contains both its arguments
(`contains_v4CommonPrefix`).

## Main definitions

* `V4CIDR`, `V4CIDR.containsV4`, `nthBit`, `v4CommonPrefix`: the model
* `bitAt`, `Agree`, `V4CIDR.Canonical`, `V4CIDR.Contains`: what they compute

## Main results

* `containsV4_iff`, `nthBit_succ`: the source's bit tests, read bit by bit
* `v4CommonPrefix_comm`, `bitAt_v4CommonPrefix`, `agree_v4CommonPrefix`,
  `bitAt_ne_of_lt_v4CommonPrefix`: what `V4CommonPrefix` computes
* `Contains.antisymm`, `Contains.trans`, `Contains.total`, `contains_v4CommonPrefix`,
  `v4CommonPrefix_eq_left_iff`: containment is a tree order
-/

namespace Felix.Ip

/-- `ip.V4CIDR`: the address, as its big-endian value `V4Addr.AsUint32`, and the prefix length
(the source's `prefix`). -/
@[ext]
structure V4CIDR where
  addr : UInt32
  prefixLen : UInt8
  deriving DecidableEq, Repr

/-- `bits.LeadingZeros32`: the number of zero bits above the highest set bit, 32 for zero. -/
def leadingZeros32 (x : UInt32) : ℕ := 32 - x.toNat.size
attribute [grind] leadingZeros32

/-- Go's `x << s` on a `uint32`: the bits shifted past the word are dropped. -/
def shiftLeft32 (x : UInt32) (s : ℕ) : UInt32 := UInt32.ofNat (x.toNat <<< s)

/-- `V4Addr.NthBit`: `a >> (32 - n) & 1`. The shift is by the unsigned `32 - n`, which wraps for
`n > 32` to a shift past the word, so that there the bit reads as zero. -/
def nthBit (a : UInt32) (n : ℕ) : ℕ := if n ≤ 32 then (a.toNat >>> (32 - n)) &&& 1 else 0

namespace V4CIDR

/-- `V4CIDR.ContainsV4`: the address agrees with the CIDR's address on the prefix. -/
def containsV4 (c : V4CIDR) (a : UInt32) : Bool :=
  decide ((leadingZeros32 (c.addr ^^^ a)).toUInt8 ≥ c.prefixLen)

end V4CIDR

/-- `V4CommonPrefix`: the longest prefix that `a` and `b` share, no longer than either, with the
address of `a` cut to it. -/
def v4CommonPrefix (a b : V4CIDR) : V4CIDR :=
  let maxLen := if b.prefixLen < a.prefixLen then b.prefixLen else a.prefixLen
  let commonPrefixLen := (leadingZeros32 (a.addr ^^^ b.addr)).toUInt8
  let resultLen := if commonPrefixLen > maxLen then maxLen else commonPrefixLen
  -- `32 - result.prefix` is a `uint8` subtraction
  let mask := shiftLeft32 0xffffffff (32 - resultLen).toNat
  ⟨mask &&& a.addr, resultLen⟩

/-! ## Bits -/

/-- Bit `i` of an address, the most significant bit first (for `i < 32`). -/
def bitAt (a : UInt32) (i : ℕ) : Bool := a.toNat.testBit (31 - i)
attribute [grind] bitAt

/-- Two addresses agree on their first `k` bits. -/
def Agree (k : ℕ) (a b : UInt32) : Prop := ∀ i < k, bitAt a i = bitAt b i

instance (k : ℕ) (a b : UInt32) : Decidable (Agree k a b) :=
  inferInstanceAs (Decidable (∀ i < k, bitAt a i = bitAt b i))

namespace V4CIDR

/-- A canonical CIDR: a prefix of at most 32 bits, and zeros past it. -/
def Canonical (c : V4CIDR) : Prop :=
  c.prefixLen.toNat ≤ 32 ∧ ∀ i < 32, c.prefixLen.toNat ≤ i → bitAt c.addr i = false

instance (c : V4CIDR) : Decidable c.Canonical :=
  inferInstanceAs (Decidable (_ ∧ ∀ i < 32, c.prefixLen.toNat ≤ i → bitAt c.addr i = false))

/-- `c` contains `d`: its prefix is no longer than `d`'s, and the addresses agree on it. -/
def Contains (c d : V4CIDR) : Prop :=
  c.prefixLen.toNat ≤ d.prefixLen.toNat ∧ Agree c.prefixLen.toNat c.addr d.addr

instance (c d : V4CIDR) : Decidable (c.Contains d) :=
  inferInstanceAs (Decidable (_ ∧ _))

end V4CIDR

theorem testBit_toNat_of_ge (a : UInt32) {j : ℕ} (h : 32 ≤ j) : a.toNat.testBit j = false :=
  Nat.testBit_lt_two_pow (lt_of_lt_of_le a.toNat_lt (Nat.pow_le_pow_right (by omega) h))

/-- Addresses with the same 32 bits are equal. -/
theorem eq_of_bitAt {a b : UInt32} (h : ∀ i < 32, bitAt a i = bitAt b i) : a = b := by
  apply UInt32.toNat_inj.mp
  apply Nat.eq_of_testBit_eq
  intro j
  by_cases hj : j < 32
  · have := h (31 - j) (by omega)
    rwa [bitAt, bitAt, show 31 - (31 - j) = j by omega] at this
  · rw [testBit_toNat_of_ge a (by omega), testBit_toNat_of_ge b (by omega)]

theorem bitAt_xor (a b : UInt32) (i : ℕ) : bitAt (a ^^^ b) i = (bitAt a i ^^ bitAt b i) := by
  rw [bitAt, UInt32.toNat_xor, Nat.testBit_xor]
  rfl

theorem bitAt_and (a b : UInt32) (i : ℕ) : bitAt (a &&& b) i = (bitAt a i && bitAt b i) := by
  rw [bitAt, UInt32.toNat_and, Nat.testBit_and]
  rfl

/-- The xor of two addresses is below `2 ^ (32 - k)` when they agree on their first `k` bits. -/
theorem xor_lt_iff_agree {a b : UInt32} {k : ℕ} (hk : k ≤ 32) :
    (a ^^^ b).toNat < 2 ^ (32 - k) ↔ Agree k a b := by
  constructor
  · intro h i hi
    have hbit : (a ^^^ b).toNat.testBit (31 - i) = false :=
      Nat.testBit_lt_two_pow (lt_of_lt_of_le h (Nat.pow_le_pow_right (by omega) (by omega)))
    have hx := bitAt_xor a b i
    rw [bitAt, hbit] at hx
    revert hx
    cases bitAt a i <;> cases bitAt b i <;> decide
  · intro h
    apply Nat.lt_pow_two_of_testBit
    intro j hj
    by_cases hj32 : j < 32
    · -- a bit of the prefix, where the two agree
      have hx := bitAt_xor a b (31 - j)
      rw [h (31 - j) (by omega), Bool.xor_self, bitAt, show 31 - (31 - j) = j by omega] at hx
      exact hx
    · exact testBit_toNat_of_ge _ (by omega)

theorem leadingZeros32_le (x : UInt32) : leadingZeros32 x ≤ 32 := Nat.sub_le _ _

theorem toNat_toUInt8_leadingZeros32 (x : UInt32) :
    (leadingZeros32 x).toUInt8.toNat = leadingZeros32 x := by
  have := leadingZeros32_le x
  show (UInt8.ofNat _).toNat = _
  rw [UInt8.toNat_ofNat']
  omega

/-- Two addresses agree on as many bits as their xor has leading zeros. -/
theorem le_leadingZeros32_iff {a b : UInt32} {k : ℕ} (hk : k ≤ 32) :
    k ≤ leadingZeros32 (a ^^^ b) ↔ Agree k a b := by
  have hs : (a ^^^ b).toNat.size ≤ 32 := Nat.size_le.mpr (UInt32.toNat_lt _)
  rw [← xor_lt_iff_agree hk, ← Nat.size_le, leadingZeros32]
  omega

theorem Agree.mono {k l : ℕ} {a b : UInt32} (h : Agree l a b) (hkl : k ≤ l) : Agree k a b :=
  fun i hi => h i (by omega)

theorem Agree.symm {k : ℕ} {a b : UInt32} (h : Agree k a b) : Agree k b a :=
  fun i hi => (h i hi).symm

theorem Agree.trans {k : ℕ} {a b c : UInt32} (h₁ : Agree k a b) (h₂ : Agree k b c) :
    Agree k a c :=
  fun i hi => (h₁ i hi).trans (h₂ i hi)

namespace V4CIDR

theorem containsV4_iff {c : V4CIDR} (hc : c.prefixLen.toNat ≤ 32) (a : UInt32) :
    c.containsV4 a = true ↔ Agree c.prefixLen.toNat c.addr a := by
  rw [containsV4, decide_eq_true_iff, ge_iff_le, UInt8.le_iff_toNat_le,
    toNat_toUInt8_leadingZeros32]
  exact le_leadingZeros32_iff hc

end V4CIDR

/-- `NthBit(i + 1)` is bit `i`, counted from the most significant one. -/
theorem nthBit_succ (a : UInt32) {i : ℕ} (hi : i < 32) :
    nthBit a (i + 1) = (bitAt a i).toNat := by
  rw [nthBit, if_pos (by omega), Nat.and_one_is_mod, Nat.shiftRight_eq_div_pow, bitAt,
    Nat.testBit_eq_decide_div_mod_eq, show 32 - (i + 1) = 31 - i by omega]
  rcases Nat.mod_two_eq_zero_or_one (a.toNat / 2 ^ (31 - i)) with h | h <;> simp [h]

/-! ## `V4CommonPrefix` -/

section CommonPrefix

variable {a b : V4CIDR}

theorem prefixLen_v4CommonPrefix :
    (v4CommonPrefix a b).prefixLen.toNat =
      min (leadingZeros32 (a.addr ^^^ b.addr)) (min a.prefixLen.toNat b.prefixLen.toNat) := by
  have hz := toNat_toUInt8_leadingZeros32 (a.addr ^^^ b.addr)
  simp only [v4CommonPrefix]
  split_ifs with h₁ h₂ h₂ <;>
    simp only [UInt8.lt_iff_toNat_lt] at h₁ h₂ <;> omega

theorem prefixLen_v4CommonPrefix_le_left :
    (v4CommonPrefix a b).prefixLen.toNat ≤ a.prefixLen.toNat := by
  rw [prefixLen_v4CommonPrefix]
  omega

theorem prefixLen_v4CommonPrefix_le_right :
    (v4CommonPrefix a b).prefixLen.toNat ≤ b.prefixLen.toNat := by
  rw [prefixLen_v4CommonPrefix]
  omega

theorem prefixLen_v4CommonPrefix_le_32 : (v4CommonPrefix a b).prefixLen.toNat ≤ 32 := by
  rw [prefixLen_v4CommonPrefix]
  have := leadingZeros32_le (a.addr ^^^ b.addr)
  omega

/-- The addresses agree on the common prefix. -/
theorem agree_v4CommonPrefix :
    Agree (v4CommonPrefix a b).prefixLen.toNat a.addr b.addr := by
  apply (le_leadingZeros32_iff prefixLen_v4CommonPrefix_le_32).mp
  rw [prefixLen_v4CommonPrefix]
  omega

/-- The mask keeps the bits of the prefix. -/
theorem bitAt_mask {p i : ℕ} (hp : p ≤ 32) (hi : i < 32) :
    bitAt (shiftLeft32 0xffffffff (32 - p)) i = decide (i < p) := by
  rw [bitAt, shiftLeft32, UInt32.toNat_ofNat', Nat.testBit_mod_two_pow, Nat.shiftLeft_eq,
    Nat.testBit_mul_two_pow]
  have hff : (0xffffffff : UInt32).toNat = 2 ^ 32 - 1 := rfl
  rw [hff, Nat.testBit_two_pow_sub_one]
  by_cases hip : i < p
  · simp [hip]
    omega
  · simp [hip]
    omega

theorem addr_v4CommonPrefix :
    (v4CommonPrefix a b).addr =
      shiftLeft32 0xffffffff (32 - (v4CommonPrefix a b).prefixLen.toNat) &&& a.addr := by
  have hr := prefixLen_v4CommonPrefix_le_32 (a := a) (b := b)
  show shiftLeft32 0xffffffff (32 - (v4CommonPrefix a b).prefixLen).toNat &&& a.addr = _
  -- the `uint8` subtraction does not wrap
  rw [UInt8.toNat_sub_of_le _ _ (UInt8.le_iff_toNat_le.mpr hr)]
  rfl

/-- The common prefix keeps the bits of `a` on the prefix, and is zero past it. -/
theorem bitAt_v4CommonPrefix {i : ℕ} (hi : i < 32) :
    bitAt (v4CommonPrefix a b).addr i =
      (decide (i < (v4CommonPrefix a b).prefixLen.toNat) && bitAt a.addr i) := by
  rw [addr_v4CommonPrefix, bitAt_and, bitAt_mask prefixLen_v4CommonPrefix_le_32 hi]

/-- Where the common prefix stops short of both prefixes, the addresses differ at its next bit. -/
theorem bitAt_ne_of_lt_v4CommonPrefix
    (h : (v4CommonPrefix a b).prefixLen.toNat < min a.prefixLen.toNat b.prefixLen.toNat)
    (h32 : (v4CommonPrefix a b).prefixLen.toNat < 32) :
    bitAt a.addr (v4CommonPrefix a b).prefixLen.toNat ≠
      bitAt b.addr (v4CommonPrefix a b).prefixLen.toNat := by
  have hs32 : (a.addr ^^^ b.addr).toNat.size ≤ 32 := Nat.size_le.mpr (UInt32.toNat_lt _)
  have hlz : (v4CommonPrefix a b).prefixLen.toNat = 32 - (a.addr ^^^ b.addr).toNat.size := by
    rw [prefixLen_v4CommonPrefix, leadingZeros32] at h h32 ⊢
    omega
  have hsize : 0 < (a.addr ^^^ b.addr).toNat.size := by omega
  -- the highest set bit of the xor is the first bit where the addresses differ
  have htop : (a.addr ^^^ b.addr).toNat.testBit ((a.addr ^^^ b.addr).toNat.size - 1) = true :=
    Nat.testBit_of_two_pow_le_and_two_pow_add_one_gt (Nat.lt_size.mp (by omega))
      (by rw [Nat.sub_add_cancel hsize]; exact Nat.lt_size_self _)
  have hbit := bitAt_xor a.addr b.addr (v4CommonPrefix a b).prefixLen.toNat
  rw [bitAt, hlz, show 31 - (32 - (a.addr ^^^ b.addr).toNat.size) =
    (a.addr ^^^ b.addr).toNat.size - 1 by omega, htop, ← hlz] at hbit
  intro heq
  rw [heq, Bool.xor_self] at hbit
  exact Bool.false_ne_true hbit.symm

theorem v4CommonPrefix_comm : v4CommonPrefix a b = v4CommonPrefix b a := by
  have hp : (v4CommonPrefix a b).prefixLen = (v4CommonPrefix b a).prefixLen := by
    apply UInt8.toNat_inj.mp
    rw [prefixLen_v4CommonPrefix, prefixLen_v4CommonPrefix, UInt32.xor_comm]
    omega
  ext1
  · apply eq_of_bitAt
    intro i hi
    rw [bitAt_v4CommonPrefix hi, bitAt_v4CommonPrefix hi, ← hp]
    by_cases hip : i < (v4CommonPrefix a b).prefixLen.toNat
    · rw [agree_v4CommonPrefix i hip]
    · simp [hip]
  · exact hp

theorem canonical_v4CommonPrefix : (v4CommonPrefix a b).Canonical := by
  refine ⟨prefixLen_v4CommonPrefix_le_32, fun i hi hpi => ?_⟩
  rw [bitAt_v4CommonPrefix hi]
  simp only [Bool.and_eq_false_iff, decide_eq_false_iff_not, not_lt]
  exact .inl hpi

end CommonPrefix

/-! ## Containment -/

namespace V4CIDR

variable {a b c d x : V4CIDR}

/-- Containment is the source's test on addresses, with the prefixes ordered. -/
theorem contains_iff (hc : c.prefixLen.toNat ≤ 32) :
    c.Contains d ↔ c.prefixLen.toNat ≤ d.prefixLen.toNat ∧ c.containsV4 d.addr = true := by
  rw [containsV4_iff hc]
  rfl

@[simp] theorem Contains.refl (c : V4CIDR) : c.Contains c := ⟨le_rfl, fun _ _ => rfl⟩

theorem Contains.bitAt_eq (h : c.Contains d) {i : ℕ} (hi : i < c.prefixLen.toNat) :
    bitAt c.addr i = bitAt d.addr i :=
  h.2 i hi

theorem Contains.trans (h₁ : c.Contains d) (h₂ : d.Contains x) : c.Contains x :=
  ⟨le_trans h₁.1 h₂.1, h₁.2.trans (h₂.2.mono h₁.1)⟩

theorem Contains.antisymm (hc : c.Canonical) (hd : d.Canonical) (h₁ : c.Contains d)
    (h₂ : d.Contains c) : c = d := by
  have hp : c.prefixLen.toNat = d.prefixLen.toNat := le_antisymm h₁.1 h₂.1
  ext1
  · apply eq_of_bitAt
    intro i hi
    by_cases hip : i < c.prefixLen.toNat
    · exact h₁.bitAt_eq hip
    · -- past the prefix both addresses are zero
      rw [hc.2 i hi (by omega), hd.2 i hi (by omega)]
  · exact UInt8.toNat_inj.mp hp

/-- Two CIDRs that contain a third are nested. -/
theorem Contains.total (h₁ : c.Contains x) (h₂ : d.Contains x) : c.Contains d ∨ d.Contains c := by
  rcases le_total c.prefixLen.toNat d.prefixLen.toNat with h | h
  · exact .inl ⟨h, h₁.2.trans (h₂.2.mono h).symm⟩
  · exact .inr ⟨h, h₂.2.trans (h₁.2.mono h).symm⟩

theorem contains_v4CommonPrefix_left : (v4CommonPrefix a b).Contains a := by
  refine ⟨prefixLen_v4CommonPrefix_le_left, fun i hi => ?_⟩
  rw [bitAt_v4CommonPrefix (by have := prefixLen_v4CommonPrefix_le_32 (a := a) (b := b); omega)]
  simp [hi]

theorem contains_v4CommonPrefix_right : (v4CommonPrefix a b).Contains b :=
  ⟨prefixLen_v4CommonPrefix_le_right,
    contains_v4CommonPrefix_left.2.trans agree_v4CommonPrefix⟩

/-- The common prefix is the smallest CIDR that contains both. -/
theorem contains_v4CommonPrefix (hc : c.prefixLen.toNat ≤ 32) (h₁ : c.Contains a)
    (h₂ : c.Contains b) : c.Contains (v4CommonPrefix a b) := by
  have hab : Agree c.prefixLen.toNat a.addr b.addr := h₁.2.symm.trans h₂.2
  have hle : c.prefixLen.toNat ≤ (v4CommonPrefix a b).prefixLen.toNat := by
    by_contra hlt
    have hlt' : (v4CommonPrefix a b).prefixLen.toNat < min a.prefixLen.toNat b.prefixLen.toNat := by
      have := h₁.1
      have := h₂.1
      omega
    exact bitAt_ne_of_lt_v4CommonPrefix hlt' (by omega) (hab _ (by omega))
  exact ⟨hle, h₁.2.trans (contains_v4CommonPrefix_left.2.mono hle).symm⟩

theorem v4CommonPrefix_eq_left_iff (ha : a.Canonical) :
    Felix.Ip.v4CommonPrefix a b = a ↔ a.Contains b := by
  constructor
  · intro h
    rw [← h]
    exact contains_v4CommonPrefix_right
  · intro h
    exact Contains.antisymm canonical_v4CommonPrefix ha contains_v4CommonPrefix_left
      (contains_v4CommonPrefix ha.1 (Contains.refl a) h)

theorem v4CommonPrefix_eq_right_iff (hb : b.Canonical) :
    Felix.Ip.v4CommonPrefix a b = b ↔ b.Contains a := by
  rw [v4CommonPrefix_comm]
  exact v4CommonPrefix_eq_left_iff hb

/-- `V4CommonPrefix` stops at `a`'s prefix exactly when `a` contains `b`. -/
theorem prefixLen_v4CommonPrefix_eq_left_iff (ha : a.Canonical) :
    (Felix.Ip.v4CommonPrefix a b).prefixLen = a.prefixLen ↔ a.Contains b := by
  constructor
  · intro h
    have hr : (Felix.Ip.v4CommonPrefix a b).Contains a := contains_v4CommonPrefix_left
    -- with the same prefix, the common prefix and `a` contain each other
    have har : a.Contains (Felix.Ip.v4CommonPrefix a b) := ⟨by rw [h], by rw [← h]; exact hr.2.symm⟩
    exact har.trans contains_v4CommonPrefix_right
  · intro h
    apply UInt8.toNat_inj.mp
    exact le_antisymm prefixLen_v4CommonPrefix_le_left
      (contains_v4CommonPrefix ha.1 (Contains.refl a) h).1

theorem prefixLen_v4CommonPrefix_eq_right_iff (hb : b.Canonical) :
    (Felix.Ip.v4CommonPrefix a b).prefixLen = b.prefixLen ↔ b.Contains a := by
  rw [v4CommonPrefix_comm]
  exact prefixLen_v4CommonPrefix_eq_left_iff hb

/-- Of two canonical CIDRs, one containing the other, the one with the longer prefix is inside. -/
theorem Contains.lt_of_ne (hc : c.Canonical) (hd : d.Canonical) (h : c.Contains d) (hne : c ≠ d) :
    c.prefixLen.toNat < d.prefixLen.toNat := by
  rcases Nat.lt_or_ge c.prefixLen.toNat d.prefixLen.toNat with hlt | hge
  · exact hlt
  · exact absurd (Contains.antisymm hc hd h ⟨hge, h.2.symm.mono (by omega)⟩) hne

end V4CIDR

end Felix.Ip
