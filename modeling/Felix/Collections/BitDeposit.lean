import Mathlib

/-!
# Depositing and extracting bits under a mask

A mask `m` picks out some bit positions. Depositing a number `n` into `m` puts the low bits of
`n`, in order, at the positions of `m`, lowest first; extracting a number from `x` reads the
bits of `x` at the positions of `m` and packs them from bit 0. Both are defined here on the
positions below a bound `s`, one position at a time, which is the order in which a loop over
the bits of a word meets them: position `s` of `m` is the `countBelow m s`-th of its bits.

Extracting undoes depositing for a number that fits in as many bits as the mask has
(`extract_deposit`), and depositing undoes extracting for a word inside the mask
(`deposit_extract`).

## Main definitions

* `countBelow m s`: the number of bits of `m` below position `s`
* `deposit m n s`, `extract m x s`: the two maps, on the positions below `s`

## Main results

* `testBit_deposit`, `deposit_lt`, `extract_lt`
* `deposit_of_lt`: the positions past the last bit of `n` add nothing
* `extract_deposit`, `deposit_extract`
-/

namespace BitDeposit

/-- `x % 2 ^ (k + 1)` adds bit `k` of `x` to `x % 2 ^ k`. -/
theorem mod_two_pow_succ (x k : ℕ) :
    x % 2 ^ (k + 1) = x % 2 ^ k + if x.testBit k then 2 ^ k else 0 := by
  rw [Nat.mod_pow_succ, Nat.testBit_eq_decide_div_mod_eq]
  rcases Nat.mod_two_eq_zero_or_one (x / 2 ^ k) with h | h <;> simp [h]

/-- Bits of a sum whose low part stays below the high part's place. -/
theorem testBit_add_two_pow {a s : ℕ} (ha : a < 2 ^ s) (c : Bool) (i : ℕ) :
    (a + if c then 2 ^ s else 0).testBit i =
      (decide (i < s) && a.testBit i || decide (i = s) && c) := by
  cases c
  · -- nothing added: the bits of `a` stop below `s`
    simp only [Bool.false_eq_true, if_false, add_zero, Bool.and_false, Bool.or_false]
    by_cases hi : i < s
    · simp [hi]
    · have hle : 2 ^ s ≤ 2 ^ i := Nat.pow_le_pow_right (by omega) (by omega)
      simp [hi, Nat.testBit_lt_two_pow (lt_of_lt_of_le ha hle)]
  · have h := Nat.testBit_two_pow_mul_add 1 ha i
    rw [mul_one] at h
    rw [if_pos rfl, add_comm, h]
    rcases Nat.lt_trichotomy i s with hi | rfl | hi
    · simp [hi, Nat.ne_of_lt hi]
    · simp [Nat.testBit_lt_two_pow ha]
    · -- past `s` the sum has only the bits of `2 ^ s`
      have hone : Nat.testBit 1 (i - s) = false :=
        Nat.testBit_lt_two_pow (Nat.one_lt_two_pow (by omega))
      simp [Nat.not_lt.mpr hi.le, Nat.ne_of_gt hi, hone]

/-- Clearing the bits of `x` below `k` keeps bit `k`. -/
theorem testBit_sub_mod_two_pow (x k : ℕ) : (x - x % 2 ^ k).testBit k = x.testBit k := by
  have hx := Nat.div_add_mod x (2 ^ k)
  calc (x - x % 2 ^ k).testBit k = (2 ^ k * (x / 2 ^ k) + 0).testBit k := by
        rw [show x - x % 2 ^ k = 2 ^ k * (x / 2 ^ k) + 0 by omega]
    _ = (2 ^ k * (x / 2 ^ k) + x % 2 ^ k).testBit k := by
        rw [Nat.testBit_two_pow_mul_add _ (Nat.two_pow_pos k),
          Nat.testBit_two_pow_mul_add _ (Nat.mod_lt _ (Nat.two_pow_pos k))]
        simp
    _ = x.testBit k := by rw [hx]

variable (m : ℕ)

/-- The number of bits of `m` below position `s`. -/
def countBelow : ℕ → ℕ
  | 0 => 0
  | s + 1 => countBelow s + if m.testBit s then 1 else 0
attribute [grind] countBelow

/-- The low bits of `n`, in order, at the positions of `m` below `s`. -/
def deposit (n : ℕ) : ℕ → ℕ
  | 0 => 0
  | s + 1 => deposit n s + if m.testBit s && n.testBit (countBelow m s) then 2 ^ s else 0
attribute [grind] deposit

/-- The bits of `x` at the positions of `m` below `s`, packed from bit 0. -/
def extract (x : ℕ) : ℕ → ℕ
  | 0 => 0
  | s + 1 => extract x s + if m.testBit s && x.testBit s then 2 ^ countBelow m s else 0
attribute [grind] extract

variable {m}

theorem countBelow_succ (s : ℕ) :
    countBelow m (s + 1) = countBelow m s + if m.testBit s then 1 else 0 := rfl

theorem deposit_succ (n s : ℕ) :
    deposit m n (s + 1) =
      deposit m n s + if m.testBit s && n.testBit (countBelow m s) then 2 ^ s else 0 := rfl

theorem extract_succ (x s : ℕ) :
    extract m x (s + 1) =
      extract m x s + if m.testBit s && x.testBit s then 2 ^ countBelow m s else 0 := rfl

theorem countBelow_le_succ (s : ℕ) : countBelow m s ≤ countBelow m (s + 1) := by
  rw [countBelow]
  omega

theorem countBelow_mono {s t : ℕ} (h : s ≤ t) : countBelow m s ≤ countBelow m t := by
  induction t with
  | zero => rw [Nat.le_zero.mp h]
  | succ t ih =>
    rcases Nat.lt_or_ge s (t + 1) with hs | hs
    · exact (ih (by omega)).trans (countBelow_le_succ t)
    · rw [Nat.le_antisymm h hs]

theorem countBelow_le (s : ℕ) : countBelow m s ≤ s := by
  induction s with
  | zero => rfl
  | succ s ih =>
    rw [countBelow]
    split_ifs <;> omega

/-! ## Depositing -/

theorem deposit_lt (n s : ℕ) : deposit m n s < 2 ^ s := by
  induction s with
  | zero => simp [deposit]
  | succ s ih =>
    rw [deposit, Nat.pow_succ]
    split_ifs <;> omega

/-- Bit `i` of a deposit: a position of `m` below `s`, holding the bit of `n` it stands for. -/
theorem testBit_deposit (n s i : ℕ) :
    (deposit m n s).testBit i =
      (decide (i < s) && m.testBit i && n.testBit (countBelow m i)) := by
  induction s with
  | zero => simp [deposit]
  | succ s ih =>
    rw [deposit, testBit_add_two_pow (deposit_lt n s), ih]
    rcases Nat.lt_trichotomy i s with hi | rfl | hi
    · simp [hi, Nat.lt_succ_of_lt hi, Nat.ne_of_lt hi]
    · simp
    · simp [Nat.not_lt.mpr hi.le, Nat.ne_of_gt hi, Nat.not_lt.mpr hi]

/-- A deposit has its bits in the mask. -/
theorem testBit_of_testBit_deposit {n s i : ℕ} (h : (deposit m n s).testBit i) : m.testBit i := by
  rw [testBit_deposit] at h
  simp only [Bool.and_eq_true] at h
  exact h.1.2

/-- A deposit reads only the bits of `n` that the positions below `s` stand for. -/
theorem deposit_congr {n n' s : ℕ} (h : ∀ j < countBelow m s, n.testBit j = n'.testBit j) :
    deposit m n s = deposit m n' s := by
  induction s with
  | zero => rfl
  | succ s ih =>
    rw [deposit, deposit, ih fun j hj => h j (lt_of_lt_of_le hj (countBelow_le_succ s))]
    -- at a bit of the mask, position `s` stands for bit `countBelow m s` of `n`
    by_cases hm : m.testBit s
    · have hc : countBelow m s < countBelow m (s + 1) := by
        rw [countBelow, if_pos hm]
        omega
      rw [h _ hc]
    · simp [hm]

/-- Once the bits of `n` are used up, the higher positions add nothing. -/
theorem deposit_of_lt {n s : ℕ} (hn : n < 2 ^ countBelow m s) {t : ℕ} (ht : s ≤ t) :
    deposit m n t = deposit m n s := by
  induction t with
  | zero => rw [Nat.le_zero.mp ht]
  | succ t ih =>
    rcases Nat.lt_or_ge s (t + 1) with hs | hs
    · have hbit : n.testBit (countBelow m t) = false :=
        Nat.testBit_lt_two_pow (lt_of_lt_of_le hn
          (Nat.pow_le_pow_right (by omega) (countBelow_mono (by omega))))
      rw [deposit, ih (by omega), hbit]
      simp
    · rw [Nat.le_antisymm ht hs]

/-! ## Extracting -/

theorem extract_lt (x s : ℕ) : extract m x s < 2 ^ countBelow m s := by
  induction s with
  | zero => simp [extract, countBelow]
  | succ s ih =>
    rw [extract, countBelow]
    by_cases hm : m.testBit s
    · rw [if_pos hm, Nat.pow_succ]
      split_ifs <;> omega
    · simp [hm, ih]

/-- An extract reads only the bits of `x` below `s`. -/
theorem extract_congr {x x' s : ℕ} (h : ∀ i < s, x.testBit i = x'.testBit i) :
    extract m x s = extract m x' s := by
  induction s with
  | zero => rfl
  | succ s ih =>
    rw [extract, extract, ih fun i hi => h i (by omega), h s (by omega)]

/-- The bit of an extract that position `s` of the mask stands for. -/
theorem testBit_extract_succ (x s : ℕ) :
    (extract m x (s + 1)).testBit (countBelow m s) = (m.testBit s && x.testBit s) := by
  rw [extract, testBit_add_two_pow (extract_lt x s)]
  simp [Nat.testBit_lt_two_pow (extract_lt x s)]

/-- Extracting a deposit gives back the bits of `n` that the positions stand for. -/
theorem extract_deposit (n s : ℕ) :
    extract m (deposit m n s) s = n % 2 ^ countBelow m s := by
  induction s with
  | zero => simp [extract, countBelow, Nat.mod_one]
  | succ s ih =>
    -- below `s` the deposit up to `s + 1` is the deposit up to `s`
    have hlow : extract m (deposit m n (s + 1)) s = extract m (deposit m n s) s :=
      extract_congr fun i hi => by simp [testBit_deposit, hi, Nat.lt_succ_of_lt hi]
    have hbit : (deposit m n (s + 1)).testBit s = (m.testBit s && n.testBit (countBelow m s)) := by
      simp [testBit_deposit]
    rw [extract, hlow, ih, hbit, countBelow]
    by_cases hm : m.testBit s
    · simp only [hm, Bool.true_and, if_true]
      rw [mod_two_pow_succ]
    · simp [hm]

/-- Depositing an extract gives back the word, when the word lies inside the mask. -/
theorem deposit_extract {x : ℕ} (hx : ∀ i, x.testBit i → m.testBit i) (s : ℕ) :
    deposit m (extract m x s) s = x % 2 ^ s := by
  induction s with
  | zero => simp [deposit, Nat.mod_one]
  | succ s ih =>
    -- the extract up to `s + 1` agrees with the extract up to `s` on the bits below `s` stands for
    have hlow : deposit m (extract m x (s + 1)) s = deposit m (extract m x s) s := by
      apply deposit_congr
      intro j hj
      rw [extract, testBit_add_two_pow (extract_lt x s)]
      simp [hj, Nat.ne_of_lt hj]
    rw [deposit, hlow, ih, testBit_extract_succ, mod_two_pow_succ]
    by_cases hxs : x.testBit s
    · simp [hx s hxs, hxs]
    · simp [hxs]

end BitDeposit
