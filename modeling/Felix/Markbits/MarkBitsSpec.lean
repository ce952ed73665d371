import Felix.Markbits.MarkBits
import Felix.Collections.BitDeposit

/-!
# Mark bits: numbering by bit deposit

The loop of `MapNumberToMark` moves the bits of the number, lowest first, onto the bits of the
mask: before position `s` the number has lost the bits that the mask bits below `s` stand for,
and the mark holds them at those positions (`Deposited`). The loop of `MapMarkToNumber` packs
the bits of the mark at the mask bits into a number (`Extracted`). So the first computes
`BitDeposit.deposit` and the second `BitDeposit.extract` (`mapNumberToMark_eq`,
`mapMarkToNumber_eq`), and the library's round trips carry over.

`uint32(n)` is taken first, so a number at or past `2 ^ 32` is read modulo `2 ^ 32`: with the
mask `1`, `MapNumberToMark(2 ^ 32)` gives the mark `0` (`mapNumberToMark_wraps`).

## Main results

* `newMarkBitsManager_numFreeBits`: a new manager counts the bits of its mask
* `mapNumberToMark_eq`, `mapMarkToNumber_eq`
* `mapNumberToMark_roundTrip`: the numbers below `2 ^ popcount` map to marks inside the mask and
  back, the marks inside the mask map to numbers and back, and exactly the numbers whose `uint32`
  is at least `2 ^ popcount` fail
-/

namespace Felix.Markbits

open Ip (shiftLeft32)
open BitDeposit

/-! ## Bits of a word -/

theorem toNat_shiftLeft32_one {s : ℕ} (hs : s < 32) : (shiftLeft32 1 s).toNat = 2 ^ s := by
  rw [Ip.shiftLeft32, UInt32.toNat_ofNat', UInt32.toNat_one, Nat.one_shiftLeft,
    Nat.mod_eq_of_lt (Nat.pow_lt_pow_right (by omega) hs)]

theorem toNat_and_shiftLeft32_one (x : UInt32) {s : ℕ} (hs : s < 32) :
    (x &&& shiftLeft32 1 s).toNat = if x.toNat.testBit s then 2 ^ s else 0 := by
  rw [UInt32.toNat_and, toNat_shiftLeft32_one hs, Nat.and_two_pow]
  cases x.toNat.testBit s <;> simp

/-- A word meets `1 << s` where it has bit `s`. -/
theorem and_shiftLeft32_one_pos (x : UInt32) {s : ℕ} (hs : s < 32) :
    x &&& shiftLeft32 1 s > 0 ↔ x.toNat.testBit s = true := by
  rw [gt_iff_lt, UInt32.lt_iff_toNat_lt, UInt32.toNat_zero, toNat_and_shiftLeft32_one x hs]
  cases x.toNat.testBit s
  · simp
  · simp only [if_true, iff_true]
    exact Nat.two_pow_pos s

theorem shiftLeft32_one_and_pos (x : UInt32) {s : ℕ} (hs : s < 32) :
    shiftLeft32 1 s &&& x > 0 ↔ x.toNat.testBit s = true := by
  rw [UInt32.and_comm]
  exact and_shiftLeft32_one_pos x hs

/-- A counter of mask bits below a position of the word stays below `2 ^ 32` when one is added. -/
theorem toNat_add_one_of_countBelow {k : UInt32} {m s : ℕ} (hk : k.toNat = countBelow m s)
    (hs : s < 32) : (k + 1).toNat = countBelow m s + 1 := by
  have := countBelow_le (m := m) s
  rw [UInt32.toNat_add, hk, UInt32.toNat_one, Nat.mod_eq_of_lt (by omega)]

/-! ## `NewMarkBitsManager` -/

/-- The loop of `NewMarkBitsManager` adds the bits of the mask from `shift` on. -/
theorem countMaskBitsLoop_eq (markMask : UInt32) (shift : ℕ) (numBitsFound : ℤ)
    (hs : shift ≤ 32) :
    countMaskBitsLoop markMask shift numBitsFound =
      numBitsFound + countBelow markMask.toNat 32 - countBelow markMask.toNat shift := by
  fun_induction countMaskBitsLoop markMask shift numBitsFound with
  | case1 s k hlt _ hbit ih =>
    rw [ih (by omega), countBelow_succ s, if_pos ((and_shiftLeft32_one_pos _ hlt).mp hbit)]
    push_cast
    omega
  | case2 s k hlt _ hbit ih =>
    rw [ih (by omega), countBelow_succ s,
      if_neg (fun h => hbit ((and_shiftLeft32_one_pos _ hlt).mpr h))]
    simp
  | case3 s k hge =>
    rw [show s = 32 by omega]
    omega

/-- A new manager has every bit of its mask free. -/
theorem newMarkBitsManager_numFreeBits (markMask : UInt32) :
    (newMarkBitsManager markMask).numFreeBits = countBelow markMask.toNat 32 := by
  rw [newMarkBitsManager, countMaskBitsLoop_eq _ _ _ (by omega)]
  simp [countBelow]

namespace MarkBitsManager

/-! ## `MapNumberToMark` -/

section Deposit

variable {m N s : ℕ} {number mark numBitsFound : UInt32}

/-- The state of the loop of `MapNumberToMark` for the number `N` before position `s`: the bits
of `N` that the mask bits below `s` stand for have moved from the number to the mark, and the
counter holds how many mask bits the loop has met. -/
def Deposited (m N s : ℕ) (number mark numBitsFound : UInt32) : Prop :=
  number.toNat = N - N % 2 ^ countBelow m s ∧ mark.toNat = deposit m N s ∧
    numBitsFound.toNat = countBelow m s

theorem deposited_start {N : ℕ} (hN : N < 2 ^ 32) : Deposited m N 0 (UInt32.ofNat N) 0 0 := by
  refine ⟨?_, rfl, rfl⟩
  rw [UInt32.toNat_ofNat', Nat.mod_eq_of_lt hN, countBelow, Nat.pow_zero, Nat.mod_one,
    Nat.sub_zero]

/-- The bit of the number that the counter points at is the bit of `N` it stands for. -/
theorem Deposited.value (h : Deposited m N s number mark numBitsFound) (hs : s < 32) :
    (number &&& shiftLeft32 1 numBitsFound.toNat).toNat =
      if N.testBit (countBelow m s) then 2 ^ countBelow m s else 0 := by
  have := countBelow_le (m := m) s
  rw [toNat_and_shiftLeft32_one _ (by rw [h.2.2]; omega), h.1, h.2.2, testBit_sub_mod_two_pow]

/-- Past a position outside the mask nothing changes. -/
theorem Deposited.skip (h : Deposited m N s number mark numBitsFound)
    (hm : m.testBit s = false) : Deposited m N (s + 1) number mark numBitsFound := by
  obtain ⟨h₁, h₂, h₃⟩ := h
  refine ⟨?_, ?_, ?_⟩
  · rw [h₁, countBelow_succ, hm]
    rfl
  · rw [h₂, deposit_succ, hm]
    simp
  · rw [h₃, countBelow_succ, hm]
    rfl

/-- Past a position of the mask whose bit of `N` is clear, only the counter moves. -/
theorem Deposited.keep (h : Deposited m N s number mark numBitsFound) (hs : s < 32)
    (hm : m.testBit s = true) (hb : N.testBit (countBelow m s) = false) :
    Deposited m N (s + 1) number mark (numBitsFound + 1) := by
  obtain ⟨h₁, h₂, h₃⟩ := h
  refine ⟨?_, ?_, ?_⟩
  · rw [h₁, countBelow_succ, hm, if_pos rfl, mod_two_pow_succ, hb]
    simp
  · rw [h₂, deposit_succ, hm, hb]
    simp
  · rw [toNat_add_one_of_countBelow h₃ hs, countBelow_succ, hm, if_pos rfl]

/-- Past a position of the mask whose bit of `N` is set, the bit moves to the mark. -/
theorem Deposited.move (h : Deposited m N s number mark numBitsFound) (hs : s < 32)
    (hm : m.testBit s = true) (hb : N.testBit (countBelow m s) = true) :
    Deposited m N (s + 1) (number - (number &&& shiftLeft32 1 numBitsFound.toNat))
      (mark ||| shiftLeft32 1 s) (numBitsFound + 1) := by
  have hv := h.value hs
  rw [hb, if_pos rfl] at hv
  obtain ⟨h₁, h₂, h₃⟩ := h
  -- the bit taken is below what is left of the number
  have hmod := mod_two_pow_succ N (countBelow m s)
  rw [hb, if_pos rfl] at hmod
  have hle : N % 2 ^ (countBelow m s + 1) ≤ N := Nat.mod_le _ _
  refine ⟨?_, ?_, ?_⟩
  · rw [UInt32.toNat_sub_of_le _ _ (UInt32.le_iff_toNat_le.mpr (by omega)), hv, h₁,
      countBelow_succ, hm, if_pos rfl]
    omega
  · rw [UInt32.toNat_or, h₂, toNat_shiftLeft32_one hs, Nat.or_two_pow_eq_add_of_lt (deposit_lt _ _),
      deposit_succ, hm, hb]
    rfl
  · rw [toNat_add_one_of_countBelow h₃ hs, countBelow_succ, hm, if_pos rfl]

/-- Once the number is used up, the rest of the mask adds nothing. -/
theorem Deposited.done (h : Deposited m N s number mark numBitsFound) (hs : s ≤ 32)
    (h0 : number.toNat = 0) :
    number.toNat = N - N % 2 ^ countBelow m 32 ∧ mark.toNat = deposit m N 32 := by
  have hmod := Nat.mod_lt N (Nat.two_pow_pos (countBelow m s))
  have hlt : N < 2 ^ countBelow m s := by
    have := h.1
    have := Nat.mod_le N (2 ^ countBelow m s)
    omega
  have hlt32 : N < 2 ^ countBelow m 32 :=
    lt_of_lt_of_le hlt (Nat.pow_le_pow_right (by omega) (countBelow_mono hs))
  rw [h0, Nat.mod_eq_of_lt hlt32, Nat.sub_self, h.2.1, deposit_of_lt hlt hs]
  exact ⟨rfl, rfl⟩

/-- The loop of `MapNumberToMark` from a state of `N` leaves what the mask cannot hold of `N`,
and the deposit of `N`. -/
theorem Deposited.loop {mask : UInt32} (h : Deposited mask.toNat N s number mark numBitsFound)
    (hs : s ≤ 32) :
    (mapNumberToMarkLoop mask s number mark numBitsFound).1.toNat =
        N - N % 2 ^ countBelow mask.toNat 32 ∧
      (mapNumberToMarkLoop mask s number mark numBitsFound).2.toNat = deposit mask.toNat N 32 := by
  fun_induction mapNumberToMarkLoop mask s number mark numBitsFound with
  | case1 s number mark numBitsFound hlt _ hbit _ hval ih =>
    -- a mask bit with the number's bit set
    have hm := (and_shiftLeft32_one_pos _ hlt.1).mp hbit
    have hb : N.testBit (countBelow mask.toNat s) = true := by
      have hv := h.value hlt.1
      rw [gt_iff_lt, UInt32.lt_iff_toNat_lt, UInt32.toNat_zero, hv] at hval
      by_contra hb
      simp [hb] at hval
    exact ih (h.move hlt.1 hm hb) (by omega)
  | case2 s number mark numBitsFound hlt _ hbit _ hval ih =>
    have hm := (and_shiftLeft32_one_pos _ hlt.1).mp hbit
    have hb : N.testBit (countBelow mask.toNat s) = false := by
      have hv := h.value hlt.1
      rw [gt_iff_lt, UInt32.lt_iff_toNat_lt, UInt32.toNat_zero, hv] at hval
      by_contra hb
      simp [hb] at hval
    exact ih (h.keep hlt.1 hm hb) (by omega)
  | case3 s number mark numBitsFound hlt _ hbit ih =>
    have hm : mask.toNat.testBit s = false := by
      by_contra hm
      exact hbit ((and_shiftLeft32_one_pos _ hlt.1).mpr (by simpa using hm))
    exact ih (h.skip hm) (by omega)
  | case4 s number mark numBitsFound hstop =>
    -- the loop stops at the end of the word or when the number is used up
    by_cases hs32 : s = 32
    · subst hs32
      exact ⟨h.1, h.2.1⟩
    · have h0 : number.toNat = 0 := by
        by_contra h0
        exact hstop ⟨by omega, UInt32.lt_iff_toNat_lt.mpr (by rw [UInt32.toNat_zero]; omega)⟩
      exact h.done hs h0

end Deposit

/-- `MapNumberToMark` deposits `uint32(n)` into the mask, and fails when the mask has too few
bits for it. -/
theorem mapNumberToMark_eq (mc : MarkBitsManager) (n : ℤ) :
    mc.mapNumberToMark n =
      if (n % 2 ^ 32).toNat < 2 ^ countBelow mc.mask.toNat 32 then
        .ok (UInt32.ofNat (deposit mc.mask.toNat (n % 2 ^ 32).toNat 32))
      else .error "Not enough mark bits available" := by
  set N := (n % 2 ^ 32).toNat with hNdef
  have hN : N < 2 ^ 32 := by omega
  have hstart : UInt32.ofInt n = UInt32.ofNat N := rfl
  have hdep : Deposited mc.mask.toNat N 0 (UInt32.ofNat N) 0 0 := deposited_start hN
  obtain ⟨h₁, h₂⟩ := hdep.loop (by omega)
  rw [mapNumberToMark, hstart]
  generalize mapNumberToMarkLoop mc.mask 0 (UInt32.ofNat N) 0 0 = r at h₁ h₂ ⊢
  obtain ⟨number, mark⟩ := r
  -- the number left is zero exactly when `N` fits in the mask's bits
  have hleft : number > 0 ↔ ¬N < 2 ^ countBelow mc.mask.toNat 32 := by
    rw [gt_iff_lt, UInt32.lt_iff_toNat_lt, UInt32.toNat_zero, h₁]
    have := Nat.mod_lt N (Nat.two_pow_pos (countBelow mc.mask.toNat 32))
    constructor
    · intro hpos hlt
      rw [Nat.mod_eq_of_lt hlt] at hpos
      omega
    · intro hge
      omega
  have hmark : mark = UInt32.ofNat (deposit mc.mask.toNat N 32) := by
    rw [← h₂, UInt32.ofNat_toNat]
  dsimp only
  by_cases hfit : N < 2 ^ countBelow mc.mask.toNat 32
  · rw [if_pos hfit, if_neg (fun h => (hleft.mp h) hfit), hmark]
  · rw [if_neg hfit, if_pos (hleft.mpr hfit)]

/-! ## `MapMarkToNumber` -/

section Extract

variable {m x s : ℕ} {number : ℤ} {numBitsFound : UInt32}

/-- The state of the loop of `MapMarkToNumber` for the mark `x` before position `s`: the number
packs the bits of `x` at the mask bits below `s`, and the counter holds how many there are. -/
def Extracted (m x s : ℕ) (number : ℤ) (numBitsFound : UInt32) : Prop :=
  number = extract m x s ∧ numBitsFound.toNat = countBelow m s

theorem Extracted.skip (h : Extracted m x s number numBitsFound) (hm : m.testBit s = false) :
    Extracted m x (s + 1) number numBitsFound := by
  refine ⟨?_, ?_⟩
  · rw [h.1, extract_succ, hm]
    simp
  · rw [h.2, countBelow_succ, hm]
    rfl

theorem Extracted.pass (h : Extracted m x s number numBitsFound) (hs : s < 32)
    (hm : m.testBit s = true) (hx : x.testBit s = false) :
    Extracted m x (s + 1) number (numBitsFound + 1) := by
  refine ⟨?_, ?_⟩
  · rw [h.1, extract_succ, hm, hx]
    simp
  · rw [toNat_add_one_of_countBelow h.2 hs, countBelow_succ, hm, if_pos rfl]

theorem Extracted.take (h : Extracted m x s number numBitsFound) (hs : s < 32)
    (hm : m.testBit s = true) (hx : x.testBit s = true) :
    Extracted m x (s + 1) (number + ((shiftLeft32 1 numBitsFound.toNat).toNat : ℤ))
      (numBitsFound + 1) := by
  have := countBelow_le (m := m) s
  refine ⟨?_, ?_⟩
  · rw [h.1, h.2, toNat_shiftLeft32_one (by omega), extract_succ, hm, hx]
    simp
  · rw [toNat_add_one_of_countBelow h.2 hs, countBelow_succ, hm, if_pos rfl]

/-- The loop of `MapMarkToNumber` from a state of `x` packs the bits of `x` at the whole mask. -/
theorem Extracted.loop {mask mark : UInt32}
    (h : Extracted mask.toNat mark.toNat s number numBitsFound) (hs : s ≤ 32) :
    mapMarkToNumberLoop mask mark s number numBitsFound = extract mask.toNat mark.toNat 32 := by
  fun_induction mapMarkToNumberLoop mask mark s number numBitsFound with
  | case1 s number numBitsFound hlt _ hbit hmark ih =>
    exact ih (h.take hlt ((and_shiftLeft32_one_pos _ hlt).mp hbit)
      ((shiftLeft32_one_and_pos _ hlt).mp hmark)) (by omega)
  | case2 s number numBitsFound hlt _ hbit hmark ih =>
    have hx : mark.toNat.testBit s = false := by
      by_contra hx
      exact hmark ((shiftLeft32_one_and_pos _ hlt).mpr (by simpa using hx))
    exact ih (h.pass hlt ((and_shiftLeft32_one_pos _ hlt).mp hbit) hx) (by omega)
  | case3 s number numBitsFound hlt _ hbit ih =>
    have hm : mask.toNat.testBit s = false := by
      by_contra hm
      exact hbit ((and_shiftLeft32_one_pos _ hlt).mpr (by simpa using hm))
    exact ih (h.skip hm) (by omega)
  | case4 s number numBitsFound hge =>
    rw [h.1, show s = 32 by omega]

end Extract

/-- `MapMarkToNumber` packs the bits of a mark inside the mask. -/
theorem mapMarkToNumber_eq (mc : MarkBitsManager) (mark : UInt32) :
    mc.mapMarkToNumber mark =
      if mark &&& mc.mask ≠ mark then .error "Mark bit not compatible"
      else .ok (extract mc.mask.toNat mark.toNat 32) := by
  have hstart : Extracted mc.mask.toNat mark.toNat 0 0 0 := ⟨rfl, rfl⟩
  rw [mapMarkToNumber, hstart.loop (by omega)]

/-- A mark is inside the mask when its bits are. -/
theorem and_mask_eq_iff (mark mask : UInt32) :
    mark &&& mask = mark ↔ ∀ i, mark.toNat.testBit i → mask.toNat.testBit i := by
  rw [← UInt32.toNat_inj, UInt32.toNat_and]
  constructor
  · intro h i hi
    rw [← h, Nat.testBit_and] at hi
    simp only [Bool.and_eq_true] at hi
    exact hi.2
  · intro h
    apply Nat.eq_of_testBit_eq
    intro i
    rw [Nat.testBit_and]
    cases hi : mark.toNat.testBit i
    · rfl
    · simp [h i hi]

/-- `MapNumberToMark` and `MapMarkToNumber` are inverse to each other on the numbers below
`2 ^ popcount` and the marks inside the mask, and `MapNumberToMark` fails exactly when
`uint32(n)` is at least `2 ^ popcount`. -/
theorem mapNumberToMark_roundTrip (mc : MarkBitsManager) :
    (∀ n : ℤ, 0 ≤ n → n < 2 ^ countBelow mc.mask.toNat 32 →
      ∃ mark, mc.mapNumberToMark n = .ok mark ∧ mark &&& mc.mask = mark ∧
        mc.mapMarkToNumber mark = .ok n) ∧
    (∀ x : UInt32, x &&& mc.mask = x →
      ∃ k, mc.mapMarkToNumber x = .ok k ∧ mc.mapNumberToMark k = .ok x) ∧
    (∀ n : ℤ, (∃ e, mc.mapNumberToMark n = .error e) ↔
      2 ^ countBelow mc.mask.toNat 32 ≤ n % 2 ^ 32) := by
  -- the mask has at most 32 bits, so its numbers fit in a `uint32`
  have hcast : ((2 ^ countBelow mc.mask.toNat 32 : ℕ) : ℤ) = 2 ^ countBelow mc.mask.toNat 32 := by
    push_cast
    rfl
  have hc : (2 : ℤ) ^ countBelow mc.mask.toNat 32 ≤ 2 ^ 32 := by
    have := Nat.pow_le_pow_right (n := 2) (by omega) (countBelow_le (m := mc.mask.toNat) 32)
    rw [← hcast]
    exact_mod_cast this
  refine ⟨?_, ?_, ?_⟩
  · intro n hn hlt
    have hmod : n % 2 ^ 32 = n := Int.emod_eq_of_lt hn (by omega)
    have hN : (n % 2 ^ 32).toNat < 2 ^ countBelow mc.mask.toNat 32 := by
      rw [hmod]
      omega
    have hD := deposit_lt (m := mc.mask.toNat) (n % 2 ^ 32).toNat 32
    have hDnat : (UInt32.ofNat (deposit mc.mask.toNat (n % 2 ^ 32).toNat 32)).toNat =
        deposit mc.mask.toNat (n % 2 ^ 32).toNat 32 := by
      rw [UInt32.toNat_ofNat', Nat.mod_eq_of_lt hD]
    have hin : UInt32.ofNat (deposit mc.mask.toNat (n % 2 ^ 32).toNat 32) &&& mc.mask =
        UInt32.ofNat (deposit mc.mask.toNat (n % 2 ^ 32).toNat 32) := by
      rw [and_mask_eq_iff, hDnat]
      exact fun i hi => testBit_of_testBit_deposit hi
    refine ⟨_, by rw [mapNumberToMark_eq, if_pos hN], hin, ?_⟩
    -- extracting the deposit gives the number back
    rw [mapMarkToNumber_eq, if_neg (not_not.mpr hin), hDnat, extract_deposit,
      Nat.mod_eq_of_lt hN, hmod]
    congr 1
    omega
  · intro x hx
    have hE := extract_lt (m := mc.mask.toNat) x.toNat 32
    have hmod :
        ((extract mc.mask.toNat x.toNat 32 : ℕ) : ℤ) % 2 ^ 32 = extract mc.mask.toNat x.toNat 32 :=
      Int.emod_eq_of_lt (by omega) (by omega)
    refine ⟨_, by rw [mapMarkToNumber_eq, if_neg (not_not.mpr hx)], ?_⟩
    -- depositing the extract gives the mark back
    rw [mapNumberToMark_eq, hmod, Int.toNat_natCast, if_pos hE,
      deposit_extract ((and_mask_eq_iff _ _).mp hx), Nat.mod_eq_of_lt (UInt32.toNat_lt x),
      UInt32.ofNat_toNat]
  · intro n
    have h0 : 0 ≤ n % 2 ^ 32 := Int.emod_nonneg _ (by omega)
    have hto : ((n % 2 ^ 32).toNat : ℤ) = n % 2 ^ 32 := Int.toNat_of_nonneg h0
    rw [mapNumberToMark_eq]
    split_ifs with hfit
    · -- the number fits, so there is no error
      simp only [exists_false, false_iff]
      omega
    · simp only [exists_apply_eq_apply', true_iff]
      omega

theorem mapNumberToMark_roundTrip_twoBits :
    ∃ mark, (newMarkBitsManager 0x30).mapNumberToMark 2 = .ok mark ∧ mark &&& 0x30 = mark ∧
      (newMarkBitsManager 0x30).mapMarkToNumber mark = .ok 2 :=
  (mapNumberToMark_roundTrip (newMarkBitsManager 0x30)).1 2 (by decide) (by decide)

/-- An `int` at or past `2 ^ 32` is cut to its low 32 bits first: the mask `1` has room for the
numbers `0` and `1` only, yet `MapNumberToMark(2 ^ 32)` gives the mark `0` and no error. -/
theorem mapNumberToMark_wraps :
    2 ^ countBelow (1 : UInt32).toNat 32 ≤ (2 ^ 32 : ℤ) ∧
      (⟨1, 0, 1⟩ : MarkBitsManager).mapNumberToMark (2 ^ 32) = .ok 0 := by
  refine ⟨by decide, ?_⟩
  rw [mapNumberToMark_eq]
  rfl

end MarkBitsManager

end Felix.Markbits
