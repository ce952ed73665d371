import Mathlib

/-!
# Byte strings: fixed-width encodings, slices and writes

Go code that lays out a C struct by hand writes into a `[n]byte` array: it puts fixed-width
integers at byte offsets (`binary.LittleEndian.PutUint32(b[4:8], x)`), copies byte strings over a
range (`copy(b[24:36], src)`), and reads fields back from slices (`binary.BigEndian.Uint32(b[0:4])`).
This module gives those three operations on lists and the facts a layout proof spends:

* `toLE w n` / `ofLE` and `toBE w n` / `ofBE`: the `w` bytes of `n`, least or most significant
  first, with the round trips `ofLE_toLE` and `ofBE_toBE` (modulo `256 ^ w`, as Go truncates) and
  the concatenation law `ofLE_append`;
* `slice l a c` (Go's `l[a:c]`), `write l a src` and `copy l a c src` (Go's `copy(l[a:c], src)`);
* what a slice reads after a write: the written bytes over the written range
  (`slice_write_self`), the old ones over a range that does not meet it (`slice_write_of_le`,
  `slice_write_of_ge`).

A write keeps the length of the list whatever its offset (`length_write`), so that a fixed-size
array stays one.
-/

namespace Bytes

variable {α : Type*}

/-! ## Slices and writes -/

/-- `l[a:c]`: the elements from index `a` up to, not including, `c`. -/
def slice (l : List α) (a c : ℕ) : List α := (l.drop a).take (c - a)
attribute [grind] slice

/-- `src` written over `l` from index `a` on; what does not fit is dropped, so the length of `l`
is kept. -/
def write (l : List α) (a : ℕ) (src : List α) : List α :=
  l.take a ++ src.take (l.length - a) ++ l.drop (a + src.length)
attribute [grind] write

/-- Go's `copy(l[a:c], src)`: at most `c - a` elements of `src`, written from `a`. -/
def copy (l : List α) (a c : ℕ) (src : List α) : List α := write l a (src.take (c - a))

@[simp] theorem length_write (l : List α) (a : ℕ) (src : List α) :
    (write l a src).length = l.length := by
  simp only [write, List.length_append, List.length_take, List.length_drop]
  omega

@[simp] theorem length_copy (l : List α) (a c : ℕ) (src : List α) :
    (copy l a c src).length = l.length :=
  length_write l a _

theorem length_slice (l : List α) (a c : ℕ) : (slice l a c).length = min (c - a) (l.length - a) := by
  simp [slice]

theorem getElem?_slice (l : List α) (a c i : ℕ) :
    (slice l a c)[i]? = if i < c - a then l[a + i]? else none := by
  rw [slice, List.getElem?_take, List.getElem?_drop]

/-- What a write leaves at each index: `src` over the range it covers, `l` elsewhere. -/
theorem getElem?_write (l : List α) (a : ℕ) (src : List α) (i : ℕ) :
    (write l a src)[i]? =
      if a ≤ i ∧ i < a + src.length ∧ i < l.length then src[i - a]? else l[i]? := by
  unfold write
  by_cases hi : i < min a l.length
  · -- before the written range
    rw [List.append_assoc, List.getElem?_append_left (by simpa using hi),
      List.getElem?_take_of_lt (by omega), if_neg (by omega)]
  · rw [List.append_assoc, List.getElem?_append_right (by simp; omega)]
    simp only [List.length_take]
    by_cases hj : i - min a l.length < min (l.length - a) src.length
    · -- inside it
      rw [List.getElem?_append_left (by simpa using hj), List.getElem?_take_of_lt (by omega),
        if_pos (by omega)]
      congr 1
      omega
    · -- after it, or past the end of `l`
      rw [List.getElem?_append_right (by simp; omega), List.getElem?_drop, if_neg (by omega)]
      simp only [List.length_take]
      by_cases hl : i < l.length
      · congr 1
        omega
      · rw [List.getElem?_eq_none (by omega), List.getElem?_eq_none (by omega)]

/-- A write that fits replaces exactly the range it covers. -/
theorem write_of_le {l src : List α} {a : ℕ} (h : a + src.length ≤ l.length) :
    write l a src = l.take a ++ src ++ l.drop (a + src.length) := by
  rw [write, List.take_of_length_le (l := src) (by omega)]

/-- A write into a constant list: the constant, the source, the constant. -/
theorem write_replicate {n a : ℕ} {x : α} {src : List α} (h : a + src.length ≤ n) :
    write (List.replicate n x) a src =
      List.replicate a x ++ src ++ List.replicate (n - (a + src.length)) x := by
  rw [write_of_le (by simpa using h), List.take_replicate, List.drop_replicate,
    min_eq_left (by omega)]

/-- A write past the first part of a concatenation writes into the second. -/
theorem write_append_of_le {l₁ l₂ src : List α} {a : ℕ} (h : l₁.length ≤ a) :
    write (l₁ ++ l₂) a src = l₁ ++ write l₂ (a - l₁.length) src := by
  apply List.ext_getElem?
  intro i
  rw [getElem?_write, List.getElem?_append, List.getElem?_append, getElem?_write,
    List.length_append]
  split_ifs <;> first | rfl | omega | (congr 1; omega)

/-- A write past the head of a list writes into its tail. -/
theorem write_cons {x : α} {l src : List α} {a : ℕ} (h : 0 < a) :
    write (x :: l) a src = x :: write l (a - 1) src := by
  have h₁ : [x].length ≤ a := by simp; omega
  simpa using @write_append_of_le α [x] l src a h₁

/-- A copy of a source that fits its range writes all of it. -/
theorem copy_of_length_le {l src : List α} {a c : ℕ} (h : src.length ≤ c - a) :
    copy l a c src = write l a src := by
  rw [copy, List.take_of_length_le h]

/-- A slice over the range just written reads what was written. -/
theorem slice_write_self {l src : List α} {a c : ℕ} (h : a + src.length ≤ l.length)
    (hc : a + src.length = c) : slice (write l a src) a c = src := by
  subst hc
  apply List.ext_getElem?
  intro i
  rw [getElem?_slice, getElem?_write]
  by_cases hi : i < src.length
  · rw [if_pos (by omega), if_pos (by omega), Nat.add_sub_cancel_left]
  · rw [if_neg (by omega), List.getElem?_eq_none (by omega)]

/-- A slice that ends before the written range reads what was there. -/
theorem slice_write_of_le {l src : List α} {a b c : ℕ} (h : c ≤ a) :
    slice (write l a src) b c = slice l b c := by
  apply List.ext_getElem?
  intro i
  rw [getElem?_slice, getElem?_slice, getElem?_write]
  split_ifs <;> first | rfl | omega

/-- A slice that starts after the written range reads what was there. -/
theorem slice_write_of_ge {l src : List α} {a b c : ℕ} (h : a + src.length ≤ b) :
    slice (write l a src) b c = slice l b c := by
  apply List.ext_getElem?
  intro i
  rw [getElem?_slice, getElem?_slice, getElem?_write]
  split_ifs <;> first | rfl | omega

/-- A slice of a slice. -/
theorem slice_slice (l : List α) {a c b d : ℕ} (hbd : b ≤ d) (hd : d ≤ c - a) :
    slice (slice l a c) b d = slice l (a + b) (a + d) := by
  apply List.ext_getElem?
  intro i
  rw [getElem?_slice, getElem?_slice, getElem?_slice]
  split_ifs <;> first | rfl | omega | (congr 1; omega)

/-- A slice that ends inside the first part of a concatenation reads only that part. -/
theorem slice_append_of_le {l₁ l₂ : List α} {a c : ℕ} (h : c ≤ l₁.length) :
    slice (l₁ ++ l₂) a c = slice l₁ a c := by
  apply List.ext_getElem?
  intro i
  rw [getElem?_slice, getElem?_slice]
  split_ifs
  · exact List.getElem?_append_left (by omega)
  · rfl

/-- A slice that starts past the first part of a concatenation reads only the second. -/
theorem slice_append_of_ge {l₁ l₂ : List α} {a c : ℕ} (h : l₁.length ≤ a) :
    slice (l₁ ++ l₂) a c = slice l₂ (a - l₁.length) (c - l₁.length) := by
  apply List.ext_getElem?
  intro i
  rw [getElem?_slice, getElem?_slice]
  split_ifs
  · rw [List.getElem?_append_right (by omega)]
    congr 1
    omega
  · omega
  · omega
  · rfl

/-- A slice that starts past the head of a list reads only its tail. -/
theorem slice_cons_of_pos {x : α} {l : List α} {a c : ℕ} (h : 0 < a) :
    slice (x :: l) a c = slice l (a - 1) (c - 1) := by
  have h₁ : [x].length ≤ a := by simp; omega
  simpa using @slice_append_of_ge α [x] l a c h₁

/-- The whole of a list, as a slice. -/
theorem slice_of_length {l : List α} {c : ℕ} (h : l.length = c) : slice l 0 c = l := by
  rw [slice, List.drop_zero, Nat.sub_zero, ← h, List.take_length]

/-- Go's `l[i]` for an index in range, read as a one-element slice. -/
theorem getD_eq_headD_slice (l : List α) (i : ℕ) (d : α) :
    l.getD i d = (slice l i (i + 1)).headD d := by
  rw [slice, Nat.add_sub_cancel_left, List.headD_eq_head?_getD, List.head?_take, if_neg one_ne_zero,
    List.head?_drop, List.getD_eq_getElem?_getD]

/-! ## Fixed-width integers -/

/-- The `w` bytes of `n`, least significant first; bits above `8 * w` are dropped. -/
def toLE : ℕ → ℕ → List UInt8
  | 0, _ => []
  | w + 1, n => UInt8.ofNat n :: toLE w (n / 256)

/-- The number the bytes spell, least significant first. -/
def ofLE : List UInt8 → ℕ
  | [] => 0
  | b :: bs => b.toNat + 256 * ofLE bs

/-- The `w` bytes of `n`, most significant first. -/
def toBE (w n : ℕ) : List UInt8 := (toLE w n).reverse
attribute [grind] toBE

/-- The number the bytes spell, most significant first. -/
def ofBE (bs : List UInt8) : ℕ := ofLE bs.reverse

@[simp] theorem toLE_zero (n : ℕ) : toLE 0 n = [] := rfl

@[simp] theorem toLE_succ (w n : ℕ) : toLE (w + 1) n = UInt8.ofNat n :: toLE w (n / 256) := rfl

@[simp] theorem ofLE_nil : ofLE [] = 0 := rfl

@[simp] theorem ofLE_cons (b : UInt8) (bs : List UInt8) : ofLE (b :: bs) = b.toNat + 256 * ofLE bs :=
  rfl

@[simp] theorem length_toLE (w n : ℕ) : (toLE w n).length = w := by
  induction w generalizing n with
  | zero => rfl
  | succ w ih => simp [ih]

@[simp] theorem length_toBE (w n : ℕ) : (toBE w n).length = w := by
  simp [toBE]

theorem ofLE_toLE (w n : ℕ) : ofLE (toLE w n) = n % 256 ^ w := by
  induction w generalizing n with
  | zero => simp [Nat.mod_one]
  | succ w ih =>
    have hb : (UInt8.ofNat n).toNat = n % 256 := by simp
    rw [toLE_succ, ofLE_cons, ih, hb, pow_succ', Nat.mod_mul]

theorem ofLE_toLE_of_lt {w n : ℕ} (h : n < 256 ^ w) : ofLE (toLE w n) = n := by
  rw [ofLE_toLE, Nat.mod_eq_of_lt h]

theorem ofBE_toBE (w n : ℕ) : ofBE (toBE w n) = n % 256 ^ w := by
  rw [ofBE, toBE, List.reverse_reverse, ofLE_toLE]

theorem ofLE_lt (l : List UInt8) : ofLE l < 256 ^ l.length := by
  induction l with
  | nil => simp
  | cons b bs ih =>
    rw [ofLE_cons, List.length_cons, pow_succ]
    have hb : b.toNat < 256 := b.toNat_lt
    omega

theorem ofLE_append (l₁ l₂ : List UInt8) :
    ofLE (l₁ ++ l₂) = ofLE l₁ + 256 ^ l₁.length * ofLE l₂ := by
  induction l₁ with
  | nil => simp
  | cons b bs ih =>
    rw [List.cons_append, ofLE_cons, ofLE_cons, ih, List.length_cons, pow_succ]
    ring

/-- Byte `j` of the little-endian encoding is the integer shifted down by `j` bytes. -/
theorem getD_toLE (w n j : ℕ) :
    (toLE w n).getD j 0 = if j < w then UInt8.ofNat (n / 256 ^ j) else 0 := by
  induction w generalizing n j with
  | zero => simp
  | succ w ih =>
    cases j with
    | zero => simp
    | succ j =>
      rw [toLE_succ, List.getD_cons_succ, ih, Nat.div_div_eq_div_mul, ← Nat.pow_succ']
      simp only [Nat.add_lt_add_iff_right]

/-! ## Machine integers

Go's `binary.ByteOrder.PutUintN` and `UintN` on the unsigned machine integers: reading back what
was put gives the integer itself. -/

@[simp] theorem uInt64_ofLE_toLE (x : UInt64) : UInt64.ofNat (ofLE (toLE 8 x.toNat)) = x := by
  rw [ofLE_toLE_of_lt (by simpa using x.toNat_lt), UInt64.ofNat_toNat]

@[simp] theorem uInt32_ofLE_toLE (x : UInt32) : UInt32.ofNat (ofLE (toLE 4 x.toNat)) = x := by
  rw [ofLE_toLE_of_lt (by simpa using x.toNat_lt), UInt32.ofNat_toNat]

@[simp] theorem uInt16_ofLE_toLE (x : UInt16) : UInt16.ofNat (ofLE (toLE 2 x.toNat)) = x := by
  rw [ofLE_toLE_of_lt (by simpa using x.toNat_lt), UInt16.ofNat_toNat]

@[simp] theorem uInt32_ofBE_toBE (x : UInt32) : UInt32.ofNat (ofBE (toBE 4 x.toNat)) = x := by
  rw [ofBE_toBE, Nat.mod_eq_of_lt (by simpa using x.toNat_lt), UInt32.ofNat_toNat]

@[simp] theorem uInt64_ofBE_toBE (x : UInt64) : UInt64.ofNat (ofBE (toBE 8 x.toNat)) = x := by
  rw [ofBE_toBE, Nat.mod_eq_of_lt (by simpa using x.toNat_lt), UInt64.ofNat_toNat]

end Bytes
