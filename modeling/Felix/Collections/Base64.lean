import Mathlib

/-!
# Base64 without padding

`base64.RawURLEncoding.EncodeToString` (Go's `encoding/base64`) writes three bytes as four
symbols of six bits each, and a last one or two bytes as two or three symbols, with no
padding. This module gives the encoder over any 64-symbol alphabet and the two facts a length
argument spends: the output has `EncodedLen` symbols (`length_encodeNoPadding`), and every
symbol is one of the alphabet's (`mem_encodeNoPadding`). The URL alphabet is ASCII, so its
encodings are one byte per symbol (`utf8Size_of_mem_rawURLEncodeToString`).

## Main definitions

* `encodeURL`, `encodeNoPadding`, `encodedLen`, `rawURLEncodeToString`
-/

namespace Base64

/-- `encodeURL`: the alphabet of `URLEncoding`. -/
def encodeURL : List Char :=
  "ABCDEFGHIJKLMNOPQRSTUVWXYZabcdefghijklmnopqrstuvwxyz0123456789-_".toList

/-- `enc.encode[v & 0x3F]`: the symbol of the low six bits of `v`. -/
def symbol (alphabet : List Char) (v : ℕ) : Char := alphabet.getD (v &&& 0x3F) 'A'

/-- `Encode` with `NoPadding`: each three bytes as four symbols, then what is left, one or two
bytes, as two or three symbols. -/
def encodeNoPadding (alphabet : List Char) : List UInt8 → List Char
  | a :: b :: c :: src =>
    let val := a.toNat <<< 16 ||| b.toNat <<< 8 ||| c.toNat
    [symbol alphabet (val >>> 18), symbol alphabet (val >>> 12), symbol alphabet (val >>> 6),
      symbol alphabet val] ++ encodeNoPadding alphabet src
  | [a, b] =>
    let val := a.toNat <<< 16 ||| b.toNat <<< 8
    [symbol alphabet (val >>> 18), symbol alphabet (val >>> 12), symbol alphabet (val >>> 6)]
  | [a] =>
    let val := a.toNat <<< 16
    [symbol alphabet (val >>> 18), symbol alphabet (val >>> 12)]
  | [] => []
attribute [grind] encodeNoPadding

/-- `EncodedLen` with `NoPadding`: the number of symbols of `n` bytes. -/
def encodedLen (n : ℕ) : ℕ := n / 3 * 4 + (n % 3 * 8 + 5) / 6

/-- `RawURLEncoding.EncodeToString`. -/
def rawURLEncodeToString (src : List UInt8) : String :=
  String.ofList (encodeNoPadding encodeURL src)
attribute [grind] rawURLEncodeToString

theorem length_encodeNoPadding (alphabet : List Char) (src : List UInt8) :
    (encodeNoPadding alphabet src).length = encodedLen src.length := by
  fun_induction encodeNoPadding alphabet src with
  | case1 a b c src val ih =>
    simp only [List.length_append, List.length_cons, List.length_nil, ih, encodedLen]
    omega
  | case2 a b val => simp [encodedLen]
  | case3 a val => simp [encodedLen]
  | case4 => rfl

/-- Every symbol of an encoding is a symbol of the alphabet. -/
theorem mem_encodeNoPadding {alphabet : List Char} {src : List UInt8} {c : Char}
    (h : c ∈ encodeNoPadding alphabet src) : ∃ v, c = symbol alphabet v := by
  fun_induction encodeNoPadding alphabet src with
  | case1 a b c' src val ih =>
    rw [List.mem_append] at h
    rcases h with h | h
    · simp only [List.mem_cons, List.not_mem_nil, or_false] at h
      rcases h with rfl | rfl | rfl | rfl <;> exact ⟨_, rfl⟩
    · exact ih h
  | case2 a b val =>
    simp only [List.mem_cons, List.not_mem_nil, or_false] at h
    rcases h with rfl | rfl | rfl <;> exact ⟨_, rfl⟩
  | case3 a val =>
    simp only [List.mem_cons, List.not_mem_nil, or_false] at h
    rcases h with rfl | rfl <;> exact ⟨_, rfl⟩
  | case4 => cases h

/-- The URL alphabet is ASCII. -/
theorem utf8Size_symbol_encodeURL (v : ℕ) : (symbol encodeURL v).utf8Size = 1 := by
  -- checked as one `Bool`: the kernel decides a `∀` over the 64 symbols too deeply
  have hall : encodeURL.all (fun c => c.utf8Size == 1) = true := by decide +kernel
  have hmem : ∀ c ∈ encodeURL, c.utf8Size = 1 := fun c hc =>
    beq_iff_eq.mp (List.all_eq_true.mp hall c hc)
  have hlen : encodeURL.length = 64 := by decide +kernel
  have hv : v &&& 0x3F < encodeURL.length := by
    rw [hlen]
    exact Nat.lt_of_le_of_lt Nat.and_le_right (by decide)
  rw [symbol, List.getD_eq_getElem?_getD, List.getElem?_eq_getElem hv, Option.getD_some]
  exact hmem _ (List.getElem_mem hv)

theorem length_rawURLEncodeToString (src : List UInt8) :
    (rawURLEncodeToString src).toList.length = encodedLen src.length := by
  rw [rawURLEncodeToString, String.toList_ofList, length_encodeNoPadding]

theorem utf8Size_of_mem_rawURLEncodeToString {src : List UInt8} {c : Char}
    (h : c ∈ (rawURLEncodeToString src).toList) : c.utf8Size = 1 := by
  rw [rawURLEncodeToString, String.toList_ofList] at h
  obtain ⟨v, rfl⟩ := mem_encodeNoPadding h
  exact utf8Size_symbol_encodeURL v

end Base64
