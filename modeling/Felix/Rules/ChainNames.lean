import Felix.Rules.Endpoints
import Felix.Collections.Base64
import Mathlib

/-!
# Length-limited IDs do not collide

`GetLengthLimitedID` (`hashutils/id.go`) names policy, profile and endpoint chains. A name that
would be too long, or exactly long enough and starting with the `_` that marks a shortened name,
is shortened (`Shortened`): the prefix, `_`, and the first characters of the base64 digest of the
suffix's SHA-256 that fit. That digest (`base64SHA256`) has 43 ASCII characters whatever the
hash function to 32 bytes, so a shortened name is exactly as long as the limit allows
(`utf8ByteSize_shortenedID`), and an unshortened name that long does not start its suffix with
`_`. Two suffixes then only give the same name when both are shortened and their digests agree
as far as the name keeps them (`getLengthLimitedID_collision_free`), and the chain names of two
policies or profiles differ unless that happens (`policyChainName_collision_free`).

Lengths count bytes, as Go's `len` does on a string.

## Main definitions

* `base64SHA256`, `Shortened`
-/

namespace Felix.Rules

/-- `base64.RawURLEncoding.EncodeToString` of the SHA-256 of a suffix; `sha256` is any function
from the suffix to 32 bytes. -/
def base64SHA256 (sha256 : String → List.Vector UInt8 32) (suffix : String) : String :=
  Base64.rawURLEncodeToString (sha256 suffix).toList

/-- `GetLengthLimitedID` shortens the suffix: the ID would be too long, or exactly long enough
with a suffix that starts with `_`. -/
def Shortened (fixedPrefix suffix : String) (maxLength : ℕ) : Prop :=
  fixedPrefix.utf8ByteSize + suffix.utf8ByteSize > maxLength ∨
    (fixedPrefix.utf8ByteSize + suffix.utf8ByteSize = maxLength ∧ suffix.toList.head? = some '_')

/-! ## Strings of ASCII characters -/

theorem utf8ByteSize_ofList (l : List Char) :
    (String.ofList l).utf8ByteSize = (l.map Char.utf8Size).sum := by
  induction l with
  | nil => rfl
  | cons c l ih =>
    have h : String.ofList (c :: l) = String.singleton c ++ String.ofList l := by
      apply String.toList_injective
      simp [String.toList_append, String.toList_ofList]
    rw [h, String.utf8ByteSize_append, String.utf8ByteSize_singleton, ih, List.map_cons,
      List.sum_cons]

/-- A string of ASCII characters has a byte for each. -/
theorem utf8ByteSize_ofList_of_ascii {l : List Char} (h : ∀ c ∈ l, c.utf8Size = 1) :
    (String.ofList l).utf8ByteSize = l.length := by
  rw [utf8ByteSize_ofList, List.map_congr_left h, List.map_const']
  simp

theorem append_left_cancel {p s t : String} (h : p ++ s = p ++ t) : s = t := by
  apply String.toList_injective
  have h' := congrArg String.toList h
  rw [String.toList_append, String.toList_append] at h'
  exact List.append_cancel_left h'

/-! ## The two ways to name -/

section Names

variable (hash : String → String) (fixedPrefix suffix : String) (maxLength : ℕ)

theorem getLengthLimitedID_of_shortened (h : Shortened fixedPrefix suffix maxLength) :
    getLengthLimitedID hash fixedPrefix suffix maxLength =
      fixedPrefix ++ "_" ++
        String.ofList ((hash suffix).toList.take (maxLength - 1 - fixedPrefix.utf8ByteSize)) :=
  if_pos h

theorem getLengthLimitedID_of_not_shortened (h : ¬ Shortened fixedPrefix suffix maxLength) :
    getLengthLimitedID hash fixedPrefix suffix maxLength = fixedPrefix ++ suffix :=
  if_neg h

end Names

/-! ## The digest -/

section Digest

variable (sha256 : String → List.Vector UInt8 32)

theorem length_base64SHA256 (suffix : String) :
    (base64SHA256 sha256 suffix).toList.length = 43 := by
  rw [base64SHA256, Base64.length_rawURLEncodeToString, List.Vector.toList_length]
  rfl

theorem utf8Size_of_mem_base64SHA256 {suffix : String} {c : Char}
    (h : c ∈ (base64SHA256 sha256 suffix).toList) : c.utf8Size = 1 :=
  Base64.utf8Size_of_mem_rawURLEncodeToString h

variable {fixedPrefix : String} {maxLength : ℕ}
  (hlo : fixedPrefix.utf8ByteSize + 1 ≤ maxLength)
  (hhi : maxLength ≤ fixedPrefix.utf8ByteSize + 44)
include hlo hhi

/-- A shortened ID is exactly `maxLength` bytes long: the digest has a character for every byte
left after the prefix and the `_`. -/
theorem utf8ByteSize_shortenedID (suffix : String) :
    (fixedPrefix ++ "_" ++ String.ofList ((base64SHA256 sha256 suffix).toList.take
      (maxLength - 1 - fixedPrefix.utf8ByteSize))).utf8ByteSize = maxLength := by
  have hascii : ∀ c ∈ (base64SHA256 sha256 suffix).toList.take
      (maxLength - 1 - fixedPrefix.utf8ByteSize), c.utf8Size = 1 :=
    fun c hc => utf8Size_of_mem_base64SHA256 sha256 (List.mem_of_mem_take hc)
  have hunderscore : "_".utf8ByteSize = 1 := rfl
  rw [String.utf8ByteSize_append, String.utf8ByteSize_append, hunderscore,
    utf8ByteSize_ofList_of_ascii hascii, List.length_take, length_base64SHA256]
  omega

/-- An ID is `maxLength` bytes long at most. -/
theorem utf8ByteSize_getLengthLimitedID_le (suffix : String) :
    (getLengthLimitedID (base64SHA256 sha256) fixedPrefix suffix maxLength).utf8ByteSize ≤
      maxLength := by
  by_cases h : Shortened fixedPrefix suffix maxLength
  · rw [getLengthLimitedID_of_shortened _ _ _ _ h]
    exact Nat.le_of_eq (utf8ByteSize_shortenedID sha256 hlo hhi suffix)
  · rw [getLengthLimitedID_of_not_shortened _ _ _ _ h, String.utf8ByteSize_append]
    unfold Shortened at h
    omega

/-- A shortened ID is no unshortened one: it is as long as the unshortened one could be only
with a suffix exactly long enough, whose first character is then the `_` that would have made
it shortened. -/
theorem shortenedID_ne {s₁ s₂ : String} (h₁ : Shortened fixedPrefix s₁ maxLength)
    (h₂ : ¬ Shortened fixedPrefix s₂ maxLength) :
    getLengthLimitedID (base64SHA256 sha256) fixedPrefix s₁ maxLength ≠
      getLengthLimitedID (base64SHA256 sha256) fixedPrefix s₂ maxLength := by
  rw [getLengthLimitedID_of_shortened _ _ _ _ h₁,
    getLengthLimitedID_of_not_shortened _ _ _ _ h₂]
  intro heq
  have hlen := congrArg String.utf8ByteSize heq
  rw [utf8ByteSize_shortenedID sha256 hlo hhi, String.utf8ByteSize_append] at hlen
  rw [String.append_assoc] at heq
  have hsuffix := append_left_cancel heq
  have hhead : s₂.toList.head? = some '_' := by
    rw [← hsuffix, String.toList_append]
    rfl
  exact h₂ (.inr ⟨hlen.symm, hhead⟩)

/-- Two suffixes give the same ID only when both are shortened and their digests agree on the
characters the ID keeps. -/
theorem eq_of_getLengthLimitedID_eq {s₁ s₂ : String} (hne : s₁ ≠ s₂)
    (heq : getLengthLimitedID (base64SHA256 sha256) fixedPrefix s₁ maxLength =
      getLengthLimitedID (base64SHA256 sha256) fixedPrefix s₂ maxLength) :
    Shortened fixedPrefix s₁ maxLength ∧ Shortened fixedPrefix s₂ maxLength ∧
      (base64SHA256 sha256 s₁).toList.take (maxLength - 1 - fixedPrefix.utf8ByteSize) =
        (base64SHA256 sha256 s₂).toList.take (maxLength - 1 - fixedPrefix.utf8ByteSize) := by
  by_cases h₁ : Shortened fixedPrefix s₁ maxLength <;>
    by_cases h₂ : Shortened fixedPrefix s₂ maxLength
  · -- both shortened: the IDs differ after the prefix and the `_` unless the digests agree
    refine ⟨h₁, h₂, ?_⟩
    rw [getLengthLimitedID_of_shortened _ _ _ _ h₁,
      getLengthLimitedID_of_shortened _ _ _ _ h₂] at heq
    have h := congrArg String.toList (append_left_cancel heq)
    rwa [String.toList_ofList, String.toList_ofList] at h
  · exact absurd heq (shortenedID_ne sha256 hlo hhi h₁ h₂)
  · exact absurd heq.symm (shortenedID_ne sha256 hlo hhi h₂ h₁)
  · rw [getLengthLimitedID_of_not_shortened _ _ _ _ h₁,
      getLengthLimitedID_of_not_shortened _ _ _ _ h₂] at heq
    exact absurd (append_left_cancel heq) hne

/-- **Length-limited IDs are collision-free up to the hash.** For a prefix and a limit that
leave room for the `_` and at most the whole digest, every ID is within the limit, and two
suffixes give the same ID only when both are shortened and their digests agree on the
characters the ID keeps. -/
theorem getLengthLimitedID_collision_free :
    (∀ suffix,
      (getLengthLimitedID (base64SHA256 sha256) fixedPrefix suffix maxLength).utf8ByteSize ≤
        maxLength) ∧
    ∀ s₁ s₂, s₁ ≠ s₂ →
      getLengthLimitedID (base64SHA256 sha256) fixedPrefix s₁ maxLength =
          getLengthLimitedID (base64SHA256 sha256) fixedPrefix s₂ maxLength →
        Shortened fixedPrefix s₁ maxLength ∧ Shortened fixedPrefix s₂ maxLength ∧
          (base64SHA256 sha256 s₁).toList.take (maxLength - 1 - fixedPrefix.utf8ByteSize) =
            (base64SHA256 sha256 s₂).toList.take (maxLength - 1 - fixedPrefix.utf8ByteSize) :=
  ⟨utf8ByteSize_getLengthLimitedID_le sha256 hlo hhi,
    fun _ _ hne heq => eq_of_getLengthLimitedID_eq sha256 hlo hhi hne heq⟩

omit hlo hhi in
/-- The inbound policy chains' prefix, eight bytes, and the chain length limit, 28 bytes, with a
hash that gives 32 zero bytes. -/
theorem getLengthLimitedID_collision_free_policyChain :
    policyInboundPfx.utf8ByteSize + 1 ≤ maxChainNameLength ∧
      maxChainNameLength ≤ policyInboundPfx.utf8ByteSize + 44 ∧
      ∀ suffix, (getLengthLimitedID (base64SHA256 fun _ => ⟨List.replicate 32 0, rfl⟩)
        policyInboundPfx suffix maxChainNameLength).utf8ByteSize ≤ maxChainNameLength := by
  have hlo : policyInboundPfx.utf8ByteSize + 1 ≤ maxChainNameLength := by decide
  have hhi : maxChainNameLength ≤ policyInboundPfx.utf8ByteSize + 44 := by decide
  exact ⟨hlo, hhi,
    (getLengthLimitedID_collision_free (fun _ => ⟨List.replicate 32 0, rfl⟩) hlo hhi).1⟩

end Digest

section Chains

variable (sha256 : String → List.Vector UInt8 32)

/-- The chains of two policies of one direction are named apart unless both names are
shortened and their digests agree on the 19 characters a chain name keeps of them. -/
theorem policyChainName_collision_free {prefix_ : String}
    (hpfx : prefix_ = policyInboundPfx ∨ prefix_ = policyOutboundPfx) {n₁ n₂ : String}
    (hne : n₁ ≠ n₂)
    (heq : policyChainName (base64SHA256 sha256) prefix_ n₁ =
      policyChainName (base64SHA256 sha256) prefix_ n₂) :
    (base64SHA256 sha256 n₁).toList.take 19 = (base64SHA256 sha256 n₂).toList.take 19 := by
  have hlen : prefix_.utf8ByteSize = 8 := by
    rcases hpfx with rfl | rfl <;> decide
  have h := eq_of_getLengthLimitedID_eq sha256 (by rw [hlen]; decide) (by rw [hlen]; decide)
    hne heq
  rw [hlen] at h
  exact h.2.2

end Chains

end Felix.Rules
