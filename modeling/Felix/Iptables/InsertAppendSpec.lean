import Felix.Iptables.InsertAppend
import Mathlib

/-!
# What the insert and append pass does to a chain

`iptables-save` prints a rule as `-A`, the chain and the rule; `iptables-restore` reads the pass's
lines as deletes by value (`-D`), inserts at the top (`-I`) and appends (`-A`), and a delete of
a rule the chain does not hold fails (`execLine`).

Start from a chain as `loadDataplaneState` leaves it: the hashes are those of the chain's rules,
and the stored lines are the chain's own for the rules with a hash and `-` for the others.
When the chain is out of step, the pass's lines leave it with the rules to insert, the other
rules and the rules to append, in the order of the insert mode, so its hashes are the expected
ones (`insertAppendChain_spec`). The lines the pass stores are not that chain: they are its new
lines, the lines it had, the deleted ones included, and the lines written for the rules to
insert, `-I` lines in insert mode. The stored list is longer than the chain by the number of
rules the pass deleted.

## Main definitions

* `SavedLine`, `execLine`, `execLines`, `fullRuleOf`, `ownRules`, `otherRules`, `deleteLine`

## Main results

* `execLines_deletes`: the deletes by value take the table's own rules out of the chain
* `expectedHashes_eq`, `length_of_mem_expectedHashes`: the expected hashes in slots, each empty
  or `HashLength` characters
* `insertAppendChain_spec`: the chain after the pass, and the length of the lines stored for it
* `forwardTable`: a chain with one rule of the table's own, where the stored lines go stale
-/

namespace Felix.Iptables

/-! ## The kernel's side -/

/-- A rule line as `iptables-save` prints it: `-A`, then the chain and the rule. -/
def SavedLine (line : String) : Prop := ∃ rest, line.toList = '-' :: 'A' :: rest

/-- What `iptables-restore` does to a chain with one line of the pass: `-D` deletes the first
rule listed as the line with `-A` for `-D`, and fails when there is none; `-I` puts the rule at
the top and `-A` at the end, where `iptables-save` lists it as `-A` and the rest of the line. -/
def execLine (chain : List String) (line : String) : Option (List String) :=
  match line.toList with
  | '-' :: 'D' :: rest =>
    if String.ofList ('-' :: 'A' :: rest) ∈ chain then
      some (chain.erase (String.ofList ('-' :: 'A' :: rest)))
    else none
  | '-' :: 'I' :: rest => some (String.ofList ('-' :: 'A' :: rest) :: chain)
  | '-' :: 'A' :: _ => some (chain ++ [line])
  | _ => none
attribute [grind] execLine

/-- The lines run in order, the first failure failing the restore. -/
def execLines (chain lines : List String) : Option (List String) :=
  lines.foldlM execLine chain

/-- The stored line of a rule of the chain, as `readHashesAndRulesFrom` keeps it: the rule's
line when it carries a hash, `-` otherwise. -/
def fullRuleOf (hashOf : String → String) (line : String) : String :=
  if hashOf line = "" then "-" else line
attribute [grind] fullRuleOf

@[simp]
theorem InsertMode.length_arrange {α : Type} (mode : InsertMode) (ins others : List α) :
    (mode.arrange ins others).length = ins.length + others.length := by
  cases mode <;> simp [InsertMode.arrange, Nat.add_comm]

@[simp]
theorem InsertMode.mem_arrange {α : Type} (mode : InsertMode) (ins others : List α) (x : α) :
    x ∈ mode.arrange ins others ↔ x ∈ ins ∨ x ∈ others := by
  cases mode <;> simp [InsertMode.arrange, or_comm]

theorem InsertMode.map_arrange {α β : Type} (f : α → β) (mode : InsertMode)
    (ins others : List α) :
    (mode.arrange ins others).map f = mode.arrange (ins.map f) (others.map f) := by
  cases mode <;> simp [InsertMode.arrange]

@[simp]
theorem InsertMode.arrange_nil {α : Type} (mode : InsertMode) (others : List α) :
    mode.arrange [] others = others := by
  cases mode <;> simp [InsertMode.arrange]

theorem execLines_nil (chain : List String) : execLines chain [] = some chain := rfl

theorem execLines_cons (chain : List String) (line : String) (lines : List String) :
    execLines chain (line :: lines) = (execLine chain line).bind (execLines · lines) := rfl

theorem execLines_append (chain lines₁ lines₂ : List String) :
    execLines chain (lines₁ ++ lines₂) =
      (execLines chain lines₁).bind (execLines · lines₂) := by
  simp only [execLines, List.foldlM_append]
  rfl

theorem execLine_of_delete {line : String} {rest : List Char} (h : line.toList = '-' :: 'D' :: rest)
    (chain : List String) :
    execLine chain line =
      if String.ofList ('-' :: 'A' :: rest) ∈ chain then
        some (chain.erase (String.ofList ('-' :: 'A' :: rest)))
      else none := by
  rw [execLine, h]
  rfl

theorem execLine_of_insert {line : String} {rest : List Char} (h : line.toList = '-' :: 'I' :: rest)
    (chain : List String) :
    execLine chain line = some (String.ofList ('-' :: 'A' :: rest) :: chain) := by
  rw [execLine, h]
  rfl

theorem execLine_of_saved {line : String} (h : SavedLine line) (chain : List String) :
    execLine chain line = some (chain ++ [line]) := by
  obtain ⟨rest, h⟩ := h
  rw [execLine, h]
  rfl

/-! ## The lines the pass renders -/

section Lines

variable {ρ : Type} (ruleFragments : ρ → List String)

/-- A rendered rule is `-A` or `-I`, then the same text. -/
theorem toList_renderInsert (r : ρ) (chainName prefixFragment : String) :
    ∃ rest,
      (renderInsert ruleFragments r chainName prefixFragment).toList = '-' :: 'I' :: rest ∧
      (renderAppend ruleFragments r chainName prefixFragment).toList = '-' :: 'A' :: rest := by
  simp only [renderInsert, renderAppend, renderInner, List.cons_append, List.nil_append,
    String.intercalate_cons_cons, String.toList_append]
  exact ⟨_, rfl, rfl⟩

theorem savedLine_renderAppend (r : ρ) (chainName prefixFragment : String) :
    SavedLine (renderAppend ruleFragments r chainName prefixFragment) := by
  obtain ⟨rest, -, h⟩ := toList_renderInsert ruleFragments r chainName prefixFragment
  exact ⟨rest, h⟩

/-- The hash comment is never empty, so `renderInner` always writes it. -/
theorem commentFrag_ne_empty (hashCommentPrefix hash : String) :
    commentFrag hashCommentPrefix hash ≠ "" := by
  unfold commentFrag
  rw [ne_eq, String.append_assoc, String.append_assoc, String.append_eq_empty_iff, not_and]
  intro h
  exact absurd h (by decide)

/-- `iptables-restore` puts an inserted rule at the top, listed as its `-A` line. -/
theorem execLine_renderInsert (r : ρ) (chainName prefixFragment : String) (chain : List String) :
    execLine chain (renderInsert ruleFragments r chainName prefixFragment) =
      some (renderAppend ruleFragments r chainName prefixFragment :: chain) := by
  obtain ⟨rest, hi, ha⟩ := toList_renderInsert ruleFragments r chainName prefixFragment
  rw [execLine_of_insert hi, ← ha, String.ofList_toList]

/-- Appends leave the rules at the end in their order. -/
theorem execLines_appends {lines : List String} (h : ∀ line ∈ lines, SavedLine line)
    (chain : List String) : execLines chain lines = some (chain ++ lines) := by
  induction lines generalizing chain with
  | nil => simp [execLines_nil]
  | cons line lines ih =>
    rw [execLines_cons, execLine_of_saved (h line (by simp)), Option.bind_some,
      ih (fun l hl => h l (by simp [hl]))]
    simp

end Lines

/-! ## The deletes -/

section Deletes

variable (hashOf : String → String)

/-- The rules of the table's own in a chain: those that carry a hash. -/
def ownRules (chain : List String) : List String := chain.filter fun line => hashOf line != ""
attribute [grind] ownRules

/-- The rules of others in a chain. -/
def otherRules (chain : List String) : List String := chain.filter fun line => hashOf line == ""
attribute [grind] otherRules

@[simp]
theorem ownRules_nil : ownRules hashOf [] = [] := rfl

@[simp]
theorem otherRules_nil : otherRules hashOf [] = [] := rfl

theorem ownRules_cons_of_own {line : String} (h : hashOf line ≠ "") (chain : List String) :
    ownRules hashOf (line :: chain) = line :: ownRules hashOf chain := by
  simp [ownRules, h]

theorem ownRules_cons_of_other {line : String} (h : hashOf line = "") (chain : List String) :
    ownRules hashOf (line :: chain) = ownRules hashOf chain := by
  simp [ownRules, h]

theorem otherRules_cons_of_own {line : String} (h : hashOf line ≠ "") (chain : List String) :
    otherRules hashOf (line :: chain) = otherRules hashOf chain := by
  simp [otherRules, h]

theorem otherRules_cons_of_other {line : String} (h : hashOf line = "") (chain : List String) :
    otherRules hashOf (line :: chain) = line :: otherRules hashOf chain := by
  simp [otherRules, h]

theorem length_ownRules_add_otherRules (chain : List String) :
    (ownRules hashOf chain).length + (otherRules hashOf chain).length = chain.length := by
  rw [List.length_eq_length_filter_add (fun line => hashOf line != "") (l := chain)]
  simp [ownRules, otherRules, bne, Bool.not_not]

/-- The other rules are those with an empty hash, so there are `numEmptyStrings` of them. -/
theorem length_otherRules (chain : List String) :
    (otherRules hashOf chain).length = numEmptyStrings (chain.map hashOf) := by
  simp [otherRules, numEmptyStrings, List.count_eq_length_filter, List.filter_map,
    Function.comp_def]

theorem map_otherRules (chain : List String) :
    (otherRules hashOf chain).map hashOf =
      List.replicate (numEmptyStrings (chain.map hashOf)) "" := by
  rw [← length_otherRules, List.eq_replicate_iff]
  refine ⟨by simp, fun h hh => ?_⟩
  obtain ⟨line, hline, rfl⟩ := List.mem_map.mp hh
  simpa [otherRules] using (List.mem_filter.mp hline).2

/-- The line `renderDeleteByValueLine` makes of a stored line: its `-A` made a `-D`. -/
def deleteLine (line : String) : String :=
  String.ofList (replaceFirst "-A".toList "-D".toList line.toList)
attribute [grind] deleteLine

theorem toList_deleteLine {line : String} {rest : List Char}
    (h : line.toList = '-' :: 'A' :: rest) : (deleteLine line).toList = '-' :: 'D' :: rest := by
  rw [deleteLine, h, String.toList_ofList]
  simp [replaceFirst]

/-- A delete by value of a saved line deletes its first copy. -/
theorem execLine_deleteLine {line : String} (h : SavedLine line) (chain : List String) :
    execLine chain (deleteLine line) =
      if line ∈ chain then some (chain.erase line) else none := by
  obtain ⟨rest, h⟩ := h
  rw [execLine_of_delete (toList_deleteLine h), ← h, String.ofList_toList]

/-- Deletes of rules other than the chain's first leave it first. -/
theorem execLines_deleteLines_cons {first : String} (dels : List String)
    (hdels : ∀ line ∈ dels, SavedLine line ∧ line ≠ first) (chain : List String) :
    execLines (first :: chain) (dels.map deleteLine) =
      (execLines chain (dels.map deleteLine)).map (first :: ·) := by
  induction dels generalizing chain with
  | nil => rfl
  | cons line dels ih =>
    obtain ⟨hsaved, hne⟩ := hdels line (by simp)
    have ih' := ih (fun l hl => hdels l (by simp [hl]))
    rw [List.map_cons, execLines_cons, execLines_cons, execLine_deleteLine hsaved,
      execLine_deleteLine hsaved]
    by_cases hmem : line ∈ chain
    · have herase : (first :: chain).erase line = first :: chain.erase line :=
        List.erase_cons_tail (by simpa using Ne.symm hne)
      simp [hmem, herase, ih']
    · simp [hmem, hne]

/-- **The deletes of the pass leave the rules of others**: each deletes the first copy of a rule
of the table's own, in the chain's order. The induction is on the chain. -/
theorem execLines_deletes (chain : List String) (hsaved : ∀ line ∈ chain, SavedLine line) :
    execLines chain ((ownRules hashOf chain).map deleteLine) =
      some (otherRules hashOf chain) := by
  induction chain with
  | nil => rfl
  | cons first chain ih =>
    have ih' := ih (fun l hl => hsaved l (by simp [hl]))
    by_cases hfirst : hashOf first = ""
    · -- a rule of others stays first; the deletes are all of rules with a hash
      rw [ownRules_cons_of_other hashOf hfirst, otherRules_cons_of_other hashOf hfirst,
        execLines_deleteLines_cons, ih']
      · rfl
      · intro line hline
        refine ⟨hsaved line (by simp [(List.mem_filter.mp hline).1]), fun heq => ?_⟩
        have := (List.mem_filter.mp hline).2
        simp [heq, hfirst] at this
    · rw [ownRules_cons_of_own hashOf hfirst, otherRules_cons_of_own hashOf hfirst,
        List.map_cons, execLines_cons, execLine_deleteLine (hsaved first (by simp))]
      simp [ih']

end Deletes

/-! ## The expected hashes -/

section Hashes

variable {ρ : Type} (ruleFragments : ρ → List String) (sha224 : List UInt8 → List UInt8)

theorem length_foldl_ruleHashStep (chainName : String) (rules : List ρ) :
    ∀ acc : List UInt8 × List String,
      (rules.foldl (ruleHashStep ruleFragments sha224 chainName) acc).2.length =
        acc.2.length + rules.length := by
  induction rules with
  | nil => simp
  | cons r rules ih =>
    intro acc
    rw [List.foldl_cons, ih]
    simp [ruleHashStep]
    omega

/-- `RuleHashes` gives each rule one hash. -/
theorem length_ruleHashes (chainName : String) (rules : List ρ) :
    (ruleHashes ruleFragments sha224 chainName rules).length = rules.length := by
  rw [ruleHashes, length_foldl_ruleHashStep]
  simp

section DigestSize

/- SHA-224's digests are 28 bytes, so the base64 text of each has more than `HashLength`
symbols. -/
variable {sha224} (hsize : ∀ b, (sha224 b).length = 28)
include hsize

/-- One turn of the hashing loop adds a hash of `HashLength` characters. -/
theorem length_of_mem_ruleHashStep (chainName : String) (acc : List UInt8 × List String)
    (r : ρ) {hash : String}
    (hmem : hash ∈ (ruleHashStep ruleFragments sha224 chainName acc r).2) :
    hash ∈ acc.2 ∨ hash.length = hashLength := by
  simp only [ruleHashStep, List.mem_append, List.mem_singleton] at hmem
  rcases hmem with hmem | rfl
  · exact Or.inl hmem
  · right
    rw [← String.length_toList, String.toList_ofList, List.length_take,
      Base64.length_rawURLEncodeToString, hsize]
    rfl

theorem length_of_mem_foldl_ruleHashStep (chainName : String) (rules : List ρ) :
    ∀ acc : List UInt8 × List String, (∀ hash ∈ acc.2, hash.length = hashLength) →
      ∀ hash ∈ (rules.foldl (ruleHashStep ruleFragments sha224 chainName) acc).2,
        hash.length = hashLength := by
  induction rules with
  | nil => exact fun acc hacc => hacc
  | cons r rules ih =>
    intro acc hacc
    rw [List.foldl_cons]
    refine ih _ fun hash hmem => ?_
    rcases length_of_mem_ruleHashStep ruleFragments hsize chainName acc r hmem with hmem | hlen
    · exact hacc hash hmem
    · exact hlen

/-- **Every rule hash is `HashLength` characters.** -/
theorem length_of_mem_ruleHashes (chainName : String) (rules : List ρ) {hash : String}
    (hmem : hash ∈ ruleHashes ruleFragments sha224 chainName rules) :
    hash.length = hashLength :=
  length_of_mem_foldl_ruleHashStep ruleFragments hsize chainName rules _ (by simp) hash hmem

end DigestSize

/-- The loop of `expectedHashesForInsertAppendChain` writes the hashes over the slots from
`offset` on. -/
theorem writeAt_eq : ∀ (offset : ℕ) (hashes allHashes : List String),
    offset + hashes.length ≤ allHashes.length →
      writeAt offset hashes allHashes =
        allHashes.take offset ++ hashes ++ allHashes.drop (offset + hashes.length)
  | offset, [], allHashes, _ => by simp [writeAt]
  | offset, hash :: hashes, allHashes, h => by
    have hlt : offset < allHashes.length := by simp at h; omega
    rw [writeAt, writeAt_eq (offset + 1) hashes _ (by simp at h ⊢; omega),
      List.set_eq_take_append_cons_drop, if_pos hlt]
    have htake : (allHashes.take offset).length = offset := by simp; omega
    simp [List.take_append, List.drop_append, htake, List.take_take, Nat.add_assoc,
      Nat.add_comm 1]

variable (t : InsertAppendTable ρ) (chainName : String) (n : ℕ)

theorem length_insertedHashes :
    (expectedHashesForInsertAppendChain ruleFragments sha224 t chainName n).2.1.length =
      (t.chainToInsertedRules chainName).length := by
  simp only [expectedHashesForInsertAppendChain, calculateRuleHashes]
  split_ifs with h
  · exact length_ruleHashes ruleFragments sha224 _ _
  · simp_all

theorem length_appendedHashes :
    (expectedHashesForInsertAppendChain ruleFragments sha224 t chainName n).2.2.length =
      (t.chainToAppendedRules chainName).length := by
  simp only [expectedHashesForInsertAppendChain, calculateRuleHashes]
  split_ifs with h
  · exact length_ruleHashes ruleFragments sha224 _ _
  · simp_all

/-- **The expected hashes**: those of the rules to insert before the `n` empty ones of the rules
of others, or after them in append mode, then those of the rules to append. -/
theorem expectedHashes_eq :
    (expectedHashesForInsertAppendChain ruleFragments sha224 t chainName n).1 =
      t.insertMode.arrange
          (expectedHashesForInsertAppendChain ruleFragments sha224 t chainName n).2.1
          (List.replicate n "") ++
        (expectedHashesForInsertAppendChain ruleFragments sha224 t chainName n).2.2 := by
  have hi := length_insertedHashes ruleFragments sha224 t chainName n
  have ha := length_appendedHashes ruleFragments sha224 t chainName n
  revert hi ha
  simp only [expectedHashesForInsertAppendChain]
  generalize (if (t.chainToInsertedRules chainName).length > 0 then _ else []) = insH
  generalize (if (t.chainToAppendedRules chainName).length > 0 then _ else []) = appH
  intro hi ha
  rw [← hi, ← ha]
  cases hmode : t.insertMode with
  | insert =>
    rw [if_neg (by decide), writeAt_eq 0 insH _ (by simp; omega)]
    rw [writeAt_eq _ appH _ (by simp; omega)]
    have hrep : insH.length + appH.length + n - insH.length = n + appH.length := by omega
    have htake : insH.take (insH.length + n) = insH := List.take_of_length_le (by omega)
    have hdrop : insH.drop (insH.length + n + appH.length) = [] := List.drop_eq_nil_of_le (by omega)
    have hrest : n + appH.length - (insH.length + n + appH.length - insH.length) = 0 := by omega
    simp [InsertMode.arrange, hrep, List.take_append, List.drop_append, List.take_replicate,
      List.drop_replicate, htake, hdrop, hrest]
  | append =>
    rw [if_pos rfl, writeAt_eq n insH _ (by simp; omega)]
    rw [writeAt_eq _ appH _ (by simp; omega)]
    have hrep : insH.length + appH.length + n - (n + insH.length) = appH.length := by omega
    -- what is left is the arithmetic of the slots
    simp [InsertMode.arrange, hrep, List.take_append, List.drop_append, List.take_replicate,
      List.drop_replicate, Nat.add_comm insH.length n]
    refine ⟨?_, ?_, ?_⟩ <;> omega

/-- An expected hash is the empty one of a rule of others, or one of `HashLength`
characters. -/
theorem length_of_mem_expectedHashes (hsize : ∀ b, (sha224 b).length = 28) {hash : String}
    (hmem : hash ∈ (expectedHashesForInsertAppendChain ruleFragments sha224 t chainName n).1)
    (hne : hash ≠ "") : hash.length = hashLength := by
  rw [expectedHashes_eq, List.mem_append, InsertMode.mem_arrange] at hmem
  -- the hashes of the rules to insert or to append are `RuleHashes` when there are any
  simp only [expectedHashesForInsertAppendChain, calculateRuleHashes] at hmem
  rcases hmem with (hmem | hmem) | hmem
  · split_ifs at hmem
    · exact length_of_mem_ruleHashes ruleFragments hsize _ _ hmem
    · simp at hmem
  · exact absurd (List.eq_of_mem_replicate hmem) hne
  · split_ifs at hmem
    · exact length_of_mem_ruleHashes ruleFragments hsize _ _ hmem
    · simp at hmem

end Hashes

/-! ## The lines for the rules to insert and append -/

section RuleLines

variable {ρ : Type} (ruleFragments : ρ → List String) (hashCommentPrefix chainName : String)

/-- A test `len(rules) > 0` that guards nothing: without rules both branches agree. -/
theorem ite_length_pos {α : Type} {rules : List ρ} {x y : α} (h : rules = [] → x = y) :
    (if rules.length > 0 then x else y) = x := by
  split_ifs with hpos
  · rfl
  · exact (h (List.eq_nil_of_length_eq_zero (by omega))).symm

@[simp]
theorem appendRuleLines_nil (hashes : List String) :
    appendRuleLines ruleFragments hashCommentPrefix chainName [] hashes = [] := rfl

@[simp]
theorem insertRuleLines_nil (mode : InsertMode) (hashes : List String) :
    insertRuleLines ruleFragments mode hashCommentPrefix chainName [] hashes = [] := by
  cases mode <;> rfl

@[simp]
theorem insertsWritten_nil (mode : InsertMode) : insertsWritten mode [] = [] := by
  cases mode <;> rfl

theorem length_insertRuleLines (mode : InsertMode) {rules : List ρ} {hashes : List String}
    (h : hashes.length = rules.length) :
    (insertRuleLines ruleFragments mode hashCommentPrefix chainName rules hashes).length =
      rules.length := by
  cases mode <;> simp [insertRuleLines, appendRuleLines, h]

theorem length_appendRuleLines {rules : List ρ} {hashes : List String}
    (h : hashes.length = rules.length) :
    (appendRuleLines ruleFragments hashCommentPrefix chainName rules hashes).length =
      rules.length := by
  simp [appendRuleLines, h]

theorem savedLine_of_mem_appendRuleLines {rules : List ρ} {hashes : List String} {line : String}
    (h : line ∈ appendRuleLines ruleFragments hashCommentPrefix chainName rules hashes) :
    SavedLine line := by
  obtain ⟨i, hi, rfl⟩ := List.getElem_of_mem h
  simp only [appendRuleLines, List.getElem_zipWith]
  exact savedLine_renderAppend ruleFragments _ _ _

/-- **The rules to insert, as `iptables-restore` runs their lines**: at the top in their order,
or at the end in append mode, listed as their `-A` lines. -/
theorem execLines_insertsWritten (mode : InsertMode) (rules : List ρ) (hashes : List String)
    (chain : List String) :
    execLines chain (insertsWritten mode
        (insertRuleLines ruleFragments mode hashCommentPrefix chainName rules hashes)) =
      some (mode.arrange (appendRuleLines ruleFragments hashCommentPrefix chainName rules hashes)
        chain) := by
  cases mode with
  | insert =>
    -- the inserts run last one first, each going to the top
    induction rules generalizing hashes with
    | nil => rfl
    | cons r rules ih =>
      cases hashes with
      | nil => rfl
      | cons hash hashes =>
        have ih' := ih hashes
        simp only [insertsWritten, insertRuleLines, InsertMode.arrange] at ih' ⊢
        rw [List.zipWith_cons_cons, List.reverse_cons, execLines_append, ih', Option.bind_some,
          execLines_cons, execLine_renderInsert, Option.bind_some, execLines_nil]
        rfl
  | append =>
    exact execLines_appends (fun line hl => savedLine_of_mem_appendRuleLines ruleFragments _ _ hl)
      chain

variable (hashOf : String → String)

/-- The hash comment of each line reads back as the hash it was written with. -/
theorem map_hashOf_appendRuleLines
    (hread : ∀ (r : ρ) (hash : String),
      hashOf (renderAppend ruleFragments r chainName (commentFrag hashCommentPrefix hash)) = hash) :
    ∀ (rules : List ρ) (hashes : List String), hashes.length = rules.length →
      (appendRuleLines ruleFragments hashCommentPrefix chainName rules hashes).map hashOf = hashes
  | [], [], _ => rfl
  | r :: rules, hash :: hashes, h => by
    rw [appendRuleLines, List.zipWith_cons_cons, List.map_cons, hread, ← appendRuleLines,
      map_hashOf_appendRuleLines hread rules hashes (by simpa using h)]

end RuleLines

/-! ## One chain of the pass -/

section Chain

variable {ρ : Type} (ruleFragments : ρ → List String) (sha224 : List UInt8 → List UInt8)
  (t : InsertAppendTable ρ) (hashOf : String → String) (chainName : String)
  {kernel : List String}

/-- The stored line of a rule with a hash is the rule's own, and its delete is rendered. -/
theorem renderDeleteByValueLine_of_own
    (hf : t.chainToFullRules chainName = some (kernel.map (fullRuleOf hashOf)))
    {i : ℕ} (hi : i < kernel.length) (hown : hashOf kernel[i] ≠ "") :
    renderDeleteByValueLine t chainName i = .ok (deleteLine kernel[i]) := by
  simp [renderDeleteByValueLine, hf, hi, fullRuleOf, hown, deleteLine]

/-- **The deletes rendered for a chain as loaded**: one for each rule with a hash, in order. The
recursion is on the rules not yet visited, `pre` the ones before. -/
theorem deleteByValueLines_eq
    (hf : t.chainToFullRules chainName = some (kernel.map (fullRuleOf hashOf))) :
    ∀ (pre suf : List String), kernel = pre ++ suf →
      deleteByValueLines t chainName pre.length (suf.map hashOf) =
        .ok ((ownRules hashOf suf).map deleteLine)
  | _, [], _ => rfl
  | pre, line :: suf, hk => by
    have hi : pre.length < kernel.length := by simp [hk]
    have hline : kernel[pre.length] = line := by simp [hk]
    have ih := deleteByValueLines_eq hf (pre ++ [line]) suf (by simp [hk])
    rw [List.length_append, List.length_singleton] at ih
    by_cases hown : hashOf line = ""
    · rw [List.map_cons, deleteByValueLines, if_neg (not_not.mpr hown), ih,
        ownRules_cons_of_other hashOf hown]
    · rw [List.map_cons, deleteByValueLines, if_pos hown,
        renderDeleteByValueLine_of_own t hashOf chainName hf hi (by rwa [hline]), ih,
        ownRules_cons_of_own hashOf hown, hline]
      rfl

/-- A chain as loaded stores no empty line: `-` for the rules of others, a rule line otherwise. -/
theorem filter_map_fullRuleOf (hsaved : ∀ line ∈ kernel, SavedLine line) :
    (kernel.map (fullRuleOf hashOf)).filter (· ≠ "") = kernel.map (fullRuleOf hashOf) := by
  rw [List.filter_eq_self]
  intro x hx
  obtain ⟨line, hline, rfl⟩ := List.mem_map.mp hx
  obtain ⟨rest, h⟩ := hsaved line hline
  unfold fullRuleOf
  split_ifs
  · decide
  · simp only [ne_eq, decide_eq_true_eq]
    rintro rfl
    simp at h

/-- **One chain of the pass, from a chain as `loadDataplaneState` leaves it.** When the chain is
out of step, the pass's lines run on it leave the rules to insert, the rules of others and the
rules to append, so its hashes are the expected ones; the rule lines stored for it are longer
than the chain by the number of rules the pass deleted, since the copy it starts from keeps
them. -/
theorem insertAppendChain_spec
    (hsaved : ∀ line ∈ kernel, SavedLine line)
    (hh : t.chainToDataplaneHashes chainName = kernel.map hashOf)
    (hf : t.chainToFullRules chainName = some (kernel.map (fullRuleOf hashOf)))
    (hread : ∀ (r : ρ) (hash : String), hashOf (renderAppend ruleFragments r chainName
      (commentFrag t.hashCommentPrefix hash)) = hash)
    (hout : (expectedHashesForInsertAppendChain ruleFragments sha224 t chainName
      (numEmptyStrings (kernel.map hashOf))).1 ≠ kernel.map hashOf) :
    ∃ lines stored, insertAppendChain ruleFragments sha224 t chainName =
        .ok (lines, some ((expectedHashesForInsertAppendChain ruleFragments sha224 t chainName
          (numEmptyStrings (kernel.map hashOf))).1, stored)) ∧
      ∃ chain', execLines kernel lines = some chain' ∧
        chain'.map hashOf = (expectedHashesForInsertAppendChain ruleFragments sha224 t chainName
          (numEmptyStrings (kernel.map hashOf))).1 ∧
        stored.length = chain'.length + (ownRules hashOf kernel).length := by
  have hdel := deleteByValueLines_eq t hashOf chainName hf [] kernel rfl
  have hI := length_insertedHashes ruleFragments sha224 t chainName
    (numEmptyStrings (kernel.map hashOf))
  have hA := length_appendedHashes ruleFragments sha224 t chainName
    (numEmptyStrings (kernel.map hashOf))
  rw [List.length_nil] at hdel
  unfold insertAppendChain
  simp only [hh]
  rw [if_neg hout, hdel]
  refine ⟨_, _, rfl, ?_⟩
  -- without rules to insert or append, the tests `len(rules) > 0` change nothing
  rw [ite_length_pos (fun h => by simp [h]), ite_length_pos (fun h => by simp [h]),
    ite_length_pos (fun h => by simp [h]), ite_length_pos (fun h => by simp [h]), hf,
    Option.getD_some, filter_map_fullRuleOf hashOf hsaved]
  rw [execLines_append, execLines_append, execLines_deletes hashOf kernel hsaved,
    Option.bind_some, execLines_insertsWritten, Option.bind_some,
    execLines_appends (fun line hl => savedLine_of_mem_appendRuleLines ruleFragments _ _ hl)]
  refine ⟨_, rfl, ?_, ?_⟩
  · rw [List.map_append, InsertMode.map_arrange,
      map_hashOf_appendRuleLines ruleFragments _ _ hashOf hread _ _ hI, map_otherRules,
      map_hashOf_appendRuleLines ruleFragments _ _ hashOf hread _ _ hA,
      expectedHashes_eq]
  · have hsplit := length_ownRules_add_otherRules hashOf kernel
    simp only [List.length_append, InsertMode.length_arrange, List.length_map,
      length_insertRuleLines ruleFragments _ _ _ hI, length_appendRuleLines ruleFragments _ _ hI,
      length_appendRuleLines ruleFragments _ _ hA]
    omega

end Chain

/-! ## A chain where the stored lines go stale -/

/-- The line of a rule of the table's own in `FORWARD`, before its hash: `-A`, the chain and the
start of the hash comment, as `renderInner` joins them. -/
def forwardLinePrefix : String := "-A" ++ " " ++ "FORWARD" ++ " " ++ "-m comment --comment \"" ++
  "cali:"

/-- The rest of such a line after its hash: the comment's end and `-j ACCEPT`. -/
def forwardLineSuffix : String := "\"" ++ " " ++ "-j" ++ " " ++ "ACCEPT"

/-- A hash comment reader for the lines of `FORWARD` below: what stands between the prefix and
the suffix. -/
def forwardHashOf (line : String) : String :=
  if forwardLinePrefix.toList.isPrefixOf line.toList then
    String.ofList ((line.toList.drop forwardLinePrefix.toList.length).reverse.drop
      forwardLineSuffix.toList.length).reverse
  else ""

theorem forwardHashOf_line (hash : String) :
    forwardHashOf (forwardLinePrefix ++ hash ++ forwardLineSuffix) = hash := by
  have hpre : forwardLinePrefix.toList.isPrefixOf
      (forwardLinePrefix ++ hash ++ forwardLineSuffix).toList := by
    simp [List.isPrefixOf_iff_prefix]
  rw [forwardHashOf, if_pos hpre, String.toList_append, String.toList_append, List.append_assoc,
    List.drop_left, List.reverse_append, List.drop_left' (by simp), List.reverse_reverse,
    String.ofList_toList]

/-- The rules of the demo table are `-j ACCEPT`. -/
def acceptFragments : Unit → List String := fun _ => ["-j", "ACCEPT"]

/-- A digest function for the demo: 28 zero bytes, whatever it reads. -/
def zeroSha224 : List UInt8 → List UInt8 := fun _ => List.replicate 28 0

/-- The old rule of the table's own in `FORWARD`, with hash `abc`. -/
def forwardOldLine : String := forwardLinePrefix ++ "abc" ++ forwardLineSuffix

/-- A table that inserts one rule into `FORWARD`, which holds only an old rule of its own, as
`loadDataplaneState` read it. -/
def forwardTable : InsertAppendTable Unit where
  insertMode := .insert
  hashCommentPrefix := "cali:"
  chainToInsertedRules := fun _ => [()]
  chainToAppendedRules := fun _ => []
  chainToDataplaneHashes := fun _ => ["abc"]
  chainToFullRules := fun _ => some [forwardOldLine]

theorem forwardHashOf_renderAppend (r : Unit) (hash : String) :
    forwardHashOf (renderAppend acceptFragments r "FORWARD"
      (commentFrag forwardTable.hashCommentPrefix hash)) = hash := by
  have hline : renderAppend acceptFragments r "FORWARD" (commentFrag "cali:" hash) =
      forwardLinePrefix ++ hash ++ forwardLineSuffix := by
    rw [renderAppend, renderInner, if_pos (commentFrag_ne_empty _ _)]
    simp only [List.cons_append, List.nil_append, acceptFragments]
    rw [String.intercalate_cons_cons, String.intercalate_cons_cons, String.intercalate_cons_cons,
      String.intercalate_cons_cons, String.intercalate_singleton]
    unfold commentFrag forwardLinePrefix forwardLineSuffix
    simp only [String.append_assoc]
  exact hline ▸ forwardHashOf_line hash

/-- **The stored lines go stale.** `FORWARD` holds an old rule of the table's own, and the
table inserts one rule: whatever the digest function of SHA-224's size, the pass deletes the old
rule and inserts the new one, so the chain holds one rule with the expected hash, but the lines
stored for it are two. -/
theorem insertAppendChain_forward_stale (sha224 : List UInt8 → List UInt8)
    (hsize : ∀ b, (sha224 b).length = 28) :
    ∃ lines stored, insertAppendChain acceptFragments sha224 forwardTable "FORWARD" =
        .ok (lines, some ((expectedHashesForInsertAppendChain acceptFragments sha224
          forwardTable "FORWARD" 0).1, stored)) ∧
      ∃ chain', execLines [forwardOldLine] lines = some chain' ∧
        chain'.map forwardHashOf = (expectedHashesForInsertAppendChain acceptFragments sha224
          forwardTable "FORWARD" 0).1 ∧
        chain'.length = 1 ∧ stored.length = 2 := by
  have hown : forwardHashOf forwardOldLine = "abc" := forwardHashOf_line "abc"
  -- the old hash is not `HashLength` characters, so the chain is out of step
  have hout : (expectedHashesForInsertAppendChain acceptFragments sha224 forwardTable "FORWARD"
      (numEmptyStrings ([forwardOldLine].map forwardHashOf))).1 ≠
        [forwardOldLine].map forwardHashOf := by
    rw [List.map_singleton, hown]
    intro heq
    have hmem : "abc" ∈ (expectedHashesForInsertAppendChain acceptFragments sha224 forwardTable
        "FORWARD" (numEmptyStrings ["abc"])).1 := by
      rw [heq]
      exact List.mem_singleton_self _
    have hlen := length_of_mem_expectedHashes acceptFragments sha224 forwardTable "FORWARD" _
      hsize hmem (by decide)
    exact absurd hlen (by decide)
  have hsaved : ∀ line ∈ [forwardOldLine], SavedLine line := by
    simp only [List.mem_singleton, forall_eq, forwardOldLine, forwardLinePrefix]
    exact ⟨_, rfl⟩
  obtain ⟨lines, stored, hchain, chain', hexec, hhash, hlen⟩ :=
    insertAppendChain_spec acceptFragments sha224 forwardTable forwardHashOf "FORWARD" hsaved
      (by simp [forwardTable, hown]) (by simp [forwardTable, fullRuleOf, hown])
      forwardHashOf_renderAppend hout
  have hn : numEmptyStrings ([forwardOldLine].map forwardHashOf) = 0 := by
    rw [List.map_singleton, hown]
    rfl
  have hlen' : chain'.length = 1 := by
    have := congrArg List.length hhash
    rw [List.length_map, hn, expectedHashes_eq, List.length_append, InsertMode.length_arrange,
      length_insertedHashes, length_appendedHashes] at this
    simpa [forwardTable] using this
  rw [hn] at hchain hhash
  refine ⟨lines, stored, hchain, chain', hexec, hhash, hlen', ?_⟩
  rw [hlen, hlen', ownRules_cons_of_own _ (by rw [hown]; decide)]
  rfl

/-- The pass at a digest function of SHA-224's size. -/
theorem insertAppendChain_forward_stale_zeroSha224 :
    (∀ b, (zeroSha224 b).length = 28) ∧
      ∃ lines stored, insertAppendChain acceptFragments zeroSha224 forwardTable "FORWARD" =
          .ok (lines, some ((expectedHashesForInsertAppendChain acceptFragments zeroSha224
            forwardTable "FORWARD" 0).1, stored)) ∧
        ∃ chain', execLines [forwardOldLine] lines = some chain' ∧
          chain'.map forwardHashOf = (expectedHashesForInsertAppendChain acceptFragments
            zeroSha224 forwardTable "FORWARD" 0).1 ∧
          chain'.length = 1 ∧ stored.length = 2 :=
  ⟨fun _ => List.length_replicate, insertAppendChain_forward_stale zeroSha224
    fun _ => List.length_replicate⟩

end Felix.Iptables
