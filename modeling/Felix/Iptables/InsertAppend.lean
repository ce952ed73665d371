import Felix.Collections.Base64
import Mathlib

/-!
# Hooking rules into the kernel's chains

`Table` (`iptables/table.go`) rewrites the chains it owns whole; into the kernel's own chains it
only inserts and appends rules. For such a chain it keeps the hashes of the chain's rules as it
last saw them, an empty hash for a rule of someone else's (`chainToDataplaneHashes`), and, when
the chain holds a rule of its own, the chain's rule lines as `iptables-save` printed them, with
`-` for the rules of others (`chainToFullRules`). When a chain's hashes are not those its
inserts and appends call for, `applyUpdates` deletes by value every rule with a hash, inserts the
rules to insert again (at the top, last one first, or in append mode at the end), appends the
rules to append, and stores the hashes and rule lines it expects the chain to have.

This module models that pass: one chain (`insertAppendChain`) and the loop over the dirty chains
(`insertAppendPass`). A rule is any type, given with the fragments `renderInner` writes for it
(its comments, match and action); SHA-224 is any function on bytes.

## Main definitions

* `renderInner`, `renderAppend`, `renderInsert`, `commentFrag`, `ruleHashStep`, `ruleHashes`
* `expectedHashesForInsertAppendChain`, `numEmptyStrings`, `replaceFirst`,
  `renderDeleteByValueLine`, `deleteByValueLines`
* `InsertMode.arrange`, `appendRuleLines`, `insertRuleLines`, `insertsWritten`
* `InsertAppendTable`, `insertAppendChain`, `insertAppendPass`
-/

namespace Felix.Iptables

/-- The table's insert mode: the rules to insert go to the top of a chain, or after its rules. -/
inductive InsertMode where
  | insert
  | append
  deriving DecidableEq, Repr

section Render

variable {ρ : Type} (ruleFragments : ρ → List String)

/-- `renderInner`: the fragments so far, the prefix fragment unless it is empty, then the rule's
own comments, match and action, joined by spaces. -/
def renderInner (fragments : List String) (prefixFragment : String) (r : ρ) : String :=
  " ".intercalate
    (fragments ++ (if prefixFragment ≠ "" then [prefixFragment] else []) ++ ruleFragments r)
attribute [grind] renderInner

/-- `RenderAppend`. -/
def renderAppend (r : ρ) (chainName prefixFragment : String) : String :=
  renderInner ruleFragments ["-A", chainName] prefixFragment r
attribute [grind] renderAppend

/-- `RenderInsert`. -/
def renderInsert (r : ρ) (chainName prefixFragment : String) : String :=
  renderInner ruleFragments ["-I", chainName] prefixFragment r

/-- `commentFrag`: the comment that carries a rule's hash. -/
def commentFrag (hashCommentPrefix hash : String) : String :=
  "-m comment --comment \"" ++ hashCommentPrefix ++ hash ++ "\""

/-- `HashLength`. -/
def hashLength : ℕ := 16

/-- One turn of the loop of `Chain.RuleHashes`: the rule's digest chains in the one before, and
its hash is the first `HashLength` characters of the digest in URL-safe base64. -/
def ruleHashStep (sha224 : List UInt8 → List UInt8) (chainName : String)
    (acc : List UInt8 × List String) (r : ρ) : List UInt8 × List String :=
  let hash := sha224 (acc.1 ++ (renderAppend ruleFragments r chainName "HASH").toUTF8.toList)
  (hash, acc.2 ++ [String.ofList ((Base64.rawURLEncodeToString hash).toList.take hashLength)])
attribute [grind] ruleHashStep

/-- `Chain.RuleHashes`: the hashes of the rules, starting from the digest of the chain's name. -/
def ruleHashes (sha224 : List UInt8 → List UInt8) (chainName : String) (rules : List ρ) :
    List String :=
  (rules.foldl (ruleHashStep ruleFragments sha224 chainName) (sha224 chainName.toUTF8.toList, [])).2

/-- `calculateRuleHashes`: the hashes of the rules as a chain of the given name. -/
def calculateRuleHashes (sha224 : List UInt8 → List UInt8) (chainName : String)
    (rules : List ρ) : List String :=
  ruleHashes ruleFragments sha224 chainName rules
attribute [grind] calculateRuleHashes

end Render

/-- Where the rules to insert go: before the chain's others (`append(insertRuleLines,
newRules...)`), or after them in append mode. -/
def InsertMode.arrange {α : Type} : InsertMode → List α → List α → List α
  | .insert, ins, others => ins ++ others
  | .append, ins, others => others ++ ins
attribute [grind] InsertMode.arrange

section Lines

variable {ρ : Type} (ruleFragments : ρ → List String)

/-- The lines of the rules to append, each with the comment of its hash. -/
def appendRuleLines (hashCommentPrefix chainName : String) (rules : List ρ)
    (hashes : List String) : List String :=
  List.zipWith (fun r hash =>
    renderAppend ruleFragments r chainName (commentFrag hashCommentPrefix hash)) rules hashes
attribute [grind] appendRuleLines

/-- `insertRuleLines`: the lines of the rules to insert, `RenderInsert` lines in insert mode and
`RenderAppend` lines in append mode. -/
def insertRuleLines (mode : InsertMode) (hashCommentPrefix chainName : String) (rules : List ρ)
    (hashes : List String) : List String :=
  match mode with
  | .insert => List.zipWith (fun r hash =>
      renderInsert ruleFragments r chainName (commentFrag hashCommentPrefix hash)) rules hashes
  | .append => appendRuleLines ruleFragments hashCommentPrefix chainName rules hashes
attribute [grind] insertRuleLines

/-- The order the lines of the rules to insert are written in: each insert goes to the top of the
chain, so they are written last one first. -/
def insertsWritten (mode : InsertMode) (lines : List String) : List String :=
  match mode with
  | .insert => lines.reverse
  | .append => lines

end Lines

/-- `numEmptyStrings`. -/
def numEmptyStrings (strs : List String) : ℕ := strs.count ""

/-- The loop `for i, hash := range hashes { allHashes[i+offset] = hash }`. -/
def writeAt : ℕ → List String → List String → List String
  | _, [], allHashes => allHashes
  | offset, hash :: hashes, allHashes => writeAt (offset + 1) hashes (allHashes.set offset hash)

/-- The fields of `Table` the pass reads. A missing entry of `chainToInsertedRules`,
`chainToAppendedRules` or `chainToDataplaneHashes` reads as the empty list, as a missing key of
a Go map of slices does; for `chainToFullRules` the difference shows in
`renderDeleteByValueLine`. -/
structure InsertAppendTable (ρ : Type) where
  insertMode : InsertMode
  hashCommentPrefix : String
  chainToInsertedRules : String → List ρ
  chainToAppendedRules : String → List ρ
  chainToDataplaneHashes : String → List String
  chainToFullRules : String → Option (List String)

section Pass

variable {ρ : Type} (ruleFragments : ρ → List String) (sha224 : List UInt8 → List UInt8)
  (t : InsertAppendTable ρ)

/-- `expectedHashesForInsertAppendChain`: the hashes the chain should have, with those of the
rules to insert and to append. -/
def expectedHashesForInsertAppendChain (chainName : String) (numNonCalicoRules : ℕ) :
    List String × List String × List String :=
  let insertedRules := t.chainToInsertedRules chainName
  let appendedRules := t.chainToAppendedRules chainName
  let ourInsertedHashes :=
    if insertedRules.length > 0 then
      calculateRuleHashes ruleFragments sha224 chainName insertedRules
    else []
  -- `*appends*` keeps an appended rule's hash apart from the same rule inserted
  let ourAppendedHashes :=
    if appendedRules.length > 0 then
      calculateRuleHashes ruleFragments sha224 (chainName ++ "*appends*") appendedRules
    else []
  let offset := if t.insertMode = .append then numNonCalicoRules else 0
  let allHashes :=
    List.replicate (insertedRules.length + appendedRules.length + numNonCalicoRules) ""
  let allHashes := writeAt offset ourInsertedHashes allHashes
  let allHashes := writeAt (insertedRules.length + numNonCalicoRules) ourAppendedHashes allHashes
  (allHashes, ourInsertedHashes, ourAppendedHashes)
attribute [grind] expectedHashesForInsertAppendChain

/-- `strings.Replace(s, old, new, 1)` for a non-empty `old`: its first occurrence replaced. -/
def replaceFirst (old new : List Char) : List Char → List Char
  | [] => []
  | c :: cs =>
    if old.isPrefixOf (c :: cs) then new ++ (c :: cs).drop old.length
    else c :: replaceFirst old new cs

/-- `renderDeleteByValueLine`: the stored line of the rule at `ruleNum`, with its `-A` made a
`-D`. -/
def renderDeleteByValueLine (chainName : String) (ruleNum : ℕ) : Except String String :=
  match t.chainToFullRules chainName with
  | some rules =>
    if h : ruleNum < rules.length then
      .ok (String.ofList (replaceFirst "-A".toList "-D".toList rules[ruleNum].toList))
    else .error ("Rendering delete for non-existent rule: Rule " ++ toString ruleNum ++
      " in \"" ++ chainName ++ "\"")
  | none => .error ("Rendering delete for non-existent rule: Rule " ++ toString ruleNum ++
      " in \"" ++ chainName ++ "\"")

/-- The deletes of the pass: a delete by value for each rule with a hash, from rule `i` on, in
the chain's order; the first that cannot be rendered stops the pass. -/
def deleteByValueLines (chainName : String) : ℕ → List String → Except String (List String)
  | _, [] => .ok []
  | i, hash :: hashes =>
    if hash ≠ "" then do
      let line ← renderDeleteByValueLine t chainName i
      let lines ← deleteByValueLines chainName (i + 1) hashes
      pure (line :: lines)
    else deleteByValueLines chainName (i + 1) hashes

/-- One chain of the pass over `dirtyInsertAppend`: the lines written to `iptables-restore`, and,
when the chain was out of step, the hashes and the rule lines stored for it (`newHashes` and
`newChainToFullRules`). -/
def insertAppendChain (chainName : String) :
    Except String (List String × Option (List String × List String)) :=
  let previousHashes := t.chainToDataplaneHashes chainName
  let expected := expectedHashesForInsertAppendChain ruleFragments sha224 t chainName
    (numEmptyStrings previousHashes)
  if expected.1 = previousHashes then .ok ([], none)
  else do
    let deletes ← deleteByValueLines t chainName 0 previousHashes
    -- the copy of the chain's stored lines, without the empty ones
    let newRules := ((t.chainToFullRules chainName).getD []).filter (· ≠ "")
    let rules := t.chainToInsertedRules chainName
    let insertLines := insertRuleLines ruleFragments t.insertMode t.hashCommentPrefix chainName
      rules expected.2.1
    let newRules :=
      if rules.length > 0 then t.insertMode.arrange insertLines newRules else newRules
    let appended := t.chainToAppendedRules chainName
    let appendLines := appendRuleLines ruleFragments t.hashCommentPrefix chainName appended
      expected.2.2
    let newRules := if appended.length > 0 then newRules ++ appendLines else newRules
    pure (deletes ++ (if rules.length > 0 then insertsWritten t.insertMode insertLines else []) ++
        (if appended.length > 0 then appendLines else []),
      some (expected.1, newRules))

/-- The pass over the dirty chains, in the order the set is iterated: the lines of each chain in
turn, and for each chain that was out of step its new hashes and rule lines. -/
def insertAppendPass :
    List String → Except String (List String × List (String × List String × List String))
  | [] => .ok ([], [])
  | chainName :: chainNames => do
    let r ← insertAppendChain ruleFragments sha224 t chainName
    let rest ← insertAppendPass chainNames
    pure (r.1 ++ rest.1, (r.2.map fun s => (chainName, s.1, s.2)).toList ++ rest.2)

end Pass

end Felix.Iptables
