import Felix.Collections.IterSet
import Felix.Iptables.InsertAppend
import Mathlib

/-!
# The iptables table: desired chains, refcounts and the writes to the kernel

`Table` (`iptables/table.go`) caches the chains Felix wants in one of the kernel's tables and
brings the table in line with them when `Apply` is called. `UpdateChain` and `RemoveChainByName`
change the chains; `InsertOrAppendRules` and `AppendRules` change the rules hooked into the
kernel's own chains. A chain is programmed only while something refers to it: every rule whose
action jumps to a chain counts one in `chainRefCounts`, each kernel chain of the table counts one
from `NewTable` on, and a chain whose count leaves or reaches zero is marked dirty.
`desiredStateOfChain` is a chain that is both known and referenced.

`applyUpdates` turns the dirty chains into one `iptables-restore` transaction. A first pass
writes a forward reference, which creates a chain or flushes it, for every chain about to be
deleted or not yet in the kernel, and in nftables mode for every chain not already right (the
others leave the dirty set there and then). A second pass compares each desired chain's rule
hashes with the ones the kernel had and writes a replace for each rule whose hash changed,
deletes by index for the rules past the new end, and appends for the new rules. The pass over
the hooked chains comes next (`insertAppendPass`), then the deletes of the chains no longer
wanted, in nftables mode in a second transaction. When `iptables-restore` takes the input the
hashes written are stored as the kernel's; when it fails the cache is marked out of sync, and
the next `Apply` reloads it (`loadDataplaneState`), marking dirty every chain whose hashes in
the kernel are not the cached ones.

Go's sets are `IterSet`s and its maps `AList`s; a loop over either is a fold over its list. A
rule is any type, given with the fragments it renders to and the chain its action refers to.
`iptables-restore` itself is outside the model: `applyUpdates` takes whether it accepted the
input, and `loadDataplaneState` takes the hashes and rule lines `iptables-save` gave.

## Main definitions

* `renderReplace`, `renderDeleteByIndexLine`
* `RestoreInputBuilder` with `startTransaction`, `endTransaction`, `writeForwardReference`,
  `writeLine`
* `Table`, `newTable`, `Table.increfChain`, `Table.decrefChain`, `Table.updateChain`,
  `Table.removeChainByName`, `Table.insertOrAppendRules`, `Table.appendRules`,
  `Table.desiredStateOfChain`
* `forwardReferencePass`, `chainUpdateLines`, `updatePass`, `restoreInput`, `renderUpdates`,
  `Table.applyUpdates`, `Table.loadDataplaneState`
-/

namespace Felix.Iptables

section Render

variable {ρ : Type} (ruleFragments : ρ → List String)

/-- `RenderReplace`: `-R`, the chain and the number of the rule replaced, then the rule. -/
def renderReplace (r : ρ) (chainName : String) (ruleNum : ℕ) (prefixFragment : String) :
    String :=
  renderInner ruleFragments ["-R", chainName, toString ruleNum] prefixFragment r
attribute [grind] renderReplace

end Render

/-- `renderDeleteByIndexLine`: `fmt.Sprintf("-D %s %d", chainName, ruleNum)`. -/
def renderDeleteByIndexLine (chainName : String) (ruleNum : ℕ) : String :=
  "-D " ++ chainName ++ " " ++ toString ruleNum

/-! ## The restore input -/

/-- `RestoreInputBuilder`: the lines written so far, the table of the open transaction (empty
when none is open) and whether the transaction's opener has been written. -/
structure RestoreInputBuilder where
  buf : List String
  currentTableName : String
  txnOpenerWritten : Bool

namespace RestoreInputBuilder

/-- A builder after `Reset`. -/
def reset : RestoreInputBuilder := ⟨[], "", false⟩

/-- `StartTransaction`. -/
def startTransaction (tableName : String) (b : RestoreInputBuilder) :
    Except String RestoreInputBuilder :=
  if b.currentTableName ≠ "" then
    .error "StartTransaction() called without ending previous transaction."
  else .ok { b with currentTableName := tableName, txnOpenerWritten := false }

/-- `EndTransaction`: `COMMIT`, unless nothing was written in the transaction. -/
def endTransaction (b : RestoreInputBuilder) : Except String RestoreInputBuilder :=
  if b.currentTableName = "" then .error "EndTransaction() called without active transaction."
  else .ok { b with
    buf := if b.txnOpenerWritten then b.buf ++ ["COMMIT"] else b.buf
    currentTableName := "" }

/-- `maybeWriteTransactionOpener`: `*table` before the first line of a transaction. -/
def maybeWriteTransactionOpener (b : RestoreInputBuilder) : Except String RestoreInputBuilder :=
  if b.currentTableName = "" then
    .error "maybeWriteTransactionOpener() called without active transaction."
  else if ¬b.txnOpenerWritten then
    .ok { b with buf := b.buf ++ ["*" ++ b.currentTableName], txnOpenerWritten := true }
  else .ok b

/-- `WriteForwardReference`: `:chain - -`. -/
def writeForwardReference (chainName : String) (b : RestoreInputBuilder) :
    Except String RestoreInputBuilder := do
  let b ← b.maybeWriteTransactionOpener
  pure { b with buf := b.buf ++ [":" ++ chainName ++ " - -"] }

/-- `WriteLine`. -/
def writeLine (line : String) (b : RestoreInputBuilder) : Except String RestoreInputBuilder := do
  let b ← b.maybeWriteTransactionOpener
  pure { b with buf := b.buf ++ [line] }

/-- A forward reference for each chain, in order. -/
def writeForwardReferences (chainNames : List String) (b : RestoreInputBuilder) :
    Except String RestoreInputBuilder :=
  chainNames.foldlM (fun b chainName => b.writeForwardReference chainName) b

/-- The lines, in order. -/
def writeLines (lines : List String) (b : RestoreInputBuilder) :
    Except String RestoreInputBuilder :=
  lines.foldlM (fun b line => b.writeLine line) b
attribute [grind] writeLines

end RestoreInputBuilder

/-! ## The table's state -/

/-- The insert mode of `TableOptions`: empty or `insert`, `append`, and any other value panics. -/
def insertModeOf (insertMode : String) : Except String InsertMode :=
  if insertMode = "" ∨ insertMode = "insert" then .ok .insert
  else if insertMode = "append" then .ok .append
  else .error "Unknown insert mode"

/-- `tableToKernelChains`: the chains the kernel creates in each table. -/
def tableToKernelChains (name : String) : List String :=
  if name = "filter" then ["INPUT", "FORWARD", "OUTPUT"]
  else if name = "nat" then ["PREROUTING", "INPUT", "OUTPUT", "POSTROUTING"]
  else if name = "mangle" then ["PREROUTING", "INPUT", "FORWARD", "OUTPUT", "POSTROUTING"]
  else if name = "raw" then ["PREROUTING", "OUTPUT"]
  else []

/-- The fields of `Table` that its operations, `applyUpdates` and `loadDataplaneState` read and
write. A chain is kept as its rules, under its name. -/
structure Table (ρ : Type) where
  /-- `Name`: the table, as `iptables-restore` names it. -/
  name : String
  insertMode : InsertMode
  hashCommentPrefix : String
  /-- Whether `ourChainsRegexp` matches a chain's name: the chains Felix owns. -/
  ourChainsRegexp : String → Bool
  nftablesMode : Bool
  chainToInsertedRules : AList fun _ : String => List ρ
  chainToAppendedRules : AList fun _ : String => List ρ
  dirtyInsertAppend : IterSet String
  chainNameToChain : AList fun _ : String => List ρ
  chainRefCounts : AList fun _ : String => ℤ
  dirtyChains : IterSet String
  inSyncWithDataPlane : Bool
  chainToDataplaneHashes : AList fun _ : String => List String
  chainToFullRules : AList fun _ : String => List String

/-- `NewTable`: no chains yet, and each kernel chain of the table hooked with no rules, marked
dirty so that rules left by an earlier run are cleaned up, and referenced once. The cache starts
out of sync, so the first `Apply` reads the kernel. -/
def newTable {ρ : Type} (name hashPrefix : String) (ourChainsRegexp : String → Bool)
    (insertMode : InsertMode) (nftablesMode : Bool) : Table ρ where
  name := name
  insertMode := insertMode
  hashCommentPrefix := hashPrefix
  ourChainsRegexp := ourChainsRegexp
  nftablesMode := nftablesMode
  chainToInsertedRules := (tableToKernelChains name).foldl (fun m c => m.insert c []) ∅
  chainToAppendedRules := (tableToKernelChains name).foldl (fun m c => m.insert c []) ∅
  dirtyInsertAppend := (tableToKernelChains name).foldl (fun s c => s.add c) ∅
  chainNameToChain := ∅
  chainRefCounts :=
    (tableToKernelChains name).foldl (fun m c => m.insert c ((m.lookup c).getD 0 + 1)) ∅
  dirtyChains := ∅
  inSyncWithDataPlane := false
  chainToDataplaneHashes := ∅
  chainToFullRules := ∅

/-- The two maps of hooked rules: `chainToInsertedRules` and `chainToAppendedRules`. -/
inductive Hook where
  | inserted
  | appended
  deriving DecidableEq, Repr

namespace Table

variable {ρ : Type}

/-- The map of hooked rules of one kind. -/
def hookedRules (t : Table ρ) : Hook → AList fun _ : String => List ρ
  | .inserted => t.chainToInsertedRules
  | .appended => t.chainToAppendedRules

/-- The table with the map of hooked rules of one kind replaced. -/
def setHookedRules (t : Table ρ) : Hook → (AList fun _ : String => List ρ) → Table ρ
  | .inserted, m => { t with chainToInsertedRules := m }
  | .appended, m => { t with chainToAppendedRules := m }

/-- `chainRefCounts[chainName]`: a chain not in the map counts zero. -/
def refCount (t : Table ρ) (chainName : String) : ℤ := (t.chainRefCounts.lookup chainName).getD 0
attribute [grind] refCount

/-! ## Operations -/

section Operations

variable (referredChain : ρ → Option String)

/-- `increfChain`: a chain whose count becomes one is marked dirty, to be programmed. -/
def increfChain (chainName : String) (t : Table ρ) : Table ρ :=
  let n := t.refCount chainName + 1
  { t with
    chainRefCounts := t.chainRefCounts.insert chainName n
    dirtyChains := if n = 1 then t.dirtyChains.add chainName else t.dirtyChains }

/-- `decrefChain`: a chain whose count reaches zero leaves the map and is marked dirty, to be
removed. -/
def decrefChain (chainName : String) (t : Table ρ) : Table ρ :=
  let n := t.refCount chainName - 1
  if n = 0 then
    { t with
      chainRefCounts := t.chainRefCounts.erase chainName
      dirtyChains := t.dirtyChains.add chainName }
  else { t with chainRefCounts := t.chainRefCounts.insert chainName n }

/-- `increfReferredChains`: one incref for each rule whose action is a `Referrer`. -/
def increfReferredChains (rules : List ρ) (t : Table ρ) : Table ρ :=
  rules.foldl (fun t r =>
    match referredChain r with
    | some ref => t.increfChain ref
    | none => t) t

/-- `decrefReferredChains`. -/
def decrefReferredChains (rules : List ρ) (t : Table ρ) : Table ρ :=
  rules.foldl (fun t r =>
    match referredChain r with
    | some ref => t.decrefChain ref
    | none => t) t

/-- `InvalidateDataplaneCache`. -/
def invalidateDataplaneCache (t : Table ρ) : Table ρ :=
  if ¬t.inSyncWithDataPlane then t else { t with inSyncWithDataPlane := false }

/-- The body `InsertOrAppendRules` and `AppendRules` share, over one map of hooked rules: the new
rules replace the old, the chain is marked for the insert and append pass, the chains the new
rules refer to are increfed before the old rules' are decrefed, so that a chain still referred
to is never marked dirty on the way, and the cache is invalidated. -/
def updateHookedRules (hook : Hook) (chainName : String) (rules : List ρ) (t : Table ρ) :
    Table ρ :=
  let oldRules := ((t.hookedRules hook).lookup chainName).getD []
  let t := t.setHookedRules hook ((t.hookedRules hook).insert chainName rules)
  let t := { t with dirtyInsertAppend := t.dirtyInsertAppend.add chainName }
  let t := t.increfReferredChains referredChain rules
  let t := t.decrefReferredChains referredChain oldRules
  t.invalidateDataplaneCache

/-- `InsertOrAppendRules`. -/
def insertOrAppendRules (chainName : String) (rules : List ρ) (t : Table ρ) : Table ρ :=
  t.updateHookedRules referredChain .inserted chainName rules

/-- `AppendRules`. -/
def appendRules (chainName : String) (rules : List ρ) (t : Table ρ) : Table ρ :=
  t.updateHookedRules referredChain .appended chainName rules

/-- `UpdateChain`: the chain's new rules replace its old ones, with the new rules' references
increfed first; the chain is marked dirty when something refers to it. -/
def updateChain (chainName : String) (rules : List ρ) (t : Table ρ) : Table ρ :=
  let t' := t.increfReferredChains referredChain rules
  let t' :=
    match t.chainNameToChain.lookup chainName with
    | some oldRules => t'.decrefReferredChains referredChain oldRules
    | none => t'
  let t' := { t' with chainNameToChain := t'.chainNameToChain.insert chainName rules }
  let t' := if t'.refCount chainName > 0 then
      { t' with dirtyChains := t'.dirtyChains.add chainName }
    else t'
  t'.invalidateDataplaneCache

/-- `UpdateChains`. -/
def updateChains (chains : List (String × List ρ)) (t : Table ρ) : Table ρ :=
  chains.foldl (fun t chain => t.updateChain referredChain chain.1 chain.2) t

/-- `RemoveChainByName`: a known chain is forgotten, marked dirty when something still refers to
it, and its rules' references decrefed. -/
def removeChainByName (name : String) (t : Table ρ) : Table ρ :=
  match t.chainNameToChain.lookup name with
  | some oldRules =>
    let t' : Table ρ := { t with chainNameToChain := t.chainNameToChain.erase name }
    let t' : Table ρ :=
      if t'.refCount name > 0 then { t' with dirtyChains := t'.dirtyChains.add name } else t'
    (t'.decrefReferredChains referredChain oldRules).invalidateDataplaneCache
  | none => t.invalidateDataplaneCache

/-- `RemoveChains`. -/
def removeChains (names : List String) (t : Table ρ) : Table ρ :=
  names.foldl (fun t name => t.removeChainByName referredChain name) t

end Operations

/-- `desiredStateOfChain`: the chain, when it is known and something refers to it. -/
def desiredStateOfChain (t : Table ρ) (chainName : String) : Option (List ρ) :=
  if t.refCount chainName = 0 then none else t.chainNameToChain.lookup chainName
attribute [grind] desiredStateOfChain

/-- The fields `insertAppendPass` reads, a missing key of a map of slices read as an empty
slice. -/
def toInsertAppendTable (t : Table ρ) : InsertAppendTable ρ where
  insertMode := t.insertMode
  hashCommentPrefix := t.hashCommentPrefix
  chainToInsertedRules c := (t.chainToInsertedRules.lookup c).getD []
  chainToAppendedRules c := (t.chainToAppendedRules.lookup c).getD []
  chainToDataplaneHashes c := (t.chainToDataplaneHashes.lookup c).getD []
  chainToFullRules c := t.chainToFullRules.lookup c

end Table

/-! ## `applyUpdates` -/

section Apply

variable {ρ : Type} (ruleFragments : ρ → List String) (sha224 : List UInt8 → List UInt8)
  (t : Table ρ)

/-- `chain.RuleHashes(features)` for the chain `desiredStateOfChain` gives: `nil` when the chain
is not desired. -/
def desiredRuleHashes (chainName : String) : List String :=
  match t.desiredStateOfChain chainName with
  | some rules => ruleHashes ruleFragments sha224 chainName rules
  | none => []
attribute [grind] desiredRuleHashes

/-- The first pass over `dirtyChains`: the chains given a forward reference, and the chains left
in the set. In nftables mode a chain whose cached hashes are non-empty and already the desired
ones leaves the set (`set.RemoveItem`), and every other chain is flushed, to rewrite it whole; in
legacy mode a chain is flushed when it is about to be deleted or the kernel does not have it. -/
def forwardReferencePass : List String → List String × List String
  | [] => ([], [])
  | chainName :: chainNames =>
    let rest := forwardReferencePass chainNames
    let previousHashes := t.chainToDataplaneHashes.lookup chainName
    if t.nftablesMode then
      if (previousHashes.getD []).length > 0 ∧
          desiredRuleHashes ruleFragments sha224 t chainName = previousHashes.getD [] then
        rest
      else (chainName :: rest.1, chainName :: rest.2)
    else if (t.desiredStateOfChain chainName).isNone ∨ previousHashes.isNone then
      (chainName :: rest.1, chainName :: rest.2)
    else (rest.1, chainName :: rest.2)
attribute [grind] forwardReferencePass

/-- The second pass's loop body at rule `i` of a chain: a replace where both hash lists have a
hash and they differ, a delete by index of the rule after the new last one where only the old
list does, an append where only the new list does. -/
def chainUpdateLine (chainName : String) (rules : List ρ)
    (previousHashes currentHashes : List String)
    (i : ℕ) : Option String :=
  match previousHashes[i]?, currentHashes[i]? with
  | some previousHash, some currentHash =>
    if previousHash = currentHash then none
    else (rules[i]?).map fun r =>
      renderReplace ruleFragments r chainName (i + 1) (commentFrag t.hashCommentPrefix currentHash)
  | some _, none => some (renderDeleteByIndexLine chainName (currentHashes.length + 1))
  | none, some currentHash =>
    (rules[i]?).map fun r =>
      renderAppend ruleFragments r chainName (commentFrag t.hashCommentPrefix currentHash)
  | none, none => none
attribute [grind] chainUpdateLine

/-- The loop `for i := 0; i < len(previousHashes) || i < len(currentHashes); i++`. -/
def chainUpdateLines (chainName : String) (rules : List ρ)
    (previousHashes currentHashes : List String) :
    List String :=
  (List.range (max previousHashes.length currentHashes.length)).filterMap
    (chainUpdateLine ruleFragments t chainName rules previousHashes currentHashes)

/-- The hashes the second pass compares a desired chain with: none in nftables mode, where the
chain was flushed, and the cached ones otherwise. -/
def previousHashesOf (chainName : String) : List String :=
  if t.nftablesMode then [] else (t.chainToDataplaneHashes.lookup chainName).getD []
attribute [grind] previousHashesOf

/-- The second pass over the chains left dirty: for each desired chain its lines, and its new
hashes (`newHashes[chainName] = currentHashes`). -/
def updatePass : List String → List String × List (String × List String)
  | [] => ([], [])
  | chainName :: chainNames =>
    let rest := updatePass chainNames
    match t.desiredStateOfChain chainName with
    | some rules =>
      let currentHashes := ruleHashes ruleFragments sha224 chainName rules
      (chainUpdateLines ruleFragments t chainName rules (previousHashesOf t chainName)
          currentHashes ++ rest.1,
        (chainName, currentHashes) :: rest.2)
    | none => rest
attribute [grind] updatePass

/-- The chains the last pass deletes: those left dirty that are not desired. -/
def chainsToDelete (chainNames : List String) : List String :=
  chainNames.filter fun c => (t.desiredStateOfChain c).isNone

/-- The lines of the last pass. -/
def deleteChainLines (chainNames : List String) : List String :=
  chainNames.map fun c => "--delete-chain " ++ c
attribute [grind] deleteChainLines

/-- The buffer `applyUpdates` fills after `Reset`: one transaction with the forward references,
the lines of the passes and the deletes of chains; in nftables mode the deletes go in a second
transaction, which starts with forward references for the chains deleted. -/
def restoreInput (forwardRefs lines toDelete : List String) : Except String (List String) := do
  let b ← RestoreInputBuilder.reset.startTransaction t.name
  let b ← b.writeForwardReferences forwardRefs
  let b ← b.writeLines lines
  let b ← if t.nftablesMode then do
      let b ← b.endTransaction
      let b ← b.startTransaction t.name
      b.writeForwardReferences toDelete
    else pure b
  let b ← b.writeLines (deleteChainLines toDelete)
  let b ← b.endTransaction
  pure b.buf

/-- `newHashes`, written by the second pass, then the pass over the hooked chains, then the
deletes (`nil`, here `none`), a later write to a chain replacing an earlier one. -/
def newHashesOf (updated : List (String × List String))
    (hooked : List (String × List String × List String)) (toDelete : List String) :
    AList fun _ : String => Option (List String) :=
  let m := updated.foldl (fun m u => m.insert u.1 (some u.2)) ∅
  let m := hooked.foldl (fun m u => m.insert u.1 (some u.2.1)) m
  toDelete.foldl (fun m c => m.insert c none) m
attribute [grind] newHashesOf

/-- What `applyUpdates` holds when it is about to run `iptables-restore`. -/
structure PendingUpdates where
  /-- The buffer's lines. -/
  input : List String
  newHashes : AList fun _ : String => Option (List String)
  newChainToFullRules : AList fun _ : String => List String

/-- The passes of `applyUpdates`: the chains left in `dirtyChains` after the first pass, and the
input, hashes and rule lines to store, or the error of a delete that could not be rendered. -/
def renderUpdates : List String × Except String PendingUpdates :=
  let (forwardRefs, dirty) := forwardReferencePass ruleFragments sha224 t t.dirtyChains.toList
  let (lines, updated) := updatePass ruleFragments sha224 t dirty
  let toDelete := chainsToDelete t dirty
  (dirty, do
    let (hookLines, hooked) ←
      insertAppendPass ruleFragments sha224 t.toInsertAppendTable t.dirtyInsertAppend.toList
    let input ← restoreInput t forwardRefs (lines ++ hookLines) toDelete
    pure {
      input
      newHashes := newHashesOf updated hooked toDelete
      newChainToFullRules := hooked.foldl (fun m u => m.insert u.1 u.2.2) t.chainToFullRules })

/-- Storing `newHashes`: a `nil` entry deletes the chain's hashes. -/
def storeHashes (newHashes : AList fun _ : String => Option (List String))
    (hashes : AList fun _ : String => List String) : AList fun _ : String => List String :=
  newHashes.entries.foldl (fun m e =>
    match e.2 with
    | some h => m.insert e.1 h
    | none => m.erase e.1) hashes
attribute [grind] storeHashes

/-- `applyUpdates`, given whether `iptables-restore` accepts the input. A delete that cannot be
rendered returns its error with the table as it was; a failed restore marks the cache out of
sync; otherwise the dirty sets are cleared and the hashes and rule lines stored. An empty input
is not sent at all. In every case the chains the first pass took out of `dirtyChains` stay out. -/
def Table.applyUpdates (restoreSucceeded : Bool) : Table ρ × Except String Unit :=
  let r := renderUpdates ruleFragments sha224 t
  let t' := { t with dirtyChains := t.dirtyChains.filter fun c => decide (c ∈ r.1) }
  match r.2 with
  | .error e => (t', .error e)
  | .ok u =>
    if u.input ≠ [] ∧ ¬restoreSucceeded then
      ({ t' with inSyncWithDataPlane := false }, .error "iptables-restore failed")
    else
      ({ t' with
          dirtyChains := ∅
          dirtyInsertAppend := ∅
          chainToDataplaneHashes := storeHashes u.newHashes t'.chainToDataplaneHashes
          chainToFullRules := u.newChainToFullRules },
        .ok ())

end Apply

/-! ## `loadDataplaneState` -/

section Load

variable {ρ : Type} (ruleFragments : ρ → List String) (sha224 : List UInt8 → List UInt8)
  (dataplaneHashes : AList fun _ : String => List String)

/-- The first loop of `loadDataplaneState`, at one chain of the cache: a chain not already dirty
is marked when the kernel's hashes are not the ones expected. A chain of Felix's must match the
cache exactly; into another chain Felix's inserts and appends are expected, with the kernel's
own rules counted as they are now; a chain with no inserts must have no rule with a hash. -/
def checkCachedChain (t : Table ρ) (chainName : String) (expectedHashes : List String) :
    Table ρ :=
  if chainName ∈ t.dirtyChains ∨ chainName ∈ t.dirtyInsertAppend then t
  else
    let dpHashes := dataplaneHashes.lookup chainName
    if ¬t.ourChainsRegexp chainName then
      let insertedRules := (t.chainToInsertedRules.lookup chainName).getD []
      if insertedRules.length = 0 then
        if (dpHashes.getD []).any (· ≠ "") then
          { t with dirtyInsertAppend := t.dirtyInsertAppend.add chainName }
        else t
      else
        let expected := (expectedHashesForInsertAppendChain ruleFragments sha224
          t.toInsertAppendTable chainName (numEmptyStrings (dpHashes.getD []))).1
        if dpHashes ≠ some expected then
          { t with dirtyInsertAppend := t.dirtyInsertAppend.add chainName }
        else t
    else if dpHashes ≠ some expectedHashes then
      { t with dirtyChains := t.dirtyChains.add chainName }
    else t

/-- The second loop, at one chain of the kernel: a chain not in the cache is marked for cleaning
up, a chain of Felix's always and another chain when it has a rule with a hash. -/
def checkDataplaneChain (t : Table ρ) (chainName : String) (hashes : List String) : Table ρ :=
  if chainName ∈ t.dirtyChains ∨ chainName ∈ t.dirtyInsertAppend then t
  else if (t.chainToDataplaneHashes.lookup chainName).isSome then t
  else if ¬t.ourChainsRegexp chainName then
    if hashes.any (· ≠ "") then { t with dirtyInsertAppend := t.dirtyInsertAppend.add chainName }
    else t
  else { t with dirtyChains := t.dirtyChains.add chainName }

/-- `loadDataplaneState`, given the hashes and rule lines `iptables-save` gave: both loops, then
the cache replaced by what was read. -/
def Table.loadDataplaneState (dataplaneRules : AList fun _ : String => List String)
    (t : Table ρ) : Table ρ :=
  let t := t.chainToDataplaneHashes.entries.foldl
    (fun t e => checkCachedChain ruleFragments sha224 dataplaneHashes t e.1 e.2) t
  let t := dataplaneHashes.entries.foldl (fun t e => checkDataplaneChain t e.1 e.2) t
  { t with
    chainToDataplaneHashes := dataplaneHashes
    chainToFullRules := dataplaneRules
    inSyncWithDataPlane := true }

end Load

end Felix.Iptables
