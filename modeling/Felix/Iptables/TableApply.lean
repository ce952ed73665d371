import Felix.Collections.AListFold
import Felix.Iptables.InsertAppendSpec
import Felix.Iptables.Restore
import Mathlib

/-!
# What `applyUpdates` does to the kernel's chains

The second pass of `applyUpdates` is a positional diff of a chain's rule hashes: the lines it
writes for a chain read back as the commands of `ListEdit.diffEdits` over the hashes the cache
has and the hashes of the desired rules (`map_parse_chainUpdateLines`). Run on the chain the
kernel holds, as long as the cache has as many hashes as the chain has rules, they leave it as
`ListEdit.diffResult` leaves it: the rule of the new rendering at each position whose hash
changed or is new, and the kernel's own rule at each position whose hash did not change
(`runOn_chainUpdateLines`). Where each of the kernel's rules carries the hash the cache says, the
chain then carries exactly the desired hashes (`map_hashOf_diffResult`); where each rule kept is
also the rule its hash stands for, the chain is the desired chain rendered
(`diffResult_eq_rendered`).

## Main definitions

* `updateBody`: the rule the second pass writes at a position

## Main results

* `map_parse_chainUpdateLines`, `runOn_chainUpdateLines`
* `map_hashOf_diffResult`, `diffResult_eq_rendered`
-/

namespace Felix.Iptables

section ChainUpdate

variable {ρ : Type} (ruleFragments : ρ → List String) (t : Table ρ)

/-- The rule the second pass writes at position `i` of a chain: the desired rule there, with the
comment of its hash. -/
def updateBody (rules : List ρ) (currentHashes : List String) (i : ℕ) : String :=
  match rules[i]?, currentHashes[i]? with
  | some r, some hash => ruleBody ruleFragments r (commentFrag t.hashCommentPrefix hash)
  | _, _ => ""
attribute [grind] updateBody

theorem savedLine_ruleBody (r : ρ) (c : String) {p : String} (hp : p ≠ "") :
    savedLine c (ruleBody ruleFragments r p) = renderAppend ruleFragments r c p := by
  rw [renderAppend, renderInner_eq ruleFragments (by simp) r hp, savedLine]
  simp [String.append_assoc]

variable {chainName : String} {rules : List ρ} {previousHashes currentHashes : List String}

theorem updateBody_of_lt (hlen : rules.length = currentHashes.length) {i : ℕ}
    (hi : i < currentHashes.length) :
    updateBody ruleFragments t rules currentHashes i =
      ruleBody ruleFragments rules[i] (commentFrag t.hashCommentPrefix currentHashes[i]) := by
  rw [updateBody, List.getElem?_eq_getElem (by omega), List.getElem?_eq_getElem hi]

/-- At each position, the line the second pass writes reads back as the command of the edit the
diff makes there. -/
theorem parse_chainUpdateLine (hlen : rules.length = currentHashes.length)
    (hc : ' ' ∉ chainName.toList) (i : ℕ) :
    (chainUpdateLine ruleFragments t chainName rules previousHashes currentHashes i).map
        parseRestoreLine =
      (ListEdit.diffEdit previousHashes currentHashes
        (updateBody ruleFragments t rules currentHashes) i).map (some ∘ editCmd chainName) := by
  have hfrag := commentFrag_ne_empty t.hashCommentPrefix
  rcases hp : previousHashes[i]? with _ | previousHash <;>
    rcases hcur : currentHashes[i]? with _ | currentHash
  · simp [chainUpdateLine, ListEdit.diffEdit, hp, hcur]
  · -- only the desired chain has a rule here: an append
    have hi : i < currentHashes.length := (List.getElem?_eq_some_iff.mp hcur).1
    have hr : rules[i]? = some rules[i] := List.getElem?_eq_getElem (by omega)
    simp [chainUpdateLine, ListEdit.diffEdit, updateBody, hp, hcur, hr, editCmd,
      parse_renderAppend ruleFragments _ hc (hfrag _)]
  · -- only the kernel's chain has a rule here: a delete after the new last rule
    simp [chainUpdateLine, ListEdit.diffEdit, hp, hcur, editCmd,
      parse_renderDeleteByIndexLine hc]
  · -- both have a rule: a replace when the hashes differ
    have hi : i < currentHashes.length := (List.getElem?_eq_some_iff.mp hcur).1
    have hr : rules[i]? = some rules[i] := List.getElem?_eq_getElem (by omega)
    by_cases heq : previousHash = currentHash
    · simp [chainUpdateLine, ListEdit.diffEdit, hp, hcur, heq]
    · simp [chainUpdateLine, ListEdit.diffEdit, updateBody, hp, hcur, hr, heq, editCmd,
        parse_renderReplace ruleFragments _ hc _ (hfrag _)]

/-- **The second pass's lines for a chain read back as the diff's edit script.** -/
theorem map_parse_chainUpdateLines (hlen : rules.length = currentHashes.length)
    (hc : ' ' ∉ chainName.toList) :
    (chainUpdateLines ruleFragments t chainName rules previousHashes currentHashes).map
        parseRestoreLine =
      ((ListEdit.diffEdits previousHashes currentHashes
        (updateBody ruleFragments t rules currentHashes)).map (editCmd chainName)).map some := by
  rw [chainUpdateLines, ListEdit.diffEdits, List.map_map, List.map_filterMap, List.map_filterMap]
  exact List.filterMap_congr fun i _ => parse_chainUpdateLine ruleFragments t hlen hc i

/-- **What the second pass does to a chain**: run on a chain with one rule for each cached hash,
its lines leave the chain as `diffResult`. -/
theorem runOn_chainUpdateLines (hlen : rules.length = currentHashes.length)
    (hc : ' ' ∉ chainName.toList) {cmds : List RestoreCmd}
    (hcmds : (chainUpdateLines ruleFragments t chainName rules previousHashes currentHashes).map
      parseRestoreLine = cmds.map some)
    {chain : List String} (hchain : chain.length = previousHashes.length) :
    runOn chainName (some chain) cmds =
      some (some (ListEdit.diffResult previousHashes currentHashes
        (updateBody ruleFragments t rules currentHashes) chain)) := by
  have hcmds' : cmds = (ListEdit.diffEdits previousHashes currentHashes
      (updateBody ruleFragments t rules currentHashes)).map (editCmd chainName) :=
    List.map_injective_iff.mpr (Option.some_injective _)
      (hcmds.symm.trans (map_parse_chainUpdateLines ruleFragments t hlen hc))
  rw [hcmds', runOn_map_editCmd, ListEdit.applyAll_diffEdits _ _ _ _ hchain, Option.map_some]

/-- Where each of the kernel's rules carries the hash the cache has for it, the chain after the
second pass carries the desired hashes. -/
theorem map_hashOf_diffResult (hashOf : String → String)
    (hread : ∀ r hash, hashOf (renderAppend ruleFragments r chainName
      (commentFrag t.hashCommentPrefix hash)) = hash)
    (hlen : rules.length = currentHashes.length) {chain : List String}
    (hchain : chain.map (hashOf ∘ savedLine chainName) = previousHashes) :
    (ListEdit.diffResult previousHashes currentHashes
      (updateBody ruleFragments t rules currentHashes) chain).map (hashOf ∘ savedLine chainName) =
      currentHashes := by
  apply ListEdit.map_diffResult _ _ _ _ hchain
  intro i hi
  rw [Function.comp_apply, updateBody_of_lt ruleFragments t hlen hi,
    savedLine_ruleBody _ _ _ (commentFrag_ne_empty _ _), hread, List.getElem?_eq_getElem hi]

/-- Where, moreover, each rule the pass keeps is the desired rule its hash stands for, the chain
after the second pass is the desired chain rendered. -/
theorem diffResult_eq_rendered {chain : List String}
    (hkept : ∀ i < currentHashes.length, previousHashes[i]? = currentHashes[i]? →
      chain[i]? = some (updateBody ruleFragments t rules currentHashes i)) :
    ListEdit.diffResult previousHashes currentHashes
        (updateBody ruleFragments t rules currentHashes) chain =
      (List.range currentHashes.length).map (updateBody ruleFragments t rules currentHashes) := by
  unfold ListEdit.diffResult
  apply List.map_congr_left
  intro i hi
  rw [List.mem_range] at hi
  split_ifs with heq
  · rw [List.getD_eq_getElem?_getD, hkept i hi heq, Option.getD_some]
  · rfl

end ChainUpdate

/-! ## The restore input -/

/-- The line `WriteForwardReference` writes for a chain. -/
def forwardReferenceLine (chainName : String) : String := ":" ++ chainName ++ " - -"
attribute [grind] forwardReferenceLine

/-- A transaction as the builder leaves it: nothing when no line was written in it, else the
table's opener, the lines and `COMMIT`. -/
def transaction (tableName : String) (lines : List String) : List String :=
  if lines = [] then [] else ("*" ++ tableName) :: lines ++ ["COMMIT"]
attribute [grind] transaction

namespace RestoreInputBuilder

theorem writeLines_append (lines lines' : List String) (b : RestoreInputBuilder) :
    writeLines (lines ++ lines') b = writeLines lines b >>= writeLines lines' := by
  simp only [writeLines, List.foldlM_append]
  rfl

theorem writeForwardReferences_eq (chainNames : List String) (b : RestoreInputBuilder) :
    writeForwardReferences chainNames b =
      writeLines (chainNames.map forwardReferenceLine) b := by
  rw [writeForwardReferences, writeLines, List.foldlM_map]
  rfl

theorem startTransaction_closed (tableName : String) (buf : List String) (written : Bool) :
    startTransaction tableName ⟨buf, "", written⟩ = .ok ⟨buf, tableName, false⟩ := by
  simp [startTransaction]

variable {tableName : String} (hname : tableName ≠ "")
include hname

theorem writeLine_open (line : String) (buf : List String) (written : Bool) :
    writeLine line ⟨buf, tableName, written⟩ =
      .ok ⟨buf ++ (if written then [] else ["*" ++ tableName]) ++ [line], tableName, true⟩ := by
  cases written <;> simp [writeLine, maybeWriteTransactionOpener, hname]

/-- In an open transaction the lines follow the opener, which is written before the first line
of the transaction and only then. -/
theorem writeLines_open : ∀ (lines buf : List String) (written : Bool),
    writeLines lines ⟨buf, tableName, written⟩ =
      .ok ⟨buf ++ (if written ∨ lines = [] then [] else ["*" ++ tableName]) ++ lines, tableName,
        written || !lines.isEmpty⟩
  | [], buf, written => by simp [writeLines]; rfl
  | line :: lines, buf, written => by
    have hstep : writeLines (line :: lines) ⟨buf, tableName, written⟩ =
        writeLines lines
          ⟨buf ++ (if written then [] else ["*" ++ tableName]) ++ [line], tableName, true⟩ := by
      rw [writeLines, List.foldlM_cons, writeLine_open hname]
      rfl
    rw [hstep, writeLines_open lines]
    cases written <;> simp

theorem endTransaction_open (buf : List String) (written : Bool) :
    endTransaction ⟨buf, tableName, written⟩ =
      .ok ⟨if written then buf ++ ["COMMIT"] else buf, "", written⟩ := by
  simp [endTransaction, hname]

/-- A transaction from a closed builder: the lines written in it, as `transaction` lays them
out. -/
theorem writeTransaction (buf lines : List String) (written : Bool) :
    (startTransaction tableName ⟨buf, "", written⟩ >>= writeLines lines >>= endTransaction) =
      .ok ⟨buf ++ transaction tableName lines, "", !lines.isEmpty⟩ := by
  rw [startTransaction_closed]
  simp only [bind, Except.bind, writeLines_open hname, endTransaction_open hname, transaction]
  cases lines <;> simp

end RestoreInputBuilder

section Input

variable {ρ : Type} (t : Table ρ)

/-- **The input `applyUpdates` sends**: one transaction with the forward references, the lines
of the passes and the deletes of chains, or in nftables mode two, the second with forward
references for the chains it deletes. -/
theorem restoreInput_eq (hname : t.name ≠ "") (forwardRefs lines toDelete : List String) :
    restoreInput t forwardRefs lines toDelete =
      .ok (if t.nftablesMode then
          transaction t.name (forwardRefs.map forwardReferenceLine ++ lines) ++
            transaction t.name (toDelete.map forwardReferenceLine ++ deleteChainLines toDelete)
        else transaction t.name
          (forwardRefs.map forwardReferenceLine ++ lines ++ deleteChainLines toDelete)) := by
  rw [restoreInput]
  simp only [RestoreInputBuilder.reset, RestoreInputBuilder.startTransaction_closed,
    RestoreInputBuilder.writeForwardReferences_eq, bind, Except.bind,
    RestoreInputBuilder.writeLines_open hname, RestoreInputBuilder.endTransaction_open hname,
    pure, Except.pure]
  cases t.nftablesMode <;> simp [transaction, deleteChainLines] <;> split_ifs <;> simp_all

end Input

/-! ## The passes over the dirty chains -/

section Passes

variable {ρ : Type} (ruleFragments : ρ → List String) (sha224 : List UInt8 → List UInt8)
  (t : Table ρ)

/-- A chain the first pass takes out of the dirty set: in nftables mode, one whose cached
hashes are there and already the desired ones. -/
def AlreadyProgrammed (chainName : String) : Prop :=
  t.nftablesMode = true ∧ 0 < ((t.chainToDataplaneHashes.lookup chainName).getD []).length ∧
    desiredRuleHashes ruleFragments sha224 t chainName =
      (t.chainToDataplaneHashes.lookup chainName).getD []

/-- A chain the first pass flushes, of those it keeps: every chain in nftables mode, and
otherwise one to delete or one the kernel does not have. -/
def Flushed (chainName : String) : Prop :=
  t.nftablesMode = true ∨ t.desiredStateOfChain chainName = none ∨
    t.chainToDataplaneHashes.lookup chainName = none
attribute [grind] Flushed

/-- The first pass, chain by chain: a chain stays dirty unless already programmed, and gets a
forward reference when it stays and is flushed. -/
theorem mem_forwardReferencePass (chainName : String) :
    ∀ l : List String,
      (chainName ∈ (forwardReferencePass ruleFragments sha224 t l).2 ↔
        chainName ∈ l ∧ ¬AlreadyProgrammed ruleFragments sha224 t chainName) ∧
      (chainName ∈ (forwardReferencePass ruleFragments sha224 t l).1 ↔
        chainName ∈ l ∧ ¬AlreadyProgrammed ruleFragments sha224 t chainName ∧
          Flushed t chainName)
  | [] => by simp [forwardReferencePass]
  | c :: l => by
    obtain ⟨ih₂, ih₁⟩ := mem_forwardReferencePass chainName l
    by_cases hc : c = chainName
    · subst hc
      by_cases hnft : t.nftablesMode = true
      · by_cases hp : AlreadyProgrammed ruleFragments sha224 t c
        · have hif : (0 < ((t.chainToDataplaneHashes.lookup c).getD []).length ∧
              desiredRuleHashes ruleFragments sha224 t c =
                (t.chainToDataplaneHashes.lookup c).getD []) := hp.2
          simp [forwardReferencePass, hnft, hif, hp, ih₁, ih₂]
        · have hif : ¬(0 < ((t.chainToDataplaneHashes.lookup c).getD []).length ∧
              desiredRuleHashes ruleFragments sha224 t c =
                (t.chainToDataplaneHashes.lookup c).getD []) := fun h => hp ⟨hnft, h⟩
          simp only [forwardReferencePass, hnft, if_true, gt_iff_lt, hif, if_false]
          simp [hp, Flushed, hnft]
      · have hp : ¬AlreadyProgrammed ruleFragments sha224 t c := fun h => hnft h.1
        simp only [forwardReferencePass, hnft, Bool.false_eq_true, if_false]
        split_ifs with hflush <;>
          simp_all [Flushed, Option.isNone_iff_eq_none]
    · simp only [forwardReferencePass]
      split_ifs <;> simp [Ne.symm hc, ih₁, ih₂]

theorem forwardReferencePass_snd_sublist :
    ∀ l : List String, (forwardReferencePass ruleFragments sha224 t l).2.Sublist l
  | [] => List.Sublist.slnil
  | c :: l => by
    have ih := forwardReferencePass_snd_sublist l
    simp only [forwardReferencePass]
    split_ifs
    · exact ih.cons c
    · exact ih.cons_cons c
    · exact ih.cons_cons c
    · exact ih.cons_cons c

theorem forwardReferencePass_fst_sublist :
    ∀ l : List String, (forwardReferencePass ruleFragments sha224 t l).1.Sublist l
  | [] => List.Sublist.slnil
  | c :: l => by
    have ih := forwardReferencePass_fst_sublist l
    simp only [forwardReferencePass]
    split_ifs
    · exact ih.cons c
    · exact ih.cons_cons c
    · exact ih.cons_cons c
    · exact ih.cons c

/-- The lines the second pass writes for one chain: its edit script, when it is desired. -/
def chainPassLines (chainName : String) : List String :=
  match t.desiredStateOfChain chainName with
  | some rules => chainUpdateLines ruleFragments t chainName rules (previousHashesOf t chainName)
      (ruleHashes ruleFragments sha224 chainName rules)
  | none => []
attribute [grind] chainPassLines

/-- The second pass writes the chains' lines one chain after the other. -/
theorem updatePass_fst : ∀ l : List String,
    (updatePass ruleFragments sha224 t l).1 = l.flatMap (chainPassLines ruleFragments sha224 t)
  | [] => rfl
  | c :: l => by
    rw [List.flatMap_cons, ← updatePass_fst l]
    cases h : t.desiredStateOfChain c <;> simp [updatePass, chainPassLines, h]

/-- The hashes the second pass records: the desired hashes of each desired chain it visits. -/
theorem mem_updatePass_snd (c : String) (hashes : List String) : ∀ l : List String,
    (c, hashes) ∈ (updatePass ruleFragments sha224 t l).2 ↔
      c ∈ l ∧ ∃ rules, t.desiredStateOfChain c = some rules ∧
        hashes = ruleHashes ruleFragments sha224 c rules
  | [] => by simp [updatePass]
  | d :: l => by
    have ih := mem_updatePass_snd c hashes l
    by_cases hdc : d = c
    · subst hdc
      cases h : t.desiredStateOfChain d <;> simp [updatePass, h, ih]
    · cases h : t.desiredStateOfChain d <;> simp [updatePass, h, ih, Ne.symm hdc]

theorem updatePass_snd_keys_sublist : ∀ l : List String,
    ((updatePass ruleFragments sha224 t l).2.map Prod.fst).Sublist l
  | [] => List.Sublist.slnil
  | c :: l => by
    have ih := updatePass_snd_keys_sublist l
    cases h : t.desiredStateOfChain c
    · simpa [updatePass, h] using ih.cons c
    · simpa [updatePass, h] using ih.cons_cons c

/-- Every line the second pass writes for a chain names that chain. -/
theorem parse_chainPassLines {d : String} (hd : ' ' ∉ d.toList) :
    ∀ line ∈ chainPassLines ruleFragments sha224 t d,
      ∃ cmd, parseRestoreLine line = some cmd ∧ cmd.chain? = some d := by
  intro line hline
  unfold chainPassLines at hline
  split at hline
  · rename_i rules _
    have hparse : (chainUpdateLines ruleFragments t d rules (previousHashesOf t d)
        (ruleHashes ruleFragments sha224 d rules)).map parseRestoreLine = _ :=
      map_parse_chainUpdateLines ruleFragments t
        (length_ruleHashes ruleFragments sha224 d rules).symm
        hd
    have hmem := List.mem_map_of_mem (f := parseRestoreLine) hline
    rw [hparse, List.map_map] at hmem
    obtain ⟨e, -, he⟩ := List.mem_map.mp hmem
    exact ⟨editCmd d e, he.symm, by cases e <;> rfl⟩
  · simp at hline

end Passes

/-! ## The lines of the pass over the hooked chains -/

section Hooks

variable {ρ : Type} (ruleFragments : ρ → List String) (sha224 : List UInt8 → List UInt8)
  (t : InsertAppendTable ρ)

/-- A line the pass over the hooked chains writes for a chain: the delete of one of the chain's
stored lines, or one of the table's rules rendered into the chain with its hash comment. -/
def HookLineOf (chainName line : String) : Prop :=
  (∃ stored, t.chainToFullRules chainName = some stored ∧
    ∃ l ∈ stored, line = deleteLine l) ∨
    (∃ r hash, line = renderInsert ruleFragments r chainName
      (commentFrag t.hashCommentPrefix hash)) ∨
    (∃ r hash, line = renderAppend ruleFragments r chainName
      (commentFrag t.hashCommentPrefix hash))

theorem renderDeleteByValueLine_ok {chainName : String} {i : ℕ} {line : String}
    (h : renderDeleteByValueLine t chainName i = .ok line) :
    ∃ stored, t.chainToFullRules chainName = some stored ∧
      ∃ l ∈ stored, line = deleteLine l := by
  unfold renderDeleteByValueLine at h
  split at h
  · rename_i stored hstored
    split_ifs at h with hi
    · cases h
      exact ⟨stored, hstored, stored[i], List.getElem_mem hi, rfl⟩
  · cases h

theorem mem_deleteByValueLines {chainName : String} :
    ∀ {i : ℕ} {hashes lines : List String},
      deleteByValueLines t chainName i hashes = .ok lines →
      ∀ line ∈ lines, ∃ stored, t.chainToFullRules chainName = some stored ∧
        ∃ l ∈ stored, line = deleteLine l
  | i, [], lines, h => by
    rw [deleteByValueLines] at h
    cases h
    simp
  | i, hash :: hashes, lines, h => by
    rw [deleteByValueLines] at h
    split_ifs at h
    · cases hr : renderDeleteByValueLine t chainName i with
      | error e => simp [hr, bind, Except.bind] at h
      | ok line =>
        cases hrest : deleteByValueLines t chainName (i + 1) hashes with
        | error e => simp [hr, hrest, bind, Except.bind] at h
        | ok rest =>
          simp only [hr, hrest, bind, Except.bind, pure, Except.pure, Except.ok.injEq] at h
          subst h
          intro l hl
          rcases List.mem_cons.mp hl with rfl | hl
          · exact renderDeleteByValueLine_ok t hr
          · exact mem_deleteByValueLines hrest l hl
    · exact mem_deleteByValueLines h

theorem mem_insertsWritten {mode : InsertMode} {hashCommentPrefix chainName line : String}
    {rules : List ρ} {hashes : List String}
    (h : line ∈ insertsWritten mode
      (insertRuleLines ruleFragments mode hashCommentPrefix chainName rules hashes)) :
    (∃ r hash,
      line = renderInsert ruleFragments r chainName (commentFrag hashCommentPrefix hash)) ∨
      (∃ r hash, line = renderAppend ruleFragments r chainName
        (commentFrag hashCommentPrefix hash)) := by
  cases mode with
  | insert =>
    rw [insertsWritten, List.mem_reverse] at h
    obtain ⟨i, hi, rfl⟩ := List.getElem_of_mem h
    simp only [insertRuleLines, List.getElem_zipWith]
    exact Or.inl ⟨_, _, rfl⟩
  | append =>
    obtain ⟨i, hi, rfl⟩ := List.getElem_of_mem h
    simp only [insertsWritten, insertRuleLines, appendRuleLines, List.getElem_zipWith]
    exact Or.inr ⟨_, _, rfl⟩

/-- Every line the pass writes for a chain is a delete of a stored line or a rendered rule. -/
theorem mem_insertAppendChain {chainName : String} {lines : List String}
    {o : Option (List String × List String)}
    (h : insertAppendChain ruleFragments sha224 t chainName = .ok (lines, o)) :
    ∀ line ∈ lines, HookLineOf ruleFragments t chainName line := by
  unfold insertAppendChain at h
  dsimp only at h
  split at h
  · cases h
    simp
  · cases hdel : deleteByValueLines t chainName 0 (t.chainToDataplaneHashes chainName) with
    | error e => simp [hdel, bind, Except.bind] at h
    | ok deletes =>
      simp only [hdel, bind, Except.bind, pure, Except.pure, Except.ok.injEq,
        Prod.mk.injEq] at h
      obtain ⟨rfl, -⟩ := h
      intro line hline
      simp only [List.mem_append] at hline
      rcases hline with (hl | hl) | hl
      · exact Or.inl (mem_deleteByValueLines t hdel line hl)
      · split_ifs at hl
        · exact Or.inr (mem_insertsWritten ruleFragments hl)
        · simp at hl
      · split_ifs at hl
        · obtain ⟨i, hi, rfl⟩ := List.getElem_of_mem hl
          simp only [appendRuleLines, List.getElem_zipWith]
          exact Or.inr (Or.inr ⟨_, _, rfl⟩)
        · simp at hl

/-- The pass over a list of chains writes lines of those chains, and records only them. -/
theorem mem_insertAppendPass :
    ∀ {l lines : List String} {hooked : List (String × List String × List String)},
      insertAppendPass ruleFragments sha224 t l = .ok (lines, hooked) →
        (∀ line ∈ lines, ∃ d ∈ l, HookLineOf ruleFragments t d line) ∧
          ∀ u ∈ hooked, u.1 ∈ l
  | [], lines, hooked, h => by
    rw [insertAppendPass] at h
    cases h
    simp
  | d :: l, lines, hooked, h => by
    rw [insertAppendPass] at h
    cases hd : insertAppendChain ruleFragments sha224 t d with
    | error e => simp [hd, bind, Except.bind] at h
    | ok r =>
      cases hrest : insertAppendPass ruleFragments sha224 t l with
      | error e => simp [hd, hrest, bind, Except.bind] at h
      | ok rest =>
        simp only [hd, hrest, bind, Except.bind, pure, Except.pure, Except.ok.injEq,
          Prod.mk.injEq] at h
        obtain ⟨rfl, rfl⟩ := h
        obtain ⟨ihl, ihh⟩ := mem_insertAppendPass hrest
        refine ⟨fun line hline => ?_, fun u hu => ?_⟩
        · rcases List.mem_append.mp hline with hl | hl
          · exact ⟨d, List.mem_cons_self,
              mem_insertAppendChain ruleFragments sha224 t hd line hl⟩
          · obtain ⟨d', hd', h'⟩ := ihl line hl
            exact ⟨d', List.mem_cons_of_mem _ hd', h'⟩
        · rcases List.mem_append.mp hu with hu | hu
          · cases ho : r.2 <;> simp [ho] at hu
            rw [hu]
            exact List.mem_cons_self
          · exact List.mem_cons_of_mem _ (ihh u hu)

/-- The rule lines stored for a chain are `-` or rules of that chain, as
`readHashesAndRulesFrom` stores them. -/
def StoredLinesOf (stored : Option (List String)) (chainName : String) : Prop :=
  ∀ lines, stored = some lines → ∀ l ∈ lines,
    l = "-" ∨ ∃ rule, l = savedLine chainName rule

theorem parse_deleteLine_dash : parseRestoreLine (deleteLine "-") = none := by decide

/-- The delete of a stored rule of a chain names that chain, by index or by value. -/
theorem parse_deleteLine_savedLine {d rule : String} (hd : ' ' ∉ d.toList) {cmd : RestoreCmd}
    (h : parseRestoreLine (deleteLine (savedLine d rule)) = some cmd) : cmd.chain? = some d := by
  have hline : (savedLine d rule).toList =
      '-' :: 'A' :: (' ' :: (d.toList ++ ' ' :: rule.toList)) := by
    simp [savedLine]
  rw [parseRestoreLine, toList_deleteLine hline, parseRestoreChars, splitWord_append hd] at h
  split at h <;> (cases h; simp [RestoreCmd.chain?])

/-- A line the pass writes for a chain names that chain, when the chain's stored lines are its
own. -/
theorem parse_hookLine {d line : String} (hd : ' ' ∉ d.toList)
    (hstored : StoredLinesOf (t.chainToFullRules d) d) (h : HookLineOf ruleFragments t d line)
    {cmd : RestoreCmd} (hcmd : parseRestoreLine line = some cmd) : cmd.chain? = some d := by
  rcases h with ⟨stored, hs, l, hl, rfl⟩ | ⟨r, hash, rfl⟩ | ⟨r, hash, rfl⟩
  · rcases hstored stored hs l hl with rfl | ⟨rule, rfl⟩
    · rw [parse_deleteLine_dash] at hcmd
      cases hcmd
    · exact parse_deleteLine_savedLine hd hcmd
  · rw [parse_renderInsert ruleFragments r hd (commentFrag_ne_empty _ _)] at hcmd
    cases hcmd
    rfl
  · rw [parse_renderAppend ruleFragments r hd (commentFrag_ne_empty _ _)] at hcmd
    cases hcmd
    rfl

end Hooks

/-! ## One chain through the whole input -/

section Segments

theorem runLines_transaction (c tableName : String) (chain : Option (List String))
    (lines : List String) :
    runLines c chain (transaction tableName lines) = runLines c chain lines := by
  unfold transaction
  split_ifs with h
  · rw [h]
  · have hcommit : runLines c chain ["COMMIT"] = some chain := by
      rw [runLines_cons, parse_commit]
      rfl
    rw [List.cons_append, runLines_cons, parse_table, Option.bind_some]
    simp only [RestoreCmd.chain?, reduceCtorEq, if_false, Option.bind_some]
    rw [runLines_append]
    cases runLines c chain lines with
    | none => rfl
    | some chain' =>
      rw [Option.bind_some, runLines_cons, parse_commit]
      rfl

/-- The forward references: each flushes its chain, or creates it. -/
theorem runLines_forwardReferences {c : String} {chainNames : List String}
    (hnd : chainNames.Nodup) (hsp : ∀ d ∈ chainNames, ' ' ∉ d.toList)
    (chain : Option (List String)) :
    runLines c chain (chainNames.map forwardReferenceLine) =
      some (if c ∈ chainNames then some [] else chain) := by
  rw [List.map_eq_flatMap, runLines_flatMap hnd]
  · split_ifs with hc
    · rw [runLines_cons, forwardReferenceLine, parse_forwardReference (hsp c hc)]
      simp [RestoreCmd.chain?, RestoreCmd.execChain, runLines_nil]
    · rfl
  · intro d hd hdc line hline
    rw [List.mem_singleton] at hline
    subst hline
    exact ⟨_, parse_forwardReference (hsp d hd), by simp [RestoreCmd.chain?, hdc]⟩

/-- The deletes of chains: each needs its chain there and empty. -/
theorem runLines_deleteChainLines {c : String} {chainNames : List String}
    (hnd : chainNames.Nodup) (chain : Option (List String)) :
    runLines c chain (deleteChainLines chainNames) =
      if c ∈ chainNames then (RestoreCmd.deleteChain c).execChain chain else some chain := by
  rw [deleteChainLines, List.map_eq_flatMap, runLines_flatMap hnd]
  · split_ifs with hc
    · rw [runLines_cons, parse_deleteChainLine]
      simp only [Option.bind_some, RestoreCmd.chain?, if_true]
      cases (RestoreCmd.deleteChain c).execChain chain <;> rfl
    · rfl
  · intro d hd hdc line hline
    rw [List.mem_singleton] at hline
    subst hline
    exact ⟨_, parse_deleteChainLine d, by simp [RestoreCmd.chain?, hdc]⟩

theorem runLines_append_eq_some {c : String} {chain chain' : Option (List String)}
    {lines lines' : List String} :
    runLines c chain (lines ++ lines') = some chain' ↔
      ∃ mid, runLines c chain lines = some mid ∧ runLines c mid lines' = some chain' := by
  rw [runLines_append, Option.bind_eq_some_iff]

end Segments

/-! ## The hashes stored -/

section Store

theorem lookup_foldl_insert_none (c : String) :
    ∀ (l : List String) (m : AList fun _ : String => Option (List String)),
      (l.foldl (fun m c' => m.insert c' none) m).lookup c =
        if c ∈ l then some none else m.lookup c
  | [], m => by simp
  | c' :: l, m => by
    rw [List.foldl_cons, lookup_foldl_insert_none c l]
    by_cases hc : c ∈ l
    · simp [hc]
    · by_cases hcc : c = c'
      · subst hcc
        simp [hc, AList.lookup_insert]
      · simp [hc, hcc, AList.lookup_insert_ne hcc]

variable {updated : List (String × List String)}
  {hooked : List (String × List String × List String)}
  {toDelete : List String} {c : String}

/-- A chain deleted reads `nil`, whatever the passes before wrote. -/
theorem lookup_newHashesOf_of_mem_toDelete (hc : c ∈ toDelete) :
    (newHashesOf updated hooked toDelete).lookup c = some none := by
  rw [newHashesOf, lookup_foldl_insert_none, if_pos hc]

/-- A chain the second pass updated, and neither pass after touched, reads its new hashes. -/
theorem lookup_newHashesOf_of_mem_updated (hupd : (updated.map Prod.fst).Nodup)
    (hhook : ∀ u ∈ hooked, u.1 ≠ c) (hc : c ∉ toDelete) {hashes : List String}
    (hmem : (c, hashes) ∈ updated) :
    (newHashesOf updated hooked toDelete).lookup c = some (some hashes) := by
  rw [newHashesOf, lookup_foldl_insert_none, if_neg hc,
    AList.lookup_foldl_insert_of_forall_ne Prod.fst (fun u => some u.2.1) hooked _ hhook]
  exact AList.lookup_foldl_insert_of_mem Prod.fst (fun u => some u.2) hupd hmem ∅

/-- A chain no pass wrote reads nothing. -/
theorem lookup_newHashesOf_of_not_mem (hupd : ∀ u ∈ updated, u.1 ≠ c)
    (hhook : ∀ u ∈ hooked, u.1 ≠ c) (hc : c ∉ toDelete) :
    (newHashesOf updated hooked toDelete).lookup c = none := by
  rw [newHashesOf, lookup_foldl_insert_none, if_neg hc,
    AList.lookup_foldl_insert_of_forall_ne Prod.fst (fun u => some u.2.1) hooked _ hhook,
    AList.lookup_foldl_insert_of_forall_ne Prod.fst (fun u => some u.2) updated _ hupd]
  rfl

/-- The loop that stores `newHashes`, over entries with distinct keys. -/
theorem lookup_foldl_storeHashes (c : String) :
    ∀ (es : List (Sigma fun _ : String => Option (List String)))
      (m : AList fun _ : String => List String), es.NodupKeys →
      (es.foldl (fun m e =>
        match e.2 with
        | some h => m.insert e.1 h
        | none => m.erase e.1) m).lookup c =
        match es.dlookup c with
        | none => m.lookup c
        | some none => none
        | some (some h) => some h
  | [], m, _ => rfl
  | e :: es, m, hnd => by
    obtain ⟨hnot, hnd'⟩ := List.nodupKeys_cons.mp hnd
    rw [List.foldl_cons, lookup_foldl_storeHashes c es _ hnd']
    obtain ⟨d, v⟩ := e
    by_cases hcd : c = d
    · subst hcd
      have hnone : es.dlookup c = none := List.dlookup_eq_none.mpr hnot
      rw [hnone, List.dlookup_cons_eq]
      cases v <;> simp [AList.lookup_insert, AList.lookup_erase]
    · rw [List.dlookup_cons_ne _ _ hcd]
      cases hl : es.dlookup c with
      | none => cases v <;> simp [AList.lookup_insert_ne hcd, AList.lookup_erase_ne hcd]
      | some w => cases w <;> rfl

/-- **What storing `newHashes` leaves for a chain**: its new hashes, nothing for `nil`, and what
the cache had when no pass wrote it. -/
theorem lookup_storeHashes (newHashes : AList fun _ : String => Option (List String))
    (hashes : AList fun _ : String => List String) (c : String) :
    (storeHashes newHashes hashes).lookup c =
      match newHashes.lookup c with
      | none => hashes.lookup c
      | some none => none
      | some (some h) => some h :=
  lookup_foldl_storeHashes c newHashes.entries hashes newHashes.nodupKeys

end Store

/-! ## One round of `applyUpdates` -/

section Round

variable {ρ : Type} (ruleFragments : ρ → List String) (sha224 : List UInt8 → List UInt8)
  (t : Table ρ) (hashOf : String → String)

/-- The chains the first pass gives a forward reference. -/
def forwardRefsOf : List String :=
  (forwardReferencePass ruleFragments sha224 t t.dirtyChains.toList).1
attribute [grind] forwardRefsOf

/-- The chains left dirty after the first pass. -/
def dirtyAfter : List String := (forwardReferencePass ruleFragments sha224 t t.dirtyChains.toList).2
attribute [grind] dirtyAfter

/-- The passes of `applyUpdates` when no delete fails to render: the pass over the hooked chains
went through, and the input and the hashes to store are built from the passes' results. -/
theorem renderUpdates_ok {u : PendingUpdates}
    (hu : (renderUpdates ruleFragments sha224 t).2 = .ok u) :
    ∃ hookLines hooked,
      insertAppendPass ruleFragments sha224 t.toInsertAppendTable t.dirtyInsertAppend.toList =
        .ok (hookLines, hooked) ∧
      restoreInput t (forwardRefsOf ruleFragments sha224 t)
        ((updatePass ruleFragments sha224 t (dirtyAfter ruleFragments sha224 t)).1 ++ hookLines)
        (chainsToDelete t (dirtyAfter ruleFragments sha224 t)) = .ok u.input ∧
      u.newHashes = newHashesOf (updatePass ruleFragments sha224 t
        (dirtyAfter ruleFragments sha224 t)).2 hooked
        (chainsToDelete t (dirtyAfter ruleFragments sha224 t)) := by
  rcases hF : forwardReferencePass ruleFragments sha224 t t.dirtyChains.toList with ⟨F, D⟩
  rcases hU : updatePass ruleFragments sha224 t D with ⟨U, upd⟩
  have hFD : forwardRefsOf ruleFragments sha224 t = F ∧
      dirtyAfter ruleFragments sha224 t = D := by
    simp [forwardRefsOf, dirtyAfter, hF]
  rw [hFD.1, hFD.2, hU]
  simp only [renderUpdates, hF, hU] at hu
  cases hIA : insertAppendPass ruleFragments sha224 t.toInsertAppendTable
      t.dirtyInsertAppend.toList with
  | error e => simp [hIA, bind, Except.bind] at hu
  | ok r =>
    obtain ⟨hookLines, hooked⟩ := r
    cases hin : restoreInput t F (U ++ hookLines) (chainsToDelete t D) with
    | error e => simp [hIA, hin, bind, Except.bind] at hu
    | ok input =>
      simp only [hIA, hin, bind, Except.bind, pure, Except.pure, Except.ok.injEq] at hu
      subst hu
      exact ⟨hookLines, hooked, rfl, hin, rfl⟩

/-- After a round the cache holds the hashes stored. -/
theorem applyUpdates_true_hashes {u : PendingUpdates}
    (hu : (renderUpdates ruleFragments sha224 t).2 = .ok u) :
    (t.applyUpdates ruleFragments sha224 true).1.chainToDataplaneHashes =
      storeHashes u.newHashes t.chainToDataplaneHashes := by
  simp [Table.applyUpdates, hu]

/-- The hashes of a chain of the kernel, read off its rules as `iptables-save` prints them. -/
def kernelHashes (k : String → Option (List String)) (chainName : String) :
    Option (List String) :=
  (k chainName).map fun rules => rules.map fun rule => hashOf (savedLine chainName rule)
attribute [grind] kernelHashes

/-- What a round of `applyUpdates` needs of the table and the kernel: chain names without
spaces, the hooked chains' stored lines their own, the hash comment read back from a rule
rendered into a dirty chain, and a cache that has, for each chain outside the insert and append
pass, the hashes of the chain the kernel holds. -/
structure RoundReady (k : String → Option (List String)) : Prop where
  name_ne : t.name ≠ ""
  dirty_no_space : ∀ c ∈ t.dirtyChains, ' ' ∉ c.toList
  hooked_no_space : ∀ c ∈ t.dirtyInsertAppend, ' ' ∉ c.toList
  hooked_stored : ∀ c ∈ t.dirtyInsertAppend, StoredLinesOf (t.chainToFullRules.lookup c) c
  read_hash : ∀ c ∈ t.dirtyChains, ∀ r hash,
    hashOf (renderAppend ruleFragments r c (commentFrag t.hashCommentPrefix hash)) = hash
  cache : ∀ c ∉ t.dirtyInsertAppend, t.chainToDataplaneHashes.lookup c = kernelHashes hashOf k c

variable {hashOf} {k : String → Option (List String)}

/-- **One chain through the whole input**, for a chain the pass over the hooked chains leaves
alone: its forward reference, if the first pass gave it one, then its own lines of the second
pass, then its delete, if it is deleted; in nftables mode a chain deleted is declared once more,
so flushed, before its delete. -/
theorem runLines_round (hready : RoundReady ruleFragments t hashOf k) {u : PendingUpdates}
    (hu : (renderUpdates ruleFragments sha224 t).2 = .ok u) {c : String}
    (hc : c ∉ t.dirtyInsertAppend) {chain chain' : Option (List String)}
    (hrun : runLines c chain u.input = some chain') :
    ∃ mid, runLines c (if c ∈ forwardRefsOf ruleFragments sha224 t then some [] else chain)
        (if c ∈ dirtyAfter ruleFragments sha224 t then chainPassLines ruleFragments sha224 t c
          else []) = some mid ∧
      (if c ∈ chainsToDelete t (dirtyAfter ruleFragments sha224 t) then
        (RestoreCmd.deleteChain c).execChain (if t.nftablesMode then some [] else mid)
      else some mid) = some chain' := by
  obtain ⟨hookLines, hooked, hIA, hin, -⟩ := renderUpdates_ok ruleFragments sha224 t hu
  rw [restoreInput_eq t hready.name_ne, Except.ok.injEq] at hin
  set F := forwardRefsOf ruleFragments sha224 t with hFdef
  set D := dirtyAfter ruleFragments sha224 t with hDdef
  set del := chainsToDelete t D with hdel
  -- the lists are without duplicates, and their chains' names without spaces
  have hDsub : D.Sublist t.dirtyChains.toList :=
    forwardReferencePass_snd_sublist ruleFragments sha224 t _
  have hFsub : F.Sublist t.dirtyChains.toList :=
    forwardReferencePass_fst_sublist ruleFragments sha224 t _
  have hDnd : D.Nodup := hDsub.nodup t.dirtyChains.nodup
  have hFnd : F.Nodup := hFsub.nodup t.dirtyChains.nodup
  have hdelnd : del.Nodup := hDnd.filter _
  have hDsp : ∀ d ∈ D, ' ' ∉ d.toList := fun d hd => hready.dirty_no_space d (hDsub.subset hd)
  have hFsp : ∀ d ∈ F, ' ' ∉ d.toList := fun d hd => hready.dirty_no_space d (hFsub.subset hd)
  have hdelsp : ∀ d ∈ del, ' ' ∉ d.toList := fun d hd => hDsp d (List.mem_filter.mp hd).1
  -- the lines of the hooked chains name other chains
  have hhook : ∀ line ∈ hookLines, ∀ cmd, parseRestoreLine line = some cmd →
      cmd.chain? ≠ some c := by
    intro line hline cmd hcmd
    obtain ⟨d, hd, hlineOf⟩ := (mem_insertAppendPass ruleFragments sha224 _ hIA).1 line hline
    rw [IterSet.mem_toList] at hd
    rw [parse_hookLine ruleFragments _ (hready.hooked_no_space d hd)
      (hready.hooked_stored d hd) hlineOf hcmd]
    intro h
    exact hc (Option.some.inj h ▸ hd)
  -- the second pass, seen from `c`
  have hupd : ∀ ch, runLines c ch (updatePass ruleFragments sha224 t D).1 =
      runLines c ch (if c ∈ D then chainPassLines ruleFragments sha224 t c else []) := by
    intro ch
    rw [updatePass_fst, runLines_flatMap hDnd]
    · split_ifs <;> rfl
    · intro d hd hdc line hline
      obtain ⟨cmd, hcmd, hchain⟩ := parse_chainPassLines ruleFragments sha224 t (hDsp d hd) line
        hline
      exact ⟨cmd, hcmd, by rw [hchain]; simpa using hdc⟩
  -- the first transaction, up to the deletes
  have hfirst : ∀ mid', runLines c chain (F.map forwardReferenceLine ++
      ((updatePass ruleFragments sha224 t D).1 ++ hookLines)) = some mid' →
      runLines c (if c ∈ F then some [] else chain)
        (if c ∈ D then chainPassLines ruleFragments sha224 t c else []) = some mid' := by
    intro mid' h
    obtain ⟨y₁, hy₁, h⟩ := runLines_append_eq_some.mp h
    rw [runLines_forwardReferences hFnd hFsp, Option.some.injEq] at hy₁
    subst hy₁
    obtain ⟨y₂, hy₂, h⟩ := runLines_append_eq_some.mp h
    rw [hupd] at hy₂
    rw [runLines_eq_of_forall_ne hhook h]
    exact hy₂
  cases hnft : t.nftablesMode
  · -- legacy mode: one transaction
    rw [hnft] at hin
    simp only [Bool.false_eq_true, if_false] at hin
    rw [← hin, runLines_transaction] at hrun
    obtain ⟨mid, hmid, hrun⟩ := runLines_append_eq_some.mp hrun
    refine ⟨mid, hfirst mid hmid, ?_⟩
    rw [runLines_deleteChainLines hdelnd] at hrun
    simpa using hrun
  · -- nftables mode: the deletes in a second transaction
    rw [hnft] at hin
    simp only [if_true] at hin
    rw [← hin] at hrun
    obtain ⟨mid, hmid, hrun⟩ := runLines_append_eq_some.mp hrun
    rw [runLines_transaction] at hmid hrun
    refine ⟨mid, hfirst mid hmid, ?_⟩
    obtain ⟨y, hy, hrun⟩ := runLines_append_eq_some.mp hrun
    rw [runLines_forwardReferences hdelnd hdelsp, Option.some.injEq] at hy
    subst hy
    rw [runLines_deleteChainLines hdelnd] at hrun
    split_ifs at hrun ⊢ with hcd <;> simp_all

theorem chainPassLines_of_desired {c : String} {rules : List ρ}
    (h : t.desiredStateOfChain c = some rules) :
    chainPassLines ruleFragments sha224 t c = chainUpdateLines ruleFragments t c rules
      (previousHashesOf t c) (ruleHashes ruleFragments sha224 c rules) := by
  simp [chainPassLines, h]

/-- The second pass's lines run on a chain with one rule per cached hash. -/
theorem runLines_chainUpdateLines {c : String} (hc : ' ' ∉ c.toList) (rules : List ρ)
    {previousHashes : List String} {chain : List String}
    (hchain : chain.length = previousHashes.length) :
    runLines c (some chain) (chainUpdateLines ruleFragments t c rules previousHashes
        (ruleHashes ruleFragments sha224 c rules)) =
      some (some (ListEdit.diffResult previousHashes (ruleHashes ruleFragments sha224 c rules)
        (updateBody ruleFragments t rules (ruleHashes ruleFragments sha224 c rules)) chain)) := by
  have hlen := (length_ruleHashes ruleFragments sha224 c rules).symm
  rw [runLines_eq_runOn (map_parse_chainUpdateLines ruleFragments t hlen hc), runOn_map_editCmd,
    ListEdit.applyAll_diffEdits _ _ _ _ hchain, Option.map_some]

/-- **One round of `applyUpdates` against the kernel.** For every chain the pass over the hooked
chains leaves alone: when `iptables-restore` takes the input, a dirty chain ends with the hashes
of its desired rules, or gone when it is not desired, every other chain is as it was, and the
hashes the round stores for the chain are those of the chain the kernel now holds. -/
theorem applyUpdates_kernel (hready : RoundReady ruleFragments t hashOf k) {u : PendingUpdates}
    (hu : (renderUpdates ruleFragments sha224 t).2 = .ok u) {k' : String → Option (List String)}
    (hk : restore k u.input = some k') {c : String} (hc : c ∉ t.dirtyInsertAppend) :
    kernelHashes hashOf k' c =
        (if c ∈ t.dirtyChains then
          (t.desiredStateOfChain c).map (ruleHashes ruleFragments sha224 c)
        else kernelHashes hashOf k c) ∧
      (t.applyUpdates ruleFragments sha224 true).1.chainToDataplaneHashes.lookup c =
        kernelHashes hashOf k' c := by
  obtain ⟨mid, hmid, hend⟩ := runLines_round ruleFragments sha224 t hready hu hc
    (restore_runLines hk c)
  obtain ⟨hookLines, hooked, hIA, -, hnew⟩ := renderUpdates_ok ruleFragments sha224 t hu
  have hmem := mem_forwardReferencePass ruleFragments sha224 t c t.dirtyChains.toList
  rw [← forwardRefsOf, ← dirtyAfter] at hmem
  set D := dirtyAfter ruleFragments sha224 t with hDdef
  have hDnd : D.Nodup :=
    (forwardReferencePass_snd_sublist ruleFragments sha224 t _).nodup t.dirtyChains.nodup
  have hhooked : ∀ v ∈ hooked, v.1 ≠ c := fun v hv hvc =>
    hc (by simpa [hvc] using (mem_insertAppendPass ruleFragments sha224 _ hIA).2 v hv)
  have hupdnd : ((updatePass ruleFragments sha224 t D).2.map Prod.fst).Nodup :=
    (updatePass_snd_keys_sublist ruleFragments sha224 t D).nodup hDnd
  rw [applyUpdates_true_hashes ruleFragments sha224 t hu, lookup_storeHashes, hnew]
  by_cases hD : c ∈ D
  · -- a chain left dirty: rewritten, or deleted
    have hdirty : c ∈ t.dirtyChains := (hmem.1.mp hD).1
    have hsp := hready.dirty_no_space c hdirty
    rw [if_pos hdirty]
    rw [if_pos hD] at hmid
    cases hdes : t.desiredStateOfChain c with
    | none =>
      have hF : c ∈ forwardRefsOf ruleFragments sha224 t :=
        hmem.2.mpr ⟨(hmem.1.mp hD).1, (hmem.1.mp hD).2, Or.inr (Or.inl hdes)⟩
      have hdel : c ∈ chainsToDelete t D := List.mem_filter.mpr ⟨hD, by simp [hdes]⟩
      rw [if_pos hF, chainPassLines, hdes, runLines_nil, Option.some.injEq] at hmid
      subst hmid
      rw [if_pos hdel] at hend
      have hk' : k' c = none := by
        cases hnft : t.nftablesMode <;> simp_all [RestoreCmd.execChain]
      rw [lookup_newHashesOf_of_mem_toDelete hdel]
      simp [kernelHashes, hk']
    | some rules =>
      have hndel : c ∉ chainsToDelete t D := fun h => by simp [chainsToDelete, hdes] at h
      rw [if_neg hndel, Option.some.injEq] at hend
      subst hend
      rw [chainPassLines_of_desired ruleFragments sha224 t hdes] at hmid
      -- the chain as the second pass finds it: flushed, or as the cache has it
      obtain ⟨start, hstart, hprev⟩ : ∃ start,
          (if c ∈ forwardRefsOf ruleFragments sha224 t then some [] else k c) = some start ∧
            start.map (fun rule => hashOf (savedLine c rule)) = previousHashesOf t c := by
        by_cases hF : c ∈ forwardRefsOf ruleFragments sha224 t
        · refine ⟨[], if_pos hF, ?_⟩
          rcases (hmem.2.mp hF).2.2 with hnft | hnone | hnone
          · simp [previousHashesOf, hnft]
          · rw [hdes] at hnone
            cases hnone
          · simp [previousHashesOf, hnone]
        · have hnot : ¬Flushed t c := fun h =>
            hF (hmem.2.mpr ⟨(hmem.1.mp hD).1, (hmem.1.mp hD).2, h⟩)
          simp only [Flushed, not_or] at hnot
          obtain ⟨prev, hprev⟩ := Option.ne_none_iff_exists'.mp hnot.2.2
          have hcache := hready.cache c hc
          rw [hprev, kernelHashes] at hcache
          obtain ⟨start, hk, hmap⟩ := Option.map_eq_some_iff.mp hcache.symm
          refine ⟨start, by rw [if_neg hF, hk], ?_⟩
          simp [previousHashesOf, hnot.1, hprev, hmap]
      rw [hstart, runLines_chainUpdateLines ruleFragments sha224 t hsp rules
        (by rw [← hprev, List.length_map]), Option.some.injEq] at hmid
      have hchain : start.map (hashOf ∘ savedLine c) = previousHashesOf t c := by
        simpa [Function.comp_def] using hprev
      have hhashes := map_hashOf_diffResult ruleFragments t hashOf (hready.read_hash c hdirty)
        (length_ruleHashes ruleFragments sha224 c rules).symm hchain
      have hk' : kernelHashes hashOf k' c = some (ruleHashes ruleFragments sha224 c rules) := by
        rw [kernelHashes, ← hmid, Option.map_some]
        simpa [Function.comp_def] using congrArg some hhashes
      rw [hk', lookup_newHashesOf_of_mem_updated hupdnd hhooked hndel
        ((mem_updatePass_snd ruleFragments sha224 t c _ D).mpr ⟨hD, rules, hdes, rfl⟩)]
      simp
  · -- a chain the round leaves alone
    have hF : c ∉ forwardRefsOf ruleFragments sha224 t := fun h =>
      hD (hmem.1.mpr ⟨(hmem.2.mp h).1, (hmem.2.mp h).2.1⟩)
    have hndel : c ∉ chainsToDelete t D := fun h => hD (List.mem_filter.mp h).1
    rw [if_neg hF, if_neg hD, runLines_nil, Option.some.injEq] at hmid
    rw [if_neg hndel, ← hmid, Option.some.injEq] at hend
    have hk' : k' c = k c := hend.symm
    have hupd : ∀ v ∈ (updatePass ruleFragments sha224 t D).2, v.1 ≠ c := by
      rintro ⟨d, hashes⟩ hv rfl
      exact hD ((mem_updatePass_snd ruleFragments sha224 t d hashes D).mp hv).1
    rw [lookup_newHashesOf_of_not_mem hupd hhooked hndel, hready.cache c hc, kernelHashes,
      kernelHashes, hk']
    refine ⟨?_, rfl⟩
    split_ifs with hdirty
    · -- taken out of the set by the first pass: already programmed
      have hap : AlreadyProgrammed ruleFragments sha224 t c := by
        by_contra hap
        exact hD (hmem.1.mpr ⟨hdirty, hap⟩)
      obtain ⟨-, hpos, hsame⟩ := hap
      have hcache := hready.cache c hc
      cases hdes : t.desiredStateOfChain c with
      | none =>
        -- a chain to delete has no desired hashes, so its cache would be empty
        rw [← hsame, desiredRuleHashes, hdes] at hpos
        exact absurd hpos (by simp)
      | some rules =>
        rw [desiredRuleHashes, hdes] at hsame
        cases hl : t.chainToDataplaneHashes.lookup c with
        | none => rw [hl] at hpos; simp at hpos
        | some prev =>
          rw [hl, Option.getD_some] at hsame
          rw [← kernelHashes, ← hcache, hl, Option.map_some, ← hsame]
    · rfl

end Round

/-! ## A new chain -/

section Demo

/-- The hash a line carries between a fixed start and a fixed end. -/
def hashBetween (start finish line : String) : String :=
  String.ofList ((line.toList.drop start.length).reverse.drop finish.length).reverse

theorem hashBetween_append (start hash finish : String) :
    hashBetween start finish (start ++ hash ++ finish) = hash := by
  rw [hashBetween, ← String.length_toList (s := start), ← String.length_toList (s := finish),
    String.toList_append, String.toList_append, List.append_assoc, List.drop_left,
    List.reverse_append, List.drop_left' (by simp), List.reverse_reverse, String.ofList_toList]

/-- The demo's rules are `-j DROP`. -/
def dropFragments : Unit → List String := fun _ => ["-j", "DROP"]
/-- A digest of SHA-224's size for the demo: 28 zero bytes, whatever it reads. -/
def constSha224 : List UInt8 → List UInt8 := fun _ => List.replicate 28 0

/-- A filter table in legacy mode that wants one chain, `cali-x`, with one rule and one
reference, and has no hashes cached: the kernel has no chain yet. -/
def demoTable : Table Unit where
  name := "filter"
  insertMode := .insert
  hashCommentPrefix := "cali:"
  ourChainsRegexp := fun c => "cali-".toList.isPrefixOf c.toList
  nftablesMode := false
  chainToInsertedRules := ∅
  chainToAppendedRules := ∅
  dirtyInsertAppend := ∅
  chainNameToChain := (∅ : AList fun _ : String => List Unit).insert "cali-x" [()]
  chainRefCounts := (∅ : AList fun _ : String => ℤ).insert "cali-x" 1
  dirtyChains := (∅ : IterSet String).add "cali-x"
  inSyncWithDataPlane := true
  chainToDataplaneHashes := ∅
  chainToFullRules := ∅

/-- The hash comment reader for the lines of `cali-x`. -/
def demoHashOf : String → String :=
  hashBetween ("-A" ++ " " ++ "cali-x" ++ " " ++ "-m comment --comment \"" ++ "cali:")
    ("\"" ++ " " ++ "-j" ++ " " ++ "DROP")

theorem demoHashOf_renderAppend (r : Unit) (hash : String) :
    demoHashOf (renderAppend dropFragments r "cali-x" (commentFrag "cali:" hash)) = hash := by
  have hline : renderAppend dropFragments r "cali-x" (commentFrag "cali:" hash) =
      ("-A" ++ " " ++ "cali-x" ++ " " ++ "-m comment --comment \"" ++ "cali:") ++ hash ++
        ("\"" ++ " " ++ "-j" ++ " " ++ "DROP") := by
    rw [renderAppend, renderInner, if_pos (commentFrag_ne_empty _ _)]
    simp only [List.cons_append, List.nil_append, dropFragments]
    rw [String.intercalate_cons_cons, String.intercalate_cons_cons, String.intercalate_cons_cons,
      String.intercalate_cons_cons, String.intercalate_singleton]
    unfold commentFrag
    simp only [String.append_assoc]
  rw [demoHashOf, hline, hashBetween_append]

theorem demoTable_roundReady : RoundReady dropFragments demoTable demoHashOf (fun _ => none) where
  name_ne := by decide
  dirty_no_space := by decide
  hooked_no_space := by simp [demoTable]
  hooked_stored := by simp [demoTable]
  read_hash := by
    intro c hc r hash
    obtain rfl : c = "cali-x" := by simpa [demoTable] using hc
    exact demoHashOf_renderAppend r hash
  cache := by
    intro c _
    simp [demoTable, kernelHashes]

/-- The kernel has no chain: the round creates `cali-x` with the desired hashes, and caches
them. -/
theorem applyUpdates_kernel_newChain :
    ∃ u k', (renderUpdates dropFragments constSha224 demoTable).2 = .ok u ∧
      restore (fun _ => none) u.input = some k' ∧
      kernelHashes demoHashOf k' "cali-x" =
        some (ruleHashes dropFragments constSha224 "cali-x" [()]) ∧
      (demoTable.applyUpdates dropFragments constSha224 true).1.chainToDataplaneHashes.lookup
        "cali-x" = kernelHashes demoHashOf k' "cali-x" := by
  have hs : (restore (fun _ => none)
      ((renderUpdates dropFragments constSha224 demoTable).2.toOption.getD
        ⟨[], ∅, ∅⟩).input).isSome := by decide +kernel
  refine ⟨_, _, rfl, (Option.some_get hs).symm, ?_⟩
  obtain ⟨hkernel, hcache⟩ := applyUpdates_kernel dropFragments constSha224 demoTable
    demoTable_roundReady rfl (Option.some_get hs).symm (c := "cali-x") (by simp [demoTable])
  have hdes : demoTable.desiredStateOfChain "cali-x" = some [()] := by decide
  rw [if_pos (by decide), hdes, Option.map_some] at hkernel
  exact ⟨hkernel, hcache⟩

end Demo

end Felix.Iptables
