import Felix.Collections.ListEdit
import Felix.Iptables.Table
import Mathlib

/-!
# What `iptables-restore` does with the lines Felix writes

`iptables-restore --noflush` reads its input a line at a time. `*table` opens the table's
transaction and `COMMIT` closes it; `:chain - -` declares a chain, which creates it or, when it
exists, flushes it; the rule commands `-A`, `-I`, `-R chain n`, `-D chain n`, `-D chain rule`
and `--delete-chain` act on one chain each, and a command that cannot be done fails the whole
input. A chain is its rules, each the text that follows `-A chain ` in what `iptables-save`
prints (`savedLine`).

This module is the kernel's side: the reading of a line (`parseRestoreLine`), what each command
does to the chain it names (`RestoreCmd.execChain`), and a whole input run on the kernel's chains
(`restore`). A run seen from one chain is the run of the commands that name it
(`restore_runOn`). The lines Felix renders read back as the commands they were written for,
as long as the chain's name has no space (`parse_renderReplace` and the lemmas beside it), and
the lines of one chain's edit script run on that chain as `ListEdit.applyAll` runs the script.

Deleting a chain needs it empty; that nothing jumps to it, which the kernel also needs, is not
modelled, and neither is the commit of the first of two transactions when the second fails.

## Main definitions

* `parseNat`, `splitWord`, `RestoreCmd`, `parseRestoreLine`, `savedLine`, `ruleBody`
* `RestoreCmd.execChain`, `RestoreCmd.exec`, `restore`, `runOn`, `editCmd`

## Main results

* `restore_runOn`: what a successful run did to each chain
* `parse_renderReplace`, `parse_renderAppend`, `parse_renderDeleteByIndexLine`,
  `parse_forwardReference`, `parse_deleteChainLine`: the rendered lines read back
* `runOn_map_editCmd`: the commands of an edit script do to the chain what the script does
-/

namespace Felix.Iptables

/-! ## Reading a line -/

/-- A run of decimal digits, as `%d` prints a number. -/
def parseNat (cs : List Char) : Option ℕ :=
  if cs ≠ [] ∧ cs.all Char.isDigit then some (Nat.ofDigitChars 10 cs 0) else none

/-- The first word of a line, and what follows the space after it. -/
def splitWord (cs : List Char) : List Char × List Char :=
  (cs.takeWhile (· != ' '), (cs.dropWhile (· != ' ')).drop 1)
attribute [grind] splitWord

/-- A line of `iptables-restore` input, read as a command. -/
inductive RestoreCmd where
  | table (name : String)
  | commit
  | declareChain (chain : String)
  | append (chain rule : String)
  | insert (chain rule : String)
  | replace (chain : String) (ruleNum : ℕ) (rule : String)
  | deleteIndex (chain : String) (ruleNum : ℕ)
  | deleteRule (chain rule : String)
  | deleteChain (chain : String)
  deriving DecidableEq, Repr

/-- The reading of a line, on its characters: the command word, then the chain, and for `-R`
the rule's number; `-D` with a number deletes by index, with anything else by value. -/
def parseRestoreChars : List Char → Option RestoreCmd
  | '*' :: name => some (.table (String.ofList name))
  | ':' :: rest => some (.declareChain (String.ofList (splitWord rest).1))
  | '-' :: 'A' :: ' ' :: rest =>
    some (.append (String.ofList (splitWord rest).1) (String.ofList (splitWord rest).2))
  | '-' :: 'I' :: ' ' :: rest =>
    some (.insert (String.ofList (splitWord rest).1) (String.ofList (splitWord rest).2))
  | '-' :: 'R' :: ' ' :: rest =>
    let num := splitWord (splitWord rest).2
    (parseNat num.1).map fun n =>
      .replace (String.ofList (splitWord rest).1) n (String.ofList num.2)
  | '-' :: 'D' :: ' ' :: rest =>
    match parseNat (splitWord rest).2 with
    | some n => some (.deleteIndex (String.ofList (splitWord rest).1) n)
    | none =>
      some (.deleteRule (String.ofList (splitWord rest).1) (String.ofList (splitWord rest).2))
  | cs =>
    if cs = "COMMIT".toList then some .commit
    else if "--delete-chain ".toList.isPrefixOf cs then
      some (.deleteChain (String.ofList (cs.drop "--delete-chain ".length)))
    else none
attribute [grind] parseRestoreChars

/-- The reading of a line. -/
def parseRestoreLine (line : String) : Option RestoreCmd := parseRestoreChars line.toList

/-- A rule as `iptables-save` prints it: `-A`, the chain, then the rule. -/
def savedLine (chainName rule : String) : String := "-A " ++ chainName ++ " " ++ rule
attribute [grind] savedLine

/-! ## What a command does -/

namespace RestoreCmd

/-- The chain a command names. -/
def chain? : RestoreCmd → Option String
  | table _ | commit => none
  | declareChain c | append c _ | insert c _ | replace c _ _ | deleteIndex c _
  | deleteRule c _ | deleteChain c => some c
attribute [grind] chain?

/-- What a command does to the chain it names, `none` for no such chain: the chain after it,
or `none` when the command fails. Rule numbers count from one. -/
def execChain : RestoreCmd → Option (List String) → Option (Option (List String))
  | declareChain _, _ => some (some [])
  | append _ rule, some rules => some (some (rules ++ [rule]))
  | insert _ rule, some rules => some (some (rule :: rules))
  | replace _ n rule, some rules =>
    if 0 < n ∧ n ≤ rules.length then some (some (rules.set (n - 1) rule)) else none
  | deleteIndex _ n, some rules =>
    if 0 < n ∧ n ≤ rules.length then some (some (rules.eraseIdx (n - 1))) else none
  | deleteRule _ rule, some rules =>
    if rule ∈ rules then some (some (rules.erase rule)) else none
  | deleteChain _, some rules => if rules = [] then some none else none
  | table _, chain | commit, chain => some chain
  | _, none => none
attribute [grind] execChain

/-- A command run on the kernel's chains. -/
def exec (k : String → Option (List String)) (cmd : RestoreCmd) :
    Option (String → Option (List String)) :=
  match cmd.chain? with
  | none => some k
  | some c => (cmd.execChain (k c)).map (Function.update k c)

end RestoreCmd

/-- `iptables-restore` run on the kernel's chains: the lines in order, the first that cannot be
read or done failing the whole. -/
def restore (k : String → Option (List String)) (lines : List String) :
    Option (String → Option (List String)) :=
  lines.foldlM (fun k line => (parseRestoreLine line).bind (RestoreCmd.exec k)) k

/-- The commands of a run that name chain `c`, run on that chain alone. -/
def runOn (c : String) (chain : Option (List String)) (cmds : List RestoreCmd) :
    Option (Option (List String)) :=
  cmds.foldlM (fun chain cmd => if cmd.chain? = some c then cmd.execChain chain else some chain)
    chain
attribute [grind] runOn

theorem runOn_nil (c : String) (chain : Option (List String)) : runOn c chain [] = some chain :=
  rfl

theorem runOn_cons (c : String) (chain : Option (List String)) (cmd : RestoreCmd)
    (cmds : List RestoreCmd) :
    runOn c chain (cmd :: cmds) =
      (if cmd.chain? = some c then cmd.execChain chain else some chain).bind (runOn c · cmds) :=
  rfl

theorem runOn_append (c : String) (chain : Option (List String)) (cmds cmds' : List RestoreCmd) :
    runOn c chain (cmds ++ cmds') = (runOn c chain cmds).bind (runOn c · cmds') := by
  simp only [runOn, List.foldlM_append]
  rfl

/-- Commands that name other chains leave `c` as it is. -/
theorem runOn_of_forall_ne {c : String} (chain : Option (List String)) {cmds : List RestoreCmd}
    (h : ∀ cmd ∈ cmds, cmd.chain? ≠ some c) : runOn c chain cmds = some chain := by
  induction cmds with
  | nil => rfl
  | cons cmd cmds ih =>
    rw [runOn_cons, if_neg (h cmd (by simp)), Option.bind_some]
    exact ih fun cmd' hcmd' => h cmd' (by simp [hcmd'])

/-- One command, seen from chain `c`. -/
theorem exec_apply {k k' : String → Option (List String)} {cmd : RestoreCmd}
    (h : cmd.exec k = some k') (c : String) :
    (if cmd.chain? = some c then cmd.execChain (k c) else some (k c)) = some (k' c) := by
  unfold RestoreCmd.exec at h
  split at h
  · rename_i hnone
    cases h
    simp [hnone]
  · rename_i d hd
    obtain ⟨chain, hchain, rfl⟩ := Option.map_eq_some_iff.mp h
    by_cases hdc : d = c
    · subst hdc
      simp [hd, hchain]
    · simp [hd, hdc, Function.update_of_ne (Ne.symm hdc)]

/-- **A successful run, seen from one chain**: every line was read, and each chain ends as the
commands that name it leave it. -/
theorem restore_runOn {k k' : String → Option (List String)} {lines : List String}
    (h : restore k lines = some k') :
    ∃ cmds : List RestoreCmd, lines.map parseRestoreLine = cmds.map some ∧
      ∀ c, runOn c (k c) cmds = some (k' c) := by
  induction lines generalizing k with
  | nil =>
    cases h
    exact ⟨[], rfl, fun c => rfl⟩
  | cons line lines ih =>
    simp only [restore, List.foldlM_cons] at h
    obtain ⟨k₁, hk₁, hrest⟩ := Option.bind_eq_some_iff.mp h
    obtain ⟨cmd, hcmd, hexec⟩ := Option.bind_eq_some_iff.mp hk₁
    obtain ⟨cmds, hparse, hrun⟩ := ih hrest
    refine ⟨cmd :: cmds, by simp [hparse, hcmd], fun c => ?_⟩
    rw [runOn_cons, exec_apply hexec c, Option.bind_some]
    exact hrun c

/-- A run seen from chain `c`: the lines in order, each read, the ones naming `c` done on it, a
line that cannot be read failing the run. -/
def runLines (c : String) (chain : Option (List String)) (lines : List String) :
    Option (Option (List String)) :=
  lines.foldlM (fun chain line => (parseRestoreLine line).bind fun cmd =>
    if cmd.chain? = some c then cmd.execChain chain else some chain) chain
attribute [grind] runLines

theorem runLines_nil (c : String) (chain : Option (List String)) :
    runLines c chain [] = some chain := rfl

theorem runLines_cons (c : String) (chain : Option (List String)) (line : String)
    (lines : List String) :
    runLines c chain (line :: lines) =
      ((parseRestoreLine line).bind fun cmd =>
        if cmd.chain? = some c then cmd.execChain chain else some chain).bind
        (runLines c · lines) := rfl

theorem runLines_append (c : String) (chain : Option (List String)) (lines lines' : List String) :
    runLines c chain (lines ++ lines') = (runLines c chain lines).bind (runLines c · lines') := by
  simp only [runLines, List.foldlM_append]
  rfl

/-- Read as commands, the lines run on a chain as the commands do. -/
theorem runLines_eq_runOn {lines : List String} {cmds : List RestoreCmd}
    (h : lines.map parseRestoreLine = cmds.map some) (c : String) (chain : Option (List String)) :
    runLines c chain lines = runOn c chain cmds := by
  induction lines generalizing cmds chain with
  | nil =>
    obtain rfl : cmds = [] := List.map_eq_nil_iff.mp (h.symm.trans rfl)
    rfl
  | cons line lines ih =>
    obtain ⟨cmd, cmds', rfl⟩ : ∃ cmd cmds', cmds = cmd :: cmds' := by
      cases cmds with
      | nil => simp at h
      | cons cmd cmds' => exact ⟨cmd, cmds', rfl⟩
    simp only [List.map_cons, List.cons.injEq] at h
    rw [runLines_cons, runOn_cons, h.1, Option.bind_some]
    cases (if cmd.chain? = some c then cmd.execChain chain else some chain) with
    | none => rfl
    | some chain' => exact ih h.2 chain'

/-- **A successful run, seen from one chain**, on the lines themselves. -/
theorem restore_runLines {k k' : String → Option (List String)} {lines : List String}
    (h : restore k lines = some k') (c : String) : runLines c (k c) lines = some (k' c) := by
  obtain ⟨cmds, hparse, hrun⟩ := restore_runOn h
  rw [runLines_eq_runOn hparse, hrun]

/-- Lines whose commands all name other chains leave `c` as it was, when the run goes
through. -/
theorem runLines_eq_of_forall_ne {c : String} {chain chain' : Option (List String)}
    {lines : List String}
    (hne : ∀ line ∈ lines, ∀ cmd, parseRestoreLine line = some cmd → cmd.chain? ≠ some c)
    (h : runLines c chain lines = some chain') : chain' = chain := by
  induction lines generalizing chain with
  | nil => exact (Option.some.inj h).symm
  | cons line lines ih =>
    rw [runLines_cons] at h
    obtain ⟨chain₁, h₁, hrest⟩ := Option.bind_eq_some_iff.mp h
    obtain ⟨cmd, hcmd, hexec⟩ := Option.bind_eq_some_iff.mp h₁
    rw [if_neg (hne line (by simp) cmd hcmd)] at hexec
    cases hexec
    exact ih (fun l hl => hne l (by simp [hl])) hrest

/-- Lines whose commands all name other chains, and which all read, leave `c` as it is. -/
theorem runLines_of_forall_ne {c : String} (chain : Option (List String)) {lines : List String}
    (hne : ∀ line ∈ lines, ∃ cmd, parseRestoreLine line = some cmd ∧
      cmd.chain? ≠ some c) :
    runLines c chain lines = some chain := by
  induction lines with
  | nil => rfl
  | cons line lines ih =>
    obtain ⟨cmd, hcmd, hc⟩ := hne line (by simp)
    rw [runLines_cons, hcmd, Option.bind_some, if_neg hc, Option.bind_some]
    exact ih fun l hl => hne l (by simp [hl])

/-- Lines written chain by chain, each chain's lines naming only that chain: seen from `c`, only
`c`'s own lines count. -/
theorem runLines_flatMap {c : String} {l : List String} (hl : l.Nodup) (f : String → List String)
    (hf : ∀ d ∈ l, d ≠ c → ∀ line ∈ f d, ∃ cmd, parseRestoreLine line = some cmd ∧
      cmd.chain? ≠ some c)
    (chain : Option (List String)) :
    runLines c chain (l.flatMap f) = if c ∈ l then runLines c chain (f c) else some chain := by
  have hframe : ∀ l' : List String, (∀ d ∈ l', d ∈ l ∧ d ≠ c) → ∀ chain',
      runLines c chain' (l'.flatMap f) = some chain' := by
    intro l' hl' chain'
    apply runLines_of_forall_ne
    intro line hline
    obtain ⟨d, hd, hline⟩ := List.mem_flatMap.mp hline
    exact hf d (hl' d hd).1 (hl' d hd).2 line hline
  split_ifs with hc
  · obtain ⟨l₁, l₂, rfl⟩ := List.append_of_mem hc
    have hnd := List.nodup_append.mp hl
    have hc₁ : c ∉ l₁ := fun h => hnd.2.2 c h c List.mem_cons_self rfl
    have hc₂ : c ∉ l₂ := (List.nodup_cons.mp hnd.2.1).1
    rw [List.flatMap_append, List.flatMap_cons, runLines_append,
      hframe l₁ (fun d hd => ⟨by simp [hd], fun h => hc₁ (h ▸ hd)⟩), Option.bind_some,
      runLines_append]
    cases runLines c chain (f c) with
    | none => rfl
    | some chain' =>
      exact hframe l₂ (fun d hd => ⟨by simp [hd], fun h => hc₂ (h ▸ hd)⟩) chain'
  · exact hframe l (fun d hd => ⟨hd, fun h => hc (h ▸ hd)⟩) chain

/-! ## The lines Felix renders, read back -/

section Words

/-- A word with no space, then a space: the word is read, and the rest follows. -/
theorem splitWord_append {w : List Char} (hw : ' ' ∉ w) (rest : List Char) :
    splitWord (w ++ ' ' :: rest) = (w, rest) := by
  have hpos : ∀ a ∈ w, (a != ' ') = true := fun a ha => by
    simpa using fun h : a = ' ' => hw (h ▸ ha)
  simp [splitWord, List.takeWhile_append_of_pos hpos, List.dropWhile_append_of_pos hpos]

/-- A word with no space and nothing after it. -/
theorem splitWord_of_not_mem {w : List Char} (hw : ' ' ∉ w) : splitWord w = (w, []) := by
  have hpos : ∀ a ∈ w, (a != ' ') = true := fun a ha => by
    simpa using fun h : a = ' ' => hw (h ▸ ha)
  simp [splitWord, List.takeWhile_eq_self_iff.mpr hpos, List.dropWhile_eq_nil_iff.mpr hpos]

/-- The digits `%d` prints for a number. -/
theorem toList_toString_nat (n : ℕ) : (toString n).toList = Nat.toDigits 10 n := by
  rw [Nat.toString_eq_repr, Nat.toList_repr]

theorem space_not_mem_toString_nat (n : ℕ) : ' ' ∉ (toString n).toList := by
  rw [toList_toString_nat]
  intro h
  have := Nat.isDigit_of_mem_toDigits (by decide) (by decide) h
  exact absurd this (by decide)

/-- The digits `%d` prints read back as the number. -/
theorem parseNat_toString (n : ℕ) : parseNat (toString n).toList = some n := by
  rw [toList_toString_nat, parseNat, if_pos ⟨Nat.toDigits_ne_nil, List.all_eq_true.mpr fun c hc =>
    Nat.isDigit_of_mem_toDigits (by decide) (by decide) hc⟩, Nat.ofDigitChars_ten_toDigits]

end Words

section Rendered

variable {ρ : Type} (ruleFragments : ρ → List String)

/-- What follows the chain's name, and for `-R` the rule's number, in a rendered rule: the
prefix fragment unless it is empty, then the rule's own fragments. -/
def ruleBody (r : ρ) (prefixFragment : String) : String :=
  " ".intercalate ((if prefixFragment ≠ "" then [prefixFragment] else []) ++ ruleFragments r)
attribute [grind] ruleBody

theorem renderInner_eq {fragments : List String} (hf : fragments ≠ []) (r : ρ) {p : String}
    (hp : p ≠ "") :
    renderInner ruleFragments fragments p r =
      " ".intercalate fragments ++ " " ++ ruleBody ruleFragments r p := by
  rw [renderInner, List.append_assoc, String.intercalate_append_of_ne_nil hf (by simp [hp]),
    ruleBody]

/-- A rendered append reads back as the append of its body, which the chain then lists as the
rendered line. -/
theorem parse_renderAppend (r : ρ) {c : String} (hc : ' ' ∉ c.toList) {p : String}
    (hp : p ≠ "") :
    parseRestoreLine (renderAppend ruleFragments r c p) =
      some (.append c (ruleBody ruleFragments r p)) := by
  have hline : (renderAppend ruleFragments r c p).toList =
      '-' :: 'A' :: ' ' :: (c.toList ++ ' ' :: (ruleBody ruleFragments r p).toList) := by
    rw [renderAppend, renderInner_eq ruleFragments (by simp) r hp]
    simp
  rw [parseRestoreLine, hline, parseRestoreChars, splitWord_append hc]
  simp

/-- A rendered insert reads back as the insert of its body. -/
theorem parse_renderInsert (r : ρ) {c : String} (hc : ' ' ∉ c.toList) {p : String}
    (hp : p ≠ "") :
    parseRestoreLine (renderInsert ruleFragments r c p) =
      some (.insert c (ruleBody ruleFragments r p)) := by
  have hline : (renderInsert ruleFragments r c p).toList =
      '-' :: 'I' :: ' ' :: (c.toList ++ ' ' :: (ruleBody ruleFragments r p).toList) := by
    rw [renderInsert, renderInner_eq ruleFragments (by simp) r hp]
    simp
  rw [parseRestoreLine, hline, parseRestoreChars, splitWord_append hc]
  simp

/-- A rendered replace reads back as the replace of the rule's number by the body. -/
theorem parse_renderReplace (r : ρ) {c : String} (hc : ' ' ∉ c.toList) (n : ℕ) {p : String}
    (hp : p ≠ "") :
    parseRestoreLine (renderReplace ruleFragments r c n p) =
      some (.replace c n (ruleBody ruleFragments r p)) := by
  have hline : (renderReplace ruleFragments r c n p).toList =
      '-' :: 'R' :: ' ' :: (c.toList ++ ' ' ::
        ((toString n).toList ++ ' ' :: (ruleBody ruleFragments r p).toList)) := by
    rw [renderReplace, renderInner_eq ruleFragments (by simp) r hp]
    simp
  rw [parseRestoreLine, hline, parseRestoreChars, splitWord_append hc,
    splitWord_append (space_not_mem_toString_nat n), parseNat_toString]
  simp

end Rendered

theorem parse_renderDeleteByIndexLine {c : String} (hc : ' ' ∉ c.toList) (n : ℕ) :
    parseRestoreLine (renderDeleteByIndexLine c n) = some (.deleteIndex c n) := by
  have hline : (renderDeleteByIndexLine c n).toList =
      '-' :: 'D' :: ' ' :: (c.toList ++ ' ' :: (toString n).toList) := by
    rw [renderDeleteByIndexLine]
    simp
  rw [parseRestoreLine, hline, parseRestoreChars, splitWord_append hc, parseNat_toString]
  simp

/-- A forward reference, as `WriteForwardReference` writes it, reads back as the declaration of
the chain. -/
theorem parse_forwardReference {c : String} (hc : ' ' ∉ c.toList) :
    parseRestoreLine (":" ++ c ++ " - -") = some (.declareChain c) := by
  have hline : (":" ++ c ++ " - -").toList = ':' :: (c.toList ++ ' ' :: ['-', ' ', '-']) := by
    simp
  rw [parseRestoreLine, hline, parseRestoreChars, splitWord_append hc]
  simp

theorem parse_deleteChainLine (c : String) :
    parseRestoreLine ("--delete-chain " ++ c) = some (.deleteChain c) := by
  have hline : ("--delete-chain " ++ c).toList = "--delete-chain ".toList ++ c.toList := by simp
  have hlen : "--delete-chain ".length = 15 := by decide
  rw [parseRestoreLine, hline]
  simp [parseRestoreChars, hlen]

theorem parse_table (name : String) : parseRestoreLine ("*" ++ name) = some (.table name) := by
  simp [parseRestoreLine, parseRestoreChars]

theorem parse_commit : parseRestoreLine "COMMIT" = some .commit := by decide

/-! ## Edit scripts -/

/-- The command that does an edit of chain `c`: rule numbers count from one. -/
def editCmd (c : String) : ListEdit String → RestoreCmd
  | .set i rule => .replace c (i + 1) rule
  | .eraseAt i => .deleteIndex c (i + 1)
  | .push rule => .append c rule
attribute [grind] editCmd

theorem execChain_editCmd (c : String) (e : ListEdit String) (rules : List String) :
    (editCmd c e).execChain (some rules) = (e.apply rules).map some := by
  cases e with
  | set i rule =>
    simp only [editCmd, RestoreCmd.execChain, ListEdit.apply, Nat.add_sub_cancel]
    by_cases hi : i < rules.length
    · simp [hi, Nat.succ_le_of_lt hi]
    · simp [hi, show ¬i + 1 ≤ rules.length by omega]
  | eraseAt i =>
    simp only [editCmd, RestoreCmd.execChain, ListEdit.apply, Nat.add_sub_cancel]
    by_cases hi : i < rules.length
    · simp [hi, Nat.succ_le_of_lt hi]
    · simp [hi, show ¬i + 1 ≤ rules.length by omega]
  | push rule => rfl

/-- **The commands of an edit script do to the chain what the script does.** -/
theorem runOn_map_editCmd (c : String) :
    ∀ (es : List (ListEdit String)) (rules : List String),
      runOn c (some rules) (es.map (editCmd c)) = (ListEdit.applyAll rules es).map some
  | [], rules => rfl
  | e :: es, rules => by
    have hchain : (editCmd c e).chain? = some c := by cases e <;> rfl
    rw [List.map_cons, runOn_cons, if_pos hchain, execChain_editCmd, ListEdit.applyAll_cons]
    cases e.apply rules with
    | none => rfl
    | some rules' => exact runOn_map_editCmd c es rules'

end Felix.Iptables
