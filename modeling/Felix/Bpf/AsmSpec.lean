import Felix.Bpf.AsmRun
import Mathlib

/-!
# The assembler keeps what a block's program does

A block is built by calls that add an instruction, add a jump to a label, or give a label to
the next instruction (`AsmOp`). The block drops an instruction that nothing reaches, and
`Assemble` writes each kept jump's distance to its label into the jump's 16 offset bits. The
claim is that the program emitted then does what the instructions given to the block do,
each jump going to its label (`runUnpruned`).

That holds when every jump is a jump to a label given to a later instruction, and every jump
lands fewer than `2 ^ 15` instructions after the next one (`Fits`): the offset bits hold a
signed number, and `Assemble` writes the distance into them without a range check, so a longer
jump goes backwards. The argument follows the block through the calls (`Tracks`): the block
holds the kept instructions in order, the labels at the places of their last instructions,
and the labels that kept jumps go to, so that the instruction after a kept one that falls
through, and the label of a kept jump, are kept too. A run of the unpruned instructions then
only visits kept ones, and the emitted program runs in lock-step with it.

## Main definitions

* `AsmOp`, `build`: the calls that build a block
* `unpruned`, `labelTarget`: the instructions given to the block, and where each label is
* `kept`, `pruned`, `place`: which instructions the block kept, and where it put them
* `WellFormed`, `Fits`: the conditions of the claim

## Main results

* `Tracks.label`, `Tracks.drop`, `Tracks.keep`, `tracks_build`: every call keeps the block's
  bookkeeping
* `runUnpruned_eq_runProgram`: the lock-step simulation
* `block_assemble_correct`: the claim, under `Fits`
* `block_assemble_jump_wraps`: a conditional jump over `2 ^ 15` instructions goes backwards
-/

namespace Felix.Bpf

/-- The calls that build a block: an instruction that is not a jump (`addInsn`), a jump to a
label (`addInsnWithOffsetFixup`), and a label for the next instruction (`LabelNextInsn`). -/
inductive AsmOp
  | insn (n : Insn)
  | jump (n : Insn) (label : String)
  | label (label : String)
  deriving DecidableEq

namespace AsmOp

/-- One call on a block. -/
def apply (b : Block) : AsmOp → Block
  | .insn n => b.addInsn n
  | .jump n l => b.addInsnWithOffsetFixup n l
  | .label l => b.labelNextInsn l
attribute [grind] apply

/-- The instruction a call adds, with the label it jumps to (`""` for none). -/
def added : AsmOp → Option (Insn × String)
  | .insn n => some (n, "")
  | .jump n l => some (n, l)
  | .label _ => none
attribute [grind] added

theorem apply_of_added {b : Block} {op : AsmOp} {x : Insn × String} (h : op.added = some x) :
    op.apply b = b.addInsnWithOffsetFixup x.1 x.2 := by
  cases op with
  | insn n => cases h; rfl
  | jump n l => cases h; rfl
  | label l => cases h

end AsmOp

/-- The block a run of calls builds. -/
def build (ops : List AsmOp) : Block := ops.foldl AsmOp.apply newBlock

/-- The instructions given to the block, before it dropped any, with their labels. -/
def unpruned (ops : List AsmOp) : List (Insn × String) := ops.filterMap AsmOp.added
attribute [grind] unpruned

/-- The place of a label among the unpruned instructions: that of the instruction added after
its last `LabelNextInsn`. -/
def labelTarget : List AsmOp → String → Option ℕ
  | [], _ => none
  | .label l :: ops, L =>
    match labelTarget ops L with
    | some t => some t
    | none => if l = L then some 0 else none
  | .insn _ :: ops, L => (labelTarget ops L).map (· + 1)
  | .jump _ _ :: ops, L => (labelTarget ops L).map (· + 1)
attribute [grind] labelTarget

/-- The calls the claim is about: an instruction added without a label is not a jump, one
added with a label is a jump, and its label is given to an instruction after it. -/
def WellFormed : List AsmOp → Prop
  | [] => True
  | .insn n :: ops => n.control ≠ .goto ∧ n.control ≠ .branch ∧ WellFormed ops
  | .jump n label :: ops => (n.control = .goto ∨ n.control = .branch) ∧ label ≠ "" ∧
      AsmOp.label label ∈ ops ∧ WellFormed ops
  | .label _ :: ops => WellFormed ops

instance WellFormed.decidable : DecidablePred WellFormed
  | [] => isTrue trivial
  | .insn n :: ops =>
    have := WellFormed.decidable ops
    inferInstanceAs (Decidable (n.control ≠ .goto ∧ n.control ≠ .branch ∧ WellFormed ops))
  | .jump n label :: ops =>
    have := WellFormed.decidable ops
    inferInstanceAs (Decidable ((n.control = .goto ∨ n.control = .branch) ∧ label ≠ "" ∧
      AsmOp.label label ∈ ops ∧ WellFormed ops))
  | .label _ :: ops => WellFormed.decidable ops

/-- Each kept jump lands fewer than `2 ^ 15` instructions after the next one, so that the
distance `Assemble` writes fits in the signed offset. -/
def Fits (b : Block) : Prop :=
  ∀ fx ∈ b.fixUps, ∀ t ∈ b.labelToInsnIdx.lookup fx.label, t < fx.origInsnIdx + 1 + 2 ^ 15

instance (b : Block) : Decidable (Fits b) :=
  inferInstanceAs (Decidable (∀ fx ∈ b.fixUps, ∀ t ∈ b.labelToInsnIdx.lookup fx.label,
    t < fx.origInsnIdx + 1 + 2 ^ 15))

/-- The block after the calls, with, for each instruction added, whether the block kept it. -/
def buildKept (ops : List AsmOp) : Block × List Bool :=
  ops.foldl (fun acc op => (op.apply acc.1,
    if op.added.isSome then acc.2 ++ [acc.1.nextInsnReachble] else acc.2)) (newBlock, [])

/-- Whether the block kept each instruction added. -/
def kept (ops : List AsmOp) : List Bool := (buildKept ops).2

/-- The kept instructions, with their labels. -/
def pruned (U : List (Insn × String)) (K : List Bool) : List (Insn × String) :=
  (U.zip K).filterMap fun x => if x.2 then some x.1 else none
attribute [grind] pruned

/-- Where the block put an instruction: the number of kept instructions before it. -/
def place (K : List Bool) (p : ℕ) : ℕ := (K.take p).count true
attribute [grind] place

/-- The fix-ups of the kept instructions, one for each jump, at its place. -/
def fixUpsOf (Q : List (Insn × String)) : List FixUp :=
  Q.zipIdx.filterMap fun x => if x.1.2 = "" then none else some ⟨x.1.2, x.2⟩
attribute [grind] fixUpsOf

/-- The kept instructions with each jump's offset set as `Assemble` sets it. -/
def fixedUp (b : Block) (Q : List (Insn × String)) : List Insn :=
  Q.mapIdx fun k x =>
    if x.2 = "" then x.1
    else match b.labelToInsnIdx.lookup x.2 with
      | some t => { x.1 with offBits := UInt16.ofInt ((t : ℤ) - k - 1) }
      | none => x.1
attribute [grind] fixedUp

/-! ## The instructions and labels of a run of calls -/

section Calls

variable {ops : List AsmOp} {op : AsmOp} {L : String}

theorem build_append (ops : List AsmOp) (op : AsmOp) :
    build (ops ++ [op]) = op.apply (build ops) := by
  rw [build, List.foldl_append]
  rfl

theorem buildKept_fst (ops : List AsmOp) : (buildKept ops).1 = build ops := by
  -- the first component of the fold is the block's own fold, from any start
  have h : ∀ (l : List AsmOp) (acc : Block × List Bool),
      (l.foldl (fun acc op => (op.apply acc.1,
        if op.added.isSome then acc.2 ++ [acc.1.nextInsnReachble] else acc.2)) acc).1 =
        l.foldl AsmOp.apply acc.1 := by
    intro l
    induction l with
    | nil => exact fun _ => rfl
    | cons op l ih => exact fun acc => ih _
  exact h ops (newBlock, [])

theorem kept_append (ops : List AsmOp) (op : AsmOp) :
    kept (ops ++ [op]) =
      if op.added.isSome then kept ops ++ [(build ops).nextInsnReachble] else kept ops := by
  rw [kept, buildKept, List.foldl_append, List.foldl_cons, List.foldl_nil, ← buildKept]
  simp only [buildKept_fst, kept]

theorem unpruned_append (ops : List AsmOp) (op : AsmOp) :
    unpruned (ops ++ [op]) = unpruned ops ++ op.added.toList := by
  rw [unpruned, List.filterMap_append]
  cases op <;> rfl

theorem unpruned_cons (op : AsmOp) (ops : List AsmOp) :
    unpruned (op :: ops) = op.added.toList ++ unpruned ops := by
  cases op <;> rfl

theorem labelTarget_append_label (ops : List AsmOp) (l L : String) :
    labelTarget (ops ++ [.label l]) L =
      if l = L then some (unpruned ops).length else labelTarget ops L := by
  induction ops with
  | nil => rfl
  | cons op ops ih =>
    cases op with
    | label l' =>
      simp only [List.cons_append, labelTarget, ih, unpruned, List.filterMap_cons, AsmOp.added]
      split_ifs <;> rfl
    | insn n =>
      simp only [List.cons_append, labelTarget, ih, unpruned, List.filterMap_cons, AsmOp.added]
      split_ifs <;> rfl
    | jump n l' =>
      simp only [List.cons_append, labelTarget, ih, unpruned, List.filterMap_cons, AsmOp.added]
      split_ifs <;> rfl

theorem labelTarget_append_added {x : Insn × String} (h : op.added = some x) (L : String) :
    labelTarget (ops ++ [op]) L = labelTarget ops L := by
  induction ops with
  | nil => cases op <;> cases h <;> rfl
  | cons op' ops ih =>
    cases op' <;> simp only [List.cons_append, labelTarget, ih]

/-- A label is at an instruction given to the block, or just past the last one. -/
theorem labelTarget_le : ∀ {ops : List AsmOp} {t : ℕ}, labelTarget ops L = some t →
    t ≤ (unpruned ops).length
  | [], _, h => by cases h
  | .label l :: ops, t, h => by
    simp only [labelTarget] at h
    cases ht : labelTarget ops L with
    | some t' =>
      rw [ht] at h
      cases h
      simpa [unpruned_cons, AsmOp.added] using labelTarget_le ht
    | none =>
      rw [ht] at h
      split_ifs at h
      cases h
      exact Nat.zero_le _
  | .insn _ :: ops, t, h => by
    obtain ⟨t', ht', rfl⟩ := Option.map_eq_some_iff.mp h
    simpa [unpruned_cons, AsmOp.added] using labelTarget_le ht'
  | .jump _ _ :: ops, t, h => by
    obtain ⟨t', ht', rfl⟩ := Option.map_eq_some_iff.mp h
    simpa [unpruned_cons, AsmOp.added] using labelTarget_le ht'

theorem labelTarget_isSome : ∀ {ops : List AsmOp}, AsmOp.label L ∈ ops →
    (labelTarget ops L).isSome
  | .label l :: ops, h => by
    simp only [labelTarget]
    split
    · rfl
    · rcases List.mem_cons.mp h with h | h
      · cases h
        simp
      · rename_i hn
        have := labelTarget_isSome h
        rw [hn] at this
        cases this
  | .insn _ :: ops, h => by
    simp only [labelTarget, Option.isSome_map]
    exact labelTarget_isSome (List.mem_of_ne_of_mem (by simp) h)
  | .jump _ _ :: ops, h => by
    simp only [labelTarget, Option.isSome_map]
    exact labelTarget_isSome (List.mem_of_ne_of_mem (by simp) h)

theorem unpruned_replicate_insn (k : ℕ) (n : Insn) (ops : List AsmOp) :
    unpruned (List.replicate k (.insn n) ++ ops) = List.replicate k (n, "") ++ unpruned ops := by
  induction k with
  | zero => rfl
  | succ k ih =>
    rw [List.replicate_succ, List.cons_append, unpruned_cons, ih]
    rfl

theorem labelTarget_replicate_insn (k : ℕ) (n : Insn) (ops : List AsmOp) (L : String) :
    labelTarget (List.replicate k (.insn n) ++ ops) L = (labelTarget ops L).map (· + k) := by
  induction k with
  | zero => simp
  | succ k ih =>
    rw [List.replicate_succ, List.cons_append, labelTarget, ih, Option.map_map]
    rfl

theorem WellFormed.replicate_insn {n : Insn} (hg : n.control ≠ .goto) (hb : n.control ≠ .branch)
    (hw : WellFormed ops) (k : ℕ) : WellFormed (List.replicate k (.insn n) ++ ops) := by
  induction k with
  | zero => exact hw
  | succ k ih => exact ⟨hg, hb, ih⟩

/-- What well-formed calls give the block: an instruction without a label is not a jump, and
one with a label is a jump to a later instruction. -/
theorem WellFormed.added : ∀ {ops : List AsmOp}, WellFormed ops → ∀ {p : ℕ} {x : Insn × String},
    (unpruned ops)[p]? = some x →
      (x.2 = "" ∧ x.1.control ≠ .goto ∧ x.1.control ≠ .branch) ∨
      (x.2 ≠ "" ∧ (x.1.control = .goto ∨ x.1.control = .branch) ∧
        ∃ t, labelTarget ops x.2 = some t ∧ p < t)
  | [], _, _, _, h => by cases h
  | .label l :: ops, hw, p, x, h => by
    rcases @WellFormed.added ops hw p x h with h' | ⟨hl, hc, t, ht, hpt⟩
    · exact .inl h'
    · refine .inr ⟨hl, hc, t, ?_, hpt⟩
      simp only [labelTarget, ht]
  | .insn n :: ops, hw, p, x, h => by
    cases p with
    | zero =>
      cases h
      exact .inl ⟨rfl, hw.1, hw.2.1⟩
    | succ p =>
      rcases @WellFormed.added ops hw.2.2 p x h with h' | ⟨hl, hc, t, ht, hpt⟩
      · exact .inl h'
      · exact .inr ⟨hl, hc, t + 1, by simp [labelTarget, ht], by omega⟩
  | .jump n l :: ops, hw, p, x, h => by
    cases p with
    | zero =>
      cases h
      obtain ⟨t, ht⟩ := Option.isSome_iff_exists.mp (labelTarget_isSome hw.2.2.1)
      exact .inr ⟨hw.2.1, hw.1, t + 1, by simp [labelTarget, ht], by omega⟩
    | succ p =>
      rcases @WellFormed.added ops hw.2.2.2 p x h with h' | ⟨hl, hc, t, ht, hpt⟩
      · exact .inl h'
      · exact .inr ⟨hl, hc, t + 1, by simp [labelTarget, ht], by omega⟩

end Calls

/-! ## The kept instructions and their places -/

section Pruned

variable {U : List (Insn × String)} {K : List Bool} {x : Insn × String} {p : ℕ}

theorem pruned_cons (u : Insn × String) (k : Bool) (U : List (Insn × String)) (K : List Bool) :
    pruned (u :: U) (k :: K) = (if k then [u] else []) ++ pruned U K := by
  cases k <;> rfl

theorem pruned_append {r : Bool} (h : U.length = K.length) :
    pruned (U ++ [x]) (K ++ [r]) = pruned U K ++ if r then [x] else [] := by
  rw [pruned, List.zip_append h, List.filterMap_append]
  cases r <;> rfl

theorem length_pruned : ∀ {U : List (Insn × String)} {K : List Bool}, U.length = K.length →
    (pruned U K).length = K.count true
  | [], [], _ => rfl
  | u :: U, k :: K, h => by
    rw [pruned_cons, List.length_append, length_pruned (by simpa using h), List.count_cons]
    cases k <;> simp [Nat.add_comm]
  | [], _ :: _, h => by cases h
  | _ :: _, [], h => by cases h

theorem place_append_of_le {r : Bool} (h : p ≤ K.length) : place (K ++ [r]) p = place K p := by
  rw [place, place, List.take_append_of_le_length h]

theorem place_length : place K K.length = K.count true := by
  rw [place, List.take_length]

theorem place_succ (h : K[p]? = some true) : place K (p + 1) = place K p + 1 := by
  rw [place, place, List.take_add_one, h, List.count_append]
  rfl

theorem place_mono {t : ℕ} (h : p ≤ t) : place K p ≤ place K t :=
  (List.take_sublist_take_left h).count_le true

theorem place_of_kept : ∀ {t : ℕ}, (∀ q < t, K[q]? = some true) → place K t = t
  | 0, _ => rfl
  | t + 1, h => by
    rw [place_succ (h t (Nat.lt_succ_self t)), place_of_kept fun q hq => h q (by omega)]

/-- A kept instruction is at its place among the kept ones. -/
theorem getElem?_pruned : ∀ {U : List (Insn × String)} {K : List Bool} {p : ℕ},
    U.length = K.length → K[p]? = some true → (pruned U K)[place K p]? = U[p]?
  | u :: U, k :: K, 0, _, h => by
    cases h
    rfl
  | u :: U, k :: K, p + 1, hl, h => by
    have ih := getElem?_pruned (U := U) (K := K) (p := p) (by simpa using hl) h
    rw [pruned_cons, place, List.take_succ_cons, List.count_cons]
    cases k
    · simpa [place] using ih
    · simpa [place] using ih
  | [], [], _, _, h => by cases h
  | [], _ :: _, _, hl, _ => by cases hl
  | _ :: _, [], _, hl, _ => by cases hl

/-- Every kept instruction is a kept one of the unpruned instructions, at its place. -/
theorem exists_of_getElem?_pruned : ∀ {U : List (Insn × String)} {K : List Bool} {k : ℕ},
    U.length = K.length → (pruned U K)[k]? = some x →
      ∃ p, K[p]? = some true ∧ U[p]? = some x ∧ place K p = k
  | u :: U, k :: K, i, hl, h => by
    rw [pruned_cons] at h
    cases k
    · obtain ⟨p, hp, hx, hk⟩ := exists_of_getElem?_pruned (by simpa using hl) (by simpa using h)
      exact ⟨p + 1, hp, hx, by simpa [place] using hk⟩
    · cases i with
      | zero =>
        cases h
        exact ⟨0, rfl, rfl, rfl⟩
      | succ i =>
        obtain ⟨p, hp, hx, hk⟩ := exists_of_getElem?_pruned (by simpa using hl) (by simpa using h)
        exact ⟨p + 1, hp, hx, by simpa [place] using hk⟩
  | [], [], _, _, h => by cases h
  | [], _ :: _, _, hl, _ => by cases hl
  | _ :: _, [], _, hl, _ => by cases hl

/-- The last instruction, if kept, is the last kept one. -/
theorem getLast?_pruned (hl : U.length = K.length) (hp : p + 1 = K.length)
    (h : K[p]? = some true) : (pruned U K).getLast? = U[p]? := by
  rw [List.getLast?_eq_getElem?, length_pruned hl, ← place_length, ← hp, place_succ h,
    Nat.add_sub_cancel, getElem?_pruned hl h]

theorem fixUpsOf_append (Q : List (Insn × String)) (x : Insn × String) :
    fixUpsOf (Q ++ [x]) = fixUpsOf Q ++ if x.2 = "" then [] else [⟨x.2, Q.length⟩] := by
  rw [fixUpsOf, List.zipIdx_append, List.filterMap_append, ← fixUpsOf]
  split_ifs with hx <;> simp [hx]

theorem mem_fixUpsOf {Q : List (Insn × String)} {fx : FixUp} :
    fx ∈ fixUpsOf Q ↔ ∃ x, Q[fx.origInsnIdx]? = some x ∧ x.2 ≠ "" ∧ fx.label = x.2 := by
  simp only [fixUpsOf, List.mem_filterMap, List.mem_zipIdx_iff_getElem?]
  constructor
  · rintro ⟨⟨x, k⟩, hx, hfx⟩
    split_ifs at hfx with hl
    cases hfx
    exact ⟨x, hx, hl, rfl⟩
  · rintro ⟨x, hx, hl, hfx⟩
    exact ⟨(x, fx.origInsnIdx), hx, by rw [if_neg hl, ← hfx]⟩

end Pruned

/-! ## `Assemble` -/

section Assemble

variable {b : Block}

theorem modify_append_length {α : Type*} (f : α → α) (a : α) (r : List α) :
    ∀ l : List α, (l ++ a :: r).modify l.length f = l ++ f a :: r
  | [] => List.modify_zero_cons f a r
  | c :: l => by
    rw [List.cons_append, List.length_cons, List.modify_succ_cons, modify_append_length f a r l,
      List.cons_append]

theorem fixedUp_append (b : Block) (Q : List (Insn × String)) (x : Insn × String) :
    fixedUp b (Q ++ [x]) = fixedUp b Q ++ [if x.2 = "" then x.1
      else match b.labelToInsnIdx.lookup x.2 with
        | some t => { x.1 with offBits := UInt16.ofInt ((t : ℤ) - Q.length - 1) }
        | none => x.1] := by
  rw [fixedUp, List.mapIdx_concat]
  rfl

/-- `Assemble` fixes up the kept jumps, each at its place, when every label they go to has a
place. -/
theorem assemble_fixUpsOf {Q : List (Insn × String)}
    (hl : ∀ x ∈ Q, x.2 ≠ "" → (b.labelToInsnIdx.lookup x.2).isSome) (R : List Insn) :
    (fixUpsOf Q).foldlM b.fixUpInsns (Q.map Prod.fst ++ R) = .ok (fixedUp b Q ++ R) := by
  induction Q using List.reverseRecOn generalizing R with
  | nil => rfl
  | append_singleton Q x ih =>
    have ih' := ih (fun y hy => hl y (List.mem_append_left _ hy)) (x.1 :: R)
    rw [fixUpsOf_append, List.foldlM_append, List.map_append, List.append_assoc]
    simp only [List.map_cons, List.map_nil, List.singleton_append, ih', fixedUp_append]
    split_ifs with hx
    · simp
    · -- the jump's fix-up sets the offset at its place, past the fixed-up ones before it
      obtain ⟨t, ht⟩ := Option.isSome_iff_exists.mp (hl x (by simp) hx)
      have hlen : (fixedUp b Q).length = Q.length := List.length_mapIdx
      simp only [List.foldlM_cons, List.foldlM_nil, Block.fixUpInsns, ht]
      simp only [bind, Except.bind, pure, Except.pure]
      rw [← hlen, modify_append_length]
      simp

end Assemble

/-! ## What the block decides -/

namespace Block

variable {b : Block} {n : Insn} {L : String}

theorem nextInsnReachble_of_insns_eq_nil (h : b.insns = []) : b.nextInsnReachble = true := by
  simp [nextInsnReachble, h]

/-- An instruction with a label that an earlier jump goes to is reachable. -/
theorem nextInsnReachble_of_label (hL : L ∈ b.labelsAt b.insns.length)
    (hu : L ∈ b.inUseJumpTargets) : b.nextInsnReachble = true := by
  unfold nextInsnReachble
  split_ifs with h0 hany
  · rfl
  · rfl
  · exact absurd (List.any_eq_true.mpr ⟨L, hL, decide_eq_true hu⟩) hany

/-- The instruction after one that falls through is reachable. -/
theorem nextInsnReachble_of_getLast (h : b.insns.getLast? = some n)
    (hn : ¬(n.control = .goto ∨ n.control = .exit)) : b.nextInsnReachble = true := by
  unfold nextInsnReachble
  split_ifs
  · rfl
  · rfl
  · rw [h, Bool.not_eq_true', Bool.eq_false_iff]
    exact fun he => hn ((Insn.ends_iff n).mp he)

/-- A dropped instruction takes the labels at its place with it. -/
theorem addInsnWithOffsetFixup_of_unreachable (h : b.nextInsnReachble = false) (label : String) :
    b.addInsnWithOffsetFixup n label =
      { b with
        labelToInsnIdx := (b.labelsAt b.insns.length).foldl (fun m l => m.erase l) b.labelToInsnIdx
        insnIdxToLabels := b.insnIdxToLabels.erase b.insns.length } := by
  simp [addInsnWithOffsetFixup, h]

/-- A kept instruction is appended, and a jump's label is in use and its fix-up recorded. -/
theorem addInsnWithOffsetFixup_of_reachable (h : b.nextInsnReachble = true) (label : String) :
    b.addInsnWithOffsetFixup n label =
      { b with
        insns := b.insns ++ [n]
        inUseJumpTargets := if label = "" then b.inUseJumpTargets else b.inUseJumpTargets.add label
        fixUps := if label = "" then b.fixUps else b.fixUps ++ [⟨label, b.insns.length⟩] } := by
  unfold addInsnWithOffsetFixup
  by_cases hl : label = ""
  · simp [h, hl]
  · simp [h, hl]

end Block

theorem lookup_foldl_erase (l : List String) (m : AList fun _ : String => ℕ) (a : String) :
    (l.foldl (fun m k => m.erase k) m).lookup a = if a ∈ l then none else m.lookup a := by
  induction l generalizing m with
  | nil => simp
  | cons k l ih =>
    rw [List.foldl_cons, ih]
    by_cases hak : a = k
    · subst hak
      simp [AList.lookup_erase]
    · by_cases hal : a ∈ l
      · simp [hal]
      · simp [hal, hak, AList.lookup_erase_ne hak]

/-! ## The block's bookkeeping -/

/-- The block's bookkeeping after a run of calls, against the instructions given to it and
which of them it kept (`K`). It holds the kept instructions, the fix-ups of the kept jumps, each
label at the place of the instruction after its last `LabelNextInsn` (none if that was
dropped), the labels given since the last instruction, and the labels of the kept jumps. The
first instruction is kept, so is the one after a kept one that falls through, and so is a later
label's instruction that a kept jump goes to. -/
structure Tracks (ops : List AsmOp) (b : Block) (K : List Bool) : Prop where
  length : K.length = (unpruned ops).length
  insns : b.insns = (pruned (unpruned ops) K).map Prod.fst
  fixUps : b.fixUps = fixUpsOf (pruned (unpruned ops) K)
  labels : ∀ L, b.labelToInsnIdx.lookup L =
    (labelTarget ops L).bind fun t => if K[t]?.getD true then some (place K t) else none
  pending : ∀ L, L ∈ b.labelsAt b.insns.length ↔ labelTarget ops L = some (unpruned ops).length
  bound : ∀ k ∈ b.insnIdxToLabels, k ≤ b.insns.length
  inUse : ∀ L, L ∈ b.inUseJumpTargets ↔ L ≠ "" ∧ ∃ n, (n, L) ∈ pruned (unpruned ops) K
  first : ∀ r, K[0]? = some r → r = true
  next : ∀ p x, K[p]? = some true → (unpruned ops)[p]? = some x →
    ¬(x.1.control = .goto ∨ x.1.control = .exit) → p + 1 < K.length → K[p + 1]? = some true
  target : ∀ p x t, K[p]? = some true → (unpruned ops)[p]? = some x → x.2 ≠ "" →
    labelTarget ops x.2 = some t → p < t → t < K.length → K[t]? = some true

section Tracks

variable {ops : List AsmOp} {b : Block} {K : List Bool} {op : AsmOp} {x : Insn × String}

theorem tracks_nil : Tracks [] newBlock [] where
  length := rfl
  insns := rfl
  fixUps := rfl
  labels _ := rfl
  pending _ := by simp [Block.labelsAt, newBlock, labelTarget]
  bound _ h := absurd h (AList.notMem_empty _)
  inUse _ := by simp [newBlock, pruned, IterSet.not_mem_empty]
  first _ h := by cases h
  next _ _ h := by cases h
  target _ _ _ h := by cases h

/-- The kept instructions fill the places before the place past the last instruction. -/
theorem Tracks.length_insns (ht : Tracks ops b K) :
    b.insns.length = place K (unpruned ops).length := by
  rw [ht.insns, List.length_map, length_pruned ht.length.symm, ← ht.length, place_length]

theorem Tracks.label (ht : Tracks ops b K) (l : String) :
    Tracks (ops ++ [.label l]) (b.labelNextInsn l) K := by
  have hU : unpruned (ops ++ [.label l]) = unpruned ops := by
    simp [unpruned_append, AsmOp.added]
  have hnone : K[(unpruned ops).length]? = none := List.getElem?_eq_none (by rw [ht.length])
  refine ⟨hU ▸ ht.length, hU ▸ ht.insns, hU ▸ ht.fixUps, fun L => ?_, fun L => ?_, ?_,
    hU ▸ ht.inUse, ht.first, hU ▸ ht.next, fun p y t hp hy hl hT hpt htK => ?_⟩
  · -- the label is at the place past the last instruction
    show (b.labelToInsnIdx.insert l b.insns.length).lookup L = _
    rw [labelTarget_append_label]
    by_cases hl : l = L
    · subst hl
      rw [AList.lookup_insert, if_pos rfl, Option.bind_some, hnone, Option.getD_none, if_pos rfl,
        ht.length_insns]
    · rw [AList.lookup_insert_ne (Ne.symm hl), if_neg hl, ht.labels]
  · show L ∈ ((b.insnIdxToLabels.insert b.insns.length
      (b.labelsAt b.insns.length ++ [l])).lookup b.insns.length).getD [] ↔ _
    rw [AList.lookup_insert, Option.getD_some, List.mem_append, List.mem_singleton, ht.pending,
      labelTarget_append_label, hU]
    by_cases hl : l = L
    · simp [hl]
    · simp [hl, Ne.symm hl]
  · intro k hk
    rcases (AList.mem_insert _).mp hk with rfl | hk
    · exact le_rfl
    · exact ht.bound k hk
  · -- a label given now is past the last instruction
    rw [hU] at hy
    rw [labelTarget_append_label] at hT
    split_ifs at hT with hly
    · cases hT
      rw [ht.length] at htK
      exact absurd htK (lt_irrefl _)
    · exact ht.target p y t hp hy hl hT hpt htK

theorem Tracks.drop (ht : Tracks ops b K) (hx : op.added = some x)
    (hr : b.nextInsnReachble = false) :
    Tracks (ops ++ [op]) (b.addInsnWithOffsetFixup x.1 x.2) (K ++ [false]) := by
  have hU : unpruned (ops ++ [op]) = unpruned ops ++ [x] := by
    rw [unpruned_append, hx, Option.toList_some]
  have hQ : pruned (unpruned ops ++ [x]) (K ++ [false]) = pruned (unpruned ops) K := by
    rw [pruned_append ht.length.symm, if_neg Bool.false_ne_true, List.append_nil]
  have hT : ∀ L, labelTarget (ops ++ [op]) L = labelTarget ops L :=
    fun L => labelTarget_append_added hx L
  have hK : ∀ t, t < K.length → (K ++ [false])[t]? = K[t]? := fun t h =>
    List.getElem?_append_left h
  rw [Block.addInsnWithOffsetFixup_of_unreachable hr]
  refine ⟨?_, ?_, ?_, fun L => ?_, fun L => ?_, ?_, fun L => ?_, fun r h => ?_,
    fun p y hp hy hn hpK => ?_, fun p y t hp hy hl hT' hpt htK => ?_⟩
  · simp [hU, ht.length]
  · rw [hU, hQ]
    exact ht.insns
  · rw [hU, hQ]
    exact ht.fixUps
  · -- the labels at the dropped place lose their place
    show (List.foldl (fun m l => m.erase l) b.labelToInsnIdx (b.labelsAt b.insns.length)).lookup L = _
    rw [lookup_foldl_erase, hT]
    by_cases hL : L ∈ b.labelsAt b.insns.length
    · rw [if_pos hL, (ht.pending L).mp hL, Option.bind_some,
        List.getElem?_append_right (by rw [ht.length]), ht.length, Nat.sub_self]
      rfl
    · rw [if_neg hL, ht.labels]
      rw [ht.pending] at hL
      cases hTL : labelTarget ops L with
      | none => rfl
      | some t =>
        have htlt : t < K.length := by
          have := labelTarget_le hTL
          rw [ht.length]
          exact lt_of_le_of_ne this fun h => hL (h ▸ hTL)
        simp only [Option.bind_some, hK t htlt, place_append_of_le (Nat.le_of_lt htlt)]
  · show L ∈ ((b.insnIdxToLabels.erase b.insns.length).lookup b.insns.length).getD [] ↔ _
    rw [AList.lookup_erase, hT, hU, List.length_append, List.length_singleton]
    simp only [Option.getD_none, List.not_mem_nil, false_iff]
    intro h
    have := labelTarget_le h
    omega
  · intro k hk
    exact ht.bound k (AList.mem_erase.mp hk).2
  · rw [hU, hQ]
    exact ht.inUse L
  · -- the block drops nothing while it has no instruction
    cases K with
    | nil =>
      have hnil : b.insns = [] := by
        rw [ht.insns, List.length_eq_zero_iff.mp ht.length.symm]
        rfl
      rw [Block.nextInsnReachble_of_insns_eq_nil hnil] at hr
      cases hr
    | cons k K' => exact ht.first r (by simpa using h)
  · -- the instruction after a kept one that falls through is not dropped
    rw [List.length_append, List.length_singleton] at hpK
    have hpK' : p < K.length := by omega
    rw [hK p hpK'] at hp
    rw [hU, List.getElem?_append_left (by rw [← ht.length]; exact hpK')] at hy
    rcases Nat.lt_or_ge (p + 1) K.length with hlt | hge
    · rw [hK _ hlt]
      exact ht.next p y hp hy hn hlt
    · have hlast := getLast?_pruned ht.length.symm (by omega) hp
      rw [hy] at hlast
      have hins : b.insns.getLast? = some y.1 := by
        rw [ht.insns, List.getLast?_map, hlast]
        rfl
      rw [Block.nextInsnReachble_of_getLast hins hn] at hr
      cases hr
  · -- the label of a kept jump is not dropped
    rw [List.length_append, List.length_singleton] at htK
    have hpK' : p < K.length := by omega
    rw [hK p hpK'] at hp
    rw [hU, List.getElem?_append_left (by rw [← ht.length]; exact hpK')] at hy
    rw [hT] at hT'
    rcases Nat.lt_or_ge t K.length with hlt | hge
    · rw [hK _ hlt]
      exact ht.target p y t hp hy hl hT' hpt hlt
    · have htU : t = (unpruned ops).length := by rw [← ht.length]; omega
      have hmem : (y.1, y.2) ∈ pruned (unpruned ops) K :=
        List.mem_of_getElem? ((getElem?_pruned ht.length.symm hp).trans hy)
      have hpend : y.2 ∈ b.labelsAt b.insns.length := (ht.pending y.2).mpr (htU ▸ hT')
      rw [Block.nextInsnReachble_of_label hpend ((ht.inUse y.2).mpr ⟨hl, y.1, hmem⟩)] at hr
      cases hr

theorem getD_append_true {K : List Bool} {t : ℕ} (h : t ≤ K.length) :
    (K ++ [true])[t]?.getD true = K[t]?.getD true := by
  rcases Nat.lt_or_ge t K.length with hlt | hge
  · rw [List.getElem?_append_left hlt]
  · have hK : t = K.length := le_antisymm h hge
    subst hK
    simp

theorem Tracks.keep (ht : Tracks ops b K) (hx : op.added = some x)
    (hr : b.nextInsnReachble = true) :
    Tracks (ops ++ [op]) (b.addInsnWithOffsetFixup x.1 x.2) (K ++ [true]) := by
  have hU : unpruned (ops ++ [op]) = unpruned ops ++ [x] := by
    rw [unpruned_append, hx, Option.toList_some]
  have hQ : pruned (unpruned ops ++ [x]) (K ++ [true]) = pruned (unpruned ops) K ++ [x] := by
    rw [pruned_append ht.length.symm, if_pos rfl]
  have hT : ∀ L, labelTarget (ops ++ [op]) L = labelTarget ops L :=
    fun L => labelTarget_append_added hx L
  have hQlen : (pruned (unpruned ops) K).length = b.insns.length := by
    rw [ht.insns, List.length_map]
  have hK : ∀ t, t < K.length → (K ++ [true])[t]? = K[t]? := fun t h =>
    List.getElem?_append_left h
  have hKend : (K ++ [true])[K.length]? = some true := by simp
  rw [Block.addInsnWithOffsetFixup_of_reachable hr]
  refine ⟨?_, ?_, ?_, fun L => ?_, fun L => ?_, ?_, fun L => ?_, fun r h => ?_,
    fun p y hp hy hn hpK => ?_, fun p y t hp hy hl hT' hpt htK => ?_⟩
  · simp [hU, ht.length]
  · rw [hU, hQ, List.map_append, ← ht.insns]
    rfl
  · -- a kept jump's fix-up is at its place
    show (if x.2 = "" then b.fixUps else b.fixUps ++ [⟨x.2, b.insns.length⟩]) = _
    rw [hU, hQ, fixUpsOf_append, ← ht.fixUps, hQlen]
    split_ifs <;> simp
  · -- the labels keep their places; one past the last instruction is now this one's
    rw [ht.labels, hT]
    cases hTL : labelTarget ops L with
    | none => rfl
    | some t =>
      have htle : t ≤ K.length := ht.length ▸ labelTarget_le hTL
      simp only [Option.bind_some, getD_append_true htle, place_append_of_le htle]
  · show L ∈ (b.insnIdxToLabels.lookup (b.insns ++ [x.1]).length).getD [] ↔ _
    have hnone : b.insnIdxToLabels.lookup (b.insns ++ [x.1]).length = none := by
      rw [AList.lookup_eq_none]
      intro hmem
      have := ht.bound _ hmem
      simp only [List.length_append, List.length_singleton] at this
      omega
    rw [hnone, hT, hU, List.length_append, List.length_singleton]
    simp only [Option.getD_none, List.not_mem_nil, false_iff]
    intro h
    have := labelTarget_le h
    omega
  · intro k hk
    have := ht.bound k hk
    simp only [List.length_append, List.length_singleton]
    omega
  · -- a kept jump's label is in use
    show L ∈ (if x.2 = "" then b.inUseJumpTargets else b.inUseJumpTargets.add x.2) ↔ _
    rw [hU, hQ]
    simp only [List.mem_append, List.mem_singleton]
    split_ifs with hx2
    · rw [ht.inUse]
      constructor
      · rintro ⟨hL, n, hn⟩
        exact ⟨hL, n, .inl hn⟩
      · rintro ⟨hL, n, hn | hn⟩
        · exact ⟨hL, n, hn⟩
        · cases hn
          exact absurd hx2 hL
    · rw [IterSet.mem_add, ht.inUse]
      constructor
      · rintro (rfl | ⟨hL, n, hn⟩)
        · exact ⟨hx2, x.1, .inr rfl⟩
        · exact ⟨hL, n, .inl hn⟩
      · rintro ⟨hL, n, hn | hn⟩
        · exact .inr ⟨hL, n, hn⟩
        · cases hn
          exact .inl rfl
  · cases K with
    | nil =>
      cases h
      rfl
    | cons k K' => exact ht.first r (by simpa using h)
  · rw [List.length_append, List.length_singleton] at hpK
    have hpK' : p < K.length := by omega
    rw [hK p hpK'] at hp
    rw [hU, List.getElem?_append_left (by rw [← ht.length]; exact hpK')] at hy
    rcases Nat.lt_or_ge (p + 1) K.length with hlt | hge
    · rw [hK _ hlt]
      exact ht.next p y hp hy hn hlt
    · rw [show p + 1 = K.length by omega]
      exact hKend
  · rw [List.length_append, List.length_singleton] at htK
    have hpK' : p < K.length := by omega
    rw [hK p hpK'] at hp
    rw [hU, List.getElem?_append_left (by rw [← ht.length]; exact hpK')] at hy
    rw [hT] at hT'
    rcases Nat.lt_or_ge t K.length with hlt | hge
    · rw [hK _ hlt]
      exact ht.target p y t hp hy hl hT' hpt hlt
    · rw [show t = K.length by omega]
      exact hKend

/-- When every instruction but the last falls through, the block keeps them all. -/
theorem Tracks.kept_of_falls (ht : Tracks ops b K)
    (hf : ∀ x ∈ (unpruned ops).dropLast, ¬(x.1.control = .goto ∨ x.1.control = .exit)) :
    ∀ p < K.length, K[p]? = some true := by
  intro p
  -- by induction on the place, from the first instruction, which is always kept
  induction p with
  | zero =>
    intro h0
    obtain ⟨r, hr⟩ : ∃ r, K[0]? = some r := ⟨_, List.getElem?_eq_getElem h0⟩
    rw [hr, ht.first r hr]
  | succ p ih =>
    intro hp
    have hpK : p < K.length := by omega
    obtain ⟨x, hx⟩ : ∃ x, (unpruned ops)[p]? = some x :=
      ⟨_, List.getElem?_eq_getElem (ht.length ▸ hpK)⟩
    have hmem : x ∈ (unpruned ops).dropLast := by
      rw [List.dropLast_eq_take]
      apply List.mem_of_getElem? (i := p)
      rw [List.getElem?_take, if_pos (by rw [← ht.length]; omega), hx]
    exact ht.next p x (ih hpK) hx (hf x hmem) hp

/-- The bookkeeping holds after every run of calls. -/
theorem tracks_build (ops : List AsmOp) : Tracks ops (build ops) (kept ops) := by
  induction ops using List.reverseRecOn with
  | nil => exact tracks_nil
  | append_singleton ops op ih =>
    rw [build_append, kept_append]
    cases hx : op.added with
    | none =>
      simp only [Option.isSome_none, Bool.false_eq_true, if_false]
      cases op with
      | label l => exact ih.label l
      | insn n => cases hx
      | jump n l => cases hx
    | some x =>
      rw [AsmOp.apply_of_added hx, Option.isSome_some, if_pos rfl]
      cases hr : (build ops).nextInsnReachble
      · exact ih.drop hx hr
      · exact ih.keep hx hr

end Tracks

/-! ## The emitted program runs in lock-step with the unpruned one -/

section Simulation

variable {σ ρ : Type*} {ops : List AsmOp} {b : Block} {K : List Bool} {p : ℕ}
  {y : Insn × String}

/-- A run of the unpruned instructions is at a kept one, or just past the last one. -/
def Visits (ops : List AsmOp) (K : List Bool) (p : ℕ) : Prop :=
  p = (unpruned ops).length ∨ K[p]? = some true

theorem Tracks.visits_zero (ht : Tracks ops b K) : Visits ops K 0 := by
  cases hK : K with
  | nil => exact .inl (by rw [← ht.length, hK]; rfl)
  | cons k K' => exact .inr (by rw [ht.first k (by rw [hK]; rfl)]; rfl)

/-- After a kept instruction that falls through, the run is at a kept one or past the last. -/
theorem Tracks.visits_succ (ht : Tracks ops b K) (hp : K[p]? = some true)
    (hy : (unpruned ops)[p]? = some y) (hn : ¬(y.1.control = .goto ∨ y.1.control = .exit)) :
    Visits ops K (p + 1) := by
  have hpK : p < K.length := (List.getElem?_eq_some_iff.mp hp).1
  rcases Nat.lt_or_ge (p + 1) K.length with hlt | hge
  · exact .inr (ht.next p y hp hy hn hlt)
  · exact .inl (by rw [← ht.length]; omega)

/-- A kept jump's label is at a later instruction that is kept, or just past the last one,
and the block has its place. -/
theorem Tracks.jump_target (ht : Tracks ops b K) (hw : WellFormed ops)
    (hp : K[p]? = some true) (hy : (unpruned ops)[p]? = some y) (hl : y.2 ≠ "") :
    ∃ t, labelTarget ops y.2 = some t ∧ p < t ∧ Visits ops K t ∧
      b.labelToInsnIdx.lookup y.2 = some (place K t) := by
  obtain ⟨t, hT, hpt⟩ : ∃ t, labelTarget ops y.2 = some t ∧ p < t := by
    rcases hw.added hy with ⟨hl', -⟩ | ⟨-, -, h⟩
    · exact absurd hl' hl
    · exact h
  have hvis : Visits ops K t := by
    rcases Nat.lt_or_ge t K.length with hlt | hge
    · exact .inr (ht.target p y t hp hy hl hT hpt hlt)
    · exact .inl (le_antisymm (labelTarget_le hT) (ht.length ▸ hge))
  refine ⟨t, hT, hpt, hvis, ?_⟩
  rw [ht.labels, hT, Option.bind_some]
  rcases hvis with rfl | hk
  · rw [List.getElem?_eq_none (by rw [ht.length]), Option.getD_none, if_pos rfl]
  · rw [hk, Option.getD_some, if_pos rfl]

/-- Where the emitted program has a kept instruction: at its place, with a jump's offset set to
its label's place. -/
theorem Tracks.getElem?_fixedUp (ht : Tracks ops b K) (hp : K[p]? = some true)
    (hy : (unpruned ops)[p]? = some y) :
    (fixedUp b (pruned (unpruned ops) K))[place K p]? =
      some (if y.2 = "" then y.1
        else match b.labelToInsnIdx.lookup y.2 with
          | some t => { y.1 with offBits := UInt16.ofInt ((t : ℤ) - place K p - 1) }
          | none => y.1) := by
  rw [fixedUp, List.getElem?_mapIdx, getElem?_pruned ht.length.symm hp, hy]
  rfl

/-- A kept jump lands on its label's place, when its distance fits the offset. -/
theorem Tracks.off_lands (ht : Tracks ops b K) (hfit : Fits b) (hp : K[p]? = some true)
    (hy : (unpruned ops)[p]? = some y) (hl : y.2 ≠ "") {t : ℕ} (hpt : p < t)
    (hlook : b.labelToInsnIdx.lookup y.2 = some (place K t)) :
    (place K p : ℤ) + 1 +
      ({ y.1 with offBits := UInt16.ofInt ((place K t : ℤ) - place K p - 1) } : Insn).off.toInt =
      place K t := by
  have hfx : (⟨y.2, place K p⟩ : FixUp) ∈ b.fixUps := by
    rw [ht.fixUps, mem_fixUpsOf]
    exact ⟨y, (getElem?_pruned ht.length.symm hp).trans hy, hl, rfl⟩
  have hfar := hfit _ hfx (place K t) hlook
  -- the label is past the jump's own place
  have hnear : place K p + 1 ≤ place K t := by
    rw [← place_succ hp]
    exact place_mono hpt
  show (place K p : ℤ) + 1 + (UInt16.ofInt ((place K t : ℤ) - place K p - 1)).toInt16.toInt = _
  rw [toInt_toInt16_ofInt (by omega) (by push_cast at hfar ⊢; omega)]
  omega

theorem Tracks.fetch_fixedUp_length (ht : Tracks ops b K) :
    fetch (fixedUp b (pruned (unpruned ops) K)) (place K (unpruned ops).length) = none := by
  show (fixedUp b (pruned (unpruned ops) K))[place K (unpruned ops).length]? = none
  apply List.getElem?_eq_none
  rw [fixedUp, List.length_mapIdx, length_pruned ht.length.symm, ← ht.length, place_length]

/-- The lock-step simulation: from a place the unpruned run visits, the emitted program, from
that instruction's place, ends the same way with the same fuel. By induction on the fuel, with
a case for each kind of instruction. -/
theorem runUnpruned_eq_runProgram (M : Machine σ ρ) (ht : Tracks ops b K) (hw : WellFormed ops)
    (hfit : Fits b) : ∀ fuel p s, Visits ops K p →
      runUnpruned M (unpruned ops) (labelTarget ops) fuel p s =
        runProgram M (fixedUp b (pruned (unpruned ops) K)) fuel (place K p) s := by
  intro fuel
  induction fuel with
  | zero => intro p s _; rfl
  | succ fuel ih =>
    intro p s hp
    rcases hp with rfl | hp
    · -- past the last instruction, in both
      simp only [runUnpruned, runProgram, List.getElem?_eq_none le_rfl, ht.fetch_fixedUp_length]
    · have hpK : p < (unpruned ops).length := ht.length ▸ (List.getElem?_eq_some_iff.mp hp).1
      obtain ⟨⟨n, L⟩, hy⟩ : ∃ y, (unpruned ops)[p]? = some y :=
        ⟨_, List.getElem?_eq_getElem hpK⟩
      have hP := ht.getElem?_fixedUp hp hy
      have hsucc : ((place K (p + 1) : ℕ) : ℤ) = place K p + 1 := by
        rw [place_succ hp]
        push_cast
        rfl
      rcases hw.added hy with ⟨hl, hg, hb⟩ | ⟨hl, hc, -⟩
      · -- an instruction without a label is emitted as it is, and falls through or ends
        simp only at hl
        rw [if_pos hl] at hP
        have hfetch : fetch (fixedUp b (pruned (unpruned ops) K)) (place K p) = some n := hP
        simp only [runUnpruned, runProgram, hy, hfetch]
        cases hcn : n.control with
        | exit => rfl
        | goto => exact absurd hcn hg
        | branch => exact absurd hcn hb
        | step =>
          cases M.exec n s with
          | error r => rfl
          | ok s' =>
            simp only
            rw [← hsucc]
            exact ih (p + 1) s' (ht.visits_succ hp hy (by simp [hcn]))
      · -- a jump is emitted with the offset of its label's place
        simp only at hl hc
        obtain ⟨t, hT, hpt, hvis, hlook⟩ := ht.jump_target hw hp hy hl
        rw [if_neg hl, hlook] at hP
        have hfetch : fetch (fixedUp b (pruned (unpruned ops) K)) (place K p) =
            some { n with offBits := UInt16.ofInt ((place K t : ℤ) - place K p - 1) } := hP
        have hoff := ht.off_lands hfit hp hy hl hpt hlook
        simp only [runUnpruned, runProgram, hy, hfetch, hT, Insn.control_offBits,
          M.taken_offBits]
        rcases hc with hcn | hcn
        · rw [hcn]
          simp only
          rw [hoff]
          exact ih t s hvis
        · rw [hcn]
          simp only
          split_ifs
          · rw [hoff]
            exact ih t s hvis
          · rw [← hsucc]
            exact ih (p + 1) s (ht.visits_succ hp hy (by simp [hcn]))

/-- `Assemble` succeeds: every kept jump's label has a place. -/
theorem Tracks.assemble (ht : Tracks ops b K) (hw : WellFormed ops) :
    b.assemble = .ok (fixedUp b (pruned (unpruned ops) K)) := by
  have hl : ∀ x ∈ pruned (unpruned ops) K, x.2 ≠ "" → (b.labelToInsnIdx.lookup x.2).isSome := by
    intro x hx hl
    obtain ⟨k, hk⟩ := List.getElem?_of_mem hx
    obtain ⟨p, hp, hy, -⟩ := exists_of_getElem?_pruned ht.length.symm hk
    obtain ⟨t, -, -, -, hlook⟩ := ht.jump_target hw hp hy hl
    rw [hlook]
    rfl
  have h := assemble_fixUpsOf hl []
  rw [List.append_nil, List.append_nil, ← ht.insns, ← ht.fixUps] at h
  exact h

/-- Each fix-up's jump lands on its label's place. -/
theorem Tracks.fixUp_lands (ht : Tracks ops b K) (hw : WellFormed ops) (hfit : Fits b)
    {fx : FixUp} (hfx : fx ∈ b.fixUps) :
    ∃ t n, b.labelToInsnIdx.lookup fx.label = some t ∧
      (fixedUp b (pruned (unpruned ops) K))[fx.origInsnIdx]? = some n ∧
      (fx.origInsnIdx : ℤ) + 1 + n.off.toInt = t := by
  rw [ht.fixUps, mem_fixUpsOf] at hfx
  obtain ⟨y, hk, hl, hlabel⟩ := hfx
  obtain ⟨p, hp, hy, hpk⟩ := exists_of_getElem?_pruned ht.length.symm hk
  rw [← hpk]
  obtain ⟨t, -, hpt, -, hlook⟩ := ht.jump_target hw hp hy hl
  have hP := ht.getElem?_fixedUp hp hy
  rw [if_neg hl, hlook] at hP
  exact ⟨place K t, _, hlabel ▸ hlook, hP, ht.off_lands hfit hp hy hl hpt hlook⟩

end Simulation

/-! ## The claim -/

/-- For calls that add instructions and jumps to labels given later, when every jump lands
fewer than `2 ^ 15` instructions after the next one: `Assemble` succeeds; each fixed-up jump's
offset, read as the kernel reads it, takes it to its label's instruction; and the emitted
program, run from its first instruction on any machine, ends exactly as the instructions given
to the block do, each jump going to its label. -/
theorem block_assemble_correct {σ ρ : Type*} (M : Machine σ ρ) {ops : List AsmOp}
    (hw : WellFormed ops) (hfit : Fits (build ops)) :
    ∃ P, (build ops).assemble = .ok P ∧
      (∀ fx ∈ (build ops).fixUps, ∃ t n, (build ops).labelToInsnIdx.lookup fx.label = some t ∧
        P[fx.origInsnIdx]? = some n ∧ (fx.origInsnIdx : ℤ) + 1 + n.off.toInt = t) ∧
      ∀ fuel s, runProgram M P fuel 0 s =
        runUnpruned M (unpruned ops) (labelTarget ops) fuel 0 s := by
  have ht := tracks_build ops
  refine ⟨_, ht.assemble hw, fun fx hfx => ht.fixUp_lands hw hfit hfx, fun fuel s => ?_⟩
  have h := runUnpruned_eq_runProgram M ht hw hfit fuel 0 s ht.visits_zero
  rw [h]
  rfl

/-! ## A jump over `k` instructions -/

/-- A conditional jump over `k` instructions that fall through, to an `Exit`. -/
def jumpOver (k : ℕ) : List AsmOp :=
  .jump (makeInsn OpCode.jumpEqImm64 1 0 0 0) "L" ::
    (List.replicate k (.insn (makeInsn OpCode.movImm64 0 0 0 0)) ++
      [.label "L", .insn (makeInsn OpCode.exit 0 0 0 0)])
attribute [grind] jumpOver

/-- A machine on which every conditional jump is taken. -/
def alwaysTaken : Machine Unit Unit where
  exec _ s := .ok s
  taken _ _ := true
  taken_offBits _ _ _ := rfl

theorem block_assemble_correct_jumpOver_one :
    WellFormed (jumpOver 1) ∧ Fits (build (jumpOver 1)) ∧
      ∃ P, (build (jumpOver 1)).assemble = .ok P ∧
        (∀ fx ∈ (build (jumpOver 1)).fixUps, ∃ t n,
          (build (jumpOver 1)).labelToInsnIdx.lookup fx.label = some t ∧
          P[fx.origInsnIdx]? = some n ∧ (fx.origInsnIdx : ℤ) + 1 + n.off.toInt = t) ∧
        ∀ fuel s, runProgram alwaysTaken P fuel 0 s =
          runUnpruned alwaysTaken (unpruned (jumpOver 1)) (labelTarget (jumpOver 1)) fuel 0 s :=
  have hw : WellFormed (jumpOver 1) := by decide
  have hfit : Fits (build (jumpOver 1)) := by decide
  ⟨hw, hfit, block_assemble_correct alwaysTaken hw hfit⟩

section JumpOver

variable (k : ℕ)

theorem unpruned_jumpOver : unpruned (jumpOver k) =
    (makeInsn OpCode.jumpEqImm64 1 0 0 0, "L") ::
      (List.replicate k (makeInsn OpCode.movImm64 0 0 0 0, "") ++
        [(makeInsn OpCode.exit 0 0 0 0, "")]) := by
  rw [jumpOver, unpruned_cons, unpruned_replicate_insn]
  rfl

theorem getElem?_unpruned_jumpOver_last :
    (unpruned (jumpOver k))[k + 1]? = some (makeInsn OpCode.exit 0 0 0 0, "") := by
  rw [unpruned_jumpOver, List.getElem?_cons_succ, List.getElem?_append_right (by simp)]
  simp

theorem labelTarget_jumpOver : labelTarget (jumpOver k) "L" = some (k + 1) := by
  rw [jumpOver, labelTarget, labelTarget_replicate_insn]
  simp [labelTarget]

theorem wellFormed_jumpOver : WellFormed (jumpOver k) := by
  refine ⟨.inr (by decide), by decide, by simp, ?_⟩
  exact WellFormed.replicate_insn (by decide) (by decide) (by decide) k

/-- No instruction of the run ends it before the `Exit`, so the block keeps them all. -/
theorem kept_jumpOver : ∀ p < k + 2, (kept (jumpOver k))[p]? = some true := by
  have ht := tracks_build (jumpOver k)
  have hlen : (kept (jumpOver k)).length = k + 2 := by
    rw [ht.length, unpruned_jumpOver]
    simp
  rw [← hlen]
  apply ht.kept_of_falls
  rw [unpruned_jumpOver, ← List.cons_append, List.dropLast_concat]
  intro x hx
  rcases List.mem_cons.mp hx with rfl | hx
  · decide
  · rw [List.eq_of_mem_replicate hx]
    decide

theorem lookup_jumpOver : (build (jumpOver k)).labelToInsnIdx.lookup "L" = some (k + 1) := by
  have ht := tracks_build (jumpOver k)
  have hK := kept_jumpOver k
  rw [ht.labels, labelTarget_jumpOver, Option.bind_some, hK (k + 1) (by omega), Option.getD_some,
    if_pos rfl, place_of_kept fun q hq => hK q (by omega)]

/-- The jump is emitted first, with the distance `k` in its offset bits. -/
theorem assemble_jumpOver : ∃ P, (build (jumpOver k)).assemble = .ok P ∧
    P[0]? = some { makeInsn OpCode.jumpEqImm64 1 0 0 0 with offBits := UInt16.ofInt k } := by
  have ht := tracks_build (jumpOver k)
  refine ⟨_, ht.assemble (wellFormed_jumpOver k), ?_⟩
  have h := ht.getElem?_fixedUp (kept_jumpOver k 0 (by omega)) (by rw [unpruned_jumpOver]; rfl)
  rw [if_neg (by decide), lookup_jumpOver] at h
  simpa [place] using h

/-- The unpruned run takes the jump to the label's instruction, an `Exit`. -/
theorem runUnpruned_jumpOver :
    runUnpruned alwaysTaken (unpruned (jumpOver k)) (labelTarget (jumpOver k)) 2 0 () =
      some (.exit ()) := by
  have hj : (unpruned (jumpOver k))[0]? = some (makeInsn OpCode.jumpEqImm64 1 0 0 0, "L") := by
    rw [unpruned_jumpOver, List.getElem?_cons_zero]
  have hcj : (makeInsn OpCode.jumpEqImm64 1 0 0 0).control = .branch := by decide
  have hce : (makeInsn OpCode.exit 0 0 0 0).control = .exit := by decide
  have ht : alwaysTaken.taken (makeInsn OpCode.jumpEqImm64 1 0 0 0) () = true := rfl
  simp only [runUnpruned, hj, hcj, ht, if_true, labelTarget_jumpOver,
    getElem?_unpruned_jumpOver_last, hce]

end JumpOver

/-- Over `2 ^ 15` instructions the calls are well formed and `Assemble` succeeds, but the
distance `2 ^ 15 + 1 - 0 - 1` it writes reads as `-2 ^ 15`: the emitted jump goes before the
program where the unpruned one reaches its `Exit`. -/
theorem block_assemble_jump_wraps :
    WellFormed (jumpOver (2 ^ 15)) ∧ ∃ P, (build (jumpOver (2 ^ 15))).assemble = .ok P ∧
      (build (jumpOver (2 ^ 15))).labelToInsnIdx.lookup "L" = some (2 ^ 15 + 1) ∧
      (P[0]?.map fun n => n.off.toInt) = some (-2 ^ 15) ∧
      runProgram alwaysTaken P 2 0 () = some .fault ∧
      runUnpruned alwaysTaken (unpruned (jumpOver (2 ^ 15))) (labelTarget (jumpOver (2 ^ 15)))
        2 0 () = some (.exit ()) := by
  obtain ⟨P, hP, h0⟩ := assemble_jumpOver (2 ^ 15)
  refine ⟨wellFormed_jumpOver _, P, hP, lookup_jumpOver _, by rw [h0]; decide, ?_,
    runUnpruned_jumpOver _⟩
  -- the taken jump goes back past the start of the program
  have hf : fetch P 0 = P[0]? := rfl
  simp only [runProgram, hf, h0, Insn.control_offBits]
  rfl

end Felix.Bpf
