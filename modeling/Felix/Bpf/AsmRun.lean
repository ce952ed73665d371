import Felix.Bpf.Asm

/-!
# Running eBPF programs

What an assembled program does, as far as the assembler can change it: where control goes.
An instruction is an `Exit`, the unconditional jump, a conditional jump, or an instruction
that acts on the machine and falls through to the next one. What the acting instructions do,
and when a conditional jump is taken, is left to a `Machine`, so that the theorems about the
assembler hold for every machine. A jump goes to the instruction after it plus its offset,
read as a signed 16-bit number, as the kernel reads it.

Two programs are run. `runProgram` runs the instructions `Assemble` emits. `runUnpruned`
runs the instructions a block was given before it dropped any, each jump going to the
instruction its label was given to.

## Main definitions

* `Insn.control`: what an instruction does to the control flow
* `Machine`: the effect of the other instructions and the conditions of the jumps
* `runProgram`, `runUnpruned`: runs with fuel, to an `Outcome`
-/

namespace Felix.Bpf

/-- What an instruction does to the control flow. -/
inductive Control
  | exit
  | goto
  | branch
  | step
  deriving DecidableEq, Repr

/-- The control flow of an instruction, by its opcode: `Exit`, `JumpA`, another jump of either
jump class (a call is not a jump), or an instruction that falls through. -/
def Insn.control (n : Insn) : Control :=
  if n.opCode = OpCode.exit then .exit
  else if n.opCode = OpCode.jumpA then .goto
  else if (n.opCode &&& 0x07 = opClassJump64 ∨ n.opCode &&& 0x07 = opClassJump32) ∧
      n.opCode &&& 0xf0 ≠ jumpOpCall ∧ n.opCode &&& 0xf0 ≠ jumpOpExit then .branch
  else .step

/-- The offset says only where a jump goes. -/
@[simp] theorem Insn.control_offBits (n : Insn) (o : UInt16) :
    ({ n with offBits := o } : Insn).control = n.control := rfl

/-- The instructions after which `nextInsnReachble` finds no fall-through: `JumpA` and
`Exit`. -/
theorem Insn.ends_iff (n : Insn) :
    (n.opCode = OpCode.jumpA || n.opCode = OpCode.exit) = true ↔
      n.control = .goto ∨ n.control = .exit := by
  unfold Insn.control
  by_cases he : n.opCode = OpCode.exit
  · simp [he]
  · by_cases hj : n.opCode = OpCode.jumpA
    · rw [if_neg he, if_pos hj]
      simp [hj]
    · simp only [he, hj, if_false, Bool.or_self]
      split_ifs <;> simp

/-- The machine the program runs on. `exec` runs an instruction that is neither a jump nor an
`Exit`: it gives the next state, or leaves the program in another way (a tail call, say).
`taken` is whether a conditional jump is taken. Neither depends on a jump's offset. -/
structure Machine (σ ρ : Type*) where
  exec : Insn → σ → Except ρ σ
  taken : Insn → σ → Bool
  taken_offBits : ∀ n o s, taken { n with offBits := o } s = taken n s

/-- How a run ends: by `Exit` in a state, by leaving the program otherwise, or at a place
where there is no instruction. -/
inductive Outcome (σ ρ : Type*)
  | exit (s : σ)
  | left (r : ρ)
  | fault
  deriving DecidableEq, Repr

variable {σ ρ : Type*}

/-- The instruction at a place, if there is one. -/
def fetch (P : List Insn) : ℤ → Option Insn
  | .ofNat k => P[k]?
  | .negSucc _ => none

/-- Run a program from a place for at most `fuel` instructions; `none` if it is still running
then. -/
def runProgram (M : Machine σ ρ) (P : List Insn) : ℕ → ℤ → σ → Option (Outcome σ ρ)
  | 0, _, _ => none
  | fuel + 1, pc, s =>
    match fetch P pc with
    | none => some .fault
    | some n =>
      match n.control with
      | .exit => some (.exit s)
      | .goto => runProgram M P fuel (pc + 1 + n.off.toInt) s
      | .branch => runProgram M P fuel (if M.taken n s then pc + 1 + n.off.toInt else pc + 1) s
      | .step =>
        match M.exec n s with
        | .ok s' => runProgram M P fuel (pc + 1) s'
        | .error r => some (.left r)
attribute [grind] runProgram

/-- Run instructions that jump to labels, `target` giving the place of each label. -/
def runUnpruned (M : Machine σ ρ) (U : List (Insn × String)) (target : String → Option ℕ) :
    ℕ → ℕ → σ → Option (Outcome σ ρ)
  | 0, _, _ => none
  | fuel + 1, pc, s =>
    match U[pc]? with
    | none => some .fault
    | some (n, label) =>
      match n.control with
      | .exit => some (.exit s)
      | .goto =>
        match target label with
        | some t => runUnpruned M U target fuel t s
        | none => some .fault
      | .branch =>
        if M.taken n s then
          match target label with
          | some t => runUnpruned M U target fuel t s
          | none => some .fault
        else runUnpruned M U target fuel (pc + 1) s
      | .step =>
        match M.exec n s with
        | .ok s' => runUnpruned M U target fuel (pc + 1) s'
        | .error r => some (.left r)
attribute [grind] runUnpruned

/-- A jump whose distance `d` is below `2 ^ 15` keeps it through the 16 offset bits. -/
theorem toInt_toInt16_ofInt {d : ℤ} (h0 : 0 ≤ d) (h : d < 2 ^ 15) :
    (UInt16.ofInt d).toInt16.toInt = d := by
  obtain ⟨k, rfl⟩ := Int.eq_ofNat_of_zero_le h0
  have hk : ((k : ℤ) % 2 ^ 16).toNat = k := by omega
  simp only [UInt16.ofInt, hk, Int16.toInt]
  show (UInt16.ofNat k).toBitVec.toInt = k
  rw [UInt16.toBitVec_ofNat', BitVec.toInt_ofNat', Int.bmod_def]
  split_ifs <;> omega

end Felix.Bpf
