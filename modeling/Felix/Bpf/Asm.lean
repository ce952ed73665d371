import Felix.Collections.IterSet
import Felix.Replication.Report
import Mathlib

/-!
# The eBPF assembler

`asm.Block` collects eBPF instructions with forward jumps to labels, and `Assemble` turns
each jump's label into the offset of the instruction the label is on. A block drops an
instruction that cannot be reached: one that follows an unconditional jump or an exit and
carries no label that an earlier jump goes to. The labels at a dropped instruction are
forgotten, so a later jump to one of them makes `Assemble` fail.

An instruction's eight bytes are kept as its four fields: the opcode, the register byte
(source register in the high four bits, destination in the low four), and the offset and
immediate as the unsigned numbers their little-endian bytes hold. This module models the
opcodes and the `Block` methods that the policy program builder calls.

## Main definitions

* `OpCode`, `Insn`, `makeInsn`
* `Block`, `Block.addInsnWithOffsetFixup`, `Block.labelNextInsn`, `Block.assemble`

## Main statements

* `Block.assemble_length`: assembling keeps the instructions, only their offsets change
-/

namespace Felix.Bpf

/-- `asm.OpCode`. -/
abbrev OpCode := UInt8

/-- `asm.Reg`: a register's number. -/
abbrev Reg := ℕ

/-- `asm.Helper`: the number of a kernel helper function. -/
abbrev Helper := Int32

/-- The scratch, return and exit value register. -/
def r0 : Reg := 0
def r1 : Reg := 1
def r2 : Reg := 2
def r3 : Reg := 3
/-- A callee-saved register. -/
def r6 : Reg := 6
def r9 : Reg := 9
/-- The read-only frame pointer. -/
def r10 : Reg := 10

/-- `RPseudoMapFD`: the source register of a `LoadImm64` whose immediate is a map's file
descriptor. -/
def rPseudoMapFD : Reg := 1

/-! ## Opcodes

The lowest three bits of an opcode are its class; a memory operation has its mode in the top
three bits and its size in the two between; an ALU operation or a jump has the operation in
the top four bits and, in bit three, whether the operand is a register or the immediate. -/

def opClassLoadImm : UInt8 := 0x00
def opClassLoadReg : UInt8 := 0x01
def opClassStoreReg : UInt8 := 0x03
def opClassALU32 : UInt8 := 0x04
def opClassJump64 : UInt8 := 0x05
def opClassJump32 : UInt8 := 0x06
def opClassALU64 : UInt8 := 0x07

def memOpModeImm : UInt8 := 0x00
def memOpModeMem : UInt8 := 0x60

def memOpSize8 : UInt8 := 0x10
def memOpSize16 : UInt8 := 0x08
def memOpSize32 : UInt8 := 0x00
def memOpSize64 : UInt8 := 0x18

def aluOpAdd : UInt8 := 0x00
def aluOpAnd : UInt8 := 0x50
def aluOpMov : UInt8 := 0xb0

def aluSrcImm : UInt8 := 0x00
def aluSrcReg : UInt8 := 0x08

def jumpOpA : UInt8 := 0x00
def jumpOpEq : UInt8 := 0x10
def jumpOpNE : UInt8 := 0x50
def jumpOpCall : UInt8 := 0x80
def jumpOpExit : UInt8 := 0x90
def jumpOpLT : UInt8 := 0xa0
def jumpOpLE : UInt8 := 0xb0

namespace OpCode

def storeReg8 : OpCode := opClassStoreReg ||| memOpModeMem ||| memOpSize8
def storeReg16 : OpCode := opClassStoreReg ||| memOpModeMem ||| memOpSize16
def storeReg32 : OpCode := opClassStoreReg ||| memOpModeMem ||| memOpSize32

def loadReg8 : OpCode := opClassLoadReg ||| memOpModeMem ||| memOpSize8
def loadReg16 : OpCode := opClassLoadReg ||| memOpModeMem ||| memOpSize16
def loadReg32 : OpCode := opClassLoadReg ||| memOpModeMem ||| memOpSize32

/-- `LoadImm64`, the one double-length instruction: the second half of its immediate is in
the immediate of a `LoadImm64Pt2` that follows it. -/
def loadImm64 : OpCode := opClassLoadImm ||| memOpModeImm ||| memOpSize64
def loadImm64Pt2 : OpCode := 0

def jumpEqImm64 : OpCode := opClassJump64 ||| aluSrcImm ||| jumpOpEq
def jumpNEImm64 : OpCode := opClassJump64 ||| aluSrcImm ||| jumpOpNE
def jumpLTImm64 : OpCode := opClassJump64 ||| aluSrcImm ||| jumpOpLT
def jumpLEImm64 : OpCode := opClassJump64 ||| aluSrcImm ||| jumpOpLE

/-- `JumpA`: the unconditional jump. -/
def jumpA : OpCode := opClassJump64 ||| aluSrcImm ||| jumpOpA
/-- `Call` calls the helper whose number is the immediate. -/
def call : OpCode := opClassJump64 ||| aluSrcImm ||| jumpOpCall
/-- `Exit` ends the program with the value of `R0`. -/
def exit : OpCode := opClassJump64 ||| aluSrcImm ||| jumpOpExit

def jumpEqImm32 : OpCode := opClassJump32 ||| aluSrcImm ||| jumpOpEq

def mov64 : OpCode := opClassALU64 ||| aluSrcReg ||| aluOpMov
def and32 : OpCode := opClassALU32 ||| aluSrcReg ||| aluOpAnd

def addImm64 : OpCode := opClassALU64 ||| aluSrcImm ||| aluOpAdd
def movImm64 : OpCode := opClassALU64 ||| aluSrcImm ||| aluOpMov
def andImm32 : OpCode := opClassALU32 ||| aluSrcImm ||| aluOpAnd
def movImm32 : OpCode := opClassALU32 ||| aluSrcImm ||| aluOpMov

end OpCode

def helperMapLookupElem : Helper := 1
def helperTailCall : Helper := 12

/-! ## Instructions -/

/-- `asm.Insn`: an instruction's opcode, register byte, offset bits and immediate bits. -/
structure Insn where
  opCode : OpCode
  regs : UInt8
  offBits : UInt16
  immBits : UInt32
  deriving DecidableEq, Repr

/-- `MakeInsn`: Go converts the registers to a byte and the offset and immediate to their
unsigned bits. -/
def makeInsn (opcode : OpCode) (dst src : Reg) (offset : Int16) (imm : Int32) : Insn :=
  ⟨opcode, UInt8.ofNat (src <<< 4 ||| dst), offset.toUInt16, imm.toUInt32⟩

namespace Insn

def dst (n : Insn) : Reg := (n.regs &&& 0xf).toNat

def src (n : Insn) : Reg := ((n.regs >>> 4) &&& 0xf).toNat

def off (n : Insn) : Int16 := n.offBits.toInt16

def imm (n : Insn) : Int32 := n.immBits.toInt32

end Insn

/-! ## Blocks -/

/-- `fixUp`: a jump whose offset `Assemble` fills in, by its label and its index. -/
structure FixUp where
  label : String
  origInsnIdx : ℕ
  deriving DecidableEq

/-- `asm.Block`: the instructions so far, the jumps to fix up, the labels in both directions
and the labels that some jump goes to. -/
structure Block where
  insns : List Insn
  fixUps : List FixUp
  labelToInsnIdx : AList (fun _ : String => ℕ)
  insnIdxToLabels : AList (fun _ : ℕ => List String)
  inUseJumpTargets : IterSet String

/-- `NewBlock`. -/
def newBlock : Block := ⟨[], [], ∅, ∅, ∅⟩

namespace Block

/-- The labels on the instruction at an index; Go's missing map entry is the empty list. -/
def labelsAt (b : Block) (idx : ℕ) : List String := (b.insnIdxToLabels.lookup idx).getD []

/-- `nextInsnReachble`: whether an instruction added now can be reached. -/
def nextInsnReachble (b : Block) : Bool :=
  -- the first instruction is always reachable
  if b.insns.length = 0 then true
  -- an earlier jump goes to this one
  else if (b.labelsAt b.insns.length).any fun l => l ∈ b.inUseJumpTargets then true
  else match b.insns.getLast? with
    | some lastInsn => !(lastInsn.opCode = OpCode.jumpA || lastInsn.opCode = OpCode.exit)
    | none => true

/-- `addInsnWithOffsetFixup`: an unreachable instruction is dropped with the labels on its
place; otherwise it is appended, and a jump to a label is recorded to be fixed up. -/
def addInsnWithOffsetFixup (b : Block) (insn : Insn) (targetLabel : String) : Block :=
  if !b.nextInsnReachble then
    { b with
      labelToInsnIdx := (b.labelsAt b.insns.length).foldl (fun m l => m.erase l) b.labelToInsnIdx
      insnIdxToLabels := b.insnIdxToLabels.erase b.insns.length }
  else
    let b := { b with insns := b.insns ++ [insn] }
    if targetLabel ≠ "" then
      { b with
        inUseJumpTargets := b.inUseJumpTargets.add targetLabel
        fixUps := b.fixUps ++ [⟨targetLabel, b.insns.length - 1⟩] }
    else b

/-- `addInsn`. -/
def addInsn (b : Block) (insn : Insn) : Block := b.addInsnWithOffsetFixup insn ""

/-- `add`; Go also returns the instruction, which no caller reads. -/
def add (b : Block) (opcode : OpCode) (dst src : Reg) (offset : Int16) (imm : Int32) : Block :=
  b.addInsn (makeInsn opcode dst src offset imm)

/-- `addWithOffsetFixup`: a jump with offset `0` until `Assemble`. -/
def addWithOffsetFixup (b : Block) (opcode : OpCode) (dst src : Reg) (offsetLabel : String)
    (imm : Int32) : Block :=
  b.addInsnWithOffsetFixup (makeInsn opcode dst src 0 imm) offsetLabel

def and32 (b : Block) (dst src : Reg) : Block := b.add OpCode.and32 dst src 0 0

def andImm32 (b : Block) (dst : Reg) (imm : Int32) : Block := b.add OpCode.andImm32 dst 0 0 imm

/-- `LoadMapFD`: a `LoadImm64` from the pseudo register, as FDs are 32 bits. -/
def loadMapFD (b : Block) (dst : Reg) (fd : UInt32) : Block :=
  (b.add OpCode.loadImm64 dst rPseudoMapFD 0 fd.toInt32).add OpCode.loadImm64Pt2 0 0 0 0

def load8 (b : Block) (dst ptrReg : Reg) (offset : Int16) : Block :=
  b.add OpCode.loadReg8 dst ptrReg offset 0

def load16 (b : Block) (dst ptrReg : Reg) (offset : Int16) : Block :=
  b.add OpCode.loadReg16 dst ptrReg offset 0

def load32 (b : Block) (dst ptrReg : Reg) (offset : Int16) : Block :=
  b.add OpCode.loadReg32 dst ptrReg offset 0

/-- `Store32`: the source's register `ptrReg` is the one stored, at `dst` plus the offset. -/
def store32 (b : Block) (dst ptrReg : Reg) (offset : Int16) : Block :=
  b.add OpCode.storeReg32 dst ptrReg offset 0

def storeStack8 (b : Block) (src : Reg) (offset : Int16) : Block :=
  b.add OpCode.storeReg8 r10 src offset 0

def storeStack16 (b : Block) (src : Reg) (offset : Int16) : Block :=
  b.add OpCode.storeReg16 r10 src offset 0

def storeStack32 (b : Block) (src : Reg) (offset : Int16) : Block :=
  b.add OpCode.storeReg32 r10 src offset 0

def mov64 (b : Block) (dst src : Reg) : Block := b.add OpCode.mov64 dst src 0 0

def movImm64 (b : Block) (dst : Reg) (imm : Int32) : Block := b.add OpCode.movImm64 dst 0 0 imm

def movImm32 (b : Block) (dst : Reg) (imm : Int32) : Block := b.add OpCode.movImm32 dst 0 0 imm

def addImm64 (b : Block) (dst : Reg) (imm : Int32) : Block := b.add OpCode.addImm64 dst 0 0 imm

def jump (b : Block) (label : String) : Block := b.addWithOffsetFixup OpCode.jumpA 0 0 label 0

def jumpEqImm64 (b : Block) (ra : Reg) (imm : Int32) (label : String) : Block :=
  b.addWithOffsetFixup OpCode.jumpEqImm64 ra 0 label imm

def jumpLEImm64 (b : Block) (ra : Reg) (imm : Int32) (label : String) : Block :=
  b.addWithOffsetFixup OpCode.jumpLEImm64 ra 0 label imm

def jumpLTImm64 (b : Block) (ra : Reg) (imm : Int32) (label : String) : Block :=
  b.addWithOffsetFixup OpCode.jumpLTImm64 ra 0 label imm

def jumpNEImm64 (b : Block) (ra : Reg) (imm : Int32) (label : String) : Block :=
  b.addWithOffsetFixup OpCode.jumpNEImm64 ra 0 label imm

def jumpEqImm32 (b : Block) (ra : Reg) (imm : Int32) (label : String) : Block :=
  b.addWithOffsetFixup OpCode.jumpEqImm32 ra 0 label imm

def call (b : Block) (helperID : Helper) : Block := b.add OpCode.call 0 0 0 helperID

def exit (b : Block) : Block := b.add OpCode.exit 0 0 0 0

/-- `TargetIsUsed`. -/
def targetIsUsed (b : Block) (label : String) : Bool := label ∈ b.inUseJumpTargets

/-- `LabelNextInsn`: the label goes on the instruction added next. -/
def labelNextInsn (b : Block) (label : String) : Block :=
  { b with
    labelToInsnIdx := b.labelToInsnIdx.insert label b.insns.length
    insnIdxToLabels := b.insnIdxToLabels.insert b.insns.length (b.labelsAt b.insns.length ++ [label]) }

/-- One fixup of `Assemble`: the offset is relative to the next instruction, since the
program counter has moved on when a jump is taken. -/
def fixUpInsns (b : Block) (insns : List Insn) (f : FixUp) : Except String (List Insn) :=
  match b.labelToInsnIdx.lookup f.label with
  | none => .error ("missing label: " ++ f.label)
  | some labelIdx =>
    let offset : Int := labelIdx - f.origInsnIdx - 1
    .ok (insns.modify f.origInsnIdx fun insn => { insn with offBits := UInt16.ofInt offset })

/-- `Assemble`. -/
def assemble (b : Block) : Except String (List Insn) := b.fixUps.foldlM b.fixUpInsns b.insns

theorem fixUpInsns_length {b : Block} {insns insns' : List Insn} {f : FixUp}
    (h : b.fixUpInsns insns f = .ok insns') : insns'.length = insns.length := by
  unfold fixUpInsns at h
  split at h
  · cases h
  · cases h
    exact List.length_modify ..

/-- Assembling keeps the number of instructions: only the jumps' offsets change. -/
theorem assemble_length {b : Block} {insns : List Insn} (h : b.assemble = .ok insns) :
    insns.length = b.insns.length := by
  -- the fixups run in order, and each keeps the length
  have hrun : ∀ (fs : List FixUp) (acc : List Insn),
      fs.foldlM b.fixUpInsns acc = .ok insns → insns.length = acc.length := by
    intro fs
    induction fs with
    | nil =>
      intro acc h
      cases h
      rfl
    | cons f fs ih =>
      intro acc h
      rw [List.foldlM_cons] at h
      obtain ⟨acc₁, h₁, h₂⟩ := Replication.bind_eq_ok h
      rw [ih acc₁ h₂, fixUpInsns_length h₁]
  exact hrun b.fixUps b.insns h

end Block

end Felix.Bpf
