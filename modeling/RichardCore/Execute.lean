import RichardCore.Decoder

/-!
# Execute stage

The ALU, the branch comparator and the stage around them: operand
multiplexers, word-operation conditioning, result sign extension and the
branch target with its low bit cleared.
-/

namespace RichardCore.Execute

open Packages Decoder

/-- A one-bit comparison result placed in the low bit of a word. -/
def flagWord (flag : Bool) : Word := (BitVec.ofBool flag).setWidth 64

/-- 64-bit ALU. Shifts use the six low bits of the second operand. -/
def alu (op : AluOp) (operandA operandB : Word) : Word :=
  let shamt := operandB.extractLsb' 0 6
  match op with
  | .add => operandA+operandB
  | .sub => operandA-operandB
  | .sll => operandA<<<shamt
  | .slt => flagWord (operandA.slt operandB)
  | .sltu => flagWord (operandA.ult operandB)
  | .xor => operandA^^^operandB
  | .srl => operandA>>>shamt
  | .sra => operandA.sshiftRight' shamt
  | .or => operandA|||operandB
  | .and => operandA&&&operandB

/-- Branch condition; undefined codes are never taken. -/
def branchUnit (isBranch : Bool) (branchOp : BitVec 3) (operandA operandB : Word) : Bool :=
  if isBranch then
    if branchOp=branchEq then operandA==operandB
    else if branchOp=branchNe then operandA != operandB
    else if branchOp=branchLt then operandA.slt operandB
    else if branchOp=branchGe then !operandA.slt operandB
    else if branchOp=branchLtu then operandA.ult operandB
    else if branchOp=branchGeu then !operandA.ult operandB
    else false
  else false

/-- Execute-stage outputs. -/
structure ExOut where
  /-- Result passed to the memory stage. -/
  aluResult : Word
  /-- Redirect request of a jump or a taken branch. -/
  branchTaken : Bool
  /-- Redirect target. -/
  branchTarget : Word
  deriving DecidableEq, Repr

/-- First operand after word conditioning: arithmetic right shifts of a word
see it sign-extended, logical ones see it zero-extended. -/
def aluOperandA (ctrl : ExecCtrl) (muxA : Word) : Word :=
  if ctrl.isWordOp then
    if ctrl.aluOp=.sra then (muxA.setWidth 32).signExtend 64
    else if ctrl.aluOp=.srl then (muxA.setWidth 32).setWidth 64
    else muxA
  else muxA

/-- Second operand after word conditioning: word shifts keep five bits. -/
def aluOperandB (ctrl : ExecCtrl) (muxB : Word) : Word :=
  if ctrl.isWordOp then
    if ctrl.aluOp=.sll ∨ ctrl.aluOp=.srl ∨ ctrl.aluOp=.sra then (muxB.setWidth 5).setWidth 64
    else muxB
  else muxB

/-- ALU output before the word truncation. -/
def aluRawResult (ctrl : ExecCtrl) (pc rs1Rdata rs2Rdata imm : Word) : Word :=
  let muxA := if ctrl.aluSrc1Sel then pc else rs1Rdata
  let muxB := if ctrl.aluSrc2Sel then imm else rs2Rdata
  alu ctrl.aluOp (aluOperandA ctrl muxA) (aluOperandB ctrl muxB)

/-- Execute stage. The branch comparator sees the two register operands; the
ALU computes the target of every control transfer. -/
def exStage (ctrl : ExecCtrl) (pc rs1Rdata rs2Rdata imm : Word) : ExOut :=
  let raw := aluRawResult ctrl pc rs1Rdata rs2Rdata imm
  { aluResult := if ctrl.isWordOp then (raw.setWidth 32).signExtend 64 else raw
    branchTaken := ctrl.isJump ||
      (ctrl.isBranch && branchUnit ctrl.isBranch ctrl.branchOp rs1Rdata rs2Rdata)
    branchTarget := raw&&&~~~1#64 }

end RichardCore.Execute
