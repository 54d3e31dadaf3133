import RichardCore.Packages

/-!
# Instruction decoder

One combinational function from an instruction word and the current
privilege wires to every control signal of the pipeline. Control outputs
are grouped the way the pipeline registers carry them: execution, memory,
writeback and system control. Unlisted function codes under LOAD, STORE,
BRANCH, JALR and OP keep the accepted opcode's signals; only the branches
that raise the illegal flag in the source raise it here.
-/

namespace RichardCore.Decoder

open Packages

/-- Execution control: ALU select, operand multiplexers and branch kind. -/
structure ExecCtrl where
  /-- ALU operation select. -/
  aluOp : AluOp
  /-- False selects rs1, true selects the program counter. -/
  aluSrc1Sel : Bool
  /-- False selects rs2, true selects the immediate. -/
  aluSrc2Sel : Bool
  /-- Operate on the low 32 bits and sign-extend the result. -/
  isWordOp : Bool
  /-- Conditional branch. -/
  isBranch : Bool
  /-- Raw function code of the branch condition. -/
  branchOp : BitVec 3
  /-- Unconditional jump. -/
  isJump : Bool
  deriving DecidableEq, Repr

/-- Memory control. -/
structure MemCtrl where
  /-- Read from data memory. -/
  isLoad : Bool
  /-- Write to data memory. -/
  isStore : Bool
  /-- Raw function code giving width and signedness. -/
  memSize : BitVec 3
  deriving DecidableEq, Repr

/-- Writeback control. -/
structure WbCtrl where
  /-- Register file write enable. -/
  regWriteEn : Bool
  /-- Destination register. -/
  rdAddr : RegAddr
  /-- Source select: 0 ALU result, 1 memory data, 2 PC+4. -/
  wbSel : BitVec 2
  deriving DecidableEq, Repr

/-- System and exception control. -/
structure SysCtrl where
  /-- CSR instruction. -/
  isCsr : Bool
  /-- Raw function code of the CSR operation. -/
  csrOp : BitVec 3
  /-- Unrecognised or malformed instruction. -/
  illegalInstr : Bool
  /-- Environment call. -/
  isEcall : Bool
  /-- Breakpoint. -/
  isEbreak : Bool
  /-- Machine trap return. -/
  isMret : Bool
  /-- Supervisor trap return. -/
  isSret : Bool
  /-- Wait for interrupt. -/
  isWfi : Bool
  /-- Address-translation fence. -/
  isSfenceVma : Bool
  /-- Memory fence. -/
  isFence : Bool
  /-- Instruction fence. -/
  isFenceI : Bool
  deriving DecidableEq, Repr

/-- All decoder outputs for one instruction word. -/
structure Decoded where
  /-- First source register. -/
  rs1Addr : RegAddr
  /-- Second source register field. -/
  rs2Addr : RegAddr
  /-- Sign-extended immediate. -/
  imm : Word
  /-- Execution control group. -/
  exec : ExecCtrl
  /-- Memory control group. -/
  mem : MemCtrl
  /-- Writeback control group. -/
  wb : WbCtrl
  /-- System control group. -/
  sys : SysCtrl
  deriving DecidableEq, Repr

/-- Opcode bits 6:0. -/
def opcodeField (instr : BitVec 32) : BitVec 7 := instr.extractLsb' 0 7
/-- Destination bits 11:7. -/
def rdField (instr : BitVec 32) : RegAddr := instr.extractLsb' 7 5
/-- Function bits 14:12. -/
def funct3 (instr : BitVec 32) : BitVec 3 := instr.extractLsb' 12 3
/-- First source bits 19:15. -/
def rs1Field (instr : BitVec 32) : RegAddr := instr.extractLsb' 15 5
/-- Second source bits 24:20. -/
def rs2Field (instr : BitVec 32) : RegAddr := instr.extractLsb' 20 5
/-- Function bits 31:25. -/
def funct7 (instr : BitVec 32) : BitVec 7 := instr.extractLsb' 25 7
/-- CSR address bits 31:20. -/
def csrAddrField (instr : BitVec 32) : BitVec 12 := instr.extractLsb' 20 12

/-- I-type immediate. -/
def immI (instr : BitVec 32) : Word := (instr.extractLsb' 20 12).signExtend 64

/-- S-type immediate. -/
def immS (instr : BitVec 32) : Word :=
  (instr.extractLsb' 25 7++instr.extractLsb' 7 5).signExtend 64

/-- B-type immediate. -/
def immB (instr : BitVec 32) : Word :=
  (instr.extractLsb' 31 1++instr.extractLsb' 7 1++instr.extractLsb' 25 6++
    instr.extractLsb' 8 4++0#1).signExtend 64

/-- U-type immediate. -/
def immU (instr : BitVec 32) : Word := (instr.extractLsb' 12 20++0#12).signExtend 64

/-- J-type immediate. -/
def immJ (instr : BitVec 32) : Word :=
  (instr.extractLsb' 31 1++instr.extractLsb' 12 8++instr.extractLsb' 20 1++
    instr.extractLsb' 21 10++0#1).signExtend 64

/-- Rank of a privilege encoding; the reserved code sits between S and M. -/
def privRank (mode : BitVec 2) : ℕ :=
  if mode=PrivMode.u.bits then 0
  else if mode=PrivMode.s.bits then 1
  else if mode=0b10 then 2
  else 3

/-- Privilege comparison by rank. -/
def privGe (cur req : BitVec 2) : Bool := decide (privRank req≤privRank cur)

/-- A CSR access needs at least the mode in address bits 9:8. -/
def csrAccessAllowed (cur : BitVec 2) (addr : BitVec 12) : Bool := privGe cur (addr.extractLsb' 8 2)

/-- Inactive execution control. -/
def execDefaults : ExecCtrl := ⟨.add,false,false,false,false,0,false⟩

/-- Inactive memory control. -/
def memDefaults : MemCtrl := ⟨false,false,0⟩

/-- Inactive system control. -/
def sysDefaults : SysCtrl :=
  ⟨false,0,false,false,false,false,false,false,false,false,false⟩

/-- Default outputs before the opcode case: all signals inactive, with the
register fields taken from the word. LUI reads x0. -/
def decodeDefaults (instr : BitVec 32) : Decoded where
  rs1Addr := if opcodeField instr=Opcode.lui.bits then 0 else rs1Field instr
  rs2Addr := rs2Field instr
  imm := 0
  exec := execDefaults
  mem := memDefaults
  wb := ⟨false,rdField instr,0⟩
  sys := sysDefaults

/-- Operation select of OP-IMM. -/
def opImmAlu (f3 : BitVec 3) (f7 : BitVec 7) : AluOp :=
  match f3 with
  | 0b000#3 => .add
  | 0b010#3 => .slt
  | 0b011#3 => .sltu
  | 0b100#3 => .xor
  | 0b110#3 => .or
  | 0b111#3 => .and
  | 0b001#3 => .sll
  | 0b101#3 => if f7.getLsbD 5 then .sra else .srl
  | _ => .add

/-- Operation select of OP-IMM-32, none for a code that is flagged illegal. -/
def opImm32Alu (f3 : BitVec 3) (f7 : BitVec 7) : Option AluOp :=
  match f3 with
  | 0b000#3 => some .add
  | 0b001#3 => some .sll
  | 0b101#3 => some (if f7.getLsbD 5 then .sra else .srl)
  | _ => none

/-- Operation select of OP. -/
def opAlu (f3 : BitVec 3) (f7 : BitVec 7) : AluOp :=
  match f3 with
  | 0b000#3 => if f7.getLsbD 5 then .sub else .add
  | 0b001#3 => .sll
  | 0b010#3 => .slt
  | 0b011#3 => .sltu
  | 0b100#3 => .xor
  | 0b101#3 => if f7.getLsbD 5 then .sra else .srl
  | 0b110#3 => .or
  | 0b111#3 => .and
  | _ => .add

/-- Operation select of OP-32, none for a code that is flagged illegal. -/
def op32Alu (f3 : BitVec 3) (f7 : BitVec 7) : Option AluOp :=
  match f3 with
  | 0b000#3 => some (if f7.getLsbD 5 then .sub else .add)
  | 0b001#3 => some .sll
  | 0b101#3 => some (if f7.getLsbD 5 then .sra else .srl)
  | _ => none

/-- Non-CSR SYSTEM instructions, selected by bits 31:20. MRET needs M mode;
SRET and SFENCE.VMA need at least S mode. -/
def decodePrivileged (instr : BitVec 32) (privMode : BitVec 2) : SysCtrl :=
  match funct7 instr++rs2Field instr with
  | 0b000000000000#12 => {sysDefaults with isEcall := true}
  | 0b000000000001#12 => {sysDefaults with isEbreak := true}
  | 0b001100000010#12 =>
    if privMode=PrivMode.m.bits then {sysDefaults with isMret := true}
    else {sysDefaults with illegalInstr := true}
  | 0b000100000010#12 =>
    if privGe privMode PrivMode.s.bits then {sysDefaults with isSret := true}
    else {sysDefaults with illegalInstr := true}
  | 0b000100000101#12 => {sysDefaults with isWfi := true}
  | _ =>
    if funct7 instr=0b0001001 then
      if privGe privMode PrivMode.s.bits then {sysDefaults with isSfenceVma := true}
      else {sysDefaults with illegalInstr := true}
    else {sysDefaults with illegalInstr := true}

/-- Translate one instruction word into control signals. -/
def decoder (instr : BitVec 32) (privMode : BitVec 2) : Decoded :=
  let base := decodeDefaults instr
  let writes : WbCtrl := ⟨true,rdField instr,0⟩
  let illegal : SysCtrl := {sysDefaults with illegalInstr := true}
  match Opcode.ofBits (opcodeField instr) with
  | some .lui =>
    {base with imm := immU instr, exec := {execDefaults with aluSrc2Sel := true}, wb := writes}
  | some .auipc =>
    {base with
      imm := immU instr
      exec := {execDefaults with aluSrc1Sel := true, aluSrc2Sel := true}
      wb := writes}
  | some .jal =>
    {base with
      imm := immJ instr
      exec := {execDefaults with isJump := true, aluSrc1Sel := true, aluSrc2Sel := true}
      wb := {writes with wbSel := 0b10}}
  | some .jalr =>
    {base with
      imm := immI instr
      exec := {execDefaults with isJump := true, aluSrc2Sel := true}
      wb := {writes with wbSel := 0b10}}
  | some .branch =>
    {base with
      imm := immB instr
      exec := {execDefaults with
        isBranch := true, aluSrc1Sel := true, aluSrc2Sel := true, branchOp := funct3 instr}}
  | some .load =>
    {base with
      imm := immI instr
      exec := {execDefaults with aluSrc2Sel := true}
      mem := ⟨true,false,funct3 instr⟩
      wb := {writes with wbSel := 0b01}}
  | some .store =>
    {base with
      imm := immS instr
      exec := {execDefaults with aluSrc2Sel := true}
      mem := ⟨false,true,funct3 instr⟩}
  | some .opImm =>
    {base with
      imm := immI instr
      exec := {execDefaults with
        aluSrc2Sel := true, aluOp := opImmAlu (funct3 instr) (funct7 instr)}
      wb := writes}
  | some .opImm32 =>
    let select := opImm32Alu (funct3 instr) (funct7 instr)
    {base with
      imm := immI instr
      exec := {execDefaults with
        isWordOp := true, aluSrc2Sel := true, aluOp := select.getD .add}
      wb := writes
      sys := if select.isSome then sysDefaults else illegal}
  | some .op =>
    if funct7 instr=0b0000001 then {base with wb := writes, sys := illegal}
    else
      {base with
        exec := {execDefaults with aluOp := opAlu (funct3 instr) (funct7 instr)}
        wb := writes}
  | some .op32 =>
    if funct7 instr=0b0000001 then
      {base with exec := {execDefaults with isWordOp := true}, wb := writes, sys := illegal}
    else
      let select := op32Alu (funct3 instr) (funct7 instr)
      {base with
        exec := {execDefaults with isWordOp := true, aluOp := select.getD .add}
        wb := writes
        sys := if select.isSome then sysDefaults else illegal}
  | some .miscMem =>
    match funct3 instr with
    | 0b000#3 => {base with sys := {sysDefaults with isFence := true}}
    | 0b001#3 => {base with sys := {sysDefaults with isFenceI := true}}
    | _ => {base with sys := illegal}
  | some .system =>
    if funct3 instr=0 then {base with sys := decodePrivileged instr privMode}
    else if csrAccessAllowed privMode (csrAddrField instr) then
      {base with
        imm := immI instr
        wb := writes
        sys := {sysDefaults with isCsr := true, csrOp := funct3 instr}}
    else
      {base with imm := immI instr, sys := {illegal with csrOp := funct3 instr}}
  -- A extension, F/D extensions, custom opcodes and unlisted codes.
  | _ => {base with sys := illegal}

end RichardCore.Decoder
