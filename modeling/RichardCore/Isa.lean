import RichardCore.DataMemory

/-!
# RV64I reference

The base integer instructions as syntax, their 32-bit encodings, and their
meaning by the instruction table: the register write, the next program
counter and the bytes of data memory. Nothing here refers to the stages of
the core.
-/

namespace RichardCore.Isa

open Packages Decoder DataMemory

/-- Register-register operations. -/
inductive RegOp where
  | add | sub | and | or | xor | sll | srl | sra | slt | sltu
  deriving DecidableEq, Repr

/-- Register-immediate operations, shifts excepted. -/
inductive ImmOp where
  | addi | andi | ori | xori | slti | sltiu
  deriving DecidableEq, Repr

/-- Shifts by an immediate amount. -/
inductive ShiftOp where
  | sll | srl | sra
  deriving DecidableEq, Repr

/-- Word operations on two registers. -/
inductive WordOp where
  | addw | subw | sllw | srlw | sraw
  deriving DecidableEq, Repr

/-- Branch conditions. -/
inductive Cond where
  | beq | bne | blt | bge | bltu | bgeu
  deriving DecidableEq, Repr

/-- Loads. -/
inductive LoadOp where
  | lb | lh | lw | ld | lbu | lhu | lwu
  deriving DecidableEq, Repr

/-- Stores. -/
inductive StoreOp where
  | sb | sh | sw | sd
  deriving DecidableEq, Repr

/-- Base integer instructions. Jump and branch offsets are given without
their zero bit. -/
inductive Instr where
  | lui (rd : RegAddr) (imm : BitVec 20)
  | auipc (rd : RegAddr) (imm : BitVec 20)
  | jal (rd : RegAddr) (offset : BitVec 20)
  | jalr (rd rs1 : RegAddr) (imm : BitVec 12)
  | branch (cond : Cond) (rs1 rs2 : RegAddr) (offset : BitVec 12)
  | load (width : LoadOp) (rd rs1 : RegAddr) (imm : BitVec 12)
  | store (width : StoreOp) (rs1 rs2 : RegAddr) (imm : BitVec 12)
  | op (kind : RegOp) (rd rs1 rs2 : RegAddr)
  | opImm (kind : ImmOp) (rd rs1 : RegAddr) (imm : BitVec 12)
  | shiftImm (kind : ShiftOp) (rd rs1 : RegAddr) (shamt : BitVec 6)
  | op32 (kind : WordOp) (rd rs1 rs2 : RegAddr)
  | addiw (rd rs1 : RegAddr) (imm : BitVec 12)
  | shiftImm32 (kind : ShiftOp) (rd rs1 : RegAddr) (shamt : BitVec 5)
  deriving DecidableEq, Repr

/-- Layout with two sources and a seven-bit function code; also stores and
branches, whose immediate fills the outer fields. -/
def rType (f7 : BitVec 7) (rs2 rs1 : RegAddr) (f3 : BitVec 3) (rd : BitVec 5) (opcode : Opcode) :
    BitVec 32 :=
  f7++rs2++rs1++f3++rd++opcode.bits

/-- Layout with a twelve-bit immediate. -/
def iType (imm : BitVec 12) (rs1 : RegAddr) (f3 : BitVec 3) (rd : RegAddr) (opcode : Opcode) :
    BitVec 32 :=
  imm++rs1++f3++rd++opcode.bits

/-- Layout with a twenty-bit immediate. -/
def uType (imm : BitVec 20) (rd : RegAddr) (opcode : Opcode) : BitVec 32 := imm++rd++opcode.bits

/-- Function codes of the register operations. -/
def RegOp.codes : RegOp → BitVec 7 × BitVec 3
  | .add => (0b0000000,0b000)
  | .sub => (0b0100000,0b000)
  | .sll => (0b0000000,0b001)
  | .slt => (0b0000000,0b010)
  | .sltu => (0b0000000,0b011)
  | .xor => (0b0000000,0b100)
  | .srl => (0b0000000,0b101)
  | .sra => (0b0100000,0b101)
  | .or => (0b0000000,0b110)
  | .and => (0b0000000,0b111)

/-- Function code of the immediate operations. -/
def ImmOp.code : ImmOp → BitVec 3
  | .addi => 0b000
  | .slti => 0b010
  | .sltiu => 0b011
  | .xori => 0b100
  | .ori => 0b110
  | .andi => 0b111

/-- Function codes of the shifts; the first holds the arithmetic bit. -/
def ShiftOp.codes : ShiftOp → BitVec 6 × BitVec 3
  | .sll => (0b000000,0b001)
  | .srl => (0b000000,0b101)
  | .sra => (0b010000,0b101)

/-- Function codes of the word operations. -/
def WordOp.codes : WordOp → BitVec 7 × BitVec 3
  | .addw => (0b0000000,0b000)
  | .subw => (0b0100000,0b000)
  | .sllw => (0b0000000,0b001)
  | .srlw => (0b0000000,0b101)
  | .sraw => (0b0100000,0b101)

/-- Function code of the branch conditions. -/
def Cond.code : Cond → BitVec 3
  | .beq => 0b000
  | .bne => 0b001
  | .blt => 0b100
  | .bge => 0b101
  | .bltu => 0b110
  | .bgeu => 0b111

/-- Function code of the loads. -/
def LoadOp.code : LoadOp → BitVec 3
  | .lb => 0b000
  | .lh => 0b001
  | .lw => 0b010
  | .ld => 0b011
  | .lbu => 0b100
  | .lhu => 0b101
  | .lwu => 0b110

/-- Function code of the stores. -/
def StoreOp.code : StoreOp → BitVec 3
  | .sb => 0b000
  | .sh => 0b001
  | .sw => 0b010
  | .sd => 0b011

/-- Encoding. Bit `i` of a jump or branch offset is bit `i+1` of the
immediate: the fields are imm[20|10:1|11|19:12] of a jump and imm[12|10:5],
imm[4:1|11] of a branch. -/
def encode : Instr → BitVec 32
  | .lui rd imm => uType imm rd .lui
  | .auipc rd imm => uType imm rd .auipc
  | .jal rd offset =>
    uType (offset.extractLsb' 19 1++offset.extractLsb' 0 10++offset.extractLsb' 10 1++
      offset.extractLsb' 11 8) rd .jal
  | .jalr rd rs1 imm => iType imm rs1 0b000 rd .jalr
  | .branch cond rs1 rs2 offset =>
    rType (offset.extractLsb' 11 1++offset.extractLsb' 4 6) rs2 rs1 cond.code
      (offset.extractLsb' 0 4++offset.extractLsb' 10 1) .branch
  | .load width rd rs1 imm => iType imm rs1 width.code rd .load
  | .store width rs1 rs2 imm =>
    rType (imm.extractLsb' 5 7) rs2 rs1 width.code (imm.extractLsb' 0 5) .store
  | .op kind rd rs1 rs2 => rType kind.codes.1 rs2 rs1 kind.codes.2 rd .op
  | .opImm kind rd rs1 imm => iType imm rs1 kind.code rd .opImm
  | .shiftImm kind rd rs1 shamt => iType (kind.codes.1++shamt) rs1 kind.codes.2 rd .opImm
  | .op32 kind rd rs1 rs2 => rType kind.codes.1 rs2 rs1 kind.codes.2 rd .op32
  | .addiw rd rs1 imm => iType imm rs1 0b000 rd .opImm32
  | .shiftImm32 kind rd rs1 shamt => iType (kind.codes.1++0#1++shamt) rs1 kind.codes.2 rd .opImm32

/-- One or zero by a comparison. -/
def oneIf (p : Prop) [Decidable p] : Word := if p then 1 else 0

/-- Register operations; shifts use the low six bits of the amount. -/
def RegOp.eval (kind : RegOp) (a b : Word) : Word :=
  match kind with
  | .add => a+b
  | .sub => a-b
  | .and => a&&&b
  | .or => a|||b
  | .xor => a^^^b
  | .sll => a<<<(b.toNat%64)
  | .srl => a>>>(b.toNat%64)
  | .sra => a.sshiftRight (b.toNat%64)
  | .slt => oneIf (a.toInt<b.toInt)
  | .sltu => oneIf (a.toNat<b.toNat)

/-- Immediate operations on the sign-extended immediate. -/
def ImmOp.eval (kind : ImmOp) (a : Word) (imm : BitVec 12) : Word :=
  match kind with
  | .addi => a+imm.signExtend 64
  | .andi => a&&&imm.signExtend 64
  | .ori => a|||imm.signExtend 64
  | .xori => a^^^imm.signExtend 64
  | .slti => oneIf (a.toInt<(imm.signExtend 64).toInt)
  | .sltiu => oneIf (a.toNat<(imm.signExtend 64).toNat)

/-- Shifts of any width by a given amount. -/
def ShiftOp.eval {w : ℕ} (kind : ShiftOp) (a : BitVec w) (amount : ℕ) : BitVec w :=
  match kind with
  | .sll => a<<<amount
  | .srl => a>>>amount
  | .sra => a.sshiftRight amount

/-- Word operations: 32-bit arithmetic, shifts by the low five bits of the
amount, then sign extension. -/
def WordOp.eval (kind : WordOp) (a b : Word) : Word :=
  let a32 : BitVec 32 := a.setWidth 32
  let b32 : BitVec 32 := b.setWidth 32
  match kind with
  | .addw => (a32+b32).signExtend 64
  | .subw => (a32-b32).signExtend 64
  | .sllw => (a32<<<(b.toNat%32)).signExtend 64
  | .srlw => (a32>>>(b.toNat%32)).signExtend 64
  | .sraw => (a32.sshiftRight (b.toNat%32)).signExtend 64

/-- Branch conditions. -/
def Cond.holds (cond : Cond) (a b : Word) : Bool :=
  match cond with
  | .beq => decide (a=b)
  | .bne => decide (a≠b)
  | .blt => decide (a.toInt<b.toInt)
  | .bge => decide (b.toInt≤a.toInt)
  | .bltu => decide (a.toNat<b.toNat)
  | .bgeu => decide (b.toNat≤a.toNat)

/-- Bytes of a load. -/
def LoadOp.bytes : LoadOp → ℕ
  | .lb | .lbu => 1
  | .lh | .lhu => 2
  | .lw | .lwu => 4
  | .ld => 8

/-- Bytes of a store. -/
def StoreOp.bytes : StoreOp → ℕ
  | .sb => 1
  | .sh => 2
  | .sw => 4
  | .sd => 8

/-- Little-endian load with its extension. -/
def LoadOp.eval (width : LoadOp) (memory : ByteMemory) (addr : Word) : Word :=
  match width with
  | .lb => (readBytes memory addr 8 1).signExtend 64
  | .lh => (readBytes memory addr 16 2).signExtend 64
  | .lw => (readBytes memory addr 32 4).signExtend 64
  | .ld => readBytes memory addr 64 8
  | .lbu => (readBytes memory addr 8 1).setWidth 64
  | .lhu => (readBytes memory addr 16 2).setWidth 64
  | .lwu => (readBytes memory addr 32 4).setWidth 64

/-- Little-endian store of the low `bytes` bytes of a value. -/
def storeValue (memory : ByteMemory) (addr : Word) (bytes : ℕ) (value : Word) : ByteMemory :=
  fun a => if (a-addr).toNat<bytes then (value>>>(8*(a-addr).toNat)).setWidth 8 else memory a

/-- Result of one instruction. -/
structure Outcome where
  /-- Destination and value of a register write. -/
  write : Option (RegAddr × Word)
  /-- Next program counter. -/
  nextPc : Word
  /-- Data memory. -/
  memory : ByteMemory

/-- Value of a register; x0 is zero. -/
def reg (regs : RegAddr → Word) (a : RegAddr) : Word := if a=0 then 0 else regs a

/-- Offset of a jump. -/
def jumpOffset (offset : BitVec 20) : Word := (offset++0#1).signExtend 64

/-- Offset of a branch. -/
def branchOffset (offset : BitVec 12) : Word := (offset++0#1).signExtend 64

/-- The instruction table. -/
def isaOutcome (i : Instr) (pc : Word) (regs : RegAddr → Word) (memory : ByteMemory) : Outcome :=
  let r := reg regs
  match i with
  | .lui rd imm => ⟨some (rd,(imm++0#12).signExtend 64),pc+4,memory⟩
  | .auipc rd imm => ⟨some (rd,pc+(imm++0#12).signExtend 64),pc+4,memory⟩
  | .jal rd offset => ⟨some (rd,pc+4),pc+jumpOffset offset,memory⟩
  | .jalr rd rs1 imm => ⟨some (rd,pc+4),(r rs1+imm.signExtend 64)&&&~~~1#64,memory⟩
  | .branch cond rs1 rs2 offset =>
    ⟨none,if cond.holds (r rs1) (r rs2) then pc+branchOffset offset else pc+4,memory⟩
  | .load width rd rs1 imm =>
    ⟨some (rd,width.eval memory (r rs1+imm.signExtend 64)),pc+4,memory⟩
  | .store width rs1 rs2 imm =>
    ⟨none,pc+4,storeValue memory (r rs1+imm.signExtend 64) width.bytes (r rs2)⟩
  | .op kind rd rs1 rs2 => ⟨some (rd,kind.eval (r rs1) (r rs2)),pc+4,memory⟩
  | .opImm kind rd rs1 imm => ⟨some (rd,kind.eval (r rs1) imm),pc+4,memory⟩
  | .shiftImm kind rd rs1 shamt => ⟨some (rd,kind.eval (r rs1) shamt.toNat),pc+4,memory⟩
  | .op32 kind rd rs1 rs2 => ⟨some (rd,kind.eval (r rs1) (r rs2)),pc+4,memory⟩
  | .addiw rd rs1 imm =>
    ⟨some (rd,((r rs1).setWidth 32+imm.signExtend 32).signExtend 64),pc+4,memory⟩
  | .shiftImm32 kind rd rs1 shamt =>
    ⟨some (rd,(kind.eval ((r rs1).setWidth 32) shamt.toNat).signExtend 64),pc+4,memory⟩

/-- Memory accesses are naturally aligned. -/
def Aligned (i : Instr) (regs : RegAddr → Word) : Prop :=
  match i with
  | .load width _ rs1 imm => (reg regs rs1+imm.signExtend 64).toNat%width.bytes=0
  | .store width rs1 _ imm => (reg regs rs1+imm.signExtend 64).toNat%width.bytes=0
  | _ => True

instance (i : Instr) (regs : RegAddr → Word) : Decidable (Aligned i regs) :=
  match i with
  | .load _ _ _ _ | .store _ _ _ _ => inferInstanceAs (Decidable (_%_=0))
  | .lui _ _ | .auipc _ _ | .jal _ _ | .jalr _ _ _ | .branch _ _ _ _ | .op _ _ _ _
  | .opImm _ _ _ _ | .shiftImm _ _ _ _ | .op32 _ _ _ _ | .addiw _ _ _ | .shiftImm32 _ _ _ _ =>
    isTrue trivial

section Layouts

variable (f7 : BitVec 7) (rs1 rs2 rd : RegAddr) (f3 : BitVec 3) (imm12 : BitVec 12)
  (imm20 : BitVec 20) (opcode : Opcode)

/-- The core reads every field of the two-source layout. -/
theorem rType_fields :
    opcodeField (rType f7 rs2 rs1 f3 rd opcode)=opcode.bits ∧
    rdField (rType f7 rs2 rs1 f3 rd opcode)=rd ∧
    funct3 (rType f7 rs2 rs1 f3 rd opcode)=f3 ∧
    rs1Field (rType f7 rs2 rs1 f3 rd opcode)=rs1 ∧
    rs2Field (rType f7 rs2 rs1 f3 rd opcode)=rs2 ∧
    funct7 (rType f7 rs2 rs1 f3 rd opcode)=f7 := by
  unfold rType opcodeField rdField funct3 rs1Field rs2Field funct7
  refine ⟨?_,?_,?_,?_,?_,?_⟩
  · exact BitVec.extractLsb'_append_eq_right
  · rw [BitVec.extractLsb'_append_eq_of_le (by decide)]
    exact BitVec.extractLsb'_append_eq_right
  · iterate 2 rw [BitVec.extractLsb'_append_eq_of_le (by decide)]
    exact BitVec.extractLsb'_append_eq_right
  · iterate 3 rw [BitVec.extractLsb'_append_eq_of_le (by decide)]
    exact BitVec.extractLsb'_append_eq_right
  · iterate 4 rw [BitVec.extractLsb'_append_eq_of_le (by decide)]
    exact BitVec.extractLsb'_append_eq_right
  · iterate 4 rw [BitVec.extractLsb'_append_eq_of_le (by decide)]
    exact BitVec.extractLsb'_append_eq_left

/-- The store and branch immediates of the two-source layout. -/
theorem rType_immediates :
    immS (rType f7 rs2 rs1 f3 rd opcode)=(f7++rd).signExtend 64 ∧
    immB (rType f7 rs2 rs1 f3 rd opcode)=
      (f7.extractLsb' 6 1++rd.extractLsb' 0 1++f7.extractLsb' 0 6++rd.extractLsb' 1 4++
        0#1).signExtend 64 := by
  obtain ⟨-,hrd,-,-,-,hf7⟩ := rType_fields f7 rs1 rs2 rd f3 opcode
  refine ⟨?_,?_⟩
  · unfold rdField at hrd
    unfold funct7 at hf7
    unfold immS
    rw [hrd,hf7]
  · unfold immB rType
    have hlow : ∀ start len,start+len≤5 →
        (f7++rs2++rs1++f3++rd++opcode.bits : BitVec 32).extractLsb' (7+start) len=
          rd.extractLsb' start len := by
      intro start len h
      rw [BitVec.extractLsb'_append_eq_of_le (by omega),Nat.add_sub_cancel_left,
        BitVec.extractLsb'_append_eq_of_add_le h]
    have hhigh : ∀ start len,
        (f7++rs2++rs1++f3++rd++opcode.bits : BitVec 32).extractLsb' (25+start) len=
          f7.extractLsb' start len := by
      intro start len
      iterate 5 rw [BitVec.extractLsb'_append_eq_of_le (by omega)]
      congr 1
      omega
    rw [hhigh 6 1,hlow 0 1 (by decide),hhigh 0 6,hlow 1 4 (by decide)]

/-- The core reads every field of the twelve-bit immediate layout. -/
theorem iType_fields :
    opcodeField (iType imm12 rs1 f3 rd opcode)=opcode.bits ∧
    rdField (iType imm12 rs1 f3 rd opcode)=rd ∧
    funct3 (iType imm12 rs1 f3 rd opcode)=f3 ∧
    rs1Field (iType imm12 rs1 f3 rd opcode)=rs1 ∧
    immI (iType imm12 rs1 f3 rd opcode)=imm12.signExtend 64 ∧
    funct7 (iType imm12 rs1 f3 rd opcode)=imm12.extractLsb' 5 7 := by
  unfold iType opcodeField rdField funct3 rs1Field immI funct7
  refine ⟨?_,?_,?_,?_,?_,?_⟩
  · exact BitVec.extractLsb'_append_eq_right
  · rw [BitVec.extractLsb'_append_eq_of_le (by decide)]
    exact BitVec.extractLsb'_append_eq_right
  · iterate 2 rw [BitVec.extractLsb'_append_eq_of_le (by decide)]
    exact BitVec.extractLsb'_append_eq_right
  · iterate 3 rw [BitVec.extractLsb'_append_eq_of_le (by decide)]
    exact BitVec.extractLsb'_append_eq_right
  · iterate 4 rw [BitVec.extractLsb'_append_eq_of_le (by decide)]
    rw [BitVec.extractLsb'_eq_self]
  · iterate 4 rw [BitVec.extractLsb'_append_eq_of_le (by decide)]

/-- The core reads every field of the twenty-bit immediate layout, in the
pieces of a jump too. -/
theorem uType_fields :
    opcodeField (uType imm20 rd opcode)=opcode.bits ∧
    rdField (uType imm20 rd opcode)=rd ∧
    immU (uType imm20 rd opcode)=(imm20++0#12).signExtend 64 ∧
    immJ (uType imm20 rd opcode)=
      (imm20.extractLsb' 19 1++imm20.extractLsb' 0 8++imm20.extractLsb' 8 1++
        imm20.extractLsb' 9 10++0#1).signExtend 64 := by
  unfold uType opcodeField rdField immU immJ
  refine ⟨?_,?_,?_,?_⟩
  · exact BitVec.extractLsb'_append_eq_right
  · rw [BitVec.extractLsb'_append_eq_of_le (by decide)]
    exact BitVec.extractLsb'_append_eq_right
  · iterate 2 rw [BitVec.extractLsb'_append_eq_of_le (by decide)]
    rw [BitVec.extractLsb'_eq_self]
  · iterate 8 rw [BitVec.extractLsb'_append_eq_of_le (by decide)]

end Layouts

/-- The scattered bits of a jump offset come back in order. -/
theorem immJ_encode (rd : RegAddr) (offset : BitVec 20) :
    immJ (encode (.jal rd offset))=jumpOffset offset := by
  rw [encode,(uType_fields _ _ _).2.2.2]
  have h19 : (offset.extractLsb' 19 1++offset.extractLsb' 0 10++offset.extractLsb' 10 1++
      offset.extractLsb' 11 8 : BitVec 20).extractLsb' 19 1=offset.extractLsb' 19 1 := by
    iterate 2 rw [BitVec.extractLsb'_append_eq_of_le (by decide)]
    exact BitVec.extractLsb'_append_eq_left
  have h0 : (offset.extractLsb' 19 1++offset.extractLsb' 0 10++offset.extractLsb' 10 1++
      offset.extractLsb' 11 8 : BitVec 20).extractLsb' 0 8=offset.extractLsb' 11 8 :=
    BitVec.extractLsb'_append_eq_right
  have h8 : (offset.extractLsb' 19 1++offset.extractLsb' 0 10++offset.extractLsb' 10 1++
      offset.extractLsb' 11 8 : BitVec 20).extractLsb' 8 1=offset.extractLsb' 10 1 := by
    rw [BitVec.extractLsb'_append_eq_of_le (by decide)]
    exact BitVec.extractLsb'_append_eq_right
  have h9 : (offset.extractLsb' 19 1++offset.extractLsb' 0 10++offset.extractLsb' 10 1++
      offset.extractLsb' 11 8 : BitVec 20).extractLsb' 9 10=offset.extractLsb' 0 10 := by
    iterate 2 rw [BitVec.extractLsb'_append_eq_of_le (by decide)]
    exact BitVec.extractLsb'_append_eq_right
  have hjoin : (offset.extractLsb' 19 1++offset.extractLsb' 11 8++offset.extractLsb' 10 1++
      offset.extractLsb' 0 10 : BitVec 20)=offset := by
    rw [BitVec.extractLsb'_append_extractLsb'_eq_extractLsb' (by decide),
      BitVec.extractLsb'_append_extractLsb'_eq_extractLsb' (by decide),
      BitVec.extractLsb'_append_extractLsb'_eq_extractLsb' (by decide)]
    exact BitVec.extractLsb'_eq_self
  rw [h19,h0,h8,h9,hjoin]
  rfl

/-- The scattered bits of a branch offset come back in order. -/
theorem immB_scattered (rs1 rs2 : RegAddr) (f3 : BitVec 3) (opcode : Opcode) (offset : BitVec 12) :
    immB (rType (offset.extractLsb' 11 1++offset.extractLsb' 4 6) rs2 rs1 f3
      (offset.extractLsb' 0 4++offset.extractLsb' 10 1) opcode)=branchOffset offset := by
  rw [(rType_immediates _ _ _ _ _ _).2]
  have h6 : (offset.extractLsb' 11 1++offset.extractLsb' 4 6 : BitVec 7).extractLsb' 6 1=
      offset.extractLsb' 11 1 := BitVec.extractLsb'_append_eq_left
  have h0 : (offset.extractLsb' 0 4++offset.extractLsb' 10 1 : BitVec 5).extractLsb' 0 1=
      offset.extractLsb' 10 1 := BitVec.extractLsb'_append_eq_right
  have hmid : (offset.extractLsb' 11 1++offset.extractLsb' 4 6 : BitVec 7).extractLsb' 0 6=
      offset.extractLsb' 4 6 := BitVec.extractLsb'_append_eq_right
  have h1 : (offset.extractLsb' 0 4++offset.extractLsb' 10 1 : BitVec 5).extractLsb' 1 4=
      offset.extractLsb' 0 4 := BitVec.extractLsb'_append_eq_left
  have hjoin : (offset.extractLsb' 11 1++offset.extractLsb' 10 1++offset.extractLsb' 4 6++
      offset.extractLsb' 0 4 : BitVec 12)=offset := by
    rw [BitVec.extractLsb'_append_extractLsb'_eq_extractLsb' (by decide),
      BitVec.extractLsb'_append_extractLsb'_eq_extractLsb' (by decide),
      BitVec.extractLsb'_append_extractLsb'_eq_extractLsb' (by decide)]
    exact BitVec.extractLsb'_eq_self
  rw [h6,h0,hmid,h1,hjoin]
  rfl

/-- The core reads the offset of an encoded branch. -/
theorem immB_encode (cond : Cond) (rs1 rs2 : RegAddr) (offset : BitVec 12) :
    immB (encode (.branch cond rs1 rs2 offset))=branchOffset offset :=
  immB_scattered rs1 rs2 cond.code .branch offset

/-- The two parts of a store immediate come back together. -/
theorem immS_split (rs1 rs2 : RegAddr) (f3 : BitVec 3) (opcode : Opcode) (imm : BitVec 12) :
    immS (rType (imm.extractLsb' 5 7) rs2 rs1 f3 (imm.extractLsb' 0 5) opcode)=
      imm.signExtend 64 := by
  rw [(rType_immediates _ _ _ _ _ _).1,
    BitVec.extractLsb'_append_extractLsb'_eq_extractLsb' (by decide)]
  congr 1
  exact BitVec.extractLsb'_eq_self

/-- The core reads the immediate of an encoded store. -/
theorem immS_encode (width : StoreOp) (rs1 rs2 : RegAddr) (imm : BitVec 12) :
    immS (encode (.store width rs1 rs2 imm))=imm.signExtend 64 :=
  immS_split rs1 rs2 width.code .store imm

end RichardCore.Isa
