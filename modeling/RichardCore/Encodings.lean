import Mathlib.Tactic.IntervalCases
import RichardCore.Isa

/-!
# Defined encodings

The fences, the CSR instructions and the privileged instructions as syntax
with their encodings and the modes that permit them, beside the base integer
instructions. A test on the fields of a word decides whether it encodes one
of them: every layout is put together again from its fields.
-/

namespace RichardCore.Encodings

open Packages Decoder DataMemory Isa

/-- CSR operations. -/
inductive CsrOp where
  | rw | rs | rc | rwi | rsi | rci
  deriving DecidableEq, Repr

/-- Function code of the CSR operations. -/
def CsrOp.code : CsrOp → BitVec 3
  | .rw => 0b001
  | .rs => 0b010
  | .rc => 0b011
  | .rwi => 0b101
  | .rsi => 0b110
  | .rci => 0b111

/-- Every CSR operation. -/
def CsrOp.all : List CsrOp := [.rw,.rs,.rc,.rwi,.rsi,.rci]

/-- Privileged instructions without operands. -/
inductive PrivOp where
  | ecall | ebreak | mret | sret | wfi
  deriving DecidableEq, Repr

/-- Twelve-bit function code of the privileged instructions. -/
def PrivOp.code : PrivOp → BitVec 12
  | .ecall => 0x000
  | .ebreak => 0x001
  | .mret => 0x302
  | .sret => 0x102
  | .wfi => 0x105

/-- Every privileged instruction without operands. -/
def PrivOp.all : List PrivOp := [.ecall,.ebreak,.mret,.sret,.wfi]

/-- Fences, CSR instructions and privileged instructions. Both fences ignore
their register and immediate fields. -/
inductive SysInstr where
  | fence (imm : BitVec 12) (rs1 rd : RegAddr)
  | fenceI (imm : BitVec 12) (rs1 rd : RegAddr)
  | csr (op : CsrOp) (addr : BitVec 12) (source rd : RegAddr)
  | priv (op : PrivOp)
  | sfenceVma (rs1 rs2 : RegAddr)
  deriving DecidableEq, Repr

/-- Function code of the address-translation fence. -/
def sfenceCode : BitVec 7 := 0b0001001

/-- Encoding. -/
def encodeSys : SysInstr → BitVec 32
  | .fence imm rs1 rd => iType imm rs1 0b000 rd .miscMem
  | .fenceI imm rs1 rd => iType imm rs1 0b001 rd .miscMem
  | .csr op addr source rd => iType addr source op.code rd .system
  | .priv op => iType op.code 0 0b000 0 .system
  | .sfenceVma rs1 rs2 => rType sfenceCode rs2 rs1 0b000 0 .system

/-- Modes that permit a privileged instruction. -/
def PrivOp.permitted (mode : PrivMode) : PrivOp → Bool
  | .mret => decide (mode=.m)
  | .sret => decide (mode≠.u)
  | .ecall | .ebreak | .wfi => true

/-- Modes that permit the address-translation fence. -/
def sfencePermitted (mode : PrivMode) : Bool := decide (mode≠.u)

/-- Modes that permit a CSR access: at least the one in address bits 9:8. -/
def csrPermitted (mode : PrivMode) (addr : BitVec 12) : Bool :=
  decide ((addr.extractLsb' 8 2).toNat ≤ mode.bits.toNat)

/-- Modes that permit an instruction. -/
def SysInstr.permitted (mode : PrivMode) : SysInstr → Bool
  | .fence _ _ _ | .fenceI _ _ _ => true
  | .csr _ addr _ _ => csrPermitted mode addr
  | .priv op => op.permitted mode
  | .sfenceVma _ _ => sfencePermitted mode

/-- The word encodes a base instruction, or another one that the mode
permits. -/
def Defined (word : BitVec 32) (mode : PrivMode) : Prop :=
  (∃ i : Instr,encode i=word) ∨ ∃ i : SysInstr,encodeSys i=word ∧ i.permitted mode=true

section Layouts

variable (word : BitVec 32)

/-- The twelve-bit field consists of the seven-bit function code and rs2. -/
theorem csrAddrField_eq : csrAddrField word=funct7 word++rs2Field word := by
  unfold csrAddrField funct7 rs2Field
  rw [BitVec.extractLsb'_append_extractLsb'_eq_extractLsb' (by decide)]

/-- The twelve-bit field of the immediate layout. -/
theorem csrAddrField_iType (imm : BitVec 12) (rs1 : RegAddr) (f3 : BitVec 3) (rd : RegAddr)
    (opcode : Opcode) : csrAddrField (iType imm rs1 f3 rd opcode)=imm := by
  unfold csrAddrField iType
  iterate 4 rw [BitVec.extractLsb'_append_eq_of_le (by decide)]
  exact BitVec.extractLsb'_eq_self

/-- A word is put together from the fields of the immediate layout. -/
theorem iType_of_fields {opcode : Opcode} (h : opcodeField word=opcode.bits) :
    iType (csrAddrField word) (rs1Field word) (funct3 word) (rdField word) opcode=word := by
  unfold iType
  rw [←h]
  unfold csrAddrField rs1Field funct3 rdField opcodeField
  rw [BitVec.extractLsb'_append_extractLsb'_eq_extractLsb' (by decide),
    BitVec.extractLsb'_append_extractLsb'_eq_extractLsb' (by decide),
    BitVec.extractLsb'_append_extractLsb'_eq_extractLsb' (by decide),
    BitVec.extractLsb'_append_extractLsb'_eq_extractLsb' (by decide)]
  exact BitVec.extractLsb'_eq_self

/-- A word is put together from the fields of the two-source layout. -/
theorem rType_of_fields {opcode : Opcode} (h : opcodeField word=opcode.bits) :
    rType (funct7 word) (rs2Field word) (rs1Field word) (funct3 word) (rdField word) opcode=word := by
  have hi := iType_of_fields word h
  unfold iType at hi
  rw [csrAddrField_eq] at hi
  exact hi

/-- A word is put together from the fields of the twenty-bit layout. -/
theorem uType_of_fields {opcode : Opcode} (h : opcodeField word=opcode.bits) :
    uType (word.extractLsb' 12 20) (rdField word) opcode=word := by
  unfold uType
  rw [←h]
  unfold rdField opcodeField
  rw [BitVec.extractLsb'_append_extractLsb'_eq_extractLsb' (by decide),
    BitVec.extractLsb'_append_extractLsb'_eq_extractLsb' (by decide)]
  exact BitVec.extractLsb'_eq_self

end Layouts

/-- Every pair of outer fields holds a branch offset. -/
theorem branch_fields (f7 : BitVec 7) (rd : BitVec 5) :
    ∃ offset : BitVec 12,offset.extractLsb' 11 1++offset.extractLsb' 4 6=f7 ∧
      offset.extractLsb' 0 4++offset.extractLsb' 10 1=rd := by
  refine ⟨f7.extractLsb' 6 1++rd.extractLsb' 0 1++f7.extractLsb' 0 6++rd.extractLsb' 1 4,?_,?_⟩
  · apply BitVec.eq_of_getLsbD_eq
    intro j hj
    simp only [BitVec.getLsbD_append,BitVec.getLsbD_extractLsb']
    interval_cases j <;> simp
  · apply BitVec.eq_of_getLsbD_eq
    intro j hj
    simp only [BitVec.getLsbD_append,BitVec.getLsbD_extractLsb']
    interval_cases j <;> simp

/-- Every twenty-bit field holds a jump offset. -/
theorem jump_field (imm : BitVec 20) :
    ∃ offset : BitVec 20,offset.extractLsb' 19 1++offset.extractLsb' 0 10++
      offset.extractLsb' 10 1++offset.extractLsb' 11 8=imm := by
  refine ⟨imm.extractLsb' 19 1++imm.extractLsb' 0 8++imm.extractLsb' 8 1++imm.extractLsb' 9 10,?_⟩
  apply BitVec.eq_of_getLsbD_eq
  intro j hj
  simp only [BitVec.getLsbD_append,BitVec.getLsbD_extractLsb']
  interval_cases j <;> simp

/-- Every register operation. -/
def regOps : List RegOp := [.add,.sub,.and,.or,.xor,.sll,.srl,.sra,.slt,.sltu]
/-- Every immediate operation. -/
def immOps : List ImmOp := [.addi,.andi,.ori,.xori,.slti,.sltiu]
/-- Every shift. -/
def shiftOps : List ShiftOp := [.sll,.srl,.sra]
/-- Every word operation. -/
def wordOps : List WordOp := [.addw,.subw,.sllw,.srlw,.sraw]
/-- Every branch condition. -/
def conds : List Cond := [.beq,.bne,.blt,.bge,.bltu,.bgeu]
/-- Every load. -/
def loadOps : List LoadOp := [.lb,.lh,.lw,.ld,.lbu,.lhu,.lwu]
/-- Every store. -/
def storeOps : List StoreOp := [.sb,.sh,.sw,.sd]

/-- Function codes of OP. -/
def opDefined (f7 : BitVec 7) (f3 : BitVec 3) : Bool := regOps.any fun k => k.codes=(f7,f3)

/-- Function codes of OP-32. -/
def op32Defined (f7 : BitVec 7) (f3 : BitVec 3) : Bool := wordOps.any fun k => k.codes=(f7,f3)

/-- Function codes of OP-IMM, the upper six bits of a shift amount included. -/
def opImmDefined (f6 : BitVec 6) (f3 : BitVec 3) : Bool :=
  immOps.any (fun k => k.code=f3) || shiftOps.any fun k => k.codes=(f6,f3)

/-- Function codes of OP-IMM-32. -/
def opImm32Defined (f7 : BitVec 7) (f3 : BitVec 3) : Bool :=
  f3==0 || shiftOps.any fun k => (k.codes.1++0#1,k.codes.2)=(f7,f3)

/-- Fields of the non-CSR SYSTEM instructions. -/
def privDefined (mode : PrivMode) (f12 : BitVec 12) (f7 : BitVec 7) (rs1 rd : RegAddr) : Bool :=
  rd==0 && ((rs1==0 && PrivOp.all.any fun op => op.code=f12 && op.permitted mode) ||
    (f7==sfenceCode && sfencePermitted mode))

/-- Test on the fields of a word for the defined encodings. -/
def definedFields (word : BitVec 32) (mode : PrivMode) : Bool :=
  match Opcode.ofBits (opcodeField word) with
  | some .lui | some .auipc | some .jal => true
  | some .jalr => funct3 word==0
  | some .branch => conds.any fun c => c.code=funct3 word
  | some .load => loadOps.any fun l => l.code=funct3 word
  | some .store => storeOps.any fun l => l.code=funct3 word
  | some .op => opDefined (funct7 word) (funct3 word)
  | some .op32 => op32Defined (funct7 word) (funct3 word)
  | some .opImm => opImmDefined ((csrAddrField word).extractLsb' 6 6) (funct3 word)
  | some .opImm32 => opImm32Defined (funct7 word) (funct3 word)
  | some .miscMem => funct3 word==0 || funct3 word==1
  | some .system =>
    if funct3 word=0 then
      privDefined mode (csrAddrField word) (funct7 word) (rs1Field word) (rdField word)
    else CsrOp.all.any (fun op => op.code=funct3 word) && csrPermitted mode (csrAddrField word)
  | _ => false

/-- Every encoded base instruction passes the test. -/
theorem definedFields_encode (i : Instr) (mode : PrivMode) : definedFields (encode i) mode=true := by
  unfold definedFields
  cases i with
  | lui rd imm => rw [encode,(uType_fields rd imm .lui).1,Opcode.ofBits_bits]
  | auipc rd imm => rw [encode,(uType_fields rd imm .auipc).1,Opcode.ofBits_bits]
  | jal rd offset => rw [encode,(uType_fields rd _ .jal).1,Opcode.ofBits_bits]
  | jalr rd rs1 imm =>
    obtain ⟨hop,-,hf3,-⟩ := iType_fields rs1 rd 0b000 imm .jalr
    rw [encode,hop,Opcode.ofBits_bits,hf3]
    rfl
  | branch cond rs1 rs2 offset =>
    obtain ⟨hop,-,hf3,-⟩ := rType_fields (offset.extractLsb' 11 1++offset.extractLsb' 4 6) rs1 rs2
      (offset.extractLsb' 0 4++offset.extractLsb' 10 1) cond.code .branch
    rw [encode,hop,Opcode.ofBits_bits,hf3]
    cases cond <;> rfl
  | load width rd rs1 imm =>
    obtain ⟨hop,-,hf3,-⟩ := iType_fields rs1 rd width.code imm .load
    rw [encode,hop,Opcode.ofBits_bits,hf3]
    cases width <;> rfl
  | store width rs1 rs2 imm =>
    obtain ⟨hop,-,hf3,-⟩ := rType_fields (imm.extractLsb' 5 7) rs1 rs2 (imm.extractLsb' 0 5)
      width.code .store
    rw [encode,hop,Opcode.ofBits_bits,hf3]
    cases width <;> rfl
  | op kind rd rs1 rs2 =>
    obtain ⟨hop,-,hf3,-,-,hf7⟩ := rType_fields kind.codes.1 rs1 rs2 rd kind.codes.2 .op
    rw [encode,hop,Opcode.ofBits_bits,hf3,hf7]
    cases kind <;> rfl
  | opImm kind rd rs1 imm =>
    obtain ⟨hop,-,hf3,-⟩ := iType_fields rs1 rd kind.code imm .opImm
    rw [encode,hop,Opcode.ofBits_bits,hf3]
    cases kind <;> rfl
  | shiftImm kind rd rs1 shamt =>
    obtain ⟨hop,-,hf3,-⟩ := iType_fields rs1 rd kind.codes.2 (kind.codes.1++shamt) .opImm
    have hf6 : (csrAddrField (iType (kind.codes.1++shamt) rs1 kind.codes.2 rd .opImm)).extractLsb'
        6 6=kind.codes.1 := by
      rw [csrAddrField_iType]
      exact BitVec.extractLsb'_append_eq_left
    rw [encode,hop,Opcode.ofBits_bits,hf3]
    dsimp only
    rw [hf6]
    cases kind <;> rfl
  | op32 kind rd rs1 rs2 =>
    obtain ⟨hop,-,hf3,-,-,hf7⟩ := rType_fields kind.codes.1 rs1 rs2 rd kind.codes.2 .op32
    rw [encode,hop,Opcode.ofBits_bits,hf3,hf7]
    cases kind <;> rfl
  | addiw rd rs1 imm =>
    obtain ⟨hop,-,hf3,-⟩ := iType_fields rs1 rd 0b000 imm .opImm32
    rw [encode,hop,Opcode.ofBits_bits,hf3]
    rfl
  | shiftImm32 kind rd rs1 shamt =>
    obtain ⟨hop,-,hf3,-,-,hf7⟩ :=
      iType_fields rs1 rd kind.codes.2 (kind.codes.1++0#1++shamt) .opImm32
    have hcode : (kind.codes.1++0#1++shamt : BitVec 12).extractLsb' 5 7=kind.codes.1++0#1 :=
      BitVec.extractLsb'_append_eq_left
    rw [encode,hop,Opcode.ofBits_bits,hf3,hf7,hcode]
    cases kind <;> rfl

/-- Every other encoded instruction passes the test in the modes that permit
it. -/
theorem definedFields_encodeSys (i : SysInstr) (mode : PrivMode) (h : i.permitted mode=true) :
    definedFields (encodeSys i) mode=true := by
  unfold definedFields
  cases i with
  | fence imm rs1 rd =>
    obtain ⟨hop,-,hf3,-⟩ := iType_fields rs1 rd 0b000 imm .miscMem
    rw [encodeSys,hop,Opcode.ofBits_bits,hf3]
    rfl
  | fenceI imm rs1 rd =>
    obtain ⟨hop,-,hf3,-⟩ := iType_fields rs1 rd 0b001 imm .miscMem
    rw [encodeSys,hop,Opcode.ofBits_bits,hf3]
    rfl
  | csr op addr source rd =>
    obtain ⟨hop,-,hf3,-⟩ := iType_fields source rd op.code addr .system
    have hpermitted : csrPermitted mode addr=true := h
    rw [encodeSys,hop,Opcode.ofBits_bits,hf3,csrAddrField_iType,hpermitted]
    cases op <;> rfl
  | priv op =>
    obtain ⟨hop,hrd,hf3,hrs1,-⟩ := iType_fields 0 0 0b000 op.code .system
    have hpermitted : op.permitted mode=true := h
    rw [encodeSys,hop,Opcode.ofBits_bits,hf3,hrd,hrs1,csrAddrField_iType]
    unfold privDefined
    cases op <;> simp [PrivOp.all,hpermitted]
  | sfenceVma rs1 rs2 =>
    obtain ⟨hop,hrd,hf3,-,-,hf7⟩ := rType_fields sfenceCode rs1 rs2 0 0b000 .system
    have hpermitted : sfencePermitted mode=true := h
    rw [encodeSys,hop,Opcode.ofBits_bits,hf3,hrd,hf7]
    unfold privDefined
    simp [hpermitted]

/-- The twelve-bit field of a shift is put together from its code and its
amount. -/
theorem shift_field (field : BitVec 12) :
    field.extractLsb' 6 6++field.extractLsb' 0 6=field := by
  rw [BitVec.extractLsb'_append_extractLsb'_eq_extractLsb' (by decide)]
  exact BitVec.extractLsb'_eq_self

section Encode

variable {word : BitVec 32} {mode : PrivMode}

/-- BRANCH words with a defined condition are encodings. -/
theorem encode_branch (hop : opcodeField word=Opcode.branch.bits)
    (h : (conds.any fun c => c.code=funct3 word)=true) : ∃ i : Instr,encode i=word := by
  obtain ⟨cond,-,hf3⟩ := List.any_eq_true.mp h
  obtain ⟨offset,hf7,hrd⟩ := branch_fields (funct7 word) (rdField word)
  refine ⟨.branch cond (rs1Field word) (rs2Field word) offset,?_⟩
  rw [encode,hf7,hrd,of_decide_eq_true hf3]
  exact rType_of_fields word hop

/-- STORE words of a defined width are encodings. -/
theorem encode_store (hop : opcodeField word=Opcode.store.bits)
    (h : (storeOps.any fun l => l.code=funct3 word)=true) : ∃ i : Instr,encode i=word := by
  obtain ⟨width,-,hf3⟩ := List.any_eq_true.mp h
  have hhigh : (funct7 word++rdField word).extractLsb' 5 7=funct7 word :=
    BitVec.extractLsb'_append_eq_left
  have hlow : (funct7 word++rdField word).extractLsb' 0 5=rdField word :=
    BitVec.extractLsb'_append_eq_right
  refine ⟨.store width (rs1Field word) (rs2Field word) (funct7 word++rdField word),?_⟩
  rw [encode,hhigh,hlow,of_decide_eq_true hf3]
  exact rType_of_fields word hop

/-- OP words with defined codes are encodings. -/
theorem encode_op (hop : opcodeField word=Opcode.op.bits)
    (h : opDefined (funct7 word) (funct3 word)=true) : ∃ i : Instr,encode i=word := by
  unfold opDefined at h
  obtain ⟨kind,-,hcodes⟩ := List.any_eq_true.mp h
  have hpair := of_decide_eq_true hcodes
  refine ⟨.op kind (rdField word) (rs1Field word) (rs2Field word),?_⟩
  rw [encode,hpair]
  exact rType_of_fields word hop

/-- OP-32 words with defined codes are encodings. -/
theorem encode_op32 (hop : opcodeField word=Opcode.op32.bits)
    (h : op32Defined (funct7 word) (funct3 word)=true) : ∃ i : Instr,encode i=word := by
  unfold op32Defined at h
  obtain ⟨kind,-,hcodes⟩ := List.any_eq_true.mp h
  have hpair := of_decide_eq_true hcodes
  refine ⟨.op32 kind (rdField word) (rs1Field word) (rs2Field word),?_⟩
  rw [encode,hpair]
  exact rType_of_fields word hop

/-- OP-IMM words with defined codes are encodings. -/
theorem encode_opImm (hop : opcodeField word=Opcode.opImm.bits)
    (h : opImmDefined ((csrAddrField word).extractLsb' 6 6) (funct3 word)=true) :
    ∃ i : Instr,encode i=word := by
  unfold opImmDefined at h
  rw [Bool.or_eq_true] at h
  obtain h | h := h
  · obtain ⟨kind,-,hcode⟩ := List.any_eq_true.mp h
    refine ⟨.opImm kind (rdField word) (rs1Field word) (csrAddrField word),?_⟩
    rw [encode,of_decide_eq_true hcode]
    exact iType_of_fields word hop
  · obtain ⟨kind,-,hcodes⟩ := List.any_eq_true.mp h
    have hpair := of_decide_eq_true hcodes
    refine ⟨.shiftImm kind (rdField word) (rs1Field word) ((csrAddrField word).extractLsb' 0 6),?_⟩
    rw [encode,hpair]
    dsimp only
    rw [shift_field]
    exact iType_of_fields word hop

/-- OP-IMM-32 words with defined codes are encodings. -/
theorem encode_opImm32 (hop : opcodeField word=Opcode.opImm32.bits)
    (h : opImm32Defined (funct7 word) (funct3 word)=true) : ∃ i : Instr,encode i=word := by
  unfold opImm32Defined at h
  rw [Bool.or_eq_true] at h
  obtain h | h := h
  · have hf3 : funct3 word=0 := by simpa using h
    refine ⟨.addiw (rdField word) (rs1Field word) (csrAddrField word),?_⟩
    have hword := iType_of_fields word hop
    rw [hf3] at hword
    exact hword
  · obtain ⟨kind,-,hcodes⟩ := List.any_eq_true.mp h
    have hpair := of_decide_eq_true hcodes
    rw [Prod.mk.injEq] at hpair
    obtain ⟨hf7,hf3⟩ := hpair
    refine ⟨.shiftImm32 kind (rdField word) (rs1Field word) (rs2Field word),?_⟩
    rw [encode,hf3,hf7,←csrAddrField_eq]
    exact iType_of_fields word hop

/-- Words with defined privileged fields are encodings that the mode
permits. -/
theorem encode_priv (hop : opcodeField word=Opcode.system.bits) (hf3 : funct3 word=0)
    (h : privDefined mode (csrAddrField word) (funct7 word) (rs1Field word) (rdField word)=true) :
    ∃ i : SysInstr,encodeSys i=word ∧ i.permitted mode=true := by
  unfold privDefined at h
  rw [Bool.and_eq_true,Bool.or_eq_true,Bool.and_eq_true,Bool.and_eq_true,beq_iff_eq,beq_iff_eq,
    beq_iff_eq] at h
  obtain ⟨hrd,⟨hrs1,hany⟩ | ⟨hf7,hpermitted⟩⟩ := h
  · obtain ⟨op,-,hop'⟩ := List.any_eq_true.mp hany
    rw [Bool.and_eq_true,decide_eq_true_eq] at hop'
    refine ⟨.priv op,?_,hop'.2⟩
    have hword := iType_of_fields word hop
    rw [hf3,hrd,hrs1,←hop'.1] at hword
    exact hword
  · refine ⟨.sfenceVma (rs1Field word) (rs2Field word),?_,hpermitted⟩
    have hword := rType_of_fields word hop
    rw [hf3,hrd,hf7] at hword
    exact hword

/-- SYSTEM words with defined fields are encodings that the mode permits. -/
theorem encode_system (hop : opcodeField word=Opcode.system.bits)
    (h : (if funct3 word=0 then
        privDefined mode (csrAddrField word) (funct7 word) (rs1Field word) (rdField word)
      else CsrOp.all.any (fun op => op.code=funct3 word) &&
        csrPermitted mode (csrAddrField word))=true) :
    ∃ i : SysInstr,encodeSys i=word ∧ i.permitted mode=true := by
  split at h
  · rename_i hf3
    exact encode_priv hop hf3 h
  · rw [Bool.and_eq_true] at h
    obtain ⟨op,-,hf3⟩ := List.any_eq_true.mp h.1
    refine ⟨.csr op (csrAddrField word) (rs1Field word) (rdField word),?_,h.2⟩
    rw [encodeSys,of_decide_eq_true hf3]
    exact iType_of_fields word hop

end Encode

/-- The test accepts exactly the defined encodings. -/
theorem definedFields_iff (word : BitVec 32) (mode : PrivMode) :
    definedFields word mode=true ↔ Defined word mode := by
  constructor
  · intro h
    unfold definedFields at h
    cases hcode : Opcode.ofBits (opcodeField word) with
    | none =>
      rw [hcode] at h
      cases h
    | some opcode =>
      rw [hcode] at h
      have hop := (Opcode.bits_of_ofBits hcode).symm
      cases opcode with
      | lui => exact .inl ⟨.lui (rdField word) (word.extractLsb' 12 20),uType_of_fields word hop⟩
      | auipc => exact .inl ⟨.auipc (rdField word) (word.extractLsb' 12 20),uType_of_fields word hop⟩
      | jal =>
        obtain ⟨offset,hoffset⟩ := jump_field (word.extractLsb' 12 20)
        refine .inl ⟨.jal (rdField word) offset,?_⟩
        rw [encode,hoffset]
        exact uType_of_fields word hop
      | jalr =>
        have hf3 : funct3 word=0 := by simpa using h
        have hword := iType_of_fields word hop
        rw [hf3] at hword
        exact .inl ⟨.jalr (rdField word) (rs1Field word) (csrAddrField word),hword⟩
      | branch => exact .inl (encode_branch hop h)
      | load =>
        obtain ⟨width,-,hf3⟩ := List.any_eq_true.mp h
        refine .inl ⟨.load width (rdField word) (rs1Field word) (csrAddrField word),?_⟩
        rw [encode,of_decide_eq_true hf3]
        exact iType_of_fields word hop
      | store => exact .inl (encode_store hop h)
      | op => exact .inl (encode_op hop h)
      | op32 => exact .inl (encode_op32 hop h)
      | opImm => exact .inl (encode_opImm hop h)
      | opImm32 => exact .inl (encode_opImm32 hop h)
      | miscMem =>
        have hword := iType_of_fields word hop
        rw [Bool.or_eq_true,beq_iff_eq,beq_iff_eq] at h
        obtain hf3 | hf3 := h
        · rw [hf3] at hword
          exact .inr ⟨.fence (csrAddrField word) (rs1Field word) (rdField word),hword,rfl⟩
        · rw [hf3] at hword
          exact .inr ⟨.fenceI (csrAddrField word) (rs1Field word) (rdField word),hword,rfl⟩
      | system => exact .inr (encode_system hop h)
      | _ => cases h
  · rintro (⟨i,rfl⟩ | ⟨i,rfl,hpermitted⟩)
    · exact definedFields_encode i mode
    · exact definedFields_encodeSys i mode hpermitted

end RichardCore.Encodings
