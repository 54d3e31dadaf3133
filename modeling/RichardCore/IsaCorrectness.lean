import RichardCore.Datapath
import RichardCore.SequentialMachine

/-!
# Single-instruction correctness

Decoder, execute, memory and writeback stage composed on one encoded
instruction give the reference result: the register write, the next program
counter and the stored bytes. Control-transfer targets have bit 0 cleared by
the execute stage for every kind of transfer.
-/

namespace RichardCore.IsaCorrectness

open Packages Decoder Execute DataMemory CsrUnit TrapCtrl Pipeline Harness SequentialMachine Isa
  Datapath BitFields

/-- The four stages on one instruction word, with any CSR read data. -/
def stageOutcome (word : BitVec 32) (mode : PrivMode) (pc : Word) (regs : RegFile)
    (memory : ByteMemory) (csrData : Word) : Outcome :=
  let e := exMemOf (idOf word mode pc regs)
  let w := memStage e (byteDevice.read memory (dmemRequest e))
  let out := wbStage w csrData (wbCsrIllegal w)
  { write := if out.regWriteEn then some (out.rdAddr,out.rdWdata) else none
    nextPc := if e.branchTaken then e.branchTarget else pc+4
    memory :=
      if (dmemRequest e).writeEn then
        strobeWrite memory e.aluResult (storeDataAligned e) (writeStrobe e)
      else memory }

section Decode

variable (mode : BitVec 2) (rd rs1 rs2 : RegAddr)

/-- Decoded register operation. -/
theorem decode_op (kind : RegOp) :
    decoder (encode (.op kind rd rs1 rs2)) mode=
      ⟨rs1,rs2,0,{execDefaults with aluOp := aluOfReg kind},memDefaults,⟨true,rd,0⟩,sysDefaults⟩ := by
  obtain ⟨hop,hrd,hf3,hrs1,hrs2,hf7⟩ := rType_fields kind.codes.1 rs1 rs2 rd kind.codes.2 .op
  rw [encode,decoder,decodeDefaults,hop,hrd,hf3,hrs1,hrs2,hf7,Opcode.ofBits_bits]
  cases kind <;> rfl

/-- Decoded word operation. -/
theorem decode_op32 (kind : WordOp) :
    decoder (encode (.op32 kind rd rs1 rs2)) mode=
      ⟨rs1,rs2,0,{execDefaults with isWordOp := true, aluOp := aluOfWord kind},memDefaults,
        ⟨true,rd,0⟩,sysDefaults⟩ := by
  obtain ⟨hop,hrd,hf3,hrs1,hrs2,hf7⟩ := rType_fields kind.codes.1 rs1 rs2 rd kind.codes.2 .op32
  rw [encode,decoder,decodeDefaults,hop,hrd,hf3,hrs1,hrs2,hf7,Opcode.ofBits_bits]
  cases kind <;> rfl

/-- Decoded immediate operation. -/
theorem decode_opImm (kind : ImmOp) (imm : BitVec 12) :
    decoder (encode (.opImm kind rd rs1 imm)) mode=
      ⟨rs1,rs2Field (encode (.opImm kind rd rs1 imm)),imm.signExtend 64,
        {execDefaults with aluSrc2Sel := true, aluOp := aluOfImm kind},memDefaults,⟨true,rd,0⟩,
        sysDefaults⟩ := by
  obtain ⟨hop,hrd,hf3,hrs1,himm,hf7⟩ := iType_fields rs1 rd kind.code imm .opImm
  rw [encode,decoder,decodeDefaults,hop,hrd,hf3,hrs1,himm,hf7,Opcode.ofBits_bits]
  cases kind <;> rfl

/-- Decoded shift by an immediate. -/
theorem decode_shiftImm (kind : ShiftOp) (shamt : BitVec 6) :
    decoder (encode (.shiftImm kind rd rs1 shamt)) mode=
      ⟨rs1,rs2Field (encode (.shiftImm kind rd rs1 shamt)),(kind.codes.1++shamt).signExtend 64,
        {execDefaults with aluSrc2Sel := true, aluOp := aluOfShift kind},memDefaults,⟨true,rd,0⟩,
        sysDefaults⟩ := by
  obtain ⟨hop,hrd,hf3,hrs1,himm,hf7⟩ :=
    iType_fields rs1 rd kind.codes.2 (kind.codes.1++shamt) .opImm
  have hbit : ((kind.codes.1++shamt : BitVec 12).extractLsb' 5 7).getLsbD 5=kind.codes.1.getLsbD 4 := by
    rw [BitVec.getLsbD_extractLsb',BitVec.getLsbD_append]
    rfl
  rw [encode,decoder,decodeDefaults,hop,hrd,hf3,hrs1,himm,hf7,Opcode.ofBits_bits]
  unfold opImmAlu
  rw [hbit]
  cases kind <;> rfl

/-- Decoded word addition of an immediate. -/
theorem decode_addiw (imm : BitVec 12) :
    decoder (encode (.addiw rd rs1 imm)) mode=
      ⟨rs1,rs2Field (encode (.addiw rd rs1 imm)),imm.signExtend 64,
        {execDefaults with isWordOp := true, aluSrc2Sel := true},memDefaults,⟨true,rd,0⟩,
        sysDefaults⟩ := by
  obtain ⟨hop,hrd,hf3,hrs1,himm,hf7⟩ := iType_fields rs1 rd 0b000 imm .opImm32
  rw [encode,decoder,decodeDefaults,hop,hrd,hf3,hrs1,himm,hf7,Opcode.ofBits_bits]
  rfl

/-- Decoded word shift by an immediate. -/
theorem decode_shiftImm32 (kind : ShiftOp) (shamt : BitVec 5) :
    decoder (encode (.shiftImm32 kind rd rs1 shamt)) mode=
      ⟨rs1,rs2Field (encode (.shiftImm32 kind rd rs1 shamt)),
        (kind.codes.1++0#1++shamt).signExtend 64,
        {execDefaults with isWordOp := true, aluSrc2Sel := true, aluOp := aluOfShift kind},
        memDefaults,⟨true,rd,0⟩,sysDefaults⟩ := by
  obtain ⟨hop,hrd,hf3,hrs1,himm,hf7⟩ :=
    iType_fields rs1 rd kind.codes.2 (kind.codes.1++0#1++shamt) .opImm32
  have hbit : ((kind.codes.1++0#1++shamt : BitVec 12).extractLsb' 5 7).getLsbD 5=
      kind.codes.1.getLsbD 4 := by
    rw [BitVec.getLsbD_extractLsb',BitVec.getLsbD_append]
    cases kind <;> rfl
  rw [encode,decoder,decodeDefaults,hop,hrd,hf3,hrs1,himm,hf7,Opcode.ofBits_bits]
  unfold opImm32Alu
  rw [hbit]
  cases kind <;> rfl

/-- Decoded upper immediate; it adds to x0. -/
theorem decode_lui (imm : BitVec 20) :
    decoder (encode (.lui rd imm)) mode=
      ⟨0,rs2Field (encode (.lui rd imm)),(imm++0#12).signExtend 64,
        {execDefaults with aluSrc2Sel := true},memDefaults,⟨true,rd,0⟩,sysDefaults⟩ := by
  obtain ⟨hop,hrd,himm,-⟩ := uType_fields rd imm .lui
  rw [encode,decoder,decodeDefaults,hop,hrd,himm,Opcode.ofBits_bits]
  rfl

/-- Decoded PC-relative upper immediate. -/
theorem decode_auipc (imm : BitVec 20) :
    decoder (encode (.auipc rd imm)) mode=
      ⟨rs1Field (encode (.auipc rd imm)),rs2Field (encode (.auipc rd imm)),
        (imm++0#12).signExtend 64,{execDefaults with aluSrc1Sel := true, aluSrc2Sel := true},
        memDefaults,⟨true,rd,0⟩,sysDefaults⟩ := by
  obtain ⟨hop,hrd,himm,-⟩ := uType_fields rd imm .auipc
  rw [encode,decoder,decodeDefaults,hop,hrd,himm,Opcode.ofBits_bits]
  rfl

/-- Decoded jump. -/
theorem decode_jal (offset : BitVec 20) :
    decoder (encode (.jal rd offset)) mode=
      ⟨rs1Field (encode (.jal rd offset)),rs2Field (encode (.jal rd offset)),jumpOffset offset,
        {execDefaults with isJump := true, aluSrc1Sel := true, aluSrc2Sel := true},memDefaults,
        ⟨true,rd,0b10⟩,sysDefaults⟩ := by
  have himm := immJ_encode rd offset
  rw [encode] at himm
  obtain ⟨hop,hrd,-,-⟩ := uType_fields rd (offset.extractLsb' 19 1++offset.extractLsb' 0 10++
    offset.extractLsb' 10 1++offset.extractLsb' 11 8) .jal
  rw [encode,decoder,decodeDefaults,hop,hrd,himm,Opcode.ofBits_bits]
  rfl

/-- Decoded indirect jump. -/
theorem decode_jalr (imm : BitVec 12) :
    decoder (encode (.jalr rd rs1 imm)) mode=
      ⟨rs1,rs2Field (encode (.jalr rd rs1 imm)),imm.signExtend 64,
        {execDefaults with isJump := true, aluSrc2Sel := true},memDefaults,⟨true,rd,0b10⟩,
        sysDefaults⟩ := by
  obtain ⟨hop,hrd,-,hrs1,himm,-⟩ := iType_fields rs1 rd 0b000 imm .jalr
  rw [encode,decoder,decodeDefaults,hop,hrd,hrs1,himm,Opcode.ofBits_bits]
  rfl

/-- Decoded branch. -/
theorem decode_branch (cond : Cond) (offset : BitVec 12) :
    decoder (encode (.branch cond rs1 rs2 offset)) mode=
      ⟨rs1,rs2,branchOffset offset,
        {execDefaults with
          isBranch := true, aluSrc1Sel := true, aluSrc2Sel := true, branchOp := cond.code},
        memDefaults,⟨false,rdField (encode (.branch cond rs1 rs2 offset)),0⟩,sysDefaults⟩ := by
  have himm := immB_encode cond rs1 rs2 offset
  rw [encode] at himm
  obtain ⟨hop,-,hf3,hrs1,hrs2,-⟩ := rType_fields
    (offset.extractLsb' 11 1++offset.extractLsb' 4 6) rs1 rs2
    (offset.extractLsb' 0 4++offset.extractLsb' 10 1) cond.code .branch
  rw [encode,decoder,decodeDefaults,hop,hf3,hrs1,hrs2,himm,Opcode.ofBits_bits]
  rfl

/-- Decoded load. -/
theorem decode_load (width : LoadOp) (imm : BitVec 12) :
    decoder (encode (.load width rd rs1 imm)) mode=
      ⟨rs1,rs2Field (encode (.load width rd rs1 imm)),imm.signExtend 64,
        {execDefaults with aluSrc2Sel := true},⟨true,false,width.code⟩,⟨true,rd,0b01⟩,
        sysDefaults⟩ := by
  obtain ⟨hop,hrd,hf3,hrs1,himm,-⟩ := iType_fields rs1 rd width.code imm .load
  rw [encode,decoder,decodeDefaults,hop,hrd,hf3,hrs1,himm,Opcode.ofBits_bits]
  rfl

/-- Decoded store. -/
theorem decode_store (width : StoreOp) (imm : BitVec 12) :
    decoder (encode (.store width rs1 rs2 imm)) mode=
      ⟨rs1,rs2,imm.signExtend 64,{execDefaults with aluSrc2Sel := true},⟨false,true,width.code⟩,
        ⟨false,rdField (encode (.store width rs1 rs2 imm)),0⟩,sysDefaults⟩ := by
  have himm := immS_encode width rs1 rs2 imm
  rw [encode] at himm
  obtain ⟨hop,-,hf3,hrs1,hrs2,-⟩ := rType_fields (imm.extractLsb' 5 7) rs1 rs2
    (imm.extractLsb' 0 5) width.code .store
  rw [encode,decoder,decodeDefaults,hop,hf3,hrs1,hrs2,himm,Opcode.ofBits_bits]
  rfl

end Decode

section Stages

variable {word : BitVec 32} {mode : PrivMode} {pc : Word} {regs : RegFile} {memory : ByteMemory}
  {csrData : Word} {rs1 rs2 rd : RegAddr} {imm : Word} {exec : ExecCtrl} {write : Bool}
  {sel : BitVec 2}

/-- Without a memory access the stages write the selected result and follow
the execute stage. -/
theorem stageOutcome_execute
    (hdec : decoder word mode.bits=⟨rs1,rs2,imm,exec,memDefaults,⟨write,rd,sel⟩,sysDefaults⟩)
    (hsel : sel=0b00 ∨ sel=0b10) :
    stageOutcome word mode pc regs memory csrData=
      let ex := exStage exec pc (readReg regs rs1) (readReg regs rs2) imm
      ⟨if write then some (rd,if sel=0b00 then ex.aluResult else pc+4) else none,
        if ex.branchTaken then ex.branchTarget else pc+4,memory⟩ := by
  unfold stageOutcome idOf exMemOf exOf
  rw [hdec]
  -- the control bits are literals, so every gate of the later stages evaluates
  rcases hsel with rfl|rfl <;> cases write <;> rfl

/-- A computation writes the ALU result and falls through. -/
theorem stageOutcome_compute
    (hdec : decoder word mode.bits=⟨rs1,rs2,imm,exec,memDefaults,⟨true,rd,0b00⟩,sysDefaults⟩)
    (hjump : exec.isJump=false) (hbranch : exec.isBranch=false) {value : Word}
    (hvalue : (exStage exec pc (readReg regs rs1) (readReg regs rs2) imm).aluResult=value) :
    stageOutcome word mode pc regs memory csrData=⟨some (rd,value),pc+4,memory⟩ := by
  rw [stageOutcome_execute hdec (Or.inl rfl)]
  have htaken : (exStage exec pc (readReg regs rs1) (readReg regs rs2) imm).branchTaken=false := by
    simp [exStage,hjump,hbranch]
  simp [htaken,hvalue]

/-- An access computes its address in the ALU and falls through. -/
theorem exMemOf_access (pc : Word) (regs : RegFile) {mem : MemCtrl} {wb : WbCtrl}
    (hdec : decoder word mode.bits=
      ⟨rs1,rs2,imm,{execDefaults with aluSrc2Sel := true},mem,wb,sysDefaults⟩) :
    exMemOf (idOf word mode pc regs)=
      ⟨readReg regs rs1+imm,false,(readReg regs rs1+imm)&&&~~~1#64,readReg regs rs1,
        readReg regs rs2,rs1,pc,imm,word,mem,wb,sysDefaults⟩ := by
  unfold exMemOf exOf idOf
  rw [hdec]
  rfl

/-- An aligned load writes the extended bytes. -/
theorem stageOutcome_load (width : LoadOp)
    (hdec : decoder word mode.bits=⟨rs1,rs2,imm,{execDefaults with aluSrc2Sel := true},
      ⟨true,false,width.code⟩,⟨true,rd,0b01⟩,sysDefaults⟩)
    (h : (readReg regs rs1+imm).toNat%width.bytes=0) :
    stageOutcome word mode pc regs memory csrData=
      ⟨some (rd,width.eval memory (readReg regs rs1+imm)),pc+4,memory⟩ := by
  have hfault : addrMisaligned width.code (readReg regs rs1+imm)=false := load_aligned width h
  have hdata := loadDataAligned_code memory (readReg regs rs1+imm) width h
  unfold stageOutcome
  rw [exMemOf_access pc regs hdec]
  simp [byteDevice,dmemRequest,memStage,wbStage,wbData,wbCsrIllegal,csrIllegalAccess,csrReq,
    hasTrap,sysDefaults,loadAddrMisaligned,storeAddrMisaligned,hfault,hdata]

/-- An aligned store writes the bytes of its width and no register. -/
theorem stageOutcome_store (width : StoreOp)
    (hdec : decoder word mode.bits=⟨rs1,rs2,imm,{execDefaults with aluSrc2Sel := true},
      ⟨false,true,width.code⟩,⟨false,rd,0b00⟩,sysDefaults⟩)
    (h : (readReg regs rs1+imm).toNat%width.bytes=0) :
    stageOutcome word mode pc regs memory csrData=
      ⟨none,pc+4,storeValue memory (readReg regs rs1+imm) width.bytes (readReg regs rs2)⟩ := by
  have hfault : addrMisaligned width.code (readReg regs rs1+imm)=false := store_aligned width h
  have hex := exMemOf_access pc regs hdec
  have hreq : (dmemRequest (exMemOf (idOf word mode pc regs))).writeEn=true := by
    rw [hex]
    simp [dmemRequest,storeAddrMisaligned,hfault]
  have hstored := strobeWrite_code width (exMemOf (idOf word mode pc regs)) memory
    (by rw [hex]) (by rw [hex]) (by rw [hex]; exact h)
  unfold stageOutcome
  dsimp only
  rw [hreq,if_pos rfl,hstored,hex]
  rfl

end Stages

/-- The instruction transfers control. -/
def transfers (i : Instr) (regs : RegFile) : Bool :=
  match i with
  | .jal _ _ | .jalr _ _ _ => true
  | .branch cond rs1 rs2 _ => cond.holds (reg regs rs1) (reg regs rs2)
  | _ => false

/-- The reference result with bit 0 of a transfer target cleared. -/
def clearedOutcome (i : Instr) (pc : Word) (regs : RegFile) (memory : ByteMemory) : Outcome :=
  let out := isaOutcome i pc regs memory
  { out with nextPc := if transfers i regs then out.nextPc&&&~~~1#64 else out.nextPc }

/-- Every instruction has the reference result, its transfer target with bit
0 cleared. -/
theorem stageOutcome_eq (i : Instr) (mode : PrivMode) (pc : Word) (regs : RegFile)
    (memory : ByteMemory) (csrData : Word) (h : Aligned i regs) :
    stageOutcome (encode i) mode pc regs memory csrData=clearedOutcome i pc regs memory := by
  cases i with
  | lui rd imm => exact stageOutcome_compute (decode_lui _ _ _) rfl rfl (BitVec.zero_add _)
  | auipc rd imm => exact stageOutcome_compute (decode_auipc _ _ _) rfl rfl rfl
  | jal rd offset => exact stageOutcome_execute (decode_jal _ _ _) (Or.inr rfl)
  | jalr rd rs1 imm =>
    rw [stageOutcome_execute (decode_jalr _ _ _ _) (Or.inr rfl)]
    change Outcome.mk _ ((reg regs rs1+imm.signExtend 64)&&&~~~1#64) _=
      Outcome.mk _ ((reg regs rs1+imm.signExtend 64)&&&~~~1#64&&&~~~1#64) _
    rw [BitVec.and_assoc,BitVec.and_self]
    rfl
  | branch cond rs1 rs2 offset =>
    rw [stageOutcome_execute (decode_branch _ _ _ _ _) (Or.inl rfl)]
    change Outcome.mk none (if branchUnit true cond.code (reg regs rs1) (reg regs rs2) then
      (pc+branchOffset offset)&&&~~~1#64 else pc+4) memory=_
    rw [branchUnit_code]
    by_cases htaken : cond.holds (reg regs rs1) (reg regs rs2)=true <;>
      simp [clearedOutcome,isaOutcome,transfers,htaken]
  | load width rd rs1 imm => exact stageOutcome_load width (decode_load _ _ _ _ _) h
  | store width rs1 rs2 imm => exact stageOutcome_store width (decode_store _ _ _ _ _) h
  | op kind rd rs1 rs2 =>
    exact stageOutcome_compute (decode_op _ _ _ _ _) rfl rfl (alu_reg kind _ _)
  | opImm kind rd rs1 imm =>
    exact stageOutcome_compute (decode_opImm _ _ _ _ _) rfl rfl (alu_imm kind _ _)
  | shiftImm kind rd rs1 shamt =>
    exact stageOutcome_compute (decode_shiftImm _ _ _ _ _) rfl rfl (alu_shiftImm kind _ _ _)
  | op32 kind rd rs1 rs2 =>
    exact stageOutcome_compute (decode_op32 _ _ _ _ _) rfl rfl (alu_word kind _ rfl rfl _ _)
  | addiw rd rs1 imm =>
    exact stageOutcome_compute (decode_addiw _ _ _ _) rfl rfl (alu_addiw _ _)
  | shiftImm32 kind rd rs1 shamt =>
    exact stageOutcome_compute (decode_shiftImm32 _ _ _ _ _) rfl rfl
      (alu_shiftImm32 kind _ rfl rfl _ _ _)

/-- Even addresses keep their value when bit 0 is cleared. -/
theorem clear_even (x : Word) (h : x.toNat%2=0) : x&&&~~~1#64=x := by
  apply BitVec.eq_of_getLsbD_eq
  intro j hj
  rw [BitVec.getLsbD_and,BitVec.getLsbD_not,BitVec.getLsbD_one]
  by_cases hzero : j=0
  · subst hzero
    have hbit : x.getLsbD 0=false := by
      rw [BitVec.getLsbD,Nat.testBit_zero,h]
      rfl
    rw [hbit,Bool.false_and]
  · simp [hj,hzero]

/-- A relative target at an even distance from an even address is even. -/
theorem relative_even {w : ℕ} (hw : w+1≤64) (pc : Word) (offset : BitVec w) (h : pc.toNat%2=0) :
    (pc+(offset++0#1).signExtend 64).toNat%2=0 := by
  have hoffset : ((offset++0#1).signExtend 64).toNat%2^1=0 := by
    rw [signExtend_toNat_mod (by omega) (by decide),append_toNat_mod]
    rfl
  rw [BitVec.toNat_add]
  omega

/-- At an even address clearing bit 0 changes no target. -/
theorem clearedOutcome_even (i : Instr) (pc : Word) (regs : RegFile) (memory : ByteMemory)
    (h : pc.toNat%2=0) : clearedOutcome i pc regs memory=isaOutcome i pc regs memory := by
  cases i with
  | jal rd offset =>
    exact congrArg (fun x => Outcome.mk _ x _) (clear_even _ (relative_even (by decide) pc offset h))
  | jalr rd rs1 imm =>
    change Outcome.mk _ (_&&&~~~1#64&&&~~~1#64) _=_
    rw [BitVec.and_assoc,BitVec.and_self]
    rfl
  | branch cond rs1 rs2 offset =>
    have htarget := clear_even _ (relative_even (by decide) pc offset h)
    by_cases htaken : cond.holds (reg regs rs1) (reg regs rs2)=true
    · simp only [clearedOutcome,isaOutcome,transfers,htaken,if_true]
      exact congrArg (fun x => Outcome.mk _ x _) htarget
    · simp [clearedOutcome,isaOutcome,transfers,htaken]
  | _ => rfl

/-- Single-instruction correctness: every encoded base instruction whose
access is aligned has its reference result on every program counter, register
file and memory, where bit 0 of a transfer target is cleared; at an even
address that is the reference result itself. -/
theorem instruction_correct (i : Instr) (mode : PrivMode) (pc : Word) (regs : RegFile)
    (memory : ByteMemory) (csrData : Word) (h : Aligned i regs) :
    stageOutcome (encode i) mode pc regs memory csrData=clearedOutcome i pc regs memory ∧
    (pc.toNat%2=0 →
      stageOutcome (encode i) mode pc regs memory csrData=isaOutcome i pc regs memory) := by
  have hstage := stageOutcome_eq i mode pc regs memory csrData h
  refine ⟨hstage,?_⟩
  intro hpc
  rw [hstage,clearedOutcome_even i pc regs memory hpc]

/-- A halfword store into the upper lanes: two bytes of x2 at address 6. -/
theorem instruction_correct_store :
    Aligned (.store .sh 1 2 (-2)) (fun a => if a=1 then 8 else 0x1234) ∧
    (stageOutcome (encode (.store .sh 1 2 (-2))) .m 0x80000000
      (fun a => if a=1 then 8 else 0x1234) (fun _ => 0xff) 0).memory 7=0x12 := by
  have haligned : Aligned (.store .sh 1 2 (-2)) (fun a => if a=1 then 8 else 0x1234) := by
    decide
  refine ⟨haligned,?_⟩
  rw [(instruction_correct (.store .sh 1 2 (-2)) .m 0x80000000
    (fun a => if a=1 then 8 else 0x1234) (fun _ => 0xff) 0 haligned).2 (by decide)]
  decide

/-- At an odd address the jump target loses its low bit: from address 1 with
distance 8 the stages continue at 8, the table at 9. -/
theorem jal_odd_address :
    Aligned (.jal 0 4) (fun _ => 0) ∧
    stageOutcome (encode (.jal 0 4)) .m 1 (fun _ => 0) (fun _ => 0) 0≠
      isaOutcome (.jal 0 4) 1 (fun _ => 0) (fun _ => 0) := by
  have hstage : (stageOutcome (encode (.jal 0 4)) .m 1 (fun _ => 0) (fun _ => 0) 0).nextPc=8 := by
    decide
  have htable : (isaOutcome (.jal 0 4) 1 (fun _ => 0) (fun _ => 0)).nextPc=9 := by decide
  refine ⟨trivial,?_⟩
  intro heq
  rw [heq,htable] at hstage
  exact absurd hstage (by decide)

end RichardCore.IsaCorrectness
