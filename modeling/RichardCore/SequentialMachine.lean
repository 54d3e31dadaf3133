import RichardCore.Harness

/-!
# One instruction at a time

The sequential machine made of the core's own stage functions: fetch,
decode, register read, execute, memory and writeback of one instruction,
completely, before the next. The second half lists what the decoder promises
about the signals that the stages act on, and which operands an instruction
uses.
-/

namespace RichardCore.SequentialMachine

open Packages Decoder Execute DataMemory CsrUnit TrapCtrl Hazard Pipeline Clocked Harness

/-- Register read without a concurrent write. -/
def readReg (regs : RegFile) (a : RegAddr) : Word := if a=0 then 0 else regs a

/-- Reading after a write: the written value at its register, the old one
elsewhere. -/
theorem readReg_write (regs : RegFile) (w : WbOut) (a : RegAddr) :
    readReg (regfileWrite regs w) a=
      if w.regWriteEn=true ∧ w.rdAddr≠0 ∧ w.rdAddr=a then w.rdWdata else readReg regs a := by
  unfold readReg regfileWrite
  by_cases ha : a=0
  · subst ha
    have hno : ¬(w.regWriteEn=true ∧ w.rdAddr≠0 ∧ w.rdAddr=0) := fun h => h.2.1 h.2.2
    rw [if_pos rfl,if_neg hno,if_pos rfl]
  · by_cases hen : w.regWriteEn=true ∧ w.rdAddr≠0
    · rw [if_neg ha,if_pos hen,if_neg ha]
      by_cases hrd : a=w.rdAddr
      · rw [if_pos hrd,if_pos ⟨hen.1,hen.2,hrd.symm⟩]
      · rw [if_neg hrd,if_neg fun h => hrd h.2.2.symm]
    · rw [if_neg ha,if_neg hen,if_neg ha,if_neg fun h => hen ⟨h.1,h.2.1⟩]

/-- The bypassed read is the read after the write. -/
theorem regfileRead_eq (regs : RegFile) (a : RegAddr) (w : WbOut) :
    regfileRead regs a w=readReg (regfileWrite regs w) a := by
  rw [readReg_write]
  unfold regfileRead readReg
  by_cases ha : a=0
  · subst ha
    have hno : ¬(w.regWriteEn=true ∧ w.rdAddr≠0 ∧ w.rdAddr=0) := fun h => h.2.1 h.2.2
    rw [if_pos rfl,if_neg hno,if_pos rfl]
  · rw [if_neg ha,if_neg ha]
    by_cases hrd : a=w.rdAddr ∧ w.regWriteEn=true
    · rw [if_pos hrd,if_pos ⟨hrd.2,hrd.1 ▸ ha,hrd.1.symm⟩]
    · rw [if_neg hrd,if_neg fun h => hrd ⟨h.2.2.symm,h.1⟩]

/-- Operand fetch of one instruction. -/
def idOf (word : BitVec 32) (mode : PrivMode) (pc : Word) (regs : RegFile) : IdEx :=
  let d := decoder word mode.bits
  ⟨word,pc,readReg regs d.rs1Addr,readReg regs d.rs2Addr,d⟩

/-- Execute stage of one instruction. -/
def exOf (r : IdEx) : ExOut := exStage r.ctrl.exec r.pc r.rs1Rdata r.rs2Rdata r.ctrl.imm

/-- Record of one instruction as it enters the memory stage. -/
def exMemOf (r : IdEx) : ExMem := exMemNext r r.rs1Rdata r.rs2Rdata (exOf r)

/-- Writeback stage of one instruction. -/
def wbOf (w : MemWb) (csr : CsrState) : WbOut :=
  wbStage w (csrRdata csr (csrAddr w)) (wbCsrIllegal w)

/-- CSR file inputs of one instruction that takes no trap. -/
def csrInOf (w : MemWb) : CsrIn where
  rst := false
  csrReq := csrReq w
  csrOp := w.csrOp
  csrAddr := csrAddr w
  csrRs1Data := csrRs1Data w
  trapTrigger := false
  trapToSMode := false
  trapMepc := 0
  trapMcause := 0
  trapMtval := 0
  mretEn := false
  sretEn := false

/-- State of the sequential machine. -/
structure SeqState (M : Type) where
  /-- Program counter. -/
  pc : Word
  /-- Register file. -/
  regs : RegFile
  /-- Data memory. -/
  memory : M
  /-- CSR file. -/
  csr : CsrState

section Machine

variable {M : Type} (imem : Word → BitVec 32) (dev : DataDevice M)

/-- Decoded instruction with its operands. -/
def seqId (c : SeqState M) : IdEx := idOf (imem c.pc) c.csr.privMode c.pc c.regs

/-- Executed instruction. -/
def seqEx (c : SeqState M) : ExMem := exMemOf (seqId imem c)

/-- Data-memory request. -/
def seqReq (c : SeqState M) : DmemReq := dmemRequest (seqEx imem c)

/-- Instruction after its memory access. -/
def seqMem (c : SeqState M) : MemWb :=
  memStage (seqEx imem c) (dev.read c.memory (seqReq imem c))

/-- Writeback of the instruction. -/
def seqWb (c : SeqState M) : WbOut := wbOf (seqMem imem dev c) c.csr

/-- Address of the next instruction. -/
def seqNextPc (c : SeqState M) : Word :=
  if (exOf (seqId imem c)).branchTaken then (exOf (seqId imem c)).branchTarget else c.pc+4

/-- One instruction. -/
def seqStep (c : SeqState M) : SeqState M where
  pc := seqNextPc imem c
  regs := regfileWrite c.regs (seqWb imem dev c)
  memory := dev.edge c.memory (seqReq imem c)
  csr := csrStep c.csr (csrInOf (seqMem imem dev c))

/-- State before instruction `n`, from the reset address with cleared
registers. -/
def seqRun (memory : M) : ℕ → SeqState M
  | 0 => ⟨resetPc,fun _ => 0,memory,csrReset⟩
  | n+1 => seqStep imem dev (seqRun memory n)

/-- Without traps the machine stays in machine mode. -/
theorem seqRun_privMode (memory : M) (n : ℕ) :
    (seqRun imem dev memory n).csr.privMode=.m := by
  induction n with
  | zero => rfl
  | succ n ih =>
    change (writePhase _ _).privMode=_
    rw [writePhase_privMode,ih]

end Machine

/-- Source fields an instruction reads as register rs1. -/
def usesRs1 (word : BitVec 32) : Bool :=
  match Opcode.ofBits (opcodeField word) with
  | some .jalr | some .branch | some .load | some .store | some .opImm | some .op | some .opImm32
  | some .op32 => true
  | some .system => funct3 word != 0 && !(funct3 word).getLsbD 2
  | _ => false

/-- Source fields an instruction reads as register rs2. -/
def usesRs2 (word : BitVec 32) : Bool :=
  match Opcode.ofBits (opcodeField word) with
  | some .branch | some .store | some .op | some .op32 => true
  | _ => false

/-- Where a register result comes from: the CSR file, the ALU, a load or a
jump's link address. -/
theorem decoder_wbSel (word : BitVec 32) (mode : BitVec 2) :
    (decoder word mode).sys.isCsr=true ∨ (decoder word mode).wb.wbSel=0b00 ∨
    ((decoder word mode).wb.wbSel=0b01 ∧ (decoder word mode).mem.isLoad=true) ∨
    ((decoder word mode).wb.wbSel=0b10 ∧ (decoder word mode).exec.isJump=true) := by
  unfold decoder
  dsimp only
  split <;> (try split) <;> (try split) <;> simp [decodeDefaults]

/-- Privileged instructions are no CSR accesses. -/
theorem decodePrivileged_isCsr (word : BitVec 32) (mode : BitVec 2) :
    (decodePrivileged word mode).isCsr=false := by
  unfold decodePrivileged
  split <;> (try split) <;> (try split) <;> rfl

/-- A CSR instruction accesses no memory, transfers no control, and uses its
register source in the register forms only. -/
theorem decoder_csr (word : BitVec 32) (mode : BitVec 2) (h : (decoder word mode).sys.isCsr=true) :
    (decoder word mode).mem=memDefaults ∧ (decoder word mode).exec=execDefaults ∧
    (usesRs1 word=!(decoder word mode).sys.csrOp.getLsbD 2) := by
  revert h
  unfold decoder usesRs1
  cases Opcode.ofBits (opcodeField word) with
  | none => simp [decodeDefaults,sysDefaults]
  | some code =>
    cases code with
    | system =>
      dsimp only
      split
      · simp [decodePrivileged_isCsr]
      · rename_i hf3
        split
        · have hne : (funct3 word != 0)=true := bne_iff_ne.mpr hf3
          simp only [decodeDefaults,hne,Bool.true_and]
          simp
        · simp [sysDefaults]
    | _ =>
      dsimp only
      repeat' split
      all_goals simp [decodeDefaults,sysDefaults]

/-- Outside the SYSTEM opcode the only system action is the illegal flag. -/
theorem decoder_nonSystem (word : BitVec 32) (mode : BitVec 2)
    (h : opcodeField word≠Opcode.system.bits) :
    (decoder word mode).sys.isCsr=false ∧ (decoder word mode).sys.isEcall=false ∧
    (decoder word mode).sys.isEbreak=false ∧ (decoder word mode).sys.isMret=false ∧
    (decoder word mode).sys.isSret=false := by
  unfold decoder
  cases hop : Opcode.ofBits (opcodeField word) with
  | none => simp [sysDefaults]
  | some code =>
    cases code with
    | system => exact absurd (Opcode.bits_of_ofBits hop).symm h
    | _ =>
      dsimp only
      repeat' split
      all_goals simp [decodeDefaults,sysDefaults]

/-- A load or store is legal and uses its base register. -/
theorem decoder_access (word : BitVec 32) (mode : BitVec 2)
    (h : (decoder word mode).mem.isLoad=true ∨ (decoder word mode).mem.isStore=true) :
    (decoder word mode).sys=sysDefaults ∧ usesRs1 word=true ∧
    (decoder word mode).exec={execDefaults with aluSrc2Sel := true} ∧
    ((decoder word mode).mem.isStore=true → usesRs2 word=true) := by
  revert h
  unfold decoder usesRs1 usesRs2
  cases Opcode.ofBits (opcodeField word) with
  | none => simp [decodeDefaults,memDefaults]
  | some code =>
    cases code with
    | _ =>
      dsimp only
      repeat' split
      all_goals simp [decodeDefaults,memDefaults]

/-- The execute stage selects used operands only (LUI reads x0), except for
instructions whose result nobody reads. -/
theorem decoder_operands (word : BitVec 32) (mode : BitVec 2)
    (h : (decoder word mode).sys.illegalInstr=false) :
    (((decoder word mode).exec.aluSrc1Sel=false ∨ (decoder word mode).exec.isBranch=true →
        usesRs1 word=true ∨ (decoder word mode).rs1Addr=0) ∧
      ((decoder word mode).exec.aluSrc2Sel=false ∨ (decoder word mode).exec.isBranch=true →
        usesRs2 word=true)) ∨
    ((decoder word mode).exec=execDefaults ∧ (decoder word mode).mem=memDefaults ∧
      ((decoder word mode).sys.isCsr=true ∨ (decoder word mode).wb.regWriteEn=false)) := by
  revert h
  unfold decoder usesRs1 usesRs2
  cases hop : Opcode.ofBits (opcodeField word) with
  | none => simp
  | some code =>
    cases code with
    | lui =>
      have hlui : opcodeField word=Opcode.lui.bits := (Opcode.bits_of_ofBits hop).symm
      simp [decodeDefaults,hlui,execDefaults]
    | _ =>
      dsimp only
      repeat' split
      all_goals simp [decodeDefaults,execDefaults]

/-- Equal selected operands give equal execute-stage outputs. -/
theorem exStage_congr (ctrl : ExecCtrl) (pc imm : Word) {a b a' b' : Word}
    (ha : ctrl.aluSrc1Sel=false ∨ ctrl.isBranch=true → a=a')
    (hb : ctrl.aluSrc2Sel=false ∨ ctrl.isBranch=true → b=b') :
    exStage ctrl pc a b imm=exStage ctrl pc a' b' imm := by
  have hraw : aluRawResult ctrl pc a b imm=aluRawResult ctrl pc a' b' imm := by
    unfold aluRawResult
    cases hsel1 : ctrl.aluSrc1Sel <;> cases hsel2 : ctrl.aluSrc2Sel <;>
      simp_all
  have hbranch : (ctrl.isBranch && branchUnit ctrl.isBranch ctrl.branchOp a b)=
      (ctrl.isBranch && branchUnit ctrl.isBranch ctrl.branchOp a' b') := by
    cases hisBranch : ctrl.isBranch with
    | false => rfl
    | true => rw [ha (.inr hisBranch),hb (.inr hisBranch)]
  unfold exStage
  rw [hraw,hbranch]

/-- Execute-stage outputs that later stages act on. -/
def ExAgrees (d : Decoded) (x y : ExOut) : Prop :=
  x.branchTaken=y.branchTaken ∧ (y.branchTaken=true → x.branchTarget=y.branchTarget) ∧
  (d.sys.isCsr=false → d.wb.regWriteEn=true ∨ d.mem.isLoad=true ∨ d.mem.isStore=true →
    x.aluResult=y.aluResult)

/-- The execute stage acts on the used operands only. -/
theorem exStage_agrees (word : BitVec 32) (mode : BitVec 2) (pc : Word) {a b a' b' : Word}
    (hlegal : (decoder word mode).sys.illegalInstr=false)
    (ha : usesRs1 word=true ∨ (decoder word mode).rs1Addr=0 → a=a')
    (hb : usesRs2 word=true → b=b') :
    ExAgrees (decoder word mode)
      (exStage (decoder word mode).exec pc a b (decoder word mode).imm)
      (exStage (decoder word mode).exec pc a' b' (decoder word mode).imm) := by
  obtain ⟨hrs1,hrs2⟩ | ⟨hexec,hmem,hquiet⟩ := decoder_operands word mode hlegal
  · rw [exStage_congr _ pc _ (fun h => ha (hrs1 h)) fun h => hb (hrs2 h)]
    exact ⟨rfl,fun _ => rfl,fun _ _ => rfl⟩
  · have htaken : ∀ x y,(exStage execDefaults pc x y (decoder word mode).imm).branchTaken=false := by
      simp [exStage,execDefaults]
    rw [hexec]
    refine ⟨(htaken a b).trans (htaken a' b').symm,?_,?_⟩
    · intro h
      rw [htaken] at h
      cases h
    · intro hcsr hmatters
      rw [hmem] at hmatters
      have hwrites : (decoder word mode).wb.regWriteEn=true := by simpa [memDefaults] using hmatters
      obtain h | h := hquiet
      · rw [hcsr] at h
        cases h
      · rw [hwrites] at h
        cases h

end RichardCore.SequentialMachine
