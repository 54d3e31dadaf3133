import RichardCore.TrapCtrl
import RichardCore.Hazard

/-!
# Core top level

The register file, the four pipeline registers and the wiring of the five
stages. Every wire is a function of the registered state and of the
interrupt lines; one clock edge replaces all registers at once. The data
cache handshake is a parameter of the edge, tied high in the shipped core.
-/

namespace RichardCore.Pipeline

open Packages Decoder Execute DataMemory CsrUnit TrapCtrl Hazard

/-- Register file storage. -/
abbrev RegFile : Type := RegAddr → Word

/-- Read port with x0 hardwired and internal bypass of the current write. -/
def regfileRead (regs : RegFile) (rsAddr : RegAddr) (w : WbOut) : Word :=
  if rsAddr=0 then 0
  else if rsAddr=w.rdAddr ∧ w.regWriteEn=true then w.rdWdata
  else regs rsAddr

/-- Write port; writes to x0 are dropped. -/
def regfileWrite (regs : RegFile) (w : WbOut) : RegFile :=
  if w.regWriteEn=true ∧ w.rdAddr≠0 then fun a => if a=w.rdAddr then w.rdWdata else regs a
  else regs

/-- IF/ID register. -/
structure IfId where
  /-- Fetch address. -/
  pc : Word
  /-- Fetched word. -/
  instr : BitVec 32
  deriving DecidableEq, Repr

/-- ID/EX register. -/
structure IdEx where
  /-- Instruction word. -/
  instr : BitVec 32
  /-- Instruction address. -/
  pc : Word
  /-- First operand as read in ID. -/
  rs1Rdata : Word
  /-- Second operand as read in ID. -/
  rs2Rdata : Word
  /-- Decoder outputs. -/
  ctrl : Decoded
  deriving DecidableEq, Repr

/-- One pipeline register at a clock edge: reset, then flush, then stall. -/
def pipeReg {α : Type} (rst flushEn stallEn : Bool) (reset flushed current next : α) : α :=
  if rst then reset
  else if flushEn then flushed
  else if stallEn then current
  else next

/-- The ADDI x0,x0,0 word a flush writes into IF/ID. -/
def nopInstr : BitVec 32 := 0x00000013

/-- Reset and flush contents of IF/ID. -/
def ifIdNop : IfId := ⟨0,nopInstr⟩

/-- Reset contents of ID/EX. -/
def idExReset : IdEx := ⟨0,0,0,0,⟨0,0,0,execDefaults,memDefaults,⟨false,0,0⟩,sysDefaults⟩⟩

/-- Flush of ID/EX: the word and all control is cleared; the address, the
operands, the source fields and the immediate stay stale. -/
def idExFlush (r : IdEx) : IdEx :=
  {r with
    instr := 0
    ctrl := {r.ctrl with
      exec := execDefaults
      mem := memDefaults
      wb := ⟨false,0,0⟩
      sys := sysDefaults}}

/-- Reset contents of EX/MEM. -/
def exMemReset : ExMem := ⟨0,false,0,0,0,0,0,0,0,memDefaults,⟨false,0,0⟩,sysDefaults⟩

/-- Flush of EX/MEM; the core never requests it. -/
def exMemFlush (r : ExMem) : ExMem :=
  {r with
    instr := 0
    branchTaken := false
    mem := memDefaults
    wb := ⟨false,0,0⟩
    sys := sysDefaults}

/-- Reset contents of MEM/WB. -/
def memWbReset : MemWb :=
  ⟨0,0,0,0,⟨false,0,0⟩,false,0,0,0,0,false,false,false,false,false,false,false,0⟩

/-- Flush of MEM/WB: only the enables and exception flags are cleared; the
address, the word, the destination and the data stay stale. -/
def memWbFlush (r : MemWb) : MemWb :=
  {r with
    wb := {r.wb with regWriteEn := false}
    isCsr := false
    illegalInstr := false
    isEcall := false
    isEbreak := false
    isMret := false
    isSret := false
    loadFault := false
    storeFault := false
    faultAddr := 0}

/-- Registered state of the core. -/
structure CoreState where
  /-- Fetch program counter. -/
  pc : Word
  /-- Register file. -/
  regs : RegFile
  /-- IF/ID register. -/
  ifId : IfId
  /-- ID/EX register. -/
  idEx : IdEx
  /-- EX/MEM register. -/
  exMem : ExMem
  /-- MEM/WB register. -/
  memWb : MemWb
  /-- CSR file. -/
  csr : CsrState

/-- Inputs sampled in one cycle. -/
structure Inputs where
  /-- Synchronous reset. -/
  rst : Bool
  /-- Instruction memory read data. -/
  imemRdata : BitVec 32
  /-- Data memory read data. -/
  dmemRdata : Word
  /-- Interrupt lines. -/
  irq : IrqLines
  deriving DecidableEq, Repr

/-- First fetch address. -/
def resetPc : Word := 0x80000000

/-- State after a clock edge with reset asserted. -/
def coreReset : CoreState :=
  ⟨resetPc,fun _ => 0,ifIdNop,idExReset,exMemReset,memWbReset,csrReset⟩

/-- Writeback stage wires. -/
def wbWires (s : CoreState) : WbOut :=
  wbStage s.memWb (csrRdata s.csr (csrAddr s.memWb)) (wbCsrIllegal s.memWb)

/-- Trap controller wires. -/
def trapWires (s : CoreState) (irq : IrqLines) : TrapOut :=
  trapCtrl s.memWb.pc (wbWires s) PageFaults.none irq s.csr

/-- Decoder wires. -/
def idWires (s : CoreState) : Decoded := decoder s.ifId.instr s.csr.privMode.bits

/-- Forwarding multiplexer of one execute-stage operand. -/
def forwardMux (s : CoreState) (rsAddr : RegAddr) (rdata : Word) : Word :=
  match forwardSel s.exMem.wb.regWriteEn s.exMem.wb.rdAddr (wbWires s).regWriteEn
      s.memWb.wb.rdAddr rsAddr with
  | .mem => s.exMem.aluResult
  | .wb => (wbWires s).rdWdata
  | .regfile => rdata

/-- First operand delivered to the execute stage. -/
def exRs1RdataFwd (s : CoreState) : Word := forwardMux s s.idEx.ctrl.rs1Addr s.idEx.rs1Rdata

/-- Second operand delivered to the execute stage. -/
def exRs2RdataFwd (s : CoreState) : Word := forwardMux s s.idEx.ctrl.rs2Addr s.idEx.rs2Rdata

/-- Execute stage wires. -/
def exWires (s : CoreState) : ExOut :=
  exStage s.idEx.ctrl.exec s.idEx.pc (exRs1RdataFwd s) (exRs2RdataFwd s) s.idEx.ctrl.imm

/-- Load-use hazard between EX and ID. -/
def loadUseWire (s : CoreState) : Bool :=
  loadUseStall s.idEx.ctrl.mem.isLoad s.idEx.ctrl.wb.rdAddr (idWires s).rs1Addr (idWires s).rs2Addr

/-- Pipeline control wires. -/
def controlWires (hs : Handshake) (s : CoreState) (irq : IrqLines) : Controls :=
  hazardControls (trapWires s irq).trapFlushReq (memStallReq hs s.exMem) (loadUseWire s)
    (exWires s).branchTaken

/-- PC redirect wires. -/
def redirectWires (s : CoreState) (irq : IrqLines) : Redirect :=
  pcRedirect (trapWires s irq).trapPcSel (trapWires s irq).trapNextPc
    (exWires s).branchTaken (exWires s).branchTarget

/-- CSR file inputs. -/
def csrWires (s : CoreState) (i : Inputs) : CsrIn :=
  let t := trapWires s i.irq
  { rst := i.rst
    csrReq := csrReq s.memWb
    csrOp := s.memWb.csrOp
    csrAddr := csrAddr s.memWb
    csrRs1Data := csrRs1Data s.memWb
    trapTrigger := t.trapTrigger
    trapToSMode := t.trapToSMode
    trapMepc := t.trapMepc
    trapMcause := t.trapMcause
    trapMtval := t.trapMtval
    mretEn := t.mretEn
    sretEn := t.sretEn }

/-- Next PC: reset, trap redirect, stall, branch redirect, sequential. -/
def ifStage (pc : Word) (rst stallEn : Bool) (redirect : Redirect) : Word :=
  if rst then resetPc
  else if redirect.sel && redirect.isTrap then redirect.target
  else if stallEn then pc
  else if redirect.sel then redirect.target
  else pc+4

/-- ID/EX input: the decoded instruction with its operands. -/
def idExNext (s : CoreState) : IdEx where
  instr := s.ifId.instr
  pc := s.ifId.pc
  rs1Rdata := regfileRead s.regs (idWires s).rs1Addr (wbWires s)
  rs2Rdata := regfileRead s.regs (idWires s).rs2Addr (wbWires s)
  ctrl := idWires s

/-- EX/MEM input of an executed instruction with its final operands. -/
def exMemNext (r : IdEx) (rs1Rdata rs2Rdata : Word) (ex : ExOut) : ExMem where
  aluResult := ex.aluResult
  branchTaken := ex.branchTaken
  branchTarget := ex.branchTarget
  rs1Rdata := rs1Rdata
  rs2Rdata := rs2Rdata
  rs1Addr := r.ctrl.rs1Addr
  pc := r.pc
  imm := r.ctrl.imm
  instr := r.instr
  mem := r.ctrl.mem
  wb := r.ctrl.wb
  sys := r.ctrl.sys

/-- One clock edge under a given cache handshake. The flush input of EX/MEM
and the stall input of MEM/WB are tied low. -/
def coreStepWith (hs : Handshake) (s : CoreState) (i : Inputs) : CoreState :=
  let c := controlWires hs s i.irq
  { pc := ifStage s.pc i.rst c.ifStallEn (redirectWires s i.irq)
    regs := if i.rst then fun _ => 0 else regfileWrite s.regs (wbWires s)
    ifId := pipeReg i.rst c.ifIdFlushEn c.ifIdStallEn ifIdNop ifIdNop s.ifId ⟨s.pc,i.imemRdata⟩
    idEx := pipeReg i.rst c.idExFlushEn c.idExStallEn idExReset (idExFlush s.idEx) s.idEx
      (idExNext s)
    exMem := pipeReg i.rst false c.exMemStallEn exMemReset (exMemFlush s.exMem) s.exMem
      (exMemNext s.idEx (exRs1RdataFwd s) (exRs2RdataFwd s) (exWires s))
    memWb := pipeReg i.rst (trapWires s i.irq).trapFlushReq false memWbReset (memWbFlush s.memWb)
      s.memWb (memStage s.exMem i.dmemRdata)
    csr := csrStep s.csr (csrWires s i) }

/-- One clock edge of the shipped core, whose handshake is tied high. -/
def coreStep (s : CoreState) (i : Inputs) : CoreState := coreStepWith ⟨true,true⟩ s i

/-- Reset brings every register to its reset value, from any state. -/
theorem coreStep_reset (s : CoreState) (i : Inputs) (h : i.rst=true) : coreStep s i=coreReset := by
  simp [coreStep,coreStepWith,ifStage,pipeReg,csrStep,csrWires,coreReset,h]

/-- The multiplexer takes the result in MEM, else the one in WB, else the
register read. -/
theorem forwardMux_eq (s : CoreState) (rsAddr : RegAddr) (rdata : Word) :
    forwardMux s rsAddr rdata=
      if s.exMem.wb.regWriteEn=true ∧ s.exMem.wb.rdAddr≠0 ∧ s.exMem.wb.rdAddr=rsAddr then
        s.exMem.aluResult
      else if (wbWires s).regWriteEn=true ∧ s.memWb.wb.rdAddr≠0 ∧ s.memWb.wb.rdAddr=rsAddr then
        (wbWires s).rdWdata
      else rdata := by
  unfold forwardMux forwardSel
  by_cases hmem : s.exMem.wb.regWriteEn=true ∧ s.exMem.wb.rdAddr≠0 ∧ s.exMem.wb.rdAddr=rsAddr
  · rw [if_pos hmem,if_pos hmem]
  · rw [if_neg hmem,if_neg hmem]
    by_cases hwb : (wbWires s).regWriteEn=true ∧ s.memWb.wb.rdAddr≠0 ∧ s.memWb.wb.rdAddr=rsAddr
    · rw [if_pos hwb,if_pos hwb]
    · rw [if_neg hwb,if_neg hwb]

/-- Flush request of the trap controller. -/
def flushWire (s : CoreState) (irq : IrqLines) : Bool := (trapWires s irq).trapFlushReq

/-- Taken branch or jump in the execute stage. -/
def takenWire (s : CoreState) : Bool := (exWires s).branchTaken

/-- Only a jump or a branch is taken. -/
theorem takenWire_transfer {s : CoreState} (h : takenWire s=true) :
    s.idEx.ctrl.exec.isJump=true ∨ s.idEx.ctrl.exec.isBranch=true := by
  change (s.idEx.ctrl.exec.isJump || (s.idEx.ctrl.exec.isBranch && _))=true at h
  rw [Bool.or_eq_true,Bool.and_eq_true] at h
  exact h.imp id And.left

/-- A synchronous exception of the committing instruction. -/
def hasSyncException (s : CoreState) : Bool :=
  (syncException s.memWb.pc (wbWires s) PageFaults.none s.csr.privMode.bits).isSome

/-- An interrupt taken this cycle. -/
def hasInterrupt (s : CoreState) (irq : IrqLines) : Bool :=
  (interruptCause (s.csr.mstatus.getLsbD mstatusMieBit) irq).isSome

/-- With all lines low no interrupt is taken. -/
theorem hasInterrupt_low (s : CoreState) : hasInterrupt s IrqLines.low=false := by
  unfold hasInterrupt interruptCause
  cases s.csr.mstatus.getLsbD mstatusMieBit <;> rfl

/-- The exceptions the committing instruction can raise. -/
theorem hasSyncException_eq (s : CoreState) :
    hasSyncException s=(hasTrap s.memWb || wbCsrIllegal s.memWb) := by
  unfold hasSyncException
  rw [syncException_isSome]
  simp only [wbWires,wbStage,hasTrap]
  cases s.memWb.illegalInstr <;> cases wbCsrIllegal s.memWb <;> cases s.memWb.isEbreak <;>
    cases s.memWb.isEcall <;> cases s.memWb.loadFault <;> cases s.memWb.storeFault <;> rfl

/-- Trap controller outputs without interrupt and exception. -/
theorem trapWires_quiet {s : CoreState} (h : hasSyncException s=false) :
    trapWires s .low=
      ⟨false,0,0,0,false,s.memWb.isMret,s.memWb.isSret,s.memWb.isMret || s.memWb.isSret,
        s.memWb.isMret || s.memWb.isSret,
        if s.memWb.isMret then s.csr.mepc else if s.memWb.isSret then s.csr.sepc else 0⟩ := by
  have hnone : syncException s.memWb.pc (wbWires s) PageFaults.none s.csr.privMode.bits=none := by
    unfold hasSyncException at h
    rw [←Option.not_isSome_iff_eq_none,h]
    decide
  have hirq : interruptCause (s.csr.mstatus.getLsbD mstatusMieBit) .low=none := by
    unfold interruptCause
    cases s.csr.mstatus.getLsbD mstatusMieBit <;> rfl
  have hmret : (wbWires s).trapIsMret=s.memWb.isMret := rfl
  have hsret : (wbWires s).trapIsSret=s.memWb.isSret := rfl
  unfold trapWires trapCtrl
  rw [hnone,hirq]
  simp [hmret,hsret]

/-- A trap is an interrupt or a synchronous exception. -/
theorem trapTrigger_eq (s : CoreState) (irq : IrqLines) :
    (trapWires s irq).trapTrigger=(hasInterrupt s irq || hasSyncException s) := rfl

/-- A flush is a trap or a return. -/
theorem flushWire_parts (s : CoreState) (irq : IrqLines) :
    flushWire s irq=((trapWires s irq).trapTrigger || (trapWires s irq).mretEn ||
      (trapWires s irq).sretEn) := rfl

/-- Without a flush there is neither trap nor return. -/
theorem flushWire_false {s : CoreState} {irq : IrqLines} (h : flushWire s irq=false) :
    (trapWires s irq).trapTrigger=false ∧ (trapWires s irq).mretEn=false ∧
      (trapWires s irq).sretEn=false := by
  rw [flushWire_parts,Bool.or_eq_false_iff,Bool.or_eq_false_iff] at h
  exact ⟨h.1.1,h.1.2,h.2⟩

/-- The flush has exactly four causes. -/
theorem flushWire_eq (s : CoreState) (irq : IrqLines) :
    flushWire s irq=
      (hasInterrupt s irq || hasSyncException s || s.memWb.isMret || s.memWb.isSret) := by
  have hmret : (trapWires s irq).mretEn=
      (s.memWb.isMret && !(hasInterrupt s irq || hasSyncException s)) := rfl
  have hsret : (trapWires s irq).sretEn=
      (s.memWb.isSret && !(hasInterrupt s irq || hasSyncException s)) := rfl
  rw [flushWire_parts,trapTrigger_eq,hmret,hsret]
  cases hasInterrupt s irq <;> cases hasSyncException s <;> cases s.memWb.isMret <;>
    cases s.memWb.isSret <;> rfl

/-- With the handshake tied high the controls reduce to flush, taken branch
and load-use stall, in this priority. -/
theorem controlWires_tied (s : CoreState) (irq : IrqLines) :
    controlWires ⟨true,true⟩ s irq=
      { ifStallEn := !flushWire s irq && !takenWire s && loadUseWire s
        ifIdStallEn := !flushWire s irq && !takenWire s && loadUseWire s
        idExStallEn := false
        exMemStallEn := false
        ifIdFlushEn := flushWire s irq || takenWire s
        idExFlushEn := flushWire s irq || takenWire s || loadUseWire s } := by
  have hstall : memStallReq ⟨true,true⟩ s.exMem=false := by
    unfold memStallReq
    simp
  unfold controlWires
  rw [hstall,hazardControls_ready]
  rfl

section Edge

variable (s : CoreState) (i : Inputs) (hrst : i.rst=false)

include hrst

/-- The program counter after a clock edge. -/
theorem coreStep_pc : (coreStep s i).pc=
    if flushWire s i.irq then (trapWires s i.irq).trapNextPc
    else if takenWire s then (exWires s).branchTarget
    else if loadUseWire s then s.pc
    else s.pc+4 := by
  simp only [coreStep,coreStepWith,controlWires_tied]
  have hsel : (trapWires s i.irq).trapPcSel=flushWire s i.irq := rfl
  have htaken : (exWires s).branchTaken=takenWire s := rfl
  simp only [ifStage,redirectWires,pcRedirect,hrst,hsel,htaken]
  cases flushWire s i.irq <;> cases takenWire s <;> cases loadUseWire s <;> simp

/-- IF/ID after a clock edge. -/
theorem coreStep_ifId : (coreStep s i).ifId=
    if flushWire s i.irq || takenWire s then ifIdNop
    else if loadUseWire s then s.ifId
    else ⟨s.pc,i.imemRdata⟩ := by
  simp only [coreStep,coreStepWith,controlWires_tied,pipeReg,hrst]
  cases flushWire s i.irq <;> cases takenWire s <;> cases loadUseWire s <;> simp

/-- ID/EX after a clock edge. -/
theorem coreStep_idEx : (coreStep s i).idEx=
    if flushWire s i.irq || takenWire s || loadUseWire s then idExFlush s.idEx
    else idExNext s := by
  simp only [coreStep,coreStepWith,controlWires_tied,pipeReg,hrst]
  simp

/-- EX/MEM after a clock edge: it always takes the executed instruction. -/
theorem coreStep_exMem : (coreStep s i).exMem=
    exMemNext s.idEx (exRs1RdataFwd s) (exRs2RdataFwd s) (exWires s) := by
  simp only [coreStep,coreStepWith,controlWires_tied,pipeReg,hrst]
  simp

/-- MEM/WB after a clock edge. -/
theorem coreStep_memWb : (coreStep s i).memWb=
    if flushWire s i.irq then memWbFlush s.memWb else memStage s.exMem i.dmemRdata := by
  have hflush : (trapWires s i.irq).trapFlushReq=flushWire s i.irq := rfl
  simp only [coreStep,coreStepWith,pipeReg,hrst,hflush]
  simp

/-- The register file after a clock edge. -/
theorem coreStep_regs : (coreStep s i).regs=regfileWrite s.regs (wbWires s) := by
  simp only [coreStep,coreStepWith,hrst]
  simp

end Edge

/-- The CSR file after a clock edge. -/
theorem coreStep_csr (s : CoreState) (i : Inputs) :
    (coreStep s i).csr=csrStep s.csr (csrWires s i) := rfl

end RichardCore.Pipeline
