import RichardCore.Simulation

/-!
# One instruction at a time, with traps

The sequential machine completed by the trap controller: an instruction that
raises an exception or returns from a trap leaves its effects on the CSR file
and hands over to the handler or to the saved address before the next
instruction is fetched. The interrupt lines are low. The second half lets
records that agree stand for each other here too: they raise the same traps
and change the CSR file alike, up to the counters.
-/

namespace RichardCore.TrapMachine

open Packages Decoder Execute DataMemory CsrUnit TrapCtrl Hazard Pipeline Clocked Tracking
open ProgramOrder Effects Harness SequentialMachine Agreement Simulation

/-- Trap controller on one instruction. -/
def trapOf (w : MemWb) (csr : CsrState) : TrapOut :=
  trapCtrl w.pc (wbOf w csr) PageFaults.none .low csr

/-- CSR file inputs of one instruction with its trap or return. -/
def csrInTrap (w : MemWb) (csr : CsrState) : CsrIn :=
  let t := trapOf w csr
  {csrInOf w with
    trapTrigger := t.trapTrigger
    trapToSMode := t.trapToSMode
    trapMepc := t.trapMepc
    trapMcause := t.trapMcause
    trapMtval := t.trapMtval
    mretEn := t.mretEn
    sretEn := t.sretEn}

section Machine

variable {M : Type} (imem : Word → BitVec 32) (dev : DataDevice M)

/-- Trap controller outputs of the instruction. -/
def trapSeq (c : SeqState M) : TrapOut := trapOf (seqMem imem dev c) c.csr

/-- One instruction and its trap or return. -/
def trapStep (c : SeqState M) : SeqState M where
  pc := if (trapSeq imem dev c).trapFlushReq then (trapSeq imem dev c).trapNextPc
    else seqNextPc imem c
  regs := regfileWrite c.regs (seqWb imem dev c)
  memory := dev.edge c.memory (seqReq imem c)
  csr := csrStep c.csr (csrInTrap (seqMem imem dev c) c.csr)

/-- State before instruction `n`, from the reset address with cleared
registers. -/
def trapRun (memory : M) : ℕ → SeqState M
  | 0 => ⟨resetPc,fun _ => 0,memory,csrReset⟩
  | n+1 => trapStep imem dev (trapRun memory n)

end Machine

/-- The core's trap controller is at work on the record in WB. -/
theorem trapWires_low (s : CoreState) : trapWires s .low=trapOf s.memWb s.csr := rfl

/-- A core that holds nothing but a record in WB. -/
def alone (w : MemWb) (csr : CsrState) : CoreState := {coreReset with memWb := w, csr := csr}

/-- A flush is an exception or a return. -/
theorem trapOf_flush (w : MemWb) (csr : CsrState) :
    (trapOf w csr).trapFlushReq=(hasTrap w || wbCsrIllegal w || w.isMret || w.isSret) := by
  have h := flushWire_eq (alone w csr) .low
  rw [hasInterrupt_low,hasSyncException_eq,Bool.false_or] at h
  exact h

/-- An instruction that does not flush raises nothing and is no return. -/
theorem trapOf_quiet {w : MemWb} {csr : CsrState} (h : (trapOf w csr).trapFlushReq=false) :
    hasTrap w=false ∧ wbCsrIllegal w=false ∧ w.isMret=false ∧ w.isSret=false := by
  rw [trapOf_flush] at h
  simp only [Bool.or_eq_false_iff] at h
  exact ⟨h.1.1.1,h.1.1.2,h.1.2,h.2⟩

/-- Without a flush the CSR file sees no trap and no return. -/
theorem csrInTrap_quiet {w : MemWb} {csr : CsrState} (h : (trapOf w csr).trapFlushReq=false) :
    csrInTrap w csr=csrInOf w := by
  obtain ⟨htrap,hillegal,hmret,hsret⟩ := trapOf_quiet h
  have hquiet : hasSyncException (alone w csr)=false := by
    rw [hasSyncException_eq]
    exact Bool.or_eq_false_iff.mpr ⟨htrap,hillegal⟩
  have hout := trapWires_quiet hquiet
  rw [trapWires_low] at hout
  change trapOf w csr=⟨false,0,0,0,false,w.isMret,w.isSret,_,_,_⟩ at hout
  unfold csrInTrap
  rw [hout,hmret,hsret]
  rfl

/-- Records in WB agree on what the trap controller acts on, too. -/
structure AgreesTrap (w w' : MemWb) : Prop extends AgreesWb w w' where
  /-- Instruction word. -/
  instr : w.instr=w'.instr
  /-- Illegal flag. -/
  illegalInstr : w.illegalInstr=w'.illegalInstr
  /-- Environment call. -/
  isEcall : w.isEcall=w'.isEcall
  /-- Breakpoint. -/
  isEbreak : w.isEbreak=w'.isEbreak
  /-- Load fault. -/
  loadFault : w.loadFault=w'.loadFault
  /-- Store fault. -/
  storeFault : w.storeFault=w'.storeFault
  /-- Faulting address. -/
  faultAddr : w.faultAddr=w'.faultAddr

/-- The memory stage hands agreement on to the trap controller. -/
theorem agreesMem_trap {e e' : ExMem} (h : AgreesMem e e') (hinstr : e.instr=e'.instr)
    (hlegal : AccessLegal e') {rdata rdata' : Word}
    (hdata : e'.mem.isLoad=true → rdata=rdata') :
    AgreesTrap (memStage e rdata) (memStage e' rdata') := by
  have hload : loadAddrMisaligned e=loadAddrMisaligned e' := by
    unfold loadAddrMisaligned
    rw [h.mem]
    cases hisLoad : e'.mem.isLoad with
    | false => rfl
    | true => rw [h.result (hlegal.1 (.inl hisLoad)) (.inr (.inl hisLoad))]
  have hstore : storeAddrMisaligned e=storeAddrMisaligned e' := by
    unfold storeAddrMisaligned
    rw [h.mem]
    cases hisStore : e'.mem.isStore with
    | false => rfl
    | true => rw [h.result (hlegal.1 (.inr hisStore)) (.inr (.inr hisStore))]
  have hfault : (memStage e rdata).faultAddr=(memStage e' rdata').faultAddr := by
    simp only [memStage,hload,hstore]
    split
    · rename_i hmisaligned
      have haccess : e'.mem.isLoad=true ∨ e'.mem.isStore=true := by
        simp only [loadAddrMisaligned,storeAddrMisaligned,Bool.or_eq_true,Bool.and_eq_true]
          at hmisaligned
        exact hmisaligned.imp And.left And.left
      exact h.result (hlegal.1 haccess) (.inr haccess)
    · rfl
  exact ⟨h.memStage hlegal hdata,hinstr,congrArg (fun c => c.illegalInstr) h.sys,
    congrArg (fun c => c.isEcall) h.sys,congrArg (fun c => c.isEbreak) h.sys,hload,hstore,hfault⟩

/-- What the trap controller sees of the writeback stage. -/
def trapView (w : WbOut) : WbOut := {w with rdWdata := 0, rdAddr := 0, regWriteEn := false}

/-- The trap controller does not look at the register write. -/
theorem trapCtrl_view (wbPc : Word) (w : WbOut) (faults : PageFaults) (irq : IrqLines)
    (csr : CsrState) : trapCtrl wbPc w faults irq csr=trapCtrl wbPc (trapView w) faults irq csr :=
  rfl

/-- Trap entries of CSR files that differ in the counters differ in the
counters. -/
theorem enterTrap_erase {s s' n n' : CsrState} (hs : eraseCounters s=eraseCounters s')
    (hn : eraseCounters n=eraseCounters n') {i i' : CsrIn} (htoS : i.trapToSMode=i'.trapToSMode)
    (hmepc : i.trapMepc=i'.trapMepc) (hcause : i.trapMcause=i'.trapMcause)
    (hval : i.trapMtval=i'.trapMtval) :
    eraseCounters (enterTrap s n i)=eraseCounters (enterTrap s' n' i') := by
  rw [eq_of_eraseCounters hs,eq_of_eraseCounters hn]
  unfold enterTrap
  rw [htoS,hmepc,hcause,hval]
  cases i'.trapToSMode <;> rfl

/-- So do returns. -/
theorem returnPhase_erase {s s' n n' : CsrState} (hs : eraseCounters s=eraseCounters s')
    (hn : eraseCounters n=eraseCounters n') {i i' : CsrIn} (hmret : i.mretEn=i'.mretEn)
    (hsret : i.sretEn=i'.sretEn) :
    eraseCounters (returnPhase s n i)=eraseCounters (returnPhase s' n' i') := by
  rw [eq_of_eraseCounters hs,eq_of_eraseCounters hn]
  unfold returnPhase
  rw [hmret,hsret]
  cases i'.mretEn <;> cases i'.sretEn <;> rfl

section Agreeing

variable {w w' : MemWb} (h : AgreesTrap w w') {csr csr' : CsrState}
  (hcsr : eraseCounters csr=eraseCounters csr')

include h hcsr

/-- Agreeing records raise the same traps and returns. -/
theorem AgreesTrap.trapOf_eq : trapOf w csr=trapOf w' csr' := by
  have hview : trapView (wbOf w csr)=trapView (wbOf w' csr') := by
    simp only [trapView,wbOf,wbStage,h.illegalInstr,h.csrIllegal,h.isEcall,h.isEbreak,h.isMret,
      h.isSret,h.loadFault,h.storeFault,h.faultAddr,h.instr]
  unfold trapOf
  rw [trapCtrl_view,hview,h.pc,eq_of_eraseCounters hcsr,trapCtrl_view _ (wbOf w' csr')]
  rfl

/-- Agreeing records change the CSR file alike, up to the counters, with
their traps and returns. -/
theorem AgreesTrap.csrStep_erase :
    eraseCounters (csrStep csr (csrInTrap w csr))=
      eraseCounters (csrStep csr' (csrInTrap w' csr')) := by
  have htrap := h.trapOf_eq hcsr
  have hwrite : eraseCounters (writePhase csr (csrInTrap w csr))=
      eraseCounters (writePhase csr' (csrInTrap w' csr')) :=
    calc
      eraseCounters (writePhase csr (csrInTrap w csr))
          =eraseCounters (writePhase csr (csrInOf w)) :=
        writePhase_erase rfl rfl fun _ => ⟨rfl,rfl,rfl⟩
      _=eraseCounters (writePhase csr' (csrInOf w')) := h.csrWrite hcsr
      _=eraseCounters (writePhase csr' (csrInTrap w' csr')) :=
        writePhase_erase rfl rfl fun _ => ⟨rfl,rfl,rfl⟩
  have htrigger : (csrInTrap w csr).trapTrigger=(csrInTrap w' csr').trapTrigger :=
    congrArg (fun t => t.trapTrigger) htrap
  unfold csrStep
  rw [htrigger]
  change eraseCounters (if (csrInTrap w' csr').trapTrigger then _ else _)=
    eraseCounters (if (csrInTrap w' csr').trapTrigger then _ else _)
  split
  · exact enterTrap_erase hcsr hwrite (congrArg (fun t => t.trapToSMode) htrap)
      (congrArg (fun t => t.trapMepc) htrap) (congrArg (fun t => t.trapMcause) htrap)
      (congrArg (fun t => t.trapMtval) htrap)
  · exact returnPhase_erase hcsr hwrite (congrArg (fun t => t.mretEn) htrap)
      (congrArg (fun t => t.sretEn) htrap)

end Agreeing

/-- An inert record raises nothing. -/
theorem trapOf_inert {w : MemWb} (h : InertWb w) (csr : CsrState) :
    (trapOf w csr).trapFlushReq=false :=
  inert_flush (s := alone w csr) h

/-- An illegal word transfers no control and accesses no memory; it reads the
operands of its format or has no result. -/
theorem decoder_illegal (word : BitVec 32) (mode : BitVec 2)
    (h : (decoder word mode).sys.illegalInstr=true) :
    (decoder word mode).mem=memDefaults ∧ (decoder word mode).exec.isJump=false ∧
    (decoder word mode).exec.isBranch=false ∧
    (((decoder word mode).exec.aluSrc1Sel=false → usesRs1 word=true) ∧
      ((decoder word mode).exec.aluSrc2Sel=false → usesRs2 word=true) ∨
      (decoder word mode).wb.regWriteEn=false) := by
  revert h
  unfold decoder usesRs1 usesRs2
  cases Opcode.ofBits (opcodeField word) with
  | none => simp [decodeDefaults,execDefaults]
  | some code =>
    cases code with
    | _ =>
      dsimp only
      repeat' split
      all_goals simp [decodeDefaults,execDefaults,sysDefaults]

/-- The execute stage acts on the used operands only, also on illegal
words. -/
theorem exStage_agrees_any (word : BitVec 32) (mode : BitVec 2) (pc : Word) {a b a' b' : Word}
    (ha : usesRs1 word=true ∨ (decoder word mode).rs1Addr=0 → a=a')
    (hb : usesRs2 word=true → b=b') :
    ExAgrees (decoder word mode)
      (exStage (decoder word mode).exec pc a b (decoder word mode).imm)
      (exStage (decoder word mode).exec pc a' b' (decoder word mode).imm) := by
  cases hill : (decoder word mode).sys.illegalInstr with
  | false => exact exStage_agrees word mode pc hill ha hb
  | true =>
    obtain ⟨hmem,hjump,hbranch,hreads⟩ := decoder_illegal word mode hill
    have hnot : ∀ x y,(exStage (decoder word mode).exec pc x y
        (decoder word mode).imm).branchTaken=false := by
      intro x y
      simp only [exStage,hjump,hbranch]
      rfl
    refine ⟨(hnot a b).trans (hnot a' b').symm,fun htaken => ?_,fun _ hmatters => ?_⟩
    · rw [hnot] at htaken
      cases htaken
    · obtain ⟨hrs1,hrs2⟩ | hquiet := hreads
      · rw [exStage_congr _ pc _ (fun h => ha (.inl ?_)) fun h => hb ?_]
        · exact h.elim hrs1 fun hb => absurd (hbranch.symm.trans hb) (by decide)
        · exact h.elim hrs2 fun hb => absurd (hbranch.symm.trans hb) (by decide)
      · rw [hmem,hquiet] at hmatters
        simp [memDefaults] at hmatters

/-- Decoder outputs without an effect on registers, memory and CSRs. -/
structure Harmless (d : Decoded) : Prop where
  /-- No memory access. -/
  mem : QuietMem d.mem
  /-- No register write. -/
  wb : QuietWrite d.wb
  /-- No system action. -/
  sys : QuietSys d.sys

section Programs

variable {M : Type} (p : Setup M)

/-- State before instruction `n`. -/
def stateAt (n : ℕ) : SeqState M := trapRun p.imem p.dev p.memory n

/-- Instruction `n` as decoded. -/
def decodedAt (n : ℕ) : IdEx := seqId p.imem (stateAt p n)

/-- Instruction `n` as executed. -/
def executedAt (n : ℕ) : ExMem := seqEx p.imem (stateAt p n)

/-- Instruction `n` after its memory access. -/
def completedAt (n : ℕ) : MemWb := seqMem p.imem p.dev (stateAt p n)

/-- Address behind instruction `n`, traps and returns aside. -/
def nextAt (n : ℕ) : Word := seqNextPc p.imem (stateAt p n)

/-- Instruction `n` raises an exception or returns from a trap. -/
def flushesAt (n : ℕ) : Bool := (trapOf (completedAt p n) (stateAt p n).csr).trapFlushReq

/-- The next state. -/
theorem stateAt_succ (n : ℕ) : stateAt p (n+1)=trapStep p.imem p.dev (stateAt p n) := rfl

/-- Registers behind an instruction. -/
theorem stateAt_regs (n : ℕ) : (stateAt p (n+1)).regs=
    regfileWrite (stateAt p n).regs (wbOf (completedAt p n) (stateAt p n).csr) := rfl

/-- The handler or the saved address follows a flush. -/
theorem stateAt_pc (n : ℕ) : (stateAt p (n+1)).pc=
    if flushesAt p n then (trapOf (completedAt p n) (stateAt p n).csr).trapNextPc
    else nextAt p n := rfl

/-- Without a flush the mode stays. -/
theorem stateAt_privMode {n : ℕ} (h : flushesAt p n=false) :
    (stateAt p (n+1)).csr.privMode=(stateAt p n).csr.privMode := by
  change (csrStep (stateAt p n).csr (csrInTrap (completedAt p n) (stateAt p n).csr)).privMode=_
  rw [csrInTrap_quiet h,csrStep_writePhase _ rfl rfl rfl rfl,writePhase_privMode]

/-- An instruction that flushes is no control transfer. -/
theorem flushesAt_notTaken {n : ℕ} (h : flushesAt p n=true) :
    (exOf (decodedAt p n)).branchTaken=false := by
  refine Bool.eq_false_of_not_eq_true fun htaken => ?_
  have htransfer : (decodedAt p n).ctrl.exec.isJump=true ∨
      (decodedAt p n).ctrl.exec.isBranch=true := by
    simp only [exOf,exStage,Bool.or_eq_true,Bool.and_eq_true] at htaken
    exact htaken.imp_right And.left
  obtain ⟨-,hmem,hsys⟩ := decoder_transfer _ _ htransfer
  have hwb : (completedAt p n).isCsr=false ∧ hasTrap (completedAt p n)=false ∧
      (completedAt p n).isMret=false ∧ (completedAt p n).isSret=false := by
    have hmem' : (executedAt p n).mem=memDefaults := hmem
    have hsys' : (executedAt p n).sys=sysDefaults := hsys
    change (memStage (executedAt p n) _).isCsr=false ∧ hasTrap (memStage (executedAt p n) _)=false ∧
      (memStage (executedAt p n) _).isMret=false ∧ (memStage (executedAt p n) _).isSret=false
    simp only [hasTrap,memStage,loadAddrMisaligned,storeAddrMisaligned,hmem',hsys']
    exact ⟨rfl,rfl,rfl,rfl⟩
  unfold flushesAt at h
  rw [trapOf_flush] at h
  simp only [wbCsrIllegal,csrReq,csrIllegalAccess,hwb.1,hwb.2.1,hwb.2.2.1,hwb.2.2.2] at h
  cases h

/-- So the address behind it is the next one. -/
theorem nextAt_flush {n : ℕ} (h : flushesAt p n=true) : nextAt p n=(stateAt p n).pc+4 := by
  have hnot := flushesAt_notTaken p h
  change (if (exOf (decodedAt p n)).branchTaken then _ else _)=_
  rw [hnot]
  rfl

/-- Instruction `n` reads no counter into a register. -/
def CounterUnread (n : ℕ) : Prop :=
  (completedAt p n).isCsr=true → isCounter (csrAddr (completedAt p n))=true →
    (completedAt p n).wb.rdAddr=0

/-- Instruction `n+1` does not use the register that instruction `n` reads
from a CSR. -/
def ResultUnused (n : ℕ) : Prop :=
  (completedAt p n).isCsr=true → (completedAt p n).wb.rdAddr≠0 →
    ¬(usesRs1 (decodedAt p (n+1)).instr=true ∧
        (decodedAt p (n+1)).ctrl.rs1Addr=(completedAt p n).wb.rdAddr) ∧
    ¬(usesRs2 (decodedAt p (n+1)).instr=true ∧
        (decodedAt p (n+1)).ctrl.rs2Addr=(completedAt p n).wb.rdAddr)

/-- Behind instruction `n` come two words that would have no effect. -/
def Guarded (n : ℕ) : Prop :=
  Harmless (decoder (p.imem ((stateAt p n).pc+4)) (stateAt p n).csr.privMode.bits) ∧
  Harmless (decoder (p.imem ((stateAt p n).pc+4+4)) (stateAt p n).csr.privMode.bits)

/-- A program that the pipeline runs like the machine, traps included. -/
structure TrapRegular : Prop where
  /-- No counter reads. -/
  counterUnread : ∀ n,CounterUnread p n
  /-- No use of a CSR result by the next instruction. -/
  resultUnused : ∀ n,flushesAt p n=false → ResultUnused p n
  /-- Two words without effect behind each exception and return. -/
  guarded : ∀ n,flushesAt p n=true → Guarded p n

end Programs

end RichardCore.TrapMachine
