import RichardCore.CsrUnit
import RichardCore.DataMemory

/-!
# Writeback stage and trap controller

The writeback stage selects the register write and routes the CSR request;
the trap controller turns the exceptions of the committing instruction, the
returns and the interrupt lines into one flush, redirect and CSR update.
-/

namespace RichardCore.TrapCtrl

open Packages DataMemory CsrUnit

/-- An exception recorded before writeback. -/
def hasTrap (w : MemWb) : Bool :=
  w.illegalInstr || w.isEcall || w.isEbreak || w.loadFault || w.storeFault

/-- CSR request of the committing instruction. -/
def csrReq (w : MemWb) : Bool := w.isCsr && !hasTrap w

/-- CSR address of the committing instruction. -/
def csrAddr (w : MemWb) : BitVec 12 := w.imm.setWidth 12

/-- CSR source data: the register operand, or the zero-extended source field
of the immediate forms. -/
def csrRs1Data (w : MemWb) : Word :=
  if w.csrOp.getLsbD 2 then w.rs1Addr.setWidth 64 else w.rs1Rdata

/-- Rejection the CSR file returns for the committing instruction. -/
def wbCsrIllegal (w : MemWb) : Bool := csrIllegalAccess (csrReq w) w.csrOp (csrAddr w)

/-- Writeback stage outputs to the register file and the trap controller. -/
structure WbOut where
  /-- Register write data. -/
  rdWdata : Word
  /-- Destination register. -/
  rdAddr : RegAddr
  /-- Register write enable. -/
  regWriteEn : Bool
  /-- Illegal instruction or rejected CSR access. -/
  trapIllegalInstr : Bool
  /-- Environment call. -/
  trapIsEcall : Bool
  /-- Breakpoint. -/
  trapIsEbreak : Bool
  /-- Machine return. -/
  trapIsMret : Bool
  /-- Supervisor return. -/
  trapIsSret : Bool
  /-- Misaligned load. -/
  trapLoadFault : Bool
  /-- Misaligned store. -/
  trapStoreFault : Bool
  /-- Faulting address. -/
  trapBadAddr : Word
  /-- Faulting instruction word. -/
  trapBadInstr : BitVec 32
  deriving DecidableEq, Repr

/-- Register write data multiplexer; PC+4 is formed by the caller's adder. -/
def wbData (w : MemWb) (csrRdata : Word) : Word :=
  if w.isCsr then csrRdata
  else
    match w.wb.wbSel with
    | 0b00#2 => w.aluResult
    | 0b01#2 => w.memRdata
    | 0b10#2 => w.pc+4
    | _ => 0

/-- Writeback stage. A trapping instruction writes no register; interrupts
are not visible here. -/
def wbStage (w : MemWb) (csrRdata : Word) (csrIllegal : Bool) : WbOut where
  rdWdata := wbData w csrRdata
  rdAddr := w.wb.rdAddr
  regWriteEn := w.wb.regWriteEn && !(hasTrap w || csrIllegal)
  trapIllegalInstr := w.illegalInstr || csrIllegal
  trapIsEcall := w.isEcall
  trapIsEbreak := w.isEbreak
  trapIsMret := w.isMret
  trapIsSret := w.isSret
  trapLoadFault := w.loadFault
  trapStoreFault := w.storeFault
  trapBadAddr := w.faultAddr
  trapBadInstr := w.instr

/-- External interrupt lines. -/
structure IrqLines where
  /-- Machine timer line. -/
  timer : Bool
  /-- Machine software line. -/
  software : Bool
  /-- Machine external line. -/
  outer : Bool
  deriving DecidableEq, Repr

/-- All lines low. -/
def IrqLines.low : IrqLines := ⟨false,false,false⟩

/-- Page-fault inputs; the core ties them low. -/
structure PageFaults where
  /-- Instruction page fault. -/
  instr : Bool
  /-- Load page fault. -/
  load : Bool
  /-- Store page fault. -/
  store : Bool
  deriving DecidableEq, Repr

/-- The tied-off page-fault inputs. -/
def PageFaults.none : PageFaults := ⟨false,false,false⟩

/-- Synchronous cause and trap value, by priority, none without exception. -/
def syncException (wbPc : Word) (w : WbOut) (faults : PageFaults) (privMode : BitVec 2) :
    Option (Word × Word) :=
  if w.trapIllegalInstr then some (excInstIllegal,w.trapBadInstr.setWidth 64)
  else if w.trapIsEbreak then some (excBreakpoint,wbPc)
  else if w.trapIsEcall then
    some (if privMode=PrivMode.u.bits then excEcallFromU
      else if privMode=PrivMode.s.bits then excEcallFromS
      else excEcallFromM,0)
  else if w.trapLoadFault then some (excLoadFault,w.trapBadAddr)
  else if w.trapStoreFault then some (excStoreFault,w.trapBadAddr)
  else if faults.instr then some (excInstrPageFault,w.trapBadAddr)
  else if faults.load then some (excLoadPageFault,w.trapBadAddr)
  else if faults.store then some (excStorePageFault,w.trapBadAddr)
  else none

/-- With the page-fault inputs tied off, an exception is one of the five
writeback flags. -/
theorem syncException_isSome (wbPc : Word) (w : WbOut) (privMode : BitVec 2) :
    (syncException wbPc w PageFaults.none privMode).isSome=
      (w.trapIllegalInstr || w.trapIsEbreak || w.trapIsEcall || w.trapLoadFault ||
        w.trapStoreFault) := by
  unfold syncException PageFaults.none
  cases w.trapIllegalInstr <;> cases w.trapIsEbreak <;> cases w.trapIsEcall <;>
    cases w.trapLoadFault <;> cases w.trapStoreFault <;> rfl

/-- Interrupt cause by priority, none while masked or idle. -/
def interruptCause (mstatusMie : Bool) (irq : IrqLines) : Option Word :=
  if mstatusMie then
    if irq.outer then some (interruptBit|||interruptMExternal)
    else if irq.software then some (interruptBit|||interruptMSoftware)
    else if irq.timer then some (interruptBit|||interruptMTimer)
    else none
  else none

/-- Trap controller outputs. -/
structure TrapOut where
  /-- Save trap context. -/
  trapTrigger : Bool
  /-- Saved PC. -/
  trapMepc : Word
  /-- Saved cause. -/
  trapMcause : Word
  /-- Saved trap value. -/
  trapMtval : Word
  /-- Delegated to supervisor mode. -/
  trapToSMode : Bool
  /-- Machine return. -/
  mretEn : Bool
  /-- Supervisor return. -/
  sretEn : Bool
  /-- Global pipeline flush request. -/
  trapFlushReq : Bool
  /-- Take over the PC multiplexer. -/
  trapPcSel : Bool
  /-- Redirect target. -/
  trapNextPc : Word
  deriving DecidableEq, Repr

/-- Entry address of a trap vector; only interrupts use the vectored mode. -/
def trapEntry (vectorBase : Word) (isInterrupt : Bool) (causeIndex : BitVec 6) : Word :=
  let aligned := vectorBase.extractLsb' 2 62++0b00#2
  if vectorBase.extractLsb' 0 2=0b01 ∧ isInterrupt then aligned+(causeIndex.setWidth 64<<<2)
  else aligned

/-- Trap controller. An interrupt overrides a synchronous exception and any
return of the committing instruction. -/
def trapCtrl (wbPc : Word) (w : WbOut) (faults : PageFaults) (irq : IrqLines) (csr : CsrState) :
    TrapOut :=
  let sync := syncException wbPc w faults csr.privMode.bits
  let interrupt := interruptCause (csr.mstatus.getLsbD mstatusMieBit) irq
  let trigger := interrupt.isSome || sync.isSome
  let cause := interrupt.getD (sync.getD (0,0)).1
  let value := if interrupt.isSome then 0 else (sync.getD (0,0)).2
  let causeIndex := cause.setWidth 6
  let delegMask := if interrupt.isSome then csr.mideleg else csr.medeleg
  let toS := trigger && decide (csr.privMode.bits≠PrivMode.m.bits) &&
    delegMask.getLsbD causeIndex.toNat
  let mret := w.trapIsMret && !trigger
  let sret := w.trapIsSret && !trigger
  { trapTrigger := trigger
    trapMepc := if trigger then wbPc else 0
    trapMcause := if trigger then cause else 0
    trapMtval := if trigger then value else 0
    trapToSMode := toS
    mretEn := mret
    sretEn := sret
    trapFlushReq := trigger || mret || sret
    trapPcSel := trigger || mret || sret
    trapNextPc :=
      if trigger then trapEntry (if toS then csr.stvec else csr.mtvec) interrupt.isSome causeIndex
      else if mret then csr.mepc
      else if sret then csr.sepc
      else 0 }

end RichardCore.TrapCtrl
