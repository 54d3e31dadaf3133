import RichardCore.Harness
import RichardCore.Lifecycle

/-!
# Interrupts at the commit point

An interrupt saves the address in WB. When WB holds an instruction, that
instruction runs again after the return, so the question is whether it
already had an effect; when WB is empty, the question is whether the address
left in the slot is the next one in program order.
-/

namespace RichardCore.Interrupts

open Packages Decoder Execute DataMemory CsrUnit TrapCtrl Hazard Pipeline Clocked Tracking
open ProgramOrder Effects Harness Lifecycle

/-- The cycle takes an interrupt. -/
def TakesInterrupt (x : Tracked) (i : Inputs) : Prop :=
  i.rst=false ∧ hasInterrupt x.core i.irq=true

/-- PC saved by the trap of a cycle: sepc of a delegated trap, else mepc. -/
def savedPc (inputs : ℕ → Inputs) (t : ℕ) : Word :=
  if (trapWires (trackedRun inputs t).core (inputs t).irq).trapToSMode then
    (trackedRun inputs (t+1)).core.csr.sepc
  else (trackedRun inputs (t+1)).core.csr.mepc

/-- A trap edge enters the trap after the counters and the CSR write. -/
theorem coreStep_csr_trap (s : CoreState) (i : Inputs) (hrst : i.rst=false)
    (htrigger : (trapWires s i.irq).trapTrigger=true) :
    (coreStep s i).csr=enterTrap s.csr (writePhase s.csr (csrWires s i)) (csrWires s i) := by
  have hin : (csrWires s i).trapTrigger=true := htrigger
  have hrstIn : (csrWires s i).rst=false := hrst
  rw [coreStep_csr,csrStep_trap s.csr (csrWires s i) hrstIn hin]

/-- An interrupt saves the address held in WB. -/
theorem savedPc_eq (inputs : ℕ → Inputs) (t : ℕ)
    (h : TakesInterrupt (trackedRun inputs t) (inputs t)) :
    savedPc inputs t=(trackedRun inputs t).core.memWb.pc := by
  obtain ⟨hrst,hint⟩ := h
  unfold savedPc
  rw [trackedRun_succ]
  generalize trackedRun inputs t=x at hint ⊢
  have htrigger : (trapWires x.core (inputs t).irq).trapTrigger=true := by
    rw [trapTrigger_eq,hint]
    rfl
  have hmepc : (trapWires x.core (inputs t).irq).trapMepc=x.core.memWb.pc := by
    change (if (trapWires x.core (inputs t).irq).trapTrigger=true then _ else _)=_
    rw [if_pos htrigger]
  have htoS : (csrWires x.core (inputs t)).trapToSMode=
      (trapWires x.core (inputs t).irq).trapToSMode := rfl
  change (if _ then (coreStep x.core (inputs t)).csr.sepc else (coreStep x.core (inputs t)).csr.mepc)=_
  rw [coreStep_csr_trap _ _ hrst htrigger]
  unfold enterTrap
  rw [htoS]
  cases (trapWires x.core (inputs t).irq).trapToSMode with
  | true => exact hmepc
  | false => exact hmepc

/-- The instruction in WB changed no architectural state: no register and no
CSR write at this edge, no data-memory write in its MEM cycle. -/
def NoEffect (inputs : ℕ → Inputs) (t : ℕ) : Prop :=
  regWriteWire (trackedRun inputs t).core=false ∧ csrWriteWire (trackedRun inputs t).core=false ∧
    dmemWriteWire (trackedRun inputs (t-1)).core=false

/-- Without effects an interrupt changes registers and CSRs by the trap entry
and the counter ticks alone. -/
theorem noEffect_state (inputs : ℕ → Inputs) (t : ℕ)
    (hint : TakesInterrupt (trackedRun inputs t) (inputs t)) (h : NoEffect inputs t) :
    (trackedRun inputs (t+1)).core.regs=(trackedRun inputs t).core.regs ∧
    (trackedRun inputs (t+1)).core.csr=
      enterTrap (trackedRun inputs t).core.csr (tickCounters (trackedRun inputs t).core.csr true)
        (csrWires (trackedRun inputs t).core (inputs t)) := by
  obtain ⟨hrst,hirq⟩ := hint
  obtain ⟨hreg,hcsr,-⟩ := h
  have htrigger : (trapWires (trackedRun inputs t).core (inputs t).irq).trapTrigger=true := by
    rw [trapTrigger_eq,hirq]
    rfl
  have htick : (csrWires (trackedRun inputs t).core (inputs t)).trapTrigger=true := htrigger
  refine ⟨coreStep_regs_quiet _ _ hrst hreg,?_⟩
  change (coreStep (trackedRun inputs t).core (inputs t)).csr=_
  rw [coreStep_csr_trap _ _ hrst htrigger]
  unfold writePhase
  rw [writesCsr_csrWires,hcsr,htick]
  rfl

/-- The instruction in WB may be run again: it raises an exception of its
own, or it has no destination but x0, is no store and is no CSR instruction
that modifies its register. -/
def Repeatable (s : CoreState) (d : Decoded) : Prop :=
  hasSyncException s=true ∨
    (QuietWrite d.wb ∧ d.mem.isStore=false ∧
      ¬(d.sys.isCsr=true ∧ csrModifies d.sys.csrOp (csrRs1Data s.memWb)=true))

section Exact

variable {s : CoreState} {d : Decoded} (h : CarriesWb s.memWb d)

include h

/-- Register write of an instruction in WB, by its decoder outputs. -/
theorem regWriteWire_iff :
    regWriteWire s=false ↔ hasSyncException s=true ∨ QuietWrite d.wb := by
  rw [regWriteWire_eq,h.wb]
  unfold QuietWrite
  cases hasSyncException s <;> cases d.wb.regWriteEn <;> simp

/-- CSR write of an instruction in WB, by its decoder outputs. -/
theorem csrWriteWire_iff :
    csrWriteWire s=false ↔ hasSyncException s=true ∨
      ¬(d.sys.isCsr=true ∧ csrModifies d.sys.csrOp (csrRs1Data s.memWb)=true) := by
  rw [csrWriteWire_eq,hasSyncException_eq,←h.isCsr,←h.csrOp]
  unfold csrReq
  cases s.memWb.isCsr <;> cases hasTrap s.memWb <;> cases wbCsrIllegal s.memWb <;> simp

/-- A store raises an exception exactly when it is misaligned. -/
theorem store_exception {word : BitVec 32} {mode : BitVec 2} (hd : d=decoder word mode)
    (hstore : d.mem.isStore=true) :
    hasSyncException s=addrMisaligned d.mem.memSize s.memWb.aluResult := by
  subst hd
  obtain ⟨hsys,hload⟩ := decoder_store word mode hstore
  rw [hasSyncException_eq]
  simp only [hasTrap,wbCsrIllegal,csrReq,h.illegalInstr,h.isEcall,h.isEbreak,h.isCsr,h.loadFault,
    h.storeFault,hsys,hload,hstore,sysDefaults,csrIllegalAccess]
  simp

end Exact

/-- The write strobe of a store, by its decoder outputs. -/
theorem dmemWriteWire_iff (s : CoreState) {d : Decoded} (h : CarriesMem s.exMem d) :
    dmemWriteWire s=false ↔
      d.mem.isStore=false ∨ addrMisaligned d.mem.memSize s.exMem.aluResult=true := by
  unfold dmemWriteWire dmemRequest storeAddrMisaligned
  rw [h.mem]
  cases d.mem.isStore <;> simp

/-- In every run, at every interrupt with an instruction in WB: its address
is the saved one, it was in MEM in the cycle before, and it has had no
architectural effect exactly when it may be run again. -/
theorem interrupt_effect_iff (inputs : ℕ → Inputs) (t : ℕ) (k : Executed)
    (hint : TakesInterrupt (trackedRun inputs t) (inputs t))
    (hwb : (trackedRun inputs t).tags.wb=.instr k) :
    savedPc inputs t=k.pc ∧ (trackedRun inputs (t-1)).tags.mem=.instr k ∧
    (NoEffect inputs t ↔ Repeatable (trackedRun inputs t).core (decoder k.word k.mode.bits)) := by
  obtain ⟨u,rfl,hmem,-,hcontents⟩ := wb_pred hwb
  rw [Nat.add_sub_cancel]
  have hwbOk := (trackedRun_slotsOk inputs (u+1)).wb
  have hmemOk := (trackedRun_slotsOk inputs u).mem
  rw [hwb] at hwbOk
  rw [hmem] at hmemOk
  obtain ⟨hpc,-,hcarriesWb⟩ := hwbOk
  obtain ⟨-,-,hcarriesMem⟩ := hmemOk
  refine ⟨(savedPc_eq inputs (u+1) hint).trans hpc,hmem,?_⟩
  have haddr : (trackedRun inputs u).core.exMem.aluResult=
      (trackedRun inputs (u+1)).core.memWb.aluResult := by
    rw [hcontents]
    rfl
  unfold NoEffect Repeatable
  rw [Nat.add_sub_cancel,regWriteWire_iff hcarriesWb,csrWriteWire_iff hcarriesWb,
    dmemWriteWire_iff _ hcarriesMem,haddr]
  cases hstore : (decoder k.word k.mode.bits).mem.isStore with
  | true =>
    -- an effect-free store is a misaligned one, which is an exception
    rw [←store_exception hcarriesWb rfl hstore]
    constructor
    · rintro ⟨-,-,habs | hexception⟩
      · cases habs
      · exact .inl hexception
    · rintro (hexception | ⟨-,habs,-⟩)
      · exact ⟨.inl hexception,.inl hexception,.inr hexception⟩
      · cases habs
  | false =>
    constructor
    · rintro ⟨hexception | hquiet,hexception | hreads,-⟩
      · exact .inl hexception
      · exact .inl hexception
      · exact .inl hexception
      · exact .inr ⟨hquiet,rfl,hreads⟩
    · rintro (hexception | ⟨hquiet,-,hreads⟩)
      · exact ⟨.inl hexception,.inl hexception,.inl rfl⟩
      · exact ⟨.inr hquiet,.inr hreads,.inl rfl⟩

/-- Inputs of a program with the timer line raised in one cycle. -/
def timerInputs (program : List (BitVec 32)) (cycle : ℕ) : ℕ → Inputs :=
  programInputs program fun t => if t=cycle then ⟨true,false,false⟩ else .low

/-- CSRRSI x0,mstatus,8 enables interrupts and a NOP follows; the interrupt
finds the NOP in WB and nothing is lost or repeated. -/
theorem interrupt_effect_nop : NoEffect (timerInputs [0x30046073] 5) 5 :=
  (interrupt_effect_iff (timerInputs [0x30046073] 5) 5
    ⟨⟨⟨1,0x80000004,nopInstr⟩,.m⟩,0x80000008,false⟩ (by unfold TakesInterrupt; decide +kernel)
    (by decide +kernel)).2.2.mpr (.inr ⟨.inr (by decide),by decide,by decide⟩)

/-- CSRRSI x0,mstatus,8 enables interrupts and ADDI x1,x0,1 follows; the
interrupt that finds ADDI in WB saves its address and still writes x1. -/
theorem interrupt_effect_addi :
    TakesInterrupt (trackedRun (timerInputs [0x30046073,0x00100093] 5) 5)
      (timerInputs [0x30046073,0x00100093] 5 5) ∧
    (trackedRun (timerInputs [0x30046073,0x00100093] 5) 5).tags.wb=
      .instr ⟨⟨⟨1,0x80000004,0x00100093⟩,.m⟩,0x80000008,false⟩ ∧
    savedPc (timerInputs [0x30046073,0x00100093] 5) 5=0x80000004 ∧
    (trackedRun (timerInputs [0x30046073,0x00100093] 5) 5).core.regs 1=0 ∧
    (trackedRun (timerInputs [0x30046073,0x00100093] 5) 6).core.regs 1=1 ∧
    ¬NoEffect (timerInputs [0x30046073,0x00100093] 5) 5 := by
  unfold TakesInterrupt NoEffect
  decide +kernel

/-- The address kept in an emptied slot is the one the program goes on at:
never behind a load-use stall or a reset; behind a jump or a trap only when
it leads back to the very address the slot keeps. -/
def KeepsResume : Bubble → Prop
  | .reset => False
  | .loadUse _ => False
  | .jump left target => left=target
  | .trap left target => left=target

/-- The kept address and the resume address agree exactly there. -/
theorem keepsResume_iff (b : Bubble) : b.addr=b.resume ↔ KeepsResume b := by
  cases b with
  | reset => simp [Bubble.addr,Bubble.resume,KeepsResume,resetPc]
  | loadUse load => simp [Bubble.addr,Bubble.resume,KeepsResume]
  | jump left target => exact Iff.rfl
  | trap left target => exact Iff.rfl

/-- In every run, at every interrupt with no instruction in WB: the saved PC
is the next address in program order exactly when the emptied slot keeps its
resume address. -/
theorem interrupt_bubble_iff (inputs : ℕ → Inputs) (t : ℕ) (b : Bubble)
    (hint : TakesInterrupt (trackedRun inputs t) (inputs t))
    (hwb : (trackedRun inputs t).tags.wb=.bubble b) :
    savedPc inputs t=(trackedRun inputs t).tags.nextPc ↔ KeepsResume b := by
  have hslot := (trackedRun_slotsOk inputs t).wb
  have horder := (trackedRun_inOrder inputs t).wb
  rw [hwb] at hslot horder
  rw [savedPc_eq inputs t hint,←keepsResume_iff,←(horder : b.resume=_),hslot.1]

/-- CSRRSI x0,mstatus,8 and a jump to itself: the slot behind the jump keeps
the address of the jump, which is also its target. -/
theorem interrupt_bubble_selfLoop :
    savedPc (timerInputs [0x30046073,0x0000006f] 6) 6=
      (trackedRun (timerInputs [0x30046073,0x0000006f] 6) 6).tags.nextPc :=
  (interrupt_bubble_iff (timerInputs [0x30046073,0x0000006f] 6) 6
    (.jump 0x80000004 0x80000004) (by unfold TakesInterrupt; decide +kernel)
    (by decide +kernel)).mpr rfl

/-- CSRRSI x0,mstatus,8 and JAL x0,16: the interrupt in the slot behind the
jump saves the address of the jump that has already committed. -/
theorem interrupt_bubble_jump :
    TakesInterrupt (trackedRun (timerInputs [0x30046073,0x0100006f] 6) 6)
      (timerInputs [0x30046073,0x0100006f] 6 6) ∧
    (trackedRun (timerInputs [0x30046073,0x0100006f] 6) 6).tags.wb=
      .bubble (.jump 0x80000004 0x80000014) ∧
    (trackedRun (timerInputs [0x30046073,0x0100006f] 6) 6).tags.nextPc=0x80000014 ∧
    savedPc (timerInputs [0x30046073,0x0100006f] 6) 6=0x80000004 := by
  unfold TakesInterrupt
  decide +kernel

end RichardCore.Interrupts
