import RichardCore.CsrStatus
import RichardCore.Interrupts

/-!
# The interrupt gate

The trap controller takes the highest raised line whenever mstatus.MIE is
set. Three questions about this one gate: what closes it again after an
interrupt is taken, what the lines can do while it is closed, and how it
relates to the enable bits of mie, which it does not read.
-/

namespace RichardCore.InterruptGate

open Packages DataMemory CsrUnit CsrStatus TrapCtrl Hazard Pipeline Clocked Tracking Harness
open Interrupts

/-- The interrupt lines, highest priority first. -/
inductive Line where
  | outer | software | timer
  deriving DecidableEq, Repr

/-- Cause number of a line, also its bit in mie and mideleg. -/
def Line.code : Line → ℕ
  | .outer => 11
  | .software => 3
  | .timer => 7

/-- Level of a line. -/
def Line.level (irq : IrqLines) : Line → Bool
  | .outer => irq.outer
  | .software => irq.software
  | .timer => irq.timer

/-- The first line, by priority, that passes a test. -/
def firstLine (test : Line → Bool) : Option Line := [Line.outer,.software,.timer].find? test

/-- Cause word of a line. -/
def Line.cause (l : Line) : Word := interruptBit|||BitVec.ofNat 64 l.code

/-- An open gate passes the first raised line, a closed one nothing. -/
theorem interruptCause_eq (mie : Bool) (irq : IrqLines) :
    interruptCause mie irq=if mie then (firstLine (Line.level irq)).map Line.cause else none := by
  obtain ⟨timer,software,outer⟩ := irq
  cases mie <;> cases timer <;> cases software <;> cases outer <;> rfl

/-- Machine interrupt enable. -/
def gateOpen (s : CsrState) : Bool := s.mstatus.getLsbD mstatusMieBit

section Unit

/-- Inputs of the CSR file and the trap controller in one cycle. -/
structure UnitIn where
  /-- Synchronous reset. -/
  rst : Bool
  /-- Record in WB. -/
  memWb : MemWb
  /-- Interrupt lines. -/
  irq : IrqLines

/-- CSR file inputs, formed by the writeback stage and the trap controller. -/
def unitWires (s : CsrState) (i : UnitIn) : CsrIn :=
  let t := trapCtrl i.memWb.pc
    (wbStage i.memWb (csrRdata s (csrAddr i.memWb)) (wbCsrIllegal i.memWb)) PageFaults.none i.irq s
  { rst := i.rst
    csrReq := csrReq i.memWb
    csrOp := i.memWb.csrOp
    csrAddr := csrAddr i.memWb
    csrRs1Data := csrRs1Data i.memWb
    trapTrigger := t.trapTrigger
    trapToSMode := t.trapToSMode
    trapMepc := t.trapMepc
    trapMcause := t.trapMcause
    trapMtval := t.trapMtval
    mretEn := t.mretEn
    sretEn := t.sretEn }

/-- One clock edge of the CSR file under the trap controller. -/
def unitStep (s : CsrState) (i : UnitIn) : CsrState := csrStep s (unitWires s i)

/-- A run of the CSR file and the trap controller from reset. -/
def unitRun (inputs : ℕ → UnitIn) (t : ℕ) : CsrState := runFrom unitStep csrReset inputs t

/-- What a core run gives the CSR file and the trap controller. -/
def unitInputs (inputs : ℕ → Inputs) (t : ℕ) : UnitIn :=
  ⟨(inputs t).rst,(trackedRun inputs t).core.memWb,(inputs t).irq⟩

/-- The CSR file of a core run is a run of the unit. -/
theorem trackedRun_unit (inputs : ℕ → Inputs) (t : ℕ) :
    (trackedRun inputs t).core.csr=unitRun (unitInputs inputs) t := by
  induction t with
  | zero => rfl
  | succ t ih =>
    change csrStep (trackedRun inputs t).core.csr _=unitStep (unitRun _ t) _
    rw [←ih]
    rfl

/-- The cycle takes an interrupt. -/
def EntersInterrupt (s : CsrState) (i : UnitIn) : Prop :=
  i.rst=false ∧ (interruptCause (gateOpen s) i.irq).isSome=true

/-- The first raised line is delegated: the mode is below M and its mideleg
bit is set. -/
def Delegated (s : CsrState) (irq : IrqLines) : Prop :=
  s.privMode≠.m ∧ ∃ l,firstLine (Line.level irq)=some l ∧ s.mideleg.getLsbD l.code=true

/-- The cycle executes an mret, an sret or a write to a status register. -/
def Reopens (s : CsrState) (i : UnitIn) : Prop :=
  i.rst=false ∧ (ReturnsM (unitWires s i) ∨ ReturnsS (unitWires s i) ∨
    WritesAt (unitWires s i) .mstatus ∨ WritesAt (unitWires s i) .sstatus)

/-- After the cycle no interrupt is taken before a cycle that may reopen the
gate. -/
def MaskedAfter (inputs : ℕ → UnitIn) (t : ℕ) : Prop :=
  ∀ u,t < u → EntersInterrupt (unitRun inputs u) (inputs u) →
    ∃ v,t < v ∧ v < u ∧ Reopens (unitRun inputs v) (inputs v)

/-- An interrupt is a trap, delegated by mode and mideleg. -/
theorem unitWires_interrupt {s : CsrState} {i : UnitIn} (h : EntersInterrupt s i) :
    (unitWires s i).trapTrigger=true ∧
    ((unitWires s i).trapToSMode=true ↔ Delegated s i.irq) := by
  obtain ⟨-,hcause⟩ := h
  have htrigger : (unitWires s i).trapTrigger=true := by
    change ((interruptCause (gateOpen s) i.irq).isSome || _)=true
    rw [hcause]
    rfl
  refine ⟨htrigger,?_⟩
  obtain ⟨cause,hsome⟩ := Option.isSome_iff_exists.mp hcause
  have hline := hsome
  rw [interruptCause_eq] at hline
  cases hgate : gateOpen s with
  | false =>
    rw [hgate] at hline
    cases hline
  | true =>
    rw [hgate,if_pos rfl,Option.map_eq_some_iff] at hline
    obtain ⟨l,hl,rfl⟩ := hline
    have hindex : (l.cause.setWidth 6).toNat=l.code := by cases l <;> decide
    have htoS : (unitWires s i).trapToSMode=
        ((unitWires s i).trapTrigger && decide (s.privMode.bits≠PrivMode.m.bits) &&
          (if (interruptCause (gateOpen s) i.irq).isSome then s.mideleg else s.medeleg).getLsbD
            (((interruptCause (gateOpen s) i.irq).getD
              ((syncException i.memWb.pc (wbStage i.memWb (csrRdata s (csrAddr i.memWb))
                (wbCsrIllegal i.memWb)) PageFaults.none s.privMode.bits).getD (0,0)).1).setWidth
                  6).toNat) := rfl
    rw [htoS,htrigger,hsome,Option.getD_some,hindex]
    unfold Delegated
    rw [hl]
    simp [PrivMode.bits_ne_m]

/-- An interrupt into machine mode closes the gate; a delegated one leaves it
open. -/
theorem gateOpen_entry {s : CsrState} {i : UnitIn} (h : EntersInterrupt s i) :
    gateOpen (unitStep s i)=true ↔ Delegated s i.irq := by
  obtain ⟨htrigger,htoS⟩ := unitWires_interrupt h
  have hopen : gateOpen s=true := by
    obtain ⟨-,hcause⟩ := h
    unfold interruptCause at hcause
    cases hgate : gateOpen s with
    | true => rfl
    | false =>
      rw [hgate] at hcause
      cases hcause
  rw [←htoS]
  unfold unitStep gateOpen
  rw [csrStep_trap _ _ h.1 htrigger]
  unfold enterTrap
  cases (unitWires s i).trapToSMode with
  | true =>
    have hbits := congrArg Prod.fst (apply_machineBits s.mstatus (trapSstatus s))
    exact iff_of_true (hbits.trans hopen) rfl
  | false =>
    have hbits := congrArg Prod.fst (trapMstatus_machineBits s)
    have hclosed : (trapMstatus s).getLsbD mstatusMieBit=false := hbits
    change (trapMstatus s).getLsbD mstatusMieBit=true ↔ false=true
    rw [hclosed]

/-- A closed gate stays closed over a cycle that does not reopen it. -/
theorem gateOpen_step (s : CsrState) (i : UnitIn) (hclosed : gateOpen s=false)
    (hkeep : ¬Reopens s i) : gateOpen (unitStep s i)=false := by
  cases hrst : i.rst with
  | true =>
    have hreset : unitStep s i=csrReset := if_pos hrst
    rw [hreset]
    rfl
  | false =>
    have hwires : ¬(ReturnsM (unitWires s i) ∨ ReturnsS (unitWires s i) ∨
        WritesAt (unitWires s i) .mstatus ∨ WritesAt (unitWires s i) .sstatus) :=
      fun h => hkeep ⟨hrst,h⟩
    rw [not_or,not_or,not_or] at hwires
    obtain ⟨hmret,hsret,hwriteM,hwriteS⟩ := hwires
    have hupdate := csrStep_status s (unitWires s i) hrst
    unfold gateOpen unitStep at *
    generalize (csrStep s (unitWires s i)).mstatus=m,(csrStep s (unitWires s i)).sstatus=x
      at hupdate ⊢
    cases hupdate with
    | idle => exact hclosed
    | writeM data h => exact absurd h hwriteM
    | writeS data h => exact absurd h hwriteS
    | trapM h => exact congrArg Prod.fst (trapMstatus_machineBits s)
    | trapS h => exact (congrArg Prod.fst (apply_machineBits s.mstatus (trapSstatus s))).trans hclosed
    | mret h => exact absurd h hmret
    | sret h => exact absurd h hsret

/-- In every run, an interrupt taken into machine mode is followed by no
other before the gate may reopen; a delegated one can be followed by another
in the very next cycle. -/
theorem interrupt_masks_iff (inputs : ℕ → UnitIn) (t : ℕ)
    (h : EntersInterrupt (unitRun inputs t) (inputs t)) :
    (∀ inputs',(∀ u≤t,inputs' u=inputs u) → MaskedAfter inputs' t) ↔
      ¬Delegated (unitRun inputs t) (inputs t).irq := by
  constructor
  · intro hmasked hdelegated
    -- hold the lines and keep WB empty after the entry
    let held : ℕ → UnitIn := fun u => if u≤t then inputs u else ⟨false,memWbReset,(inputs t).irq⟩
    have hsame : ∀ u≤t,held u=inputs u := fun u hu => if_pos hu
    have hrun : unitRun held t=unitRun inputs t :=
      runFrom_congr _ _ t fun u hu => hsame u (Nat.le_of_lt hu)
    have hnext : unitRun held (t+1)=unitStep (unitRun inputs t) (inputs t) := by
      change unitStep (unitRun held t) (held t)=_
      rw [hrun,hsame t (Nat.le_refl t)]
    have hlines : held (t+1)=⟨false,memWbReset,(inputs t).irq⟩ := if_neg (by omega)
    have hagain : EntersInterrupt (unitRun held (t+1)) (held (t+1)) := by
      rw [hnext,hlines]
      refine ⟨rfl,?_⟩
      obtain ⟨l,hl,-⟩ := hdelegated.2
      rw [(gateOpen_entry h).mpr hdelegated,interruptCause_eq,if_pos rfl,hl]
      rfl
    obtain ⟨v,hafter,hbefore,-⟩ := hmasked held hsame (t+1) (Nat.lt_succ_self t) hagain
    omega
  · intro hmachine inputs' hsame u hu hentry
    have hrun : unitRun inputs' t=unitRun inputs t :=
      runFrom_congr _ _ t fun v hv => hsame v (Nat.le_of_lt hv)
    have hclosed : gateOpen (unitRun inputs' (t+1))=false := by
      change gateOpen (unitStep (unitRun inputs' t) (inputs' t))=false
      rw [hrun,hsame t (Nat.le_refl t)]
      exact Bool.eq_false_of_not_eq_true fun hopen => hmachine ((gateOpen_entry h).mp hopen)
    by_contra hnever
    obtain ⟨k,rfl⟩ : ∃ k,u=t+1+k := ⟨u-(t+1),by omega⟩
    -- the gate stays closed from the entry on
    have hstill : gateOpen (unitRun inputs' (t+1+k))=false := by
      unfold unitRun
      rw [runFrom_add]
      refine runFrom_invariant (fun s => gateOpen s=false) (fun s i => ¬Reopens s i) hclosed
        gateOpen_step k ?_
      intro v hv hopens
      refine hnever ⟨t+1+v,by omega,by omega,?_⟩
      unfold unitRun
      rw [runFrom_add]
      exact hopens
    obtain ⟨-,hcause⟩ := hentry
    rw [hstill] at hcause
    cases hcause

end Unit

/-- Inputs of a program with the timer line held high. -/
def heldTimer (program : List (BitVec 32)) : ℕ → Inputs :=
  programInputs program fun _ => ⟨true,false,false⟩

/-- CSRRSI x0,mstatus,8 in machine mode with the timer line held high: the
interrupt of cycle 5 goes to machine mode and masks the line. -/
theorem interrupt_masks_machine :
    MaskedAfter (unitInputs (heldTimer [0x30046073])) 5 :=
  (interrupt_masks_iff (unitInputs (heldTimer [0x30046073])) 5
    (by unfold EntersInterrupt; decide +kernel)).mpr
    (by
      rintro ⟨hmode,-⟩
      revert hmode
      decide +kernel)
    _ fun _ _ => rfl

/-- ADDI x1,x0,128, then CSRRW x0,mideleg,x1 delegates the timer, CSRRW
x0,mstatus,x1 sets MPIE, and MRET enters user mode with interrupts enabled.
With the line held high the interrupt of cycle 8 is taken again in cycle 9,
before anything commits in the handler. -/
theorem interrupt_masks_delegated :
    let inputs := unitInputs (heldTimer [0x08000093,0x30309073,0x30009073,0x30200073])
    EntersInterrupt (unitRun inputs 8) (inputs 8) ∧
    EntersInterrupt (unitRun inputs 9) (inputs 9) ∧ ¬MaskedAfter inputs 8 := by
  intro inputs
  have hfirst : EntersInterrupt (unitRun inputs 8) (inputs 8) := by
    unfold EntersInterrupt
    decide +kernel
  have hsecond : EntersInterrupt (unitRun inputs 9) (inputs 9) := by
    unfold EntersInterrupt
    decide +kernel
  refine ⟨hfirst,hsecond,fun hmasked => ?_⟩
  obtain ⟨v,hafter,hbefore,-⟩ := hmasked 9 (by decide) hsecond
  omega

/-- With the gate closed the trap controller does not see the lines. -/
theorem trapWires_closed {s : CoreState} (h : gateOpen s.csr=false) (irq irq' : IrqLines) :
    trapWires s irq=trapWires s irq' := by
  have hclosed : s.csr.mstatus.getLsbD mstatusMieBit=false := h
  have hnone : ∀ lines,interruptCause (s.csr.mstatus.getLsbD mstatusMieBit) lines=none := by
    intro lines
    rw [hclosed]
    rfl
  unfold trapWires trapCtrl
  rw [hnone irq,hnone irq']

/-- With the gate closed a clock edge of the tracked core does not depend on
the lines. -/
theorem trackStep_closed {x : Tracked} (h : gateOpen x.core.csr=false) (i : Inputs)
    (irq : IrqLines) : trackStep x {i with irq := irq}=trackStep x i := by
  have htrap : trapWires x.core irq=trapWires x.core i.irq := trapWires_closed h irq i.irq
  have hflush : flushWire x.core irq=flushWire x.core i.irq := by
    unfold flushWire
    rw [htrap]
  have hcontrol : controlWires ⟨true,true⟩ x.core irq=controlWires ⟨true,true⟩ x.core i.irq := by
    unfold controlWires
    rw [htrap]
  have hredirect : redirectWires x.core irq=redirectWires x.core i.irq := by
    unfold redirectWires
    rw [htrap]
  have hcsr : csrWires x.core {i with irq := irq}=csrWires x.core i := by
    unfold csrWires
    dsimp only
    rw [htrap]
  have hcore : coreStep x.core {i with irq := irq}=coreStep x.core i := by
    unfold coreStep coreStepWith
    dsimp only
    rw [hcontrol,hredirect,htrap,hcsr]
  have htags : tagStep x.core x.tags {i with irq := irq}=tagStep x.core x.tags i := by
    have hempty : ∀ left,emptied x.core irq left=emptied x.core i.irq left := by
      intro left
      unfold emptied
      rw [hflush,htrap]
    have hleave : leaveEx x.core irq=leaveEx x.core i.irq := by
      funext slot
      cases slot with
      | bubble b =>
        unfold leaveEx
        rw [hflush,htrap]
      | instr k =>
        unfold leaveEx executed
        rw [hflush]
    unfold tagStep
    dsimp only
    rw [hcontrol,hflush,htrap,hempty,hempty,hleave]
  unfold trackStep
  rw [hcore,htags]

/-- With the gate closed a clock edge of the closed loop does not depend on
the lines. -/
theorem sysStep_closed {M : Type} (imem : Word → BitVec 32) (dev : DataDevice M) {y : Sys M}
    (h : gateOpen y.tracked.core.csr=false) (irq irq' : IrqLines) :
    sysStep imem dev y irq=sysStep imem dev y irq' := by
  have htrack : trackStep y.tracked (y.inputs imem dev irq)=
      trackStep y.tracked (y.inputs imem dev irq') :=
    trackStep_closed h (y.inputs imem dev irq') irq
  unfold sysStep
  rw [htrack]

/-- From every state of the core and its memories, and for any two behaviours
of the lines: while the gate is closed in every earlier cycle of the first
run, both runs have the same core state, fetch address, data-memory request
and memory contents. -/
theorem masked_lines_invisible {M : Type} (imem : Word → BitVec 32) (dev : DataDevice M)
    (y : Sys M) (irq irq' : ℕ → IrqLines) (t : ℕ)
    (hclosed : ∀ u < t,gateOpen (runFrom (sysStep imem dev) y irq u).tracked.core.csr=false) :
    let first := runFrom (sysStep imem dev) y irq t
    let second := runFrom (sysStep imem dev) y irq' t
    first.tracked.core=second.tracked.core ∧
    first.tracked.core.pc=second.tracked.core.pc ∧
    first.request=second.request ∧ first.memory=second.memory := by
  have hsame : runFrom (sysStep imem dev) y irq t=runFrom (sysStep imem dev) y irq' t := by
    induction t with
    | zero => rfl
    | succ t ih =>
      have hprev := ih fun u hu => hclosed u (Nat.lt_succ_of_lt hu)
      have hgate := hclosed t (Nat.lt_succ_self t)
      change sysStep imem dev (runFrom _ y irq t) (irq t)=
        sysStep imem dev (runFrom _ y irq' t) (irq' t)
      rw [←hprev]
      exact sysStep_closed imem dev hgate (irq t) (irq' t)
  intro first second
  have heq : first=second := hsame
  rw [heq]
  exact ⟨rfl,rfl,rfl,rfl⟩

/-- After reset the gate is closed, so ten cycles of a store loop do not show
a timer line that is held high. -/
theorem masked_lines_invisible_loop :
    let step := sysStep (loadProgram resetPc [0x00003023,0xffdff06f]) byteDevice
    (runFrom step ⟨trackReset,fun _ => 0⟩ (fun _ => .low) 10).request=
      (runFrom step ⟨trackReset,fun _ => 0⟩ (fun _ => ⟨true,false,false⟩) 10).request :=
  (masked_lines_invisible (loadProgram resetPc [0x00003023,0xffdff06f]) byteDevice
    ⟨trackReset,fun _ => 0⟩ (fun _ => .low) (fun _ => ⟨true,false,false⟩) 10
    (by decide +kernel)).2.2.1

/-- Bit of mie for a line. -/
def lineEnabled (s : CsrState) (l : Line) : Bool := s.mie.getLsbD l.code

/-- An interrupt taken in the cycle is enabled in mie, and is the highest one
among the raised lines that are enabled there. -/
def RespectsMie (x : Tracked) (i : Inputs) : Prop :=
  ∀ l,TakesInterrupt x i → (trapWires x.core i.irq).trapMcause=l.cause →
    lineEnabled x.core.csr l=true ∧
    firstLine (fun k => k.level i.irq && lineEnabled x.core.csr k)=some l

/-- While mstatus.MIE is set, the external line is raised only if enabled,
the software line only if enabled or overruled by the external line, and the
timer line only if enabled or overruled by either. -/
def LinesEnabled (x : Tracked) (i : Inputs) : Prop :=
  i.rst=false → gateOpen x.core.csr=true →
    (i.irq.outer=true → lineEnabled x.core.csr .outer=true) ∧
    (i.irq.software=true → i.irq.outer=false → lineEnabled x.core.csr .software=true) ∧
    (i.irq.timer=true → i.irq.outer=false → i.irq.software=false →
      lineEnabled x.core.csr .timer=true)

/-- Lines have different cause words. -/
theorem Line.cause_injective {k l : Line} (h : k.cause=l.cause) : k=l := by
  revert h
  cases k <;> cases l <;> decide

/-- The interrupt of a cycle has the cause of the first raised line. -/
theorem takesInterrupt_cause (x : Tracked) (i : Inputs) (l : Line) :
    TakesInterrupt x i ∧ (trapWires x.core i.irq).trapMcause=l.cause ↔
      i.rst=false ∧ gateOpen x.core.csr=true ∧ firstLine (Line.level i.irq)=some l := by
  have hcause := interruptCause_eq (gateOpen x.core.csr) i.irq
  have hinterrupt : hasInterrupt x.core i.irq=
      (interruptCause (gateOpen x.core.csr) i.irq).isSome := rfl
  cases hgate : gateOpen x.core.csr with
  | false =>
    rw [hgate] at hcause hinterrupt
    have hno : hasInterrupt x.core i.irq=false := hinterrupt
    unfold TakesInterrupt
    rw [hno]
    simp
  | true =>
    rw [hgate,if_pos rfl] at hcause
    rw [hgate] at hinterrupt
    unfold TakesInterrupt
    cases hline : firstLine (Line.level i.irq) with
    | none =>
      rw [hline,Option.map_none] at hcause
      rw [hinterrupt,hcause]
      simp
    | some k =>
      rw [hline,Option.map_some] at hcause
      have htaken : hasInterrupt x.core i.irq=true := by
        rw [hinterrupt,hcause]
        rfl
      have hmcause : (trapWires x.core i.irq).trapMcause=k.cause := by
        change (if (trapWires x.core i.irq).trapTrigger=true then
          (interruptCause (gateOpen x.core.csr) i.irq).getD _ else 0)=_
        rw [trapTrigger_eq,htaken,hgate,hcause]
        rfl
      rw [htaken,hmcause]
      simp only [and_true,true_and,Option.some.injEq]
      exact and_congr_right fun _ => ⟨Line.cause_injective,congrArg Line.cause⟩

/-- The lines are enabled in the sense above exactly when the first raised
line is. -/
theorem linesEnabled_iff (x : Tracked) (i : Inputs) :
    LinesEnabled x i ↔ ∀ l,i.rst=false → gateOpen x.core.csr=true →
      firstLine (Line.level i.irq)=some l → lineEnabled x.core.csr l=true := by
  unfold LinesEnabled firstLine
  constructor
  · intro h l hrst hopen hline
    obtain ⟨houter,hsoftware,htimer⟩ := h hrst hopen
    cases ho : i.irq.outer <;> cases hs : i.irq.software <;> cases ht : i.irq.timer <;>
      simp [List.find?,Line.level,ho,hs,ht] at hline
    all_goals subst hline
    all_goals first
      | exact houter ho
      | exact hsoftware hs ho
      | exact htimer ht ho hs
  · intro h hrst hopen
    refine ⟨?_,?_,?_⟩
    · intro ho
      exact h .outer hrst hopen (by simp [Line.level,ho])
    · intro hs ho
      exact h .software hrst hopen (by simp [List.find?,Line.level,ho,hs])
    · intro ht ho hs
      exact h .timer hrst hopen (by simp [List.find?,Line.level,ho,hs,ht])

/-- The first raised line is also the first one among the enabled, if it is
enabled itself. -/
theorem firstLine_enabled {irq : IrqLines} {l : Line} (enabled : Line → Bool)
    (hline : firstLine (Line.level irq)=some l) (h : enabled l=true) :
    firstLine (fun k => k.level irq && enabled k)=some l := by
  unfold firstLine at *
  cases ho : irq.outer <;> cases hs : irq.software <;> cases ht : irq.timer <;>
    simp [List.find?,Line.level,ho,hs,ht] at hline ⊢
  all_goals subst hline
  all_goals rw [h]

/-- In every run and every cycle: the interrupt taken, if any, is enabled in
mie and the highest among the enabled raised lines, exactly when no disabled
line is raised above or without an enabled one while MIE is set. -/
theorem mie_respected_iff (inputs : ℕ → Inputs) (t : ℕ) :
    RespectsMie (trackedRun inputs t) (inputs t) ↔ LinesEnabled (trackedRun inputs t) (inputs t) := by
  rw [linesEnabled_iff]
  unfold RespectsMie
  constructor
  · intro h l hrst hopen hline
    obtain ⟨htakes,hcause⟩ := (takesInterrupt_cause _ _ l).mpr ⟨hrst,hopen,hline⟩
    exact (h l htakes hcause).1
  · intro h l htakes hcause
    obtain ⟨hrst,hopen,hline⟩ := (takesInterrupt_cause _ _ l).mp ⟨htakes,hcause⟩
    have henabled := h l hrst hopen hline
    exact ⟨henabled,firstLine_enabled (lineEnabled (trackedRun inputs t).core.csr) hline henabled⟩

/-- CSRRSI x0,mstatus,8 sets MIE and leaves mie at zero; the timer line raised
in cycle 5 is taken all the same. -/
theorem mie_ignored :
    TakesInterrupt (trackedRun (timerInputs [0x30046073] 5) 5) (timerInputs [0x30046073] 5 5) ∧
    (trapWires (trackedRun (timerInputs [0x30046073] 5) 5).core
      (timerInputs [0x30046073] 5 5).irq).trapMcause=Line.timer.cause ∧
    (trackedRun (timerInputs [0x30046073] 5) 5).core.csr.mie=0 ∧
    ¬RespectsMie (trackedRun (timerInputs [0x30046073] 5) 5) (timerInputs [0x30046073] 5 5) := by
  have htakes : TakesInterrupt (trackedRun (timerInputs [0x30046073] 5) 5)
      (timerInputs [0x30046073] 5 5) := by
    unfold TakesInterrupt
    decide +kernel
  have hcause : (trapWires (trackedRun (timerInputs [0x30046073] 5) 5).core
      (timerInputs [0x30046073] 5 5).irq).trapMcause=Line.timer.cause := by
    decide +kernel
  have hmie : (trackedRun (timerInputs [0x30046073] 5) 5).core.csr.mie=0 := by
    decide +kernel
  refine ⟨htakes,hcause,hmie,fun hrespects => ?_⟩
  obtain ⟨henabled,-⟩ := hrespects .timer htakes hcause
  unfold lineEnabled at henabled
  rw [hmie] at henabled
  cases henabled

end RichardCore.InterruptGate
