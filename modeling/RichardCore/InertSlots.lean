import RichardCore.Effects
import RichardCore.Harness

/-!
# Flushed slots do nothing

A flush clears some fields of a pipeline register and leaves addresses, data
and source fields stale. One flag for each stage follows a cleared slot down
the pipeline under the hardware's own wires; wherever it is, none of the
slot's wires acts.
-/

namespace RichardCore.InertSlots

open Packages Decoder DataMemory CsrUnit TrapCtrl Hazard Pipeline Clocked Tracking Effects Harness

/-- Which stages hold a slot that a flush has cleared. -/
structure Cleared where
  /-- ID. -/
  id : Bool
  /-- EX. -/
  ex : Bool
  /-- MEM. -/
  mem : Bool
  /-- WB. -/
  wb : Bool
  deriving DecidableEq, Repr

/-- One clock edge: each flag moves with its pipeline register and is set by
the flush of that register. -/
def clearedStep (s : CoreState) (c : Cleared) (i : Inputs) : Cleared :=
  let w := controlWires ⟨true,true⟩ s i.irq
  { id := pipeReg i.rst w.ifIdFlushEn w.ifIdStallEn false true c.id false
    ex := pipeReg i.rst w.idExFlushEn w.idExStallEn false true c.ex c.id
    mem := pipeReg i.rst false w.exMemStallEn false true c.mem c.ex
    wb := pipeReg i.rst (trapWires s i.irq).trapFlushReq false false true c.wb c.mem }

/-- The flags along a run. -/
def clearedRun (inputs : ℕ → Inputs) : ℕ → Cleared
  | 0 => ⟨false,false,false,false⟩
  | t+1 => clearedStep (trackedRun inputs t).core (clearedRun inputs t) (inputs t)

/-- Forwarding select of an operand in EX. -/
def operandSource (s : CoreState) (rsAddr : RegAddr) : Forward :=
  forwardSel s.exMem.wb.regWriteEn s.exMem.wb.rdAddr (wbWires s).regWriteEn s.memWb.wb.rdAddr rsAddr

/-- The slot in ID does nothing. -/
structure IdIdle (s : CoreState) : Prop where
  /-- It does not wait for a load in EX. -/
  stall : loadUseWire s=false

/-- The slot in EX does nothing. -/
structure ExIdle (s : CoreState) : Prop where
  /-- It does not redirect the PC. -/
  redirect : takenWire s=false
  /-- It makes no slot in ID wait. -/
  stall : loadUseWire s=false

/-- The slot in MEM does nothing. -/
structure MemIdle (s : CoreState) : Prop where
  /-- No read request. -/
  read : (dmemRequest s.exMem).readEn=false
  /-- No write request. -/
  write : (dmemRequest s.exMem).writeEn=false
  /-- Its result is not forwarded. -/
  forward : ∀ rsAddr,operandSource s rsAddr≠.mem

/-- The slot in WB does nothing, whatever the interrupt lines. -/
structure WbIdle (s : CoreState) : Prop where
  /-- The register file stays, x0 apart. -/
  regs : regWriteWire s=false
  /-- No CSR request. -/
  csr : csrReq s.memWb=false
  /-- No synchronous exception. -/
  exception : hasSyncException s=false
  /-- No machine return. -/
  mret : ∀ irq,(trapWires s irq).mretEn=false
  /-- No supervisor return. -/
  sret : ∀ irq,(trapWires s irq).sretEn=false
  /-- Only an interrupt redirects the PC. -/
  redirect : ∀ irq,(trapWires s irq).trapPcSel=hasInterrupt s irq
  /-- Its result is not forwarded. -/
  forward : ∀ rsAddr,operandSource s rsAddr≠.wb
  /-- The read ports do not bypass it. -/
  bypass : ∀ rsAddr,regfileRead s.regs rsAddr (wbWires s)=if rsAddr=0 then 0 else s.regs rsAddr

/-- The flush word waits for no load. -/
theorem idIdle_nop {s : CoreState} (h : s.ifId=ifIdNop) : IdIdle s := by
  have hrs1 : (idWires s).rs1Addr=0 := by
    unfold idWires
    rw [h]
    cases s.csr.privMode <;> rfl
  have hrs2 : (idWires s).rs2Addr=0 := by
    unfold idWires
    rw [h]
    cases s.csr.privMode <;> rfl
  refine ⟨?_⟩
  unfold loadUseWire loadUseStall
  rw [hrs1,hrs2]
  cases hrd : s.idEx.ctrl.wb.rdAddr != 0 with
  | false => simp
  | true =>
    have hne : s.idEx.ctrl.wb.rdAddr≠0 := bne_iff_ne.mp hrd
    rw [beq_false_of_ne hne]
    simp

/-- Inert control signals do nothing in EX. -/
theorem exIdle_inert {s : CoreState} (h : InertEx s.idEx.ctrl) : ExIdle s := by
  refine ⟨Bool.eq_false_of_not_eq_true fun htaken => ?_,?_⟩
  · obtain hjump | hbranch := takenWire_transfer htaken
    · rw [h.jump] at hjump
      cases hjump
    · rw [h.branch] at hbranch
      cases hbranch
  · unfold loadUseWire loadUseStall
    rw [h.mem.1]
    rfl

/-- Inert contents do nothing in MEM. -/
theorem memIdle_inert {s : CoreState} (h : InertMem s.exMem) : MemIdle s := by
  refine ⟨?_,?_,fun rsAddr => ?_⟩
  · simp only [dmemRequest,h.mem.1,Bool.false_and]
  · simp only [dmemRequest,h.mem.2,Bool.false_and]
  · have hno : ¬(s.exMem.wb.regWriteEn=true ∧ s.exMem.wb.rdAddr≠0 ∧ s.exMem.wb.rdAddr=rsAddr) := by
      rintro ⟨hen,hrd,-⟩
      obtain hquiet | hzero := h.wb
      · rw [hquiet] at hen
        cases hen
      · exact hrd hzero
    unfold operandSource forwardSel
    rw [if_neg hno]
    split <;> decide

/-- A record that writes no register is no source of an operand. -/
theorem wb_no_source {s : CoreState} (h : regWriteWire s=false) (rsAddr : RegAddr) :
    ¬((wbWires s).regWriteEn=true ∧ s.memWb.wb.rdAddr≠0 ∧ s.memWb.wb.rdAddr=rsAddr) := by
  rintro ⟨hen,hrd,-⟩
  unfold regWriteWire at h
  rw [hen,Bool.true_and,bne_eq_false_iff_eq] at h
  exact hrd h

/-- Inert contents do nothing in WB. -/
theorem wbIdle_inert {s : CoreState} (h : InertWb s.memWb) : WbIdle s := by
  have hregs : regWriteWire s=false := (silentWb_of_inert h).regWrite
  have hexception := inert_exception h
  have hmret : ∀ irq,(trapWires s irq).mretEn=false := by
    intro irq
    change (s.memWb.isMret && _)=false
    rw [h.mret]
    rfl
  have hsret : ∀ irq,(trapWires s irq).sretEn=false := by
    intro irq
    change (s.memWb.isSret && _)=false
    rw [h.sret]
    rfl
  refine ⟨hregs,?_,hexception,hmret,hsret,fun irq => ?_,fun rsAddr => ?_,fun rsAddr => ?_⟩
  · unfold csrReq
    rw [h.csr]
    rfl
  · change flushWire s irq=_
    rw [flushWire_eq,hexception,h.mret,h.sret,Bool.or_false,Bool.or_false,Bool.or_false]
  · unfold operandSource forwardSel
    rw [if_neg (wb_no_source hregs rsAddr)]
    split <;> decide
  · have hno := wb_no_source hregs rsAddr
    unfold regfileRead
    by_cases hzero : rsAddr=0
    · rw [if_pos hzero,if_pos hzero]
    · rw [if_neg hzero,if_neg hzero,if_neg]
      rintro ⟨rfl,hen⟩
      exact hno ⟨hen,hzero,rfl⟩

/-- Every flagged stage holds a bubble. -/
structure BubblesFlagged (x : Tracked) (c : Cleared) : Prop where
  /-- ID. -/
  id : c.id=true → ∃ b,x.tags.id=.bubble b
  /-- EX. -/
  ex : c.ex=true → ∃ b,x.tags.ex=.bubble b
  /-- MEM. -/
  mem : c.mem=true → ∃ b,x.tags.mem=.bubble b
  /-- WB. -/
  wb : c.wb=true → ∃ b,x.tags.wb=.bubble b

/-- The flags after a clock edge, with the handshake tied high. -/
theorem clearedStep_eq (s : CoreState) (c : Cleared) (i : Inputs) (hrst : i.rst=false) :
    clearedStep s c i=
      { id := flushWire s i.irq || takenWire s || (loadUseWire s && c.id)
        ex := flushWire s i.irq || takenWire s || loadUseWire s || c.id
        mem := c.ex
        wb := flushWire s i.irq || c.mem } := by
  have hflush : (trapWires s i.irq).trapFlushReq=flushWire s i.irq := rfl
  simp only [clearedStep,controlWires_tied,pipeReg,hrst,hflush]
  cases flushWire s i.irq <;> cases takenWire s <;> cases loadUseWire s <;> simp

/-- The flags and the records move under the same wires. -/
theorem bubblesFlagged_step {x : Tracked} {c : Cleared} (h : BubblesFlagged x c) (i : Inputs) :
    BubblesFlagged (trackStep x i) (clearedStep x.core c i) := by
  cases hrst : i.rst with
  | true => constructor <;> simp [clearedStep,pipeReg,hrst]
  | false =>
    rw [clearedStep_eq _ _ _ hrst]
    refine ⟨fun hc => ?_,fun hc => ?_,fun hc => ?_,fun hc => ?_⟩
    · change ∃ b,(tagStep x.core x.tags i).id=.bubble b
      rw [tagStep_id _ _ _ hrst]
      cases hflush : flushWire x.core i.irq || takenWire x.core with
      | true => exact ⟨_,rfl⟩
      | false =>
        rw [hflush,Bool.false_or,Bool.and_eq_true] at hc
        rw [if_neg (by decide),if_pos hc.1]
        exact h.id hc.2
    · change ∃ b,(tagStep x.core x.tags i).ex=.bubble b
      rw [tagStep_ex _ _ _ hrst]
      cases hflush : flushWire x.core i.irq || takenWire x.core || loadUseWire x.core with
      | true => exact ⟨_,rfl⟩
      | false =>
        rw [hflush,Bool.false_or] at hc
        obtain ⟨b,hb⟩ := h.id hc
        rw [hb]
        exact ⟨b,rfl⟩
    · change ∃ b,(tagStep x.core x.tags i).mem=.bubble b
      rw [tagStep_mem _ _ _ hrst]
      obtain ⟨b,hb⟩ := h.ex hc
      rw [hb]
      exact ⟨_,rfl⟩
    · change ∃ b,(tagStep x.core x.tags i).wb=.bubble b
      rw [tagStep_wb _ _ _ hrst]
      cases hflush : flushWire x.core i.irq with
      | true => exact ⟨_,rfl⟩
      | false =>
        rw [hflush,Bool.false_or] at hc
        exact h.mem hc

/-- In every run every flagged stage holds a bubble. -/
theorem clearedRun_bubbles (inputs : ℕ → Inputs) (t : ℕ) :
    BubblesFlagged (trackedRun inputs t) (clearedRun inputs t) := by
  induction t with
  | zero =>
    constructor <;> intro h <;> cases h
  | succ t ih => exact bubblesFlagged_step ih (inputs t)

/-- In every run, in every cycle, a slot that a flush has cleared does nothing
in the stage it is in. -/
theorem flushed_inert (inputs : ℕ → Inputs) (t : ℕ) :
    ((clearedRun inputs t).id=true → IdIdle (trackedRun inputs t).core) ∧
    ((clearedRun inputs t).ex=true → ExIdle (trackedRun inputs t).core) ∧
    ((clearedRun inputs t).mem=true → MemIdle (trackedRun inputs t).core) ∧
    ((clearedRun inputs t).wb=true → WbIdle (trackedRun inputs t).core) := by
  have hslots := trackedRun_slotsOk inputs t
  have hflags := clearedRun_bubbles inputs t
  refine ⟨fun hc => ?_,fun hc => ?_,fun hc => ?_,fun hc => ?_⟩
  · obtain ⟨b,hb⟩ := hflags.id hc
    have hid := hslots.id
    rw [hb] at hid
    exact idIdle_nop hid.1
  · obtain ⟨b,hb⟩ := hflags.ex hc
    have hex := hslots.ex
    rw [hb] at hex
    exact exIdle_inert hex.2
  · obtain ⟨b,hb⟩ := hflags.mem hc
    have hmem := hslots.mem
    rw [hb] at hmem
    exact memIdle_inert hmem.2
  · obtain ⟨b,hb⟩ := hflags.wb hc
    have hwb := hslots.wb
    rw [hb] at hwb
    exact wbIdle_inert hwb.2

/-- JAL x1,16 at the reset address: the slots behind it are cleared and go
down to WB. -/
example : clearedRun (programInputs [0x010000ef] fun _ => .low) 3=⟨true,true,false,false⟩ ∧
    clearedRun (programInputs [0x010000ef] fun _ => .low) 6=⟨false,false,false,true⟩ := by
  decide +kernel

end RichardCore.InertSlots
