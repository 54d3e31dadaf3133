import RichardCore.Effects
import RichardCore.Harness

/-!
# Alignment of the fetch address

The fetch address has five sources: the next word, the target computed in
EX, a trap vector, mepc and sepc. Sequential steps and trap vectors keep
four-byte alignment. EX clears bit 0 of a target and no more, and the returns
use the exception PCs as they stand, so these three decide.
-/

namespace RichardCore.FetchAlignment

open Packages Decoder Execute DataMemory CsrUnit TrapCtrl Hazard Pipeline Clocked Tracking
open Effects Harness

/-- A multiple of four. -/
def FourAligned (addr : Word) : Prop := addr.toNat%4=0

instance (addr : Word) : Decidable (FourAligned addr) := inferInstanceAs (Decidable (_=_))

/-- Alignment is a matter of the two low bits. -/
theorem fourAligned_iff (addr : Word) :
    FourAligned addr ↔ addr.getLsbD 0=false ∧ addr.getLsbD 1=false := by
  unfold FourAligned BitVec.getLsbD
  rw [Nat.testBit_zero,Nat.testBit_succ,Nat.testBit_zero,decide_eq_false_iff_not,
    decide_eq_false_iff_not]
  omega

/-- With bit 0 cleared only bit 1 matters. -/
theorem fourAligned_clearBit (addr : Word) :
    FourAligned (addr&&&~~~1#64) ↔ addr.getLsbD 1=false := by
  rw [fourAligned_iff]
  simp

/-- Sums of aligned addresses are aligned. -/
theorem FourAligned.add {a b : Word} (ha : FourAligned a) (hb : FourAligned b) :
    FourAligned (a+b) := by
  unfold FourAligned at *
  rw [BitVec.toNat_add]
  omega

/-- A word followed by two zero bits is aligned. -/
theorem fourAligned_append (high : BitVec 62) : FourAligned (high++0b00#2) :=
  BitFields.append_toNat_mod high 0b00#2

/-- A left shift by two is aligned. -/
theorem fourAligned_shift (x : Word) : FourAligned (x<<<2) := by
  rw [fourAligned_iff]
  simp

/-- Stepping over one word neither gains nor loses alignment. -/
theorem fourAligned_next (pc : Word) : FourAligned (pc+4) ↔ FourAligned pc := by
  have hfour : (4 : Word).toNat=4 := rfl
  unfold FourAligned
  rw [BitVec.toNat_add,hfour]
  omega

/-- The first fetch address is aligned. -/
theorem resetPc_aligned : FourAligned resetPc := by decide

/-- Every trap vector entry is aligned. -/
theorem trapEntry_aligned (vectorBase : Word) (isInterrupt : Bool) (causeIndex : BitVec 6) :
    FourAligned (trapEntry vectorBase isInterrupt causeIndex) := by
  unfold trapEntry
  dsimp only
  split
  · exact (fourAligned_append _).add (fourAligned_shift _)
  · exact fourAligned_append _

/-- Base of the control transfer in EX: the PC of JAL and the branches, the
register operand of JALR. -/
def transferBase (s : CoreState) : Word :=
  if s.idEx.ctrl.exec.aluSrc1Sel then s.idEx.pc else exRs1RdataFwd s

/-- A taken transfer goes to base plus offset with bit 0 cleared. -/
theorem branchTarget_eq {x : Tracked} (h : SlotsOk x) (htaken : takenWire x.core=true) :
    (exWires x.core).branchTarget=
      (transferBase x.core+x.core.idEx.ctrl.imm)&&&~~~1#64 := by
  have htransfer := takenWire_transfer htaken
  have hslot := h.ex
  cases hex : x.tags.ex with
  | bubble b =>
    rw [hex] at hslot
    rw [hslot.2.jump,hslot.2.branch] at htransfer
    simp at htransfer
  | instr k =>
    rw [hex] at hslot
    obtain ⟨-,-,hctrl⟩ := hslot
    rw [hctrl] at htransfer
    obtain ⟨⟨hadd,himm,hword⟩,-,-⟩ := decoder_transfer k.word k.mode.bits htransfer
    unfold exWires exStage aluRawResult transferBase aluOperandA aluOperandB alu
    dsimp only
    rw [hctrl,hadd,himm,hword]
    rfl

/-- Every change of the fetch address in the cycle leads to an aligned one: an
executing mret finds mepc aligned, an executing sret finds sepc aligned, and
the sum of base and offset of a taken jump or branch has bit 1 clear. -/
def AlignedTransfers (x : Tracked) (i : Inputs) : Prop :=
  i.rst=false →
    ((trapWires x.core i.irq).mretEn=true → FourAligned x.core.csr.mepc) ∧
    ((trapWires x.core i.irq).mretEn=false → (trapWires x.core i.irq).sretEn=true →
      FourAligned x.core.csr.sepc) ∧
    (flushWire x.core i.irq=false → takenWire x.core=true →
      (transferBase x.core+x.core.idEx.ctrl.imm).getLsbD 1=false)

/-- Target of a flush: a vector entry, mepc or sepc. -/
theorem trapNextPc_cases (s : CoreState) (irq : IrqLines) (hflush : flushWire s irq=true) :
    ((trapWires s irq).mretEn=false ∧ (trapWires s irq).sretEn=false ∧
      FourAligned (trapWires s irq).trapNextPc) ∨
    ((trapWires s irq).mretEn=true ∧ (trapWires s irq).trapNextPc=s.csr.mepc) ∨
    ((trapWires s irq).mretEn=false ∧ (trapWires s irq).sretEn=true ∧
      (trapWires s irq).trapNextPc=s.csr.sepc) := by
  have hmret : (trapWires s irq).mretEn=(s.memWb.isMret && !(trapWires s irq).trapTrigger) := rfl
  have hsret : (trapWires s irq).sretEn=(s.memWb.isSret && !(trapWires s irq).trapTrigger) := rfl
  cases htrigger : (trapWires s irq).trapTrigger with
  | true =>
    left
    rw [htrigger] at hmret hsret
    rw [Bool.not_true,Bool.and_false] at hmret hsret
    refine ⟨hmret,hsret,?_⟩
    change FourAligned (if (trapWires s irq).trapTrigger=true then trapEntry _ _ _ else _)
    rw [if_pos htrigger]
    exact trapEntry_aligned _ _ _
  | false =>
    right
    have hnext : (trapWires s irq).trapNextPc=
        if (trapWires s irq).mretEn then s.csr.mepc
        else if (trapWires s irq).sretEn then s.csr.sepc else 0 := by
      change (if (trapWires s irq).trapTrigger=true then _ else _)=_
      rw [htrigger]
      rfl
    rw [hnext]
    cases hm : (trapWires s irq).mretEn with
    | true => exact .inl ⟨rfl,rfl⟩
    | false =>
      cases hs : (trapWires s irq).sretEn with
      | true => exact .inr ⟨rfl,rfl,rfl⟩
      | false =>
        rw [flushWire_parts,htrigger,hm,hs] at hflush
        cases hflush

/-- From an aligned fetch address the next one is aligned exactly when the
transfers of the cycle are. -/
theorem fourAligned_step {x : Tracked} (h : SlotsOk x) (i : Inputs)
    (hpc : FourAligned x.core.pc) :
    FourAligned (trackStep x i).core.pc ↔ AlignedTransfers x i := by
  unfold AlignedTransfers
  cases hrst : i.rst with
  | true =>
    rw [trackStep_reset x i hrst]
    exact iff_of_true resetPc_aligned fun habs => by cases habs
  | false =>
    have hstep : (trackStep x i).core.pc=_ := coreStep_pc x.core i hrst
    rw [hstep]
    cases hflush : flushWire x.core i.irq with
    | true =>
      rw [if_pos rfl]
      obtain ⟨hm,hs,haligned⟩ | ⟨hm,hnext⟩ | ⟨hm,hs,hnext⟩ := trapNextPc_cases x.core i.irq hflush
      · rw [hm,hs]
        simp [haligned]
      · rw [hm,hnext]
        simp
      · rw [hm,hs,hnext]
        simp
    | false =>
      obtain ⟨-,hm,hs⟩ := flushWire_false hflush
      rw [hm,hs]
      cases htaken : takenWire x.core with
      | true =>
        have htarget : FourAligned (exWires x.core).branchTarget ↔
            (transferBase x.core+x.core.idEx.ctrl.imm).getLsbD 1=false := by
          rw [branchTarget_eq h htaken]
          exact fourAligned_clearBit _
        simp [htarget]
      | false =>
        have hnext := (fourAligned_next x.core.pc).mpr hpc
        cases loadUseWire x.core with
        | true => simp [hpc]
        | false =>
          refine iff_of_true hnext fun _ => ?_
          simp

/-- In every run the fetch address is a multiple of four in every cycle
exactly when every cycle has aligned transfers. -/
theorem fetch_aligned_iff (inputs : ℕ → Inputs) :
    (∀ t,FourAligned (trackedRun inputs t).core.pc) ↔
      ∀ t,AlignedTransfers (trackedRun inputs t) (inputs t) := by
  constructor
  · intro haligned t
    exact (fourAligned_step (trackedRun_slotsOk inputs t) (inputs t) (haligned t)).mp
      (haligned (t+1))
  · intro htransfers t
    induction t with
    | zero => exact resetPc_aligned
    | succ t ih =>
      exact (fourAligned_step (trackedRun_slotsOk inputs t) (inputs t) ih).mpr (htransfers t)

/-- JAL x0,6 puts an address with bit 1 set into the PC. -/
theorem fetch_misaligned_jal :
    (trackedRun (programInputs [0x0060006f] fun _ => .low) 3).core.pc=0x80000006 ∧
    ¬FourAligned (trackedRun (programInputs [0x0060006f] fun _ => .low) 3).core.pc := by
  decide +kernel

end RichardCore.FetchAlignment
