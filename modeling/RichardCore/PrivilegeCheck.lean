import RichardCore.Effects
import RichardCore.Harness

/-!
# Privilege checks across mode changes

The decoder checks an instruction in the mode of its ID cycle; CSR accesses
and returns act in WB. Traps and returns are the only mode changes and flush
every slot but the one leaving EX, so that slot alone can commit under a
check made in another mode.
-/

namespace RichardCore.PrivilegeCheck

open Packages Decoder Execute DataMemory CsrUnit TrapCtrl Hazard Pipeline Clocked Tracking
open Effects Harness

/-- Privilege mode after the traps and returns of a cycle. -/
def nextMode (s : CoreState) (irq : IrqLines) : PrivMode :=
  let out := trapWires s irq
  if out.trapTrigger then if out.trapToSMode then .s else .m
  else if out.sretEn then if s.csr.sstatus.getLsbD sstatusSppBit then .s else .u
  else if out.mretEn then decodePrivMode (mppField s.csr.mstatus)
  else s.csr.privMode

/-- The privilege mode changes by traps and returns only. -/
theorem coreStep_privMode (s : CoreState) (i : Inputs) (hrst : i.rst=false) :
    (coreStep s i).csr.privMode=nextMode s i.irq := by
  rw [coreStep_csr]
  have hrstIn : (csrWires s i).rst=false := hrst
  have htrigger : (csrWires s i).trapTrigger=(trapWires s i.irq).trapTrigger := rfl
  have htoS : (csrWires s i).trapToSMode=(trapWires s i.irq).trapToSMode := rfl
  have hmret : (csrWires s i).mretEn=(trapWires s i.irq).mretEn := rfl
  have hsret : (csrWires s i).sretEn=(trapWires s i.irq).sretEn := rfl
  unfold csrStep nextMode enterTrap returnPhase
  dsimp only
  rw [hrstIn,htrigger,htoS,hmret,hsret]
  cases (trapWires s i.irq).trapTrigger <;> cases (trapWires s i.irq).trapToSMode <;>
    cases (trapWires s i.irq).mretEn <;> cases (trapWires s i.irq).sretEn <;>
    simp [returnM,returnS,writePhase_privMode]

/-- Without a flush the mode stays. -/
theorem nextMode_noFlush (s : CoreState) (irq : IrqLines) (h : flushWire s irq=false) :
    nextMode s irq=s.csr.privMode := by
  obtain ⟨htrigger,hmret,hsret⟩ := flushWire_false h
  simp [nextMode,htrigger,hmret,hsret]

/-- An instruction in EX that will have no effect in WB. -/
def SilentEx (s : CoreState) : Prop :=
  SilentMem (exOutput s) ∧ s.idEx.ctrl.sys.isCsr=false

/-- A trap or return that changes the mode meets no instruction in EX with an
effect in WB. -/
def ModeChangeClean (x : Tracked) (i : Inputs) : Prop :=
  i.rst=false → nextMode x.core i.irq≠x.core.csr.privMode →
    ∀ k,x.tags.ex=.instr k → SilentEx x.core

/-- Every slot past ID was checked in the current mode or has no effect in
WB. -/
structure Checked (x : Tracked) : Prop where
  /-- EX was checked in the current mode. -/
  ex : ∀ k,x.tags.ex=.instr k → k.mode=x.core.csr.privMode
  /-- MEM was, or is silent. -/
  mem : ∀ k,x.tags.mem=.instr k → k.mode=x.core.csr.privMode ∨
    SilentMem x.core.exMem ∧ x.core.exMem.sys.isCsr=false
  /-- WB was, or is silent. -/
  wb : ∀ k,x.tags.wb=.instr k → k.mode=x.core.csr.privMode ∨
    SilentWb x.core.memWb ∧ x.core.memWb.isCsr=false

/-- The reset state is checked. -/
theorem checked_reset (n : ℕ) : Checked ⟨coreReset,tagsReset n⟩ :=
  ⟨fun _ h => (nomatch h),fun _ h => (nomatch h),fun _ h => (nomatch h)⟩

/-- A clock edge keeps the checks current: only the slot leaving EX can meet
a mode change, and then it is silent. -/
theorem checked_step (x : Tracked) (i : Inputs) (h : Checked x) (hclean : ModeChangeClean x i) :
    Checked (trackStep x i) := by
  cases hrst : i.rst with
  | true =>
    rw [trackStep_reset x i hrst]
    exact checked_reset _
  | false =>
    have hmode : (trackStep x i).core.csr.privMode=nextMode x.core i.irq :=
      coreStep_privMode x.core i hrst
    refine ⟨?_,?_,?_⟩
    · intro k hk
      obtain ⟨hflush,-,-,-,f,-,rfl⟩ := ex_instr_inv hrst hk
      rw [hmode,nextMode_noFlush _ _ hflush]
    · intro k hk
      obtain ⟨hexMem,j,hj,rfl⟩ := mem_instr_inv hrst hk
      rw [hmode,hexMem]
      by_cases hsame : nextMode x.core i.irq=x.core.csr.privMode
      · left
        rw [hsame]
        exact h.ex j hj
      · right
        exact hclean hrst hsame j hj
    · intro k hk
      obtain ⟨hflush,hslot,hmemWb⟩ := wb_instr_inv hrst hk
      rw [hmode,hmemWb,nextMode_noFlush _ _ hflush]
      obtain hcurrent | ⟨hsilent,hcsr⟩ := h.mem k hslot
      · exact .inl hcurrent
      · exact .inr ⟨hsilent.memStage _,hcsr⟩

/-- Effect in WB in the sense of a privilege check: register write, CSR
access, return, or an exception. -/
def commitEffect (s : CoreState) : Bool :=
  regWriteWire s || csrReq s.memWb || hasSyncException s || s.memWb.isMret || s.memWb.isSret

/-- In every run whose mode changes all meet no effective instruction in EX,
every instruction with an effect in WB was checked in the mode in which it
commits. -/
theorem privilege_check_current (inputs : ℕ → Inputs) (t : ℕ)
    (hclean : ∀ u<t,ModeChangeClean (trackedRun inputs u) (inputs u)) (k : Executed)
    (hwb : (trackedRun inputs t).tags.wb=.instr k)
    (heffect : commitEffect (trackedRun inputs t).core=true) :
    k.mode=(trackedRun inputs t).core.csr.privMode := by
  have hchecked := runFrom_invariant Checked ModeChangeClean (checked_reset 0) checked_step t hclean
  obtain hcurrent | ⟨hsilent,hcsr⟩ := hchecked.wb k hwb
  · exact hcurrent
  · -- a silent slot without a CSR access has no effect
    have hreq : csrReq (trackedRun inputs t).core.memWb=false := by
      unfold csrReq
      change (trackedRun inputs t).core.memWb.isCsr=false at hcsr
      rw [hcsr]
      rfl
    have hsilentRun : SilentWb (trackedRun inputs t).core.memWb := hsilent
    unfold commitEffect at heffect
    rw [hsilentRun.regWrite,hsilentRun.syncException,hsilentRun.isMret,hsilentRun.isSret,hreq] at heffect
    simp [wbCsrIllegal,csrIllegalAccess,hreq] at heffect

/-- Instruction memory with a machine return at the reset address and ADDI
x1,x0,1 at the address it returns to. -/
def returnImem (pc : Word) : BitVec 32 :=
  if pc=resetPc then 0x30200073 else if pc=0 then 0x00100093 else nopInstr

/-- A machine return into user mode with a NOP behind it: the first user
instruction is checked and commits in user mode. -/
theorem privilege_check_after_mret :
    let inputs := sysInputs returnImem byteDevice (fun _ => 0) fun _ => .low
    PrivMode.u=(trackedRun inputs 9).core.csr.privMode :=
  privilege_check_current (sysInputs returnImem byteDevice (fun _ => 0) fun _ => .low) 9
    (by
      intro u hu hrst hmode k hk
      unfold SilentEx
      clear hk k
      revert u
      decide +kernel)
    ⟨⟨⟨5,0,0x00100093⟩,.u⟩,4,false⟩ (by decide +kernel) (by decide +kernel)

/-- MRET into user mode with ADDI x1,x0,1 two instructions behind it: the
addition was checked in machine mode and commits in user mode. -/
theorem privilege_check_stale :
    let inputs := programInputs [0x30200073,0x00000013,0x00100093] fun _ => .low
    (trackedRun inputs 6).tags.wb=.instr ⟨⟨⟨2,0x80000008,0x00100093⟩,.m⟩,0x8000000c,true⟩ ∧
    regWriteWire (trackedRun inputs 6).core=true ∧
    (trackedRun inputs 6).core.csr.privMode=.u := by
  decide +kernel

end RichardCore.PrivilegeCheck
