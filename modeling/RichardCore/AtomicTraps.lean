import RichardCore.CsrStatus
import RichardCore.TrapInformation

/-!
# Atomic synchronous exceptions

An instruction that raises an exception leaves no trace of its own: no
register, no CSR write, no memory request. The trap entry itself changes a
fixed part of the CSR file.
-/

namespace RichardCore.AtomicTraps

open Packages BitFields DataMemory CsrUnit CsrStatus TrapCtrl Pipeline Clocked Tracking
open Effects Harness Interrupts Lifecycle TrapInformation

/-- Positions of MIE, MPIE and MPP. -/
def MachineStatus (j : ℕ) : Prop :=
  j=mstatusMieBit ∨ j=mstatusMpieBit ∨ j=mstatusMppLo ∨ j=mstatusMppHi

instance (j : ℕ) : Decidable (MachineStatus j) := inferInstanceAs (Decidable (_ ∨ _))

/-- What a trap into machine mode may change: MIE, MPIE and MPP, the three
trap registers of the mode, the mode, the recorded vector and the counters. -/
structure EntersM (s s' : CsrState) : Prop where
  /-- Every other register stays. -/
  frame : s'={s with
    mstatus := s'.mstatus
    mepc := s'.mepc
    mcause := s'.mcause
    mtval := s'.mtval
    privMode := .m
    trapVector := s.mtvec
    trapToS := false
    mcycle := s.mcycle+1
    time := s.time+1}
  /-- Every other status bit stays. -/
  status : ∀ j < 64,¬MachineStatus j → s'.mstatus.getLsbD j=s.mstatus.getLsbD j

/-- What a trap into supervisor mode may change: SIE, SPIE and SPP in both
status words, the three trap registers of the mode, the mode, the recorded
vector and the counters. -/
structure EntersS (s s' : CsrState) : Prop where
  /-- Every other register stays. -/
  frame : s'={s with
    mstatus := s'.mstatus
    sstatus := s'.sstatus
    sepc := s'.sepc
    scause := s'.scause
    stval := s'.stval
    privMode := .s
    trapVector := s.stvec
    trapToS := true
    mcycle := s.mcycle+1
    time := s.time+1}
  /-- Every other status bit stays. -/
  status : ∀ j < 64,¬SharedStatus j →
    s'.mstatus.getLsbD j=s.mstatus.getLsbD j ∧ s'.sstatus.getLsbD j=s.sstatus.getLsbD j

/-- A trap into machine mode keeps the other bits of mstatus. -/
theorem trapMstatus_bit (s : CsrState) {j : ℕ} (hj : j < 64) (h : ¬MachineStatus j) :
    (trapMstatus s).getLsbD j=s.mstatus.getLsbD j := by
  unfold MachineStatus at h
  unfold trapMstatus
  simp only [not_or] at h
  rw [getLsbD_setBit _ _ _ _ hj,if_neg h.2.2.2,getLsbD_setBit _ _ _ _ hj,if_neg h.2.2.1,
    getLsbD_setBit _ _ _ _ hj,if_neg h.1,getLsbD_setBit _ _ _ _ hj,if_neg h.2.1]

/-- A trap into supervisor mode keeps the other bits of sstatus. -/
theorem trapSstatus_bit (s : CsrState) {j : ℕ} (hj : j < 64) (h : ¬SharedStatus j) :
    (trapSstatus s).getLsbD j=s.sstatus.getLsbD j := by
  unfold SharedStatus at h
  unfold trapSstatus
  simp only [not_or] at h
  rw [getLsbD_setBit _ _ _ _ hj,if_neg h.2.2,getLsbD_setBit _ _ _ _ hj,if_neg h.1,
    getLsbD_setBit _ _ _ _ hj,if_neg h.2.1]

/-- Mirroring a word that shows the same supervisor bits changes nothing. -/
theorem mirror_self {x y : Word} (h : supervisorBits x=supervisorBits y) :
    mirrorMstatusToSstatus x y=x := by
  unfold supervisorBits at h
  simp only [Prod.mk.injEq] at h
  apply BitVec.eq_of_getLsbD_eq
  intro j hj
  rw [mirror_bit _ _ hj]
  split
  · rename_i hshared
    obtain rfl | rfl | rfl := hshared
    · exact h.1.symm
    · exact h.2.1.symm
    · exact h.2.2.symm
  · rfl

/-- The entry into machine mode of a coherent file. -/
theorem enterTrap_m {s : CsrState} (hc : Coherent s) {i : CsrIn} (hs : i.trapToSMode=false) :
    EntersM s (enterTrap s (tickCounters s true) i) := by
  have hmirror : mirrorMstatusToSstatus s.sstatus (trapMstatus s)=s.sstatus :=
    mirror_self (hc.trans (trapMstatus_supervisorBits s).symm)
  unfold enterTrap
  simp only [hs,Bool.false_eq_true,if_false,hmirror]
  exact ⟨rfl,fun j hj h => trapMstatus_bit s hj h⟩

/-- The entry into supervisor mode. -/
theorem enterTrap_s (s : CsrState) {i : CsrIn} (hs : i.trapToSMode=true) :
    EntersS s (enterTrap s (tickCounters s true) i) := by
  unfold enterTrap
  simp only [hs,if_true]
  refine ⟨rfl,fun j hj h => ⟨?_,trapSstatus_bit s hj h⟩⟩
  exact (mirror_bit _ _ hj).trans (if_neg h)

/-- The CSR file of the core stays coherent. -/
theorem trackedRun_coherent (inputs : ℕ → Inputs) (t : ℕ) :
    Coherent (trackedRun inputs t).core.csr := by
  have hstep : ∀ (x : Tracked) (i : Inputs),Coherent x.core.csr → Coherent (trackStep x i).core.csr :=
    fun x i h => csrStep_coherent x.core.csr (csrWires x.core i) h
  exact runFrom_always (fun x : Tracked => Coherent x.core.csr) csrReset_coherent hstep inputs t

/-- The edge of an exception: the trap entry and nothing else. -/
theorem coreStep_atomic {s : CoreState} {i : Inputs} (hc : Coherent s.csr) (hrst : i.rst=false)
    (hexception : hasSyncException s=true) :
    (coreStep s i).regs=s.regs ∧
    if (trapWires s i.irq).trapToSMode=true then EntersS s.csr (coreStep s i).csr
      else EntersM s.csr (coreStep s i).csr := by
  have hregs : regWriteWire s=false := by
    rw [regWriteWire_eq,hexception]
    exact Bool.and_false _
  have htrigger : (trapWires s i.irq).trapTrigger=true := by
    rw [trapTrigger_eq,hexception]
    exact Bool.or_true _
  have hwrite : writesCsr (csrWires s i)=false := csrWriteWire_exception hexception
  have hphase : writePhase s.csr (csrWires s i)=tickCounters s.csr true := by
    have hin : (csrWires s i).trapTrigger=true := htrigger
    unfold writePhase
    rw [hwrite,hin]
    rfl
  refine ⟨coreStep_regs_quiet s i hrst hregs,?_⟩
  rw [coreStep_csr_trap s i hrst htrigger,hphase]
  split
  · rename_i hs
    exact enterTrap_s s.csr hs
  · rename_i hs
    exact enterTrap_m hc (Bool.eq_false_of_not_eq_true hs)

/-- An access falls into no other class. -/
theorem access_class {d : Decoder.Decoded} (hclass : OneClass d)
    (haccess : d.mem.isLoad=true ∨ d.mem.isStore=true) :
    d.sys.illegalInstr=false ∧ d.sys.isEbreak=false ∧ d.sys.isEcall=false ∧ d.sys.isCsr=false := by
  have hno : ∀ {b : Bool},(b=true → d.mem.isLoad=false ∧ d.mem.isStore=false) → b=false := by
    intro b hb
    refine Bool.eq_false_of_not_eq_true fun h => ?_
    obtain ⟨hload,hstore⟩ := hb h
    rw [hload,hstore] at haccess
    simp at haccess
  exact ⟨hno fun h => (hclass.illegal h).2.2.2,hno fun h => (hclass.ebreak h).2,
    hno hclass.ecall,hno fun h => (hclass.csr h).2.2⟩

/-- An aligned access of one class raises nothing. -/
theorem aligned_no_exception {e : ExMem} {d : Decoder.Decoded} (hclass : OneClass d)
    (hcarries : CarriesMem e d) (haccess : d.mem.isLoad=true ∨ d.mem.isStore=true)
    (hload : loadAddrMisaligned e=false) (hstore : storeAddrMisaligned e=false) {s : CoreState}
    {rdata : Word} (hwb : s.memWb=memStage e rdata) : hasSyncException s=false := by
  obtain ⟨hillegal,hebreak,hecall,hcsr⟩ := access_class hclass haccess
  rw [hasSyncException_eq,hwb]
  simp only [hasTrap,wbCsrIllegal,csrReq,memStage,hcarries.sys,hillegal,hebreak,hecall,hcsr,hload,
    hstore,csrIllegalAccess]
  rfl

/-- An instruction with an exception requested nothing of the data memory. -/
theorem exception_no_request {e : ExMem} {d : Decoder.Decoded} (hclass : OneClass d)
    (hcarries : CarriesMem e d) {s : CoreState} {rdata : Word} (hwb : s.memWb=memStage e rdata)
    (hexception : hasSyncException s=true) :
    (dmemRequest e).readEn=false ∧ (dmemRequest e).writeEn=false := by
  have hone := aligned_no_exception hclass hcarries
  constructor
  · by_contra hread
    rw [Bool.not_eq_false] at hread
    change (e.mem.isLoad && !loadAddrMisaligned e)=true at hread
    rw [Bool.and_eq_true,Bool.not_eq_true',hcarries.mem] at hread
    obtain ⟨hload,haligned⟩ := hread
    have hstore : storeAddrMisaligned e=false := by
      unfold storeAddrMisaligned
      rw [hcarries.mem,hclass.load hload]
      rfl
    rw [hone (.inl hload) haligned hstore hwb] at hexception
    cases hexception
  · by_contra hwrite
    rw [Bool.not_eq_false] at hwrite
    change (e.mem.isStore && !storeAddrMisaligned e)=true at hwrite
    rw [Bool.and_eq_true,Bool.not_eq_true',hcarries.mem] at hwrite
    obtain ⟨hstore,haligned⟩ := hwrite
    have hload : loadAddrMisaligned e=false := by
      unfold loadAddrMisaligned
      rw [hcarries.mem,Bool.and_eq_false_iff]
      refine .inl (Bool.eq_false_of_not_eq_true fun h => ?_)
      rw [hclass.load h] at hstore
      cases hstore
    rw [hone (.inr hstore) hload haligned hwb] at hexception
    cases hexception

/-- In every run, at every synchronous exception, with or without an interrupt
in the same cycle: the edge leaves the register file alone and changes the CSR
file only as the entry into the selected mode does; and the instruction
requested neither a read nor a write when it was in MEM, one cycle before. -/
theorem exception_atomic (inputs : ℕ → Inputs) (t : ℕ) (hrst : (inputs t).rst=false)
    (hexception : hasSyncException (trackedRun inputs t).core=true) :
    ((trackedRun inputs (t+1)).core.regs=(trackedRun inputs t).core.regs ∧
      if (trapWires (trackedRun inputs t).core (inputs t).irq).trapToSMode=true then
        EntersS (trackedRun inputs t).core.csr (trackedRun inputs (t+1)).core.csr
      else EntersM (trackedRun inputs t).core.csr (trackedRun inputs (t+1)).core.csr) ∧
    ∃ k u,t=u+1 ∧ (trackedRun inputs t).tags.wb=.instr k ∧
      (trackedRun inputs u).tags.mem=.instr k ∧
      (dmemRequest (trackedRun inputs u).core.exMem).readEn=false ∧
      (dmemRequest (trackedRun inputs u).core.exMem).writeEn=false := by
  refine ⟨coreStep_atomic (trackedRun_coherent inputs t) hrst hexception,?_⟩
  obtain ⟨k,hwb,-⟩ := exception_instr (trackedRun_slotsOk inputs t) hexception
  obtain ⟨u,rfl,hmem,-,hcompleted⟩ := wb_pred hwb
  have hcarries := (trackedRun_slotsOk inputs u).mem
  rw [hmem] at hcarries
  exact ⟨k,u,rfl,hwb,hmem,exception_no_request (decoder_oneClass k.word k.mode.bits)
    hcarries.2.2 hcompleted hexception⟩

/-- LW x1,1(x0) at the reset address: x1 keeps its value, the file enters
machine mode and no read is requested. -/
theorem exception_atomic_load :
    (trackedRun (programInputs [0x00102083] fun _ => .low) 5).core.regs=
      (trackedRun (programInputs [0x00102083] fun _ => .low) 4).core.regs ∧
    EntersM (trackedRun (programInputs [0x00102083] fun _ => .low) 4).core.csr
      (trackedRun (programInputs [0x00102083] fun _ => .low) 5).core.csr ∧
    (dmemRequest (trackedRun (programInputs [0x00102083] fun _ => .low) 3).core.exMem).readEn=
      false := by
  obtain ⟨⟨hregs,henters⟩,k,u,hu,-,-,hread,-⟩ :=
    exception_atomic (programInputs [0x00102083] fun _ => .low) 4 rfl (by decide +kernel)
  obtain rfl : u=3 := by omega
  rw [if_neg (by decide +kernel)] at henters
  exact ⟨hregs,henters,hread⟩

end RichardCore.AtomicTraps
