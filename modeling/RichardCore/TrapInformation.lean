import RichardCore.Lifecycle
import RichardCore.Interrupts
import RichardCore.SequentialMachine

/-!
# What a synchronous trap records

The trap registers of the target mode describe the instruction in WB: its
address, the class of its exception and the value that goes with the class.
The classes are disjoint, so the priority order of the trap controller never
decides between two of them.
-/

namespace RichardCore.TrapInformation

open Packages Decoder Execute DataMemory CsrUnit TrapCtrl Hazard Pipeline Clocked Tracking
open Effects Harness Interrupts Lifecycle SequentialMachine

/-- Cause of an environment call. -/
def ecallCause : PrivMode → Word
  | .u => excEcallFromU
  | .s => excEcallFromS
  | .m => excEcallFromM

/-- Cause and trap value of an instruction, by its decoding, its address and
word, its effective address and the current mode. -/
inductive Reports (d : Decoded) (pc : Word) (word : BitVec 32) (addr : Word) (mode : PrivMode) :
    Word → Word → Prop where
  /-- Illegal instruction. -/
  | illegal (h : d.sys.illegalInstr=true) : Reports d pc word addr mode excInstIllegal (word.setWidth 64)
  /-- Illegal CSR access. -/
  | csr (hcsr : d.sys.isCsr=true)
      (h : csrIllegalAccess true d.sys.csrOp (d.imm.setWidth 12)=true) :
      Reports d pc word addr mode excInstIllegal (word.setWidth 64)
  /-- Breakpoint. -/
  | ebreak (h : d.sys.isEbreak=true) : Reports d pc word addr mode excBreakpoint pc
  /-- Environment call. -/
  | ecall (h : d.sys.isEcall=true) : Reports d pc word addr mode (ecallCause mode) 0
  /-- Misaligned load. -/
  | load (h : d.mem.isLoad=true) (hmisaligned : addrMisaligned d.mem.memSize addr=true) :
      Reports d pc word addr mode excLoadFault addr
  /-- Misaligned store. -/
  | store (h : d.mem.isStore=true) (hmisaligned : addrMisaligned d.mem.memSize addr=true) :
      Reports d pc word addr mode excStoreFault addr

/-- At most one of the classes an instruction is decoded into. -/
structure OneClass (d : Decoded) : Prop where
  /-- Illegal instructions. -/
  illegal : d.sys.illegalInstr=true → d.sys.isCsr=false ∧ d.sys.isEbreak=false ∧
    d.sys.isEcall=false ∧ d.mem.isLoad=false ∧ d.mem.isStore=false
  /-- CSR accesses. -/
  csr : d.sys.isCsr=true → d.sys.isEbreak=false ∧ d.sys.isEcall=false ∧ d.mem.isLoad=false ∧
    d.mem.isStore=false
  /-- Breakpoints. -/
  ebreak : d.sys.isEbreak=true → d.sys.isEcall=false ∧ d.mem.isLoad=false ∧ d.mem.isStore=false
  /-- Environment calls. -/
  ecall : d.sys.isEcall=true → d.mem.isLoad=false ∧ d.mem.isStore=false
  /-- Loads. -/
  load : d.mem.isLoad=true → d.mem.isStore=false

/-- The privileged instructions fall into one class. -/
theorem decodePrivileged_class (word : BitVec 32) (mode : BitVec 2) :
    ((decodePrivileged word mode).illegalInstr=true →
      (decodePrivileged word mode).isEbreak=false ∧ (decodePrivileged word mode).isEcall=false) ∧
    ((decodePrivileged word mode).isEbreak=true → (decodePrivileged word mode).isEcall=false) := by
  unfold decodePrivileged
  repeat' split
  all_goals simp [sysDefaults]

/-- The decoder puts every word into at most one class. -/
theorem decoder_oneClass (word : BitVec 32) (mode : BitVec 2) : OneClass (decoder word mode) := by
  cases hop : Opcode.ofBits (opcodeField word) with
  | none =>
    constructor <;> simp [decoder,hop,decodeDefaults,memDefaults,sysDefaults]
  | some code =>
    cases code with
    | system =>
      obtain ⟨hillegal,hebreak⟩ := decodePrivileged_class word mode
      have hcsr := decodePrivileged_isCsr word mode
      unfold decoder
      rw [hop]
      dsimp only
      split
      · constructor <;> simp_all [decodeDefaults,memDefaults]
      · split <;> constructor <;> simp [decodeDefaults,memDefaults,sysDefaults]
    | _ =>
      unfold decoder
      rw [hop]
      dsimp only
      repeat' split
      all_goals constructor <;> simp [decodeDefaults,memDefaults,sysDefaults]

/-- Disjoint classes give at most one report. -/
theorem Reports.unique {d : Decoded} {pc : Word} {word : BitVec 32} {addr : Word} {mode : PrivMode}
    (hclass : OneClass d) {cause value cause' value' : Word}
    (h : Reports d pc word addr mode cause value) (h' : Reports d pc word addr mode cause' value') :
    cause'=cause ∧ value'=value := by
  obtain ⟨hillegal,hcsr,hebreak,hecall,hload⟩ := hclass
  cases h <;> cases h' <;> first | exact ⟨rfl,rfl⟩ | simp_all

/-- Address sum of the instruction in EX: its first operand and immediate. -/
def effectiveAddr (s : CoreState) : Word := exRs1RdataFwd s+s.idEx.ctrl.imm

/-- A load or store leaves EX with its effective address. -/
theorem exOutput_access (s : CoreState) {word : BitVec 32} {mode : BitVec 2}
    (hctrl : s.idEx.ctrl=decoder word mode)
    (h : (decoder word mode).mem.isLoad=true ∨ (decoder word mode).mem.isStore=true) :
    (exOutput s).aluResult=effectiveAddr s := by
  obtain ⟨-,-,hexec,-⟩ := decoder_access word mode h
  change (exStage s.idEx.ctrl.exec s.idEx.pc (exRs1RdataFwd s) (exRs2RdataFwd s)
    s.idEx.ctrl.imm).aluResult=_
  unfold effectiveAddr
  rw [hctrl,hexec]
  rfl

/-- The exception the trap controller selects is a report of the instruction
in WB. -/
theorem syncException_reports {s : CoreState} {d : Decoded} (h : CarriesWb s.memWb d) (addr : Word)
    (haddr : d.mem.isLoad=true ∨ d.mem.isStore=true → s.memWb.aluResult=addr)
    (hfault : s.memWb.loadFault=true ∨ s.memWb.storeFault=true →
      s.memWb.faultAddr=s.memWb.aluResult) {cause value : Word}
    (hsome : syncException s.memWb.pc (wbWires s) PageFaults.none s.csr.privMode.bits=
      some (cause,value)) :
    Reports d s.memWb.pc s.memWb.instr addr s.csr.privMode cause value := by
  unfold syncException at hsome
  split at hsome
  · rename_i hillegal
    cases hsome
    change (s.memWb.illegalInstr || wbCsrIllegal s.memWb)=true at hillegal
    rw [Bool.or_eq_true,h.illegalInstr] at hillegal
    obtain hdecoded | hrejected := hillegal
    · exact .illegal hdecoded
    · unfold wbCsrIllegal at hrejected
      cases hreq : csrReq s.memWb with
      | false =>
        rw [hreq] at hrejected
        cases hrejected
      | true =>
        rw [hreq,csrAddr,h.csrOp,h.imm] at hrejected
        unfold csrReq at hreq
        rw [Bool.and_eq_true,h.isCsr] at hreq
        exact .csr hreq.1 hrejected
  split at hsome
  · rename_i hebreak
    cases hsome
    change s.memWb.isEbreak=true at hebreak
    exact .ebreak (h.isEbreak ▸ hebreak)
  split at hsome
  · rename_i hecall
    cases hsome
    change s.memWb.isEcall=true at hecall
    have hcause : (if s.csr.privMode.bits=PrivMode.u.bits then excEcallFromU
        else if s.csr.privMode.bits=PrivMode.s.bits then excEcallFromS else excEcallFromM)=
        ecallCause s.csr.privMode := by
      cases s.csr.privMode <;> rfl
    rw [hcause]
    exact .ecall (h.isEcall ▸ hecall)
  split at hsome
  · rename_i hload
    cases hsome
    change s.memWb.loadFault=true at hload
    have hvalue : (wbWires s).trapBadAddr=s.memWb.aluResult := hfault (.inl hload)
    rw [h.loadFault,Bool.and_eq_true] at hload
    rw [hvalue,haddr (.inl hload.1)]
    rw [haddr (.inl hload.1)] at hload
    exact .load hload.1 hload.2
  split at hsome
  · rename_i hstore
    cases hsome
    change s.memWb.storeFault=true at hstore
    have hvalue : (wbWires s).trapBadAddr=s.memWb.aluResult := hfault (.inr hstore)
    rw [h.storeFault,Bool.and_eq_true] at hstore
    rw [hvalue,haddr (.inr hstore.1)]
    rw [haddr (.inr hstore.1)] at hstore
    exact .store hstore.1 hstore.2
  · simp [PageFaults.none] at hsome

/-- Trap registers of machine mode. -/
def machineTrap (s : CsrState) : Word × Word × Word := (s.mepc,s.mcause,s.mtval)

/-- Trap registers of supervisor mode. -/
def supervisorTrap (s : CsrState) : Word × Word × Word := (s.sepc,s.scause,s.stval)

/-- A trap is recorded for the mode it goes to, supervisor mode if the current
mode is below M and medeleg delegates the cause, and machine mode otherwise;
the registers of the other mode stay. -/
def Recorded (s s' : CsrState) (pc cause value : Word) : Prop :=
  if s.privMode≠.m ∧ s.medeleg.getLsbD cause.toNat=true then
    s'.privMode=.s ∧ supervisorTrap s'=(pc,cause,value) ∧ machineTrap s'=machineTrap s
  else s'.privMode=.m ∧ machineTrap s'=(pc,cause,value) ∧ supervisorTrap s'=supervisorTrap s

/-- Exception causes are small. -/
theorem Reports.cause_index {d : Decoded} {pc : Word} {word : BitVec 32} {addr : Word}
    {mode : PrivMode} {cause value : Word} (h : Reports d pc word addr mode cause value) :
    (cause.setWidth 6).toNat=cause.toNat := by
  cases h with
  | ecall h => cases mode <;> rfl
  | _ => rfl

/-- An instruction with an exception of its own writes no CSR. -/
theorem csrWriteWire_exception {s : CoreState} (h : hasSyncException s=true) :
    csrWriteWire s=false := by
  rw [hasSyncException_eq] at h
  rw [csrWriteWire_eq]
  unfold csrReq
  cases htrap : hasTrap s.memWb with
  | true => simp
  | false =>
    rw [htrap,Bool.false_or] at h
    rw [h]
    simp

/-- The edge of a synchronous trap records it. -/
theorem coreStep_records {s : CoreState} {i : Inputs} (hrst : i.rst=false)
    (hint : hasInterrupt s i.irq=false) {cause value : Word}
    (hsome : syncException s.memWb.pc (wbWires s) PageFaults.none s.csr.privMode.bits=
      some (cause,value)) (hindex : (cause.setWidth 6).toNat=cause.toNat) :
    Recorded s.csr (coreStep s i).csr s.memWb.pc cause value := by
  have hexception : hasSyncException s=true := by
    unfold hasSyncException
    rw [hsome]
    rfl
  have htrigger : (trapWires s i.irq).trapTrigger=true := by
    rw [trapTrigger_eq,hexception]
    exact Bool.or_true _
  have hnone : interruptCause (s.csr.mstatus.getLsbD mstatusMieBit) i.irq=none :=
    Option.isNone_iff_eq_none.mp (by rw [←Option.not_isSome,Bool.not_eq_true']; exact hint)
  have hwrite : writesCsr (csrWires s i)=false := csrWriteWire_exception hexception
  have hphase : writePhase s.csr (csrWires s i)=tickCounters s.csr (csrWires s i).trapTrigger := by
    unfold writePhase
    rw [hwrite]
    rfl
  have hmepc : (csrWires s i).trapMepc=s.memWb.pc := if_pos htrigger
  have hmcause : (csrWires s i).trapMcause=cause := by
    change (if (trapWires s i.irq).trapTrigger=true then
      (interruptCause (s.csr.mstatus.getLsbD mstatusMieBit) i.irq).getD _ else 0)=_
    rw [if_pos htrigger,hnone,Option.getD_none,hsome]
    rfl
  have hmtval : (csrWires s i).trapMtval=value := by
    change (if (trapWires s i.irq).trapTrigger=true then
      if (interruptCause (s.csr.mstatus.getLsbD mstatusMieBit) i.irq).isSome then 0 else _ else 0)=_
    rw [if_pos htrigger,hnone,hsome]
    rfl
  have htoS : (csrWires s i).trapToSMode=true ↔
      s.csr.privMode≠.m ∧ s.csr.medeleg.getLsbD cause.toNat=true := by
    change ((trapWires s i.irq).trapTrigger && decide (s.csr.privMode.bits≠PrivMode.m.bits) &&
      (if (interruptCause (s.csr.mstatus.getLsbD mstatusMieBit) i.irq).isSome then s.csr.mideleg
        else s.csr.medeleg).getLsbD
        (((interruptCause (s.csr.mstatus.getLsbD mstatusMieBit) i.irq).getD
          ((syncException s.memWb.pc (wbWires s) PageFaults.none s.csr.privMode.bits).getD
            (0,0)).1).setWidth 6).toNat)=true ↔ _
    rw [htrigger,hnone,hsome,Option.getD_none,Option.getD_some,hindex]
    simp [PrivMode.bits_ne_m]
  unfold Recorded
  rw [coreStep_csr_trap s i hrst htrigger,hphase]
  unfold enterTrap
  rw [hmepc,hmcause,hmtval]
  split
  · rename_i hdelegated
    rw [htoS.mpr hdelegated]
    exact ⟨rfl,rfl,rfl⟩
  · rename_i hmachine
    rw [Bool.eq_false_of_not_eq_true fun hs => hmachine (htoS.mp hs)]
    exact ⟨rfl,rfl,rfl⟩

/-- In every run, at every synchronous exception that no interrupt overrides:
WB holds an instruction, fetched in an earlier cycle and checked in the mode
of its last ID cycle; exactly one report applies to it, and that report is
recorded with its fetch address for the target mode, while the trap registers
of the other mode stay. -/
theorem trap_information (inputs : ℕ → Inputs) (t : ℕ) (hrst : (inputs t).rst=false)
    (hint : hasInterrupt (trackedRun inputs t).core (inputs t).irq=false)
    (hexception : hasSyncException (trackedRun inputs t).core=true) :
    ∃ k fetch issue,t=issue+3 ∧ Life inputs k fetch issue ∧
    ∃ cause value,
      (∀ c v,Reports (decoder k.word k.mode.bits) k.pc k.word
          (effectiveAddr (trackedRun inputs (issue+1)).core)
          (trackedRun inputs t).core.csr.privMode c v ↔ c=cause ∧ v=value) ∧
      Recorded (trackedRun inputs t).core.csr (trackedRun inputs (t+1)).core.csr k.pc cause value := by
  obtain ⟨k,hwb,hpc,hword,hcarries⟩ := exception_instr (trackedRun_slotsOk inputs t) hexception
  obtain ⟨fetch,issue,rfl,hlife⟩ := wb_life hwb
  refine ⟨k,fetch,issue,rfl,hlife,?_⟩
  have hclass := decoder_oneClass k.word k.mode.bits
  have hex := (trackedRun_slotsOk inputs (issue+1)).ex
  rw [hlife.ex] at hex
  obtain ⟨-,-,hctrl⟩ := hex
  have haddr : (decoder k.word k.mode.bits).mem.isLoad=true ∨
      (decoder k.word k.mode.bits).mem.isStore=true →
      (trackedRun inputs (issue+3)).core.memWb.aluResult=
        effectiveAddr (trackedRun inputs (issue+1)).core := by
    intro haccess
    rw [hlife.completed]
    change (trackedRun inputs (issue+2)).core.exMem.aluResult=_
    rw [hlife.executed]
    exact exOutput_access _ hctrl haccess
  have hfault : (trackedRun inputs (issue+3)).core.memWb.loadFault=true ∨
      (trackedRun inputs (issue+3)).core.memWb.storeFault=true →
      (trackedRun inputs (issue+3)).core.memWb.faultAddr=
        (trackedRun inputs (issue+3)).core.memWb.aluResult := by
    rw [hlife.completed]
    intro hmisaligned
    exact if_pos (by rw [Bool.or_eq_true]; exact hmisaligned)
  obtain ⟨⟨cause,value⟩,hsome⟩ := Option.isSome_iff_exists.mp hexception
  have hreports := syncException_reports hcarries _ haddr hfault hsome
  rw [hpc,hword] at hreports
  have hrecorded := coreStep_records hrst hint hsome hreports.cause_index
  rw [hpc] at hrecorded
  refine ⟨cause,value,fun c v => ⟨hreports.unique hclass,?_⟩,hrecorded⟩
  rintro ⟨rfl,rfl⟩
  exact hreports

/-- LW x1,1(x0) at the reset address: the trap records the address of the
load, a load fault and the misaligned address. -/
theorem trap_information_load :
    machineTrap (trackedRun (programInputs [0x00102083] fun _ => .low) 5).core.csr=
      (0x80000000,excLoadFault,1) := by
  obtain ⟨k,fetch,issue,hissue,hlife,cause,value,hreports,hrecorded⟩ :=
    trap_information (programInputs [0x00102083] fun _ => .low) 4 rfl (by decide +kernel)
      (by decide +kernel)
  obtain rfl : issue=1 := by omega
  have hwb : (trackedRun (programInputs [0x00102083] fun _ => .low) 4).tags.wb=
      .instr ⟨⟨⟨0,0x80000000,0x00102083⟩,.m⟩,0x80000004,false⟩ := by decide +kernel
  have hslot := hlife.wb.symm.trans hwb
  cases hslot
  have haddr : effectiveAddr (trackedRun (programInputs [0x00102083] fun _ => .low) 2).core=1 := by
    decide +kernel
  rw [haddr] at hreports
  obtain ⟨rfl,rfl⟩ := (hreports excLoadFault 1).mp (.load (by decide) (by decide))
  unfold Recorded at hrecorded
  rw [if_neg (by decide +kernel)] at hrecorded
  exact hrecorded.2.1

end RichardCore.TrapInformation
