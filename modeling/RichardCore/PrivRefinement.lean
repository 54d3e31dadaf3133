import RichardCore.IsaRefinement
import RichardCore.PrivMachine
import RichardCore.TrapInformation
import RichardCore.TrapMachine

/-!
# The core runs privileged programs as the reference does

The sequential machine with traps against the machine of the privileged
architecture: every defined instruction in every mode, illegal words and
misaligned accesses, CSR accesses through the reference store, traps with
delegation, and returns.
-/

namespace RichardCore.PrivRefinement

open Packages Decoder Execute DataMemory CsrUnit TrapCtrl Pipeline Clocked Harness Effects
open SequentialMachine TrapMachine Isa Encodings Legality Datapath IsaCorrectness IsaMachine
open IsaRefinement CsrStatus CsrStore CsrTraps AliasedStore PrivMachine BitFields

/-- Both machines are in the same state. -/
structure SamePriv (c : SeqState ByteMemory) (s : PrivState) : Prop where
  /-- Program counter. -/
  pc : c.pc=s.pc
  /-- Registers. -/
  regs : c.regs=s.regs
  /-- Memory. -/
  memory : c.memory=s.memory
  /-- CSRs and mode. -/
  csrs : Follows c.csr s.csrs

/-- Exception of a completed instruction. -/
def exceptionOf (w : MemWb) (csr : CsrState) : Option (Word × Word) :=
  syncException w.pc (wbOf w csr) PageFaults.none csr.privMode.bits

/-- An exception is recorded before writeback or a rejected CSR access. -/
theorem exceptionOf_isSome (w : MemWb) (csr : CsrState) :
    (exceptionOf w csr).isSome=(hasTrap w || wbCsrIllegal w) :=
  hasSyncException_eq (alone w csr)

/-- Target of an exception. -/
def goesToS (csr : CsrState) (cause : Word) : Bool :=
  decide (csr.privMode.bits≠PrivMode.m.bits) && csr.medeleg.getLsbD (cause.setWidth 6).toNat

/-- Low lines raise no interrupt. -/
theorem interruptCause_low (enable : Bool) : interruptCause enable .low=none := by
  unfold interruptCause
  cases enable <;> rfl

/-- What the trap controller makes of an exception. -/
theorem trapOf_exception {w : MemWb} {csr : CsrState} {cause value : Word}
    (h : exceptionOf w csr=some (cause,value)) :
    trapOf w csr=⟨true,w.pc,cause,value,goesToS csr cause,false,false,true,true,
      trapEntry (if goesToS csr cause then csr.stvec else csr.mtvec) false (cause.setWidth 6)⟩ := by
  unfold exceptionOf at h
  unfold trapOf trapCtrl goesToS
  rw [interruptCause_low,h]
  simp

/-- Without an exception it passes the returns on. -/
theorem trapOf_none {w : MemWb} {csr : CsrState} (h : exceptionOf w csr=none) :
    trapOf w csr=⟨false,0,0,0,false,w.isMret,w.isSret,w.isMret || w.isSret,
      w.isMret || w.isSret,if w.isMret then csr.mepc else if w.isSret then csr.sepc else 0⟩ := by
  have hreturns : (wbOf w csr).trapIsMret=w.isMret ∧ (wbOf w csr).trapIsSret=w.isSret :=
    ⟨rfl,rfl⟩
  unfold exceptionOf at h
  unfold trapOf trapCtrl
  rw [interruptCause_low,h,hreturns.1,hreturns.2]
  simp

/-- An instruction with an exception writes no CSR. -/
theorem requested_exception {w : MemWb} (csr : CsrState) (h : (hasTrap w || wbCsrIllegal w)=true) :
    requested (csrInTrap w csr)=none := by
  cases hrequested : requested (csrInTrap w csr) with
  | none => rfl
  | some request =>
    obtain ⟨a,op,data⟩ := request
    have hwrites := ((writesCsr_requested (csrInTrap w csr)).1 a op data hrequested).1
    rw [writesCsr_eq] at hwrites
    change (csrReq w && !wbCsrIllegal w && _)=true at hwrites
    rw [Bool.and_eq_true,Bool.and_eq_true] at hwrites
    have hreq := hwrites.1.1
    unfold csrReq at hreq
    obtain htrap | hillegal := (Bool.or_eq_true _ _).mp h
    · rw [htrap] at hreq
      simp at hreq
    · rw [hillegal] at hwrites
      simp at hwrites

/-- Clearing the mode bits of a vector. -/
theorem vector_base (x : Word) : x.extractLsb' 2 62++0b00#2=x&&&~~~3#64 := by
  have hthree : ∀ j < 64,(3#64).getLsbD j=decide (j < 2) := by decide
  apply BitVec.eq_of_getLsbD_eq
  intro j hj
  rw [BitVec.getLsbD_append,BitVec.getLsbD_and,BitVec.getLsbD_not,hthree j hj,
    BitVec.getLsbD_extractLsb']
  by_cases hlow : j < 2
  · simp [hlow]
  · have hback : 2+(j-2)=j := by omega
    have hin : j-2 < 62 := by omega
    simp [hlow,hj,hback,hin]

section Step

variable {imem : Word → BitVec 32} {c : SeqState ByteMemory} {s : PrivState} (h : SamePriv c s)

include h

/-- CSRs read alike. -/
theorem SamePriv.read (csr : Csr) : s.read csr=csrRdata c.csr csr.addr :=
  read_of_matches h.csrs.file csr

/-- Both delegate alike. -/
theorem SamePriv.delegated {cause : Word} (hindex : (cause.setWidth 6).toNat=cause.toNat) :
    goesToS c.csr cause=s.delegated cause := by
  unfold goesToS PrivState.delegated
  rw [h.read,hindex,h.csrs.mode]
  have hmode : decide (s.csrs.mode.bits≠PrivMode.m.bits)=decide (s.csrs.mode≠.m) := by
    cases s.csrs.mode <;> decide
  rw [hmode]
  rfl

/-- An exception is a trap of the reference. -/
theorem trapStep_raise {cause value : Word}
    (hexception : exceptionOf (seqMem imem byteDevice c) c.csr=some (cause,value))
    (hindex : (cause.setWidth 6).toNat=cause.toNat)
    (hmemory : byteDevice.edge c.memory (seqReq imem c)=c.memory) :
    SamePriv (trapStep imem byteDevice c) (s.raise cause value) := by
  have htrap := trapOf_exception hexception
  have hsome :
      (hasTrap (seqMem imem byteDevice c) || wbCsrIllegal (seqMem imem byteDevice c))=true := by
    rw [←exceptionOf_isSome _ c.csr,hexception]
    rfl
  have hpc : (seqMem imem byteDevice c).pc=s.pc := h.pc
  have htoS := h.delegated hindex
  refine ⟨?_,?_,?_,?_⟩
  · have hflush : (trapSeq imem byteDevice c).trapFlushReq=true :=
      congrArg TrapOut.trapFlushReq htrap
    have hnext : (trapSeq imem byteDevice c).trapNextPc=_ := congrArg TrapOut.trapNextPc htrap
    change (if (trapSeq imem byteDevice c).trapFlushReq then _ else _)=_
    rw [hflush,if_pos rfl,hnext,htoS]
    unfold trapEntry PrivState.raise
    rw [vector_base]
    simp only [Bool.false_eq_true,and_false,if_false]
    cases s.delegated cause <;> rw [h.read] <;> rfl
  · have hquiet : (seqWb imem byteDevice c).regWriteEn=false := by
      change ((seqMem imem byteDevice c).wb.regWriteEn && !(hasTrap _ || wbCsrIllegal _))=false
      rw [hsome]
      exact Bool.and_false _
    change regfileWrite c.regs _=s.regs
    unfold regfileWrite
    rw [hquiet,if_neg fun hcond => absurd hcond.1 (by decide),h.regs]
  · exact hmemory.trans h.memory
  · have hstep := follows_step h.csrs (csrInTrap (seqMem imem byteDevice c) c.csr)
    have hnone := requested_exception c.csr hsome
    have hstore : storeStep s.csrs.store (csrInTrap (seqMem imem byteDevice c) c.csr)=
        tick s.csrs.store := by
      unfold storeStep
      rw [hnone]
    have hheld : held s.csrs.store (csrInTrap (seqMem imem byteDevice c) c.csr)=
        uncounted s.csrs.store := by
      unfold held writesInstret uncounted
      rw [hnone,hstore]
      rfl
    have hin : (csrInTrap (seqMem imem byteDevice c) c.csr).trapTrigger=true ∧
        (csrInTrap (seqMem imem byteDevice c) c.csr).trapToSMode=goesToS c.csr cause ∧
        (csrInTrap (seqMem imem byteDevice c) c.csr).trapMepc=(seqMem imem byteDevice c).pc ∧
        (csrInTrap (seqMem imem byteDevice c) c.csr).trapMcause=cause ∧
        (csrInTrap (seqMem imem byteDevice c) c.csr).trapMtval=value := by
      unfold csrInTrap
      dsimp only
      rw [htrap]
      exact ⟨rfl,rfl,rfl,rfl,rfl⟩
    obtain ⟨htrigger,hmode,hmepc,hcause,hvalue⟩ := hin
    have hnotReset : (csrInTrap (seqMem imem byteDevice c) c.csr).rst=false := rfl
    unfold refStep at hstep
    rw [hnotReset,if_neg (by decide),if_pos htrigger,hheld,hmode,hmepc,hcause,hvalue,htoS,hpc]
      at hstep
    exact hstep

/-- A return without an exception is a return of the reference. -/
theorem trapStep_return {target : Csr} {next : RefState}
    (hnone : exceptionOf (seqMem imem byteDevice c) c.csr=none)
    (hcsr : (seqMem imem byteDevice c).isCsr=false)
    (hwb : (seqMem imem byteDevice c).wb.regWriteEn=false)
    (hkind : (seqMem imem byteDevice c).isMret=true ∧ (seqMem imem byteDevice c).isSret=false ∧
        target=.mepc ∧ next=refMret s.csrs (tick s.csrs.store) ∨
      (seqMem imem byteDevice c).isMret=false ∧ (seqMem imem byteDevice c).isSret=true ∧
        target=.sepc ∧ next=refSret s.csrs (tick s.csrs.store))
    (hmemory : byteDevice.edge c.memory (seqReq imem c)=c.memory) :
    SamePriv (trapStep imem byteDevice c) ⟨s.read target,s.regs,s.memory,next⟩ := by
  have htrap := trapOf_none hnone
  have hregs : regfileWrite c.regs (seqWb imem byteDevice c)=s.regs := by
    have hquiet : (seqWb imem byteDevice c).regWriteEn=false := by
      change ((seqMem imem byteDevice c).wb.regWriteEn && _)=false
      rw [hwb]
      rfl
    unfold regfileWrite
    rw [hquiet,if_neg fun hcond => absurd hcond.1 (by decide),h.regs]
  have hrequest : requested (csrInTrap (seqMem imem byteDevice c) c.csr)=none := by
    have hreq : (csrInTrap (seqMem imem byteDevice c) c.csr).csrReq=false := by
      change ((seqMem imem byteDevice c).isCsr && _)=false
      rw [hcsr]
      rfl
    unfold requested
    rw [hreq]
  have hstore : storeStep s.csrs.store (csrInTrap (seqMem imem byteDevice c) c.csr)=
      tick s.csrs.store := by
    unfold storeStep
    rw [hrequest]
  have hstep := follows_step h.csrs (csrInTrap (seqMem imem byteDevice c) c.csr)
  have hnotReset : (csrInTrap (seqMem imem byteDevice c) c.csr).rst=false := rfl
  have hin : (csrInTrap (seqMem imem byteDevice c) c.csr).trapTrigger=false ∧
      (csrInTrap (seqMem imem byteDevice c) c.csr).mretEn=(seqMem imem byteDevice c).isMret ∧
      (csrInTrap (seqMem imem byteDevice c) c.csr).sretEn=(seqMem imem byteDevice c).isSret := by
    unfold csrInTrap
    dsimp only
    rw [htrap]
    exact ⟨rfl,rfl,rfl⟩
  unfold refStep at hstep
  rw [hnotReset,hin.1,hin.2.1,hin.2.2,hstore] at hstep
  have hpc : (trapStep imem byteDevice c).pc=
      if (trapSeq imem byteDevice c).trapFlushReq then (trapSeq imem byteDevice c).trapNextPc
      else seqNextPc imem c := rfl
  have hseq : trapSeq imem byteDevice c=_ := htrap
  rw [hseq] at hpc
  obtain ⟨hmret,hsret,rfl,rfl⟩ | ⟨hmret,hsret,rfl,rfl⟩ := hkind
  · rw [hmret,hsret] at hpc hstep
    exact ⟨hpc.trans (h.read .mepc).symm,hregs,hmemory.trans h.memory,hstep⟩
  · rw [hmret,hsret] at hpc hstep
    exact ⟨hpc.trans (h.read .sepc).symm,hregs,hmemory.trans h.memory,hstep⟩

/-- Without exception and return the machine with traps takes a step of the
plain one, and the CSRs follow their reference. -/
theorem trapStep_plain (hquiet : (trapSeq imem byteDevice c).trapFlushReq=false) :
    trapStep imem byteDevice c=seqStep imem byteDevice c ∧
    Follows (seqStep imem byteDevice c).csr
      ⟨storeStep s.csrs.store (csrInOf (seqMem imem byteDevice c)),s.csrs.mode⟩ := by
  have hin : csrInTrap (seqMem imem byteDevice c) c.csr=csrInOf (seqMem imem byteDevice c) :=
    csrInTrap_quiet hquiet
  refine ⟨?_,follows_step h.csrs (csrInOf (seqMem imem byteDevice c))⟩
  unfold trapStep seqStep
  rw [hquiet,hin]
  rfl

end Step

/-- System control of an instruction outside the base set. -/
def sysOf : SysInstr → SysCtrl
  | .fence _ _ _ => {sysDefaults with isFence := true}
  | .fenceI _ _ _ => {sysDefaults with isFenceI := true}
  | .csr op _ _ _ => {sysDefaults with isCsr := true, csrOp := op.code}
  | .priv .ecall => {sysDefaults with isEcall := true}
  | .priv .ebreak => {sysDefaults with isEbreak := true}
  | .priv .mret => {sysDefaults with isMret := true}
  | .priv .sret => {sysDefaults with isSret := true}
  | .priv .wfi => {sysDefaults with isWfi := true}
  | .sfenceVma _ _ => {sysDefaults with isSfenceVma := true}

/-- What the stages see of an instruction outside the base set: its system
control, and for CSR instructions the operand fields. -/
structure DecodesSys (i : SysInstr) (d : Decoded) : Prop where
  /-- No execution. -/
  exec : d.exec=execDefaults
  /-- No memory access. -/
  mem : d.mem=memDefaults
  /-- System control. -/
  sys : d.sys=sysOf i
  /-- Only CSR instructions write a register. -/
  wb : d.sys.isCsr=false → d.wb.regWriteEn=false
  /-- Fields of CSR instructions. -/
  csr : ∀ op addr source rd,i=.csr op addr source rd →
    d.rs1Addr=source ∧ d.imm=addr.signExtend 64 ∧ d.wb=⟨true,rd,0⟩

/-- Permitted instructions are decoded as what they are. -/
theorem decode_encodeSys (i : SysInstr) (mode : PrivMode) (h : i.permitted mode=true) :
    DecodesSys i (decoder (encodeSys i) mode.bits) := by
  have hsystem : opcodeField (encodeSys i)=Opcode.system.bits → funct3 (encodeSys i)=0 →
      decodePrivileged (encodeSys i) mode.bits=sysOf i → (∀ a b c d,i≠.csr a b c d) →
      DecodesSys i (decoder (encodeSys i) mode.bits) := by
    intro hop hf3 hsys hno
    unfold decoder
    rw [hop,Opcode.ofBits_bits,hf3]
    exact ⟨rfl,rfl,hsys,fun _ => rfl,fun a b c d hi => absurd hi (hno a b c d)⟩
  cases i with
  | fence imm rs1 rd =>
    obtain ⟨hop,-,hf3,-⟩ := iType_fields rs1 rd 0b000 imm .miscMem
    unfold decoder
    rw [encodeSys,hop,Opcode.ofBits_bits,hf3]
    exact ⟨rfl,rfl,rfl,fun _ => rfl,fun _ _ _ _ hi => by cases hi⟩
  | fenceI imm rs1 rd =>
    obtain ⟨hop,-,hf3,-⟩ := iType_fields rs1 rd 0b001 imm .miscMem
    unfold decoder
    rw [encodeSys,hop,Opcode.ofBits_bits,hf3]
    exact ⟨rfl,rfl,rfl,fun _ => rfl,fun _ _ _ _ hi => by cases hi⟩
  | csr op addr source rd =>
    obtain ⟨hop,hrd,hf3,hrs1,himm,-⟩ := iType_fields source rd op.code addr .system
    have hpermitted : csrPermitted mode addr=true := h
    have hcode : op.code≠0 := by cases op <;> decide
    unfold decoder decodeDefaults
    rw [encodeSys,hop,Opcode.ofBits_bits,hf3,hrd,hrs1,himm,csrAddrField_iType,csrAccessAllowed_eq,
      hpermitted]
    dsimp only
    rw [if_neg hcode,if_pos rfl]
    refine ⟨rfl,rfl,rfl,fun hcsr => (by cases hcsr),fun _ _ _ _ hi => ?_⟩
    cases hi
    exact ⟨rfl,rfl,rfl⟩
  | priv op =>
    obtain ⟨hop,-,hf3,-⟩ := iType_fields 0 0 0b000 op.code .system
    refine hsystem hop hf3 ?_ fun _ _ _ _ hi => by cases hi
    have hcode : funct7 (encodeSys (.priv op))++rs2Field (encodeSys (.priv op))=op.code := by
      rw [←csrAddrField_eq]
      exact csrAddrField_iType _ _ _ _ _
    have hpermitted : op.permitted mode=true := h
    unfold decodePrivileged
    rw [hcode]
    cases op <;> cases mode <;> first | rfl | cases hpermitted
  | sfenceVma rs1 rs2 =>
    obtain ⟨hop,-,hf3,-,hrs2,hf7⟩ := rType_fields sfenceCode rs1 rs2 0 0b000 .system
    refine hsystem hop hf3 ?_ fun _ _ _ _ hi => by cases hi
    have hpermitted : sfencePermitted mode=true := h
    unfold decodePrivileged
    rw [encodeSys,hf7,hrs2,sysOf]
    -- the function code differs from the five others whatever rs2 is
    clear hop hf3 hrs2 hf7 hsystem h
    revert rs2
    cases mode with
    | u => cases hpermitted
    | s => decide
    | m => decide

section Idle

variable {imem : Word → BitVec 32} {c : SeqState ByteMemory}
  (hmem : (seqId imem c).ctrl.mem=memDefaults)

include hmem

/-- Without memory control an instruction raises no fault and leaves the
memory alone. -/
theorem idle_memory : (seqMem imem byteDevice c).loadFault=false ∧
    (seqMem imem byteDevice c).storeFault=false ∧
    byteDevice.edge c.memory (seqReq imem c)=c.memory := by
  have hex : (seqEx imem c).mem=memDefaults := hmem
  have hstore : (seqReq imem c).writeEn=false := by
    change ((seqEx imem c).mem.isStore && _)=false
    rw [hex]
    rfl
  refine ⟨?_,?_,?_⟩
  · change ((seqEx imem c).mem.isLoad && _)=false
    rw [hex]
    rfl
  · change ((seqEx imem c).mem.isStore && _)=false
    rw [hex]
    rfl
  · unfold DataDevice.edge
    rw [hstore]
    rfl

/-- Its exceptions by priority. -/
theorem idle_exception :
    exceptionOf (seqMem imem byteDevice c) c.csr=
      if (seqMem imem byteDevice c).illegalInstr || wbCsrIllegal (seqMem imem byteDevice c) then
        some (excInstIllegal,(imem c.pc).setWidth 64)
      else if (seqMem imem byteDevice c).isEbreak then some (excBreakpoint,c.pc)
      else if (seqMem imem byteDevice c).isEcall then some (callCause c.csr.privMode,0)
      else none := by
  obtain ⟨hload,hstore,-⟩ := idle_memory hmem
  have hcause : (if c.csr.privMode.bits=PrivMode.u.bits then excEcallFromU
      else if c.csr.privMode.bits=PrivMode.s.bits then excEcallFromS else excEcallFromM)=
      callCause c.csr.privMode := by
    cases c.csr.privMode <;> rfl
  unfold exceptionOf syncException wbOf wbStage
  dsimp only
  rw [hload,hstore,hcause]
  rfl

omit hmem in
/-- Without a transfer it falls through. -/
theorem idle_next (hjump : (seqId imem c).ctrl.exec.isJump=false)
    (hbranch : (seqId imem c).ctrl.exec.isBranch=false) : seqNextPc imem c=c.pc+4 := by
  have htaken : (exOf (seqId imem c)).branchTaken=false := by
    simp only [exOf,exStage,hjump,hbranch]
    rfl
  unfold seqNextPc
  rw [htaken]
  rfl

end Idle

/-- Misaligned loads raise a fault. -/
theorem load_misaligned (width : LoadOp) {addr : Word} (h : ¬addr.toNat%width.bytes=0) :
    addrMisaligned width.code addr=true := by
  have hbytes : storeBytes width.code=width.bytes := by cases width <;> rfl
  rw [addrMisaligned_eq _ addr (by cases width <;> decide),hbytes]
  exact decide_eq_true h

/-- Misaligned stores raise a fault. -/
theorem store_misaligned (width : StoreOp) {addr : Word} (h : ¬addr.toNat%width.bytes=0) :
    addrMisaligned width.code addr=true := by
  have hbytes : storeBytes width.code=width.bytes := by cases width <;> rfl
  rw [addrMisaligned_eq _ addr (by cases width <;> decide),hbytes]
  exact decide_eq_true h

section Instructions

variable {imem : Word → BitVec 32} {c : SeqState ByteMemory} {s : PrivState} (h : SamePriv c s)

include h

/-- The decoder sees the word in the mode of the reference. -/
theorem SamePriv.decoded : (seqId imem c).ctrl=decoder (imem c.pc) s.csrs.mode.bits := by
  rw [←h.csrs.mode]
  rfl

/-- Words that encode nothing are illegal instructions. -/
theorem trapStep_illegal (hundefined : ¬Defined (imem c.pc) s.csrs.mode)
    (hreserved : acceptsReserved (imem c.pc) s.csrs.mode=false) :
    SamePriv (trapStep imem byteDevice c) (s.raise excInstIllegal ((imem c.pc).setWidth 64)) := by
  have hflag := ((illegal_iff_undefined (imem c.pc) s.csrs.mode).mpr hreserved).mpr hundefined
  have hmem : (seqId imem c).ctrl.mem=memDefaults := by
    rw [h.decoded]
    exact (decoder_illegal _ _ hflag).1
  have hillegal : (seqMem imem byteDevice c).illegalInstr=true := by
    change (seqId imem c).ctrl.sys.illegalInstr=true
    rw [h.decoded]
    exact hflag
  refine trapStep_raise h ?_ rfl (idle_memory hmem).2.2
  rw [idle_exception hmem,hillegal]
  rfl

/-- Base instructions raise nothing but misaligned accesses. -/
theorem base_flags {i : Instr} (hword : imem c.pc=encode i) :
    (seqMem imem byteDevice c).illegalInstr=false ∧ (seqMem imem byteDevice c).isEbreak=false ∧
    (seqMem imem byteDevice c).isEcall=false ∧ wbCsrIllegal (seqMem imem byteDevice c)=false ∧
    csrReq (seqMem imem byteDevice c)=false ∧ (seqMem imem byteDevice c).isMret=false ∧
    (seqMem imem byteDevice c).isSret=false := by
  have hsys : (seqId imem c).ctrl.sys=sysDefaults := by
    rw [h.decoded,hword]
    exact decode_sys i _
  have hcsr : (seqMem imem byteDevice c).isCsr=false := by
    change (seqId imem c).ctrl.sys.isCsr=false
    rw [hsys]
    rfl
  have hrequest : csrReq (seqMem imem byteDevice c)=false := by
    unfold csrReq
    rw [hcsr]
    rfl
  have hrejected : wbCsrIllegal (seqMem imem byteDevice c)=false := by
    unfold wbCsrIllegal
    rw [hrequest]
    rfl
  rw [hrequest,hrejected]
  change (seqId imem c).ctrl.sys.illegalInstr=false ∧ (seqId imem c).ctrl.sys.isEbreak=false ∧
    (seqId imem c).ctrl.sys.isEcall=false ∧ false=false ∧ false=false ∧
    (seqId imem c).ctrl.sys.isMret=false ∧ (seqId imem c).ctrl.sys.isSret=false
  rw [hsys]
  exact ⟨rfl,rfl,rfl,rfl,rfl,rfl,rfl⟩

/-- Base instructions with aligned accesses neither trap nor return. -/
theorem base_quiet {i : Instr} (hword : imem c.pc=encode i) (haligned : Aligned i s.regs) :
    (trapSeq imem byteDevice c).trapFlushReq=false := by
  obtain ⟨hillegal,hebreak,hecall,hrejected,-,hmret,hsret⟩ := base_flags h hword
  have haccess : AlignedAccess (seqEx imem c) := by
    have hid : seqId imem c=idOf (encode i) c.csr.privMode s.pc s.regs := by
      unfold seqId
      rw [hword,h.pc,h.regs]
    unfold seqEx
    rw [hid]
    exact alignedAccess_encode i c.csr.privMode s.pc s.regs haligned
  have hload : (seqMem imem byteDevice c).loadFault=false := haccess.load
  have hstore : (seqMem imem byteDevice c).storeFault=false := haccess.store
  change (trapOf (seqMem imem byteDevice c) c.csr).trapFlushReq=false
  rw [trapOf_flush,hrejected,hmret,hsret]
  unfold hasTrap
  rw [hillegal,hecall,hebreak,hload,hstore]
  rfl

/-- Base instructions at aligned addresses. -/
theorem trapStep_base {i : Instr} (hword : imem c.pc=encode i) (hpc : s.pc.toNat%4=0) :
    SamePriv (trapStep imem byteDevice c) (s.base i) := by
  obtain ⟨hillegal,hebreak,hecall,hrejected,hrequest,-,-⟩ := base_flags h hword
  unfold PrivState.base
  split
  · rename_i haligned
    have hquiet := base_quiet h hword haligned
    obtain ⟨hplain,hcsrs⟩ := trapStep_plain h hquiet
    have hstore : storeStep s.csrs.store (csrInOf (seqMem imem byteDevice c))=
        tick s.csrs.store := by
      have hnone : requested (csrInOf (seqMem imem byteDevice c))=none := by
        have hreq : (csrInOf (seqMem imem byteDevice c)).csrReq=false := hrequest
        unfold requested
        rw [hreq]
      unfold storeStep
      rw [hnone]
    rw [hstore] at hcsrs
    have hisa := seqStep_isa (s := ⟨s.pc,s.regs,s.memory⟩) ⟨h.pc,h.regs,h.memory⟩ hword hpc haligned
    rw [hplain]
    exact ⟨hisa.pc,hisa.regs,hisa.memory,hcsrs⟩
  · rename_i hmisaligned
    have hex : seqEx imem c=exMemOf (idOf (encode i) c.csr.privMode s.pc s.regs) := by
      unfold seqEx seqId
      rw [hword,h.pc,h.regs]
    have hraise : ∀ cause,(cause.setWidth 6).toNat=cause.toNat →
        exceptionOf (seqMem imem byteDevice c) c.csr=some (cause,(seqEx imem c).aluResult) →
        (seqReq imem c).writeEn=false → (misaligned i s.regs)=(cause,(seqEx imem c).aluResult) →
        SamePriv (trapStep imem byteDevice c)
          (s.raise (misaligned i s.regs).1 (misaligned i s.regs).2) := by
      intro cause hindex hexception hwrite hreport
      rw [hreport]
      refine trapStep_raise h hexception hindex ?_
      unfold DataDevice.edge
      rw [hwrite]
      rfl
    have hsync : exceptionOf (seqMem imem byteDevice c) c.csr=
        if (seqMem imem byteDevice c).loadFault then
          some (excLoadFault,(seqMem imem byteDevice c).faultAddr)
        else if (seqMem imem byteDevice c).storeFault then
          some (excStoreFault,(seqMem imem byteDevice c).faultAddr)
        else none := by
      unfold exceptionOf syncException wbOf wbStage
      dsimp only
      rw [hillegal,hrejected,hebreak,hecall]
      rfl
    cases i with
    | load width rd rs1 imm =>
      have haddr : addrMisaligned width.code (reg s.regs rs1+imm.signExtend 64)=true :=
        load_misaligned width hmisaligned
      rw [exMemOf_access s.pc s.regs (decode_load _ _ _ _ _)] at hex
      have hfault : (seqMem imem byteDevice c).loadFault=true := by
        change loadAddrMisaligned (seqEx imem c)=true
        rw [hex]
        exact haddr
      have hvalue : (seqMem imem byteDevice c).faultAddr=(seqEx imem c).aluResult :=
        if_pos (by rw [show loadAddrMisaligned (seqEx imem c)=true from hfault]; rfl)
      rw [hfault,if_pos rfl,hvalue] at hsync
      refine hraise excLoadFault rfl hsync ?_ ?_
      · unfold seqReq
        rw [hex]
        rfl
      · rw [hex]
        rfl
    | store width rs1 rs2 imm =>
      have haddr : addrMisaligned width.code (reg s.regs rs1+imm.signExtend 64)=true :=
        store_misaligned width hmisaligned
      rw [exMemOf_access s.pc s.regs (decode_store _ _ _ _ _)] at hex
      have hload : (seqMem imem byteDevice c).loadFault=false := by
        change loadAddrMisaligned (seqEx imem c)=false
        rw [hex]
        rfl
      have hfault : storeAddrMisaligned (seqEx imem c)=true := by
        rw [hex]
        exact haddr
      have hvalue : (seqMem imem byteDevice c).faultAddr=(seqEx imem c).aluResult :=
        if_pos (by rw [hfault,Bool.or_true])
      have hstoreFault : (seqMem imem byteDevice c).storeFault=true := hfault
      rw [hload,hstoreFault,if_neg (by decide),if_pos rfl,hvalue] at hsync
      refine hraise excStoreFault rfl hsync ?_ ?_
      · change ((seqEx imem c).mem.isStore && !storeAddrMisaligned (seqEx imem c))=false
        rw [hfault]
        exact Bool.and_false _
      · rw [hex]
        rfl
    | _ => exact absurd trivial hmisaligned

/-- Without exception, transfer and return the machine goes on. -/
theorem trapStep_proceed (hmem : (seqId imem c).ctrl.mem=memDefaults)
    (hexec : (seqId imem c).ctrl.exec=execDefaults)
    (hnone : exceptionOf (seqMem imem byteDevice c) c.csr=none)
    (hreturns : (seqMem imem byteDevice c).isMret=false ∧ (seqMem imem byteDevice c).isSret=false) :
    SamePriv (trapStep imem byteDevice c)
      (s.proceed (regfileWrite c.regs (seqWb imem byteDevice c))
        (storeStep s.csrs.store (csrInOf (seqMem imem byteDevice c)))) := by
  have hquiet : (trapSeq imem byteDevice c).trapFlushReq=false := by
    change (trapOf (seqMem imem byteDevice c) c.csr).trapFlushReq=false
    rw [trapOf_none hnone,hreturns.1,hreturns.2]
    rfl
  obtain ⟨hplain,hcsrs⟩ := trapStep_plain h hquiet
  have hnext : seqNextPc imem c=c.pc+4 := idle_next (by rw [hexec]; rfl) (by rw [hexec]; rfl)
  rw [hplain]
  exact ⟨hnext.trans (by rw [h.pc]; rfl),rfl,(idle_memory hmem).2.2.trans h.memory,hcsrs⟩

omit h in
/-- A request of a CSR instruction at a register that takes writes. -/
theorem storeStep_access (store : Store) {i : CsrIn} {csr : Csr} {op : CsrOp} {data : Word}
    (hreq : i.csrReq=true) (hname : Csr.ofAddr i.csrAddr=some csr) (hop : i.csrOp=op.code)
    (hdata : i.csrRs1Data=data) (hwritable : readOnly csr=false) :
    storeStep store i=access store op csr data := by
  have heffect : Op.ofCode op.code=some (CsrOp.effect op) := by cases op <;> rfl
  have hidle : (CsrOp.effect op != .replace && data==0)=
      !decide (CsrOp.effect op=.replace ∨ data≠0) := by
    by_cases hzero : data=0
    · cases op <;> simp [CsrOp.effect,hzero]
    · have hbit : (data==0)=false := beq_eq_false_iff_ne.mpr hzero
      rw [hbit,Bool.and_false,decide_eq_true (.inr hzero)]
      rfl
  unfold storeStep requested access
  rw [hreq,hname,hop,hdata,heffect]
  dsimp only
  rw [hwritable,Bool.false_or,hidle]
  by_cases hwrites : CsrOp.effect op=.replace ∨ data≠0
  · rw [decide_eq_true hwrites,if_pos hwrites]
    rfl
  · rw [decide_eq_false hwrites,if_neg hwrites]
    rfl

omit h in
/-- A CSR instruction is rejected at unnamed and at read-only addresses. -/
theorem csrIllegalAccess_op (op : CsrOp) (addr : BitVec 12) :
    csrIllegalAccess true op.code addr=
      match Csr.ofAddr addr with
      | some csr => readOnly csr
      | none => true := by
  have hcmd : (isWriteCmd op.code || isSetCmd op.code || isClearCmd op.code)=true := by
    cases op <;> rfl
  unfold csrIllegalAccess csrWriteIllegal
  cases hname : Csr.ofAddr addr with
  | none =>
    rw [unsupported_addr hname]
    rfl
  | some csr =>
    obtain ⟨hsupported,hwritable⟩ := tables_addr csr
    rw [Csr.addr_of_ofAddr hname] at hsupported hwritable
    rw [hsupported,hwritable,hcmd]
    simp

/-- What the record in WB holds of a CSR instruction. -/
structure HoldsCsr (w : MemWb) (op : CsrOp) (addr : BitVec 12) (rd : RegAddr) (data : Word) :
    Prop where
  /-- No trap of its own. -/
  trap : hasTrap w=false
  /-- CSR instruction. -/
  isCsr : w.isCsr=true
  /-- Operation. -/
  op : w.csrOp=op.code
  /-- Address. -/
  addr : csrAddr w=addr
  /-- Operand. -/
  data : csrRs1Data w=data
  /-- Destination. -/
  wb : w.wb=⟨true,rd,0⟩
  /-- No machine return. -/
  mret : w.isMret=false
  /-- No supervisor return. -/
  sret : w.isSret=false

omit h in
/-- Such a record is rejected by its address. -/
theorem HoldsCsr.rejected {w : MemWb} {op : CsrOp} {addr : BitVec 12} {rd : RegAddr} {data : Word}
    (hw : HoldsCsr w op addr rd data) :
    csrReq w=true ∧ wbCsrIllegal w=csrIllegalAccess true op.code addr := by
  have hreq : csrReq w=true := by
    unfold csrReq
    rw [hw.isCsr,hw.trap]
    rfl
  refine ⟨hreq,?_⟩
  unfold wbCsrIllegal
  rw [hreq,hw.op,hw.addr]

/-- CSR instructions arrive in WB as what they are. -/
theorem holdsCsr {op : CsrOp} {addr : BitVec 12} {source rd : RegAddr}
    (hword : imem c.pc=encodeSys (.csr op addr source rd))
    (hpermitted : csrPermitted s.csrs.mode addr=true) :
    HoldsCsr (seqMem imem byteDevice c) op addr rd (csrOperand op s.regs source) := by
  have hdecodes : DecodesSys (.csr op addr source rd) (seqId imem c).ctrl := by
    rw [h.decoded,hword]
    exact decode_encodeSys _ _ hpermitted
  obtain ⟨hrs1,himm,hwb⟩ := hdecodes.csr _ _ _ _ rfl
  have hsys : (seqId imem c).ctrl.sys={sysDefaults with isCsr := true, csrOp := op.code} :=
    hdecodes.sys
  have hflags : (seqMem imem byteDevice c).illegalInstr=false ∧
      (seqMem imem byteDevice c).isEbreak=false ∧ (seqMem imem byteDevice c).isEcall=false ∧
      (seqMem imem byteDevice c).isCsr=true ∧ (seqMem imem byteDevice c).csrOp=op.code ∧
      (seqMem imem byteDevice c).isMret=false ∧ (seqMem imem byteDevice c).isSret=false := by
    change (seqId imem c).ctrl.sys.illegalInstr=false ∧ (seqId imem c).ctrl.sys.isEbreak=false ∧
      (seqId imem c).ctrl.sys.isEcall=false ∧ (seqId imem c).ctrl.sys.isCsr=true ∧
      (seqId imem c).ctrl.sys.csrOp=op.code ∧ (seqId imem c).ctrl.sys.isMret=false ∧
      (seqId imem c).ctrl.sys.isSret=false
    rw [hsys]
    exact ⟨rfl,rfl,rfl,rfl,rfl,rfl,rfl⟩
  obtain ⟨hillegal,hebreak,hecall,hcsr,hop,hmret,hsret⟩ := hflags
  obtain ⟨hload,hstore,-⟩ := idle_memory (c := c) hdecodes.mem
  refine ⟨?_,hcsr,hop,?_,?_,hwb,hmret,hsret⟩
  · unfold hasTrap
    rw [hillegal,hecall,hebreak,hload,hstore]
    rfl
  · change (seqId imem c).ctrl.imm.setWidth 12=addr
    rw [himm,setWidth_signExtend (by decide),BitVec.signExtend_eq]
  · have hsource : (seqMem imem byteDevice c).rs1Addr=source := hrs1
    have hrdata : (seqMem imem byteDevice c).rs1Rdata=reg s.regs source := by
      change readReg c.regs (seqId imem c).ctrl.rs1Addr=_
      rw [hrs1,h.regs]
      rfl
    unfold csrRs1Data csrOperand
    rw [hop,hsource,hrdata]

/-- CSR instructions. -/
theorem trapStep_csr {op : CsrOp} {addr : BitVec 12} {source rd : RegAddr}
    (hword : imem c.pc=encodeSys (.csr op addr source rd))
    (hpermitted : csrPermitted s.csrs.mode addr=true) {s' : PrivState}
    (hstep : s.system (.csr op addr source rd)=some s') :
    SamePriv (trapStep imem byteDevice c) s' := by
  have hdecodes : DecodesSys (.csr op addr source rd) (seqId imem c).ctrl := by
    rw [h.decoded,hword]
    exact decode_encodeSys _ _ hpermitted
  have hholds := holdsCsr h hword hpermitted
  obtain ⟨hreq,hrejected⟩ := hholds.rejected
  have hexception : exceptionOf (seqMem imem byteDevice c) c.csr=
      if csrIllegalAccess true op.code addr then
        some (excInstIllegal,(encodeSys (.csr op addr source rd)).setWidth 64)
      else none := by
    have htrap := hholds.trap
    unfold hasTrap at htrap
    simp only [Bool.or_eq_false_iff] at htrap
    rw [idle_exception hdecodes.mem,htrap.1.1.1.1,htrap.1.1.1.2,htrap.1.1.2,hrejected,hword]
    rfl
  have hmemory := (idle_memory (c := c) hdecodes.mem).2.2
  unfold PrivState.system at hstep
  dsimp only at hstep
  cases hname : Csr.ofAddr addr with
  | none =>
    rw [hname] at hstep
    obtain rfl := Option.some.inj hstep
    have hbad : csrIllegalAccess true op.code addr=true := by rw [csrIllegalAccess_op,hname]
    rw [hbad] at hexception
    exact trapStep_raise h hexception rfl hmemory
  | some csr =>
    rw [hname] at hstep
    dsimp only at hstep
    have hrule : csrIllegalAccess true op.code addr=readOnly csr := by
      rw [csrIllegalAccess_op,hname]
    split_ifs at hstep with hreadOnly hwrites
    · obtain rfl := Option.some.inj hstep
      rw [hrule,hreadOnly] at hexception
      exact trapStep_raise h hexception rfl hmemory
    · obtain rfl := Option.some.inj hstep
      rw [Bool.not_eq_true] at hreadOnly
      rw [hrule,hreadOnly] at hexception hrejected
      have hproceed := trapStep_proceed h hdecodes.mem hdecodes.exec hexception
        ⟨hholds.mret,hholds.sret⟩
      have hregs : regfileWrite c.regs (seqWb imem byteDevice c)=
          writeBack s.regs (some (rd,s.read csr)) := by
        have hen : (seqWb imem byteDevice c).regWriteEn=true := by
          change ((seqMem imem byteDevice c).wb.regWriteEn && !(hasTrap _ || wbCsrIllegal _))=true
          rw [hholds.wb,hholds.trap,hrejected]
          rfl
        have hrd : (seqWb imem byteDevice c).rdAddr=rd := by
          change (seqMem imem byteDevice c).wb.rdAddr=rd
          rw [hholds.wb]
        have hvalue : (seqWb imem byteDevice c).rdWdata=s.read csr := by
          change wbData (seqMem imem byteDevice c) (csrRdata c.csr (csrAddr _))=_
          unfold wbData
          rw [hholds.isCsr,hholds.addr,←Csr.addr_of_ofAddr hname,h.read]
          rfl
        rw [regfileWrite_writeBack,hen,hrd,hvalue,h.regs]
        rfl
      have hstored : storeStep s.csrs.store (csrInOf (seqMem imem byteDevice c))=
          access s.csrs.store op csr (csrOperand op s.regs source) := by
        have hnameAt : Csr.ofAddr (csrAddr (seqMem imem byteDevice c))=some csr := by
          rw [hholds.addr]
          exact hname
        exact storeStep_access _ hreq hnameAt hholds.op hholds.data hreadOnly
      rw [hregs,hstored] at hproceed
      exact hproceed

/-- What the record in WB holds of an instruction that is neither a base nor a
CSR instruction. -/
structure HoldsOther (w : MemWb) (i : SysInstr) : Prop where
  /-- Legal. -/
  illegal : w.illegalInstr=false
  /-- No CSR instruction. -/
  isCsr : w.isCsr=false
  /-- Nothing to reject. -/
  rejected : wbCsrIllegal w=false
  /-- No register write. -/
  wb : w.wb.regWriteEn=false
  /-- Breakpoint. -/
  ebreak : w.isEbreak=(sysOf i).isEbreak
  /-- Environment call. -/
  ecall : w.isEcall=(sysOf i).isEcall
  /-- Machine return. -/
  mret : w.isMret=(sysOf i).isMret
  /-- Supervisor return. -/
  sret : w.isSret=(sysOf i).isSret

/-- Such instructions arrive in WB as what they are. -/
theorem holdsOther {i : SysInstr} (hword : imem c.pc=encodeSys i)
    (hpermitted : i.permitted s.csrs.mode=true)
    (hother : ∀ op addr source rd,i≠.csr op addr source rd) :
    HoldsOther (seqMem imem byteDevice c) i := by
  have hdecodes : DecodesSys i (seqId imem c).ctrl := by
    rw [h.decoded,hword]
    exact decode_encodeSys _ _ hpermitted
  have hkind : (sysOf i).isCsr=false ∧ (sysOf i).illegalInstr=false := by
    cases i with
    | csr op addr source rd => exact absurd rfl (hother op addr source rd)
    | priv op => cases op <;> exact ⟨rfl,rfl⟩
    | _ => exact ⟨rfl,rfl⟩
  have hcsr : (seqMem imem byteDevice c).isCsr=false :=
    (congrArg SysCtrl.isCsr hdecodes.sys).trans hkind.1
  refine ⟨(congrArg SysCtrl.illegalInstr hdecodes.sys).trans hkind.2,hcsr,?_,
    hdecodes.wb hcsr,congrArg SysCtrl.isEbreak hdecodes.sys,congrArg SysCtrl.isEcall hdecodes.sys,
    congrArg SysCtrl.isMret hdecodes.sys,congrArg SysCtrl.isSret hdecodes.sys⟩
  unfold wbCsrIllegal csrReq
  rw [hcsr]
  rfl

/-- Every permitted instruction outside the base set. -/
theorem trapStep_system {i : SysInstr} (hword : imem c.pc=encodeSys i)
    (hpermitted : i.permitted s.csrs.mode=true) {s' : PrivState} (hstep : s.system i=some s') :
    SamePriv (trapStep imem byteDevice c) s' := by
  by_cases hkind : ∃ op addr source rd,i=.csr op addr source rd
  · obtain ⟨op,addr,source,rd,rfl⟩ := hkind
    exact trapStep_csr h hword hpermitted hstep
  have hdecodes : DecodesSys i (seqId imem c).ctrl := by
    rw [h.decoded,hword]
    exact decode_encodeSys _ _ hpermitted
  have hmemory := (idle_memory (c := c) hdecodes.mem).2.2
  have hholds := holdsOther h hword hpermitted fun op addr source rd hi =>
    hkind ⟨op,addr,source,rd,hi⟩
  have hexception := idle_exception (c := c) hdecodes.mem
  rw [hholds.illegal,hholds.rejected,hholds.ebreak,hholds.ecall] at hexception
  have hgoesOn : exceptionOf (seqMem imem byteDevice c) c.csr=none → (sysOf i).isMret=false →
      (sysOf i).isSret=false →
      SamePriv (trapStep imem byteDevice c) (s.proceed s.regs (tick s.csrs.store)) := by
    intro hnone hnoMret hnoSret
    have hproceed := trapStep_proceed h hdecodes.mem hdecodes.exec hnone
      ⟨hholds.mret.trans hnoMret,hholds.sret.trans hnoSret⟩
    have hregs : regfileWrite c.regs (seqWb imem byteDevice c)=s.regs := by
      have hquiet : (seqWb imem byteDevice c).regWriteEn=false := by
        change ((seqMem imem byteDevice c).wb.regWriteEn && _)=false
        rw [hholds.wb]
        rfl
      rw [regfileWrite_writeBack,hquiet,h.regs]
      rfl
    have hstore : storeStep s.csrs.store (csrInOf (seqMem imem byteDevice c))=
        tick s.csrs.store := by
      have hin : (csrInOf (seqMem imem byteDevice c)).csrReq=false := by
        change ((seqMem imem byteDevice c).isCsr && _)=false
        rw [hholds.isCsr]
        rfl
      unfold storeStep requested
      rw [hin]
    rw [hregs,hstore] at hproceed
    exact hproceed
  have hcalled : c.csr.privMode=s.csrs.mode := h.csrs.mode
  cases i with
  | csr op addr source rd => exact absurd ⟨op,addr,source,rd,rfl⟩ hkind
  | fence imm rs1 rd =>
    obtain rfl := Option.some.inj hstep
    exact hgoesOn hexception rfl rfl
  | fenceI imm rs1 rd =>
    obtain rfl := Option.some.inj hstep
    exact hgoesOn hexception rfl rfl
  | sfenceVma rs1 rs2 =>
    obtain rfl := Option.some.inj hstep
    exact hgoesOn hexception rfl rfl
  | priv op =>
    cases op with
    | wfi =>
      obtain rfl := Option.some.inj hstep
      exact hgoesOn hexception rfl rfl
    | ecall =>
      obtain rfl := Option.some.inj hstep
      rw [hcalled] at hexception
      refine trapStep_raise h hexception ?_ hmemory
      cases s.csrs.mode <;> rfl
    | ebreak =>
      obtain rfl := Option.some.inj hstep
      rw [h.pc] at hexception
      exact trapStep_raise h hexception rfl hmemory
    | mret =>
      obtain rfl := Option.some.inj hstep
      exact trapStep_return h hexception hholds.isCsr hholds.wb
        (.inl ⟨hholds.mret,hholds.sret,rfl,rfl⟩) hmemory
    | sret =>
      obtain rfl := Option.some.inj hstep
      exact trapStep_return h hexception hholds.isCsr hholds.wb
        (.inr ⟨hholds.mret,hholds.sret,rfl,rfl⟩) hmemory

/-- Other instructions neither trap nor return unless they are meant to. -/
theorem system_quiet {i : SysInstr} (hword : imem c.pc=encodeSys i)
    (hpermitted : i.permitted s.csrs.mode=true) (hstays : leavesSys i=false) :
    (trapSeq imem byteDevice c).trapFlushReq=false := by
  change (trapOf (seqMem imem byteDevice c) c.csr).trapFlushReq=false
  rw [trapOf_flush]
  by_cases hkind : ∃ op addr source rd,i=.csr op addr source rd
  · obtain ⟨op,addr,source,rd,rfl⟩ := hkind
    have hholds := holdsCsr h hword hpermitted
    have hlegal : csrIllegalAccess true op.code addr=false := by
      rw [csrIllegalAccess_op]
      exact hstays
    rw [hholds.trap,hholds.rejected.2,hlegal,hholds.mret,hholds.sret]
    rfl
  · have hdecodes : DecodesSys i (seqId imem c).ctrl := by
      rw [h.decoded,hword]
      exact decode_encodeSys _ _ hpermitted
    obtain ⟨hload,hstore,-⟩ := idle_memory (c := c) hdecodes.mem
    have hholds := holdsOther h hword hpermitted fun op addr source rd hi =>
      hkind ⟨op,addr,source,rd,hi⟩
    unfold hasTrap
    rw [hholds.illegal,hholds.rejected,hholds.ebreak,hholds.ecall,hholds.mret,hholds.sret,hload,
      hstore]
    cases i with
    | csr op addr source rd => exact absurd ⟨op,addr,source,rd,rfl⟩ hkind
    | priv op => cases op <;> first | rfl | cases hstays
    | _ => rfl

/-- The flush of the machine with traps is foreseen by the reference. -/
theorem flush_leaves (hfetch : imem c.pc=readU32 s.memory s.pc)
    (hflush : (trapSeq imem byteDevice c).trapFlushReq=true) : s.leaves=true := by
  unfold PrivState.leaves
  cases hbase : decodeInstr (readU32 s.memory s.pc) with
  | some i =>
    have hword := hfetch.trans ((decodeInstr_iff _ i).mp hbase).symm
    by_cases haligned : Aligned i s.regs
    · rw [base_quiet h hword haligned] at hflush
      cases hflush
    · simp [haligned]
  | none =>
    dsimp only
    cases hsys : decodeSys (readU32 s.memory s.pc) with
    | none => rfl
    | some i =>
      have hword := hfetch.trans ((decodeSys_iff _ i).mp hsys).symm
      cases hpermitted : i.permitted s.csrs.mode with
      | false => simp [hpermitted]
      | true =>
        cases hstays : leavesSys i with
        | true => simp [hpermitted,hstays]
        | false =>
          rw [system_quiet h hword hpermitted hstays] at hflush
          cases hflush

/-- What arrives in WB as a CSR instruction is one. -/
theorem csr_word (hfetch : imem c.pc=readU32 s.memory s.pc) {s' : PrivState}
    (hstep : privStep s=some s') (hcsr : (seqMem imem byteDevice c).isCsr=true) :
    ∃ op addr source rd,imem c.pc=encodeSys (.csr op addr source rd) ∧
      csrPermitted s.csrs.mode addr=true := by
  obtain ⟨-,hreserved,hcase⟩ := privStep_cases hstep
  rw [←hfetch] at hreserved hcase
  have hctrl : (seqId imem c).ctrl.sys.isCsr=true := hcsr
  rw [h.decoded] at hctrl
  cases hcase with
  | base i hword =>
    rw [hword,decode_sys] at hctrl
    cases hctrl
  | illegal hundefined =>
    have hflag := ((illegal_iff_undefined _ _).mpr hreserved).mpr hundefined
    rw [((TrapInformation.decoder_oneClass _ _).illegal hflag).1] at hctrl
    cases hctrl
  | system i hword hpermitted hsystem =>
    by_cases hkind : ∃ op addr source rd,i=.csr op addr source rd
    · obtain ⟨op,addr,source,rd,rfl⟩ := hkind
      exact ⟨op,addr,source,rd,hword,hpermitted⟩
    · have hholds := holdsOther h hword hpermitted fun op addr source rd hi =>
        hkind ⟨op,addr,source,rd,hi⟩
      rw [hholds.isCsr] at hcsr
      cases hcsr

/-- One instruction of the machine with traps is one of the reference. -/
theorem trapStep_priv (hfetch : imem c.pc=readU32 s.memory s.pc) {s' : PrivState}
    (hstep : privStep s=some s') : SamePriv (trapStep imem byteDevice c) s' := by
  obtain ⟨hpc,hreserved,hcase⟩ := privStep_cases hstep
  rw [←hfetch] at hreserved hcase
  cases hcase with
  | base i hword => exact trapStep_base h hword hpc
  | system i hword hpermitted hsystem => exact trapStep_system h hword hpermitted hsystem
  | illegal hundefined => exact trapStep_illegal h hundefined hreserved

end Instructions

end RichardCore.PrivRefinement
