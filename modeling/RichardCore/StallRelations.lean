import RichardCore.StalledLoop

/-!
# The core behind a cache and the tied core

Three relations between the two cores. In step they hold the same
instructions. While an access waits, WB drains and the tied core is held one
cycle behind. A branch taken during the wait brings the front end to where
the tied core is a cycle later. Every edge leads from one relation to
another, as long as no stall meets a register result it would damage.
-/

namespace RichardCore.StallRelations

open Packages Decoder Execute DataMemory CsrUnit TrapCtrl Hazard Pipeline Clocked Tracking
open ProgramOrder Effects Harness SequentialMachine Agreement Simulation Refinement StalledLoop

/-- Records in MEM agree, and so does what they forward. -/
@[mk_iff]
structure MatchesMem (e e' : ExMem) : Prop where
  /-- The later stages act alike. -/
  agrees : AgreesMem e e'
  /-- Forwarded result. -/
  forward : e'.wb.regWriteEn=true → e.aluResult=e'.aluResult

/-- Matching is read off the records. -/
instance (e e' : ExMem) : Decidable (MatchesMem e e') := decidable_of_iff' _ (matchesMem_iff e e')

/-- Every record agrees with itself. -/
theorem MatchesMem.refl (e : ExMem) : MatchesMem e e :=
  ⟨⟨rfl,rfl,rfl,rfl,rfl,rfl,rfl,fun _ _ => rfl,fun _ => rfl,fun _ _ => rfl⟩,fun _ => rfl⟩

/-- Records in WB act alike: they agree or do nothing. -/
def SameWb (w w' : MemWb) : Prop := AgreesWb w w' ∨ (InertWb w ∧ InertWb w')

/-- A stall that does no harm. -/
@[mk_iff]
structure SafeStall (s : CoreState) : Prop where
  /-- The waiting access writes no register: MEM/WB takes it in every cycle. -/
  access : QuietWrite s.exMem.wb
  /-- A branch or jump taken meanwhile writes no register: it never reaches
  MEM. -/
  jump : takenWire s=true → QuietWrite s.idEx.ctrl.wb
  /-- Any other instruction in EX computes the same without the operand that
  WB forwards in this cycle only. -/
  operands : takenWire s=false → MatchesMem (exMemOf s.idEx) (exOutput s)

/-- Harmlessness is read off the core state. -/
instance (s : CoreState) : Decidable (SafeStall s) :=
  haveI : ∀ c,Decidable (QuietWrite c) := fun _ => inferInstanceAs (Decidable (_ ∨ _))
  decidable_of_iff' _ (safeStall_iff s)

/-- A cycle that keeps the results: no counter is read into a register, and a
stall is harmless or, behind a return in WB, holds no store. -/
@[mk_iff]
structure SafeCycle (hs : Handshake) (s : CoreState) : Prop where
  /-- No counter reads. -/
  counter : s.memWb.isCsr=true → isCounter (csrAddr s.memWb)=true → s.memWb.wb.rdAddr=0
  /-- A flushed access that waits is no store. -/
  flushed : memStallReq hs s.exMem=true → flushWire s .low=true → s.exMem.mem.isStore=false
  /-- Any other stall. -/
  stall : memStallReq hs s.exMem=true → flushWire s .low=false → SafeStall s

/-- Safety of a cycle is read off the core state. -/
instance (hs : Handshake) (s : CoreState) : Decidable (SafeCycle hs s) :=
  decidable_of_iff' _ (safeCycle_iff hs s)

section Quiet

variable {s : CoreState}

/-- CSR file after a clock edge without reset and interrupts. -/
def csrNext (s : CoreState) : CsrState := csrStep s.csr (csrWires s ⟨false,0,0,.low⟩)

/-- The CSR file without an exception: the write phase and the returns. -/
theorem csrNext_quiet (h : hasSyncException s=false) :
    csrNext s=returnPhase s.csr (writePhase s.csr (csrInOf s.memWb))
      {csrInOf s.memWb with mretEn := s.memWb.isMret, sretEn := s.memWb.isSret} := by
  unfold csrNext csrWires
  rw [trapWires_quiet h]
  rfl

end Quiet

/-- An inert record changes no CSR but the counters. -/
theorem inert_csr {s : CoreState} (h : InertWb s.memWb) :
    eraseCounters (csrNext s)=eraseCounters s.csr := by
  rw [csrNext_quiet (inert_exception h),h.mret,h.sret]
  exact writePhase_inert h _

/-- The condition of a write event, as the register file tests it. -/
theorem writeEvent_eq (w : WbOut) : writeEvent w=
    if w.regWriteEn=true ∧ w.rdAddr≠0 then [(w.rdAddr,w.rdWdata)] else [] := by
  unfold writeEvent
  simp only [Bool.and_eq_true,bne_iff_ne]

/-- The register file after a commit follows from the write event. -/
theorem regfileWrite_event (regs : RegFile) {w w' : WbOut} (h : writeEvent w=writeEvent w') :
    regfileWrite regs w=regfileWrite regs w' := by
  have hfold : ∀ v : WbOut,regfileWrite regs v=
      (writeEvent v).foldl (fun r e a => if a=e.1 then e.2 else r a) regs := by
    intro v
    rw [writeEvent_eq]
    unfold regfileWrite
    split <;> rfl
  rw [hfold,hfold,h]

/-- A commit without a write event keeps the register file. -/
theorem regfileWrite_quiet (regs : RegFile) {w : WbOut} (h : writeEvent w=[]) :
    regfileWrite regs w=regs := by
  have hnone : writeEvent {w with regWriteEn := false}=[] := rfl
  rw [regfileWrite_event regs (h.trans hnone.symm)]
  exact if_neg fun hc => Bool.false_ne_true hc.1

/-- What WB forwards to an operand. -/
def wbForward (w : WbOut) (rsAddr : RegAddr) (rdata : Word) : Word :=
  (writeEvent w).foldl (fun r e => if e.1=rsAddr then e.2 else r) rdata

/-- The forwarding multiplexer in terms of the write event. -/
theorem forwardMux_event (s : CoreState) (rsAddr : RegAddr) (rdata : Word) :
    forwardMux s rsAddr rdata=
      if s.exMem.wb.regWriteEn=true ∧ s.exMem.wb.rdAddr≠0 ∧ s.exMem.wb.rdAddr=rsAddr then
        s.exMem.aluResult
      else wbForward (wbWires s) rsAddr rdata := by
  have hwb : wbForward (wbWires s) rsAddr rdata=
      if (wbWires s).regWriteEn=true ∧ s.memWb.wb.rdAddr≠0 ∧ s.memWb.wb.rdAddr=rsAddr then
        (wbWires s).rdWdata
      else rdata := by
    have hrd : (wbWires s).rdAddr=s.memWb.wb.rdAddr := rfl
    unfold wbForward
    rw [writeEvent_eq,hrd]
    by_cases hen : (wbWires s).regWriteEn=true ∧ s.memWb.wb.rdAddr≠0
    · obtain ⟨hwrite,hne⟩ := hen
      rw [if_pos ⟨hwrite,hne⟩]
      by_cases hrs : s.memWb.wb.rdAddr=rsAddr
      · rw [if_pos ⟨hwrite,hne,hrs⟩]
        exact if_pos hrs
      · rw [if_neg fun hc => hrs hc.2.2]
        exact if_neg hrs
    · rw [if_neg hen,if_neg fun hc => hen ⟨hc.1,hc.2.1⟩]
      rfl
  rw [forwardMux_eq,hwb]

/-- Nothing is forwarded when MEM and WB write no register. -/
theorem forwardMux_quiet {s : CoreState} (hmem : QuietWrite s.exMem.wb)
    (hwb : writeEvent (wbWires s)=[]) (rsAddr : RegAddr) (rdata : Word) :
    forwardMux s rsAddr rdata=rdata := by
  rw [forwardMux_event,if_neg]
  · unfold wbForward
    rw [hwb]
    rfl
  · rintro ⟨hen,hne,-⟩
    obtain hquiet | hquiet := hmem
    · rw [hquiet] at hen
      cases hen
    · exact hne hquiet

/-- Without forwarding EX computes from the operands read in ID. -/
theorem exOutput_quiet {s : CoreState} (hmem : QuietWrite s.exMem.wb)
    (hwb : writeEvent (wbWires s)=[]) : exOutput s=exMemOf s.idEx := by
  have hrs1 : exRs1RdataFwd s=s.idEx.rs1Rdata := forwardMux_quiet hmem hwb _ _
  have hrs2 : exRs2RdataFwd s=s.idEx.rs2Rdata := forwardMux_quiet hmem hwb _ _
  unfold exOutput exWires
  rw [hrs1,hrs2]
  rfl

/-- Both returns see the same CSR file up to the counters. -/
theorem returnPhase_erase {s s' n n' : CsrState} (hs : eraseCounters s=eraseCounters s')
    (hn : eraseCounters n=eraseCounters n') {i i' : CsrIn} (hmret : i.mretEn=i'.mretEn)
    (hsret : i.sretEn=i'.sretEn) :
    eraseCounters (returnPhase s n i)=eraseCounters (returnPhase s' n' i') := by
  rw [eq_of_eraseCounters hs,eq_of_eraseCounters hn]
  unfold returnPhase
  rw [hmret,hsret]
  cases i'.mretEn <;> cases i'.sretEn <;> rfl

section Commit

variable {x y : CoreState} (hwb : SameWb x.memWb y.memWb)
  (hcsr : eraseCounters x.csr=eraseCounters y.csr)

include hwb

/-- Records that act alike raise the same exceptions. -/
theorem commit_exception : hasSyncException x=hasSyncException y := by
  obtain hagrees | ⟨hx,hy⟩ := hwb
  · rw [hasSyncException_eq,hasSyncException_eq,hagrees.trap,hagrees.csrIllegal]
  · rw [inert_exception hx,inert_exception hy]

/-- They are the same returns. -/
theorem commit_return : x.memWb.isMret=y.memWb.isMret ∧ x.memWb.isSret=y.memWb.isSret := by
  obtain hagrees | ⟨hx,hy⟩ := hwb
  · exact ⟨hagrees.isMret,hagrees.isSret⟩
  · exact ⟨hx.mret.trans hy.mret.symm,hx.sret.trans hy.sret.symm⟩

/-- They flush alike. -/
theorem commit_flush : flushWire x .low=flushWire y .low := by
  obtain ⟨hmret,hsret⟩ := commit_return hwb
  rw [flushWire_eq,flushWire_eq,hasInterrupt_low,hasInterrupt_low,commit_exception hwb,hmret,hsret]

include hcsr

/-- They write the same register with the same value. -/
theorem commit_write (hcounter : x.memWb.isCsr=true → isCounter (csrAddr x.memWb)=true →
    x.memWb.wb.rdAddr=0) : writeEvent (wbWires x)=writeEvent (wbWires y) := by
  obtain hagrees | ⟨hx,hy⟩ := hwb
  · refine agreesWb_writeEvent hagrees hcsr ?_
    rw [←hagrees.isCsr,←hagrees.csrAddr,←hagrees.wb]
    exact hcounter
  · rw [inert_write hx,inert_write hy]

/-- They change the CSR file alike. -/
theorem commit_csr (hquiet : hasSyncException y=false) :
    eraseCounters (csrNext x)=eraseCounters (csrNext y) := by
  have hquiet' := (commit_exception hwb).trans hquiet
  have hreturn := commit_return hwb
  obtain hagrees | ⟨hx,hy⟩ := hwb
  · rw [csrNext_quiet hquiet,csrNext_quiet hquiet']
    exact returnPhase_erase hcsr (hagrees.csrWrite hcsr) hreturn.1 hreturn.2
  · rw [inert_csr hx,inert_csr hy]
    exact hcsr

/-- They return to the same address. -/
theorem commit_target (hquiet : hasSyncException y=false) :
    (trapWires x .low).trapNextPc=(trapWires y .low).trapNextPc := by
  obtain ⟨hmret,hsret⟩ := commit_return hwb
  have hmepc := congrArg (fun c => c.mepc) hcsr
  have hsepc := congrArg (fun c => c.sepc) hcsr
  change x.csr.mepc=y.csr.mepc at hmepc
  change x.csr.sepc=y.csr.sepc at hsepc
  rw [trapWires_quiet hquiet,trapWires_quiet ((commit_exception hwb).trans hquiet),hmret,hsret,
    hmepc,hsepc]

end Commit

/-- Without a flush the privilege mode stays. -/
theorem csrNext_privMode {s : CoreState} (hflush : flushWire s .low=false) :
    (csrNext s).privMode=s.csr.privMode := by
  rw [flushWire_eq,Bool.or_eq_false_iff,Bool.or_eq_false_iff,Bool.or_eq_false_iff] at hflush
  obtain ⟨⟨⟨-,hquiet⟩,hmret⟩,hsret⟩ := hflush
  rw [csrNext_quiet hquiet,hmret,hsret]
  exact writePhase_privMode _ _

/-- The cores hold the same instructions in all stages, oldest last. -/
structure Synced (x y : CoreState) : Prop where
  /-- Fetch address. -/
  pc : x.pc=y.pc
  /-- IF/ID. -/
  ifId : x.ifId=y.ifId
  /-- ID/EX. -/
  idEx : x.idEx=y.idEx
  /-- EX/MEM. -/
  exMem : MatchesMem x.exMem y.exMem
  /-- MEM/WB. -/
  memWb : SameWb x.memWb y.memWb
  /-- Register file. -/
  regs : x.regs=y.regs
  /-- CSR file, up to the counters. -/
  csr : eraseCounters x.csr=eraseCounters y.csr

/-- The next edge of the cores does the same. -/
structure Meets (x y : CoreState) : Prop where
  /-- Fetch address. -/
  pc : x.pc=y.pc
  /-- IF/ID. -/
  ifId : x.ifId=y.ifId
  /-- ID/EX. -/
  idEx : x.idEx=y.idEx
  /-- Mode of the decoder check. -/
  mode : x.csr.privMode=y.csr.privMode
  /-- Register file after the commit. -/
  regs : regfileWrite x.regs (wbWires x)=regfileWrite y.regs (wbWires y)
  /-- CSR file after the commit, up to the counters. -/
  csr : eraseCounters (csrNext x)=eraseCounters (csrNext y)
  /-- Flush. -/
  flush : flushWire x .low=flushWire y .low
  /-- Target of the flush. -/
  target : flushWire y .low=true → (trapWires x .low).trapNextPc=(trapWires y .low).trapNextPc
  /-- Record leaving EX. -/
  output : MatchesMem (exOutput x) (exOutput y)
  /-- Target of a taken branch. -/
  jump : takenWire y=true → (exWires x).branchTarget=(exWires y).branchTarget
  /-- Record leaving MEM, when loads see the same data. -/
  complete : ∀ rx ry,(y.exMem.mem.isLoad=true → rx=ry) →
    SameWb (memStage x.exMem rx) (memStage y.exMem ry)

/-- The edge leads to cores in step. -/
theorem Meets.synced {x y : CoreState} (h : Meets x y) {ix iy : Inputs} (hrx : ix.rst=false)
    (hry : iy.rst=false) (hqx : ix.irq=.low) (hqy : iy.irq=.low)
    (hword : ix.imemRdata=iy.imemRdata)
    (hdata : flushWire y .low=false → y.exMem.mem.isLoad=true → ix.dmemRdata=iy.dmemRdata) :
    Synced (coreStep x ix) (coreStep y iy) := by
  have htaken : takenWire x=takenWire y := h.output.agrees.taken
  have hid : idWires x=idWires y := by
    unfold idWires
    rw [h.ifId,h.mode]
  have hstall : loadUseWire x=loadUseWire y := by
    unfold loadUseWire
    rw [h.idEx,hid]
  have hnext : idExNext x=idExNext y := by
    unfold idExNext
    rw [h.ifId,hid,regfileRead_eq,regfileRead_eq,h.regs,regfileRead_eq,regfileRead_eq]
  have hcsrx : (coreStep x ix).csr=csrNext x := by
    rw [coreStep_csr]
    unfold csrNext csrWires
    rw [hrx,hqx]
  have hcsry : (coreStep y iy).csr=csrNext y := by
    rw [coreStep_csr]
    unfold csrNext csrWires
    rw [hry,hqy]
  refine ⟨?_,?_,?_,?_,?_,?_,?_⟩
  · rw [coreStep_pc x ix hrx,coreStep_pc y iy hry,hqx,hqy,h.flush,htaken,hstall,h.pc]
    cases hflush : flushWire y .low with
    | true => exact h.target hflush
    | false =>
      cases hjump : takenWire y with
      | true => exact h.jump hjump
      | false => rfl
  · rw [coreStep_ifId x ix hrx,coreStep_ifId y iy hry,hqx,hqy,h.flush,htaken,hstall,h.ifId,h.pc,
      hword]
  · rw [coreStep_idEx x ix hrx,coreStep_idEx y iy hry,hqx,hqy,h.flush,htaken,hstall,h.idEx,hnext]
  · rw [coreStep_exMem x ix hrx,coreStep_exMem y iy hry]
    exact h.output
  · rw [coreStep_memWb x ix hrx,coreStep_memWb y iy hry,hqx,hqy,h.flush]
    cases hflush : flushWire y .low with
    | true => exact .inr ⟨memWbFlush_inert _,memWbFlush_inert _⟩
    | false => exact h.complete _ _ (hdata hflush)
  · rw [coreStep_regs x ix hrx,coreStep_regs y iy hry]
    exact h.regs
  · rw [hcsrx,hcsry]
    exact h.csr

/-- Only stores write memory. -/
theorem storeEvent_idle {e : ExMem} (h : e.mem.isStore=false) : storeEvent (dmemRequest e)=[] := by
  simp only [storeEvent,dmemRequest,h,Bool.false_and]
  rfl

section Mem

variable {e : ExMem} {y : Tracked} (hslots : SlotsOk y) (h : MatchesMem e y.core.exMem)

include hslots h

/-- Matching records act alike in WB when loads see the same data. -/
theorem complete_same (rx ry : Word) (hdata : y.core.exMem.mem.isLoad=true → rx=ry) :
    SameWb (memStage e rx) (memStage y.core.exMem ry) := by
  have hslot := hslots.mem
  cases hmem : y.tags.mem with
  | bubble b =>
    rw [hmem] at hslot
    have hinert : InertMem e := by
      refine ⟨?_,?_,?_⟩
      · rw [h.agrees.mem]
        exact hslot.2.mem
      · rw [h.agrees.wb]
        exact hslot.2.wb
      · rw [h.agrees.sys]
        exact hslot.2.sys
    exact .inr ⟨memStage_inert hinert rx,memStage_inert hslot.2 ry⟩
  | instr k =>
    rw [hmem] at hslot
    exact .inl (h.agrees.memStage (accessLegal_of_carries hslot.2.2) hdata)

/-- Matching records drive the same request, if they access memory. -/
theorem request_same (haccess : y.core.exMem.mem.isLoad=true ∨ y.core.exMem.mem.isStore=true) :
    dmemRequest e=dmemRequest y.core.exMem := by
  have hslot := hslots.mem
  cases hmem : y.tags.mem with
  | bubble b =>
    rw [hmem] at hslot
    rw [hslot.2.mem.1,hslot.2.mem.2] at haccess
    simp at haccess
  | instr k =>
    rw [hmem] at hslot
    exact h.agrees.request (accessLegal_of_carries hslot.2.2) haccess

/-- Matching records write memory alike. -/
theorem store_same : storeEvent (dmemRequest e)=storeEvent (dmemRequest y.core.exMem) := by
  cases hstore : y.core.exMem.mem.isStore with
  | true => rw [request_same hslots h (.inr hstore)]
  | false =>
    rw [storeEvent_idle hstore]
    rw [←h.agrees.mem] at hstore
    exact storeEvent_idle hstore

/-- A waiting access that writes no register does nothing in WB, provided the
tied core completes it without an exception. -/
theorem access_inert (haccess : e.mem.isLoad=true ∨ e.mem.isStore=true) (hwb : QuietWrite e.wb)
    {ry : Word} (haligned : hasTrap (memStage y.core.exMem ry)=false) (rx : Word) :
    InertWb (memStage e rx) := by
  rw [h.agrees.mem] at haccess
  have hrequest := request_same hslots h haccess
  have hslot := hslots.mem
  cases hmem : y.tags.mem with
  | bubble b =>
    rw [hmem] at hslot
    rw [hslot.2.mem.1,hslot.2.mem.2] at haccess
    simp at haccess
  | instr k =>
    rw [hmem] at hslot
    have hcarries : CarriesMem y.core.exMem (decoder k.word k.mode.bits) := hslot.2.2
    have hsys : e.sys=sysDefaults := by
      rw [h.agrees.sys,hcarries.sys]
      rw [hcarries.mem] at haccess
      exact (decoder_access _ _ haccess).1
    have haddr : e.aluResult=y.core.exMem.aluResult := congrArg (fun r => r.addr) hrequest
    refine ⟨hwb,?_,?_,?_,?_⟩
    · change e.sys.isCsr=false
      rw [hsys]
      rfl
    · rw [←haligned]
      simp only [hasTrap,DataMemory.memStage,loadAddrMisaligned,storeAddrMisaligned,h.agrees.mem,
        h.agrees.sys,haddr]
    · change e.sys.isMret=false
      rw [hsys]
      rfl
    · change e.sys.isSret=false
      rw [hsys]
      rfl

end Mem

section InStep

variable {x : CoreState} {y : Tracked} (h : Synced x y.core)
  (hcounter : x.memWb.isCsr=true → isCounter (csrAddr x.memWb)=true → x.memWb.wb.rdAddr=0)

include h hcounter

/-- Cores in step forward the same operands. -/
theorem Synced.forward (rsAddr : RegAddr) (rdata : Word) :
    forwardMux x rsAddr rdata=forwardMux y.core rsAddr rdata := by
  have hwb : wbForward (wbWires x) rsAddr rdata=wbForward (wbWires y.core) rsAddr rdata := by
    unfold wbForward
    rw [commit_write h.memWb h.csr hcounter]
  rw [forwardMux_event,forwardMux_event,h.exMem.agrees.wb,hwb]
  split
  · rename_i hhit
    exact h.exMem.forward hhit.1
  · rfl

/-- Cores in step execute alike. -/
theorem Synced.execute : exWires x=exWires y.core ∧ exOutput x=exOutput y.core := by
  have hrs1 : exRs1RdataFwd x=exRs1RdataFwd y.core := by
    unfold exRs1RdataFwd
    rw [h.idEx,h.forward hcounter]
  have hrs2 : exRs2RdataFwd x=exRs2RdataFwd y.core := by
    unfold exRs2RdataFwd
    rw [h.idEx,h.forward hcounter]
  have hex : exWires x=exWires y.core := by
    unfold exWires
    rw [h.idEx,hrs1,hrs2]
  refine ⟨hex,?_⟩
  unfold exOutput
  rw [h.idEx,hrs1,hrs2,hex]

/-- Cores in step stay in step when both advance. -/
theorem Synced.meets (hslots : SlotsOk y) (hquiet : hasSyncException y.core=false) :
    Meets x y.core := by
  obtain ⟨hex,houtput⟩ := h.execute hcounter
  refine ⟨h.pc,h.ifId,h.idEx,congrArg (fun c => c.privMode) h.csr,?_,
    commit_csr h.memWb h.csr hquiet,commit_flush h.memWb,
    fun _ => commit_target h.memWb h.csr hquiet,?_,fun _ => ?_,complete_same hslots h.exMem⟩
  · rw [h.regs]
    exact regfileWrite_event _ (commit_write h.memWb h.csr hcounter)
  · rw [houtput]
    exact MatchesMem.refl _
  · rw [hex]

end InStep

/-- The core after a stalled edge. -/
def stalledNext (x : CoreState) (rdata : Word) : CoreState where
  pc := if takenWire x then (exWires x).branchTarget else x.pc
  regs := regfileWrite x.regs (wbWires x)
  ifId := if takenWire x then ifIdNop else x.ifId
  idEx := if takenWire x then idExFlush x.idEx else x.idEx
  exMem := x.exMem
  memWb := memStage x.exMem rdata
  csr := csrNext x

/-- The tied core is held one cycle behind: the other core has committed the
instruction in WB and waits. -/
structure Draining (x y : CoreState) : Prop where
  /-- Fetch address. -/
  pc : x.pc=y.pc
  /-- IF/ID. -/
  ifId : x.ifId=y.ifId
  /-- ID/EX. -/
  idEx : x.idEx=y.idEx
  /-- EX/MEM. -/
  exMem : MatchesMem x.exMem y.exMem
  /-- Nothing is left in WB. -/
  idle : InertWb x.memWb
  /-- The register file is ahead by one commit. -/
  regs : x.regs=regfileWrite y.regs (wbWires y)
  /-- So is the CSR file. -/
  csr : eraseCounters x.csr=eraseCounters (csrNext y)
  /-- The commit flushes nothing. -/
  flush : flushWire y .low=false
  /-- EX computes the same. -/
  output : MatchesMem (exOutput x) (exOutput y)
  /-- It takes no branch. -/
  taken : takenWire y=false

/-- The front end has followed a branch while an access waits: the tied core
has completed the access and holds the branch in MEM. -/
structure Jumped (x y : CoreState) : Prop where
  /-- Fetch address. -/
  pc : x.pc=y.pc
  /-- IF/ID. -/
  ifId : x.ifId=y.ifId
  /-- ID/EX. -/
  idEx : x.idEx=y.idEx
  /-- EX is empty. -/
  front : InertEx x.idEx.ctrl
  /-- The waiting access will do nothing in WB. -/
  pending : ∀ rdata,InertWb (memStage x.exMem rdata)
  /-- The branch does nothing in MEM. -/
  passed : InertMem y.exMem
  /-- Nothing is left in WB. -/
  idle : InertWb x.memWb
  /-- The access does nothing in WB. -/
  completed : InertWb y.memWb
  /-- Register file. -/
  regs : x.regs=y.regs
  /-- CSR file, up to the counters. -/
  csr : eraseCounters x.csr=eraseCounters y.csr

/-- A draining core advances together with the tied core. -/
theorem Draining.meets {x : CoreState} {y : Tracked} (h : Draining x y.core) (hslots : SlotsOk y) :
    Meets x y.core := by
  have hmode := congrArg (fun c => c.privMode) h.csr
  change x.csr.privMode=(csrNext y.core).privMode at hmode
  refine ⟨h.pc,h.ifId,h.idEx,hmode.trans (csrNext_privMode h.flush),?_,?_,?_,?_,h.output,?_,
    complete_same hslots h.exMem⟩
  · rw [regfileWrite_quiet _ (inert_write h.idle)]
    exact h.regs
  · rw [inert_csr h.idle]
    exact h.csr
  · rw [inert_flush h.idle,h.flush]
  · intro hflush
    rw [h.flush] at hflush
    cases hflush
  · intro htaken
    rw [h.taken] at htaken
    cases htaken

/-- So does a core ahead of a branch. -/
theorem Jumped.meets {x y : CoreState} (h : Jumped x y) : Meets x y := by
  have houtput : exOutput x=exOutput y := by
    rw [exOutput_quiet (h.pending 0).wb (inert_write h.idle),
      exOutput_quiet h.passed.wb (inert_write h.completed),h.idEx]
  refine ⟨h.pc,h.ifId,h.idEx,congrArg (fun c => c.privMode) h.csr,?_,?_,?_,?_,?_,fun _ => ?_,
    fun rx ry _ => .inr ⟨h.pending rx,memStage_inert h.passed ry⟩⟩
  · rw [regfileWrite_quiet _ (inert_write h.idle),regfileWrite_quiet _ (inert_write h.completed)]
    exact h.regs
  · rw [inert_csr h.idle,inert_csr h.completed]
    exact h.csr
  · rw [inert_flush h.idle,inert_flush h.completed]
  · intro hflush
    rw [inert_flush h.completed] at hflush
    cases hflush
  · rw [houtput]
    exact MatchesMem.refl _
  · exact congrArg (fun e => e.branchTarget) houtput

/-- A taken branch or jump that writes no register leaves EX inert. -/
theorem taken_inert {y : Tracked} (hslots : SlotsOk y) (htaken : takenWire y.core=true)
    (hwb : QuietWrite y.core.idEx.ctrl.wb) : InertMem (exOutput y.core) := by
  have htransfer := takenWire_transfer htaken
  have hslot := hslots.ex
  cases hex : y.tags.ex with
  | bubble b =>
    rw [takenWire_bubble hslots hex] at htaken
    cases htaken
  | instr k =>
    rw [hex] at hslot
    obtain ⟨-,-,hctrl⟩ := hslot
    rw [hctrl] at htransfer
    obtain ⟨-,hmem,hsys⟩ := decoder_transfer k.word k.mode.bits htransfer
    rw [←hctrl] at hmem hsys
    refine ⟨?_,hwb,?_⟩
    · change QuietMem y.core.idEx.ctrl.mem
      rw [hmem]
      exact ⟨rfl,rfl⟩
    · change QuietSys y.core.idEx.ctrl.sys
      rw [hsys]
      exact ⟨rfl,rfl,rfl,rfl,rfl,rfl⟩

/-- Contents of a core after a stalled edge that takes no branch. -/
theorem stalledNext_kept {x : CoreState} (htaken : takenWire x=false) (rdata : Word) :
    (stalledNext x rdata).pc=x.pc ∧ (stalledNext x rdata).ifId=x.ifId ∧
    (stalledNext x rdata).idEx=x.idEx := by
  unfold stalledNext
  rw [htaken]
  exact ⟨rfl,rfl,rfl⟩

/-- Contents of a core after a stalled edge that takes a branch. -/
theorem stalledNext_jumped {x : CoreState} (htaken : takenWire x=true) (rdata : Word) :
    (stalledNext x rdata).pc=(exWires x).branchTarget ∧ (stalledNext x rdata).ifId=ifIdNop ∧
    (stalledNext x rdata).idEx=idExFlush x.idEx := by
  unfold stalledNext
  rw [htaken]
  exact ⟨rfl,rfl,rfl⟩

/-- After a stalled edge EX has only the operands read in ID. -/
theorem stalledNext_output {x : CoreState} {rdata : Word} (htaken : takenWire x=false)
    (hidle : InertWb (memStage x.exMem rdata)) : exOutput (stalledNext x rdata)=exMemOf x.idEx := by
  have hmem : QuietWrite (stalledNext x rdata).exMem.wb := hidle.wb
  have hwb : InertWb (stalledNext x rdata).memWb := hidle
  rw [exOutput_quiet hmem (inert_write hwb),(stalledNext_kept htaken rdata).2.2]

/-- The first stalled edge drains WB. -/
theorem Synced.stall {x y : CoreState} (h : Synced x y) (hmeets : Meets x y)
    (houtput : exOutput x=exOutput y) (hsafe : SafeStall x) (htaken : takenWire x=false) (hflush : flushWire x .low=false)
    {rdata : Word} (hidle : InertWb (memStage x.exMem rdata)) :
    Draining (stalledNext x rdata) y := by
  obtain ⟨hpc,hifId,hidEx⟩ := stalledNext_kept htaken rdata
  refine ⟨hpc.trans h.pc,hifId.trans h.ifId,hidEx.trans h.idEx,h.exMem,hidle,hmeets.regs,
    hmeets.csr,hmeets.flush.symm.trans hflush,?_,hmeets.output.agrees.taken.symm.trans htaken⟩
  rw [stalledNext_output htaken hidle,←houtput]
  exact hsafe.operands htaken

/-- Further stalled edges change nothing. -/
theorem Draining.stall {x y : CoreState} (h : Draining x y) {rdata : Word}
    (hidle : InertWb (memStage x.exMem rdata)) : Draining (stalledNext x rdata) y := by
  have htaken : takenWire x=false := h.output.agrees.taken.trans h.taken
  obtain ⟨hpc,hifId,hidEx⟩ := stalledNext_kept htaken rdata
  refine ⟨hpc.trans h.pc,hifId.trans h.ifId,hidEx.trans h.idEx,h.exMem,hidle,?_,?_,h.flush,?_,
    h.taken⟩
  · exact (regfileWrite_quiet _ (inert_write h.idle)).trans h.regs
  · exact (inert_csr h.idle).trans h.csr
  · rw [stalledNext_output htaken hidle,←exOutput_quiet hidle.wb (inert_write h.idle)]
    exact h.output

/-- A branch taken during a stall brings the front end to where the tied core
is a cycle later. -/
theorem Synced.jump {x : CoreState} {y : Tracked} (h : Synced x y.core) (hmeets : Meets x y.core)
    (hslots : SlotsOk y) (hsafe : SafeStall x) (htaken : takenWire x=true)
    (hflush : flushWire x .low=false) (hidle : ∀ rdata,InertWb (memStage x.exMem rdata))
    {iy : Inputs} (hidle' : InertWb (memStage y.core.exMem iy.dmemRdata)) (hrst : iy.rst=false)
    (hirq : iy.irq=.low) (rdata : Word) : Jumped (stalledNext x rdata) (coreStep y.core iy) := by
  obtain ⟨hpc,hifId,hidEx⟩ := stalledNext_jumped htaken rdata
  have htaken' : takenWire y.core=true := hmeets.output.agrees.taken.symm.trans htaken
  have hflush' : flushWire y.core .low=false := hmeets.flush.symm.trans hflush
  have hcsr : (coreStep y.core iy).csr=csrNext y.core := by
    rw [coreStep_csr]
    unfold csrNext csrWires
    rw [hrst,hirq]
  refine ⟨?_,?_,?_,?_,hidle,?_,hidle rdata,?_,?_,?_⟩
  · rw [hpc,coreStep_pc _ _ hrst,hirq,hflush',htaken',if_neg (by decide),if_pos rfl]
    exact hmeets.jump htaken'
  · rw [hifId,coreStep_ifId _ _ hrst,hirq,hflush',htaken']
    rfl
  · rw [hidEx,coreStep_idEx _ _ hrst,hirq,hflush',htaken',h.idEx]
    rfl
  · rw [hidEx]
    exact idExFlush_inert _
  · rw [coreStep_exMem _ _ hrst]
    refine taken_inert hslots htaken' ?_
    rw [←h.idEx]
    exact hsafe.jump htaken
  · rw [coreStep_memWb _ _ hrst,hirq,hflush',if_neg (by decide)]
    exact hidle'
  · rw [coreStep_regs _ _ hrst]
    exact hmeets.regs
  · rw [hcsr]
    exact hmeets.csr

/-- Further stalled edges change nothing. -/
theorem Jumped.stall {x y : CoreState} (h : Jumped x y) (rdata : Word) :
    Jumped (stalledNext x rdata) y := by
  have htaken : takenWire x=false := by
    simp only [takenWire,exWires,exStage,h.front.branch,h.front.jump]
    rfl
  obtain ⟨hpc,hifId,hidEx⟩ := stalledNext_kept htaken rdata
  refine ⟨hpc.trans h.pc,hifId.trans h.ifId,hidEx.trans h.idEx,?_,h.pending,h.passed,
    h.pending rdata,h.completed,?_,?_⟩
  · rw [hidEx]
    exact h.front
  · exact (regfileWrite_quiet _ (inert_write h.idle)).trans h.regs
  · exact (inert_csr h.idle).trans h.csr

end RichardCore.StallRelations
