import RichardCore.SequentialMachine

/-!
# Agreement of pipeline records

When a record of the pipeline stands for an instruction of the sequential
machine: the two agree on all the signals that later stages act on. Stale
data that nothing reads, such as the ALU output of a CSR access, and the
free-running counters are left open. Agreeing records drive the same
requests and the same register and CSR writes.
-/

namespace RichardCore.Agreement

open Packages Decoder DataMemory CsrUnit TrapCtrl Pipeline Tracking Harness SequentialMachine

/-- CSR contents without the free-running counters. -/
def eraseCounters (s : CsrState) : CsrState := {s with mcycle := 0, minstret := 0, time := 0}

/-- Counter addresses, aliases included. -/
def isCounter (addr : BitVec 12) : Bool :=
  match Csr.ofAddr (canonicalAddr addr) with
  | some .mcycle | some .minstret | some .cycle | some .instret | some .time => true
  | _ => false

/-- A CSR file with other counters. -/
theorem eq_of_eraseCounters {s s' : CsrState} (h : eraseCounters s=eraseCounters s') :
    s={s' with mcycle := s.mcycle, minstret := s.minstret, time := s.time} := by
  unfold eraseCounters at h
  cases s
  cases s'
  simp only [CsrState.mk.injEq] at h ⊢
  tauto

/-- Reads outside the counters do not see them. -/
theorem csrRdata_erase {s s' : CsrState} (h : eraseCounters s=eraseCounters s') (addr : BitVec 12)
    (haddr : isCounter addr=false) : csrRdata s addr=csrRdata s' addr := by
  rw [eq_of_eraseCounters h]
  unfold isCounter at haddr
  unfold csrRdata readCsr
  generalize Csr.ofAddr (canonicalAddr addr)=selected at haddr ⊢
  cases selected with
  | none => rfl
  | some csr => cases csr <;> first | rfl | cases haddr

/-- Writes do not depend on the counters, up to the counters. -/
theorem writeCsr_erase {s s' n n' : CsrState} (hs : eraseCounters s=eraseCounters s')
    (hn : eraseCounters n=eraseCounters n') (addr : BitVec 12) (data : Word) (op : BitVec 3) :
    eraseCounters (writeCsr s n addr data op)=eraseCounters (writeCsr s' n' addr data op) := by
  rw [eq_of_eraseCounters hs,eq_of_eraseCounters hn]
  unfold writeCsr
  cases Csr.ofAddr addr with
  | none => rfl
  | some csr => cases csr <;> rfl

/-- The write phase of two CSR files that see the same effective write. -/
theorem writePhase_erase {s s' : CsrState} (hs : eraseCounters s=eraseCounters s') {i i' : CsrIn}
    (hwrites : writesCsr i=writesCsr i')
    (hwrite : writesCsr i'=true →
      i.csrAddr=i'.csrAddr ∧ i.csrRs1Data=i'.csrRs1Data ∧ i.csrOp=i'.csrOp) :
    eraseCounters (writePhase s i)=eraseCounters (writePhase s' i') := by
  have htick : eraseCounters (tickCounters s i.trapTrigger)=
      eraseCounters (tickCounters s' i'.trapTrigger) := hs
  unfold writePhase
  dsimp only
  rw [hwrites]
  cases hen : writesCsr i' with
  | false => exact htick
  | true =>
    obtain ⟨haddr,hdata,hop⟩ := hwrite hen
    rw [haddr,hdata,hop]
    exact writeCsr_erase hs htick _ _ _

/-- Records in MEM agree on what the memory and writeback stages act on. -/
@[mk_iff]
structure AgreesMem (e e' : ExMem) : Prop where
  /-- Instruction address. -/
  pc : e.pc=e'.pc
  /-- Immediate. -/
  imm : e.imm=e'.imm
  /-- First source field. -/
  rs1Addr : e.rs1Addr=e'.rs1Addr
  /-- Memory control. -/
  mem : e.mem=e'.mem
  /-- Writeback control. -/
  wb : e.wb=e'.wb
  /-- System control. -/
  sys : e.sys=e'.sys
  /-- Branch decision. -/
  taken : e.branchTaken=e'.branchTaken
  /-- Result or address, where one is used. -/
  result : e'.sys.isCsr=false → e'.wb.regWriteEn=true ∨ e'.mem.isLoad=true ∨ e'.mem.isStore=true →
    e.aluResult=e'.aluResult
  /-- Store data. -/
  store : e'.mem.isStore=true → e.rs2Rdata=e'.rs2Rdata
  /-- Source of a register CSR operation. -/
  source : e'.sys.isCsr=true → e'.sys.csrOp.getLsbD 2=false → e.rs1Rdata=e'.rs1Rdata

/-- Agreement in MEM is read off the records. -/
instance (e e' : ExMem) : Decidable (AgreesMem e e') := decidable_of_iff' _ (agreesMem_iff e e')

/-- Records in WB agree on what the writeback stage acts on. -/
structure AgreesWb (w w' : MemWb) : Prop where
  /-- Instruction address. -/
  pc : w.pc=w'.pc
  /-- Immediate. -/
  imm : w.imm=w'.imm
  /-- First source field. -/
  rs1Addr : w.rs1Addr=w'.rs1Addr
  /-- Writeback control. -/
  wb : w.wb=w'.wb
  /-- CSR flag. -/
  isCsr : w.isCsr=w'.isCsr
  /-- CSR operation. -/
  csrOp : w.csrOp=w'.csrOp
  /-- Recorded exceptions. -/
  trap : hasTrap w=hasTrap w'
  /-- Machine return. -/
  isMret : w.isMret=w'.isMret
  /-- Supervisor return. -/
  isSret : w.isSret=w'.isSret
  /-- ALU result, where it is written. -/
  result : w'.isCsr=false → w'.wb.regWriteEn=true → w'.wb.wbSel=0b00 → w.aluResult=w'.aluResult
  /-- Load data, where it is written. -/
  data : w'.isCsr=false → w'.wb.regWriteEn=true → w'.wb.wbSel=0b01 → w.memRdata=w'.memRdata
  /-- Source of a register CSR operation. -/
  source : w'.isCsr=true → w'.csrOp.getLsbD 2=false → w.rs1Rdata=w'.rs1Rdata

/-- A memory access is not a CSR access. -/
def AccessLegal (e : ExMem) : Prop :=
  (e.mem.isLoad=true ∨ e.mem.isStore=true → e.sys.isCsr=false) ∧
  (e.sys.isCsr=false → e.wb.wbSel=0b01 → e.mem.isLoad=true)

section Stages

variable {e e' : ExMem} (h : AgreesMem e e') (hlegal : AccessLegal e')

include h hlegal

/-- An access in MEM drives the same request. -/
theorem AgreesMem.request (haccess : e'.mem.isLoad=true ∨ e'.mem.isStore=true) :
    dmemRequest e=dmemRequest e' := by
  have haddr := h.result (hlegal.1 haccess) (.inr haccess)
  unfold dmemRequest loadAddrMisaligned storeAddrMisaligned storeDataAligned
  rw [h.mem,haddr]
  cases hstore : e'.mem.isStore with
  | false => rfl
  | true => rw [h.store hstore]

/-- Only accesses drive requests, so the enables always agree. -/
theorem AgreesMem.enables : (dmemRequest e).readEn=(dmemRequest e').readEn ∧
    (dmemRequest e).writeEn=(dmemRequest e').writeEn := by
  by_cases haccess : e'.mem.isLoad=true ∨ e'.mem.isStore=true
  · rw [h.request hlegal haccess]
    exact ⟨rfl,rfl⟩
  · rw [not_or,Bool.not_eq_true,Bool.not_eq_true] at haccess
    simp only [dmemRequest,h.mem,haccess.1,haccess.2]
    exact ⟨rfl,rfl⟩

/-- The memory stage keeps agreement when loads see the same data. -/
theorem AgreesMem.memStage {rdata rdata' : Word} (hdata : e'.mem.isLoad=true → rdata=rdata') :
    AgreesWb (memStage e rdata) (memStage e' rdata') := by
  have hload : loadAddrMisaligned e=loadAddrMisaligned e' := by
    unfold loadAddrMisaligned
    rw [h.mem]
    cases hisLoad : e'.mem.isLoad with
    | false => rfl
    | true => rw [h.result (hlegal.1 (.inl hisLoad)) (.inr (.inl hisLoad))]
  have hstore : storeAddrMisaligned e=storeAddrMisaligned e' := by
    unfold storeAddrMisaligned
    rw [h.mem]
    cases hisStore : e'.mem.isStore with
    | false => rfl
    | true => rw [h.result (hlegal.1 (.inr hisStore)) (.inr (.inr hisStore))]
  refine ⟨h.pc,h.imm,h.rs1Addr,h.wb,?_,?_,?_,?_,?_,?_,?_,?_⟩
  · simp only [DataMemory.memStage,h.sys]
  · simp only [DataMemory.memStage,h.sys]
  · simp only [hasTrap,DataMemory.memStage,h.sys,hload,hstore]
  · simp only [DataMemory.memStage,h.sys]
  · simp only [DataMemory.memStage,h.sys]
  · exact fun hcsr hwrite _ => h.result hcsr (.inl hwrite)
  · intro hcsr hwrite hsel
    have hisLoad := hlegal.2 hcsr hsel
    simp only [DataMemory.memStage,h.mem,h.result hcsr (.inl hwrite),hdata hisLoad]
  · exact h.source

end Stages

section Writeback

variable {w w' : MemWb} (h : AgreesWb w w') {csr csr' : CsrState}
  (hcsr : eraseCounters csr=eraseCounters csr')

include h

/-- Agreeing records make the same CSR request. -/
theorem AgreesWb.csrReq : TrapCtrl.csrReq w=TrapCtrl.csrReq w' := by
  unfold TrapCtrl.csrReq
  rw [h.isCsr,h.trap]

/-- Agreeing records name the same CSR. -/
theorem AgreesWb.csrAddr : TrapCtrl.csrAddr w=TrapCtrl.csrAddr w' := by
  unfold TrapCtrl.csrAddr
  rw [h.imm]

/-- Agreeing records are rejected alike. -/
theorem AgreesWb.csrIllegal : wbCsrIllegal w=wbCsrIllegal w' := by
  unfold wbCsrIllegal
  rw [h.csrReq,h.csrAddr,h.csrOp]

/-- Agreeing CSR instructions have the same source data. -/
theorem AgreesWb.csrSource (hisCsr : w'.isCsr=true) : csrRs1Data w=csrRs1Data w' := by
  unfold csrRs1Data
  rw [h.csrOp,h.rs1Addr]
  cases hop : w'.csrOp.getLsbD 2 with
  | true => rfl
  | false => rw [h.source hisCsr hop]

include hcsr

/-- Agreeing records write the register file alike, provided no counter is
read into a register. -/
theorem AgreesWb.regfileWrite (regs : RegFile)
    (hcounter : w'.isCsr=true → isCounter (TrapCtrl.csrAddr w')=true → w'.wb.rdAddr=0) :
    regfileWrite regs (wbOf w csr)=regfileWrite regs (wbOf w' csr') ∧
    (wbOf w csr).regWriteEn=(wbOf w' csr').regWriteEn ∧
    ((wbOf w csr).regWriteEn=true → w'.wb.rdAddr≠0 → (wbOf w csr).rdWdata=(wbOf w' csr').rdWdata) := by
  have hen : (wbOf w csr).regWriteEn=(wbOf w' csr').regWriteEn := by
    simp only [wbOf,wbStage,h.wb,h.trap,h.csrIllegal]
  have hrd : (wbOf w csr).rdAddr=(wbOf w' csr').rdAddr := by
    simp only [wbOf,wbStage,h.wb]
  have hdata : (wbOf w csr).regWriteEn=true → w'.wb.rdAddr≠0 →
      (wbOf w csr).rdWdata=(wbOf w' csr').rdWdata := by
    intro hwrite hne
    have hregWrite : w'.wb.regWriteEn=true := by
      rw [hen] at hwrite
      simp only [wbOf,wbStage,Bool.and_eq_true] at hwrite
      exact hwrite.1
    simp only [wbOf,wbStage]
    unfold wbData
    rw [h.isCsr,h.wb,h.csrAddr,h.pc]
    cases hisCsr : w'.isCsr with
    | true =>
      have hnot : isCounter (TrapCtrl.csrAddr w')=false :=
        Bool.eq_false_of_not_eq_true fun hc => hne (hcounter hisCsr hc)
      simp only [if_true]
      exact csrRdata_erase hcsr _ hnot
    | false =>
      simp only [Bool.false_eq_true,if_false]
      split
      · rename_i hsel
        exact h.result hisCsr hregWrite hsel
      · rename_i hsel
        exact h.data hisCsr hregWrite hsel
      · rfl
      · rfl
  refine ⟨?_,hen,hdata⟩
  unfold Pipeline.regfileWrite
  rw [hen,hrd]
  split
  · rename_i hcond
    have hne : w'.wb.rdAddr≠0 := hcond.2
    rw [hdata (hen.trans hcond.1) hne]
  · rfl

/-- Agreeing records change the CSR file alike, up to the counters. -/
theorem AgreesWb.csrWrite :
    eraseCounters (writePhase csr (csrInOf w))=eraseCounters (writePhase csr' (csrInOf w')) := by
  have hsource : TrapCtrl.csrReq w'=true → csrRs1Data w=csrRs1Data w' := by
    intro hreq
    unfold TrapCtrl.csrReq at hreq
    rw [Bool.and_eq_true] at hreq
    exact h.csrSource hreq.1
  refine writePhase_erase hcsr ?_ ?_
  · simp only [writesCsr,csrInOf,h.csrReq,h.csrOp,h.csrAddr]
    cases hreq : TrapCtrl.csrReq w' with
    | false => rfl
    | true => rw [hsource hreq]
  · intro hwrites
    have hreq : TrapCtrl.csrReq w'=true := by
      simp only [writesCsr,csrWriteEn,csrInOf,Bool.and_eq_true] at hwrites
      exact hwrites.1.1.1
    exact ⟨h.csrAddr,hsource hreq,h.csrOp⟩

end Writeback

/-- An inert record changes no CSR but the counters. -/
theorem writePhase_inert {w : MemWb} (h : InertWb w) (csr : CsrState) :
    eraseCounters (writePhase csr (csrInOf w))=eraseCounters csr := by
  have hidle : writesCsr (csrInOf w)=false := by
    simp only [writesCsr,csrInOf,csrReq,h.csr,csrWriteEn]
    rfl
  unfold writePhase
  rw [hidle]
  rfl

end RichardCore.Agreement
