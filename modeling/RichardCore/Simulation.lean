import RichardCore.Agreement
import RichardCore.Effects

/-!
# Simulation of the sequential machine

Every filled slot of the pipeline agrees with one instruction of the
sequential machine, oldest first. The relation is kept by every clock edge
of the closed loop as long as the machine takes no trap and no instruction
reads the result of a CSR access right behind it.
-/

namespace RichardCore.Simulation

open Packages Decoder Execute DataMemory CsrUnit TrapCtrl Hazard Pipeline Clocked Tracking
open ProgramOrder Effects Harness SequentialMachine Agreement

/-- The slot holds an instruction. -/
def filled {α : Type} : Slot α → Bool
  | .bubble _ => false
  | .instr _ => true

/-- A program with its data device and initial data memory. -/
structure Setup (M : Type) where
  /-- Instruction memory. -/
  imem : Word → BitVec 32
  /-- Data device. -/
  dev : DataDevice M
  /-- Initial data memory. -/
  memory : M

/-- Memory accesses are no CSR accesses, and memory data is written back by
loads only. -/
theorem accessLegal_of_carries {e : ExMem} {word : BitVec 32} {mode : BitVec 2}
    (h : CarriesMem e (decoder word mode)) : AccessLegal e := by
  unfold AccessLegal
  rw [h.mem,h.sys,h.wb]
  refine ⟨?_,?_⟩
  · intro haccess
    rw [(decoder_access _ _ haccess).1]
    rfl
  · intro hcsr hsel
    have hsource := decoder_wbSel word mode
    rw [hcsr,hsel] at hsource
    obtain h | h | ⟨-,h⟩ | ⟨h,-⟩ := hsource
    · cases h
    · exact absurd h (by decide)
    · exact h
    · exact absurd h (by decide)

section Relation

variable {M : Type} (p : Setup M)

/-- Sequential machine before instruction `n`. -/
def Setup.machine (n : ℕ) : SeqState M := seqRun p.imem p.dev p.memory n

/-- Closed loop at cycle `t` with the interrupt lines low. -/
def Setup.cycle (t : ℕ) : Sys M := sysRun p.imem p.dev p.memory (fun _ => .low) t

/-- Instruction `n` as decoded. -/
def Setup.decoded (n : ℕ) : IdEx := seqId p.imem (p.machine n)

/-- Instruction `n` as executed. -/
def Setup.executed (n : ℕ) : ExMem := seqEx p.imem (p.machine n)

/-- Instruction `n` after its memory access. -/
def Setup.completed (n : ℕ) : MemWb := seqMem p.imem p.dev (p.machine n)

/-- Instruction `n` takes no trap and is no return. -/
def TrapFree (n : ℕ) : Prop :=
  hasTrap (p.completed n)=false ∧ wbCsrIllegal (p.completed n)=false ∧
    (p.completed n).isMret=false ∧ (p.completed n).isSret=false

/-- Instruction `n` reads no counter into a register. -/
def CounterFree (n : ℕ) : Prop :=
  (p.completed n).isCsr=true → isCounter (csrAddr (p.completed n))=true →
    (p.completed n).wb.rdAddr=0

/-- Instruction `n+1` does not use the register that instruction `n` reads
from a CSR. -/
def CsrResultUnused (n : ℕ) : Prop :=
  (p.completed n).isCsr=true → (p.completed n).wb.rdAddr≠0 →
    ¬(usesRs1 (p.decoded (n+1)).instr=true ∧
        (p.decoded (n+1)).ctrl.rs1Addr=(p.completed n).wb.rdAddr) ∧
    ¬(usesRs2 (p.decoded (n+1)).instr=true ∧
        (p.decoded (n+1)).ctrl.rs2Addr=(p.completed n).wb.rdAddr)

/-- A program the pipeline runs like the machine. -/
structure Regular : Prop where
  /-- No traps. -/
  trapFree : ∀ n,TrapFree p n
  /-- No counter reads. -/
  counterFree : ∀ n,CounterFree p n
  /-- No use of a CSR result by the next instruction. -/
  csrUnused : ∀ n,CsrResultUnused p n

/-- Index of the instruction in MEM, when WB holds instruction `n`. -/
def memIndex (g : Tags) (n : ℕ) : ℕ := n+(filled g.wb).toNat

/-- Index of the instruction in EX. -/
def exIndex (g : Tags) (n : ℕ) : ℕ := memIndex g n+(filled g.mem).toNat

/-- The closed loop has completed `n` instructions and its filled slots hold
the next ones. -/
structure Simulates (y : Sys M) (n : ℕ) : Prop where
  /-- Registers agree with their records. -/
  slots : SlotsOk y.tracked
  /-- Slots are in program order. -/
  order : InOrder y.tracked
  /-- The next commit address is the machine's. -/
  nextPc : y.tracked.tags.nextPc=(p.machine n).pc
  /-- Register file. -/
  regs : y.tracked.core.regs=(p.machine n).regs
  /-- CSR file, up to the counters. -/
  csr : eraseCounters y.tracked.core.csr=eraseCounters (p.machine n).csr
  /-- Data memory, already past the instruction in WB. -/
  memory : y.memory=(p.machine (memIndex y.tracked.tags n)).memory
  /-- WB. -/
  wb : ∀ k,y.tracked.tags.wb=.instr k → k.survivor=false ∧ k.next=(p.machine (n+1)).pc ∧
    AgreesWb y.tracked.core.memWb (p.completed n)
  /-- MEM. -/
  mem : ∀ k,y.tracked.tags.mem=.instr k → k.survivor=false ∧
    k.next=(p.machine (memIndex y.tracked.tags n+1)).pc ∧
    AgreesMem y.tracked.core.exMem (p.executed (memIndex y.tracked.tags n))
  /-- EX holds the fetched word, checked in machine mode, with the operands of
  the current register file. -/
  ex : ∀ k,y.tracked.tags.ex=.instr k → k.word=p.imem k.pc ∧ k.mode=.m ∧
    y.tracked.core.idEx.rs1Rdata=readReg y.tracked.core.regs y.tracked.core.idEx.ctrl.rs1Addr ∧
    y.tracked.core.idEx.rs2Rdata=readReg y.tracked.core.regs y.tracked.core.idEx.ctrl.rs2Addr
  /-- ID holds the fetched word. -/
  id : ∀ f,y.tracked.tags.id=.instr f → f.word=p.imem f.pc
  /-- A load in MEM is no producer of the instruction in EX. -/
  loadUse : ∀ k,y.tracked.tags.ex=.instr k → y.tracked.core.exMem.mem.isLoad=true →
    y.tracked.core.exMem.wb.rdAddr=0 ∨
    (y.tracked.core.exMem.wb.rdAddr≠y.tracked.core.idEx.ctrl.rs1Addr ∧
      y.tracked.core.exMem.wb.rdAddr≠y.tracked.core.idEx.ctrl.rs2Addr)
  /-- A taken branch in MEM has emptied EX. -/
  jump : ∀ k,y.tracked.tags.ex=.instr k → y.tracked.core.exMem.branchTaken=false

/-- Memory accesses of the machine are no CSR accesses, and memory data is
written back by loads only. -/
theorem executed_accessLegal (n : ℕ) : AccessLegal (p.executed n) :=
  @accessLegal_of_carries _ (p.decoded n).instr (p.machine n).csr.privMode.bits
    ⟨rfl,rfl,rfl,rfl,rfl⟩

/-- An instruction that is no CSR access, no load and takes no jump writes
back its ALU result. -/
theorem rdWdata_aluResult (n : ℕ) (hcsr : (p.executed n).sys.isCsr=false)
    (hload : (p.executed n).mem.isLoad=false) (hjump : (p.executed n).branchTaken=false) :
    (wbOf (p.completed n) (p.machine n).csr).rdWdata=(p.executed n).aluResult := by
  have hnotJump : (p.decoded n).ctrl.exec.isJump=false := by
    have htaken : ((p.decoded n).ctrl.exec.isJump || _)=false := hjump
    rw [Bool.or_eq_false_iff] at htaken
    exact htaken.1
  have hsel : (p.completed n).wb.wbSel=0b00 := by
    have hsource : (p.executed n).sys.isCsr=true ∨ (p.executed n).wb.wbSel=0b00 ∨
        ((p.executed n).wb.wbSel=0b01 ∧ (p.executed n).mem.isLoad=true) ∨
        ((p.executed n).wb.wbSel=0b10 ∧ (p.decoded n).ctrl.exec.isJump=true) := decoder_wbSel _ _
    rw [hcsr,hload,hnotJump] at hsource
    have hzero : (p.executed n).wb.wbSel=0b00 := by simpa using hsource
    exact hzero
  have hcsrWb : (p.completed n).isCsr=false := hcsr
  simp only [wbOf,wbStage,wbData,hcsrWb,hsel]
  rfl

/-- The machine is in machine mode. -/
theorem machine_privMode (n : ℕ) : (p.machine n).csr.privMode=.m :=
  seqRun_privMode p.imem p.dev p.memory n

end Relation

section Step

variable {M : Type} {p : Setup M} {y : Sys M} {n : ℕ} (hp : Regular p) (h : Simulates p y n)

include hp h

/-- The slot in WB takes no trap and is no return. -/
theorem Simulates.wbQuiet : hasTrap y.tracked.core.memWb=false ∧
    wbCsrIllegal y.tracked.core.memWb=false ∧ y.tracked.core.memWb.isMret=false ∧
    y.tracked.core.memWb.isSret=false := by
  cases hslot : y.tracked.tags.wb with
  | bubble b =>
    have hwb := h.slots.wb
    rw [hslot] at hwb
    have hquiet := inert_exception hwb.2
    rw [hasSyncException_eq,Bool.or_eq_false_iff] at hquiet
    exact ⟨hquiet.1,hquiet.2,hwb.2.mret,hwb.2.sret⟩
  | instr k =>
    obtain ⟨-,-,hagrees⟩ := h.wb k hslot
    obtain ⟨htrap,hillegal,hmret,hsret⟩ := hp.trapFree n
    exact ⟨hagrees.trap.trans htrap,hagrees.csrIllegal.trans hillegal,hagrees.isMret.trans hmret,
      hagrees.isSret.trans hsret⟩

/-- Nothing flushes the pipeline. -/
theorem Simulates.noFlush : flushWire y.tracked.core .low=false := by
  obtain ⟨htrap,hillegal,hmret,hsret⟩ := h.wbQuiet hp
  rw [flushWire_eq,hasInterrupt_low,hasSyncException_eq,htrap,hillegal,hmret,hsret]
  rfl

/-- Writeback of the current cycle brings the register file to the machine's
state behind WB. -/
theorem Simulates.regsNext :
    regfileWrite y.tracked.core.regs (wbWires y.tracked.core)=
      (p.machine (memIndex y.tracked.tags n)).regs := by
  unfold memIndex
  cases hslot : y.tracked.tags.wb with
  | bubble b =>
    have hwb := h.slots.wb
    rw [hslot] at hwb
    have hquiet := (silentWb_of_inert hwb.2).regWrite
    rw [←coreStep_regs y.tracked.core (y.inputs p.imem p.dev .low) rfl,
      coreStep_regs_quiet _ _ rfl hquiet]
    exact h.regs
  | instr k =>
    obtain ⟨-,-,hagrees⟩ := h.wb k hslot
    have hwrite := (hagrees.regfileWrite h.csr y.tracked.core.regs (hp.counterFree n)).1
    change regfileWrite y.tracked.core.regs (wbOf y.tracked.core.memWb y.tracked.core.csr)=_
    rw [hwrite,h.regs]
    rfl

/-- Writeback of the current cycle brings the CSR file to the machine's state
behind WB, up to the counters. -/
theorem Simulates.csrNext :
    eraseCounters (coreStep y.tracked.core (y.inputs p.imem p.dev .low)).csr=
      eraseCounters (p.machine (memIndex y.tracked.tags n)).csr := by
  obtain ⟨htrap,hillegal,hmret,hsret⟩ := h.wbQuiet hp
  have hquiet : hasSyncException y.tracked.core=false := by
    rw [hasSyncException_eq,htrap,hillegal]
    rfl
  -- without trap and return the edge is the write phase of the record in WB
  have hedge : (coreStep y.tracked.core (y.inputs p.imem p.dev .low)).csr=
      writePhase y.tracked.core.csr (csrInOf y.tracked.core.memWb) := by
    have hirq : (y.inputs p.imem p.dev .low).irq=.low := rfl
    rw [coreStep_csr]
    unfold csrWires
    rw [hirq,trapWires_quiet hquiet,hmret,hsret]
    rfl
  rw [hedge]
  unfold memIndex
  cases hslot : y.tracked.tags.wb with
  | bubble b =>
    have hwb := h.slots.wb
    rw [hslot] at hwb
    exact (writePhase_inert hwb.2 _).trans h.csr
  | instr k =>
    obtain ⟨-,-,hagrees⟩ := h.wb k hslot
    exact hagrees.csrWrite h.csr

omit hp in
/-- The memory stage leaves the data memory as the machine does. -/
theorem Simulates.memoryNext :
    p.dev.edge y.memory y.request=(p.machine (exIndex y.tracked.tags n)).memory := by
  unfold exIndex
  cases hslot : y.tracked.tags.mem with
  | bubble b =>
    have hmem := h.slots.mem
    rw [hslot] at hmem
    have hidle : y.request.writeEn=false := by
      simp only [Sys.request,dmemRequest,hmem.2.mem.2]
      rfl
    unfold DataDevice.edge
    rw [hidle]
    exact h.memory
  | instr k =>
    obtain ⟨-,-,hagrees⟩ := h.mem k hslot
    have hlegal := executed_accessLegal p (memIndex y.tracked.tags n)
    change _=p.dev.edge (p.machine (memIndex y.tracked.tags n)).memory
      (dmemRequest (p.executed (memIndex y.tracked.tags n)))
    unfold DataDevice.edge
    rw [h.memory]
    have hen := (hagrees.enables hlegal).2
    change y.request.writeEn=_ at hen
    rw [hen]
    split
    · rename_i hwrite
      have hstore : (p.executed (memIndex y.tracked.tags n)).mem.isStore=true := by
        simp only [dmemRequest,Bool.and_eq_true] at hwrite
        exact hwrite.1
      change p.dev.write _ (dmemRequest y.tracked.core.exMem)=_
      rw [hagrees.request hlegal (.inr hstore)]
    · rfl

omit hp in
/-- The address behind WB is the machine's. -/
theorem Simulates.afterWb_eq :
    afterWb y.tracked.tags=(p.machine (memIndex y.tracked.tags n)).pc := by
  unfold afterWb memIndex
  cases hslot : y.tracked.tags.wb with
  | bubble b => exact h.nextPc
  | instr k =>
    obtain ⟨hsurvivor,hnext,-⟩ := h.wb k hslot
    simp only [Slot.after,hsurvivor,Bool.false_eq_true,if_false]
    exact hnext

omit hp in
/-- The address behind MEM is the machine's. -/
theorem Simulates.afterMem_eq :
    afterMem y.tracked.tags=(p.machine (exIndex y.tracked.tags n)).pc := by
  unfold afterMem exIndex
  rw [h.afterWb_eq]
  cases hslot : y.tracked.tags.mem with
  | bubble b => rfl
  | instr k =>
    obtain ⟨hsurvivor,hnext,-⟩ := h.mem k hslot
    simp only [Slot.after,hsurvivor,Bool.false_eq_true,if_false]
    exact hnext

omit hp in
/-- The instruction in EX is the machine's. -/
theorem Simulates.ex_decoded {k : Issued} (hk : y.tracked.tags.ex=.instr k) :
    k.pc=(p.machine (exIndex y.tracked.tags n)).pc ∧
    y.tracked.core.idEx.pc=(p.decoded (exIndex y.tracked.tags n)).pc ∧
    y.tracked.core.idEx.instr=(p.decoded (exIndex y.tracked.tags n)).instr ∧
    y.tracked.core.idEx.ctrl=(p.decoded (exIndex y.tracked.tags n)).ctrl := by
  have hslot := h.slots.ex
  have horder := h.order.ex
  rw [hk] at hslot horder
  obtain ⟨hpc,hinstr,hctrl⟩ := hslot
  obtain ⟨hword,hmode,-,-⟩ := h.ex k hk
  have hkpc : k.pc=(p.machine (exIndex y.tracked.tags n)).pc := Eq.trans horder h.afterMem_eq
  refine ⟨hkpc,hpc.trans hkpc,?_,?_⟩
  · change _=p.imem (p.machine _).pc
    rw [hinstr,hword,hkpc]
  · change _=decoder (p.imem (p.machine _).pc) (p.machine _).csr.privMode.bits
    rw [hctrl,hword,hkpc,hmode,machine_privMode]

/-- What MEM forwards is what the machine reads behind it: the ALU result is
the register result unless MEM holds a load, a jump or a CSR access. -/
theorem Simulates.memForward {k : Issued} (hk : y.tracked.tags.ex=.instr k) (rs : RegAddr)
    (hload : y.tracked.core.exMem.mem.isLoad=true → y.tracked.core.exMem.wb.rdAddr=0 ∨
      y.tracked.core.exMem.wb.rdAddr≠rs)
    (hcsr : filled y.tracked.tags.mem=true → y.tracked.core.exMem.sys.isCsr=true →
      y.tracked.core.exMem.wb.rdAddr≠0 → y.tracked.core.exMem.wb.rdAddr≠rs) :
    readReg (p.machine (exIndex y.tracked.tags n)).regs rs=
      if y.tracked.core.exMem.wb.regWriteEn=true ∧ y.tracked.core.exMem.wb.rdAddr≠0 ∧
          y.tracked.core.exMem.wb.rdAddr=rs then y.tracked.core.exMem.aluResult
      else readReg (p.machine (memIndex y.tracked.tags n)).regs rs := by
  unfold exIndex
  cases hslot : y.tracked.tags.mem with
  | bubble b =>
    have hmem := h.slots.mem
    rw [hslot] at hmem
    rw [if_neg]
    · rfl
    · rintro ⟨hen,hne,-⟩
      obtain hquiet | hquiet := hmem.2.wb
      · rw [hquiet] at hen
        cases hen
      · exact hne hquiet
  | instr j =>
    rw [hslot] at hcsr
    obtain ⟨-,-,hagrees⟩ := h.mem j hslot
    have hjump := h.jump k hk
    obtain ⟨htrap,hillegal,-,-⟩ := hp.trapFree (memIndex y.tracked.tags n)
    generalize memIndex y.tracked.tags n=m at *
    have hregs : (p.machine (m+(filled (Slot.instr j)).toNat)).regs=
        regfileWrite (p.machine m).regs (wbOf (p.completed m) (p.machine m).csr) := rfl
    have hwb : (p.completed m).wb=y.tracked.core.exMem.wb := hagrees.wb.symm
    have hen : (wbOf (p.completed m) (p.machine m).csr).regWriteEn=
        y.tracked.core.exMem.wb.regWriteEn := by
      simp only [wbOf,wbStage,htrap,hillegal,hwb]
      simp
    have hrd : (wbOf (p.completed m) (p.machine m).csr).rdAddr=y.tracked.core.exMem.wb.rdAddr := by
      simp only [wbOf,wbStage,hwb]
    rw [hregs,readReg_write,hen,hrd]
    by_cases hhit : y.tracked.core.exMem.wb.regWriteEn=true ∧ y.tracked.core.exMem.wb.rdAddr≠0 ∧
        y.tracked.core.exMem.wb.rdAddr=rs
    · obtain ⟨hwrite,hne,heq⟩ := hhit
      rw [if_pos ⟨hwrite,hne,heq⟩,if_pos ⟨hwrite,hne,heq⟩]
      have hnotCsr : (p.executed m).sys.isCsr=false := by
        rw [←hagrees.sys]
        exact Bool.eq_false_of_not_eq_true fun hc => hcsr rfl hc hne heq
      have hnotLoad : (p.executed m).mem.isLoad=false := by
        rw [←hagrees.mem]
        refine Bool.eq_false_of_not_eq_true fun hl => ?_
        obtain hz | hz := hload hl
        · exact hne hz
        · exact hz heq
      have hresult : y.tracked.core.exMem.aluResult=(p.executed m).aluResult :=
        hagrees.result hnotCsr (.inl (hagrees.wb ▸ hwrite))
      rw [hresult]
      exact rdWdata_aluResult p m hnotCsr hnotLoad (hagrees.taken.symm.trans hjump)
    · rw [if_neg hhit,if_neg hhit]

/-- The forwarding multiplexer delivers the machine's register value. -/
theorem Simulates.forward {k : Issued} (hk : y.tracked.tags.ex=.instr k) (rs : RegAddr) (rdata : Word)
    (hrdata : rdata=readReg y.tracked.core.regs rs)
    (hload : y.tracked.core.exMem.mem.isLoad=true → y.tracked.core.exMem.wb.rdAddr=0 ∨
      y.tracked.core.exMem.wb.rdAddr≠rs)
    (hcsr : filled y.tracked.tags.mem=true → y.tracked.core.exMem.sys.isCsr=true →
      y.tracked.core.exMem.wb.rdAddr≠0 → y.tracked.core.exMem.wb.rdAddr≠rs) :
    forwardMux y.tracked.core rs rdata=readReg (p.machine (exIndex y.tracked.tags n)).regs rs := by
  have hrd : (wbWires y.tracked.core).rdAddr=y.tracked.core.memWb.wb.rdAddr := rfl
  rw [forwardMux_eq,h.memForward hp hk rs hload hcsr,←h.regsNext hp,readReg_write,hrd,hrdata]

/-- The instruction in EX does not use the register a CSR access in MEM reads
into. -/
theorem Simulates.csrUnused (hfilled : filled y.tracked.tags.mem=true)
    (hisCsr : y.tracked.core.exMem.sys.isCsr=true) (hne : y.tracked.core.exMem.wb.rdAddr≠0) :
    ¬(usesRs1 (p.decoded (exIndex y.tracked.tags n)).instr=true ∧
      (p.decoded (exIndex y.tracked.tags n)).ctrl.rs1Addr=y.tracked.core.exMem.wb.rdAddr) ∧
    ¬(usesRs2 (p.decoded (exIndex y.tracked.tags n)).instr=true ∧
      (p.decoded (exIndex y.tracked.tags n)).ctrl.rs2Addr=y.tracked.core.exMem.wb.rdAddr) := by
  cases hslot : y.tracked.tags.mem with
  | bubble b =>
    rw [hslot] at hfilled
    cases hfilled
  | instr j =>
    -- it is the instruction right behind the access
    obtain ⟨-,-,hagrees⟩ := h.mem j hslot
    have hindex : exIndex y.tracked.tags n=memIndex y.tracked.tags n+1 := by
      unfold exIndex
      rw [hslot]
      rfl
    have hwb : (p.completed (memIndex y.tracked.tags n)).wb=y.tracked.core.exMem.wb :=
      hagrees.wb.symm
    have hsys : (p.completed (memIndex y.tracked.tags n)).isCsr=true := by
      rw [hagrees.sys] at hisCsr
      exact hisCsr
    have hresult := hp.csrUnused (memIndex y.tracked.tags n) hsys (by rw [hwb]; exact hne)
    rw [hwb] at hresult
    rw [hindex]
    exact hresult

/-- Every operand the instruction in EX uses is the machine's; so is an
operand read from x0. -/
theorem Simulates.operands {k : Issued} (hk : y.tracked.tags.ex=.instr k) :
    (usesRs1 (p.decoded (exIndex y.tracked.tags n)).instr=true ∨
        (p.decoded (exIndex y.tracked.tags n)).ctrl.rs1Addr=0 →
      exRs1RdataFwd y.tracked.core=(p.decoded (exIndex y.tracked.tags n)).rs1Rdata) ∧
    (usesRs2 (p.decoded (exIndex y.tracked.tags n)).instr=true →
      exRs2RdataFwd y.tracked.core=(p.decoded (exIndex y.tracked.tags n)).rs2Rdata) := by
  obtain ⟨-,-,-,hctrl⟩ := h.ex_decoded hk
  obtain ⟨-,-,hrs1,hrs2⟩ := h.ex k hk
  have hload := h.loadUse k hk
  unfold exRs1RdataFwd exRs2RdataFwd
  rw [hctrl] at hrs1 hrs2 hload ⊢
  refine ⟨?_,?_⟩
  · intro huses
    refine h.forward hp hk _ _ hrs1 (fun hl => (hload hl).imp_right fun hne => hne.1) ?_
    intro hfilled hisCsr hne heq
    obtain hu | hz := huses
    · exact (h.csrUnused hp hfilled hisCsr hne).1 ⟨hu,heq.symm⟩
    · exact hne (heq.trans hz)
  · intro huses
    refine h.forward hp hk _ _ hrs2 (fun hl => (hload hl).imp_right fun hne => hne.2) ?_
    intro hfilled hisCsr hne heq
    exact (h.csrUnused hp hfilled hisCsr hne).2 ⟨huses,heq.symm⟩

/-- The execute stage acts like the machine's. -/
theorem Simulates.exOut {k : Issued} (hk : y.tracked.tags.ex=.instr k) :
    ExAgrees (p.decoded (exIndex y.tracked.tags n)).ctrl (exWires y.tracked.core)
      (exOf (p.decoded (exIndex y.tracked.tags n))) := by
  obtain ⟨-,hpc,-,hctrl⟩ := h.ex_decoded hk
  obtain ⟨hrs1,hrs2⟩ := h.operands hp hk
  have hlegal : (p.decoded (exIndex y.tracked.tags n)).ctrl.sys.illegalInstr=false := by
    have htrap := (hp.trapFree (exIndex y.tracked.tags n)).1
    simp only [hasTrap,Bool.or_eq_false_iff] at htrap
    exact htrap.1.1.1.1
  unfold exWires
  rw [hctrl,hpc]
  exact exStage_agrees _ _ _ hlegal hrs1 hrs2

/-- The record leaving EX agrees with the machine, and so does the successor
address recorded for it. -/
theorem Simulates.exNext {k : Issued} (hk : y.tracked.tags.ex=.instr k) :
    AgreesMem (exOutput y.tracked.core) (p.executed (exIndex y.tracked.tags n)) ∧
    (Tracking.executed y.tracked.core .low k).next=
      (p.machine (exIndex y.tracked.tags n+1)).pc := by
  obtain ⟨hkpc,hpc,-,hctrl⟩ := h.ex_decoded hk
  obtain ⟨hrs1,hrs2⟩ := h.operands hp hk
  obtain ⟨htaken,htarget,hresult⟩ := h.exOut hp hk
  refine ⟨⟨hpc,congrArg (fun d => d.imm) hctrl,congrArg (fun d => d.rs1Addr) hctrl,
    congrArg (fun d => d.mem) hctrl,congrArg (fun d => d.wb) hctrl,
    congrArg (fun d => d.sys) hctrl,htaken,hresult,?_,?_⟩,?_⟩
  · intro hstore
    exact hrs2 ((decoder_access _ _ (.inr hstore)).2.2.2 hstore)
  · intro hisCsr hop
    have huses := (decoder_csr _ _ hisCsr).2.2
    refine hrs1 (.inl (huses.trans ?_))
    change (!(p.executed (exIndex y.tracked.tags n)).sys.csrOp.getLsbD 2)=true
    rw [hop]
    rfl
  · change (if takenWire y.tracked.core=true then (exWires y.tracked.core).branchTarget else k.pc+4)=
      if (exOf (p.decoded _)).branchTaken=true then (exOf (p.decoded _)).branchTarget
      else (p.machine _).pc+4
    unfold takenWire
    rw [htaken,hkpc]
    split
    · rename_i h'
      exact htarget h'
    · rfl

/-- One clock edge of the closed loop keeps the simulation; it completes the
instruction in WB, if there is one. -/
theorem simulates_step :
    Simulates p (sysStep p.imem p.dev y .low) (memIndex y.tracked.tags n) := by
  have hflush := h.noFlush hp
  have hinputs : (y.inputs p.imem p.dev .low).rst=false := rfl
  have htracked : (sysStep p.imem p.dev y .low).tracked=
      trackStep y.tracked (y.inputs p.imem p.dev .low) := rfl
  have hwb : (sysStep p.imem p.dev y .low).tracked.tags.wb=y.tracked.tags.mem :=
    wb_noFlush hinputs hflush
  have hindex : memIndex (sysStep p.imem p.dev y .low).tracked.tags (memIndex y.tracked.tags n)=
      exIndex y.tracked.tags n := by
    conv_lhs => unfold memIndex
    rw [hwb]
    rfl
  have hexMem : (sysStep p.imem p.dev y .low).tracked.core.exMem=exOutput y.tracked.core :=
    coreStep_exMem y.tracked.core _ hinputs
  have hinvariants := inOrder_step y.tracked (y.inputs p.imem p.dev .low) ⟨h.slots,h.order⟩
  refine ⟨hinvariants.1,hinvariants.2,?_,?_,h.csrNext hp,?_,?_,?_,?_,?_,?_,?_⟩
  · exact (nextPc_noFlush hinputs hflush).trans h.afterWb_eq
  · exact (coreStep_regs y.tracked.core _ hinputs).trans (h.regsNext hp)
  · rw [hindex]
    exact h.memoryNext
  · intro k hk
    obtain ⟨-,hslot,hmemWb⟩ := wb_instr_inv hinputs hk
    obtain ⟨hsurvivor,hnext,hagrees⟩ := h.mem k hslot
    refine ⟨hsurvivor,hnext,?_⟩
    rw [htracked,hmemWb]
    refine hagrees.memStage (executed_accessLegal p _) ?_
    intro hload
    change p.dev.read y.memory (dmemRequest y.tracked.core.exMem)=
      p.dev.read _ (dmemRequest (p.executed (memIndex y.tracked.tags n)))
    rw [h.memory,hagrees.request (executed_accessLegal p _) (.inl hload)]
  · intro k hk
    obtain ⟨-,j,hslot,rfl⟩ := mem_instr_inv hinputs hk
    obtain ⟨hagrees,hnext⟩ := h.exNext hp hslot
    rw [hindex,hexMem]
    exact ⟨hflush,hnext,hagrees⟩
  · intro k hk
    obtain ⟨-,-,-,hidEx,f,hf,rfl⟩ := ex_instr_inv hinputs hk
    have hregs : (sysStep p.imem p.dev y .low).tracked.core.regs=
        regfileWrite y.tracked.core.regs (wbWires y.tracked.core) :=
      coreStep_regs y.tracked.core _ hinputs
    refine ⟨h.id f hf,?_,?_,?_⟩
    · have hpriv := congrArg (fun c => c.privMode) h.csr
      change y.tracked.core.csr.privMode=(p.machine n).csr.privMode at hpriv
      rw [machine_privMode] at hpriv
      exact hpriv
    · rw [hregs,htracked,hidEx]
      exact regfileRead_eq _ _ _
    · rw [hregs,htracked,hidEx]
      exact regfileRead_eq _ _ _
  · intro f hf
    obtain ⟨-,hold | rfl⟩ := id_instr_inv hinputs hf
    · exact h.id f hold
    · rfl
  · intro k hk
    obtain ⟨-,-,hstall,hidEx,-⟩ := ex_instr_inv hinputs hk
    rw [hexMem,htracked,hidEx]
    intro hload
    have hisLoad : y.tracked.core.idEx.ctrl.mem.isLoad=true := hload
    simp only [loadUseWire,loadUseStall,hisLoad,Bool.true_and,Bool.and_eq_false_iff,
      bne_eq_false_iff_eq,Bool.or_eq_false_iff,beq_eq_false_iff_ne] at hstall
    exact hstall
  · intro k hk
    obtain ⟨-,htaken,-,-,-⟩ := ex_instr_inv hinputs hk
    rw [hexMem]
    exact htaken

end Step

end RichardCore.Simulation
