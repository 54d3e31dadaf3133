import RichardCore.TrapMachine

/-!
# Simulation through traps

Every slot of the pipeline either agrees with one instruction of the machine
with traps, oldest first, or has no effect: it is empty, or it was passed over
by a flush, or it stands behind an instruction that is about to flush and the
program put a word without effect there. The relation is kept by every clock
edge of the closed loop, in a flush as well.
-/

namespace RichardCore.TrapSimulation

open Packages Decoder Execute DataMemory CsrUnit TrapCtrl Hazard Pipeline Clocked Tracking
open ProgramOrder Effects Harness SequentialMachine Agreement Simulation TrapMachine

/-- The slot holds an instruction that no flush has passed over. -/
def live : Slot Executed → Bool
  | .bubble _ => false
  | .instr k => !k.survivor

/-- What a live slot holds. -/
theorem live_instr {slot : Slot Executed} (h : live slot=true) :
    ∃ k,slot=.instr k ∧ k.survivor=false := by
  cases slot with
  | bubble b => cases h
  | instr k => exact ⟨k,rfl,Bool.not_eq_true' _ ▸ h⟩

section Relation

variable {M : Type} (p : Setup M)

/-- Index of the instruction in MEM, when `n` instructions have completed. -/
def memAt (g : Tags) (n : ℕ) : ℕ := n+(live g.wb).toNat

/-- WB holds an instruction that flushes. -/
def wbFlushes (g : Tags) (n : ℕ) : Bool := live g.wb && flushesAt p n

/-- MEM holds an instruction of the machine. -/
def memLive (g : Tags) (n : ℕ) : Bool := live g.mem && !wbFlushes p g n

/-- Index of the instruction in EX. -/
def exAt (g : Tags) (n : ℕ) : ℕ := memAt g n+(memLive p g n).toNat

/-- MEM holds an instruction that will flush. -/
def memFlushes (g : Tags) (n : ℕ) : Bool := memLive p g n && flushesAt p (memAt g n)

/-- A flush in WB comes from an instruction of the machine. -/
theorem wbFlushes_instr {g : Tags} {n : ℕ} (h : wbFlushes p g n=true) :
    flushesAt p n=true ∧ ∃ k,g.wb=.instr k ∧ k.survivor=false := by
  unfold wbFlushes at h
  rw [Bool.and_eq_true] at h
  exact ⟨h.2,live_instr h.1⟩

/-- What a live MEM slot holds. -/
theorem memLive_instr {g : Tags} {n : ℕ} (h : memLive p g n=true) :
    ∃ k,g.mem=.instr k ∧ k.survivor=false := by
  unfold memLive at h
  rw [Bool.and_eq_true] at h
  exact live_instr h.1

/-- An instruction that flushes stands in front of EX. -/
def flushAhead (g : Tags) (n : ℕ) : Bool := wbFlushes p g n || memFlushes p g n

/-- The closed loop has completed `n` instructions, its live slots hold the
next ones and all other slots have no effect. -/
structure TrapSimulates (y : Sys M) (n : ℕ) : Prop where
  /-- Registers agree with their records. -/
  slots : SlotsOk y.tracked
  /-- Slots are in program order. -/
  order : InOrder y.tracked
  /-- The next commit address is the machine's. -/
  nextPc : y.tracked.tags.nextPc=(stateAt p n).pc
  /-- Register file. -/
  regs : y.tracked.core.regs=(stateAt p n).regs
  /-- CSR file, up to the counters. -/
  csr : eraseCounters y.tracked.core.csr=eraseCounters (stateAt p n).csr
  /-- Data memory, already past the instruction in WB. -/
  memory : y.memory=(stateAt p (memAt y.tracked.tags n)).memory
  /-- WB. -/
  wb : ∀ k,y.tracked.tags.wb=.instr k → k.survivor=false → k.next=nextAt p n ∧
    AgreesTrap y.tracked.core.memWb (completedAt p n)
  /-- WB without an instruction of the machine. -/
  wbIdle : live y.tracked.tags.wb=false → InertWb y.tracked.core.memWb
  /-- MEM. -/
  mem : ∀ k,y.tracked.tags.mem=.instr k → memLive p y.tracked.tags n=true →
    k.next=nextAt p (memAt y.tracked.tags n) ∧
    AgreesMem y.tracked.core.exMem (executedAt p (memAt y.tracked.tags n)) ∧
    y.tracked.core.exMem.instr=(executedAt p (memAt y.tracked.tags n)).instr
  /-- MEM without an instruction of the machine. -/
  memIdle : memLive p y.tracked.tags n=false → InertMem y.tracked.core.exMem
  /-- MEM goes on to the word behind it unless it has left the path. -/
  memNext : ∀ k,y.tracked.tags.mem=.instr k → y.tracked.core.exMem.branchTaken=false →
    k.next=k.pc+4
  /-- EX holds the fetched word, checked in the current mode, with the
  operands of the current register file. -/
  ex : ∀ k,y.tracked.tags.ex=.instr k → k.word=p.imem k.pc ∧
    k.mode=y.tracked.core.csr.privMode ∧
    y.tracked.core.idEx.rs1Rdata=readReg y.tracked.core.regs y.tracked.core.idEx.ctrl.rs1Addr ∧
    y.tracked.core.idEx.rs2Rdata=readReg y.tracked.core.regs y.tracked.core.idEx.ctrl.rs2Addr
  /-- ID holds the fetched word. -/
  id : ∀ f,y.tracked.tags.id=.instr f → f.word=p.imem f.pc
  /-- A load in MEM is no producer of the instruction in EX. -/
  loadUse : ∀ k,y.tracked.tags.ex=.instr k → y.tracked.core.exMem.mem.isLoad=true →
    y.tracked.core.exMem.wb.rdAddr=0 ∨
    (y.tracked.core.exMem.wb.rdAddr≠y.tracked.core.idEx.ctrl.rs1Addr ∧
      y.tracked.core.exMem.wb.rdAddr≠y.tracked.core.idEx.ctrl.rs2Addr)
  /-- A taken branch in MEM has emptied EX. -/
  jump : ∀ k,y.tracked.tags.ex=.instr k → y.tracked.core.exMem.branchTaken=false

/-- Memory accesses of the machine are no CSR accesses, and memory data is
written back by loads only. -/
theorem executedAt_accessLegal (n : ℕ) : AccessLegal (executedAt p n) :=
  @accessLegal_of_carries _ (decodedAt p n).instr (stateAt p n).csr.privMode.bits
    ⟨rfl,rfl,rfl,rfl,rfl⟩

/-- An instruction that is no CSR access, no load and takes no jump writes
back its ALU result. -/
theorem rdWdata_aluAt (n : ℕ) (hcsr : (executedAt p n).sys.isCsr=false)
    (hload : (executedAt p n).mem.isLoad=false) (hjump : (executedAt p n).branchTaken=false) :
    (wbOf (completedAt p n) (stateAt p n).csr).rdWdata=(executedAt p n).aluResult := by
  have hnotJump : (decodedAt p n).ctrl.exec.isJump=false := by
    have htaken : ((decodedAt p n).ctrl.exec.isJump || _)=false := hjump
    rw [Bool.or_eq_false_iff] at htaken
    exact htaken.1
  have hsel : (completedAt p n).wb.wbSel=0b00 := by
    have hsource : (executedAt p n).sys.isCsr=true ∨ (executedAt p n).wb.wbSel=0b00 ∨
        ((executedAt p n).wb.wbSel=0b01 ∧ (executedAt p n).mem.isLoad=true) ∨
        ((executedAt p n).wb.wbSel=0b10 ∧ (decodedAt p n).ctrl.exec.isJump=true) :=
      decoder_wbSel _ _
    rw [hcsr,hload,hnotJump] at hsource
    have hzero : (executedAt p n).wb.wbSel=0b00 := by simpa using hsource
    exact hzero
  have hcsrWb : (completedAt p n).isCsr=false := hcsr
  simp only [wbOf,wbStage,wbData,hcsrWb,hsel]
  rfl

end Relation

section Wires

variable {M : Type} {p : Setup M} {y : Sys M} {n : ℕ} (h : TrapSimulates p y n)

include h

/-- The pipeline is flushed exactly by the instruction in WB. -/
theorem TrapSimulates.flush_eq :
    flushWire y.tracked.core .low=wbFlushes p y.tracked.tags n := by
  unfold wbFlushes
  cases hlive : live y.tracked.tags.wb with
  | false => exact inert_flush (h.wbIdle hlive)
  | true =>
    obtain ⟨k,hk,hsurvivor⟩ := live_instr hlive
    obtain ⟨-,hagrees⟩ := h.wb k hk hsurvivor
    exact congrArg (fun t => t.trapFlushReq) (hagrees.trapOf_eq h.csr)

/-- The trap controller of a flush is the machine's. -/
theorem TrapSimulates.trap_eq (hflush : wbFlushes p y.tracked.tags n=true) :
    trapWires y.tracked.core .low=trapOf (completedAt p n) (stateAt p n).csr := by
  obtain ⟨-,k,hk,hsurvivor⟩ := wbFlushes_instr p hflush
  exact (h.wb k hk hsurvivor).2.trapOf_eq h.csr

/-- Writeback of the current cycle brings the CSR file to the machine's state
behind WB, up to the counters. -/
theorem TrapSimulates.csrNext :
    eraseCounters (coreStep y.tracked.core (y.inputs p.imem p.dev .low)).csr=
      eraseCounters (stateAt p (memAt y.tracked.tags n)).csr := by
  have hedge : (coreStep y.tracked.core (y.inputs p.imem p.dev .low)).csr=
      csrStep y.tracked.core.csr (csrInTrap y.tracked.core.memWb y.tracked.core.csr) := rfl
  rw [hedge]
  unfold memAt
  cases hlive : live y.tracked.tags.wb with
  | false =>
    have hinert := h.wbIdle hlive
    rw [csrInTrap_quiet (trapOf_inert hinert _),csrStep_writePhase _ rfl rfl rfl rfl]
    exact (writePhase_inert hinert _).trans h.csr
  | true =>
    obtain ⟨k,hk,hsurvivor⟩ := live_instr hlive
    exact (h.wb k hk hsurvivor).2.csrStep_erase h.csr

/-- The memory stage leaves the data memory as the machine does. -/
theorem TrapSimulates.memoryNext :
    p.dev.edge y.memory y.request=(stateAt p (exAt p y.tracked.tags n)).memory := by
  unfold exAt
  cases hlive : memLive p y.tracked.tags n with
  | false =>
    have hidle : y.request.writeEn=false := by
      simp only [Sys.request,dmemRequest,(h.memIdle hlive).mem.2]
      rfl
    unfold DataDevice.edge
    rw [hidle]
    exact h.memory
  | true =>
    obtain ⟨k,hk,-⟩ := memLive_instr p hlive
    obtain ⟨-,hagrees,-⟩ := h.mem k hk hlive
    have hlegal := executedAt_accessLegal p (memAt y.tracked.tags n)
    change _=p.dev.edge (stateAt p (memAt y.tracked.tags n)).memory
      (dmemRequest (executedAt p (memAt y.tracked.tags n)))
    unfold DataDevice.edge
    rw [h.memory]
    have hen := (hagrees.enables hlegal).2
    change y.request.writeEn=_ at hen
    rw [hen]
    split
    · rename_i hwrite
      have hstore : (executedAt p (memAt y.tracked.tags n)).mem.isStore=true := by
        simp only [dmemRequest,Bool.and_eq_true] at hwrite
        exact hwrite.1
      change p.dev.write _ (dmemRequest y.tracked.core.exMem)=_
      rw [hagrees.request hlegal (.inr hstore)]
    · rfl

/-- The core is in the machine's mode. -/
theorem TrapSimulates.mode_eq :
    y.tracked.core.csr.privMode=(stateAt p n).csr.privMode :=
  congrArg (fun c => c.privMode) h.csr

/-- The address behind WB is the machine's unless WB flushes. -/
theorem TrapSimulates.afterWb_eq (hquiet : wbFlushes p y.tracked.tags n=false) :
    afterWb y.tracked.tags=(stateAt p (memAt y.tracked.tags n)).pc := by
  unfold wbFlushes at hquiet
  unfold afterWb memAt
  cases hslot : y.tracked.tags.wb with
  | bubble b => exact h.nextPc
  | instr k =>
    rw [hslot] at hquiet
    cases hsurvivor : k.survivor with
    | true =>
      simp only [Slot.after,live,hsurvivor,if_true]
      exact h.nextPc
    | false =>
      simp only [live,hsurvivor,Bool.not_false,Bool.true_and] at hquiet
      simp only [Slot.after,live,hsurvivor,Bool.false_eq_true,if_false]
      change k.next=(stateAt p (n+1)).pc
      rw [stateAt_pc,hquiet]
      exact (h.wb k hslot hsurvivor).1

/-- The address behind MEM is the machine's unless WB or MEM flushes. -/
theorem TrapSimulates.afterMem_eq (hquiet : flushAhead p y.tracked.tags n=false) :
    afterMem y.tracked.tags=(stateAt p (exAt p y.tracked.tags n)).pc := by
  unfold flushAhead at hquiet
  rw [Bool.or_eq_false_iff] at hquiet
  obtain ⟨hwb,hmem⟩ := hquiet
  unfold afterMem
  rw [h.afterWb_eq hwb]
  unfold exAt
  cases hlive : memLive p y.tracked.tags n with
  | false =>
    unfold memLive at hlive
    rw [hwb,Bool.not_false,Bool.and_true] at hlive
    cases hslot : y.tracked.tags.mem with
    | bubble b => rfl
    | instr k =>
      rw [hslot] at hlive
      have hsurvivor : k.survivor=true := Bool.not_eq_false' _ ▸ hlive
      simp only [Slot.after,hsurvivor,if_true]
      rfl
  | true =>
    unfold memFlushes at hmem
    rw [hlive,Bool.true_and] at hmem
    obtain ⟨k,hk,hsurvivor⟩ := memLive_instr p hlive
    rw [hk]
    simp only [Slot.after,hsurvivor,Bool.false_eq_true,if_false]
    change k.next=(stateAt p (memAt y.tracked.tags n+1)).pc
    rw [stateAt_pc,hmem]
    exact (h.mem k hk hlive).1

/-- The mode behind WB, unless WB flushes. -/
theorem TrapSimulates.mode_mem (hquiet : wbFlushes p y.tracked.tags n=false) :
    (stateAt p (memAt y.tracked.tags n)).csr.privMode=y.tracked.core.csr.privMode := by
  rw [h.mode_eq]
  unfold wbFlushes at hquiet
  unfold memAt
  cases hlive : live y.tracked.tags.wb with
  | false => rfl
  | true =>
    rw [hlive,Bool.true_and] at hquiet
    exact stateAt_privMode p hquiet

/-- The mode behind MEM, unless WB or MEM flushes. -/
theorem TrapSimulates.mode_ex (hquiet : flushAhead p y.tracked.tags n=false) :
    (stateAt p (exAt p y.tracked.tags n)).csr.privMode=y.tracked.core.csr.privMode := by
  unfold flushAhead at hquiet
  rw [Bool.or_eq_false_iff] at hquiet
  obtain ⟨hwb,hmem⟩ := hquiet
  rw [←h.mode_mem hwb]
  unfold memFlushes at hmem
  unfold exAt
  cases hlive : memLive p y.tracked.tags n with
  | false => rfl
  | true =>
    rw [hlive,Bool.true_and] at hmem
    exact stateAt_privMode p hmem

/-- Control signals of the instruction in EX. -/
theorem TrapSimulates.ex_ctrl {k : Issued} (hk : y.tracked.tags.ex=.instr k) :
    y.tracked.core.idEx.ctrl=decoder (p.imem k.pc) y.tracked.core.csr.privMode.bits := by
  have hslot := h.slots.ex
  rw [hk] at hslot
  obtain ⟨hword,hmode,-,-⟩ := h.ex k hk
  rw [hslot.2.2,hword,hmode]

/-- The instruction in EX is the machine's unless a flush stands ahead. -/
theorem TrapSimulates.ex_decoded {k : Issued} (hk : y.tracked.tags.ex=.instr k)
    (hquiet : flushAhead p y.tracked.tags n=false) :
    k.pc=(stateAt p (exAt p y.tracked.tags n)).pc ∧
    y.tracked.core.idEx.pc=(decodedAt p (exAt p y.tracked.tags n)).pc ∧
    y.tracked.core.idEx.instr=(decodedAt p (exAt p y.tracked.tags n)).instr ∧
    y.tracked.core.idEx.ctrl=(decodedAt p (exAt p y.tracked.tags n)).ctrl := by
  have hslot := h.slots.ex
  have horder := h.order.ex
  rw [hk] at hslot horder
  obtain ⟨hpc,hinstr,-⟩ := hslot
  obtain ⟨hword,-,-,-⟩ := h.ex k hk
  have hkpc : k.pc=(stateAt p (exAt p y.tracked.tags n)).pc :=
    Eq.trans horder (h.afterMem_eq hquiet)
  refine ⟨hkpc,hpc.trans hkpc,?_,?_⟩
  · change _=p.imem (stateAt p _).pc
    rw [hinstr,hword,hkpc]
  · change _=decoder (p.imem (stateAt p _).pc) (stateAt p _).csr.privMode.bits
    rw [h.ex_ctrl hk,hkpc,h.mode_ex hquiet]

/-- Behind a flush that stands ahead EX holds one of the two next words. -/
theorem TrapSimulates.ex_shadow (hguarded : ∀ m,flushesAt p m=true → Guarded p m)
    (hahead : flushAhead p y.tracked.tags n=true) {k : Issued}
    (hk : y.tracked.tags.ex=.instr k) : Harmless y.tracked.core.idEx.ctrl := by
  have horder := h.order.ex
  rw [hk] at horder
  have hpc : k.pc=afterMem y.tracked.tags := horder
  rw [h.ex_ctrl hk,hpc]
  unfold afterMem
  cases hwb : wbFlushes p y.tracked.tags n with
  | true =>
    -- the flush is in WB, so MEM is empty, passed over, or the first of the words
    obtain ⟨hflush,j,hj,hsurvivor⟩ := wbFlushes_instr p hwb
    obtain ⟨hfirst,hsecond⟩ := hguarded n hflush
    have hafter : afterWb y.tracked.tags=(stateAt p n).pc+4 := by
      unfold afterWb
      rw [hj]
      simp only [Slot.after,hsurvivor,Bool.false_eq_true,if_false]
      rw [(h.wb j hj hsurvivor).1,nextAt_flush p hflush]
    rw [hafter,h.mode_eq]
    cases hmem : y.tracked.tags.mem with
    | bubble b => exact hfirst
    | instr m =>
      cases hpassed : m.survivor with
      | true =>
        simp only [Slot.after,hpassed,if_true]
        exact hfirst
      | false =>
        have hfollows := h.order.mem
        rw [hmem,hafter] at hfollows
        simp only [Slot.after,hpassed,Bool.false_eq_true,if_false]
        rw [h.memNext m hmem (h.jump k hk),hfollows hpassed]
        exact hsecond
  | false =>
    -- the flush is in MEM, so EX holds the first of them
    unfold flushAhead memFlushes at hahead
    rw [hwb,Bool.false_or,Bool.and_eq_true] at hahead
    obtain ⟨hlive,hflush⟩ := hahead
    obtain ⟨j,hj,hsurvivor⟩ := memLive_instr p hlive
    obtain ⟨hnext,-,-⟩ := h.mem j hj hlive
    rw [hj]
    simp only [Slot.after,hsurvivor,Bool.false_eq_true,if_false]
    rw [hnext,nextAt_flush p hflush,←h.mode_mem hwb]
    exact (hguarded _ hflush).1

end Wires

section Operands

variable {M : Type} {p : Setup M} {y : Sys M} {n : ℕ} (hp : TrapRegular p)
  (h : TrapSimulates p y n)

include hp h

/-- Writeback of the current cycle brings the register file to the machine's
state behind WB. -/
theorem TrapSimulates.regsNext :
    regfileWrite y.tracked.core.regs (wbWires y.tracked.core)=
      (stateAt p (memAt y.tracked.tags n)).regs := by
  unfold memAt
  cases hlive : live y.tracked.tags.wb with
  | false =>
    have hquiet := (silentWb_of_inert (h.wbIdle hlive)).regWrite
    rw [←coreStep_regs y.tracked.core (y.inputs p.imem p.dev .low) rfl,
      coreStep_regs_quiet _ _ rfl hquiet]
    exact h.regs
  | true =>
    obtain ⟨k,hk,hsurvivor⟩ := live_instr hlive
    obtain ⟨-,hagrees⟩ := h.wb k hk hsurvivor
    have hwrite := (hagrees.regfileWrite h.csr y.tracked.core.regs (hp.counterUnread n)).1
    change regfileWrite y.tracked.core.regs (wbOf y.tracked.core.memWb y.tracked.core.csr)=_
    rw [hwrite,h.regs]
    rfl

variable (hquiet : flushAhead p y.tracked.tags n=false)

include hquiet

omit hp in
/-- What MEM forwards is what the machine reads behind it: the ALU result is
the register result unless MEM holds a load, a jump or a CSR access. -/
theorem TrapSimulates.memForward {k : Issued} (hk : y.tracked.tags.ex=.instr k) (rs : RegAddr)
    (hload : y.tracked.core.exMem.mem.isLoad=true → y.tracked.core.exMem.wb.rdAddr=0 ∨
      y.tracked.core.exMem.wb.rdAddr≠rs)
    (hcsr : memLive p y.tracked.tags n=true → y.tracked.core.exMem.sys.isCsr=true →
      y.tracked.core.exMem.wb.rdAddr≠0 → y.tracked.core.exMem.wb.rdAddr≠rs) :
    readReg (stateAt p (exAt p y.tracked.tags n)).regs rs=
      if y.tracked.core.exMem.wb.regWriteEn=true ∧ y.tracked.core.exMem.wb.rdAddr≠0 ∧
          y.tracked.core.exMem.wb.rdAddr=rs then y.tracked.core.exMem.aluResult
      else readReg (stateAt p (memAt y.tracked.tags n)).regs rs := by
  unfold flushAhead memFlushes at hquiet
  rw [Bool.or_eq_false_iff] at hquiet
  unfold exAt
  cases hlive : memLive p y.tracked.tags n with
  | false =>
    rw [if_neg]
    · rfl
    · rintro ⟨hen,hne,-⟩
      obtain hidle | hidle := (h.memIdle hlive).wb
      · rw [hidle] at hen
        cases hen
      · exact hne hidle
  | true =>
    obtain ⟨j,hj,-⟩ := memLive_instr p hlive
    obtain ⟨-,hagrees,-⟩ := h.mem j hj hlive
    have hjump := h.jump k hk
    have hflush := hquiet.2
    rw [hlive,Bool.true_and] at hflush
    obtain ⟨htrap,hillegal,-,-⟩ := trapOf_quiet hflush
    generalize memAt y.tracked.tags n=m at *
    have hwb : (completedAt p m).wb=y.tracked.core.exMem.wb := hagrees.wb.symm
    have hen : (wbOf (completedAt p m) (stateAt p m).csr).regWriteEn=
        y.tracked.core.exMem.wb.regWriteEn := by
      simp only [wbOf,wbStage,htrap,hillegal,hwb]
      simp
    have hrd : (wbOf (completedAt p m) (stateAt p m).csr).rdAddr=y.tracked.core.exMem.wb.rdAddr := by
      simp only [wbOf,wbStage,hwb]
    change readReg (stateAt p (m+1)).regs rs=_
    rw [stateAt_regs,readReg_write,hen,hrd]
    by_cases hhit : y.tracked.core.exMem.wb.regWriteEn=true ∧ y.tracked.core.exMem.wb.rdAddr≠0 ∧
        y.tracked.core.exMem.wb.rdAddr=rs
    · obtain ⟨hwrite,hne,heq⟩ := hhit
      rw [if_pos ⟨hwrite,hne,heq⟩,if_pos ⟨hwrite,hne,heq⟩]
      have hnotCsr : (executedAt p m).sys.isCsr=false := by
        rw [←hagrees.sys]
        exact Bool.eq_false_of_not_eq_true fun hc => hcsr hlive hc hne heq
      have hnotLoad : (executedAt p m).mem.isLoad=false := by
        rw [←hagrees.mem]
        refine Bool.eq_false_of_not_eq_true fun hl => ?_
        obtain hz | hz := hload hl
        · exact hne hz
        · exact hz heq
      have hresult : y.tracked.core.exMem.aluResult=(executedAt p m).aluResult :=
        hagrees.result hnotCsr (.inl (hagrees.wb ▸ hwrite))
      rw [hresult]
      exact rdWdata_aluAt p m hnotCsr hnotLoad (hagrees.taken.symm.trans hjump)
    · rw [if_neg hhit,if_neg hhit]

/-- The forwarding multiplexer delivers the machine's register value. -/
theorem TrapSimulates.forward {k : Issued} (hk : y.tracked.tags.ex=.instr k) (rs : RegAddr)
    (rdata : Word) (hrdata : rdata=readReg y.tracked.core.regs rs)
    (hload : y.tracked.core.exMem.mem.isLoad=true → y.tracked.core.exMem.wb.rdAddr=0 ∨
      y.tracked.core.exMem.wb.rdAddr≠rs)
    (hcsr : memLive p y.tracked.tags n=true → y.tracked.core.exMem.sys.isCsr=true →
      y.tracked.core.exMem.wb.rdAddr≠0 → y.tracked.core.exMem.wb.rdAddr≠rs) :
    forwardMux y.tracked.core rs rdata=readReg (stateAt p (exAt p y.tracked.tags n)).regs rs := by
  have hrd : (wbWires y.tracked.core).rdAddr=y.tracked.core.memWb.wb.rdAddr := rfl
  rw [forwardMux_eq,h.memForward hquiet hk rs hload hcsr,←h.regsNext hp,readReg_write,hrd,hrdata]

/-- The instruction in EX does not use the register a CSR access in MEM reads
into. -/
theorem TrapSimulates.csrUnused (hlive : memLive p y.tracked.tags n=true)
    (hisCsr : y.tracked.core.exMem.sys.isCsr=true) (hne : y.tracked.core.exMem.wb.rdAddr≠0) :
    ¬(usesRs1 (decodedAt p (exAt p y.tracked.tags n)).instr=true ∧
      (decodedAt p (exAt p y.tracked.tags n)).ctrl.rs1Addr=y.tracked.core.exMem.wb.rdAddr) ∧
    ¬(usesRs2 (decodedAt p (exAt p y.tracked.tags n)).instr=true ∧
      (decodedAt p (exAt p y.tracked.tags n)).ctrl.rs2Addr=y.tracked.core.exMem.wb.rdAddr) := by
  obtain ⟨j,hj,-⟩ := memLive_instr p hlive
  obtain ⟨-,hagrees,-⟩ := h.mem j hj hlive
  have hflush : flushesAt p (memAt y.tracked.tags n)=false := by
    unfold flushAhead memFlushes at hquiet
    rw [hlive,Bool.true_and,Bool.or_eq_false_iff] at hquiet
    exact hquiet.2
  -- it is the instruction right behind the access
  have hindex : exAt p y.tracked.tags n=memAt y.tracked.tags n+1 := by
    unfold exAt
    rw [hlive]
    rfl
  have hwb : (completedAt p (memAt y.tracked.tags n)).wb=y.tracked.core.exMem.wb :=
    hagrees.wb.symm
  have hsys : (completedAt p (memAt y.tracked.tags n)).isCsr=true := by
    rw [hagrees.sys] at hisCsr
    exact hisCsr
  have hresult := hp.resultUnused (memAt y.tracked.tags n) hflush hsys (by rw [hwb]; exact hne)
  rw [hwb] at hresult
  rw [hindex]
  exact hresult

/-- Every operand the instruction in EX uses is the machine's; so is an
operand read from x0. -/
theorem TrapSimulates.operands {k : Issued} (hk : y.tracked.tags.ex=.instr k) :
    (usesRs1 (decodedAt p (exAt p y.tracked.tags n)).instr=true ∨
        (decodedAt p (exAt p y.tracked.tags n)).ctrl.rs1Addr=0 →
      exRs1RdataFwd y.tracked.core=(decodedAt p (exAt p y.tracked.tags n)).rs1Rdata) ∧
    (usesRs2 (decodedAt p (exAt p y.tracked.tags n)).instr=true →
      exRs2RdataFwd y.tracked.core=(decodedAt p (exAt p y.tracked.tags n)).rs2Rdata) := by
  obtain ⟨-,-,-,hctrl⟩ := h.ex_decoded hk hquiet
  obtain ⟨-,-,hrs1,hrs2⟩ := h.ex k hk
  have hload := h.loadUse k hk
  unfold exRs1RdataFwd exRs2RdataFwd
  rw [hctrl] at hrs1 hrs2 hload ⊢
  refine ⟨?_,?_⟩
  · intro huses
    refine h.forward hp hquiet hk _ _ hrs1 (fun hl => (hload hl).imp_right fun hne => hne.1) ?_
    intro hlive hisCsr hne heq
    obtain hu | hz := huses
    · exact (h.csrUnused hp hquiet hlive hisCsr hne).1 ⟨hu,heq.symm⟩
    · exact hne (heq.trans hz)
  · intro huses
    refine h.forward hp hquiet hk _ _ hrs2 (fun hl => (hload hl).imp_right fun hne => hne.2) ?_
    intro hlive hisCsr hne heq
    exact (h.csrUnused hp hquiet hlive hisCsr hne).2 ⟨huses,heq.symm⟩

/-- The execute stage acts like the machine's. -/
theorem TrapSimulates.exOut {k : Issued} (hk : y.tracked.tags.ex=.instr k) :
    ExAgrees (decodedAt p (exAt p y.tracked.tags n)).ctrl (exWires y.tracked.core)
      (exOf (decodedAt p (exAt p y.tracked.tags n))) := by
  obtain ⟨-,hpc,-,hctrl⟩ := h.ex_decoded hk hquiet
  obtain ⟨hrs1,hrs2⟩ := h.operands hp hquiet hk
  unfold exWires
  rw [hctrl,hpc]
  exact exStage_agrees_any _ _ _ hrs1 hrs2

/-- The record leaving EX agrees with the machine, and so does the successor
address recorded for it. -/
theorem TrapSimulates.exNext {k : Issued} (hk : y.tracked.tags.ex=.instr k) :
    (Tracking.executed y.tracked.core .low k).next=nextAt p (exAt p y.tracked.tags n) ∧
    AgreesMem (exOutput y.tracked.core) (executedAt p (exAt p y.tracked.tags n)) ∧
    (exOutput y.tracked.core).instr=(executedAt p (exAt p y.tracked.tags n)).instr := by
  obtain ⟨hkpc,hpc,hinstr,hctrl⟩ := h.ex_decoded hk hquiet
  obtain ⟨hrs1,hrs2⟩ := h.operands hp hquiet hk
  obtain ⟨htaken,htarget,hresult⟩ := h.exOut hp hquiet hk
  refine ⟨?_,⟨hpc,congrArg (fun d => d.imm) hctrl,congrArg (fun d => d.rs1Addr) hctrl,
    congrArg (fun d => d.mem) hctrl,congrArg (fun d => d.wb) hctrl,
    congrArg (fun d => d.sys) hctrl,htaken,hresult,?_,?_⟩,hinstr⟩
  · change (if takenWire y.tracked.core=true then (exWires y.tracked.core).branchTarget else k.pc+4)=
      if (exOf (decodedAt p _)).branchTaken=true then (exOf (decodedAt p _)).branchTarget
      else (stateAt p _).pc+4
    unfold takenWire
    rw [htaken,hkpc]
    split
    · rename_i h'
      exact htarget h'
    · rfl
  · intro hstore
    exact hrs2 ((decoder_access _ _ (.inr hstore)).2.2.2 hstore)
  · intro hisCsr hop
    have huses := (decoder_csr _ _ hisCsr).2.2
    refine hrs1 (.inl (huses.trans ?_))
    change (!(executedAt p (exAt p y.tracked.tags n)).sys.csrOp.getLsbD 2)=true
    rw [hop]
    rfl

end Operands

section Step

variable {M : Type} {p : Setup M} {y : Sys M} {n : ℕ} (h : TrapSimulates p y n)

include h

/-- A live instruction in MEM moves to WB, unless WB flushes it. -/
theorem TrapSimulates.wb_step :
    live (sysStep p.imem p.dev y .low).tracked.tags.wb=memLive p y.tracked.tags n := by
  have hwb : (sysStep p.imem p.dev y .low).tracked.tags.wb=_ :=
    tagStep_wb y.tracked.core y.tracked.tags (y.inputs p.imem p.dev .low) rfl
  have hflush : flushWire y.tracked.core (y.inputs p.imem p.dev .low).irq=_ := h.flush_eq
  rw [hflush] at hwb
  rw [hwb]
  unfold memLive
  cases wbFlushes p y.tracked.tags n with
  | true =>
    rw [Bool.not_true,Bool.and_false]
    rfl
  | false =>
    rw [Bool.not_false,Bool.and_true]
    rfl

/-- The instruction behind WB is the next to complete. -/
theorem TrapSimulates.memAt_step :
    memAt (sysStep p.imem p.dev y .low).tracked.tags (memAt y.tracked.tags n)=
      exAt p y.tracked.tags n := by
  conv_lhs => unfold memAt
  rw [h.wb_step]
  rfl

/-- A flush moves from MEM to WB. -/
theorem TrapSimulates.wbFlushes_step :
    wbFlushes p (sysStep p.imem p.dev y .low).tracked.tags (memAt y.tracked.tags n)=
      memFlushes p y.tracked.tags n := by
  unfold wbFlushes memFlushes
  rw [h.wb_step]

/-- An instruction in EX moves to MEM as one of the machine, unless a flush
stands ahead. -/
theorem TrapSimulates.mem_step :
    memLive p (sysStep p.imem p.dev y .low).tracked.tags (memAt y.tracked.tags n)=
      (filled y.tracked.tags.ex && !flushAhead p y.tracked.tags n) := by
  have hmem : (sysStep p.imem p.dev y .low).tracked.tags.mem=_ :=
    tagStep_mem y.tracked.core y.tracked.tags (y.inputs p.imem p.dev .low) rfl
  have hflush : flushWire y.tracked.core (y.inputs p.imem p.dev .low).irq=_ := h.flush_eq
  conv_lhs => unfold memLive
  rw [h.wbFlushes_step,hmem]
  unfold flushAhead
  cases y.tracked.tags.ex with
  | bubble b => rfl
  | instr k =>
    simp only [leaveEx,Tracking.executed,live,filled,hflush,Bool.true_and,Bool.not_or]

variable (hp : TrapRegular p)

include hp

/-- What leaves EX without being an instruction of the machine has no
effect. -/
theorem TrapSimulates.memIdle_step
    (hidle : (filled y.tracked.tags.ex && !flushAhead p y.tracked.tags n)=false) :
    InertMem (exOutput y.tracked.core) := by
  cases hslot : y.tracked.tags.ex with
  | bubble b =>
    have hex := h.slots.ex
    rw [hslot] at hex
    exact ⟨hex.2.mem,hex.2.wb,hex.2.sys⟩
  | instr k =>
    rw [hslot] at hidle
    have hahead : flushAhead p y.tracked.tags n=true := Bool.not_eq_false' _ ▸ hidle
    have hharmless := h.ex_shadow hp.guarded hahead hslot
    exact ⟨hharmless.mem,hharmless.wb,hharmless.sys⟩

/-- One clock edge of the closed loop keeps the simulation; it completes the
instruction in WB, if there is one, and flushes the pipeline if it has to. -/
theorem trapSimulates_step :
    TrapSimulates p (sysStep p.imem p.dev y .low) (memAt y.tracked.tags n) := by
  have hinputs : (y.inputs p.imem p.dev .low).rst=false := rfl
  have htracked : (sysStep p.imem p.dev y .low).tracked=
      trackStep y.tracked (y.inputs p.imem p.dev .low) := rfl
  have hflushEq : flushWire y.tracked.core (y.inputs p.imem p.dev .low).irq=
      wbFlushes p y.tracked.tags n := h.flush_eq
  have hexMem : (sysStep p.imem p.dev y .low).tracked.core.exMem=exOutput y.tracked.core :=
    coreStep_exMem y.tracked.core _ hinputs
  have hinvariants := inOrder_step y.tracked (y.inputs p.imem p.dev .low) ⟨h.slots,h.order⟩
  refine ⟨hinvariants.1,hinvariants.2,?_,?_,h.csrNext,?_,?_,?_,?_,?_,?_,?_,?_,?_,?_⟩
  · have hnext : (sysStep p.imem p.dev y .low).tracked.tags.nextPc=_ :=
      tagStep_nextPc y.tracked.core y.tracked.tags _ hinputs
    rw [hnext,hflushEq]
    cases hflush : wbFlushes p y.tracked.tags n with
    | false => exact h.afterWb_eq hflush
    | true =>
      have htrap : trapWires y.tracked.core (y.inputs p.imem p.dev .low).irq=_ := h.trap_eq hflush
      obtain ⟨hflushes,k,hk,hsurvivor⟩ := wbFlushes_instr p hflush
      have hindex : memAt y.tracked.tags n=n+1 := by
        unfold memAt
        rw [hk]
        simp only [live,hsurvivor]
        rfl
      rw [hindex,stateAt_pc,hflushes,htrap]
      rfl
  · exact (coreStep_regs y.tracked.core _ hinputs).trans (h.regsNext hp)
  · rw [h.memAt_step]
    exact h.memoryNext
  · intro k hk hsurvivor
    obtain ⟨-,hslot,hmemWb⟩ := wb_instr_inv hinputs hk
    have hlive : memLive p y.tracked.tags n=true := by
      rw [←h.wb_step,hk]
      simp only [live,hsurvivor]
      rfl
    obtain ⟨hnext,hagrees,hinstr⟩ := h.mem k hslot hlive
    refine ⟨hnext,?_⟩
    rw [htracked,hmemWb]
    refine agreesMem_trap hagrees hinstr (executedAt_accessLegal p _) ?_
    intro hload
    change p.dev.read y.memory (dmemRequest y.tracked.core.exMem)=
      p.dev.read _ (dmemRequest (executedAt p (memAt y.tracked.tags n)))
    rw [h.memory,hagrees.request (executedAt_accessLegal p _) (.inl hload)]
  · intro hidle
    rw [h.wb_step] at hidle
    have hmemWb : (sysStep p.imem p.dev y .low).tracked.core.memWb=_ :=
      coreStep_memWb y.tracked.core _ hinputs
    rw [hmemWb]
    split
    · exact memWbFlush_inert _
    · exact memStage_inert (h.memIdle hidle) _
  · intro k hk hlive
    rw [h.mem_step,Bool.and_eq_true,Bool.not_eq_true'] at hlive
    obtain ⟨-,j,hslot,rfl⟩ := mem_instr_inv hinputs hk
    rw [h.memAt_step,hexMem]
    exact h.exNext hp hlive.2 hslot
  · intro hidle
    rw [h.mem_step] at hidle
    rw [hexMem]
    exact h.memIdle_step hp hidle
  · intro k hk htaken
    obtain ⟨-,j,-,rfl⟩ := mem_instr_inv hinputs hk
    rw [hexMem] at htaken
    have hnot : takenWire y.tracked.core=false := htaken
    simp only [Tracking.executed,hnot,Bool.false_eq_true,if_false]
  · intro k hk
    obtain ⟨hno,-,-,hidEx,f,hf,rfl⟩ := ex_instr_inv hinputs hk
    have hregs : (sysStep p.imem p.dev y .low).tracked.core.regs=
        regfileWrite y.tracked.core.regs (wbWires y.tracked.core) :=
      coreStep_regs y.tracked.core _ hinputs
    refine ⟨h.id f hf,?_,?_,?_⟩
    · have hmode : (sysStep p.imem p.dev y .low).tracked.core.csr.privMode=
          (stateAt p (memAt y.tracked.tags n)).csr.privMode :=
        congrArg (fun c => c.privMode) h.csrNext
      rw [hmode]
      exact (h.mode_mem (hflushEq.symm.trans hno)).symm
    · rw [hregs,htracked,hidEx]
      exact regfileRead_eq _ _ _
    · rw [hregs,htracked,hidEx]
      exact regfileRead_eq _ _ _
  · intro f hf
    obtain ⟨-,hold | rfl⟩ := id_instr_inv hinputs hf
    · exact h.id f hold
    · rfl
  · intro k hk
    obtain ⟨-,-,hstall,hidEx,-⟩ := ex_instr_inv hinputs hk
    rw [hexMem,htracked,hidEx]
    intro hload
    have hisLoad : y.tracked.core.idEx.ctrl.mem.isLoad=true := hload
    simp only [loadUseWire,loadUseStall,hisLoad,Bool.true_and,Bool.and_eq_false_iff,
      bne_eq_false_iff_eq,Bool.or_eq_false_iff,beq_eq_false_iff_ne] at hstall
    exact hstall
  · intro k hk
    obtain ⟨-,htaken,-,-,-⟩ := ex_instr_inv hinputs hk
    rw [hexMem]
    exact htaken

end Step

end RichardCore.TrapSimulation
