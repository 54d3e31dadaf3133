import RichardCore.Clocked
import RichardCore.Pipeline

/-!
# Tracked pipeline slots

Ghost records follow every fetched instruction through the pipeline under
the same flush and stall wires as the hardware registers: its order number,
its address and word, the mode in which ID checked it, and the successor
address EX computed for it. A slot without an instruction records which
flush emptied it. The core never reads the records; the invariant ties them
to the contents of the pipeline registers.
-/

namespace RichardCore.Tracking

open Packages Decoder Execute DataMemory CsrUnit TrapCtrl Hazard Pipeline Clocked

/-- An instruction as fetched. -/
structure Fetched where
  /-- Position in fetch order. -/
  seq : ℕ
  /-- Fetch address. -/
  pc : Word
  /-- Fetched word. -/
  word : BitVec 32
  deriving DecidableEq

/-- An instruction past ID. -/
structure Issued extends Fetched where
  /-- Privilege mode of its decoder check. -/
  mode : PrivMode
  deriving DecidableEq

/-- An instruction past EX. -/
structure Executed extends Issued where
  /-- Address of its successor in program order. -/
  next : Word
  /-- It was in EX during a trap flush and was not removed. -/
  survivor : Bool
  deriving DecidableEq

/-- Why a slot holds no instruction. A flushed register keeps an address of
its own: zero in IF/ID, the old one in ID/EX and MEM/WB. -/
inductive Bubble where
  /-- Cleared by reset. -/
  | reset
  /-- Cleared by the stall behind a load at the given address. -/
  | loadUse (load : Word)
  /-- Cleared by a taken branch or jump to the target. -/
  | jump (left target : Word)
  /-- Cleared or passed over by a trap or return to the target. -/
  | trap (left target : Word)
  deriving DecidableEq

/-- The address left behind in an emptied slot. -/
def Bubble.addr : Bubble → Word
  | .reset => 0
  | .loadUse load => load
  | .jump left _ => left
  | .trap left _ => left

/-- The address at which the program goes on after the emptying event. -/
def Bubble.resume : Bubble → Word
  | .reset => resetPc
  | .loadUse load => load+4
  | .jump _ target => target
  | .trap _ target => target

/-- Contents of one pipeline slot. -/
inductive Slot (α : Type) where
  | bubble (b : Bubble)
  | instr (a : α)
  deriving DecidableEq

/-- Address held by a slot. -/
def Slot.addr {α : Type} (pcOf : α → Word) : Slot α → Word
  | .bubble b => b.addr
  | .instr a => pcOf a

/-- Transport a slot to the next stage. -/
def Slot.map {α β : Type} (f : α → β) : Slot α → Slot β
  | .bubble b => .bubble b
  | .instr a => .instr (f a)

/-- Ghost records of the whole pipeline. -/
structure Tags where
  /-- Order number of the instruction being fetched. -/
  seq : ℕ
  /-- Address of the oldest instruction that has not committed. -/
  nextPc : Word
  /-- Slot in ID. -/
  id : Slot Fetched
  /-- Slot in EX. -/
  ex : Slot Issued
  /-- Slot in MEM. -/
  mem : Slot Executed
  /-- Slot in WB. -/
  wb : Slot Executed

/-- Ghost records after reset. -/
def tagsReset (seq : ℕ) : Tags :=
  ⟨seq,resetPc,.bubble .reset,.bubble .reset,.bubble .reset,.bubble .reset⟩

/-- Record of an instruction leaving EX. -/
def executed (s : CoreState) (irq : IrqLines) (k : Issued) : Executed :=
  ⟨k,if takenWire s then (exWires s).branchTarget else k.pc+4,flushWire s irq⟩

/-- Address of the instruction after a slot whose predecessors end at
`before`: a survivor of an earlier flush is not part of program order. -/
def Slot.after (before : Word) : Slot Executed → Word
  | .bubble _ => before
  | .instr k => if k.survivor then before else k.next

/-- Record of a front-end slot emptied while its register held `left`. -/
def emptied (s : CoreState) (irq : IrqLines) (left : Word) : Bubble :=
  if flushWire s irq then .trap left (trapWires s irq).trapNextPc
  else if takenWire s then .jump left (exWires s).branchTarget
  else .loadUse left

/-- Record leaving EX; an empty slot that meets a trap flush continues at the
trap's target. -/
def leaveEx (s : CoreState) (irq : IrqLines) : Slot Issued → Slot Executed
  | .bubble b => .bubble (if flushWire s irq then .trap b.addr (trapWires s irq).trapNextPc else b)
  | .instr k => .instr (executed s irq k)

/-- An emptied front-end slot keeps the given address. -/
theorem emptied_addr (s : CoreState) (irq : IrqLines) (left : Word) :
    (emptied s irq left).addr=left := by
  unfold emptied
  split
  · rfl
  · split <;> rfl

/-- Ghost records after one clock edge, moved by the hardware's own wires. -/
def tagStep (s : CoreState) (g : Tags) (i : Inputs) : Tags :=
  let c := controlWires ⟨true,true⟩ s i.irq
  { seq := if !i.rst && c.ifStallEn then g.seq else g.seq+1
    nextPc :=
      if i.rst then resetPc
      else if flushWire s i.irq then (trapWires s i.irq).trapNextPc
      else g.wb.after g.nextPc
    id := pipeReg i.rst c.ifIdFlushEn c.ifIdStallEn (.bubble .reset)
      (.bubble (emptied s i.irq 0)) g.id (.instr ⟨g.seq,s.pc,i.imemRdata⟩)
    ex := pipeReg i.rst c.idExFlushEn c.idExStallEn (.bubble .reset)
      (.bubble (emptied s i.irq (g.ex.addr fun k => k.pc))) g.ex
      (g.id.map fun f => ⟨f,s.csr.privMode⟩)
    mem := pipeReg i.rst false c.exMemStallEn (.bubble .reset) (.bubble .reset) g.mem
      (leaveEx s i.irq g.ex)
    wb := pipeReg i.rst (flushWire s i.irq) false (.bubble .reset)
      (.bubble (.trap (g.wb.addr fun k => k.pc) (trapWires s i.irq).trapNextPc)) g.wb g.mem }

/-- The core together with its ghost records. -/
structure Tracked where
  /-- Hardware state. -/
  core : CoreState
  /-- Ghost records. -/
  tags : Tags

/-- One clock edge of the tracked core. -/
def trackStep (x : Tracked) (i : Inputs) : Tracked := ⟨coreStep x.core i,tagStep x.core x.tags i⟩

/-- The tracked core after reset. -/
def trackReset : Tracked := ⟨coreReset,tagsReset 0⟩

/-- A run of the tracked core from reset. -/
def trackedRun (inputs : ℕ → Inputs) (t : ℕ) : Tracked := runFrom trackStep trackReset inputs t

/-- Erasing the ghost records leaves the run of the plain core. -/
theorem trackedRun_core (inputs : ℕ → Inputs) (t : ℕ) :
    (trackedRun inputs t).core=runFrom coreStep coreReset inputs t :=
  runFrom_project (fun x => x.core) (fun _ _ => rfl) trackReset inputs t

/-- One more cycle of a tracked run. -/
theorem trackedRun_succ (inputs : ℕ → Inputs) (t : ℕ) :
    trackedRun inputs (t+1)=trackStep (trackedRun inputs t) (inputs t) := rfl

section Edge

variable (s : CoreState) (g : Tags) (i : Inputs) (hrst : i.rst=false)

include hrst

/-- The order number advances unless a load-use stall freezes fetch. -/
theorem tagStep_seq : (tagStep s g i).seq=
    if !flushWire s i.irq && !takenWire s && loadUseWire s then g.seq else g.seq+1 := by
  simp only [tagStep,controlWires_tied,hrst]
  simp

/-- ID record after a clock edge. -/
theorem tagStep_id : (tagStep s g i).id=
    if flushWire s i.irq || takenWire s then .bubble (emptied s i.irq 0)
    else if loadUseWire s then g.id
    else .instr ⟨g.seq,s.pc,i.imemRdata⟩ := by
  simp only [tagStep,controlWires_tied,pipeReg,hrst]
  cases flushWire s i.irq <;> cases takenWire s <;> cases loadUseWire s <;> simp

/-- EX record after a clock edge. -/
theorem tagStep_ex : (tagStep s g i).ex=
    if flushWire s i.irq || takenWire s || loadUseWire s then
      .bubble (emptied s i.irq (g.ex.addr fun k => k.pc))
    else g.id.map fun f => ⟨f,s.csr.privMode⟩ := by
  simp only [tagStep,controlWires_tied,pipeReg,hrst]
  simp

/-- MEM record after a clock edge. -/
theorem tagStep_mem : (tagStep s g i).mem=leaveEx s i.irq g.ex := by
  simp only [tagStep,controlWires_tied,pipeReg,hrst]
  simp

/-- WB record after a clock edge. -/
theorem tagStep_wb : (tagStep s g i).wb=
    if flushWire s i.irq then
      .bubble (.trap (g.wb.addr fun k => k.pc) (trapWires s i.irq).trapNextPc)
    else g.mem := by
  simp only [tagStep,pipeReg,hrst]
  simp

/-- Next commit address after a clock edge. -/
theorem tagStep_nextPc : (tagStep s g i).nextPc=
    if flushWire s i.irq then (trapWires s i.irq).trapNextPc else g.wb.after g.nextPc := by
  simp only [tagStep,hrst]
  simp

end Edge

/-- No system action: no CSR access, exception or return. -/
def QuietSys (c : SysCtrl) : Prop :=
  c.isCsr=false ∧ c.illegalInstr=false ∧ c.isEcall=false ∧ c.isEbreak=false ∧
    c.isMret=false ∧ c.isSret=false

/-- No register write that could be observed. -/
def QuietWrite (c : WbCtrl) : Prop := c.regWriteEn=false ∨ c.rdAddr=0

/-- No memory access. -/
def QuietMem (c : MemCtrl) : Prop := c.isLoad=false ∧ c.isStore=false

/-- Control signals of an emptied slot in EX. -/
structure InertEx (d : Decoded) : Prop where
  /-- No conditional branch. -/
  branch : d.exec.isBranch=false
  /-- No jump. -/
  jump : d.exec.isJump=false
  /-- No memory access. -/
  mem : QuietMem d.mem
  /-- No register write. -/
  wb : QuietWrite d.wb
  /-- No system action. -/
  sys : QuietSys d.sys

/-- Contents of an emptied slot in MEM. -/
structure InertMem (e : ExMem) : Prop where
  /-- No memory access. -/
  mem : QuietMem e.mem
  /-- No register write. -/
  wb : QuietWrite e.wb
  /-- No system action. -/
  sys : QuietSys e.sys

/-- Contents of an emptied slot in WB. -/
structure InertWb (w : MemWb) : Prop where
  /-- No register write. -/
  wb : QuietWrite w.wb
  /-- No CSR access. -/
  csr : w.isCsr=false
  /-- No exception. -/
  trap : hasTrap w=false
  /-- No machine return. -/
  mret : w.isMret=false
  /-- No supervisor return. -/
  sret : w.isSret=false

/-- EX/MEM carries the decoder outputs of its instruction. -/
structure CarriesMem (e : ExMem) (d : Decoded) : Prop where
  /-- Memory control. -/
  mem : e.mem=d.mem
  /-- Writeback control. -/
  wb : e.wb=d.wb
  /-- System control. -/
  sys : e.sys=d.sys
  /-- Immediate. -/
  imm : e.imm=d.imm
  /-- First source field. -/
  rs1Addr : e.rs1Addr=d.rs1Addr

/-- MEM/WB carries the decoder outputs of its instruction and the faults of
its own address. -/
structure CarriesWb (w : MemWb) (d : Decoded) : Prop where
  /-- Writeback control. -/
  wb : w.wb=d.wb
  /-- CSR flag. -/
  isCsr : w.isCsr=d.sys.isCsr
  /-- CSR operation. -/
  csrOp : w.csrOp=d.sys.csrOp
  /-- Immediate. -/
  imm : w.imm=d.imm
  /-- First source field. -/
  rs1Addr : w.rs1Addr=d.rs1Addr
  /-- Illegal flag. -/
  illegalInstr : w.illegalInstr=d.sys.illegalInstr
  /-- Environment call. -/
  isEcall : w.isEcall=d.sys.isEcall
  /-- Breakpoint. -/
  isEbreak : w.isEbreak=d.sys.isEbreak
  /-- Machine return. -/
  isMret : w.isMret=d.sys.isMret
  /-- Supervisor return. -/
  isSret : w.isSret=d.sys.isSret
  /-- Load fault of the access address. -/
  loadFault : w.loadFault=(d.mem.isLoad && addrMisaligned d.mem.memSize w.aluResult)
  /-- Store fault of the access address. -/
  storeFault : w.storeFault=(d.mem.isStore && addrMisaligned d.mem.memSize w.aluResult)

/-- IF/ID agrees with its record. -/
def IdOk (r : IfId) : Slot Fetched → Prop
  | .bubble b => r=ifIdNop ∧ b.addr=0
  | .instr f => r=⟨f.pc,f.word⟩

/-- ID/EX agrees with its record. -/
def ExOk (r : IdEx) : Slot Issued → Prop
  | .bubble b => r.pc=b.addr ∧ InertEx r.ctrl
  | .instr k => r.pc=k.pc ∧ r.instr=k.word ∧ r.ctrl=decoder k.word k.mode.bits

/-- EX/MEM agrees with its record. -/
def MemOk (r : ExMem) : Slot Executed → Prop
  | .bubble b => r.pc=b.addr ∧ InertMem r
  | .instr k => r.pc=k.pc ∧ r.instr=k.word ∧ CarriesMem r (decoder k.word k.mode.bits)

/-- MEM/WB agrees with its record. -/
def WbOk (r : MemWb) : Slot Executed → Prop
  | .bubble b => r.pc=b.addr ∧ InertWb r
  | .instr k => r.pc=k.pc ∧ r.instr=k.word ∧ CarriesWb r (decoder k.word k.mode.bits)

/-- Every pipeline register agrees with its ghost record. -/
structure SlotsOk (x : Tracked) : Prop where
  /-- IF/ID. -/
  id : IdOk x.core.ifId x.tags.id
  /-- ID/EX. -/
  ex : ExOk x.core.idEx x.tags.ex
  /-- EX/MEM. -/
  mem : MemOk x.core.exMem x.tags.mem
  /-- MEM/WB. -/
  wb : WbOk x.core.memWb x.tags.wb

/-- The flush word decodes to an inert slot in every mode. -/
theorem decoder_nop_inert (p : PrivMode) : InertEx (decoder nopInstr p.bits) := by
  cases p <;> exact ⟨rfl,rfl,⟨rfl,rfl⟩,.inr rfl,⟨rfl,rfl,rfl,rfl,rfl,rfl⟩⟩

/-- Flushing ID/EX leaves an inert slot. -/
theorem idExFlush_inert (r : IdEx) : InertEx (idExFlush r).ctrl :=
  ⟨rfl,rfl,⟨rfl,rfl⟩,.inl rfl,⟨rfl,rfl,rfl,rfl,rfl,rfl⟩⟩

/-- Flushing MEM/WB leaves an inert slot. -/
theorem memWbFlush_inert (r : MemWb) : InertWb (memWbFlush r) :=
  ⟨.inl rfl,rfl,rfl,rfl,rfl⟩

/-- The memory stage passes inertness on. -/
theorem memStage_inert {e : ExMem} (h : InertMem e) (rdata : Word) : InertWb (memStage e rdata) := by
  obtain ⟨⟨hload,hstore⟩,hwb,hcsr,hill,hecall,hebreak,hmret,hsret⟩ := h
  refine ⟨hwb,hcsr,?_,hmret,hsret⟩
  simp only [hasTrap,memStage,loadAddrMisaligned,storeAddrMisaligned,hload,hstore,hill,hecall,hebreak]
  rfl

/-- The memory stage passes the decoder outputs on. -/
theorem memStage_carries {e : ExMem} {d : Decoded} (h : CarriesMem e d) (rdata : Word) :
    CarriesWb (memStage e rdata) d := by
  obtain ⟨hmem,hwb,hsys,himm,hrs1⟩ := h
  refine ⟨hwb,?_,?_,himm,hrs1,?_,?_,?_,?_,?_,?_,?_⟩ <;>
    simp only [memStage,loadAddrMisaligned,storeAddrMisaligned,hmem,hsys]

/-- The reset state agrees with its records. -/
theorem slotsOk_reset (n : ℕ) : SlotsOk ⟨coreReset,tagsReset n⟩ :=
  ⟨⟨rfl,rfl⟩,⟨rfl,idExFlush_inert idExReset⟩,
    ⟨rfl,⟨⟨rfl,rfl⟩,.inl rfl,⟨rfl,rfl,rfl,rfl,rfl,rfl⟩⟩⟩,⟨rfl,memWbFlush_inert memWbReset⟩⟩

/-- A reset edge reaches the reset state with a fresh order number. -/
theorem trackStep_reset (x : Tracked) (i : Inputs) (h : i.rst=true) :
    trackStep x i=⟨coreReset,tagsReset (x.tags.seq+1)⟩ := by
  unfold trackStep
  rw [coreStep_reset _ _ h]
  simp [tagStep,tagsReset,pipeReg,h]

/-- The ID/EX edge keeps agreement: a flush empties the slot, otherwise the
decoded instruction or the decoded flush word moves in. -/
theorem exOk_step {x : Tracked} (h : SlotsOk x) (i : Inputs) (hrst : i.rst=false) :
    ExOk (coreStep x.core i).idEx (tagStep x.core x.tags i).ex := by
  rw [coreStep_idEx _ _ hrst,tagStep_ex _ _ _ hrst]
  split
  · have hpc : x.core.idEx.pc=x.tags.ex.addr fun k => k.pc := by
      have hex := h.ex
      cases hslot : x.tags.ex <;> rw [hslot] at hex <;> exact hex.1
    refine ⟨?_,idExFlush_inert _⟩
    rw [emptied_addr]
    exact hpc
  · have hid := h.id
    cases hslot : x.tags.id with
    | bubble b =>
      rw [hslot] at hid
      obtain ⟨hnop,haddr⟩ := hid
      refine ⟨?_,?_⟩
      · change x.core.ifId.pc=b.addr
        rw [hnop,haddr]
        rfl
      · change InertEx (idWires x.core)
        unfold idWires
        rw [hnop]
        exact decoder_nop_inert _
    | instr f =>
      rw [hslot] at hid
      change x.core.ifId=⟨f.pc,f.word⟩ at hid
      refine ⟨?_,?_,?_⟩
      · change x.core.ifId.pc=f.pc
        rw [hid]
      · change x.core.ifId.instr=f.word
        rw [hid]
      · change idWires x.core=decoder f.word x.core.csr.privMode.bits
        unfold idWires
        rw [hid]

/-- The EX/MEM edge keeps agreement. -/
theorem memOk_step {x : Tracked} (h : SlotsOk x) (i : Inputs) (hrst : i.rst=false) :
    MemOk (coreStep x.core i).exMem (tagStep x.core x.tags i).mem := by
  rw [coreStep_exMem _ _ hrst,tagStep_mem _ _ _ hrst]
  have hex := h.ex
  cases hslot : x.tags.ex with
  | bubble b =>
    rw [hslot] at hex
    obtain ⟨hpc,hinert⟩ := hex
    refine ⟨?_,hinert.mem,hinert.wb,hinert.sys⟩
    split <;> exact hpc
  | instr k =>
    rw [hslot] at hex
    obtain ⟨hpc,hword,hctrl⟩ := hex
    refine ⟨hpc,hword,?_⟩
    change CarriesMem _ (decoder k.word k.mode.bits)
    rw [←hctrl]
    exact ⟨rfl,rfl,rfl,rfl,rfl⟩

/-- The MEM/WB edge keeps agreement. -/
theorem wbOk_step {x : Tracked} (h : SlotsOk x) (i : Inputs) (hrst : i.rst=false) :
    WbOk (coreStep x.core i).memWb (tagStep x.core x.tags i).wb := by
  rw [coreStep_memWb _ _ hrst,tagStep_wb _ _ _ hrst]
  split
  · have hpc : x.core.memWb.pc=x.tags.wb.addr fun k => k.pc := by
      have hwb := h.wb
      cases hslot : x.tags.wb <;> rw [hslot] at hwb <;> exact hwb.1
    exact ⟨hpc,memWbFlush_inert _⟩
  · have hmem := h.mem
    cases hslot : x.tags.mem with
    | bubble b =>
      rw [hslot] at hmem
      exact ⟨hmem.1,memStage_inert hmem.2 _⟩
    | instr k =>
      rw [hslot] at hmem
      exact ⟨hmem.1,hmem.2.1,memStage_carries hmem.2.2 _⟩

/-- The IF/ID edge keeps agreement. -/
theorem idOk_step {x : Tracked} (h : SlotsOk x) (i : Inputs) (hrst : i.rst=false) :
    IdOk (coreStep x.core i).ifId (tagStep x.core x.tags i).id := by
  rw [coreStep_ifId _ _ hrst,tagStep_id _ _ _ hrst]
  split
  · exact ⟨rfl,emptied_addr _ _ _⟩
  · split
    · exact h.id
    · rfl

/-- Every clock edge keeps all registers in agreement with their records. -/
theorem slotsOk_step (x : Tracked) (i : Inputs) (h : SlotsOk x) : SlotsOk (trackStep x i) := by
  cases hrst : i.rst with
  | true =>
    rw [trackStep_reset x i hrst]
    exact slotsOk_reset _
  | false => exact ⟨idOk_step h i hrst,exOk_step h i hrst,memOk_step h i hrst,wbOk_step h i hrst⟩

/-- In every run from reset all registers agree with their records. -/
theorem trackedRun_slotsOk (inputs : ℕ → Inputs) (t : ℕ) : SlotsOk (trackedRun inputs t) :=
  runFrom_always SlotsOk (slotsOk_reset 0) slotsOk_step inputs t

end RichardCore.Tracking
