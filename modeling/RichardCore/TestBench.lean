import RichardCore.Timing
import RichardCore.TrapInformation

/-!
# Test benches

The compliance runner and the integration test clock the core in the same
way: a tick answers the fetch and the data request of the registered state
from the bench's memory, gives a clock edge, and performs the store of the
instruction the edge has moved into MEM. Stores thus land a cycle earlier
than in the closed loop, and fetches on a wrong path may see them. For
programs that do not change their own instructions neither shows: the bench
holds the memory and the registers of the sequential machine.
-/

namespace RichardCore.TestBench

open Packages Decoder Execute DataMemory CsrUnit TrapCtrl Hazard Pipeline Clocked Tracking
open ProgramOrder Effects Harness SequentialMachine Agreement Simulation Refinement Timing

/-- What a bench connects to the core. -/
structure Bench (M : Type) where
  /-- Answer to a fetch. -/
  fetch : M → Word → BitVec 32
  /-- Data memory. -/
  dev : DataDevice M

/-- The core and the memory between two ticks. -/
structure Top (M : Type) where
  /-- Core under test. -/
  core : CoreState
  /-- Memory of the bench. -/
  memory : M

section Ticks

variable {M : Type} (b : Bench M)

/-- Input pins of a tick. -/
def pins (rst : Bool) (irq : IrqLines) (top : Top M) : Inputs :=
  ⟨rst,b.fetch top.memory top.core.pc,
    b.dev.read top.memory (dmemRequest top.core.exMem),irq⟩

/-- One tick; the write pins are sampled after the edge. -/
def tick (rst : Bool) (irq : IrqLines) (top : Top M) : Top M :=
  let core := coreStep top.core (pins b rst irq top)
  ⟨core,b.dev.edge top.memory (dmemRequest core.exMem)⟩

/-- Ticks with the reset pin high. -/
def reset (top : Top M) : ℕ → Top M
  | 0 => top
  | cycles+1 => tick b true .low (reset top cycles)

/-- Ticks after reset with the interrupt lines low. -/
def run (top : Top M) : ℕ → Top M
  | 0 => top
  | cycles+1 => tick b false .low (run top cycles)

/-- A reset tick brings any core to its reset state and stores nothing. -/
theorem tick_reset (irq : IrqLines) (top : Top M) :
    tick b true irq top=⟨coreReset,top.memory⟩ := by
  have hcore : coreStep top.core (pins b true irq top)=coreReset := coreStep_reset _ _ rfl
  unfold tick
  rw [hcore]
  rfl

/-- Reset ticks leave the reset core and the memory. -/
theorem reset_eq (top : Top M) (cycles : ℕ) :
    reset b top (cycles+1)=⟨coreReset,top.memory⟩ := by
  have hmemory : ∀ n,(reset b top n).memory=top.memory := by
    intro n
    induction n with
    | zero => rfl
    | succ n ih =>
      change (tick b true .low (reset b top n)).memory=_
      rw [tick_reset]
      exact ih
  change tick b true .low (reset b top cycles)=_
  rw [tick_reset,hmemory]

end Ticks

/-- Ticks of the compliance runner: fetches and data accesses share the byte
memory. -/
def runnerBench : Bench ByteMemory := ⟨readU32,byteDevice⟩

/-- Memories of the integration test: instruction words by address, absent
ones read as NOP, and doublewords by address, absent ones read as zero. -/
structure MemoryModel where
  /-- Instruction memory. -/
  imem : Word → BitVec 32
  /-- Data memory. -/
  dmem : Word → Word

/-- Aligned doubleword of an address. -/
def MemoryModel.readData (mem : MemoryModel) (addr : Word) : Word := mem.dmem (alignDown addr)

/-- Replace the aligned doubleword of an address, whatever the store's size. -/
def MemoryModel.writeData (mem : MemoryModel) (addr data : Word) : MemoryModel :=
  {mem with dmem := fun a => if a=alignDown addr then data else mem.dmem a}

/-- Place consecutive words into the instruction memory. -/
def MemoryModel.loadProgram (mem : MemoryModel) (base : Word) (program : List (BitVec 32)) :
    MemoryModel :=
  {mem with imem := fun pc =>
    let offset := (pc-base).toNat
    if offset%4=0 ∧ offset/4 < program.length then program.getD (offset/4) nopInstr
    else mem.imem pc}

/-- Ticks of the integration test. -/
def coreSimBench : Bench MemoryModel where
  fetch mem := mem.imem
  dev :=
    { read := fun mem r => if r.readEn then mem.readData r.addr else 0
      write := fun mem r => mem.writeData r.addr r.wdata }

section Refines

variable {M : Type} (b : Bench M)

/-- The program in a bench's memory, as the closed loop runs it. -/
def Bench.setup (memory : M) : Setup M := ⟨b.fetch memory,b.dev,memory⟩

/-- The bench from reset. -/
def Bench.state (memory : M) (t : ℕ) : Top M := run b ⟨coreReset,memory⟩ t

/-- Without a read request the data pins do not depend on the memory. -/
def Bench.IdleReads : Prop :=
  ∀ m m' r,r.readEn=false → b.dev.read m r=b.dev.read m' r

/-- No store changes an instruction before it is executed. -/
def Bench.CodeStable (memory : M) : Prop :=
  ∀ n m,m≤n → b.fetch ((b.setup memory).machine m).memory ((b.setup memory).machine n).pc=
    b.fetch memory ((b.setup memory).machine n).pc

/-- A core with another word in IF/ID, which matters only if the instruction
in EX is about to remove it. -/
def SameButWrongPath (s s' : CoreState) : Prop :=
  ∃ word,s={s' with ifId := {s'.ifId with instr := word}} ∧
    (word=s'.ifId.instr ∨ takenWire s'=true)

/-- The bench is beside the closed loop: the same core but for wrong-path
words, the memory one store ahead. -/
structure Beside (top : Top M) (y : Sys M) : Prop where
  /-- Core. -/
  core : SameButWrongPath top.core y.tracked.core
  /-- Memory. -/
  memory : top.memory=b.dev.edge y.memory y.request

omit b in
/-- Cores that agree outside the word in IF/ID. -/
theorem sameButWrongPath_of {s s' : CoreState} (hpc : s.pc=s'.pc) (hregs : s.regs=s'.regs)
    (hifId : s.ifId.pc=s'.ifId.pc ∧ (s.ifId.instr=s'.ifId.instr ∨ takenWire s'=true))
    (hidEx : s.idEx=s'.idEx) (hexMem : s.exMem=s'.exMem) (hmemWb : s.memWb=s'.memWb)
    (hcsr : s.csr=s'.csr) : SameButWrongPath s s' := by
  have hword : s.ifId=⟨s'.ifId.pc,s.ifId.instr⟩ := by rw [←hifId.1]
  refine ⟨s.ifId.instr,?_,hifId.2⟩
  calc
    s=⟨s.pc,s.regs,s.ifId,s.idEx,s.exMem,s.memWb,s.csr⟩ := rfl
    _=⟨s'.pc,s'.regs,⟨s'.ifId.pc,s.ifId.instr⟩,s'.idEx,s'.exMem,s'.memWb,s'.csr⟩ := by
      rw [hpc,hregs,hword,hidEx,hexMem,hmemWb,hcsr]

omit b in
/-- A clock edge keeps cores the same, when it leaves the same word in IF/ID
or moves a taken branch or jump into EX. -/
theorem sameButWrongPath_step {s s' : CoreState} (h : SameButWrongPath s s') {i i' : Inputs}
    (hrst : i.rst=false) (hrst' : i'.rst=false) (hirq : i.irq=i'.irq)
    (hdata : i.dmemRdata=i'.dmemRdata)
    (hword : flushWire s' i'.irq=false → takenWire s'=false → loadUseWire s'=false →
      i.imemRdata=i'.imemRdata ∨ takenWire (coreStep s' i')=true) :
    SameButWrongPath (coreStep s i) (coreStep s' i') := by
  obtain ⟨word,rfl,hsame⟩ := h
  -- no wire but those of the decoder sees the word
  have hwires : ∀ irq,trapWires {s' with ifId := {s'.ifId with instr := word}} irq=
      trapWires s' irq := fun _ => rfl
  have hwire : ∀ irq,flushWire {s' with ifId := {s'.ifId with instr := word}} irq=
      flushWire s' irq := fun _ => rfl
  have htakenEq : takenWire {s' with ifId := {s'.ifId with instr := word}}=takenWire s' := rfl
  have htarget : exWires {s' with ifId := {s'.ifId with instr := word}}=exWires s' := rfl
  have hdecoded : takenWire s'=false →
      ({s' with ifId := {s'.ifId with instr := word}} : CoreState)=s' := by
    intro hnot
    obtain heq | htaken := hsame
    · rw [heq]
    · rw [htaken] at hnot
      cases hnot
  refine sameButWrongPath_of ?_ ?_ ?_ ?_ ?_ ?_ ?_
  · rw [coreStep_pc _ _ hrst,coreStep_pc _ _ hrst',hirq,hwires,hwire,htakenEq,htarget]
    cases htaken : takenWire s' with
    | true => rfl
    | false => rw [hdecoded htaken]
  · rw [coreStep_regs _ _ hrst,coreStep_regs _ _ hrst']
    rfl
  · rw [coreStep_ifId _ _ hrst,coreStep_ifId _ _ hrst',hirq,hwire,htakenEq]
    cases hflush : flushWire s' i'.irq with
    | true => exact ⟨rfl,.inl rfl⟩
    | false =>
      cases htaken : takenWire s' with
      | true => exact ⟨rfl,.inl rfl⟩
      | false =>
        rw [hdecoded htaken]
        cases hstall : loadUseWire s' with
        | true => exact ⟨rfl,.inl rfl⟩
        | false => exact ⟨rfl,hword hflush htaken hstall⟩
  · rw [coreStep_idEx _ _ hrst,coreStep_idEx _ _ hrst',hirq,hwire,htakenEq]
    cases htaken : takenWire s' with
    | true => simp
    | false => rw [hdecoded htaken]
  · rw [coreStep_exMem _ _ hrst,coreStep_exMem _ _ hrst']
    rfl
  · rw [coreStep_memWb _ _ hrst,coreStep_memWb _ _ hrst',hirq,hwire,hdata]
  · rw [coreStep_csr,coreStep_csr]
    unfold csrWires
    rw [hirq,hrst,hrst',hwires]

variable {b} {memory : M}

/-- Behind the instruction in EX the fetch path is the machine's. -/
theorem afterEx_eq (hp : Regular (b.setup memory)) {y : Sys M} {n : ℕ}
    (h : Simulates (b.setup memory) y n) :
    afterEx y.tracked=((b.setup memory).machine
      (exIndex y.tracked.tags n+(filled y.tracked.tags.ex).toNat)).pc := by
  unfold afterEx
  cases hslot : y.tracked.tags.ex with
  | bubble e => exact h.afterMem_eq
  | instr k => exact (h.exNext hp hslot).2

/-- MEM never reads and writes at once. -/
theorem read_notWrite {y : Sys M} {n : ℕ} (h : Simulates (b.setup memory) y n)
    (hread : y.request.readEn=true) : y.request.writeEn=false := by
  have hload : y.tracked.core.exMem.mem.isLoad=true := by
    simp only [Sys.request,dmemRequest,Bool.and_eq_true] at hread
    exact hread.1
  have hstore : y.tracked.core.exMem.mem.isStore=false := by
    cases hslot : y.tracked.tags.mem with
    | bubble e =>
      have hmem := h.slots.mem
      rw [hslot] at hmem
      exact hmem.2.mem.2
    | instr k =>
      obtain ⟨-,-,hagrees⟩ := h.mem k hslot
      rw [hagrees.mem] at hload ⊢
      exact (TrapInformation.decoder_oneClass _ _).load hload
  simp only [Sys.request,dmemRequest,hstore]
  rfl

/-- The data pins of the bench are those of the closed loop. -/
theorem pins_data (hidle : b.IdleReads) {top : Top M} {y : Sys M} {n : ℕ}
    (hbeside : Beside b top y) (h : Simulates (b.setup memory) y n) :
    b.dev.read top.memory (dmemRequest top.core.exMem)=b.dev.read y.memory y.request := by
  obtain ⟨⟨word,hcore,-⟩,hmemory⟩ := hbeside
  have hrequest : dmemRequest top.core.exMem=y.request := by
    rw [hcore]
    rfl
  rw [hrequest]
  cases hread : y.request.readEn with
  | false => exact hidle _ _ _ hread
  | true =>
    rw [hmemory]
    unfold DataDevice.edge
    rw [read_notWrite h hread]
    rfl

section Run

variable (hidle : b.IdleReads) (hp : Regular (b.setup memory)) (hcode : b.CodeStable memory)

include hp hcode

/-- A fetched word that reaches ID is the closed loop's, unless the edge moves
the branch or jump into EX that removes it. -/
theorem fetch_stable {top : Top M} {t : ℕ}
    (hbeside : Beside b top ((b.setup memory).cycle t))
    (hflush : flushWire ((b.setup memory).cycle t).tracked.core .low=false)
    (htaken : takenWire ((b.setup memory).cycle t).tracked.core=false)
    (hstall : loadUseWire ((b.setup memory).cycle t).tracked.core=false) :
    b.fetch top.memory top.core.pc=
        b.fetch memory ((b.setup memory).cycle t).tracked.core.pc ∨
      takenWire ((b.setup memory).cycle (t+1)).tracked.core=true := by
  obtain ⟨⟨word,hcore,-⟩,hmemory⟩ := hbeside
  have hpc : top.core.pc=((b.setup memory).cycle t).tracked.core.pc := by rw [hcore]
  have hnow := simulates_run hp t
  have hnext := simulates_run hp (t+1)
  have hid : ((b.setup memory).cycle (t+1)).tracked.tags.id=_ :=
    tagStep_id ((b.setup memory).cycle t).tracked.core ((b.setup memory).cycle t).tracked.tags
      (((b.setup memory).cycle t).inputs (b.setup memory).imem (b.setup memory).dev .low) rfl
  have hfront := hnext.order.front
  unfold FrontEnd at hfront
  rw [hid] at hfront
  have hlow : (((b.setup memory).cycle t).inputs (b.setup memory).imem (b.setup memory).dev
      .low).irq=.low := rfl
  rw [hlow,hflush,htaken,hstall] at hfront
  obtain htakenNext | ⟨hpath,-⟩ := hfront
  · exact .inr htakenNext
  · refine .inl ?_
    -- the fetch is on the machine's path, and no store so far has changed its word
    have hafter := afterEx_eq hp hnext
    rw [exIndex_eq hp] at hafter
    have hstored := hnow.memoryNext
    rw [exIndex_eq hp] at hstored
    have hle : issued (b.setup memory) t≤ issued (b.setup memory) (t+1+1) :=
      tally_mono _ (by omega)
    have hstable := hcode _ _ hle
    have haddr : ((b.setup memory).cycle t).tracked.core.pc=
        ((b.setup memory).machine (issued (b.setup memory) (t+1+1))).pc := hpath.trans hafter
    rw [hpc,hmemory,haddr]
    exact (congrArg (fun m => b.fetch m _) hstored).trans hstable

include hidle

/-- The bench stays beside the closed loop. -/
theorem beside_run (t : ℕ) : Beside b (b.state memory t) ((b.setup memory).cycle t) := by
  induction t with
  | zero => exact ⟨⟨_,rfl,.inl rfl⟩,rfl⟩
  | succ t ih =>
    have h := simulates_run hp t
    have hcore : SameButWrongPath (b.state memory (t+1)).core
        ((b.setup memory).cycle (t+1)).tracked.core := by
      refine sameButWrongPath_step ih.core rfl rfl rfl (pins_data hidle ih h) ?_
      exact fetch_stable hp hcode ih
    refine ⟨hcore,?_⟩
    obtain ⟨word,hnext,-⟩ := hcore
    change b.dev.edge (b.state memory t).memory (dmemRequest (b.state memory (t+1)).core.exMem)=
      b.dev.edge (b.dev.edge ((b.setup memory).cycle t).memory ((b.setup memory).cycle t).request)
        ((b.setup memory).cycle (t+1)).request
    rw [ih.memory,hnext]
    rfl

/-- Between ticks the bench shows the closed loop's data request. -/
theorem state_request (t : ℕ) :
    dmemRequest (b.state memory t).core.exMem=((b.setup memory).cycle t).request := by
  obtain ⟨⟨word,hcore,-⟩,-⟩ := beside_run hidle hp hcode t
  rw [hcore]
  rfl

/-- Between ticks the bench holds the machine's memory behind MEM. -/
theorem state_memory (t : ℕ) :
    (b.state memory t).memory=((b.setup memory).machine (issued (b.setup memory) t)).memory := by
  have hstored := (simulates_run hp t).memoryNext
  rw [exIndex_eq hp] at hstored
  exact (beside_run hidle hp hcode t).memory.trans hstored

/-- Between ticks the register file is the machine's before WB. -/
theorem state_regs (t : ℕ) :
    (b.state memory t).core.regs=((b.setup memory).machine (retired (b.setup memory) t)).regs := by
  obtain ⟨⟨word,hcore,-⟩,-⟩ := beside_run hidle hp hcode t
  rw [hcore]
  exact (simulates_run hp t).regs

end Run

/-- On every bench whose data pins are idle without a read, for every program
of plain instructions that does not store into instructions still to be
executed, between any two ticks: the memory is that of the sequential machine
after the instructions whose issue cycle is past, the register file is that
after the instructions two cycles further, and the request pins show the
instruction issued one cycle before, or nothing. -/
theorem bench_refines_machine (b : Bench M) (memory : M) (hidle : b.IdleReads)
    (hplain : ∀ n,Plain (b.setup memory) n) (hcode : b.CodeStable memory) (t : ℕ) :
    ∃ stored written,(∀ n,n < stored ↔ issueCycle (b.setup memory) n < t) ∧
      (∀ n,n < written ↔ issueCycle (b.setup memory) n+2 < t) ∧
      (b.state memory t).memory=((b.setup memory).machine stored).memory ∧
      (b.state memory t).core.regs=((b.setup memory).machine written).regs ∧
      (∀ n,t=issueCycle (b.setup memory) n+1 →
        requestEvent (dmemRequest (b.state memory t).core.exMem)=machineRequests (b.setup memory) n) ∧
      ((∀ n,t≠issueCycle (b.setup memory) n+1) →
        requestEvent (dmemRequest (b.state memory t).core.exMem)=[]) := by
  have hp := regular_of_plain (b.setup memory) hplain
  have hrequest : requestEvent (dmemRequest (b.state memory t).core.exMem)=
      coreRequests (b.setup memory) t := congrArg requestEvent (state_request hidle hp hcode t)
  refine ⟨_,_,fun n => (ex_onSchedule hp).lt_tally n t,fun n => (wb_onSchedule hp).lt_tally n t,
    state_memory hidle hp hcode t,state_regs hidle hp hcode t,?_,?_⟩
  · rintro n rfl
    rw [hrequest]
    exact (cycle_due hp n).1
  · intro hno
    rw [hrequest]
    exact (cycle_idle hp t).1 hno

end Refines

/-- The runner drives zero without a read. -/
theorem runner_idleReads : runnerBench.IdleReads := by
  intro m m' r hread
  change (if r.readEn then _ else _)=if r.readEn then _ else _
  rw [hread]
  rfl

/-- So does the integration test. -/
theorem coreSim_idleReads : coreSimBench.IdleReads := by
  intro m m' r hread
  change (if r.readEn then _ else _)=if r.readEn then _ else _
  rw [hread]
  rfl

/-- Stores of the integration test never reach its instruction memory. -/
theorem coreSim_imem (memory : MemoryModel) (n : ℕ) :
    ((coreSimBench.setup memory).machine n).memory.imem=memory.imem := by
  induction n with
  | zero => rfl
  | succ n ih =>
    rw [←ih]
    change (coreSimBench.dev.edge ((coreSimBench.setup memory).machine n).memory _).imem=_
    unfold DataDevice.edge
    split <;> rfl

/-- So its programs never change. -/
theorem coreSim_codeStable (memory : MemoryModel) : coreSimBench.CodeStable memory := by
  intro n m _
  change ((coreSimBench.setup memory).machine m).memory.imem _=memory.imem _
  rw [coreSim_imem]

/-- After six ticks of the loop ADDI x1,x0,7; ADDI x2,x1,1; JAL x0,-8 the
register file is that after two instructions. -/
theorem bench_refines_loop :
    let memory : MemoryModel :=
      ⟨loadProgram resetPc [0x00700093,0x00108113,0xff9ff06f],fun _ => 0⟩
    (coreSimBench.state memory 6).core.regs=((coreSimBench.setup memory).machine 2).regs := by
  intro memory
  have hplain : ∀ n,Plain (coreSimBench.setup memory) n := fun n => plainWord_plain _ n
    (loadProgram_all plainWord resetPc _ (by decide +kernel) (by decide +kernel) _)
  obtain ⟨stored,written,-,hwritten,-,hregs,-,-⟩ := bench_refines_machine coreSimBench memory
    coreSim_idleReads hplain (coreSim_codeStable memory) 6
  have hone : 1 < written := (hwritten 1).mpr (by decide +kernel)
  have htwo : ¬2 < written := fun h => absurd ((hwritten 2).mp h) (by decide +kernel)
  obtain rfl : written=2 := by omega
  exact hregs

end RichardCore.TestBench
