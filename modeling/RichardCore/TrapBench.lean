import RichardCore.TestBench
import RichardCore.TrapRefinement

/-!
# Test benches through traps

The benches on programs that take exceptions and return from them. A word on
a wrong path is one that a taken branch or a flush is about to remove, and
the words that a program puts behind an exception or return count as its own
instructions. Apart from words on a wrong path the bench holds the core of
the closed loop, and so registers, CSR file and memory of the machine with
traps.
-/

namespace RichardCore.TrapBench

open Packages Decoder Execute DataMemory CsrUnit TrapCtrl Hazard Pipeline Clocked Tracking
open ProgramOrder Effects Harness SequentialMachine Agreement Simulation TrapMachine
open TrapSimulation TrapRefinement TestBench

/-- A core with another word in IF/ID, which matters only if the edge is not
about to remove it. -/
def SameButDoomed (s s' : CoreState) : Prop :=
  ∃ word,s={s' with ifId := {s'.ifId with instr := word}} ∧
    (word=s'.ifId.instr ∨ takenWire s'=true ∨ flushWire s' .low=true)

/-- A clock edge keeps cores the same, when it leaves the same word in IF/ID
or the next edge is to remove it. -/
theorem sameButDoomed_step {s s' : CoreState} (h : SameButDoomed s s') {i i' : Inputs}
    (hrst : i.rst=false) (hrst' : i'.rst=false) (hirq : i.irq=.low) (hirq' : i'.irq=.low)
    (hdata : i.dmemRdata=i'.dmemRdata)
    (hword : flushWire s' .low=false → takenWire s'=false → loadUseWire s'=false →
      i.imemRdata=i'.imemRdata ∨ takenWire (coreStep s' i')=true ∨
        flushWire (coreStep s' i') .low=true) :
    SameButDoomed (coreStep s i) (coreStep s' i') := by
  obtain ⟨word,rfl,hsame⟩ := h
  -- no wire but those of the decoder sees the word
  have hwires : trapWires {s' with ifId := {s'.ifId with instr := word}} .low=trapWires s' .low := rfl
  have hwire : flushWire {s' with ifId := {s'.ifId with instr := word}} .low=flushWire s' .low := rfl
  have htakenEq : takenWire {s' with ifId := {s'.ifId with instr := word}}=takenWire s' := rfl
  have htarget : exWires {s' with ifId := {s'.ifId with instr := word}}=exWires s' := rfl
  have hdecoded : flushWire s' .low=false → takenWire s'=false →
      ({s' with ifId := {s'.ifId with instr := word}} : CoreState)=s' := by
    intro hflush hnot
    obtain heq | htaken | hflushed := hsame
    · rw [heq]
    · rw [htaken] at hnot
      cases hnot
    · rw [hflushed] at hflush
      cases hflush
  have hifId : (coreStep {s' with ifId := {s'.ifId with instr := word}} i).ifId.pc=
        (coreStep s' i').ifId.pc ∧
      ((coreStep {s' with ifId := {s'.ifId with instr := word}} i).ifId.instr=
          (coreStep s' i').ifId.instr ∨
        takenWire (coreStep s' i')=true ∨ flushWire (coreStep s' i') .low=true) := by
    rw [coreStep_ifId _ _ hrst,coreStep_ifId _ _ hrst',hirq,hirq',hwire,htakenEq]
    cases hflush : flushWire s' .low with
    | true => exact ⟨rfl,.inl rfl⟩
    | false =>
      cases htaken : takenWire s' with
      | true => exact ⟨rfl,.inl rfl⟩
      | false =>
        rw [hdecoded hflush htaken]
        cases hstall : loadUseWire s' with
        | true => exact ⟨rfl,.inl rfl⟩
        | false => exact ⟨rfl,hword hflush htaken hstall⟩
  have hpc : (coreStep {s' with ifId := {s'.ifId with instr := word}} i).pc=(coreStep s' i').pc := by
    rw [coreStep_pc _ _ hrst,coreStep_pc _ _ hrst',hirq,hirq',hwires,hwire,htakenEq,htarget]
    cases hflush : flushWire s' .low with
    | true => rfl
    | false =>
      cases htaken : takenWire s' with
      | true => rfl
      | false => rw [hdecoded hflush htaken]
  have hidEx : (coreStep {s' with ifId := {s'.ifId with instr := word}} i).idEx=
      (coreStep s' i').idEx := by
    rw [coreStep_idEx _ _ hrst,coreStep_idEx _ _ hrst',hirq,hirq',hwire,htakenEq]
    cases hflush : flushWire s' .low with
    | true => simp
    | false =>
      cases htaken : takenWire s' with
      | true => simp
      | false => rw [hdecoded hflush htaken]
  have hmemWb : (coreStep {s' with ifId := {s'.ifId with instr := word}} i).memWb=
      (coreStep s' i').memWb := by
    rw [coreStep_memWb _ _ hrst,coreStep_memWb _ _ hrst',hirq,hirq',hwire,hdata]
  have hcsr : (coreStep {s' with ifId := {s'.ifId with instr := word}} i).csr=
      (coreStep s' i').csr := by
    rw [coreStep_csr,coreStep_csr]
    unfold csrWires
    rw [hirq,hirq',hrst,hrst',hwires]
  have hregs : (coreStep {s' with ifId := {s'.ifId with instr := word}} i).regs=
      (coreStep s' i').regs := by
    rw [coreStep_regs _ _ hrst,coreStep_regs _ _ hrst']
    rfl
  have hexMem : (coreStep {s' with ifId := {s'.ifId with instr := word}} i).exMem=
      (coreStep s' i').exMem := by
    rw [coreStep_exMem _ _ hrst,coreStep_exMem _ _ hrst']
    rfl
  generalize coreStep {s' with ifId := {s'.ifId with instr := word}} i=next at *
  generalize coreStep s' i'=next' at *
  refine ⟨next.ifId.instr,?_,hifId.2⟩
  calc
    next=⟨next.pc,next.regs,⟨next.ifId.pc,next.ifId.instr⟩,next.idEx,next.exMem,next.memWb,
      next.csr⟩ := rfl
    _=⟨next'.pc,next'.regs,⟨next'.ifId.pc,next.ifId.instr⟩,next'.idEx,next'.exMem,next'.memWb,
        next'.csr⟩ := by
      rw [hpc,hregs,hifId.1,hidEx,hexMem,hmemWb,hcsr]

section Refines

variable {M : Type} (b : Bench M)

/-- No store changes an instruction before it is executed, nor the two words
behind one that flushes. -/
def TrapStable (memory : M) : Prop :=
  ∀ n m,m≤ n →
    b.fetch (stateAt (b.setup memory) m).memory (stateAt (b.setup memory) n).pc=
      b.fetch memory (stateAt (b.setup memory) n).pc ∧
    (flushesAt (b.setup memory) n=true →
      b.fetch (stateAt (b.setup memory) m).memory ((stateAt (b.setup memory) n).pc+4)=
        b.fetch memory ((stateAt (b.setup memory) n).pc+4) ∧
      b.fetch (stateAt (b.setup memory) m).memory ((stateAt (b.setup memory) n).pc+4+4)=
        b.fetch memory ((stateAt (b.setup memory) n).pc+4+4))

/-- The bench is beside the closed loop: the same core but for words on a
wrong path, the memory one store ahead. -/
structure TrapBeside (top : TestBench.Top M) (y : Sys M) : Prop where
  /-- Core. -/
  core : SameButDoomed top.core y.tracked.core
  /-- Memory. -/
  memory : top.memory=b.dev.edge y.memory y.request

variable {b} {memory : M}

/-- MEM never reads and writes at once. -/
theorem readOrWrite {y : Sys M} {n : ℕ} (h : TrapSimulates (b.setup memory) y n)
    (hread : y.request.readEn=true) : y.request.writeEn=false := by
  have hload : y.tracked.core.exMem.mem.isLoad=true := by
    simp only [Sys.request,dmemRequest,Bool.and_eq_true] at hread
    exact hread.1
  have hstore : y.tracked.core.exMem.mem.isStore=false := by
    cases hlive : memLive (b.setup memory) y.tracked.tags n with
    | false => exact (h.memIdle hlive).mem.2
    | true =>
      obtain ⟨k,hk,-⟩ := memLive_instr _ hlive
      obtain ⟨-,hagrees,-⟩ := h.mem k hk hlive
      rw [hagrees.mem] at hload ⊢
      exact (TrapInformation.decoder_oneClass _ _).load hload
  simp only [Sys.request,dmemRequest,hstore]
  rfl

/-- The data pins of the bench are those of the closed loop. -/
theorem pins_dataNow (hidle : b.IdleReads) {top : TestBench.Top M} {y : Sys M} {n : ℕ}
    (hbeside : TrapBeside b top y) (h : TrapSimulates (b.setup memory) y n) :
    b.dev.read top.memory (dmemRequest top.core.exMem)=b.dev.read y.memory y.request := by
  obtain ⟨⟨word,hcore,-⟩,hmemory⟩ := hbeside
  have hrequest : dmemRequest top.core.exMem=y.request := by
    rw [hcore]
    rfl
  rw [hrequest]
  cases hread : y.request.readEn with
  | false => exact hidle _ _ _ hread
  | true =>
    rw [hmemory]
    unfold DataDevice.edge
    rw [readOrWrite h hread]
    rfl

/-- Unless a branch or a flush is about to redirect it, the fetch path goes on
at an instruction of the machine, or at one of the two words behind an
instruction that flushes. -/
theorem afterEx_path {p : Setup M} (hp : TrapRegular p) {y : Sys M} {n : ℕ}
    (h : TrapSimulates p y n) (htaken : takenWire y.tracked.core=false)
    (hflush : wbFlushes p y.tracked.tags n=false) :
    ∃ m,memAt y.tracked.tags n≤ m ∧ (afterEx y.tracked=(stateAt p m).pc ∨
      flushesAt p m=true ∧ (afterEx y.tracked=(stateAt p m).pc+4 ∨
        afterEx y.tracked=(stateAt p m).pc+4+4)) := by
  cases hmem : memFlushes p y.tracked.tags n with
  | true =>
    -- the flush is in MEM
    have hparts := hmem
    unfold memFlushes at hparts
    rw [Bool.and_eq_true] at hparts
    obtain ⟨k,hk,hsurvivor⟩ := memLive_instr p hparts.1
    have hafter : afterMem y.tracked.tags=(stateAt p (memAt y.tracked.tags n)).pc+4 := by
      unfold afterMem
      rw [hk]
      simp only [Slot.after,hsurvivor,Bool.false_eq_true,if_false]
      rw [(h.mem k hk hparts.1).1,nextAt_flush p hparts.2]
    refine ⟨_,Nat.le_refl _,.inr ⟨hparts.2,?_⟩⟩
    unfold afterEx
    cases hex : y.tracked.tags.ex with
    | bubble e => exact .inl hafter
    | instr j =>
      have horder := h.order.ex
      rw [hex] at horder
      have hpc : j.pc=afterMem y.tracked.tags := horder
      have hbehind : j.pc+4=(stateAt p (memAt y.tracked.tags n)).pc+4+4 := by rw [hpc,hafter]
      rw [htaken]
      exact .inr hbehind
  | false =>
    have hquiet : flushAhead p y.tracked.tags n=false := by
      unfold flushAhead
      rw [hflush,hmem]
      rfl
    cases hex : y.tracked.tags.ex with
    | bubble e =>
      refine ⟨exAt p y.tracked.tags n,Nat.le_add_right _ _,.inl ?_⟩
      rw [←h.afterMem_eq hquiet]
      unfold afterEx
      rw [hex]
    | instr k =>
      have hnext : afterEx y.tracked=nextAt p (exAt p y.tracked.tags n) := by
        rw [←(h.exNext hp hquiet hex).1]
        unfold afterEx
        rw [hex]
        rfl
      rw [hnext]
      cases hthis : flushesAt p (exAt p y.tracked.tags n) with
      | true => exact ⟨_,Nat.le_add_right _ _,.inr ⟨hthis,.inl (nextAt_flush p hthis)⟩⟩
      | false =>
        refine ⟨exAt p y.tracked.tags n+1,Nat.le_succ_of_le (Nat.le_add_right _ _),.inl ?_⟩
        rw [stateAt_pc,hthis]
        rfl

section Run

variable (hidle : b.IdleReads) (hp : TrapRegular (b.setup memory)) (hstable : TrapStable b memory)

include hp hstable

/-- A fetched word that stays in ID is the closed loop's. -/
theorem fetch_path {top : TestBench.Top M} {t : ℕ}
    (hbeside : TrapBeside b top ((b.setup memory).cycle t))
    (hflush : flushWire ((b.setup memory).cycle t).tracked.core .low=false)
    (htaken : takenWire ((b.setup memory).cycle t).tracked.core=false)
    (hstall : loadUseWire ((b.setup memory).cycle t).tracked.core=false) :
    b.fetch top.memory top.core.pc=
        b.fetch memory ((b.setup memory).cycle t).tracked.core.pc ∨
      takenWire ((b.setup memory).cycle (t+1)).tracked.core=true ∨
      flushWire ((b.setup memory).cycle (t+1)).tracked.core .low=true := by
  obtain ⟨⟨word,hcore,-⟩,hmemory⟩ := hbeside
  have hpc : top.core.pc=((b.setup memory).cycle t).tracked.core.pc := by rw [hcore]
  have hnow := trapSimulates_run hp t
  have hnext := trapSimulates_run hp (t+1)
  have hid : ((b.setup memory).cycle (t+1)).tracked.tags.id=_ :=
    tagStep_id ((b.setup memory).cycle t).tracked.core ((b.setup memory).cycle t).tracked.tags
      (((b.setup memory).cycle t).inputs (b.setup memory).imem (b.setup memory).dev .low) rfl
  have hfront := hnext.order.front
  unfold FrontEnd at hfront
  have hlow : (((b.setup memory).cycle t).inputs (b.setup memory).imem (b.setup memory).dev
      .low).irq=.low := rfl
  rw [hid,hlow,hflush,htaken,hstall] at hfront
  cases htakenNext : takenWire ((b.setup memory).cycle (t+1)).tracked.core with
  | true => exact .inr (.inl rfl)
  | false =>
    cases hflushNext : wbFlushes (b.setup memory) ((b.setup memory).cycle (t+1)).tracked.tags
        (committed (b.setup memory) (t+1)) with
    | true => exact .inr (.inr (hnext.flush_eq.trans hflushNext))
    | false =>
      left
      obtain htakenNow | ⟨hpath,-⟩ := hfront
      · rw [htakenNext] at htakenNow
        cases htakenNow
      · -- the fetch is on the path, and no store so far has changed its word
        obtain ⟨m,hle,hplace⟩ := afterEx_path hp hnext htakenNext hflushNext
        have hstored := hnow.memoryNext
        rw [exAt_eq hp] at hstored
        rw [memAt_eq hp] at hle
        have hbegun : stored (b.setup memory) (t+1)=begun (b.setup memory) t :=
          tally_shift rfl (memNow_succ hp) t
        rw [hbegun] at hle
        obtain ⟨hword,hbehind⟩ := hstable m _ hle
        have haddr : ((b.setup memory).cycle t).tracked.core.pc=
            afterEx ((b.setup memory).cycle (t+1)).tracked := hpath
        rw [hpc,hmemory,haddr]
        refine (congrArg (fun mem => b.fetch mem _) hstored).trans ?_
        obtain hat | ⟨hflushes,hfirst | hsecond⟩ := hplace
        · rw [hat]
          exact hword
        · rw [hfirst]
          exact (hbehind hflushes).1
        · rw [hsecond]
          exact (hbehind hflushes).2

include hidle

/-- The bench stays beside the closed loop. -/
theorem trapBeside_run (t : ℕ) :
    TrapBeside b (b.state memory t) ((b.setup memory).cycle t) := by
  induction t with
  | zero => exact ⟨⟨_,rfl,.inl rfl⟩,rfl⟩
  | succ t ih =>
    have h := trapSimulates_run hp t
    have hcore : SameButDoomed (b.state memory (t+1)).core
        ((b.setup memory).cycle (t+1)).tracked.core := by
      refine sameButDoomed_step ih.core rfl rfl rfl rfl (pins_dataNow hidle ih h) ?_
      exact fetch_path hp hstable ih
    refine ⟨hcore,?_⟩
    obtain ⟨word,hnext,-⟩ := hcore
    change b.dev.edge (b.state memory t).memory (dmemRequest (b.state memory (t+1)).core.exMem)=
      b.dev.edge (b.dev.edge ((b.setup memory).cycle t).memory ((b.setup memory).cycle t).request)
        ((b.setup memory).cycle (t+1)).request
    rw [ih.memory,hnext]
    rfl

/-- Between ticks the bench shows the closed loop's data request. -/
theorem request_now (t : ℕ) :
    dmemRequest (b.state memory t).core.exMem=((b.setup memory).cycle t).request := by
  obtain ⟨⟨word,hcore,-⟩,-⟩ := trapBeside_run hidle hp hstable t
  rw [hcore]
  rfl

/-- Between ticks the bench holds the machine's memory behind MEM. -/
theorem memory_now (t : ℕ) :
    (b.state memory t).memory=(stateAt (b.setup memory) (begun (b.setup memory) t)).memory := by
  have hstored := (trapSimulates_run hp t).memoryNext
  rw [exAt_eq hp] at hstored
  exact (trapBeside_run hidle hp hstable t).memory.trans hstored

/-- Between ticks register file and CSR file are the machine's before WB. -/
theorem core_now (t : ℕ) :
    (b.state memory t).core.regs=
        (stateAt (b.setup memory) (committed (b.setup memory) t)).regs ∧
      eraseCounters (b.state memory t).core.csr=
        eraseCounters (stateAt (b.setup memory) (committed (b.setup memory) t)).csr := by
  obtain ⟨⟨word,hcore,-⟩,-⟩ := trapBeside_run hidle hp hstable t
  have h := trapSimulates_run hp t
  rw [hcore]
  exact ⟨h.regs,h.csr⟩

end Run

/-- On every bench whose data pins are idle without a read, for every program
that puts two words without effect behind each exception and return, reads no
counter, does not use a CSR result in the next instruction and changes none
of these instructions and words before it is done with them: between any two
ticks the memory is that of the machine with traps after the instructions
whose issue cycle is past, register file and CSR file, counters aside, are
those after the instructions two cycles further, and the request pins show
the instruction issued one cycle before, or nothing. -/
theorem bench_refines_traps (b : Bench M) (memory : M) (hidle : b.IdleReads)
    (hp : TrapRegular (b.setup memory)) (hstable : TrapStable b memory) (t : ℕ) :
    ∃ stored written,(∀ n,n < stored ↔ issueAt (b.setup memory) n < t) ∧
      (∀ n,n < written ↔ issueAt (b.setup memory) n+2 < t) ∧
      (b.state memory t).memory=(stateAt (b.setup memory) stored).memory ∧
      (b.state memory t).core.regs=(stateAt (b.setup memory) written).regs ∧
      eraseCounters (b.state memory t).core.csr=
        eraseCounters (stateAt (b.setup memory) written).csr ∧
      (∀ n,t=issueAt (b.setup memory) n+1 →
        Refinement.requestEvent (dmemRequest (b.state memory t).core.exMem)=
          requestsAt (b.setup memory) n) ∧
      ((∀ n,t≠issueAt (b.setup memory) n+1) →
        Refinement.requestEvent (dmemRequest (b.state memory t).core.exMem)=[]) := by
  have hrequest : Refinement.requestEvent (dmemRequest (b.state memory t).core.exMem)=
      Refinement.coreRequests (b.setup memory) t :=
    congrArg Refinement.requestEvent (request_now hidle hp hstable t)
  obtain ⟨hregs,hcsr⟩ := core_now hidle hp hstable t
  refine ⟨_,_,fun n => (ex_keeps hp).lt_tally n t,fun n => (wb_keeps hp).lt_tally n t,
    memory_now hidle hp hstable t,hregs,hcsr,?_,?_⟩
  · rintro n rfl
    rw [hrequest]
    exact (due_now hp n).1
  · intro hno
    rw [hrequest]
    exact (idle_now hp t).1 hno

end Refines

/-- Stores of the integration test never reach its instruction memory. -/
theorem coreSim_imemAt (memory : MemoryModel) (n : ℕ) :
    (stateAt (coreSimBench.setup memory) n).memory.imem=memory.imem := by
  induction n with
  | zero => rfl
  | succ n ih =>
    rw [←ih]
    change (coreSimBench.dev.edge (stateAt (coreSimBench.setup memory) n).memory _).imem=_
    unfold DataDevice.edge
    split <;> rfl

/-- So its programs never change. -/
theorem coreSim_stable (memory : MemoryModel) : TrapStable coreSimBench memory := by
  have hkept : ∀ m pc,coreSimBench.fetch (stateAt (coreSimBench.setup memory) m).memory pc=
      coreSimBench.fetch memory pc := by
    intro m pc
    change (stateAt (coreSimBench.setup memory) m).memory.imem pc=memory.imem pc
    rw [coreSim_imemAt]
  exact fun n m _ => ⟨hkept _ _,fun _ => ⟨hkept _ _,hkept _ _⟩⟩

/-- Mode, return address and cause are no counters. -/
theorem kept_of_erase {c d : CsrState} (h : eraseCounters c=eraseCounters d) :
    c.privMode=d.privMode ∧ c.mepc=d.mepc ∧ c.mcause=d.mcause :=
  ⟨(congrArg CsrState.privMode h :),(congrArg CsrState.mepc h :),
    (congrArg CsrState.mcause h :)⟩

/-- Ten ticks into ECALL and MRET the core is back in machine mode with the
call's address saved. -/
theorem bench_refines_callAndReturn :
    (coreSimBench.state ⟨callAndReturn,fun _ => 0⟩ 10).core.csr.privMode=.m ∧
      (coreSimBench.state ⟨callAndReturn,fun _ => 0⟩ 10).core.csr.mepc=resetPc ∧
      (coreSimBench.state ⟨callAndReturn,fun _ => 0⟩ 10).core.csr.mcause=excEcallFromM := by
  obtain ⟨stored,written,-,hwritten,-,-,hcsr,-⟩ := bench_refines_traps coreSimBench
    ⟨callAndReturn,fun _ => 0⟩ coreSim_idleReads
    (callAndReturn_regular _ _) (coreSim_stable _) 10
  have htwo : written=2 := by
    have hone : 1 < written := (hwritten 1).mpr (by decide +kernel)
    have hnot : ¬2 < written := fun hlt => absurd ((hwritten 2).mp hlt) (by decide +kernel)
    omega
  rw [htwo] at hcsr
  obtain ⟨hmode,hmepc,hcause⟩ := kept_of_erase hcsr
  refine ⟨?_,?_,?_⟩
  · rw [hmode]
    decide +kernel
  · rw [hmepc]
    decide +kernel
  · rw [hcause]
    decide +kernel

end RichardCore.TrapBench
