import RichardCore.Refinement

/-!
# The core behind a cache handshake

The closed loop with the ready and valid lines of the memory stage driven by
a cache. A cycle in which the memory stage waits completes no access, and its
read data is arbitrary. A stall freezes the PC and the first three pipeline
registers, except that a taken branch still flushes; MEM/WB never stalls.
-/

namespace RichardCore.StalledLoop

open Packages DataMemory CsrUnit TrapCtrl Hazard Pipeline Clocked Harness Simulation Refinement

/-- What the cache drives in one cycle. -/
structure CacheCycle where
  /-- Ready and valid lines. -/
  handshake : Handshake
  /-- Read data while no load completes. -/
  junk : Word

/-- The core with its data memory. -/
structure Loop (M : Type) where
  /-- Core state. -/
  core : CoreState
  /-- Data memory contents. -/
  memory : M

section Model

variable {M : Type} (p : Setup M)

/-- The memory stage waits for the cache. -/
def Loop.stalled (z : Loop M) (c : CacheCycle) : Bool := memStallReq c.handshake z.core.exMem

/-- Data-memory request of the current cycle. -/
def Loop.request (z : Loop M) : DmemReq := dmemRequest z.core.exMem

/-- Inputs of the core: the read data is the memory's when a load completes. -/
def Loop.inputs (z : Loop M) (c : CacheCycle) : Inputs :=
  ⟨false,p.imem z.core.pc,
    if z.core.exMem.mem.isLoad && !z.stalled c then p.dev.read z.memory z.request else c.junk,.low⟩

/-- One clock edge; a write is performed when its handshake completes. -/
def loopStep (z : Loop M) (c : CacheCycle) : Loop M :=
  ⟨coreStepWith c.handshake z.core (z.inputs p c),
    if z.stalled c then z.memory else p.dev.edge z.memory z.request⟩

/-- A run from reset under a sequence of cache cycles. -/
def loopRun (cache : ℕ → CacheCycle) (t : ℕ) : Loop M :=
  runFrom (loopStep p) ⟨coreReset,p.memory⟩ cache t

/-- The write of a request, if it is one. -/
def storeEvent (r : DmemReq) : List DmemReq := if r.writeEn then [r] else []

/-- Register writes committed in a cycle. -/
def loopWrites (cache : ℕ → CacheCycle) (t : ℕ) : List (RegAddr × Word) :=
  writeEvent (wbWires (loopRun p cache t).core)

/-- Data-memory writes completed in a cycle. -/
def loopStores (cache : ℕ → CacheCycle) (t : ℕ) : List DmemReq :=
  if (loopRun p cache t).stalled (cache t) then [] else storeEvent (loopRun p cache t).request

/-- Data-memory writes of the core with the handshake tied high. -/
def tiedStores (n : ℕ) : List DmemReq := storeEvent (p.cycle n).request

/-- Cycles without a stall before cycle `t`. -/
def completed (cache : ℕ → CacheCycle) (t : ℕ) : ℕ :=
  tally (fun u => !(loopRun p cache u).stalled (cache u)) t

/-- The register writes and the completed memory writes of the first `t`
cycles are initial segments of the tied core's, as long as the cycles without
a stall at least. -/
structure SameResults (cache : ℕ → CacheCycle) (t : ℕ) : Prop where
  /-- Register writes. -/
  writes : ∃ n≥completed p cache t,
    eventLog (loopWrites p cache) t=eventLog (coreWrites p) n
  /-- Memory writes. -/
  stores : ∃ n≥completed p cache t,
    eventLog (loopStores p cache) t=eventLog (tiedStores p) n

/-- No instruction of the tied core raises an exception. -/
def NeverTraps : Prop := ∀ n,hasSyncException (p.cycle n).tracked.core=false

end Model

section Memory

variable {M : Type} (dev : DataDevice M) (memory : M)

/-- A memory takes the writes of the store event. -/
theorem edge_eq (r : DmemReq) : dev.edge memory r=(storeEvent r).foldl dev.write memory := by
  unfold DataDevice.edge storeEvent
  split <;> rfl

/-- The edge of a memory follows from the store event. -/
theorem edge_of_event {r r' : DmemReq} (h : storeEvent r=storeEvent r') :
    dev.edge memory r=dev.edge memory r' := by
  rw [edge_eq,edge_eq,h]

/-- Without a store event the memory is kept. -/
theorem edge_idle {r : DmemReq} (h : storeEvent r=[]) : dev.edge memory r=memory := by
  rw [edge_eq,h]
  rfl

end Memory

section Edges

variable (hs : Handshake) (s : CoreState) (i : Inputs)

/-- Without a stall, or with a trap flush, the handshake does not matter. -/
theorem coreStepWith_ready (h : memStallReq hs s.exMem=false ∨ flushWire s i.irq=true) :
    coreStepWith hs s i=coreStep s i := by
  have hcontrols : controlWires hs s i.irq=controlWires ⟨true,true⟩ s i.irq := by
    have htied : memStallReq ⟨true,true⟩ s.exMem=false := by simp [memStallReq]
    unfold controlWires
    rw [htied]
    obtain hready | hflush := h
    · rw [hready]
    · change (trapWires s i.irq).trapFlushReq=true at hflush
      rw [hflush]
      rfl
  unfold coreStep coreStepWith
  rw [hcontrols]

/-- A stall keeps EX/MEM and lets WB commit and MEM/WB load; the front end is
kept, unless EX takes a branch or jump: then it is redirected, and the branch
leaves ID/EX without passing MEM. -/
theorem coreStepWith_stalled (hrst : i.rst=false) (hstall : memStallReq hs s.exMem=true)
    (hflush : flushWire s i.irq=false) :
    coreStepWith hs s i=
      { pc := if takenWire s then (exWires s).branchTarget else s.pc
        regs := regfileWrite s.regs (wbWires s)
        ifId := if takenWire s then ifIdNop else s.ifId
        idEx := if takenWire s then idExFlush s.idEx else s.idEx
        exMem := s.exMem
        memWb := memStage s.exMem i.dmemRdata
        csr := csrStep s.csr (csrWires s i) } := by
  have hflushReq : (trapWires s i.irq).trapFlushReq=false := hflush
  have hsel : (trapWires s i.irq).trapPcSel=false := hflush
  have htaken : (exWires s).branchTaken=takenWire s := rfl
  unfold coreStepWith controlWires redirectWires
  rw [hstall,hflushReq,hsel,htaken,hrst]
  cases takenWire s <;>
    simp [hazardControls,Controls.idle,ifStage,pcRedirect,pipeReg]

end Edges

end RichardCore.StalledLoop
