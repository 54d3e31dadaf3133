import RichardCore.Tracking

/-!
# Core with memories

The closed loop of the core, a constant instruction memory and a data
device, both read combinationally; the device takes a write at the clock
edge that ends the MEM cycle. The device is a parameter; the byte memory of
the harness is one instance.
-/

namespace RichardCore.Harness

open Packages DataMemory TrapCtrl Pipeline Clocked Tracking

/-- Data memory behind the request wires of the core. -/
structure DataDevice (M : Type) where
  /-- Read data of a request. -/
  read : M → DmemReq → Word
  /-- Contents after an accepted write. -/
  write : M → DmemReq → M

/-- Contents at the end of a cycle. -/
def DataDevice.edge {M : Type} (dev : DataDevice M) (m : M) (r : DmemReq) : M :=
  if r.writeEn then dev.write m r else m

/-- The harness memory: a read returns the containing doubleword, a write
merges the lanes of its size code, an idle bus reads zero. -/
def byteDevice : DataDevice ByteMemory where
  read m r := if r.readEn then readU64 m (alignDown r.addr) else 0
  write m r := writeStore m r.addr r.wdata r.size

/-- Instruction memory holding consecutive words from a base address;
unmapped addresses read as NOP. -/
def loadProgram (base : Word) (program : List (BitVec 32)) (pc : Word) : BitVec 32 :=
  let offset := (pc-base).toNat
  if offset%4=0 then program.getD (offset/4) nopInstr else nopInstr

/-- Every word of the memory passes a test that the program's words and NOP
pass. -/
theorem loadProgram_all (test : BitVec 32 → Bool) (base : Word) (program : List (BitVec 32))
    (hprogram : program.all test=true) (hnop : test nopInstr=true) (pc : Word) :
    test (loadProgram base program pc)=true := by
  unfold loadProgram
  dsimp only
  split
  · rw [List.getD_eq_getElem?_getD]
    cases hget : program[(pc-base).toNat/4]? with
    | none => exact hnop
    | some word => exact List.all_eq_true.mp hprogram word (List.mem_of_getElem? hget)
  · exact hnop

/-- The tracked core with its data memory. -/
structure Sys (M : Type) where
  /-- Core and ghost records. -/
  tracked : Tracked
  /-- Data memory contents. -/
  memory : M

section ClosedLoop

variable {M : Type} (imem : Word → BitVec 32) (dev : DataDevice M)

/-- Data-memory request of the current cycle. -/
def Sys.request (y : Sys M) : DmemReq := dmemRequest y.tracked.core.exMem

/-- Inputs the memories and the interrupt lines give the core. -/
def Sys.inputs (y : Sys M) (irq : IrqLines) : Inputs :=
  ⟨false,imem y.tracked.core.pc,dev.read y.memory y.request,irq⟩

/-- One clock edge of the closed loop. -/
def sysStep (y : Sys M) (irq : IrqLines) : Sys M :=
  ⟨trackStep y.tracked (y.inputs imem dev irq),dev.edge y.memory y.request⟩

/-- A run of the closed loop from reset. -/
def sysRun (memory : M) (irq : ℕ → IrqLines) (t : ℕ) : Sys M :=
  runFrom (sysStep imem dev) ⟨trackReset,memory⟩ irq t

/-- Input stream the core sees in a run of the closed loop. -/
def sysInputs (memory : M) (irq : ℕ → IrqLines) (t : ℕ) : Inputs :=
  (sysRun imem dev memory irq t).inputs imem dev (irq t)

/-- The closed loop is a run of the tracked core under its own inputs. -/
theorem sysRun_tracked (memory : M) (irq : ℕ → IrqLines) (t : ℕ) :
    (sysRun imem dev memory irq t).tracked=trackedRun (sysInputs imem dev memory irq) t := by
  induction t with
  | zero => rfl
  | succ t ih =>
    rw [trackedRun_succ,←ih]
    rfl

end ClosedLoop

/-- Inputs of the core running a program from the reset address on an empty
byte memory. -/
def programInputs (program : List (BitVec 32)) (irq : ℕ → IrqLines) : ℕ → Inputs :=
  sysInputs (loadProgram resetPc program) byteDevice (fun _ => 0) irq

end RichardCore.Harness
