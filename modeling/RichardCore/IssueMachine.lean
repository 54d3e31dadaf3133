import RichardCore.TestBench
import RichardCore.TrapMachine

/-!
# The instructions that enter EX

The core on a test bench as a machine that runs one instruction after the
other, for every program and with all that a pipeline lets a program see. An
operand is the ALU result of the instruction right in front if that one names
the register, whatever it writes back later. Behind an exception or a return
up to two more words enter EX: one is in MEM and one in EX when the flush
comes, and each leaves its traces. A word is fetched before the stores of the
instructions right in front have reached the memory. Each instruction carries
the cycle in which it is in EX, so the counters are exact too.
-/

namespace RichardCore.IssueMachine

open Packages Decoder Execute DataMemory CsrUnit TrapCtrl Hazard Pipeline Clocked Harness
open SequentialMachine TestBench TrapMachine

/-- How an instruction in EX stands to the flushes. -/
inductive Role where
  /-- On the path of the program. -/
  | path
  /-- In MEM when the instruction in front of it flushes: it accesses memory
  and never reaches WB. -/
  | dropped
  /-- In EX during the flush: it commits behind it. -/
  | survivor
  deriving DecidableEq, Repr

/-- An instruction in EX and the state it finds. -/
structure Issue (M : Type) where
  /-- Cycle. -/
  cycle : ℕ
  /-- Instruction address. -/
  pc : Word
  /-- Fetched word. -/
  word : BitVec 32
  /-- Privilege mode of the decoder check. -/
  mode : PrivMode
  /-- Its standing. -/
  role : Role
  /-- Where the program goes on behind the pending flush, if there is one. -/
  resume : Word
  /-- Destination and ALU result of the instruction in MEM, if it writes. -/
  bypass : Option (RegAddr × Word)
  /-- Register file behind the earlier instructions. -/
  regs : RegFile
  /-- Data memory behind the earlier instructions. -/
  memory : M
  /-- CSR file when the instruction reaches WB. -/
  csr : CsrState
  /-- Memory as the fetch of the following word sees it. -/
  seen : M

section Stages

variable {M : Type} (b : Bench M) (s : Issue M)

/-- Operand of a source field. -/
def operand (a : RegAddr) : Word :=
  match s.bypass with
  | some (rd,value) => if rd=a then value else readReg s.regs a
  | none => readReg s.regs a

/-- The instruction with its operands. -/
def decoded : IdEx :=
  let d := decoder s.word s.mode.bits
  ⟨s.word,s.pc,operand s d.rs1Addr,operand s d.rs2Addr,d⟩

/-- The instruction as it enters MEM. -/
def executed : ExMem := exMemOf (decoded s)

/-- The instruction after its memory access. -/
def completed : MemWb :=
  memStage (executed s) (b.dev.read s.memory (dmemRequest (executed s)))

/-- What the trap controller makes of it. -/
def trap : TrapOut := trapOf (completed b s) s.csr

/-- It flushes the pipeline when it reaches WB. -/
def flushes : Bool := s.role != .dropped && (trap b s).trapFlushReq

/-- It leaves the sequential path. -/
def taken : Bool := (executed s).branchTaken

/-- The word behind it. -/
def behind : BitVec 32 := b.fetch s.seen (s.pc+4)

/-- It is a load that holds the word behind it in ID. -/
def stalls : Bool :=
  loadUseStall (decoded s).ctrl.mem.isLoad (decoded s).ctrl.wb.rdAddr
    (decoder (behind b s) s.mode.bits).rs1Addr (decoder (behind b s) s.mode.bits).rs2Addr

/-- What it hands to an instruction right behind it. -/
def result : Option (RegAddr × Word) :=
  if (executed s).wb.regWriteEn && (executed s).wb.rdAddr != 0 then
    some ((executed s).wb.rdAddr,(executed s).aluResult)
  else none

/-- CSR file after cycles without a commit. -/
def idle (cycles : ℕ) (csr : CsrState) : CsrState := (fun c => tickCounters c false)^[cycles] csr

/-- Register file behind the instruction. -/
def regsAfter : RegFile :=
  match s.role with
  | .dropped => s.regs
  | _ => regfileWrite s.regs (wbOf (completed b s) s.csr)

/-- Data memory behind the instruction. -/
def memoryAfter : M := b.dev.edge s.memory (dmemRequest (executed s))

/-- CSR file in the cycle behind its commit. -/
def csrAfter : CsrState :=
  match s.role with
  | .dropped => idle 1 s.csr
  | _ => csrStep s.csr (csrInTrap (completed b s) s.csr)

/-- The word behind the instruction enters EX next. -/
def follow (role : Role) (resume : Word) : Issue M where
  cycle := s.cycle+1+(stalls b s).toNat
  pc := s.pc+4
  word := behind b s
  mode := s.mode
  role := role
  resume := resume
  bypass := if stalls b s then none else result s
  regs := regsAfter b s
  memory := memoryAfter b s
  csr := idle (stalls b s).toNat (csrAfter b s)
  seen := if stalls b s then memoryAfter b s else s.memory

/-- The word at a target enters EX next, `empty` cycles later than the
following word would have. -/
def redirect (target : Word) (empty : ℕ) : Issue M where
  cycle := s.cycle+1+empty
  pc := target
  word := b.fetch (memoryAfter b s) target
  mode := (csrAfter b s).privMode
  role := .path
  resume := target
  bypass := none
  regs := regsAfter b s
  memory := memoryAfter b s
  csr := idle empty (csrAfter b s)
  seen := memoryAfter b s

/-- The next instruction in EX. A flush waits for its instruction to reach
WB; until then the words behind it enter EX unless they are held back. -/
def next : Issue M :=
  match s.role with
  | .path =>
    if flushes b s then
      follow b s (if stalls b s then .survivor else .dropped) (trap b s).trapNextPc
    else if taken s then redirect b s (executed s).branchTarget 2
    else follow b s .path 0
  | .dropped =>
    if taken s || stalls b s then redirect b s s.resume 3
    else follow b s .survivor s.resume
  | .survivor =>
    if flushes b s then redirect b s (trap b s).trapNextPc 4
    else redirect b s s.resume 2

end Stages

/-- The first instruction in EX. -/
def start {M : Type} (b : Bench M) (memory : M) : Issue M where
  cycle := 2
  pc := resetPc
  word := b.fetch memory resetPc
  mode := .m
  role := .path
  resume := resetPc
  bypass := none
  regs := fun _ => 0
  memory := memory
  csr := idle 4 csrReset
  seen := memory

/-- Instruction `n` in EX. -/
def issue {M : Type} (b : Bench M) (memory : M) : ℕ → Issue M
  | 0 => start b memory
  | n+1 => next b (issue b memory n)

end RichardCore.IssueMachine
