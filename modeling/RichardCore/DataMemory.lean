import RichardCore.Execute

/-!
# Memory stage and byte memory

Request generation, store alignment with byte strobes, load alignment with
extension, and the misalignment faults of the memory stage; and the byte
memory the harness connects to it, which merges a store by its size code.
-/

namespace RichardCore.DataMemory

open Packages Decoder

/-- EX/MEM register: what the memory stage reads. -/
structure ExMem where
  /-- Address of an access, otherwise the ALU result. -/
  aluResult : Word
  /-- Branch decision, carried but not used downstream. -/
  branchTaken : Bool
  /-- Branch target, carried but not used downstream. -/
  branchTarget : Word
  /-- First operand, the source of register CSR operations. -/
  rs1Rdata : Word
  /-- Second operand, the store data. -/
  rs2Rdata : Word
  /-- First source field, the immediate of CSR operations. -/
  rs1Addr : RegAddr
  /-- Instruction address. -/
  pc : Word
  /-- Immediate; its low bits address the CSR file. -/
  imm : Word
  /-- Instruction word. -/
  instr : BitVec 32
  /-- Memory control. -/
  mem : MemCtrl
  /-- Writeback control. -/
  wb : WbCtrl
  /-- System control. -/
  sys : SysCtrl
  deriving DecidableEq, Repr

/-- MEM/WB register: what the writeback stage reads. -/
structure MemWb where
  /-- Instruction address. -/
  pc : Word
  /-- ALU result. -/
  aluResult : Word
  /-- Aligned and extended load data. -/
  memRdata : Word
  /-- Instruction word. -/
  instr : BitVec 32
  /-- Writeback control. -/
  wb : WbCtrl
  /-- CSR instruction. -/
  isCsr : Bool
  /-- CSR operation code. -/
  csrOp : BitVec 3
  /-- First operand. -/
  rs1Rdata : Word
  /-- First source field. -/
  rs1Addr : RegAddr
  /-- Immediate. -/
  imm : Word
  /-- Decoder's illegal flag. -/
  illegalInstr : Bool
  /-- Environment call. -/
  isEcall : Bool
  /-- Breakpoint. -/
  isEbreak : Bool
  /-- Machine return. -/
  isMret : Bool
  /-- Supervisor return. -/
  isSret : Bool
  /-- Misaligned load. -/
  loadFault : Bool
  /-- Misaligned store. -/
  storeFault : Bool
  /-- Faulting address, zero without a fault. -/
  faultAddr : Word
  deriving DecidableEq, Repr

/-- Data-memory request wires of the core. -/
structure DmemReq where
  /-- Read request. -/
  readEn : Bool
  /-- Write request. -/
  writeEn : Bool
  /-- Byte address. -/
  addr : Word
  /-- Store data shifted into its byte lanes. -/
  wdata : Word
  /-- Raw function code, the only width information the core exports. -/
  size : BitVec 3
  deriving DecidableEq, Repr

/-- Natural alignment of an access by its function code. -/
def addrMisaligned (size : BitVec 3) (addr : Word) : Bool :=
  match size with
  | 0b000#3 | 0b100#3 => false
  | 0b001#3 | 0b101#3 => addr.getLsbD 0
  | 0b010#3 | 0b110#3 => addr.extractLsb' 0 2 != 0
  | 0b011#3 => addr.extractLsb' 0 3 != 0
  | _ => false

/-- Misaligned load in the memory stage. -/
def loadAddrMisaligned (e : ExMem) : Bool := e.mem.isLoad && addrMisaligned e.mem.memSize e.aluResult

/-- Misaligned store in the memory stage. -/
def storeAddrMisaligned (e : ExMem) : Bool := e.mem.isStore && addrMisaligned e.mem.memSize e.aluResult

/-- Bit offset of the addressed byte inside its doubleword. -/
def laneShift (addr : Word) : ℕ := (addr.extractLsb' 0 3).toNat*8

/-- Store data moved to its byte lanes; undefined sizes store nothing. -/
def storeDataAligned (e : ExMem) : Word :=
  if e.mem.isStore then
    match e.mem.memSize with
    | 0b000#3 => (e.rs2Rdata.setWidth 8).setWidth 64<<<laneShift e.aluResult
    | 0b001#3 => (e.rs2Rdata.setWidth 16).setWidth 64<<<laneShift e.aluResult
    | 0b010#3 => (e.rs2Rdata.setWidth 32).setWidth 64<<<laneShift e.aluResult
    | 0b011#3 => e.rs2Rdata
    | _ => 0
  else 0

/-- Byte strobes of the store. -/
def writeStrobe (e : ExMem) : BitVec 8 :=
  let alignOffset := e.aluResult.extractLsb' 0 3
  if e.mem.isStore then
    match e.mem.memSize with
    | 0b000#3 => 0b00000001#8<<<alignOffset
    | 0b001#3 => 0b00000011#8<<<alignOffset
    | 0b010#3 => 0b00001111#8<<<alignOffset
    | 0b011#3 => 0b11111111#8
    | _ => 0
  else 0

/-- Load data shifted down and extended; the reserved size reads zero. -/
def loadDataAligned (size : BitVec 3) (addr rdata : Word) : Word :=
  let shifted := rdata>>>laneShift addr
  match size with
  | 0b000#3 => (shifted.setWidth 8).signExtend 64
  | 0b001#3 => (shifted.setWidth 16).signExtend 64
  | 0b010#3 => (shifted.setWidth 32).signExtend 64
  | 0b011#3 => shifted
  | 0b100#3 => (shifted.setWidth 8).setWidth 64
  | 0b101#3 => (shifted.setWidth 16).setWidth 64
  | 0b110#3 => (shifted.setWidth 32).setWidth 64
  | _ => 0

/-- The request the memory stage drives; misaligned accesses drive none. -/
def dmemRequest (e : ExMem) : DmemReq where
  readEn := e.mem.isLoad && !loadAddrMisaligned e
  writeEn := e.mem.isStore && !storeAddrMisaligned e
  addr := e.aluResult
  wdata := storeDataAligned e
  size := e.mem.memSize

/-- Ready and valid lines of the data cache. -/
structure Handshake where
  /-- The cache accepts the request. -/
  reqReady : Bool
  /-- The read data is valid. -/
  rspValid : Bool
  deriving DecidableEq, Repr

/-- Stall request of the memory stage. -/
def memStallReq (hs : Handshake) (e : ExMem) : Bool :=
  (e.mem.isLoad || e.mem.isStore) && (!hs.reqReady || (e.mem.isLoad && !hs.rspValid))

/-- Memory stage outputs to the MEM/WB register. -/
def memStage (e : ExMem) (rdata : Word) : MemWb where
  pc := e.pc
  aluResult := e.aluResult
  memRdata := loadDataAligned e.mem.memSize e.aluResult rdata
  instr := e.instr
  wb := e.wb
  isCsr := e.sys.isCsr
  csrOp := e.sys.csrOp
  rs1Rdata := e.rs1Rdata
  rs1Addr := e.rs1Addr
  imm := e.imm
  illegalInstr := e.sys.illegalInstr
  isEcall := e.sys.isEcall
  isEbreak := e.sys.isEbreak
  isMret := e.sys.isMret
  isSret := e.sys.isSret
  loadFault := loadAddrMisaligned e
  storeFault := storeAddrMisaligned e
  faultAddr := if loadAddrMisaligned e || storeAddrMisaligned e then e.aluResult else 0

/-- Byte memory of the harness; absent bytes read zero. -/
abbrev ByteMemory : Type := Word → BitVec 8

/-- Replace one byte. -/
def writeByte (memory : ByteMemory) (addr : Word) (value : BitVec 8) : ByteMemory :=
  fun a => if a=addr then value else memory a

/-- Little-endian fold of `count` bytes from `addr`, as the read loops do. -/
def readBytes (memory : ByteMemory) (addr : Word) (width : ℕ) : ℕ → BitVec width
  | 0 => 0
  | count+1 => readBytes memory addr width count |||
      ((memory (addr+BitVec.ofNat 64 count)).setWidth width<<<(8*count))

/-- Read four bytes. -/
def readU32 (memory : ByteMemory) (addr : Word) : BitVec 32 := readBytes memory addr 32 4

/-- Read eight bytes. -/
def readU64 (memory : ByteMemory) (addr : Word) : Word := readBytes memory addr 64 8

/-- Bytes selected by a store size code. -/
def storeBytes (size : BitVec 3) : ℕ :=
  match size with
  | 0b000#3 | 0b100#3 => 1
  | 0b001#3 | 0b101#3 => 2
  | 0b010#3 | 0b110#3 => 4
  | _ => 8

/-- Address of the containing doubleword. -/
def alignDown (addr : Word) : Word := addr&&&~~~7#64

/-- The store loop over `count` consecutive lanes of a doubleword. -/
def writeLanes (memory : ByteMemory) (addr wdata : Word) : ℕ → ByteMemory
  | 0 => memory
  | count+1 =>
    let lane := (addr.extractLsb' 0 3).toNat+count
    writeByte (writeLanes memory addr wdata count)
      (alignDown addr+BitVec.ofNat 64 lane) ((wdata>>>(lane*8)).setWidth 8)

/-- Merge one store into the byte memory by its size code. -/
def writeStore (memory : ByteMemory) (addr wdata : Word) (size : BitVec 3) : ByteMemory :=
  writeLanes memory addr wdata (storeBytes size)

end RichardCore.DataMemory
