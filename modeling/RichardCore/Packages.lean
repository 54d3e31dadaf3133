import Mathlib.Data.BitVec

/-!
# Shared packages of the core

The opcode map, the ALU operation codes and the branch codes of the base
instruction package, and the CSR addresses, cause codes and privilege
encodings of the CSR package. Enumerations of the source are inductive
types; raw three-bit function codes stay bit vectors, because the decoder
forwards undefined codes unchanged.
-/

namespace RichardCore.Packages

/-- A 64-bit machine word. -/
abbrev Word : Type := BitVec 64

/-- A register number. -/
abbrev RegAddr : Type := BitVec 5

/-- Base opcode map over the seven low instruction bits. -/
inductive Opcode where
  | load | loadFp | miscMem | opImm | opImm32 | auipc | lui | store | storeFp | amo | op | op32
  | madd | msub | nmsub | nmadd | opFp | branch | jalr | jal | system
  | custom0 | custom1 | custom2 | custom3
  deriving DecidableEq, Repr

/-- The seven-bit encoding of every listed opcode. -/
def Opcode.bits : Opcode → BitVec 7
  | .load => 0b0000011
  | .loadFp => 0b0000111
  | .miscMem => 0b0001111
  | .opImm => 0b0010011
  | .opImm32 => 0b0011011
  | .auipc => 0b0010111
  | .lui => 0b0110111
  | .store => 0b0100011
  | .storeFp => 0b0100111
  | .amo => 0b0101111
  | .op => 0b0110011
  | .op32 => 0b0111011
  | .madd => 0b1000011
  | .msub => 0b1000111
  | .nmsub => 0b1001011
  | .nmadd => 0b1001111
  | .opFp => 0b1010011
  | .branch => 0b1100011
  | .jalr => 0b1100111
  | .jal => 0b1101111
  | .system => 0b1110011
  | .custom0 => 0b0001011
  | .custom1 => 0b0101011
  | .custom2 => 0b1011011
  | .custom3 => 0b1111011

/-- Every listed opcode, in the order of the source table. -/
def Opcode.all : List Opcode :=
  [.load,.loadFp,.miscMem,.opImm,.opImm32,.auipc,.lui,.store,.storeFp,.amo,.op,.op32,
    .madd,.msub,.nmsub,.nmadd,.opFp,.branch,.jalr,.jal,.system,.custom0,.custom1,.custom2,.custom3]

/-- The enumerator selected by seven opcode bits, none for an unlisted code. -/
def Opcode.ofBits (bits : BitVec 7) : Option Opcode :=
  Opcode.all.find? fun opcode => opcode.bits=bits

/-- Selecting an enumerator inverts its encoding. -/
theorem Opcode.ofBits_bits (opcode : Opcode) : Opcode.ofBits opcode.bits=some opcode := by
  cases opcode <;> rfl

/-- A selected enumerator has exactly the inspected bits. -/
theorem Opcode.bits_of_ofBits {bits : BitVec 7} {opcode : Opcode}
    (h : Opcode.ofBits bits=some opcode) : opcode.bits=bits := by
  simpa using List.find?_some h

/-- ALU operation select. -/
inductive AluOp where
  | add | sub | sll | slt | sltu | xor | srl | sra | or | and
  deriving DecidableEq, Repr

/-- BEQ function code. -/
def branchEq : BitVec 3 := 0b000
/-- BNE function code. -/
def branchNe : BitVec 3 := 0b001
/-- BLT function code, signed. -/
def branchLt : BitVec 3 := 0b100
/-- BGE function code, signed. -/
def branchGe : BitVec 3 := 0b101
/-- BLTU function code. -/
def branchLtu : BitVec 3 := 0b110
/-- BGEU function code. -/
def branchGeu : BitVec 3 := 0b111

/-- The three privilege modes a hart can be in. -/
inductive PrivMode where
  | u | s | m
  deriving DecidableEq, Repr

/-- Two-bit encoding driven on the privilege wires. -/
def PrivMode.bits : PrivMode → BitVec 2
  | .u => 0b00
  | .s => 0b01
  | .m => 0b11

/-- Only machine mode has its encoding. -/
theorem PrivMode.bits_ne_m (mode : PrivMode) : mode.bits≠PrivMode.m.bits ↔ mode≠.m := by
  cases mode <;> decide

/-- Every CSR the package names and the CSR file answers. -/
inductive Csr where
  | fflags | frm | fcsr
  | mvendorid | marchid | mimpid | mhartid
  | mstatus | misa | medeleg | mideleg | mie | mtvec | mcounteren
  | mscratch | mepc | mcause | mtval | mip | mcycle | minstret
  | sstatus | sie | stvec | scounteren | sscratch | sepc | scause | stval | sip | satp
  | cycle | time | instret
  deriving DecidableEq, Repr

/-- The twelve-bit address of every named CSR. -/
def Csr.addr : Csr → BitVec 12
  | .fflags => 0x001
  | .frm => 0x002
  | .fcsr => 0x003
  | .mvendorid => 0xF11
  | .marchid => 0xF12
  | .mimpid => 0xF13
  | .mhartid => 0xF14
  | .mstatus => 0x300
  | .misa => 0x301
  | .medeleg => 0x302
  | .mideleg => 0x303
  | .mie => 0x304
  | .mtvec => 0x305
  | .mcounteren => 0x306
  | .mscratch => 0x340
  | .mepc => 0x341
  | .mcause => 0x342
  | .mtval => 0x343
  | .mip => 0x344
  | .mcycle => 0xB00
  | .minstret => 0xB02
  | .sstatus => 0x100
  | .sie => 0x104
  | .stvec => 0x105
  | .scounteren => 0x106
  | .sscratch => 0x140
  | .sepc => 0x141
  | .scause => 0x142
  | .stval => 0x143
  | .sip => 0x144
  | .satp => 0x180
  | .cycle => 0xC00
  | .time => 0xC01
  | .instret => 0xC02

/-- Every named CSR. -/
def Csr.all : List Csr :=
  [.fflags,.frm,.fcsr,.mvendorid,.marchid,.mimpid,.mhartid,.mstatus,.misa,.medeleg,.mideleg,.mie,
    .mtvec,.mcounteren,.mscratch,.mepc,.mcause,.mtval,.mip,.mcycle,.minstret,.sstatus,.sie,.stvec,
    .scounteren,.sscratch,.sepc,.scause,.stval,.sip,.satp,.cycle,.time,.instret]

/-- The CSR named by an address, none for an address outside the package. -/
def Csr.ofAddr (addr : BitVec 12) : Option Csr := Csr.all.find? fun csr => csr.addr=addr

/-- Looking a CSR up at its own address finds it. -/
theorem Csr.ofAddr_addr (csr : Csr) : Csr.ofAddr csr.addr=some csr := by
  cases csr <;> rfl

/-- A CSR found at an address has that address. -/
theorem Csr.addr_of_ofAddr {addr : BitVec 12} {csr : Csr}
    (h : Csr.ofAddr addr=some csr) : csr.addr=addr := by
  simpa using List.find?_some h

/-- Illegal instruction cause code. -/
def excInstIllegal : Word := 2
/-- Breakpoint cause code. -/
def excBreakpoint : Word := 3
/-- Load access fault cause code. -/
def excLoadFault : Word := 5
/-- Store access fault cause code. -/
def excStoreFault : Word := 7
/-- Environment call from user mode. -/
def excEcallFromU : Word := 8
/-- Environment call from supervisor mode. -/
def excEcallFromS : Word := 9
/-- Environment call from machine mode. -/
def excEcallFromM : Word := 11
/-- Instruction page fault cause code. -/
def excInstrPageFault : Word := 12
/-- Load page fault cause code. -/
def excLoadPageFault : Word := 13
/-- Store page fault cause code. -/
def excStorePageFault : Word := 15
/-- Machine software interrupt number. -/
def interruptMSoftware : Word := 3
/-- Machine timer interrupt number. -/
def interruptMTimer : Word := 7
/-- Machine external interrupt number. -/
def interruptMExternal : Word := 11
/-- Top bit of a cause word, set for interrupts. -/
def interruptBit : Word := 0x8000000000000000

end RichardCore.Packages
