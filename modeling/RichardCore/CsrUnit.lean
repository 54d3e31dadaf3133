import RichardCore.BitFields
import RichardCore.Packages

/-!
# Control and status registers

The CSR file with its single clocked process. Nonblocking assignments are
modelled by threading a next-state record whose right-hand sides read only
the old state: counters tick first, then the CSR write, then trap entry or
the two returns, so that a later assignment to the same register wins.
-/

namespace RichardCore.CsrUnit

open Packages BitFields

/-- Registers of the CSR file. -/
structure CsrState where
  /-- Machine status. -/
  mstatus : Word
  /-- Exception delegation. -/
  medeleg : Word
  /-- Interrupt delegation. -/
  mideleg : Word
  /-- Machine interrupt enable. -/
  mie : Word
  /-- Machine trap vector. -/
  mtvec : Word
  /-- Machine counter enable. -/
  mcounteren : Word
  /-- Machine scratch. -/
  mscratch : Word
  /-- Machine exception PC. -/
  mepc : Word
  /-- Machine cause. -/
  mcause : Word
  /-- Machine trap value. -/
  mtval : Word
  /-- Machine interrupt pending. -/
  mip : Word
  /-- Supervisor status, stored separately and mirrored. -/
  sstatus : Word
  /-- Supervisor interrupt enable. -/
  sie : Word
  /-- Supervisor trap vector. -/
  stvec : Word
  /-- Supervisor counter enable. -/
  scounteren : Word
  /-- Supervisor scratch. -/
  sscratch : Word
  /-- Supervisor exception PC. -/
  sepc : Word
  /-- Supervisor cause. -/
  scause : Word
  /-- Supervisor trap value. -/
  stval : Word
  /-- Supervisor interrupt pending. -/
  sip : Word
  /-- Address translation control. -/
  satp : Word
  /-- Cycle counter. -/
  mcycle : Word
  /-- Retired-instruction counter. -/
  minstret : Word
  /-- Timer counter. -/
  time : Word
  /-- Floating-point flags. -/
  fflags : BitVec 5
  /-- Floating-point rounding mode. -/
  frm : BitVec 3
  /-- Current privilege mode. -/
  privMode : PrivMode
  /-- Vector recorded at the last trap. -/
  trapVector : Word
  /-- Whether the last trap was delegated. -/
  trapToS : Bool
  deriving DecidableEq, Repr

/-- Inputs of the CSR file in one cycle. -/
structure CsrIn where
  /-- Synchronous reset. -/
  rst : Bool
  /-- CSR request valid. -/
  csrReq : Bool
  /-- CSR operation code. -/
  csrOp : BitVec 3
  /-- CSR address. -/
  csrAddr : BitVec 12
  /-- Source data. -/
  csrRs1Data : Word
  /-- Trap taken this cycle. -/
  trapTrigger : Bool
  /-- Trap is delegated to supervisor mode. -/
  trapToSMode : Bool
  /-- PC to save. -/
  trapMepc : Word
  /-- Cause to save. -/
  trapMcause : Word
  /-- Trap value to save. -/
  trapMtval : Word
  /-- Machine return. -/
  mretEn : Bool
  /-- Supervisor return. -/
  sretEn : Bool
  deriving DecidableEq, Repr

/-- Hart identifier parameter, at its default. -/
def hartId : Word := 0
/-- Vendor identifier parameter, at its default. -/
def vendorId : Word := 0
/-- Architecture identifier parameter, at its default. -/
def archId : Word := 0
/-- Implementation identifier parameter, at its default. -/
def implId : Word := 0
/-- ISA descriptor parameter, at its default. -/
def misaValue : Word := 0x800000000050112D

/-- Machine interrupt enable bit. -/
def mstatusMieBit : ℕ := 3
/-- Machine previous interrupt enable bit. -/
def mstatusMpieBit : ℕ := 7
/-- Low bit of the machine previous privilege. -/
def mstatusMppLo : ℕ := 11
/-- High bit of the machine previous privilege. -/
def mstatusMppHi : ℕ := 12
/-- Supervisor interrupt enable bit. -/
def sstatusSieBit : ℕ := 1
/-- Supervisor previous interrupt enable bit. -/
def sstatusSpieBit : ℕ := 5
/-- Supervisor previous privilege bit. -/
def sstatusSppBit : ℕ := 8

/-- Map the counter aliases to their machine addresses. -/
def canonicalAddr (addr : BitVec 12) : BitVec 12 :=
  if addr=Csr.cycle.addr then Csr.mcycle.addr
  else if addr=Csr.instret.addr then Csr.minstret.addr
  else addr

/-- Write, set or clear semantics of one CSR operation. -/
def csrWriteNext (currentData writeData : Word) (opCode : BitVec 3) : Word :=
  match opCode with
  | 0b001#3 | 0b101#3 => writeData
  | 0b010#3 | 0b110#3 => currentData|||writeData
  | 0b011#3 | 0b111#3 => currentData&&&~~~writeData
  | _ => currentData

/-- Read-only registers; every other address counts as writable. -/
def csrIsWritable (addr : BitVec 12) : Bool :=
  match Csr.ofAddr addr with
  | some .misa | some .mvendorid | some .marchid | some .mimpid | some .mhartid | some .time => false
  | _ => true

/-- Supported addresses are exactly the named ones. -/
def csrIsSupported (addr : BitVec 12) : Bool := (Csr.ofAddr addr).isSome

/-- Copy the supervisor bits of a new sstatus into mstatus. -/
def applySstatusToMstatus (mstatusCur sstatusData : Word) : Word :=
  setBit (setBit (setBit mstatusCur sstatusSieBit (sstatusData.getLsbD sstatusSieBit))
    sstatusSpieBit (sstatusData.getLsbD sstatusSpieBit))
    sstatusSppBit (sstatusData.getLsbD sstatusSppBit)

/-- Copy the supervisor bits of a new mstatus into sstatus. -/
def mirrorMstatusToSstatus (sstatusCur mstatusData : Word) : Word :=
  setBit (setBit (setBit sstatusCur sstatusSieBit (mstatusData.getLsbD sstatusSieBit))
    sstatusSpieBit (mstatusData.getLsbD sstatusSpieBit))
    sstatusSppBit (mstatusData.getLsbD sstatusSppBit)

/-- Architectural fcsr layout: flags in bits 4:0, rounding mode in 7:5. -/
def composeFcsr (s : CsrState) : Word := (s.frm++s.fflags).setWidth 64

/-- Privilege mode stored in a two-bit previous-mode field. -/
def decodePrivMode (encoded : BitVec 2) : PrivMode :=
  match encoded with
  | 0b00#2 => .u
  | 0b01#2 => .s
  | _ => .m

/-- Two-bit encoding stored in the previous-mode field. -/
def encodePrivMode (mode : PrivMode) : BitVec 2 := mode.bits

/-- Value of a CSR at an address, zero when unsupported. -/
def readCsr (s : CsrState) (addr : BitVec 12) : Word :=
  match Csr.ofAddr addr with
  | some .fflags => s.fflags.setWidth 64
  | some .frm => s.frm.setWidth 64
  | some .fcsr => composeFcsr s
  | some .mstatus => s.mstatus
  | some .misa => misaValue
  | some .medeleg => s.medeleg
  | some .mideleg => s.mideleg
  | some .mie => s.mie
  | some .mtvec => s.mtvec
  | some .mscratch => s.mscratch
  | some .mepc => s.mepc
  | some .mcause => s.mcause
  | some .mtval => s.mtval
  | some .mip => s.mip
  | some .mcounteren => s.mcounteren
  | some .mvendorid => vendorId
  | some .marchid => archId
  | some .mimpid => implId
  | some .mhartid => hartId
  | some .sstatus => s.sstatus
  | some .sie => s.sie
  | some .stvec => s.stvec
  | some .scounteren => s.scounteren
  | some .sscratch => s.sscratch
  | some .sepc => s.sepc
  | some .scause => s.scause
  | some .stval => s.stval
  | some .sip => s.sip
  | some .satp => s.satp
  | some .mcycle => s.mcycle
  | some .minstret => s.minstret
  | some .cycle => s.mcycle
  | some .instret => s.minstret
  | some .time => s.time
  | none => 0

/-- Read data output. -/
def csrRdata (s : CsrState) (addr : BitVec 12) : Word := readCsr s (canonicalAddr addr)

/-- CSRRW and CSRRWI. -/
def isWriteCmd (op : BitVec 3) : Bool := op==0b001 || op==0b101
/-- CSRRS and CSRRSI. -/
def isSetCmd (op : BitVec 3) : Bool := op==0b010 || op==0b110
/-- CSRRC and CSRRCI. -/
def isClearCmd (op : BitVec 3) : Bool := op==0b011 || op==0b111

/-- A request that performs a write: any write command, or a set or clear
with non-zero data, at a supported address. -/
def csrWriteEn (req : Bool) (op : BitVec 3) (addr : BitVec 12) (data : Word) : Bool :=
  req && csrIsSupported (canonicalAddr addr) &&
    (isWriteCmd op || ((isSetCmd op || isClearCmd op) && data != 0))

/-- A write, set or clear command at a read-only address. -/
def csrWriteIllegal (req : Bool) (op : BitVec 3) (addr : BitVec 12) : Bool :=
  req && (isWriteCmd op || isSetCmd op || isClearCmd op) && !csrIsWritable (canonicalAddr addr)

/-- Rejected request: unsupported address or illegal write. -/
def csrIllegalAccess (req : Bool) (op : BitVec 3) (addr : BitVec 12) : Bool :=
  req && (!csrIsSupported (canonicalAddr addr) || csrWriteIllegal req op addr)

/-- Register contents after reset. -/
def csrReset : CsrState where
  mstatus := 0
  medeleg := 0
  mideleg := 0
  mie := 0
  mtvec := 0
  mcounteren := 0
  mscratch := 0
  mepc := 0
  mcause := 0
  mtval := 0
  mip := 0
  sstatus := 0
  sie := 0
  stvec := 0
  scounteren := 0
  sscratch := 0
  sepc := 0
  scause := 0
  stval := 0
  sip := 0
  satp := 0
  mcycle := 0
  minstret := 0
  time := 0
  fflags := 0
  frm := 0
  privMode := .m
  trapVector := 0
  trapToS := false

/-- Free-running counters: cycle and time always, instret without a trap. -/
def tickCounters (s : CsrState) (trapTaken : Bool) : CsrState :=
  {s with
    mcycle := s.mcycle+1
    time := s.time+1
    minstret := if trapTaken then s.minstret else s.minstret+1}

/-- Assignments of the CSR write case; `s` is the old state and `n` the next
state so far. -/
def writeCsr (s n : CsrState) (addr : BitVec 12) (data : Word) (op : BitVec 3) : CsrState :=
  match Csr.ofAddr addr with
  | some .mstatus =>
    let nextData := csrWriteNext s.mstatus data op
    {n with mstatus := nextData, sstatus := mirrorMstatusToSstatus s.sstatus nextData}
  | some .medeleg => {n with medeleg := csrWriteNext s.medeleg data op}
  | some .mideleg => {n with mideleg := csrWriteNext s.mideleg data op}
  | some .mie => {n with mie := csrWriteNext s.mie data op}
  | some .mtvec => {n with mtvec := csrWriteNext s.mtvec data op}
  | some .mscratch => {n with mscratch := csrWriteNext s.mscratch data op}
  | some .mepc => {n with mepc := csrWriteNext s.mepc data op}
  | some .mcause => {n with mcause := csrWriteNext s.mcause data op}
  | some .mtval => {n with mtval := csrWriteNext s.mtval data op}
  | some .mip => {n with mip := csrWriteNext s.mip data op}
  | some .mcounteren => {n with mcounteren := csrWriteNext s.mcounteren data op}
  | some .sstatus =>
    let nextSstatus := csrWriteNext s.sstatus data op
    {n with sstatus := nextSstatus, mstatus := applySstatusToMstatus s.mstatus nextSstatus}
  | some .sie => {n with sie := csrWriteNext s.sie data op}
  | some .stvec => {n with stvec := csrWriteNext s.stvec data op}
  | some .scounteren => {n with scounteren := csrWriteNext s.scounteren data op}
  | some .sscratch => {n with sscratch := csrWriteNext s.sscratch data op}
  | some .sepc => {n with sepc := csrWriteNext s.sepc data op}
  | some .scause => {n with scause := csrWriteNext s.scause data op}
  | some .stval => {n with stval := csrWriteNext s.stval data op}
  | some .sip => {n with sip := csrWriteNext s.sip data op}
  | some .satp => {n with satp := csrWriteNext s.satp data op}
  | some .mcycle => {n with mcycle := csrWriteNext s.mcycle data op}
  | some .minstret => {n with minstret := csrWriteNext s.minstret data op}
  | some .fflags =>
    {n with fflags := (csrWriteNext (s.fflags.setWidth 64) data op).setWidth 5}
  | some .frm => {n with frm := (csrWriteNext (s.frm.setWidth 64) data op).setWidth 3}
  | some .fcsr =>
    let nextFcsr := csrWriteNext (composeFcsr s) data op
    {n with fflags := nextFcsr.setWidth 5, frm := nextFcsr.extractLsb' 5 3}
  | _ => n

/-- Next sstatus of a trap into supervisor mode. -/
def trapSstatus (s : CsrState) : Word :=
  setBit (setBit (setBit s.sstatus sstatusSpieBit (s.sstatus.getLsbD sstatusSieBit))
    sstatusSieBit false) sstatusSppBit (s.privMode==.s)

/-- Next mstatus of a trap into machine mode. -/
def trapMstatus (s : CsrState) : Word :=
  let mpp := encodePrivMode s.privMode
  setBit (setBit (setBit (setBit s.mstatus mstatusMpieBit (s.mstatus.getLsbD mstatusMieBit))
    mstatusMieBit false) mstatusMppLo (mpp.getLsbD 0)) mstatusMppHi (mpp.getLsbD 1)

/-- Assignments of trap entry. -/
def enterTrap (s n : CsrState) (i : CsrIn) : CsrState :=
  let n := {n with
    trapVector := if i.trapToSMode then s.stvec else s.mtvec
    trapToS := i.trapToSMode}
  if i.trapToSMode then
    {n with
      sstatus := trapSstatus s
      mstatus := applySstatusToMstatus s.mstatus (trapSstatus s)
      sepc := i.trapMepc
      scause := i.trapMcause
      stval := i.trapMtval
      privMode := .s}
  else
    {n with
      mstatus := trapMstatus s
      sstatus := mirrorMstatusToSstatus s.sstatus (trapMstatus s)
      mepc := i.trapMepc
      mcause := i.trapMcause
      mtval := i.trapMtval
      privMode := .m}

/-- Two-bit previous-mode field of mstatus. -/
def mppField (mstatus : Word) : BitVec 2 := mstatus.extractLsb' mstatusMppLo 2

/-- Next mstatus of a machine return. -/
def mretMstatus (s : CsrState) : Word :=
  let mpp := encodePrivMode .u
  setBit (setBit (setBit (setBit s.mstatus mstatusMieBit (s.mstatus.getLsbD mstatusMpieBit))
    mstatusMpieBit true) mstatusMppLo (mpp.getLsbD 0)) mstatusMppHi (mpp.getLsbD 1)

/-- Assignments of a machine return. -/
def returnM (s n : CsrState) : CsrState :=
  {n with
    mstatus := mretMstatus s
    sstatus := mirrorMstatusToSstatus s.sstatus (mretMstatus s)
    privMode := decodePrivMode (mppField s.mstatus)}

/-- Next sstatus of a supervisor return. -/
def sretSstatus (s : CsrState) : Word :=
  setBit (setBit (setBit s.sstatus sstatusSieBit (s.sstatus.getLsbD sstatusSpieBit))
    sstatusSpieBit true) sstatusSppBit false

/-- Assignments of a supervisor return. -/
def returnS (s n : CsrState) : CsrState :=
  {n with
    sstatus := sretSstatus s
    mstatus := applySstatusToMstatus s.mstatus (sretSstatus s)
    privMode := if s.sstatus.getLsbD sstatusSppBit then .s else .u}

/-- Whether the cycle executes the CSR write case. -/
def writesCsr (i : CsrIn) : Bool :=
  csrWriteEn i.csrReq i.csrOp i.csrAddr i.csrRs1Data && csrIsWritable (canonicalAddr i.csrAddr)

/-- Next state after the counters and the CSR write, before traps. -/
def writePhase (s : CsrState) (i : CsrIn) : CsrState :=
  let n := tickCounters s i.trapTrigger
  if writesCsr i then writeCsr s n (canonicalAddr i.csrAddr) i.csrRs1Data i.csrOp else n

/-- Next state after both returns, the supervisor one assigned last. -/
def returnPhase (s n : CsrState) (i : CsrIn) : CsrState :=
  let n := if i.mretEn then returnM s n else n
  if i.sretEn then returnS s n else n

/-- One clock edge of the CSR file. -/
def csrStep (s : CsrState) (i : CsrIn) : CsrState :=
  if i.rst then csrReset
  else if i.trapTrigger then enterTrap s (writePhase s i) i
  else returnPhase s (writePhase s i) i

/-- An unnamed address is no alias. -/
theorem canonicalAddr_unnamed {addr : BitVec 12} (h : Csr.ofAddr addr=none) :
    canonicalAddr addr=addr := by
  unfold canonicalAddr
  rw [if_neg,if_neg]
  · rintro rfl
    cases h
  · rintro rfl
    cases h

/-- A cycle without reset, trap and return is its write phase. -/
theorem csrStep_writePhase (s : CsrState) {i : CsrIn} (hrst : i.rst=false)
    (htrap : i.trapTrigger=false) (hmret : i.mretEn=false) (hsret : i.sretEn=false) :
    csrStep s i=writePhase s i := by
  unfold csrStep returnPhase
  rw [hrst,htrap,hmret,hsret]
  rfl

/-- A trap cycle is its write phase followed by the trap entry. -/
theorem csrStep_trap (s : CsrState) (i : CsrIn) (hrst : i.rst=false) (htrap : i.trapTrigger=true) :
    csrStep s i=enterTrap s (writePhase s i) i := by
  unfold csrStep
  rw [if_neg (by rw [hrst]; decide),if_pos htrap]

/-- No CSR write changes the privilege mode. -/
theorem writePhase_privMode (s : CsrState) (i : CsrIn) :
    (writePhase s i).privMode=s.privMode := by
  unfold writePhase
  split
  · unfold writeCsr
    split <;> rfl
  · rfl

end RichardCore.CsrUnit
