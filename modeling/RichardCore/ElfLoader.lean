import RichardCore.CheckedReads
import RichardCore.DataMemory

/-!
# ELF loader of the compliance runner

The loader holds the file in memory and follows its program headers, section
headers, symbols and names by word arithmetic that wraps. Every access is a
checked read at the offset the source dereferences, in the source's order, so
an access the loader did not guard shows as a read outside the file. Opening
and reading the file itself are left to the system.
-/

namespace RichardCore.ElfLoader

open Packages DataMemory CheckedReads

/-- Why the loader returns false. -/
inductive LoadError where
  /-- The file has no bytes. -/
  | emptyFile
  /-- The file is shorter than its header. -/
  | tooSmall
  /-- The first four bytes are not the ELF magic. -/
  | invalidMagic
  /-- Not a 64-bit little-endian file. -/
  | unsupportedClass
  /-- The program header table ends beyond the file. -/
  | programHeaders
  /-- A segment to load ends beyond the file. -/
  | loadSegment
  deriving DecidableEq, Repr

/-- What the loader writes to standard error. -/
def LoadError.message (path : String) : LoadError → String
  | emptyFile => "Empty ELF file: "++path++"\n"
  | tooSmall => "ELF too small: "++path++"\n"
  | invalidMagic => "Invalid ELF magic: "++path++"\n"
  | unsupportedClass => "Only ELF64 little-endian is supported: "++path++"\n"
  | programHeaders => "Program header table out of range\n"
  | loadSegment => "LOAD segment out of range\n"

/-- Symbols the runner looks for; zero when the file has none. -/
structure Symbols where
  /-- First address of the signature. -/
  beginSignature : Word := 0
  /-- Address after the signature. -/
  endSignature : Word := 0
  /-- Address of the result word. -/
  tohost : Word := 0
  deriving DecidableEq, Repr

/-- Size of the file header. -/
def ehdrSize : ℕ := 64

/-- Identification bytes of the file header. -/
def eIdent (i : ℕ) : Field := {pos := i,len := 1}
/-- Program header table. -/
def ePhoff : Field := {pos := 32,len := 8}
/-- Section header table. -/
def eShoff : Field := {pos := 40,len := 8}
/-- Program header distance. -/
def ePhentsize : Field := {pos := 54,len := 2}
/-- Number of program headers. -/
def ePhnum : Field := {pos := 56,len := 2}
/-- Section header distance. -/
def eShentsize : Field := {pos := 58,len := 2}
/-- Number of section headers. -/
def eShnum : Field := {pos := 60,len := 2}

/-- Kind of a segment. -/
def pType : Field := {pos := 0,len := 4}
/-- First file byte of a segment. -/
def pOffset : Field := {pos := 8,len := 8}
/-- Virtual address. -/
def pVaddr : Field := {pos := 16,len := 8}
/-- Physical address. -/
def pPaddr : Field := {pos := 24,len := 8}
/-- Bytes in the file. -/
def pFilesz : Field := {pos := 32,len := 8}
/-- Bytes in memory. -/
def pMemsz : Field := {pos := 40,len := 8}

/-- Kind of a section. -/
def shType : Field := {pos := 4,len := 4}
/-- First file byte of a section. -/
def shOffset : Field := {pos := 24,len := 8}
/-- Bytes of a section. -/
def shSize : Field := {pos := 32,len := 8}
/-- Linked section: the names of a symbol table. -/
def shLink : Field := {pos := 40,len := 4}
/-- Entry distance. -/
def shEntsize : Field := {pos := 56,len := 8}

/-- Name of a symbol in the string table. -/
def stName : Field := {pos := 0,len := 4}
/-- Value of a symbol. -/
def stValue : Field := {pos := 8,len := 8}

/-- Segment to load. -/
def ptLoad : Word := 1

/-- Symbol table section. -/
def shtSymtab : Word := 2

section Loader

variable (file : ByteString)

/-- The identification bytes name a 64-bit little-endian ELF file. -/
def checkIdent : Checked LoadError Unit := do
  let mag0 ← readField file 0 (eIdent 0)
  let mag1 ← readField file 0 (eIdent 1)
  let mag2 ← readField file 0 (eIdent 2)
  let mag3 ← readField file 0 (eIdent 3)
  if ¬(mag0=0x7F ∧ mag1=0x45 ∧ mag2=0x4C ∧ mag3=0x46) then .error (.stop .invalidMagic)
  else do
    let identClass ← readField file 0 (eIdent 4)
    let identData ← readField file 0 (eIdent 5)
    if identClass≠2 ∨ identData≠1 then .error (.stop .unsupportedClass)
    else return ()

/-- The physical address where a segment has one, else the virtual address. -/
def loadBase (phdr : Word) : Checked LoadError Word := do
  let paddr ← readField file phdr pPaddr
  if paddr≠0 then return paddr else readField file phdr pVaddr

/-- Copy the file bytes of a segment. -/
def copyBytes (base offset : Word) (filesz : ℕ) (memory : ByteMemory) :
    Checked LoadError ByteMemory :=
  loop (fun memory j => do
    let byte ← readByte file (offset+BitVec.ofNat 64 j)
    return writeByte memory (base+BitVec.ofNat 64 j) byte) filesz memory

/-- Clear `count` bytes of a segment from its byte `first` on. -/
def zeroBytes (base : Word) (first : ℕ) : ℕ → ByteMemory → ByteMemory
  | 0,memory => memory
  | count+1,memory =>
    writeByte (zeroBytes base first count memory) (base+BitVec.ofNat 64 (first+count)) 0

/-- One pass of the program header loop. -/
def loadSegment (phdr : Word) (memory : ByteMemory) : Checked LoadError ByteMemory := do
  let type ← readField file phdr pType
  if type≠ptLoad then return memory
  else do
    let offset ← readField file phdr pOffset
    let filesz ← readField file phdr pFilesz
    if file.size<(offset+filesz).toNat then .error (.stop .loadSegment)
    else do
      let base ← loadBase file phdr
      let memory' ← copyBytes file base offset filesz.toNat memory
      let memsz ← readField file phdr pMemsz
      return zeroBytes base filesz.toNat (memsz.toNat-filesz.toNat) memory'

/-- The program header table. -/
def loadSegments (memory : ByteMemory) : Checked LoadError ByteMemory := do
  let phoff ← readField file 0 ePhoff
  let phnum ← readField file 0 ePhnum
  let phentsize ← readField file 0 ePhentsize
  let phEnd := phoff+phnum*phentsize
  if file.size<phEnd.toNat then .error (.stop .programHeaders)
  else
    loop (fun memory i => loadSegment file (phoff+BitVec.ofNat 64 i*phentsize) memory)
      phnum.toNat memory

/-- Bytes of an ASCII text. -/
def asciiBytes (text : String) : List (BitVec 8) :=
  text.toList.map fun c => BitVec.ofNat 8 c.toNat

/-- Keep the value of a symbol the runner looks for. -/
def keepSymbol (sym : Word) (name : List (BitVec 8)) (symbols : Symbols) :
    Checked LoadError Symbols :=
  if name=asciiBytes "begin_signature" then do
    let value ← readField file sym stValue
    return {symbols with beginSignature := value}
  else if name=asciiBytes "end_signature" then do
    let value ← readField file sym stValue
    return {symbols with endSignature := value}
  else if name=asciiBytes "tohost" then do
    let value ← readField file sym stValue
    return {symbols with tohost := value}
  else return symbols

/-- One pass of the symbol loop. -/
def loadSymbol (strtab strSize sym : Word) (symbols : Symbols) : Checked LoadError Symbols := do
  let nameOff ← readField file sym stName
  if strSize.toNat≤nameOff.toNat then return symbols
  else do
    let name ← readCString file (strtab+nameOff)
    keepSymbol file sym name symbols

/-- One pass of the section header loop. A section that is not a usable
symbol table is skipped. -/
def loadSection (shoff shnum shentsize shdr : Word) (symbols : Symbols) :
    Checked LoadError Symbols := do
  let type ← readField file shdr shType
  if type≠shtSymtab then return symbols
  else do
    let entsize ← readField file shdr shEntsize
    if entsize=0 then return symbols
    else do
      let offset ← readField file shdr shOffset
      let size ← readField file shdr shSize
      if file.size<(offset+size).toNat then return symbols
      else do
        let link ← readField file shdr shLink
        if shnum.toNat≤link.toNat then return symbols
        else do
          let strShdr := shoff+link*shentsize
          let strOffset ← readField file strShdr shOffset
          let strSize ← readField file strShdr shSize
          if file.size<(strOffset+strSize).toNat then return symbols
          else
            loop (fun symbols s =>
                loadSymbol file strOffset strSize (offset+BitVec.ofNat 64 s*entsize) symbols)
              (size/entsize).toNat symbols

/-- The section header table, which may be absent. -/
def loadSymbols (symbols : Symbols) : Checked LoadError Symbols := do
  let shoff ← readField file 0 eShoff
  let shnum ← readField file 0 eShnum
  let shentsize ← readField file 0 eShentsize
  let shEnd := shoff+shnum*shentsize
  if shoff=0 ∨ shnum=0 ∨ file.size<shEnd.toNat then return symbols
  else
    loop (fun symbols i =>
        loadSection file shoff shnum shentsize (shoff+BitVec.ofNat 64 i*shentsize) symbols)
      shnum.toNat symbols

/-- Load a file into memory and look up its symbols. -/
def loadElf64 (memory : ByteMemory) (symbols : Symbols) :
    Checked LoadError (ByteMemory×Symbols) :=
  if file.size=0 then .error (.stop .emptyFile)
  else if file.size<ehdrSize then .error (.stop .tooSmall)
  else do
    checkIdent file
    let memory' ← loadSegments file memory
    let symbols' ← loadSymbols file symbols
    return (memory',symbols')

end Loader

end RichardCore.ElfLoader
