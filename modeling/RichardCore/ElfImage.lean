import RichardCore.ElfBounds

/-!
# The loaded image is the image of the file

A well-formed file keeps its tables, segments and names inside itself without
wrapping. Such a file has no defect and no rejected segment, so the loader
returns; and the memory it leaves is the one the program headers describe,
each segment laid over those before it.
-/

namespace RichardCore.ElfImage

open Packages DataMemory CheckedReads ElfLoader ElfBounds

section Format

variable (file : ByteString)

/-- Size of a program header. -/
def phdrSize : ℕ := 56

/-- Size of a section header. -/
def shdrSize : ℕ := 64

/-- Size of a symbol. -/
def symSize : ℕ := 24

/-- The names of a symbol table end inside the file. -/
structure NamesInFile (shdr : Word) : Prop where
  /-- The string table lies in the file. -/
  strings : (fieldAt file (strShdr file shdr) shOffset).toNat+
    (fieldAt file (strShdr file shdr) shSize).toNat≤file.size
  /-- Every name that begins in it has a terminator. -/
  terminated : ∀ s<symCount file shdr,
    IsNamed file (fieldAt file (strShdr file shdr) shSize) (symAt file shdr s) →
      Terminated file (nameOff file (fieldAt file (strShdr file shdr) shOffset) (symAt file shdr s))

/-- A symbol table and its names lie in the file. -/
structure SymtabInFile (shdr : Word) : Prop where
  /-- Entries are as long as the format's. -/
  entry : symSize≤(fieldAt file shdr shEntsize).toNat
  /-- The symbols lie in the file. -/
  symbols : (fieldAt file shdr shOffset).toNat+(fieldAt file shdr shSize).toNat≤file.size
  /-- So does the table of their names, if there is one. -/
  names : (fieldAt file shdr shLink).toNat<shnum file → NamesInFile file shdr

/-- The section headers and their symbol tables lie in the file. -/
structure SectionsInFile : Prop where
  /-- Entries are as long as the format's. -/
  entry : shdrSize≤(fieldAt file 0 eShentsize).toNat
  /-- The table lies in the file. -/
  table : (fieldAt file 0 eShoff).toNat+shnum file*(fieldAt file 0 eShentsize).toNat≤file.size
  /-- So does every symbol table that has entries. -/
  symtabs : ∀ i<shnum file,fieldAt file (shdrAt file i) shType=shtSymtab →
    fieldAt file (shdrAt file i) shEntsize≠0 → SymtabInFile file (shdrAt file i)

/-- A 64-bit little-endian ELF file whose tables and segments lie inside it,
all sums taken without a wrap. -/
structure WellFormed : Prop where
  /-- The header is complete. -/
  header : ehdrSize≤file.size
  /-- It is that of such a file. -/
  ident : IdentAccepted file
  /-- Program headers are as long as the format's. -/
  entry : 0<phnum file → phdrSize≤(fieldAt file 0 ePhentsize).toNat
  /-- Their table lies in the file. -/
  table : (fieldAt file 0 ePhoff).toNat+phnum file*(fieldAt file 0 ePhentsize).toNat≤file.size
  /-- So does every segment to load. -/
  segments : ∀ i<phnum file,IsLoad file (phdrAt file i) →
    (fieldAt file (phdrAt file i) pOffset).toNat+(fieldAt file (phdrAt file i) pFilesz).toNat≤
      file.size
  /-- The section headers are absent or lie in the file. -/
  sections : fieldAt file 0 eShoff=0 ∨ fieldAt file 0 eShnum=0 ∨ SectionsInFile file

/-- A segment to load covers an address. -/
def Covers (phdr a : Word) : Prop :=
  IsLoad file phdr ∧ (a-segmentBase file phdr).toNat<
    max (fieldAt file phdr pFilesz).toNat (fieldAt file phdr pMemsz).toNat

instance (phdr a : Word) : Decidable (Covers file phdr a) := inferInstanceAs (Decidable (_ ∧ _))

/-- Byte of a segment at an address it covers: from the file, then zero. -/
def segmentByte (phdr a : Word) : BitVec 8 :=
  if (a-segmentBase file phdr).toNat<(fieldAt file phdr pFilesz).toNat then
    byteAt file (fieldAt file phdr pOffset+(a-segmentBase file phdr))
  else 0

/-- Memory described by the first `count` program headers. -/
def image : ℕ → ByteMemory
  | 0 => fun _ => 0
  | count+1 => fun a =>
    if Covers file (phdrAt file count) a then segmentByte file (phdrAt file count) a
    else image count a

end Format

section Absence

variable {file : ByteString}

/-- Every program header of a well-formed file has all its fields. -/
theorem WellFormed.phdr_fields (h : WellFormed file) {i : ℕ} (hi : i<phnum file) {f : Field}
    (hf : f.pos+f.len≤phdrSize) : HasField file (phdrAt file i) f := by
  have hbounds := entry_bounds file hi h.table
  exact hasField_of_record file hbounds (hf.trans (h.entry (Nat.zero_lt_of_lt hi)))

/-- No segment of a well-formed file is rejected. -/
theorem WellFormed.segment_inRange (h : WellFormed file) {i : ℕ} (hi : i<phnum file)
    (hload : IsLoad file (phdrAt file i)) : SegmentInRange file (phdrAt file i) := by
  have hsegment := h.segments i hi hload
  unfold SegmentInRange
  rw [BitVec.toNat_add]
  exact (Nat.mod_le _ _).trans hsegment

/-- No program header of a well-formed file has a defect. -/
theorem WellFormed.no_segmentDefect (h : WellFormed file) {i : ℕ} (hi : i<phnum file) :
    ¬SegmentDefect file (phdrAt file i) := by
  rintro (missing|⟨-,missing⟩|⟨-,-,missing⟩|⟨load,-,overflow⟩)
  · exact missing (h.phdr_fields hi (by decide))
  · exact missing (h.phdr_fields hi (by decide))
  · exact missing (h.phdr_fields hi (by decide))
  · have hsegment := h.segments i hi load
    have hsize := file.size_lt
    unfold ByteString.size at hsegment
    omega

/-- Every section header of a table in the file has all its fields. -/
theorem SectionsInFile.shdr_fields (h : SectionsInFile file) {i : ℕ} (hi : i<shnum file) {f : Field}
    (hf : f.pos+f.len≤ shdrSize) : HasField file (shdrAt file i) f :=
  hasField_of_record file (entry_bounds file hi h.table) (hf.trans h.entry)

/-- The names of a usable symbol table have a header. -/
theorem SectionsInFile.strShdr_fields (h : SectionsInFile file) {shdr : Word}
    (hlink : (fieldAt file shdr shLink).toNat<shnum file) {f : Field}
    (hf : f.pos+f.len≤ shdrSize) : HasField file (strShdr file shdr) f := by
  have hbounds := entry_bounds file hlink h.table
  rw [BitVec.ofNat_toNat,BitVec.setWidth_eq] at hbounds
  exact hasField_of_record file hbounds (hf.trans h.entry)

/-- Every symbol of a symbol table in the file has all its fields. -/
theorem SymtabInFile.sym_fields {shdr : Word} (h : SymtabInFile file shdr) {s : ℕ}
    (hs : s<symCount file shdr) {f : Field} (hf : f.pos+f.len≤ symSize) :
    HasField file (symAt file shdr s) f := by
  have hcount : symCount file shdr*(fieldAt file shdr shEntsize).toNat≤
      (fieldAt file shdr shSize).toNat := by
    unfold symCount
    rw [BitVec.toNat_udiv]
    exact Nat.div_mul_le_self _ _
  have htable : (fieldAt file shdr shOffset).toNat+
      symCount file shdr*(fieldAt file shdr shEntsize).toNat≤file.size := by
    have hsymbols := h.symbols
    omega
  exact hasField_of_record file (entry_bounds file hs htable) (hf.trans h.entry)

/-- No section header of a table in the file has a defect. -/
theorem SectionsInFile.no_sectionDefect (h : SectionsInFile file) {i : ℕ} (hi : i<shnum file) :
    ¬SectionDefect file (shdrAt file i) := by
  rintro (missing|⟨-,missing⟩|⟨symtab,missing⟩|⟨symtab,-,s,hs,defect⟩)
  · exact missing (h.shdr_fields hi (by decide))
  · exact missing (h.shdr_fields hi (by decide))
  · exact missing ⟨h.strShdr_fields symtab.2.2.2 (by decide),
      h.strShdr_fields symtab.2.2.2 (by decide)⟩
  · have htable := h.symtabs i hi symtab.1 symtab.2.1
    rcases defect with missing|⟨named,missing⟩|⟨-,-,missing⟩
    · exact missing (htable.sym_fields hs (by decide))
    · exact missing ((htable.names symtab.2.2.2).terminated s hs named)
    · exact missing (htable.sym_fields hs (by decide))

/-- The section headers of a well-formed file have no defect if the loader
goes through them. -/
theorem WellFormed.no_sectionDefect (h : WellFormed file) (haccepted : SectionsAccepted file)
    {i : ℕ} (hi : i<shnum file) : ¬SectionDefect file (shdrAt file i) := by
  rcases h.sections with habsent|habsent|hsections
  · exact absurd habsent haccepted.1
  · exact absurd habsent haccepted.2.1
  · exact hsections.no_sectionDefect hi

/-- A well-formed file never leads the loader outside itself. -/
theorem WellFormed.no_defect (h : WellFormed file) : ¬Defect file := by
  rintro (⟨-,i,hi,-,defect⟩|⟨-,-,haccepted,i,hi,defect⟩)
  · exact h.no_segmentDefect hi defect
  · exact h.no_sectionDefect haccepted hi defect

/-- The symbols of a well-formed file are looked up. -/
theorem WellFormed.loadSymbols_returns (h : WellFormed file) (symbols : Symbols) :
    Returns (loadSymbols file symbols) := by
  rw [returns_iff,loadSymbols_outside file h.header]
  refine ⟨?_,loadSymbols_stops file h.header symbols⟩
  rintro ⟨haccepted,i,hi,defect⟩
  exact h.no_sectionDefect haccepted hi defect

end Absence

section Image

variable (file : ByteString)

/-- Distance of an address from a base, as the loop index that reaches it. -/
theorem eq_add_ofNat_iff (a base : Word) (j : ℕ) (hj : j<2^64) :
    a=base+BitVec.ofNat 64 j ↔ (a-base).toNat=j := by
  constructor
  · rintro rfl
    rw [BitVec.add_comm,BitVec.add_sub_cancel,BitVec.toNat_ofNat,Nat.mod_eq_of_lt hj]
  · rintro rfl
    rw [BitVec.ofNat_toNat,BitVec.setWidth_eq,BitVec.add_comm,BitVec.sub_add_cancel]

/-- Memory with the first `count` bytes of a segment copied. -/
def copied (base offset : Word) (memory : ByteMemory) (count : ℕ) : ByteMemory := fun a =>
  if (a-base).toNat<count then byteAt file (offset+(a-base)) else memory a

/-- Copying one more byte. -/
theorem writeByte_copied (base offset : Word) (memory : ByteMemory) (j : ℕ) (hj : j<2^64) :
    writeByte (copied file base offset memory j) (base+BitVec.ofNat 64 j)
      (byteAt file (offset+BitVec.ofNat 64 j))=copied file base offset memory (j+1) := by
  funext a
  unfold writeByte copied
  by_cases ha : a=base+BitVec.ofNat 64 j
  · have hdist := (eq_add_ofNat_iff a base j hj).mp ha
    have hsub : a-base=BitVec.ofNat 64 j := by
      rw [ha,BitVec.add_comm,BitVec.add_sub_cancel]
    rw [if_pos ha,if_pos (by omega),hsub]
  · have hdist : (a-base).toNat≠j := fun h => ha ((eq_add_ofNat_iff a base j hj).mpr h)
    have hiff : (a-base).toNat<j ↔ (a-base).toNat<j+1 := by omega
    rw [if_neg ha]
    simp only [hiff]

/-- A segment in the file is copied. -/
theorem copyBytes_ok (base offset : Word) (filesz : ℕ) (memory : ByteMemory)
    (h : offset.toNat+filesz≤file.size) :
    copyBytes file base offset filesz memory=.ok (copied file base offset memory filesz) := by
  have hsize := file.size_lt
  have hstart : memory=copied file base offset memory 0 := by
    funext a
    simp [copied]
  have hstep : ∀ (m : ByteMemory) (j : ℕ),j<filesz → m=copied file base offset memory j →
      ∃ m',(do
        let byte ← readByte file (offset+BitVec.ofNat 64 j)
        return writeByte m (base+BitVec.ofNat 64 j) byte : Checked LoadError ByteMemory)=.ok m' ∧
        m'=copied file base offset memory (j+1) := by
    rintro m j hj rfl
    have hin : (offset+BitVec.ofNat 64 j).toNat<file.size := by
      rw [BitVec.toNat_add,BitVec.toNat_ofNat]
      unfold ByteString.size at *
      omega
    have hsmall : j<2^64 := by
      unfold ByteString.size at h
      omega
    rw [readByte_ok file _ hin]
    exact ⟨_,rfl,writeByte_copied file base offset memory j hsmall⟩
  obtain ⟨memory',hrun,hmemory⟩ := loop_ok (fun j m => m=copied file base offset memory j) filesz
    memory hstart hstep
  rw [copyBytes,hrun,hmemory]

/-- The cleared bytes of a segment. -/
theorem zeroBytes_apply (base : Word) (first count : ℕ) (memory : ByteMemory) (a : Word)
    (h : first+count≤2^64) :
    zeroBytes base first count memory a=
      if first≤(a-base).toNat ∧ (a-base).toNat<first+count then 0 else memory a := by
  induction count with
  | zero =>
    have hnone : ¬(first≤(a-base).toNat ∧ (a-base).toNat<first+0) := by omega
    rw [if_neg hnone]
    rfl
  | succ count ih =>
    rw [zeroBytes,writeByte,ih (by omega)]
    by_cases ha : a=base+BitVec.ofNat 64 (first+count)
    · have hdist := (eq_add_ofNat_iff a base (first+count) (by omega)).mp ha
      rw [if_pos ha,if_pos (by omega)]
    · have hdist : (a-base).toNat≠first+count :=
        fun h' => ha ((eq_add_ofNat_iff a base (first+count) (by omega)).mpr h')
      have hiff : (first≤(a-base).toNat ∧ (a-base).toNat<first+count) ↔
          (first≤(a-base).toNat ∧ (a-base).toNat<first+(count+1)) := by omega
      rw [if_neg ha]
      simp only [hiff]

/-- Copying the file bytes of a segment and clearing the rest lays the
segment over memory. -/
theorem zeroBytes_copied (phdr : Word) (memory : ByteMemory) (hload : IsLoad file phdr) :
    zeroBytes (segmentBase file phdr) (fieldAt file phdr pFilesz).toNat
        ((fieldAt file phdr pMemsz).toNat-(fieldAt file phdr pFilesz).toNat)
        (copied file (segmentBase file phdr) (fieldAt file phdr pOffset) memory
          (fieldAt file phdr pFilesz).toNat)=
      fun a => if Covers file phdr a then segmentByte file phdr a else memory a := by
  have hmemsz := (fieldAt file phdr pMemsz).isLt
  have hfilesz := (fieldAt file phdr pFilesz).isLt
  funext a
  rw [zeroBytes_apply _ _ _ _ _ (by omega)]
  unfold copied Covers segmentByte
  simp only [hload,true_and]
  generalize (a-segmentBase file phdr).toNat=dist
  split_ifs <;> first | rfl | omega

end Image

section Loading

variable {file : ByteString}

/-- One pass of the program header loop of a well-formed file. -/
theorem WellFormed.loadSegment_ok (h : WellFormed file) {i : ℕ} (hi : i<phnum file)
    (memory : ByteMemory) :
    loadSegment file (phdrAt file i) memory=.ok (fun a =>
      if Covers file (phdrAt file i) a then segmentByte file (phdrAt file i) a else memory a) := by
  have hfield : ∀ f : Field,f.pos+f.len≤phdrSize → HasField file (phdrAt file i) f :=
    fun f hf => h.phdr_fields hi hf
  by_cases hload : IsLoad file (phdrAt file i)
  · rw [loadSegment_load file memory (hfield _ (by decide)) hload (hfield _ (by decide)),
      if_pos (h.segment_inRange hi hload),placeSegment,
      copyBytes_ok file _ _ _ _ (h.segments i hi hload),
      readField_ok file _ pMemsz (hfield _ (by decide))]
    exact congrArg Except.ok (zeroBytes_copied file _ memory hload)
  · have hnone : ∀ a,¬Covers file (phdrAt file i) a := fun a hcovers => hload hcovers.1
    rw [loadSegment_other file memory (hfield _ (by decide)) hload]
    simp only [hnone,if_false]

/-- The program headers of a well-formed file leave its image. -/
theorem WellFormed.loadSegments_ok (h : WellFormed file) :
    loadSegments file (fun _ => 0)=.ok (image file (phnum file)) := by
  have hstep : ∀ (m : ByteMemory) (i : ℕ),i<phnum file → m=image file i →
      ∃ m',loadSegment file (phdrAt file i) m=.ok m' ∧ m'=image file (i+1) := by
    rintro m i hi rfl
    exact ⟨_,h.loadSegment_ok hi (image file i),rfl⟩
  obtain ⟨memory',hrun,hmemory⟩ := loop_ok (fun i m => m=image file i) (phnum file) (fun _ => 0)
    rfl hstep
  rw [loadSegments_eq file h.header,if_neg (Nat.not_lt_of_le (table_end file h.table)),hrun,hmemory]

/-- The last segment that covers an address decides its byte. -/
theorem image_last (count : ℕ) (a : Word) :
    (∀ i<count,Covers file (phdrAt file i) a →
      (∀ j<count,i<j → ¬Covers file (phdrAt file j) a) →
        image file count a=segmentByte file (phdrAt file i) a) ∧
    ((∀ i<count,¬Covers file (phdrAt file i) a) → image file count a=0) := by
  induction count with
  | zero => exact ⟨fun i hi => absurd hi (Nat.not_lt_zero i),fun _ => rfl⟩
  | succ count ih =>
    rw [image]
    dsimp only
    constructor
    · intro i hi hcovers hlast
      rcases Nat.lt_succ_iff_lt_or_eq.mp hi with hlt|rfl
      · rw [if_neg (hlast count (Nat.lt_succ_self count) hlt)]
        exact ih.1 i hlt hcovers fun j hj hij => hlast j (hj.trans (Nat.lt_succ_self count)) hij
      · rw [if_pos hcovers]
    · intro hnone
      rw [if_neg (hnone count (Nat.lt_succ_self count))]
      exact ih.2 fun i hi => hnone i (hi.trans (Nat.lt_succ_self count))

/-- A well-formed file is loaded into an empty memory as the image its program
headers describe: the last segment that covers an address decides its byte,
which is read from the file up to the file size and zero beyond, and
addresses outside every segment read zero. -/
theorem loadElf64_image (file : ByteString) (symbols : Symbols) (h : WellFormed file) :
    ∃ memory' symbols',loadElf64 file (fun _ => 0) symbols=.ok (memory',symbols') ∧
      ∀ a,
        (∀ i<phnum file,Covers file (phdrAt file i) a →
          (∀ j<phnum file,i<j → ¬Covers file (phdrAt file j) a) →
            memory' a=segmentByte file (phdrAt file i) a) ∧
        ((∀ i<phnum file,¬Covers file (phdrAt file i) a) → memory' a=0) := by
  obtain ⟨symbols',hsymbols⟩ := h.loadSymbols_returns symbols
  obtain ⟨_,hident⟩ := (checkIdent_spec file h.header).2.mpr h.ident
  refine ⟨image file (phnum file),symbols',?_,image_last (phnum file)⟩
  have hsize := h.header
  unfold loadElf64
  rw [if_neg (by unfold ehdrSize at hsize; omega),if_neg (Nat.not_lt_of_le hsize),hident,
    h.loadSegments_ok,hsymbols]
  rfl

end Loading

/-- Bytes of a number in a field of `len` bytes. -/
def numberBytes (len value : ℕ) : List (BitVec 8) :=
  (List.range len).map fun i => BitVec.ofNat 8 (value/256^i)

/-- Bytes of a program header. -/
def programHeader (type offset vaddr paddr filesz memsz : ℕ) : List (BitVec 8) :=
  numberBytes 4 type++numberBytes 4 0++numberBytes 8 offset++numberBytes 8 vaddr++
    numberBytes 8 paddr++numberBytes 8 filesz++numberBytes 8 memsz++numberBytes 8 0

/-- Two segments with a note between them: four bytes and their cleared tail at
virtual address `0x1000`, and one byte with a tail at physical address `0x1002`. -/
def overlapping : ByteString where
  bytes := [0x7F,0x45,0x4C,0x46,2,1,1,0]++numberBytes 24 0++numberBytes 8 64++numberBytes 8 0++
    numberBytes 6 0++numberBytes 2 56++numberBytes 2 3++numberBytes 6 0++
    programHeader 1 232 0x1000 0 4 8++programHeader 4 0 0 0 0 0++
    programHeader 1 236 0x9000 0x1002 1 2++[0xA0,0xA1,0xA2,0xA3,0xB0]
  size_lt := by decide +kernel

/-- That file is well formed. -/
theorem overlapping_wellFormed : WellFormed overlapping where
  header := by decide +kernel
  ident := by decide +kernel
  entry := by decide +kernel
  table := by decide +kernel
  segments := by decide +kernel
  sections := Or.inl (by decide +kernel)


/-- The second segment covers the first where both do. -/
theorem loadElf64_overlapping : ∃ memory' symbols',
    loadElf64 overlapping (fun _ => 0) {}=.ok (memory',symbols') ∧
      memory' 0x1001=0xA1 ∧ memory' 0x1002=0xB0 ∧ memory' 0x1003=0 ∧ memory' 0x2000=0 := by
  obtain ⟨memory',symbols',hload,himage⟩ := loadElf64_image overlapping {} overlapping_wellFormed
  refine ⟨memory',symbols',hload,?_,?_,?_,?_⟩
  · rw [(himage 0x1001).1 0 (by decide +kernel) (by decide +kernel) (by decide +kernel)]
    decide +kernel
  · rw [(himage 0x1002).1 2 (by decide +kernel) (by decide +kernel) (by decide +kernel)]
    decide +kernel
  · rw [(himage 0x1003).1 2 (by decide +kernel) (by decide +kernel) (by decide +kernel)]
    decide +kernel
  · exact (himage 0x2000).2 (by decide +kernel)

end RichardCore.ElfImage
