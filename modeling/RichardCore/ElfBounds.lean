import RichardCore.ElfLoader

/-!
# What the loader reads outside the file

The loader compares table and section ends with the file size, but the sums
wrap, the entry sizes come from the file, an entry may begin in the file and
end beyond it, and a name need not end. The kinds of headers, sections and
symbols for which this matters are listed here; the loader reads outside the
file exactly when it reaches one of them.
-/

namespace RichardCore.ElfBounds

open Packages DataMemory CheckedReads ElfLoader

section Tables

variable (file : ByteString)

/-- The identification is that of a 64-bit little-endian ELF file. -/
def IdentAccepted : Prop :=
  (fieldAt file 0 (eIdent 0)=0x7F ∧ fieldAt file 0 (eIdent 1)=0x45 ∧
    fieldAt file 0 (eIdent 2)=0x4C ∧ fieldAt file 0 (eIdent 3)=0x46) ∧
  fieldAt file 0 (eIdent 4)=2 ∧ fieldAt file 0 (eIdent 5)=1

instance : Decidable (IdentAccepted file) := inferInstanceAs (Decidable (_ ∧ _))

/-- Number of program headers. -/
def phnum : ℕ := (fieldAt file 0 ePhnum).toNat

/-- Program header `i`, where the loader looks for it. -/
def phdrAt (i : ℕ) : Word :=
  fieldAt file 0 ePhoff+BitVec.ofNat 64 i*fieldAt file 0 ePhentsize

/-- Number of section headers. -/
def shnum : ℕ := (fieldAt file 0 eShnum).toNat

/-- Section header `i`, where the loader looks for it. -/
def shdrAt (i : ℕ) : Word :=
  fieldAt file 0 eShoff+BitVec.ofNat 64 i*fieldAt file 0 eShentsize

/-- The checks before the program header loop pass. The end of the table is
a wrapped sum. -/
def HeaderAccepted : Prop :=
  ehdrSize≤file.size ∧ IdentAccepted file ∧
    (fieldAt file 0 ePhoff+fieldAt file 0 ePhnum*fieldAt file 0 ePhentsize).toNat≤file.size

instance : Decidable (HeaderAccepted file) := inferInstanceAs (Decidable (_ ∧ _))

/-- The loader goes through the section headers. -/
def SectionsAccepted : Prop :=
  fieldAt file 0 eShoff≠0 ∧ fieldAt file 0 eShnum≠0 ∧
    (fieldAt file 0 eShoff+fieldAt file 0 eShnum*fieldAt file 0 eShentsize).toNat≤file.size

instance : Decidable (SectionsAccepted file) := inferInstanceAs (Decidable (_ ∧ _))

/-- A segment to load. -/
def IsLoad (phdr : Word) : Prop := fieldAt file phdr pType=ptLoad

instance (phdr : Word) : Decidable (IsLoad file phdr) := inferInstanceAs (Decidable (_=_))

/-- The loader's range check of a segment, a wrapped sum. -/
def SegmentInRange (phdr : Word) : Prop :=
  (fieldAt file phdr pOffset+fieldAt file phdr pFilesz).toNat≤file.size

instance (phdr : Word) : Decidable (SegmentInRange file phdr) := inferInstanceAs (Decidable (_≤_))

/-- The segment makes the loader return false. -/
def SegmentRejected (phdr : Word) : Prop := IsLoad file phdr ∧ ¬SegmentInRange file phdr

/-- Address of the first byte of a segment. -/
def segmentBase (phdr : Word) : Word :=
  if fieldAt file phdr pPaddr≠0 then fieldAt file phdr pPaddr else fieldAt file phdr pVaddr

/-- Ways in which one program header leads outside the file. -/
inductive SegmentDefect (phdr : Word) : Prop where
  /-- The table's entries are too close together or too few bytes remain for
  the kind. -/
  | kind (missing : ¬HasField file phdr pType)
  /-- The header of a segment to load ends before its file size. -/
  | fileSize (load : IsLoad file phdr) (missing : ¬HasField file phdr pFilesz)
  /-- It ends before its memory size. -/
  | memorySize (load : IsLoad file phdr) (inRange : SegmentInRange file phdr)
      (missing : ¬HasField file phdr pMemsz)
  /-- The range check wraps. -/
  | wraps (load : IsLoad file phdr) (inRange : SegmentInRange file phdr)
      (overflow : 2^64≤(fieldAt file phdr pOffset).toNat+(fieldAt file phdr pFilesz).toNat)

/-- The loader looks for the symbols of a section in its linked names. -/
def IsSymtab (shdr : Word) : Prop :=
  fieldAt file shdr shType=shtSymtab ∧ fieldAt file shdr shEntsize≠0 ∧
    (fieldAt file shdr shOffset+fieldAt file shdr shSize).toNat≤file.size ∧
    (fieldAt file shdr shLink).toNat<shnum file

instance (shdr : Word) : Decidable (IsSymtab file shdr) := inferInstanceAs (Decidable (_ ∧ _))

/-- Section header of the names of a symbol table. -/
def strShdr (shdr : Word) : Word :=
  fieldAt file 0 eShoff+fieldAt file shdr shLink*fieldAt file 0 eShentsize

/-- The loader's range check of the names, a wrapped sum. -/
def NamesInRange (shdr : Word) : Prop :=
  (fieldAt file (strShdr file shdr) shOffset+fieldAt file (strShdr file shdr) shSize).toNat≤file.size

instance (shdr : Word) : Decidable (NamesInRange file shdr) := inferInstanceAs (Decidable (_≤_))

/-- Number of symbols. -/
def symCount (shdr : Word) : ℕ := (fieldAt file shdr shSize/fieldAt file shdr shEntsize).toNat

/-- Symbol `s` of a symbol table. -/
def symAt (shdr : Word) (s : ℕ) : Word :=
  fieldAt file shdr shOffset+BitVec.ofNat 64 s*fieldAt file shdr shEntsize

/-- Offset of the name of a symbol. -/
def nameOff (strtab sym : Word) : Word := strtab+fieldAt file sym stName

/-- The loader compares the name of a symbol. -/
def IsNamed (strSize sym : Word) : Prop := (fieldAt file sym stName).toNat<strSize.toNat

instance (strSize sym : Word) : Decidable (IsNamed file strSize sym) :=
  inferInstanceAs (Decidable (_<_))

/-- The name at an offset is one the runner looks for. -/
def IsWanted (off : Word) : Prop :=
  ∃ text∈["begin_signature","end_signature","tohost"],
    beforeZero (file.bytes.drop off.toNat)=some (asciiBytes text)

/-- Ways in which one symbol leads outside the file. -/
inductive SymbolDefect (strtab strSize sym : Word) : Prop where
  /-- The symbol ends before its name. -/
  | name (missing : ¬HasField file sym stName)
  /-- The name has no terminator. -/
  | unterminated (named : IsNamed file strSize sym)
      (missing : ¬Terminated file (nameOff file strtab sym))
  /-- The symbol is wanted and ends before its value. -/
  | value (named : IsNamed file strSize sym) (wanted : IsWanted file (nameOff file strtab sym))
      (missing : ¬HasField file sym stValue)

/-- Ways in which one section header leads outside the file. -/
inductive SectionDefect (shdr : Word) : Prop where
  /-- The header ends before its kind. -/
  | kind (missing : ¬HasField file shdr shType)
  /-- The header of a symbol table ends before its entry size. -/
  | entrySize (symtab : fieldAt file shdr shType=shtSymtab) (missing : ¬HasField file shdr shEntsize)
  /-- The header of the names ends before their size. -/
  | names (symtab : IsSymtab file shdr)
      (missing : ¬(HasField file (strShdr file shdr) shOffset ∧
        HasField file (strShdr file shdr) shSize))
  /-- A symbol does. -/
  | symbol (symtab : IsSymtab file shdr) (inRange : NamesInRange file shdr) (s : ℕ)
      (hs : s<symCount file shdr)
      (defect : SymbolDefect file (fieldAt file (strShdr file shdr) shOffset)
        (fieldAt file (strShdr file shdr) shSize) (symAt file shdr s))

/-- The file leads the loader outside itself. -/
inductive Defect : Prop where
  /-- By a program header that no rejected segment precedes. -/
  | segment (header : HeaderAccepted file) (i : ℕ) (hi : i<phnum file)
      (reached : ∀ j < i,¬SegmentRejected file (phdrAt file j))
      (defect : SegmentDefect file (phdrAt file i))
  /-- By a section header after all segments are loaded. -/
  | sectionHeader (header : HeaderAccepted file)
      (loaded : ∀ j<phnum file,¬SegmentRejected file (phdrAt file j))
      (sections : SectionsAccepted file) (i : ℕ) (hi : i<shnum file)
      (defect : SectionDefect file (shdrAt file i))

end Tables

section Segments

variable (file : ByteString)

/-- The base address of a segment whose header is in the file. -/
theorem loadBase_ok {phdr : Word} (hp : HasField file phdr pPaddr) (hv : HasField file phdr pVaddr) :
    loadBase file phdr=.ok (segmentBase file phdr) := by
  unfold loadBase segmentBase
  rw [readField_ok file phdr pPaddr hp,readField_ok file phdr pVaddr hv]
  change (if _ then _ else _)=_
  split <;> rfl

/-- The fields between the kind and the file size of a segment. -/
theorem segmentFields {phdr : Word} (hkind : HasField file phdr pType)
    (hsize : HasField file phdr pFilesz) :
    HasField file phdr pOffset ∧ HasField file phdr pPaddr ∧ HasField file phdr pVaddr :=
  ⟨hasField_between file hkind hsize (by decide) (by decide) (by decide),
    hasField_between file hkind hsize (by decide) (by decide) (by decide),
    hasField_between file hkind hsize (by decide) (by decide) (by decide)⟩

/-- Copying never gives up. -/
theorem copyBytes_stops (base offset : Word) (filesz : ℕ) (memory : ByteMemory) :
    ¬Stops (copyBytes file base offset filesz memory) := by
  apply loop_not_stops
  intro memory j _
  rw [stops_readByte_bind]
  simp

/-- Copying leaves the file exactly when a byte of the segment does. -/
theorem copyBytes_outside (base offset : Word) (filesz : ℕ) (memory : ByteMemory) :
    Outside (copyBytes file base offset filesz memory) ↔
      ∃ j<filesz,file.size≤(offset+BitVec.ofNat 64 j).toNat := by
  apply loop_outside_of_total
  · intro memory j _
    rw [outside_readByte_bind]
    simp
  · intro memory j _
    rw [stops_readByte_bind]
    simp

/-- A segment that passes the wrapped check has a byte outside the file
exactly when the sum overflows. -/
theorem segment_overflow (offset filesz : Word) (h : (offset+filesz).toNat≤file.size) :
    (∃ j<filesz.toNat,file.size≤(offset+BitVec.ofNat 64 j).toNat) ↔
      2^64≤offset.toNat+filesz.toNat := by
  have hsize := file.size_lt
  have hoffset := offset.isLt
  have hfilesz := filesz.isLt
  rw [BitVec.toNat_add] at h
  simp only [BitVec.toNat_add,BitVec.toNat_ofNat]
  unfold ByteString.size at *
  constructor
  · rintro ⟨j,hj,hout⟩
    omega
  · intro hover
    -- The last word offset before the wrap is beyond any file.
    exact ⟨2^64-1-offset.toNat,by omega,by omega⟩

/-- The part of a pass that places an accepted segment. -/
def placeSegment (phdr : Word) (memory : ByteMemory) : Checked LoadError ByteMemory := do
  let memory' ← copyBytes file (segmentBase file phdr) (fieldAt file phdr pOffset)
    (fieldAt file phdr pFilesz).toNat memory
  let memsz ← readField file phdr pMemsz
  return zeroBytes (segmentBase file phdr) (fieldAt file phdr pFilesz).toNat
    (memsz.toNat-(fieldAt file phdr pFilesz).toNat) memory'

/-- Placing a segment leaves the file when its header or its bytes do. -/
theorem placeSegment_outside (phdr : Word) (memory : ByteMemory) (h : SegmentInRange file phdr) :
    Outside (placeSegment file phdr memory) ↔ ¬HasField file phdr pMemsz ∨
      2^64≤(fieldAt file phdr pOffset).toNat+(fieldAt file phdr pFilesz).toNat := by
  have hmemsz : ∀ memory' : ByteMemory,Outside (do
      let memsz ← readField file phdr pMemsz
      return zeroBytes (segmentBase file phdr) (fieldAt file phdr pFilesz).toNat
        (memsz.toNat-(fieldAt file phdr pFilesz).toNat) memory' : Checked LoadError ByteMemory) ↔
      ¬HasField file phdr pMemsz := by
    intro memory'
    rw [outside_readField_bind]
    simp
  unfold placeSegment
  rw [outside_bind_iff hmemsz,returns_iff,copyBytes_outside,segment_overflow file _ _ h]
  have hstop := copyBytes_stops file (segmentBase file phdr) (fieldAt file phdr pOffset)
    (fieldAt file phdr pFilesz).toNat memory
  rw [and_iff_left hstop,or_and_left,or_iff_not_imp_left,and_iff_right id,or_comm]

/-- Placing a segment never gives up. -/
theorem placeSegment_stops (phdr : Word) (memory : ByteMemory) :
    ¬Stops (placeSegment file phdr memory) := by
  unfold placeSegment
  apply not_stops_bind (copyBytes_stops file _ _ _ memory)
  intro memory'
  simp only [stops_readField_bind,not_stops_pure,and_false,not_false_eq_true]

/-- A header whose kind or whose file size is missing leads outside. -/
theorem loadSegment_missing {phdr : Word} (memory : ByteMemory)
    (h : ¬HasField file phdr pType ∨ IsLoad file phdr ∧ ¬HasField file phdr pFilesz) :
    Outside (loadSegment file phdr memory) := by
  unfold loadSegment
  rw [outside_readField_bind]
  rcases h with hkind|⟨hload,hsize⟩
  · exact Or.inl hkind
  · have htype : ¬fieldAt file phdr pType≠ptLoad := not_not.mpr hload
    rw [if_neg htype,outside_readField_bind,outside_readField_bind]
    exact Or.inr (Or.inr (Or.inl hsize))

/-- Other kinds of headers are skipped. -/
theorem loadSegment_other {phdr : Word} (memory : ByteMemory) (hkind : HasField file phdr pType)
    (hload : ¬IsLoad file phdr) : loadSegment file phdr memory=.ok memory := by
  have htype : fieldAt file phdr pType≠ptLoad := hload
  unfold loadSegment
  rw [readField_ok file phdr pType hkind]
  exact if_pos htype

/-- A segment to load is placed or rejected by its range check. -/
theorem loadSegment_load {phdr : Word} (memory : ByteMemory) (hkind : HasField file phdr pType)
    (hload : IsLoad file phdr) (hsize : HasField file phdr pFilesz) :
    loadSegment file phdr memory=if SegmentInRange file phdr then placeSegment file phdr memory
      else .error (.stop .loadSegment) := by
  have htype : ¬fieldAt file phdr pType≠ptLoad := not_not.mpr hload
  obtain ⟨hoffset,hpaddr,hvaddr⟩ := segmentFields file hkind hsize
  unfold loadSegment
  rw [readField_ok file phdr pType hkind,readField_ok file phdr pOffset hoffset,
    readField_ok file phdr pFilesz hsize,loadBase_ok file hpaddr hvaddr]
  change (if _ then _ else if _ then _ else _)=_
  rw [if_neg htype]
  by_cases hrange : SegmentInRange file phdr
  · rw [if_neg (Nat.not_lt_of_le hrange),if_pos hrange]
    rfl
  · rw [if_pos (Nat.lt_of_not_le hrange),if_neg hrange]

/-- The defects of a program header as one condition. -/
theorem segmentDefect_iff (phdr : Word) :
    SegmentDefect file phdr ↔ ¬HasField file phdr pType ∨ IsLoad file phdr ∧
      (¬HasField file phdr pFilesz ∨ SegmentInRange file phdr ∧
        (¬HasField file phdr pMemsz ∨
          2^64≤(fieldAt file phdr pOffset).toNat+(fieldAt file phdr pFilesz).toNat)) := by
  constructor
  · rintro (missing|⟨load,missing⟩|⟨load,inRange,missing⟩|⟨load,inRange,overflow⟩)
    · exact Or.inl missing
    · exact Or.inr ⟨load,Or.inl missing⟩
    · exact Or.inr ⟨load,Or.inr ⟨inRange,Or.inl missing⟩⟩
    · exact Or.inr ⟨load,Or.inr ⟨inRange,Or.inr overflow⟩⟩
  · rintro (missing|⟨load,missing|⟨inRange,missing|overflow⟩⟩)
    · exact .kind missing
    · exact .fileSize load missing
    · exact .memorySize load inRange missing
    · exact .wraps load inRange overflow

/-- One pass of the program header loop leaves the file exactly at a defect. -/
theorem loadSegment_outside (phdr : Word) (memory : ByteMemory) :
    Outside (loadSegment file phdr memory) ↔ SegmentDefect file phdr := by
  rw [segmentDefect_iff]
  by_cases hmissing : ¬HasField file phdr pType ∨ IsLoad file phdr ∧ ¬HasField file phdr pFilesz
  · exact iff_of_true (loadSegment_missing file memory hmissing)
      (hmissing.imp id fun h => ⟨h.1,Or.inl h.2⟩)
  · obtain ⟨hkind,hsize⟩ := not_or.mp hmissing
    rw [not_not] at hkind
    by_cases hload : IsLoad file phdr
    · have hsize' : HasField file phdr pFilesz := not_not.mp fun h => hsize ⟨hload,h⟩
      rw [loadSegment_load file memory hkind hload hsize']
      by_cases hrange : SegmentInRange file phdr
      · rw [if_pos hrange,placeSegment_outside file phdr memory hrange]
        simp only [hkind,hload,hsize',hrange,not_true_eq_false,false_or,true_and]
      · rw [if_neg hrange]
        simp [hkind,hsize',hrange]
    · rw [loadSegment_other file memory hkind hload]
      simp [hkind,hload]

/-- One pass gives up exactly at a rejected segment it can read. -/
theorem loadSegment_stops (phdr : Word) (memory : ByteMemory) :
    Stops (loadSegment file phdr memory) ↔
      ¬SegmentDefect file phdr ∧ SegmentRejected file phdr := by
  rw [segmentDefect_iff,SegmentRejected]
  by_cases hmissing : ¬HasField file phdr pType ∨ IsLoad file phdr ∧ ¬HasField file phdr pFilesz
  · exact iff_of_false (loadSegment_missing file memory hmissing).not_stops
      fun h => h.1 (hmissing.imp id fun h' => ⟨h'.1,Or.inl h'.2⟩)
  · obtain ⟨hkind,hsize⟩ := not_or.mp hmissing
    rw [not_not] at hkind
    by_cases hload : IsLoad file phdr
    · have hsize' : HasField file phdr pFilesz := not_not.mp fun h => hsize ⟨hload,h⟩
      rw [loadSegment_load file memory hkind hload hsize']
      by_cases hrange : SegmentInRange file phdr
      · rw [if_pos hrange]
        exact iff_of_false (placeSegment_stops file phdr memory) fun h => h.2.2 hrange
      · rw [if_neg hrange]
        simp [hkind,hsize',hload,hrange]
    · rw [loadSegment_other file memory hkind hload]
      simp [hload]

end Segments

section Sections

variable (file : ByteString)

/-- The defects of a symbol as one condition. -/
theorem symbolDefect_iff (strtab strSize sym : Word) :
    SymbolDefect file strtab strSize sym ↔ ¬HasField file sym stName ∨ IsNamed file strSize sym ∧
      (¬Terminated file (nameOff file strtab sym) ∨
        IsWanted file (nameOff file strtab sym) ∧ ¬HasField file sym stValue) := by
  constructor
  · rintro (missing|⟨named,missing⟩|⟨named,wanted,missing⟩)
    · exact Or.inl missing
    · exact Or.inr ⟨named,Or.inl missing⟩
    · exact Or.inr ⟨named,Or.inr ⟨wanted,missing⟩⟩
  · rintro (missing|⟨named,missing|⟨wanted,missing⟩⟩)
    · exact .name missing
    · exact .unterminated named missing
    · exact .value named wanted missing

/-- A wanted name is one of three. -/
theorem isWanted_iff {off : Word} {name : List (BitVec 8)}
    (hname : beforeZero (file.bytes.drop off.toNat)=some name) :
    IsWanted file off ↔ name=asciiBytes "begin_signature" ∨ name=asciiBytes "end_signature" ∨
      name=asciiBytes "tohost" := by
  simp only [IsWanted,hname,Option.some.injEq,List.mem_cons,List.not_mem_nil,or_false,
    exists_eq_or_imp,exists_eq_left]

/-- The value of a symbol is read when its name is wanted. -/
theorem keepSymbol_outside (sym off : Word) (name : List (BitVec 8)) (symbols : Symbols)
    (hname : beforeZero (file.bytes.drop off.toNat)=some name) :
    Outside (keepSymbol file sym name symbols) ↔ IsWanted file off ∧ ¬HasField file sym stValue := by
  rw [isWanted_iff file hname,keepSymbol]
  split
  · rename_i h
    simp only [outside_readField_bind,not_outside_pure,or_false,h,true_or,true_and]
  · rename_i hb
    split
    · rename_i h
      simp only [outside_readField_bind,not_outside_pure,or_false,h,true_or,or_true,true_and]
    · rename_i he
      split
      · rename_i h
        simp only [outside_readField_bind,not_outside_pure,or_false,h,or_true,true_and]
      · rename_i ht
        simp only [not_outside_pure,hb,he,ht,or_self,false_and]

/-- Keeping a symbol never gives up. -/
theorem keepSymbol_stops (sym : Word) (name : List (BitVec 8)) (symbols : Symbols) :
    ¬Stops (keepSymbol file sym name symbols) := by
  unfold keepSymbol
  split_ifs <;> simp only [stops_readField_bind,not_stops_pure,and_false,not_false_eq_true]

/-- One pass of the symbol loop leaves the file exactly at a defect. -/
theorem loadSymbol_outside (strtab strSize sym : Word) (symbols : Symbols) :
    Outside (loadSymbol file strtab strSize sym symbols) ↔ SymbolDefect file strtab strSize sym := by
  rw [symbolDefect_iff]
  unfold loadSymbol
  rw [outside_readField_bind]
  by_cases hnamed : IsNamed file strSize sym
  · rw [if_neg (Nat.not_le_of_lt hnamed),outside_bind]
    by_cases hterm : Terminated file (nameOff file strtab sym)
    · obtain ⟨name,hname⟩ := hterm.name
      have hread := readCString_ok (ρ := LoadError) file _ name hname
      have hkeep := keepSymbol_outside file sym _ name symbols hname
      unfold nameOff at *
      rw [hread]
      simp only [not_outside_ok,false_or,Except.ok.injEq,exists_eq_left',hkeep,hnamed,hterm,
        not_true_eq_false,true_and]
    · have hout := readCString_outside (ρ := LoadError) file _ hterm
      unfold nameOff at *
      simp only [hout,hnamed,hterm,not_false_eq_true,true_or,and_true,or_true]
  · rw [if_pos (Nat.le_of_not_lt hnamed)]
    simp only [not_outside_pure,hnamed,false_and]

/-- A symbol never makes the loader give up. -/
theorem loadSymbol_stops (strtab strSize sym : Word) (symbols : Symbols) :
    ¬Stops (loadSymbol file strtab strSize sym symbols) := by
  unfold loadSymbol
  rw [stops_readField_bind]
  rintro ⟨-,h⟩
  split at h
  · exact not_stops_pure _ h
  · exact not_stops_bind (readCString_not_stops file _)
      (fun name => keepSymbol_stops file sym name symbols) h

/-- The fields between the kind and the entry size of a section. -/
theorem sectionFields {shdr : Word} (hkind : HasField file shdr shType)
    (hentsize : HasField file shdr shEntsize) :
    HasField file shdr shOffset ∧ HasField file shdr shSize ∧ HasField file shdr shLink :=
  ⟨hasField_between file hkind hentsize (by decide) (by decide) (by decide),
    hasField_between file hkind hentsize (by decide) (by decide) (by decide),
    hasField_between file hkind hentsize (by decide) (by decide) (by decide)⟩

/-- The symbol loop of a usable symbol table leaves the file exactly at a
defect of one of its symbols. -/
theorem symbolLoop_outside (strtab strSize offset entsize : Word) (count : ℕ) (symbols : Symbols) :
    Outside (loop (fun symbols s =>
        loadSymbol file strtab strSize (offset+BitVec.ofNat 64 s*entsize) symbols) count symbols) ↔
      ∃ s<count,SymbolDefect file strtab strSize (offset+BitVec.ofNat 64 s*entsize) :=
  loop_outside_of_total count symbols
    (fun symbols _ _ => loadSymbol_outside file strtab strSize _ symbols)
    (fun symbols _ _ => loadSymbol_stops file strtab strSize _ symbols)

/-- The defects of a section header as one condition. -/
theorem sectionDefect_iff (shdr : Word) :
    SectionDefect file shdr ↔ ¬HasField file shdr shType ∨
      fieldAt file shdr shType=shtSymtab ∧ ¬HasField file shdr shEntsize ∨
      IsSymtab file shdr ∧ (¬(HasField file (strShdr file shdr) shOffset ∧
          HasField file (strShdr file shdr) shSize) ∨ NamesInRange file shdr ∧
        ∃ s<symCount file shdr,SymbolDefect file (fieldAt file (strShdr file shdr) shOffset)
          (fieldAt file (strShdr file shdr) shSize) (symAt file shdr s)) := by
  constructor
  · rintro (missing|⟨symtab,missing⟩|⟨symtab,missing⟩|⟨symtab,inRange,s,hs,defect⟩)
    · exact Or.inl missing
    · exact Or.inr (Or.inl ⟨symtab,missing⟩)
    · exact Or.inr (Or.inr ⟨symtab,Or.inl missing⟩)
    · exact Or.inr (Or.inr ⟨symtab,Or.inr ⟨inRange,s,hs,defect⟩⟩)
  · rintro (missing|⟨symtab,missing⟩|⟨symtab,missing|⟨inRange,s,hs,defect⟩⟩)
    · exact .kind missing
    · exact .entrySize symtab missing
    · exact .names symtab missing
    · exact .symbol symtab inRange s hs defect

/-- The part of a pass that looks up the symbols of a usable symbol table. -/
def lookupSymbols (shdr : Word) (symbols : Symbols) : Checked LoadError Symbols := do
  let strOffset ← readField file (strShdr file shdr) shOffset
  let strSize ← readField file (strShdr file shdr) shSize
  if file.size<(strOffset+strSize).toNat then return symbols
  else
    loop (fun symbols s => loadSymbol file strOffset strSize (symAt file shdr s) symbols)
      (symCount file shdr) symbols

/-- Looking up symbols leaves the file when the names' header or a symbol
does. -/
theorem lookupSymbols_outside (shdr : Word) (symbols : Symbols) :
    Outside (lookupSymbols file shdr symbols) ↔
      ¬(HasField file (strShdr file shdr) shOffset ∧ HasField file (strShdr file shdr) shSize) ∨
        NamesInRange file shdr ∧
          ∃ s<symCount file shdr,SymbolDefect file (fieldAt file (strShdr file shdr) shOffset)
            (fieldAt file (strShdr file shdr) shSize) (symAt file shdr s) := by
  unfold lookupSymbols
  rw [outside_readField_bind,outside_readField_bind,not_and_or,or_assoc]
  by_cases hrange : NamesInRange file shdr
  · rw [if_neg (Nat.not_lt_of_le hrange)]
    unfold symAt
    rw [symbolLoop_outside]
    simp only [hrange,true_and]
  · rw [if_pos (Nat.lt_of_not_le hrange)]
    simp only [not_outside_pure,hrange,false_and]

/-- A header whose kind or, for a symbol table, whose entry size is missing
leads outside. -/
theorem loadSection_missing {shdr : Word} (shoff shnum shentsize : Word) (symbols : Symbols)
    (h : ¬HasField file shdr shType ∨
      fieldAt file shdr shType=shtSymtab ∧ ¬HasField file shdr shEntsize) :
    Outside (loadSection file shoff shnum shentsize shdr symbols) := by
  unfold loadSection
  rw [outside_readField_bind]
  rcases h with hkind|⟨htype,hentsize⟩
  · exact Or.inl hkind
  · rw [if_neg (not_not.mpr htype),outside_readField_bind]
    exact Or.inr (Or.inl hentsize)

/-- Any other section is a usable symbol table or skipped. -/
theorem loadSection_eq {shdr : Word} (symbols : Symbols) (hkind : HasField file shdr shType)
    (hentsize : fieldAt file shdr shType=shtSymtab → HasField file shdr shEntsize) :
    loadSection file (fieldAt file 0 eShoff) (fieldAt file 0 eShnum) (fieldAt file 0 eShentsize)
      shdr symbols=
      if IsSymtab file shdr then lookupSymbols file shdr symbols else .ok symbols := by
  unfold loadSection
  rw [readField_ok file shdr shType hkind]
  change (if _ then _ else _)=_
  by_cases htype : fieldAt file shdr shType=shtSymtab
  · obtain ⟨hoffset,hsize,hlink⟩ := sectionFields file hkind (hentsize htype)
    rw [if_neg (not_not.mpr htype),readField_ok file shdr shEntsize (hentsize htype),
      readField_ok file shdr shOffset hoffset,readField_ok file shdr shSize hsize,
      readField_ok file shdr shLink hlink]
    change (if _ then _ else if _ then _ else if shnum file≤_ then _
      else lookupSymbols file shdr symbols)=_
    by_cases hsymtab : IsSymtab file shdr
    · obtain ⟨-,hzero,hrange,hbelow⟩ := hsymtab
      rw [if_neg hzero,if_neg (Nat.not_lt_of_le hrange),if_neg (Nat.not_le_of_lt hbelow),
        if_pos ⟨htype,hzero,hrange,hbelow⟩]
    · rw [if_neg hsymtab]
      split_ifs with hzero hrange hbelow
      · rfl
      · rfl
      · rfl
      · exact absurd ⟨htype,hzero,Nat.le_of_not_lt hrange,Nat.lt_of_not_le hbelow⟩ hsymtab
  · have hnot : ¬IsSymtab file shdr := fun h => htype h.1
    rw [if_pos htype,if_neg hnot]
    rfl

/-- One pass of the section header loop leaves the file exactly at a defect. -/
theorem loadSection_outside (shdr : Word) (symbols : Symbols) :
    Outside (loadSection file (fieldAt file 0 eShoff) (fieldAt file 0 eShnum)
      (fieldAt file 0 eShentsize) shdr symbols) ↔ SectionDefect file shdr := by
  rw [sectionDefect_iff]
  by_cases hmissing : ¬HasField file shdr shType ∨
      fieldAt file shdr shType=shtSymtab ∧ ¬HasField file shdr shEntsize
  · exact iff_of_true (loadSection_missing file _ _ _ symbols hmissing)
      (hmissing.imp id Or.inl)
  · obtain ⟨hkind,hentsize⟩ := not_or.mp hmissing
    rw [not_not] at hkind
    rw [loadSection_eq file symbols hkind fun htype => not_not.mp fun h => hentsize ⟨htype,h⟩]
    by_cases hsymtab : IsSymtab file shdr
    · rw [if_pos hsymtab,lookupSymbols_outside]
      simp only [hkind,hentsize,hsymtab,not_true_eq_false,false_or,true_and]
    · rw [if_neg hsymtab]
      simp only [not_outside_ok,hkind,hentsize,hsymtab,not_true_eq_false,false_and,or_self]

/-- Sections never make the loader give up. -/
theorem loadSection_stops (shoff shnum shentsize shdr : Word) (symbols : Symbols) :
    ¬Stops (loadSection file shoff shnum shentsize shdr symbols) := by
  unfold loadSection
  refine not_stops_bind (readField_not_stops file shdr shType) fun type => ?_
  split
  · exact not_stops_pure symbols
  refine not_stops_bind (readField_not_stops file shdr shEntsize) fun entsize => ?_
  split
  · exact not_stops_pure symbols
  refine not_stops_bind (readField_not_stops file shdr shOffset) fun offset => ?_
  refine not_stops_bind (readField_not_stops file shdr shSize) fun size => ?_
  split
  · exact not_stops_pure symbols
  refine not_stops_bind (readField_not_stops file shdr shLink) fun link => ?_
  split
  · exact not_stops_pure symbols
  refine not_stops_bind (readField_not_stops file _ shOffset) fun strOffset => ?_
  refine not_stops_bind (readField_not_stops file _ shSize) fun strSize => ?_
  split
  · exact not_stops_pure symbols
  · exact loop_not_stops _ symbols fun symbols s _ => loadSymbol_stops file strOffset strSize _ symbols

end Sections

section WholeFile

variable (file : ByteString)

/-- The file header is in a file of its size. -/
theorem hasField_header {f : Field} (hsize : ehdrSize≤file.size) (hf : f.pos+f.len≤ehdrSize) :
    HasField file 0 f :=
  hasField_of_record file (by simpa using hsize) hf

/-- The identification is checked without a read outside, and passes exactly
when it is accepted. -/
theorem checkIdent_spec (hsize : ehdrSize≤file.size) :
    ¬Outside (checkIdent file) ∧ (Returns (checkIdent file) ↔ IdentAccepted file) := by
  have hident : ∀ i<16,HasField file 0 (eIdent i) := by
    intro i hi
    apply hasField_header file hsize
    unfold eIdent ehdrSize
    dsimp only
    omega
  unfold checkIdent
  rw [readField_ok file 0 _ (hident 0 (by decide)),readField_ok file 0 _ (hident 1 (by decide)),
    readField_ok file 0 _ (hident 2 (by decide)),readField_ok file 0 _ (hident 3 (by decide)),
    readField_ok file 0 _ (hident 4 (by decide)),readField_ok file 0 _ (hident 5 (by decide))]
  change ¬Outside (if ¬_ then Except.error _ else if _ then Except.error _ else pure ()) ∧
    (Returns (if ¬_ then Except.error _ else if _ then Except.error _ else pure ()) ↔
      IdentAccepted file)
  rw [IdentAccepted]
  split_ifs with hmagic hclass
  · refine ⟨not_outside_stop _,fun ⟨_,h⟩ => (by cases h),fun h => ?_⟩
    rcases hclass with hclass|hdata
    · exact absurd h.2.1 hclass
    · exact absurd h.2.2 hdata
  · rw [not_or,not_not,not_not] at hclass
    exact ⟨not_outside_pure _,fun _ => ⟨hmagic,hclass⟩,fun _ => ⟨(),rfl⟩⟩
  · exact ⟨not_outside_stop _,fun ⟨_,h⟩ => (by cases h),fun h => absurd h.1 hmagic⟩

/-- The program header table of a complete file header. -/
theorem loadSegments_eq (hsize : ehdrSize≤file.size) (memory : ByteMemory) :
    loadSegments file memory=
      if file.size<(fieldAt file 0 ePhoff+fieldAt file 0 ePhnum*fieldAt file 0 ePhentsize).toNat then
        .error (.stop .programHeaders)
      else loop (fun memory i => loadSegment file (phdrAt file i) memory) (phnum file) memory := by
  have hphoff := hasField_header file hsize (f := ePhoff) (by decide)
  have hphnum := hasField_header file hsize (f := ePhnum) (by decide)
  have hphentsize := hasField_header file hsize (f := ePhentsize) (by decide)
  unfold loadSegments
  rw [readField_ok file 0 _ hphoff,readField_ok file 0 _ hphnum,readField_ok file 0 _ hphentsize]
  rfl

/-- The program headers are loaded without a read outside unless one is
reached that has a defect. -/
theorem loadSegments_outside (hsize : ehdrSize≤file.size) (memory : ByteMemory) :
    Outside (loadSegments file memory) ↔
      (fieldAt file 0 ePhoff+fieldAt file 0 ePhnum*fieldAt file 0 ePhentsize).toNat≤file.size ∧
      ∃ i<phnum file,SegmentDefect file (phdrAt file i) ∧
        ∀ j < i,¬SegmentRejected file (phdrAt file j) := by
  have hloop := loop_outside (phnum file) memory
    (fun memory i _ => loadSegment_outside file (phdrAt file i) memory)
    (fun memory i _ => loadSegment_stops file (phdrAt file i) memory)
  rw [loadSegments_eq file hsize,outside_ite,hloop]
  simp only [not_outside_stop,and_false,false_or,not_lt]

/-- All program headers are loaded exactly when the table is accepted and
none of them has a defect or is rejected. -/
theorem loadSegments_returns (hsize : ehdrSize≤file.size) (memory : ByteMemory) :
    Returns (loadSegments file memory) ↔
      (fieldAt file 0 ePhoff+fieldAt file 0 ePhnum*fieldAt file 0 ePhentsize).toNat≤file.size ∧
      ∀ i<phnum file,¬SegmentDefect file (phdrAt file i) ∧ ¬SegmentRejected file (phdrAt file i) := by
  have hloop := loop_returns (phnum file) memory
    (fun memory i _ => loadSegment_outside file (phdrAt file i) memory)
    (fun memory i _ => loadSegment_stops file (phdrAt file i) memory)
  rw [loadSegments_eq file hsize]
  split_ifs with htable
  · constructor
    · rintro ⟨_,h⟩
      cases h
    · intro h
      exact absurd htable (Nat.not_lt_of_le h.1)
  · rw [and_iff_right (Nat.le_of_not_lt htable)]
    exact hloop

/-- The section header table of a complete file header. -/
theorem loadSymbols_eq (hsize : ehdrSize≤file.size) (symbols : Symbols) :
    loadSymbols file symbols=
      if SectionsAccepted file then
        loop (fun symbols i => loadSection file (fieldAt file 0 eShoff) (fieldAt file 0 eShnum)
          (fieldAt file 0 eShentsize) (shdrAt file i) symbols) (shnum file) symbols
      else .ok symbols := by
  have hshoff := hasField_header file hsize (f := eShoff) (by decide)
  have hshnum := hasField_header file hsize (f := eShnum) (by decide)
  have hshentsize := hasField_header file hsize (f := eShentsize) (by decide)
  have hskip : SectionsAccepted file ↔ ¬(fieldAt file 0 eShoff=0 ∨ fieldAt file 0 eShnum=0 ∨
      file.size<(fieldAt file 0 eShoff+fieldAt file 0 eShnum*fieldAt file 0 eShentsize).toNat) := by
    rw [SectionsAccepted,not_or,not_or,not_lt]
  unfold loadSymbols
  rw [readField_ok file 0 _ hshoff,readField_ok file 0 _ hshnum,readField_ok file 0 _ hshentsize]
  change (if _ then _ else _)=_
  by_cases hsections : SectionsAccepted file
  · rw [if_neg (hskip.mp hsections),if_pos hsections]
    rfl
  · rw [if_pos (not_not.mp fun h => hsections (hskip.mpr h)),if_neg hsections]
    rfl

/-- The section headers lead outside the file exactly when one of them has a
defect. -/
theorem loadSymbols_outside (hsize : ehdrSize≤file.size) (symbols : Symbols) :
    Outside (loadSymbols file symbols) ↔
      SectionsAccepted file ∧ ∃ i<shnum file,SectionDefect file (shdrAt file i) := by
  have hloop := loop_outside_of_total (shnum file) symbols
    (fun symbols i _ => loadSection_outside file (shdrAt file i) symbols)
    (fun symbols i _ => loadSection_stops file (fieldAt file 0 eShoff) (fieldAt file 0 eShnum)
      (fieldAt file 0 eShentsize) (shdrAt file i) symbols)
  rw [loadSymbols_eq file hsize,outside_ite,hloop]
  simp only [not_outside_ok,and_false,or_false]

/-- Looking up symbols never gives up. -/
theorem loadSymbols_stops (hsize : ehdrSize≤file.size) (symbols : Symbols) :
    ¬Stops (loadSymbols file symbols) := by
  rw [loadSymbols_eq file hsize]
  split
  · exact loop_not_stops _ symbols fun symbols i _ => loadSection_stops file _ _ _ _ symbols
  · exact not_stops_ok symbols

/-- Only a file with an accepted header has a defect. -/
theorem Defect.headerAccepted {file : ByteString} (h : Defect file) : HeaderAccepted file := by
  cases h with
  | segment header => exact header
  | sectionHeader header => exact header

/-- The loader reads outside the file exactly when the file has a defect. -/
theorem loadElf64_outside (memory : ByteMemory) (symbols : Symbols) :
    Outside (loadElf64 file memory symbols) ↔ Defect file := by
  unfold loadElf64
  split_ifs with hempty hsmall
  · refine ⟨fun h => absurd h (not_outside_stop _),fun h => ?_⟩
    have hsize := h.headerAccepted.1
    unfold ehdrSize at hsize
    omega
  · refine ⟨fun h => absurd h (not_outside_stop _),fun h => ?_⟩
    exact absurd hsmall (Nat.not_lt_of_le h.headerAccepted.1)
  · have hsize : ehdrSize≤file.size := Nat.le_of_not_lt hsmall
    obtain ⟨hident,haccepted⟩ := checkIdent_spec file hsize
    have hsymbols : ∀ memory' : ByteMemory,Outside (do
        let symbols' ← loadSymbols file symbols
        return (memory',symbols') : Checked LoadError (ByteMemory×Symbols)) ↔
        SectionsAccepted file ∧ ∃ i<shnum file,SectionDefect file (shdrAt file i) := by
      intro memory'
      rw [outside_bind_iff fun _ => iff_of_false (not_outside_pure _) id,
        loadSymbols_outside file hsize symbols]
      simp only [and_false,or_false]
    rw [outside_bind_iff fun _ => outside_bind_iff hsymbols,loadSegments_outside file hsize,
      loadSegments_returns file hsize,haccepted]
    constructor
    · rintro (h|⟨ident,⟨table,i,hi,defect,reached⟩|⟨⟨table,loaded⟩,sections,i,hi,defect⟩⟩)
      · exact absurd h hident
      · exact .segment ⟨hsize,ident,table⟩ i hi reached defect
      · exact .sectionHeader ⟨hsize,ident,table⟩ (fun j hj => (loaded j hj).2) sections i hi defect
    · rintro (⟨⟨_,ident,table⟩,i,hi,reached,defect⟩|⟨⟨_,ident,table⟩,loaded,sections,i,hi,defect⟩)
      · exact Or.inr ⟨ident,Or.inl ⟨table,i,hi,defect,reached⟩⟩
      · by_cases hearly : ∃ j<phnum file,SegmentDefect file (phdrAt file j)
        · -- A program header leads outside before the sections are reached.
          obtain ⟨j,hj,hdefect⟩ := hearly
          exact Or.inr ⟨ident,Or.inl ⟨table,j,hj,hdefect,fun k hk => loaded k (hk.trans hj)⟩⟩
        · have hclean : ∀ j<phnum file,¬SegmentDefect file (phdrAt file j) ∧
              ¬SegmentRejected file (phdrAt file j) :=
            fun j hj => ⟨fun h => hearly ⟨j,hj,h⟩,loaded j hj⟩
          exact Or.inr ⟨ident,Or.inr ⟨⟨table,hclean⟩,sections,i,hi,defect⟩⟩

/-- No byte string without a defect makes the loader read outside, and every
other one does. -/
theorem reads_inside_iff (memory : ByteMemory) (symbols : Symbols) :
    (∀ off,loadElf64 file memory symbols≠.error (.outside off)) ↔ ¬Defect file := by
  rw [←loadElf64_outside file memory symbols]
  exact not_exists.symm

end WholeFile

/-- A file of 64 bytes whose one program header, in entries of no size, is at
its end. -/
def headerAtEnd : ByteString where
  bytes := [0x7F,0x45,0x4C,0x46,2,1,1,0]++List.replicate 8 0++[2,0,243,0,1,0,0,0]++
    List.replicate 8 0++[64,0,0,0,0,0,0,0]++List.replicate 8 0++
    [0,0,0,0,64,0,0,0,1,0,64,0,0,0,0,0]
  size_lt := by decide

/-- The loader reads its first byte beyond that file. -/
theorem reads_headerAtEnd :
    ¬∀ (file : ByteString) (memory : ByteMemory) (symbols : Symbols) (off : Word),
      loadElf64 file memory symbols≠.error (.outside off) :=
  fun h => h headerAtEnd (fun _ => 0) {} 64 rfl

end RichardCore.ElfBounds
