import RichardCore.CommandLine
import RichardCore.ComplianceSuite
import RichardCore.ElfImage
import RichardCore.SignatureDump
import RichardCore.TohostLoop

/-!
# The compliance runner as a process

From the command line to the exit code: the runner reads its options, loads
the file, resets the core for five ticks, runs the test loop and leaves a
signature. The file system and the power-on state of the core are what it
finds in the world. What it leaves is determined by the first result of the
program; for base programs, by the reference machine. The suite script counts
runs by exactly that.
-/

namespace RichardCore.RunnerMain

open Packages DataMemory CheckedReads ElfLoader SignatureDump CommandLine ComplianceSuite
open Pipeline Clocked TestBench IsaMachine IsaRefinement TohostLoop ElfImage ElfBounds

/-- What a run of the runner finds. -/
structure World where
  /-- Contents of a file that can be opened and read. -/
  read : String → Option ByteString
  /-- A path can be opened for writing. -/
  creates : String → Bool
  /-- State of a new core. -/
  powerOn : CoreState

/-- How a run of the runner ends. -/
inductive Ending where
  /-- With an exit code, and the text of the signature file if it wrote one. -/
  | exit (code : ℕ) (signature : Option (List Char))
  /-- With an exception that nothing catches. -/
  | exception (error : NumberError)
  /-- With a read outside the file, which C++ does not define. -/
  | outside (off : Word)
  deriving DecidableEq, Repr

/-- Exit code of a verdict. -/
def returnCode : Option Bool → ℕ
  | none => 3
  | some true => 0
  | some false => 1

/-- What `dump_signature` writes, if anything; `none` while it is still
printing. -/
def dumpFile (world : World) (path : String) (memory : ByteMemory) (symbols : Symbols)
    (fuel : ℕ) : Option (Option (List Char)) :=
  if path="" then some none
  else if world.creates path then (dumpSignature memory symbols fuel).map some
  else some none

/-- A run of the runner, with fuel for the signature. -/
def main (world : World) (fuel : ℕ) (args : List String) : Option Ending :=
  match parseArgs args {} with
  | .error error => some (.exception error)
  | .ok opts =>
    if opts.showHelp then some (.exit 0 none)
    else if opts.elfPath="" then some (.exit 0 none)
    else
      match world.read opts.elfPath with
      | none => some (.exit 2 none)
      | some file =>
        match loadElf64 file (fun _ => 0) {} with
        | .error (.outside off) => some (.outside off)
        | .error (.stop _) => some (.exit 2 none)
        | .ok (memory,symbols) =>
          let top := reset runnerBench ⟨world.powerOn,memory⟩ 5
          let result := testLoop symbols.tohost opts.maxCycles.toNat top
          (dumpFile world opts.signaturePath result.2.memory symbols fuel).map
            fun signature => .exit (returnCode result.1) signature

/-- The runner ends in a way. -/
def Ends (world : World) (args : List String) (ending : Ending) : Prop :=
  ∃ fuel,main world fuel args=some ending

/-- The arguments name a file that is loaded. -/
structure Starts (world : World) (args : List String) (opts : Options) (memory : ByteMemory)
    (symbols : Symbols) : Prop where
  /-- The options are read. -/
  parsed : parseArgs args {}=.ok opts
  /-- Not only the usage is asked for. -/
  noHelp : opts.showHelp=false
  /-- A file is given. -/
  elf : opts.elfPath≠""
  /-- It is loaded. -/
  loaded : ∃ file,world.read opts.elfPath=some file ∧
    loadElf64 file (fun _ => 0) {}=.ok (memory,symbols)

/-- Signature left by a memory: none without a usable path. -/
def Leaves (world : World) (path : String) (symbols : Symbols) (left : ByteMemory) :
    Option (List Char) → Prop
  | none => path="" ∨ world.creates path=false
  | some text => path≠"" ∧ world.creates path=true ∧ Writes left symbols text

section Runs

variable {world : World} {args : List String} {opts : Options} {memory : ByteMemory}
  {symbols : Symbols}

/-- The signature file is what the memory leaves. -/
theorem dumpFile_iff (path : String) (left : ByteMemory) (signature : Option (List Char)) :
    (∃ fuel,dumpFile world path left symbols fuel=some signature) ↔
      Leaves world path symbols left signature := by
  unfold dumpFile
  by_cases hpath : path=""
  · cases signature with
    | none => simp [Leaves,hpath]
    | some text => simp [Leaves,hpath]
  · cases hcreates : world.creates path with
    | false => cases signature <;> simp [Leaves,hpath,hcreates]
    | true => cases signature <;> simp [Leaves,hpath,hcreates,Writes]

/-- A run that starts ends with the verdict of its test loop and the signature
of the memory behind it. -/
theorem ends_iff (h : Starts world args opts memory symbols) (ending : Ending) :
    Ends world args ending ↔
      ∃ verdict top signature,
        testLoop symbols.tohost opts.maxCycles.toNat ⟨coreReset,memory⟩=(verdict,top) ∧
        Leaves world opts.signaturePath symbols top.memory signature ∧
        ending=.exit (returnCode verdict) signature := by
  obtain ⟨file,hread,hload⟩ := h.loaded
  have hmain : ∀ fuel,main world fuel args=
      (dumpFile world opts.signaturePath
        (testLoop symbols.tohost opts.maxCycles.toNat ⟨coreReset,memory⟩).2.memory symbols fuel).map
        fun signature => .exit (returnCode
          (testLoop symbols.tohost opts.maxCycles.toNat ⟨coreReset,memory⟩).1) signature := by
    intro fuel
    unfold main
    rw [h.parsed]
    dsimp only
    rw [h.noHelp,if_neg (by decide),if_neg h.elf,hread]
    dsimp only
    rw [hload]
    dsimp only
    rw [reset_eq]
  unfold Ends
  simp only [hmain,Option.map_eq_some_iff,←dumpFile_iff]
  constructor
  · rintro ⟨fuel,signature,hdump,rfl⟩
    exact ⟨_,_,signature,rfl,⟨fuel,hdump⟩,rfl⟩
  · rintro ⟨verdict,top,signature,hloop,⟨fuel,hdump⟩,rfl⟩
    rw [hloop]
    exact ⟨fuel,signature,hdump,rfl⟩

/-- It ends as a reference does when its test loop does. -/
theorem ends_reference (h : Starts world args opts memory symbols)
    {EndsWith : Option Bool → ByteMemory → Prop}
    (hloop : ∀ verdict left,
      (∃ top,testLoop symbols.tohost opts.maxCycles.toNat ⟨coreReset,memory⟩=(verdict,top) ∧
        top.memory=left) ↔ EndsWith verdict left) (ending : Ending) :
    Ends world args ending ↔
      ∃ verdict left signature,EndsWith verdict left ∧
        Leaves world opts.signaturePath symbols left signature ∧
        ending=.exit (returnCode verdict) signature := by
  rw [ends_iff h]
  simp only [←hloop]
  constructor
  · rintro ⟨verdict,top,signature,hresult,hleaves,hending⟩
    exact ⟨verdict,_,signature,⟨top,hresult,rfl⟩,hleaves,hending⟩
  · rintro ⟨verdict,left,signature,⟨top,hresult,rfl⟩,hleaves,hending⟩
    exact ⟨verdict,top,signature,hresult,hleaves,hending⟩

end Runs

section StoreAndLoop

/-- Bytes of a section header. -/
def sectionHeader (type offset size link entsize : ℕ) : List (BitVec 8) :=
  numberBytes 4 0++numberBytes 4 type++numberBytes 16 0++numberBytes 8 offset++numberBytes 8 size++
    numberBytes 4 link++numberBytes 12 0++numberBytes 8 entsize

/-- Bytes of a symbol. -/
def symbolEntry (name value : ℕ) : List (BitVec 8) :=
  numberBytes 4 name++numberBytes 4 0++numberBytes 8 value++numberBytes 8 0

/-- File of the program that stores one to address 256, with the result word
and a signature of one doubleword there. -/
def storeAndLoopElf : ByteString where
  bytes := [0x7F,0x45,0x4C,0x46,2,1,1,0]++numberBytes 24 0++numberBytes 8 64++numberBytes 8 241++
    numberBytes 6 0++numberBytes 2 56++numberBytes 2 1++numberBytes 2 64++numberBytes 2 2++
    numberBytes 2 0++programHeader 1 120 0x80000000 0x80000000 12 12++
    [0x93,0x02,0x10,0x00, 0x23,0x30,0x50,0x10, 0x6f,0x00,0x00,0x00]++
    symbolEntry 0 0x100++symbolEntry 7 0x100++symbolEntry 23 0x108++
    asciiBytes "tohost"++[0]++asciiBytes "begin_signature"++[0]++asciiBytes "end_signature"++[0]++
    sectionHeader 2 132 72 1 24++sectionHeader 3 204 37 0 0
  size_lt := by decide +kernel


/-- Its sections lie in it. -/
theorem storeAndLoopElf_sections : SectionsInFile storeAndLoopElf where
  entry := by decide +kernel
  table := by decide +kernel
  symtabs i hi htype hentsize := by
    change i<2 at hi
    interval_cases i
    · refine ⟨by decide +kernel,by decide +kernel,fun _ => ⟨by decide +kernel,by decide +kernel⟩⟩
    · exact absurd htype (by decide +kernel)

/-- It is well formed. -/
theorem storeAndLoopElf_wellFormed : WellFormed storeAndLoopElf where
  header := by decide +kernel
  ident := by decide +kernel
  entry := by decide +kernel
  table := by decide +kernel
  segments := by decide +kernel
  sections := Or.inr (Or.inr storeAndLoopElf_sections)

/-- Its image is the program. -/
theorem image_storeAndLoop : image storeAndLoopElf (phnum storeAndLoopElf)=storeAndLoop := by
  funext a
  have hcount : phnum storeAndLoopElf=1 := by decide +kernel
  have hbase : segmentBase storeAndLoopElf (phdrAt storeAndLoopElf 0)=resetPc := by decide +kernel
  have hload : IsLoad storeAndLoopElf (phdrAt storeAndLoopElf 0) := by decide +kernel
  have hsize : max (fieldAt storeAndLoopElf (phdrAt storeAndLoopElf 0) pFilesz).toNat
      (fieldAt storeAndLoopElf (phdrAt storeAndLoopElf 0) pMemsz).toNat=12 := by decide +kernel
  have hcovers : Covers storeAndLoopElf (phdrAt storeAndLoopElf 0) a ↔ (a-resetPc).toNat < 12 := by
    unfold Covers
    rw [hbase,hsize]
    exact and_iff_right hload
  rw [hcount,image]
  dsimp only
  unfold storeAndLoop FenceOrder.loadSegment
  by_cases hin : (a-resetPc).toNat < 12
  · rw [if_pos (hcovers.mpr hin)]
    unfold segmentByte
    rw [hbase]
    generalize a-resetPc=d at hin
    have hd : d=BitVec.ofNat 64 d.toNat := (BitVec.ofNat_toNat 64 d).symm
    generalize d.toNat=k at hin hd
    subst hd
    interval_cases k <;> decide +kernel
  · rw [if_neg fun h => hin (hcovers.mp h)]
    rw [List.getD_eq_getElem?_getD,List.getElem?_eq_none (Nat.le_of_not_lt hin)]
    rfl

/-- Its symbols are found. -/
theorem storeAndLoopElf_symbols :
    loadSymbols storeAndLoopElf {}=.ok ⟨0x100,0x108,0x100⟩ := by decide +kernel

/-- It is loaded. -/
theorem storeAndLoopElf_loads :
    loadElf64 storeAndLoopElf (fun _ => 0) {}=.ok (storeAndLoop,⟨0x100,0x108,0x100⟩) := by
  have hident : checkIdent storeAndLoopElf=.ok () := by decide +kernel
  have hsegments := storeAndLoopElf_wellFormed.loadSegments_ok
  rw [image_storeAndLoop] at hsegments
  unfold loadElf64
  rw [if_neg (by decide +kernel),if_neg (by decide +kernel),hident,hsegments,storeAndLoopElf_symbols]
  rfl

/-- Every path holds that file, and every path can be written. -/
def storeAndLoopWorld : World := ⟨fun _ => some storeAndLoopElf,fun _ => true,coreReset⟩

/-- A run on that file starts. -/
theorem storeAndLoop_starts {path : String} (hpath : path≠"") :
    Starts storeAndLoopWorld (runnerArgs path 1000 "add.signature")
      ⟨1000,path,"add.signature",false⟩ storeAndLoop ⟨0x100,0x108,0x100⟩ :=
  ⟨parseArgs_runnerArgs path "add.signature" 1000,rfl,hpath,storeAndLoopElf,rfl,
    storeAndLoopElf_loads⟩

/-- Before its second instruction the result word is clear, behind it one. -/
theorem first_isaVerdict : First (runVerdict (isaMemory storeAndLoop) 0x100) 2 true := by
  refine ⟨?_,fun m hm => ?_⟩
  · unfold runVerdict isaMemory
    rw [isaRun_storeAndLoop 0]
    decide +kernel
  · interval_cases m
    · decide +kernel
    · obtain ⟨s,hs,-,hmemory,-⟩ := isaRun_loop_start
      unfold runVerdict isaMemory
      rw [hs]
      change wordVerdict (status 0x100 s.memory)=none
      rw [hmemory]
      decide +kernel

/-- Behind it the memory holds that one. -/
theorem isaMemory_loop : isaMemory storeAndLoop 2=some loopState.memory :=
  congrArg (Option.map IsaState.memory) (isaRun_storeAndLoop 0)

/-- It passes, with the doubleword of its signature. -/
theorem storeAndLoop_ends {path : String} (hpath : path≠"") :
    Ends storeAndLoopWorld (runnerArgs path 1000 "add.signature")
      (.exit 0 (some "0000000000000001\n".toList)) := by
  have hends : IsaEnds storeAndLoop 0x100 1000 (some true) loopState.memory :=
    ⟨1,by decide +kernel,first_isaVerdict,isaMemory_loop⟩
  obtain ⟨top,hloop,hmemory⟩ := (testLoop_isa storeAndLoop_program ⟨by decide,by decide⟩
    (by decide +kernel) 1000 _ _).mpr hends
  refine (ends_iff (storeAndLoop_starts hpath) _).mpr
    ⟨some true,top,some _,hloop,⟨?_,rfl,2,?_⟩,rfl⟩
  · change "add.signature"≠""
    decide
  · rw [hmemory]
    decide +kernel

end StoreAndLoop

/-- For every file that is loaded, whatever its program does, with a result
word away from the ends of the address space that holds no result at first:
the runner exits with 0 for a one and 1 for a three that is the first result
in the word after some tick within the limit, and with 3 when there is none;
and its signature is that of the memory at that tick, or at the limit. -/
theorem runner_ends_first (world : World) (args : List String) (opts : Options)
    (memory : ByteMemory) (symbols : Symbols) (h : Starts world args opts memory symbols)
    (hplaced : Placed symbols.tohost)
    (hstart : wordVerdict (status symbols.tohost memory)=none) (ending : Ending) :
    Ends world args ending ↔
      ∃ verdict top signature,
        TickEnds memory symbols.tohost opts.maxCycles.toNat verdict top ∧
        Leaves world opts.signaturePath symbols top.memory signature ∧
        ending=.exit (returnCode verdict) signature := by
  rw [ends_iff h]
  simp only [testLoop_first memory symbols.tohost hplaced hstart]

/-- The program passes after four ticks. -/
theorem runner_ends_storeAndLoop :
    Ends storeAndLoopWorld (runnerArgs "add.elf" 1000 "add.signature")
      (.exit 0 (some "0000000000000001\n".toList)) := by
  have hfirst : First (tickVerdict storeAndLoop 0x100) 4 true := by
    refine ⟨by decide +kernel,fun m hm => ?_⟩
    interval_cases m <;> decide +kernel
  refine (runner_ends_first _ _ _ _ _ (storeAndLoop_starts (by decide))
    ⟨by decide,by decide⟩
    (by decide +kernel) _).mpr ⟨some true,_,some _,⟨4,by decide,hfirst,rfl⟩,⟨by decide,rfl,2,?_⟩,rfl⟩
  decide +kernel

/-- For every file that is loaded, with a program of the base instruction set
that runs for ever and leaves its code alone, and a result word as above: the
runner exits with the verdict of the reference machine, and its signature is
that of the reference machine's memory behind the instruction that brings the
result, or behind all instructions issued within the limit. -/
theorem runner_ends_isa (world : World) (args : List String) (opts : Options)
    (memory : ByteMemory) (symbols : Symbols) (h : Starts world args opts memory symbols)
    (code : Word → Prop) (hprogram : Program memory code) (hplaced : Placed symbols.tohost)
    (hstart : wordVerdict (status symbols.tohost memory)=none) (ending : Ending) :
    Ends world args ending ↔
      ∃ verdict left signature,
        IsaEnds memory symbols.tohost opts.maxCycles.toNat verdict left ∧
        Leaves world opts.signaturePath symbols left signature ∧
        ending=.exit (returnCode verdict) signature :=
  ends_reference h (testLoop_isa hprogram hplaced hstart _) ending

/-- The same pass is the reference machine's. -/
theorem runner_ends_storeAndLoop_isa :
    Ends storeAndLoopWorld (runnerArgs "add.elf" 1000 "add.signature")
      (.exit 0 (some "0000000000000001\n".toList)) := by
  refine (runner_ends_isa _ _ _ _ _ (storeAndLoop_starts (by decide)) storeAndLoopCode
    storeAndLoop_program
    ⟨by decide,by decide⟩ (by decide +kernel) _).mpr ⟨some true,_,some _,
      ⟨1,by decide +kernel,first_isaVerdict,isaMemory_loop⟩,
      ⟨by decide,rfl,2,?_⟩,rfl⟩
  decide +kernel

section Suite

/-- Path of a discovered file. -/
def elfPath (elf : Elf) : String := elf.parent++"/"++elf.stem++".elf"

/-- What the suite sees of an ended run. Where the runner writes no signature
a file from before stays; an exception aborts the process by signal 6. -/
def Leads (earlier : Option String) : Ending → Run → Prop
  | .exit code none,run => run=⟨code,earlier⟩
  | .exit code (some text),run => run=⟨code,some (String.ofList text)⟩
  | .exception _,run => run=⟨-6,earlier⟩
  | .outside _,_ => True

/-- In a successful suite every run passes. -/
theorem success_passes {suiteName : String} {prepare : Except String (List Elf)} {maxTests : ℤ}
    {requireReference : Bool} {tree : WorkTree} {runs : Elf → Run} {report : Report}
    (h : runSuite suiteName prepare maxTests requireReference tree runs=.ok report)
    (hsuccess : report.success=true) :
    ∀ elf∈report.ran,(classify requireReference tree elf (runs elf)).passes=true := by
  unfold runSuite at h
  by_cases hname : suiteName∈suites
  · rw [if_neg (not_not.mpr hname)] at h
    cases prepare with
    | error message => cases h
    | ok discovered =>
      dsimp only at h
      split_ifs at h
      · cases h
        cases hsuccess
      · cases h
        exact suiteLoop_success requireReference tree runs _ (beq_iff_eq.mp hsuccess)
  · rw [if_pos hname] at h
    cases h
    cases hsuccess

/-- A path below a directory is not empty. -/
theorem elfPath_ne (elf : Elf) : elfPath elf≠"" := by
  intro h
  have hchars := congrArg String.toList h
  unfold elfPath at hchars
  simp only [String.toList_append,List.append_assoc] at hchars
  have hslash := List.append_eq_nil_iff.mp (List.append_eq_nil_iff.mp hchars).2
  exact absurd hslash.1 (by decide)

/-- A limit that is no 64-bit number ends the runner with an exception. -/
theorem ends_outOfRange {world : World} {elf signature : String} {limit : ℤ}
    (h : ¬limit.natAbs < 2^64) {ending : Ending}
    (hends : Ends world (runnerArgs elf limit signature) ending) :
    ending=.exception .outOfRange := by
  obtain ⟨fuel,hmain⟩ := hends
  unfold main at hmain
  rw [parseArgs_runnerArgs,if_neg h] at hmain
  exact (Option.some.inj hmain).symm

/-- A successful suite, for any of its files that is loaded, with a signature
that can be written, when its test loop ends as a reference does: the cycle
limit is a 64-bit number, and the reference does not fail; its memory leaves
a signature, which is the reference signature if there is one, and there is
one if one is required. -/
theorem passes_reference {suiteName : String} {prepare : Except String (List Elf)} {maxTests : ℤ}
    {requireReference : Bool} {tree : WorkTree} {runs : Elf → Run} {report : Report}
    (hsuite : runSuite suiteName prepare maxTests requireReference tree runs=.ok report)
    (hsuccess : report.success=true) {world : World} {limit : ℤ} {signaturePath : Elf → String}
    {earlier : Elf → Option String}
    (hruns : ∀ elf∈report.ran,∃ ending,
      Ends world (runnerArgs (elfPath elf) limit (signaturePath elf)) ending ∧
        Leads (earlier elf) ending (runs elf))
    {elf : Elf} (helf : elf∈report.ran) {file : ByteString} {memory : ByteMemory}
    {symbols : Symbols} (hread : world.read (elfPath elf)=some file)
    (hload : loadElf64 file (fun _ => 0) {}=.ok (memory,symbols))
    (hpath : signaturePath elf≠"") (hcreates : world.creates (signaturePath elf)=true)
    {EndsWith : ℕ → Option Bool → ByteMemory → Prop}
    (hloop : ∀ maxCycles verdict left,
      (∃ top,testLoop symbols.tohost maxCycles ⟨coreReset,memory⟩=(verdict,top) ∧
        top.memory=left) ↔ EndsWith maxCycles verdict left) :
    limit.natAbs < 2^64 ∧ ∃ verdict left text,
      EndsWith (BitVec.ofInt 64 limit).toNat verdict left ∧
      verdict≠some false ∧ Writes left symbols text ∧
      (findReferenceSignature tree elf=none → requireReference=false) ∧
      ∀ reference,findReferenceSignature tree elf=some reference →
        tree.readText reference=String.ofList text := by
  have hpasses := success_passes hsuite hsuccess elf helf
  obtain ⟨text,hsignature,hcode,hnone,hsome⟩ :=
    (classify_passes_iff requireReference tree elf _).mp hpasses
  obtain ⟨ending,hends,hleads⟩ := hruns elf helf
  by_cases hlimit : limit.natAbs < 2^64
  · have hstarts : Starts world (runnerArgs (elfPath elf) limit (signaturePath elf))
        ⟨BitVec.ofInt 64 limit,elfPath elf,signaturePath elf,false⟩ memory symbols := by
      refine ⟨?_,rfl,elfPath_ne elf,file,hread,hload⟩
      rw [parseArgs_runnerArgs,if_pos hlimit]
    obtain ⟨verdict,left,signature,hreference,hleaves,rfl⟩ :=
      (ends_reference hstarts (hloop _) ending).mp hends
    cases signature with
    | none =>
      obtain hempty | hno := hleaves
      · exact absurd hempty hpath
      · rw [hcreates] at hno
        cases hno
    | some written =>
      have hrun : runs elf=⟨returnCode verdict,some (String.ofList written)⟩ := hleads
      rw [hrun] at hsignature hcode
      refine ⟨hlimit,verdict,left,written,hreference,?_,hleaves.2.2,hnone,
        fun reference href => ?_⟩
      · rintro rfl
        change (1 : ℤ)=0 ∨ (1 : ℤ)=3 at hcode
        exact absurd hcode (by decide)
      · rw [←hsome reference href]
        exact (Option.some.inj hsignature).symm
  · obtain rfl := ends_outOfRange hlimit hends
    have hrun : runs elf=⟨-6,earlier elf⟩ := hleads
    rw [hrun] at hcode
    change (-6 : ℤ)=0 ∨ (-6 : ℤ)=3 at hcode
    exact absurd hcode (by decide)

/-- A successful suite, for any of its files that holds a program of the base
instruction set as above and whose signature can be written: the cycle limit
is a 64-bit number, and the reference machine does not fail the program. It
passes within the limit or brings no result there; its memory leaves a
signature, which is the reference signature if there is one, and there is one
if one is required. -/
theorem suite_passes_isa (suiteName : String) (prepare : Except String (List Elf)) (maxTests : ℤ)
    (requireReference : Bool) (tree : WorkTree) (runs : Elf → Run) (report : Report)
    (hsuite : runSuite suiteName prepare maxTests requireReference tree runs=.ok report)
    (hsuccess : report.success=true) (world : World) (limit : ℤ) (signaturePath : Elf → String)
    (earlier : Elf → Option String)
    (hruns : ∀ elf∈report.ran,∃ ending,
      Ends world (runnerArgs (elfPath elf) limit (signaturePath elf)) ending ∧
        Leads (earlier elf) ending (runs elf))
    (elf : Elf) (helf : elf∈report.ran) (file : ByteString) (memory : ByteMemory)
    (symbols : Symbols) (hread : world.read (elfPath elf)=some file)
    (hload : loadElf64 file (fun _ => 0) {}=.ok (memory,symbols))
    (hpath : signaturePath elf≠"") (hcreates : world.creates (signaturePath elf)=true)
    (code : Word → Prop) (hprogram : Program memory code) (hplaced : Placed symbols.tohost)
    (hstart : wordVerdict (status symbols.tohost memory)=none) :
    limit.natAbs < 2^64 ∧ ∃ verdict left text,
      IsaEnds memory symbols.tohost (BitVec.ofInt 64 limit).toNat verdict left ∧
      verdict≠some false ∧ Writes left symbols text ∧
      (findReferenceSignature tree elf=none → requireReference=false) ∧
      ∀ reference,findReferenceSignature tree elf=some reference →
        tree.readText reference=String.ofList text :=
  passes_reference hsuite hsuccess hruns helf hread hload hpath hcreates
    fun maxCycles => testLoop_isa hprogram hplaced hstart maxCycles

end Suite

/-- A suite of that program passes with its reference. -/
theorem suite_passes_storeAndLoop :
    (1000 : ℤ).natAbs < 2^64 ∧ ∃ verdict left text,
      IsaEnds storeAndLoop 0x100 1000 verdict left ∧ verdict≠some false ∧
      Writes left ⟨0x100,0x108,0x100⟩ text ∧
      (findReferenceSignature referenceTree ⟨"elfs","add"⟩=none → true=false) ∧
      ∀ reference,findReferenceSignature referenceTree ⟨"elfs","add"⟩=some reference →
        referenceTree.readText reference=String.ofList text := by
  refine suite_passes_isa "rv64i" (.ok [⟨"elfs","add"⟩]) 0 true referenceTree
    (fun _ => ⟨0,some "0000000000000001\n"⟩) ⟨true,[⟨"elfs","add"⟩],⟨1,0,0⟩⟩ (by decide) rfl
    storeAndLoopWorld 1000 (fun _ => "add.signature") (fun _ => none) ?_ ⟨"elfs","add"⟩
    (List.mem_singleton_self _) storeAndLoopElf storeAndLoop ⟨0x100,0x108,0x100⟩ rfl
    storeAndLoopElf_loads (by decide) rfl storeAndLoopCode storeAndLoop_program
    ⟨by decide,by decide⟩ (by decide +kernel)
  intro elf helf
  exact ⟨_,storeAndLoop_ends (elfPath_ne elf),rfl⟩

end RichardCore.RunnerMain
