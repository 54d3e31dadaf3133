import Mathlib.Data.Int.Basic

/-!
# Verdicts of a compliance suite

The suite runs every discovered file, classifies the run by its signature, its
return code and the reference signature found for it, and passes when nothing
failed. Python's file tests, globbing and decoding are parameters; what a run
leaves behind is its return code and the text at its signature path.
-/

namespace RichardCore.ComplianceSuite

/-- A discovered file, by its directory and its name without `.elf`. -/
structure Elf where
  /-- Directory of the file. -/
  parent : String
  /-- Name without the suffix. -/
  stem : String
  deriving DecidableEq, Repr

/-- What one run of the runner leaves. A crash is a code of its own. -/
structure Run where
  /-- Return code of the process. -/
  returncode : ℤ
  /-- Text at the signature path after the run, if there is a file. -/
  signature : Option String
  deriving DecidableEq, Repr

/-- The run reported success by its result word. -/
def tohostPass : ℤ := 0

/-- The run reached its cycle limit without a result. -/
def noTohost : ℤ := 3

/-- Files the suite looks for references in. -/
structure WorkTree where
  /-- A path exists. -/
  present : String → Bool
  /-- Sorted paths below the working directory whose name is the pattern. -/
  rglob : String → List String
  /-- Decoded text of a file. -/
  readText : String → String

/-- Places next to a file where its reference may be, in order. -/
def candidates (elf : Elf) : List String :=
  [elf.parent++"/"++elf.stem++".signature",
    elf.parent++"/"++elf.stem++".reference_output",
    elf.parent++"/"++elf.stem++".ref",
    elf.parent++"/signatures/"++elf.stem++".signature"]

/-- The reference of a file: the first candidate that exists, else the first
raw signature below the working directory, else the first result file. -/
def findReferenceSignature (tree : WorkTree) (elf : Elf) : Option String :=
  match (candidates elf).find? tree.present with
  | some candidate => some candidate
  | none =>
    match tree.rglob (elf.stem++".sig") with
    | sig::_ => some sig
    | [] =>
      match tree.rglob (elf.stem++".results") with
      | result::_ => some result
      | [] => none

/-- How the loop classifies one run. -/
inductive Verdict where
  /-- No file at the signature path. -/
  | noSignature
  /-- A return code other than success and the cycle limit. -/
  | runnerExit (code : ℤ)
  /-- No reference where one is required. -/
  | noReference
  /-- No reference and none required. -/
  | unreferenced
  /-- The signature is the reference. -/
  | matching
  /-- The signature is not the reference. -/
  | mismatch (reference : String)
  deriving DecidableEq, Repr

/-- The line printed for a failed run. -/
def Verdict.message (verbose : Bool) (rel : String) : Verdict → Option String
  | noSignature => some ("FAIL "++rel++" (signature not generated)")
  | runnerExit code =>
    if verbose then none else some ("FAIL "++rel++" (runner exit="++toString code++")")
  | noReference => some ("FAIL "++rel++" (no reference signature found)")
  | unreferenced => none
  | matching => none
  | mismatch reference => some ("FAIL "++rel++" (signature mismatch against "++reference++")")

/-- The branches of the classification loop. -/
def classify (requireReference : Bool) (tree : WorkTree) (elf : Elf) (run : Run) : Verdict :=
  match run.signature with
  | none => .noSignature
  | some text =>
    if run.returncode∉[tohostPass,noTohost] then .runnerExit run.returncode
    else
      match findReferenceSignature tree elf with
      | none => if requireReference then .noReference else .unreferenced
      | some reference =>
        if text=tree.readText reference then .matching else .mismatch reference

/-- Counters of the loop. -/
structure Tally where
  /-- Runs counted as passed. -/
  passed : ℕ := 0
  /-- Runs counted as failed. -/
  failed : ℕ := 0
  /-- Runs without a reference. -/
  noReference : ℕ := 0
  deriving DecidableEq, Repr

/-- Count one run. -/
def Tally.record (tally : Tally) : Verdict → Tally
  | .noSignature => {tally with failed := tally.failed+1}
  | .runnerExit _ => {tally with failed := tally.failed+1}
  | .noReference =>
    {tally with noReference := tally.noReference+1,failed := tally.failed+1}
  | .unreferenced =>
    {tally with noReference := tally.noReference+1,passed := tally.passed+1}
  | .matching => {tally with passed := tally.passed+1}
  | .mismatch _ => {tally with failed := tally.failed+1}

/-- The loop over the files. -/
def suiteLoop (requireReference : Bool) (tree : WorkTree) (runs : Elf → Run) (elfs : List Elf) :
    Tally :=
  elfs.foldl (fun tally elf => tally.record (classify requireReference tree elf (runs elf))) {}

/-- Names of the suites. -/
def suites : List String :=
  ["rv64i","rv64im","rv64ia","rv64if","rv64id","rv64ic","rv64priv","rv64g","rv64full"]

/-- The files to run: all, or the first `maxTests` for a positive limit. -/
def limitTests (maxTests : ℤ) (elfs : List Elf) : List Elf :=
  if 0 < maxTests then elfs.take maxTests.toNat else elfs

/-- What a suite returns, with the files it ran and the counters it prints. -/
structure Report where
  /-- Returned value. -/
  success : Bool
  /-- Files run. -/
  ran : List Elf := []
  /-- Counters. -/
  tally : Tally := {}
  deriving DecidableEq, Repr

/-- A whole suite. Finding the checkout, the configuration and the runner and
generating the files either raise an error or leave the discovered files. -/
def runSuite (suiteName : String) (prepare : Except String (List Elf)) (maxTests : ℤ)
    (requireReference : Bool) (tree : WorkTree) (runs : Elf → Run) : Except String Report :=
  if suiteName∉suites then .ok {success := false}
  else
    match prepare with
    | .error message => .error message
    | .ok discovered =>
      let elfs := limitTests maxTests discovered
      if elfs=[] then .ok {success := false}
      else
        let tally := suiteLoop requireReference tree runs elfs
        .ok {success := tally.failed==0,ran := elfs,tally := tally}

/-- Exit code of the script: an error counts as failure. -/
def exitCode : Except String Report → ℕ
  | .ok report => if report.success then 0 else 1
  | .error _ => 1

/-- A verdict counted as passed. -/
def Verdict.passes : Verdict → Bool
  | unreferenced => true
  | matching => true
  | _ => false

/-- A run with evidence: its own result, or a reference its signature equals. -/
def Evidence (tree : WorkTree) (elf : Elf) (run : Run) : Prop :=
  run.returncode=tohostPass ∨ ∃ text reference,run.signature=some text ∧
    findReferenceSignature tree elf=some reference ∧ text=tree.readText reference

/-- A run that reached its limit and has no reference. -/
def TimedOutUnreferenced (tree : WorkTree) (elf : Elf) (run : Run) : Prop :=
  run.returncode=noTohost ∧ findReferenceSignature tree elf=none

section Loop

variable (requireReference : Bool) (tree : WorkTree)

/-- One run is counted once, on the side of its verdict. -/
theorem record_counts (tally : Tally) (verdict : Verdict) :
    (tally.record verdict).passed=tally.passed+(if verdict.passes then 1 else 0) ∧
      (tally.record verdict).failed=tally.failed+(if verdict.passes then 0 else 1) := by
  cases verdict <;> exact ⟨rfl,rfl⟩

/-- The loop counts the runs that pass. -/
theorem foldl_passed (runs : Elf → Run) (elfs : List Elf) (tally : Tally) :
    (elfs.foldl (fun tally elf => tally.record (classify requireReference tree elf (runs elf)))
      tally).passed=tally.passed+
        elfs.countP (fun elf => (classify requireReference tree elf (runs elf)).passes) := by
  induction elfs generalizing tally with
  | nil => rfl
  | cons elf rest ih =>
    rw [List.foldl_cons,ih,List.countP_cons,(record_counts tally _).1]
    omega

/-- The loop counts every run once. -/
theorem foldl_total (runs : Elf → Run) (elfs : List Elf) (tally : Tally) :
    (elfs.foldl (fun tally elf => tally.record (classify requireReference tree elf (runs elf)))
      tally).passed+
    (elfs.foldl (fun tally elf => tally.record (classify requireReference tree elf (runs elf)))
      tally).failed=tally.passed+tally.failed+elfs.length := by
  induction elfs generalizing tally with
  | nil => rfl
  | cons elf rest ih =>
    have hone : (tally.record (classify requireReference tree elf (runs elf))).passed+
        (tally.record (classify requireReference tree elf (runs elf))).failed=
        tally.passed+tally.failed+1 := by
      rw [(record_counts tally _).1,(record_counts tally _).2]
      split <;> omega
    rw [List.foldl_cons,ih,hone,List.length_cons]
    omega

/-- The runs counted as passed, by what they leave and what is found. -/
theorem classify_passes_iff (elf : Elf) (run : Run) :
    (classify requireReference tree elf run).passes=true ↔
      ∃ text,run.signature=some text ∧
        (run.returncode=tohostPass ∨ run.returncode=noTohost) ∧
        (findReferenceSignature tree elf=none → requireReference=false) ∧
        ∀ reference,findReferenceSignature tree elf=some reference →
          text=tree.readText reference := by
  have hcodes : run.returncode∉[tohostPass,noTohost] ↔
      ¬(run.returncode=tohostPass ∨ run.returncode=noTohost) := by simp
  unfold classify
  cases hsignature : run.signature with
  | none => simp [Verdict.passes]
  | some text =>
    dsimp only
    by_cases hgood : run.returncode=tohostPass ∨ run.returncode=noTohost
    · rw [if_neg (not_not.mpr hgood ∘ hcodes.mp)]
      cases hfind : findReferenceSignature tree elf with
      | none => cases requireReference <;> simp [Verdict.passes,hgood]
      | some reference =>
        by_cases htext : text=tree.readText reference <;> simp [Verdict.passes,hgood,htext]
    · rw [if_pos (hcodes.mpr hgood)]
      simp [Verdict.passes,hgood]

/-- A run counted as passed has evidence, or timed out without a reference
where none is required. -/
theorem passes_evidence (elf : Elf) (run : Run)
    (h : (classify requireReference tree elf run).passes=true) :
    Evidence tree elf run ∨ requireReference=false ∧ TimedOutUnreferenced tree elf run := by
  obtain ⟨text,hsignature,hcode,hnone,hsome⟩ :=
    (classify_passes_iff requireReference tree elf run).mp h
  rcases hcode with hpass|htimeout
  · exact Or.inl (Or.inl hpass)
  · cases hfind : findReferenceSignature tree elf with
    | none => exact Or.inr ⟨hnone hfind,htimeout,hfind⟩
    | some reference =>
      exact Or.inl (Or.inr ⟨text,reference,hsignature,hfind,hsome reference hfind⟩)

/-- Without failures every run passes. -/
theorem suiteLoop_success (runs : Elf → Run) (elfs : List Elf)
    (h : (suiteLoop requireReference tree runs elfs).failed=0) :
    ∀ elf∈elfs,(classify requireReference tree elf (runs elf)).passes=true := by
  have hpassed := foldl_passed requireReference tree runs elfs {}
  have htotal := foldl_total requireReference tree runs elfs {}
  unfold suiteLoop at h
  rw [h,hpassed] at htotal
  apply List.countP_eq_length.mp
  simpa using htotal

end Loop

/-- What a report promises about the files it covers, apart from exempted
ones. -/
structure SuiteSound (prepare : Except String (List Elf)) (maxTests : ℤ) (requireReference : Bool)
    (tree : WorkTree) (runs : Elf → Run) (exempt : Elf → Prop) (report : Report) : Prop where
  /-- Success covers all discovered files up to the limit. -/
  covers : report.success=true → ∃ discovered,prepare=.ok discovered ∧
    report.ran=limitTests maxTests discovered
  /-- Success rests on evidence for each of them. -/
  evidence : report.success=true → ∀ elf∈report.ran,Evidence tree elf (runs elf) ∨ exempt elf
  /-- The passed counter counts the runs whose verdict passes. -/
  counted : report.tally.passed=
    report.ran.countP (fun elf => (classify requireReference tree elf (runs elf)).passes)
  /-- Failed, crashed and unloaded runs and runs without a signature never
  pass, nor do unexempted runs that time out without a reference. -/
  refused : ∀ elf,(classify requireReference tree elf (runs elf)).passes=true →
    (runs elf).signature≠none ∧
      ((runs elf).returncode=tohostPass ∨ (runs elf).returncode=noTohost) ∧
      (TimedOutUnreferenced tree elf (runs elf) → exempt elf)
  /-- Every file is counted once. -/
  total : report.tally.passed+report.tally.failed=report.ran.length

/-- A suite passes only on evidence, but for runs that time out where no
reference is found and none is required. -/
theorem runSuite_sound (suiteName : String) (prepare : Except String (List Elf)) (maxTests : ℤ)
    (requireReference : Bool) (tree : WorkTree) (runs : Elf → Run) (report : Report)
    (h : runSuite suiteName prepare maxTests requireReference tree runs=.ok report) :
    SuiteSound prepare maxTests requireReference tree runs
      (fun elf => requireReference=false ∧ TimedOutUnreferenced tree elf (runs elf)) report := by
  have hrefused : ∀ elf,(classify requireReference tree elf (runs elf)).passes=true →
      (runs elf).signature≠none ∧
        ((runs elf).returncode=tohostPass ∨ (runs elf).returncode=noTohost) ∧
        (TimedOutUnreferenced tree elf (runs elf) →
          requireReference=false ∧ TimedOutUnreferenced tree elf (runs elf)) := by
    intro elf hpasses
    obtain ⟨text,hsignature,hcode,hnone,-⟩ := (classify_passes_iff _ _ _ _).mp hpasses
    refine ⟨?_,hcode,fun htimeout => ⟨hnone htimeout.2,htimeout⟩⟩
    rw [hsignature]
    exact Option.some_ne_none text
  -- A suite that ends before its loop reports failure and counts nothing.
  have hearly : SuiteSound prepare maxTests requireReference tree runs
      (fun elf => requireReference=false ∧ TimedOutUnreferenced tree elf (runs elf))
      {success := false} :=
    ⟨fun hsuccess => (by cases hsuccess),fun hsuccess => (by cases hsuccess),rfl,hrefused,rfl⟩
  unfold runSuite at h
  by_cases hname : suiteName∈suites
  · rw [if_neg (not_not.mpr hname)] at h
    cases prepare with
    | error message => cases h
    | ok discovered =>
      dsimp only at h
      split_ifs at h with hempty
      · cases h
        exact hearly
      · cases h
        refine ⟨fun _ => ⟨discovered,rfl,rfl⟩,fun hsuccess elf helf => ?_,?_,hrefused,?_⟩
        · exact passes_evidence requireReference tree elf (runs elf)
            (suiteLoop_success requireReference tree runs _ (beq_iff_eq.mp hsuccess) elf helf)
        · exact (foldl_passed requireReference tree runs _ {}).trans (Nat.zero_add _)
        · exact (foldl_total requireReference tree runs _ {}).trans (Nat.zero_add _)
  · rw [if_pos hname] at h
    cases h
    exact hearly

/-- The script exits with zero exactly when the suite returned true. -/
theorem exitCode_eq_zero (result : Except String Report) :
    exitCode result=0 ↔ ∃ report,result=.ok report ∧ report.success=true := by
  rcases result with message|report
  · simp [exitCode]
  · cases hsuccess : report.success <;> simp [exitCode,hsuccess]

/-- A directory where a file has a reference next to it. -/
def referenceTree : WorkTree where
  present path := path=="elfs/add.ref"
  rglob _ := []
  readText _ := "0000000000000001\n"

/-- A run that times out passes with the signature of its reference. -/
theorem runSuite_matching :
    SuiteSound (.ok [⟨"elfs","add"⟩]) 0 true referenceTree (fun _ => ⟨3,some "0000000000000001\n"⟩)
      (fun elf => true=false ∧
        TimedOutUnreferenced referenceTree elf ⟨3,some "0000000000000001\n"⟩)
      ⟨true,[⟨"elfs","add"⟩],⟨1,0,0⟩⟩ :=
  runSuite_sound "rv64i" (.ok [⟨"elfs","add"⟩]) 0 true referenceTree
    (fun _ => ⟨3,some "0000000000000001\n"⟩) _ (by decide)

/-- A directory without references. -/
def emptyTree : WorkTree where
  present _ := false
  rglob _ := []
  readText _ := ""

/-- One file whose run times out passes a suite without required references. -/
theorem runSuite_timeout :
    ¬∀ (suiteName : String) (prepare : Except String (List Elf)) (maxTests : ℤ)
      (requireReference : Bool) (tree : WorkTree) (runs : Elf → Run) (report : Report),
      runSuite suiteName prepare maxTests requireReference tree runs=.ok report →
        SuiteSound prepare maxTests requireReference tree runs (fun _ => False) report := by
  intro h
  have hsound := h "rv64i" (.ok [⟨"elfs","loop"⟩]) 0 false emptyTree (fun _ => ⟨3,some ""⟩)
    ⟨true,[⟨"elfs","loop"⟩],⟨1,0,1⟩⟩ (by decide)
  have hnone : findReferenceSignature emptyTree ⟨"elfs","loop"⟩=none := by decide
  rcases hsound.evidence rfl ⟨"elfs","loop"⟩ (List.mem_singleton_self _) with hevidence|hexempt
  · rcases hevidence with hpass|⟨text,reference,-,hfind,-⟩
    · exact absurd hpass (by decide)
    · rw [hnone] at hfind
      cases hfind
  · exact hexempt

end RichardCore.ComplianceSuite
