import RichardCore.PrivBench
import RichardCore.RunnerMain

/-!
# Privileged programs in the compliance runner

The runner on a file whose program traps and returns: it exits with the
verdict of the reference of the privileged architecture and leaves the
signature of its memory, and so does a successful suite of such files. Every
base program is among them.
-/

namespace RichardCore.PrivRunner

open Packages DataMemory Decoder CheckedReads ElfLoader SignatureDump CommandLine ComplianceSuite
open Pipeline Clocked TestBench TohostLoop ElfImage ElfBounds RunnerMain Legality
open Isa IsaMachine IsaRefinement Encodings CsrTraps CsrStore PrivMachine PrivBench
open TrapRefinement TrapBench

/-- Memory of the reference before instruction `n`. -/
def privMemory (memory : ByteMemory) (n : ℕ) : Option ByteMemory :=
  (privRun memory n).map PrivState.memory

/-- How a run ends by the reference of the privileged architecture. -/
def PrivEnds (memory : ByteMemory) (tohost : Word) (maxCycles : ℕ) :
    Option Bool → ByteMemory → Prop :=
  RunEnds (issueAt (runnerBench.setup memory)) (privMemory memory) tohost maxCycles

/-- For every privileged program the loop ends as the reference does. -/
theorem testLoop_priv {memory : ByteMemory} {code : Word → Prop} (h : PrivProgram memory code)
    {tohost : Word} (hplaced : Placed tohost) (hstart : wordVerdict (status tohost memory)=none)
    (maxCycles : ℕ) (verdict : Option Bool) (left : ByteMemory) :
    (∃ top,testLoop tohost maxCycles ⟨coreReset,memory⟩=(verdict,top) ∧ top.memory=left) ↔
      PrivEnds memory tohost maxCycles verdict left := by
  refine testLoop_run (ex_keeps h.regular) (fun t => ?_) hplaced hstart maxCycles verdict left
  obtain ⟨s,hs,hsame⟩ := h.samePriv (begun (runnerBench.setup memory) t)
  rw [memory_now runner_idleReads h.regular h.stable t,hsame.memory]
  change (privRun memory (begun (runnerBench.setup memory) t)).map PrivState.memory=_
  rw [hs]
  rfl

section Base

/-- A base instruction is not a reserved word. -/
theorem encode_notReserved (i : Instr) (mode : PrivMode) :
    acceptsReserved (encode i) mode=false := by
  have hdisjoint := (decoder_partition (encode i) mode).2
  rwa [definedFields_encode,Bool.true_and] at hdisjoint

/-- It is executed at an aligned address. -/
theorem privStep_base {s : PrivState} {i : Instr} (hpc : s.pc.toNat%4=0)
    (hword : readU32 s.memory s.pc=encode i) : privStep s=some (s.base i) := by
  unfold privStep
  dsimp only
  rw [hword,encode_notReserved,if_neg (by simp [hpc]),decodeInstr_encode]

/-- It traps only on a misaligned access. -/
theorem leaves_base {s : PrivState} {i : Instr} (hword : readU32 s.memory s.pc=encode i) :
    s.leaves=!decide (Aligned i s.regs) := by
  unfold PrivState.leaves
  rw [hword,decodeInstr_encode]

variable {memory : ByteMemory} {code : Word → Prop} (h : Program memory code)

include h

/-- On a base program the two references go through the same states. -/
theorem privRun_base (n : ℕ) :
    ∃ s t,isaRun memory n=some s ∧ privRun memory n=some t ∧ s.pc=t.pc ∧ s.regs=t.regs ∧
      s.memory=t.memory := by
  induction n with
  | zero => exact ⟨_,_,rfl,rfl,rfl,rfl,rfl⟩
  | succ n ih =>
    obtain ⟨s,t,hs,ht,hpc,hregs,hmemory⟩ := ih
    obtain ⟨i,halign,hword,haligned,hnext⟩ := h.step hs
    have hfetched := h.fetch hs hs
    have hfetch : readU32 t.memory t.pc=encode i := by
      rw [←hmemory,←hpc,hfetched]
      exact hword
    have hstep : privStep t=some (t.base i) := privStep_base (hpc ▸ halign) hfetch
    refine ⟨s.execute i,t.base i,hnext,?_,?_⟩
    · rw [privRun,ht]
      exact hstep
    · unfold PrivState.base IsaState.execute
      rw [if_pos (hregs ▸ haligned)]
      dsimp only
      rw [hpc,hregs,hmemory]
      exact ⟨rfl,rfl,rfl⟩

/-- It stays in base instructions that do not trap. -/
theorem privRun_plain {n : ℕ} {t : PrivState} (ht : privRun memory n=some t) :
    t.leaves=false ∧ (∃ i,readU32 memory t.pc=encode i) ∧
      ∃ s,isaRun memory n=some s ∧ s.pc=t.pc ∧ s.memory=t.memory := by
  obtain ⟨s,t',hs,ht',hpc,hregs,hmemory⟩ := privRun_base h n
  obtain rfl := Option.some.inj (ht.symm.trans ht')
  obtain ⟨i,-,hword,haligned,-⟩ := h.step hs
  have hfetch : readU32 t.memory t.pc=encode i := by
    rw [←hmemory,←hpc,h.fetch hs hs]
    exact hword
  refine ⟨?_,⟨i,hpc ▸ hword⟩,s,hs,hpc,hmemory⟩
  rw [leaves_base hfetch,decide_eq_true (hregs ▸ haligned)]
  rfl

/-- Every base program is a privileged program. -/
theorem privProgram_of_base : PrivProgram memory code := by
  have hbase : ∀ n t,privRun memory n=some t → ∀ op addr source rd,
      readU32 memory t.pc≠encodeSys (.csr op addr source rd) := by
    intro n t ht op addr source rd hword
    obtain ⟨-,⟨i,hi⟩,-⟩ := privRun_plain h ht
    refine absurd ?_ (encode_opcode i)
    rw [←hi,hword]
    exact (iType_fields source rd op.code addr .system).1
  have hstays : ∀ n t,privRun memory n=some t → t.leaves≠true := by
    intro n t ht hleaves
    rw [(privRun_plain h ht).1] at hleaves
    cases hleaves
  refine ⟨fun n => ?_,fun n t ht k hk => ?_,fun n t ht hleaves => ?_,fun n t ht a ha => ?_,
    fun n t ht hleaves => ?_,fun n t ht op addr source rd hword => ?_,
    fun n t t' ht _ _ op addr source rd hword => ?_⟩
  · obtain ⟨-,t,-,ht,-⟩ := privRun_base h n
    rw [ht]
    rfl
  · obtain ⟨-,-,s,hs,hpc,-⟩ := privRun_plain h ht
    rw [←hpc]
    exact h.inside n s hs k hk
  · exact absurd hleaves (hstays n t ht)
  · obtain ⟨-,-,s,hs,-,hmemory⟩ := privRun_plain h ht
    rw [←hmemory]
    exact h.keeps n s hs a ha
  · exact absurd hleaves (hstays n t ht)
  · exact absurd hword (hbase n t ht op addr source rd)
  · exact absurd hword (hbase n t ht op addr source rd)

end Base

section CallAndStore

/-- `ecall` and two `nop` at the reset address. At address 0, where the call
leads, `addi x5,x0,1; sd x5,256(x0); jal x0,0`. -/
def callAndStore : ByteMemory := fun a =>
  if (a-resetPc).toNat < 12 then
    [0x73,0x00,0x00,0x00, 0x13,0x00,0x00,0x00, 0x13,0x00,0x00,0x00].getD (a-resetPc).toNat 0
  else if a.toNat < 12 then
    [0x93,0x02,0x10,0x00, 0x23,0x30,0x50,0x10, 0x6f,0x00,0x00,0x00].getD a.toNat 0
  else 0

/-- State at the reset address. -/
def callStart : PrivState := ⟨0x80000000,fun _ => 0,callAndStore,⟨storeReset,.m⟩⟩

/-- The handler before instruction `k`, and in the loop behind it. -/
structure Handling (k : ℕ) (s : PrivState) : Prop where
  /-- Address. -/
  pc : s.pc=BitVec.ofNat 64 (4*k)
  /-- Operand of the store. -/
  regs : k≠0 → reg s.regs 5=1
  /-- Memory. -/
  memory : s.memory=if k=2 then storeValue callAndStore 256 8 1 else callAndStore

/-- The call leads to the handler. -/
theorem callStart_step :
    privStep callStart=some (callStart.raise excEcallFromM 0) ∧
      Handling 0 (callStart.raise excEcallFromM 0) ∧ callStart.leaves=true := by
  have hword : readU32 callStart.memory callStart.pc=0x00000073 := by decide
  have hbase : decodeInstr 0x00000073=none := by decide
  have hsys : decodeSys 0x00000073=some (.priv .ecall) := by decide
  have hreserved : acceptsReserved 0x00000073 .m=false := by decide
  refine ⟨privStep_system hword rfl hreserved hbase hsys rfl,⟨?_,fun h => absurd rfl h,rfl⟩,?_⟩
  · change callStart.read .mtvec&&&~~~3#64=0
    have hzero : callStart.read .mtvec=0 := layout.read_eq fun j _ => BitVec.getLsbD_zero
    rw [hzero]
    decide
  · unfold PrivState.leaves
    rw [hword,hbase,hsys]
    rfl

/-- Its instructions. -/
def handlerInstr : ℕ → Instr
  | 0 => .opImm .addi 5 0 1
  | 1 => .store .sd 0 5 256
  | _ => .jal 0 0

/-- The handler goes on, and stays in its loop. -/
theorem handling_step {k : ℕ} (hk : k≤2) {s : PrivState} (h : Handling k s) :
    ∃ s',privStep s=some s' ∧ Handling (min (k+1) 2) s' ∧ s.leaves=false ∧
      readU32 callAndStore s.pc=encode (handlerInstr k) := by
  have haligned : s.pc.toNat%4=0 := by
    rw [h.pc]
    interval_cases k <;> rfl
  have hcode : readU32 callAndStore s.pc=encode (handlerInstr k) := by
    rw [h.pc]
    interval_cases k <;> decide
  have hword : readU32 s.memory s.pc=encode (handlerInstr k) := by
    rw [h.memory,h.pc]
    interval_cases k <;> decide +kernel
  have haccess : Aligned (handlerInstr k) s.regs := by
    interval_cases k
    · exact trivial
    · exact (by decide : (0+(256 : BitVec 12).signExtend 64 : Word).toNat%8=0)
    · exact trivial
  have hbase : s.base (handlerInstr k)=
      ⟨(isaOutcome (handlerInstr k) s.pc s.regs s.memory).nextPc,
        writeBack s.regs (isaOutcome (handlerInstr k) s.pc s.regs s.memory).write,
        (isaOutcome (handlerInstr k) s.pc s.regs s.memory).memory,
        ⟨tick s.csrs.store,s.csrs.mode⟩⟩ := if_pos haccess
  refine ⟨_,privStep_base haligned hword,?_,?_,hcode⟩
  · rw [hbase]
    obtain ⟨hpc,hregs,hmemory⟩ := h
    interval_cases k
    · refine ⟨?_,fun _ => rfl,hmemory⟩
      change s.pc+4=4
      rw [hpc]
      rfl
    · refine ⟨?_,fun _ => hregs (by decide),?_⟩
      · change s.pc+4=8
        rw [hpc]
        rfl
      · change storeValue s.memory (0+(256 : BitVec 12).signExtend 64) 8 (reg s.regs 5)=_
        rw [hregs (by decide),hmemory]
        rfl
    · refine ⟨?_,fun _ => ?_,hmemory⟩
      · change s.pc+jumpOffset 0=8
        rw [hpc]
        decide
      · exact hregs (by decide)
  · rw [leaves_base hword,decide_eq_true haccess]
    rfl

/-- Behind the call there is only the handler. -/
theorem privRun_callAndStore (n : ℕ) :
    ∃ s,privRun callAndStore (n+1)=some s ∧ Handling (min n 2) s := by
  induction n with
  | zero =>
    obtain ⟨hstep,hhandling,-⟩ := callStart_step
    exact ⟨_,hstep,hhandling⟩
  | succ n ih =>
    obtain ⟨s,hs,hhandling⟩ := ih
    obtain ⟨s',hstep,hnext,-⟩ := handling_step (Nat.min_le_right n 2) hhandling
    have hplace : min (min n 2+1) 2=min (n+1) 2 := by omega
    refine ⟨s',?_,hplace ▸ hnext⟩
    rw [privRun,hs]
    exact hstep

/-- The two code regions. -/
def callAndStoreCode (a : Word) : Prop := (a-resetPc).toNat < 12 ∨ a.toNat < 12

/-- The store leaves them alone. -/
theorem storeValue_code {a : Word} (ha : callAndStoreCode a) :
    storeValue callAndStore 256 8 1 a=callAndStore a := by
  refine if_neg ?_
  unfold callAndStoreCode at ha
  rw [BitVec.toNat_sub] at ha ⊢
  change (2^64-0x80000000+a.toNat)%2^64 < 12 ∨ a.toNat < 12 at ha
  change ¬(2^64-256+a.toNat)%2^64 < 8
  have hlt := a.isLt
  omega

/-- The pipeline can run the program. -/
theorem callAndStore_program : PrivProgram callAndStore callAndStoreCode := by
  -- the call once, then the handler
  have hstates : ∀ n s,privRun callAndStore n=some s →
      s=callStart ∨ ∃ k≤2,Handling k s := by
    intro n s hs
    cases n with
    | zero => exact .inl (Option.some.inj hs).symm
    | succ n =>
      obtain ⟨s',hs',hhandling⟩ := privRun_callAndStore n
      obtain rfl := Option.some.inj (hs.symm.trans hs')
      exact .inr ⟨_,Nat.min_le_right n 2,hhandling⟩
  have hnotCsr : ∀ n s,privRun callAndStore n=some s → ∀ op addr source rd,
      readU32 callAndStore s.pc≠encodeSys (.csr op addr source rd) := by
    intro n s hs op addr source rd hword
    obtain rfl | ⟨k,hk,hhandling⟩ := hstates n s hs
    · have hdecoded := (decodeSys_iff _ _).mpr hword.symm
      have hecall : decodeSys (readU32 callAndStore resetPc)=some (.priv .ecall) := by decide
      rw [show callStart.pc=resetPc from rfl,hecall] at hdecoded
      cases hdecoded
    · obtain ⟨-,-,-,-,hcode⟩ := handling_step hk hhandling
      refine absurd ?_ (encode_opcode (handlerInstr k))
      rw [←hcode,hword]
      exact (iType_fields source rd op.code addr .system).1
  have hcalls : ∀ n s,privRun callAndStore n=some s → s.leaves=true → s=callStart := by
    intro n s hs hleaves
    obtain hcall | ⟨k,hk,hhandling⟩ := hstates n s hs
    · exact hcall
    · obtain ⟨-,-,-,hstays,-⟩ := handling_step hk hhandling
      rw [hstays] at hleaves
      cases hleaves
  refine ⟨fun n => ?_,fun n s hs j hj => ?_,fun n s hs hleaves j hj => ?_,fun n s hs a ha => ?_,
    fun n s hs hleaves => ?_,fun n s hs op addr source rd hword => ?_,
    fun n s s' hs _ _ op addr source rd hword => ?_⟩
  · cases n with
    | zero => rfl
    | succ n =>
      obtain ⟨s,hs,-⟩ := privRun_callAndStore n
      rw [hs]
      rfl
  · unfold callAndStoreCode
    obtain rfl | ⟨k,hk,hhandling⟩ := hstates n s hs
    · interval_cases j <;> decide
    · rw [hhandling.pc]
      interval_cases k <;> interval_cases j <;> decide
  · obtain rfl := hcalls n s hs hleaves
    unfold callAndStoreCode
    interval_cases j <;> decide
  · obtain rfl | ⟨k,hk,hhandling⟩ := hstates n s hs
    · rfl
    · rw [hhandling.memory]
      split
      · exact storeValue_code ha
      · rfl
  · obtain rfl := hcalls n s hs hleaves
    have hwords : readU32 callAndStore (callStart.pc+4)=nopInstr ∧
        readU32 callAndStore (callStart.pc+4+4)=nopInstr := by decide
    rw [hwords.1,hwords.2]
    exact ⟨nop_harmless _,nop_harmless _⟩
  · exact absurd hword (hnotCsr n s hs op addr source rd)
  · exact absurd hword (hnotCsr n s hs op addr source rd)

/-- Behind the third instruction the memory holds the one. -/
theorem privMemory_callAndStore :
    privMemory callAndStore 3=some (storeValue callAndStore 256 8 1) := by
  obtain ⟨s,hs,hhandling⟩ := privRun_callAndStore 2
  unfold privMemory
  rw [hs]
  exact congrArg some hhandling.memory

/-- Before that the result word is clear. -/
theorem first_privVerdict : First (runVerdict (privMemory callAndStore) 0x100) 3 true := by
  refine ⟨?_,fun m hm => ?_⟩
  · unfold runVerdict
    rw [privMemory_callAndStore]
    decide +kernel
  · have hclear : wordVerdict (status 0x100 callAndStore)=none := by decide +kernel
    have hmemory : privMemory callAndStore m=some callAndStore := by
      cases m with
      | zero => rfl
      | succ n =>
        obtain ⟨s,hs,hhandling⟩ := privRun_callAndStore n
        unfold privMemory
        rw [hs]
        exact congrArg some (hhandling.memory.trans (if_neg (by omega)))
    unfold runVerdict
    rw [hmemory]
    exact hclear

/-- File of the program, with a segment for the handler and one for the call,
and the result word and a signature of one doubleword at address 256. -/
def callAndStoreElf : ByteString where
  bytes := [0x7F,0x45,0x4C,0x46,2,1,1,0]++numberBytes 24 0++numberBytes 8 64++numberBytes 8 309++
    numberBytes 6 0++numberBytes 2 56++numberBytes 2 2++numberBytes 2 64++numberBytes 2 2++
    numberBytes 2 0++programHeader 1 176 0 0 12 12++
    programHeader 1 188 0x80000000 0x80000000 12 12++
    [0x93,0x02,0x10,0x00, 0x23,0x30,0x50,0x10, 0x6f,0x00,0x00,0x00]++
    [0x73,0x00,0x00,0x00, 0x13,0x00,0x00,0x00, 0x13,0x00,0x00,0x00]++
    symbolEntry 0 0x100++symbolEntry 7 0x100++symbolEntry 23 0x108++
    asciiBytes "tohost"++[0]++asciiBytes "begin_signature"++[0]++asciiBytes "end_signature"++[0]++
    sectionHeader 2 200 72 1 24++sectionHeader 3 272 37 0 0
  size_lt := by decide +kernel

/-- Its sections lie in it. -/
theorem callAndStoreElf_sections : SectionsInFile callAndStoreElf where
  entry := by decide +kernel
  table := by decide +kernel
  symtabs i hi htype hentsize := by
    change i<2 at hi
    interval_cases i
    · refine ⟨by decide +kernel,by decide +kernel,fun _ => ⟨by decide +kernel,by decide +kernel⟩⟩
    · exact absurd htype (by decide +kernel)

/-- It is well formed. -/
theorem callAndStoreElf_wellFormed : WellFormed callAndStoreElf where
  header := by decide +kernel
  ident := by decide +kernel
  entry := by decide +kernel
  table := by decide +kernel
  segments := by decide +kernel
  sections := Or.inr (Or.inr callAndStoreElf_sections)

/-- Its two segments have twelve bytes each. -/
theorem covers_callAndStore (a : Word) :
    (Covers callAndStoreElf (phdrAt callAndStoreElf 0) a ↔ a.toNat < 12) ∧
      (Covers callAndStoreElf (phdrAt callAndStoreElf 1) a ↔ (a-resetPc).toNat < 12) := by
  have hload : ∀ i < 2,IsLoad callAndStoreElf (phdrAt callAndStoreElf i) := by decide +kernel
  have hsize : ∀ i < 2,max (fieldAt callAndStoreElf (phdrAt callAndStoreElf i) pFilesz).toNat
      (fieldAt callAndStoreElf (phdrAt callAndStoreElf i) pMemsz).toNat=12 := by decide +kernel
  have hlow : segmentBase callAndStoreElf (phdrAt callAndStoreElf 0)=0 := by decide +kernel
  have hhigh : segmentBase callAndStoreElf (phdrAt callAndStoreElf 1)=resetPc := by decide +kernel
  have hzero : a-0=a := BitVec.sub_zero a
  unfold Covers
  rw [hsize 0 (by decide),hsize 1 (by decide),hlow,hhigh,hzero]
  exact ⟨and_iff_right (hload 0 (by decide)),and_iff_right (hload 1 (by decide))⟩

/-- Its image is the program. -/
theorem image_callAndStore :
    image callAndStoreElf (phnum callAndStoreElf)=callAndStore := by
  have hcount : phnum callAndStoreElf=2 := by decide +kernel
  have hlow : segmentBase callAndStoreElf (phdrAt callAndStoreElf 0)=0 := by decide +kernel
  have hhigh : segmentBase callAndStoreElf (phdrAt callAndStoreElf 1)=resetPc := by decide +kernel
  funext a
  obtain ⟨hfirst,hsecond⟩ := covers_callAndStore a
  rw [hcount,image]
  dsimp only
  unfold callAndStore
  by_cases hcall : (a-resetPc).toNat < 12
  · rw [if_pos (hsecond.mpr hcall),if_pos hcall]
    unfold segmentByte
    rw [hhigh]
    generalize a-resetPc=d at hcall
    have hd : d=BitVec.ofNat 64 d.toNat := (BitVec.ofNat_toNat 64 d).symm
    generalize d.toNat=k at hcall hd
    subst hd
    interval_cases k <;> decide +kernel
  · rw [if_neg fun h => hcall (hsecond.mp h),if_neg hcall,image]
    dsimp only
    by_cases hhandler : a.toNat < 12
    · rw [if_pos (hfirst.mpr hhandler),if_pos hhandler]
      have hzero : a-0=a := BitVec.sub_zero a
      unfold segmentByte
      rw [hlow,hzero]
      have ha : a=BitVec.ofNat 64 a.toNat := (BitVec.ofNat_toNat 64 a).symm
      generalize a.toNat=k at hhandler ha
      subst ha
      interval_cases k <;> decide +kernel
    · rw [if_neg fun h => hhandler (hfirst.mp h),if_neg hhandler]
      rfl

/-- It is loaded. -/
theorem callAndStoreElf_loads :
    loadElf64 callAndStoreElf (fun _ => 0) {}=.ok (callAndStore,⟨0x100,0x108,0x100⟩) := by
  have hident : checkIdent callAndStoreElf=.ok () := by decide +kernel
  have hsegments := callAndStoreElf_wellFormed.loadSegments_ok
  have hsymbols : loadSymbols callAndStoreElf {}=.ok ⟨0x100,0x108,0x100⟩ := by decide +kernel
  rw [image_callAndStore] at hsegments
  unfold loadElf64
  rw [if_neg (by decide +kernel),if_neg (by decide +kernel),hident,hsegments,hsymbols]
  rfl

/-- Every path holds that file, and every path can be written. -/
def callAndStoreWorld : World := ⟨fun _ => some callAndStoreElf,fun _ => true,coreReset⟩

/-- A run on that file starts. -/
theorem callAndStore_starts {path : String} (hpath : path≠"") :
    Starts callAndStoreWorld (runnerArgs path 1000 "call.signature")
      ⟨1000,path,"call.signature",false⟩ callAndStore ⟨0x100,0x108,0x100⟩ :=
  ⟨parseArgs_runnerArgs path "call.signature" 1000,rfl,hpath,callAndStoreElf,rfl,
    callAndStoreElf_loads⟩

/-- The reference passes the program. -/
theorem privEnds_callAndStore :
    PrivEnds callAndStore 0x100 1000 (some true) (storeValue callAndStore 256 8 1) :=
  ⟨2,by decide +kernel,first_privVerdict,privMemory_callAndStore⟩

/-- It passes, with the doubleword of its signature. -/
theorem callAndStore_ends {path : String} (hpath : path≠"") :
    Ends callAndStoreWorld (runnerArgs path 1000 "call.signature")
      (.exit 0 (some "0000000000000001\n".toList)) := by
  have hplaced : Placed 0x100 := ⟨by decide,by decide⟩
  have hloop := testLoop_priv callAndStore_program hplaced (by decide +kernel) 1000
  refine (ends_reference (callAndStore_starts hpath) hloop _).mpr
    ⟨some true,_,some _,privEnds_callAndStore,⟨?_,rfl,2,?_⟩,rfl⟩
  · change "call.signature"≠""
    decide
  · decide +kernel

end CallAndStore

/-- For every file that is loaded, with a privileged program that the pipeline
can run, whose traps and returns are part of it, and a result word away from
the ends of the address space that holds no result at first: the runner exits
with the verdict of the reference of the privileged architecture, and its
signature is that of the reference's memory behind the instruction that
brings the result, or behind all instructions issued within the limit. -/
theorem runner_ends_priv (world : World) (args : List String) (opts : Options)
    (memory : ByteMemory) (symbols : Symbols) (h : Starts world args opts memory symbols)
    (code : Word → Prop) (hprogram : PrivProgram memory code) (hplaced : Placed symbols.tohost)
    (hstart : wordVerdict (status symbols.tohost memory)=none) (ending : Ending) :
    Ends world args ending ↔
      ∃ verdict left signature,
        PrivEnds memory symbols.tohost opts.maxCycles.toNat verdict left ∧
        Leaves world opts.signaturePath symbols left signature ∧
        ending=.exit (returnCode verdict) signature :=
  ends_reference h (testLoop_priv hprogram hplaced hstart _) ending

/-- The handler of the call brings the pass. -/
theorem runner_ends_callAndStore :
    Ends callAndStoreWorld (runnerArgs "call.elf" 1000 "call.signature")
      (.exit 0 (some "0000000000000001\n".toList)) := by
  refine (runner_ends_priv _ _ _ _ _ (callAndStore_starts (by decide)) callAndStoreCode
    callAndStore_program ⟨by decide,by decide⟩ (by decide +kernel) _).mpr
      ⟨some true,_,some _,privEnds_callAndStore,⟨by decide,rfl,2,?_⟩,rfl⟩
  decide +kernel

/-- A successful suite, for any of its files that holds a privileged program
as above and whose signature can be written: the cycle limit is a 64-bit
number, and the reference of the privileged architecture does not fail the
program within it; its memory leaves a signature, which is the reference
signature if there is one, and there is one if one is required. -/
theorem suite_passes_priv (suiteName : String) (prepare : Except String (List Elf))
    (maxTests : ℤ) (requireReference : Bool) (tree : WorkTree) (runs : Elf → Run)
    (report : Report)
    (hsuite : runSuite suiteName prepare maxTests requireReference tree runs=.ok report)
    (hsuccess : report.success=true) (world : World) (limit : ℤ) (signaturePath : Elf → String)
    (earlier : Elf → Option String)
    (hruns : ∀ elf∈report.ran,∃ ending,
      Ends world (runnerArgs (elfPath elf) limit (signaturePath elf)) ending ∧
        Leads (earlier elf) ending (runs elf))
    (elf : Elf) (helf : elf∈report.ran) (file : ByteString) (memory : ByteMemory)
    (symbols : Symbols) (hread : world.read (elfPath elf)=some file)
    (hload : loadElf64 file (fun _ => 0) {}=.ok (memory,symbols))
    (hpath : signaturePath elf≠"") (hcreates : world.creates (signaturePath elf)=true)
    (code : Word → Prop) (hprogram : PrivProgram memory code) (hplaced : Placed symbols.tohost)
    (hstart : wordVerdict (status symbols.tohost memory)=none) :
    limit.natAbs < 2^64 ∧ ∃ verdict left text,
      PrivEnds memory symbols.tohost (BitVec.ofInt 64 limit).toNat verdict left ∧
      verdict≠some false ∧ Writes left symbols text ∧
      (findReferenceSignature tree elf=none → requireReference=false) ∧
      ∀ reference,findReferenceSignature tree elf=some reference →
        tree.readText reference=String.ofList text :=
  passes_reference hsuite hsuccess hruns helf hread hload hpath hcreates
    fun maxCycles => testLoop_priv hprogram hplaced hstart maxCycles

/-- A suite of that program passes with its reference. -/
theorem suite_passes_callAndStore :
    (1000 : ℤ).natAbs < 2^64 ∧ ∃ verdict left text,
      PrivEnds callAndStore 0x100 1000 verdict left ∧ verdict≠some false ∧
      Writes left ⟨0x100,0x108,0x100⟩ text ∧
      (findReferenceSignature referenceTree ⟨"elfs","add"⟩=none → true=false) ∧
      ∀ reference,findReferenceSignature referenceTree ⟨"elfs","add"⟩=some reference →
        referenceTree.readText reference=String.ofList text := by
  refine suite_passes_priv "rv64i" (.ok [⟨"elfs","add"⟩]) 0 true referenceTree
    (fun _ => ⟨0,some "0000000000000001\n"⟩) ⟨true,[⟨"elfs","add"⟩],⟨1,0,0⟩⟩ (by decide) rfl
    callAndStoreWorld 1000 (fun _ => "call.signature") (fun _ => none) ?_ ⟨"elfs","add"⟩
    (List.mem_singleton_self _) callAndStoreElf callAndStore ⟨0x100,0x108,0x100⟩ rfl
    callAndStoreElf_loads (by decide) rfl callAndStoreCode callAndStore_program
    ⟨by decide,by decide⟩ (by decide +kernel)
  intro elf helf
  exact ⟨_,callAndStore_ends (elfPath_ne elf),rfl⟩

end RichardCore.PrivRunner
