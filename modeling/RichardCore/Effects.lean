import RichardCore.ProgramOrder

/-!
# Architectural effects of the slots

The wires by which an instruction changes architectural state: the register
write port, the CSR write case, the data-memory write strobe, and the traps,
returns and redirects. Every filled slot comes from one place, listed once
per stage. An instruction without effects in MEM and WB is recognised from
the record that leaves EX.
-/

namespace RichardCore.Effects

open Packages Decoder Execute DataMemory CsrUnit TrapCtrl Hazard Pipeline Clocked Tracking

/-- Register write to one of x1 to x31. -/
def regWriteWire (s : CoreState) : Bool := (wbWires s).regWriteEn && (wbWires s).rdAddr != 0

/-- CSR write by the committing instruction. -/
def csrWriteWire (s : CoreState) : Bool :=
  csrWriteEn (csrReq s.memWb) s.memWb.csrOp (csrAddr s.memWb) (csrRs1Data s.memWb) &&
    csrIsWritable (canonicalAddr (csrAddr s.memWb))

/-- Data-memory write request. -/
def dmemWriteWire (s : CoreState) : Bool := (dmemRequest s.exMem).writeEn

/-- PC redirect by EX; a trap flush overrides it. -/
def redirectWire (s : CoreState) (irq : IrqLines) : Bool := takenWire s && !flushWire s irq

/-- CSR operation that modifies its register: a write command, or a set or
clear with non-zero source data. -/
def csrModifies (op : BitVec 3) (data : Word) : Bool :=
  isWriteCmd op || ((isSetCmd op || isClearCmd op) && data != 0)

/-- The CSR file writes on a legal request that modifies its register. -/
theorem writesCsr_eq (i : CsrIn) :
    writesCsr i=(i.csrReq && !csrIllegalAccess i.csrReq i.csrOp i.csrAddr &&
      csrModifies i.csrOp i.csrRs1Data) := by
  unfold writesCsr csrWriteEn csrIllegalAccess csrWriteIllegal csrModifies
  cases i.csrReq <;> cases csrIsSupported (canonicalAddr i.csrAddr) <;>
    cases csrIsWritable (canonicalAddr i.csrAddr) <;> cases isWriteCmd i.csrOp <;>
    cases isSetCmd i.csrOp <;> cases isClearCmd i.csrOp <;> simp

/-- The CSR file sees exactly the write of the committing instruction. -/
theorem writesCsr_csrWires (s : CoreState) (i : Inputs) : writesCsr (csrWires s i)=csrWriteWire s :=
  rfl

/-- A CSR write is a legal request that modifies its register. -/
theorem csrWriteWire_eq (s : CoreState) :
    csrWriteWire s=(csrReq s.memWb && !wbCsrIllegal s.memWb &&
      csrModifies s.memWb.csrOp (csrRs1Data s.memWb)) :=
  writesCsr_eq (csrWires s ⟨false,0,0,.low⟩)

/-- A register write needs an instruction that raises no exception. -/
theorem regWriteWire_eq (s : CoreState) :
    regWriteWire s=(s.memWb.wb.regWriteEn && s.memWb.wb.rdAddr != 0 && !hasSyncException s) := by
  rw [hasSyncException_eq]
  unfold regWriteWire
  simp only [wbWires,wbStage]
  cases s.memWb.wb.regWriteEn <;> cases s.memWb.wb.rdAddr != 0 <;> simp

/-- Without a register write the register file keeps its contents. -/
theorem coreStep_regs_quiet (s : CoreState) (i : Inputs) (hrst : i.rst=false)
    (h : regWriteWire s=false) : (coreStep s i).regs=s.regs := by
  rw [coreStep_regs _ _ hrst]
  unfold regfileWrite
  rw [if_neg]
  rintro ⟨hen,hrd⟩
  simp only [regWriteWire,hen,Bool.true_and,bne_eq_false_iff_eq] at h
  exact hrd h

/-- An executed instruction as it enters MEM. -/
def exOutput (s : CoreState) : ExMem :=
  exMemNext s.idEx (exRs1RdataFwd s) (exRs2RdataFwd s) (exWires s)

section Filled

variable {x : Tracked} {i : Inputs} (hrst : i.rst=false)

include hrst

/-- A filled ID slot is the stalled instruction or the one just fetched. -/
theorem id_instr_inv {f : Fetched} (hf : (trackStep x i).tags.id=.instr f) :
    flushWire x.core i.irq=false ∧
      (x.tags.id=.instr f ∨ f=⟨x.tags.seq,x.core.pc,i.imemRdata⟩) := by
  have hid : (trackStep x i).tags.id=_ := tagStep_id x.core x.tags i hrst
  rw [hf] at hid
  cases hclear : (flushWire x.core i.irq || takenWire x.core) with
  | true => simp [hclear] at hid
  | false =>
    simp only [hclear,Bool.false_eq_true,if_false] at hid
    rw [Bool.or_eq_false_iff] at hclear
    refine ⟨hclear.1,?_⟩
    cases hstall : loadUseWire x.core with
    | true =>
      rw [hstall,if_pos rfl] at hid
      exact .inl hid.symm
    | false =>
      rw [hstall,if_neg (by decide)] at hid
      cases hid
      exact .inr rfl

/-- A filled EX slot comes from ID, behind neither a flush, nor a taken
branch, nor a load it depends on. -/
theorem ex_instr_inv {k : Issued} (hk : (trackStep x i).tags.ex=.instr k) :
    flushWire x.core i.irq=false ∧ takenWire x.core=false ∧ loadUseWire x.core=false ∧
    (trackStep x i).core.idEx=idExNext x.core ∧
    ∃ f,x.tags.id=.instr f ∧ k=⟨f,x.core.csr.privMode⟩ := by
  have hex : (trackStep x i).tags.ex=_ := tagStep_ex x.core x.tags i hrst
  have hidEx : (trackStep x i).core.idEx=_ := coreStep_idEx x.core i hrst
  rw [hk] at hex
  cases hclear : (flushWire x.core i.irq || takenWire x.core || loadUseWire x.core) with
  | true => simp [hclear] at hex
  | false =>
    simp only [hclear,Bool.false_eq_true,if_false] at hex hidEx
    rw [Bool.or_eq_false_iff,Bool.or_eq_false_iff] at hclear
    refine ⟨hclear.1.1,hclear.1.2,hclear.2,hidEx,?_⟩
    cases hslot : x.tags.id with
    | bubble b =>
      rw [hslot] at hex
      cases hex
    | instr f =>
      rw [hslot] at hex
      cases hex
      exact ⟨f,rfl,rfl⟩

/-- A filled MEM slot comes from EX, whatever the wires say. -/
theorem mem_instr_inv {k : Executed} (hk : (trackStep x i).tags.mem=.instr k) :
    (trackStep x i).core.exMem=exOutput x.core ∧
    ∃ j,x.tags.ex=.instr j ∧ k=executed x.core i.irq j := by
  have hmem : (trackStep x i).tags.mem=_ := tagStep_mem x.core x.tags i hrst
  rw [hk] at hmem
  refine ⟨coreStep_exMem x.core i hrst,?_⟩
  cases hslot : x.tags.ex with
  | bubble b =>
    rw [hslot] at hmem
    cases hmem
  | instr j =>
    rw [hslot] at hmem
    cases hmem
    exact ⟨j,rfl,rfl⟩

/-- A filled WB slot comes from MEM in a cycle without a flush. -/
theorem wb_instr_inv {k : Executed} (hk : (trackStep x i).tags.wb=.instr k) :
    flushWire x.core i.irq=false ∧ x.tags.mem=.instr k ∧
    (trackStep x i).core.memWb=memStage x.core.exMem i.dmemRdata := by
  have hwb : (trackStep x i).tags.wb=_ := tagStep_wb x.core x.tags i hrst
  have hmemWb : (trackStep x i).core.memWb=_ := coreStep_memWb x.core i hrst
  rw [hk] at hwb
  cases hflush : flushWire x.core i.irq with
  | true => simp [hflush] at hwb
  | false =>
    simp only [hflush,Bool.false_eq_true,if_false] at hwb hmemWb
    exact ⟨rfl,hwb.symm,hmemWb⟩

end Filled

/-- Every word in flight passes a test. -/
structure WordsPass (test : BitVec 32 → Bool) (x : Tracked) : Prop where
  /-- ID. -/
  id : ∀ f,x.tags.id=.instr f → test f.word=true
  /-- EX. -/
  ex : ∀ k,x.tags.ex=.instr k → test k.word=true
  /-- MEM. -/
  mem : ∀ k,x.tags.mem=.instr k → test k.word=true
  /-- WB. -/
  wb : ∀ k,x.tags.wb=.instr k → test k.word=true

/-- The empty pipeline passes every test. -/
theorem wordsPass_reset (test : BitVec 32 → Bool) (n : ℕ) :
    WordsPass test ⟨coreReset,tagsReset n⟩ :=
  ⟨fun _ h => (nomatch h),fun _ h => (nomatch h),fun _ h => (nomatch h),fun _ h => (nomatch h)⟩

/-- Words in flight keep passing a test that the fetched word passes. -/
theorem wordsPass_step (test : BitVec 32 → Bool) (x : Tracked) (i : Inputs)
    (h : WordsPass test x) (hfetch : test i.imemRdata=true) : WordsPass test (trackStep x i) := by
  cases hrst : i.rst with
  | true =>
    rw [trackStep_reset x i hrst]
    exact wordsPass_reset test _
  | false =>
    refine ⟨?_,?_,?_,?_⟩
    · intro f hf
      obtain ⟨-,hid | rfl⟩ := id_instr_inv hrst hf
      · exact h.id f hid
      · exact hfetch
    · intro k hk
      obtain ⟨-,-,-,-,f,hid,rfl⟩ := ex_instr_inv hrst hk
      exact h.id f hid
    · intro k hk
      obtain ⟨-,j,hex,rfl⟩ := mem_instr_inv hrst hk
      exact h.ex j hex
    · intro k hk
      obtain ⟨-,hmem,-⟩ := wb_instr_inv hrst hk
      exact h.mem k hmem

/-- In every run the words in flight pass a test that all fetched words
pass. -/
theorem trackedRun_words (test : BitVec 32 → Bool) {inputs : ℕ → Inputs}
    (h : ∀ t,test (inputs t).imemRdata=true) (t : ℕ) : WordsPass test (trackedRun inputs t) :=
  runFrom_invariant (WordsPass test) (fun _ i => test i.imemRdata=true) (wordsPass_reset test 0)
    (wordsPass_step test) t fun u _ => h u

/-- An instruction that neither writes a register, nor raises an exception,
nor returns from a trap. CSR accesses and stores are judged separately. -/
@[mk_iff]
structure SilentMem (e : ExMem) : Prop where
  /-- No register write. -/
  wb : QuietWrite e.wb
  /-- Not illegal. -/
  illegalInstr : e.sys.illegalInstr=false
  /-- Not an environment call. -/
  isEcall : e.sys.isEcall=false
  /-- Not a breakpoint. -/
  isEbreak : e.sys.isEbreak=false
  /-- Not a machine return. -/
  isMret : e.sys.isMret=false
  /-- Not a supervisor return. -/
  isSret : e.sys.isSret=false
  /-- No misaligned load. -/
  load : loadAddrMisaligned e=false
  /-- No misaligned store. -/
  store : storeAddrMisaligned e=false

/-- Silence is read off the record. -/
instance (e : ExMem) : Decidable (SilentMem e) :=
  haveI : Decidable (QuietWrite e.wb) := inferInstanceAs (Decidable (_ ∨ _))
  decidable_of_iff' _ (silentMem_iff e)

/-- The same of an instruction in WB. -/
structure SilentWb (w : MemWb) : Prop where
  /-- No register write. -/
  wb : QuietWrite w.wb
  /-- No recorded exception. -/
  trap : hasTrap w=false
  /-- Not a machine return. -/
  isMret : w.isMret=false
  /-- Not a supervisor return. -/
  isSret : w.isSret=false

/-- The memory stage passes silence on. -/
theorem SilentMem.memStage {e : ExMem} (h : SilentMem e) (rdata : Word) :
    SilentWb (memStage e rdata) := by
  refine ⟨h.wb,?_,h.isMret,h.isSret⟩
  simp only [hasTrap,DataMemory.memStage,h.illegalInstr,h.isEcall,h.isEbreak,h.load,h.store]
  rfl

/-- Inert contents are silent in WB. -/
theorem silentWb_of_inert {w : MemWb} (h : InertWb w) : SilentWb w := ⟨h.wb,h.trap,h.mret,h.sret⟩

/-- A silent instruction writes no register. -/
theorem SilentWb.regWrite {s : CoreState} (h : SilentWb s.memWb) : regWriteWire s=false := by
  rw [regWriteWire_eq]
  obtain hen | hrd := h.wb
  · rw [hen]
    rfl
  · rw [hrd]
    simp

/-- The exception of a silent instruction can only be a rejected CSR access. -/
theorem SilentWb.syncException {s : CoreState} (h : SilentWb s.memWb) :
    hasSyncException s=wbCsrIllegal s.memWb := by
  rw [hasSyncException_eq,h.trap]
  rfl

section Inert

variable {s : CoreState} (h : InertWb s.memWb)

include h

/-- An inert record raises no exception. -/
theorem inert_exception : hasSyncException s=false := by
  rw [(silentWb_of_inert h).syncException]
  simp only [wbCsrIllegal,csrReq,h.csr,csrIllegalAccess]
  rfl

/-- An inert record flushes nothing. -/
theorem inert_flush : flushWire s .low=false := by
  rw [flushWire_eq,hasInterrupt_low,inert_exception h,h.mret,h.sret]
  rfl

end Inert

/-- Only an instruction raises an exception. -/
theorem exception_instr {x : Tracked} (h : SlotsOk x) (hexception : hasSyncException x.core=true) :
    ∃ k,x.tags.wb=.instr k ∧ x.core.memWb.pc=k.pc ∧ x.core.memWb.instr=k.word ∧
      CarriesWb x.core.memWb (decoder k.word k.mode.bits) := by
  have hslot := h.wb
  cases hwb : x.tags.wb with
  | bubble b =>
    rw [hwb] at hslot
    rw [inert_exception hslot.2] at hexception
    cases hexception
  | instr k =>
    rw [hwb] at hslot
    exact ⟨k,rfl,hslot⟩

/-- A stored instruction has no system action and is no load. -/
theorem decoder_store (word : BitVec 32) (mode : BitVec 2)
    (h : (decoder word mode).mem.isStore=true) :
    (decoder word mode).sys=sysDefaults ∧ (decoder word mode).mem.isLoad=false := by
  revert h
  unfold decoder
  dsimp only
  split <;> (try split) <;> (try split) <;> simp [decodeDefaults,memDefaults]

/-- Jumps and branches add their immediate to the PC or to a register; they
access no memory and are no system instructions. -/
theorem decoder_transfer (word : BitVec 32) (mode : BitVec 2)
    (h : (decoder word mode).exec.isJump=true ∨ (decoder word mode).exec.isBranch=true) :
    ((decoder word mode).exec.aluOp=.add ∧ (decoder word mode).exec.aluSrc2Sel=true ∧
      (decoder word mode).exec.isWordOp=false) ∧
    (decoder word mode).mem=memDefaults ∧ (decoder word mode).sys=sysDefaults := by
  revert h
  unfold decoder
  dsimp only
  repeat' split
  all_goals simp [decodeDefaults,execDefaults]

end RichardCore.Effects
