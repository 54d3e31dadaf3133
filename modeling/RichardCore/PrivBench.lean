import RichardCore.PrivRefinement
import RichardCore.TrapBench

/-!
# Privileged programs on the compliance bench

Programs under the reference of the privileged architecture, as the runner's
bench executes them. The conditions on a program are read off the reference
alone: it never stops, it leaves its code alone, and it respects the three
hazards that the pipeline does not resolve.
-/

namespace RichardCore.PrivBench

open Packages Decoder DataMemory CsrUnit TrapCtrl Pipeline Clocked Harness SequentialMachine
open Agreement Simulation TrapMachine TrapRefinement TestBench TrapBench Encodings CsrTraps
open CsrStore AliasedStore PrivMachine PrivRefinement StoreLoad
open Isa IsaMachine IsaRefinement

/-- A memory image whose program the reference runs for ever, in a code region
that it does not store into, and that the pipeline can run. -/
structure PrivProgram (memory : ByteMemory) (code : Word → Prop) : Prop where
  /-- The reference does not stop. -/
  runs : ∀ n,(privRun memory n).isSome=true
  /-- Every instruction executed is in the code region. -/
  inside : ∀ n s,privRun memory n=some s → ∀ k < 4,code (s.pc+BitVec.ofNat 64 k)
  /-- So are the two words behind each trap and return. -/
  guards : ∀ n s,privRun memory n=some s → s.leaves=true → ∀ k < 4,
    code (s.pc+4+BitVec.ofNat 64 k) ∧ code (s.pc+4+4+BitVec.ofNat 64 k)
  /-- The code region never changes. -/
  keeps : ∀ n s,privRun memory n=some s → ∀ a,code a → s.memory a=memory a
  /-- The two words would have no effect. -/
  harmless : ∀ n s,privRun memory n=some s → s.leaves=true →
    Harmless (decoder (readU32 memory (s.pc+4)) s.csrs.mode.bits) ∧
    Harmless (decoder (readU32 memory (s.pc+4+4)) s.csrs.mode.bits)
  /-- No counter is read into a register. -/
  counterUnread : ∀ n s,privRun memory n=some s → ∀ op addr source rd,
    readU32 memory s.pc=encodeSys (.csr op addr source rd) → isCounter addr=true → rd=0
  /-- The instruction behind a CSR instruction does not use its result. -/
  resultUnused : ∀ n s s',privRun memory n=some s → privRun memory (n+1)=some s' →
    s.leaves=false → ∀ op addr source rd,
    readU32 memory s.pc=encodeSys (.csr op addr source rd) → rd≠0 →
    ¬(usesRs1 (readU32 memory s'.pc)=true ∧ rs1Field (readU32 memory s'.pc)=rd) ∧
    ¬(usesRs2 (readU32 memory s'.pc)=true ∧ rs2Field (readU32 memory s'.pc)=rd)

/-- Source fields of a decoded word. -/
theorem decoder_sources (word : BitVec 32) (mode : BitVec 2) :
    (decoder word mode).rs1Addr=(decodeDefaults word).rs1Addr ∧
    (decoder word mode).rs2Addr=rs2Field word := by
  unfold decoder
  dsimp only
  repeat' split
  all_goals exact ⟨rfl,rfl⟩

/-- A register that is read is the one in its field. -/
theorem usesRs1_field {word : BitVec 32} (mode : BitVec 2) (h : usesRs1 word=true) :
    (decoder word mode).rs1Addr=rs1Field word := by
  rw [(decoder_sources word mode).1]
  refine if_neg fun hlui => ?_
  unfold usesRs1 at h
  rw [hlui,Opcode.ofBits_bits] at h
  cases h

/-- A CSR instruction traps unless it is permitted and its register takes
writes. -/
theorem csr_leaves {s : PrivState} {op : CsrOp} {addr : BitVec 12} {source rd : RegAddr}
    (hword : readU32 s.memory s.pc=encodeSys (.csr op addr source rd)) :
    s.leaves=(!csrPermitted s.csrs.mode addr || leavesSys (.csr op addr source rd)) := by
  have hbase : decodeInstr (readU32 s.memory s.pc)=none := by
    cases hdecoded : decodeInstr (readU32 s.memory s.pc) with
    | none => rfl
    | some i =>
      have hencoded := (decodeInstr_iff _ i).mp hdecoded
      rw [hword] at hencoded
      refine absurd ?_ (encode_opcode i)
      rw [hencoded]
      exact (iType_fields source rd op.code addr .system).1
  unfold PrivState.leaves
  rw [hbase,hword,decodeSys_encodeSys]
  rfl

section Programs

variable {memory : ByteMemory} {code : Word → Prop} (h : PrivProgram memory code)

include h

/-- Words of four code bytes are unchanged. -/
theorem PrivProgram.fetch {n : ℕ} {s : PrivState} (hs : privRun memory n=some s) {pc : Word}
    (hcode : ∀ k < 4,code (pc+BitVec.ofNat 64 k)) : readU32 s.memory pc=readU32 memory pc := by
  unfold readU32
  exact readBytes_congr _ fun k hk => h.keeps n s hs _ (hcode k hk)

/-- The reference takes a step from every state. -/
theorem PrivProgram.step {n : ℕ} {s : PrivState} (hs : privRun memory n=some s) :
    ∃ s',privStep s=some s' ∧ privRun memory (n+1)=some s' := by
  obtain ⟨s',hs'⟩ := Option.isSome_iff_exists.mp (h.runs (n+1))
  have hstep : privStep s=some s' := by
    rw [privRun,hs] at hs'
    exact hs'
  exact ⟨s',hstep,hs'⟩

/-- The machine with traps goes through the states of the reference. -/
theorem PrivProgram.samePriv (n : ℕ) :
    ∃ s,privRun memory n=some s ∧ SamePriv (stateAt (runnerBench.setup memory) n) s := by
  induction n with
  | zero => exact ⟨_,rfl,rfl,rfl,rfl,matches_reset,rfl⟩
  | succ n ih =>
    obtain ⟨s,hs,hsame⟩ := ih
    obtain ⟨s',hstep,hs'⟩ := h.step hs
    have hfetch : (runnerBench.setup memory).imem (stateAt (runnerBench.setup memory) n).pc=
        readU32 s.memory s.pc := by
      rw [h.fetch hs (h.inside n s hs),hsame.pc]
      rfl
    exact ⟨s',hs',trapStep_priv hsame hfetch hstep⟩

/-- An instruction that flushes is foreseen by the reference. -/
theorem PrivProgram.leaves {n : ℕ} {s : PrivState} (hs : privRun memory n=some s)
    (hsame : SamePriv (stateAt (runnerBench.setup memory) n) s)
    (hflush : flushesAt (runnerBench.setup memory) n=true) : s.leaves=true := by
  have hfetch : (runnerBench.setup memory).imem (stateAt (runnerBench.setup memory) n).pc=
      readU32 s.memory s.pc := by
    rw [h.fetch hs (h.inside n s hs),hsame.pc]
    rfl
  exact flush_leaves hsame hfetch hflush

/-- CSR instructions of the machine with traps are those of the reference. -/
theorem PrivProgram.csr {n : ℕ} {s s' : PrivState} (hs : privRun memory n=some s)
    (hstep : privStep s=some s') (hsame : SamePriv (stateAt (runnerBench.setup memory) n) s)
    (hcsr : (completedAt (runnerBench.setup memory) n).isCsr=true) :
    ∃ op addr source rd,readU32 memory s.pc=encodeSys (.csr op addr source rd) ∧
      csrAddr (completedAt (runnerBench.setup memory) n)=addr ∧
      (completedAt (runnerBench.setup memory) n).wb.rdAddr=rd ∧
      (flushesAt (runnerBench.setup memory) n=false → s.leaves=false) := by
  have hfetched := h.fetch hs (h.inside n s hs)
  have hfetch : (runnerBench.setup memory).imem (stateAt (runnerBench.setup memory) n).pc=
      readU32 s.memory s.pc := by
    rw [hfetched,hsame.pc]
    rfl
  obtain ⟨op,addr,source,rd,hword,hpermitted⟩ := csr_word hsame hfetch hstep hcsr
  have hholds := holdsCsr hsame hword hpermitted
  refine ⟨op,addr,source,rd,?_,hholds.addr,?_,fun hstays => ?_⟩
  · rw [←hword,hfetch,hfetched]
  · change (seqMem (runnerBench.setup memory).imem byteDevice
      (stateAt (runnerBench.setup memory) n)).wb.rdAddr=rd
    rw [hholds.wb]
  · have haccepted : wbCsrIllegal (completedAt (runnerBench.setup memory) n)=false :=
      (trapOf_quiet hstays).2.1
    rw [csr_leaves (hfetch.symm.trans hword),hpermitted,Bool.not_true,Bool.false_or]
    exact (csrIllegalAccess_op op addr).symm.trans (hholds.rejected.2.symm.trans haccepted)

/-- The pipeline runs it like the machine with traps. -/
theorem PrivProgram.regular : TrapRegular (runnerBench.setup memory) := by
  refine ⟨fun n hcsr hcounter => ?_,fun n hstays hcsr hrd => ?_,fun n hflush => ?_⟩
  · obtain ⟨s,hs,hsame⟩ := h.samePriv n
    obtain ⟨s',hstep,-⟩ := h.step hs
    obtain ⟨op,addr,source,rd,hword,haddr,hdest,-⟩ := h.csr hs hstep hsame hcsr
    rw [haddr] at hcounter
    rw [hdest]
    exact h.counterUnread n s hs op addr source rd hword hcounter
  · obtain ⟨s,hs,hsame⟩ := h.samePriv n
    obtain ⟨s',hstep,hs'⟩ := h.step hs
    obtain ⟨t,ht,hnext⟩ := h.samePriv (n+1)
    obtain rfl := Option.some.inj (hs'.symm.trans ht)
    obtain ⟨op,addr,source,rd,hword,-,hdest,hleaves⟩ := h.csr hs hstep hsame hcsr
    rw [hdest] at hrd ⊢
    obtain ⟨hrs1,hrs2⟩ := h.resultUnused n s s' hs hs' (hleaves hstays) op addr source rd hword hrd
    have hinstr : (decodedAt (runnerBench.setup memory) (n+1)).instr=readU32 memory s'.pc := by
      change readU32 memory (stateAt (runnerBench.setup memory) (n+1)).pc=_
      rw [hnext.pc]
    have hctrl : (decodedAt (runnerBench.setup memory) (n+1)).ctrl=
        decoder (readU32 memory s'.pc) s'.csrs.mode.bits := by
      rw [←hinstr,←hnext.csrs.mode]
      rfl
    rw [hinstr,hctrl]
    refine ⟨fun huses => hrs1 ⟨huses.1,?_⟩,fun huses => hrs2 ⟨huses.1,?_⟩⟩
    · rw [←usesRs1_field s'.csrs.mode.bits huses.1]
      exact huses.2
    · rw [←(decoder_sources (readU32 memory s'.pc) s'.csrs.mode.bits).2]
      exact huses.2
  · obtain ⟨s,hs,hsame⟩ := h.samePriv n
    have hleaves := h.leaves hs hsame hflush
    obtain ⟨hfirst,hsecond⟩ := h.harmless n s hs hleaves
    unfold Guarded
    rw [hsame.pc,hsame.csrs.mode]
    exact ⟨hfirst,hsecond⟩

/-- Its stores leave its code alone. -/
theorem PrivProgram.stable : TrapStable runnerBench memory := by
  intro n m _
  obtain ⟨s,hs,hsame⟩ := h.samePriv n
  obtain ⟨t,ht,hmem⟩ := h.samePriv m
  have hmemory : (stateAt (runnerBench.setup memory) m).memory=t.memory := hmem.memory
  rw [hmemory,hsame.pc]
  refine ⟨h.fetch ht (h.inside n s hs),fun hflush => ?_⟩
  have hguards := h.guards n s hs (h.leaves hs hsame hflush)
  exact ⟨h.fetch ht fun k hk => (hguards k hk).1,h.fetch ht fun k hk => (hguards k hk).2⟩

/-- Between ticks the bench is in the mode of the reference, and its CSRs other
than the counters read as the reference's. -/
theorem PrivProgram.file_now (t : ℕ) :
    ∃ s,privRun memory (committed (runnerBench.setup memory) t)=some s ∧
      (runnerBench.state memory t).core.regs=s.regs ∧
      (runnerBench.state memory t).core.csr.privMode=s.csrs.mode ∧
      ∀ csr : Csr,isCounter csr.addr=false →
        csrRdata (runnerBench.state memory t).core.csr csr.addr=s.read csr := by
  obtain ⟨hregs,hcsr⟩ := core_now runner_idleReads h.regular h.stable t
  obtain ⟨s,hs,hsame⟩ := h.samePriv (committed (runnerBench.setup memory) t)
  refine ⟨s,hs,hregs.trans hsame.regs,(kept_of_erase hcsr).1.trans hsame.csrs.mode,?_⟩
  intro csr hcount
  rw [csrRdata_erase hcsr csr.addr hcount,hsame.read]

end Programs

/-- The compliance bench runs every such program as the reference of the
privileged architecture does: between any two ticks the memory is that of the
reference after the instructions whose issue cycle is past; registers, mode
and every CSR but the counters are those two cycles further. -/
theorem runner_runs_priv (memory : ByteMemory) (code : Word → Prop) (h : PrivProgram memory code)
    (t : ℕ) :
    ∃ stored written s s',privRun memory stored=some s ∧ privRun memory written=some s' ∧
      (runnerBench.state memory t).memory=s.memory ∧
      (runnerBench.state memory t).core.regs=s'.regs ∧
      (runnerBench.state memory t).core.csr.privMode=s'.csrs.mode ∧
      (∀ csr : Csr,isCounter csr.addr=false →
        csrRdata (runnerBench.state memory t).core.csr csr.addr=s'.read csr) ∧
      (∀ n,n < stored ↔ issueAt (runnerBench.setup memory) n < t) ∧
      ∀ n,n < written ↔ issueAt (runnerBench.setup memory) n+2 < t := by
  have hmemory := memory_now runner_idleReads h.regular h.stable t
  obtain ⟨s,hs,hsame⟩ := h.samePriv (begun (runnerBench.setup memory) t)
  obtain ⟨s',hs',hregs,hmode,hread⟩ := h.file_now t
  exact ⟨_,_,s,s',hs,hs',hmemory.trans hsame.memory,hregs,hmode,hread,
    fun n => (ex_keeps h.regular).lt_tally n t,fun n => (wb_keeps h.regular).lt_tally n t⟩

/-- `mret` at the reset address and `ecall` at address 0, each followed by two
`nop`: go to user mode and call for ever. -/
def userCall : ByteMemory := fun a =>
  if a.toNat < 12 then
    [0x73,0x00,0x00,0x00, 0x13,0x00,0x00,0x00, 0x13,0x00,0x00,0x00].getD a.toNat 0
  else if (a-resetPc).toNat < 12 then
    [0x73,0x00,0x20,0x30, 0x13,0x00,0x00,0x00, 0x13,0x00,0x00,0x00].getD (a-resetPc).toNat 0
  else 0

/-- State in the calls. -/
structure Calling (s : PrivState) : Prop where
  /-- Address of the call. -/
  pc : s.pc=0
  /-- Memory. -/
  memory : s.memory=userCall
  /-- Trap vector. -/
  vector : s.read .mtvec=0
  /-- Nothing is delegated. -/
  delegation : s.read .medeleg=0

/-- A call leads to the next one, in machine mode. -/
theorem calling_step {s : PrivState} (h : Calling s) :
    privStep s=some (s.raise (callCause s.csrs.mode) 0) ∧
      Calling (s.raise (callCause s.csrs.mode) 0) ∧
      (s.raise (callCause s.csrs.mode) 0).csrs.mode=.m ∧ s.leaves=true := by
  have hword : readU32 s.memory s.pc=0x00000073 := by
    rw [h.memory,h.pc]
    decide
  have hbase : decodeInstr 0x00000073=none := by decide
  have hsys : decodeSys 0x00000073=some (.priv .ecall) := by decide
  have hreserved : Legality.acceptsReserved 0x00000073 s.csrs.mode=false := by
    cases s.csrs.mode <;> decide
  have hdelegated : s.delegated (callCause s.csrs.mode)=false := by
    unfold PrivState.delegated
    rw [h.delegation]
    simp
  have hkept : ∀ c,owner c∉counters → owner c≠.mstatus → c∉trapRegs false →
      (s.raise (callCause s.csrs.mode) 0).read c=s.read c := fun c hcount hstatus hregs =>
    raise_read s _ _ hcount hstatus (by rw [hdelegated]; exact hregs)
  refine ⟨?_,⟨?_,h.memory,?_,?_⟩,?_,?_⟩
  · refine privStep_system hword ?_ hreserved hbase hsys rfl
    rw [h.pc]
    rfl
  · change s.read (if s.delegated _ then .stvec else .mtvec)&&&~~~3#64=0
    rw [hdelegated]
    change s.read .mtvec&&&_=0
    rw [h.vector]
    decide
  · rw [hkept _ (by decide) (by decide) (by decide),h.vector]
  · rw [hkept _ (by decide) (by decide) (by decide),h.delegation]
  · change (if s.delegated _ then PrivMode.s else .m)=.m
    rw [hdelegated]
    rfl
  · unfold PrivState.leaves
    rw [hword,hbase,hsys]
    cases s.csrs.mode <;> rfl

/-- State at the reset address. -/
def userCallStart : PrivState := ⟨0x80000000,fun _ => 0,userCall,⟨storeReset,.m⟩⟩

/-- State after the return to user mode. -/
def userCalling : PrivState :=
  ⟨userCallStart.read .mepc,fun _ => 0,userCall,refMret userCallStart.csrs (tick storeReset)⟩

/-- The return leads to the first call, in user mode. -/
theorem userCall_start :
    privStep userCallStart=some userCalling ∧ Calling userCalling ∧ userCalling.csrs.mode=.u ∧
      userCallStart.leaves=true := by
  have hword : readU32 userCallStart.memory userCallStart.pc=0x30200073 := by decide
  have hbase : decodeInstr 0x30200073=none := by decide
  have hsys : decodeSys 0x30200073=some (.priv .mret) := by decide
  have hreserved : Legality.acceptsReserved 0x30200073 .m=false := by decide
  have hzero : ∀ c,owner c∉counters → owner c≠.mstatus →
      (∀ j,layout.bit storeReset c j=false) → userCalling.read c=0 := by
    intro c hcount hstatus hreset
    refine layout.read_eq fun j _ => ?_
    change (0#64).getLsbD j=layout.bit (setStatus _ _ _ _) c j
    rw [bit_setStatus_frame (.inl rfl) _ _ _ hstatus,bit_tick_frame _ hcount,hreset]
    exact BitVec.getLsbD_zero
  refine ⟨privStep_system hword rfl hreserved hbase hsys rfl,⟨?_,rfl,?_,?_⟩,rfl,?_⟩
  · refine layout.read_eq fun j _ => ?_
    exact BitVec.getLsbD_zero
  · exact hzero _ (by decide) (by decide) fun _ => rfl
  · exact hzero _ (by decide) (by decide) fun _ => rfl
  · unfold PrivState.leaves
    rw [hword,hbase,hsys]
    rfl

/-- After the return there are only calls. -/
theorem privRun_userCall (n : ℕ) : ∃ s,privRun userCall (n+1)=some s ∧ Calling s ∧
    (n=0 → s=userCalling) ∧ (0 < n → s.csrs.mode=.m) := by
  induction n with
  | zero =>
    obtain ⟨hstep,hcalling,-,-⟩ := userCall_start
    exact ⟨_,hstep,hcalling,fun _ => rfl,fun h => absurd h (Nat.lt_irrefl 0)⟩
  | succ n ih =>
    obtain ⟨s,hs,hcalling,-,-⟩ := ih
    obtain ⟨hstep,hnext,hmode,-⟩ := calling_step hcalling
    refine ⟨_,?_,hnext,fun h => (by cases h),fun _ => hmode⟩
    rw [privRun,hs]
    exact hstep

/-- The two code regions. -/
def userCallCode (a : Word) : Prop := a.toNat < 12 ∨ (a-resetPc).toNat < 12

/-- The pipeline can run the program. -/
theorem userCall_program : PrivProgram userCall userCallCode := by
  have hstates : ∀ n s,privRun userCall n=some s →
      (s.pc=resetPc ∨ s.pc=0) ∧ s.memory=userCall ∧ s.leaves=true := by
    intro n s hs
    cases n with
    | zero =>
      obtain rfl := Option.some.inj hs
      exact ⟨.inl rfl,rfl,userCall_start.2.2.2⟩
    | succ n =>
      obtain ⟨s',hs',hcalling,-⟩ := privRun_userCall n
      obtain rfl := Option.some.inj (hs.symm.trans hs')
      exact ⟨.inr hcalling.pc,hcalling.memory,(calling_step hcalling).2.2.2⟩
  have hnotCsr : ∀ n s,privRun userCall n=some s → ∀ op addr source rd,
      readU32 userCall s.pc≠encodeSys (.csr op addr source rd) := by
    intro n s hs op addr source rd hword
    have hdecoded := (decodeSys_iff _ _).mpr hword.symm
    obtain hpc | hpc := (hstates n s hs).1 <;> rw [hpc] at hdecoded
    · have hmret : decodeSys (readU32 userCall resetPc)=some (.priv .mret) := by decide
      rw [hmret] at hdecoded
      cases hdecoded
    · have hecall : decodeSys (readU32 userCall 0)=some (.priv .ecall) := by decide
      rw [hecall] at hdecoded
      cases hdecoded
  refine ⟨fun n => ?_,fun n s hs k hk => ?_,fun n s hs _ k hk => ?_,fun n s hs a _ => ?_,
    fun n s hs _ => ?_,fun n s hs op addr source rd hword => ?_,
    fun n s s' hs _ _ op addr source rd hword => ?_⟩
  · cases n with
    | zero => rfl
    | succ n =>
      obtain ⟨s,hs,-⟩ := privRun_userCall n
      rw [hs]
      rfl
  · unfold userCallCode
    obtain hpc | hpc := (hstates n s hs).1 <;> rw [hpc] <;> interval_cases k <;> decide
  · unfold userCallCode
    obtain hpc | hpc := (hstates n s hs).1 <;> rw [hpc] <;> interval_cases k <;> decide
  · rw [(hstates n s hs).2.1]
  · have hwords : readU32 userCall (s.pc+4)=nopInstr ∧ readU32 userCall (s.pc+4+4)=nopInstr := by
      obtain hpc | hpc := (hstates n s hs).1 <;> rw [hpc] <;> decide
    rw [hwords.1,hwords.2]
    exact ⟨nop_harmless _,nop_harmless _⟩
  · exact absurd hword (hnotCsr n s hs op addr source rd)
  · exact absurd hword (hnotCsr n s hs op addr source rd)

/-- After eleven ticks the call from user mode is taken: the core is in
machine mode with its cause. -/
theorem runner_runs_userCall :
    (runnerBench.state userCall 11).core.csr.privMode=.m ∧
      csrRdata (runnerBench.state userCall 11).core.csr Csr.mcause.addr=excEcallFromU := by
  obtain ⟨-,written,-,s',-,hs',-,-,hmode,hread,-,hwritten⟩ :=
    runner_runs_priv userCall userCallCode userCall_program 11
  have htwo : written=2 := by
    have hone : 1 < written := (hwritten 1).mpr (by decide +kernel)
    have hnot : ¬2 < written := fun hlt => absurd ((hwritten 2).mp hlt) (by decide +kernel)
    omega
  rw [htwo] at hs'
  obtain ⟨s,hs,hcalling,hfirst,-⟩ := privRun_userCall 0
  obtain rfl := hfirst rfl
  obtain ⟨hstep,-,hmachine,-⟩ := calling_step hcalling
  rw [privRun,hs,Option.bind_some,hstep] at hs'
  obtain rfl := Option.some.inj hs'
  refine ⟨hmode.trans hmachine,(hread .mcause (by decide)).trans ?_⟩
  have hdelegated : userCalling.delegated (callCause userCalling.csrs.mode)=false := by
    unfold PrivState.delegated
    rw [hcalling.delegation]
    simp
  rw [raise_record _ _ _ (by rw [hdelegated]; decide),userCall_start.2.2.1]
  rfl

end RichardCore.PrivBench
