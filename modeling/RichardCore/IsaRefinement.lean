import RichardCore.FenceOrder
import RichardCore.IsaCorrectness
import RichardCore.IsaMachine
import RichardCore.StoreLoad
import RichardCore.TestBench

/-!
# The core runs base programs as the reference does

From single instructions to programs: as long as the reference machine has a
meaning for a program in memory and the program leaves its own instructions
alone, the sequential machine goes through the same states, and with it the
pipeline on the bench of the compliance runner, which fetches from the memory
it stores to.
-/

namespace RichardCore.IsaRefinement

open Packages Decoder Execute DataMemory CsrUnit TrapCtrl Pipeline Clocked Harness
open SequentialMachine Simulation Refinement Isa Datapath IsaCorrectness IsaMachine StoreLoad
open Timing TestBench FenceOrder

section Instruction

variable (i : Instr) (mode : BitVec 2)

/-- Base instructions are outside SYSTEM. -/
theorem encode_opcode : opcodeField (encode i)≠Opcode.system.bits := by
  cases i <;>
    simp only [encode,(rType_fields _ _ _ _ _ _).1,(iType_fields _ _ _ _ _).1,
      (uType_fields _ _ _).1] <;> decide

/-- They have no system action. -/
theorem decode_sys : (decoder (encode i) mode).sys=sysDefaults := by
  cases i with
  | lui rd imm => rw [decode_lui]
  | auipc rd imm => rw [decode_auipc]
  | jal rd offset => rw [decode_jal]
  | jalr rd rs1 imm => rw [decode_jalr]
  | branch cond rs1 rs2 offset => rw [decode_branch]
  | load width rd rs1 imm => rw [decode_load]
  | store width rs1 rs2 imm => rw [decode_store]
  | op kind rd rs1 rs2 => rw [decode_op]
  | opImm kind rd rs1 imm => rw [decode_opImm]
  | shiftImm kind rd rs1 shamt => rw [decode_shiftImm]
  | op32 kind rd rs1 rs2 => rw [decode_op32]
  | addiw rd rs1 imm => rw [decode_addiw]
  | shiftImm32 kind rd rs1 shamt => rw [decode_shiftImm32]

/-- A record in MEM without a misaligned access, whose store has a defined
width. -/
structure AlignedAccess (e : ExMem) : Prop where
  /-- No misaligned load. -/
  load : loadAddrMisaligned e=false
  /-- No misaligned store. -/
  store : storeAddrMisaligned e=false
  /-- Width of a store. -/
  width : e.mem.isStore=true → ∃ width : StoreOp,e.mem.memSize=width.code

/-- Without memory control nothing is accessed. -/
theorem alignedAccess_of_idle {e : ExMem} (h : e.mem=memDefaults) : AlignedAccess e := by
  refine ⟨?_,?_,fun hstore => ?_⟩
  · unfold loadAddrMisaligned
    rw [h]
    rfl
  · unfold storeAddrMisaligned
    rw [h]
    rfl
  · rw [h] at hstore
    cases hstore

/-- Aligned accesses of the reference raise no fault in the memory stage. -/
theorem alignedAccess_encode (mode : PrivMode) (pc : Word) (regs : RegFile) (h : Aligned i regs) :
    AlignedAccess (exMemOf (idOf (encode i) mode pc regs)) := by
  have hidle : (decoder (encode i) mode.bits).mem=memDefaults →
      AlignedAccess (exMemOf (idOf (encode i) mode pc regs)) := fun hmem =>
    alignedAccess_of_idle hmem
  cases i with
  | lui rd imm => exact hidle (by rw [decode_lui])
  | auipc rd imm => exact hidle (by rw [decode_auipc])
  | jal rd offset => exact hidle (by rw [decode_jal])
  | jalr rd rs1 imm => exact hidle (by rw [decode_jalr])
  | branch cond rs1 rs2 offset => exact hidle (by rw [decode_branch])
  | load width rd rs1 imm =>
    have hfault : addrMisaligned width.code (readReg regs rs1+imm.signExtend 64)=false :=
      load_aligned width h
    rw [exMemOf_access pc regs (decode_load _ _ _ _ _)]
    refine ⟨?_,rfl,fun hstore => by cases hstore⟩
    change (true && addrMisaligned _ _)=false
    rw [hfault]
    rfl
  | store width rs1 rs2 imm =>
    have hfault : addrMisaligned width.code (readReg regs rs1+imm.signExtend 64)=false :=
      store_aligned width h
    rw [exMemOf_access pc regs (decode_store _ _ _ _ _)]
    refine ⟨rfl,?_,fun _ => ⟨width,rfl⟩⟩
    change (true && addrMisaligned _ _)=false
    rw [hfault]
    rfl
  | op kind rd rs1 rs2 => exact hidle (by rw [decode_op])
  | opImm kind rd rs1 imm => exact hidle (by rw [decode_opImm])
  | shiftImm kind rd rs1 shamt => exact hidle (by rw [decode_shiftImm])
  | op32 kind rd rs1 rs2 => exact hidle (by rw [decode_op32])
  | addiw rd rs1 imm => exact hidle (by rw [decode_addiw])
  | shiftImm32 kind rd rs1 shamt => exact hidle (by rw [decode_shiftImm32])

end Instruction

/-- The sequential machine and the reference machine are in the same state. -/
structure SameState (c : SeqState ByteMemory) (s : IsaState) : Prop where
  /-- Program counter. -/
  pc : c.pc=s.pc
  /-- Registers. -/
  regs : c.regs=s.regs
  /-- Memory. -/
  memory : c.memory=s.memory

/-- A write of the register file is a write-back of the reference. -/
theorem regfileWrite_writeBack (regs : RegFile) (w : WbOut) :
    regfileWrite regs w=
      writeBack regs (if w.regWriteEn then some (w.rdAddr,w.rdWdata) else none) := by
  unfold regfileWrite writeBack
  cases w.regWriteEn with
  | false => rfl
  | true =>
    by_cases hzero : w.rdAddr=0
    · rw [if_neg fun hcond => hcond.2 hzero]
      funext a
      exact (if_neg fun hcond => hcond.2 hzero).symm
    · rw [if_pos ⟨rfl,hzero⟩]
      funext a
      by_cases ha : a=w.rdAddr
      · rw [if_pos ha]
        exact (if_pos ⟨ha,hzero⟩).symm
      · rw [if_neg ha]
        exact (if_neg fun hcond => ha hcond.1).symm

/-- One instruction of the sequential machine is one of the reference. -/
theorem seqStep_isa {imem : Word → BitVec 32} {c : SeqState ByteMemory} {s : IsaState}
    (hsame : SameState c s) {i : Instr} (hword : imem c.pc=encode i) (hpc : s.pc.toNat%4=0)
    (haligned : Aligned i s.regs) :
    SameState (seqStep imem byteDevice c) (s.execute i) := by
  obtain ⟨hpcEq,hregs,hmemory⟩ := hsame
  have hstage := (instruction_correct i c.csr.privMode s.pc s.regs s.memory
    (csrRdata c.csr (csrAddr (seqMem imem byteDevice c))) haligned).2 (by omega)
  have hid : seqId imem c=idOf (encode i) c.csr.privMode s.pc s.regs := by
    unfold seqId
    rw [hword,hpcEq,hregs]
  have haccess := alignedAccess_encode i c.csr.privMode s.pc s.regs haligned
  have hex : seqEx imem c=exMemOf (idOf (encode i) c.csr.privMode s.pc s.regs) :=
    congrArg exMemOf hid
  refine ⟨?_,?_,?_⟩
  · have hnext := congrArg (fun out => out.nextPc) hstage
    refine Eq.trans ?_ hnext
    change seqNextPc imem c=if (exMemOf _).branchTaken then (exMemOf _).branchTarget else s.pc+4
    rw [←hex,←hpcEq]
    rfl
  · have hwrite := congrArg (fun out => writeBack s.regs out.write) hstage
    refine Eq.trans ?_ hwrite
    change regfileWrite c.regs (seqWb imem byteDevice c)=_
    rw [regfileWrite_writeBack,hregs]
    have hmem : seqMem imem byteDevice c=
        memStage (exMemOf (idOf (encode i) c.csr.privMode s.pc s.regs))
          (byteDevice.read s.memory
            (dmemRequest (exMemOf (idOf (encode i) c.csr.privMode s.pc s.regs)))) := by
      unfold seqMem seqReq
      rw [hex,hmemory]
    unfold stageOutcome
    dsimp only
    rw [←hmem]
    rfl
  · have hstored := congrArg (fun out => out.memory) hstage
    refine Eq.trans ?_ hstored
    change byteDevice.edge c.memory (dmemRequest (seqEx imem c))=_
    unfold stageOutcome DataDevice.edge
    dsimp only
    rw [hex,hmemory]
    split
    · rename_i hwriteEn
      have hstore : (exMemOf (idOf (encode i) c.csr.privMode s.pc s.regs)).mem.isStore=true :=
        (Bool.and_eq_true_iff.mp hwriteEn).1
      obtain ⟨width,hwidth⟩ := haccess.width hstore
      exact (stores_of_request hwriteEn hwidth).strobes.1 s.memory
    · rfl

/-- A memory image whose program the reference machine runs for ever, in a
code region that it does not store into. -/
structure Program (memory : ByteMemory) (code : Word → Prop) : Prop where
  /-- The reference machine does not stop. -/
  runs : ∀ n,(isaRun memory n).isSome=true
  /-- Every instruction executed is in the code region. -/
  inside : ∀ n s,isaRun memory n=some s → ∀ k < 4,code (s.pc+BitVec.ofNat 64 k)
  /-- The code region never changes. -/
  keeps : ∀ n s,isaRun memory n=some s → ∀ a,code a → s.memory a=memory a

section Programs

variable {memory : ByteMemory} {code : Word → Prop} (h : Program memory code)

include h

/-- Words in an unchanged code region are unchanged. -/
theorem Program.fetch {n m : ℕ} {s t : IsaState} (hs : isaRun memory n=some s)
    (ht : isaRun memory m=some t) : readU32 s.memory t.pc=readU32 memory t.pc := by
  unfold readU32
  refine readBytes_congr _ fun k hk => ?_
  exact h.keeps n s hs _ (h.inside m t ht k hk)

/-- The reference machine executes an aligned instruction of the image. -/
theorem Program.step {n : ℕ} {s : IsaState} (hs : isaRun memory n=some s) :
    ∃ i,s.pc.toNat%4=0 ∧ readU32 memory s.pc=encode i ∧ Aligned i s.regs ∧
      isaRun memory (n+1)=some (s.execute i) := by
  obtain ⟨s',hs'⟩ := Option.isSome_iff_exists.mp (h.runs (n+1))
  have hstep : isaStep s=some s' := by
    rw [isaRun,hs] at hs'
    exact hs'
  obtain ⟨i,hpc,hword,haligned,rfl⟩ := isaStep_cases hstep
  rw [h.fetch hs hs] at hword
  exact ⟨i,hpc,hword,haligned,hs'⟩

/-- The sequential machine goes through the states of the reference
machine. -/
theorem Program.sameState (n : ℕ) :
    ∃ s,isaRun memory n=some s ∧ SameState ((runnerBench.setup memory).machine n) s := by
  induction n with
  | zero => exact ⟨_,rfl,rfl,rfl,rfl⟩
  | succ n ih =>
    obtain ⟨s,hs,hsame⟩ := ih
    obtain ⟨i,hpc,hword,haligned,hnext⟩ := h.step hs
    have hfetched : (runnerBench.setup memory).imem ((runnerBench.setup memory).machine n).pc=
        encode i := by
      rw [hsame.pc]
      exact hword
    exact ⟨s.execute i,hnext,seqStep_isa hsame hfetched hpc haligned⟩

/-- Its instructions are plain. -/
theorem Program.plain (n : ℕ) : Plain (runnerBench.setup memory) n := by
  obtain ⟨s,hs,hsame⟩ := h.sameState n
  obtain ⟨i,-,hword,haligned,-⟩ := h.step hs
  have hdecoded : (runnerBench.setup memory).decoded n=idOf (encode i) .m s.pc s.regs := by
    have hfetched : (runnerBench.setup memory).imem ((runnerBench.setup memory).machine n).pc=
        encode i := by
      rw [hsame.pc]
      exact hword
    unfold Setup.decoded seqId
    rw [hfetched,machine_privMode,hsame.pc,hsame.regs]
  have haccess := alignedAccess_encode i .m s.pc s.regs haligned
  have hexecuted : (runnerBench.setup memory).executed n=
      exMemOf (idOf (encode i) .m s.pc s.regs) := congrArg exMemOf hdecoded
  refine ⟨?_,?_,?_,?_⟩
  · rw [hdecoded]
    exact encode_opcode i
  · rw [hdecoded]
    exact congrArg (fun c => c.illegalInstr) (decode_sys i PrivMode.m.bits)
  · rw [hexecuted]
    exact haccess.load
  · rw [hexecuted]
    exact haccess.store

/-- Its stores leave its instructions alone. -/
theorem Program.codeStable : runnerBench.CodeStable memory := by
  intro n m _
  obtain ⟨s,hs,hsame⟩ := h.sameState m
  obtain ⟨t,ht,hsame'⟩ := h.sameState n
  change readU32 _ _=readU32 _ _
  rw [hsame.memory,hsame'.pc]
  exact h.fetch hs ht

end Programs

/-- The compliance bench runs every program of base instructions as the
reference machine does, as long as the reference machine does not stop and
the program leaves its code alone: between any two ticks memory and registers
are those of the reference machine after the instructions whose issue cycle
is past and past by more than two cycles. -/
theorem runner_runs_isa (memory : ByteMemory) (code : Word → Prop) (h : Program memory code)
    (t : ℕ) :
    ∃ stored written s s',isaRun memory stored=some s ∧ isaRun memory written=some s' ∧
      (runnerBench.state memory t).memory=s.memory ∧
      (runnerBench.state memory t).core.regs=s'.regs ∧
      (∀ n,n < stored ↔ issueCycle (runnerBench.setup memory) n < t) ∧
      ∀ n,n < written ↔ issueCycle (runnerBench.setup memory) n+2 < t := by
  have hp := regular_of_plain (runnerBench.setup memory) h.plain
  obtain ⟨s,hs,hsame⟩ := h.sameState (issued (runnerBench.setup memory) t)
  obtain ⟨s',hs',hsame'⟩ := h.sameState (retired (runnerBench.setup memory) t)
  have hmemory := state_memory runner_idleReads hp h.codeStable t
  have hregs := state_regs runner_idleReads hp h.codeStable t
  exact ⟨_,_,s,s',hs,hs',hmemory.trans hsame.memory,hregs.trans hsame'.regs,
    fun n => (ex_onSchedule hp).lt_tally n t,fun n => (wb_onSchedule hp).lt_tally n t⟩

/-- `addi x5,x0,1; sd x5,256(x0); jal x0,0`: store one to address 256, then
loop. -/
def storeAndLoop : ByteMemory :=
  loadSegment resetPc
    [0x93,0x02,0x10,0x00, 0x23,0x30,0x50,0x10, 0x6f,0x00,0x00,0x00]

/-- State of the reference machine in the loop. -/
def loopState : IsaState :=
  ⟨resetPc+8,fun a => if a=5 ∧ (5 : RegAddr)≠0 then 1 else 0,storeValue storeAndLoop 256 8 1⟩

/-- State before the loop. -/
theorem isaRun_loop_start :
    ∃ s,isaRun storeAndLoop 1=some s ∧ s.pc=resetPc+4 ∧ s.memory=storeAndLoop ∧
      isaStep s=some loopState := by
  have hadd : (IsaState.mk resetPc (fun _ => 0) storeAndLoop).fetch=some (.opImm .addi 5 0 1) := by
    decide +kernel
  have hone := isaStep_fetch hadd trivial
  refine ⟨_,hone,rfl,rfl,?_⟩
  have hstore : ((IsaState.mk resetPc (fun _ => 0) storeAndLoop).execute
      (.opImm .addi 5 0 1)).fetch=some (.store .sd 0 5 256) := by decide +kernel
  exact isaStep_fetch hstore (by decide)

/-- The loop is reached after two instructions and left by none. -/
theorem isaRun_storeAndLoop (n : ℕ) : isaRun storeAndLoop (n+2)=some loopState := by
  induction n with
  | zero =>
    obtain ⟨s,hs,-,-,hstep⟩ := isaRun_loop_start
    rw [isaRun,hs]
    exact hstep
  | succ n ih =>
    have hfetch : loopState.fetch=some (.jal 0 0) := by decide +kernel
    have hstep := isaStep_fetch hfetch trivial
    rw [isaRun,ih]
    change isaStep loopState=some loopState
    rw [hstep]
    have hregs : writeBack loopState.regs (some (0,loopState.pc+4))=loopState.regs := by
      funext a
      exact if_neg fun hcond => hcond.2 rfl
    change some (IsaState.mk _ (writeBack loopState.regs (some (0,loopState.pc+4))) _)=_
    rw [hregs]
    rfl

/-- The twelve bytes of the program. -/
def storeAndLoopCode (a : Word) : Prop := resetPc.toNat≤a.toNat ∧ a.toNat < resetPc.toNat+12

/-- The program runs for ever and leaves its code alone. -/
theorem storeAndLoop_program : Program storeAndLoop storeAndLoopCode := by
  have hstates : ∀ n s,isaRun storeAndLoop n=some s →
      (s.pc=resetPc ∨ s.pc=resetPc+4 ∨ s.pc=resetPc+8) ∧
      (s.memory=storeAndLoop ∨ s.memory=storeValue storeAndLoop 256 8 1) := by
    intro n s hs
    match n with
    | 0 =>
      obtain rfl := Option.some.inj hs
      exact ⟨.inl rfl,.inl rfl⟩
    | 1 =>
      obtain ⟨s',hs',hpc,hmemory,-⟩ := isaRun_loop_start
      obtain rfl := Option.some.inj (hs.symm.trans hs')
      exact ⟨.inr (.inl hpc),.inl hmemory⟩
    | n+2 =>
      obtain rfl := Option.some.inj (hs.symm.trans (isaRun_storeAndLoop n))
      exact ⟨.inr (.inr rfl),.inr rfl⟩
  refine ⟨fun n => ?_,fun n s hs k hk => ?_,fun n s hs a ha => ?_⟩
  · match n with
    | 0 => rfl
    | 1 =>
      obtain ⟨s,hs,-⟩ := isaRun_loop_start
      rw [hs]
      rfl
    | n+2 =>
      rw [isaRun_storeAndLoop]
      rfl
  · obtain ⟨hpc,-⟩ := hstates n s hs
    unfold storeAndLoopCode
    obtain hpc | hpc | hpc := hpc <;> rw [hpc] <;> interval_cases k <;> decide
  · obtain ⟨-,hmemory | hmemory⟩ := hstates n s hs
    · rw [hmemory]
    · rw [hmemory]
      refine if_neg ?_
      obtain ⟨hlow,hhigh⟩ := ha
      change 0x80000000≤a.toNat at hlow
      rw [BitVec.toNat_sub]
      change ¬(2^64-256+a.toNat)%2^64 < 8
      have hlt := a.isLt
      omega

/-- After eight ticks the store has been performed. -/
theorem runner_runs_storeAndLoop :
    (runnerBench.state storeAndLoop 8).memory=storeValue storeAndLoop 256 8 1 := by
  obtain ⟨stored,-,s,-,hs,-,hmemory,-,hstored,-⟩ := runner_runs_isa storeAndLoop storeAndLoopCode
    storeAndLoop_program 8
  have hone : 1 < stored := (hstored 1).mpr (by decide +kernel)
  obtain ⟨n,rfl⟩ : ∃ n,stored=n+2 := ⟨stored-2,by omega⟩
  rw [isaRun_storeAndLoop] at hs
  rw [hmemory,←Option.some.inj hs]
  rfl

end RichardCore.IsaRefinement
