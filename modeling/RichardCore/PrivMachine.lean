import RichardCore.CsrTraps
import RichardCore.IsaMachine
import RichardCore.Legality

/-!
# Machine of the privileged architecture

The base machine extended by privilege modes: CSR instructions on the
reference store, calls, breakpoints, illegal words and misaligned accesses
with their traps, delegation to supervisor mode, and the two returns. The
machine has no meaning for misaligned instruction addresses, for reserved
words that the core takes for an instruction and for plain reads of read-only
registers, which the core rejects.
-/

namespace RichardCore.PrivMachine

open Packages Decoder DataMemory Isa Encodings Legality IsaMachine CsrStore CsrTraps AliasedStore

/-- The instruction outside the base set that a word encodes. -/
def decodeSys (word : BitVec 32) : Option SysInstr :=
  let rd := rdField word
  let rs1 := rs1Field word
  let imm := csrAddrField word
  match Opcode.ofBits (opcodeField word) with
  | some .miscMem =>
    if funct3 word=0b000 then some (.fence imm rs1 rd)
    else if funct3 word=0b001 then some (.fenceI imm rs1 rd)
    else none
  | some .system =>
    if funct3 word=0 then
      if rd≠0 then none
      else if funct7 word=sfenceCode then some (.sfenceVma rs1 (rs2Field word))
      else if rs1=0 then (PrivOp.all.find? fun op => op.code=imm).map .priv
      else none
    else (CsrOp.all.find? fun op => op.code=funct3 word).map fun op => .csr op imm rs1 rd
  | _ => none

/-- Encoded instructions decode to themselves. -/
theorem decodeSys_encodeSys (i : SysInstr) : decodeSys (encodeSys i)=some i := by
  unfold decodeSys
  cases i with
  | fence imm rs1 rd =>
    obtain ⟨hop,hrd,hf3,hrs1,-⟩ := iType_fields rs1 rd 0b000 imm .miscMem
    rw [encodeSys,hop,Opcode.ofBits_bits,hf3,hrd,hrs1,csrAddrField_iType]
    rfl
  | fenceI imm rs1 rd =>
    obtain ⟨hop,hrd,hf3,hrs1,-⟩ := iType_fields rs1 rd 0b001 imm .miscMem
    rw [encodeSys,hop,Opcode.ofBits_bits,hf3,hrd,hrs1,csrAddrField_iType]
    rfl
  | csr op addr source rd =>
    obtain ⟨hop,hrd,hf3,hrs1,-⟩ := iType_fields source rd op.code addr .system
    rw [encodeSys,hop,Opcode.ofBits_bits,hf3,hrd,hrs1,csrAddrField_iType]
    cases op <;> rfl
  | priv op =>
    obtain ⟨hop,hrd,hf3,hrs1,-,hf7⟩ := iType_fields 0 0 0b000 op.code .system
    rw [encodeSys,hop,Opcode.ofBits_bits,hf3,hrd,hrs1,hf7,csrAddrField_iType]
    cases op <;> rfl
  | sfenceVma rs1 rs2 =>
    obtain ⟨hop,hrd,hf3,hrs1,hrs2,hf7⟩ := rType_fields sfenceCode rs1 rs2 0 0b000 .system
    rw [encodeSys,hop,Opcode.ofBits_bits,hf3,hrd,hrs1,hrs2,hf7]
    rfl

/-- Words that decode are encodings. -/
theorem decodeSys_defined {word : BitVec 32} {i : SysInstr} (h : decodeSys word=some i) :
    ∃ j,encodeSys j=word := by
  unfold decodeSys at h
  cases hcode : Opcode.ofBits (opcodeField word) with
  | none =>
    rw [hcode] at h
    cases h
  | some opcode =>
    rw [hcode] at h
    have hop := (Opcode.bits_of_ofBits hcode).symm
    have hword := iType_of_fields word hop
    cases opcode with
    | miscMem =>
      dsimp only at h
      split_ifs at h with hfence hfenceI
      · rw [hfence] at hword
        exact ⟨.fence (csrAddrField word) (rs1Field word) (rdField word),hword⟩
      · rw [hfenceI] at hword
        exact ⟨.fenceI (csrAddrField word) (rs1Field word) (rdField word),hword⟩
    | system =>
      dsimp only at h
      split_ifs at h with hf3 hrd hf7 hrs1
      · have hfields := rType_of_fields word hop
        rw [hf3,hf7,of_not_not hrd] at hfields
        exact ⟨.sfenceVma (rs1Field word) (rs2Field word),hfields⟩
      · obtain ⟨op,-,hfound⟩ := List.any_eq_true.mp (any_of_find? h)
        rw [hf3,hrs1,of_not_not hrd,←of_decide_eq_true hfound] at hword
        exact ⟨.priv op,hword⟩
      · obtain ⟨op,-,hfound⟩ := List.any_eq_true.mp (any_of_find? h)
        rw [←of_decide_eq_true hfound] at hword
        exact ⟨.csr op (csrAddrField word) (rs1Field word) (rdField word),hword⟩
    | _ => cases h

/-- A word decodes to an instruction exactly when it is its encoding. -/
theorem decodeSys_iff (word : BitVec 32) (i : SysInstr) :
    decodeSys word=some i ↔ encodeSys i=word := by
  constructor
  · intro h
    obtain ⟨j,rfl⟩ := decodeSys_defined h
    rw [decodeSys_encodeSys] at h
    rw [Option.some.inj h]
  · rintro rfl
    exact decodeSys_encodeSys i

/-- State of the machine. -/
structure PrivState where
  /-- Program counter. -/
  pc : Word
  /-- Registers. -/
  regs : RegAddr → Word
  /-- Memory, instructions included. -/
  memory : ByteMemory
  /-- CSRs and privilege mode. -/
  csrs : RefState

/-- Value of a CSR. -/
def PrivState.read (s : PrivState) (csr : Csr) : Word := layout.read s.csrs.store csr

/-- Counters after an instruction that does not complete: all but the
instruction counter move on. -/
def uncounted (store : Store) : Store := layout.assign store (tick store) .minstret fun _ b => b

/-- An exception goes to supervisor mode if it is taken below machine mode
and medeleg names its cause. -/
def PrivState.delegated (s : PrivState) (cause : Word) : Bool :=
  decide (s.csrs.mode≠.m) && (s.read .medeleg).getLsbD cause.toNat

/-- Trap: continue at the vector of the target mode. -/
def PrivState.raise (s : PrivState) (cause value : Word) : PrivState where
  pc := s.read (if s.delegated cause then .stvec else .mtvec)&&&~~~3#64
  regs := s.regs
  memory := s.memory
  csrs := refTrap s.csrs (uncounted s.csrs.store) (s.delegated cause) s.pc cause value

/-- Cause of an environment call. -/
def callCause : PrivMode → Word
  | .u => excEcallFromU
  | .s => excEcallFromS
  | .m => excEcallFromM

/-- Continue behind an instruction with other registers and CSRs. -/
def PrivState.proceed (s : PrivState) (regs : RegAddr → Word) (store : Store) : PrivState :=
  ⟨s.pc+4,regs,s.memory,⟨store,s.csrs.mode⟩⟩

/-- Operand of a CSR instruction: a register or the field itself. -/
def csrOperand (op : CsrOp) (regs : RegAddr → Word) (source : RegAddr) : Word :=
  if op.code.getLsbD 2 then source.setWidth 64 else reg regs source

/-- Effect of a CSR instruction on its register. -/
def CsrOp.effect : CsrOp → Op
  | .rw | .rwi => .replace
  | .rs | .rsi => .orIn
  | .rc | .rci => .andNot

/-- CSRs after a CSR instruction; without bits to set or clear it writes
nothing. -/
def access (store : Store) (op : CsrOp) (csr : Csr) (data : Word) : Store :=
  if CsrOp.effect op=.replace ∨ data≠0 then written store csr (CsrOp.effect op) data
  else tick store

/-- One instruction outside the base set, where it is permitted. -/
def PrivState.system (s : PrivState) (i : SysInstr) : Option PrivState :=
  match i with
  | .fence _ _ _ | .fenceI _ _ _ | .sfenceVma _ _ | .priv .wfi =>
    some (s.proceed s.regs (tick s.csrs.store))
  | .priv .ecall => some (s.raise (callCause s.csrs.mode) 0)
  | .priv .ebreak => some (s.raise excBreakpoint s.pc)
  | .priv .mret => some ⟨s.read .mepc,s.regs,s.memory,refMret s.csrs (tick s.csrs.store)⟩
  | .priv .sret => some ⟨s.read .sepc,s.regs,s.memory,refSret s.csrs (tick s.csrs.store)⟩
  | .csr op addr source rd =>
    match Csr.ofAddr addr with
    | none => some (s.raise excInstIllegal ((encodeSys i).setWidth 64))
    | some csr =>
      if readOnly csr then
        if CsrOp.effect op=.replace ∨ source≠0 then
          some (s.raise excInstIllegal ((encodeSys i).setWidth 64))
        else none
      else
        some (s.proceed (writeBack s.regs (some (rd,s.read csr)))
          (access s.csrs.store op csr (csrOperand op s.regs source)))

/-- Cause and address of a misaligned access. -/
def misaligned (i : Instr) (regs : RegAddr → Word) : Word × Word :=
  match i with
  | .load _ _ rs1 imm => (excLoadFault,reg regs rs1+imm.signExtend 64)
  | .store _ rs1 _ imm => (excStoreFault,reg regs rs1+imm.signExtend 64)
  | _ => (0,0)

/-- One base instruction. -/
def PrivState.base (s : PrivState) (i : Instr) : PrivState :=
  if Aligned i s.regs then
    let out := isaOutcome i s.pc s.regs s.memory
    ⟨out.nextPc,writeBack s.regs out.write,out.memory,⟨tick s.csrs.store,s.csrs.mode⟩⟩
  else s.raise (misaligned i s.regs).1 (misaligned i s.regs).2

/-- One instruction, if it has a meaning. -/
def privStep (s : PrivState) : Option PrivState :=
  let word := readU32 s.memory s.pc
  if s.pc.toNat%4≠0 ∨ acceptsReserved word s.csrs.mode=true then none
  else
    match decodeInstr word with
    | some i => some (s.base i)
    | none =>
      match decodeSys word with
      | some i =>
        if i.permitted s.csrs.mode then s.system i
        else some (s.raise excInstIllegal (word.setWidth 64))
      | none => some (s.raise excInstIllegal (word.setWidth 64))

/-- Instructions outside the base set that trap or return where they are
permitted. -/
def leavesSys : SysInstr → Bool
  | .fence _ _ _ | .fenceI _ _ _ | .sfenceVma _ _ | .priv .wfi => false
  | .priv _ => true
  | .csr _ addr _ _ =>
    match Csr.ofAddr addr with
    | some csr => readOnly csr
    | none => true

/-- The next instruction traps or returns. -/
def PrivState.leaves (s : PrivState) : Bool :=
  match decodeInstr (readU32 s.memory s.pc) with
  | some i => !decide (Aligned i s.regs)
  | none =>
    match decodeSys (readU32 s.memory s.pc) with
    | some i => !i.permitted s.csrs.mode || leavesSys i
    | none => true

/-- State before instruction `n` of the program in a memory, entered in
machine mode at the reset address. -/
def privRun (memory : ByteMemory) : ℕ → Option PrivState
  | 0 => some ⟨0x80000000,fun _ => 0,memory,⟨storeReset,.m⟩⟩
  | n+1 => (privRun memory n).bind privStep

/-- Registers whose bits agree read alike. -/
theorem read_congr {store store' : Store} {c : Csr}
    (h : ∀ j < 64,layout.bit store c j=layout.bit store' c j) :
    layout.read store c=layout.read store' c := by
  refine layout.read_eq fun j hj => ?_
  rw [layout.getLsbD_read _ _ hj,h j hj]

/-- A register that neither counts nor holds status bits, nor records the
trap, reads the same behind it. -/
theorem raise_read (s : PrivState) (cause value : Word) {c : Csr} (hcount : owner c∉counters)
    (hstatus : owner c≠.mstatus) (hregs : c∉trapRegs (s.delegated cause)) :
    (s.raise cause value).read c=s.read c := by
  refine read_congr fun j _ => ?_
  have hinstret : owner Csr.minstret≠owner c := fun heq => hcount (by
    rw [←heq]
    decide)
  unfold PrivState.raise refTrap
  dsimp only
  rw [bit_record_frame _ _ _ _ _ hregs]
  have hnext : layout.bit (uncounted s.csrs.store) c j=layout.bit s.csrs.store c j := by
    unfold uncounted
    rw [layout.bit_assign_frame _ _ _ fun k _ => not_shares hinstret k j,
      bit_tick_frame _ hcount]
  split
  · rw [bit_setStatus_frame (.inr rfl) _ _ _ hstatus,hnext]
  · rw [bit_setStatus_frame (.inl rfl) _ _ _ hstatus,hnext]

/-- The recording registers read what the trap is about. -/
theorem raise_record (s : PrivState) (cause value : Word) {c : Csr}
    (hregs : c∈trapRegs (s.delegated cause)) :
    (s.raise cause value).read c=trapWord s.pc cause value c := by
  refine layout.read_eq fun j hj => ?_
  exact (bit_record_self _ _ _ _ _ hregs hj).symm

/-- A permitted instruction outside the base set is executed. -/
theorem privStep_system {s : PrivState} {word : BitVec 32} {i : SysInstr}
    (hword : readU32 s.memory s.pc=word) (hpc : s.pc.toNat%4=0)
    (hreserved : acceptsReserved word s.csrs.mode=false) (hbase : decodeInstr word=none)
    (hsys : decodeSys word=some i) (hpermitted : i.permitted s.csrs.mode=true) :
    privStep s=s.system i := by
  have hgo : ¬(s.pc.toNat%4≠0 ∨ acceptsReserved word s.csrs.mode=true) := by
    rw [hreserved]
    simp [hpc]
  unfold privStep
  dsimp only
  rw [hword,if_neg hgo,hbase,hsys]
  exact if_pos hpermitted

/-- What a step may be. -/
inductive PrivCase (s : PrivState) (word : BitVec 32) : PrivState → Prop where
  /-- Base instruction. -/
  | base (i : Instr) (hword : word=encode i) : PrivCase s word (s.base i)
  /-- Permitted instruction outside the base set. -/
  | system (i : SysInstr) (hword : word=encodeSys i) (hpermitted : i.permitted s.csrs.mode=true)
      {s' : PrivState} (hstep : s.system i=some s') : PrivCase s word s'
  /-- Any other word. -/
  | illegal (hundefined : ¬Defined word s.csrs.mode) :
      PrivCase s word (s.raise excInstIllegal (word.setWidth 64))

/-- A step happens at an aligned address, on a word that is not reserved, and
is one of the three. -/
theorem privStep_cases {s s' : PrivState} (h : privStep s=some s') :
    s.pc.toNat%4=0 ∧ acceptsReserved (readU32 s.memory s.pc) s.csrs.mode=false ∧
      PrivCase s (readU32 s.memory s.pc) s' := by
  unfold privStep at h
  dsimp only at h
  split_ifs at h with hstop
  rw [not_or,not_not,Bool.not_eq_true] at hstop
  refine ⟨hstop.1,hstop.2,?_⟩
  have hsystem : ∀ i : SysInstr,encodeSys i=readU32 s.memory s.pc →
      decodeSys (readU32 s.memory s.pc)=some i := fun i hi => (decodeSys_iff _ i).mpr hi
  cases hbase : decodeInstr (readU32 s.memory s.pc) with
  | some i =>
    rw [hbase] at h
    obtain rfl := Option.some.inj h
    exact .base i ((decodeInstr_iff _ i).mp hbase).symm
  | none =>
    rw [hbase] at h
    have hnotBase : ¬∃ i : Instr,encode i=readU32 s.memory s.pc := by
      rintro ⟨i,hi⟩
      rw [(decodeInstr_iff _ i).mpr hi] at hbase
      cases hbase
    dsimp only at h
    cases hsys : decodeSys (readU32 s.memory s.pc) with
    | some i =>
      rw [hsys] at h
      dsimp only at h
      split_ifs at h with hpermitted
      · exact .system i ((decodeSys_iff _ i).mp hsys).symm hpermitted h
      · obtain rfl := Option.some.inj h
        refine .illegal ?_
        rintro (hi | ⟨j,hj,hallowed⟩)
        · exact hnotBase hi
        · have hsame := (hsystem j hj).symm.trans hsys
          rw [Option.some.inj hsame] at hallowed
          exact hpermitted hallowed
    | none =>
      rw [hsys] at h
      obtain rfl := Option.some.inj h
      refine .illegal ?_
      rintro (hi | ⟨j,hj,-⟩)
      · exact hnotBase hi
      · have hfound := (hsystem j hj).symm.trans hsys
        cases hfound

end RichardCore.PrivMachine
