import RichardCore.Encodings

/-!
# Machine of the base instruction set

Programs in memory under the reference semantics: an instruction is fetched
as the four bytes at the program counter, decoded, and its outcome applied to
registers and memory. The machine stops where the reference has no meaning:
at words that encode no base instruction, at misaligned instruction addresses
and at misaligned accesses. Decoding is the inverse of encoding.
-/

namespace RichardCore.IsaMachine

open Packages Decoder DataMemory Isa Encodings

/-- Offset of the outer fields of a branch. -/
def branchFields (f7 : BitVec 7) (rd : BitVec 5) : BitVec 12 :=
  f7.extractLsb' 6 1++rd.extractLsb' 0 1++f7.extractLsb' 0 6++rd.extractLsb' 1 4

/-- Offset of the twenty-bit field of a jump. -/
def jumpFields (imm : BitVec 20) : BitVec 20 :=
  imm.extractLsb' 19 1++imm.extractLsb' 0 8++imm.extractLsb' 8 1++imm.extractLsb' 9 10

/-- The base instruction a word encodes. -/
def decodeInstr (word : BitVec 32) : Option Instr :=
  let rd := rdField word
  let rs1 := rs1Field word
  let rs2 := rs2Field word
  let imm := csrAddrField word
  let f3 := funct3 word
  let f7 := funct7 word
  match Opcode.ofBits (opcodeField word) with
  | some .lui => some (.lui rd (word.extractLsb' 12 20))
  | some .auipc => some (.auipc rd (word.extractLsb' 12 20))
  | some .jal => some (.jal rd (jumpFields (word.extractLsb' 12 20)))
  | some .jalr => if f3=0 then some (.jalr rd rs1 imm) else none
  | some .branch =>
    (conds.find? fun c => c.code=f3).map fun c => .branch c rs1 rs2 (branchFields f7 rd)
  | some .load => (loadOps.find? fun l => l.code=f3).map fun l => .load l rd rs1 imm
  | some .store => (storeOps.find? fun l => l.code=f3).map fun l => .store l rs1 rs2 (f7++rd)
  | some .op => (regOps.find? fun k => k.codes=(f7,f3)).map fun k => .op k rd rs1 rs2
  | some .op32 => (wordOps.find? fun k => k.codes=(f7,f3)).map fun k => .op32 k rd rs1 rs2
  | some .opImm =>
    match immOps.find? fun k => k.code=f3 with
    | some k => some (.opImm k rd rs1 imm)
    | none =>
      (shiftOps.find? fun k => k.codes=(imm.extractLsb' 6 6,f3)).map fun k =>
        .shiftImm k rd rs1 (imm.extractLsb' 0 6)
  | some .opImm32 =>
    if f3=0 then some (.addiw rd rs1 imm)
    else
      (shiftOps.find? fun k => (k.codes.1++0#1,k.codes.2)=(f7,f3)).map fun k =>
        .shiftImm32 k rd rs1 rs2
  | _ => none

section Fields

/-- The twenty-bit field of its layout. -/
theorem uType_field (imm : BitVec 20) (rd : RegAddr) (opcode : Opcode) :
    (uType imm rd opcode).extractLsb' 12 20=imm := by
  unfold uType
  iterate 2 rw [BitVec.extractLsb'_append_eq_of_le (by decide)]
  exact BitVec.extractLsb'_eq_self

/-- The outer fields of a branch give its offset back. -/
theorem branchFields_split (offset : BitVec 12) :
    branchFields (offset.extractLsb' 11 1++offset.extractLsb' 4 6)
      (offset.extractLsb' 0 4++offset.extractLsb' 10 1)=offset := by
  unfold branchFields
  apply BitVec.eq_of_getLsbD_eq
  intro j hj
  simp only [BitVec.getLsbD_append,BitVec.getLsbD_extractLsb']
  interval_cases j <;> simp

/-- The field of a jump gives its offset back. -/
theorem jumpFields_split (offset : BitVec 20) :
    jumpFields (offset.extractLsb' 19 1++offset.extractLsb' 0 10++offset.extractLsb' 10 1++
      offset.extractLsb' 11 8)=offset := by
  unfold jumpFields
  apply BitVec.eq_of_getLsbD_eq
  intro j hj
  simp only [BitVec.getLsbD_append,BitVec.getLsbD_extractLsb']
  interval_cases j <;> simp

end Fields

/-- Encoded instructions decode to themselves. -/
theorem decodeInstr_encode (i : Instr) : decodeInstr (encode i)=some i := by
  unfold decodeInstr
  cases i with
  | lui rd imm =>
    obtain ⟨hop,hrd,-⟩ := uType_fields rd imm .lui
    rw [encode,hop,Opcode.ofBits_bits,hrd,uType_field]
  | auipc rd imm =>
    obtain ⟨hop,hrd,-⟩ := uType_fields rd imm .auipc
    rw [encode,hop,Opcode.ofBits_bits,hrd,uType_field]
  | jal rd offset =>
    obtain ⟨hop,hrd,-⟩ := uType_fields rd (offset.extractLsb' 19 1++offset.extractLsb' 0 10++
      offset.extractLsb' 10 1++offset.extractLsb' 11 8) .jal
    rw [encode,hop,Opcode.ofBits_bits,hrd,uType_field]
    dsimp only
    rw [jumpFields_split]
  | jalr rd rs1 imm =>
    obtain ⟨hop,hrd,hf3,hrs1,-⟩ := iType_fields rs1 rd 0b000 imm .jalr
    rw [encode,hop,Opcode.ofBits_bits,hf3,hrd,hrs1,csrAddrField_iType]
    rfl
  | branch cond rs1 rs2 offset =>
    obtain ⟨hop,hrd,hf3,hrs1,hrs2,hf7⟩ := rType_fields (offset.extractLsb' 11 1++offset.extractLsb' 4 6)
      rs1 rs2 (offset.extractLsb' 0 4++offset.extractLsb' 10 1) cond.code .branch
    rw [encode,hop,Opcode.ofBits_bits,hf3,hrd,hrs1,hrs2,hf7]
    dsimp only
    rw [branchFields_split]
    cases cond <;> rfl
  | load width rd rs1 imm =>
    obtain ⟨hop,hrd,hf3,hrs1,-⟩ := iType_fields rs1 rd width.code imm .load
    rw [encode,hop,Opcode.ofBits_bits,hf3,hrd,hrs1,csrAddrField_iType]
    cases width <;> rfl
  | store width rs1 rs2 imm =>
    obtain ⟨hop,hrd,hf3,hrs1,hrs2,hf7⟩ := rType_fields (imm.extractLsb' 5 7) rs1 rs2
      (imm.extractLsb' 0 5) width.code .store
    have himm : imm.extractLsb' 5 7++imm.extractLsb' 0 5=imm := by
      rw [BitVec.extractLsb'_append_extractLsb'_eq_extractLsb' (by decide)]
      exact BitVec.extractLsb'_eq_self
    rw [encode,hop,Opcode.ofBits_bits,hf3,hrd,hrs1,hrs2,hf7]
    dsimp only
    rw [himm]
    cases width <;> rfl
  | op kind rd rs1 rs2 =>
    obtain ⟨hop,hrd,hf3,hrs1,hrs2,hf7⟩ := rType_fields kind.codes.1 rs1 rs2 rd kind.codes.2 .op
    rw [encode,hop,Opcode.ofBits_bits,hf3,hrd,hrs1,hrs2,hf7]
    cases kind <;> rfl
  | opImm kind rd rs1 imm =>
    obtain ⟨hop,hrd,hf3,hrs1,-⟩ := iType_fields rs1 rd kind.code imm .opImm
    rw [encode,hop,Opcode.ofBits_bits,hf3,hrd,hrs1,csrAddrField_iType]
    cases kind <;> rfl
  | shiftImm kind rd rs1 shamt =>
    obtain ⟨hop,hrd,hf3,hrs1,-⟩ := iType_fields rs1 rd kind.codes.2 (kind.codes.1++shamt) .opImm
    have hf6 : (kind.codes.1++shamt : BitVec 12).extractLsb' 6 6=kind.codes.1 :=
      BitVec.extractLsb'_append_eq_left
    have hshamt : (kind.codes.1++shamt : BitVec 12).extractLsb' 0 6=shamt :=
      BitVec.extractLsb'_append_eq_right
    rw [encode,hop,Opcode.ofBits_bits,hf3,hrd,hrs1,csrAddrField_iType]
    dsimp only
    rw [hf6,hshamt]
    cases kind <;> rfl
  | op32 kind rd rs1 rs2 =>
    obtain ⟨hop,hrd,hf3,hrs1,hrs2,hf7⟩ := rType_fields kind.codes.1 rs1 rs2 rd kind.codes.2 .op32
    rw [encode,hop,Opcode.ofBits_bits,hf3,hrd,hrs1,hrs2,hf7]
    cases kind <;> rfl
  | addiw rd rs1 imm =>
    obtain ⟨hop,hrd,hf3,hrs1,-⟩ := iType_fields rs1 rd 0b000 imm .opImm32
    rw [encode,hop,Opcode.ofBits_bits,hf3,hrd,hrs1,csrAddrField_iType]
    rfl
  | shiftImm32 kind rd rs1 shamt =>
    obtain ⟨hop,hrd,hf3,hrs1,-,hf7⟩ :=
      iType_fields rs1 rd kind.codes.2 (kind.codes.1++0#1++shamt) .opImm32
    have hcode : (kind.codes.1++0#1++shamt : BitVec 12).extractLsb' 5 7=kind.codes.1++0#1 :=
      BitVec.extractLsb'_append_eq_left
    have hrs2 : rs2Field (iType (kind.codes.1++0#1++shamt) rs1 kind.codes.2 rd .opImm32)=shamt := by
      have hsplit := csrAddrField_eq (iType (kind.codes.1++0#1++shamt) rs1 kind.codes.2 rd .opImm32)
      have hlow := congrArg (fun x => x.extractLsb' 0 5) hsplit
      rw [csrAddrField_iType] at hlow
      have hright : (kind.codes.1++0#1++shamt : BitVec 12).extractLsb' 0 5=shamt :=
        BitVec.extractLsb'_append_eq_right
      have hright' : ∀ (x : BitVec 7) (y : BitVec 5),(x++y).extractLsb' 0 5=y := fun _ _ =>
        BitVec.extractLsb'_append_eq_right
      exact (hright' _ _).symm.trans (hlow.symm.trans hright)
    rw [encode,hop,Opcode.ofBits_bits,hf3,hf7,hrd,hrs1,hrs2,hcode]
    cases kind <;> rfl

/-- A search that finds something has something to find. -/
theorem any_of_find? {α β : Type} {l : List α} {test : α → Bool} {f : α → β} {b : β}
    (h : (l.find? test).map f=some b) : l.any test=true := by
  obtain ⟨a,ha,-⟩ := Option.map_eq_some_iff.mp h
  exact List.any_eq_true.mpr ⟨a,List.mem_of_find?_eq_some ha,List.find?_some ha⟩

/-- Words that decode are encodings. -/
theorem decodeInstr_defined {word : BitVec 32} {i : Instr} (h : decodeInstr word=some i) :
    ∃ j,encode j=word := by
  unfold decodeInstr at h
  cases hcode : Opcode.ofBits (opcodeField word) with
  | none =>
    rw [hcode] at h
    cases h
  | some opcode =>
    rw [hcode] at h
    have hop := (Opcode.bits_of_ofBits hcode).symm
    cases opcode with
    | lui => exact ⟨.lui (rdField word) (word.extractLsb' 12 20),uType_of_fields word hop⟩
    | auipc => exact ⟨.auipc (rdField word) (word.extractLsb' 12 20),uType_of_fields word hop⟩
    | jal =>
      obtain ⟨offset,hoffset⟩ := jump_field (word.extractLsb' 12 20)
      refine ⟨.jal (rdField word) offset,?_⟩
      rw [encode,hoffset]
      exact uType_of_fields word hop
    | jalr =>
      dsimp only at h
      split_ifs at h with hf3
      have hword := iType_of_fields word hop
      rw [hf3] at hword
      exact ⟨.jalr (rdField word) (rs1Field word) (csrAddrField word),hword⟩
    | branch => exact encode_branch hop (any_of_find? h)
    | load =>
      obtain ⟨width,-,hf3⟩ := List.any_eq_true.mp (any_of_find? h)
      refine ⟨.load width (rdField word) (rs1Field word) (csrAddrField word),?_⟩
      rw [encode,of_decide_eq_true hf3]
      exact iType_of_fields word hop
    | store => exact encode_store hop (any_of_find? h)
    | op => exact encode_op hop (any_of_find? h)
    | op32 => exact encode_op32 hop (any_of_find? h)
    | opImm =>
      refine encode_opImm hop ?_
      unfold opImmDefined
      dsimp only at h
      split at h
      · rename_i k hk
        have htest := @List.find?_some _ (fun k : ImmOp => decide (k.code=funct3 word)) _ _ hk
        have hany : immOps.any (fun k => k.code=funct3 word)=true :=
          List.any_eq_true.mpr ⟨k,List.mem_of_find?_eq_some hk,htest⟩
        rw [hany,Bool.true_or]
      · rw [any_of_find? h,Bool.or_true]
    | opImm32 =>
      refine encode_opImm32 hop ?_
      unfold opImm32Defined
      dsimp only at h
      split_ifs at h with hf3
      · rw [hf3]
        rfl
      · rw [any_of_find? h,Bool.or_true]
    | _ => cases h

/-- A word decodes to an instruction exactly when it is its encoding. -/
theorem decodeInstr_iff (word : BitVec 32) (i : Instr) : decodeInstr word=some i ↔ encode i=word := by
  constructor
  · intro h
    obtain ⟨j,rfl⟩ := decodeInstr_defined h
    rw [decodeInstr_encode] at h
    rw [Option.some.inj h]
  · rintro rfl
    exact decodeInstr_encode i

/-- State of the machine. -/
structure IsaState where
  /-- Program counter. -/
  pc : Word
  /-- Registers. -/
  regs : RegAddr → Word
  /-- Memory, instructions included. -/
  memory : ByteMemory

/-- Instruction at the program counter. -/
def IsaState.fetch (s : IsaState) : Option Instr :=
  if s.pc.toNat%4=0 then decodeInstr (readU32 s.memory s.pc) else none

/-- Registers after the write of an outcome; x0 keeps its value. -/
def writeBack (regs : RegAddr → Word) : Option (RegAddr × Word) → RegAddr → Word
  | none => regs
  | some (rd,value) => fun a => if a=rd ∧ rd≠0 then value else regs a

/-- State after an instruction. -/
def IsaState.execute (s : IsaState) (i : Instr) : IsaState :=
  let out := isaOutcome i s.pc s.regs s.memory
  ⟨out.nextPc,writeBack s.regs out.write,out.memory⟩

/-- One instruction, if it has a meaning. -/
def isaStep (s : IsaState) : Option IsaState :=
  match s.fetch with
  | none => none
  | some i => if Aligned i s.regs then some (s.execute i) else none

/-- State before instruction `n` of the program in a memory, entered at the
reset address with cleared registers. -/
def isaRun (memory : ByteMemory) : ℕ → Option IsaState
  | 0 => some ⟨0x80000000,fun _ => 0,memory⟩
  | n+1 => (isaRun memory n).bind isaStep

/-- An aligned instruction at the program counter is executed. -/
theorem isaStep_fetch {s : IsaState} {i : Instr} (hfetch : s.fetch=some i)
    (haligned : Aligned i s.regs) : isaStep s=some (s.execute i) := by
  unfold isaStep
  rw [hfetch]
  exact if_pos haligned

/-- A step executes an aligned instruction whose encoding is in memory. -/
theorem isaStep_cases {s s' : IsaState} (h : isaStep s=some s') :
    ∃ i,s.pc.toNat%4=0 ∧ readU32 s.memory s.pc=encode i ∧ Aligned i s.regs ∧ s'=s.execute i := by
  unfold isaStep IsaState.fetch at h
  split at h
  · cases h
  · rename_i i hfetch
    split_ifs at hfetch with halign
    split_ifs at h with haccess
    exact ⟨i,halign,((decodeInstr_iff _ _).mp hfetch).symm,haccess,(Option.some.inj h).symm⟩

end RichardCore.IsaMachine
