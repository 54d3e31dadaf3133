import RichardCore.Encodings

/-!
# What the decoder accepts

Every word falls into one of three kinds: flagged illegal, a defined encoding
that the mode permits, or a reserved encoding that the decoder executes as
something else. The third kind is listed by opcode; the decoder never flags a
defined encoding.
-/

namespace RichardCore.Legality

open Packages Decoder Isa Encodings

/-- Reserved function codes of OP: neither base codes nor the multiplication
code, which is flagged. -/
def opReserved (f7 : BitVec 7) (f3 : BitVec 3) : Bool :=
  f7 != 0 && f7 != 1 && !(f7==0b0100000 && (f3==0b000 || f3==0b101))

/-- Reserved function codes of OP-32 under the three operations it selects. -/
def op32Reserved (f7 : BitVec 7) (f3 : BitVec 3) : Bool :=
  (f3==0b000 || f3==0b001 || f3==0b101) && opReserved f7 f3

/-- Reserved upper bits of an OP-IMM shift. -/
def opImmReserved (f6 : BitVec 6) (f3 : BitVec 3) : Bool :=
  (f3==0b001 && f6 != 0) || (f3==0b101 && f6 != 0 && f6 != 0b010000)

/-- Reserved upper bits of an OP-IMM-32 shift. -/
def opImm32Reserved (f7 : BitVec 7) (f3 : BitVec 3) : Bool :=
  (f3==0b001 && f7 != 0) || (f3==0b101 && f7 != 0 && f7 != 0b0100000)

/-- Function codes of a privileged instruction that the mode permits. -/
def privSelected (mode : PrivMode) (f12 : BitVec 12) (f7 : BitVec 7) : Bool :=
  (PrivOp.all.any fun op => op.code=f12 && op.permitted mode) ||
    (f7==sfenceCode && sfencePermitted mode)

/-- Reserved words that the decoder accepts: undefined width, condition or
function codes, function bits beside the ones it looks at, a privileged
instruction with a destination or source register, and the unused CSR
operation code. -/
def acceptsReserved (word : BitVec 32) (mode : PrivMode) : Bool :=
  match Opcode.ofBits (opcodeField word) with
  | some .jalr => funct3 word != 0
  | some .branch => funct3 word==0b010 || funct3 word==0b011
  | some .load => funct3 word==0b111
  | some .store => (funct3 word).getLsbD 2
  | some .op => opReserved (funct7 word) (funct3 word)
  | some .op32 => op32Reserved (funct7 word) (funct3 word)
  | some .opImm => opImmReserved ((csrAddrField word).extractLsb' 6 6) (funct3 word)
  | some .opImm32 => opImm32Reserved (funct7 word) (funct3 word)
  | some .system =>
    if funct3 word=0 then
      privSelected mode (csrAddrField word) (funct7 word) &&
        (rdField word != 0 || (rs1Field word != 0 && funct7 word != sfenceCode))
    else funct3 word==0b100 && csrPermitted mode (csrAddrField word)
  | _ => false

/-- The three kinds: the flag is raised exactly outside the other two, which
are disjoint. -/
def Partition (flag legal reserved : Bool) : Prop :=
  flag=!(legal || reserved) ∧ (legal && reserved)=false

instance (flag legal reserved : Bool) : Decidable (Partition flag legal reserved) :=
  inferInstanceAs (Decidable (_ ∧ _))

/-- Function bits other than the two base codes define no operation of OP and
OP-32. -/
theorem opDefined_other {f7 : BitVec 7} (hbase : f7≠0) (halt : f7≠0b0100000) (f3 : BitVec 3) :
    opDefined f7 f3=false ∧ op32Defined f7 f3=false := by
  unfold opDefined op32Defined
  rw [List.any_eq_false,List.any_eq_false]
  refine ⟨fun k _ hk => ?_,fun k _ hk => ?_⟩
  · have hcode := congrArg Prod.fst (of_decide_eq_true hk)
    cases k <;> first | exact hbase hcode.symm | exact halt hcode.symm
  · have hcode := congrArg Prod.fst (of_decide_eq_true hk)
    cases k <;> first | exact hbase hcode.symm | exact halt hcode.symm

/-- Function bits of OP and OP-32: the base and multiply codes, the alternate
code, or any other. -/
theorem funct7_cases (f7 : BitVec 7) :
    f7=0 ∨ f7=1 ∨ f7=0b0100000 ∨ (f7≠0 ∧ f7≠1 ∧ f7≠0b0100000) := by
  tauto

/-- Function codes of OP. -/
theorem op_partition (f7 : BitVec 7) (f3 : BitVec 3) :
    Partition (f7==1) (opDefined f7 f3) (opReserved f7 f3) := by
  obtain rfl | rfl | rfl | ⟨hbase,hmul,halt⟩ := funct7_cases f7
  · revert f3
    decide
  · revert f3
    decide
  · revert f3
    decide
  · rw [(opDefined_other hbase halt f3).1]
    unfold opReserved
    rw [beq_eq_false_iff_ne.mpr hmul,beq_eq_false_iff_ne.mpr halt,bne_iff_ne.mpr hbase,
      bne_iff_ne.mpr hmul]
    exact ⟨rfl,rfl⟩

/-- Function codes of OP-32. -/
theorem op32_partition (f7 : BitVec 7) (f3 : BitVec 3) :
    Partition (f7==1 || (op32Alu f3 f7).isNone) (op32Defined f7 f3) (op32Reserved f7 f3) := by
  obtain rfl | rfl | rfl | ⟨hbase,hmul,halt⟩ := funct7_cases f7
  · revert f3
    decide
  · revert f3
    decide
  · revert f3
    decide
  · have hselect : (op32Alu f3 f7).isNone=!(f3==0b000 || f3==0b001 || f3==0b101) := by
      unfold op32Alu
      split <;> simp_all
    rw [hselect,(opDefined_other hbase halt f3).2]
    unfold op32Reserved opReserved
    rw [beq_eq_false_iff_ne.mpr hmul,beq_eq_false_iff_ne.mpr halt,bne_iff_ne.mpr hbase,
      bne_iff_ne.mpr hmul]
    cases (f3==0b000 || f3==0b001 || f3==0b101) <;> exact ⟨rfl,rfl⟩

/-- Function codes of OP-IMM, none of which is flagged. -/
theorem opImm_partition (f6 : BitVec 6) (f3 : BitVec 3) :
    Partition false (opImmDefined f6 f3) (opImmReserved f6 f3) := by
  revert f6 f3
  decide +kernel

/-- Function codes of OP-IMM-32. -/
theorem opImm32_partition (f7 : BitVec 7) (f3 : BitVec 3) :
    Partition (opImm32Alu f3 f7).isNone (opImm32Defined f7 f3) (opImm32Reserved f7 f3) := by
  revert f7 f3
  decide +kernel

/-- The privilege comparison of the decoder is the one on address bits 9:8. -/
theorem csrAccessAllowed_eq (mode : PrivMode) (addr : BitVec 12) :
    csrAccessAllowed mode.bits addr=csrPermitted mode addr := by
  unfold csrAccessAllowed csrPermitted
  generalize addr.extractLsb' 8 2=req
  revert req
  cases mode <;> decide

/-- The decoder flags the privileged words that select nothing the mode
permits. -/
theorem decodePrivileged_flag (word : BitVec 32) (mode : PrivMode) :
    (decodePrivileged word mode.bits).illegalInstr=
      !privSelected mode (csrAddrField word) (funct7 word) := by
  have hf7 : funct7 word=(csrAddrField word).extractLsb' 5 7 := by
    rw [csrAddrField_eq]
    exact BitVec.extractLsb'_append_eq_left.symm
  have hsret : privGe mode.bits PrivMode.s.bits=decide (mode≠.u) := by cases mode <;> decide
  unfold decodePrivileged privSelected
  rw [←csrAddrField_eq]
  split
  · rename_i hcode
    rw [hcode]
    rfl
  · rename_i hcode
    rw [hcode]
    rfl
  · rename_i hcode
    rw [hf7,hcode]
    cases mode <;> decide
  · rename_i hcode
    rw [hf7,hcode]
    cases mode <;> decide
  · rename_i hcode
    rw [hcode]
    rfl
  · rename_i hecall hebreak hmretCode hsretCode hwfi
    have hnone : (PrivOp.all.any fun op => decide (op.code=csrAddrField word) &&
        op.permitted mode)=false := by
      simp only [PrivOp.all,PrivOp.code,List.any_cons,List.any_nil]
      simp [Ne.symm hecall,Ne.symm hebreak,Ne.symm hmretCode,Ne.symm hsretCode,Ne.symm hwfi]
    rw [hnone,Bool.false_or,hsret]
    unfold sfencePermitted sfenceCode
    by_cases hsfence : funct7 word=0b0001001
    · rw [if_pos hsfence,hsfence]
      cases mode <;> rfl
    · have hother : (funct7 word==0b0001001)=false := beq_eq_false_iff_ne.mpr hsfence
      rw [if_neg hsfence,hother]
      rfl

/-- Privileged words: a selected one is defined exactly when its unused
fields are zero. -/
theorem priv_partition (word : BitVec 32) (mode : PrivMode) :
    Partition (!privSelected mode (csrAddrField word) (funct7 word))
      (privDefined mode (csrAddrField word) (funct7 word) (rs1Field word) (rdField word))
      (privSelected mode (csrAddrField word) (funct7 word) &&
        (rdField word != 0 || (rs1Field word != 0 && funct7 word != sfenceCode))) := by
  have hapart : (PrivOp.all.any fun op => decide (op.code=csrAddrField word) &&
      op.permitted mode)=true → (funct7 word==sfenceCode)=false := by
    intro hany
    obtain ⟨op,-,hop⟩ := List.any_eq_true.mp hany
    rw [Bool.and_eq_true,decide_eq_true_eq] at hop
    have hf7 : funct7 word=op.code.extractLsb' 5 7 := by
      rw [hop.1,csrAddrField_eq]
      exact BitVec.extractLsb'_append_eq_left.symm
    rw [hf7]
    cases op <;> decide
  unfold Partition privSelected privDefined
  revert hapart
  generalize (PrivOp.all.any fun op => decide (op.code=csrAddrField word) && op.permitted mode)=any
  intro hapart
  have hne : (funct7 word != sfenceCode)=!(funct7 word==sfenceCode) := rfl
  have hrd : (rdField word != 0)=!(rdField word==0) := rfl
  have hrs1 : (rs1Field word != 0)=!(rs1Field word==0) := rfl
  rw [hne,hrd,hrs1]
  generalize (funct7 word==sfenceCode)=isSfence at hapart ⊢
  generalize (rdField word==0)=rdZero
  generalize (rs1Field word==0)=rs1Zero
  generalize sfencePermitted mode=permitted
  revert any isSfence rdZero rs1Zero permitted
  decide

/-- Jump, condition and width codes, none of which is flagged. -/
theorem funct3_partition (f3 : BitVec 3) :
    Partition false (f3==0) (f3 != 0) ∧
    Partition false (conds.any fun c => c.code=f3) (f3==0b010 || f3==0b011) ∧
    Partition false (loadOps.any fun l => l.code=f3) (f3==0b111) ∧
    Partition false (storeOps.any fun l => l.code=f3) (f3.getLsbD 2) := by
  revert f3
  decide

/-- A word without an operation is flagged. -/
theorem select_flag {α : Type} (select : Option α) :
    (if select.isSome then sysDefaults else {sysDefaults with illegalInstr := true}).illegalInstr=
      select.isNone := by
  cases select <;> rfl

/-- Every word is of exactly one kind. -/
theorem decoder_partition (word : BitVec 32) (mode : PrivMode) :
    Partition (decoder word mode.bits).sys.illegalInstr (definedFields word mode)
      (acceptsReserved word mode) := by
  obtain ⟨hjalr,hbranch,hload,hstore⟩ := funct3_partition (funct3 word)
  unfold decoder definedFields acceptsReserved
  cases Opcode.ofBits (opcodeField word) with
  | none => exact ⟨rfl,rfl⟩
  | some opcode =>
    cases opcode with
    | jalr => exact hjalr
    | branch => exact hbranch
    | load => exact hload
    | store => exact hstore
    | miscMem =>
      dsimp only
      split
      · rename_i hf3
        rw [hf3]
        exact ⟨rfl,rfl⟩
      · rename_i hf3
        rw [hf3]
        exact ⟨rfl,rfl⟩
      · rename_i hfence hfenceI
        have h0 : (funct3 word==0)=false := beq_eq_false_iff_ne.mpr hfence
        have h1 : (funct3 word==1)=false := beq_eq_false_iff_ne.mpr hfenceI
        rw [h0,h1]
        exact ⟨rfl,rfl⟩
    | op =>
      have h := op_partition (funct7 word) (funct3 word)
      dsimp only
      split
      · rename_i hmul
        rw [beq_iff_eq.mpr hmul] at h
        exact h
      · rename_i hbase
        rw [beq_eq_false_iff_ne.mpr hbase] at h
        exact h
    | op32 =>
      have h := op32_partition (funct7 word) (funct3 word)
      dsimp only
      split
      · rename_i hmul
        rw [beq_iff_eq.mpr hmul] at h
        exact h
      · rename_i hbase
        rw [beq_eq_false_iff_ne.mpr hbase,Bool.false_or,←select_flag] at h
        exact h
    | opImm => exact opImm_partition _ _
    | opImm32 =>
      have h := opImm32_partition (funct7 word) (funct3 word)
      rw [←select_flag] at h
      exact h
    | system =>
      dsimp only
      split
      · have h := priv_partition word mode
        rw [←decodePrivileged_flag] at h
        exact h
      · rename_i hf3
        rw [csrAccessAllowed_eq]
        have hcode : (CsrOp.all.any fun op => decide (op.code=funct3 word))=
            !(funct3 word==0b100) := by
          revert hf3
          generalize funct3 word=f3
          revert f3
          decide
        rw [hcode]
        cases csrPermitted mode (csrAddrField word) <;> cases funct3 word==0b100 <;>
          exact ⟨rfl,rfl⟩
    | _ => exact ⟨rfl,rfl⟩

/-- For every word and mode: the decoder flags the word exactly when it is not
a defined encoding that the mode permits, unless it is a reserved word that
the decoder accepts. -/
theorem illegal_iff_undefined (word : BitVec 32) (mode : PrivMode) :
    ((decoder word mode.bits).sys.illegalInstr=true ↔ ¬Defined word mode) ↔
      acceptsReserved word mode=false := by
  obtain ⟨hflag,hdisjoint⟩ := decoder_partition word mode
  rw [hflag,←definedFields_iff]
  cases hlegal : definedFields word mode <;> cases hreserved : acceptsReserved word mode <;>
    simp_all

/-- A load of the undefined width 111 is not a defined encoding and is not
flagged. -/
theorem reserved_load_accepted :
    (decoder 0x00007083 PrivMode.m.bits).sys.illegalInstr=false ∧ ¬Defined 0x00007083 .m := by
  rw [←definedFields_iff]
  decide

end RichardCore.Legality
