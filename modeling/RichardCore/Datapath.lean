import RichardCore.BitFields
import RichardCore.Isa

/-!
# Datapath values

The ALU, the branch comparator and the two alignment networks of the memory
stage compute the values of the instruction table: shifts and comparisons,
word operations run in the low half of the ALU, loads cut out of their
doubleword, stores placed into their byte lanes.
-/

namespace RichardCore.Datapath

open Packages Decoder Execute DataMemory Isa BitFields

/-- ALU select of a register operation. -/
def aluOfReg : RegOp → AluOp
  | .add => .add
  | .sub => .sub
  | .and => .and
  | .or => .or
  | .xor => .xor
  | .sll => .sll
  | .srl => .srl
  | .sra => .sra
  | .slt => .slt
  | .sltu => .sltu

/-- ALU select of an immediate operation. -/
def aluOfImm : ImmOp → AluOp
  | .addi => .add
  | .andi => .and
  | .ori => .or
  | .xori => .xor
  | .slti => .slt
  | .sltiu => .sltu

/-- ALU select of a shift. -/
def aluOfShift : ShiftOp → AluOp
  | .sll => .sll
  | .srl => .srl
  | .sra => .sra

/-- ALU select of a word operation. -/
def aluOfWord : WordOp → AluOp
  | .addw => .add
  | .subw => .sub
  | .sllw => .sll
  | .srlw => .srl
  | .sraw => .sra

/-- The comparator flag is the reference comparison. -/
theorem flagWord_decide (p : Prop) [Decidable p] : flagWord (decide p)=oneIf p := by
  unfold flagWord oneIf
  by_cases h : p <;> simp [h]

/-- Shift amount of the ALU. -/
theorem shamt_toNat (b : Word) : (b.extractLsb' 0 6).toNat=b.toNat%64 := by
  rw [BitVec.extractLsb'_toNat,Nat.shiftRight_zero]

/-- Shifts by the low six bits. -/
theorem alu_shift (kind : ShiftOp) (a b : Word) :
    alu (aluOfShift kind) a b=kind.eval a (b.toNat%64) := by
  rw [←shamt_toNat]
  cases kind <;> rfl

/-- Register operations. -/
theorem alu_reg (kind : RegOp) (a b : Word) : alu (aluOfReg kind) a b=kind.eval a b := by
  cases kind with
  | sll => exact alu_shift .sll a b
  | srl => exact alu_shift .srl a b
  | sra => exact alu_shift .sra a b
  | slt => exact flagWord_decide _
  | sltu => exact flagWord_decide _
  | _ => rfl

/-- Immediate operations. -/
theorem alu_imm (kind : ImmOp) (a : Word) (imm : BitVec 12) :
    alu (aluOfImm kind) a (imm.signExtend 64)=kind.eval a imm := by
  cases kind with
  | slti => exact flagWord_decide _
  | sltiu => exact flagWord_decide _
  | _ => rfl

/-- Immediate shifts: the function code above the amount is not used. -/
theorem alu_shiftImm (kind : ShiftOp) (a : Word) (code shamt : BitVec 6) :
    alu (aluOfShift kind) a ((code++shamt).signExtend 64)=kind.eval a shamt.toNat := by
  have hamount : ((code++shamt).signExtend 64).toNat%2^6=shamt.toNat := by
    rw [signExtend_toNat_mod (by decide) (by decide),append_toNat_mod]
  rw [alu_shift]
  exact congrArg (kind.eval a) hamount

/-- Word shifts run in the low half of the ALU. -/
theorem alu_wordShift (kind : ShiftOp) (ctrl : ExecCtrl) (hword : ctrl.isWordOp=true)
    (hop : ctrl.aluOp=aluOfShift kind) (a b : Word) :
    (alu ctrl.aluOp (aluOperandA ctrl a) (aluOperandB ctrl b)).setWidth 32=
      kind.eval (a.setWidth 32) (b.toNat%32) := by
  have hamount : ((b.setWidth 5).setWidth 64 : Word).toNat%64=b.toNat%32 := by
    rw [BitVec.toNat_setWidth,BitVec.toNat_setWidth]
    omega
  have hshamt : aluOperandB ctrl b=(b.setWidth 5).setWidth 64 := by
    unfold aluOperandB
    rw [hop,if_pos hword]
    cases kind <;> rfl
  unfold aluOperandA
  rw [hshamt,hop,if_pos hword,alu_shift,hamount]
  cases kind with
  | sll => exact BitVec.setWidth_shiftLeft_of_le (by decide)
  | srl => exact setWidth_ushiftRight_setWidth (by decide) _ _
  | sra => exact setWidth_sshiftRight_signExtend (by decide) _ _

/-- Word operations. -/
theorem alu_word (kind : WordOp) (ctrl : ExecCtrl) (hword : ctrl.isWordOp=true)
    (hop : ctrl.aluOp=aluOfWord kind) (a b : Word) :
    ((alu ctrl.aluOp (aluOperandA ctrl a) (aluOperandB ctrl b)).setWidth 32).signExtend 64=
      kind.eval a b := by
  cases kind with
  | addw =>
    unfold aluOperandA aluOperandB
    rw [hop,if_pos hword,if_pos hword]
    change ((a+b).setWidth 32).signExtend 64=_
    rw [BitVec.setWidth_add _ _ (by decide)]
    rfl
  | subw =>
    unfold aluOperandA aluOperandB
    rw [hop,if_pos hword,if_pos hword]
    change ((a-b).setWidth 32).signExtend 64=_
    rw [BitVec.sub_eq_add_neg,BitVec.setWidth_add _ _ (by decide),
      BitVec.setWidth_neg_of_le (by decide),←BitVec.sub_eq_add_neg]
    rfl
  | sllw => rw [alu_wordShift .sll ctrl hword hop]; rfl
  | srlw => rw [alu_wordShift .srl ctrl hword hop]; rfl
  | sraw => rw [alu_wordShift .sra ctrl hword hop]; rfl

/-- Word addition of an immediate: its sign extension may be cut to 32 bits. -/
theorem alu_addiw (a : Word) (imm : BitVec 12) :
    ((a+imm.signExtend 64).setWidth 32).signExtend 64=
      (a.setWidth 32+imm.signExtend 32).signExtend 64 := by
  rw [BitVec.setWidth_add _ _ (by decide),setWidth_signExtend (by decide)]

/-- Word shifts by an immediate. -/
theorem alu_shiftImm32 (kind : ShiftOp) (ctrl : ExecCtrl) (hword : ctrl.isWordOp=true)
    (hop : ctrl.aluOp=aluOfShift kind) (a : Word) (code : BitVec 7) (shamt : BitVec 5) :
    ((alu ctrl.aluOp (aluOperandA ctrl a)
        (aluOperandB ctrl ((code++shamt).signExtend 64))).setWidth 32).signExtend 64=
      (kind.eval (a.setWidth 32) shamt.toNat).signExtend 64 := by
  have hamount : ((code++shamt).signExtend 64).toNat%2^5=shamt.toNat := by
    rw [signExtend_toNat_mod (by decide) (by decide),append_toNat_mod]
  rw [alu_wordShift kind ctrl hword hop]
  exact congrArg (fun n => (kind.eval (a.setWidth 32) n).signExtend 64) hamount

/-- The comparator on the defined conditions. -/
theorem branchUnit_code (cond : Cond) (a b : Word) : branchUnit true cond.code a b=cond.holds a b := by
  cases cond with
  | beq => rfl
  | bne =>
    change (a != b)=decide (a≠b)
    by_cases h : a=b <;> simp [h]
  | blt => rfl
  | bge =>
    change (!decide (a.toInt<b.toInt))=decide (b.toInt≤a.toInt)
    rw [←decide_not]
    exact decide_eq_decide.mpr Int.not_lt
  | bltu => rfl
  | bgeu =>
    change (!decide (a.toNat<b.toNat))=decide (b.toNat≤a.toNat)
    rw [←decide_not]
    exact decide_eq_decide.mpr Nat.not_lt

section Lanes

variable (memory : ByteMemory) (addr : Word)

/-- Bits of a little-endian read: bit `j` is bit `j%8` of byte `j/8`. -/
theorem getLsbD_readBytes (width count j : ℕ) (hj : j<width) :
    (readBytes memory addr width count).getLsbD j=
      (decide (j<8*count) && (memory (addr+BitVec.ofNat 64 (j/8))).getLsbD (j%8)) := by
  induction count with
  | zero => simp [readBytes]
  | succ count ih =>
    rw [readBytes,BitVec.getLsbD_or,ih,BitVec.getLsbD_shiftLeft,BitVec.getLsbD_setWidth]
    rcases Nat.lt_or_ge j (8*count) with hlt|hge
    · have hnext : j<8*(count+1) := by omega
      simp [hlt,hnext]
    · have hold : ¬j<8*count := by omega
      by_cases hnext : j<8*(count+1)
      · have hdiv : j/8=count := by omega
        have hmod : j-8*count=j%8 := by omega
        have hmw : j%8<width := by omega
        simp [hold,hnext,hdiv,hmod,hj,hmw]
      · have hout : 8≤j-8*count := by omega
        simp [hold,hnext,BitVec.getLsbD_of_ge _ _ hout]

/-- Byte lane of an address. -/
theorem lane_toNat : (addr.extractLsb' 0 3).toNat=addr.toNat%8 := by
  rw [BitVec.extractLsb'_toNat,Nat.shiftRight_zero]

/-- Bit offset of the lane. -/
theorem laneShift_eq : laneShift addr=8*(addr.toNat%8) := by
  rw [laneShift,lane_toNat,Nat.mul_comm]

/-- The containing doubleword plus the lane is the address. -/
theorem alignDown_add : alignDown addr+BitVec.ofNat 64 (addr.toNat%8)=addr := by
  have hlane : BitVec.ofNat 64 (addr.toNat%8)=addr&&&7#64 := by
    apply BitVec.eq_of_toNat_eq
    rw [BitVec.toNat_and,BitVec.toNat_ofNat]
    change addr.toNat%8%2^64=addr.toNat&&&(2^3-1)
    rw [Nat.and_two_pow_sub_one_eq_mod]
    omega
  unfold alignDown
  rw [hlane,BitVec.add_eq_or_of_and_eq_zero]
  · apply BitVec.eq_of_getLsbD_eq
    intro j hj
    rw [BitVec.getLsbD_or,BitVec.getLsbD_and,BitVec.getLsbD_and,BitVec.getLsbD_not]
    cases addr.getLsbD j <;> simp [hj]
  · apply BitVec.eq_of_getLsbD_eq
    intro j hj
    rw [BitVec.getLsbD_and,BitVec.getLsbD_and,BitVec.getLsbD_and,BitVec.getLsbD_not]
    cases (7#64).getLsbD j <;> simp

/-- Shifting the containing doubleword down by the lane leaves the addressed
bytes, when they stay inside it. -/
theorem readU64_window (count : ℕ) (hin : addr.toNat%8+count≤8) :
    (readU64 memory (alignDown addr)>>>laneShift addr).setWidth (8*count)=
      readBytes memory addr (8*count) count := by
  apply BitVec.eq_of_getLsbD_eq
  intro j hj
  have hdiv : (8*(addr.toNat%8)+j)/8=addr.toNat%8+j/8 := by omega
  have hmod : (8*(addr.toNat%8)+j)%8=j%8 := by omega
  have hpos : alignDown addr+BitVec.ofNat 64 (addr.toNat%8+j/8)=addr+BitVec.ofNat 64 (j/8) := by
    rw [BitVec.ofNat_add,←BitVec.add_assoc,alignDown_add]
  rw [BitVec.getLsbD_setWidth,BitVec.getLsbD_ushiftRight,laneShift_eq,readU64,
    getLsbD_readBytes _ _ _ _ _ (by omega),getLsbD_readBytes _ _ _ _ _ hj,hdiv,hmod,hpos]
  have hwide : 8*(addr.toNat%8)+j<8*8 := by omega
  simp [hwide,hj]

/-- Natural alignment keeps an access inside its doubleword. -/
theorem aligned_fits (count : ℕ) (hcount : count=1 ∨ count=2 ∨ count=4 ∨ count=8)
    (h : addr.toNat%count=0) : addr.toNat%8+count≤8 := by
  rcases hcount with rfl|rfl|rfl|rfl <;> omega

/-- The load path on the defined loads. -/
theorem loadDataAligned_code (width : LoadOp) (h : addr.toNat%width.bytes=0) :
    loadDataAligned width.code addr (readU64 memory (alignDown addr))=width.eval memory addr := by
  have hin : addr.toNat%8+width.bytes≤8 := by
    apply aligned_fits _ _ _ h
    cases width <;> decide
  have hread := readU64_window memory addr width.bytes hin
  cases width with
  | lb | lh | lw => exact congrArg (fun x => BitVec.signExtend 64 x) hread
  | ld => exact (BitVec.setWidth_eq _).symm.trans hread
  | lbu | lhu | lwu => exact congrArg (fun x => BitVec.setWidth 64 x) hread

/-- Data memory after a strobed write: the bytes of the addressed doubleword
whose strobe is set. -/
def strobeWrite (wdata : Word) (strobe : BitVec 8) : ByteMemory :=
  fun a =>
    if a.toNat/8=addr.toNat/8 ∧ strobe.getLsbD (a.toNat%8)=true then
      (wdata>>>(8*(a.toNat%8))).setWidth 8
    else memory a

/-- The byte in a lane is a byte of the value whose low bytes are in the lanes. -/
theorem lane_byte {value wdata : Word} {lane count d : ℕ}
    (hdata : ∀ j,8*lane+j<64 → j<8*count → wdata.getLsbD (8*lane+j)=value.getLsbD j)
    (hd : d<count) (hin : lane+count≤8) :
    (wdata>>>(8*(lane+d))).setWidth 8=(value>>>(8*d)).setWidth 8 := by
  apply BitVec.eq_of_getLsbD_eq
  intro j hj
  have hsplit : 8*(lane+d)+j=8*lane+(8*d+j) := by omega
  rw [BitVec.getLsbD_setWidth,BitVec.getLsbD_setWidth,BitVec.getLsbD_ushiftRight,
    BitVec.getLsbD_ushiftRight,hsplit,hdata _ (by omega) (by omega)]

/-- A strobed write of adjacent lanes inside one doubleword is the
little-endian store of that many bytes. -/
theorem strobeWrite_lanes (value wdata : Word) (strobe : BitVec 8) (count : ℕ)
    (hin : addr.toNat%8+count≤8)
    (hstrobe : ∀ k,k<8 → strobe.getLsbD k=decide (addr.toNat%8≤k ∧ k<addr.toNat%8+count))
    (hdata : ∀ j,8*(addr.toNat%8)+j<64 → j<8*count →
      wdata.getLsbD (8*(addr.toNat%8)+j)=value.getLsbD j) :
    strobeWrite memory addr wdata strobe=storeValue memory addr count value := by
  funext a
  unfold strobeWrite storeValue
  have hdiff : (a-addr).toNat=(2^64-addr.toNat+a.toNat)%2^64 := BitVec.toNat_sub _ _
  have ha := a.isLt
  have haddr := addr.isLt
  have hset : strobe.getLsbD (a.toNat%8)=true ↔
      addr.toNat%8≤a.toNat%8 ∧ a.toNat%8<addr.toNat%8+count := by
    rw [hstrobe _ (Nat.mod_lt _ (by decide)),decide_eq_true_eq]
  by_cases hhit : (a-addr).toNat<count
  · have hlanes : a.toNat/8=addr.toNat/8 ∧ strobe.getLsbD (a.toNat%8)=true := by
      rw [hset]
      omega
    have hoff : a.toNat%8=addr.toNat%8+(a-addr).toNat := by omega
    rw [if_pos hlanes,if_pos hhit,hoff]
    exact lane_byte hdata hhit hin
  · have hmiss : ¬(a.toNat/8=addr.toNat/8 ∧ strobe.getLsbD (a.toNat%8)=true) := by
      rw [hset]
      omega
    rw [if_neg hmiss,if_neg hhit]

/-- The store loop writes the lanes from the addressed one upwards. -/
theorem writeLanes_eq (wdata : Word) (count : ℕ) (hin : addr.toNat%8+count≤8) (a : Word) :
    writeLanes memory addr wdata count a=
      if (a-addr).toNat<count then (wdata>>>(8*(addr.toNat%8+(a-addr).toNat))).setWidth 8
      else memory a := by
  induction count with
  | zero => rfl
  | succ count ih =>
    have hprev := ih (by omega)
    have hpos : alignDown addr+BitVec.ofNat 64 (addr.toNat%8+count)=addr+BitVec.ofNat 64 count := by
      rw [BitVec.ofNat_add,←BitVec.add_assoc,alignDown_add]
    have hdiff : (a-addr).toNat=(2^64-addr.toNat+a.toNat)%2^64 := BitVec.toNat_sub _ _
    have hat : a=addr+BitVec.ofNat 64 count ↔ (a-addr).toNat=count := by
      rw [←BitVec.toNat_inj,BitVec.toNat_add,BitVec.toNat_ofNat,hdiff]
      have ha := a.isLt
      have haddr := addr.isLt
      omega
    unfold writeLanes
    dsimp only
    rw [lane_toNat,hpos]
    unfold writeByte
    by_cases hlast : (a-addr).toNat=count
    · have hnow : (a-addr).toNat<count+1 := by omega
      rw [if_pos (hat.mpr hlast),if_pos hnow,hlast,Nat.mul_comm]
    · rw [if_neg fun heq => hlast (hat.mp heq),hprev]
      have hiff : (a-addr).toNat<count+1 ↔ (a-addr).toNat<count := by omega
      simp only [hiff]

/-- With the low bytes of a value in its lanes the loop is the little-endian
store of the value. -/
theorem writeLanes_code (value wdata : Word) (count : ℕ) (hin : addr.toNat%8+count≤8)
    (hdata : ∀ j,8*(addr.toNat%8)+j<64 → j<8*count →
      wdata.getLsbD (8*(addr.toNat%8)+j)=value.getLsbD j) :
    writeLanes memory addr wdata count=storeValue memory addr count value := by
  funext a
  rw [writeLanes_eq memory addr wdata count hin]
  unfold storeValue
  split
  · rename_i hhit
    exact lane_byte hdata hhit hin
  · rfl

end Lanes

/-- A shifted block of strobes selects adjacent lanes. -/
theorem strobe_lanes (mask : BitVec 8) (lane : BitVec 3) (count k : ℕ) (hk : k<8)
    (hmask : ∀ j,j<8 → mask.getLsbD j=decide (j<count)) :
    (mask<<<lane).getLsbD k=decide (lane.toNat≤k ∧ k<lane.toNat+count) := by
  rw [BitVec.shiftLeft_eq',BitVec.getLsbD_shiftLeft]
  by_cases hlt : k<lane.toNat
  · have hno : ¬lane.toNat≤k := by omega
    simp [hlt,hno]
  · rw [hmask _ (by omega)]
    have hiff : k-lane.toNat<count ↔ lane.toNat≤k ∧ k<lane.toNat+count := by omega
    simp [hlt,hk,hiff]

/-- A zero-extended field moved up keeps its bits. -/
theorem field_lanes (value : Word) (width shift j : ℕ) (hfit : shift+j<64) (hj : j<width) :
    ((value.setWidth width).setWidth 64<<<shift : Word).getLsbD (shift+j)=value.getLsbD j := by
  rw [BitVec.getLsbD_shiftLeft,BitVec.getLsbD_setWidth,BitVec.getLsbD_setWidth,
    Nat.add_sub_cancel_left]
  have hword : j<64 := by omega
  simp [hj,hfit,hword]

/-- An aligned store stays inside its doubleword. -/
theorem store_fits (width : StoreOp) {addr : Word} (h : addr.toNat%width.bytes=0) :
    addr.toNat%8+width.bytes≤8 := by
  apply aligned_fits _ _ _ h
  cases width <;> decide

section Stored

variable (width : StoreOp) (e : ExMem) (memory : ByteMemory) (hstore : e.mem.isStore=true)
  (hsize : e.mem.memSize=width.code) (h : e.aluResult.toNat%width.bytes=0)

include hstore hsize h

/-- The strobes select the bytes of the store. -/
theorem writeStrobe_lanes {k : ℕ} (hk : k<8) :
    (writeStrobe e).getLsbD k=
      decide (e.aluResult.toNat%8≤k ∧ k<e.aluResult.toNat%8+width.bytes) := by
  unfold writeStrobe
  rw [if_pos hstore,hsize,←lane_toNat]
  cases width with
  | sb => exact strobe_lanes _ _ 1 k hk (by decide)
  | sh => exact strobe_lanes _ _ 2 k hk (by decide)
  | sw => exact strobe_lanes _ _ 4 k hk (by decide)
  | sd =>
    -- an aligned doubleword starts in lane 0, so its strobes are not shifted
    have hzero : (e.aluResult.extractLsb' 0 3).toNat=0 := (lane_toNat _).trans h
    rw [hzero]
    change (0b11111111#8).getLsbD k=decide (0≤k ∧ k<0+8)
    revert k
    decide

/-- The lanes carry the low bytes of the operand. -/
theorem storeData_lanes {j : ℕ} (hfit : 8*(e.aluResult.toNat%8)+j<64) (hj : j<8*width.bytes) :
    (storeDataAligned e).getLsbD (8*(e.aluResult.toNat%8)+j)=e.rs2Rdata.getLsbD j := by
  unfold storeDataAligned
  rw [if_pos hstore,hsize,laneShift_eq]
  cases width with
  | sb => exact field_lanes _ 8 _ _ hfit hj
  | sh => exact field_lanes _ 16 _ _ hfit hj
  | sw => exact field_lanes _ 32 _ _ hfit hj
  | sd =>
    have hzero : e.aluResult.toNat%8=0 := h
    rw [hzero,Nat.mul_zero,Nat.zero_add]
    rfl

/-- The strobes and lanes of the memory stage store the reference bytes. -/
theorem strobeWrite_code :
    strobeWrite memory e.aluResult (storeDataAligned e) (writeStrobe e)=
      storeValue memory e.aluResult width.bytes e.rs2Rdata := by
  apply strobeWrite_lanes
  · exact store_fits width h
  · exact fun k hk => writeStrobe_lanes width e hstore hsize h hk
  · exact fun j hfit hj => storeData_lanes width e hstore hsize h hfit hj

/-- The size-coded merge of the harness stores the reference bytes. -/
theorem writeStore_code :
    writeStore memory e.aluResult (storeDataAligned e) e.mem.memSize=
      storeValue memory e.aluResult width.bytes e.rs2Rdata := by
  have hbytes : storeBytes e.mem.memSize=width.bytes := by
    rw [hsize]
    cases width <;> rfl
  unfold writeStore
  rw [hbytes]
  exact writeLanes_code memory e.aluResult e.rs2Rdata (storeDataAligned e) width.bytes
    (store_fits width h) fun j hfit hj => storeData_lanes width e hstore hsize h hfit hj

end Stored

/-- A low part select is zero exactly at the multiples of its range. -/
theorem lowBits_bne (addr : Word) (k : ℕ) :
    (addr.extractLsb' 0 k != 0)=decide (addr.toNat%2^k≠0) := by
  have hzero : addr.extractLsb' 0 k=0 ↔ addr.toNat%2^k=0 := by
    rw [←BitVec.toNat_inj,BitVec.extractLsb'_toNat,Nat.shiftRight_zero]
    rfl
  by_cases h : addr.toNat%2^k=0
  · rw [hzero.mpr h]
    simp [h]
  · have hne : addr.extractLsb' 0 k≠0 := fun hz => h (hzero.mp hz)
    rw [bne_iff_ne.mpr hne]
    simp [h]

/-- The fault check is natural alignment for every defined size. -/
theorem addrMisaligned_eq (size : BitVec 3) (addr : Word) (hsize : size≠0b111) :
    addrMisaligned size addr=decide (addr.toNat%storeBytes size≠0) := by
  have hbyte : false=decide (addr.toNat%1≠0) := by simp [Nat.mod_one]
  have hhalf : addr.getLsbD 0=decide (addr.toNat%2≠0) := by
    rw [BitVec.getLsbD,Nat.testBit_zero]
    exact decide_eq_decide.mpr (by omega)
  have hcases : size=0b000 ∨ size=0b001 ∨ size=0b010 ∨ size=0b011 ∨ size=0b100 ∨ size=0b101 ∨
      size=0b110 := by
    revert size
    decide
  rcases hcases with rfl|rfl|rfl|rfl|rfl|rfl|rfl
  · exact hbyte
  · exact hhalf
  · exact lowBits_bne addr 2
  · exact lowBits_bne addr 3
  · exact hbyte
  · exact hhalf
  · exact lowBits_bne addr 2

/-- A naturally aligned access raises no misalignment fault. -/
theorem addrMisaligned_aligned {size : BitVec 3} {bytes : ℕ} (hsize : size≠0b111)
    (hbytes : storeBytes size=bytes) (addr : Word) (h : addr.toNat%bytes=0) :
    addrMisaligned size addr=false := by
  rw [addrMisaligned_eq size addr hsize,hbytes,h]
  rfl

/-- Aligned stores of the defined widths raise none. -/
theorem store_aligned (width : StoreOp) {addr : Word} (h : addr.toNat%width.bytes=0) :
    addrMisaligned width.code addr=false :=
  addrMisaligned_aligned (by cases width <;> decide) (by cases width <;> rfl) addr h

/-- Aligned loads of the defined widths raise none. -/
theorem load_aligned (width : LoadOp) {addr : Word} (h : addr.toNat%width.bytes=0) :
    addrMisaligned width.code addr=false :=
  addrMisaligned_aligned (by cases width <;> decide) (by cases width <;> rfl) addr h

end RichardCore.Datapath
