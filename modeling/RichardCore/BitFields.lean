import Mathlib.Data.BitVec

/-!
# Bit assignment, masks and extensions of machine words

Part-select assignment of one bit and of a run of bits, with read-back and
frame laws; comparison under a mask as equality of a bit range; the merge of
two words below and above a bit position; and right shifts of a narrow word
run in a wider one.
-/

namespace RichardCore.BitFields

/-- Assign bit `i` of a word. An index beyond the width changes nothing. -/
def setBit {w : ℕ} (x : BitVec w) (i : ℕ) (b : Bool) : BitVec w :=
  if b then x|||1#w<<<i else x&&&~~~(1#w<<<i)

/-- Reading any bit after a single-bit assignment. -/
theorem getLsbD_setBit {w : ℕ} (x : BitVec w) (i : ℕ) (b : Bool) (j : ℕ) (hj : j<w) :
    (setBit x i b).getLsbD j=if j=i then b else x.getLsbD j := by
  have hone : (1#w<<<i).getLsbD j=decide (j=i) := by
    rw [BitVec.getLsbD_shiftLeft,BitVec.getLsbD_one]
    by_cases hi : j=i
    · subst hi
      simp [hj]
      omega
    · rcases Nat.lt_or_ge j i with hlt|hge
      · simp [hlt,hi]
      · have hne : j-i≠0 := by omega
        simp [hi,hne]
  unfold setBit
  split
  · rename_i hb
    rw [BitVec.getLsbD_or,hone,hb]
    by_cases hi : j=i <;> simp [hi]
  · rename_i hb
    rw [BitVec.getLsbD_and,BitVec.getLsbD_not,hone]
    have hb' : b=false := Bool.eq_false_of_not_eq_true hb
    by_cases hi : j=i <;> simp [hi,hj,hb']

/-- The same law for the bounded bit read that simplification prefers. -/
@[simp]
theorem getElem_setBit {w : ℕ} (x : BitVec w) (i : ℕ) (b : Bool) (j : ℕ) (hj : j<w) :
    (setBit x i b)[j]=if j=i then b else x[j] := by
  rw [←BitVec.getLsbD_eq_getElem,←BitVec.getLsbD_eq_getElem]
  exact getLsbD_setBit x i b j hj

/-- Set `count` consecutive bits from `lo` upwards, one by one. -/
def setRun {w : ℕ} (x : BitVec w) (lo : ℕ) : ℕ → BitVec w
  | 0 => x
  | count+1 => setBit (setRun x lo count) (lo+count) true

/-- Reading any bit after setting a run. -/
theorem getLsbD_setRun {w : ℕ} (x : BitVec w) (lo count j : ℕ) (hj : j<w) :
    (setRun x lo count).getLsbD j=(decide (lo≤j ∧ j<lo+count) || x.getLsbD j) := by
  induction count with
  | zero =>
    simp [setRun]
  | succ count ih =>
    rw [setRun,getLsbD_setBit _ _ _ _ hj,ih]
    split
    · have hin : lo≤j ∧ j<lo+(count+1) := by omega
      simp [hin]
    · have hiff : (lo≤j ∧ j<lo+count) ↔ (lo≤j ∧ j<lo+(count+1)) := by omega
      simp [hiff]

/-- Two words agree under the mask of bits `lo` to `hi` exactly when their
quotients in that range are equal. -/
theorem masked_eq_iff {w lo hi : ℕ} (hhi : hi≤w) (x y : BitVec w) :
    (x^^^y)&&&setRun 0 lo (hi-lo)=0 ↔ x.toNat%2^hi/2^lo=y.toNat%2^hi/2^lo := by
  have hbits : (x^^^y)&&&setRun 0 lo (hi-lo)=0 ↔
      ∀ j,lo≤j → j<hi → x.getLsbD j=y.getLsbD j := by
    constructor
    · intro h j hlo hlt
      have hj : j<w := Nat.lt_of_lt_of_le hlt hhi
      have hbit := congrArg (fun z => z.getLsbD j) h
      have hin : lo≤j ∧ j<lo+(hi-lo) := by omega
      simp only [BitVec.getLsbD_and,BitVec.getLsbD_xor,getLsbD_setRun _ _ _ _ hj,hin] at hbit
      simpa using hbit
    · intro h
      apply BitVec.eq_of_getLsbD_eq
      intro j hj
      rw [BitVec.getLsbD_and,BitVec.getLsbD_xor,getLsbD_setRun _ _ _ _ hj]
      by_cases hin : lo≤j ∧ j<lo+(hi-lo)
      · rw [h j hin.1 (by omega)]
        simp
      · simp [hin]
  rw [hbits]
  constructor
  · intro h
    apply Nat.eq_of_testBit_eq
    intro j
    rw [Nat.testBit_div_two_pow,Nat.testBit_div_two_pow,Nat.testBit_mod_two_pow,
      Nat.testBit_mod_two_pow]
    by_cases hlt : j+lo<hi
    · have hbit := h (j+lo) (by omega) hlt
      simp only [BitVec.getLsbD] at hbit
      rw [hbit]
    · simp [hlt]
  · intro h j hlo hlt
    have hbit := congrArg (fun z => z.testBit (j-lo)) h
    simp only [Nat.testBit_div_two_pow,Nat.testBit_mod_two_pow,Nat.sub_add_cancel hlo,hlt,
      decide_true,Bool.true_and] at hbit
    exact hbit

/-- The mask below a position has exactly the lower bits. -/
theorem getLsbD_lowMask {w s : ℕ} (hs : s<w) (j : ℕ) (hj : j<w) :
    (1#w<<<s-1#w).getLsbD j=decide (j<s) := by
  have hval : (1#w<<<s-1#w).toNat=2^s-1 := by
    have hone : 1%2^w=1 := Nat.mod_eq_of_lt (Nat.one_lt_two_pow (by omega))
    have hpow : 2^s<2^w := Nat.pow_lt_pow_right (by decide) hs
    have hpos : 0<2^s := Nat.two_pow_pos s
    rw [BitVec.toNat_sub,BitVec.toNat_shiftLeft,BitVec.toNat_ofNat,hone,Nat.shiftLeft_eq,
      Nat.one_mul,Nat.mod_eq_of_lt hpow]
    have hsplit : 2^w-1+2^s=(2^s-1)+2^w := by omega
    rw [hsplit,Nat.add_mod_right,Nat.mod_eq_of_lt (by omega)]
  rw [BitVec.getLsbD,hval,Nat.testBit_two_pow_sub_one]

/-- Merging two words under a low mask takes the lower bits from one and the
upper bits from the other. -/
theorem getLsbD_merge {w s : ℕ} (hs : s<w) (x y : BitVec w) (j : ℕ) (hj : j<w) :
    (x&&&~~~(1#w<<<s-1#w)|||y&&&(1#w<<<s-1#w)).getLsbD j=
      if j<s then y.getLsbD j else x.getLsbD j := by
  rw [BitVec.getLsbD_or,BitVec.getLsbD_and,BitVec.getLsbD_and,BitVec.getLsbD_not,
    getLsbD_lowMask hs j hj]
  by_cases hlt : j<s <;> simp [hlt,hj]

/-- Masking the low bits of a word truncates it. -/
theorem and_lowMask {w s : ℕ} (hs : s<w) (x : BitVec w) :
    x&&&(1#w<<<s-1#w)=(x.setWidth s).setWidth w := by
  apply BitVec.eq_of_getLsbD_eq
  intro j hj
  rw [BitVec.getLsbD_and,getLsbD_lowMask hs j hj,BitVec.getLsbD_setWidth,BitVec.getLsbD_setWidth,
    decide_eq_true hj,Bool.true_and,Bool.and_comm]

/-- The low bits of a concatenation are its right part. -/
theorem append_toNat_mod {v w : ℕ} (x : BitVec v) (y : BitVec w) : (x++y).toNat%2^w=y.toNat := by
  rw [BitVec.toNat_append,←Nat.shiftLeft_add_eq_or_of_lt y.isLt,Nat.shiftLeft_eq,
    Nat.mul_add_mod_self_right,Nat.mod_eq_of_lt y.isLt]

/-- Truncating a sign extension is the shorter sign extension. -/
theorem setWidth_signExtend {u v w : ℕ} (huv : u≤v) (x : BitVec w) :
    (x.signExtend v).setWidth u=x.signExtend u := by
  apply BitVec.eq_of_getLsbD_eq
  intro j hj
  have hjv : j<v := by omega
  rw [BitVec.getLsbD_setWidth,BitVec.getLsbD_signExtend,BitVec.getLsbD_signExtend]
  simp [hj,hjv]

/-- A field inside a word is a field of its sign extension. -/
theorem extractLsb'_signExtend {v w start len : ℕ} (hlen : start+len≤w) (hv : w≤v) (x : BitVec w) :
    (x.signExtend v).extractLsb' start len=x.extractLsb' start len := by
  have hback : (x.signExtend v).setWidth w=x := by
    rw [setWidth_signExtend hv,BitVec.signExtend_eq]
  calc (x.signExtend v).extractLsb' start len
      =((x.signExtend v).setWidth w).extractLsb' start len :=
        (BitVec.extractLsb'_setWidth_of_le hlen).symm
    _ = x.extractLsb' start len := by rw [hback]

/-- Sign extension keeps the low bits. -/
theorem signExtend_toNat_mod {v w k : ℕ} (hw : k≤w) (hv : k≤v) (x : BitVec w) :
    (x.signExtend v).toNat%2^k=x.toNat%2^k := by
  rw [←BitVec.toNat_setWidth,←BitVec.toNat_setWidth,setWidth_signExtend hv,
    BitVec.signExtend_eq_setWidth_of_le x hw]

/-- A logical right shift may run in a wider word after zero extension. -/
theorem setWidth_ushiftRight_setWidth {v w : ℕ} (h : w≤v) (x : BitVec w) (s : ℕ) :
    (x.setWidth v>>>s).setWidth w=x>>>s := by
  rw [←BitVec.setWidth_ushiftRight h,BitVec.setWidth_setWidth_of_le _ h,BitVec.setWidth_eq]

/-- An arithmetic right shift may run in a wider word after sign extension. -/
theorem setWidth_sshiftRight_signExtend {v w : ℕ} (h : w<v) (x : BitVec w) (s : ℕ) :
    ((x.signExtend v).sshiftRight s).setWidth w=x.sshiftRight s := by
  apply BitVec.eq_of_getLsbD_eq
  intro j hj
  have hjv : ¬v≤j := by omega
  have hjw : ¬w≤j := by omega
  have hmsb : (x.signExtend v).msb=x.msb := by
    rw [BitVec.msb_signExtend,if_neg (by omega),decide_eq_true (by omega : 0<v),Bool.true_and]
  rw [BitVec.getLsbD_setWidth,BitVec.getLsbD_sshiftRight,BitVec.getLsbD_sshiftRight,
    BitVec.getLsbD_signExtend,hmsb]
  by_cases hw : s+j<w
  · have hv : s+j<v := by omega
    simp [hw,hv,hj,hjv,hjw]
  · by_cases hv : s+j<v <;> simp [hw,hv,hj,hjv,hjw]

end RichardCore.BitFields
