import Mathlib.Data.BitVec

/-!
# Checked reads of a byte string

A program that holds a file in memory reads it at word offsets, which wrap.
A read past the last byte is a fault of its own, apart from the errors the
program returns itself: that no input faults in this way is the statement that
the program never reads outside the file. Binds, fields, strings and counted
loops each have a rule for it.
-/

namespace RichardCore.CheckedReads

/-- A byte string whose size is a nonnegative signed word. -/
structure ByteString where
  /-- The bytes in file order. -/
  bytes : List (BitVec 8)
  /-- Every offset into the string, its end included, is a word. -/
  size_lt : bytes.length<2^63

/-- Number of bytes. -/
def ByteString.size (file : ByteString) : ℕ := file.bytes.length

/-- Why a reading program ends without a result. -/
inductive Fault (ρ : Type) where
  /-- It read a byte that is not in the string. -/
  | outside (off : BitVec 64)
  /-- It gave up by itself. -/
  | stop (reason : ρ)
  deriving DecidableEq, Repr

/-- A reading program that gives up for reasons `ρ`. -/
abbrev Checked (ρ α : Type) : Type := Except (Fault ρ) α

/-- A nonempty field of a record in the string. -/
structure Field where
  /-- First byte of the field in the record. -/
  pos : ℕ
  /-- Number of bytes. -/
  len : ℕ
  /-- A field has a byte. -/
  len_pos : 0<len := by decide
  deriving DecidableEq, Repr

section Reads

variable {ρ : Type} (file : ByteString)

/-- The byte at an offset, zero outside the string. -/
def byteAt (off : BitVec 64) : BitVec 8 := file.bytes.getD off.toNat 0

/-- Little-endian value of `count` bytes, zero where they are missing. -/
def bytesAt (off : BitVec 64) : ℕ → BitVec 64
  | 0 => 0
  | count+1 => bytesAt off count |||
      (byteAt file (off+BitVec.ofNat 64 count)).setWidth 64<<<(8*count)

/-- Value of a field of the record at an offset. -/
def fieldAt (record : BitVec 64) (f : Field) : BitVec 64 :=
  bytesAt file (record+BitVec.ofNat 64 f.pos) f.len

/-- The string holds the field of the record at an offset. -/
def HasField (record : BitVec 64) (f : Field) : Prop :=
  (record+BitVec.ofNat 64 f.pos).toNat+f.len≤file.size

instance (record : BitVec 64) (f : Field) : Decidable (HasField file record f) :=
  inferInstanceAs (Decidable (_≤_))

/-- Read one byte. -/
def readByte (off : BitVec 64) : Checked ρ (BitVec 8) :=
  if off.toNat<file.size then .ok (byteAt file off) else .error (.outside off)

/-- Read `count` bytes in order. -/
def readBytes (off : BitVec 64) : ℕ → Checked ρ (BitVec 64)
  | 0 => .ok 0
  | count+1 => do
    let low ← readBytes off count
    let byte ← readByte file (off+BitVec.ofNat 64 count)
    return low|||byte.setWidth 64<<<(8*count)

/-- Read a field of the record at an offset. -/
def readField (record : BitVec 64) (f : Field) : Checked ρ (BitVec 64) :=
  readBytes file (record+BitVec.ofNat 64 f.pos) f.len

/-- Bytes before the first zero byte, if there is one. -/
def beforeZero : List (BitVec 8) → Option (List (BitVec 8))
  | [] => none
  | byte::rest => if byte=0 then some [] else (beforeZero rest).map (byte::·)

/-- A zero byte follows the offset. -/
def Terminated (off : BitVec 64) : Prop := 0#8∈file.bytes.drop off.toNat

instance (off : BitVec 64) : Decidable (Terminated file off) :=
  inferInstanceAs (Decidable (_∈_))

/-- Read the zero-terminated string at an offset. Without a terminator the
scan leaves the string at its end, or at once when it starts beyond it. -/
def readCString (off : BitVec 64) : Checked ρ (List (BitVec 8)) :=
  match beforeZero (file.bytes.drop off.toNat) with
  | some name => .ok name
  | none => .error (.outside (BitVec.ofNat 64 (max off.toNat file.size)))

end Reads

/-- A loop over the indices below a bound. -/
def loop {ρ σ : Type} (body : σ → ℕ → Checked ρ σ) : ℕ → σ → Checked ρ σ
  | 0,s => .ok s
  | count+1,s => do
    let s' ← loop body count s
    body s' count

section Outcomes

variable {ρ α β : Type}

/-- The program reads outside the string. -/
def Outside (x : Checked ρ α) : Prop := ∃ off,x=.error (.outside off)

/-- The program gives up by itself. -/
def Stops (x : Checked ρ α) : Prop := ∃ reason,x=.error (.stop reason)

/-- The program returns a result. -/
def Returns (x : Checked ρ α) : Prop := ∃ a,x=.ok a

/-- A result is no read outside. -/
@[simp]
theorem not_outside_ok (a : α) : ¬Outside (.ok a : Checked ρ α) := by
  rintro ⟨off,h⟩
  cases h

/-- The same for the result of a program without reads. -/
@[simp]
theorem not_outside_pure (a : α) : ¬Outside (pure a : Checked ρ α) := not_outside_ok a

/-- A result is no failure. -/
@[simp]
theorem not_stops_ok (a : α) : ¬Stops (.ok a : Checked ρ α) := by
  rintro ⟨reason,h⟩
  cases h

/-- The same for the result of a program without reads. -/
@[simp]
theorem not_stops_pure (a : α) : ¬Stops (pure a : Checked ρ α) := not_stops_ok a

/-- A failure of its own is no read outside. -/
@[simp]
theorem not_outside_stop (reason : ρ) : ¬Outside (.error (.stop reason) : Checked ρ α) := by
  rintro ⟨off,h⟩
  cases h

/-- A failure of its own is one. -/
@[simp]
theorem stops_stop (reason : ρ) : Stops (.error (.stop reason) : Checked ρ α) := ⟨reason,rfl⟩

/-- A program that reads outside does not get to give up. -/
theorem Outside.not_stops {x : Checked ρ α} (h : Outside x) : ¬Stops x := by
  obtain ⟨off,rfl⟩ := h
  rintro ⟨reason,h'⟩
  cases h'

/-- A program returns unless it reads outside or gives up. -/
theorem returns_iff (x : Checked ρ α) : Returns x ↔ ¬Outside x ∧ ¬Stops x := by
  rcases x with (off|reason)|a
  · simp [Returns,Outside]
  · simp [Returns]
  · simp [Returns]

/-- A sequence reads outside in its first part or in its second. -/
theorem outside_bind (x : Checked ρ α) (k : α → Checked ρ β) :
    Outside (x>>=k) ↔ Outside x ∨ ∃ a,x=.ok a ∧ Outside (k a) := by
  rcases x with fault|a
  · simp [bind,Except.bind,Outside]
  · simp [bind,Except.bind]

/-- A sequence gives up in its first part or in its second. -/
theorem stops_bind (x : Checked ρ α) (k : α → Checked ρ β) :
    Stops (x>>=k) ↔ Stops x ∨ ∃ a,x=.ok a ∧ Stops (k a) := by
  rcases x with fault|a
  · simp [bind,Except.bind,Stops]
  · simp [bind,Except.bind]

/-- A sequence of parts that never give up never gives up. -/
theorem not_stops_bind {x : Checked ρ α} {k : α → Checked ρ β} (hx : ¬Stops x)
    (hk : ∀ a,¬Stops (k a)) : ¬Stops (x>>=k) := by
  rw [stops_bind]
  rintro (h|⟨a,-,h⟩)
  · exact hx h
  · exact hk a h

/-- When the second part's reads do not depend on the first result, a sequence
reads outside in its first part or, after a result, in its second. -/
theorem outside_bind_iff {x : Checked ρ α} {k : α → Checked ρ β} {P : Prop}
    (hk : ∀ a,Outside (k a) ↔ P) : Outside (x>>=k) ↔ Outside x ∨ Returns x ∧ P := by
  rw [outside_bind,Returns]
  simp only [hk,exists_and_right]

/-- A branch reads outside when the part it takes does. -/
theorem outside_ite (c : Prop) [Decidable c] (x y : Checked ρ α) :
    Outside (if c then x else y) ↔ (c ∧ Outside x) ∨ (¬c ∧ Outside y) := by
  by_cases hc : c <;> simp [hc]

end Outcomes

section Rules

variable {ρ α : Type} (file : ByteString)

/-- A byte in the string is read. -/
theorem readByte_ok (off : BitVec 64) (h : off.toNat<file.size) :
    (readByte file off : Checked ρ (BitVec 8))=.ok (byteAt file off) := if_pos h

/-- A byte beyond it is outside. -/
theorem readByte_outside (off : BitVec 64) (h : file.size≤off.toNat) :
    Outside (readByte file off : Checked ρ (BitVec 8)) := by
  rw [readByte,if_neg (by omega)]
  exact ⟨off,rfl⟩

/-- Bytes in the string are read in full. -/
theorem readBytes_ok (off : BitVec 64) (count : ℕ) (h : off.toNat+count≤file.size) :
    (readBytes file off count : Checked ρ (BitVec 64))=.ok (bytesAt file off count) := by
  induction count with
  | zero => rfl
  | succ count ih =>
    have hsize := file.size_lt
    have hpos : (off+BitVec.ofNat 64 count).toNat<file.size := by
      rw [BitVec.toNat_add,BitVec.toNat_ofNat]
      unfold ByteString.size at *
      omega
    rw [readBytes,ih (by omega),readByte_ok file _ hpos]
    rfl

/-- A run of bytes that ends beyond the string is not. -/
theorem readBytes_outside (off : BitVec 64) (count : ℕ) (hcount : 0<count)
    (h : file.size<off.toNat+count) : Outside (readBytes file off count : Checked ρ (BitVec 64)) := by
  induction count with
  | zero => omega
  | succ count ih =>
    have hsize := file.size_lt
    rw [readBytes,outside_bind]
    rcases Nat.eq_zero_or_pos count with rfl|hpos
    · right
      refine ⟨0,rfl,?_⟩
      rw [outside_bind]
      exact Or.inl (readByte_outside file _ (by simpa using Nat.le_of_lt_succ h))
    · rcases Nat.lt_or_ge file.size (off.toNat+count) with hlt|hge
      · exact Or.inl (ih hpos hlt)
      · right
        refine ⟨_,readBytes_ok file off count hge,?_⟩
        rw [outside_bind]
        left
        apply readByte_outside
        rw [BitVec.toNat_add,BitVec.toNat_ofNat]
        unfold ByteString.size at *
        omega

/-- A field the string holds is read. -/
theorem readField_ok (record : BitVec 64) (f : Field) (h : HasField file record f) :
    (readField file record f : Checked ρ (BitVec 64))=.ok (fieldAt file record f) :=
  readBytes_ok file _ _ h

/-- Another field is outside. -/
theorem readField_outside (record : BitVec 64) (f : Field) (h : ¬HasField file record f) :
    Outside (readField file record f : Checked ρ (BitVec 64)) :=
  readBytes_outside file _ f.len f.len_pos (Nat.lt_of_not_le h)

/-- A field read at the head of a program is outside, or the rest is. -/
@[simp]
theorem outside_readField_bind (record : BitVec 64) (f : Field) (k : BitVec 64 → Checked ρ α) :
    Outside (readField file record f>>=k) ↔
      ¬HasField file record f ∨ Outside (k (fieldAt file record f)) := by
  by_cases h : HasField file record f
  · rw [readField_ok file record f h]
    simp [bind,Except.bind,h]
  · have hout := readField_outside (ρ := ρ) file record f h
    simp [outside_bind,hout,h]

/-- A program that starts with a field gives up in its rest. -/
@[simp]
theorem stops_readField_bind (record : BitVec 64) (f : Field) (k : BitVec 64 → Checked ρ α) :
    Stops (readField file record f>>=k) ↔
      HasField file record f ∧ Stops (k (fieldAt file record f)) := by
  by_cases h : HasField file record f
  · rw [readField_ok file record f h]
    simp [bind,Except.bind,h]
  · obtain ⟨off,hout⟩ := readField_outside (ρ := ρ) file record f h
    rw [stops_bind,hout]
    simp [h,Stops]

/-- Reading a field never gives up. -/
theorem readField_not_stops (record : BitVec 64) (f : Field) :
    ¬Stops (readField file record f : Checked ρ (BitVec 64)) := by
  by_cases h : HasField file record f
  · rw [readField_ok file record f h]
    exact not_stops_ok _
  · exact (readField_outside file record f h).not_stops

/-- A byte read at the head of a program is outside, or the rest is. -/
@[simp]
theorem outside_readByte_bind (off : BitVec 64) (k : BitVec 8 → Checked ρ α) :
    Outside (readByte file off>>=k) ↔ file.size≤off.toNat ∨ Outside (k (byteAt file off)) := by
  by_cases h : off.toNat<file.size
  · simp [readByte,h,bind,Except.bind]
  · rw [readByte,if_neg h]
    simp [Nat.le_of_not_lt h,bind,Except.bind,Outside]

/-- A program that starts with a byte gives up in its rest. -/
@[simp]
theorem stops_readByte_bind (off : BitVec 64) (k : BitVec 8 → Checked ρ α) :
    Stops (readByte file off>>=k) ↔ off.toNat<file.size ∧ Stops (k (byteAt file off)) := by
  by_cases h : off.toNat<file.size
  · simp [readByte,h,bind,Except.bind]
  · rw [readByte,if_neg h]
    simp [h,bind,Except.bind,Stops]

/-- A record that has its first and its last bytes has those between them. -/
theorem hasField_between {record : BitVec 64} {first last f : Field}
    (hfirst : HasField file record first) (hlast : HasField file record last)
    (hle : first.pos≤f.pos) (hend : f.pos+f.len≤last.pos+last.len)
    (hbound : last.pos+last.len<2^63) : HasField file record f := by
  have hsize := file.size_lt
  have hlen := first.len_pos
  have hlen' := f.len_pos
  unfold HasField ByteString.size at *
  simp only [BitVec.toNat_add,BitVec.toNat_ofNat] at *
  omega

/-- A record in the string has its fields. -/
theorem hasField_of_record {record : BitVec 64} {len : ℕ} {f : Field}
    (hrecord : record.toNat+len≤file.size) (hf : f.pos+f.len≤len) : HasField file record f := by
  have hsize := file.size_lt
  have hlen := f.len_pos
  unfold HasField ByteString.size at *
  simp only [BitVec.toNat_add,BitVec.toNat_ofNat]
  omega

/-- An entry of a table in the string is in the string, at the offset its
index gives without a wrap. -/
theorem entry_bounds {table entry : BitVec 64} {count i : ℕ} (hi : i<count)
    (htable : table.toNat+count*entry.toNat≤file.size) :
    (table+BitVec.ofNat 64 i*entry).toNat+entry.toNat≤file.size := by
  have hsize := file.size_lt
  have hrow : (i+1)*entry.toNat≤count*entry.toNat := Nat.mul_le_mul_right _ hi
  have hindex : BitVec.ofNat 64 i*entry=BitVec.ofNat 64 (i*entry.toNat) := by
    apply BitVec.eq_of_toNat_eq
    rw [BitVec.toNat_mul,BitVec.toNat_ofNat,BitVec.toNat_ofNat,Nat.mod_mul_mod]
  unfold ByteString.size at *
  rw [Nat.add_mul,Nat.one_mul] at hrow
  rw [hindex,BitVec.toNat_add,BitVec.toNat_ofNat]
  omega

/-- The end of such a table is computed without a wrap. -/
theorem table_end {table entry count : BitVec 64}
    (htable : table.toNat+count.toNat*entry.toNat≤file.size) :
    (table+count*entry).toNat≤file.size := by
  have hsize := file.size_lt
  rw [BitVec.toNat_add,BitVec.toNat_mul]
  unfold ByteString.size at *
  omega

/-- The scan finds a zero byte exactly when there is one. -/
theorem beforeZero_isSome (bytes : List (BitVec 8)) : (beforeZero bytes).isSome=true ↔ 0#8∈bytes := by
  induction bytes with
  | nil => simp [beforeZero]
  | cons byte rest ih =>
    rw [beforeZero,List.mem_cons]
    by_cases hz : byte=0#8
    · simp [hz]
    · have hz' : ¬0#8=byte := fun h => hz h.symm
      simp [hz,hz',ih]

/-- A terminated string has a value. -/
theorem Terminated.name {off : BitVec 64} (h : Terminated file off) :
    ∃ name,beforeZero (file.bytes.drop off.toNat)=some name :=
  Option.isSome_iff_exists.mp ((beforeZero_isSome _).mpr h)

/-- It is read. -/
theorem readCString_ok (off : BitVec 64) (name : List (BitVec 8))
    (h : beforeZero (file.bytes.drop off.toNat)=some name) :
    (readCString file off : Checked ρ (List (BitVec 8)))=.ok name := by
  rw [readCString,h]

/-- Without a terminator the scan leaves the string. -/
theorem readCString_outside (off : BitVec 64) (h : ¬Terminated file off) :
    Outside (readCString file off : Checked ρ (List (BitVec 8))) := by
  have hnone : beforeZero (file.bytes.drop off.toNat)=none := by
    rw [←Option.not_isSome_iff_eq_none,beforeZero_isSome]
    exact h
  exact ⟨_,by rw [readCString,hnone]⟩

/-- Reading a string never gives up. -/
theorem readCString_not_stops (off : BitVec 64) :
    ¬Stops (readCString file off : Checked ρ (List (BitVec 8))) := by
  rintro ⟨reason,h⟩
  unfold readCString at h
  split at h <;> cases h

end Rules

section Loops

variable {ρ σ : Type} {body : σ → ℕ → Checked ρ σ}

/-- A loop keeps an invariant indexed by the iterations done. -/
theorem loop_ok (Inv : ℕ → σ → Prop) (count : ℕ) (s : σ) (hstart : Inv 0 s)
    (hstep : ∀ s i,i<count → Inv i s → ∃ s',body s i=.ok s' ∧ Inv (i+1) s') :
    ∃ s',loop body count s=.ok s' ∧ Inv count s' := by
  induction count with
  | zero => exact ⟨s,rfl,hstart⟩
  | succ count ih =>
    obtain ⟨s₁,hrun,hinv⟩ := ih (fun s i hi => hstep s i (by omega))
    obtain ⟨s₂,hbody,hinv'⟩ := hstep s₁ count (by omega) hinv
    refine ⟨s₂,?_,hinv'⟩
    rw [loop,hrun]
    exact hbody

variable {D R : ℕ → Prop}

/-- When no iteration's outcome depends on the state, a loop returns exactly
when every iteration does. -/
theorem loop_returns (count : ℕ) (s : σ) (hout : ∀ s i,i<count → (Outside (body s i) ↔ D i))
    (hstop : ∀ s i,i<count → (Stops (body s i) ↔ ¬D i ∧ R i)) :
    Returns (loop body count s) ↔ ∀ i<count,¬D i ∧ ¬R i := by
  have hbody : ∀ s i,i<count → (Returns (body s i) ↔ ¬D i ∧ ¬R i) := by
    intro s i hi
    rw [returns_iff,hout s i hi,hstop s i hi]
    tauto
  clear hout hstop
  induction count with
  | zero => exact ⟨fun _ i hi => absurd hi (Nat.not_lt_zero i),fun _ => ⟨s,rfl⟩⟩
  | succ count ih =>
    have hearly := ih (fun s i hi => hbody s i (by omega))
    rw [loop,Nat.forall_lt_succ_right]
    constructor
    · rintro ⟨s₂,h⟩
      rcases hrun : loop body count s with fault|s₁
      · rw [hrun] at h
        cases h
      · rw [hrun] at h
        exact ⟨hearly.mp ⟨s₁,hrun⟩,(hbody s₁ count (by omega)).mp ⟨s₂,h⟩⟩
    · rintro ⟨hearlier,hlast⟩
      obtain ⟨s₁,hrun⟩ := hearly.mpr hearlier
      obtain ⟨s₂,h⟩ := (hbody s₁ count (by omega)).mpr hlast
      exact ⟨s₂,by rw [hrun]; exact h⟩

/-- Such a loop reads outside exactly when an iteration does that no earlier
iteration's failure prevents. -/
theorem loop_outside (count : ℕ) (s : σ) (hout : ∀ s i,i<count → (Outside (body s i) ↔ D i))
    (hstop : ∀ s i,i<count → (Stops (body s i) ↔ ¬D i ∧ R i)) :
    Outside (loop body count s) ↔ ∃ i<count,D i ∧ ∀ j < i,¬R j := by
  induction count with
  | zero => simp [loop]
  | succ count ih =>
    have hout' : ∀ s i,i<count → (Outside (body s i) ↔ D i) := fun s i hi => hout s i (by omega)
    have hstop' : ∀ s i,i<count → (Stops (body s i) ↔ ¬D i ∧ R i) :=
      fun s i hi => hstop s i (by omega)
    have hret := loop_returns count s hout' hstop'
    rw [loop,outside_bind,ih hout' hstop',Nat.exists_lt_succ_right]
    constructor
    · rintro (hearly|⟨s₁,hrun,hlast⟩)
      · exact Or.inl hearly
      · have hnone := hret.mp ⟨s₁,hrun⟩
        exact Or.inr ⟨(hout s₁ count (by omega)).mp hlast,fun j hj => (hnone j hj).2⟩
    · rintro (hearly|⟨hlast,hnone⟩)
      · exact Or.inl hearly
      · by_cases hd : ∃ i<count,D i
        · obtain ⟨i,hi,hdi⟩ := hd
          exact Or.inl ⟨i,hi,hdi,fun j hj => hnone j (by omega)⟩
        · have hnd : ∀ i<count,¬D i ∧ ¬R i := fun i hi => ⟨fun h => hd ⟨i,hi,h⟩,hnone i hi⟩
          obtain ⟨s₁,hrun⟩ := hret.mpr hnd
          exact Or.inr ⟨s₁,hrun,(hout s₁ count (by omega)).mpr hlast⟩

/-- A loop that never gives up reads outside exactly when an iteration does. -/
theorem loop_outside_of_total (count : ℕ) (s : σ)
    (hout : ∀ s i,i<count → (Outside (body s i) ↔ D i))
    (hstop : ∀ s i,i<count → ¬Stops (body s i)) :
    Outside (loop body count s) ↔ ∃ i<count,D i := by
  have hnever : ∀ s i,i<count → (Stops (body s i) ↔ ¬D i ∧ False) := by
    intro s i hi
    simp [hstop s i hi]
  rw [loop_outside count s hout hnever]
  simp

/-- A loop gives up only in an iteration. -/
theorem loop_not_stops (count : ℕ) (s : σ) (hstop : ∀ s i,i<count → ¬Stops (body s i)) :
    ¬Stops (loop body count s) := by
  induction count with
  | zero => exact not_stops_ok s
  | succ count ih =>
    rw [loop,stops_bind]
    rintro (hearly|⟨s₁,-,hlast⟩)
    · exact ih (fun s i hi => hstop s i (by omega)) hearly
    · exact hstop s₁ count (by omega) hlast

end Loops

end RichardCore.CheckedReads
