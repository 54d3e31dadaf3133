import RichardCore.Datapath
import RichardCore.Effects
import RichardCore.Harness

/-!
# Stores and loads through the byte memory

The memory stage places a store into its byte lanes and describes it twice,
by byte strobes and by a size code; the byte memory goes by the size code,
and the memory stage cuts loads out of the doubleword it reads. On the
defined widths all three agree on the little-endian bytes of the value.
-/

namespace RichardCore.StoreLoad

open Packages Decoder DataMemory Isa Datapath Pipeline Clocked Tracking Effects Harness

/-- What a load makes of a value stored with its width. -/
def extend (width : LoadOp) (value : Word) : Word :=
  match width with
  | .lb => (value.setWidth 8).signExtend 64
  | .lh => (value.setWidth 16).signExtend 64
  | .lw => (value.setWidth 32).signExtend 64
  | .ld => value
  | .lbu => (value.setWidth 8).setWidth 64
  | .lhu => (value.setWidth 16).setWidth 64
  | .lwu => (value.setWidth 32).setWidth 64

/-- No byte of the first range is in the second. -/
def Disjoint (a : Word) (m : ℕ) (b : Word) (n : ℕ) : Prop :=
  ∀ i < m,∀ j < n,a+BitVec.ofNat 64 i≠b+BitVec.ofNat 64 j

section Bytes

variable (memory : ByteMemory) (addr value : Word)

/-- Offset of a byte of a range that starts at an address. -/
theorem offset_toNat {i : ℕ} (hi : i < 2^64) : (addr+BitVec.ofNat 64 i-addr).toNat=i := by
  rw [BitVec.add_comm,BitVec.add_sub_cancel,BitVec.toNat_ofNat,Nat.mod_eq_of_lt hi]

/-- Reading back the bytes just stored gives the low bits of the value. -/
theorem readBytes_stored {count : ℕ} (hcount : count≤8) :
    readBytes (storeValue memory addr count value) addr (8*count) count=
      value.setWidth (8*count) := by
  apply BitVec.eq_of_getLsbD_eq
  intro j hj
  have hbyte : j/8 < count := by omega
  have hoffset := offset_toNat addr (i := j/8) (by omega)
  have hsplit : 8*(j/8)+j%8=j := by omega
  have hmod : j%8 < 8 := by omega
  rw [getLsbD_readBytes _ _ _ _ _ hj,BitVec.getLsbD_setWidth]
  unfold storeValue
  rw [hoffset,if_pos hbyte,BitVec.getLsbD_setWidth,BitVec.getLsbD_ushiftRight,hsplit,
    decide_eq_true hmod,Bool.true_and]

/-- A read depends on its bytes only. -/
theorem readBytes_congr {memory memory' : ByteMemory} {width count : ℕ}
    (h : ∀ i < count,memory (addr+BitVec.ofNat 64 i)=memory' (addr+BitVec.ofNat 64 i)) :
    readBytes memory addr width count=readBytes memory' addr width count := by
  induction count with
  | zero => rfl
  | succ count ih =>
    have hprev := ih fun i hi => h i (Nat.lt_succ_of_lt hi)
    rw [readBytes,readBytes,hprev,h count (Nat.lt_succ_self count)]

/-- Bytes outside the stored range stay. -/
theorem storeValue_frame {count : ℕ} {a : Word}
    (h : ∀ j < count,a≠addr+BitVec.ofNat 64 j) : storeValue memory addr count value a=memory a := by
  unfold storeValue
  rw [if_neg]
  intro hlt
  refine h _ hlt ?_
  rw [BitVec.ofNat_toNat,BitVec.setWidth_eq,BitVec.add_comm,BitVec.sub_add_cancel]

/-- A load of the stored width reads the value back. -/
theorem eval_stored (load : LoadOp) {count : ℕ} (h : load.bytes=count) :
    load.eval (storeValue memory addr count value) addr=extend load value := by
  subst h
  have hin : load.bytes≤8 := by cases load <;> decide
  have hread := readBytes_stored memory addr value hin
  cases load with
  | lb | lh | lw => exact congrArg (fun x => BitVec.signExtend 64 x) hread
  | ld => exact hread.trans (BitVec.setWidth_eq value)
  | lbu | lhu | lwu => exact congrArg (fun x => BitVec.setWidth 64 x) hread

/-- A load of other bytes does not see the store. -/
theorem eval_disjoint (load : LoadOp) {count : ℕ} {a : Word}
    (h : Disjoint a load.bytes addr count) :
    load.eval (storeValue memory addr count value) a=load.eval memory a := by
  have hread : ∀ width,readBytes (storeValue memory addr count value) a width load.bytes=
      readBytes memory a width load.bytes :=
    fun width => readBytes_congr a fun i hi => storeValue_frame memory addr value (h i hi)
  cases load with
  | lb => exact congrArg (fun x => BitVec.signExtend 64 x) (hread 8)
  | lh => exact congrArg (fun x => BitVec.signExtend 64 x) (hread 16)
  | lw => exact congrArg (fun x => BitVec.signExtend 64 x) (hread 32)
  | ld => exact hread 64
  | lbu => exact congrArg (fun x => BitVec.setWidth 64 x) (hread 8)
  | lhu => exact congrArg (fun x => BitVec.setWidth 64 x) (hread 16)
  | lwu => exact congrArg (fun x => BitVec.setWidth 64 x) (hread 32)

end Bytes

/-- An aligned store of a defined width in MEM. -/
structure Stores (e : ExMem) (width : StoreOp) : Prop where
  /-- It is a store. -/
  isStore : e.mem.isStore=true
  /-- Its function code. -/
  size : e.mem.memSize=width.code
  /-- Its natural alignment. -/
  aligned : e.aluResult.toNat%width.bytes=0

/-- An aligned load of a defined width in MEM. -/
structure Loads (e : ExMem) (width : LoadOp) : Prop where
  /-- It is a load. -/
  isLoad : e.mem.isLoad=true
  /-- Its function code. -/
  size : e.mem.memSize=width.code
  /-- Its natural alignment. -/
  aligned : e.aluResult.toNat%width.bytes=0

/-- The store reaches the memory as its little-endian bytes. -/
theorem Stores.edge {e : ExMem} {width : StoreOp} (h : Stores e width) (memory : ByteMemory) :
    byteDevice.edge memory (dmemRequest e)=
      storeValue memory e.aluResult width.bytes e.rs2Rdata := by
  have haligned : addrMisaligned e.mem.memSize e.aluResult=false := by
    rw [h.size]
    exact store_aligned width h.aligned
  have hwrite : (dmemRequest e).writeEn=true := by
    change (e.mem.isStore && !(e.mem.isStore && addrMisaligned e.mem.memSize e.aluResult))=true
    rw [h.isStore,haligned]
    rfl
  unfold DataDevice.edge
  rw [if_pos hwrite]
  exact writeStore_code width e memory h.isStore h.size h.aligned

/-- The load returns the little-endian bytes of the memory, extended. -/
theorem Loads.result {l : ExMem} {width : LoadOp} (h : Loads l width) (memory : ByteMemory) :
    (memStage l (byteDevice.read memory (dmemRequest l))).memRdata=
      width.eval memory l.aluResult := by
  have haligned : addrMisaligned l.mem.memSize l.aluResult=false := by
    rw [h.size]
    exact load_aligned width h.aligned
  have hread : (dmemRequest l).readEn=true := by
    change (l.mem.isLoad && !(l.mem.isLoad && addrMisaligned l.mem.memSize l.aluResult))=true
    rw [h.isLoad,haligned]
    rfl
  have hdata : byteDevice.read memory (dmemRequest l)=readU64 memory (alignDown l.aluResult) :=
    if_pos hread
  change loadDataAligned l.mem.memSize l.aluResult _=_
  rw [hdata,h.size]
  exact loadDataAligned_code memory l.aluResult width h.aligned

/-- For every memory and every aligned store of a defined width, through the
memory stage and the byte memory: a load of the same width from the same
address returns the stored low bits, extended as the load says, and every
aligned load of other bytes returns what it returned before. -/
theorem store_load (memory : ByteMemory) (e : ExMem) (width : StoreOp) (he : Stores e width) :
    (∀ l load,Loads l load → load.bytes=width.bytes → l.aluResult=e.aluResult →
      (memStage l (byteDevice.read (byteDevice.edge memory (dmemRequest e))
        (dmemRequest l))).memRdata=extend load e.rs2Rdata) ∧
    ∀ l load,Loads l load → Disjoint l.aluResult load.bytes e.aluResult width.bytes →
      (memStage l (byteDevice.read (byteDevice.edge memory (dmemRequest e))
        (dmemRequest l))).memRdata=
      (memStage l (byteDevice.read memory (dmemRequest l))).memRdata := by
  refine ⟨fun l load hl hbytes haddr => ?_,fun l load hl hdisjoint => ?_⟩
  · rw [hl.result,he.edge,haddr,eval_stored _ _ _ load hbytes]
  · rw [hl.result,hl.result,he.edge,eval_disjoint _ _ _ load hdisjoint]

/-- A record in MEM that only accesses memory. -/
def accessRecord (isLoad isStore : Bool) (size : BitVec 3) (addr data : Word) : ExMem :=
  {exMemReset with
    aluResult := addr, rs2Rdata := data, mem := ⟨isLoad,isStore,size⟩}

/-- SH of 0x8001 to address 6, then LH from there: the sign is extended. -/
theorem store_load_halfword :
    (memStage (accessRecord true false 0b001 6 0)
      (byteDevice.read
        (byteDevice.edge (fun _ => 0) (dmemRequest (accessRecord false true 0b001 6 0x8001)))
        (dmemRequest (accessRecord true false 0b001 6 0)))).memRdata=0xffffffffffff8001 :=
  (store_load (fun _ => 0) (accessRecord false true 0b001 6 0x8001) .sh ⟨rfl,rfl,rfl⟩).1
    (accessRecord true false 0b001 6 0) .lh ⟨rfl,rfl,rfl⟩ rfl rfl

/-- A store carries its function code as its size. -/
theorem decoder_storeSize (word : BitVec 32) (mode : BitVec 2)
    (h : (decoder word mode).mem.isStore=true) : (decoder word mode).mem.memSize=funct3 word := by
  revert h
  unfold decoder
  dsimp only
  repeat' split
  all_goals simp [decodeDefaults,memDefaults]

/-- The byte strobes describe the merge of the memory: it changes exactly the
strobed bytes of the doubleword, to the bytes in their lanes, and there is at
least one. -/
def StrobesAgree (e : ExMem) : Prop :=
  (∀ memory,byteDevice.write memory (dmemRequest e)=
    strobeWrite memory e.aluResult (storeDataAligned e) (writeStrobe e)) ∧
  writeStrobe e≠0

/-- The strobes of a defined width agree. -/
theorem Stores.strobes {e : ExMem} {width : StoreOp} (h : Stores e width) : StrobesAgree e := by
  refine ⟨fun memory => ?_,fun hzero => ?_⟩
  · exact (writeStore_code width e memory h.isStore h.size h.aligned).trans
      (strobeWrite_code width e memory h.isStore h.size h.aligned).symm
  · -- the addressed byte is strobed
    have hlane : e.aluResult.toNat%8 < 8 := Nat.mod_lt _ (by decide)
    have hset := writeStrobe_lanes width e h.isStore h.size h.aligned hlane
    have hpos : 0 < width.bytes := by cases width <;> decide
    have hin : e.aluResult.toNat%8≤e.aluResult.toNat%8 ∧
        e.aluResult.toNat%8 < e.aluResult.toNat%8+width.bytes := by omega
    rw [hzero,decide_eq_true hin] at hset
    cases BitVec.getLsbD_zero.symm.trans hset

/-- Function codes with bit 2 clear are the four stores. -/
theorem storeOp_of_code {code : BitVec 3} (h : code.getLsbD 2=false) :
    ∃ width : StoreOp,code=width.code := by
  have hcodes : ∀ c : BitVec 3,c.getLsbD 2=false → c=0b000 ∨ c=0b001 ∨ c=0b010 ∨ c=0b011 := by
    decide
  obtain rfl | rfl | rfl | rfl := hcodes code h
  · exact ⟨.sb,rfl⟩
  · exact ⟨.sh,rfl⟩
  · exact ⟨.sw,rfl⟩
  · exact ⟨.sd,rfl⟩

/-- The other codes strobe nothing. -/
theorem writeStrobe_undefined {e : ExMem} (h : e.mem.memSize.getLsbD 2=true) : writeStrobe e=0 := by
  have hcodes : ∀ c : BitVec 3,c.getLsbD 2=true → c=0b100 ∨ c=0b101 ∨ c=0b110 ∨ c=0b111 := by
    decide
  unfold writeStrobe
  dsimp only
  obtain hc | hc | hc | hc := hcodes _ h <;> rw [hc] <;> exact ite_self _

/-- An aligned store with a defined code in MEM. -/
theorem stores_of_request {e : ExMem} (hwrite : (dmemRequest e).writeEn=true) {width : StoreOp}
    (hsize : e.mem.memSize=width.code) : Stores e width := by
  change (e.mem.isStore && !(e.mem.isStore && addrMisaligned e.mem.memSize e.aluResult))=true at hwrite
  rw [Bool.and_eq_true,Bool.not_eq_true'] at hwrite
  obtain ⟨hstore,haligned⟩ := hwrite
  have hdefined : e.mem.memSize≠0b111 := by
    rw [hsize]
    cases width <;> decide
  have hbytes : storeBytes e.mem.memSize=width.bytes := by
    rw [hsize]
    cases width <;> rfl
  rw [hstore,Bool.true_and,addrMisaligned_eq _ _ hdefined,hbytes,decide_eq_false_iff_not,
    Decidable.not_not] at haligned
  exact ⟨hstore,hsize,haligned⟩

/-- In every run, in every cycle with a write request: MEM holds an
instruction, and its strobes agree with the merge of the memory exactly when
bit 2 of its function code is clear. -/
theorem strobes_agree_iff (inputs : ℕ → Inputs) (t : ℕ)
    (hwrite : dmemWriteWire (trackedRun inputs t).core=true) :
    ∃ k,(trackedRun inputs t).tags.mem=.instr k ∧
      (StrobesAgree (trackedRun inputs t).core.exMem ↔ (funct3 k.word).getLsbD 2=false) := by
  have hslot := (trackedRun_slotsOk inputs t).mem
  have hstore : (trackedRun inputs t).core.exMem.mem.isStore=true :=
    (Bool.and_eq_true_iff.mp hwrite).1
  cases htag : (trackedRun inputs t).tags.mem with
  | bubble b =>
    -- an empty slot requests nothing
    rw [htag] at hslot
    rw [hslot.2.mem.2] at hstore
    cases hstore
  | instr k =>
    rw [htag] at hslot
    obtain ⟨-,-,hcarries⟩ := hslot
    rw [hcarries.mem] at hstore
    have hsize : (trackedRun inputs t).core.exMem.mem.memSize=funct3 k.word := by
      rw [hcarries.mem]
      exact decoder_storeSize k.word k.mode.bits hstore
    refine ⟨k,rfl,?_⟩
    cases hcode : (funct3 k.word).getLsbD 2 with
    | false =>
      obtain ⟨width,hwidth⟩ := storeOp_of_code hcode
      exact iff_of_true (stores_of_request hwrite (hsize.trans hwidth)).strobes rfl
    | true =>
      have hnone := writeStrobe_undefined (hsize ▸ hcode)
      exact iff_of_false (fun h => h.2 hnone) (by decide)

/-- SB x0,0(x0) at the reset address: the strobes agree. -/
theorem strobes_agree_sb :
    StrobesAgree (trackedRun (programInputs [0x00000023] fun _ => .low) 3).core.exMem := by
  obtain ⟨k,hk,hiff⟩ := strobes_agree_iff (programInputs [0x00000023] fun _ => .low) 3
    (by decide +kernel)
  have hmem : (trackedRun (programInputs [0x00000023] fun _ => .low) 3).tags.mem=
      .instr ⟨⟨⟨0,0x80000000,0x00000023⟩,.m⟩,0x80000004,false⟩ := by decide +kernel
  cases hk.symm.trans hmem
  exact hiff.mpr (by decide)

/-- The store word with function code 100 requests a write without strobes,
and the memory clears the addressed byte. -/
theorem strobes_disagree_code4 :
    let s := (trackedRun (programInputs [0x00004023] fun _ => .low) 3).core
    dmemWriteWire s=true ∧ writeStrobe s.exMem=0 ∧
    byteDevice.write (fun _ => 0xff) (dmemRequest s.exMem) 0=0 ∧ ¬StrobesAgree s.exMem := by
  intro s
  have hnone : writeStrobe s.exMem=0 := by decide +kernel
  exact ⟨by decide +kernel,hnone,by decide +kernel,fun h => h.2 hnone⟩

end RichardCore.StoreLoad
