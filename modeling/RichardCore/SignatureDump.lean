import RichardCore.Datapath
import RichardCore.ElfLoader

/-!
# What a signature says about memory

The runner prints the signature region as doublewords in hexadecimal, one a
line, while a whole doubleword is left. Lines have one length and their digits
give back the value, so a text determines every doubleword printed. The bytes
after the last whole doubleword are not printed; and a region that ends within
a doubleword of the address space keeps the loop running for ever, because
its offset wraps.
-/

namespace RichardCore.SignatureDump

open Packages DataMemory ElfLoader

/-- Digits of the hexadecimal stream format. -/
def hexDigits : List Char :=
  ['0','1','2','3','4','5','6','7','8','9','a','b','c','d','e','f']

/-- Digit of a value below sixteen. -/
def hexDigit (value : BitVec 4) : Char := hexDigits.getD value.toNat '0'

/-- A doubleword in sixteen digits, highest first, and the end of the line. -/
def hexLine (value : Word) : List Char :=
  (List.range 16).map (fun i => hexDigit (value.extractLsb' (4*(15-i)) 4))++['\n']

/-- The printing loop from an offset, for at most `fuel` evaluations of its
condition. -/
def dumpLoop (memory : ByteMemory) (start bytes : Word) : ℕ → Word → Option (List Char)
  | 0,_ => none
  | fuel+1,off =>
    if (off+8).toNat≤bytes.toNat then
      (dumpLoop memory start bytes fuel (off+8)).map
        (hexLine (readU64 memory (start+off))++·)
    else some []

/-- Text of the signature file, if it is finished. -/
def dumpSignature (memory : ByteMemory) (symbols : Symbols) (fuel : ℕ) : Option (List Char) :=
  if symbols.beginSignature=0 ∨ symbols.endSignature.toNat≤ symbols.beginSignature.toNat then
    some "00000000\n".toList
  else dumpLoop memory symbols.beginSignature (symbols.endSignature-symbols.beginSignature) fuel 0

/-- The runner writes a signature. -/
def Writes (memory : ByteMemory) (symbols : Symbols) (text : List Char) : Prop :=
  ∃ fuel,dumpSignature memory symbols fuel=some text

section Lines

/-- Digits are different. -/
theorem hexDigit_injective : ∀ x y,hexDigit x=hexDigit y → x=y := by decide

/-- Every line has the same length. -/
theorem hexLine_length (value : Word) : (hexLine value).length=17 := by
  rw [hexLine,List.length_append,List.length_map,List.length_range]
  rfl

/-- A line gives back its doubleword. -/
theorem hexLine_injective : Function.Injective hexLine := by
  intro x y h
  have hdigits := List.append_cancel_right h
  rw [List.map_inj_left] at hdigits
  apply BitVec.eq_of_getLsbD_eq
  intro j hj
  have hnibble := hexDigit_injective _ _ (hdigits (15-j/4) (List.mem_range.mpr (by omega)))
  have hbit := congrArg (fun z => z.getLsbD (j%4)) hnibble
  have hpos : 4*(15-(15-j/4))+j%4=j := by omega
  have hmod : j%4<4 := Nat.mod_lt _ (by decide)
  simpa only [BitVec.getLsbD_extractLsb',hpos,hmod,decide_true,Bool.true_and] using hbit

end Lines

section Loop

variable (memory memory' : ByteMemory) (start bytes : Word)

/-- The number of whole doublewords in the region. -/
def lineCount (bytes : Word) : ℕ := bytes.toNat/8

/-- Below the wrap the loop condition counts whole doublewords. -/
theorem dump_continues (hsmall : bytes.toNat<2^64-8) (k : ℕ) (hk : k≤lineCount bytes) :
    (BitVec.ofNat 64 (8*k)+8).toNat≤bytes.toNat ↔ k<lineCount bytes := by
  have hbytes := bytes.isLt
  unfold lineCount at *
  rw [BitVec.toNat_add,BitVec.toNat_ofNat]
  change (8*k%2^64+8)%2^64≤bytes.toNat ↔ _
  omega

/-- The next offset. -/
theorem offset_succ (k : ℕ) : BitVec.ofNat 64 (8*k)+8=BitVec.ofNat 64 (8*(k+1)) := by
  rw [Nat.mul_add,BitVec.ofNat_add]
  rfl

/-- Text printed from doubleword `k` on. -/
def lines (k : ℕ) : ℕ → List Char
  | 0 => []
  | count+1 => hexLine (readU64 memory (start+BitVec.ofNat 64 (8*k)))++lines (k+1) count

/-- Below the wrap the loop prints every whole doubleword and ends. -/
theorem dumpLoop_lines (hsmall : bytes.toNat<2^64-8) (k count : ℕ)
    (hcount : k+count=lineCount bytes) (fuel : ℕ) (text : List Char) :
    dumpLoop memory start bytes fuel (BitVec.ofNat 64 (8*k))=some text ↔
      count<fuel ∧ text=lines memory start k count := by
  induction count generalizing k fuel text with
  | zero =>
    have hstop : ¬(BitVec.ofNat 64 (8*k)+8).toNat≤bytes.toNat := by
      rw [dump_continues bytes hsmall k (by omega)]
      omega
    cases fuel with
    | zero => simp [dumpLoop]
    | succ fuel =>
      rw [dumpLoop,if_neg hstop,lines]
      simp [eq_comm]
  | succ count ih =>
    have hmore : (BitVec.ofNat 64 (8*k)+8).toNat≤bytes.toNat :=
      (dump_continues bytes hsmall k (by omega)).mpr (by omega)
    cases fuel with
    | zero => simp [dumpLoop]
    | succ fuel =>
      rw [dumpLoop,if_pos hmore,offset_succ,Option.map_eq_some_iff,lines]
      constructor
      · rintro ⟨rest,hrest,rfl⟩
        obtain ⟨hlt,rfl⟩ := (ih (k+1) (by omega) fuel rest).mp hrest
        exact ⟨by omega,rfl⟩
      · rintro ⟨hlt,rfl⟩
        exact ⟨_,(ih (k+1) (by omega) fuel _).mpr ⟨by omega,rfl⟩,rfl⟩

/-- From the wrap on the loop never ends. -/
theorem dumpLoop_diverges (hlarge : 2^64-8≤bytes.toNat) (fuel : ℕ) (off : Word)
    (hoff : off.toNat%8=0) : dumpLoop memory start bytes fuel off=none := by
  induction fuel generalizing off with
  | zero => rfl
  | succ fuel ih =>
    have hnext : (off+8).toNat=(off.toNat+8)%2^64 := BitVec.toNat_add off 8
    rw [dumpLoop,if_pos (by omega),ih (off+8) (by omega)]
    rfl

/-- Two doublewords are equal exactly when their bytes are. -/
theorem readU64_eq_iff (addr : Word) :
    readU64 memory addr=readU64 memory' addr ↔
      ∀ i<8,memory (addr+BitVec.ofNat 64 i)=memory' (addr+BitVec.ofNat 64 i) := by
  constructor
  · intro h i hi
    apply BitVec.eq_of_getLsbD_eq
    intro j hj
    have hbit := congrArg (fun x => x.getLsbD (8*i+j)) h
    have hdiv : (8*i+j)/8=i := by omega
    have hmod : (8*i+j)%8=j := by omega
    have hin : 8*i+j<8*8 := by omega
    simpa only [readU64,Datapath.getLsbD_readBytes _ _ _ _ _ hin,hdiv,hmod,hin,decide_true,
      Bool.true_and] using hbit
  · intro h
    apply BitVec.eq_of_getLsbD_eq
    intro j hj
    rw [readU64,readU64,Datapath.getLsbD_readBytes _ _ _ _ _ hj,
      Datapath.getLsbD_readBytes _ _ _ _ _ hj,h (j/8) (by omega)]

/-- Two texts agree exactly when the doublewords printed do. -/
theorem lines_eq_iff (k count : ℕ) :
    lines memory start k count=lines memory' start k count ↔
      ∀ i,k ≤ i → i<k+count → readU64 memory (start+BitVec.ofNat 64 (8*i))=
        readU64 memory' (start+BitVec.ofNat 64 (8*i)) := by
  induction count generalizing k with
  | zero => exact ⟨fun _ i hlo hhi => by omega,fun _ => rfl⟩
  | succ count ih =>
    have hlen : (hexLine (readU64 memory (start+BitVec.ofNat 64 (8*k)))).length=
        (hexLine (readU64 memory' (start+BitVec.ofNat 64 (8*k)))).length := by
      rw [hexLine_length,hexLine_length]
    rw [lines,lines]
    constructor
    · intro h i hlo hhi
      obtain ⟨hline,hrest⟩ := List.append_inj h hlen
      rcases Nat.eq_or_lt_of_le hlo with rfl|hlt
      · exact hexLine_injective hline
      · exact (ih (k+1)).mp hrest i hlt (by omega)
    · intro h
      rw [h k (Nat.le_refl k) (by omega),(ih (k+1)).mpr fun i hlo hhi => h i (by omega) (by omega)]

/-- Bytes covered by whole doublewords. -/
theorem lines_eq_iff_bytes (count : ℕ) :
    lines memory start 0 count=lines memory' start 0 count ↔
      ∀ n<8*count,memory (start+BitVec.ofNat 64 n)=memory' (start+BitVec.ofNat 64 n) := by
  have hsplit : ∀ i j,start+BitVec.ofNat 64 (8*i)+BitVec.ofNat 64 j=
      start+BitVec.ofNat 64 (8*i+j) := by
    intro i j
    rw [BitVec.add_assoc,←BitVec.ofNat_add]
  rw [lines_eq_iff]
  simp only [readU64_eq_iff,hsplit]
  constructor
  · intro h n hn
    have hdiv : 8*(n/8)+n%8=n := Nat.div_add_mod n 8
    have hbyte := h (n/8) (Nat.zero_le _) (by omega) (n%8) (Nat.mod_lt n (by decide))
    rwa [hdiv] at hbyte
  · intro h i _ hi j hj
    exact h (8*i+j) (by omega)

end Loop

section Region

variable (symbols : Symbols)

/-- Number of bytes in the signature region. -/
def regionSize : ℕ := (symbols.endSignature-symbols.beginSignature).toNat

/-- A signature is asked for. -/
def HasRegion : Prop :=
  0<symbols.beginSignature.toNat ∧ symbols.beginSignature.toNat<symbols.endSignature.toNat

/-- Such a region does not begin at zero. -/
theorem HasRegion.begin_ne_zero {symbols : Symbols} (h : HasRegion symbols) :
    symbols.beginSignature≠0 := by
  intro hzero
  have hpos := h.1
  rw [hzero] at hpos
  exact Nat.lt_irrefl 0 hpos

/-- Text of a region below the wrap. -/
theorem writes_iff (h : HasRegion symbols) (hsmall : regionSize symbols<2^64-8)
    (memory : ByteMemory) (text : List Char) :
    Writes memory symbols text ↔
      text=lines memory symbols.beginSignature 0 (regionSize symbols/8) := by
  have hregion : ¬(symbols.beginSignature=0 ∨
      symbols.endSignature.toNat≤ symbols.beginSignature.toNat) :=
    not_or.mpr ⟨h.begin_ne_zero,Nat.not_le_of_lt h.2⟩
  have hlines := dumpLoop_lines memory symbols.beginSignature _ hsmall 0 (regionSize symbols/8)
    (Nat.zero_add _)
  unfold Writes dumpSignature
  simp only [hregion,if_false]
  constructor
  · rintro ⟨fuel,hfuel⟩
    exact ((hlines fuel text).mp hfuel).2
  · intro htext
    exact ⟨_,(hlines (regionSize symbols/8+1) text).mpr ⟨Nat.lt_succ_self _,htext⟩⟩

/-- Two memories leave one signature exactly when they agree on the whole
doublewords of the region. -/
theorem same_text_iff (h : HasRegion symbols) (hsmall : regionSize symbols<2^64-8)
    (memory memory' : ByteMemory) :
    (∃ text,Writes memory symbols text ∧ Writes memory' symbols text) ↔
      ∀ n<8*(regionSize symbols/8),memory (symbols.beginSignature+BitVec.ofNat 64 n)=
        memory' (symbols.beginSignature+BitVec.ofNat 64 n) := by
  rw [←lines_eq_iff_bytes]
  simp only [writes_iff symbols h hsmall]
  constructor
  · rintro ⟨text,htext,htext'⟩
    exact htext.symm.trans htext'
  · intro hlines
    exact ⟨_,rfl,hlines⟩

/-- A region that ends at the wrap has no finished signature. -/
theorem not_writes (h : HasRegion symbols) (hlarge : 2^64-8≤regionSize symbols)
    (memory : ByteMemory) (text : List Char) : ¬Writes memory symbols text := by
  rintro ⟨fuel,hfuel⟩
  have hregion := not_or.mpr ⟨h.begin_ne_zero,Nat.not_le_of_lt h.2⟩
  rw [dumpSignature,if_neg hregion,dumpLoop_diverges memory _ _ hlarge fuel 0 rfl] at hfuel
  cases hfuel

/-- Number of bytes without a wrap. -/
theorem regionSize_eq (h : HasRegion symbols) :
    regionSize symbols=symbols.endSignature.toNat-symbols.beginSignature.toNat := by
  have hend := symbols.endSignature.isLt
  have hlt := h.2
  unfold regionSize
  rw [BitVec.toNat_sub]
  omega

/-- Addresses of the region by their distance from its start. -/
theorem region_forall (h : HasRegion symbols) (P : Word → Prop) :
    (∀ a,symbols.beginSignature.toNat≤a.toNat → a.toNat<symbols.endSignature.toNat → P a) ↔
      ∀ n<regionSize symbols,P (symbols.beginSignature+BitVec.ofNat 64 n) := by
  have hend := symbols.endSignature.isLt
  have hlt := h.2
  rw [regionSize_eq symbols h]
  constructor
  · intro hall n hn
    have hto : (symbols.beginSignature+BitVec.ofNat 64 n).toNat=
        symbols.beginSignature.toNat+n := by
      rw [BitVec.toNat_add,BitVec.toNat_ofNat]
      omega
    exact hall _ (by omega) (by omega)
  · intro hall a hlo hhi
    have haddr : a=symbols.beginSignature+
        BitVec.ofNat 64 (a.toNat-symbols.beginSignature.toNat) := by
      apply BitVec.eq_of_toNat_eq
      rw [BitVec.toNat_add,BitVec.toNat_ofNat]
      omega
    rw [haddr]
    exact hall _ (by omega)

/-- The signature determines its region exactly when the region is made of
whole doublewords, or is so large that printing it never ends. -/
theorem signature_determines_iff (h : HasRegion symbols) :
    (∀ memory memory' : ByteMemory,∀ text,Writes memory symbols text →
      Writes memory' symbols text → ∀ a,symbols.beginSignature.toNat≤a.toNat →
        a.toNat<symbols.endSignature.toNat → memory a=memory' a) ↔
      regionSize symbols%8=0 ∨ 2^64-8≤regionSize symbols := by
  constructor
  · intro hdet
    by_contra hpartial
    obtain ⟨hmod,hsmall⟩ := not_or.mp hpartial
    -- Memories that differ in the last byte only leave the same signature.
    let last := symbols.beginSignature+BitVec.ofNat 64 (regionSize symbols-1)
    have hsame : ∀ n<8*(regionSize symbols/8),
        (fun _ => 0 : ByteMemory) (symbols.beginSignature+BitVec.ofNat 64 n)=
          writeByte (fun _ => 0) last 1 (symbols.beginSignature+BitVec.ofNat 64 n) := by
      intro n hn
      have hne : symbols.beginSignature+BitVec.ofNat 64 n≠last := by
        intro heq
        have hto := congrArg BitVec.toNat (add_left_cancel heq)
        rw [BitVec.toNat_ofNat,BitVec.toNat_ofNat] at hto
        omega
      exact (if_neg hne).symm
    obtain ⟨text,htext,htext'⟩ := (same_text_iff symbols h (Nat.lt_of_not_le hsmall) (fun _ => 0)
      (writeByte (fun _ => 0) last 1)).mpr hsame
    have hall := (region_forall symbols h _).mp (hdet _ _ text htext htext') (regionSize symbols-1)
      (by omega)
    change 0#8=writeByte (fun _ => 0) last 1 last at hall
    rw [writeByte,if_pos rfl] at hall
    exact absurd hall (by decide)
  · intro hwhole memory memory' text htext htext'
    rcases Nat.lt_or_ge (regionSize symbols) (2^64-8) with hsmall|hlarge
    · have hmod : regionSize symbols%8=0 := hwhole.resolve_right (Nat.not_le_of_lt hsmall)
      have hbytes := (same_text_iff symbols h hsmall memory memory').mp ⟨text,htext,htext'⟩
      rw [region_forall symbols h fun a => memory a=memory' a]
      intro n hn
      exact hbytes n (by omega)
    · exact absurd htext (not_writes symbols h hlarge memory text)

end Region

/-- In a region of two doublewords the last byte shows. -/
theorem signature_two :
    ¬∃ text,Writes (fun _ => 0) {beginSignature := 0x80002000,endSignature := 0x80002010} text ∧
      Writes (writeByte (fun _ => 0) 0x8000200F 1)
        {beginSignature := 0x80002000,endSignature := 0x80002010} text := by
  rintro ⟨text,htext,htext'⟩
  have hregion : HasRegion {beginSignature := 0x80002000,endSignature := 0x80002010} := by
    unfold HasRegion
    decide
  have hbyte := (signature_determines_iff _ hregion).mpr (Or.inl (by decide)) _ _ text htext htext'
    0x8000200F (by decide) (by decide)
  exact absurd hbyte (by decide)

/-- A region of four bytes leaves an empty signature, whatever it holds. -/
theorem signature_half :
    ¬∀ symbols,HasRegion symbols → ∀ memory memory' : ByteMemory,∀ text,
      Writes memory symbols text → Writes memory' symbols text →
        ∀ a,symbols.beginSignature.toNat≤a.toNat → a.toNat<symbols.endSignature.toNat →
          memory a=memory' a := by
  intro h
  have hregion : HasRegion {beginSignature := 0x80002000,endSignature := 0x80002004} := by
    unfold HasRegion
    decide
  have hbyte := h _ hregion (fun _ => 0) (fun _ => 1) [] ⟨1,rfl⟩ ⟨1,rfl⟩ 0x80002000 (by decide)
    (by decide)
  exact absurd hbyte (by decide)

end RichardCore.SignatureDump
