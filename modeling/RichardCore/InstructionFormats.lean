import RichardCore.BitFields
import RichardCore.Encodings

/-!
# Round trips of the instruction formats

The test bench builds instruction words by shifting and masking 32-bit
integers; the decoder slices them. For each of the five formats with an
immediate, decoding a built word gives its fields back, and building from
the decoded fields of any word with one of the format's opcodes gives the
word back.
-/

namespace RichardCore.InstructionFormats

open Packages BitFields Decoder Isa Encodings

/-- A field passed as a 32-bit integer. -/
def u32 {w : ℕ} (x : BitVec w) : BitVec 32 := x.setWidth 32

/-- I-type word. -/
def rvIType (imm12 rs1 funct3 rd opcode : BitVec 32) : BitVec 32 :=
  (imm12&&&0xFFF)<<<20|||rs1<<<15|||funct3<<<12|||rd<<<7|||opcode

/-- S-type word. -/
def rvSType (imm12 rs2 rs1 funct3 opcode : BitVec 32) : BitVec 32 :=
  let immHi := imm12>>>5&&&0x7F
  let immLo := imm12&&&0x1F
  immHi<<<25|||rs2<<<20|||rs1<<<15|||funct3<<<12|||immLo<<<7|||opcode

/-- U-type word. -/
def rvUType (imm20 rd opcode : BitVec 32) : BitVec 32 := (imm20&&&0xFFFFF)<<<12|||rd<<<7|||opcode

/-- J-type word. -/
def rvJType (offset rd opcode : BitVec 32) : BitVec 32 :=
  let bit20 := offset>>>20&&&0x1
  let bit10To1 := offset>>>1&&&0x3FF
  let bit11 := offset>>>11&&&0x1
  let bit19To12 := offset>>>12&&&0xFF
  bit20<<<31|||bit10To1<<<21|||bit11<<<20|||bit19To12<<<12|||rd<<<7|||opcode

/-- B-type word. -/
def rvBType (offset rs2 rs1 funct3 opcode : BitVec 32) : BitVec 32 :=
  let bit12 := offset>>>12&&&0x1
  let bit10To5 := offset>>>5&&&0x3F
  let bit4To1 := offset>>>1&&&0xF
  let bit11 := offset>>>11&&&0x1
  bit12<<<31|||bit10To5<<<25|||rs2<<<20|||rs1<<<15|||funct3<<<12|||bit4To1<<<8|||bit11<<<7|||opcode

/-- A shifted and masked integer is a bit field. -/
theorem field_eq (x : BitVec 32) (start len : ℕ) (mask : BitVec 32) (hlen : len < 32)
    (hmask : mask=1#32<<<len-1#32) : x>>>start&&&mask=u32 (x.extractLsb' start len) := by
  rw [hmask,and_lowMask hlen,BitVec.setWidth_ushiftRight_eq_extractLsb]
  rfl

/-- A masked integer is its low bit field. -/
theorem lowField_eq (x : BitVec 32) (len : ℕ) (mask : BitVec 32) (hlen : len < 32)
    (hmask : mask=1#32<<<len-1#32) : x&&&mask=u32 (x.extractLsb' 0 len) := by
  rw [←field_eq x 0 len mask hlen hmask,BitVec.ushiftRight_zero]

/-- Integers of a concatenation. -/
theorem u32_append {v w : ℕ} (x : BitVec v) (y : BitVec w) : u32 (x++y)=u32 x<<<w|||u32 y :=
  BitVec.setWidth_append_eq_shiftLeft_setWidth_or

section Layouts

variable (rs1 rs2 rd : RegAddr) (f3 : BitVec 3) (opcode : Opcode)

/-- The immediate layout as shifted fields. -/
theorem iType_shifts (imm : BitVec 12) :
    iType imm rs1 f3 rd opcode=
      u32 imm<<<20|||u32 rs1<<<15|||u32 f3<<<12|||u32 rd<<<7|||u32 opcode.bits := by
  have hself : u32 (iType imm rs1 f3 rd opcode)=iType imm rs1 f3 rd opcode := BitVec.setWidth_eq _
  rw [←hself]
  unfold iType
  simp only [u32_append,BitVec.shiftLeft_or_distrib,←BitVec.shiftLeft_add]

/-- The two-source layout as shifted fields. -/
theorem rType_shifts (f7 : BitVec 7) :
    rType f7 rs2 rs1 f3 rd opcode=
      u32 f7<<<25|||u32 rs2<<<20|||u32 rs1<<<15|||u32 f3<<<12|||u32 rd<<<7|||u32 opcode.bits := by
  have hself : u32 (rType f7 rs2 rs1 f3 rd opcode)=rType f7 rs2 rs1 f3 rd opcode :=
    BitVec.setWidth_eq _
  rw [←hself]
  unfold rType
  simp only [u32_append,BitVec.shiftLeft_or_distrib,←BitVec.shiftLeft_add]

/-- The twenty-bit layout as shifted fields. -/
theorem uType_shifts (imm : BitVec 20) :
    uType imm rd opcode=u32 imm<<<12|||u32 rd<<<7|||u32 opcode.bits := by
  have hself : u32 (uType imm rd opcode)=uType imm rd opcode := BitVec.setWidth_eq _
  rw [←hself]
  unfold uType
  simp only [u32_append,BitVec.shiftLeft_or_distrib,←BitVec.shiftLeft_add]

/-- An I-type word with a signed immediate has the immediate layout. -/
theorem rvIType_eq (imm : BitVec 12) :
    rvIType (imm.signExtend 32) (u32 rs1) (u32 f3) (u32 rd) (u32 opcode.bits)=
      iType imm rs1 f3 rd opcode := by
  unfold rvIType
  rw [lowField_eq _ 12 0xFFF (by decide) rfl,extractLsb'_signExtend (by decide) (by decide),
    BitVec.extractLsb'_eq_self,iType_shifts]

/-- An S-type word splits the immediate over the two-source layout. -/
theorem rvSType_eq (imm : BitVec 12) :
    rvSType (imm.signExtend 32) (u32 rs2) (u32 rs1) (u32 f3) (u32 opcode.bits)=
      rType (imm.extractLsb' 5 7) rs2 rs1 f3 (imm.extractLsb' 0 5) opcode := by
  unfold rvSType
  dsimp only
  rw [field_eq _ 5 7 0x7F (by decide) rfl,lowField_eq _ 5 0x1F (by decide) rfl,
    extractLsb'_signExtend (by decide) (by decide),extractLsb'_signExtend (by decide) (by decide),
    rType_shifts]

/-- A U-type word has the twenty-bit layout. -/
theorem rvUType_eq (imm : BitVec 20) :
    rvUType (u32 imm) (u32 rd) (u32 opcode.bits)=uType imm rd opcode := by
  have hlow : (u32 imm).extractLsb' 0 20=imm := by
    rw [←BitVec.setWidth_eq_extractLsb' (by decide)]
    exact BitVec.setWidth_setWidth_of_le imm (by decide)
  unfold rvUType
  rw [lowField_eq _ 20 0xFFFFF (by decide) rfl,hlow,uType_shifts]

/-- A field of an even offset above bit 0 is a field of its half. -/
theorem offset_field {w : ℕ} (half : BitVec w) (start len : ℕ) (hlen : start+1+len≤w+1)
    (hw : w+1≤32) :
    ((half++0#1).signExtend 32).extractLsb' (start+1) len=half.extractLsb' start len := by
  rw [extractLsb'_signExtend hlen hw,BitVec.extractLsb'_append_eq_of_le (by omega)]
  rfl

/-- A J-type word scatters the offset over the twenty-bit field. -/
theorem rvJType_eq (half : BitVec 20) :
    rvJType ((half++0#1).signExtend 32) (u32 rd) (u32 opcode.bits)=
      uType (half.extractLsb' 19 1++half.extractLsb' 0 10++half.extractLsb' 10 1++
        half.extractLsb' 11 8) rd opcode := by
  unfold rvJType
  dsimp only
  rw [field_eq _ 20 1 0x1 (by decide) rfl,field_eq _ 1 10 0x3FF (by decide) rfl,
    field_eq _ 11 1 0x1 (by decide) rfl,field_eq _ 12 8 0xFF (by decide) rfl,
    offset_field half 19 1 (by decide) (by decide),offset_field half 0 10 (by decide) (by decide),
    offset_field half 10 1 (by decide) (by decide),offset_field half 11 8 (by decide) (by decide),
    uType_shifts]
  simp only [u32_append,BitVec.shiftLeft_or_distrib,←BitVec.shiftLeft_add]

/-- A B-type word scatters the offset over the outer fields. -/
theorem rvBType_eq (half : BitVec 12) :
    rvBType ((half++0#1).signExtend 32) (u32 rs2) (u32 rs1) (u32 f3) (u32 opcode.bits)=
      rType (half.extractLsb' 11 1++half.extractLsb' 4 6) rs2 rs1 f3
        (half.extractLsb' 0 4++half.extractLsb' 10 1) opcode := by
  unfold rvBType
  dsimp only
  rw [field_eq _ 12 1 0x1 (by decide) rfl,field_eq _ 5 6 0x3F (by decide) rfl,
    field_eq _ 1 4 0xF (by decide) rfl,field_eq _ 11 1 0x1 (by decide) rfl,
    offset_field half 11 1 (by decide) (by decide),offset_field half 4 6 (by decide) (by decide),
    offset_field half 0 4 (by decide) (by decide),offset_field half 10 1 (by decide) (by decide),
    rType_shifts]
  simp only [u32_append,BitVec.shiftLeft_or_distrib,←BitVec.shiftLeft_add,BitVec.or_assoc]

end Layouts

/-- Opcodes of the I-type instructions. -/
def iOpcodes : List Opcode := [.load,.opImm,.opImm32,.jalr]

/-- Opcodes of the U-type instructions. -/
def uOpcodes : List Opcode := [.lui,.auipc]

section Decoded

variable {word : BitVec 32} (mode : BitVec 2)

/-- The decoder reads the fields of the I-type layout. -/
theorem decoder_i {opcode : Opcode} (hmem : opcode∈iOpcodes)
    (hop : opcodeField word=opcode.bits) :
    (decoder word mode).rs1Addr=rs1Field word ∧ (decoder word mode).wb.rdAddr=rdField word ∧
      (decoder word mode).imm=immI word := by
  have hcases : opcode=.load ∨ opcode=.opImm ∨ opcode=.opImm32 ∨ opcode=.jalr := by
    simpa [iOpcodes] using hmem
  have hlui : opcodeField word≠Opcode.lui.bits := by
    rw [hop]
    obtain rfl | rfl | rfl | rfl := hcases <;> decide
  have hrs1 : (decodeDefaults word).rs1Addr=rs1Field word := if_neg hlui
  unfold decoder
  rw [hop,Opcode.ofBits_bits]
  obtain rfl | rfl | rfl | rfl := hcases <;> exact ⟨hrs1,rfl,rfl⟩

/-- The decoder reads the fields of the S-type layout. -/
theorem decoder_s (hop : opcodeField word=Opcode.store.bits) :
    (decoder word mode).rs1Addr=rs1Field word ∧ (decoder word mode).rs2Addr=rs2Field word ∧
      (decoder word mode).imm=immS word := by
  have hrs1 : (decodeDefaults word).rs1Addr=rs1Field word := if_neg (by rw [hop]; decide)
  unfold decoder
  rw [hop,Opcode.ofBits_bits]
  exact ⟨hrs1,rfl,rfl⟩

/-- The decoder reads the fields of the B-type layout. -/
theorem decoder_b (hop : opcodeField word=Opcode.branch.bits) :
    (decoder word mode).rs1Addr=rs1Field word ∧ (decoder word mode).rs2Addr=rs2Field word ∧
      (decoder word mode).imm=immB word := by
  have hrs1 : (decodeDefaults word).rs1Addr=rs1Field word := if_neg (by rw [hop]; decide)
  unfold decoder
  rw [hop,Opcode.ofBits_bits]
  exact ⟨hrs1,rfl,rfl⟩

/-- The decoder reads the fields of the J-type layout. -/
theorem decoder_j (hop : opcodeField word=Opcode.jal.bits) :
    (decoder word mode).wb.rdAddr=rdField word ∧ (decoder word mode).imm=immJ word := by
  unfold decoder
  rw [hop,Opcode.ofBits_bits]
  exact ⟨rfl,rfl⟩

/-- The decoder reads the fields of the U-type layout. -/
theorem decoder_u {opcode : Opcode} (hmem : opcode∈uOpcodes)
    (hop : opcodeField word=opcode.bits) :
    (decoder word mode).wb.rdAddr=rdField word ∧ (decoder word mode).imm=immU word := by
  have hcases : opcode=.lui ∨ opcode=.auipc := by simpa [uOpcodes] using hmem
  unfold decoder
  rw [hop,Opcode.ofBits_bits]
  obtain rfl | rfl := hcases <;> exact ⟨rfl,rfl⟩

end Decoded

/-- Truncating a decoded immediate to 32 bits. -/
theorem u32_signExtend {w : ℕ} (x : BitVec w) : u32 (x.signExtend 64)=x.signExtend 32 :=
  setWidth_signExtend (by decide) x

section RoundTrips

variable (mode : BitVec 2)

/-- I-type words decode to their fields. -/
theorem decoder_rvIType {opcode : Opcode} (hmem : opcode∈iOpcodes) (imm : BitVec 12) (rs1 : RegAddr)
    (f3 : BitVec 3) (rd : RegAddr) :
    let d := decoder (rvIType (imm.signExtend 32) (u32 rs1) (u32 f3) (u32 rd) (u32 opcode.bits)) mode
    d.rs1Addr=rs1 ∧ d.wb.rdAddr=rd ∧ d.imm=imm.signExtend 64 := by
  rw [rvIType_eq]
  obtain ⟨hop,hrd,-,hrs1,himm,-⟩ := iType_fields rs1 rd f3 imm opcode
  obtain ⟨hdrs1,hdrd,hdimm⟩ := decoder_i mode hmem hop
  exact ⟨hdrs1.trans hrs1,hdrd.trans hrd,hdimm.trans himm⟩

/-- The decoded fields of an I-type word give the word back. -/
theorem rvIType_decoder {opcode : Opcode} (hmem : opcode∈iOpcodes) {word : BitVec 32}
    (hop : opcodeField word=opcode.bits) :
    let d := decoder word mode
    rvIType (u32 d.imm) (u32 d.rs1Addr) (u32 (funct3 word)) (u32 d.wb.rdAddr) (u32 opcode.bits)=
      word := by
  obtain ⟨hrs1,hrd,himm⟩ := decoder_i mode hmem hop
  dsimp only
  rw [hrs1,hrd,himm,immI,u32_signExtend,rvIType_eq]
  exact iType_of_fields word hop

/-- S-type words decode to their fields. -/
theorem decoder_rvSType (imm : BitVec 12) (rs2 rs1 : RegAddr) (f3 : BitVec 3) :
    let d := decoder (rvSType (imm.signExtend 32) (u32 rs2) (u32 rs1) (u32 f3)
      (u32 Opcode.store.bits)) mode
    d.rs1Addr=rs1 ∧ d.rs2Addr=rs2 ∧ d.imm=imm.signExtend 64 := by
  rw [rvSType_eq]
  obtain ⟨hop,-,-,hrs1,hrs2,-⟩ :=
    rType_fields (imm.extractLsb' 5 7) rs1 rs2 (imm.extractLsb' 0 5) f3 .store
  obtain ⟨hdrs1,hdrs2,hdimm⟩ := decoder_s mode hop
  exact ⟨hdrs1.trans hrs1,hdrs2.trans hrs2,hdimm.trans (immS_split rs1 rs2 f3 .store imm)⟩

/-- The decoded fields of an S-type word give the word back. -/
theorem rvSType_decoder {word : BitVec 32} (hop : opcodeField word=Opcode.store.bits) :
    let d := decoder word mode
    rvSType (u32 d.imm) (u32 d.rs2Addr) (u32 d.rs1Addr) (u32 (funct3 word)) (u32 Opcode.store.bits)=
      word := by
  obtain ⟨hrs1,hrs2,himm⟩ := decoder_s mode hop
  have hhigh : (funct7 word++rdField word).extractLsb' 5 7=funct7 word :=
    BitVec.extractLsb'_append_eq_left
  have hlow : (funct7 word++rdField word).extractLsb' 0 5=rdField word :=
    BitVec.extractLsb'_append_eq_right
  have hfields : immS word=(funct7 word++rdField word).signExtend 64 := rfl
  dsimp only
  rw [hrs1,hrs2,himm,hfields,u32_signExtend,rvSType_eq,hhigh,hlow]
  exact rType_of_fields word hop

/-- B-type words decode to their fields. -/
theorem decoder_rvBType (half : BitVec 12) (rs2 rs1 : RegAddr) (f3 : BitVec 3) :
    let d := decoder (rvBType ((half++0#1).signExtend 32) (u32 rs2) (u32 rs1) (u32 f3)
      (u32 Opcode.branch.bits)) mode
    d.rs1Addr=rs1 ∧ d.rs2Addr=rs2 ∧ d.imm=(half++0#1).signExtend 64 := by
  rw [rvBType_eq]
  obtain ⟨hop,-,-,hrs1,hrs2,-⟩ := rType_fields (half.extractLsb' 11 1++half.extractLsb' 4 6) rs1 rs2
    (half.extractLsb' 0 4++half.extractLsb' 10 1) f3 .branch
  obtain ⟨hdrs1,hdrs2,hdimm⟩ := decoder_b mode hop
  exact ⟨hdrs1.trans hrs1,hdrs2.trans hrs2,hdimm.trans (immB_scattered rs1 rs2 f3 .branch half)⟩

/-- The decoded fields of a B-type word give the word back. -/
theorem rvBType_decoder {word : BitVec 32} (hop : opcodeField word=Opcode.branch.bits) :
    let d := decoder word mode
    rvBType (u32 d.imm) (u32 d.rs2Addr) (u32 d.rs1Addr) (u32 (funct3 word)) (u32 Opcode.branch.bits)=
      word := by
  obtain ⟨hrs1,hrs2,himm⟩ := decoder_b mode hop
  -- every word of the format is the scattering of some offset
  obtain ⟨half,hf7,hrd⟩ := branch_fields (funct7 word) (rdField word)
  have hword := rType_of_fields word hop
  rw [←hf7,←hrd] at hword
  have hoffset : immB word=branchOffset half := by
    rw [←immB_scattered (rs1Field word) (rs2Field word) (funct3 word) .branch half,hword]
  dsimp only
  rw [hrs1,hrs2,himm,hoffset,branchOffset,u32_signExtend,rvBType_eq]
  exact hword

/-- J-type words decode to their fields. -/
theorem decoder_rvJType (half : BitVec 20) (rd : RegAddr) :
    let d := decoder (rvJType ((half++0#1).signExtend 32) (u32 rd) (u32 Opcode.jal.bits)) mode
    d.wb.rdAddr=rd ∧ d.imm=(half++0#1).signExtend 64 := by
  rw [rvJType_eq]
  obtain ⟨hop,hrd,-,-⟩ := uType_fields rd (half.extractLsb' 19 1++half.extractLsb' 0 10++
    half.extractLsb' 10 1++half.extractLsb' 11 8) .jal
  obtain ⟨hdrd,hdimm⟩ := decoder_j mode hop
  exact ⟨hdrd.trans hrd,hdimm.trans (immJ_encode rd half)⟩

/-- The decoded fields of a J-type word give the word back. -/
theorem rvJType_decoder {word : BitVec 32} (hop : opcodeField word=Opcode.jal.bits) :
    let d := decoder word mode
    rvJType (u32 d.imm) (u32 d.wb.rdAddr) (u32 Opcode.jal.bits)=word := by
  obtain ⟨hrd,himm⟩ := decoder_j mode hop
  obtain ⟨half,hfield⟩ := jump_field (word.extractLsb' 12 20)
  have hword := uType_of_fields word hop
  rw [←hfield] at hword
  have hoffset : immJ word=jumpOffset half := by
    rw [←immJ_encode (rdField word) half]
    exact congrArg immJ hword.symm
  dsimp only
  rw [hrd,himm,hoffset,jumpOffset,u32_signExtend,rvJType_eq]
  exact hword

/-- U-type words decode to their fields. -/
theorem decoder_rvUType {opcode : Opcode} (hmem : opcode∈uOpcodes) (imm : BitVec 20) (rd : RegAddr) :
    let d := decoder (rvUType (u32 imm) (u32 rd) (u32 opcode.bits)) mode
    d.wb.rdAddr=rd ∧ d.imm=(u32 imm<<<12).signExtend 64 := by
  rw [rvUType_eq]
  obtain ⟨hop,hrd,himm,-⟩ := uType_fields rd imm opcode
  obtain ⟨hdrd,hdimm⟩ := decoder_u mode hmem hop
  have hshift : u32 imm<<<12=imm++0#12 := by
    have happend := u32_append imm 0#12
    rw [u32,BitVec.setWidth_eq] at happend
    rw [happend]
    exact (BitVec.or_zero).symm
  exact ⟨hdrd.trans hrd,hdimm.trans (himm.trans (by rw [hshift]))⟩

/-- The decoded fields of a U-type word give the word back. -/
theorem rvUType_decoder {opcode : Opcode} (hmem : opcode∈uOpcodes) {word : BitVec 32}
    (hop : opcodeField word=opcode.bits) :
    let d := decoder word mode
    rvUType (u32 (d.imm>>>12)) (u32 d.wb.rdAddr) (u32 opcode.bits)=word := by
  obtain ⟨hrd,himm⟩ := decoder_u mode hmem hop
  have hfield : (u32 (immU word>>>12)).extractLsb' 0 20=word.extractLsb' 12 20 := by
    unfold u32 immU
    rw [BitVec.setWidth_ushiftRight_eq_extractLsb,←BitVec.setWidth_eq_extractLsb' (by decide),
      BitVec.setWidth_extractLsb'_of_le (by decide),extractLsb'_signExtend (by decide) (by decide)]
    exact BitVec.extractLsb'_append_eq_left
  dsimp only
  rw [hrd,himm,rvUType,lowField_eq _ 20 0xFFFFF (by decide) rfl,hfield,←uType_shifts]
  exact uType_of_fields word hop

end RoundTrips

/-- In every mode and every format: a word built from register numbers, a
function code and an immediate of the format decodes to them, the immediate
sign-extended; and the decoded fields of every word with an opcode of the
format build that word. -/
theorem formats_roundtrip (mode : BitVec 2) :
    (∀ opcode∈iOpcodes,
      (∀ (imm : BitVec 12) (rs1 : RegAddr) (f3 : BitVec 3) (rd : RegAddr),
        let d := decoder
          (rvIType (imm.signExtend 32) (u32 rs1) (u32 f3) (u32 rd) (u32 opcode.bits)) mode
        d.rs1Addr=rs1 ∧ d.wb.rdAddr=rd ∧ d.imm=imm.signExtend 64) ∧
      ∀ word,opcodeField word=opcode.bits →
        let d := decoder word mode
        rvIType (u32 d.imm) (u32 d.rs1Addr) (u32 (funct3 word)) (u32 d.wb.rdAddr)
          (u32 opcode.bits)=word) ∧
    ((∀ (imm : BitVec 12) (rs2 rs1 : RegAddr) (f3 : BitVec 3),
        let d := decoder (rvSType (imm.signExtend 32) (u32 rs2) (u32 rs1) (u32 f3)
          (u32 Opcode.store.bits)) mode
        d.rs1Addr=rs1 ∧ d.rs2Addr=rs2 ∧ d.imm=imm.signExtend 64) ∧
      ∀ word,opcodeField word=Opcode.store.bits →
        let d := decoder word mode
        rvSType (u32 d.imm) (u32 d.rs2Addr) (u32 d.rs1Addr) (u32 (funct3 word))
          (u32 Opcode.store.bits)=word) ∧
    ((∀ (half : BitVec 12) (rs2 rs1 : RegAddr) (f3 : BitVec 3),
        let d := decoder (rvBType ((half++0#1).signExtend 32) (u32 rs2) (u32 rs1) (u32 f3)
          (u32 Opcode.branch.bits)) mode
        d.rs1Addr=rs1 ∧ d.rs2Addr=rs2 ∧ d.imm=(half++0#1).signExtend 64) ∧
      ∀ word,opcodeField word=Opcode.branch.bits →
        let d := decoder word mode
        rvBType (u32 d.imm) (u32 d.rs2Addr) (u32 d.rs1Addr) (u32 (funct3 word))
          (u32 Opcode.branch.bits)=word) ∧
    ((∀ (half : BitVec 20) (rd : RegAddr),
        let d := decoder (rvJType ((half++0#1).signExtend 32) (u32 rd) (u32 Opcode.jal.bits)) mode
        d.wb.rdAddr=rd ∧ d.imm=(half++0#1).signExtend 64) ∧
      ∀ word,opcodeField word=Opcode.jal.bits →
        let d := decoder word mode
        rvJType (u32 d.imm) (u32 d.wb.rdAddr) (u32 Opcode.jal.bits)=word) ∧
    ∀ opcode∈uOpcodes,
      (∀ (imm : BitVec 20) (rd : RegAddr),
        let d := decoder (rvUType (u32 imm) (u32 rd) (u32 opcode.bits)) mode
        d.wb.rdAddr=rd ∧ d.imm=(u32 imm<<<12).signExtend 64) ∧
      ∀ word,opcodeField word=opcode.bits →
        let d := decoder word mode
        rvUType (u32 (d.imm>>>12)) (u32 d.wb.rdAddr) (u32 opcode.bits)=word := by
  refine ⟨fun opcode hmem => ⟨decoder_rvIType mode hmem,fun word hop => rvIType_decoder mode hmem hop⟩,
    ⟨decoder_rvSType mode,fun word hop => rvSType_decoder mode hop⟩,
    ⟨decoder_rvBType mode,fun word hop => rvBType_decoder mode hop⟩,
    ⟨decoder_rvJType mode,fun word hop => rvJType_decoder mode hop⟩,
    fun opcode hmem => ⟨decoder_rvUType mode hmem,fun word hop => rvUType_decoder mode hmem hop⟩⟩

/-- BEQ x0,x0,-8. -/
example : rvBType (-8) 0 0 0 0x63=0xfe000ce3 := by decide

end RichardCore.InstructionFormats
