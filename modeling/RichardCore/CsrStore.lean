import RichardCore.AliasedStore
import RichardCore.CsrStatus

/-!
# The CSR file as a store with aliases

Apart from traps and returns the CSR file is a store: every request
replaces, sets or clears bits of the register it addresses, the counters
tick, and registers change through other addresses only where the layout
keeps them at the same place. The layout is the specification; the
support, write and read tables of the file are shown to follow it.
-/

namespace RichardCore.CsrStore

open Packages BitFields CsrUnit CsrStatus Clocked AliasedStore

/-- Location of a stored bit: the register that owns it and its position. -/
abbrev Loc : Type := Csr × ℕ

/-- Where the bits of every CSR are kept. The counters have user-level
aliases, fflags and frm are fields of fcsr, and sstatus shares three bits
with mstatus; misa and the identification registers are constant. -/
def home (csr : Csr) (j : ℕ) : Bool ⊕ Loc :=
  match csr with
  | .cycle => .inr (.mcycle,j)
  | .instret => .inr (.minstret,j)
  | .fflags => if j < 5 then .inr (.fcsr,j) else .inl false
  | .frm => if j < 3 then .inr (.fcsr,5+j) else .inl false
  | .fcsr => if j < 8 then .inr (.fcsr,j) else .inl false
  | .sstatus =>
    if SharedStatus j then .inr (.mstatus,j) else .inr (.sstatus,j)
  | .misa => .inl (misaValue.getLsbD j)
  | .mvendorid => .inl (vendorId.getLsbD j)
  | .marchid => .inl (archId.getLsbD j)
  | .mimpid => .inl (implId.getLsbD j)
  | .mhartid => .inl (hartId.getLsbD j)
  | _ => .inr (csr,j)

/-- First position of a CSR in its owner. -/
def fieldStart (csr : Csr) : ℕ := if csr=.frm then 5 else 0

/-- Bits stay in order. -/
theorem home_position {csr : Csr} {j : ℕ} {l : Loc} (h : home csr j=.inr l) :
    l.2=fieldStart csr+j := by
  cases csr
  case fflags | frm | fcsr | sstatus =>
    simp only [home] at h
    split at h <;> cases h <;> simp [fieldStart]
  all_goals
    cases h
    try exact (Nat.zero_add j).symm

/-- A CSR keeps its bits apart. -/
theorem home_injective {csr : Csr} {j k : ℕ} {l : Loc} (hj : home csr j=.inr l)
    (hk : home csr k=.inr l) : j=k := by
  have hpj := home_position hj
  have hpk := home_position hk
  omega

/-- The layout of the CSR file. -/
def layout : Layout Csr Loc 64 := ⟨home,home_injective⟩

/-- Contents of the reference store. -/
abbrev Store : Type := Loc → Bool

/-- Effect of a CSR operation on the register it addresses. -/
inductive Op where
  | replace | orIn | andNot
  deriving DecidableEq, Repr

/-- The six operation codes; the other two do nothing. -/
def Op.ofCode (code : BitVec 3) : Option Op :=
  match code with
  | 0b001#3 | 0b101#3 => some .replace
  | 0b010#3 | 0b110#3 => some .orIn
  | 0b011#3 | 0b111#3 => some .andNot
  | _ => none

/-- Effect on one bit. -/
def Op.onBit (op : Op) (old data : Bool) : Bool :=
  match op with
  | .replace => data
  | .orIn => old || data
  | .andNot => old && !data

/-- Registers that ignore writes. -/
def readOnly : Csr → Bool
  | .misa | .mvendorid | .marchid | .mimpid | .mhartid | .time => true
  | _ => false

/-- Registers that count cycles. -/
def counters : List Csr := [.mcycle,.minstret,.time]

/-- Every counter moves on by one. -/
def tick (store : Store) : Store :=
  layout.assignAll store store counters fun csr j _ => (layout.read store csr+1).getLsbD j

/-- The write a cycle requests: a named register that takes writes, and an
operation that replaces it or has a bit to set or clear. -/
def requested (i : CsrIn) : Option (Csr × Op × Word) :=
  match i.csrReq,Csr.ofAddr i.csrAddr,Op.ofCode i.csrOp with
  | true,some csr,some op =>
    if readOnly csr || (op != .replace && i.csrRs1Data==0) then none
    else some (csr,op,i.csrRs1Data)
  | _,_,_ => none

/-- One cycle of the reference store. A written counter does not tick. -/
def storeStep (store : Store) (i : CsrIn) : Store :=
  match requested i with
  | some (csr,op,data) =>
    layout.assign store (tick store) csr fun j old => op.onBit old (data.getLsbD j)
  | none => tick store

/-- The reference store after reset. -/
def storeReset : Store := fun _ => false

/-- A cycle without reset, trap and return. -/
def Quiet (i : CsrIn) : Prop :=
  i.rst=false ∧ i.trapTrigger=false ∧ i.mretEn=false ∧ i.sretEn=false

/-- The register file reads as the store does. -/
def Matches (s : CsrState) (store : Store) : Prop :=
  ∀ csr : Csr,∀ j < 64,(csrRdata s csr.addr).getLsbD j=layout.bit store csr j

/-- Registers whose bits may be kept together have one owner. -/
def owner : Csr → Csr
  | .fflags | .frm => .fcsr
  | .sstatus => .mstatus
  | .cycle => .mcycle
  | .instret => .minstret
  | csr => csr

/-- A bit is kept with the owner of its register. -/
theorem home_owner {csr : Csr} {j : ℕ} {l : Loc} (h : home csr j=.inr l) :
    owner l.1=owner csr := by
  cases csr
  case fflags | frm | fcsr | sstatus =>
    simp only [home] at h
    split at h <;> cases h <;> rfl
  all_goals
    cases h
    try rfl

/-- Registers with different owners share nothing. -/
theorem not_shares {a c : Csr} (h : owner a≠owner c) (k j : ℕ) : ¬layout.Shares a k c j := by
  rintro ⟨l,ha,hc⟩
  exact h ((home_owner ha).symm.trans (home_owner hc))

/-- The address under which the file keeps a register. -/
def canonical : Csr → Csr
  | .cycle => .mcycle
  | .instret => .minstret
  | csr => csr

/-- The aliases are resolved before every access. -/
theorem canonicalAddr_addr (csr : Csr) : canonicalAddr csr.addr=(canonical csr).addr := by
  cases csr <;> rfl

/-- Reading goes through the resolved address. -/
theorem csrRdata_addr (s : CsrState) (csr : Csr) :
    csrRdata s csr.addr=readCsr s (canonical csr).addr := by
  unfold csrRdata
  rw [canonicalAddr_addr]

/-- An alias is kept where its register is. -/
theorem home_canonical (csr : Csr) : home (canonical csr)=home csr := by
  cases csr <;> rfl

section Fields

variable (store : Store) (j : ℕ)

/-- The flags are the low bits of fcsr. -/
theorem bit_fflags : layout.bit store .fflags j=(decide (j < 5) && store (.fcsr,j)) := by
  by_cases h : j < 5 <;> simp [Layout.bit,layout,home,h]

/-- The rounding mode follows the flags. -/
theorem bit_frm : layout.bit store .frm j=(decide (j < 3) && store (.fcsr,5+j)) := by
  by_cases h : j < 3 <;> simp [Layout.bit,layout,home,h]

/-- The upper bits of fcsr are zero. -/
theorem bit_fcsr : layout.bit store .fcsr j=(decide (j < 8) && store (.fcsr,j)) := by
  by_cases h : j < 8 <;> simp [Layout.bit,layout,home,h]

/-- The shared bits of sstatus are those of mstatus, the others its own. -/
theorem bit_sstatus :
    layout.bit store .sstatus j=
      if SharedStatus j then store (.mstatus,j) else store (.sstatus,j) := by
  by_cases h : SharedStatus j <;> simp only [Layout.bit,layout,home,h,if_true,if_false]

end Fields

/-- After reset every register reads its fixed bits and zeros. -/
theorem matches_reset : Matches csrReset storeReset := by
  intro csr j hj
  have hzero : (0 : Word).getLsbD j=false := BitVec.getLsbD_zero
  rw [csrRdata_addr]
  cases csr
  case fflags =>
    rw [bit_fflags,storeReset,Bool.and_false]
    exact hzero
  case frm =>
    rw [bit_frm,storeReset,Bool.and_false]
    exact hzero
  case fcsr =>
    rw [bit_fcsr,storeReset,Bool.and_false]
    exact hzero
  case sstatus =>
    rw [bit_sstatus,storeReset,storeReset,ite_self]
    exact hzero
  all_goals first
    | exact hzero
    | rfl

/-- A named operation works bit by bit. -/
theorem csrWriteNext_bit {code : BitVec 3} {op : Op} (h : Op.ofCode code=some op)
    (cur data : Word) {j : ℕ} (hj : j < 64) :
    (csrWriteNext cur data code).getLsbD j=op.onBit (cur.getLsbD j) (data.getLsbD j) := by
  unfold Op.ofCode at h
  unfold csrWriteNext
  split at h <;> cases h
  case h_1 | h_2 => rfl
  case h_3 | h_4 => exact BitVec.getLsbD_or
  case h_5 | h_6 =>
    change (cur&&&~~~data).getLsbD j=(cur.getLsbD j && !data.getLsbD j)
    rw [BitVec.getLsbD_and,BitVec.getLsbD_not,decide_eq_true hj,Bool.true_and]

/-- Operations with a bit to change are the modifying commands. -/
theorem modifies_ofCode {code : BitVec 3} {op : Op} (h : Op.ofCode code=some op) (data : Word) :
    (isWriteCmd code || ((isSetCmd code || isClearCmd code) && data != 0))=
      !(op != .replace && data==0) := by
  unfold Op.ofCode at h
  split at h <;> cases h <;> simp [isWriteCmd,isSetCmd,isClearCmd,bne]

/-- The other two codes request nothing. -/
theorem modifies_none {code : BitVec 3} (h : Op.ofCode code=none) (data : Word) :
    (isWriteCmd code || ((isSetCmd code || isClearCmd code) && data != 0))=false := by
  revert h
  have hcodes : ∀ c : BitVec 3,Op.ofCode c=none →
      isWriteCmd c=false ∧ isSetCmd c=false ∧ isClearCmd c=false := by decide
  intro h
  obtain ⟨hw,hs,hc⟩ := hcodes code h
  rw [hw,hs,hc]
  rfl

/-- The support table lists the named registers, and the write table the
read-only ones. -/
theorem tables_addr (csr : Csr) :
    csrIsSupported (canonicalAddr csr.addr)=true ∧
    csrIsWritable (canonicalAddr csr.addr)=!readOnly csr := by
  cases csr <;> decide

/-- An unnamed address is not supported. -/
theorem unsupported_addr {addr : BitVec 12} (h : Csr.ofAddr addr=none) :
    csrIsSupported (canonicalAddr addr)=false := by
  rw [canonicalAddr_unnamed h,csrIsSupported,h]
  rfl

/-- The file writes in exactly the cycles that request a write, at the
requested register. -/
theorem writesCsr_requested (i : CsrIn) :
    (∀ csr op data,requested i=some (csr,op,data) →
      writesCsr i=true ∧ i.csrAddr=csr.addr ∧ Op.ofCode i.csrOp=some op ∧ i.csrRs1Data=data) ∧
    (requested i=none → writesCsr i=false) := by
  unfold requested writesCsr csrWriteEn
  cases hreq : i.csrReq with
  | false => exact ⟨fun _ _ _ h => (by cases h),fun _ => rfl⟩
  | true =>
    cases hname : Csr.ofAddr i.csrAddr with
    | none =>
      rw [unsupported_addr hname]
      exact ⟨fun _ _ _ h => (by cases h),fun _ => rfl⟩
    | some csr =>
      have haddr := Csr.addr_of_ofAddr hname
      obtain ⟨hsupported,hwritable⟩ := tables_addr csr
      rw [←haddr,hsupported,hwritable]
      cases hop : Op.ofCode i.csrOp with
      | none =>
        rw [modifies_none hop]
        exact ⟨fun _ _ _ h => (by cases h),fun _ => rfl⟩
      | some op =>
        rw [modifies_ofCode hop,Bool.true_and,Bool.true_and,Bool.and_comm,←Bool.not_or]
        dsimp only
        cases hignored : readOnly csr || (op != .replace && i.csrRs1Data==0) with
        | true => exact ⟨fun _ _ _ h => (by cases h),fun _ => rfl⟩
        | false =>
          refine ⟨fun c o data h => ?_,fun h => (by cases h)⟩
          cases h
          exact ⟨rfl,rfl,rfl,rfl⟩

/-- A matching register reads as the store's word. -/
theorem read_of_matches {s : CsrState} {store : Store} (h : Matches s store) (csr : Csr) :
    layout.read store csr=csrRdata s csr.addr :=
  layout.read_eq (h csr)

/-- A counter keeps its bits itself, wherever it is read. -/
theorem shares_counter {c : Csr} (h : owner c∈counters) (j : ℕ) :
    layout.Shares (owner c) j c j := by
  cases c
  case cycle | mcycle => exact ⟨(.mcycle,j),rfl,rfl⟩
  case instret | minstret => exact ⟨(.minstret,j),rfl,rfl⟩
  case time => exact ⟨(.time,j),rfl,rfl⟩
  all_goals exact absurd h (by decide)

/-- Registers that do not count ignore the tick of the store. -/
theorem bit_tick_frame (store : Store) {c : Csr} (h : owner c∉counters) (j : ℕ) :
    layout.bit (tick store) c j=layout.bit store c j := by
  have howner : ∀ d∈counters,owner d∈counters := by decide
  exact layout.bit_assignAll_frame store store _ fun a ha m _ =>
    not_shares (fun heq => h (heq ▸ howner a ha)) m j

/-- Counters move on by one. -/
theorem bit_tick_counter (store : Store) {c : Csr} (h : owner c∈counters) {j : ℕ} (hj : j < 64) :
    layout.bit (tick store) c j=(layout.read store (owner c)+1).getLsbD j := by
  have howner : ∀ d∈counters,owner d=d := by decide
  refine layout.bit_assignAll_shared store store _ hj (shares_counter h j) h fun a ha hne m _ => ?_
  refine not_shares (fun heq => hne ?_) m j
  rw [←heq,howner a ha]

/-- One tick of the file: counters move on, everything else stays. -/
theorem tickCounters_read (s : CsrState) (csr : Csr) :
    csrRdata (tickCounters s false) csr.addr=
      if owner csr∈counters then csrRdata s (owner csr).addr+1 else csrRdata s csr.addr := by
  cases csr <;> rfl

/-- The counters of file and store tick together. -/
theorem matches_tick {s : CsrState} {store : Store} (h : Matches s store) :
    Matches (tickCounters s false) (tick store) := by
  intro csr j hj
  rw [tickCounters_read]
  by_cases hcount : owner csr∈counters
  · rw [if_pos hcount,bit_tick_counter store hcount hj,read_of_matches h]
  · rw [if_neg hcount,bit_tick_frame store hcount]
    exact h csr j hj

/-- A write leaves the registers of other owners to the tick. -/
theorem writeCsr_frame (s n : CsrState) {a c : Csr} (h : owner a≠owner c) (data : Word)
    (code : BitVec 3) : readCsr (writeCsr s n a.addr data code) c.addr=readCsr n c.addr := by
  unfold readCsr writeCsr
  rw [Csr.ofAddr_addr,Csr.ofAddr_addr]
  revert h
  cases a <;> cases c <;> first
    | exact fun _ => rfl
    | exact fun h => absurd rfl h

/-- Registers that hold a full word of their own. -/
def wordRegs : List Csr :=
  [.mstatus,.medeleg,.mideleg,.mie,.mtvec,.mscratch,.mepc,.mcause,.mtval,.mip,.mcounteren,.sstatus,
    .sie,.stvec,.scounteren,.sscratch,.sepc,.scause,.stval,.sip,.satp,.mcycle,.minstret]

/-- A write to a full word applies the operation to its old value. -/
theorem writeCsr_word (s n : CsrState) {a : Csr} (h : a∈wordRegs) (data : Word) (code : BitVec 3) :
    readCsr (writeCsr s n a.addr data code) a.addr=csrWriteNext (readCsr s a.addr) data code := by
  unfold readCsr writeCsr
  rw [Csr.ofAddr_addr]
  revert h
  cases a <;> first
    | exact fun _ => rfl
    | exact fun h => absurd h (by decide)

/-- A full word names a location for every bit. -/
theorem shares_word {a : Csr} (h : a∈wordRegs) (j : ℕ) : layout.Shares a j a j := by
  cases a
  case sstatus =>
    by_cases hj : SharedStatus j
    · exact ⟨(.mstatus,j),if_pos hj,if_pos hj⟩
    · exact ⟨(.sstatus,j),if_neg hj,if_neg hj⟩
  all_goals first
    | exact ⟨_,rfl,rfl⟩
    | exact absurd h (by decide)

/-- The status words share their shared positions and nothing else. -/
theorem shares_status (j k : ℕ) :
    layout.Shares .mstatus j .sstatus k ↔ j=k ∧ SharedStatus k := by
  constructor
  · rintro ⟨l,hm,hs⟩
    cases hm
    change (if SharedStatus k then _ else _)=_ at hs
    split at hs <;> cases hs
    exact ⟨rfl,‹_›⟩
  · rintro ⟨rfl,hj⟩
    exact ⟨(.mstatus,j),rfl,if_pos hj⟩

/-- The flags are kept in the low bits of fcsr. -/
theorem shares_fflags (j k : ℕ) : layout.Shares .fflags j .fcsr k ↔ k=j ∧ j < 5 := by
  constructor
  · rintro ⟨l,hj,hk⟩
    change (if j < 5 then _ else _)=_ at hj
    change (if k < 8 then _ else _)=_ at hk
    split at hj <;> cases hj
    split at hk <;> cases hk
    exact ⟨rfl,‹_›⟩
  · rintro ⟨rfl,hk⟩
    exact ⟨(.fcsr,k),if_pos hk,if_pos (by omega)⟩

/-- The rounding mode is kept above them. -/
theorem shares_frm (j k : ℕ) : layout.Shares .frm j .fcsr k ↔ k=5+j ∧ j < 3 := by
  constructor
  · rintro ⟨l,hj,hk⟩
    change (if j < 3 then _ else _)=_ at hj
    change (if k < 8 then _ else _)=_ at hk
    split at hj <;> cases hj
    split at hk <;> cases hk
    exact ⟨rfl,‹_›⟩
  · rintro ⟨rfl,hj⟩
    exact ⟨(.fcsr,5+j),if_pos hj,if_pos (by omega)⟩

/-- Reading the packed floating-point word bit by bit. -/
theorem composeFcsr_bit (s : CsrState) {j : ℕ} (hj : j < 64) :
    (composeFcsr s).getLsbD j=
      if j < 5 then s.fflags.getLsbD j else s.frm.getLsbD (j-5) := by
  unfold composeFcsr
  rw [BitVec.getLsbD_setWidth,decide_eq_true hj,Bool.true_and,BitVec.getLsbD_append]

/-- The packed word determines how all three registers read. -/
theorem fcsr_read {x : CsrState} {store : Store}
    (h : ∀ p < 8,(composeFcsr x).getLsbD p=layout.bit store .fcsr p) {c : Csr}
    (hc : owner c=.fcsr) {j : ℕ} (hj : j < 64) :
    (readCsr x c.addr).getLsbD j=layout.bit store c j := by
  have hpacked : ∀ p < 8,store (.fcsr,p)=
      if p < 5 then x.fflags.getLsbD p else x.frm.getLsbD (p-5) := by
    intro p hp
    rw [←composeFcsr_bit x (by omega),h p hp,bit_fcsr,decide_eq_true hp,Bool.true_and]
  cases c <;> try cases hc
  case fflags =>
    change (x.fflags.setWidth 64).getLsbD j=_
    rw [bit_fflags,BitVec.getLsbD_setWidth,decide_eq_true hj,Bool.true_and]
    by_cases hlow : j < 5
    · rw [hpacked j (by omega),if_pos hlow,decide_eq_true hlow,Bool.true_and]
    · rw [decide_eq_false hlow,Bool.false_and,BitVec.getLsbD_of_ge _ _ (by omega)]
  case frm =>
    change (x.frm.setWidth 64).getLsbD j=_
    rw [bit_frm,BitVec.getLsbD_setWidth,decide_eq_true hj,Bool.true_and]
    by_cases hlow : j < 3
    · rw [hpacked (5+j) (by omega),if_neg (by omega),decide_eq_true hlow,Bool.true_and,
        Nat.add_sub_cancel_left]
    · rw [decide_eq_false hlow,Bool.false_and,BitVec.getLsbD_of_ge _ _ (by omega)]
  case fcsr =>
    change (composeFcsr x).getLsbD j=_
    rw [bit_fcsr,composeFcsr_bit x hj]
    by_cases hlow : j < 8
    · rw [hpacked j hlow,decide_eq_true hlow,Bool.true_and]
    · rw [decide_eq_false hlow,Bool.false_and,if_neg (by omega),
        BitVec.getLsbD_of_ge _ _ (by omega)]

/-- A writable register holds a full word or is part of fcsr. -/
theorem writable_canonical {a : Csr} (h : readOnly a=false) :
    canonical a∈wordRegs ∨ owner (canonical a)=.fcsr := by
  revert h
  cases a <;> decide

/-- Registers of one owner: the status pair, or a register and itself. -/
theorem same_owner {a c : Csr} (ha : a∈wordRegs) (h : owner a=owner (canonical c)) :
    canonical c=a ∨ (a=.mstatus ∧ canonical c=.sstatus ∨ a=.sstatus ∧ canonical c=.mstatus) := by
  revert a
  cases c <;> decide

section Write

variable {s : CsrState} {store : Store} (hmatch : Matches s store) {code : BitVec 3} {op : Op}
  (hop : Op.ofCode code=some op) (data : Word)

/-- The reference store after the same write. -/
def written (store : Store) (a : Csr) (op : Op) (data : Word) : Store :=
  layout.assign store (tick store) a fun j old => op.onBit old (data.getLsbD j)

include hmatch hop

/-- A full word reads back as the store's. -/
theorem word_write {a : Csr} (ha : a∈wordRegs) {j : ℕ} (hj : j < 64) :
    (readCsr (writeCsr s (tickCounters s false) a.addr data code) a.addr).getLsbD j=
      layout.bit (written store a op data) a j := by
  have hself : ∀ c∈wordRegs,canonical c=c := by decide
  have hold := hmatch a j hj
  rw [csrRdata_addr,hself a ha] at hold
  unfold written
  rw [writeCsr_word s _ ha,csrWriteNext_bit hop _ _ hj,
    layout.bit_assign_shared store _ _ hj (shares_word ha j),hold]

/-- Writing one status word moves the shared bits of the other. -/
theorem status_write {a c : Csr} (hac : a=.mstatus ∧ c=.sstatus ∨ a=.sstatus ∧ c=.mstatus)
    {j : ℕ} (hj : j < 64) :
    (readCsr (writeCsr s (tickCounters s false) a.addr data code) c.addr).getLsbD j=
      layout.bit (written store a op data) c j := by
  have hshares : ∀ k,layout.Shares a k c j ↔ k=j ∧ SharedStatus j := by
    intro k
    obtain ⟨rfl,rfl⟩ | ⟨rfl,rfl⟩ := hac
    · exact shares_status k j
    · constructor
      · intro h
        obtain ⟨rfl,hk⟩ := (shares_status j k).mp h.symm
        exact ⟨rfl,hk⟩
      · rintro ⟨rfl,hk⟩
        exact ((shares_status k k).mpr ⟨rfl,hk⟩).symm
  have hread : (readCsr (writeCsr s (tickCounters s false) a.addr data code) c.addr).getLsbD j=
      if SharedStatus j then (csrWriteNext (readCsr s a.addr) data code).getLsbD j
      else (readCsr s c.addr).getLsbD j := by
    obtain ⟨rfl,rfl⟩ | ⟨rfl,rfl⟩ := hac
    · exact mirror_bit _ _ hj
    · exact mirror_bit _ _ hj
  have hword : ∀ d,d=a ∨ d=c → (readCsr s d.addr).getLsbD j=layout.bit store d j := by
    intro d hd
    have hd' := hmatch d j hj
    rw [csrRdata_addr] at hd'
    obtain ⟨rfl,rfl⟩ | ⟨rfl,rfl⟩ := hac <;> obtain rfl | rfl := hd <;> exact hd'
  unfold written
  rw [hread]
  by_cases hjs : SharedStatus j
  · have hshared := (hshares j).mpr ⟨rfl,hjs⟩
    rw [if_pos hjs,layout.bit_assign_shared store _ _ hj hshared,csrWriteNext_bit hop _ _ hj,
      hword a (.inl rfl),hshared.bit_eq store]
  · have hframe : ∀ k < 64,¬layout.Shares a k c j := fun k _ h => hjs ((hshares k).mp h).2
    have hcount : owner c∉counters := by
      obtain ⟨rfl,rfl⟩ | ⟨rfl,rfl⟩ := hac <;> decide
    rw [if_neg hjs,layout.bit_assign_frame store _ _ hframe,bit_tick_frame store hcount,
      hword c (.inr rfl)]

/-- Bits of fcsr after a write to one of its fields or to the whole. -/
theorem fcsr_write {a : Csr} (ha : owner a=.fcsr) {p : ℕ} (hp : p < 8) :
    (composeFcsr (writeCsr s (tickCounters s false) a.addr data code)).getLsbD p=
      layout.bit (written store a op data) .fcsr p := by
  have hp64 : p < 64 := by omega
  have hold : (composeFcsr s).getLsbD p=layout.bit store .fcsr p := hmatch .fcsr p hp64
  have htick : layout.bit (tick store) .fcsr p=(composeFcsr s).getLsbD p := by
    rw [bit_tick_frame store (by decide),hold]
  have hhome : layout.home .fcsr p=.inr (.fcsr,p) := if_pos hp
  unfold written
  rw [composeFcsr_bit _ hp64] at hold htick ⊢
  cases a <;> try cases ha
  case fflags =>
    change (if p < 5 then ((csrWriteNext (s.fflags.setWidth 64) data code).setWidth 5).getLsbD p
      else s.frm.getLsbD (p-5))=_
    by_cases hlow : p < 5
    · have hshared := (shares_fflags p p).mpr ⟨rfl,hlow⟩
      rw [if_pos hlow] at hold ⊢
      rw [layout.bit_assign_shared store _ _ hp64 hshared,←hold,BitVec.getLsbD_setWidth,
        csrWriteNext_bit hop _ _ hp64,BitVec.getLsbD_setWidth]
      simp [hlow,hp64]
    · have hframe : ∀ k < 64,¬layout.Shares .fflags k .fcsr p := by
        intro k _ h
        have hk := (shares_fflags k p).mp h
        omega
      rw [if_neg hlow] at htick ⊢
      rw [layout.bit_assign_frame store _ _ hframe,htick]
  case frm =>
    change (if p < 5 then s.fflags.getLsbD p
      else ((csrWriteNext (s.frm.setWidth 64) data code).setWidth 3).getLsbD (p-5))=_
    by_cases hlow : p < 5
    · have hframe : ∀ k < 64,¬layout.Shares .frm k .fcsr p := by
        intro k _ h
        have hk := (shares_frm k p).mp h
        omega
      rw [if_pos hlow] at htick ⊢
      rw [layout.bit_assign_frame store _ _ hframe,htick]
    · have hin : p-5 < 3 := by omega
      have hshared := (shares_frm (p-5) p).mpr ⟨by omega,hin⟩
      rw [if_neg hlow] at hold ⊢
      rw [layout.bit_assign_shared store _ _ (by omega) hshared,←hold,BitVec.getLsbD_setWidth,
        csrWriteNext_bit hop _ _ (by omega),BitVec.getLsbD_setWidth]
      have hwide : p-5 < 64 := by omega
      simp [hin,hwide]
  case fcsr =>
    change (if p < 5 then ((csrWriteNext (composeFcsr s) data code).setWidth 5).getLsbD p
      else ((csrWriteNext (composeFcsr s) data code).extractLsb' 5 3).getLsbD (p-5))=_
    have hnew : (csrWriteNext (composeFcsr s) data code).getLsbD p=
        op.onBit (layout.bit store .fcsr p) (data.getLsbD p) := by
      rw [csrWriteNext_bit hop _ _ hp64,composeFcsr_bit _ hp64,hold]
    rw [layout.bit_assign_shared store _ _ hp64 ⟨_,hhome,hhome⟩,←hnew]
    by_cases hlow : p < 5
    · rw [if_pos hlow,BitVec.getLsbD_setWidth,decide_eq_true hlow,Bool.true_and]
    · have hin : p-5 < 3 := by omega
      have hback : 5+(p-5)=p := by omega
      rw [if_neg hlow,BitVec.getLsbD_extractLsb',decide_eq_true hin,Bool.true_and,hback]

/-- Every register reads back as the store's after a write. -/
theorem matches_write {a : Csr} (ha : readOnly a=false) :
    Matches (writeCsr s (tickCounters s false) (canonical a).addr data code)
      (written store a op data) := by
  intro c j hj
  have hwritten : written store a op data=written store (canonical a) op data :=
    layout.assign_congr store _ _ fun k => congrFun (home_canonical a).symm k
  have hcongr : ∀ st : Store,layout.bit st c j=layout.bit st (canonical c) j :=
    fun st => layout.bit_congr st (congrFun (home_canonical c).symm j)
  rw [csrRdata_addr,hwritten,hcongr]
  by_cases howner : owner (canonical a)=owner (canonical c)
  · obtain hword | hfloat := writable_canonical ha
    · obtain heq | hstatus := same_owner hword howner
      · rw [heq]
        exact word_write hmatch hop data hword hj
      · exact status_write hmatch hop data hstatus hj
    · refine fcsr_read (fun p hp => ?_) (howner.symm.trans hfloat) hj
      exact fcsr_write hmatch hop data hfloat hp
  · have htick := matches_tick hmatch c j hj
    rw [csrRdata_addr,hcongr] at htick
    rw [writeCsr_frame _ _ howner,htick]
    exact (layout.bit_assign_frame store _ _ fun k _ => not_shares howner k j).symm

end Write

/-- One quiet cycle keeps file and store in step. -/
theorem matches_step {s : CsrState} {store : Store} {i : CsrIn} (hi : Quiet i)
    (h : Matches s store) : Matches (csrStep s i) (storeStep store i) := by
  obtain ⟨hrst,htrap,hmret,hsret⟩ := hi
  obtain ⟨hsome,hnone⟩ := writesCsr_requested i
  rw [csrStep_writePhase s hrst htrap hmret hsret]
  unfold writePhase storeStep
  dsimp only
  rw [htrap]
  cases hrequested : requested i with
  | none =>
    rw [if_neg (by rw [hnone hrequested]; decide)]
    exact matches_tick h
  | some request =>
    obtain ⟨csr,op,data⟩ := request
    obtain ⟨hwrites,haddr,hop,hdata⟩ := hsome csr op data hrequested
    have hwritable : readOnly csr=false := by
      have hboth := hwrites
      unfold writesCsr at hboth
      rw [haddr,(tables_addr csr).2,Bool.and_eq_true,Bool.not_eq_true'] at hboth
      exact hboth.2
    rw [if_pos hwrites,haddr,canonicalAddr_addr,hdata]
    exact matches_write h hop data hwritable

/-- A quiet run keeps file and store in step. -/
theorem matches_run {inputs : ℕ → CsrIn} (hquiet : ∀ t,Quiet (inputs t)) (t : ℕ) :
    Matches (runFrom csrStep csrReset inputs t) (runFrom storeStep storeReset inputs t) := by
  induction t with
  | zero => exact matches_reset
  | succ t ih => exact matches_step (hquiet t) ih

/-- Registers that show bits of each other. -/
def aliases : List (Csr × Csr) :=
  [(.mcycle,.cycle),(.minstret,.instret),(.fflags,.fcsr),(.frm,.fcsr),(.mstatus,.sstatus)]

/-- Different registers of one owner are aliases, or the two fields of fcsr. -/
theorem owner_eq_aliases {a c : Csr} (h : owner a=owner c) (hne : a≠c) :
    ((a,c)∈aliases ∨ (c,a)∈aliases) ∨ (a,c)=(.fflags,.frm) ∨ (c,a)=(.fflags,.frm) := by
  have hall : ∀ csr : Csr,csr∈Csr.all := by
    intro csr
    cases csr <;> decide
  have htable : ∀ a∈Csr.all,∀ c∈Csr.all,owner a=owner c → a≠c →
      ((a,c)∈aliases ∨ (c,a)∈aliases) ∨ (a,c)=(.fflags,.frm) ∨ (c,a)=(.fflags,.frm) := by
    decide +kernel
  exact htable a (hall a) c (hall c) h hne

/-- The flags and the rounding mode lie apart. -/
theorem not_shares_fields (j k : ℕ) : ¬layout.Shares .fflags j .frm k := by
  rintro ⟨l,hj,hk⟩
  change (if j < 5 then _ else _)=_ at hj
  change (if k < 3 then _ else _)=_ at hk
  split at hj <;> cases hj
  split at hk <;> cases hk
  omega

/-- Two different registers share bits only as aliases. -/
theorem aliases_of_shares {a c : Csr} {j k : ℕ} (h : layout.Shares a j c k) (hne : a≠c) :
    (a,c)∈aliases ∨ (c,a)∈aliases := by
  have howner : owner a=owner c := by
    by_contra hdiff
    exact not_shares hdiff j k h
  obtain halias | hfields | hfields := owner_eq_aliases howner hne
  · exact halias
  · cases hfields
    exact absurd h (not_shares_fields j k)
  · cases hfields
    exact absurd h.symm (not_shares_fields k j)

/-- A counter and its user-level alias are one word. -/
theorem shares_alias {a c : Csr} (h : (a,c)=(.mcycle,.cycle) ∨ (a,c)=(.minstret,.instret))
    (j k : ℕ) : layout.Shares a j c k ↔ j=k := by
  obtain h | h := h <;> cases h
  all_goals
    constructor
    · rintro ⟨l,hj,hk⟩
      cases hj
      cases hk
      rfl
    · rintro rfl
      exact ⟨_,rfl,rfl⟩

/-- Bits that the cycle assigns take the result of the operation. -/
theorem storeStep_hit (store : Store) {i : CsrIn} {a : Csr} {op : Op} {data : Word}
    (h : requested i=some (a,op,data)) {c : Csr} {j k : ℕ} (hk : k < 64)
    (hshared : layout.Shares a k c j) :
    layout.bit (storeStep store i) c j=op.onBit (layout.bit store c j) (data.getLsbD k) := by
  unfold storeStep
  rw [h]
  exact layout.bit_assign_shared store _ _ hk hshared

/-- Bits that the cycle does not assign tick. -/
theorem storeStep_frame (store : Store) {i : CsrIn} {c : Csr} {j : ℕ}
    (h : ∀ a op data,requested i=some (a,op,data) → ∀ k < 64,¬layout.Shares a k c j) :
    layout.bit (storeStep store i) c j=layout.bit (tick store) c j := by
  unfold storeStep
  cases hrequested : requested i with
  | none => rfl
  | some request => exact layout.bit_assign_frame store _ _ (h _ _ _ hrequested)

/-- What a register reads after a cycle that leaves it alone. -/
def ticked (s : CsrState) (csr : Csr) : Word :=
  if owner csr∈counters then csrRdata s csr.addr+1 else csrRdata s csr.addr

/-- A counter reads the same under its alias. -/
theorem csrRdata_owner (s : CsrState) {csr : Csr} (h : owner csr∈counters) :
    csrRdata s (owner csr).addr=csrRdata s csr.addr := by
  revert h
  cases csr <;> first
    | exact fun _ => rfl
    | exact fun h => absurd h (by decide)

/-- In every run from reset without traps and returns, whatever the requests:
every register reads as in the reference store in every cycle. A bit shared
with the addressed register takes the result of the operation, every other
bit is left alone or ticks, and the sharing is exactly that of the five alias
pairs. -/
theorem csr_file_store (inputs : ℕ → CsrIn) (hquiet : ∀ t,Quiet (inputs t)) :
    (∀ t csr,csrRdata (runFrom csrStep csrReset inputs t) csr.addr=
      layout.read (runFrom storeStep storeReset inputs t) csr) ∧
    (∀ t a op data,requested (inputs t)=some (a,op,data) → ∀ k < 64,∀ c,∀ j < 64,
      layout.Shares a k c j →
        (csrRdata (runFrom csrStep csrReset inputs (t+1)) c.addr).getLsbD j=
          op.onBit ((csrRdata (runFrom csrStep csrReset inputs t) c.addr).getLsbD j)
            (data.getLsbD k)) ∧
    (∀ t c,∀ j < 64,
      (∀ a op data,requested (inputs t)=some (a,op,data) → ∀ k < 64,¬layout.Shares a k c j) →
        (csrRdata (runFrom csrStep csrReset inputs (t+1)) c.addr).getLsbD j=
          (ticked (runFrom csrStep csrReset inputs t) c).getLsbD j) ∧
    (∀ a c j k,layout.Shares a j c k → a≠c → (a,c)∈aliases ∨ (c,a)∈aliases) ∧
    (∀ j k,layout.Shares .mcycle j .cycle k ↔ j=k) ∧
    (∀ j k,layout.Shares .minstret j .instret k ↔ j=k) ∧
    (∀ j k,layout.Shares .fflags j .fcsr k ↔ k=j ∧ j < 5) ∧
    (∀ j k,layout.Shares .frm j .fcsr k ↔ k=5+j ∧ j < 3) ∧
    (∀ j k,layout.Shares .mstatus j .sstatus k ↔ j=k ∧ SharedStatus k) := by
  have hrun := matches_run hquiet
  refine ⟨fun t csr => (read_of_matches (hrun t) csr).symm,?_,?_,?_,
    shares_alias (.inl rfl),shares_alias (.inr rfl),shares_fflags,shares_frm,shares_status⟩
  · intro t a op data hrequested k hk c j hj hshared
    rw [hrun (t+1) c j hj,hrun t c j hj]
    exact storeStep_hit _ hrequested hk hshared
  · intro t c j hj hfree
    rw [hrun (t+1) c j hj]
    refine (storeStep_frame _ hfree).trans ?_
    rw [←matches_tick (hrun t) c j hj,tickCounters_read]
    unfold ticked
    by_cases hcount : owner c∈counters
    · rw [if_pos hcount,if_pos hcount,csrRdata_owner _ hcount]
    · rw [if_neg hcount,if_neg hcount]
  · intro a c j k hshared hne
    exact aliases_of_shares hshared hne

/-- One write to sstatus, then idle cycles. -/
def sstatusWrite (t : ℕ) : CsrIn :=
  if t=0 then
    {idleCycle with csrReq := true, csrOp := 0b001, csrAddr := Csr.sstatus.addr, csrRs1Data := 0x121}
  else idleCycle

/-- SPIE written through sstatus is read in mstatus, bit 0 is not. -/
theorem csr_file_store_sstatus :
    (csrRdata (runFrom csrStep csrReset sstatusWrite 1) Csr.mstatus.addr).getLsbD 5=true ∧
    (csrRdata (runFrom csrStep csrReset sstatusWrite 1) Csr.mstatus.addr).getLsbD 0=false := by
  have hquiet : ∀ t,Quiet (sstatusWrite t) := by
    intro t
    unfold sstatusWrite
    split <;> exact ⟨rfl,rfl,rfl,rfl⟩
  obtain ⟨hread,hhit,hframe,htable⟩ := csr_file_store sstatusWrite hquiet
  have hshared := (shares_status 5 5).mpr ⟨rfl,by decide⟩
  refine ⟨hhit 0 .sstatus .replace 0x121 rfl 5 (by decide) .mstatus 5 (by decide) hshared.symm,?_⟩
  refine hframe 0 .mstatus 0 (by decide) ?_
  rintro a op data hrequested k - h
  cases hrequested
  have h0 := (shares_status 0 k).mp h.symm
  exact absurd h0 (by
    rintro ⟨rfl,hs⟩
    revert hs
    decide)

end RichardCore.CsrStore
