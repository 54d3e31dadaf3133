import RichardCore.InterruptGate
import RichardCore.SequentialMachine

/-!
# CSR instructions in user mode

The decoder checks bits 9:8 of the CSR address as written; the CSR file maps
the two counter aliases to their machine addresses afterwards, and its table
of read-only registers does not list them. Every other privileged register is
out of reach of user mode.
-/

namespace RichardCore.UserAccess

open Packages Decoder DataMemory CsrUnit TrapCtrl Pipeline Effects SequentialMachine InterruptGate

/-- CSR instruction words: any address, operation and source. -/
def IsCsrWord (word : BitVec 32) : Prop :=
  opcodeField word=Opcode.system.bits ∧ funct3 word≠0

instance (word : BitVec 32) : Decidable (IsCsrWord word) := inferInstanceAs (Decidable (_ ∧ _))

/-- Record in WB of an instruction decoded in user mode, with given address,
operands and load data. -/
def userRecord (word : BitVec 32) (pc rs1Rdata rs2Rdata rdata : Word) : MemWb :=
  memStage (exMemOf ⟨word,pc,rs1Rdata,rs2Rdata,decoder word PrivMode.u.bits⟩) rdata

/-- Source data of a CSR instruction: the register value, or the source field
of the immediate forms. -/
def sourceData (word : BitVec 32) (rs1Rdata : Word) : Word :=
  if (funct3 word).getLsbD 2 then (rs1Field word).setWidth 64 else rs1Rdata

/-- CSR registers other than the floating-point flags and rounding mode. -/
def withoutFloat (s : CsrState) : CsrState := {s with fflags := 0, frm := 0}

/-- The instruction modifies a counter through its user-level alias and
leaves it at another value than its tick. -/
def OverwritesCounter (s : CsrState) (word : BitVec 32) (rs1Rdata : Word) : Prop :=
  csrModifies (funct3 word) (sourceData word rs1Rdata)=true ∧
  ((csrAddrField word=Csr.cycle.addr ∧
      csrWriteNext s.mcycle (sourceData word rs1Rdata) (funct3 word)≠s.mcycle+1) ∨
    (csrAddrField word=Csr.instret.addr ∧
      csrWriteNext s.minstret (sourceData word rs1Rdata) (funct3 word)≠s.minstret+1))

instance (s : CsrState) (word : BitVec 32) (rs1Rdata : Word) :
    Decidable (OverwritesCounter s word rs1Rdata) := inferInstanceAs (Decidable (_ ∧ _))

/-- The sign-extended immediate keeps the CSR address. -/
theorem immI_csrAddr (word : BitVec 32) : (immI word).setWidth 12=csrAddrField word := by
  unfold immI csrAddrField
  rw [BitFields.setWidth_signExtend (by decide)]
  exact BitVec.signExtend_eq _

section Record

variable {word : BitVec 32} (hword : IsCsrWord word) (pc rs1Rdata rs2Rdata rdata : Word)

include hword

/-- A CSR instruction is flagged or carries its operation, address and
source. -/
theorem userRecord_cases :
    (csrAccessAllowed PrivMode.u.bits (csrAddrField word)=false ∧
      (userRecord word pc rs1Rdata rs2Rdata rdata).illegalInstr=true) ∨
    (csrAccessAllowed PrivMode.u.bits (csrAddrField word)=true ∧
      csrReq (userRecord word pc rs1Rdata rs2Rdata rdata)=true ∧
      hasTrap (userRecord word pc rs1Rdata rs2Rdata rdata)=false ∧
      (userRecord word pc rs1Rdata rs2Rdata rdata).isMret=false ∧
      (userRecord word pc rs1Rdata rs2Rdata rdata).isSret=false ∧
      (userRecord word pc rs1Rdata rs2Rdata rdata).csrOp=funct3 word ∧
      csrAddr (userRecord word pc rs1Rdata rs2Rdata rdata)=csrAddrField word ∧
      csrRs1Data (userRecord word pc rs1Rdata rs2Rdata rdata)=sourceData word rs1Rdata) := by
  obtain ⟨hop,hf3⟩ := hword
  have hcode : Opcode.ofBits (opcodeField word)=some .system := by rw [hop]; rfl
  have hlui : opcodeField word≠Opcode.lui.bits := by rw [hop]; decide
  cases hallowed : csrAccessAllowed PrivMode.u.bits (csrAddrField word) with
  | false =>
    refine .inl ⟨rfl,?_⟩
    unfold userRecord decoder
    rw [hcode]
    dsimp only
    rw [if_neg hf3,hallowed]
    rfl
  | true =>
    have hdecoded : decoder word PrivMode.u.bits=
        {decodeDefaults word with
          imm := immI word
          wb := ⟨true,rdField word,0⟩
          sys := {sysDefaults with isCsr := true, csrOp := funct3 word}} := by
      unfold decoder
      rw [hcode]
      dsimp only
      rw [if_neg hf3,hallowed]
      rfl
    have hrs1 : (decodeDefaults word).rs1Addr=rs1Field word := if_neg hlui
    refine .inr ⟨rfl,?_⟩
    unfold userRecord
    rw [hdecoded]
    refine ⟨rfl,rfl,rfl,rfl,rfl,immI_csrAddr word,?_⟩
    unfold csrRs1Data sourceData
    change (if (funct3 word).getLsbD 2 then (decodeDefaults word).rs1Addr.setWidth 64 else rs1Rdata)=_
    rw [hrs1]

end Record

/-- Without an interrupt a cycle traps by the exceptions of the instruction in
WB. -/
theorem unitWires_trigger (s : CsrState) (i : UnitIn)
    (hint : interruptCause (gateOpen s) i.irq=none) :
    (unitWires s i).trapTrigger=(hasTrap i.memWb || wbCsrIllegal i.memWb) := by
  have hsync := hasSyncException_eq {coreReset with memWb := i.memWb, csr := s}
  change ((interruptCause (gateOpen s) i.irq).isSome ||
    hasSyncException {coreReset with memWb := i.memWb, csr := s})=_
  rw [hint,hsync]
  rfl

/-- A cycle without trap and return is its write phase. -/
theorem unitStep_quiet (s : CsrState) (i : UnitIn) (hrst : i.rst=false)
    (htrigger : (unitWires s i).trapTrigger=false) (hmret : i.memWb.isMret=false)
    (hsret : i.memWb.isSret=false) : unitStep s i=writePhase s (unitWires s i) := by
  have hrstIn : (unitWires s i).rst=false := hrst
  have hmretEn : (unitWires s i).mretEn=(i.memWb.isMret && !(unitWires s i).trapTrigger) := rfl
  have hsretEn : (unitWires s i).sretEn=(i.memWb.isSret && !(unitWires s i).trapTrigger) := rfl
  rw [hmret,Bool.false_and] at hmretEn
  rw [hsret,Bool.false_and] at hsretEn
  unfold unitStep
  exact csrStep_writePhase s hrstIn htrigger hmretEn hsretEn

/-- With an empty WB the counters tick and nothing else happens. -/
theorem unitStep_idle (s : CsrState) (irq : IrqLines)
    (hint : interruptCause (gateOpen s) irq=none) :
    unitStep s ⟨false,memWbReset,irq⟩=tickCounters s false := by
  have htrigger := unitWires_trigger s ⟨false,memWbReset,irq⟩ hint
  rw [unitStep_quiet s _ rfl htrigger rfl rfl]
  unfold writePhase
  rw [htrigger]
  rfl

/-- The aliases are supported and count as writable. -/
theorem alias_accepted (op : BitVec 3) {addr : BitVec 12}
    (h : addr=Csr.cycle.addr ∨ addr=Csr.instret.addr) :
    csrAccessAllowed PrivMode.u.bits addr=true ∧ csrIllegalAccess true op addr=false := by
  have hwrite : ∀ csr : Csr,csrIsWritable (canonicalAddr csr.addr)=true →
      csrIsSupported (canonicalAddr csr.addr)=true → csrIllegalAccess true op csr.addr=false := by
    intro csr hwritable hsupported
    unfold csrIllegalAccess csrWriteIllegal
    rw [hwritable,hsupported]
    simp
  obtain rfl | rfl := h
  · exact ⟨by decide,hwrite .cycle (by decide) (by decide)⟩
  · exact ⟨by decide,hwrite .instret (by decide) (by decide)⟩

/-- A legal write in user mode goes to the floating-point state or to one of
the two aliases. -/
theorem user_write_target {op : BitVec 3} {data : Word} {addr : BitVec 12}
    (hallowed : csrAccessAllowed PrivMode.u.bits addr=true)
    (hlegal : csrIllegalAccess true op addr=false) (hmodifies : csrModifies op data=true) :
    (addr=Csr.fflags.addr ∨ addr=Csr.frm.addr ∨ addr=Csr.fcsr.addr) ∨ addr=Csr.cycle.addr ∨
      addr=Csr.instret.addr := by
  have hcommand : (isWriteCmd op || isSetCmd op || isClearCmd op)=true := by
    unfold csrModifies at hmodifies
    cases hw : isWriteCmd op <;> cases hs : isSetCmd op <;> cases hc : isClearCmd op <;> simp_all
  unfold csrIllegalAccess csrWriteIllegal at hlegal
  rw [Bool.true_and,Bool.true_and,hcommand,Bool.true_and,Bool.or_eq_false_iff,
    Bool.not_eq_false',Bool.not_eq_false'] at hlegal
  obtain ⟨hsupported,hwritable⟩ := hlegal
  cases hname : Csr.ofAddr addr with
  | none =>
    rw [canonicalAddr_unnamed hname,csrIsSupported,hname] at hsupported
    cases hsupported
  | some csr =>
    have haddr := Csr.addr_of_ofAddr hname
    subst haddr
    revert hallowed hwritable
    cases csr <;> decide

/-- Setting mcycle leaves the tick alone exactly when it sets the ticked value. -/
theorem mcycle_write_iff (s : CsrState) (v : Word) :
    withoutFloat {tickCounters s false with mcycle := v}=withoutFloat (tickCounters s false) ↔
      v=s.mcycle+1 := by
  constructor
  · intro hsame
    exact congrArg CsrState.mcycle hsame
  · rintro rfl
    rfl

/-- Setting minstret leaves the tick alone exactly when it sets the ticked value. -/
theorem minstret_write_iff (s : CsrState) (v : Word) :
    withoutFloat {tickCounters s false with minstret := v}=withoutFloat (tickCounters s false) ↔
      v=s.minstret+1 := by
  constructor
  · intro hsame
    exact congrArg CsrState.minstret hsame
  · rintro rfl
    rfl

/-- The write phase of a legal user-mode request: a counter written through
its alias takes the written value instead of its tick. -/
theorem writePhase_user {s : CsrState} {i : CsrIn} (hreq : i.csrReq=true)
    (htrigger : i.trapTrigger=false)
    (hallowed : csrAccessAllowed PrivMode.u.bits i.csrAddr=true)
    (hlegal : csrIllegalAccess true i.csrOp i.csrAddr=false) :
    withoutFloat (writePhase s i)=withoutFloat (tickCounters s false) ↔
      ¬(csrModifies i.csrOp i.csrRs1Data=true ∧
        ((i.csrAddr=Csr.cycle.addr ∧
            csrWriteNext s.mcycle i.csrRs1Data i.csrOp≠s.mcycle+1) ∨
          (i.csrAddr=Csr.instret.addr ∧
            csrWriteNext s.minstret i.csrRs1Data i.csrOp≠s.minstret+1))) := by
  have hwrites : writesCsr i=csrModifies i.csrOp i.csrRs1Data := by
    rw [writesCsr_eq,hreq,hlegal]
    rfl
  unfold writePhase
  dsimp only
  rw [hwrites,htrigger]
  cases hmodifies : csrModifies i.csrOp i.csrRs1Data with
  | false => simp
  | true =>
    rw [if_pos rfl]
    obtain hfloat | haddr | haddr := user_write_target hallowed hlegal hmodifies
    · have hcycle : i.csrAddr≠Csr.cycle.addr := by
        rintro habs
        rw [habs] at hfloat
        revert hfloat
        decide
      have hinstret : i.csrAddr≠Csr.instret.addr := by
        rintro habs
        rw [habs] at hfloat
        revert hfloat
        decide
      refine iff_of_true ?_ fun h => h.2.elim (fun hc => hcycle hc.1) fun hc => hinstret hc.1
      obtain haddr | haddr | haddr := hfloat <;> rw [haddr] <;> rfl
    · rw [haddr]
      have hother : Csr.cycle.addr≠Csr.instret.addr := by decide
      change withoutFloat {tickCounters s false with
        mcycle := csrWriteNext s.mcycle i.csrRs1Data i.csrOp}=_ ↔ _
      rw [mcycle_write_iff]
      simp [hother]
    · rw [haddr]
      have hother : Csr.instret.addr≠Csr.cycle.addr := by decide
      change withoutFloat {tickCounters s false with
        minstret := csrWriteNext s.minstret i.csrRs1Data i.csrOp}=_ ↔ _
      rw [minstret_write_iff]
      simp [hother]

/-- From every state in user mode, for every CSR instruction and every source
value, in a cycle without an interrupt: the instruction traps or leaves every
CSR register but the floating-point ones as an empty WB would, exactly when it
does not overwrite a counter through its alias. -/
theorem user_csr_iff (s : CsrState) (word : BitVec 32) (pc rs1Rdata rs2Rdata rdata : Word)
    (irq : IrqLines) (hword : IsCsrWord word)
    (hint : interruptCause (gateOpen s) irq=none) :
    let i : UnitIn := ⟨false,userRecord word pc rs1Rdata rs2Rdata rdata,irq⟩
    ((unitWires s i).trapTrigger=true ∨
      withoutFloat (unitStep s i)=withoutFloat (unitStep s ⟨false,memWbReset,irq⟩)) ↔
      ¬OverwritesCounter s word rs1Rdata := by
  intro i
  have htrigger := unitWires_trigger s i hint
  rw [unitStep_idle s irq hint,htrigger]
  have halias : OverwritesCounter s word rs1Rdata →
      csrAddrField word=Csr.cycle.addr ∨ csrAddrField word=Csr.instret.addr :=
    fun h => h.2.imp And.left And.left
  obtain ⟨hdenied,hillegal⟩ | ⟨hallowed,hreq,hnoTrap,hmret,hsret,hop,haddr,hdata⟩ :=
    userRecord_cases hword pc rs1Rdata rs2Rdata rdata
  · have htrap : hasTrap i.memWb=true := by
      unfold hasTrap
      rw [show i.memWb.illegalInstr=true from hillegal]
      rfl
    refine iff_of_true (.inl (by rw [htrap]; rfl)) fun hover => ?_
    rw [(alias_accepted (funct3 word) (halias hover)).1] at hdenied
    cases hdenied
  · have hillegalEq : wbCsrIllegal i.memWb=
        csrIllegalAccess true (funct3 word) (csrAddrField word) := by
      unfold wbCsrIllegal
      rw [show csrReq i.memWb=true from hreq,show i.memWb.csrOp=funct3 word from hop,
        show csrAddr i.memWb=csrAddrField word from haddr]
    rw [show hasTrap i.memWb=false from hnoTrap,Bool.false_or] at htrigger ⊢
    cases hlegal : wbCsrIllegal i.memWb with
    | true =>
      refine iff_of_true (.inl rfl) fun hover => ?_
      rw [hillegalEq,(alias_accepted (funct3 word) (halias hover)).2] at hlegal
      cases hlegal
    | false =>
      rw [hlegal] at htrigger
      have hlegalAddr := hillegalEq.symm.trans hlegal
      rw [unitStep_quiet s i rfl htrigger hmret hsret]
      have hopIn : (unitWires s i).csrOp=funct3 word := hop
      have haddrIn : (unitWires s i).csrAddr=csrAddrField word := haddr
      have hdataIn : (unitWires s i).csrRs1Data=sourceData word rs1Rdata := hdata
      have hphase := writePhase_user (s := s) (i := unitWires s i) hreq htrigger
        (haddrIn ▸ hallowed) (by rw [hopIn,haddrIn]; exact hlegalAddr)
      rw [hopIn,haddrIn,hdataIn] at hphase
      rw [hphase]
      simp [OverwritesCounter]

/-- CSRRW x0,fflags,x1 in user mode touches the floating-point state only. -/
theorem user_csr_fflags :
    withoutFloat (unitStep {csrReset with privMode := .u}
        ⟨false,userRecord 0x00109073 0x1000 31 0 0,.low⟩)=
      withoutFloat (unitStep {csrReset with privMode := .u} ⟨false,memWbReset,.low⟩) :=
  ((user_csr_iff {csrReset with privMode := .u} 0x00109073 0x1000 31 0 0 .low (by decide)
    rfl).mpr (by decide)).resolve_left (by decide)

/-- CSRRW x0,cycle,x1 in user mode does not trap and sets mcycle. -/
theorem user_csr_cycle :
    let s : CsrState := {csrReset with privMode := .u}
    let i : UnitIn := ⟨false,userRecord 0xc0009073 0x1000 64 0 0,.low⟩
    IsCsrWord 0xc0009073 ∧ (unitWires s i).trapTrigger=false ∧ (unitStep s i).mcycle=64 ∧
    (unitStep s ⟨false,memWbReset,.low⟩).mcycle=1 := by
  decide

end RichardCore.UserAccess
