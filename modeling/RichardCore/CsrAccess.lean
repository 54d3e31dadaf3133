import RichardCore.Effects
import RichardCore.Harness

/-!
# Which CSR requests are rejected

The CSR file computes the write enable and the rejection of a request by two
expressions. Both look at the operation and the address; only the write
enable also looks at the source data, so that a set or clear of nothing is
no write but is rejected like one.
-/

namespace RichardCore.CsrAccess

open Packages DataMemory CsrUnit TrapCtrl Pipeline Tracking Effects Harness

/-- The six defined operations. -/
def definedOp (op : BitVec 3) : Bool := isWriteCmd op || isSetCmd op || isClearCmd op

/-- A request is rejected if and only if its register is not supported, or it
performs a write and its register is read-only. -/
def AccessRule (op : BitVec 3) (addr : BitVec 12) (data : Word) : Prop :=
  csrIllegalAccess true op addr=true ↔
    csrIsSupported (canonicalAddr addr)=false ∨
      (csrWriteEn true op addr data=true ∧ csrIsWritable (canonicalAddr addr)=false)

/-- A set or clear of nothing. -/
def PureRead (op : BitVec 3) (data : Word) : Prop :=
  (isSetCmd op || isClearCmd op)=true ∧ data=0

/-- The CSR instruction in WB carries a given request. -/
structure Requests (w : MemWb) (op : BitVec 3) (addr : BitVec 12) (data : Word) : Prop where
  /-- The request is valid. -/
  req : csrReq w=true
  /-- Operation. -/
  op : w.csrOp=op
  /-- Address. -/
  addr : csrAddr w=addr
  /-- Source data. -/
  data : csrRs1Data w=data

/-- The instruction in WB raises no exception and writes the value of the CSR
to its destination. -/
structure ReadsCsr (s : CoreState) (addr : BitVec 12) : Prop where
  /-- No exception. -/
  quiet : hasSyncException s=false
  /-- The register write is the instruction's own. -/
  writes : (wbWires s).regWriteEn=s.memWb.wb.regWriteEn
  /-- The value of the CSR. -/
  value : (wbWires s).rdWdata=csrRdata s.csr addr

/-- The six operations fall into three kinds. -/
theorem cmd_disjoint (op : BitVec 3) :
    (isSetCmd op || isClearCmd op)=true → isWriteCmd op=false := by
  revert op
  decide

/-- Every read-only register is supported. -/
theorem supported_of_readOnly {addr : BitVec 12} (h : csrIsWritable addr=false) :
    csrIsSupported addr=true := by
  unfold csrIsWritable at h
  unfold csrIsSupported
  cases hcsr : Csr.ofAddr addr with
  | none =>
    rw [hcsr] at h
    cases h
  | some csr => rfl

/-- A valid request is rejected for its register or for its operation at a
read-only register, whatever its source data. -/
theorem csrIllegalAccess_iff (op : BitVec 3) (addr : BitVec 12) :
    csrIllegalAccess true op addr=true ↔
      csrIsSupported (canonicalAddr addr)=false ∨
        (definedOp op=true ∧ csrIsWritable (canonicalAddr addr)=false) := by
  unfold csrIllegalAccess csrWriteIllegal definedOp
  simp

/-- A valid request at a read-only register performs a write if its operation
is defined and is no pure read. -/
theorem csrWriteEn_readOnly {op : BitVec 3} {addr : BitVec 12} (data : Word)
    (hreadOnly : csrIsWritable (canonicalAddr addr)=false) :
    csrWriteEn true op addr data=true ↔ definedOp op=true ∧ ¬PureRead op data := by
  have hsupported := supported_of_readOnly hreadOnly
  have hkinds := cmd_disjoint op
  unfold csrWriteEn definedOp PureRead
  rw [hsupported]
  cases hset : isSetCmd op || isClearCmd op with
  | false =>
    rw [Bool.or_eq_false_iff] at hset
    simp [hset.1,hset.2]
  | true =>
    rw [hkinds hset,Bool.or_assoc,hset]
    simp

/-- The rule holds of every request but a pure read of a read-only register. -/
theorem accessRule_iff (op : BitVec 3) (addr : BitVec 12) (data : Word) :
    AccessRule op addr data ↔ ¬(PureRead op data ∧ csrIsWritable (canonicalAddr addr)=false) := by
  unfold AccessRule
  rw [csrIllegalAccess_iff]
  cases hwritable : csrIsWritable (canonicalAddr addr) with
  | true => simp
  | false =>
    rw [csrWriteEn_readOnly data hwritable,supported_of_readOnly hwritable]
    have hdefined : PureRead op data → definedOp op=true := by
      rintro ⟨hcmd,-⟩
      unfold definedOp
      rw [Bool.or_assoc,hcmd,Bool.or_true]
    constructor
    · rintro hrule ⟨hpure,-⟩
      obtain hunsupported | ⟨hwrites,-⟩ := hrule.mp (.inr ⟨hdefined hpure,rfl⟩)
      · cases hunsupported
      · exact hwrites.2 hpure
    · intro hno
      have hpure : ¬PureRead op data := fun h => hno ⟨h,rfl⟩
      simp [hpure]

/-- A CSR instruction whose request is not rejected reads its register. -/
theorem readsCsr_of_accepted {s : CoreState} {op : BitVec 3} {addr : BitVec 12} {data : Word}
    (h : Requests s.memWb op addr data) (haccepted : csrIllegalAccess true op addr=false) :
    ReadsCsr s addr := by
  have hreq := h.req
  unfold csrReq at hreq
  rw [Bool.and_eq_true,Bool.not_eq_true'] at hreq
  obtain ⟨hcsr,htrap⟩ := hreq
  have hlegal : wbCsrIllegal s.memWb=false := by
    unfold wbCsrIllegal
    rw [h.req,h.op,h.addr,haccepted]
  refine ⟨?_,?_,?_⟩
  · rw [hasSyncException_eq,htrap,hlegal]
    rfl
  · change (s.memWb.wb.regWriteEn && !(hasTrap s.memWb || wbCsrIllegal s.memWb))=_
    rw [htrap,hlegal]
    exact Bool.and_true _
  · change (if s.memWb.isCsr then csrRdata s.csr (csrAddr s.memWb) else _)=_
    rw [if_pos hcsr,h.addr]

/-- For every request: the rejection follows the rule, and a set or clear of
nothing reads every supported register without an exception, exactly when
the request is not a set or clear of nothing at a read-only register. -/
theorem csr_access_iff (op : BitVec 3) (addr : BitVec 12) (data : Word) :
    (AccessRule op addr data ∧
      (PureRead op data → csrIsSupported (canonicalAddr addr)=true →
        ∀ s : CoreState,Requests s.memWb op addr data → ReadsCsr s addr)) ↔
    ¬(PureRead op data ∧ csrIsWritable (canonicalAddr addr)=false) := by
  refine ⟨fun h => (accessRule_iff op addr data).mp h.1,
    fun hno => ⟨(accessRule_iff op addr data).mpr hno,fun hpure hsupported s hs => ?_⟩⟩
  refine readsCsr_of_accepted hs (Bool.eq_false_of_not_eq_true fun hillegal => ?_)
  obtain hunsupported | ⟨-,hreadOnly⟩ := (csrIllegalAccess_iff op addr).mp hillegal
  · rw [hsupported] at hunsupported
    cases hunsupported
  · exact hno ⟨hpure,hreadOnly⟩

/-- CSRRS x10,mhartid,x0, which only reads the hart identifier, is rejected:
as the first instruction after reset it traps. -/
theorem csr_access_hartid :
    (¬∀ op addr data,definedOp op=true → AccessRule op addr data) ∧
    hasSyncException (trackedRun (programInputs [0xf1402573] fun _ => .low) 4).core=true := by
  refine ⟨fun hall => ?_,by decide +kernel⟩
  exact (accessRule_iff 0b010 Csr.mhartid.addr 0).mp (hall _ _ _ (by decide))
    ⟨⟨by decide,rfl⟩,by decide⟩

end RichardCore.CsrAccess
