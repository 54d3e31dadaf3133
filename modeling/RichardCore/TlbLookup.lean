import Mathlib.Order.WellFounded
import RichardCore.CsrUnit
import RichardCore.TlbFlush

/-!
# Which entry answers a request

The buffer answers from the first match in slot order and checks nothing when
it is refilled, so a new leaf answers unless an older entry before it does.
Requests of machine mode are answered by none of the entries.
-/

namespace RichardCore.TlbLookup

open Packages BitFields Clocked Tlb TlbSoundness TlbFlush

/-- The first accepted position of a search in index order. -/
theorem find?_finRange {n : ℕ} {α : Type*} {f : Fin n → α} {p : α → Bool} {k : Fin n}
    (hk : p (f k)=true) (hfirst : ∀ j < k,p (f j)=false) :
    ((List.finRange n).map f).find? p=some (f k) := by
  rw [List.find?_eq_some_iff_getElem]
  refine ⟨hk,k.val,by simp,by simp,fun j hj => ?_⟩
  have hjk := hfirst ⟨j,Nat.lt_trans hj k.isLt⟩ hj
  simp [hjk]

section Answers

variable {entries asidWidth : ℕ}

/-- The request is answered from a leaf: a hit at its translation if the leaf
permits the access, a page fault if it does not. -/
structure AnsweredFrom (req : TlbReq asidWidth) (l : Leaf) (resp : TlbResp) : Prop where
  /-- Permitted accesses hit. -/
  permitted : Permits req l → resp.hit=true ∧ resp.pageFault=false ∧ resp.needPtw=false ∧
    Translated req.mode l req.vaddr resp.paddr
  /-- Denied accesses fault. -/
  denied : ¬Permits req l → resp.hit=false ∧ resp.pageFault=true ∧ resp.needPtw=false

/-- The entry matches the request. -/
def Matches (e : TlbEntry asidWidth) (req : TlbReq asidWidth) : Prop :=
  entryMatch e (vaddrToVpn req.vaddr req.mode) req.asid req.mode=true

/-- The first match answers from its leaf. -/
theorem lookup_first (s : TlbState entries asidWidth) {req : TlbReq asidWidth}
    (hreq : UnderTranslation req) {e : TlbEntry asidWidth} (hfirst : firstMatch s req=some e)
    (hmode : e.mode=req.mode) (hlevel : e.level.toNat < numLevels e.mode) :
    AnsweredFrom req (leafOf e) (lookup s req) := by
  obtain ⟨hvalid,htranslates,hpriv⟩ := hreq
  have hallow := allowAccess_iff req e
  rw [lookup_translating s req hvalid htranslates hpriv,hfirst]
  dsimp only
  constructor
  · intro hpermits
    have htranslated := hitPaddr_translated (hmode ▸ htranslates) hlevel req.vaddr
    rw [hmode] at htranslated
    rw [if_neg (by rw [hallow.mpr hpermits]; decide)]
    exact ⟨rfl,rfl,rfl,htranslated⟩
  · intro hdenied
    rw [if_pos (by rw [Bool.eq_false_of_not_eq_true fun h => hdenied (hallow.mp h)]; rfl)]
    exact ⟨rfl,rfl,rfl⟩

section Refill

variable (s : TlbState entries asidWidth) {i : TlbIn asidWidth} (hrst : i.rst=false)
  (hflush : ¬Flushes i) (haccepted : refillAccepted i=true)

include hrst hflush haccepted

/-- Without an invalidation it replaces the entry at the pointer and no other. -/
theorem tlbStep_refill_quiet (k : Fin entries) :
    (tlbStep s i).entry k=
      if k.val=s.replPtr.toNat then {i.refill with valid := true} else s.entry k := by
  rw [tlbStep_refill s hrst haccepted,flushEntry_idle hflush]

/-- The first match before the pointer answers as it did. -/
theorem lookup_refill_older {req : TlbReq asidWidth} {k : Fin entries}
    (hk : k.val < s.replPtr.toNat) (hmatch : Matches (s.entry k) req)
    (hfirst : ∀ j < k,¬Matches (s.entry j) req) : lookup (tlbStep s i) req=lookup s req := by
  have hsame : ∀ j≤k,(tlbStep s i).entry j=s.entry j := by
    intro j hj
    have hne : j.val≠s.replPtr.toNat := by
      have hval : j.val≤k.val := hj
      omega
    rw [tlbStep_refill_quiet s hrst hflush haccepted,if_neg hne]
  have hbefore : firstMatch s req=some (s.entry k) :=
    find?_finRange hmatch fun j hj => Bool.eq_false_of_not_eq_true (hfirst j hj)
  have hafter : firstMatch (tlbStep s i) req=some ((tlbStep s i).entry k) := by
    refine find?_finRange ?_ fun j hj => ?_
    · rw [hsame k (Nat.le_refl _)]
      exact hmatch
    · rw [hsame j (Nat.le_of_lt hj)]
      exact Bool.eq_false_of_not_eq_true (hfirst j hj)
  apply lookup_congr
  rw [hafter,hsame k (Nat.le_refl _),hbefore]

/-- Behind no other match the refilled leaf answers. -/
theorem lookup_refill_new (hptr : s.replPtr.toNat < entries)
    (hlevel : i.refill.level.toNat < numLevels i.refill.mode) {req : TlbReq asidWidth}
    (hreq : UnderTranslation req)
    (hserves : Serves i.refill req.mode req.asid (pageOf req.mode req.vaddr))
    (hfirst : ∀ k : Fin entries,k.val < s.replPtr.toNat → ¬Matches (s.entry k) req) :
    AnsweredFrom req (leafOf i.refill) (lookup (tlbStep s i) req) := by
  have hentry := tlbStep_refill_quiet s hrst hflush haccepted
  have hslot : (tlbStep s i).entry ⟨s.replPtr.toNat,hptr⟩={i.refill with valid := true} := by
    rw [hentry,if_pos rfl]
  have hafter : firstMatch (tlbStep s i) req=some ((tlbStep s i).entry ⟨s.replPtr.toNat,hptr⟩) := by
    refine find?_finRange ?_ fun j hj => ?_
    · rw [hslot]
      exact (entryMatch_iff _ req hreq.2.1).mpr ⟨rfl,hserves⟩
    · have hjlt : j.val < s.replPtr.toNat := hj
      rw [hentry,if_neg (by omega)]
      exact Bool.eq_false_of_not_eq_true (hfirst j hjlt)
  rw [hslot] at hafter
  have hanswer := lookup_first (tlbStep s i) hreq hafter hserves.1 hlevel
  exact hanswer

end Refill

end Answers

/-- In every state of a buffer of 32 entries, at every accepted refill with a
valid level and without invalidation: in the next cycle every request in the
mode and the address space of the leaf, for any address of its page, is
answered from the leaf, unless an entry in a slot before it matches; then the
request is answered as it was before the refill. -/
theorem refill_visible {asidWidth : ℕ} (s : TlbState 32 asidWidth) (i : TlbIn asidWidth)
    (hrst : i.rst=false) (hflush : ¬Flushes i) (haccepted : refillAccepted i=true)
    (hlevel : i.refill.level.toNat < numLevels i.refill.mode) (req : TlbReq asidWidth)
    (hreq : UnderTranslation req)
    (hserves : Serves i.refill req.mode req.asid (pageOf req.mode req.vaddr)) :
    ((∃ k : Fin 32,k.val < s.replPtr.toNat ∧ Matches (s.entry k) req) →
      lookup (tlbStep s i) req=lookup s req) ∧
    ((¬∃ k : Fin 32,k.val < s.replPtr.toNat ∧ Matches (s.entry k) req) →
      AnsweredFrom req (leafOf i.refill) (lookup (tlbStep s i) req)) := by
  have hptr : s.replPtr.toNat < 32 := s.replPtr.isLt
  constructor
  · intro holder
    -- the least matching slot is the first match before and after the edge
    obtain ⟨k,⟨hk,hmatch⟩,hleast⟩ := WellFounded.has_min wellFounded_lt
      {k : Fin 32 | k.val < s.replPtr.toNat ∧ Matches (s.entry k) req} holder
    refine lookup_refill_older s hrst hflush haccepted hk hmatch fun j hj hearlier => ?_
    have hjk : j.val < k.val := hj
    exact hleast j ⟨by omega,hearlier⟩ hj
  · intro hnone
    exact lookup_refill_new s hrst hflush haccepted hptr hlevel hreq hserves
      fun k hk hmatch => hnone ⟨k,hk,hmatch⟩

/-- A user load inside the sample superpage. -/
def sampleReq : TlbReq 16 := ⟨true,0xa10123,3,satpModeSv48,0b00,false,false,false,false⟩

/-- Refilled into an empty buffer, the sample leaf answers. -/
theorem refill_visible_empty :
    AnsweredFrom sampleReq (leafOf sampleEntry)
      (lookup (tlbStep (tlbReset : TlbState 32 16) (sampleInputs 0)) sampleReq) := by
  have hserves : Serves sampleEntry satpModeSv48 3 (pageOf satpModeSv48 0xa10123) :=
    ⟨rfl,.inl rfl,by unfold CoversPage; decide⟩
  refine (refill_visible tlbReset (sampleInputs 0) rfl (by unfold Flushes; decide) rfl (by decide)
    sampleReq ⟨rfl,.inr (.inl rfl),by decide⟩ hserves).2 ?_
  rintro ⟨k,hk,-⟩
  exact absurd hk (Nat.not_lt_zero k.val)

/-- The superpage remapped: the same page, another frame. -/
def remapped : TlbEntry 16 := {sampleEntry with ppn := 0x50000}

/-- The sample leaf in the first cycle, the remapped one afterwards. -/
def remapInputs (t : ℕ) : TlbIn 16 :=
  {sampleInputs t with refill := if t=0 then sampleEntry else remapped}

/-- After the second refill of a page the first still answers. -/
theorem refill_hidden :
    ¬∀ (inputs : ℕ → TlbIn 16) (t : ℕ),(inputs t).rst=false → ¬Flushes (inputs t) →
      refillAccepted (inputs t)=true →
      (inputs t).refill.level.toNat < numLevels (inputs t).refill.mode →
      ∀ req,UnderTranslation req → req.priv=0b00 ∨ req.priv=0b01 →
        Serves (inputs t).refill req.mode req.asid (pageOf req.mode req.vaddr) →
        AnsweredFrom req (leafOf (inputs t).refill)
          (lookup (tlbRun inputs (t+1) : TlbState 32 16) req) := by
  intro hall
  have hserves : Serves remapped satpModeSv48 3 (pageOf satpModeSv48 0xa10123) :=
    ⟨rfl,.inl rfl,by unfold CoversPage; decide⟩
  have hanswer := hall remapInputs 1 rfl (by unfold Flushes; decide) rfl (by decide) sampleReq
    ⟨rfl,.inr (.inl rfl),by decide⟩ (.inl rfl) hserves
  have hpermits : Permits sampleReq (leafOf remapped) := by
    unfold Permits
    decide
  obtain ⟨-,-,-,htranslated⟩ := hanswer.permitted hpermits
  have hbit := htranslated 28 (by decide)
  revert hbit
  decide +kernel

section Machine

variable {entries asidWidth : ℕ}

/-- A machine-mode request is answered by its mode alone. -/
theorem lookup_machine (s : TlbState entries asidWidth) {req : TlbReq asidWidth}
    (hvalid : req.valid=true) (hpriv : req.priv=0b11) :
    lookup s req=
      if isSupportedMode req.mode=true then ⟨true,true,req.vaddr,false,false⟩
      else ⟨true,false,req.vaddr,true,false⟩ := by
  unfold lookup
  rw [if_pos hvalid]
  cases hmode : isSupportedMode req.mode with
  | true =>
    rw [if_neg (by decide),if_pos (Or.inr hpriv),if_pos rfl,hvalid]
  | false =>
    rw [if_pos (by decide),if_neg (by decide),hvalid]

/-- For any two buffers and any two valid machine-mode requests for the same
address: both get the same response, a hit at the address itself, exactly when
both requests carry a supported mode. -/
theorem machine_bypass_iff (s s' : TlbState entries asidWidth) (req req' : TlbReq asidWidth)
    (hvalid : req.valid=true) (hvalid' : req'.valid=true) (hpriv : req.priv=0b11)
    (hpriv' : req'.priv=0b11) (hvaddr : req'.vaddr=req.vaddr) :
    (lookup s req=lookup s' req' ∧ lookup s req=⟨true,true,req.vaddr,false,false⟩) ↔
      isSupportedMode req.mode=true ∧ isSupportedMode req'.mode=true := by
  rw [lookup_machine s hvalid hpriv,lookup_machine s' hvalid' hpriv',hvaddr]
  cases isSupportedMode req.mode <;> cases isSupportedMode req'.mode <;> simp

end Machine

/-- A machine-mode load with the given mode. -/
def machineReq (mode : BitVec 4) : TlbReq 16 :=
  ⟨true,0x80000000,0,mode,0b11,false,false,false,false⟩

/-- With translation off and with Sv48 the load hits at its own address. -/
theorem machine_bypass_sv48 :
    lookup (tlbReset : TlbState 32 16) (machineReq satpModeSv48)=
      ⟨true,true,0x80000000,false,false⟩ :=
  ((machine_bypass_iff tlbReset tlbReset (machineReq satpModeSv48) (machineReq satpModeBare) rfl rfl
    rfl rfl rfl).mpr ⟨rfl,rfl⟩).2

/-- Software leaves mode 8 in satp, and machine-mode loads fault. -/
theorem machine_bypass_mode8 :
    (CsrUnit.csrStep CsrUnit.csrReset
      ⟨false,true,0b001,Csr.satp.addr,0x8000000000000000,false,false,0,0,0,false,false⟩).satp.extractLsb'
        60 4=8#4 ∧
    ¬∀ (s s' : TlbState 32 16) (req req' : TlbReq 16),req.valid=true → req'.valid=true →
      req.priv=0b11 → req'.priv=0b11 → req'.vaddr=req.vaddr →
      lookup s req=lookup s' req' ∧ lookup s req=⟨true,true,req.vaddr,false,false⟩ := by
  refine ⟨by decide,fun hall => ?_⟩
  have hsame := (hall tlbReset tlbReset (machineReq 8) (machineReq satpModeBare) rfl rfl rfl rfl
    rfl).2
  revert hsame
  decide

end RichardCore.TlbLookup
