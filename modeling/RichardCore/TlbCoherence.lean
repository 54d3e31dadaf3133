import RichardCore.TlbFlush

/-!
# Coherence of the buffer with a changing page table

The page table changes from cycle to cycle, and the walker refills the leaf
of its cycle. Whatever the buffer answers was in the table in some cycle
since the last invalidation that covers it, so software that invalidates
after each change gets answers from the present table.
-/

namespace RichardCore.TlbCoherence

open Packages BitFields Clocked Tlb TlbSoundness TlbFlush

section Coherence

variable {entries asidWidth : ℕ}

/-- A cycle removes whatever translates a page by a leaf: with a reset, with an
invalidation of everything, or with one whose filters all cover the page, the
address-space filter local leaves only. -/
def Fences (i : TlbIn asidWidth) (mode : BitVec 4) (asid : BitVec asidWidth) (page : ℕ)
    (l : Leaf) : Prop :=
  i.rst=true ∨ i.flushAll=true ∨ (i.flushAsidValid=true ∨ i.flushVpnValid=true) ∧
    (i.flushAsidValid=true → l.g=false ∧ asid=i.flushAsid) ∧
    (i.flushVpnValid=true → mode=i.flushMode ∧
      CoversPage mode i.flushVpn l.level page)

/-- The buffer holds an entry in use. -/
def HoldsEntry (s : TlbState entries asidWidth) (e : TlbEntry asidWidth) : Prop :=
  e.valid=true ∧ ∃ k,s.entry k=e

/-- An entry is refilled in a cycle. -/
def Refilled (i : TlbIn asidWidth) (e : TlbEntry asidWidth) : Prop :=
  i.rst=false ∧ refillAccepted i=true ∧ e={i.refill with valid := true}

/-- An entry survives a cycle. -/
def Survives (i : TlbIn asidWidth) (e : TlbEntry asidWidth) : Prop := i.rst=false ∧ ¬Named i e

/-- An entry in use after a clock edge was refilled with it or survived it. -/
theorem holdsEntry_step (s : TlbState entries asidWidth) (i : TlbIn asidWidth)
    (e : TlbEntry asidWidth) (h : HoldsEntry (tlbStep s i) e) :
    Refilled i e ∨ HoldsEntry s e ∧ Survives i e := by
  obtain ⟨hvalid,k,rfl⟩ := h
  cases hrst : i.rst with
  | true =>
    have hreset : tlbStep s i=tlbReset := if_pos hrst
    rw [hreset] at hvalid
    cases hvalid
  | false =>
    have hsurvivor : (flushEntry i (s.entry k)).valid=true →
        HoldsEntry s (flushEntry i (s.entry k)) ∧ Survives i (flushEntry i (s.entry k)) := by
      intro hstays
      obtain ⟨hused,hnot⟩ := (flushEntry_valid i (s.entry k)).mp hstays
      rw [flushEntry_eq,if_neg hnot]
      exact ⟨⟨hused,k,rfl⟩,hrst,hnot⟩
    cases hrefill : refillAccepted i with
    | false =>
      rw [tlbStep_flush s hrst hrefill] at hvalid ⊢
      exact .inr (hsurvivor hvalid)
    | true =>
      rw [tlbStep_refill s hrst hrefill] at hvalid ⊢
      split at hvalid
      · rename_i hslot
        rw [if_pos hslot]
        exact .inl ⟨hrst,hrefill,rfl⟩
      · rename_i hslot
        rw [if_neg hslot]
        exact .inr (hsurvivor hvalid)

/-- An entry in use was refilled in some cycle and survived every cycle
since. -/
theorem holdsEntry_since (inputs : ℕ → TlbIn asidWidth) (t : ℕ) (e : TlbEntry asidWidth)
    (h : HoldsEntry (tlbRun inputs t : TlbState entries asidWidth) e) :
    ∃ u < t,Refilled (inputs u) e ∧ ∀ v,u < v → v < t → Survives (inputs v) e := by
  refine runFrom_since HoldsEntry Refilled Survives ?_ holdsEntry_step inputs t e h
  rintro e ⟨hvalid,k,rfl⟩
  cases hvalid

/-- A refilled entry is in the table of its cycle. -/
theorem Refilled.entryOk {pt : PageTable asidWidth} {i : TlbIn asidWidth} {e : TlbEntry asidWidth}
    (h : Refilled i e) (hrefill : RefillOk pt i) : EntryOk pt e := by
  obtain ⟨hrst,haccepted,rfl⟩ := h
  obtain ⟨hlevel,hagrees⟩ := hrefill hrst haccepted
  exact ⟨refillAccepted_mode i haccepted,hlevel,hagrees⟩

/-- A cycle that fences a page's leaf removes the entries that serve it. -/
theorem Survives.not_fences {i : TlbIn asidWidth} {e : TlbEntry asidWidth} (h : Survives i e)
    {mode : BitVec 4} {asid : BitVec asidWidth} {page : ℕ} (hserves : Serves e mode asid page) :
    ¬Fences i mode asid page (leafOf e) := by
  obtain ⟨hrst,hnot⟩ := h
  obtain ⟨rfl,hspace,hcovers⟩ := hserves
  rintro (hreset | hall | ⟨hfilter,hasid,hvpn⟩)
  · rw [hrst] at hreset
    cases hreset
  · exact hnot (.inl hall)
  · refine hnot (.inr ⟨hfilter,fun hvalid => ?_,fun hvalid => ?_⟩)
    · obtain ⟨hlocal,rfl⟩ := hasid hvalid
      have hg : e.g=false := hlocal
      exact ⟨hg,hspace.resolve_left (by rw [hg]; decide)⟩
    · obtain ⟨hmode,hpage⟩ := hvpn hvalid
      refine ⟨hmode,?_⟩
      unfold CoversPage at hcovers hpage ⊢
      exact hcovers.trans hpage.symm

/-- Whatever leaf the table once had for a page and has no longer was fenced
after that. -/
def Fenced (tables : ℕ → PageTable asidWidth) (inputs : ℕ → TlbIn asidWidth) (t : ℕ)
    (mode : BitVec 4) (asid : BitVec asidWidth) (page : ℕ) : Prop :=
  ∀ u < t,∀ l,tables u mode asid page=some l → tables t mode asid page≠some l →
    ∃ v,u < v ∧ v < t ∧ Fences (inputs v) mode asid page l

variable (entries) in
/-- In every run whose accepted refills are leaves of the page table of their
cycle, whatever the table does meanwhile: an answer other than a walk comes
from a leaf that the table had in some earlier cycle, since when no cycle
fenced it. It is a hit with that leaf's translation if that leaf permits the
access, and a fault if not. If all leaves that the page has lost were fenced
since, it is the present leaf. -/
theorem tlb_coherent (tables : ℕ → PageTable asidWidth) (inputs : ℕ → TlbIn asidWidth) (t : ℕ)
    (hrefill : ∀ u < t,RefillOk (tables u) (inputs u)) (req : TlbReq asidWidth)
    (h : UnderTranslation req) :
    let resp := lookup (tlbRun inputs t : TlbState entries asidWidth) req
    let page := pageOf req.mode req.vaddr
    resp.needPtw=false → ∃ u < t,∃ l,tables u req.mode req.asid page=some l ∧
      (∀ v,u < v → v < t → ¬Fences (inputs v) req.mode req.asid page l) ∧
      (resp.hit=true ↔ Permits req l) ∧ (resp.pageFault=true ↔ ¬Permits req l) ∧
      (resp.hit=true → Translated req.mode l req.vaddr resp.paddr) ∧
      (Fenced tables inputs t req.mode req.asid page →
        tables t req.mode req.asid page=some l) := by
  intro resp page hanswer
  obtain ⟨hvalid,hmode,hpriv⟩ := h
  have hresp : resp=_ := lookup_translating (tlbRun inputs t) req hvalid hmode hpriv
  obtain ⟨hsome,-⟩ := firstMatch_spec (tlbRun inputs t : TlbState entries asidWidth) req hmode
  cases hmatch : firstMatch (tlbRun inputs t : TlbState entries asidWidth) req with
  | none =>
    rw [hmatch] at hresp
    rw [hresp] at hanswer
    cases hanswer
  | some e =>
    obtain ⟨hheld,hused,hserves⟩ := hsome e hmatch
    obtain ⟨u,hu,hrefilled,hsince⟩ := holdsEntry_since inputs t e ⟨hused,hheld⟩
    have hok := hrefilled.entryOk (hrefill u hu)
    have hmodeEq : e.mode=req.mode := hserves.1
    have hleaf : tables u req.mode req.asid page=some (leafOf e) := by
      have hpage : page < 2^vpnWidth e.mode := by
        rw [hmodeEq]
        exact Nat.mod_lt _ (Nat.two_pow_pos _)
      have hag := hok.agrees req.asid page hpage
      rw [hmodeEq] at hag
      exact hag hserves
    have hfresh : ∀ v,u < v → v < t → ¬Fences (inputs v) req.mode req.asid page (leafOf e) :=
      fun v hlo hhi => (hsince v hlo hhi).not_fences hserves
    have hpresent : Fenced tables inputs t req.mode req.asid page →
        tables t req.mode req.asid page=some (leafOf e) := by
      intro hfenced
      by_contra hlost
      obtain ⟨v,hlo,hhi,hfence⟩ := hfenced u hu (leafOf e) hleaf hlost
      exact hfresh v hlo hhi hfence
    refine ⟨u,hu,leafOf e,hleaf,hfresh,?_,?_,?_,hpresent⟩
    all_goals
      rw [hmatch] at hresp
      dsimp only at hresp
      rw [hresp]
    · rw [←allowAccess_iff req e]
      split <;> simp_all
    · rw [←allowAccess_iff req e]
      split <;> simp_all
    · have htranslated := hitPaddr_translated hok.mode hok.level req.vaddr
      rw [hmodeEq] at htranslated
      split
      · exact nofun
      · exact fun _ => htranslated

end Coherence

/-- The superpage of the sample table at a physical page number. -/
def superpageAt (ppn : BitVec 44) : TlbEntry 16 := {sampleEntry with ppn := ppn}

/-- The page table with that superpage. -/
def tableAt (ppn : BitVec 44) : PageTable 16 :=
  fun mode _ page =>
    if mode=satpModeSv48 ∧ page/2^9=5 then some (leafOf (superpageAt ppn)) else none

/-- The superpage moves before cycle 2. -/
def movingTables (t : ℕ) : PageTable 16 := tableAt (if t < 2 then 0x40000 else 0x80000)

/-- It is refilled in cycle 0, fenced by a page filter in cycle 2, when it has
moved, and refilled again in cycle 3. -/
def movingInputs : ℕ → TlbIn 16
  | 0 => {idleIn with refillValid := true, refill := superpageAt 0x40000}
  | 2 => {idleIn with flushVpnValid := true, flushVpn := 0xa10, flushMode := satpModeSv48}
  | 3 => {idleIn with refillValid := true, refill := superpageAt 0x80000}
  | _ => idleIn

/-- The refills come from the table of their cycle. -/
theorem movingInputs_ok (u : ℕ) (hu : u < 4) : RefillOk (movingTables u) (movingInputs u) := by
  have hrefill : ∀ ppn,RefillOk (tableAt ppn)
      {idleIn with refillValid := true, refill := superpageAt ppn} := by
    intro ppn _ _
    refine ⟨show sampleEntry.level.toNat<numLevels sampleEntry.mode by decide,?_⟩
    intro asid page _ hserves
    obtain ⟨-,-,hcovers⟩ := hserves
    have hpage : page/2^9=5 := by
      change 0xa03%2^36/2^(1*9)=page/2^(1*9) at hcovers
      omega
    exact if_pos ⟨rfl,hpage⟩
  match u,hu with
  | 0,_ => exact hrefill 0x40000
  | 1,_ | 2,_ => exact fun _ h => Bool.noConfusion (h : false=true)
  | 3,_ => exact hrefill 0x80000

/-- A page of the superpage lost its leaf before the fence. -/
theorem movingTables_fenced (asid : BitVec 16) :
    Fenced movingTables movingInputs 4 satpModeSv48 asid 0xa10 := by
  intro u _ l hleaf hlost
  have hearly : u < 2 := Nat.lt_of_not_le fun hle => hlost (by
    rw [←hleaf]
    unfold movingTables
    rw [if_neg (by decide),if_neg (by omega)])
  refine ⟨2,hearly,by decide,.inr (.inr ⟨.inr rfl,fun h => (by cases h),fun _ => ⟨rfl,?_⟩⟩)⟩
  unfold movingTables at hleaf
  rw [if_pos hearly] at hleaf
  have hsame : leafOf (superpageAt 0x40000)=l := Option.some.inj hleaf
  rw [←hsame]
  change 0xa10%2^36/2^(1*9)=0xa10/2^(1*9)
  rfl

/-- After the second refill a user load from the page gets the moved leaf. -/
theorem tlb_coherent_moved :
    let req : TlbReq 16 := ⟨true,0xa10123,3,satpModeSv48,0b00,false,false,false,false⟩
    let resp := lookup (tlbRun movingInputs 4 : TlbState 32 16) req
    resp.hit=true ∧ Translated satpModeSv48 (leafOf (superpageAt 0x80000)) 0xa10123 resp.paddr := by
  intro req resp
  have hhit : resp.hit=true := by decide +kernel
  obtain ⟨u,-,l,-,-,-,-,htranslated,hpresent⟩ := tlb_coherent 32 movingTables movingInputs 4
    movingInputs_ok req ⟨rfl,.inr (.inl rfl),by decide⟩ (by decide +kernel)
  have hpage : pageOf req.mode req.vaddr=0xa10 := by decide
  rw [hpage] at hpresent
  have hleaf : leafOf (superpageAt 0x80000)=l :=
    Option.some.inj (hpresent (movingTables_fenced 3))
  rw [hleaf]
  exact ⟨hhit,htranslated hhit⟩

end RichardCore.TlbCoherence
