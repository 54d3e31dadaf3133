import RichardCore.Tlb

/-!
# Soundness of the translation lookaside buffer

A page table gives each mode, address space and virtual page at most one
leaf. As long as the page walker refills leaves of that table, every valid
entry agrees with the table on all pages it covers, through every mix of
refills, evictions and invalidations; so hits translate as the table does,
faults are denied by the table, and a walk is requested exactly when nothing
covers the address.
-/

namespace RichardCore.TlbSoundness

open Packages BitFields Clocked Tlb

/-- A leaf of the page table. -/
structure Leaf where
  /-- Physical page number. -/
  ppn : BitVec 44
  /-- Level, 0 for a base page. -/
  level : ℕ
  /-- Global. -/
  g : Bool
  /-- User. -/
  u : Bool
  /-- Readable. -/
  r : Bool
  /-- Writable. -/
  w : Bool
  /-- Executable. -/
  x : Bool
  /-- Accessed. -/
  a : Bool
  /-- Dirty. -/
  d : Bool
  deriving DecidableEq

/-- Leaf of each mode, address space and virtual page number. -/
abbrev PageTable (asidWidth : ℕ) : Type := BitVec 4 → BitVec asidWidth → ℕ → Option Leaf

/-- A translating mode. -/
def Translates (mode : BitVec 4) : Prop :=
  mode=satpModeSv32 ∨ mode=satpModeSv48 ∨ mode=satpModeSv57

/-- Number of page-table levels. -/
def numLevels (mode : BitVec 4) : ℕ :=
  if mode=satpModeSv32 then 2
  else if mode=satpModeSv48 then 4
  else if mode=satpModeSv57 then 5
  else 0

/-- Virtual page number of an address. -/
def pageOf (mode : BitVec 4) (vaddr : Word) : ℕ := vaddr.toNat/2^12%2^vpnWidth mode

/-- A page of the given mode lies in the superpage of a leaf. -/
def CoversPage (mode : BitVec 4) (vpn : BitVec 45) (level page : ℕ) : Prop :=
  vpn.toNat%2^vpnWidth mode/2^(level*vpnStride mode)=page/2^(level*vpnStride mode)

/-- The access is permitted by the leaf: accessed, user pages only from user
mode or for supervisor data under SUM, other pages never from user mode, and
the right kind of access. -/
def Permits {asidWidth : ℕ} (req : TlbReq asidWidth) (l : Leaf) : Prop :=
  l.a=true ∧
  (l.u=true → req.priv=0b00 ∨ req.isFetch=false ∧ req.sum=true) ∧
  (l.u=false → req.priv≠0b00) ∧
  (req.isFetch=true ∧ l.x=true ∨ req.isStore=true ∧ l.w=true ∧ l.d=true ∨
    req.isFetch=false ∧ req.isStore=false ∧ (l.r=true ∨ req.mxr=true ∧ l.x=true))

/-- Physical address of a leaf: its page number above the page size, the
virtual address below it. -/
def Translated (mode : BitVec 4) (l : Leaf) (vaddr paddr : Word) : Prop :=
  ∀ n<64,paddr.getLsbD n=
    if n<12+l.level*vpnStride mode then vaddr.getLsbD n
    else decide (12≤n) && l.ppn.getLsbD (n-12)

section Soundness

variable {entries asidWidth : ℕ}

/-- The leaf stored in an entry. -/
def leafOf (e : TlbEntry asidWidth) : Leaf :=
  ⟨e.ppn,e.level.toNat,e.g,e.u,e.r,e.w,e.x,e.a,e.d⟩

/-- An entry serves a request for a page of an address space. -/
def Serves (e : TlbEntry asidWidth) (mode : BitVec 4) (asid : BitVec asidWidth) (page : ℕ) : Prop :=
  e.mode=mode ∧ (e.g=true ∨ e.asid=asid) ∧ CoversPage mode e.vpn e.level.toNat page

/-- A stored leaf agrees with the page table wherever it serves. -/
structure EntryOk (pt : PageTable asidWidth) (e : TlbEntry asidWidth) : Prop where
  /-- It belongs to a translating mode. -/
  mode : Translates e.mode
  /-- Its level exists in that mode. -/
  level : e.level.toNat<numLevels e.mode
  /-- The table has this leaf on every served page. -/
  agrees : ∀ asid page,page<2^vpnWidth e.mode → Serves e e.mode asid page →
    pt e.mode asid page=some (leafOf e)

/-- The page walker's promise: every accepted refill is the table's leaf. -/
def RefillOk (pt : PageTable asidWidth) (i : TlbIn asidWidth) : Prop :=
  i.rst=false → refillAccepted i=true →
    i.refill.level.toNat<numLevels i.refill.mode ∧
    ∀ asid page,page<2^vpnWidth i.refill.mode → Serves i.refill i.refill.mode asid page →
      pt i.refill.mode asid page=some (leafOf i.refill)

/-- Every valid entry agrees with the page table. -/
def Sound (pt : PageTable asidWidth) (s : TlbState entries asidWidth) : Prop :=
  ∀ k,(s.entry k).valid=true → EntryOk pt (s.entry k)

/-- Accepted refills belong to a translating mode. -/
theorem refillAccepted_mode (i : TlbIn asidWidth) (h : refillAccepted i=true) :
    Translates i.refill.mode := by
  simp only [refillAccepted,isSupportedMode,Bool.and_eq_true,Bool.or_eq_true,beq_iff_eq,
    bne_iff_ne] at h
  unfold Translates
  tauto

/-- A clock edge keeps the buffer sound. -/
theorem sound_step (pt : PageTable asidWidth) (s : TlbState entries asidWidth) (i : TlbIn asidWidth)
    (h : Sound pt s) (hrefill : RefillOk pt i) : Sound pt (tlbStep s i) := by
  intro k hvalid
  obtain hinvalid | ⟨hrst,haccepted,heq⟩ | heq := tlbStep_entry s i k
  · rw [hinvalid] at hvalid
    cases hvalid
  · obtain ⟨hlevel,hagrees⟩ := hrefill hrst haccepted
    rw [heq]
    exact ⟨refillAccepted_mode i haccepted,hlevel,hagrees⟩
  · rw [heq] at hvalid ⊢
    exact h k hvalid

/-- The buffer is sound in every run whose refills come from the table. -/
theorem sound_run (pt : PageTable asidWidth) (inputs : ℕ → TlbIn asidWidth) (t : ℕ)
    (hrefill : ∀ u<t,RefillOk pt (inputs u)) :
    Sound pt (tlbRun inputs t : TlbState entries asidWidth) :=
  runFrom_invariant (Sound pt) (fun _ i => RefillOk pt i)
    (show Sound pt tlbReset from fun _ h => Bool.noConfusion (h : false=true)) (sound_step pt) t hrefill

/-- Width, stride and levels of the three translating modes. -/
theorem mode_table {mode : BitVec 4} (h : Translates mode) :
    (vpnWidth mode=20 ∧ vpnStride mode=10 ∧ numLevels mode=2) ∨
    (vpnWidth mode=36 ∧ vpnStride mode=9 ∧ numLevels mode=4) ∨
    (vpnWidth mode=45 ∧ vpnStride mode=9 ∧ numLevels mode=5) := by
  obtain rfl | rfl | rfl := h
  · exact .inl ⟨rfl,rfl,rfl⟩
  · exact .inr (.inl ⟨rfl,rfl,rfl⟩)
  · exact .inr (.inr ⟨rfl,rfl,rfl⟩)

/-- Page numbers fit their register. -/
theorem vpnWidth_le {mode : BitVec 4} (h : Translates mode) : vpnWidth mode≤45 := by
  have htable := mode_table h
  omega

/-- A page-number field of an address, zero-extended to the register. -/
theorem extract_page (vaddr : Word) (width : ℕ) (h : width≤45) :
    ((vaddr.extractLsb' 12 width).setWidth 45).toNat=vaddr.toNat/2^12%2^width := by
  rw [BitVec.toNat_setWidth_of_le h,BitVec.extractLsb'_toNat,Nat.shiftRight_eq_div_pow]

/-- The page-number register holds the page of the address. -/
theorem vaddrToVpn_toNat {mode : BitVec 4} (h : Translates mode) (vaddr : Word) :
    (vaddrToVpn vaddr mode).toNat=pageOf mode vaddr := by
  obtain rfl | rfl | rfl := h
  · exact extract_page vaddr 20 (by decide)
  · exact extract_page vaddr 36 (by decide)
  · have hpage := extract_page vaddr 45 (by decide)
    rw [BitVec.setWidth_eq] at hpage
    exact hpage

/-- The masked comparison decides whether the entry covers the page. -/
theorem vpnMatch_iff (e : TlbEntry asidWidth) {mode : BitVec 4} (h : Translates mode)
    (hmode : e.mode=mode) (vaddr : Word) :
    vpnMatch e (vaddrToVpn vaddr mode)=true ↔
      CoversPage mode e.vpn e.level.toNat (pageOf mode vaddr) := by
  unfold vpnMatch makeVpnMask CoversPage
  rw [beq_iff_eq,masked_eq_iff (vpnWidth_le (hmode ▸ h)),hmode,vaddrToVpn_toNat h]
  have hpage : pageOf mode vaddr%2^vpnWidth mode=pageOf mode vaddr := Nat.mod_mod _ _
  rw [hpage]

/-- An entry matches a request exactly when it is valid and serves it. -/
theorem entryMatch_iff (e : TlbEntry asidWidth) (req : TlbReq asidWidth)
    (h : Translates req.mode) :
    entryMatch e (vaddrToVpn req.vaddr req.mode) req.asid req.mode=true ↔
      e.valid=true ∧ Serves e req.mode req.asid (pageOf req.mode req.vaddr) := by
  unfold entryMatch Serves
  simp only [Bool.and_eq_true,Bool.or_eq_true,beq_iff_eq]
  constructor
  · rintro ⟨⟨⟨hvalid,hmode⟩,hasid⟩,hvpn⟩
    exact ⟨hvalid,hmode,hasid,(vpnMatch_iff e h hmode req.vaddr).mp hvpn⟩
  · rintro ⟨hvalid,hmode,hasid,hcovers⟩
    exact ⟨⟨⟨hvalid,hmode⟩,hasid⟩,(vpnMatch_iff e h hmode req.vaddr).mpr hcovers⟩

/-- The permission check decides the specification. -/
theorem allowAccess_iff (req : TlbReq asidWidth) (e : TlbEntry asidWidth) :
    allowAccess req.isFetch req.isStore (req.priv==0b00) req.sum req.mxr e.u e.r e.w e.x e.a e.d=true ↔
      Permits req (leafOf e) := by
  have hpriv : req.priv=0b00 ↔ (req.priv==0b00)=true := beq_iff_eq.symm
  unfold Permits leafOf
  rw [Ne,hpriv]
  generalize (req.priv==0b00)=privU
  unfold allowAccess
  cases privU <;> cases e.u <;> cases req.isFetch <;> cases req.isStore <;> simp [and_assoc]

/-- Below the number of levels the six-bit shift is exact. -/
theorem pageShift_exact {mode : BitVec 4} (hmode : Translates mode) {level : BitVec 3}
    (h : level.toNat<numLevels mode) :
    (pageShift mode level).toNat=12+level.toNat*vpnStride mode ∧
    12+level.toNat*vpnStride mode<64 := by
  have hlt : 12+level.toNat*vpnStride mode<64 := by
    obtain ⟨-,hs,hn⟩ | ⟨-,hs,hn⟩ | ⟨-,hs,hn⟩ := mode_table hmode <;> rw [hn] at h <;> rw [hs] <;> omega
  refine ⟨?_,hlt⟩
  unfold pageShift
  rw [BitVec.toNat_ofNat]
  exact Nat.mod_eq_of_lt hlt

/-- The address of a hit is the translation by its leaf. -/
theorem hitPaddr_translated {e : TlbEntry asidWidth} (hmode : Translates e.mode)
    (hlevel : e.level.toNat<numLevels e.mode) (vaddr : Word) :
    Translated e.mode (leafOf e) vaddr (hitPaddr e vaddr) := by
  obtain ⟨hshift,hlt⟩ := pageShift_exact hmode hlevel
  intro n hn
  unfold hitPaddr leafOf
  dsimp only
  rw [hshift,if_neg (by omega),getLsbD_merge hlt _ _ n hn,BitVec.getLsbD_setWidth,
    BitVec.getLsbD_append]
  simp only [hn,decide_true,Bool.true_and]
  split
  · rfl
  · rename_i hge
    have h12 : 12≤n := by omega
    simp [h12,Nat.not_lt.mpr h12]

/-- The first match is a valid entry that serves the request, and there is
none exactly when no valid entry does. -/
theorem firstMatch_spec (s : TlbState entries asidWidth) (req : TlbReq asidWidth)
    (h : Translates req.mode) :
    (∀ e,firstMatch s req=some e → (∃ k,s.entry k=e) ∧ e.valid=true ∧
      Serves e req.mode req.asid (pageOf req.mode req.vaddr)) ∧
    (firstMatch s req=none ↔
      ∀ k,(s.entry k).valid=true →
        ¬Serves (s.entry k) req.mode req.asid (pageOf req.mode req.vaddr)) := by
  unfold firstMatch
  refine ⟨?_,?_⟩
  · intro e he
    have hmatch := List.find?_some he
    have hmem := List.mem_of_find?_eq_some he
    rw [List.mem_map] at hmem
    obtain ⟨k,-,hk⟩ := hmem
    exact ⟨⟨k,hk⟩,(entryMatch_iff e req h).mp hmatch⟩
  · rw [List.find?_eq_none]
    constructor
    · intro hnone k hvalid hserves
      refine hnone (s.entry k) (List.mem_map.mpr ⟨k,List.mem_finRange k,rfl⟩) ?_
      exact (entryMatch_iff _ req h).mpr ⟨hvalid,hserves⟩
    · intro hnone e he hmatch
      rw [List.mem_map] at he
      obtain ⟨k,-,rfl⟩ := he
      obtain ⟨hvalid,hserves⟩ := (entryMatch_iff _ req h).mp hmatch
      exact hnone k hvalid hserves

/-- A request subject to translation goes through the first match. -/
theorem lookup_translating (s : TlbState entries asidWidth) (req : TlbReq asidWidth)
    (hvalid : req.valid=true) (hmode : Translates req.mode) (hpriv : req.priv≠0b11) :
    lookup s req=
      match firstMatch s req with
      | some e =>
        if !allowAccess req.isFetch req.isStore (req.priv==0b00) req.sum req.mxr e.u e.r e.w e.x e.a
            e.d then ⟨true,false,req.vaddr,true,false⟩
        else ⟨true,true,hitPaddr e req.vaddr,false,false⟩
      | none => ⟨true,false,req.vaddr,false,true⟩ := by
  have hsupported : isSupportedMode req.mode=true := by
    obtain h | h | h := hmode <;> rw [h] <;> rfl
  have hnotBare : ¬(req.mode=satpModeBare ∨ req.priv=0b11) := by
    rintro (hbare | hm)
    · rw [hbare] at hmode
      revert hmode
      unfold Translates
      decide
    · exact hpriv hm
  have hserved : ¬(!isSupportedMode req.mode)=true := by
    rw [hsupported]
    decide
  unfold lookup
  rw [if_pos hvalid,if_neg hserved,if_neg hnotBare]
  cases firstMatch s req with
  | none => rw [hvalid]
  | some e => rw [hvalid]

variable (entries) in
/-- In every run whose accepted refills are leaves of the page table, every
translating request is answered by exactly one of hit, fault and walk: a hit
is the table's translation and permitted by its leaf, a fault is denied by
the table's leaf, and a walk is requested exactly when no valid entry serves
the page. -/
theorem tlb_sound (pt : PageTable asidWidth) (inputs : ℕ → TlbIn asidWidth) (t : ℕ)
    (hrefill : ∀ u<t,RefillOk pt (inputs u)) (req : TlbReq asidWidth) (hvalid : req.valid=true)
    (hmode : Translates req.mode) (hpriv : req.priv≠0b11) :
    let s : TlbState entries asidWidth := tlbRun inputs t
    let resp := lookup s req
    let page := pageOf req.mode req.vaddr
    (resp.hit=true → ∃ l,pt req.mode req.asid page=some l ∧
      Translated req.mode l req.vaddr resp.paddr ∧ Permits req l) ∧
    (resp.pageFault=true → ∃ l,pt req.mode req.asid page=some l ∧ ¬Permits req l) ∧
    (resp.hit=false → resp.pageFault=false → resp.needPtw=true) ∧
    (resp.needPtw=true ↔ ∀ k,(s.entry k).valid=true → ¬Serves (s.entry k) req.mode req.asid page) ∧
    (resp.hit=true → resp.pageFault=false ∧ resp.needPtw=false) ∧
    (resp.pageFault=true → resp.needPtw=false) := by
  intro s resp page
  have hsound : Sound pt s := sound_run pt inputs t hrefill
  obtain ⟨hsome,hnone⟩ := firstMatch_spec s req hmode
  have hresp : resp=_ := lookup_translating s req hvalid hmode hpriv
  cases hmatch : firstMatch s req with
  | none =>
    rw [hmatch] at hresp
    rw [hresp]
    refine ⟨nofun,nofun,fun _ _ => rfl,?_,nofun,nofun⟩
    exact ⟨fun _ => hnone.mp hmatch,fun _ => rfl⟩
  | some e =>
    obtain ⟨⟨k,rfl⟩,hentry,hserves⟩ := hsome e hmatch
    have hok := hsound k hentry
    have hmodeEq : (s.entry k).mode=req.mode := hserves.1
    have hleaf : pt req.mode req.asid page=some (leafOf (s.entry k)) := by
      have hpage : page<2^vpnWidth (s.entry k).mode := by
        rw [hmodeEq]
        exact Nat.mod_lt _ (Nat.two_pow_pos _)
      have hag := hok.agrees req.asid page hpage
      rw [hmodeEq] at hag
      exact hag hserves
    have hnotWalk : ¬∀ k,(s.entry k).valid=true → ¬Serves (s.entry k) req.mode req.asid page :=
      fun h => h k hentry hserves
    rw [hmatch] at hresp
    dsimp only at hresp
    have hallow := allowAccess_iff req (s.entry k)
    split at hresp
    · rename_i hdenied
      rw [Bool.not_eq_true',←Bool.not_eq_true,hallow] at hdenied
      rw [hresp]
      exact ⟨nofun,fun _ => ⟨_,hleaf,hdenied⟩,nofun,⟨nofun,fun h => absurd h hnotWalk⟩,nofun,
        fun _ => rfl⟩
    · rename_i hpermitted
      rw [Bool.not_eq_true',Bool.not_eq_false,hallow] at hpermitted
      rw [hresp]
      have htranslated := hitPaddr_translated hok.mode hok.level req.vaddr
      rw [hmodeEq] at htranslated
      exact ⟨fun _ => ⟨_,hleaf,htranslated,hpermitted⟩,nofun,nofun,
        ⟨nofun,fun h => absurd h hnotWalk⟩,fun _ => ⟨rfl,rfl⟩,nofun⟩

end Soundness

/-- A global two-megabyte user page, readable and accessed. -/
def sampleEntry : TlbEntry 16 :=
  ⟨true,satpModeSv48,7,0xa03,0x40000,1,true,true,true,false,false,true,false⟩

/-- The page table with this leaf on its 512 pages and nothing else. -/
def sampleTable : PageTable 16 :=
  fun mode _ page => if mode=satpModeSv48 ∧ page/2^9=5 then some (leafOf sampleEntry) else none

/-- Inputs that refill the leaf in every cycle. -/
def sampleInputs : ℕ → TlbIn 16 :=
  fun _ => ⟨false,true,sampleEntry,false,false,0,false,0,0⟩

/-- The refills come from the table. -/
theorem sampleInputs_ok (u : ℕ) : RefillOk sampleTable (sampleInputs u) := by
  intro _ _
  refine ⟨show sampleEntry.level.toNat<numLevels sampleEntry.mode by decide,?_⟩
  intro asid page _ hserves
  obtain ⟨-,-,hcovers⟩ := hserves
  have hpage : page/2^9=5 := by
    change 0xa03%2^36/2^(1*9)=page/2^(1*9) at hcovers
    omega
  exact if_pos ⟨rfl,hpage⟩

/-- A user load from another address space inside the page hits. -/
theorem tlb_sound_superpage :
    let req : TlbReq 16 := ⟨true,0xa10123,3,satpModeSv48,0b00,false,false,false,false⟩
    let resp := lookup (tlbRun sampleInputs 1 : TlbState 32 16) req
    ∃ l,sampleTable satpModeSv48 3 (pageOf satpModeSv48 0xa10123)=some l ∧
      Translated satpModeSv48 l 0xa10123 resp.paddr ∧ Permits req l :=
  (tlb_sound 32 sampleTable sampleInputs 1 (fun u _ => sampleInputs_ok u)
    ⟨true,0xa10123,3,satpModeSv48,0b00,false,false,false,false⟩ rfl (.inr (.inl rfl))
    (by decide)).1 (by decide +kernel)

end RichardCore.TlbSoundness
