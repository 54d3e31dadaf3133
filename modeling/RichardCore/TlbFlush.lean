import RichardCore.TlbSoundness

/-!
# Invalidation of buffer entries

Lookup and invalidation each compare pages under their own masks. Both are
put in the same words, what an entry serves and what an invalidation names,
so that an invalidation is seen to remove what it names and nothing else.
-/

namespace RichardCore.TlbFlush

open Packages BitFields Clocked Tlb TlbSoundness

section Flush

variable {entries asidWidth : ℕ}

/-- An invalidation is requested. -/
def Flushes (i : TlbIn asidWidth) : Prop :=
  i.flushAll=true ∨ i.flushAsidValid=true ∨ i.flushVpnValid=true

/-- The criterion of an invalidation: any entry at all, or the entries that
pass every filter given, which are the local entries of an address space and
the entries of a mode whose page covers a page number. -/
def Named (i : TlbIn asidWidth) (e : TlbEntry asidWidth) : Prop :=
  i.flushAll=true ∨ (i.flushAsidValid=true ∨ i.flushVpnValid=true) ∧
    (i.flushAsidValid=true → e.g=false ∧ e.asid=i.flushAsid) ∧
    (i.flushVpnValid=true → e.mode=i.flushMode ∧
      CoversPage e.mode e.vpn e.level.toNat (i.flushVpn.toNat%2^vpnWidth e.mode))

/-- Page numbers fit their register in every mode. -/
theorem vpnWidth_le_all (mode : BitVec 4) : vpnWidth mode≤45 := by
  unfold vpnWidth
  repeat' split
  all_goals decide

/-- The masked comparison against any page number decides coverage. -/
theorem vpnMatch_covers (e : TlbEntry asidWidth) (vpn : BitVec 45) :
    vpnMatch e vpn=true ↔
      CoversPage e.mode e.vpn e.level.toNat (vpn.toNat%2^vpnWidth e.mode) := by
  unfold vpnMatch makeVpnMask CoversPage
  rw [beq_iff_eq,masked_eq_iff (vpnWidth_le_all e.mode)]

/-- The selective test decides the filters. -/
theorem flushMatch_iff (i : TlbIn asidWidth) (e : TlbEntry asidWidth) :
    flushMatch i e=true ↔ e.valid=true ∧
      (i.flushAsidValid=true → e.g=false ∧ e.asid=i.flushAsid) ∧
      (i.flushVpnValid=true → e.mode=i.flushMode ∧
        CoversPage e.mode e.vpn e.level.toNat (i.flushVpn.toNat%2^vpnWidth e.mode)) := by
  have hvpn := vpnMatch_covers e i.flushVpn
  rw [←hvpn]
  unfold flushMatch
  cases i.flushAsidValid <;> cases i.flushVpnValid <;> simp [and_assoc]

/-- The test decides the criterion. -/
instance (i : TlbIn asidWidth) (e : TlbEntry asidWidth) : Decidable (Named i e) :=
  decidable_of_iff
    (i.flushAll=true ∨ (i.flushAsidValid=true ∨ i.flushVpnValid=true) ∧
      flushMatch i {e with valid := true}=true) (by
    rw [flushMatch_iff]
    simp [Named])

/-- A cycle clears the valid bit of the named entries and nothing else. -/
theorem flushEntry_eq (i : TlbIn asidWidth) (e : TlbEntry asidWidth) :
    flushEntry i e=if Named i e then {e with valid := false} else e := by
  unfold flushEntry
  cases hall : i.flushAll with
  | true =>
    have hnamed : Named i e := .inl hall
    rw [if_pos rfl,if_pos hnamed]
  | false =>
    rw [if_neg (by decide)]
    by_cases hselect : (i.flushAsidValid || i.flushVpnValid)=true
    · rw [if_pos hselect]
      rw [Bool.or_eq_true] at hselect
      cases hmatch : flushMatch i e with
      | true =>
        have hnamed : Named i e := .inr ⟨hselect,((flushMatch_iff i e).mp hmatch).2⟩
        rw [if_pos rfl,if_pos hnamed]
      | false =>
        rw [if_neg (by decide)]
        split
        · rename_i hnamed
          -- only an entry that is not in use can be named and fail the test
          have hfilters := (hnamed.resolve_left (by rw [hall]; decide)).2
          have hvalid : e.valid=false := Bool.eq_false_of_not_eq_true fun h => by
            rw [(flushMatch_iff i e).mpr ⟨h,hfilters⟩] at hmatch
            cases hmatch
          rw [←hvalid]
        · rfl
    · have hnot : ¬Named i e := by
        rintro (h | ⟨h,-⟩)
        · rw [hall] at h
          cases h
        · rw [←Bool.or_eq_true] at h
          exact hselect h
      rw [if_neg hselect,if_neg hnot]

/-- An entry survives a cycle exactly when it is in use and not named, and
then it is unchanged. -/
theorem flushEntry_valid (i : TlbIn asidWidth) (e : TlbEntry asidWidth) :
    (flushEntry i e).valid=true ↔ e.valid=true ∧ ¬Named i e := by
  rw [flushEntry_eq]
  split
  · rename_i hnamed
    simp [hnamed]
  · rename_i hnamed
    simp [hnamed]

/-- Without an invalidation entries stay. -/
theorem flushEntry_idle {i : TlbIn asidWidth} (h : ¬Flushes i) (e : TlbEntry asidWidth) :
    flushEntry i e=e := by
  rw [flushEntry_eq,if_neg]
  exact fun hnamed => h (hnamed.imp_right And.left)

/-- A request subject to translation. -/
def UnderTranslation (req : TlbReq asidWidth) : Prop :=
  req.valid=true ∧ Translates req.mode ∧ req.priv≠0b11

/-- A walk is requested exactly when no entry in use serves the page. -/
theorem needPtw_iff (s : TlbState entries asidWidth) {req : TlbReq asidWidth}
    (h : UnderTranslation req) :
    (lookup s req).needPtw=true ↔ ∀ k,(s.entry k).valid=true →
      ¬Serves (s.entry k) req.mode req.asid (pageOf req.mode req.vaddr) := by
  obtain ⟨hvalid,hmode,hpriv⟩ := h
  obtain ⟨hsome,hnone⟩ := firstMatch_spec s req hmode
  rw [lookup_translating s req hvalid hmode hpriv]
  cases hmatch : firstMatch s req with
  | none => exact iff_of_true rfl (hnone.mp hmatch)
  | some e =>
    obtain ⟨⟨k,rfl⟩,hentry,hserves⟩ := hsome e hmatch
    refine iff_of_false ?_ fun hno => hno k hentry hserves
    dsimp only
    split <;> exact Bool.false_ne_true

/-- A cycle without reset and refill only invalidates. -/
theorem tlbStep_flush (s : TlbState entries asidWidth) {i : TlbIn asidWidth} (hrst : i.rst=false)
    (hrefill : refillAccepted i=false) (k : Fin entries) :
    (tlbStep s i).entry k=flushEntry i (s.entry k) := by
  unfold tlbStep
  rw [if_neg (by rw [hrst]; decide),if_neg (by rw [hrefill]; decide)]

/-- An accepted refill goes to the entry at the pointer; the others are left to
the invalidations. -/
theorem tlbStep_refill (s : TlbState entries asidWidth) {i : TlbIn asidWidth} (hrst : i.rst=false)
    (hrefill : refillAccepted i=true) (k : Fin entries) :
    (tlbStep s i).entry k=
      if k.val=s.replPtr.toNat then {i.refill with valid := true} else flushEntry i (s.entry k) := by
  unfold tlbStep
  rw [if_neg (by rw [hrst]; decide),if_pos hrefill]

/-- Searches agree when they accept the same positions and find the same
things there. -/
theorem find?_map_congr {κ α : Type*} {f g : κ → α} {p : α → Bool} {l : List κ}
    (h : ∀ k∈l,(p (g k)=true → p (f k)=true) ∧ (p (f k)=true → g k=f k)) :
    (l.map g).find? p=(l.map f).find? p := by
  induction l with
  | nil => rfl
  | cons k l ih =>
    obtain ⟨hback,hsame⟩ := h k List.mem_cons_self
    have htail := ih fun j hj => h j (List.mem_cons_of_mem k hj)
    rw [List.map_cons,List.map_cons,List.find?_cons,List.find?_cons]
    cases hf : p (f k) with
    | true => rw [hsame hf,hf]
    | false =>
      have hg : p (g k)=false := Bool.eq_false_of_not_eq_true fun hg => by
        rw [hback hg] at hf
        cases hf
      rw [hg]
      exact htail

/-- A response depends on the first match only. -/
theorem lookup_congr {s s' : TlbState entries asidWidth} {req : TlbReq asidWidth}
    (h : firstMatch s' req=firstMatch s req) : lookup s' req=lookup s req := by
  unfold lookup
  rw [h]

/-- Only entries in use match. -/
theorem entryMatch_valid {e : TlbEntry asidWidth} {vpn : BitVec 45} {asid : BitVec asidWidth}
    {mode : BitVec 4} (h : entryMatch e vpn asid mode=true) : e.valid=true := by
  unfold entryMatch at h
  simp only [Bool.and_eq_true] at h
  exact h.1.1.1

section Edge

variable {s : TlbState entries asidWidth} {i : TlbIn asidWidth} (hrst : i.rst=false)
  (hrefill : refillAccepted i=false)

include hrst hrefill

/-- After a cycle of invalidation a walk is requested exactly when every entry
that serves the page was named. -/
theorem needPtw_flush {req : TlbReq asidWidth} (h : UnderTranslation req) :
    (lookup (tlbStep s i) req).needPtw=true ↔ ∀ k,(s.entry k).valid=true →
      Serves (s.entry k) req.mode req.asid (pageOf req.mode req.vaddr) → Named i (s.entry k) := by
  rw [needPtw_iff _ h]
  refine forall_congr' fun k => ?_
  rw [tlbStep_flush s hrst hrefill,flushEntry_valid,flushEntry_eq]
  by_cases hnamed : Named i (s.entry k) <;> simp [hnamed]

/-- A request served by no named entry gets the response it got before. -/
theorem lookup_flush_frame {req : TlbReq asidWidth}
    (h : ∀ k,entryMatch (s.entry k) (vaddrToVpn req.vaddr req.mode) req.asid req.mode=true →
      ¬Named i (s.entry k)) : lookup (tlbStep s i) req=lookup s req := by
  apply lookup_congr
  unfold firstMatch
  refine find?_map_congr fun k _ => ⟨fun hmatch => ?_,fun hmatch => ?_⟩
  · rw [tlbStep_flush s hrst hrefill] at hmatch
    have hsurvives := (flushEntry_valid i (s.entry k)).mp (entryMatch_valid hmatch)
    rw [flushEntry_eq,if_neg hsurvives.2] at hmatch
    exact hmatch
  · rw [tlbStep_flush s hrst hrefill,flushEntry_eq,if_neg (h k hmatch)]

end Edge

/-- The page filter of an address names what serves any address of its page. -/
theorem covers_of_page {i : TlbIn asidWidth} {mode : BitVec 4} (hmode : Translates mode) {va : Word}
    (hvpn : i.flushVpn=vaddrToVpn va mode) {e : TlbEntry asidWidth} {asid : BitVec asidWidth}
    {vaddr : Word} (hpage : pageOf mode vaddr=pageOf mode va)
    (hserves : Serves e mode asid (pageOf mode vaddr)) :
    CoversPage e.mode e.vpn e.level.toNat (i.flushVpn.toNat%2^vpnWidth e.mode) := by
  obtain ⟨rfl,-,hcovers⟩ := hserves
  have hmod : pageOf e.mode va%2^vpnWidth e.mode=pageOf e.mode va := Nat.mod_mod _ _
  rw [hvpn,vaddrToVpn_toNat hmode,hmod,←hpage]
  exact hcovers

/-- From every state, in every cycle of invalidation without reset and refill:
after flush_all every request under translation asks for a walk; after a page
filter alone so does every request of the mode inside the page, under any
address space; after an address-space filter every request of that address
space asks for a walk unless a valid global entry serves it, inside the page
if one is given, and the global entries stay; and a request that no named
entry serves gets the response it got before. -/
theorem flush_exact (s : TlbState entries asidWidth) (i : TlbIn asidWidth) (hrst : i.rst=false)
    (hrefill : refillAccepted i=false) :
    (i.flushAll=true → ∀ req,UnderTranslation req → (lookup (tlbStep s i) req).needPtw=true) ∧
    (i.flushAll=false → i.flushAsidValid=false → i.flushVpnValid=true → ∀ va,
      i.flushVpn=vaddrToVpn va i.flushMode → ∀ req,UnderTranslation req → req.mode=i.flushMode →
        pageOf i.flushMode req.vaddr=pageOf i.flushMode va →
        (lookup (tlbStep s i) req).needPtw=true) ∧
    (i.flushAll=false → i.flushAsidValid=true →
      (∀ k,(s.entry k).g=true → (tlbStep s i).entry k=s.entry k) ∧
      ∀ req,UnderTranslation req → req.asid=i.flushAsid →
        (i.flushVpnValid=true → req.mode=i.flushMode ∧ ∃ va,
          i.flushVpn=vaddrToVpn va i.flushMode ∧
          pageOf i.flushMode req.vaddr=pageOf i.flushMode va) →
        ((lookup (tlbStep s i) req).needPtw=true ↔ ¬∃ k,(s.entry k).g=true ∧
          entryMatch (s.entry k) (vaddrToVpn req.vaddr req.mode) req.asid req.mode=true)) ∧
    (∀ req,(∀ k,entryMatch (s.entry k) (vaddrToVpn req.vaddr req.mode) req.asid req.mode=true →
      ¬Named i (s.entry k)) → lookup (tlbStep s i) req=lookup s req) := by
  refine ⟨?_,?_,?_,fun req h => lookup_flush_frame hrst hrefill h⟩
  · intro hall req hreq
    exact (needPtw_flush hrst hrefill hreq).mpr fun _ _ _ => .inl hall
  · intro hall hasid hvpnValid va hvpn req hreq hmode hpage
    refine (needPtw_flush hrst hrefill hreq).mpr fun k _ hserves => ?_
    rw [hmode] at hserves
    refine .inr ⟨.inr hvpnValid,fun h => ?_,fun _ => ⟨hserves.1,?_⟩⟩
    · rw [hasid] at h
      cases h
    · exact covers_of_page (hmode ▸ hreq.2.1) hvpn hpage hserves
  · intro hall hasid
    have hglobal : ∀ k,(s.entry k).g=true → ¬Named i (s.entry k) := by
      rintro k hg (h | ⟨-,hlocal,-⟩)
      · rw [hall] at h
        cases h
      · rw [(hlocal hasid).1] at hg
        cases hg
    refine ⟨fun k hg => ?_,fun req hreq hreqAsid hreqVpn => ?_⟩
    · rw [tlbStep_flush s hrst hrefill,flushEntry_eq,if_neg (hglobal k hg)]
    · rw [needPtw_flush hrst hrefill hreq]
      constructor
      · rintro hnamed ⟨k,hg,hmatch⟩
        obtain ⟨hvalid,hserves⟩ := (entryMatch_iff _ req hreq.2.1).mp hmatch
        exact hglobal k hg (hnamed k hvalid hserves)
      · intro hnone k hvalid hserves
        have hlocal : (s.entry k).g=false := Bool.eq_false_of_not_eq_true fun hg =>
          hnone ⟨k,hg,(entryMatch_iff _ req hreq.2.1).mpr ⟨hvalid,hserves⟩⟩
        have hown : (s.entry k).asid=i.flushAsid := by
          rw [←hreqAsid]
          exact hserves.2.1.resolve_left (by rw [hlocal]; decide)
        refine .inr ⟨.inl hasid,fun _ => ⟨hlocal,hown⟩,fun h => ?_⟩
        obtain ⟨hmode,va,hvpn,hpage⟩ := hreqVpn h
        rw [hmode] at hserves
        exact ⟨hserves.1,covers_of_page (hmode ▸ hreq.2.1) hvpn hpage hserves⟩

/-- From every state, in every cycle without reset: no named entry is in use
after the edge, exactly unless a refill whose page is named is accepted in the
same cycle. Without invalidation nothing is named; a pointer beyond the last
entry refills nothing. -/
theorem flush_wins_iff (s : TlbState entries asidWidth) (i : TlbIn asidWidth) (hrst : i.rst=false) :
    (∀ k,((tlbStep s i).entry k).valid=true → ¬Named i ((tlbStep s i).entry k)) ↔
      ¬(refillAccepted i=true ∧ Named i i.refill ∧ s.replPtr.toNat < entries) := by
  have hsurvivor : ∀ e : TlbEntry asidWidth,(flushEntry i e).valid=true →
      ¬Named i (flushEntry i e) := by
    intro e hvalid
    have hsurvives := ((flushEntry_valid i e).mp hvalid).2
    rw [flushEntry_eq,if_neg hsurvives]
    exact hsurvives
  cases hrefill : refillAccepted i with
  | false =>
    refine iff_of_true (fun k => ?_) fun h => absurd h.1 (by decide)
    rw [tlbStep_flush s hrst hrefill]
    exact hsurvivor _
  | true =>
    have hentry := tlbStep_refill s hrst hrefill
    constructor
    · rintro hnone ⟨-,hnamed,hptr⟩
      have hslot := (hentry ⟨s.replPtr.toNat,hptr⟩).trans (if_pos rfl)
      refine hnone ⟨s.replPtr.toNat,hptr⟩ ?_ ?_
      · rw [hslot]
      · rw [hslot]
        exact hnamed
    · intro hno k
      rw [hentry]
      by_cases hk : k.val=s.replPtr.toNat
      · rw [if_pos hk]
        exact fun _ hnamed => hno ⟨rfl,hnamed,hk ▸ k.isLt⟩
      · rw [if_neg hk]
        exact hsurvivor _

end Flush

/-- No invalidation, no refill. -/
def idleIn : TlbIn 16 := ⟨false,false,entryReset,false,false,0,false,0,0⟩

/-- A page filter for one page of the global superpage makes every address
space walk again, where the request hit before. -/
theorem flush_exact_superpage :
    let s : TlbState 32 16 := tlbRun sampleInputs 1
    let i : TlbIn 16 := {idleIn with
      flushVpnValid := true, flushVpn := 0xa10, flushMode := satpModeSv48}
    let req : TlbReq 16 := ⟨true,0xa10fff,3,satpModeSv48,0b00,false,false,false,false⟩
    (lookup s req).hit=true ∧ (lookup (tlbStep s i) req).needPtw=true := by
  refine ⟨by decide +kernel,?_⟩
  exact (flush_exact _ _ rfl rfl).2.1 rfl rfl rfl 0xa10123 rfl _ ⟨rfl,.inr (.inl rfl),by decide⟩ rfl
    (by decide)

/-- The leaf of another page, refilled in the cycle of a page filter, is not
named. -/
theorem flush_wins_other_page :
    let s : TlbState 32 16 := tlbRun sampleInputs 1
    let i : TlbIn 16 := {idleIn with
      flushVpnValid := true, flushVpn := 0xa10, flushMode := satpModeSv48, refillValid := true,
      refill := {sampleEntry with vpn := 0x800}}
    ¬Named i ((tlbStep s i).entry 1) := by
  intro s i
  exact (flush_wins_iff s i rfl).mpr (fun h => absurd h.2.1 (by decide +kernel)) 1
    (by decide +kernel)

/-- A leaf refilled in the cycle of flush_all is in use after it. -/
theorem flush_loses_refill :
    ¬∀ (s : TlbState 32 16) (i : TlbIn 16),i.rst=false → Flushes i →
      ∀ k,((tlbStep s i).entry k).valid=true → ¬Named i ((tlbStep s i).entry k) := by
  intro hall
  refine hall tlbReset {idleIn with flushAll := true, refillValid := true, refill := sampleEntry}
    rfl (.inl rfl) 0 (by decide +kernel) ?_
  exact .inl rfl

end RichardCore.TlbFlush
