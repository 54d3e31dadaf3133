import RichardCore.RoundRobin
import RichardCore.TlbFlush

/-!
# Retention of buffer entries

The buffer is a round-robin store of leaves whose updates are the
invalidations: refills that are not accepted do not move the pointer, and
invalidations leave their slot in the turn.
-/

namespace RichardCore.TlbRetention

open Packages BitFields Clocked Tlb TlbSoundness TlbFlush RoundRobin

section Ring

variable {entries asidWidth : ℕ}

/-- The leaf an accepted refill stores. -/
def storedLeaf (i : TlbIn asidWidth) : TlbEntry asidWidth := {i.refill with valid := true}

/-- The buffer as a ring. -/
def ringOf (s : TlbState entries asidWidth) :
    Ring entries (Nat.clog 2 entries) (TlbEntry asidWidth) := ⟨s.entry,s.replPtr⟩

/-- What a cycle does to the ring. -/
def edgeOf (i : TlbIn asidWidth) : Edge (TlbEntry asidWidth) :=
  ⟨if refillAccepted i then some (storedLeaf i) else none,flushEntry i⟩

/-- A cycle without reset is a step of the ring. -/
theorem ringOf_step (s : TlbState entries asidWidth) {i : TlbIn asidWidth} (hrst : i.rst=false) :
    ringOf (tlbStep s i)=step (ringOf s) (edgeOf i) := by
  unfold tlbStep edgeOf step
  rw [if_neg (by rw [hrst]; decide)]
  cases refillAccepted i <;> rfl

/-- A run without reset is a run of the ring. -/
theorem ringOf_run (s : TlbState entries asidWidth) {inputs : ℕ → TlbIn asidWidth} {t : ℕ}
    (hrst : ∀ u < t,(inputs u).rst=false) :
    ringOf (runFrom tlbStep s inputs t)=runFrom step (ringOf s) (fun u => edgeOf (inputs u)) t := by
  induction t with
  | zero => rfl
  | succ t ih =>
    have hprev := ih fun u hu => hrst u (Nat.lt_succ_of_lt hu)
    change ringOf (tlbStep _ _)=step _ _
    rw [ringOf_step _ (hrst t (Nat.lt_succ_self t)),hprev]

/-- Accepted refills of the first `t` cycles. -/
def refills (inputs : ℕ → TlbIn asidWidth) (t : ℕ) : ℕ :=
  tally (fun u => refillAccepted (inputs u)) t

/-- The ring places the accepted refills. -/
theorem placed_refills (inputs : ℕ → TlbIn asidWidth) (t : ℕ) :
    placed (fun u => edgeOf (inputs u)) t=refills inputs t := by
  have hplace : ∀ i : TlbIn asidWidth,(edgeOf i).place.isSome=refillAccepted i := by
    intro i
    unfold edgeOf
    cases refillAccepted i <;> rfl
  unfold placed refills
  simp only [hplace]

/-- Invalidations clear the valid bit of a leaf once one of them names it. -/
theorem kept_flushes (inputs : ℕ → TlbIn asidWidth) (e : TlbEntry asidWidth) (t : ℕ) :
    kept (fun u => edgeOf (inputs u)) e t=
      if ∃ u < t,Named (inputs u) e then {e with valid := false} else e := by
  induction t with
  | zero => simp [kept,runFrom]
  | succ t ih =>
    change flushEntry (inputs t) (kept (fun u => edgeOf (inputs u)) e t)=_
    rw [ih,flushEntry_eq]
    by_cases hbefore : ∃ u < t,Named (inputs u) e
    · have hlater : ∃ u < t+1,Named (inputs u) e := by
        obtain ⟨u,hu,hnamed⟩ := hbefore
        exact ⟨u,Nat.lt_succ_of_lt hu,hnamed⟩
      rw [if_pos hbefore,if_pos hlater]
      exact ite_self _
    · rw [if_neg hbefore]
      by_cases hnow : Named (inputs t) e
      · rw [if_pos hnow,if_pos ⟨t,Nat.lt_succ_self t,hnow⟩]
      · have hnone : ¬∃ u < t+1,Named (inputs u) e := by
          rintro ⟨u,hu,hnamed⟩
          obtain hlt | rfl := Nat.lt_succ_iff_lt_or_eq.mp hu
          · exact hbefore ⟨u,hlt,hnamed⟩
          · exact hnow hnamed
        rw [if_neg hnow,if_neg hnone]

/-- Refills in bare or unsupported modes are not accepted. -/
theorem refill_rejected {i : TlbIn asidWidth}
    (h : isSupportedMode i.refill.mode=false ∨ i.refill.mode=satpModeBare) :
    refillAccepted i=false := by
  unfold refillAccepted
  obtain h | h := h
  · rw [h]
    simp
  · rw [h]
    simp

/-- A cycle whose refill is not accepted is the cycle without it. -/
theorem tlbStep_rejected (s : TlbState entries asidWidth) {i : TlbIn asidWidth}
    (h : refillAccepted i=false) :
    tlbStep s i=tlbStep s {i with refillValid := false} ∧
    (i.rst=false → (tlbStep s i).replPtr=s.replPtr) ∧
    (i.rst=false → ¬Flushes i → tlbStep s i=s) := by
  have hnone : refillAccepted {i with refillValid := false}=false := rfl
  unfold tlbStep
  rw [h,hnone]
  refine ⟨rfl,fun hrst => ?_,fun hrst hflush => ?_⟩
  · rw [if_neg (by rw [hrst]; decide)]
    rfl
  · rw [if_neg (by rw [hrst]; decide),if_neg (by decide)]
    simp only [flushEntry_idle hflush]

/-- An accepted refill leaves the entries away from the pointer to the
invalidations. -/
theorem tlbStep_frame (s : TlbState entries asidWidth) {i : TlbIn asidWidth} (hrst : i.rst=false)
    (h : refillAccepted i=true) {m : Fin entries} (hm : m.val≠s.replPtr.toNat) :
    (tlbStep s i).entry m=
      if Named i (s.entry m) then {s.entry m with valid := false} else s.entry m := by
  rw [tlbStep_refill s hrst h,if_neg hm,flushEntry_eq]

end Ring

section Run

variable {asidWidth : ℕ}

/-- The cycles after cycle `t`. -/
def after (inputs : ℕ → TlbIn asidWidth) (t : ℕ) : ℕ → TlbIn asidWidth := fun v => inputs (t+1+v)

/-- Life of a stored leaf in its slot: it stays until the buffer has taken as
many further refills as it has entries, without its valid bit once it is
named, and the last of these refills replaces it. -/
structure Retained (entries : ℕ) (inputs : ℕ → TlbIn asidWidth) (t : ℕ) (slot : Fin entries) :
    Prop where
  /-- Unchanged until it is named. -/
  stays : ∀ j,(∀ v < j,(after inputs t v).rst=false) → refills (after inputs t) j < entries →
    (∀ v < j,¬Named (after inputs t v) (storedLeaf (inputs t))) →
    (tlbRun inputs (t+1+j) : TlbState entries asidWidth).entry slot=storedLeaf (inputs t)
  /-- Named, it loses its valid bit and nothing else. -/
  cleared : ∀ j,(∀ v < j,(after inputs t v).rst=false) → refills (after inputs t) j < entries →
    (∃ v < j,Named (after inputs t v) (storedLeaf (inputs t))) →
    (tlbRun inputs (t+1+j) : TlbState entries asidWidth).entry slot=
      {storedLeaf (inputs t) with valid := false}
  /-- The refill that completes the turn replaces it. -/
  replaced : ∀ j,(∀ v≤j,(after inputs t v).rst=false) →
    refills (after inputs t) j+1=entries → refillAccepted (after inputs t j)=true →
    (tlbRun inputs (t+1+j+1) : TlbState entries asidWidth).entry slot=storedLeaf (after inputs t j)

/-- With as many entries as the pointer has values every accepted refill is
retained in the slot under the pointer. -/
theorem retained_run {entries : ℕ} (hsize : 2^Nat.clog 2 entries=entries)
    {inputs : ℕ → TlbIn asidWidth} {t : ℕ} (hrst : (inputs t).rst=false)
    (haccepted : refillAccepted (inputs t)=true) :
    ∃ slot : Fin entries,
      slot.val=(tlbRun inputs t : TlbState entries asidWidth).replPtr.toNat ∧
      Retained entries inputs t slot := by
  have hlt : (tlbRun inputs t : TlbState entries asidWidth).replPtr.toNat < entries :=
    Nat.lt_of_lt_of_eq (tlbRun inputs t : TlbState entries asidWidth).replPtr.isLt hsize
  have hedge : ringOf (tlbRun inputs (t+1) : TlbState entries asidWidth)=
      step (ringOf (tlbRun inputs t)) (edgeOf (inputs t)) := ringOf_step _ hrst
  have hplace : (edgeOf (inputs t)).place=some (storedLeaf (inputs t)) := if_pos haccepted
  have hnext : (ringOf (tlbRun inputs (t+1) : TlbState entries asidWidth)).next=
      (tlbRun inputs t : TlbState entries asidWidth).replPtr+1 := by
    rw [hedge]
    unfold step
    rw [hplace]
    rfl
  have hslot : (ringOf (tlbRun inputs (t+1) : TlbState entries asidWidth)).slot ⟨_,hlt⟩=
      storedLeaf (inputs t) := by
    rw [hedge]
    unfold step
    rw [hplace]
    exact if_pos rfl
  have htail : ∀ j,(∀ v < j,(after inputs t v).rst=false) →
      ringOf (tlbRun inputs (t+1+j) : TlbState entries asidWidth)=
        runFrom step (ringOf (tlbRun inputs (t+1))) (fun v => edgeOf (after inputs t v)) j := by
    intro j hno
    have hadd : (tlbRun inputs (t+1+j) : TlbState entries asidWidth)=
        runFrom tlbStep (tlbRun inputs (t+1)) (after inputs t) j :=
      runFrom_add tlbStep tlbReset inputs (t+1) j
    rw [hadd,ringOf_run _ hno]
  have hretained : ∀ j,(∀ v < j,(after inputs t v).rst=false) →
      refills (after inputs t) j < entries →
      (tlbRun inputs (t+1+j) : TlbState entries asidWidth).entry ⟨_,hlt⟩=
        kept (fun v => edgeOf (after inputs t v)) (storedLeaf (inputs t)) j := by
    intro j hno hfew
    rw [←placed_refills,←hsize] at hfew
    have hkept := slot_retained hnext (k := ⟨_,hlt⟩) rfl _ hfew
    rw [←htail j hno,hslot] at hkept
    exact hkept
  refine ⟨⟨_,hlt⟩,rfl,?_,?_,?_⟩
  · intro j hno hfew hfree
    rw [hretained j hno hfew,kept_flushes,if_neg]
    rintro ⟨v,hv,hnamed⟩
    exact hfree v hv hnamed
  · intro j hno hfew hnamed
    rw [hretained j hno hfew,kept_flushes,if_pos hnamed]
  · intro j hno hturn hrefill
    rw [←placed_refills] at hturn
    have hreplaced := slot_replaced hnext (k := ⟨_,hlt⟩) rfl _ (hturn.trans hsize.symm)
      (if_pos hrefill)
    rw [←htail (j+1) fun v hv => hno v (Nat.le_of_lt_succ hv)] at hreplaced
    exact hreplaced

/-- For every number of entries that is a power of two, at least 2, and every
run from reset: a leaf stored by an accepted refill is retained in its slot
until a reset, an invalidation that names it clears its valid bit only, and
the refill that completes the turn replaces it. No refill replaces another
entry, a refill in a bare or unsupported mode changes nothing, and reset
empties the buffer. -/
theorem round_robin_retention (k : ℕ) (inputs : ℕ → TlbIn asidWidth) :
    (∀ t,(inputs t).rst=false → refillAccepted (inputs t)=true →
      ∃ slot : Fin (2^(k+1)),
        slot.val=(tlbRun inputs t : TlbState (2^(k+1)) asidWidth).replPtr.toNat ∧
        Retained (2^(k+1)) inputs t slot) ∧
    (∀ (s : TlbState (2^(k+1)) asidWidth) i,i.rst=false → refillAccepted i=true →
      ∀ m,m.val≠s.replPtr.toNat → (tlbStep s i).entry m=
        if Named i (s.entry m) then {s.entry m with valid := false} else s.entry m) ∧
    (∀ (s : TlbState (2^(k+1)) asidWidth) i,
      isSupportedMode i.refill.mode=false ∨ i.refill.mode=satpModeBare →
      tlbStep s i=tlbStep s {i with refillValid := false} ∧
      (i.rst=false → (tlbStep s i).replPtr=s.replPtr) ∧
      (i.rst=false → ¬Flushes i → tlbStep s i=s)) ∧
    ∀ (s : TlbState (2^(k+1)) asidWidth) i,i.rst=true → tlbStep s i=tlbReset := by
  have hsize : 2^Nat.clog 2 (2^(k+1))=2^(k+1) := by
    rw [Nat.clog_pow 2 (k+1) (by decide)]
  refine ⟨fun t hrst haccepted => retained_run hsize hrst haccepted,
    fun s i hrst haccepted m hm => tlbStep_frame s hrst haccepted hm,
    fun s i hmode => tlbStep_rejected s (refill_rejected hmode),fun s i hrst => ?_⟩
  exact if_pos hrst

end Run

/-- The sample leaf in the first cycle, then leaves of another page. -/
def pressureInputs (t : ℕ) : TlbIn 16 :=
  {sampleInputs t with refill := if t=0 then sampleEntry else {sampleEntry with vpn := 0x800}}

/-- The leaf stays through 31 further refills and the 32nd replaces it. -/
theorem round_robin_pressure :
    ∃ slot : Fin 32,
      (tlbRun pressureInputs 32 : TlbState 32 16).entry slot=sampleEntry ∧
      (tlbRun pressureInputs 33 : TlbState 32 16).entry slot={sampleEntry with vpn := 0x800} := by
  obtain ⟨slot,-,hretained⟩ := (round_robin_retention 4 pressureInputs).1 0 rfl rfl
  refine ⟨slot,?_,?_⟩
  · refine hretained.stays 31 (fun v _ => rfl) (by decide) fun v _ => ?_
    rintro (h | ⟨h | h,-⟩) <;> cases h
  · exact hretained.replaced 31 (fun v _ => rfl) rfl rfl

end RichardCore.TlbRetention
