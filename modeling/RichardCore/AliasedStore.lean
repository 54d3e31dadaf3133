import Mathlib.Data.BitVec

/-!
# Stores with aliases

A store keeps one bit at every location. A layout names, for every address
and bit position, the location of the bit or a fixed value; two addresses
alias where they name the same location. Assigning an address changes the
locations it names and no others, and every reading follows from that.
-/

namespace RichardCore.AliasedStore

/-- Where the bits of the addresses are kept. -/
structure Layout (A L : Type*) (w : ℕ) where
  /-- Location of a bit, or its fixed value. -/
  home : A → ℕ → Bool ⊕ L
  /-- An address names a location once. -/
  injective : ∀ {a j k l},home a j=.inr l → home a k=.inr l → j=k

section Store

variable {A L : Type*} {w : ℕ} (lay : Layout A L w)

/-- A bit of an address. -/
def Layout.bit (store : L → Bool) (a : A) (j : ℕ) : Bool :=
  match lay.home a j with
  | .inl b => b
  | .inr l => store l

/-- The word at an address. -/
def Layout.read (store : L → Bool) (a : A) : BitVec w :=
  (BitVec.ofBoolListLE ((List.range w).map (lay.bit store a))).setWidth w

/-- Two bits kept at the same location. -/
def Layout.Shares (a : A) (j : ℕ) (b : A) (k : ℕ) : Prop :=
  ∃ l,lay.home a j=.inr l ∧ lay.home b k=.inr l

/-- The bits of a word read are the bits of its address. -/
theorem Layout.getLsbD_read (store : L → Bool) (a : A) {j : ℕ} (hj : j < w) :
    (lay.read store a).getLsbD j=lay.bit store a j := by
  unfold Layout.read
  rw [BitVec.getLsbD_setWidth,BitVec.getLsbD_ofBoolListLE]
  simp [hj,List.getD]

/-- A word is determined by its bits. -/
theorem Layout.read_eq {store : L → Bool} {a : A} {x : BitVec w}
    (h : ∀ j < w,x.getLsbD j=lay.bit store a j) : lay.read store a=x := by
  apply BitVec.eq_of_getLsbD_eq
  intro j hj
  rw [lay.getLsbD_read store a hj,h j hj]

/-- Sharing goes both ways. -/
theorem Layout.Shares.symm {lay : Layout A L w} {a b : A} {j k : ℕ} (h : lay.Shares a j b k) :
    lay.Shares b k a j := by
  obtain ⟨l,ha,hb⟩ := h
  exact ⟨l,hb,ha⟩

/-- Shared bits read the same. -/
theorem Layout.Shares.bit_eq {lay : Layout A L w} {a b : A} {j k : ℕ} (h : lay.Shares a j b k)
    (store : L → Bool) : lay.bit store a j=lay.bit store b k := by
  obtain ⟨l,ha,hb⟩ := h
  unfold Layout.bit
  rw [ha,hb]

/-- Bits with the same home read the same. -/
theorem Layout.bit_congr (store : L → Bool) {a b : A} {j k : ℕ} (h : lay.home a j=lay.home b k) :
    lay.bit store a j=lay.bit store b k := by
  unfold Layout.bit
  rw [h]

variable [DecidableEq L]

/-- Position of a location in an address. -/
def Layout.position (a : A) (l : L) : Option ℕ :=
  (List.range w).find? fun j => lay.home a j=.inr l

/-- Assign every bit of an address from its old value in `old`; other
locations are taken from `next`. -/
def Layout.assign (old next : L → Bool) (a : A) (f : ℕ → Bool → Bool) : L → Bool := fun l =>
  match lay.position a l with
  | some j => f j (old l)
  | none => next l

/-- Assign several addresses, one after the other, from the same old values. -/
def Layout.assignAll (old next : L → Bool) (as : List A) (f : A → ℕ → Bool → Bool) : L → Bool :=
  as.foldl (fun n a => lay.assign old n a (f a)) next

/-- A location named inside the width has that position. -/
theorem Layout.position_home {a : A} {j : ℕ} {l : L} (hj : j < w) (h : lay.home a j=.inr l) :
    lay.position a l=some j := by
  unfold Layout.position
  cases hfind : (List.range w).find? fun k => lay.home a k=.inr l with
  | none =>
    have hno := List.find?_eq_none.mp hfind j (List.mem_range.mpr hj)
    simp [h] at hno
  | some k =>
    have hk : lay.home a k=.inr l := by simpa using List.find?_some hfind
    rw [lay.injective hk h]

/-- Only named locations have a position. -/
theorem Layout.home_position {a : A} {j : ℕ} {l : L} (h : lay.position a l=some j) :
    j < w ∧ lay.home a j=.inr l := by
  unfold Layout.position at h
  exact ⟨List.mem_range.mp (List.mem_of_find?_eq_some h),by simpa using List.find?_some h⟩

/-- Addresses with the same homes are assigned alike. -/
theorem Layout.assign_congr (old next : L → Bool) {a b : A} (f : ℕ → Bool → Bool)
    (h : ∀ j,lay.home a j=lay.home b j) : lay.assign old next a f=lay.assign old next b f := by
  unfold Layout.assign Layout.position
  simp only [h]

/-- A bit kept where the assigned address keeps bit `k` takes the value
assigned there. -/
theorem Layout.bit_assign_shared (old next : L → Bool) {a b : A} {j k : ℕ}
    (f : ℕ → Bool → Bool) (hk : k < w) (h : lay.Shares a k b j) :
    lay.bit (lay.assign old next a f) b j=f k (lay.bit old b j) := by
  obtain ⟨l,ha,hb⟩ := h
  unfold Layout.bit Layout.assign
  rw [hb]
  dsimp only
  rw [lay.position_home hk ha]

/-- A bit the assigned address does not name is left to the next store. -/
theorem Layout.bit_assign_frame (old next : L → Bool) {a b : A} {j : ℕ} (f : ℕ → Bool → Bool)
    (h : ∀ k < w,¬lay.Shares a k b j) :
    lay.bit (lay.assign old next a f) b j=lay.bit next b j := by
  unfold Layout.bit Layout.assign
  cases hb : lay.home b j with
  | inl c => rfl
  | inr l =>
    dsimp only
    cases hposition : lay.position a l with
    | none => rfl
    | some k =>
      obtain ⟨hk,ha⟩ := lay.home_position hposition
      exact absurd ⟨l,ha,hb⟩ (h k hk)

/-- Bits that none of the assigned addresses names are left to the next
store. -/
theorem Layout.bit_assignAll_frame (old next : L → Bool) {as : List A} {b : A} {j : ℕ}
    (f : A → ℕ → Bool → Bool) (h : ∀ a∈as,∀ k < w,¬lay.Shares a k b j) :
    lay.bit (lay.assignAll old next as f) b j=lay.bit next b j := by
  unfold Layout.assignAll
  induction as generalizing next with
  | nil => rfl
  | cons a as ih =>
    rw [List.foldl_cons,ih _ fun c hc => h c (List.mem_cons_of_mem a hc)]
    exact lay.bit_assign_frame old next (f a) (h a List.mem_cons_self)

/-- A bit that exactly one of the assigned addresses names takes the value
assigned there. -/
theorem Layout.bit_assignAll_shared (old next : L → Bool) {as : List A} {a b : A} {j k : ℕ}
    (f : A → ℕ → Bool → Bool) (hk : k < w) (h : lay.Shares a k b j) (ha : a∈as)
    (honly : ∀ c∈as,c≠a → ∀ m < w,¬lay.Shares c m b j) :
    lay.bit (lay.assignAll old next as f) b j=f a k (lay.bit old b j) := by
  unfold Layout.assignAll
  induction as generalizing next with
  | nil => exact absurd ha List.not_mem_nil
  | cons c as ih =>
    rw [List.foldl_cons]
    by_cases hin : a∈as
    · exact ih _ hin fun d hd => honly d (List.mem_cons_of_mem c hd)
    · have hc : a=c := (List.mem_cons.mp ha).resolve_right hin
      subst hc
      have hframe := lay.bit_assignAll_frame old (lay.assign old next a (f a)) f
        fun d hd => honly d (List.mem_cons_of_mem a hd) fun hda => hin (hda ▸ hd)
      unfold Layout.assignAll at hframe
      rw [hframe]
      exact lay.bit_assign_shared old next (f a) hk h

end Store

end RichardCore.AliasedStore
