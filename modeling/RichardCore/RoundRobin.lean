import Mathlib.Data.BitVec
import RichardCore.Clocked

/-!
# Round-robin replacement

Slots are replaced in turn: each placement goes to the slot under a pointer
of fixed width, which then advances, while every other slot is updated in
place. With as many placements as the pointer has values the turn comes round
again, and not before.
-/

namespace RichardCore.RoundRobin

open Clocked

/-- Slots with the pointer to the next one to replace. -/
structure Ring (n w : ℕ) (α : Type*) where
  /-- Contents. -/
  slot : Fin n → α
  /-- Next slot to replace. -/
  next : BitVec w

/-- What one cycle does to the slots. -/
structure Edge (α : Type*) where
  /-- Element to place. -/
  place : Option α
  /-- Update of the slots that are not replaced. -/
  keep : α → α

variable {n w : ℕ} {α : Type*}

/-- One cycle. -/
def step (r : Ring n w α) (e : Edge α) : Ring n w α :=
  match e.place with
  | some a => ⟨fun k => if k.val=r.next.toNat then a else e.keep (r.slot k),r.next+1⟩
  | none => ⟨fun k => e.keep (r.slot k),r.next⟩

/-- Placements in the first `t` cycles. -/
def placed (edges : ℕ → Edge α) (t : ℕ) : ℕ := tally (fun u => (edges u).place.isSome) t

/-- An element after the updates of the first `t` cycles. -/
def kept (edges : ℕ → Edge α) (a : α) (t : ℕ) : α := runFrom (fun x e => e.keep x) a edges t

/-- The pointer counts the placements. -/
theorem next_run (r : Ring n w α) (edges : ℕ → Edge α) (t : ℕ) :
    (runFrom step r edges t).next=r.next+BitVec.ofNat w (placed edges t) := by
  induction t with
  | zero => exact (BitVec.add_zero r.next).symm
  | succ t ih =>
    have hnext : (runFrom step r edges (t+1)).next=
        (step (runFrom step r edges t) (edges t)).next := rfl
    have hplaced : placed edges (t+1)=placed edges t+(edges t).place.isSome.toNat := rfl
    rw [hnext,hplaced]
    unfold step
    cases (edges t).place with
    | none => exact ih
    | some a =>
      change (runFrom step r edges t).next+1=_
      rw [ih,BitVec.add_assoc]
      exact congrArg (r.next+·) (BitVec.ofNat_add (placed edges t) 1).symm

/-- A slot the pointer does not meet is only updated. -/
theorem slot_kept (r : Ring n w α) (edges : ℕ → Edge α) {k : Fin n} {t : ℕ}
    (h : ∀ u < t,(edges u).place.isSome=true → k.val≠(runFrom step r edges u).next.toNat) :
    (runFrom step r edges t).slot k=kept edges (r.slot k) t := by
  induction t with
  | zero => rfl
  | succ t ih =>
    have hprev := ih fun u hu => h u (Nat.lt_succ_of_lt hu)
    have hnow := h t (Nat.lt_succ_self t)
    change (step (runFrom step r edges t) (edges t)).slot k=(edges t).keep (kept edges (r.slot k) t)
    rw [←hprev]
    unfold step
    cases hplace : (edges t).place with
    | none => rfl
    | some a =>
      rw [hplace] at hnow
      exact if_neg (hnow rfl)

/-- From the slot behind the pointer, the turn comes after a multiple of the
pointer's range. -/
theorem turn_iff (p : BitVec w) (m : ℕ) :
    (p+1+BitVec.ofNat w m).toNat=p.toNat ↔ 2^w∣m+1 := by
  have hsum : p+1+BitVec.ofNat w m=p+BitVec.ofNat w (m+1) := by
    rw [BitVec.add_assoc,Nat.add_comm m 1]
    exact congrArg (p+·) (BitVec.ofNat_add 1 m).symm
  rw [BitVec.toNat_inj,hsum,BitVec.add_right_eq_self,←BitVec.toNat_inj,BitVec.toNat_ofNat,
    BitVec.toNat_zero]
  exact Nat.dvd_iff_mod_eq_zero.symm

section Turn

variable {r : Ring n w α} {p : BitVec w} (hnext : r.next=p+1) {k : Fin n} (hk : k.val=p.toNat)
  (edges : ℕ → Edge α)

include hnext hk

/-- The slot just replaced stays until as many placements as the pointer has
values. -/
theorem slot_retained {t : ℕ} (h : placed edges t < 2^w) :
    (runFrom step r edges t).slot k=kept edges (r.slot k) t := by
  refine slot_kept r edges fun u hu hplace hturn => ?_
  rw [next_run,hnext,hk] at hturn
  have hdvd := (turn_iff p (placed edges u)).mp hturn.symm
  have hstep : placed edges (u+1)=placed edges u+1 := by
    change placed edges u+(edges u).place.isSome.toNat=_
    rw [hplace]
    rfl
  have hmono : placed edges (u+1)≤placed edges t := tally_mono _ hu
  have hle := Nat.le_of_dvd (Nat.succ_pos _) hdvd
  omega

/-- The last of them replaces it. -/
theorem slot_replaced {t : ℕ} (h : placed edges t+1=2^w) {a : α}
    (hplace : (edges t).place=some a) : (runFrom step r edges (t+1)).slot k=a := by
  have hturn : k.val=(runFrom step r edges t).next.toNat := by
    rw [next_run,hnext,hk]
    refine ((turn_iff p (placed edges t)).mpr ?_).symm
    rw [h]
  change (step (runFrom step r edges t) (edges t)).slot k=a
  unfold step
  rw [hplace]
  exact if_pos hturn

end Turn

end RichardCore.RoundRobin
