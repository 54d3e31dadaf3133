import RichardCore.Effects

/-!
# Lives of instructions

An instruction in WB has come all the way: fetched in one cycle, held in ID
for one or more, then one cycle each in EX and MEM. The order numbers date
the fetches: an instruction with a larger number was fetched later.
-/

namespace RichardCore.Lifecycle

open Packages Decoder Execute DataMemory CsrUnit TrapCtrl Hazard Pipeline Clocked Tracking
open Effects

section Run

variable (inputs : ℕ → Inputs)

/-- The cycle fetches the instruction: its number is next, and its address
and word are on the instruction bus. -/
structure FetchedAt (f : Fetched) (u : ℕ) : Prop where
  /-- Order number. -/
  seq : (trackedRun inputs u).tags.seq=f.seq
  /-- Fetch address. -/
  pc : (trackedRun inputs u).core.pc=f.pc
  /-- Word read. -/
  word : (inputs u).imemRdata=f.word
  /-- The number is used up. -/
  next : (trackedRun inputs (u+1)).tags.seq=f.seq+1

/-- The life of an instruction that reaches WB in cycle `issue+3`: fetched in
cycle `fetch`, in ID up to cycle `issue`. -/
structure Life (k : Executed) (fetch issue : ℕ) : Prop where
  /-- ID comes after the fetch. -/
  order : fetch < issue
  /-- Fetch cycle. -/
  fetched : FetchedAt inputs k.toFetched fetch
  /-- In ID from the fetch on. -/
  id : ∀ v,fetch < v → v ≤ issue → (trackedRun inputs v).tags.id=.instr k.toFetched
  /-- The mode of the last ID cycle is the mode of its check. -/
  mode : (trackedRun inputs issue).core.csr.privMode=k.mode
  /-- No flush and no stall ends the stay in ID. -/
  leaves : flushWire (trackedRun inputs issue).core (inputs issue).irq=false ∧
    takenWire (trackedRun inputs issue).core=false
  /-- In EX. -/
  ex : (trackedRun inputs (issue+1)).tags.ex=.instr k.toIssued
  /-- In MEM. -/
  mem : (trackedRun inputs (issue+2)).tags.mem=.instr k
  /-- Contents of EX/MEM. -/
  executed : (trackedRun inputs (issue+2)).core.exMem=exOutput (trackedRun inputs (issue+1)).core
  /-- In WB. -/
  wb : (trackedRun inputs (issue+3)).tags.wb=.instr k
  /-- Contents of MEM/WB. -/
  completed : (trackedRun inputs (issue+3)).core.memWb=
    memStage (trackedRun inputs (issue+2)).core.exMem (inputs (issue+2)).dmemRdata

end Run

section Back

variable {inputs : ℕ → Inputs}

/-- A filled slot is not the one of a reset edge. -/
theorem rst_of_filled {α : Type} {t : ℕ} (slot : Tags → Slot α) {a : α}
    (hempty : ∀ n,∃ b,slot (tagsReset n)=.bubble b)
    (h : slot (trackedRun inputs (t+1)).tags=.instr a) : (inputs t).rst=false := by
  cases hrst : (inputs t).rst with
  | false => rfl
  | true =>
    rw [trackedRun_succ,trackStep_reset _ _ hrst] at h
    obtain ⟨b,hb⟩ := hempty ((trackedRun inputs t).tags.seq+1)
    change slot (tagsReset _)=_ at h
    rw [hb] at h
    cases h

/-- The fetch number never falls. -/
theorem seq_mono {u v : ℕ} (h : u≤v) :
    (trackedRun inputs u).tags.seq≤(trackedRun inputs v).tags.seq := by
  induction v,h using Nat.le_induction with
  | base => exact Nat.le_refl _
  | succ v _ ih =>
    refine Nat.le_trans ih ?_
    rw [trackedRun_succ]
    unfold trackStep tagStep
    dsimp only
    split <;> omega

/-- The order numbers date the fetches. -/
theorem FetchedAt.lt {f g : Fetched} {u v : ℕ} (hf : FetchedAt inputs f u)
    (hg : FetchedAt inputs g v) (h : f.seq < g.seq) : u < v := by
  by_contra hle
  have hmono := @seq_mono inputs _ _ (Nat.le_of_not_lt hle)
  rw [hf.seq,hg.seq] at hmono
  omega

/-- An instruction is fetched in one cycle only. -/
theorem FetchedAt.unique {f : Fetched} {u v : ℕ} (hu : FetchedAt inputs f u)
    (hv : FetchedAt inputs f v) : u=v := by
  by_contra hne
  obtain hlt | hlt : u+1≤v ∨ v+1≤u := by omega
  · have hmono := @seq_mono inputs _ _ hlt
    rw [hu.next,hv.seq] at hmono
    omega
  · have hmono := @seq_mono inputs _ _ hlt
    rw [hv.next,hu.seq] at hmono
    omega

/-- An instruction in ID was fetched in an earlier cycle and has been in ID
since. -/
theorem id_life {f : Fetched} {t : ℕ} (h : (trackedRun inputs t).tags.id=.instr f) :
    ∃ u < t,FetchedAt inputs f u ∧ ∀ v,u < v → v≤t → (trackedRun inputs v).tags.id=.instr f := by
  induction t with
  | zero => cases h
  | succ t ih =>
    have hrst := rst_of_filled (fun g => g.id) (fun _ => ⟨_,rfl⟩) h
    have hid : (trackedRun inputs (t+1)).tags.id=_ := tagStep_id (trackedRun inputs t).core
      (trackedRun inputs t).tags (inputs t) hrst
    have hseq : (trackedRun inputs (t+1)).tags.seq=_ := tagStep_seq (trackedRun inputs t).core
      (trackedRun inputs t).tags (inputs t) hrst
    have hnow := h
    rw [hid] at hnow
    cases hclear : (flushWire (trackedRun inputs t).core (inputs t).irq ||
        takenWire (trackedRun inputs t).core) with
    | true => simp [hclear] at hnow
    | false =>
      rw [hclear,if_neg (by decide)] at hnow
      cases hstall : loadUseWire (trackedRun inputs t).core with
      | true =>
        rw [hstall,if_pos rfl] at hnow
        obtain ⟨u,hu,hfetched,hstays⟩ := ih hnow
        refine ⟨u,by omega,hfetched,fun v huv hvt => ?_⟩
        obtain hlt | rfl : v≤t ∨ v=t+1 := by omega
        · exact hstays v huv hlt
        · exact h
      | false =>
        rw [hstall,if_neg (by decide)] at hnow
        cases hnow
        rw [hstall,Bool.and_false,if_neg (by decide)] at hseq
        refine ⟨t,Nat.lt_succ_self t,⟨rfl,rfl,rfl,hseq⟩,fun v huv hvt => ?_⟩
        obtain rfl : v=t+1 := by omega
        exact h

/-- An instruction in EX was in ID up to the cycle before, since its fetch,
and left it in a cycle without a flush. -/
theorem ex_life {k : Issued} {t : ℕ} (h : (trackedRun inputs t).tags.ex=.instr k) :
    ∃ fetch issue,t=issue+1 ∧ fetch < issue ∧ FetchedAt inputs k.toFetched fetch ∧
      (∀ v,fetch < v → v ≤ issue → (trackedRun inputs v).tags.id=.instr k.toFetched) ∧
      (trackedRun inputs issue).core.csr.privMode=k.mode ∧
      flushWire (trackedRun inputs issue).core (inputs issue).irq=false ∧
      takenWire (trackedRun inputs issue).core=false := by
  obtain _ | t := t
  · cases h
  have hrst := rst_of_filled (fun g => g.ex) (fun _ => ⟨_,rfl⟩) h
  obtain ⟨hflush,htaken,-,-,f,hid,hk⟩ := ex_instr_inv hrst h
  obtain ⟨u,hu,hfetched,hstays⟩ := id_life hid
  subst hk
  exact ⟨u,t,rfl,hu,hfetched,hstays,rfl,hflush,htaken⟩

/-- An instruction in MEM was in EX in the cycle before. -/
theorem mem_pred {k : Executed} {t : ℕ} (h : (trackedRun inputs t).tags.mem=.instr k) :
    ∃ u,t=u+1 ∧ (trackedRun inputs u).tags.ex=.instr k.toIssued ∧
      (trackedRun inputs t).core.exMem=exOutput (trackedRun inputs u).core := by
  obtain _ | t := t
  · cases h
  have hrst := rst_of_filled (fun g => g.mem) (fun _ => ⟨_,rfl⟩) h
  obtain ⟨hexecuted,j,hex,hk⟩ := mem_instr_inv hrst h
  subst hk
  exact ⟨t,rfl,hex,hexecuted⟩

/-- An instruction in WB was in MEM in the cycle before. -/
theorem wb_pred {k : Executed} {t : ℕ} (h : (trackedRun inputs t).tags.wb=.instr k) :
    ∃ u,t=u+1 ∧ (trackedRun inputs u).tags.mem=.instr k ∧ (inputs u).rst=false ∧
      (trackedRun inputs t).core.memWb=
        memStage (trackedRun inputs u).core.exMem (inputs u).dmemRdata := by
  obtain _ | t := t
  · cases h
  have hrst := rst_of_filled (fun g => g.wb) (fun _ => ⟨_,rfl⟩) h
  obtain ⟨-,hmem,hcompleted⟩ := wb_instr_inv hrst h
  exact ⟨t,rfl,hmem,hrst,hcompleted⟩

/-- Every instruction in WB has a life. -/
theorem wb_life {k : Executed} {t : ℕ} (h : (trackedRun inputs t).tags.wb=.instr k) :
    ∃ fetch issue,t=issue+3 ∧ Life inputs k fetch issue := by
  obtain ⟨t,rfl,hmem,-,hcompleted⟩ := wb_pred h
  obtain ⟨u,rfl,hex,hexecuted⟩ := mem_pred hmem
  obtain ⟨fetch,issue,rfl,horder,hfetched,hid,hmode,hleaves⟩ := ex_life hex
  exact ⟨fetch,issue,rfl,horder,hfetched,hid,hmode,hleaves,hex,hmem,hexecuted,h,hcompleted⟩

end Back

end RichardCore.Lifecycle
