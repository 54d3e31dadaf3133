import RichardCore.CsrStatus
import RichardCore.SequentialMachine
import RichardCore.Effects

/-!
# The retired-instruction counter

The counter ticks in every cycle that takes no trap. It has no input that
says whether WB holds an instruction, so it counts the instructions that
commit and the cycles in which WB is empty.
-/

namespace RichardCore.RetireCount

open Packages Decoder DataMemory CsrUnit CsrStatus TrapCtrl Pipeline Clocked Tracking Harness
open Effects SequentialMachine

/-- The cycle takes no trap. -/
def quietCycle (x : Tracked) (i : Inputs) : Bool := !(trapWires x.core i.irq).trapTrigger

/-- The instruction in WB commits. -/
def commits (x : Tracked) (i : Inputs) : Bool :=
  match x.tags.wb with
  | .instr _ => quietCycle x i
  | .bubble _ => false

/-- A cycle without a trap and without an instruction in WB. -/
def idles (x : Tracked) (i : Inputs) : Bool :=
  match x.tags.wb with
  | .instr _ => false
  | .bubble _ => quietCycle x i

section Run

variable (inputs : ℕ → Inputs)

/-- Number of cycles since reset in which an event took place. -/
def count (event : Tracked → Inputs → Bool) (t : ℕ) : ℕ :=
  tallySince (fun u => (inputs u).rst) (fun u => event (trackedRun inputs u) (inputs u)) t

/-- Instructions that have committed since reset. -/
def committed (t : ℕ) : ℕ := count inputs commits t

/-- Trap-free cycles with an empty WB since reset. -/
def emptyCycles (t : ℕ) : ℕ := count inputs idles t

/-- Value of the counter in a cycle. -/
def minstretAt (t : ℕ) : Word := (trackedRun inputs t).core.csr.minstret

/-- No cycle writes minstret, also not through its alias. -/
def NoInstretWrite : Prop :=
  ∀ t,¬WritesAt (csrWires (trackedRun inputs t).core (inputs t)) .minstret

end Run

/-- Without a write to it the counter ticks in cycles without a trap. -/
theorem writePhase_minstret (s : CsrState) (i : CsrIn) (hw : ¬WritesAt i .minstret) :
    (writePhase s i).minstret=if i.trapTrigger then s.minstret else s.minstret+1 := by
  obtain hphase | ⟨csr,hat,hphase⟩ := writePhase_cases s i
  · rw [hphase]
    rfl
  · rw [hphase]
    unfold writeCsr
    rw [Csr.ofAddr_addr]
    cases csr with
    | minstret => exact absurd hat hw
    | _ => rfl

/-- Traps and returns leave the counter alone. -/
theorem csrStep_minstret (s : CsrState) (i : CsrIn) (hw : ¬WritesAt i .minstret) :
    (csrStep s i).minstret=
      if i.rst then 0 else if i.trapTrigger then s.minstret else s.minstret+1 := by
  have hphase := writePhase_minstret s i hw
  unfold csrStep
  cases i.rst with
  | true => rfl
  | false =>
    simp only [Bool.false_eq_true,if_false]
    rw [←hphase]
    cases i.trapTrigger with
    | true =>
      unfold enterTrap
      cases i.trapToSMode <;> rfl
    | false =>
      unfold returnPhase
      cases i.mretEn <;> cases i.sretEn <;> rfl

section Count

variable {inputs : ℕ → Inputs} (hwrites : NoInstretWrite inputs)

include hwrites

/-- The counter holds the number of trap-free cycles since reset. -/
theorem minstretAt_quiet (t : ℕ) : minstretAt inputs t=BitVec.ofNat 64 (count inputs quietCycle t) := by
  induction t with
  | zero => rfl
  | succ t ih =>
    have hstep : minstretAt inputs (t+1)=if (inputs t).rst then 0
        else if (trapWires (trackedRun inputs t).core (inputs t).irq).trapTrigger then
          minstretAt inputs t else minstretAt inputs t+1 :=
      csrStep_minstret _ _ (hwrites t)
    have hcount : count inputs quietCycle (t+1)=if (inputs t).rst then 0
        else count inputs quietCycle t+(quietCycle (trackedRun inputs t) (inputs t)).toNat := rfl
    rw [hstep,hcount,ih]
    unfold quietCycle
    cases (inputs t).rst with
    | true => rfl
    | false =>
      cases (trapWires (trackedRun inputs t).core (inputs t).irq).trapTrigger with
      | true => rfl
      | false => exact (BitVec.ofNat_add _ _).symm

/-- Every trap-free cycle commits an instruction or has an empty WB. -/
theorem minstretAt_eq (t : ℕ) :
    minstretAt inputs t=BitVec.ofNat 64 (committed inputs t+emptyCycles inputs t) := by
  rw [minstretAt_quiet hwrites]
  congr 1
  refine tallySince_add (fun u => ?_) t
  unfold commits idles
  cases (trackedRun inputs u).tags.wb <;> simp

/-- The counter is right exactly when the empty cycles have wrapped around. -/
theorem minstretAt_iff (t : ℕ) :
    minstretAt inputs t=BitVec.ofNat 64 (committed inputs t) ↔ 2^64∣emptyCycles inputs t := by
  rw [minstretAt_eq hwrites,BitVec.ofNat_add]
  constructor
  · intro h
    have hzero : BitVec.ofNat 64 (emptyCycles inputs t)=0#64 := by
      have hsub := congrArg (fun w => w-BitVec.ofNat 64 (committed inputs t)) h
      simpa [BitVec.add_comm] using hsub
    have hnat := congrArg BitVec.toNat hzero
    rw [BitVec.toNat_ofNat] at hnat
    exact Nat.dvd_of_mod_eq_zero hnat
  · intro h
    have hzero : BitVec.ofNat 64 (emptyCycles inputs t)=0#64 := by
      apply BitVec.eq_of_toNat_eq
      rw [BitVec.toNat_ofNat]
      exact Nat.mod_eq_zero_of_dvd h
    rw [hzero,BitVec.add_zero]

end Count

/-- While reset has been held so far the core is in its reset state. -/
theorem trackedRun_held {inputs : ℕ → Inputs} {t : ℕ} (h : ∀ u < t,(inputs u).rst=true) :
    ∃ n,trackedRun inputs t=⟨coreReset,tagsReset n⟩ := by
  cases t with
  | zero => exact ⟨0,rfl⟩
  | succ t =>
    rw [trackedRun_succ,trackStep_reset _ _ (h t (Nat.lt_succ_self t))]
    exact ⟨_,rfl⟩

/-- Nothing is counted while reset is held. -/
theorem count_held {inputs : ℕ → Inputs} {t : ℕ} (event : Tracked → Inputs → Bool)
    (h : ∀ u < t,(inputs u).rst=true) : count inputs event t=0 := by
  cases t with
  | zero => rfl
  | succ t => exact if_pos (h t (Nat.lt_succ_self t))

/-- The first cycle out of reset is an empty one. -/
theorem emptyCycles_first {inputs : ℕ → Inputs} {t : ℕ} (h : ∀ u < t,(inputs u).rst=true)
    (hrst : (inputs t).rst=false) : emptyCycles inputs (t+1)=1 := by
  obtain ⟨n,hstate⟩ := trackedRun_held h
  have hinterrupt : hasInterrupt coreReset (inputs t).irq=false := rfl
  have hquiet : idles (trackedRun inputs t) (inputs t)=true := by
    rw [hstate]
    change (!(trapWires coreReset (inputs t).irq).trapTrigger)=true
    rw [trapTrigger_eq,hinterrupt]
    rfl
  change (if (inputs t).rst=true then 0
    else count inputs idles t+(idles (trackedRun inputs t) (inputs t)).toNat)=1
  rw [hrst,count_held idles h,hquiet]
  rfl

/-- In every run without writes to it, the counter is the number of committed
instructions in exactly the cycles before which a multiple of 2^64 trap-free
cycles had an empty WB; it is so in every cycle only if reset is never
released. -/
theorem minstret_overcounts (inputs : ℕ → Inputs) (hwrites : NoInstretWrite inputs) :
    (∀ t,minstretAt inputs t=BitVec.ofNat 64 (committed inputs t) ↔
      2^64∣emptyCycles inputs t) ∧
    ((∀ t,minstretAt inputs t=BitVec.ofNat 64 (committed inputs t)) ↔
      ∀ t,(inputs t).rst=true) := by
  refine ⟨minstretAt_iff hwrites,?_,?_⟩
  · intro hall
    by_contra hreleased
    have hexists : ∃ t,(inputs t).rst=false := by
      by_contra hnone
      exact hreleased fun t => Bool.eq_true_of_not_eq_false fun hlow => hnone ⟨t,hlow⟩
    -- the first cycle out of reset
    have hheld : ∀ u < Nat.find hexists,(inputs u).rst=true :=
      fun u hu => Bool.eq_true_of_not_eq_false (Nat.find_min hexists hu)
    have hempty := emptyCycles_first hheld (Nat.find_spec hexists)
    have hdvd := (minstretAt_iff hwrites _).mp (hall (Nat.find hexists+1))
    rw [hempty] at hdvd
    revert hdvd
    decide
  · intro hheld t
    rw [minstretAt_iff hwrites,emptyCycles,count_held idles fun u _ => hheld u]
    exact Nat.dvd_zero _

/-- Programs without SYSTEM instructions write no CSR. -/
theorem noInstretWrite_of_words {inputs : ℕ → Inputs}
    (h : ∀ t,(opcodeField (inputs t).imemRdata != Opcode.system.bits)=true) :
    NoInstretWrite inputs := by
  rintro t ⟨hwrites,-⟩
  rw [writesCsr_csrWires,csrWriteWire_eq,Bool.and_eq_true,Bool.and_eq_true] at hwrites
  have hcsr : (trackedRun inputs t).core.memWb.isCsr=true := by
    have hreq := hwrites.1.1
    unfold csrReq at hreq
    rw [Bool.and_eq_true] at hreq
    exact hreq.1
  have hslot := (trackedRun_slotsOk inputs t).wb
  have hwords := trackedRun_words (fun word => opcodeField word != Opcode.system.bits) h t
  cases hwb : (trackedRun inputs t).tags.wb with
  | bubble b =>
    rw [hwb] at hslot
    rw [hslot.2.csr] at hcsr
    cases hcsr
  | instr k =>
    rw [hwb] at hslot
    have hword : opcodeField k.word≠Opcode.system.bits := bne_iff_ne.mp (hwords.wb k hwb)
    rw [hslot.2.2.isCsr,(decoder_nonSystem k.word k.mode.bits hword).1] at hcsr
    cases hcsr

/-- A loop of two instructions writes no CSR, and its counter goes wrong. -/
theorem minstret_overcounts_loop :
    ¬∀ t,minstretAt (programInputs [0x00108093,0xffdff06f] fun _ => .low) t=
      BitVec.ofNat 64 (committed (programInputs [0x00108093,0xffdff06f] fun _ => .low) t) := by
  have hwords : ∀ t,(opcodeField
      (programInputs [0x00108093,0xffdff06f] (fun _ => .low) t).imemRdata !=
        Opcode.system.bits)=true :=
    fun t => loadProgram_all (fun word => opcodeField word != Opcode.system.bits) resetPc
      [0x00108093,0xffdff06f] (by decide) (by decide) _
  intro hall
  have hheld := (minstret_overcounts (programInputs [0x00108093,0xffdff06f] fun _ => .low)
    (noInstretWrite_of_words hwords)).2.mp hall 0
  cases hheld

/-- ADDI x1,x0,1 and NOPs: after five cycles one instruction has committed and
the counter reads five. -/
theorem minstret_fill :
    NoInstretWrite (programInputs [0x00100093] fun _ => .low) ∧
    minstretAt (programInputs [0x00100093] fun _ => .low) 5=5 ∧
    committed (programInputs [0x00100093] fun _ => .low) 5=1 := by
  refine ⟨noInstretWrite_of_words fun t => ?_,by decide +kernel,by decide +kernel⟩
  exact loadProgram_all (fun word => opcodeField word != Opcode.system.bits) resetPc [0x00100093]
    (by decide) (by decide) _

end RichardCore.RetireCount
