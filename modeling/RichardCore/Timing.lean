import RichardCore.Refinement

/-!
# Exact timing

When the pipeline runs like the sequential machine, its timing is read off
the machine: an instruction follows the one before it by one cycle, by three
behind a taken branch or jump and by two behind a load whose destination is
one of its source fields. So the machine alone gives the cycle in which every
instruction is in EX, accesses memory and is written back.
-/

namespace RichardCore.Timing

open Packages Decoder Execute DataMemory CsrUnit TrapCtrl Hazard Pipeline Clocked Tracking
open ProgramOrder Effects Harness SequentialMachine Agreement Simulation Refinement

section Machine

variable {M : Type} (p : Setup M)

/-- Instruction `n` leaves the sequential path. -/
def taken (n : ℕ) : Bool := (p.executed n).branchTaken

/-- Instruction `n` is a load whose destination is a source field of the next
instruction, used or not. -/
def loadUse (n : ℕ) : Bool :=
  loadUseStall (p.decoded n).ctrl.mem.isLoad (p.decoded n).ctrl.wb.rdAddr
    (p.decoded (n+1)).ctrl.rs1Addr (p.decoded (n+1)).ctrl.rs2Addr

/-- Cycles from instruction `n` to its successor. -/
def cost (n : ℕ) : ℕ := 1+2*(taken p n).toNat+(loadUse p n).toNat

/-- Cycle in which instruction `n` is in EX. -/
def issueCycle : ℕ → ℕ
  | 0 => 2
  | n+1 => issueCycle n+cost p n

/-- The cycle counts the instructions, twice the transfers and the stalls
before it. -/
theorem issueCycle_eq (n : ℕ) :
    issueCycle p n=2+n+2*tally (taken p) n+tally (loadUse p) n := by
  induction n with
  | zero => rfl
  | succ n ih =>
    rw [issueCycle,ih,cost,tally,tally]
    omega

/-- Later instructions issue later. -/
theorem issueCycle_lt {m n : ℕ} (h : m < n) : issueCycle p m < issueCycle p n := by
  have htaken := tally_mono (taken p) (Nat.le_of_lt h)
  have hstall := tally_mono (loadUse p) (Nat.le_of_lt h)
  rw [issueCycle_eq,issueCycle_eq]
  omega

/-- A load does not leave the sequential path. -/
theorem taken_notLoad (n : ℕ) (h : taken p n=true) : (p.decoded n).ctrl.mem.isLoad=false := by
  refine Bool.eq_false_of_not_eq_true fun hload => ?_
  have hexec := (decoder_access _ _ (.inl hload)).2.2.1
  have htaken : ((p.decoded n).ctrl.exec.isJump || ((p.decoded n).ctrl.exec.isBranch && _))=true := h
  change (p.decoded n).ctrl.exec=_ at hexec
  rw [hexec] at htaken
  cases htaken

end Machine

section Run

variable {M : Type} {p : Setup M} (hp : Regular p)

include hp

/-- A branch in EX is taken when the machine takes it. -/
theorem takenWire_eq {y : Sys M} {n : ℕ} (h : Simulates p y n) {k : Issued}
    (hk : y.tracked.tags.ex=.instr k) :
    takenWire y.tracked.core=taken p (exIndex y.tracked.tags n) :=
  (h.exOut hp hk).1

/-- Behind an instruction that stays on the sequential path, ID holds its
successor. -/
theorem id_successor {y : Sys M} {n : ℕ} (h : Simulates p y n) {k : Issued}
    (hk : y.tracked.tags.ex=.instr k) (htaken : takenWire y.tracked.core=false) :
    filled y.tracked.tags.id=true ∧
      idWires y.tracked.core=(p.decoded (exIndex y.tracked.tags n+1)).ctrl := by
  have hfront := h.order.front
  have hnext := (h.exNext hp hk).2
  unfold FrontEnd at hfront
  cases hid : y.tracked.tags.id with
  | bubble b =>
    rw [hid] at hfront
    obtain ⟨-,-,e,he⟩ := hfront
    rw [hk] at he
    cases he
  | instr f =>
    rw [hid] at hfront
    obtain htakenNow | ⟨hpc,-⟩ := hfront
    · rw [htaken] at htakenNow
      cases htakenNow
    · have hslot := h.slots.id
      rw [hid] at hslot
      have hifId : y.tracked.core.ifId=⟨f.pc,f.word⟩ := hslot
      have hpriv := congrArg (fun c => c.privMode) h.csr
      change y.tracked.core.csr.privMode=(p.machine n).csr.privMode at hpriv
      have hafter : afterEx y.tracked=(p.machine (exIndex y.tracked.tags n+1)).pc := by
        rw [←hnext]
        unfold afterEx
        rw [hk]
        rfl
      refine ⟨rfl,?_⟩
      change decoder y.tracked.core.ifId.instr y.tracked.core.csr.privMode.bits=
        decoder (p.imem (p.machine _).pc) (p.machine _).csr.privMode.bits
      rw [hifId,hpriv,machine_privMode,machine_privMode]
      change decoder f.word _=_
      rw [h.id f hid,hpc,hafter]

omit hp in
/-- The wait is at least a cycle. -/
theorem waitEx_pos (x : Tracked) : 1≤waitEx x := by
  unfold waitEx
  split
  · omega
  · split
    · omega
    · split <;> omega

/-- While EX holds an instruction, the wait for the next one is its cost. -/
theorem waitEx_filled {y : Sys M} {n : ℕ} (h : Simulates p y n)
    (hfilled : filled y.tracked.tags.ex=true) :
    waitEx y.tracked=cost p (exIndex y.tracked.tags n) := by
  cases hslot : y.tracked.tags.ex with
  | bubble b =>
    rw [hslot] at hfilled
    cases hfilled
  | instr k =>
    have htaken := takenWire_eq hp h hslot
    unfold waitEx cost
    rw [htaken]
    cases hnow : taken p (exIndex y.tracked.tags n) with
    | true =>
      have hload := taken_notLoad p _ hnow
      simp [loadUse,loadUseStall,hload]
    | false =>
      obtain ⟨hid,hdecoded⟩ := id_successor hp h hslot (htaken.trans hnow)
      obtain ⟨-,-,-,hctrl⟩ := h.ex_decoded hslot
      have hstall : loadUseWire y.tracked.core=loadUse p (exIndex y.tracked.tags n) := by
        unfold loadUseWire loadUse
        rw [hdecoded,hctrl]
      rw [hstall,hid]
      cases loadUse p (exIndex y.tracked.tags n) <;> rfl

/-- The next instruction to enter EX does so after the wait. -/
theorem issueCycle_wait (t : ℕ) :
    issueCycle p (issued p (t+1))=t+waitEx (p.cycle t).tracked ∧
      (exFilled p t=true → issueCycle p (issued p t)=t) := by
  induction t with
  | zero => exact ⟨rfl,fun h => by cases h⟩
  | succ t ih =>
    obtain ⟨hnext,-⟩ := ih
    have h := simulates_run hp t
    have hflush : flushWire (p.cycle t).tracked.core
        ((p.cycle t).inputs p.imem p.dev .low).irq=false := h.noFlush hp
    have hissued : issued p (t+1+1)=issued p (t+1)+(exFilled p (t+1)).toNat := rfl
    have hcycle : (p.cycle (t+1)).tracked=
        trackStep (p.cycle t).tracked ((p.cycle t).inputs p.imem p.dev .low) := rfl
    obtain ⟨hfilled,hone,-⟩ | ⟨hempty,hcloser⟩ := waitEx_step h.slots h.order rfl hflush
    · rw [←hcycle] at hfilled
      have hex : exFilled p (t+1)=true := hfilled
      have hcost := waitEx_filled hp (simulates_run hp (t+1)) hfilled
      rw [hone] at hnext
      rw [exIndex_eq hp] at hcost
      rw [hissued,hex]
      refine ⟨?_,fun _ => hnext⟩
      change issueCycle p (issued p (t+1))+cost p (issued p (t+1))=_
      rw [hnext,hcost]
    · rw [←hcycle] at hempty hcloser
      have hex : exFilled p (t+1)=false := hempty
      rw [hissued,hex]
      refine ⟨?_,fun hno => by cases hno⟩
      change issueCycle p (issued p (t+1))=_
      omega

/-- EX keeps the schedule of the machine. -/
theorem ex_onSchedule : OnSchedule (issueCycle p) (exFilled p) := by
  refine ⟨fun m n hlt => issueCycle_lt p hlt,fun t => (issueCycle_wait hp t).2,fun t => ?_⟩
  have hwait : 1≤waitEx (p.cycle t).tracked := waitEx_pos _
  have hnext := (issueCycle_wait hp t).1
  change t < issueCycle p (issued p (t+1))
  omega

/-- MEM keeps it a cycle later. -/
theorem mem_onSchedule : OnSchedule (fun n => issueCycle p n+1) (memFilled p) :=
  (ex_onSchedule hp).shift rfl memFilled_succ

/-- WB keeps it two cycles later. -/
theorem wb_onSchedule : OnSchedule (fun n => issueCycle p n+1+1) (wbFilled p) :=
  (mem_onSchedule hp).shift rfl (wbFilled_succ hp)

/-- An instruction accesses memory, writes and retires when it is due. -/
theorem cycle_due (n : ℕ) :
    coreRequests p (issueCycle p n+1)=machineRequests p n ∧
      coreWrites p (issueCycle p n+2)=machineWrites p n ∧
      coreRetires p (issueCycle p n+2)=[(p.machine n).pc] := by
  have hmem := mem_onSchedule hp
  have hwb := wb_onSchedule hp
  have hmemNow : memFilled p (issueCycle p n+1)=true := (hmem.happens_iff _).mpr ⟨n,rfl⟩
  have hwbNow : wbFilled p (issueCycle p n+2)=true := (hwb.happens_iff _).mpr ⟨n,rfl⟩
  have haccessed : accessed p (issueCycle p n+1)=n := hmem.tally_due n
  have hretired : retired p (issueCycle p n+2)=n := hwb.tally_due n
  rw [coreRequests_eq hp,coreWrites_eq hp,coreRetires_eq hp,hmemNow,hwbNow,haccessed,hretired]
  exact ⟨rfl,rfl,rfl⟩

/-- In a cycle in which nothing is due nothing happens. -/
theorem cycle_idle (t : ℕ) :
    ((∀ n,t≠issueCycle p n+1) → coreRequests p t=[]) ∧
      ((∀ n,t≠issueCycle p n+2) → coreWrites p t=[] ∧ coreRetires p t=[]) := by
  refine ⟨fun hnot => ?_,fun hnot => ?_⟩
  · have hidle : memFilled p t=false := Bool.eq_false_of_not_eq_true fun hnow => by
      obtain ⟨n,hn⟩ := ((mem_onSchedule hp).happens_iff t).mp hnow
      exact hnot n hn.symm
    rw [coreRequests_eq hp,hidle]
    rfl
  · have hidle : wbFilled p t=false := Bool.eq_false_of_not_eq_true fun hnow => by
      obtain ⟨n,hn⟩ := ((wb_onSchedule hp).happens_iff t).mp hnow
      exact hnot n hn.symm
    rw [coreWrites_eq hp,coreRetires_eq hp,hidle]
    exact ⟨rfl,rfl⟩

end Run

section Programs

variable {M : Type} (p : Setup M)

/-- For every program of plain instructions, data device and initial memory,
instruction `n` of the sequential machine issues its data-memory request in
cycle `issueCycle n+1` and retires with its register write in cycle
`issueCycle n+2`; in every other cycle the core issues, writes and retires
nothing. The issue cycle is 2 plus the number of earlier instructions, twice
the number of them that transfer control and the number of them that are
loads with their destination among the source fields of the next. -/
theorem pipeline_cycle_exact (h : ∀ n,Plain p n) :
    (∀ n,issueCycle p n=2+n+2*tally (taken p) n+tally (loadUse p) n) ∧
    (∀ n,coreRequests p (issueCycle p n+1)=machineRequests p n ∧
      coreWrites p (issueCycle p n+2)=machineWrites p n ∧
      coreRetires p (issueCycle p n+2)=[(p.machine n).pc]) ∧
    ∀ t,((∀ n,t≠issueCycle p n+1) → coreRequests p t=[]) ∧
      ((∀ n,t≠issueCycle p n+2) → coreWrites p t=[] ∧ coreRetires p t=[]) := by
  have hp := regular_of_plain p h
  exact ⟨issueCycle_eq p,cycle_due hp,cycle_idle hp⟩

end Programs

/-- In the loop ADDI x1,x0,7; ADDI x2,x1,1; JAL x0,-8 the fifth instruction is
in EX in cycle 8, since the jump costs two cycles more, and retires in cycle
10. -/
theorem pipeline_cycle_loop :
    let p := programSetup [0x00700093,0x00108113,0xff9ff06f]
    issueCycle p 4=8 ∧ coreRetires p 10=[0x80000004] := by
  intro p
  have hplain : ∀ n,Plain p n := fun n => plainWord_plain _ n
    (loadProgram_all plainWord resetPc _ (by decide +kernel) (by decide +kernel) _)
  have hcycle : issueCycle p 4=8 := by decide +kernel
  have hretires := ((pipeline_cycle_exact p hplain).2.1 4).2.2
  rw [hcycle] at hretires
  exact ⟨hcycle,hretires.trans (by decide +kernel)⟩

end RichardCore.Timing
