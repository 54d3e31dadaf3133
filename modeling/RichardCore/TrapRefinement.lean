import RichardCore.Timing
import RichardCore.TrapSimulation

/-!
# The pipeline refines the machine with traps

Runs of the closed loop with the interrupt lines low, through exceptions,
handlers and returns. The register writes, the data-memory requests and the
committed addresses of the core are initial segments of the machine's, the
CSR file is the machine's up to the counters, and the cycle of every
instruction is read off the machine: a flush costs four cycles.
-/

namespace RichardCore.TrapRefinement

open Packages Decoder Execute DataMemory CsrUnit TrapCtrl Hazard Pipeline Clocked Tracking
open ProgramOrder Effects Harness SequentialMachine Agreement Simulation TrapMachine
open TrapSimulation

section Runs

variable {M : Type} (p : Setup M)

/-- WB holds an instruction of the machine in cycle `t`. -/
def wbNow (t : ℕ) : Bool := live (p.cycle t).tracked.tags.wb

/-- Instructions that have passed WB before cycle `t`. -/
def committed (t : ℕ) : ℕ := tally (wbNow p) t

/-- MEM holds an instruction of the machine in cycle `t`. -/
def memNow (t : ℕ) : Bool := memLive p (p.cycle t).tracked.tags (committed p t)

/-- EX holds an instruction of the machine in cycle `t`. -/
def exNow (t : ℕ) : Bool :=
  filled (p.cycle t).tracked.tags.ex && !flushAhead p (p.cycle t).tracked.tags (committed p t)

/-- Instructions that have passed MEM before cycle `t`. -/
def stored (t : ℕ) : ℕ := tally (memNow p) t

/-- Instructions that have passed EX before cycle `t`. -/
def begun (t : ℕ) : ℕ := tally (exNow p) t

/-- The reset state simulates the start of the machine. -/
theorem trapSimulates_reset : TrapSimulates p (p.cycle 0) 0 :=
  ⟨slotsOk_reset 0,inOrder_reset 0,rfl,rfl,rfl,rfl,fun _ h => (nomatch h),
    fun _ => (slotsOk_reset 0).wb.2,fun _ h => (nomatch h),fun _ => (slotsOk_reset 0).mem.2,
    fun _ h => (nomatch h),fun _ h => (nomatch h),fun _ h => (nomatch h),fun _ h => (nomatch h),
    fun _ h => (nomatch h)⟩

variable {p} (hp : TrapRegular p)

include hp

/-- Every cycle simulates the machine after the committed instructions. -/
theorem trapSimulates_run (t : ℕ) : TrapSimulates p (p.cycle t) (committed p t) := by
  induction t with
  | zero => exact trapSimulates_reset p
  | succ t ih => exact trapSimulates_step ih hp

/-- MEM moves to WB. -/
theorem wbNow_succ (t : ℕ) : wbNow p (t+1)=memNow p t := (trapSimulates_run hp t).wb_step

/-- EX moves to MEM. -/
theorem memNow_succ (t : ℕ) : memNow p (t+1)=exNow p t := (trapSimulates_run hp t).mem_step

/-- The instruction in MEM is the next one to access memory. -/
theorem memAt_eq (t : ℕ) : memAt (p.cycle t).tracked.tags (committed p t)=stored p t :=
  tally_shift rfl (wbNow_succ hp) t

/-- The instruction in EX is the next one to begin. -/
theorem exAt_eq (t : ℕ) : exAt p (p.cycle t).tracked.tags (committed p t)=begun p t := by
  unfold exAt
  rw [memAt_eq hp]
  exact tally_shift rfl (memNow_succ hp) t

end Runs

section Logs

open Refinement

variable {M : Type} (p : Setup M)

/-- Register writes of an instruction. -/
def writesAt (n : ℕ) : List (RegAddr × Word) :=
  writeEvent (wbOf (completedAt p n) (stateAt p n).csr)

/-- Data-memory requests of an instruction. -/
def requestsAt (n : ℕ) : List DmemReq := requestEvent (dmemRequest (executedAt p n))

/-- Address of the instruction that the core commits in a cycle. -/
def coreCommits (t : ℕ) : List Word :=
  match (p.cycle t).tracked.tags.wb with
  | .bubble _ => []
  | .instr k => if k.survivor then [] else [k.pc]

/-- Address of an instruction. -/
def commitsAt (n : ℕ) : List Word := [(stateAt p n).pc]

variable {p} (hp : TrapRegular p)

include hp

/-- A cycle commits the writes of the next instruction or nothing. -/
theorem coreWrites_now (t : ℕ) :
    coreWrites p t=if wbNow p t then writesAt p (committed p t) else [] := by
  have h := trapSimulates_run hp t
  cases hlive : wbNow p t with
  | false => exact inert_write (h.wbIdle hlive)
  | true =>
    obtain ⟨k,hk,hsurvivor⟩ := live_instr hlive
    obtain ⟨-,hagrees⟩ := h.wb k hk hsurvivor
    exact agreesWb_writeEvent hagrees.toAgreesWb h.csr (hp.counterUnread (committed p t))

/-- A cycle issues the request of the next instruction or nothing. -/
theorem coreRequests_now (t : ℕ) :
    coreRequests p t=if memNow p t then requestsAt p (stored p t) else [] := by
  have h := trapSimulates_run hp t
  cases hlive : memNow p t with
  | false =>
    have hidle := (h.memIdle hlive).mem
    unfold coreRequests
    simp only [requestEvent,Sys.request,dmemRequest,hidle.1,hidle.2]
    rfl
  | true =>
    obtain ⟨k,hk,-⟩ := memLive_instr p hlive
    obtain ⟨-,hagrees,-⟩ := h.mem k hk hlive
    rw [memAt_eq hp] at hagrees
    have hlegal := executedAt_accessLegal p (stored p t)
    obtain ⟨hread,hwrite⟩ := hagrees.enables hlegal
    change requestEvent (dmemRequest (p.cycle t).tracked.core.exMem)=
      requestEvent (dmemRequest (executedAt p (stored p t)))
    unfold requestEvent
    rw [hread,hwrite]
    split
    · rename_i hcond
      have haccess : (executedAt p (stored p t)).mem.isLoad=true ∨
          (executedAt p (stored p t)).mem.isStore=true := by
        simp only [dmemRequest,Bool.or_eq_true,Bool.and_eq_true] at hcond
        exact hcond.imp (fun hl => hl.1) fun hs => hs.1
      rw [hagrees.request hlegal haccess]
    · rfl

/-- A cycle commits the next instruction or nothing. -/
theorem coreCommits_now (t : ℕ) :
    coreCommits p t=if wbNow p t then commitsAt p (committed p t) else [] := by
  have h := trapSimulates_run hp t
  have horder := h.order.wb
  unfold coreCommits wbNow
  cases hslot : (p.cycle t).tracked.tags.wb with
  | bubble b => rfl
  | instr k =>
    rw [hslot] at horder
    cases hsurvivor : k.survivor with
    | true => simp only [live,hsurvivor,if_true,Bool.not_true,Bool.false_eq_true,if_false]
    | false =>
      have hpc : k.pc=(stateAt p (committed p t)).pc := Eq.trans (horder hsurvivor) h.nextPc
      simp only [live,hsurvivor,Bool.false_eq_true,if_false,Bool.not_false,if_true,commitsAt,hpc]

end Logs

section Schedule

variable {M : Type} (p : Setup M)

/-- Instruction `n` leaves the sequential path. -/
def takenAt (n : ℕ) : Bool := (executedAt p n).branchTaken

/-- Instruction `n` is a load whose destination is a source field of the next
instruction, used or not. -/
def loadUseAt (n : ℕ) : Bool :=
  loadUseStall (decodedAt p n).ctrl.mem.isLoad (decodedAt p n).ctrl.wb.rdAddr
    (decodedAt p (n+1)).ctrl.rs1Addr (decodedAt p (n+1)).ctrl.rs2Addr

/-- Cycles from instruction `n` to its successor: four more for a flush. -/
def costAt (n : ℕ) : ℕ :=
  if flushesAt p n then 5 else 1+2*(takenAt p n).toNat+(loadUseAt p n).toNat

/-- Cycle in which instruction `n` is in EX. -/
def issueAt : ℕ → ℕ
  | 0 => 2
  | n+1 => issueAt n+costAt p n

/-- Instructions follow each other at distance one at least. -/
theorem issueAt_succ (n : ℕ) : issueAt p n < issueAt p (n+1) := by
  have hcost : 0 < costAt p n := by
    unfold costAt
    split <;> omega
  rw [issueAt]
  omega

/-- Later instructions issue later. -/
theorem issueAt_lt {m n : ℕ} (h : m < n) : issueAt p m < issueAt p n := by
  induction n with
  | zero => cases h
  | succ n ih =>
    obtain heq | hlt := Nat.eq_or_lt_of_le (Nat.le_of_lt_succ h)
    · exact heq ▸ issueAt_succ p m
    · exact Nat.lt_trans (ih hlt) (issueAt_succ p n)

/-- A load does not leave the sequential path. -/
theorem takenAt_notLoad (n : ℕ) (h : takenAt p n=true) :
    (decodedAt p n).ctrl.mem.isLoad=false := by
  refine Bool.eq_false_of_not_eq_true fun hload => ?_
  have hexec := (decoder_access _ _ (.inl hload)).2.2.1
  have htaken : ((decodedAt p n).ctrl.exec.isJump ||
      ((decodedAt p n).ctrl.exec.isBranch && _))=true := h
  change (decodedAt p n).ctrl.exec=_ at hexec
  rw [hexec] at htaken
  cases htaken

/-- Cycles until EX holds a new instruction of the machine. A flush counts
from where its instruction stands. -/
def waitFor (x : Tracked) (n : ℕ) : ℕ :=
  if wbFlushes p x.tags n then 3
  else if memFlushes p x.tags n then 4
  else if filled x.tags.ex && flushesAt p (exAt p x.tags n) then 5
  else Refinement.waitEx x

/-- The wait is at least a cycle. -/
theorem waitFor_pos (x : Tracked) (n : ℕ) : 1≤waitFor p x n := by
  have hwait := Timing.waitEx_pos x
  unfold waitFor
  split
  · omega
  · split
    · omega
    · split <;> omega

variable {p} {y : Sys M} {n : ℕ} (h : TrapSimulates p y n)

include h

/-- One edge either brings an instruction of the machine into EX or brings
the next one a cycle closer. -/
theorem waitFor_step :
    let y' := sysStep p.imem p.dev y .low
    let n' := memAt y.tracked.tags n
    ((filled y'.tracked.tags.ex && !flushAhead p y'.tracked.tags n')=true ∧
      waitFor p y.tracked n=1) ∨
    ((filled y'.tracked.tags.ex && !flushAhead p y'.tracked.tags n')=false ∧
      waitFor p y'.tracked n'+1=waitFor p y.tracked n) := by
  intro y' n'
  have hwb' : wbFlushes p y'.tracked.tags n'=memFlushes p y.tracked.tags n := h.wbFlushes_step
  have hmem' : memFlushes p y'.tracked.tags n'=
      ((filled y.tracked.tags.ex && !flushAhead p y.tracked.tags n) &&
        flushesAt p (exAt p y.tracked.tags n)) := by
    conv_lhs => unfold memFlushes
    rw [h.mem_step,h.memAt_step]
  have hslots := (inOrder_step y.tracked (y.inputs p.imem p.dev .low) ⟨h.slots,h.order⟩).1
  have hflushEq : flushWire y.tracked.core (y.inputs p.imem p.dev .low).irq=_ := h.flush_eq
  cases hwb : wbFlushes p y.tracked.tags n with
  | true =>
    -- the flush empties everything in front of the handler
    have hahead : flushAhead p y.tracked.tags n=true := by
      unfold flushAhead
      rw [hwb]
      rfl
    have hmemNo : memFlushes p y.tracked.tags n=false := by
      unfold memFlushes memLive
      rw [hwb,Bool.not_true,Bool.and_false]
      rfl
    have hex : y'.tracked.tags.ex=_ :=
      tagStep_ex y.tracked.core y.tracked.tags (y.inputs p.imem p.dev .low) rfl
    have hid : y'.tracked.tags.id=_ :=
      tagStep_id y.tracked.core y.tracked.tags (y.inputs p.imem p.dev .low) rfl
    rw [hflushEq,hwb,Bool.true_or] at hid
    rw [hflushEq,hwb,Bool.true_or,Bool.true_or] at hex
    rw [hahead,Bool.not_true,Bool.and_false,Bool.false_and] at hmem'
    right
    rw [hex]
    refine ⟨rfl,?_⟩
    unfold waitFor
    rw [hwb',hmemNo,hmem',hwb,hex]
    have hempty : Refinement.waitEx y'.tracked=_ := Refinement.waitEx_bubble hslots hex
    rw [hempty,hid]
    rfl
  | false =>
    cases hmem : memFlushes p y.tracked.tags n with
    | true =>
      -- the flush moves from MEM to WB
      rw [hmem] at hwb'
      right
      refine ⟨?_,?_⟩
      · unfold flushAhead
        rw [hwb',Bool.true_or,Bool.not_true,Bool.and_false]
      · unfold waitFor
        rw [hwb',hwb,hmem]
        rfl
    | false =>
      have hahead : flushAhead p y.tracked.tags n=false := by
        unfold flushAhead
        rw [hwb,hmem]
        rfl
      rw [hmem] at hwb'
      rw [hahead,Bool.not_false,Bool.and_true] at hmem'
      cases hflush : (filled y.tracked.tags.ex && flushesAt p (exAt p y.tracked.tags n)) with
      | true =>
        -- the flush moves from EX to MEM
        rw [hflush] at hmem'
        right
        refine ⟨?_,?_⟩
        · unfold flushAhead
          rw [hmem',Bool.or_true,Bool.not_true,Bool.and_false]
        · unfold waitFor
          rw [hwb',hmem',hwb,hmem,hflush]
          rfl
      | false =>
        rw [hflush] at hmem'
        have hahead' : flushAhead p y'.tracked.tags n'=false := by
          unfold flushAhead
          rw [hwb',hmem']
          rfl
        have hwait : waitFor p y.tracked n=Refinement.waitEx y.tracked := by
          unfold waitFor
          rw [hwb,hmem,hflush]
          rfl
        rw [hahead',Bool.not_false,Bool.and_true,hwait]
        obtain ⟨hfilled,hone,-⟩ | ⟨hempty,hcloser⟩ :=
          Refinement.waitEx_step h.slots h.order rfl (hflushEq.trans hwb)
        · exact .inl ⟨hfilled,hone⟩
        · right
          refine ⟨hempty,?_⟩
          rw [←hcloser]
          unfold waitFor
          rw [hwb',hmem',show filled y'.tracked.tags.ex=false from hempty]
          rfl

variable (hp : TrapRegular p) (hquiet : flushAhead p y.tracked.tags n=false)

include hp hquiet

/-- A branch in EX is taken when the machine takes it. -/
theorem takenWire_at {k : Issued} (hk : y.tracked.tags.ex=.instr k) :
    takenWire y.tracked.core=takenAt p (exAt p y.tracked.tags n) :=
  (h.exOut hp hquiet hk).1

/-- Behind an instruction that stays on the sequential path and does not
flush, ID holds its successor. -/
theorem id_successorAt {k : Issued} (hk : y.tracked.tags.ex=.instr k)
    (htaken : takenWire y.tracked.core=false)
    (hflush : flushesAt p (exAt p y.tracked.tags n)=false) :
    filled y.tracked.tags.id=true ∧
      idWires y.tracked.core=(decodedAt p (exAt p y.tracked.tags n+1)).ctrl := by
  have hfront := h.order.front
  have hnext := (h.exNext hp hquiet hk).1
  unfold FrontEnd at hfront
  cases hid : y.tracked.tags.id with
  | bubble b =>
    rw [hid] at hfront
    obtain ⟨-,-,e,he⟩ := hfront
    rw [hk] at he
    cases he
  | instr f =>
    rw [hid] at hfront
    obtain htakenNow | ⟨hpc,-⟩ := hfront
    · rw [htaken] at htakenNow
      cases htakenNow
    · have hslot := h.slots.id
      rw [hid] at hslot
      have hifId : y.tracked.core.ifId=⟨f.pc,f.word⟩ := hslot
      have hafter : afterEx y.tracked=(stateAt p (exAt p y.tracked.tags n+1)).pc := by
        rw [stateAt_pc,hflush,if_neg (by decide),←hnext]
        unfold afterEx
        rw [hk]
        rfl
      refine ⟨rfl,?_⟩
      change decoder y.tracked.core.ifId.instr y.tracked.core.csr.privMode.bits=
        decoder (p.imem (stateAt p _).pc) (stateAt p _).csr.privMode.bits
      rw [hifId,stateAt_privMode p hflush,h.mode_ex hquiet]
      change decoder f.word _=_
      rw [h.id f hid,hpc,hafter]

/-- While EX holds an instruction of the machine, the wait for the next one is
its cost. -/
theorem waitFor_filled (hfilled : filled y.tracked.tags.ex=true) :
    waitFor p y.tracked n=costAt p (exAt p y.tracked.tags n) := by
  have hboth := hquiet
  unfold flushAhead at hboth
  rw [Bool.or_eq_false_iff] at hboth
  cases hslot : y.tracked.tags.ex with
  | bubble b =>
    rw [hslot] at hfilled
    cases hfilled
  | instr k =>
    unfold waitFor costAt
    rw [hboth.1,hboth.2,hfilled]
    cases hflush : flushesAt p (exAt p y.tracked.tags n) with
    | true => rfl
    | false =>
      have htaken := takenWire_at h hp hquiet hslot
      simp only [Bool.false_eq_true,if_false,Bool.and_false]
      unfold Refinement.waitEx
      rw [htaken]
      cases hnow : takenAt p (exAt p y.tracked.tags n) with
      | true =>
        have hload := takenAt_notLoad p _ hnow
        simp [loadUseAt,loadUseStall,hload]
      | false =>
        obtain ⟨hid,hdecoded⟩ := id_successorAt h hp hquiet hslot (htaken.trans hnow) hflush
        obtain ⟨-,-,-,hctrl⟩ := h.ex_decoded hslot hquiet
        have hstall : loadUseWire y.tracked.core=loadUseAt p (exAt p y.tracked.tags n) := by
          unfold loadUseWire loadUseAt
          rw [hdecoded,hctrl]
        rw [hstall,hid]
        cases loadUseAt p (exAt p y.tracked.tags n) <;> rfl

end Schedule

section Timed

variable {M : Type} {p : Setup M} (hp : TrapRegular p)

include hp

/-- The next instruction to enter EX does so after the wait. -/
theorem issueAt_wait (t : ℕ) :
    issueAt p (begun p (t+1))=t+waitFor p (p.cycle t).tracked (committed p t) ∧
      (exNow p t=true → issueAt p (begun p t)=t) := by
  induction t with
  | zero => exact ⟨rfl,fun h => by cases h⟩
  | succ t ih =>
    obtain ⟨hnext,-⟩ := ih
    have hbegun : begun p (t+1+1)=begun p (t+1)+(exNow p (t+1)).toNat := rfl
    obtain ⟨hnow,hone⟩ | ⟨hidle,hcloser⟩ := waitFor_step (trapSimulates_run hp t)
    · have hex : exNow p (t+1)=true := hnow
      have hparts := hex
      unfold exNow at hparts
      rw [Bool.and_eq_true,Bool.not_eq_true'] at hparts
      have hcost := waitFor_filled (trapSimulates_run hp (t+1)) hp hparts.2 hparts.1
      rw [hone] at hnext
      rw [exAt_eq hp] at hcost
      rw [hbegun,hex]
      refine ⟨?_,fun _ => hnext⟩
      change issueAt p (begun p (t+1))+costAt p (begun p (t+1))=_
      rw [hnext,hcost]
    · have hex : exNow p (t+1)=false := hidle
      have hstep : waitFor p (p.cycle (t+1)).tracked (committed p (t+1))+1=
          waitFor p (p.cycle t).tracked (committed p t) := hcloser
      rw [hbegun,hex]
      refine ⟨?_,fun hno => by cases hno⟩
      change issueAt p (begun p (t+1))=_
      omega

/-- EX keeps the schedule of the machine. -/
theorem ex_keeps : OnSchedule (issueAt p) (exNow p) := by
  refine ⟨fun m n hlt => issueAt_lt p hlt,fun t => (issueAt_wait hp t).2,fun t => ?_⟩
  have hwait := waitFor_pos p (p.cycle t).tracked (committed p t)
  have hnext := (issueAt_wait hp t).1
  change t < issueAt p (begun p (t+1))
  omega

/-- MEM keeps it a cycle later. -/
theorem mem_keeps : OnSchedule (fun n => issueAt p n+1) (memNow p) :=
  (ex_keeps hp).shift rfl (memNow_succ hp)

/-- WB keeps it two cycles later. -/
theorem wb_keeps : OnSchedule (fun n => issueAt p n+1+1) (wbNow p) :=
  (mem_keeps hp).shift rfl (wbNow_succ hp)

/-- An instruction accesses memory, writes and commits when it is due. -/
theorem due_now (n : ℕ) :
    Refinement.coreRequests p (issueAt p n+1)=requestsAt p n ∧
      Refinement.coreWrites p (issueAt p n+2)=writesAt p n ∧
      coreCommits p (issueAt p n+2)=commitsAt p n := by
  have hmem := mem_keeps hp
  have hwb := wb_keeps hp
  have hmemNow : memNow p (issueAt p n+1)=true := (hmem.happens_iff _).mpr ⟨n,rfl⟩
  have hwbNow : wbNow p (issueAt p n+2)=true := (hwb.happens_iff _).mpr ⟨n,rfl⟩
  have hstored : stored p (issueAt p n+1)=n := hmem.tally_due n
  have hcommitted : committed p (issueAt p n+2)=n := hwb.tally_due n
  rw [coreRequests_now hp,coreWrites_now hp,coreCommits_now hp,hmemNow,hwbNow,hstored,hcommitted]
  exact ⟨rfl,rfl,rfl⟩

/-- In a cycle in which nothing is due nothing happens. -/
theorem idle_now (t : ℕ) :
    ((∀ n,t≠issueAt p n+1) → Refinement.coreRequests p t=[]) ∧
      ((∀ n,t≠issueAt p n+2) → Refinement.coreWrites p t=[] ∧ coreCommits p t=[]) := by
  refine ⟨fun hnot => ?_,fun hnot => ?_⟩
  · have hidle : memNow p t=false := Bool.eq_false_of_not_eq_true fun hnow => by
      obtain ⟨n,hn⟩ := ((mem_keeps hp).happens_iff t).mp hnow
      exact hnot n hn.symm
    rw [coreRequests_now hp,hidle]
    rfl
  · have hidle : wbNow p t=false := Bool.eq_false_of_not_eq_true fun hnow => by
      obtain ⟨n,hn⟩ := ((wb_keeps hp).happens_iff t).mp hnow
      exact hnot n hn.symm
    rw [coreWrites_now hp,coreCommits_now hp,hidle]
    exact ⟨rfl,rfl⟩

omit hp in
/-- The cycle counts the instructions, four times the flushes, twice the
transfers and the stalls before it. -/
theorem issueAt_eq (n : ℕ) :
    issueAt p n=2+n+4*tally (flushesAt p) n+2*tally (takenAt p) n+
      tally (fun m => !flushesAt p m && loadUseAt p m) n := by
  induction n with
  | zero => rfl
  | succ n ih =>
    rw [issueAt,ih,costAt,tally,tally,tally]
    cases hflush : flushesAt p n with
    | true =>
      have hnot : takenAt p n=false := flushesAt_notTaken p hflush
      rw [hnot]
      simp only [if_true,Bool.not_true,Bool.false_and,Bool.toNat_true,Bool.toNat_false]
      omega
    | false =>
      simp only [Bool.false_eq_true,if_false,Bool.not_false,Bool.true_and,Bool.toNat_false]
      omega

end Timed

/-- ECALL at the reset address, MRET at the reset value of the trap vector,
NOPs elsewhere: the two go round for ever. -/
def callAndReturn (pc : Word) : BitVec 32 :=
  if pc=resetPc then 0x00000073 else if pc=0 then 0x30200073 else nopInstr

section CallAndReturn

variable {M : Type} (dev : DataDevice M) (memory : M)

/-- None of the words accesses a CSR. -/
theorem callAndReturn_isCsr (pc : Word) (mode : PrivMode) :
    (decoder (callAndReturn pc) mode.bits).sys.isCsr=false := by
  unfold callAndReturn
  split
  · cases mode <;> rfl
  · split <;> cases mode <;> rfl

/-- A NOP flushes nothing. -/
theorem nop_quiet {p : Setup M} {n : ℕ} (h : p.imem (stateAt p n).pc=nopInstr) :
    flushesAt p n=false := by
  have hinert : InertMem (executedAt p n) := by
    have hctrl : (decodedAt p n).ctrl=decoder nopInstr (stateAt p n).csr.privMode.bits := by
      rw [←h]
      rfl
    obtain ⟨-,-,hmem,hwb,hsys⟩ := decoder_nop_inert (stateAt p n).csr.privMode
    rw [←hctrl] at hmem hwb hsys
    exact ⟨hmem,hwb,hsys⟩
  exact trapOf_inert (memStage_inert hinert _) _

/-- A NOP is a word without effect. -/
theorem nop_harmless (mode : PrivMode) : Harmless (decoder nopInstr mode.bits) :=
  ⟨(decoder_nop_inert mode).mem,(decoder_nop_inert mode).wb,(decoder_nop_inert mode).sys⟩

/-- The pipeline runs the two like the machine, on any memory. -/
theorem callAndReturn_regular : TrapRegular ⟨callAndReturn,dev,memory⟩ := by
  generalize hp : (⟨callAndReturn,dev,memory⟩ : Setup M)=p
  have himem : p.imem=callAndReturn := by rw [←hp]
  have hcsr : ∀ n,(completedAt p n).isCsr=false := by
    intro n
    change (decoder (p.imem (stateAt p n).pc) (stateAt p n).csr.privMode.bits).sys.isCsr=false
    rw [himem]
    exact callAndReturn_isCsr _ _
  refine ⟨fun n h => ?_,fun n _ h => ?_,fun n hflush => ?_⟩
  · rw [hcsr] at h
    cases h
  · rw [hcsr] at h
    cases h
  · have hplace : (stateAt p n).pc=resetPc ∨ (stateAt p n).pc=0 := by
      by_cases hreset : (stateAt p n).pc=resetPc
      · exact .inl hreset
      · by_cases hzero : (stateAt p n).pc=0
        · exact .inr hzero
        · have hnop := nop_quiet (p := p) (n := n) (by
            rw [himem]
            exact (if_neg hreset).trans (if_neg hzero))
          rw [hflush] at hnop
          cases hnop
    have hwords : p.imem ((stateAt p n).pc+4)=nopInstr ∧
        p.imem ((stateAt p n).pc+4+4)=nopInstr := by
      rw [himem]
      obtain hpc | hpc := hplace <;> rw [hpc] <;> decide
    unfold Guarded
    rw [hwords.1,hwords.2]
    exact ⟨nop_harmless _,nop_harmless _⟩

end CallAndReturn

section Programs

open Refinement

variable {M : Type}

/-- For every program that puts two words without effect behind each
exception and return, reads no counter and does not use a CSR result in the
next instruction, every data device and initial memory, at every cycle: the
register writes, data-memory requests and commits so far are those of the
machine with traps, and register file, CSR file up to the counters, privilege
mode included, and data memory are the machine's. -/
theorem pipeline_refines_traps (p : Setup M) (hp : TrapRegular p) (t : ℕ) :
    eventLog (coreWrites p) t=eventLog (writesAt p) (committed p t) ∧
    eventLog (coreRequests p) t=eventLog (requestsAt p) (stored p t) ∧
    eventLog (coreCommits p) t=eventLog (commitsAt p) (committed p t) ∧
    (p.cycle t).tracked.core.regs=(stateAt p (committed p t)).regs ∧
    eraseCounters (p.cycle t).tracked.core.csr=eraseCounters (stateAt p (committed p t)).csr ∧
    (p.cycle t).memory=(stateAt p (stored p t)).memory ∧
    (∀ n,n < committed p t ↔ issueAt p n+2 < t) ∧
    ∀ n,n < stored p t ↔ issueAt p n+1 < t := by
  have h := trapSimulates_run hp t
  have hmemory := h.memory
  rw [memAt_eq hp] at hmemory
  exact ⟨eventLog_tally (coreWrites_now hp) t,eventLog_tally (coreRequests_now hp) t,
    eventLog_tally (coreCommits_now hp) t,h.regs,h.csr,hmemory,
    fun n => (wb_keeps hp).lt_tally n t,fun n => (mem_keeps hp).lt_tally n t⟩

/-- Twenty cycles commit ECALL and MRET twice. -/
theorem pipeline_refines_callAndReturn :
    eventLog (coreCommits ⟨callAndReturn,byteDevice,fun _ => 0⟩) 20=
      [0x80000000,0,0x80000000,0] := by
  rw [(pipeline_refines_traps _ (callAndReturn_regular byteDevice fun _ => 0) 20).2.2.1]
  decide +kernel

/-- For such programs instruction `n` of the machine with traps issues its
request exactly in cycle `issueAt n+1` and commits with its register write
exactly in cycle `issueAt n+2`; in every other cycle the core does nothing.
The issue cycle is 2 plus the earlier instructions, four times those that
flush, twice those that transfer control and once those that are loads in
front of a user of their result. -/
theorem trap_cycle_exact (p : Setup M) (hp : TrapRegular p) :
    (∀ n,issueAt p n=2+n+4*tally (flushesAt p) n+2*tally (takenAt p) n+
      tally (fun m => !flushesAt p m && loadUseAt p m) n) ∧
    (∀ n,coreRequests p (issueAt p n+1)=requestsAt p n ∧
      coreWrites p (issueAt p n+2)=writesAt p n ∧
      coreCommits p (issueAt p n+2)=[(stateAt p n).pc]) ∧
    ∀ t,((∀ n,t≠issueAt p n+1) → coreRequests p t=[]) ∧
      ((∀ n,t≠issueAt p n+2) → coreWrites p t=[] ∧ coreCommits p t=[]) :=
  ⟨issueAt_eq,due_now hp,idle_now hp⟩

/-- The first MRET commits in cycle 9. -/
theorem trap_cycle_callAndReturn :
    coreCommits ⟨callAndReturn,byteDevice,fun _ => 0⟩ 9=[0] := by
  have hcycle : issueAt ⟨callAndReturn,byteDevice,fun _ => 0⟩ 1=7 := by decide +kernel
  have hcommit := ((trap_cycle_exact _ (callAndReturn_regular byteDevice fun _ => 0)).2.1 1).2.2
  rw [hcycle] at hcommit
  exact hcommit.trans (by decide +kernel)

end Programs

end RichardCore.TrapRefinement
