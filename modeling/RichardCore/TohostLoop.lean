import RichardCore.ElfLoader
import RichardCore.IsaRefinement

/-!
# The test loop of the compliance runner

After each tick the runner looks at the write pins: when a store may have
reached the result word, it reads the word, and stops at the values one and
three. Looking at stores only is enough: for every program the loop stops at
the first tick after which the word holds a result. For programs of the base
instruction set this is the first result of the reference machine, if the
instruction that writes it is issued before the cycle limit.
-/

namespace RichardCore.TohostLoop

open Packages DataMemory ElfLoader Pipeline Clocked Harness Simulation Refinement IsaMachine
open Isa IsaRefinement Timing TestBench StoreLoad Datapath

/-- The doubleword from an address reaches the result word. -/
def overlapsTohost (tohost addr : Word) : Bool :=
  decide (addr.toNat≤(tohost+3).toNat) && decide (tohost.toNat≤(addr+7).toNat)

/-- The result word. -/
def status (tohost : Word) (memory : ByteMemory) : BitVec 32 :=
  (readU64 memory tohost).setWidth 32

/-- Verdict of a result word: one is a pass, three a failure. -/
def wordVerdict (status : BitVec 32) : Option Bool :=
  if status=1 then some true else if status=3 then some false else none

/-- Verdict after a tick. -/
def verdictAt (tohost : Word) (top : TestBench.Top ByteMemory) : Option Bool :=
  let r := dmemRequest top.core.exMem
  if r.writeEn=true ∧ tohost≠0 ∧ overlapsTohost tohost r.addr=true then
    wordVerdict (status tohost top.memory)
  else none

/-- Ticks until a verdict, at most `maxCycles` of them. -/
def testLoop (tohost : Word) (maxCycles : ℕ) (top : TestBench.Top ByteMemory) :
    Option Bool × TestBench.Top ByteMemory :=
  poll (tick runnerBench false .low) (verdictAt tohost) maxCycles top

/-- The result word is an address whose neighbourhood does not wrap. -/
def Placed (tohost : Word) : Prop := 7≤tohost.toNat ∧ tohost.toNat+10 < 2^64

section Stores

/-- A store of any size and alignment changes only the eight bytes from its
address. -/
theorem writeLanes_frame (memory : ByteMemory) (addr wdata : Word) {count : ℕ} (hcount : count≤8)
    {a : Word} (h : 8≤(a-addr).toNat) : writeLanes memory addr wdata count a=memory a := by
  induction count with
  | zero => rfl
  | succ count ih =>
    have hpos : alignDown addr+BitVec.ofNat 64 (addr.toNat%8+count)=addr+BitVec.ofNat 64 count := by
      rw [BitVec.ofNat_add,←BitVec.add_assoc,alignDown_add]
    have hother : a≠addr+BitVec.ofNat 64 count := by
      rintro rfl
      rw [offset_toNat addr (by omega)] at h
      omega
    unfold writeLanes
    dsimp only
    rw [lane_toNat,hpos,writeByte,if_neg hother]
    exact ih (by omega)

/-- Stores select at most eight bytes. -/
theorem storeBytes_le (size : BitVec 3) : storeBytes size≤8 := by
  unfold storeBytes
  split <;> decide

/-- The result word depends on its four bytes. -/
theorem status_congr {tohost : Word} {memory memory' : ByteMemory}
    (h : ∀ i < 4,memory (tohost+BitVec.ofNat 64 i)=memory' (tohost+BitVec.ofNat 64 i)) :
    status tohost memory=status tohost memory' := by
  unfold status
  apply BitVec.eq_of_getLsbD_eq
  intro j hj
  have hwide : j < 8*8 := by omega
  rw [BitVec.getLsbD_setWidth,BitVec.getLsbD_setWidth,readU64,readU64,
    getLsbD_readBytes _ _ _ _ _ hwide,getLsbD_readBytes _ _ _ _ _ hwide,h (j/8) (by omega)]

/-- A store that does not pass the runner's test leaves the result word. -/
theorem status_frame {tohost : Word} (hplaced : Placed tohost) (memory : ByteMemory) (r : DmemReq)
    (h : ¬(r.writeEn=true ∧ tohost≠0 ∧ overlapsTohost tohost r.addr=true)) :
    status tohost (byteDevice.edge memory r)=status tohost memory := by
  obtain ⟨hlow,hhigh⟩ := hplaced
  unfold DataDevice.edge
  split
  · rename_i hwrite
    refine status_congr fun i hi => writeLanes_frame _ _ _ (storeBytes_le _) ?_
    refine Nat.le_of_not_lt fun hnear => h ⟨hwrite,?_,?_⟩
    · rintro rfl
      exact absurd hlow (by decide)
    -- a byte of the word within eight bytes of the store
    have hbyte : (tohost+BitVec.ofNat 64 i).toNat=tohost.toNat+i := by
      rw [BitVec.toNat_add,BitVec.toNat_ofNat]
      omega
    have hlast : (tohost+3).toNat=tohost.toNat+3 := by
      rw [BitVec.toNat_add]
      change (tohost.toNat+3)%2^64=_
      omega
    have hdistance : (tohost+BitVec.ofNat 64 i-r.addr).toNat=
        (2^64-r.addr.toNat+(tohost.toNat+i))%2^64 := by
      rw [BitVec.toNat_sub,hbyte]
    have haddr := r.addr.isLt
    have hnowrap : r.addr.toNat+7 < 2^64 := by omega
    have hend : (r.addr+7).toNat=r.addr.toNat+7 := by
      rw [BitVec.toNat_add]
      exact Nat.mod_eq_of_lt hnowrap
    unfold overlapsTohost
    rw [hlast,hend,Bool.and_eq_true]
    exact ⟨decide_eq_true (by omega),decide_eq_true (by omega)⟩
  · rfl

end Stores

section Loop

variable (memory : ByteMemory) (tohost : Word)

/-- Verdict of the result word after a number of ticks. -/
def tickVerdict (t : ℕ) : Option Bool :=
  wordVerdict (status tohost (runnerBench.state memory t).memory)

variable {memory tohost} (hplaced : Placed tohost)
  (hstart : wordVerdict (status tohost memory)=none)

include hplaced hstart

/-- The first verdict seen at a store is the first result in the word. -/
theorem first_verdictAt (n : ℕ) (pass : Bool) :
    First (fun t => verdictAt tohost (runnerBench.state memory t)) n pass ↔
      First (tickVerdict memory tohost) n pass := by
  refine first_iff_of_changes hstart (fun t a hseen => ?_) (fun t hseen => ?_) n pass
  · unfold verdictAt at hseen
    dsimp only at hseen
    split at hseen
    · exact hseen
    · cases hseen
  · change verdictAt tohost (tick runnerBench false .low (runnerBench.state memory t))=none at hseen
    unfold verdictAt at hseen
    dsimp only at hseen
    split at hseen
    · exact .inl hseen
    · rename_i hother
      have hkept := status_frame hplaced (runnerBench.state memory t).memory _ hother
      exact .inr (congrArg wordVerdict hkept)

end Loop

/-- How the loop ends, by the result word after each tick: at its first
result, or at the limit without one. -/
def TickEnds (memory : ByteMemory) (tohost : Word) (maxCycles : ℕ) :
    Option Bool → TestBench.Top ByteMemory → Prop
  | some pass,top =>
    ∃ n≤ maxCycles,First (tickVerdict memory tohost) n pass ∧ top=runnerBench.state memory n
  | none,top =>
    (∀ n≤ maxCycles,tickVerdict memory tohost n=none) ∧ top=runnerBench.state memory maxCycles

/-- For every memory image, whatever its program does, with a result word
away from the ends of the address space that holds no result at first, the
loop stops at the first tick within the limit after which the word holds a
result, or else at the limit. -/
theorem testLoop_first (memory : ByteMemory) (tohost : Word) (hplaced : Placed tohost)
    (hstart : wordVerdict (status tohost memory)=none) (maxCycles : ℕ) (verdict : Option Bool)
    (top : TestBench.Top ByteMemory) :
    testLoop tohost maxCycles ⟨coreReset,memory⟩=(verdict,top) ↔
      TickEnds memory tohost maxCycles verdict top := by
  have hnext : ∀ t,runnerBench.state memory (t+1)=
      tick runnerBench false .low (runnerBench.state memory t) := fun _ => rfl
  have hquiet : verdictAt tohost (runnerBench.state memory 0)=none := rfl
  have hfound : ∀ n pass,First (tickVerdict memory tohost) n pass → n≤ maxCycles →
      testLoop tohost maxCycles ⟨coreReset,memory⟩=(some pass,runnerBench.state memory n) := by
    intro n pass hfirst hn
    have hseen := (first_verdictAt hplaced hstart n pass).mpr hfirst
    exact (poll_first hnext hquiet hseen maxCycles).trans (if_pos hn)
  have hverdict : ∀ pass top,testLoop tohost maxCycles ⟨coreReset,memory⟩=(some pass,top) →
      ∃ n≤ maxCycles,First (tickVerdict memory tohost) n pass := by
    intro pass top hpass
    obtain ⟨n,hn,hseen⟩ := poll_returns hnext hquiet (congrArg Prod.fst hpass)
    exact ⟨n,hn,(first_verdictAt hplaced hstart n pass).mp hseen⟩
  have hlimit : ∀ top,testLoop tohost maxCycles ⟨coreReset,memory⟩=(none,top) →
      top=runnerBench.state memory maxCycles := by
    intro top hnone
    have hstate := (poll_none hnext (t := 0) (congrArg Prod.fst hnone)).1
    rw [Nat.zero_add] at hstate
    exact (congrArg Prod.snd hnone).symm.trans hstate
  cases verdict with
  | some pass =>
    refine ⟨fun hpass => ?_,?_⟩
    · obtain ⟨n,hn,hfirst⟩ := hverdict pass top hpass
      have hresult := hpass.symm.trans (hfound n pass hfirst hn)
      exact ⟨n,hn,hfirst,congrArg Prod.snd hresult⟩
    · rintro ⟨n,hn,hfirst,rfl⟩
      exact hfound n pass hfirst hn
  | none =>
    refine ⟨fun hnone => ⟨fun n hn => ?_,hlimit top hnone⟩,?_⟩
    · obtain hnow | ⟨pass,m,hm,hfirst⟩ := first_or_none (tickVerdict memory tohost) n
      · exact hnow
      · have hresult := hnone.symm.trans (hfound m pass hfirst (Nat.le_trans hm hn))
        cases congrArg Prod.fst hresult
    · rintro ⟨hnone,rfl⟩
      cases hresult : testLoop tohost maxCycles ⟨coreReset,memory⟩ with
      | mk verdict top =>
        cases verdict with
        | none => rw [hlimit top hresult]
        | some pass =>
          obtain ⟨n,hn,hfirst⟩ := hverdict pass top hresult
          have hnow := hfirst.now
          rw [hnone n hn] at hnow
          cases hnow

/-- Verdict of the result word before instruction `n` of a reference run. -/
def runVerdict (run : ℕ → Option ByteMemory) (tohost : Word) (n : ℕ) : Option Bool :=
  (run n).bind fun left => wordVerdict (status tohost left)

/-- How the loop ends by a reference run whose instruction `n` is issued in
cycle `due n`: behind the first instruction to put a result into the result
word, if it is issued before the limit; or behind all instructions issued
before the limit, if none of them does. -/
def RunEnds (due : ℕ → ℕ) (run : ℕ → Option ByteMemory) (tohost : Word) (maxCycles : ℕ) :
    Option Bool → ByteMemory → Prop
  | some pass,left =>
    ∃ n,due n < maxCycles ∧ First (runVerdict run tohost) (n+1) pass ∧ run (n+1)=some left
  | none,left =>
    ∃ stored,(∀ n,n < stored ↔ due n < maxCycles) ∧
      (∀ n≤ stored,runVerdict run tohost n=none) ∧ run stored=some left

/-- On every memory image that the bench takes through the memories of a
reference run the loop ends as that run does. -/
theorem testLoop_run {due : ℕ → ℕ} {happens : ℕ → Bool} {run : ℕ → Option ByteMemory}
    {memory : ByteMemory} (hschedule : OnSchedule due happens)
    (hrun : ∀ t,run (tally happens t)=some (runnerBench.state memory t).memory)
    {tohost : Word} (hplaced : Placed tohost) (hstart : wordVerdict (status tohost memory)=none)
    (maxCycles : ℕ) (verdict : Option Bool) (left : ByteMemory) :
    (∃ top,testLoop tohost maxCycles ⟨coreReset,memory⟩=(verdict,top) ∧ top.memory=left) ↔
      RunEnds due run tohost maxCycles verdict left := by
  have hword : ∀ t,tickVerdict memory tohost t=runVerdict run tohost (tally happens t) := by
    intro t
    unfold tickVerdict runVerdict
    rw [hrun]
    rfl
  have hzero : runVerdict run tohost 0=none := (hword 0).symm.trans hstart
  -- one cycle after its issue an instruction's memory is there
  have hissued : ∀ n,run (n+1)=some (runnerBench.state memory (due n+1)).memory := by
    intro n
    rw [←hrun,hschedule.tally_after]
  have hfirst : ∀ t pass,First (tickVerdict memory tohost) t pass ↔
      ∃ n,due n+1=t ∧ First (runVerdict run tohost) (n+1) pass :=
    hschedule.first_counted hword hzero
  simp only [testLoop_first memory tohost hplaced hstart]
  cases verdict with
  | some pass =>
    constructor
    · rintro ⟨top,⟨t,ht,hseen,rfl⟩,rfl⟩
      obtain ⟨n,rfl,hreference⟩ := (hfirst t pass).mp hseen
      exact ⟨n,ht,hreference,hissued n⟩
    · rintro ⟨n,hn,hreference,hleft⟩
      refine ⟨_,⟨_,hn,(hfirst _ pass).mpr ⟨n,rfl,hreference⟩,rfl⟩,?_⟩
      exact Option.some.inj ((hissued n).symm.trans hleft)
  | none =>
    constructor
    · rintro ⟨top,⟨hsilent,rfl⟩,rfl⟩
      refine ⟨_,fun n => hschedule.lt_tally n maxCycles,fun n hn => ?_,hrun maxCycles⟩
      cases n with
      | zero => exact hzero
      | succ k =>
        have hdue := (hschedule.lt_tally k maxCycles).mp hn
        have hnow := hsilent _ hdue
        rwa [hword,hschedule.tally_after] at hnow
    · rintro ⟨stored,hstored,hsilent,hleft⟩
      have hcount : stored=tally happens maxCycles := by
        have hsame : ∀ n,n < stored ↔ n < tally happens maxCycles := fun n =>
          (hstored n).trans (hschedule.lt_tally n maxCycles).symm
        exact Nat.le_antisymm (Nat.le_of_not_lt fun hlt => Nat.lt_irrefl _ ((hsame _).mp hlt))
          (Nat.le_of_not_lt fun hlt => Nat.lt_irrefl _ ((hsame _).mpr hlt))
      subst hcount
      refine ⟨_,⟨fun t ht => ?_,rfl⟩,Option.some.inj ((hrun maxCycles).symm.trans hleft)⟩
      rw [hword]
      exact hsilent _ (tally_mono _ ht)

/-- Memory of the reference machine before instruction `n`. -/
def isaMemory (memory : ByteMemory) (n : ℕ) : Option ByteMemory :=
  (isaRun memory n).map IsaState.memory

/-- How a run ends by the reference machine of the base instruction set. -/
def IsaEnds (memory : ByteMemory) (tohost : Word) (maxCycles : ℕ) :
    Option Bool → ByteMemory → Prop :=
  RunEnds (issueCycle (runnerBench.setup memory)) (isaMemory memory) tohost maxCycles

/-- For every program of the base instruction set that runs for ever and
leaves its code alone the loop ends as the reference machine does. -/
theorem testLoop_isa {memory : ByteMemory} {code : Word → Prop} (h : Program memory code)
    {tohost : Word} (hplaced : Placed tohost) (hstart : wordVerdict (status tohost memory)=none)
    (maxCycles : ℕ) (verdict : Option Bool) (left : ByteMemory) :
    (∃ top,testLoop tohost maxCycles ⟨coreReset,memory⟩=(verdict,top) ∧ top.memory=left) ↔
      IsaEnds memory tohost maxCycles verdict left := by
  refine testLoop_run (ex_onSchedule (regular_of_plain _ h.plain)) (fun t => ?_) hplaced hstart
    maxCycles verdict left
  -- between ticks the bench holds the reference machine's memory behind MEM
  obtain ⟨s,hs,hsame⟩ := h.sameState (issued (runnerBench.setup memory) t)
  have hmemory := state_memory runner_idleReads (regular_of_plain _ h.plain) h.codeStable t
  rw [hmemory,hsame.memory]
  change (isaRun memory (issued (runnerBench.setup memory) t)).map IsaState.memory=_
  rw [hs]
  rfl

end RichardCore.TohostLoop
