import RichardCore.Tracking

/-!
# Program order of the slots

The recorded commit address is the head of program order: the slots from WB
down to the fetch address continue it one after the other, wrong-path slots
behind a taken branch excepted. Every emptied slot resumes at the address
that is next in order when it reaches WB.
-/

namespace RichardCore.ProgramOrder

open Packages Decoder Execute DataMemory CsrUnit TrapCtrl Hazard Pipeline Clocked Tracking

/-- A back-end slot continues program order at `before`. -/
def Follows (before : Word) : Slot Executed → Prop
  | .bubble b => b.resume=before
  | .instr k => k.survivor=false → k.pc=before

/-- The slot in EX continues program order at `before`. -/
def FollowsEx (before : Word) : Slot Issued → Prop
  | .bubble b => b.resume=before
  | .instr k => k.pc=before

/-- Next address once WB is done. -/
def afterWb (g : Tags) : Word := g.wb.after g.nextPc

/-- Next address once MEM is done. -/
def afterMem (g : Tags) : Word := g.mem.after (afterWb g)

/-- Next address once EX is done. -/
def afterEx (x : Tracked) : Word :=
  match x.tags.ex with
  | .bubble _ => afterMem x.tags
  | .instr k => if takenWire x.core then (exWires x.core).branchTarget else k.pc+4

/-- ID and the fetch address continue program order, unless EX is leaving
the fetched path. An empty ID slot has an empty EX slot before it. -/
def FrontEnd (x : Tracked) : Prop :=
  match x.tags.id with
  | .bubble b => b.resume=afterMem x.tags ∧ x.core.pc=afterMem x.tags ∧
      ∃ e, x.tags.ex=.bubble e
  | .instr f => takenWire x.core=true ∨ (f.pc=afterEx x ∧ x.core.pc=f.pc+4)

/-- All slots stand in program order. -/
structure InOrder (x : Tracked) : Prop where
  /-- WB holds the next instruction to commit. -/
  wb : Follows x.tags.nextPc x.tags.wb
  /-- MEM continues WB. -/
  mem : Follows (afterWb x.tags) x.tags.mem
  /-- EX continues MEM. -/
  ex : FollowsEx (afterMem x.tags) x.tags.ex
  /-- ID and IF continue EX. -/
  front : FrontEnd x

/-- An empty EX slot takes no branch. -/
theorem takenWire_bubble {x : Tracked} (h : SlotsOk x) {b : Bubble} (hex : x.tags.ex=.bubble b) :
    takenWire x.core=false := by
  have hslot := h.ex
  rw [hex] at hslot
  obtain ⟨_,hinert⟩ := hslot
  simp only [takenWire,exWires,exStage,hinert.branch,hinert.jump]
  rfl

/-- An empty EX slot raises no load-use stall. -/
theorem loadUseWire_bubble {x : Tracked} (h : SlotsOk x) {b : Bubble}
    (hex : x.tags.ex=.bubble b) : loadUseWire x.core=false := by
  have hslot := h.ex
  rw [hex] at hslot
  obtain ⟨_,hinert⟩ := hslot
  simp only [loadUseWire,loadUseStall,hinert.mem.1]
  rfl

/-- The state after reset is in order. -/
theorem inOrder_reset (n : ℕ) : InOrder ⟨coreReset,tagsReset n⟩ :=
  ⟨rfl,rfl,rfl,rfl,rfl,.reset,rfl⟩

section Flush

variable {x : Tracked} {i : Inputs} (hrst : i.rst=false)

include hrst

/-- After a trap flush every slot continues at the trap target; what passed
through EX is outside program order. -/
theorem inOrder_flush (hflush : flushWire x.core i.irq=true) : InOrder (trackStep x i) := by
  have hnext : (tagStep x.core x.tags i).nextPc=(trapWires x.core i.irq).trapNextPc := by
    rw [tagStep_nextPc _ _ _ hrst,if_pos hflush]
  have hwb := tagStep_wb x.core x.tags i hrst
  have hmem := tagStep_mem x.core x.tags i hrst
  have hex := tagStep_ex x.core x.tags i hrst
  have hid := tagStep_id x.core x.tags i hrst
  have hpc := coreStep_pc x.core i hrst
  rw [if_pos hflush] at hwb hpc
  simp only [hflush,Bool.true_or,if_true,emptied] at hex hid
  have hafterWb : afterWb (trackStep x i).tags=(trapWires x.core i.irq).trapNextPc := by
    change (tagStep x.core x.tags i).wb.after (tagStep x.core x.tags i).nextPc=_
    rw [hwb,hnext]
    rfl
  have hmemFollows : Follows (afterWb (trackStep x i).tags) (tagStep x.core x.tags i).mem ∧
      afterMem (trackStep x i).tags=(trapWires x.core i.irq).trapNextPc := by
    unfold afterMem
    rw [hafterWb]
    change Follows _ (tagStep x.core x.tags i).mem ∧ (tagStep x.core x.tags i).mem.after _=_
    rw [hmem]
    cases x.tags.ex with
    | bubble b =>
      simp only [leaveEx,hflush,if_true]
      exact ⟨rfl,rfl⟩
    | instr k =>
      simp only [leaveEx,executed,hflush]
      exact ⟨fun h => Bool.noConfusion (h : true=false),rfl⟩
  obtain ⟨hfollows,hafterMem⟩ := hmemFollows
  refine ⟨?_,hfollows,?_,?_⟩
  · change Follows (tagStep x.core x.tags i).nextPc (tagStep x.core x.tags i).wb
    rw [hwb,hnext]
    rfl
  · change FollowsEx _ (tagStep x.core x.tags i).ex
    rw [hex,hafterMem]
    rfl
  · unfold FrontEnd
    change match (tagStep x.core x.tags i).id with | .bubble b => _ | .instr f => _
    rw [hid]
    exact ⟨hafterMem.symm,hpc.trans hafterMem.symm,_,hex⟩

end Flush

section NoFlush

variable {x : Tracked} {i : Inputs} (hslots : SlotsOk x) (h : InOrder x) (hrst : i.rst=false)
  (hflush : flushWire x.core i.irq=false)

include hrst hflush

/-- Without a flush WB commits and MEM becomes the head of the order. -/
theorem nextPc_noFlush : (trackStep x i).tags.nextPc=afterWb x.tags := by
  change (tagStep x.core x.tags i).nextPc=_
  rw [tagStep_nextPc _ _ _ hrst]
  simp [hflush,afterWb]

/-- Without a flush the MEM slot moves to WB. -/
theorem wb_noFlush : (trackStep x i).tags.wb=x.tags.mem := by
  change (tagStep x.core x.tags i).wb=_
  rw [tagStep_wb _ _ _ hrst]
  simp [hflush]

/-- Without a flush the address after WB is the old one after MEM. -/
theorem afterWb_noFlush : afterWb (trackStep x i).tags=afterMem x.tags := by
  unfold afterWb
  rw [wb_noFlush hrst hflush,nextPc_noFlush hrst hflush]
  rfl

/-- Without a flush the address after MEM is the old one after EX. -/
theorem afterMem_noFlush : afterMem (trackStep x i).tags=afterEx x := by
  unfold afterMem
  rw [afterWb_noFlush hrst hflush]
  change (tagStep x.core x.tags i).mem.after _=_
  rw [tagStep_mem _ _ _ hrst]
  unfold afterEx
  cases x.tags.ex with
  | bubble b => rfl
  | instr k => simp only [leaveEx,executed,hflush,Slot.after,Bool.false_eq_true,if_false]

include h

/-- Without a flush the slot leaving EX continues MEM. -/
theorem mem_noFlush : Follows (afterMem x.tags) (trackStep x i).tags.mem := by
  change Follows _ (tagStep x.core x.tags i).mem
  rw [tagStep_mem _ _ _ hrst]
  have hex := h.ex
  generalize x.tags.ex=slot at hex
  cases slot with
  | bubble b =>
    simp only [leaveEx,hflush,Bool.false_eq_true,if_false]
    exact hex
  | instr k => exact fun _ => hex

include hslots

omit h in
/-- A taken branch empties ID and EX and fetches its target. -/
theorem front_taken (htaken : takenWire x.core=true) :
    FollowsEx (afterEx x) (trackStep x i).tags.ex ∧ FrontEnd (trackStep x i) := by
  have hafterMem := afterMem_noFlush (x := x) hrst hflush
  have hex : (trackStep x i).tags.ex=_ := tagStep_ex x.core x.tags i hrst
  have hid : (trackStep x i).tags.id=_ := tagStep_id x.core x.tags i hrst
  have hpc : (trackStep x i).core.pc=_ := coreStep_pc x.core i hrst
  simp only [hflush,htaken,Bool.false_or,Bool.true_or,Bool.false_eq_true,if_true,if_false,
    emptied] at hex hid hpc
  have hafterEx : afterEx x=(exWires x.core).branchTarget := by
    unfold afterEx
    cases hslot : x.tags.ex with
    | bubble b =>
      rw [takenWire_bubble hslots hslot] at htaken
      cases htaken
    | instr k => simp only [htaken,if_true]
  refine ⟨?_,?_⟩
  · rw [hex,hafterEx]
    rfl
  · unfold FrontEnd
    rw [hid,hafterMem,hpc,hafterEx]
    exact ⟨rfl,rfl,_,hex⟩

/-- A load-use stall repeats ID behind an empty EX slot. -/
theorem front_stall (htaken : takenWire x.core=false) (hstall : loadUseWire x.core=true) :
    FollowsEx (afterEx x) (trackStep x i).tags.ex ∧ FrontEnd (trackStep x i) := by
  have hafterMem := afterMem_noFlush (x := x) hrst hflush
  have hex : (trackStep x i).tags.ex=_ := tagStep_ex x.core x.tags i hrst
  have hid : (trackStep x i).tags.id=_ := tagStep_id x.core x.tags i hrst
  have hpc : (trackStep x i).core.pc=_ := coreStep_pc x.core i hrst
  simp only [hflush,htaken,hstall,Bool.false_or,Bool.false_eq_true,if_true,if_false,
    emptied] at hex hid hpc
  have hfront := h.front
  unfold FrontEnd at hfront
  cases hslot : x.tags.ex with
  | bubble b =>
    rw [loadUseWire_bubble hslots hslot] at hstall
    cases hstall
  | instr k =>
    rw [hslot] at hex
    have hafterEx : afterEx x=k.pc+4 := by
      unfold afterEx
      simp only [hslot,htaken,Bool.false_eq_true,if_false]
    refine ⟨?_,?_⟩
    · rw [hex,hafterEx]
      rfl
    · unfold FrontEnd
      rw [hid]
      cases hidSlot : x.tags.id with
      | bubble b =>
        rw [hidSlot] at hfront
        obtain ⟨_,_,e,he⟩ := hfront
        rw [hslot] at he
        cases he
      | instr f =>
        rw [hidSlot,htaken] at hfront
        obtain habs | ⟨hf,hfpc⟩ := hfront
        · cases habs
        · right
          refine ⟨?_,hpc.trans hfpc⟩
          unfold afterEx
          rw [hex,hafterMem]
          exact hf

omit hslots in
/-- Otherwise ID moves to EX and the fetched word to ID. -/
theorem front_advance (htaken : takenWire x.core=false) (hstall : loadUseWire x.core=false) :
    FollowsEx (afterEx x) (trackStep x i).tags.ex ∧ FrontEnd (trackStep x i) := by
  have hafterMem := afterMem_noFlush (x := x) hrst hflush
  have hex : (trackStep x i).tags.ex=_ := tagStep_ex x.core x.tags i hrst
  have hid : (trackStep x i).tags.id=_ := tagStep_id x.core x.tags i hrst
  have hpc : (trackStep x i).core.pc=_ := coreStep_pc x.core i hrst
  simp only [hflush,htaken,hstall,Bool.false_or,Bool.false_eq_true,if_false] at hex hid hpc
  have hfront := h.front
  unfold FrontEnd at hfront
  -- the new EX slot continues the order, and so does the fetch address behind it
  have hnext : FollowsEx (afterEx x) (trackStep x i).tags.ex ∧
      (takenWire (trackStep x i).core=true ∨ x.core.pc=afterEx (trackStep x i)) := by
    cases hidSlot : x.tags.id with
    | bubble b =>
      rw [hidSlot] at hfront hex
      obtain ⟨hb,hfpc,e,he⟩ := hfront
      have hafterEx : afterEx x=afterMem x.tags := by
        unfold afterEx
        rw [he]
      rw [hex]
      refine ⟨hb.trans hafterEx.symm,.inr ?_⟩
      conv_rhs => unfold afterEx
      rw [hex]
      exact hfpc.trans (hafterEx.symm.trans hafterMem.symm)
    | instr f =>
      rw [hidSlot] at hfront hex
      rw [htaken] at hfront
      obtain habs | ⟨hf,hfpc⟩ := hfront
      · cases habs
      · refine ⟨?_,?_⟩
        · rw [hex]
          exact hf
        · cases htaken' : takenWire (trackStep x i).core with
          | true => exact .inl rfl
          | false =>
            right
            unfold afterEx
            rw [hex]
            simp only [Slot.map,htaken',Bool.false_eq_true,if_false]
            exact hfpc
  refine ⟨hnext.1,?_⟩
  unfold FrontEnd
  rw [hid]
  exact hnext.2.imp_right fun hn => ⟨hn,hpc⟩

/-- Without a flush the new EX slot and the front end continue the order. -/
theorem front_noFlush :
    FollowsEx (afterEx x) (trackStep x i).tags.ex ∧ FrontEnd (trackStep x i) := by
  cases htaken : takenWire x.core with
  | true => exact front_taken hslots hrst hflush htaken
  | false =>
    cases hstall : loadUseWire x.core with
    | true => exact front_stall hslots h hrst hflush htaken hstall
    | false => exact front_advance h hrst hflush htaken hstall

/-- Without a flush the order is kept. -/
theorem inOrder_noFlush : InOrder (trackStep x i) := by
  obtain ⟨hex,hfront⟩ := front_noFlush hslots h hrst hflush
  refine ⟨?_,?_,?_,hfront⟩
  · rw [nextPc_noFlush hrst hflush,wb_noFlush hrst hflush]
    exact h.mem
  · rw [afterWb_noFlush hrst hflush]
    exact mem_noFlush h hrst hflush
  · rw [afterMem_noFlush hrst hflush]
    exact hex

end NoFlush

/-- Every clock edge keeps the slots in program order. -/
theorem inOrder_step (x : Tracked) (i : Inputs) (h : SlotsOk x ∧ InOrder x) :
    SlotsOk (trackStep x i) ∧ InOrder (trackStep x i) := by
  refine ⟨slotsOk_step x i h.1,?_⟩
  cases hrst : i.rst with
  | true =>
    rw [trackStep_reset x i hrst]
    exact inOrder_reset _
  | false =>
    cases hflush : flushWire x.core i.irq with
    | true => exact inOrder_flush hrst hflush
    | false => exact inOrder_noFlush h.1 h.2 hrst hflush

/-- In every run from reset the slots stand in program order. -/
theorem trackedRun_inOrder (inputs : ℕ → Inputs) (t : ℕ) : InOrder (trackedRun inputs t) :=
  (runFrom_always (fun x => SlotsOk x ∧ InOrder x) ⟨slotsOk_reset 0,inOrder_reset 0⟩
    inOrder_step inputs t).2

end RichardCore.ProgramOrder
