import RichardCore.Interrupts

/-!
# Trap flushes and the younger slots

A trap flush clears IF/ID, ID/EX and MEM/WB, but the instruction in EX moves
on to MEM and the one in MEM still drives its store. The module follows the
order numbers of the flushed instructions through the rest of every run.
-/

namespace RichardCore.PreciseTraps

open Packages Decoder Execute DataMemory CsrUnit TrapCtrl Hazard Pipeline Clocked Tracking
open ProgramOrder Effects Harness Interrupts

/-- Order number held by a slot. -/
def seqOf {α : Type} (seq : α → ℕ) : Slot α → Option ℕ
  | .bubble _ => none
  | .instr a => some (seq a)

/-- Order number in ID. -/
def idSeq (g : Tags) : Option ℕ := seqOf (fun f => f.seq) g.id

/-- Order number in EX. -/
def exSeq (g : Tags) : Option ℕ := seqOf (fun k => k.seq) g.ex

/-- Order number in MEM. -/
def memSeq (g : Tags) : Option ℕ := seqOf (fun k => k.seq) g.mem

/-- Order number in WB. -/
def wbSeq (g : Tags) : Option ℕ := seqOf (fun k => k.seq) g.wb

/-- All order numbers, oldest first, with the instruction being fetched. -/
def seqs (g : Tags) : List ℕ :=
  (wbSeq g).toList++((memSeq g).toList++((exSeq g).toList++((idSeq g).toList++[g.seq])))

/-- An emptied slot has no order number. -/
@[simp]
theorem seqOf_bubble {α : Type} (seq : α → ℕ) (b : Bubble) : seqOf seq (.bubble b)=none := rfl

/-- A filled slot has the order number of its instruction. -/
@[simp]
theorem seqOf_instr {α : Type} (seq : α → ℕ) (a : α) : seqOf seq (.instr a)=some (seq a) := rfl

/-- An order number comes from the instruction in the slot. -/
theorem seqOf_eq_some {α : Type} {seq : α → ℕ} {slot : Slot α} {n : ℕ}
    (h : seqOf seq slot=some n) : ∃ a,slot=.instr a ∧ seq a=n := by
  cases slot with
  | bubble b => cases h
  | instr a => exact ⟨a,rfl,Option.some.inj h⟩

/-- Moving to the next stage keeps the order number. -/
theorem seqOf_leaveEx (s : CoreState) (irq : IrqLines) (slot : Slot Issued) :
    seqOf (fun k => k.seq) (leaveEx s irq slot)=seqOf (fun k => k.seq) slot := by
  cases slot <;> rfl

/-- Issuing keeps the order number. -/
theorem seqOf_issue (mode : PrivMode) (slot : Slot Fetched) :
    seqOf (fun k : Issued => k.seq) (slot.map fun f => ⟨f,mode⟩)=seqOf (fun f => f.seq) slot := by
  cases slot <;> rfl

/-- A clock edge drops order numbers and appends the next one at most. -/
theorem seqs_step (x : Tracked) (i : Inputs) :
    List.Sublist (seqs (trackStep x i).tags) (seqs x.tags++[x.tags.seq+1]) := by
  cases hrst : i.rst with
  | true =>
    rw [trackStep_reset x i hrst]
    exact List.sublist_append_right _ _
  | false =>
    have hseq : (trackStep x i).tags.seq=_ := tagStep_seq x.core x.tags i hrst
    have hid : (trackStep x i).tags.id=_ := tagStep_id x.core x.tags i hrst
    have hex : (trackStep x i).tags.ex=_ := tagStep_ex x.core x.tags i hrst
    have hmem : (trackStep x i).tags.mem=_ := tagStep_mem x.core x.tags i hrst
    have hwb : (trackStep x i).tags.wb=_ := tagStep_wb x.core x.tags i hrst
    unfold seqs wbSeq memSeq exSeq idSeq
    rw [hseq,hid,hex,hmem,hwb,seqOf_leaveEx]
    -- the five parts of the old list; every case keeps a selection of them in order
    generalize (seqOf (fun k : Executed => k.seq) x.tags.wb).toList=w
    have hnil : ∀ l : List ℕ,List.Sublist [] l := List.nil_sublist
    have hself : ∀ l : List ℕ,List.Sublist l l := List.Sublist.refl
    simp only [List.append_assoc]
    cases flushWire x.core i.irq with
    | true =>
      simp only [Bool.true_or,Bool.not_true,Bool.false_and,Bool.false_eq_true,if_true,if_false,
        seqOf_bubble,Option.toList_none]
      exact (hnil w).append ((hnil _).append ((hself _).append ((hnil _).append
        ((hnil [_]).append (hself _)))))
    | false =>
      cases takenWire x.core <;> cases loadUseWire x.core <;>
        simp only [Bool.or_true,Bool.or_false,Bool.not_true,Bool.not_false,Bool.and_true,
          Bool.and_false,Bool.false_eq_true,if_true,if_false,seqOf_bubble,seqOf_instr,seqOf_issue,
          Option.toList_none,Option.toList_some]
      · exact (hnil w).append (hself _)
      · rw [List.nil_append]
        exact (hnil w).append ((hself _).append ((hself _).append ((hself _).append
          (List.sublist_append_left [_] [_]))))
      all_goals exact (hnil w).append ((hself _).append ((hself _).append ((hnil _).append
        (List.sublist_append_right [_] [_]))))

/-- Order numbers grow from WB to IF. -/
def Ordered (x : Tracked) : Prop := (seqs x.tags).Pairwise (·<·)

/-- The fetch number bounds all others. -/
theorem Ordered.le_seq {x : Tracked} (h : Ordered x) {n : ℕ} (hn : n∈seqs x.tags) :
    n≤x.tags.seq := by
  unfold Ordered seqs at h
  simp only [←List.append_assoc] at h
  unfold seqs at hn
  simp only [←List.append_assoc] at hn
  rw [List.pairwise_append] at h
  rw [List.mem_append,List.mem_singleton] at hn
  obtain hn | hn := hn
  · exact Nat.le_of_lt (h.2.2 n hn x.tags.seq (List.mem_singleton.mpr rfl))
  · exact Nat.le_of_eq hn

/-- A clock edge keeps the order. -/
theorem ordered_step (x : Tracked) (i : Inputs) (h : Ordered x) : Ordered (trackStep x i) := by
  refine List.Pairwise.sublist (seqs_step x i) ?_
  rw [List.pairwise_append]
  refine ⟨h,List.pairwise_singleton _ _,?_⟩
  intro a ha b hb
  rw [List.mem_singleton] at hb
  have hle := h.le_seq ha
  omega

/-- In every run the order numbers grow from WB to IF. -/
theorem trackedRun_ordered (inputs : ℕ → Inputs) (t : ℕ) : Ordered (trackedRun inputs t) :=
  runFrom_always Ordered (show Ordered trackReset from List.pairwise_singleton (·<·) 0)
    ordered_step inputs t

/-- In flight in IF, ID, EX or MEM. -/
def InFlight (g : Tags) (n : ℕ) : Prop :=
  n=g.seq ∨ idSeq g=some n ∨ exSeq g=some n ∨ memSeq g=some n

/-- An instruction in flight is not the one in WB and is not younger than
the one being fetched. -/
theorem Ordered.inFlight {x : Tracked} (h : Ordered x) {n : ℕ} (hn : InFlight x.tags n) :
    wbSeq x.tags≠some n ∧ n≤x.tags.seq := by
  have hmem : n∈(memSeq x.tags).toList++((exSeq x.tags).toList++((idSeq x.tags).toList++
      [x.tags.seq])) := by
    simp only [List.mem_append,Option.mem_toList,List.mem_singleton]
    unfold InFlight at hn
    tauto
  refine ⟨?_,h.le_seq (List.mem_append_right _ hmem)⟩
  intro hwb
  unfold Ordered seqs at h
  rw [List.pairwise_append,hwb] at h
  exact Nat.lt_irrefl n (h.2.2 n (List.mem_singleton.mpr rfl) n hmem)

/-- Effect of the instruction in WB: a register or CSR write, an exception
or a return. -/
def wbEffect (s : CoreState) : Bool :=
  regWriteWire s || csrWriteWire s || hasSyncException s || s.memWb.isMret || s.memWb.isSret

/-- The instruction with order number `n` has an architectural effect in this
cycle: it redirects the PC from EX, writes data memory from MEM, or acts in
WB. -/
def Effect (n : ℕ) (x : Tracked) (i : Inputs) : Prop :=
  (exSeq x.tags=some n ∧ redirectWire x.core i.irq=true) ∨
  (memSeq x.tags=some n ∧ dmemWriteWire x.core=true) ∨
  (wbSeq x.tags=some n ∧ wbEffect x.core=true)

/-- The flush is caused by the instruction in WB. -/
def SyncFlush (x : Tracked) (i : Inputs) : Prop :=
  hasInterrupt x.core i.irq=false ∧ flushWire x.core i.irq=true

/-- An instruction past EX that will have no effect at all. -/
@[mk_iff]
structure HarmlessMem (e : ExMem) : Prop where
  /-- No register write, exception or return. -/
  silent : SilentMem e
  /-- Not a store. -/
  store : e.mem.isStore=false
  /-- A CSR instruction only reads a supported register. -/
  csr : e.sys.isCsr=true →
    csrIllegalAccess true e.sys.csrOp (e.imm.setWidth 12)=false ∧
    csrModifies e.sys.csrOp
      (if e.sys.csrOp.getLsbD 2 then e.rs1Addr.setWidth 64 else e.rs1Rdata)=false

/-- Harmlessness is read off the record. -/
instance (e : ExMem) : Decidable (HarmlessMem e) := decidable_of_iff' _ (harmlessMem_iff e)

/-- The same of an instruction in WB. -/
structure HarmlessWb (w : MemWb) : Prop where
  /-- No register write, exception or return. -/
  silent : SilentWb w
  /-- A CSR instruction only reads a supported register. -/
  csr : w.isCsr=true → csrIllegalAccess true w.csrOp (csrAddr w)=false ∧
    csrModifies w.csrOp (csrRs1Data w)=false

/-- The memory stage passes harmlessness on. -/
theorem HarmlessMem.memStage {e : ExMem} (h : HarmlessMem e) (rdata : Word) :
    HarmlessWb (memStage e rdata) :=
  ⟨h.silent.memStage rdata,h.csr⟩

/-- A harmless instruction writes no data memory. -/
theorem HarmlessMem.dmemWrite {s : CoreState} (h : HarmlessMem s.exMem) :
    dmemWriteWire s=false := by
  simp only [dmemWriteWire,dmemRequest,h.store]
  rfl

/-- A harmless instruction has no effect in WB. -/
theorem HarmlessWb.wbEffect {s : CoreState} (h : HarmlessWb s.memWb) : wbEffect s=false := by
  have hcsr : wbCsrIllegal s.memWb=false ∧ csrWriteWire s=false := by
    rw [csrWriteWire_eq]
    unfold wbCsrIllegal csrReq
    rw [h.silent.trap]
    cases hisCsr : s.memWb.isCsr with
    | false => exact ⟨rfl,rfl⟩
    | true =>
      obtain ⟨hlegal,hmod⟩ := h.csr hisCsr
      rw [hmod]
      exact ⟨hlegal,by simp⟩
  unfold PreciseTraps.wbEffect
  rw [h.silent.regWrite,h.silent.syncException,hcsr.1,hcsr.2,h.silent.isMret,h.silent.isSret]
  rfl

/-- Every instruction up to `n` has left the pipeline or is past EX and
harmless. -/
structure Drained (n : ℕ) (x : Tracked) : Prop where
  /-- The fetch is younger. -/
  fetch : n<x.tags.seq
  /-- ID is younger. -/
  id : ∀ f,x.tags.id=.instr f → n<f.seq
  /-- EX is younger. -/
  ex : ∀ k,x.tags.ex=.instr k → n<k.seq
  /-- MEM is younger or harmless. -/
  mem : ∀ k,x.tags.mem=.instr k → n<k.seq ∨ HarmlessMem x.core.exMem
  /-- WB is younger or harmless. -/
  wb : ∀ k,x.tags.wb=.instr k → n<k.seq ∨ HarmlessWb x.core.memWb

/-- A drained instruction has no effect. -/
theorem Drained.noEffect {n m : ℕ} {x : Tracked} (h : Drained n x) (hm : m≤n) (i : Inputs) :
    ¬Effect m x i := by
  rintro (⟨hseq,-⟩ | ⟨hseq,heffect⟩ | ⟨hseq,heffect⟩)
  · obtain ⟨k,hslot,rfl⟩ := seqOf_eq_some hseq
    have hlt := h.ex k hslot
    omega
  · obtain ⟨k,hslot,rfl⟩ := seqOf_eq_some hseq
    obtain hlt | hharmless := h.mem k hslot
    · omega
    · rw [hharmless.dmemWrite] at heffect
      cases heffect
  · obtain ⟨k,hslot,rfl⟩ := seqOf_eq_some hseq
    obtain hlt | hharmless := h.wb k hslot
    · omega
    · rw [hharmless.wbEffect] at heffect
      cases heffect

/-- A reset leaves only the next fetch. -/
theorem drained_reset {n seq : ℕ} (h : n<seq) : Drained n ⟨coreReset,tagsReset seq⟩ :=
  ⟨h,fun _ h => (nomatch h),fun _ h => (nomatch h),fun _ h => (nomatch h),fun _ h => (nomatch h)⟩

/-- The part of the step shared by a drained pipeline and by the flush that
drains it: the slots in ID, MEM and WB after a clock edge. -/
theorem drained_edge {n : ℕ} {x : Tracked} {i : Inputs} (hrst : i.rst=false)
    (hfetch : n<x.tags.seq ∨ flushWire x.core i.irq=true ∧ n≤x.tags.seq)
    (hid : flushWire x.core i.irq=false → ∀ f,x.tags.id=.instr f → n<f.seq)
    (hex : ∀ k,x.tags.ex=.instr k → n<k.seq ∨ HarmlessMem (exOutput x.core))
    (hmem : flushWire x.core i.irq=false →
      ∀ k,x.tags.mem=.instr k → n<k.seq ∨ HarmlessMem x.core.exMem) :
    Drained n (trackStep x i) := by
  have hseq : (trackStep x i).tags.seq=_ := tagStep_seq x.core x.tags i hrst
  refine ⟨?_,?_,?_,?_,?_⟩
  · rw [hseq]
    obtain hlt | ⟨hflush,hle⟩ := hfetch
    · split <;> omega
    · simp only [hflush,Bool.not_true,Bool.false_and,Bool.false_eq_true,if_false]
      omega
  · intro f hf
    obtain ⟨hflush,hold | hnew⟩ := id_instr_inv hrst hf
    · exact hid hflush f hold
    · obtain hlt | ⟨habs,-⟩ := hfetch
      · rw [hnew]
        exact hlt
      · rw [hflush] at habs
        cases habs
  · intro k hk
    obtain ⟨hflush,-,-,-,f,hf,rfl⟩ := ex_instr_inv hrst hk
    exact hid hflush f hf
  · intro k hk
    obtain ⟨hexMem,j,hj,rfl⟩ := mem_instr_inv hrst hk
    rw [hexMem]
    exact hex j hj
  · intro k hk
    obtain ⟨hflush,hslot,hmemWb⟩ := wb_instr_inv hrst hk
    rw [hmemWb]
    exact (hmem hflush k hslot).imp_right fun hharmless => hharmless.memStage _

/-- A drained pipeline stays drained. -/
theorem drained_step {n : ℕ} (x : Tracked) (i : Inputs) (h : Drained n x) :
    Drained n (trackStep x i) := by
  cases hrst : i.rst with
  | true =>
    rw [trackStep_reset x i hrst]
    exact drained_reset (Nat.lt_succ_of_lt h.fetch)
  | false =>
    exact drained_edge hrst (.inl h.fetch) (fun _ => h.id) (fun k hk => .inl (h.ex k hk))
      fun _ => h.mem

/-- The flush meets no store in MEM and nothing but a harmless instruction
in EX. -/
def CleanFlush (x : Tracked) : Prop :=
  dmemWriteWire x.core=false ∧ ∀ k,x.tags.ex=.instr k → HarmlessMem (exOutput x.core)

/-- In every run, after a flush by the instruction in WB that meets no store
in MEM and only a harmless instruction in EX, no younger instruction in
flight has an effect in that cycle or in any later one. -/
theorem precise_flush (inputs : ℕ → Inputs) (t : ℕ)
    (hflush : SyncFlush (trackedRun inputs t) (inputs t)) (hclean : CleanFlush (trackedRun inputs t))
    (n : ℕ) (hn : InFlight (trackedRun inputs t).tags n) (u : ℕ) (hu : t≤u) :
    ¬Effect n (trackedRun inputs u) (inputs u) := by
  obtain ⟨-,hflushReq⟩ := hflush
  obtain ⟨hstore,hex⟩ := hclean
  obtain ⟨hwb,hle⟩ := (trackedRun_ordered inputs t).inFlight hn
  obtain rfl | hlt := Nat.eq_or_lt_of_le hu
  · rintro (⟨-,heffect⟩ | ⟨-,heffect⟩ | ⟨hseq,-⟩)
    · rw [redirectWire,hflushReq] at heffect
      simp at heffect
    · rw [hstore] at heffect
      cases heffect
    · exact hwb hseq
  · -- the flush edge drains everything up to the fetch number of cycle `t`
    have hdrained : Drained (trackedRun inputs t).tags.seq (trackedRun inputs (t+1)) := by
      rw [trackedRun_succ]
      cases hrst : (inputs t).rst with
      | true =>
        rw [trackStep_reset _ _ hrst]
        exact drained_reset (Nat.lt_succ_self _)
      | false =>
        refine drained_edge hrst (.inr ⟨hflushReq,Nat.le_refl _⟩) ?_ (fun k hk => .inr (hex k hk)) ?_
        · intro hno
          rw [hflushReq] at hno
          cases hno
        · intro hno
          rw [hflushReq] at hno
          cases hno
    obtain ⟨d,rfl⟩ := Nat.exists_eq_add_of_le hlt
    have hlater : Drained (trackedRun inputs t).tags.seq (trackedRun inputs (t+1+d)) := by
      unfold trackedRun
      rw [runFrom_add]
      exact runFrom_always (Drained _) hdrained drained_step _ d
    exact hlater.noEffect hle _

/-- ECALL followed by NOPs: the NOP in EX at the flush has no effect when it
reaches WB. -/
theorem precise_flush_nop :
    ¬Effect 2 (trackedRun (programInputs [0x00000073] fun _ => .low) 6)
      (programInputs [0x00000073] (fun _ => .low) 6) :=
  precise_flush (programInputs [0x00000073] fun _ => .low) 4
    (by unfold SyncFlush; decide +kernel) ⟨by decide +kernel,fun _ _ => by decide +kernel⟩ 2
    (by unfold InFlight; decide +kernel) 6 (by decide)

/-- ECALL, SD x0,0(x0), ADDI x1,x0,1: in the flush cycle of the call the store
in MEM writes data memory, and two cycles later the addition writes x1. -/
theorem precise_flush_store_addi :
    let inputs := programInputs [0x00000073,0x00003023,0x00100093] fun _ => .low
    SyncFlush (trackedRun inputs 4) (inputs 4) ∧
    InFlight (trackedRun inputs 4).tags 1 ∧ Effect 1 (trackedRun inputs 4) (inputs 4) ∧
    InFlight (trackedRun inputs 4).tags 2 ∧ Effect 2 (trackedRun inputs 6) (inputs 6) ∧
    (trackedRun inputs 7).core.regs 1=1 := by
  unfold SyncFlush InFlight Effect
  decide +kernel

end RichardCore.PreciseTraps
