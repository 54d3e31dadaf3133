import RichardCore.AtomicTraps

/-!
# One event per committing instruction

The decoder puts a word into at most one class, the memory stage adds a fault
only to a load or a store, and the pipeline registers keep both. So at most
one of the updates of the CSR file is active in a cycle without an interrupt,
and the order in which its process lists them does not matter.
-/

namespace RichardCore.SingleEvent

open Packages Decoder DataMemory CsrUnit TrapCtrl Pipeline Clocked Tracking Effects Lifecycle
open TrapInformation

/-- Events that send the instruction in WB to the trap controller. -/
def trapEvents (w : MemWb) : List Bool :=
  [w.illegalInstr,w.isEcall,w.isEbreak,w.isMret,w.isSret,w.loadFault,w.storeFault]

/-- All events of the instruction in WB. -/
def events (w : MemWb) : List Bool := w.isCsr::trapEvents w

/-- What the decoder makes of a word: a load or a store counts as the fault
it may raise. -/
def classes (d : Decoded) : List Bool :=
  [d.sys.isCsr,d.sys.illegalInstr,d.sys.isEcall,d.sys.isEbreak,d.sys.isMret,d.sys.isSret,
    d.mem.isLoad,d.mem.isStore]

/-- A list of flags that imply those of another list has no more of them set. -/
theorem count_true_le {l l' : List Bool} (h : List.Forall₂ (fun a b => a=true → b=true) l l') :
    l.count true≤l'.count true := by
  induction h with
  | nil => exact Nat.le_refl _
  | @cons a b _ _ hab _ ih =>
    rw [List.count_cons,List.count_cons]
    cases a with
    | false => exact Nat.add_le_add ih (Nat.zero_le _)
    | true =>
      rw [hab rfl]
      exact Nat.add_le_add_right ih _

/-- The privileged instructions are one of five. -/
theorem decodePrivileged_classes (word : BitVec 32) (mode : BitVec 2) :
    (classes {decodeDefaults word with sys := decodePrivileged word mode}).count true≤1 := by
  unfold decodePrivileged
  repeat' split
  all_goals simp [classes,decodeDefaults,memDefaults,sysDefaults]

/-- The decoder puts every word into at most one class. -/
theorem decoder_classes (word : BitVec 32) (mode : BitVec 2) :
    (classes (decoder word mode)).count true≤1 := by
  cases hop : Opcode.ofBits (opcodeField word) with
  | none => simp [classes,decoder,hop,decodeDefaults,memDefaults,sysDefaults]
  | some code =>
    cases code with
    | system =>
      unfold decoder
      rw [hop]
      dsimp only
      split
      · exact decodePrivileged_classes word mode
      · split <;> simp [classes,decodeDefaults,memDefaults,sysDefaults]
    | _ =>
      unfold decoder
      rw [hop]
      dsimp only
      repeat' split
      all_goals simp [classes,decodeDefaults,memDefaults,sysDefaults]

/-- The events of an instruction are among its classes. -/
theorem events_classes {w : MemWb} {d : Decoded} (h : CarriesWb w d) :
    (events w).count true≤(classes d).count true := by
  apply count_true_le
  have hload : w.loadFault=true → d.mem.isLoad=true := by
    rw [h.loadFault,Bool.and_eq_true]
    exact And.left
  have hstore : w.storeFault=true → d.mem.isStore=true := by
    rw [h.storeFault,Bool.and_eq_true]
    exact And.left
  unfold events trapEvents classes
  rw [h.isCsr,h.illegalInstr,h.isEcall,h.isEbreak,h.isMret,h.isSret]
  exact .cons id (.cons id (.cons id (.cons id (.cons id (.cons id
    (.cons hload (.cons hstore .nil)))))))

/-- An emptied slot has no event. -/
theorem events_inert {w : MemWb} (h : InertWb w) : (events w).count true=0 := by
  have htrap := h.trap
  unfold hasTrap at htrap
  simp only [Bool.or_eq_false_iff] at htrap
  obtain ⟨⟨⟨⟨hillegal,hecall⟩,hebreak⟩,hload⟩,hstore⟩ := htrap
  unfold events trapEvents
  rw [h.csr,h.mret,h.sret,hillegal,hecall,hebreak,hload,hstore]
  rfl

/-- In every run the instruction in WB has at most one event. -/
theorem trackedRun_events (inputs : ℕ → Inputs) (t : ℕ) :
    (events (trackedRun inputs t).core.memWb).count true≤1 := by
  have hslot := (trackedRun_slotsOk inputs t).wb
  cases hwb : (trackedRun inputs t).tags.wb with
  | bubble b =>
    rw [hwb] at hslot
    rw [events_inert hslot.2]
    exact Nat.zero_le 1
  | instr k =>
    rw [hwb] at hslot
    exact (events_classes hslot.2.2).trans (decoder_classes k.word k.mode.bits)

/-- With at most one flag set, any set flag excludes the later ones. -/
theorem pairwise_of_count {l : List Bool} (h : l.count true≤1) :
    l.Pairwise fun a b => a=true → b=false := by
  induction l with
  | nil => exact .nil
  | cons a l ih =>
    rw [List.count_cons] at h
    refine List.pairwise_cons.mpr ⟨fun b hb ha => ?_,ih (Nat.le_of_add_right_le h)⟩
    rw [ha] at h
    have hnone : l.count true=0 := by
      change l.count true+1≤1 at h
      omega
    refine Bool.eq_false_of_not_eq_true fun htrue => ?_
    rw [htrue] at hb
    exact (List.count_eq_zero.mp hnone) hb

/-- No event, no trap event. -/
theorem trapEvents_none {w : MemWb} (h : (events w).count true=0) :
    (trapEvents w).any id=false := by
  rw [List.any_eq_false]
  intro b hb htrue
  rw [id_eq] at htrue
  subst htrue
  exact List.count_eq_zero.mp h (List.mem_cons_of_mem _ hb)

/-- An instruction with a trap event was no taken branch or jump in EX. -/
theorem trapEvent_not_taken {inputs : ℕ → Inputs} {t : ℕ}
    (h : (trapEvents (trackedRun inputs t).core.memWb).any id=true) :
    ∃ k fetch issue,t=issue+3 ∧ Life inputs k fetch issue ∧
      takenWire (trackedRun inputs (issue+1)).core=false := by
  have hslot := (trackedRun_slotsOk inputs t).wb
  cases hwb : (trackedRun inputs t).tags.wb with
  | bubble b =>
    rw [hwb] at hslot
    rw [trapEvents_none (events_inert hslot.2)] at h
    cases h
  | instr k =>
    rw [hwb] at hslot
    obtain ⟨fetch,issue,rfl,hlife⟩ := wb_life hwb
    refine ⟨k,fetch,issue,rfl,hlife,Bool.eq_false_of_not_eq_true fun htaken => ?_⟩
    have hex := (trackedRun_slotsOk inputs (issue+1)).ex
    rw [hlife.ex] at hex
    have htransfer := takenWire_transfer htaken
    rw [hex.2.2] at htransfer
    obtain ⟨-,hmem,hsys⟩ := decoder_transfer k.word k.mode.bits htransfer
    have hclasses : (classes (decoder k.word k.mode.bits)).count true=0 := by
      unfold classes
      rw [hmem,hsys]
      rfl
    have hnone := Nat.le_zero.mp ((events_classes hslot.2.2).trans hclasses.le)
    rw [trapEvents_none hnone] at h
    cases h

/-- One update of the CSR file: old state, inputs, next state so far. -/
abbrev Update : Type := CsrState → CsrIn → CsrState → CsrState

/-- The CSR write. -/
def writeUpdate : Update := fun s i n =>
  if writesCsr i then writeCsr s n (canonicalAddr i.csrAddr) i.csrRs1Data i.csrOp else n

/-- The trap entry. -/
def trapUpdate : Update := fun s i n => if i.trapTrigger then enterTrap s n i else n

/-- The machine return. -/
def mretUpdate : Update := fun s i n => if !i.trapTrigger && i.mretEn then returnM s n else n

/-- The supervisor return. -/
def sretUpdate : Update := fun s i n => if !i.trapTrigger && i.sretEn then returnS s n else n

/-- The updates in the order of the source. -/
def updates : List Update := [writeUpdate,trapUpdate,mretUpdate,sretUpdate]

/-- Next state when the updates are listed in a given order, after the
counters. -/
def applyUpdates (order : List Update) (s : CsrState) (i : CsrIn) : CsrState :=
  order.foldl (fun n update => update s i n) (tickCounters s i.trapTrigger)

/-- The clock edge of the CSR file applies the updates in source order. -/
theorem csrStep_updates (s : CsrState) (i : CsrIn) (hrst : i.rst=false) :
    csrStep s i=applyUpdates updates s i := by
  unfold csrStep applyUpdates updates writePhase returnPhase
  simp only [List.foldl,writeUpdate,trapUpdate,mretUpdate,sretUpdate,hrst]
  cases i.trapTrigger <;> simp

/-- An update that leaves every state alone in this cycle. -/
def Idle (update : Update) (s : CsrState) (i : CsrIn) : Prop := ∀ n,update s i n=n

/-- Updates of which at most one is active may be listed in any order. -/
theorem applyUpdates_perm {s : CsrState} {i : CsrIn} {order order' : List Update}
    (hperm : order'.Perm order)
    (h : ∀ u∈order,∀ v∈order,u=v ∨ Idle u s i ∨ Idle v s i) :
    applyUpdates order' s i=applyUpdates order s i := by
  refine (hperm.symm.foldl_eq' (fun u hu v hv n => ?_) _).symm
  obtain rfl | hidle | hidle := h u hu v hv
  · rfl
  · rw [hidle,hidle]
  · rw [hidle,hidle]

/-- What the CSR file is asked to do in one cycle: not both returns, and no
write beside a return or an exception. -/
structure OneRequest (s : CoreState) (i : Inputs) : Prop where
  /-- Not both returns. -/
  returns : (csrWires s i).mretEn=true → (csrWires s i).sretEn=false
  /-- A write excludes the rest. -/
  write : writesCsr (csrWires s i)=true →
    (csrWires s i).mretEn=false ∧ (csrWires s i).sretEn=false ∧ hasSyncException s=false

/-- An instruction with at most one event makes at most one request. -/
theorem oneRequest_of_events {s : CoreState} (h : (events s.memWb).count true≤1) (i : Inputs) :
    OneRequest s i := by
  have hmret : (csrWires s i).mretEn=true → s.memWb.isMret=true :=
    fun hen => (Bool.and_eq_true_iff.mp hen).1
  have hsret : (csrWires s i).sretEn=true → s.memWb.isSret=true :=
    fun hen => (Bool.and_eq_true_iff.mp hen).1
  have hpairs := pairwise_of_count h
  simp only [events,trapEvents,List.pairwise_cons,List.mem_cons,List.not_mem_nil,or_false,
    forall_eq_or_imp,forall_eq] at hpairs
  obtain ⟨⟨-,-,-,hcsrMret,hcsrSret,-,-⟩,-,-,-,⟨hmretSret,-,-⟩,-⟩ := hpairs
  refine ⟨fun hen => Bool.eq_false_of_not_eq_true fun hen' => ?_,fun hwrites => ?_⟩
  · rw [hmretSret (hmret hen)] at hsret
    cases hsret hen'
  · have hwire : csrWriteWire s=true := hwrites
    have hcsr : s.memWb.isCsr=true := by
      rw [csrWriteWire_eq,Bool.and_eq_true,Bool.and_eq_true] at hwire
      exact (Bool.and_eq_true_iff.mp hwire.1.1).1
    refine ⟨Bool.eq_false_of_not_eq_true fun hen => ?_,Bool.eq_false_of_not_eq_true fun hen => ?_,
      Bool.eq_false_of_not_eq_true fun hexception => ?_⟩
    · rw [hcsrMret hcsr] at hmret
      cases hmret hen
    · rw [hcsrSret hcsr] at hsret
      cases hsret hen
    · rw [csrWriteWire_exception hexception] at hwire
      cases hwire

section Idle

variable (s : CsrState) {i : CsrIn}

/-- No write. -/
theorem writeUpdate_idle (h : writesCsr i=false) : Idle writeUpdate s i :=
  fun _ => if_neg (by rw [h]; decide)

/-- No trap. -/
theorem trapUpdate_idle (h : i.trapTrigger=false) : Idle trapUpdate s i :=
  fun _ => if_neg (by rw [h]; decide)

/-- No machine return. -/
theorem mretUpdate_idle (h : i.trapTrigger=true ∨ i.mretEn=false) : Idle mretUpdate s i := by
  intro n
  refine if_neg ?_
  obtain htrap | hen := h
  · rw [htrap]
    simp
  · rw [hen]
    simp

/-- No supervisor return. -/
theorem sretUpdate_idle (h : i.trapTrigger=true ∨ i.sretEn=false) : Idle sretUpdate s i := by
  intro n
  refine if_neg ?_
  obtain htrap | hen := h
  · rw [htrap]
    simp
  · rw [hen]
    simp

end Idle

/-- In a cycle with at most one request and no interrupt, two different
updates are not both active. -/
theorem updates_exclusive {s : CoreState} {i : Inputs} (h : OneRequest s i)
    (hint : hasInterrupt s i.irq=false) :
    ∀ u∈updates,∀ v∈updates,u=v ∨ Idle u s.csr (csrWires s i) ∨ Idle v s.csr (csrWires s i) := by
  have htrigger : (csrWires s i).trapTrigger=hasSyncException s := by
    change (hasInterrupt s i.irq || hasSyncException s)=_
    rw [hint,Bool.false_or]
  have hpairs : updates.Pairwise fun u v =>
      u=v ∨ Idle u s.csr (csrWires s i) ∨ Idle v s.csr (csrWires s i) := by
    refine List.pairwise_cons.mpr ⟨fun v hv => ?_,List.pairwise_cons.mpr ⟨fun v hv => ?_,
      List.pairwise_cons.mpr ⟨fun v hv => ?_,List.pairwise_singleton _ _⟩⟩⟩
    · -- a write leaves the others idle
      cases hwrites : writesCsr (csrWires s i) with
      | false => exact .inr (.inl (writeUpdate_idle _ hwrites))
      | true =>
        obtain ⟨hmret,hsret,hexception⟩ := h.write hwrites
        refine .inr (.inr ?_)
        simp only [List.mem_cons,List.not_mem_nil,or_false] at hv
        obtain rfl | rfl | rfl := hv
        · exact trapUpdate_idle _ (htrigger.trans hexception)
        · exact mretUpdate_idle _ (.inr hmret)
        · exact sretUpdate_idle _ (.inr hsret)
    · -- so does a trap
      cases htrap : (csrWires s i).trapTrigger with
      | false => exact .inr (.inl (trapUpdate_idle _ htrap))
      | true =>
        refine .inr (.inr ?_)
        simp only [List.mem_cons,List.not_mem_nil,or_false] at hv
        obtain rfl | rfl := hv
        · exact mretUpdate_idle _ (.inl htrap)
        · exact sretUpdate_idle _ (.inl htrap)
    · simp only [List.mem_cons,List.not_mem_nil,or_false] at hv
      subst hv
      cases hmret : (csrWires s i).mretEn with
      | false => exact .inr (.inl (mretUpdate_idle _ (.inr hmret)))
      | true => exact .inr (.inr (sretUpdate_idle _ (.inr (h.returns hmret))))
  have hflip := hpairs.imp fun huv => huv.imp Eq.symm Or.symm
  exact fun u hu v hv =>
    List.Pairwise.forall_of_forall_of_flip (fun _ _ => .inl rfl) hpairs hflip hu hv

/-- In every run, in every cycle: the instruction in WB has at most one event,
with a trap event it was no taken branch or jump in EX, the CSR file gets at
most one request, and without an interrupt its next state does not depend on
the order of the updates. -/
theorem one_event (inputs : ℕ → Inputs) (t : ℕ) :
    (events (trackedRun inputs t).core.memWb).count true≤1 ∧
    ((trapEvents (trackedRun inputs t).core.memWb).any id=true →
      ∃ k fetch issue,t=issue+3 ∧ Life inputs k fetch issue ∧
        takenWire (trackedRun inputs (issue+1)).core=false) ∧
    ∀ i,OneRequest (trackedRun inputs t).core i ∧
      (i.rst=false → hasInterrupt (trackedRun inputs t).core i.irq=false →
        ∀ order : List Update,order.Perm updates →
          applyUpdates order (trackedRun inputs t).core.csr (csrWires (trackedRun inputs t).core i)=
            csrStep (trackedRun inputs t).core.csr (csrWires (trackedRun inputs t).core i)) := by
  have hevents := trackedRun_events inputs t
  refine ⟨hevents,trapEvent_not_taken,fun i => ?_⟩
  have hone := oneRequest_of_events hevents i
  refine ⟨hone,fun hrst hint order hperm => ?_⟩
  rw [csrStep_updates _ _ hrst]
  exact applyUpdates_perm hperm (updates_exclusive hone hint)

end RichardCore.SingleEvent
