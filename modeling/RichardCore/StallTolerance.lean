import RichardCore.StallRelations

/-!
# Stalls that do not change results

Runs of the core behind a cache. If every stall is harmless, the register
writes and the completed memory writes are those of the tied core, and every
cycle without a stall brings the run at least one cycle of the tied core
further. A stalled load writes its register too early and twice.
-/

namespace RichardCore.StallTolerance

open Packages Decoder Execute DataMemory CsrUnit TrapCtrl Hazard Pipeline Clocked Tracking
open ProgramOrder Effects Harness SequentialMachine Agreement Simulation Refinement StalledLoop
open StallRelations

section Tied

variable {M : Type} (p : Setup M)

/-- The registers of the tied core agree with their records. -/
theorem cycle_slots (n : ℕ) : SlotsOk (p.cycle n).tracked := by
  unfold Setup.cycle
  rw [sysRun_tracked]
  exact trackedRun_slotsOk _ _

/-- A record the tied core completes carries no exception. -/
theorem cycle_aligned (htraps : NeverTraps p) {n : ℕ}
    (hflush : flushWire (p.cycle n).tracked.core .low=false) :
    hasTrap (memStage (p.cycle n).tracked.core.exMem
      ((p.cycle n).inputs p.imem p.dev .low).dmemRdata)=false := by
  have hmemWb : (p.cycle (n+1)).tracked.core.memWb=_ :=
    coreStep_memWb (p.cycle n).tracked.core ((p.cycle n).inputs p.imem p.dev .low) rfl
  have hirq : ((p.cycle n).inputs p.imem p.dev .low).irq=.low := rfl
  rw [hirq,hflush,if_neg (by decide)] at hmemWb
  have hnext := htraps (n+1)
  rw [hasSyncException_eq,Bool.or_eq_false_iff,hmemWb] at hnext
  exact hnext.1

end Tied

/-- Only an access waits. -/
theorem stalled_access {M : Type} {z : Loop M} {c : CacheCycle} (h : z.stalled c=true) :
    z.core.exMem.mem.isLoad=true ∨ z.core.exMem.mem.isStore=true := by
  unfold Loop.stalled memStallReq at h
  rw [Bool.and_eq_true,Bool.or_eq_true] at h
  exact h.1

section Run

variable {M : Type} (p : Setup M) (cache : ℕ → CacheCycle)

/-- The run behind the cache at cycle `t` has followed the tied core up to
cycle `n`, with all register writes and completed memory writes. -/
inductive Follows (t n : ℕ) : Prop where
  /-- In step. -/
  | synced (h : Synced (loopRun p cache t).core (p.cycle n).tracked.core)
      (hmemory : (loopRun p cache t).memory=(p.cycle n).memory)
      (hwrites : eventLog (loopWrites p cache) t=eventLog (coreWrites p) n)
      (hstores : eventLog (loopStores p cache) t=eventLog (tiedStores p) n)
  /-- One commit ahead. -/
  | draining (h : Draining (loopRun p cache t).core (p.cycle n).tracked.core)
      (hmemory : (loopRun p cache t).memory=(p.cycle n).memory)
      (hwrites : eventLog (loopWrites p cache) t=eventLog (coreWrites p) (n+1))
      (hstores : eventLog (loopStores p cache) t=eventLog (tiedStores p) n)
  /-- One access behind. -/
  | jumped (h : Jumped (loopRun p cache t).core (p.cycle (n+1)).tracked.core)
      (hmemory : p.dev.edge (loopRun p cache t).memory (loopRun p cache t).request=
        (p.cycle (n+1)).memory)
      (hwrites : eventLog (loopWrites p cache) t=eventLog (coreWrites p) (n+1))
      (hstores : eventLog (loopStores p cache) t=eventLog (tiedStores p) n)
      (hpending : storeEvent (loopRun p cache t).request=tiedStores p n)

variable {p cache} {t n : ℕ}

/-- The core after a cycle that advances. -/
theorem loop_advance (hmeets : Meets (loopRun p cache t).core (p.cycle n).tracked.core)
    (hready : (loopRun p cache t).stalled (cache t)=false ∨
      flushWire (loopRun p cache t).core .low=true)
    (hdata : flushWire (p.cycle n).tracked.core .low=false →
      (p.cycle n).tracked.core.exMem.mem.isLoad=true →
      ((loopRun p cache t).inputs p (cache t)).dmemRdata=
        ((p.cycle n).inputs p.imem p.dev .low).dmemRdata) :
    Synced (loopRun p cache (t+1)).core (p.cycle (n+1)).tracked.core := by
  have hstep : (loopRun p cache (t+1)).core=
      coreStep (loopRun p cache t).core ((loopRun p cache t).inputs p (cache t)) :=
    coreStepWith_ready (cache t).handshake _ ((loopRun p cache t).inputs p (cache t)) hready
  have htied : (p.cycle (n+1)).tracked.core=
      coreStep (p.cycle n).tracked.core ((p.cycle n).inputs p.imem p.dev .low) := rfl
  rw [hstep,htied]
  exact hmeets.synced rfl rfl rfl rfl (congrArg p.imem hmeets.pc) hdata

/-- The core after a cycle that waits. -/
theorem loop_stalled (hstall : (loopRun p cache t).stalled (cache t)=true)
    (hflush : flushWire (loopRun p cache t).core .low=false) :
    (loopRun p cache (t+1)).core=
      stalledNext (loopRun p cache t).core ((loopRun p cache t).inputs p (cache t)).dmemRdata :=
  coreStepWith_stalled _ _ _ rfl hstall hflush

/-- Memory and completed writes do not change in a cycle that waits. -/
theorem loop_stalled_memory (hstall : (loopRun p cache t).stalled (cache t)=true) :
    (loopRun p cache (t+1)).memory=(loopRun p cache t).memory ∧
    eventLog (loopStores p cache) (t+1)=eventLog (loopStores p cache) t := by
  refine ⟨?_,?_⟩
  · change (if (loopRun p cache t).stalled (cache t) then _ else _)=_
    rw [hstall]
    rfl
  · rw [eventLog,loopStores,hstall,if_pos rfl,List.append_nil]

/-- A cycle that waits repeats its request. -/
theorem loop_stalled_request (hstall : (loopRun p cache t).stalled (cache t)=true)
    (hflush : flushWire (loopRun p cache t).core .low=false) :
    (loopRun p cache (t+1)).request=(loopRun p cache t).request := by
  unfold Loop.request
  rw [loop_stalled hstall hflush]
  rfl

/-- Without a stall the request takes effect. -/
theorem loop_ready_memory (hready : (loopRun p cache t).stalled (cache t)=false) :
    (loopRun p cache (t+1)).memory=
      p.dev.edge (loopRun p cache t).memory (loopRun p cache t).request ∧
    loopStores p cache t=storeEvent (loopRun p cache t).request := by
  refine ⟨?_,?_⟩
  · change (if (loopRun p cache t).stalled (cache t) then _ else _)=_
    rw [hready]
    rfl
  · unfold loopStores
    rw [hready]
    rfl

/-- A load that completes reads what the tied core reads. -/
theorem loaded_same (hexMem : MatchesMem (loopRun p cache t).core.exMem (p.cycle n).tracked.core.exMem)
    (hmemory : (loopRun p cache t).memory=(p.cycle n).memory)
    (hready : (loopRun p cache t).stalled (cache t)=false)
    (hload : (p.cycle n).tracked.core.exMem.mem.isLoad=true) :
    ((loopRun p cache t).inputs p (cache t)).dmemRdata=
      ((p.cycle n).inputs p.imem p.dev .low).dmemRdata := by
  have hrequest := request_same (cycle_slots p n) hexMem (.inl hload)
  have hload' := hload
  rw [←hexMem.agrees.mem] at hload'
  change (if (loopRun p cache t).core.exMem.mem.isLoad && !(loopRun p cache t).stalled (cache t)
    then p.dev.read (loopRun p cache t).memory (dmemRequest _) else _)=
      p.dev.read (p.cycle n).memory (dmemRequest _)
  rw [hload',hready,hrequest,hmemory]
  rfl

/-- A run that completes its cycle as the tied core does is in step after
it. -/
theorem follows_ready (hmeets : Meets (loopRun p cache t).core (p.cycle n).tracked.core)
    (hexMem : MatchesMem (loopRun p cache t).core.exMem (p.cycle n).tracked.core.exMem)
    (hmemory : (loopRun p cache t).memory=(p.cycle n).memory)
    (hready : (loopRun p cache t).stalled (cache t)=false)
    (hwrites : eventLog (loopWrites p cache) (t+1)=eventLog (coreWrites p) (n+1))
    (hstores : eventLog (loopStores p cache) t=eventLog (tiedStores p) n) :
    Follows p cache (t+1) (n+1) := by
  obtain ⟨hmemory',hstores'⟩ := loop_ready_memory hready
  have hstore := store_same (cycle_slots p n) hexMem
  refine .synced (loop_advance hmeets (.inl hready) fun _ => loaded_same hexMem hmemory hready)
    ?_ hwrites ?_
  · rw [hmemory',hmemory]
    exact edge_of_event p.dev _ hstore
  · rw [eventLog,eventLog,hstores,hstores']
    exact congrArg _ hstore

/-- A flush passes over a waiting load in both cores. -/
theorem follows_flushed (hmeets : Meets (loopRun p cache t).core (p.cycle n).tracked.core)
    (hexMem : MatchesMem (loopRun p cache t).core.exMem (p.cycle n).tracked.core.exMem)
    (hmemory : (loopRun p cache t).memory=(p.cycle n).memory)
    (hstall : (loopRun p cache t).stalled (cache t)=true)
    (hflush : flushWire (loopRun p cache t).core .low=true)
    (hload : (loopRun p cache t).core.exMem.mem.isStore=false)
    (hwrites : eventLog (loopWrites p cache) (t+1)=eventLog (coreWrites p) (n+1))
    (hstores : eventLog (loopStores p cache) t=eventLog (tiedStores p) n) :
    Follows p cache (t+1) (n+1) := by
  obtain ⟨hmemory',hstores'⟩ := loop_stalled_memory hstall
  have hidle : storeEvent (p.cycle n).request=[] :=
    (store_same (cycle_slots p n) hexMem).symm.trans (storeEvent_idle hload)
  refine .synced (loop_advance hmeets (.inr hflush) fun hno => ?_) ?_ hwrites ?_
  · rw [←hmeets.flush,hflush] at hno
    cases hno
  · rw [hmemory',hmemory]
    exact (edge_idle p.dev _ hidle).symm
  · rw [hstores',hstores,eventLog,tiedStores,hidle,List.append_nil]

/-- A safe stall of a run in step drains WB or follows a branch. -/
theorem synced_stall (htraps : NeverTraps p)
    (hsafe : SafeCycle (cache t).handshake (loopRun p cache t).core)
    (h : Synced (loopRun p cache t).core (p.cycle n).tracked.core)
    (hmemory : (loopRun p cache t).memory=(p.cycle n).memory)
    (hstall : (loopRun p cache t).stalled (cache t)=true)
    (hflush : flushWire (loopRun p cache t).core .low=false)
    (hwrites : eventLog (loopWrites p cache) (t+1)=eventLog (coreWrites p) (n+1))
    (hstores : eventLog (loopStores p cache) t=eventLog (tiedStores p) n) :
    Follows p cache (t+1) n := by
  have hslots := cycle_slots p n
  have hmeets := h.meets hsafe.counter hslots (htraps n)
  have hsafe' := hsafe.stall hstall hflush
  obtain ⟨hmemory',hstores'⟩ := loop_stalled_memory hstall
  have hnext := loop_stalled hstall hflush
  have haccess := stalled_access hstall
  have halign := cycle_aligned p htraps (hmeets.flush.symm.trans hflush)
  have hidle := access_inert hslots h.exMem haccess hsafe'.access halign
  have hstoresNext := hstores'.trans hstores
  cases htaken : takenWire (loopRun p cache t).core with
  | false =>
    refine .draining ?_ (hmemory'.trans hmemory) hwrites hstoresNext
    rw [hnext]
    exact h.stall hmeets (h.execute hsafe.counter).2 hsafe' htaken hflush (hidle _)
  | true =>
    have hquiet := hsafe'.access
    rw [h.exMem.agrees.mem] at haccess
    rw [h.exMem.agrees.wb] at hquiet
    have hidle' := access_inert hslots (MatchesMem.refl _) haccess hquiet halign
      ((p.cycle n).inputs p.imem p.dev .low).dmemRdata
    have hrequest := loop_stalled_request hstall hflush
    have hstore := store_same hslots h.exMem
    refine .jumped ?_ ?_ hwrites hstoresNext ?_
    · rw [hnext]
      exact h.jump hmeets hslots hsafe' htaken hflush hidle hidle' rfl rfl _
    · rw [hmemory',hrequest,hmemory]
      exact edge_of_event p.dev _ hstore
    · rw [hrequest]
      exact hstore

/-- One cycle from a run in step. -/
theorem synced_step (htraps : NeverTraps p)
    (hsafe : SafeCycle (cache t).handshake (loopRun p cache t).core)
    (h : Synced (loopRun p cache t).core (p.cycle n).tracked.core)
    (hmemory : (loopRun p cache t).memory=(p.cycle n).memory)
    (hwrites : eventLog (loopWrites p cache) t=eventLog (coreWrites p) n)
    (hstores : eventLog (loopStores p cache) t=eventLog (tiedStores p) n) :
    ∃ m≥n+(!(loopRun p cache t).stalled (cache t)).toNat,Follows p cache (t+1) m := by
  have hmeets := h.meets hsafe.counter (cycle_slots p n) (htraps n)
  have hwrite : loopWrites p cache t=coreWrites p n := commit_write h.memWb h.csr hsafe.counter
  have hwrites' : eventLog (loopWrites p cache) (t+1)=eventLog (coreWrites p) (n+1) := by
    rw [eventLog,eventLog,hwrites,hwrite]
  cases hstall : (loopRun p cache t).stalled (cache t) with
  | false =>
    exact ⟨n+1,Nat.le_refl _,follows_ready hmeets h.exMem hmemory hstall hwrites' hstores⟩
  | true =>
    cases hflush : flushWire (loopRun p cache t).core .low with
    | true =>
      exact ⟨n+1,Nat.le_succ _,follows_flushed hmeets h.exMem hmemory hstall hflush
        (hsafe.flushed hstall hflush) hwrites' hstores⟩
    | false =>
      exact ⟨n,Nat.le_refl _,synced_stall htraps hsafe h hmemory hstall hflush hwrites' hstores⟩

/-- An inert record in WB adds nothing to the log of register writes. -/
theorem loopWrites_idle (h : InertWb (loopRun p cache t).core.memWb) :
    eventLog (loopWrites p cache) (t+1)=eventLog (loopWrites p cache) t := by
  have hquiet : loopWrites p cache t=[] := inert_write h
  rw [eventLog,hquiet,List.append_nil]

/-- One cycle from a draining run. -/
theorem draining_step (htraps : NeverTraps p)
    (hsafe : SafeCycle (cache t).handshake (loopRun p cache t).core)
    (h : Draining (loopRun p cache t).core (p.cycle n).tracked.core)
    (hmemory : (loopRun p cache t).memory=(p.cycle n).memory)
    (hwrites : eventLog (loopWrites p cache) t=eventLog (coreWrites p) (n+1))
    (hstores : eventLog (loopStores p cache) t=eventLog (tiedStores p) n) :
    ∃ m≥n+(!(loopRun p cache t).stalled (cache t)).toNat,Follows p cache (t+1) m := by
  have hslots := cycle_slots p n
  have hwrites' := (loopWrites_idle h.idle).trans hwrites
  cases hstall : (loopRun p cache t).stalled (cache t) with
  | false =>
    exact ⟨n+1,Nat.le_refl _,
      follows_ready (h.meets hslots) h.exMem hmemory hstall hwrites' hstores⟩
  | true =>
    obtain ⟨hmemory',hstores'⟩ := loop_stalled_memory hstall
    have hflush := inert_flush h.idle
    have hidle := access_inert hslots h.exMem (stalled_access hstall)
      (hsafe.stall hstall hflush).access (cycle_aligned p htraps h.flush)
    refine ⟨n,Nat.le_refl _,
      .draining ?_ (hmemory'.trans hmemory) hwrites' (hstores'.trans hstores)⟩
    rw [loop_stalled hstall hflush]
    exact h.stall (hidle _)

/-- One cycle from a run ahead of a branch. -/
theorem jumped_step (h : Jumped (loopRun p cache t).core (p.cycle (n+1)).tracked.core)
    (hmemory : p.dev.edge (loopRun p cache t).memory (loopRun p cache t).request=
      (p.cycle (n+1)).memory)
    (hwrites : eventLog (loopWrites p cache) t=eventLog (coreWrites p) (n+1))
    (hstores : eventLog (loopStores p cache) t=eventLog (tiedStores p) n)
    (hpending : storeEvent (loopRun p cache t).request=tiedStores p n) :
    ∃ m≥n+(!(loopRun p cache t).stalled (cache t)).toNat,Follows p cache (t+1) m := by
  have hwrites' := (loopWrites_idle h.idle).trans hwrites
  cases hstall : (loopRun p cache t).stalled (cache t) with
  | false =>
    -- the access catches up, and the branch in the tied MEM and WB adds nothing
    obtain ⟨hmemory',hstores'⟩ := loop_ready_memory hstall
    have hquiet : coreWrites p (n+1)=[] := inert_write h.completed
    have hidle : tiedStores p (n+1)=[] := storeEvent_idle h.passed.mem.2
    refine ⟨n+2,Nat.le_succ _,.synced (loop_advance h.meets (.inl hstall) fun _ hload => ?_) ?_ ?_ ?_⟩
    · rw [h.passed.mem.1] at hload
      cases hload
    · rw [hmemory',hmemory]
      exact (edge_idle p.dev _ hidle).symm
    · rw [hwrites',eventLog,eventLog,eventLog,hquiet,List.append_nil]
    · rw [eventLog,eventLog,eventLog,hstores,hstores',hpending,hidle,List.append_nil]
  | true =>
    obtain ⟨hmemory',hstores'⟩ := loop_stalled_memory hstall
    have hrequest := loop_stalled_request hstall (inert_flush h.idle)
    refine ⟨n,Nat.le_refl _,.jumped ?_ ?_ hwrites' (hstores'.trans hstores) ?_⟩
    · rw [loop_stalled hstall (inert_flush h.idle)]
      exact h.stall _
    · rw [hmemory',hrequest,hmemory]
    · rw [hrequest,hpending]

/-- Every safe cycle follows the tied core, and advances without a stall. -/
theorem follows_step (htraps : NeverTraps p)
    (hsafe : SafeCycle (cache t).handshake (loopRun p cache t).core) (h : Follows p cache t n) :
    ∃ m≥n+(!(loopRun p cache t).stalled (cache t)).toNat,Follows p cache (t+1) m := by
  cases h with
  | synced h hmemory hwrites hstores => exact synced_step htraps hsafe h hmemory hwrites hstores
  | draining h hmemory hwrites hstores => exact draining_step htraps hsafe h hmemory hwrites hstores
  | jumped h hmemory hwrites hstores hpending =>
    exact jumped_step h hmemory hwrites hstores hpending

/-- Both runs start in step. -/
theorem follows_reset : Follows p cache 0 0 := by
  refine .synced ⟨rfl,rfl,rfl,MatchesMem.refl _,.inl ?_,rfl,rfl⟩ rfl rfl rfl
  exact ⟨rfl,rfl,rfl,rfl,rfl,rfl,rfl,rfl,rfl,fun _ _ _ => rfl,fun _ _ _ => rfl,fun _ _ => rfl⟩

/-- A run of safe cycles follows the tied core. -/
theorem follows_run (htraps : NeverTraps p) (t : ℕ)
    (hsafe : ∀ u < t,SafeCycle (cache u).handshake (loopRun p cache u).core) :
    ∃ n≥completed p cache t,Follows p cache t n := by
  induction t with
  | zero => exact ⟨0,Nat.le_refl _,follows_reset⟩
  | succ t ih =>
    obtain ⟨n,hn,hfollows⟩ := ih fun u hu => hsafe u (by omega)
    obtain ⟨m,hm,hnext⟩ := follows_step htraps (hsafe t (by omega)) hfollows
    refine ⟨m,?_,hnext⟩
    change completed p cache t+(!(loopRun p cache t).stalled (cache t)).toNat ≤ m
    omega

/-- For every program without traps and every sequence of handshakes whose
stalls are safe, the register writes and the completed memory writes are
those of the tied core. -/
theorem stalls_keep_results (p : Setup M) (cache : ℕ → CacheCycle) (htraps : NeverTraps p) (t : ℕ)
    (hsafe : ∀ u < t,SafeCycle (cache u).handshake (loopRun p cache u).core) :
    SameResults p cache t := by
  obtain ⟨n,hn,hfollows⟩ := follows_run htraps t hsafe
  cases hfollows with
  | synced h hmemory hwrites hstores => exact ⟨⟨n,hn,hwrites⟩,n,hn,hstores⟩
  | draining h hmemory hwrites hstores => exact ⟨⟨n+1,by omega,hwrites⟩,n,hn,hstores⟩
  | jumped h hmemory hwrites hstores hpending => exact ⟨⟨n+1,by omega,hwrites⟩,n,hn,hstores⟩

end Run

section Programs

/-- A word that raises no exception whatever the registers hold: legal, not a
SYSTEM instruction, and accessing single bytes at most. -/
def byteWord (word : BitVec 32) : Bool :=
  let d := decoder word PrivMode.m.bits
  opcodeField word != Opcode.system.bits && !d.sys.illegalInstr &&
    ((!d.mem.isLoad && !d.mem.isStore) || d.mem.memSize==0b000#3)

/-- Outside the SYSTEM opcode the privilege mode does not matter. -/
theorem decoder_mode {word : BitVec 32} (h : opcodeField word≠Opcode.system.bits)
    (mode mode' : BitVec 2) : decoder word mode=decoder word mode' := by
  unfold decoder
  cases hop : Opcode.ofBits (opcodeField word) with
  | none => rfl
  | some code =>
    cases code with
    | system => exact absurd (Opcode.bits_of_ofBits hop).symm h
    | _ => rfl

/-- Programs of such words never trap. -/
theorem neverTraps_of_bytes {M : Type} (p : Setup M) (h : ∀ pc,byteWord (p.imem pc)=true) :
    NeverTraps p := by
  intro n
  have hslots := cycle_slots p n
  have hwords : WordsPass byteWord (p.cycle n).tracked := by
    unfold Setup.cycle
    rw [sysRun_tracked]
    exact trackedRun_words byteWord (fun _ => h _) n
  have hslot := hslots.wb
  cases hwb : (p.cycle n).tracked.tags.wb with
  | bubble b =>
    rw [hwb] at hslot
    exact inert_exception hslot.2
  | instr k =>
    rw [hwb] at hslot
    have hcarries : CarriesWb _ (decoder k.word k.mode.bits) := hslot.2.2
    have htest := hwords.wb k hwb
    simp only [byteWord,Bool.and_eq_true,Bool.or_eq_true,Bool.not_eq_true',bne_iff_ne,
      beq_iff_eq] at htest
    obtain ⟨⟨hop,hillegal⟩,hbytes⟩ := htest
    obtain ⟨hcsr,hecall,hebreak,-,-⟩ := decoder_nonSystem k.word k.mode.bits hop
    rw [decoder_mode hop PrivMode.m.bits k.mode.bits] at hillegal hbytes
    have haligned : ∀ addr,((decoder k.word k.mode.bits).mem.isLoad &&
        addrMisaligned (decoder k.word k.mode.bits).mem.memSize addr)=false ∧
        ((decoder k.word k.mode.bits).mem.isStore &&
        addrMisaligned (decoder k.word k.mode.bits).mem.memSize addr)=false := by
      intro addr
      obtain ⟨hload,hstore⟩ | hsize := hbytes
      · rw [hload,hstore]
        exact ⟨rfl,rfl⟩
      · rw [hsize]
        exact ⟨Bool.and_false _,Bool.and_false _⟩
    rw [hasSyncException_eq]
    simp only [hasTrap,wbCsrIllegal,csrReq,hcarries.illegalInstr,hcarries.isEcall,hcarries.isEbreak,
      hcarries.loadFault,hcarries.storeFault,hcarries.isCsr,hillegal,hecall,hebreak,hcsr,
      (haligned _).1,(haligned _).2]
    rfl

/-- A run whose register writes have left the tied core's log has other
results. -/
theorem results_differ {M : Type} {p : Setup M} {cache : ℕ → CacheCycle} {t : ℕ} (n : ℕ)
    (hshort : ¬eventLog (loopWrites p cache) t<+:eventLog (coreWrites p) n)
    (hlong : ¬eventLog (coreWrites p) n<+:eventLog (loopWrites p cache) t) :
    ¬SameResults p cache t := by
  rintro ⟨⟨m,-,hwrites⟩,-⟩
  rw [hwrites] at hshort hlong
  obtain hle | hle := Nat.le_total m n
  · exact hshort (eventLog_mono _ hle)
  · exact hlong (eventLog_mono _ hle)

/-- A cache that is ready except in one cycle. -/
def oneMiss (cycle : ℕ) : ℕ → CacheCycle := fun t => ⟨⟨true,t != cycle⟩,0xff⟩

/-- A cache that refuses requests in one cycle. -/
def oneRefusal (cycle : ℕ) : ℕ → CacheCycle := fun t => ⟨⟨t != cycle,true⟩,0xff⟩

/-- The program `lb x1,0(x0)`. -/
def loadByte : Setup ByteMemory := programSetup [0x00000083]

/-- The program `sb x0,0(x0); jal x1,8`, with `addi x3,x0,3` at the target. -/
def storeLink : Setup ByteMemory := programSetup [0x00000023,0x008000ef,0x00000013,0x00300193]

/-- The program `addi x1,x0,7; sb x0,0(x0); addi x2,x1,0`. -/
def storeForward : Setup ByteMemory := programSetup [0x00700093,0x00000023,0x00008113]

/-- Programs of byte accesses from the reset address never trap. -/
theorem neverTraps_program (program : List (BitVec 32)) (h : program.all byteWord=true) :
    NeverTraps (programSetup program) :=
  neverTraps_of_bytes _ (loadProgram_all byteWord resetPc program h (by decide +kernel))

/-- A waiting load writes its register with junk before the loaded byte; a
jump in EX behind a waiting store loses its link; an instruction behind a
waiting store loses the operand that WB forwards. -/
theorem stalls_change_results :
    (NeverTraps loadByte ∧ ¬SameResults loadByte (oneMiss 3) 6) ∧
    (NeverTraps storeLink ∧ ¬SameResults storeLink (oneRefusal 3) 9) ∧
    (NeverTraps storeForward ∧ ¬SameResults storeForward (oneRefusal 4) 8) := by
  refine ⟨⟨?_,?_⟩,⟨?_,?_⟩,?_,?_⟩
  · exact neverTraps_program _ (by decide +kernel)
  · exact results_differ 5 (by decide +kernel) (by decide +kernel)
  · exact neverTraps_program _ (by decide +kernel)
  · exact results_differ 6 (by decide +kernel) (by decide +kernel)
  · exact neverTraps_program _ (by decide +kernel)
  · exact results_differ 7 (by decide +kernel) (by decide +kernel)

/-- The program `addi x1,x0,7; sb x1,0(x0); beq x0,x0,8; addi x2,x0,1` with
`addi x3,x0,3` at the branch target. -/
def storeBranch : Setup ByteMemory :=
  programSetup [0x00700093,0x00100023,0x00000463,0x00100113,0x00300193]

/-- The store waits for two cycles with the branch in EX behind it; all
register and memory writes take place. -/
theorem stalls_keep_results_branch :
    let cache : ℕ → CacheCycle := fun t => ⟨⟨t != 4 && t != 5,true⟩,0xff⟩
    SameResults storeBranch cache 14 ∧ completed storeBranch cache 14=12 ∧
    takenWire (loopRun storeBranch cache 4).core=true ∧
    eventLog (loopWrites storeBranch cache) 14=[(1,7),(3,3)] ∧
    eventLog (loopStores storeBranch cache) 14=[⟨false,true,0,7,0⟩] := by
  refine ⟨stalls_keep_results storeBranch _ ?_ 14 ?_,?_⟩
  · exact neverTraps_program _ (by decide +kernel)
  · decide +kernel
  · decide +kernel

end Programs

end RichardCore.StallTolerance
