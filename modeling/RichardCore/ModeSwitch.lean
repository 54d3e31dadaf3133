import RichardCore.InterruptGate

/-!
# Privilege transitions

The trap controller picks the mode a trap goes to, the CSR file picks the
mode a return goes back to from a previous-mode field that software can
write. Traps only raise the mode, returns only lower it, and nothing else
moves it.
-/

namespace RichardCore.ModeSwitch

open Packages Decoder DataMemory CsrUnit CsrStatus TrapCtrl Clocked Tracking Harness
open InterruptGate

/-- The mode after a clock edge, by what the cycle does. -/
inductive ModeUpdate (s : CsrState) (i : CsrIn) : PrivMode → Prop where
  | trapS (h : TrapsToS i) : ModeUpdate s i .s
  | trapM (h : TrapsToM i) : ModeUpdate s i .m
  | sret (h : ReturnsS i) : ModeUpdate s i (if s.sstatus.getLsbD sstatusSppBit then .s else .u)
  | mret (h : ReturnsM i) : ModeUpdate s i (decodePrivMode (mppField s.mstatus))
  | keep (htrap : i.trapTrigger=false) (hmret : i.mretEn=false) (hsret : i.sretEn=false) :
      ModeUpdate s i s.privMode

/-- Every clock edge without reset is one of these. -/
theorem csrStep_mode (s : CsrState) (i : CsrIn) (hrst : i.rst=false) :
    ModeUpdate s i (csrStep s i).privMode := by
  have hphase := writePhase_privMode s i
  unfold csrStep
  rw [if_neg (by rw [hrst]; decide)]
  cases htrap : i.trapTrigger with
  | true =>
    rw [if_pos rfl]
    unfold enterTrap
    cases hs : i.trapToSMode with
    | true => exact .trapS ⟨htrap,hs⟩
    | false => exact .trapM ⟨htrap,hs⟩
  | false =>
    rw [if_neg (by decide)]
    unfold returnPhase
    dsimp only
    cases hsret : i.sretEn with
    | true => exact .sret ⟨htrap,hsret⟩
    | false =>
      cases hmret : i.mretEn with
      | true => exact .mret ⟨htrap,hmret⟩
      | false =>
        simp only [Bool.false_eq_true,if_false,hphase]
        exact .keep htrap hmret hsret

/-- The record in WB requests a return only where the decoder accepts it:
MRET in machine mode, SRET above user mode. -/
def ReturnsAccepted (s : CsrState) (w : MemWb) : Prop :=
  (w.isMret=true → s.privMode=.m) ∧ (w.isSret=true → s.privMode≠.u)

/-- The privileged instructions hold the two returns in these modes only. -/
theorem decodePrivileged_returns (word : BitVec 32) (mode : PrivMode) :
    ((decodePrivileged word mode.bits).isMret=true → mode=.m) ∧
    ((decodePrivileged word mode.bits).isSret=true → mode≠.u) := by
  unfold decodePrivileged
  cases mode <;> (repeat' split) <;> simp_all [sysDefaults,privGe,privRank,PrivMode.bits]

/-- A record whose instruction was decoded in the current mode requests its
returns there. -/
theorem returnsAccepted_of_carries {s : CsrState} {w : MemWb} {word : BitVec 32}
    (h : CarriesWb w (decoder word s.privMode.bits)) : ReturnsAccepted s w := by
  have hdecoder : ((decoder word s.privMode.bits).sys.isMret=true → s.privMode=.m) ∧
      ((decoder word s.privMode.bits).sys.isSret=true → s.privMode≠.u) := by
    have hprivileged := decodePrivileged_returns word s.privMode
    unfold decoder
    dsimp only
    repeat' split
    all_goals first
      | exact hprivileged
      | exact ⟨nofun,nofun⟩
  unfold ReturnsAccepted
  rw [h.isMret,h.isSret]
  exact hdecoder

/-- Delegation bit of a cause word: the bit of its cause number in mideleg for
an interrupt, in medeleg for an exception. -/
def delegates (s : CsrState) (cause : Word) : Bool :=
  if cause.msb then s.mideleg.getLsbD (cause&&&~~~interruptBit).toNat
  else s.medeleg.getLsbD cause.toNat

/-- Cause words of exceptions are small numbers. -/
theorem syncException_index {wbPc : Word} {w : WbOut} {faults : PageFaults} {privMode : BitVec 2}
    {cause value : Word} (h : syncException wbPc w faults privMode=some (cause,value)) :
    cause.msb=false ∧ (cause.setWidth 6).toNat=cause.toNat := by
  unfold syncException at h
  repeat' split at h
  all_goals cases h
  all_goals decide

/-- Cause words of interrupts are the interrupt bit and a small number. -/
theorem cause_index (l : Line) :
    l.cause.msb=true ∧ (l.cause.setWidth 6).toNat=(l.cause&&&~~~interruptBit).toNat := by
  cases l <;> decide

/-- A trap goes to supervisor mode exactly when it is taken below machine mode
and its cause is delegated. -/
theorem unitWires_delegates {s : CsrState} {i : UnitIn}
    (htrap : (unitWires s i).trapTrigger=true) :
    (unitWires s i).trapToSMode=true ↔
      s.privMode≠.m ∧ delegates s (unitWires s i).trapMcause=true := by
  let sync := syncException i.memWb.pc (wbStage i.memWb (csrRdata s (csrAddr i.memWb))
    (wbCsrIllegal i.memWb)) PageFaults.none s.privMode.bits
  let interrupt := interruptCause (gateOpen s) i.irq
  have htoS : (unitWires s i).trapToSMode=
      ((unitWires s i).trapTrigger && decide (s.privMode.bits≠PrivMode.m.bits) &&
        (if interrupt.isSome then s.mideleg else s.medeleg).getLsbD
          ((interrupt.getD (sync.getD (0,0)).1).setWidth 6).toNat) := rfl
  have hcause : (unitWires s i).trapMcause=interrupt.getD (sync.getD (0,0)).1 := if_pos htrap
  have htrigger : (interrupt.isSome || sync.isSome)=true := htrap
  rw [htoS,hcause,htrap,Bool.true_and,Bool.and_eq_true,decide_eq_true_eq,PrivMode.bits_ne_m]
  refine and_congr_right fun _ => ?_
  cases hint : interrupt with
  | some cause =>
    have hline : interruptCause (gateOpen s) i.irq=some cause := hint
    rw [interruptCause_eq] at hline
    split at hline
    · obtain ⟨l,-,rfl⟩ := Option.map_eq_some_iff.mp hline
      obtain ⟨hmsb,hindex⟩ := cause_index l
      simp only [delegates,Option.getD_some,Option.isSome_some,hmsb,hindex,if_true]
    · cases hline
  | none =>
    rw [hint,Option.isSome_none,Bool.false_or] at htrigger
    obtain ⟨⟨cause,value⟩,hsync⟩ := Option.isSome_iff_exists.mp htrigger
    obtain ⟨hmsb,hindex⟩ := syncException_index hsync
    simp only [delegates,hsync,Option.getD_none,Option.getD_some,Option.isSome_none,hmsb,hindex,
      Bool.false_eq_true,if_false]

/-- Machine mode is the highest. -/
theorem rank_le_m (mode : PrivMode) : privRank mode.bits≤privRank PrivMode.m.bits := by
  cases mode <;> decide

/-- Every other mode is at most supervisor mode. -/
theorem rank_le_s {mode : PrivMode} (h : mode≠.m) :
    privRank mode.bits≤privRank PrivMode.s.bits := by
  cases mode with
  | m => exact absurd rfl h
  | _ => decide

/-- A supervisor return does not raise a mode above user mode. -/
theorem rank_sret {mode : PrivMode} (h : mode≠.u) (spp : Bool) :
    privRank (if spp then PrivMode.s else PrivMode.u).bits≤privRank mode.bits := by
  cases mode with
  | u => exact absurd rfl h
  | _ => cases spp <;> decide

/-- In every run and every cycle without reset whose return requests the
decoder accepts: the mode is U, S or M; it rises only with a trap and falls
only with a return; a trap in M stays there; and a trap below M goes to S
exactly when its cause is delegated, otherwise to M. -/
theorem mode_transitions (inputs : ℕ → UnitIn) (t : ℕ) (hrst : (inputs t).rst=false)
    (hreturns : ReturnsAccepted (unitRun inputs t) (inputs t).memWb) :
    let s := unitRun inputs t
    let s' := unitRun inputs (t+1)
    let w := unitWires s (inputs t)
    (s'.privMode=.u ∨ s'.privMode=.s ∨ s'.privMode=.m) ∧
    (privRank s.privMode.bits < privRank s'.privMode.bits → w.trapTrigger=true) ∧
    (privRank s'.privMode.bits < privRank s.privMode.bits → ReturnsM w ∨ ReturnsS w) ∧
    (w.trapTrigger=true → s.privMode=.m → s'.privMode=.m) ∧
    (w.trapTrigger=true → s.privMode≠.m →
      s'.privMode=if delegates s w.trapMcause then .s else .m) := by
  intro s s' w
  have hupdate : ModeUpdate s w s'.privMode := csrStep_mode s w hrst
  refine ⟨by cases s'.privMode <;> simp,?_⟩
  generalize s'.privMode=mode at hupdate ⊢
  cases hupdate with
  | trapS h =>
    obtain ⟨hbelow,hdelegated⟩ := (unitWires_delegates h.1).mp h.2
    refine ⟨fun _ => h.1,fun hfall => ?_,fun _ hm => absurd hm hbelow,fun _ _ => ?_⟩
    · exact absurd hfall (Nat.not_lt.mpr (rank_le_s hbelow))
    · rw [if_pos hdelegated]
  | trapM h =>
    refine ⟨fun _ => h.1,fun hfall => ?_,fun _ _ => rfl,fun _ hbelow => ?_⟩
    · exact absurd hfall (Nat.not_lt.mpr (rank_le_m _))
    · rw [if_neg]
      intro hdelegated
      have htoS := (unitWires_delegates h.1).mpr ⟨hbelow,hdelegated⟩
      rw [h.2] at htoS
      cases htoS
  | sret h =>
    have hno : ¬w.trapTrigger=true := by
      rw [h.1]
      decide
    have hrequest : (inputs t).memWb.isSret=true := ((Bool.and_eq_true _ _).mp h.2).1
    have habove : s.privMode≠.u := hreturns.2 hrequest
    exact ⟨fun hrise => absurd hrise (Nat.not_lt.mpr (rank_sret habove _)),fun _ => .inr h,
      fun htrap => absurd htrap hno,fun htrap => absurd htrap hno⟩
  | mret h =>
    have hno : ¬w.trapTrigger=true := by
      rw [h.1]
      decide
    have hrequest : (inputs t).memWb.isMret=true := ((Bool.and_eq_true _ _).mp h.2).1
    have hmachine : s.privMode=.m := hreturns.1 hrequest
    refine ⟨fun hrise => ?_,fun _ => .inl h,fun htrap => absurd htrap hno,
      fun htrap => absurd htrap hno⟩
    rw [hmachine] at hrise
    exact absurd hrise (Nat.not_lt.mpr (rank_le_m _))
  | keep htrap hmret hsret =>
    have hno : ¬w.trapTrigger=true := by
      rw [htrap]
      decide
    exact ⟨fun h => absurd h (Nat.lt_irrefl _),fun h => absurd h (Nat.lt_irrefl _),
      fun h => absurd h hno,fun h => absurd h hno⟩

/-- MRET at the reset address: in its WB cycle the mode falls from M to U. -/
theorem mode_transitions_mret :
    let inputs := unitInputs (programInputs [0x30200073] fun _ => .low)
    (unitRun inputs 4).privMode=.m ∧ (unitRun inputs 5).privMode=.u ∧
    (ReturnsM (unitWires (unitRun inputs 4) (inputs 4)) ∨
      ReturnsS (unitWires (unitRun inputs 4) (inputs 4))) :=
  ⟨by decide +kernel,by decide +kernel,
    (mode_transitions (unitInputs (programInputs [0x30200073] fun _ => .low)) 4 rfl
      (by unfold ReturnsAccepted; decide +kernel)).2.2.1 (by decide +kernel)⟩

end RichardCore.ModeSwitch
