import RichardCore.Clocked
import RichardCore.CsrUnit

/-!
# Status registers across traps and returns

The machine and supervisor status words are two registers kept in step by
hand. One case analysis lists every way a clock edge can change the pair;
coherence, the separation of machine-level status from supervisor activity,
and the inverse laws of trap entry and return all follow from it.
-/

namespace RichardCore.CsrStatus

open Packages BitFields CsrUnit Clocked

/-- The cycle performs a CSR write to the named register. -/
def WritesAt (i : CsrIn) (csr : Csr) : Prop :=
  writesCsr i=true ∧ canonicalAddr i.csrAddr=csr.addr

/-- The cycle takes a trap into machine mode. -/
def TrapsToM (i : CsrIn) : Prop := i.trapTrigger=true ∧ i.trapToSMode=false

/-- The cycle takes a trap into supervisor mode. -/
def TrapsToS (i : CsrIn) : Prop := i.trapTrigger=true ∧ i.trapToSMode=true

/-- The cycle executes a machine return. -/
def ReturnsM (i : CsrIn) : Prop := i.trapTrigger=false ∧ i.mretEn=true

/-- The cycle executes a supervisor return. -/
def ReturnsS (i : CsrIn) : Prop := i.trapTrigger=false ∧ i.sretEn=true

instance (i : CsrIn) (csr : Csr) : Decidable (WritesAt i csr) :=
  inferInstanceAs (Decidable (_ ∧ _))
instance (i : CsrIn) : Decidable (TrapsToM i) := inferInstanceAs (Decidable (_ ∧ _))
instance (i : CsrIn) : Decidable (TrapsToS i) := inferInstanceAs (Decidable (_ ∧ _))
instance (i : CsrIn) : Decidable (ReturnsM i) := inferInstanceAs (Decidable (_ ∧ _))
instance (i : CsrIn) : Decidable (ReturnsS i) := inferInstanceAs (Decidable (_ ∧ _))

/-- Every way one cycle without reset can change the two status words. -/
inductive StatusUpdate (s : CsrState) (i : CsrIn) : Word → Word → Prop where
  | idle : StatusUpdate s i s.mstatus s.sstatus
  | writeM (data : Word) (h : WritesAt i .mstatus) :
      StatusUpdate s i data (mirrorMstatusToSstatus s.sstatus data)
  | writeS (data : Word) (h : WritesAt i .sstatus) :
      StatusUpdate s i (applySstatusToMstatus s.mstatus data) data
  | trapM (h : TrapsToM i) :
      StatusUpdate s i (trapMstatus s) (mirrorMstatusToSstatus s.sstatus (trapMstatus s))
  | trapS (h : TrapsToS i) :
      StatusUpdate s i (applySstatusToMstatus s.mstatus (trapSstatus s)) (trapSstatus s)
  | mret (h : ReturnsM i) :
      StatusUpdate s i (mretMstatus s) (mirrorMstatusToSstatus s.sstatus (mretMstatus s))
  | sret (h : ReturnsS i) :
      StatusUpdate s i (applySstatusToMstatus s.mstatus (sretSstatus s)) (sretSstatus s)

/-- The write phase ticks the counters and then performs at most one write,
to a named register. -/
theorem writePhase_cases (s : CsrState) (i : CsrIn) :
    writePhase s i=tickCounters s i.trapTrigger ∨
    ∃ csr,WritesAt i csr ∧
      writePhase s i=writeCsr s (tickCounters s i.trapTrigger) csr.addr i.csrRs1Data i.csrOp := by
  unfold writePhase
  dsimp only
  split
  · rename_i hwrite
    cases haddr : Csr.ofAddr (canonicalAddr i.csrAddr) with
    | none =>
      left
      unfold writeCsr
      rw [haddr]
    | some csr =>
      have hat : canonicalAddr i.csrAddr=csr.addr := (Csr.addr_of_ofAddr haddr).symm
      right
      exact ⟨csr,⟨hwrite,hat⟩,by rw [hat]⟩
  · exact Or.inl rfl

/-- The write phase changes the status words only through the two status
addresses. -/
theorem writePhase_status (s : CsrState) (i : CsrIn) :
    StatusUpdate s i (writePhase s i).mstatus (writePhase s i).sstatus := by
  obtain hphase | ⟨csr,hat,hphase⟩ := writePhase_cases s i
  · rw [hphase]
    exact .idle
  · rw [hphase]
    unfold writeCsr
    rw [Csr.ofAddr_addr]
    cases csr with
    | mstatus => exact .writeM _ hat
    | sstatus => exact .writeS _ hat
    | _ => exact .idle

/-- The status words after a clock edge without reset. The supervisor return
is assigned after the machine return, so it wins when both are requested. -/
theorem csrStep_status (s : CsrState) (i : CsrIn) (hrst : i.rst=false) :
    StatusUpdate s i (csrStep s i).mstatus (csrStep s i).sstatus := by
  have hphase := writePhase_status s i
  unfold csrStep
  rw [if_neg (by rw [hrst]; decide)]
  cases htrap : i.trapTrigger with
  | true =>
    rw [if_pos rfl]
    cases hs : i.trapToSMode with
    | true =>
      simp only [enterTrap,hs,if_true]
      exact .trapS ⟨htrap,hs⟩
    | false =>
      simp only [enterTrap,hs,Bool.false_eq_true,if_false]
      exact .trapM ⟨htrap,hs⟩
  | false =>
    rw [if_neg (by decide)]
    unfold returnPhase
    dsimp only
    cases hsret : i.sretEn with
    | true =>
      rw [if_pos rfl]
      exact .sret ⟨htrap,hsret⟩
    | false =>
      rw [if_neg (by decide)]
      cases hmret : i.mretEn with
      | true =>
        rw [if_pos rfl]
        exact .mret ⟨htrap,hmret⟩
      | false =>
        rw [if_neg (by decide)]
        exact hphase

/-- A write phase keeps each exception PC that it does not address. -/
theorem writePhase_epc (s : CsrState) (i : CsrIn) :
    (¬WritesAt i .mepc → (writePhase s i).mepc=s.mepc) ∧
    (¬WritesAt i .sepc → (writePhase s i).sepc=s.sepc) := by
  obtain hphase | ⟨csr,hat,hphase⟩ := writePhase_cases s i
  · rw [hphase]
    exact ⟨fun _ => rfl,fun _ => rfl⟩
  · rw [hphase]
    unfold writeCsr
    rw [Csr.ofAddr_addr]
    cases csr with
    | mepc => exact ⟨fun hno => absurd hat hno,fun _ => rfl⟩
    | sepc => exact ⟨fun _ => rfl,fun hno => absurd hat hno⟩
    | _ => exact ⟨fun _ => rfl,fun _ => rfl⟩

/-- The returns touch neither exception PC. -/
theorem returnPhase_epc (s n : CsrState) (i : CsrIn) :
    (returnPhase s n i).mepc=n.mepc ∧ (returnPhase s n i).sepc=n.sepc := by
  unfold returnPhase
  cases i.mretEn <;> cases i.sretEn <;> exact ⟨rfl,rfl⟩

/-- Only reset, a write to mepc and a trap into machine mode change mepc. -/
theorem csrStep_mepc (s : CsrState) (i : CsrIn) (hrst : i.rst=false)
    (hw : ¬WritesAt i .mepc) (ht : ¬TrapsToM i) : (csrStep s i).mepc=s.mepc := by
  have hphase := (writePhase_epc s i).1 hw
  unfold csrStep
  rw [if_neg (by rw [hrst]; decide)]
  split
  · rename_i htrap
    cases hs : i.trapToSMode with
    | true =>
      simp only [enterTrap,hs,if_true]
      exact hphase
    | false => exact absurd ⟨htrap,hs⟩ ht
  · rw [(returnPhase_epc s _ i).1]
    exact hphase

/-- Only reset, a write to sepc and a trap into supervisor mode change sepc. -/
theorem csrStep_sepc (s : CsrState) (i : CsrIn) (hrst : i.rst=false)
    (hw : ¬WritesAt i .sepc) (ht : ¬TrapsToS i) : (csrStep s i).sepc=s.sepc := by
  have hphase := (writePhase_epc s i).2 hw
  unfold csrStep
  rw [if_neg (by rw [hrst]; decide)]
  split
  · rename_i htrap
    cases hs : i.trapToSMode with
    | false =>
      simp only [enterTrap,hs,Bool.false_eq_true,if_false]
      exact hphase
    | true => exact absurd ⟨htrap,hs⟩ ht
  · rw [(returnPhase_epc s _ i).2]
    exact hphase

/-- The supervisor-visible bits of a status word: SIE, SPIE and SPP. -/
def supervisorBits (status : Word) : Bool × Bool × Bool :=
  (status.getLsbD sstatusSieBit,status.getLsbD sstatusSpieBit,status.getLsbD sstatusSppBit)

/-- The machine-level bits of mstatus: MIE, MPIE and the two MPP bits. -/
def machineBits (mstatus : Word) : Bool × Bool × BitVec 2 :=
  (mstatus.getLsbD mstatusMieBit,mstatus.getLsbD mstatusMpieBit,mppField mstatus)

/-- Both status words show the same supervisor bits. -/
def Coherent (s : CsrState) : Prop := supervisorBits s.sstatus=supervisorBits s.mstatus

/-- The previous-mode field read bit by bit. -/
theorem mppField_eq (x : Word) :
    mppField x=BitVec.ofBool (x.getLsbD mstatusMppHi)++BitVec.ofBool (x.getLsbD mstatusMppLo) := by
  apply BitVec.eq_of_getLsbD_eq
  intro j hj
  unfold mppField
  rw [BitVec.getLsbD_extractLsb',BitVec.getLsbD_append]
  have hcases : j=0 ∨ j=1 := by omega
  rcases hcases with rfl|rfl <;> simp [mstatusMppLo,mstatusMppHi]

/-- Positions of the supervisor bits, which both status words show. -/
def SharedStatus (j : ℕ) : Prop := j=sstatusSieBit ∨ j=sstatusSpieBit ∨ j=sstatusSppBit

instance (j : ℕ) : Decidable (SharedStatus j) := inferInstanceAs (Decidable (_ ∨ _))

/-- A word mirrored into another replaces the shared positions. -/
theorem mirror_bit (x y : Word) {j : ℕ} (hj : j < 64) :
    (mirrorMstatusToSstatus x y).getLsbD j=
      if SharedStatus j then y.getLsbD j else x.getLsbD j := by
  unfold mirrorMstatusToSstatus SharedStatus
  rw [getLsbD_setBit _ _ _ _ hj,getLsbD_setBit _ _ _ _ hj,getLsbD_setBit _ _ _ _ hj]
  grind

/-- Mirroring copies exactly the supervisor bits of the machine word. -/
theorem mirror_supervisorBits (sstatus mstatus : Word) :
    supervisorBits (mirrorMstatusToSstatus sstatus mstatus)=supervisorBits mstatus := by
  simp [supervisorBits,mirrorMstatusToSstatus,sstatusSieBit,sstatusSpieBit,
    sstatusSppBit]

/-- Applying copies exactly the supervisor bits of the supervisor word. -/
theorem apply_supervisorBits (mstatus sstatus : Word) :
    supervisorBits (applySstatusToMstatus mstatus sstatus)=supervisorBits sstatus :=
  mirror_supervisorBits mstatus sstatus

/-- Applying supervisor bits leaves the machine bits alone. -/
theorem apply_machineBits (mstatus sstatus : Word) :
    machineBits (applySstatusToMstatus mstatus sstatus)=machineBits mstatus := by
  simp [machineBits,mppField_eq,applySstatusToMstatus,sstatusSieBit,sstatusSpieBit,
    sstatusSppBit,mstatusMieBit,mstatusMpieBit,mstatusMppLo,mstatusMppHi]

/-- A trap into machine mode keeps the supervisor bits of mstatus. -/
theorem trapMstatus_supervisorBits (s : CsrState) :
    supervisorBits (trapMstatus s)=supervisorBits s.mstatus := by
  simp [supervisorBits,trapMstatus,sstatusSieBit,sstatusSpieBit,sstatusSppBit,
    mstatusMieBit,mstatusMpieBit,mstatusMppLo,mstatusMppHi]

/-- A machine return keeps the supervisor bits of mstatus. -/
theorem mretMstatus_supervisorBits (s : CsrState) :
    supervisorBits (mretMstatus s)=supervisorBits s.mstatus := by
  simp [supervisorBits,mretMstatus,sstatusSieBit,sstatusSpieBit,sstatusSppBit,
    mstatusMieBit,mstatusMpieBit,mstatusMppLo,mstatusMppHi]

/-- A trap into machine mode saves the interrupt enable and the mode. -/
theorem trapMstatus_machineBits (s : CsrState) :
    machineBits (trapMstatus s)=
      (false,s.mstatus.getLsbD mstatusMieBit,encodePrivMode s.privMode) := by
  have hmpp : mppField (trapMstatus s)=encodePrivMode s.privMode := by
    rw [mppField_eq]
    cases hp : s.privMode <;>
      simp [trapMstatus,hp,encodePrivMode,PrivMode.bits,
        mstatusMieBit,mstatusMpieBit,mstatusMppLo,mstatusMppHi]
  unfold machineBits
  rw [hmpp]
  simp [trapMstatus,mstatusMieBit,mstatusMpieBit,mstatusMppLo,mstatusMppHi]

/-- Storing and reloading a privilege mode is lossless. -/
theorem decodePrivMode_encode (p : PrivMode) : decodePrivMode (encodePrivMode p)=p := by
  cases p <;> rfl

/-- The reset status words are coherent. -/
theorem csrReset_coherent : Coherent csrReset := rfl

/-- Any clock edge keeps the two status words coherent. -/
theorem csrStep_coherent (s : CsrState) (i : CsrIn) (h : Coherent s) : Coherent (csrStep s i) := by
  cases hrst : i.rst with
  | true =>
    have hreset : csrStep s i=csrReset := by
      unfold csrStep
      rw [if_pos hrst]
    rw [hreset]
    rfl
  | false =>
    have hupdate := csrStep_status s i hrst
    unfold Coherent at h ⊢
    generalize (csrStep s i).mstatus=m,(csrStep s i).sstatus=x at hupdate ⊢
    cases hupdate with
    | idle => exact h
    | writeM data hw => exact mirror_supervisorBits _ _
    | writeS data hw => exact (apply_supervisorBits _ _).symm
    | trapM ht => exact mirror_supervisorBits _ _
    | trapS ht => exact (apply_supervisorBits _ _).symm
    | mret hr => exact mirror_supervisorBits _ _
    | sret hr => exact (apply_supervisorBits _ _).symm

/-- Supervisor activity never touches machine-level status. -/
theorem csrStep_machineBits (s : CsrState) (i : CsrIn) (hrst : i.rst=false)
    (hw : ¬WritesAt i .mstatus) (ht : ¬TrapsToM i) (hr : ¬ReturnsM i) :
    machineBits (csrStep s i).mstatus=machineBits s.mstatus := by
  have hupdate := csrStep_status s i hrst
  generalize (csrStep s i).mstatus=m,(csrStep s i).sstatus=x at hupdate ⊢
  cases hupdate with
  | idle => rfl
  | writeM data h => exact absurd h hw
  | writeS data h => exact apply_machineBits _ _
  | trapM h => exact absurd h ht
  | trapS h => exact apply_machineBits _ _
  | mret h => exact absurd h hr
  | sret h => exact apply_machineBits _ _

/-- Machine activity never touches the supervisor bits of a coherent pair. -/
theorem csrStep_supervisorBits (s : CsrState) (i : CsrIn) (hrst : i.rst=false) (hc : Coherent s)
    (hm : ¬WritesAt i .mstatus) (hw : ¬WritesAt i .sstatus) (ht : ¬TrapsToS i)
    (hr : ¬ReturnsS i) :
    supervisorBits (csrStep s i).sstatus=supervisorBits s.sstatus := by
  have hupdate := csrStep_status s i hrst
  unfold Coherent at hc
  generalize (csrStep s i).mstatus=m,(csrStep s i).sstatus=x at hupdate ⊢
  cases hupdate with
  | idle => rfl
  | writeM data h => exact absurd h hm
  | writeS data h => exact absurd h hw
  | trapM h => rw [mirror_supervisorBits,trapMstatus_supervisorBits,hc]
  | trapS h => exact absurd h ht
  | mret h => rw [mirror_supervisorBits,mretMstatus_supervisorBits,hc]
  | sret h => exact absurd h hr

/-- In every state reachable from reset under any inputs the supervisor bits
of sstatus equal those of mstatus; and from any state a cycle without reset,
without a write to mstatus, without a trap into machine mode and without a
machine return keeps MIE, MPIE and MPP. -/
theorem status_coherence :
    (∀ (inputs : ℕ → CsrIn) (t : ℕ), Coherent (runFrom csrStep csrReset inputs t)) ∧
    ∀ (s : CsrState) (i : CsrIn), i.rst=false → ¬WritesAt i .mstatus → ¬TrapsToM i →
      ¬ReturnsM i → machineBits (csrStep s i).mstatus=machineBits s.mstatus :=
  ⟨fun inputs t => runFrom_always Coherent csrReset_coherent csrStep_coherent inputs t,
    csrStep_machineBits⟩

/-- The second half is used at a write through sstatus with SIE set. -/
theorem status_coherence_sstatus_write :
    ∃ i : CsrIn, WritesAt i .sstatus ∧
      machineBits (csrStep csrReset i).mstatus=machineBits csrReset.mstatus := by
  refine ⟨⟨false,true,0b001,Csr.sstatus.addr,2,false,false,0,0,0,false,false⟩,by decide,?_⟩
  exact status_coherence.2 _ _ rfl (by decide) (by decide) (by decide)

/-- Context saved by a trap into machine mode: the PC, the interrupt enable
and the interrupted mode. -/
structure SavedM (epc : Word) (enable : Bool) (mode : PrivMode) (s : CsrState) : Prop where
  /-- The exception PC. -/
  epc : s.mepc=epc
  /-- The previous interrupt enable. -/
  enable : s.mstatus.getLsbD mstatusMpieBit=enable
  /-- The previous privilege mode. -/
  mode : mppField s.mstatus=encodePrivMode mode

/-- Context saved by a trap into supervisor mode, with both status words in
step so that machine activity cannot disturb it. -/
structure SavedS (epc : Word) (enable : Bool) (mode : PrivMode) (s : CsrState) : Prop where
  /-- The exception PC. -/
  epc : s.sepc=epc
  /-- The previous interrupt enable. -/
  enable : s.sstatus.getLsbD sstatusSpieBit=enable
  /-- The previous privilege bit. -/
  mode : s.sstatus.getLsbD sstatusSppBit=decide (mode=.s)
  /-- The status words agree. -/
  coherent : Coherent s

/-- A cycle a machine-mode handler may contain: no reset, no write to mstatus
or mepc, no further trap into machine mode and no machine return. -/
def HandlerM (i : CsrIn) : Prop :=
  i.rst=false ∧ ¬WritesAt i .mstatus ∧ ¬WritesAt i .mepc ∧ ¬TrapsToM i ∧ ¬ReturnsM i

/-- A cycle a supervisor handler may contain: no reset, no write to mstatus,
sstatus or sepc, no further trap into supervisor mode and no supervisor
return. -/
def HandlerS (i : CsrIn) : Prop :=
  i.rst=false ∧ ¬WritesAt i .mstatus ∧ ¬WritesAt i .sstatus ∧ ¬WritesAt i .sepc ∧
    ¬TrapsToS i ∧ ¬ReturnsS i

instance (i : CsrIn) : Decidable (HandlerM i) := inferInstanceAs (Decidable (_ ∧ _))
instance (i : CsrIn) : Decidable (HandlerS i) := inferInstanceAs (Decidable (_ ∧ _))

/-- A trap into machine mode saves its context, whatever else the cycle
requests. -/
theorem csrStep_trapM (s : CsrState) (i : CsrIn) (hrst : i.rst=false) (ht : TrapsToM i) :
    SavedM i.trapMepc (s.mstatus.getLsbD mstatusMieBit) s.privMode (csrStep s i) := by
  obtain ⟨htrap,hs⟩ := ht
  have hbits := trapMstatus_machineBits s
  simp only [machineBits,Prod.mk.injEq] at hbits
  rw [csrStep_trap s i hrst htrap]
  simp only [enterTrap,hs,Bool.false_eq_true,if_false]
  exact ⟨rfl,hbits.2.1,hbits.2.2⟩

/-- A trap into supervisor mode saves its context, whatever else the cycle
requests. -/
theorem csrStep_trapS (s : CsrState) (i : CsrIn) (hrst : i.rst=false) (ht : TrapsToS i) :
    SavedS i.trapMepc (s.sstatus.getLsbD sstatusSieBit) s.privMode (csrStep s i) := by
  obtain ⟨htrap,hs⟩ := ht
  rw [csrStep_trap s i hrst htrap]
  simp only [enterTrap,hs,if_true]
  refine ⟨rfl,?_,?_,(apply_supervisorBits _ _).symm⟩
  · simp [trapSstatus,sstatusSieBit,sstatusSpieBit,sstatusSppBit]
  · simp only [trapSstatus,sstatusSieBit,sstatusSpieBit,sstatusSppBit]
    rw [getLsbD_setBit _ _ _ _ (by decide),if_pos rfl]
    cases s.privMode <;> rfl

/-- A handler cycle keeps the context saved for machine mode. -/
theorem csrStep_savedM {epc : Word} {enable : Bool} {mode : PrivMode} (s : CsrState) (i : CsrIn)
    (h : SavedM epc enable mode s) (hi : HandlerM i) : SavedM epc enable mode (csrStep s i) := by
  obtain ⟨hrst,hmstatus,hmepc,htrap,hret⟩ := hi
  have hbits := csrStep_machineBits s i hrst hmstatus htrap hret
  simp only [machineBits,Prod.mk.injEq] at hbits
  refine ⟨?_,?_,?_⟩
  · rw [csrStep_mepc s i hrst hmepc htrap,h.epc]
  · rw [hbits.2.1,h.enable]
  · rw [hbits.2.2,h.mode]

/-- A handler cycle keeps the context saved for supervisor mode. -/
theorem csrStep_savedS {epc : Word} {enable : Bool} {mode : PrivMode} (s : CsrState) (i : CsrIn)
    (h : SavedS epc enable mode s) (hi : HandlerS i) : SavedS epc enable mode (csrStep s i) := by
  obtain ⟨hrst,hmstatus,hsstatus,hsepc,htrap,hret⟩ := hi
  have hbits := csrStep_supervisorBits s i hrst h.coherent hmstatus hsstatus htrap hret
  simp only [supervisorBits,Prod.mk.injEq] at hbits
  refine ⟨?_,?_,?_,csrStep_coherent s i h.coherent⟩
  · rw [csrStep_sepc s i hrst hsepc htrap,h.epc]
  · rw [hbits.2.1,h.enable]
  · rw [hbits.2.2,h.mode]

/-- A machine return restores the saved mode and interrupt enable. -/
theorem csrStep_mret {epc : Word} {enable : Bool} {mode : PrivMode} (s : CsrState) (i : CsrIn)
    (h : SavedM epc enable mode s) (hrst : i.rst=false) (hr : ReturnsM i) (hs : i.sretEn=false) :
    (csrStep s i).privMode=mode ∧ (csrStep s i).mstatus.getLsbD mstatusMieBit=enable := by
  have hstep : csrStep s i=returnM s (writePhase s i) := by
    unfold csrStep returnPhase
    simp only [hrst,hr.1,hr.2,hs,Bool.false_eq_true,if_false,if_true]
  rw [hstep]
  constructor
  · simp only [returnM,h.mode,decodePrivMode_encode]
  · rw [←h.enable]
    simp [returnM,mretMstatus,mstatusMieBit,mstatusMpieBit,mstatusMppLo,mstatusMppHi]

/-- A supervisor return restores the saved mode and interrupt enable. -/
theorem csrStep_sret {epc : Word} {enable : Bool} {mode : PrivMode} (s : CsrState) (i : CsrIn)
    (h : SavedS epc enable mode s) (hmode : mode≠.m) (hrst : i.rst=false) (hr : ReturnsS i) :
    (csrStep s i).privMode=mode ∧ (csrStep s i).sstatus.getLsbD sstatusSieBit=enable := by
  have hstep : csrStep s i=returnS s (if i.mretEn then returnM s (writePhase s i)
      else writePhase s i) := by
    unfold csrStep returnPhase
    simp only [hrst,hr.1,hr.2,Bool.false_eq_true,if_false,if_true]
  rw [hstep]
  constructor
  · simp only [returnS,h.mode]
    cases mode with
    | u => rfl
    | s => rfl
    | m => exact absurd rfl hmode
  · rw [←h.enable]
    simp [returnS,sretSstatus,sstatusSieBit,sstatusSpieBit,sstatusSppBit]

/-- Trap entry and return are inverse across any handler. Into machine mode:
from any state, a trap followed by any handler cycles and a machine return
reads the saved PC and restores mode and MIE; into supervisor mode likewise
for an interrupted mode other than M. -/
theorem trap_return_inverse :
    (∀ (s : CsrState) (entry : CsrIn) (handler : List CsrIn) (leave : CsrIn),
      entry.rst=false → TrapsToM entry → (∀ i∈handler,HandlerM i) →
      leave.rst=false → ReturnsM leave → leave.sretEn=false →
      let before := handler.foldl csrStep (csrStep s entry)
      before.mepc=entry.trapMepc ∧ (csrStep before leave).privMode=s.privMode ∧
        (csrStep before leave).mstatus.getLsbD mstatusMieBit=s.mstatus.getLsbD mstatusMieBit) ∧
    (∀ (s : CsrState) (entry : CsrIn) (handler : List CsrIn) (leave : CsrIn),
      s.privMode≠.m → entry.rst=false → TrapsToS entry → (∀ i∈handler,HandlerS i) →
      leave.rst=false → ReturnsS leave → leave.mretEn=false →
      let before := handler.foldl csrStep (csrStep s entry)
      before.sepc=entry.trapMepc ∧ (csrStep before leave).privMode=s.privMode ∧
        (csrStep before leave).sstatus.getLsbD sstatusSieBit=s.sstatus.getLsbD sstatusSieBit) := by
  constructor
  · intro s entry handler leave hrst htrap hhandler hleave hret hsret
    have hsaved := handler.foldlRecOn csrStep (csrStep_trapM s entry hrst htrap)
      fun x hx i hi => csrStep_savedM x i hx (hhandler i hi)
    exact ⟨hsaved.epc,csrStep_mret _ leave hsaved hleave hret hsret⟩
  · intro s entry handler leave hmode hrst htrap hhandler hleave hret _
    have hsaved := handler.foldlRecOn csrStep (csrStep_trapS s entry hrst htrap)
      fun x hx i hi => csrStep_savedS x i hx (hhandler i hi)
    exact ⟨hsaved.epc,csrStep_sret _ leave hsaved hmode hleave hret⟩

/-- An idle cycle of the CSR file. -/
def idleCycle : CsrIn := ⟨false,false,0,0,0,false,false,0,0,0,false,false⟩

/-- A user-mode state with interrupts enabled at both levels. -/
def userState : CsrState := {csrReset with privMode := .u, mstatus := 0x0A, sstatus := 0x02}

/-- A machine handler that writes sstatus and holds a nested supervisor trap
with its return. -/
def machineHandler : List CsrIn :=
  [{idleCycle with
      csrReq := true, csrOp := 0b001, csrAddr := Csr.sstatus.addr, csrRs1Data := 0x100},
    {idleCycle with trapTrigger := true, trapToSMode := true},
    {idleCycle with sretEn := true}]

/-- A supervisor handler that holds a nested machine trap with its return. -/
def supervisorHandler : List CsrIn :=
  [{idleCycle with trapTrigger := true},{idleCycle with mretEn := true}]

/-- State at the end of the machine handler entered from user mode. -/
def machineHandled : CsrState :=
  machineHandler.foldl csrStep
    (csrStep userState {idleCycle with trapTrigger := true, trapMepc := 0x80000010})

/-- State at the end of the supervisor handler entered from user mode. -/
def supervisorHandled : CsrState :=
  supervisorHandler.foldl csrStep (csrStep userState
    {idleCycle with trapTrigger := true, trapToSMode := true, trapMepc := 0x80000020})

/-- Both laws at a user-mode state with interrupts enabled and nested
activity inside the handlers. -/
theorem trap_return_inverse_nested :
    (machineHandled.mepc=0x80000010 ∧
      (csrStep machineHandled {idleCycle with mretEn := true}).privMode=.u ∧
      (csrStep machineHandled {idleCycle with mretEn := true}).mstatus.getLsbD mstatusMieBit=true) ∧
    (supervisorHandled.sepc=0x80000020 ∧
      (csrStep supervisorHandled {idleCycle with sretEn := true}).privMode=.u ∧
      (csrStep supervisorHandled {idleCycle with sretEn := true}).sstatus.getLsbD
        sstatusSieBit=true) :=
  ⟨trap_return_inverse.1 userState _ machineHandler _ rfl (by decide) (by decide) rfl (by decide)
      rfl,
    trap_return_inverse.2 userState _ supervisorHandler _ (by decide) rfl (by decide) (by decide)
      rfl (by decide) rfl⟩

end RichardCore.CsrStatus
