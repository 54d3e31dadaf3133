import RichardCore.PrivBench

/-!
# Confinement of user mode

Whatever instructions run in user mode, they change no CSR but the counters
and the floating-point state, and leave user mode only by a trap to the
vector that was there before. First one instruction of the reference, then a
run of it, then the compliance bench.
-/

namespace RichardCore.UserConfinement

open Packages Decoder DataMemory CsrUnit Pipeline Clocked Harness TestBench
open Encodings CsrTraps CsrStore PrivMachine PrivRefinement PrivBench
open Agreement Simulation TrapMachine TrapSimulation TrapRefinement TrapBench Isa IsaMachine

/-- Registers beyond user mode: all but the counters and the floating-point
state. -/
def Protected (c : Csr) : Prop := owner c≠.fcsr ∧ owner c∉counters

instance (c : Csr) : Decidable (Protected c) := inferInstanceAs (Decidable (_ ∧ _))

section Step

variable {s s' : PrivState}

/-- The tick of a cycle keeps them. -/
theorem read_tick (store : Store) {c : Csr} (h : Protected c) :
    layout.read (tick store) c=layout.read store c :=
  read_congr fun j _ => bit_tick_frame store h.2 j

/-- A CSR instruction keeps the registers of other owners. -/
theorem read_access (store : Store) (op : CsrOp) {csr c : Csr} (data : Word) (h : Protected c)
    (howner : owner csr≠owner c) :
    layout.read (access store op csr data) c=layout.read store c := by
  refine read_congr fun j _ => ?_
  unfold access written
  split
  · rw [layout.bit_assign_frame _ _ _ fun k _ => not_shares howner k j,bit_tick_frame store h.2]
  · exact bit_tick_frame store h.2 j

/-- The registers that user mode may write are not protected. -/
theorem userCsr_owner {addr : BitVec 12} {csr : Csr} (hpermitted : csrPermitted .u addr=true)
    (hfound : Csr.ofAddr addr=some csr) (hwritable : readOnly csr=false) :
    owner csr=.fcsr ∨ owner csr∈counters := by
  obtain rfl := Csr.addr_of_ofAddr hfound
  revert hpermitted hwritable
  cases csr <;> decide

/-- One instruction in user mode stays there with the protected registers
unchanged, or traps. -/
theorem privStep_user (hmode : s.csrs.mode=.u) (hstep : privStep s=some s') :
    (s'.csrs.mode=.u ∧ ∀ c,Protected c → s'.read c=s.read c) ∨
      ∃ cause value,s'=s.raise cause value := by
  have hproceed : ∀ regs pc mem,
      (PrivState.mk pc regs mem ⟨tick s.csrs.store,s.csrs.mode⟩).csrs.mode=.u ∧
      ∀ c,Protected c →
        (PrivState.mk pc regs mem ⟨tick s.csrs.store,s.csrs.mode⟩).read c=s.read c :=
    fun regs pc mem => ⟨hmode,fun c hc => read_tick s.csrs.store hc⟩
  obtain ⟨-,-,hcase⟩ := privStep_cases hstep
  cases hcase with
  | base i hword =>
    unfold PrivState.base
    split
    · exact .inl (hproceed _ _ _)
    · exact .inr ⟨_,_,rfl⟩
  | illegal hundefined => exact .inr ⟨_,_,rfl⟩
  | system i hword hpermitted hsystem =>
    rw [hmode] at hpermitted
    cases i with
    | fence ops rs1 rd =>
      obtain rfl := Option.some.inj hsystem
      exact .inl (hproceed _ _ _)
    | fenceI imm rs1 rd =>
      obtain rfl := Option.some.inj hsystem
      exact .inl (hproceed _ _ _)
    | sfenceVma rs1 rs2 => cases hpermitted
    | priv op =>
      cases op with
      | ecall =>
        obtain rfl := Option.some.inj hsystem
        exact .inr ⟨_,_,rfl⟩
      | ebreak =>
        obtain rfl := Option.some.inj hsystem
        exact .inr ⟨_,_,rfl⟩
      | wfi =>
        obtain rfl := Option.some.inj hsystem
        exact .inl (hproceed _ _ _)
      | mret => cases hpermitted
      | sret => cases hpermitted
    | csr op addr source rd =>
      unfold PrivState.system at hsystem
      dsimp only at hsystem
      cases hfound : Csr.ofAddr addr with
      | none =>
        rw [hfound] at hsystem
        obtain rfl := Option.some.inj hsystem
        exact .inr ⟨_,_,rfl⟩
      | some csr =>
        rw [hfound] at hsystem
        dsimp only at hsystem
        split_ifs at hsystem with hreadOnly hwrites
        · obtain rfl := Option.some.inj hsystem
          exact .inr ⟨_,_,rfl⟩
        · obtain rfl := Option.some.inj hsystem
          have howner := userCsr_owner hpermitted hfound (Bool.eq_false_of_not_eq_true hreadOnly)
          refine .inl ⟨hmode,fun c hc => read_access _ _ _ hc fun heq => ?_⟩
          rw [heq] at howner
          exact howner.elim hc.1 hc.2

/-- A trap from user mode notes it as the mode to return to. -/
theorem raise_saved (hmode : s.csrs.mode=.u) (cause value : Word) :
    (if s.delegated cause then savedS (s.raise cause value).csrs.store
      else savedM (s.raise cause value).csrs.store)=.u := by
  have hframe : ∀ a,a=.mstatus ∨ a=.sstatus → ∀ toS,a∉trapRegs toS := by
    rintro a (rfl | rfl) toS <;> cases toS <;> decide
  unfold PrivState.raise refTrap
  cases s.delegated cause with
  | true =>
    simp only [if_true]
    unfold savedS
    rw [bit_record_frame _ _ _ _ _ (hframe _ (.inr rfl) true),
      bit_setStatus_self (.inr rfl) _ _ _ (by decide),hmode]
    rfl
  | false =>
    simp only [Bool.false_eq_true,if_false]
    unfold savedM
    rw [bit_record_frame _ _ _ _ _ (hframe _ (.inl rfl) false),
      bit_record_frame _ _ _ _ _ (hframe _ (.inl rfl) false),
      bit_setStatus_self (.inl rfl) _ _ _ (by decide),
      bit_setStatus_self (.inl rfl) _ _ _ (by decide),hmode]
    rfl

end Step

section Run

variable {memory : ByteMemory}

/-- A run goes through a state before every instruction. -/
theorem privRun_pred {n : ℕ} {t : PrivState} (h : privRun memory (n+1)=some t) :
    ∃ r,privRun memory n=some r ∧ privStep r=some t := by
  rw [privRun] at h
  exact Option.bind_eq_some_iff.mp h

/-- A stretch of user mode keeps the protected registers, up to a trap that
ends it. -/
theorem privRun_user {m n : ℕ} (hle : m ≤ n) {s t : PrivState} (hs : privRun memory m=some s)
    (ht : privRun memory n=some t)
    (huser : ∀ k r,m ≤ k → k < n → privRun memory k=some r → r.csrs.mode=.u) :
    (t.csrs.mode=s.csrs.mode ∧ ∀ c,Protected c → t.read c=s.read c) ∨
      ∃ k r cause value,n=k+1 ∧ m ≤ k ∧ privRun memory k=some r ∧ r.csrs.mode=.u ∧
        s.csrs.mode=.u ∧ (∀ c,Protected c → r.read c=s.read c) ∧ t=r.raise cause value := by
  obtain ⟨d,rfl⟩ := Nat.exists_eq_add_of_le hle
  induction d generalizing t with
  | zero =>
    obtain rfl := Option.some.inj (hs.symm.trans ht)
    exact .inl ⟨rfl,fun _ _ => rfl⟩
  | succ d ih =>
    obtain ⟨r,hr,hstep⟩ := privRun_pred ht
    have hmode := huser (m+d) r (Nat.le_add_right m d) (Nat.lt_succ_self _) hr
    have hfirst := huser m s (Nat.le_refl m) (by omega) hs
    have hprev := ih (Nat.le_add_right m d) hr fun k r hk hlt => huser k r hk (by omega)
    have hsame : ∀ c,Protected c → r.read c=s.read c := by
      obtain ⟨-,hkept⟩ | ⟨k,r',cause,value,-,-,-,-,-,-,rfl⟩ := hprev
      · exact hkept
      · -- a trap has left user mode before
        change (if _ then PrivMode.s else .m)=.u at hmode
        split at hmode <;> cases hmode
    obtain ⟨hstays,hkept⟩ | ⟨cause,value,rfl⟩ := privStep_user hmode hstep
    · exact .inl ⟨hstays.trans hfirst.symm,fun c hc => (hkept c hc).trans (hsame c hc)⟩
    · exact .inr ⟨m+d,r,cause,value,rfl,Nat.le_add_right m d,hr,hmode,hfirst,hsame,rfl⟩

end Run

/-- After a flush the machine's next instruction is fetched. -/
theorem flushed_pc {M : Type} {p : Setup M} (hp : TrapRegular p) {t : ℕ}
    (hflush : wbFlushes p (p.cycle t).tracked.tags (committed p t)=true) :
    (p.cycle (t+1)).tracked.core.pc=(stateAt p (committed p (t+1))).pc := by
  have hwire := (trapSimulates_run hp t).flush_eq.trans hflush
  have hpc := coreStep_pc (p.cycle t).tracked.core ((p.cycle t).inputs p.imem p.dev .low) rfl
  have hnext := Tracking.tagStep_nextPc (p.cycle t).tracked.core (p.cycle t).tracked.tags
    ((p.cycle t).inputs p.imem p.dev .low) rfl
  have hlow : ((p.cycle t).inputs p.imem p.dev .low).irq=.low := rfl
  rw [hlow,if_pos hwire] at hpc hnext
  calc
    (p.cycle (t+1)).tracked.core.pc=_ := hpc
    _=(p.cycle (t+1)).tracked.tags.nextPc := hnext.symm
    _=_ := (trapSimulates_run hp (t+1)).nextPc

/-- Protected registers do not count. -/
theorem isCounter_protected {c : Csr} (h : Protected c) : isCounter c.addr=false := by
  revert h
  cases c <;> decide

/-- Where a trap goes. -/
structure Trapped (toS : Bool) (before after : CsrState) (pc : Word) : Prop where
  /-- Its mode. -/
  mode : after.privMode=if toS then .s else .m
  /-- That mode is the one to which the delegation register sends the cause. -/
  delegated : toS=(csrRdata before Csr.medeleg.addr).getLsbD
    (csrRdata after (if toS then Csr.scause else .mcause).addr).toNat
  /-- The core goes on at the vector of before. -/
  vector : pc=csrRdata before (if toS then Csr.stvec else .mtvec).addr&&&~~~3#64
  /-- User mode is noted as the mode to return to. -/
  saved : (if toS then (if after.sstatus.getLsbD sstatusSppBit then PrivMode.s else .u)
    else decodePrivMode (mppField after.mstatus))=.u
  /-- Only the status words and the recording registers of the mode change. -/
  kept : ∀ c,Protected c → owner c≠.mstatus → c∉trapRegs toS →
    csrRdata after c.addr=csrRdata before c.addr

section Bench

variable {memory : ByteMemory} {code : Word → Prop} (h : PrivProgram memory code) {t₀ t : ℕ}
  (hle : t₀ ≤ t)
  (huser : ∀ u,t₀ ≤ u → u < t → (runnerBench.state memory u).core.csr.privMode=.u)

include h huser

/-- Instructions that commit meanwhile run in user mode on the reference, from
a cycle of user mode on the bench. -/
theorem committed_user {k : ℕ} (hlo : committed (runnerBench.setup memory) t₀ ≤ k)
    (hhi : k < committed (runnerBench.setup memory) t) :
    t₀ ≤ issueAt (runnerBench.setup memory) k+2 ∧ issueAt (runnerBench.setup memory) k+2 < t ∧
      ∀ r,privRun memory k=some r → r.csrs.mode=.u := by
  have hschedule := wb_keeps h.regular
  have hstart : t₀ ≤ issueAt (runnerBench.setup memory) k+2 := Nat.le_of_not_lt fun hlt => by
    have hearly : k < committed (runnerBench.setup memory) t₀ := (hschedule.lt_tally k t₀).mpr hlt
    omega
  have hend : issueAt (runnerBench.setup memory) k+2 < t := (hschedule.lt_tally k t).mp hhi
  refine ⟨hstart,hend,fun r hr => ?_⟩
  obtain ⟨s,hs,-,hmode,-⟩ := h.file_now (issueAt (runnerBench.setup memory) k+2)
  have hnow : committed (runnerBench.setup memory) (issueAt (runnerBench.setup memory) k+2)=k :=
    hschedule.tally_due k
  rw [hnow] at hs
  obtain rfl := Option.some.inj (hs.symm.trans hr)
  exact hmode.symm.trans (huser _ hstart hend)

/-- An instruction that leaves user mode commits in the last cycle, and the
core goes on at the reference's next address. -/
theorem left_pc {k : ℕ} {r r' : PrivState} (hlo : committed (runnerBench.setup memory) t₀ ≤ k)
    (hlast : committed (runnerBench.setup memory) t=k+1) (hr : privRun memory k=some r)
    (hr' : privRun memory (k+1)=some r') (hmode : r.csrs.mode=.u) (hleft : r'.csrs.mode≠.u) :
    (runnerBench.state memory t).core.pc=r'.pc := by
  have hp := h.regular
  obtain ⟨hstart,hend,-⟩ := committed_user h huser hlo (by omega)
  have hschedule := wb_keeps hp
  -- no cycle of user mode can follow
  have hcycle : t=issueAt (runnerBench.setup memory) k+2+1 := by
    refine Nat.le_antisymm (Nat.le_of_not_lt fun hlt => ?_) hend
    have hpassed : committed (runnerBench.setup memory)
        (issueAt (runnerBench.setup memory) k+2+1)=k+1 := hschedule.tally_after k
    obtain ⟨s,hs,-,hnow,-⟩ := h.file_now (issueAt (runnerBench.setup memory) k+2+1)
    rw [hpassed] at hs
    obtain rfl := Option.some.inj (hs.symm.trans hr')
    exact hleft (hnow.symm.trans (huser _ (Nat.le_succ_of_le hstart) hlt))
  obtain ⟨s,hs,hsame⟩ := h.samePriv k
  obtain rfl := Option.some.inj (hs.symm.trans hr)
  obtain ⟨s',hs',hsame'⟩ := h.samePriv (k+1)
  obtain rfl := Option.some.inj (hs'.symm.trans hr')
  have hflushes : flushesAt (runnerBench.setup memory) k=true := by
    refine Bool.of_not_eq_false fun hquiet => hleft ?_
    obtain ⟨hstep,hfollows⟩ := trapStep_plain hsame hquiet
    have hkept : (stateAt (runnerBench.setup memory) (k+1)).csr.privMode=s.csrs.mode :=
      (congrArg (fun c => c.csr.privMode) hstep).trans hfollows.mode
    exact hsame'.csrs.mode.symm.trans (hkept.trans hmode)
  have hat : committed (runnerBench.setup memory) (issueAt (runnerBench.setup memory) k+2)=k :=
    hschedule.tally_due k
  have hlive : wbNow (runnerBench.setup memory) (issueAt (runnerBench.setup memory) k+2)=true :=
    (hschedule.happens_iff _).mpr ⟨k,rfl⟩
  have hflush : wbFlushes (runnerBench.setup memory)
      ((runnerBench.setup memory).cycle (issueAt (runnerBench.setup memory) k+2)).tracked.tags
      (committed (runnerBench.setup memory) (issueAt (runnerBench.setup memory) k+2))=true := by
    unfold wbFlushes
    rw [hat,hflushes]
    exact (Bool.and_true _).trans hlive
  have hpc := flushed_pc hp hflush
  obtain ⟨⟨word,hcore,-⟩,-⟩ := trapBeside_run runner_idleReads hp h.stable t
  rw [hcore]
  change ((runnerBench.setup memory).cycle t).tracked.core.pc=_
  rw [←hsame'.pc,←hlast]
  rw [←hcycle] at hpc
  exact hpc

end Bench

/-- On the compliance bench, for every privileged program that the pipeline
can run, over every stretch of ticks that the core spends in user mode,
whatever instructions it executes there: at its end the protected CSRs are
those of its beginning, in the same mode, or the core has just trapped. Then
it is in the mode to which the delegation register sent the cause, goes on at
the vector of the beginning, has noted user mode as the mode to return to,
and only the status words and that mode's recording registers have changed. -/
theorem user_confined (memory : ByteMemory) (code : Word → Prop) (h : PrivProgram memory code)
    {t₀ t : ℕ} (hle : t₀ ≤ t)
    (huser : ∀ u,t₀ ≤ u → u < t → (runnerBench.state memory u).core.csr.privMode=.u) :
    let before := (runnerBench.state memory t₀).core.csr
    let after := (runnerBench.state memory t).core.csr
    (after.privMode=before.privMode ∧
      ∀ c,Protected c → csrRdata after c.addr=csrRdata before c.addr) ∨
    ∃ toS,Trapped toS before after (runnerBench.state memory t).core.pc := by
  intro before after
  obtain ⟨s,hs,-,hmode,hread⟩ := h.file_now t₀
  obtain ⟨r',hr',-,hmode',hread'⟩ := h.file_now t
  have hbefore : ∀ c,Protected c → csrRdata before c.addr=s.read c := fun c hc =>
    hread c (isCounter_protected hc)
  have hafter : ∀ c,Protected c → csrRdata after c.addr=r'.read c := fun c hc =>
    hread' c (isCounter_protected hc)
  have hstretch := privRun_user (tally_mono _ hle) hs hr' fun k r hlo hhi hr =>
    (committed_user h huser hlo hhi).2.2 r hr
  obtain ⟨hstays,hkept⟩ | ⟨k,r,cause,value,hlast,hlo,hr,huserR,huserS,hkept,rfl⟩ := hstretch
  · refine .inl ⟨hmode'.trans (hstays.trans hmode.symm),fun c hc => ?_⟩
    rw [hafter c hc,hbefore c hc,hkept c hc]
  · -- the last instruction traps, with the delegation of the beginning
    have hmedeleg : csrRdata before Csr.medeleg.addr=r.read .medeleg :=
      (hbefore .medeleg (by decide)).trans (hkept .medeleg (by decide)).symm
    have hdelegated : r.delegated cause=(csrRdata before Csr.medeleg.addr).getLsbD cause.toNat := by
      unfold PrivState.delegated
      rw [huserR,hmedeleg]
      rfl
    have hrecord : ∀ toS,r.delegated cause=toS → ∀ c∈trapRegs toS,
        csrRdata after c.addr=trapWord r.pc cause value c := by
      rintro _ rfl c hc
      have hprotected : ∀ toS,∀ c∈trapRegs toS,Protected c := by
        intro toS
        cases toS <;> decide
      rw [hafter c (hprotected _ c hc),raise_record r cause value hc]
    have hcause :
        csrRdata after (if r.delegated cause then Csr.scause else .mcause).addr=cause := by
      cases hto : r.delegated cause with
      | true => exact hrecord true hto .scause (by decide)
      | false => exact hrecord false hto .mcause (by decide)
    have hvector : (r.raise cause value).pc=
        csrRdata before (if r.delegated cause then Csr.stvec else .mtvec).addr&&&~~~3#64 := by
      have hprotected : Protected (if r.delegated cause then Csr.stvec else .mtvec) := by
        split <;> decide
      rw [hbefore _ hprotected,←hkept _ hprotected]
      rfl
    have hnext : privRun memory (k+1)=some (r.raise cause value) := hlast.symm ▸ hr'
    have hleft : (r.raise cause value).csrs.mode≠.u := by
      change (if r.delegated cause then PrivMode.s else .m)≠.u
      split <;> decide
    have hpc := left_pc h huser hlo hlast hr hnext huserR hleft
    have hsaved : (if r.delegated cause then
        (if after.sstatus.getLsbD sstatusSppBit then PrivMode.s else .u)
        else decodePrivMode (mppField after.mstatus))=.u := by
      obtain ⟨-,hcsr⟩ := core_now runner_idleReads h.regular h.stable t
      obtain ⟨s',hs',hsame⟩ := h.samePriv (committed (runnerBench.setup memory) t)
      obtain rfl := Option.some.inj (hs'.symm.trans hr')
      obtain ⟨hsavedM,hsavedS⟩ := saved_modes hsame.csrs
      have hmstatus : after.mstatus=_ := (congrArg CsrState.mstatus hcsr :)
      have hsstatus : after.sstatus=_ := (congrArg CsrState.sstatus hcsr :)
      rw [hmstatus,hsstatus]
      refine Eq.trans ?_ (raise_saved huserR cause value)
      cases r.delegated cause with
      | true => exact hsavedS
      | false => exact hsavedM
    refine .inr ⟨r.delegated cause,hmode',?_,?_,?_,fun c hc hstatus hregs => ?_⟩
    · rw [hcause,hdelegated]
    · exact hpc.trans hvector
    · exact hsaved
    · rw [hafter c hc,raise_read r cause value hc.2 hstatus hregs,hkept c hc,hbefore c hc]

/-- The call from user mode ends its five ticks there in a trap. -/
theorem user_confined_userCall :
    ∃ toS,Trapped toS (runnerBench.state userCall 5).core.csr
      (runnerBench.state userCall 10).core.csr (runnerBench.state userCall 10).core.pc := by
  have huser : ∀ u,5 ≤ u → u < 10 → (runnerBench.state userCall u).core.csr.privMode=.u := by
    intro u hlo hhi
    interval_cases u <;> decide +kernel
  refine (user_confined userCall userCallCode userCall_program (by decide) huser).resolve_left ?_
  rintro ⟨hmode,-⟩
  revert hmode
  decide +kernel

end RichardCore.UserConfinement
