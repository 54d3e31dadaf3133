import RichardCore.Simulation

/-!
# The pipeline refines the sequential machine

Runs of the closed loop with the interrupt lines low. The register writes,
the data-memory requests and the retired addresses of the core are initial
segments of the machine's, every used operand delivered to EX is the
machine's, and every instruction costs at most three cycles.
-/

namespace RichardCore.Refinement

open Packages Decoder Execute DataMemory CsrUnit TrapCtrl Hazard Pipeline Clocked Tracking
open ProgramOrder Effects Harness SequentialMachine Agreement Simulation

section Runs

variable {M : Type} (p : Setup M)

/-- WB holds an instruction in cycle `t`. -/
def wbFilled (t : ℕ) : Bool := filled (p.cycle t).tracked.tags.wb

/-- MEM holds an instruction in cycle `t`. -/
def memFilled (t : ℕ) : Bool := filled (p.cycle t).tracked.tags.mem

/-- EX holds an instruction in cycle `t`. -/
def exFilled (t : ℕ) : Bool := filled (p.cycle t).tracked.tags.ex

/-- Instructions that have passed WB before cycle `t`. -/
def retired (t : ℕ) : ℕ := tally (wbFilled p) t

/-- Instructions that have passed MEM before cycle `t`. -/
def accessed (t : ℕ) : ℕ := tally (memFilled p) t

/-- Instructions that have passed EX before cycle `t`: those older than the
instruction in EX. -/
def issued (t : ℕ) : ℕ := tally (exFilled p) t

/-- The reset state simulates the start of the machine. -/
theorem simulates_reset : Simulates p (p.cycle 0) 0 :=
  ⟨slotsOk_reset 0,inOrder_reset 0,rfl,rfl,rfl,rfl,fun _ h => (nomatch h),fun _ h => (nomatch h),
    fun _ h => (nomatch h),fun _ h => (nomatch h),fun _ h => (nomatch h),fun _ h => (nomatch h)⟩

variable {p} (hp : Regular p)

include hp

/-- Every cycle simulates the machine after the retired instructions. -/
theorem simulates_run (t : ℕ) : Simulates p (p.cycle t) (retired p t) := by
  induction t with
  | zero => exact simulates_reset p
  | succ t ih => exact simulates_step hp ih

/-- MEM moves to WB. -/
theorem wbFilled_succ (t : ℕ) : wbFilled p (t+1)=memFilled p t :=
  congrArg filled (wb_noFlush rfl ((simulates_run hp t).noFlush hp))

omit hp in
/-- EX moves to MEM. -/
theorem memFilled_succ (t : ℕ) : memFilled p (t+1)=exFilled p t := by
  have hmem : (p.cycle (t+1)).tracked.tags.mem=_ :=
    tagStep_mem (p.cycle t).tracked.core (p.cycle t).tracked.tags
      ((p.cycle t).inputs p.imem p.dev .low) rfl
  unfold memFilled exFilled
  rw [hmem]
  cases (p.cycle t).tracked.tags.ex <;> rfl

/-- The instruction in MEM is the next one to access memory. -/
theorem memIndex_eq (t : ℕ) :
    memIndex (p.cycle t).tracked.tags (retired p t)=accessed p t :=
  tally_shift rfl (wbFilled_succ hp) t

/-- The instruction in EX is the next one to issue. -/
theorem exIndex_eq (t : ℕ) :
    exIndex (p.cycle t).tracked.tags (retired p t)=issued p t := by
  unfold exIndex
  rw [memIndex_eq hp]
  exact tally_shift rfl memFilled_succ t

end Runs

section Logs

variable {M : Type} (p : Setup M)

/-- Register write of a writeback stage, x0 excepted. -/
def writeEvent (w : WbOut) : List (RegAddr × Word) :=
  if w.regWriteEn && w.rdAddr != 0 then [(w.rdAddr,w.rdWdata)] else []

/-- An inert record writes no register. -/
theorem inert_write {s : CoreState} (h : InertWb s.memWb) : writeEvent (wbWires s)=[] := by
  have hquiet := (silentWb_of_inert h).regWrite
  unfold regWriteWire at hquiet
  unfold writeEvent
  rw [hquiet]
  rfl

/-- Agreeing records write the same register with the same value, provided no
counter is read into a register. -/
theorem agreesWb_writeEvent {w w' : MemWb} (h : AgreesWb w w') {csr csr' : CsrState}
    (hcsr : eraseCounters csr=eraseCounters csr')
    (hcounter : w'.isCsr=true → isCounter (csrAddr w')=true → w'.wb.rdAddr=0) :
    writeEvent (wbOf w csr)=writeEvent (wbOf w' csr') := by
  obtain ⟨-,hen,hdata⟩ := h.regfileWrite hcsr (fun _ => 0) hcounter
  have hrd : (wbOf w csr).rdAddr=(wbOf w' csr').rdAddr := congrArg (fun c => c.rdAddr) h.wb
  unfold writeEvent
  rw [hen,hrd]
  split
  · rename_i hcond
    rw [Bool.and_eq_true,bne_iff_ne] at hcond
    rw [hdata (hen.trans hcond.1) hcond.2]
  · rfl

/-- Request of a memory stage, when it reads or writes. -/
def requestEvent (r : DmemReq) : List DmemReq := if r.readEn || r.writeEn then [r] else []

/-- Register writes the core commits in a cycle. -/
def coreWrites (t : ℕ) : List (RegAddr × Word) := writeEvent (wbWires (p.cycle t).tracked.core)

/-- Register writes of a machine instruction. -/
def machineWrites (n : ℕ) : List (RegAddr × Word) := writeEvent (seqWb p.imem p.dev (p.machine n))

/-- Data-memory requests the core issues in a cycle. -/
def coreRequests (t : ℕ) : List DmemReq := requestEvent (p.cycle t).request

/-- Data-memory requests of a machine instruction. -/
def machineRequests (n : ℕ) : List DmemReq := requestEvent (seqReq p.imem (p.machine n))

/-- Address of the instruction that passes WB in a cycle. -/
def coreRetires (t : ℕ) : List Word :=
  match (p.cycle t).tracked.tags.wb with
  | .bubble _ => []
  | .instr k => [k.pc]

/-- Address of a machine instruction. -/
def machineRetires (n : ℕ) : List Word := [(p.machine n).pc]

variable {p} (hp : Regular p)

include hp

/-- A cycle commits the writes of the next instruction or nothing. -/
theorem coreWrites_eq (t : ℕ) :
    coreWrites p t=if wbFilled p t then machineWrites p (retired p t) else [] := by
  have h := simulates_run hp t
  unfold coreWrites wbFilled
  cases hslot : (p.cycle t).tracked.tags.wb with
  | bubble b =>
    have hwb := h.slots.wb
    rw [hslot] at hwb
    exact inert_write hwb.2
  | instr k =>
    obtain ⟨-,-,hagrees⟩ := h.wb k hslot
    exact agreesWb_writeEvent hagrees h.csr (hp.counterFree (retired p t))

/-- A cycle issues the request of the next instruction or nothing. -/
theorem coreRequests_eq (t : ℕ) :
    coreRequests p t=if memFilled p t then machineRequests p (accessed p t) else [] := by
  have h := simulates_run hp t
  unfold coreRequests memFilled
  cases hslot : (p.cycle t).tracked.tags.mem with
  | bubble b =>
    have hmem := h.slots.mem
    rw [hslot] at hmem
    simp only [requestEvent,Sys.request,dmemRequest,hmem.2.mem.1,hmem.2.mem.2]
    rfl
  | instr k =>
    obtain ⟨-,-,hagrees⟩ := h.mem k hslot
    rw [memIndex_eq hp] at hagrees
    have hlegal := executed_accessLegal p (accessed p t)
    obtain ⟨hread,hwrite⟩ := hagrees.enables hlegal
    change requestEvent (dmemRequest (p.cycle t).tracked.core.exMem)=
      requestEvent (dmemRequest (p.executed (accessed p t)))
    unfold requestEvent
    rw [hread,hwrite]
    split
    · rename_i hcond
      have haccess : (p.executed (accessed p t)).mem.isLoad=true ∨
          (p.executed (accessed p t)).mem.isStore=true := by
        simp only [dmemRequest,Bool.or_eq_true,Bool.and_eq_true] at hcond
        exact hcond.imp (fun hl => hl.1) fun hs => hs.1
      rw [hagrees.request hlegal haccess]
    · rfl

/-- A cycle retires the next instruction or nothing. -/
theorem coreRetires_eq (t : ℕ) :
    coreRetires p t=if wbFilled p t then machineRetires p (retired p t) else [] := by
  have h := simulates_run hp t
  unfold coreRetires wbFilled
  cases hslot : (p.cycle t).tracked.tags.wb with
  | bubble b => rfl
  | instr k =>
    have horder := h.order.wb
    rw [hslot] at horder
    have hpc : k.pc=(p.machine (retired p t)).pc :=
      Eq.trans (horder (h.wb k hslot).1) h.nextPc
    change [k.pc]=[(p.machine (retired p t)).pc]
    rw [hpc]

end Logs

section Progress

variable {M : Type} (p : Setup M)

/-- Cycles until EX holds a new instruction: a taken branch refetches, a
load-use stall repeats ID, an empty ID slot waits for the fetch. -/
def waitEx (x : Tracked) : ℕ :=
  if takenWire x.core then 3
  else if loadUseWire x.core then 2
  else if filled x.tags.id then 1
  else 2

/-- An empty EX slot waits for ID or for the fetch. -/
theorem waitEx_bubble {x : Tracked} (h : SlotsOk x) {b : Bubble} (hex : x.tags.ex=.bubble b) :
    waitEx x=if filled x.tags.id then 1 else 2 := by
  unfold waitEx
  rw [takenWire_bubble h hex,loadUseWire_bubble h hex]
  rfl

/-- One edge either fills EX or brings the next instruction a cycle closer. -/
theorem waitEx_step {x : Tracked} {i : Inputs} (h : SlotsOk x) (horder : InOrder x)
    (hrst : i.rst=false) (hflush : flushWire x.core i.irq=false) :
    (filled (trackStep x i).tags.ex=true ∧ waitEx x=1 ∧ waitEx (trackStep x i)≤3) ∨
    (filled (trackStep x i).tags.ex=false ∧ waitEx (trackStep x i)+1=waitEx x) := by
  have hex : (trackStep x i).tags.ex=_ := tagStep_ex x.core x.tags i hrst
  have hid : (trackStep x i).tags.id=_ := tagStep_id x.core x.tags i hrst
  have hslots := slotsOk_step x i h
  have hwait : waitEx x=if takenWire x.core then 3 else if loadUseWire x.core then 2
      else if filled x.tags.id then 1 else 2 := rfl
  simp only [hflush,Bool.false_or] at hex hid
  cases htaken : takenWire x.core with
  | true =>
    right
    simp only [htaken,Bool.true_or,if_true] at hex hid hwait
    rw [waitEx_bubble hslots hex,hid,hex,hwait]
    exact ⟨rfl,rfl⟩
  | false =>
    simp only [htaken,Bool.false_or,Bool.false_eq_true,if_false] at hex hid hwait
    cases hstall : loadUseWire x.core with
    | true =>
      right
      simp only [hstall,if_true] at hex hid hwait
      rw [waitEx_bubble hslots hex,hid,hex,hwait]
      cases hslot : x.tags.id with
      | bubble b =>
        -- an empty ID slot has an empty EX slot before it, which cannot stall
        have hfront := horder.front
        unfold FrontEnd at hfront
        rw [hslot] at hfront
        obtain ⟨-,-,e,he⟩ := hfront
        rw [loadUseWire_bubble h he] at hstall
        cases hstall
      | instr f => exact ⟨rfl,rfl⟩
    | false =>
      simp only [hstall,Bool.false_eq_true,if_false] at hex hid hwait
      cases hslot : x.tags.id with
      | bubble b =>
        right
        rw [hslot] at hex hwait
        rw [waitEx_bubble hslots hex,hid,hex,hwait]
        exact ⟨rfl,rfl⟩
      | instr f =>
        left
        rw [hslot] at hex hwait
        rw [hex,hwait]
        refine ⟨rfl,rfl,?_⟩
        unfold waitEx
        split
        · omega
        · split
          · omega
          · split <;> omega

variable {p} (hp : Regular p)

include hp

/-- Every issued instruction accounts for at most three cycles. -/
theorem waitEx_bound (t : ℕ) : t+waitEx (p.cycle t).tracked≤3*issued p (t+1)+2 := by
  induction t with
  | zero => exact Nat.le_refl 2
  | succ t ih =>
    have h := simulates_run hp t
    have hissued : issued p (t+1+1)=
        issued p (t+1)+(filled (trackStep (p.cycle t).tracked
          ((p.cycle t).inputs p.imem p.dev .low)).tags.ex).toNat := rfl
    have hcycle : (p.cycle (t+1)).tracked=
        trackStep (p.cycle t).tracked ((p.cycle t).inputs p.imem p.dev .low) := rfl
    rw [hissued,hcycle]
    have hflush : flushWire (p.cycle t).tracked.core ((p.cycle t).inputs p.imem p.dev .low).irq=false :=
      h.noFlush hp
    obtain ⟨hfilled,hone,hbound⟩ | ⟨hempty,hcloser⟩ := waitEx_step h.slots h.order rfl hflush
    · rw [hfilled]
      change _≤3*(issued p (t+1)+1)+2
      omega
    · rw [hempty]
      change _≤3*(issued p (t+1)+0)+2
      omega

/-- An instruction in EX retires three cycles later. -/
theorem retired_add_three (t : ℕ) : retired p (t+3)=issued p (t+1) := by
  have hwb : tally (wbFilled p) (t+2+1)=tally (memFilled p) (t+2) :=
    tally_shift rfl (wbFilled_succ hp) (t+2)
  have hmem : tally (memFilled p) (t+1+1)=tally (exFilled p) (t+1) :=
    tally_shift rfl memFilled_succ (t+1)
  exact hwb.trans hmem

/-- After 5+3n cycles at least n instructions have passed WB. -/
theorem retired_lower_bound (n t : ℕ) (ht : 5+3*n≤t) : n≤retired p t := by
  obtain ⟨u,rfl⟩ : ∃ u,t=u+3 := ⟨t-3,by omega⟩
  have hbound := waitEx_bound hp u
  have hwait : 1≤waitEx (p.cycle u).tracked := by
    unfold waitEx
    split
    · omega
    · split
      · omega
      · split <;> omega
  rw [retired_add_three hp]
  omega

end Progress

section Programs

variable {M : Type} (p : Setup M)

/-- An instruction outside the SYSTEM opcode that is legal and aligned. -/
def Plain (n : ℕ) : Prop :=
  opcodeField (p.decoded n).instr≠Opcode.system.bits ∧
  (p.decoded n).ctrl.sys.illegalInstr=false ∧
  loadAddrMisaligned (p.executed n)=false ∧ storeAddrMisaligned (p.executed n)=false

/-- Programs of plain instructions take no trap and touch no CSR. -/
theorem regular_of_plain (h : ∀ n,Plain p n) : Regular p := by
  have hsys : ∀ n,(p.completed n).isCsr=false ∧ (p.completed n).isEcall=false ∧
      (p.completed n).isEbreak=false ∧ (p.completed n).isMret=false ∧
      (p.completed n).isSret=false := fun n => decoder_nonSystem _ _ (h n).1
  refine ⟨?_,?_,?_⟩
  · intro n
    obtain ⟨-,hillegal,hload,hstore⟩ := h n
    obtain ⟨hcsr,hecall,hebreak,hmret,hsret⟩ := hsys n
    have hillegalWb : (p.completed n).illegalInstr=false := hillegal
    have hloadWb : (p.completed n).loadFault=false := hload
    have hstoreWb : (p.completed n).storeFault=false := hstore
    refine ⟨?_,?_,hmret,hsret⟩
    · simp only [hasTrap,hillegalWb,hecall,hebreak,hloadWb,hstoreWb]
      rfl
    · simp only [wbCsrIllegal,csrReq,hcsr,csrIllegalAccess]
      rfl
  · intro n hcsr
    rw [(hsys n).1] at hcsr
    cases hcsr
  · intro n hcsr
    rw [(hsys n).1] at hcsr
    cases hcsr

/-- The machine decodes in machine mode. -/
theorem decoded_ctrl (n : ℕ) :
    (p.decoded n).ctrl=decoder (p.imem (p.machine n).pc) PrivMode.m.bits := by
  change decoder _ (p.machine n).csr.privMode.bits=_
  rw [machine_privMode]

/-- A word outside SYSTEM that is legal and accesses no memory. -/
def plainWord (word : BitVec 32) : Bool :=
  let d := decoder word PrivMode.m.bits
  opcodeField word != Opcode.system.bits && !d.sys.illegalInstr && !d.mem.isLoad && !d.mem.isStore

/-- Such words are plain whatever the registers hold. -/
theorem plainWord_plain (n : ℕ) (h : plainWord (p.imem (p.machine n).pc)=true) : Plain p n := by
  unfold plainWord at h
  rw [←decoded_ctrl] at h
  dsimp only at h
  simp only [Bool.and_eq_true,Bool.not_eq_true',bne_iff_ne] at h
  obtain ⟨⟨⟨hopcode,hillegal⟩,hload⟩,hstore⟩ := h
  refine ⟨hopcode,hillegal,?_,?_⟩
  · change ((p.decoded n).ctrl.mem.isLoad && _)=false
    rw [hload]
    rfl
  · change ((p.decoded n).ctrl.mem.isStore && _)=false
    rw [hstore]
    rfl

/-- A word that takes no trap and reads no counter whatever the registers
hold: no memory access, no exception, no return, and only legal accesses to
CSRs other than the counters. -/
def safeWord (word : BitVec 32) : Bool :=
  let d := decoder word PrivMode.m.bits
  !d.mem.isLoad && !d.mem.isStore && !d.sys.illegalInstr && !d.sys.isEcall && !d.sys.isEbreak &&
    !d.sys.isMret && !d.sys.isSret &&
    (!d.sys.isCsr || (!csrIllegalAccess true d.sys.csrOp (d.imm.setWidth 12) &&
      !isCounter (d.imm.setWidth 12)))

/-- Safe words take no trap and read no counter. -/
theorem safeWord_free (n : ℕ) (h : safeWord (p.imem (p.machine n).pc)=true) :
    TrapFree p n ∧ CounterFree p n := by
  unfold safeWord at h
  rw [←decoded_ctrl] at h
  dsimp only at h
  simp only [Bool.and_eq_true,Bool.or_eq_true,Bool.not_eq_true'] at h
  obtain ⟨⟨⟨⟨⟨⟨⟨hload,hstore⟩,hillegal⟩,hecall⟩,hebreak⟩,hmret⟩,hsret⟩,hcsr⟩ := h
  have hloadWb : (p.completed n).loadFault=false := by
    change ((p.decoded n).ctrl.mem.isLoad && _)=false
    rw [hload]
    rfl
  have hstoreWb : (p.completed n).storeFault=false := by
    change ((p.decoded n).ctrl.mem.isStore && _)=false
    rw [hstore]
    rfl
  have htrap : hasTrap (p.completed n)=false := by
    have hillegalWb : (p.completed n).illegalInstr=false := hillegal
    have hecallWb : (p.completed n).isEcall=false := hecall
    have hebreakWb : (p.completed n).isEbreak=false := hebreak
    simp only [hasTrap,hillegalWb,hecallWb,hebreakWb,hloadWb,hstoreWb]
    rfl
  refine ⟨⟨htrap,?_,hmret,hsret⟩,?_⟩
  · unfold wbCsrIllegal csrReq
    rw [htrap]
    cases hisCsr : (p.completed n).isCsr with
    | false => rfl
    | true =>
      obtain hno | hlegal := hcsr
      · exact absurd (hno.symm.trans hisCsr) (by decide)
      · exact hlegal.1
  · intro hisCsr hcounter
    obtain hno | hlegal := hcsr
    · exact absurd (hno.symm.trans hisCsr) (by decide)
    · exact absurd (hlegal.2.symm.trans hcounter) (by decide)

/-- For every program of plain instructions, data device and initial memory,
at every cycle: the register writes committed so far are those of the retired
instructions of the sequential machine, the data-memory requests issued so
far are those of the instructions that have passed MEM, the retired addresses
are the machine's, and 5+3n cycles retire at least n instructions. -/
theorem pipeline_refines_machine (h : ∀ n,Plain p n) (t : ℕ) :
    eventLog (coreWrites p) t=eventLog (machineWrites p) (retired p t) ∧
    eventLog (coreRequests p) t=eventLog (machineRequests p) (accessed p t) ∧
    eventLog (coreRetires p) t=eventLog (machineRetires p) (retired p t) ∧
    ∀ n,5+3*n≤t → n≤retired p t := by
  have hp := regular_of_plain p h
  refine ⟨?_,?_,?_,?_⟩
  · exact eventLog_tally (coreWrites_eq hp) t
  · exact eventLog_tally (coreRequests_eq hp) t
  · exact eventLog_tally (coreRetires_eq hp) t
  · exact fun n ht => retired_lower_bound hp n t ht

/-- A program from the reset address with an empty byte memory. -/
def programSetup (program : List (BitVec 32)) : Setup ByteMemory :=
  ⟨loadProgram resetPc program,byteDevice,fun _ => 0⟩

/-- ADDI x1,x0,7; ADDI x2,x1,1; JAL x0,-8: a loop with forwarding and wrong
paths. -/
theorem pipeline_refines_loop :
    let p := programSetup [0x00700093,0x00108113,0xff9ff06f]
    eventLog (coreWrites p) 20=eventLog (machineWrites p) (retired p 20) ∧
    eventLog (coreRequests p) 20=eventLog (machineRequests p) (accessed p 20) ∧
    eventLog (coreRetires p) 20=eventLog (machineRetires p) (retired p 20) ∧
    ∀ n,5+3*n≤20 → n≤retired p 20 := by
  refine pipeline_refines_machine (programSetup [0x00700093,0x00108113,0xff9ff06f]) ?_ 20
  intro n
  exact plainWord_plain _ n
    (loadProgram_all plainWord resetPc _ (by decide +kernel) (by decide +kernel) _)

/-- For every program without traps and counter reads in which no instruction
uses the register that the CSR access right before it reads into: the
instruction in EX is the machine's next one, and every operand it uses is the
value after all older instructions. -/
theorem operands_correct (hp : Regular p) (t : ℕ) (k : Issued)
    (hk : (p.cycle t).tracked.tags.ex=.instr k) :
    k.pc=(p.machine (issued p t)).pc ∧
    (usesRs1 k.word=true → exRs1RdataFwd (p.cycle t).tracked.core=
      readReg (p.machine (issued p t)).regs (decoder k.word k.mode.bits).rs1Addr) ∧
    (usesRs2 k.word=true → exRs2RdataFwd (p.cycle t).tracked.core=
      readReg (p.machine (issued p t)).regs (decoder k.word k.mode.bits).rs2Addr) := by
  have h := simulates_run hp t
  obtain ⟨hpc,-,hinstr,hctrl⟩ := h.ex_decoded hk
  obtain ⟨hrs1,hrs2⟩ := h.operands hp hk
  have hslot := h.slots.ex
  rw [hk] at hslot
  rw [exIndex_eq hp] at hpc hinstr hctrl hrs1 hrs2
  rw [←hslot.2.2,←hslot.2.1,hinstr,hctrl]
  exact ⟨hpc,fun huses => hrs1 (.inl huses),hrs2⟩

/-- CSRRWI x0,mscratch,5; ADDI x1,x0,7; ADDI x2,x1,0: the last instruction
gets the 7 that is still in MEM. -/
theorem operands_correct_forwarded :
    let p := programSetup [0x3402d073,0x00700093,0x00008113]
    exRs1RdataFwd (p.cycle 4).tracked.core=readReg (p.machine (issued p 4)).regs 1 := by
  refine (operands_correct (programSetup [0x3402d073,0x00700093,0x00008113]) ?_ 4
    ⟨⟨2,0x80000008,0x00008113⟩,.m⟩ (by decide +kernel)).2.1 (by decide)
  have hsafe : ∀ n,safeWord ((programSetup [0x3402d073,0x00700093,0x00008113]).imem
      ((programSetup [0x3402d073,0x00700093,0x00008113]).machine n).pc)=true := fun n =>
    loadProgram_all safeWord resetPc _ (by decide +kernel) (by decide +kernel) _
  have hrd : ∀ n,((programSetup [0x3402d073,0x00700093,0x00008113]).completed n).isCsr=true →
      ((programSetup [0x3402d073,0x00700093,0x00008113]).completed n).wb.rdAddr=0 := by
    intro n
    change ((programSetup _).decoded n).ctrl.sys.isCsr=true →
      ((programSetup _).decoded n).ctrl.wb.rdAddr=0
    rw [decoded_ctrl]
    intro hcsr
    have htest := loadProgram_all
      (fun word => !(decoder word PrivMode.m.bits).sys.isCsr ||
        (decoder word PrivMode.m.bits).wb.rdAddr==0)
      resetPc [0x3402d073,0x00700093,0x00008113] (by decide +kernel) (by decide +kernel)
      ((programSetup [0x3402d073,0x00700093,0x00008113]).machine n).pc
    rw [Bool.or_eq_true,Bool.not_eq_true',beq_iff_eq] at htest
    exact htest.resolve_left fun hno => absurd (hno.symm.trans hcsr) (by decide)
  exact ⟨fun n => (safeWord_free _ n (hsafe n)).1,fun n => (safeWord_free _ n (hsafe n)).2,
    fun n hcsr hne => absurd (hrd n hcsr) hne⟩

/-- CSRRWI x0,mscratch,5; CSRRS x1,mscratch,x0; ADDI x2,x1,0: the program
takes no trap and reads no counter, but the last instruction gets the ALU
output 0 of the CSR access in MEM instead of the 5 it reads. -/
theorem operands_csr_result :
    let p := programSetup [0x3402d073,0x340020f3,0x00008113]
    (∀ n,TrapFree p n ∧ CounterFree p n) ∧
    (p.cycle 4).tracked.tags.ex=.instr ⟨⟨2,0x80000008,0x00008113⟩,.m⟩ ∧
    usesRs1 0x00008113=true ∧ (decoder 0x00008113 PrivMode.m.bits).rs1Addr=1 ∧
    exRs1RdataFwd (p.cycle 4).tracked.core=0 ∧
    readReg (p.machine (issued p 4)).regs 1=5 := by
  refine ⟨?_,by decide +kernel⟩
  intro n
  exact safeWord_free _ n
    (loadProgram_all safeWord resetPc _ (by decide +kernel) (by decide +kernel) _)

end Programs

end RichardCore.Refinement
