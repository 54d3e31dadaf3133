import RichardCore.CsrStore

/-!
# The CSR file across traps and returns

The store with aliases completed by the privilege mode. A trap saves mode and
interrupt enable in the status word of its target and records address, cause
and value; a return restores both. Nothing is asked of a cycle: a write that
meets a trap is lost where the trap assigns, the supervisor return wins over
the machine return, and no instruction is counted in a trap.
-/

namespace RichardCore.CsrTraps

open Packages BitFields CsrUnit CsrStatus Clocked AliasedStore CsrStore

/-- Reference state: the store and the mode. -/
structure RefState where
  /-- Bits of the registers. -/
  store : Store
  /-- Privilege mode. -/
  mode : PrivMode

/-- The other status word. -/
def twin : Csr → Csr
  | .mstatus => .sstatus
  | _ => .mstatus

/-- Assign a status word from its old bits. The other one keeps its old value
but for the shared bits. -/
def setStatus (old next : Store) (status : Csr) (f : ℕ → Bool → Bool) : Store :=
  layout.assign old (layout.assign old next (twin status) fun _ b => b) status f

/-- Machine status in a trap: MPIE takes MIE, which is cleared, and MPP the
mode. -/
def enterM (mode : PrivMode) (store : Store) (j : ℕ) (old : Bool) : Bool :=
  if j=mstatusMpieBit then layout.bit store .mstatus mstatusMieBit
  else if j=mstatusMieBit then false
  else if j=mstatusMppLo then mode.bits.getLsbD 0
  else if j=mstatusMppHi then mode.bits.getLsbD 1
  else old

/-- Supervisor status in a trap: SPIE takes SIE, which is cleared, and SPP
tells supervisor from user mode. -/
def enterS (mode : PrivMode) (store : Store) (j : ℕ) (old : Bool) : Bool :=
  if j=sstatusSpieBit then layout.bit store .sstatus sstatusSieBit
  else if j=sstatusSieBit then false
  else if j=sstatusSppBit then mode==.s
  else old

/-- Machine status in a return: MIE takes MPIE, which is set, and MPP is user
mode. -/
def leaveM (store : Store) (j : ℕ) (old : Bool) : Bool :=
  if j=mstatusMieBit then layout.bit store .mstatus mstatusMpieBit
  else if j=mstatusMpieBit then true
  else if j=mstatusMppLo ∨ j=mstatusMppHi then false
  else old

/-- Supervisor status in a return: SIE takes SPIE, which is set, and SPP is
user mode. -/
def leaveS (store : Store) (j : ℕ) (old : Bool) : Bool :=
  if j=sstatusSieBit then layout.bit store .sstatus sstatusSpieBit
  else if j=sstatusSpieBit then true
  else if j=sstatusSppBit then false
  else old

/-- Mode that a machine return goes back to. -/
def savedM (store : Store) : PrivMode :=
  match layout.bit store .mstatus mstatusMppHi,layout.bit store .mstatus mstatusMppLo with
  | false,false => .u
  | false,true => .s
  | true,_ => .m

/-- Mode that a supervisor return goes back to. -/
def savedS (store : Store) : PrivMode :=
  if layout.bit store .sstatus sstatusSppBit then .s else .u

/-- Registers that record a trap. -/
def trapRegs (toS : Bool) : List Csr :=
  if toS then [.sepc,.scause,.stval] else [.mepc,.mcause,.mtval]

/-- What they record. -/
def trapWord (pc cause value : Word) : Csr → Word
  | .mepc | .sepc => pc
  | .mcause | .scause => cause
  | _ => value

/-- Store that records a trap. -/
def record (old next : Store) (toS : Bool) (pc cause value : Word) : Store :=
  layout.assignAll old next (trapRegs toS) fun c j _ => (trapWord pc cause value c).getLsbD j

/-- Trap into supervisor or machine mode; `next` is the store as the cycle
leaves it otherwise. -/
def refTrap (r : RefState) (next : Store) (toS : Bool) (pc cause value : Word) : RefState where
  store :=
    let status :=
      if toS then setStatus r.store next .sstatus (enterS r.mode r.store)
      else setStatus r.store next .mstatus (enterM r.mode r.store)
    record r.store status toS pc cause value
  mode := if toS then .s else .m

/-- Machine return. -/
def refMret (r : RefState) (next : Store) : RefState :=
  ⟨setStatus r.store next .mstatus (leaveM r.store),savedM r.store⟩

/-- Supervisor return. -/
def refSret (r : RefState) (next : Store) : RefState :=
  ⟨setStatus r.store next .sstatus (leaveS r.store),savedS r.store⟩

/-- The cycle writes the instruction counter. -/
def writesInstret (i : CsrIn) : Bool :=
  match requested i with
  | some (csr,_,_) => owner csr==.minstret
  | none => false

/-- Store after a cycle that completes no instruction: the instruction counter
keeps its value unless it is written. -/
def held (store : Store) (i : CsrIn) : Store :=
  if writesInstret i then storeStep store i
  else layout.assign store (storeStep store i) .minstret fun _ b => b

/-- One cycle of the reference. -/
def refStep (r : RefState) (i : CsrIn) : RefState :=
  if i.rst then ⟨storeReset,.m⟩
  else if i.trapTrigger then
    refTrap r (held r.store i) i.trapToSMode i.trapMepc i.trapMcause i.trapMtval
  else if i.sretEn then refSret r (storeStep r.store i)
  else if i.mretEn then refMret r (storeStep r.store i)
  else ⟨storeStep r.store i,r.mode⟩

/-- The file reads as the store does and is in the mode of the reference. -/
structure Follows (s : CsrState) (r : RefState) : Prop where
  /-- Registers. -/
  file : Matches s r.store
  /-- Mode. -/
  mode : s.privMode=r.mode

section Status

variable {a : Csr} (ha : a=.mstatus ∨ a=.sstatus) (old next : Store) (f : ℕ → Bool → Bool)

include ha

/-- Each status word shows the shared bits of the other. -/
theorem shares_twin (k j : ℕ) : layout.Shares a k (twin a) j ↔ k=j ∧ SharedStatus j := by
  obtain rfl | rfl := ha
  · exact shares_status k j
  · constructor
    · intro h
      obtain ⟨rfl,hk⟩ := (shares_status j k).mp h.symm
      exact ⟨rfl,hk⟩
    · rintro ⟨rfl,hk⟩
      exact ((shares_status k k).mpr ⟨rfl,hk⟩).symm

/-- The assigned word. -/
theorem bit_setStatus_self {j : ℕ} (hj : j < 64) :
    layout.bit (setStatus old next a f) a j=f j (layout.bit old a j) := by
  have hword : a∈wordRegs := by obtain rfl | rfl := ha <;> decide
  exact layout.bit_assign_shared old _ f hj (shares_word hword j)

/-- The other word. -/
theorem bit_setStatus_twin {j : ℕ} (hj : j < 64) :
    layout.bit (setStatus old next a f) (twin a) j=
      if SharedStatus j then f j (layout.bit old a j) else layout.bit old (twin a) j := by
  unfold setStatus
  by_cases hshared : SharedStatus j
  · have hboth := (shares_twin ha j j).mpr ⟨rfl,hshared⟩
    rw [if_pos hshared,layout.bit_assign_shared old _ f hj hboth,hboth.bit_eq old]
  · have hword : twin a∈wordRegs := by obtain rfl | rfl := ha <;> decide
    have hframe : ∀ k < 64,¬layout.Shares a k (twin a) j := fun k _ h =>
      hshared ((shares_twin ha k j).mp h).2
    rw [if_neg hshared,layout.bit_assign_frame old _ f hframe]
    exact layout.bit_assign_shared old next _ hj (shares_word hword j)

/-- Everything else is left alone. -/
theorem bit_setStatus_frame {c : Csr} (hc : owner c≠.mstatus) (j : ℕ) :
    layout.bit (setStatus old next a f) c j=layout.bit next c j := by
  have howner : owner a≠owner c ∧ owner (twin a)≠owner c := by
    obtain rfl | rfl := ha <;> exact ⟨Ne.symm hc,Ne.symm hc⟩
  unfold setStatus
  rw [layout.bit_assign_frame old _ f fun k _ => not_shares howner.1 k j,
    layout.bit_assign_frame old next _ fun k _ => not_shares howner.2 k j]

end Status

section Words

variable {s : CsrState} {r : RefState} (h : Follows s r)

include h

/-- The status words bit by bit. -/
theorem Follows.status {j : ℕ} (hj : j < 64) :
    s.mstatus.getLsbD j=layout.bit r.store .mstatus j ∧
      s.sstatus.getLsbD j=layout.bit r.store .sstatus j :=
  ⟨h.file .mstatus j hj,h.file .sstatus j hj⟩

/-- Machine status in a trap. -/
theorem trapMstatus_bit {j : ℕ} (hj : j < 64) :
    (trapMstatus s).getLsbD j=enterM r.mode r.store j (layout.bit r.store .mstatus j) := by
  have hmie := (h.status (j := mstatusMieBit) (by decide)).1
  rw [←(h.status hj).1]
  unfold trapMstatus enterM
  dsimp only
  rw [getLsbD_setBit _ _ _ _ hj,getLsbD_setBit _ _ _ _ hj,getLsbD_setBit _ _ _ _ hj,
    getLsbD_setBit _ _ _ _ hj,hmie,h.mode]
  -- the four positions differ, so the order of the assignments is no matter
  unfold mstatusMpieBit mstatusMieBit mstatusMppLo mstatusMppHi encodePrivMode
  grind

/-- Supervisor status in a trap. -/
theorem trapSstatus_bit {j : ℕ} (hj : j < 64) :
    (trapSstatus s).getLsbD j=enterS r.mode r.store j (layout.bit r.store .sstatus j) := by
  have hsie := (h.status (j := sstatusSieBit) (by decide)).2
  rw [←(h.status hj).2]
  unfold trapSstatus enterS
  rw [getLsbD_setBit _ _ _ _ hj,getLsbD_setBit _ _ _ _ hj,getLsbD_setBit _ _ _ _ hj,hsie,h.mode]
  unfold sstatusSpieBit sstatusSieBit sstatusSppBit
  grind

/-- Machine status in a return. -/
theorem mretMstatus_bit {j : ℕ} (hj : j < 64) :
    (mretMstatus s).getLsbD j=leaveM r.store j (layout.bit r.store .mstatus j) := by
  have hmpie := (h.status (j := mstatusMpieBit) (by decide)).1
  have huser : (encodePrivMode .u).getLsbD 0=false ∧ (encodePrivMode .u).getLsbD 1=false := by
    decide
  rw [←(h.status hj).1]
  unfold mretMstatus leaveM
  dsimp only
  rw [getLsbD_setBit _ _ _ _ hj,getLsbD_setBit _ _ _ _ hj,getLsbD_setBit _ _ _ _ hj,
    getLsbD_setBit _ _ _ _ hj,hmpie,huser.1,huser.2]
  unfold mstatusMpieBit mstatusMieBit mstatusMppLo mstatusMppHi
  grind

/-- Supervisor status in a return. -/
theorem sretSstatus_bit {j : ℕ} (hj : j < 64) :
    (sretSstatus s).getLsbD j=leaveS r.store j (layout.bit r.store .sstatus j) := by
  have hspie := (h.status (j := sstatusSpieBit) (by decide)).2
  rw [←(h.status hj).2]
  unfold sretSstatus leaveS
  rw [getLsbD_setBit _ _ _ _ hj,getLsbD_setBit _ _ _ _ hj,getLsbD_setBit _ _ _ _ hj,hspie]
  unfold sstatusSpieBit sstatusSieBit sstatusSppBit
  grind

/-- Both returns go back to the mode of the reference. -/
theorem saved_modes : decodePrivMode (mppField s.mstatus)=savedM r.store ∧
    (if s.sstatus.getLsbD sstatusSppBit then PrivMode.s else .u)=savedS r.store := by
  unfold savedM savedS
  rw [mppField_eq,(h.status (j := mstatusMppHi) (by decide)).1,
    (h.status (j := mstatusMppLo) (by decide)).1,(h.status (j := sstatusSppBit) (by decide)).2]
  refine ⟨?_,rfl⟩
  cases layout.bit r.store .mstatus mstatusMppHi <;>
    cases layout.bit r.store .mstatus mstatusMppLo <;> rfl

end Words

/-- The recording registers share no bit with another register. -/
theorem owner_trapRegs {toS : Bool} {c d : Csr} (hd : d∈trapRegs toS) (h : owner d=owner c) :
    c=d := by
  revert d
  cases toS <;> cases c <;> decide

section Record

variable (old next : Store) {toS : Bool} (pc cause value : Word) {c : Csr}

/-- The recording registers hold the trap. -/
theorem bit_record_self (hc : c∈trapRegs toS) {j : ℕ} (hj : j < 64) :
    layout.bit (record old next toS pc cause value) c j=(trapWord pc cause value c).getLsbD j := by
  have hword : ∀ d∈trapRegs toS,d∈wordRegs := by cases toS <;> decide
  refine layout.bit_assignAll_shared old next (fun c j _ => (trapWord pc cause value c).getLsbD j)
    hj (shares_word (hword c hc) j) hc ?_
  intro d hd hne m _
  exact not_shares (fun howner => hne (owner_trapRegs hd howner).symm) m j

/-- The others are left alone. -/
theorem bit_record_frame (hc : c∉trapRegs toS) (j : ℕ) :
    layout.bit (record old next toS pc cause value) c j=layout.bit next c j := by
  refine layout.bit_assignAll_frame old next _ fun d hd m _ => ?_
  refine not_shares (fun howner => hc ?_) m j
  rw [owner_trapRegs hd howner]
  exact hd

end Record

section Steps

variable {s n n' : CsrState} {r : RefState} {next : Store}

/-- A file that keeps its status words in step and everything else follows
the store with that status. -/
theorem matches_setStatus (h : Follows s r) (hn : Matches n next) {a : Csr}
    (ha : a=.mstatus ∨ a=.sstatus) {f : ℕ → Bool → Bool}
    (hself : ∀ j < 64,(readCsr n' a.addr).getLsbD j=f j (layout.bit r.store a j))
    (htwin : readCsr n' (twin a).addr=
      mirrorMstatusToSstatus (readCsr s (twin a).addr) (readCsr n' a.addr))
    (hframe : ∀ c,owner c≠.mstatus → csrRdata n' c.addr=csrRdata n c.addr) :
    Matches n' (setStatus r.store next a f) := by
  intro c j hj
  by_cases hc : owner c=.mstatus
  · have hread : csrRdata n' c.addr=readCsr n' c.addr ∧ csrRdata s c.addr=readCsr s c.addr ∧
        (c=a ∨ c=twin a) := by
      obtain rfl | rfl := ha <;> cases c <;> cases hc
      · exact ⟨rfl,rfl,.inl rfl⟩
      · exact ⟨rfl,rfl,.inr rfl⟩
      · exact ⟨rfl,rfl,.inr rfl⟩
      · exact ⟨rfl,rfl,.inl rfl⟩
    obtain ⟨hnew,hold,hca⟩ := hread
    have hbit := h.file c j hj
    rw [hold] at hbit
    rw [hnew]
    obtain rfl | rfl := hca
    · rw [hself j hj,bit_setStatus_self ha r.store next f hj]
    · rw [htwin,mirror_bit _ _ hj,hself j hj,hbit,bit_setStatus_twin ha r.store next f hj]
  · rw [hframe c hc,bit_setStatus_frame ha r.store next f hc]
    exact hn c j hj

/-- A file that records a trap and keeps everything else follows the store
that does. -/
theorem matches_record (hn : Matches n next) (toS : Bool) (old : Store) (pc cause value : Word)
    (hregs : ∀ c∈trapRegs toS,csrRdata n' c.addr=trapWord pc cause value c)
    (hframe : ∀ c,c∉trapRegs toS → csrRdata n' c.addr=csrRdata n c.addr) :
    Matches n' (record old next toS pc cause value) := by
  intro c j hj
  by_cases hc : c∈trapRegs toS
  · rw [hregs c hc,bit_record_self old next pc cause value hc hj]
  · rw [hframe c hc,hn c j hj,bit_record_frame old next pc cause value hc]

/-- A trap. -/
theorem follows_trap (h : Follows s r) (hn : Matches n next) (i : CsrIn) :
    Follows (enterTrap s n i)
      (refTrap r next i.trapToSMode i.trapMepc i.trapMcause i.trapMtval) := by
  refine ⟨?_,?_⟩
  · unfold refTrap
    dsimp only
    cases htoS : i.trapToSMode with
    | true =>
      have hstatus : Matches {n with
          sstatus := trapSstatus s, mstatus := applySstatusToMstatus s.mstatus (trapSstatus s)}
          (setStatus r.store next .sstatus (enterS r.mode r.store)) := by
        refine matches_setStatus h hn (.inr rfl) (fun j hj => trapSstatus_bit h hj) rfl ?_
        intro c hc
        cases c <;> first | rfl | exact absurd rfl hc
      refine matches_record hstatus true _ _ _ _ (fun c hc => ?_) (fun c hc => ?_)
      · unfold enterTrap
        rw [htoS]
        revert hc
        cases c <;> first | exact fun _ => rfl | exact fun hc => absurd hc (by decide)
      · unfold enterTrap
        rw [htoS]
        revert hc
        cases c <;> first | exact fun _ => rfl | exact fun hc => absurd (by decide) hc
    | false =>
      have hstatus : Matches {n with
          mstatus := trapMstatus s, sstatus := mirrorMstatusToSstatus s.sstatus (trapMstatus s)}
          (setStatus r.store next .mstatus (enterM r.mode r.store)) := by
        refine matches_setStatus h hn (.inl rfl) (fun j hj => trapMstatus_bit h hj) rfl ?_
        intro c hc
        cases c <;> first | rfl | exact absurd rfl hc
      refine matches_record hstatus false _ _ _ _ (fun c hc => ?_) (fun c hc => ?_)
      · unfold enterTrap
        rw [htoS]
        revert hc
        cases c <;> first | exact fun _ => rfl | exact fun hc => absurd hc (by decide)
      · unfold enterTrap
        rw [htoS]
        revert hc
        cases c <;> first | exact fun _ => rfl | exact fun hc => absurd (by decide) hc
  · unfold enterTrap refTrap
    cases i.trapToSMode <;> rfl

/-- A machine return. -/
theorem follows_mret (h : Follows s r) (hn : Matches n next) :
    Follows (returnM s n) (refMret r next) := by
  refine ⟨matches_setStatus h hn (.inl rfl) (fun j hj => mretMstatus_bit h hj) rfl ?_,
    (saved_modes h).1⟩
  intro c hc
  cases c <;> first | rfl | exact absurd rfl hc

/-- A supervisor return; a machine return of the same cycle is lost. -/
theorem follows_sret (h : Follows s r) (hn : Matches n next) (lost : Bool) :
    Follows (returnS s (if lost then returnM s n else n)) (refSret r next) := by
  refine ⟨matches_setStatus h hn (.inr rfl) (fun j hj => sretSstatus_bit h hj) ?_ ?_,
    (saved_modes h).2⟩
  · cases lost <;> rfl
  · intro c hc
    cases lost <;> cases c <;> first | rfl | exact absurd rfl hc

/-- The same cycle without reset, trap and return. -/
def quieted (i : CsrIn) : CsrIn :=
  {i with rst := false, trapTrigger := false, mretEn := false, sretEn := false}

/-- Without a trap the write phase follows the store. -/
theorem matches_writePhase (h : Matches s r.store) (i : CsrIn) :
    Matches (writePhase s (quieted i)) (storeStep r.store i) := by
  have hstep := matches_step (i := quieted i) ⟨rfl,rfl,rfl,rfl⟩ h
  rwa [csrStep_writePhase s rfl rfl rfl rfl] at hstep

/-- In a trap the write phase differs in the instruction counter only, which
stays unless it is written. -/
theorem writePhase_trap (s : CsrState) {i : CsrIn} (htrap : i.trapTrigger=true) :
    writePhase s i=
      if writesInstret i then writePhase s (quieted i)
      else {writePhase s (quieted i) with minstret := s.minstret} := by
  obtain ⟨hsome,hnone⟩ := writesCsr_requested i
  have hquiet : writesCsr (quieted i)=writesCsr i := rfl
  unfold writePhase writesInstret
  rw [hquiet,htrap]
  cases hrequested : requested i with
  | none =>
    rw [hnone hrequested]
    rfl
  | some request =>
    obtain ⟨csr,op,data⟩ := request
    obtain ⟨hwrites,haddr,-,-⟩ := hsome csr op data hrequested
    have hsame : (quieted i).csrAddr=i.csrAddr := rfl
    rw [hwrites,hsame,haddr,canonicalAddr_addr]
    dsimp only
    unfold writeCsr
    rw [if_pos rfl,if_pos rfl,Csr.ofAddr_addr]
    cases csr <;> rfl

/-- In a trap the write phase follows the store in which no instruction is
counted. -/
theorem matches_held (h : Matches s r.store) {i : CsrIn} (htrap : i.trapTrigger=true) :
    Matches (writePhase s i) (held r.store i) := by
  have hwrite := matches_writePhase h i
  rw [writePhase_trap s htrap]
  unfold held
  split
  · exact hwrite
  · intro c j hj
    by_cases hc : owner c=.minstret
    · have hshares : layout.Shares .minstret j c j := by
        have hcounter := shares_counter (c := c) (by rw [hc]; decide) j
        rwa [hc] at hcounter
      have hread : csrRdata {writePhase s (quieted i) with minstret := s.minstret} c.addr=
          csrRdata s c.addr := by
        cases c <;> first | rfl | cases hc
      rw [hread,layout.bit_assign_shared r.store _ _ hj hshares]
      exact h c j hj
    · have hread : csrRdata {writePhase s (quieted i) with minstret := s.minstret} c.addr=
          csrRdata (writePhase s (quieted i)) c.addr := by
        cases c <;> first | rfl | exact absurd rfl hc
      rw [hread,layout.bit_assign_frame r.store _ _ fun k _ => not_shares (Ne.symm hc) k j]
      exact hwrite c j hj

end Steps

/-- One cycle, whatever its inputs, keeps file and reference in step. -/
theorem follows_step {s : CsrState} {r : RefState} (h : Follows s r) (i : CsrIn) :
    Follows (csrStep s i) (refStep r i) := by
  unfold csrStep refStep
  split
  · exact ⟨matches_reset,rfl⟩
  · cases htrap : i.trapTrigger with
    | true => exact follows_trap h (matches_held h.file htrap) i
    | false =>
      have hphase : writePhase s i=writePhase s (quieted i) := by
        unfold writePhase quieted
        rw [htrap]
        rfl
      have hwrite := matches_writePhase h.file i
      rw [←hphase] at hwrite
      rw [if_neg (by decide),if_neg (by decide)]
      unfold returnPhase
      dsimp only
      cases hsret : i.sretEn with
      | true => exact follows_sret h hwrite i.mretEn
      | false =>
        cases hmret : i.mretEn with
        | true => exact follows_mret h hwrite
        | false => exact ⟨hwrite,(writePhase_privMode s i).trans h.mode⟩

/-- In every run from reset, whatever the requests, traps, returns and resets:
in every cycle every register reads as in the reference store and the mode is
that of the reference. -/
theorem csr_file_traps (inputs : ℕ → CsrIn) (t : ℕ) :
    (∀ csr,csrRdata (runFrom csrStep csrReset inputs t) csr.addr=
      layout.read (runFrom refStep ⟨storeReset,.m⟩ inputs t).store csr) ∧
    (runFrom csrStep csrReset inputs t).privMode=
      (runFrom refStep ⟨storeReset,.m⟩ inputs t).mode := by
  have hrun : Follows (runFrom csrStep csrReset inputs t)
      (runFrom refStep ⟨storeReset,.m⟩ inputs t) := by
    induction t with
    | zero => exact ⟨matches_reset,rfl⟩
    | succ t ih => exact follows_step ih (inputs t)
  exact ⟨fun csr => (read_of_matches hrun.file csr).symm,hrun.mode⟩

end RichardCore.CsrTraps
