import RichardCore.ElfImage
import RichardCore.Harness
import RichardCore.Lifecycle
import Mathlib.Tactic.IntervalCases

/-!
# Stores and later fetches

The compliance runner serves fetches and data accesses from one byte memory.
A tick reads both buses before the clock edge and performs the store of the
instruction the edge has just moved into MEM. The module dates every store
and every fetch of such a run and compares the two across FENCE.I.
-/

namespace RichardCore.FenceOrder

open Packages Decoder DataMemory CsrUnit TrapCtrl Pipeline Clocked Tracking Effects Harness
open Lifecycle

/-- Inputs of one tick: both buses are read from the same memory and the
interrupt lines are low. -/
def tickInputs (y : Sys ByteMemory) : Inputs :=
  ⟨false,readU32 y.memory y.tracked.core.pc,byteDevice.read y.memory y.request,IrqLines.low⟩

/-- One tick of the runner; the write wires are sampled after the edge. -/
def tick (y : Sys ByteMemory) : Sys ByteMemory :=
  let x := trackStep y.tracked (tickInputs y)
  ⟨x,byteDevice.edge y.memory (dmemRequest x.core.exMem)⟩

/-- A run of the runner after its reset ticks. -/
def tickRun (memory : ByteMemory) : ℕ → Sys ByteMemory
  | 0 => ⟨trackReset,memory⟩
  | t+1 => tick (tickRun memory t)

/-- Memory holding consecutive bytes from a base address, as the segment
loop of the loader fills it. -/
def loadSegment (base : Word) (bytes : List (BitVec 8)) : ByteMemory :=
  fun a => bytes.getD (a-base).toNat 0

/-- The loader's copy of a segment into empty memory is that memory. -/
theorem copyBytes_loadSegment (file : CheckedReads.ByteString) (base offset : Word) (filesz : ℕ)
    (h : offset.toNat+filesz≤file.size) :
    ElfLoader.copyBytes file base offset filesz (fun _ => 0)=
      .ok (loadSegment base ((file.bytes.drop offset.toNat).take filesz)) := by
  have hsize := file.size_lt
  rw [ElfImage.copyBytes_ok file base offset filesz _ h]
  congr 1
  funext a
  unfold ElfImage.copied loadSegment CheckedReads.byteAt
  rw [List.getD_eq_getElem?_getD,List.getD_eq_getElem?_getD,List.getElem?_take]
  split
  · have hoff : (offset+(a-base)).toNat=offset.toNat+(a-base).toNat := by
      unfold CheckedReads.ByteString.size at h
      rw [BitVec.toNat_add]
      omega
    rw [List.getElem?_drop,hoff]
  · rfl

/-- A performed store. -/
structure Stored where
  /-- Order number of the store instruction. -/
  seq : ℕ
  /-- Its request. -/
  request : DmemReq
  deriving DecidableEq

/-- Store performed by the instruction in MEM. -/
def storedBy (x : Tracked) : List Stored :=
  match x.tags.mem with
  | .bubble _ => []
  | .instr k => if dmemWriteWire x.core then [⟨k.seq,dmemRequest x.core.exMem⟩] else []

/-- Memory contents after a list of stores. -/
def contents (memory : ByteMemory) (log : List Stored) : ByteMemory :=
  log.foldl (fun m w => byteDevice.write m w.request) memory

section Run

variable (memory : ByteMemory)

/-- Input stream the core sees in a run of the runner. -/
def tickStream (t : ℕ) : Inputs := tickInputs (tickRun memory t)

/-- Stores performed in the first `t` ticks. -/
def storeLog (t : ℕ) : List Stored := eventLog (fun v => storedBy (tickRun memory (v+1)).tracked) t

/-- The runner is a run of the tracked core under its own inputs. -/
theorem tickRun_tracked (t : ℕ) :
    (tickRun memory t).tracked=trackedRun (tickStream memory) t := by
  induction t with
  | zero => rfl
  | succ t ih =>
    rw [trackedRun_succ,←ih]
    rfl

/-- Up to cycle `limit` every executed instruction after a FENCE.I was read
from contents that include every store, performed whenever, of an instruction
before the fence. -/
def FenceOrdersStores (limit : ℕ) : Prop :=
  ∀ fence later : Executed,∀ tf≤limit,∀ tl≤limit,
    (tickRun memory tf).tracked.tags.wb=.instr fence →
    (decoder fence.word fence.mode.bits).sys.isFenceI=true →
    (tickRun memory tl).tracked.tags.wb=.instr later → fence.seq < later.seq →
    ∃ fetch,FetchedAt (tickStream memory) later.toFetched fetch ∧
      later.word=readU32 (contents memory (storeLog memory fetch)) later.pc ∧
      ∀ t,∀ w∈storeLog memory t,w.seq < fence.seq → w∈storeLog memory fetch

end Run

/-- The store in EX is not followed by a FENCE.I in ID that the cycle lets
pass. -/
def Separated (s : CoreState) : Bool :=
  !((dmemRequest (exOutput s)).writeEn && (idWires s).sys.isFenceI &&
    !flushWire s IrqLines.low)

/-- Privileged instructions are no instruction fences. -/
theorem decodePrivileged_fenceI (word : BitVec 32) (mode : BitVec 2) :
    (decodePrivileged word mode).isFenceI=false := by
  unfold decodePrivileged
  split <;> (try split) <;> (try split) <;> rfl

/-- FENCE.I is recognised by its opcode and function code alone. -/
theorem decoder_fenceI (word : BitVec 32) (mode : BitVec 2) :
    (decoder word mode).sys.isFenceI=
      (Opcode.ofBits (opcodeField word)==some Opcode.miscMem && funct3 word==0b001#3) := by
  unfold decoder
  dsimp only
  cases Opcode.ofBits (opcodeField word) with
  | none => rfl
  | some opcode =>
    cases opcode <;> dsimp only
    case miscMem => split <;> simp_all [sysDefaults]
    case system =>
      split
      · rw [decodePrivileged_fenceI]
        rfl
      · split <;> rfl
    all_goals (repeat' split) <;> rfl

/-- A performed store belongs to the instruction in MEM. -/
theorem mem_storedBy {x : Tracked} {w : Stored} (h : w∈storedBy x) :
    ∃ k,x.tags.mem=.instr k ∧ k.seq=w.seq ∧ dmemWriteWire x.core=true := by
  unfold storedBy at h
  split at h
  · cases h
  · rename_i k hslot
    split at h
    · rename_i hwrite
      rw [List.mem_singleton] at h
      subst h
      exact ⟨k,hslot,rfl,hwrite⟩
    · cases h

/-- An edge performs exactly the logged store. -/
theorem contents_storedBy {x : Tracked} (h : SlotsOk x) (memory : ByteMemory) :
    byteDevice.edge memory (dmemRequest x.core.exMem)=contents memory (storedBy x) := by
  unfold DataDevice.edge storedBy
  have hslot := h.mem
  cases hmem : x.tags.mem with
  | bubble b =>
    rw [hmem] at hslot
    have hidle : (dmemRequest x.core.exMem).writeEn=false := by
      simp only [dmemRequest,hslot.2.mem.2,Bool.false_and]
    rw [hidle]
    rfl
  | instr k =>
    change (if dmemWriteWire x.core then _ else _)=_
    cases dmemWriteWire x.core <;> rfl

/-- An instruction fetched before an older one is in EX is still in ID then,
and the cycle does not flush it. -/
theorem id_behind_ex {inputs : ℕ → Inputs} {later : Executed} {fetch issue t : ℕ}
    (hlife : Life inputs later fetch issue) {k : Issued}
    (hex : (trackedRun inputs t).tags.ex=.instr k) (hseq : k.seq < later.seq) (hfetch : fetch < t) :
    t ≤ issue ∧ (trackedRun inputs t).tags.id=.instr later.toFetched ∧
      flushWire (trackedRun inputs t).core (inputs t).irq=false := by
  obtain ⟨fetch',issue',rfl,horder,hfetched,hid,-⟩ := ex_life hex
  have hle : issue'+1 ≤ issue := by
    by_contra hlt
    have hfirst := hfetched.lt hlife.fetched hseq
    have hlater := hlife.id issue hlife.order (Nat.le_refl _)
    rw [hid issue (by have := hlife.order; omega) (by omega)] at hlater
    injection hlater with hsame
    rw [hsame] at hseq
    exact Nat.lt_irrefl _ hseq
  refine ⟨hle,hlife.id _ hfetch hle,?_⟩
  obtain heq | hlt := Nat.eq_or_lt_of_le hle
  · rw [heq]
    exact hlife.leaves.1
  · have hstays := hlife.id (issue'+2) (by omega) (by omega)
    exact (id_instr_inv (rst_of_filled (fun g => g.id) (fun _ => ⟨_,rfl⟩) hstays) hstays).1

section Order

variable {memory : ByteMemory}

/-- The memory holds the initial contents with the logged stores. -/
theorem tickRun_memory (t : ℕ) :
    (tickRun memory t).memory=contents memory (storeLog memory t) := by
  induction t with
  | zero => rfl
  | succ t ih =>
    have hslots : SlotsOk (tickRun memory (t+1)).tracked := by
      rw [tickRun_tracked]
      exact trackedRun_slotsOk _ _
    have hedge := contents_storedBy hslots (tickRun memory t).memory
    change byteDevice.edge _ _=_
    rw [storeLog,eventLog,contents,List.foldl_append]
    rw [ih] at hedge
    rw [ih]
    exact hedge

/-- A fetched word is read from the contents of its fetch cycle. -/
theorem fetched_word {f : Fetched} {u : ℕ} (h : FetchedAt (tickStream memory) f u) :
    f.word=readU32 (contents memory (storeLog memory u)) f.pc := by
  rw [←h.word,←h.pc,←tickRun_memory,←tickRun_tracked]
  rfl

/-- A separated run has performed every store before a fence when the first
instruction behind the fence is fetched. -/
theorem stored_before_fetch {limit tf : ℕ} (hlimit : tf≤limit)
    (hsep : ∀ t < limit,Separated (tickRun memory t).tracked.core=true) {fence : Executed}
    (hwb : (tickRun memory tf).tracked.tags.wb=.instr fence)
    (hfence : (decoder fence.word fence.mode.bits).sys.isFenceI=true) {later : Fetched} {fetch : ℕ}
    (hlater : FetchedAt (tickStream memory) later fetch) (hseq : fence.seq < later.seq) {t : ℕ}
    {w : Stored} (hw : w∈storedBy (tickRun memory (t+1)).tracked) (hbefore : w.seq < fence.seq) :
    t < fetch := by
  by_contra hle
  rw [tickRun_tracked] at hwb hw
  obtain ⟨fetch',issue,rfl,hlife⟩ := wb_life hwb
  obtain ⟨k,hmem,hkseq,hwrite⟩ := mem_storedBy hw
  obtain ⟨u,hu,hex,hexecuted⟩ := mem_pred hmem
  obtain rfl : t=u := Nat.succ.inj hu
  have horder := hlife.fetched.lt hlater hseq
  -- at the end of cycle `t` the store leaves EX, and the fence is in ID
  obtain ⟨hissue,hid,hflush⟩ := id_behind_ex hlife hex (by rw [←hkseq] at hbefore; exact hbefore)
    (by omega)
  have hnow := hsep t (by omega)
  have hslot := (trackedRun_slotsOk (tickStream memory) t).id
  rw [hid] at hslot
  change _=_ at hslot
  rw [tickRun_tracked,Separated,idWires,hslot,decoder_fenceI,←hexecuted] at hnow
  rw [decoder_fenceI] at hfence
  change (!((dmemRequest _).writeEn && _ && !flushWire _ (tickStream memory t).irq))=true at hnow
  change (dmemRequest _).writeEn=true at hwrite
  rw [hwrite,hfence,hflush] at hnow
  cases hnow

/-- As long as no store in EX is followed by a FENCE.I in ID, every executed
instruction after a FENCE.I was read from contents that include all stores
before the fence. -/
theorem fenceI_orders_stores (memory : ByteMemory) (limit : ℕ)
    (hsep : ∀ t < limit,Separated (tickRun memory t).tracked.core=true) :
    FenceOrdersStores memory limit := by
  intro fence later tf htf tl htl hfenceWb hfence hlaterWb hseq
  have hlater := hlaterWb
  rw [tickRun_tracked] at hlater
  obtain ⟨fetch,issue,-,hlife⟩ := wb_life hlater
  refine ⟨fetch,hlife.fetched,fetched_word hlife.fetched,?_⟩
  intro t w hw hbefore
  obtain ⟨u,-,hstored⟩ := mem_eventLog.mp hw
  exact mem_eventLog.mpr ⟨u,stored_before_fetch htf hsep hfenceWb hfence hlife.fetched hseq
    hstored hbefore,hstored⟩

end Order

/-- `auipc x1,0; sb x0,14(x1); fence.i; addi x3,x0,1`: the store clears the
immediate of the instruction behind the fence. -/
def selfModifying : List (BitVec 8) :=
  [0x97,0x00,0x00,0x00, 0x23,0x87,0x00,0x00, 0x0f,0x10,0x00,0x00, 0x93,0x01,0x10,0x00]

/-- The same program with `addi x0,x0,0` between store and fence; the store
clears the immediate at its new place. -/
def selfModifyingSpaced : List (BitVec 8) :=
  [0x97,0x00,0x00,0x00, 0x23,0x89,0x00,0x00, 0x13,0x00,0x00,0x00, 0x0f,0x10,0x00,0x00,
    0x93,0x01,0x10,0x00]

/-- The instruction behind the fence is fetched in the cycle in which the
store is still in EX, and executes with the old immediate. -/
theorem fenceI_misses_store :
    ¬FenceOrdersStores (loadSegment resetPc selfModifying) 7 ∧
    (tickRun (loadSegment resetPc selfModifying) 8).tracked.core.regs 3=1 := by
  refine ⟨fun h => ?_,by decide +kernel⟩
  obtain ⟨fetch,hfetched,-,hlog⟩ := h ⟨⟨⟨2,resetPc+8,0x0000100f⟩,.m⟩,resetPc+12,false⟩
    ⟨⟨⟨3,resetPc+12,0x00100193⟩,.m⟩,resetPc+16,false⟩ 6 (by decide) 7 (by decide)
    (by decide +kernel) (by decide +kernel) (by decide +kernel) (by decide)
  have hthree : FetchedAt (tickStream (loadSegment resetPc selfModifying))
      ⟨3,resetPc+12,0x00100193⟩ 3 := by
    refine ⟨?_,?_,?_,?_⟩ <;> decide +kernel
  rw [hfetched.unique hthree] at hlog
  have hstored : (⟨1,⟨false,true,resetPc+14,0,0⟩⟩ : Stored)∈
      storeLog (loadSegment resetPc selfModifying) 4 := by decide +kernel
  have hmissed : (⟨1,⟨false,true,resetPc+14,0,0⟩⟩ : Stored)∉
      storeLog (loadSegment resetPc selfModifying) 3 := by decide +kernel
  exact hmissed (hlog 4 _ hstored (by decide))

/-- With one instruction in between the run is separated, and the
instruction behind the fence executes with the new immediate. -/
theorem fenceI_orders_stores_spaced :
    FenceOrdersStores (loadSegment resetPc selfModifyingSpaced) 9 ∧
    (∀ t < 9,Separated (tickRun (loadSegment resetPc selfModifyingSpaced) t).tracked.core=true) ∧
    (tickRun (loadSegment resetPc selfModifyingSpaced) 7).tracked.tags.wb=
      .instr ⟨⟨⟨3,resetPc+12,0x0000100f⟩,.m⟩,resetPc+16,false⟩ ∧
    (tickRun (loadSegment resetPc selfModifyingSpaced) 8).tracked.tags.wb=
      .instr ⟨⟨⟨4,resetPc+16,0x00000193⟩,.m⟩,resetPc+20,false⟩ := by
  have hsep : ∀ t < 9,
      Separated (tickRun (loadSegment resetPc selfModifyingSpaced) t).tracked.core=true := by
    decide +kernel
  exact ⟨fenceI_orders_stores _ 9 hsep,hsep,by decide +kernel,by decide +kernel⟩

end RichardCore.FenceOrder
