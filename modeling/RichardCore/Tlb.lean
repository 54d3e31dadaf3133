import Mathlib.Data.Nat.Log
import RichardCore.BitFields
import RichardCore.Clocked
import RichardCore.Packages

/-!
# Translation lookaside buffer

The fully associative buffer with its mode-dependent page masks, first-match
lookup, permission check, three kinds of invalidation and round-robin
refill, for any number of entries and any ASID width.
-/

namespace RichardCore.Tlb

open Packages BitFields Clocked

/-- Translation off. -/
def satpModeBare : BitVec 4 := 0
/-- Two-level mode. -/
def satpModeSv32 : BitVec 4 := 1
/-- Four-level mode. -/
def satpModeSv48 : BitVec 4 := 9
/-- Five-level mode. -/
def satpModeSv57 : BitVec 4 := 10

/-- One buffer entry. -/
structure TlbEntry (asidWidth : ℕ) where
  /-- Entry in use. -/
  valid : Bool
  /-- Translation mode. -/
  mode : BitVec 4
  /-- Address space. -/
  asid : BitVec asidWidth
  /-- Virtual page number. -/
  vpn : BitVec 45
  /-- Physical page number. -/
  ppn : BitVec 44
  /-- Leaf level, 0 for a base page. -/
  level : BitVec 3
  /-- Global. -/
  g : Bool
  /-- User. -/
  u : Bool
  /-- Readable. -/
  r : Bool
  /-- Writable. -/
  w : Bool
  /-- Executable. -/
  x : Bool
  /-- Accessed. -/
  a : Bool
  /-- Dirty. -/
  d : Bool
  deriving DecidableEq, Repr

/-- Buffer contents and replacement pointer. -/
structure TlbState (entries asidWidth : ℕ) where
  /-- The entries. -/
  entry : Fin entries → TlbEntry asidWidth
  /-- Next entry to replace. -/
  replPtr : BitVec (Nat.clog 2 entries)

/-- Translation request. -/
structure TlbReq (asidWidth : ℕ) where
  /-- Request valid. -/
  valid : Bool
  /-- Virtual address. -/
  vaddr : Word
  /-- Address space. -/
  asid : BitVec asidWidth
  /-- Translation mode. -/
  mode : BitVec 4
  /-- Privilege encoding. -/
  priv : BitVec 2
  /-- Instruction fetch. -/
  isFetch : Bool
  /-- Store. -/
  isStore : Bool
  /-- Supervisor access to user pages. -/
  sum : Bool
  /-- Executable pages are readable. -/
  mxr : Bool
  deriving DecidableEq, Repr

/-- Translation response. -/
structure TlbResp where
  /-- Response valid. -/
  valid : Bool
  /-- Translated. -/
  hit : Bool
  /-- Physical address. -/
  paddr : Word
  /-- Access denied. -/
  pageFault : Bool
  /-- Page walk required. -/
  needPtw : Bool
  deriving DecidableEq, Repr

/-- Refill and invalidation inputs of one cycle. -/
structure TlbIn (asidWidth : ℕ) where
  /-- Synchronous reset. -/
  rst : Bool
  /-- Refill valid. -/
  refillValid : Bool
  /-- Refilled leaf; its valid bit is not read. -/
  refill : TlbEntry asidWidth
  /-- Invalidate everything. -/
  flushAll : Bool
  /-- Restrict invalidation to one address space. -/
  flushAsidValid : Bool
  /-- Address space to invalidate. -/
  flushAsid : BitVec asidWidth
  /-- Restrict invalidation to one page. -/
  flushVpnValid : Bool
  /-- Page to invalidate. -/
  flushVpn : BitVec 45
  /-- Mode of the page to invalidate. -/
  flushMode : BitVec 4

/-- Modes the buffer accepts. -/
def isSupportedMode (mode : BitVec 4) : Bool :=
  mode==satpModeBare || mode==satpModeSv32 || mode==satpModeSv48 || mode==satpModeSv57

/-- Width of a virtual page number. -/
def vpnWidth (mode : BitVec 4) : ℕ :=
  if mode=satpModeSv32 then 20
  else if mode=satpModeSv48 then 36
  else if mode=satpModeSv57 then 45
  else 0

/-- Page-number bits per level. -/
def vpnStride (mode : BitVec 4) : ℕ :=
  if mode=satpModeSv32 then 10
  else if mode=satpModeSv48 ∨ mode=satpModeSv57 then 9
  else 0

/-- Page-number bits compared for a leaf at a level; the loop sets them from
the first compared bit upwards. -/
def makeVpnMask (mode : BitVec 4) (level : BitVec 3) : BitVec 45 :=
  let ignore := level.toNat*vpnStride mode
  setRun 0 ignore (vpnWidth mode-ignore)

/-- Virtual page number of an address. -/
def vaddrToVpn (vaddr : Word) (mode : BitVec 4) : BitVec 45 :=
  if mode=satpModeSv32 then (vaddr.extractLsb' 12 20).setWidth 45
  else if mode=satpModeSv48 then (vaddr.extractLsb' 12 36).setWidth 45
  else if mode=satpModeSv57 then vaddr.extractLsb' 12 45
  else 0

/-- Page-offset width of a leaf at a level, cut to six bits. -/
def pageShift (mode : BitVec 4) (level : BitVec 3) : BitVec 6 :=
  BitVec.ofNat 6 (12+level.toNat*vpnStride mode)

section Lookup

variable {entries asidWidth : ℕ}

/-- Page-number comparison under the entry's mask. -/
def vpnMatch (e : TlbEntry asidWidth) (vpn : BitVec 45) : Bool :=
  (e.vpn^^^vpn)&&&makeVpnMask e.mode e.level==0

/-- Entry match. -/
def entryMatch (e : TlbEntry asidWidth) (vpn : BitVec 45) (asid : BitVec asidWidth)
    (mode : BitVec 4) : Bool :=
  e.valid && e.mode==mode && (e.g || e.asid==asid) && vpnMatch e vpn

/-- Permission check. -/
def allowAccess (isFetch isStore privU sum mxr u r w x a d : Bool) : Bool :=
  let isLoad := !isFetch && !isStore
  let readable := r || (mxr && x)
  let privOk := if u then if privU then true else !isFetch && sum else !privU
  a && privOk && ((isFetch && x) || (isStore && w && d) || (isLoad && readable))

/-- First matching entry in index order. -/
def firstMatch (s : TlbState entries asidWidth) (req : TlbReq asidWidth) :
    Option (TlbEntry asidWidth) :=
  ((List.finRange entries).map s.entry).find? fun e =>
    entryMatch e (vaddrToVpn req.vaddr req.mode) req.asid req.mode

/-- Physical address of a hit. -/
def hitPaddr (e : TlbEntry asidWidth) (vaddr : Word) : Word :=
  let shiftIndex := (pageShift e.mode e.level).toNat
  let lowMask := if shiftIndex≥64 then BitVec.allOnes 64 else 1#64<<<shiftIndex-1#64
  let hitPpnXlen := (e.ppn++0#12).setWidth 64
  hitPpnXlen&&&~~~lowMask|||vaddr&&&lowMask

/-- Combinational lookup. -/
def lookup (s : TlbState entries asidWidth) (req : TlbReq asidWidth) : TlbResp :=
  let idle : TlbResp := ⟨req.valid,false,req.vaddr,false,false⟩
  if req.valid then
    if !isSupportedMode req.mode then {idle with pageFault := true}
    else if req.mode=satpModeBare ∨ req.priv=0b11 then {idle with hit := true}
    else
      match firstMatch s req with
      | some e =>
        if !allowAccess req.isFetch req.isStore (req.priv==0b00) req.sum req.mxr e.u e.r e.w e.x e.a
            e.d then {idle with pageFault := true}
        else {idle with hit := true, paddr := hitPaddr e req.vaddr}
      | none => {idle with needPtw := true}
  else idle

/-- Entry contents after reset. -/
def entryReset : TlbEntry asidWidth :=
  ⟨false,satpModeBare,0,0,0,0,false,false,false,false,false,false,false⟩

/-- Buffer after reset. -/
def tlbReset : TlbState entries asidWidth := ⟨fun _ => entryReset,0⟩

/-- Whether a selective invalidation hits an entry. Global entries survive an
address-space invalidation. -/
def flushMatch (i : TlbIn asidWidth) (e : TlbEntry asidWidth) : Bool :=
  let asidMatch := !i.flushAsidValid || (!e.g && e.asid==i.flushAsid)
  let modeMatch := !i.flushVpnValid || e.mode==i.flushMode
  let vpnOk := if i.flushVpnValid then vpnMatch e i.flushVpn else true
  e.valid && asidMatch && modeMatch && vpnOk

/-- Entry after the invalidations of a cycle. -/
def flushEntry (i : TlbIn asidWidth) (e : TlbEntry asidWidth) : TlbEntry asidWidth :=
  if i.flushAll then {e with valid := false}
  else if i.flushAsidValid || i.flushVpnValid then
    if flushMatch i e then {e with valid := false} else e
  else e

/-- A refill the buffer accepts. -/
def refillAccepted (i : TlbIn asidWidth) : Bool :=
  i.refillValid && isSupportedMode i.refill.mode && i.refill.mode != satpModeBare

/-- One clock edge. A refill is assigned after the invalidations; a pointer
beyond the last entry writes nothing. -/
def tlbStep (s : TlbState entries asidWidth) (i : TlbIn asidWidth) : TlbState entries asidWidth :=
  if i.rst then tlbReset
  else if refillAccepted i then
    ⟨fun k => if k.val=s.replPtr.toNat then {i.refill with valid := true}
      else flushEntry i (s.entry k),s.replPtr+1⟩
  else ⟨fun k => flushEntry i (s.entry k),s.replPtr⟩

/-- A run of the buffer from reset. -/
def tlbRun (inputs : ℕ → TlbIn asidWidth) (t : ℕ) : TlbState entries asidWidth :=
  runFrom tlbStep tlbReset inputs t

/-- An entry after a clock edge is empty, the refilled leaf, or an old entry
with at most its valid bit cleared. -/
theorem tlbStep_entry (s : TlbState entries asidWidth) (i : TlbIn asidWidth) (k : Fin entries) :
    ((tlbStep s i).entry k).valid=false ∨
    (i.rst=false ∧ refillAccepted i=true ∧ (tlbStep s i).entry k={i.refill with valid := true}) ∨
    (tlbStep s i).entry k=s.entry k := by
  have hflush : ((flushEntry i (s.entry k)).valid=false) ∨ flushEntry i (s.entry k)=s.entry k := by
    unfold flushEntry
    split
    · exact .inl rfl
    · split
      · split
        · exact .inl rfl
        · exact .inr rfl
      · exact .inr rfl
  unfold tlbStep
  split
  · exact .inl rfl
  · rename_i hrst
    split
    · rename_i haccepted
      dsimp only
      split
      · exact .inr (.inl ⟨Bool.eq_false_of_not_eq_true hrst,haccepted,rfl⟩)
      · exact hflush.imp_right .inr
    · exact hflush.imp_right .inr

end Lookup

end RichardCore.Tlb
