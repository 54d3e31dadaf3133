import RichardCore.DataMemory

/-!
# Hazard unit

Forwarding selects, the load-use stall, the PC redirect and the stall and
flush controls of the pipeline registers. Forwarding is a separate function
because its result feeds the branch decision the controls depend on.
-/

namespace RichardCore.Hazard

open Packages

/-- Source of an execute-stage operand. -/
inductive Forward where
  | regfile | mem | wb
  deriving DecidableEq, Repr

/-- Forwarding select of one operand: the memory stage result is more recent
than the writeback result, and x0 is never forwarded. -/
def forwardSel (memRegWriteEn : Bool) (memRdAddr : RegAddr) (wbRegWriteEn : Bool)
    (wbRdAddr exRsAddr : RegAddr) : Forward :=
  if memRegWriteEn=true ∧ memRdAddr≠0 ∧ memRdAddr=exRsAddr then .mem
  else if wbRegWriteEn=true ∧ wbRdAddr≠0 ∧ wbRdAddr=exRsAddr then .wb
  else .regfile

/-- Load-use hazard: a load in EX whose destination is a source field in ID. -/
def loadUseStall (exIsLoad : Bool) (exRdAddr idRs1Addr idRs2Addr : RegAddr) : Bool :=
  exIsLoad && exRdAddr != 0 && (exRdAddr==idRs1Addr || exRdAddr==idRs2Addr)

/-- PC redirect controls. -/
structure Redirect where
  /-- Redirect the PC. -/
  sel : Bool
  /-- Redirect target. -/
  target : Word
  /-- The redirect comes from the trap controller. -/
  isTrap : Bool
  deriving DecidableEq, Repr

/-- Redirect selection; the trap controller has top priority. -/
def pcRedirect (trapPcSel : Bool) (trapTargetPc : Word) (exBranchTaken : Bool)
    (exBranchTarget : Word) : Redirect :=
  if trapPcSel then ⟨true,trapTargetPc,true⟩
  else if exBranchTaken then ⟨true,exBranchTarget,false⟩
  else ⟨false,0,false⟩

/-- Stall and flush controls of the pipeline registers. -/
structure Controls where
  /-- Freeze the PC. -/
  ifStallEn : Bool
  /-- Freeze IF/ID. -/
  ifIdStallEn : Bool
  /-- Freeze ID/EX. -/
  idExStallEn : Bool
  /-- Freeze EX/MEM. -/
  exMemStallEn : Bool
  /-- Clear IF/ID. -/
  ifIdFlushEn : Bool
  /-- Clear ID/EX. -/
  idExFlushEn : Bool
  deriving DecidableEq, Repr

/-- No stall and no flush. -/
def Controls.idle : Controls := ⟨false,false,false,false,false,false⟩

/-- Stall and flush generation: a trap flush overrides everything; otherwise
a memory stall freezes the pipeline, a load-use stall freezes the front end
and inserts a bubble, and a taken branch flushes and cancels the freeze. -/
def hazardControls (trapFlushReq memStallReq loadUse exBranchTaken : Bool) : Controls :=
  if trapFlushReq then {Controls.idle with ifIdFlushEn := true, idExFlushEn := true}
  else
    let c := if memStallReq then
        {Controls.idle with
          ifStallEn := true, ifIdStallEn := true, idExStallEn := true, exMemStallEn := true}
      else Controls.idle
    let c := if loadUse && !memStallReq then
        {c with ifStallEn := true, ifIdStallEn := true, idExFlushEn := true}
      else c
    if exBranchTaken then
      {c with ifIdFlushEn := true, idExFlushEn := true, ifStallEn := false, ifIdStallEn := false}
    else c

/-- Without memory stalls the controls are three disjoint situations. -/
theorem hazardControls_ready (trapFlushReq loadUse exBranchTaken : Bool) :
    hazardControls trapFlushReq false loadUse exBranchTaken=
      { ifStallEn := !trapFlushReq && !exBranchTaken && loadUse
        ifIdStallEn := !trapFlushReq && !exBranchTaken && loadUse
        idExStallEn := false
        exMemStallEn := false
        ifIdFlushEn := trapFlushReq || exBranchTaken
        idExFlushEn := trapFlushReq || exBranchTaken || loadUse } := by
  cases trapFlushReq <;> cases loadUse <;> cases exBranchTaken <;> rfl

end RichardCore.Hazard
