import RichardCore.ComplianceSuite
import RichardCore.CsrAccess
import RichardCore.CsrStatus
import RichardCore.CsrStore
import RichardCore.ElfImage
import RichardCore.FenceOrder
import RichardCore.FetchAlignment
import RichardCore.InertSlots
import RichardCore.InstructionFormats
import RichardCore.InterruptGate
import RichardCore.IsaCorrectness
import RichardCore.Legality
import RichardCore.ModeSwitch
import RichardCore.PreciseTraps
import RichardCore.PrivRunner
import RichardCore.PrivilegeCheck
import RichardCore.Refinement
import RichardCore.RetireCount
import RichardCore.SignatureDump
import RichardCore.SingleEvent
import RichardCore.StallTolerance
import RichardCore.StoreLoad
import RichardCore.TlbCoherence
import RichardCore.TlbLookup
import RichardCore.TlbRetention
import RichardCore.TrapInformation
import RichardCore.UserAccess
import RichardCore.UserConfinement
import RichardCore.IssueMachine
