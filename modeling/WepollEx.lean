import WepollEx.Lib.DList
import WepollEx.Lib.Mask
import WepollEx.Core.Events
import WepollEx.Exclusive.Decision
import WepollEx.Port.State
import WepollEx.Port.Worklists
import WepollEx.Port.Probes
import WepollEx.Port.Submit
import WepollEx.Port.Completion
import WepollEx.Port.Control
import WepollEx.Port.Drain
import WepollEx.System.Machine
import WepollEx.Lifecycle.Flags
import WepollEx.Lifecycle.Invariant
import WepollEx.Lifecycle.Release
import WepollEx.Lifecycle.Probe
import WepollEx.Lifecycle.Shutdown
import WepollEx.Lifecycle.Submit
import WepollEx.Lifecycle.Completion
import WepollEx.Lifecycle.Rollback
import WepollEx.Lifecycle.Control
import WepollEx.Lifecycle.Rearm
import WepollEx.Lifecycle.Memory
import WepollEx.Lifecycle.Frame
import WepollEx.Lifecycle.Listing
import WepollEx.Lifecycle.Sound
import WepollEx.Lifecycle.Register
import WepollEx.Lifecycle.Arm
import WepollEx.Lifecycle.Drain
import WepollEx.Lifecycle.Destroy
import WepollEx.System.Runs
import WepollEx.Lifecycle.Validity
import WepollEx.System.Environment
import WepollEx.System.Worklists
import WepollEx.Lifecycle.Ledger
import WepollEx.System.Accounting
import WepollEx.Iocp.Lease
import WepollEx.Lib.HalfLinked
import WepollEx.Pool.ReadyQueue
import WepollEx.Pool.ReadyShape
import WepollEx.Pool.ReadyHistory
import WepollEx.Pool.ReadyProgress
import WepollEx.Pool.ReadyCorrect
import WepollEx.Api.Descriptors
import WepollEx.Api.Table
import WepollEx.Api.Lifetime
import WepollEx.Api.Handover
import WepollEx.Api.PortLifetime
import WepollEx.Lib.Buckets
import WepollEx.Exclusive.ClaimIndex
import WepollEx.Exclusive.Owners
import WepollEx.Exclusive.Discipline
import WepollEx.Exclusive.Delivery
import WepollEx.Lib.Chains
import WepollEx.Afd.KeyTable
import WepollEx.Afd.KeySteps
import WepollEx.Afd.KeyHandles
import WepollEx.Afd.KeyClaims
import WepollEx.Afd.KeyCorrect
import WepollEx.System.Atomicity
import WepollEx.Wait.Machine
import WepollEx.Wait.Deadline
import WepollEx.Wait.Wake
import WepollEx.Lib.Counting
import WepollEx.Lib.Batch
import WepollEx.Posix.Registry
import WepollEx.Posix.Custody
import WepollEx.Posix.Lifetime
import WepollEx.Posix.Teardown
import WepollEx.Posix.Cancellation
import WepollEx.Posix.Metadata
import WepollEx.Posix.Index
import WepollEx.Posix.Agreement
import WepollEx.Posix.Decoration
import WepollEx.Posix.Batch
import WepollEx.Lifecycle.Entry
import WepollEx.System.Interest
import WepollEx.System.Batch
import WepollEx.Api.Batch
import WepollEx.Lifecycle.Visit
import WepollEx.System.ArmPass
import WepollEx.Posix.Timeout
import WepollEx.Afd.BaseSocket
import WepollEx.Lib.Bytes
import WepollEx.Posix.Expansion
import WepollEx.Lib.Probing
import WepollEx.Port.FdTable
import WepollEx.Afd.Groups
import WepollEx.Pool.Buffers
import WepollEx.Nginx.Adapter
import WepollEx.Nginx.Pending
import WepollEx.Nginx.Runs
import WepollEx.Pipe.Edge
import WepollEx.Pipe.Refines
import WepollEx.System.Guarantees
import WepollEx.Nginx.Level
