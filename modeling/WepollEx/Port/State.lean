import WepollEx.Lib.DList
import WepollEx.Core.Events

/-!
# Registrations and ports

The data of `ep_sock_t` and `ep_port_t` that the port's logic reads.  A registration's links in
the port's intrusive lists are kept with the list (`Intrusive.DList`), and the two kinds of kernel
object that may still call back into a registration, an AFD request in flight and an armed wait or
timer, are kept as sets of registrations beside the completion port's packets.

`history` and the other ghost fields record what callers and the kernel have seen so far; no
modelled function reads them.
-/

namespace WepollEx

open Intrusive

/-- The address of an `ep_sock_t`. -/
abbrev Addr := Nat
/-- A SOCKET or HANDLE value. -/
abbrev Socket := BitVec 64
/-- An errno value; zero means that none is set. -/
abbrev Errno := Nat

def INVALID_SOCKET : Socket := BitVec.allOnes 64

def ENOENT : Errno := 2
def EIO : Errno := 5
def EBADF : Errno := 9
def ENOMEM : Errno := 12
def EBUSY : Errno := 16
def EEXIST : Errno := 17
def EPERM : Errno := 1
def EINVAL : Errno := 22
def ENOTSOCK : Errno := 128
def EOPNOTSUPP : Errno := 130

/-- The three compile-time lifetime configurations: the default, `WEPOLL_EX_STRICT_SOCKET_IDENTITY`
and `WEPOLL_EX_ASSUME_SYNCHRONIZED_SOCKET_LIFETIME`. -/
inductive LifetimeMode
  | bestEffort | strict | synchronized
  deriving DecidableEq, Repr

inductive SockState
  | registered | polling | ready | deleted
  deriving DecidableEq, Repr

inductive PollStatus
  | idle | pending | cancelled
  deriving DecidableEq, Repr

inductive IdentityState
  | unavailable | transitional | stable
  deriving DecidableEq, Repr

inductive IdentityCheck
  | error | matching | stale | closed
  deriving DecidableEq, Repr

/-- A definitive verdict, the only kind a registration remembers. -/
abbrev IdentityVerdict := { result : IdentityCheck // result ≠ .error }

def IdentityVerdict.matching : IdentityVerdict := ⟨IdentityCheck.matching, nofun⟩

inductive RegKind
  | socket | waitable | pipe
  deriving DecidableEq, Repr

inductive AsyncReadCapability
  | unknown | safe | notSafe
  deriving DecidableEq, Repr

inductive WaitableSemantics
  | none | persistent | terminal | consumptive | etUnsupported
  deriving DecidableEq, Repr

/-- The access rights a pipe HANDLE was opened with. -/
structure PipeAccess where
  read : Bool
  write : Bool
  deriving DecidableEq, Repr

/-- `local_shutdown`: the two halves published through `wepoll_ex_shutdown_socket`. -/
structure LocalShutdown where
  read : Bool
  write : Bool
  deriving DecidableEq, Repr

/-- What one completed AFD poll leaves in `afd_info->Handles[0]`. -/
structure AfdInfo where
  numberOfHandles : Nat
  events : AfdEvents
  status : NtStatus
  deriving DecidableEq, Repr

/-- One registration (`ep_sock_t`). -/
structure EpSock where
  fd : Socket
  baseSocket : Socket
  kind : RegKind
  waitableSemantics : WaitableSemantics
  pipeAccess : PipeAccess
  pipeSynchronousIo : Bool
  socketProtocol : SocketProtocol
  udpAfdQualifierEligible : Bool
  asyncReadCapability : AsyncReadCapability
  udpReadlessReceiveParked : Bool
  localShutdown : LocalShutdown
  endpointId : Nat
  endpointIdState : IdentityState
  identityCheckedEpoch : Nat
  identityCheckedResult : IdentityVerdict
  baseSocketIdentity : Nat
  baseSocketCached : Bool
  userEvents : Events
  userFlags : Events
  userData : BitVec 64
  userCtx : Nat
  state : SockState
  pendingEvents : Events
  submittedAfdEvents : AfdEvents
  submittedWaitEpoch : Nat
  observedEvents : Events
  explicitDisarmedClasses : Classes
  pollStatus : PollStatus
  deletePending : Bool
  readyQueued : Bool
  completionPosted : Bool
  waitableNotificationOwned : Bool
  oneshotFired : Bool
  needsRearm : Bool
  pipeTerminalDelivered : Bool
  etHoldoff : Bool
  ioStatus : NtStatus
  generation : Nat
  afdInfo : AfdInfo
  waitRegistration : Bool
  /-- Ghost: the number of the ADD that created this registration. -/
  serial : Nat
  deriving DecidableEq, Repr

/-- An immutable ready snapshot (`ep_ready_node_t`). -/
structure ReadyNode where
  data : BitVec 64
  userCtx : Nat
  fd : Socket
  sockGeneration : Nat
  events : Events
  flags : BitVec 32
  timestamp : Nat
  deriving DecidableEq, Repr

/-- One record copied into the caller's array by a wait. -/
structure EventRecord where
  serial : Nat
  events : Events
  data : BitVec 64
  userCtx : Nat
  flags : BitVec 32
  timestamp : Nat
  deriving DecidableEq, Repr

/-- A completion packet: a registration's `io_status_block`, or a packet with a null OVERLAPPED. -/
inductive Packet
  | status (a : Addr)
  | control
  deriving DecidableEq, Repr

inductive WakeState
  | none | untagged | tagged
  deriving DecidableEq, Repr

/-- What callers have done to a registration, named by its serial number, and seen of it. -/
inductive HistoryEvent
  | added (r : Nat) (events : Events) (data : BitVec 64) (ctx : Nat)
  | modified (r : Nat) (events : Events) (data : BitVec 64) (ctx : Nat)
  | rearmed (r : Nat)
  | classesRearmed (r : Nat) (classes : Classes)
  /-- A MOD, rearm, class rearm or shutdown of `r` returned -1 because its wake post failed. -/
  | wakeFailed (r : Nat)
  | returned (record : EventRecord)
  deriving DecidableEq, Repr

/-- A port (`ep_port_t`) without the registrations themselves. -/
structure Port where
  lifetime : LifetimeMode
  explicitRearm : Bool
  udpProbeEvent : Bool
  fdTable : Socket → Option Addr
  sockList : HList Addr
  rearmList : DList Addr
  oneshotList : DList Addr
  needsRearmCount : Nat
  oneshotFiredCount : Nat
  pendingPollCount : Nat
  readyQueue : List ReadyNode
  /-- The node a drain has popped and not looked at yet. -/
  drainNode : Option ReadyNode
  /-- Packets in the completion port, oldest first. -/
  iocp : List Packet
  /-- Packets the waiter has dequeued (`iocp_entries`) and not dispatched yet. -/
  iocpEntries : List Packet
  /-- `iocp_post_handle` is not NULL. -/
  iocpPostHandle : Bool
  iocpClosed : Bool
  closing : Bool
  iocpPostError : Errno
  iocpPostFailures : Nat
  waiterActive : Bool
  waiterCoalescing : Bool
  activeWaitEpoch : Nat
  nextWaitEpoch : Nat
  wakePending : WakeState
  wakeEvent : Events × BitVec 64
  asyncError : Errno
  nextSockGeneration : Nat
  generation : Nat
  rearmWorkVisits : Nat
  oneshotProbeVisits : Nat
  staleEventsDropped : Nat
  identityFailures : Nat
  asynchronousErrors : Nat
  tcpCurrentLevelProbes : Nat
  tcpCurrentLevelFallbacks : Nat
  /-- Kernel: registrations whose AFD request is in flight. -/
  afdInFlight : Addr → Bool
  /-- Kernel: registrations whose registered wait or timer can still fire. -/
  waitArmed : Addr → Bool
  /-- Ghost: `next_sock_generation` has wrapped around. -/
  generationWrapped : Bool
  /-- Ghost: the accounting assertion of `ep_sock_complete_pending_locked` has failed. -/
  accountingViolated : Bool
  /-- Ghost: the serial number of the next ADD. -/
  nextSerial : Nat
  /-- Ghost: notifications taken from the kernel object of each registration. -/
  consumedCount : Nat → Nat
  /-- Ghost: how often the storage of each registration was released. -/
  freedCount : Nat → Nat
  /-- Ghost: what callers have done and seen, oldest first. -/
  history : List HistoryEvent

/-- One registration at address `addr` with its port, as the functions that run under
`fd_table_lock` see it.  `freed` is set once the registration's storage has been released. -/
structure Cell where
  addr : Addr
  sock : EpSock
  port : Port
  freed : Bool

/-- The port with the storage of all its registrations. -/
structure Mem where
  socks : Addr → Option EpSock
  port : Port

/-- The registration at `a` together with the port. -/
def Mem.cell (m : Mem) (a : Addr) (s : EpSock) : Cell := ⟨a, s, m.port, false⟩

/-- Write a registration and the port back. -/
def Mem.put (m : Mem) (c : Cell) : Mem where
  socks := Function.update m.socks c.addr (if c.freed then none else some c.sock)
  port := c.port

namespace Cell

def mapSock (c : Cell) (f : EpSock → EpSock) : Cell := { c with sock := f c.sock }

def mapPort (c : Cell) (f : Port → Port) : Cell := { c with port := f c.port }

@[simp] theorem mapSock_sock (c : Cell) (f : EpSock → EpSock) :
    (c.mapSock f).sock = f c.sock := rfl
@[simp] theorem mapSock_port (c : Cell) (f : EpSock → EpSock) :
    (c.mapSock f).port = c.port := rfl
@[simp] theorem mapSock_addr (c : Cell) (f : EpSock → EpSock) :
    (c.mapSock f).addr = c.addr := rfl
@[simp] theorem mapSock_freed (c : Cell) (f : EpSock → EpSock) :
    (c.mapSock f).freed = c.freed := rfl
@[simp] theorem mapPort_sock (c : Cell) (f : Port → Port) :
    (c.mapPort f).sock = c.sock := rfl
@[simp] theorem mapPort_port (c : Cell) (f : Port → Port) :
    (c.mapPort f).port = f c.port := rfl
@[simp] theorem mapPort_addr (c : Cell) (f : Port → Port) :
    (c.mapPort f).addr = c.addr := rfl
@[simp] theorem mapPort_freed (c : Cell) (f : Port → Port) :
    (c.mapPort f).freed = c.freed := rfl

end Cell

end WepollEx
