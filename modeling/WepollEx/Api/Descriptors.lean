import Mathlib.Logic.Function.Basic
import WepollEx.Lib.Transition
import WepollEx.Port.State

/-!
# Epoll descriptors

The process-wide table of epoll descriptors: `epoll_create_ex`, `wepoll_dup`, the reference that
every operation takes on the shared record of a port, and `wepoll_close`.  Each call is cut at
`g_epfd_lock` and at every blocking call outside it.

A port is only counted here: `destroyed p` is the number of `ep_port_destroy` calls for `p`.
-/

namespace WepollEx.Api

abbrev Tid := Nat
abbrev PortId := Nat
abbrev SharedAddr := Nat

def EMFILE : Errno := 24
def ETIMEDOUT : Errno := 138

def INT_MAX : Int := 2147483647

/-- `epfd_shared_t`. -/
structure Shared where
  port : PortId
  refs : Nat
  aliases : Nat
  closing : Bool
  detached : Bool
  /-- `refs_drained_event` is signalled. -/
  refsDrained : Bool
  deriving DecidableEq, Repr

/-- `epfd_entry_t`. -/
structure Entry where
  fd : Int
  shared : SharedAddr
  deriving DecidableEq, Repr

/-- `g_epfd_buckets`. -/
abbrev Buckets := Nat → List Entry

/-- Where a thread is in its call. -/
inductive Pc
  | idle
  /-- `epoll_create_ex` has created a port. -/
  | created (port : PortId)
  | createFailed (port : PortId) (e : Errno)
  /-- An operation holds a reference. -/
  | operating (s : SharedAddr)
  /-- `wepoll_close` has unlinked the last alias. -/
  | beginClose (s : SharedAddr)
  | checkRefs (s : SharedAddr)
  | waiting (s : SharedAddr)
  | recheck (s : SharedAddr) (waitError : Errno)
  /-- `epfd_destroy`, called by `epfd_put` if `deferred`. -/
  | destroying (s : SharedAddr) (deferred : Bool)
  | freeing (s : SharedAddr) (deferred : Bool) (result : Option Errno)
  deriving DecidableEq, Repr

structure State where
  buckets : Buckets
  nextFd : Int
  /-- The shared records in memory. -/
  shared : SharedAddr → Option Shared
  pc : Tid → Pc
  /-- What the last call of a thread returned. -/
  returned : Tid → Except Errno Int
  /-- Ghost: storage and ports handed out so far. -/
  nextShared : SharedAddr
  nextPort : PortId
  /-- Ghost: how often a port was destroyed. -/
  destroyed : PortId → Nat
  /-- Ghost: freed storage was accessed, or an assertion failed. -/
  fault : Bool

def start : State where
  buckets := fun _ => []
  nextFd := 1
  shared := fun _ => none
  pc := fun _ => .idle
  returned := fun _ => .ok 0
  nextShared := 0
  nextPort := 0
  destroyed := fun _ => 0
  fault := false

/-! ## The table -/

def epfdBucket (fd : Int) : Nat := (fd % 64).toNat

namespace Buckets

def epfdFindLocked (t : Buckets) (fd : Int) : Option Entry :=
  if fd ≤ 0 then none else (t (epfdBucket fd)).find? fun e => e.fd = fd

/-- `g_next_fd` after the candidate `fd`. -/
def nextCandidate (fd : Int) : Int := if fd = INT_MAX then 1 else fd + 1

/-- The loop of `epfd_allocate_id_locked`, with the attempts that are left; it returns the
descriptor and the new value of `g_next_fd`. -/
def allocateLoop (t : Buckets) : Nat → Int → Int × Int
  | 0, next => (-1, next)
  | attempts + 1, candidate =>
    if 0 < candidate ∧ (t.epfdFindLocked candidate).isNone then
      (candidate, nextCandidate candidate)
    else allocateLoop t attempts (nextCandidate candidate)

def epfdAllocateIdLocked (t : Buckets) (next : Int) : Int × Int :=
  t.allocateLoop 2147483647 next

def epfdInsertLocked (t : Buckets) (e : Entry) : Buckets :=
  Function.update t (epfdBucket e.fd) (e :: t (epfdBucket e.fd))

def epfdUnlinkLocked (t : Buckets) (e : Entry) : Buckets :=
  Function.update t (epfdBucket e.fd) ((t (epfdBucket e.fd)).erase e)

end Buckets

namespace State

def goto (st : State) (t : Tid) (pc : Pc) : State :=
  { st with pc := Function.update st.pc t pc }

/-- The call of thread `t` returns. -/
def ret (st : State) (t : Tid) (r : Except Errno Int) : State :=
  { st with
    pc := Function.update st.pc t .idle
    returned := Function.update st.returned t r }

def setShared (st : State) (s : SharedAddr) (r : Shared) : State :=
  { st with shared := Function.update st.shared s (some r) }

/-- Use a shared record; freed storage is a fault. -/
def withShared (st : State) (s : SharedAddr) (f : Shared → State) : State :=
  match st.shared s with
  | none => { st with fault := true }
  | some r => f r

/-! ## Creation and duplication -/

/-- `ep_port_create` inside `epoll_create_ex`. -/
def create (st : State) (t : Tid) : State :=
  { st with nextPort := st.nextPort + 1 }.goto t (.created st.nextPort)

/-- `epfd_alloc`.  `failure` is the error of an allocation. -/
def epfdAlloc (st : State) (t : Tid) (port : PortId) (failure : Option Errno) : State :=
  match failure with
  | some e => st.goto t (.createFailed port e)
  | none =>
    let (fd, next) := st.buckets.epfdAllocateIdLocked st.nextFd
    let st := { st with nextFd := next }
    if 0 < fd then
      let s := st.nextShared
      ({ st with
        nextShared := s + 1
        buckets := st.buckets.epfdInsertLocked ⟨fd, s⟩ }.setShared s
          ⟨port, 0, 1, false, false, false⟩).ret t (.ok fd)
    else st.goto t (.createFailed port EMFILE)

def destroyPort (st : State) (port : PortId) : State :=
  { st with destroyed := Function.update st.destroyed port (st.destroyed port + 1) }

/-- `epfd_duplicate`. -/
def epfdDuplicate (st : State) (t : Tid) (fd : Int) (failure : Option Errno) : State :=
  match failure with
  | some e => st.ret t (.error e)
  | none =>
    match st.buckets.epfdFindLocked fd with
    | none => st.ret t (.error EBADF)
    | some source => st.withShared source.shared fun r =>
      if r.closing then st.ret t (.error EBADF)
      else
        let (duplicate, next) := st.buckets.epfdAllocateIdLocked st.nextFd
        let st := { st with nextFd := next }
        if 0 < duplicate then
          ({ st with buckets := st.buckets.epfdInsertLocked ⟨duplicate, source.shared⟩ }.setShared
            source.shared { r with aliases := r.aliases + 1 }).ret t (.ok duplicate)
        else st.ret t (.error EMFILE)

/-! ## References -/

/-- `epfd_require`. -/
def epfdAcquire (st : State) (t : Tid) (fd : Int) : State :=
  match st.buckets.epfdFindLocked fd with
  | none => st.ret t (.error EBADF)
  | some e => st.withShared e.shared fun r =>
    if r.closing then st.ret t (.error EBADF)
    else (st.setShared e.shared { r with refs := r.refs + 1 }).goto t (.operating e.shared)

/-- `epfd_put` up to its `epfd_destroy`. -/
def epfdPut (st : State) (t : Tid) (s : SharedAddr) : State :=
  st.withShared s fun r =>
    let r := if 0 < r.refs then { r with refs := r.refs - 1 } else r
    if r.closing ∧ r.refs = 0 then
      if r.detached then (st.setShared s r).goto t (.destroying s true)
      else (st.setShared s { r with refsDrained := true }).goto t .idle
    else (st.setShared s r).goto t .idle

/-! ## Closing -/

/-- `wepoll_close` up to `ep_port_begin_close`. -/
def wepollClose (st : State) (t : Tid) (fd : Int) : State :=
  match st.buckets.epfdFindLocked fd with
  | none => st.ret t (.error EBADF)
  | some e => st.withShared e.shared fun r =>
    if r.closing then st.ret t (.error EBADF)
    else
      let st := { st with
        buckets := st.buckets.epfdUnlinkLocked e
        fault := st.fault || r.aliases == 0 }
      let aliases := r.aliases - 1
      if aliases = 0 then
        (st.setShared e.shared { r with aliases := aliases, closing := true }).goto t
          (.beginClose e.shared)
      else (st.setShared e.shared { r with aliases := aliases }).ret t (.ok 0)

/-- The check for references before and after the wait. -/
def checkRefs (st : State) (t : Tid) (s : SharedAddr) : State :=
  st.withShared s fun r =>
    if r.refs ≠ 0 then st.goto t (.waiting s) else st.goto t (.destroying s false)

/-- The remaining references are left to the last operation. -/
def recheck (st : State) (t : Tid) (s : SharedAddr) (waitError : Errno) : State :=
  st.withShared s fun r =>
    if r.refs ≠ 0 then
      (st.setShared s { r with detached := true }).ret t
        (.error (if waitError = 0 then ETIMEDOUT else waitError))
    else st.goto t (.destroying s false)

end State

/-- `WaitForSingleObject`, and the result of `ep_port_destroy`. -/
inductive Answer
  | signalled
  | timeout
  | failed (e : Errno)
  | destroyed (result : Option Errno)
  | go
  deriving DecidableEq, Repr

namespace State

/-- `WaitForSingleObject` on the event of the drained references. -/
def wait (st : State) (t : Tid) (s : SharedAddr) (answer : Answer) : Option State :=
  match answer with
  | .signalled =>
    match st.shared s with
    | none => some { st with fault := true }
    | some r => if r.refsDrained then some (st.goto t (.recheck s 0)) else none
  | .timeout => some (st.goto t (.recheck s ETIMEDOUT))
  | .failed e => some (st.goto t (.recheck s (if e = 0 then EIO else e)))
  | _ => none

/-- `epfd_destroy`, by its two calls. -/
def epfdDestroy (st : State) (t : Tid) (s : SharedAddr) (deferred : Bool) (answer : Answer) :
    Option State :=
  match answer with
  | .destroyed result =>
    some (st.withShared s fun r => (st.destroyPort r.port).goto t (.freeing s deferred result))
  | _ => none

def epfdFree (st : State) (t : Tid) (s : SharedAddr) (deferred : Bool) (result : Option Errno) :
    State :=
  let st := { st with shared := Function.update st.shared s none }
  if deferred then st.goto t .idle
  else
    match result with
    | none => st.ret t (.ok 0)
    | some e => st.ret t (.error e)

/-- A call goes on. -/
def resume (st : State) (t : Tid) (answer : Answer) : Option State :=
  match st.pc t with
  | .createFailed port e => some ((st.destroyPort port).ret t (.error e))
  | .beginClose s => some (st.withShared s fun _ => st.goto t (.checkRefs s))
  | .checkRefs s => some (st.checkRefs t s)
  | .waiting s => st.wait t s answer
  | .recheck s waitError => some (st.recheck t s waitError)
  | .destroying s deferred => st.epfdDestroy t s deferred answer
  | .freeing s deferred result => some (st.epfdFree t s deferred result)
  | _ => none

end State

inductive Act
  | create (t : Tid)
  | alloc (t : Tid) (failure : Option Errno)
  | dup (t : Tid) (fd : Int) (failure : Option Errno)
  | acquire (t : Tid) (fd : Int)
  | put (t : Tid)
  | close (t : Tid) (fd : Int)
  | resume (t : Tid) (answer : Answer)

/-- One step of a thread. -/
def step (st : State) : Act → Option State
  | .create t => if st.pc t = .idle then some (st.create t) else none
  | .alloc t failure =>
    match st.pc t with
    | .created port => some (st.epfdAlloc t port failure)
    | _ => none
  | .dup t fd failure => if st.pc t = .idle then some (st.epfdDuplicate t fd failure) else none
  | .acquire t fd => if st.pc t = .idle then some (st.epfdAcquire t fd) else none
  | .put t =>
    match st.pc t with
    | .operating s => some (st.epfdPut t s)
    | _ => none
  | .close t fd => if st.pc t = .idle then some (st.wepollClose t fd) else none
  | .resume t answer => st.resume t answer

end WepollEx.Api
