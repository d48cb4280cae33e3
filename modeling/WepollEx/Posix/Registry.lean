import Mathlib.Logic.Function.Basic
import WepollEx.Lib.Transition

/-!
# The POSIX port registry

The registry of `wepoll_ex_posix.c` maps epoll descriptors to metadata ports.  `g_posix_lock` guards
the map and every port's counters, so a critical section is one step, except that a section which
reaches a cancellation point (`close` or `write`) is cut there and holds the lock across the cut.
What the kernel says about a descriptor is an answer.  `control` stands for every call that takes a
reference and only uses the port under its own lock.

`frees` and `published` are ghosts.
-/

namespace WepollEx.Posix

abbrev Tid := Nat
abbrev PortId := Nat
abbrev Epfd := Int

def POSIX_PORT_MAP_SIZE : Nat := 1024

/-- `posix_port_t` as far as its lifetime goes. -/
structure Port where
  refs : Nat
  aliases : Nat
  closing : Bool
  retired : Bool
  closeWaiter : Bool
  /-- The threads asleep on the condition variable `idle`. -/
  sleepers : List Tid
  /-- The holder of the port's own lock. -/
  lock : Option Tid
  /-- Ghost: the port has been entered into the map. -/
  published : Bool
  /-- Ghost: how often the port was freed. -/
  frees : Nat
  deriving DecidableEq, Repr

/-- `calloc`. -/
def Port.blank : Port := ⟨0, 0, false, false, false, [], none, false, 0⟩

/-- What an extension call does with its reference. -/
inductive Use
  | control | wait
  deriving DecidableEq, Repr

/-- What a thread does after `port_wait_and_free`. -/
inductive After
  | acquire (epfd : Epfd) (use : Use)
  | idle
  deriving DecidableEq, Repr

/-- The three places where a wait asks `port_is_closing`. -/
inductive CheckSite
  | failed | beforeDecoration | afterDecoration
  deriving DecidableEq, Repr

inductive Pc
  | idle
  | acquire (epfd : Epfd) (use : Use)
  /-- `epfd_validate` with so many probe descriptors left to close, then the creation. -/
  | validate (epfd : Epfd) (use : Use) (closes : Nat)
  /-- `port_free` of a port that could not be created. -/
  | discard (p : PortId) (closes : Nat)
  /-- `port_mark_closing_locked` in `port_acquire_or_create`. -/
  | retireWake (p : PortId) (epfd : Epfd) (use : Use)
  | waitAndFree (p : PortId) (after : After)
  | condWait (p : PortId) (after : After)
  /-- `port_free` with so many descriptors left to close, without the registry lock. -/
  | freeing (p : PortId) (closes : Nat) (after : After)
  | control (p : PortId)
  | controlLocked (p : PortId)
  | waitStart (p : PortId)
  | waitStartLocked (p : PortId)
  | nativeWait (p : PortId)
  | closingCheck (p : PortId) (site : CheckSite)
  | decorate (p : PortId)
  | decorateLocked (p : PortId)
  | release (p : PortId)
  | close (epfd : Epfd)
  | closeWake (p : PortId) (closePublicFd : Bool)
  | closeFd (p : Option PortId)
  /-- `posix_wait_cancel_cleanup`. -/
  | cancelRelease (p : PortId)
  /-- `port_free` in a cleanup handler. -/
  | cancelFree (p : PortId)
  | dead
  deriving DecidableEq, Repr

def Use.pc (p : PortId) : Use → Pc
  | .control => .control p
  | .wait => .waitStart p

def After.pc : After → Pc
  | .acquire epfd use => .acquire epfd use
  | .idle => .idle

structure Registry where
  lock : Option Tid
  slots : Nat → Option (PortId × Epfd)
  ports : PortId → Port
  nextPort : PortId
  threads : Tid → Pc

def Registry.start : Registry where
  lock := none
  slots := fun _ => none
  ports := fun _ => .blank
  nextPort := 0
  threads := fun _ => .idle

/-- The result of `port_identity_check`. -/
inductive IdentityAnswer
  | same
  | other
  /-- A failed query; `stale` if its errno is EBADF or EINVAL. -/
  | error (stale : Bool)
  deriving DecidableEq, Repr

inductive CreateAnswer
  /-- An allocation or a lock failed. -/
  | noMemory
  /-- A later step failed; `port_free` has so many descriptors to close. -/
  | failed (closes : Nat)
  | created
  deriving DecidableEq, Repr

structure Answers where
  /-- Which map slots `port_lookup_alias_locked` finds to name the same epoll instance. -/
  sameInstance : Nat → Bool
  identity : IdentityAnswer
  /-- `epfd_validate` can open its probe, and finds an epoll instance. -/
  probe : Bool
  valid : Bool
  create : CreateAnswer
  /-- The native wait returned an error. -/
  failed : Bool
  /-- The call goes on with another `port_ctl_ctx`. -/
  more : Bool

namespace Registry

def goto (st : Registry) (t : Tid) (pc : Pc) : Registry :=
  { st with threads := Function.update st.threads t pc }

def modify (st : Registry) (p : PortId) (f : Port → Port) : Registry :=
  { st with ports := Function.update st.ports p (f (st.ports p)) }

def unlock (st : Registry) : Registry := { st with lock := none }

def take (st : Registry) (t : Tid) : Registry := { st with lock := some t }

/-! ## The map -/

def portLookupLocked (st : Registry) (epfd : Epfd) : Option PortId :=
  (List.range POSIX_PORT_MAP_SIZE).findSome? fun i =>
    match st.slots i with
    | some (p, e) => if e = epfd then some p else none
    | none => none

def portLookupAliasLocked (st : Registry) (epfd : Epfd) (same : Nat → Bool) : Option PortId :=
  (List.range POSIX_PORT_MAP_SIZE).findSome? fun i =>
    match st.slots i with
    | some (p, e) => if !(st.ports p).closing && e ≠ epfd && same i then some p else none
    | none => none

def freeSlot (st : Registry) : Option Nat :=
  (List.range POSIX_PORT_MAP_SIZE).find? fun i => (st.slots i).isNone

def setSlot (st : Registry) (i : Nat) (entry : Option (PortId × Epfd)) : Registry :=
  { st with slots := Function.update st.slots i entry }

/-- `port_add_alias_locked`; `none` when the map is full. -/
def portAddAliasLocked (st : Registry) (p : PortId) (epfd : Epfd) : Option Registry :=
  st.freeSlot.map fun i =>
    (st.setSlot i (some (p, epfd))).modify p fun port => { port with aliases := port.aliases + 1 }

def portRemoveEpfdLocked (st : Registry) (p : PortId) (epfd : Epfd) : Registry :=
  match (List.range POSIX_PORT_MAP_SIZE).find? fun i => st.slots i = some (p, epfd) with
  | none => st
  | some i => (st.setSlot i none).modify p fun port => { port with aliases := port.aliases - 1 }

def portRemoveLocked (st : Registry) (p : PortId) : Registry :=
  { st with slots := fun i => if (st.slots i).map Prod.fst = some p then none else st.slots i }.modify
    p fun port => { port with aliases := 0 }

/-! ## Acquiring and releasing -/

/-- The rest of `port_acquire_or_create` for a port found in the map. -/
def acquireFound (st : Registry) (t : Tid) (p : PortId) (epfd : Epfd) (use : Use)
    (answers : Answers) : Registry :=
  if (st.ports p).closing then st.goto t .idle
  else match answers.identity with
    | .error _ => st.goto t .idle
    | .same => (st.modify p fun port => { port with refs := port.refs + 1 }).goto t (use.pc p)
    | .other =>
      let st := st.portRemoveEpfdLocked p epfd
      if (st.ports p).aliases = 0 then
        ((st.modify p fun port => { port with closing := true }).take t).goto t
          (.retireWake p epfd use)
      else st.goto t (.acquire epfd use)

/-- `port_acquire_or_create` up to its first cancellation point. -/
def acquire (st : Registry) (t : Tid) (epfd : Epfd) (use : Use) (answers : Answers) : Registry :=
  match st.portLookupLocked epfd with
  | some p => st.acquireFound t p epfd use answers
  | none =>
    match st.portLookupAliasLocked epfd answers.sameInstance with
    | some p =>
      match st.portAddAliasLocked p epfd with
      | none => st.goto t .idle
      | some st => st.acquireFound t p epfd use answers
    | none =>
      if answers.probe then (st.take t).goto t (.validate epfd use 2) else st.goto t .idle

/-- The creation of a port once `epfd` is known to be an epoll instance. -/
def create (st : Registry) (t : Tid) (epfd : Epfd) (use : Use) (answers : Answers) : Registry :=
  let p := st.nextPort
  if !answers.valid then st.unlock.goto t .idle
  else match answers.create with
    | .noMemory => st.unlock.goto t .idle
    | .failed closes => { st with nextPort := p + 1 }.goto t (.discard p closes)
    | .created =>
      let st := { st with nextPort := p + 1 }.modify p fun port => { port with refs := 1 }
      match st.freeSlot with
      | none => st.goto t (.discard p 2)
      | some i =>
        (((st.setSlot i (some (p, epfd))).modify p fun port =>
          { port with aliases := 1, published := true }).unlock).goto t (use.pc p)

/-- `port_release`; `next` is what the thread does when it does not free the port, `free` what it
does when it does. -/
def portRelease (st : Registry) (t : Tid) (p : PortId) (next free : Pc) : Registry :=
  let st := st.modify p fun port => { port with refs := port.refs - 1 }
  let port := st.ports p
  let st :=
    if port.closing && port.refs = 0 then
      -- pthread_cond_signal wakes one sleeper, if there is one
      st.modify p fun port => { port with sleepers := port.sleepers.tail }
    else st
  if port.retired && port.aliases = 0 && port.refs = 0 && !port.closeWaiter then
    (st.modify p fun port => { port with retired := false }).goto t free
  else st.goto t next

/-! ## Closing -/

/-- The loop condition of `port_wait_and_free`, evaluated with the registry lock. -/
def waitOrFree (st : Registry) (t : Tid) (p : PortId) (after : After) : Registry :=
  if (st.ports p).refs ≠ 0 then
    (st.modify p fun port => { port with sleepers := port.sleepers ++ [t] }).goto t
      (.condWait p after)
  else
    (st.modify p fun port => { port with closeWaiter := false, retired := false }).goto t
      (.freeing p 2 after)

def waitAndFree (st : Registry) (t : Tid) (p : PortId) (after : After) : Registry :=
  (st.modify p fun port => { port with retired := true, closeWaiter := true }).waitOrFree t p after

/-- A thread in `pthread_cond_wait` runs again, also without a signal. -/
def condWake (st : Registry) (t : Tid) (p : PortId) (after : After) : Registry :=
  (st.modify p fun port => { port with sleepers := port.sleepers.erase t }).waitOrFree t p after

/-- `free`, the last step of `port_free`. -/
def free (st : Registry) (t : Tid) (p : PortId) (next : Pc) : Registry :=
  (st.modify p fun port => { port with frees := port.frees + 1 }).goto t next

/-- `wepoll_close` for a port in the map, up to its first cancellation point. -/
def closeFound (st : Registry) (t : Tid) (p : PortId) (epfd : Epfd) (answers : Answers) :
    Registry :=
  if (st.ports p).closing then st.goto t .idle
  else
    let retire (closePublicFd : Bool) : Registry :=
      let st := st.portRemoveEpfdLocked p epfd
      if (st.ports p).aliases = 0 then
        ((st.modify p fun port => { port with closing := true }).take t).goto t
          (.closeWake p closePublicFd)
      else if closePublicFd then (st.take t).goto t (.closeFd none)
      else st.goto t .idle
    match answers.identity with
    | .same => retire true
    | .other => retire false
    | .error stale => if stale then retire false else st.goto t .idle

def close (st : Registry) (t : Tid) (epfd : Epfd) (answers : Answers) : Registry :=
  match st.portLookupLocked epfd with
  | some p => st.closeFound t p epfd answers
  | none =>
    match st.portLookupAliasLocked epfd answers.sameInstance with
    | some p =>
      match st.portAddAliasLocked p epfd with
      | none => st.goto t .idle
      | some st => st.closeFound t p epfd answers
    | none => (st.take t).goto t (.closeFd none)

/-! ## Steps -/

/-- Take and release the port's own lock. -/
def lockPort (st : Registry) (t : Tid) (p : PortId) (next : Pc) : Option Registry :=
  if (st.ports p).lock.isSome then none
  else some ((st.modify p fun port => { port with lock := some t }).goto t next)

def unlockPort (st : Registry) (t : Tid) (p : PortId) (next : Pc) : Registry :=
  (st.modify p fun port => { port with lock := none }).goto t next

/-- The step begins by taking the registry lock. -/
def needsLock : Pc → Bool
  | .acquire _ _ => true
  | .waitAndFree _ _ => true
  | .condWait _ _ => true
  | .closingCheck _ _ => true
  | .release _ => true
  | .close _ => true
  | .cancelRelease _ => true
  | _ => false

def closingCheck (st : Registry) (t : Tid) (p : PortId) (site : CheckSite) : Registry :=
  match site with
  | .failed => st.goto t (.release p)
  | .beforeDecoration =>
    if (st.ports p).closing then st.goto t (.release p) else st.goto t (.decorate p)
  | .afterDecoration => st.goto t (.release p)

/-- One step of a thread that is not being cancelled. -/
def run (st : Registry) (t : Tid) (answers : Answers) : Option Registry :=
  if needsLock (st.threads t) && st.lock.isSome then none
  else match st.threads t with
    | .idle => none
    | .acquire epfd use => some (st.acquire t epfd use answers)
    | .validate epfd use (closes + 1) => some (st.goto t (.validate epfd use closes))
    | .validate epfd use 0 => some (st.create t epfd use answers)
    | .discard p (closes + 1) => some (st.goto t (.discard p closes))
    | .discard p 0 => some ((st.free t p .idle).unlock)
    | .retireWake p epfd use =>
      some ((st.portRemoveLocked p).unlock.goto t (.waitAndFree p (.acquire epfd use)))
    | .waitAndFree p after => some (st.waitAndFree t p after)
    | .condWait p after => some (st.condWake t p after)
    | .freeing p (closes + 1) after => some (st.goto t (.freeing p closes after))
    | .freeing p 0 after => some (st.free t p after.pc)
    | .control p => st.lockPort t p (.controlLocked p)
    | .controlLocked p =>
      some (st.unlockPort t p (if answers.more then .control p else .release p))
    | .waitStart p => st.lockPort t p (.waitStartLocked p)
    | .waitStartLocked p => some (st.unlockPort t p (.nativeWait p))
    | .nativeWait p =>
      some (st.goto t (.closingCheck p (if answers.failed then .failed else .beforeDecoration)))
    | .closingCheck p site => some (st.closingCheck t p site)
    | .decorate p => st.lockPort t p (.decorateLocked p)
    | .decorateLocked p => some (st.unlockPort t p (.closingCheck p .afterDecoration))
    | .release p => some (st.portRelease t p .idle (.freeing p 2 .idle))
    | .close epfd => some (st.close t epfd answers)
    | .closeWake p closePublicFd =>
      if closePublicFd then some (st.goto t (.closeFd (some p)))
      else some (st.unlock.goto t (.waitAndFree p .idle))
    | .closeFd p =>
      some (st.unlock.goto t (match p with | some p => .waitAndFree p .idle | none => .idle))
    | .cancelRelease p => some (st.portRelease t p .dead (.cancelFree p))
    | .cancelFree p => some (st.free t p .dead)
    | .dead => none

/-- `posix_close_wait_cancel_cleanup`, with the registry lock reacquired. -/
def closeWaitCancelCleanup (st : Registry) (t : Tid) (p : PortId) : Registry :=
  let st := st.modify p fun port =>
    { port with closeWaiter := false, sleepers := port.sleepers.erase t }
  if (st.ports p).refs = 0 then
    (st.modify p fun port => { port with retired := false }).goto t (.cancelFree p)
  else st.goto t .dead

/-- A pending cancellation is acted upon at a cancellation point.  Only the native wait and the
condition wait have a cleanup handler. -/
def cancel (st : Registry) (t : Tid) : Option Registry :=
  match st.threads t with
  | .nativeWait p => some (st.goto t (.cancelRelease p))
  | .condWait p _ => if st.lock.isSome then none else some (st.closeWaitCancelCleanup t p)
  | .validate _ _ (_ + 1) => some (st.goto t .dead)
  | .discard _ (_ + 1) => some (st.goto t .dead)
  | .retireWake _ _ _ => some (st.goto t .dead)
  | .freeing _ (_ + 1) _ => some (st.goto t .dead)
  | .closeWake _ _ => some (st.goto t .dead)
  | .closeFd _ => some (st.goto t .dead)
  | _ => none

end Registry

inductive Act
  /-- An extension call on `epfd` begins. -/
  | call (t : Tid) (epfd : Epfd) (use : Use)
  | close (t : Tid) (epfd : Epfd)
  | run (t : Tid) (answers : Answers)
  | cancel (t : Tid)

def Registry.step (st : Registry) : Act → Option Registry
  | .call t epfd use => if st.threads t = .idle then some (st.goto t (.acquire epfd use)) else none
  | .close t epfd => if st.threads t = .idle then some (st.goto t (.close epfd)) else none
  | .run t answers => st.run t answers
  | .cancel t => st.cancel t

end WepollEx.Posix
