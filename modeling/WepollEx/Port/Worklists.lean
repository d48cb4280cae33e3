import WepollEx.Port.State

/-!
# Deferred-work lists and completion-port posts

The rearm and oneshot worklists (`ep_sock_set_needs_rearm_locked` and its companions), the
diagnostic predicate over them, and the small port functions that post packets, latch errors and
hand out generations.
-/

namespace WepollEx

open Intrusive

/-! ## Posts and errors -/

/-- `error <= 0` becomes EIO. -/
def orEio (e : Errno) : Errno := if e = 0 then EIO else e

/-- Post one packet; `answer` is the error `PostQueuedCompletionStatus` fails with, if it does. -/
def epPortPostIocp (p : Port) (answer : Option Errno) (packet : Packet) : Option Errno × Port :=
  if !p.iocpPostHandle then (some EBADF, p)
  else match answer with
    | some e => (some e, p)
    | none => (none, { p with iocp := p.iocp ++ [packet] })

/-- A failed post closes the port.  Closing the completion port discards the packets in it. -/
def epPortFailIocpPost (p : Port) (e : Errno) : Port :=
  if p.closing then p
  else { p with
    iocpPostError := if p.iocpPostError = 0 then orEio e else p.iocpPostError
    iocpPostFailures := p.iocpPostFailures + 1
    closing := true
    iocpPostHandle := false
    iocpClosed := true
    iocp := if p.iocpClosed then p.iocp else [] }

def epPortRecordAsyncErrorLocked (p : Port) (post : Option Errno) (e : Errno) : Port :=
  let p := { p with asynchronousErrors := p.asynchronousErrors + 1 }
  if p.asyncError ≠ 0 then p
  else
    let p := { p with asyncError := orEio e }
    if !p.closing && !p.waiterActive && !p.iocpClosed then
      match epPortPostIocp p post .control with
      | (none, p) => p
      | (some e, p) => epPortFailIocpPost p e
    else p

def epPortTakeAsyncErrorLocked (p : Port) : Errno × Port :=
  (p.asyncError, { p with asyncError := 0 })

def epPortTakeIocpPostError (p : Port) : Errno × Port :=
  (p.iocpPostError, { p with iocpPostError := 0 })

/-- `++next_sock_generation`, which skips zero when the 64-bit counter wraps around. -/
@[irreducible] def nextGeneration (n : Nat) : Nat :=
  if (n + 1) % 2 ^ 64 = 0 then 1 else (n + 1) % 2 ^ 64

/-- The increment of `n` wraps around. -/
def generationWraps (n : Nat) : Bool := 2 ^ 64 ≤ n + 1

def Port.bumpGeneration (p : Port) : Port :=
  { p with
    nextSockGeneration := nextGeneration p.nextSockGeneration
    generationWrapped := p.generationWrapped || generationWraps p.nextSockGeneration }

def Port.record (p : Port) (e : HistoryEvent) : Port := { p with history := p.history ++ [e] }

/-- One more, at `r`. -/
def bumpAt (count : Nat → Nat) (r : Nat) : Nat → Nat := Function.update count r (count r + 1)

namespace Cell

def record (c : Cell) (e : HistoryEvent) : Cell := c.mapPort fun p => p.record e

/-- The kernel object gave up one notification, which the registration now owns. -/
def takeNotification (c : Cell) : Cell :=
  { c with
    sock := { c.sock with waitableNotificationOwned := true }
    port := { c.port with consumedCount := bumpAt c.port.consumedCount c.sock.serial } }

/-- Give the registration the port's next generation. -/
def bumpGeneration (c : Cell) : Cell :=
  { c with
    sock := { c.sock with generation := nextGeneration c.port.nextSockGeneration }
    port := c.port.bumpGeneration }

end Cell

/-! ## Worklist membership -/

def epSockSetNeedsRearmLocked (c : Cell) (needsRearm : Bool) : Cell :=
  if c.sock.needsRearm = needsRearm then c
  else if needsRearm then
    { c with
      sock := { c.sock with needsRearm := true }
      port := { c.port with
        rearmList := c.port.rearmList.append c.addr
        needsRearmCount := c.port.needsRearmCount + 1 } }
  else
    { c with
      sock := { c.sock with needsRearm := false }
      port := { c.port with
        rearmList := (c.port.rearmList.check (0 < c.port.needsRearmCount)).remove c.addr
        needsRearmCount := c.port.needsRearmCount - 1 } }

def epSockSetOneshotFiredLocked (c : Cell) (fired : Bool) : Cell :=
  if c.sock.oneshotFired = fired then c
  else if fired then
    { c with
      sock := { c.sock with oneshotFired := true }
      port := { c.port with
        oneshotList := c.port.oneshotList.append c.addr
        oneshotFiredCount := c.port.oneshotFiredCount + 1 } }
  else
    { c with
      sock := { c.sock with oneshotFired := false }
      port := { c.port with
        oneshotList := (c.port.oneshotList.check (0 < c.port.oneshotFiredCount)).remove c.addr
        oneshotFiredCount := c.port.oneshotFiredCount - 1 } }

def epSockRestoreWorklistStateLocked (c : Cell) (needsRearm oneshotFired : Bool) : Cell :=
  let c := epSockSetNeedsRearmLocked c false
  let c := epSockSetOneshotFiredLocked c false
  let c := epSockSetNeedsRearmLocked c needsRearm
  epSockSetOneshotFiredLocked c oneshotFired

/-! ## The diagnostic predicate

`ep_port_worklists_valid_locked` walks the lists through their links.  Every walk has a step
bound, so that it is defined on ill-formed lists too; a walk that runs out counts as invalid. -/

/-- The two-speed walk over the list of all registrations; `false` when it meets a cycle. -/
def sockListAcyclic (next : Addr → Option Addr) : Nat → Option Addr → Option Addr → Bool
  | _, _, none => true
  | 0, _, some _ => false
  | fuel + 1, slow, some fast =>
    match next fast with
    | none => true
    | some fast' =>
      let slow := slow.bind next
      let fast := next fast'
      if slow = fast then false else sockListAcyclic next fuel slow fast

/-- Whether the walk from `head` visits `a`. -/
def sockListFinds (next : Addr → Option Addr) (a : Addr) : Nat → Option Addr → Bool
  | _, none => false
  | 0, some _ => false
  | fuel + 1, some live => if live = a then true else sockListFinds next a fuel (next live)

/-- The walk over all registrations: it checks each one's flags against its list links and counts
the flags. -/
def liveSockWalk (m : Mem) : Nat → Option Addr → Option Addr → Nat → Nat → Option (Nat × Nat)
  | _, _, none, rearm, oneshot => some (rearm, oneshot)
  | 0, _, some _, _, _ => none
  | fuel + 1, previous, some a, rearm, oneshot =>
    match m.socks a with
    | none => none
    | some s =>
      let p := m.port
      let rearmLinked := p.rearmList.links.prev a ≠ none ∨ p.rearmList.links.next a ≠ none ∨
        p.rearmList.head = some a
      let oneshotLinked := p.oneshotList.links.prev a ≠ none ∨
        p.oneshotList.links.next a ≠ none ∨ p.oneshotList.head = some a
      if p.sockList.links.prev a ≠ previous ∨
          s.needsRearm ≠ decide rearmLinked ∨
          s.oneshotFired ≠ decide oneshotLinked ∨
          (s.needsRearm ∧ s.oneshotFired) ∨
          (s.deletePending ∧ (s.needsRearm ∨ s.oneshotFired)) then none
      else
        liveSockWalk m fuel (some a) (p.sockList.links.next a) (rearm + s.needsRearm.toNat)
          (oneshot + s.oneshotFired.toNat)

/-- The walk over one worklist: it returns the last node visited and the number of nodes. -/
def worklistWalk (m : Mem) (bound : Nat) (list : DList Addr) (flag : EpSock → Bool)
    (count : Nat) : Nat → Option Addr → Option Addr → Nat → Option (Option Addr × Nat)
  | _, previous, none, listCount => some (previous, listCount)
  | 0, _, some _, _ => none
  | fuel + 1, previous, some a, listCount =>
    match m.socks a with
    | none => none
    | some s =>
      if !flag s ∨ !sockListFinds m.port.sockList.links.next a bound m.port.sockList.head ∨
          list.links.prev a ≠ previous ∨ listCount + 1 > count then none
      else
        worklistWalk m bound list flag count fuel (some a) (list.links.next a) (listCount + 1)

/-- `ep_port_worklists_valid_locked`, with every walk bounded by `fuel`. -/
def epPortWorklistsValidLocked (fuel : Nat) (m : Mem) : Bool :=
  let p := m.port
  if p.rearmList.head.isNone ≠ p.rearmList.tail.isNone ∨
      p.oneshotList.head.isNone ≠ p.oneshotList.tail.isNone then false
  else if !sockListAcyclic p.sockList.links.next fuel p.sockList.head p.sockList.head then false
  else match liveSockWalk m fuel none p.sockList.head 0 0 with
    | none => false
    | some (liveRearm, liveOneshot) =>
      match worklistWalk m fuel p.rearmList EpSock.needsRearm p.needsRearmCount fuel none
          p.rearmList.head 0 with
      | none => false
      | some (last, n) =>
        if last ≠ p.rearmList.tail ∨ n ≠ p.needsRearmCount ∨ n ≠ liveRearm then false
        else match worklistWalk m fuel p.oneshotList EpSock.oneshotFired p.oneshotFiredCount fuel
            none p.oneshotList.head 0 with
          | none => false
          | some (last, n) =>
            decide (last = p.oneshotList.tail ∧ n = p.oneshotFiredCount ∧ n = liveOneshot)

end WepollEx
