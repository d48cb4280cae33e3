import WepollEx.Port.Control

/-!
# The waiter's work under the table lock

`ep_port_arm_pending_locked`, the locked part of `ep_drain_to_buffer`, the deferred-rearm walks
and the dispatch of one completion packet.
-/

namespace WepollEx

open Intrusive

def EP_WAIT_COALESCE_THRESHOLD : Nat := 4096

/-! ## Arm pass -/

/-- Which worklist an arm loop serves. -/
inductive Worklist
  | rearm | oneshot
  deriving DecidableEq, Repr

def Port.worklist (p : Port) : Worklist → DList Addr
  | .rearm => p.rearmList
  | .oneshot => p.oneshotList

def Port.setWorklist (p : Port) (w : Worklist) (d : DList Addr) : Port :=
  match w with
  | .rearm => { p with rearmList := d }
  | .oneshot => { p with oneshotList := d }

def EpSock.onWorklist (s : EpSock) : Worklist → Bool
  | .rearm => s.needsRearm
  | .oneshot => s.oneshotFired

def Port.countVisit (p : Port) : Worklist → Port
  | .rearm => { p with rearmWorkVisits := p.rearmWorkVisits + 1 }
  | .oneshot => { p with oneshotProbeVisits := p.oneshotProbeVisits + 1 }

/-- Move the registration behind the others if it is still on the worklist. -/
def rotateIfListed (w : Worklist) (c : Cell) : Cell :=
  if !c.freed && c.sock.onWorklist w then
    c.mapPort fun p => p.setWorklist w ((p.worklist w).rotate c.addr)
  else c

/-- One visit of an arm loop to the registration at the head. -/
def armVisit (w : Worklist) (answers : SubmitAnswers) (asyncPost : Option Errno)
    (firstError : Errno) (c : Cell) : Errno × Cell :=
  match epSockSubmitLocked answers false false (c.mapPort fun p => p.countVisit w) with
  | (.failed e, _, c) =>
    let c := c.mapPort fun p => epPortRecordAsyncErrorLocked p asyncPost e
    (if firstError = 0 then orEio e else firstError, rotateIfListed w c)
  | (.ok, _, c) => (firstError, rotateIfListed w c)
  | (.retired _, _, c) => (firstError, c)

/-- `budget` visits to the head of one worklist.  `none` is a null or dangling list head. -/
def armLoop (w : Worklist) (answers : Nat → SubmitAnswers) (asyncPost : Option Errno) :
    Nat → Errno → Mem → Option (Errno × Mem)
  | 0, firstError, m => some (firstError, m)
  | budget + 1, firstError, m =>
    match (m.port.worklist w).head with
    | none => none
    | some a =>
      match m.socks a with
      | none => none
      | some s =>
        let (firstError, c) := armVisit w (answers budget) asyncPost firstError (m.cell a s)
        armLoop w answers asyncPost budget firstError (m.put c)

/-- Answers to one arm pass. -/
structure ArmAnswers where
  rearm : Nat → SubmitAnswers
  oneshot : Nat → SubmitAnswers
  asyncPost : Option Errno

/-- `ep_port_arm_pending_locked`; both budgets are the list lengths at entry. -/
def epPortArmPendingLocked (answers : ArmAnswers) (m : Mem) : Option (Errno × Mem) :=
  match armLoop .rearm answers.rearm answers.asyncPost m.port.needsRearmCount 0 m with
  | none => none
  | some (e, m') =>
    armLoop .oneshot answers.oneshot answers.asyncPost m.port.oneshotFiredCount e m'

/-! ## Deferred rearms -/

/-- The registrations a walk along the rearm list meets, at most `fuel` of them. -/
def rearmWalk (p : Port) : Nat → Option Addr → List Addr
  | _, none => []
  | 0, some _ => []
  | fuel + 1, some a => a :: rearmWalk p fuel (p.rearmList.links.next a)

def epPortHasDeferredRearmLocked (m : Mem) : Bool :=
  (rearmWalk m.port m.port.needsRearmCount m.port.rearmList.head).any fun a =>
    match m.socks a with
    | none => false
    | some s => s.etHoldoff

def epPortReleaseDeferredRearmsLocked (m : Mem) : Mem :=
  let listed := rearmWalk m.port m.port.needsRearmCount m.port.rearmList.head
  { m with socks := fun a =>
      if a ∈ listed then (m.socks a).map fun s => { s with etHoldoff := false } else m.socks a }

/-! ## Drain -/

/-- Answers to the drain of one node. -/
structure DrainAnswers where
  identity : IdentityAnswers
  cancel : CancelAnswers
  pipe : PipeAnswers
  asyncPost : Option Errno

def recordFor (s : EpSock) (node : ReadyNode) : EventRecord where
  serial := s.serial
  events := node.events
  data := node.data
  userCtx := node.userCtx
  flags := node.flags
  timestamp := node.timestamp

/-- Strict builds drop a snapshot whose identity query failed and rearm its registration. -/
def drainSuppress (asyncPost : Option Errno) (e : Errno) (c : Cell) : Cell :=
  let c := c.mapSock fun s =>
    { s with pendingEvents := 0, readyQueued := false, state := .registered }
  let c := epSockSetOneshotFiredLocked c false
  rearmWithError asyncPost e c

/-- The registration once its node has been taken. -/
def drainedSock (pipeEt : Bool) (snapshot : PipeSnapshot) (node : ReadyNode) (s : EpSock) : EpSock :=
  { s with
    pendingEvents := 0
    readyQueued := false
    state := .registered
    pipeTerminalDelivered :=
      if pipeEt then epPipeEtEventsHaveFinalShape s node.events else s.pipeTerminalDelivered
    observedEvents :=
      if s.kind = .waitable ∧ s.isET ∧ s.waitableSemantics = .consumptive then 0
      else if pipeEt ∧ snapshot.valid ∧ !snapshot.localClosed ∧ snapshot.events = 0 then 0
      else s.observedEvents }

/-- Put a delivered registration back on the rearm list, unless nothing is left to arm. -/
def rearmDrained (c : Cell) : Cell :=
  let c := c.mapSock fun s => { s with etHoldoff := false }
  epSockSetNeedsRearmLocked c
    (!(epSockExplicitRearmEnabled c.port c.sock &&
      epSockAfdEventsLocked c.port c.sock c.sock.userEvents = 0))

/-- Copy the record out; the first one for a large array makes the waiter collect more. -/
def noteReturned (maxevents : Nat) (first : Bool) (node : ReadyNode) (c : Cell) : Cell :=
  let c := if first && maxevents > EP_WAIT_COALESCE_THRESHOLD then
    c.mapPort fun p => { p with waiterCoalescing := true } else c
  c.mapPort fun p => p.record (.returned (recordFor c.sock node))

/-- Hand a valid node to the caller.  `first` tells that it is the first one of this drain. -/
def drainDeliver (answers : PipeAnswers) (maxevents : Nat) (first : Bool) (node : ReadyNode)
    (c : Cell) : Cell :=
  let pipeEt := c.sock.kind = .pipe && c.sock.isET
  let snapshot := if pipeEt then epPipeSnapshot answers c.sock else .blank
  let finalPipeEt := pipeEt && snapshot.valid && !snapshot.localClosed &&
    snapshot.events = node.events && epPipeEtSnapshotIsFinal c.sock node.events snapshot
  let c := c.mapSock (drainedSock pipeEt snapshot node)
  let terminalWaitable :=
    c.sock.kind = .waitable && c.sock.isET && c.sock.waitableSemantics = .terminal
  let c := if !c.sock.oneshotFired && !terminalWaitable && !finalPipeEt then rearmDrained c else c
  noteReturned maxevents first node c

/-- Process one popped node. -/
def drainNodeLocked (answers : DrainAnswers) (maxevents : Nat) (first : Bool) (node : ReadyNode)
    (m : Mem) : Option EventRecord × Mem :=
  let stale : Option EventRecord × Mem :=
    (none, { m with port := { m.port with staleEventsDropped := m.port.staleEventsDropped + 1 } })
  match m.port.fdTable node.fd with
  | none => stale
  | some a =>
    match m.socks a with
    | none => stale
    | some s =>
      if s.generation = node.sockGeneration ∧ !s.deletePending then
        let deliver (c : Cell) : Option EventRecord × Mem :=
          (some (recordFor c.sock node),
            m.put (drainDeliver answers.pipe maxevents first node c))
        let c := m.cell a s
        if c.port.lifetime = .synchronized then deliver c
        else match epSockValidateIdentityForDeliveryLocked answers.identity c with
          | (.stale, _, c) => (none, m.put (epSockRetireStaleLocked answers.cancel c))
          | (.closed, _, c) => (none, m.put (epSockRetireStaleLocked answers.cancel c))
          | (.error, e, c) =>
            if c.port.lifetime = .strict then
              (none, m.put (drainSuppress answers.asyncPost e c))
            else deliver c
          | (.matching, _, c) => deliver c
      else stale

/-- Process the popped node, then pop and process further ones until the array is full or the
queue is empty; `rest` is the queue behind the popped node. -/
def drainLoop (answers : Nat → DrainAnswers) (maxevents : Nat) (node : ReadyNode) :
    List ReadyNode → List EventRecord → Mem → List EventRecord × Mem
  | rest, out, m =>
    let (record, m) :=
      drainNodeLocked (answers rest.length) maxevents (out.length = 0) node m
    let m := { m with port := { m.port with drainNode := none } }
    let out := out ++ record.toList
    match rest with
    | [] => (out, m)
    | next :: rest =>
      if out.length < maxevents then
        let m := { m with port := { m.port with
          readyQueue := rest, drainNode := some next } }
        drainLoop answers maxevents next rest out m
      else (out, m)

/-- The part of `ep_drain_to_buffer` that runs under the lock, for the node popped before. -/
def epDrainToBufferLocked (answers : Nat → DrainAnswers) (maxevents : Nat) (m : Mem) :
    List EventRecord × Mem :=
  match m.port.drainNode with
  | none => ([], m)
  | some node => drainLoop answers maxevents node m.port.readyQueue [] m

/-! ## Dispatch -/

/-- `ep_port_dispatch_iocp_entry`. -/
def epPortDispatchIocpEntry (answers : CompletionAnswers) (packet : Packet) (m : Mem) : Mem :=
  match packet with
  | .control => m
  | .status a =>
    match m.socks a with
    | none => m
    | some s => m.put (epSockHandleCompletion answers (m.cell a s))

end WepollEx
