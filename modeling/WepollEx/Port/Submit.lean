import WepollEx.Port.Probes
import WepollEx.Exclusive.Decision

/-!
# Submission, cancellation and retirement of one registration

The functions of `wepoll_ex_port.c` that move one registration between its poll states under
`fd_table_lock`: queueing a local-shutdown snapshot, cancelling and retiring a pending poll,
dropping a closed handle, and `ep_sock_submit_locked` itself.
-/

namespace WepollEx

/-- `WaitForSingleObject(handle, 0)`. -/
inductive WaitAnswer
  | object0
  | timeout
  | failed (invalidHandle : Bool) (e : Errno)
  deriving DecidableEq, Repr

/-- `NtDeviceIoControlFile(IOCTL_AFD_POLL)`. -/
inductive AfdAnswer
  | pending
  | success (info : AfdInfo)
  | failed (e : Errno)
  deriving DecidableEq, Repr

/-- `NtCancelIoFileEx`. -/
inductive AfdCancelAnswer
  | cancelled | notFound
  | failed (e : Errno)
  deriving DecidableEq, Repr

/-- What the kernel and the process answer to one submission. -/
structure SubmitAnswers where
  identity : IdentityAnswers
  disarm : Option Errno
  /-- `ep_port_begin_close` ran while the submission was joining a callback. -/
  closeRaced : Bool
  post : Option Errno
  wait : WaitAnswer
  register : Option Errno
  pipe : PipeAnswers
  base : Except Errno Socket
  levels : LevelAnswers
  nodeAlloc : Option Errno
  /-- Claims that other exclusive registrations hold on the provider base. -/
  claims : List Classes
  afdGroup : Option Errno
  pollKey : Option Errno
  afd : AfdAnswer
  now : Nat

inductive SubmitResult
  | ok
  /-- The handle is gone and the registration was retired (the source returns 1). -/
  | retired (e : Errno)
  | failed (e : Errno)
  deriving DecidableEq, Repr

/-! ## Ready nodes -/

def deliveryFlags (s : EpSock) : BitVec 32 :=
  (if s.isET then WEPOLL_FLAG_ET_DELIVERED ||| WEPOLL_FLAG_EDGE_ARMED else 0) |||
  (if s.isOneshot then WEPOLL_FLAG_ONESHOT_FIRED else 0)

/-- The snapshot of a registration that a ready node carries. -/
def readyNodeFor (s : EpSock) (events : Events) (now : Nat) : ReadyNode where
  data := s.userData
  userCtx := s.userCtx
  fd := s.fd
  sockGeneration := s.generation
  events := events
  flags := deliveryFlags s
  timestamp := now

/-- Publish `events` for the registration: the last statements of both publishers. -/
def epReadyPublish (c : Cell) (events : Events) (now : Nat) : Cell :=
  { c with
    sock := { c.sock with
      pendingEvents := events
      etHoldoff := false
      readyQueued := true
      state := .ready }
    port := { c.port with
      readyQueue := c.port.readyQueue ++ [readyNodeFor c.sock events now] } }

/-- Outcome of `ep_sock_queue_local_shutdown_locked`: the source returns 1, 0 or -1. -/
inductive QueueResult
  | queued | nothing
  | failed (e : Errno)
  deriving DecidableEq, Repr

/-- Disarm the classes a delivery carries, where the port asks for explicit rearms. -/
def disarmDelivered (p : Port) (s : EpSock) (delivered : Events) : EpSock :=
  { s with explicitDisarmedClasses :=
      if epSockExplicitRearmEnabled p s then
        s.explicitDisarmedClasses ||| epExplicitDeliveryClasses delivered
      else s.explicitDisarmedClasses }

/-- The edge that `level` forms over the latch of an EPOLLET registration, and the latch after it. -/
def epEtEdge (s : EpSock) (level : Events) : Events × Events :=
  let kept := s.observedEvents &&& (level &&& (s.userEvents ||| EPOLLERR ||| EPOLLHUP))
  let edge := level &&& ~~~kept
  (edge, kept ||| edge)

/-- Publish a local shutdown; a registration that is ready already gets a new node, and its new
generation makes the old one stale. -/
def publishLocalShutdown (alreadyReady : Bool) (delivered : Events) (now : Nat) (c : Cell) : Cell :=
  let c := if alreadyReady then c.bumpGeneration else c
  let c := epSockSetNeedsRearmLocked c false
  let c := if c.sock.isOneshot then epSockSetOneshotFiredLocked c true else c
  let c := c.mapSock fun s => disarmDelivered c.port s delivered
  epReadyPublish c delivered now

/-- The part of `ep_sock_queue_local_shutdown_locked` after the level is known; `node` tells
whether the caller supplied a ready node. -/
def queueShutdownLevel (level : Events) (nodeAlloc : Option Errno) (claims : List Classes)
    (now : Nat) (node : Bool) (c : Cell) : QueueResult × Cell :=
  let alreadyReady := c.sock.readyQueued
  if !alreadyReady && c.sock.oneshotFired then (.nothing, c)
  else
    let (fresh, observed) :=
      if c.sock.isET then epEtEdge c.sock level else (level, c.sock.observedEvents)
    let delivered := if alreadyReady then c.sock.pendingEvents ||| fresh else fresh
    if delivered = 0 ∨ (alreadyReady ∧ delivered = c.sock.pendingEvents) then
      (.nothing, c.mapSock fun s => { s with observedEvents := observed })
    else
      match (if node then none else nodeAlloc) with
      | some e => (.failed (if e = 0 then ENOMEM else e), c)
      | none =>
        let c := c.mapSock fun s =>
          { s with observedEvents := if s.isET then observed else 0 }
        match (if c.sock.isExclusive then epExclusiveTryClaimMask claims delivered
            else some delivered) with
        | none =>
          (.nothing, epSockSetNeedsRearmLocked
            (c.mapSock fun s => { s with etHoldoff := true }) true)
        | some delivered => (.queued, publishLocalShutdown alreadyReady delivered now c)

def epSockQueueLocalShutdownLocked (levels : LevelAnswers) (nodeAlloc : Option Errno)
    (claims : List Classes) (now : Nat) (node : Bool) (c : Cell) : QueueResult × Cell :=
  let (level, c) := epSockLocalShutdownLevelLocked levels c
  queueShutdownLevel level nodeAlloc claims now node c

/-! ## Retiring a pending poll -/

/-- The error branch is the source's failed accounting assertion. -/
def epSockCompletePendingLocked (asyncPost : Option Errno) (c : Cell) : Bool × Cell :=
  if c.sock.pollStatus = .idle ∨ c.port.pendingPollCount = 0 then
    (false, { c with
      sock := { c.sock with pollStatus := .idle }
      port := epPortRecordAsyncErrorLocked { c.port with accountingViolated := true }
        asyncPost EIO })
  else
    (true, { c with
      sock := { c.sock with pollStatus := .idle }
      port := { c.port with pendingPollCount := c.port.pendingPollCount - 1 } })

/-- `ep_waitable_unregister_locked` and `ep_pipe_delete_timer_locked`: a blocking disarm that joins
a running callback. -/
def epAuxDisarmLocked (answer : Option Errno) (c : Cell) : Option Errno × Cell :=
  if !c.sock.waitRegistration then (none, c)
  else match answer with
    | some e => (some e, c)
    | none =>
      (none, { c with
        sock := { c.sock with waitRegistration := false }
        port := { c.port with waitArmed := Function.update c.port.waitArmed c.addr false } })

structure CancelAnswers where
  disarm : Option Errno
  afd : AfdCancelAnswer
  asyncPost : Option Errno

def epAfdCancel (answer : AfdCancelAnswer) (c : Cell) : Option Errno × Cell :=
  if c.sock.pollStatus ≠ .pending ∨ c.sock.ioStatus ≠ STATUS_PENDING then (none, c)
  else match answer with
    | .cancelled => (none, c.mapSock fun s => { s with pollStatus := .cancelled })
    | .notFound => (none, c)
    | .failed e => (some e, c)

def epSockCancelLocked (answers : CancelAnswers) (c : Cell) : Option Errno × Cell :=
  if c.sock.pollStatus ≠ .pending then (none, c)
  else if c.sock.isAux then
    match epAuxDisarmLocked answers.disarm c with
    | (some e, c) => (some e, c)
    | (none, c) =>
      let c := c.mapSock fun s => { s with pendingEvents := 0 }
      if c.sock.completionPosted then
        -- the queued packet still owns the status block and retires the poll later
        (none, c.mapSock fun s => { s with pollStatus := .cancelled })
      else match epSockCompletePendingLocked answers.asyncPost c with
        | (false, c) => (some EIO, c)
        | (true, c) =>
          if !c.sock.deletePending && !c.port.closing then
            (none, c.mapSock fun s => { s with state := .registered })
          else (none, c)
  else match epAfdCancel answers.afd c with
    | (some e, c) => (some e, c)
    | (none, c) => (none, c.mapSock fun s => { s with pendingEvents := 0 })

/-! ## Releasing storage -/

/-- Take the registration off every list and release its storage. -/
def epSockFreeLocked (c : Cell) : Cell :=
  let c := epSockSetNeedsRearmLocked c false
  let c := epSockSetOneshotFiredLocked c false
  { c with
    freed := true
    port := { c.port with
      sockList := c.port.sockList.remove c.addr
      freedCount := bumpAt c.port.freedCount c.sock.serial } }

/-- A registration without a pending poll is released at once; another one is released by the
completion of its poll. -/
def freeIfIdle (c : Cell) : Cell :=
  if c.sock.pollStatus = .idle then epSockFreeLocked c else c

/-- Remove the registration from the table if the table still names it. -/
def epFdTableForget (c : Cell) : Cell :=
  if c.port.fdTable c.sock.fd = some c.addr then
    c.mapPort fun p => { p with fdTable := Function.update p.fdTable c.sock.fd none }
  else c

def epSockDropClosedLocked (c : Cell) : Cell :=
  let c := epFdTableForget c
  let c := c.mapSock fun s => { s with deletePending := true, state := .deleted }
  let c := epSockSetNeedsRearmLocked c false
  let c := epSockSetOneshotFiredLocked c false
  freeIfIdle c.bumpGeneration

def epSockRetireStaleLocked (answers : CancelAnswers) (c : Cell) : Cell :=
  let c := if c.sock.pollStatus = .pending then (epSockCancelLocked answers c).2 else c
  let c := c.mapPort fun p =>
    { p with generation := p.generation + 1, staleEventsDropped := p.staleEventsDropped + 1 }
  epSockDropClosedLocked c

/-! ## Submission -/

/-- `poll_status = PENDING`, `state = POLLING` and `pending_poll_count++`. -/
def Cell.setPolling (c : Cell) : Cell :=
  { c with
    sock := { c.sock with pollStatus := .pending, state := .polling }
    port := { c.port with pendingPollCount := c.port.pendingPollCount + 1 } }

/-- Post the registration's own status block; a failed post closes the port. -/
def epAuxPostCompletion (answer : Option Errno) (status : NtStatus) (c : Cell) :
    Option Errno × Cell :=
  let c := c.mapSock fun s => { s with ioStatus := status }
  match epPortPostIocp c.port answer (.status c.addr) with
  | (none, p) =>
    (none, { c with sock := { c.sock with completionPosted := true }, port := p })
  | (some e, p) =>
    (some e, { c with
      sock := { c.sock with completionPosted := false }
      port := epPortFailIocpPost p e })

/-- `ep_waitable_register_locked` and the timer branch of `ep_pipe_schedule_locked`. -/
def epAuxArmLocked (answer : Option Errno) (c : Cell) : Option Errno × Cell :=
  if c.sock.waitRegistration then (none, c)
  else match answer with
    | some e => (some e, c)
    | none =>
      (none, { c with
        sock := { c.sock with waitRegistration := true }
        port := { c.port with waitArmed := Function.update c.port.waitArmed c.addr true } })

/-- The provider base a submission polls, re-traversed unless the cached one is still proven. -/
def epAfdPollBase (base : Except Errno Socket) (c : Cell) : Option Errno × Cell :=
  if c.port.lifetime = .synchronized then
    (if c.sock.baseSocket = INVALID_SOCKET then some ENOTSOCK else none, c)
  else if c.sock.baseSocketCached ∧ c.sock.endpointIdState ≠ .unavailable ∧
      c.sock.baseSocketIdentity = c.sock.endpointId ∧ c.sock.baseSocket ≠ INVALID_SOCKET then
    (none, c)
  else match base with
    | .error e =>
      (some e, c.mapSock fun s =>
        { s with baseSocket := INVALID_SOCKET, baseSocketCached := false })
    | .ok b =>
      if c.sock.endpointIdState ≠ .unavailable then
        (none, c.mapSock fun s =>
          { s with baseSocket := b, baseSocketIdentity := s.endpointId, baseSocketCached := true })
      else (none, c.mapSock fun s => { s with baseSocket := b, baseSocketCached := false })

/-- `ep_afd_poll_submit`: `true` when the request is pending, `false` when it was satisfied at
once.  A pending request stays in flight until the kernel completes it. -/
def epAfdPollSubmit (answers : SubmitAnswers) (afdEvents : AfdEvents) (c : Cell) :
    Except Errno Bool × Cell :=
  match epAfdPollBase answers.base c with
  | (some e, c) => (.error e, c)
  | (none, c) =>
    let c := c.mapSock fun s => { s with afdInfo := ⟨1, afdEvents, 0⟩ }
    match answers.pollKey with
    | some e => (.error e, c)
    | none =>
      let c := c.mapSock fun s => { s with ioStatus := STATUS_PENDING }
      match answers.afd with
      | .failed e => (.error e, c)
      | .success info =>
        (.ok false, c.mapSock fun s =>
          { s with submittedAfdEvents := afdEvents, ioStatus := STATUS_SUCCESS, afdInfo := info })
      | .pending =>
        (.ok true, { c with
          sock := { c.sock with
            submittedAfdEvents := afdEvents
            pollStatus := .pending
            observedEvents := if c.sock.isET then 0 else c.sock.observedEvents }
          port := { c.port with
            afdInFlight := Function.update c.port.afdInFlight c.addr true } })

/-- Whatever was armed for the registration, it is polled from now on. -/
def settlePolling : Option Errno × Cell → SubmitResult × Cell
  | (some e, c) => (.failed e, c)
  | (none, c) => (.ok, (epSockSetNeedsRearmLocked c false).setPolling)

/-- The waitable branch of `ep_sock_submit_locked`. -/
def submitWaitable (answers : SubmitAnswers) (c : Cell) : SubmitResult × Cell :=
  if c.sock.oneshotFired then (.ok, c)
  else if !c.sock.needsRearm then (.ok, c)
  else
    let c := c.mapSock fun s => { s with etHoldoff := false }
    if c.sock.waitableNotificationOwned then
      -- replay the owned notification before the object is touched again
      settlePolling (epAuxPostCompletion answers.post STATUS_SUCCESS c)
    else
      match answers.wait with
      | .failed invalidHandle e =>
        if invalidHandle then (.retired EBADF, epSockDropClosedLocked c) else (.failed e, c)
      | .timeout =>
        let c := c.mapSock fun s =>
          { s with observedEvents := if s.isET then 0 else s.observedEvents }
        settlePolling (epAuxArmLocked answers.register c)
      | .object0 =>
        let c := if epWaitableMayConsume c.sock then c.takeNotification else c
        settlePolling (epAuxPostCompletion answers.post STATUS_SUCCESS c)

/-- `ep_pipe_schedule_locked`. -/
def epPipeScheduleLocked (answers : SubmitAnswers) (level : Events) (c : Cell) :
    Option Errno × Cell :=
  if c.sock.waitRegistration then (none, c)
  else if level ≠ 0 then epAuxPostCompletion answers.post STATUS_SUCCESS c
  else epAuxArmLocked answers.register c

/-- The pipe branch of `ep_sock_submit_locked`. -/
def submitPipe (answers : SubmitAnswers) (c : Cell) : SubmitResult × Cell :=
  let snapshot := epPipeSnapshot answers.pipe c.sock
  if snapshot.localClosed then (.retired EBADF, epSockDropClosedLocked c)
  else if c.sock.oneshotFired then (.ok, c)
  else if !c.sock.needsRearm then (.ok, c)
  else
    let c := c.mapSock fun s => { s with etHoldoff := false }
    let c :=
      if snapshot.valid ∧ snapshot.events = 0 ∧ c.sock.isET then
        c.mapSock fun s => { s with observedEvents := 0, pipeTerminalDelivered := false }
      else c
    settlePolling (epPipeScheduleLocked answers snapshot.events c)

/-- The AFD part of the socket branch, after the interest mask is known to be nonzero.  The Boolean
tells that the caller asked for an immediate snapshot and got one. -/
def submitAfd (answers : SubmitAnswers) (wantImmediate : Bool) (afdEvents : AfdEvents) (c : Cell) :
    SubmitResult × Bool × Cell :=
  match answers.afdGroup with
  | some e => (.failed e, false, c)
  | none =>
    let oldEpoch := c.sock.submittedWaitEpoch
    let c := c.mapSock fun s => { s with submittedWaitEpoch := c.port.activeWaitEpoch }
    match epAfdPollSubmit answers afdEvents c with
    | (.error e, c) =>
      let c := c.mapSock fun s => { s with submittedWaitEpoch := oldEpoch }
      if isClosedErrno e then (.retired ENOTSOCK, false, epSockDropClosedLocked c)
      else (.failed e, false, c)
    | (.ok true, c) =>
      let c := epSockSetNeedsRearmLocked c false
      (.ok, false, { c with
        sock := { c.sock with state := .polling }
        port := { c.port with pendingPollCount := c.port.pendingPollCount + 1 } })
    | (.ok false, c) =>
      if wantImmediate then
        let c := epSockSetNeedsRearmLocked c false
        (.ok, true, c.mapSock fun s => { s with state := .registered })
      else if c.sock.submittedWaitEpoch = 0 then
        -- nobody is waiting: discard the snapshot and poll again in the next wait
        (.ok, false, c.mapSock fun s => { s with state := .registered })
      else
        let c := (epSockSetNeedsRearmLocked c false).setPolling
        match epPortPostIocp c.port answers.post (.status c.addr) with
        | (none, p) => (.ok, false, { c with port := p })
        | (some e, p) =>
          let c := { c with
            sock := { c.sock with pollStatus := .idle, state := .registered }
            port := { p with pendingPollCount := p.pendingPollCount - 1 } }
          let c := epSockSetNeedsRearmLocked c true
          (.failed e, false, c.mapPort fun p => epPortFailIocpPost p e)

/-- The socket branch of `ep_sock_submit_locked`. -/
def submitSocket (answers : SubmitAnswers) (wantImmediate : Bool) (c : Cell) :
    SubmitResult × Bool × Cell :=
  if c.sock.oneshotFired then
    -- no request remains after a oneshot delivery: only probe for a native close
    match answers.base with
    | .error e =>
      if isClosedErrno e then (.retired ENOTSOCK, false, epSockDropClosedLocked c)
      else (.failed e, false, c)
    | .ok base => (.ok, false, c.mapSock fun s => { s with baseSocket := base })
  else if !c.sock.needsRearm then (.ok, false, c)
  else
    let c := c.mapSock fun s => { s with etHoldoff := false }
    let afterShutdown : QueueResult × Cell :=
      if c.sock.localShutdown ≠ .none then
        epSockQueueLocalShutdownLocked answers.levels answers.nodeAlloc answers.claims answers.now
          false c
      else (.nothing, c)
    match afterShutdown with
    | (.failed e, c) => (.failed e, false, c)
    | (.queued, c) => (.ok, false, c)
    | (.nothing, c) =>
      let afdEvents := epSockAfdEventsLocked c.port c.sock c.sock.userEvents
      if afdEvents = 0 then
        let c := epSockSetNeedsRearmLocked c false
        (.ok, false, c.mapSock fun s => { s with state := .registered })
      else submitAfd answers wantImmediate afdEvents c

/-- The rest of `ep_sock_submit_locked` once the registration is idle and not held off. -/
def submitIdle (answers : SubmitAnswers) (wantImmediate : Bool) (c : Cell) :
    SubmitResult × Bool × Cell :=
  match c.sock.kind with
  | .waitable => let (r, c) := submitWaitable answers c; (r, false, c)
  | .pipe => let (r, c) := submitPipe answers c; (r, false, c)
  | .socket => submitSocket answers wantImmediate c

/-- The identity check in front of a submission whose caller has not made it. -/
def submitChecked (answers : SubmitAnswers) (identityValidated wantImmediate : Bool) (c : Cell) :
    SubmitResult × Bool × Cell :=
  if c.port.lifetime = .synchronized ∨ identityValidated then submitIdle answers wantImmediate c
  else match epSockValidateIdentityForDeliveryLocked answers.identity c with
    | (.error, e, c) => (.failed e, false, c)
    | (.stale, _, c) => (.retired ENOENT, false, epSockDropClosedLocked c)
    | (.closed, _, c) => (.retired ENOTSOCK, false, epSockDropClosedLocked c)
    | (.matching, _, c) => submitIdle answers wantImmediate c

def SubmitAnswers.cancel (answers : SubmitAnswers) : CancelAnswers :=
  ⟨answers.disarm, .notFound, none⟩

def epSockSubmitLocked (answers : SubmitAnswers) (identityValidated wantImmediate : Bool)
    (c : Cell) : SubmitResult × Bool × Cell :=
  if c.port.closing || c.sock.deletePending || c.sock.readyQueued then (.ok, false, c)
  else if epWaitableIsDormant c.sock then
    let settle (c : Cell) : SubmitResult × Bool × Cell :=
      let c := epSockSetNeedsRearmLocked c false
      let c := c.mapSock fun s => { s with etHoldoff := false }
      if c.sock.pollStatus = .idle then
        (.ok, false, c.mapSock fun s => { s with state := .registered })
      else (.ok, false, c)
    if c.sock.pollStatus = .pending then
      match epSockCancelLocked answers.cancel c with
      | (some e, c) => (.failed e, false, c)
      | (none, c) => settle c
    else settle c
  else if c.sock.isAux && c.sock.pollStatus = .pending && c.sock.needsRearm then
    match epSockCancelLocked answers.cancel c with
    | (some e, c) => (.failed e, false, epSockDropClosedLocked c)
    | (none, c) =>
      if c.sock.pollStatus ≠ .idle then (.ok, false, c)
      else if c.port.closing || answers.closeRaced then (.ok, false, c)
      else if c.sock.etHoldoff then (.ok, false, c)
      else submitChecked answers identityValidated wantImmediate c
  else if c.sock.pollStatus ≠ .idle then (.ok, false, c)
  else if c.sock.etHoldoff then (.ok, false, c)
  else submitChecked answers identityValidated wantImmediate c

end WepollEx
