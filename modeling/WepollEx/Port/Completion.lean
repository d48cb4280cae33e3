import WepollEx.Port.Submit

/-!
# Completion of one packet

`ep_sock_handle_completion`: retire the pending poll a packet stands for, then either discard,
refresh or publish the snapshot it carries.
-/

namespace WepollEx

/-- Answers to one pass over `process_socket_snapshot`. -/
structure PassAnswers where
  identity : IdentityAnswers
  refresh : SubmitAnswers
  udp : UdpAnswers
  wait : WaitAnswer
  pipe : PipeAnswers
  levels : LevelAnswers
  /-- `ep_socket_select_ready` of the ET/EXCLUSIVE qualification; `none` is an error. -/
  readReady : Option Bool
  writeReady : Option Bool
  nodeAlloc : Option Errno
  claims : List Classes
  resubmit : SubmitAnswers
  now : Nat

structure CompletionAnswers where
  disarm : Option Errno
  cancel : CancelAnswers
  /-- The post of a latched asynchronous error. -/
  asyncPost : Option Errno
  resubmit : SubmitAnswers
  pass : Nat → PassAnswers

/-- `ep_sock_set_needs_rearm_locked(sock, 1)` and a latched error. -/
def rearmWithError (asyncPost : Option Errno) (e : Errno) (c : Cell) : Cell :=
  (epSockSetNeedsRearmLocked c true).mapPort fun p => epPortRecordAsyncErrorLocked p asyncPost e

/-- Submit again from a completion; a failure is latched and retried by the next wait. -/
def resubmitOrDefer (asyncPost : Option Errno) (answers : SubmitAnswers) (c : Cell) : Cell :=
  match epSockSubmitLocked answers false false c with
  | (.failed e, _, c) => rearmWithError asyncPost e c
  | (_, _, c) => c

/-! ## Sampling the snapshot -/

/-- A step of the completion either returns to the dispatcher or goes on. -/
inductive Flow (α : Type)
  | done (c : Cell)
  | next (v : α) (c : Cell)

/-- The close and identity checks at `process_socket_snapshot`. -/
def checkSocketSnapshot (asyncPost : Option Errno) (answers : IdentityAnswers) (status : NtStatus)
    (c : Cell) : Flow Unit :=
  if c.sock.kind = .socket ∧ status ≥ 0 ∧ c.sock.afdInfo.numberOfHandles > 0 then
    if c.sock.afdInfo.events &&& AFD_POLL_LOCAL_CLOSE ≠ 0 then .done (epSockDropClosedLocked c)
    else if c.port.lifetime ≠ .synchronized ∧ c.sock.endpointIdState = .transitional then
      match epSockValidateIdentityLocked answers true c with
      | (.stale, _, c) => .done (epSockDropClosedLocked c)
      | (.closed, _, c) => .done (epSockDropClosedLocked c)
      | (.error, e, c) =>
        if c.port.lifetime = .strict then
          .done (rearmWithError asyncPost e (c.mapSock fun s => { s with state := .registered }))
        else .next () c
      | (.matching, _, c) => .next () c
    else .next () c
  else .next () c

/-- The packet is from an older wait, or its mask no longer covers the interest. -/
def needsRefresh (status : NtStatus) (c : Cell) : Bool :=
  c.sock.kind = .socket && status ≥ 0 &&
    ((c.port.activeWaitEpoch ≠ 0 && c.sock.submittedWaitEpoch ≠ c.port.activeWaitEpoch) ||
      epSockAfdEventsLocked c.port c.sock c.sock.userEvents &&& ~~~c.sock.submittedAfdEvents ≠ 0)

/-- What one sample of the target yields. -/
structure Sample where
  delivered : Events
  /-- An unread datagram parked the hidden receive interest in this pass. -/
  udpReceiveParkedNow : Bool
  pipeSnapshot : PipeSnapshot

/-- The UDP qualification of a receive report. -/
def sampleAfd (asyncPost : Option Errno) (answers : PassAnswers) (c : Cell) : Flow Sample :=
  let afdEvents := c.sock.afdInfo.events
  let translate (afdEvents : AfdEvents) (parked error : Bool) (c : Cell) : Flow Sample :=
    let delivered :=
      epAfdToEpollEvents afdEvents c.sock.afdInfo.status c.sock.socketProtocol
    let delivered := if error then (delivered ||| EPOLLERR) &&& ~~~EPOLLHUP else delivered
    .next ⟨delivered, parked, .blank⟩ c
  if afdEvents &&& AFD_POLL_RECEIVE ≠ 0 ∧ c.sock.afdInfo.status ≥ 0 ∧
      c.sock.socketProtocol = .udp then
    let readless : Bool := c.sock.userEvents &&& (EPOLLIN ||| EPOLLRDNORM) = 0
    match epUdpProbeReadLocked answers.udp c with
    | (.closed, _, c) => .done (epSockDropClosedLocked c)
    | (.identityError, e, c) =>
      .done (rearmWithError asyncPost (orEio e) (c.mapSock fun s => { s with state := .registered }))
    | (probe, _, c) =>
      let unread := readless && (probe = .ready || probe = .unavailable)
      let afdEvents :=
        if probe = .notReady || probe = .error || unread then afdEvents &&& ~~~AFD_POLL_RECEIVE
        else afdEvents
      let c := if readless then
        c.mapSock fun s => { s with udpReadlessReceiveParked := unread } else c
      translate afdEvents unread (probe = .error) c
  else translate afdEvents false false c

def sampleTarget (asyncPost : Option Errno) (answers : PassAnswers) (status : NtStatus)
    (c : Cell) : Flow Sample :=
  match c.sock.kind with
  | .socket =>
    if status ≥ 0 ∧ c.sock.afdInfo.numberOfHandles > 0 then sampleAfd asyncPost answers c
    else .next ⟨if status < 0 then EPOLLERR else 0, false, .blank⟩ c
  | .waitable =>
    let delivered :=
      if status ≥ 0 ∧ (c.sock.waitableSemantics = .persistent ∨
          c.sock.waitableSemantics = .terminal) then
        match answers.wait with
        | .object0 => epWaitableLevelEvents c.sock
        | .failed _ _ => EPOLLERR ||| EPOLLHUP
        | .timeout => 0
      else if status ≥ 0 then epWaitableLevelEvents c.sock
      else EPOLLERR ||| EPOLLHUP
    .next ⟨delivered, false, .blank⟩ c
  | .pipe =>
    let snapshot := epPipeSnapshot answers.pipe c.sock
    if snapshot.localClosed then .done (epSockDropClosedLocked c)
    else .next ⟨snapshot.events, false, snapshot⟩ c

/-- Drop the classes that an explicit rearm has not acknowledged. -/
def filterDisarmed (p : Port) (s : EpSock) (delivered : Events) : Events :=
  if epSockExplicitRearmEnabled p s then
    epReadinessFilterClasses delivered s.explicitDisarmedClasses
  else delivered

/-- Withdraw read and write readiness that the socket no longer has, before an edge or a claim is
formed from it. -/
def qualifyReadiness (answers : PassAnswers) (s : EpSock) (revents : Option Revents)
    (delivered : Events) : Events :=
  if s.kind = .socket ∧ (s.isET ∨ s.isExclusive) then
    let sampleAll := s.isExclusive
    let readReady : Option Bool :=
      if sampleAll ∨ delivered &&& (EPOLLIN ||| EPOLLRDNORM ||| EPOLLRDHUP) ≠ 0 then
        (match revents with | some r => some r.rdnorm | none => answers.readReady)
      else none
    let writeReady : Option Bool :=
      if sampleAll ∨ delivered &&& (EPOLLOUT ||| EPOLLWRNORM) ≠ 0 then
        (match revents with | some r => some r.wrnorm | none => answers.writeReady)
      else none
    let delivered :=
      if readReady = some false then delivered &&& ~~~(EPOLLIN ||| EPOLLRDNORM ||| EPOLLRDHUP)
      else delivered
    if writeReady = some false then delivered &&& ~~~(EPOLLOUT ||| EPOLLWRNORM) else delivered
  else delivered

/-- Merge a local shutdown into the mask. -/
def mergeShutdown (p : Port) (s : EpSock) (delivered : Events) : Events :=
  if s.kind = .socket ∧ s.localShutdown ≠ .none then
    filterDisarmed p s (epSockMergeLocalShutdownLocked s delivered)
  else delivered

/-- The mask a completion would deliver before the edge latch: current levels, class filters and
local shutdown merged in, restricted to the interest. -/
def qualifyDelivered (answers : PassAnswers) (delivered : Events) (c : Cell) : Events × Cell :=
  let (revents, delivered, c) :=
    if c.sock.kind = .socket then epSocketMergeCurrentLevels answers.levels c delivered
    else (none, delivered, c)
  let delivered := filterDisarmed c.port c.sock delivered
  let delivered := qualifyReadiness answers c.sock revents delivered
  let delivered := mergeShutdown c.port c.sock delivered
  (delivered &&& (c.sock.userEvents ||| EPOLLERR ||| EPOLLHUP), c)

/-- The edge latch: the part of `level` to deliver, and the registration with its latch moved. -/
def latchDelivered (snapshot : PipeSnapshot) (level : Events) (s : EpSock) : Events × EpSock :=
  if s.isET then
    if s.kind = .pipe then epPipeEtEvents s snapshot
    else
      let (edge, observed) := epEtEdge s level
      (edge, { s with observedEvents := observed })
  else (level, { s with observedEvents := 0, etHoldoff := false })

/-! ## Settling the snapshot -/

/-- Nothing new to deliver: rearm, hold off, or finish a terminal pipe. -/
def settleEmpty (asyncPost : Option Errno) (answers : PassAnswers) (sample : Sample) (c : Cell) :
    Cell :=
  if sample.udpReceiveParkedNow then
    let c := c.mapSock fun s => { s with etHoldoff := false }
    resubmitOrDefer asyncPost answers.resubmit (epSockSetNeedsRearmLocked c true)
  else if c.sock.kind = .pipe ∧ c.sock.isET ∧ sample.pipeSnapshot.valid ∧
      c.sock.pipeTerminalDelivered ∧
      epPipeEtSnapshotIsFinal c.sock sample.pipeSnapshot.events sample.pipeSnapshot then
    let c := c.mapSock fun s => { s with etHoldoff := false }
    let c := epSockSetNeedsRearmLocked c false
    c.mapSock fun s => { s with state := .registered }
  else
    let c := c.mapSock fun s => { s with etHoldoff := s.isET }
    let c := epSockSetNeedsRearmLocked c true
    if !c.sock.isET then resubmitOrDefer asyncPost answers.resubmit c else c

/-- Queue a ready node for the claimed mask; the node then owns a consumed notification. -/
def publishClaimed (delivered : Events) (now : Nat) (c : Cell) : Cell :=
  let c := c.mapSock fun s => disarmDelivered c.port s delivered
  let c := epReadyPublish c delivered now
  if epWaitableMayConsume c.sock then
    c.mapSock fun s => { s with waitableNotificationOwned := false }
  else c

/-- Deliver `delivered`, or give the edge back when there is no node for it. -/
def publishDelivered (asyncPost : Option Errno) (answers : PassAnswers)
    (oldObservedEvents : Events) (delivered : Events) (c : Cell) : Cell :=
  match answers.nodeAlloc with
  | some e =>
    -- no node owns the edge: give the latch back so that a retry reports the same level
    let c := c.mapSock fun s =>
      { s with observedEvents := if s.isET then oldObservedEvents else s.observedEvents }
    rearmWithError asyncPost (if e = 0 then ENOMEM else e) c
  | none =>
    let c := if c.sock.isOneshot then epSockSetOneshotFiredLocked c true else c
    match (if c.sock.isExclusive then epExclusiveTryClaimMask answers.claims delivered
        else some delivered) with
    | none =>
      epSockSetNeedsRearmLocked (c.mapSock fun s => { s with etHoldoff := true }) true
    | some delivered => publishClaimed delivered answers.now c

def deliverSnapshot (asyncPost : Option Errno) (answers : PassAnswers) (status : NtStatus)
    (c : Cell) : Cell :=
  match sampleTarget asyncPost answers status c with
  | .done c => c
  | .next sample c =>
    let (level, c) := qualifyDelivered answers sample.delivered c
    let old := c.sock.observedEvents
    let (delivered, s) := latchDelivered sample.pipeSnapshot level c.sock
    let c := { c with sock := s }
    if delivered = 0 then settleEmpty asyncPost answers sample c
    else publishDelivered asyncPost answers old delivered c

/-- The code from `process_socket_snapshot` on.  A refresh that is satisfied at once runs it again
for the new snapshot; `fuel` bounds the number of passes. -/
def processSnapshot (asyncPost : Option Errno) (answers : Nat → PassAnswers) (status : NtStatus) :
    Nat → Nat → Cell → Cell
  | 0, _, c => c
  | fuel + 1, i, c =>
    match checkSocketSnapshot asyncPost (answers i).identity status c with
    | .done c => c
    | .next () c =>
      if needsRefresh status c then
        let c := c.mapSock fun s => { s with state := .registered }
        let c := epSockSetNeedsRearmLocked c true
        match epSockSubmitLocked (answers i).refresh false true c with
        | (.failed e, _, c) => rearmWithError asyncPost e c
        | (.ok, true, c) => processSnapshot asyncPost answers status fuel (i + 1) c
        | (_, _, c) => c
      else deliverSnapshot asyncPost (answers i) status c

/-! ## The completion -/

/-- A disarm failed after the packet was consumed: the pending slot stays pinned. -/
def completionDisarmFailed (answers : CompletionAnswers) (e : Errno) (c : Cell) : Cell :=
  let c := c.mapSock fun s => { s with completionPosted := false }
  let c := c.mapPort fun p => epPortRecordAsyncErrorLocked p answers.asyncPost e
  if c.sock.deletePending || c.port.closing then
    match epSockCancelLocked answers.cancel c with
    | (none, c) =>
      if c.sock.pollStatus = .idle ∧ c.sock.deletePending then epSockFreeLocked c else c
    | (some _, c) => c
  else epSockSetNeedsRearmLocked c true

/-- The completion once the pending poll has been retired. -/
def completeRetired (answers : CompletionAnswers) (oldPollStatus : PollStatus) (status : NtStatus)
    (c : Cell) : Cell :=
  if c.sock.deletePending then epSockFreeLocked c
  else if c.port.closing then c.mapSock fun s => { s with state := .registered }
  else if oldPollStatus = .cancelled ∨ status = STATUS_CANCELLED then
    resubmitOrDefer answers.asyncPost answers.resubmit c
  else if epWaitableIsDormant c.sock then
    let c := epSockSetNeedsRearmLocked c false
    c.mapSock fun s => { s with etHoldoff := false, state := .registered }
  else processSnapshot answers.asyncPost answers.pass status 2 0 c

def epSockHandleCompletion (answers : CompletionAnswers) (c : Cell) : Cell :=
  let status := c.sock.ioStatus
  let old := c.sock.pollStatus
  if old = .idle then c
  else
    let c :=
      if old = .pending ∧ status ≥ 0 ∧ epWaitableMayConsume c.sock then
        c.mapSock fun s => { s with waitableNotificationOwned := true }
      else c
    let disarmed : Option Errno × Cell :=
      if c.sock.isAux then epAuxDisarmLocked answers.disarm c else (none, c)
    match disarmed with
    | (some e, c) => completionDisarmFailed answers e c
    | (none, c) =>
      let c :=
        if c.sock.isAux then c.mapSock fun s => { s with completionPosted := false } else c
      match epSockCompletePendingLocked answers.asyncPost c with
      | (false, c) => if c.sock.deletePending then epSockFreeLocked c else c
      | (true, c) => completeRetired answers old status c

end WepollEx
