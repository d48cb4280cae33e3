import WepollEx.Port.Completion

/-!
# Control operations

`ep_port_register`, `ep_port_modify`, `ep_port_unregister`, `ep_port_shutdown_socket`,
`ep_port_rearm_classes` and `ep_port_rearm`: the part of each that runs under `fd_table_lock`.
A result `ok wake` tells whether the caller still has to post a packet for a blocked waiter.
-/

namespace WepollEx

inductive CtlResult
  | ok (wake : Bool)
  | fail (e : Errno)
  deriving DecidableEq, Repr

/-- `ep_target_info_t`. -/
inductive TargetKind
  | invalid | unsupported
  | socket (base : Socket)
  | pipe (access : PipeAccess) (synchronousIo : Bool)
  | waitable (semantics : WaitableSemantics)
  deriving DecidableEq, Repr

structure TargetInfo where
  kind : TargetKind
  registrationError : Errno
  deriving DecidableEq, Repr

/-- `ep_target_probe`. -/
abbrev TargetAnswer := Except Errno TargetInfo

/-- Answers to a control operation on a registered handle. -/
structure ControlAnswers where
  identity : IdentityAnswers
  target : TargetAnswer
  cancel : CancelAnswers
  nodeAlloc : Option Errno
  /-- `shutdown()`. -/
  shutdown : Option Errno
  submit : SubmitAnswers
  now : Nat

def epTargetFailAbsent (target : TargetAnswer) : Errno :=
  match target with
  | .error e => e
  | .ok info =>
    match info.kind with
    | .invalid => EBADF
    | .unsupported => EPERM
    | _ => ENOENT

inductive ControlCheck
  | live
  /-- A stale or closed entry was retired (the source returns 1). -/
  | retired (e : Errno)
  | failed (e : Errno)
  deriving DecidableEq, Repr

def epSockValidateControlLocked (answers : ControlAnswers) (c : Cell) : ControlCheck × Cell :=
  if c.sock.isAux ∨ c.port.lifetime = .synchronized then (.live, c)
  else match epSockValidateIdentityLocked answers.identity false c with
    | (.matching, _, c) => (.live, c)
    | (.error, e, c) => (.failed e, c)
    | (.stale, _, c) => (.retired ENOENT, epSockRetireStaleLocked answers.cancel c)
    | (.closed, _, c) =>
      let c := epSockRetireStaleLocked answers.cancel c
      match answers.target with
      | .error e => (.failed (orEio e), c)
      | .ok _ => (.retired (epTargetFailAbsent answers.target), c)

/-- A waiter is blocked or polling and has not started to collect a large batch. -/
def Port.waiterTakesWork (p : Port) : Bool := p.waiterActive && !p.waiterCoalescing

/-! ## MOD -/

/-- Cancel the pending poll; what it covered no longer matters. -/
def cancelCovering (answers : CancelAnswers) (c : Cell) : Except Errno Bool × Cell :=
  match epSockCancelLocked answers c with
  | (some e, c) => (.error e, c)
  | (none, c) => (.ok false, c)

/-- What a MOD does with a poll that is still pending: keep it when it covers the new interest,
and cancel it otherwise. -/
def modifyPendingPoll (answers : ControlAnswers) (events : Events) (c : Cell) :
    Except Errno Bool × Cell :=
  if c.sock.pollStatus ≠ .pending then (.ok false, c)
  else
    let cancel := cancelCovering answers.cancel c
    if c.sock.kind = .waitable ∧ epWaitableInterestEvents events = 0 then cancel
    else if c.sock.isAux then (.ok true, c)
    else if c.sock.localShutdown ≠ .none then cancel
    else if epSockAfdEventsForStateLocked c.port c.sock events false 0 &&&
        ~~~c.sock.submittedAfdEvents = 0 then (.ok true, c)
    else cancel

/-- The queued node of a consumed notification that a MOD must not lose. -/
def holdsQueuedNotification (s : EpSock) : Bool :=
  s.readyQueued && epWaitableMayConsume s && s.pendingEvents &&& ~~~(EPOLLERR ||| EPOLLHUP) ≠ 0

/-- The new registration fields and flags of a MOD, before any submission. -/
def modifyApply (events flags : Events) (data : BitVec 64) (ctx : Nat) (covers : Bool)
    (now : Nat) (c : Cell) : Cell :=
  let interest := if c.sock.kind = .waitable then epWaitableInterestEvents events else 0
  let dormant := c.sock.kind = .waitable && interest = 0
  let preserve := holdsQueuedNotification c.sock && interest ≠ 0
  let transfer := holdsQueuedNotification c.sock && interest = 0
  let c := c.mapSock fun s => { s with
    userEvents := events
    userFlags := flags
    userData := data
    userCtx := ctx
    pendingEvents := if preserve then interest else 0
    observedEvents := 0
    explicitDisarmedClasses := 0
    pipeTerminalDelivered := false
    etHoldoff := false
    udpReadlessReceiveParked := false }
  let c := epSockSetOneshotFiredLocked c false
  let c := c.mapSock fun s =>
    { s with waitableNotificationOwned := s.waitableNotificationOwned || transfer }
  let c :=
    if dormant || preserve then epSockSetNeedsRearmLocked c false
    else if !covers then epSockSetNeedsRearmLocked c true
    else c
  let c := c.mapSock fun s => { s with readyQueued := preserve }
  let c := c.bumpGeneration
  let c := c.record (.modified c.sock.serial events data ctx)
  if preserve then
    let c := c.mapSock fun s =>
      { s with observedEvents := if s.isET then interest else s.observedEvents }
    let c := if c.sock.isOneshot then epSockSetOneshotFiredLocked c true else c
    let c := c.mapSock fun s => { s with state := .ready }
    c.mapPort fun p => { p with readyQueue := p.readyQueue ++ [readyNodeFor c.sock interest now] }
  else if dormant then c.mapSock fun s => { s with state := .registered }
  else c

/-- Ghost: a call that is rolled back is struck from the history. -/
def Cell.unrecord (old c : Cell) : Cell :=
  c.mapPort fun p => { p with history := old.port.history }

/-- Give a registration back what a failed MOD found. -/
def modifyRollback (before c : Cell) : Cell :=
  let old := before.sock
  let c := before.unrecord c
  let c := c.mapSock fun s => { s with
    userEvents := old.userEvents
    userFlags := old.userFlags
    userData := old.userData
    userCtx := old.userCtx
    pendingEvents := old.pendingEvents
    observedEvents := old.observedEvents
    explicitDisarmedClasses := old.explicitDisarmedClasses }
  let c := epSockRestoreWorklistStateLocked c old.needsRearm old.oneshotFired
  c.mapSock fun s => { s with
    pipeTerminalDelivered := old.pipeTerminalDelivered
    etHoldoff := old.etHoldoff
    udpReadlessReceiveParked := old.udpReadlessReceiveParked
    waitableNotificationOwned := old.waitableNotificationOwned
    baseSocket := old.baseSocket
    endpointId := old.endpointId
    endpointIdState := old.endpointIdState
    generation := old.generation
    readyQueued := old.readyQueued
    state := old.state }

/-- `port->generation++`. -/
def countChange (c : Cell) : Cell := c.mapPort fun p => { p with generation := p.generation + 1 }

/-- A locally shut down registration was made ready, so a blocked waiter must be told. -/
def wakeReadyWaiter (s : EpSock) : Bool := s.localShutdown ≠ .none && s.readyQueued

def modifySubmit (answers : ControlAnswers) (before c : Cell) : CtlResult × Cell :=
  if !epWaitableIsDormant c.sock && c.sock.pollStatus = .idle && c.port.waiterTakesWork then
    match epSockSubmitLocked answers.submit true false c with
    | (.retired e, _, c) => (.fail e, c)
    | (.failed e, _, c) => (.fail e, modifyRollback before c)
    | (.ok, _, c) => (.ok (wakeReadyWaiter c.sock), countChange c)
  else (.ok false, countChange c)

/-- `ep_port_modify` on the registration it has found and validated. -/
def modifyLocked (answers : ControlAnswers) (events flags : Events) (data : BitVec 64) (ctx : Nat)
    (c : Cell) : CtlResult × Cell :=
  if c.sock.isExclusive then (.fail EINVAL, c)
  else if c.sock.kind = .waitable ∧ flags &&& EPOLLET ≠ 0 ∧
      epWaitableInterestEvents events ≠ 0 ∧ c.sock.waitableSemantics = .etUnsupported then
    (.fail EINVAL, c)
  else if c.port.explicitRearm ∧ flags &&& EPOLLET ≠ 0 ∧ c.sock.kind ≠ .socket then
    (.fail EOPNOTSUPP, c)
  else match modifyPendingPoll answers events c with
    | (.error e, c) => (.fail e, c)
    | (.ok covers, c) =>
      match (if holdsQueuedNotification c.sock && epWaitableInterestEvents events ≠ 0 then
          answers.nodeAlloc else none) with
      | some e => (.fail e, c)
      | none => modifySubmit answers c (modifyApply events flags data ctx covers answers.now c)

/-! ## DEL -/

def unregisterLocked (answers : ControlAnswers) (c : Cell) : CtlResult × Cell :=
  let c := if c.sock.pollStatus = .pending then (epSockCancelLocked answers.cancel c).2 else c
  let c := epFdTableForget c
  let c := c.mapSock fun s => { s with deletePending := true, state := .deleted }
  let c := epSockSetNeedsRearmLocked c false
  let c := countChange c.bumpGeneration
  (.ok false, freeIfIdle c)

/-! ## Local shutdown -/

inductive ShutdownHow
  | receive | send | both
  deriving DecidableEq, Repr

def epLocalShutdownMask : ShutdownHow → LocalShutdown
  | .receive => ⟨true, false⟩
  | .send => ⟨false, true⟩
  | .both => ⟨true, true⟩

def LocalShutdown.merge (a b : LocalShutdown) : LocalShutdown :=
  ⟨a.read || b.read, a.write || b.write⟩

/-- The publication half of `ep_port_shutdown_socket`; `reserved` tells that a node was reserved
for it. -/
def shutdownPublish (answers : ControlAnswers) (reserved stateChanged : Bool) (c : Cell) :
    CtlResult × Cell :=
  let cancelled : Option Errno × Cell :=
    if c.sock.pollStatus = .pending then
      epSockCancelLocked answers.cancel (epSockSetNeedsRearmLocked c true)
    else (none, c)
  match cancelled with
  | (some e, c) => (.fail e, countChange c)
  | (none, c) =>
    if c.sock.pollStatus = .idle || c.sock.readyQueued then
      match epSockQueueLocalShutdownLocked answers.submit.levels answers.submit.nodeAlloc
          answers.submit.claims answers.now reserved c with
      | (.failed e, c) => (.fail e, countChange (epSockSetNeedsRearmLocked c true))
      | (.queued, c) => (.ok c.port.waiterTakesWork, if stateChanged then countChange c else c)
      | (.nothing, c) => (.ok false, if stateChanged then countChange c else c)
    else (.ok false, if stateChanged then countChange c else c)

/-- `ep_port_shutdown_socket` on the registration it has found and validated. -/
def shutdownLocked (answers : ControlAnswers) (how : ShutdownHow) (c : Cell) :
    CtlResult × Cell :=
  if c.sock.kind ≠ .socket then (.fail ENOTSOCK, c)
  else
    let tcp : Bool := c.sock.socketProtocol = .tcp
    let proposed := c.sock.localShutdown.merge (epLocalShutdownMask how)
    let stateChanged := tcp && proposed ≠ c.sock.localShutdown
    let publicationRequired := tcp && (stateChanged || c.sock.needsRearm)
    let reserve := publicationRequired && (c.sock.pollStatus = .idle || c.sock.readyQueued) &&
      (c.sock.readyQueued || !c.sock.oneshotFired)
    match (if reserve then answers.nodeAlloc else none) with
    | some e => (.fail (if e = 0 then ENOMEM else e), c)
    | none =>
      match (if !tcp || stateChanged then answers.shutdown else none) with
      | some e => (.fail e, c)
      | none =>
        let c := if stateChanged then
          c.mapSock fun s => { s with localShutdown := proposed } else c
        if publicationRequired then shutdownPublish answers reserve stateChanged c
        else (.ok false, c)

/-! ## Class rearm -/

def WEPOLL_EX_REARM_ALL : Classes :=
  EP_READINESS_CLASS_READ ||| EP_READINESS_CLASS_WRITE ||| EP_READINESS_CLASS_TERMINAL

/-- What a class rearm does with a pending poll; `true` when the poll covers the new mask. -/
def rearmClassesPendingPoll (answers : ControlAnswers) (rearmOneshot : Bool)
    (newAfdEvents : AfdEvents) (c : Cell) : Except Errno Bool × Cell :=
  if c.sock.pollStatus ≠ .pending then (.ok false, c)
  else
    let cancel := cancelCovering answers.cancel c
    if rearmOneshot then cancel
    else if c.sock.localShutdown ≠ .none then cancel
    else if newAfdEvents &&& ~~~c.sock.submittedAfdEvents = 0 then (.ok true, c)
    else cancel

/-- The acknowledged registration, before any submission. -/
def rearmClassesApply (classes newDisarmed : Classes) (rearmOneshot covers : Bool)
    (newAfdEvents : AfdEvents) (c : Cell) : Cell :=
  let c := c.record (.classesRearmed c.sock.serial classes)
  let c := c.mapSock fun s => { s with explicitDisarmedClasses := newDisarmed }
  let c :=
    if rearmOneshot then
      let c := c.mapSock fun s => { s with pendingEvents := 0, observedEvents := 0 }
      let c := epSockSetOneshotFiredLocked c false
      let c := c.bumpGeneration
      c.mapSock fun s => { s with state := .registered }
    else c.mapSock fun s =>
      { s with observedEvents := epReadinessFilterClasses s.observedEvents classes }
  let c := c.mapSock fun s => { s with etHoldoff := false }
  if covers then c
  else epSockSetNeedsRearmLocked c (newAfdEvents ≠ 0 || c.sock.localShutdown ≠ .none)

def rearmClassesRollback (before c : Cell) : Cell :=
  let old := before.sock
  let c := before.unrecord c
  let c := c.mapSock fun s => { s with
    explicitDisarmedClasses := old.explicitDisarmedClasses
    pendingEvents := old.pendingEvents
    observedEvents := old.observedEvents }
  let c := epSockRestoreWorklistStateLocked c old.needsRearm old.oneshotFired
  c.mapSock fun s => { s with
    etHoldoff := old.etHoldoff
    udpReadlessReceiveParked := old.udpReadlessReceiveParked
    generation := old.generation
    state := old.state }

/-- The submission of an acknowledged registration, rolled back to `before` when it fails. -/
def rearmClassesSubmit (answers : ControlAnswers) (newAfdEvents : AfdEvents) (before c : Cell) :
    CtlResult × Cell :=
  if c.sock.pollStatus = .idle &&
      (newAfdEvents ≠ 0 || c.sock.localShutdown ≠ .none) && c.port.waiterTakesWork then
    match epSockSubmitLocked answers.submit true false c with
    | (.retired e, _, c) => (.fail e, c)
    | (.failed e, _, c) => (.fail e, rearmClassesRollback before c)
    | (.ok, _, c) => (.ok (wakeReadyWaiter c.sock), countChange c)
  else (.ok false, countChange c)

/-- Settle the pending poll, acknowledge and submit. -/
def rearmClassesCommit (answers : ControlAnswers) (classes newDisarmed : Classes)
    (rearmOneshot : Bool) (newAfdEvents : AfdEvents) (before c : Cell) : CtlResult × Cell :=
  match rearmClassesPendingPoll answers rearmOneshot newAfdEvents c with
  | (.error e, c) =>
    (.fail e, c.mapSock fun s =>
      { s with udpReadlessReceiveParked := before.sock.udpReadlessReceiveParked })
  | (.ok covers, c) =>
    rearmClassesSubmit answers newAfdEvents before
      (rearmClassesApply classes newDisarmed rearmOneshot covers newAfdEvents c)

def epSockRearmClassesLocked (answers : ControlAnswers) (classes : Classes) (c : Cell) :
    CtlResult × Cell :=
  let before := c
  let old := c.sock
  let newDisarmed := old.explicitDisarmedClasses &&& ~~~classes
  if old.readyQueued then (.fail EBUSY, c)
  else if newDisarmed = old.explicitDisarmedClasses then (.ok false, c)
  else
    let rearmOneshot := old.oneshotFired && newDisarmed = 0
    let c :=
      if classes &&& (EP_READINESS_CLASS_READ ||| EP_READINESS_CLASS_TERMINAL) ≠ 0 then
        c.mapSock fun s => { s with udpReadlessReceiveParked := false }
      else c
    if old.oneshotFired && !rearmOneshot then
      -- only part of a oneshot delivery is acknowledged: it stays disabled
      let c := c.record (.classesRearmed old.serial classes)
      (.ok false, countChange (c.mapSock fun s => { s with
        explicitDisarmedClasses := newDisarmed
        observedEvents := epReadinessFilterClasses s.observedEvents classes
        etHoldoff := false }))
    else
      let c := if rearmOneshot then
        c.mapSock fun s => { s with udpReadlessReceiveParked := false } else c
      let newAfdEvents := epSockAfdEventsForStateLocked c.port c.sock c.sock.userEvents
        c.sock.udpReadlessReceiveParked newDisarmed
      rearmClassesCommit answers classes newDisarmed rearmOneshot newAfdEvents before c

/-- `ep_port_rearm_classes` on the registration it has found and validated. -/
def rearmClassesLocked (answers : ControlAnswers) (classes : Classes) (c : Cell) :
    CtlResult × Cell :=
  if !epSockExplicitRearmEnabled c.port c.sock then (.fail EOPNOTSUPP, c)
  else epSockRearmClassesLocked answers classes c

/-! ## Rearm -/

def rearmApply (c : Cell) : Cell :=
  let transfer := holdsQueuedNotification c.sock
  let c := c.mapSock fun s =>
    { s with waitableNotificationOwned := s.waitableNotificationOwned || transfer }
  let c := epSockSetOneshotFiredLocked c false
  let c := c.mapSock fun s => { s with
    pendingEvents := 0
    observedEvents := 0
    pipeTerminalDelivered := false
    etHoldoff := false
    udpReadlessReceiveParked := false }
  let c := epSockSetNeedsRearmLocked c true
  let c := c.mapSock fun s => { s with readyQueued := false }
  c.bumpGeneration.record (.rearmed c.sock.serial)

def rearmRollback (before c : Cell) : Cell :=
  let old := before.sock
  let c := before.unrecord c
  let c := c.mapSock fun s => { s with
    pendingEvents := old.pendingEvents
    observedEvents := old.observedEvents }
  let c := epSockRestoreWorklistStateLocked c old.needsRearm old.oneshotFired
  c.mapSock fun s => { s with
    pipeTerminalDelivered := old.pipeTerminalDelivered
    etHoldoff := old.etHoldoff
    udpReadlessReceiveParked := old.udpReadlessReceiveParked
    waitableNotificationOwned := old.waitableNotificationOwned
    baseSocket := old.baseSocket
    endpointId := old.endpointId
    endpointIdState := old.endpointIdState
    generation := old.generation
    readyQueued := old.readyQueued
    state := old.state }

/-- `ep_port_rearm` on the registration it has found and validated. -/
def rearmLocked (answers : ControlAnswers) (c : Cell) : CtlResult × Cell :=
  if epSockExplicitRearmEnabled c.port c.sock then
    epSockRearmClassesLocked answers WEPOLL_EX_REARM_ALL c
  else if !c.sock.oneshotFired then (.ok false, c)
  else
    let before := c
    let c := rearmApply c
    if c.port.waiterTakesWork then
      match epSockSubmitLocked answers.submit true false c with
      | (.retired e, _, c) => (.fail e, c)
      | (.failed e, _, c) => (.fail e, rearmRollback before c)
      | (.ok, _, c) => (.ok (wakeReadyWaiter c.sock), countChange c)
    else (.ok false, countChange c)

/-! ## Operations on the port -/

/-- Look `fd` up, validate the registration and run `op` on it. -/
def onRegistration (answers : ControlAnswers) (op : Cell → CtlResult × Cell) (fd : Socket)
    (m : Mem) : CtlResult × Mem :=
  match m.port.fdTable fd with
  | none => (.fail (epTargetFailAbsent answers.target), m)
  | some a =>
    match m.socks a with
    | none => (.fail EBADF, m)
    | some s =>
      match epSockValidateControlLocked answers (m.cell a s) with
      | (.live, c) => let (r, c) := op c; (r, m.put c)
      | (.retired e, c) => (.fail e, m.put c)
      | (.failed e, c) => (.fail e, m.put c)

def epPortModify (answers : ControlAnswers) (fd : Socket) (events flags : Events)
    (data : BitVec 64) (ctx : Nat) (m : Mem) : CtlResult × Mem :=
  onRegistration answers (modifyLocked answers events flags data ctx) fd m

def epPortUnregister (answers : ControlAnswers) (fd : Socket) (m : Mem) : CtlResult × Mem :=
  onRegistration answers (unregisterLocked answers) fd m

def epPortRearm (answers : ControlAnswers) (fd : Socket) (m : Mem) : CtlResult × Mem :=
  onRegistration answers (rearmLocked answers) fd m

def epPortRearmClasses (answers : ControlAnswers) (fd : Socket) (classes : Classes) (m : Mem) :
    CtlResult × Mem :=
  if classes = 0 ∨ classes &&& ~~~WEPOLL_EX_REARM_ALL ≠ 0 then (.fail EINVAL, m)
  else onRegistration answers (rearmClassesLocked answers classes) fd m

/-- An unregistered socket is only shut down natively. -/
def epPortShutdownSocket (answers : ControlAnswers) (fd : Socket) (how : ShutdownHow) (m : Mem) :
    CtlResult × Mem :=
  match m.port.fdTable fd with
  | none =>
    match answers.target with
    | .error e => (.fail e, m)
    | .ok info =>
      match info.kind with
      | .socket _ =>
        match answers.shutdown with
        | some e => (.fail e, m)
        | none => (.ok false, m)
      | .invalid => (.fail EBADF, m)
      | _ => (.fail ENOTSOCK, m)
  | some _ => onRegistration answers (shutdownLocked answers how) fd m

/-! ## ADD -/

/-- Answers to the allocation of a registration. -/
structure AllocAnswers where
  target : TargetAnswer
  /-- The storage `calloc` returns. -/
  addr : Option Addr
  protocol : SocketProtocol
  udpAfdQualifierEligible : Bool
  asyncReadCapability : AsyncReadCapability
  endpoint : EndpointAnswer
  stable : Bool
  afdInfo : Option Errno
  tableInsert : Option Errno

/-- A zeroed `ep_sock_t` for `fd`. -/
def blankSock (fd : Socket) (kind : RegKind) (base : Socket) : EpSock where
  fd := fd
  baseSocket := base
  kind := kind
  waitableSemantics := .none
  pipeAccess := ⟨false, false⟩
  pipeSynchronousIo := false
  socketProtocol := .unknown
  udpAfdQualifierEligible := false
  asyncReadCapability := .unknown
  udpReadlessReceiveParked := false
  localShutdown := .none
  endpointId := 0
  endpointIdState := .unavailable
  identityCheckedEpoch := 0
  identityCheckedResult := .matching
  baseSocketIdentity := 0
  baseSocketCached := false
  userEvents := 0
  userFlags := 0
  userData := 0
  userCtx := 0
  state := .registered
  pendingEvents := 0
  submittedAfdEvents := 0
  submittedWaitEpoch := 0
  observedEvents := 0
  explicitDisarmedClasses := 0
  pollStatus := .idle
  deletePending := false
  readyQueued := false
  completionPosted := false
  waitableNotificationOwned := false
  oneshotFired := false
  needsRearm := false
  pipeTerminalDelivered := false
  etHoldoff := false
  ioStatus := 0
  generation := 0
  afdInfo := ⟨0, 0, 0⟩
  waitRegistration := false
  serial := 0

/-- The socket fields of a new registration. -/
def allocSocketFields (answers : AllocAnswers) (p : Port) (fd base : Socket) :
    Except Errno EpSock × Port :=
  let s := { blankSock fd .socket base with
    socketProtocol := answers.protocol
    udpAfdQualifierEligible := answers.udpAfdQualifierEligible
    asyncReadCapability :=
      if answers.udpAfdQualifierEligible then answers.asyncReadCapability else .unknown }
  let noted := { p with identityFailures := p.identityFailures + 1 }
  let withInfo (s : EpSock) : Except Errno EpSock × Port :=
    match answers.afdInfo with
    | some e => (.error e, p)
    | none => (.ok s, p)
  if p.lifetime = .synchronized then withInfo s
  else match answers.endpoint with
    | .error e => (.error e, noted)
    | .unavailable => if p.lifetime = .strict then (.error EOPNOTSUPP, noted) else withInfo s
    | .token id =>
      withInfo { s with
        endpointId := id
        endpointIdState := if answers.stable then .stable else .transitional }

/-- The fields of a new registration that depend on its kind. -/
def allocFields (answers : AllocAnswers) (p : Port) (fd : Socket) (kind : TargetKind) :
    Except Errno EpSock × Port :=
  match kind with
  | .socket base => allocSocketFields answers p fd base
  | .pipe access synchronousIo =>
    (.ok { blankSock fd .pipe fd with
      pipeAccess := access, pipeSynchronousIo := synchronousIo }, p)
  | .waitable semantics => (.ok { blankSock fd .waitable fd with waitableSemantics := semantics }, p)
  | _ => (.error EIO, p)

def epSockAllocLocked (answers : AllocAnswers) (fd : Socket) (p : Port) :
    Except Errno (Addr × EpSock) × Port :=
  match answers.target with
  | .error e => (.error e, p)
  | .ok info =>
    if info.kind = .invalid then (.error EBADF, p)
    else if info.kind = .unsupported then (.error EPERM, p)
    else if info.registrationError ≠ 0 then (.error info.registrationError, p)
    else match answers.addr with
      | none => (.error ENOMEM, p)
      | some a =>
        match allocFields answers p fd info.kind with
        | (.error e, p) => (.error e, p)
        | (.ok s, p) =>
          (.ok (a, { s with generation := nextGeneration p.nextSockGeneration }), p.bumpGeneration)

/-- The combinations of kind, flags and interest that ADD rejects after allocation. -/
def registerRejects (p : Port) (s : EpSock) : Option Errno :=
  if p.explicitRearm ∧ s.isET ∧ s.kind ≠ .socket then some EOPNOTSUPP
  else if p.explicitRearm ∧ s.isET ∧ s.isExclusive then some EINVAL
  else if s.isAux ∧ s.isExclusive then some EINVAL
  else if s.kind = .waitable ∧ s.isET ∧ epWaitableInterestEvents s.userEvents ≠ 0 ∧
      s.waitableSemantics = .etUnsupported then some EINVAL
  else none

/-- Link a new registration into the table and the list of all registrations. -/
def registerInsert (c : Cell) : Cell :=
  let p := c.port
  { c with
    sock := { c.sock with serial := p.nextSerial }
    port := { p with
      fdTable := Function.update p.fdTable c.sock.fd (some c.addr)
      sockList := p.sockList.push c.addr
      nextSerial := p.nextSerial + 1
      history := p.history ++
        [.added p.nextSerial c.sock.userEvents c.sock.userData c.sock.userCtx] } }

/-- The first submission of a new registration. -/
def registerSubmit (answers : SubmitAnswers) (c : Cell) : CtlResult × Cell :=
  let c := if !epWaitableIsDormant c.sock then epSockSetNeedsRearmLocked c true else c
  if !epWaitableIsDormant c.sock && (c.sock.kind = .socket || c.port.waiterTakesWork) then
    match epSockSubmitLocked answers true false c with
    | (.failed e, _, c) => (.fail e, epSockFreeLocked (epFdTableForget c))
    | (.retired e, _, c) => (.fail e, c)
    | (.ok, _, c) => (.ok false, countChange c)
  else (.ok false, countChange c)

/-- Allocate, insert and first submit a registration. -/
def registerNew (answers : AllocAnswers) (submit : SubmitAnswers) (fd : Socket)
    (events flags : Events) (data : BitVec 64) (ctx : Nat) (m : Mem) : CtlResult × Mem :=
  match epSockAllocLocked answers fd m.port with
  | (.error e, p) => (.fail e, { m with port := p })
  | (.ok (a, s), p) =>
    let s := { s with userEvents := events, userFlags := flags, userData := data, userCtx := ctx }
    match registerRejects p s with
    | some e => (.fail e, { m with port := p })
    | none =>
      match answers.tableInsert with
      | some e => (.fail e, { m with port := p })
      | none =>
        let (r, c) := registerSubmit submit (registerInsert ⟨a, s, p, false⟩)
        (r, m.put c)

def epPortRegister (control : ControlAnswers) (alloc : AllocAnswers) (fd : Socket)
    (events flags : Events) (data : BitVec 64) (ctx : Nat) (m : Mem) : CtlResult × Mem :=
  if fd = INVALID_SOCKET then (.fail EBADF, m)
  else if m.port.closing then (.fail EBADF, m)
  else match m.port.fdTable fd with
    | none => registerNew alloc control.submit fd events flags data ctx m
    | some a =>
      match m.socks a with
      | none => (.fail EBADF, m)
      | some s =>
        match epSockValidateControlLocked control (m.cell a s) with
        | (.live, c) => (.fail EEXIST, m.put c)
        | (.failed e, c) => (.fail e, m.put c)
        | (.retired e, c) =>
          -- the number names another object now: register that one
          if e = ENOENT then registerNew alloc control.submit fd events flags data ctx (m.put c)
          else (.fail e, m.put c)

/-! ## `epoll_ctl` -/

/-- Bits that may accompany EPOLLEXCLUSIVE in an ADD. -/
def exclusiveAllowed : Events :=
  EPOLLIN ||| EPOLLOUT ||| EPOLLWAKEUP ||| EPOLLET ||| EPOLLERR ||| EPOLLHUP ||| EPOLLEXCLUSIVE

/-- `ep_port_validate_target`; `add` selects EP_TARGET_VALIDATE_ADD. -/
def epPortValidateTarget (target : TargetAnswer) (add : Bool) (m : Mem) : Option Errno :=
  if m.port.closing then some EBADF
  else match target with
    | .error e => some e
    | .ok info =>
      if info.kind = .invalid then some EBADF
      else if info.kind = .unsupported then some EPERM
      else if add ∧ info.registrationError ≠ 0 then some info.registrationError
      else none

def epollCtlAdd (control : ControlAnswers) (alloc : AllocAnswers) (fd : Socket) (events : Events)
    (data : BitVec 64) (ctx : Nat) (m : Mem) : CtlResult × Mem :=
  let register : CtlResult × Mem :=
    epPortRegister control alloc fd events
      (events &&& (EPOLLONESHOT ||| EPOLLEXCLUSIVE ||| EPOLLET)) data ctx m
  if fd = INVALID_SOCKET then (.fail EBADF, m)
  else if events &&& EPOLLEXCLUSIVE ≠ 0 then
    match epPortValidateTarget control.target true m with
    | some e => (.fail e, m)
    | none => if events &&& ~~~exclusiveAllowed ≠ 0 then (.fail EINVAL, m) else register
  else register

def epollCtlMod (answers : ControlAnswers) (fd : Socket) (events : Events) (data : BitVec 64)
    (ctx : Nat) (m : Mem) : CtlResult × Mem :=
  if fd = INVALID_SOCKET then (.fail EBADF, m)
  else if events &&& EPOLLEXCLUSIVE ≠ 0 then
    (.fail ((epPortValidateTarget answers.target false m).getD EINVAL), m)
  else epPortModify answers fd events (events &&& (EPOLLONESHOT ||| EPOLLET)) data ctx m

end WepollEx
