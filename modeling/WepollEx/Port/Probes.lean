import WepollEx.Port.Worklists

/-!
# Probes of the target handle

Every question the port asks Winsock or the kernel about one registration's handle.  The answers
are arguments (`IdentityAnswers`, `LevelAnswers`, `PipeAnswers`, ...), so a function is determined
by the registration, the port and the answers it receives.
-/

namespace WepollEx

/-! ## Socket identity -/

inductive EndpointAnswer
  | token (id : Nat)
  | unavailable
  | error (e : Errno)
  deriving DecidableEq, Repr

/-- Answers to the identity queries about one socket. -/
structure IdentityAnswers where
  endpoint : EndpointAnswer
  /-- The error of the `SO_TYPE` probe, if it fails. -/
  soType : Option Errno
  /-- `ep_socket_identity_is_stable`. -/
  stable : Bool
  deriving DecidableEq, Repr

/-- The errors by which a provider reports that the handle names no socket. -/
def isClosedErrno (e : Errno) : Bool := e = ENOTSOCK || e = EBADF

/-- The registration settles on a stable endpoint token. -/
def EpSock.settleEndpoint (s : EpSock) (stable : Bool) : EpSock :=
  if s.endpointIdState = .transitional && stable then { s with endpointIdState := .stable } else s

def epSockValidateIdentityLocked (answers : IdentityAnswers) (allowTransition : Bool) (c : Cell) :
    IdentityCheck × Errno × Cell :=
  let failed (e : Errno) : IdentityCheck × Errno × Cell :=
    (.error, orEio e, c.mapPort fun p => { p with identityFailures := p.identityFailures + 1 })
  if c.sock.kind ≠ .socket then (.matching, 0, c)
  else if c.sock.endpointIdState = .unavailable then
    match answers.soType with
    | none => (.matching, 0, c)
    | some e => if isClosedErrno e then (.closed, 0, c) else failed e
  else match answers.endpoint with
    | .unavailable =>
      match answers.soType with
      | none => failed EIO
      | some e => if isClosedErrno e then (.closed, 0, c) else failed e
    | .error e =>
      if isClosedErrno (orEio e) then (.closed, 0, c)
      else match answers.soType with
        | none => failed e
        | some live => if isClosedErrno live then (.closed, 0, c) else failed e
    | .token id =>
      if id = c.sock.endpointId then
        (.matching, 0, c.mapSock fun s => s.settleEndpoint answers.stable)
      else if c.sock.endpointIdState = .transitional && allowTransition then
        -- a completion submitted before connect proves the token change was legitimate
        (.matching, 0, c.mapSock fun s =>
          ({ s with endpointId := id } : EpSock).settleEndpoint answers.stable)
      else (.stale, 0, c)

/-- The delivery-path check, memoised once per registration and wait epoch. -/
def epSockValidateIdentityForDeliveryLocked (answers : IdentityAnswers) (c : Cell) :
    IdentityCheck × Errno × Cell :=
  let epoch := c.port.activeWaitEpoch
  if epoch ≠ 0 ∧ c.sock.identityCheckedEpoch = epoch then (c.sock.identityCheckedResult, 0, c)
  else
    let (result, e, c) := epSockValidateIdentityLocked answers false c
    if definitive : epoch ≠ 0 ∧ result ≠ .error then
      (result, e, c.mapSock fun s =>
        { s with identityCheckedEpoch := epoch, identityCheckedResult := ⟨result, definitive.2⟩ })
    else (result, e, c)

/-! ## Interest of a registration -/

def epWaitableLevelEvents (s : EpSock) : Events := epWaitableInterestEvents s.userEvents

/-- A successful wait may consume the object's signal. -/
def epWaitableMayConsume (s : EpSock) : Bool :=
  s.kind = .waitable && s.waitableSemantics ≠ .persistent && s.waitableSemantics ≠ .terminal

def epWaitableIsDormant (s : EpSock) : Bool :=
  s.kind = .waitable && epWaitableInterestEvents s.userEvents = 0

/-- Waitable and pipe registrations, which complete through callbacks instead of AFD. -/
def EpSock.isAux (s : EpSock) : Bool := s.kind = .waitable || s.kind = .pipe

def EpSock.isET (s : EpSock) : Bool := s.userFlags &&& EPOLLET ≠ 0
def EpSock.isOneshot (s : EpSock) : Bool := s.userFlags &&& EPOLLONESHOT ≠ 0
def EpSock.isExclusive (s : EpSock) : Bool := s.userFlags &&& EPOLLEXCLUSIVE ≠ 0

def epSockExplicitRearmEnabled (p : Port) (s : EpSock) : Bool :=
  p.explicitRearm && s.kind = .socket && s.isET

def LocalShutdown.none : LocalShutdown := ⟨false, false⟩

def AFD_POLL_ALL_EVENTS : AfdEvents :=
  AFD_POLL_RECEIVE ||| AFD_POLL_RECEIVE_EXPEDITED ||| AFD_POLL_SEND ||| AFD_POLL_DISCONNECT |||
    AFD_POLL_ABORT ||| AFD_POLL_LOCAL_CLOSE ||| AFD_POLL_ACCEPT ||| AFD_POLL_CONNECT_FAIL

def epSockAfdEventsForStateLocked (p : Port) (s : EpSock) (userEvents : Events)
    (udpReadlessReceiveParked : Bool) (explicitDisarmedClasses : Classes) : AfdEvents :=
  let afdEvents := epEpollToAfdEvents userEvents
  let afdEvents :=
    if s.socketProtocol = .udp && s.udpAfdQualifierEligible && s.asyncReadCapability = .safe &&
        p.udpProbeEvent && userEvents &&& (EPOLLIN ||| EPOLLRDNORM) = 0 &&
        !udpReadlessReceiveParked then afdEvents ||| AFD_POLL_RECEIVE
    else afdEvents
  let afdEvents :=
    -- a pre-connect request stays alive across every MOD
    if p.lifetime ≠ .synchronized && s.endpointIdState = .transitional then AFD_POLL_ALL_EVENTS
    else afdEvents
  afdEvents &&& ~~~epReadinessClassesAfdEvents explicitDisarmedClasses

def epSockAfdEventsLocked (p : Port) (s : EpSock) (userEvents : Events) : AfdEvents :=
  epSockAfdEventsForStateLocked p s userEvents s.udpReadlessReceiveParked
    (if epSockExplicitRearmEnabled p s then s.explicitDisarmedClasses else 0)

/-! ## Current socket levels -/

/-- The `revents` of one `WSAPoll`. -/
structure Revents where
  err : Bool
  hup : Bool
  rdnorm : Bool
  wrnorm : Bool
  deriving DecidableEq, Repr

/-- Answers to the level queries about one socket. -/
structure LevelAnswers where
  /-- `getpeername` succeeds. -/
  peer : Bool
  /-- `WSAPoll`, or `none` when it fails or reports POLLNVAL. -/
  wsaPoll : Option Revents
  /-- `ep_socket_select_ready`: `none` is an error. -/
  selectRead : Option Bool
  selectWrite : Option Bool
  /-- `ep_socket_select_priority_ready(...) > 0`. -/
  selectPriority : Bool
  deriving DecidableEq, Repr

def epSocketPollCurrent (answers : LevelAnswers) (c : Cell) : Option Revents × Cell :=
  if c.sock.socketProtocol ≠ .tcp || !answers.peer then (none, c)
  else
    (answers.wsaPoll,
      c.mapPort fun p => { p with tcpCurrentLevelProbes := p.tcpCurrentLevelProbes + 1 })

/-- Merge the socket's current levels into `delivered`.  The first component is the poll result
when it also qualifies the snapshot, that is when the source returns 1. -/
def epSocketMergeCurrentLevels (answers : LevelAnswers) (c : Cell) (delivered : Events) :
    Option Revents × Events × Cell :=
  if c.sock.socketProtocol ≠ .tcp ∨ delivered &&& (EPOLLERR ||| EPOLLHUP) ≠ 0 then
    (none, delivered, c)
  else
    let readInterest := c.sock.userEvents &&& (EPOLLIN ||| EPOLLRDNORM)
    let writeInterest := c.sock.userEvents &&& (EPOLLOUT ||| EPOLLWRNORM)
    let (polled, c) := epSocketPollCurrent answers c
    let (delivered, c) :=
      match polled with
      | some revents =>
        let delivered :=
          if revents.err then delivered ||| (EPOLLERR ||| EPOLLHUP)
          else if revents.hup then
            delivered ||| readInterest ||| (c.sock.userEvents &&& EPOLLRDHUP)
          else if revents.rdnorm then delivered ||| readInterest
          else delivered
        (if revents.wrnorm then delivered ||| writeInterest else delivered, c)
      | none =>
        let c := c.mapPort fun p =>
          { p with tcpCurrentLevelFallbacks := p.tcpCurrentLevelFallbacks + 1 }
        let delivered :=
          if readInterest &&& ~~~delivered ≠ 0 ∧ answers.selectRead = some true then
            delivered ||| readInterest else delivered
        let delivered :=
          if writeInterest &&& ~~~delivered ≠ 0 ∧ answers.selectWrite = some true then
            delivered ||| writeInterest else delivered
        (delivered, c)
    let delivered :=
      if c.sock.userEvents &&& EPOLLPRI ≠ 0 ∧ delivered &&& EPOLLPRI = 0 ∧
          delivered &&& (EPOLLERR ||| EPOLLHUP) = 0 ∧ answers.selectPriority = true then
        delivered ||| EPOLLPRI
      else delivered
    match polled with
    | some revents =>
      if !revents.err && !revents.hup then (some revents, delivered, c) else (none, delivered, c)
    | none => (none, delivered, c)

/-! ## Local shutdown -/

/-- The mask part of `ep_sock_merge_local_shutdown_locked`. -/
def epSockMergeLocalShutdownLocked (s : EpSock) (level : Events) : Events :=
  if s.kind ≠ .socket ∨ s.socketProtocol ≠ .tcp then level
  else
    let level :=
      if s.localShutdown.read then
        level ||| (s.userEvents &&& (EPOLLIN ||| EPOLLRDNORM ||| EPOLLRDHUP))
      else level
    if s.localShutdown.read && s.localShutdown.write then level ||| EPOLLHUP else level

def epSockLocalShutdownLevelLocked (answers : LevelAnswers) (c : Cell) : Events × Cell :=
  if c.sock.kind ≠ .socket ∨ c.sock.socketProtocol ≠ .tcp ∨ c.sock.localShutdown = .none then
    (0, c)
  else
    let (_, level, c) := epSocketMergeCurrentLevels answers c 0
    let level := epSockMergeLocalShutdownLocked c.sock level
    let level := level &&& (c.sock.userEvents ||| EPOLLERR ||| EPOLLHUP)
    let level :=
      if epSockExplicitRearmEnabled c.port c.sock then
        epReadinessFilterClasses level c.sock.explicitDisarmedClasses
      else level
    (level, c)

/-! ## Pipes -/

/-- How a pipe query fails. -/
inductive PipeError
  | invalidHandle
  /-- ERROR_BROKEN_PIPE, ERROR_PIPE_NOT_CONNECTED or ERROR_BAD_PIPE. -/
  | peerClosed
  | accessDenied
  | other
  deriving DecidableEq, Repr

/-- How a zero-byte write to a pipe ends. -/
inductive ZeroWrite
  | written
  | invalidHandle
  /-- ERROR_BROKEN_PIPE, ERROR_NO_DATA, ERROR_PIPE_NOT_CONNECTED or ERROR_BAD_PIPE. -/
  | peerClosed
  | listening
  | other
  deriving DecidableEq, Repr

inductive PipeState
  | connected | disconnected | closing | listening
  deriving DecidableEq, Repr

/-- FilePipeLocalInformation, as far as it is read. -/
structure PipeInformation where
  readDataAvailable : Nat
  writeQuotaAvailable : Nat
  state : PipeState
  serverEnd : Bool
  deriving DecidableEq, Repr

/-- Answers to the queries about one pipe. -/
structure PipeAnswers where
  /-- `NtQueryInformationFile`; `none` when ntdll does not export it. -/
  query : Option (Except PipeError PipeInformation)
  peek : Except PipeError Nat
  zeroWrite : ZeroWrite

structure PipeSnapshot where
  events : Events
  localClosed : Bool
  valid : Bool
  nativeInformation : Bool
  serverEnd : Bool
  deriving DecidableEq, Repr

def PipeSnapshot.blank : PipeSnapshot := ⟨0, false, false, false, false⟩

def epPipeReadEvents (s : EpSock) : Events := s.userEvents &&& (EPOLLIN ||| EPOLLRDNORM)
def epPipeWriteEvents (s : EpSock) : Events := s.userEvents &&& (EPOLLOUT ||| EPOLLWRNORM)

def epPipePeerClosedEvents (s : EpSock) (available : Nat) : Events :=
  (if s.pipeAccess.read then
    (if available > 0 then epPipeReadEvents s else 0) ||| EPOLLHUP else 0) |||
  (if s.pipeAccess.write then epPipeWriteEvents s ||| EPOLLERR else 0)

def epPipeFallbackSnapshot (answers : PipeAnswers) (s : EpSock) : PipeSnapshot :=
  match answers.peek with
  | .ok available =>
    { PipeSnapshot.blank with
      valid := true
      events :=
        (if s.pipeAccess.read && available > 0 then epPipeReadEvents s else 0) |||
        (if s.pipeAccess.write then epPipeWriteEvents s else 0) }
  | .error .invalidHandle => { PipeSnapshot.blank with localClosed := true }
  | .error .peerClosed =>
    { PipeSnapshot.blank with valid := true, events := epPipePeerClosedEvents s 0 }
  | .error .accessDenied =>
    if s.pipeAccess.write then
      if !s.pipeSynchronousIo then
        { PipeSnapshot.blank with valid := true, events := epPipeWriteEvents s }
      else match answers.zeroWrite with
        | .written => { PipeSnapshot.blank with valid := true, events := epPipeWriteEvents s }
        | .invalidHandle => { PipeSnapshot.blank with localClosed := true }
        | .peerClosed =>
          { PipeSnapshot.blank with valid := true, events := epPipePeerClosedEvents s 0 }
        | .listening => { PipeSnapshot.blank with valid := true }
        | .other => { PipeSnapshot.blank with valid := true, events := epPipeWriteEvents s }
    else { PipeSnapshot.blank with valid := true }
  | .error .other => PipeSnapshot.blank

def epPipeSnapshot (answers : PipeAnswers) (s : EpSock) : PipeSnapshot :=
  match answers.query with
  | none => epPipeFallbackSnapshot answers s
  | some (.error .invalidHandle) => { PipeSnapshot.blank with localClosed := true }
  | some (.error .peerClosed) =>
    { PipeSnapshot.blank with valid := true, events := epPipePeerClosedEvents s 0 }
  | some (.error .accessDenied) => epPipeFallbackSnapshot answers s
  | some (.error .other) => PipeSnapshot.blank
  | some (.ok info) =>
    let events :=
      match info.state with
      | .connected =>
        (if s.pipeAccess.read && info.readDataAvailable > 0 then epPipeReadEvents s else 0) |||
        (if s.pipeAccess.write && info.writeQuotaAvailable > 0 then epPipeWriteEvents s else 0)
      | .disconnected | .closing => epPipePeerClosedEvents s info.readDataAvailable
      | .listening => 0
    { events, localClosed := false, valid := true, nativeInformation := true,
      serverEnd := info.serverEnd }

def epPipeEtEventsHaveFinalShape (s : EpSock) (events : Events) : Bool :=
  (events &&& EPOLLHUP ≠ 0 && events &&& (EPOLLIN ||| EPOLLRDNORM) = 0) ||
    (events &&& EPOLLERR ≠ 0 && !s.pipeAccess.read)

def epPipeEtSnapshotIsFinal (s : EpSock) (events : Events) (snapshot : PipeSnapshot) : Bool :=
  if !snapshot.valid || !snapshot.nativeInformation || snapshot.serverEnd then false
  else epPipeEtEventsHaveFinalShape s events

/-- The edge a pipe snapshot forms, and the registration with its latch updated. -/
def epPipeEtEvents (s : EpSock) (snapshot : PipeSnapshot) : Events × EpSock :=
  if !snapshot.valid then (0, s)
  else
    let level := snapshot.events
    let rising := level &&& ~~~s.observedEvents
    let falling := s.observedEvents &&& ~~~level
    let delivered :=
      if rising &&& (EPOLLHUP ||| EPOLLERR) ≠ 0 then level
      else if level &&& EPOLLHUP ≠ 0 ∧ falling &&& (EPOLLIN ||| EPOLLRDNORM) ≠ 0 then level
      else rising
    (delivered, { s with observedEvents := level })

/-! ## The UDP receive qualifier -/

inductive UdpReadProbe
  | unavailable | notReady | ready | error | closed | identityError
  deriving DecidableEq, Repr

/-- How the pinned one-byte receive ends once it has been issued. -/
inductive UdpReceive
  | unavailable | notReady | ready | error | closed
  deriving DecidableEq, Repr

/-- Answers to the steps of one UDP qualification. -/
structure UdpAnswers where
  /-- `DuplicateHandle`: whether it succeeds, and if not whether the handle was invalid. -/
  duplicate : Except Bool Unit
  /-- The duplicate supports overlapped I/O. -/
  asyncSafe : Bool
  identity : IdentityAnswers
  resetEvent : Bool
  receive : UdpReceive

def UdpReceive.toProbe : UdpReceive → UdpReadProbe
  | .unavailable => .unavailable
  | .notReady => .notReady
  | .ready => .ready
  | .error => .error
  | .closed => .closed

/-- `ep_udp_probe_read_locked`; the errno is meaningful for `identityError` only. -/
def epUdpProbeReadLocked (answers : UdpAnswers) (c : Cell) : UdpReadProbe × Errno × Cell :=
  if c.sock.socketProtocol ≠ .udp ∨ !c.sock.udpAfdQualifierEligible ∨
      c.sock.asyncReadCapability ≠ .safe ∨ c.sock.baseSocket = INVALID_SOCKET ∨
      !c.port.udpProbeEvent then (.unavailable, 0, c)
  else match answers.duplicate with
    | .error invalidHandle => (if invalidHandle then .closed else .unavailable, 0, c)
    | .ok () =>
      if !answers.asyncSafe then (.unavailable, 0, c)
      else
        let receive (c : Cell) : UdpReadProbe × Errno × Cell :=
          (if answers.resetEvent then answers.receive.toProbe else .unavailable, 0, c)
        if c.port.lifetime = .synchronized then receive c
        else match epSockValidateIdentityLocked answers.identity false c with
          | (.stale, _, c) => (.closed, 0, c)
          | (.closed, _, c) => (.closed, 0, c)
          | (.error, e, c) =>
            if c.port.lifetime = .strict then (.identityError, orEio e, c)
            else (.unavailable, 0, c)
          | (.matching, _, c) => receive c

end WepollEx
