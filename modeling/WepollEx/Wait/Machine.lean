import WepollEx.Lib.Transition
import WepollEx.Wait.Timeout

/-!
# Waits with clocks and wake requests

`ep_port_wait_timeout_impl` cut at every reading of a clock and every access to the wake state, for
any number of threads that call it, next to any number of threads that request a wake.  What the
wait learns from the rest of the port (what a drain copies, whether a post has failed, what the
completion port hands out) is an answer, so a run has every order in which the port can give them.
A step reads at most one clock, and the clocks advance between steps.
-/

namespace WepollEx.Wait

def WEPOLL_EPOLL_MAX_EVENTS : Nat := 178956970
def EP_ZERO_TIMEOUT_DRAIN_BUDGET_MS : Nat := 10
def EP_ZERO_TIMEOUT_MIN_DEQUEUES : Nat := 16
def EP_WAIT_COALESCE_BUDGET_MS : Nat := 10
def EP_WAIT_COALESCE_MIN_DEQUEUES : Nat := 64
def EP_WAIT_COALESCE_MAX_DEQUEUES : Nat := 128
def EP_DEFERRED_REARM_RETRY_MS : Nat := 1

/-- The `struct epoll_event` of a tagged wake. -/
structure WakeEvent where
  events : Events
  data : BitVec 64
  deriving DecidableEq, Repr

/-- What a tagged wake writes to the caller's array. -/
inductive WakeRecord
  | basic (event : WakeEvent)
  | extended (event : WakeEvent) (flags : BitVec 32) (timestamp : Nat)
  deriving DecidableEq, Repr

inductive TimerCapability
  | unknown | available | unavailable
  deriving DecidableEq, Repr

/-- A clock reading of a wait. -/
structure Reading where
  clock : Clock
  value : Nat
  /-- The precise timer was in use when the clock was read. -/
  preciseEnabled : Bool
  deriving DecidableEq, Repr

/-- A call of the completion dequeue, with the latest reading before it. -/
structure Dequeue where
  waitMs : Nat
  reading : Option Reading
  deriving DecidableEq, Repr

/-- What a wait does next. -/
inductive Pc
  | idle
  | start
  | initializePrecise
  | zeroDeadline
  | lockCheck (first : Bool)
  | lockTry
  | lockBusy
  | opening
  | loopTop
  | arm
  | timerInitialize (deferred : Bool)
  | expiry (deferred : Bool)
  | timerArm (deferred : Bool)
  | timerFailed (deferred : Bool)
  | backstop (deferred : Bool)
  | pollWake (waitMs : Nat) (deferredWait : Bool)
  | dequeue (waitMs : Nat) (deferredWait : Bool)
  | timedOut (deferredWait : Bool)
  | timedOutExpiry (deferredWait : Bool)
  | dispatched (timeoutPacket : Bool)
  | wakeAfter (timeoutPacket : Bool)
  | timeoutExpiry (timeoutPacket : Bool)
  | zeroBudget
  | lastExpiry
  | coalesceStart (result : Nat)
  | coalesce (result dequeues deadline : Nat)
  | coalesceZero (result dequeues deadline : Nat)
  | coalesceNext (result dequeues deadline : Nat)
  /-- The wake is taken and not counted yet. -/
  | wakeTaken (event : Option WakeEvent)
  | done
  | returned
  deriving DecidableEq, Repr

/-- One call of a wait function. -/
structure Call where
  pc : Pc
  request : WaitRequest
  maxevents : Nat
  basicEvents : Bool
  state : WaitState
  zeroTimeoutDeadline : Nat
  zeroTimeoutDequeues : Nat
  result : Int
  /-- The record of a tagged wake. -/
  record : Option WakeRecord
  /-- Ghost: the payload of the wake this call has consumed. -/
  woke : Option (Option WakeEvent)
  /-- Ghost: the clock readings so far, the latest first. -/
  readings : List Reading
  dequeues : List Dequeue
  deriving DecidableEq, Repr

/-- A packet of the completion port as `ep_port_dispatch_iocp_entry` tells them apart. -/
inductive Entry
  | control
  | timer (generation : Nat)
  | completion
  deriving DecidableEq, Repr

/-- `ep_port_dispatch_iocp_entry` reports the current wait's timeout packet. -/
def Entry.isTimeout (timeoutGeneration : Nat) : Entry → Bool
  | .timer generation => timeoutGeneration ≠ 0 && generation = timeoutGeneration
  | _ => false

inductive DequeueAnswer
  | fault
  | timeout
  | error
  | removed (entries : List Entry)
  deriving DecidableEq, Repr

/-- What one step learns from the rest of the port. -/
structure Answers where
  lockError : Bool
  closing : Bool
  /-- A failed post, a closing port or a latched error ends the wait. -/
  failed : Bool
  armFailed : Bool
  /-- The records the next drain finds. -/
  drained : Nat
  deferred : Bool
  /-- The high-resolution timer can be created, respectively set. -/
  timerCreated : Bool
  timerSet : Bool
  dequeue : DequeueAnswer
  timestamp : Nat
  deriving DecidableEq, Repr

/-! ## Steps of one call -/

namespace Call

def goto (c : Call) (pc : Pc) : Call := { c with pc := pc }

/-- Leave the loop with a result. -/
def finish (c : Call) (result : Int) : Call := { c with pc := .done, result := result }

/-- Return without having held `wait_lock`. -/
def giveUp (c : Call) (result : Int) : Call := { c with pc := .returned, result := result }

def setState (c : Call) (f : WaitState → WaitState) : Call := { c with state := f c.state }

def read (c : Call) (clocks : Clock → Nat) (clock : Clock) : Call :=
  { c with readings := ⟨clock, clocks clock, c.state.preciseEnabled⟩ :: c.readings }

def isZero (c : Call) : Bool := !c.state.timeout.infinite && c.state.timeout.milliseconds = 0

def isPositive (c : Call) : Bool := !c.state.timeout.infinite && c.state.timeout.milliseconds ≠ 0

/-- The caller asked for a duration on the 100-ns clock. -/
def wantsPrecise (c : Call) : Bool :=
  c.state.timeout.precise && !c.state.timeout.infinite && c.state.timeout.intervals100ns ≠ 0

/-- `ep_wait_expired`, which reads the governing clock of a finite wait. -/
def checkExpired (c : Call) (clocks : Clock → Nat) : Bool × Call :=
  if c.state.timeout.infinite then (false, c)
  else (epWaitExpired (clocks c.state.governing) c.state, c.read clocks c.state.governing)

/-- Return 0 if the wait has expired, and go on otherwise; `asked` tells whether it is asked. -/
def expireOr (c : Call) (clocks : Clock → Nat) (asked : Bool) (next : Pc) : Call :=
  if asked then
    let (expired, c) := c.checkExpired clocks
    if expired then c.finish 0 else c.goto next
  else c.goto next

/-- Whether the milliseconds of the timeout have passed while the lock was busy. -/
def lockExpired (c : Call) (clocks : Clock → Nat) : Bool × Call :=
  (elapsed (clocks .tick) c.state.startMs ≥ c.state.timeout.milliseconds, c.read clocks .tick)

def initializeState (c : Call) (clocks : Clock → Nat) : Call :=
  ((c.setState fun s => { s with startMs := clocks .tick }).read clocks .tick).goto
    .initializePrecise

def initializePrecise (c : Call) (clocks : Clock → Nat) (query : Bool) : Call :=
  if c.wantsPrecise && query then
    ((c.setState fun s => { s with start100ns := clocks .interrupt, preciseClock := true }).read
      clocks .interrupt).goto .zeroDeadline
  else c.goto .zeroDeadline

def zeroDeadline (c : Call) (clocks : Clock → Nat) : Call :=
  if c.isZero then
    ({ c with zeroTimeoutDeadline :=
      (clocks .tick + EP_ZERO_TIMEOUT_DRAIN_BUDGET_MS) % 2 ^ 64 }.read clocks .tick).goto
        (.lockCheck true)
  else c.goto (.lockCheck true)

/-- The retry of a finite lock acquisition checks the deadline first. -/
def lockCheck (c : Call) (clocks : Clock → Nat) (first : Bool) : Call :=
  if !first && c.state.timeout.milliseconds ≠ 0 then
    let (expired, c) := c.lockExpired clocks
    if expired then c.giveUp 0 else c.goto .lockTry
  else c.goto .lockTry

def lockBusy (c : Call) (clocks : Clock → Nat) (closing : Bool) : Call :=
  if closing then c.giveUp (-1)
  else if c.state.timeout.milliseconds = 0 then c.giveUp 0
  else
    let (expired, c) := c.lockExpired clocks
    if expired then c.giveUp 0 else c.goto (.lockCheck false)

def loopTop (c : Call) (answers : Answers) : Call :=
  if answers.failed then c.finish (-1)
  else if min answers.drained c.maxevents > 0 then
    c.goto (.coalesceStart (min answers.drained c.maxevents))
  else c.goto .arm

/-- The arm pass and the drain that follows it. -/
def arm (c : Call) (answers : Answers) : Call :=
  if answers.failed then c.finish (-1)
  else
    let n := min answers.drained c.maxevents
    if answers.armFailed then c.finish (if n > 0 then n else -1)
    else if n > 0 then c.goto (.coalesceStart n)
    else c.goto (.timerInitialize answers.deferred)

/-- The timeout of the completion dequeue, cut to a retry slice while a rearm is deferred. -/
def sliced (c : Call) (waitMs : Nat) (deferred : Bool) : Pc :=
  if deferred && (c.state.timeout.infinite || c.state.timeout.milliseconds ≠ 0) &&
      (waitMs = INFINITE || waitMs > EP_DEFERRED_REARM_RETRY_MS) then
    .pollWake EP_DEFERRED_REARM_RETRY_MS true
  else .pollWake waitMs false

def backstop (c : Call) (clocks : Clock → Nat) (deferred : Bool) : Call :=
  if c.state.timeout.infinite then c.goto (c.sliced INFINITE deferred)
  else
    let waitMs := epWaitBackstopMilliseconds (clocks c.state.governing) c.state
    (c.read clocks c.state.governing).goto (c.sliced waitMs deferred)

/-- Note the timeout that the completion dequeue was given. -/
def asked (c : Call) (waitMs : Nat) : Call :=
  { c with dequeues := ⟨waitMs, c.readings.head?⟩ :: c.dequeues }

def countZeroDequeue (c : Call) : Call :=
  if c.isZero then { c with zeroTimeoutDequeues := c.zeroTimeoutDequeues + 1 } else c

def dequeue (c : Call) (waitMs : Nat) (deferredWait : Bool) (answers : Answers) : Call :=
  match answers.dequeue with
  | .fault => c.finish (-1)
  | .timeout =>
    if answers.failed then (c.asked waitMs).finish (-1)
    else (c.asked waitMs).goto (.timedOut deferredWait)
  | .error => (c.asked waitMs).finish (-1)
  | .removed [] => (c.asked waitMs).goto (.timedOut false)
  | .removed entries =>
    (c.asked waitMs).countZeroDequeue.goto
      (.dispatched (entries.any (Entry.isTimeout c.state.timeoutGeneration)))

def dispatched (c : Call) (timeoutPacket : Bool) (answers : Answers) : Call :=
  if min answers.drained c.maxevents > 0 then
    c.goto (.coalesceStart (min answers.drained c.maxevents))
  else if answers.failed then c.finish (-1)
  else c.goto (.wakeAfter timeoutPacket)

/-- A check of the millisecond tick against a deadline, made only when `asked`. -/
def pastDeadline (c : Call) (clocks : Clock → Nat) (asked : Bool) (deadline : Nat) : Bool × Call :=
  if asked then (clocks .tick ≥ deadline, c.read clocks .tick) else (false, c)

def zeroBudget (c : Call) (clocks : Clock → Nat) : Call :=
  let asked := c.isZero && c.zeroTimeoutDequeues ≥ EP_ZERO_TIMEOUT_MIN_DEQUEUES
  let (past, c) := c.pastDeadline clocks asked c.zeroTimeoutDeadline
  if past then c.finish 0 else c.goto .lastExpiry

def coalesceStart (c : Call) (clocks : Clock → Nat) (result : Nat) : Call :=
  (c.read clocks .tick).goto
    (.coalesce result 0 ((clocks .tick + EP_WAIT_COALESCE_BUDGET_MS) % 2 ^ 64))

def coalesce (c : Call) (result dequeues deadline : Nat) (answers : Answers) : Call :=
  if c.maxevents > EP_WAIT_COALESCE_THRESHOLD ∧ result < c.maxevents ∧
      dequeues < EP_WAIT_COALESCE_MAX_DEQUEUES then
    match answers.dequeue with
    | .fault => c.finish result
    | .timeout => (c.asked 0).finish result
    | .error => (c.asked 0).finish result
    | .removed [] => (c.asked 0).finish result
    | .removed _ =>
      (c.asked 0).countZeroDequeue.goto (.coalesceZero
        (result + min answers.drained (c.maxevents - result)) (dequeues + 1) deadline)
  else c.finish result

def coalesceZero (c : Call) (clocks : Clock → Nat) (result dequeues deadline : Nat) : Call :=
  let asked := c.isZero && c.zeroTimeoutDequeues ≥ EP_ZERO_TIMEOUT_MIN_DEQUEUES
  let (past, c) := c.pastDeadline clocks asked c.zeroTimeoutDeadline
  if past then c.finish result else c.goto (.coalesceNext result dequeues deadline)

def coalesceNext (c : Call) (clocks : Clock → Nat) (result dequeues deadline : Nat)
    (closing : Bool) : Call :=
  if closing then c.finish result
  else
    let (past, c) := c.pastDeadline clocks (dequeues ≥ EP_WAIT_COALESCE_MIN_DEQUEUES) deadline
    if past then c.finish result else c.goto (.coalesce result dequeues deadline)

/-- The last part of `ep_port_take_wake`. -/
def reportWake (c : Call) (event : Option WakeEvent) (timestamp : Nat) : Call :=
  match event with
  | none => { c with woke := some none }.finish 0
  | some event =>
    let record :=
      if c.basicEvents then WakeRecord.basic event
      else .extended event WEPOLL_FLAG_WAKE_EVENT timestamp
    { c with woke := some (some event), record := some record }.finish 1

end Call

/-! ## The whole system -/

/-- What happened to the wake state, in the order of `wake_lock`. -/
inductive WakeStep
  | requested (event : Option WakeEvent)
  | taken
  deriving DecidableEq, Repr

structure State where
  clocks : Clock → Nat
  /-- The thread that holds `wait_lock`. -/
  waitLock : Option Nat
  wakePending : WakeState
  wakeEvent : WakeEvent
  wakeRequests : Nat
  wakeCoalesced : Nat
  wakeReturns : Nat
  /-- `query_unbiased_interrupt_time_precise` is not NULL. -/
  preciseQuery : Bool
  preciseTimeoutCapability : TimerCapability
  preciseTimeoutGeneration : Nat
  calls : Nat → Call
  /-- Wake requests that have published their wake and not posted its packet yet. -/
  unposted : Nat
  /-- Ghost: a wake packet could not be posted. -/
  postFailed : Bool
  /-- Ghost: the requests and takes so far, the latest last. -/
  log : List WakeStep
  /-- Ghost: the result and the record of each wake return, the latest last. -/
  reports : List (Int × Option WakeRecord)

def Call.create : Call where
  pc := .idle
  request := .milliseconds 0
  maxevents := 0
  basicEvents := false
  state := ⟨.unbounded, 0, 0, 0, false, false, false⟩
  zeroTimeoutDeadline := 0
  zeroTimeoutDequeues := 0
  result := 0
  record := none
  woke := none
  readings := []
  dequeues := []

def State.create (clocks : Clock → UInt64) (preciseQuery : Bool) : State where
  clocks := fun clock => (clocks clock).toNat
  waitLock := none
  wakePending := .none
  wakeEvent := ⟨0, 0⟩
  wakeRequests := 0
  wakeCoalesced := 0
  wakeReturns := 0
  preciseQuery := preciseQuery
  preciseTimeoutCapability := .unknown
  preciseTimeoutGeneration := 0
  calls := fun _ => .create
  unposted := 0
  postFailed := false
  log := []
  reports := []

inductive Act
  | advance (clock : Clock) (by' : Nat)
  /-- `ep_port_wake` (no event) and `ep_port_wake_event`. -/
  | request (event : Option WakeEvent) (closing : Bool)
  /-- The packet of a wake request is posted, or cannot be. -/
  | post (posted : Bool)
  | begin (thread : Nat) (request : WaitRequest) (maxevents : Int) (basicEvents : Bool)
  | wait (thread : Nat) (answers : Answers)

namespace State

def set (st : State) (thread : Nat) (c : Call) : State :=
  { st with calls := Function.update st.calls thread c }

def advance (st : State) (clock : Clock) (by' : Nat) : Option State :=
  if st.clocks clock + by' < 2 ^ 64 then
    some { st with clocks := Function.update st.clocks clock (st.clocks clock + by') }
  else none

/-- `ep_port_request_wake` up to its post. -/
def request (st : State) (event : Option WakeEvent) (closing : Bool) : State :=
  if closing then st
  else
    let st := { st with
      wakeRequests := st.wakeRequests + 1, log := st.log ++ [WakeStep.requested event] }
    match st.wakePending, event with
    | .untagged, some e =>
      { st with wakeEvent := e, wakePending := .tagged, wakeCoalesced := st.wakeCoalesced + 1 }
    | .untagged, none => { st with wakeCoalesced := st.wakeCoalesced + 1 }
    | .tagged, _ => { st with wakeCoalesced := st.wakeCoalesced + 1 }
    | .none, some e =>
      { st with wakeEvent := e, wakePending := .tagged, unposted := st.unposted + 1 }
    | .none, none => { st with wakePending := .untagged, unposted := st.unposted + 1 }

def post (st : State) (posted : Bool) : Option State :=
  if st.unposted = 0 then none
  else
    let st := { st with unposted := st.unposted - 1 }
    some (if posted then st else { st with wakePending := .none, postFailed := true })

def begin (st : State) (thread : Nat) (request : WaitRequest) (maxevents : Int)
    (basicEvents : Bool) : Option State :=
  if (st.calls thread).pc ≠ .idle ∧ (st.calls thread).pc ≠ .returned then none
  else
    let c : Call := { Call.create with request := request, basicEvents := basicEvents }
    match request.timeout with
    | .error _ => some (st.set thread (c.giveUp (-1)))
    | .ok timeout =>
      if maxevents ≤ 0 ∨ maxevents > WEPOLL_EPOLL_MAX_EVENTS then
        some (st.set thread (c.giveUp (-1)))
      else
        some (st.set thread { c with
          pc := .start
          maxevents := maxevents.toNat
          state := ⟨timeout, 0, 0, 0, false, false, false⟩ })

/-- The wait acquires `wait_lock`. -/
def acquire (st : State) (thread : Nat) (c : Call) : State :=
  { st.set thread (c.goto .opening) with waitLock := some thread }

/-- `ep_wait_lock_acquire` of a wait without a bound blocks until the lock is free. -/
def lockCheck (st : State) (thread : Nat) (c : Call) (first : Bool) (answers : Answers) :
    Option State :=
  if c.state.timeout.infinite then
    if answers.lockError then some (st.set thread (c.giveUp (-1)))
    else if st.waitLock.isSome then none
    else some (st.acquire thread c)
  else some (st.set thread (c.lockCheck st.clocks first))

def lockTry (st : State) (thread : Nat) (c : Call) (answers : Answers) : State :=
  if answers.lockError then st.set thread (c.giveUp (-1))
  else if st.waitLock.isSome then st.set thread (c.goto .lockBusy)
  else st.acquire thread c

/-- `ep_port_precise_timeout_initialize`. -/
def timerInitialize (st : State) (answers : Answers) : Bool × State :=
  match st.preciseTimeoutCapability with
  | .available => (true, st)
  | .unavailable => (false, st)
  | .unknown =>
    if st.preciseQuery && answers.timerCreated then
      (true, { st with preciseTimeoutCapability := .available })
    else (false, { st with preciseTimeoutCapability := .unavailable })

/-- The first pass of a wait that wants the precise timer tries to set it up. -/
def attemptTimer (st : State) (thread : Nat) (c : Call) (deferred : Bool) (answers : Answers) :
    State :=
  if c.wantsPrecise && !c.state.preciseAttempted then
    let c := c.setState fun s => { s with preciseAttempted := true }
    if c.state.preciseClock then
      let (available, st) := st.timerInitialize answers
      st.set thread ((c.setState fun s =>
        { s with preciseEnabled := s.preciseEnabled || available }).goto (.expiry deferred))
    else st.set thread (c.goto (.expiry deferred))
  else st.set thread (c.goto (.expiry deferred))

/-- `ep_port_precise_timeout_arm`: the generation of the timer, zero when it cannot be set. -/
def timerArm (st : State) (delay : Nat) (answers : Answers) : Nat × State :=
  if delay = 0 then (0, st)
  else
    let (available, st) := st.timerInitialize answers
    if !available then (0, st)
    else
      let next := (st.preciseTimeoutGeneration + 1) % 2 ^ 64
      let generation := if next = 0 then 1 else next
      let st := { st with preciseTimeoutGeneration := generation }
      if answers.timerSet then (generation, st) else (0, st)

/-- Set the precise timer for the remaining time, once per wait. -/
def armTimer (st : State) (thread : Nat) (c : Call) (deferred : Bool) (answers : Answers) :
    State :=
  if c.state.preciseEnabled && c.state.timeoutGeneration = 0 then
    let remaining := epWaitRemaining100ns (st.clocks .interrupt) c.state
    let c := c.read st.clocks .interrupt
    if remaining = 0 then st.set thread (c.finish 0)
    else
      let (generation, st) := st.timerArm remaining answers
      let c := c.setState fun s => { s with timeoutGeneration := generation }
      if generation = 0 then
        st.set thread ((c.setState fun s => { s with preciseEnabled := false }).goto
          (.timerFailed deferred))
      else st.set thread (c.goto (.backstop deferred))
  else st.set thread (c.goto (.backstop deferred))

def pollWake (st : State) (thread : Nat) (c : Call) (waitMs : Nat) (deferredWait : Bool) : State :=
  if st.wakePending ≠ .none then st.set thread (c.goto (.dequeue 0 false))
  else st.set thread (c.goto (.dequeue waitMs deferredWait))

/-- The locked part of `ep_port_take_wake`; without a pending wake the wait goes on at `next`. -/
def takeWake (st : State) (thread : Nat) (c : Call) (next : Pc) : State :=
  match st.wakePending with
  | .none => st.set thread (c.goto next)
  | .untagged =>
    { st.set thread (c.goto (.wakeTaken none)) with
      wakePending := .none, log := st.log ++ [.taken] }
  | .tagged =>
    { st.set thread (c.goto (.wakeTaken (some st.wakeEvent))) with
      wakePending := .none, log := st.log ++ [.taken] }

def reportWake (st : State) (thread : Nat) (c : Call) (event : Option WakeEvent)
    (answers : Answers) : State :=
  let c := c.reportWake event answers.timestamp
  { st.set thread c with
    wakeReturns := st.wakeReturns + 1, reports := st.reports ++ [(c.result, c.record)] }

/-- Release `wait_lock` and return. -/
def leave (st : State) (thread : Nat) (c : Call) : State :=
  { st.set thread (c.goto .returned) with waitLock := none }

/-- One step of a wait. -/
def wait (st : State) (thread : Nat) (answers : Answers) : Option State :=
  let c := st.calls thread
  match c.pc with
  | .idle => none
  | .start => some (st.set thread (c.initializeState st.clocks))
  | .initializePrecise => some (st.set thread (c.initializePrecise st.clocks st.preciseQuery))
  | .zeroDeadline => some (st.set thread (c.zeroDeadline st.clocks))
  | .lockCheck first => st.lockCheck thread c first answers
  | .lockTry => some (st.lockTry thread c answers)
  | .lockBusy => some (st.set thread (c.lockBusy st.clocks answers.closing))
  | .opening => some (st.set thread (if answers.failed then c.finish (-1) else c.goto .loopTop))
  | .loopTop => some (st.set thread (c.loopTop answers))
  | .arm => some (st.set thread (c.arm answers))
  | .timerInitialize deferred => some (st.attemptTimer thread c deferred answers)
  | .expiry deferred =>
    some (st.set thread (c.expireOr st.clocks c.isPositive (.timerArm deferred)))
  | .timerArm deferred => some (st.armTimer thread c deferred answers)
  | .timerFailed deferred =>
    some (st.set thread (c.expireOr st.clocks c.isPositive (.backstop deferred)))
  | .backstop deferred => some (st.set thread (c.backstop st.clocks deferred))
  | .pollWake waitMs deferredWait => some (st.pollWake thread c waitMs deferredWait)
  | .dequeue waitMs deferredWait => some (st.set thread (c.dequeue waitMs deferredWait answers))
  | .timedOut deferredWait => some (st.takeWake thread c (.timedOutExpiry deferredWait))
  | .timedOutExpiry deferredWait =>
    some (st.set thread (c.expireOr st.clocks (!deferredWait) .loopTop))
  | .dispatched timeoutPacket => some (st.set thread (c.dispatched timeoutPacket answers))
  | .wakeAfter timeoutPacket => some (st.takeWake thread c (.timeoutExpiry timeoutPacket))
  | .timeoutExpiry timeoutPacket =>
    some (st.set thread (c.expireOr st.clocks timeoutPacket .zeroBudget))
  | .zeroBudget => some (st.set thread (c.zeroBudget st.clocks))
  | .lastExpiry => some (st.set thread (c.expireOr st.clocks c.isPositive .loopTop))
  | .coalesceStart result => some (st.set thread (c.coalesceStart st.clocks result))
  | .coalesce result dequeues deadline =>
    some (st.set thread (c.coalesce result dequeues deadline answers))
  | .coalesceZero result dequeues deadline =>
    some (st.set thread (c.coalesceZero st.clocks result dequeues deadline))
  | .coalesceNext result dequeues deadline =>
    some (st.set thread (c.coalesceNext st.clocks result dequeues deadline answers.closing))
  | .wakeTaken event => some (st.reportWake thread c event answers)
  | .done => some (st.leave thread c)
  | .returned => none

def step (st : State) : Act → Option State
  | .advance clock by' => st.advance clock by'
  | .request event closing => some (st.request event closing)
  | .post posted => st.post posted
  | .begin thread request maxevents basicEvents => st.begin thread request maxevents basicEvents
  | .wait thread answers => st.wait thread answers

end State

end WepollEx.Wait
