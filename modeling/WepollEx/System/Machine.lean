import WepollEx.Port.Drain

/-!
# One port as a concurrent system

A port is shared by one waiter (the holder of `wait_lock`), any number of control threads, the
kernel that completes AFD requests and fires registered waits, and the thread that closes it.
Every critical section of `fd_table_lock` is one step.  The waiter's code between critical
sections is cut at each access to shared state, and a push onto the ready queue is cut in the
middle: a control thread first exchanges the queue's head and links its node only later, and until
then the node hides the end of the queue from the waiter's unlocked pop.
-/

namespace WepollEx

/-! ## The waiter -/

/-- The five places where `ep_port_wait_timeout_impl` drains the ready queue. -/
inductive DrainSite
  | beforeArm | armFailed | afterArm | afterDispatch | coalesce
  deriving DecidableEq, Repr

/-- What the waiter does next. -/
inductive WaitPc
  | idle
  | lockHeld
  | epochStored
  | activeStored
  | openingErrors
  | loopTop
  | drainPop (site : DrainSite)
  | drainLocked (site : DrainSite)
  | arm
  | armFailedErrors
  | checkDeferred
  | prepare (deferred : Bool)
  /-- Blocked in, or about to call, the completion dequeue. -/
  | dequeue (nonzero deferredWait : Bool)
  | timedOut (deferredWait : Bool)
  | dispatch
  | postErrorAfter
  | asyncErrorAfter
  | closingAfter
  | wakeAfter
  | expiry
  | coalesceDequeue
  | coalesceDispatch
  | storeCoalescing
  | storeActive
  | storeEpoch
  deriving DecidableEq, Repr

structure Waiter where
  pc : WaitPc
  maxevents : Nat
  /-- Records copied into the caller's array so far. -/
  out : List EventRecord
  /-- What the wait returns once it has decided: the count, or -1. -/
  result : Int
  /-- The timeout is zero, respectively infinite. -/
  zeroTimeout : Bool
  infinite : Bool

/-! ## Control threads -/

/-- A control call that has released the lock and still owes its packet. -/
inductive PendingPost
  /-- A wake request, whose pending state is already published. -/
  | wake
  /-- A MOD, rearm, class rearm or shutdown of registration `r` that made it ready. -/
  | ready (r : Nat)
  deriving DecidableEq, Repr

/-- A control thread inside `fd_table_lock`, between the two halves of its queue push. -/
structure HalfPush where
  post : Option PendingPost
  deriving DecidableEq, Repr

inductive ClosePhase
  | running | draining | finished | abandoned
  deriving DecidableEq, Repr

structure Sys where
  mem : Mem
  waiter : Waiter
  /-- The lock is held across a half-finished push. -/
  lock : Option HalfPush
  posts : List PendingPost
  phase : ClosePhase

/-- `ep_ready_pop_one` next to a half-finished push.  The last node is not linked yet, and the one
before it can be popped only if the stub stands between the two. -/
def popVisible (queue : List ReadyNode) (half stubBetween : Bool) :
    Option (ReadyNode × List ReadyNode) :=
  match queue with
  | [] => none
  | node :: rest =>
    if half && (rest.isEmpty || (rest.length == 1 && !stubBetween)) then none
    else some (node, rest)

/-! ## Creation -/

/-- `ep_port_create`. -/
def Port.create (lifetime : LifetimeMode) (explicitRearm udpProbeEvent : Bool) : Port where
  lifetime := lifetime
  explicitRearm := explicitRearm
  udpProbeEvent := udpProbeEvent
  fdTable := fun _ => none
  sockList := .empty
  rearmList := .empty
  oneshotList := .empty
  needsRearmCount := 0
  oneshotFiredCount := 0
  pendingPollCount := 0
  readyQueue := []
  drainNode := none
  iocp := []
  iocpEntries := []
  iocpPostHandle := true
  iocpClosed := false
  closing := false
  iocpPostError := 0
  iocpPostFailures := 0
  waiterActive := false
  waiterCoalescing := false
  activeWaitEpoch := 0
  nextWaitEpoch := 0
  wakePending := .none
  wakeEvent := (0, 0)
  asyncError := 0
  nextSockGeneration := 0
  generation := 0
  rearmWorkVisits := 0
  oneshotProbeVisits := 0
  staleEventsDropped := 0
  identityFailures := 0
  asynchronousErrors := 0
  tcpCurrentLevelProbes := 0
  tcpCurrentLevelFallbacks := 0
  afdInFlight := fun _ => false
  waitArmed := fun _ => false
  generationWrapped := false
  accountingViolated := false
  nextSerial := 0
  consumedCount := fun _ => 0
  freedCount := fun _ => 0
  history := []

def Waiter.create : Waiter := ⟨.idle, 0, [], 0, false, false⟩

def Sys.create (lifetime : LifetimeMode) (explicitRearm udpProbeEvent : Bool) : Sys where
  mem := ⟨fun _ => none, .create lifetime explicitRearm udpProbeEvent⟩
  waiter := .create
  lock := none
  posts := []
  phase := .running

/-! ## Steps of the waiter -/

/-- `GetQueuedCompletionStatusEx`, with the injected faults of its call sites. -/
inductive DequeueAnswer
  /-- The number of packets taken. -/
  | packets (n : Nat)
  | removedNone
  | timeout
  | error (e : Errno)
  | fault (e : Errno)
  deriving DecidableEq, Repr

/-- Answers to one step of the waiter. -/
structure WaitAnswers where
  /-- The stub of the ready queue stands before the last node. -/
  stubBetween : Bool
  arm : ArmAnswers
  drain : Nat → DrainAnswers
  completion : CompletionAnswers
  dequeue : DequeueAnswer
  /-- The wait's deadline has passed. -/
  expired : Bool
  /-- A finite wait has time left, respectively more than the deferred-rearm retry interval. -/
  timeLeft : Bool
  longTimeLeft : Bool
  /-- A budget of the coalescing loop is used up. -/
  budgetSpent : Bool
  asyncPost : Option Errno

def EP_IOCP_BATCH_SIZE : Nat := 64

namespace Sys

def goto (st : Sys) (pc : WaitPc) : Sys := { st with waiter := { st.waiter with pc := pc } }

def setPort (st : Sys) (p : Port) : Sys := { st with mem := { st.mem with port := p } }

/-- Decide the result and leave the loop. -/
def finish (st : Sys) (result : Int) : Sys :=
  { st with waiter := { st.waiter with pc := .storeCoalescing, result := result } }

/-- Leave the loop with the records collected so far. -/
def finishWithEvents (st : Sys) : Sys := st.finish st.waiter.out.length

def takePostError (st : Sys) : Errno × Sys :=
  let (e, p) := epPortTakeIocpPostError st.mem.port
  (e, st.setPort p)

/-- Return -1 on a failed post or a closing port, and go on otherwise. -/
def checkOpen (st : Sys) (pc : WaitPc) : Sys :=
  let (e, st) := st.takePostError
  if e ≠ 0 ∨ st.mem.port.closing then st.finish (-1) else st.goto pc

/-- `ep_port_take_wake`: the result of the wait if a wake was pending. -/
def takeWake (st : Sys) : Option Int × Sys :=
  match st.mem.port.wakePending with
  | .none => (none, st)
  | .untagged => (some 0, st.setPort { st.mem.port with wakePending := .none })
  | .tagged => (some 1, st.setPort { st.mem.port with wakePending := .none })

/-- The continuation after a drain that copied `n` records. -/
def afterDrain (st : Sys) (site : DrainSite) (n : Nat) (answers : WaitAnswers) : Sys :=
  match site with
  | .beforeArm => if n > 0 then st.goto .coalesceDequeue else st.goto .arm
  | .armFailed => if n > 0 then st.finishWithEvents else st.goto .armFailedErrors
  | .afterArm => if n > 0 then st.goto .coalesceDequeue else st.goto .checkDeferred
  | .afterDispatch => if n > 0 then st.goto .coalesceDequeue else st.goto .postErrorAfter
  | .coalesce =>
    if answers.budgetSpent ∨ st.mem.port.closing then st.finishWithEvents
    else st.goto .coalesceDequeue

/-- The unlocked first pop of a drain. -/
def drainPop (st : Sys) (site : DrainSite) (answers : WaitAnswers) : Sys :=
  match popVisible st.mem.port.readyQueue st.lock.isSome answers.stubBetween with
  | none => st.afterDrain site 0 answers
  | some (node, rest) =>
    (st.setPort { st.mem.port with readyQueue := rest, drainNode := some node }).goto
      (.drainLocked site)

def drainLocked (st : Sys) (site : DrainSite) (answers : WaitAnswers) : Sys :=
  let (records, m) := epDrainToBufferLocked answers.drain
    (st.waiter.maxevents - st.waiter.out.length) st.mem
  ({ st with
    mem := m
    waiter := { st.waiter with out := st.waiter.out ++ records } } : Sys).afterDrain
      site records.length answers

/-- Take the async error, or run an arm pass when there is none. -/
def arm (st : Sys) (answers : WaitAnswers) : Option Sys :=
  let (e, p) := epPortTakeAsyncErrorLocked st.mem.port
  let st := st.setPort p
  if e ≠ 0 then some (st.finish (-1))
  else match epPortArmPendingLocked answers.arm st.mem with
    | none => none
    | some (e, m) =>
      let st := { st with mem := m }
      some (if e ≠ 0 then st.goto (.drainPop .armFailed) else st.goto (.drainPop .afterArm))

/-- Choose the dequeue timeout.  A pending wake turns it into a poll. -/
def prepare (st : Sys) (deferred : Bool) (answers : WaitAnswers) : Sys :=
  let w := st.waiter
  if !w.infinite ∧ !w.zeroTimeout ∧ answers.expired then st.finish 0
  else
    let deferredWait := deferred && (w.infinite || (!w.zeroTimeout && answers.longTimeLeft))
    let nonzero := w.infinite || deferredWait || (!w.zeroTimeout && answers.timeLeft)
    if st.mem.port.wakePending ≠ .none then st.goto (.dequeue false false)
    else st.goto (.dequeue nonzero deferredWait)

/-- Move `n` packets from the completion port to the waiter's batch. -/
def takePackets (st : Sys) (n : Nat) (pc : WaitPc) : Option Sys :=
  let p := st.mem.port
  if 0 < n ∧ n ≤ p.iocp.length ∧ n ≤ EP_IOCP_BATCH_SIZE ∧ !p.iocpClosed then
    some ((st.setPort { p with
      iocp := p.iocp.drop n, iocpEntries := p.iocp.take n }).goto pc)
  else none

def dequeue (st : Sys) (deferredWait : Bool) (answers : WaitAnswers) : Option Sys :=
  match answers.dequeue with
  | .fault _ => some (st.finish (-1))
  | .packets n => st.takePackets n .dispatch
  | .removedNone => some (st.goto (.timedOut false))
  | .timeout =>
    let (e, st) := st.takePostError
    some (if e ≠ 0 then st.finish (-1) else st.goto (.timedOut deferredWait))
  | .error _ =>
    let (_, st) := st.takePostError
    some (st.finish (-1))

def timedOut (st : Sys) (deferredWait : Bool) (answers : WaitAnswers) : Option Sys :=
  match st.takeWake with
  | (some r, st) => some (st.finish r)
  | (none, st) =>
    if deferredWait then
      if st.lock.isSome then none
      else some (({ st with mem := epPortReleaseDeferredRearmsLocked st.mem } : Sys).goto .loopTop)
    else if answers.expired ∧ !st.waiter.infinite then some (st.finish 0)
    else some (st.goto .loopTop)

/-- Dispatch the oldest packet of the batch, or go on when the batch is done. -/
def dispatch (st : Sys) (next : WaitPc) (answers : WaitAnswers) : Sys :=
  match st.mem.port.iocpEntries with
  | [] => st.goto next
  | packet :: rest =>
    let m := { st.mem with port := { st.mem.port with iocpEntries := rest } }
    { st with mem := epPortDispatchIocpEntry answers.completion packet m }

def coalesceDequeue (st : Sys) (answers : WaitAnswers) : Option Sys :=
  if st.waiter.maxevents > EP_WAIT_COALESCE_THRESHOLD ∧
      st.waiter.out.length < st.waiter.maxevents ∧ !answers.budgetSpent then
    let failed (e : Errno) : Option Sys :=
      if st.lock.isSome then none
      else some (st.setPort
        (epPortRecordAsyncErrorLocked st.mem.port answers.asyncPost e)).finishWithEvents
    match answers.dequeue with
    | .fault e => failed e
    | .error e => failed e
    | .timeout => some st.finishWithEvents
    | .removedNone => some st.finishWithEvents
    | .packets n => st.takePackets n .coalesceDispatch
  else some st.finishWithEvents

/-- The oldest packet of the batch is a registration's. -/
def dispatchesStatus (st : Sys) : Bool :=
  match st.mem.port.iocpEntries with
  | .status _ :: _ => true
  | _ => false

/-- The waiter's next step takes `fd_table_lock`. -/
def needsLock (st : Sys) : Bool :=
  match st.waiter.pc with
  | .openingErrors => true
  | .drainLocked _ => true
  | .arm => true
  | .armFailedErrors => true
  | .checkDeferred => true
  | .asyncErrorAfter => true
  | .dispatch => st.dispatchesStatus
  | .coalesceDispatch => st.dispatchesStatus
  | _ => false

/-- One step of the waiter. -/
def waiterStep (st : Sys) (answers : WaitAnswers) : Option Sys :=
  let p := st.mem.port
  if st.needsLock ∧ st.lock.isSome then none
  else match st.waiter.pc with
    | .idle => none
    | .lockHeld =>
      let epoch := if (p.nextWaitEpoch + 1) % 2 ^ 64 = 0 then 1 else (p.nextWaitEpoch + 1) % 2 ^ 64
      some ((st.setPort { p with nextWaitEpoch := epoch, activeWaitEpoch := epoch }).goto
        .epochStored)
    | .epochStored => some ((st.setPort { p with waiterActive := true }).goto .activeStored)
    | .activeStored => some (st.checkOpen .openingErrors)
    | .openingErrors =>
      let m := epPortReleaseDeferredRearmsLocked st.mem
      let (e, p) := epPortTakeAsyncErrorLocked m.port
      let st := { st with mem := { m with port := p } }
      some (if e ≠ 0 then st.finish (-1) else st.goto .loopTop)
    | .loopTop => some (st.checkOpen (.drainPop .beforeArm))
    | .drainPop site => some (st.drainPop site answers)
    | .drainLocked site => some (st.drainLocked site answers)
    | .arm => st.arm answers
    | .armFailedErrors =>
      let (_, st) := st.takePostError
      let (_, p) := epPortTakeAsyncErrorLocked st.mem.port
      some ((st.setPort p).finish (-1))
    | .checkDeferred => some (st.goto (.prepare (epPortHasDeferredRearmLocked st.mem)))
    | .prepare deferred => some (st.prepare deferred answers)
    | .dequeue _ deferredWait => st.dequeue deferredWait answers
    | .timedOut deferredWait => st.timedOut deferredWait answers
    | .dispatch => some (st.dispatch (.drainPop .afterDispatch) answers)
    | .postErrorAfter =>
      let (e, st) := st.takePostError
      some (if e ≠ 0 then st.finish (-1) else st.goto .asyncErrorAfter)
    | .asyncErrorAfter =>
      let (e, p) := epPortTakeAsyncErrorLocked p
      let st := st.setPort p
      some (if e ≠ 0 then st.finish (-1) else st.goto .closingAfter)
    | .closingAfter => some (st.checkOpen .wakeAfter)
    | .wakeAfter =>
      match st.takeWake with
      | (some r, st) => some (st.finish r)
      | (none, st) => some (st.goto .expiry)
    | .expiry =>
      some (if answers.expired ∧ !st.waiter.infinite then st.finish 0 else st.goto .loopTop)
    | .coalesceDequeue => st.coalesceDequeue answers
    | .coalesceDispatch => some (st.dispatch (.drainPop .coalesce) answers)
    | .storeCoalescing =>
      some ((st.setPort { p with waiterCoalescing := false }).goto .storeActive)
    | .storeActive => some ((st.setPort { p with waiterActive := false }).goto .storeEpoch)
    | .storeEpoch => some ((st.setPort { p with activeWaitEpoch := 0 }).goto .idle)

end Sys

/-! ## Steps of the other parties -/

/-- A public control call. -/
inductive ControlOp
  | add (alloc : AllocAnswers) (fd : Socket) (events : Events) (data : BitVec 64) (ctx : Nat)
  | mod (fd : Socket) (events : Events) (data : BitVec 64) (ctx : Nat)
  | del (fd : Socket)
  | rearm (fd : Socket)
  | rearmClasses (fd : Socket) (classes : Classes)
  | shutdown (fd : Socket) (how : ShutdownHow)

def ControlOp.fd : ControlOp → Socket
  | .add _ fd _ _ _ => fd
  | .mod fd _ _ _ => fd
  | .del fd => fd
  | .rearm fd => fd
  | .rearmClasses fd _ => fd
  | .shutdown fd _ => fd

def ControlOp.run (answers : ControlAnswers) (op : ControlOp) (m : Mem) : CtlResult × Mem :=
  match op with
  | .add alloc fd events data ctx => epollCtlAdd answers alloc fd events data ctx m
  | .mod fd events data ctx => epollCtlMod answers fd events data ctx m
  | .del fd => epPortUnregister answers fd m
  | .rearm fd => epPortRearm answers fd m
  | .rearmClasses fd classes => epPortRearmClasses answers fd classes m
  | .shutdown fd how => epPortShutdownSocket answers fd how m

/-- The allocator hands out storage that is not in use. -/
def ControlOp.allocatesFresh (op : ControlOp) (m : Mem) : Bool :=
  match op with
  | .add alloc _ _ _ _ =>
    match alloc.addr with
    | some a => (m.socks a).isNone
    | none => true
  | _ => true

/-- The serial number of the registration `fd` names. -/
def Mem.serialOf (m : Mem) (fd : Socket) : Nat :=
  match (m.port.fdTable fd).bind m.socks with
  | some s => s.serial
  | none => 0

/-- The registrations a walk over `sock_list` meets.  `nextSerial` bounds their number. -/
def sockWalk (p : Port) : Nat → Option Addr → List Addr
  | _, none => []
  | 0, some _ => []
  | fuel + 1, some a => a :: sockWalk p fuel (p.sockList.links.next a)

def Port.allSocks (p : Port) : List Addr := sockWalk p p.nextSerial p.sockList.head

/-- Run `f` on the registration at `a`. -/
def Mem.onSock (m : Mem) (a : Addr) (f : Cell → Cell) : Mem :=
  match m.socks a with
  | none => m
  | some s => m.put (f (m.cell a s))

/-- The first loop of `ep_port_destroy`. -/
def destroyDetach (answers : CancelAnswers) (c : Cell) : Cell :=
  let c := c.mapSock fun s => { s with deletePending := true, state := .deleted }
  let c := epSockSetNeedsRearmLocked c false
  let c := epSockSetOneshotFiredLocked c false
  (epSockCancelLocked answers c).2

/-- The locked part of `ep_port_destroy`. -/
def epPortDestroyLocked (answers : Addr → CancelAnswers) (m : Mem) : Mem :=
  let m := m.port.allSocks.foldl (fun m a => m.onSock a (destroyDetach (answers a))) m
  let m := { m with port := { m.port with fdTable := fun _ => none } }
  m.port.allSocks.foldl (fun m a => m.onSock a freeIfIdle) m

/-- Free every registration and empty the ready queue. -/
def epPortFinishDestroyLocked (m : Mem) : Mem :=
  let m := m.port.allSocks.foldl (fun m a => m.onSock a epSockFreeLocked) m
  { m with port := { m.port with readyQueue := [], iocpPostHandle := false, iocpClosed := true,
                                 iocp := [] } }

/-- `ep_port_begin_close`; a failed wake closes the completion port. -/
def epPortBeginClose (post : Option Errno) (p : Port) : Port :=
  if p.closing then p
  else
    let p := { p with closing := true }
    match epPortPostIocp p post .control with
    | (none, p) => p
    | (some _, p) => { p with iocpPostHandle := false, iocpClosed := true, iocp := [] }

/-- `ep_waitable_callback` and `ep_pipe_timer_callback`. -/
def auxCallback (post : Option Errno) (c : Cell) : Cell :=
  let c := c.mapPort fun p => { p with waitArmed := Function.update p.waitArmed c.addr false }
  let c := if epWaitableMayConsume c.sock then c.takeNotification else c
  (epAuxPostCompletion post STATUS_SUCCESS c).2

/-- The kernel completes the AFD request of a registration. -/
def afdComplete (status : NtStatus) (info : AfdInfo) (c : Cell) : Cell :=
  { c with
    sock := { c.sock with ioStatus := status, afdInfo := info }
    port := { c.port with
      afdInFlight := Function.update c.port.afdInFlight c.addr false
      iocp := if c.port.iocpClosed then c.port.iocp else c.port.iocp ++ [.status c.addr] } }

inductive Act
  /-- A control call runs its critical section up to the middle of its push, if it makes one. -/
  | control (op : ControlOp) (answers : ControlAnswers)
  /-- The control thread links its node and releases the lock. -/
  | unlock
  /-- A control thread posts the packet it owes. -/
  | post (i : Nat) (answer : Option Errno)
  | wake (event : Option (Events × BitVec 64))
  | waitBegin (maxevents : Nat) (zeroTimeout infinite : Bool)
  | waiter (answers : WaitAnswers)
  | afdComplete (a : Addr) (status : NtStatus) (info : AfdInfo)
  | auxFire (a : Addr) (post : Option Errno)
  | beginClose (post : Option Errno)
  | destroy (answers : Addr → CancelAnswers)
  | drainDequeue (n : Nat)
  | drainDispatch (answers : CompletionAnswers)
  | finishDestroy
  | abandon

namespace Sys

def control (st : Sys) (op : ControlOp) (answers : ControlAnswers) : Option Sys :=
  if st.phase ≠ .running ∨ st.lock.isSome ∨ !op.allocatesFresh st.mem then none
  else
    let (r, m) := op.run answers st.mem
    let owed : Option PendingPost :=
      if r = .ok true then some (.ready (m.serialOf op.fd)) else none
    let st' := { st with mem := m }
    if m.port.readyQueue.length > st.mem.port.readyQueue.length then
      some { st' with lock := some ⟨owed⟩ }
    else some { st' with posts := st.posts ++ owed.toList }

def unlock (st : Sys) : Option Sys :=
  match st.lock with
  | none => none
  | some half => some { st with lock := none, posts := st.posts ++ half.post.toList }

/-- Post the packet that the `i`-th control thread owes. -/
def post (st : Sys) (i : Nat) (answer : Option Errno) : Option Sys :=
  match st.posts[i]? with
  | none => none
  | some owed =>
    let posts := st.posts.eraseIdx i
    match epPortPostIocp st.mem.port answer .control with
    | (none, p) => some { st.setPort p with posts := posts }
    | (some e, p) =>
      let p :=
        match owed with
        | .wake => { p with wakePending := .none }
        | .ready r => p.record (.wakeFailed r)
      some { st.setPort (epPortFailIocpPost p e) with posts := posts }

/-- `ep_port_request_wake` up to its post. -/
def wake (st : Sys) (event : Option (Events × BitVec 64)) : Option Sys :=
  let p := st.mem.port
  if st.phase ≠ .running then none
  else if p.closing ∨ p.iocpClosed then some st
  else match p.wakePending, event with
    | .untagged, some e => some (st.setPort { p with wakeEvent := e, wakePending := .tagged })
    | .none, some e =>
      some { st.setPort { p with wakeEvent := e, wakePending := .tagged } with
        posts := st.posts ++ [.wake] }
    | .none, none =>
      some { st.setPort { p with wakePending := .untagged } with posts := st.posts ++ [.wake] }
    | _, _ => some st

/-- A wait call acquires `wait_lock`. -/
def waitBegin (st : Sys) (maxevents : Nat) (zeroTimeout infinite : Bool) : Option Sys :=
  if st.phase ≠ .running ∨ st.waiter.pc ≠ .idle ∨ maxevents = 0 then none
  else some { st with waiter := ⟨.lockHeld, maxevents, [], 0, zeroTimeout, infinite⟩ }

/-- Run `f` on a registration that the kernel still refers to. -/
def onKernelRef (st : Sys) (armed : Bool) (a : Addr) (f : Cell → Cell) : Option Sys :=
  match st.mem.socks a with
  | none => none
  | some s => if armed then some { st with mem := st.mem.put (f (st.mem.cell a s)) } else none

/-- `ep_port_destroy` once it holds `wait_lock`. -/
def destroy (st : Sys) (answers : Addr → CancelAnswers) : Option Sys :=
  if st.phase ≠ .running ∨ st.lock.isSome ∨ st.waiter.pc ≠ .idle ∨ !st.mem.port.closing ∨
      st.posts ≠ [] then none
  else some { st with mem := epPortDestroyLocked answers st.mem, phase := .draining }

def drainDequeue (st : Sys) (n : Nat) : Option Sys :=
  let p := st.mem.port
  if st.phase = .draining ∧ p.iocpEntries = [] ∧ 0 < n ∧ n ≤ p.iocp.length ∧
      n ≤ EP_IOCP_BATCH_SIZE ∧ !p.iocpClosed then
    some (st.setPort { p with iocp := p.iocp.drop n, iocpEntries := p.iocp.take n })
  else none

def drainDispatch (st : Sys) (answers : CompletionAnswers) : Option Sys :=
  match st.mem.port.iocpEntries with
  | [] => none
  | packet :: rest =>
    if st.phase = .draining then
      let m := { st.mem with port := { st.mem.port with iocpEntries := rest } }
      some { st with mem := epPortDispatchIocpEntry answers packet m }
    else none

def finishDestroy (st : Sys) : Option Sys :=
  if st.phase = .draining ∧ st.mem.port.iocpEntries = [] ∧ st.mem.port.pendingPollCount = 0 then
    some { st with mem := epPortFinishDestroyLocked st.mem, phase := .finished }
  else none

/-- `ep_port_abandon_locked`: the completion port is closed and the storage is leaked. -/
def abandon (st : Sys) : Option Sys :=
  if st.phase = .draining ∧ st.mem.port.iocpEntries = [] then
    some { st.setPort { st.mem.port with iocpPostHandle := false, iocpClosed := true, iocp := [] }
      with phase := .abandoned }
  else none

/-- One step of the system; `none` when the step is not possible. -/
def step (st : Sys) : Act → Option Sys
  | .control op answers => st.control op answers
  | .unlock => st.unlock
  | .post i answer => st.post i answer
  | .wake event => st.wake event
  | .waitBegin maxevents zeroTimeout infinite => st.waitBegin maxevents zeroTimeout infinite
  | .waiter answers => st.waiterStep answers
  | .afdComplete a status info =>
    st.onKernelRef (st.mem.port.afdInFlight a) a (WepollEx.afdComplete status info)
  | .auxFire a post => st.onKernelRef (st.mem.port.waitArmed a) a (auxCallback post)
  | .beginClose post => some (st.setPort (epPortBeginClose post st.mem.port))
  | .destroy answers => st.destroy answers
  | .drainDequeue n => st.drainDequeue n
  | .drainDispatch answers => st.drainDispatch answers
  | .finishDestroy => st.finishDestroy
  | .abandon => st.abandon

/-- Run a list of steps. -/
def run (st : Sys) : List Act → Option Sys
  | [] => some st
  | a :: as => (st.step a).bind fun st => st.run as

end Sys

/-- The states a port reaches from its creation. -/
inductive Reachable (start : Sys) : Sys → Prop
  | refl : Reachable start start
  | step {st st' : Sys} (a : Act) : Reachable start st → st.step a = some st' →
      Reachable start st'

end WepollEx
