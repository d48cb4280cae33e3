import WepollEx.Lib.Transition
import WepollEx.Port.State

/-!
# The edge mode of the nginx event module

`ngx_wepoll_module.c` keeps one duplex `EPOLLET` registration for every nginx connection.  An event
disarms the classes it reports; a class is rearmed when nginx has consumed the event.  Connections
whose classes wait for that are kept in a queue, and each call of `process_events` sweeps it.

Handlers run in the middle of `ngx_wepoll_process_events` and may call the module.  Its loop is cut
at the handlers, and what it still has to do is a frame on a stack.  The results of
`epoll_ctl_ctx`, `epoll_rearm_classes` and `epoll_wait_ex` are arguments; a `Bool` says that a call
succeeds.
-/

namespace WepollEx.Nginx

abbrev ConnId := Nat
/-- An index into `ngx_wepoll_states`. -/
abbrev StateId := Nat
abbrev RearmClasses := BitVec 32

def WEPOLL_EX_REARM_READ : RearmClasses := 1
def WEPOLL_EX_REARM_WRITE : RearmClasses := 2
def WEPOLL_EX_REARM_TERMINAL : RearmClasses := 4
def WEPOLL_EX_REARM_ALL : RearmClasses :=
  WEPOLL_EX_REARM_READ ||| WEPOLL_EX_REARM_WRITE ||| WEPOLL_EX_REARM_TERMINAL

/-- `NGX_READ_EVENT` or `NGX_WRITE_EVENT`. -/
inductive Direction
  | read | write
  deriving DecidableEq, Repr

/-- `ngx_wepoll_class_for_event`. -/
def classForEvent : Direction → RearmClasses
  | .read => WEPOLL_EX_REARM_READ
  | .write => WEPOLL_EX_REARM_WRITE

def bothClasses : RearmClasses := WEPOLL_EX_REARM_READ ||| WEPOLL_EX_REARM_WRITE

/-- The mask has the class of `d`. -/
def Has (mask : RearmClasses) (d : Direction) : Bool := mask &&& classForEvent d != 0

/-- `ngx_event_t`. -/
structure Event where
  active : Bool
  ready : Bool
  posted : Bool
  closed : Bool
  accept : Bool
  pendingEof : Bool
  inst : Bool
  deriving DecidableEq, Repr

/-- `ngx_connection_t`; a descriptor of -1 is none. -/
structure Connection where
  fd : Int
  read : Event
  write : Event
  deriving DecidableEq, Repr

def Connection.event (c : Connection) : Direction → Event
  | .read => c.read
  | .write => c.write

def Connection.modify (c : Connection) (f : Event → Event) : Direction → Connection
  | .read => { c with read := f c.read }
  | .write => { c with write := f c.write }

/-- `ngx_wepoll_connection_state_t`. -/
structure ConnectionState where
  connection : Option ConnId
  fd : Int
  inst : Bool
  interests : RearmClasses
  disarmed : RearmClasses
  pending : RearmClasses
  registered : Bool
  queued : Bool
  deriving DecidableEq, Repr

/-- After `ngx_memzero`. -/
def ConnectionState.zero : ConnectionState := ⟨none, 0, false, 0, 0, 0, false, false⟩

/-- `epoll_event_ex`; the pointer in `data` is a connection and its instance bit. -/
structure Record where
  events : Events
  connection : ConnId
  inst : Bool
  userCtx : Option StateId
  deriving DecidableEq, Repr

/-- The variables of the module and nginx's connections. -/
structure Adapter where
  connections : ConnId → Connection
  states : StateId → ConnectionState
  stateCount : Nat
  /-- `ngx_wepoll_pending_states` up to `ngx_wepoll_pending_count`. -/
  pendingStates : List StateId
  /-- `ngx_wepoll_events`. -/
  events : Nat → Record
  /-- The overflow of the queue has been logged. -/
  overflowLogged : Bool

namespace Adapter

def modifyState (m : Adapter) (s : StateId) (f : ConnectionState → ConnectionState) : Adapter :=
  { m with states := Function.update m.states s (f (m.states s)) }

def modifyEvent (m : Adapter) (c : ConnId) (d : Direction) (f : Event → Event) : Adapter :=
  { m with connections := Function.update m.connections c ((m.connections c).modify f d) }

/-- `ngx_wepoll_state_for_connection`. -/
def stateForConnection (m : Adapter) (c : ConnId) : Option StateId :=
  if c < m.stateCount then some c else none

/-- `ngx_wepoll_reset_state`. -/
def resetState (m : Adapter) (s : StateId) (c : ConnId) : Adapter :=
  m.modifyState s fun st => { ConnectionState.zero with
    queued := st.queued
    connection := some c
    fd := (m.connections c).fd
    inst := (m.connections c).read.inst }

/-- `ngx_wepoll_prepare_state`. -/
def prepareState (m : Adapter) (c : ConnId) : Option (StateId × Adapter) :=
  match m.stateForConnection c with
  | none => none
  | some s =>
    let st := m.states s
    if st.registered then
      if st.connection ≠ some c || st.fd ≠ (m.connections c).fd ||
          st.inst != (m.connections c).read.inst then none
      else some (s, m)
    else some (s, m.resetState s c)

/-- `ngx_wepoll_state_is_current`. -/
def stateIsCurrent (m : Adapter) (s : StateId) : Bool :=
  let st := m.states s
  st.registered &&
    match st.connection with
    | none => false
    | some c => (m.connections c).fd != -1 && (m.connections c).fd == st.fd &&
      (m.connections c).read.inst == st.inst && m.stateForConnection c == some s

/-- `ngx_wepoll_unbind_state`. -/
def unbindState (m : Adapter) (s : StateId) : Adapter :=
  m.modifyState s fun st => { ConnectionState.zero with queued := st.queued, fd := -1 }

/-- `ngx_wepoll_register_edge_connection`. -/
def registerEdgeConnection (ctl : Bool) (m : Adapter) (s : StateId) : Bool × Adapter :=
  if ctl then
    (true, m.modifyState s fun st => { st with registered := true, disarmed := 0, pending := 0 })
  else (false, m)

/-- `ngx_wepoll_queue_pending_state`. -/
def queuePendingState (m : Adapter) (s : StateId) : Adapter :=
  if (m.states s).pending = 0 || (m.states s).queued then m
  else if m.pendingStates.length ≥ m.stateCount then { m with overflowLogged := true }
  else
    ({ m with pendingStates := m.pendingStates ++ [s] } : Adapter).modifyState s fun st =>
      { st with queued := true }

/-- The event of an interested direction is active again when its class has been rearmed. -/
def activate (m : Adapter) (s : StateId) (classes : RearmClasses) (d : Direction) : Adapter :=
  match (m.states s).connection with
  | some c =>
    if Has classes d && Has (m.states s).interests d then
      m.modifyEvent c d fun ev => { ev with active := true }
    else m
  | none => m

/-- `ngx_wepoll_rearm_classes`. -/
def rearmClasses (rearm : Bool) (m : Adapter) (s : StateId) (classes : RearmClasses) :
    Bool × Adapter :=
  if classes = 0 then (true, m)
  else if !rearm then (false, m)
  else
    let m := m.modifyState s fun st =>
      { st with disarmed := st.disarmed &&& ~~~classes, pending := st.pending &&& ~~~classes }
    (true, (m.activate s classes .read).activate s classes .write)

/-- The part of `ngx_wepoll_rearm_ready_state` for one direction: a class that is not wanted any
more is dropped, and one whose event has been consumed is added to `classes`. -/
def collect (m : Adapter) (s : StateId) (c : ConnId) (classes : RearmClasses) (d : Direction) :
    RearmClasses × Adapter :=
  let ev := (m.connections c).event d
  if Has (m.states s).pending d then
    if !Has (m.states s).interests d || ev.closed then
      (classes, m.modifyState s fun st => { st with pending := st.pending &&& ~~~classForEvent d })
    else if !ev.posted && !ev.ready then (classes ||| classForEvent d, m)
    else (classes, m)
  else (classes, m)

/-- `ngx_wepoll_rearm_ready_state`. -/
def rearmReadyState (rearm : Bool) (m : Adapter) (s : StateId) : Bool × Adapter :=
  match m.stateIsCurrent s, (m.states s).connection with
  | true, some c =>
    let (classes, m) := m.collect s c 0 .read
    let (classes, m) := m.collect s c classes .write
    m.rearmClasses rearm s classes
  | _, _ => (true, m.modifyState s fun st => { st with pending := 0 })

/-- The loop of `ngx_wepoll_sweep_pending_states`; the states that stay in the queue are returned. -/
def sweepLoop (rearm : Nat → Bool) : List StateId → Adapter → Bool × List StateId × Adapter
  | [], m => (true, [], m)
  | s :: rest, m =>
    let (ok, m) := m.rearmReadyState (rearm rest.length) s
    if (m.states s).pending ≠ 0 && m.stateIsCurrent s then
      let (oks, kept, m) := sweepLoop rearm rest m
      (ok && oks, s :: kept, m)
    else
      let (oks, kept, m) :=
        sweepLoop rearm rest (m.modifyState s fun st => { st with queued := false })
      (ok && oks, kept, m)

/-- `ngx_wepoll_sweep_pending_states`. -/
def sweepPendingStates (rearm : Nat → Bool) (m : Adapter) : Bool × Adapter :=
  let (ok, kept, m) := sweepLoop rearm m.pendingStates m
  (ok, { m with pendingStates := kept })

/-! ## The callbacks -/

/-- The state of a connection, registered if it was not. -/
def registered (ctl : Bool) (m : Adapter) (c : ConnId) : Except Adapter (StateId × Adapter) :=
  match m.prepareState c with
  | none => .error m
  | some (s, m) =>
    if (m.states s).registered then .ok (s, m)
    else
      match m.registerEdgeConnection ctl s with
      | (false, m) => .error m
      | (true, m) => .ok (s, m)

/-- The class of `d` joins the interests, and is rearmed if it is disarmed; if that fails the
interests are put back. -/
def want (rearm : Bool) (m : Adapter) (s : StateId) (d : Direction) : Bool × Adapter :=
  let previousInterests := (m.states s).interests
  let m := m.modifyState s fun st => { st with interests := st.interests ||| classForEvent d }
  let (ok, m) :=
    if Has (m.states s).disarmed d then m.rearmClasses rearm s (classForEvent d) else (true, m)
  if ok then
    (true, m.modifyState s fun st => { st with pending := st.pending &&& ~~~classForEvent d })
  else (false, m.modifyState s fun st => { st with interests := previousInterests })

/-- `ngx_wepoll_edge_add_event` for the event of `c` in the direction `d`. -/
def edgeAddEvent (ctl rearm : Bool) (m : Adapter) (c : Option ConnId) (d : Direction) :
    Bool × Adapter :=
  match c with
  | none => (false, m)
  | some c =>
    if (m.connections c).fd = -1 then (false, m)
    else
      match m.registered ctl c with
      | .error m => (false, m)
      | .ok (s, m) =>
        match m.want rearm s d with
        | (false, m) => (false, m)
        | (true, m) => (true, m.modifyEvent c d fun ev => { ev with active := true })

/-- Both classes join the interests. -/
def wantBoth (m : Adapter) (s : StateId) : Adapter :=
  m.modifyState s fun st => { st with interests := st.interests ||| bothClasses }

/-- `ngx_wepoll_add_connection`. -/
def addConnection (ctl rearm : Bool) (m : Adapter) (c : ConnId) : Bool × Adapter :=
  match m.registered ctl c with
  | .error m => (false, m)
  | .ok (s, m) =>
    let m := m.wantBoth s
    match m.rearmClasses rearm s ((m.states s).disarmed &&& bothClasses) with
    | (false, m) => (false, m)
    | (true, m) =>
      (true, (m.modifyEvent c .read fun ev => { ev with active := true }).modifyEvent c .write
        fun ev => { ev with active := true })

/-- `ngx_wepoll_del_connection`; `del` is the error of `EPOLL_CTL_DEL`. -/
def delConnection (del : Option Errno) (m : Adapter) (c : ConnId) : Bool × Adapter :=
  let state := m.stateForConnection c
  let bound := state.any fun s => (m.states s).registered && (m.states s).connection == some c
  let failed := bound && (m.connections c).fd != -1 &&
    del.any fun e => e ≠ EBADF && e ≠ ENOENT && e ≠ ENOTSOCK
  let m := (m.modifyEvent c .read fun ev => { ev with active := false }).modifyEvent c .write
    fun ev => { ev with active := false }
  match state with
  | none => (!failed, m)
  | some s => (!failed, m.unbindState s)

/-- `ngx_wepoll_edge_del_event`; `close` is `NGX_CLOSE_EVENT`. -/
def edgeDelEvent (del : Option Errno) (m : Adapter) (c : Option ConnId) (d : Direction)
    (close : Bool) : Bool × Adapter :=
  match c with
  | none => (true, m)
  | some c =>
    if close then m.delConnection del c
    else
      let m :=
        match m.stateForConnection c with
        | none => m
        | some s =>
          if (m.states s).registered && (m.states s).connection == some c then
            m.modifyState s fun st => { st with
              interests := st.interests &&& ~~~classForEvent d
              pending := st.pending &&& ~~~classForEvent d }
          else m
      (true, m.modifyEvent c d fun ev => { ev with active := false })

end Adapter

/-! ## The loop over the events -/

/-- The directions that an event reports. -/
def isReady (revents : Events) : Direction → Bool
  | .read => revents &&& (EPOLLERR ||| EPOLLHUP) != 0 ||
    revents &&& (EPOLLIN ||| EPOLLPRI ||| EPOLLRDNORM ||| EPOLLRDBAND ||| EPOLLRDHUP) != 0
  | .write => revents &&& (EPOLLERR ||| EPOLLHUP) != 0 ||
    revents &&& (EPOLLOUT ||| EPOLLWRNORM ||| EPOLLWRBAND) != 0

/-- The classes that an event disarms. -/
def delivered (revents : Events) : RearmClasses :=
  if revents &&& (EPOLLERR ||| EPOLLHUP) != 0 then WEPOLL_EX_REARM_ALL
  else
    (if isReady revents .read then WEPOLL_EX_REARM_READ else 0) |||
      (if isReady revents .write then WEPOLL_EX_REARM_WRITE else 0)

namespace Adapter

/-- The event is dispatched to the handler of `d`. -/
def dispatches (m : Adapter) (s : StateId) (revents : Events) (d : Direction) : Bool :=
  isReady revents d && Has (m.states s).interests d

/-- A dispatched class waits for its rearm; the event of an accepting connection stays active. -/
def await (m : Adapter) (s : StateId) (c : ConnId) (dispatch : Bool) (d : Direction) : Adapter :=
  if dispatch then
    (m.modifyState s fun st => { st with pending := st.pending ||| classForEvent d }).modifyEvent
      c d fun ev => if d = .read && ev.accept then ev else { ev with active := false }
  else m

/-- What the loop does to the masks of a state for an event, up to the queue. -/
def deliver (m : Adapter) (s : StateId) (c : ConnId) (revents : Events) : Adapter :=
  let m := m.modifyState s fun st => { st with disarmed := st.disarmed ||| delivered revents }
  let readDispatch := m.dispatches s revents .read
  let writeDispatch := m.dispatches s revents .write
  ((m.await s c readDispatch .read).await s c writeDispatch .write).queuePendingState s

end Adapter

/-- Where the loop of `ngx_wepoll_process_events` stands in an iteration, with its variables. -/
inductive Point
  | record
  | write (s : StateId) (c : ConnId) (writeDispatch : Bool)
  | finish (s : StateId)
  deriving DecidableEq, Repr

/-- A call of `ngx_wepoll_process_events` in its loop; `handling` says that it waits for a handler
to return. -/
structure Frame where
  events : Nat
  i : Nat
  postEvents : Bool
  result : Bool
  point : Point
  handling : Bool
  deriving DecidableEq, Repr

/-- Hand the event to nginx: post it, or call the handler if there is one. -/
def dispatch (m : Adapter) (f : Frame) (c : ConnId) (d : Direction) (handler : Bool)
    (set : Event → Event) : Bool × Adapter :=
  let m := m.modifyEvent c d set
  if f.postEvents then (false, m.modifyEvent c d fun ev => { ev with posted := true })
  else (handler, m)

/-- The loop up to the next handler or the next part of an iteration; without a frame the call has
returned. -/
def advance (handler rearm : Bool) (m : Adapter) (f : Frame) : Option Frame × Adapter :=
  match f.point with
  | .record =>
    if f.i < f.events then
      let r := m.events f.i
      match r.userCtx with
      | none => (some { f with i := f.i + 1, handling := false }, m)
      | some s =>
        if !m.stateIsCurrent s || (m.states s).connection ≠ some r.connection ||
            (m.states s).inst != r.inst then
          (some { f with i := f.i + 1, handling := false }, m)
        else
          let readDispatch := m.dispatches s r.events .read
          let writeDispatch := m.dispatches s r.events .write
          let m := m.deliver s r.connection r.events
          let (handling, m) :=
            if readDispatch then
              dispatch m f r.connection .read handler fun ev =>
                { ev with
                  ready := true
                  pendingEof := ev.pendingEof || r.events &&& EPOLLRDHUP != 0 }
            else (false, m)
          (some { f with point := .write s r.connection writeDispatch, handling := handling }, m)
    else (none, m)
  | .write s c writeDispatch =>
    let (handling, m) :=
      if writeDispatch && m.stateIsCurrent s && Has (m.states s).interests .write then
        dispatch m f c .write handler fun ev => { ev with ready := true }
      else (false, m)
    (some { f with point := .finish s, handling := handling }, m)
  | .finish s =>
    let (ok, m) := if m.stateIsCurrent s then m.rearmReadyState rearm s else (true, m)
    (some { f with i := f.i + 1, point := .record, result := f.result && ok, handling := false }, m)

/-- `ngx_wepoll_process_events` up to its loop. -/
def processEvents (rearm : Nat → Bool) (wait : Except Errno (List Record)) (postEvents : Bool)
    (m : Adapter) : Option Frame × Adapter :=
  let (result, m) := m.sweepPendingStates rearm
  match wait with
  | .error _ => (none, m)
  | .ok records =>
    let m := { m with events := fun i => records.getD i (m.events i) }
    (some ⟨records.length, 0, postEvents, result, .record, false⟩, m)

/-! ## Runs -/

structure Sys where
  adapter : Adapter
  frames : List Frame

/-- nginx runs: no call of the module is in progress, or the last one waits for a handler. -/
def Sys.Yields (sys : Sys) : Bool := sys.frames.head?.all Frame.handling

inductive Act
  | addEvent (ctl rearm : Bool) (c : Option ConnId) (d : Direction)
  | delEvent (del : Option Errno) (c : Option ConnId) (d : Direction) (close : Bool)
  | addConnection (ctl rearm : Bool) (c : ConnId)
  | delConnection (del : Option Errno) (c : ConnId)
  | processEvents (rearm : Nat → Bool) (wait : Except Errno (List Record)) (postEvents : Bool)
  /-- The loop goes on; its handler, if it waits for one, has returned. -/
  | advance (handler rearm : Bool)
  /-- nginx posts an event, takes it from the posted events, or consumes or finds readiness. -/
  | touch (c : ConnId) (d : Direction) (ready posted : Bool)
  /-- nginx marks an event as closed. -/
  | shut (c : ConnId) (d : Direction)
  /-- nginx closes the descriptor of a connection. -/
  | close (c : ConnId)
  /-- nginx uses a connection for another descriptor; the instance bit changes. -/
  | recycle (c : ConnId) (fd : Int) (accept : Bool)

/-- A connection as `ngx_get_connection` leaves it. -/
def Connection.recycled (c : Connection) (fd : Int) (accept : Bool) : Connection where
  fd := fd
  read := ⟨false, false, false, false, accept, false, !c.read.inst⟩
  write := ⟨false, false, false, false, false, false, !c.write.inst⟩

/-- The identity that the connection gets is not the one under which its state is registered. -/
def Adapter.Fresh (m : Adapter) (c : ConnId) (fd : Int) : Bool :=
  let st := m.states c
  !(st.registered && st.fd == fd && st.inst == !(m.connections c).read.inst)

def Sys.step (sys : Sys) : Act → Option Sys
  | .addEvent ctl rearm c d =>
    if sys.Yields then some { sys with adapter := (sys.adapter.edgeAddEvent ctl rearm c d).2 }
    else none
  | .delEvent del c d close =>
    if sys.Yields then some { sys with adapter := (sys.adapter.edgeDelEvent del c d close).2 }
    else none
  | .addConnection ctl rearm c =>
    if sys.Yields then some { sys with adapter := (sys.adapter.addConnection ctl rearm c).2 }
    else none
  | .delConnection del c =>
    if sys.Yields then some { sys with adapter := (sys.adapter.delConnection del c).2 } else none
  | .processEvents rearm wait postEvents =>
    if sys.Yields then
      let (frame, m) := Nginx.processEvents rearm wait postEvents sys.adapter
      some ⟨m, frame.toList ++ sys.frames⟩
    else none
  | .advance handler rearm =>
    match sys.frames with
    | [] => none
    | f :: fs =>
      let (frame, m) := Nginx.advance handler rearm sys.adapter f
      some ⟨m, frame.toList ++ fs⟩
  | .touch c d ready posted =>
    if sys.Yields then
      some { sys with adapter := sys.adapter.modifyEvent c d fun ev =>
        { ev with ready := ready, posted := posted } }
    else none
  | .shut c d =>
    if sys.Yields then
      some { sys with adapter := sys.adapter.modifyEvent c d fun ev => { ev with closed := true } }
    else none
  | .close c =>
    if sys.Yields then
      some { sys with adapter := { sys.adapter with
        connections := Function.update sys.adapter.connections c
          { sys.adapter.connections c with fd := -1 } } }
    else none
  | .recycle c fd accept =>
    if sys.Yields && sys.adapter.Fresh c fd then
      some { sys with adapter := { sys.adapter with
        connections := Function.update sys.adapter.connections c
          ((sys.adapter.connections c).recycled fd accept) } }
    else none

/-- After `ngx_wepoll_init` for a cycle with `n` connections. -/
def Sys.start (n : Nat) (connections : ConnId → Connection) : Sys where
  adapter := ⟨connections, fun _ => .zero, n, [], fun _ => ⟨0, 0, false, none⟩, false⟩
  frames := []

end WepollEx.Nginx
