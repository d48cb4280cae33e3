import WepollEx.Nginx.Adapter

/-!
# The level mode of the nginx event module

In level mode a connection has one registration, with the events of its active directions.  The two
callbacks choose between ADD, MOD and DEL by the flag of the other direction, so they rely on the
flags to say what is registered.  They touch only the connection of their event: the state is one
connection with what is registered under its descriptor.  `epoll_ctl` fails by itself when the
registered set forbids the operation; any other failure is an argument.
-/

namespace WepollEx.Nginx

open Transition

/-- `ngx_wepoll_mask_for_event`. -/
def maskForEvent : Direction → Events
  | .read => EPOLLIN ||| EPOLLRDHUP
  | .write => EPOLLOUT

def Direction.other : Direction → Direction
  | .read => .write
  | .write => .read

structure Level where
  connection : Connection
  /-- The registered events and the instance bit in the registered data. -/
  registered : Option (Events × Bool)

namespace Level

def setActive (m : Level) (active : Bool) (d : Direction) : Level :=
  { m with connection := m.connection.modify (fun ev => { ev with active := active }) d }

/-- `EPOLL_CTL_MOD` or `EPOLL_CTL_ADD` with the events `mask`. -/
def ctlSet (m : Level) (mod : Bool) (mask : Events) (error : Option Errno) : Except Errno Level :=
  if mod && m.registered.isNone then .error ENOENT
  else if !mod && m.registered.isSome then .error EEXIST
  else match error with
    | some e => .error e
    | none => .ok { m with registered := some (mask, m.connection.read.inst) }

def ctlDel (m : Level) (error : Option Errno) : Except Errno Level :=
  if m.registered.isNone then .error ENOENT
  else match error with
    | some e => .error e
    | none => .ok { m with registered := none }

/-- `ngx_wepoll_level_add_event`. -/
def levelAddEvent (error : Option Errno) (m : Level) (d : Direction) : Bool × Level :=
  if m.connection.fd = -1 then (false, m)
  else
    let other := (m.connection.event d.other).active
    let mask := if other then maskForEvent d ||| maskForEvent d.other else maskForEvent d
    match m.ctlSet other mask error with
    | .error _ => (false, m)
    | .ok m => (true, m.setActive true d)

/-- The errors of a descriptor that is not registered. -/
def unregistered (e : Errno) : Bool := e = EBADF || e = ENOENT || e = ENOTSOCK

/-- `ngx_wepoll_level_del_event`; `close` is `NGX_CLOSE_EVENT`. -/
def levelDelEvent (error : Option Errno) (m : Level) (d : Direction) (close : Bool) :
    Bool × Level :=
  let clear (m : Level) : Level := (m.setActive false d).setActive false d.other
  if close then
    if m.connection.fd = -1 then (true, clear m)
    else match m.ctlDel error with
      | .ok m => (true, clear m)
      | .error e => (unregistered e, clear m)
  else
    let other := (m.connection.event d.other).active
    let result := if other then m.ctlSet true (maskForEvent d.other) error else m.ctlDel error
    match result with
    | .ok m => (true, m.setActive false d)
    | .error e => if unregistered e then (true, clear m) else (false, m)

inductive Act
  | addEvent (error : Option Errno) (d : Direction)
  | delEvent (error : Option Errno) (d : Direction) (close : Bool)
  /-- nginx closes the descriptor, which ends its registration. -/
  | close
  /-- nginx uses the connection for another descriptor; the instance bit changes. -/
  | recycle (fd : Int) (accept : Bool)

def step (m : Level) : Act → Option Level
  | .addEvent error d => some (m.levelAddEvent error d).2
  | .delEvent error d close => some (m.levelDelEvent error d close).2
  | .close => some ⟨{ m.connection with fd := -1 }, none⟩
  | .recycle fd accept =>
    if m.connection.fd = -1 then some { m with connection := m.connection.recycled fd accept }
    else none

/-- The events of the active directions. -/
def activeMask (c : Connection) : Events :=
  (if c.read.active then maskForEvent .read else 0) |||
    (if c.write.active then maskForEvent .write else 0)

/-- While a direction is active, exactly the active directions are registered. -/
def Exact (m : Level) : Prop :=
  m.connection.fd ≠ -1 → ∀ d, (m.connection.event d).active = true →
    m.registered = some (activeMask m.connection, m.connection.read.inst)

section

variable {m m' : Level} {d : Direction} {error : Option Errno}

theorem ctlSet_ok {mod : Bool} {mask : Events} (h : m.ctlSet mod mask error = .ok m') :
    m' = { m with registered := some (mask, m.connection.read.inst) } := by
  unfold ctlSet at h
  split at h
  · cases h
  split at h
  · cases h
  cases error with
  | some e => cases h
  | none => exact (Except.ok.inj h).symm

theorem ctlDel_ok (h : m.ctlDel error = .ok m') : m' = { m with registered := none } := by
  unfold ctlDel at h
  split at h
  · cases h
  cases error with
  | some e => cases h
  | none => exact (Except.ok.inj h).symm

theorem exact_clear (m : Level) (d : Direction) :
    Exact ((m.setActive false d).setActive false d.other) := by
  intro _ e he
  cases d <;> cases e <;> cases he

theorem activeMask_add (c : Connection) (d : Direction) :
    activeMask (c.modify (fun ev => { ev with active := true }) d) =
      if (c.event d.other).active then maskForEvent d ||| maskForEvent d.other
      else maskForEvent d := by
  cases d with
  | read =>
    cases h : c.write.active <;>
      simp [activeMask, Connection.modify, Direction.other, Connection.event, h]
  | write =>
    cases h : c.read.active <;>
      simp [activeMask, Connection.modify, Direction.other, Connection.event, h, BitVec.or_comm]

theorem activeMask_del (c : Connection) (d : Direction) :
    activeMask (c.modify (fun ev => { ev with active := false }) d) =
      if (c.event d.other).active then maskForEvent d.other else 0 := by
  cases d <;> simp [activeMask, Connection.modify, Direction.other, Connection.event] <;> rfl

theorem inst_modify (c : Connection) (b : Bool) (d : Direction) :
    (c.modify (fun ev => { ev with active := b }) d).read.inst = c.read.inst := by
  cases d <;> rfl

theorem levelAddEvent_exact (h : m.Exact) : (m.levelAddEvent error d).2.Exact := by
  unfold levelAddEvent
  split
  · exact h
  dsimp only
  split
  · exact h
  · rename_i m' hm'
    rw [ctlSet_ok hm']
    intro _ e _
    simp only [setActive, activeMask_add, inst_modify]

theorem levelDelEvent_exact (h : m.Exact) {close : Bool} :
    (m.levelDelEvent error d close).2.Exact := by
  unfold levelDelEvent
  dsimp only
  split
  · split
    · exact exact_clear m d
    · split <;> exact exact_clear _ d
  · split
    · rename_i m' hm'
      split at hm'
      · rename_i hother
        rw [ctlSet_ok hm']
        intro _ e _
        simp only [setActive, activeMask_del, inst_modify, hother, if_true]
      · rename_i hother
        rw [ctlDel_ok hm']
        intro _ e he
        cases d <;> cases e <;> first | cases he | exact absurd he hother
    · split
      · exact exact_clear m d
      · exact h

end

/-- In every run, while nginx takes a direction of an open connection for active, its descriptor is
registered with exactly the events of its active directions, under the current instance bit. -/
theorem level_registration_exact (start m : Level) (fresh : start.connection.fd = -1)
    (h : Reach step start m) (d : Direction) (opened : m.connection.fd ≠ -1)
    (active : (m.connection.event d).active = true) :
    m.registered = some (activeMask m.connection, m.connection.read.inst) := by
  refine h.invariant (P := Exact) (fun hopen => absurd fresh hopen) ?_ opened d active
  intro s s' a hs hstep
  cases a with
  | addEvent error d =>
    cases hstep
    exact levelAddEvent_exact hs
  | delEvent error d close =>
    cases hstep
    exact levelDelEvent_exact hs
  | close =>
    cases hstep
    exact fun hopen => absurd rfl hopen
  | recycle fd accept =>
    simp only [step] at hstep
    split at hstep
    · cases hstep
      intro _ e he
      cases e <;> cases he
    · cases hstep

/-- A connection asks for both directions, one MOD fails, and reading is given up. -/
def halfClosed : List Act :=
  [.recycle 5 false, .addEvent none .read, .addEvent (some EBADF) .write, .addEvent none .write,
    .delEvent none .read false]

def free : Connection :=
  let event : Event := ⟨false, false, false, false, false, false, false⟩
  ⟨-1, event, event⟩

theorem level_registration_exact_halfClosed :
    ∃ m, run step ⟨free, none⟩ halfClosed = some m ∧ activeMask m.connection = EPOLLOUT ∧
      m.registered = some (activeMask m.connection, m.connection.read.inst) := by
  obtain ⟨m, hrun, hm⟩ := Option.map_eq_some_iff.mp
    (by decide +kernel : (run step ⟨free, none⟩ halfClosed).map (fun m =>
      (m.connection.fd, m.connection.write.active, activeMask m.connection)) =
        some (5, true, EPOLLOUT))
  simp only [Prod.mk.injEq] at hm
  exact ⟨m, hrun, hm.2.2, level_registration_exact _ m rfl (Reach.refl.of_run hrun) .write
    (by rw [hm.1]; decide) hm.2.1⟩

end Level
end WepollEx.Nginx
