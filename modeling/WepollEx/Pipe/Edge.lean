import WepollEx.Lib.Transition
import WepollEx.Port.Probes

/-!
# Edge-triggered pipes

A pipe has no readiness notification of its own: the port samples it when a poll is submitted, when
the poll completes, and when an event is drained.  For an `EPOLLET` pipe the samples move the latch
`observed_events`, and the last of them decide when the registration is polled no more.

A step is what one of the three samplers does to the registration, for any snapshot.  `log` is a
ghost: the samples with what came of them, newest first.
-/

namespace WepollEx.Pipe

open Mask Transition

/-- A sample, and the event that it queued or returned. -/
inductive Entry
  | submitted (snapshot : PipeSnapshot)
  | completed (snapshot : PipeSnapshot) (queued : Option Events)
  | drained (snapshot : PipeSnapshot) (returned : Events)
  deriving DecidableEq, Repr

def Entry.snapshot : Entry → PipeSnapshot
  | .submitted snapshot | .completed snapshot _ | .drained snapshot _ => snapshot

/-- What the samplers read and write of a pipe's registration.  `queued` is the event of its ready
node, if it has one. -/
structure Reg where
  pipeAccess : PipeAccess
  observedEvents : Events
  pipeTerminalDelivered : Bool
  needsRearm : Bool
  etHoldoff : Bool
  pollStatus : PollStatus
  queued : Option Events
  log : List Entry

/-- `ep_pipe_et_events_have_final_shape`. -/
def haveFinalShape (access : PipeAccess) (events : Events) : Bool :=
  (events &&& EPOLLHUP ≠ 0 && events &&& (EPOLLIN ||| EPOLLRDNORM) = 0) ||
    (events &&& EPOLLERR ≠ 0 && !access.read)

/-- A sample that can be the last: a native one of a client end. -/
def isNativeClient (snapshot : PipeSnapshot) : Bool :=
  snapshot.valid && snapshot.nativeInformation && !snapshot.serverEnd

/-- `ep_pipe_et_snapshot_is_final`. -/
def snapshotIsFinal (access : PipeAccess) (events : Events) (snapshot : PipeSnapshot) : Bool :=
  isNativeClient snapshot && haveFinalShape access events

/-- The bits that `level` has over the latch. -/
def rising (latch level : Events) : Events := level &&& ~~~latch

/-- The bits of the latch that `level` has lost. -/
def falling (latch level : Events) : Events := latch &&& ~~~level

/-- `ep_pipe_et_events` for a valid snapshot: the events that `level` delivers. -/
def edge (latch level : Events) : Events :=
  if rising latch level &&& (EPOLLHUP ||| EPOLLERR) ≠ 0 then level
  else if level &&& EPOLLHUP ≠ 0 ∧ falling latch level &&& (EPOLLIN ||| EPOLLRDNORM) ≠ 0 then level
  else rising latch level

namespace Reg

/-- After ADD. -/
def added (access : PipeAccess) : Reg := ⟨access, 0, false, true, false, .idle, none, []⟩

/-- The pipe branch of `ep_sock_submit_locked`; `armed` tells that the timer was created or the
packet posted. -/
def submit (snapshot : PipeSnapshot) (armed : Bool) (r : Reg) : Reg :=
  let fell := snapshot.valid && snapshot.events = 0
  { r with
    etHoldoff := false
    observedEvents := if fell then 0 else r.observedEvents
    pipeTerminalDelivered := if fell then false else r.pipeTerminalDelivered
    needsRearm := if armed then false else r.needsRearm
    pollStatus := if armed then .pending else r.pollStatus
    log := .submitted snapshot :: r.log }

/-- The events that a completion delivers. -/
def delivers (snapshot : PipeSnapshot) (r : Reg) : Events :=
  if snapshot.valid then edge r.observedEvents snapshot.events else 0

/-- `ep_sock_handle_completion` from the end of the poll on. -/
def complete (snapshot : PipeSnapshot) (r : Reg) : Reg :=
  let delivered := r.delivers snapshot
  let queued := if delivered = 0 then none else some delivered
  let finished := snapshot.valid && r.pipeTerminalDelivered &&
    snapshotIsFinal r.pipeAccess snapshot.events snapshot
  { r with
    pollStatus := .idle
    observedEvents := if snapshot.valid then snapshot.events else r.observedEvents
    needsRearm := if delivered = 0 then !finished else r.needsRearm
    etHoldoff := if delivered = 0 then !finished else false
    queued := queued
    log := .completed snapshot queued :: r.log }

/-- `ep_drain_to_buffer` for the node with `events`. -/
def drain (snapshot : PipeSnapshot) (events : Events) (r : Reg) : Reg :=
  let final := snapshot.valid && snapshot.events = events &&
    snapshotIsFinal r.pipeAccess events snapshot
  { r with
    queued := none
    pipeTerminalDelivered := haveFinalShape r.pipeAccess events
    observedEvents := if snapshot.valid && snapshot.events = 0 then 0 else r.observedEvents
    needsRearm := if final then r.needsRearm else true
    etHoldoff := if final then r.etHoldoff else false
    log := .drained snapshot events :: r.log }

end Reg

inductive Act
  | submit (snapshot : PipeSnapshot) (armed : Bool)
  | complete (snapshot : PipeSnapshot)
  | drain (snapshot : PipeSnapshot)
  /-- A wait releases the registrations it had held off. -/
  | release
  /-- The timer of a completed poll cannot be deleted: the poll stays pending, to be retried. -/
  | disarmFails
  /-- A poll to be retried is cancelled while its packet is queued. -/
  | cancel
  /-- A poll to be retried is over: it was cancelled, or the packet of the cancelled one came. -/
  | recover
  deriving DecidableEq, Repr

def Reg.step (r : Reg) : Act → Option Reg
  | .submit snapshot armed =>
    if r.pollStatus = .idle ∧ r.queued = none ∧ r.needsRearm ∧ !r.etHoldoff then
      some (r.submit snapshot armed)
    else none
  | .complete snapshot => if r.pollStatus = .pending then some (r.complete snapshot) else none
  | .drain snapshot =>
    match r.queued with
    | none => none
    | some events => some (r.drain snapshot events)
  | .release => some { r with etHoldoff := false }
  | .disarmFails => if r.pollStatus = .pending then some { r with needsRearm := true } else none
  | .cancel =>
    if r.pollStatus = .pending ∧ r.needsRearm then some { r with pollStatus := .cancelled } else none
  | .recover =>
    if r.pollStatus = .cancelled ∨ r.pollStatus = .pending ∧ r.needsRearm then
      some { r with pollStatus := .idle }
    else none

/-! ## The edge -/

/-- An unchanged level delivers nothing. -/
theorem edge_self (level : Events) : edge level level = 0 := by
  have hrising : rising level level = 0#32 := by simp [rising]
  have hfalling : falling level level = 0#32 := hrising
  simp [edge, hrising, hfalling]

theorem rising_within_edge (latch level : Events) : Within (rising latch level) (edge latch level) := by
  rw [edge]
  split
  · exact within_and_self_left _ _
  split
  · exact within_and_self_left _ _
  · exact .refl _

theorem edge_terminal {latch level : Events}
    (h : rising latch level &&& (EPOLLHUP ||| EPOLLERR) ≠ 0) : edge latch level = level := by
  rw [edge, if_pos h]

/-- Without a rising bit only the end of the buffered data is an event. -/
theorem edge_ne_zero_iff {latch level : Events} (h : rising latch level = 0) :
    edge latch level ≠ 0 ↔ level &&& EPOLLHUP ≠ 0 ∧
      falling latch level &&& (EPOLLIN ||| EPOLLRDNORM) ≠ 0 := by
  rw [edge, h, if_neg (by simp)]
  split
  · rename_i hlast
    refine iff_of_true (fun hzero => hlast.1 ?_) hlast
    rw [hzero]
    rfl
  · rename_i hnot
    exact iff_of_false (fun hne => hne rfl) hnot

/-! ## The latch and the log -/

/-- The samples with a valid snapshot all show `level`. -/
def Shows (level : Events) (entries : List Entry) : Prop :=
  ∀ e ∈ entries, e.snapshot.valid = true → e.snapshot.events = level

/-- An event of final shape was returned, and a sample of a client end taken with its drain or later
has final shape. -/
def Finished (access : PipeAccess) (log : List Entry) : Prop :=
  ∃ later snapshot events earlier, log = later ++ .drained snapshot events :: earlier ∧
    haveFinalShape access events = true ∧
    ∃ last, (last = snapshot ∨ ∃ e ∈ later, e.snapshot = last) ∧ isNativeClient last = true ∧
      haveFinalShape access last.events = true

/-- An event of final shape was returned. -/
def Returned (access : PipeAccess) (log : List Entry) : Prop :=
  ∃ later snapshot events earlier, log = later ++ .drained snapshot events :: earlier ∧
    haveFinalShape access events = true

/-- No two completions with the same level, and no other level between them, queue an event. -/
def Once (log : List Entry) : Prop :=
  ∀ later between earlier s₁ s₂ q₁ q₂,
    log = later ++ .completed s₂ q₂ :: (between ++ .completed s₁ q₁ :: earlier) →
    s₁.valid = true → s₂.valid = true → s₁.events = s₂.events → Shows s₁.events between →
    q₁ = none ∨ q₂ = none

/-- The invariant of the runs. -/
structure Inv (r : Reg) : Prop where
  /-- The latch is the level of a completion until another one is sampled. -/
  latch : ∀ between earlier snapshot queued, r.log = between ++ .completed snapshot queued :: earlier →
    snapshot.valid = true → Shows snapshot.events between → r.observedEvents = snapshot.events
  once : Once r.log
  unqueued : r.pollStatus ≠ .idle → r.queued = none
  retried : r.pollStatus = .cancelled → r.needsRearm = true
  returned : r.pipeTerminalDelivered = true → Returned r.pipeAccess r.log
  stopped : r.needsRearm = false → r.pollStatus = .idle → r.queued = none →
    Finished r.pipeAccess r.log

theorem inv_added (access : PipeAccess) : Inv (.added access) where
  latch := fun between _ _ _ h => by cases between <;> cases h
  once := fun later _ _ _ _ _ _ h => by cases later <;> cases h
  unqueued := fun _ => rfl
  retried := nofun
  returned := nofun
  stopped := nofun

section Log

variable {r : Reg} {access : PipeAccess} {log : List Entry} {entry : Entry}

theorem Returned.cons (h : Returned access log) (entry : Entry) : Returned access (entry :: log) := by
  obtain ⟨later, snapshot, events, earlier, rfl, hshape⟩ := h
  exact ⟨entry :: later, snapshot, events, earlier, rfl, hshape⟩

theorem Finished.cons (h : Finished access log) (entry : Entry) : Finished access (entry :: log) := by
  obtain ⟨later, snapshot, events, earlier, rfl, hshape, last, hlast, hclient, hfinal⟩ := h
  refine ⟨entry :: later, snapshot, events, earlier, rfl, hshape, last, ?_, hclient, hfinal⟩
  exact hlast.imp id fun ⟨e, he, heq⟩ => ⟨e, List.mem_cons_of_mem _ he, heq⟩

/-- A later sample of a client end that has final shape. -/
theorem Returned.finish (h : Returned access log) (hclient : isNativeClient entry.snapshot = true)
    (hfinal : haveFinalShape access entry.snapshot.events = true) :
    Finished access (entry :: log) := by
  obtain ⟨later, snapshot, events, earlier, rfl, hshape⟩ := h
  exact ⟨entry :: later, snapshot, events, earlier, rfl, hshape, entry.snapshot,
    .inr ⟨entry, List.mem_cons_self, rfl⟩, hclient, hfinal⟩

/-- A sample that is not a completion keeps the latch at the level it shows. -/
theorem Inv.latch_sample {snapshot : PipeSnapshot} (inv : Inv r) (hentry : entry.snapshot = snapshot)
    (hnot : ∀ s q, entry ≠ .completed s q) {between earlier : List Entry} {s : PipeSnapshot}
    {q : Option Events} (hlog : entry :: r.log = between ++ .completed s q :: earlier)
    (hvalid : s.valid = true) (hshows : Shows s.events between) :
    (if snapshot.valid && snapshot.events = 0 then 0 else r.observedEvents) = s.events := by
  cases between with
  | nil => exact absurd (List.cons.inj hlog).1 (hnot s q)
  | cons e between =>
    obtain ⟨rfl, hrest⟩ := List.cons.inj hlog
    split
    · rename_i hzero
      simp only [Bool.and_eq_true, decide_eq_true_eq] at hzero
      rw [← hshows entry List.mem_cons_self (hentry ▸ hzero.1), hentry, hzero.2]
    · exact inv.latch _ _ _ _ hrest hvalid fun e he => hshows e (List.mem_cons_of_mem _ he)

/-- A sample that is not a completion is not one of two completions. -/
theorem Once.cons (h : Once log) (hnot : ∀ s q, entry ≠ .completed s q) : Once (entry :: log) := by
  intro later between earlier s₁ s₂ q₁ q₂ hlog
  cases later with
  | nil => exact absurd (List.cons.inj hlog).1 (hnot s₂ q₂)
  | cons e later => exact h later between earlier s₁ s₂ q₁ q₂ (List.cons.inj hlog).2

end Log

/-! ## The steps -/

section Steps

variable {r r' : Reg} {snapshot : PipeSnapshot}

theorem Inv.submit (inv : Inv r) (hidle : r.pollStatus = .idle) (hqueued : r.queued = none)
    (hneeds : r.needsRearm = true) (armed : Bool) : Inv (r.submit snapshot armed) where
  latch := fun _ _ _ _ hlog hvalid hshows => inv.latch_sample rfl (by nofun) hlog hvalid hshows
  once := inv.once.cons nofun
  unqueued := fun _ => hqueued
  retried := by
    intro h
    cases armed <;> simp [Reg.submit, hidle] at h
  returned := by
    intro h
    refine (inv.returned ?_).cons _
    simp only [Reg.submit] at h
    split at h
    · cases h
    · exact h
  stopped := by
    intro h h'
    cases armed <;> simp [Reg.submit, hneeds] at h h'

theorem Inv.drain {events : Events} (inv : Inv r) (hqueued : r.queued = some events) :
    Inv (r.drain snapshot events) where
  latch := fun _ _ _ _ hlog hvalid hshows => inv.latch_sample rfl (by nofun) hlog hvalid hshows
  once := inv.once.cons nofun
  unqueued := fun _ => rfl
  retried := by
    intro h
    have hnone := inv.unqueued (by rw [show r.pollStatus = .cancelled from h]; nofun)
    rw [hqueued] at hnone
    cases hnone
  returned := fun h => ⟨[], snapshot, events, r.log, rfl, h⟩
  stopped := by
    intro h _ _
    simp only [Reg.drain] at h
    split at h
    · rename_i hfinal
      simp only [Bool.and_eq_true, decide_eq_true_eq, snapshotIsFinal] at hfinal
      obtain ⟨⟨_, hsame⟩, hclient, hshape⟩ := hfinal
      exact ⟨[], snapshot, events, r.log, rfl, hshape, snapshot, .inl rfl, hclient, hsame ▸ hshape⟩
    · cases h

theorem Inv.complete (inv : Inv r) : Inv (r.complete snapshot) where
  latch := by
    intro between earlier s q hlog hvalid hshows
    simp only [Reg.complete] at hlog ⊢
    cases between with
    | nil =>
      obtain ⟨he, _⟩ := List.cons.inj hlog
      cases he
      rw [if_pos hvalid]
    | cons e between =>
      obtain ⟨rfl, hrest⟩ := List.cons.inj hlog
      split
      · rename_i hv
        exact hshows _ List.mem_cons_self hv
      · exact inv.latch _ _ _ _ hrest hvalid fun e he => hshows e (List.mem_cons_of_mem _ he)
  once := by
    intro later between earlier s₁ s₂ q₁ q₂ hlog hv₁ hv₂ hsame hshows
    cases later with
    | nil =>
      obtain ⟨he, hrest⟩ := List.cons.inj hlog
      cases he
      -- the latch still has the level of the first completion
      have hlatch := inv.latch _ _ _ _ hrest hv₁ hshows
      right
      simp only [Reg.delivers, hv₂, if_true, hlatch, hsame, edge_self]
    | cons e later =>
      exact inv.once _ _ _ _ _ _ _ (List.cons.inj hlog).2 hv₁ hv₂ hsame hshows
  unqueued := nofun
  retried := nofun
  returned := fun h => (inv.returned h).cons _
  stopped := by
    intro hneeds _ hqueued
    simp only [Reg.complete] at hneeds hqueued
    split at hqueued
    · rename_i hzero
      rw [if_pos hzero] at hneeds
      simp only [Bool.not_eq_false', Bool.and_eq_true, snapshotIsFinal] at hneeds
      obtain ⟨⟨_, hreturned⟩, hclient, hshape⟩ := hneeds
      exact (inv.returned hreturned).finish hclient hshape
    · cases hqueued

theorem Inv.step {a : Act} (inv : Inv r) (h : r.step a = some r') : Inv r' := by
  cases a with
  | submit snapshot armed =>
    obtain ⟨⟨hidle, hqueued, hneeds, _⟩, ⟨⟩⟩ := Option.ite_none_right_eq_some.mp h
    exact inv.submit hidle hqueued hneeds armed
  | complete snapshot =>
    obtain ⟨_, ⟨⟩⟩ := Option.ite_none_right_eq_some.mp h
    exact inv.complete
  | drain snapshot =>
    simp only [Reg.step] at h
    split at h
    · cases h
    · rename_i events hqueued
      cases h
      exact inv.drain hqueued
  | release =>
    cases h
    exact ⟨inv.latch, inv.once, inv.unqueued, inv.retried, inv.returned, inv.stopped⟩
  | disarmFails =>
    obtain ⟨hpending, ⟨⟩⟩ := Option.ite_none_right_eq_some.mp h
    exact ⟨inv.latch, inv.once, inv.unqueued, fun _ => rfl, inv.returned, nofun⟩
  | cancel =>
    obtain ⟨⟨hpending, hneeds⟩, ⟨⟩⟩ := Option.ite_none_right_eq_some.mp h
    exact ⟨inv.latch, inv.once, fun _ => inv.unqueued (by rw [hpending]; nofun), fun _ => hneeds,
      inv.returned, nofun⟩
  | recover =>
    obtain ⟨hmay, ⟨⟩⟩ := Option.ite_none_right_eq_some.mp h
    have hneeds : r.needsRearm = true := hmay.elim inv.retried And.right
    refine ⟨inv.latch, inv.once, nofun, nofun, inv.returned, fun hnot => ?_⟩
    rw [hneeds] at hnot
    cases hnot

end Steps

/-! ## The law -/

/-- The step samples the pipe with this snapshot. -/
def Act.Samples (snapshot : PipeSnapshot) : Act → Prop
  | .submit s _ | .complete s | .drain s => s = snapshot
  | _ => False

structure Lawful (r : Reg) : Prop where
  /-- An invalid sample queues nothing and does not move the latch. -/
  invalid : ∀ snapshot a r', a.Samples snapshot → snapshot.valid = false → r.step a = some r' →
    (∀ events, r'.queued = some events → r.queued = some events) ∧
    r'.observedEvents = r.observedEvents
  once : Once r.log
  /-- A rising bit is queued, and with a terminal one the whole level. -/
  rises : ∀ snapshot r', snapshot.valid = true → r.step (.complete snapshot) = some r' →
    rising r.observedEvents snapshot.events ≠ 0 →
    ∃ events, r'.queued = some events ∧ Within (rising r.observedEvents snapshot.events) events ∧
      (rising r.observedEvents snapshot.events &&& (EPOLLHUP ||| EPOLLERR) ≠ 0 →
        events = snapshot.events)
  /-- Without one, only the end of the buffered data is queued. -/
  falls : ∀ snapshot r', snapshot.valid = true → r.step (.complete snapshot) = some r' →
    rising r.observedEvents snapshot.events = 0 →
    (r'.queued ≠ none ↔ snapshot.events &&& EPOLLHUP ≠ 0 ∧
      falling r.observedEvents snapshot.events &&& (EPOLLIN ||| EPOLLRDNORM) ≠ 0)
  /-- The registration is polled again and again until the end has been returned and seen. -/
  stops : r.needsRearm = false → r.pollStatus = .idle → r.queued = none →
    Finished r.pipeAccess r.log

theorem complete_queued {r : Reg} {snapshot : PipeSnapshot} (hvalid : snapshot.valid = true) :
    (r.complete snapshot).queued = if edge r.observedEvents snapshot.events = 0 then none
      else some (edge r.observedEvents snapshot.events) := by
  simp only [Reg.complete, Reg.delivers, hvalid, if_true]

theorem invalid_sample {r r' : Reg} {snapshot : PipeSnapshot} {a : Act} (hsamples : a.Samples snapshot)
    (hinvalid : snapshot.valid = false) (h : r.step a = some r') :
    (∀ events, r'.queued = some events → r.queued = some events) ∧
    r'.observedEvents = r.observedEvents := by
  cases a with
  | submit s armed =>
    obtain rfl : s = snapshot := hsamples
    obtain ⟨_, ⟨⟩⟩ := Option.ite_none_right_eq_some.mp h
    simp [Reg.submit, hinvalid]
  | complete s =>
    obtain rfl : s = snapshot := hsamples
    obtain ⟨_, ⟨⟩⟩ := Option.ite_none_right_eq_some.mp h
    simp [Reg.complete, Reg.delivers, hinvalid]
  | drain s =>
    obtain rfl : s = snapshot := hsamples
    simp only [Reg.step] at h
    split at h
    · cases h
    · cases h
      simp [Reg.drain, hinvalid]
  | _ => exact hsamples.elim

theorem pipe_edge_lawful {access : PipeAccess} {r : Reg} (h : Reach Reg.step (.added access) r) :
    Lawful r := by
  have inv : Inv r := h.invariant (inv_added access) fun _ _ _ inv hstep => inv.step hstep
  constructor
  case invalid => exact fun _ _ _ hsamples hinvalid hstep => invalid_sample hsamples hinvalid hstep
  case once => exact inv.once
  case rises =>
    intro snapshot r' hvalid hstep hrises
    obtain ⟨_, ⟨⟩⟩ := Option.ite_none_right_eq_some.mp hstep
    have hne : edge r.observedEvents snapshot.events ≠ 0 := by
      intro hzero
      have hwithin := rising_within_edge r.observedEvents snapshot.events
      rw [hzero] at hwithin
      exact hrises (within_zero_iff.mp hwithin)
    rw [complete_queued hvalid, if_neg hne]
    exact ⟨_, rfl, rising_within_edge _ _, edge_terminal⟩
  case falls =>
    intro snapshot r' hvalid hstep hnone
    obtain ⟨_, ⟨⟩⟩ := Option.ite_none_right_eq_some.mp hstep
    rw [complete_queued hvalid, ← edge_ne_zero_iff hnone]
    by_cases hzero : edge r.observedEvents snapshot.events = 0 <;> simp [hzero]
  case stops => exact inv.stopped

/-- A native sample of a client end. -/
def client (events : Events) : PipeSnapshot := ⟨events, false, true, true, false⟩

/-- Data and then the end of a pipe: the data is drained while the peer closes, the end is returned
while no sample can be taken, and a later sample ends the polling. -/
def lastWords : List Act :=
  [.submit (client EPOLLIN) true, .complete (client EPOLLIN), .drain (client (EPOLLIN ||| EPOLLHUP)),
    .submit (client (EPOLLIN ||| EPOLLHUP)) true, .complete (client (EPOLLIN ||| EPOLLHUP)),
    .drain (client EPOLLHUP), .submit (client EPOLLHUP) true, .complete (client EPOLLHUP),
    .drain .blank, .submit .blank true, .complete (client EPOLLHUP)]

theorem pipe_edge_lawful_lastWords :
    ∃ r, run Reg.step (.added ⟨true, false⟩) lastWords = some r ∧
      (r.log.filterMap fun | .drained _ events => some events | _ => none) =
        [EPOLLHUP, EPOLLIN ||| EPOLLHUP, EPOLLIN] ∧
      (r.needsRearm, r.pollStatus, r.queued) = (false, .idle, none) ∧ Lawful r := by
  obtain ⟨r, hrun, hr⟩ := Option.map_eq_some_iff.mp
    (by decide +kernel : (run Reg.step (.added ⟨true, false⟩) lastWords).map (fun r =>
      ((r.log.filterMap fun | .drained _ events => some events | _ => none),
        r.needsRearm, r.pollStatus, r.queued)) =
      some ([EPOLLHUP, EPOLLIN ||| EPOLLHUP, EPOLLIN], false, .idle, none))
  obtain ⟨hlog, hend⟩ := Prod.mk.inj hr
  exact ⟨r, hrun, hlog, hend, pipe_edge_lawful (Reach.refl.of_run hrun)⟩

end WepollEx.Pipe
