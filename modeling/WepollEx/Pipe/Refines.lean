import WepollEx.Lifecycle.Flags
import WepollEx.Pipe.Edge

/-!
# The port polls a pipe by steps of its edge machine

`view` is what the samplers see of a registration.  Submitting, completing and draining an
edge-triggered pipe in the port are steps of `Pipe.Reg` from view to view.
-/

namespace WepollEx.Pipe

open Transition

def view (s : EpSock) (log : List Entry) : Reg where
  pipeAccess := s.pipeAccess
  observedEvents := s.observedEvents
  pipeTerminalDelivered := s.pipeTerminalDelivered
  needsRearm := s.needsRearm
  etHoldoff := s.etHoldoff
  pollStatus := s.pollStatus
  queued := if s.readyQueued then some s.pendingEvents else none
  log := log

/-- An edge-triggered pipe that is polled again after each event. -/
structure EdgePipe (s : EpSock) : Prop where
  kind : s.kind = .pipe
  edge : s.isET = true
  repeats : s.isOneshot = false
  shared : s.isExclusive = false
  unfired : s.oneshotFired = false

theorem view_added {s : EpSock} (hfresh : s.observedEvents = 0 ∧ s.pipeTerminalDelivered = false)
    (hneeds : s.needsRearm = true ∧ s.etHoldoff = false)
    (hidle : s.pollStatus = .idle ∧ s.readyQueued = false) :
    view s [] = .added s.pipeAccess := by
  simp [view, Reg.added, hfresh, hneeds, hidle]

theorem haveFinalShape_eq (s : EpSock) (events : Events) :
    epPipeEtEventsHaveFinalShape s events = haveFinalShape s.pipeAccess events := rfl

theorem snapshotIsFinal_eq (s : EpSock) (events : Events) (snapshot : PipeSnapshot) :
    epPipeEtSnapshotIsFinal s events snapshot = snapshotIsFinal s.pipeAccess events snapshot := by
  rw [epPipeEtSnapshotIsFinal, snapshotIsFinal, isNativeClient, haveFinalShape_eq]
  cases snapshot.valid <;> cases snapshot.nativeInformation <;> cases snapshot.serverEnd <;> rfl

theorem epPipeEtEvents_eq (s : EpSock) (snapshot : PipeSnapshot) (log : List Entry) :
    epPipeEtEvents s snapshot = ((view s log).delivers snapshot,
      { s with observedEvents := if snapshot.valid then snapshot.events else s.observedEvents }) := by
  rw [epPipeEtEvents]
  cases hvalid : snapshot.valid with
  | false => simp [Reg.delivers, hvalid]
  | true =>
    simp only [Bool.not_true, Bool.false_eq_true, if_false, if_true, Reg.delivers, hvalid]
    rfl

theorem setNeedsRearm_sock (c : Cell) (b : Bool) :
    (epSockSetNeedsRearmLocked c b).sock = { c.sock with needsRearm := b } := by
  rw [epSockSetNeedsRearmLocked]
  split
  · rename_i h
    rw [← h]
  · cases b <;> rfl

variable {c : Cell} {log : List Entry}

/-! ## Completion -/

/-- The sample ends the polling. -/
def finishes (s : EpSock) (snapshot : PipeSnapshot) : Bool :=
  snapshot.valid && s.pipeTerminalDelivered &&
    snapshotIsFinal s.pipeAccess snapshot.events snapshot

theorem settleEmpty_view {asyncPost : Option Errno} {answers : PassAnswers} {events : Events}
    {snapshot : PipeSnapshot} (hpipe : EdgePipe c.sock) :
    view (settleEmpty asyncPost answers ⟨events, false, snapshot⟩ c).sock log =
      { view c.sock log with
        needsRearm := !finishes c.sock snapshot
        etHoldoff := !finishes c.sock snapshot } := by
  have hcond : (c.sock.kind = .pipe ∧ c.sock.isET ∧ snapshot.valid ∧ c.sock.pipeTerminalDelivered ∧
      epPipeEtSnapshotIsFinal c.sock snapshot.events snapshot) ↔
        finishes c.sock snapshot = true := by
    simp [hpipe.kind, hpipe.edge, snapshotIsFinal_eq, finishes, and_assoc]
  have het : EpSock.isET { c.sock with etHoldoff := c.sock.isET, needsRearm := true } = true :=
    hpipe.edge
  simp only [settleEmpty, Bool.false_eq_true, if_false]
  by_cases hfin : finishes c.sock snapshot = true
  · rw [if_pos (hcond.mpr hfin)]
    simp [view, setNeedsRearm_sock, hfin]
  · rw [if_neg (hcond.not.mpr hfin)]
    simp only [setNeedsRearm_sock, Cell.mapSock_sock, het, Bool.not_true, Bool.false_eq_true,
      if_false]
    simp [view, hfin, hpipe.edge]

theorem publishDelivered_view {asyncPost : Option Errno} {answers : PassAnswers}
    {old delivered : Events} (hpipe : EdgePipe c.sock) (halloc : answers.nodeAlloc = none) :
    view (publishDelivered asyncPost answers old delivered c).sock log =
      { view c.sock log with etHoldoff := false, queued := some delivered } := by
  simp only [publishDelivered, halloc, hpipe.repeats, hpipe.shared, Bool.false_eq_true, if_false]
  simp [publishClaimed, epReadyPublish, disarmDelivered, epWaitableMayConsume, hpipe.kind, view]

/-- Settling and publishing the sample of a pipe is the completion of the machine. -/
theorem deliverSnapshot_view {asyncPost : Option Errno} {answers : PassAnswers} {status : NtStatus}
    {snapshot : PipeSnapshot} (hpipe : EdgePipe c.sock)
    (hsnap : epPipeSnapshot answers.pipe c.sock = snapshot) (hopen : snapshot.localClosed = false)
    (halloc : answers.nodeAlloc = none) (hidle : c.sock.pollStatus = .idle)
    (hfree : c.sock.readyQueued = false) :
    view (deliverSnapshot asyncPost answers status c).sock
        ((view c.sock log).complete snapshot).log =
      (view c.sock log).complete snapshot := by
  have hsample : sampleTarget asyncPost answers status c =
      .next ⟨snapshot.events, false, snapshot⟩ c := by
    simp [sampleTarget, hpipe.kind, hsnap, hopen]
  have hcell : ∀ delivered, (qualifyDelivered answers delivered c).2 = c := by
    intro delivered
    simp [qualifyDelivered, hpipe.kind]
  have hlatch : ∀ level, latchDelivered snapshot level c.sock =
      ((view c.sock log).delivers snapshot, { c.sock with
        observedEvents := if snapshot.valid then snapshot.events else c.sock.observedEvents }) := by
    intro level
    rw [latchDelivered, if_pos hpipe.edge, if_pos hpipe.kind, epPipeEtEvents_eq c.sock snapshot log]
  have hpipe' : EdgePipe { c.sock with
      observedEvents := if snapshot.valid then snapshot.events else c.sock.observedEvents } :=
    ⟨hpipe.kind, hpipe.edge, hpipe.repeats, hpipe.shared, hpipe.unfired⟩
  rw [deliverSnapshot, hsample]
  simp only [hcell, hlatch]
  split
  · rename_i hzero
    rw [settleEmpty_view (c := { c with sock := _ }) hpipe']
    simp only [Reg.complete, if_pos hzero]
    simp [view, hidle, hfree, finishes]
  · rename_i hne
    rw [publishDelivered_view (c := { c with sock := _ }) hpipe' halloc]
    simp only [Reg.complete, if_neg hne]
    simp [view, hidle]

/-- The registration is not being deleted and the port is open; a pending poll is accounted for and
has no event queued. -/
structure Live (c : Cell) : Prop extends EdgePipe c.sock where
  kept : c.sock.deletePending = false
  opened : c.port.closing = false
  posts : c.port.iocpPostHandle = true
  accounted : c.sock.pollStatus ≠ .idle → 0 < c.port.pendingPollCount
  unqueued : c.sock.pollStatus ≠ .idle → c.sock.readyQueued = false

theorem processSnapshot_view {asyncPost : Option Errno} {answers : Nat → PassAnswers}
    {status : NtStatus} {snapshot : PipeSnapshot} (hpipe : EdgePipe c.sock)
    (hsnap : epPipeSnapshot (answers 0).pipe c.sock = snapshot)
    (hopen : snapshot.localClosed = false) (halloc : (answers 0).nodeAlloc = none)
    (hidle : c.sock.pollStatus = .idle) (hfree : c.sock.readyQueued = false) :
    view (processSnapshot asyncPost answers status 2 0 c).sock
        ((view c.sock log).complete snapshot).log =
      (view c.sock log).complete snapshot := by
  have hcheck : checkSocketSnapshot asyncPost (answers 0).identity status c = .next () c := by
    simp [checkSocketSnapshot, hpipe.kind]
  have hrefresh : needsRefresh status c = false := by
    simp [needsRefresh, hpipe.kind]
  simp only [processSnapshot, hcheck, hrefresh, Bool.false_eq_true, if_false]
  exact deliverSnapshot_view hpipe hsnap hopen halloc hidle hfree

theorem recordAsyncError_closing {p : Port} (hopened : p.closing = false)
    (hposts : p.iocpPostHandle = true) (e : Errno) :
    (epPortRecordAsyncErrorLocked p none e).closing = false := by
  simp only [epPortRecordAsyncErrorLocked, epPortPostIocp, hposts, Bool.not_true, Bool.false_eq_true,
    if_false]
  split
  · exact hopened
  · split <;> exact hopened

/-- A completion that cannot delete the timer leaves the poll pending, to be retried. -/
theorem completionDisarmFailed_view {answers : CompletionAnswers} {e : Errno} (hlive : Live c)
    (hpost : answers.asyncPost = none) :
    view (completionDisarmFailed answers e c).sock log =
      { view c.sock log with needsRearm := true } := by
  have hclosing := recordAsyncError_closing hlive.opened hlive.posts e
  simp only [completionDisarmFailed, hpost, Cell.mapPort_sock, Cell.mapSock_sock, Cell.mapPort_port,
    Cell.mapSock_port, hlive.kept, hclosing, Bool.or_self, Bool.false_eq_true, if_false,
    setNeedsRearm_sock]
  rfl

/-- The disarm fails, or it touches the registered wait only. -/
theorem disarm_cases (answer : Option Errno) (c : Cell) :
    (∃ e, epAuxDisarmLocked answer c = (some e, c)) ∨ ∃ w armed, epAuxDisarmLocked answer c =
      (none, { c with
        sock := { c.sock with waitRegistration := w }
        port := { c.port with waitArmed := armed } }) := by
  unfold epAuxDisarmLocked
  split
  · exact .inr ⟨c.sock.waitRegistration, c.port.waitArmed, rfl⟩
  · cases answer with
    | some e => exact .inl ⟨e, rfl⟩
    | none => exact .inr ⟨false, _, rfl⟩

theorem completeRetired_view {answers : CompletionAnswers} {old : PollStatus} {status : NtStatus}
    {snapshot : PipeSnapshot} (hpipe : EdgePipe c.sock) (hold : old ≠ .cancelled) (hkept : c.sock.deletePending = false)
    (hopened : c.port.closing = false) (hstatus : status ≠ STATUS_CANCELLED)
    (hsnap : epPipeSnapshot (answers.pass 0).pipe c.sock = snapshot)
    (hopen : snapshot.localClosed = false) (halloc : (answers.pass 0).nodeAlloc = none)
    (hidle : c.sock.pollStatus = .idle) (hfree : c.sock.readyQueued = false) :
    view (completeRetired answers old status c).sock
        ((view c.sock log).complete snapshot).log =
      (view c.sock log).complete snapshot := by
  have hawake : epWaitableIsDormant c.sock = false := by simp [epWaitableIsDormant, hpipe.kind]
  simp only [completeRetired, hkept, hopened, hawake, hstatus, hold, or_self, if_false,
    Bool.false_eq_true]
  exact processSnapshot_view hpipe hsnap hopen halloc hidle hfree

/-- The packet of a pending poll: its timer is deleted and the pipe sampled, or the deletion fails
and the poll is to be retried. -/
theorem completion_refines {answers : CompletionAnswers} (hlive : Live c)
    (hpending : c.sock.pollStatus = .pending) (hstatus : c.sock.ioStatus ≠ STATUS_CANCELLED)
    (hopen : (epPipeSnapshot (answers.pass 0).pipe c.sock).localClosed = false)
    (halloc : (answers.pass 0).nodeAlloc = none) (hpost : answers.asyncPost = none) :
    ∃ a log', (a = .complete (epPipeSnapshot (answers.pass 0).pipe c.sock) ∨ a = .disarmFails) ∧
      (view c.sock log).step a = some (view (epSockHandleCompletion answers c).sock log') := by
  have hne : c.sock.pollStatus ≠ .idle := by rw [hpending]; simp
  have hcount : c.port.pendingPollCount ≠ 0 := Nat.pos_iff_ne_zero.mp (hlive.accounted hne)
  have haux : c.sock.isAux = true := by simp [EpSock.isAux, hlive.kind]
  have hconsume : epWaitableMayConsume c.sock = false := by simp [epWaitableMayConsume, hlive.kind]
  have hview : (view c.sock log).pollStatus = .pending := hpending
  rcases disarm_cases answers.disarm c with ⟨e, hdisarm⟩ | ⟨w, armed, hdisarm⟩
  · refine ⟨.disarmFails, log, .inr rfl, ?_⟩
    simp only [epSockHandleCompletion, hpending, hconsume, haux, reduceCtorEq, if_false, if_true,
      Bool.false_eq_true, and_false, hdisarm, completionDisarmFailed_view hlive hpost, Reg.step,
      hview]
  · generalize hsnap : epPipeSnapshot (answers.pass 0).pipe c.sock = snapshot at hopen ⊢
    refine ⟨.complete snapshot, ((view c.sock log).complete snapshot).log, .inl rfl, ?_⟩
    obtain ⟨d, hd⟩ : ∃ d : Cell, d = { c with
        sock := { c.sock with waitRegistration := w, completionPosted := false, pollStatus := .idle }
        port := { c.port with
          waitArmed := armed, pendingPollCount := c.port.pendingPollCount - 1 } } := ⟨_, rfl⟩
    have haux' : EpSock.isAux { c.sock with waitRegistration := w } = true := haux
    have hrun : epSockHandleCompletion answers c =
        completeRetired answers c.sock.pollStatus c.sock.ioStatus d := by
      simp only [epSockHandleCompletion, if_neg hne, hconsume, haux, if_false, if_true,
        Bool.false_eq_true, and_false, hdisarm]
      rw [if_pos haux', Cell.mapSock, epSockCompletePendingLocked,
        if_neg (not_or.mpr ⟨hne, hcount⟩), hd]
    have hcomplete : (view c.sock log).complete snapshot = (view d.sock log).complete snapshot := by
      rw [hd]
      rfl
    have hpipe : EdgePipe d.sock := by
      rw [hd]
      exact ⟨hlive.kind, hlive.edge, hlive.repeats, hlive.shared, hlive.unfired⟩
    rw [hrun, Reg.step, if_pos hview, hcomplete]
    refine congrArg some (completeRetired_view hpipe (by rw [hpending]; simp) ?_ ?_ hstatus ?_ hopen
      halloc ?_ ?_).symm <;> rw [hd]
    · exact hlive.kept
    · exact hlive.opened
    · exact hsnap
    · exact hlive.unqueued hne

/-! ## Drain -/

theorem rearmDrained_sock (hpipe : EdgePipe c.sock) :
    (rearmDrained c).sock = { c.sock with etHoldoff := false, needsRearm := true } := by
  simp [rearmDrained, setNeedsRearm_sock, epSockExplicitRearmEnabled, hpipe.kind]

theorem noteReturned_sock (maxevents : Nat) (first : Bool) (node : ReadyNode) (c : Cell) :
    (noteReturned maxevents first node c).sock = c.sock := by
  simp only [noteReturned, Cell.mapPort_sock]
  split <;> rfl

theorem drain_refines {answers : PipeAnswers} {maxevents : Nat} {first : Bool} {node : ReadyNode}
    (hpipe : EdgePipe c.sock) (hqueued : c.sock.readyQueued = true)
    (hnode : node.events = c.sock.pendingEvents)
    (hopen : (epPipeSnapshot answers c.sock).localClosed = false) :
    ∃ log', (view c.sock log).step (.drain (epPipeSnapshot answers c.sock)) =
      some (view (drainDeliver answers maxevents first node c).sock log') := by
  generalize hsnap : epPipeSnapshot answers c.sock = snapshot at hopen ⊢
  refine ⟨((view c.sock log).drain snapshot node.events).log, ?_⟩
  have hstep : (view c.sock log).step (.drain snapshot) =
      some ((view c.sock log).drain snapshot node.events) := by
    simp [Reg.step, view, hqueued, hnode]
  have hedge : (decide (c.sock.kind = .pipe) && c.sock.isET) = true := by
    simp [hpipe.kind, hpipe.edge]
  obtain ⟨d, hd⟩ : ∃ d, d = c.mapSock (drainedSock true snapshot node) := ⟨_, rfl⟩
  have hpipe' : EdgePipe d.sock := by
    rw [hd]
    exact ⟨hpipe.kind, hpipe.edge, hpipe.repeats, hpipe.shared, hpipe.unfired⟩
  have hdrain : (view c.sock log).drain snapshot node.events =
      { view d.sock (.drained snapshot node.events :: log) with
        needsRearm := if snapshot.valid && snapshot.events = node.events &&
          snapshotIsFinal c.sock.pipeAccess node.events snapshot then d.sock.needsRearm else true
        etHoldoff := if snapshot.valid && snapshot.events = node.events &&
          snapshotIsFinal c.sock.pipeAccess node.events snapshot then d.sock.etHoldoff else false } := by
    rw [hd]
    simp [view, Reg.drain, drainedSock, hpipe.kind, haveFinalShape_eq, hopen]
  rw [hstep, hdrain]
  simp only [drainDeliver, hedge, if_true, hsnap, hopen, Bool.not_false, Bool.and_true, Bool.true_and,
    noteReturned_sock, snapshotIsFinal_eq, ← hd, hpipe'.unfired, hpipe'.kind, reduceCtorEq,
    decide_false, Bool.false_and]
  cases hfinal : snapshot.valid && decide (snapshot.events = node.events) &&
      snapshotIsFinal c.sock.pipeAccess node.events snapshot with
  | true => simp [view]
  | false => simp [view, rearmDrained_sock hpipe']

/-! ## Submission -/

theorem schedule_view (log : List Entry) (answers : SubmitAnswers) (level : Events) (c : Cell) :
    view (epPipeScheduleLocked answers level c).2.sock log = view c.sock log := by
  simp only [epPipeScheduleLocked, epAuxPostCompletion, epAuxArmLocked]
  split
  · rfl
  split
  · split <;> rfl
  · split <;> rfl

theorem settlePolling_view (log : List Entry) (r : Option Errno × Cell) : ∃ armed : Bool,
    view (settlePolling r).2.sock log = { view r.2.sock log with
      needsRearm := if armed then false else r.2.sock.needsRearm
      pollStatus := if armed then .pending else r.2.sock.pollStatus } := by
  obtain ⟨_ | e, d⟩ := r
  · refine ⟨true, ?_⟩
    simp [settlePolling, Cell.setPolling, setNeedsRearm_sock, view]
  · exact ⟨false, rfl⟩

theorem submitPipe_refines {answers : SubmitAnswers} (log : List Entry) (hpipe : EdgePipe c.sock)
    (hidle : c.sock.pollStatus = .idle) (hfree : c.sock.readyQueued = false)
    (hneeds : c.sock.needsRearm = true) (hheld : c.sock.etHoldoff = false)
    (hopen : (epPipeSnapshot answers.pipe c.sock).localClosed = false) :
    ∃ armed log', (view c.sock log).step (.submit (epPipeSnapshot answers.pipe c.sock) armed) =
      some (view (submitPipe answers c).2.sock log') := by
  generalize hsnap : epPipeSnapshot answers.pipe c.sock = snapshot at hopen ⊢
  have hcan : ∀ armed, (view c.sock log).step (.submit snapshot armed) =
      some ((view c.sock log).submit snapshot armed) := by
    intro armed
    simp [Reg.step, view, hidle, hfree, hneeds, hheld]
  -- the latch falls with a valid level of zero
  obtain ⟨d, hd⟩ : ∃ d, d = (if snapshot.valid ∧ snapshot.events = 0 ∧ c.sock.isET then
      c.mapSock fun s =>
        { s with etHoldoff := false, observedEvents := 0, pipeTerminalDelivered := false }
      else c.mapSock fun s => { s with etHoldoff := false }) := ⟨_, rfl⟩
  have hrun : (submitPipe answers c).2 =
      (settlePolling (epPipeScheduleLocked answers snapshot.events d)).2 := by
    simp only [submitPipe, hsnap, hopen, hpipe.unfired, hneeds, Bool.false_eq_true, if_false,
      Bool.not_true, hd]
    rfl
  have hview : ∀ log, view d.sock log = { view c.sock log with
      etHoldoff := false
      observedEvents := if snapshot.valid && snapshot.events = 0 then 0 else c.sock.observedEvents
      pipeTerminalDelivered :=
        if snapshot.valid && snapshot.events = 0 then false else c.sock.pipeTerminalDelivered } := by
    intro log
    rw [hd]
    cases hfell : snapshot.valid && decide (snapshot.events = 0) with
    | true =>
      simp only [Bool.and_eq_true, decide_eq_true_eq] at hfell
      simp [view, hfell, hpipe.edge]
    | false =>
      rw [if_neg fun h => by simp [h.1, h.2.1] at hfell]
      rfl
  obtain ⟨armed, harmed⟩ := settlePolling_view (.submitted snapshot :: log)
    (epPipeScheduleLocked answers snapshot.events d)
  have hsame := schedule_view (.submitted snapshot :: log) answers snapshot.events d
  refine ⟨armed, .submitted snapshot :: log, ?_⟩
  rw [hcan, hrun, harmed, hsame, hview]
  have hneeds' := congrArg Reg.needsRearm (hsame.trans (hview _))
  have hpoll' := congrArg Reg.pollStatus (hsame.trans (hview _))
  simp only [view] at hneeds' hpoll'
  simp [Reg.submit, view, hneeds', hpoll']

/-- A memoised identity check of this wait was a match. -/
def Matched (c : Cell) : Prop :=
  c.port.activeWaitEpoch ≠ 0 → c.sock.identityCheckedEpoch = c.port.activeWaitEpoch →
    c.sock.identityCheckedResult.1 = .matching

/-- A pipe has no identity to check: at most the memo changes. -/
theorem validate_pipe (answers : IdentityAnswers) (hpipe : EdgePipe c.sock) (hmatched : Matched c) :
    ∃ e epoch result, epSockValidateIdentityForDeliveryLocked answers c =
      (.matching, e, c.mapSock fun s =>
        { s with identityCheckedEpoch := epoch, identityCheckedResult := result }) := by
  have hvalid : epSockValidateIdentityLocked answers false c = (.matching, 0, c) := by
    simp [epSockValidateIdentityLocked, hpipe.kind]
  simp only [epSockValidateIdentityForDeliveryLocked, hvalid]
  split
  · rename_i hmemo
    exact ⟨0, c.sock.identityCheckedEpoch, c.sock.identityCheckedResult,
      by rw [hmatched hmemo.1 hmemo.2]; rfl⟩
  · split
    · exact ⟨0, _, _, rfl⟩
    · exact ⟨0, c.sock.identityCheckedEpoch, c.sock.identityCheckedResult, rfl⟩

/-- The submission of a pipe that is idle, not queued and not held off. -/
theorem submitPipe_runs {answers : SubmitAnswers} (hpipe : EdgePipe c.sock)
    (hidle : c.sock.pollStatus = .idle) (hfree : c.sock.readyQueued = false)
    (hheld : c.sock.etHoldoff = false)
    (hopen : (epPipeSnapshot answers.pipe c.sock).localClosed = false) :
    ∃ acts log', run Reg.step (view c.sock log) acts =
      some (view (submitPipe answers c).2.sock log') := by
  cases hneeds : c.sock.needsRearm with
  | false =>
    refine ⟨[], log, ?_⟩
    simp [run, submitPipe, hopen, hpipe.unfired, hneeds]
  | true =>
    obtain ⟨armed, log', hstep⟩ :=
      submitPipe_refines log hpipe hidle hfree hneeds hheld hopen
    refine ⟨[.submit (epPipeSnapshot answers.pipe c.sock) armed], log', ?_⟩
    rw [run, hstep]
    rfl

theorem submitChecked_runs (answers : SubmitAnswers) (identityValidated wantImmediate : Bool)
    (log : List Entry) (hpipe : EdgePipe c.sock) (hmatched : Matched c) (hidle : c.sock.pollStatus = .idle)
    (hfree : c.sock.readyQueued = false) (hheld : c.sock.etHoldoff = false)
    (hopen : (epPipeSnapshot answers.pipe c.sock).localClosed = false) :
    ∃ acts log', run Reg.step (view c.sock log) acts =
      some (view (submitChecked answers identityValidated wantImmediate c).2.2.sock log') := by
  have hbranch : ∀ d : Cell, d.sock.kind = .pipe →
      (submitIdle answers wantImmediate d).2.2 = (submitPipe answers d).2 := by
    intro d hd
    simp only [submitIdle, hd]
  rw [submitChecked]
  split
  · rw [hbranch c hpipe.kind]
    exact submitPipe_runs hpipe hidle hfree hheld hopen
  · obtain ⟨e, epoch, result, hvalid⟩ := validate_pipe answers.identity hpipe hmatched
    obtain ⟨d, hd⟩ : ∃ d, d = c.mapSock fun s =>
      { s with identityCheckedEpoch := epoch, identityCheckedResult := result } := ⟨_, rfl⟩
    rw [hvalid, ← hd]
    dsimp only
    have hview : view c.sock log = view d.sock log := by
      rw [hd]
      rfl
    have hpipe' : EdgePipe d.sock := by
      rw [hd]
      exact ⟨hpipe.kind, hpipe.edge, hpipe.repeats, hpipe.shared, hpipe.unfired⟩
    rw [hbranch d hpipe'.kind, hview]
    refine submitPipe_runs hpipe' ?_ ?_ ?_ ?_ <;> rw [hd]
    · exact hidle
    · exact hfree
    · exact hheld
    · exact hopen

/-- A poll to be retried is cancelled: its packet is queued, or it is over. -/
theorem cancel_cases (answers : CancelAnswers) (hlive : Live c)
    (hpending : c.sock.pollStatus = .pending) (hdisarm : answers.disarm = none) :
    ∃ status w state armed count, (status = .cancelled ∨ status = .idle) ∧
      epSockCancelLocked answers c = (none, { c with
        sock := { c.sock with
          pollStatus := status, waitRegistration := w, pendingEvents := 0, state := state }
        port := { c.port with waitArmed := armed, pendingPollCount := count } }) := by
  have hne : c.sock.pollStatus ≠ .idle := by rw [hpending]; nofun
  have hcount : c.port.pendingPollCount ≠ 0 := Nat.pos_iff_ne_zero.mp (hlive.accounted hne)
  have haux : c.sock.isAux = true := by simp [EpSock.isAux, hlive.kind]
  obtain ⟨w, armed, harm⟩ : ∃ w armed, epAuxDisarmLocked answers.disarm c = (none, { c with
      sock := { c.sock with waitRegistration := w }
      port := { c.port with waitArmed := armed } }) := by
    refine (disarm_cases answers.disarm c).resolve_left fun ⟨e, he⟩ => ?_
    rw [hdisarm, epAuxDisarmLocked] at he
    split at he <;> cases he
  rw [epSockCancelLocked, if_neg (not_not.mpr hpending), if_pos haux, harm]
  cases hposted : c.sock.completionPosted with
  | true =>
    refine ⟨.cancelled, w, c.sock.state, armed, c.port.pendingPollCount, .inl rfl, ?_⟩
    simp [Cell.mapSock, hposted]
  | false =>
    refine ⟨.idle, w, .registered, armed, c.port.pendingPollCount - 1, .inr rfl, ?_⟩
    simp [Cell.mapSock, hposted, epSockCompletePendingLocked, hpending, hcount, hlive.kept,
      hlive.opened]

theorem submit_refines {answers : SubmitAnswers} {identityValidated wantImmediate : Bool}
    (hlive : Live c) (hmatched : Matched c) (hdisarm : answers.disarm = none)
    (hopen : (epPipeSnapshot answers.pipe c.sock).localClosed = false) :
    ∃ acts log', run Reg.step (view c.sock log) acts =
      some (view (epSockSubmitLocked answers identityValidated wantImmediate c).2.2.sock log') := by
  have hawake : epWaitableIsDormant c.sock = false := by simp [epWaitableIsDormant, hlive.kind]
  have haux : c.sock.isAux = true := by simp [EpSock.isAux, hlive.kind]
  have hstay : run Reg.step (view c.sock log) [] = some (view c.sock log) := rfl
  simp only [epSockSubmitLocked, hlive.opened, hlive.kept, hawake, haux, Bool.false_or,
    Bool.false_eq_true, if_false, Bool.true_and]
  split
  · exact ⟨[], log, hstay⟩
  rename_i hfree
  split
  · rename_i hretry
    simp only [Bool.and_eq_true, decide_eq_true_eq] at hretry
    obtain ⟨hpending, hneeds⟩ := hretry
    obtain ⟨status, w, state, armed, count, hstatus, hcancel⟩ :=
      cancel_cases answers.cancel hlive hpending hdisarm
    obtain ⟨d, hd⟩ : ∃ d : Cell, d = { c with
      sock := { c.sock with
        pollStatus := status, waitRegistration := w, pendingEvents := 0, state := state }
      port := { c.port with waitArmed := armed, pendingPollCount := count } } := ⟨_, rfl⟩
    have hpipe' : EdgePipe d.sock := by
      rw [hd]
      exact ⟨hlive.kind, hlive.edge, hlive.repeats, hlive.shared, hlive.unfired⟩
    have hqueue : c.sock.readyQueued = false := hlive.unqueued (by rw [hpending]; nofun)
    have hview : view d.sock log = { view c.sock log with pollStatus := status } := by
      rw [hd]
      simp [view, hqueue]
    have hpoll : d.sock.pollStatus = status := by rw [hd]
    rw [hcancel, ← hd]
    dsimp only
    rcases hstatus with rfl | rfl
    · -- the queued packet still has to come
      refine ⟨[.cancel], log, ?_⟩
      rw [if_pos (by rw [hpoll]; nofun), hview]
      simp [run, Reg.step, view, hpending, hneeds]
    have hrecover : (view c.sock log).step .recover = some (view d.sock log) := by
      rw [hview]
      simp [Reg.step, view, hpending, hneeds]
    rw [if_neg (not_not.mpr hpoll)]
    split
    · exact ⟨[.recover], log, by rw [run, hrecover]; rfl⟩
    split
    · exact ⟨[.recover], log, by rw [run, hrecover]; rfl⟩
    rename_i hheld
    obtain ⟨acts, log', hrun⟩ := submitChecked_runs answers identityValidated
      wantImmediate log hpipe' (by rw [hd]; exact hmatched) hpoll
      (by rw [hd]; exact hqueue) (Bool.not_eq_true _ ▸ hheld) (by rw [hd]; exact hopen)
    exact ⟨.recover :: acts, log', by rw [run, hrecover]; exact hrun⟩
  split
  · exact ⟨[], log, hstay⟩
  split
  · exact ⟨[], log, hstay⟩
  rename_i hidle hheld
  exact submitChecked_runs answers identityValidated wantImmediate log hlive.toEdgePipe hmatched
    (not_not.mp hidle) (Bool.not_eq_true _ ▸ hfree) (Bool.not_eq_true _ ▸ hheld) hopen

end WepollEx.Pipe
