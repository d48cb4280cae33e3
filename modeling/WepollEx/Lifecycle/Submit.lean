import WepollEx.Lifecycle.Shutdown

/-!
# Submission as a sequence of moves

`ep_sock_submit_locked` for each kind of registration.  Besides the moves, a submission that fails
has changed so little that its caller can roll the registration back, and one that yields an
immediate snapshot leaves the registration idle.
-/

namespace WepollEx

open Mask

-- the wrappers around a cell, unfolded wherever two cells are compared
attribute [local simp] Cell.core EpSock.core Port.core Cell.mapSock Cell.mapPort Cell.setFlags
  Cell.flags Flags.needs Flags.fire Cell.bumpGeneration Port.bumpGeneration

section

variable {c d : Cell}

/-- What a submission of `c` has done. -/
structure SubmitSpec (c : Cell) (r : SubmitResult × Bool × Cell) : Prop where
  moves : Moves Plain c r.2.2
  failed : ∀ e, r.1 = .failed e → Failed c r.2.2
  snapshot : r.2.1 = true → Drift c r.2.2 ∧ r.2.2.sock.needsRearm = false

/-- A submission of a waitable or pipe never yields an immediate snapshot. -/
def noSnapshot (r : SubmitResult × Cell) : SubmitResult × Bool × Cell := (r.1, false, r.2)

/-- A registration that may be submitted. -/
structure Submittable (c : Cell) : Prop where
  lifecycle : Lifecycle c
  live : c.freed = false
  opened : c.port.closing = false
  alive : c.sock.deletePending = false
  idle : c.sock.pollStatus = .idle
  unqueued : c.sock.readyQueued = false

theorem Submittable.of_core (h : Submittable c) (hcore : d.core = c.core) : Submittable d where
  lifecycle := h.lifecycle.of_core hcore
  live := (core_congr hcore Cell.freed).trans h.live
  opened := (core_congr hcore fun x => x.port.closing).trans h.opened
  alive := (core_congr hcore fun x => x.sock.deletePending).trans h.alive
  idle := (core_congr hcore fun x => x.sock.pollStatus).trans h.idle
  unqueued := (core_congr hcore fun x => x.sock.readyQueued).trans h.unqueued

namespace SubmitSpec

theorem of_core (hcore : d.core = c.core) (r : SubmitResult) : SubmitSpec c (r, false, d) :=
  ⟨.of_core hcore, fun _ _ => .inl (.of_core hcore), fun h => by simp at h⟩

theorem ok (h : Moves Plain c d) : SubmitSpec c (.ok, false, d) :=
  ⟨h, fun _ hr => by simp at hr, fun hb => by simp at hb⟩

theorem retired (h : Moves Plain c d) (e : Errno) : SubmitSpec c (.retired e, false, d) :=
  ⟨h, fun _ hr => by simp at hr, fun hb => by simp at hb⟩

theorem failing (h : Moves Plain c d) (hf : Failed c d) (e : Errno) :
    SubmitSpec c (.failed e, false, d) :=
  ⟨h, fun _ _ => hf, fun hb => by simp at hb⟩

/-- A submission that follows other small changes. -/
theorem afterDrift {r : SubmitResult × Bool × Cell} (h : SubmitSpec d r) (hm : Moves Plain c d)
    (hd : Drift c d) : SubmitSpec c r :=
  ⟨hm.trans h.moves, fun e hr => hd.failed (h.failed e hr),
    fun hb => ⟨hd.trans (h.snapshot hb).1, (h.snapshot hb).2⟩⟩

/-- A submission that follows a change of the caches. -/
theorem after {r : SubmitResult × Bool × Cell} (h : SubmitSpec d r) (hcore : d.core = c.core) :
    SubmitSpec c r :=
  h.afterDrift (.of_core hcore) (.of_core hcore)

end SubmitSpec

theorem drop_spec (live : c.freed = false) (e : Errno) :
    SubmitSpec c (.retired e, false, epSockDropClosedLocked c) :=
  .retired (dropClosed_moves live) e

/-! ## Waitables and pipes -/

theorem auxPost_cases (answer : Option Errno) (status : NtStatus) (c : Cell) :
    epAuxPostCompletion answer status c = (none, { c with
        sock := { c.sock with ioStatus := status, completionPosted := true }
        port := { c.port with iocp := c.port.iocp ++ [.status c.addr] } }) ∨
      ∃ e, epAuxPostCompletion answer status c = (some e, { c with
        sock := { c.sock with ioStatus := status, completionPosted := false }
        port := epPortFailIocpPost c.port e }) := by
  unfold epAuxPostCompletion
  rcases postIocp_cases c.port answer (.status c.addr) with h | ⟨e, h⟩
  · left
    simp [h]
  · right
    refine ⟨e, ?_⟩
    simp [h]

/-- `d` is `c` on a port that a failed post has closed. -/
def PortFault (c d : Cell) : Prop :=
  ∃ packets, (packets = c.port.iocp ∨ packets = []) ∧ d.core = Cell.core (c.mapPort fun p => { p with
    closing := true
    iocpPostHandle := false
    iocpClosed := true
    iocp := packets
    iocpPostFailures := p.iocpPostFailures + 1 })

theorem failPost_fault (opened : c.port.closing = false) (e : Errno) :
    PortFault c (c.mapPort fun p => epPortFailIocpPost p e) := by
  refine ⟨if c.port.iocpClosed then c.port.iocp else [], by split <;> simp, ?_⟩
  simp [epPortFailIocpPost, opened]

theorem PortFault.faulted (h : PortFault c d) : Faulted c d := by
  obtain ⟨packets, hp, hd⟩ := h
  exact ⟨packets, c.port.consumedCount, c.sock.waitableNotificationOwned, hp, .inl ⟨rfl, rfl⟩, hd⟩

/-- A fault after a notification was taken costs that notification. -/
theorem PortFault.of_taken (h : PortFault c.takeNotification d)
    (consumes : epWaitableMayConsume c.sock = true) : Faulted c d := by
  obtain ⟨packets, hp, hd⟩ := h
  exact ⟨packets, bumpAt c.port.consumedCount c.sock.serial, true, hp, .inr ⟨consumes, rfl⟩, hd⟩

/-- A waitable or pipe posts its own packet. -/
theorem postAux_moves (h : Submittable c) (aux : c.sock.isAux = true)
    (unfired : c.sock.oneshotFired = false)
    (owned : epWaitableMayConsume c.sock = true → c.sock.waitableNotificationOwned = true) :
    Moves Plain c (epSockSetNeedsRearmLocked { c with
        sock := { c.sock with ioStatus := STATUS_SUCCESS, completionPosted := true }
        port := { c.port with iocp := c.port.iocp ++ [.status c.addr] } } false).setPolling := by
  have h1 := setNeedsRearm_moves h.live false (by simp) (by simp [h.alive])
  rw [setNeedsRearm_eq] at h1
  have h2 := h1.plain h.live (.postAux (c := c.setFlags (c.flags.needs c.addr false)) aux h.idle
    h.unqueued unfired h.alive owned)
  refine h2.quiet ?_
  simp [setNeedsRearm_eq, Cell.setPolling]

/-- A waitable or pipe registers a wait or a timer. -/
theorem armAux_moves (h : Submittable c) (aux : c.sock.isAux = true)
    (unfired : c.sock.oneshotFired = false)
    (unowned : epWaitableMayConsume c.sock = true → c.sock.waitableNotificationOwned = false) :
    Moves Plain c (epSockSetNeedsRearmLocked { c with
        sock := { c.sock with waitRegistration := true }
        port := { c.port with waitArmed := Function.update c.port.waitArmed c.addr true } }
      false).setPolling := by
  have h1 := setNeedsRearm_moves h.live false (by simp) (by simp [h.alive])
  rw [setNeedsRearm_eq] at h1
  have h2 := h1.plain h.live (.armWait (c := c.setFlags (c.flags.needs c.addr false)) aux h.idle
    h.unqueued unfired h.alive unowned)
  refine h2.quiet ?_
  simp [setNeedsRearm_eq, Cell.setPolling]

theorem auxArm_cases (h : Submittable c) (aux : c.sock.isAux = true) (answer : Option Errno) :
    (∃ e, epAuxArmLocked answer c = (some e, c)) ∨
      epAuxArmLocked answer c = (none, { c with
        sock := { c.sock with waitRegistration := true }
        port := { c.port with waitArmed := Function.update c.port.waitArmed c.addr true } }) := by
  unfold epAuxArmLocked
  rw [if_neg (by simp [(h.lifecycle.aux_idle aux h.idle).1])]
  cases answer with
  | some e => exact .inl ⟨e, rfl⟩
  | none => exact .inr rfl

/-- The packet of an idle waitable or pipe is posted, or its failure closes the port. -/
theorem auxPosted_spec (h : Submittable c) (aux : c.sock.isAux = true)
    (unfired : c.sock.oneshotFired = false)
    (owned : epWaitableMayConsume c.sock = true → c.sock.waitableNotificationOwned = true)
    (answer : Option Errno) :
    (∃ d, epAuxPostCompletion answer STATUS_SUCCESS c = (none, d) ∧
        Moves Plain c (epSockSetNeedsRearmLocked d false).setPolling) ∨
      ∃ e d, epAuxPostCompletion answer STATUS_SUCCESS c = (some e, d) ∧ Moves Plain c d ∧
        PortFault c d := by
  rcases auxPost_cases answer STATUS_SUCCESS c with hp | ⟨e, hp⟩
  · exact .inl ⟨_, hp, postAux_moves h aux unfired owned⟩
  · have hs : { c.sock with ioStatus := STATUS_SUCCESS, completionPosted := false } = c.sock := by
      rw [← h.lifecycle.aux_status aux, ← (h.lifecycle.aux_idle aux h.idle).2]
    rw [hs] at hp
    exact .inr ⟨e, _, hp, failPost_moves h.live e, failPost_fault h.opened e⟩

theorem isAux_of_waitable (kind : c.sock.kind = .waitable) : c.sock.isAux = true := by
  simp [EpSock.isAux, kind]

theorem isAux_of_pipe (kind : c.sock.kind = .pipe) : c.sock.isAux = true := by
  simp [EpSock.isAux, kind]

theorem Submittable.unarmed (h : Submittable c) : c.port.waitArmed c.addr = false :=
  unarmed_of_refs (h.lifecycle.unreferenced h.idle)

/-- Taking a notification keeps a registration submittable. -/
theorem takeNotification_moves (h : Submittable c) (unowned : c.sock.waitableNotificationOwned = false)
    (consumes : epWaitableMayConsume c.sock = true) : Moves Plain c c.takeNotification :=
  Moves.single h.live (.take consumes unowned h.unqueued h.unarmed)

theorem takeNotification_submittable (h : Submittable c)
    (unowned : c.sock.waitableNotificationOwned = false)
    (consumes : epWaitableMayConsume c.sock = true) : Submittable c.takeNotification :=
  ⟨h.lifecycle.moves (takeNotification_moves h unowned consumes) h.live, h.live, h.opened, h.alive,
    h.idle, h.unqueued⟩

theorem SubmitSpec.faulted (hm : Moves Plain c d) (hf : Faulted c d) (e : Errno) :
    SubmitSpec c (.failed e, false, d) :=
  .failing hm (.inr ⟨c, .of_core rfl, hf⟩) e

/-- Bits leave the latch of a registration that is about to be armed. -/
theorem relatch_moves (h : Submittable c) {o : Events} (within : Within o c.sock.observedEvents) :
    Moves Plain c (c.mapSock fun s => { s with observedEvents := o }) :=
  Moves.single h.live (.latch fun _ => within.inl _)

theorem relatch_submittable (h : Submittable c) {o : Events}
    (within : Within o c.sock.observedEvents) :
    Submittable (c.mapSock fun s => { s with observedEvents := o }) :=
  ⟨h.lifecycle.moves (relatch_moves h within) h.live, h.live, h.opened, h.alive, h.idle, h.unqueued⟩

theorem within_ite_zero (p : Prop) [Decidable p] (o : Events) : Within (if p then 0 else o) o := by
  split
  · exact .zero _
  · exact .refl _

/-- The waitable branch once the registration is known to want a poll. -/
theorem submitWaitable_armed (h : Submittable c) (kind : c.sock.kind = .waitable)
    (unfired : c.sock.oneshotFired = false) (needs : c.sock.needsRearm = true)
    (holdoff : c.sock.etHoldoff = false) (answers : SubmitAnswers) :
    SubmitSpec c (noSnapshot (submitWaitable answers c)) := by
  have haux := isAux_of_waitable kind
  have hself : (c.mapSock fun s => { s with etHoldoff := false }) = c := by
    show ({ c with sock := { c.sock with etHoldoff := false } } : Cell) = c
    rw [← holdoff]
  unfold submitWaitable
  simp only [unfired, needs, hself, Bool.false_eq_true, if_false, Bool.not_true]
  split
  · rename_i howned
    rcases auxPosted_spec h haux unfired (fun _ => howned) answers.post with
      ⟨d, hd, hm⟩ | ⟨e, d, hd, hm, hf⟩
    · rw [hd]
      exact .ok hm
    · rw [hd]
      exact .faulted hm hf.faulted e
  rename_i howned
  have howned : c.sock.waitableNotificationOwned = false := by simpa using howned
  cases answers.wait with
  | failed invalid e =>
    dsimp only
    split
    · exact drop_spec h.live _
    · exact .of_core rfl _
  | timeout =>
    have hw := within_ite_zero (c.sock.isET = true) c.sock.observedEvents
    have h1 := relatch_moves h hw
    have hsub := relatch_submittable h hw
    show SubmitSpec c (noSnapshot (settlePolling (epAuxArmLocked answers.register (c.mapSock fun s =>
      { s with observedEvents := if c.sock.isET = true then 0 else c.sock.observedEvents }))))
    rcases auxArm_cases hsub haux answers.register with ⟨e, he⟩ | he
    · rw [he]
      exact .failing h1 (.inl (.latch c _)) e
    · rw [he]
      exact .ok (h1.trans (armAux_moves hsub haux unfired fun _ => howned))
  | object0 =>
    dsimp only
    by_cases hcons : epWaitableMayConsume c.sock = true
    · rw [if_pos hcons]
      have h1 := takeNotification_moves h howned hcons
      rcases auxPosted_spec (takeNotification_submittable h howned hcons) haux unfired
          (fun _ => rfl) answers.post with ⟨d, hd, hm⟩ | ⟨e, d, hd, hm, hf⟩
      · rw [hd]
        exact .ok (h1.trans hm)
      · rw [hd]
        exact .faulted (h1.trans hm) (hf.of_taken hcons) e
    · rw [if_neg hcons]
      rcases auxPosted_spec h haux unfired (fun hc => absurd hc hcons) answers.post with
        ⟨d, hd, hm⟩ | ⟨e, d, hd, hm, hf⟩
      · rw [hd]
        exact .ok hm
      · rw [hd]
        exact .faulted hm hf.faulted e

theorem submitWaitable_spec (h : Submittable c) (kind : c.sock.kind = .waitable)
    (answers : SubmitAnswers) :
    SubmitSpec c (noSnapshot (submitWaitable answers c)) := by
  by_cases hfired : c.sock.oneshotFired = true
  · unfold submitWaitable
    rw [if_pos hfired]
    exact .of_core rfl _
  by_cases hneeds : c.sock.needsRearm = true
  · have hsame : submitWaitable answers (c.mapSock fun s => { s with etHoldoff := false }) =
        submitWaitable answers c := by
      simp [submitWaitable, hfired, hneeds]
    have h0 : Submittable (c.mapSock fun s => { s with etHoldoff := false }) := h.of_core rfl
    rw [← hsame]
    exact (submitWaitable_armed h0 kind (by simpa using hfired) hneeds rfl answers).after rfl
  · unfold submitWaitable
    rw [if_neg hfired, if_pos (by simpa using hneeds)]
    exact .of_core rfl _

/-! ### Pipes -/

theorem pipe_not_mayConsume (kind : c.sock.kind = .pipe) : epWaitableMayConsume c.sock = false := by
  simp [epWaitableMayConsume, kind]

/-- The pipe branch once the registration is known to want a poll. -/
theorem pipeSchedule_spec (h : Submittable c) (kind : c.sock.kind = .pipe)
    (unfired : c.sock.oneshotFired = false) (level : Events) (answers : SubmitAnswers) :
    (∃ d, epPipeScheduleLocked answers level c = (none, d) ∧
        Moves Plain c (epSockSetNeedsRearmLocked d false).setPolling) ∨
      ∃ e d, epPipeScheduleLocked answers level c = (some e, d) ∧ Moves Plain c d ∧
        Failed c d := by
  have haux := isAux_of_pipe kind
  have hcons : ∀ p, epWaitableMayConsume c.sock = true → p :=
    fun p hc => by simp [pipe_not_mayConsume kind] at hc
  unfold epPipeScheduleLocked
  rw [if_neg (by simp [(h.lifecycle.aux_idle haux h.idle).1])]
  split
  · rcases auxPosted_spec h haux unfired (hcons _) answers.post with
      ⟨d, hd, hm⟩ | ⟨e, d, hd, hm, hf⟩
    · exact .inl ⟨d, hd, hm⟩
    · exact .inr ⟨e, d, hd, hm, .inr ⟨c, .of_core rfl, hf.faulted⟩⟩
  · rcases auxArm_cases h haux answers.register with ⟨e, he⟩ | he
    · exact .inr ⟨e, c, he, .refl, .inl (.of_core rfl)⟩
    · exact .inl ⟨_, he, armAux_moves h haux unfired (hcons _)⟩

theorem submitPipe_spec (h : Submittable c) (kind : c.sock.kind = .pipe)
    (answers : SubmitAnswers) :
    SubmitSpec c (noSnapshot (submitPipe answers c)) := by
  unfold submitPipe
  dsimp only
  generalize epPipeSnapshot answers.pipe c.sock = snapshot
  split
  · exact drop_spec h.live _
  split
  · exact .of_core rfl _
  rename_i hfired
  have unfired : c.sock.oneshotFired = false := by simpa using hfired
  split
  · exact .of_core rfl _
  suffices hs : ∀ d, Moves Plain c d → Drift c d → Submittable d → d.sock.kind = .pipe →
      d.sock.oneshotFired = false →
      SubmitSpec c (noSnapshot (settlePolling
        (epPipeScheduleLocked answers snapshot.events d))) by
    by_cases hclear : snapshot.valid = true ∧ snapshot.events = 0 ∧ c.sock.isET = true
    · have h0 : Submittable (c.mapSock fun s =>
          { s with etHoldoff := false, pipeTerminalDelivered := false }) := h.of_core rfl
      have hm : Moves Plain c (c.mapSock fun s =>
          { s with etHoldoff := false, pipeTerminalDelivered := false }) := .of_core rfl
      have hd : Drift c (c.mapSock fun s =>
          { s with etHoldoff := false, pipeTerminalDelivered := false }) := .of_core rfl
      rw [if_pos (by exact hclear)]
      exact hs _ (hm.trans (relatch_moves h0 (.zero _))) (hd.trans (.latch _ 0))
        (relatch_submittable h0 (.zero _)) kind unfired
    · rw [if_neg (by exact hclear)]
      exact hs (c.mapSock fun s => { s with etHoldoff := false }) (.of_core rfl) (.of_core rfl)
        (h.of_core rfl) kind unfired
  intro d hmoves hdrift hsub hkind hunf
  rcases pipeSchedule_spec hsub hkind hunf snapshot.events answers with
    ⟨e, he, hm⟩ | ⟨n, e, he, hm, hf⟩
  · rw [he]
    exact .ok (hmoves.trans hm)
  · rw [he]
    exact .failing (hmoves.trans hm) (hdrift.failed hf) n

/-! ## Sockets -/

/-- A registration with another AFD status. -/
def Cell.withStatus (c : Cell) (v : NtStatus) : Cell := c.mapSock fun s => { s with ioStatus := v }

theorem withStatus_moves (live : c.freed = false) (socket : c.sock.kind = .socket) (v : NtStatus) :
    Moves Plain c (c.withStatus v) :=
  Moves.single live (.status fun ha => by simp [isAux_false_iff.mpr socket] at ha)

theorem withStatus_drift (socket : c.sock.kind = .socket) (v : NtStatus) :
    Drift c (c.withStatus v) :=
  ⟨rfl, rfl, .refl, rfl, fun ha => by simp [isAux_false_iff.mpr socket] at ha, rfl⟩

/-- The three outcomes of an AFD request. -/
theorem afdPollSubmit_cases (answers : SubmitAnswers) (afdEvents : AfdEvents) (c : Cell) :
    (∃ e d v, epAfdPollSubmit answers afdEvents c = (.error e, d) ∧ d.core = (c.withStatus v).core) ∨
    (∃ d, epAfdPollSubmit answers afdEvents c = (.ok false, d) ∧
      d.core = (c.withStatus STATUS_SUCCESS).core) ∨
    (∃ d, epAfdPollSubmit answers afdEvents c = (.ok true, d) ∧ d.core = Cell.core { c with
      sock := { c.sock with
        ioStatus := STATUS_PENDING
        pollStatus := .pending
        observedEvents := if c.sock.isET then 0 else c.sock.observedEvents }
      port := { c.port with afdInFlight := Function.update c.port.afdInFlight c.addr true } }) := by
  have hbase := afdPollBase_core answers.base c
  unfold epAfdPollSubmit
  generalize epAfdPollBase answers.base c = r at hbase ⊢
  obtain ⟨failed, b⟩ := r
  have hb : b.core = c.core := hbase
  have hinfo : ∀ v, ((b.mapSock fun s => { s with afdInfo := ⟨1, afdEvents, 0⟩ }).withStatus v).core =
      (c.withStatus v).core := by
    intro v
    exact congrArg (fun x => x.withStatus v) hb
  cases failed with
  | some e => exact .inl ⟨e, b, c.sock.ioStatus, rfl, hb⟩
  | none =>
    dsimp only
    cases answers.pollKey with
    | some e => exact .inl ⟨e, _, c.sock.ioStatus, rfl, hb⟩
    | none =>
      dsimp only
      cases answers.afd with
      | failed e => exact .inl ⟨e, _, STATUS_PENDING, rfl, hinfo _⟩
      | success info => exact .inr (.inl ⟨_, rfl, hinfo _⟩)
      | pending =>
        refine .inr (.inr ⟨_, rfl, ?_⟩)
        exact congrArg (fun x : Cell => ({ x with
          sock := { x.sock with
            ioStatus := STATUS_PENDING
            pollStatus := .pending
            observedEvents := if x.sock.isET then 0 else x.sock.observedEvents }
          port := { x.port with
            afdInFlight := Function.update x.port.afdInFlight x.addr true } } : Cell)) hb

theorem Submittable.withStatus (h : Submittable c) (socket : c.sock.kind = .socket) (v : NtStatus) :
    Submittable (c.withStatus v) :=
  ⟨h.lifecycle.moves (withStatus_moves h.live socket v) h.live, h.live, h.opened, h.alive, h.idle,
    h.unqueued⟩

/-- A request that is pending. -/
theorem afdPending_moves (h : Submittable c) (socket : c.sock.kind = .socket)
    (unfired : c.sock.oneshotFired = false) :
    Moves Plain c { epSockSetNeedsRearmLocked c false with
      sock := { (epSockSetNeedsRearmLocked c false).sock with
        ioStatus := STATUS_PENDING
        pollStatus := .pending
        observedEvents := if c.sock.isET then 0 else c.sock.observedEvents }
      port := { (epSockSetNeedsRearmLocked c false).port with
        afdInFlight := Function.update c.port.afdInFlight c.addr true
        pendingPollCount := c.port.pendingPollCount + 1 } } := by
  have hs := h.withStatus socket STATUS_PENDING
  have h1 := withStatus_moves h.live socket STATUS_PENDING
  have h2 := h1.trans (setNeedsRearm_moves hs.live false (by simp) (by simp [hs.alive]))
  rw [setNeedsRearm_eq] at h2
  have h3 := h2.plain h.live (.submitAfd (o := if c.sock.isET then 0 else c.sock.observedEvents)
    (by exact socket) (by exact h.idle) (by exact h.unqueued) (by exact unfired)
    (by exact h.alive) (by exact within_ite_zero _ _))
  refine h3.quiet ?_
  simp [setNeedsRearm_eq, Cell.withStatus]

/-- A snapshot that is posted as a packet, or whose post fails. -/
theorem afdPost_spec (h : Submittable c) (socket : c.sock.kind = .socket)
    (unfired : c.sock.oneshotFired = false) (answer : Option Errno) :
    SubmitSpec c (match epPortPostIocp (epSockSetNeedsRearmLocked c false).setPolling.port answer
        (.status (epSockSetNeedsRearmLocked c false).setPolling.addr) with
      | (none, p) => (.ok, false, { (epSockSetNeedsRearmLocked c false).setPolling with port := p })
      | (some e, p) =>
        (.failed e, false, (epSockSetNeedsRearmLocked
          { (epSockSetNeedsRearmLocked c false).setPolling with
            sock := { (epSockSetNeedsRearmLocked c false).setPolling.sock with
              pollStatus := .idle, state := .registered }
            port := { p with pendingPollCount := p.pendingPollCount - 1 } } true).mapPort
              fun p => epPortFailIocpPost p e)) := by
  have h1 := setNeedsRearm_moves h.live false (by simp) (by simp [h.alive])
  rw [setNeedsRearm_eq] at h1
  rcases postIocp_cases (epSockSetNeedsRearmLocked c false).setPolling.port answer
    (.status (epSockSetNeedsRearmLocked c false).setPolling.addr) with hp | ⟨e, hp⟩
  · rw [hp]
    have h2 := h1.plain h.live (.postAfd (by exact socket) (by exact h.idle) (by exact h.unqueued)
      (by exact unfired) (by exact h.alive))
    refine .ok (h2.quiet ?_)
    simp [setNeedsRearm_eq, Cell.setPolling]
  · rw [hp]
    -- the poll is taken back and the rearm flag set again before the port is closed
    set m : Cell := c.setFlags ((c.flags.needs c.addr false).needs c.addr true) with hm
    have ht : Toggles c.addr c.flags ((c.flags.needs c.addr false).needs c.addr true) :=
      .needs true (.needs false .refl)
    have hmoves : Moves Plain c m := Moves.single h.live (.relist ht
      (fun hd => by simp [h.alive] at hd) (.inl rfl)
      (fun _ hf => by simp [unfired] at hf))
    have hdrift : Drift c m := ⟨rfl, rfl, ht, rfl, fun _ hs => hs, rfl⟩
    have hcore : ((epSockSetNeedsRearmLocked
          { (epSockSetNeedsRearmLocked c false).setPolling with
            sock := { (epSockSetNeedsRearmLocked c false).setPolling.sock with
              pollStatus := .idle, state := .registered }
            port := { (epSockSetNeedsRearmLocked c false).setPolling.port with
              pendingPollCount :=
                (epSockSetNeedsRearmLocked c false).setPolling.port.pendingPollCount - 1 } }
          true).mapPort fun p => epPortFailIocpPost p e).core =
        (m.mapPort fun p => epPortFailIocpPost p e).core := by
      simp [hm, setNeedsRearm_eq, Cell.setPolling, h.idle, epPortFailIocpPost, h.opened]
    have hfault : PortFault m (m.mapPort fun p => epPortFailIocpPost p e) :=
      failPost_fault (c := m) h.opened e
    refine .failing ((hmoves.trans (failPost_moves (c := m) h.live e)).quiet hcore) (.inr ⟨m, hdrift, ?_⟩) e
    obtain ⟨packets, hpk, hd⟩ := hfault
    exact PortFault.faulted ⟨packets, hpk, hcore.trans hd⟩

theorem submitAfd_spec (h : Submittable c) (socket : c.sock.kind = .socket)
    (unfired : c.sock.oneshotFired = false) (answers : SubmitAnswers) (wantImmediate : Bool)
    (afdEvents : AfdEvents) : SubmitSpec c (submitAfd answers wantImmediate afdEvents c) := by
  unfold submitAfd
  cases answers.afdGroup with
  | some e => exact .of_core rfl _
  | none =>
    dsimp only
    refine SubmitSpec.after
      (d := c.mapSock fun s => { s with submittedWaitEpoch := c.port.activeWaitEpoch }) ?_ rfl
    have h0 : Submittable (c.mapSock fun s =>
      { s with submittedWaitEpoch := c.port.activeWaitEpoch }) := h.of_core rfl
    have socket0 : (c.mapSock fun s =>
      { s with submittedWaitEpoch := c.port.activeWaitEpoch }).sock.kind = .socket := socket
    have unfired0 : (c.mapSock fun s =>
      { s with submittedWaitEpoch := c.port.activeWaitEpoch }).sock.oneshotFired = false := unfired
    generalize (c.mapSock fun s => { s with submittedWaitEpoch := c.port.activeWaitEpoch }) = b
      at h0 socket0 unfired0 ⊢
    rcases afdPollSubmit_cases answers afdEvents b with
      ⟨e, d, v, hr, hd⟩ | ⟨d, hr, hd⟩ | ⟨d, hr, hd⟩
    · rw [hr]
      have hm := withStatus_moves h0.live socket0 v
      have hd' : (d.mapSock fun s =>
          { s with submittedWaitEpoch := c.sock.submittedWaitEpoch }).core =
          (b.withStatus v).core := hd
      dsimp only
      split
      · refine .retired ((hm.quiet hd').trans (dropClosed_moves ?_)) _
        exact (core_congr hd Cell.freed).trans h0.live
      · exact .failing (hm.quiet hd') (.inl ((withStatus_drift socket0 v).trans (.of_core hd'))) e
    · rw [hr]
      have hm := withStatus_moves h0.live socket0 STATUS_SUCCESS
      have hs := (h0.withStatus socket0 STATUS_SUCCESS).of_core hd
      have hdr := (withStatus_drift socket0 STATUS_SUCCESS).trans (.of_core hd)
      have socket1 : d.sock.kind = .socket := (core_congr hd fun x => x.sock.kind).trans socket0
      have unfired1 : d.sock.oneshotFired = false :=
        (core_congr hd fun x => x.sock.oneshotFired).trans unfired0
      dsimp only
      split
      · have hneeds := setNeedsRearm_moves hs.live false (by simp) (by simp [hs.alive])
        refine ⟨((hm.quiet hd).trans hneeds).quiet ?_, fun _ hf => by simp at hf, fun _ => ⟨?_, ?_⟩⟩
        · rfl
        · exact (hdr.trans (.needsRearm d false)).trans (.of_core rfl)
        · rw [setNeedsRearm_eq]
          rfl
      split
      · exact .ok (hm.quiet hd)
      · exact (afdPost_spec hs socket1 unfired1 answers.post).afterDrift (hm.quiet hd) hdr
    · rw [hr]
      refine .ok ((afdPending_moves h0 socket0 unfired0).quiet ?_)
      simpa [setNeedsRearm_eq] using
        congrArg (fun x : Cell => ({ x.setFlags (x.flags.needs x.addr false) with
          port := { (x.setFlags (x.flags.needs x.addr false)).port with
            pendingPollCount := x.port.pendingPollCount + 1 } } : Cell)) hd

/-- Small moves keep a registration submittable. -/
theorem Submittable.drift (h : Submittable c) (hm : Moves Plain c d) (hd : Drift c d) :
    Submittable d := by
  have live : d.freed = false := hd.freed.trans h.live
  have hs := congrArg EpSock.deletePending hd.sock
  have hi := congrArg EpSock.pollStatus hd.sock
  have hq := congrArg EpSock.readyQueued hd.sock
  have hc := congrArg Port.closing hd.port
  exact ⟨h.lifecycle.moves hm live, live, hc.trans h.opened, hs.trans h.alive, hi.trans h.idle,
    hq.trans h.unqueued⟩

theorem Drift.fired (h : Drift c d) : d.sock.oneshotFired = c.sock.oneshotFired := by
  have := congrArg EpSock.oneshotFired h.sock
  exact this

theorem Drift.dead (h : Drift c d) : d.sock.deletePending = c.sock.deletePending := by
  have := congrArg EpSock.deletePending h.sock
  exact this

theorem Drift.kind (h : Drift c d) : d.sock.kind = c.sock.kind := by
  have := congrArg EpSock.kind h.sock
  exact this

/-- The socket branch behind the local-shutdown check. -/
theorem submitMask_spec (h : Submittable c) (socket : c.sock.kind = .socket)
    (unfired : c.sock.oneshotFired = false) (answers : SubmitAnswers) (wantImmediate : Bool) :
    SubmitSpec c (if epSockAfdEventsLocked c.port c.sock c.sock.userEvents = 0 then
        (.ok, false, (epSockSetNeedsRearmLocked c false).mapSock
          fun s => { s with state := .registered })
      else submitAfd answers wantImmediate
        (epSockAfdEventsLocked c.port c.sock c.sock.userEvents) c) := by
  split
  · have hm := setNeedsRearm_moves h.live false (by simp) (by simp [h.alive])
    refine .ok (hm.quiet ?_)
    rfl
  · exact submitAfd_spec h socket unfired answers wantImmediate _

theorem submitSocket_spec (h : Submittable c) (socket : c.sock.kind = .socket)
    (answers : SubmitAnswers) (wantImmediate : Bool) :
    SubmitSpec c (submitSocket answers wantImmediate c) := by
  unfold submitSocket
  split
  · cases answers.base with
    | error e =>
      dsimp only
      split
      · exact drop_spec h.live _
      · exact .of_core rfl _
    | ok base =>
      refine .of_core ?_ _
      rfl
  rename_i hfired
  have unfired : c.sock.oneshotFired = false := by simpa using hfired
  split
  · exact .of_core rfl _
  dsimp only
  refine SubmitSpec.after (d := c.mapSock fun s => { s with etHoldoff := false }) ?_ rfl
  have h0 : Submittable (c.mapSock fun s => { s with etHoldoff := false }) := h.of_core rfl
  have socket0 : (c.mapSock fun s => { s with etHoldoff := false }).sock.kind = .socket := socket
  have unfired0 : (c.mapSock fun s => { s with etHoldoff := false }).sock.oneshotFired = false :=
    unfired
  generalize (c.mapSock fun s => { s with etHoldoff := false }) = b at h0 socket0 unfired0 ⊢
  by_cases hsh : b.sock.localShutdown ≠ .none
  · rw [if_pos hsh]
    have hq := queueLocalShutdown_spec h0.lifecycle h0.live h0.alive socket0 h0.idle answers.levels
      answers.nodeAlloc answers.claims answers.now false
    generalize epSockQueueLocalShutdownLocked answers.levels answers.nodeAlloc answers.claims
      answers.now false b = r at hq ⊢
    obtain ⟨q, d⟩ := r
    cases q with
    | queued => exact .ok hq.moves
    | failed e => exact .failing hq.moves (.inl (hq.drift (by simp))) e
    | nothing =>
      have hd := hq.drift (by simp)
      exact (submitMask_spec (h0.drift hq.moves hd) (hd.kind.trans socket0)
        (hd.fired.trans unfired0) answers wantImmediate).afterDrift hq.moves hd
  · rw [if_neg hsh]
    exact submitMask_spec h0 socket0 unfired0 answers wantImmediate

/-! ## The whole submission -/

theorem submitIdle_spec (h : Submittable c) (answers : SubmitAnswers) (wantImmediate : Bool) :
    SubmitSpec c (submitIdle answers wantImmediate c) := by
  unfold submitIdle
  cases hk : c.sock.kind with
  | waitable => exact submitWaitable_spec h hk answers
  | pipe => exact submitPipe_spec h hk answers
  | socket => exact submitSocket_spec h hk answers wantImmediate

theorem submitChecked_spec (h : Submittable c) (answers : SubmitAnswers)
    (identityValidated wantImmediate : Bool) :
    SubmitSpec c (submitChecked answers identityValidated wantImmediate c) := by
  unfold submitChecked
  split
  · exact submitIdle_spec h answers wantImmediate
  · have hcore := validateForDelivery_core answers.identity c
    generalize epSockValidateIdentityForDeliveryLocked answers.identity c = r at hcore ⊢
    obtain ⟨check, e, d⟩ := r
    have hd : Submittable d := h.of_core hcore
    cases check with
    | error => exact .of_core hcore _
    | stale => exact (drop_spec hd.live _).after hcore
    | closed => exact (drop_spec hd.live _).after hcore
    | matching => exact (submitIdle_spec hd answers wantImmediate).after hcore

/-- A registration that is settled without a poll. -/
theorem settle_spec (live : c.freed = false) (alive : c.sock.deletePending = false) :
    SubmitSpec c (if ((epSockSetNeedsRearmLocked c false).mapSock
          fun s => { s with etHoldoff := false }).sock.pollStatus = .idle then
        (SubmitResult.ok, false, ((epSockSetNeedsRearmLocked c false).mapSock
          fun s => { s with etHoldoff := false }).mapSock fun s => { s with state := .registered })
      else (.ok, false, (epSockSetNeedsRearmLocked c false).mapSock
        fun s => { s with etHoldoff := false })) := by
  have hm := setNeedsRearm_moves live false (by simp) (by simp [alive])
  split
  · refine .ok (hm.quiet ?_)
    rfl
  · refine .ok (hm.quiet ?_)
    rfl

/-- The submission of an idle registration. -/
theorem submit_spec (h : Lifecycle c) (live : c.freed = false) (idle : c.sock.pollStatus = .idle)
    (answers : SubmitAnswers) (identityValidated wantImmediate : Bool) :
    SubmitSpec c (epSockSubmitLocked answers identityValidated wantImmediate c) := by
  unfold epSockSubmitLocked
  split
  · exact .of_core rfl _
  rename_i hguard
  simp only [Bool.or_eq_true, not_or, Bool.not_eq_true] at hguard
  obtain ⟨⟨hopen, halive⟩, hunq⟩ := hguard
  have hsub : Submittable c := ⟨h, live, hopen, halive, idle, hunq⟩
  split
  · rw [if_neg (by simp [idle])]
    exact settle_spec live halive
  split
  · rename_i hpend
    simp [idle] at hpend
  split
  · rename_i hbusy
    exact absurd idle hbusy
  split
  · exact .of_core rfl _
  · exact submitChecked_spec hsub answers identityValidated wantImmediate

theorem submit_moves (h : Lifecycle c) (live : c.freed = false) (answers : SubmitAnswers)
    (identityValidated wantImmediate : Bool) :
    Moves Plain c (epSockSubmitLocked answers identityValidated wantImmediate c).2.2 := by
  by_cases idle : c.sock.pollStatus = .idle
  · exact (submit_spec h live idle answers identityValidated wantImmediate).moves
  have hcan := cancel_cancelled h live answers.cancel
  have hlife := hcan.lifecycle h live
  unfold epSockSubmitLocked
  split
  · exact .refl
  rename_i hguard
  simp only [Bool.or_eq_true, not_or, Bool.not_eq_true] at hguard
  obtain ⟨⟨hopen, halive⟩, hunq⟩ := hguard
  generalize epSockCancelLocked answers.cancel c = r at hcan hlife ⊢
  obtain ⟨failed, d⟩ := r
  have hlive : d.freed = false := hcan.freed.trans live
  have halive' : d.sock.deletePending = false := hcan.dead.trans halive
  have hunq' : d.sock.readyQueued = false := hcan.ready.trans hunq
  dsimp only
  split
  · split
    · cases failed with
      | some e => exact hcan.moves
      | none => exact hcan.moves.trans (settle_spec hlive halive').moves
    · exact (settle_spec live halive).moves
  split
  · cases failed with
    | some e => exact hcan.moves.trans (dropClosed_moves hlive)
    | none =>
      dsimp only
      split
      · exact hcan.moves
      split
      · exact hcan.moves
      rename_i hidle hclosed
      split
      · exact hcan.moves
      · have hsub : Submittable d := ⟨hlife, hlive, by simp at hclosed; exact hclosed.1, halive',
          by simpa using hidle, hunq'⟩
        exact hcan.moves.trans
          (submitChecked_spec hsub answers identityValidated wantImmediate).moves
  · exact .refl

/-- Nothing is submitted for a registration whose node is queued. -/
theorem submit_of_queued (queued : c.sock.readyQueued = true) (answers : SubmitAnswers)
    (identityValidated wantImmediate : Bool) :
    epSockSubmitLocked answers identityValidated wantImmediate c = (.ok, false, c) := by
  unfold epSockSubmitLocked
  rw [if_pos (by simp [queued])]

end

end WepollEx
