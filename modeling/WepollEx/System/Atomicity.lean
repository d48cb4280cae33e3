import WepollEx.System.Environment

/-!
# Failed control calls

A MOD, rearm or class rearm that fails either closes the port, retires the registration, or leaves
the registration, its ready nodes and the count of pending polls as it found them.
-/

namespace WepollEx

open Granted

/-! ## What a failed call leaves -/

/-- `t` is `s` as far as a failed call may not change it. -/
structure EpSock.Untouched (s t : EpSock) : Prop where
  fd : t.fd = s.fd
  userEvents : t.userEvents = s.userEvents
  userFlags : t.userFlags = s.userFlags
  userData : t.userData = s.userData
  userCtx : t.userCtx = s.userCtx
  state : t.state = s.state
  pollStatus : t.pollStatus = s.pollStatus
  pendingEvents : t.pendingEvents = s.pendingEvents
  observedEvents : t.observedEvents = s.observedEvents
  explicitDisarmedClasses : t.explicitDisarmedClasses = s.explicitDisarmedClasses
  needsRearm : t.needsRearm = s.needsRearm
  oneshotFired : t.oneshotFired = s.oneshotFired
  generation : t.generation = s.generation
  readyQueued : t.readyQueued = s.readyQueued
  etHoldoff : t.etHoldoff = s.etHoldoff
  pipeTerminalDelivered : t.pipeTerminalDelivered = s.pipeTerminalDelivered
  udpReadlessReceiveParked : t.udpReadlessReceiveParked = s.udpReadlessReceiveParked
  waitableNotificationOwned : t.waitableNotificationOwned = s.waitableNotificationOwned

/-- A failed call has left the registration and the port as they were. -/
structure Intact (b d : Cell) : Prop where
  sock : b.sock.Untouched d.sock
  queue : d.port.readyQueue = b.port.readyQueue
  held : d.port.drainNode = b.port.drainNode
  polls : d.port.pendingPollCount = b.port.pendingPollCount

/-- What becomes of a registration whose call failed. -/
def Spared (b d : Cell) : Prop :=
  d.port.closing = true ∨ d.sock.deletePending = true ∨ Intact b d

section

variable {b c d : Cell}

theorem Intact.refl : Intact c c :=
  ⟨⟨rfl, rfl, rfl, rfl, rfl, rfl, rfl, rfl, rfl, rfl, rfl, rfl, rfl, rfl, rfl, rfl, rfl, rfl⟩,
    rfl, rfl, rfl⟩

theorem Spared.refl : Spared c c := .inr (.inr .refl)

/-- A rollback that wrote the display state and the flags outside the core back. -/
theorem Intact.of_undone {m : Cell} (hcore : d.core = (undone b m).core)
    (state : d.sock.state = b.sock.state) (holdoff : d.sock.etHoldoff = b.sock.etHoldoff)
    (terminal : d.sock.pipeTerminalDelivered = b.sock.pipeTerminalDelivered)
    (parked : d.sock.udpReadlessReceiveParked = b.sock.udpReadlessReceiveParked) : Intact b d where
  sock :=
    { fd := core_congr hcore fun x => x.sock.fd
      userEvents := core_congr hcore fun x => x.sock.userEvents
      userFlags := core_congr hcore fun x => x.sock.userFlags
      userData := core_congr hcore fun x => x.sock.userData
      userCtx := core_congr hcore fun x => x.sock.userCtx
      state := state
      pollStatus := core_congr hcore fun x => x.sock.pollStatus
      pendingEvents := core_congr hcore fun x => x.sock.pendingEvents
      observedEvents := core_congr hcore fun x => x.sock.observedEvents
      explicitDisarmedClasses := core_congr hcore fun x => x.sock.explicitDisarmedClasses
      needsRearm := core_congr hcore fun x => x.sock.needsRearm
      oneshotFired := core_congr hcore fun x => x.sock.oneshotFired
      generation := core_congr hcore fun x => x.sock.generation
      readyQueued := core_congr hcore fun x => x.sock.readyQueued
      etHoldoff := holdoff
      pipeTerminalDelivered := terminal
      udpReadlessReceiveParked := parked
      waitableNotificationOwned := core_congr hcore fun x => x.sock.waitableNotificationOwned }
  queue := core_congr hcore fun x => x.port.readyQueue
  held := core_congr hcore fun x => x.port.drainNode
  polls := core_congr hcore fun x => x.port.pendingPollCount

/-- A rollback after a failed submission undoes the attempt, unless a post has failed. -/
theorem Restores.spares {a : Cell} {K : Cell → Prop} {rollback : Cell → Cell}
    (hr : Restores b K rollback) (ha : Altered b a) (hK : ∀ m, Drift a m → K m)
    (hf : Failed a d) (state : (rollback d).sock.state = b.sock.state)
    (holdoff : (rollback d).sock.etHoldoff = b.sock.etHoldoff)
    (terminal : (rollback d).sock.pipeTerminalDelivered = b.sock.pipeTerminalDelivered)
    (parked : (rollback d).sock.udpReadlessReceiveParked = b.sock.udpReadlessReceiveParked) :
    Spared b (rollback d) := by
  rcases hf with hd | ⟨m, hm, packets, consumed, owned, hp, hc, hd⟩
  · exact .inr (.inr (.of_undone (hr.drift (ha.drift hd) (hK d hd)) state holdoff terminal parked))
  · left
    have ham := ha.drift hm
    have hmay : epWaitableMayConsume m.sock = epWaitableMayConsume b.sock := by
      have := congrArg epWaitableMayConsume ham.sock
      exact this
    have hcore := hr.fault ham (hK m hm) (fun hno => ?_) hd
    · exact core_congr hcore fun x => x.port.closing
    · rcases hc with ⟨-, ho⟩ | ⟨hyes, -⟩
      · exact ho
      · rw [hmay, hno] at hyes
        cases hyes

/-! ## Retired registrations -/

theorem dropClosed_dead (c : Cell) : (epSockDropClosedLocked c).sock.deletePending = true := by
  unfold epSockDropClosedLocked freeIfIdle epSockFreeLocked
  simp only [setNeedsRearm_eq, setOneshotFired_eq]
  split <;> rfl

theorem retireStale_dead (answers : CancelAnswers) (c : Cell) :
    (epSockRetireStaleLocked answers c).sock.deletePending = true := by
  unfold epSockRetireStaleLocked
  exact dropClosed_dead _

/-- A submission that retires its registration has condemned it. -/
def Condemns (r : SubmitResult × Bool × Cell) : Prop :=
  ∀ e, r.1 = .retired e → r.2.2.sock.deletePending = true

theorem Condemns.dropped (e : Errno) (i : Bool) (c : Cell) :
    Condemns (.retired e, i, epSockDropClosedLocked c) := fun _ _ => dropClosed_dead c

theorem Condemns.of_result {r : SubmitResult × Bool × Cell} (h : ∀ e, r.1 ≠ .retired e) :
    Condemns r := fun e he => absurd he (h e)

theorem settlePolling_result (r : Option Errno × Cell) (e : Errno) :
    (settlePolling r).1 ≠ .retired e := by
  obtain ⟨failed, c⟩ := r
  cases failed <;> nofun

theorem submitWaitable_condemns (answers : SubmitAnswers) (c : Cell) :
    Condemns (noSnapshot (submitWaitable answers c)) := by
  unfold submitWaitable
  split
  · exact .of_result nofun
  split
  · exact .of_result nofun
  dsimp only
  split
  · exact .of_result (settlePolling_result _)
  cases answers.wait with
  | failed invalidHandle e =>
    cases invalidHandle with
    | true => exact .dropped _ _ _
    | false => exact .of_result nofun
  | timeout => exact .of_result (settlePolling_result _)
  | object0 => exact .of_result (settlePolling_result _)

theorem submitPipe_condemns (answers : SubmitAnswers) (c : Cell) :
    Condemns (noSnapshot (submitPipe answers c)) := by
  unfold submitPipe
  dsimp only
  split
  · exact .dropped _ _ _
  split
  · exact .of_result nofun
  split
  · exact .of_result nofun
  · exact .of_result (settlePolling_result _)

theorem submitAfd_condemns (answers : SubmitAnswers) (wantImmediate : Bool)
    (afdEvents : AfdEvents) (c : Cell) :
    Condemns (submitAfd answers wantImmediate afdEvents c) := by
  unfold submitAfd
  cases answers.afdGroup with
  | some e => exact .of_result nofun
  | none =>
    dsimp only
    generalize epAfdPollSubmit answers afdEvents _ = r
    obtain ⟨result, d⟩ := r
    cases result with
    | error e =>
      dsimp only
      split
      · exact .dropped _ _ _
      · exact .of_result nofun
    | ok pending =>
      cases pending with
      | true => exact .of_result nofun
      | false =>
        dsimp only
        split
        · exact .of_result nofun
        split
        · exact .of_result nofun
        generalize epPortPostIocp _ answers.post _ = posted
        obtain ⟨failed, p⟩ := posted
        cases failed <;> exact .of_result nofun

theorem submitSocket_condemns (answers : SubmitAnswers) (wantImmediate : Bool) (c : Cell) :
    Condemns (submitSocket answers wantImmediate c) := by
  unfold submitSocket
  split
  · cases answers.base with
    | error e =>
      dsimp only
      split
      · exact .dropped _ _ _
      · exact .of_result nofun
    | ok base => exact .of_result nofun
  split
  · exact .of_result nofun
  dsimp only
  split
  · exact .of_result nofun
  · exact .of_result nofun
  split
  · exact .of_result nofun
  · exact submitAfd_condemns _ _ _ _

theorem submitIdle_condemns (answers : SubmitAnswers) (wantImmediate : Bool) (c : Cell) :
    Condemns (submitIdle answers wantImmediate c) := by
  unfold submitIdle
  cases c.sock.kind with
  | waitable => exact submitWaitable_condemns answers c
  | pipe => exact submitPipe_condemns answers c
  | socket => exact submitSocket_condemns answers wantImmediate c

/-- The submission of an idle registration whose identity the caller has checked. -/
theorem submit_condemns (idle : c.sock.pollStatus = .idle) (answers : SubmitAnswers)
    (wantImmediate : Bool) : Condemns (epSockSubmitLocked answers true wantImmediate c) := by
  unfold epSockSubmitLocked
  split
  · exact .of_result nofun
  split
  · rw [if_neg (by simp [idle])]
    dsimp only
    split <;> exact .of_result nofun
  rw [if_neg (by simp [idle]), if_neg (by simp [idle])]
  split
  · exact .of_result nofun
  · unfold submitChecked
    rw [if_pos (.inr rfl)]
    exact submitIdle_condemns answers wantImmediate c

/-! ## The terminal mark of a pipe

The rollback of a class rearm does not restore it, so the submission of a socket must keep it. -/

theorem setNeedsRearm_terminal (c : Cell) (b : Bool) :
    (epSockSetNeedsRearmLocked c b).sock.pipeTerminalDelivered = c.sock.pipeTerminalDelivered := by
  rw [setNeedsRearm_eq]
  rfl

/-- A local shutdown that is not queued keeps the mark. -/
theorem queueShutdownLevel_terminal {level : Events} {nodeAlloc : Option Errno}
    {claims : List Classes} {now : Nat} {node : Bool}
    (h : (queueShutdownLevel level nodeAlloc claims now node c).1 ≠ .queued) :
    (queueShutdownLevel level nodeAlloc claims now node c).2.sock.pipeTerminalDelivered =
      c.sock.pipeTerminalDelivered := by
  obtain ⟨fresh, observed, hfresh, -, -⟩ := freshBits_spec c.sock level
  unfold queueShutdownLevel at h ⊢
  simp only [hfresh] at h ⊢
  generalize (if c.sock.readyQueued = true then c.sock.pendingEvents ||| fresh else fresh) =
    delivered at h ⊢
  split
  · rfl
  split
  · rfl
  rename_i hgo hsome
  rw [if_neg hgo, if_neg hsome] at h
  cases hn : (if node = true then none else nodeAlloc) with
  | some e => rfl
  | none =>
    rw [hn] at h
    dsimp only at h ⊢
    split
    · rw [setNeedsRearm_terminal]
      rfl
    · rename_i hclaim
      rw [hclaim] at h
      exact absurd rfl h

theorem afdPollSubmit_terminal (answers : SubmitAnswers) (afdEvents : AfdEvents) (c : Cell) :
    (epAfdPollSubmit answers afdEvents c).2.sock.pipeTerminalDelivered =
      c.sock.pipeTerminalDelivered := by
  have hbase : (epAfdPollBase answers.base c).2.sock.pipeTerminalDelivered =
      c.sock.pipeTerminalDelivered := by
    unfold epAfdPollBase
    split
    · rfl
    split
    · rfl
    split
    · rfl
    · split <;> rfl
  unfold epAfdPollSubmit
  generalize epAfdPollBase answers.base c = r at hbase ⊢
  obtain ⟨failed, b⟩ := r
  cases failed with
  | some e => exact hbase
  | none =>
    dsimp only
    cases answers.pollKey with
    | some e => exact hbase
    | none =>
      cases answers.afd <;> exact hbase

/-- A failed submission keeps the terminal mark. -/
def KeepsTerminal (c : Cell) (r : SubmitResult × Bool × Cell) : Prop :=
  ∀ e, r.1 = .failed e → r.2.2.sock.pipeTerminalDelivered = c.sock.pipeTerminalDelivered

theorem submitAfd_keepsTerminal (answers : SubmitAnswers) (afdEvents : AfdEvents) (c : Cell) :
    KeepsTerminal c (submitAfd answers false afdEvents c) := by
  unfold submitAfd
  cases answers.afdGroup with
  | some e => exact fun _ _ => rfl
  | none =>
    dsimp only
    have hsub := afdPollSubmit_terminal answers afdEvents
      (c.mapSock fun s => { s with submittedWaitEpoch := c.port.activeWaitEpoch })
    generalize epAfdPollSubmit answers afdEvents _ = r at hsub ⊢
    obtain ⟨result, d⟩ := r
    cases result with
    | error e =>
      dsimp only
      split
      · exact nofun
      · exact fun _ _ => hsub
    | ok pending =>
      cases pending with
      | true => exact nofun
      | false =>
        dsimp only
        rw [if_neg (by simp)]
        split
        · exact nofun
        generalize epPortPostIocp _ answers.post _ = posted
        obtain ⟨failed, p⟩ := posted
        cases failed with
        | none => exact nofun
        | some e =>
          intro _ _
          simp only [Cell.mapPort_sock, setNeedsRearm_eq]
          exact hsub

theorem submitSocket_keepsTerminal (answers : SubmitAnswers) (c : Cell) :
    KeepsTerminal c (submitSocket answers false c) := by
  unfold submitSocket
  split
  · cases answers.base with
    | error e =>
      dsimp only
      split
      · exact nofun
      · exact fun _ _ => rfl
    | ok base => exact nofun
  split
  · exact nofun
  dsimp only
  have hlevel : (epSockLocalShutdownLevelLocked answers.levels
      (c.mapSock fun s => { s with etHoldoff := false })).2.sock.pipeTerminalDelivered =
        c.sock.pipeTerminalDelivered := by
    rw [localShutdownLevel_sock]
    rfl
  have hqueue : ∀ r : QueueResult × Cell, r = (if c.sock.localShutdown ≠ .none then
      epSockQueueLocalShutdownLocked answers.levels answers.nodeAlloc answers.claims answers.now
        false (c.mapSock fun s => { s with etHoldoff := false })
      else (.nothing, c.mapSock fun s => { s with etHoldoff := false })) → r.1 ≠ .queued →
      r.2.sock.pipeTerminalDelivered = c.sock.pipeTerminalDelivered := by
    intro r hr hne
    split at hr
    · subst hr
      exact (queueShutdownLevel_terminal hne).trans hlevel
    · subst hr
      rfl
  split
  · rename_i e d hr
    exact fun _ _ => hqueue _ hr.symm (by simp)
  · exact nofun
  · rename_i d hr
    have hd := hqueue _ hr.symm (by simp)
    split
    · exact nofun
    · intro e he
      exact (submitAfd_keepsTerminal answers _ d e he).trans hd

/-- The submission of an idle socket whose identity the caller has checked. -/
theorem submit_keepsTerminal (idle : c.sock.pollStatus = .idle) (socket : c.sock.kind = .socket)
    (answers : SubmitAnswers) : KeepsTerminal c (epSockSubmitLocked answers true false c) := by
  unfold epSockSubmitLocked
  split
  · exact nofun
  rw [if_neg (by simp [epWaitableIsDormant, socket]), if_neg (by simp [idle]),
    if_neg (by simp [idle])]
  split
  · exact nofun
  · unfold submitChecked submitIdle
    rw [if_pos (.inr rfl), socket]
    exact submitSocket_keepsTerminal answers c

/-! ## The three calls -/

/-- A cancellation that fails has changed nothing. -/
theorem cancel_failed {answers : CancelAnswers} {e : Errno} (h : Lifecycle c)
    (live : c.freed = false) (failed : epSockCancelLocked answers c = (some e, d)) : d = c := by
  unfold epSockCancelLocked at failed
  split at failed
  · cases failed
  rename_i hpend
  have pending : c.sock.pollStatus = .pending := by simpa using hpend
  have hbusy : c.sock.pollStatus ≠ .idle := by simp [pending]
  have hcount := h.busy_counted hbusy
  split at failed
  · rcases auxDisarm_cases h live answers.disarm with ⟨e', he⟩ | ⟨waits, hd, -, -⟩
    · rw [he] at failed
      cases failed
      rfl
    · rw [hd] at failed
      dsimp only at failed
      split at failed
      · cases failed
      rw [completePending_eq answers.asyncPost (by simpa [Cell.disarmed] using hbusy)
        (by simpa [Cell.disarmed] using hcount)] at failed
      dsimp only at failed
      split at failed <;> cases failed
  · rcases afdCancel_cases answers.afd c with hc | ⟨e', hc⟩ | hc
    · rw [hc] at failed
      cases failed
    · rw [hc] at failed
      cases failed
      rfl
    · rw [hc] at failed
      cases failed

theorem cancelCovering_failed {answers : CancelAnswers} {e : Errno} (h : Lifecycle c)
    (live : c.freed = false) (failed : cancelCovering answers c = (.error e, d)) : d = c := by
  unfold cancelCovering at failed
  split at failed
  · rename_i e' d' hc
    cases failed
    exact cancel_failed h live hc
  · cases failed

/-- A MOD settles a pending poll without a change, leaves the poll to its packet, or parks a
waitable without interest. -/
theorem modifyPendingPoll_spec {answers : ControlAnswers} {events : Events}
    {result : Except Errno Bool} (h : Lifecycle c) (live : c.freed = false)
    (hr : modifyPendingPoll answers events c = (result, d)) :
    d = c ∨ ((∃ covers, result = .ok covers) ∧ c.sock.pollStatus = .pending ∧
      (d.sock.pollStatus ≠ .idle ∨
        (c.sock.kind = .waitable ∧ epWaitableInterestEvents events = 0))) := by
  unfold modifyPendingPoll at hr
  split at hr
  · cases hr
    exact .inl rfl
  rename_i hpend
  have pending : c.sock.pollStatus = .pending := by simpa using hpend
  have hfailed : ∀ e, cancelCovering answers.cancel c = (.error e, d) → d = c :=
    fun e he => cancelCovering_failed h live he
  have hbusy : c.sock.kind = .socket → cancelCovering answers.cancel c = (result, d) →
      d.sock.pollStatus ≠ .idle := by
    intro socket hc
    have hsnd := cancelCovering_snd answers.cancel c
    rw [hc] at hsnd
    rw [show d = _ from hsnd]
    exact cancelAfd_busy socket pending answers.cancel
  dsimp only at hr
  split at hr
  · rename_i hdormant
    cases result with
    | error e => exact .inl (hfailed e hr)
    | ok covers => exact .inr ⟨⟨covers, rfl⟩, pending, .inr hdormant⟩
  split at hr
  · cases hr
    exact .inl rfl
  rename_i haux
  have socket : c.sock.kind = .socket := isAux_false_iff.mp (by simpa using haux)
  have hcancelled : cancelCovering answers.cancel c = (result, d) →
      d = c ∨ ((∃ covers, result = .ok covers) ∧ c.sock.pollStatus = .pending ∧
        (d.sock.pollStatus ≠ .idle ∨
          (c.sock.kind = .waitable ∧ epWaitableInterestEvents events = 0))) := by
    intro hc
    cases result with
    | error e => exact .inl (hfailed e hc)
    | ok covers => exact .inr ⟨⟨covers, rfl⟩, pending, .inl (hbusy socket hc)⟩
  split at hr
  · exact hcancelled hr
  split at hr
  · cases hr
    exact .inl rfl
  · exact hcancelled hr

/-- Nothing but the submission can fail once a MOD is written. -/
theorem modifySubmit_spares {a : Cell} {answers : ControlAnswers} {e : Errno} (h : Lifecycle a)
    (live : a.freed = false) (ha : a.sock.readyQueued = false → Altered b a)
    (failed : modifySubmit answers b a = (.fail e, d)) : Spared b d := by
  unfold modifySubmit at failed
  split at failed
  swap
  · cases failed
  rename_i hgo
  simp only [Bool.and_eq_true, decide_eq_true_eq] at hgo
  have idle := hgo.1.2
  cases hq : a.sock.readyQueued with
  | true =>
    rw [submit_of_queued hq] at failed
    cases failed
  | false =>
    have hs := submit_spec h live idle answers.submit true false
    have hdead := submit_condemns idle answers.submit false
    generalize epSockSubmitLocked answers.submit true false a = r at hs hdead failed
    obtain ⟨result, immediate, m⟩ := r
    cases result with
    | ok => cases failed
    | retired e' =>
      cases failed
      exact .inr (.inl (hdead e rfl))
    | failed e' =>
      cases failed
      exact (modifyRollback_restores b).spares (ha hq) (fun _ _ => trivial) (hs.failed e rfl)
        rfl rfl rfl rfl

theorem modifyLocked_spares {answers : ControlAnswers} {events flags : Events} {data : BitVec 64}
    {ctx : Nat} {e : Errno} (h : Lifecycle c) (live : c.freed = false)
    (alive : c.sock.deletePending = false) (plain : flags &&& EPOLLEXCLUSIVE = 0)
    (failed : modifyLocked answers events flags data ctx c = (.fail e, d)) : Spared c d := by
  unfold modifyLocked at failed
  split at failed
  · cases failed
    exact .refl
  split at failed
  · cases failed
    exact .refl
  split at failed
  · cases failed
    exact .refl
  rename_i hexplicit
  split at failed
  · rename_i e' d' hpoll
    cases failed
    rcases modifyPendingPoll_spec h live hpoll with rfl | ⟨⟨covers, hok⟩, -, -⟩
    · exact .refl
    · cases hok
  · rename_i covers m hpoll
    have hcan : Cancelled c m := by
      have := modifyPendingPoll_cancelled h live answers events
      rwa [hpoll] at this
    have hl := hcan.lifecycle h live
    have hlive : m.freed = false := hcan.freed.trans live
    have halive : m.sock.deletePending = false := hcan.dead.trans alive
    have hex : m.port.explicitRearm = true → flags &&& EPOLLET ≠ 0 → m.sock.kind = .socket := by
      rw [show m.port.explicitRearm = c.port.explicitRearm from hcan.explicit,
        show m.sock.kind = c.sock.kind from hcan.kind]
      intro he het
      by_contra hno
      exact hexplicit ⟨he, het, hno⟩
    obtain ⟨hm, ha⟩ := modifyApply_spec hl hlive halive events data ctx covers answers.now plain hex
    have hfreed := (modifyApply_freed events flags data ctx covers answers.now m).trans hlive
    rcases modifyPendingPoll_spec h live hpoll with rfl | ⟨-, pending, hrest⟩
    · split at failed
      · cases failed
        exact .refl
      · exact modifySubmit_spares (hl.moves hm hfreed) hfreed ha failed
    · -- the poll was given up: no node is queued, and nothing is submitted
      have hunq : m.sock.readyQueued = false :=
        hcan.ready.trans (h.busy_unqueued (by simp [pending]))
      have hnone : holdsQueuedNotification m.sock = false := by simp [holdsQueuedNotification, hunq]
      have hcore := @modifyApply_core m events flags data ctx covers answers.now (by simp [hnone])
      have hstatus : (modifyApply events flags data ctx covers answers.now m).sock.pollStatus =
          m.sock.pollStatus := core_congr hcore fun x => x.sock.pollStatus
      have hdormant : epWaitableIsDormant
          (modifyApply events flags data ctx covers answers.now m).sock =
            (m.sock.kind = .waitable && epWaitableInterestEvents events = 0 : Bool) :=
        core_congr hcore fun x => epWaitableIsDormant x.sock
      simp only [hnone, Bool.false_and, Bool.false_eq_true, if_false] at failed
      unfold modifySubmit at failed
      rw [if_neg] at failed
      · cases failed
      rw [hstatus, hdormant, show m.sock.kind = c.sock.kind from hcan.kind]
      rcases hrest with hbusy | ⟨hk, hz⟩
      · simp [hbusy]
      · simp [hk, hz]

/-- The rearm of a oneshot delivery. -/
theorem rearmLocked_spares_implicit {answers : ControlAnswers} {e : Errno} (h : Lifecycle c)
    (live : c.freed = false) (alive : c.sock.deletePending = false)
    (implicit : epSockExplicitRearmEnabled c.port c.sock = false)
    (failed : rearmLocked answers c = (.fail e, d)) : Spared c d := by
  unfold rearmLocked at failed
  rw [if_neg (by simp [implicit])] at failed
  split at failed
  · cases failed
  rename_i hfired
  have fired : c.sock.oneshotFired = true := by simpa using hfired
  dsimp only at failed
  split at failed
  swap
  · cases failed
  have hm := rearmApply_moves live alive implicit
  have ha := rearmApply_altered c
  have hlive : (rearmApply c).freed = false := ha.freed.trans live
  have hidle : (rearmApply c).sock.pollStatus = .idle :=
    (core_congr (rearmApply_core c) fun x => x.sock.pollStatus).trans (h.fired_idle fired)
  have hs := submit_spec (h.moves hm hlive) hlive hidle answers.submit true false
  have hdead := submit_condemns hidle answers.submit false
  generalize epSockSubmitLocked answers.submit true false (rearmApply c) = r at hs hdead failed
  obtain ⟨result, immediate, m⟩ := r
  cases result with
  | ok => cases failed
  | retired e' =>
    cases failed
    exact .inr (.inl (hdead e rfl))
  | failed e' =>
    cases failed
    refine (rearmRollback_restores c).spares ha (fun m hd => ?_) (hs.failed e rfl) rfl rfl rfl rfl
    exact rearmApply_kept hd

/-- The submission behind an acknowledgement. -/
theorem rearmClassesSubmit_spares {a : Cell} {answers : ControlAnswers} {newAfdEvents : AfdEvents}
    {e : Errno} (h : Lifecycle c) (live : c.freed = false) (socket : c.sock.kind = .socket)
    (ha : Acknowledged c a)
    (terminal : a.sock.pipeTerminalDelivered = c.sock.pipeTerminalDelivered)
    (failed : rearmClassesSubmit answers newAfdEvents c a = (.fail e, d)) : Spared c d := by
  unfold rearmClassesSubmit at failed
  split at failed
  swap
  · cases failed
  rename_i hgo
  simp only [Bool.and_eq_true, decide_eq_true_eq] at hgo
  have idle := hgo.1.1
  have hlive : a.freed = false := ha.altered.freed.trans live
  have hkind : a.sock.kind = .socket := by
    have := congrArg EpSock.kind ha.altered.sock
    exact Eq.trans this socket
  have hs := submit_spec (h.moves ha.moves hlive) hlive idle answers.submit true false
  have hdead := submit_condemns idle answers.submit false
  have hkeep := submit_keepsTerminal idle hkind answers.submit
  generalize epSockSubmitLocked answers.submit true false a = r at hs hdead hkeep failed
  obtain ⟨result, immediate, m⟩ := r
  cases result with
  | ok => cases failed
  | retired e' =>
    cases failed
    exact .inr (.inl (hdead e rfl))
  | failed e' =>
    cases failed
    refine (rearmClassesRollback_restores c (by simp [epWaitableMayConsume, socket])).spares
      ha.altered (fun m hd => ha.kept hd) (hs.failed e rfl) rfl rfl ?_ rfl
    have hback : (rearmClassesRollback c m).sock.pipeTerminalDelivered =
        m.sock.pipeTerminalDelivered := by
      simp only [rearmClassesRollback, Cell.unrecord, restoreWorklist_eq]
      rfl
    exact hback.trans ((hkeep e rfl).trans terminal)

theorem rearmClassesApply_terminal (classes newDisarmed : Classes) (rearmOneshot covers : Bool)
    (newAfdEvents : AfdEvents) (c : Cell) :
    (rearmClassesApply classes newDisarmed rearmOneshot covers newAfdEvents c).sock.pipeTerminalDelivered =
      c.sock.pipeTerminalDelivered := by
  unfold rearmClassesApply
  cases rearmOneshot <;> cases covers <;> simp [setNeedsRearm_eq, setOneshotFired_eq, Cell.setFlags,
    Cell.record, Cell.bumpGeneration]

theorem rearmClassesPendingPoll_failed {answers : ControlAnswers} {rearmOneshot : Bool}
    {newAfdEvents : AfdEvents} {e : Errno} (h : Lifecycle c) (live : c.freed = false)
    (failed : rearmClassesPendingPoll answers rearmOneshot newAfdEvents c = (.error e, d)) :
    d = c := by
  unfold rearmClassesPendingPoll at failed
  split at failed
  · cases failed
  dsimp only at failed
  split at failed
  · exact cancelCovering_failed h live failed
  split at failed
  · exact cancelCovering_failed h live failed
  split at failed
  · cases failed
  · exact cancelCovering_failed h live failed

/-- A class rearm behind its checks.  `b` is the registration with its receive poll unparked. -/
theorem rearmClassesCommit_spares {answers : ControlAnswers} {classes : Classes}
    {rearmOneshot : Bool} {newAfdEvents : AfdEvents} {e : Errno} (h : Lifecycle c)
    (live : c.freed = false) (alive : c.sock.deletePending = false)
    (socket : c.sock.kind = .socket) (unqueued : c.sock.readyQueued = false)
    (hb : ∃ parked, b = c.mapSock fun s => { s with udpReadlessReceiveParked := parked })
    (fired : rearmOneshot = false → c.sock.oneshotFired = false)
    (last : rearmOneshot = true → c.sock.explicitDisarmedClasses &&& ~~~classes = 0)
    (failed : rearmClassesCommit answers classes (c.sock.explicitDisarmedClasses &&& ~~~classes)
      rearmOneshot newAfdEvents c b = (.fail e, d)) : Spared c d := by
  obtain ⟨parked, rfl⟩ := hb
  set b := c.mapSock fun s => { s with udpReadlessReceiveParked := parked } with hb
  have hcore : b.core = c.core := rfl
  have hlb := h.of_core hcore
  unfold rearmClassesCommit at failed
  split at failed
  · rename_i e' m hpoll
    cases failed
    have hm : m = b := rearmClassesPendingPoll_failed hlb live hpoll
    have hback : (m.mapSock fun s =>
        { s with udpReadlessReceiveParked := c.sock.udpReadlessReceiveParked }) = c := by
      rw [hm]
      rfl
    rw [hback]
    exact .refl
  · rename_i covers m hpoll
    obtain ⟨hcan, hsame⟩ := rearmClassesPendingPoll_spec hlb live socket answers rearmOneshot
      newAfdEvents
    rw [hpoll] at hcan hsame
    have hack : Acknowledged m (rearmClassesApply classes
        (c.sock.explicitDisarmedClasses &&& ~~~classes) rearmOneshot covers newAfdEvents m) := by
      have hdis : m.sock.explicitDisarmedClasses = c.sock.explicitDisarmedClasses := hcan.disarmed
      rw [← hdis]
      exact rearmClassesApply_acknowledged (hcan.freed.trans live) (hcan.dead.trans alive)
        (hcan.ready.trans unqueued) classes rearmOneshot covers
        (fun hno => hcan.fired.trans (fired hno)) (hdis ▸ last) newAfdEvents
    by_cases hidle : m.sock.pollStatus = .idle
    · have hm : m = b := hsame hidle
      refine rearmClassesSubmit_spares h live socket (hack.of_core (by rw [hm]; exact hcore)) ?_
        failed
      rw [rearmClassesApply_terminal, hm]
      rfl
    · unfold rearmClassesSubmit at failed
      rw [if_neg (by simp [hack.status, hidle])] at failed
      cases failed

theorem rearmClasses_spares {answers : ControlAnswers} {classes : Classes} {e : Errno}
    (h : Lifecycle c) (live : c.freed = false) (alive : c.sock.deletePending = false)
    (socket : c.sock.kind = .socket)
    (failed : epSockRearmClassesLocked answers classes c = (.fail e, d)) : Spared c d := by
  unfold epSockRearmClassesLocked at failed
  dsimp only at failed
  split at failed
  · cases failed
    exact .refl
  rename_i hq
  have unqueued : c.sock.readyQueued = false := by simpa using hq
  split at failed
  · cases failed
  split at failed
  · cases failed
  rename_i hpart
  have hunpark : ∀ (p : Prop) [Decidable p] (x : Cell),
      (∃ parked, x = c.mapSock fun s => { s with udpReadlessReceiveParked := parked }) →
      ∃ parked, (if p then x.mapSock fun s => { s with udpReadlessReceiveParked := false } else x) =
        c.mapSock fun s => { s with udpReadlessReceiveParked := parked } := by
    rintro p _ x ⟨parked, rfl⟩
    split
    · exact ⟨false, rfl⟩
    · exact ⟨parked, rfl⟩
  refine rearmClassesCommit_spares h live alive socket unqueued
    (hunpark _ _ (hunpark _ c ⟨c.sock.udpReadlessReceiveParked, rfl⟩)) (fun hno => ?_)
    (fun hyes => by simp only [Bool.and_eq_true, decide_eq_true_eq] at hyes; exact hyes.2) failed
  cases hf : c.sock.oneshotFired with
  | false => rfl
  | true =>
    simp [hf] at hno hpart
    exact absurd hpart hno

theorem rearmClassesLocked_spares {answers : ControlAnswers} {classes : Classes} {e : Errno}
    (h : Lifecycle c) (live : c.freed = false) (alive : c.sock.deletePending = false)
    (failed : rearmClassesLocked answers classes c = (.fail e, d)) : Spared c d := by
  unfold rearmClassesLocked at failed
  split at failed
  · cases failed
    exact .refl
  · rename_i hex
    refine rearmClasses_spares h live alive ?_ failed
    simp [epSockExplicitRearmEnabled] at hex
    exact hex.1.2

theorem rearmLocked_spares {answers : ControlAnswers} {e : Errno} (h : Lifecycle c)
    (live : c.freed = false) (alive : c.sock.deletePending = false)
    (failed : rearmLocked answers c = (.fail e, d)) : Spared c d := by
  cases hex : epSockExplicitRearmEnabled c.port c.sock with
  | true =>
    unfold rearmLocked at failed
    rw [if_pos hex] at failed
    refine rearmClasses_spares h live alive ?_ failed
    simp [epSockExplicitRearmEnabled] at hex
    exact hex.1.2
  | false => exact rearmLocked_spares_implicit h live alive hex failed

/-- The check before a control call. -/
theorem validateControl_intact {answers : ControlAnswers} {check : ControlCheck}
    (hr : epSockValidateControlLocked answers c = (check, d)) :
    d.sock.deletePending = true ∨ Intact c d := by
  unfold epSockValidateControlLocked at hr
  split at hr
  · cases hr
    exact .inr .refl
  obtain ⟨id, state, failures, heq⟩ := validateIdentity_eq answers.identity false c
  have hkept : Intact c (c.withToken id state failures) :=
    { Intact.refl with sock := { (Intact.refl (c := c)).sock with } }
  generalize epSockValidateIdentityLocked answers.identity false c = r at heq hr
  obtain ⟨result, e, m⟩ := r
  have hm : m = c.withToken id state failures := heq
  cases result with
  | matching =>
    cases hr
    rw [hm]
    exact .inr hkept
  | error =>
    cases hr
    rw [hm]
    exact .inr hkept
  | stale =>
    cases hr
    exact .inl (retireStale_dead _ _)
  | closed =>
    dsimp only at hr
    split at hr <;> cases hr <;> exact .inl (retireStale_dead _ _)

theorem EpSock.Untouched.trans {s t u : EpSock} (h : s.Untouched t) (h' : t.Untouched u) :
    s.Untouched u where
  fd := h'.fd.trans h.fd
  userEvents := h'.userEvents.trans h.userEvents
  userFlags := h'.userFlags.trans h.userFlags
  userData := h'.userData.trans h.userData
  userCtx := h'.userCtx.trans h.userCtx
  state := h'.state.trans h.state
  pollStatus := h'.pollStatus.trans h.pollStatus
  pendingEvents := h'.pendingEvents.trans h.pendingEvents
  observedEvents := h'.observedEvents.trans h.observedEvents
  explicitDisarmedClasses := h'.explicitDisarmedClasses.trans h.explicitDisarmedClasses
  needsRearm := h'.needsRearm.trans h.needsRearm
  oneshotFired := h'.oneshotFired.trans h.oneshotFired
  generation := h'.generation.trans h.generation
  readyQueued := h'.readyQueued.trans h.readyQueued
  etHoldoff := h'.etHoldoff.trans h.etHoldoff
  pipeTerminalDelivered := h'.pipeTerminalDelivered.trans h.pipeTerminalDelivered
  udpReadlessReceiveParked := h'.udpReadlessReceiveParked.trans h.udpReadlessReceiveParked
  waitableNotificationOwned := h'.waitableNotificationOwned.trans h.waitableNotificationOwned

theorem Intact.trans (h : Intact b c) (h' : Intact c d) : Intact b d :=
  ⟨h.sock.trans h'.sock, h'.queue.trans h.queue, h'.held.trans h.held, h'.polls.trans h.polls⟩

end

/-! ## Calls on the port -/

section

variable {m m' : Mem} {answers : ControlAnswers} {fd : Socket} {e : Errno}

/-- A failed call on a registered handle. -/
theorem onRegistration_spares {op : Cell → CtlResult × Cell} {a : Addr} (h : Sound m)
    (hop : ∀ c d, Lifecycle c → c.freed = false → c.sock.deletePending = false →
      op c = (.fail e, d) → Spared c d)
    (moves : ∀ c, Lifecycle c → c.freed = false → c.sock.deletePending = false →
      Moves Plain c (op c).2)
    (named : m.port.fdTable fd = some a)
    (failed : onRegistration answers op fd m = (.fail e, m')) :
    ∃ s d, m.socks a = some s ∧ m' = m.put d ∧ d.addr = a ∧ Spared (m.cell a s) d := by
  obtain ⟨s, hs, -⟩ := h.table fd a named
  have hlife := h.life a s hs
  have halive := h.alive_of_table named hs
  unfold onRegistration at failed
  rw [named] at failed
  dsimp only at failed
  rw [hs] at failed
  dsimp only at failed
  have hspec := validateControl_spec hlife rfl answers
  refine ⟨s, ?_⟩
  cases hcheck : epSockValidateControlLocked answers (m.cell a s) with
  | mk check c =>
    rw [hcheck] at failed hspec
    have hvalid := validateControl_intact hcheck
    cases check with
    | retired e' =>
      cases failed
      exact ⟨c, hs, rfl, hspec.1.addr, .inr hvalid⟩
    | failed e' =>
      cases failed
      exact ⟨c, hs, rfl, hspec.1.addr, .inr hvalid⟩
    | live =>
      have hcore : c.core = (m.cell a s).core := hspec.2 rfl
      have hdead : c.sock.deletePending = false :=
        (core_congr hcore fun x => x.sock.deletePending).trans halive
      cases hrun : op c with
      | mk r d =>
        dsimp only at failed
        rw [hrun] at failed
        cases failed
        have hmoves := moves c (hlife.of_core hcore) (core_congr hcore Cell.freed) hdead
        rw [hrun] at hmoves
        refine ⟨d, hs, rfl, hmoves.addr.trans hspec.1.addr, ?_⟩
        rcases hop c d (hlife.of_core hcore) (core_congr hcore Cell.freed) hdead hrun with
          hclosed | hgone | hintact
        · exact .inl hclosed
        · exact .inr (.inl hgone)
        · refine .inr (.inr (Intact.trans ?_ hintact))
          exact hvalid.resolve_left (by simp [hdead])

/-- The calls that change an existing registration and can be undone. -/
def ControlOp.isUpdate : ControlOp → Bool
  | .mod .. => true
  | .rearm .. => true
  | .rearmClasses .. => true
  | _ => false

/-- The node is a snapshot of the registration as it is now. -/
def EpSock.owns (s : EpSock) (node : ReadyNode) : Bool :=
  node.fd = s.fd && node.sockGeneration = s.generation

/-- A failed call has left the registration at `a`, which was `s`, as it found it. -/
structure CallUndone (m m' : Mem) (a : Addr) (s s' : EpSock) : Prop where
  before : m.socks a = some s
  after : m'.socks a = some s'
  sock : s.Untouched s'
  /-- Both worklists link the registration if and only if they did before. -/
  lists : ∀ w, m.Listing w ∧ m'.Listing w ∧ (m'.flagged w a ↔ m.flagged w a)
  queue : m'.port.readyQueue.filter s'.owns = m.port.readyQueue.filter s.owns
  held : m'.port.drainNode.filter s'.owns = m.port.drainNode.filter s.owns
  polls : m'.port.pendingPollCount = m.port.pendingPollCount

theorem EpSock.Untouched.owns {s t : EpSock} (h : s.Untouched t) : t.owns = s.owns := by
  funext node
  rw [EpSock.owns, EpSock.owns, h.fd, h.generation]

theorem EpSock.Untouched.onWorklist {s t : EpSock} (h : s.Untouched t) (w : Worklist) :
    t.onWorklist w = s.onWorklist w := by
  cases w with
  | rearm => exact h.needsRearm
  | oneshot => exact h.oneshotFired

theorem Intact.callUndone {a : Addr} {s : EpSock} {d : Cell} (h : Sound m) (h' : Sound (m.put d))
    (found : m.socks a = some s) (after : (m.put d).socks a = some d.sock)
    (intact : Intact (m.cell a s) d) : CallUndone m (m.put d) a s d.sock where
  before := found
  after := after
  sock := intact.sock
  lists := by
    intro w
    refine ⟨h.listing w, h'.listing w, ?_⟩
    have hsame : d.sock.onWorklist w = s.onWorklist w := intact.sock.onWorklist w
    simp [Mem.flagged, found, after, hsame]
  queue := by rw [intact.sock.owns]; exact congrArg (List.filter s.owns) intact.queue
  held := by rw [intact.sock.owns]; exact congrArg (Option.filter s.owns) intact.held
  polls := intact.polls

theorem update_moves {op : ControlOp} (h : Sound m) (update : op.isUpdate = true)
    (answers : ControlAnswers) : MemMoves Plain m (op.run answers m).2 := by
  cases op with
  | mod fd events data ctx => exact epollCtlMod_moves h answers fd events data ctx
  | rearm fd => exact rearm_moves h answers fd
  | rearmClasses fd classes => exact portRearmClasses_moves h answers fd classes
  | add alloc fd events data ctx => cases update
  | del fd => cases update
  | shutdown fd how => cases update

theorem update_spares {op : ControlOp} {a : Addr} (h : Sound m) (update : op.isUpdate = true)
    (named : m.port.fdTable op.fd = some a) (failed : op.run answers m = (.fail e, m')) :
    m' = m ∨ ∃ s d, m.socks a = some s ∧ m' = m.put d ∧ d.addr = a ∧ Spared (m.cell a s) d := by
  cases op with
  | mod fd events data ctx =>
    simp only [ControlOp.run, epollCtlMod] at failed
    split at failed
    · cases failed
      exact .inl rfl
    split at failed
    · cases failed
      exact .inl rfl
    have plain : events &&& (EPOLLONESHOT ||| EPOLLET) &&& EPOLLEXCLUSIVE = 0 := by
      rw [BitVec.and_assoc, show (EPOLLONESHOT ||| EPOLLET) &&& EPOLLEXCLUSIVE = 0 by decide]
      exact BitVec.and_zero
    exact .inr (onRegistration_spares h
      (fun c d hl hf ha hr => modifyLocked_spares hl hf ha plain hr)
      (fun c hl hf ha => modifyLocked_moves hl hf ha answers events plain data ctx) named failed)
  | rearm fd =>
    exact .inr (onRegistration_spares h (fun c d hl hf ha hr => rearmLocked_spares hl hf ha hr)
      (fun c hl hf ha => rearmLocked_moves hl hf ha answers) named failed)
  | rearmClasses fd classes =>
    simp only [ControlOp.run, epPortRearmClasses] at failed
    split at failed
    · cases failed
      exact .inl rfl
    exact .inr (onRegistration_spares h
      (fun c d hl hf ha hr => rearmClassesLocked_spares hl hf ha hr)
      (fun c hl hf ha => rearmClassesLocked_moves hl hf ha answers classes) named failed)
  | add alloc fd events data ctx => cases update
  | del fd => cases update
  | shutdown fd how => cases update

end

/-- Failure atomicity of MOD, rearm and class rearm.  A call that fails and leaves the port open
and the registration in the table has not changed it. -/
theorem failed_update_undone (lifetime : LifetimeMode) (explicitRearm udpProbeEvent : Bool)
    (st : Sys) (h : Reachable (.create lifetime explicitRearm udpProbeEvent) st) (op : ControlOp)
    (update : op.isUpdate = true) (answers : ControlAnswers) (e : Errno) (m' : Mem) (a : Addr)
    (failed : op.run answers st.mem = (.fail e, m'))
    (installed : m'.port.fdTable op.fd = some a) (opened : m'.port.closing = false) :
    ∃ s s', CallUndone st.mem m' a s s' := by
  have hsound := (h.ordered (ordered_create lifetime explicitRearm udpProbeEvent)).sound
  have hmoves : MemMoves Plain st.mem m' := by
    have := update_moves hsound update answers
    rwa [failed] at this
  have hsound' := hsound.memMoves hmoves
  have named : st.mem.port.fdTable op.fd = some a := MemMoves.table hmoves (by simp [Plain]) installed
  rcases update_spares hsound update named failed with rfl | ⟨s, d, hs, rfl, haddr, hspared⟩
  · obtain ⟨s, hs, -⟩ := hsound.table op.fd a named
    exact ⟨s, s, hs, hs, (Intact.refl (c := st.mem.cell a s)).sock,
      fun w => ⟨hsound.listing w, hsound.listing w, .rfl⟩, rfl, rfl, rfl⟩
  · obtain ⟨s', hs', -⟩ := hsound'.table op.fd a installed
    have halive := hsound'.alive_of_table installed hs'
    rcases Mem.found_put hs' with ⟨-, rfl, -⟩ | ⟨hne, -⟩
    · rcases hspared with hclosed | hdead | hintact
      · rw [show d.port.closing = false from opened] at hclosed
        cases hclosed
      · rw [halive] at hdead
        cases hdead
      · exact ⟨s, d.sock, hintact.callUndone hsound hsound' hs hs'⟩
    · exact absurd haddr.symm hne

/-- A registration gets ready while a waiter is there, and a MOD of it cannot be submitted. -/
def modifyWithoutGroup : ControlAnswers :=
  { control with submit := { submit with afdGroup := some ENOMEM } }

theorem failed_update_undone_mod : ∃ st m' s s',
    (Sys.create .bestEffort false false).run
      (waitUntilBlocked 8 ++ [add EPOLLIN, receive] ++ takePacket) = some st ∧
    (ControlOp.mod 5 (EPOLLIN ||| EPOLLOUT) 43 0).run modifyWithoutGroup st.mem =
      (.fail ENOMEM, m') ∧
    s.readyQueued = true ∧ CallUndone st.mem m' 100 s s' := by
  have hrun : (((Sys.create .bestEffort false false).run
      (waitUntilBlocked 8 ++ [add EPOLLIN, receive] ++ takePacket)).map fun st =>
        let r := (ControlOp.mod 5 (EPOLLIN ||| EPOLLOUT) 43 0).run modifyWithoutGroup st.mem
        (r.1, r.2.port.fdTable 5, r.2.port.closing, (st.mem.socks 100).map EpSock.readyQueued)) =
      some (.fail ENOMEM, some 100, false, some true) := by
    decide +kernel
  obtain ⟨st, hst, hend⟩ := Option.map_eq_some_iff.mp hrun
  generalize hr : (ControlOp.mod 5 (EPOLLIN ||| EPOLLOUT) 43 0).run modifyWithoutGroup st.mem = r
    at hend
  obtain ⟨result, m'⟩ := r
  simp only [Prod.mk.injEq] at hend
  obtain ⟨rfl, htable, hopen, hready⟩ := hend
  obtain ⟨s, s', hundone⟩ := failed_update_undone .bestEffort false false st
    (Reachable.refl.of_run hst) (.mod 5 (EPOLLIN ||| EPOLLOUT) 43 0) rfl modifyWithoutGroup ENOMEM
    m' 100 hr htable hopen
  refine ⟨st, m', s, s', hst, hr, ?_, hundone⟩
  rw [hundone.before] at hready
  exact Option.some.inj hready

end WepollEx
