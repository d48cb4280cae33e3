import WepollEx.Lifecycle.Submit

/-!
# Completion as a sequence of moves

`ep_sock_handle_completion` on a registration whose packet has been taken off the batch.  Each of
its functions is a sequence of moves; the only one that is not plain is the oneshot delivery of a
registration that is on the rearm list.
-/

namespace WepollEx

open Mask

-- the wrappers around a cell, unfolded wherever two cells are compared
attribute [local simp] Cell.core EpSock.core Port.core Cell.mapSock Cell.mapPort Cell.setFlags
  Cell.flags Flags.needs Flags.fire Cell.bumpGeneration Port.bumpGeneration

section

variable {c d : Cell} {T : Tag → Prop}

/-! ## Deferring to the next wait -/

theorem Failed.keeps (h : Failed c d) : d.freed = c.freed ∧
    d.sock.deletePending = c.sock.deletePending ∧ d.sock.oneshotFired = c.sock.oneshotFired := by
  rcases h with h | ⟨m, hm, packets, consumed, owned, _, _, hd⟩
  · exact ⟨h.freed, h.dead, h.fired⟩
  · have hf : d.freed = m.freed := core_congr hd Cell.freed
    have hp : d.sock.deletePending = m.sock.deletePending :=
      core_congr hd fun x => x.sock.deletePending
    have ho : d.sock.oneshotFired = m.sock.oneshotFired := core_congr hd fun x => x.sock.oneshotFired
    exact ⟨hf.trans hm.freed, hp.trans hm.dead, ho.trans hm.fired⟩

theorem Failed.idle (h : Failed c d) : d.freed = c.freed ∧
    d.sock.pollStatus = c.sock.pollStatus := by
  rcases h with h | ⟨m, hm, packets, consumed, owned, _, _, hd⟩
  · have := congrArg EpSock.pollStatus h.sock
    exact ⟨h.freed, this⟩
  · have hf : d.freed = m.freed := core_congr hd Cell.freed
    have hp : d.sock.pollStatus = m.sock.pollStatus := core_congr hd fun x => x.sock.pollStatus
    have := congrArg EpSock.pollStatus hm.sock
    exact ⟨hf.trans hm.freed, hp.trans this⟩

theorem rearmWithError_moves (live : c.freed = false) (alive : c.sock.deletePending = false)
    (unfired : c.sock.oneshotFired = false) (asyncPost : Option Errno) (e : Errno) :
    Moves Plain c (rearmWithError asyncPost e c) := by
  have h1 := setNeedsRearm_moves live true (fun _ => ⟨alive, unfired⟩) (fun _ => unfired)
  refine h1.trans (recordAsyncError_moves ?_ asyncPost e)
  rw [setNeedsRearm_freed]
  exact live

theorem resubmitOrDefer_moves (h : Lifecycle c) (live : c.freed = false)
    (idle : c.sock.pollStatus = .idle) (alive : c.sock.deletePending = false)
    (unfired : c.sock.oneshotFired = false) (asyncPost : Option Errno) (answers : SubmitAnswers) :
    Moves Plain c (resubmitOrDefer asyncPost answers c) := by
  have hs := submit_spec h live idle answers false false
  unfold resubmitOrDefer
  generalize epSockSubmitLocked answers false false c = r at hs ⊢
  obtain ⟨result, immediate, d⟩ := r
  cases result with
  | ok => exact hs.moves
  | retired e => exact hs.moves
  | failed e =>
    obtain ⟨hfreed, hdead, hfired⟩ := (hs.failed e rfl).keeps
    exact hs.moves.trans (rearmWithError_moves (hfreed.trans live) (hdead.trans alive)
      (hfired.trans unfired) asyncPost e)

/-! ## Sampling -/

/-- A registration whose snapshot is about to be delivered. -/
structure Sampled (c : Cell) : Prop where
  lifecycle : Lifecycle c
  live : c.freed = false
  alive : c.sock.deletePending = false
  idle : c.sock.pollStatus = .idle
  unqueued : c.sock.readyQueued = false
  unfired : c.sock.oneshotFired = false
  owned : epWaitableMayConsume c.sock = true → c.sock.waitableNotificationOwned = true

theorem Sampled.of_core (h : Sampled c) (hcore : d.core = c.core) : Sampled d where
  lifecycle := h.lifecycle.of_core hcore
  live := (core_congr hcore Cell.freed).trans h.live
  alive := (core_congr hcore fun x => x.sock.deletePending).trans h.alive
  idle := (core_congr hcore fun x => x.sock.pollStatus).trans h.idle
  unqueued := (core_congr hcore fun x => x.sock.readyQueued).trans h.unqueued
  unfired := (core_congr hcore fun x => x.sock.oneshotFired).trans h.unfired
  owned := fun hm => (core_congr hcore fun x => x.sock.waitableNotificationOwned).trans
    (h.owned ((core_congr hcore fun x => epWaitableMayConsume x.sock).symm.trans hm))

/-- A step of the completion that either ends it or goes on with the caches changed. -/
def FlowSpec {α : Type} (c : Cell) (P : α → Prop) : Flow α → Prop
  | .done d => Moves Plain c d
  | .next v d => d.core = c.core ∧ P v

theorem checkSocketSnapshot_spec (h : Sampled c) (asyncPost : Option Errno)
    (answers : IdentityAnswers) (status : NtStatus) :
    FlowSpec c (fun _ => True) (checkSocketSnapshot asyncPost answers status c) := by
  unfold checkSocketSnapshot
  split
  · split
    · exact dropClosed_moves h.live
    · split
      · have hcore := validateIdentity_core answers true c
        generalize epSockValidateIdentityLocked answers true c = r at hcore ⊢
        obtain ⟨check, e, d⟩ := r
        have hd := h.of_core hcore
        have h0 : Moves Plain c d := .of_core hcore
        cases check with
        | stale => exact h0.trans (dropClosed_moves hd.live)
        | closed => exact h0.trans (dropClosed_moves hd.live)
        | matching => exact ⟨hcore, trivial⟩
        | error =>
          dsimp only
          split
          · refine h0.trans (Moves.trans (.of_core ?_) (rearmWithError_moves ?_ ?_ ?_ asyncPost e))
            · rfl
            · exact hd.live
            · exact hd.alive
            · exact hd.unfired
          · exact ⟨hcore, trivial⟩
      · exact ⟨rfl, trivial⟩
  · exact ⟨rfl, trivial⟩

/-- What a sample says about its target. -/
structure SampleSpec (s : EpSock) (sample : Sample) : Prop where
  signal : epWaitableMayConsume s = true → Within sample.delivered (epWaitableLevelEvents s)
  pipe : s.kind = .pipe → Within sample.pipeSnapshot.events s.interest

theorem SampleSpec.of_socket {s : EpSock} (socket : s.kind = .socket) (sample : Sample) :
    SampleSpec s sample :=
  ⟨fun h => by simp [epWaitableMayConsume, socket] at h, fun h => by simp [socket] at h⟩

theorem sampleAfd_spec (h : Sampled c) (socket : c.sock.kind = .socket) (asyncPost : Option Errno)
    (answers : PassAnswers) :
    FlowSpec c (SampleSpec c.sock) (sampleAfd asyncPost answers c) := by
  unfold sampleAfd
  dsimp only
  split
  · have hcore := udpProbe_core answers.udp c
    generalize epUdpProbeReadLocked answers.udp c = r at hcore ⊢
    obtain ⟨probe, e, d⟩ := r
    have hd := h.of_core hcore
    have h0 : Moves Plain c d := .of_core hcore
    have hnext : ∀ (p : Bool) (u : Bool), (if p = true then
        d.mapSock fun s => { s with udpReadlessReceiveParked := u } else d).core = c.core := by
      intro p u
      split
      · exact hcore
      · exact hcore
    cases probe with
    | closed => exact h0.trans (dropClosed_moves hd.live)
    | identityError =>
      refine h0.trans (Moves.trans (.of_core ?_) (rearmWithError_moves ?_ ?_ ?_ asyncPost _))
      · rfl
      · exact hd.live
      · exact hd.alive
      · exact hd.unfired
    | unavailable => exact ⟨hnext _ _, .of_socket socket _⟩
    | notReady => exact ⟨hnext _ _, .of_socket socket _⟩
    | ready => exact ⟨hnext _ _, .of_socket socket _⟩
    | error => exact ⟨hnext _ _, .of_socket socket _⟩
  · exact ⟨rfl, .of_socket socket _⟩

section

variable (s : EpSock)

theorem pipeRead_interest : Within (epPipeReadEvents s) s.interest :=
  ((within_and_self_left _ _).inl _).inl _

theorem pipeWrite_interest : Within (epPipeWriteEvents s) s.interest :=
  ((within_and_self_left _ _).inl _).inl _

theorem within_ite_interest {s : EpSock} {e : Events} (h : Within e s.interest) (p : Prop)
    [Decidable p] : Within (if p then e else 0) s.interest := by
  split
  · exact h
  · exact .zero _

theorem pipePeerClosed_interest (n : Nat) : Within (epPipePeerClosedEvents s n) s.interest := by
  have herr : Within EPOLLERR s.interest := ((Within.refl _).inr _).inl _
  have hhup : Within EPOLLHUP s.interest := (Within.refl _).inr _
  exact (within_ite_interest ((within_ite_interest (pipeRead_interest s) _).or hhup) _).or
    (within_ite_interest ((pipeWrite_interest s).or herr) _)

theorem pipeFallback_interest (answers : PipeAnswers) :
    Within (epPipeFallbackSnapshot answers s).events s.interest := by
  unfold epPipeFallbackSnapshot
  split
  · exact (within_ite_interest (pipeRead_interest s) _).or
      (within_ite_interest (pipeWrite_interest s) _)
  · exact .zero _
  · exact pipePeerClosed_interest s 0
  · split
    · split
      · exact pipeWrite_interest s
      · split
        · exact pipeWrite_interest s
        · exact .zero _
        · exact pipePeerClosed_interest s 0
        · exact .zero _
        · exact pipeWrite_interest s
    · exact .zero _
  · exact .zero _

/-- The reports of a pipe lie in its interest. -/
theorem pipeSnapshot_interest (answers : PipeAnswers) :
    Within (epPipeSnapshot answers s).events s.interest := by
  unfold epPipeSnapshot
  split
  · exact pipeFallback_interest s answers
  · exact .zero _
  · exact pipePeerClosed_interest s 0
  · exact pipeFallback_interest s answers
  · exact .zero _
  · dsimp only
    split
    · exact (within_ite_interest (pipeRead_interest s) _).or
        (within_ite_interest (pipeWrite_interest s) _)
    · exact pipePeerClosed_interest s _
    · exact pipePeerClosed_interest s _
    · exact .zero _

end

theorem sampleTarget_spec (h : Sampled c) (asyncPost : Option Errno) (answers : PassAnswers)
    (status : NtStatus) (success : epWaitableMayConsume c.sock = true → 0 ≤ status) :
    FlowSpec c (SampleSpec c.sock) (sampleTarget asyncPost answers status c) := by
  unfold sampleTarget
  cases hk : c.sock.kind with
  | socket =>
    dsimp only
    split
    · exact sampleAfd_spec h hk asyncPost answers
    · exact ⟨rfl, .of_socket hk _⟩
  | waitable =>
    refine ⟨rfl, fun hc => ?_, fun hp => by simp [hk] at hp⟩
    have hsem : ¬(0 ≤ status ∧ (c.sock.waitableSemantics = .persistent ∨
        c.sock.waitableSemantics = .terminal)) := by
      rintro ⟨-, hp | ht⟩
      · simp [epWaitableMayConsume, hp] at hc
      · simp [epWaitableMayConsume, ht] at hc
    dsimp only
    rw [if_neg hsem, if_pos (success hc)]
  | pipe =>
    dsimp only
    split
    · exact dropClosed_moves h.live
    · exact ⟨rfl, fun hc => by simp [epWaitableMayConsume, hk] at hc,
        fun _ => pipeSnapshot_interest c.sock answers.pipe⟩

/-! ## Qualification and the edge latch -/

/-- The level a completion would deliver before the latch. -/
structure LevelSpec (c : Cell) (delivered level : Events) : Prop where
  interest : Within level c.sock.interest
  armed : epSockExplicitRearmEnabled c.port c.sock = true →
    epReadinessClasses level &&& c.sock.explicitDisarmedClasses = 0
  signal : epWaitableMayConsume c.sock = true → Within level delivered

theorem filterDisarmed_within (p : Port) (s : EpSock) (e : Events) :
    Within (filterDisarmed p s e) e := by
  unfold filterDisarmed
  split
  · exact filterClasses_within _ _
  · exact .refl _

theorem filterDisarmed_armed {p : Port} {s : EpSock} (he : epSockExplicitRearmEnabled p s = true)
    (e : Events) : epReadinessClasses (filterDisarmed p s e) &&& s.explicitDisarmedClasses = 0 := by
  unfold filterDisarmed
  rw [if_pos he]
  exact filterClasses_disjoint _ _

theorem within_ite_and (p : Prop) [Decidable p] (e m : Events) :
    Within (if p then e &&& m else e) e := by
  split
  · exact within_and_self_left _ _
  · exact .refl _

theorem qualifyReadiness_within (answers : PassAnswers) (s : EpSock) (revents : Option Revents)
    (e : Events) : Within (qualifyReadiness answers s revents e) e := by
  unfold qualifyReadiness
  split
  · exact (within_ite_and _ _ _).trans (within_ite_and _ _ _)
  · exact .refl _

/-- The class filter survives the qualification and the merge of a local shutdown. -/
theorem mergeShutdown_armed {p : Port} {s : EpSock} {e : Events}
    (he : epSockExplicitRearmEnabled p s = true)
    (h : epReadinessClasses e &&& s.explicitDisarmedClasses = 0) :
    epReadinessClasses (mergeShutdown p s e) &&& s.explicitDisarmedClasses = 0 := by
  unfold mergeShutdown
  split
  · exact filterDisarmed_armed he _
  · exact h

theorem qualifyDelivered_spec (answers : PassAnswers) (delivered : Events) (c : Cell) :
    (qualifyDelivered answers delivered c).2.core = c.core ∧
      LevelSpec c delivered (qualifyDelivered answers delivered c).1 := by
  -- the merge with the current levels only applies to sockets
  obtain ⟨revents, merged, d, hr, hcore, hsame⟩ : ∃ revents merged d,
      (if c.sock.kind = .socket then epSocketMergeCurrentLevels answers.levels c delivered
        else (none, delivered, c)) = (revents, merged, d) ∧ d.core = c.core ∧
      (c.sock.kind ≠ .socket → merged = delivered) := by
    split
    · exact ⟨_, _, _, rfl, mergeCurrentLevels_core answers.levels c delivered,
        fun hk => absurd ‹_› hk⟩
    · exact ⟨_, _, _, rfl, rfl, fun _ => rfl⟩
  have hint : d.sock.interest = c.sock.interest := core_congr hcore fun x => x.sock.interest
  have hkind : d.sock.kind = c.sock.kind := core_congr hcore fun x => x.sock.kind
  have hen : epSockExplicitRearmEnabled d.port d.sock = epSockExplicitRearmEnabled c.port c.sock :=
    core_congr hcore fun x => epSockExplicitRearmEnabled x.port x.sock
  have hdis : d.sock.explicitDisarmedClasses = c.sock.explicitDisarmedClasses :=
    core_congr hcore fun x => x.sock.explicitDisarmedClasses
  unfold qualifyDelivered
  rw [hr]
  refine ⟨hcore, ?_, ?_, ?_⟩
  · rw [← hint]
    exact within_and_self_right _ _
  · intro he
    rw [← hdis]
    rw [← hen] at he
    refine readinessClasses_disjoint_mono (within_and_self_left _ _) (mergeShutdown_armed he ?_)
    exact readinessClasses_disjoint_mono (qualifyReadiness_within answers d.sock revents _)
      (filterDisarmed_armed he merged)
  · intro hc
    have hk : c.sock.kind = .waitable := by
      simp [epWaitableMayConsume] at hc
      exact hc.1.1
    have hne : d.sock.kind ≠ .socket := by simp [hkind, hk]
    have hmerge : ∀ e, mergeShutdown d.port d.sock e = e := by
      intro e
      unfold mergeShutdown
      rw [if_neg fun h => hne h.1]
    dsimp only
    rw [hmerge, ← hsame (by simp [hk])]
    exact (within_and_self_left _ _).trans ((qualifyReadiness_within answers d.sock revents _).trans
      (filterDisarmed_within d.port d.sock merged))

theorem pipeEt_spec (s : EpSock) (snapshot : PipeSnapshot) :
    ∃ e o, epPipeEtEvents s snapshot = (e, { s with observedEvents := o }) ∧
      Within o (s.observedEvents ||| e) ∧ Within e snapshot.events := by
  unfold epPipeEtEvents
  split
  · exact ⟨0, s.observedEvents, rfl, (Within.refl _).inl _, .zero _⟩
  · refine ⟨_, _, rfl, ?_, ?_⟩
    · split
      · exact (Within.refl _).inr _
      · split
        · exact (Within.refl _).inr _
        · exact within_or_and_not _ _
    · split
      · exact .refl _
      · split
        · exact .refl _
        · exact within_and_self_left _ _

/-- What the edge latch delivers and keeps. -/
structure LatchSpec (s : EpSock) (level : Events) (snapshot : PipeSnapshot) (e o : Events) :
    Prop where
  latched : Within o (s.observedEvents ||| e)
  reset : s.isET = false → o = 0
  source : Within e level ∨ s.kind = .pipe ∧ Within e snapshot.events

theorem latchDelivered_spec (snapshot : PipeSnapshot) (level : Events) (s : EpSock) :
    ∃ e o b, latchDelivered snapshot level s =
        (e, { s with observedEvents := o, etHoldoff := b }) ∧ LatchSpec s level snapshot e o := by
  unfold latchDelivered
  by_cases het : s.isET = true
  · rw [if_pos het]
    by_cases hp : s.kind = .pipe
    · rw [if_pos hp]
      obtain ⟨e, o, heq, hlatch, hsnap⟩ := pipeEt_spec s snapshot
      rw [heq]
      exact ⟨e, o, s.etHoldoff, rfl, hlatch, fun h => by simp [het] at h, .inr ⟨hp, hsnap⟩⟩
    · rw [if_neg hp]
      exact ⟨_, _, s.etHoldoff, rfl, (etEdge_spec s level).2, fun h => by simp [het] at h,
        .inl (etEdge_spec s level).1⟩
  · rw [if_neg het]
    exact ⟨level, 0, false, rfl, .zero _, fun _ => rfl, .inl (.refl _)⟩

/-! ## Settling -/

theorem Sampled.relatch (h : Sampled c) {o : Events} (within : Within o c.sock.observedEvents) :
    Moves Plain c (c.mapSock fun s => { s with observedEvents := o }) ∧
      Sampled (c.mapSock fun s => { s with observedEvents := o }) := by
  have hm : Moves Plain c (c.mapSock fun s => { s with observedEvents := o }) :=
    Moves.single h.live (.latch fun _ => within.inl _)
  exact ⟨hm, h.lifecycle.moves hm h.live, h.live, h.alive, h.idle, h.unqueued, h.unfired, h.owned⟩

theorem Sampled.setNeedsRearm (h : Sampled c) (b : Bool) :
    Moves Plain c (epSockSetNeedsRearmLocked c b) ∧ Sampled (epSockSetNeedsRearmLocked c b) := by
  have hm := setNeedsRearm_moves h.live b (fun _ => ⟨h.alive, h.unfired⟩) (fun _ => h.unfired)
  have live : (epSockSetNeedsRearmLocked c b).freed = false := by
    rw [setNeedsRearm_freed]
    exact h.live
  have hl := h.lifecycle.moves hm live
  rw [setNeedsRearm_eq] at hm hl live ⊢
  exact ⟨hm, hl, live, h.alive, h.idle, h.unqueued, h.unfired, h.owned⟩

theorem Sampled.resubmit (h : Sampled c) (asyncPost : Option Errno) (answers : SubmitAnswers) :
    Moves Plain c (resubmitOrDefer asyncPost answers c) :=
  resubmitOrDefer_moves h.lifecycle h.live h.idle h.alive h.unfired asyncPost answers

theorem Sampled.rearmWithError (h : Sampled c) (asyncPost : Option Errno) (e : Errno) :
    Moves Plain c (WepollEx.rearmWithError asyncPost e c) :=
  rearmWithError_moves h.live h.alive h.unfired asyncPost e

theorem settleEmpty_moves (h : Sampled c) (asyncPost : Option Errno) (answers : PassAnswers)
    (sample : Sample) : Moves Plain c (settleEmpty asyncPost answers sample c) := by
  unfold settleEmpty
  split
  · have h0 : Sampled (c.mapSock fun s => { s with etHoldoff := false }) := h.of_core rfl
    obtain ⟨hm, hs⟩ := h0.setNeedsRearm true
    have hc : Moves Plain c (c.mapSock fun s => { s with etHoldoff := false }) := .of_core rfl
    exact (hc.trans hm).trans (hs.resubmit asyncPost answers.resubmit)
  split
  · have h0 : Sampled (c.mapSock fun s => { s with etHoldoff := false }) := h.of_core rfl
    obtain ⟨hm, hs⟩ := h0.setNeedsRearm false
    have hc : Moves Plain c (c.mapSock fun s => { s with etHoldoff := false }) := .of_core rfl
    refine (hc.trans hm).quiet ?_
    rfl
  · have h0 : Sampled (c.mapSock fun s => { s with etHoldoff := s.isET }) := h.of_core rfl
    obtain ⟨hm, hs⟩ := h0.setNeedsRearm true
    have hc : Moves Plain c (c.mapSock fun s => { s with etHoldoff := s.isET }) := .of_core rfl
    dsimp only
    split
    · exact (hc.trans hm).trans (hs.resubmit asyncPost answers.resubmit)
    · exact hc.trans hm

/-- The flags of a registration whose snapshot is delivered. -/
def firedFlags (c : Cell) : Flags := if c.sock.isOneshot then c.flags.fire c.addr true else c.flags

theorem fireOneshot_eq (c : Cell) :
    (if c.sock.isOneshot then epSockSetOneshotFiredLocked c true else c) =
      c.setFlags (firedFlags c) := by
  unfold firedFlags
  split
  · exact setOneshotFired_eq c true
  · rfl

theorem firedFlags_toggles (c : Cell) : Toggles c.addr c.flags (firedFlags c) := by
  unfold firedFlags
  split
  · exact .fire true .refl
  · exact .refl

theorem firedFlags_fired (unfired : c.sock.oneshotFired = false) :
    (firedFlags c).fired = c.sock.isOneshot := by
  unfold firedFlags
  split
  · rename_i hone
    exact hone.symm
  · rename_i hnone
    have hoff : c.sock.isOneshot = false := by simpa using hnone
    exact unfired.trans hoff.symm

theorem firedFlags_rearm (c : Cell) : (firedFlags c).rearm = c.sock.needsRearm := by
  unfold firedFlags
  split <;> rfl

/-- What is known about a mask that is about to be published. -/
structure Deliverable (c : Cell) (e : Events) : Prop where
  nonzero : e ≠ 0
  interest : Within e c.sock.interest
  armed : epSockExplicitRearmEnabled c.port c.sock = true →
    epReadinessClasses e &&& c.sock.explicitDisarmedClasses = 0
  signal : epWaitableMayConsume c.sock = true → hasSignal e = true

theorem Deliverable.mono {e f : Events} (h : Deliverable c e) (hf : f ≠ 0) (hw : Within f e)
    (exclusive : c.sock.isExclusive = true → epWaitableMayConsume c.sock = false)
    (same : c.sock.isExclusive = false → f = e) : Deliverable c f where
  nonzero := hf
  interest := hw.trans h.interest
  armed := fun he => readinessClasses_disjoint_mono hw (h.armed he)
  signal := fun hc => by
    cases hx : c.sock.isExclusive with
    | true => simp [exclusive hx] at hc
    | false =>
      rw [same hx]
      exact h.signal hc

theorem publishClaimed_core (e : Events) (now : Nat) (c : Cell) :
    (publishClaimed e now c).core = Cell.core { c with
      sock := { c.sock with
        pendingEvents := e
        explicitDisarmedClasses := disarmedAfter c e
        waitableNotificationOwned :=
          !epWaitableMayConsume c.sock && c.sock.waitableNotificationOwned
        readyQueued := true }
      port := { c.port with readyQueue := c.port.readyQueue ++ [readyNodeFor c.sock e now] } } := by
  have hmay : epWaitableMayConsume (epReadyPublish
      (c.mapSock fun s => disarmDelivered c.port s e) e now).sock = epWaitableMayConsume c.sock := rfl
  unfold publishClaimed
  dsimp only
  rw [hmay]
  cases epWaitableMayConsume c.sock with
  | true =>
    simp [epReadyPublish, disarmDelivered, disarmedAfter]
    rfl
  | false =>
    simp [epReadyPublish, disarmDelivered, disarmedAfter]
    rfl

theorem Sampled.exclusive_socket (h : Sampled c) (hx : c.sock.isExclusive = true) :
    epWaitableMayConsume c.sock = false := by
  simp [epWaitableMayConsume, (h.lifecycle.exclusive_shape hx).1]

/-- A latched snapshot is published, which fires a oneshot registration. -/
theorem publishClaimed_moves (h : Sampled c) (plain : T .plain)
    (both : c.sock.needsRearm = true → c.sock.isOneshot = true → T .firedWhileRearming)
    {e o : Events} (hd : Deliverable c e) (now : Nat)
    (latched : c.sock.isExclusive = false → Within o (c.sock.observedEvents ||| e))
    (hcore : d.core = Cell.core ((if c.sock.isOneshot then epSockSetOneshotFiredLocked c true
      else c).mapSock fun s => { s with observedEvents := o })) :
    Moves T c (publishClaimed e now d) := by
  rw [fireOneshot_eq] at hcore
  have hpub : (publishClaimed e now d).core = Cell.core (Cell.setFlags { c with
      sock := { c.sock with
        pendingEvents := e
        observedEvents := o
        explicitDisarmedClasses := disarmedAfter c e
        waitableNotificationOwned :=
          !epWaitableMayConsume c.sock && c.sock.waitableNotificationOwned
        readyQueued := true }
      port := { c.port with readyQueue := c.port.readyQueue ++ [readyNodeFor c.sock e now] } }
        (firedFlags c)) := by
    rw [publishClaimed_core]
    exact congrArg (fun y : Cell => ({ y with
      sock := { y.sock with
        pendingEvents := e
        explicitDisarmedClasses := disarmedAfter y e
        waitableNotificationOwned :=
          !epWaitableMayConsume y.sock && y.sock.waitableNotificationOwned
        readyQueued := true }
      port := { y.port with
        readyQueue := y.port.readyQueue ++ [readyNodeFor y.sock e now] } } : Cell)) hcore
  obtain ⟨t, ht, hboth⟩ : ∃ t, T t ∧ ((firedFlags c).rearm = true → (firedFlags c).fired = true →
      t = .firedWhileRearming) := by
    by_cases hx : c.sock.needsRearm = true ∧ c.sock.isOneshot = true
    · exact ⟨.firedWhileRearming, both hx.1 hx.2, fun _ _ => rfl⟩
    · refine ⟨.plain, plain, fun hr hf => absurd ⟨?_, ?_⟩ hx⟩
      · rwa [firedFlags_rearm] at hr
      · rwa [firedFlags_fired h.unfired] at hf
  exact (Moves.step .refl h.live ht (.publish (firedFlags_toggles c) h.unfired
    (firedFlags_fired h.unfired) hboth h.idle h.unqueued h.alive hd.nonzero hd.interest
    (fun hc => ⟨h.owned hc, hd.signal hc⟩) hd.armed latched)).quiet hpub

theorem publishDelivered_moves (h : Sampled c) (plain : T .plain)
    (both : c.sock.needsRearm = true → c.sock.isOneshot = true → T .firedWhileRearming)
    {e o : Events} (hd : Deliverable c e) (b : Bool)
    (latched : Within o (c.sock.observedEvents ||| e)) (reset : c.sock.isET = false → o = 0)
    (asyncPost : Option Errno) (answers : PassAnswers) :
    Moves T c (publishDelivered asyncPost answers c.sock.observedEvents e
      (c.mapSock fun s => { s with observedEvents := o, etHoldoff := b })) := by
  unfold publishDelivered
  cases answers.nodeAlloc with
  | some err =>
    -- the latch is given back
    have hw : Within (if c.sock.isET then c.sock.observedEvents else o) c.sock.observedEvents := by
      cases het : c.sock.isET with
      | true => exact .refl _
      | false =>
        rw [reset het]
        exact .zero _
    obtain ⟨hm, hs⟩ := h.relatch hw
    have h0 : Sampled ((c.mapSock fun s => { s with observedEvents := o, etHoldoff := b }).mapSock
        fun s => { s with observedEvents :=
          if s.isET then c.sock.observedEvents else s.observedEvents }) := hs.of_core rfl
    refine Moves.of_plain (Moves.trans (hm.quiet ?_) (h0.rearmWithError asyncPost _)) plain
    rfl
  | none =>
    have hfired : (if (c.mapSock fun s => { s with observedEvents := o, etHoldoff := b
          }).sock.isOneshot = true then epSockSetOneshotFiredLocked (c.mapSock fun s =>
            { s with observedEvents := o, etHoldoff := b }) true
        else c.mapSock fun s => { s with observedEvents := o, etHoldoff := b }).core =
        Cell.core ((if c.sock.isOneshot then epSockSetOneshotFiredLocked c true else c).mapSock
          fun s => { s with observedEvents := o }) := by
      have hsame : (c.mapSock fun s => { s with observedEvents := o, etHoldoff := b
        }).sock.isOneshot = c.sock.isOneshot := rfl
      rw [hsame]
      cases c.sock.isOneshot with
      | true => simp [setOneshotFired_eq]
      | false => rfl
    dsimp only
    generalize (if (c.mapSock fun s => { s with observedEvents := o, etHoldoff := b
          }).sock.isOneshot = true then epSockSetOneshotFiredLocked (c.mapSock fun s =>
            { s with observedEvents := o, etHoldoff := b }) true
        else c.mapSock fun s => { s with observedEvents := o, etHoldoff := b }) = d at hfired ⊢
    have hx : d.sock.isExclusive = c.sock.isExclusive := by
      refine (core_congr hfired fun x => x.sock.isExclusive).trans ?_
      cases c.sock.isOneshot with
      | true =>
        rw [if_pos rfl, setOneshotFired_eq]
        rfl
      | false => rfl
    split
    · rename_i hclaim
      have hexcl : c.sock.isExclusive = true := hx ▸ refused_exclusive hclaim
      have hm := refused_moves h.lifecycle h.live h.alive hexcl o
      rw [if_neg (by simp [(h.lifecycle.exclusive_shape hexcl).2])] at hfired
      rw [setNeedsRearm_eq] at hm ⊢
      exact (hm.of_plain plain).quiet
        (congrArg (fun x : Cell => x.setFlags (x.flags.needs x.addr true)) hfired)
    · rename_i f hclaim
      obtain ⟨hne, hwithin, hall⟩ := claimed_spec hclaim hd.nonzero
      rw [hx] at hall
      refine publishClaimed_moves h plain both (hd.mono hne hwithin h.exclusive_socket hall)
        answers.now (fun hx => ?_) hfired
      rw [hall hx]
      exact latched

theorem hasSignal_of_level {s : EpSock} {e : Events} (ne : e ≠ 0)
    (hw : Within e (epWaitableLevelEvents s)) : hasSignal e = true := by
  have hbits : Within e waitableBits := hw.trans (within_and_self_right _ _)
  by_contra hno
  have herr : Within e (EPOLLERR ||| EPOLLHUP) := by simpa [hasSignal, Within] using hno
  have hboth := hbits.and_and herr
  rw [show waitableBits &&& (EPOLLERR ||| EPOLLHUP) = 0#32 by decide, within_zero_iff] at hboth
  exact ne hboth

/-- The latched part of a qualified level may be published. -/
theorem deliverable_of_latch {sample : Sample} {level e o : Events}
    (hs : SampleSpec c.sock sample) (hl : LevelSpec c sample.delivered level)
    (hlatch : LatchSpec c.sock level sample.pipeSnapshot e o) (ne : e ≠ 0) : Deliverable c e := by
  refine ⟨ne, ?_, ?_, ?_⟩
  · rcases hlatch.source with hw | ⟨hp, hw⟩
    · exact hw.trans hl.interest
    · exact hw.trans (hs.pipe hp)
  · intro he
    rcases hlatch.source with hw | ⟨hp, hw⟩
    · exact readinessClasses_disjoint_mono hw (hl.armed he)
    · simp [epSockExplicitRearmEnabled, hp] at he
  · intro hc
    rcases hlatch.source with hw | ⟨hp, hw⟩
    · exact hasSignal_of_level ne ((hw.trans (hl.signal hc)).trans (hs.signal hc))
    · simp [epWaitableMayConsume, hp] at hc

theorem SampleSpec.of_core {sample : Sample} (h : SampleSpec c.sock sample)
    (hcore : d.core = c.core) : SampleSpec d.sock sample := by
  have hm : epWaitableMayConsume d.sock = epWaitableMayConsume c.sock :=
    core_congr hcore fun x => epWaitableMayConsume x.sock
  have hl : epWaitableLevelEvents d.sock = epWaitableLevelEvents c.sock :=
    core_congr hcore fun x => epWaitableLevelEvents x.sock
  have hk : d.sock.kind = c.sock.kind := core_congr hcore fun x => x.sock.kind
  have hi : d.sock.interest = c.sock.interest := core_congr hcore fun x => x.sock.interest
  exact ⟨by rw [hm, hl]; exact h.signal, by rw [hk, hi]; exact h.pipe⟩

theorem LevelSpec.of_core {delivered level : Events} (h : LevelSpec c delivered level)
    (hcore : d.core = c.core) : LevelSpec d delivered level := by
  have hm : epWaitableMayConsume d.sock = epWaitableMayConsume c.sock :=
    core_congr hcore fun x => epWaitableMayConsume x.sock
  have hen : epSockExplicitRearmEnabled d.port d.sock = epSockExplicitRearmEnabled c.port c.sock :=
    core_congr hcore fun x => epSockExplicitRearmEnabled x.port x.sock
  have hdis : d.sock.explicitDisarmedClasses = c.sock.explicitDisarmedClasses :=
    core_congr hcore fun x => x.sock.explicitDisarmedClasses
  have hi : d.sock.interest = c.sock.interest := core_congr hcore fun x => x.sock.interest
  exact ⟨by rw [hi]; exact h.interest, by rw [hen, hdis]; exact h.armed, by rw [hm]; exact h.signal⟩

theorem deliverSnapshot_moves (h : Sampled c) (plain : T .plain)
    (both : c.sock.needsRearm = true → c.sock.isOneshot = true → T .firedWhileRearming)
    (asyncPost : Option Errno) (answers : PassAnswers) (status : NtStatus)
    (success : epWaitableMayConsume c.sock = true → 0 ≤ status) :
    Moves T c (deliverSnapshot asyncPost answers status c) := by
  have hsample := sampleTarget_spec h asyncPost answers status success
  unfold deliverSnapshot
  cases hs : sampleTarget asyncPost answers status c with
  | done d =>
    rw [hs] at hsample
    exact Moves.of_plain hsample plain
  | next sample d =>
    rw [hs] at hsample
    obtain ⟨hcore, hspec⟩ := hsample
    obtain ⟨hcore2, hlevel⟩ := qualifyDelivered_spec answers sample.delivered d
    dsimp only
    generalize qualifyDelivered answers sample.delivered d = r at hcore2 hlevel ⊢
    obtain ⟨level, m⟩ := r
    have hm : m.core = c.core := hcore2.trans hcore
    have hsamp : Sampled m := h.of_core hm
    have hlv : LevelSpec m sample.delivered level := hlevel.of_core hcore2
    have both' : m.sock.needsRearm = true → m.sock.isOneshot = true → T .firedWhileRearming := by
      have hn : m.sock.needsRearm = c.sock.needsRearm := core_congr hm fun x => x.sock.needsRearm
      have ho : m.sock.isOneshot = c.sock.isOneshot := core_congr hm fun x => x.sock.isOneshot
      rw [hn, ho]
      exact both
    obtain ⟨e, o, b, heq, hlatch⟩ := latchDelivered_spec sample.pipeSnapshot level m.sock
    dsimp only
    rw [heq]
    refine (Moves.of_core hm).trans ?_
    dsimp only
    split
    · rename_i hzero
      have hw : Within o m.sock.observedEvents := by
        have := hlatch.latched
        rw [hzero] at this
        simpa using this
      obtain ⟨hmoves, hs'⟩ := hsamp.relatch hw
      have h0 : Sampled (m.mapSock fun s => { s with observedEvents := o, etHoldoff := b }) :=
        hs'.of_core rfl
      refine Moves.of_plain (Moves.trans (hmoves.quiet ?_) (settleEmpty_moves h0 asyncPost answers
        sample)) plain
      rfl
    · rename_i hne
      exact publishDelivered_moves hsamp plain both'
        (deliverable_of_latch (hspec.of_core hm) hlv hlatch hne) b hlatch.latched
        hlatch.reset asyncPost answers

/-! ## Passes -/

/-- Only a transitional endpoint is validated before its snapshot is used. -/
theorem checkSocketSnapshot_settled {asyncPost : Option Errno} {answers : IdentityAnswers}
    {status : NtStatus} {u : Unit} (settled : c.sock.endpointIdState ≠ .transitional)
    (h : checkSocketSnapshot asyncPost answers status c = .next u d) : d = c := by
  unfold checkSocketSnapshot at h
  split at h
  · split at h
    · cases h
    · rw [if_neg fun hc => settled hc.2] at h
      cases h
      rfl
  · cases h
    rfl

/-- A oneshot poll that would deliver while its registration is on the rearm list. -/
def refires (status : NtStatus) (c : Cell) : Bool :=
  c.sock.needsRearm && c.sock.isOneshot &&
    (c.sock.endpointIdState = .transitional || !needsRefresh status c)

theorem Sampled.drift (h : Sampled c) (hm : Moves Plain c d) (hd : Drift c d)
    (socket : c.sock.kind = .socket) : Sampled d := by
  have live : d.freed = false := hd.freed.trans h.live
  have hi := congrArg EpSock.pollStatus hd.sock
  have hq := congrArg EpSock.readyQueued hd.sock
  refine ⟨h.lifecycle.moves hm live, live, hd.dead.trans h.alive, hi.trans h.idle,
    hq.trans h.unqueued, hd.fired.trans h.unfired, fun hc => ?_⟩
  simp [epWaitableMayConsume, hd.kind, socket] at hc

theorem needsRefresh_socket {status : NtStatus} (h : needsRefresh status c = true) :
    c.sock.kind = .socket := by
  simp [needsRefresh] at h
  exact h.1.1

theorem processSnapshot_moves (plain : T .plain) (asyncPost : Option Errno)
    (answers : Nat → PassAnswers) (status : NtStatus) (fuel i : Nat) (c : Cell) (h : Sampled c)
    (both : refires status c = true → T .firedWhileRearming)
    (success : epWaitableMayConsume c.sock = true → 0 ≤ status) :
    Moves T c (processSnapshot asyncPost answers status fuel i c) := by
  -- one pass either ends, or refreshes the snapshot and leaves the rearm list
  induction fuel generalizing i c with
  | zero => exact .refl
  | succ fuel ih =>
    have hcheck := checkSocketSnapshot_spec h asyncPost (answers i).identity status
    unfold processSnapshot
    cases hf : checkSocketSnapshot asyncPost (answers i).identity status c with
    | done d =>
      rw [hf] at hcheck
      exact Moves.of_plain hcheck plain
    | next u d =>
      rw [hf] at hcheck
      have hcore : d.core = c.core := hcheck.1
      have hd : Sampled d := h.of_core hcore
      refine (Moves.of_core hcore).trans ?_
      dsimp only
      split
      · rename_i hrefresh
        have socket := needsRefresh_socket hrefresh
        have h0 : Sampled (d.mapSock fun s => { s with state := .registered }) := hd.of_core rfl
        have hq : Moves Plain d (d.mapSock fun s => { s with state := .registered }) := .of_core rfl
        obtain ⟨hm, hs⟩ := h0.setNeedsRearm true
        have hsub := submit_spec hs.lifecycle hs.live hs.idle (answers i).refresh false true
        have hkind : (epSockSetNeedsRearmLocked
            (d.mapSock fun s => { s with state := .registered }) true).sock.kind = .socket := by
          rw [setNeedsRearm_eq]
          exact socket
        generalize epSockSetNeedsRearmLocked (d.mapSock fun s => { s with state := .registered })
          true = b at hm hs hsub hkind ⊢
        have hmb : Moves Plain d b := hq.trans hm
        generalize epSockSubmitLocked (answers i).refresh false true b = r at hsub ⊢
        obtain ⟨result, immediate, x⟩ := r
        cases result with
        | retired e => exact Moves.of_plain (hmb.trans hsub.moves) plain
        | failed e =>
          obtain ⟨hfreed, hdead, hfired⟩ := (hsub.failed e rfl).keeps
          exact Moves.of_plain ((hmb.trans hsub.moves).trans (rearmWithError_moves
            (hfreed.trans hs.live) (hdead.trans hs.alive) (hfired.trans hs.unfired) asyncPost e))
            plain
        | ok =>
          cases immediate with
          | false => exact Moves.of_plain (hmb.trans hsub.moves) plain
          | true =>
            obtain ⟨hdrift, hneeds⟩ := hsub.snapshot rfl
            have hx := hs.drift hsub.moves hdrift hkind
            refine (Moves.of_plain (hmb.trans hsub.moves) plain).trans (ih (i + 1) x hx ?_ ?_)
            · intro hr
              have hno : x.sock.needsRearm = false := hneeds
              simp [refires, hno] at hr
            · intro hc
              have hk : x.sock.kind = .socket := hdrift.kind.trans hkind
              simp [epWaitableMayConsume, hk] at hc
      · rename_i hfresh
        refine deliverSnapshot_moves hd plain (fun hn ho => both ?_) asyncPost (answers i) status ?_
        · have hn' : c.sock.needsRearm = true :=
            (core_congr hcore fun x => x.sock.needsRearm).symm.trans hn
          have ho' : c.sock.isOneshot = true :=
            (core_congr hcore fun x => x.sock.isOneshot).symm.trans ho
          by_cases ht : c.sock.endpointIdState = .transitional
          · simp [refires, hn', ho', ht]
          · have hsame : d = c := checkSocketSnapshot_settled ht hf
            rw [hsame] at hfresh
            simp [refires, hn', ho', hfresh]
        · intro hc
          exact success ((core_congr hcore fun x => epWaitableMayConsume x.sock).symm.trans hc)

/-! ## The completion -/

/-- A registration whose packet has been taken off the batch. -/
structure Dequeued (c : Cell) : Prop where
  lifecycle : Lifecycle c
  live : c.freed = false
  unreferenced : c.port.refs c.addr = 0
  owned : epWaitableMayConsume c.sock = true → c.sock.waitableNotificationOwned = true

theorem completionDisarmFailed_moves (h : Dequeued c) (busy : c.sock.pollStatus ≠ .idle)
    (answers : CompletionAnswers) (e : Errno) :
    Moves Plain c (completionDisarmFailed answers e c) := by
  have hunf := h.lifecycle.busy_unfired busy
  have h1 : Moves Plain c (c.mapSock fun s => { s with completionPosted := false }) :=
    Moves.single h.live (.clearPosted (packets_zero_of_refs h.unreferenced))
  have h2 := h1.trans (recordAsyncError_moves (by exact h.live) answers.asyncPost e)
  unfold completionDisarmFailed
  dsimp only
  generalize hb : ((c.mapSock fun s => { s with completionPosted := false }).mapPort fun p =>
    epPortRecordAsyncErrorLocked p answers.asyncPost e) = b at h2 ⊢
  have live : b.freed = false := by rw [← hb]; exact h.live
  have fired : b.sock.oneshotFired = false := by rw [← hb]; exact hunf
  have hb' := h.lifecycle.moves h2 live
  split
  · have hcan := cancel_cancelled hb' live answers.cancel
    generalize epSockCancelLocked answers.cancel b = r at hcan ⊢
    obtain ⟨failed, x⟩ := r
    have hx := hcan.lifecycle hb' live
    cases failed with
    | some e => exact h2.trans hcan.moves
    | none =>
      dsimp only
      split
      · rename_i hidle
        exact (h2.trans hcan.moves).trans
          (free_moves (hcan.freed.trans live) (hx.dead_absent hidle.2) hidle.1)
      · exact h2.trans hcan.moves
  · rename_i hopen
    simp only [Bool.or_eq_true, not_or, Bool.not_eq_true] at hopen
    exact h2.trans (setNeedsRearm_moves live true (fun _ => ⟨hopen.1, fired⟩) fun _ => fired)

theorem completeRetired_moves (plain : T .plain) (h : Lifecycle c) (live : c.freed = false)
    (idle : c.sock.pollStatus = .idle) (unqueued : c.sock.readyQueued = false)
    (unfired : c.sock.oneshotFired = false)
    (owned : epWaitableMayConsume c.sock = true → c.sock.waitableNotificationOwned = true)
    (answers : CompletionAnswers) (old : PollStatus) (status : NtStatus)
    (both : old ≠ .cancelled → status ≠ STATUS_CANCELLED → c.sock.deletePending = false →
      c.port.closing = false → refires status c = true → T .firedWhileRearming)
    (success : epWaitableMayConsume c.sock = true → 0 ≤ status) :
    Moves T c (completeRetired answers old status c) := by
  unfold completeRetired
  split
  · rename_i hdead
    exact (free_moves live (h.dead_absent hdead) idle).of_plain plain
  rename_i halive
  have halive : c.sock.deletePending = false := by simpa using halive
  have hs : Sampled c := ⟨h, live, halive, idle, unqueued, unfired, owned⟩
  split
  · refine .of_core ?_
    rfl
  rename_i hopen
  split
  · exact (hs.resubmit answers.asyncPost answers.resubmit).of_plain plain
  rename_i hnot
  simp only [not_or] at hnot
  split
  · refine Moves.of_plain ((hs.setNeedsRearm false).1.quiet ?_) plain
    rfl
  · exact processSnapshot_moves plain answers.asyncPost answers.pass status 2 0 c hs
      (both hnot.1 hnot.2 halive (by simpa using hopen)) success

/-- The packet of a live, pending oneshot registration that is on the rearm list, when the
completion would deliver it. -/
def completionRefires (c : Cell) : Bool :=
  c.sock.pollStatus = .pending && c.sock.ioStatus ≠ STATUS_CANCELLED && !c.sock.deletePending &&
    !c.port.closing && refires c.sock.ioStatus c

theorem owned_self (h : Dequeued c) (p : Prop) [Decidable p]
    (hp : p → epWaitableMayConsume c.sock = true) :
    (if p then c.mapSock fun s => { s with waitableNotificationOwned := true } else c) = c := by
  split
  · rename_i hc
    show ({ c with sock := { c.sock with waitableNotificationOwned := true } } : Cell) = c
    rw [← h.owned (hp hc)]
  · rfl

/-- The completion behind a disarm that succeeded: the poll is retired with `posted` as its new
posted flag. -/
theorem retired_moves (plain : T .plain) (h : Dequeued c) (busy : c.sock.pollStatus ≠ .idle)
    (posted : Bool)
    (aux : c.sock.isAux = true → c.sock.waitRegistration = false ∧ posted = false)
    (both : completionRefires c = true → T .firedWhileRearming) (answers : CompletionAnswers) :
    Moves T c (completeRetired answers c.sock.pollStatus c.sock.ioStatus { c with
      sock := { c.sock with pollStatus := .idle, completionPosted := posted }
      port := { c.port with pendingPollCount := c.port.pendingPollCount - 1 } }) := by
  have hm := Moves.single h.live (.retire (p := posted) busy h.unreferenced aux)
  refine (hm.of_plain plain).trans (completeRetired_moves plain ?_ ?_ ?_ ?_ ?_ ?_ answers _ _ ?_ ?_)
  · exact h.lifecycle.moves hm h.live
  · exact h.live
  · rfl
  · exact h.lifecycle.busy_unqueued busy
  · exact h.lifecycle.busy_unfired busy
  · exact h.owned
  · intro hold hstatus hdead hopen hre
    refine both ?_
    have hpend : c.sock.pollStatus = .pending := by
      cases hp : c.sock.pollStatus with
      | idle => exact absurd hp busy
      | pending => rfl
      | cancelled => exact absurd hp hold
    have hdead' : c.sock.deletePending = false := hdead
    have hopen' : c.port.closing = false := hopen
    have hre' : refires c.sock.ioStatus c = true := hre
    simp [completionRefires, hpend, hstatus, hdead', hopen', hre']
  · intro hc
    have haux : c.sock.isAux = true := mayConsume_isAux hc
    rw [h.lifecycle.aux_status haux]
    decide

theorem handleCompletion_moves (plain : T .plain) (h : Dequeued c)
    (both : completionRefires c = true → T .firedWhileRearming) (answers : CompletionAnswers) :
    Moves T c (epSockHandleCompletion answers c) := by
  have hlife := h.lifecycle
  unfold epSockHandleCompletion
  dsimp only
  split
  · exact .refl
  rename_i busy
  rw [owned_self h _ fun hp => hp.2.2]
  have hcount := hlife.busy_counted busy
  cases haux : c.sock.isAux with
  | true =>
    rw [if_pos rfl]
    rcases auxDisarm_cases hlife h.live answers.disarm with ⟨e, he⟩ | ⟨waits, he, hw, hm⟩
    · rw [he]
      exact (completionDisarmFailed_moves h busy answers e).of_plain plain
    · rw [he]
      have hrefs : (c.disarmed waits).port.refs c.addr = 0 := by
        have hg := grounded_of_refs h.unreferenced
        have hk := packets_zero_of_refs h.unreferenced
        have hg' : (c.disarmed waits).port.afdInFlight c.addr = false := hg
        have hk' : (c.disarmed waits).port.packets c.addr = 0 := hk
        have hw' : (c.disarmed waits).port.waitArmed c.addr = false := hw
        rw [refs_eq, hg', hk', hw']
        rfl
      have hb : Dequeued (c.disarmed waits) := ⟨hlife.moves hm h.live, h.live, hrefs, h.owned⟩
      have haux' : (c.disarmed waits).sock.isAux = true := haux
      dsimp only
      rw [if_pos haux', completePending_eq answers.asyncPost (by exact busy) (by exact hcount)]
      exact (hm.of_plain plain).trans (retired_moves plain hb busy false (fun _ => ⟨rfl, rfl⟩)
        both answers)
  | false =>
    rw [if_neg (by simp)]
    dsimp only
    rw [if_neg (by simp [haux]), completePending_eq answers.asyncPost busy hcount]
    exact retired_moves plain h busy c.sock.completionPosted (fun ha => by simp [haux] at ha) both
      answers

end

end WepollEx
