import WepollEx.Lifecycle.Probe

/-!
# Queueing a local shutdown

`ep_sock_queue_local_shutdown_locked` as a sequence of moves, and the small changes that a call
which queues nothing may leave behind.
-/

namespace WepollEx

open Mask

-- the wrappers around a cell, unfolded wherever two cells are compared
attribute [local simp] Cell.core EpSock.core Port.core Cell.mapSock Cell.mapPort Cell.setFlags
  Cell.flags Flags.needs Flags.fire Cell.bumpGeneration Port.bumpGeneration

section

variable {c d : Cell}

/-! ## Local shutdown -/

/-- A local-shutdown level lies in the interest and in no disarmed class. -/
theorem localShutdownLevel_spec (answers : LevelAnswers) (c : Cell) :
    Within (epSockLocalShutdownLevelLocked answers c).1 c.sock.interest ∧
      (epSockExplicitRearmEnabled c.port c.sock = true →
        epReadinessClasses (epSockLocalShutdownLevelLocked answers c).1 &&&
          c.sock.explicitDisarmedClasses = 0) := by
  have hcore := mergeCurrentLevels_core answers c 0
  unfold epSockLocalShutdownLevelLocked
  split
  · refine ⟨Within.zero _, fun _ => ?_⟩
    exact readinessClasses_and_eq_zero fun k m _ hne => absurd (by simp) hne
  · generalize epSocketMergeCurrentLevels answers c 0 = r at hcore ⊢
    obtain ⟨polled, level, d⟩ := r
    have hint : d.sock.interest = c.sock.interest := core_congr hcore fun x => x.sock.interest
    have hdis : d.sock.explicitDisarmedClasses = c.sock.explicitDisarmedClasses :=
      core_congr hcore fun x => x.sock.explicitDisarmedClasses
    have hen : epSockExplicitRearmEnabled d.port d.sock = epSockExplicitRearmEnabled c.port c.sock :=
      core_congr hcore fun x => epSockExplicitRearmEnabled x.port x.sock
    have hmask : Within (epSockMergeLocalShutdownLocked d.sock level &&&
        (d.sock.userEvents ||| EPOLLERR ||| EPOLLHUP)) c.sock.interest := by
      rw [← hint]
      exact within_and_self_right _ _
    simp only [hen, hdis]
    split
    · exact ⟨(filterClasses_within _ _).trans hmask, fun _ => filterClasses_disjoint _ _⟩
    · rename_i hoff
      exact ⟨hmask, fun hon => absurd hon hoff⟩

/-- `d` differs from `c` only in caches, the rearm flag, the edge latch and an AFD status. -/
structure Drift (c d : Cell) : Prop where
  addr : d.addr = c.addr
  freed : d.freed = c.freed
  toggles : Toggles c.addr c.flags d.flags
  sock : d.sock.core = { c.sock.core with
    needsRearm := d.sock.needsRearm
    observedEvents := d.sock.observedEvents
    ioStatus := d.sock.ioStatus }
  status : c.sock.isAux = true → c.sock.ioStatus = STATUS_SUCCESS →
    d.sock.ioStatus = STATUS_SUCCESS
  port : d.port.core = { c.port.core with
    rearmList := d.port.rearmList
    needsRearmCount := d.port.needsRearmCount }

/-- `d` is `c` after a post has failed and, possibly, cost a notification. -/
def Faulted (c d : Cell) : Prop :=
  ∃ (packets : List Packet) (consumed : Nat → Nat) (owned : Bool),
    (packets = c.port.iocp ∨ packets = []) ∧
    (consumed = c.port.consumedCount ∧ owned = c.sock.waitableNotificationOwned ∨
      epWaitableMayConsume c.sock = true ∧
        consumed = bumpAt c.port.consumedCount c.sock.serial) ∧
    d.core = Cell.core { c with
      sock := { c.sock with waitableNotificationOwned := owned }
      port := { c.port with
        closing := true
        iocpPostHandle := false
        iocpClosed := true
        iocp := packets
        iocpPostFailures := c.port.iocpPostFailures + 1
        consumedCount := consumed } }

/-- What a submission that fails may have changed. -/
def Failed (c d : Cell) : Prop := Drift c d ∨ ∃ m, Drift c m ∧ Faulted m d

theorem Drift.of_core (h : d.core = c.core) : Drift c d := by
  have hs : d.sock.core = c.sock.core := core_congr h fun x => x.sock
  have hp : d.port.core = c.port.core := core_congr h fun x => x.port
  have hflags : d.flags = c.flags := core_congr h Cell.flags
  refine ⟨core_congr h Cell.addr, core_congr h Cell.freed, hflags ▸ .refl, ?_, ?_, ?_⟩
  · simp only [EpSock.core, EpSock.mk.injEq] at hs ⊢
    simp_all
  · intro _ hst
    exact (core_congr h fun x => x.sock.ioStatus).trans hst
  · simp only [Port.core, Port.mk.injEq] at hp ⊢
    simp_all

theorem Drift.isAux (h : Drift c d) : d.sock.isAux = c.sock.isAux := by
  have := congrArg EpSock.isAux h.sock
  exact this

theorem Drift.trans {e : Cell} (h : Drift c d) (h' : Drift d e) : Drift c e where
  addr := h'.addr.trans h.addr
  freed := h'.freed.trans h.freed
  toggles := h.toggles.trans (h.addr ▸ h'.toggles)
  sock := by rw [h'.sock, h.sock]
  status := fun ha hs => h'.status (h.isAux.trans ha) (h.status ha hs)
  port := by rw [h'.port, h.port]

theorem Drift.failed {e : Cell} (h : Drift c d) (h' : Failed d e) : Failed c e := by
  rcases h' with h' | ⟨m, hm, hf⟩
  · exact .inl (h.trans h')
  · exact .inr ⟨m, h.trans hm, hf⟩

theorem Drift.needsRearm (c : Cell) (b : Bool) : Drift c (epSockSetNeedsRearmLocked c b) := by
  rw [setNeedsRearm_eq]
  exact ⟨rfl, rfl, .needs b .refl, rfl, fun _ hs => hs, rfl⟩

theorem Drift.latch (c : Cell) (o : Events) :
    Drift c (c.mapSock fun s => { s with observedEvents := o }) :=
  ⟨rfl, rfl, .refl, rfl, fun _ hs => hs, rfl⟩

/-- The flags of a registration whose delivery has just been queued. -/
def deliveredFlags (c : Cell) : Flags :=
  if c.sock.isOneshot then (c.flags.needs c.addr false).fire c.addr true
  else c.flags.needs c.addr false

theorem deliveredFlags_toggles (c : Cell) : Toggles c.addr c.flags (deliveredFlags c) := by
  unfold deliveredFlags
  split
  · exact .fire true (.needs false .refl)
  · exact .needs false .refl

theorem deliveredFlags_rearm (c : Cell) : (deliveredFlags c).rearm = false := by
  unfold deliveredFlags
  split <;> rfl

theorem deliveredFlags_fired (fired : c.sock.oneshotFired = true → c.sock.isOneshot = true) :
    (deliveredFlags c).fired = c.sock.isOneshot := by
  unfold deliveredFlags
  split
  · rename_i hone
    exact hone.symm
  · rename_i hnone
    have hfired : c.sock.oneshotFired = false := by
      cases hf : c.sock.oneshotFired with
      | false => rfl
      | true => exact absurd (fired hf) hnone
    have hoff : c.sock.isOneshot = false := by simpa using hnone
    exact hfired.trans hoff.symm

theorem publishShutdown_moves (live : c.freed = false) (unfired : c.sock.oneshotFired = false)
    (alive : c.sock.deletePending = false) (socket : c.sock.kind = .socket)
    (idle : c.sock.pollStatus = .idle) (unqueued : c.sock.readyQueued = false) {e o : Events}
    (now : Nat) (nonzero : e ≠ 0) (interest : Within e c.sock.interest)
    (armed : epSockExplicitRearmEnabled c.port c.sock = true →
      epReadinessClasses e &&& c.sock.explicitDisarmedClasses = 0)
    (latched : c.sock.isExclusive = false → Within o (c.sock.observedEvents ||| e)) :
    Moves Plain c (publishLocalShutdown false e now
      (c.mapSock fun s => { s with observedEvents := o })) := by
  have h2 := Moves.single live (.publish (n := now) (deliveredFlags_toggles c) unfired
    (deliveredFlags_fired (by simp [unfired])) (fun hr => by simp [deliveredFlags_rearm] at hr) idle
    unqueued alive nonzero interest (fun hx => by simp [epWaitableMayConsume, socket] at hx)
    armed latched)
  refine h2.quiet ?_
  by_cases hone : c.sock.userFlags &&& EPOLLONESHOT = 0#32
  · simp [publishLocalShutdown, setNeedsRearm_eq, deliveredFlags, hone, epReadyPublish,
      disarmDelivered, disarmedAfter, EpSock.isOneshot, readyNodeFor, deliveryFlags, EpSock.isET,
      epSockExplicitRearmEnabled, epWaitableMayConsume, socket]
  · simp [publishLocalShutdown, setNeedsRearm_eq, setOneshotFired_eq, deliveredFlags, hone,
      epReadyPublish, disarmDelivered, disarmedAfter, EpSock.isOneshot, readyNodeFor,
      deliveryFlags, EpSock.isET, epSockExplicitRearmEnabled, epWaitableMayConsume, socket]

theorem republishShutdown_moves (live : c.freed = false)
    (fired : c.sock.oneshotFired = true → c.sock.isOneshot = true) (alive : c.sock.deletePending = false) (socket : c.sock.kind = .socket)
    (idle : c.sock.pollStatus = .idle) (queued : c.sock.readyQueued = true) {e edge o : Events}
    (now : Nat) (nonzero : e ≠ 0) (interest : Within e c.sock.interest)
    (armed : epSockExplicitRearmEnabled c.port c.sock = true →
      epReadinessClasses edge &&& c.sock.explicitDisarmedClasses = 0)
    (latched : c.sock.isExclusive = false →
      e = c.sock.pendingEvents ||| edge ∧ Within o (c.sock.observedEvents ||| edge)) :
    Moves Plain c (publishLocalShutdown true e now
      (c.mapSock fun s => { s with observedEvents := o })) := by
  have h2 := Moves.single live (.republish (n := now) (deliveredFlags_toggles c)
    (deliveredFlags_rearm c) (deliveredFlags_fired fired) idle queued alive socket nonzero interest
    armed latched)
  refine h2.quiet ?_
  by_cases hone : c.sock.userFlags &&& EPOLLONESHOT = 0#32
  · simp [publishLocalShutdown, setNeedsRearm_eq, deliveredFlags, hone, epReadyPublish,
      disarmDelivered, disarmedAfter, EpSock.isOneshot, readyNodeFor, deliveryFlags, EpSock.isET,
      epSockExplicitRearmEnabled, socket, queued]
  · simp [publishLocalShutdown, setNeedsRearm_eq, setOneshotFired_eq, deliveredFlags, hone,
      epReadyPublish, disarmDelivered, disarmedAfter, EpSock.isOneshot, readyNodeFor,
      deliveryFlags, EpSock.isET, epSockExplicitRearmEnabled, socket, queued]

/-- What queueing a local shutdown does to an idle socket registration. -/
structure QueueSpec (c : Cell) (r : QueueResult × Cell) : Prop where
  moves : Moves Plain c r.2
  live : r.2.freed = false
  drift : r.1 ≠ .queued → Drift c r.2

/-- The fresh bits of an edge come from the level, and only they enter the latch. -/
theorem etEdge_spec (s : EpSock) (level : Events) :
    Within (epEtEdge s level).1 level ∧
      Within (epEtEdge s level).2 (s.observedEvents ||| (epEtEdge s level).1) :=
  ⟨within_and_self_left _ _, (within_and_self_left _ _).or_mono (.refl _)⟩

/-- The same for the bits a local shutdown adds, edge-triggered or not. -/
theorem freshBits_spec (s : EpSock) (level : Events) :
    ∃ fresh observed, (if s.isET then epEtEdge s level else (level, s.observedEvents)) =
        (fresh, observed) ∧ Within fresh level ∧ Within observed (s.observedEvents ||| fresh) := by
  split
  · exact ⟨_, _, rfl, (etEdge_spec s level).1, (etEdge_spec s level).2⟩
  · exact ⟨_, _, rfl, .refl _, (Within.refl _).inl _⟩

/-- The mask that is left to a claimant, or the whole mask without EPOLLEXCLUSIVE. -/
theorem claimed_spec {claims : List Classes} {delivered e : Events} {exclusive : Bool}
    (h : (if exclusive = true then epExclusiveTryClaimMask claims delivered else some delivered) =
      some e) (hne : delivered ≠ 0) :
    e ≠ 0 ∧ Within e delivered ∧ (exclusive = false → e = delivered) := by
  cases exclusive with
  | false =>
    simp only [Bool.false_eq_true, if_false, Option.some.injEq] at h
    subst h
    exact ⟨hne, .refl _, fun _ => rfl⟩
  | true =>
    have hs := exclusiveTryClaimMask_some (by simpa using h) hne
    exact ⟨hs.1, hs.2, fun hx => by simp at hx⟩

theorem refused_exclusive {claims : List Classes} {delivered : Events} {exclusive : Bool}
    (h : (if exclusive = true then epExclusiveTryClaimMask claims delivered else some delivered) =
      none) : exclusive = true := by
  cases exclusive with
  | false => simp at h
  | true => rfl

@[simp] theorem setNeedsRearm_freed (c : Cell) (b : Bool) :
    (epSockSetNeedsRearmLocked c b).freed = c.freed := by
  rw [setNeedsRearm_eq]
  rfl

@[simp] theorem setOneshotFired_freed (c : Cell) (b : Bool) :
    (epSockSetOneshotFiredLocked c b).freed = c.freed := by
  rw [setOneshotFired_eq]
  rfl

theorem publishLocalShutdown_freed (ready : Bool) (e : Events) (now : Nat) (c : Cell) :
    (publishLocalShutdown ready e now c).freed = c.freed := by
  unfold publishLocalShutdown
  cases ready <;> simp [epReadyPublish, apply_ite Cell.freed]

/-- An exclusive registration that loses its claim is put back on the rearm list. -/
theorem refused_moves (h : Lifecycle c) (live : c.freed = false)
    (alive : c.sock.deletePending = false) (exclusive : c.sock.isExclusive = true) (o : Events) :
    Moves Plain c (epSockSetNeedsRearmLocked
      ((c.mapSock fun s => { s with observedEvents := o }).mapSock
        fun s => { s with etHoldoff := true }) true) := by
  have hfired : c.sock.oneshotFired = false := by
    cases hf : c.sock.oneshotFired with
    | false => rfl
    | true =>
      have := h.fired_oneshot hf
      simp [(h.exclusive_shape exclusive).2] at this
  have h1 : Moves Plain c (c.mapSock fun s => { s with observedEvents := o }) :=
    Moves.single live (.latch fun hx => by simp [exclusive] at hx)
  refine Moves.trans (h1.quiet ?_) (setNeedsRearm_moves ?_ true ?_ ?_)
  · rfl
  · exact live
  · exact fun _ => ⟨alive, hfired⟩
  · exact fun _ => hfired

theorem refused_drift (c : Cell) (o : Events) :
    Drift c (epSockSetNeedsRearmLocked
      ((c.mapSock fun s => { s with observedEvents := o }).mapSock
        fun s => { s with etHoldoff := true }) true) :=
  (Drift.latch c o).trans (Drift.trans (d := (c.mapSock fun s => { s with observedEvents := o }).mapSock
    fun s => { s with etHoldoff := true }) (Drift.of_core rfl) (.needsRearm _ true))

theorem queueShutdownLevel_spec (h : Lifecycle c) (live : c.freed = false)
    (alive : c.sock.deletePending = false) (socket : c.sock.kind = .socket)
    (idle : c.sock.pollStatus = .idle) (level : Events) (interest : Within level c.sock.interest)
    (armed : epSockExplicitRearmEnabled c.port c.sock = true →
      epReadinessClasses level &&& c.sock.explicitDisarmedClasses = 0)
    (nodeAlloc : Option Errno) (claims : List Classes) (now : Nat) (node : Bool) :
    QueueSpec c (queueShutdownLevel level nodeAlloc claims now node c) := by
  obtain ⟨fresh, observed, hfresh, hfl, hlatch⟩ := freshBits_spec c.sock level
  have harmed : epSockExplicitRearmEnabled c.port c.sock = true →
      epReadinessClasses fresh &&& c.sock.explicitDisarmedClasses = 0 :=
    fun he => readinessClasses_disjoint_mono hfl (armed he)
  have hlatch0 : Within (if c.sock.isET = true then observed else 0)
      (c.sock.observedEvents ||| fresh) := by
    split
    · exact hlatch
    · exact .zero _
  unfold queueShutdownLevel
  simp only [hfresh]
  cases hq : c.sock.readyQueued with
  | false =>
    simp only [Bool.not_false, Bool.true_and, Bool.false_eq_true, if_false, false_and, or_false]
    split
    · exact ⟨.refl, live, fun _ => .of_core rfl⟩
    rename_i hfired
    have unfired : c.sock.oneshotFired = false := by simpa using hfired
    split
    · rename_i hzero
      refine ⟨Moves.single live (.latch fun _ => hlatch.trans ((Within.refl _).or_mono ?_)), live,
        fun _ => .latch c _⟩
      rw [hzero]
      exact .zero _
    rename_i hsome
    cases (if node = true then none else nodeAlloc) with
    | some e => exact ⟨.refl, live, fun _ => .of_core rfl⟩
    | none =>
      dsimp only
      split
      · rename_i hclaim
        refine ⟨refused_moves h live alive (refused_exclusive hclaim) _, ?_,
          fun _ => refused_drift c _⟩
        rw [setNeedsRearm_freed]
        exact live
      · rename_i hclaim
        obtain ⟨hne, hwithin, hall⟩ := claimed_spec hclaim hsome
        refine ⟨publishShutdown_moves live unfired alive socket idle hq now hne
          (hwithin.trans (hfl.trans interest))
          (fun he => readinessClasses_disjoint_mono hwithin (harmed he)) (fun hx => ?_), ?_,
          fun hn => absurd rfl hn⟩
        · rw [hall hx]
          exact hlatch0
        · rw [publishLocalShutdown_freed]
          exact live
  | true =>
    simp only [Bool.not_true, Bool.false_and, Bool.false_eq_true, if_false, if_true, true_and]
    have hpend := h.queued_events hq
    split
    · rename_i hnone
      refine ⟨Moves.single live (.latch fun _ => hlatch.trans ((Within.refl _).or_mono ?_)), live,
        fun _ => .latch c _⟩
      -- the queued node carries the fresh bits already
      simp only [EpSock.queuedEvents, hq, if_true]
      rcases hnone with hzero | heq
      · have : Within fresh 0 := hzero ▸ (Within.refl fresh).inr _
        exact this.trans (.zero _)
      · have : Within fresh (c.sock.pendingEvents ||| fresh) := (Within.refl fresh).inr _
        rwa [heq] at this
    rename_i hsome
    have hne : c.sock.pendingEvents ||| fresh ≠ 0 := fun h0 => hsome (.inl h0)
    cases (if node = true then none else nodeAlloc) with
    | some e => exact ⟨.refl, live, fun _ => .of_core rfl⟩
    | none =>
      dsimp only
      split
      · rename_i hclaim
        refine ⟨refused_moves h live alive (refused_exclusive hclaim) _, ?_,
          fun _ => refused_drift c _⟩
        rw [setNeedsRearm_freed]
        exact live
      · rename_i hclaim
        obtain ⟨hne, hwithin, hall⟩ := claimed_spec hclaim hne
        refine ⟨republishShutdown_moves live h.fired_oneshot alive socket idle hq now hne
          (hwithin.trans (hpend.2.or (hfl.trans interest))) harmed (fun hx => ⟨hall hx, hlatch0⟩),
          ?_, fun hn => absurd rfl hn⟩
        rw [publishLocalShutdown_freed]
        exact live

theorem QueueSpec.of_core {r : QueueResult × Cell} (h : QueueSpec d r) (hcore : d.core = c.core) :
    QueueSpec c r :=
  ⟨(Moves.of_core hcore).trans h.moves, h.live, fun hn => (Drift.of_core hcore).trans (h.drift hn)⟩

theorem queueLocalShutdown_spec (h : Lifecycle c) (live : c.freed = false)
    (alive : c.sock.deletePending = false) (socket : c.sock.kind = .socket)
    (idle : c.sock.pollStatus = .idle) (levels : LevelAnswers) (nodeAlloc : Option Errno)
    (claims : List Classes) (now : Nat) (node : Bool) :
    QueueSpec c (epSockQueueLocalShutdownLocked levels nodeAlloc claims now node c) := by
  have hcore := localShutdownLevel_core levels c
  obtain ⟨hint, harmed⟩ := localShutdownLevel_spec levels c
  unfold epSockQueueLocalShutdownLocked
  generalize epSockLocalShutdownLevelLocked levels c = r at hcore hint harmed ⊢
  obtain ⟨level, d⟩ := r
  refine QueueSpec.of_core (queueShutdownLevel_spec (h.of_core hcore) ?_ ?_ ?_ ?_ level ?_ ?_
    nodeAlloc claims now node) hcore
  · exact (core_congr hcore Cell.freed).trans live
  · exact (core_congr hcore fun x => x.sock.deletePending).trans alive
  · exact (core_congr hcore fun x => x.sock.kind).trans socket
  · exact (core_congr hcore fun x => x.sock.pollStatus).trans idle
  · have hi : d.sock.interest = c.sock.interest := core_congr hcore fun x => x.sock.interest
    rw [hi]
    exact hint
  · have he : epSockExplicitRearmEnabled d.port d.sock = epSockExplicitRearmEnabled c.port c.sock :=
      core_congr hcore fun x => epSockExplicitRearmEnabled x.port x.sock
    have hd : d.sock.explicitDisarmedClasses = c.sock.explicitDisarmedClasses :=
      core_congr hcore fun x => x.sock.explicitDisarmedClasses
    rw [he, hd]
    exact harmed

/-- Only a caller without a node, on a registration it may publish, can fail. -/
theorem queueShutdownLevel_failed {level : Events} {nodeAlloc : Option Errno}
    {claims : List Classes} {now : Nat} {node : Bool} {e : Errno}
    (h : (queueShutdownLevel level nodeAlloc claims now node c).1 = .failed e) :
    node = false ∧ (c.sock.readyQueued = true ∨ c.sock.oneshotFired = false) := by
  obtain ⟨fresh, observed, hfresh, -, -⟩ := freshBits_spec c.sock level
  unfold queueShutdownLevel at h
  simp only [hfresh] at h
  generalize (if c.sock.readyQueued = true then c.sock.pendingEvents ||| fresh else fresh) =
    delivered at h
  split at h
  · simp at h
  · rename_i hgo
    have hready : c.sock.readyQueued = true ∨ c.sock.oneshotFired = false := by
      cases hq : c.sock.readyQueued with
      | true => exact .inl rfl
      | false =>
        simp [hq] at hgo
        exact .inr hgo
    refine ⟨?_, hready⟩
    cases node with
    | false => rfl
    | true =>
      simp only [if_true] at h
      split at h
      · simp at h
      · split at h <;> simp at h

theorem queueLocalShutdown_failed {levels : LevelAnswers} {nodeAlloc : Option Errno}
    {claims : List Classes} {now : Nat} {node : Bool} {e : Errno}
    (h : (epSockQueueLocalShutdownLocked levels nodeAlloc claims now node c).1 = .failed e) :
    node = false ∧ (c.sock.readyQueued = true ∨ c.sock.oneshotFired = false) := by
  have hcore := localShutdownLevel_core levels c
  unfold epSockQueueLocalShutdownLocked at h
  generalize epSockLocalShutdownLevelLocked levels c = r at hcore h
  obtain ⟨level, d⟩ := r
  have hq : d.sock.readyQueued = c.sock.readyQueued := core_congr hcore fun x => x.sock.readyQueued
  have hf : d.sock.oneshotFired = c.sock.oneshotFired :=
    core_congr hcore fun x => x.sock.oneshotFired
  rw [← hq, ← hf]
  exact queueShutdownLevel_failed h

end

end WepollEx
