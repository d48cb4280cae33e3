import WepollEx.Lifecycle.Rollback

/-!
# Control operations as sequences of moves

MOD, DEL and the local shutdown on the registration they have found.
-/

namespace WepollEx

open Mask

-- the wrappers around a cell, unfolded wherever two cells are compared
attribute [local simp] Cell.core EpSock.core Port.core Cell.mapSock Cell.mapPort Cell.setFlags
  Cell.flags Flags.needs Flags.fire Cell.bumpGeneration Port.bumpGeneration Cell.record Port.record

section

variable {c d : Cell}

/-! ## MOD -/

theorem holds_waitable {s : EpSock} (h : holdsQueuedNotification s = true) : s.kind = .waitable := by
  simp [holdsQueuedNotification, epWaitableMayConsume] at h
  exact h.1.2.1.1

theorem holds_ready {s : EpSock} (h : holdsQueuedNotification s = true) : s.readyQueued = true := by
  simp [holdsQueuedNotification] at h
  exact h.1.1

/-- The flags of a registration that a MOD leaves ready. -/
theorem modifyQueued_moves (h : Lifecycle c) (live : c.freed = false)
    (alive : c.sock.deletePending = false) {events flags : Events} (data : BitVec 64) (ctx : Nat)
    (covers : Bool) (now : Nat) (plain : flags &&& EPOLLEXCLUSIVE = 0)
    (explicit : c.port.explicitRearm = true → flags &&& EPOLLET ≠ 0 → c.sock.kind = .socket)
    (holds : holdsQueuedNotification c.sock = true)
    (wanted : epWaitableInterestEvents events ≠ 0) :
    Moves Plain c (modifyApply events flags data ctx covers now c) := by
  have kind := holds_waitable holds
  have idle := h.ready_idle (holds_ready holds)
  have ht : Toggles c.addr c.flags ((c.flags.fire c.addr false).needs c.addr false) :=
    .needs false (.fire false .refl)
  have wanted' : ¬epWaitableInterestEvents events = 0#32 := wanted
  have hself : c.sock.readyQueued = true := holds_ready holds
  by_cases hone : flags &&& EPOLLONESHOT = 0#32
  · refine (Moves.single live (@Move.modifyQueued c events flags data ctx now _ ht rfl
      (by simp [hone]) alive plain explicit holds wanted)).quiet ?_
    simp [modifyApply, setNeedsRearm_eq, setOneshotFired_eq, kind, holds, wanted', hone,
      EpSock.isET, EpSock.isOneshot, hself]
    rfl
  · refine (Moves.single live (@Move.modifyQueued c events flags data ctx now _ (.fire true ht) rfl
      (by simp [hone]) alive plain explicit holds wanted)).quiet ?_
    simp [modifyApply, setNeedsRearm_eq, setOneshotFired_eq, kind, holds, wanted', hone,
      EpSock.isET, EpSock.isOneshot, hself]
    rfl

/-- The flag that a MOD without a queued node leaves on the rearm list. -/
def modifiedNeeds (c : Cell) (events : Events) (covers : Bool) : Bool :=
  if c.sock.kind = .waitable ∧ epWaitableInterestEvents events = 0 then false
  else if covers then c.sock.needsRearm else true

/-- A MOD that does not leave a node on the queue. -/
theorem modifyApply_core {events flags : Events} {data : BitVec 64} {ctx : Nat} {covers : Bool}
    {now : Nat} (gone : holdsQueuedNotification c.sock = true → epWaitableInterestEvents events = 0) :
    (modifyApply events flags data ctx covers now c).core = Cell.core { c with
      sock := { c.sock with
        userEvents := events
        userFlags := flags
        userData := data
        userCtx := ctx
        pendingEvents := 0
        observedEvents := 0
        explicitDisarmedClasses := 0
        waitableNotificationOwned :=
          c.sock.waitableNotificationOwned || holdsQueuedNotification c.sock
        readyQueued := false
        generation := nextGeneration c.port.nextSockGeneration
        needsRearm := modifiedNeeds c events covers
        oneshotFired := false }
      port := { c.port.bumpGeneration.record (.modified c.sock.serial events data ctx) with
        rearmList := ((c.flags.fire c.addr false).needs c.addr (modifiedNeeds c events covers)).rearmList
        oneshotList := (c.flags.fire c.addr false).oneshotList
        needsRearmCount :=
          ((c.flags.fire c.addr false).needs c.addr (modifiedNeeds c events covers)).rearmCount
        oneshotFiredCount := (c.flags.fire c.addr false).oneshotCount } } := by
  cases hh : holdsQueuedNotification c.sock with
  | true =>
    have kind := holds_waitable hh
    have hz : epWaitableInterestEvents events = 0#32 := gone hh
    simp [modifyApply, modifiedNeeds, setNeedsRearm_eq, setOneshotFired_eq, kind, hh, hz]
  | false =>
    by_cases hd : c.sock.kind = .waitable ∧ epWaitableInterestEvents events = 0#32
    · simp [modifyApply, modifiedNeeds, setNeedsRearm_eq, setOneshotFired_eq, hh, hd]
    · by_cases hk : c.sock.kind = .waitable
      · have hz : ¬epWaitableInterestEvents events = 0#32 := fun h0 => hd ⟨hk, h0⟩
        cases covers with
        | true =>
          simp [modifyApply, modifiedNeeds, setOneshotFired_eq, hh, hk, hz]
        | false => simp [modifyApply, modifiedNeeds, setNeedsRearm_eq, setOneshotFired_eq, hh, hk, hz]
      · cases covers with
        | true =>
          simp [modifyApply, modifiedNeeds, setOneshotFired_eq, hh, hk]
        | false => simp [modifyApply, modifiedNeeds, setNeedsRearm_eq, setOneshotFired_eq, hh, hk]

theorem modifyApply_freed (events flags : Events) (data : BitVec 64) (ctx : Nat) (covers : Bool)
    (now : Nat) (c : Cell) : (modifyApply events flags data ctx covers now c).freed = c.freed := by
  simp [modifyApply, setNeedsRearm_eq, setOneshotFired_eq, apply_ite Cell.freed]

theorem modifyQueued_ready {events : Events} (flags : Events) (data : BitVec 64) (ctx : Nat)
    (covers : Bool) (now : Nat) (holds : holdsQueuedNotification c.sock = true)
    (wanted : epWaitableInterestEvents events ≠ 0) :
    (modifyApply events flags data ctx covers now c).sock.readyQueued = true := by
  have kind := holds_waitable holds
  have wanted' : ¬epWaitableInterestEvents events = 0#32 := wanted
  by_cases hone : flags &&& EPOLLONESHOT = 0#32
  · simp [modifyApply, setNeedsRearm_eq, setOneshotFired_eq, kind, holds, wanted', hone,
      EpSock.isOneshot]
  · simp [modifyApply, setNeedsRearm_eq, setOneshotFired_eq, kind, holds, wanted', hone,
      EpSock.isOneshot]

theorem modifyGone_moves (live : c.freed = false) (alive : c.sock.deletePending = false)
    {events flags : Events} (data : BitVec 64) (ctx : Nat) (covers : Bool) (now : Nat)
    (plain : flags &&& EPOLLEXCLUSIVE = 0)
    (explicit : c.port.explicitRearm = true → flags &&& EPOLLET ≠ 0 → c.sock.kind = .socket)
    (gone : holdsQueuedNotification c.sock = true → epWaitableInterestEvents events = 0) :
    Moves Plain c (modifyApply events flags data ctx covers now c) := by
  have ht : Toggles c.addr c.flags
      ((c.flags.fire c.addr false).needs c.addr (modifiedNeeds c events covers)) :=
    .needs _ (.fire false .refl)
  have h1 := Moves.single live (@Move.modify c events flags data ctx
    (holdsQueuedNotification c.sock) _ ht rfl alive plain explicit rfl)
  refine h1.quiet ((modifyApply_core gone).trans ?_)
  rfl

theorem modifyGone_altered {events flags : Events} (data : BitVec 64) (ctx : Nat) (covers : Bool)
    (now : Nat)
    (gone : holdsQueuedNotification c.sock = true → epWaitableInterestEvents events = 0) :
    Altered c (modifyApply events flags data ctx covers now c) := by
  refine Altered.drift ?_ (.of_core (modifyApply_core gone))
  refine ⟨rfl, rfl, ?_, rfl, fun _ hs => hs, rfl, .inr ⟨rfl, rfl⟩⟩
  exact .needs _ (.fire false .refl)

/-- What a MOD has done before it submits. -/
theorem modifyApply_spec (h : Lifecycle c) (live : c.freed = false)
    (alive : c.sock.deletePending = false) (events : Events) {flags : Events} (data : BitVec 64)
    (ctx : Nat) (covers : Bool) (now : Nat) (plain : flags &&& EPOLLEXCLUSIVE = 0)
    (explicit : c.port.explicitRearm = true → flags &&& EPOLLET ≠ 0 → c.sock.kind = .socket) :
    Moves Plain c (modifyApply events flags data ctx covers now c) ∧
      ((modifyApply events flags data ctx covers now c).sock.readyQueued = false →
        Altered c (modifyApply events flags data ctx covers now c)) := by
  by_cases hkeep : holdsQueuedNotification c.sock = true ∧ epWaitableInterestEvents events ≠ 0
  · refine ⟨modifyQueued_moves h live alive data ctx covers now plain explicit hkeep.1 hkeep.2,
      fun hq => ?_⟩
    simp [modifyQueued_ready flags data ctx covers now hkeep.1 hkeep.2] at hq
  · have hgone : holdsQueuedNotification c.sock = true → epWaitableInterestEvents events = 0 := by
      intro hh
      by_contra hne
      exact hkeep ⟨hh, hne⟩
    exact ⟨modifyGone_moves live alive data ctx covers now plain explicit hgone,
      fun _ => modifyGone_altered data ctx covers now hgone⟩

theorem countChange_moves (c : Cell) : Moves Plain c (countChange c) := .of_core rfl

theorem modifySubmit_moves {b a : Cell} (h : Lifecycle b) (live : b.freed = false)
    (alive : b.sock.deletePending = false) (hm : Moves Plain b a) (hlive : a.freed = false)
    (ha : a.sock.readyQueued = false → Altered b a) (answers : ControlAnswers) :
    Moves Plain b (modifySubmit answers b a).2 := by
  have hla := h.moves hm hlive
  unfold modifySubmit
  split
  · rename_i hgo
    simp only [Bool.and_eq_true, decide_eq_true_eq] at hgo
    cases hq : a.sock.readyQueued with
    | true =>
      rw [submit_of_queued hq]
      exact hm.trans (countChange_moves a)
    | false =>
      have hs := submit_spec hla hlive hgo.1.2 answers.submit true false
      generalize epSockSubmitLocked answers.submit true false a = r at hs ⊢
      obtain ⟨result, immediate, d⟩ := r
      cases result with
      | retired e => exact hm.trans hs.moves
      | failed e =>
        exact (modifyRollback_restores b).moves h live alive (ha hq) (fun _ _ => trivial)
          (hs.failed e rfl)
      | ok => exact (hm.trans hs.moves).trans (countChange_moves d)
  · exact hm.trans (countChange_moves a)

theorem cancelCovering_snd (answers : CancelAnswers) (c : Cell) :
    (cancelCovering answers c).2 = (epSockCancelLocked answers c).2 := by
  unfold cancelCovering
  generalize epSockCancelLocked answers c = r
  obtain ⟨failed, d⟩ := r
  cases failed <;> rfl

theorem modifyPendingPoll_cancelled (h : Lifecycle c) (live : c.freed = false)
    (answers : ControlAnswers) (events : Events) :
    Cancelled c (modifyPendingPoll answers events c).2 := by
  have hc : Cancelled c (cancelCovering answers.cancel c).2 := by
    rw [cancelCovering_snd]
    exact cancel_cancelled h live answers.cancel
  unfold modifyPendingPoll
  split
  · exact .refl
  dsimp only
  split
  · exact hc
  split
  · exact .refl
  split
  · exact hc
  split
  · exact .refl
  · exact hc

theorem modifyLocked_moves (h : Lifecycle c) (live : c.freed = false)
    (alive : c.sock.deletePending = false) (answers : ControlAnswers) (events : Events)
    {flags : Events} (plain : flags &&& EPOLLEXCLUSIVE = 0) (data : BitVec 64) (ctx : Nat) :
    Moves Plain c (modifyLocked answers events flags data ctx c).2 := by
  have hcan := modifyPendingPoll_cancelled h live answers events
  unfold modifyLocked
  split
  · exact .refl
  split
  · exact .refl
  split
  · exact .refl
  rename_i hexplicit
  generalize modifyPendingPoll answers events c = r at hcan ⊢
  obtain ⟨result, d⟩ := r
  cases result with
  | error e => exact hcan.moves
  | ok covers =>
    have hl := hcan.lifecycle h live
    have hlive : d.freed = false := hcan.freed.trans live
    have halive : d.sock.deletePending = false := hcan.dead.trans alive
    have hex : d.port.explicitRearm = true → flags &&& EPOLLET ≠ 0 → d.sock.kind = .socket := by
      have hp : d.port.explicitRearm = c.port.explicitRearm := hcan.explicit
      have hk : d.sock.kind = c.sock.kind := hcan.kind
      rw [hp, hk]
      intro he het
      by_contra hno
      exact hexplicit ⟨he, het, hno⟩
    dsimp only
    split
    · exact hcan.moves
    · have hfreed := (modifyApply_freed events flags data ctx covers answers.now d).trans hlive
      obtain ⟨hm, ha⟩ := modifyApply_spec hl hlive halive events data ctx covers answers.now
        plain hex
      exact hcan.moves.trans (modifySubmit_moves hl hlive halive hm hfreed ha answers)

/-! ## DEL -/

theorem unregisterLocked_moves (h : Lifecycle c) (live : c.freed = false)
    (answers : ControlAnswers) : Moves Plain c (unregisterLocked answers c).2 := by
  obtain ⟨d, hd, hcan⟩ : ∃ d, (if c.sock.pollStatus = .pending then
      (epSockCancelLocked answers.cancel c).2 else c) = d ∧ Cancelled c d := by
    split
    · exact ⟨_, rfl, cancel_cancelled h live answers.cancel⟩
    · exact ⟨_, rfl, .refl⟩
  have hl := hcan.lifecycle h live
  have hlive : d.freed = false := hcan.freed.trans live
  unfold unregisterLocked
  rw [hd]
  refine hcan.moves.trans ?_
  simp only [setNeedsRearm_eq, forget_eq]
  have h1 := (condemn_moves hlive).plain hlive (.renew (.inr rfl))
  unfold freeIfIdle
  split
  · rename_i hidle
    have h2 := h1.plain hlive (.free (forgottenTable_absent d) (by exact hidle) rfl rfl)
    refine h2.quiet ?_
    simp [epSockFreeLocked, setNeedsRearm_eq, setOneshotFired_eq, countChange, Cell.withTable]
  · rename_i hbusy
    have hfired := hl.busy_unfired (c := d) (by exact hbusy)
    refine h1.quiet ?_
    simp [countChange, Cell.withTable, hfired]

/-! ## Local shutdown -/

theorem countIf_moves (p : Prop) [Decidable p] (c : Cell) :
    Moves Plain c (if p then countChange c else c) := by
  split
  · exact countChange_moves c
  · exact .refl

/-- The publication once no poll is pending. -/
theorem shutdownQueue_moves (h : Lifecycle c) (live : c.freed = false)
    (alive : c.sock.deletePending = false) (socket : c.sock.kind = .socket)
    (idle : c.sock.pollStatus = .idle) (answers : ControlAnswers) (reserved stateChanged : Bool)
    (hres : reserved = false → c.sock.readyQueued = true ∨ c.sock.oneshotFired = false →
      c.sock.oneshotFired = false) :
    Moves Plain c (match epSockQueueLocalShutdownLocked answers.submit.levels
        answers.submit.nodeAlloc answers.submit.claims answers.now reserved c with
      | (.failed e, c) => (CtlResult.fail e, countChange (epSockSetNeedsRearmLocked c true))
      | (.queued, c) => (.ok c.port.waiterTakesWork, if stateChanged then countChange c else c)
      | (.nothing, c) => (.ok false, if stateChanged then countChange c else c)).2 := by
  have hq := queueLocalShutdown_spec h live alive socket idle answers.submit.levels
    answers.submit.nodeAlloc answers.submit.claims answers.now reserved
  have hfail := @queueLocalShutdown_failed c answers.submit.levels answers.submit.nodeAlloc
    answers.submit.claims answers.now reserved
  generalize epSockQueueLocalShutdownLocked answers.submit.levels answers.submit.nodeAlloc
    answers.submit.claims answers.now reserved c = r at hq hfail ⊢
  obtain ⟨result, d⟩ := r
  cases result with
  | queued => exact hq.moves.trans (countIf_moves _ d)
  | nothing => exact hq.moves.trans (countIf_moves _ d)
  | failed e =>
    obtain ⟨hnode, hready⟩ := hfail rfl
    have hd := hq.drift (by simp)
    have hunf : d.sock.oneshotFired = false := hd.fired.trans (hres hnode hready)
    exact (hq.moves.trans (setNeedsRearm_moves hq.live true
      (fun _ => ⟨hd.dead.trans alive, hunf⟩) (fun _ => hunf))).trans (countChange_moves _)

theorem shutdownPublish_moves (h : Lifecycle c) (live : c.freed = false)
    (alive : c.sock.deletePending = false) (socket : c.sock.kind = .socket)
    (answers : ControlAnswers) (reserved stateChanged : Bool)
    (hres : reserved = false → c.sock.pollStatus = .idle →
      c.sock.readyQueued = true ∨ c.sock.oneshotFired = false → c.sock.oneshotFired = false) :
    Moves Plain c (shutdownPublish answers reserved stateChanged c).2 := by
  unfold shutdownPublish
  dsimp only
  by_cases hpend : c.sock.pollStatus = .pending
  · rw [if_pos hpend]
    have hbusy : c.sock.pollStatus ≠ .idle := by simp [hpend]
    have hunf := h.busy_unfired hbusy
    have hm := setNeedsRearm_moves live true (fun _ => ⟨alive, hunf⟩) (fun _ => hunf)
    have hb : (epSockSetNeedsRearmLocked c true).freed = false := by
      rw [setNeedsRearm_freed]
      exact live
    have hlb := h.moves hm hb
    have hcan := cancel_cancelled hlb hb answers.cancel
    have hd := hcan.lifecycle hlb hb
    have hfields : (epSockSetNeedsRearmLocked c true).sock.oneshotFired = false ∧
        (epSockSetNeedsRearmLocked c true).sock.deletePending = false ∧
        (epSockSetNeedsRearmLocked c true).sock.kind = .socket := by
      rw [setNeedsRearm_eq]
      exact ⟨hunf, alive, socket⟩
    generalize epSockSetNeedsRearmLocked c true = b at hm hb hlb hcan hd hfields ⊢
    generalize epSockCancelLocked answers.cancel b = r at hcan hd ⊢
    obtain ⟨failed, d⟩ := r
    have hmd := hm.trans hcan.moves
    cases failed with
    | some e => exact hmd.trans (countChange_moves d)
    | none =>
      dsimp only
      split
      · rename_i hgo
        have hidle : d.sock.pollStatus = .idle := by
          simp only [Bool.or_eq_true, decide_eq_true_eq] at hgo
          exact hgo.elim id hd.ready_idle
        exact hmd.trans (shutdownQueue_moves hd (hcan.freed.trans hb) (hcan.dead.trans hfields.2.1)
          (hcan.kind.trans hfields.2.2) hidle answers reserved stateChanged
          (fun _ _ => hcan.fired.trans hfields.1))
      · exact hmd.trans (countIf_moves _ d)
  · rw [if_neg hpend]
    dsimp only
    split
    · rename_i hgo
      have hidle : c.sock.pollStatus = .idle := by
        simp only [Bool.or_eq_true, decide_eq_true_eq] at hgo
        exact hgo.elim id h.ready_idle
      exact shutdownQueue_moves h live alive socket hidle answers reserved stateChanged
        (fun hr => hres hr hidle)
    · exact countIf_moves _ c

theorem shutdownLocked_moves (h : Lifecycle c) (live : c.freed = false)
    (alive : c.sock.deletePending = false) (answers : ControlAnswers) (how : ShutdownHow) :
    Moves Plain c (shutdownLocked answers how c).2 := by
  unfold shutdownLocked
  split
  · exact .refl
  rename_i hsock
  have socket : c.sock.kind = .socket := by simpa using hsock
  dsimp only
  split
  · exact .refl
  split
  · exact .refl
  -- recording the shutdown only changes a cache
  obtain ⟨d, hd, hcore⟩ : ∃ d, (if (decide (c.sock.socketProtocol = .tcp) && decide
      (c.sock.localShutdown.merge (epLocalShutdownMask how) ≠ c.sock.localShutdown)) = true then
      c.mapSock fun s => { s with
        localShutdown := c.sock.localShutdown.merge (epLocalShutdownMask how) } else c) = d ∧
      d.core = c.core := by
    split
    · exact ⟨_, rfl, rfl⟩
    · exact ⟨_, rfl, rfl⟩
  rw [hd]
  split
  · rename_i hpub
    refine (Moves.of_core hcore).trans (shutdownPublish_moves (h.of_core hcore) ?_ ?_ ?_ answers _ _ ?_)
    · exact (core_congr hcore Cell.freed).trans live
    · exact (core_congr hcore fun x => x.sock.deletePending).trans alive
    · exact (core_congr hcore fun x => x.sock.kind).trans socket
    · have hq : d.sock.readyQueued = c.sock.readyQueued :=
        core_congr hcore fun x => x.sock.readyQueued
      have hf : d.sock.oneshotFired = c.sock.oneshotFired :=
        core_congr hcore fun x => x.sock.oneshotFired
      have hi : d.sock.pollStatus = c.sock.pollStatus := core_congr hcore fun x => x.sock.pollStatus
      rw [hq, hf, hi]
      intro hres hidle hready
      simp only [hpub, Bool.true_and, hidle, decide_true, Bool.true_or, Bool.or_eq_false_iff]
        at hres
      rcases hready with hr | hr
      · simp [hr] at hres
      · exact hr
  · exact .of_core hcore

end

end WepollEx
