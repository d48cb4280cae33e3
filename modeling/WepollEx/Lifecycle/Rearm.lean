import WepollEx.Lifecycle.Control

/-!
# Rearms as sequences of moves

The rearm of a fired oneshot registration and the acknowledgement of delivered classes.
-/

namespace WepollEx

open Mask

-- the wrappers around a cell, unfolded wherever two cells are compared
attribute [local simp] Cell.core EpSock.core Port.core Cell.mapSock Cell.mapPort Cell.setFlags
  Cell.flags Flags.needs Flags.fire Cell.bumpGeneration Port.bumpGeneration Cell.record Port.record

section

variable {c d : Cell}

/-! ## Rearm -/

theorem rearmApply_core (c : Cell) :
    (rearmApply c).core = Cell.core { c with
      sock := { c.sock with
        pendingEvents := 0
        observedEvents := 0
        waitableNotificationOwned :=
          c.sock.waitableNotificationOwned || holdsQueuedNotification c.sock
        readyQueued := false
        needsRearm := true
        oneshotFired := false
        generation := nextGeneration c.port.nextSockGeneration }
      port := { c.port.bumpGeneration.record (.rearmed c.sock.serial) with
        rearmList := ((c.flags.fire c.addr false).needs c.addr true).rearmList
        oneshotList := (c.flags.fire c.addr false).oneshotList
        needsRearmCount := ((c.flags.fire c.addr false).needs c.addr true).rearmCount
        oneshotFiredCount := (c.flags.fire c.addr false).oneshotCount } } := by
  simp [rearmApply, setNeedsRearm_eq, setOneshotFired_eq]

theorem rearmApply_moves (live : c.freed = false) (alive : c.sock.deletePending = false)
    (implicit : epSockExplicitRearmEnabled c.port c.sock = false) :
    Moves Plain c (rearmApply c) := by
  have ht : Toggles c.addr c.flags ((c.flags.fire c.addr false).needs c.addr true) :=
    .needs true (.fire false .refl)
  refine (Moves.single live (.rearm ht rfl alive implicit)).quiet ((rearmApply_core c).trans ?_)
  rfl

theorem rearmApply_altered (c : Cell) : Altered c (rearmApply c) := by
  refine Altered.drift ?_ (.of_core (rearmApply_core c))
  refine ⟨rfl, rfl, ?_, rfl, fun _ hs => hs, rfl, .inr ⟨rfl, rfl⟩⟩
  exact .needs _ (.fire false .refl)

theorem Drift.sameUser {b a : Cell} (h : Drift a d) (hb : SameUser b a) : SameUser b d := by
  have h1 : d.sock.userEvents = a.sock.userEvents := by
    have := congrArg EpSock.userEvents h.sock
    exact this
  have h2 : d.sock.userFlags = a.sock.userFlags := by
    have := congrArg EpSock.userFlags h.sock
    exact this
  have h3 : d.sock.userData = a.sock.userData := by
    have := congrArg EpSock.userData h.sock
    exact this
  have h4 : d.sock.userCtx = a.sock.userCtx := by
    have := congrArg EpSock.userCtx h.sock
    exact this
  exact ⟨h1.trans hb.1, h2.trans hb.2.1, h3.trans hb.2.2.1, h4.trans hb.2.2.2⟩

/-- What the rollback of a rearm relies on. -/
theorem rearmApply_kept (hd : Drift (rearmApply c) d) : SameUser c d ∧
    d.sock.explicitDisarmedClasses = c.sock.explicitDisarmedClasses := by
  have hcore := rearmApply_core c
  have huser : SameUser c (rearmApply c) :=
    ⟨core_congr hcore fun x => x.sock.userEvents, core_congr hcore fun x => x.sock.userFlags,
      core_congr hcore fun x => x.sock.userData, core_congr hcore fun x => x.sock.userCtx⟩
  have hx : d.sock.explicitDisarmedClasses = (rearmApply c).sock.explicitDisarmedClasses := by
    have := congrArg EpSock.explicitDisarmedClasses hd.sock
    exact this
  exact ⟨hd.sameUser huser, hx.trans (core_congr hcore fun x => x.sock.explicitDisarmedClasses)⟩

theorem rearmLocked_moves_implicit (h : Lifecycle c) (live : c.freed = false)
    (alive : c.sock.deletePending = false) (fired : c.sock.oneshotFired = true)
    (implicit : epSockExplicitRearmEnabled c.port c.sock = false) (answers : ControlAnswers) :
    Moves Plain c (rearmLocked answers c).2 := by
  have hm := rearmApply_moves live alive implicit
  have ha := rearmApply_altered c
  have hlive : (rearmApply c).freed = false := ha.freed.trans live
  have hidle : (rearmApply c).sock.pollStatus = .idle :=
    (core_congr (rearmApply_core c) fun x => x.sock.pollStatus).trans (h.fired_idle fired)
  unfold rearmLocked
  rw [if_neg (by simp [implicit]), if_neg (by simp [fired])]
  dsimp only
  split
  · have hs := submit_spec (h.moves hm hlive) hlive hidle answers.submit true false
    generalize epSockSubmitLocked answers.submit true false (rearmApply c) = r at hs ⊢
    obtain ⟨result, immediate, d⟩ := r
    cases result with
    | retired e => exact hm.trans hs.moves
    | ok => exact (hm.trans hs.moves).trans (countChange_moves d)
    | failed e =>
      exact (rearmRollback_restores c).moves h live alive ha (fun m hd => rearmApply_kept hd)
        (hs.failed e rfl)
  · exact hm.trans (countChange_moves _)

/-! ## Class rearm -/

/-- The flag that a class rearm leaves on the rearm list. -/
def acknowledgedNeeds (c : Cell) (covers : Bool) (newAfdEvents : AfdEvents) : Bool :=
  if covers then c.sock.needsRearm else newAfdEvents ≠ 0 || c.sock.localShutdown ≠ .none

theorem rearmClassesApply_core (classes newDisarmed : Classes) (covers : Bool)
    (newAfdEvents : AfdEvents) (c : Cell) :
    (rearmClassesApply classes newDisarmed false covers newAfdEvents c).core = Cell.core { c with
      sock := { c.sock with
        explicitDisarmedClasses := newDisarmed
        observedEvents := epReadinessFilterClasses c.sock.observedEvents classes
        needsRearm := acknowledgedNeeds c covers newAfdEvents }
      port := { c.port.record (.classesRearmed c.sock.serial classes) with
        rearmList := (c.flags.needs c.addr (acknowledgedNeeds c covers newAfdEvents)).rearmList
        needsRearmCount :=
          (c.flags.needs c.addr (acknowledgedNeeds c covers newAfdEvents)).rearmCount } } := by
  cases covers with
  | true => simp [rearmClassesApply, acknowledgedNeeds]
  | false => simp [rearmClassesApply, acknowledgedNeeds, setNeedsRearm_eq]

theorem rearmClassesApply_core_oneshot (classes newDisarmed : Classes) (covers : Bool)
    (newAfdEvents : AfdEvents) (c : Cell) :
    (rearmClassesApply classes newDisarmed true covers newAfdEvents c).core = Cell.core { c with
      sock := { c.sock with
        explicitDisarmedClasses := newDisarmed
        pendingEvents := 0
        observedEvents := 0
        generation := nextGeneration c.port.nextSockGeneration
        oneshotFired := false
        needsRearm := acknowledgedNeeds c covers newAfdEvents }
      port := { c.port.bumpGeneration.record (.classesRearmed c.sock.serial classes) with
        oneshotList := (c.flags.fire c.addr false).oneshotList
        oneshotFiredCount := (c.flags.fire c.addr false).oneshotCount
        rearmList := (c.flags.needs c.addr (acknowledgedNeeds c covers newAfdEvents)).rearmList
        needsRearmCount :=
          (c.flags.needs c.addr (acknowledgedNeeds c covers newAfdEvents)).rearmCount } } := by
  cases covers with
  | true =>
    simp [rearmClassesApply, acknowledgedNeeds, setOneshotFired_eq]
  | false => simp [rearmClassesApply, acknowledgedNeeds, setNeedsRearm_eq, setOneshotFired_eq]

/-- What a class rearm has done to the registration before it submits. -/
structure Acknowledged (c a : Cell) : Prop where
  moves : Moves Plain c a
  altered : Altered c a
  user : SameUser c a
  owned : a.sock.waitableNotificationOwned = c.sock.waitableNotificationOwned
  ready : a.sock.readyQueued = c.sock.readyQueued
  status : a.sock.pollStatus = c.sock.pollStatus

theorem rearmClassesApply_spec (live : c.freed = false) (alive : c.sock.deletePending = false)
    (unqueued : c.sock.readyQueued = false) (unfired : c.sock.oneshotFired = false)
    (classes : Classes) (covers : Bool) (newAfdEvents : AfdEvents) :
    Acknowledged c (rearmClassesApply classes (c.sock.explicitDisarmedClasses &&& ~~~classes)
      false covers newAfdEvents c) := by
  have hcore := rearmClassesApply_core classes (c.sock.explicitDisarmedClasses &&& ~~~classes)
    covers newAfdEvents c
  have ht : Toggles c.addr c.flags
      (c.flags.needs c.addr (acknowledgedNeeds c covers newAfdEvents)) := .needs _ .refl
  have h1 := Moves.single live (@Move.acknowledge c classes _ _ ht
    (.inr ⟨unfired, fun hf => absurd (unfired.symm.trans hf) (by simp)⟩) alive unqueued (.refl _))
  refine ⟨h1.quiet (hcore.trans ?_), Altered.drift ?_ (.of_core hcore), ⟨?_, ?_, ?_, ?_⟩, ?_, ?_, ?_⟩
  · rfl
  · exact ⟨rfl, rfl, ht, rfl, fun _ hs => hs, rfl, .inl ⟨rfl, rfl⟩⟩
  · exact core_congr hcore fun x => x.sock.userEvents
  · exact core_congr hcore fun x => x.sock.userFlags
  · exact core_congr hcore fun x => x.sock.userData
  · exact core_congr hcore fun x => x.sock.userCtx
  · exact core_congr hcore fun x => x.sock.waitableNotificationOwned
  · exact core_congr hcore fun x => x.sock.readyQueued
  · exact core_congr hcore fun x => x.sock.pollStatus

theorem rearmClassesApply_spec_oneshot (live : c.freed = false)
    (alive : c.sock.deletePending = false) (unqueued : c.sock.readyQueued = false)
    (classes : Classes) (last : c.sock.explicitDisarmedClasses &&& ~~~classes = 0) (covers : Bool)
    (newAfdEvents : AfdEvents) :
    Acknowledged c (rearmClassesApply classes (c.sock.explicitDisarmedClasses &&& ~~~classes)
      true covers newAfdEvents c) := by
  have hcore := rearmClassesApply_core_oneshot classes
    (c.sock.explicitDisarmedClasses &&& ~~~classes) covers newAfdEvents c
  have ht : Toggles c.addr c.flags
      ((c.flags.fire c.addr false).needs c.addr (acknowledgedNeeds c covers newAfdEvents)) :=
    .needs _ (.fire false .refl)
  have h2 := Moves.single live (@Move.acknowledge c classes 0 _ ht (.inr ⟨rfl, fun _ => last⟩)
    alive unqueued (.zero _))
  have h3 := h2.plain live (.pend (e := 0) (by exact unqueued))
  have h4 := h3.plain live (.renew (.inl (by exact unqueued)))
  refine ⟨h4.quiet (hcore.trans ?_), Altered.drift ?_ (.of_core hcore), ⟨?_, ?_, ?_, ?_⟩, ?_, ?_, ?_⟩
  · rfl
  · exact ⟨rfl, rfl, ht, rfl, fun _ hs => hs, rfl, .inr ⟨rfl, rfl⟩⟩
  · exact core_congr hcore fun x => x.sock.userEvents
  · exact core_congr hcore fun x => x.sock.userFlags
  · exact core_congr hcore fun x => x.sock.userData
  · exact core_congr hcore fun x => x.sock.userCtx
  · exact core_congr hcore fun x => x.sock.waitableNotificationOwned
  · exact core_congr hcore fun x => x.sock.readyQueued
  · exact core_congr hcore fun x => x.sock.pollStatus

theorem rearmClassesApply_acknowledged (live : c.freed = false)
    (alive : c.sock.deletePending = false) (unqueued : c.sock.readyQueued = false)
    (classes : Classes) (rearmOneshot covers : Bool)
    (fired : rearmOneshot = false → c.sock.oneshotFired = false)
    (last : rearmOneshot = true → c.sock.explicitDisarmedClasses &&& ~~~classes = 0)
    (newAfdEvents : AfdEvents) : Acknowledged c (rearmClassesApply classes (c.sock.explicitDisarmedClasses &&& ~~~classes)
      rearmOneshot covers newAfdEvents c) := by
  cases rearmOneshot with
  | true =>
    exact rearmClassesApply_spec_oneshot live alive unqueued classes (last rfl) covers newAfdEvents
  | false => exact rearmClassesApply_spec live alive unqueued (fired rfl) classes covers newAfdEvents

theorem Altered.of_core {b a : Cell} (h : Altered d a) (hcore : d.core = b.core) : Altered b a := by
  have hs := core_congr hcore fun x => x.sock
  have hp := core_congr hcore fun x => x.port
  have hflags : d.flags = b.flags := core_congr hcore Cell.flags
  have haddr : d.addr = b.addr := core_congr hcore Cell.addr
  have haux : d.sock.isAux = b.sock.isAux := core_congr hcore fun x => x.sock.isAux
  have hst : d.sock.ioStatus = b.sock.ioStatus := core_congr hcore fun x => x.sock.ioStatus
  have hgen : d.port.nextSockGeneration = b.port.nextSockGeneration :=
    core_congr hcore fun x => x.port.nextSockGeneration
  have hwrap : d.port.generationWrapped = b.port.generationWrapped :=
    core_congr hcore fun x => x.port.generationWrapped
  refine ⟨h.addr.trans haddr, h.freed.trans (core_congr hcore Cell.freed), ?_, ?_, ?_, ?_, ?_⟩
  · rw [← hflags, ← haddr]
    exact h.toggles
  · exact h.sock.trans (by rw [show d.sock.core = b.sock.core from hs])
  · rw [← haux, ← hst]
    exact h.status
  · exact h.port.trans (by rw [show d.port.core = b.port.core from hp])
  · have := h.generation
    simp only [Port.bumpGeneration, hgen, hwrap] at this ⊢
    exact this

theorem Acknowledged.of_core {b a : Cell} (h : Acknowledged d a) (hcore : d.core = b.core) :
    Acknowledged b a where
  moves := (Moves.of_core hcore).trans h.moves
  altered := h.altered.of_core hcore
  user := ⟨h.user.1.trans (core_congr hcore fun x => x.sock.userEvents),
    h.user.2.1.trans (core_congr hcore fun x => x.sock.userFlags),
    h.user.2.2.1.trans (core_congr hcore fun x => x.sock.userData),
    h.user.2.2.2.trans (core_congr hcore fun x => x.sock.userCtx)⟩
  owned := h.owned.trans (core_congr hcore fun x => x.sock.waitableNotificationOwned)
  ready := h.ready.trans (core_congr hcore fun x => x.sock.readyQueued)
  status := h.status.trans (core_congr hcore fun x => x.sock.pollStatus)

/-- What the rollback of a class rearm relies on. -/
theorem Acknowledged.kept {a m : Cell} (h : Acknowledged c a) (hd : Drift a m) :
    SameUser c m ∧ m.sock.waitableNotificationOwned = c.sock.waitableNotificationOwned ∧
      m.sock.readyQueued = c.sock.readyQueued := by
  have howned : m.sock.waitableNotificationOwned = a.sock.waitableNotificationOwned := by
    have := congrArg EpSock.waitableNotificationOwned hd.sock
    exact this
  have hready : m.sock.readyQueued = a.sock.readyQueued := by
    have := congrArg EpSock.readyQueued hd.sock
    exact this
  exact ⟨hd.sameUser h.user, howned.trans h.owned, hready.trans h.ready⟩

/-- The submission behind an acknowledgement, rolled back to `c` when it fails. -/
theorem rearmClassesSubmit_moves {a : Cell} (h : Lifecycle c) (live : c.freed = false)
    (alive : c.sock.deletePending = false) (socket : c.sock.kind = .socket)
    (ha : Acknowledged c a) (answers : ControlAnswers) (newAfdEvents : AfdEvents) :
    Moves Plain c (rearmClassesSubmit answers newAfdEvents c a).2 := by
  unfold rearmClassesSubmit
  split
  case isFalse => exact ha.moves.trans (countChange_moves a)
  rename_i hgo
  simp only [Bool.and_eq_true, decide_eq_true_eq] at hgo
  have idle := hgo.1.1
  have hlive : a.freed = false := ha.altered.freed.trans live
  have hs := submit_spec (h.moves ha.moves hlive) hlive idle answers.submit true false
  generalize epSockSubmitLocked answers.submit true false a = r at hs ⊢
  obtain ⟨result, immediate, d⟩ := r
  cases result with
  | retired e => exact ha.moves.trans hs.moves
  | ok => exact (ha.moves.trans hs.moves).trans (countChange_moves d)
  | failed e =>
    exact (rearmClassesRollback_restores c (by simp [epWaitableMayConsume, socket])).moves h live
      alive ha.altered (fun m hd => ha.kept hd) (hs.failed e rfl)

/-- A cancelled AFD poll stays busy until its packet arrives. -/
theorem cancelAfd_busy (socket : c.sock.kind = .socket) (pending : c.sock.pollStatus = .pending)
    (answers : CancelAnswers) : (epSockCancelLocked answers c).2.sock.pollStatus ≠ .idle := by
  unfold epSockCancelLocked
  simp only [pending, isAux_false_iff.mpr socket, ne_eq, not_true_eq_false, if_false,
    Bool.false_eq_true]
  rcases afdCancel_cases answers.afd c with hc | ⟨e, hc⟩ | hc
  · rw [hc]
    simp [pending]
  · rw [hc]
    simp [pending]
  · rw [hc]
    simp

theorem rearmClassesPendingPoll_spec (h : Lifecycle c) (live : c.freed = false)
    (socket : c.sock.kind = .socket) (answers : ControlAnswers) (rearmOneshot : Bool)
    (newAfdEvents : AfdEvents) :
    Cancelled c (rearmClassesPendingPoll answers rearmOneshot newAfdEvents c).2 ∧
      ((rearmClassesPendingPoll answers rearmOneshot newAfdEvents c).2.sock.pollStatus = .idle →
        (rearmClassesPendingPoll answers rearmOneshot newAfdEvents c).2 = c) := by
  have hcan : Cancelled c (cancelCovering answers.cancel c).2 := by
    rw [cancelCovering_snd]
    exact cancel_cancelled h live answers.cancel
  unfold rearmClassesPendingPoll
  split
  · exact ⟨.refl, fun _ => rfl⟩
  rename_i hpend
  have hbusy : (cancelCovering answers.cancel c).2.sock.pollStatus ≠ .idle := by
    rw [cancelCovering_snd]
    exact cancelAfd_busy socket (by simpa using hpend) answers.cancel
  have hc : Cancelled c (cancelCovering answers.cancel c).2 ∧
      ((cancelCovering answers.cancel c).2.sock.pollStatus = .idle →
        (cancelCovering answers.cancel c).2 = c) :=
    ⟨hcan, fun hi => absurd hi hbusy⟩
  dsimp only
  split
  · exact hc
  split
  · exact hc
  split
  · exact ⟨.refl, fun _ => rfl⟩
  · exact hc

theorem Cancelled.disarmed (h : Cancelled c d) :
    d.sock.explicitDisarmedClasses = c.sock.explicitDisarmedClasses := by
  have := congrArg EpSock.explicitDisarmedClasses h.sock
  exact this

/-- A class rearm behind its checks, on a registration `b` that differs from `c` in caches. -/
theorem rearmClassesCommit_moves {b : Cell} (h : Lifecycle c) (live : c.freed = false)
    (alive : c.sock.deletePending = false) (socket : c.sock.kind = .socket)
    (unqueued : c.sock.readyQueued = false) (hb : b.core = c.core) (answers : ControlAnswers)
    (classes : Classes) (rearmOneshot : Bool)
    (fired : rearmOneshot = false → c.sock.oneshotFired = false)
    (last : rearmOneshot = true → c.sock.explicitDisarmedClasses &&& ~~~classes = 0)
    (newAfdEvents : AfdEvents) :
    Moves Plain c (rearmClassesCommit answers classes
      (c.sock.explicitDisarmedClasses &&& ~~~classes) rearmOneshot newAfdEvents c b).2 := by
  unfold rearmClassesCommit
  have hlb := h.of_core hb
  have hliveb : b.freed = false := (core_congr hb Cell.freed).trans live
  have hsockb : b.sock.kind = .socket := (core_congr hb fun x => x.sock.kind).trans socket
  obtain ⟨hcan, hsame⟩ := rearmClassesPendingPoll_spec hlb hliveb hsockb answers rearmOneshot
    newAfdEvents
  generalize rearmClassesPendingPoll answers rearmOneshot newAfdEvents b = r at hcan hsame ⊢
  obtain ⟨result, d⟩ := r
  have hmd : Moves Plain c d := (Moves.of_core hb).trans hcan.moves
  cases result with
  | error e =>
    refine hmd.quiet ?_
    rfl
  | ok covers =>
    have hlive : d.freed = false := hcan.freed.trans hliveb
    have halive : d.sock.deletePending = false :=
      hcan.dead.trans ((core_congr hb fun x => x.sock.deletePending).trans alive)
    have hunq : d.sock.readyQueued = false :=
      hcan.ready.trans ((core_congr hb fun x => x.sock.readyQueued).trans unqueued)
    have hdis : c.sock.explicitDisarmedClasses = d.sock.explicitDisarmedClasses :=
      (hcan.disarmed.trans (core_congr hb fun x => x.sock.explicitDisarmedClasses)).symm
    have hack : Acknowledged d (rearmClassesApply classes
        (c.sock.explicitDisarmedClasses &&& ~~~classes) rearmOneshot covers newAfdEvents d) := by
      rw [hdis]
      refine rearmClassesApply_acknowledged hlive halive hunq classes rearmOneshot covers
        (fun hno => ?_) (hdis ▸ last) newAfdEvents
      exact hcan.fired.trans ((core_congr hb fun x => x.sock.oneshotFired).trans (fired hno))
    dsimp only
    generalize rearmClassesApply classes (c.sock.explicitDisarmedClasses &&& ~~~classes)
      rearmOneshot covers newAfdEvents d = a at hack ⊢
    by_cases hidle : d.sock.pollStatus = .idle
    · have hdb : d = b := hsame hidle
      exact rearmClassesSubmit_moves h live alive socket (hack.of_core (by rw [hdb]; exact hb))
        answers newAfdEvents
    · unfold rearmClassesSubmit
      rw [if_neg (by simp [hack.status, hidle])]
      exact (hmd.trans hack.moves).trans (countChange_moves a)

theorem rearmClasses_moves (h : Lifecycle c) (live : c.freed = false)
    (alive : c.sock.deletePending = false) (socket : c.sock.kind = .socket)
    (answers : ControlAnswers) (classes : Classes) :
    Moves Plain c (epSockRearmClassesLocked answers classes c).2 := by
  unfold epSockRearmClassesLocked
  dsimp only
  split
  · exact .refl
  rename_i hq
  have unqueued : c.sock.readyQueued = false := by simpa using hq
  split
  · exact .refl
  -- unparking only changes a cache
  have hunpark : ∀ (p : Prop) [Decidable p] (x : Cell), x.core = c.core →
      (if p then x.mapSock fun s => { s with udpReadlessReceiveParked := false } else x).core =
        c.core := by
    intro p _ x hx
    split
    · exact hx
    · exact hx
  have h1 := hunpark (classes &&& (EP_READINESS_CLASS_READ ||| EP_READINESS_CLASS_TERMINAL) ≠ 0) c rfl
  generalize (if classes &&& (EP_READINESS_CLASS_READ ||| EP_READINESS_CLASS_TERMINAL) ≠ 0 then
    c.mapSock fun s => { s with udpReadlessReceiveParked := false } else c) = x at h1 ⊢
  split
  · have hm : Moves Plain c x := .of_core h1
    have hlive : x.freed = false := (core_congr h1 Cell.freed).trans live
    have h2 := hm.plain hlive (@Move.acknowledge x classes _ _ .refl (.inl rfl)
      ((core_congr h1 fun y => y.sock.deletePending).trans alive)
      ((core_congr h1 fun y => y.sock.readyQueued).trans unqueued) (.refl _))
    have hserial : x.sock.serial = c.sock.serial := core_congr h1 fun y => y.sock.serial
    have hdis : x.sock.explicitDisarmedClasses = c.sock.explicitDisarmedClasses :=
      core_congr h1 fun y => y.sock.explicitDisarmedClasses
    refine h2.quiet ?_
    rw [← hserial, ← hdis]
    rfl
  · rename_i hpart
    exact rearmClassesCommit_moves h live alive socket unqueued (hunpark _ x h1) answers classes _
      (fun hno => by
        cases hf : c.sock.oneshotFired with
        | false => rfl
        | true => simp [hf] at hno hpart; exact absurd hpart hno)
      (fun hyes => by simp only [Bool.and_eq_true, decide_eq_true_eq] at hyes; exact hyes.2) _

theorem rearmClassesLocked_moves (h : Lifecycle c) (live : c.freed = false)
    (alive : c.sock.deletePending = false) (answers : ControlAnswers) (classes : Classes) :
    Moves Plain c (rearmClassesLocked answers classes c).2 := by
  unfold rearmClassesLocked
  split
  · exact .refl
  · rename_i hex
    have socket : c.sock.kind = .socket := by
      simp [epSockExplicitRearmEnabled] at hex
      exact hex.1.2
    exact rearmClasses_moves h live alive socket answers classes

theorem rearmLocked_moves (h : Lifecycle c) (live : c.freed = false)
    (alive : c.sock.deletePending = false) (answers : ControlAnswers) :
    Moves Plain c (rearmLocked answers c).2 := by
  cases hex : epSockExplicitRearmEnabled c.port c.sock with
  | true =>
    have socket : c.sock.kind = .socket := by
      simp [epSockExplicitRearmEnabled] at hex
      exact hex.1.2
    unfold rearmLocked
    rw [if_pos hex]
    exact rearmClasses_moves h live alive socket answers _
  | false =>
    cases hf : c.sock.oneshotFired with
    | true => exact rearmLocked_moves_implicit h live alive hf hex answers
    | false =>
      unfold rearmLocked
      rw [if_neg (by simp [hex]), if_pos (by simp [hf])]
      exact .refl

end

end WepollEx
