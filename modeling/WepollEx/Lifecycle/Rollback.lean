import WepollEx.Lifecycle.Completion

/-!
# Rolling a control operation back

A MOD, rearm or class rearm writes the new registration first and submits it afterwards.  When the
submission fails the old registration is written back.  What is left of the attempt is a
generation, the order of the worklists, an AFD status and, if a post failed, a closed port.
-/

namespace WepollEx

open Mask

-- the wrappers around a cell, unfolded wherever two cells are compared
attribute [local simp] Cell.core EpSock.core Port.core Cell.mapSock Cell.mapPort Cell.setFlags
  Cell.flags Flags.needs Flags.fire Cell.bumpGeneration Port.bumpGeneration

section

variable {b m d f : Cell}

/-- What a control operation may write before it submits. -/
structure Altered (b m : Cell) : Prop where
  addr : m.addr = b.addr
  freed : m.freed = b.freed
  toggles : Toggles b.addr b.flags m.flags
  sock : m.sock.core = { b.sock.core with
    userEvents := m.sock.userEvents
    userFlags := m.sock.userFlags
    userData := m.sock.userData
    userCtx := m.sock.userCtx
    pendingEvents := m.sock.pendingEvents
    observedEvents := m.sock.observedEvents
    explicitDisarmedClasses := m.sock.explicitDisarmedClasses
    waitableNotificationOwned := m.sock.waitableNotificationOwned
    readyQueued := m.sock.readyQueued
    generation := m.sock.generation
    oneshotFired := m.sock.oneshotFired
    needsRearm := m.sock.needsRearm
    ioStatus := m.sock.ioStatus }
  status : b.sock.isAux = true → b.sock.ioStatus = STATUS_SUCCESS →
    m.sock.ioStatus = STATUS_SUCCESS
  port : m.port.core = { b.port.core with
    rearmList := m.port.rearmList
    oneshotList := m.port.oneshotList
    needsRearmCount := m.port.needsRearmCount
    oneshotFiredCount := m.port.oneshotFiredCount
    history := m.port.history
    nextSockGeneration := m.port.nextSockGeneration
    generationWrapped := m.port.generationWrapped }
  generation : (m.port.nextSockGeneration = b.port.nextSockGeneration ∧
      m.port.generationWrapped = b.port.generationWrapped) ∨
    (m.port.nextSockGeneration = b.port.bumpGeneration.nextSockGeneration ∧
      m.port.generationWrapped = b.port.bumpGeneration.generationWrapped)

theorem Altered.isAux (h : Altered b m) : m.sock.isAux = b.sock.isAux := by
  have := congrArg EpSock.isAux h.sock
  exact this

/-- A failing submission only adds small changes. -/
theorem Altered.drift (h : Altered b m) (hd : Drift m d) : Altered b d where
  addr := hd.addr.trans h.addr
  freed := hd.freed.trans h.freed
  toggles := h.toggles.trans (h.addr ▸ hd.toggles)
  sock := by
    have h1 := h.sock
    have h2 := hd.sock
    simp only [EpSock.core, EpSock.mk.injEq] at h1 h2 ⊢
    simp_all
  status := fun ha hs => hd.status (h.isAux.trans ha) (h.status ha hs)
  port := by
    have h1 := h.port
    have h2 := hd.port
    simp only [Port.core, Port.mk.injEq] at h1 h2 ⊢
    simp_all
  generation := by
    have h1 : d.port.nextSockGeneration = m.port.nextSockGeneration := by
      have := congrArg Port.nextSockGeneration hd.port
      exact this
    have h2 : d.port.generationWrapped = m.port.generationWrapped := by
      have := congrArg Port.generationWrapped hd.port
      exact this
    rw [h1, h2]
    exact h.generation

/-! ## What a rollback leaves -/

/-- The flags after `ep_sock_restore_worklist_state_locked`. -/
def restoredFlags (g old : Flags) (a : Addr) : Flags :=
  (((g.needs a false).fire a false).needs a old.rearm).fire a old.fired

theorem restoreWorklist_eq (c : Cell) (r o : Bool) :
    epSockRestoreWorklistStateLocked c r o = c.setFlags
      ((((c.flags.needs c.addr false).fire c.addr false).needs c.addr r).fire c.addr o) := by
  unfold epSockRestoreWorklistStateLocked
  simp only [setNeedsRearm_eq, setOneshotFired_eq, Cell.setFlags_setFlags, Cell.flags_setFlags,
    Cell.addr_setFlags]

/-- `b` with what an attempt that ended in `m` leaves behind. -/
def undone (b m : Cell) : Cell :=
  { b with
    sock := { b.sock with ioStatus := m.sock.ioStatus }
    port := { b.port with
      rearmList := (restoredFlags m.flags b.flags b.addr).rearmList
      oneshotList := (restoredFlags m.flags b.flags b.addr).oneshotList
      needsRearmCount := (restoredFlags m.flags b.flags b.addr).rearmCount
      oneshotFiredCount := (restoredFlags m.flags b.flags b.addr).oneshotCount
      nextSockGeneration := m.port.nextSockGeneration
      generationWrapped := m.port.generationWrapped } }

theorem undone_moves (h : Lifecycle b) (live : b.freed = false) (alive : b.sock.deletePending = false)
    (ha : Altered b m) : Moves Plain b (undone b m) := by
  -- the generation that was handed out
  have h1 : Moves Plain b (b.mapPort fun p => { p with
      nextSockGeneration := m.port.nextSockGeneration
      generationWrapped := m.port.generationWrapped }) := by
    rcases ha.generation with ⟨hg, hw⟩ | ⟨hg, hw⟩
    · rw [hg, hw]
      exact .refl
    · rw [hg, hw]
      exact Moves.single live .skipGeneration
  have ht : Toggles b.addr b.flags (restoredFlags m.flags b.flags b.addr) :=
    ((((ha.toggles.needs false).fire false).needs _).fire _)
  have h2 := h1.plain live (.relist (f := restoredFlags m.flags b.flags b.addr) (by exact ht)
    (by exact fun hd => by simp [alive] at hd) (by exact .inl rfl) (by exact fun hr _ => hr))
  have h3 := h2.plain live (.status (v := m.sock.ioStatus)
    (by exact fun hx => ha.status hx (h.aux_status hx)))
  exact h3

/-- `undone` on a port that a failed post has closed. -/
def undoneClosed (b m : Cell) (packets : List Packet) (consumed : Nat → Nat) : Cell :=
  (undone b m).mapPort fun p => { p with
    closing := true
    iocpPostHandle := false
    iocpClosed := true
    iocp := packets
    iocpPostFailures := p.iocpPostFailures + 1
    consumedCount := consumed }

theorem undoneClosed_moves (h : Lifecycle b) (live : b.freed = false)
    (alive : b.sock.deletePending = false) (ha : Altered b m) {packets : List Packet}
    {consumed : Nat → Nat} (hp : packets = b.port.iocp ∨ packets = [])
    (hc : consumed = b.port.consumedCount ∨
      consumed = bumpAt b.port.consumedCount b.sock.serial) :
    Moves Plain b (undoneClosed b m packets consumed) := by
  have h1 := (undone_moves h live alive ha).plain live (.fault (l := packets) (by exact hp))
  rcases hc with rfl | rfl
  · exact h1
  · exact h1.plain live (.lose (by exact Nat.succ_ne_zero _))

/-! ## The three rollbacks -/

/-- A cell after a post has failed. -/
def faultedCell (m : Cell) (packets : List Packet) (consumed : Nat → Nat) (owned : Bool) : Cell :=
  { m with
    sock := { m.sock with waitableNotificationOwned := owned }
    port := { m.port with
      closing := true
      iocpPostHandle := false
      iocpClosed := true
      iocp := packets
      iocpPostFailures := m.port.iocpPostFailures + 1
      consumedCount := consumed } }

/-- A rollback that restores whatever a failing submission has left, if the attempt had kept the
fields that `K` names. -/
structure Restores (b : Cell) (K : Cell → Prop) (rollback : Cell → Cell) : Prop where
  drift : ∀ {d}, Altered b d → K d → (rollback d).core = (undone b d).core
  fault : ∀ {m d} {packets : List Packet} {consumed : Nat → Nat} {owned : Bool}, Altered b m →
    K m → (epWaitableMayConsume b.sock = false → owned = m.sock.waitableNotificationOwned) →
    d.core = (faultedCell m packets consumed owned).core →
    (rollback d).core = (undoneClosed b m packets consumed).core

theorem Restores.moves {a : Cell} {K : Cell → Prop} {rollback : Cell → Cell}
    (hr : Restores b K rollback) (h : Lifecycle b) (live : b.freed = false)
    (alive : b.sock.deletePending = false) (ha : Altered b a) (hK : ∀ m, Drift a m → K m)
    (hf : Failed a d) : Moves Plain b (rollback d) := by
  rcases hf with hd | ⟨m, hm, packets, consumed, owned, hp, hc, hd⟩
  · have had := ha.drift hd
    exact (undone_moves h live alive had).quiet (hr.drift had (hK d hd))
  · have ham := ha.drift hm
    have hiocp : m.port.iocp = b.port.iocp := by
      have := congrArg Port.iocp ham.port
      exact this
    have hcount : m.port.consumedCount = b.port.consumedCount := by
      have := congrArg Port.consumedCount ham.port
      exact this
    have hserial : m.sock.serial = b.sock.serial := by
      have := congrArg EpSock.serial ham.sock
      exact this
    have hmay : epWaitableMayConsume m.sock = epWaitableMayConsume b.sock := by
      have := congrArg epWaitableMayConsume ham.sock
      exact this
    rw [hiocp] at hp
    rw [hcount, hserial, hmay] at hc
    have hc' : consumed = b.port.consumedCount ∨
        consumed = bumpAt b.port.consumedCount b.sock.serial := hc.imp And.left And.right
    refine (undoneClosed_moves h live alive ham hp hc').quiet (hr.fault ham (hK m hm)
      (fun hno => ?_) hd)
    rcases hc with ⟨-, ho⟩ | ⟨hyes, -⟩
    · exact ho
    · simp [hno] at hyes

theorem modifyRollback_restores (b : Cell) : Restores b (fun _ => True) (modifyRollback b) where
  drift := by
    intro d ha _
    have hs := ha.sock
    have hp := ha.port
    simp only [EpSock.core, EpSock.mk.injEq] at hs
    simp only [Port.core, Port.mk.injEq] at hp
    unfold modifyRollback undone restoredFlags Cell.unrecord
    simp only [restoreWorklist_eq]
    simp [ha.addr, ha.freed]
    simp_all
  fault := by
    intro m d packets consumed owned ha _ _ hd
    have hs := ha.sock
    have hp := ha.port
    have haddr := ha.addr
    have hfreed := ha.freed
    simp only [EpSock.core, EpSock.mk.injEq] at hs
    simp only [Port.core, Port.mk.injEq] at hp
    simp only [faultedCell, Cell.core, EpSock.core, Port.core, Cell.mk.injEq, EpSock.mk.injEq,
      Port.mk.injEq] at hd
    unfold modifyRollback undoneClosed undone restoredFlags Cell.unrecord
    simp only [restoreWorklist_eq]
    simp
    simp_all

/-- The fields of a registration that only a MOD writes. -/
def SameUser (b d : Cell) : Prop :=
  d.sock.userEvents = b.sock.userEvents ∧ d.sock.userFlags = b.sock.userFlags ∧
    d.sock.userData = b.sock.userData ∧ d.sock.userCtx = b.sock.userCtx

theorem rearmRollback_restores (b : Cell) : Restores b (fun d => SameUser b d ∧
    d.sock.explicitDisarmedClasses = b.sock.explicitDisarmedClasses) (rearmRollback b) where
  drift := by
    intro d ha hk
    have hs := ha.sock
    have hp := ha.port
    simp only [EpSock.core, EpSock.mk.injEq] at hs
    simp only [Port.core, Port.mk.injEq] at hp
    unfold SameUser at hk
    unfold rearmRollback undone restoredFlags Cell.unrecord
    simp only [restoreWorklist_eq]
    simp [ha.addr, ha.freed]
    simp_all
  fault := by
    intro m d packets consumed owned ha hk _ hd
    have hs := ha.sock
    have hp := ha.port
    have haddr := ha.addr
    have hfreed := ha.freed
    simp only [EpSock.core, EpSock.mk.injEq] at hs
    simp only [Port.core, Port.mk.injEq] at hp
    simp only [faultedCell, Cell.core, EpSock.core, Port.core, Cell.mk.injEq, EpSock.mk.injEq,
      Port.mk.injEq] at hd
    unfold SameUser at hk
    unfold rearmRollback undoneClosed undone restoredFlags Cell.unrecord
    simp only [restoreWorklist_eq]
    simp
    simp_all

theorem rearmClassesRollback_restores (b : Cell) (socket : epWaitableMayConsume b.sock = false) :
    Restores b (fun d => SameUser b d ∧
      d.sock.waitableNotificationOwned = b.sock.waitableNotificationOwned ∧
      d.sock.readyQueued = b.sock.readyQueued) (rearmClassesRollback b) where
  drift := by
    intro d ha hk
    have hs := ha.sock
    have hp := ha.port
    simp only [EpSock.core, EpSock.mk.injEq] at hs
    simp only [Port.core, Port.mk.injEq] at hp
    unfold SameUser at hk
    unfold rearmClassesRollback undone restoredFlags Cell.unrecord
    simp only [restoreWorklist_eq]
    simp [ha.addr, ha.freed]
    simp_all
  fault := by
    intro m d packets consumed owned ha hk ho hd
    have hs := ha.sock
    have hp := ha.port
    have haddr := ha.addr
    have hfreed := ha.freed
    have howned := ho socket
    simp only [EpSock.core, EpSock.mk.injEq] at hs
    simp only [Port.core, Port.mk.injEq] at hp
    simp only [faultedCell, Cell.core, EpSock.core, Port.core, Cell.mk.injEq, EpSock.mk.injEq,
      Port.mk.injEq] at hd
    unfold SameUser at hk
    unfold rearmClassesRollback undoneClosed undone restoredFlags Cell.unrecord
    simp only [restoreWorklist_eq]
    simp
    simp_all

end

end WepollEx
