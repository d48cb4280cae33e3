import WepollEx.Lifecycle.Invariant

/-!
# Release and cancellation as sequences of moves

Posts and their failures, the worklist flags, the paths that release a registration, and the
cancellation of its pending poll.
-/

namespace WepollEx

open Mask

-- the wrappers around a cell, unfolded wherever two cells are compared
attribute [local simp] Cell.core EpSock.core Port.core Cell.mapSock Cell.mapPort Cell.setFlags
  Cell.flags Flags.needs Flags.fire Cell.bumpGeneration Port.bumpGeneration

section

variable {c d : Cell}

/-! ## Posts and errors -/

theorem postIocp_cases (p : Port) (answer : Option Errno) (packet : Packet) :
    (epPortPostIocp p answer packet = (none, { p with iocp := p.iocp ++ [packet] })) ∨
      ∃ e, epPortPostIocp p answer packet = (some e, p) := by
  unfold epPortPostIocp
  split
  · exact .inr ⟨_, rfl⟩
  · cases answer with
    | none => exact .inl rfl
    | some e => exact .inr ⟨e, rfl⟩

theorem failPost_moves (live : c.freed = false) (e : Errno) :
    Moves Plain c (c.mapPort fun p => epPortFailIocpPost p e) := by
  by_cases hc : c.port.closing = true
  · refine .of_core ?_
    simp [Cell.mapPort, epPortFailIocpPost, hc]
  · have hm : Move .plain c _ := Move.fault (c := c)
      (l := if c.port.iocpClosed then c.port.iocp else []) (by split <;> simp)
    refine (Moves.single live hm).quiet ?_
    simp only [Cell.mapPort, epPortFailIocpPost, hc]

    rfl

theorem recordAsyncError_moves (live : c.freed = false) (post : Option Errno) (e : Errno) :
    Moves Plain c (c.mapPort fun p => epPortRecordAsyncErrorLocked p post e) := by
  unfold epPortRecordAsyncErrorLocked
  by_cases ha : c.port.asyncError = 0
  · by_cases hq : (!c.port.closing && !c.port.waiterActive && !c.port.iocpClosed) = true
    · set p : Port := { c.port with
        asynchronousErrors := c.port.asynchronousErrors + 1, asyncError := orEio e } with hp
      rcases postIocp_cases p post .control with h | ⟨e', h⟩
      · refine (Moves.single live Move.postControl).quiet ?_
        simp only [Cell.mapPort, ha, hq, ← hp, h]
        rfl
      · have h0 : Moves Plain c { c with port := p } := .of_core rfl
        refine (h0.trans (failPost_moves (c := { c with port := p }) live e')).quiet ?_
        simp only [Cell.mapPort, ha, hq, ← hp, h]
        rfl
    · refine .of_core ?_
      simp [ha, hq]
  · refine .of_core ?_
    simp [ha]

/-! ## Flags -/

theorem setNeedsRearm_moves (live : c.freed = false) (b : Bool)
    (ok : b = true → c.sock.deletePending = false ∧ c.sock.oneshotFired = false)
    (dead : c.sock.deletePending = true → c.sock.oneshotFired = false) :
    Moves Plain c (epSockSetNeedsRearmLocked c b) := by
  rw [setNeedsRearm_eq]
  refine Moves.single live (.relist (.needs b .refl) ?_ (.inl rfl) ?_)
  · intro hd
    refine ⟨?_, dead hd⟩
    cases b with
    | false => rfl
    | true => simp [hd] at ok
  · intro hr hf
    have hf' : c.sock.oneshotFired = true := hf
    rw [(ok hr).2] at hf'
    simp at hf'

theorem clearFlags_moves (live : c.freed = false)
    (absent : c.port.fdTable c.sock.fd ≠ some c.addr) :
    Moves Plain c (c.setFlags ((c.flags.needs c.addr false).fire c.addr false)) :=
  Moves.single live (.relist (.fire false (.needs false .refl)) (fun _ => ⟨rfl, rfl⟩)
    (.inr ⟨rfl, absent⟩) (fun _ hf => by simp [Flags.fire] at hf))

/-! ## Release -/

theorem free_moves (live : c.freed = false) (absent : c.port.fdTable c.sock.fd ≠ some c.addr)
    (idle : c.sock.pollStatus = .idle) : Moves Plain c (epSockFreeLocked c) := by
  have h := clearFlags_moves live absent
  have hm := Move.free (c := c.setFlags ((c.flags.needs c.addr false).fire c.addr false))
    absent idle rfl rfl
  unfold epSockFreeLocked
  simp only [setNeedsRearm_eq, setOneshotFired_eq]
  exact h.plain live hm

/-- The table after `ep_fd_table_forget`. -/
def forgottenTable (c : Cell) : Socket → Option Addr :=
  if c.port.fdTable c.sock.fd = some c.addr then Function.update c.port.fdTable c.sock.fd none
  else c.port.fdTable

def Cell.withTable (c : Cell) (table : Socket → Option Addr) : Cell :=
  { c with port := { c.port with fdTable := table } }

theorem forget_eq (c : Cell) : epFdTableForget c = c.withTable (forgottenTable c) := by
  unfold epFdTableForget forgottenTable
  split <;> rfl

theorem forgottenTable_absent (c : Cell) : forgottenTable c c.sock.fd ≠ some c.addr := by
  unfold forgottenTable
  split
  · simp
  · assumption

theorem forget_moves (live : c.freed = false) : Moves Plain c (c.withTable (forgottenTable c)) := by
  unfold forgottenTable
  split
  · exact Moves.single live .forget
  · exact .refl

/-- The registration leaves the table and both worklists and is condemned. -/
theorem condemn_moves (live : c.freed = false) :
    Moves Plain c (((c.withTable (forgottenTable c)).setFlags
      ((c.flags.needs c.addr false).fire c.addr false)).mapSock
        fun s => { s with deletePending := true }) := by
  have h1 := forget_moves live
  have h2 := h1.trans (clearFlags_moves (c := c.withTable (forgottenTable c)) live
    (forgottenTable_absent c))
  exact h2.plain live (.condemn (forgottenTable_absent c) rfl rfl)

theorem freeIfIdle_moves (live : c.freed = false)
    (absent : c.port.fdTable c.sock.fd ≠ some c.addr) : Moves Plain c (freeIfIdle c) := by
  unfold freeIfIdle
  split
  · exact free_moves live absent ‹_›
  · exact .refl

theorem dropClosed_moves (live : c.freed = false) :
    Moves Plain c (epSockDropClosedLocked c) := by
  have h1 := condemn_moves live
  have h2 := h1.plain live (.renew (.inr rfl))
  unfold epSockDropClosedLocked
  simp only [setNeedsRearm_eq, setOneshotFired_eq, forget_eq]
  refine Moves.trans ?_ (freeIfIdle_moves ?_ ?_)
  · refine h2.quiet ?_
    simp [Cell.withTable]
  · simpa [Cell.withTable] using live
  · simpa [Cell.withTable] using forgottenTable_absent c

/-! ## Cancellation -/

theorem completePending_eq (asyncPost : Option Errno) (busy : c.sock.pollStatus ≠ .idle)
    (counted : 0 < c.port.pendingPollCount) :
    epSockCompletePendingLocked asyncPost c = (true, { c with
      sock := { c.sock with pollStatus := .idle }
      port := { c.port with pendingPollCount := c.port.pendingPollCount - 1 } }) := by
  unfold epSockCompletePendingLocked
  rw [if_neg]
  rintro (h | h)
  · exact busy h
  · omega

/-- The cell after a disarm that succeeds. -/
def Cell.disarmed (c : Cell) (waits : Addr → Bool) : Cell :=
  { c with
    sock := { c.sock with waitRegistration := false }
    port := { c.port with waitArmed := waits } }

theorem auxDisarm_cases (h : Lifecycle c) (live : c.freed = false) (answer : Option Errno) :
    (∃ e, epAuxDisarmLocked answer c = (some e, c)) ∨
      ∃ waits, epAuxDisarmLocked answer c = (none, c.disarmed waits) ∧ waits c.addr = false ∧
        Moves Plain c (c.disarmed waits) := by
  unfold epAuxDisarmLocked
  by_cases hw : c.sock.waitRegistration = true
  · cases answer with
    | some e => exact .inl ⟨e, by simp [hw]⟩
    | none =>
      refine .inr ⟨Function.update c.port.waitArmed c.addr false, ?_, by simp, ?_⟩
      · simp only [hw]
        rfl
      · exact Moves.single live .disarm
  · have hw' : c.sock.waitRegistration = false := by simpa using hw
    have hs : { c.sock with waitRegistration := false } = c.sock := by rw [← hw']
    have hself : c.disarmed c.port.waitArmed = c := by
      show ({ c with sock := { c.sock with waitRegistration := false } } : Cell) = c
      rw [hs]
    refine .inr ⟨c.port.waitArmed, ?_, ?_, ?_⟩
    · rw [hself, hw']
      rfl
    · cases ha : c.port.waitArmed c.addr with
      | false => rfl
      | true => exact absurd (h.armed_wait ha).2.1 hw
    · rw [hself]
      exact .refl

/-- A cancellation only touches the poll itself. -/
structure Cancelled (c d : Cell) : Prop where
  moves : Moves Plain c d
  addr : d.addr = c.addr
  freed : d.freed = c.freed
  sock : d.sock = { c.sock with
    pollStatus := d.sock.pollStatus
    pendingEvents := d.sock.pendingEvents
    waitRegistration := d.sock.waitRegistration
    state := d.sock.state }
  port : d.port = { c.port with
    waitArmed := d.port.waitArmed
    pendingPollCount := d.port.pendingPollCount }

theorem Cancelled.refl : Cancelled c c := ⟨.refl, rfl, rfl, rfl, rfl⟩

theorem Cancelled.kind (h : Cancelled c d) : d.sock.kind = c.sock.kind := by
  have := congrArg EpSock.kind h.sock
  exact this

theorem Cancelled.dead (h : Cancelled c d) : d.sock.deletePending = c.sock.deletePending := by
  have := congrArg EpSock.deletePending h.sock
  exact this

theorem Cancelled.fired (h : Cancelled c d) : d.sock.oneshotFired = c.sock.oneshotFired := by
  have := congrArg EpSock.oneshotFired h.sock
  exact this

theorem Cancelled.ready (h : Cancelled c d) : d.sock.readyQueued = c.sock.readyQueued := by
  have := congrArg EpSock.readyQueued h.sock
  exact this

theorem Cancelled.explicit (h : Cancelled c d) :
    d.port.explicitRearm = c.port.explicitRearm := by
  have := congrArg Port.explicitRearm h.port
  exact this

theorem Cancelled.lifecycle (hc : Cancelled c d) (h : Lifecycle c) (live : c.freed = false) :
    Lifecycle d :=
  h.moves hc.moves (hc.freed.trans live)

theorem disarmed_unreferenced {waits : Addr → Bool} (h : Lifecycle c) (aux : c.sock.isAux = true)
    (hw : waits c.addr = false) (hp : c.sock.completionPosted = false) :
    (c.disarmed waits).port.refs c.addr = 0 := by
  have hg : c.port.afdInFlight c.addr = false := by
    cases hi : c.port.afdInFlight c.addr with
    | false => rfl
    | true =>
      have hs := isAux_false_iff.mpr (h.inFlight_socket hi)
      rw [aux] at hs
      simp at hs
  have hk : c.port.packets c.addr = 0 := by
    by_contra hne
    have := h.packet_posted aux hne
    simp [hp] at this
  have hk' : (c.disarmed waits).port.packets c.addr = 0 := hk
  have hg' : (c.disarmed waits).port.afdInFlight c.addr = false := hg
  have hw' : (c.disarmed waits).port.waitArmed c.addr = false := hw
  rw [refs_eq, hk', hg', hw']
  rfl

theorem cancelAux (h : Lifecycle c) (live : c.freed = false) (aux : c.sock.isAux = true)
    (pending : c.sock.pollStatus = .pending) (answers : CancelAnswers) :
    Cancelled c (epSockCancelLocked answers c).2 := by
  have hbusy : c.sock.pollStatus ≠ .idle := by simp [pending]
  have hunq := h.busy_unqueued hbusy
  have hcount := h.busy_counted hbusy
  unfold epSockCancelLocked
  simp only [pending, aux, ne_eq, not_true_eq_false, if_false, if_true]
  rcases auxDisarm_cases h live answers.disarm with ⟨e, he⟩ | ⟨waits, hd, hw, hm⟩
  · rw [he]
    exact .refl
  · rw [hd]
    have h1 : Moves Plain c ((c.disarmed waits).mapSock fun s => { s with pendingEvents := 0 }) :=
      hm.plain live (.pend hunq)
    simp only
    split
    · have h2 := h1.plain live (.cancelMark pending hw)
      refine ⟨h2, ?_, ?_, ?_, ?_⟩ <;> simp [Cell.disarmed]
    · rename_i hp
      have hp' : c.sock.completionPosted = false := by simpa [Cell.disarmed] using hp
      rw [completePending_eq answers.asyncPost (by simpa [Cell.disarmed] using hbusy)
        (by simpa [Cell.disarmed] using hcount)]
      have h2 := h1.plain live (.retire (p := c.sock.completionPosted) hbusy
        (disarmed_unreferenced h aux hw hp') (fun _ => ⟨rfl, hp'⟩))
      simp only
      split
      · refine ⟨h2.quiet ?_, ?_, ?_, ?_, ?_⟩ <;> simp [Cell.disarmed]
      · refine ⟨h2, ?_, ?_, ?_, ?_⟩ <;> simp [Cell.disarmed]

theorem afdCancel_cases (answer : AfdCancelAnswer) (c : Cell) :
    epAfdCancel answer c = (none, c) ∨ (∃ e, epAfdCancel answer c = (some e, c)) ∨
      epAfdCancel answer c = (none, c.mapSock fun s => { s with pollStatus := .cancelled }) := by
  unfold epAfdCancel
  split
  · exact .inl rfl
  · cases answer with
    | cancelled => exact .inr (.inr rfl)
    | notFound => exact .inl rfl
    | failed e => exact .inr (.inl ⟨e, rfl⟩)

theorem cancelAfd (h : Lifecycle c) (live : c.freed = false) (socket : c.sock.isAux = false)
    (pending : c.sock.pollStatus = .pending) (answers : CancelAnswers) :
    Cancelled c (epSockCancelLocked answers c).2 := by
  have hunq := h.busy_unqueued (c := c) (by simp [pending])
  have hw := h.socket_unarmed (isAux_false_iff.mp socket)
  unfold epSockCancelLocked
  simp only [pending, socket, ne_eq, not_true_eq_false, if_false, Bool.false_eq_true]
  rcases afdCancel_cases answers.afd c with hc | ⟨e, hc⟩ | hc
  · rw [hc]
    exact ⟨Moves.single live (.pend hunq), rfl, rfl, rfl, rfl⟩
  · rw [hc]
    exact .refl
  · rw [hc]
    have h1 := (Moves.single live (.cancelMark pending hw)).plain live
      (.pend (e := 0) (by exact hunq))
    exact ⟨h1, rfl, rfl, rfl, rfl⟩

theorem cancel_cancelled (h : Lifecycle c) (live : c.freed = false) (answers : CancelAnswers) :
    Cancelled c (epSockCancelLocked answers c).2 := by
  by_cases hp : c.sock.pollStatus = .pending
  · cases ha : c.sock.isAux with
    | true => exact cancelAux h live ha hp answers
    | false => exact cancelAfd h live ha hp answers
  · unfold epSockCancelLocked
    rw [if_pos hp]
    exact .refl

theorem retireStale_moves (h : Lifecycle c) (live : c.freed = false) (answers : CancelAnswers) :
    Moves Plain c (epSockRetireStaleLocked answers c) := by
  have hstep : ∀ d : Cell, Moves Plain c d → d.freed = false →
      Moves Plain c (epSockDropClosedLocked (d.mapPort fun p =>
        { p with
          generation := p.generation + 1, staleEventsDropped := p.staleEventsDropped + 1 })) := by
    intro d hd hf
    refine Moves.trans ?_ (dropClosed_moves (by exact hf))
    refine hd.quiet ?_
    rfl
  unfold epSockRetireStaleLocked
  simp only
  split
  · have hc := cancel_cancelled h live answers
    exact hstep _ hc.moves (hc.freed.trans live)
  · exact hstep _ .refl live

end

end WepollEx
