import WepollEx.Lifecycle.Register

/-!
# The arm pass

Each visit of `ep_port_arm_pending_locked` submits the registration at the head of a worklist and
moves it behind the others if it is still listed.
-/

namespace WepollEx

open Intrusive

/-! ## Changes of the port -/

section

variable {T : Tag → Prop} {m : Mem}

theorem MemMoves.of_core {p : Port} (h : p.core = m.port.core) :
    MemMoves T m { m with port := p } :=
  .single (.quiet (fun _ => rfl) h)

theorem failPost_memMoves (plain : T .plain) (m : Mem) (e : Errno) :
    MemMoves T m { m with port := epPortFailIocpPost m.port e } := by
  by_cases hc : m.port.closing = true
  · refine .of_core ?_
    rw [epPortFailIocpPost, if_pos hc]
  · have hshut : MemMove T m _ := .port plain (@PortMove.shut m
      (if m.port.iocpClosed then m.port.iocp else []) true false true
      (m.port.iocpPostFailures + 1) (by split <;> simp) (Nat.le_succ _))
    have hmoves : MemMoves T m _ := .single hshut
    refine hmoves.trans (MemMoves.of_core ?_)
    rw [epPortFailIocpPost, if_neg hc]
    simp [Port.core]

theorem recordAsyncError_memMoves (plain : T .plain) (m : Mem) (post : Option Errno) (e : Errno) :
    MemMoves T m { m with port := epPortRecordAsyncErrorLocked m.port post e } := by
  unfold epPortRecordAsyncErrorLocked
  dsimp only
  split
  · exact .of_core rfl
  split
  · set p : Port := { m.port with
      asynchronousErrors := m.port.asynchronousErrors + 1, asyncError := orEio e } with hp
    have hquiet : MemMoves T m { m with port := p } := .of_core rfl
    rcases postIocp_cases p post .control with h | ⟨e', h⟩
    · rw [h]
      exact hquiet.tail (.port plain .post)
    · rw [h]
      exact hquiet.trans (failPost_memMoves plain { m with port := p } e')
  · exact .of_core rfl

end

/-! ## The ends of a worklist -/

/-- The registration is at an end of the worklist if it is on it. -/
def Cell.AtEnd (c : Cell) (w : Worklist) : Prop :=
  c.sock.onWorklist w = true →
    (c.port.worklist w).head = some c.addr ∨ (c.port.worklist w).tail = some c.addr

theorem Move.atEnd {t : Tag} {c d : Cell} {w : Worklist} (h : Move t c d) (hc : c.AtEnd w) :
    d.AtEnd w := by
  have haddr := h.addr
  rcases h.flags with toggles | ⟨hr, ho, v, _, ends, hport⟩
  · have hends := toggles.ends (w := w) (by cases w <;> exact hc)
    unfold Cell.AtEnd
    rw [haddr]
    cases w <;> exact hends
  · intro hlisted
    have hold : c.sock.onWorklist w = true := by
      cases w with
      | rearm => exact hr.symm.trans hlisted
      | oneshot => exact ho.symm.trans hlisted
    rw [hport, haddr]
    cases w <;> cases v
    · exact .inr (DList.rotate_tail _ _)
    · exact hc hold
    · exact hc hold
    · exact .inr (DList.rotate_tail _ _)

theorem Cell.AtEnd.of_core {c d : Cell} {w : Worklist} (h : c.AtEnd w) (hcore : d.core = c.core) :
    d.AtEnd w := by
  have haddr : d.addr = c.addr := core_congr hcore Cell.addr
  unfold Cell.AtEnd at h ⊢
  rw [haddr]
  cases w with
  | rearm =>
    have hflag : d.sock.needsRearm = c.sock.needsRearm := core_congr hcore fun x => x.sock.needsRearm
    have hlist : d.port.rearmList = c.port.rearmList := core_congr hcore fun x => x.port.rearmList
    intro hd
    show d.port.rearmList.head = _ ∨ d.port.rearmList.tail = _
    rw [hlist]
    exact h (hflag.symm.trans hd)
  | oneshot =>
    have hflag : d.sock.oneshotFired = c.sock.oneshotFired :=
      core_congr hcore fun x => x.sock.oneshotFired
    have hlist : d.port.oneshotList = c.port.oneshotList :=
      core_congr hcore fun x => x.port.oneshotList
    intro hd
    show d.port.oneshotList.head = _ ∨ d.port.oneshotList.tail = _
    rw [hlist]
    exact h (hflag.symm.trans hd)

theorem Moves.atEnd {T : Tag → Prop} {c d : Cell} {w : Worklist} (h : Moves T c d)
    (hc : c.AtEnd w) : d.AtEnd w := by
  induction h with
  | refl => exact hc
  | quiet _ hcore ih => exact ih.of_core hcore
  | step _ _ _ hm ih => exact hm.atEnd ih

/-! ## One visit -/

section

variable {m : Mem} {a : Addr} {s : EpSock} {d : Cell} {w : Worklist}

theorem rotateIfListed_moves (h : d.AtEnd w) : Moves Plain d (rotateIfListed w d) := by
  unfold rotateIfListed
  split
  · rename_i hlisted
    simp only [Bool.and_eq_true, Bool.not_eq_true'] at hlisted
    exact .single hlisted.1 (.rotate w hlisted.2 (h hlisted.2))
  · exact .refl

theorem armVisit_moves (h : Sound m) (found : m.socks a = some s)
    (head : (m.port.worklist w).head = some a) (answers : SubmitAnswers)
    (asyncPost : Option Errno) (e : Errno) :
    MemMoves Plain m (m.put (armVisit w answers asyncPost e (m.cell a s)).2) := by
  set c : Cell := (m.cell a s).mapPort fun p => p.countVisit w with hc
  have hquiet : c.core = (m.cell a s).core := by cases w <;> rfl
  have hend : c.AtEnd w := by
    have : (m.cell a s).AtEnd w := fun _ => .inl head
    exact this.of_core hquiet
  have hmoves := submit_moves ((h.life a s found).of_core hquiet) rfl answers false false
  unfold armVisit
  rw [← hc]
  generalize epSockSubmitLocked answers false false c = r at hmoves ⊢
  obtain ⟨result, immediate, d⟩ := r
  have hd : Moves Plain (m.cell a s) d := (Moves.of_core hquiet).trans hmoves
  have hdEnd : d.AtEnd w := hmoves.atEnd hend
  cases result with
  | retired _ => exact .of_moves found hd
  | ok => exact .of_moves found (hd.trans (rotateIfListed_moves hdEnd))
  | failed err =>
    dsimp only
    have hput : MemMoves Plain m (m.put d) := .of_moves found hd
    -- the error is recorded for the port, whatever has become of the registration
    have hrec := hput.trans (recordAsyncError_memMoves (T := Plain) rfl (m.put d) asyncPost err)
    set d' := d.mapPort fun p => epPortRecordAsyncErrorLocked p asyncPost err with hd'
    have hmem : ({ m.put d with port := epPortRecordAsyncErrorLocked d.port asyncPost err } : Mem) =
        m.put d' := rfl
    have hrec' : MemMoves Plain m (m.put d') := hmem ▸ hrec
    cases hf : d.freed with
    | true =>
      rw [rotateIfListed, if_neg (by simp [hd', hf])]
      exact hrec'
    | false =>
      have hfreed : d'.freed = false := hf
      have hEnd' : d'.AtEnd w := (recordAsyncError_moves hf asyncPost err).atEnd hdEnd
      obtain ⟨hfound, hcell⟩ := m.cell_put hfreed
      have hrot := rotateIfListed_moves hEnd'
      have := MemMoves.of_moves hfound (by rw [hcell]; exact hrot)
      rw [Mem.put_put m hrot.addr] at this
      exact hrec'.trans this

theorem armLoop_moves {answers : Nat → SubmitAnswers} {asyncPost : Option Errno} {budget : Nat}
    {e e' : Errno} {m' : Mem} (h : Sound m)
    (run : armLoop w answers asyncPost budget e m = some (e', m')) : MemMoves Plain m m' := by
  induction budget generalizing e m with
  | zero =>
    simp only [armLoop, Option.some.injEq, Prod.mk.injEq] at run
    rw [← run.2]
    exact .refl
  | succ budget ih =>
    unfold armLoop at run
    split at run
    · cases run
    rename_i a head
    split at run
    · cases run
    rename_i s found
    have hvisit := armVisit_moves h found head (answers budget) asyncPost e
    exact hvisit.trans (ih (h.memMoves hvisit) run)

theorem armPending_moves {answers : ArmAnswers} {e : Errno} {m' : Mem} (h : Sound m)
    (run : epPortArmPendingLocked answers m = some (e, m')) : MemMoves Plain m m' := by
  unfold epPortArmPendingLocked at run
  split at run
  · cases run
  rename_i e1 m1 run1
  have h1 := armLoop_moves h run1
  exact h1.trans (armLoop_moves (h.memMoves h1) run)

end

end WepollEx
