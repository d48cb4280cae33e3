import WepollEx.Lifecycle.Drain

/-!
# Close and teardown

`ep_port_destroy` condemns every registration before it clears the table.  Its first loop commutes
with clearing the table, so teardown is a sequence of moves that clears the table first.
-/

namespace WepollEx

open Intrusive

/-! ## The list of all registrations -/

theorem sockWalk_eq {p : Port} {e : Option Addr} {xs : List Addr} {l : Option Addr} {fuel : Nat}
    {b : Option Addr} (seg : p.sockList.links.Seg b e xs l none) (enough : xs.length ≤ fuel) :
    sockWalk p fuel e = xs := by
  induction xs generalizing e b fuel with
  | nil =>
    obtain ⟨rfl, _⟩ := seg
    cases fuel <;> rfl
  | cons x xs ih =>
    obtain ⟨rfl, _, rest⟩ := seg
    cases fuel with
    | zero => simp at enough
    | succ fuel =>
      rw [sockWalk]
      congr 1
      exact ih rest (Nat.le_of_succ_le_succ enough)

/-- The walk over `sock_list` meets every registration. -/
theorem Registry.allSocks {m : Mem} {xs : List Addr} (h : Registry m xs) :
    m.port.allSocks = xs := by
  obtain ⟨l, seg⟩ := h.repr.seg
  exact sockWalk_eq seg h.bound

theorem Sound.mem_allSocks {m : Mem} (h : Sound m) {a : Addr} {s : EpSock}
    (found : m.socks a = some s) : a ∈ m.port.allSocks := by
  obtain ⟨xs, hxs⟩ := h.registry
  rw [hxs.allSocks, hxs.mem]
  simp [found]

/-! ## Clearing the table first -/

/-- The registration off both worklists and marked as deleted. -/
def Cell.condemned (c : Cell) : Cell :=
  (c.setFlags ((c.flags.needs c.addr false).fire c.addr false)).mapSock
    fun s => { s with deletePending := true, state := .deleted }

theorem destroyDetach_eq (answers : CancelAnswers) (c : Cell) :
    destroyDetach answers c = (epSockCancelLocked answers c.condemned).2 := by
  unfold destroyDetach
  simp only [setNeedsRearm_eq, setOneshotFired_eq]
  rfl

section

variable (t : Socket → Option Addr)

theorem completePending_withTable (asyncPost : Option Errno) (c : Cell) :
    epSockCompletePendingLocked asyncPost (c.withTable t) =
      ((epSockCompletePendingLocked asyncPost c).1,
        (epSockCompletePendingLocked asyncPost c).2.withTable t) := by
  unfold epSockCompletePendingLocked
  by_cases hbad : c.sock.pollStatus = .idle ∨ c.port.pendingPollCount = 0
  · have hrecord := recordAsyncError_withTable { c.port with accountingViolated := true } t
      asyncPost EIO
    rw [if_pos hbad, if_pos (show (c.withTable t).sock.pollStatus = .idle ∨
      (c.withTable t).port.pendingPollCount = 0 from hbad)]
    exact congrArg (fun p => (false, ({ c with
      sock := { c.sock with pollStatus := .idle }, port := p } : Cell))) hrecord
  · rw [if_neg hbad, if_neg (show ¬((c.withTable t).sock.pollStatus = .idle ∨
      (c.withTable t).port.pendingPollCount = 0) from hbad)]
    rfl

theorem auxDisarm_withTable (answer : Option Errno) (c : Cell) :
    epAuxDisarmLocked answer (c.withTable t) =
      ((epAuxDisarmLocked answer c).1, (epAuxDisarmLocked answer c).2.withTable t) := by
  unfold epAuxDisarmLocked Cell.withTable
  cases hw : c.sock.waitRegistration with
  | false => rfl
  | true => cases answer <;> rfl

theorem afdCancel_withTable (answer : AfdCancelAnswer) (c : Cell) :
    epAfdCancel answer (c.withTable t) =
      ((epAfdCancel answer c).1, (epAfdCancel answer c).2.withTable t) := by
  unfold epAfdCancel Cell.withTable
  by_cases hdone : c.sock.pollStatus ≠ .pending ∨ c.sock.ioStatus ≠ STATUS_PENDING
  · simp only [hdone, if_true]
  · simp only [hdone, if_false]
    cases answer <;> rfl

theorem cancel_withTable (answers : CancelAnswers) (c : Cell) :
    epSockCancelLocked answers (c.withTable t) =
      ((epSockCancelLocked answers c).1, (epSockCancelLocked answers c).2.withTable t) := by
  unfold epSockCancelLocked
  rw [auxDisarm_withTable, afdCancel_withTable]
  by_cases hp : c.sock.pollStatus ≠ .pending
  · rw [if_pos hp, if_pos (show (c.withTable t).sock.pollStatus ≠ .pending from hp)]
  rw [if_neg hp, if_neg (show ¬(c.withTable t).sock.pollStatus ≠ .pending from hp)]
  by_cases ha : c.sock.isAux = true
  · rw [if_pos ha, if_pos (show (c.withTable t).sock.isAux = true from ha)]
    generalize epAuxDisarmLocked answers.disarm c = r
    obtain ⟨failed, d⟩ := r
    cases failed with
    | some e => rfl
    | none =>
      dsimp only
      have hpost := completePending_withTable t answers.asyncPost
        (d.mapSock fun s => { s with pendingEvents := 0 })
      rw [show (d.withTable t).mapSock (fun s => { s with pendingEvents := 0 }) =
        (d.mapSock fun s => { s with pendingEvents := 0 }).withTable t from rfl, hpost]
      generalize (d.mapSock fun s => { s with pendingEvents := 0 }) = e
      by_cases hposted : e.sock.completionPosted = true
      · rw [if_pos hposted, if_pos (show (e.withTable t).sock.completionPosted = true from hposted)]
        rfl
      rw [if_neg hposted, if_neg (show ¬(e.withTable t).sock.completionPosted = true from hposted)]
      generalize epSockCompletePendingLocked answers.asyncPost e = r
      obtain ⟨done, f⟩ := r
      cases done with
      | false => rfl
      | true =>
        dsimp only
        by_cases hopen : (!f.sock.deletePending && !f.port.closing) = true
        · rw [if_pos hopen, if_pos (show (!(f.withTable t).sock.deletePending &&
            !(f.withTable t).port.closing) = true from hopen)]
          rfl
        · rw [if_neg hopen, if_neg (show ¬(!(f.withTable t).sock.deletePending &&
            !(f.withTable t).port.closing) = true from hopen)]
  · rw [if_neg ha, if_neg (show ¬(c.withTable t).sock.isAux = true from ha)]
    generalize epAfdCancel answers.afd c = r
    obtain ⟨failed, d⟩ := r
    cases failed <;> rfl

theorem destroyDetach_withTable (answers : CancelAnswers) (c : Cell) :
    destroyDetach answers (c.withTable t) = (destroyDetach answers c).withTable t := by
  rw [destroyDetach_eq, destroyDetach_eq]
  exact congrArg Prod.snd (cancel_withTable t answers c.condemned)

end

/-- The port with another table. -/
def Mem.withTable (m : Mem) (t : Socket → Option Addr) : Mem :=
  { m with port := { m.port with fdTable := t } }

theorem onSock_withTable (m : Mem) (t : Socket → Option Addr) (a : Addr) (answers : CancelAnswers) :
    (m.withTable t).onSock a (destroyDetach answers) =
      (m.onSock a (destroyDetach answers)).withTable t := by
  have hsocks : (m.withTable t).socks a = m.socks a := rfl
  unfold Mem.onSock
  rw [hsocks]
  cases m.socks a with
  | none => rfl
  | some s =>
    dsimp only
    rw [show (m.withTable t).cell a s = (m.cell a s).withTable t from rfl, destroyDetach_withTable]
    rfl

theorem foldl_withTable (m : Mem) (t : Socket → Option Addr) (answers : Addr → CancelAnswers)
    (xs : List Addr) :
    xs.foldl (fun m a => m.onSock a (destroyDetach (answers a))) (m.withTable t) =
      (xs.foldl (fun m a => m.onSock a (destroyDetach (answers a))) m).withTable t := by
  induction xs generalizing m with
  | nil => rfl
  | cons a xs ih => rw [List.foldl_cons, List.foldl_cons, onSock_withTable, ih]

/-! ## Loops over the registrations -/

section

variable {m : Mem}

/-- A loop over registrations whose body is a sequence of moves is one itself. -/
theorem foldl_onSock_moves {f : Addr → Cell → Cell} (P : Mem → Prop)
    (body : ∀ m a s, Sound m → P m → m.socks a = some s →
      Moves Plain (m.cell a s) (f a (m.cell a s)) ∧ P (m.put (f a (m.cell a s))))
    (h : Sound m) (hP : P m) (xs : List Addr) :
    MemMoves Plain m (xs.foldl (fun m a => m.onSock a (f a)) m) ∧
      P (xs.foldl (fun m a => m.onSock a (f a)) m) := by
  induction xs generalizing m with
  | nil => exact ⟨.refl, hP⟩
  | cons a xs ih =>
    rw [List.foldl_cons]
    unfold Mem.onSock
    cases hs : m.socks a with
    | none => exact ih h hP
    | some s =>
      dsimp only
      obtain ⟨hmoves, hP'⟩ := body m a s h hP hs
      have hput := MemMoves.of_moves hs hmoves
      obtain ⟨hrest, hlast⟩ := ih (h.memMoves hput) hP'
      exact ⟨hput.trans hrest, hlast⟩

/-- No table entry is left. -/
def Mem.Tableless (m : Mem) : Prop := ∀ fd, m.port.fdTable fd = none

theorem Mem.Tableless.put {a : Addr} {s : EpSock} {d : Cell} (h : m.Tableless)
    (hmoves : Moves Plain (m.cell a s) d) : (m.put d).Tableless := by
  intro fd
  cases hd : (m.put d).port.fdTable fd with
  | none => rfl
  | some b =>
    have hold : m.port.fdTable fd = some b := hmoves.table hd
    rw [h fd] at hold
    cases hold

theorem destroyDetach_moves {c : Cell} (h : Lifecycle c) (live : c.freed = false)
    (absent : c.port.fdTable c.sock.fd ≠ some c.addr) (answers : CancelAnswers) :
    Moves Plain c (destroyDetach answers c) := by
  have hcondemn := (clearFlags_moves live absent).plain live (.condemn absent rfl rfl)
  have hmoves : Moves Plain c c.condemned := hcondemn.quiet rfl
  rw [destroyDetach_eq]
  exact hmoves.trans (cancel_cancelled (h.moves hmoves live) live answers).moves

theorem destroyLocked_moves (h : Sound m) (answers : Addr → CancelAnswers) :
    MemMoves Plain m (epPortDestroyLocked answers m) ∧ (epPortDestroyLocked answers m).Tableless := by
  have hclear : MemMoves Plain m (m.withTable fun _ => none) := .single (.port rfl .clearTable)
  have hsound := h.memMoves hclear
  obtain ⟨hdetach, htable⟩ := foldl_onSock_moves (f := fun a => destroyDetach (answers a))
    Mem.Tableless (fun m a s hm hP hs => by
      have hmoves := destroyDetach_moves (hm.life a s hs) rfl
        (by rw [show (m.cell a s).port.fdTable _ = none from hP _]; simp) (answers a)
      exact ⟨hmoves, hP.put hmoves⟩) hsound (fun _ => rfl) m.port.allSocks
  rw [foldl_withTable] at hdetach htable
  have hsound2 := hsound.memMoves hdetach
  unfold epPortDestroyLocked
  dsimp only
  set m2 := (m.port.allSocks.foldl
    (fun m a => m.onSock a (destroyDetach (answers a))) m).withTable fun _ => none with hm2
  obtain ⟨hfree, hlast⟩ := foldl_onSock_moves (f := fun _ => freeIfIdle) Mem.Tableless
    (fun m a s hm hP hs => by
      have hmoves := freeIfIdle_moves (c := m.cell a s) rfl
        (by rw [show (m.cell a s).port.fdTable _ = none from hP _]; simp)
      exact ⟨hmoves, hP.put hmoves⟩) hsound2 htable m2.port.allSocks
  exact ⟨(hclear.trans hdetach).trans hfree, hlast⟩

/-! ## The last steps -/

theorem socks_free (m : Mem) (a : Addr) (s : EpSock) :
    (m.put (epSockFreeLocked (m.cell a s))).socks = Function.update m.socks a none := by
  unfold epSockFreeLocked
  simp only [setNeedsRearm_eq, setOneshotFired_eq]
  rfl

theorem foldl_free_socks (m : Mem) (xs : List Addr) (b : Addr) :
    (xs.foldl (fun m a => m.onSock a epSockFreeLocked) m).socks b =
      if b ∈ xs then none else m.socks b := by
  induction xs generalizing m with
  | nil => simp
  | cons a xs ih =>
    rw [List.foldl_cons, ih]
    by_cases hxs : b ∈ xs
    · simp [hxs]
    · unfold Mem.onSock
      cases hs : m.socks a with
      | none =>
        by_cases hb : b = a
        · subst hb
          simp [hs]
        · simp [hb, hxs]
      | some s =>
        dsimp only
        rw [socks_free]
        by_cases hb : b = a
        · subst hb
          simp
        · simp [hb, hxs]

/-- No poll is pending. -/
def Mem.Quiescent (m : Mem) : Prop := ∀ a s, m.socks a = some s → s.pollStatus = .idle

theorem Sound.quiescent (h : Sound m) (none_pending : m.port.pendingPollCount = 0) :
    m.Quiescent := by
  intro a s hs
  by_contra hbusy
  have := (h.life a s hs).busy_counted hbusy
  rw [show (m.cell a s).port.pendingPollCount = 0 from none_pending] at this
  exact Nat.lt_irrefl 0 this

theorem finishDestroy_socks (h : Sound m) (a : Addr) :
    (epPortFinishDestroyLocked m).socks a = none := by
  unfold epPortFinishDestroyLocked
  dsimp only
  rw [foldl_free_socks]
  cases hs : m.socks a with
  | none => simp
  | some s => rw [if_pos (h.mem_allSocks hs)]

theorem finishDestroy_moves (h : Sound m) (tableless : m.Tableless)
    (none_pending : m.port.pendingPollCount = 0) :
    MemMoves Plain m (epPortFinishDestroyLocked m) := by
  have hempty := finishDestroy_socks h
  obtain ⟨hfree, _⟩ := foldl_onSock_moves (f := fun _ => epSockFreeLocked)
    (fun m => m.Tableless ∧ m.Quiescent) (fun m a s hm hP hs => by
      have hmoves := free_moves (c := m.cell a s) rfl
        (by rw [show (m.cell a s).port.fdTable _ = none from hP.1 _]; simp) (hP.2 a s hs)
      refine ⟨hmoves, hP.1.put hmoves, fun b s' hb => ?_⟩
      rw [socks_free] at hb
      by_cases hba : b = a
      · simp [hba] at hb
      · exact hP.2 b s' (by simpa [hba] using hb)) h ⟨tableless, h.quiescent none_pending⟩
    m.port.allSocks
  unfold epPortFinishDestroyLocked at hempty ⊢
  dsimp only at hempty ⊢
  set m1 := m.port.allSocks.foldl (fun m a => m.onSock a epSockFreeLocked) m with hm1
  have hclear : MemMoves Plain m { m1 with port := { m1.port with readyQueue := [] } } :=
    hfree.tail (.port rfl (.clearQueue hempty))
  have hshut : PortMove { m1 with port := { m1.port with readyQueue := [] } } _ _ :=
    @PortMove.shut _ [] false false true m1.port.iocpPostFailures (.inr rfl) (Nat.le_refl _)
  refine (hclear.tail (.port rfl hshut)).trans (MemMoves.of_core ?_)
  simp

theorem beginClose_moves (m : Mem) (post : Option Errno) :
    MemMoves Plain m { m with port := epPortBeginClose post m.port } := by
  unfold epPortBeginClose
  split
  · exact .refl
  dsimp only
  set p : Port := { m.port with closing := true } with hp
  have hclosing : MemMoves Plain m { m with port := p } := by
    have hshut := @PortMove.shut m m.port.iocp true m.port.iocpPostHandle m.port.iocpClosed
      m.port.iocpPostFailures (.inl rfl) (Nat.le_refl _)
    have hmoves : MemMoves Plain m _ := .single (.port rfl hshut)
    refine hmoves.trans (MemMoves.of_core ?_)
    simp [hp]
  rcases postIocp_cases p post .control with hpost | ⟨e, hpost⟩
  · rw [hpost]
    exact hclosing.tail (.port rfl .post)
  · rw [hpost]
    have hshut := @PortMove.shut { m with port := p } [] true false true
      m.port.iocpPostFailures (.inr rfl) (Nat.le_refl _)
    refine (hclosing.tail (.port rfl hshut)).trans (MemMoves.of_core ?_)
    simp [hp]

theorem abandon_moves (m : Mem) : MemMoves Plain m { m with port := { m.port with
    iocpPostHandle := false, iocpClosed := true, iocp := [] } } := by
  have hshut := @PortMove.shut m [] false false true m.port.iocpPostFailures (.inr rfl)
    (Nat.le_refl _)
  have hmoves : MemMoves Plain m _ := .single (.port rfl hshut)
  refine hmoves.trans (MemMoves.of_core ?_)
  simp

/-- Only hold-off flags change. -/
theorem releaseDeferred_moves (m : Mem) :
    MemMoves Plain m (epPortReleaseDeferredRearmsLocked m) := by
  refine .single (.quiet (fun a => ?_) rfl)
  unfold epPortReleaseDeferredRearmsLocked
  dsimp only
  split
  · cases m.socks a with
    | none => rfl
    | some s => rfl
  · rfl

end

end WepollEx
