import WepollEx.System.Runs

/-!
# What the waiter leaves to the other threads

A step of the waiter changes the port and the waiter's own state; it neither releases the lock for
a control thread nor posts a packet in its place, and the port is not torn down under it.
-/

namespace WepollEx

/-- The two states differ in the port and the waiter only. -/
structure Sys.Alone (st st' : Sys) : Prop where
  phase : st'.phase = st.phase
  lock : st'.lock = st.lock
  posts : st'.posts = st.posts

section

variable {st st' : Sys}

theorem Sys.alone_afterDrain (site : DrainSite) (n : Nat) (answers : WaitAnswers) :
    st.Alone (st.afterDrain site n answers) := by
  unfold Sys.afterDrain
  cases site <;> dsimp only <;> split <;> exact ⟨rfl, rfl, rfl⟩

theorem Sys.alone_drainPop (site : DrainSite) (answers : WaitAnswers) :
    st.Alone (st.drainPop site answers) := by
  unfold Sys.drainPop
  split
  · exact Sys.alone_afterDrain site 0 answers
  · exact ⟨rfl, rfl, rfl⟩

theorem Sys.alone_drainLocked (site : DrainSite) (answers : WaitAnswers) :
    st.Alone (st.drainLocked site answers) := by
  unfold Sys.drainLocked
  have after : ∀ (st1 : Sys) (n : Nat), st1.Alone (st1.afterDrain site n answers) :=
    fun _ n => Sys.alone_afterDrain site n answers
  exact ⟨(after _ _).phase, (after _ _).lock, (after _ _).posts⟩

theorem Sys.alone_takePackets {n : Nat} {pc : WaitPc} (h : st.takePackets n pc = some st') :
    st.Alone st' := by
  unfold Sys.takePackets at h
  dsimp only at h
  split at h
  · cases h
    exact ⟨rfl, rfl, rfl⟩
  · cases h

theorem Sys.alone_dispatch (next : WaitPc) (answers : WaitAnswers) :
    st.Alone (st.dispatch next answers) := by
  unfold Sys.dispatch
  split <;> exact ⟨rfl, rfl, rfl⟩

theorem Sys.alone_dequeue {b : Bool} {answers : WaitAnswers}
    (h : st.dequeue b answers = some st') : st.Alone st' := by
  unfold Sys.dequeue at h
  split at h
  · cases h
    exact ⟨rfl, rfl, rfl⟩
  · exact Sys.alone_takePackets h
  · cases h
    exact ⟨rfl, rfl, rfl⟩
  · cases h
    split <;> exact ⟨rfl, rfl, rfl⟩
  · cases h
    exact ⟨rfl, rfl, rfl⟩

theorem Sys.alone_coalesceDequeue {answers : WaitAnswers}
    (h : st.coalesceDequeue answers = some st') : st.Alone st' := by
  unfold Sys.coalesceDequeue at h
  split at h
  · have failed : ∀ e : Errno, (if st.lock.isSome then none
        else some (st.setPort (epPortRecordAsyncErrorLocked st.mem.port answers.asyncPost
          e)).finishWithEvents) = some st' → st.Alone st' := by
      intro e he
      split at he
      · cases he
      · cases he
        exact ⟨rfl, rfl, rfl⟩
    dsimp only at h
    split at h
    · exact failed _ h
    · exact failed _ h
    · cases h
      exact ⟨rfl, rfl, rfl⟩
    · cases h
      exact ⟨rfl, rfl, rfl⟩
    · exact Sys.alone_takePackets h
  · cases h
    exact ⟨rfl, rfl, rfl⟩

theorem waiterStep_alone (h : Ordered st) {answers : WaitAnswers}
    (hstep : st.waiterStep answers = some st') : st.Alone st' := by
  by_cases hquiet : st.drains (.waiter answers) = false ∧ st.dequeues (.waiter answers) = false
  · have q := quietly_waiterStep h.sound hstep hquiet.1 hquiet.2
    exact ⟨q.phase, q.lock, q.posts⟩
  unfold Sys.waiterStep at hstep
  dsimp only at hstep
  split at hstep
  · cases hstep
  cases hpc : st.waiter.pc with
  | drainPop site =>
    rw [hpc] at hstep
    cases hstep
    exact Sys.alone_drainPop site answers
  | drainLocked site =>
    rw [hpc] at hstep
    cases hstep
    exact Sys.alone_drainLocked site answers
  | dequeue nonzero deferredWait =>
    rw [hpc] at hstep
    exact Sys.alone_dequeue hstep
  | dispatch =>
    rw [hpc] at hstep
    cases hstep
    exact Sys.alone_dispatch _ answers
  | coalesceDequeue =>
    rw [hpc] at hstep
    exact Sys.alone_coalesceDequeue hstep
  | coalesceDispatch =>
    rw [hpc] at hstep
    cases hstep
    exact Sys.alone_dispatch _ answers
  | _ => simp [Sys.drains, Sys.dequeues, hpc] at hquiet

end

/-! ## The end of a port -/

theorem onKernelRef_phase {st st' : Sys} {armed : Bool} {a : Addr} {f : Cell → Cell}
    (hstep : st.onKernelRef armed a f = some st') : st'.phase = st.phase := by
  unfold Sys.onKernelRef at hstep
  split at hstep
  · cases hstep
  split at hstep
  · cases hstep
    rfl
  · cases hstep

/-- Every step keeps the phase, but for the three acts of the teardown. -/
theorem step_phase {st st' : Sys} (h : Ordered st) {a : Act} (hstep : st.step a = some st') :
    st'.phase = st.phase ∨ st'.phase = .draining ∨ st'.phase = .abandoned ∨
      (st'.phase = .finished ∧ st'.mem = epPortFinishDestroyLocked st.mem) := by
  cases a with
  | control op answers =>
    replace hstep : st.control op answers = some st' := hstep
    unfold Sys.control at hstep
    split at hstep
    · cases hstep
    dsimp only at hstep
    split at hstep
    · cases hstep
      exact .inl rfl
    · cases hstep
      exact .inl rfl
  | unlock =>
    replace hstep : st.unlock = some st' := hstep
    unfold Sys.unlock at hstep
    split at hstep
    · cases hstep
    · cases hstep
      exact .inl rfl
  | post i answer =>
    replace hstep : st.post i answer = some st' := hstep
    unfold Sys.post at hstep
    split at hstep
    · cases hstep
    dsimp only at hstep
    split at hstep
    · cases hstep
      exact .inl rfl
    · cases hstep
      exact .inl rfl
  | wake event =>
    replace hstep : st.wake event = some st' := hstep
    unfold Sys.wake at hstep
    dsimp only at hstep
    split at hstep
    · cases hstep
    split at hstep
    · cases hstep
      exact .inl rfl
    · cases hw : st.mem.port.wakePending <;> cases event <;> rw [hw] at hstep <;>
        obtain rfl := Option.some.inj hstep <;> exact .inl rfl
  | waitBegin maxevents zeroTimeout infinite =>
    replace hstep : st.waitBegin maxevents zeroTimeout infinite = some st' := hstep
    unfold Sys.waitBegin at hstep
    split at hstep
    · cases hstep
    · cases hstep
      exact .inl rfl
  | waiter answers => exact .inl (waiterStep_alone h hstep).phase
  | afdComplete a status info => exact .inl (onKernelRef_phase hstep)
  | auxFire a post => exact .inl (onKernelRef_phase hstep)
  | beginClose post =>
    cases hstep
    exact .inl rfl
  | destroy answers =>
    replace hstep : st.destroy answers = some st' := hstep
    unfold Sys.destroy at hstep
    split at hstep
    · cases hstep
    · cases hstep
      exact .inr (.inl rfl)
  | drainDequeue n =>
    replace hstep : st.drainDequeue n = some st' := hstep
    unfold Sys.drainDequeue at hstep
    dsimp only at hstep
    split at hstep
    · cases hstep
      exact .inl rfl
    · cases hstep
  | drainDispatch answers =>
    replace hstep : st.drainDispatch answers = some st' := hstep
    unfold Sys.drainDispatch at hstep
    split at hstep
    · cases hstep
    split at hstep
    · cases hstep
      exact .inl rfl
    · cases hstep
  | finishDestroy =>
    replace hstep : st.finishDestroy = some st' := hstep
    unfold Sys.finishDestroy at hstep
    split at hstep
    · cases hstep
      exact .inr (.inr (.inr ⟨rfl, rfl⟩))
    · cases hstep
  | abandon =>
    replace hstep : st.abandon = some st' := hstep
    unfold Sys.abandon at hstep
    split at hstep
    · cases hstep
      exact .inr (.inr (.inl rfl))
    · cases hstep

/-- Without insertions an empty port stays empty. -/
theorem MemMoves.vacant {T : Tag → Prop} {m m' : Mem} (h : MemMoves T m m')
    (inserts : ¬T .inserted) (vacant : ∀ a, m.socks a = none) : ∀ a, m'.socks a = none := by
  induction h with
  | refl => exact vacant
  | @tail m1 m2 _ move ih =>
    intro a
    cases move with
    | @cell b s t d found allowed move => simp [ih b] at found
    | quiet socks port =>
      have := socks a
      rw [ih a] at this
      exact Option.map_eq_none_iff.mp this
    | port _ _ => exact ih a
    | insert allowed _ _ _ => exact absurd allowed inserts

theorem Reachable.vacant {start st : Sys} (h : Reachable start st) (h0 : Ordered start)
    (running : start.phase = .running) (finished : st.phase = .finished) :
    ∀ a, st.mem.socks a = none := by
  revert finished
  refine h.invariant (P := fun st => st.phase = .finished → ∀ a, st.mem.socks a = none) h0
    (fun hf => by rw [running] at hf; cases hf) ?_
  intro st st' a ordered hvacant hstep hfinished
  rcases step_phase ordered hstep with hsame | hother | hother | ⟨_, hmem⟩
  · have hold : st.phase = .finished := hsame.symm.trans hfinished
    refine (step_moves ordered hstep).1.vacant ?_ (hvacant hold)
    intro hcontrol
    cases a with
    | control op answers =>
      replace hstep : st.control op answers = some st' := hstep
      simp [Sys.control, hold] at hstep
    | _ => cases hcontrol
  · rw [hother] at hfinished
    cases hfinished
  · rw [hother] at hfinished
    cases hfinished
  · rw [hmem]
    exact finishDestroy_socks ordered.sound

end WepollEx
