import WepollEx.Lifecycle.Destroy

/-!
# Runs of the system

Every step of the system is a sequence of moves of its port, of the kinds that `Sys.tags` allows
for that step.  `Ordered` is what the steps need for that: the port is sound, the waiter holds a
ready node or a batch of packets only where its code does, and a port that is being torn down is
used by nobody else.
-/

namespace WepollEx

open Intrusive

/-! ## What moves leave alone -/

section

variable {T : Tag → Prop} {t : Tag} {m m' : Mem}

theorem Move.entries {c d : Cell} (h : Move t c d) :
    d.port.iocpEntries = c.port.iocpEntries := by
  cases h with
  | rotate w => cases w <;> rfl
  | _ => rfl

theorem Move.held {c d : Cell} (h : Move t c d) (returns : t ≠ .delivered)
    (drops : t ≠ .suppressed) : d.port.drainNode = c.port.drainNode := by
  cases h with
  | rotate w => cases w <;> rfl
  | deliver => exact absurd rfl returns
  | suppress _ _ _ _ _ _ _ _ edge =>
    rcases edge with rfl | ⟨rfl, _⟩
    · exact absurd rfl drops
    · exact absurd rfl returns
  | _ => rfl

theorem PortMove.entries {p : Port} (h : PortMove m t p) (dequeues : t ≠ .dequeued) :
    p.iocpEntries = m.port.iocpEntries := by
  cases h with
  | batch => exact absurd rfl dequeues
  | consume => exact absurd rfl dequeues
  | _ => rfl

theorem PortMove.held {p : Port} (h : PortMove m t p) (returns : t ≠ .delivered) :
    p.drainNode = m.port.drainNode := by
  cases h with
  | pop => exact absurd rfl returns
  | discard => exact absurd rfl returns
  | _ => rfl

theorem MemMoves.entries (h : MemMoves T m m') (dequeues : ¬T .dequeued) :
    m'.port.iocpEntries = m.port.iocpEntries := by
  induction h with
  | refl => rfl
  | tail _ move ih =>
    refine Eq.trans ?_ ih
    cases move with
    | cell _ _ hm => exact hm.entries
    | quiet _ hp => exact Port.core_congr hp fun x => x.iocpEntries
    | port allowed hm => exact hm.entries fun ht => dequeues (ht ▸ allowed)
    | insert => rfl

theorem MemMoves.held (h : MemMoves T m m') (returns : ¬T .delivered) (drops : ¬T .suppressed) :
    m'.port.drainNode = m.port.drainNode := by
  induction h with
  | refl => rfl
  | tail _ move ih =>
    refine Eq.trans ?_ ih
    cases move with
    | cell _ allowed hm =>
      exact hm.held (fun ht => returns (ht ▸ allowed)) (fun ht => drops (ht ▸ allowed))
    | quiet _ hp => exact Port.core_congr hp fun x => x.drainNode
    | port allowed hm => exact hm.held fun ht => returns (ht ▸ allowed)
    | insert => rfl

theorem MemMove.table (h : MemMove T m m') (inserts : ¬T .inserted) {fd : Socket} {a : Addr}
    (hm' : m'.port.fdTable fd = some a) : m.port.fdTable fd = some a := by
  cases h with
  | cell _ _ hm => exact hm.table hm'
  | quiet _ hp => exact (Port.core_congr hp fun x => x.fdTable fd).symm.trans hm'
  | port _ hm => exact hm.frame.table fd a hm'
  | insert allowed => exact absurd allowed inserts

theorem MemMoves.table (h : MemMoves T m m') (inserts : ¬T .inserted) {fd : Socket} {a : Addr}
    (hm' : m'.port.fdTable fd = some a) : m.port.fdTable fd = some a := by
  induction h with
  | refl => exact hm'
  | tail _ move ih => exact ih (move.table inserts hm')

theorem MemMoves.tableless (h : MemMoves T m m') (inserts : ¬T .inserted) (hm : m.Tableless) :
    m'.Tableless := by
  intro fd
  by_contra hne
  obtain ⟨a, ha⟩ := Option.ne_none_iff_exists'.mp hne
  have hold := MemMoves.table h inserts ha
  rw [hm fd] at hold
  cases hold

end

/-! ## The order of a run -/

structure Ordered (st : Sys) : Prop where
  sound : Sound st.mem
  held : st.mem.port.drainNode ≠ none → ∃ site, st.waiter.pc = .drainLocked site
  batch : st.mem.port.iocpEntries ≠ [] →
    st.waiter.pc = .dispatch ∨ st.waiter.pc = .coalesceDispatch ∨ st.phase = .draining
  closed : st.phase ≠ .running →
    st.waiter.pc = .idle ∧ st.lock = none ∧ st.posts = [] ∧ st.mem.Tableless

/-- The step dispatches a packet whose completion fires a oneshot registration that is on the
rearm list. -/
def Sys.refires (st : Sys) : Act → Bool
  | .waiter _ =>
    match st.waiter.pc, st.mem.port.iocpEntries with
    | .dispatch, packet :: rest =>
      dispatchRefires packet { st.mem with port := { st.mem.port with iocpEntries := rest } }
    | .coalesceDispatch, packet :: rest =>
      dispatchRefires packet { st.mem with port := { st.mem.port with iocpEntries := rest } }
    | _, _ => false
  | .drainDispatch _ =>
    match st.mem.port.iocpEntries with
    | packet :: rest =>
      dispatchRefires packet { st.mem with port := { st.mem.port with iocpEntries := rest } }
    | [] => false
  | _ => false

/-- The step drains a valid node of an edge-triggered registration whose identity check fails. -/
def Sys.suppresses (st : Sys) : Act → Bool
  | .waiter answers =>
    match st.waiter.pc with
    | .drainLocked _ =>
      epDrainSuppresses answers.drain (st.waiter.maxevents - st.waiter.out.length) st.mem
    | _ => false
  | _ => false

/-- The step takes packets off the completion port or off a batch. -/
def Sys.dequeues (st : Sys) : Act → Bool
  | .waiter _ =>
    match st.waiter.pc with
    | .dequeue _ _ => true
    | .dispatch => true
    | .coalesceDequeue => true
    | .coalesceDispatch => true
    | _ => false
  | .drainDequeue _ => true
  | .drainDispatch _ => true
  | _ => false

/-- The step is part of a drain. -/
def Sys.drains (st : Sys) : Act → Bool
  | .waiter _ =>
    match st.waiter.pc with
    | .drainPop _ => true
    | .drainLocked _ => true
    | _ => false
  | _ => false

def Act.isControl : Act → Bool
  | .control _ _ => true
  | _ => false

/-- The kinds of moves a step can make. -/
def Sys.tags (st : Sys) (a : Act) : Tag → Prop
  | .plain => True
  | .inserted => a.isControl = true
  | .dequeued => st.dequeues a = true
  | .delivered => st.drains a = true
  | .firedWhileRearming => st.refires a = true
  | .suppressed => st.suppresses a = true

/-! ## Steps that only touch the waiter's bookkeeping -/

/-- `st'` is `st` after plain moves, with another waiter. -/
structure Quietly (st st' : Sys) : Prop where
  moves : MemMoves Plain st.mem st'.mem
  phase : st'.phase = st.phase
  lock : st'.lock = st.lock
  posts : st'.posts = st.posts

namespace Quietly

variable {st st' st'' : Sys}

theorem refl : Quietly st st := ⟨.refl, rfl, rfl, rfl⟩

theorem trans (h : Quietly st st') (h' : Quietly st' st'') : Quietly st st'' :=
  ⟨h.moves.trans h'.moves, h'.phase.trans h.phase, h'.lock.trans h.lock, h'.posts.trans h.posts⟩

theorem goto (h : Quietly st st') (pc : WaitPc) : Quietly st (st'.goto pc) :=
  ⟨h.moves, h.phase, h.lock, h.posts⟩

theorem finish (h : Quietly st st') (result : Int) : Quietly st (st'.finish result) :=
  ⟨h.moves, h.phase, h.lock, h.posts⟩

theorem setPort (h : Quietly st st') {p : Port} (hp : p.core = st'.mem.port.core) :
    Quietly st (st'.setPort p) :=
  ⟨h.moves.trans (MemMoves.of_core hp), h.phase, h.lock, h.posts⟩

theorem setMem (h : Quietly st st') {m : Mem} (hm : MemMoves Plain st'.mem m) :
    Quietly st { st' with mem := m } :=
  ⟨h.moves.trans hm, h.phase, h.lock, h.posts⟩

theorem ite {c : Prop} [Decidable c] (h : Quietly st st') (h' : Quietly st st'') :
    Quietly st (if c then st' else st'') := by
  split
  · exact h
  · exact h'

theorem takePostError (h : Quietly st st') : Quietly st st'.takePostError.2 := h.setPort rfl

theorem checkOpen (h : Quietly st st') (pc : WaitPc) : Quietly st (st'.checkOpen pc) := by
  unfold Sys.checkOpen
  exact (h.takePostError.finish (-1)).ite (h.takePostError.goto pc)

theorem takeWake (h : Quietly st st') : Quietly st st'.takeWake.2 := by
  unfold Sys.takeWake
  split
  · exact h
  · exact h.setPort rfl
  · exact h.setPort rfl

theorem afterDrain (h : Quietly st st') (site : DrainSite) (n : Nat) (answers : WaitAnswers) :
    Quietly st (st'.afterDrain site n answers) := by
  unfold Sys.afterDrain Sys.finishWithEvents
  cases site with
  | beforeArm => exact (h.goto _).ite (h.goto _)
  | armFailed => exact (h.finish _).ite (h.goto _)
  | afterArm => exact (h.goto _).ite (h.goto _)
  | afterDispatch => exact (h.goto _).ite (h.goto _)
  | coalesce => exact (h.finish _).ite (h.goto _)

end Quietly

section

variable {st st' : Sys}

theorem quietly_arm (h : Sound st.mem) {answers : WaitAnswers} (hstep : st.arm answers = some st') :
    Quietly st st' := by
  unfold Sys.arm at hstep
  dsimp only at hstep
  have htake : Quietly st (st.setPort (epPortTakeAsyncErrorLocked st.mem.port).2) :=
    Quietly.refl.setPort rfl
  split at hstep
  · cases hstep
    exact htake.finish _
  split at hstep
  · cases hstep
  · rename_i hrun
    cases hstep
    have harm := armPending_moves (h.memMoves htake.moves) hrun
    exact ((htake.setMem harm).goto _).ite ((htake.setMem harm).goto _)

theorem quietly_timedOut {deferredWait : Bool} {answers : WaitAnswers}
    (hstep : st.timedOut deferredWait answers = some st') : Quietly st st' := by
  unfold Sys.timedOut at hstep
  have hwake : Quietly st st.takeWake.2 := Quietly.refl.takeWake
  generalize st.takeWake = r at hstep hwake
  obtain ⟨result, st1⟩ := r
  cases result with
  | some v =>
    cases hstep
    exact hwake.finish _
  | none =>
    dsimp only at hstep
    split at hstep
    · split at hstep
      · cases hstep
      · cases hstep
        exact (hwake.setMem (releaseDeferred_moves _)).goto _
    · split at hstep
      · cases hstep
        exact hwake.finish _
      · cases hstep
        exact hwake.goto _

theorem quietly_prepare (deferred : Bool) (answers : WaitAnswers) :
    Quietly st (st.prepare deferred answers) := by
  unfold Sys.prepare
  dsimp only
  split
  · exact Quietly.refl.finish _
  split
  · exact Quietly.refl.goto _
  · exact Quietly.refl.goto _

end

/-! ## The waiter -/

section

variable {st st' : Sys}

theorem MemMoves.tagged {m m' : Mem} (h : MemMoves Plain m m') (st : Sys) (a : Act) :
    MemMoves (st.tags a) m m' :=
  h.mono fun t ht => by rw [show t = .plain from ht]; trivial

/-- A waiter that runs keeps the port from being torn down. -/
theorem Ordered.running (h : Ordered st) (busy : st.waiter.pc ≠ .idle) : st.phase = .running := by
  by_contra hne
  exact busy (h.closed hne).1

theorem Ordered.emptyHanded (h : Ordered st) (outside : ∀ site, st.waiter.pc ≠ .drainLocked site) :
    st.mem.port.drainNode = none := by
  by_contra hne
  obtain ⟨site, hsite⟩ := h.held hne
  exact outside site hsite

theorem Ordered.batchDone (h : Ordered st) (busy : st.waiter.pc ≠ .idle)
    (first : st.waiter.pc ≠ .dispatch) (second : st.waiter.pc ≠ .coalesceDispatch) :
    st.mem.port.iocpEntries = [] := by
  by_contra hne
  rcases h.batch hne with hpc | hpc | hphase
  · exact first hpc
  · exact second hpc
  · rw [h.running busy] at hphase
    cases hphase

/-- The waiter is neither inside a drain nor inside a batch. -/
structure Sys.Between (st : Sys) : Prop where
  busy : st.waiter.pc ≠ .idle
  outside : ∀ site, st.waiter.pc ≠ .drainLocked site
  first : st.waiter.pc ≠ .dispatch
  second : st.waiter.pc ≠ .coalesceDispatch

theorem Sys.Between.of_pc {pc : WaitPc} (hpc : st.waiter.pc = pc) (busy : pc ≠ .idle)
    (outside : ∀ site, pc ≠ .drainLocked site) (first : pc ≠ .dispatch)
    (second : pc ≠ .coalesceDispatch) : st.Between := by
  subst hpc
  exact ⟨busy, outside, first, second⟩

theorem Ordered.of_quietly (h : Ordered st) (hb : st.Between) (q : Quietly st st') :
    Ordered st' := by
  have hnode : st'.mem.port.drainNode = none :=
    (q.moves.held (by simp [Plain]) (by simp [Plain])).trans (h.emptyHanded hb.outside)
  have hentries : st'.mem.port.iocpEntries = [] :=
    (q.moves.entries (by simp [Plain])).trans (h.batchDone hb.busy hb.first hb.second)
  refine ⟨h.sound.memMoves q.moves, fun hne => absurd hnode hne, fun hne => absurd hentries hne, ?_⟩
  intro hphase
  rw [q.phase, h.running hb.busy] at hphase
  exact absurd rfl hphase

/-- Packets go to the batch of a waiter that dispatches next. -/
theorem takePackets_moves (h : Ordered st) (hb : st.Between) {n : Nat} {pc : WaitPc}
    (hpc : pc = .dispatch ∨ pc = .coalesceDispatch) (hstep : st.takePackets n pc = some st') :
    MemMoves (fun t => t = .dequeued) st.mem st'.mem ∧ Ordered st' := by
  have hentries := h.batchDone hb.busy hb.first hb.second
  have hnode := h.emptyHanded hb.outside
  unfold Sys.takePackets at hstep
  dsimp only at hstep
  split at hstep
  · cases hstep
    have hmove : MemMoves (fun t => t = .dequeued) st.mem
        { st.mem with port := { st.mem.port with
          iocp := st.mem.port.iocp.drop n, iocpEntries := st.mem.port.iocp.take n } } :=
      .single (.port rfl (.batch n hentries))
    refine ⟨hmove, h.sound.memMoves hmove, fun hne => absurd hnode hne, fun _ => ?_, ?_⟩
    · rcases hpc with rfl | rfl
      · exact .inl rfl
      · exact .inr (.inl rfl)
    · intro hphase
      exact absurd (h.running hb.busy) hphase
  · cases hstep

theorem dispatchStep_moves (h : Ordered st) {next : WaitPc} {a : Act} {answers : WaitAnswers}
    (hpc : st.waiter.pc = .dispatch ∨ st.waiter.pc = .coalesceDispatch)
    (dequeues : st.dequeues a = true)
    (refires : ∀ packet rest, st.mem.port.iocpEntries = packet :: rest →
      st.refires a =
        dispatchRefires packet { st.mem with port := { st.mem.port with iocpEntries := rest } }) :
    MemMoves (st.tags a) st.mem (st.dispatch next answers).mem ∧
      Ordered (st.dispatch next answers) := by
  have busy : st.waiter.pc ≠ .idle := by
    rcases hpc with hpc | hpc <;> simp [hpc]
  have outside : ∀ site, st.waiter.pc ≠ .drainLocked site := by
    intro site
    rcases hpc with hpc | hpc <;> simp [hpc]
  have hnode := h.emptyHanded outside
  have hrun := h.running busy
  unfold Sys.dispatch
  split
  · rename_i hentries
    exact ⟨.refl, h.sound, fun hne => absurd hnode hne, fun hne => absurd hentries hne,
      fun hphase => absurd hrun hphase⟩
  · rename_i packet rest hentries
    have hmoves := dispatch_moves (T := fun t => t = .plain ∨ t = .dequeued ∨
        (t = .firedWhileRearming ∧ st.refires a = true)) (.inl rfl) (.inr (.inl rfl)) h.sound hentries
        answers.completion (fun hr => .inr (.inr ⟨rfl, (refires packet rest hentries).trans hr⟩))
    refine ⟨hmoves.mono ?_, h.sound.memMoves hmoves, fun hne => ?_, fun _ => ?_, fun hphase => ?_⟩
    · rintro t (rfl | rfl | ⟨rfl, hr⟩)
      · trivial
      · exact dequeues
      · exact hr
    · have := hmoves.held (by simp) (by simp)
      exact absurd (this.trans hnode) hne
    · rcases hpc with hpc | hpc
      · exact .inl hpc
      · exact .inr (.inl hpc)
    · exact absurd hrun hphase

theorem drainPop_moves (h : Ordered st) {site : DrainSite} (hpc : st.waiter.pc = .drainPop site)
    (answers : WaitAnswers) :
    MemMoves (fun t => t = .delivered) st.mem (st.drainPop site answers).mem ∧
      Ordered (st.drainPop site answers) := by
  have hb : st.Between := .of_pc hpc (by simp) (by simp) (by simp) (by simp)
  have hnode := h.emptyHanded hb.outside
  have hrun := h.running hb.busy
  unfold Sys.drainPop
  cases hpop : popVisible st.mem.port.readyQueue st.lock.isSome answers.stubBetween with
  | none =>
    have hq : Quietly st (st.afterDrain site 0 answers) := Quietly.refl.afterDrain site 0 answers
    refine ⟨?_, h.of_quietly hb hq⟩
    have hmem : (st.afterDrain site 0 answers).mem = st.mem := by
      cases site <;> simp only [Sys.afterDrain] <;> split <;> rfl
    rw [hmem]
    exact .refl
  | some popped =>
    obtain ⟨node, rest⟩ := popped
    have hqueue : st.mem.port.readyQueue = node :: rest := by
      unfold popVisible at hpop
      split at hpop
      · cases hpop
      · split at hpop
        · cases hpop
        · simp only [Option.some.injEq, Prod.mk.injEq] at hpop
          rw [‹st.mem.port.readyQueue = _›, hpop.1, hpop.2]
    have hmove : MemMoves (fun t => t = .delivered) st.mem { st.mem with port := { st.mem.port with
        readyQueue := rest, drainNode := some node } } :=
      .single (.port rfl (.pop hnode hqueue))
    refine ⟨hmove, h.sound.memMoves hmove, fun _ => ⟨site, rfl⟩, fun hne => ?_, fun hphase => ?_⟩
    · exact absurd (h.batchDone hb.busy hb.first hb.second) hne
    · exact absurd hrun hphase

theorem drainLoop_held (answers : Nat → DrainAnswers) (maxevents : Nat) (node : ReadyNode)
    (rest : List ReadyNode) (out : List EventRecord) (m : Mem) :
    (drainLoop answers maxevents node rest out m).2.port.drainNode = none := by
  induction rest generalizing node out m with
  | nil => rfl
  | cons next rest ih =>
    unfold drainLoop
    dsimp only
    split
    · exact ih _ _ _
    · rfl

theorem drainToBuffer_held (answers : Nat → DrainAnswers) (maxevents : Nat) (m : Mem) :
    (epDrainToBufferLocked answers maxevents m).2.port.drainNode = none := by
  unfold epDrainToBufferLocked
  split
  · assumption
  · exact drainLoop_held _ _ _ _ _ _

theorem drainLocked_moves (h : Ordered st) {site : DrainSite}
    (hpc : st.waiter.pc = .drainLocked site) (answers : WaitAnswers) :
    MemMoves (st.tags (.waiter answers)) st.mem (st.drainLocked site answers).mem ∧
      Ordered (st.drainLocked site answers) := by
  have busy : st.waiter.pc ≠ .idle := by simp [hpc]
  have hrun := h.running busy
  have hentries := h.batchDone busy (by simp [hpc]) (by simp [hpc])
  have hsup : st.suppresses (.waiter answers) = epDrainSuppresses answers.drain
      (st.waiter.maxevents - st.waiter.out.length) st.mem := by
    simp only [Sys.suppresses, hpc]
  have hdrains : st.drains (.waiter answers) = true := by simp only [Sys.drains, hpc]
  have hdeq : st.dequeues (.waiter answers) = false := by simp only [Sys.dequeues, hpc]
  have hmoves := drainToBuffer_moves (T := st.tags (.waiter answers)) trivial hdrains h.sound
    answers.drain (st.waiter.maxevents - st.waiter.out.length) (fun hs => hsup.trans hs)
  have hnode := drainToBuffer_held answers.drain (st.waiter.maxevents - st.waiter.out.length) st.mem
  have hkept := hmoves.entries (by show ¬(st.dequeues _ = true); simp [hdeq])
  unfold Sys.drainLocked
  generalize epDrainToBufferLocked answers.drain
    (st.waiter.maxevents - st.waiter.out.length) st.mem = r at hmoves hnode hkept ⊢
  obtain ⟨records, m⟩ := r
  dsimp only at hmoves hnode hkept ⊢
  set st1 : Sys := { st with
    mem := m, waiter := { st.waiter with out := st.waiter.out ++ records } } with hst1
  have hmem : (st1.afterDrain site records.length answers).mem = m := by
    cases site <;> simp only [Sys.afterDrain] <;> split <;> rfl
  have hafter : Quietly st1 (st1.afterDrain site records.length answers) :=
    Quietly.refl.afterDrain site records.length answers
  have hphase : (st1.afterDrain site records.length answers).phase = .running :=
    hafter.phase.trans hrun
  refine ⟨by rw [hmem]; exact hmoves, ?_, ?_, ?_, ?_⟩
  · rw [hmem]
    exact h.sound.memMoves hmoves
  · rw [hmem]
    exact fun hne => absurd hnode hne
  · rw [hmem]
    exact fun hne => absurd (hkept.trans hentries) hne
  · rw [hphase]
    exact fun hne => absurd rfl hne

theorem dequeueStep_moves (h : Ordered st) {nonzero deferredWait : Bool}
    (hpc : st.waiter.pc = .dequeue nonzero deferredWait) {answers : WaitAnswers}
    (hstep : st.dequeue deferredWait answers = some st') :
    MemMoves (st.tags (.waiter answers)) st.mem st'.mem ∧ Ordered st' := by
  have hb : st.Between := .of_pc hpc (by simp) (by simp) (by simp) (by simp)
  have hdeq : st.dequeues (.waiter answers) = true := by simp only [Sys.dequeues, hpc]
  have quiet : Quietly st st' → MemMoves (st.tags (.waiter answers)) st.mem st'.mem ∧ Ordered st' :=
    fun q => ⟨q.moves.tagged st _, h.of_quietly hb q⟩
  unfold Sys.dequeue at hstep
  split at hstep
  · cases hstep
    exact quiet (Quietly.refl.finish _)
  · obtain ⟨hmoves, hord⟩ := takePackets_moves h hb (.inl rfl) hstep
    exact ⟨hmoves.mono (by rintro t rfl; exact hdeq), hord⟩
  · cases hstep
    exact quiet (Quietly.refl.goto _)
  · cases hstep
    exact quiet ((Quietly.refl.takePostError.finish _).ite (Quietly.refl.takePostError.goto _))
  · cases hstep
    exact quiet (Quietly.refl.takePostError.finish _)

theorem coalesceStep_moves (h : Ordered st) (hpc : st.waiter.pc = .coalesceDequeue)
    {answers : WaitAnswers} (hstep : st.coalesceDequeue answers = some st') :
    MemMoves (st.tags (.waiter answers)) st.mem st'.mem ∧ Ordered st' := by
  have hb : st.Between := .of_pc hpc (by simp) (by simp) (by simp) (by simp)
  have hdeq : st.dequeues (.waiter answers) = true := by simp only [Sys.dequeues, hpc]
  have quiet : Quietly st st' → MemMoves (st.tags (.waiter answers)) st.mem st'.mem ∧ Ordered st' :=
    fun q => ⟨q.moves.tagged st _, h.of_quietly hb q⟩
  have failed : ∀ e, (if st.lock.isSome then none else some (st.setPort
      (epPortRecordAsyncErrorLocked st.mem.port answers.asyncPost e)).finishWithEvents) = some st' →
      Quietly st st' := by
    intro e he
    split at he
    · cases he
    · cases he
      have hrec : Quietly st (st.setPort
          (epPortRecordAsyncErrorLocked st.mem.port answers.asyncPost e)) :=
        Quietly.refl.setMem (recordAsyncError_memMoves (T := Plain) rfl st.mem answers.asyncPost e)
      exact hrec.finish _
  unfold Sys.coalesceDequeue at hstep
  dsimp only at hstep
  split at hstep
  · split at hstep
    · exact quiet (failed _ hstep)
    · exact quiet (failed _ hstep)
    · cases hstep
      exact quiet (Quietly.refl.finish _)
    · cases hstep
      exact quiet (Quietly.refl.finish _)
    · obtain ⟨hmoves, hord⟩ := takePackets_moves h hb (.inr rfl) hstep
      exact ⟨hmoves.mono (by rintro t rfl; exact hdeq), hord⟩
  · cases hstep
    exact quiet (Quietly.refl.finish _)

theorem quietly_wakeAfter (hstep : (match st.takeWake with
    | (some r, st) => some (st.finish r)
    | (none, st) => some (st.goto .expiry)) = some st') : Quietly st st' := by
  have hwake : Quietly st st.takeWake.2 := Quietly.refl.takeWake
  generalize st.takeWake = r at hwake hstep
  obtain ⟨result, st1⟩ := r
  cases result with
  | some v =>
    cases hstep
    exact hwake.finish _
  | none =>
    cases hstep
    exact hwake.goto _

/-- The waiter's steps outside drains, batches and the completion port. -/
theorem quietly_waiterStep (h : Sound st.mem) {answers : WaitAnswers}
    (hstep : st.waiterStep answers = some st') (hdrain : st.drains (.waiter answers) = false)
    (hdequeue : st.dequeues (.waiter answers) = false) : Quietly st st' := by
  have same : Quietly st st := Quietly.refl
  have take := same.takePostError
  unfold Sys.waiterStep at hstep
  dsimp only at hstep
  split at hstep
  · cases hstep
  cases hpc : st.waiter.pc with
  | idle => simp [hpc] at hstep
  | drainPop site => simp [Sys.drains, hpc] at hdrain
  | drainLocked site => simp [Sys.drains, hpc] at hdrain
  | dequeue nonzero deferredWait => simp [Sys.dequeues, hpc] at hdequeue
  | coalesceDequeue => simp [Sys.dequeues, hpc] at hdequeue
  | dispatch => simp [Sys.dequeues, hpc] at hdequeue
  | coalesceDispatch => simp [Sys.dequeues, hpc] at hdequeue
  | arm =>
    rw [hpc] at hstep
    exact quietly_arm h hstep
  | timedOut deferredWait =>
    rw [hpc] at hstep
    exact quietly_timedOut hstep
  | wakeAfter =>
    rw [hpc] at hstep
    exact quietly_wakeAfter hstep
  | openingErrors =>
    rw [hpc] at hstep
    cases hstep
    have hrelease := (same.setMem (releaseDeferred_moves st.mem)).setPort
      (p := (epPortTakeAsyncErrorLocked (epPortReleaseDeferredRearmsLocked st.mem).port).2) rfl
    exact (hrelease.finish _).ite (hrelease.goto _)
  | armFailedErrors =>
    rw [hpc] at hstep
    cases hstep
    refine (take.setPort ?_).finish _
    rfl
  | postErrorAfter =>
    rw [hpc] at hstep
    cases hstep
    exact (take.finish _).ite (take.goto _)
  | asyncErrorAfter =>
    rw [hpc] at hstep
    cases hstep
    have htake := same.setPort (p := (epPortTakeAsyncErrorLocked st.mem.port).2) rfl
    exact (htake.finish _).ite (htake.goto _)
  | prepare deferred =>
    rw [hpc] at hstep
    cases hstep
    exact quietly_prepare deferred answers
  | expiry =>
    rw [hpc] at hstep
    cases hstep
    exact (same.finish _).ite (same.goto _)
  | activeStored =>
    rw [hpc] at hstep
    cases hstep
    exact same.checkOpen _
  | loopTop =>
    rw [hpc] at hstep
    cases hstep
    exact same.checkOpen _
  | closingAfter =>
    rw [hpc] at hstep
    cases hstep
    exact same.checkOpen _
  | checkDeferred =>
    rw [hpc] at hstep
    cases hstep
    exact same.goto _
  | _ =>
    -- a store to one field of the waiter's bookkeeping
    rw [hpc] at hstep
    cases hstep
    refine (same.setPort ?_).goto _
    rfl

theorem waiterStep_moves (h : Ordered st) {answers : WaitAnswers}
    (hstep : st.waiterStep answers = some st') :
    MemMoves (st.tags (.waiter answers)) st.mem st'.mem ∧ Ordered st' := by
  by_cases hplain : st.drains (.waiter answers) = false ∧ st.dequeues (.waiter answers) = false
  · have q := quietly_waiterStep h.sound hstep hplain.1 hplain.2
    have hb : st.Between := by
      refine ⟨fun hpc => ?_, fun site hpc => ?_, fun hpc => ?_, fun hpc => ?_⟩
      · unfold Sys.waiterStep at hstep
        simp [hpc] at hstep
      · simp [Sys.drains, hpc] at hplain
      · simp [Sys.dequeues, hpc] at hplain
      · simp [Sys.dequeues, hpc] at hplain
    exact ⟨q.moves.tagged st _, h.of_quietly hb q⟩
  unfold Sys.waiterStep at hstep
  dsimp only at hstep
  split at hstep
  · cases hstep
  cases hpc : st.waiter.pc with
  | drainPop site =>
    simp only [hpc, Option.some.injEq] at hstep
    obtain ⟨hmoves, hord⟩ := drainPop_moves h hpc answers
    rw [← hstep]
    refine ⟨hmoves.mono ?_, hord⟩
    rintro t rfl
    show st.drains _ = true
    simp only [Sys.drains, hpc]
  | drainLocked site =>
    simp only [hpc, Option.some.injEq] at hstep
    rw [← hstep]
    exact drainLocked_moves h hpc answers
  | dequeue nonzero deferredWait =>
    simp only [hpc] at hstep
    exact dequeueStep_moves h hpc hstep
  | coalesceDequeue =>
    simp only [hpc] at hstep
    exact coalesceStep_moves h hpc hstep
  | dispatch =>
    simp only [hpc, Option.some.injEq] at hstep
    rw [← hstep]
    refine dispatchStep_moves h (.inl hpc) (by simp only [Sys.dequeues, hpc]) ?_
    intro packet rest hentries
    simp only [Sys.refires, hpc, hentries]
  | coalesceDispatch =>
    simp only [hpc, Option.some.injEq] at hstep
    rw [← hstep]
    refine dispatchStep_moves h (.inr hpc) (by simp only [Sys.dequeues, hpc]) ?_
    intro packet rest hentries
    simp only [Sys.refires, hpc, hentries]
  | _ => exact absurd ⟨by simp only [Sys.drains, hpc], by simp only [Sys.dequeues, hpc]⟩ hplain

end

/-! ## The other parties -/

section

variable {st st' : Sys}

/-- A step of another party leaves drains and batches alone. -/
theorem Ordered.of_moves {T : Tag → Prop} (h : Ordered st) (hm : MemMoves T st.mem st'.mem)
    (returns : ¬T .delivered) (drops : ¬T .suppressed) (dequeues : ¬T .dequeued)
    (waiter : st'.waiter = st.waiter) (phase : st'.phase = st.phase)
    (closed : st.phase ≠ .running → st'.lock = none ∧ st'.posts = [] ∧ st'.mem.Tableless) :
    Ordered st' := by
  refine ⟨h.sound.memMoves hm, ?_, ?_, ?_⟩
  · rw [hm.held returns drops, waiter]
    exact h.held
  · rw [hm.entries dequeues, waiter, phase]
    exact h.batch
  · rw [phase, waiter]
    exact fun hne => ⟨(h.closed hne).1, closed hne⟩

theorem Ordered.of_plain (h : Ordered st) (hm : MemMoves Plain st.mem st'.mem)
    (waiter : st'.waiter = st.waiter) (phase : st'.phase = st.phase)
    (lock : st.phase ≠ .running → st'.lock = st.lock)
    (posts : st.phase ≠ .running → st'.posts = st.posts) : Ordered st' := by
  refine h.of_moves hm (by simp [Plain]) (by simp [Plain]) (by simp [Plain]) waiter phase ?_
  intro hne
  obtain ⟨_, hlock, hposts, htable⟩ := h.closed hne
  exact ⟨(lock hne).trans hlock, (posts hne).trans hposts, hm.tableless (by simp [Plain]) htable⟩

theorem control_run_moves {m : Mem} (h : Sound m) {op : ControlOp} (answers : ControlAnswers)
    (fresh : op.allocatesFresh m = true) : MemMoves Control m (op.run answers m).2 := by
  cases op with
  | add alloc fd events data ctx =>
    refine epollCtlAdd_moves h answers fd events data ctx fun a ha => ?_
    simp only [ControlOp.allocatesFresh, ha, Option.isNone_iff_eq_none] at fresh
    exact fresh
  | mod fd events data ctx => exact (epollCtlMod_moves h answers fd events data ctx).control
  | del fd => exact (unregister_moves h answers fd).control
  | rearm fd => exact (rearm_moves h answers fd).control
  | rearmClasses fd classes => exact (portRearmClasses_moves h answers fd classes).control
  | shutdown fd how => exact (shutdownSocket_moves h answers fd how).control

theorem controlStep_moves (h : Ordered st) {op : ControlOp} {answers : ControlAnswers}
    (hstep : st.control op answers = some st') :
    MemMoves (st.tags (.control op answers)) st.mem st'.mem ∧ Ordered st' := by
  unfold Sys.control at hstep
  split at hstep
  · cases hstep
  rename_i hguard
  simp only [not_or, ne_eq, Decidable.not_not] at hguard
  obtain ⟨hrun, _, hfresh⟩ := hguard
  have hmoves := control_run_moves h.sound answers (by simpa using hfresh)
  generalize op.run answers st.mem = r at hmoves hstep
  obtain ⟨result, m⟩ := r
  have hordered : ∀ st1 : Sys, st1.mem = m → st1.waiter = st.waiter → st1.phase = st.phase →
      Ordered st1 := by
    intro st1 hmem hwaiter hphase
    rw [← hmem] at hmoves
    exact h.of_moves hmoves (by simp [Control]) (by simp [Control]) (by simp [Control]) hwaiter hphase
      fun hne => absurd hrun hne
  have htags : MemMoves (st.tags (.control op answers)) st.mem m := by
    refine hmoves.mono ?_
    rintro t (rfl | rfl)
    · trivial
    · show Act.isControl _ = true
      rfl
  dsimp only at hstep
  split at hstep
  · cases hstep
    exact ⟨htags, hordered _ rfl rfl rfl⟩
  · cases hstep
    exact ⟨htags, hordered _ rfl rfl rfl⟩

theorem postStep_moves (h : Ordered st) {i : Nat} {answer : Option Errno}
    (hstep : st.post i answer = some st') :
    MemMoves Plain st.mem st'.mem ∧ Ordered st' := by
  unfold Sys.post at hstep
  split at hstep
  · cases hstep
  rename_i owed hget
  have hrun : st.phase = .running := by
    by_contra hne
    rw [(h.closed hne).2.2.1] at hget
    simp at hget
  have plain : ∀ st1 : Sys, MemMoves Plain st.mem st1.mem → st1.waiter = st.waiter →
      st1.phase = st.phase → MemMoves Plain st.mem st1.mem ∧ Ordered st1 := by
    intro st1 hm hwaiter hphase
    exact ⟨hm, h.of_plain hm hwaiter hphase (fun hne => absurd hrun hne) fun hne => absurd hrun hne⟩
  rcases postIocp_cases st.mem.port answer .control with hpost | ⟨e, hpost⟩
  · rw [hpost] at hstep
    cases hstep
    exact plain _ (.single (.port rfl .post)) rfl rfl
  · rw [hpost] at hstep
    cases hstep
    refine plain _ ?_ rfl rfl
    cases owed with
    | wake =>
      have hquiet : MemMoves Plain st.mem { st.mem with port := { st.mem.port with
        wakePending := .none } } := .of_core rfl
      exact hquiet.trans (failPost_memMoves (T := Plain) rfl _ e)
    | ready r =>
      have hrecord : MemMoves Plain st.mem { st.mem with
        port := st.mem.port.record (.wakeFailed r) } := .single (.port rfl (.wakeFailed r))
      exact hrecord.trans (failPost_memMoves (T := Plain) rfl _ e)

theorem unlockStep_moves (h : Ordered st) (hstep : st.unlock = some st') :
    MemMoves Plain st.mem st'.mem ∧ Ordered st' := by
  unfold Sys.unlock at hstep
  split at hstep
  · cases hstep
  · rename_i half hlock
    cases hstep
    refine ⟨.refl, h.of_plain .refl rfl rfl (fun hne => ?_) fun hne => ?_⟩
    · rw [(h.closed hne).2.1] at hlock
      cases hlock
    · rw [(h.closed hne).2.1] at hlock
      cases hlock

theorem wakeStep_moves (h : Ordered st) {event : Option (Events × BitVec 64)}
    (hstep : st.wake event = some st') : MemMoves Plain st.mem st'.mem ∧ Ordered st' := by
  unfold Sys.wake at hstep
  dsimp only at hstep
  split at hstep
  · cases hstep
  rename_i hrun
  have plain : ∀ st1 : Sys, MemMoves Plain st.mem st1.mem → st1.waiter = st.waiter →
      st1.phase = st.phase → MemMoves Plain st.mem st1.mem ∧ Ordered st1 := by
    intro st1 hm hwaiter hphase
    exact ⟨hm, h.of_plain hm hwaiter hphase (fun hne => absurd hne hrun) fun hne => absurd hne hrun⟩
  split at hstep
  · cases hstep
    exact plain _ .refl rfl rfl
  cases hw : st.mem.port.wakePending with
  | none =>
    cases event with
    | none =>
      rw [hw] at hstep
      cases hstep
      exact plain _ (MemMoves.of_core rfl) rfl rfl
    | some e =>
      rw [hw] at hstep
      cases hstep
      exact plain _ (MemMoves.of_core rfl) rfl rfl
  | untagged =>
    cases event with
    | none =>
      rw [hw] at hstep
      cases hstep
      exact plain _ .refl rfl rfl
    | some e =>
      rw [hw] at hstep
      cases hstep
      exact plain _ (MemMoves.of_core rfl) rfl rfl
  | tagged =>
    rw [hw] at hstep
    cases hstep
    exact plain _ .refl rfl rfl

theorem waitBeginStep_moves (h : Ordered st) {maxevents : Nat} {zeroTimeout infinite : Bool}
    (hstep : st.waitBegin maxevents zeroTimeout infinite = some st') :
    MemMoves Plain st.mem st'.mem ∧ Ordered st' := by
  unfold Sys.waitBegin at hstep
  split at hstep
  · cases hstep
  rename_i hguard
  simp only [not_or, ne_eq, Decidable.not_not] at hguard
  obtain ⟨hrun, hidle, _⟩ := hguard
  cases hstep
  refine ⟨.refl, h.sound, fun hne => ?_, fun hne => ?_, fun hne => absurd hrun hne⟩
  · obtain ⟨site, hsite⟩ := h.held hne
    rw [hidle] at hsite
    cases hsite
  · rcases h.batch hne with hpc | hpc | hphase
    · rw [hidle] at hpc
      cases hpc
    · rw [hidle] at hpc
      cases hpc
    · rw [hrun] at hphase
      cases hphase

theorem onKernelRef_moves (h : Ordered st) {armed : Bool} {a : Addr} {f : Cell → Cell}
    (body : ∀ s, st.mem.socks a = some s → armed = true →
      Moves Plain (st.mem.cell a s) (f (st.mem.cell a s)))
    (hstep : st.onKernelRef armed a f = some st') :
    MemMoves Plain st.mem st'.mem ∧ Ordered st' := by
  unfold Sys.onKernelRef at hstep
  split at hstep
  · cases hstep
  rename_i s hs
  split at hstep
  · rename_i harmed
    cases hstep
    have hm : MemMoves Plain st.mem _ := .of_moves hs (body s hs harmed)
    exact ⟨hm, h.of_plain hm rfl rfl (fun _ => rfl) fun _ => rfl⟩
  · cases hstep

theorem destroyStep_moves (h : Ordered st) {answers : Addr → CancelAnswers}
    (hstep : st.destroy answers = some st') : MemMoves Plain st.mem st'.mem ∧ Ordered st' := by
  unfold Sys.destroy at hstep
  split at hstep
  · cases hstep
  rename_i hguard
  simp only [not_or, ne_eq, Decidable.not_not, Bool.not_eq_true, Option.isSome_eq_false_iff,
    Option.isNone_iff_eq_none] at hguard
  obtain ⟨hrun, hlock, hidle, _, hposts⟩ := hguard
  cases hstep
  obtain ⟨hm, htable⟩ := destroyLocked_moves h.sound answers
  refine ⟨hm, h.sound.memMoves hm, ?_, fun _ => .inr (.inr rfl), fun _ => ⟨hidle, hlock, hposts, htable⟩⟩
  show (epPortDestroyLocked answers st.mem).port.drainNode ≠ none → _
  rw [hm.held (by simp [Plain]) (by simp [Plain])]
  exact h.held

theorem drainDequeueStep_moves (h : Ordered st) {n : Nat} (hstep : st.drainDequeue n = some st') :
    MemMoves (fun t => t = .dequeued) st.mem st'.mem ∧ Ordered st' := by
  unfold Sys.drainDequeue at hstep
  dsimp only at hstep
  split at hstep
  · rename_i hguard
    obtain ⟨hphase, hentries, _⟩ := hguard
    cases hstep
    have hmove : MemMoves (fun t => t = .dequeued) st.mem
        { st.mem with port := { st.mem.port with
          iocp := st.mem.port.iocp.drop n, iocpEntries := st.mem.port.iocp.take n } } :=
      .single (.port rfl (.batch n hentries))
    have hclosed := h.closed (by rw [hphase]; simp)
    exact ⟨hmove, h.sound.memMoves hmove, h.held, fun _ => .inr (.inr hphase), fun _ => hclosed⟩
  · cases hstep

theorem drainDispatchStep_moves (h : Ordered st) {answers : CompletionAnswers}
    (hstep : st.drainDispatch answers = some st') :
    MemMoves (st.tags (.drainDispatch answers)) st.mem st'.mem ∧ Ordered st' := by
  unfold Sys.drainDispatch at hstep
  split at hstep
  · cases hstep
  rename_i packet rest hentries
  split at hstep
  · rename_i hphase
    cases hstep
    have hrefires : st.refires (.drainDispatch answers) = dispatchRefires packet
        { st.mem with port := { st.mem.port with iocpEntries := rest } } := by
      simp only [Sys.refires, hentries]
    have hm := dispatch_moves (T := st.tags (.drainDispatch answers)) trivial
      (by show Sys.dequeues _ _ = true; rfl) h.sound hentries answers fun hr => hrefires.trans hr
    have hclosed := h.closed (by rw [hphase]; simp)
    refine ⟨hm, h.sound.memMoves hm, ?_, fun _ => .inr (.inr hphase), fun _ => ?_⟩
    · show (epPortDispatchIocpEntry answers packet _).port.drainNode ≠ none → _
      rw [hm.held (by show ¬(Sys.drains _ _ = true); simp [Sys.drains])
        (by show ¬(Sys.suppresses _ _ = true); simp [Sys.suppresses])]
      exact h.held
    · exact ⟨hclosed.1, hclosed.2.1, hclosed.2.2.1,
        hm.tableless (by show ¬(Act.isControl _ = true); simp [Act.isControl]) hclosed.2.2.2⟩
  · cases hstep

theorem finishDestroyStep_moves (h : Ordered st) (hstep : st.finishDestroy = some st') :
    MemMoves Plain st.mem st'.mem ∧ Ordered st' := by
  unfold Sys.finishDestroy at hstep
  split at hstep
  · rename_i hguard
    obtain ⟨hphase, hentries, hcount⟩ := hguard
    cases hstep
    have hclosed := h.closed (by rw [hphase]; simp)
    have hm := finishDestroy_moves h.sound hclosed.2.2.2 hcount
    have hnode : (epPortFinishDestroyLocked st.mem).port.drainNode = none := by
      rw [hm.held (by simp [Plain]) (by simp [Plain])]
      refine h.emptyHanded fun site hsite => ?_
      rw [hclosed.1] at hsite
      cases hsite
    have hbatch : (epPortFinishDestroyLocked st.mem).port.iocpEntries = [] :=
      (hm.entries (by simp [Plain])).trans hentries
    exact ⟨hm, h.sound.memMoves hm, fun hne => absurd hnode hne, fun hne => absurd hbatch hne,
      fun _ => ⟨hclosed.1, hclosed.2.1, hclosed.2.2.1, hm.tableless (by simp [Plain]) hclosed.2.2.2⟩⟩
  · cases hstep

theorem abandonStep_moves (h : Ordered st) (hstep : st.abandon = some st') :
    MemMoves Plain st.mem st'.mem ∧ Ordered st' := by
  unfold Sys.abandon at hstep
  split at hstep
  · rename_i hguard
    obtain ⟨hphase, hentries⟩ := hguard
    cases hstep
    have hclosed := h.closed (by rw [hphase]; simp)
    have hm := abandon_moves st.mem
    exact ⟨hm, h.sound.memMoves hm, h.held, fun hne => absurd hentries hne, fun _ => hclosed⟩
  · cases hstep

/-- Every step of the system is a sequence of moves of the kinds its tags allow. -/
theorem step_moves (h : Ordered st) {a : Act} (hstep : st.step a = some st') :
    MemMoves (st.tags a) st.mem st'.mem ∧ Ordered st' := by
  have plain : MemMoves Plain st.mem st'.mem ∧ Ordered st' →
      MemMoves (st.tags a) st.mem st'.mem ∧ Ordered st' :=
    fun hp => ⟨hp.1.tagged st a, hp.2⟩
  cases a with
  | control op answers => exact controlStep_moves h hstep
  | unlock => exact plain (unlockStep_moves h hstep)
  | post i answer => exact plain (postStep_moves h hstep)
  | wake event => exact plain (wakeStep_moves h hstep)
  | waitBegin maxevents zeroTimeout infinite => exact plain (waitBeginStep_moves h hstep)
  | waiter answers => exact waiterStep_moves h hstep
  | afdComplete a status info =>
    refine plain (onKernelRef_moves (f := WepollEx.afdComplete status info) h ?_ hstep)
    intro s _ harmed
    exact afdComplete_moves rfl harmed status info
  | auxFire a post =>
    exact plain (onKernelRef_moves h
      (fun s hs harmed => auxCallback_moves (h.sound.life a s hs) rfl harmed post) hstep)
  | beginClose post =>
    cases hstep
    have hm := beginClose_moves st.mem post
    exact plain ⟨hm, h.of_plain hm rfl rfl (fun _ => rfl) fun _ => rfl⟩
  | destroy answers => exact plain (destroyStep_moves h hstep)
  | drainDequeue n =>
    obtain ⟨hm, hord⟩ := drainDequeueStep_moves h hstep
    refine ⟨hm.mono ?_, hord⟩
    rintro t rfl
    show Sys.dequeues _ _ = true
    rfl
  | drainDispatch answers => exact drainDispatchStep_moves h hstep
  | finishDestroy => exact plain (finishDestroyStep_moves h hstep)
  | abandon => exact plain (abandonStep_moves h hstep)

end

/-! ## Whole runs -/

theorem sound_create (lifetime : LifetimeMode) (explicitRearm udpProbeEvent : Bool) :
    Sound ⟨fun _ => none, .create lifetime explicitRearm udpProbeEvent⟩ where
  life := fun a s hs => by cases hs
  dangling := fun _ _ => rfl
  table := fun fd a ht => by cases ht
  listing := fun w => by
    have hnone : ∀ a, a ∈ ([] : List Addr) ↔
        Mem.flagged ⟨fun _ => none, .create lifetime explicitRearm udpProbeEvent⟩ w a := by
      intro a
      constructor
      · intro ha
        cases ha
      · rintro ⟨s, hs, _⟩
        cases hs
    cases w with
    | rearm => exact ⟨[], DList.repr_empty, hnone, rfl⟩
    | oneshot => exact ⟨[], DList.repr_empty, hnone, rfl⟩
  registry := ⟨[], HList.repr_empty, fun a => by simp, rfl, Nat.zero_le _⟩
  accounted := rfl

theorem ordered_create (lifetime : LifetimeMode) (explicitRearm udpProbeEvent : Bool) :
    Ordered (.create lifetime explicitRearm udpProbeEvent) :=
  ⟨sound_create lifetime explicitRearm udpProbeEvent, fun hne => absurd rfl hne,
    fun hne => absurd rfl hne, fun hne => absurd rfl hne⟩

theorem Reachable.ordered {start st : Sys} (h : Reachable start st) (h0 : Ordered start) :
    Ordered st := by
  induction h with
  | refl => exact h0
  | step a _ hstep ih => exact (step_moves ih hstep).2

/-- A property that holds at creation and that every step keeps holds in every reachable state. -/
theorem Reachable.invariant {start st : Sys} {P : Sys → Prop} (h : Reachable start st)
    (h0 : Ordered start) (hstart : P start)
    (hstep : ∀ st st' a, Ordered st → P st → st.step a = some st' → P st') : P st := by
  induction h with
  | refl => exact hstart
  | step a hr hs ih => exact hstep _ _ a (hr.ordered h0) ih hs

/-! ## Runs under a condition -/

/-- The states a port reaches by steps that all meet a condition on the state before the step. -/
inductive ReachableWhen (ok : Sys → Act → Prop) (start : Sys) : Sys → Prop
  | refl : ReachableWhen ok start start
  | step {st st' : Sys} (a : Act) : ReachableWhen ok start st → ok st a → st.step a = some st' →
      ReachableWhen ok start st'

section

variable {ok : Sys → Act → Prop} {start st : Sys}

theorem ReachableWhen.reachable (h : ReachableWhen ok start st) : Reachable start st := by
  induction h with
  | refl => exact .refl
  | step a _ _ hstep ih => exact ih.step a hstep

theorem ReachableWhen.ordered (h : ReachableWhen ok start st) (h0 : Ordered start) : Ordered st :=
  h.reachable.ordered h0

theorem ReachableWhen.invariant {P : Sys → Prop} (h : ReachableWhen ok start st)
    (h0 : Ordered start) (hstart : P start)
    (hstep : ∀ st st' a, Ordered st → ok st a → P st → st.step a = some st' → P st') : P st := by
  induction h with
  | refl => exact hstart
  | step a hr hok hs ih => exact hstep _ _ a (hr.ordered h0) hok ih hs

/-- Run a list of steps as long as each one meets the condition. -/
def Sys.runWhen (ok : Sys → Act → Bool) (st : Sys) : List Act → Option Sys
  | [] => some st
  | a :: as => if ok st a then (st.step a).bind fun st => st.runWhen ok as else none

theorem ReachableWhen.of_run {ok : Sys → Act → Bool} {mid : Sys} {as : List Act}
    (h : ReachableWhen (fun st a => ok st a = true) start mid)
    (hrun : mid.runWhen ok as = some st) :
    ReachableWhen (fun st a => ok st a = true) start st := by
  induction as generalizing mid with
  | nil =>
    cases hrun
    exact h
  | cons a as ih =>
    unfold Sys.runWhen at hrun
    split at hrun
    · rename_i hok
      obtain ⟨next, hstep, hrest⟩ := Option.bind_eq_some_iff.mp hrun
      exact ih (h.step a hok hstep) hrest
    · cases hrun

theorem Reachable.of_run {mid : Sys} {as : List Act} (h : Reachable start mid)
    (hrun : mid.run as = some st) : Reachable start st := by
  induction as generalizing mid with
  | nil =>
    cases hrun
    exact h
  | cons a as ih =>
    obtain ⟨next, hstep, hrest⟩ := Option.bind_eq_some_iff.mp hrun
    exact ih (h.step a hstep) hrest

end

end WepollEx
