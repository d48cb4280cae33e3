import WepollEx.Wait.Machine

/-!
# Timed waits do not return early

A finite wait returns 0 only after the clock that governs it has shown that the whole timeout has
passed, and never asks the completion port to block longer than the time that was left at its
latest reading.
-/

namespace WepollEx.Wait

open Transition

/-- The reading was taken from the clock that governed the wait at that moment. -/
def Reading.governs (r : Reading) : Prop :=
  r.clock = if r.preciseEnabled then .interrupt else .tick

instance (r : Reading) : Decidable r.governs := by
  unfold Reading.governs
  infer_instance

/-- A duration in a clock's unit, capped at what 64 bits can hold. -/
def Clock.capped (clock : Clock) (nanoseconds : Nat) : Nat :=
  min UINT64_MAX (clock.roundUp nanoseconds)

namespace Call

/-- The whole timeout has passed on a governing clock. -/
def Expired (c : Call) : Prop :=
  c.state.timeout.infinite = false ∧ (c.state.timeout.milliseconds ≠ 0 → ∃ r ∈ c.readings,
    r.governs ∧ c.state.start r.clock + c.state.duration r.clock ≤ r.value ∧
      (r.clock = .interrupt → c.state.preciseClock = true))

/-- A dequeue may block for `waitMs` after `reading`. -/
def Bounded (c : Call) (waitMs : Nat) (reading : Option Reading) : Prop :=
  c.state.timeout.infinite = false → waitMs = 0 ∨ ∃ r, reading = some r ∧ r.governs ∧
    (r.clock = .interrupt → c.state.preciseClock = true) ∧
    waitMs ≤ Clock.tick.roundUp
      ((c.state.start r.clock + c.state.duration r.clock - r.value) * r.clock.unit)

/-- What holds of a call at every point of the wait. -/
structure Sound (clocks : Clock → Nat) (c : Call) : Prop where
  request : c.request.timeout = .ok c.state.timeout
  start : ∀ clock, c.state.start clock ≤ clocks clock
  precise : c.state.preciseClock = true → c.state.timeout.precise = true
  enabled : c.state.preciseEnabled = true → c.state.preciseClock = true
  dequeues : ∀ d ∈ c.dequeues, c.Bounded d.waitMs d.reading

/-- What holds of a call at its current point. -/
def AtPc (c : Call) : Prop :=
  match c.pc with
  | .start => c.state.preciseEnabled = false ∧ c.dequeues = []
  | .initializePrecise => c.state.preciseEnabled = false ∧ c.dequeues = []
  | .zeroDeadline => c.state.preciseEnabled = false
  | .lockCheck _ => c.state.preciseEnabled = false
  | .lockTry => c.state.preciseEnabled = false ∧ c.state.timeout.infinite = false
  | .lockBusy => c.state.preciseEnabled = false ∧ c.state.timeout.infinite = false
  | .pollWake waitMs _ => c.Bounded waitMs c.readings.head?
  | .dequeue waitMs _ => c.Bounded waitMs c.readings.head?
  | .coalesceStart result => 0 < result
  | .coalesce result _ _ => 0 < result
  | .coalesceZero result _ _ => 0 < result
  | .coalesceNext result _ _ => 0 < result
  | .done => c.result = 0 → c.Expired ∨ c.woke = some none
  | .returned => c.result = 0 → c.Expired ∨ c.woke = some none
  | _ => True

/-- The call has not begun or its arguments were rejected. -/
def Rejected (c : Call) : Prop :=
  (c.pc = .idle ∨ (c.pc = .returned ∧ c.result = -1)) ∧ c.dequeues = []

/-- The call has done nothing, or keeps to its deadline. -/
def Timed (clocks : Clock → Nat) (c : Call) : Prop :=
  c.Rejected ∨ (c.Sound clocks ∧ c.AtPc)

section

variable {clocks : Clock → Nat} {c d : Call}

theorem Sound.congr (h : c.Sound clocks) (state : d.state = c.state)
    (request : d.request = c.request) (dequeues : d.dequeues = c.dequeues) : d.Sound clocks := by
  refine ⟨?_, ?_, ?_, ?_, ?_⟩
  · rw [state, request]
    exact h.request
  · rw [state]
    exact h.start
  · rw [state]
    exact h.precise
  · rw [state]
    exact h.enabled
  · rw [dequeues]
    unfold Bounded
    rw [state]
    exact h.dequeues

theorem Sound.advance {clocks' : Clock → Nat} (h : c.Sound clocks)
    (hle : ∀ clock, clocks clock ≤ clocks' clock) : c.Sound clocks' :=
  { h with start := fun clock => (h.start clock).trans (hle clock) }

theorem Sound.read (h : c.Sound clocks) (clock : Clock) : (c.read clocks clock).Sound clocks :=
  h.congr rfl rfl rfl

theorem Sound.goto (h : c.Sound clocks) (pc : Pc) : (c.goto pc).Sound clocks :=
  h.congr rfl rfl rfl

theorem Sound.finish (h : c.Sound clocks) (result : Int) : (c.finish result).Sound clocks :=
  h.congr rfl rfl rfl

theorem Sound.giveUp (h : c.Sound clocks) (result : Int) : (c.giveUp result).Sound clocks :=
  h.congr rfl rfl rfl

theorem Sound.asked (h : c.Sound clocks) {waitMs : Nat} (hb : c.Bounded waitMs c.readings.head?) :
    (c.asked waitMs).Sound clocks := by
  refine ⟨h.request, h.start, h.precise, h.enabled, fun e he => ?_⟩
  rcases List.mem_cons.mp he with rfl | he
  · exact hb
  · exact h.dequeues e he

theorem Sound.countZeroDequeue (h : c.Sound clocks) : c.countZeroDequeue.Sound clocks := by
  unfold Call.countZeroDequeue
  split
  · exact h.congr rfl rfl rfl
  · exact h

theorem Bounded.zero (c : Call) (reading : Option Reading) : c.Bounded 0 reading :=
  fun _ => .inl rfl

/-! ## Readings -/

theorem governing_governs (clocks : Clock → Nat) (c : Call) :
    (⟨c.state.governing, clocks c.state.governing, c.state.preciseEnabled⟩ : Reading).governs :=
  rfl

theorem Sound.governing_precise (h : c.Sound clocks) (hclock : c.state.governing = .interrupt) :
    c.state.preciseClock = true := by
  apply h.enabled
  unfold WaitState.governing at hclock
  by_contra hno
  simp [hno] at hclock

/-- An expiry check that succeeds has read the governing clock past the deadline. -/
theorem Sound.expired (h : c.Sound clocks) (hclocks : ∀ clock, clocks clock < 2 ^ 64)
    (hexp : epWaitExpired (clocks c.state.governing) c.state = true) :
    (c.read clocks c.state.governing).Expired := by
  simp only [epWaitExpired, Bool.and_eq_true, Bool.not_eq_true', decide_eq_true_eq] at hexp
  refine ⟨hexp.1, fun _ => ⟨_, List.mem_cons_self, governing_governs clocks c, ?_,
    h.governing_precise⟩⟩
  exact remaining_zero (h.start _) (hclocks _) hexp.2

/-- The lock acquisition is governed by the millisecond tick. -/
theorem Sound.lockExpired (h : c.Sound clocks) (hclocks : ∀ clock, clocks clock < 2 ^ 64)
    (unarmed : c.state.preciseEnabled = false) (finite : c.state.timeout.infinite = false)
    (hexp : elapsed (clocks .tick) c.state.startMs ≥ c.state.timeout.milliseconds) :
    (c.read clocks .tick).Expired := by
  refine ⟨finite, fun _ => ⟨⟨.tick, clocks .tick, c.state.preciseEnabled⟩, List.mem_cons_self,
    ?_, ?_, nofun⟩⟩
  · simp only [Reading.governs, unarmed]
    rfl
  · have hstart : c.state.startMs ≤ clocks .tick := h.start .tick
    rw [elapsed_eq hstart (hclocks .tick)] at hexp
    show c.state.startMs + c.state.timeout.milliseconds ≤ clocks .tick
    omega

/-! ## Steps of one call -/

theorem Timed.of_finish (h : c.Sound clocks) {result : Int}
    (hzero : result = 0 → c.Expired ∨ c.woke = some none) : (c.finish result).Timed clocks :=
  .inr ⟨h.finish result, hzero⟩

theorem Timed.of_giveUp (h : c.Sound clocks) {result : Int}
    (hzero : result = 0 → c.Expired ∨ c.woke = some none) : (c.giveUp result).Timed clocks :=
  .inr ⟨h.giveUp result, hzero⟩

theorem Timed.of_goto (h : c.Sound clocks) {pc : Pc} (hpc : (c.goto pc).AtPc) :
    (c.goto pc).Timed clocks :=
  .inr ⟨h.goto pc, hpc⟩

theorem expireOr_timed (h : c.Sound clocks) (hclocks : ∀ clock, clocks clock < 2 ^ 64)
    (asked : Bool) {next : Pc} (hnext : ∀ d : Call, (d.goto next).AtPc) :
    (c.expireOr clocks asked next).Timed clocks := by
  unfold expireOr checkExpired
  cases asked with
  | false => exact .of_goto h (hnext _)
  | true =>
    cases hinf : c.state.timeout.infinite with
    | true => exact .of_goto h (hnext _)
    | false =>
      by_cases hexp : epWaitExpired (clocks c.state.governing) c.state = true
      · simp only [hexp, if_true, Bool.false_eq_true, if_false]
        exact .of_finish (h.read _) fun _ => .inl (h.expired hclocks hexp)
      · simp only [hexp, if_true, Bool.false_eq_true, if_false]
        exact .of_goto (h.read _) (hnext _)

theorem initializeState_timed (h : c.Sound clocks) (hpc : c.state.preciseEnabled = false)
    (hfresh : c.dequeues = []) : (c.initializeState clocks).Timed clocks := by
  refine .inr ⟨⟨h.request, ?_, h.precise, h.enabled, ?_⟩, hpc, hfresh⟩
  · intro clock
    cases clock with
    | tick => exact Nat.le_refl _
    | interrupt => exact h.start .interrupt
  · intro d hd
    rw [show (c.initializeState clocks).dequeues = c.dequeues from rfl, hfresh] at hd
    cases hd

theorem initializePrecise_timed (h : c.Sound clocks) (query : Bool)
    (hpc : c.state.preciseEnabled = false) (hfresh : c.dequeues = []) :
    (c.initializePrecise clocks query).Timed clocks := by
  unfold initializePrecise
  split
  · rename_i hwants
    simp only [wantsPrecise, Bool.and_eq_true] at hwants
    refine .inr ⟨⟨h.request, ?_, fun _ => hwants.1.1.1, fun _ => rfl, ?_⟩, hpc⟩
    · intro clock
      cases clock with
      | tick => exact h.start .tick
      | interrupt => exact Nat.le_refl _
    · intro d hd
      change d ∈ c.dequeues at hd
      rw [hfresh] at hd
      cases hd
  · exact .of_goto h hpc

theorem zeroDeadline_timed (h : c.Sound clocks) (hpc : c.state.preciseEnabled = false) :
    (c.zeroDeadline clocks).Timed clocks := by
  unfold zeroDeadline
  split
  · exact .inr ⟨h.congr rfl rfl rfl, hpc⟩
  · exact .of_goto h hpc

theorem lockCheck_timed (h : c.Sound clocks) (hclocks : ∀ clock, clocks clock < 2 ^ 64)
    (hpc : c.state.preciseEnabled = false) (finite : c.state.timeout.infinite = false)
    (first : Bool) : (c.lockCheck clocks first).Timed clocks := by
  unfold lockCheck
  split
  · unfold Call.lockExpired
    dsimp only
    split
    · rename_i hexp
      exact .of_giveUp (h.read _) fun _ =>
        .inl (h.lockExpired hclocks hpc finite (of_decide_eq_true hexp))
    · exact .of_goto (h.read _) ⟨hpc, finite⟩
  · exact .of_goto h ⟨hpc, finite⟩

theorem lockBusy_timed (h : c.Sound clocks) (hclocks : ∀ clock, clocks clock < 2 ^ 64)
    (hpc : c.state.preciseEnabled = false) (finite : c.state.timeout.infinite = false)
    (closing : Bool) : (c.lockBusy clocks closing).Timed clocks := by
  unfold lockBusy
  split
  · exact .of_giveUp h (by simp)
  split
  · rename_i hzero
    exact .of_giveUp h fun _ => .inl ⟨finite, fun hne => absurd hzero hne⟩
  unfold Call.lockExpired
  dsimp only
  split
  · rename_i hexp
    exact .of_giveUp (h.read _) fun _ =>
      .inl (h.lockExpired hclocks hpc finite (of_decide_eq_true hexp))
  · exact .of_goto (h.read _) hpc

theorem loopTop_timed (h : c.Sound clocks) (answers : Answers) :
    (c.loopTop answers).Timed clocks := by
  unfold loopTop
  split
  · exact .of_finish h (by simp)
  split
  · rename_i hn
    exact .of_goto h hn
  · exact .of_goto h trivial

theorem arm_timed (h : c.Sound clocks) (answers : Answers) : (c.arm answers).Timed clocks := by
  unfold arm
  split
  · exact .of_finish h (by simp)
  dsimp only
  split
  · refine .of_finish h fun hzero => ?_
    split at hzero <;> omega
  split
  · rename_i hn
    exact .of_goto h hn
  · exact .of_goto h trivial

theorem dispatched_timed (h : c.Sound clocks) (timeoutPacket : Bool) (answers : Answers) :
    (c.dispatched timeoutPacket answers).Timed clocks := by
  unfold dispatched
  split
  · rename_i hn
    exact .of_goto h hn
  split
  · exact .of_finish h (by simp)
  · exact .of_goto h trivial

/-- A retry slice is shorter than what it replaces. -/
theorem sliced_atPc {waitMs : Nat} (hb : c.Bounded waitMs c.readings.head?) (hfinite : waitMs < INFINITE ∨
    c.state.timeout.infinite = true) (deferred : Bool) :
    (c.goto (c.sliced waitMs deferred)).AtPc := by
  unfold sliced
  split
  · rename_i hslice
    show c.Bounded EP_DEFERRED_REARM_RETRY_MS c.readings.head?
    intro hinf
    simp only [hinf, Bool.and_eq_true, Bool.or_eq_true, decide_eq_true_eq] at hslice hfinite
    have hlong : EP_DEFERRED_REARM_RETRY_MS ≤ waitMs := by
      simp only [EP_DEFERRED_REARM_RETRY_MS] at hslice ⊢
      rcases hfinite with hlt | hno
      · rcases hslice.2 with heq | hgt <;> omega
      · cases hno
    rcases hb hinf with hzero | ⟨r, hr, hgov, hclock, hle⟩
    · rw [hzero] at hlong
      exact absurd hlong (by decide)
    · exact .inr ⟨r, hr, hgov, hclock, hlong.trans hle⟩
  · exact hb

theorem backstop_timed (h : c.Sound clocks) (hclocks : ∀ clock, clocks clock < 2 ^ 64)
    (deferred : Bool) : (c.backstop clocks deferred).Timed clocks := by
  unfold backstop
  split
  · rename_i hinf
    exact .of_goto h (sliced_atPc (fun hno => by rw [hinf] at hno; cases hno) (.inr hinf) deferred)
  · rename_i hfin
    dsimp only
    have hle := backstop_finite (Bool.eq_false_iff.mpr hfin) (clocks c.state.governing)
    refine .of_goto (h.read _)
      (sliced_atPc (c := c.read clocks c.state.governing) ?_ (.inl hle.2) deferred)
    intro _
    refine .inr ⟨_, rfl, governing_governs clocks c, h.governing_precise, ?_⟩
    exact hle.1.trans (remaining_eq (h.start _) (hclocks _)).le

theorem dequeue_timed (h : c.Sound clocks) {waitMs : Nat}
    (hb : c.Bounded waitMs c.readings.head?) (deferredWait : Bool) (answers : Answers) :
    (c.dequeue waitMs deferredWait answers).Timed clocks := by
  unfold dequeue
  cases answers.dequeue with
  | fault => exact .of_finish h (by simp)
  | timeout =>
    dsimp only
    split
    · exact .of_finish (h.asked hb) (by simp)
    · exact .of_goto (h.asked hb) trivial
  | error => exact .of_finish (h.asked hb) (by simp)
  | removed entries =>
    cases entries with
    | nil => exact .of_goto (h.asked hb) trivial
    | cons e rest => exact .of_goto (h.asked hb).countZeroDequeue trivial

theorem zeroBudget_timed (h : c.Sound clocks) : (c.zeroBudget clocks).Timed clocks := by
  unfold zeroBudget pastDeadline
  dsimp only
  split
  · rename_i hasked
    dsimp only
    split
    · simp only [isZero, Bool.and_eq_true, Bool.not_eq_true', decide_eq_true_eq] at hasked
      exact .of_finish (h.read _) fun _ =>
        .inl ⟨hasked.1.1, fun hne => absurd hasked.1.2 hne⟩
    · exact .of_goto (h.read _) trivial
  · exact .of_goto h trivial

theorem coalesce_timed (h : c.Sound clocks) {result : Nat} (hpos : 0 < result)
    (dequeues deadline : Nat) (answers : Answers) :
    (c.coalesce result dequeues deadline answers).Timed clocks := by
  have hne : ∀ {d : Call}, (result : Int) = 0 → d.Expired ∨ d.woke = some none := by omega
  have hasked := h.asked (.zero c _)
  unfold coalesce
  split
  · cases answers.dequeue with
    | fault => exact .of_finish h hne
    | timeout => exact .of_finish hasked hne
    | error => exact .of_finish hasked hne
    | removed entries =>
      cases entries with
      | nil => exact .of_finish hasked hne
      | cons e rest =>
        exact .of_goto hasked.countZeroDequeue (Nat.lt_of_lt_of_le hpos (Nat.le_add_right _ _))
  · exact .of_finish h hne

theorem coalesceZero_timed (h : c.Sound clocks) {result : Nat} (hpos : 0 < result)
    (dequeues deadline : Nat) : (c.coalesceZero clocks result dequeues deadline).Timed clocks := by
  have hne : ∀ {d : Call}, (result : Int) = 0 → d.Expired ∨ d.woke = some none := by omega
  unfold coalesceZero pastDeadline
  dsimp only
  split
  · dsimp only
    split
    · exact .of_finish (h.read _) hne
    · exact .of_goto (h.read _) hpos
  · exact .of_goto h hpos

theorem coalesceNext_timed (h : c.Sound clocks) {result : Nat} (hpos : 0 < result)
    (dequeues deadline : Nat) (closing : Bool) :
    (c.coalesceNext clocks result dequeues deadline closing).Timed clocks := by
  have hne : ∀ {d : Call}, (result : Int) = 0 → d.Expired ∨ d.woke = some none := by omega
  unfold coalesceNext pastDeadline
  split
  · exact .of_finish h hne
  dsimp only
  split
  · dsimp only
    split
    · exact .of_finish (h.read _) hne
    · exact .of_goto (h.read _) hpos
  · exact .of_goto h hpos

theorem reportWake_timed (h : c.Sound clocks) (event : Option WakeEvent) (timestamp : Nat) :
    (c.reportWake event timestamp).Timed clocks := by
  cases event with
  | none => exact .inr ⟨h.congr rfl rfl rfl, fun _ => .inr rfl⟩
  | some event => exact .inr ⟨h.congr rfl rfl rfl, fun hzero => by cases hzero⟩

end

end Call

/-! ## Steps of the system -/

/-- A step of `thread` has left the clocks and the other calls alone and `thread` on time. -/
def State.Keeps (st : State) (thread : Nat) (st' : State) : Prop :=
  st'.clocks = st.clocks ∧
    ∃ c : Call, st'.calls = Function.update st.calls thread c ∧ c.Timed st.clocks

namespace State

variable {st : State} {thread : Nat} {c : Call}

theorem Keeps.of_set (h : c.Timed st.clocks) : st.Keeps thread (st.set thread c) :=
  ⟨rfl, c, rfl, h⟩

theorem lockCheck_keeps (h : c.Sound st.clocks) (hclocks : ∀ clock, st.clocks clock < 2 ^ 64)
    (hpc : c.state.preciseEnabled = false) (first : Bool) (answers : Answers) {st' : State}
    (hstep : st.lockCheck thread c first answers = some st') : st.Keeps thread st' := by
  unfold State.lockCheck at hstep
  split at hstep
  · split at hstep
    · cases hstep
      exact .of_set (.of_giveUp h (by simp))
    split at hstep
    · cases hstep
    · cases hstep
      exact ⟨rfl, _, rfl, .of_goto h trivial⟩
  · rename_i hfin
    cases hstep
    exact .of_set (Call.lockCheck_timed h hclocks hpc (Bool.eq_false_iff.mpr hfin) first)

theorem lockTry_keeps (h : c.Sound st.clocks) (hpc : c.state.preciseEnabled = false)
    (finite : c.state.timeout.infinite = false) (answers : Answers) :
    st.Keeps thread (st.lockTry thread c answers) := by
  unfold State.lockTry
  split
  · exact .of_set (.of_giveUp h (by simp))
  split
  · exact .of_set (.of_goto h ⟨hpc, finite⟩)
  · exact ⟨rfl, _, rfl, .of_goto h trivial⟩

theorem timerInitialize_same (st : State) (answers : Answers) :
    (st.timerInitialize answers).2.clocks = st.clocks ∧
      (st.timerInitialize answers).2.calls = st.calls := by
  unfold timerInitialize
  split
  · exact ⟨rfl, rfl⟩
  · exact ⟨rfl, rfl⟩
  · split <;> exact ⟨rfl, rfl⟩

theorem timerArm_same (st : State) (delay : Nat) (answers : Answers) :
    (st.timerArm delay answers).2.clocks = st.clocks ∧
      (st.timerArm delay answers).2.calls = st.calls := by
  have h := st.timerInitialize_same answers
  unfold timerArm
  split
  · exact ⟨rfl, rfl⟩
  generalize st.timerInitialize answers = r at h ⊢
  obtain ⟨available, st'⟩ := r
  dsimp only
  split
  · exact h
  split <;> exact h

theorem attemptTimer_keeps (h : c.Sound st.clocks) (deferred : Bool) (answers : Answers) :
    st.Keeps thread (st.attemptTimer thread c deferred answers) := by
  unfold attemptTimer
  split
  · dsimp only
    split
    · rename_i hclock
      have hsame := st.timerInitialize_same answers
      generalize st.timerInitialize answers = r at hsame ⊢
      obtain ⟨available, st'⟩ := r
      refine ⟨hsame.1, _, congrArg (Function.update · thread _) hsame.2, .inr ⟨?_, trivial⟩⟩
      exact ⟨h.request, h.start, h.precise, fun _ => hclock, h.dequeues⟩
    · exact .of_set (.inr ⟨⟨h.request, h.start, h.precise, h.enabled, h.dequeues⟩, trivial⟩)
  · exact .of_set (.of_goto h trivial)

theorem armTimer_keeps (h : c.Sound st.clocks) (hclocks : ∀ clock, st.clocks clock < 2 ^ 64)
    (deferred : Bool) (answers : Answers) :
    st.Keeps thread (st.armTimer thread c deferred answers) := by
  unfold armTimer
  split
  · rename_i hfirst
    simp only [Bool.and_eq_true, decide_eq_true_eq] at hfirst
    dsimp only
    have hgov : c.state.governing = .interrupt := by
      unfold WaitState.governing
      rw [hfirst.1]
      rfl
    split
    · rename_i hzero
      -- the 100-ns clock governs here, and no interval is left on it
      refine .of_set (.of_finish (h.read _) fun _ => .inl ?_)
      have hfin := WaitRequest.finite_of_precise h.request (h.precise (h.enabled hfirst.1))
      have hgone : elapsed (st.clocks .interrupt) c.state.start100ns ≥
          c.state.timeout.intervals100ns := by
        unfold epWaitRemaining100ns at hzero
        by_contra hlt
        rw [if_neg hlt] at hzero
        omega
      have hexp := h.expired hclocks
        (by simp [epWaitExpired, hfin, epWaitRemainingMilliseconds, hfirst.1, hgov, hgone])
      rwa [hgov] at hexp
    · have hsame := st.timerArm_same (epWaitRemaining100ns (st.clocks .interrupt) c.state) answers
      generalize st.timerArm (epWaitRemaining100ns (st.clocks .interrupt) c.state) answers = r
        at hsame ⊢
      obtain ⟨generation, st'⟩ := r
      dsimp only
      split
      · refine ⟨hsame.1, _, congrArg (Function.update · thread _) hsame.2, .inr ⟨?_, trivial⟩⟩
        exact ⟨h.request, h.start, h.precise, nofun, h.dequeues⟩
      · refine ⟨hsame.1, _, congrArg (Function.update · thread _) hsame.2, .inr ⟨?_, trivial⟩⟩
        exact ⟨h.request, h.start, h.precise, h.enabled, h.dequeues⟩
  · exact .of_set (.of_goto h trivial)

theorem pollWake_keeps (h : c.Sound st.clocks) {waitMs : Nat}
    (hb : c.Bounded waitMs c.readings.head?) (deferredWait : Bool) :
    st.Keeps thread (st.pollWake thread c waitMs deferredWait) := by
  unfold pollWake
  split
  · exact .of_set (.of_goto h (Call.Bounded.zero c _))
  · exact .of_set (.of_goto h hb)

theorem takeWake_keeps (h : c.Sound st.clocks) {next : Pc} (hnext : (c.goto next).AtPc) :
    st.Keeps thread (st.takeWake thread c next) := by
  unfold takeWake
  split
  · exact .of_set (.of_goto h hnext)
  · exact ⟨rfl, _, rfl, .of_goto h trivial⟩
  · exact ⟨rfl, _, rfl, .of_goto h trivial⟩

/-- One step of a wait keeps it on time. -/
theorem wait_keeps {st' : State} (h : (st.calls thread).Timed st.clocks)
    (hclocks : ∀ clock, st.clocks clock < 2 ^ 64) (answers : Answers)
    (hstep : st.wait thread answers = some st') : st.Keeps thread st' := by
  unfold State.wait at hstep
  dsimp only at hstep
  generalize st.calls thread = c at h hstep
  rcases h with ⟨hidle | ⟨hreturned, -⟩, -⟩ | ⟨hsound, hpc⟩
  · rw [hidle] at hstep
    cases hstep
  · rw [hreturned] at hstep
    cases hstep
  have hnext : ∀ d : Call, (d.goto .loopTop).AtPc := fun _ => trivial
  unfold Call.AtPc at hpc
  split at hstep
  all_goals rename_i heq; simp only [heq] at hpc; try cases hstep
  · exact .of_set (Call.initializeState_timed hsound hpc.1 hpc.2)
  · exact .of_set (Call.initializePrecise_timed hsound _ hpc.1 hpc.2)
  · exact .of_set (Call.zeroDeadline_timed hsound hpc)
  · exact lockCheck_keeps hsound hclocks hpc _ answers hstep
  · exact lockTry_keeps hsound hpc.1 hpc.2 answers
  · exact .of_set (Call.lockBusy_timed hsound hclocks hpc.1 hpc.2 _)
  · split
    · exact .of_set (.of_finish hsound (by simp))
    · exact .of_set (.of_goto hsound trivial)
  · exact .of_set (Call.loopTop_timed hsound answers)
  · exact .of_set (Call.arm_timed hsound answers)
  · exact attemptTimer_keeps hsound _ answers
  · exact .of_set (Call.expireOr_timed hsound hclocks _ fun _ => trivial)
  · exact armTimer_keeps hsound hclocks _ answers
  · exact .of_set (Call.expireOr_timed hsound hclocks _ fun _ => trivial)
  · exact .of_set (Call.backstop_timed hsound hclocks _)
  · exact pollWake_keeps hsound hpc _
  · exact .of_set (Call.dequeue_timed hsound hpc _ answers)
  · exact takeWake_keeps hsound trivial
  · exact .of_set (Call.expireOr_timed hsound hclocks _ hnext)
  · exact .of_set (Call.dispatched_timed hsound _ answers)
  · exact takeWake_keeps hsound trivial
  · exact .of_set (Call.expireOr_timed hsound hclocks _ fun _ => trivial)
  · exact .of_set (Call.zeroBudget_timed hsound)
  · exact .of_set (Call.expireOr_timed hsound hclocks _ hnext)
  · exact .of_set (.of_goto (hsound.read _) hpc)
  · exact .of_set (Call.coalesce_timed hsound hpc _ _ answers)
  · exact .of_set (Call.coalesceZero_timed hsound hpc _ _)
  · exact .of_set (Call.coalesceNext_timed hsound hpc _ _ _)
  · exact ⟨rfl, _, rfl, Call.reportWake_timed hsound _ _⟩
  · exact ⟨rfl, _, rfl, .of_goto hsound hpc⟩

/-- A new call starts with no reading and no dequeue. -/
theorem begin_keeps {st' : State} {request : WaitRequest} {maxevents : Int} {basicEvents : Bool}
    (hstep : st.begin thread request maxevents basicEvents = some st') : st.Keeps thread st' := by
  unfold State.begin at hstep
  split at hstep
  · cases hstep
  dsimp only at hstep
  split at hstep
  · cases hstep
    exact .of_set (.inl ⟨.inr ⟨rfl, rfl⟩, rfl⟩)
  · rename_i timeout htimeout
    split at hstep
    · cases hstep
      exact .of_set (.inl ⟨.inr ⟨rfl, rfl⟩, rfl⟩)
    · cases hstep
      refine .of_set (.inr ⟨⟨htimeout, ?_, nofun, nofun, nofun⟩, rfl, rfl⟩)
      intro clock
      cases clock <;> exact Nat.zero_le _

end State

/-- Every call is on time and the clocks have not overflowed. -/
structure State.OnTime (st : State) : Prop where
  clocks : ∀ clock, st.clocks clock < 2 ^ 64
  calls : ∀ thread, (st.calls thread).Timed st.clocks

theorem State.Keeps.onTime {st st' : State} {thread : Nat} (h : st.OnTime)
    (hk : st.Keeps thread st') : st'.OnTime := by
  obtain ⟨hclocks, c, hcalls, hc⟩ := hk
  refine ⟨fun clock => hclocks ▸ h.clocks clock, fun other => ?_⟩
  rw [hclocks, hcalls]
  by_cases heq : other = thread
  · rw [heq, Function.update_self]
    exact hc
  · rw [Function.update_of_ne heq]
    exact h.calls other

theorem Call.Timed.advance {clocks clocks' : Clock → Nat} {c : Call} (h : c.Timed clocks)
    (hle : ∀ clock, clocks clock ≤ clocks' clock) : c.Timed clocks' := by
  rcases h with hrejected | ⟨hsound, hpc⟩
  · exact .inl hrejected
  · exact .inr ⟨hsound.advance hle, hpc⟩

theorem State.OnTime.congr {st st' : State} (h : st.OnTime) (clocks : st'.clocks = st.clocks)
    (calls : st'.calls = st.calls) : st'.OnTime := by
  refine ⟨fun clock => clocks ▸ h.clocks clock, fun thread => ?_⟩
  rw [clocks, calls]
  exact h.calls thread

theorem State.request_same (st : State) (event : Option WakeEvent) (closing : Bool) :
    (st.request event closing).clocks = st.clocks ∧ (st.request event closing).calls = st.calls := by
  unfold State.request
  split
  · exact ⟨rfl, rfl⟩
  · dsimp only
    split <;> exact ⟨rfl, rfl⟩

theorem step_onTime {st st' : State} {a : Act} (h : st.OnTime) (hstep : st.step a = some st') :
    st'.OnTime := by
  cases a with
  | advance clock by' =>
    simp only [State.step, State.advance] at hstep
    split at hstep
    · rename_i hfits
      cases hstep
      have hle : ∀ other, st.clocks other ≤
          Function.update st.clocks clock (st.clocks clock + by') other := by
        intro other
        by_cases heq : other = clock
        · rw [heq, Function.update_self]
          omega
        · rw [Function.update_of_ne heq]
      refine ⟨fun other => ?_, fun thread => (h.calls thread).advance hle⟩
      by_cases heq : other = clock
      · simpa [heq] using hfits
      · simpa [Function.update_of_ne heq] using h.clocks other
    · cases hstep
  | request event closing =>
    cases hstep
    exact h.congr (st.request_same event closing).1 (st.request_same event closing).2
  | post posted =>
    simp only [State.step, State.post] at hstep
    split at hstep
    · cases hstep
    · cases hstep
      split <;> exact h.congr rfl rfl
  | begin thread request maxevents basicEvents => exact (State.begin_keeps hstep).onTime h
  | wait thread answers =>
    exact (State.wait_keeps (h.calls thread) h.clocks answers hstep).onTime h

theorem reach_onTime {clocks : Clock → UInt64} {query : Bool} {st : State}
    (h : Reach State.step (.create clocks query) st) : st.OnTime := by
  refine h.invariant ⟨fun clock => (clocks clock).toNat_lt, fun _ => .inl ⟨.inl rfl, rfl⟩⟩ ?_
  intro s s' a hs hstep
  exact step_onTime hs hstep

/-! ## Deadlines -/

/-- What a wait call owes its caller.  Durations are those of the request, rounded up to the unit
of the governing clock and capped at 64 bits. -/
structure Call.Punctual (c : Call) : Prop where
  /-- A finite wait returns 0 without a wake only after its whole duration. -/
  returns : c.pc = .returned → c.result = 0 → c.woke = none →
    ∀ T, c.request.nanoseconds = some T → 0 < T → ∃ r ∈ c.readings, r.governs ∧
      c.state.start r.clock + r.clock.capped T ≤ r.value
  /-- No dequeue may block longer than what was left, rounded up to milliseconds. -/
  dequeues : ∀ d ∈ c.dequeues, ∀ T, c.request.nanoseconds = some T → d.waitMs = 0 ∨
    ∃ r, d.reading = some r ∧ r.governs ∧ d.waitMs ≤ Clock.tick.roundUp
      ((c.state.start r.clock + r.clock.capped T - r.value) * r.clock.unit)
  /-- A wait without a bound returns 0 only by consuming an untagged wake. -/
  unbounded : c.pc = .returned → c.result = 0 → c.request.nanoseconds = none →
    c.woke = some none

/-- The timeout in the unit of a clock that the wait may use is the capped duration. -/
theorem Call.Sound.duration_eq {clocks : Clock → Nat} {c : Call} (h : c.Sound clocks) {T : Nat}
    (finite : c.request.nanoseconds = some T) {clock : Clock}
    (hclock : clock = .interrupt → c.state.preciseClock = true) :
    c.state.duration clock = clock.capped T := by
  have hconv := WaitRequest.converted h.request finite
  cases clock with
  | tick => exact hconv.milliseconds
  | interrupt =>
    obtain ⟨heq, hle⟩ := hconv.intervals (h.precise (hclock rfl))
    show c.state.timeout.intervals100ns = min UINT64_MAX _
    rw [← heq, Nat.min_eq_right hle]

theorem Call.Timed.punctual {clocks : Clock → Nat} {c : Call} (h : c.Timed clocks) :
    c.Punctual := by
  rcases h with ⟨hpc, hfresh⟩ | ⟨hsound, hpc⟩
  · have hnot : c.pc = .returned → c.result ≠ 0 := by
      intro hreturned hzero
      rcases hpc with hidle | ⟨-, hminus⟩
      · rw [hidle] at hreturned
        cases hreturned
      · omega
    exact ⟨fun hr hz => absurd hz (hnot hr), by rw [hfresh]; nofun,
      fun hr hz => absurd hz (hnot hr)⟩
  unfold Call.AtPc at hpc
  refine ⟨fun hreturned hzero hwoke T finite hpos => ?_, fun d hd T finite => ?_,
    fun hreturned hzero infinite => ?_⟩
  · simp only [hreturned] at hpc
    rcases hpc hzero with ⟨-, hexp⟩ | hwake
    · have hms : c.state.timeout.milliseconds ≠ 0 := by
        rw [(WaitRequest.converted hsound.request finite).milliseconds]
        simp only [UINT64_MAX, Clock.roundUp, Clock.unit]
        omega
      obtain ⟨r, hr, hgov, hle, hclock⟩ := hexp hms
      exact ⟨r, hr, hgov, hsound.duration_eq finite hclock ▸ hle⟩
    · rw [hwoke] at hwake
      cases hwake
  · have hfin := (WaitRequest.converted hsound.request finite).finite
    rcases hsound.dequeues d hd hfin with hnone | ⟨r, hr, hgov, hclock, hle⟩
    · exact .inl hnone
    · exact .inr ⟨r, hr, hgov, hsound.duration_eq finite hclock ▸ hle⟩
  · simp only [hreturned] at hpc
    rcases hpc hzero with ⟨hfin, -⟩ | hwake
    · rw [WaitRequest.unbounded hsound.request infinite] at hfin
      cases hfin
    · exact hwake

/-- Every wait call of every run keeps its deadline. -/
theorem waits_punctual {clocks : Clock → UInt64} {query : Bool} {st : State}
    (h : Reach State.step (.create clocks query) st) (thread : Nat) :
    (st.calls thread).Punctual :=
  ((reach_onTime h).calls thread).punctual

/-- Nothing happens on the port and the dequeue times out. -/
def quiet : Answers where
  lockError := false
  closing := false
  failed := false
  armFailed := false
  drained := 0
  deferred := false
  timerCreated := false
  timerSet := false
  dequeue := .timeout
  timestamp := 0

/-- A wait of 5 ms on an idle port. -/
def shortWait : List Act :=
  .begin 0 (.milliseconds 5) 1 true :: List.replicate 15 (.wait 0 quiet) ++
    .advance .tick 5 :: List.replicate 2 (.wait 0 quiet)

theorem waits_punctual_short : ∃ st, Reach State.step (.create (fun _ => 0) false) st ∧
    (st.calls 0).result = 0 ∧ ∃ r ∈ (st.calls 0).readings, r.governs ∧
      (st.calls 0).state.start r.clock + r.clock.capped 5000000 ≤ r.value := by
  have h : (run State.step (.create (fun _ => 0) false) shortWait).map (fun st =>
      ((st.calls 0).pc, (st.calls 0).result, (st.calls 0).woke,
        (st.calls 0).request.nanoseconds)) =
      some (.returned, 0, none, some 5000000) := by decide +kernel
  obtain ⟨st, hrun, he⟩ := Option.map_eq_some_iff.mp h
  simp only [Prod.mk.injEq] at he
  have hreach := Reach.of_run .refl hrun
  exact ⟨st, hreach, he.2.1,
    (waits_punctual hreach 0).returns he.1 he.2.1 he.2.2.1 _ he.2.2.2 (by decide)⟩

/-- While another wait holds the lock, a wait of 18446744073709552 seconds sees the tick at its
last value. -/
def longWait : List Act :=
  .begin 1 (.milliseconds (-1)) 1 true :: List.replicate 4 (.wait 1 quiet) ++
    .begin 0 (.timespec (some ⟨18446744073709552, 0, by decide⟩)) 1 true ::
      List.replicate 5 (.wait 0 quiet) ++
    [.advance .tick (2 ^ 64 - 1), .wait 0 quiet]

/-- A duration beyond 64 bits of milliseconds is cut off at the cap. -/
theorem long_wait_cut : ∃ st T, Reach State.step (.create (fun _ => 0) false) st ∧
    (st.calls 0).pc = .returned ∧ (st.calls 0).result = 0 ∧ (st.calls 0).woke = none ∧
    (st.calls 0).request.nanoseconds = some T ∧
    ∀ r ∈ (st.calls 0).readings, r.value < (st.calls 0).state.start r.clock + r.clock.roundUp T := by
  have h : (run State.step (.create (fun _ => 0) false) longWait).map (fun st =>
      ((st.calls 0).pc, (st.calls 0).result, (st.calls 0).woke,
        (st.calls 0).request.nanoseconds)) =
      some (.returned, 0, none, some 18446744073709552000000000) := by decide +kernel
  have hearly : (run State.step (.create (fun _ => 0) false) longWait).map (fun st =>
      (st.calls 0).readings.all fun r => r.value < (st.calls 0).state.start r.clock +
        r.clock.roundUp 18446744073709552000000000) = some true := by decide +kernel
  obtain ⟨st, hrun, he⟩ := Option.map_eq_some_iff.mp h
  rw [hrun] at hearly
  simp only [Prod.mk.injEq] at he
  simp only [Option.map_some, Option.some.injEq, List.all_eq_true, decide_eq_true_eq] at hearly
  exact ⟨st, _, Reach.of_run .refl hrun, he.1, he.2.1, he.2.2.1, he.2.2.2, hearly⟩

end WepollEx.Wait
