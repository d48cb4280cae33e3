import WepollEx.Wait.Deadline

/-!
# Wake requests and wake returns

Wake requests that meet a pending wake are merged with it.  The requests between two takes form a
group; each group is reported by the one wait that took it, as a tagged event exactly when it
contains a tagged request, with the payload of the earliest one.
-/

namespace WepollEx.Wait

open Transition

/-! ## Groups of requests -/

/-- Wake requests by the take that consumed them. -/
structure Ledger where
  closed : List (List (Option WakeEvent))
  /-- The requests since the last take. -/
  current : List (Option WakeEvent)
  deriving DecidableEq, Repr

def Ledger.add (l : Ledger) : WakeStep → Ledger
  | .requested event => { l with current := l.current ++ [event] }
  | .taken => ⟨l.closed ++ [l.current], []⟩

def ledger (log : List WakeStep) : Ledger := log.foldl Ledger.add ⟨[], []⟩

/-- The requests of a log. -/
def requestsOf (log : List WakeStep) : List (Option WakeEvent) :=
  log.filterMap fun
    | .requested event => some event
    | .taken => none

/-- What a group of requests asks to be reported: its earliest tagged event. -/
def payload (group : List (Option WakeEvent)) : Option WakeEvent := group.findSome? id

/-- The pending state that a group of requests leaves. -/
def pendingState (group : List (Option WakeEvent)) : WakeState :=
  if group = [] then .none else if (payload group).isSome then .tagged else .untagged

def WakeRecord.event : WakeRecord → WakeEvent
  | .basic event => event
  | .extended event _ _ => event

/-- A wait's result and record report `event`, or no event. -/
def Reported : Option WakeEvent → Int × Option WakeRecord → Prop
  | none, r => r.1 = 0
  | some event, r => r.1 = 1 ∧ r.2.map WakeRecord.event = some event

theorem ledger_append (log : List WakeStep) (s : WakeStep) :
    ledger (log ++ [s]) = (ledger log).add s := by
  simp [ledger, List.foldl_append]

theorem payload_append (group : List (Option WakeEvent)) (event : Option WakeEvent) :
    payload (group ++ [event]) = (payload group).or event := by
  unfold payload
  rw [List.findSome?_append]
  cases event <;> rfl

/-- No request is lost or counted in two groups. -/
theorem ledger_requests (log : List WakeStep) :
    requestsOf log = (ledger log).closed.flatten ++ (ledger log).current := by
  induction log using List.reverseRecOn with
  | nil => rfl
  | append_singleton log s ih =>
    rw [ledger_append]
    unfold requestsOf at ih ⊢
    rw [List.filterMap_append, ih]
    cases s with
    | requested event => simp [Ledger.add]
    | taken => simp [Ledger.add]

/-! ## The holder of `wait_lock` -/

/-- The wait holds `wait_lock`. -/
def Pc.holds : Pc → Bool
  | .idle => false
  | .start => false
  | .initializePrecise => false
  | .zeroDeadline => false
  | .lockCheck _ => false
  | .lockTry => false
  | .lockBusy => false
  | .returned => false
  | _ => true

/-- The payload of a half-done take. -/
def Pc.taking : Pc → Option (Option WakeEvent)
  | .wakeTaken event => some event
  | _ => none

/-- A point of the wait's loop outside a half-done take. -/
def Pc.Inside (pc : Pc) : Prop := pc.holds = true ∧ pc.taking = none

namespace Call

variable (c : Call) (clocks : Clock → Nat) (answers : Answers)

theorem expireOr_inside (asked : Bool) {next : Pc} (h : next.Inside) :
    (c.expireOr clocks asked next).pc.Inside := by
  unfold expireOr
  split
  · dsimp only
    split
    · exact ⟨rfl, rfl⟩
    · exact h
  · exact h

theorem loopTop_inside : (c.loopTop answers).pc.Inside := by
  unfold loopTop
  split
  · exact ⟨rfl, rfl⟩
  split <;> exact ⟨rfl, rfl⟩

theorem arm_inside : (c.arm answers).pc.Inside := by
  unfold arm
  split
  · exact ⟨rfl, rfl⟩
  dsimp only
  split
  · exact ⟨rfl, rfl⟩
  split <;> exact ⟨rfl, rfl⟩

theorem sliced_inside (waitMs : Nat) (deferred : Bool) : (c.sliced waitMs deferred).Inside := by
  unfold sliced
  split <;> exact ⟨rfl, rfl⟩

theorem backstop_inside (deferred : Bool) : (c.backstop clocks deferred).pc.Inside := by
  unfold backstop
  split
  · exact c.sliced_inside _ _
  · exact c.sliced_inside _ _

theorem dequeue_inside (waitMs : Nat) (deferredWait : Bool) :
    (c.dequeue waitMs deferredWait answers).pc.Inside := by
  unfold dequeue
  cases answers.dequeue with
  | timeout =>
    dsimp only
    split <;> exact ⟨rfl, rfl⟩
  | removed entries => cases entries <;> exact ⟨rfl, rfl⟩
  | _ => exact ⟨rfl, rfl⟩

theorem dispatched_inside (timeoutPacket : Bool) :
    (c.dispatched timeoutPacket answers).pc.Inside := by
  unfold dispatched
  split
  · exact ⟨rfl, rfl⟩
  split <;> exact ⟨rfl, rfl⟩

theorem zeroBudget_inside : (c.zeroBudget clocks).pc.Inside := by
  unfold zeroBudget
  dsimp only
  split <;> exact ⟨rfl, rfl⟩

theorem coalesce_inside (result dequeues deadline : Nat) :
    (c.coalesce result dequeues deadline answers).pc.Inside := by
  unfold coalesce
  split
  · cases answers.dequeue with
    | removed entries => cases entries <;> exact ⟨rfl, rfl⟩
    | _ => exact ⟨rfl, rfl⟩
  · exact ⟨rfl, rfl⟩

theorem coalesceZero_inside (result dequeues deadline : Nat) :
    (c.coalesceZero clocks result dequeues deadline).pc.Inside := by
  unfold coalesceZero
  dsimp only
  split <;> exact ⟨rfl, rfl⟩

theorem coalesceNext_inside (result dequeues deadline : Nat) (closing : Bool) :
    (c.coalesceNext clocks result dequeues deadline closing).pc.Inside := by
  unfold coalesceNext
  split
  · exact ⟨rfl, rfl⟩
  dsimp only
  split <;> exact ⟨rfl, rfl⟩

theorem initializePrecise_outside (query : Bool) :
    (c.initializePrecise clocks query).pc.holds = false := by
  unfold initializePrecise
  split <;> rfl

theorem zeroDeadline_outside : (c.zeroDeadline clocks).pc.holds = false := by
  unfold zeroDeadline
  split <;> rfl

theorem lockCheck_outside (first : Bool) : (c.lockCheck clocks first).pc.holds = false := by
  unfold lockCheck
  split
  · dsimp only
    split <;> rfl
  · rfl

theorem lockBusy_outside (closing : Bool) : (c.lockBusy clocks closing).pc.holds = false := by
  unfold lockBusy
  split
  · rfl
  split
  · rfl
  dsimp only
  split <;> rfl

end Call

/-! ## What a step does to the wake state -/

/-- The part of the state that wake requests and takes share. -/
structure WakeView where
  pending : WakeState
  event : WakeEvent
  requests : Nat
  coalesced : Nat
  returns : Nat
  log : List WakeStep
  reports : List (Int × Option WakeRecord)
  postFailed : Bool

def State.wakeView (st : State) : WakeView :=
  ⟨st.wakePending, st.wakeEvent, st.wakeRequests, st.wakeCoalesced, st.wakeReturns, st.log,
    st.reports, st.postFailed⟩

/-- The payload that a take finds, if a wake is pending. -/
def WakeView.found (v : WakeView) : Option (Option WakeEvent) :=
  match v.pending with
  | .none => none
  | .untagged => some none
  | .tagged => some (some v.event)

/-- What one step of a wait does to its call, to `wait_lock` and to the wake state. -/
inductive WaitEffect (st : State) (thread : Nat) (st' : State) (c : Call) : Prop
  | outside (before : (st.calls thread).pc.holds = false) (after : c.pc.holds = false)
      (lock : st'.waitLock = st.waitLock) (view : st'.wakeView = st.wakeView)
  | acquired (before : (st.calls thread).pc.holds = false) (after : c.pc.Inside)
      (free : st.waitLock = none) (lock : st'.waitLock = some thread)
      (view : st'.wakeView = st.wakeView)
  | inside (before : (st.calls thread).pc.Inside) (after : c.pc.Inside)
      (lock : st'.waitLock = st.waitLock) (view : st'.wakeView = st.wakeView)
  | taken {event : Option WakeEvent} (before : (st.calls thread).pc.Inside)
      (after : c.pc = .wakeTaken event) (lock : st'.waitLock = st.waitLock)
      (found : st.wakeView.found = some event)
      (view : st'.wakeView = { st.wakeView with pending := .none, log := st.log ++ [.taken] })
  | reported {event : Option WakeEvent} (before : (st.calls thread).pc = .wakeTaken event)
      (after : c.pc.Inside) (lock : st'.waitLock = st.waitLock)
      (result : Reported event (c.result, c.record))
      (view : st'.wakeView = { st.wakeView with
        returns := st.wakeReturns + 1, reports := st.reports ++ [(c.result, c.record)] })
  | left (before : (st.calls thread).pc.Inside) (after : c.pc.holds = false)
      (lock : st'.waitLock = none) (view : st'.wakeView = st.wakeView)

/-- The new call of `thread` and the effect of its step. -/
def WaitStep (st : State) (thread : Nat) (st' : State) : Prop :=
  ∃ c, st'.calls = Function.update st.calls thread c ∧ WaitEffect st thread st' c

section

variable {st st' : State} {thread : Nat} {c : Call}

theorem WaitStep.of_outside (before : (st.calls thread).pc.holds = false)
    (after : c.pc.holds = false) : WaitStep st thread (st.set thread c) :=
  ⟨c, rfl, .outside before after rfl rfl⟩

theorem WaitStep.of_inside (before : (st.calls thread).pc.Inside) (after : c.pc.Inside) :
    WaitStep st thread (st.set thread c) :=
  ⟨c, rfl, .inside before after rfl rfl⟩

theorem acquire_effect (before : (st.calls thread).pc.holds = false) (free : st.waitLock = none) :
    WaitStep st thread (st.acquire thread c) :=
  ⟨_, rfl, .acquired before ⟨rfl, rfl⟩ free rfl rfl⟩

theorem lockCheck_effect (before : (st.calls thread).pc.holds = false) {first : Bool}
    {answers : Answers} (hstep : st.lockCheck thread c first answers = some st') :
    WaitStep st thread st' := by
  unfold State.lockCheck at hstep
  split at hstep
  · split at hstep
    · cases hstep
      exact .of_outside before rfl
    split at hstep
    · cases hstep
    · rename_i hfree
      cases hstep
      exact acquire_effect before (by simpa using hfree)
  · cases hstep
    exact .of_outside before (c.lockCheck_outside st.clocks first)

theorem lockTry_effect (before : (st.calls thread).pc.holds = false) (answers : Answers) :
    WaitStep st thread (st.lockTry thread c answers) := by
  unfold State.lockTry
  split
  · exact .of_outside before rfl
  split
  · exact .of_outside before rfl
  · rename_i hfree
    exact acquire_effect before (by simpa using hfree)

theorem timerInitialize_view (st : State) (answers : Answers) :
    (st.timerInitialize answers).2.wakeView = st.wakeView ∧
      (st.timerInitialize answers).2.waitLock = st.waitLock := by
  unfold State.timerInitialize
  split
  · exact ⟨rfl, rfl⟩
  · exact ⟨rfl, rfl⟩
  · split <;> exact ⟨rfl, rfl⟩

theorem timerArm_view (st : State) (delay : Nat) (answers : Answers) :
    (st.timerArm delay answers).2.wakeView = st.wakeView ∧
      (st.timerArm delay answers).2.waitLock = st.waitLock := by
  have h := timerInitialize_view st answers
  unfold State.timerArm
  split
  · exact ⟨rfl, rfl⟩
  generalize st.timerInitialize answers = r at h ⊢
  obtain ⟨available, st'⟩ := r
  dsimp only
  split
  · exact h
  split <;> exact h

theorem attemptTimer_effect (before : (st.calls thread).pc.Inside) (deferred : Bool)
    (answers : Answers) : WaitStep st thread (st.attemptTimer thread c deferred answers) := by
  unfold State.attemptTimer
  split
  · dsimp only
    split
    · have hview := timerInitialize_view st answers
      have hsame := st.timerInitialize_same answers
      generalize st.timerInitialize answers = r at hview hsame ⊢
      obtain ⟨available, st'⟩ := r
      exact ⟨_, congrArg (Function.update · thread _) hsame.2,
        .inside before ⟨rfl, rfl⟩ hview.2 hview.1⟩
    · exact .of_inside before ⟨rfl, rfl⟩
  · exact .of_inside before ⟨rfl, rfl⟩

theorem armTimer_effect (before : (st.calls thread).pc.Inside) (deferred : Bool)
    (answers : Answers) : WaitStep st thread (st.armTimer thread c deferred answers) := by
  unfold State.armTimer
  split
  · dsimp only
    split
    · exact .of_inside before ⟨rfl, rfl⟩
    · generalize epWaitRemaining100ns (st.clocks .interrupt) c.state = remaining
      have hview := timerArm_view st remaining answers
      have hsame := st.timerArm_same remaining answers
      generalize st.timerArm remaining answers = r at hview hsame ⊢
      obtain ⟨generation, st'⟩ := r
      dsimp only
      split
      · exact ⟨_, congrArg (Function.update · thread _) hsame.2,
          .inside before ⟨rfl, rfl⟩ hview.2 hview.1⟩
      · exact ⟨_, congrArg (Function.update · thread _) hsame.2,
          .inside before ⟨rfl, rfl⟩ hview.2 hview.1⟩
  · exact .of_inside before ⟨rfl, rfl⟩

theorem takeWake_effect (before : (st.calls thread).pc.Inside) {next : Pc} (hnext : next.Inside) :
    WaitStep st thread (st.takeWake thread c next) := by
  unfold State.takeWake
  split
  · exact .of_inside before hnext
  · rename_i hpending
    refine ⟨_, rfl, .taken before rfl rfl ?_ rfl⟩
    simp [WakeView.found, State.wakeView, hpending]
  · rename_i hpending
    refine ⟨_, rfl, .taken before rfl rfl ?_ rfl⟩
    simp [WakeView.found, State.wakeView, hpending]

theorem reportWake_effect {event : Option WakeEvent}
    (before : (st.calls thread).pc = .wakeTaken event) (answers : Answers) :
    WaitStep st thread (st.reportWake thread c event answers) := by
  refine ⟨_, rfl, .reported before ?_ rfl ?_ rfl⟩
  · cases event <;> exact ⟨rfl, rfl⟩
  · cases event with
    | none => rfl
    | some event =>
      refine ⟨rfl, ?_⟩
      simp only [Call.reportWake, Call.finish, Option.map_some]
      split <;> rfl

theorem wait_effect (answers : Answers) (hstep : st.wait thread answers = some st') :
    WaitStep st thread st' := by
  unfold State.wait at hstep
  dsimp only at hstep
  generalize hc : st.calls thread = c at hstep
  have inside : c.pc.Inside → (st.calls thread).pc.Inside := by rw [hc]; exact id
  have outside : c.pc.holds = false → (st.calls thread).pc.holds = false := by rw [hc]; exact id
  split at hstep
  all_goals rename_i heq; rw [heq] at inside outside; try cases hstep
  · exact .of_outside (outside rfl) rfl
  · exact .of_outside (outside rfl) (c.initializePrecise_outside st.clocks _)
  · exact .of_outside (outside rfl) (c.zeroDeadline_outside st.clocks)
  · exact lockCheck_effect (outside rfl) hstep
  · exact lockTry_effect (outside rfl) answers
  · exact .of_outside (outside rfl) (c.lockBusy_outside st.clocks _)
  · refine .of_inside (inside ⟨rfl, rfl⟩) ?_
    split <;> exact ⟨rfl, rfl⟩
  · exact .of_inside (inside ⟨rfl, rfl⟩) (c.loopTop_inside answers)
  · exact .of_inside (inside ⟨rfl, rfl⟩) (c.arm_inside answers)
  · exact attemptTimer_effect (inside ⟨rfl, rfl⟩) _ answers
  · exact .of_inside (inside ⟨rfl, rfl⟩) (c.expireOr_inside _ _ ⟨rfl, rfl⟩)
  · exact armTimer_effect (inside ⟨rfl, rfl⟩) _ answers
  · exact .of_inside (inside ⟨rfl, rfl⟩) (c.expireOr_inside _ _ ⟨rfl, rfl⟩)
  · exact .of_inside (inside ⟨rfl, rfl⟩) (c.backstop_inside _ _)
  · unfold State.pollWake
    split <;> exact .of_inside (inside ⟨rfl, rfl⟩) ⟨rfl, rfl⟩
  · exact .of_inside (inside ⟨rfl, rfl⟩) (c.dequeue_inside answers _ _)
  · exact takeWake_effect (inside ⟨rfl, rfl⟩) ⟨rfl, rfl⟩
  · exact .of_inside (inside ⟨rfl, rfl⟩) (c.expireOr_inside _ _ ⟨rfl, rfl⟩)
  · exact .of_inside (inside ⟨rfl, rfl⟩) (c.dispatched_inside answers _)
  · exact takeWake_effect (inside ⟨rfl, rfl⟩) ⟨rfl, rfl⟩
  · exact .of_inside (inside ⟨rfl, rfl⟩) (c.expireOr_inside _ _ ⟨rfl, rfl⟩)
  · exact .of_inside (inside ⟨rfl, rfl⟩) (c.zeroBudget_inside _)
  · exact .of_inside (inside ⟨rfl, rfl⟩) (c.expireOr_inside _ _ ⟨rfl, rfl⟩)
  · exact .of_inside (inside ⟨rfl, rfl⟩) ⟨rfl, rfl⟩
  · exact .of_inside (inside ⟨rfl, rfl⟩) (c.coalesce_inside answers _ _ _)
  · exact .of_inside (inside ⟨rfl, rfl⟩) (c.coalesceZero_inside _ _ _ _)
  · exact .of_inside (inside ⟨rfl, rfl⟩) (c.coalesceNext_inside _ _ _ _ _)
  · exact reportWake_effect (by rw [hc, heq]) answers
  · exact ⟨_, rfl, .left (inside ⟨rfl, rfl⟩) rfl rfl rfl⟩

end

/-! ## The balance of requests and returns -/

/-- The wake state agrees with the groups of its log; `taking` is a half-done take. -/
structure Balanced (v : WakeView) (taking : Option (Option WakeEvent)) : Prop where
  total : v.requests = (requestsOf v.log).length
  merged : v.requests =
    v.coalesced + (ledger v.log).closed.length + if (ledger v.log).current = [] then 0 else 1
  nonempty : ∀ group ∈ (ledger v.log).closed, group ≠ []
  pending : v.pending = pendingState (ledger v.log).current
  event : ∀ e, payload (ledger v.log).current = some e → v.event = e
  returns : v.returns = v.reports.length
  reports : ∃ payloads, List.Forall₂ Reported payloads v.reports ∧
    (ledger v.log).closed.map payload = payloads ++ taking.toList

theorem pendingState_none {group : List (Option WakeEvent)} :
    pendingState group = .none ↔ group = [] := by
  unfold pendingState
  by_cases h : group = []
  · simp [h]
  · cases hp : (payload group).isSome <;> simp [h]

theorem pendingState_untagged {group : List (Option WakeEvent)} :
    pendingState group = .untagged ↔ group ≠ [] ∧ payload group = none := by
  unfold pendingState
  by_cases h : group = []
  · simp [h]
  · cases hp : payload group <;> simp [h]

theorem pendingState_tagged {group : List (Option WakeEvent)} :
    pendingState group = .tagged ↔ group ≠ [] ∧ (payload group).isSome = true := by
  unfold pendingState
  by_cases h : group = []
  · simp [h]
  · cases hp : payload group <;> simp [h]

/-- The pending state and event are what the group asks to be reported. -/
theorem Balanced.found_eq {v : WakeView} {taking : Option (Option WakeEvent)}
    (h : Balanced v taking) {event : Option WakeEvent} (found : v.found = some event) :
    (ledger v.log).current ≠ [] ∧ payload (ledger v.log).current = event := by
  unfold WakeView.found at found
  rw [h.pending] at found
  unfold pendingState at found
  by_cases hempty : (ledger v.log).current = []
  · simp [hempty] at found
  refine ⟨hempty, ?_⟩
  cases hp : payload (ledger v.log).current with
  | none =>
    simp only [hempty, hp, if_false] at found
    exact Option.some.inj found
  | some e =>
    simp only [hempty, hp, if_false, Option.isSome_some, if_true] at found
    rw [← h.event e hp]
    exact Option.some.inj found

theorem Balanced.take {v : WakeView} (h : Balanced v none) {event : Option WakeEvent}
    (found : v.found = some event) :
    Balanced { v with pending := .none, log := v.log ++ [.taken] } (some event) := by
  obtain ⟨hnonempty, hpayload⟩ := h.found_eq found
  obtain ⟨payloads, hforall, hmap⟩ := h.reports
  have hledger := ledger_append v.log .taken
  refine ⟨?_, ?_, ?_, ?_, ?_, h.returns, payloads, hforall, ?_⟩
  · simpa [requestsOf, List.filterMap_append] using h.total
  · have hmerged := h.merged
    simp only [hnonempty, if_false] at hmerged
    simp only [hledger, Ledger.add, List.length_append, List.length_singleton, if_true]
    omega
  · simp only [hledger, Ledger.add, List.mem_append, List.mem_singleton]
    rintro group (hgroup | rfl)
    · exact h.nonempty group hgroup
    · exact hnonempty
  · rw [hledger]
    rfl
  · rw [hledger]
    nofun
  · simp only [hledger, Ledger.add, List.map_append, List.map_singleton, hpayload, hmap]
    simp

theorem Balanced.report {v : WakeView} {event : Option WakeEvent} (h : Balanced v (some event))
    {r : Int × Option WakeRecord} (hr : Reported event r) :
    Balanced { v with returns := v.returns + 1, reports := v.reports ++ [r] } none := by
  obtain ⟨payloads, hforall, hmap⟩ := h.reports
  refine ⟨h.total, h.merged, h.nonempty, h.pending, h.event, ?_, payloads ++ [event], ?_, ?_⟩
  · simp [h.returns]
  · exact List.rel_append hforall (.cons hr .nil)
  · simpa using hmap

/-- A request joins the current group. -/
theorem Balanced.join {v w : WakeView} {taking : Option (Option WakeEvent)} (h : Balanced v taking)
    (event : Option WakeEvent) (log : w.log = v.log ++ [.requested event])
    (requests : w.requests = v.requests + 1) (returns : w.returns = v.returns)
    (reports : w.reports = v.reports)
    (coalesced : w.coalesced = v.coalesced + if (ledger v.log).current = [] then 0 else 1)
    (pending : w.pending = pendingState ((ledger v.log).current ++ [event]))
    (stored : ∀ e, (payload (ledger v.log).current).or event = some e → w.event = e) :
    Balanced w taking := by
  have hledger := ledger_append v.log (.requested event)
  refine ⟨?_, ?_, ?_, ?_, ?_, ?_, ?_⟩
  · have htotal := h.total
    simp only [log, requests, requestsOf, List.filterMap_append] at htotal ⊢
    simp [htotal]
  · have hmerged := h.merged
    have hne : (ledger v.log).current ++ [event] ≠ [] := by simp
    simp only [log, hledger, Ledger.add, hne, if_false, requests, coalesced]
    generalize (if (ledger v.log).current = [] then 0 else 1) = merges at hmerged ⊢
    omega
  · rw [log, hledger]
    exact h.nonempty
  · rw [log, hledger]
    exact pending
  · rw [log, hledger]
    simp only [Ledger.add, payload_append]
    exact stored
  · rw [returns, reports]
    exact h.returns
  · rw [log, hledger, reports]
    exact h.reports

theorem request_balanced {st : State} {taking : Option (Option WakeEvent)}
    (h : Balanced st.wakeView taking) (event : Option WakeEvent) (closing : Bool) :
    Balanced (st.request event closing).wakeView taking := by
  have hpending : st.wakePending = pendingState (ledger st.log).current := h.pending
  have hevent : ∀ e, payload (ledger st.log).current = some e → st.wakeEvent = e := h.event
  have hjoin := @Balanced.join st.wakeView
  change ∀ {w taking}, Balanced st.wakeView taking → ∀ event, w.log = st.log ++ [.requested event] →
    w.requests = st.wakeRequests + 1 → w.returns = st.wakeReturns → w.reports = st.reports →
    w.coalesced = st.wakeCoalesced + (if (ledger st.log).current = [] then 0 else 1) →
    w.pending = pendingState ((ledger st.log).current ++ [event]) →
    (∀ e, (payload (ledger st.log).current).or event = some e → w.event = e) →
    Balanced w taking at hjoin
  generalize (ledger st.log).current = current at hpending hevent hjoin
  unfold State.request
  split
  · exact h
  dsimp only
  cases hp : st.wakePending with
  | none =>
    have hempty := pendingState_none.mp (hpending.symm.trans hp)
    subst hempty
    cases event with
    | none => exact hjoin h none rfl rfl rfl rfl rfl rfl nofun
    | some e => exact hjoin h (some e) rfl rfl rfl rfl rfl rfl fun e' he => Option.some.inj he
  | untagged =>
    obtain ⟨hne, hnone⟩ := pendingState_untagged.mp (hpending.symm.trans hp)
    cases event with
    | none =>
      refine hjoin h none rfl rfl rfl rfl ?_ ?_ ?_
      · rw [if_neg hne]
        rfl
      · show WakeState.untagged = _
        rw [eq_comm, pendingState_untagged, payload_append, hnone]
        simp
      · rw [Option.or_none]
        exact hevent
    | some e =>
      -- the tagged request upgrades the pending wake
      refine hjoin h (some e) rfl rfl rfl rfl ?_ ?_ ?_
      · rw [if_neg hne]
        rfl
      · exact (pendingState_tagged.mpr (by simp [payload_append])).symm
      · rw [hnone]
        intro e' he
        exact Option.some.inj he
  | tagged =>
    obtain ⟨hne, hsome⟩ := pendingState_tagged.mp (hpending.symm.trans hp)
    obtain ⟨first, hfirst⟩ := Option.isSome_iff_exists.mp hsome
    refine hjoin h event rfl rfl rfl rfl ?_ ?_ ?_
    · rw [if_neg hne]
      rfl
    · show WakeState.tagged = _
      rw [eq_comm, pendingState_tagged, payload_append, hfirst]
      simp
    · rw [hfirst]
      intro e he
      exact hevent e (hfirst.trans he)

/-! ## Whole runs -/

/-- The payload of the take that is half done, if one is. -/
def State.taking (st : State) : Option (Option WakeEvent) :=
  st.waitLock.bind fun thread => (st.calls thread).pc.taking

/-- `wait_lock` belongs to the wait inside its loop, and the wake state is balanced as long as
every wake packet could be posted. -/
structure State.Awake (st : State) : Prop where
  exclusive : ∀ thread, (st.calls thread).pc.holds = true ↔ st.waitLock = some thread
  balanced : st.postFailed = false → Balanced st.wakeView st.taking

section

variable {st st' : State} {thread : Nat} {c : Call}

theorem State.taking_eq (h : st.waitLock = some thread) :
    st.taking = (st.calls thread).pc.taking := by
  simp [State.taking, h]

theorem update_exclusive (h : st.Awake) (calls : st'.calls = Function.update st.calls thread c)
    (lock : st'.waitLock = st.waitLock) (same : c.pc.holds = (st.calls thread).pc.holds) :
    ∀ t, (st'.calls t).pc.holds = true ↔ st'.waitLock = some t := by
  intro t
  rw [calls, lock]
  by_cases heq : t = thread
  · rw [heq, Function.update_self, same]
    exact h.exclusive thread
  · rw [Function.update_of_ne heq]
    exact h.exclusive t

/-- A wait step keeps the balance. -/
theorem WaitStep.awake (h : st.Awake) (hs : WaitStep st thread st') : st'.Awake := by
  obtain ⟨c, calls, effect⟩ := hs
  have hself : st'.calls thread = c := by rw [calls, Function.update_self]
  cases effect with
  | outside before after lock view =>
    refine ⟨update_exclusive h calls lock (after.trans before.symm), fun hok => ?_⟩
    have htaking : st'.taking = st.taking := by
      unfold State.taking
      rw [lock]
      cases hlock : st.waitLock with
      | none => rfl
      | some t =>
        have hne : t ≠ thread := by
          rintro rfl
          have := (h.exclusive t).mpr hlock
          rw [before] at this
          cases this
        show (st'.calls t).pc.taking = (st.calls t).pc.taking
        rw [calls, Function.update_of_ne hne]
    rw [view, htaking]
    exact h.balanced ((congrArg WakeView.postFailed view).symm.trans hok)
  | acquired before after free lock view =>
    refine ⟨fun t => ?_, fun hok => ?_⟩
    · rw [lock, calls]
      by_cases heq : t = thread
      · rw [heq, Function.update_self]
        exact ⟨fun _ => rfl, fun _ => after.1⟩
      · rw [Function.update_of_ne heq, h.exclusive t, free]
        simpa using Ne.symm heq
    · have hbefore : st.taking = none := by simp [State.taking, free]
      have hold := h.balanced ((congrArg WakeView.postFailed view).symm.trans hok)
      rw [view, State.taking_eq lock, hself, after.2, ← hbefore]
      exact hold
  | inside before after lock view =>
    have hlock := (h.exclusive thread).mp before.1
    refine ⟨update_exclusive h calls lock (after.1.trans before.1.symm), fun hok => ?_⟩
    have hold := h.balanced ((congrArg WakeView.postFailed view).symm.trans hok)
    rw [State.taking_eq hlock, before.2] at hold
    rw [view, State.taking_eq (lock.trans hlock), hself, after.2]
    exact hold
  | taken before after lock found view =>
    have hlock := (h.exclusive thread).mp before.1
    refine ⟨update_exclusive h calls lock (by rw [after, before.1]; rfl), fun hok => ?_⟩
    have hold := h.balanced ((congrArg WakeView.postFailed view).symm.trans hok)
    rw [State.taking_eq hlock, before.2] at hold
    rw [view, State.taking_eq (lock.trans hlock), hself, after]
    exact hold.take found
  | reported before after lock result view =>
    have hholds : (st.calls thread).pc.holds = true := by rw [before]; rfl
    have hlock := (h.exclusive thread).mp hholds
    refine ⟨update_exclusive h calls lock (after.1.trans hholds.symm), fun hok => ?_⟩
    have hold := h.balanced ((congrArg WakeView.postFailed view).symm.trans hok)
    rw [State.taking_eq hlock, before] at hold
    rw [view, State.taking_eq (lock.trans hlock), hself, after.2]
    exact hold.report result
  | left before after lock view =>
    have hlock := (h.exclusive thread).mp before.1
    refine ⟨fun t => ?_, fun hok => ?_⟩
    · rw [lock, calls]
      by_cases heq : t = thread
      · rw [heq, Function.update_self, after]
        simp
      · rw [Function.update_of_ne heq, h.exclusive t, hlock]
        simpa using Ne.symm heq
    · have hold := h.balanced ((congrArg WakeView.postFailed view).symm.trans hok)
      rw [State.taking_eq hlock, before.2] at hold
      rw [view, State.taking, lock]
      exact hold

theorem begin_effect {request : WaitRequest} {maxevents : Int} {basicEvents : Bool}
    (hstep : st.begin thread request maxevents basicEvents = some st') :
    WaitStep st thread st' := by
  unfold State.begin at hstep
  split at hstep
  · cases hstep
  rename_i hpc
  have before : (st.calls thread).pc.holds = false := by
    by_cases hidle : (st.calls thread).pc = .idle
    · rw [hidle]
      rfl
    · rw [not_and_or, not_not, not_not] at hpc
      rw [hpc.resolve_left hidle]
      rfl
  dsimp only at hstep
  split at hstep
  · cases hstep
    exact .of_outside before rfl
  · split at hstep
    · cases hstep
      exact .of_outside before rfl
    · cases hstep
      exact .of_outside before rfl

theorem step_awake {a : Act} (h : st.Awake) (hstep : st.step a = some st') : st'.Awake := by
  cases a with
  | advance clock by' =>
    simp only [State.step, State.advance] at hstep
    split at hstep
    · cases hstep
      exact ⟨h.exclusive, h.balanced⟩
    · cases hstep
  | request event closing =>
    cases hstep
    have hlock : (st.request event closing).waitLock = st.waitLock ∧
        (st.request event closing).postFailed = st.postFailed := by
      unfold State.request
      split
      · exact ⟨rfl, rfl⟩
      · dsimp only
        split <;> exact ⟨rfl, rfl⟩
    have hcalls := (st.request_same event closing).2
    refine ⟨fun t => ?_, fun hok => ?_⟩
    · rw [hlock.1, hcalls]
      exact h.exclusive t
    · rw [hlock.2] at hok
      have htaking : (st.request event closing).taking = st.taking := by
        unfold State.taking
        rw [hlock.1, hcalls]
      rw [htaking]
      exact request_balanced (h.balanced hok) event closing
  | post posted =>
    simp only [State.step, State.post] at hstep
    split at hstep
    · cases hstep
    · cases hstep
      split
      · exact ⟨h.exclusive, h.balanced⟩
      · exact ⟨h.exclusive, (by simp)⟩
  | begin thread request maxevents basicEvents => exact (begin_effect hstep).awake h
  | wait thread answers => exact (wait_effect answers hstep).awake h

theorem reach_awake {clocks : Clock → UInt64} {query : Bool}
    (h : Reach State.step (.create clocks query) st) : st.Awake := by
  refine h.invariant ⟨fun t => ?_, fun _ => ?_⟩ fun s s' a hs hstep => step_awake hs hstep
  · exact ⟨nofun, nofun⟩
  · exact ⟨rfl, rfl, nofun, rfl, nofun, rfl, [], .nil, rfl⟩

end

/-- How the wake counters and returns account for the requests. -/
structure State.WakesAccounted (st : State) : Prop where
  counters : st.wakeRequests = st.wakeCoalesced + st.wakeReturns +
    if st.wakePending ≠ .none then 1 else 0
  /-- Every request is in exactly one group, and a group is not empty. -/
  requests : requestsOf st.log = (ledger st.log).closed.flatten ++ (ledger st.log).current
  counted : st.wakeRequests = (requestsOf st.log).length
  nonempty : ∀ group ∈ (ledger st.log).closed, group ≠ []
  /-- Each group but the last was reported by one wake return. -/
  returns : st.reports.length = st.wakeReturns
  reports : List.Forall₂ (fun group => Reported (payload group)) (ledger st.log).closed st.reports
  /-- The last group is the pending wake. -/
  pending : st.wakePending = pendingState (ledger st.log).current
  event : ∀ e, payload (ledger st.log).current = some e → st.wakeEvent = e

/-- In every run without a post failure, outside a half-done take, the wakes are accounted for. -/
theorem wakes_accounted {clocks : Clock → UInt64} {query : Bool} {st : State}
    (h : Reach State.step (.create clocks query) st) (posted : st.postFailed = false)
    (whole : ∀ thread event, (st.calls thread).pc ≠ .wakeTaken event) : st.WakesAccounted := by
  have hb := (reach_awake h).balanced posted
  have htaking : st.taking = none := by
    unfold State.taking
    cases st.waitLock with
    | none => rfl
    | some thread =>
      show (st.calls thread).pc.taking = none
      unfold Pc.taking
      split
      · rename_i event heq
        exact absurd heq (whole thread event)
      · rfl
  rw [htaking] at hb
  obtain ⟨payloads, hforall, hmap⟩ := hb.reports
  rw [Option.toList_none, List.append_nil] at hmap
  subst hmap
  have hreports := List.forall₂_map_left_iff.mp hforall
  have hlength : (ledger st.log).closed.length = st.wakeReturns :=
    hreports.length_eq.trans hb.returns.symm
  refine ⟨?_, ledger_requests st.log, hb.total, hb.nonempty, hb.returns.symm, hreports, hb.pending,
    hb.event⟩
  have hmerged : st.wakeRequests = st.wakeCoalesced + (ledger st.log).closed.length +
    if (ledger st.log).current = [] then 0 else 1 := hb.merged
  have hpending : st.wakePending = pendingState (ledger st.log).current := hb.pending
  by_cases hempty : (ledger st.log).current = []
  · rw [hpending, pendingState_none.mpr hempty]
    simpa [hempty, hlength] using hmerged
  · have hne : st.wakePending ≠ .none := by
      rw [hpending]
      exact fun hnone => hempty (pendingState_none.mp hnone)
    simpa [hempty, hne, hlength] using hmerged

/-- An untagged request, a tagged one and a second tagged one before the wait that reports them. -/
def mergedWakes : List Act :=
  [.request none false, .request (some ⟨EPOLLIN, 7⟩) false, .request (some ⟨EPOLLIN, 8⟩) false,
    .post true, .begin 0 (.milliseconds (-1)) 1 true] ++ List.replicate 16 (.wait 0 quiet)

theorem wakes_accounted_merged : ∃ st, Reach State.step (.create (fun _ => 0) false) st ∧
    st.WakesAccounted ∧ st.wakeRequests = 3 ∧ st.wakeReturns = 1 ∧
    st.reports = [(1, some (.basic ⟨EPOLLIN, 7⟩))] := by
  have h : (run State.step (.create (fun _ => 0) false) mergedWakes).map (fun st =>
      (st.postFailed, st.waitLock, st.wakeRequests, st.wakeReturns)) =
      some (false, none, 3, 1) := by decide +kernel
  have hreports : (run State.step (.create (fun _ => 0) false) mergedWakes).map State.reports =
      some [(1, some (.basic ⟨EPOLLIN, 7⟩))] := by decide +kernel
  obtain ⟨st, hrun, he⟩ := Option.map_eq_some_iff.mp h
  rw [hrun] at hreports
  simp only [Prod.mk.injEq] at he
  have hreach := Reach.of_run .refl hrun
  refine ⟨st, hreach, wakes_accounted hreach he.1 ?_, he.2.2.1, he.2.2.2, Option.some.inj hreports⟩
  intro thread event heq
  -- only the holder of the lock can be inside a take, and nobody holds it
  have hlock := ((reach_awake hreach).exclusive thread).mp (by rw [heq]; rfl)
  rw [he.2.1] at hlock
  cases hlock

end WepollEx.Wait
