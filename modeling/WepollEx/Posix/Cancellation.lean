import Mathlib.Algebra.Order.BigOperators.Group.Finset
import WepollEx.Posix.Teardown

/-!
# Cancelled threads leave no lock behind

A thread that is cancelled while it does not hold the registry lock leaves neither a lock nor a
reference behind, and every other thread can still finish its call.  A thread that is cancelled in
`close` or `write` with the registry lock held keeps it for ever.
-/

namespace WepollEx.Posix

open Counting Transition

section

variable {st st' base : Registry} {t u : Tid} {p : PortId} {pc : Pc}

/-- The answers with which a call ends soonest. -/
def failing : Answers where
  sameInstance := fun _ => false
  identity := .error false
  probe := false
  valid := false
  create := .noMemory
  failed := true
  more := false

def After.weight : After → Nat
  | .acquire _ _ => 1
  | .idle => 0

/-- A bound on the steps a thread still takes with these answers when nobody stands in its way. -/
def Pc.weight : Pc → Nat
  | .idle => 0
  | .acquire _ _ => 1
  | .validate _ _ closes => closes + 1
  | .discard _ closes => closes + 1
  | .retireWake _ _ _ => 7
  | .waitAndFree _ after => 5 + after.weight
  | .condWait _ after => 4 + after.weight
  | .freeing _ closes after => closes + 1 + after.weight
  | .control _ => 6
  | .controlLocked _ => 5
  | .waitStart _ => 8
  | .waitStartLocked _ => 7
  | .nativeWait _ => 6
  | .closingCheck _ .beforeDecoration => 8
  | .closingCheck _ _ => 5
  | .decorate _ => 7
  | .decorateLocked _ => 6
  | .release _ => 4
  | .close _ => 7
  | .closeWake _ _ => 7
  | .closeFd _ => 6
  | .cancelRelease _ => 2
  | .cancelFree _ => 1
  | .dead => 0

/-- The thread has not been cancelled. -/
def Pc.alive : Pc → Bool
  | .cancelRelease _ => false
  | .cancelFree _ => false
  | .dead => false
  | _ => true

/-- The port the thread is concerned with. -/
def Pc.about (pc : Pc) : Option PortId := pc.holds <|> pc.ends.map Prod.fst

/-- One program counter comes before another on the way out. -/
structure Pc.Below (after before : Pc) : Prop where
  weight : after.weight < before.weight
  holds : ∀ p, after.holds = some p → before.holds = some p
  about : ∀ p, after.about = some p → before.about = some p
  alive : before.alive = true → after.alive = true

theorem Pc.Below.of {after before : Pc} (weight : after.weight < before.weight)
    (holds : after.holds = none ∨ after.holds = before.holds)
    (about : after.about = none ∨ after.about = before.about)
    (alive : before.alive = false ∨ after.alive = true) : after.Below before := by
  have keeps : ∀ {x y : Option PortId}, x = none ∨ x = y → ∀ p, x = some p → y = some p := by
    rintro x y (rfl | rfl) p hp
    · cases hp
    · exact hp
  refine ⟨weight, keeps holds, keeps about, fun h => ?_⟩
  rcases alive with hdead | halive
  · rw [hdead] at h
    cases h
  · exact halive

/-- The state after `t` has come one step nearer to its end. -/
structure Registry.Nearer (st : Registry) (t : Tid) (st' : Registry) : Prop where
  others : ∀ u, u ≠ t → st'.threads u = st.threads u
  below : (st'.threads t).Below (st.threads t)
  lock : ∀ u, st'.lock = some u → u = t ∨ st.lock = some u

theorem nearer_goto (threads : base.threads = st.threads)
    (lock : ∀ u, base.lock = some u → u = t ∨ st.lock = some u) (below : pc.Below (st.threads t)) :
    st.Nearer t (base.goto t pc) where
  others := fun u hu => by
    rw [← threads]
    exact Function.update_of_ne hu ..
  below := by
    have : (base.goto t pc).threads t = pc := Function.update_self ..
    rw [this]
    exact below
  lock := lock

/-- Nothing stands in the way of the next step of `t`. -/
structure Registry.Ready (st : Registry) (t : Tid) : Prop where
  busy : 0 < (st.threads t).weight
  lock : Registry.needsLock (st.threads t) = true → st.lock = none
  port : ∀ p, st.threads t = .control p ∨ st.threads t = .waitStart p ∨
    st.threads t = .decorate p → (st.ports p).lock = none
  wait : ∀ p after, st.threads t = .condWait p after → (st.ports p).refs = 0

theorem acquire_failing (st : Registry) (t : Tid) (epfd : Epfd) (use : Use) :
    ∃ base : Registry, st.acquire t epfd use failing = base.goto t .idle ∧ base.threads = st.threads ∧
      base.lock = st.lock := by
  have hfound : ∀ (mid : Registry) q, mid.acquireFound t q epfd use failing = mid.goto t .idle := by
    intro mid q
    unfold Registry.acquireFound
    split <;> rfl
  unfold Registry.acquire
  split
  · exact ⟨st, hfound .., rfl, rfl⟩
  split
  · split
    · exact ⟨st, rfl, rfl, rfl⟩
    · rename_i mid hadd
      unfold Registry.portAddAliasLocked at hadd
      obtain ⟨j, -, rfl⟩ := Option.map_eq_some_iff.mp hadd
      exact ⟨_, hfound .., rfl, rfl⟩
  · exact ⟨st, rfl, rfl, rfl⟩

theorem close_failing (st : Registry) (t : Tid) (epfd : Epfd) :
    ∃ base : Registry, base.threads = st.threads ∧
      ((st.close t epfd failing = base.goto t .idle ∧ base.lock = st.lock) ∨
        (st.close t epfd failing = base.goto t (.closeFd none) ∧ base.lock = some t)) := by
  have hfound : ∀ (mid : Registry) q, mid.closeFound t q epfd failing = mid.goto t .idle := by
    intro mid q
    unfold Registry.closeFound
    split <;> rfl
  unfold Registry.close
  split
  · exact ⟨st, rfl, .inl ⟨hfound .., rfl⟩⟩
  split
  · split
    · exact ⟨st, rfl, .inl ⟨rfl, rfl⟩⟩
    · rename_i q _ mid hadd
      have hsame : mid.threads = st.threads ∧ mid.lock = st.lock := by
        unfold Registry.portAddAliasLocked at hadd
        obtain ⟨j, -, rfl⟩ := Option.map_eq_some_iff.mp hadd
        exact ⟨rfl, rfl⟩
      exact ⟨mid, hsame.1, .inl ⟨hfound .., hsame.2⟩⟩
  · exact ⟨st.take t, rfl, .inr ⟨rfl, rfl⟩⟩

theorem portRelease_goto (st : Registry) (t : Tid) (p : PortId) (next free : Pc) : ∃ base : Registry,
    (st.portRelease t p next free = base.goto t free ∨
      st.portRelease t p next free = base.goto t next) ∧ base.threads = st.threads ∧
      base.lock = st.lock := by
  rw [portRelease_eq]
  split
  · exact ⟨_, .inl rfl, rfl, rfl⟩
  · exact ⟨_, .inr rfl, rfl, rfl⟩

theorem waitOrFree_goto (st : Registry) (t : Tid) (p : PortId) (after : After) : ∃ base : Registry,
    (st.waitOrFree t p after = base.goto t (.freeing p 2 after) ∨
      ((st.ports p).refs ≠ 0 ∧ st.waitOrFree t p after = base.goto t (.condWait p after))) ∧
      base.threads = st.threads ∧ base.lock = st.lock := by
  unfold Registry.waitOrFree
  split
  · rename_i hrefs
    exact ⟨_, .inr ⟨hrefs, rfl⟩, rfl, rfl⟩
  · exact ⟨_, .inl rfl, rfl, rfl⟩

theorem nearer_same (threads : base.threads = st.threads) (lock : base.lock = st.lock)
    (below : pc.Below (st.threads t)) : st.Nearer t (base.goto t pc) :=
  nearer_goto threads (fun _ hu => .inr (lock ▸ hu)) below

theorem nearer_unlock (threads : base.threads = st.threads) (below : pc.Below (st.threads t)) :
    st.Nearer t (base.unlock.goto t pc) :=
  nearer_goto threads nofun below

/-- A thread in nobody's way comes one step nearer to its end. -/
theorem ready_step (hr : st.Ready t) : ∃ st', st.run t failing = some st' ∧ st.Nearer t st' := by
  have henabled : (Registry.needsLock (st.threads t) && st.lock.isSome) = false := by
    cases hneeds : Registry.needsLock (st.threads t) with
    | false => rfl
    | true =>
      rw [hr.lock hneeds]
      rfl
  have hport : ∀ q next, (st.ports q).lock = none → next.Below (st.threads t) →
      ∃ st', st.lockPort t q next = some st' ∧ st.Nearer t st' := by
    intro q next hfree hbelow
    refine ⟨(st.modify q fun port => { port with lock := some t }).goto t next, ?_,
      nearer_same rfl rfl hbelow⟩
    rw [Registry.lockPort, hfree]
    rfl
  unfold Registry.run
  rw [henabled]
  have hbusy := hr.busy
  have hfree := hr.port
  have hwait := hr.wait
  cases hpc : st.threads t <;> rw [hpc] at hbusy hfree hwait hport <;>
    simp only [Bool.false_eq_true, if_false]
  case idle => exact absurd hbusy (Nat.lt_irrefl 0)
  case dead => exact absurd hbusy (Nat.lt_irrefl 0)
  case acquire epfd use =>
    obtain ⟨base, heq, hthreads, hlock⟩ := acquire_failing st t epfd use
    rw [heq]
    exact ⟨_, rfl, nearer_same hthreads hlock
      (hpc ▸ .of (by simp [Pc.weight]) (.inl rfl) (.inl rfl) (.inr rfl))⟩
  case validate epfd use closes =>
    cases closes with
    | zero =>
      exact ⟨_, rfl, nearer_unlock rfl (hpc ▸ .of (by simp [Pc.weight]) (.inl rfl) (.inl rfl) (.inr rfl))⟩
    | succ closes =>
      exact ⟨_, rfl, nearer_same rfl rfl
        (hpc ▸ .of (Nat.lt_succ_self _) (.inl rfl) (.inl rfl) (.inr rfl))⟩
  case discard p closes =>
    cases closes with
    | zero =>
      let freed : Registry := st.modify p fun port => { port with frees := port.frees + 1 }
      have hthreads : freed.threads = st.threads := rfl
      exact ⟨_, rfl, nearer_unlock hthreads
        (hpc ▸ .of (by simp [Pc.weight]) (.inl rfl) (.inl rfl) (.inr rfl))⟩
    | succ closes =>
      exact ⟨_, rfl, nearer_same rfl rfl
        (hpc ▸ .of (Nat.lt_succ_self _) (.inl rfl) (.inr rfl) (.inr rfl))⟩
  case retireWake p epfd use =>
    exact ⟨_, rfl, nearer_unlock rfl
      (hpc ▸ .of (by simp [Pc.weight, After.weight]) (.inl rfl) (.inr rfl) (.inr rfl))⟩
  case waitAndFree p after =>
    obtain ⟨base, heq, hthreads, hlock⟩ := waitOrFree_goto
      (st.modify p fun port => { port with retired := true, closeWaiter := true }) t p after
    rcases heq with heq | ⟨-, heq⟩ <;> rw [Registry.waitAndFree, heq]
    · exact ⟨_, rfl, nearer_same hthreads hlock
        (hpc ▸ .of (by simp [Pc.weight]) (.inl rfl) (.inr rfl) (.inr rfl))⟩
    · exact ⟨_, rfl, nearer_same hthreads hlock
        (hpc ▸ .of (by simp [Pc.weight]) (.inl rfl) (.inr rfl) (.inr rfl))⟩
  case condWait p after =>
    have hzero := hwait p after rfl
    obtain ⟨base, heq, hthreads, hlock⟩ := waitOrFree_goto
      (st.modify p fun port => { port with sleepers := port.sleepers.erase t }) t p after
    rcases heq with heq | ⟨hne, -⟩
    · rw [Registry.condWake, heq]
      exact ⟨_, rfl, nearer_same hthreads hlock
        (hpc ▸ .of (by simp [Pc.weight]) (.inl rfl) (.inr rfl) (.inr rfl))⟩
    · exact absurd (by simpa [Registry.modify] using hzero) hne
  case freeing p closes after =>
    cases closes with
    | zero =>
      have hbelow : after.pc.Below (.freeing p 0 after) := by
        cases after <;> exact .of (by simp [Pc.weight, After.pc, After.weight]) (.inl rfl) (.inl rfl) (.inr rfl)
      exact ⟨_, rfl, nearer_same rfl rfl (hpc ▸ hbelow)⟩
    | succ closes =>
      exact ⟨_, rfl, nearer_same rfl rfl
        (hpc ▸ .of (by simp [Pc.weight]) (.inl rfl) (.inr rfl) (.inr rfl))⟩
  case control p =>
    exact hport p _ (hfree p (.inl rfl))
      (.of (by simp [Pc.weight]) (.inr rfl) (.inr rfl) (.inr rfl))
  case controlLocked p =>
    exact ⟨_, rfl, nearer_same rfl rfl
      (hpc ▸ .of (by simp [Pc.weight, failing]) (.inr rfl) (.inr rfl) (.inr rfl))⟩
  case waitStart p =>
    exact hport p _ (hfree p (.inr (.inl rfl)))
      (.of (by simp [Pc.weight]) (.inr rfl) (.inr rfl) (.inr rfl))
  case waitStartLocked p =>
    exact ⟨_, rfl, nearer_same rfl rfl
      (hpc ▸ .of (by simp [Pc.weight]) (.inr rfl) (.inr rfl) (.inr rfl))⟩
  case nativeWait p =>
    exact ⟨_, rfl, nearer_same rfl rfl
      (hpc ▸ .of (by simp [Pc.weight, failing]) (.inr rfl) (.inr rfl) (.inr rfl))⟩
  case closingCheck p site =>
    cases site with
    | failed =>
      exact ⟨_, rfl, nearer_same rfl rfl
        (hpc ▸ .of (by simp [Pc.weight]) (.inr rfl) (.inr rfl) (.inr rfl))⟩
    | afterDecoration =>
      exact ⟨_, rfl, nearer_same rfl rfl
        (hpc ▸ .of (by simp [Pc.weight]) (.inr rfl) (.inr rfl) (.inr rfl))⟩
    | beforeDecoration =>
      simp only [Registry.closingCheck]
      split
      · exact ⟨_, rfl, nearer_same rfl rfl
          (hpc ▸ .of (by simp [Pc.weight]) (.inr rfl) (.inr rfl) (.inr rfl))⟩
      · exact ⟨_, rfl, nearer_same rfl rfl
          (hpc ▸ .of (by simp [Pc.weight]) (.inr rfl) (.inr rfl) (.inr rfl))⟩
  case decorate p =>
    exact hport p _ (hfree p (.inr (.inr rfl)))
      (.of (by simp [Pc.weight]) (.inr rfl) (.inr rfl) (.inr rfl))
  case decorateLocked p =>
    exact ⟨_, rfl, nearer_same rfl rfl
      (hpc ▸ .of (by simp [Pc.weight]) (.inr rfl) (.inr rfl) (.inr rfl))⟩
  case release p =>
    obtain ⟨base, heq, hthreads, hlock⟩ := portRelease_goto st t p .idle (.freeing p 2 .idle)
    rcases heq with heq | heq <;> rw [heq]
    · exact ⟨_, rfl, nearer_same hthreads hlock
        (hpc ▸ .of (by simp [Pc.weight, After.weight]) (.inl rfl) (.inr rfl) (.inr rfl))⟩
    · exact ⟨_, rfl, nearer_same hthreads hlock (hpc ▸ .of (by simp [Pc.weight]) (.inl rfl) (.inl rfl) (.inr rfl))⟩
  case close epfd =>
    obtain ⟨base, hthreads, ⟨heq, hlock⟩ | ⟨heq, hlock⟩⟩ := close_failing st t epfd <;> rw [heq]
    · exact ⟨_, rfl, nearer_same hthreads hlock (hpc ▸ .of (by simp [Pc.weight]) (.inl rfl) (.inl rfl) (.inr rfl))⟩
    · refine ⟨_, rfl, nearer_goto hthreads (fun u hu => .inl ?_)
        (hpc ▸ .of (by simp [Pc.weight]) (.inl rfl) (.inl rfl) (.inr rfl))⟩
      rw [hlock] at hu
      exact (Option.some.inj hu).symm
  case closeWake p closePublicFd =>
    split
    · exact ⟨_, rfl, nearer_same rfl rfl
        (hpc ▸ .of (by simp [Pc.weight]) (.inl rfl) (.inr rfl) (.inr rfl))⟩
    · exact ⟨_, rfl, nearer_unlock rfl
        (hpc ▸ .of (by simp [Pc.weight, After.weight]) (.inl rfl) (.inr rfl) (.inr rfl))⟩
  case closeFd closed =>
    cases closed with
    | none => exact ⟨_, rfl, nearer_unlock rfl (hpc ▸ .of (by simp [Pc.weight]) (.inl rfl) (.inl rfl) (.inr rfl))⟩
    | some p =>
      exact ⟨_, rfl, nearer_unlock rfl
        (hpc ▸ .of (by simp [Pc.weight, After.weight]) (.inl rfl) (.inr rfl) (.inr rfl))⟩
  case cancelRelease p =>
    obtain ⟨base, heq, hthreads, hlock⟩ := portRelease_goto st t p .dead (.cancelFree p)
    rcases heq with heq | heq <;> rw [heq]
    · exact ⟨_, rfl, nearer_same hthreads hlock (hpc ▸ .of (by simp [Pc.weight]) (.inl rfl) (.inr rfl) (.inl rfl))⟩
    · exact ⟨_, rfl, nearer_same hthreads hlock (hpc ▸ .of (by simp [Pc.weight]) (.inl rfl) (.inl rfl) (.inl rfl))⟩
  case cancelFree p =>
    exact ⟨_, rfl, nearer_same rfl rfl (hpc ▸ .of (by simp [Pc.weight]) (.inl rfl) (.inl rfl) (.inl rfl))⟩

theorem Pc.holds_of_locksPort (h : pc.locksPort = some p) : pc.holds = some p := by
  cases pc <;> first | exact h | cases h

theorem ready_of_locks (h : (st.threads t).locks = true) : st.Ready t := by
  cases hpc : st.threads t <;> rw [hpc] at h <;>
    first
    | (cases h; done)
    | exact ⟨by rw [hpc]; exact Nat.succ_pos _, by rw [hpc]; nofun, by rw [hpc]; simp,
        by rw [hpc]; nofun⟩

theorem ready_of_locksPort (h : (st.threads t).locksPort = some p) : st.Ready t := by
  cases hpc : st.threads t <;> rw [hpc] at h <;>
    first
    | (cases h; done)
    | exact ⟨by rw [hpc]; exact Nat.succ_pos _, by rw [hpc]; nofun, by rw [hpc]; simp,
        by rw [hpc]; nofun⟩

/-- Without a holder of the registry lock, a thread is kept from its next step only by the holder
of a port's own lock. -/
theorem ready_or_port (h : st.Inv True) (free : st.lock = none) (busy : 0 < (st.threads t).weight)
    (wait : ∀ p after, st.threads t = .condWait p after → (st.ports p).refs = 0) :
    st.Ready t ∨ ∃ p u, (st.threads t).holds = some p ∧ (st.threads u).locksPort = some p := by
  by_cases hport : ∀ p, st.threads t = .control p ∨ st.threads t = .waitStart p ∨
      st.threads t = .decorate p → (st.ports p).lock = none
  · exact .inl ⟨busy, fun _ => free, hport, wait⟩
  · push Not at hport
    obtain ⟨p, hpc, hheld⟩ := hport
    obtain ⟨u, hu⟩ := Option.ne_none_iff_exists'.mp hheld
    refine .inr ⟨p, u, ?_, (h.portLock u p).mpr hu⟩
    rcases hpc with hpc | hpc | hpc <;> rw [hpc] <;> rfl

/-- Some thread is always in nobody's way: the thread itself, the holder of the registry lock or a
thread with a reference on the port in question. -/
theorem someone_ready (h : st.Inv True) (busy : 0 < (st.threads t).weight) : ∃ v, st.Ready v ∧
    (v = t ∨ st.lock = some v ∨
      ∃ p, (st.threads t).about = some p ∧ (st.threads v).holds = some p) := by
  cases hlock : st.lock with
  | some u => exact ⟨u, ready_of_locks ((h.lock u).mpr hlock), .inr (.inl rfl)⟩
  | none =>
    by_cases hwait : ∀ p after, st.threads t = .condWait p after → (st.ports p).refs = 0
    · rcases ready_or_port h hlock busy hwait with hready | ⟨p, u, hholds, hlocks⟩
      · exact ⟨t, hready, .inl rfl⟩
      · exact ⟨u, ready_of_locksPort hlocks,
          .inr (.inr ⟨p, by simp [Pc.about, hholds], Pc.holds_of_locksPort hlocks⟩)⟩
    · -- a closer waits for a reference, and somebody holds one
      push Not at hwait
      obtain ⟨p, after, hpc, hrefs⟩ := hwait
      have hat := h.owned t p .waiting (by rw [hpc]; rfl)
      have habout : (st.threads t).about = some p := by rw [hpc]; rfl
      obtain ⟨w, hw⟩ := (h.refs p hat.1.published).exists_of_pos (Nat.pos_of_ne_zero hrefs)
      have hbusy : 0 < (st.threads w).weight := by
        cases hpcw : st.threads w <;> rw [hpcw] at hw <;> try (cases hw; done)
        case closingCheck q site => cases site <;> exact Nat.succ_pos _
        all_goals exact Nat.succ_pos _
      have hawake : ∀ q after, st.threads w = .condWait q after → (st.ports q).refs = 0 := by
        intro q after' hpcw
        rw [hpcw] at hw
        cases hw
      rcases ready_or_port h hlock hbusy hawake with hready | ⟨q, u, hholds, hlocks⟩
      · exact ⟨w, hready, .inr (.inr ⟨p, habout, hw⟩)⟩
      · obtain rfl : p = q := Option.some.inj (hw.symm.trans hholds)
        exact ⟨u, ready_of_locksPort hlocks,
          .inr (.inr ⟨p, habout, Pc.holds_of_locksPort hlocks⟩)⟩

theorem idle_of_weight (alive : pc.alive = true) (h : pc.weight = 0) : pc = .idle := by
  cases pc <;> try (cases alive; done)
  case idle => rfl
  case closingCheck q site => cases site <;> cases h
  all_goals
    simp only [Pc.weight] at h
    omega

/-- The threads that can stand in the way of `t`. -/
structure Registry.Covers (st : Registry) (t : Tid) (S : Finset Tid) : Prop where
  self : t ∈ S
  lock : ∀ u, st.lock = some u → u ∈ S
  users : ∀ p, (st.threads t).about = some p → ∀ u, (st.threads u).holds = some p → u ∈ S

theorem Registry.Covers.nearer {S : Finset Tid} {v : Tid} (h : st.Covers t S) (hv : v ∈ S)
    (hn : st.Nearer v st') : st'.Covers t S := by
  refine ⟨h.self, fun u hu => ?_, fun p hp u hu => ?_⟩
  · rcases hn.lock u hu with rfl | hu
    · exact hv
    · exact h.lock u hu
  · have habout : (st.threads t).about = some p := by
      by_cases ht : t = v
      · subst ht
        exact hn.below.about p hp
      · rwa [hn.others t ht] at hp
    refine h.users p habout u ?_
    by_cases huv : u = v
    · subst huv
      exact hn.below.holds p hu
    · rwa [hn.others u huv] at hu

/-- Every thread can finish its call, whatever the others do with theirs meanwhile. -/
theorem finishes (n : Nat) (h : st.Inv True) {S : Finset Tid} (hS : st.Covers t S)
    (halive : (st.threads t).alive = true) (hn : ∑ u ∈ S, (st.threads u).weight ≤ n) :
    ∃ acts st', (∀ a ∈ acts, ∃ u, a = .run u failing) ∧
      run Registry.step st acts = some st' ∧ st'.threads t = .idle := by
  induction n generalizing st with
  | zero =>
    have hzero : (st.threads t).weight = 0 :=
      Finset.sum_eq_zero_iff.mp (Nat.le_zero.mp hn) t hS.self
    exact ⟨[], st, by simp, rfl, idle_of_weight halive hzero⟩
  | succ n ih =>
    by_cases hbusy : 0 < (st.threads t).weight
    · obtain ⟨v, hready, hv⟩ := someone_ready h hbusy
      have hvS : v ∈ S := by
        rcases hv with rfl | hlock | ⟨p, hp, hholds⟩
        · exact hS.self
        · exact hS.lock v hlock
        · exact hS.users p hp v hholds
      obtain ⟨mid, hstep, hnearer⟩ := ready_step hready
      have hless : ∑ u ∈ S, (mid.threads u).weight < ∑ u ∈ S, (st.threads u).weight := by
        refine Finset.sum_lt_sum (fun u _ => ?_) ⟨v, hvS, hnearer.below.weight⟩
        by_cases hu : u = v
        · subst hu
          exact hnearer.below.weight.le
        · rw [hnearer.others u hu]
      have halive' : (mid.threads t).alive = true := by
        by_cases ht : t = v
        · subst ht
          exact hnearer.below.alive halive
        · rwa [hnearer.others t ht]
      obtain ⟨acts, last, hacts, hrun, hidle⟩ :=
        ih (run_inv h hstep) (hS.nearer hvS hnearer) halive' (by omega)
      refine ⟨.run v failing :: acts, last, ?_, ?_, hidle⟩
      · intro a ha
        rcases List.mem_cons.mp ha with rfl | ha
        · exact ⟨v, rfl⟩
        · exact hacts a ha
      · show (st.run v failing).bind _ = some last
        rw [hstep]
        exact hrun
    · exact ⟨[], st, by simp, rfl, idle_of_weight halive (by omega)⟩

end

end WepollEx.Posix
