import WepollEx.Lifecycle.Ledger
import WepollEx.System.Environment
import WepollEx.System.Threads

/-!
# Pending polls and storage over whole runs

Whatever the kernel and the callers do, the counter of pending polls is the number of registrations
with one, every request, armed wait and packet belongs to a registration with a pending poll, and
every registration is released once.
-/

namespace WepollEx

open Granted

theorem ledger_create (lifetime : LifetimeMode) (explicitRearm udpProbeEvent : Bool) :
    Ledger ⟨fun _ => none, .create lifetime explicitRearm udpProbeEvent⟩ where
  lt := fun a n ha => by cases ha
  inj := fun a b n ha => by cases ha
  unreleased := fun a n ha => by cases ha
  released := fun n hn => absurd hn (Nat.not_lt_zero n)
  future := fun _ _ => rfl

theorem Reachable.ledger {start st : Sys} (h : Reachable start st) (h0 : Ordered start)
    (ledger : Ledger start.mem) : Ledger st.mem := by
  refine h.invariant (P := fun st => Ledger st.mem) h0 ledger ?_
  intro st st' a ordered hledger hstep
  exact hledger.memMoves (step_moves ordered hstep).1

/-- The polls of a list of registrations, counted. -/
theorem sum_polls (m : Mem) (xs : List Addr) : (xs.map m.polls).sum =
    (xs.filter fun a => (m.socks a).any fun s => s.pollStatus ≠ .idle).length := by
  induction xs with
  | nil => rfl
  | cons a xs ih =>
    rw [List.map_cons, List.sum_cons, ih, List.filter_cons, Mem.polls]
    cases hs : m.socks a with
    | none => simp
    | some s =>
      by_cases hidle : s.pollStatus = .idle
      · simp [EpSock.polls, hidle]
      · simp [EpSock.polls, hidle]
        omega

/-- The accounting of a port at the release of its lock. -/
structure Mem.Accounted (m : Mem) : Prop where
  /-- The list of all registrations links the stored ones, and the counter counts those of them
  that have a pending poll. -/
  counted : ∃ xs, m.port.sockList.Repr xs ∧ (∀ a, a ∈ xs ↔ ∃ s, m.socks a = some s) ∧
    m.port.pendingPollCount =
      (xs.filter fun a => (m.socks a).any fun s => s.pollStatus ≠ .idle).length
  /-- A request in flight, an armed wait or a packet belongs to a registration with a poll. -/
  referenced : ∀ a, m.port.afdInFlight a = true ∨ m.port.waitArmed a = true ∨
    0 < m.port.packets a → ∃ s, m.socks a = some s ∧ s.pollStatus ≠ .idle
  single : ∀ a, m.port.packets a ≤ 1
  stored : ∀ a s, m.socks a = some s →
    s.serial < m.port.nextSerial ∧ m.port.freedCount s.serial = 0
  gone : ∀ r < m.port.nextSerial, (∀ a s, m.socks a = some s → s.serial ≠ r) →
    m.port.freedCount r = 1
  /-- The assertion against an underflow of the counter never fails. -/
  accounted : m.port.accountingViolated = false

theorem Sound.accounted_of_ledger {m : Mem} (h : Sound m) (ledger : Ledger m) : m.Accounted where
  counted := by
    obtain ⟨xs, registry⟩ := h.registry
    refine ⟨xs, registry.repr, fun a => ?_, ?_⟩
    · rw [registry.mem a, Option.ne_none_iff_exists']
    · rw [registry.polls, sum_polls]
  referenced := by
    intro a href
    have hrefs : m.port.refs a ≠ 0 := by
      rw [refs_eq]
      rcases href with hin | hin | hin
      · simp [hin]
      · simp [hin]
      · omega
    cases hs : m.socks a with
    | none => exact absurd (h.dangling a hs) hrefs
    | some s => exact ⟨s, rfl, (h.life a s hs).refs_busy hrefs⟩
  single := by
    intro a
    have hle : m.port.packets a ≤ m.port.refs a := by
      rw [refs_eq]
      omega
    cases hs : m.socks a with
    | none =>
      have := h.dangling a hs
      omega
    | some s =>
      have : m.port.refs a ≤ 1 := (h.life a s hs).refs_le
      omega
  stored := by
    intro a s hs
    have hserial : m.serialAt a = some s.serial := by rw [Mem.serialAt, hs]; rfl
    exact ⟨ledger.lt a _ hserial, ledger.unreleased a _ hserial⟩
  gone := by
    intro r hr hgone
    refine ledger.released r hr fun a ha => ?_
    obtain ⟨s, hs, hserial⟩ := Option.map_eq_some_iff.mp ha
    exact hgone a s hs hserial
  accounted := h.accounted

/-- Pending accounting and storage lifetime, in every reachable state; once the teardown is
finished, every registration there ever was has been released once. -/
theorem pending_accounted (lifetime : LifetimeMode) (explicitRearm udpProbeEvent : Bool) (st : Sys)
    (h : Reachable (.create lifetime explicitRearm udpProbeEvent) st) :
    st.mem.Accounted ∧ (st.phase = .finished →
      ∀ r < st.mem.port.nextSerial, st.mem.port.freedCount r = 1) := by
  have h0 := ordered_create lifetime explicitRearm udpProbeEvent
  have accounted : st.mem.Accounted := (h.ordered h0).sound.accounted_of_ledger
    (h.ledger h0 (ledger_create lifetime explicitRearm udpProbeEvent))
  refine ⟨accounted, fun hfinished r hr => accounted.gone r hr fun a s hs => ?_⟩
  rw [h.vacant h0 rfl hfinished a] at hs
  cases hs

/-- A registration whose poll has just completed is torn down with its port: its cancellation
comes too late, and the drained packet releases it. -/
def closeAfterCompletion : List Act :=
  [add EPOLLIN, receive, .beginClose none, .destroy fun _ => cancel, .drainDequeue 2,
    .drainDispatch completion, .drainDispatch completion, .finishDestroy]

theorem pending_accounted_close : ∃ st,
    (Sys.create .strict false false).run closeAfterCompletion = some st ∧
      st.mem.port.nextSerial = 1 ∧ st.mem.port.freedCount 0 = 1 := by
  have hrun : (((Sys.create .strict false false).run closeAfterCompletion).map
      fun st => (st.mem.port.nextSerial, st.phase)) = some (1, .finished) := by
    decide +kernel
  obtain ⟨st, hst, hend⟩ := Option.map_eq_some_iff.mp hrun
  have hnext : st.mem.port.nextSerial = 1 := congrArg Prod.fst hend
  have hphase : st.phase = .finished := congrArg Prod.snd hend
  have hall := (pending_accounted .strict false false st (Reachable.refl.of_run hst)).2 hphase
  exact ⟨st, hst, hnext, hall 0 (by omega)⟩

end WepollEx
