import WepollEx.Port.Drain

/-!
# Timeouts and the two clocks

A wait measures its timeout on `GetTickCount64` (milliseconds) or, while the high-resolution timer
is in use, on `QueryUnbiasedInterruptTimePrecise` (units of 100 ns).  The conversions below round a
requested duration up to both units, and the remaining time is computed from one reading of the
clock that governs the wait.
-/

namespace WepollEx.Wait

def UINT64_MAX : Nat := 2 ^ 64 - 1
def EP_100NS_PER_MILLISECOND : Nat := 10000
/-- The Windows value of an unbounded wait. -/
def INFINITE : Nat := 2 ^ 32 - 1
def EP_MAX_FINITE_IOCP_WAIT_MS : Nat := INFINITE - 1

/-! ## Timeouts -/

/-- `ep_wait_timeout_t`. -/
structure WaitTimeout where
  infinite : Bool
  milliseconds : Nat
  intervals100ns : Nat
  precise : Bool
  deriving DecidableEq, Repr

/-- `struct timespec` with a 64-bit `time_t`. -/
structure Timespec where
  tvSec : Int
  tvNsec : Int
  fits : -2 ^ 63 ≤ tvSec ∧ tvSec < 2 ^ 63
  deriving DecidableEq, Repr

def epSaturatingMulAddU64 (value multiplier addend : Nat) : Nat :=
  if value > (UINT64_MAX - addend) / multiplier then UINT64_MAX
  else (value * multiplier + addend) % 2 ^ 64

def WaitTimeout.unbounded : WaitTimeout := ⟨true, 0, 0, false⟩

def epWaitTimeoutFromMilliseconds (timeoutMs : Int32) : WaitTimeout :=
  if timeoutMs.toInt < 0 then .unbounded
  else
    { infinite := false
      milliseconds := timeoutMs.toInt.toNat
      intervals100ns := timeoutMs.toInt.toNat * EP_100NS_PER_MILLISECOND % 2 ^ 64
      precise := false }

def Timespec.invalid (timespec : Timespec) : Bool :=
  timespec.tvSec < 0 || timespec.tvNsec < 0 || timespec.tvNsec ≥ 1000000000

/-- A missing timespec waits forever. -/
def epWaitTimeoutFromTimespec : Option Timespec → Except Errno WaitTimeout
  | none => .ok .unbounded
  | some timespec =>
    if timespec.invalid then .error EINVAL
    else
      let seconds := timespec.tvSec.toNat
      let millisRemainder := (timespec.tvNsec.toNat + 999999) / 1000000
      let intervalsRemainder := (timespec.tvNsec.toNat + 99) / 100
      .ok
        { infinite := false
          milliseconds := epSaturatingMulAddU64 seconds 1000 millisRemainder
          intervals100ns := epSaturatingMulAddU64 seconds 10000000 intervalsRemainder
          precise := seconds ≤ (UINT64_MAX - intervalsRemainder) / 10000000 }

/-- The timeout argument of a public wait call. -/
inductive WaitRequest
  | milliseconds (timeoutMs : Int32)
  | timespec (spec : Option Timespec)
  deriving DecidableEq, Repr

def WaitRequest.timeout : WaitRequest → Except Errno WaitTimeout
  | .milliseconds timeoutMs => .ok (epWaitTimeoutFromMilliseconds timeoutMs)
  | .timespec spec => epWaitTimeoutFromTimespec spec

/-! ## The requested duration -/

/-- The requested duration in nanoseconds, `none` for a wait without a bound. -/
def WaitRequest.nanoseconds : WaitRequest → Option Nat
  | .milliseconds timeoutMs =>
    if timeoutMs.toInt < 0 then none else some (timeoutMs.toInt.toNat * 1000000)
  | .timespec none => none
  | .timespec (some spec) => some (spec.tvSec.toNat * 1000000000 + spec.tvNsec.toNat)

inductive Clock
  /-- `GetTickCount64`. -/
  | tick
  /-- `QueryUnbiasedInterruptTimePrecise`. -/
  | interrupt
  deriving DecidableEq, Repr

/-- The unit of a clock in nanoseconds. -/
def Clock.unit : Clock → Nat
  | .tick => 1000000
  | .interrupt => 100

/-- A duration rounded up to a clock's unit. -/
def Clock.roundUp (clock : Clock) (nanoseconds : Nat) : Nat :=
  (nanoseconds + clock.unit - 1) / clock.unit

/-! ## The remaining time -/

/-- `ep_wait_state_t`. -/
structure WaitState where
  timeout : WaitTimeout
  startMs : Nat
  start100ns : Nat
  timeoutGeneration : Nat
  preciseClock : Bool
  preciseEnabled : Bool
  preciseAttempted : Bool
  deriving DecidableEq, Repr

/-- The difference of two unsigned 64-bit readings. -/
def elapsed (now start : Nat) : Nat := (now + 2 ^ 64 - start) % 2 ^ 64

namespace WaitState

/-- The clock that `ep_wait_remaining_milliseconds` reads. -/
def governing (state : WaitState) : Clock := if state.preciseEnabled then .interrupt else .tick

def start (state : WaitState) : Clock → Nat
  | .tick => state.startMs
  | .interrupt => state.start100ns

/-- The timeout in the unit of a clock. -/
def duration (state : WaitState) : Clock → Nat
  | .tick => state.timeout.milliseconds
  | .interrupt => state.timeout.intervals100ns

end WaitState

/-- `now` is the reading of the governing clock. -/
def epWaitRemainingMilliseconds (now : Nat) (state : WaitState) : Nat :=
  if state.preciseEnabled then
    let gone := elapsed now state.start100ns
    if gone ≥ state.timeout.intervals100ns then 0
    else
      let remaining := state.timeout.intervals100ns - gone
      remaining / EP_100NS_PER_MILLISECOND +
        if remaining % EP_100NS_PER_MILLISECOND ≠ 0 then 1 else 0
  else
    let gone := elapsed now state.startMs
    if gone ≥ state.timeout.milliseconds then 0 else state.timeout.milliseconds - gone

/-- `now` is a reading of the 100-ns clock. -/
def epWaitRemaining100ns (now : Nat) (state : WaitState) : Nat :=
  let gone := elapsed now state.start100ns
  if gone ≥ state.timeout.intervals100ns then 0 else state.timeout.intervals100ns - gone

def epWaitExpired (now : Nat) (state : WaitState) : Bool :=
  !state.timeout.infinite && epWaitRemainingMilliseconds now state = 0

def epWaitBackstopMilliseconds (now : Nat) (state : WaitState) : Nat :=
  if state.timeout.infinite then INFINITE
  else
    let remaining := epWaitRemainingMilliseconds now state
    if remaining > EP_MAX_FINITE_IOCP_WAIT_MS then EP_MAX_FINITE_IOCP_WAIT_MS else remaining

/-! ## What the conversions compute -/

theorem saturating_eq (value multiplier addend : Nat) (positive : 0 < multiplier)
    (small : addend ≤ UINT64_MAX) :
    epSaturatingMulAddU64 value multiplier addend =
      min UINT64_MAX (value * multiplier + addend) := by
  unfold epSaturatingMulAddU64
  split
  · rename_i hover
    have h : UINT64_MAX - addend < value * multiplier := (Nat.div_lt_iff_lt_mul positive).mp hover
    omega
  · rename_i hfits
    have h : value * multiplier ≤ UINT64_MAX - addend :=
      (Nat.le_div_iff_mul_le positive).mp (Nat.le_of_not_lt hfits)
    have hsum : value * multiplier + addend ≤ UINT64_MAX := by omega
    rw [Nat.min_eq_right hsum, Nat.mod_eq_of_lt (by unfold UINT64_MAX at hsum; omega)]

/-- The timeout of a request is its duration rounded up to each unit, capped at 64 bits. -/
structure Converted (timeout : WaitTimeout) (nanoseconds : Nat) : Prop where
  finite : timeout.infinite = false
  milliseconds : timeout.milliseconds = min UINT64_MAX (Clock.tick.roundUp nanoseconds)
  intervals : timeout.precise = true →
    timeout.intervals100ns = Clock.interrupt.roundUp nanoseconds ∧
      timeout.intervals100ns ≤ UINT64_MAX

theorem fromMilliseconds_converted (timeoutMs : Int32) (h : 0 ≤ timeoutMs.toInt) :
    Converted (epWaitTimeoutFromMilliseconds timeoutMs) (timeoutMs.toInt.toNat * 1000000) := by
  unfold epWaitTimeoutFromMilliseconds
  rw [if_neg (by omega)]
  refine ⟨rfl, ?_, nofun⟩
  have hlt := timeoutMs.toInt_lt
  simp only [Clock.roundUp, Clock.unit, UINT64_MAX]
  omega

theorem fromTimespec_converted (timespec : Timespec) {timeout : WaitTimeout}
    (h : epWaitTimeoutFromTimespec (some timespec) = .ok timeout) :
    Converted timeout (timespec.tvSec.toNat * 1000000000 + timespec.tvNsec.toNat) := by
  unfold epWaitTimeoutFromTimespec at h
  simp only at h
  split at h
  · cases h
  rename_i hvalid
  simp only [Timespec.invalid, Bool.or_eq_true, decide_eq_true_eq, not_or] at hvalid
  obtain ⟨⟨hsec, hnsec⟩, hbound⟩ := hvalid
  cases h
  refine ⟨rfl, ?_, fun hprecise => ?_⟩
  · rw [saturating_eq _ _ _ (by omega) (by unfold UINT64_MAX; omega)]
    simp only [Clock.roundUp, Clock.unit]
    omega
  · simp only [decide_eq_true_eq] at hprecise
    dsimp only
    rw [saturating_eq _ _ _ (by omega) (by unfold UINT64_MAX; omega)]
    simp only [Clock.roundUp, Clock.unit, UINT64_MAX] at hprecise ⊢
    omega

/-- Every finite request is converted to its duration. -/
theorem WaitRequest.converted {request : WaitRequest} {timeout : WaitTimeout} {nanoseconds : Nat}
    (h : request.timeout = .ok timeout) (finite : request.nanoseconds = some nanoseconds) :
    Converted timeout nanoseconds := by
  cases request with
  | milliseconds timeoutMs =>
    simp only [WaitRequest.nanoseconds] at finite
    split at finite
    · cases finite
    · cases finite
      cases h
      exact fromMilliseconds_converted timeoutMs (by omega)
  | timespec spec =>
    cases spec with
    | none => cases finite
    | some spec =>
      cases finite
      exact fromTimespec_converted spec h

/-- A request without a bound waits forever. -/
theorem WaitRequest.unbounded {request : WaitRequest} {timeout : WaitTimeout}
    (h : request.timeout = .ok timeout) (infinite : request.nanoseconds = none) :
    timeout.infinite = true := by
  cases request with
  | milliseconds timeoutMs =>
    simp only [WaitRequest.nanoseconds] at infinite
    split at infinite
    · rename_i hneg
      cases h
      unfold epWaitTimeoutFromMilliseconds
      rw [if_pos hneg]
      rfl
    · cases infinite
  | timespec spec =>
    cases spec with
    | none =>
      cases h
      rfl
    | some spec => cases infinite

/-- Only a finite wait asks for the 100-ns clock. -/
theorem WaitRequest.finite_of_precise {request : WaitRequest} {timeout : WaitTimeout}
    (h : request.timeout = .ok timeout) (precise : timeout.precise = true) :
    timeout.infinite = false := by
  cases hfinite : request.nanoseconds with
  | some nanoseconds => exact (WaitRequest.converted h hfinite).finite
  | none =>
    cases request with
    | milliseconds timeoutMs =>
      cases h
      unfold epWaitTimeoutFromMilliseconds at precise
      split at precise <;> cases precise
    | timespec spec =>
      cases spec with
      | none =>
        cases h
        cases precise
      | some spec => cases hfinite

/-! ## What an expiry check has seen -/

theorem elapsed_eq {now start : Nat} (h : start ≤ now) (hnow : now < 2 ^ 64) :
    elapsed now start = now - start := by
  unfold elapsed
  rw [show now + 2 ^ 64 - start = (now - start) + 2 ^ 64 by omega, Nat.add_mod_right]
  exact Nat.mod_eq_of_lt (by omega)

/-- The remaining milliseconds are the remaining units of the governing clock, rounded up. -/
theorem remaining_eq {now : Nat} {state : WaitState} (h : state.start state.governing ≤ now)
    (hnow : now < 2 ^ 64) :
    epWaitRemainingMilliseconds now state = Clock.tick.roundUp
      ((state.start state.governing + state.duration state.governing - now) *
        state.governing.unit) := by
  unfold epWaitRemainingMilliseconds
  unfold WaitState.governing at h ⊢
  cases hprecise : state.preciseEnabled with
  | true =>
    simp only [hprecise, if_true, WaitState.start, WaitState.duration] at h ⊢
    rw [elapsed_eq h hnow]
    simp only [EP_100NS_PER_MILLISECOND, Clock.roundUp, Clock.unit]
    split
    · omega
    by_cases hexact : (state.timeout.intervals100ns - (now - state.start100ns)) % 10000 = 0
    · simp only [hexact, ne_eq, not_true_eq_false, if_false]
      omega
    · simp only [hexact, ne_eq, not_false_eq_true, if_true]
      omega
  | false =>
    simp only [hprecise, Bool.false_eq_true, if_false, WaitState.start, WaitState.duration] at h ⊢
    rw [elapsed_eq h hnow]
    simp only [Clock.roundUp, Clock.unit]
    split <;> omega

/-- No time remains only once the whole timeout has passed on the governing clock. -/
theorem remaining_zero {now : Nat} {state : WaitState} (h : state.start state.governing ≤ now)
    (hnow : now < 2 ^ 64) (hzero : epWaitRemainingMilliseconds now state = 0) :
    state.start state.governing + state.duration state.governing ≤ now := by
  rw [remaining_eq h hnow] at hzero
  cases hclock : state.governing <;>
    simp only [hclock, Clock.roundUp, Clock.unit] at hzero ⊢ <;> omega

/-- A finite wait never asks for an unbounded dequeue, nor for more than the time left. -/
theorem backstop_finite {state : WaitState} (finite : state.timeout.infinite = false) (now : Nat) :
    epWaitBackstopMilliseconds now state ≤ epWaitRemainingMilliseconds now state ∧
      epWaitBackstopMilliseconds now state < INFINITE := by
  have hcap : EP_MAX_FINITE_IOCP_WAIT_MS < INFINITE := by decide
  unfold epWaitBackstopMilliseconds
  rw [finite]
  dsimp only
  rw [if_neg Bool.false_ne_true]
  split <;> omega

end WepollEx.Wait
