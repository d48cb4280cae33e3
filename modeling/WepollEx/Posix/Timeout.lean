import Mathlib.Algebra.Order.Floor.Div
import WepollEx.Posix.Metadata
import WepollEx.Wait.Timeout

/-!
# Timespec timeouts

A Windows wait converts its timespec once, to milliseconds and to units of 100 ns.  The POSIX
fallback for a kernel without `epoll_pwait2` cuts it into waits of at most `INT_MAX` milliseconds.
Both round up, and neither loses or gains time at the edges of its integers.
-/

namespace WepollEx.Posix

open Wait (UINT64_MAX)

/-! ## The chunked wait -/

/-- `struct timespec` as the fallback counts it down. -/
structure Timespec where
  tvSec : Int
  tvNsec : Int
  deriving DecidableEq, Repr

def INT_MAX : Int := 2 ^ 31 - 1

def validateTimespecTimeout : Option Timespec → Option Errno
  | none => none
  | some timeout =>
    if timeout.tvSec < 0 || timeout.tvNsec < 0 || timeout.tvNsec ≥ 1000000000 then some EINVAL
    else none

/-- The timeout of the next wait, and whether another one follows when it expires. -/
def timeoutToMillisecondChunk (timeout : Option Timespec) : Except Errno (Int32 × Bool) :=
  match validateTimespecTimeout timeout, timeout with
  | some e, _ => .error e
  | none, none => .ok (-1, false)
  | none, some timeout =>
    let maxSeconds := INT_MAX.tdiv 1000
    let maxNanoseconds := INT_MAX.tmod 1000 * 1000000
    if timeout.tvSec > maxSeconds ||
        (timeout.tvSec == maxSeconds && timeout.tvNsec > maxNanoseconds) then
      .ok (Int32.ofInt INT_MAX, true)
    else
      let milliseconds := timeout.tvSec * 1000
      let milliseconds :=
        if timeout.tvNsec ≠ 0 then milliseconds + (timeout.tvNsec + 999999).tdiv 1000000
        else milliseconds
      .ok (Int32.ofInt milliseconds, false)

def timeoutSubtractMillisecondChunk (timeout : Timespec) (milliseconds : Int32) : Timespec :=
  let seconds := milliseconds.toInt.tdiv 1000
  let nanoseconds := milliseconds.toInt.tmod 1000 * 1000000
  let timeout := { timeout with tvSec := timeout.tvSec - seconds }
  let timeout :=
    if timeout.tvNsec < nanoseconds then
      ⟨timeout.tvSec - 1, timeout.tvNsec + 1000000000⟩
    else timeout
  { timeout with tvNsec := timeout.tvNsec - nanoseconds }

/-- A native wait, and what was left of the timeout when it was made. -/
structure ChunkWait where
  remaining : Timespec
  timeoutMs : Int32
  deriving DecidableEq, Repr

/-- The waits of a chunked wait, and its result. -/
structure ChunkWaits where
  waits : List ChunkWait
  result : Except Errno Int

/-! ## One chunk -/

/-- A timeout that passes the check. -/
structure Timespec.Valid (timeout : Timespec) : Prop where
  sec : 0 ≤ timeout.tvSec
  nsec : 0 ≤ timeout.tvNsec
  carry : timeout.tvNsec < 1000000000

/-- The duration of a timeout in nanoseconds. -/
def Timespec.nanoseconds (timeout : Timespec) : Int := timeout.tvSec * 1000000000 + timeout.tvNsec

section

variable {timeout : Timespec}

theorem validate_eq_none_iff : validateTimespecTimeout (some timeout) = none ↔ timeout.Valid := by
  unfold validateTimespecTimeout
  simp only [Bool.or_eq_true, decide_eq_true_eq, ite_eq_right_iff, reduceCtorEq, imp_false, not_or,
    Int.not_lt, Int.not_le]
  constructor
  · rintro ⟨⟨hsec, hnsec⟩, hcarry⟩
    exact ⟨hsec, hnsec, by omega⟩
  · rintro ⟨hsec, hnsec, hcarry⟩
    exact ⟨⟨hsec, hnsec⟩, by omega⟩

theorem INT_MAX_toInt : (Int32.ofInt INT_MAX).toInt = INT_MAX := by decide

/-- A longest chunk in seconds and milliseconds. -/
theorem INT_MAX_parts : INT_MAX.tdiv 1000 = 2147483 ∧ INT_MAX.tmod 1000 = 647 ∧
    INT_MAX = 2147483647 := by decide

/-- Either the timeout fits one wait, or a wait of `INT_MAX` milliseconds is a part of it. -/
theorem toMillisecondChunk_cases (h : timeout.Valid) :
    (∃ ms, timeoutToMillisecondChunk (some timeout) = .ok (ms, false) ∧ 0 ≤ ms.toInt ∧
      ms.toInt = (timeout.nanoseconds + 999999) / 1000000) ∨
    (timeoutToMillisecondChunk (some timeout) = .ok (Int32.ofInt INT_MAX, true) ∧
      INT_MAX * 1000000 < timeout.nanoseconds) := by
  have hcheck := validate_eq_none_iff.mpr h
  obtain ⟨hsec, hnsec, hcarry⟩ := h
  obtain ⟨hdiv, hmod, hmax⟩ := INT_MAX_parts
  unfold timeoutToMillisecondChunk
  simp only [hcheck, hdiv, hmod]
  split
  · rename_i hlong
    refine .inr ⟨rfl, ?_⟩
    simp only [Bool.or_eq_true, Bool.and_eq_true, beq_iff_eq, decide_eq_true_eq] at hlong
    simp only [hmax, Timespec.nanoseconds]
    omega
  · rename_i hshort
    simp only [Bool.or_eq_true, Bool.and_eq_true, beq_iff_eq, decide_eq_true_eq] at hshort
    refine .inl ⟨_, rfl, ?_⟩
    have hms : (if timeout.tvNsec ≠ 0 then
        timeout.tvSec * 1000 + (timeout.tvNsec + 999999).tdiv 1000000
        else timeout.tvSec * 1000) = (timeout.nanoseconds + 999999) / 1000000 := by
      simp only [Timespec.nanoseconds]
      rw [Int.tdiv_eq_ediv_of_nonneg (by omega)]
      split <;> omega
    rw [hms]
    have hfits : (timeout.nanoseconds + 999999) / 1000000 ≤ INT_MAX := by
      simp only [hmax, Timespec.nanoseconds]
      omega
    have hpos : 0 ≤ (timeout.nanoseconds + 999999) / 1000000 := by
      simp only [Timespec.nanoseconds]
      omega
    rw [Int32.toInt_ofInt_of_le (by omega) (by omega)]
    exact ⟨hpos, rfl⟩

/-- Subtracting a chunk borrows from the seconds where it has to. -/
theorem subtract_valid (h : timeout.Valid) (long : INT_MAX * 1000000 < timeout.nanoseconds) :
    (timeoutSubtractMillisecondChunk timeout (Int32.ofInt INT_MAX)).Valid ∧
      (timeoutSubtractMillisecondChunk timeout (Int32.ofInt INT_MAX)).nanoseconds =
        timeout.nanoseconds - INT_MAX * 1000000 := by
  obtain ⟨hsec, hnsec, hcarry⟩ := h
  obtain ⟨hdiv, hmod, hmax⟩ := INT_MAX_parts
  simp only [hmax, Timespec.nanoseconds] at long
  by_cases hborrow : timeout.tvNsec < 647 * 1000000
  · have heq : timeoutSubtractMillisecondChunk timeout (Int32.ofInt INT_MAX) =
        ⟨timeout.tvSec - 2147483 - 1, timeout.tvNsec + 1000000000 - 647 * 1000000⟩ := by
      simp only [timeoutSubtractMillisecondChunk, INT_MAX_toInt, hdiv, hmod, if_pos hborrow]
    rw [heq]
    refine ⟨⟨?_, ?_, ?_⟩, ?_⟩ <;> simp only [hmax, Timespec.nanoseconds] <;> omega
  · have heq : timeoutSubtractMillisecondChunk timeout (Int32.ofInt INT_MAX) =
        ⟨timeout.tvSec - 2147483, timeout.tvNsec - 647 * 1000000⟩ := by
      simp only [timeoutSubtractMillisecondChunk, INT_MAX_toInt, hdiv, hmod, if_neg hborrow]
    rw [heq]
    refine ⟨⟨?_, ?_, ?_⟩, ?_⟩ <;> simp only [hmax, Timespec.nanoseconds] <;> omega

/-- Another chunk follows only with less time left. -/
theorem subtract_decreases {ms : Int32} (h : timeoutToMillisecondChunk (some timeout) = .ok (ms, true)) :
    (timeoutSubtractMillisecondChunk timeout ms).tvSec.toNat < timeout.tvSec.toNat := by
  have hvalid : timeout.Valid := by
    rw [← validate_eq_none_iff]
    cases hcheck : validateTimespecTimeout (some timeout) with
    | none => rfl
    | some e =>
      simp only [timeoutToMillisecondChunk, hcheck] at h
      cases h
  rcases toMillisecondChunk_cases hvalid with ⟨_, hlast, -⟩ | ⟨hmore, hlong⟩
  · rw [hlast] at h
    cases h
  · obtain rfl : ms = Int32.ofInt INT_MAX := by
      rw [hmore] at h
      cases h
      rfl
    obtain ⟨hnext, hns⟩ := subtract_valid hvalid hlong
    have hsec := hnext.sec
    have hnsec := hnext.nsec
    have hcarry := hvalid.carry
    have hmax := INT_MAX_parts.2.2
    unfold Timespec.nanoseconds at hns
    omega

end

/-! ## The loop -/

/-- `posix_timespec_wait_chunks`; `native` answers the waits in their order. -/
def posixTimespecWaitChunks (native : Nat → Int) (remaining : Timespec) : ChunkWaits :=
  match h : timeoutToMillisecondChunk (some remaining) with
  | .error e => ⟨[], .error e⟩
  | .ok (timeoutMs, false) => ⟨[⟨remaining, timeoutMs⟩], .ok (native 0)⟩
  | .ok (timeoutMs, true) =>
    if native 0 ≠ 0 then ⟨[⟨remaining, timeoutMs⟩], .ok (native 0)⟩
    else
      let rest := posixTimespecWaitChunks (fun i => native (i + 1))
        (timeoutSubtractMillisecondChunk remaining timeoutMs)
      ⟨⟨remaining, timeoutMs⟩ :: rest.waits, rest.result⟩
termination_by remaining.tvSec.toNat
decreasing_by exact subtract_decreases h

section

variable {native : Nat → Int} {remaining : Timespec} {ms : Int32}

theorem waitChunks_last (h : timeoutToMillisecondChunk (some remaining) = .ok (ms, false)) :
    posixTimespecWaitChunks native remaining = ⟨[⟨remaining, ms⟩], .ok (native 0)⟩ := by
  rw [posixTimespecWaitChunks]
  split
  all_goals
    rename_i h'
    rw [h] at h'
    cases h'
  rfl

theorem waitChunks_more (native : Nat → Int) (expired : native 0 = 0)
    (h : timeoutToMillisecondChunk (some remaining) = .ok (ms, true)) :
    posixTimespecWaitChunks native remaining =
      ⟨⟨remaining, ms⟩ :: (posixTimespecWaitChunks (fun i => native (i + 1))
        (timeoutSubtractMillisecondChunk remaining ms)).waits,
        (posixTimespecWaitChunks (fun i => native (i + 1))
          (timeoutSubtractMillisecondChunk remaining ms)).result⟩ := by
  rw [posixTimespecWaitChunks]
  split
  all_goals
    rename_i h'
    rw [h] at h'
    cases h'
  rw [if_neg (by simp [expired])]

end

/-- A wait of the loop whose timeout `epoll_wait` accepts and whose remaining time is valid. -/
structure ChunkWait.Valid (wait : ChunkWait) : Prop where
  timeout : 0 ≤ wait.timeoutMs.toInt ∧ wait.timeoutMs.toInt ≤ INT_MAX
  remaining : wait.remaining.Valid
  fits : wait.remaining.tvSec < 2 ^ 63

/-- What the waits of a loop add up to while none of them finds an event, by induction on the
seconds that are left. -/
theorem waitChunks_expire {remaining : Timespec} (h : remaining.Valid)
    (fits : remaining.tvSec < 2 ^ 63) :
    (posixTimespecWaitChunks (fun _ => 0) remaining).result = .ok 0 ∧
      (∀ wait ∈ (posixTimespecWaitChunks (fun _ => 0) remaining).waits, wait.Valid) ∧
      ((posixTimespecWaitChunks (fun _ => 0) remaining).waits.map fun wait =>
        wait.timeoutMs.toInt).sum = (remaining.nanoseconds + 999999) / 1000000 := by
  induction hn : remaining.tvSec.toNat using Nat.strong_induction_on generalizing remaining with
  | _ n ih =>
    rcases toMillisecondChunk_cases h with ⟨ms, hlast, hpos, hms⟩ | ⟨hmore, hlong⟩
    · rw [waitChunks_last hlast]
      have hfits := Int32.toInt_le ms
      refine ⟨rfl, ?_, by simpa using hms⟩
      intro wait hwait
      obtain rfl := List.mem_singleton.mp hwait
      exact ⟨⟨hpos, hfits⟩, h, fits⟩
    · have hless := subtract_decreases hmore
      obtain ⟨hvalid, hns⟩ := subtract_valid h hlong
      have hsec := h.sec
      rw [waitChunks_more (fun _ => 0) rfl hmore]
      obtain ⟨hresult, hwaits, hsum⟩ := ih _ (hn ▸ hless) hvalid (by omega) rfl
      refine ⟨hresult, ?_, ?_⟩
      · intro wait hwait
        rcases List.mem_cons.mp hwait with rfl | hwait
        · exact ⟨by rw [INT_MAX_toInt]; decide, h, fits⟩
        · exact hwaits wait hwait
      · rw [List.map_cons, List.sum_cons, hsum, hns, INT_MAX_toInt]
        omega

/-! ## Both conversions -/

/-- The exact values of the operations of `ep_saturating_mul_add_u64`. -/
def mulAddSteps (value multiplier addend : Nat) : List Int :=
  ((UINT64_MAX : Int) - addend) ::
    if value > (UINT64_MAX - addend) / multiplier then []
    else [(value : Int) * multiplier, (value : Int) * multiplier + addend]

/-- The exact values of the operations of `ep_wait_timeout_from_timespec`. -/
def timespecSteps (timespec : Wait.Timespec) : List Int :=
  let seconds := timespec.tvSec.toNat
  let millisRemainder := (timespec.tvNsec.toNat + 999999) / 1000000
  let intervalsRemainder := (timespec.tvNsec.toNat + 99) / 100
  [timespec.tvNsec + 999999, timespec.tvNsec + 99, (UINT64_MAX : Int) - intervalsRemainder] ++
    mulAddSteps seconds 1000 millisRemainder ++ mulAddSteps seconds 10000000 intervalsRemainder

/-- A value of an unsigned 64-bit integer. -/
def Fits64 (v : Int) : Prop := 0 ≤ v ∧ v ≤ UINT64_MAX

theorem mulAddSteps_fit {value multiplier addend : Nat} (positive : 0 < multiplier)
    (small : addend ≤ UINT64_MAX) : ∀ v ∈ mulAddSteps value multiplier addend, Fits64 v := by
  intro v hv
  unfold mulAddSteps at hv
  split at hv
  · obtain rfl := List.mem_singleton.mp hv
    unfold Fits64
    omega
  · rename_i hfits
    have h : value * multiplier ≤ UINT64_MAX - addend :=
      (Nat.le_div_iff_mul_le positive).mp (Nat.le_of_not_lt hfits)
    have hcast : ((value * multiplier : Nat) : Int) = (value : Int) * multiplier := by push_cast; rfl
    simp only [List.mem_cons, List.not_mem_nil, or_false] at hv
    unfold Fits64
    rcases hv with rfl | rfl | rfl <;> omega

theorem timespecSteps_fit {timespec : Wait.Timespec} (nsec : 0 ≤ timespec.tvNsec)
    (carry : timespec.tvNsec < 1000000000) :
    ∀ v ∈ timespecSteps timespec, Fits64 v := by
  intro v hv
  simp only [timespecSteps, List.mem_append, List.mem_cons, List.not_mem_nil, or_false] at hv
  rcases hv with ((rfl | rfl | rfl) | hv) | hv
  · unfold Fits64 UINT64_MAX
    omega
  · unfold Fits64 UINT64_MAX
    omega
  · unfold Fits64 UINT64_MAX
    omega
  · exact mulAddSteps_fit (by omega) (by unfold UINT64_MAX; omega) v hv
  · exact mulAddSteps_fit (by omega) (by unfold UINT64_MAX; omega) v hv

/-- The conversion of a duration of `nanoseconds` to milliseconds and to units of 100 ns. -/
structure Rounded (timeout : Wait.WaitTimeout) (nanoseconds : Nat) : Prop where
  finite : timeout.infinite = false
  milliseconds : timeout.milliseconds = min UINT64_MAX (nanoseconds ⌈/⌉ 1000000)
  intervals : timeout.intervals100ns = min UINT64_MAX (nanoseconds ⌈/⌉ 100)
  precise : timeout.precise = true ↔ nanoseconds ⌈/⌉ 100 ≤ UINT64_MAX
  zeroMilliseconds : timeout.milliseconds = 0 ↔ nanoseconds = 0
  zeroIntervals : timeout.intervals100ns = 0 ↔ nanoseconds = 0

theorem fromTimespec_rounded {timespec : Wait.Timespec} (sec : 0 ≤ timespec.tvSec)
    (nsec : 0 ≤ timespec.tvNsec) (carry : timespec.tvNsec < 1000000000) :
    ∃ timeout, Wait.epWaitTimeoutFromTimespec (some timespec) = .ok timeout ∧
      Rounded timeout (timespec.tvSec.toNat * 1000000000 + timespec.tvNsec.toNat) := by
  have hvalid : ¬timespec.invalid = true := by
    simp only [Wait.Timespec.invalid, Bool.or_eq_true, decide_eq_true_eq]
    omega
  simp only [Wait.epWaitTimeoutFromTimespec, if_neg hvalid]
  refine ⟨_, rfl, ?_⟩
  rw [Wait.saturating_eq _ _ _ (by omega) (by unfold UINT64_MAX; omega),
    Wait.saturating_eq _ _ _ (by omega) (by unfold UINT64_MAX; omega)]
  refine ⟨rfl, ?_, ?_, decide_eq_true_iff.trans ?_, ?_, ?_⟩
  all_goals simp only [Nat.ceilDiv_eq_add_pred_div, UINT64_MAX]
  all_goals omega

/-- The timeouts of a timespec, on Windows and in the chunks of the POSIX fallback. -/
theorem timespec_timeouts_exact (timespec : Wait.Timespec) (sec : 0 ≤ timespec.tvSec)
    (nsec : 0 ≤ timespec.tvNsec) (carry : timespec.tvNsec < 1000000000) (nanoseconds : Nat)
    (total : (nanoseconds : Int) = timespec.tvSec * 1000000000 + timespec.tvNsec) :
    (∃ timeout, Wait.epWaitTimeoutFromTimespec (some timespec) = .ok timeout ∧
      Rounded timeout nanoseconds) ∧
    (∀ v ∈ timespecSteps timespec, Fits64 v) ∧
    (posixTimespecWaitChunks (fun _ => 0) ⟨timespec.tvSec, timespec.tvNsec⟩).result = .ok 0 ∧
    (∀ wait ∈ (posixTimespecWaitChunks (fun _ => 0) ⟨timespec.tvSec, timespec.tvNsec⟩).waits,
      wait.Valid) ∧
    ((posixTimespecWaitChunks (fun _ => 0) ⟨timespec.tvSec, timespec.tvNsec⟩).waits.map fun wait =>
      wait.timeoutMs.toInt).sum = (nanoseconds ⌈/⌉ 1000000 : Nat) := by
  have hvalid : Timespec.Valid ⟨timespec.tvSec, timespec.tvNsec⟩ := ⟨sec, nsec, carry⟩
  obtain ⟨hresult, hwaits, hsum⟩ := waitChunks_expire hvalid timespec.fits.2
  obtain rfl : nanoseconds = timespec.tvSec.toNat * 1000000000 + timespec.tvNsec.toNat := by omega
  refine ⟨fromTimespec_rounded sec nsec carry, timespecSteps_fit nsec carry, hresult, hwaits, ?_⟩
  rw [hsum, Nat.ceilDiv_eq_add_pred_div]
  simp only [Timespec.nanoseconds]
  omega

/-- The longest wait there is. -/
theorem timespec_timeouts_exact_longest :
    (∃ timeout, Wait.epWaitTimeoutFromTimespec
      (some ⟨2 ^ 63 - 1, 999999999, by omega⟩) = .ok timeout ∧ timeout.precise = false ∧
      timeout.milliseconds = UINT64_MAX) ∧
    ((posixTimespecWaitChunks (fun _ => 0) ⟨2 ^ 63 - 1, 999999999⟩).waits.map fun wait =>
      wait.timeoutMs.toInt).sum = 2 ^ 63 * 1000 := by
  obtain ⟨⟨timeout, hok, hrounded⟩, -, -, -, hsum⟩ := timespec_timeouts_exact
    ⟨2 ^ 63 - 1, 999999999, by omega⟩ (by decide) (by decide) (by decide)
    (2 ^ 63 * 1000000000 - 1) (by decide)
  refine ⟨⟨timeout, hok, ?_, ?_⟩, hsum.trans (by decide)⟩
  · have hprecise := hrounded.precise
    rw [← Bool.not_eq_true, hprecise]
    decide
  · rw [hrounded.milliseconds]
    decide

end WepollEx.Posix
