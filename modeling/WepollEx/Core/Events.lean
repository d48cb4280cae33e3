import WepollEx.Lib.Mask

/-!
# Event masks and readiness classes

The public `EPOLL*` bits, the AFD poll bits, and the translations between them
(`wepoll_ex_afd.c`), together with the readiness classes by which `wepoll_ex_port.c` claims,
filters and disarms events.
-/

namespace WepollEx

open Mask

abbrev Events := BitVec 32
abbrev AfdEvents := BitVec 32
abbrev Classes := BitVec 8

def EPOLLIN : Events := 0x001
def EPOLLPRI : Events := 0x002
def EPOLLOUT : Events := 0x004
def EPOLLERR : Events := 0x008
def EPOLLHUP : Events := 0x010
def EPOLLRDNORM : Events := 0x040
def EPOLLRDBAND : Events := 0x080
def EPOLLWRNORM : Events := 0x100
def EPOLLWRBAND : Events := 0x200
def EPOLLMSG : Events := 0x400
def EPOLLRDHUP : Events := 0x2000
def EPOLLEXCLUSIVE : Events := 0x10000000
def EPOLLWAKEUP : Events := 0x20000000
def EPOLLONESHOT : Events := 0x40000000
def EPOLLET : Events := 0x80000000

def WEPOLL_FLAG_ONESHOT_FIRED : BitVec 32 := 1
def WEPOLL_FLAG_ET_DELIVERED : BitVec 32 := 2
def WEPOLL_FLAG_EDGE_ARMED : BitVec 32 := 4
def WEPOLL_FLAG_WAKE_EVENT : BitVec 32 := 8

def AFD_POLL_RECEIVE : AfdEvents := 0x001
def AFD_POLL_RECEIVE_EXPEDITED : AfdEvents := 0x002
def AFD_POLL_SEND : AfdEvents := 0x004
def AFD_POLL_DISCONNECT : AfdEvents := 0x008
def AFD_POLL_ABORT : AfdEvents := 0x010
def AFD_POLL_LOCAL_CLOSE : AfdEvents := 0x020
def AFD_POLL_ACCEPT : AfdEvents := 0x080
def AFD_POLL_CONNECT_FAIL : AfdEvents := 0x100

def EP_READINESS_CLASS_READ : Classes := 0x01
def EP_READINESS_CLASS_WRITE : Classes := 0x02
def EP_READINESS_CLASS_TERMINAL : Classes := 0x04

/-- NTSTATUS values are signed; failures are negative. -/
abbrev NtStatus := Int

def STATUS_SUCCESS : NtStatus := 0
def STATUS_PENDING : NtStatus := 0x103
def STATUS_CANCELLED : NtStatus := 0xC0000120 - 0x100000000
def STATUS_UNSUCCESSFUL : NtStatus := 0xC0000001 - 0x100000000

/-- What the library takes the transport of a socket to be. -/
inductive SocketProtocol
  | unknown | udp | tcp
  deriving DecidableEq, Repr

/-! ## Readiness classes -/

/-- Bits of the READ class. -/
def readBits : Events := EPOLLIN ||| EPOLLRDNORM ||| EPOLLRDHUP ||| EPOLLPRI
/-- Bits of the WRITE class. -/
def writeBits : Events := EPOLLOUT ||| EPOLLWRNORM
/-- Bits of the TERMINAL class. -/
def terminalBits : Events := EPOLLERR ||| EPOLLHUP

def epReadinessClasses (delivered : Events) : Classes :=
  (if delivered &&& readBits ≠ 0 then EP_READINESS_CLASS_READ else 0) |||
  (if delivered &&& writeBits ≠ 0 then EP_READINESS_CLASS_WRITE else 0) |||
  (if delivered &&& terminalBits ≠ 0 then EP_READINESS_CLASS_TERMINAL else 0)

def epReadinessClassAfdEvents (readinessClass : Classes) : AfdEvents :=
  if readinessClass = EP_READINESS_CLASS_READ then
    AFD_POLL_RECEIVE ||| AFD_POLL_RECEIVE_EXPEDITED ||| AFD_POLL_ACCEPT ||| AFD_POLL_DISCONNECT
  else if readinessClass = EP_READINESS_CLASS_WRITE then AFD_POLL_SEND
  else if readinessClass = EP_READINESS_CLASS_TERMINAL then
    AFD_POLL_ABORT ||| AFD_POLL_CONNECT_FAIL ||| AFD_POLL_LOCAL_CLOSE
  else 0

def epReadinessFilterClasses (delivered : Events) (deniedClasses : Classes) : Events :=
  let delivered :=
    if deniedClasses &&& EP_READINESS_CLASS_READ ≠ 0 then delivered &&& ~~~readBits else delivered
  let delivered :=
    if deniedClasses &&& EP_READINESS_CLASS_WRITE ≠ 0 then delivered &&& ~~~writeBits
    else delivered
  if deniedClasses &&& EP_READINESS_CLASS_TERMINAL ≠ 0 then delivered &&& ~~~terminalBits
  else delivered

def epReadinessClassesAfdEvents (classes : Classes) : AfdEvents :=
  [EP_READINESS_CLASS_READ, EP_READINESS_CLASS_WRITE, EP_READINESS_CLASS_TERMINAL].foldl
    (fun afd bit => if classes &&& bit ≠ 0 then afd ||| epReadinessClassAfdEvents bit else afd) 0

/-- A terminal delivery disarms both directions as well. -/
def epExplicitDeliveryClasses (delivered : Events) : Classes :=
  let classes := epReadinessClasses delivered
  if classes &&& EP_READINESS_CLASS_TERMINAL ≠ 0 then
    classes ||| (EP_READINESS_CLASS_READ ||| EP_READINESS_CLASS_WRITE)
  else classes

def epExclusiveQuiescentClasses (submittedAfdEvents : AfdEvents) : Classes :=
  [EP_READINESS_CLASS_READ, EP_READINESS_CLASS_WRITE, EP_READINESS_CLASS_TERMINAL].foldl
    (fun classes bit =>
      let classEvents := epReadinessClassAfdEvents bit
      let classEvents :=
        if bit = EP_READINESS_CLASS_READ then classEvents &&& ~~~AFD_POLL_RECEIVE_EXPEDITED
        else classEvents
      if classEvents &&& ~~~submittedAfdEvents = 0 then classes ||| bit else classes) 0

/-! ## AFD translation -/

def epAfdToEpollEvents (afdEvents : AfdEvents) (afdStatus : NtStatus)
    (protocol : SocketProtocol) : Events :=
  (if afdStatus < 0 then EPOLLERR else 0) |||
  (if afdEvents &&& (AFD_POLL_RECEIVE ||| AFD_POLL_ACCEPT) ≠ 0 then EPOLLIN ||| EPOLLRDNORM
    else 0) |||
  (if afdEvents &&& AFD_POLL_RECEIVE_EXPEDITED ≠ 0 then EPOLLPRI else 0) |||
  (if afdEvents &&& AFD_POLL_SEND ≠ 0 then EPOLLOUT ||| EPOLLWRNORM else 0) |||
  (if afdEvents &&& AFD_POLL_DISCONNECT ≠ 0 then EPOLLIN ||| EPOLLRDNORM ||| EPOLLRDHUP
    else 0) |||
  (if afdEvents &&& AFD_POLL_ABORT ≠ 0 then
    EPOLLERR ||| (if protocol ≠ .udp then EPOLLHUP else 0) else 0) |||
  (if afdEvents &&& AFD_POLL_CONNECT_FAIL ≠ 0 then
    EPOLLIN ||| EPOLLOUT ||| EPOLLERR ||| EPOLLHUP ||| EPOLLRDNORM ||| EPOLLWRNORM ||| EPOLLRDHUP
    else 0) |||
  (if afdEvents &&& AFD_POLL_LOCAL_CLOSE ≠ 0 then EPOLLHUP else 0)

def epEpollToAfdEvents (epollEvents : Events) : AfdEvents :=
  (AFD_POLL_ABORT ||| AFD_POLL_CONNECT_FAIL ||| AFD_POLL_LOCAL_CLOSE) |||
  (if epollEvents &&& (EPOLLIN ||| EPOLLRDNORM) ≠ 0 then
    AFD_POLL_RECEIVE ||| AFD_POLL_ACCEPT ||| AFD_POLL_DISCONNECT
  else if epollEvents &&& EPOLLRDHUP ≠ 0 then AFD_POLL_DISCONNECT
  else 0) |||
  (if epollEvents &&& EPOLLPRI ≠ 0 then AFD_POLL_RECEIVE_EXPEDITED else 0) |||
  (if epollEvents &&& (EPOLLOUT ||| EPOLLWRNORM) ≠ 0 then AFD_POLL_SEND else 0)

/-! ## Waitable interest -/

/-- The interest bits a waitable HANDLE can report. -/
def waitableBits : Events :=
  EPOLLIN ||| EPOLLOUT ||| EPOLLPRI ||| EPOLLRDNORM ||| EPOLLWRNORM ||| EPOLLRDBAND |||
    EPOLLWRBAND ||| EPOLLRDHUP

def epWaitableInterestEvents (userEvents : Events) : Events := userEvents &&& waitableBits

/-! ## Lemmas about classes and filters -/

/-- Filtering only takes bits away. -/
theorem filterClasses_within (delivered : Events) (denied : Classes) :
    Mask.Within (epReadinessFilterClasses delivered denied) delivered := by
  unfold epReadinessFilterClasses
  have within_ite : ∀ (p : Prop) [Decidable p] (d m : Events), Mask.Within d delivered →
      Mask.Within (if p then d &&& m else d) delivered := by
    intro p _ d m h
    split
    · exact h.and_left m
    · exact h
  exact within_ite _ _ _ (within_ite _ _ _ (within_ite _ _ _ (Mask.Within.refl _)))

/-- Filtering nothing changes nothing. -/
@[simp] theorem filterClasses_zero (delivered : Events) :
    epReadinessFilterClasses delivered 0 = delivered := by
  simp [epReadinessFilterClasses]

/-- The three classes with the bits of each. -/
inductive ClassBits : Classes → Events → Prop
  | read : ClassBits EP_READINESS_CLASS_READ readBits
  | write : ClassBits EP_READINESS_CLASS_WRITE writeBits
  | terminal : ClassBits EP_READINESS_CLASS_TERMINAL terminalBits

/-- A filter removes the bits of each denied class and keeps those of the others. -/
theorem filterClasses_and {k : Classes} {m : Events} (h : ClassBits k m) (delivered : Events)
    (denied : Classes) :
    epReadinessFilterClasses delivered denied &&& m =
      if denied &&& k ≠ 0 then 0 else delivered &&& m := by
  have hrw : readBits &&& writeBits = 0#32 := by decide
  have hrt : readBits &&& terminalBits = 0#32 := by decide
  have hwr : writeBits &&& readBits = 0#32 := by decide
  have hwt : writeBits &&& terminalBits = 0#32 := by decide
  have htr : terminalBits &&& readBits = 0#32 := by decide
  have htw : terminalBits &&& writeBits = 0#32 := by decide
  unfold epReadinessFilterClasses
  by_cases hr : denied &&& EP_READINESS_CLASS_READ = 0#8 <;>
    by_cases hw : denied &&& EP_READINESS_CLASS_WRITE = 0#8 <;>
    by_cases ht : denied &&& EP_READINESS_CLASS_TERMINAL = 0#8 <;>
    cases h <;>
    simp [hr, hw, ht, and_not_and_self, and_not_and_of_disjoint hrw, and_not_and_of_disjoint hrt,
      and_not_and_of_disjoint hwr, and_not_and_of_disjoint hwt, and_not_and_of_disjoint htr,
      and_not_and_of_disjoint htw]


theorem readinessClasses_and {k : Classes} {m : Events} (h : ClassBits k m) (delivered : Events) :
    epReadinessClasses delivered &&& k = if delivered &&& m ≠ 0 then k else 0 := by
  unfold epReadinessClasses
  by_cases hr : delivered &&& readBits = 0#32 <;>
    by_cases hw : delivered &&& writeBits = 0#32 <;>
    by_cases ht : delivered &&& terminalBits = 0#32 <;>
    cases h <;>
    simp [hr, hw, ht] <;>
    decide

/-- A mask of classes is determined by the three classes. -/
theorem readinessClasses_and_eq_zero {delivered : Events} {classes : Classes}
    (h : ∀ k m, ClassBits k m → delivered &&& m ≠ 0 → classes &&& k = 0) :
    epReadinessClasses delivered &&& classes = 0 := by
  have hr := h _ _ .read
  have hw := h _ _ .write
  have ht := h _ _ .terminal
  have hdist : ∀ a b : Classes, (a ||| b) &&& classes = (a &&& classes) ||| (b &&& classes) := by
    intro a b
    apply BitVec.eq_of_getLsbD_eq
    intro i _
    simp [Bool.and_or_distrib_right]
  unfold epReadinessClasses
  rw [hdist, hdist]
  have hone : ∀ (k : Classes) (m : Events), (delivered &&& m ≠ 0 → classes &&& k = 0) →
      (if delivered &&& m ≠ 0 then k else 0) &&& classes = 0 := by
    intro k m hk
    split
    · rw [BitVec.and_comm]
      exact hk ‹_›
    · simp
  rw [hone _ _ hr, hone _ _ hw, hone _ _ ht]
  rfl

/-- What a filter leaves is in none of the denied classes. -/
theorem filterClasses_disjoint (delivered : Events) (denied : Classes) :
    epReadinessClasses (epReadinessFilterClasses delivered denied) &&& denied = 0 := by
  apply readinessClasses_and_eq_zero
  intro k m hk hne
  by_contra hden
  rw [filterClasses_and hk, if_pos hden] at hne
  exact hne rfl

theorem readinessClasses_disjoint_mono {a b : Events} {classes : Classes} (h : Within a b)
    (hb : epReadinessClasses b &&& classes = 0) : epReadinessClasses a &&& classes = 0 := by
  apply readinessClasses_and_eq_zero
  intro k m hk hne
  have hbm : b &&& m ≠ 0 := by
    intro h0
    exact hne (h.and_eq_zero h0)
  have hkb : epReadinessClasses b &&& k = k := by rw [readinessClasses_and hk, if_pos hbm]
  rw [← hkb, BitVec.and_comm, BitVec.and_assoc, BitVec.and_comm k, ← BitVec.and_assoc, hb]
  simp

/-- A class is a single bit: it is denied as a whole or not at all. -/
theorem classBits_not_and {k : Classes} {m : Events} (hk : ClassBits k m) {denied : Classes}
    (h : denied &&& k ≠ 0) : ~~~denied &&& k = 0 := by
  have hbit : ∃ i, i < 8 ∧ k = BitVec.twoPow 8 i := by
    cases hk
    · exact ⟨0, by decide, by decide⟩
    · exact ⟨1, by decide, by decide⟩
    · exact ⟨2, by decide, by decide⟩
  obtain ⟨i, hi, rfl⟩ := hbit
  rw [BitVec.and_twoPow] at h ⊢
  cases hd : denied.getLsbD i with
  | false => simp [hd] at h
  | true => simp [hd, hi]

/-- A mask with a class outside `denied` has a bit of such a class. -/
theorem exists_class_of_and_not {delivered : Events} {denied : Classes}
    (h : epReadinessClasses delivered &&& ~~~denied ≠ 0) :
    ∃ k m, ClassBits k m ∧ delivered &&& m ≠ 0 ∧ denied &&& k = 0 := by
  by_contra hno
  simp only [not_exists, not_and] at hno
  exact h (readinessClasses_and_eq_zero fun k m hk hne => classBits_not_and hk (hno k m hk hne))

theorem filterClasses_ne_zero {delivered : Events} {denied : Classes}
    (h : epReadinessClasses delivered &&& ~~~denied ≠ 0) :
    epReadinessFilterClasses delivered denied ≠ 0 := by
  obtain ⟨k, m, hk, hne, hden⟩ := exists_class_of_and_not h
  intro h0
  have := filterClasses_and hk delivered denied
  rw [h0, if_neg (by simpa using hden)] at this
  exact hne (by simpa using this.symm)

end WepollEx
