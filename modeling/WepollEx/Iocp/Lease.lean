import Mathlib.Logic.Function.Basic
import WepollEx.Lib.Transition
import WepollEx.Port.Worklists

/-!
# The lease on the completion port's handle

`iocp_post_handle` may be used for a post only under `iocp_post_lock`, and three parties may take it
away to close it: a fatal post failure, `ep_port_begin_close` when its wake cannot be posted, and
the teardown of the port.  Here every lock operation, every access to a shared field and every call
of the kernel is a step of its own, taken by any number of threads in any order.
-/

namespace WepollEx.Lease

abbrev Tid := Nat

/-- A HANDLE that is not NULL. -/
abbrev Handle := BitVec 64

/-- What the threads share: fields of the port, the kernel's handle and what was seen of them. -/
structure Shared where
  iocpPostHandle : Option Handle
  /-- The owner of `iocp_post_lock`. -/
  iocpPostLock : Option Tid
  iocpClosed : Bool
  closing : Bool
  iocpPostError : Errno
  iocpPostFailures : Nat
  /-- Kernel: the handle is open. -/
  handleOpen : Bool
  /-- Ghost: how often the handle was closed. -/
  closes : Nat
  /-- Ghost: a post was made with the handle after it had been closed. -/
  usedClosed : Bool
  /-- Ghost: a fatal post failure has revoked the handle. -/
  revoked : Bool
  /-- Ghost: a post has succeeded after that. -/
  postedRevoked : Bool

/-- What a thread does next, with its local variables. -/
inductive Pc
  | idle
  | returned (posted : Bool)
  /-- `ep_port_post_iocp`. -/
  | postLock
  | postRead
  | postFault (handle : Handle)
  | postCall (handle : Handle)
  | postUnlock (posted : Bool)
  /-- `ep_port_fail_iocp_post`. -/
  | failCheck (error : Errno)
  | failError (error : Errno)
  | failCount
  | failClosing
  /-- `ep_port_revoke_iocp_posts` and the `CloseHandle` after it; `fatal` after a failed post. -/
  | revokeLock (fatal : Bool)
  | revokeRead (fatal : Bool)
  | revokeNull (fatal : Bool) (handle : Option Handle)
  | revokeExchange (handle : Option Handle)
  | revokeUnlock (closeHandle : Option Handle)
  /-- `ep_port_begin_close`. -/
  | closeExchange
  | closeLock
  | closeCheck
  | closeFault
  | closePost (handle : Handle)
  | closeTake
  | closeNull (handle : Option Handle)
  | closeStore (handle : Option Handle)
  | closeUnlock (handle : Option Handle)
  /-- The `CloseHandle` at the end of either function. -/
  | closeHandle (handle : Option Handle)
  deriving DecidableEq, Repr

structure State where
  shared : Shared
  pc : Tid → Pc

/-- The calls a thread may make; the last two are the ends of `ep_port_finish_destroy_locked` and
of `ep_port_abandon_locked`. -/
inductive Call
  | post
  | fail (error : Errno)
  | beginClose
  | finishDestroy
  | abandon
  deriving DecidableEq, Repr

def Call.entry : Call → Pc
  | .post => .postLock
  | .fail e => .failCheck e
  | .beginClose => .closeExchange
  | .finishDestroy => .revokeLock false
  | .abandon => .revokeLock false

/-- Injected faults and the answer of `PostQueuedCompletionStatus`. -/
structure Answer where
  fault : Bool
  posted : Bool
  deriving DecidableEq, Repr

inductive Act
  | call (t : Tid) (c : Call)
  | thread (t : Tid) (answer : Answer)
  deriving DecidableEq, Repr

namespace Shared

/-- `PostQueuedCompletionStatus` with the port's handle. -/
def kernelPost (s : Shared) (posted : Bool) : Shared :=
  { s with
    usedClosed := s.usedClosed || !s.handleOpen
    postedRevoked := s.postedRevoked || (posted && s.revoked) }

/-- `CloseHandle` of the port's handle, if there is one. -/
def kernelClose (s : Shared) : Option Handle → Shared
  | none => s
  | some _ => { s with handleOpen := false, closes := s.closes + 1 }

end Shared

namespace State

def goto (st : State) (t : Tid) (pc : Pc) : State := { st with pc := Function.update st.pc t pc }

def set (st : State) (s : Shared) : State := { st with shared := s }

def acquire (st : State) (t : Tid) (pc : Pc) : Option State :=
  if st.shared.iocpPostLock = none then
    some ((st.set { st.shared with iocpPostLock := some t }).goto t pc)
  else none

def release (st : State) (t : Tid) (pc : Pc) : State :=
  (st.set { st.shared with iocpPostLock := none }).goto t pc

/-- One step of a thread. -/
def threadStep (st : State) (t : Tid) (answer : Answer) : Option State :=
  let s := st.shared
  match st.pc t with
  | .idle => none
  | .returned _ => none
  | .postLock => st.acquire t .postRead
  | .postRead =>
    match s.iocpPostHandle with
    | none => some (st.goto t (.postUnlock false))
    | some handle => some (st.goto t (.postFault handle))
  | .postFault handle =>
    if answer.fault then some (st.goto t (.postUnlock false))
    else some (st.goto t (.postCall handle))
  | .postCall _ =>
    some ((st.set (s.kernelPost answer.posted)).goto t (.postUnlock answer.posted))
  | .postUnlock posted => some (st.release t (.returned posted))
  | .failCheck e =>
    if s.closing then some (st.goto t (.returned false)) else some (st.goto t (.failError e))
  | .failError e =>
    let error := if s.iocpPostError = 0 then orEio e else s.iocpPostError
    some ((st.set { s with iocpPostError := error }).goto t .failCount)
  | .failCount =>
    some ((st.set { s with iocpPostFailures := s.iocpPostFailures + 1 }).goto t .failClosing)
  | .failClosing => some ((st.set { s with closing := true }).goto t (.revokeLock true))
  | .revokeLock fatal => st.acquire t (.revokeRead fatal)
  | .revokeRead fatal => some (st.goto t (.revokeNull fatal s.iocpPostHandle))
  | .revokeNull fatal handle =>
    some ((st.set { s with iocpPostHandle := none, revoked := s.revoked || fatal }).goto t
      (.revokeExchange handle))
  | .revokeExchange handle =>
    let closeHandle := if s.iocpClosed then none else handle
    some ((st.set { s with iocpClosed := true }).goto t (.revokeUnlock closeHandle))
  | .revokeUnlock closeHandle => some (st.release t (.closeHandle closeHandle))
  | .closeExchange =>
    if s.closing then some (st.goto t (.returned false))
    else some ((st.set { s with closing := true }).goto t .closeLock)
  | .closeLock => st.acquire t .closeCheck
  | .closeCheck =>
    match s.iocpPostHandle with
    | none => some (st.goto t .closeTake)
    | some _ => some (st.goto t .closeFault)
  | .closeFault =>
    if answer.fault then some (st.goto t .closeTake)
    else match s.iocpPostHandle with
      | none => some (st.goto t .closeTake)
      | some handle => some (st.goto t (.closePost handle))
  | .closePost _ =>
    some ((st.set (s.kernelPost answer.posted)).goto t
      (if answer.posted then .closeUnlock none else .closeTake))
  | .closeTake => some (st.goto t (.closeNull s.iocpPostHandle))
  | .closeNull handle =>
    some ((st.set { s with iocpPostHandle := none }).goto t (.closeStore handle))
  | .closeStore handle =>
    some ((st.set { s with iocpClosed := true }).goto t (.closeUnlock handle))
  | .closeUnlock handle => some (st.release t (.closeHandle handle))
  | .closeHandle handle => some ((st.set (s.kernelClose handle)).goto t (.returned false))

def step (st : State) : Act → Option State
  | .call t c =>
    match st.pc t with
    | .idle => some (st.goto t c.entry)
    | .returned _ => some (st.goto t c.entry)
    | _ => none
  | .thread t answer => st.threadStep t answer

end State

/-- A port with a fresh completion port. -/
def create (handle : Handle) : State where
  shared := ⟨some handle, none, false, false, 0, 0, true, 0, false, false, false⟩
  pc := fun _ => .idle

/-! ## The invariant -/

namespace Pc

/-- The thread is inside `iocp_post_lock`. -/
def critical : Pc → Bool
  | .postRead | .postFault _ | .postCall _ | .postUnlock _ => true
  | .revokeRead _ | .revokeNull _ _ | .revokeExchange _ | .revokeUnlock _ => true
  | .closeCheck | .closeFault | .closePost _ | .closeTake | .closeNull _ | .closeStore _
  | .closeUnlock _ => true
  | _ => false

/-- The thread has taken the handle away from the port and will close it. -/
def holds : Pc → Bool
  | .revokeExchange handle | .revokeUnlock handle => handle.isSome
  | .closeStore handle | .closeUnlock handle | .closeHandle handle => handle.isSome
  | _ => false

/-- What a thread inside the lock knows of the port. -/
def Knows (s : Shared) : Pc → Prop
  | .postFault handle | .postCall handle | .closePost handle => s.iocpPostHandle = some handle
  | .revokeNull _ handle | .closeNull handle => s.iocpPostHandle = handle
  | .revokeExchange handle =>
    s.iocpPostHandle = none ∧ (handle.isSome = true → s.iocpClosed = false)
  | .closeStore _ => s.iocpPostHandle = none
  | _ => True

end Pc

structure Inv (st : State) : Prop where
  lock : ∀ t, (st.pc t).critical = true ↔ st.shared.iocpPostLock = some t
  knows : ∀ t, (st.pc t).Knows st.shared
  owner : ∀ t u, (st.pc t).holds = true → (st.pc u).holds = true → t = u
  lent : st.shared.iocpPostHandle ≠ none → (∀ t, (st.pc t).holds = false) ∧
    st.shared.handleOpen = true ∧ st.shared.iocpClosed = false
  owned : ∀ t, (st.pc t).holds = true → st.shared.handleOpen = true
  closes : st.shared.closes = (!st.shared.handleOpen).toNat
  revoked : st.shared.revoked = true → st.shared.iocpPostHandle = none
  unused : st.shared.usedClosed = false
  unposted : st.shared.postedRevoked = false

theorem inv_create (handle : Handle) : Inv (create handle) where
  lock := by
    intro t
    constructor
    · intro hcritical
      cases hcritical
    · intro hlock
      cases hlock
  knows := fun _ => trivial
  owner := by
    intro t u ht
    cases ht
  lent := fun _ => ⟨fun _ => rfl, rfl, rfl⟩
  owned := by
    intro t ht
    cases ht
  closes := rfl
  revoked := by
    intro h
    cases h
  unused := rfl
  unposted := rfl

/-! ## What a step does to the invariant -/

theorem Pc.Knows.of_outside {pc : Pc} {s : Shared} (h : pc.critical = false) : pc.Knows s := by
  cases pc <;> trivial

theorem Pc.Knows.congr {pc : Pc} {s s' : Shared} (h : pc.Knows s)
    (handle : s'.iocpPostHandle = s.iocpPostHandle) (closed : s'.iocpClosed = s.iocpClosed) :
    pc.Knows s' := by
  cases pc <;> simp_all [Pc.Knows]

/-- How a thread at `pc` that goes to `pc'` may change the lock. -/
def LockStep (t : Tid) (pc pc' : Pc) (lock lock' : Option Tid) : Prop :=
  (lock = none ∧ pc'.critical = true ∧ lock' = some t) ∨
    (pc.critical = true ∧ pc'.critical = false ∧ lock' = none) ∨
    (pc'.critical = pc.critical ∧ lock' = lock)

namespace Inv

variable {st : State} {t : Tid} {pc' : Pc} {s' : Shared}

/-- While a thread is inside the lock no other one is. -/
theorem outside (h : Inv st) (critical : (st.pc t).critical = true) {u : Tid} (hu : u ≠ t) :
    (st.pc u).critical = false := by
  have ht := (h.lock t).mp critical
  cases hcu : (st.pc u).critical with
  | false => rfl
  | true =>
    have hlock := (h.lock u).mp hcu
    rw [ht] at hlock
    exact absurd (Option.some.inj hlock).symm hu

theorem lock_step (h : Inv st) {lock' : Option Tid}
    (hl : LockStep t (st.pc t) pc' st.shared.iocpPostLock lock') (u : Tid) :
    (Function.update st.pc t pc' u).critical = true ↔ lock' = some u := by
  by_cases hu : u = t
  · subst hu
    rw [Function.update_self]
    rcases hl with ⟨_, hc, rfl⟩ | ⟨_, hc, rfl⟩ | ⟨hc, rfl⟩
    · simp [hc]
    · simp [hc]
    · rw [hc]
      exact h.lock u
  · rw [Function.update_of_ne hu, h.lock u]
    rcases hl with ⟨hfree, _, rfl⟩ | ⟨hin, _, rfl⟩ | ⟨_, rfl⟩
    · rw [hfree]
      simp [Ne.symm hu]
    · rw [(h.lock t).mp hin]
      simp [Ne.symm hu]
    · rfl

/-- The thread moves on; the handle and what is known of it stay as they are. -/
theorem quiet (h : Inv st)
    (hl : LockStep t (st.pc t) pc' st.shared.iocpPostLock s'.iocpPostLock)
    (holds : pc'.holds = (st.pc t).holds) (knows : pc'.Knows s')
    (handle : s'.iocpPostHandle = st.shared.iocpPostHandle)
    (closed : s'.iocpClosed = st.shared.iocpClosed)
    (isOpen : s'.handleOpen = st.shared.handleOpen) (closes : s'.closes = st.shared.closes)
    (revoked : s'.revoked = st.shared.revoked) (used : s'.usedClosed = st.shared.usedClosed)
    (posted : s'.postedRevoked = st.shared.postedRevoked) :
    Inv ((st.set s').goto t pc') := by
  have hholds : ∀ u, (Function.update st.pc t pc' u).holds = (st.pc u).holds := by
    intro u
    by_cases hu : u = t
    · subst hu
      rw [Function.update_self, holds]
    · rw [Function.update_of_ne hu]
  refine ⟨h.lock_step hl, fun u => ?_, fun u v hu hv => ?_, fun hlent => ?_, fun u hu => ?_, ?_, ?_,
    used.trans h.unused, posted.trans h.unposted⟩
  · show (Function.update st.pc t pc' u).Knows s'
    by_cases hu : u = t
    · subst hu
      rw [Function.update_self]
      exact knows
    · rw [Function.update_of_ne hu]
      exact (h.knows u).congr handle closed
  · exact h.owner u v ((hholds u).symm.trans hu) ((hholds v).symm.trans hv)
  · have hold : st.shared.iocpPostHandle ≠ none := by
      rw [← handle]
      exact hlent
    obtain ⟨hnone, hopen, hclosed⟩ := h.lent hold
    exact ⟨fun u => (hholds u).trans (hnone u), isOpen.trans hopen, closed.trans hclosed⟩
  · exact isOpen.trans (h.owned u ((hholds u).symm.trans hu))
  · show s'.closes = (!s'.handleOpen).toNat
    rw [closes, isOpen]
    exact h.closes
  · show s'.revoked = true → s'.iocpPostHandle = none
    rw [revoked, handle]
    exact h.revoked

/-- The thread takes the handle away from the port. -/
theorem take (h : Inv st) {fatal : Bool} {handle : Option Handle}
    (critical : (st.pc t).critical = true) (free : (st.pc t).holds = false)
    (known : st.shared.iocpPostHandle = handle) (critical' : pc'.critical = true)
    (holds' : pc'.holds = handle.isSome)
    (knows' : ∀ s : Shared, s.iocpPostHandle = none → (handle.isSome = true → s.iocpClosed = false) →
      pc'.Knows s) :
    Inv ((st.set { st.shared with
      iocpPostHandle := none, revoked := st.shared.revoked || fatal }).goto t pc') := by
  have hlent : handle.isSome = true → (∀ u, (st.pc u).holds = false) ∧
      st.shared.handleOpen = true ∧ st.shared.iocpClosed = false := by
    intro hsome
    refine h.lent ?_
    rw [known]
    exact Option.isSome_iff_ne_none.mp hsome
  have hold : ∀ u, (Function.update st.pc t pc' u).holds = true →
      (u = t ∧ handle.isSome = true) ∨ (st.pc u).holds = true := by
    intro u hu
    by_cases hut : u = t
    · subst hut
      rw [Function.update_self, holds'] at hu
      exact .inl ⟨rfl, hu⟩
    · rw [Function.update_of_ne hut] at hu
      exact .inr hu
  have absent : handle.isSome = true → ∀ u, (st.pc u).holds = true → False := by
    intro hsome u hu
    rw [(hlent hsome).1 u] at hu
    cases hu
  refine ⟨h.lock_step (.inr (.inr ⟨critical'.trans critical.symm, rfl⟩)), fun u => ?_,
    fun u v hu hv => ?_, fun hne => absurd rfl hne, fun u hu => ?_, h.closes, fun _ => rfl, h.unused,
    h.unposted⟩
  · show (Function.update st.pc t pc' u).Knows _
    by_cases hut : u = t
    · subst hut
      rw [Function.update_self]
      exact knows' _ rfl fun hsome => (hlent hsome).2.2
    · rw [Function.update_of_ne hut]
      exact .of_outside (h.outside critical hut)
  · rcases hold u hu with ⟨rfl, hsome⟩ | hu'
    · rcases hold v hv with ⟨rfl, _⟩ | hv'
      · rfl
      · exact absurd hv' fun hc => absent hsome v hc
    · rcases hold v hv with ⟨rfl, hsome⟩ | hv'
      · exact absurd hu' fun hc => absent hsome u hc
      · exact h.owner u v hu' hv'
  · rcases hold u hu with ⟨_, hsome⟩ | hu'
    · exact (hlent hsome).2.1
    · exact h.owned u hu'

/-- The thread marks the port as closed. -/
theorem mark (h : Inv st) (critical : (st.pc t).critical = true)
    (taken : st.shared.iocpPostHandle = none) (critical' : pc'.critical = true)
    (holds' : pc'.holds = (st.pc t).holds) (knows' : ∀ s, pc'.Knows s) :
    Inv ((st.set { st.shared with iocpClosed := true }).goto t pc') := by
  have hholds : ∀ u, (Function.update st.pc t pc' u).holds = (st.pc u).holds := by
    intro u
    by_cases hu : u = t
    · subst hu
      rw [Function.update_self, holds']
    · rw [Function.update_of_ne hu]
  refine ⟨h.lock_step (.inr (.inr ⟨critical'.trans critical.symm, rfl⟩)), fun u => ?_,
    fun u v hu hv => ?_, fun hne => absurd taken hne, fun u hu => ?_, h.closes, h.revoked, h.unused,
    h.unposted⟩
  · show (Function.update st.pc t pc' u).Knows _
    by_cases hut : u = t
    · subst hut
      rw [Function.update_self]
      exact knows' _
    · rw [Function.update_of_ne hut]
      exact .of_outside (h.outside critical hut)
  · exact h.owner u v ((hholds u).symm.trans hu) ((hholds v).symm.trans hv)
  · exact h.owned u ((hholds u).symm.trans hu)

/-- The thread closes the handle it holds. -/
theorem close (h : Inv st) (holds : (st.pc t).holds = true) (critical : (st.pc t).critical = false)
    (critical' : pc'.critical = false) (holds' : pc'.holds = false) :
    Inv ((st.set { st.shared with
      handleOpen := false, closes := st.shared.closes + 1 }).goto t pc') := by
  have hnone : ∀ u, (Function.update st.pc t pc' u).holds = false := by
    intro u
    by_cases hu : u = t
    · subst hu
      rw [Function.update_self, holds']
    · rw [Function.update_of_ne hu]
      cases hc : (st.pc u).holds with
      | false => rfl
      | true => exact absurd (h.owner u t hc holds) hu
  have hopen := h.owned t holds
  have hcloses := h.closes
  rw [hopen] at hcloses
  refine ⟨h.lock_step (.inr (.inr ⟨critical'.trans critical.symm, rfl⟩)), fun u => ?_,
    fun u v hu _ => ?_, fun hne => ?_, fun u hu => ?_, ?_, h.revoked, h.unused, h.unposted⟩
  · show (Function.update st.pc t pc' u).Knows _
    by_cases hut : u = t
    · subst hut
      rw [Function.update_self]
      exact .of_outside critical'
    · rw [Function.update_of_ne hut]
      exact (h.knows u).congr rfl rfl
  · have hu : (Function.update st.pc t pc' u).holds = true := hu
    rw [hnone u] at hu
    cases hu
  · have hold := (h.lent hne).1 t
    rw [holds] at hold
    cases hold
  · have hu : (Function.update st.pc t pc' u).holds = true := hu
    rw [hnone u] at hu
    cases hu
  · show st.shared.closes + 1 = 1
    rw [hcloses]
    rfl

/-- The thread looks and moves on. -/
theorem look (h : Inv st) (critical : pc'.critical = (st.pc t).critical)
    (holds : pc'.holds = (st.pc t).holds) (knows : pc'.Knows st.shared) : Inv (st.goto t pc') := by
  show Inv ((st.set st.shared).goto t pc')
  exact h.quiet (.inr (.inr ⟨critical, rfl⟩)) holds knows rfl rfl rfl rfl rfl rfl rfl

theorem acquire {st' : State} (h : Inv st) (hstep : st.acquire t pc' = some st')
    (critical : pc'.critical = true) (holds : pc'.holds = (st.pc t).holds)
    (knows : ∀ s, pc'.Knows s) : Inv st' := by
  unfold State.acquire at hstep
  split at hstep
  · rename_i hfree
    cases hstep
    exact h.quiet (.inl ⟨hfree, critical, rfl⟩) holds (knows _) rfl rfl rfl rfl rfl rfl rfl
  · cases hstep

theorem release (h : Inv st) (critical : (st.pc t).critical = true)
    (critical' : pc'.critical = false) (holds : pc'.holds = (st.pc t).holds) :
    Inv (st.release t pc') :=
  h.quiet (.inr (.inl ⟨critical, critical', rfl⟩)) holds (.of_outside critical') rfl rfl rfl rfl rfl
    rfl rfl

/-- A post that is made while the port has its handle uses an open handle that was not revoked. -/
theorem kernelPost (h : Inv st) {handle : Handle} (known : st.shared.iocpPostHandle = some handle)
    (posted : Bool) : st.shared.kernelPost posted = st.shared := by
  have hne : st.shared.iocpPostHandle ≠ none := by
    rw [known]
    exact Option.some_ne_none handle
  have hopen := (h.lent hne).2.1
  have hrevoked : st.shared.revoked = false := by
    cases hr : st.shared.revoked with
    | false => rfl
    | true => exact absurd (h.revoked hr) hne
  have hused : (st.shared.usedClosed || !st.shared.handleOpen) = st.shared.usedClosed := by
    rw [hopen]
    simp
  have hposted : (st.shared.postedRevoked || (posted && st.shared.revoked)) =
      st.shared.postedRevoked := by
    rw [hrevoked]
    simp
  unfold Shared.kernelPost
  rw [hused, hposted]

theorem threadStep {st' : State} (h : Inv st) {answer : Answer}
    (hstep : st.threadStep t answer = some st') : Inv st' := by
  have hknows := h.knows t
  unfold State.threadStep at hstep
  dsimp only at hstep
  cases hpc : st.pc t with
  | idle => rw [hpc] at hstep; cases hstep
  | returned posted => rw [hpc] at hstep; cases hstep
  | postLock =>
    rw [hpc] at hstep
    exact h.acquire hstep rfl (by rw [hpc]; rfl) fun _ => trivial
  | postRead =>
    rw [hpc] at hstep
    dsimp only at hstep
    split at hstep
    · cases hstep
      exact h.look (by rw [hpc]; rfl) (by rw [hpc]; rfl) trivial
    · rename_i handle hhandle
      cases hstep
      exact h.look (by rw [hpc]; rfl) (by rw [hpc]; rfl) hhandle
  | postFault handle =>
    rw [hpc] at hstep hknows
    dsimp only at hstep
    split at hstep
    · cases hstep
      exact h.look (by rw [hpc]; rfl) (by rw [hpc]; rfl) trivial
    · cases hstep
      exact h.look (by rw [hpc]; rfl) (by rw [hpc]; rfl) hknows
  | postCall handle =>
    rw [hpc] at hstep hknows
    cases hstep
    rw [h.kernelPost hknows]
    exact h.look (by rw [hpc]; rfl) (by rw [hpc]; rfl) trivial
  | postUnlock posted =>
    rw [hpc] at hstep
    cases hstep
    exact h.release (by rw [hpc]; rfl) rfl (by rw [hpc]; rfl)
  | failCheck e =>
    rw [hpc] at hstep
    dsimp only at hstep
    split at hstep
    · cases hstep
      exact h.look (by rw [hpc]; rfl) (by rw [hpc]; rfl) trivial
    · cases hstep
      exact h.look (by rw [hpc]; rfl) (by rw [hpc]; rfl) trivial
  | failError e =>
    rw [hpc] at hstep
    cases hstep
    exact h.quiet (.inr (.inr ⟨by rw [hpc]; rfl, rfl⟩)) (by rw [hpc]; rfl) trivial
      rfl rfl rfl rfl rfl rfl rfl
  | failCount =>
    rw [hpc] at hstep
    cases hstep
    exact h.quiet (.inr (.inr ⟨by rw [hpc]; rfl, rfl⟩)) (by rw [hpc]; rfl) trivial
      rfl rfl rfl rfl rfl rfl rfl
  | failClosing =>
    rw [hpc] at hstep
    cases hstep
    exact h.quiet (.inr (.inr ⟨by rw [hpc]; rfl, rfl⟩)) (by rw [hpc]; rfl) trivial
      rfl rfl rfl rfl rfl rfl rfl
  | revokeLock fatal =>
    rw [hpc] at hstep
    exact h.acquire hstep rfl (by rw [hpc]; rfl) fun _ => trivial
  | revokeRead fatal =>
    rw [hpc] at hstep
    cases hstep
    exact h.look (by rw [hpc]; rfl) (by rw [hpc]; rfl) rfl
  | revokeNull fatal handle =>
    rw [hpc] at hstep hknows
    cases hstep
    exact h.take (by rw [hpc]; rfl) (by rw [hpc]; rfl) hknows rfl rfl fun _ hn hc => ⟨hn, hc⟩
  | revokeExchange handle =>
    rw [hpc] at hstep hknows
    cases hstep
    refine h.mark (by rw [hpc]; rfl) hknows.1 rfl ?_ fun _ => trivial
    rw [hpc]
    show (if st.shared.iocpClosed then none else handle).isSome = handle.isSome
    cases handle with
    | none => simp
    | some v => rw [hknows.2 rfl]; rfl
  | revokeUnlock closeHandle =>
    rw [hpc] at hstep
    cases hstep
    exact h.release (by rw [hpc]; rfl) rfl (by rw [hpc]; rfl)
  | closeExchange =>
    rw [hpc] at hstep
    dsimp only at hstep
    split at hstep
    · cases hstep
      exact h.look (by rw [hpc]; rfl) (by rw [hpc]; rfl) trivial
    · cases hstep
      exact h.quiet (.inr (.inr ⟨by rw [hpc]; rfl, rfl⟩)) (by rw [hpc]; rfl) trivial
        rfl rfl rfl rfl rfl rfl rfl
  | closeLock =>
    rw [hpc] at hstep
    exact h.acquire hstep rfl (by rw [hpc]; rfl) fun _ => trivial
  | closeCheck =>
    rw [hpc] at hstep
    dsimp only at hstep
    split at hstep
    · cases hstep
      exact h.look (by rw [hpc]; rfl) (by rw [hpc]; rfl) trivial
    · cases hstep
      exact h.look (by rw [hpc]; rfl) (by rw [hpc]; rfl) trivial
  | closeFault =>
    rw [hpc] at hstep
    dsimp only at hstep
    split at hstep
    · cases hstep
      exact h.look (by rw [hpc]; rfl) (by rw [hpc]; rfl) trivial
    split at hstep
    · cases hstep
      exact h.look (by rw [hpc]; rfl) (by rw [hpc]; rfl) trivial
    · rename_i handle hhandle
      cases hstep
      exact h.look (by rw [hpc]; rfl) (by rw [hpc]; rfl) hhandle
  | closePost handle =>
    rw [hpc] at hstep hknows
    cases hstep
    rw [h.kernelPost hknows]
    cases answer.posted with
    | true => exact h.look (by rw [hpc]; rfl) (by rw [hpc]; rfl) trivial
    | false => exact h.look (by rw [hpc]; rfl) (by rw [hpc]; rfl) trivial
  | closeTake =>
    rw [hpc] at hstep
    cases hstep
    exact h.look (by rw [hpc]; rfl) (by rw [hpc]; rfl) rfl
  | closeNull handle =>
    rw [hpc] at hstep hknows
    cases hstep
    have htake : Inv ((st.set { st.shared with
        iocpPostHandle := none, revoked := st.shared.revoked || false }).goto t
          (.closeStore handle)) :=
      h.take (by rw [hpc]; rfl) (by rw [hpc]; rfl) hknows rfl rfl fun _ hn _ => hn
    rw [Bool.or_false] at htake
    exact htake
  | closeStore handle =>
    rw [hpc] at hstep hknows
    cases hstep
    exact h.mark (by rw [hpc]; rfl) hknows rfl (by rw [hpc]; rfl) fun _ => trivial
  | closeUnlock handle =>
    rw [hpc] at hstep
    cases hstep
    exact h.release (by rw [hpc]; rfl) rfl (by rw [hpc]; rfl)
  | closeHandle handle =>
    rw [hpc] at hstep
    cases hstep
    cases handle with
    | none => exact h.look (by rw [hpc]; rfl) (by rw [hpc]; rfl) trivial
    | some v => exact h.close (by rw [hpc]; rfl) (by rw [hpc]; rfl) rfl rfl

theorem step {st' : State} (h : Inv st) {a : Act} (hstep : st.step a = some st') : Inv st' := by
  cases a with
  | call t c =>
    have hentry : (st.pc t).critical = false → (st.pc t).holds = false → Inv (st.goto t c.entry) := by
      intro hcritical hholds
      refine h.look ?_ ?_ ?_
      · rw [hcritical]
        cases c <;> rfl
      · rw [hholds]
        cases c <;> rfl
      · cases c <;> trivial
    unfold State.step at hstep
    dsimp only at hstep
    split at hstep
    · rename_i hpc
      cases hstep
      exact hentry (by rw [hpc]; rfl) (by rw [hpc]; rfl)
    · rename_i hpc
      cases hstep
      exact hentry (by rw [hpc]; rfl) (by rw [hpc]; rfl)
    · cases hstep
  | thread t answer => exact h.threadStep hstep

end Inv

open Transition in
/-- The completion port's handle is closed at most once, it is never used after that, and once a
fatal post failure has revoked it no post succeeds. -/
theorem lease_safe (handle : Handle) (st : State) (h : Reach State.step (create handle) st) :
    st.shared.closes ≤ 1 ∧ st.shared.usedClosed = false ∧ st.shared.postedRevoked = false := by
  have inv : Inv st := h.invariant (inv_create handle) fun _ _ _ hi hs => hi.step hs
  refine ⟨?_, inv.unused, inv.unposted⟩
  rw [inv.closes]
  cases st.shared.handleOpen <;> simp

/-- A post is under way when another one fails fatally: the failing thread waits for the lock, then
takes the handle and closes it, and the next post finds none. -/
def postsRaceFailure : List Act :=
  [.call 1 .post] ++ List.replicate 3 (.thread 1 ⟨false, true⟩) ++
    [.call 0 (.fail 5)] ++ List.replicate 4 (.thread 0 ⟨false, true⟩) ++
    List.replicate 2 (.thread 1 ⟨false, true⟩) ++ List.replicate 6 (.thread 0 ⟨false, true⟩) ++
    [.call 1 .post] ++ List.replicate 3 (.thread 1 ⟨false, true⟩)

open Transition in
theorem lease_safe_race : ∃ st, run State.step (create 1) postsRaceFailure = some st ∧
    st.pc 1 = .returned false ∧ st.shared.revoked = true ∧ st.shared.closes = 1 ∧
      st.shared.usedClosed = false ∧ st.shared.postedRevoked = false := by
  have hrun : ((run State.step (create 1) postsRaceFailure).map fun st =>
      (st.pc 1, st.shared.revoked, st.shared.closes)) = some (.returned false, true, 1) := by
    decide +kernel
  obtain ⟨st, hst, hend⟩ := Option.map_eq_some_iff.mp hrun
  obtain ⟨_, hused, hposted⟩ := lease_safe 1 st (Reach.refl.of_run hst)
  simp only [Prod.mk.injEq] at hend
  exact ⟨st, hst, hend.1, hend.2.1, hend.2.2, hused, hposted⟩

/-! ## The port model's atomic calls

The model of the whole port makes each of these calls in one step.  A thread that runs its call
alone does the same to the fields of the port. -/

/-- The fields of a port that the lease is about. -/
structure Abstracts (s : Shared) (p : Port) : Prop where
  handle : p.iocpPostHandle = s.iocpPostHandle.isSome
  closed : p.iocpClosed = s.iocpClosed
  closing : p.closing = s.closing
  error : p.iocpPostError = s.iocpPostError
  failures : p.iocpPostFailures = s.iocpPostFailures

section

open Transition

variable {st : State} {t : Tid} {p : Port}

/-- Run a call of thread `t` alone for `n` steps. -/
def solo (t : Tid) (c : Call) (n : Nat) (answer : Answer) : List Act :=
  .call t c :: List.replicate n (.thread t answer)

attribute [local simp] solo run State.step State.threadStep State.acquire State.goto State.set
  State.release Call.entry List.replicate Shared.kernelPost Shared.kernelClose

theorem post_alone (h : Abstracts st.shared p) (idle : st.pc t = .idle)
    (free : st.shared.iocpPostLock = none) (answer : Option Errno) (packet : Packet) :
    ∃ n st', run State.step st (solo t .post n ⟨answer.isSome, true⟩) = some st' ∧
      st'.pc t = .returned (epPortPostIocp p answer packet).1.isNone ∧
      Abstracts st'.shared (epPortPostIocp p answer packet).2 := by
  cases hh : st.shared.iocpPostHandle with
  | none =>
    have hnone : p.iocpPostHandle = false := by rw [h.handle, hh]; rfl
    have hpost : epPortPostIocp p answer packet = (some EBADF, p) := by
      simp [epPortPostIocp, hnone]
    rw [hpost]
    refine ⟨3, _, by simp [idle, free, hh]; rfl, by simp, ?_⟩
    exact ⟨h.handle.trans (by rw [hh]), h.closed, h.closing, h.error, h.failures⟩
  | some handle =>
    have hsome : p.iocpPostHandle = true := by rw [h.handle, hh]; rfl
    cases answer with
    | some e =>
      have hpost : epPortPostIocp p (some e) packet = (some e, p) := by
        simp [epPortPostIocp, hsome]
      rw [hpost]
      refine ⟨4, _, by simp [idle, free, hh]; rfl, by simp, ?_⟩
      exact ⟨h.handle.trans (by rw [hh]), h.closed, h.closing, h.error, h.failures⟩
    | none =>
      have hpost : epPortPostIocp p none packet =
          (none, { p with iocp := p.iocp ++ [packet] }) := by
        simp [epPortPostIocp, hsome]
      rw [hpost]
      refine ⟨5, _, by simp [idle, free, hh]; rfl, by simp, ?_⟩
      exact ⟨h.handle.trans (by rw [hh]), h.closed, h.closing, h.error, h.failures⟩

theorem fail_alone (h : Abstracts st.shared p) (idle : st.pc t = .idle)
    (free : st.shared.iocpPostLock = none) (e : Errno) :
    ∃ n st', run State.step st (solo t (.fail e) n ⟨false, true⟩) = some st' ∧
      st'.pc t = .returned false ∧ Abstracts st'.shared (epPortFailIocpPost p e) := by
  unfold epPortFailIocpPost
  rw [h.closing]
  cases hc : st.shared.closing with
  | true =>
    refine ⟨1, _, by simp [idle, hc]; rfl, by simp, ?_⟩
    exact ⟨h.handle, h.closed, h.closing, h.error, h.failures⟩
  | false =>
    rw [h.error, h.failures]
    cases hi : st.shared.iocpClosed with
    | true =>
      refine ⟨10, _, by simp [idle, free, hc, hi]; rfl, by simp, ?_⟩
      exact ⟨rfl, rfl, rfl, rfl, rfl⟩
    | false =>
      cases hh : st.shared.iocpPostHandle with
      | none =>
        refine ⟨10, _, by simp [idle, free, hc, hi, hh]; rfl, by simp, ?_⟩
        exact ⟨rfl, rfl, rfl, rfl, rfl⟩
      | some handle =>
        refine ⟨10, _, by simp [idle, free, hc, hi, hh]; rfl, by simp, ?_⟩
        exact ⟨rfl, rfl, rfl, rfl, rfl⟩

end

end WepollEx.Lease
