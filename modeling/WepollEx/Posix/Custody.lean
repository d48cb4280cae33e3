import WepollEx.Lib.Counting
import WepollEx.Posix.Registry

/-!
# Who is in charge of a port

A port's counters are the map slots that name it and the threads that hold a reference.  Once its
last slot is cleared one thread is in charge of freeing it: the closer, or, after a cancelled
closer has left it behind, the last thread that releases a reference.

`leaks` allows one way out of this: a thread that is cancelled in the middle of `port_free`.
-/

namespace WepollEx.Posix

open Counting

/-- How far a thread in charge of a port has come. -/
inductive Stage
  /-- The port was never published. -/
  | discarding
  /-- The port is closing and its references are not waited for yet. -/
  | marked
  | waiting
  | freeing
  deriving DecidableEq, Repr

namespace Pc

/-- The thread holds the registry lock between two steps. -/
def locks : Pc → Bool
  | .validate _ _ _ => true
  | .discard _ _ => true
  | .retireWake _ _ _ => true
  | .closeWake _ _ => true
  | .closeFd _ => true
  | _ => false

/-- The port whose own lock the thread holds. -/
def locksPort : Pc → Option PortId
  | .controlLocked p => some p
  | .waitStartLocked p => some p
  | .decorateLocked p => some p
  | _ => none

/-- The port on which the thread holds a reference. -/
def holds : Pc → Option PortId
  | .control p => some p
  | .controlLocked p => some p
  | .waitStart p => some p
  | .waitStartLocked p => some p
  | .nativeWait p => some p
  | .closingCheck p _ => some p
  | .decorate p => some p
  | .decorateLocked p => some p
  | .release p => some p
  | .cancelRelease p => some p
  | _ => none

/-- The port the thread is in charge of. -/
def ends : Pc → Option (PortId × Stage)
  | .discard p _ => some (p, .discarding)
  | .retireWake p _ _ => some (p, .marked)
  | .waitAndFree p _ => some (p, .marked)
  | .condWait p _ => some (p, .waiting)
  | .freeing p _ _ => some (p, .freeing)
  | .closeWake p _ => some (p, .marked)
  | .closeFd (some p) => some (p, .marked)
  | .cancelFree p => some (p, .freeing)
  | _ => none

end Pc

/-- A closing port that nobody has freed yet. -/
structure Port.Closing (port : Port) : Prop where
  published : port.published = true
  closing : port.closing = true
  aliases : port.aliases = 0
  frees : port.frees = 0

/-- The port of a thread `t` in charge of it. -/
def Port.At (port : Port) (t : Tid) : Stage → Prop
  | .discarding => port.published = false ∧ port.frees = 0 ∧ port.aliases = 0
  | .marked => port.Closing ∧ port.retired = false ∧ port.closeWaiter = false ∧ port.sleepers = []
  | .waiting => port.Closing ∧ port.retired = true ∧ port.closeWaiter = true ∧
      (port.sleepers = [] ∨ (port.sleepers = [t] ∧ port.refs ≠ 0))
  | .freeing => port.Closing ∧ port.retired = false ∧ port.closeWaiter = false ∧
      port.sleepers = [] ∧ port.refs = 0

/-- A port that no thread is in charge of. -/
inductive Port.Ownerless (leaks : Prop) (port : Port) : Prop
  | unborn (blank : port = .blank)
  | opened (published : port.published = true) (aliases : 0 < port.aliases)
      (closing : port.closing = false) (retired : port.retired = false)
      (closeWaiter : port.closeWaiter = false) (sleepers : port.sleepers = [])
      (frees : port.frees = 0)
  | orphan (closing : port.Closing) (retired : port.retired = true)
      (closeWaiter : port.closeWaiter = false) (sleepers : port.sleepers = [])
      (refs : port.refs ≠ 0)
  | freed (frees : port.frees = 1) (aliases : port.aliases = 0)
      (refs : port.published = true → port.refs = 0)
  | leaked (leaks : leaks) (closing : port.Closing) (refs : port.refs = 0)
      (retired : port.retired = false)

structure Registry.Inv (leaks : Prop) (st : Registry) : Prop where
  lock : ∀ t, (st.threads t).locks = true ↔ st.lock = some t
  portLock : ∀ t p, (st.threads t).locksPort = some p ↔ (st.ports p).lock = some t
  refs : ∀ p, (st.ports p).published = true →
    Counts (fun t => (st.threads t).holds = some p) (st.ports p).refs
  held : ∀ t p, (st.threads t).holds = some p → (st.ports p).published = true
  slots : ∀ p, Counts (fun i => (st.slots i).map Prod.fst = some p) (st.ports p).aliases
  unique : ∀ p t u s s', (st.threads t).ends = some (p, s) → (st.threads u).ends = some (p, s') →
    t = u
  owned : ∀ t p s, (st.threads t).ends = some (p, s) → (st.ports p).At t s
  bound : ∀ t p s, (st.threads t).ends = some (p, s) → p < st.nextPort
  ownerless : ∀ p, (∀ t s, (st.threads t).ends ≠ some (p, s)) → (st.ports p).Ownerless leaks
  fresh : ∀ p, st.nextPort ≤ p → st.ports p = .blank

theorem inv_start (leaks : Prop) : Registry.start.Inv leaks where
  lock := fun _ => ⟨nofun, nofun⟩
  portLock := fun _ _ => ⟨nofun, nofun⟩
  refs := nofun
  held := nofun
  slots := fun _ => .none nofun
  unique := nofun
  owned := nofun
  bound := nofun
  ownerless := fun _ _ => .unborn rfl
  fresh := fun _ _ => rfl

/-! ## Steps that touch one thread and one port -/

/-- What a step of one thread leaves: its program counter, one port, the registry lock and the
map. -/
structure Change where
  pc : Pc
  p : PortId
  port : Port
  lock : Option Tid
  slots : Nat → Option (PortId × Epfd)
  nextPort : PortId

/-- The state after thread `t` has made the change `d`. -/
def Registry.after (st : Registry) (t : Tid) (d : Change) : Registry where
  lock := d.lock
  slots := d.slots
  ports := Function.update st.ports d.p d.port
  nextPort := d.nextPort
  threads := Function.update st.threads t d.pc

/-- The change is one that a step of `t` may make. -/
structure Registry.Allows (leaks : Prop) (st : Registry) (t : Tid) (d : Change) : Prop where
  lock : d.pc.locks = true ↔ d.lock = some t
  lockOther : ∀ u, u ≠ t → (d.lock = some u ↔ st.lock = some u)
  portLock : d.pc.locksPort = some d.p ↔ d.port.lock = some t
  portLockOther : ∀ u, u ≠ t → (d.port.lock = some u ↔ (st.ports d.p).lock = some u)
  refs : d.port.published = true →
    Counts (fun u => (Function.update st.threads t d.pc u).holds = some d.p) d.port.refs
  held : d.pc.holds = some d.p ∨ (st.ports d.p).published = true → d.port.published = true
  slots : Counts (fun i => (d.slots i).map Prod.fst = some d.p) d.port.aliases
  owned : ∀ u s, (Function.update st.threads t d.pc u).ends = some (d.p, s) → d.port.At u s
  unique : ∀ s, d.pc.ends = some (d.p, s) → ∀ u s', u ≠ t → (st.threads u).ends ≠ some (d.p, s')
  ownerless : (∀ u s, (Function.update st.threads t d.pc u).ends ≠ some (d.p, s)) →
    d.port.Ownerless leaks
  bound : d.p < d.nextPort ∧ st.nextPort ≤ d.nextPort
  elsewhere : ∀ q, q ≠ d.p → (d.pc.locksPort = some q ↔ (st.threads t).locksPort = some q) ∧
    (d.pc.holds = some q ↔ (st.threads t).holds = some q) ∧
    (∀ s, d.pc.ends = some (q, s) ↔ (st.threads t).ends = some (q, s)) ∧
    ∀ i, (d.slots i).map Prod.fst = some q ↔ (st.slots i).map Prod.fst = some q

section

variable {leaks : Prop} {st : Registry} {t : Tid} {p : PortId} {pc : Pc} {d : Change}

/-- A fact about the program counters of all threads after `t` has moved. -/
theorem update_iff {β : Type} {f : Pc → Option β} {x : β}
    (self : f pc = some x ↔ f (st.threads t) = some x) (u : Tid) :
    f (Function.update st.threads t pc u) = some x ↔ f (st.threads u) = some x := by
  by_cases hu : u = t
  · rw [hu, Function.update_self]
    exact self
  · rw [Function.update_of_ne hu]

theorem Registry.Inv.after (h : st.Inv leaks) (hd : st.Allows leaks t d) :
    (st.after t d).Inv leaks := by
  refine ⟨?_, ?_, ?_, ?_, ?_, ?_, ?_, ?_, ?_, ?_⟩
  · intro u
    by_cases hu : u = t
    · subst hu
      simp only [Registry.after, Function.update_self]
      exact hd.lock
    · simp only [Registry.after, Function.update_of_ne hu]
      rw [hd.lockOther u hu]
      exact h.lock u
  · intro u q
    by_cases hq : q = d.p
    · subst hq
      by_cases hu : u = t
      · subst hu
        simp only [Registry.after, Function.update_self]
        exact hd.portLock
      · simp only [Registry.after, Function.update_self, Function.update_of_ne hu]
        rw [hd.portLockOther u hu]
        exact h.portLock u d.p
    · simp only [Registry.after, Function.update_of_ne hq]
      rw [update_iff (hd.elsewhere q hq).1 u]
      exact h.portLock u q
  · intro q hpub
    by_cases hq : q = d.p
    · subst hq
      simp only [Registry.after, Function.update_self] at hpub ⊢
      exact hd.refs hpub
    · simp only [Registry.after, Function.update_of_ne hq] at hpub ⊢
      exact (h.refs q hpub).congr fun u => update_iff (hd.elsewhere q hq).2.1 u
  · intro u q hheld
    by_cases hq : q = d.p
    · subst hq
      simp only [Registry.after, Function.update_self] at hheld ⊢
      by_cases hu : u = t
      · rw [hu, Function.update_self] at hheld
        exact hd.held (.inl hheld)
      · rw [Function.update_of_ne hu] at hheld
        exact hd.held (.inr (h.held u d.p hheld))
    · simp only [Registry.after, Function.update_of_ne hq] at hheld ⊢
      exact h.held u q ((update_iff (hd.elsewhere q hq).2.1 u).mp hheld)
  · intro q
    by_cases hq : q = d.p
    · subst hq
      simp only [Registry.after, Function.update_self]
      exact hd.slots
    · simp only [Registry.after, Function.update_of_ne hq]
      exact (h.slots q).congr (hd.elsewhere q hq).2.2.2
  · intro q u v s s' hu hv
    by_cases hq : q = d.p
    · subst hq
      by_cases hut : u = t
      · by_cases hvt : v = t
        · rw [hut, hvt]
        · simp only [Registry.after, hut, Function.update_self] at hu
          simp only [Registry.after, Function.update_of_ne hvt] at hv
          exact absurd hv (hd.unique s hu v s' hvt)
      · by_cases hvt : v = t
        · simp only [Registry.after, hvt, Function.update_self] at hv
          simp only [Registry.after, Function.update_of_ne hut] at hu
          exact absurd hu (hd.unique s' hv u s hut)
        · simp only [Registry.after, Function.update_of_ne hut] at hu
          simp only [Registry.after, Function.update_of_ne hvt] at hv
          exact h.unique d.p u v s s' hu hv
    · exact h.unique q u v s s' ((update_iff ((hd.elsewhere q hq).2.2.1 s) u).mp hu)
        ((update_iff ((hd.elsewhere q hq).2.2.1 s') v).mp hv)
  · intro u q s hu
    by_cases hq : q = d.p
    · subst hq
      simp only [Registry.after, Function.update_self]
      exact hd.owned u s hu
    · simp only [Registry.after, Function.update_of_ne hq]
      exact h.owned u q s ((update_iff ((hd.elsewhere q hq).2.2.1 s) u).mp hu)
  · intro u q s hu
    by_cases hq : q = d.p
    · rw [hq]
      exact hd.bound.1
    · exact Nat.lt_of_lt_of_le
        (h.bound u q s ((update_iff ((hd.elsewhere q hq).2.2.1 s) u).mp hu)) hd.bound.2
  · intro q hnone
    by_cases hq : q = d.p
    · subst hq
      simp only [Registry.after, Function.update_self]
      exact hd.ownerless hnone
    · simp only [Registry.after, Function.update_of_ne hq]
      exact h.ownerless q fun u s hu =>
        hnone u s ((update_iff ((hd.elsewhere q hq).2.2.1 s) u).mpr hu)
  · intro q hle
    have hq : q ≠ d.p := fun heq => absurd hd.bound.1 (Nat.not_lt.mpr (heq ▸ hle))
    simp only [Registry.after, Function.update_of_ne hq]
    exact h.fresh q (hd.bound.2.trans hle)

/-- A step that changes nothing but the program counter and the registry lock. -/
theorem Registry.Inv.move (h : st.Inv leaks) {holder : Option Tid}
    (locks : pc.locks = true ↔ holder = some t)
    (lockOther : ∀ u, u ≠ t → (holder = some u ↔ st.lock = some u))
    (locksPort : pc.locksPort = (st.threads t).locksPort)
    (holds : pc.holds = (st.threads t).holds) (ends : pc.ends = (st.threads t).ends) :
    { st with lock := holder, threads := Function.update st.threads t pc }.Inv leaks := by
  have hport : ∀ u q, (Function.update st.threads t pc u).locksPort = some q ↔
      (st.threads u).locksPort = some q := fun u q => update_iff (by rw [locksPort]) u
  have hholds : ∀ u q, (Function.update st.threads t pc u).holds = some q ↔
      (st.threads u).holds = some q := fun u q => update_iff (by rw [holds]) u
  have hends : ∀ u x, (Function.update st.threads t pc u).ends = some x ↔
      (st.threads u).ends = some x := fun u x => update_iff (by rw [ends]) u
  refine ⟨fun u => ?_, fun u q => (hport u q).trans (h.portLock u q),
    fun q hq => (h.refs q hq).congr fun u => hholds u q,
    fun u q hu => h.held u q ((hholds u q).mp hu), h.slots,
    fun q u v s s' hu hv => h.unique q u v s s' ((hends u _).mp hu) ((hends v _).mp hv),
    fun u q s hu => h.owned u q s ((hends u _).mp hu),
    fun u q s hu => h.bound u q s ((hends u _).mp hu),
    fun q hq => h.ownerless q fun u s hu => hq u s ((hends u _).mpr hu), h.fresh⟩
  by_cases hu : u = t
  · subst hu
    simpa only [Function.update_self] using locks
  · simp only [Function.update_of_ne hu]
    rw [lockOther u hu]
    exact h.lock u

/-- A step that only moves the program counter. -/
theorem Registry.Inv.goto (h : st.Inv leaks) (locks : pc.locks = (st.threads t).locks)
    (locksPort : pc.locksPort = (st.threads t).locksPort)
    (holds : pc.holds = (st.threads t).holds) (ends : pc.ends = (st.threads t).ends) :
    (st.goto t pc).Inv leaks := by
  refine h.move ?_ (fun _ _ => Iff.rfl) locksPort holds ends
  rw [locks]
  exact h.lock t

/-- A thread that does not hold the free registry lock takes it. -/
theorem Registry.Inv.take (h : st.Inv leaks) (free : st.lock = none) (locks : pc.locks = true)
    (locksPort : pc.locksPort = (st.threads t).locksPort)
    (holds : pc.holds = (st.threads t).holds) (ends : pc.ends = (st.threads t).ends) :
    ((st.take t).goto t pc).Inv leaks := by
  refine h.move ⟨fun _ => rfl, fun _ => locks⟩ (fun u hu => ?_) locksPort holds ends
  show some t = some u ↔ st.lock = some u
  rw [free]
  simpa using Ne.symm hu

/-- The holder of the registry lock releases it. -/
theorem Registry.Inv.unlock (h : st.Inv leaks) (held : st.lock = some t)
    (locks : pc.locks = false) (locksPort : pc.locksPort = (st.threads t).locksPort)
    (holds : pc.holds = (st.threads t).holds) (ends : pc.ends = (st.threads t).ends) :
    (st.unlock.goto t pc).Inv leaks := by
  refine h.move ⟨fun hl => ?_, nofun⟩ (fun u hu => ?_) locksPort holds ends
  · rw [locks] at hl
    cases hl
  · show none = some u ↔ st.lock = some u
    rw [held]
    simpa using Ne.symm hu

/-! ## Steps of a thread with a reference, and of a thread in charge -/

theorem Registry.Inv.bound_of_published (h : st.Inv leaks) (hp : (st.ports p).published = true) :
    p < st.nextPort := by
  by_contra hge
  rw [h.fresh p (Nat.le_of_not_lt hge)] at hp
  cases hp

/-- A port that a map slot names is open, and no thread is in charge of it. -/
theorem Registry.Inv.mapped (h : st.Inv leaks) {i : Nat}
    (hi : (st.slots i).map Prod.fst = some p) :
    (∀ t s, (st.threads t).ends ≠ some (p, s)) ∧ (st.ports p).published = true ∧
      (st.ports p).closing = false ∧ (st.ports p).retired = false ∧
      (st.ports p).closeWaiter = false ∧ (st.ports p).sleepers = [] ∧ (st.ports p).frees = 0 := by
  have hpos := (h.slots p).pos hi
  have hnone : ∀ t s, (st.threads t).ends ≠ some (p, s) := by
    intro t s hs
    have hat := h.owned t p s hs
    have hzero : (st.ports p).aliases = 0 := by
      cases s with
      | discarding => exact hat.2.2
      | marked => exact hat.1.aliases
      | waiting => exact hat.1.aliases
      | freeing => exact hat.1.aliases
    omega
  refine ⟨hnone, ?_⟩
  cases h.ownerless p hnone with
  | unborn blank =>
    rw [blank] at hpos
    exact absurd hpos (Nat.lt_irrefl 0)
  | opened published _ closing retired closeWaiter sleepers frees =>
    exact ⟨published, closing, retired, closeWaiter, sleepers, frees⟩
  | orphan closing => exact absurd closing.aliases hpos.ne'
  | freed _ aliases => exact absurd aliases hpos.ne'
  | leaked _ closing => exact absurd closing.aliases hpos.ne'

/-- A step of a thread that is in charge of no port. -/
theorem Registry.Inv.useStep (h : st.Inv leaks) (port : Port)
    (hp : (st.ports p).published = true) (locks : pc.locks = (st.threads t).locks)
    (before : (st.threads t).ends = none) (after : pc.ends = none)
    (portLock : pc.locksPort = some p ↔ port.lock = some t)
    (portLockOther : ∀ u, u ≠ t → (port.lock = some u ↔ (st.ports p).lock = some u))
    (refs : Counts (fun u => (Function.update st.threads t pc u).holds = some p) port.refs)
    (published : port.published = true) (aliases : port.aliases = (st.ports p).aliases)
    (own : ∀ u s, (st.ports p).At u s → port.At u s)
    (less : (st.ports p).Ownerless leaks → port.Ownerless leaks)
    (elsewhere : ∀ q, q ≠ p → (pc.locksPort = some q ↔ (st.threads t).locksPort = some q) ∧
      (pc.holds = some q ↔ (st.threads t).holds = some q)) :
    ((st.modify p fun _ => port).goto t pc).Inv leaks := by
  have hends : ∀ u x, (Function.update st.threads t pc u).ends = some x ↔
      (st.threads u).ends = some x := fun u x => update_iff (by rw [before, after]) u
  exact h.after (d := ⟨pc, p, port, st.lock, st.slots, st.nextPort⟩)
    { lock := by rw [locks]; exact h.lock t
      lockOther := fun _ _ => Iff.rfl
      portLock := portLock
      portLockOther := portLockOther
      refs := fun _ => refs
      held := fun _ => published
      slots := by rw [aliases]; exact h.slots p
      owned := fun u s hu => own u s (h.owned u p s ((hends u _).mp hu))
      unique := fun s hs => by
        rw [show pc.ends = none from after] at hs
        cases hs
      ownerless := fun hnone => less (h.ownerless p fun u s hu => hnone u s ((hends u _).mpr hu))
      bound := ⟨h.bound_of_published hp, Nat.le_refl _⟩
      elsewhere := fun q hq => ⟨(elsewhere q hq).1, (elsewhere q hq).2,
        fun s => by rw [before, after], fun _ => Iff.rfl⟩ }

/-- A step of the thread in charge of `p`. -/
theorem Registry.Inv.ownStep (h : st.Inv leaks) (holder : Option Tid) (port : Port) {s : Stage}
    (before : (st.threads t).ends = some (p, s)) (noPort : (st.threads t).locksPort = none)
    (noRef : (st.threads t).holds = none) (locks : pc.locks = true ↔ holder = some t)
    (lockOther : ∀ u, u ≠ t → (holder = some u ↔ st.lock = some u))
    (noPort' : pc.locksPort = none) (noRef' : pc.holds = none)
    (sameLock : port.lock = (st.ports p).lock) (sameRefs : port.refs = (st.ports p).refs)
    (samePublished : port.published = (st.ports p).published)
    (sameAliases : port.aliases = (st.ports p).aliases)
    (after : (∃ s', pc.ends = some (p, s') ∧ port.At t s') ∨
      (pc.ends = none ∧ port.Ownerless leaks)) :
    { st with
      lock := holder
      ports := Function.update st.ports p port
      threads := Function.update st.threads t pc }.Inv leaks := by
  have hothers : ∀ u s', u ≠ t → (st.threads u).ends ≠ some (p, s') := by
    intro u s' hu hs'
    exact hu (h.unique p u t s' s hs' before)
  have honly : ∀ q s', q ≠ p → pc.ends ≠ some (q, s') := by
    intro q s' hq hs'
    rcases after with ⟨s'', hs'', -⟩ | ⟨hnone, -⟩
    · rw [hs''] at hs'
      exact hq (congrArg Prod.fst (Option.some.inj hs')).symm
    · rw [hnone] at hs'
      cases hs'
  have hends : ∀ u s', (Function.update st.threads t pc u).ends = some (p, s') → u = t := by
    intro u s' hu
    by_contra hne
    rw [Function.update_of_ne hne] at hu
    exact hothers u s' hne hu
  refine h.after (d := ⟨pc, p, port, holder, st.slots, st.nextPort⟩)
    { lock := locks
      lockOther := lockOther
      portLock := ?_
      portLockOther := fun u _ => by rw [sameLock]
      refs := fun hpub => ?_
      held := fun hor => ?_
      slots := by rw [sameAliases]; exact h.slots p
      owned := fun u s' hu => ?_
      unique := fun s' _ u s'' hu => hothers u s'' hu
      ownerless := fun hnone => ?_
      bound := ⟨h.bound t p s before, Nat.le_refl _⟩
      elsewhere := fun q hq => ⟨by rw [noPort, noPort'], by rw [noRef, noRef'],
        fun s' => ⟨fun hs' => absurd hs' (honly q s' hq), fun hs' => ?_⟩, fun _ => Iff.rfl⟩ }
  · show pc.locksPort = some p ↔ port.lock = some t
    rw [noPort', sameLock, ← h.portLock t p, noPort]
  · have hcount := h.refs p (samePublished ▸ hpub)
    rw [← sameRefs] at hcount
    exact hcount.congr fun u => update_iff (by rw [noRef, noRef']) u
  · rcases hor with hholds | hpub
    · change pc.holds = some p at hholds
      rw [noRef'] at hholds
      cases hholds
    · exact samePublished.trans hpub
  · obtain rfl := hends u s' hu
    rw [Function.update_self] at hu
    rcases after with ⟨s'', hs'', hat⟩ | ⟨hnone, -⟩
    · change pc.ends = some (p, s') at hu
      rw [hs''] at hu
      obtain rfl := congrArg Prod.snd (Option.some.inj hu)
      exact hat
    · change pc.ends = some (p, s') at hu
      rw [hnone] at hu
      cases hu
  · rcases after with ⟨s'', hs'', -⟩ | ⟨-, hless⟩
    · have := hnone t s''
      rw [Function.update_self] at this
      exact absurd hs'' this
    · exact hless
  · rw [before] at hs'
    exact absurd (congrArg Prod.fst (Option.some.inj hs')).symm hq

end

end WepollEx.Posix
