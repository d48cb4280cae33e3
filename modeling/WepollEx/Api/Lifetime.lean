import Mathlib.Data.Finset.Card
import WepollEx.Api.Table

/-!
# The lifetime of a port

The counters of a shared record are the number of its aliases and of the operations that hold a
reference.  Once its last alias is gone a single party is in charge of it: the thread that closed
the alias, or the last operation after that thread gave up.
-/

namespace WepollEx.Api

namespace Pc

/-- The record on which an operation holds a reference. -/
def holds : Pc → Option SharedAddr
  | .operating s => some s
  | _ => none

/-- The record whose references the closing thread waits for. -/
def closes : Pc → Option SharedAddr
  | .beginClose s | .checkRefs s | .waiting s | .recheck s _ => some s
  | _ => none

/-- The record whose port is about to be destroyed. -/
def destroys : Pc → Option SharedAddr
  | .destroying s _ => some s
  | _ => none

/-- The record whose port has been destroyed. -/
def frees : Pc → Option SharedAddr
  | .freeing s _ _ => some s
  | _ => none

/-- The record the thread is in charge of. -/
def ends (pc : Pc) : Option SharedAddr :=
  pc.closes <|> pc.destroys <|> pc.frees

/-- The port that is not in the table yet, or never will be. -/
def making : Pc → Option PortId
  | .created port | .createFailed port _ => some port
  | _ => none

end Pc

/-- `fd` is an alias of the record `s`. -/
def State.Names (st : State) (fd : Int) (s : SharedAddr) : Prop :=
  st.buckets.epfdFindLocked fd = some ⟨fd, s⟩

/-- The counters of a shared record. -/
structure Counted (st : State) (s : SharedAddr) (r : Shared) : Prop where
  aliases : ∃ fds : Finset Int, (∀ fd, fd ∈ fds ↔ st.Names fd s) ∧ r.aliases = fds.card
  refs : ∃ ts : Finset Tid, (∀ t, t ∈ ts ↔ (st.pc t).holds = some s) ∧ r.refs = ts.card

/-- Who is in charge of a shared record. -/
structure InCharge (st : State) (s : SharedAddr) (r : Shared) : Prop where
  closing : r.closing = true ↔ r.aliases = 0
  ends : ∀ t, (st.pc t).ends = some s → r.closing = true
  unique : ∀ t u, (st.pc t).ends = some s → (st.pc u).ends = some s → t = u
  closes : ∀ t, (st.pc t).closes = some s → r.detached = false
  done : ∀ t, (st.pc t).closes ≠ some s → (st.pc t).ends = some s → r.refs = 0
  detached : r.detached = true → r.closing = true ∧ (0 < r.refs ∨ ∃ t, (st.pc t).ends = some s)
  someone : r.closing = true → r.detached = true ∨ ∃ t, (st.pc t).ends = some s

/-- Where a port is. -/
structure Ports (st : State) : Prop where
  unique : ∀ s s' r r', st.shared s = some r → st.shared s' = some r' → r.port = r'.port → s = s'
  making : ∀ t p, (st.pc t).making = some p → p < st.nextPort ∧ st.destroyed p = 0 ∧
    (∀ s r, st.shared s = some r → r.port ≠ p) ∧ ∀ u, (st.pc u).making = some p → u = t
  bound : ∀ s r, st.shared s = some r → s < st.nextShared ∧ r.port < st.nextPort
  alive : ∀ s r, st.shared s = some r → (∀ t, (st.pc t).frees ≠ some s) → st.destroyed r.port = 0
  destroyed : ∀ s r t, st.shared s = some r → (st.pc t).frees = some s → st.destroyed r.port = 1
  gone : ∀ p < st.nextPort, (∃ s r, st.shared s = some r ∧ r.port = p) ∨
    (∃ t, (st.pc t).making = some p) ∨ st.destroyed p = 1
  future : ∀ p, st.nextPort ≤ p → st.destroyed p = 0

structure Inv (st : State) : Prop where
  table : st.buckets.Ok
  nextFd : 1 ≤ st.nextFd ∧ st.nextFd ≤ INT_MAX
  noFault : st.fault = false
  named : ∀ fd s, st.Names fd s → ∃ r, st.shared s = some r
  held : ∀ t s, (st.pc t).holds = some s → ∃ r, st.shared s = some r
  ended : ∀ t s, (st.pc t).ends = some s → ∃ r, st.shared s = some r
  counted : ∀ s r, st.shared s = some r → Counted st s r
  inCharge : ∀ s r, st.shared s = some r → InCharge st s r
  ports : Ports st

theorem inv_start : Inv start where
  table := ⟨by simp [start], by simp [start], by simp [start]⟩
  nextFd := by decide
  noFault := rfl
  named := by
    intro fd s h
    unfold State.Names Buckets.epfdFindLocked start at h
    split at h <;> cases h
  held := nofun
  ended := nofun
  counted := nofun
  inCharge := nofun
  ports :=
    { unique := nofun
      making := nofun
      bound := nofun
      alive := nofun
      destroyed := nofun
      gone := nofun
      future := fun _ _ => rfl }

section

variable {st st' : State} {t : Tid} {s : SharedAddr} {r r' : Shared} {pc : Pc}

/-- A fact about all threads after one of them has moved. -/
theorem update_iff {β : Type} {f : Pc → Option β} {x : β}
    (self : f pc = some x ↔ f (st.pc t) = some x) (u : Tid) :
    f (Function.update st.pc t pc u) = some x ↔ f (st.pc u) = some x := by
  by_cases hu : u = t
  · subst hu
    rw [Function.update_self]
    exact self
  · rw [Function.update_of_ne hu]

theorem Counted.congr (h : Counted st s r) (names : ∀ fd, st'.Names fd s ↔ st.Names fd s)
    (holds : ∀ u, (st'.pc u).holds = some s ↔ (st.pc u).holds = some s)
    (aliases : r'.aliases = r.aliases) (refs : r'.refs = r.refs) : Counted st' s r' := by
  obtain ⟨fds, hfds, halias⟩ := h.aliases
  obtain ⟨ts, hts, hrefs⟩ := h.refs
  refine ⟨⟨fds, fun fd => ?_, aliases.trans halias⟩, ⟨ts, fun u => ?_, refs.trans hrefs⟩⟩
  · rw [names fd]
    exact hfds fd
  · rw [holds u]
    exact hts u

theorem InCharge.congr (h : InCharge st s r)
    (ends : ∀ u, (st'.pc u).ends = some s ↔ (st.pc u).ends = some s)
    (closes : ∀ u, (st'.pc u).closes = some s ↔ (st.pc u).closes = some s)
    (closing : r'.closing = r.closing) (detached : r'.detached = r.detached)
    (aliases : r'.aliases = r.aliases) (refs : r'.refs = r.refs) : InCharge st' s r' where
  closing := by
    rw [closing, aliases]
    exact h.closing
  ends := fun u hu => closing.trans (h.ends u ((ends u).mp hu))
  unique := fun u v hu hv => h.unique u v ((ends u).mp hu) ((ends v).mp hv)
  closes := fun u hu => detached.trans (h.closes u ((closes u).mp hu))
  done := by
    intro u hu hend
    refine refs.trans (h.done u ?_ ((ends u).mp hend))
    exact fun hc => hu ((closes u).mpr hc)
  detached := by
    rw [detached, closing, refs]
    simp only [ends]
    exact h.detached
  someone := by
    rw [closing, detached]
    simp only [ends]
    exact h.someone

/-- Nobody is in charge of a record that is not closing. -/
theorem InCharge.opened (h : InCharge st s r) (opened : r.closing = false) :
    (∀ u, (st.pc u).ends ≠ some s) ∧ r.detached = false := by
  constructor
  · intro u hu
    have := h.ends u hu
    rw [opened] at this
    cases this
  · cases hd : r.detached with
    | false => rfl
    | true =>
      have := (h.detached hd).1
      rw [opened] at this
      cases this

theorem InCharge.of_open (opened : r.closing = false) (detached : r.detached = false)
    (closing : r.closing = true ↔ r.aliases = 0) (nobody : ∀ u, (st.pc u).ends ≠ some s) :
    InCharge st s r where
  closing := closing
  ends := fun u hu => absurd hu (nobody u)
  unique := fun u _ hu => absurd hu (nobody u)
  closes := fun _ _ => detached
  done := fun u _ hu => absurd hu (nobody u)
  detached := by
    rw [detached]
    nofun
  someone := by
    rw [opened]
    nofun

/-- The ports do not move. -/
theorem Ports.congr (h : Ports st)
    (old : ∀ {s r}, st'.shared s = some r → ∃ q, st.shared s = some q ∧ q.port = r.port)
    (new : ∀ {s r}, st.shared s = some r → ∃ q, st'.shared s = some q ∧ q.port = r.port)
    (frees : ∀ u s, (st'.pc u).frees = some s ↔ (st.pc u).frees = some s)
    (making : ∀ u p, (st'.pc u).making = some p ↔ (st.pc u).making = some p)
    (nextShared : st'.nextShared = st.nextShared) (nextPort : st'.nextPort = st.nextPort)
    (destroyed : st'.destroyed = st.destroyed) : Ports st' where
  unique := by
    intro s₁ s₂ r₁ r₂ h₁ h₂ hport
    obtain ⟨q₁, hq₁, hp₁⟩ := old h₁
    obtain ⟨q₂, hq₂, hp₂⟩ := old h₂
    exact h.unique s₁ s₂ q₁ q₂ hq₁ hq₂ (hp₁.trans (hport.trans hp₂.symm))
  making := by
    intro u p hu
    obtain ⟨hlt, hzero, hother, huniq⟩ := h.making u p ((making u p).mp hu)
    rw [nextPort, destroyed]
    refine ⟨hlt, hzero, fun s' q hq hport => ?_, fun v hv => huniq v ((making v p).mp hv)⟩
    obtain ⟨q', hq', hp'⟩ := old hq
    exact hother s' q' hq' (hp'.trans hport)
  bound := by
    intro s' q hq
    obtain ⟨q', hq', hp'⟩ := old hq
    rw [nextShared, nextPort, ← hp']
    exact h.bound s' q' hq'
  alive := by
    intro s' q hq hfree
    obtain ⟨q', hq', hp'⟩ := old hq
    rw [destroyed, ← hp']
    exact h.alive s' q' hq' fun u hu => hfree u ((frees u s').mpr hu)
  destroyed := by
    intro s' q u hq hu
    obtain ⟨q', hq', hp'⟩ := old hq
    rw [destroyed, ← hp']
    exact h.destroyed s' q' u hq' ((frees u s').mp hu)
  gone := by
    intro p hp
    rw [nextPort] at hp
    rw [destroyed]
    rcases h.gone p hp with ⟨s', q, hq, hport⟩ | ⟨u, hu⟩ | hdone
    · obtain ⟨q', hq', hp'⟩ := new hq
      exact .inl ⟨s', q', hq', hp'.trans hport⟩
    · exact .inr (.inl ⟨u, (making u p).mpr hu⟩)
    · exact .inr (.inr hdone)
  future := by
    intro p hp
    rw [nextPort] at hp
    rw [destroyed]
    exact h.future p hp

/-- A thread changes one record and moves on; the ports stay where they are. -/
structure Change (st st' : State) (t : Tid) (pc : Pc) (s : SharedAddr) (r r' : Shared) :
    Prop where
  before : st.shared s = some r
  shared : st'.shared = Function.update st.shared s (some r')
  moved : st'.pc = Function.update st.pc t pc
  port : r'.port = r.port
  nextShared : st'.nextShared = st.nextShared
  nextPort : st'.nextPort = st.nextPort
  destroyed : st'.destroyed = st.destroyed
  names : ∀ fd s', s' ≠ s → (st'.Names fd s' ↔ st.Names fd s')
  holds : ∀ s', s' ≠ s → (pc.holds = some s' ↔ (st.pc t).holds = some s')
  ends : ∀ s', s' ≠ s → (pc.ends = some s' ↔ (st.pc t).ends = some s')
  closes : ∀ s', s' ≠ s → (pc.closes = some s' ↔ (st.pc t).closes = some s')
  frees : pc.frees = (st.pc t).frees
  making : pc.making = (st.pc t).making

namespace Change

variable (c : Change st st' t pc s r r')

include c

/-- A record of the new state, as it was before. -/
theorem old {s' : SharedAddr} {q : Shared} (hq : st'.shared s' = some q) :
    (s' = s ∧ q = r') ∨ (s' ≠ s ∧ st.shared s' = some q) := by
  rw [c.shared] at hq
  by_cases hs : s' = s
  · subst hs
    rw [Function.update_self] at hq
    exact .inl ⟨rfl, (Option.some.inj hq).symm⟩
  · rw [Function.update_of_ne hs] at hq
    exact .inr ⟨hs, hq⟩

theorem old_port {s' : SharedAddr} {q : Shared} (hq : st'.shared s' = some q) :
    ∃ q', st.shared s' = some q' ∧ q'.port = q.port := by
  rcases c.old hq with ⟨rfl, rfl⟩ | ⟨_, hold⟩
  · exact ⟨r, c.before, c.port.symm⟩
  · exact ⟨q, hold, rfl⟩

theorem new {s' : SharedAddr} {q : Shared} (hq : st.shared s' = some q) :
    ∃ q', st'.shared s' = some q' ∧ q'.port = q.port := by
  rw [c.shared]
  by_cases hs : s' = s
  · subst hs
    obtain rfl := Option.some.inj (hq.symm.trans c.before)
    exact ⟨r', Function.update_self .., c.port⟩
  · exact ⟨q, (Function.update_of_ne hs ..).trans hq, rfl⟩

theorem frees_iff (u : Tid) (s' : SharedAddr) :
    (st'.pc u).frees = some s' ↔ (st.pc u).frees = some s' := by
  rw [c.moved]
  exact update_iff (by rw [c.frees]) u

theorem making_iff (u : Tid) (p : PortId) :
    (st'.pc u).making = some p ↔ (st.pc u).making = some p := by
  rw [c.moved]
  exact update_iff (by rw [c.making]) u

theorem ports (h : Ports st) : Ports st' :=
  h.congr (fun hq => c.old_port hq) (fun hq => c.new hq) c.frees_iff c.making_iff c.nextShared
    c.nextPort c.destroyed

theorem inv (h : Inv st) (table : st'.buckets.Ok) (nextFd : 1 ≤ st'.nextFd ∧ st'.nextFd ≤ INT_MAX)
    (noFault : st'.fault = false) (counted : Counted st' s r') (inCharge : InCharge st' s r') :
    Inv st' where
  table := table
  nextFd := nextFd
  noFault := noFault
  named := by
    intro fd s' hname
    by_cases hs : s' = s
    · subst hs
      exact ⟨r', by rw [c.shared, Function.update_self]⟩
    · obtain ⟨q, hq⟩ := h.named fd s' ((c.names fd s' hs).mp hname)
      exact (c.new hq).imp fun _ hq' => hq'.1
  held := by
    intro u s' hu
    by_cases hs : s' = s
    · subst hs
      exact ⟨r', by rw [c.shared, Function.update_self]⟩
    · rw [c.moved] at hu
      obtain ⟨q, hq⟩ := h.held u s' ((update_iff (c.holds s' hs) u).mp hu)
      exact (c.new hq).imp fun _ hq' => hq'.1
  ended := by
    intro u s' hu
    by_cases hs : s' = s
    · subst hs
      exact ⟨r', by rw [c.shared, Function.update_self]⟩
    · rw [c.moved] at hu
      obtain ⟨q, hq⟩ := h.ended u s' ((update_iff (c.ends s' hs) u).mp hu)
      exact (c.new hq).imp fun _ hq' => hq'.1
  counted := by
    intro s' q hq
    rcases c.old hq with ⟨rfl, rfl⟩ | ⟨hs, hold⟩
    · exact counted
    · refine (h.counted s' q hold).congr (fun fd => c.names fd s' hs) (fun u => ?_) rfl rfl
      rw [c.moved]
      exact update_iff (c.holds s' hs) u
  inCharge := by
    intro s' q hq
    rcases c.old hq with ⟨rfl, rfl⟩ | ⟨hs, hold⟩
    · exact inCharge
    · refine (h.inCharge s' q hold).congr (fun u => ?_) (fun u => ?_) rfl rfl rfl rfl
      · rw [c.moved]
        exact update_iff (c.ends s' hs) u
      · rw [c.moved]
        exact update_iff (c.closes s' hs) u
  ports := c.ports h.ports

end Change

end

end WepollEx.Api
