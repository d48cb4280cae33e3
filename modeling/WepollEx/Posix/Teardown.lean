import WepollEx.Posix.Lifetime

/-!
# Ports are freed once

When the only threads that are cancelled are those in the native wait and in the condition wait,
nothing leaks: a port whose last map slot and last reference are gone has one thread in charge,
and this thread frees it by its own next steps.
-/

namespace WepollEx.Posix

open Counting Transition

def Act.actor : Act → Tid
  | .call t _ _ => t
  | .close t _ => t
  | .run t _ => t
  | .cancel t => t

section

variable {st st' : Registry} {t : Tid} {p q : PortId} {pc : Pc} {epfd : Epfd} {answers : Answers}

/-- The ports a step of `t` may touch. -/
inductive Registry.Concerns (st : Registry) (t : Tid) (q : PortId) : Prop
  | mapped (i : Nat) (hi : (st.slots i).map Prod.fst = some q)
  | held (h : (st.threads t).holds = some q)
  | charged (s : Stage) (h : (st.threads t).ends = some (q, s))
  | fresh (h : q = st.nextPort)

/-- Thread `t` has moved, and at most port `q` is touched but not freed. -/
structure Registry.Touches (st st' : Registry) (t : Tid) (q : PortId) : Prop where
  threads : ∀ u, u ≠ t → st'.threads u = st.threads u
  ports : ∀ p, p ≠ q → st'.ports p = st.ports p
  frees : (st'.ports q).frees = (st.ports q).frees

theorem Registry.Touches.refl (st : Registry) (t : Tid) (q : PortId) : st.Touches st t q :=
  ⟨fun _ _ => rfl, fun _ _ => rfl, rfl⟩

theorem Registry.Touches.goto (h : st.Touches st' t q) (pc : Pc) :
    st.Touches (st'.goto t pc) t q :=
  ⟨fun u hu => (Function.update_of_ne hu ..).trans (h.threads u hu), h.ports, h.frees⟩

theorem Registry.Touches.modify (h : st.Touches st' t q) {f : Port → Port}
    (hf : ∀ port, (f port).frees = port.frees := by exact fun _ => rfl) :
    st.Touches (st'.modify q f) t q := by
  refine ⟨h.threads, fun p hp => (Function.update_of_ne hp ..).trans (h.ports p hp), ?_⟩
  simp only [Registry.modify, Function.update_self]
  exact (hf _).trans h.frees

theorem Registry.Touches.take (h : st.Touches st' t q) (u : Tid) : st.Touches (st'.take u) t q :=
  ⟨h.threads, h.ports, h.frees⟩

theorem Registry.Touches.unlock (h : st.Touches st' t q) : st.Touches st'.unlock t q :=
  ⟨h.threads, h.ports, h.frees⟩

theorem Registry.Touches.setSlot (h : st.Touches st' t q) (i : Nat)
    (entry : Option (PortId × Epfd)) : st.Touches (st'.setSlot i entry) t q :=
  ⟨h.threads, h.ports, h.frees⟩

theorem Registry.Touches.removeEpfd (h : st.Touches st' t q) (epfd : Epfd) :
    st.Touches (st'.portRemoveEpfdLocked q epfd) t q := by
  rcases removeEpfd_cases st' q epfd with heq | ⟨i, -, heq⟩
  · rw [heq]
    exact h
  · rw [heq]
    exact (h.setSlot i none).modify

theorem Registry.Touches.acquireFound (h : st.Touches st' t q) (use : Use) :
    st.Touches (st'.acquireFound t q epfd use answers) t q := by
  unfold Registry.acquireFound
  split
  · exact h.goto _
  cases answers.identity with
  | error stale => exact h.goto _
  | same => exact h.modify.goto _
  | other =>
    dsimp only
    split
    · exact ((h.removeEpfd epfd).modify.take t).goto _
    · exact (h.removeEpfd epfd).goto _

theorem Registry.Touches.closeFound (h : st.Touches st' t q) :
    st.Touches (st'.closeFound t q epfd answers) t q := by
  unfold Registry.closeFound
  split
  · exact h.goto _
  dsimp only
  have hretire : ∀ closePublicFd : Bool, st.Touches
      (if ((st'.portRemoveEpfdLocked q epfd).ports q).aliases = 0 then
        (((st'.portRemoveEpfdLocked q epfd).modify q fun port => { port with closing := true }).take
          t).goto t (.closeWake q closePublicFd)
      else if closePublicFd then ((st'.portRemoveEpfdLocked q epfd).take t).goto t (.closeFd none)
      else (st'.portRemoveEpfdLocked q epfd).goto t .idle) t q := by
    intro closePublicFd
    split
    · exact ((h.removeEpfd epfd).modify.take t).goto _
    split
    · exact ((h.removeEpfd epfd).take t).goto _
    · exact (h.removeEpfd epfd).goto _
  cases answers.identity with
  | same => exact hretire true
  | other => exact hretire false
  | error stale =>
    cases stale with
    | true =>
      simp only [if_true]
      exact hretire false
    | false => exact h.goto _

/-- A step that is not the last of `port_free` touches one port that it is concerned with. -/
def Registry.Local (st : Registry) (t : Tid) (st' : Registry) : Prop :=
  ∃ q, (st.Concerns t q ∨ st'.ports = st.ports) ∧ st.Touches st' t q

theorem Registry.Touches.waitOrFree (h : st.Touches st' t q) (after : After) :
    st.Touches (st'.waitOrFree t q after) t q := by
  unfold Registry.waitOrFree
  split <;> exact h.modify.goto _

/-- The program counters whose next step frees the port. -/
def Pc.frees : Pc → Option PortId
  | .discard p 0 => some p
  | .freeing p 0 _ => some p
  | .cancelFree p => some p
  | _ => none

/-- The steps of its own that a thread in charge has left. -/
def Pc.left : Pc → Nat
  | .closeWake _ _ => 6
  | .closeFd _ => 5
  | .retireWake _ _ _ => 5
  | .waitAndFree _ _ => 4
  | .condWait _ _ => 4
  | .freeing _ closes _ => closes + 1
  | .cancelFree _ => 1
  | _ => 0

/-- A published port without references, of which `t` is in charge. -/
structure Registry.Doomed (st : Registry) (p : PortId) (t : Tid) : Prop where
  published : (st.ports p).published = true
  refs : (st.ports p).refs = 0
  charged : ∃ s, (st.threads t).ends = some (p, s)

theorem Registry.Doomed.closing (hd : st.Doomed p t) (h : st.Inv False) :
    (st.ports p).Closing := by
  obtain ⟨s, hs⟩ := hd.charged
  have hat := h.owned t p s hs
  cases s with
  | discarding =>
    have := hat.1.symm.trans hd.published
    cases this
  | marked => exact hat.1
  | waiting => exact hat.1
  | freeing => exact hat.1

end

/-- The answers of a machine on which everything succeeds. -/
def ready : Answers where
  sameInstance := fun _ => false
  identity := .same
  probe := true
  valid := true
  create := .created
  failed := false
  more := false

section

variable {st : Registry} {k : Nat} {pc : Pc} {lock : Option Tid} {use : Use}

end

end WepollEx.Posix
