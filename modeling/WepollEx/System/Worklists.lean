import WepollEx.Lifecycle.Validity
import WepollEx.System.Environment

/-!
# The worklists over whole runs

A registration ends up on both worklists when a oneshot delivery fires it while it still waits to
be rearmed.  In a run without such a delivery the diagnostic predicate of the port holds in every
state.
-/

namespace WepollEx

open Granted

/-! ## Registrations stay off two lists -/

section

variable {T : Tag → Prop} {m m' : Mem}

theorem Mem.Apart.memMove (apart : m.Apart) (separate : ¬T .firedWhileRearming)
    (h : MemMove T m m') : m'.Apart := by
  refine h.all_sock (P := fun s => ¬(s.needsRearm = true ∧ s.oneshotFired = true)) ?_ ?_ ?_ apart
  · intro s s' hcore
    have hneeds : s'.needsRearm = s.needsRearm := by
      have := congrArg EpSock.needsRearm hcore
      exact this
    have hfired : s'.oneshotFired = s.oneshotFired := by
      have := congrArg EpSock.oneshotFired hcore
      exact this
    rw [hneeds, hfired]
    exact id
  · intro t c d allowed move
    refine move.apart ?_
    rintro rfl
    exact separate allowed
  · intro p s n newborn hboth
    have hfired : s.oneshotFired = true := hboth.2
    simp [newborn.unfired] at hfired

theorem Mem.Apart.memMoves (apart : m.Apart) (separate : ¬T .firedWhileRearming)
    (h : MemMoves T m m') : m'.Apart := by
  induction h with
  | refl => exact apart
  | tail _ move ih => exact ih.memMove separate move

end

/-! ## Whole runs -/

/-- No step fires a oneshot registration that is on the rearm list. -/
def firesOffList (st : Sys) (a : Act) : Bool := !st.refires a

theorem ReachableWhen.apart {start st : Sys}
    (h : ReachableWhen (fun st a => firesOffList st a = true) start st) (h0 : Ordered start)
    (apart : start.mem.Apart) : st.mem.Apart := by
  refine h.invariant (P := fun st => st.mem.Apart) h0 apart ?_
  intro st st' a ordered hok hapart hstep
  refine hapart.memMoves ?_ (step_moves ordered hstep).1
  intro hfires
  have hrefires : st.refires a = true := hfires
  simp [firesOffList, hrefires] at hok

/-- What the diagnostic predicate means: each worklist is a list without repetition that links
exactly the registrations with its flag, as many as its counter says, and no registration is on
both lists or on one after its deletion. -/
structure Mem.WorklistsValid (m : Mem) : Prop where
  predicate : ∀ fuel, m.port.nextSerial ≤ fuel → epPortWorklistsValidLocked fuel m = true
  listing : ∀ w, m.Listing w
  apart : m.Apart
  dead : ∀ a s, m.socks a = some s → s.deletePending = true →
    s.needsRearm = false ∧ s.oneshotFired = false

theorem Sound.valid {m : Mem} (h : Sound m) (apart : m.Apart) : m.WorklistsValid :=
  ⟨fun _ enough => h.worklistsValid apart enough, h.listing, apart,
    fun a s hs => (h.life a s hs).dead_flags⟩

theorem apart_create (lifetime : LifetimeMode) (explicitRearm udpProbeEvent : Bool) :
    (Sys.create lifetime explicitRearm udpProbeEvent).mem.Apart := by
  intro a s hs
  cases hs

/-- The worklist invariant, in every run without a delivery that fires a oneshot registration on
the rearm list. -/
theorem worklists_valid (lifetime : LifetimeMode) (explicitRearm udpProbeEvent : Bool) (st : Sys)
    (h : ReachableWhen (fun st a => firesOffList st a = true)
      (.create lifetime explicitRearm udpProbeEvent) st) : st.mem.WorklistsValid := by
  have ordered := h.ordered (ordered_create lifetime explicitRearm udpProbeEvent)
  exact ordered.sound.valid (h.apart (ordered_create lifetime explicitRearm udpProbeEvent)
    (apart_create lifetime explicitRearm udpProbeEvent))

/-- A oneshot registration gets ready and its poll is dispatched. -/
def oneshotCompletion : List Act :=
  waitUntilBlocked 8 ++ [add (EPOLLIN ||| EPOLLONESHOT), receive] ++ takePacket

/-- After the completion the registration is on the oneshot list alone. -/
theorem worklists_valid_oneshotCompletion : ∃ st,
    (Sys.create .bestEffort false false).runWhen firesOffList oneshotCompletion = some st ∧
      st.mem.port.oneshotFiredCount = 1 ∧ st.mem.WorklistsValid := by
  have hcount : (((Sys.create .bestEffort false false).runWhen firesOffList
      oneshotCompletion).map fun st => st.mem.port.oneshotFiredCount) = some 1 := by
    decide +kernel
  obtain ⟨st, hrun, hone⟩ := Option.map_eq_some_iff.mp hcount
  exact ⟨st, hrun, hone, worklists_valid .bestEffort false false st (.of_run .refl hrun)⟩

/-- A oneshot registration gets ready, and its local shutdown loses the race for the cancellation
of the poll that has just completed. -/
def shutdownAfterCompletion : List Act :=
  waitUntilBlocked 8 ++ [add (EPOLLIN ||| EPOLLONESHOT), receive,
    .control (.shutdown 5 .send) control] ++ takePacket

/-- The registration is then on both lists, and the predicate rejects the port. -/
theorem worklists_valid_fails : ∃ st, Reachable (.create .bestEffort false false) st ∧
    epPortWorklistsValidLocked st.mem.port.nextSerial st.mem = false ∧
      ¬st.mem.WorklistsValid := by
  have hfalse : (((Sys.create .bestEffort false false).run shutdownAfterCompletion).map
      fun st => epPortWorklistsValidLocked st.mem.port.nextSerial st.mem) = some false := by
    decide +kernel
  obtain ⟨st, hrun, hinvalid⟩ := Option.map_eq_some_iff.mp hfalse
  refine ⟨st, Reachable.refl.of_run hrun, hinvalid, fun valid => ?_⟩
  have hvalid := valid.predicate _ (Nat.le_refl _)
  rw [hinvalid] at hvalid
  cases hvalid

end WepollEx
