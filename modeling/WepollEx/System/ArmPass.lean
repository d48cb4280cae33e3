import WepollEx.Lifecycle.Visit
import WepollEx.System.Worklists

/-!
# The arm pass

`ep_port_arm_pending_locked` visits each registration that was on a worklist when it began exactly
once, by taking the head as often as the list was long.  A visit takes the head off the list or
moves it to the end, so what is left of the entries at the beginning is always in front.
-/

namespace WepollEx

open Granted Intrusive

/-- The port can post, or does not need to. -/
def Port.Posting (p : Port) : Prop := p.closing = true ∨ p.iocpPostHandle = true

/-- The worklist of the port is `xs`. -/
structure Mem.Holds (m : Mem) (w : Worklist) (xs : List Addr) : Prop where
  repr : (m.port.worklist w).Repr xs
  mem : ∀ a, a ∈ xs ↔ m.flagged w a
  count : m.port.workCount w = xs.length

section

variable {m : Mem} {w : Worklist} {a : Addr} {s : EpSock} {zs os : List Addr}

theorem Sound.holds {xs : List Addr} (h : Sound m) (repr : (m.port.worklist w).Repr xs) :
    m.Holds w xs := by
  obtain ⟨ys, hys, hmem, hcount⟩ := h.listing w
  obtain rfl := hys.unique repr
  exact ⟨hys, hmem, hcount⟩

theorem Mem.Holds.found (h : m.Holds w (a :: zs)) :
    ∃ s, m.socks a = some s ∧ s.onWorklist w = true :=
  (h.mem a).mp List.mem_cons_self

/-- The flags of a registration, seen in the list. -/
theorem Mem.Holds.queue {xs : List Addr} (h : m.Holds w xs) (found : m.socks a = some s) :
    (m.cell a s).flags.Queue w a xs := by
  refine ⟨?_, ?_, ?_⟩
  · cases w <;> exact h.repr
  · rw [h.mem a]
    constructor
    · intro hflag
      exact ⟨s, found, by cases w <;> exact hflag⟩
    · rintro ⟨s', hs', hflag⟩
      obtain rfl := Option.some.inj (found.symm.trans hs')
      cases w <;> exact hflag
  · cases w <;> exact h.count

/-- A registration is not on both lists. -/
theorem Mem.Apart.absent (apart : m.Apart) (hw : m.Holds w (a :: zs)) (ho : m.Holds w.other os) :
    a ∉ os := by
  intro ha
  obtain ⟨s, hs, hflag⟩ := hw.found
  obtain ⟨s', hs', hflag'⟩ := (ho.mem a).mp ha
  obtain rfl := Option.some.inj (hs.symm.trans hs')
  cases w
  · exact apart a s hs ⟨hflag, hflag'⟩
  · exact apart a s hs ⟨hflag', hflag⟩

end

/-! ## One loop -/

section

variable {answers : Nat → SubmitAnswers}

/-- No visit loses the packet of an immediate success, or there is only one. -/
def Mem.Keeps (m : Mem) (answers : Nat → SubmitAnswers) (n : Nat) : Prop :=
  n ≤ 1 ∨ (m.port.Posting ∧
    ∀ i info, (answers i).afd = .success info → (answers i).post = none)

end

/-! ## The pass -/

end WepollEx
