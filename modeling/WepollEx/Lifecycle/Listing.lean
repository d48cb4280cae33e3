import WepollEx.Lifecycle.Frame

/-!
# Worklists and flags

Both worklists of a port are treated alike: a worklist is in order when it links exactly the
registrations whose flag is set and its counter is their number.
-/

namespace WepollEx

open Intrusive

namespace Flags

def flag (f : Flags) : Worklist → Bool
  | .rearm => f.rearm
  | .oneshot => f.fired

def list (f : Flags) : Worklist → DList Addr
  | .rearm => f.rearmList
  | .oneshot => f.oneshotList

def count (f : Flags) : Worklist → Nat
  | .rearm => f.rearmCount
  | .oneshot => f.oneshotCount

/-- The worklist of a registration at `a`, given which other registrations are on it. -/
def Listing (f : Flags) (w : Worklist) (a : Addr) (others : Addr → Prop) : Prop :=
  (f.list w).Lists (f.count w) fun b => if b = a then f.flag w = true else others b

end Flags

section

variable {a : Addr} {f g : Flags} {w : Worklist} {others : Addr → Prop}

/-- A flag and its list change together. -/
theorem lists_toggle {list : DList Addr} {n : Nat} {old : Bool} (new : Bool)
    (h : list.Lists n fun b => if b = a then old = true else others b) :
    (toggle list n a old new).Lists (toggleCount n old new)
      fun b => if b = a then new = true else others b := by
  unfold toggle toggleCount
  by_cases heq : old = new
  · subst heq
    rw [if_pos rfl, if_pos rfl]
    exact h
  · rw [if_neg heq, if_neg heq]
    cases new with
    | true =>
      have hold : old = false := by simpa using heq
      refine (h.append (a := a) (by simp [hold])).congr fun b => ?_
      by_cases hb : b = a <;> simp [hb]
    | false =>
      have hold : old = true := by simpa using heq
      refine ((h.check _).remove (a := a) (by simp [hold])).congr fun b => ?_
      by_cases hb : b = a <;> simp [hb]

theorem Toggles.listing (h : Toggles a f g) (hf : f.Listing w a others) :
    g.Listing w a others := by
  induction h with
  | refl => exact hf
  | needs b _ ih =>
    cases w with
    | rearm => exact lists_toggle b ih
    | oneshot => exact ih
  | fire b _ ih =>
    cases w with
    | rearm => exact ih
    | oneshot => exact lists_toggle b ih

/-- Whatever was done to the flags of one registration, it is at an end of the lists it is on if
it was before. -/
theorem Toggles.ends (h : Toggles a f g)
    (hf : f.flag w = true → (f.list w).head = some a ∨ (f.list w).tail = some a) :
    g.flag w = true → (g.list w).head = some a ∨ (g.list w).tail = some a := by
  have appended : ∀ {list : DList Addr} {n : Nat} {old new : Bool},
      (old = true → list.head = some a ∨ list.tail = some a) → new = true →
        (toggle list n a old new).head = some a ∨ (toggle list n a old new).tail = some a := by
    intro list n old new hold hnew
    subst hnew
    cases old with
    | true => exact hold rfl
    | false => exact .inr rfl
  induction h with
  | refl => exact hf
  | needs b _ ih =>
    cases w with
    | rearm => exact appended ih
    | oneshot => exact ih
  | fire b _ ih =>
    cases w with
    | rearm => exact ih
    | oneshot => exact appended ih

end

/-! ## The worklists of a port -/

def Port.workCount (p : Port) : Worklist → Nat
  | .rearm => p.needsRearmCount
  | .oneshot => p.oneshotFiredCount

/-- The registration at `a` has the flag of the worklist. -/
def Mem.flagged (m : Mem) (w : Worklist) (a : Addr) : Prop :=
  ∃ s, m.socks a = some s ∧ s.onWorklist w = true

/-- The worklist links exactly the registrations with its flag, and they are counted. -/
def Mem.Listing (m : Mem) (w : Worklist) : Prop :=
  (m.port.worklist w).Lists (m.port.workCount w) (m.flagged w)

theorem Cell.listing_iff {m : Mem} {a : Addr} {s : EpSock} (w : Worklist)
    (found : m.socks a = some s) :
    m.Listing w ↔ (m.cell a s).flags.Listing w a (m.flagged w) := by
  have hm : ∀ b, m.flagged w b ↔ if b = a then s.onWorklist w = true else m.flagged w b := by
    intro b
    by_cases hb : b = a
    · subst hb
      simp [Mem.flagged, found]
    · simp [hb]
  cases w with
  | rearm => exact ⟨fun h => h.congr hm, fun h => h.congr fun b => (hm b).symm⟩
  | oneshot => exact ⟨fun h => h.congr hm, fun h => h.congr fun b => (hm b).symm⟩

/-- The worklists after a registration was written back. -/
theorem Mem.listing_put {m : Mem} {d : Cell} {w : Worklist}
    (freed : d.freed = true → d.sock.onWorklist w = false)
    (h : d.flags.Listing w d.addr (m.flagged w)) : (m.put d).Listing w := by
  have hm : ∀ b, (if b = d.addr then d.sock.onWorklist w = true else m.flagged w b) ↔
      (m.put d).flagged w b := by
    intro b
    by_cases hb : b = d.addr
    · subst hb
      cases hf : d.freed with
      | true => simp [Mem.flagged, Mem.put, hf, freed hf]
      | false => simp [Mem.flagged, Mem.put, hf]
    · simp [Mem.flagged, Mem.put, hb]
  cases w with
  | rearm => exact h.congr hm
  | oneshot => exact h.congr hm

/-- A move of one registration keeps both worklists in order. -/
theorem Move.listing {t : Tag} {m : Mem} {a : Addr} {s : EpSock} {d : Cell} (w : Worklist)
    (found : m.socks a = some s) (h : Move t (m.cell a s) d) (listed : m.Listing w) :
    (m.put d).Listing w := by
  have haddr : d.addr = a := h.addr
  have hfreed : d.freed = true → d.sock.onWorklist w = false := by
    intro hf
    rcases h.release rfl with ⟨hlive, _⟩ | ⟨_, released⟩
    · simp [hlive] at hf
    · rw [released.sock]
      cases w with
      | rearm => exact released.unlisted
      | oneshot => exact released.unfired
  have hcell := (Cell.listing_iff w found).mp listed
  refine Mem.listing_put hfreed ?_
  rw [haddr]
  rcases h.flags with toggles | ⟨hr, ho, v, _, ends, hport⟩
  · exact toggles.listing hcell
  · -- a rotation changes no flag, and only the order of the other nodes of its list
    have hflags : d.flags.Listing w a (m.flagged w) ↔
        ((m.port.setWorklist v ((m.port.worklist v).rotate a)).worklist w).Lists
          (m.port.workCount w) fun b => if b = a then s.onWorklist w = true else m.flagged w b := by
      unfold Flags.Listing
      cases w <;> cases v <;> simp_all [Cell.flags, Flags.list, Flags.count, Flags.flag,
        Port.setWorklist, Port.worklist, Port.workCount, EpSock.onWorklist, Mem.cell]
    rw [hflags]
    cases w <;> cases v <;> first | exact hcell | exact hcell.rotate ends

end WepollEx
