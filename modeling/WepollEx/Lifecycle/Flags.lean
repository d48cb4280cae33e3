import WepollEx.Port.Drain

/-!
# The worklist flags of one registration

A registration's two flags and the two lists behind them, taken out of the cell.  Every function
of the port changes them only through `ep_sock_set_needs_rearm_locked` and
`ep_sock_set_oneshot_fired_locked`, which are `Flags.needs` and `Flags.fire` here; `Toggles` is
any sequence of the two.
-/

namespace WepollEx

open Intrusive

/-- The list of `n` registrations when the flag of one changes from `old` to `new`. -/
def toggle (list : DList Addr) (n : Nat) (a : Addr) (old new : Bool) : DList Addr :=
  if old = new then list
  else if new then list.append a
  else (list.check (0 < n)).remove a

def toggleCount (n : Nat) (old new : Bool) : Nat :=
  if old = new then n else if new then n + 1 else n - 1

@[simp] theorem toggle_self (list : DList Addr) (n : Nat) (a : Addr) (b : Bool) :
    toggle list n a b b = list := if_pos rfl

@[simp] theorem toggleCount_self (n : Nat) (b : Bool) : toggleCount n b b = n := if_pos rfl

/-- The flags of one registration with the lists they stand for. -/
structure Flags where
  rearm : Bool
  fired : Bool
  rearmList : DList Addr
  oneshotList : DList Addr
  rearmCount : Nat
  oneshotCount : Nat

namespace Flags

def needs (f : Flags) (a : Addr) (b : Bool) : Flags :=
  { f with
    rearm := b
    rearmList := toggle f.rearmList f.rearmCount a f.rearm b
    rearmCount := toggleCount f.rearmCount f.rearm b }

def fire (f : Flags) (a : Addr) (b : Bool) : Flags :=
  { f with
    fired := b
    oneshotList := toggle f.oneshotList f.oneshotCount a f.fired b
    oneshotCount := toggleCount f.oneshotCount f.fired b }

end Flags

/-- Any sequence of changes to the flags of the registration at `a`. -/
inductive Toggles (a : Addr) : Flags → Flags → Prop
  | refl {f : Flags} : Toggles a f f
  | needs {f g : Flags} (b : Bool) : Toggles a f g → Toggles a f (g.needs a b)
  | fire {f g : Flags} (b : Bool) : Toggles a f g → Toggles a f (g.fire a b)

theorem Toggles.trans {a : Addr} {f g h : Flags} (hfg : Toggles a f g) (hgh : Toggles a g h) :
    Toggles a f h := by
  induction hgh with
  | refl => exact hfg
  | needs b _ ih => exact ih.needs b
  | fire b _ ih => exact ih.fire b

namespace Cell

def flags (c : Cell) : Flags where
  rearm := c.sock.needsRearm
  fired := c.sock.oneshotFired
  rearmList := c.port.rearmList
  oneshotList := c.port.oneshotList
  rearmCount := c.port.needsRearmCount
  oneshotCount := c.port.oneshotFiredCount

def setFlags (c : Cell) (f : Flags) : Cell :=
  { c with
    sock := { c.sock with needsRearm := f.rearm, oneshotFired := f.fired }
    port := { c.port with
      rearmList := f.rearmList
      oneshotList := f.oneshotList
      needsRearmCount := f.rearmCount
      oneshotFiredCount := f.oneshotCount } }

theorem setFlags_setFlags (c : Cell) (f g : Flags) :
    (c.setFlags f).setFlags g = c.setFlags g := rfl

theorem flags_setFlags (c : Cell) (f : Flags) : (c.setFlags f).flags = f := rfl

theorem addr_setFlags (c : Cell) (f : Flags) : (c.setFlags f).addr = c.addr := rfl

end Cell

theorem setNeedsRearm_eq (c : Cell) (b : Bool) :
    epSockSetNeedsRearmLocked c b = c.setFlags (c.flags.needs c.addr b) := by
  unfold epSockSetNeedsRearmLocked Cell.setFlags Flags.needs toggle toggleCount
  by_cases h : c.sock.needsRearm = b
  · subst h
    simp [Cell.flags]
  · cases b <;> simp [Cell.flags, h]

theorem setOneshotFired_eq (c : Cell) (b : Bool) :
    epSockSetOneshotFiredLocked c b = c.setFlags (c.flags.fire c.addr b) := by
  unfold epSockSetOneshotFiredLocked Cell.setFlags Flags.fire toggle toggleCount
  by_cases h : c.sock.oneshotFired = b
  · subst h
    simp [Cell.flags]
  · cases b <;> simp [Cell.flags, h]

end WepollEx
