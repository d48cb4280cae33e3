import WepollEx.Lifecycle.Arm

/-!
# What a submission does to the worklists

A submission changes the lists only by moving its own registration, and it reads the registration
again only while that is still there.  A registration that was and stays on a list keeps its place,
unless the packet of an immediate success cannot be posted: then it has been taken off the rearm
list and put back at the end.
-/

namespace WepollEx

open Intrusive

/-! ## One registration on one list -/

namespace Flags

/-- The worklist holds `xs`, as the flag of the registration at `a` says. -/
structure Queue (f : Flags) (w : Worklist) (a : Addr) (xs : List Addr) : Prop where
  repr : (f.list w).Repr xs
  flag : f.flag w = true ↔ a ∈ xs
  count : f.count w = xs.length

end Flags

section

variable {a : Addr} {f g : Flags} {w : Worklist} {xs ys : List Addr}

/-- Where the registration may be after its flag has been changed. -/
def Replaced (a : Addr) (xs ys : List Addr) : Prop :=
  ys = xs ∨ ys = xs.erase a ∨ ys = xs.erase a ++ [a]

theorem toggle_queue {list : DList Addr} {n : Nat} {old : Bool} (new : Bool) (hlist : list.Repr ys)
    (hold : old = true ↔ a ∈ ys) (hn : n = ys.length) (hys : Replaced a xs ys)
    (nodup : xs.Nodup) :
    (toggle list n a old new).asserted = list.asserted ∧
      ∃ zs, (toggle list n a old new).Repr zs ∧ (new = true ↔ a ∈ zs) ∧
        toggleCount n old new = zs.length ∧ Replaced a xs zs := by
  have hgone : a ∉ xs.erase a := nodup.not_mem_erase
  have herase : ys.erase a = xs.erase a := by
    rcases hys with rfl | rfl | rfl
    · rfl
    · exact List.erase_of_not_mem hgone
    · rw [List.erase_append_right _ hgone, List.erase_cons_head, List.append_nil]
  unfold toggle toggleCount
  by_cases heq : old = new
  · subst heq
    rw [if_pos rfl, if_pos rfl]
    exact ⟨rfl, ys, hlist, hold, hn, hys⟩
  rw [if_neg heq, if_neg heq]
  cases new with
  | true =>
    have hnot : a ∉ ys := fun ha => heq (hold.mpr ha)
    refine ⟨hlist.append_asserted hnot, ys ++ [a], hlist.append hnot, by simp, by simp [hn], ?_⟩
    rw [← List.erase_of_not_mem hnot, herase]
    exact .inr (.inr rfl)
  | false =>
    have hmem : a ∈ ys := hold.mp (by simpa using heq)
    have hpos : 0 < n := hn ▸ List.length_pos_of_mem hmem
    refine ⟨?_, ys.erase a, (hlist.check _).remove hmem, ?_, ?_, .inr (.inl herase)⟩
    · rw [if_neg (by decide), (hlist.check _).remove_asserted hmem, DList.check_asserted]
      simp [hpos]
    · simp [hlist.nodup.not_mem_erase]
    · rw [if_neg (by decide), List.length_erase_of_mem hmem, hn]

/-- Any sequence of changes passes the assertions of the list operations. -/
theorem Toggles.queue (h : Toggles a f g) (hf : f.Queue w a xs) :
    (g.list w).asserted = (f.list w).asserted ∧ ∃ ys, g.Queue w a ys ∧ Replaced a xs ys := by
  induction h with
  | refl => exact ⟨rfl, xs, hf, .inl rfl⟩
  | needs b _ ih =>
    obtain ⟨hasserted, ys, hq, hys⟩ := ih
    cases w with
    | oneshot => exact ⟨hasserted, ys, ⟨hq.repr, hq.flag, hq.count⟩, hys⟩
    | rearm =>
      obtain ⟨hstep, zs, hrepr, hflag, hcount, hzs⟩ :=
        toggle_queue b hq.repr hq.flag hq.count hys hf.repr.nodup
      exact ⟨hstep.trans hasserted, zs, ⟨hrepr, hflag, hcount⟩, hzs⟩
  | fire b _ ih =>
    obtain ⟨hasserted, ys, hq, hys⟩ := ih
    cases w with
    | rearm => exact ⟨hasserted, ys, ⟨hq.repr, hq.flag, hq.count⟩, hys⟩
    | oneshot =>
      obtain ⟨hstep, zs, hrepr, hflag, hcount, hzs⟩ :=
        toggle_queue b hq.repr hq.flag hq.count hys hf.repr.nodup
      exact ⟨hstep.trans hasserted, zs, ⟨hrepr, hflag, hcount⟩, hzs⟩

end

/-! ## One submission -/

/-- The packet of an immediate success cannot be posted. -/
def SubmitAnswers.LosesPost (answers : SubmitAnswers) (p : Port) : Prop :=
  p.closing = false ∧ (∃ info, answers.afd = .success info) ∧
    (p.iocpPostHandle = false ∨ answers.post ≠ none)

/-- `d` is where `c` is on the worklists. -/
structure Placed (c d : Cell) : Prop where
  addr : d.addr = c.addr
  flags : d.flags = c.flags
  freed : d.freed = c.freed

/-- And the port posts as before. -/
structure Resembles (c d : Cell) : Prop extends Placed c d where
  closing : d.port.closing = c.port.closing
  handle : d.port.iocpPostHandle = c.port.iocpPostHandle

/-- What a submission has done to the registration's places on the worklists. -/
structure Visited (answers : SubmitAnswers) (c : Cell) (r : SubmitResult) (d : Cell) : Prop where
  addr : d.addr = c.addr
  toggles : Toggles c.addr c.flags d.flags
  kept : ∀ w, c.flags.flag w = true → d.flags.flag w = true →
    d.flags.list w = c.flags.list w ∨ (w = .rearm ∧ answers.LosesPost c.port)
  retired : ∀ e, r = .retired e → d.flags.rearm = false ∧ d.flags.fired = false
  live : (∀ e, r ≠ .retired e) → d.freed = false

section

variable {answers : SubmitAnswers} {b c d : Cell} {r : SubmitResult}

theorem Placed.trans (h : Placed b c) (h' : Placed c d) : Placed b d :=
  ⟨h'.addr.trans h.addr, h'.flags.trans h.flags, h'.freed.trans h.freed⟩

theorem Resembles.of_core (h : d.core = c.core) : Resembles c d :=
  ⟨⟨core_congr h Cell.addr, core_congr h Cell.flags, core_congr h Cell.freed⟩,
    core_congr h fun x => x.port.closing, core_congr h fun x => x.port.iocpPostHandle⟩

theorem Resembles.trans (h : Resembles b c) (h' : Resembles c d) : Resembles b d :=
  ⟨h.toPlaced.trans h'.toPlaced, h'.closing.trans h.closing, h'.handle.trans h.handle⟩

theorem Visited.after (h : Visited answers c r d) (hc : Resembles b c) : Visited answers b r d where
  addr := h.addr.trans hc.addr
  toggles := by
    have htoggles := h.toggles
    rwa [hc.addr, hc.flags] at htoggles
  kept := by
    intro w hold hnew
    rw [← hc.flags] at hold ⊢
    refine (h.kept w hold hnew).imp_right fun ⟨hw, hclosing, hafd, hpost⟩ => ⟨hw, ?_⟩
    exact ⟨hc.closing ▸ hclosing, hafd, hc.handle ▸ hpost⟩
  retired := h.retired
  live := h.live

theorem Visited.same (h : Placed c d) (live : c.freed = false) (stays : ∀ e, r ≠ .retired e) :
    Visited answers c r d where
  addr := h.addr
  toggles := h.flags ▸ .refl
  kept := fun w _ _ => .inl (by rw [h.flags])
  retired := fun e hr => absurd hr (stays e)
  live := fun _ => h.freed.trans live

/-- The registration leaves both lists. -/
theorem Visited.dropped (live : r = .ok ∨ (∃ e, r = .failed e) → d.freed = false)
    (haddr : d.addr = c.addr) (htoggles : Toggles c.addr c.flags d.flags)
    (hrearm : d.flags.rearm = false) (hfired : d.flags.fired = false) :
    Visited answers c r d where
  addr := haddr
  toggles := htoggles
  kept := by
    intro w _ hnew
    cases w with
    | rearm => exact absurd hnew (by simp [Flags.flag, hrearm])
    | oneshot => exact absurd hnew (by simp [Flags.flag, hfired])
  retired := fun _ _ => ⟨hrearm, hfired⟩
  live := by
    intro hr
    cases r with
    | ok => exact live (.inl rfl)
    | failed e => exact live (.inr ⟨e, rfl⟩)
    | retired e => exact absurd rfl (hr e)

theorem setNeedsRearm_addr (c : Cell) (b : Bool) : (epSockSetNeedsRearmLocked c b).addr = c.addr := by
  rw [setNeedsRearm_eq]
  rfl

theorem setNeedsRearm_flags (c : Cell) (b : Bool) :
    (epSockSetNeedsRearmLocked c b).flags = c.flags.needs c.addr b := by
  rw [setNeedsRearm_eq, Cell.flags_setFlags]

theorem setOneshotFired_flags (c : Cell) (b : Bool) :
    (epSockSetOneshotFiredLocked c b).flags = c.flags.fire c.addr b := by
  rw [setOneshotFired_eq, Cell.flags_setFlags]

/-- The registration leaves the rearm list. -/
theorem Visited.armed {x : Cell} (h : Placed c d) (hx : Placed (epSockSetNeedsRearmLocked d false) x)
    (live : c.freed = false) (stays : ∀ e, r ≠ .retired e) : Visited answers c r x := by
  have hflags : x.flags = c.flags.needs c.addr false := by
    rw [hx.flags, setNeedsRearm_flags, h.flags, h.addr]
  constructor
  · exact hx.addr.trans ((setNeedsRearm_addr d false).trans h.addr)
  · rw [hflags]
    exact .needs false .refl
  · intro w _ hnew
    rw [hflags] at hnew ⊢
    cases w with
    | rearm => cases hnew
    | oneshot => exact .inl rfl
  · exact fun e hr => absurd hr (stays e)
  · exact fun _ => hx.freed.trans ((setNeedsRearm_freed d false).trans (h.freed.trans live))

/-- Both flags are cleared. -/
theorem clearFlags_eq (c : Cell) :
    epSockSetOneshotFiredLocked (epSockSetNeedsRearmLocked c false) false =
      c.setFlags ((c.flags.needs c.addr false).fire c.addr false) := by
  rw [setNeedsRearm_eq, setOneshotFired_eq, Cell.flags_setFlags, Cell.addr_setFlags,
    Cell.setFlags_setFlags]

theorem free_flags (c : Cell) : (epSockFreeLocked c).addr = c.addr ∧
    (epSockFreeLocked c).flags = (c.flags.needs c.addr false).fire c.addr false := by
  simp only [epSockFreeLocked, clearFlags_eq]
  exact ⟨rfl, rfl⟩

theorem dropClosed_flags (c : Cell) : (epSockDropClosedLocked c).addr = c.addr ∧
    Toggles c.addr c.flags (epSockDropClosedLocked c).flags ∧
    (epSockDropClosedLocked c).flags.rearm = false ∧
    (epSockDropClosedLocked c).flags.fired = false ∧
    (c.sock.pollStatus ≠ .idle → (epSockDropClosedLocked c).freed = c.freed) := by
  obtain ⟨b, hb, haddr, hflags, hpoll, hfreed⟩ : ∃ b, epSockDropClosedLocked c = freeIfIdle b ∧
      b.addr = c.addr ∧ b.flags = (c.flags.needs c.addr false).fire c.addr false ∧
      b.sock.pollStatus = c.sock.pollStatus ∧ b.freed = c.freed := by
    simp only [epSockDropClosedLocked, forget_eq, clearFlags_eq]
    exact ⟨_, rfl, rfl, rfl, rfl, rfl⟩
  have htoggles : Toggles c.addr c.flags b.flags := hflags ▸ .fire false (.needs false .refl)
  rw [hb, freeIfIdle]
  split
  · rename_i hidle
    obtain ⟨hfa, hff⟩ := free_flags b
    refine ⟨hfa.trans haddr, ?_, by rw [hff]; rfl, by rw [hff]; rfl, ?_⟩
    · rw [hff, haddr]
      exact .fire false (.needs false htoggles)
    · exact fun hbusy => absurd (hpoll.symm.trans hidle) hbusy
  · exact ⟨haddr, htoggles, by rw [hflags]; rfl, by rw [hflags]; rfl, fun _ => hfreed⟩

theorem Visited.drop (h : Placed c d) (e : Errno) :
    Visited answers c (.retired e) (epSockDropClosedLocked d) := by
  obtain ⟨haddr, htoggles, hrearm, hfired, -⟩ := dropClosed_flags d
  rw [h.addr, h.flags] at htoggles
  exact .dropped (by rintro (h | ⟨e, h⟩) <;> cases h) (haddr.trans h.addr) htoggles hrearm hfired

/-! ### Waitables and pipes -/

end

/-! ## One visit -/

def Worklist.other : Worklist → Worklist
  | .rearm => .oneshot
  | .oneshot => .rearm

section

variable {answers : SubmitAnswers} {c d : Cell} {r : SubmitResult} {w : Worklist} {a : Addr}
  {xs zs : List Addr}

/-- Where the submission leaves the registration it was made for at the head of a list. -/
theorem Visited.head (h : Visited answers c r d) (hq : c.flags.Queue w c.addr (c.addr :: zs)) :
    (d.flags.list w).asserted = (c.flags.list w).asserted ∧ ((d.flags.flag w = false ∧ (d.flags.list w).Repr zs) ∨
      (d.flags.flag w = true ∧ ((d.flags.list w).Repr (c.addr :: zs) ∨
        ((d.flags.list w).Repr (zs ++ [c.addr]) ∧ w = .rearm ∧ answers.LosesPost c.port)))) := by
  obtain ⟨hasserted, ys, hd, hys⟩ := h.toggles.queue hq
  refine ⟨hasserted, ?_⟩
  have hgone : c.addr ∉ zs := (List.nodup_cons.mp hq.repr.nodup).1
  cases hflag : d.flags.flag w with
  | false =>
    refine .inl ⟨rfl, ?_⟩
    have hnot : c.addr ∉ ys := fun ha => by simp [hd.flag.mpr ha] at hflag
    rcases hys with rfl | rfl | rfl
    · simp at hnot
    · rw [List.erase_cons_head] at hd
      exact hd.repr
    · simp at hnot
  | true =>
    refine .inr ⟨rfl, ?_⟩
    have hold : c.flags.flag w = true := hq.flag.mpr List.mem_cons_self
    rcases h.kept w hold hflag with hlist | hlost
    · rw [hlist]
      exact .inl hq.repr
    · have hmem : c.addr ∈ ys := hd.flag.mp hflag
      rcases hys with rfl | rfl | rfl
      · exact .inl hd.repr
      · rw [List.erase_cons_head] at hmem
        exact absurd hmem hgone
      · rw [List.erase_cons_head] at hd
        exact .inr ⟨hd.repr, hlost⟩

/-- And of a list that it was not on. -/
theorem Visited.elsewhere (h : Visited answers c r d) (hq : c.flags.Queue w c.addr xs)
    (absent : c.addr ∉ xs) :
    (d.flags.list w).asserted = (c.flags.list w).asserted ∧
      ∃ added, (d.flags.list w).Repr (xs ++ added) ∧ (added = [] ∨ added = [c.addr]) := by
  obtain ⟨hasserted, ys, hd, hys⟩ := h.toggles.queue hq
  refine ⟨hasserted, ?_⟩
  rw [Replaced, List.erase_of_not_mem absent] at hys
  rcases hys with rfl | rfl | rfl
  · exact ⟨[], by rw [List.append_nil]; exact hd.repr, .inl rfl⟩
  · exact ⟨[], by rw [List.append_nil]; exact hd.repr, .inl rfl⟩
  · exact ⟨[c.addr], hd.repr, .inr rfl⟩

end

end WepollEx
