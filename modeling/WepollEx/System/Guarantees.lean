import WepollEx.System.Accounting

/-!
# What callers can rely on

A ready or fired registration has nothing outstanding, and what is queued for it was asked for.  A
registration may leave the table while its poll is pending, its packet is queued or its ready node
waits for a drain: whatever becomes of these, no wait returns a record of it any more.
-/

namespace WepollEx

open Granted Mask

section

variable {lifetime : LifetimeMode} {explicitRearm udpProbeEvent : Bool} {st : Sys} {a : Addr}
  {s : EpSock} (h : Reachable (.create lifetime explicitRearm udpProbeEvent) st)
  (found : st.mem.socks a = some s)

include h found

theorem Reachable.life : Lifecycle (st.mem.cell a s) :=
  (h.ordered (ordered_create ..)).sound.life a s found

/-- Nothing is outstanding for a fired oneshot registration. -/
theorem fired_oneshot_quiet (fired : s.oneshotFired = true) :
    s.isOneshot = true ∧ s.pollStatus = .idle ∧ st.mem.port.refs a = 0 := by
  have hlife := h.life found
  have idle := hlife.fired_idle fired
  exact ⟨hlife.fired_oneshot fired, idle, hlife.unreferenced idle⟩

/-- Queued events were asked for, and their registration has nothing else outstanding. -/
theorem queued_events_wanted (queued : s.readyQueued = true) : s.pendingEvents ≠ 0 ∧
    Within s.pendingEvents (s.userEvents ||| EPOLLERR ||| EPOLLHUP) ∧
      st.mem.port.refs a = 0 := by
  have hlife := h.life found
  obtain ⟨nonzero, within⟩ := hlife.queued_events queued
  exact ⟨nonzero, within, hlife.unreferenced (hlife.ready_idle queued)⟩

end

/-- A oneshot registration whose poll has completed is ready and has fired. -/
theorem fired_run : ∃ st s, Reachable (.create .bestEffort false false) st ∧
    st.mem.socks 100 = some s ∧ s.oneshotFired = true ∧ s.readyQueued = true := by
  have hrun : ((Sys.create .bestEffort false false).run (waitUntilBlocked 8 ++
      [add (EPOLLIN ||| EPOLLONESHOT), receive] ++ takePacket)).map (fun st =>
        (st.mem.socks 100).map fun s => (s.oneshotFired, s.readyQueued)) =
      some (some (true, true)) := by decide +kernel
  obtain ⟨st, hst, hdata⟩ := Option.map_eq_some_iff.mp hrun
  obtain ⟨s, found, hs⟩ := Option.map_eq_some_iff.mp hdata
  exact ⟨st, s, Reachable.refl.of_run hst, found, Prod.mk.inj hs⟩

theorem fired_oneshot_quiet_run : ∃ (m : Mem) (s : EpSock), m.socks 100 = some s ∧
    s.oneshotFired = true ∧ m.port.refs 100 = 0 := by
  obtain ⟨st, s, h, found, fired, _⟩ := fired_run
  exact ⟨st.mem, s, found, fired, (fired_oneshot_quiet h found fired).2.2⟩

theorem queued_events_wanted_run : ∃ (m : Mem) (s : EpSock), m.socks 100 = some s ∧
    s.readyQueued = true ∧ s.pendingEvents ≠ 0 := by
  obtain ⟨st, s, h, found, _, queued⟩ := fired_run
  exact ⟨st.mem, s, found, queued, (queued_events_wanted h found queued).1⟩

/-! ## Registrations that have left the table -/

/-- The records among the events of a history. -/
def returnedOf (history : List HistoryEvent) : List EventRecord :=
  history.filterMap fun
    | .returned e => some e
    | _ => none

def Mem.returned (m : Mem) : List EventRecord := returnedOf m.port.history

/-- The table names the registration `r`, stored at `a`, under `fd`. -/
def Mem.Names (m : Mem) (fd : Socket) (a : Addr) (r : Nat) : Prop :=
  m.port.fdTable fd = some a ∧ m.serialAt a = some r

theorem returnedOf_silent (l : List HistoryEvent) {x : HistoryEvent} (hx : returnedOf [x] = []) :
    returnedOf (l ++ [x]) = returnedOf l :=
  List.filterMap_append.trans (by rw [← returnedOf, ← returnedOf, hx, List.append_nil])

section

variable {T : Tag → Prop} {t : Tag} {c d : Cell} {m m' : Mem}

/-- Only a delivery returns a record, and only one of a registration in the table. -/
theorem Move.returned (h : Move t c d) :
    returnedOf d.port.history = returnedOf c.port.history ∨
      (c.port.fdTable c.sock.fd = some c.addr ∧ ∃ e : EventRecord, e.serial = c.sock.serial ∧
        returnedOf d.port.history = returnedOf c.port.history ++ [e]) := by
  cases h with
  | rotate w => cases w <;> exact .inl rfl
  | deliver _ _ _ table => exact .inr ⟨table, _, rfl, List.filterMap_append⟩
  | modify => exact .inl (returnedOf_silent _ rfl)
  | modifyQueued => exact .inl (returnedOf_silent _ rfl)
  | rearm => exact .inl (returnedOf_silent _ rfl)
  | acknowledge => exact .inl (returnedOf_silent _ rfl)
  | _ => exact .inl rfl

/-- The records that a move adds belong to registrations in the table. -/
theorem MemMove.returned (h : MemMove T m m') : ∃ l, m'.returned = m.returned ++ l ∧
    ∀ e ∈ l, ∃ fd a, m.Names fd a e.serial := by
  have none (h : m'.returned = m.returned) : ∃ l, m'.returned = m.returned ++ l ∧
      ∀ e ∈ l, ∃ fd a, m.Names fd a e.serial := ⟨[], by simp [h], by simp⟩
  cases h with
  | @cell a s t d found allowed hm =>
    rcases hm.returned with h | ⟨table, e, he, h⟩
    · exact none h
    · refine ⟨[e], h, fun x hx => ⟨s.fd, a, table, ?_⟩⟩
      rw [List.mem_singleton.mp hx, he, Mem.serialAt, found]
      rfl
  | quiet _ hp => exact none (Port.core_congr hp fun x => returnedOf x.history)
  | port _ hm =>
    cases hm with
    | wakeFailed => exact none (returnedOf_silent _ rfl)
    | _ => exact none rfl
  | insert => exact none (returnedOf_silent _ rfl)

/-- The table gains names only with new registrations. -/
theorem MemMove.names (h : MemMove T m m') {fd : Socket} {a : Addr} {r : Nat}
    (hr : r < m.port.nextSerial) (names : m'.Names fd a r) : m.Names fd a r := by
  obtain ⟨table, serial⟩ := names
  obtain ⟨s', hs', rfl⟩ := Option.map_eq_some_iff.mp serial
  cases h with
  | @cell b s t d found allowed hm =>
    refine ⟨hm.table table, ?_⟩
    rcases Mem.found_put hs' with ⟨hb, rfl, _⟩ | ⟨_, hold⟩
    · rw [Mem.serialAt, hb, show d.addr = b from hm.addr, found, hm.serial]
      rfl
    · rw [Mem.serialAt, hold]
      rfl
  | quiet hs hp =>
    refine ⟨(Port.core_congr hp fun x => x.fdTable fd).symm.trans table, ?_⟩
    have hcore := congrArg (Option.map EpSock.serial) (hs a)
    rw [Option.map_map, Option.map_map] at hcore
    exact (Eq.symm hcore).trans serial
  | port _ hm => exact ⟨hm.frame.table _ _ table, serial⟩
  | @insert b s allowed storage absent newborn =>
    rcases Mem.found_put hs' with ⟨_, rfl, _⟩ | ⟨hne, hold⟩
    · exact absurd hr (Nat.lt_irrefl _)
    · refine ⟨?_, by rw [Mem.serialAt, hold]; rfl⟩
      have htable : Function.update m.port.fdTable s.fd (some b) fd = some a := table
      rw [Function.update_apply] at htable
      split at htable
      · exact absurd (Option.some.inj htable).symm hne
      · exact htable

theorem MemMove.nextSerial (h : MemMove T m m') : m.port.nextSerial ≤ m'.port.nextSerial := by
  cases h with
  | cell _ _ hm => exact hm.nextSerial.ge
  | quiet _ hp => exact (Port.core_congr hp fun x => x.nextSerial).ge
  | port _ hm => exact hm.frame.nextSerial.ge
  | insert => exact Nat.le_succ _

/-- The registration `r` exists or has existed, and the table does not name it. -/
def Mem.Gone (m : Mem) (r : Nat) : Prop := r < m.port.nextSerial ∧ ∀ fd a, ¬m.Names fd a r

/-- The records of the registration `r`. -/
def Mem.recordsOf (m : Mem) (r : Nat) : List EventRecord := m.returned.filter fun e => e.serial = r

theorem MemMove.gone (h : MemMove T m m') {r : Nat} (gone : m.Gone r) :
    m'.Gone r ∧ m'.recordsOf r = m.recordsOf r := by
  obtain ⟨hr, absent⟩ := gone
  refine ⟨⟨hr.trans_le h.nextSerial, fun fd a names => absent fd a (h.names hr names)⟩, ?_⟩
  obtain ⟨l, hl, hnamed⟩ := h.returned
  have hnil : l.filter (fun e => e.serial = r) = [] := by
    rw [List.filter_eq_nil_iff]
    intro e he hserial
    obtain ⟨fd, a, names⟩ := hnamed e he
    exact absent fd a (of_decide_eq_true hserial ▸ names)
  rw [Mem.recordsOf, hl, List.filter_append, hnil, List.append_nil, Mem.recordsOf]

theorem MemMoves.gone (h : MemMoves T m m') {r : Nat} (gone : m.Gone r) :
    m'.Gone r ∧ m'.recordsOf r = m.recordsOf r := by
  induction h with
  | refl => exact ⟨gone, rfl⟩
  | tail _ move ih =>
    obtain ⟨hgone, hrecords⟩ := move.gone ih.1
    exact ⟨hgone, hrecords.trans ih.2⟩

end

end WepollEx
