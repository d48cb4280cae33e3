import Mathlib.Algebra.Order.BigOperators.Group.List
import Mathlib.Algebra.Order.Group.Nat
import WepollEx.Lifecycle.Listing

/-!
# What holds of a port with all its registrations

`Sound` says that every registration is in order, that nothing outside the port refers to released
storage, that the table names live registrations, that both worklists agree with the flags and
that the list of all registrations and the count of pending polls agree with the storage.  Every
move of the port keeps it.
-/

namespace WepollEx

open Intrusive

/-- The number of pending polls of the registration at `a`. -/
def Mem.polls (m : Mem) (a : Addr) : Nat :=
  match m.socks a with
  | none => 0
  | some s => s.polls

/-- `xs` is the list of all registrations. -/
structure Registry (m : Mem) (xs : List Addr) : Prop where
  repr : m.port.sockList.Repr xs
  mem : ∀ a, a ∈ xs ↔ m.socks a ≠ none
  polls : m.port.pendingPollCount = (xs.map m.polls).sum
  bound : xs.length ≤ m.port.nextSerial

structure Sound (m : Mem) : Prop where
  life : ∀ a s, m.socks a = some s → Lifecycle (m.cell a s)
  dangling : ∀ a, m.socks a = none → m.port.refs a = 0
  table : ∀ fd a, m.port.fdTable fd = some a → ∃ s, m.socks a = some s ∧ s.fd = fd
  listing : ∀ w, m.Listing w
  registry : ∃ xs, Registry m xs
  accounted : m.port.accountingViolated = false

theorem Mem.polls_of_found {m : Mem} {a : Addr} {s : EpSock} (found : m.socks a = some s) :
    m.polls a = s.polls := by
  rw [Mem.polls, found]

/-- A registration with a pending poll is counted. -/
theorem Registry.counted {m : Mem} {xs : List Addr} (h : Registry m xs) {a : Addr} {s : EpSock}
    (found : m.socks a = some s) (busy : s.pollStatus ≠ .idle) : 0 < m.port.pendingPollCount := by
  have ha : a ∈ xs := (h.mem a).mpr (by simp [found])
  have hle := List.le_sum_of_mem (List.mem_map_of_mem (f := m.polls) ha)
  rw [← h.polls, Mem.polls_of_found found] at hle
  have hone : s.polls = 1 := by simp [EpSock.polls, busy]
  omega

/-! ## Moves of one registration -/

section

variable {t : Tag} {m : Mem} {a : Addr} {s : EpSock} {d : Cell} {xs : List Addr}

/-- The other registrations' polls are not affected. -/
theorem Registry.sum_erase (h : Registry m xs) (haddr : d.addr = a) :
    ((xs.erase a).map (m.put d).polls).sum = ((xs.erase a).map m.polls).sum := by
  congr 1
  refine List.map_congr_left fun b hb => ?_
  have hne : b ≠ a := ((h.repr.nodup.mem_erase_iff).mp hb).1
  rw [Mem.polls, Mem.polls, Mem.socks_put_of_ne (haddr ▸ hne)]

theorem Registry.move (h : Registry m xs) (found : m.socks a = some s)
    (hm : Move t (m.cell a s) d) : ∃ ys, Registry (m.put d) ys := by
  have haddr : d.addr = a := hm.addr
  have ha : a ∈ xs := (h.mem a).mpr (by simp [found])
  have hserial : d.port.nextSerial = m.port.nextSerial := hm.nextSerial
  have hpolls : d.port.pendingPollCount + s.polls = m.port.pendingPollCount + d.sock.polls :=
    hm.polls fun busy => h.counted found busy
  have hsum := List.sum_map_erase m.polls ha
  rw [Mem.polls_of_found found, ← h.polls] at hsum
  have hrest := h.sum_erase haddr
  have hself := Mem.socks_put_self (m := m) (d := d)
  rcases hm.release rfl with ⟨live, hlist, _⟩ | ⟨freed, released⟩
  · rw [live, haddr] at hself
    refine ⟨xs, ?_, fun b => ?_, ?_, ?_⟩
    · show d.port.sockList.Repr xs
      rw [hlist]
      exact h.repr
    · by_cases hb : b = a
      · subst hb
        simp [hself, ha]
      · rw [Mem.socks_put_of_ne (haddr ▸ hb)]
        exact h.mem b
    · have hsum' := List.sum_map_erase (m.put d).polls ha
      rw [Mem.polls_of_found hself, hrest] at hsum'
      show d.port.pendingPollCount = _
      omega
    · show xs.length ≤ d.port.nextSerial
      rw [hserial]
      exact h.bound
  · rw [freed, haddr] at hself
    refine ⟨xs.erase a, ?_, fun b => ?_, ?_, ?_⟩
    · show d.port.sockList.Repr _
      rw [released.port]
      exact h.repr.remove ha
    · rw [h.repr.nodup.mem_erase_iff]
      by_cases hb : b = a
      · subst hb
        simp [hself]
      · rw [Mem.socks_put_of_ne (haddr ▸ hb), ← h.mem b]
        simp [hb]
    · have hidle : s.polls = 0 := by simp [EpSock.polls, show s.pollStatus = .idle from released.idle]
      rw [hrest]
      show d.port.pendingPollCount = _
      rw [released.port]
      show m.port.pendingPollCount = _
      omega
    · show _ ≤ d.port.nextSerial
      rw [hserial]
      exact (List.length_erase_le ..).trans h.bound

theorem Sound.move (h : Sound m) (found : m.socks a = some s) (hm : Move t (m.cell a s) d) :
    Sound (m.put d) := by
  have haddr : d.addr = a := hm.addr
  have hself := Mem.socks_put_self (m := m) (d := d)
  rw [haddr] at hself
  obtain ⟨xs, hxs⟩ := h.registry
  obtain ⟨ys, hys⟩ := hxs.move found hm
  have hlife := h.life a s found
  refine ⟨fun b s' hb => ?_, fun b hb => ?_, fun fd b hfd => ?_, fun w => ?_, ⟨ys, hys⟩, ?_⟩
  · by_cases hba : b = a
    · subst hba
      cases hf : d.freed with
      | true => simp [hself, hf] at hb
      | false =>
        have hs : d.sock = s' := by simpa [hself, hf] using hb
        have hcell := (m.cell_put hf).2
        rw [haddr, hs] at hcell
        rw [hcell]
        exact hlife.move hm hf
    · have hcounted := hys.counted hb
      rw [Mem.socks_put_of_ne (haddr ▸ hba)] at hb
      exact (h.life b s' hb).withPort (fun ht => hm.table ht) (hm.sheds hba) hm.explicit hcounted
  · by_cases hba : b = a
    · subst hba
      rcases hm.release rfl with ⟨live, _⟩ | ⟨_, released⟩
      · simp [hself, live] at hb
      · have hrefs : m.port.refs b = 0 := hlife.unreferenced released.idle
        show d.port.refs b = 0
        rw [released.port]
        exact hrefs
    · rw [Mem.socks_put_of_ne (haddr ▸ hba)] at hb
      have := (hm.sheds hba).refs_le
      rw [show (m.cell a s).port.refs b = 0 from h.dangling b hb] at this
      exact Nat.le_zero.mp this
  · have hold : m.port.fdTable fd = some b := hm.table hfd
    obtain ⟨s', hs', hfds⟩ := h.table fd b hold
    by_cases hba : b = a
    · subst hba
      obtain rfl : s' = s := Option.some.inj (hs'.symm.trans found)
      rcases hm.release rfl with ⟨live, _⟩ | ⟨_, released⟩
      · exact ⟨d.sock, by simp [hself, live], hm.fd.trans hfds⟩
      · exact absurd hold (hfds ▸ released.absent)
    · exact ⟨s', by rw [Mem.socks_put_of_ne (haddr ▸ hba)]; exact hs', hfds⟩
  · exact hm.listing w found (h.listing w)
  · show d.port.accountingViolated = false
    rw [hm.accounting]
    exact h.accounted

end

/-! ## Changes of the port alone -/

/-- What a change of the port alone leaves in place. -/
structure Port.Frame (p p' : Port) : Prop where
  sheds : ∀ a, p.Sheds p' a
  table : ∀ fd a, p'.fdTable fd = some a → p.fdTable fd = some a
  explicit : p'.explicitRearm = p.explicitRearm
  sockList : p'.sockList = p.sockList
  worklist : ∀ w, p'.worklist w = p.worklist w
  workCount : ∀ w, p'.workCount w = p.workCount w
  polls : p'.pendingPollCount = p.pendingPollCount
  nextSerial : p'.nextSerial = p.nextSerial
  freedCount : p'.freedCount = p.freedCount
  accounting : p'.accountingViolated = p.accountingViolated

theorem Port.core_congr {α : Type} {p p' : Port} (h : p'.core = p.core) (f : Port → α) :
    f p'.core = f p.core := by
  rw [h]

theorem Port.Frame.of_core {p p' : Port} (h : p'.core = p.core) : p.Frame p' where
  sheds := fun a => .same (Port.core_congr h fun x => x.afdInFlight a)
    (Port.core_congr h fun x => x.waitArmed a) (Port.core_congr h fun x => x.iocp)
    (Port.core_congr h fun x => x.iocpEntries)
  table := fun fd a ht => (Port.core_congr h fun x => x.fdTable fd).symm.trans ht
  explicit := Port.core_congr h fun x => x.explicitRearm
  sockList := Port.core_congr h fun x => x.sockList
  worklist := fun w => by
    cases w with
    | rearm => exact Port.core_congr h fun x => x.rearmList
    | oneshot => exact Port.core_congr h fun x => x.oneshotList
  workCount := fun w => by
    cases w with
    | rearm => exact Port.core_congr h fun x => x.needsRearmCount
    | oneshot => exact Port.core_congr h fun x => x.oneshotFiredCount
  polls := Port.core_congr h fun x => x.pendingPollCount
  nextSerial := Port.core_congr h fun x => x.nextSerial
  freedCount := Port.core_congr h fun x => x.freedCount
  accounting := Port.core_congr h fun x => x.accountingViolated

theorem PortMove.frame {m : Mem} {t : Tag} {p : Port} (h : PortMove m t p) : m.port.Frame p := by
  have same : ∀ w : Worklist, p.worklist w = m.port.worklist w ∧
      p.workCount w = m.port.workCount w := by
    intro w
    cases h <;> cases w <;> exact ⟨rfl, rfl⟩
  refine ⟨fun a => ?_, fun fd a ht => ?_, ?_, ?_, fun w => (same w).1, fun w => (same w).2,
    ?_, ?_, ?_, ?_⟩
  · cases h with
    | post => exact .append (by simp) rfl rfl rfl rfl
    | shut packets => exact .of_iocp rfl rfl packets rfl
    | batch n empty =>
      refine ⟨id, id, ?_⟩
      rw [packets_eq, packets_eq, empty]
      show (m.port.iocp.drop n).count _ + (m.port.iocp.take n).count _ ≤ _
      rw [Nat.add_comm, ← List.count_append, List.take_append_drop]
      exact Nat.le_add_right _ _
    | consume oldest =>
      refine ⟨id, id, ?_⟩
      rw [packets_eq, packets_eq, oldest]
      exact Nat.add_le_add_left (List.count_le_count_cons) _
    | _ => exact .same rfl rfl rfl rfl
  · cases h with
    | clearTable => simp at ht
    | _ => exact ht
  all_goals cases h <;> rfl

section

variable {m m' : Mem}

theorem Mem.polls_congr (socks : ∀ a, (m'.socks a).map EpSock.core = (m.socks a).map EpSock.core) :
    m'.polls = m.polls := by
  funext a
  have h := socks a
  unfold Mem.polls
  cases hm : m.socks a with
  | none =>
    rw [hm] at h
    rw [Option.map_eq_none_iff.mp h]
  | some s =>
    rw [hm] at h
    obtain ⟨s', hs', hcore⟩ := Option.map_eq_some_iff.mp h
    rw [hs']
    have hpolls : s'.core.polls = s.core.polls := by rw [hcore]
    exact hpolls

/-- A registration with its port after a change that concerns no registration. -/
theorem Sound.frame (h : Sound m)
    (socks : ∀ a, (m'.socks a).map EpSock.core = (m.socks a).map EpSock.core)
    (frame : m.port.Frame m'.port) : Sound m' := by
  have found : ∀ {a s'}, m'.socks a = some s' → ∃ s, m.socks a = some s ∧ s'.core = s.core := by
    intro a s' hs'
    have := socks a
    rw [hs'] at this
    obtain ⟨s, hs, hcore⟩ := Option.map_eq_some_iff.mp this.symm
    exact ⟨s, hs, hcore.symm⟩
  have absent : ∀ a, m'.socks a = none ↔ m.socks a = none := by
    intro a
    rw [← Option.map_eq_none_iff (f := EpSock.core), socks a, Option.map_eq_none_iff]
  refine ⟨fun a s' hs' => ?_, fun a ha => ?_, fun fd a ht => ?_, fun w => ?_, ?_, ?_⟩
  · obtain ⟨s, hs, hcore⟩ := found hs'
    have hlife := h.life a s hs
    have hport : Lifecycle { m.cell a s with port := m'.port } := by
      refine hlife.withPort (fun ht => frame.table _ _ ht) (frame.sheds a) frame.explicit ?_
      intro busy
      rw [frame.polls]
      exact hlife.busy_counted busy
    refine hport.of_core ?_
    simp only [Cell.core, Mem.cell, hcore]
  · have := (frame.sheds a).refs_le
    rw [h.dangling a ((absent a).mp ha)] at this
    exact Nat.le_zero.mp this
  · obtain ⟨s, hs, hfd⟩ := h.table fd a (frame.table fd a ht)
    have := socks a
    rw [hs] at this
    obtain ⟨s', hs', hcore⟩ := Option.map_eq_some_iff.mp this
    exact ⟨s', hs', (congrArg EpSock.fd hcore).trans hfd⟩
  · unfold Mem.Listing
    rw [frame.worklist, frame.workCount]
    refine DList.Lists.congr (h.listing w) fun a => ?_
    constructor
    · rintro ⟨s, hs, hflag⟩
      have := socks a
      rw [hs] at this
      obtain ⟨s', hs', hcore⟩ := Option.map_eq_some_iff.mp this
      refine ⟨s', hs', ?_⟩
      cases w with
      | rearm => exact (congrArg EpSock.needsRearm hcore).trans hflag
      | oneshot => exact (congrArg EpSock.oneshotFired hcore).trans hflag
    · rintro ⟨s', hs', hflag⟩
      obtain ⟨s, hs, hcore⟩ := found hs'
      refine ⟨s, hs, ?_⟩
      cases w with
      | rearm => exact (congrArg EpSock.needsRearm hcore).symm.trans hflag
      | oneshot => exact (congrArg EpSock.oneshotFired hcore).symm.trans hflag
  · obtain ⟨xs, hxs⟩ := h.registry
    refine ⟨xs, ?_, fun a => ?_, ?_, ?_⟩
    · rw [frame.sockList]
      exact hxs.repr
    · rw [hxs.mem a, Ne, Ne, absent a]
    · rw [frame.polls, Mem.polls_congr socks]
      exact hxs.polls
    · rw [frame.nextSerial]
      exact hxs.bound
  · rw [frame.accounting]
    exact h.accounted

end

/-! ## A new registration -/

section

variable {m : Mem} {a : Addr} {s : EpSock}

/-- The port right after a registration was inserted. -/
def inserted (m : Mem) (a : Addr) (s : EpSock) : Cell :=
  registerInsert ⟨a, s, m.port.bumpGeneration, false⟩

theorem Newborn.lifecycle (h : Newborn m.port s) (unreferenced : m.port.refs a = 0) :
    Lifecycle (inserted m a s) where
  ready_idle := fun hr => absurd (h.unqueued.symm.trans hr) (by simp)
  queued_events := fun hr => absurd (h.unqueued.symm.trans hr) (by simp)
  fired_idle := fun hf => absurd (h.unfired.symm.trans hf) (by simp)
  fired_oneshot := fun hf => absurd (h.unfired.symm.trans hf) (by simp)
  dead_flags := fun hd => absurd (h.alive.symm.trans hd) (by simp)
  dead_absent := fun hd => absurd (h.alive.symm.trans hd) (by simp)
  refs_le := (Nat.le_of_eq unreferenced).trans (by simp)
  refs_busy := fun hne => absurd unreferenced hne
  inFlight_socket := fun hi => absurd ((grounded_of_refs unreferenced).symm.trans hi) (by simp)
  armed_wait := fun hw => absurd ((unarmed_of_refs unreferenced).symm.trans hw) (by simp)
  packet_posted := fun _ hne => absurd (packets_zero_of_refs unreferenced) hne
  aux_idle := fun _ _ => ⟨h.unarmed, h.unposted⟩
  packet_owned := fun _ hne => absurd (packets_zero_of_refs unreferenced) hne
  armed_unowned := fun _ _ => h.unowned
  ready_unowned := fun _ _ => h.unowned
  exclusive_shape := h.exclusive
  explicit_shape := h.explicit
  aux_status := fun _ => h.status
  busy_counted := fun busy => absurd h.idle busy

theorem Sound.insert (h : Sound m) (storage : m.socks a = none) (newborn : Newborn m.port s) :
    Sound (m.put (inserted m a s)) := by
  have hself : (m.put (inserted m a s)).socks a = some (inserted m a s).sock :=
    (m.cell_put (c := inserted m a s) rfl).1
  have hother : ∀ b, b ≠ a → (m.put (inserted m a s)).socks b = m.socks b :=
    fun b hb => Mem.socks_put_of_ne (d := inserted m a s) hb
  have hrefs := h.dangling a storage
  refine ⟨fun b s' hb => ?_, fun b hb => ?_, fun fd b hfd => ?_, fun w => ?_, ?_, h.accounted⟩
  · by_cases hba : b = a
    · subst hba
      obtain rfl := Option.some.inj (hself.symm.trans hb)
      exact newborn.lifecycle hrefs
    · rw [hother b hba] at hb
      have hlife := h.life b s' hb
      refine hlife.withPort ?_ (.same rfl rfl rfl rfl) rfl hlife.busy_counted
      intro ht
      by_cases hfd : s'.fd = s.fd
      · have : some a = some b := by simpa [Mem.put, inserted, registerInsert, Mem.cell, hfd] using ht
        exact absurd (Option.some.inj this).symm hba
      · simpa [Mem.put, inserted, registerInsert, Mem.cell, hfd, Port.bumpGeneration] using ht
  · by_cases hba : b = a
    · subst hba
      simp [hself] at hb
    · rw [hother b hba] at hb
      exact h.dangling b hb
  · by_cases hfds : fd = s.fd
    · subst hfds
      have : some a = some b := by simpa [Mem.put, inserted, registerInsert] using hfd
      obtain rfl := Option.some.inj this
      exact ⟨_, hself, rfl⟩
    · have hold : m.port.fdTable fd = some b := by
        simpa [Mem.put, inserted, registerInsert, hfds, Port.bumpGeneration] using hfd
      obtain ⟨s', hs', hfd'⟩ := h.table fd b hold
      have hba : b ≠ a := by
        rintro rfl
        simp [storage] at hs'
      exact ⟨s', (hother b hba).trans hs', hfd'⟩
  · have hlist := h.listing w
    have hm : ∀ b, m.flagged w b ↔ (m.put (inserted m a s)).flagged w b := by
      intro b
      by_cases hba : b = a
      · subst hba
        have hflag : (inserted m b s).sock.onWorklist w = false := by
          cases w with
          | rearm => exact newborn.unlisted
          | oneshot => exact newborn.unfired
        simp [Mem.flagged, hself, storage, hflag]
      · rw [Mem.flagged, Mem.flagged, hother b hba]
    cases w with
    | rearm => exact hlist.congr hm
    | oneshot => exact hlist.congr hm
  · obtain ⟨xs, hxs⟩ := h.registry
    have hfresh : a ∉ xs := fun hc => (hxs.mem a).mp hc storage
    refine ⟨a :: xs, hxs.repr.push hfresh, fun b => ?_, ?_, ?_⟩
    · by_cases hba : b = a
      · subst hba
        simp [hself]
      · rw [hother b hba, ← hxs.mem b]
        simp [hba]
    · have hrest : xs.map (m.put (inserted m a s)).polls = xs.map m.polls := by
        refine List.map_congr_left fun b hb => ?_
        have hba : b ≠ a := fun e => hfresh (e ▸ hb)
        rw [Mem.polls, Mem.polls, hother b hba]
      have hnew : (inserted m a s).sock.polls = 0 := by
        simp [EpSock.polls, inserted, registerInsert, newborn.idle]
      rw [List.map_cons, List.sum_cons, Mem.polls_of_found hself, hnew, hrest, Nat.zero_add]
      exact hxs.polls
    · exact Nat.succ_le_succ hxs.bound

end

/-! ## Every move -/

section

variable {T : Tag → Prop} {m m' : Mem}

theorem Sound.memMove (h : Sound m) (hm : MemMove T m m') : Sound m' := by
  cases hm with
  | cell found _ move => exact h.move found move
  | quiet socks port => exact h.frame socks (.of_core port)
  | port _ move => exact h.frame (fun _ => rfl) move.frame
  | insert _ storage _ newborn => exact h.insert storage newborn

theorem Sound.memMoves (h : Sound m) (hm : MemMoves T m m') : Sound m' := by
  induction hm with
  | refl => exact h
  | tail _ move ih => exact ih.memMove move

end

end WepollEx
