import WepollEx.Lifecycle.Rearm

/-!
# Moves of the whole port

`MemMove` is one indivisible change of a port with all its registrations: a move of one
registration, a change of the port alone, or the insertion of a new registration.  A sequence of
moves of one registration is such a sequence for the port (`MemMoves.of_moves`).
-/

namespace WepollEx

open Relation

/-- A change that concerns no registration in particular. -/
inductive PortMove (m : Mem) : Tag → Port → Prop
  | post : PortMove m .plain { m.port with iocp := m.port.iocp ++ [.control] }
  /-- The port starts to close, or its completion port is closed. -/
  | shut {l : List Packet} {closing handle closed : Bool} {failures : Nat}
      (packets : l = m.port.iocp ∨ l = []) (counted : m.port.iocpPostFailures ≤ failures) :
      PortMove m .plain { m.port with
        closing := m.port.closing || closing
        iocpPostHandle := handle
        iocpClosed := closed
        iocp := l
        iocpPostFailures := failures }
  | skipGeneration : PortMove m .plain m.port.bumpGeneration
  | wakeFailed (r : Nat) : PortMove m .plain (m.port.record (.wakeFailed r))
  /-- Packets are dequeued. -/
  | batch (n : Nat) (empty : m.port.iocpEntries = []) : PortMove m .dequeued { m.port with
      iocp := m.port.iocp.drop n, iocpEntries := m.port.iocp.take n }
  | consume {packet : Packet} {rest : List Packet} (oldest : m.port.iocpEntries = packet :: rest) :
      PortMove m .dequeued { m.port with iocpEntries := rest }
  /-- A drain takes the oldest ready node. -/
  | pop {n : ReadyNode} {rest : List ReadyNode} (free : m.port.drainNode = none)
      (oldest : m.port.readyQueue = n :: rest) :
      PortMove m .delivered { m.port with readyQueue := rest, drainNode := some n }
  /-- A drain drops a node that names no registration any more. -/
  | discard {n : ReadyNode} (held : m.port.drainNode = some n)
      (stale : ∀ a s, m.port.fdTable n.fd = some a → m.socks a = some s →
        s.generation = n.sockGeneration → s.deletePending = true) :
      PortMove m .delivered { m.port with drainNode := none }
  | clearTable : PortMove m .plain { m.port with fdTable := fun _ => none }
  | clearQueue (empty : ∀ a, m.socks a = none) : PortMove m .plain { m.port with readyQueue := [] }

/-- A registration as `ep_sock_alloc` makes it, with the caller's interest. -/
structure Newborn (p : Port) (s : EpSock) : Prop where
  idle : s.pollStatus = .idle
  unqueued : s.readyQueued = false
  unfired : s.oneshotFired = false
  unlisted : s.needsRearm = false
  alive : s.deletePending = false
  unposted : s.completionPosted = false
  unarmed : s.waitRegistration = false
  unowned : s.waitableNotificationOwned = false
  status : s.ioStatus = STATUS_SUCCESS
  observed : s.observedEvents = 0
  disarmed : s.explicitDisarmedClasses = 0
  pending : s.pendingEvents = 0
  exclusive : s.isExclusive = true → s.kind = .socket ∧ s.isOneshot = false
  explicit : p.explicitRearm = true → s.isET = true → s.kind = .socket ∧ s.isExclusive = false
  generation : s.generation = nextGeneration p.nextSockGeneration

inductive MemMove (T : Tag → Prop) : Mem → Mem → Prop
  | cell {m : Mem} {a : Addr} {s : EpSock} {t : Tag} {d : Cell} (found : m.socks a = some s)
      (allowed : T t) (move : Move t (m.cell a s) d) : MemMove T m (m.put d)
  /-- Only fields change that do not matter. -/
  | quiet {m m' : Mem}
      (socks : ∀ a, (m'.socks a).map EpSock.core = (m.socks a).map EpSock.core)
      (port : m'.port.core = m.port.core) : MemMove T m m'
  | port {m : Mem} {t : Tag} {p : Port} (allowed : T t) (move : PortMove m t p) :
      MemMove T m { m with port := p }
  /-- A new registration. -/
  | insert {m : Mem} {a : Addr} {s : EpSock} (allowed : T .inserted) (storage : m.socks a = none)
      (absent : m.port.fdTable s.fd = none) (newborn : Newborn m.port s) :
      MemMove T m (m.put (registerInsert ⟨a, s, m.port.bumpGeneration, false⟩))

def MemMoves (T : Tag → Prop) : Mem → Mem → Prop := ReflTransGen (MemMove T)

/-! ## From one registration to the port -/

theorem Move.addr {t : Tag} {c d : Cell} (h : Move t c d) : d.addr = c.addr := by
  cases h <;> rfl

theorem Moves.addr {T : Tag → Prop} {c d : Cell} (h : Moves T c d) : d.addr = c.addr := by
  induction h with
  | refl => rfl
  | quiet _ hcore ih => exact (core_congr hcore Cell.addr).trans ih
  | step _ _ _ hm ih => exact hm.addr.trans ih

theorem Mem.put_self {m : Mem} {a : Addr} {s : EpSock} (found : m.socks a = some s) :
    m.put (m.cell a s) = m := by
  simp [Mem.put, Mem.cell, ← found]

theorem Mem.put_put (m : Mem) {c d : Cell} (h : d.addr = c.addr) : (m.put c).put d = m.put d := by
  simp [Mem.put, h]

theorem Mem.socks_put_of_ne {m : Mem} {d : Cell} {b : Addr} (hb : b ≠ d.addr) :
    (m.put d).socks b = m.socks b := by
  simp [Mem.put, hb]

theorem Mem.socks_put_self {m : Mem} {d : Cell} :
    (m.put d).socks d.addr = if d.freed then none else some d.sock := by
  simp [Mem.put]

/-- A registration of the port after one was written back is that one, or an untouched one. -/
theorem Mem.found_put {m : Mem} {d : Cell} {b : Addr} {s : EpSock}
    (found : (m.put d).socks b = some s) :
    (b = d.addr ∧ s = d.sock ∧ d.freed = false) ∨ (b ≠ d.addr ∧ m.socks b = some s) := by
  by_cases hb : b = d.addr
  · subst hb
    rw [Mem.socks_put_self] at found
    split at found
    · cases found
    · rename_i live
      exact .inl ⟨rfl, (Option.some.inj found).symm, by simpa using live⟩
  · rw [Mem.socks_put_of_ne hb] at found
    exact .inr ⟨hb, found⟩

/-- Reading a registration back that has not been released. -/
theorem Mem.cell_put (m : Mem) {c : Cell} (live : c.freed = false) :
    (m.put c).socks c.addr = some c.sock ∧ (m.put c).cell c.addr c.sock = c := by
  constructor
  · simp [Mem.put, live]
  · simp [Mem.put, Mem.cell, ← live]

theorem MemMoves.of_moves {T : Tag → Prop} {m : Mem} {a : Addr} {s : EpSock} {d : Cell}
    (found : m.socks a = some s) (h : Moves T (m.cell a s) d) : MemMoves T m (m.put d) := by
  generalize hc : m.cell a s = c at h
  induction h with
  | refl =>
    rw [← hc, Mem.put_self found]
    exact .refl
  | @quiet d e h hcore ih =>
    have haddr : e.addr = d.addr := core_congr hcore Cell.addr
    have hfreed : e.freed = d.freed := core_congr hcore Cell.freed
    refine ih.tail (.quiet (fun b => ?_) ?_)
    · by_cases hb : b = d.addr
      · have hs : e.sock.core = d.sock.core := core_congr hcore fun x => x.sock
        subst hb
        simp only [Mem.put, haddr, hfreed, Function.update_self]
        split
        · rfl
        · simp [hs]
      · simp [Mem.put, haddr, hb]
    · exact core_congr hcore fun x => x.port
  | @step d e t h live allowed hm ih =>
    obtain ⟨hfound, hcell⟩ := m.cell_put live
    have hmove := MemMove.cell hfound allowed (by rw [hcell]; exact hm)
    rw [Mem.put_put m hm.addr] at hmove
    exact ih.tail hmove

theorem MemMove.mono {T U : Tag → Prop} {m m' : Mem} (hTU : ∀ t, T t → U t)
    (h : MemMove T m m') : MemMove U m m' := by
  cases h with
  | cell found allowed move => exact .cell found (hTU _ allowed) move
  | quiet socks port => exact .quiet socks port
  | port allowed move => exact .port (hTU _ allowed) move
  | insert allowed storage absent newborn =>
    exact .insert (hTU _ allowed) storage absent newborn

theorem MemMoves.mono {T U : Tag → Prop} {m m' : Mem} (hTU : ∀ t, T t → U t)
    (h : MemMoves T m m') : MemMoves U m m' := by
  induction h with
  | refl => exact .refl
  | tail _ hmove ih => exact ih.tail (hmove.mono hTU)

/-! ## Properties of all registrations -/

/-- Every registration of the port has a property. -/
def Mem.All (P : Cell → Prop) (m : Mem) : Prop :=
  ∀ a s, m.socks a = some s → P (m.cell a s)

/-- What a property of registrations needs so that every move of the port keeps it for all of
them: the registration that moves keeps it, the others keep it, and a new one has it. -/
structure MemMove.Keeps (T : Tag → Prop) (P : Cell → Prop) (m : Mem) : Prop where
  core : ∀ {c d : Cell}, d.core = c.core → P c → P d
  move : ∀ {a s t d}, m.socks a = some s → T t → Move t (m.cell a s) d → P (m.cell a s) → P d
  others : ∀ {a s t d}, m.socks a = some s → T t → Move t (m.cell a s) d →
    ∀ {b s'}, b ≠ a → m.socks b = some s' → P (m.cell b s') → P ⟨b, s', d.port, false⟩
  port : ∀ {t p}, T t → PortMove m t p →
    ∀ {b s'}, m.socks b = some s' → P (m.cell b s') → P ⟨b, s', p, false⟩
  newborn : ∀ {a s}, T .inserted → m.socks a = none → m.port.fdTable s.fd = none →
    Newborn m.port s → P (registerInsert ⟨a, s, m.port.bumpGeneration, false⟩)
  older : ∀ {a s}, T .inserted → m.socks a = none → m.port.fdTable s.fd = none →
    Newborn m.port s → ∀ {b s'}, b ≠ a → m.socks b = some s' → P (m.cell b s') →
      P ⟨b, s', (registerInsert ⟨a, s, m.port.bumpGeneration, false⟩).port, false⟩

theorem MemMove.all {T : Tag → Prop} {P : Cell → Prop} {m m' : Mem} (h : MemMove T m m')
    (keeps : MemMove.Keeps T P m) (all : m.All P) : m'.All P := by
  intro b s' hs'
  cases h with
  | @cell a s t d found allowed move =>
    have haddr : d.addr = a := move.addr
    rcases Mem.found_put hs' with ⟨rfl, rfl, live⟩ | ⟨hne, hold⟩
    · rw [(m.cell_put live).2]
      exact keeps.move found allowed move (all a s found)
    · exact keeps.others found allowed move (haddr ▸ hne) hold (all b s' hold)
  | quiet socks port =>
    have hb := socks b
    rw [hs'] at hb
    obtain ⟨s, hs, hcore⟩ := Option.map_eq_some_iff.mp hb.symm
    refine keeps.core (c := m.cell b s) ?_ (all b s hs)
    simp only [Cell.core, Mem.cell, hcore, port]
  | port allowed move => exact keeps.port allowed move hs' (all b s' hs')
  | @insert a s allowed storage absent newborn =>
    rcases Mem.found_put hs' with ⟨rfl, rfl, live⟩ | ⟨hne, hold⟩
    · exact (m.cell_put live).2 ▸ keeps.newborn allowed storage absent newborn
    · exact keeps.older allowed storage absent newborn hne hold (all b s' hold)

/-- A property that looks at the registration alone. -/
theorem MemMove.all_sock {T : Tag → Prop} {P : EpSock → Prop} {m m' : Mem} (h : MemMove T m m')
    (core : ∀ {s s'}, EpSock.core s' = EpSock.core s → P s → P s')
    (move : ∀ {t c d}, T t → Move t c d → P c.sock → P d.sock)
    (newborn : ∀ {p s n}, Newborn p s → P { s with serial := n })
    (all : m.All fun c => P c.sock) : m'.All fun c => P c.sock := by
  refine h.all ⟨fun hcore => core ?_, fun _ ht hm => move ht hm, fun _ _ _ _ _ _ _ hp => hp,
    fun _ _ _ _ _ hp => hp, fun _ _ _ hn => newborn hn, fun _ _ _ _ _ _ _ _ hp => hp⟩ all
  have := congrArg Cell.sock hcore
  exact this

end WepollEx
