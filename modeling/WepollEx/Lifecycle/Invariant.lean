import WepollEx.Lifecycle.Moves

/-!
# What holds of a registration after every move

`Lifecycle` relates a registration's poll state to its flags, to everything outside the port that
still refers to it and to the notification it may own.  The functions of the port rely on it, and
every move keeps it.
-/

namespace WepollEx

open Mask

structure Lifecycle (c : Cell) : Prop where
  ready_idle : c.sock.readyQueued = true → c.sock.pollStatus = .idle
  queued_events : c.sock.readyQueued = true →
    c.sock.pendingEvents ≠ 0 ∧ Within c.sock.pendingEvents c.sock.interest
  fired_idle : c.sock.oneshotFired = true → c.sock.pollStatus = .idle
  fired_oneshot : c.sock.oneshotFired = true → c.sock.isOneshot = true
  dead_flags : c.sock.deletePending = true →
    c.sock.needsRearm = false ∧ c.sock.oneshotFired = false
  dead_absent : c.sock.deletePending = true → c.port.fdTable c.sock.fd ≠ some c.addr
  refs_le : c.port.refs c.addr ≤ 1
  refs_busy : c.port.refs c.addr ≠ 0 → c.sock.pollStatus ≠ .idle
  inFlight_socket : c.port.afdInFlight c.addr = true → c.sock.kind = .socket
  armed_wait : c.port.waitArmed c.addr = true →
    c.sock.isAux = true ∧ c.sock.waitRegistration = true ∧ c.sock.pollStatus = .pending
  packet_posted : c.sock.isAux = true → c.port.packets c.addr ≠ 0 →
    c.sock.completionPosted = true
  aux_idle : c.sock.isAux = true → c.sock.pollStatus = .idle →
    c.sock.waitRegistration = false ∧ c.sock.completionPosted = false
  packet_owned : epWaitableMayConsume c.sock = true → c.port.packets c.addr ≠ 0 →
    c.sock.waitableNotificationOwned = true
  armed_unowned : epWaitableMayConsume c.sock = true → c.port.waitArmed c.addr = true →
    c.sock.waitableNotificationOwned = false
  ready_unowned : epWaitableMayConsume c.sock = true → c.sock.readyQueued = true →
    c.sock.waitableNotificationOwned = false
  exclusive_shape : c.sock.isExclusive = true →
    c.sock.kind = .socket ∧ c.sock.isOneshot = false
  explicit_shape : c.port.explicitRearm = true → c.sock.isET = true →
    c.sock.kind = .socket ∧ c.sock.isExclusive = false
  aux_status : c.sock.isAux = true → c.sock.ioStatus = STATUS_SUCCESS
  busy_counted : c.sock.pollStatus ≠ .idle → 0 < c.port.pendingPollCount

/-! ## References -/

theorem refs_eq (p : Port) (a : Addr) :
    p.refs a = (p.afdInFlight a).toNat + (p.waitArmed a).toNat + p.packets a := rfl

theorem packets_zero_of_refs {p : Port} {a : Addr} (h : p.refs a = 0) : p.packets a = 0 := by
  rw [refs_eq] at h
  omega

theorem unarmed_of_refs {p : Port} {a : Addr} (h : p.refs a = 0) : p.waitArmed a = false := by
  rw [refs_eq] at h
  cases hw : p.waitArmed a with
  | false => rfl
  | true => simp [hw] at h

theorem grounded_of_refs {p : Port} {a : Addr} (h : p.refs a = 0) : p.afdInFlight a = false := by
  rw [refs_eq] at h
  cases hw : p.afdInFlight a with
  | false => rfl
  | true => simp [hw] at h

namespace Lifecycle

variable {c d : Cell}

theorem of_core (h : Lifecycle c) (hcore : d.core = c.core) : Lifecycle d := by
  have hc : Lifecycle c.core := ⟨h.ready_idle, h.queued_events, h.fired_idle, h.fired_oneshot, h.dead_flags, h.dead_absent,
    h.refs_le, h.refs_busy, h.inFlight_socket, h.armed_wait, h.packet_posted, h.aux_idle,
    h.packet_owned, h.armed_unowned, h.ready_unowned, h.exclusive_shape, h.explicit_shape,
    h.aux_status, h.busy_counted⟩
  rw [← hcore] at hc
  exact ⟨hc.ready_idle, hc.queued_events, hc.fired_idle, hc.fired_oneshot, hc.dead_flags, hc.dead_absent, hc.refs_le, hc.refs_busy,
    hc.inFlight_socket, hc.armed_wait, hc.packet_posted, hc.aux_idle, hc.packet_owned,
    hc.armed_unowned, hc.ready_unowned, hc.exclusive_shape, hc.explicit_shape, hc.aux_status,
    hc.busy_counted⟩

theorem unreferenced (h : Lifecycle c) (idle : c.sock.pollStatus = .idle) :
    c.port.refs c.addr = 0 := by
  by_contra hne
  exact h.refs_busy hne idle

theorem socket_unarmed (h : Lifecycle c) (socket : c.sock.kind = .socket) :
    c.port.waitArmed c.addr = false := by
  cases hw : c.port.waitArmed c.addr with
  | false => rfl
  | true =>
    have := (h.armed_wait hw).1
    simp [EpSock.isAux, socket] at this

theorem busy_unfired (h : Lifecycle c) (busy : c.sock.pollStatus ≠ .idle) :
    c.sock.oneshotFired = false := by
  cases hf : c.sock.oneshotFired with
  | false => rfl
  | true => exact absurd (h.fired_idle hf) busy

theorem busy_unqueued (h : Lifecycle c) (busy : c.sock.pollStatus ≠ .idle) :
    c.sock.readyQueued = false := by
  cases hf : c.sock.readyQueued with
  | false => rfl
  | true => exact absurd (h.ready_idle hf) busy

theorem queued_busy_false (h : Lifecycle c) (busy : c.sock.pollStatus ≠ .idle)
    (hr : c.sock.readyQueued = true) : False := busy (h.ready_idle hr)

end Lifecycle

/-! ## How moves change the references -/

theorem packets_eq (p : Port) (a : Addr) :
    p.packets a = p.iocp.count (.status a) + p.iocpEntries.count (.status a) := rfl

/-- `p'` refers to `a` no more than `p` does. -/
structure Port.Sheds (p p' : Port) (a : Addr) : Prop where
  inFlight : p'.afdInFlight a = true → p.afdInFlight a = true
  armed : p'.waitArmed a = true → p.waitArmed a = true
  packets : p'.packets a ≤ p.packets a

theorem Port.Sheds.refs_le {p p' : Port} {a : Addr} (h : p.Sheds p' a) : p'.refs a ≤ p.refs a := by
  have hi : (p'.afdInFlight a).toNat ≤ (p.afdInFlight a).toNat := by
    cases hx : p'.afdInFlight a with
    | false => simp
    | true => simp [h.inFlight hx]
  have hw : (p'.waitArmed a).toNat ≤ (p.waitArmed a).toNat := by
    cases hx : p'.waitArmed a with
    | false => simp
    | true => simp [h.armed hx]
  have := h.packets
  rw [refs_eq, refs_eq]
  omega

theorem Port.Sheds.of_iocp {p p' : Port} {a : Addr} (hi : p'.afdInFlight = p.afdInFlight)
    (hw : p'.waitArmed = p.waitArmed) (hq : p'.iocp = p.iocp ∨ p'.iocp = [])
    (he : p'.iocpEntries = p.iocpEntries) : p.Sheds p' a where
  inFlight := by rw [hi]; exact id
  armed := by rw [hw]; exact id
  packets := by
    rw [packets_eq, packets_eq, he]
    rcases hq with hq | hq
    · rw [hq]
    · simp [hq]

namespace Lifecycle

variable {c d : Cell}

/-- A port that refers to the registration no more than before keeps it in order. -/
theorem withPort {p' : Port} (h : Lifecycle c)
    (table : p'.fdTable c.sock.fd = some c.addr → c.port.fdTable c.sock.fd = some c.addr)
    (sheds : c.port.Sheds p' c.addr) (explicit : p'.explicitRearm = c.port.explicitRearm)
    (counted : c.sock.pollStatus ≠ .idle → 0 < p'.pendingPollCount) :
    Lifecycle { c with port := p' } :=
  { h with
    dead_absent := fun hd ht => h.dead_absent hd (table ht)
    refs_le := sheds.refs_le.trans h.refs_le
    refs_busy := fun hne => h.refs_busy fun h0 => hne (Nat.le_zero.mp (h0 ▸ sheds.refs_le))
    inFlight_socket := fun hi => h.inFlight_socket (sheds.inFlight hi)
    armed_wait := fun hw => h.armed_wait (sheds.armed hw)
    packet_posted := fun ha hne =>
      h.packet_posted ha fun h0 => hne (Nat.le_zero.mp (h0 ▸ sheds.packets))
    packet_owned := fun ha hne =>
      h.packet_owned ha fun h0 => hne (Nat.le_zero.mp (h0 ▸ sheds.packets))
    armed_unowned := fun hm hw => h.armed_unowned hm (sheds.armed hw)
    explicit_shape := fun he => h.explicit_shape (explicit ▸ he)
    busy_counted := counted }

/-- A poll starts: the registration becomes PENDING and exactly one reference appears. -/
theorem start {p' : Port} (o : Events) (posted wait : Bool) (v : NtStatus) (h : Lifecycle c)
    (unqueued : c.sock.readyQueued = false) (unfired : c.sock.oneshotFired = false)
    (live : c.sock.deletePending = false)
    (explicit : p'.explicitRearm = c.port.explicitRearm)
    (one : p'.refs c.addr = 1) (counted : 0 < p'.pendingPollCount)
    (inFlight : p'.afdInFlight c.addr = true → c.sock.kind = .socket)
    (armed : p'.waitArmed c.addr = true → c.sock.isAux = true ∧ wait = true ∧
      (epWaitableMayConsume c.sock = true → c.sock.waitableNotificationOwned = false))
    (packets : p'.packets c.addr ≠ 0 → (c.sock.isAux = true → posted = true) ∧
      (epWaitableMayConsume c.sock = true → c.sock.waitableNotificationOwned = true))
    (status : c.sock.isAux = true → v = STATUS_SUCCESS) :
    Lifecycle { c with
      sock := { c.sock with
        pollStatus := .pending
        observedEvents := o
        completionPosted := posted
        ioStatus := v
        waitRegistration := wait }
      port := p' } where
  ready_idle := fun hr => by simp [unqueued] at hr
  queued_events := fun hr => by simp [unqueued] at hr
  fired_idle := fun hf => by simp [unfired] at hf
  fired_oneshot := fun hf => by simp [unfired] at hf
  dead_flags := fun hd => by simp [live] at hd
  dead_absent := fun hd => by simp [live] at hd
  refs_le := one.le
  refs_busy := fun _ => by simp
  inFlight_socket := inFlight
  armed_wait := fun hw => ⟨(armed hw).1, (armed hw).2.1, rfl⟩
  packet_posted := fun ha hne => (packets hne).1 ha
  aux_idle := fun _ hi => by simp at hi
  packet_owned := fun hm hne => (packets hne).2 hm
  armed_unowned := fun hm hw => (armed hw).2.2 hm
  ready_unowned := fun _ hr => by simp [unqueued] at hr
  exclusive_shape := h.exclusive_shape
  explicit_shape := fun he => h.explicit_shape (explicit ▸ he)
  aux_status := status
  busy_counted := fun _ => counted

end Lifecycle

theorem mayConsume_isAux {s : EpSock} (h : epWaitableMayConsume s = true) : s.isAux = true := by
  simp only [epWaitableMayConsume, Bool.and_eq_true, decide_eq_true_eq] at h
  simp [EpSock.isAux, h.1.1]

theorem isAux_false_iff {s : EpSock} : s.isAux = false ↔ s.kind = .socket := by
  unfold EpSock.isAux
  cases s.kind <;> simp

theorem socket_not_mayConsume {s : EpSock} (h : s.kind = .socket) :
    epWaitableMayConsume s = false := by
  simp [epWaitableMayConsume, h]

theorem holds_mayConsume {s : EpSock} (h : holdsQueuedNotification s = true) :
    s.readyQueued = true ∧ epWaitableMayConsume s = true ∧ hasSignal s.pendingEvents = true := by
  simp only [holdsQueuedNotification, Bool.and_eq_true] at h
  exact ⟨h.1.1, h.1.2, h.2⟩

namespace Lifecycle

variable {c d : Cell}

theorem submitAfd (h : Lifecycle c) {o : Events} (socket : c.sock.kind = .socket)
    (idle : c.sock.pollStatus = .idle) (unqueued : c.sock.readyQueued = false)
    (unfired : c.sock.oneshotFired = false) (live : c.sock.deletePending = false) :
    Lifecycle { c with
      sock := { c.sock with pollStatus := .pending, observedEvents := o }
      port := { c.port with
        afdInFlight := Function.update c.port.afdInFlight c.addr true
        pendingPollCount := c.port.pendingPollCount + 1 } } := by
  have h0 := h.unreferenced idle
  have hp := packets_zero_of_refs h0
  have hw := unarmed_of_refs h0
  have hna : c.sock.isAux = false := isAux_false_iff.mpr socket
  refine h.start o c.sock.completionPosted c.sock.waitRegistration c.sock.ioStatus unqueued unfired
    live rfl ?_ (Nat.succ_pos _) (fun _ => socket) ?_ ?_ h.aux_status
  · simp only [refs_eq, Function.update_self, packets_eq] at hp ⊢
    simp [hw, hp]
  · intro harmed
    exact absurd (hw.symm.trans harmed) (by simp)
  · intro hne
    exact absurd hp hne

theorem postAfd (h : Lifecycle c) (socket : c.sock.kind = .socket)
    (idle : c.sock.pollStatus = .idle) (unqueued : c.sock.readyQueued = false)
    (unfired : c.sock.oneshotFired = false) (live : c.sock.deletePending = false) :
    Lifecycle { c with
      sock := { c.sock with pollStatus := .pending }
      port := { c.port with
        iocp := c.port.iocp ++ [.status c.addr]
        pendingPollCount := c.port.pendingPollCount + 1 } } := by
  have h0 := h.unreferenced idle
  have hp := packets_zero_of_refs h0
  have hw := unarmed_of_refs h0
  have hg := grounded_of_refs h0
  have hna : c.sock.isAux = false := isAux_false_iff.mpr socket
  refine h.start c.sock.observedEvents c.sock.completionPosted c.sock.waitRegistration
    c.sock.ioStatus unqueued unfired live rfl ?_ (Nat.succ_pos _) (fun _ => socket) ?_ ?_
    h.aux_status
  · simp only [refs_eq, packets_eq] at hp ⊢
    simp [hw, hg, List.count_append]
    omega
  · intro harmed
    exact absurd (hw.symm.trans harmed) (by simp)
  · intro _
    exact ⟨fun ha => by simp [hna] at ha, fun hm => by simp [socket_not_mayConsume socket] at hm⟩

theorem postAux (h : Lifecycle c)
    (idle : c.sock.pollStatus = .idle) (unqueued : c.sock.readyQueued = false)
    (unfired : c.sock.oneshotFired = false) (live : c.sock.deletePending = false)
    (owned : epWaitableMayConsume c.sock = true → c.sock.waitableNotificationOwned = true) :
    Lifecycle { c with
      sock := { c.sock with
        pollStatus := .pending, completionPosted := true, ioStatus := STATUS_SUCCESS }
      port := { c.port with
        iocp := c.port.iocp ++ [.status c.addr]
        pendingPollCount := c.port.pendingPollCount + 1 } } := by
  have h0 := h.unreferenced idle
  have hp := packets_zero_of_refs h0
  have hw := unarmed_of_refs h0
  have hg := grounded_of_refs h0
  refine h.start c.sock.observedEvents true c.sock.waitRegistration STATUS_SUCCESS unqueued
    unfired live rfl ?_ (Nat.succ_pos _) ?_ ?_ (fun _ => ⟨fun _ => rfl, owned⟩) (fun _ => rfl)
  · simp only [refs_eq, packets_eq] at hp ⊢
    simp [hw, hg, List.count_append]
    omega
  · intro hfl
    exact absurd (hg.symm.trans hfl) (by simp)
  · intro harmed
    exact absurd (hw.symm.trans harmed) (by simp)

theorem armWait (h : Lifecycle c) (aux : c.sock.isAux = true)
    (idle : c.sock.pollStatus = .idle) (unqueued : c.sock.readyQueued = false)
    (unfired : c.sock.oneshotFired = false) (live : c.sock.deletePending = false)
    (unowned : epWaitableMayConsume c.sock = true → c.sock.waitableNotificationOwned = false) :
    Lifecycle { c with
      sock := { c.sock with pollStatus := .pending, waitRegistration := true }
      port := { c.port with
        waitArmed := Function.update c.port.waitArmed c.addr true
        pendingPollCount := c.port.pendingPollCount + 1 } } := by
  have h0 := h.unreferenced idle
  have hp := packets_zero_of_refs h0
  have hg := grounded_of_refs h0
  refine h.start c.sock.observedEvents c.sock.completionPosted true c.sock.ioStatus unqueued
    unfired live rfl ?_ (Nat.succ_pos _) ?_ (fun _ => ⟨aux, rfl, unowned⟩) ?_ h.aux_status
  · simp only [refs_eq, Function.update_self, packets_eq] at hp ⊢
    simp [hg, hp]
  · intro hfl
    exact absurd (hg.symm.trans hfl) (by simp)
  · intro hne
    exact absurd hp hne


theorem cancelMark (h : Lifecycle c) (pending : c.sock.pollStatus = .pending)
    (disarmed : c.port.waitArmed c.addr = false) :
    Lifecycle (c.mapSock fun s => { s with pollStatus := .cancelled }) :=
  { h with
    ready_idle := fun hr => absurd (h.ready_idle hr) (by simp [pending])
    fired_idle := fun hf => absurd (h.fired_idle hf) (by simp [pending])
    refs_busy := fun _ => by simp
    armed_wait := fun hw => absurd (disarmed.symm.trans hw) (by simp)
    aux_idle := fun _ hi => by simp at hi
    busy_counted := fun _ => h.busy_counted (by simp [pending]) }

theorem fireWait (h : Lifecycle c) :
    Lifecycle (c.mapPort fun p =>
      { p with waitArmed := Function.update p.waitArmed c.addr false }) :=
  h.withPort (fun ht => ht) ⟨id, fun hw => by simp at hw, Nat.le_refl _⟩ rfl h.busy_counted

theorem finishAfd (h : Lifecycle c) (v : NtStatus) (inFlight : c.port.afdInFlight c.addr = true) :
    Lifecycle { c with
      sock := { c.sock with ioStatus := v }
      port := { c.port with
        afdInFlight := Function.update c.port.afdInFlight c.addr false
        iocp := if c.port.iocpClosed then c.port.iocp else c.port.iocp ++ [.status c.addr] } } := by
  have hsock : c.sock.isAux = false := isAux_false_iff.mpr (h.inFlight_socket inFlight)
  have hno : ∀ {p : Prop}, c.sock.isAux = true → p := fun ha => by simp [hsock] at ha
  -- the one reference changes from the request to its packet
  have hrefs := h.refs_le
  rw [refs_eq, packets_eq, inFlight] at hrefs
  simp only [Bool.toNat_true] at hrefs
  have hp : (if c.port.iocpClosed then c.port.iocp else c.port.iocp ++ [.status c.addr]).count
      (.status c.addr) ≤ c.port.iocp.count (.status c.addr) + 1 := by
    split
    · exact Nat.le_succ _
    · simp
  have hbusy : c.sock.pollStatus ≠ .idle := by
    refine h.refs_busy ?_
    rw [refs_eq, inFlight]
    simp
  exact { h with
    refs_le := by
      rw [refs_eq, packets_eq]
      simp only [Function.update_self, Bool.toNat_false]
      omega
    refs_busy := fun _ => hbusy
    inFlight_socket := fun hi => by simp at hi
    packet_posted := fun ha => hno ha
    packet_owned := fun hm => hno (mayConsume_isAux hm)
    aux_status := fun ha => hno ha }

theorem disarm (h : Lifecycle c) :
    Lifecycle { c with
      sock := { c.sock with waitRegistration := false }
      port := { c.port with waitArmed := Function.update c.port.waitArmed c.addr false } } :=
  { h.fireWait with
    armed_wait := fun hw => by simp at hw
    aux_idle := fun ha hi => ⟨rfl, (h.aux_idle ha hi).2⟩ }

theorem retire (h : Lifecycle c) {posted : Bool}
    (unreferenced : c.port.refs c.addr = 0) (busy : c.sock.pollStatus ≠ .idle)
    (aux : c.sock.isAux = true → c.sock.waitRegistration = false ∧ posted = false) :
    Lifecycle { c with
      sock := { c.sock with pollStatus := .idle, completionPosted := posted }
      port := { c.port with pendingPollCount := c.port.pendingPollCount - 1 } } where
  ready_idle := fun _ => rfl
  queued_events := h.queued_events
  fired_idle := fun _ => rfl
  fired_oneshot := h.fired_oneshot
  dead_flags := h.dead_flags
  dead_absent := h.dead_absent
  refs_le := h.refs_le
  refs_busy := fun hne => absurd unreferenced hne
  inFlight_socket := h.inFlight_socket
  armed_wait := fun hw => absurd ((unarmed_of_refs unreferenced).symm.trans hw) (by simp)
  packet_posted := fun _ hne => absurd (packets_zero_of_refs unreferenced) hne
  aux_idle := fun ha _ => aux ha
  packet_owned := h.packet_owned
  armed_unowned := h.armed_unowned
  ready_unowned := fun _ hr => absurd (h.ready_idle hr) busy
  exclusive_shape := h.exclusive_shape
  explicit_shape := h.explicit_shape
  aux_status := h.aux_status
  busy_counted := fun hne => absurd rfl hne

theorem postFired (h : Lifecycle c)
    (pending : c.sock.pollStatus = .pending) (unreferenced : c.port.refs c.addr = 0)
    (owned : epWaitableMayConsume c.sock = true → c.sock.waitableNotificationOwned = true) :
    Lifecycle { c with
      sock := { c.sock with completionPosted := true, ioStatus := STATUS_SUCCESS }
      port := { c.port with iocp := c.port.iocp ++ [.status c.addr] } } := by
  have hp := packets_zero_of_refs unreferenced
  have hw := unarmed_of_refs unreferenced
  have hg := grounded_of_refs unreferenced
  have hone : Port.refs { c.port with iocp := c.port.iocp ++ [.status c.addr] } c.addr = 1 := by
    simp only [refs_eq, packets_eq] at hp ⊢
    simp [hw, hg, List.count_append]
    omega
  exact
    { h with
      refs_le := hone.le
      refs_busy := fun _ => by simp [pending]
      packet_posted := fun _ _ => rfl
      aux_idle := fun _ hi => absurd hi (by simp [pending])
      packet_owned := fun hm _ => owned hm
      aux_status := fun _ => rfl }

theorem postControl (h : Lifecycle c) :
    Lifecycle (c.mapPort fun p => { p with iocp := p.iocp ++ [.control] }) := by
  refine h.withPort (fun ht => ht) ⟨id, id, ?_⟩ rfl h.busy_counted
  simp [packets_eq, List.count_append]

theorem take (h : Lifecycle c) (unqueued : c.sock.readyQueued = false)
    (unarmed : c.port.waitArmed c.addr = false) : Lifecycle c.takeNotification :=
  { h with
    packet_owned := fun _ _ => rfl
    armed_unowned := fun _ hw => absurd (unarmed.symm.trans hw) (by simp)
    ready_unowned := fun _ hr => absurd (unqueued.symm.trans hr) (by simp) }


/-- A live registration that keeps its poll state, its waits and its references, whatever becomes
of its user fields, its latches, its flags and its ready node. -/
theorem reset {s' : EpSock} {p' : Port} (h : Lifecycle c)
    (same : s' = { c.sock with
      userEvents := s'.userEvents
      userFlags := s'.userFlags
      userData := s'.userData
      userCtx := s'.userCtx
      pendingEvents := s'.pendingEvents
      observedEvents := s'.observedEvents
      explicitDisarmedClasses := s'.explicitDisarmedClasses
      waitableNotificationOwned := s'.waitableNotificationOwned
      readyQueued := s'.readyQueued
      oneshotFired := s'.oneshotFired
      needsRearm := s'.needsRearm
      generation := s'.generation })
    (port : p' = { c.port with
      rearmList := p'.rearmList
      oneshotList := p'.oneshotList
      needsRearmCount := p'.needsRearmCount
      oneshotFiredCount := p'.oneshotFiredCount
      readyQueue := p'.readyQueue
      drainNode := p'.drainNode
      nextSockGeneration := p'.nextSockGeneration
      generationWrapped := p'.generationWrapped
      history := p'.history })
    (queued : s'.readyQueued = true → c.sock.pollStatus = .idle)
    (events : s'.readyQueued = true → s'.pendingEvents ≠ 0 ∧ Within s'.pendingEvents s'.interest)
    (fired : s'.oneshotFired = true → c.sock.pollStatus = .idle ∧ s'.isOneshot = true)
    (alive : c.sock.deletePending = false)
    (owner : epWaitableMayConsume c.sock = true →
      s'.waitableNotificationOwned = c.sock.waitableNotificationOwned ∨
        c.sock.pollStatus = .idle)
    (unowned : epWaitableMayConsume c.sock = true → s'.readyQueued = true →
      s'.waitableNotificationOwned = false)
    (exclusive : s'.isExclusive = true → c.sock.kind = .socket ∧ s'.isOneshot = false)
    (explicit : c.port.explicitRearm = true → s'.isET = true →
      c.sock.kind = .socket ∧ s'.isExclusive = false) :
    Lifecycle { c with sock := s', port := p' } := by
  have hrefs : c.sock.pollStatus = .idle → c.port.refs c.addr = 0 := h.unreferenced
  rw [same, port] at *
  exact
    { h with
      ready_idle := queued
      queued_events := events
      fired_idle := fun hf => (fired hf).1
      fired_oneshot := fun hf => (fired hf).2
      dead_flags := fun hd => absurd (alive.symm.trans hd) (by simp)
      packet_owned := fun hm hne => (owner hm).elim (fun ho => ho.trans (h.packet_owned hm hne))
        fun hi => absurd (packets_zero_of_refs (hrefs hi)) hne
      armed_unowned := fun hm hw => (owner hm).elim (fun ho => ho.trans (h.armed_unowned hm hw))
        fun hi => absurd ((unarmed_of_refs (hrefs hi)).symm.trans hw) (by simp)
      ready_unowned := unowned
      exclusive_shape := exclusive
      explicit_shape := explicit }


theorem modifyShape {flags : Events} {s : EpSock} (hs : s.userFlags = flags)
    (plain : flags &&& EPOLLEXCLUSIVE = 0) : s.isExclusive = false := by
  unfold EpSock.isExclusive
  rw [hs, plain]
  rfl

/-- Every move that does not release the storage keeps the registration in order. -/
theorem move {t : Tag} (h : Lifecycle c) (m : Move t c d) (live : d.freed = false) :
    Lifecycle d := by
  cases m with
  | relist _ dead fired _ =>
    have hsame : ∀ {f : Flags}, (f.fired = c.sock.oneshotFired ∨
        (f.fired = false ∧ c.port.fdTable c.sock.fd ≠ some c.addr)) → f.fired = true →
        c.sock.oneshotFired = true := by
      intro f hf ht
      rcases hf with hf | ⟨hf, -⟩
      · exact hf.symm.trans ht
      · rw [hf] at ht
        cases ht
    exact { h with
      fired_idle := fun hf => h.fired_idle (hsame fired hf)
      fired_oneshot := fun hf => h.fired_oneshot (hsame fired hf)
      dead_flags := dead }
  | rotate w =>
    cases w with
    | rearm => exact { h with }
    | oneshot => exact { h with }
  | latch _ => exact { h with }
  | pend unqueued =>
    exact { h with queued_events := fun hr => by simp [unqueued] at hr }
  | status aux => exact { h with aux_status := aux }
  | fault packets =>
    exact h.withPort (fun ht => ht) (.of_iocp rfl rfl packets rfl) rfl h.busy_counted
  | postControl => exact h.postControl
  | submitAfd socket idle unqueued unfired live' _ =>
    exact h.submitAfd socket idle unqueued unfired live'
  | postAfd socket idle unqueued unfired live' => exact h.postAfd socket idle unqueued unfired live'
  | postAux _ idle unqueued unfired live' owned => exact h.postAux idle unqueued unfired live' owned
  | armWait aux idle unqueued unfired live' unowned =>
    exact h.armWait aux idle unqueued unfired live' unowned
  | cancelMark pending disarmed => exact h.cancelMark pending disarmed
  | disarm => exact h.disarm
  | retire busy unreferenced aux => exact h.retire unreferenced busy aux
  | clearPosted taken =>
    exact { h with
      packet_posted := fun _ hne => absurd taken hne
      aux_idle := fun ha hi => ⟨(h.aux_idle ha hi).1, rfl⟩ }
  | fireWait _ => exact h.fireWait
  | finishAfd inFlight => exact h.finishAfd _ inFlight
  | take _ _ unqueued unarmed => exact h.take unqueued unarmed
  | postFired _ pending unreferenced owned => exact h.postFired pending unreferenced owned
  | lose _ => exact { h with }
  | publish _ _ fires _ idle _ alive nonzero interest =>
    refine h.reset rfl rfl (fun _ => idle) (fun _ => ⟨nonzero, interest⟩)
      (fun hf => ⟨idle, fires.symm.trans hf⟩) alive (fun _ => .inr idle) ?_ h.exclusive_shape
      h.explicit_shape
    intro hm _
    simp [hm]
  | republish _ _ fires idle _ alive socket nonzero interest =>
    refine h.reset rfl rfl (fun _ => idle) (fun _ => ⟨nonzero, interest⟩)
      (fun hf => ⟨idle, fires.symm.trans hf⟩) alive (fun _ => .inl rfl) ?_ h.exclusive_shape
      h.explicit_shape
    intro hm _
    simp [socket_not_mayConsume socket] at hm
  | deliver _ _ _ _ alive =>
    exact h.reset rfl rfl (fun hr => by simp at hr) (fun hr => by simp at hr)
      (fun hf => ⟨h.fired_idle hf, h.fired_oneshot hf⟩) alive (fun _ => .inl rfl)
      (fun _ hr => by simp at hr) h.exclusive_shape h.explicit_shape
  | suppress _ unfired _ _ _ _ _ alive =>
    exact h.reset rfl rfl (fun hr => by simp at hr) (fun hr => by simp at hr)
      (fun hf => absurd (unfired.symm.trans hf) (by simp)) alive (fun _ => .inl rfl)
      (fun _ hr => by simp at hr) h.exclusive_shape h.explicit_shape
  | modify _ unfired alive plain explicit holds =>
    refine h.reset rfl rfl (fun hr => by simp at hr) (fun hr => by simp at hr)
      (fun hf => absurd (unfired.symm.trans hf) (by simp)) alive ?_ (fun _ hr => by simp at hr)
      (fun hx => absurd (hx.symm.trans (modifyShape rfl plain)) (by simp)) ?_
    · intro _
      cases hq : holdsQueuedNotification c.sock with
      | false => left; simp [holds, hq]
      | true => exact .inr (h.ready_idle (holds_mayConsume hq).1)
    · intro he het
      exact ⟨explicit he (by simpa [EpSock.isET] using het), modifyShape rfl plain⟩
  | modifyQueued _ _ fires alive plain explicit holds wanted =>
    have hq := holds_mayConsume holds
    refine h.reset rfl rfl (fun _ => h.ready_idle hq.1) (fun _ => ⟨wanted, ?_⟩)
      (fun hf => ⟨h.ready_idle hq.1, fires.symm.trans hf⟩) alive (fun _ => .inl rfl)
      (fun hm _ => h.ready_unowned hm hq.1)
      (fun hx => absurd (hx.symm.trans (modifyShape rfl plain)) (by simp)) ?_
    · exact ((within_and_self_left _ _).inl _).inl _
    · intro he het
      exact ⟨explicit he (by simpa [EpSock.isET] using het), modifyShape rfl plain⟩
  | rearm _ unfired alive _ =>
    refine h.reset rfl rfl (fun hr => by simp at hr) (fun hr => by simp at hr)
      (fun hf => absurd (unfired.symm.trans hf) (by simp)) alive ?_
      (fun _ hr => by simp at hr) h.exclusive_shape h.explicit_shape
    intro _
    cases hq : holdsQueuedNotification c.sock with
    | false => left; simp
    | true => exact .inr (h.ready_idle (holds_mayConsume hq).1)
  | acknowledge _ fired alive unqueued _ =>
    refine h.reset rfl rfl (fun hr => h.ready_idle hr) h.queued_events ?_ alive (fun _ => .inl rfl)
      (fun hm hr => h.ready_unowned hm hr) h.exclusive_shape h.explicit_shape
    intro hf
    rcases fired with rfl | ⟨hno, -⟩
    · exact ⟨h.fired_idle hf, h.fired_oneshot hf⟩
    · exact absurd (hno.symm.trans hf) (by simp)
  | renew _ => exact { h with }
  | skipGeneration => exact { h with }
  | forget =>
    refine h.withPort ?_ (.of_iocp rfl rfl (.inl rfl) rfl) rfl h.busy_counted
    intro ht
    simp at ht
  | condemn absent unlisted unfired =>
    exact { h with dead_flags := fun _ => ⟨unlisted, unfired⟩, dead_absent := fun _ => absent }
  | free _ _ _ _ => simp at live

theorem moves {T : Tag → Prop} (h : Lifecycle c) (m : Moves T c d) (live : d.freed = false) :
    Lifecycle d := by
  induction m with
  | refl => exact h
  | quiet _ hcore ih =>
    have hf := congrArg Cell.freed hcore
    exact (ih (hf.symm.trans live)).of_core hcore
  | step _ hd _ hm ih => exact (ih hd).move hm live

end Lifecycle
end WepollEx
