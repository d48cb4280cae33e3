import WepollEx.Lifecycle.Memory

/-!
# What a move leaves alone

Facts about single moves that the invariants of the whole port share: which references other
registrations keep, and how the table, the lists and the counters of the port follow the
registration.
-/

namespace WepollEx

open Intrusive

section

variable {t : Tag} {c d : Cell}

/-- A port that only appends a packet for another registration. -/
theorem Port.Sheds.append {p p' : Port} {b : Addr} {packet : Packet} (hne : packet ≠ .status b)
    (hi : p'.afdInFlight b = p.afdInFlight b) (hw : p'.waitArmed b = p.waitArmed b)
    (hq : p'.iocp = p.iocp ++ [packet]) (he : p'.iocpEntries = p.iocpEntries) : p.Sheds p' b where
  inFlight := by rw [hi]; exact id
  armed := by rw [hw]; exact id
  packets := by
    have hcount : [packet].count (.status b) = 0 := by simp [hne]
    rw [packets_eq, packets_eq, he, hq, List.count_append, hcount]
    exact Nat.le_refl _

/-- A port that keeps its packets. -/
theorem Port.Sheds.same {p p' : Port} {b : Addr} (hi : p'.afdInFlight b = p.afdInFlight b)
    (hw : p'.waitArmed b = p.waitArmed b) (hq : p'.iocp = p.iocp)
    (he : p'.iocpEntries = p.iocpEntries) : p.Sheds p' b where
  inFlight := by rw [hi]; exact id
  armed := by rw [hw]; exact id
  packets := by rw [packets_eq, packets_eq, he, hq]

/-- A move adds no reference to another registration. -/
theorem Move.sheds (h : Move t c d) {b : Addr} (hb : b ≠ c.addr) : c.port.Sheds d.port b := by
  have hpacket : Packet.status c.addr ≠ .status b := by
    intro he
    exact hb (Packet.status.inj he).symm
  have hupd : ∀ (f : Addr → Bool) (v : Bool), Function.update f c.addr v b = f b :=
    fun f v => Function.update_of_ne hb v f
  cases h with
  | rotate w => cases w <;> exact .same rfl rfl rfl rfl
  | fault packets => exact .of_iocp rfl rfl packets rfl
  | postControl => exact .append (by simp) rfl rfl rfl rfl
  | submitAfd => exact .same (hupd _ _) rfl rfl rfl
  | postAfd => exact .append hpacket rfl rfl rfl rfl
  | postAux => exact .append hpacket rfl rfl rfl rfl
  | armWait => exact .same rfl (hupd _ _) rfl rfl
  | disarm => exact .same rfl (hupd _ _) rfl rfl
  | fireWait => exact .same rfl (hupd _ _) rfl rfl
  | postFired => exact .append hpacket rfl rfl rfl rfl
  | finishAfd _ =>
    cases hc : c.port.iocpClosed with
    | true => exact .same (hupd _ _) rfl (by simp) rfl
    | false => exact .append hpacket (hupd _ _) rfl (by simp) rfl
  | _ => exact .same rfl rfl rfl rfl

theorem Move.explicit (h : Move t c d) : d.port.explicitRearm = c.port.explicitRearm := by
  cases h with
  | rotate w => cases w <;> rfl
  | _ => rfl

theorem Move.fd (h : Move t c d) : d.sock.fd = c.sock.fd := by
  cases h <;> rfl

theorem Move.serial (h : Move t c d) : d.sock.serial = c.sock.serial := by
  cases h <;> rfl

theorem Move.nextSerial (h : Move t c d) : d.port.nextSerial = c.port.nextSerial := by
  cases h with
  | rotate w => cases w <;> rfl
  | _ => rfl

theorem Move.accounting (h : Move t c d) :
    d.port.accountingViolated = c.port.accountingViolated := by
  cases h with
  | rotate w => cases w <;> rfl
  | _ => rfl

/-- The table only forgets. -/
theorem Move.table (h : Move t c d) {fd : Socket} {b : Addr} (hd : d.port.fdTable fd = some b) :
    c.port.fdTable fd = some b := by
  cases h with
  | rotate w => cases w <;> exact hd
  | forget =>
    by_cases hfd : fd = c.sock.fd
    · subst hfd
      simp at hd
    · simpa [hfd] using hd
  | _ => exact hd

/-- What it takes to release a registration. -/
structure Released (c d : Cell) : Prop where
  sock : d.sock = c.sock
  port : d.port = { c.port with
    sockList := c.port.sockList.remove c.addr
    freedCount := bumpAt c.port.freedCount c.sock.serial }
  absent : c.port.fdTable c.sock.fd ≠ some c.addr
  idle : c.sock.pollStatus = .idle
  unlisted : c.sock.needsRearm = false
  unfired : c.sock.oneshotFired = false

/-- A move releases the registration, or keeps it and the list of all registrations. -/
theorem Move.release (h : Move t c d) (live : c.freed = false) :
    (d.freed = false ∧ d.port.sockList = c.port.sockList ∧
      d.port.freedCount = c.port.freedCount) ∨ (d.freed = true ∧ Released c d) := by
  cases h with
  | rotate w => cases w <;> exact .inl ⟨live, rfl, rfl⟩
  | free absent idle unlisted unfired => exact .inr ⟨rfl, rfl, rfl, absent, idle, unlisted, unfired⟩
  | _ => exact .inl ⟨live, rfl, rfl⟩

/-- The number of pending polls of one registration. -/
def EpSock.polls (s : EpSock) : Nat := if s.pollStatus = .idle then 0 else 1

/-- The counter of pending polls follows the registration. -/
theorem Move.polls (h : Move t c d) (counted : c.sock.pollStatus ≠ .idle →
    0 < c.port.pendingPollCount) :
    d.port.pendingPollCount + c.sock.polls = c.port.pendingPollCount + d.sock.polls := by
  cases h with
  | rotate w => cases w <;> rfl
  | submitAfd _ idle => simp [EpSock.polls, idle]
  | postAfd _ idle => simp [EpSock.polls, idle]
  | postAux _ idle => simp [EpSock.polls, idle]
  | armWait _ idle => simp [EpSock.polls, idle]
  | cancelMark pending => simp [EpSock.polls, pending]
  | retire busy =>
    have := counted busy
    simp only [EpSock.polls, busy, if_false, if_true]
    omega
  | _ => rfl

/-- The worklists follow the flags of the registration, or one of them is rotated. -/
theorem Move.flags (h : Move t c d) : Toggles c.addr c.flags d.flags ∨
    (d.sock.needsRearm = c.sock.needsRearm ∧ d.sock.oneshotFired = c.sock.oneshotFired ∧
      ∃ w, c.sock.onWorklist w = true ∧
        ((c.port.worklist w).head = some c.addr ∨ (c.port.worklist w).tail = some c.addr) ∧
        d.port = c.port.setWorklist w ((c.port.worklist w).rotate c.addr)) := by
  cases h with
  | relist toggles => exact .inl toggles
  | publish toggles => exact .inl toggles
  | republish toggles => exact .inl toggles
  | suppress toggles => exact .inl toggles
  | modify toggles => exact .inl toggles
  | modifyQueued toggles => exact .inl toggles
  | rearm toggles => exact .inl toggles
  | acknowledge toggles => exact .inl toggles
  | rotate w listed ends => exact .inr ⟨rfl, rfl, w, listed, ends, rfl⟩
  | _ => exact .inl .refl

/-- The two lists stay apart, unless a oneshot delivery fires on the rearm list. -/
theorem Move.apart (h : Move t c d) (plain : t ≠ .firedWhileRearming)
    (apart : ¬(c.sock.needsRearm = true ∧ c.sock.oneshotFired = true)) :
    ¬(d.sock.needsRearm = true ∧ d.sock.oneshotFired = true) := by
  cases h with
  | relist _ _ fired both =>
    rintro ⟨hr, hf⟩
    rcases fired with hsame | ⟨hno, -⟩
    · exact apart ⟨both hr hf, hsame.symm.trans hf⟩
    · exact absurd (hno.symm.trans hf) (by simp)
  | publish _ _ _ both => exact fun ⟨hr, hf⟩ => plain (both hr hf)
  | republish _ unlisted => exact fun ⟨hr, _⟩ => absurd (unlisted.symm.trans hr) (by simp)
  | suppress _ unfired => exact fun ⟨_, hf⟩ => absurd (unfired.symm.trans hf) (by simp)
  | modify _ unfired => exact fun ⟨_, hf⟩ => absurd (unfired.symm.trans hf) (by simp)
  | modifyQueued _ unlisted => exact fun ⟨hr, _⟩ => absurd (unlisted.symm.trans hr) (by simp)
  | rearm _ unfired => exact fun ⟨_, hf⟩ => absurd (unfired.symm.trans hf) (by simp)
  | acknowledge _ fired =>
    rcases fired with rfl | ⟨hno, -⟩
    · exact apart
    · exact fun ⟨_, hf⟩ => absurd (hno.symm.trans hf) (by simp)
  | _ => exact apart

end

end WepollEx
