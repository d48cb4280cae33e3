import WepollEx.Lifecycle.Sound

/-!
# The ledger of registrations

Every ADD gets a serial number of its own.  `Ledger` relates the serial numbers handed out so far
to the storage and to the number of times each registration was released.
-/

namespace WepollEx

/-- The serial number of the registration stored at `a`. -/
def Mem.serialAt (m : Mem) (a : Addr) : Option Nat := (m.socks a).map EpSock.serial

structure Ledger (m : Mem) : Prop where
  lt : ∀ a n, m.serialAt a = some n → n < m.port.nextSerial
  inj : ∀ a b n, m.serialAt a = some n → m.serialAt b = some n → a = b
  unreleased : ∀ a n, m.serialAt a = some n → m.port.freedCount n = 0
  released : ∀ n < m.port.nextSerial, (∀ a, m.serialAt a ≠ some n) → m.port.freedCount n = 1
  future : ∀ n, m.port.nextSerial ≤ n → m.port.freedCount n = 0

namespace Ledger

variable {m m' : Mem}

theorem congr (h : Ledger m) (serials : ∀ a, m'.serialAt a = m.serialAt a)
    (next : m'.port.nextSerial = m.port.nextSerial)
    (freed : m'.port.freedCount = m.port.freedCount) : Ledger m' := by
  refine ⟨?_, ?_, ?_, ?_, ?_⟩
  · intro a n ha
    rw [serials] at ha
    rw [next]
    exact h.lt a n ha
  · intro a b n ha hb
    rw [serials] at ha hb
    exact h.inj a b n ha hb
  · intro a n ha
    rw [serials] at ha
    rw [freed]
    exact h.unreleased a n ha
  · intro n hn hgone
    rw [next] at hn
    rw [freed]
    refine h.released n hn fun a => ?_
    rw [← serials]
    exact hgone a
  · intro n hn
    rw [next] at hn
    rw [freed]
    exact h.future n hn

/-- One registration is released. -/
theorem release (h : Ledger m) {a : Addr} {r : Nat} (found : m.serialAt a = some r)
    (gone : m'.serialAt a = none) (others : ∀ b, b ≠ a → m'.serialAt b = m.serialAt b)
    (next : m'.port.nextSerial = m.port.nextSerial)
    (freed : m'.port.freedCount = bumpAt m.port.freedCount r) : Ledger m' := by
  have old : ∀ b n, m'.serialAt b = some n → m.serialAt b = some n ∧ n ≠ r := by
    intro b n hb
    have hne : b ≠ a := by
      rintro rfl
      rw [gone] at hb
      cases hb
    rw [others b hne] at hb
    refine ⟨hb, ?_⟩
    rintro rfl
    exact hne (h.inj b a n hb found)
  have count : ∀ n, n ≠ r → m'.port.freedCount n = m.port.freedCount n := by
    intro n hn
    rw [freed]
    exact Function.update_of_ne hn _ _
  have hr := h.lt a r found
  refine ⟨?_, ?_, ?_, ?_, ?_⟩
  · intro b n hb
    rw [next]
    exact h.lt b n (old b n hb).1
  · intro b c n hb hc
    exact h.inj b c n (old b n hb).1 (old c n hc).1
  · intro b n hb
    obtain ⟨hold, hn⟩ := old b n hb
    rw [count n hn]
    exact h.unreleased b n hold
  · intro n hn hgone
    rw [next] at hn
    by_cases hnr : n = r
    · subst hnr
      rw [freed]
      show Function.update _ n _ n = 1
      rw [Function.update_self, h.unreleased a n found]
    · rw [count n hnr]
      refine h.released n hn fun b hb => ?_
      by_cases hba : b = a
      · subst hba
        exact hnr (Option.some.inj (hb.symm.trans found))
      · exact hgone b ((others b hba).trans hb)
  · intro n hn
    rw [next] at hn
    rw [count n (by omega)]
    exact h.future n hn

/-- A registration is added under the next serial number. -/
theorem add (h : Ledger m) {a : Addr} (absent : m.serialAt a = none)
    (found : m'.serialAt a = some m.port.nextSerial)
    (others : ∀ b, b ≠ a → m'.serialAt b = m.serialAt b)
    (next : m'.port.nextSerial = m.port.nextSerial + 1)
    (freed : m'.port.freedCount = m.port.freedCount) : Ledger m' := by
  have old : ∀ b n, m'.serialAt b = some n →
      (b = a ∧ n = m.port.nextSerial) ∨ (b ≠ a ∧ m.serialAt b = some n) := by
    intro b n hb
    by_cases hba : b = a
    · subst hba
      exact .inl ⟨rfl, (Option.some.inj (found.symm.trans hb)).symm⟩
    · exact .inr ⟨hba, (others b hba).symm.trans hb⟩
  refine ⟨?_, ?_, ?_, ?_, ?_⟩
  · intro b n hb
    rw [next]
    rcases old b n hb with ⟨_, rfl⟩ | ⟨_, hold⟩
    · omega
    · have := h.lt b n hold
      omega
  · intro b c n hb hc
    rcases old b n hb with ⟨rfl, rfl⟩ | ⟨_, hold⟩
    · rcases old c _ hc with ⟨hca, _⟩ | ⟨_, hold⟩
      · exact hca.symm
      · have := h.lt c _ hold
        omega
    · rcases old c n hc with ⟨_, rfl⟩ | ⟨_, hold'⟩
      · have := h.lt b _ hold
        omega
      · exact h.inj b c n hold hold'
  · intro b n hb
    rw [freed]
    rcases old b n hb with ⟨_, rfl⟩ | ⟨_, hold⟩
    · exact h.future _ (Nat.le_refl _)
    · exact h.unreleased b n hold
  · intro n hn hgone
    rw [next] at hn
    rw [freed]
    have hne : n ≠ m.port.nextSerial := by
      rintro rfl
      exact hgone a found
    refine h.released n (by omega) fun b hb => ?_
    have hba : b ≠ a := by
      rintro rfl
      rw [absent] at hb
      cases hb
    exact hgone b ((others b hba).trans hb)
  · intro n hn
    rw [next] at hn
    rw [freed]
    exact h.future n (by omega)

theorem memMove {T : Tag → Prop} (h : Ledger m) (move : MemMove T m m') : Ledger m' := by
  cases move with
  | @cell a s t d found allowed move =>
    have haddr : d.addr = a := move.addr
    have hserial : m.serialAt a = some s.serial := by rw [Mem.serialAt, found]; rfl
    have hothers : ∀ b, b ≠ a → (m.put d).serialAt b = m.serialAt b := by
      intro b hb
      rw [Mem.serialAt, Mem.socks_put_of_ne (haddr ▸ hb), Mem.serialAt]
    have hself : (m.put d).serialAt a = if d.freed then none else some s.serial := by
      rw [Mem.serialAt, ← haddr, Mem.socks_put_self]
      cases d.freed with
      | true => rfl
      | false =>
        have := move.serial
        exact congrArg some this
    rcases move.release rfl with ⟨live, _, hfreed⟩ | ⟨freed, released⟩
    · refine h.congr (fun b => ?_) move.nextSerial hfreed
      by_cases hb : b = a
      · subst hb
        rw [hself, live, hserial]
        rfl
      · exact hothers b hb
    · refine h.release hserial ?_ hothers move.nextSerial ?_
      · rw [hself, freed]
        rfl
      · show d.port.freedCount = _
        rw [released.port]
        rfl
  | quiet socks port =>
    refine h.congr (fun a => ?_) (Port.core_congr port fun p => p.nextSerial)
      (Port.core_congr port fun p => p.freedCount)
    have hcore := congrArg (Option.map EpSock.serial) (socks a)
    rw [Option.map_map, Option.map_map] at hcore
    exact hcore
  | port _ move => exact h.congr (fun _ => rfl) move.frame.nextSerial move.frame.freedCount
  | @insert a s allowed storage absent newborn =>
    refine h.add (a := a) ?_ ?_ (fun b hb => ?_) rfl rfl
    · rw [Mem.serialAt, storage]
      rfl
    · have hself := Mem.socks_put_self (m := m)
        (d := registerInsert ⟨a, s, m.port.bumpGeneration, false⟩)
      exact congrArg (Option.map EpSock.serial) hself
    · rw [Mem.serialAt, Mem.socks_put_of_ne hb, Mem.serialAt]

theorem memMoves {T : Tag → Prop} (h : Ledger m) (moves : MemMoves T m m') : Ledger m' := by
  induction moves with
  | refl => exact h
  | tail _ move ih => exact ih.memMove move

end Ledger

end WepollEx
