import Mathlib.Data.Finset.Card

/-!
# Counters of predicates

A counter that is kept equal to the number of things with a property, whatever the type of the
things: how it changes when one thing gains or loses the property.
-/

namespace Counting

variable {α : Type} {P Q : α → Prop} {n : Nat} {a : α}

/-- Exactly `n` things have the property `P`. -/
def Counts (P : α → Prop) (n : Nat) : Prop := ∃ s : Finset α, (∀ a, a ∈ s ↔ P a) ∧ s.card = n

theorem Counts.none (h : ∀ a, ¬P a) : Counts P 0 :=
  ⟨∅, fun a => by simpa using h a, rfl⟩

theorem Counts.one (h : ∀ b, P b ↔ b = a) : Counts P 1 :=
  ⟨{a}, fun b => by rw [Finset.mem_singleton, h b], rfl⟩

theorem Counts.congr (h : Counts P n) (hpq : ∀ a, Q a ↔ P a) : Counts Q n := by
  obtain ⟨s, hs, hcard⟩ := h
  exact ⟨s, fun a => (hs a).trans (hpq a).symm, hcard⟩

theorem Counts.insert [DecidableEq α] (h : Counts P n) (hout : ¬P a)
    (hq : ∀ b, Q b ↔ b = a ∨ P b) : Counts Q (n + 1) := by
  obtain ⟨s, hs, hcard⟩ := h
  refine ⟨Insert.insert a s, fun b => ?_, ?_⟩
  · rw [Finset.mem_insert, hs, hq]
  · rw [Finset.card_insert_of_notMem (by rwa [hs]), hcard]

theorem Counts.erase [DecidableEq α] (h : Counts P n) (hin : P a)
    (hq : ∀ b, Q b ↔ b ≠ a ∧ P b) : Counts Q (n - 1) := by
  obtain ⟨s, hs, hcard⟩ := h
  refine ⟨s.erase a, fun b => ?_, ?_⟩
  · rw [Finset.mem_erase, hs, hq]
  · rw [Finset.card_erase_of_mem (by rwa [hs]), hcard]

theorem Counts.pos (h : Counts P n) (hin : P a) : 0 < n := by
  obtain ⟨s, hs, hcard⟩ := h
  rw [← hcard]
  exact Finset.card_pos.mpr ⟨a, (hs a).mpr hin⟩

theorem Counts.of_zero (h : Counts P 0) (a : α) : ¬P a :=
  fun hin => absurd (h.pos hin) (Nat.lt_irrefl 0)

theorem Counts.exists_of_pos (h : Counts P n) (hpos : 0 < n) : ∃ a, P a := by
  obtain ⟨s, hs, hcard⟩ := h
  obtain ⟨a, ha⟩ := Finset.card_pos.mp (hcard ▸ hpos)
  exact ⟨a, (hs a).mp ha⟩

/-- A list without repetitions of things with the property is no longer than their number. -/
theorem Counts.length_le (h : Counts P n) {xs : List α} (hnodup : xs.Nodup)
    (hxs : ∀ a ∈ xs, P a) : xs.length ≤ n := by
  classical
  obtain ⟨s, hs, hcard⟩ := h
  rw [← hcard, ← List.toFinset_card_of_nodup hnodup]
  exact Finset.card_le_card fun a ha => (hs a).mpr (hxs a (List.mem_toFinset.mp ha))

theorem eq_singleton {xs : List α} (hnodup : xs.Nodup) (hmem : ∀ b, b ∈ xs ↔ b = a) :
    xs = [a] :=
  List.perm_singleton.mp
    ((List.perm_ext_iff_of_nodup hnodup (List.nodup_singleton a)).mpr fun b => by simp [hmem b])

end Counting
