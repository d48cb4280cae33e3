import Mathlib.Data.BitVec

/-!
# Containment of bit masks

`Within a b` says that every bit of `a` is a bit of `b`.  The lemmas here are the rules by which
masks are composed, filtered and compared.
-/

namespace Mask

variable {w : Nat} {a b c d : BitVec w}

/-- Every bit of `a` is a bit of `b`. -/
def Within (a b : BitVec w) : Prop := a &&& ~~~b = 0#w

instance (a b : BitVec w) : Decidable (Within a b) := inferInstanceAs (Decidable (_ = _))

theorem within_iff : Within a b ↔ ∀ i, a.getLsbD i = true → b.getLsbD i = true := by
  constructor
  · intro h i hi
    have hbit := congrArg (fun v => v.getLsbD i) h
    have hw : i < w := BitVec.lt_of_getLsbD hi
    simpa [hi, hw] using hbit
  · intro h
    apply BitVec.eq_of_getLsbD_eq
    intro i hw
    have := h i
    cases ha : a.getLsbD i <;> simp_all

@[refl] theorem Within.refl (a : BitVec w) : Within a a := within_iff.mpr fun _ h => h

theorem Within.trans (hab : Within a b) (hbc : Within b c) : Within a c :=
  within_iff.mpr fun i h => within_iff.mp hbc i (within_iff.mp hab i h)

@[simp] theorem Within.zero (b : BitVec w) : Within 0#w b := within_iff.mpr (by simp)

theorem and_eq_zero_iff : a &&& b = 0#w ↔ ∀ i, a.getLsbD i = true → b.getLsbD i ≠ true := by
  constructor
  · intro h i ha hb
    have hi := congrArg (fun v => v.getLsbD i) h
    simp [ha, hb] at hi
  · intro h
    apply BitVec.eq_of_getLsbD_eq
    intro i _
    cases ha : a.getLsbD i with
    | false => simp [ha]
    | true => simp [h i ha]

theorem within_zero_iff : Within a 0#w ↔ a = 0#w := by
  simp [Within]

theorem Within.and_left (h : Within a c) (b : BitVec w) : Within (a &&& b) c :=
  within_iff.mpr fun i hi => within_iff.mp h i (by simp at hi; exact hi.1)

theorem within_and_self_left (a b : BitVec w) : Within (a &&& b) a := (Within.refl a).and_left b

theorem within_and_self_right (a b : BitVec w) : Within (a &&& b) b := by
  rw [BitVec.and_comm]
  exact within_and_self_left b a

theorem Within.or (ha : Within a c) (hb : Within b c) : Within (a ||| b) c :=
  within_iff.mpr fun i hi => by
    rw [BitVec.getLsbD_or, Bool.or_eq_true] at hi
    exact hi.elim (within_iff.mp ha i) (within_iff.mp hb i)

theorem Within.inl (h : Within a b) (c : BitVec w) : Within a (b ||| c) :=
  within_iff.mpr fun i hi => by simp [within_iff.mp h i hi]

theorem Within.inr (h : Within a c) (b : BitVec w) : Within a (b ||| c) :=
  within_iff.mpr fun i hi => by simp [within_iff.mp h i hi]

theorem Within.or_mono (hac : Within a c) (hbd : Within b d) : Within (a ||| b) (c ||| d) :=
  (hac.inl d).or (hbd.inr c)

/-- A mask contained in `b` has no bit outside it. -/
theorem Within.and_eq_zero (h : Within a b) (hbc : b &&& c = 0#w) : a &&& c = 0#w := by
  rw [← within_zero_iff, ← hbc, within_iff]
  intro i hi
  simp only [BitVec.getLsbD_and, Bool.and_eq_true] at hi ⊢
  exact ⟨within_iff.mp h i hi.1, hi.2⟩

theorem Within.and_and (hb : Within a b) (hc : Within a c) : Within a (b &&& c) :=
  within_iff.mpr fun i hi => by simp [within_iff.mp hb i hi, within_iff.mp hc i hi]

/-- A mask is covered by `b` and the bits it adds to `b`. -/
theorem within_or_and_not (a b : BitVec w) : Within a (b ||| a &&& ~~~b) :=
  within_iff.mpr fun i hi => by
    have hlt := BitVec.lt_of_getLsbD hi
    by_cases hb : b.getLsbD i = true
    · simp [hb]
    · simp [hi, hlt]

theorem and_not_and_self (a b : BitVec w) : a &&& ~~~b &&& b = 0#w := by
  apply BitVec.eq_of_getLsbD_eq
  intro i hi
  simp [hi]

theorem and_not_and_of_disjoint (h : b &&& c = 0#w) (a : BitVec w) :
    a &&& ~~~b &&& c = a &&& c := by
  apply BitVec.eq_of_getLsbD_eq
  intro i hi
  have hbit := congrArg (fun v => v.getLsbD i) h
  simp only [BitVec.getLsbD_and, BitVec.getLsbD_not, hi, decide_true, Bool.true_and,
    BitVec.getLsbD_zero] at hbit ⊢
  cases hb : b.getLsbD i <;> cases hc : c.getLsbD i <;> simp_all

end Mask
