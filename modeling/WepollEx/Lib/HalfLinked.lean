import Mathlib.Data.List.Basic
import Mathlib.Logic.Function.Basic

/-!
# Chains that are linked only in part

In a queue whose producers first exchange its end and store the link to their node only later, the
nodes form a chain some of whose links are still missing.  `pend a = some (b, w)` says that the
writer `w` is about to store the link from `a` to `b`.
-/

namespace HalfLinked

variable {α ω : Type}

/-- `xs` is linked by `next`, but for the links that are pending.  The last node has no link. -/
def Links (next : α → Option α) (pend : α → Option (α × ω)) : List α → Prop
  | [] => True
  | [a] => next a = none ∧ pend a = none
  | a :: b :: rest =>
    ((next a = some b ∧ pend a = none) ∨ (next a = none ∧ ∃ w, pend a = some (b, w))) ∧
      Links next pend (b :: rest)

namespace Links

variable {next next' : α → Option α} {pend pend' : α → Option (α × ω)} {xs : List α} {a b n : α}
  {w : ω}

theorem congr (h : Links next pend xs) (hnext : ∀ x ∈ xs, next' x = next x)
    (hpend : ∀ x ∈ xs, pend' x = pend x) : Links next' pend' xs := by
  induction xs with
  | nil => trivial
  | cons a xs ih =>
    have hna := hnext a List.mem_cons_self
    have hpa := hpend a List.mem_cons_self
    cases xs with
    | nil => exact ⟨hna.trans h.1, hpa.trans h.2⟩
    | cons b rest =>
      obtain ⟨hlink, hrest⟩ := h
      refine ⟨?_, ih hrest (fun x hx => hnext x (List.mem_cons_of_mem _ hx))
        fun x hx => hpend x (List.mem_cons_of_mem _ hx)⟩
      rw [hna, hpa]
      exact hlink

theorem tail (h : Links next pend (a :: xs)) : Links next pend xs := by
  cases xs with
  | nil => trivial
  | cons b rest => exact h.2

/-- A stored link leads to the node that follows. -/
theorem of_next (h : Links next pend (a :: xs)) (hnext : next a = some b) :
    pend a = none ∧ ∃ ys, xs = b :: ys := by
  cases xs with
  | nil =>
    rw [h.1] at hnext
    cases hnext
  | cons c rest =>
    rcases h.1 with ⟨hlink, hpend⟩ | ⟨hlink, _⟩
    · obtain rfl : c = b := Option.some.inj (hlink.symm.trans hnext)
      exact ⟨hpend, rest, rfl⟩
    · rw [hlink] at hnext
      cases hnext

/-- A node without a link is the last one, or its link is pending. -/
theorem of_next_none (h : Links next pend (a :: xs)) (hnext : next a = none) :
    (xs = [] ∧ pend a = none) ∨ ∃ b ys w, xs = b :: ys ∧ pend a = some (b, w) := by
  cases xs with
  | nil => exact .inl ⟨rfl, h.2⟩
  | cons c rest =>
    rcases h.1 with ⟨hlink, _⟩ | ⟨_, w, hpend⟩
    · rw [hlink] at hnext
      cases hnext
    · exact .inr ⟨c, rest, w, rfl, hpend⟩

theorem last (h : Links next pend (xs ++ [a])) : next a = none ∧ pend a = none := by
  induction xs with
  | nil => exact h
  | cons x xs ih => exact ih (tail h)

theorem next_of_pend (h : Links next pend xs) (ha : a ∈ xs) (hp : pend a = some (b, w)) :
    next a = none := by
  induction xs with
  | nil => cases ha
  | cons x xs ih =>
    rcases List.mem_cons.mp ha with rfl | hx
    · cases hnext : next a with
      | none => rfl
      | some c =>
        have := (h.of_next hnext).1
        rw [this] at hp
        cases hp
    · exact ih h.tail hx

section

variable [DecidableEq α]

/-- A new end is exchanged in; its writer still has to link it to the old one. -/
theorem exchange (h : Links next pend (xs ++ [a])) (nodup : (xs ++ [a]).Nodup)
    (fresh : n ∉ xs ++ [a]) (hnext : next n = none) (hpend : pend n = none) (w : ω) :
    Links next (Function.update pend a (some (n, w))) (xs ++ [a] ++ [n]) := by
  have hna : n ≠ a := by
    rintro rfl
    exact fresh (by simp)
  induction xs with
  | nil =>
    refine ⟨.inr ⟨h.1, w, Function.update_self ..⟩, hnext, ?_⟩
    rw [Function.update_of_ne hna]
    exact hpend
  | cons x xs ih =>
    have hxa : x ≠ a := by
      rintro rfl
      simp at nodup
    have hrest := ih h.tail (List.nodup_cons.mp nodup).2 fun hn => fresh (List.mem_cons_of_mem _ hn)
    obtain ⟨y, ys, hys⟩ : ∃ y ys, xs ++ [a] = y :: ys := by
      cases xs with
      | nil => exact ⟨a, [], rfl⟩
      | cons y ys => exact ⟨y, ys ++ [a], rfl⟩
    rw [hys] at hrest
    show Links next _ (x :: (xs ++ [a] ++ [n]))
    rw [hys]
    refine ⟨?_, hrest⟩
    rw [Function.update_of_ne hxa]
    have hlink : Links next pend (x :: (xs ++ [a])) := h
    rw [hys] at hlink
    exact hlink.1

/-- A pending link is stored. -/
theorem store (h : Links next pend xs) (nodup : xs.Nodup) (ha : a ∈ xs)
    (hp : pend a = some (b, w)) :
    Links (Function.update next a (some b)) (Function.update pend a none) xs := by
  induction xs with
  | nil => cases ha
  | cons x xs ih =>
    obtain ⟨hx, nodup⟩ := List.nodup_cons.mp nodup
    by_cases hxa : x = a
    · subst hxa
      have hrest : Links (Function.update next x (some b)) (Function.update pend x none) xs := by
        have hne : ∀ y ∈ xs, y ≠ x := by
          rintro y hy rfl
          exact hx hy
        exact h.tail.congr (fun y hy => Function.update_of_ne (hne y hy) ..)
          fun y hy => Function.update_of_ne (hne y hy) ..
      rcases h.of_next_none (h.next_of_pend ha hp) with ⟨_, hnone⟩ | ⟨c, ys, v, rfl, hpend⟩
      · rw [hnone] at hp
        cases hp
      · obtain rfl : c = b := by
          have := Option.some.inj (hpend.symm.trans hp)
          exact congrArg Prod.fst this
        refine ⟨.inl ⟨?_, ?_⟩, hrest⟩
        · rw [Function.update_self]
        · rw [Function.update_self]
    · have hmem : a ∈ xs := (List.mem_cons.mp ha).resolve_left (Ne.symm hxa)
      have hrest := ih h.tail nodup hmem
      cases xs with
      | nil => cases hmem
      | cons y ys =>
        refine ⟨?_, hrest⟩
        rw [Function.update_of_ne hxa, Function.update_of_ne hxa]
        exact h.1

/-- Writes to nodes outside the chain do not matter. -/
theorem write (h : Links next pend xs) (outside : n ∉ xs) (v : Option α) :
    Links (Function.update next n v) pend xs := by
  refine h.congr (fun x hx => ?_) fun _ _ => rfl
  have hne : x ≠ n := by
    rintro rfl
    exact outside hx
  exact Function.update_of_ne hne ..

end

end Links

end HalfLinked
