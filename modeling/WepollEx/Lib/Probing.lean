import Mathlib.Data.List.FinRange
import Mathlib.Data.Nat.Basic
import Mathlib.Logic.Function.Basic
import Mathlib.Tactic.Common
import WepollEx.Lib.Counting

/-!
# Linear probing

A table of `n` slots in which an entry is looked for from its home slot on, slot by slot and around
the end, up to the first free slot.  Seen from a free slot there is no way around the end: `rank`
numbers the slots from the one behind a free slot, and along the ranks a probe only goes up.
-/

namespace Probing

variable {α : Type}

/-- The next slot. -/
def step (n p : Nat) : Nat := (p + 1) % n

/-- Go from slot to slot until one satisfies `stop`, for at most `fuel` slots. -/
def seek (n : Nat) (stop : Nat → Bool) : Nat → Nat → Option Nat
  | 0, _ => none
  | fuel + 1, p => if stop p then some p else seek n stop fuel (step n p)

/-- The number of a slot, counted from the slot behind `e`. -/
def rank (n e p : Nat) : Nat := if e < p then p - e - 1 else p + n - e - 1

section

variable {n e p q : Nat}

theorem step_lt (hp : p < n) : step n p < n := Nat.mod_lt _ (by omega)

theorem step_eq (hp : p < n) : step n p = if p + 1 = n then 0 else p + 1 := by
  unfold step
  split
  · rename_i hn
    rw [hn, Nat.mod_self]
  · exact Nat.mod_eq_of_lt (by omega)

theorem rank_lt (he : e < n) (hp : p < n) : rank n e p < n := by
  unfold rank
  split <;> omega

theorem rank_inj (he : e < n) (hp : p < n) (hq : q < n) (h : rank n e p = rank n e q) : p = q := by
  unfold rank at h
  split at h <;> split at h <;> omega

theorem rank_self (he : e < n) : rank n e e + 1 = n := by
  unfold rank
  split <;> omega

theorem rank_lt_of_ne (he : e < n) (hp : p < n) (hne : p ≠ e) : rank n e p + 1 < n := by
  unfold rank
  split <;> omega

theorem rank_step (he : e < n) (hp : p < n) (hne : p ≠ e) :
    rank n e (step n p) = rank n e p + 1 := by
  rw [step_eq hp]
  unfold rank
  split <;> split <;> split <;> omega

/-! ## Probes -/

/-- A probe comes to the first slot that stops it, if `e` does. -/
theorem seek_spec {stop : Nat → Bool} (he : e < n) (hstop : stop e = true) :
    ∀ {fuel p : Nat}, p < n → n ≤ rank n e p + fuel → ∃ t, seek n stop fuel p = some t ∧ t < n ∧
      stop t = true ∧ rank n e p ≤ rank n e t ∧
      ∀ q < n, rank n e p ≤ rank n e q → rank n e q < rank n e t → stop q = false := by
  intro fuel
  induction fuel with
  | zero =>
    intro p hp hfuel
    have := rank_lt he hp
    omega
  | succ fuel ih =>
    intro p hp hfuel
    rw [seek]
    split
    · rename_i hp'
      exact ⟨p, rfl, hp, hp', Nat.le_refl _, fun q _ hle hlt => by omega⟩
    rename_i hgo
    have hne : p ≠ e := by
      rintro rfl
      exact hgo hstop
    have hrank := rank_step he hp hne
    obtain ⟨t, ht, htn, hts, hle, hbetween⟩ := ih (step_lt hp) (by omega)
    refine ⟨t, ht, htn, hts, by omega, fun q hq hpq hqt => ?_⟩
    rcases Nat.lt_or_eq_of_le hpq with hlt | heq
    · exact hbetween q hq (by omega) hqt
    · obtain rfl := rank_inj he hp hq heq
      simpa using hgo

end

/-! ## Clusters -/

/-- The content of the slots. -/
abbrev Slots (α : Type) := Nat → Option α

/-- No entry is separated from its home slot by a free slot. -/
def Clustered (n : Nat) (home : α → Nat) (slots : Slots α) : Prop :=
  ∀ p < n, ∀ x, slots p = some x → ∃ d < n, p = (home x + d) % n ∧
    ∀ j < d, slots ((home x + j) % n) ≠ none

/-- The same, along the ranks from the free slot `e`, where an entry behind slot `limit` may have
gaps up to `limit` in front of it. -/
def NearFrom (n : Nat) (home : α → Nat) (slots : Slots α) (e limit : Nat) : Prop :=
  ∀ p < n, ∀ x, slots p = some x → rank n e (home x) ≤ rank n e p ∧
    ∀ q < n, rank n e (home x) ≤ rank n e q → rank n e q < rank n e p →
      slots q ≠ none ∨ (rank n e q ≤ limit ∧ limit < rank n e p)

/-- No gaps. -/
def Near (n : Nat) (home : α → Nat) (slots : Slots α) (e : Nat) : Prop :=
  ∀ p < n, ∀ x, slots p = some x → rank n e (home x) ≤ rank n e p ∧
    ∀ q < n, rank n e (home x) ≤ rank n e q → rank n e q < rank n e p → slots q ≠ none

section

variable {n e : Nat} {home : α → Nat} {slots : Slots α}

/-- The ranks of the slots from `h` on, up to `e`. -/
theorem rank_add (he : e < n) {h : Nat} (hh : h < n) (j : Nat) (hne : ∀ i < j, (h + i) % n ≠ e) :
    rank n e ((h + j) % n) = rank n e h + j := by
  induction j with
  | zero => rw [Nat.add_zero, Nat.mod_eq_of_lt hh, Nat.add_zero]
  | succ j ih =>
    have hlt : (h + j) % n < n := Nat.mod_lt _ (by omega)
    have hstep : (h + (j + 1)) % n = step n ((h + j) % n) := by
      rw [step, Nat.mod_add_mod, Nat.add_assoc]
    rw [hstep, rank_step he hlt (hne j (Nat.lt_succ_self j)),
      ih fun i hi => hne i (Nat.lt_succ_of_lt hi), Nat.add_assoc]

theorem Clustered.near (h : Clustered n home slots) (hhome : ∀ x, home x < n) (he : e < n)
    (free : slots e = none) : Near n home slots e := by
  intro p hp x hx
  obtain ⟨d, hd, rfl, hpath⟩ := h p hp x hx
  have hne : ∀ i < d, (home x + i) % n ≠ e := by
    intro i hi heq
    exact hpath i hi (heq ▸ free)
  have hrank := rank_add he (hhome x) d hne
  refine ⟨by omega, fun q hq hle hlt => ?_⟩
  -- the slot at the distance of the ranks
  have hj : rank n e q - rank n e (home x) < d := by omega
  have hrank' := rank_add he (hhome x) _ fun i hi => hne i (Nat.lt_trans hi hj)
  have hslot : (home x + (rank n e q - rank n e (home x))) % n = q :=
    rank_inj he (Nat.mod_lt _ (by omega)) hq (by omega)
  rw [← hslot]
  exact hpath _ hj

theorem Near.clustered (h : Near n home slots e) (hhome : ∀ x, home x < n) (he : e < n)
    (free : slots e = none) : Clustered n home slots := by
  intro p hp x hx
  obtain ⟨hle, hpath⟩ := h p hp x hx
  have hpe : p ≠ e := by
    rintro rfl
    rw [free] at hx
    cases hx
  have hpr := rank_lt_of_ne he hp hpe
  have hself := rank_self he
  -- on the way from home no slot is `e`, as its rank is the last
  have hne : ∀ j ≤ rank n e p - rank n e (home x), ∀ i < j, (home x + i) % n ≠ e := by
    intro j hj
    induction j with
    | zero => intro i hi; omega
    | succ j ih =>
      intro i hi heq
      have hrank := rank_add he (hhome x) i fun i' hi' => ih (by omega) i' (by omega)
      rw [heq] at hrank
      omega
  refine ⟨rank n e p - rank n e (home x), by omega, ?_, fun j hj => ?_⟩
  · have hrank := rank_add he (hhome x) _ (hne _ (Nat.le_refl _))
    exact rank_inj he hp (Nat.mod_lt _ (by omega)) (by omega)
  · have hrank := rank_add he (hhome x) j (hne j (by omega))
    exact hpath _ (Nat.mod_lt _ (by omega)) (by omega) (by omega)

/-! ## Placing an entry -/

/-- A slot is free. -/
def free (slots : Slots α) (p : Nat) : Bool := (slots p).isNone

theorem free_iff {p : Nat} : free slots p = true ↔ slots p = none := Option.isNone_iff_eq_none

/-- `t` is the first free slot from `h` on. -/
structure First (n e : Nat) (slots : Slots α) (h t : Nat) : Prop where
  lt : t < n
  free : slots t = none
  le : rank n e h ≤ rank n e t
  full : ∀ q < n, rank n e h ≤ rank n e q → rank n e q < rank n e t → slots q ≠ none

/-- A probe for a free slot finds the first one, and any free slot numbers the slots in a way
that fits the probe. -/
theorem seek_free (he : e < n) (hfree : slots e = none) {h : Nat} (hh : h < n) :
    ∃ t, seek n (free slots) n h = some t ∧
      ∀ e' < n, slots e' = none → First n e' slots h t := by
  have hfirst : ∀ e' < n, slots e' = none →
      ∃ t, seek n (free slots) n h = some t ∧ First n e' slots h t := by
    intro e' he' hfree'
    obtain ⟨t, ht, htn, hts, hle, hfull⟩ :=
      seek_spec he' (free_iff.mpr hfree') hh (Nat.le_add_left n _)
    refine ⟨t, ht, htn, free_iff.mp hts, hle, fun q hq h1 h2 hnone => ?_⟩
    have hgo := hfull q hq h1 h2
    rw [free_iff.mpr hnone] at hgo
    cases hgo
  obtain ⟨t, ht, -⟩ := hfirst e he hfree
  refine ⟨t, ht, fun e' he' hfree' => ?_⟩
  obtain ⟨t', ht', first⟩ := hfirst e' he' hfree'
  obtain rfl := Option.some.inj (ht.symm.trans ht')
  exact first

theorem Near.place {x : α} {t : Nat} (h : Near n home slots e)
    (first : First n e slots (home x) t) : Near n home (Function.update slots t (some x)) e := by
  have hgrow : ∀ q, slots q ≠ none → Function.update slots t (some x) q ≠ none := by
    intro q hq
    by_cases hqt : q = t
    · simp [hqt]
    · rwa [Function.update_of_ne hqt]
  intro p hp y hy
  by_cases hpt : p = t
  · subst hpt
    rw [Function.update_self] at hy
    cases hy
    exact ⟨first.le, fun q hq h1 h2 => hgrow q (first.full q hq h1 h2)⟩
  · rw [Function.update_of_ne hpt] at hy
    obtain ⟨hle, hfull⟩ := h p hp y hy
    exact ⟨hle, fun q hq h1 h2 => hgrow q (hfull q hq h1 h2)⟩

/-- Placing an entry where its probe ends, if that leaves a free slot. -/
theorem Clustered.place {x : α} {t : Nat} (h : Clustered n home slots) (hhome : ∀ x, home x < n)
    (hfirst : ∀ e' < n, slots e' = none → First n e' slots (home x) t)
    (room : ∃ e' < n, Function.update slots t (some x) e' = none) :
    Clustered n home (Function.update slots t (some x)) := by
  obtain ⟨e', he', hfree'⟩ := room
  have hfree : slots e' = none := by
    by_cases heq : e' = t
    · rw [heq, Function.update_self] at hfree'
      cases hfree'
    · rwa [Function.update_of_ne heq] at hfree'
  exact ((h.near hhome he' hfree).place (hfirst e' he' hfree)).clustered hhome he' hfree'

/-! ## Closing a gap -/

/-- Put the entries behind `slot` back in, up to the first free slot. -/
def closeGap (n : Nat) (home : α → Nat) : Nat → Nat → Slots α → Option (Slots α)
  | 0, _, _ => none
  | fuel + 1, slot, slots =>
    let scan := step n slot
    match slots scan with
    | none => some slots
    | some moved =>
      let slots := Function.update slots scan none
      match seek n (free slots) n (home moved) with
      | none => none
      | some target => closeGap n home fuel scan (Function.update slots target (some moved))

/-- Taking an entry out leaves a gap in front of those behind it. -/
theorem Near.take {p : Nat} (h : Near n home slots e) :
    NearFrom n home (Function.update slots p none) e (rank n e p) := by
  intro q hq x hx
  have hqp : q ≠ p := by
    rintro rfl
    rw [Function.update_self] at hx
    cases hx
  rw [Function.update_of_ne hqp] at hx
  obtain ⟨hle, hfull⟩ := h q hq x hx
  refine ⟨hle, fun r hr h1 h2 => ?_⟩
  by_cases hrp : r = p
  · subst hrp
    exact .inr ⟨Nat.le_refl _, h2⟩
  · rw [Function.update_of_ne hrp]
    exact .inl (hfull r hr h1 h2)

/-- A gap that ends at a free slot is none: an entry behind the free slot would have to get past
it. -/
theorem NearFrom.near {slot : Nat} (h : NearFrom n home slots e (rank n e slot)) (he : e < n)
    (hs : slot < n) (hse : slot ≠ e) (hend : slots (step n slot) = none) :
    Near n home slots e := by
  have hrank := rank_step he hs hse
  have hlt := step_lt hs
  intro p hp x hx
  obtain ⟨hle, hfull⟩ := h p hp x hx
  refine ⟨hle, fun q hq h1 h2 => (hfull q hq h1 h2).resolve_right fun ⟨hgap, hbehind⟩ => ?_⟩
  have hne : rank n e (step n slot) ≠ rank n e p := by
    intro heq
    rw [rank_inj he hlt hp heq, hx] at hend
    cases hend
  rcases hfull _ hlt (by omega) (by omega) with hoccupied | hgap'
  · exact hoccupied hend
  · omega

/-- Moving the entry behind the gap to the first free slot from its home moves the gap on. -/
theorem NearFrom.move {slot t : Nat} {x : α} (h : NearFrom n home slots e (rank n e slot))
    (he : e < n) (hs : slot < n) (hse : slot ≠ e)
    (first : First n e (Function.update slots (step n slot) none) (home x) t) :
    NearFrom n home (Function.update (Function.update slots (step n slot) none) t (some x)) e
      (rank n e (step n slot)) := by
  have hrank := rank_step he hs hse
  have hlt := step_lt hs
  set scan := step n slot
  set slots1 := Function.update slots scan none with hslots1
  have hgrow : ∀ q, slots1 q ≠ none → Function.update slots1 t (some x) q ≠ none := by
    intro q hq
    by_cases hqt : q = t
    · simp [hqt]
    · rwa [Function.update_of_ne hqt]
  intro p hp y hy
  by_cases hpt : p = t
  · subst hpt
    rw [Function.update_self] at hy
    cases hy
    exact ⟨first.le, fun q hq h1 h2 => .inl (hgrow q (first.full q hq h1 h2))⟩
  rw [Function.update_of_ne hpt] at hy
  have hps : p ≠ scan := by
    rintro rfl
    rw [hslots1, Function.update_self] at hy
    cases hy
  rw [hslots1, Function.update_of_ne hps] at hy
  have hne : rank n e p ≠ rank n e scan := fun heq => hps (rank_inj he hp hlt heq)
  obtain ⟨hle, hfull⟩ := h p hp y hy
  refine ⟨hle, fun q hq h1 h2 => ?_⟩
  by_cases hqs : q = scan
  · subst hqs
    exact .inr ⟨Nat.le_refl _, h2⟩
  rcases hfull q hq h1 h2 with hoccupied | ⟨hgap, hbehind⟩
  · refine .inl (hgrow q ?_)
    rwa [hslots1, Function.update_of_ne hqs]
  · exact .inr ⟨by omega, by omega⟩

/-! ## The entries -/

/-- `x` is in the table. -/
def Holds (n : Nat) (slots : Slots α) (x : α) : Prop := ∃ p < n, slots p = some x

/-- No entry is in two slots. -/
def Once (n : Nat) (slots : Slots α) : Prop :=
  ∀ p < n, ∀ q < n, ∀ x, slots p = some x → slots q = some x → p = q

theorem holds_place {x : α} {t : Nat} (ht : t < n) (hfree : slots t = none) (y : α) :
    Holds n (Function.update slots t (some x)) y ↔ y = x ∨ Holds n slots y := by
  constructor
  · rintro ⟨p, hp, hy⟩
    by_cases hpt : p = t
    · rw [hpt, Function.update_self] at hy
      exact .inl (Option.some.inj hy).symm
    · rw [Function.update_of_ne hpt] at hy
      exact .inr ⟨p, hp, hy⟩
  · rintro (rfl | ⟨p, hp, hy⟩)
    · exact ⟨t, ht, Function.update_self ..⟩
    · refine ⟨p, hp, ?_⟩
      rwa [Function.update_of_ne]
      rintro rfl
      rw [hfree] at hy
      cases hy

theorem Once.place {x : α} {t : Nat} (h : Once n slots) (hx : ¬Holds n slots x) :
    Once n (Function.update slots t (some x)) := by
  intro p hp q hq y hpy hqy
  by_cases hpt : p = t <;> by_cases hqt : q = t
  · rw [hpt, hqt]
  · rw [hpt, Function.update_self] at hpy
    rw [Function.update_of_ne hqt] at hqy
    exact absurd ⟨q, hq, hqy.trans hpy.symm⟩ hx
  · rw [hqt, Function.update_self] at hqy
    rw [Function.update_of_ne hpt] at hpy
    exact absurd ⟨p, hp, hpy.trans hqy.symm⟩ hx
  · rw [Function.update_of_ne hpt] at hpy
    rw [Function.update_of_ne hqt] at hqy
    exact h p hp q hq y hpy hqy

theorem holds_take {x : α} {p : Nat} (h : Once n slots) (hp : p < n) (hx : slots p = some x)
    (y : α) : Holds n (Function.update slots p none) y ↔ y ≠ x ∧ Holds n slots y := by
  constructor
  · rintro ⟨q, hq, hy⟩
    have hqp : q ≠ p := by
      rintro rfl
      rw [Function.update_self] at hy
      cases hy
    rw [Function.update_of_ne hqp] at hy
    refine ⟨?_, q, hq, hy⟩
    rintro rfl
    exact hqp (h q hq p hp y hy hx)
  · rintro ⟨hyx, q, hq, hy⟩
    refine ⟨q, hq, ?_⟩
    rwa [Function.update_of_ne]
    rintro rfl
    exact hyx (Option.some.inj (hy.symm.trans hx))

theorem Once.take {p : Nat} (h : Once n slots) : Once n (Function.update slots p none) := by
  intro q hq r hr x hqx hrx
  have hsome : ∀ q, Function.update slots p none q = some x → slots q = some x := by
    intro q hqx
    by_cases hqp : q = p
    · rw [hqp, Function.update_self] at hqx
      cases hqx
    · rwa [Function.update_of_ne hqp] at hqx
  exact h q hq r hr x (hsome q hqx) (hsome r hrx)

/-- A table with fewer entries than slots has a free slot. -/
theorem exists_free {P : α → Prop} {count : Nat} (h : Counting.Counts P count)
    (holds : ∀ x, Holds n slots x → P x) (once : Once n slots) (room : count < n) :
    ∃ e < n, slots e = none := by
  by_contra hfull
  have hentry : ∀ p : Fin n, ∃ x, slots p = some x := by
    intro p
    by_contra hnone
    refine hfull ⟨p, p.isLt, ?_⟩
    rw [Option.eq_none_iff_forall_ne_some]
    exact fun x hx => hnone ⟨x, hx⟩
  choose entry hentry using hentry
  have hinj : Function.Injective entry := by
    intro p q hpq
    have hq := hentry q
    rw [← hpq] at hq
    exact Fin.ext (once p p.isLt q q.isLt (entry p) (hentry p) hq)
  have hle := h.length_le ((List.nodup_finRange n).map hinj) fun x hx => by
    obtain ⟨p, -, rfl⟩ := List.mem_map.mp hx
    exact holds _ ⟨p, p.isLt, hentry p⟩
  rw [List.length_map, List.length_finRange] at hle
  omega

/-- The whole loop: it ends, and it leaves the same entries without a gap. -/
theorem closeGap_spec (hhome : ∀ x, home x < n) (he : e < n) (fuel : Nat) :
    ∀ {slot : Nat} {slots : Slots α}, slot < n → slot ≠ e → slots e = none →
      NearFrom n home slots e (rank n e slot) → Once n slots → n ≤ rank n e slot + 1 + fuel →
      ∃ slots', closeGap n home fuel slot slots = some slots' ∧ slots' e = none ∧
        Near n home slots' e ∧ Once n slots' ∧ ∀ x, Holds n slots' x ↔ Holds n slots x := by
  induction fuel with
  | zero =>
    intro slot slots hs hse _ _ _ hfuel
    have := rank_lt_of_ne he hs hse
    omega
  | succ fuel ih =>
    intro slot slots hs hse hfree h once hfuel
    have hrank := rank_step he hs hse
    have hlt := step_lt hs
    unfold closeGap
    dsimp only
    cases hx : slots (step n slot) with
    | none => exact ⟨slots, rfl, hfree, h.near he hs hse hx, once, fun _ => Iff.rfl⟩
    | some x =>
      have hscan : step n slot ≠ e := by
        intro heq
        rw [heq, hfree] at hx
        cases hx
      have hfree1 : Function.update slots (step n slot) none e = none := by
        rwa [Function.update_of_ne hscan.symm]
      obtain ⟨t, ht, hfirst⟩ := seek_free he hfree1 (hhome x)
      have first := hfirst e he hfree1
      have hle := (h _ hlt x hx).1
      -- the freed slot itself ends the probe
      have hte : t ≠ e := by
        rintro rfl
        have hself := rank_self he
        have hnext := rank_lt_of_ne he hlt hscan
        exact first.full _ hlt hle (by omega) (Function.update_self ..)
      have htake := holds_take once hlt hx
      have honce := (once.take (p := step n slot)).place (t := t)
        (fun hheld => ((htake x).mp hheld).1 rfl)
      obtain ⟨slots', hrun, hfree', hnear', honce', hholds'⟩ := ih hlt hscan
        (by rwa [Function.update_of_ne hte.symm]) (h.move he hs hse first) honce (by omega)
      simp only [ht]
      refine ⟨slots', hrun, hfree', hnear', honce', fun y => ?_⟩
      rw [hholds' y, holds_place first.lt first.free, htake y]
      constructor
      · rintro (rfl | ⟨-, hy⟩)
        · exact ⟨_, hlt, hx⟩
        · exact hy
      · intro hy
        by_cases hyx : y = x
        · exact .inl hyx
        · exact .inr ⟨hyx, hy⟩

end

end Probing
