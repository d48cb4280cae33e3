import Mathlib.Data.List.Nodup
import WepollEx.Api.Descriptors

/-!
# The descriptor table and its allocator

The table is a partial map from descriptors to entries, and the allocator goes once around all
positive integers.
-/

namespace WepollEx.Api

/-- Every descriptor is positive, in its bucket, and there once. -/
structure Buckets.Ok (t : Buckets) : Prop where
  range : ∀ b, ∀ e ∈ t b, 0 < e.fd ∧ e.fd ≤ INT_MAX
  bucket : ∀ b, ∀ e ∈ t b, epfdBucket e.fd = b
  nodup : ∀ b, ((t b).map Entry.fd).Nodup

namespace Buckets

variable {t : Buckets} {fd fd' : Int} {e : Entry} {s : SharedAddr}

theorem Ok.find_iff (h : t.Ok) :
    t.epfdFindLocked fd = some e ↔ e ∈ t (epfdBucket fd) ∧ e.fd = fd := by
  unfold epfdFindLocked
  constructor
  · intro hfind
    split at hfind
    · cases hfind
    · exact ⟨List.mem_of_find?_eq_some hfind, by simpa using List.find?_some hfind⟩
  · rintro ⟨hmem, rfl⟩
    rw [if_neg (by have := (h.range _ e hmem).1; omega)]
    cases hfind : (t (epfdBucket e.fd)).find? fun f => f.fd = e.fd with
    | none =>
      have := List.find?_eq_none.mp hfind e hmem
      simp at this
    | some f =>
      have hf : f.fd = e.fd := by simpa using List.find?_some hfind
      rw [List.inj_on_of_nodup_map (h.nodup _) (List.mem_of_find?_eq_some hfind) hmem hf]

theorem Ok.find_fd (h : t.Ok) (hfind : t.epfdFindLocked fd = some e) : e = ⟨fd, e.shared⟩ := by
  obtain ⟨_, rfl⟩ := h.find_iff.mp hfind
  rfl

theorem Ok.find_range (h : t.Ok) (hfind : t.epfdFindLocked fd = some e) :
    0 < fd ∧ fd ≤ INT_MAX := by
  obtain ⟨hmem, rfl⟩ := h.find_iff.mp hfind
  exact h.range _ e hmem

theorem Ok.notMem_of_find_none (h : t.Ok) (hfind : t.epfdFindLocked fd = none) :
    fd ∉ (t (epfdBucket fd)).map Entry.fd := by
  intro hmem
  obtain ⟨f, hf, rfl⟩ := List.mem_map.mp hmem
  rw [h.find_iff.mpr ⟨hf, rfl⟩] at hfind
  cases hfind

theorem Ok.insert (h : t.Ok) (free : t.epfdFindLocked fd = none) (pos : 0 < fd)
    (max : fd ≤ INT_MAX) : (t.epfdInsertLocked ⟨fd, s⟩).Ok := by
  have hcases : ∀ b, ∀ f ∈ t.epfdInsertLocked ⟨fd, s⟩ b,
      (f = ⟨fd, s⟩ ∧ b = epfdBucket fd) ∨ f ∈ t b := by
    intro b f hf
    unfold epfdInsertLocked at hf
    by_cases hb : b = epfdBucket fd
    · subst hb
      rw [Function.update_self] at hf
      exact (List.mem_cons.mp hf).imp (fun hc => ⟨hc, rfl⟩) id
    · rw [Function.update_of_ne hb] at hf
      exact .inr hf
  refine ⟨fun b f hf => ?_, fun b f hf => ?_, fun b => ?_⟩
  · rcases hcases b f hf with ⟨rfl, _⟩ | hold
    · exact ⟨pos, max⟩
    · exact h.range b f hold
  · rcases hcases b f hf with ⟨rfl, rfl⟩ | hold
    · rfl
    · exact h.bucket b f hold
  · unfold epfdInsertLocked
    by_cases hb : b = epfdBucket fd
    · subst hb
      rw [Function.update_self, List.map_cons]
      exact List.nodup_cons.mpr ⟨h.notMem_of_find_none free, h.nodup _⟩
    · rw [Function.update_of_ne hb]
      exact h.nodup b

theorem Ok.find_insert (h : t.Ok) (free : t.epfdFindLocked fd = none) (pos : 0 < fd)
    (max : fd ≤ INT_MAX) (fd' : Int) :
    (t.epfdInsertLocked ⟨fd, s⟩).epfdFindLocked fd' =
      if fd' = fd then some ⟨fd, s⟩ else t.epfdFindLocked fd' := by
  have hok := h.insert (s := s) free pos max
  split
  case isTrue heq =>
    subst heq
    refine hok.find_iff.mpr ⟨?_, rfl⟩
    show _ ∈ Function.update t (epfdBucket fd') _ (epfdBucket fd')
    rw [Function.update_self]
    exact List.mem_cons_self
  case isFalse hne =>
    have hmem : ∀ f : Entry, f.fd = fd' →
        (f ∈ t.epfdInsertLocked ⟨fd, s⟩ (epfdBucket fd') ↔ f ∈ t (epfdBucket fd')) := by
      intro f hf
      unfold epfdInsertLocked
      by_cases hb : epfdBucket fd' = epfdBucket fd
      · rw [hb, Function.update_self, List.mem_cons]
        refine or_iff_right ?_
        rintro rfl
        exact hne hf.symm
      · rw [Function.update_of_ne hb]
    refine Option.ext fun f => ?_
    rw [hok.find_iff, h.find_iff]
    exact and_congr_left fun hf => hmem f hf

theorem Ok.unlink (h : t.Ok) (e : Entry) : (t.epfdUnlinkLocked e).Ok := by
  have hsub : ∀ b, (t.epfdUnlinkLocked e b).Sublist (t b) := by
    intro b
    unfold epfdUnlinkLocked
    by_cases hb : b = epfdBucket e.fd
    · subst hb
      rw [Function.update_self]
      exact List.erase_sublist
    · rw [Function.update_of_ne hb]
  exact
    { range := fun b f hf => h.range b f ((hsub b).mem hf)
      bucket := fun b f hf => h.bucket b f ((hsub b).mem hf)
      nodup := fun b => (h.nodup b).sublist ((hsub b).map _) }

theorem Ok.find_unlink (h : t.Ok) (hfind : t.epfdFindLocked fd = some e) (fd' : Int) :
    (t.epfdUnlinkLocked e).epfdFindLocked fd' =
      if fd' = fd then none else t.epfdFindLocked fd' := by
  have hok := h.unlink e
  obtain ⟨hmem, rfl⟩ := h.find_iff.mp hfind
  have hnodup : (t (epfdBucket e.fd)).Nodup := List.Nodup.of_map _ (h.nodup _)
  refine Option.ext fun f => ?_
  rw [hok.find_iff]
  by_cases hb : epfdBucket fd' = epfdBucket e.fd
  · unfold epfdUnlinkLocked
    rw [hb, Function.update_self, hnodup.mem_erase_iff]
    split
    case isTrue heq =>
      subst heq
      simp only [reduceCtorEq, iff_false]
      rintro ⟨⟨hne, hf⟩, hfd⟩
      exact hne (List.inj_on_of_nodup_map (h.nodup _) hf hmem hfd)
    case isFalse hne =>
      rw [h.find_iff, hb]
      constructor
      · rintro ⟨⟨_, hf⟩, hfd⟩
        exact ⟨hf, hfd⟩
      · rintro ⟨hf, hfd⟩
        refine ⟨⟨?_, hf⟩, hfd⟩
        rintro rfl
        exact hne hfd.symm
  · have hne : fd' ≠ e.fd := by
      rintro rfl
      exact hb rfl
    rw [if_neg hne, h.find_iff]
    unfold epfdUnlinkLocked
    rw [Function.update_of_ne hb]

/-! ## The allocator -/

/-- The value of `g_next_fd` after `k` candidates. -/
def after (k : Nat) (next : Int) : Int := (next - 1 + k) % INT_MAX + 1

theorem after_zero {next : Int} (pos : 1 ≤ next) (max : next ≤ INT_MAX) : after 0 next = next := by
  unfold after INT_MAX at *
  omega

theorem after_succ (next : Int) (k : Nat) :
    after k (nextCandidate next) = after (k + 1) next := by
  unfold after nextCandidate INT_MAX
  split <;> omega

theorem nextCandidate_range {next : Int} (pos : 1 ≤ next) (max : next ≤ INT_MAX) :
    1 ≤ nextCandidate next ∧ nextCandidate next ≤ INT_MAX := by
  unfold nextCandidate INT_MAX at *
  split <;> omega

/-- Around the circle every positive integer is a candidate. -/
theorem exists_after (next : Int) (fdPos : 0 < fd) (fdMax : fd ≤ INT_MAX) :
    ∃ k < 2147483647, after k next = fd := by
  refine ⟨((fd - next) % INT_MAX).toNat, ?_, ?_⟩
  · unfold INT_MAX at *
    omega
  · unfold after INT_MAX at *
    omega

/-- A descriptor that the loop returns is free. -/
theorem allocateLoop_sound (t : Buckets) (attempts : Nat) {next : Int} (pos : 1 ≤ next) (max : next ≤ INT_MAX) :
    1 ≤ (t.allocateLoop attempts next).2 ∧ (t.allocateLoop attempts next).2 ≤ INT_MAX ∧
      (0 < (t.allocateLoop attempts next).1 →
        (t.allocateLoop attempts next).1 ≤ INT_MAX ∧
          t.epfdFindLocked (t.allocateLoop attempts next).1 = none) := by
  induction attempts generalizing next with
  | zero => exact ⟨pos, max, fun h => absurd h (by simp [allocateLoop])⟩
  | succ attempts ih =>
    obtain ⟨hpos, hmax⟩ := nextCandidate_range pos max
    unfold allocateLoop
    split
    case isTrue hfree => exact ⟨hpos, hmax, fun _ => ⟨max, Option.isNone_iff_eq_none.mp hfree.2⟩⟩
    case isFalse => exact ih hpos hmax

/-- A loop that fails has met no free candidate. -/
theorem allocateLoop_failed {attempts : Nat} {next : Int} (pos : 1 ≤ next) (max : next ≤ INT_MAX)
    (failed : ¬0 < (t.allocateLoop attempts next).1) :
    ∀ k < attempts, t.epfdFindLocked (after k next) ≠ none := by
  induction attempts generalizing next with
  | zero =>
    intro k hk
    omega
  | succ attempts ih =>
    obtain ⟨hpos, hmax⟩ := nextCandidate_range pos max
    unfold allocateLoop at failed
    split at failed
    case isTrue hfree => exact absurd hfree.1 failed
    case isFalse hused =>
      intro k hk
      cases k with
      | zero =>
        rw [after_zero pos max]
        intro hnone
        exact hused ⟨by omega, by rw [hnone]; rfl⟩
      | succ k =>
        rw [← after_succ]
        exact ih hpos hmax failed k (by omega)

/-- The allocator finds an unused positive integer whenever there is one. -/
theorem allocate_complete {next : Int} (pos : 1 ≤ next) (max : next ≤ INT_MAX) (fdPos : 0 < fd)
    (fdMax : fd ≤ INT_MAX) (free : t.epfdFindLocked fd = none) :
    0 < (t.epfdAllocateIdLocked next).1 := by
  by_contra hfailed
  obtain ⟨k, hk, hafter⟩ := exists_after next fdPos fdMax
  have hused := allocateLoop_failed pos max hfailed k hk
  rw [hafter] at hused
  exact hused free

end Buckets

end WepollEx.Api
