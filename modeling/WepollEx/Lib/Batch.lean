import Mathlib.Logic.Function.Basic
import Mathlib.Data.List.Basic

/-!
# Batches that undo their additions

A loop that runs a list of operations on a registry, and on the first failure deletes what the
operations before it added, in reverse order and whatever the deletions answer.  The registry is
only known by the entry it shows for each place, and by a law that says how one call changes it.
-/

namespace Batch

variable {σ A κ π ν ε : Type}

inductive Op (κ ν : Type)
  | add (k : κ) (v : ν)
  | mod (k : κ) (v : ν)
  | del (k : κ)
  deriving DecidableEq, Repr

namespace Op

def key : Op κ ν → κ
  | .add k _ => k
  | .mod k _ => k
  | .del k => k

def isAdd : Op κ ν → Bool
  | .add .. => true
  | _ => false

/-- The entry after a success. -/
def result : Op κ ν → Option ν
  | .add _ v => some v
  | .mod _ v => some v
  | .del _ => none

/-- The entry an operation needs to succeed. -/
def Fits : Op κ ν → Option ν → Prop
  | .add .., old => old = none
  | .mod .., old => old ≠ none
  | .del _, old => old ≠ none

end Op

/-! ## The loops -/

/-- Delete what the operations added, the latest first; `done` has the latest operation first. -/
def rollback (call : A → Op κ ν → σ → Option ε × σ) (back : Nat → A) : List (Op κ ν) → σ → σ
  | [], s => s
  | .add k _ :: done, s => rollback call back done (call (back done.length) (.del k) s).2
  | .mod .. :: done, s => rollback call back done s
  | .del _ :: done, s => rollback call back done s

def batch (call : A → Op κ ν → σ → Option ε × σ) (forth back : Nat → A) :
    List (Op κ ν) → List (Op κ ν) → σ → Option ε × σ
  | _, [], s => (none, s)
  | done, op :: ops, s =>
    match call (forth done.length) op s with
    | (none, s) => batch call forth back (op :: done) ops s
    | (some e, s) => (some e, rollback call back done s)

/-- The state after operations that all succeed. -/
def applied (call : A → Op κ ν → σ → Option ε × σ) (forth : Nat → A) :
    Nat → List (Op κ ν) → σ → Option σ
  | _, [], s => some s
  | i, op :: ops, s =>
    match call (forth i) op s with
    | (none, s) => applied call forth (i + 1) ops s
    | (some _, _) => none

theorem applied_cons {call : A → Op κ ν → σ → Option ε × σ} {forth : Nat → A} {i : Nat}
    {op : Op κ ν} {ops : List (Op κ ν)} {s : σ} (h : (call (forth i) op s).1 = none) :
    applied call forth i (op :: ops) s = applied call forth (i + 1) ops (call (forth i) op s).2 := by
  rw [applied]
  generalize call (forth i) op s = r at h ⊢
  obtain ⟨_, s'⟩ := r
  obtain rfl := h
  rfl

/-! ## What is left of a failed batch -/

section

variable [DecidableEq π] (locate : κ → π)

/-- The value a MOD writes at a place. -/
def Op.written (p : π) : Op κ ν → Option ν
  | .mod k v => if locate k = p then some v else none
  | _ => none

/-- The entries after a failure behind the operations `pre`: what was there, without what `pre`
deletes, and with what `pre` wrote last. -/
def survives (entries : π → Option ν) (pre : List (Op κ ν)) (p : π) : Option ν :=
  if entries p = none ∨ ∃ op ∈ pre, op.result = none ∧ locate op.key = p then none
  else (pre.reverse.findSome? (Op.written locate p)).or (entries p)

/-- One of the operations adds to the place. -/
def adds (p : π) (done : List (Op κ ν)) : Bool := done.any fun op => op.isAdd && locate op.key = p

/-- The entries after the operations, the latest first, have succeeded. -/
def after (entries : π → Option ν) : List (Op κ ν) → π → Option ν
  | [] => entries
  | op :: done => Function.update (after entries done) (locate op.key) op.result

/-- Each operation found the entry it needs. -/
def Fitting (entries : π → Option ν) : List (Op κ ν) → Prop
  | [] => True
  | op :: done => op.Fits (after locate entries done (locate op.key)) ∧ Fitting entries done

variable {locate} {entries : π → Option ν} {p : π}

/-- A place becomes empty by a deletion only. -/
theorem empty_after {done : List (Op κ ν)} (h : after locate entries done p = none) :
    entries p = none ∨ ∃ op ∈ done, op.result = none ∧ locate op.key = p := by
  induction done with
  | nil => exact .inl h
  | cons op done ih =>
    by_cases hp : locate op.key = p
    · rw [after, hp, Function.update_self] at h
      exact .inr ⟨op, List.mem_cons_self, h, hp⟩
    · rw [after, Function.update_of_ne (Ne.symm hp)] at h
      exact (ih h).imp_right fun ⟨op', hmem, hop⟩ => ⟨op', List.mem_cons_of_mem _ hmem, hop⟩

/-- An addition needs a place that was empty or has been emptied. -/
theorem added_empty {done : List (Op κ ν)} (h : Fitting locate entries done)
    (hadd : adds locate p done = true) :
    entries p = none ∨ ∃ op ∈ done, op.result = none ∧ locate op.key = p := by
  induction done with
  | nil => cases hadd
  | cons op done ih =>
    have hearlier : entries p = none ∨ ∃ op ∈ done, op.result = none ∧ locate op.key = p := by
      rw [adds, List.any_cons, Bool.or_eq_true, Bool.and_eq_true, decide_eq_true_eq] at hadd
      rcases hadd with ⟨hop, rfl⟩ | hadd
      · cases op with
        | add k v => exact empty_after h.1
        | _ => cases hop
      · exact ih h.2 hadd
    exact hearlier.imp_right fun ⟨op', hmem, hop⟩ => ⟨op', List.mem_cons_of_mem _ hmem, hop⟩

/-- A place that nothing adds to stays empty. -/
theorem stays_empty {done : List (Op κ ν)} (h : Fitting locate entries done)
    (hadd : adds locate p done = false)
    (hempty : entries p = none ∨ ∃ op ∈ done, op.result = none ∧ locate op.key = p) :
    after locate entries done p = none := by
  induction done with
  | nil => exact hempty.resolve_right fun ⟨_, hmem, _⟩ => nomatch hmem
  | cons op done ih =>
    rw [adds, List.any_cons, Bool.or_eq_false_iff] at hadd
    have hrest := ih h.2 hadd.2
    by_cases hp : locate op.key = p
    · rw [after, hp, Function.update_self]
      have hfits := h.1
      rw [hp] at hfits
      cases op with
      | add k v => simp [Op.isAdd, hp] at hadd
      | mod k v =>
        -- an entry to modify contradicts that the place was empty before
        refine absurd (hrest (hempty.imp_right fun ⟨op', hmem, hop⟩ => ⟨op', ?_, hop⟩)) hfits
        rcases List.mem_cons.mp hmem with rfl | hmem
        · cases hop.1
        · exact hmem
      | del k => rfl
    · rw [after, Function.update_of_ne (Ne.symm hp)]
      refine hrest (hempty.imp_right fun ⟨op', hmem, hop⟩ => ⟨op', ?_, hop⟩)
      rcases List.mem_cons.mp hmem with rfl | hmem
      · exact absurd hop.2 hp
      · exact hmem

/-- A place that nothing adds to or deletes has the value of the last MOD. -/
theorem after_modified {done : List (Op κ ν)}
    (hadd : adds locate p done = false)
    (hdel : ∀ op ∈ done, op.result = none → locate op.key ≠ p) :
    after locate entries done p = (done.findSome? (Op.written locate p)).or (entries p) := by
  induction done with
  | nil => rfl
  | cons op done ih =>
    rw [adds, List.any_cons, Bool.or_eq_false_iff] at hadd
    have hrest := ih hadd.2 fun op' hmem => hdel op' (List.mem_cons_of_mem _ hmem)
    rw [after, List.findSome?_cons]
    by_cases hp : locate op.key = p
    · rw [hp, Function.update_self]
      cases op with
      | add k v => simp [Op.isAdd, hp] at hadd
      | mod k v =>
        have hwritten : Op.written locate p (.mod k v : Op κ ν) = some v := if_pos hp
        rw [hwritten]
        rfl
      | del k => exact absurd hp (hdel _ List.mem_cons_self rfl)
    · have hwritten : Op.written locate p op = none := by
        cases op with
        | mod k v => exact if_neg hp
        | _ => rfl
      rw [Function.update_of_ne (Ne.symm hp), hwritten, hrest]

/-- Emptying the places of all additions leaves what survives. -/
theorem survives_eq {done : List (Op κ ν)} (h : Fitting locate entries done) :
    survives locate entries done.reverse p =
      if adds locate p done then none else after locate entries done p := by
  unfold survives
  simp only [List.mem_reverse, List.reverse_reverse]
  split
  · rename_i hempty
    split
    · rfl
    · rename_i hadd
      exact (stays_empty h (Bool.eq_false_iff.mpr hadd) hempty).symm
  · rename_i hkept
    have hadd : adds locate p done = false :=
      Bool.eq_false_iff.mpr fun hadd => hkept (added_empty h hadd)
    rw [hadd, after_modified hadd fun op hmem hres hp => hkept (.inr ⟨op, hmem, hres, hp⟩)]
    rfl

end

/-! ## The law of a failed batch -/

section

variable [DecidableEq π]

/-- What one call does to the entries, as long as `good` holds of the call and its state. -/
structure Lawful (call : A → Op κ ν → σ → Option ε × σ) (locate : κ → π)
    (view : σ → π → Option ν) (good : A → Op κ ν → σ → Prop) (inv : σ → Prop) : Prop where
  keeps : ∀ a op s, inv s → good a op s → inv (call a op s).2
  fails : ∀ a op s e, inv s → good a op s → (call a op s).1 = some e →
    view (call a op s).2 = view s
  succeeds : ∀ a op s, inv s → good a op s → (call a op s).1 = none →
    op.Fits (view s (locate op.key)) ∧
      view (call a op s).2 = Function.update (view s) (locate op.key) op.result

/-- The deletions of a rollback are good calls, and each that finds its entry succeeds. -/
def Undone (call : A → Op κ ν → σ → Option ε × σ) (back : Nat → A) (locate : κ → π)
    (view : σ → π → Option ν) (good : A → Op κ ν → σ → Prop) : List (Op κ ν) → σ → Prop
  | [], _ => True
  | .add k _ :: done, s =>
    good (back done.length) (.del k) s ∧
      (view s (locate k) ≠ none → (call (back done.length) (.del k) s).1 = none) ∧
      Undone call back locate view good done (call (back done.length) (.del k) s).2
  | .mod .. :: done, s => Undone call back locate view good done s
  | .del _ :: done, s => Undone call back locate view good done s

/-- The calls of a batch are good, those of its rollback included. -/
def Smooth (call : A → Op κ ν → σ → Option ε × σ) (forth back : Nat → A) (locate : κ → π)
    (view : σ → π → Option ν) (good : A → Op κ ν → σ → Prop) :
    List (Op κ ν) → List (Op κ ν) → σ → Prop
  | _, [], _ => True
  | done, op :: ops, s =>
    good (forth done.length) op s ∧
      match call (forth done.length) op s with
      | (none, s) => Smooth call forth back locate view good (op :: done) ops s
      | (some _, s) => Undone call back locate view good done s

variable {call : A → Op κ ν → σ → Option ε × σ} {forth back : Nat → A} {locate : κ → π}
  {view : σ → π → Option ν} {good : A → Op κ ν → σ → Prop} {inv : σ → Prop}

omit [DecidableEq π] in
theorem Smooth.succeed {done ops : List (Op κ ν)} {op : Op κ ν} {s : σ}
    (hgood : good (forth done.length) op s) (hcall : (call (forth done.length) op s).1 = none)
    (h : Smooth call forth back locate view good (op :: done) ops
      (call (forth done.length) op s).2) :
    Smooth call forth back locate view good done (op :: ops) s := by
  refine ⟨hgood, ?_⟩
  generalize call (forth done.length) op s = r at hcall h ⊢
  obtain ⟨_, s'⟩ := r
  obtain rfl := hcall
  exact h

omit [DecidableEq π] in
theorem Smooth.fail {done ops : List (Op κ ν)} {op : Op κ ν} {s : σ} {e : ε}
    (hgood : good (forth done.length) op s) (hcall : (call (forth done.length) op s).1 = some e)
    (h : Undone call back locate view good done (call (forth done.length) op s).2) :
    Smooth call forth back locate view good done (op :: ops) s := by
  refine ⟨hgood, ?_⟩
  generalize call (forth done.length) op s = r at hcall h ⊢
  obtain ⟨_, s'⟩ := r
  obtain rfl := hcall
  exact h

/-- A rollback empties the places of the additions. -/
theorem rollback_view (law : Lawful call locate view good inv) {done : List (Op κ ν)} {s : σ}
    (hinv : inv s) (h : Undone call back locate view good done s) (p : π) :
    view (rollback call back done s) p =
      if adds locate p done then none else view s p := by
  induction done generalizing s with
  | nil => rfl
  | cons op done ih =>
    cases op with
    | add k v =>
      obtain ⟨hgood, hdone, hrest⟩ := h
      rw [rollback, ih (law.keeps _ _ _ hinv hgood) hrest]
      have hplace : view (call (back done.length) (.del k) s).2 (locate k) = none := by
        cases hcall : (call (back done.length) (.del k) s).1 with
        | none =>
          rw [(law.succeeds _ _ _ hinv hgood hcall).2]
          exact Function.update_self ..
        | some e =>
          rw [law.fails _ _ _ e hinv hgood hcall]
          by_contra hentry
          rw [hdone hentry] at hcall
          cases hcall
      have hother : locate k ≠ p → view (call (back done.length) (.del k) s).2 p = view s p := by
        intro hp
        cases hcall : (call (back done.length) (.del k) s).1 with
        | none =>
          rw [(law.succeeds _ _ _ hinv hgood hcall).2]
          exact Function.update_of_ne (Ne.symm hp) ..
        | some e => rw [law.fails _ _ _ e hinv hgood hcall]
      by_cases hp : locate k = p
      · have hadds : adds locate p (.add k v :: done) = true := by
          simp [adds, Op.isAdd, Op.key, hp]
        rw [hadds, if_pos rfl, ← hp, hplace, ite_self]
      · have hadds : adds locate p (.add k v :: done) = adds locate p done := by
          simp [adds, Op.key, hp]
        rw [hadds, hother hp]
    | mod k v => exact ih hinv h
    | del k => exact ih hinv h

theorem batch_failed_from (law : Lawful call locate view good inv) {done pre post : List (Op κ ν)}
    {op : Op κ ν} {s mid : σ} {e : ε} {entries : π → Option ν} (hinv : inv s)
    (hview : view s = after locate entries done) (hfit : Fitting locate entries done)
    (hsmooth : Smooth call forth back locate view good done (pre ++ op :: post) s)
    (happ : applied call forth done.length pre s = some mid)
    (hfail : (call (forth (done.length + pre.length)) op mid).1 = some e) :
    (batch call forth back done (pre ++ op :: post) s).1 = some e ∧
      view (batch call forth back done (pre ++ op :: post) s).2 =
        survives locate entries (done.reverse ++ pre) := by
  induction pre generalizing done s with
  | nil =>
    obtain ⟨hgood, hrest⟩ := hsmooth
    obtain rfl := Option.some.inj happ
    rw [List.length_nil, Nat.add_zero] at hfail
    have hunchanged := law.fails _ _ _ e hinv hgood hfail
    have hkeeps := law.keeps _ _ _ hinv hgood
    rw [List.nil_append, batch]
    generalize call (forth done.length) op s = r at hfail hrest hunchanged hkeeps ⊢
    obtain ⟨_, s'⟩ := r
    obtain rfl := hfail
    refine ⟨rfl, ?_⟩
    funext p
    rw [List.append_nil, survives_eq hfit, rollback_view law hkeeps hrest,
      show view s' = view s from hunchanged, hview]
  | cons first pre ih =>
    obtain ⟨hgood, hrest⟩ := hsmooth
    have hsuccess := law.succeeds _ _ _ hinv hgood
    have hkeeps := law.keeps _ _ _ hinv hgood
    rw [applied] at happ
    rw [List.cons_append, batch]
    generalize call (forth done.length) first s = r at happ hrest hsuccess hkeeps ⊢
    obtain ⟨_ | e', s'⟩ := r
    · have hview' : view s' = after locate entries (first :: done) := by
        rw [(hsuccess rfl).2, hview]
        rfl
      have hfit' : Fitting locate entries (first :: done) := ⟨hview ▸ (hsuccess rfl).1, hfit⟩
      have hfrom := ih hkeeps hview' hfit' hrest happ (by
        rwa [List.length_cons, Nat.add_right_comm, Nat.add_assoc])
      rwa [List.reverse_cons, List.append_assoc] at hfrom
    · cases happ

/-- A batch ends at the first operation that fails, with its error, and then of the operations
before it the additions are gone. -/
theorem batch_failed (law : Lawful call locate view good inv) {pre post : List (Op κ ν)}
    {op : Op κ ν} {s mid : σ} {e : ε} (hinv : inv s)
    (hsmooth : Smooth call forth back locate view good [] (pre ++ op :: post) s)
    (happ : applied call forth 0 pre s = some mid)
    (hfail : (call (forth pre.length) op mid).1 = some e) :
    (batch call forth back [] (pre ++ op :: post) s).1 = some e ∧
      view (batch call forth back [] (pre ++ op :: post) s).2 = survives locate (view s) pre := by
  have hfit : Fitting locate (view s) ([] : List (Op κ ν)) := trivial
  refine batch_failed_from law hinv rfl hfit hsmooth happ ?_
  rwa [List.length_nil, Nat.zero_add]

end

end Batch
