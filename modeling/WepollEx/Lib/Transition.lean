/-!
# Machines

A machine is a partial step function: `step s a` is the state after the act `a`, or `none` when `a`
is not possible in `s`.  This file has the states a machine reaches and the rule that proves an
invariant of all of them.
-/

namespace Transition

variable {σ α : Type}

/-- The states a machine reaches from `start`. -/
inductive Reach (step : σ → α → Option σ) (start : σ) : σ → Prop
  | refl : Reach step start start
  | step {s s' : σ} (a : α) : Reach step start s → step s a = some s' → Reach step start s'

/-- The states a machine reaches by acts that are `ok` when they are taken. -/
inductive ReachWhen (step : σ → α → Option σ) (ok : σ → α → Prop) (start : σ) : σ → Prop
  | refl : ReachWhen step ok start start
  | step {s s' : σ} (a : α) : ReachWhen step ok start s → ok s a → step s a = some s' →
      ReachWhen step ok start s'

/-- A list of acts, one after the other. -/
def run (step : σ → α → Option σ) (s : σ) : List α → Option σ
  | [] => some s
  | a :: as => (step s a).bind fun s' => run step s' as

/-- One of the acts is taken in a state where `bad` holds of it. -/
def Occurs (step : σ → α → Option σ) (bad : σ → α → Prop) (s : σ) : List α → Prop
  | [] => False
  | a :: as => bad s a ∨ ∃ s', step s a = some s' ∧ Occurs step bad s' as

/-- Every act is taken in a state where `ok` holds of it. -/
def Always (step : σ → α → Option σ) (ok : σ → α → Prop) (s : σ) : List α → Prop
  | [] => True
  | a :: as => ok s a ∧ ∀ s', step s a = some s' → Always step ok s' as

variable {step : σ → α → Option σ} {start s : σ}

/-- What holds at the start and is kept by every step holds in every reachable state. -/
theorem Reach.invariant {P : σ → Prop} (h : Reach step start s) (hstart : P start)
    (hstep : ∀ s s' a, P s → step s a = some s' → P s') : P s := by
  induction h with
  | refl => exact hstart
  | step a _ hs ih => exact hstep _ _ a ih hs

theorem ReachWhen.reach {ok : σ → α → Prop} (h : ReachWhen step ok start s) :
    Reach step start s := by
  induction h with
  | refl => exact .refl
  | step a _ _ hs ih => exact ih.step a hs

theorem ReachWhen.invariant {ok : σ → α → Prop} {P : σ → Prop} (h : ReachWhen step ok start s)
    (hstart : P start) (hstep : ∀ s s' a, P s → ok s a → step s a = some s' → P s') : P s := by
  induction h with
  | refl => exact hstart
  | step a _ hok hs ih => exact hstep _ _ a ih hok hs

theorem ReachWhen.trans {ok : σ → α → Prop} {mid : σ} (h : ReachWhen step ok start mid)
    (h' : ReachWhen step ok mid s) : ReachWhen step ok start s := by
  induction h' with
  | refl => exact h
  | step a _ hok hs ih => exact ih.step a hok hs

theorem ReachWhen.weaken {ok ok' : σ → α → Prop} (h : ReachWhen step ok start s)
    (hok : ∀ s a, ok s a → ok' s a) : ReachWhen step ok' start s := by
  induction h with
  | refl => exact .refl
  | step a _ ha hs ih => exact ih.step a (hok _ _ ha) hs

theorem run_cons {a : α} {as : List α} {s' : σ} (h : run step s (a :: as) = some s') :
    ∃ mid, step s a = some mid ∧ run step mid as = some s' :=
  Option.bind_eq_some_iff.mp h

theorem Reach.of_run {as : List α} {s' : σ} (h : Reach step start s)
    (hrun : run step s as = some s') : Reach step start s' := by
  induction as generalizing s with
  | nil =>
    cases hrun
    exact h
  | cons a as ih =>
    obtain ⟨mid, hmid, hrest⟩ := run_cons hrun
    exact ih (h.step a hmid) hrest

theorem ReachWhen.of_run {ok : σ → α → Prop} {as : List α} {s' : σ}
    (h : ReachWhen step ok start s) (hok : Always step ok s as) (hrun : run step s as = some s') :
    ReachWhen step ok start s' := by
  induction as generalizing s with
  | nil =>
    cases hrun
    exact h
  | cons a as ih =>
    obtain ⟨mid, hmid, hrest⟩ := run_cons hrun
    exact ih (h.step a hok.1 hmid) (hok.2 mid hmid) hrest

theorem Always.of_forall {ok : σ → α → Prop} {as : List α} (h : ∀ a ∈ as, ∀ s, ok s a) (s : σ) :
    Always step ok s as := by
  induction as generalizing s with
  | nil => trivial
  | cons a as ih =>
    exact ⟨h a List.mem_cons_self s, fun mid _ => ih (fun b hb => h b (List.mem_cons_of_mem _ hb)) mid⟩

/-- What every step keeps that is not `bad` holds until something `bad` occurs. -/
theorem Reach.unless {P : σ → Prop} {bad : σ → α → Prop} {as : List α} {s' : σ}
    (h : Reach step start s) (hrun : run step s as = some s') (hP : P s)
    (hstep : ∀ s s' a, Reach step start s → P s → ¬bad s a → step s a = some s' → P s') :
    P s' ∨ Occurs step bad s as := by
  induction as generalizing s with
  | nil =>
    cases hrun
    exact .inl hP
  | cons a as ih =>
    obtain ⟨mid, hmid, hrest⟩ := run_cons hrun
    by_cases hbad : bad s a
    · exact .inr (.inl hbad)
    · rcases ih (h.step a hmid) hrest (hstep s mid a h hP hbad hmid) with hend | hoccurs
      · exact .inl hend
      · exact .inr (.inr ⟨mid, hmid, hoccurs⟩)

end Transition
