import WepollEx.Core.Events

/-!
# The EPOLLEXCLUSIVE claim decision

What `ep_exclusive_try_claim` decides, as a function of the classes it requests and of the claims
that other registrations hold on the same provider base.
-/

namespace WepollEx

/-- The classes `ep_exclusive_try_claim` denies. -/
def epExclusiveDenied (requested : Classes) (peers : List Classes) : Classes :=
  if peers.any (fun claim => claim &&& EP_READINESS_CLASS_TERMINAL ≠ 0) then requested
  else if requested &&& EP_READINESS_CLASS_TERMINAL ≠ 0 then 0
  else peers.foldl (fun denied claim => denied ||| (claim &&& requested)) 0

/-- The part of `delivered` that a claim leaves, or `none` when the claim is refused. -/
def epExclusiveTryClaimMask (peers : List Classes) (delivered : Events) : Option Events :=
  let requested := epReadinessClasses delivered
  let denied := epExclusiveDenied requested peers
  if requested &&& ~~~denied = 0 ∧ requested ≠ 0 then none
  else some (epReadinessFilterClasses delivered denied)

theorem exclusiveDenied_zero (peers : List Classes) : epExclusiveDenied 0 peers = 0 := by
  unfold epExclusiveDenied
  have hfold : ∀ acc : Classes,
      peers.foldl (fun denied claim => denied ||| (claim &&& (0 : Classes))) acc = acc := by
    induction peers with
    | nil => intro acc; rfl
    | cons claim peers ih => intro acc; simp
  split
  · rfl
  · split
    · rfl
    · exact hfold 0

/-- A granted claim leaves a nonzero part of the mask. -/
theorem exclusiveTryClaimMask_some {peers : List Classes} {delivered granted : Events}
    (h : epExclusiveTryClaimMask peers delivered = some granted) (hne : delivered ≠ 0) :
    granted ≠ 0 ∧ Mask.Within granted delivered := by
  simp only [epExclusiveTryClaimMask] at h
  split at h
  · cases h
  · rename_i hgrant
    cases h
    refine ⟨?_, filterClasses_within _ _⟩
    by_cases hzero : epReadinessClasses delivered = 0
    · rw [hzero, exclusiveDenied_zero, filterClasses_zero]
      exact hne
    · exact filterClasses_ne_zero fun h0 => hgrant ⟨h0, hzero⟩

end WepollEx
