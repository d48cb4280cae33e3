import WepollEx.Exclusive.Discipline
import WepollEx.Lib.Transition

/-!
# What exclusive registrations deliver

A granted claim leaves only classes that the registration holds, and the registration keeps them
until they are released or superseded.  So the discipline of the claims is a discipline of the
deliveries.
-/

namespace WepollEx

open Intrusive Mask

namespace Owners

/-- `a` has the classes `c` of `base`, or a terminal claim on it. -/
def Covers (o : Owners) (a : Addr) (base : Socket) (c : Classes) : Prop :=
  ∃ k, o a = some (base, k) ∧ (Within c k ∨ isTerminal k)

section

variable {o : Owners} {a x : Addr} {base base' : Socket} {c requested classes : Classes}
  {peers : List Classes}

theorem superseded_of_quiet (h : ¬(isTerminal requested ∧ !peers.any isTerminal)) :
    o.superseded base requested peers = o := by
  rw [superseded, if_neg h]

/-- A claim of another registration that supersedes nothing. -/
theorem claim_of_ne (hx : x ≠ a) (h : ¬(isTerminal requested ∧ !peers.any isTerminal)) :
    o.claim x base requested peers a = o a := by
  rw [claim_eq, superseded_of_quiet h]
  split
  · rfl
  · rw [Owners.add]
    split
    · rfl
    · rw [Function.update_of_ne hx.symm]

/-- A claim of another registration on another base. -/
theorem claim_of_base_ne (hx : x ≠ a) (hk : o a = some (base, k)) (hb : base' ≠ base) :
    o.claim x base' requested peers a = o a := by
  have hsuper : o.superseded base' requested peers a = o a := by
    rw [superseded]
    split
    · rw [release, hk, Option.bind_some, if_neg hb.symm]
    · rfl
  rw [claim_eq]
  split
  · exact hsuper
  · rw [Owners.add]
    split
    · exact hsuper
    · rw [Function.update_of_ne hx.symm, hsuper]

theorem Covers.congr (h : o.Covers a base c) {o' : Owners} (ho : o' a = o a) :
    o'.Covers a base c := by
  obtain ⟨k, hk, hc⟩ := h
  exact ⟨k, ho.trans hk, hc⟩

theorem drop_of_on (hk : o a = some (base, k)) (hx : x = a → base' = base) :
    o.drop x base' a = o a := by
  by_cases hxa : x = a
  · rw [hxa, hx hxa, Owners.drop, Function.update_self, hk]
    simp
  · rw [Owners.drop, Function.update_of_ne (Ne.symm hxa)]

theorem Covers.drop (h : o.Covers a base c) (hx : x = a → base' = base) :
    (o.drop x base').Covers a base c := by
  obtain ⟨k, hk, -⟩ := id h
  exact h.congr (drop_of_on hk hx)

theorem release_of_ne (hk : o a = some (base, k)) (hb : base' ≠ base) :
    o.release base' classes a = o a := by
  rw [release, hk, Option.bind_some, if_neg hb.symm]

/-- A release of other classes. -/
theorem Covers.release (h : o.Covers a base c) (hne : c ≠ 0)
    (hkeep : base' = base → classes &&& o.on a base &&&
      (c ||| EP_READINESS_CLASS_TERMINAL) = 0) : (o.release base' classes).Covers a base c := by
  obtain ⟨k, hk, hc⟩ := h
  by_cases hb : base' = base
  · have hkeep := hkeep hb
    rw [on_of_some hk] at hkeep
    have hlast : ∀ i, k.getLsbD i = true →
        (c ||| EP_READINESS_CLASS_TERMINAL).getLsbD i = true →
        (k &&& ~~~classes).getLsbD i = true := by
      intro i hi hkept
      have hlt := BitVec.lt_of_getLsbD hi
      have hout := and_eq_zero_iff.mp ((BitVec.and_comm _ _).trans hkeep) i hkept
      simpa [hi, hlt] using hout
    have hpart : Within c (k &&& ~~~classes) ∨ isTerminal (k &&& ~~~classes) = true := by
      rcases hc with hwithin | hterm
      · refine .inl (within_iff.mpr fun i hi => hlast i (within_iff.mp hwithin i hi) ?_)
        simp [hi]
      · refine .inr (isTerminal_iff.mpr (hlast 2 (isTerminal_iff.mp hterm) ?_))
        rw [BitVec.getLsbD_or, Bool.or_eq_true]
        exact .inr (by decide)
    have hnonzero : k &&& ~~~classes ≠ 0 := by
      intro hzero
      rw [hzero] at hpart
      rcases hpart with hwithin | hterm
      · exact hne (within_zero_iff.mp hwithin)
      · cases hterm
    exact ⟨_, release_eq_some.mpr ⟨k, hk, by simpa [hb] using hnonzero⟩, hpart⟩
  · exact Covers.congr ⟨k, hk, hc⟩ (release_of_ne hk hb)

theorem covers_terminal (o : Owners) (a : Addr) (base : Socket) (c : Classes) :
    (o.add a base EP_READINESS_CLASS_TERMINAL).Covers a base c := by
  refine ⟨o.on a base ||| EP_READINESS_CLASS_TERMINAL, ?_, .inr ?_⟩
  · rw [Owners.add, if_neg (by decide), Function.update_self]
  · rw [isTerminal_or]
    simp [show isTerminal EP_READINESS_CLASS_TERMINAL = true by decide]

theorem Covers.add (h : o.Covers a base c) (classes : Classes) :
    (o.add a base classes).Covers a base c := by
  obtain ⟨k, hk, hc⟩ := h
  rw [Owners.add]
  split
  · exact ⟨k, hk, hc⟩
  · refine ⟨o.on a base ||| classes, Function.update_self .., ?_⟩
    rw [on_of_some hk, isTerminal_or, Bool.or_eq_true]
    exact hc.imp (fun hwithin => hwithin.inl _) .inl

/-- A terminal claim survives its own renewal. -/
theorem covers_of_terminal (hlow : isTerminal (o.on a base) = true) (c : Classes) :
    (o.superseded base requested peers).Covers a base c := by
  have hk : o a = some (base, o.on a base) := on_eq_some fun hzero => by
    rw [hzero] at hlow
    cases hlow
  have hcover : o.Covers a base EP_READINESS_CLASS_TERMINAL := ⟨_, hk, .inr hlow⟩
  have hkept : (o.superseded base requested peers).Covers a base EP_READINESS_CLASS_TERMINAL := by
    rw [superseded]
    split
    · exact hcover.release (by decide) fun _ =>
        (within_and_self_left _ (o.on a base)).and_eq_zero (by decide)
    · exact hcover
  obtain ⟨k, hk, hc⟩ := hkept
  refine ⟨k, hk, .inr ?_⟩
  rcases hc with hwithin | hterm
  · exact isTerminal_mono hwithin (by decide)
  · exact hterm

/-- A registration keeps what it has when it claims more. -/
theorem Covers.claim (h : o.Covers a base c) : (o.claim a base requested peers).Covers a base c := by
  rw [claim_eq]
  cases hlow : isTerminal (o.on a base) with
  | true =>
    split
    · exact covers_of_terminal hlow c
    · exact (covers_of_terminal hlow c).add _
  | false =>
    by_cases hfirst : isTerminal requested ∧ !peers.any isTerminal
    · have hnone : peers.any isTerminal = false := by simpa using hfirst.2
      have hne : requested ≠ 0 := by
        intro hzero
        rw [hzero] at hfirst
        cases hfirst.1
      rw [granted_terminal hnone hfirst.1, if_neg (fun hc => hne hc.1), missingClasses, hlow,
        hfirst.1]
      exact covers_terminal _ a base c
    · rw [superseded_of_quiet hfirst]
      split
      · exact h
      · exact h.add _

/-- What a claim grants is held afterwards. -/
theorem covers_claim (hne : c ≠ 0)
    (hc : Within c (requested &&& ~~~epExclusiveDenied requested peers)) :
    (o.claim a base requested peers).Covers a base c := by
  have hgranted : requested &&& ~~~epExclusiveDenied requested peers ≠ 0 := by
    intro hzero
    rw [hzero] at hc
    exact hne (within_zero_iff.mp hc)
  rw [claim_eq, if_neg (fun h => hgranted h.1), missingClasses]
  cases hlow : isTerminal (o.on a base) with
  | true => exact (covers_of_terminal hlow c).add _
  | false =>
    cases hterm : isTerminal (requested &&& ~~~epExclusiveDenied requested peers) with
    | true => exact covers_terminal _ a base c
    | false =>
      have hquiet : ¬(isTerminal requested ∧ !peers.any isTerminal) := by
        intro hfirst
        rw [granted_terminal (by simpa using hfirst.2) hfirst.1, hfirst.1] at hterm
        cases hterm
      rw [superseded_of_quiet hquiet]
      simp only [Bool.false_eq_true, if_false]
      rw [Owners.add]
      split
      case isTrue hzero =>
        -- the registration owned everything before
        have hown : Within c (o.on a base) := hc.trans hzero
        refine ⟨o.on a base, on_eq_some ?_, .inl hown⟩
        intro h0
        rw [h0] at hown
        exact hne (within_zero_iff.mp hown)
      case isFalse =>
        refine ⟨_, Function.update_self .., .inl (hc.trans (within_or_and_not _ _))⟩

end

end Owners

/-! ## The index -/

namespace ClaimIndex

/-- `a` holds the classes `c` of `base`. -/
def Holds (st : ClaimIndex) (a : Addr) (base : Socket) (c : Classes) : Prop :=
  st.claimBase a = base ∧ c ≠ 0 ∧ Within c (st.claimClasses a)

/-- `*delivered` after `ep_exclusive_try_claim` has returned 1. -/
def gives (st : ClaimIndex) (a : Addr) (delivered : Events) : Option Events :=
  (st.epExclusiveTryClaim a delivered).bind Prod.fst

/-- A call by `x` that releases `classes` takes `c` or a terminal claim from `a`. -/
def Takes (st : ClaimIndex) (a : Addr) (base : Socket) (c : Classes) (x : Addr)
    (classes : Classes) : Prop :=
  (x = a ∧ st.baseSocket a ≠ base) ∨ (st.baseSocket x = base ∧
    classes &&& st.claimClasses a &&& (c ||| EP_READINESS_CLASS_TERMINAL) ≠ 0)

/-- A call that releases what `a` has on `base`, or a terminal claim that supersedes it. -/
def Frees (st : ClaimIndex) (a : Addr) (base : Socket) (c : Classes) : ClaimAct → Prop
  | .tryClaim x delivered => (x = a ∧ st.baseSocket a ≠ base) ∨ (x ≠ a ∧ st.baseSocket x = base ∧
      ∃ m, st.gives x delivered = some m ∧ isTerminal (epReadinessClasses m))
  | .releaseOwner x => x = a
  | .releaseQuiescent x submittedAfdEvents =>
    st.Takes a base c x (epExclusiveQuiescentClasses submittedAfdEvents)
  | .releaseInactive x inactiveClasses => st.Takes a base c x inactiveClasses
  | .setBase _ _ => False

/-- What holds of the index in every reachable state. -/
structure Inv (st : ClaimIndex) : Prop where
  ok : ∃ chains, st.Ok chains
  disciplined : st.owners.Disciplined

theorem inv_empty : empty.Inv where
  ok := ⟨fun _ => [], Index.indexes_empty, fun _ => Nat.zero_le _⟩
  disciplined := Owners.disciplined_empty

section

variable {st st' st₁ st₂ : ClaimIndex} {a b x : Addr} {base : Socket} {c : Classes} {delivered m : Events}

/-- What a claim does, as seen from the owners. -/
theorem Inv.tryClaim (h : st.Inv) (a : Addr) (delivered : Events) :
    ∃ st' peers,
      st.epExclusiveTryClaim a delivered = some (epExclusiveTryClaimMask peers delivered, st') ∧
      st'.Inv ∧ st'.baseSocket = st.baseSocket ∧
      (st.owners.drop a (st.baseSocket a)).Peers a (st.baseSocket a) peers ∧
      st'.owners = (st.owners.drop a (st.baseSocket a)).claim a (st.baseSocket a)
        (epReadinessClasses delivered) peers := by
  obtain ⟨chains, hok⟩ := h.ok
  obtain ⟨st', chains', peers, hclaim, hok', hbases, hpeers, howners⟩ := hok.tryClaim a delivered
  refine ⟨st', peers, hclaim, ⟨⟨chains', hok'⟩, ?_⟩, hbases, hpeers, howners⟩
  rw [howners]
  exact (h.disciplined.drop a _).claim hpeers (readinessClasses_within delivered)

theorem Inv.releaseClasses (h : st.Inv) (a : Addr) (classes : Classes) :
    ∃ st', st.releaseClasses a classes = some st' ∧ st'.Inv ∧ st'.baseSocket = st.baseSocket ∧
      st'.owners = (st.owners.drop a (st.baseSocket a)).release (st.baseSocket a) classes := by
  obtain ⟨chains, hok⟩ := h.ok
  obtain ⟨st', chains', hrelease, hok', hbases, howners⟩ := hok.releaseClasses a classes
  refine ⟨st', hrelease, ⟨⟨chains', hok'⟩, ?_⟩, hbases, howners⟩
  rw [howners]
  exact (h.disciplined.drop a _).release _ _

/-- Every call ends, and keeps the invariant. -/
theorem Inv.step (h : st.Inv) (act : ClaimAct) : ∃ st', st.step act = some st' ∧ st'.Inv := by
  cases act with
  | tryClaim a delivered =>
    obtain ⟨st', peers, hclaim, hinv, -⟩ := h.tryClaim a delivered
    exact ⟨st', by rw [ClaimIndex.step, hclaim]; rfl, hinv⟩
  | releaseOwner a =>
    obtain ⟨chains, hok⟩ := h.ok
    refine ⟨_, rfl, ⟨_, hok.unlink a⟩, ?_⟩
    rw [epExclusiveReleaseOwner, owners_unlink]
    exact h.disciplined.unlink a
  | releaseQuiescent a submittedAfdEvents =>
    obtain ⟨st', hrelease, hinv, -⟩ :=
      h.releaseClasses a (epExclusiveQuiescentClasses submittedAfdEvents)
    exact ⟨st', hrelease, hinv⟩
  | releaseInactive a inactiveClasses =>
    obtain ⟨st', hrelease, hinv, -⟩ := h.releaseClasses a inactiveClasses
    exact ⟨st', hrelease, hinv⟩
  | setBase a base =>
    obtain ⟨chains, hok⟩ := h.ok
    exact ⟨_, rfl, ⟨chains, hok.indexes, hok.bound⟩, h.disciplined⟩

/-- A superseding claim delivers all it wanted. -/
theorem tryClaimMask_first {peers : List Classes}
    (hfirst : isTerminal (epReadinessClasses delivered) ∧ !peers.any isTerminal) :
    epExclusiveTryClaimMask peers delivered = some delivered := by
  have hnone : peers.any isTerminal = false := by simpa using hfirst.2
  have hne : epReadinessClasses delivered ≠ 0 := by
    intro hzero
    rw [hzero] at hfirst
    cases hfirst.1
  rw [epExclusiveTryClaimMask, granted_terminal hnone hfirst.1, if_neg (fun h => hne h.1),
    denied_terminal hnone hfirst.1]
  exact congrArg some (filterClasses_zero delivered)

/-- `a` keeps what it has through a call that releases other classes. -/
theorem Inv.covers_release (h : st.Inv) (hc : st.owners.Covers a base c) (hne : c ≠ 0)
    {classes : Classes} (hkeep : ¬st.Takes a base c x classes)
    (hrelease : st.releaseClasses x classes = some st') : st'.owners.Covers a base c := by
  obtain ⟨t, ht, -, -, howners⟩ := h.releaseClasses x classes
  obtain rfl := Option.some.inj (ht.symm.trans hrelease)
  rw [howners]
  have hstay : x = a → st.baseSocket x = base := by
    intro hx
    by_contra hmoved
    exact hkeep (.inl ⟨hx, hx ▸ hmoved⟩)
  obtain ⟨k, hk, hcover⟩ := hc
  have hdrop : st.owners.drop x (st.baseSocket x) a = some (base, k) := by
    rw [Owners.drop_of_on hk hstay, hk]
  refine Owners.Covers.release ⟨k, hdrop, hcover⟩ hne fun hb => ?_
  rw [Owners.on_of_some hdrop]
  by_contra hmeet
  refine hkeep (.inr ⟨hb, ?_⟩)
  have hclasses : k = st.claimClasses a := congrArg Prod.snd (owners_eq_some.mp hk).2
  rwa [← hclasses]

/-- `a` keeps what it has through every call that does not free it. -/
theorem Inv.covers_step (h : st.Inv) (hc : st.owners.Covers a base c) (hne : c ≠ 0)
    {act : ClaimAct} (hkeep : ¬st.Frees a base c act) (hstep : st.step act = some st') :
    st'.owners.Covers a base c := by
  cases act with
  | tryClaim x delivered =>
    obtain ⟨t, peers, hclaim, -, -, hpeers, howners⟩ := h.tryClaim x delivered
    rw [ClaimIndex.step, hclaim] at hstep
    cases hstep
    rw [howners]
    by_cases hx : x = a
    · have hstay : st.baseSocket x = base := by
        by_contra hmoved
        exact hkeep (.inl ⟨hx, hx ▸ hmoved⟩)
      rw [hstay, hx]
      exact (hc.drop fun _ => rfl).claim
    · have hdrop : (st.owners.drop x (st.baseSocket x)).Covers a base c :=
        hc.drop fun hxa => absurd hxa hx
      refine hdrop.congr ?_
      by_cases hb : st.baseSocket x = base
      · refine Owners.claim_of_ne hx fun hfirst => hkeep (.inr ⟨hx, hb, delivered, ?_, hfirst.1⟩)
        rw [gives, hclaim]
        exact tryClaimMask_first hfirst
      · obtain ⟨k, hk, -⟩ := hdrop
        exact Owners.claim_of_base_ne hx hk hb
  | releaseOwner x =>
    have hx : a ≠ x := fun hxa => hkeep hxa.symm
    cases hstep
    refine hc.congr ?_
    rw [epExclusiveReleaseOwner, owners_unlink, Function.update_of_ne hx]
  | releaseQuiescent x submittedAfdEvents => exact h.covers_release hc hne hkeep hstep
  | releaseInactive x inactiveClasses => exact h.covers_release hc hne hkeep hstep
  | setBase x base' =>
    cases hstep
    exact hc

/-- The classes of a granted mask are held. -/
theorem Inv.gives_covers (h : st.Inv)
    (hclaim : st.epExclusiveTryClaim a delivered = some (some m, st')) (hne : c ≠ 0)
    (hc : Within c (epReadinessClasses m)) : st'.owners.Covers a (st.baseSocket a) c := by
  obtain ⟨t, peers, hspec, -, -, -, howners⟩ := h.tryClaim a delivered
  rw [hclaim, Option.some.injEq, Prod.mk.injEq] at hspec
  obtain ⟨hmask, rfl⟩ := hspec
  rw [howners]
  refine Owners.covers_claim hne (hc.trans ?_)
  rw [epExclusiveTryClaimMask] at hmask
  split at hmask
  · cases hmask
  · cases hmask
    exact filterClasses_classes delivered _

/-- What another registration has claimed is not delivered, unless by a terminal claim. -/
theorem Inv.gives_covered (h : st.Inv) (hc : st.owners.Covers a base c) (hne : c ≠ 0)
    (hb : b ≠ a) (hbase : st.baseSocket b = base) (hgives : st.gives b delivered = some m)
    (hm : Within c (epReadinessClasses m)) :
    isTerminal (epReadinessClasses m) = true ∧ isTerminal (st.claimClasses a) = false := by
  obtain ⟨t, peers, hspec, -, -, hpeers, -⟩ := h.tryClaim b delivered
  have hmask : epExclusiveTryClaimMask peers delivered = some m := by
    rwa [gives, hspec] at hgives
  obtain ⟨k, hk, hcover⟩ := hc
  rw [hbase] at hpeers
  have hclasses : k = st.claimClasses a := congrArg Prod.snd (owners_eq_some.mp hk).2
  have hmem : k ∈ peers :=
    (hpeers k).mpr ⟨a, hb.symm, (Owners.drop_of_on hk fun hba => absurd hba hb).trans hk⟩
  -- a mask was granted, so no peer has a terminal claim
  have hdelivered : Within c (epReadinessClasses delivered &&&
      ~~~epExclusiveDenied (epReadinessClasses delivered) peers) := by
    refine hm.trans ?_
    rw [epExclusiveTryClaimMask] at hmask
    split at hmask
    · cases hmask
    · cases hmask
      exact filterClasses_classes delivered _
  have hnone : peers.any isTerminal = false := by
    by_contra hany
    rw [granted_eq_zero (by simpa using hany)] at hdelivered
    exact hne (within_zero_iff.mp hdelivered)
  have hlow : isTerminal k = false := by simpa using List.any_eq_false.mp hnone k hmem
  refine ⟨?_, hclasses ▸ hlow⟩
  cases hreq : isTerminal (epReadinessClasses delivered) with
  | true =>
    rw [tryClaimMask_first ⟨hreq, by simp [hnone]⟩] at hmask
    rwa [← Option.some.inj hmask]
  | false =>
    exfalso
    have hwithin : Within c k := hcover.resolve_right (by simp [hlow])
    have hdenied := (hwithin.and_and (hdelivered.trans (within_and_self_left _ _))).trans
      (within_denied hmem hreq)
    have hkept := hdelivered.trans (within_and_self_right _ _)
    refine hne (within_zero_iff.mp ?_)
    have hboth := hdenied.and_and hkept
    rwa [BitVec.and_not_self] at hboth

theorem Frees.of_terminal {act : ClaimAct} (h : st.Frees a base EP_READINESS_CLASS_TERMINAL act)
    (c : Classes) : st.Frees a base c act := by
  have htakes : ∀ x classes, st.Takes a base EP_READINESS_CLASS_TERMINAL x classes →
      st.Takes a base c x classes := by
    intro x classes ht
    refine ht.imp_right fun hb => ⟨hb.1, fun hzero => hb.2 ?_⟩
    rw [BitVec.and_comm] at hzero ⊢
    refine Within.and_eq_zero ?_ hzero
    rw [BitVec.or_self]
    exact (Within.refl _).inr c
  cases act with
  | tryClaim x delivered => exact h
  | releaseOwner x => exact h
  | releaseQuiescent x submittedAfdEvents => exact htakes x _ h
  | releaseInactive x inactiveClasses => exact htakes x _ h
  | setBase x base' => exact h

theorem inv_reach (h : Transition.Reach ClaimIndex.step empty st) : st.Inv := by
  refine h.invariant inv_empty fun s s' act hinv hstep => ?_
  obtain ⟨t, ht, htinv⟩ := hinv.step act
  rw [hstep] at ht
  rwa [Option.some.inj ht]

/-- What `a` has on `base` stays its own until an act frees it. -/
theorem covers_run (hreach : Transition.Reach ClaimIndex.step empty st) {acts : List ClaimAct}
    (hrun : Transition.run ClaimIndex.step st acts = some st') {c' : Classes} (hne : c' ≠ 0)
    (hc : st.owners.Covers a base c')
    (hfree : ∀ s act, Frees s a base c' act → Frees s a base c act) :
    st'.owners.Covers a base c' ∨
      Transition.Occurs ClaimIndex.step (fun s act => s.Frees a base c act) st acts := by
  refine hreach.unless (P := fun s => s.owners.Covers a base c') hrun hc
    fun s _ act hs hcov hkeep hstep => ?_
  exact (inv_reach hs).covers_step hcov hne (fun hf => hkeep (hfree s act hf)) hstep

theorem owners_of_holds (h : st.Holds a base c) : st.owners a = some (base, st.claimClasses a) := by
  obtain ⟨hbase, hne, hwithin⟩ := h
  refine owners_eq_some.mpr ⟨fun hzero => ?_, by rw [hbase]⟩
  rw [hzero] at hwithin
  exact hne (within_zero_iff.mp hwithin)

theorem holds_of_covers (h : st.owners.Covers a base c) (hne : c ≠ 0) :
    st.Holds a base c ∨ st.Holds a base EP_READINESS_CLASS_TERMINAL := by
  obtain ⟨k, hk, hcover⟩ := h
  have hclaim := (owners_eq_some.mp hk).2
  have hbase : st.claimBase a = base := (congrArg Prod.fst hclaim).symm
  have hclasses : k = st.claimClasses a := congrArg Prod.snd hclaim
  rw [hclasses] at hcover
  rcases hcover with hwithin | hterm
  · exact .inl ⟨hbase, hne, hwithin⟩
  · exact .inr ⟨hbase, by decide, within_terminal hterm⟩

/-- A terminal claim covers every class. -/
theorem covers_all (h : st.owners.Covers a base EP_READINESS_CLASS_TERMINAL) (c : Classes) :
    isTerminal (st.claimClasses a) = true ∧ st.owners.Covers a base c := by
  obtain ⟨k, hk, hcover⟩ := h
  have hterm : isTerminal k = true := by
    rcases hcover with hwithin | hterm
    · exact isTerminal_mono hwithin (by decide)
    · exact hterm
  have hclasses : k = st.claimClasses a := congrArg Prod.snd (owners_eq_some.mp hk).2
  exact ⟨hclasses ▸ hterm, k, hk, .inr hterm⟩

theorem Inv.bucket (h : st.Inv) (i : Nat) : ∃ xs, (st.index.bucket i).Repr xs ∧
    ∀ a, a ∈ xs ↔ st.claimClasses a ≠ 0 ∧ epExclusiveBucket (st.claimBase a) = i := by
  obtain ⟨chains, hok⟩ := h.ok
  refine ⟨chains i, hok.indexes.repr i, fun a => ?_⟩
  rw [hok.indexes.mem, key, Option.map_eq_some_iff]
  constructor
  · intro hclaim
    obtain ⟨claim, hclaim, hi⟩ := hclaim
    obtain ⟨hne, rfl⟩ := owners_eq_some.mp hclaim
    exact ⟨hne, hi⟩
  · intro hclaim
    exact ⟨_, owners_eq_some.mpr ⟨hclaim.1, rfl⟩, hclaim.2⟩

/-- Between the deliveries of two registrations the claim of the first is freed. -/
theorem exclusive_delivery (hreach : Transition.Reach ClaimIndex.step empty st)
    (hclaim : st.epExclusiveTryClaim a delivered = some (some m, st₁)) {acts : List ClaimAct}
    (hrun : Transition.run ClaimIndex.step st₁ acts = some st₂) {delivered' m' : Events}
    (hb : b ≠ a) (hbase : st₂.baseSocket b = st.baseSocket a)
    (hgives : st₂.gives b delivered' = some m') (hne : c ≠ 0)
    (hc' : Within c (epReadinessClasses m'))
    (hc : Within c (epReadinessClasses m) ∨ isTerminal (epReadinessClasses m)) :
    Transition.Occurs ClaimIndex.step (fun s act => s.Frees a (st.baseSocket a) c act) st₁ acts ∨
      (isTerminal (epReadinessClasses m') ∧ isTerminal (epReadinessClasses m) = false) := by
  have hstep : st.step (.tryClaim a delivered) = some st₁ := by
    rw [ClaimIndex.step, hclaim]
    rfl
  have hreach₁ := hreach.step _ hstep
  have hinv₂ := inv_reach (hreach₁.of_run hrun)
  cases hterm : isTerminal (epReadinessClasses m) with
  | true =>
    have hcover := (inv_reach hreach).gives_covers hclaim (by decide) (within_terminal hterm)
    rcases covers_run hreach₁ hrun (by decide) hcover (fun _ _ hf => hf.of_terminal c) with hkept | hfreed
    · exfalso
      obtain ⟨hheld, hall⟩ := covers_all hkept c
      have hlow := (hinv₂.gives_covered hall hne hb hbase hgives hc').2
      rw [hheld] at hlow
      cases hlow
    · exact .inl hfreed
  | false =>
    have hwithin : Within c (epReadinessClasses m) := hc.resolve_right (by simp [hterm])
    have hcover := (inv_reach hreach).gives_covers hclaim hne hwithin
    rcases covers_run hreach₁ hrun hne hcover (fun _ _ hf => hf) with hkept | hfreed
    · exact .inr ⟨(hinv₂.gives_covered hkept hne hb hbase hgives hc').1, rfl⟩
    · exact .inl hfreed

end

/-- The claims of all registrations in one state, and what they deliver from there on. -/
structure Correct (st : ClaimIndex) : Prop where
  /-- Each bucket is a doubly linked list of the claims that hash to it. -/
  bucket : ∀ i, ∃ xs, (st.index.bucket i).Repr xs ∧
    ∀ a, a ∈ xs ↔ st.claimClasses a ≠ 0 ∧ epExclusiveBucket (st.claimBase a) = i
  /-- No two registrations hold the same class of a base. -/
  single : ∀ a b base c, st.Holds a base c → st.Holds b base c → a = b
  /-- A terminal claim is the only one on its base. -/
  terminal : ∀ a base, st.Holds a base EP_READINESS_CLASS_TERMINAL →
    st.claimClasses a = EP_READINESS_CLASS_TERMINAL ∧
      ∀ b, st.claimClasses b ≠ 0 → st.claimBase b = base → b = a
  /-- Every call ends. -/
  ends : ∀ act, (st.step act).isSome
  /-- Every class that is left in `*delivered` is held, or covered by a terminal claim. -/
  granted : ∀ a delivered m st', st.epExclusiveTryClaim a delivered = some (some m, st') →
    ∀ c, c ≠ 0 → Within c (epReadinessClasses m) →
      st'.Holds a (st.baseSocket a) c ∨ st'.Holds a (st.baseSocket a) EP_READINESS_CLASS_TERMINAL
  /-- Another registration delivers a class of the same base after `a` has delivered it, or after
  `a` has delivered a terminal event, only if something in between frees the claim of `a`.  Else its
  own delivery is the terminal one that supersedes `a`, which had delivered none. -/
  exclusive : ∀ a delivered m st₁, st.epExclusiveTryClaim a delivered = some (some m, st₁) →
    ∀ acts st₂, Transition.run ClaimIndex.step st₁ acts = some st₂ →
    ∀ b delivered' m', b ≠ a → st₂.baseSocket b = st.baseSocket a →
    st₂.gives b delivered' = some m' →
    ∀ c, c ≠ 0 → Within c (epReadinessClasses m') →
      Within c (epReadinessClasses m) ∨ isTerminal (epReadinessClasses m) →
      Transition.Occurs ClaimIndex.step (fun s act => s.Frees a (st.baseSocket a) c act) st₁ acts ∨
        (isTerminal (epReadinessClasses m') ∧ isTerminal (epReadinessClasses m) = false)

theorem exclusive_claims (st : ClaimIndex) (h : Transition.Reach ClaimIndex.step empty st) :
    st.Correct where
  bucket := (inv_reach h).bucket
  single := by
    intro a b base c ha hb
    by_contra hab
    have hapart := (inv_reach h).disciplined.apart (owners_of_holds ha) (owners_of_holds hb) hab
    have hboth := ha.2.2.and_and hb.2.2
    rw [hapart] at hboth
    exact ha.2.1 (within_zero_iff.mp hboth)
  terminal := by
    intro a base ha
    have howner := owners_of_holds ha
    have hterm := isTerminal_mono ha.2.2 (by decide)
    refine ⟨(inv_reach h).disciplined.terminal howner hterm, fun b hne hbase => ?_⟩
    exact (inv_reach h).disciplined.alone howner hterm (owners_eq_some.mpr ⟨hne, by rw [hbase]⟩)
  ends := by
    intro act
    obtain ⟨st', hstep, -⟩ := (inv_reach h).step act
    rw [hstep]
    rfl
  granted := fun a delivered m st' hclaim c hne hc =>
    holds_of_covers ((inv_reach h).gives_covers hclaim hne hc) hne
  exclusive := fun _ _ _ _ hclaim _ _ hrun _ _ _ hb hbase hgives _ hne hc' hc =>
    exclusive_delivery h hclaim hrun hb hbase hgives hne hc' hc

/-- Two registrations on one base: each gets a direction, then the hangup goes to the first. -/
theorem exclusive_claims_hangup : ∃ st,
    Transition.run ClaimIndex.step empty [.setBase 1 5, .setBase 2 5, .tryClaim 1 EPOLLIN,
      .tryClaim 2 (EPOLLIN ||| EPOLLOUT), .tryClaim 1 EPOLLHUP] = some st ∧
    st.claimClasses 1 = EP_READINESS_CLASS_TERMINAL ∧ st.claimClasses 2 = 0 ∧
    st.gives 2 EPOLLOUT = none ∧ st.Correct := by
  have hvalues : (Transition.run ClaimIndex.step empty [.setBase 1 5, .setBase 2 5,
      .tryClaim 1 EPOLLIN, .tryClaim 2 (EPOLLIN ||| EPOLLOUT), .tryClaim 1 EPOLLHUP]).map
        (fun st => (st.claimClasses 1, st.claimClasses 2, st.gives 2 EPOLLOUT)) =
      some (EP_READINESS_CLASS_TERMINAL, 0, none) := by decide +kernel
  obtain ⟨st, hrun, hst⟩ := Option.map_eq_some_iff.mp hvalues
  rw [Prod.mk.injEq, Prod.mk.injEq] at hst
  obtain ⟨hfirst, hsecond, hgives⟩ := hst
  exact ⟨st, hrun, hfirst, hsecond, hgives,
    exclusive_claims st (Transition.Reach.refl.of_run hrun)⟩

end ClaimIndex

end WepollEx
