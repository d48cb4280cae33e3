import WepollEx.Exclusive.Owners

/-!
# The discipline of exclusive claims

No two registrations hold the same class of a base, and the holder of a terminal claim is the only
one with a claim on its base.  Two registrations deliver the same class of a base only if the claim
of the first was released or superseded in between.
-/

namespace WepollEx

open Intrusive Mask

/-- All readiness classes. -/
def allClasses : Classes :=
  EP_READINESS_CLASS_READ ||| EP_READINESS_CLASS_WRITE ||| EP_READINESS_CLASS_TERMINAL

section

variable {delivered : Events} {k l classes requested denied : Classes} {peers : List Classes}

theorem isTerminal_iff : isTerminal k = true ↔ k.getLsbD 2 = true := by
  have hbit : EP_READINESS_CLASS_TERMINAL = BitVec.twoPow 8 2 := by decide
  rw [isTerminal, decide_eq_true_eq, hbit, BitVec.and_twoPow]
  have hone : BitVec.twoPow 8 2 ≠ 0#8 := by decide
  cases k.getLsbD 2 with
  | false => simp
  | true => simp [hone]

theorem isTerminal_mono (h : Within k l) (hk : isTerminal k = true) : isTerminal l = true :=
  isTerminal_iff.mpr (within_iff.mp h 2 (isTerminal_iff.mp hk))

theorem within_terminal (h : isTerminal k = true) : Within EP_READINESS_CLASS_TERMINAL k := by
  have hbits : ∀ i < 8, EP_READINESS_CLASS_TERMINAL.getLsbD i = true → i = 2 := by decide
  refine within_iff.mpr fun i hi => ?_
  rw [hbits i (BitVec.lt_of_getLsbD hi) hi]
  exact isTerminal_iff.mp h

theorem isTerminal_of_within (h : Within k l) (hl : isTerminal l = false) :
    isTerminal k = false := by
  cases hk : isTerminal k with
  | false => rfl
  | true => rw [← hl, isTerminal_mono h hk]

theorem isTerminal_or (k l : Classes) : isTerminal (k ||| l) = (isTerminal k || isTerminal l) := by
  rw [Bool.eq_iff_iff, Bool.or_eq_true, isTerminal_iff, isTerminal_iff, isTerminal_iff]
  simp

/-- A part of the terminal class is nothing or the whole of it. -/
theorem eq_terminal (h : Within k EP_READINESS_CLASS_TERMINAL) (hk : k ≠ 0) :
    k = EP_READINESS_CLASS_TERMINAL := by
  have hbit : EP_READINESS_CLASS_TERMINAL = BitVec.twoPow 8 2 := by decide
  rw [hbit] at h ⊢
  have hand : k &&& BitVec.twoPow 8 2 = k := by
    apply BitVec.eq_of_getLsbD_eq
    intro i _
    rw [BitVec.getLsbD_and]
    cases hi : k.getLsbD i with
    | false => simp
    | true => simp [within_iff.mp h i hi]
  rw [BitVec.and_twoPow] at hand
  split at hand
  · exact hand.symm
  · exact absurd hand.symm hk

/-- Apart from the terminal class there are the two directions. -/
theorem within_directional (hall : Within k allClasses) (hlow : isTerminal k = false) :
    Within k (EP_READINESS_CLASS_READ ||| EP_READINESS_CLASS_WRITE) := by
  have hbits : ∀ i < 8, allClasses.getLsbD i = true → i ≠ 2 →
      (EP_READINESS_CLASS_READ ||| EP_READINESS_CLASS_WRITE).getLsbD i = true := by decide
  refine within_iff.mpr fun i hi => hbits i (BitVec.lt_of_getLsbD hi) (within_iff.mp hall i hi) ?_
  rintro rfl
  rw [isTerminal_iff.mpr hi] at hlow
  cases hlow

theorem readinessClasses_mono {a b : Events} (h : Within a b) :
    Within (epReadinessClasses a) (epReadinessClasses b) :=
  readinessClasses_disjoint_mono h (by simp)

theorem readinessClasses_within (delivered : Events) :
    Within (epReadinessClasses delivered) allClasses := by
  apply readinessClasses_and_eq_zero
  intro k m hk _
  cases hk <;> decide

/-- The classes of a filtered mask. -/
theorem filterClasses_classes (delivered : Events) (denied : Classes) :
    Within (epReadinessClasses (epReadinessFilterClasses delivered denied))
      (epReadinessClasses delivered &&& ~~~denied) := by
  refine (readinessClasses_mono (filterClasses_within delivered denied)).and_and ?_
  simpa [Within] using filterClasses_disjoint delivered denied

theorem within_foldl (peers : List Classes) (requested acc : Classes) :
    Within acc (peers.foldl (fun denied k => denied ||| (k &&& requested)) acc) ∧
      ∀ k ∈ peers, Within (k &&& requested)
        (peers.foldl (fun denied k => denied ||| (k &&& requested)) acc) := by
  induction peers generalizing acc with
  | nil => exact ⟨.refl _, nofun⟩
  | cons claim peers ih =>
    obtain ⟨hacc, hrest⟩ := ih (acc ||| (claim &&& requested))
    refine ⟨((Within.refl acc).inl _).trans hacc, fun k hk => ?_⟩
    rcases List.mem_cons.mp hk with rfl | hmem
    · exact ((Within.refl _).inr _).trans hacc
    · exact hrest k hmem

/-- What a peer has claimed is denied, unless the claim is terminal. -/
theorem within_denied (hk : k ∈ peers) (hterm : isTerminal requested = false) :
    Within (k &&& requested) (epExclusiveDenied requested peers) := by
  rw [ClaimIndex.denied_eq]
  split
  · exact within_and_self_right _ _
  · simp only [hterm]
    exact (within_foldl peers requested 0).2 k hk

/-- The first terminal claim on a base is granted as a whole. -/
theorem denied_terminal (hnone : peers.any isTerminal = false) (hreq : isTerminal requested = true) :
    epExclusiveDenied requested peers = 0#8 := by
  rw [ClaimIndex.denied_eq, hnone, hreq]
  rfl

theorem granted_terminal (hnone : peers.any isTerminal = false)
    (hreq : isTerminal requested = true) :
    requested &&& ~~~epExclusiveDenied requested peers = requested := by
  rw [denied_terminal hnone hreq, BitVec.not_zero, BitVec.and_allOnes]

/-- Where a peer has a terminal claim, nothing is granted. -/
theorem granted_eq_zero (hany : peers.any isTerminal = true) :
    requested &&& ~~~epExclusiveDenied requested peers = 0 := by
  rw [ClaimIndex.denied_eq, hany]
  simp

/-! ## The invariant -/

namespace Owners

/-- No class of a base is held twice, and a terminal claim excludes all others. -/
structure Disciplined (o : Owners) : Prop where
  classes : ∀ {a base k}, o a = some (base, k) → k ≠ 0 ∧ Within k allClasses
  apart : ∀ {a b base k l}, o a = some (base, k) → o b = some (base, l) → a ≠ b → k &&& l = 0
  terminal : ∀ {a base k}, o a = some (base, k) → isTerminal k → k = EP_READINESS_CLASS_TERMINAL
  alone : ∀ {a b base k l}, o a = some (base, k) → isTerminal k → o b = some (base, l) → b = a

/-- Every claim of `o'` is a part of the same registration's claim of `o`. -/
def Below (o' o : Owners) : Prop :=
  ∀ {a base k'}, o' a = some (base, k') → k' ≠ 0 ∧ ∃ k, o a = some (base, k) ∧ Within k' k

variable {o o' : Owners} {a b : Addr} {base : Socket}

theorem Disciplined.below (h : o.Disciplined) (hb : o'.Below o) : o'.Disciplined where
  classes := by
    intro a base k' ha
    obtain ⟨hne, k, hk, hwithin⟩ := hb ha
    exact ⟨hne, hwithin.trans (h.classes hk).2⟩
  apart := by
    intro a b base k' l' ha hb' hab
    obtain ⟨-, k, hk, hwithin⟩ := hb ha
    obtain ⟨-, l, hl, hwithin'⟩ := hb hb'
    have hzero := hwithin.and_eq_zero (h.apart hk hl hab)
    rw [BitVec.and_comm] at hzero ⊢
    exact hwithin'.and_eq_zero hzero
  terminal := by
    intro a base k' ha hterm
    obtain ⟨hne, k, hk, hwithin⟩ := hb ha
    rw [h.terminal hk (isTerminal_mono hwithin hterm)] at hwithin
    exact eq_terminal hwithin hne
  alone := by
    intro a b base k' l' ha hterm hb'
    obtain ⟨-, k, hk, hwithin⟩ := hb ha
    obtain ⟨-, l, hl, -⟩ := hb hb'
    exact h.alone hk (isTerminal_mono hwithin hterm) hl

theorem disciplined_empty : Disciplined fun _ => none where
  classes := nofun
  apart := nofun
  terminal := nofun
  alone := nofun

theorem Disciplined.unlink (h : o.Disciplined) (a : Addr) :
    Disciplined (Function.update o a none) := by
  refine h.below ?_
  intro c base k hc
  by_cases hca : c = a
  · rw [hca, Function.update_self] at hc
    cases hc
  · rw [Function.update_of_ne hca] at hc
    exact ⟨(h.classes hc).1, k, hc, .refl k⟩

theorem Disciplined.drop (h : o.Disciplined) (a : Addr) (base : Socket) :
    (o.drop a base).Disciplined := by
  refine h.below ?_
  intro c base' k hc
  have hk : o c = some (base', k) := by
    by_cases hca : c = a
    · rw [Owners.drop, hca, Function.update_self] at hc
      rw [hca]
      exact (Option.filter_eq_some_iff.mp hc).1
    · rwa [Owners.drop, Function.update_of_ne hca] at hc
  exact ⟨(h.classes hk).1, k, hk, .refl k⟩

theorem release_eq_some {classes : Classes} {claim : Socket × Classes} :
    o.release base classes a = some claim ↔ ∃ k, o a = some (claim.1, k) ∧
      if claim.1 = base then claim.2 = k &&& ~~~classes ∧ claim.2 ≠ 0 else claim.2 = k := by
  obtain ⟨base', k'⟩ := claim
  rw [release, Option.bind_eq_some_iff]
  constructor
  · rintro ⟨⟨base₀, k⟩, hk, hclaim⟩
    by_cases hbase : base₀ = base
    · rw [if_pos hbase, shrink] at hclaim
      split at hclaim
      · cases hclaim
      · cases hclaim
        exact ⟨k, hk, by simpa [hbase] using ‹_›⟩
    · rw [if_neg hbase] at hclaim
      cases hclaim
      exact ⟨k', hk, by simp [hbase]⟩
  · rintro ⟨k, hk, hclaim⟩
    refine ⟨(base', k), hk, ?_⟩
    dsimp only at hclaim ⊢
    split at hclaim
    case isTrue hbase =>
      obtain ⟨rfl, hne⟩ := hclaim
      rw [if_pos hbase, shrink, if_neg hne]
    case isFalse hbase =>
      rw [if_neg hbase, hclaim]

theorem Disciplined.release (h : o.Disciplined) (base : Socket) (classes : Classes) :
    (o.release base classes).Disciplined := by
  refine h.below ?_
  intro c base' k' hc
  obtain ⟨k, hk, hclaim⟩ := release_eq_some.mp hc
  dsimp only at hclaim
  split at hclaim
  · exact ⟨hclaim.2, k, hk, hclaim.1 ▸ within_and_self_left k _⟩
  · rw [hclaim]
    exact ⟨(h.classes hk).1, k, hk, .refl k⟩

/-- A registration gets a claim that its peers leave room for. -/
theorem Disciplined.set (h : o.Disciplined) (hne : k ≠ 0) (hall : Within k allClasses)
    (hapart : ∀ b l, b ≠ a → o b = some (base, l) → k &&& l = 0 ∧ isTerminal l = false)
    (hterm : isTerminal k → k = EP_READINESS_CLASS_TERMINAL ∧
      ∀ b l, b ≠ a → o b ≠ some (base, l)) :
    Disciplined (Function.update o a (some (base, k))) where
  classes := by
    intro c base' k' hc
    by_cases hca : c = a
    · rw [hca, Function.update_self] at hc
      cases hc
      exact ⟨hne, hall⟩
    · rw [Function.update_of_ne hca] at hc
      exact h.classes hc
  apart := by
    intro c d base' k' l' hc hd hcd
    by_cases hca : c = a
    · have hda : d ≠ a := fun hda => hcd (hca.trans hda.symm)
      rw [hca, Function.update_self] at hc
      cases hc
      rw [Function.update_of_ne hda] at hd
      exact (hapart d l' hda hd).1
    · rw [Function.update_of_ne hca] at hc
      by_cases hda : d = a
      · rw [hda, Function.update_self] at hd
        cases hd
        rw [BitVec.and_comm]
        exact (hapart c k' hca hc).1
      · rw [Function.update_of_ne hda] at hd
        exact h.apart hc hd hcd
  terminal := by
    intro c base' k' hc hk'
    by_cases hca : c = a
    · rw [hca, Function.update_self] at hc
      cases hc
      exact (hterm hk').1
    · rw [Function.update_of_ne hca] at hc
      exact h.terminal hc hk'
  alone := by
    intro c d base' k' l' hc hk' hd
    by_cases hca : c = a
    · by_contra hdc
      have hda : d ≠ a := fun hda => hdc (hda.trans hca.symm)
      rw [hca, Function.update_self] at hc
      cases hc
      rw [Function.update_of_ne hda] at hd
      exact (hterm hk').2 d l' hda hd
    · rw [Function.update_of_ne hca] at hc
      by_cases hda : d = a
      · rw [hda, Function.update_self] at hd
        cases hd
        have hlow := (hapart c k' hca hc).2
        rw [hk'] at hlow
        cases hlow
      · rw [Function.update_of_ne hda] at hd
        exact h.alone hc hk' hd

theorem on_eq_some (hne : o.on a base ≠ 0) : o a = some (base, o.on a base) := by
  unfold Owners.on at hne ⊢
  cases ho : o a with
  | none =>
    rw [ho] at hne
    exact absurd rfl hne
  | some claim =>
    by_cases hbase : claim.1 = base
    · subst hbase
      simp [Option.filter]
    · rw [ho] at hne
      simp [Option.filter, hbase] at hne

theorem on_of_some (h : o a = some (base, k)) : o.on a base = k := by
  simp [Owners.on, h, Option.filter]

/-- A claim without the terminal class does not survive the first terminal claim on its base. -/
theorem Disciplined.cleared (h : o.Disciplined) (hk : o b = some (base, k))
    (hlow : isTerminal k = false) : ∀ l,
    o.release base (EP_READINESS_CLASS_READ ||| EP_READINESS_CLASS_WRITE) b ≠ some (base, l) := by
  intro l hl
  obtain ⟨k', hk', hclaim⟩ := release_eq_some.mp hl
  rw [hk] at hk'
  cases hk'
  rw [if_pos rfl] at hclaim
  refine hclaim.2 (hclaim.1.trans ?_)
  exact within_directional (h.classes hk).2 hlow

/-- A terminal claim where no peer has one. -/
theorem Disciplined.claim_terminal (h : o.Disciplined) (hpeers : o.Peers a base peers)
    (hnone : peers.any isTerminal = false) (hlow : isTerminal (o.on a base) = false) :
    ((o.release base (EP_READINESS_CLASS_READ ||| EP_READINESS_CLASS_WRITE)).add a base
      EP_READINESS_CLASS_TERMINAL) =
        Function.update (o.release base (EP_READINESS_CLASS_READ ||| EP_READINESS_CLASS_WRITE)) a
          (some (base, EP_READINESS_CLASS_TERMINAL)) ∧
      Disciplined
        (Function.update (o.release base (EP_READINESS_CLASS_READ ||| EP_READINESS_CLASS_WRITE)) a
          (some (base, EP_READINESS_CLASS_TERMINAL))) := by
  have hgone : ∀ b k, o b = some (base, k) → isTerminal k = false := by
    intro b k hk
    by_cases hb : b = a
    · rw [hb] at hk
      rwa [on_of_some hk] at hlow
    · simpa using List.any_eq_false.mp hnone k ((hpeers k).mpr ⟨b, hb, hk⟩)
  have hfree : ∀ b l,
      o.release base (EP_READINESS_CLASS_READ ||| EP_READINESS_CLASS_WRITE) b ≠ some (base, l) := by
    intro b l hl
    obtain ⟨k, hk, -⟩ := release_eq_some.mp hl
    exact h.cleared hk (hgone b k hk) l hl
  constructor
  · rw [Owners.add, if_neg (by decide)]
    have hzero : (o.release base (EP_READINESS_CLASS_READ ||| EP_READINESS_CLASS_WRITE)).on a base =
        0 := by
      by_contra hne
      exact hfree a _ (on_eq_some hne)
    rw [hzero]
    rfl
  · refine (h.release base _).set (by decide) (by decide) ?_ ?_
    · intro b l _ hl
      exact absurd hl (hfree b l)
    · exact fun _ => ⟨rfl, fun b l _ => hfree b l⟩

/-- A claim of directions that no peer has claimed. -/
theorem Disciplined.claim_directional (h : o.Disciplined) (hpeers : o.Peers a base peers)
    (hnone : peers.any isTerminal = false) (hlow : isTerminal (o.on a base) = false)
    (hreq : isTerminal requested = false) (hall : Within requested allClasses) :
    (o.add a base (requested &&& ~~~epExclusiveDenied requested peers &&&
      ~~~o.on a base)).Disciplined := by
  rw [Owners.add]
  split
  · exact h
  case isFalse hne =>
    have hgranted : Within (requested &&& ~~~epExclusiveDenied requested peers &&& ~~~o.on a base)
        requested := ((Within.refl requested).and_left _).and_left _
    have howned : Within (o.on a base) allClasses := by
      by_cases hzero : o.on a base = 0
      · rw [hzero]
        exact .zero _
      · exact (h.classes (on_eq_some hzero)).2
    have hquiet : isTerminal (o.on a base ||| requested &&&
        ~~~epExclusiveDenied requested peers &&& ~~~o.on a base) = false := by
      rw [isTerminal_or, hlow, isTerminal_of_within hgranted hreq]
      rfl
    refine h.set ?_ (howned.or (hgranted.trans hall)) ?_ ?_
    · intro hzero
      have hpart : Within _ 0#8 := hzero ▸ (Within.refl _).inr (o.on a base)
      exact hne (within_zero_iff.mp hpart)
    · intro b l hb hl
      have hmem := (hpeers l).mpr ⟨b, hb, hl⟩
      refine ⟨?_, by simpa using List.any_eq_false.mp hnone l hmem⟩
      refine and_eq_zero_iff.mpr fun i hi hli => ?_
      rw [BitVec.getLsbD_or, Bool.or_eq_true] at hi
      rcases hi with hown | hnew
      · -- the classes it owns already are apart from those of the peer
        have hnonzero : o.on a base ≠ 0 := by
          intro hzero
          simp [hzero] at hown
        exact and_eq_zero_iff.mp (h.apart (on_eq_some hnonzero) hl hb.symm) i hown hli
      · -- the classes of the peer were denied
        have hgrant := within_iff.mp ((Within.refl _).and_left _) i hnew
        rw [BitVec.getLsbD_and, Bool.and_eq_true] at hgrant
        have hdenied := within_iff.mp (within_denied hmem hreq) i (by
          rw [BitVec.getLsbD_and, hli, hgrant.1]
          rfl)
        simp [hdenied] at hgrant
    · intro hterm
      rw [hquiet] at hterm
      cases hterm

/-- A registration that claims keeps the discipline. -/
theorem Disciplined.claim (h : o.Disciplined) (hpeers : o.Peers a base peers)
    (hall : Within requested allClasses) : (o.claim a base requested peers).Disciplined := by
  rw [claim_eq, superseded]
  cases hany : peers.any isTerminal with
  | true =>
    rw [granted_eq_zero hany]
    have hmissing : missingClasses (o.on a base) 0 = 0 := by
      unfold missingClasses
      split
      · rfl
      · simp [isTerminal]
    rw [hmissing, Owners.add, if_pos rfl]
    simpa using h
  | false =>
    cases hreq : isTerminal requested with
    | true =>
      have hne : requested ≠ 0 := by
        rintro rfl
        cases hreq
      rw [granted_terminal hany hreq, if_neg (fun hc => hne hc.1), if_pos (by simp),
        missingClasses]
      cases hlow : isTerminal (o.on a base) with
      | true => simpa [Owners.add] using h.release base _
      | false =>
        obtain ⟨hadd, hset⟩ := h.claim_terminal hpeers hany hlow
        simp only [hreq, if_true, Bool.false_eq_true, if_false]
        rw [hadd]
        exact hset
    | false =>
      rw [if_neg (show ¬(false = true ∧ (!false) = true) by simp)]
      split
      · exact h
      · rw [missingClasses]
        cases hlow : isTerminal (o.on a base) with
        | true => simpa [Owners.add] using h
        | false =>
          have hgranted : isTerminal (requested &&& ~~~epExclusiveDenied requested peers) = false :=
            isTerminal_of_within (within_and_self_left _ _) hreq
          simp only [hgranted, Bool.false_eq_true, if_false]
          exact h.claim_directional hpeers hany hlow hreq hall

end Owners

end

end WepollEx
