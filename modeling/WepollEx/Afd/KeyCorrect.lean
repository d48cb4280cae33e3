import WepollEx.Afd.KeyClaims

/-!
# Ownership of AFD poll targets

The results about the index of poll targets: in every reachable state each target has one owner and
the buckets hold exactly the owners; a claim is released once, before the registration submits
again or is freed; the duplicate-and-retry loop ends; and every handle that is opened on the way is
closed once.
-/

namespace WepollEx

open Intrusive

namespace AfdKeys

/-- What holds in every reachable state, whatever the kernel answers. -/
structure Sound (st : AfdKeys) : Prop where
  /-- No two registrations own the same target. -/
  unique : ∀ a b, st.owned a = true → st.owned b = true → st.target a = st.target b → a = b
  /-- Each bucket is an acyclic chain of the owners whose target hashes there, doubly linked in the
  large layout. -/
  bucket : ∀ i, ∃ xs, Path st.index.next (st.index.head i) xs none ∧ xs.Nodup ∧
    (∀ d, st.index = .large d → (d.bucket i).Repr xs) ∧
    ∀ a, a ∈ xs ↔ st.owned a = true ∧ epAfdPollKeyBucket st.index (st.target a) = i
  /-- Outside a submission or a completion, an owned key belongs to a pending request. -/
  pending : ∀ a, st.pc a = .idle → st.owned a = true →
    st.pollStatus a = .pending ∨ st.pollStatus a = .cancelled
  /-- A claim is released once: the counts differ by the key that is owned now. -/
  released : ∀ a, st.claims a = st.releases a + if st.owned a then 1 else 0
  /-- A registration that submits or is freed has released every claim. -/
  settled : ∀ a, (∃ base st', st.step (.submit a base) = some st') ∨
    (∃ st', st.step (.free a) = some st') → st.owned a = false ∧ st.claims a = st.releases a

/-- What holds of the handles of `a`, within the rules of handles. -/
structure Tidy (st : AfdKeys) (a : Addr) : Prop where
  /-- No handle is closed twice, and none is opened a second time before it is closed. -/
  once : ∀ handle, st.closes a handle ≤ st.opens a handle ∧
    st.opens a handle ≤ st.closes a handle + 1
  /-- The handles that are opened and not closed are those the submission holds. -/
  held : ∀ handle, st.opens a handle = st.closes a handle + (st.held a).count handle
  /-- None is left once the claim is released. -/
  closed : st.pc a = .idle → st.owned a = false → ∀ handle, st.opens a handle = st.closes a handle

/-- A submission of `a` has begun, with `keys` in the index, and runs alone from `st` on. -/
structure Ends (st : AfdKeys) (a : Addr) (keys : List Addr) : Prop where
  /-- There are at most as many duplications as keys, and one more. -/
  duplications : ∀ st', Transition.ReachWhen AfdKeys.step (Alone a) st st' →
    st'.duplications a ≤ keys.length + 1
  /-- The claim can always go on. -/
  live : ∀ st', Transition.ReachWhen AfdKeys.step (Alone a) st st' →
    (st'.pc a).claiming = true →
    ∃ act, act.actor = some a ∧ Alone a st' act ∧ (st'.step act).isSome
  /-- It is over after a bounded number of steps. -/
  steps : ∀ acts st', Transition.Always AfdKeys.step
      (fun s act => Alone a s act ∧ (s.pc a).claiming = true) st acts →
    Transition.run AfdKeys.step st acts = some st' →
    acts.countP (fun act => act.actor = some a) ≤ 4 * keys.length + 5

/-- The index with the layout `index`. -/
structure Correct (index : KeyIndex) : Prop where
  sound : ∀ st, Transition.Reach AfdKeys.step (start index) st → st.Sound
  tidy : ∀ st, Transition.ReachWhen AfdKeys.step Lawful (start index) st → ∀ a, st.Tidy a
  ends : ∀ st, Transition.ReachWhen AfdKeys.step Lawful (start index) st →
    ∀ a base st₁, st.step (.submit a base) = some st₁ →
    ∃ keys : List Addr, keys.Nodup ∧ (∀ b, b ∈ keys ↔ st.owned b = true) ∧ st₁.Ends a keys

section

variable {st st' : AfdKeys} {a : Addr} {index : KeyIndex}

/-- A chain that is read off a list of nodes is a path. -/
theorem path_of_next {next : Addr → Option Addr} {xs : List Addr} :
    ∀ {h : Option Addr}, h = xs.head? →
      (∀ pre a rest, xs = pre ++ a :: rest → next a = rest.head?) → Path next h xs none := by
  induction xs with
  | nil => exact fun hh _ => hh
  | cons x xs ih =>
    intro h hh hnext
    refine ⟨hh, ih (hnext [] x xs rfl) fun pre a rest hxs => hnext (x :: pre) a rest ?_⟩
    rw [hxs]
    rfl

theorem Inv.bucket (h : st.Inv) (i : Nat) : ∃ xs, Path st.index.next (st.index.head i) xs none ∧
    xs.Nodup ∧ (∀ d, st.index = .large d → (d.bucket i).Repr xs) ∧
    ∀ a, a ∈ xs ↔ st.owned a = true ∧ epAfdPollKeyBucket st.index (st.target a) = i := by
  obtain ⟨chains, hindexes, -⟩ := h.table.indexes
  refine ⟨chains i, ?_, hindexes.nodup i, fun d hd => ?_, fun a => ?_⟩
  · exact path_of_next (hindexes.head_eq i) fun pre a rest hxs => hindexes.next_eq hxs
  · rw [hd] at hindexes
    exact Index.Indexes.repr hindexes i
  · rw [hindexes.mem, key]
    split
    case isTrue howned => simp [howned]
    case isFalse hfree => simp [hfree]

theorem bucket_lt (index : KeyIndex) (target : Handle) :
    epAfdPollKeyBucket index target < index.buckets := by
  have hmask : ∀ value : Handle, ∀ n : Nat, n < 2 ^ 64 → 0 < n →
      (value &&& BitVec.ofNat 64 (n - 1)).toNat < n := by
    intro value n hn hpos
    have hle : (value &&& BitVec.ofNat 64 (n - 1)).toNat ≤ (BitVec.ofNat 64 (n - 1)).toNat := by
      rw [BitVec.toNat_and]
      exact Nat.and_le_right
    rw [BitVec.toNat_ofNat, Nat.mod_eq_of_lt (by omega)] at hle
    omega
  cases index with
  | small d => exact hmask _ 256 (by decide) (by decide)
  | large d => exact hmask _ 4096 (by decide) (by decide)

/-- The registrations that own a key, from the buckets. -/
theorem Inv.exists_keys (h : st.Inv) :
    ∃ keys : List Addr, keys.Nodup ∧ ∀ b, b ∈ keys ↔ st.owned b = true := by
  obtain ⟨chains, hindexes, -⟩ := h.table.indexes
  refine ⟨(List.range st.index.buckets).flatMap chains, ?_, fun b => ?_⟩
  · rw [List.nodup_flatMap]
    refine ⟨fun i _ => hindexes.nodup i, List.nodup_range.imp fun {i j} hij => ?_⟩
    intro b hi hj
    have hkeys := ((hindexes.mem b i).mp hi).symm.trans ((hindexes.mem b j).mp hj)
    exact hij (Option.some.inj hkeys)
  · simp only [List.mem_flatMap, List.mem_range, hindexes.mem, key]
    constructor
    · intro hmem
      obtain ⟨i, -, hi⟩ := hmem
      by_contra hfree
      rw [if_neg hfree] at hi
      cases hi
    · intro howned
      exact ⟨_, bucket_lt st.index (st.target b), by rw [if_pos howned]⟩

theorem Inv.sound (h : st.Inv) : st.Sound where
  unique := fun _ _ => h.table.unique
  bucket := h.bucket
  pending := by
    intro a hpc howned
    have hfits := h.fits a
    rw [hpc] at hfits
    have hbusy : st.pollStatus a ≠ .idle := hfits howned
    cases hstatus : st.pollStatus a with
    | idle => exact absurd hstatus hbusy
    | pending => exact .inl rfl
    | cancelled => exact .inr rfl
  released := h.table.counted
  settled := by
    intro a hstep
    have hquiet : st.quiet a = true ∧ st.pollStatus a = .idle := by
      rcases hstep with ⟨base, st', hstep⟩ | ⟨st', hstep⟩
      · cases h.moved hstep with
        | submit hquiet hidle => exact ⟨hquiet, hidle⟩
      · cases h.moved hstep with
        | free hquiet hidle => exact ⟨hquiet, hidle⟩
    have howned := h.unowned (quiet_iff.mp hquiet.1).2 hquiet.2
    refine ⟨howned, ?_⟩
    rw [h.table.counted a, howned]
    rfl

theorem Kept.tidy (h : st.Kept) (hinv : st.Inv) (a : Addr) : st.Tidy a where
  once := by
    intro handle
    have hcount := h.counted a handle
    have hone := List.nodup_iff_count.mp (h.nodup a) handle
    omega
  held := h.counted a
  closed := by
    intro hpc hfree handle
    have hnone : st.held a = [] := by
      rw [held, reserved, hpc, hinv.unreserved hfree]
      rfl
    rw [h.counted a handle, hnone]
    rfl

theorem lawful_inv (hfresh : Fresh index)
    (h : Transition.ReachWhen AfdKeys.step Lawful (start index) st) : st.Inv ∧ st.Kept := by
  induction h with
  | refl => exact ⟨inv_start hfresh.indexes, kept_start index⟩
  | step act _ hlawful hstep ih =>
    have hmoved := ih.1.moved hstep
    exact ⟨ih.1.step hmoved, ih.2.step ih.1 hmoved hlawful⟩

/-- A claim is never stuck. -/
theorem Inv.claim_live (h : st.Inv) (hin : (st.pc a).claiming = true) :
    ∃ act, act.actor = some a ∧ Alone a st act ∧ (st.step act).isSome := by
  cases hpc : st.pc a with
  | claim base =>
    refine ⟨.tryClaim a false, rfl, ⟨trivial, .inl rfl, rfl⟩, ?_⟩
    rw [AfdKeys.step, hpc]
    dsimp only
    rw [tryClaimBase]
    rcases h.table.tryClaim (h.during hpc (by simp)).2.1 base with ⟨hclaim, -⟩ | ⟨hclaim, -⟩ <;>
      rw [hclaim] <;> rfl
  | duplicate loop =>
    refine ⟨.duplicate a none, rfl, ⟨by rintro _ ⟨⟩, .inl rfl, rfl⟩, ?_⟩
    rw [AfdKeys.step, hpc]
    rfl
  | tryDuplicate loop handle =>
    refine ⟨.tryClaim a false, rfl, ⟨trivial, .inl rfl, rfl⟩, ?_⟩
    rw [AfdKeys.step, hpc]
    dsimp only
    rw [tryClaimDuplicate, if_neg (by simp)]
    rcases h.table.tryClaim (h.during hpc (by simp)).2.1 handle with ⟨hclaim, -⟩ | ⟨hclaim, -⟩ <;>
      rw [hclaim] <;> rfl
  | keep loop handle =>
    refine ⟨.keep a true, rfl, ⟨trivial, .inl rfl, rfl⟩, ?_⟩
    rw [AfdKeys.step, hpc]
    rfl
  | closeDuplicate loop handle =>
    refine ⟨.close a true, rfl, ⟨rfl, .inl rfl, rfl⟩, ?_⟩
    rw [AfdKeys.step, hpc]
    rfl
  | closeCollisions rest failed =>
    refine ⟨.close a true, rfl, ⟨rfl, .inl rfl, rfl⟩, ?_⟩
    have hsome := (h.during hpc (by simp)).2.1
    rw [AfdKeys.step, hpc]
    cases rest with
    | nil => exact absurd rfl hsome
    | cons handle rest => rfl
  | _ =>
    rw [hpc] at hin
    cases hin

/-- The state after a submission has begun. -/
theorem solo_submit (hinv : st.Inv) (hkept : st.Kept) {base : Handle}
    (hstep : st.step (.submit a base) = some st') {keys : List Addr}
    (hkeys : ∀ b, b ∈ keys ↔ st.owned b = true) :
    st'.Solo a keys st.target ∧ st'.pc a = .claim base := by
  have hmoved := hinv.moved hstep
  have hinv' := hinv.step hmoved
  have hkept' := hkept.step hinv hmoved trivial
  cases hmoved with
  | submit hquiet hidle =>
    have hpc : ({ st with duplications := Function.update st.duplications a 0 }.goto a
        (.claim base)).pc a = .claim base := Function.update_self ..
    refine ⟨⟨hinv', hkept', ⟨fun b _ => hkeys b, fun _ _ => rfl⟩, ?_⟩, hpc⟩
    rw [hpc]
    exact Function.update_self ..

theorem Solo.reach {keys : List Addr} {target : Addr → Handle} (h : st.Solo a keys target)
    (hreach : Transition.ReachWhen AfdKeys.step (Alone a) st st') : st'.Solo a keys target := by
  induction hreach with
  | refl => exact h
  | step act _ halone hstep ih => exact (ih.step halone hstep).1

theorem Solo.ends {keys : List Addr} {target : Addr → Handle} {base : Handle}
    (h : st.Solo a keys target) (hpc : st.pc a = .claim base) : st.Ends a keys where
  duplications := fun _ hreach => (h.reach hreach).duplications_le
  live := fun _ hreach hin => (h.reach hreach).inv.claim_live hin
  steps := by
    intro acts st' halways hrun
    have hle := (h.run halways hrun).2
    rw [hpc] at hle
    exact (Nat.le_add_left _ _).trans hle

theorem afd_keys_correct (index : KeyIndex) (hfresh : Fresh index) : Correct index where
  sound := fun _ hreach => (inv_reach hfresh hreach).sound
  tidy := by
    intro st hreach a
    obtain ⟨hinv, hkept⟩ := lawful_inv hfresh hreach
    exact hkept.tidy hinv a
  ends := by
    intro st hreach a base st₁ hstep
    obtain ⟨hinv, hkept⟩ := lawful_inv hfresh hreach
    obtain ⟨keys, hnodup, hkeys⟩ := hinv.exists_keys
    obtain ⟨hsolo, hpc⟩ := solo_submit hinv hkept hstep hkeys
    exact ⟨keys, hnodup, hkeys, hsolo.ends hpc⟩

/-- Two registrations of one socket: the second polls a duplicate, whose value it reserves. -/
theorem afd_keys_correct_duplicate :
    Correct (.small .empty) ∧ Correct (.large .empty) ∧
      ∀ index : KeyIndex, index = .small .empty ∨ index = .large .empty →
        (Transition.run AfdKeys.step (start index) [.alloc 1, .submit 1 4, .tryClaim 1 false,
          .enterKernel 1 .pending, .alloc 2, .submit 2 4, .tryClaim 2 false,
          .duplicate 2 (some 8), .tryClaim 2 false, .enterKernel 2 .pending, .close 2 true,
          .createEvent 2 8, .storeReservation 2]).map
          (fun st => (st.target 1, st.target 2, st.reservation 2)) = some (4, 8, 8) := by
  refine ⟨afd_keys_correct _ (.inl rfl), afd_keys_correct _ (.inr rfl), fun index hindex => ?_⟩
  rcases hindex with rfl | rfl
  · decide +kernel
  · decide +kernel

end

end AfdKeys

end WepollEx
