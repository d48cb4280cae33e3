import WepollEx.Afd.Keys

/-!
# Every target has one owner

The invariant of the index under any interleaving of submissions, completions, cancellations and
frees, whatever the kernel answers.
-/

namespace WepollEx

open Intrusive

namespace KeyIndex

/-- The chains hold each registration in the bucket that is its key, and no other one. -/
def Indexes : KeyIndex → (Addr → Option Nat) → (Nat → List Addr) → Prop
  | .small d, key, chains => d.Indexes key chains
  | .large d, key, chains => d.Indexes key chains

section

variable {d : KeyIndex} {key key' : Addr → Option Nat} {chains : Nat → List Addr} {a : Addr}
  {b : Nat}

theorem Indexes.congr (h : d.Indexes key chains) (hkey : ∀ c, key' c = key c) :
    d.Indexes key' chains := by
  cases d with
  | small d => exact ForwardIndex.Indexes.congr h hkey
  | large d => exact Index.Indexes.congr h hkey

theorem Indexes.mem (h : d.Indexes key chains) (a : Addr) (b : Nat) :
    a ∈ chains b ↔ key a = some b := by
  cases d with
  | small d => exact ForwardIndex.Indexes.mem h a b
  | large d => exact Index.Indexes.mem h a b

theorem Indexes.nodup (h : d.Indexes key chains) (b : Nat) : (chains b).Nodup := by
  cases d with
  | small d => exact ForwardIndex.Indexes.nodup h b
  | large d => exact (Index.Indexes.repr h b).nodup

theorem Indexes.head_eq (h : d.Indexes key chains) (b : Nat) : d.head b = (chains b).head? := by
  cases d with
  | small d => exact ForwardIndex.Indexes.head_eq h b
  | large d => exact Index.Indexes.head_eq h b

theorem Indexes.next_eq (h : d.Indexes key chains) {pre rest : List Addr}
    (hb : chains b = pre ++ a :: rest) : d.next a = rest.head? := by
  cases d with
  | small d => exact ForwardIndex.Indexes.next_eq h hb
  | large d => exact Index.Indexes.next_eq h hb

theorem Indexes.push (h : d.Indexes key chains) (ha : key a = none) (b : Nat) :
    (d.push b a).Indexes (Function.update key a (some b))
      (Function.update chains b (a :: chains b)) := by
  cases d with
  | small d => exact ForwardIndex.Indexes.push h ha b
  | large d => exact Index.Indexes.push h ha b

theorem Indexes.remove (h : d.Indexes key chains) (ha : key a = some b) {fuel : Nat}
    (hfuel : (chains b).length ≤ fuel) :
    ∃ d', d.remove fuel b a = some d' ∧ d'.buckets = d.buckets ∧
      d'.Indexes (Function.update key a none)
        (Function.update chains b ((chains b).erase a)) := by
  cases d with
  | small d =>
    obtain ⟨d', hremove, hindexes⟩ := ForwardIndex.Indexes.remove h ha hfuel
    exact ⟨.small d', by rw [KeyIndex.remove, hremove]; rfl, rfl, hindexes⟩
  | large d => exact ⟨_, rfl, rfl, Index.Indexes.remove h ha⟩

theorem push_buckets (d : KeyIndex) (b : Nat) (a : Addr) : (d.push b a).buckets = d.buckets := by
  cases d <;> rfl

end

end KeyIndex

/-- Who owns a key and what the poll status is, at each point of a submission. -/
def KeyPc.Fits : KeyPc → Bool → PollStatus → Prop
  | .idle, owned, status => owned = true → status ≠ .idle
  | .closeCollisions rest failed, owned, status =>
    rest ≠ [] ∧ owned = !failed ∧ status = .idle
  | .submit _, owned, status => owned = true ∧ status = .idle
  | .closeTarget reserveSlot, owned, status =>
    owned = true ∧ status = if reserveSlot then .pending else .idle
  | .createEvent, owned, status => owned = true ∧ status = .pending
  | .closeEvent _, owned, status => owned = true ∧ status = .pending
  | .storeReservation _, owned, status => owned = true ∧ status = .pending
  | .release completing, owned, status =>
    if completing then status ≠ .idle else owned = true ∧ status = .idle
  | .closeReservation _ completing, owned, status =>
    owned = false ∧ if completing then status ≠ .idle else status = .idle
  | _, owned, status => owned = false ∧ status = .idle

namespace AfdKeys

/-- The bucket of a registration that owns a key. -/
def key (st : AfdKeys) (a : Addr) : Option Nat :=
  if st.owned a then some (epAfdPollKeyBucket st.index (st.target a)) else none

/-- The index and the counters of claims. -/
structure Table (st : AfdKeys) : Prop where
  indexes : ∃ chains, st.index.Indexes st.key chains ∧ ∀ b, (chains b).length ≤ st.linked
  unique : ∀ {a b}, st.owned a = true → st.owned b = true → st.target a = st.target b → a = b
  cleared : ∀ {a}, st.owned a = false → st.target a = 0 ∧ st.reservation a = 0
  counted : ∀ a, st.claims a = st.releases a + if st.owned a then 1 else 0

structure Inv (st : AfdKeys) : Prop where
  table : st.Table
  fits : ∀ a, (st.pc a).Fits (st.owned a) (st.pollStatus a)
  dead : ∀ {a}, st.allocated a = false → st.pc a = .idle ∧ st.pollStatus a = .idle

theorem inv_start {index : KeyIndex} (h : index.Indexes (fun _ => none) fun _ => []) :
    (start index).Inv where
  table :=
    { indexes := ⟨fun _ => [], h.congr fun _ => rfl, fun _ => Nat.zero_le _⟩
      unique := nofun
      cleared := fun _ => ⟨rfl, rfl⟩
      counted := fun _ => rfl }
  fits := fun _ => nofun
  dead := fun _ => ⟨rfl, rfl⟩

section

variable {st : AfdKeys} {a : Addr} {target : Handle}

theorem bucket_congr {d d' : KeyIndex} (h : d'.buckets = d.buckets) (target : Handle) :
    epAfdPollKeyBucket d' target = epAfdPollKeyBucket d target := by
  rw [epAfdPollKeyBucket, epAfdPollKeyBucket, h]

theorem isActiveLoop_eq {chains : Nat → List Addr} (h : st.index.Indexes st.key chains) {b : Nat}
    (target : Handle) {rest : List Addr} :
    ∀ {pre : List Addr} {fuel : Nat}, chains b = pre ++ rest → rest.length ≤ fuel →
      st.isActiveLoop target fuel rest.head? = some (rest.any fun c => st.target c = target) := by
  induction rest with
  | nil =>
    intro pre fuel _ _
    cases fuel <;> rfl
  | cons c rest ih =>
    intro pre fuel hb hlen
    cases fuel with
    | zero => simp at hlen
    | succ fuel =>
      rw [List.head?_cons, isActiveLoop, h.next_eq hb]
      by_cases hc : st.target c = target
      · simp [hc]
      · rw [if_neg hc, @ih (pre ++ [c]) fuel (by simp [hb]) (by simpa using hlen)]
        simp [hc]

/-- The walk over the bucket ends, and finds out whether the target is somebody's key. -/
theorem Table.isActive (h : st.Table) (target : Handle) :
    ∃ active, st.epAfdPollKeyIsActiveLocked target = some active ∧
      (active = true ↔ ∃ b, st.owned b = true ∧ st.target b = target) := by
  obtain ⟨chains, hindexes, hbound⟩ := h.indexes
  refine ⟨(chains (epAfdPollKeyBucket st.index target)).any fun c => st.target c = target, ?_, ?_⟩
  · rw [epAfdPollKeyIsActiveLocked, hindexes.head_eq]
    exact isActiveLoop_eq hindexes target (List.nil_append _).symm (hbound _)
  · rw [List.any_eq_true]
    constructor
    · intro hany
      obtain ⟨b, hmem, hb⟩ := hany
      have hkey := (hindexes.mem b _).mp hmem
      refine ⟨b, ?_, by simpa using hb⟩
      by_contra hfree
      rw [key, if_neg hfree] at hkey
      cases hkey
    · intro howner
      obtain ⟨b, howned, rfl⟩ := howner
      refine ⟨b, (hindexes.mem b _).mpr ?_, by simp⟩
      rw [key, if_pos howned]

theorem Table.insert (h : st.Table) (hfree : st.owned a = false)
    (hnew : ¬∃ b, st.owned b = true ∧ st.target b = target) :
    (st.epAfdPollKeyInsertLocked a target).Table where
  indexes := by
    obtain ⟨chains, hindexes, hbound⟩ := h.indexes
    have hkey : st.key a = none := by rw [key, hfree]; rfl
    refine ⟨_, (hindexes.push hkey (epAfdPollKeyBucket st.index target)).congr fun c => ?_,
      fun b => ?_⟩
    · have hsame : ∀ t, epAfdPollKeyBucket (st.epAfdPollKeyInsertLocked a target).index t =
          epAfdPollKeyBucket st.index t := bucket_congr (KeyIndex.push_buckets ..)
      rw [key, hsame]
      by_cases hc : c = a
      · subst hc
        simp [epAfdPollKeyInsertLocked]
      · simp [epAfdPollKeyInsertLocked, Function.update_of_ne hc, key]
    · by_cases hb : b = epAfdPollKeyBucket st.index target
      · rw [hb, Function.update_self]
        exact Nat.succ_le_succ (hbound _)
      · rw [Function.update_of_ne hb]
        exact Nat.le_succ_of_le (hbound b)
  unique := by
    intro b c hb hc htarget
    have hother : ∀ e, e ≠ a → Function.update st.owned a true e = true →
        Function.update st.target a target e = target → False := by
      intro e he howned hsame
      rw [Function.update_of_ne he] at howned hsame
      exact hnew ⟨e, howned, hsame⟩
    have hself : Function.update st.target a target a = target := Function.update_self ..
    replace htarget : Function.update st.target a target b =
        Function.update st.target a target c := htarget
    by_cases hba : b = a
    · by_contra hbc
      rw [hba, hself] at htarget
      exact hother c (fun hca => hbc (hba.trans hca.symm)) hc htarget.symm
    · by_cases hca : c = a
      · rw [hca, hself] at htarget
        exact (hother b hba hb htarget).elim
      · replace hb : Function.update st.owned a true b = true := hb
        replace hc : Function.update st.owned a true c = true := hc
        rw [Function.update_of_ne hba] at hb htarget
        rw [Function.update_of_ne hca] at hc htarget
        exact h.unique hb hc htarget
  cleared := by
    intro b hb
    replace hb : Function.update st.owned a true b = false := hb
    have hba : b ≠ a := by
      intro hba
      rw [hba, Function.update_self] at hb
      cases hb
    rw [Function.update_of_ne hba] at hb
    obtain ⟨htarget, hreservation⟩ := h.cleared hb
    exact ⟨(Function.update_of_ne hba _ _).trans htarget,
      (Function.update_of_ne hba _ _).trans hreservation⟩
  counted := by
    intro b
    have hb := h.counted b
    by_cases hba : b = a
    · subst hba
      simp_all [epAfdPollKeyInsertLocked]
    · simpa [epAfdPollKeyInsertLocked, Function.update_of_ne hba] using hb

/-- A claim ends; it is granted when nobody owns the target. -/
theorem Table.tryClaim (h : st.Table) (hfree : st.owned a = false) (target : Handle) :
    (st.epAfdPollKeyTryClaim a target = some (false, st) ∧
      ∃ b, st.owned b = true ∧ st.target b = target) ∨
    (st.epAfdPollKeyTryClaim a target = some (true, st.epAfdPollKeyInsertLocked a target) ∧
      (¬∃ b, st.owned b = true ∧ st.target b = target) ∧
      (st.epAfdPollKeyInsertLocked a target).Table) := by
  obtain ⟨active, hactive, hiff⟩ := h.isActive target
  rw [epAfdPollKeyTryClaim, hactive]
  cases active with
  | true => exact .inl ⟨rfl, hiff.mp rfl⟩
  | false =>
    have hnew : ¬∃ b, st.owned b = true ∧ st.target b = target := fun howner => by
      cases hiff.mpr howner
    exact .inr ⟨rfl, hnew, h.insert hfree hnew⟩

/-- The state after the key of `a` is taken out of the index. -/
structure Dropped (st st' : AfdKeys) (a : Addr) : Prop where
  target : st'.target = Function.update st.target a 0
  reservation : st'.reservation = Function.update st.reservation a 0
  owned : st'.owned = Function.update st.owned a false
  releases : st'.releases = Function.update st.releases a (st.releases a + 1)
  rest : { st with
    index := st'.index
    target := st'.target
    reservation := st'.reservation
    owned := st'.owned
    releases := st'.releases } = st'

/-- A release ends, for a registration that owns a key. -/
theorem Table.release (h : st.Table) (howned : st.owned a = true) :
    ∃ st', st.epAfdPollKeyReleaseLocked a = some (st.reservation a, st') ∧ st.Dropped st' a ∧
      st'.Table := by
  obtain ⟨chains, hindexes, hbound⟩ := h.indexes
  have hkey : st.key a = some (epAfdPollKeyBucket st.index (st.target a)) := by
    rw [key, if_pos howned]
  obtain ⟨d', hremove, hbuckets, hindexes'⟩ := hindexes.remove hkey (hbound _)
  refine ⟨_, by rw [epAfdPollKeyReleaseLocked, hremove]; rfl, ⟨rfl, rfl, rfl, rfl, rfl⟩, ?_⟩
  refine ⟨⟨_, hindexes'.congr fun c => ?_, fun b => ?_⟩, ?_, ?_, ?_⟩
  · rw [key, bucket_congr hbuckets]
    by_cases hc : c = a
    · subst hc
      simp
    · simp [Function.update_of_ne hc, key]
  · by_cases hb : b = epAfdPollKeyBucket st.index (st.target a)
    · rw [hb, Function.update_self]
      exact (List.length_erase_le ..).trans (hbound _)
    · rw [Function.update_of_ne hb]
      exact hbound b
  · intro b c hb hc htarget
    have hstay : ∀ e, Function.update st.owned a false e = true → e ≠ a := by
      intro e he hea
      rw [hea, Function.update_self] at he
      cases he
    replace hb : Function.update st.owned a false b = true := hb
    replace hc : Function.update st.owned a false c = true := hc
    replace htarget : Function.update st.target a 0 b = Function.update st.target a 0 c := htarget
    have hba := hstay b hb
    have hca := hstay c hc
    rw [Function.update_of_ne hba] at hb htarget
    rw [Function.update_of_ne hca] at hc htarget
    exact h.unique hb hc htarget
  · intro b hb
    by_cases hba : b = a
    · subst hba
      exact ⟨Function.update_self .., Function.update_self ..⟩
    · replace hb : Function.update st.owned a false b = false := hb
      rw [Function.update_of_ne hba] at hb
      obtain ⟨htarget, hreservation⟩ := h.cleared hb
      exact ⟨(Function.update_of_ne hba _ _).trans htarget,
        (Function.update_of_ne hba _ _).trans hreservation⟩
  · intro b
    have hb := h.counted b
    by_cases hba : b = a
    · subst hba
      simp_all
    · simpa [Function.update_of_ne hba] using hb

/-- A step that is only about the registration `a`. -/
structure Only (st st' : AfdKeys) (a : Addr) : Prop where
  pc : ∀ b, b ≠ a → st'.pc b = st.pc b
  owned : ∀ b, b ≠ a → st'.owned b = st.owned b
  target : ∀ b, b ≠ a → st'.target b = st.target b
  reservation : ∀ b, b ≠ a → st'.reservation b = st.reservation b
  status : ∀ b, b ≠ a → st'.pollStatus b = st.pollStatus b
  allocated : st'.allocated = st.allocated

theorem Only.goto (st : AfdKeys) (a : Addr) (pc : KeyPc) : st.Only (st.goto a pc) a where
  pc := fun _ hb => Function.update_of_ne hb _ _
  owned := fun _ _ => rfl
  target := fun _ _ => rfl
  reservation := fun _ _ => rfl
  status := fun _ _ => rfl
  allocated := rfl

theorem Only.setStatus (st : AfdKeys) (a : Addr) (status : PollStatus) :
    st.Only (st.setStatus a status) a where
  pc := fun _ _ => rfl
  owned := fun _ _ => rfl
  target := fun _ _ => rfl
  reservation := fun _ _ => rfl
  status := fun _ hb => Function.update_of_ne hb _ _
  allocated := rfl

theorem Only.insert (st : AfdKeys) (a : Addr) (target : Handle) :
    st.Only (st.epAfdPollKeyInsertLocked a target) a where
  pc := fun _ _ => rfl
  owned := fun _ hb => Function.update_of_ne hb _ _
  target := fun _ hb => Function.update_of_ne hb _ _
  reservation := fun _ hb => Function.update_of_ne hb _ _
  status := fun _ _ => rfl
  allocated := rfl

theorem Dropped.only {st' : AfdKeys} (h : st.Dropped st' a) : st.Only st' a where
  pc := fun b _ => by rw [← h.rest]
  owned := fun b hb => by rw [h.owned, Function.update_of_ne hb]
  target := fun b hb => by rw [h.target, Function.update_of_ne hb]
  reservation := fun b hb => by rw [h.reservation, Function.update_of_ne hb]
  status := fun b _ => by rw [← h.rest]
  allocated := by rw [← h.rest]

theorem Only.trans {st₁ st₂ : AfdKeys} (h : st.Only st₁ a) (h' : st₁.Only st₂ a) :
    st.Only st₂ a where
  pc := fun b hb => (h'.pc b hb).trans (h.pc b hb)
  owned := fun b hb => (h'.owned b hb).trans (h.owned b hb)
  target := fun b hb => (h'.target b hb).trans (h.target b hb)
  reservation := fun b hb => (h'.reservation b hb).trans (h.reservation b hb)
  status := fun b hb => (h'.status b hb).trans (h.status b hb)
  allocated := h'.allocated.trans h.allocated

/-- Handles and counters apart, nothing happens. -/
theorem Only.same {st' : AfdKeys} (a : Addr) (hpc : st'.pc = st.pc) (ho : st'.owned = st.owned)
    (ht : st'.target = st.target) (hr : st'.reservation = st.reservation)
    (hs : st'.pollStatus = st.pollStatus) (ha : st'.allocated = st.allocated) :
    st.Only st' a where
  pc := fun _ _ => by rw [hpc]
  owned := fun _ _ => by rw [ho]
  target := fun _ _ => by rw [ht]
  reservation := fun _ _ => by rw [hr]
  status := fun _ _ => by rw [hs]
  allocated := ha

theorem Inv.only {st' : AfdKeys} (h : st.Inv) (hlive : st.allocated a = true)
    (honly : st.Only st' a) (htable : st'.Table)
    (hself : (st'.pc a).Fits (st'.owned a) (st'.pollStatus a)) : st'.Inv where
  table := htable
  fits := by
    intro b
    by_cases hb : b = a
    · rw [hb]
      exact hself
    · rw [honly.pc b hb, honly.owned b hb, honly.status b hb]
      exact h.fits b
  dead := by
    intro b hb
    rw [honly.allocated] at hb
    have hba : b ≠ a := by
      intro hba
      rw [hba, hlive] at hb
      cases hb
    rw [honly.pc b hba, honly.status b hba]
    exact h.dead hb

/-- A registration in the middle of a call is allocated. -/
theorem Inv.live (h : st.Inv) (hpc : st.pc a ≠ .idle) : st.allocated a = true := by
  by_contra hdead
  exact hpc (h.dead (by simpa using hdead)).1

theorem quiet_iff : st.quiet a = true ↔ st.allocated a = true ∧ st.pc a = .idle := by
  unfold quiet
  rw [Bool.and_eq_true]
  refine and_congr_right fun _ => ?_
  cases st.pc a <;> simp

end

end AfdKeys

end WepollEx
