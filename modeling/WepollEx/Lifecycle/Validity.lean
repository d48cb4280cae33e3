import WepollEx.Lifecycle.Sound

/-!
# The diagnostic predicate on a sound port

`ep_port_worklists_valid_locked` accepts every sound port on which no registration is on both
worklists.  Each of its walks follows one list, so each is computed from the node sequence the list
represents.
-/

namespace WepollEx

open Intrusive

/-- No registration is on both worklists. -/
def Mem.Apart (m : Mem) : Prop :=
  ∀ a s, m.socks a = some s → ¬(s.needsRearm = true ∧ s.oneshotFired = true)

/-! ## The walks -/

section

variable {m : Mem} {k : Links Addr}

/-- The two-speed walk ends: `slow` stands at the front of `us ++ zs` and `fast` at the front of
its end `zs`. -/
theorem sockListAcyclic_of_seg {us zs : List Addr} {p e p' e' l l' : Option Addr} {fuel : Nat}
    (nodup : (us ++ zs).Nodup) (slow : k.Seg p e (us ++ zs) l none)
    (fast : k.Seg p' e' zs l' none) (enough : zs.length ≤ fuel) :
    sockListAcyclic k.next fuel e e' = true := by
  induction fuel generalizing us zs p e p' e' l l' with
  | zero =>
    obtain rfl : zs = [] := List.length_eq_zero_iff.mp (Nat.le_zero.mp enough)
    obtain ⟨rfl, _⟩ := fast
    rfl
  | succ fuel ih =>
    cases zs with
    | nil =>
      obtain ⟨rfl, _⟩ := fast
      rfl
    | cons z zs =>
      obtain ⟨rfl, _, fast⟩ := fast
      unfold sockListAcyclic
      cases zs with
      | nil => rw [fast.1]
      | cons z' zs =>
        obtain ⟨hz', _, fast⟩ := fast
        rw [hz']
        dsimp only
        -- one step for the slow pointer, two for the fast one
        obtain ⟨y, vs, hys⟩ : ∃ y vs, us ++ z :: z' :: zs = y :: (vs ++ zs) ∧ vs ≠ [] := by
          cases us with
          | nil => exact ⟨z, [z'], rfl, by simp⟩
          | cons u us => exact ⟨u, us ++ [z, z'], by simp, by simp⟩
        obtain ⟨hys, hvs⟩ := hys
        rw [hys] at slow nodup
        obtain ⟨rfl, _, slow⟩ := slow
        have nodup' : (vs ++ zs).Nodup := (List.nodup_cons.mp nodup).2
        rw [Option.bind_some]
        split
        · rename_i hmeet
          obtain ⟨v, vs', rfl⟩ := List.exists_cons_of_ne_nil hvs
          obtain ⟨hv, _, _⟩ := slow
          rw [hmeet] at hv
          have hmem : v ∈ zs := fast.head_mem hv
          have := (List.nodup_cons.mp nodup').1
          exact absurd (List.mem_append_right _ hmem) this
        · refine ih nodup' slow fast ?_
          simp only [List.length_cons] at enough
          omega

theorem sockListFinds_of_seg {xs : List Addr} {p e l : Option Addr} {a : Addr} {fuel : Nat}
    (seg : k.Seg p e xs l none) (ha : a ∈ xs) (enough : xs.length ≤ fuel) :
    sockListFinds k.next a fuel e = true := by
  induction xs generalizing p e fuel with
  | nil => cases ha
  | cons x xs ih =>
    obtain ⟨rfl, _, rest⟩ := seg
    cases fuel with
    | zero => simp at enough
    | succ fuel =>
      unfold sockListFinds
      split
      · rfl
      · rename_i hne
        refine ih rest ?_ (Nat.le_of_succ_le_succ enough)
        exact (List.mem_cons.mp ha).resolve_left fun h => hne h.symm

/-- How many registrations of a list have a flag. -/
def Mem.flagCount (m : Mem) (flag : EpSock → Bool) (xs : List Addr) : Nat :=
  (xs.filter fun a => (m.socks a).any flag).length

theorem flagCount_cons {flag : EpSock → Bool} {a : Addr} {s : EpSock} {xs : List Addr}
    (found : m.socks a = some s) :
    m.flagCount flag (a :: xs) = (flag s).toNat + m.flagCount flag xs := by
  unfold Mem.flagCount
  cases hf : flag s with
  | true => simp [found, hf, Nat.add_comm]
  | false => simp [found, hf]

/-- What the walk over all registrations checks of one of them. -/
structure SockOk (m : Mem) (a : Addr) (s : EpSock) : Prop where
  rearm : s.needsRearm = true ↔ m.port.rearmList.links.prev a ≠ none ∨
    m.port.rearmList.links.next a ≠ none ∨ m.port.rearmList.head = some a
  oneshot : s.oneshotFired = true ↔ m.port.oneshotList.links.prev a ≠ none ∨
    m.port.oneshotList.links.next a ≠ none ∨ m.port.oneshotList.head = some a
  apart : ¬(s.needsRearm = true ∧ s.oneshotFired = true)
  dead : s.deletePending = true → s.needsRearm = false ∧ s.oneshotFired = false

theorem liveSockWalk_of_seg {xs : List Addr} {p e l : Option Addr} {fuel rearm oneshot : Nat}
    (seg : m.port.sockList.links.Seg p e xs l none)
    (ok : ∀ a ∈ xs, ∃ s, m.socks a = some s ∧ SockOk m a s) (enough : xs.length ≤ fuel) :
    liveSockWalk m fuel p e rearm oneshot =
      some (rearm + m.flagCount EpSock.needsRearm xs,
        oneshot + m.flagCount EpSock.oneshotFired xs) := by
  induction xs generalizing p e fuel rearm oneshot with
  | nil =>
    obtain ⟨rfl, _⟩ := seg
    cases fuel <;> rfl
  | cons x xs ih =>
    obtain ⟨rfl, hprev, rest⟩ := seg
    cases fuel with
    | zero => simp at enough
    | succ fuel =>
      obtain ⟨s, hs, hok⟩ := ok x List.mem_cons_self
      unfold liveSockWalk
      rw [hs]
      dsimp only
      rw [if_neg ?_]
      · rw [ih rest (fun a ha => ok a (List.mem_cons_of_mem _ ha)) (Nat.le_of_succ_le_succ enough),
          flagCount_cons hs, flagCount_cons hs]
        simp only [Option.some.injEq, Prod.mk.injEq]
        omega
      · have hr : s.needsRearm = decide (m.port.rearmList.links.prev x ≠ none ∨
            m.port.rearmList.links.next x ≠ none ∨ m.port.rearmList.head = some x) :=
          Bool.eq_iff_iff.mpr (hok.rearm.trans decide_eq_true_iff.symm)
        have ho : s.oneshotFired = decide (m.port.oneshotList.links.prev x ≠ none ∨
            m.port.oneshotList.links.next x ≠ none ∨ m.port.oneshotList.head = some x) :=
          Bool.eq_iff_iff.mpr (hok.oneshot.trans decide_eq_true_iff.symm)
        rintro (h | h | h | h | ⟨hd, h⟩)
        · exact h hprev
        · exact h hr
        · exact h ho
        · exact hok.apart h
        · have := hok.dead hd
          simp [this] at h

theorem worklistWalk_of_seg {xs : List Addr} {list : DList Addr} {flag : EpSock → Bool}
    {bound count fuel n : Nat} {p e l : Option Addr}
    (seg : list.links.Seg p e xs l none)
    (ok : ∀ a ∈ xs, ∃ s, m.socks a = some s ∧ flag s = true ∧
      sockListFinds m.port.sockList.links.next a bound m.port.sockList.head = true)
    (room : n + xs.length ≤ count) (enough : xs.length ≤ fuel) :
    worklistWalk m bound list flag count fuel p e n = some (l, n + xs.length) := by
  induction xs generalizing p e fuel n with
  | nil =>
    obtain ⟨rfl, rfl⟩ := seg
    cases fuel <;> rfl
  | cons x xs ih =>
    obtain ⟨rfl, hprev, rest⟩ := seg
    cases fuel with
    | zero => simp at enough
    | succ fuel =>
      obtain ⟨s, hs, hflag, hfinds⟩ := ok x List.mem_cons_self
      simp only [List.length_cons] at room enough
      unfold worklistWalk
      rw [hs]
      dsimp only
      rw [if_neg ?_]
      · rw [ih rest (fun a ha => ok a (List.mem_cons_of_mem _ ha)) (by omega) (by omega)]
        simp only [List.length_cons, Option.some.injEq, Prod.mk.injEq, true_and]
        omega
      · rintro (h | h | h | h)
        · simp [hflag] at h
        · simp [hfinds] at h
        · exact h hprev
        · omega

end

/-! ## The predicate -/

section

variable {m : Mem} {xs : List Addr} {w : Worklist}

theorem Registry.sub_of_listing {ys : List Addr} (registry : Registry m xs)
    (mem : ∀ a, a ∈ ys ↔ m.flagged w a) : ys ⊆ xs := by
  intro a ha
  obtain ⟨s, hs, _⟩ := (mem a).mp ha
  exact (registry.mem a).mpr (by simp [hs])

theorem Registry.flagCount_eq (registry : Registry m xs) (listed : m.Listing w) :
    m.flagCount (·.onWorklist w) xs = m.port.workCount w := by
  obtain ⟨ys, repr, mem, hcount⟩ := listed
  have hperm : (xs.filter fun a => (m.socks a).any (·.onWorklist w)).Perm ys := by
    refine (List.perm_ext_iff_of_nodup (registry.repr.nodup.filter _) repr.nodup).mpr fun a => ?_
    rw [List.mem_filter, mem a, Option.any_eq_true]
    constructor
    · rintro ⟨_, s, hs, hflag⟩
      exact ⟨s, hs, hflag⟩
    · rintro ⟨s, hs, hflag⟩
      exact ⟨(registry.mem a).mpr (by simp [hs]), s, hs, hflag⟩
  rw [hcount]
  exact hperm.length_eq

theorem Registry.worklistWalk_eq {fuel : Nat} (registry : Registry m xs)
    (enough : xs.length ≤ fuel) (listed : m.Listing w) :
    worklistWalk m fuel (m.port.worklist w) (·.onWorklist w) (m.port.workCount w) fuel none
      (m.port.worklist w).head 0 = some ((m.port.worklist w).tail, m.port.workCount w) := by
  obtain ⟨ys, repr, mem, hcount⟩ := listed
  have hsub := registry.sub_of_listing mem
  have hlength : ys.length ≤ xs.length := (repr.nodup.subperm hsub).length_le
  obtain ⟨l, hseg⟩ := registry.repr.seg
  rw [hcount]
  have hwalk : worklistWalk m fuel (m.port.worklist w) (·.onWorklist w) ys.length fuel none
      (m.port.worklist w).head 0 = some ((m.port.worklist w).tail, 0 + ys.length) := by
    refine worklistWalk_of_seg repr.seg (fun a ha => ?_) (by omega) (by omega)
    obtain ⟨s, hs, hflag⟩ := (mem a).mp ha
    exact ⟨s, hs, hflag, sockListFinds_of_seg hseg (hsub ha) enough⟩
  rw [hwalk, Nat.zero_add]

/-- A worklist has a first node exactly when it has a last one. -/
theorem Mem.Listing.ends (listed : m.Listing w) :
    (m.port.worklist w).head.isNone = (m.port.worklist w).tail.isNone := by
  obtain ⟨ys, repr, _, _⟩ := listed
  rw [Bool.eq_iff_iff, Option.isNone_iff_eq_none, Option.isNone_iff_eq_none,
    repr.seg.head_eq_none_iff, repr.seg.last_eq_none_iff]

theorem Mem.Listing.linked_iff (listed : m.Listing w) {a : Addr} {s : EpSock}
    (hs : m.socks a = some s) :
    s.onWorklist w = true ↔ (m.port.worklist w).links.prev a ≠ none ∨
      (m.port.worklist w).links.next a ≠ none ∨ (m.port.worklist w).head = some a := by
  obtain ⟨ys, repr, mem, _⟩ := listed
  rw [← repr.mem_iff_linked, mem a]
  constructor
  · intro hflag
    exact ⟨s, hs, hflag⟩
  · rintro ⟨s', hs', hflag⟩
    obtain rfl := Option.some.inj (hs.symm.trans hs')
    exact hflag

theorem Sound.sockOk (h : Sound m) (apart : m.Apart) {a : Addr} {s : EpSock}
    (hs : m.socks a = some s) : SockOk m a s where
  rearm := (h.listing .rearm).linked_iff hs
  oneshot := (h.listing .oneshot).linked_iff hs
  apart := apart a s hs
  dead := (h.life a s hs).dead_flags

/-- The predicate accepts a sound port whose worklists are apart. -/
theorem Sound.worklistsValid (h : Sound m) (apart : m.Apart) {fuel : Nat}
    (enough : m.port.nextSerial ≤ fuel) : epPortWorklistsValidLocked fuel m = true := by
  obtain ⟨xs, registry⟩ := h.registry
  have hlength : xs.length ≤ fuel := registry.bound.trans enough
  obtain ⟨l, hseg⟩ := registry.repr.seg
  have hacyclic : sockListAcyclic m.port.sockList.links.next fuel m.port.sockList.head
      m.port.sockList.head = true :=
    @sockListAcyclic_of_seg _ [] xs _ _ _ _ _ _ _ registry.repr.nodup hseg hseg hlength
  have hlive : liveSockWalk m fuel none m.port.sockList.head 0 0 =
      some (0 + m.flagCount EpSock.needsRearm xs, 0 + m.flagCount EpSock.oneshotFired xs) := by
    refine liveSockWalk_of_seg hseg (fun a ha => ?_) hlength
    obtain ⟨s, hs⟩ := Option.ne_none_iff_exists'.mp ((registry.mem a).mp ha)
    exact ⟨s, hs, h.sockOk apart hs⟩
  have hrearm := registry.worklistWalk_eq hlength (h.listing .rearm)
  have honeshot := registry.worklistWalk_eq hlength (h.listing .oneshot)
  have hcountR := registry.flagCount_eq (h.listing .rearm)
  have hcountO := registry.flagCount_eq (h.listing .oneshot)
  have hendsR := (h.listing .rearm).ends
  have hendsO := (h.listing .oneshot).ends
  simp only [Port.worklist, Port.workCount, EpSock.onWorklist] at *
  unfold epPortWorklistsValidLocked
  simp [hacyclic, hlive, hrearm, honeshot, hcountR, hcountO, hendsR, hendsO]

end

end WepollEx
