import WepollEx.Lib.DList

/-!
# Hash indexes with intrusive chains

The chains of all buckets run through the links of the nodes themselves.  `Indexes` says that the
chain of each bucket holds exactly the nodes whose key is that bucket.  `Chain.loop` is the loop of
a program that visits a chain and may take out the node it is at.
-/

namespace Intrusive

section

variable {α β : Type} [DecidableEq α] [DecidableEq β] {key : α → Option β} {chains : β → List α}
  {a : α} {b : β}

/-- A node that gets a key is added to the chain of the key. -/
theorem mem_push (hmem : ∀ a b, a ∈ chains b ↔ key a = some b) (ha : key a = none) (b : β)
    (c : α) (e : β) : c ∈ Function.update chains b (a :: chains b) e ↔
      Function.update key a (some b) c = some e := by
  by_cases hca : c = a
  · subst hca
    rw [Function.update_self]
    by_cases he : e = b
    · subst he
      simp
    · rw [Function.update_of_ne he, hmem, ha]
      exact ⟨nofun, fun hc => absurd (Option.some.inj hc).symm he⟩
  · rw [Function.update_of_ne hca, ← hmem c e]
    by_cases he : e = b
    · subst he
      rw [Function.update_self, List.mem_cons]
      exact or_iff_right hca
    · rw [Function.update_of_ne he]

/-- A node that loses its key is taken out of its chain. -/
theorem mem_erase (hmem : ∀ a b, a ∈ chains b ↔ key a = some b) (hnodup : (chains b).Nodup)
    (ha : key a = some b) (c : α) (e : β) :
    c ∈ Function.update chains b ((chains b).erase a) e ↔
      Function.update key a none c = some e := by
  by_cases hca : c = a
  · subst hca
    rw [Function.update_self]
    refine ⟨fun hc => ?_, nofun⟩
    by_cases he : e = b
    · subst he
      rw [Function.update_self, hnodup.mem_erase_iff] at hc
      exact absurd rfl hc.1
    · rw [Function.update_of_ne he, hmem, ha] at hc
      exact absurd (Option.some.inj hc).symm he
  · rw [Function.update_of_ne hca, ← hmem c e]
    by_cases he : e = b
    · subst he
      rw [Function.update_self, hnodup.mem_erase_iff]
      exact and_iff_right hca
    · rw [Function.update_of_ne he]

end

/-- A head for every bucket, and one pair of links for every node. -/
structure Index (α β : Type) where
  heads : β → Option α
  links : Links α

namespace Index

variable {α β : Type} [DecidableEq α] [DecidableEq β]

def empty : Index α β := ⟨fun _ => none, .empty⟩

/-- The chain of one bucket. -/
def bucket (d : Index α β) (b : β) : HList α := ⟨d.heads b, d.links⟩

def push (d : Index α β) (b : β) (a : α) : Index α β where
  heads := Function.update d.heads b ((d.bucket b).push a).head
  links := ((d.bucket b).push a).links

def remove (d : Index α β) (b : β) (a : α) : Index α β where
  heads := Function.update d.heads b ((d.bucket b).remove a).head
  links := ((d.bucket b).remove a).links

/-- The chains of `d` hold each node in the bucket that is its key, and no other node. -/
structure Indexes (d : Index α β) (key : α → Option β) (chains : β → List α) : Prop where
  repr : ∀ b, (d.bucket b).Repr (chains b)
  mem : ∀ a b, a ∈ chains b ↔ key a = some b
  off : ∀ a, key a = none → d.links.next a = none ∧ d.links.prev a = none

omit [DecidableEq α] [DecidableEq β] in
theorem indexes_empty : (empty : Index α β).Indexes (fun _ => none) fun _ => [] where
  repr := fun _ => HList.repr_empty
  mem := fun a b => by simp
  off := fun _ _ => ⟨rfl, rfl⟩

namespace Indexes

variable {d : Index α β} {key : α → Option β} {chains : β → List α} {a c : α} {b e : β}

omit [DecidableEq α] [DecidableEq β] in
theorem congr {key' : α → Option β} (h : d.Indexes key chains) (hkey : ∀ c, key' c = key c) :
    d.Indexes key' chains where
  repr := h.repr
  mem := fun a b => by
    rw [hkey a]
    exact h.mem a b
  off := fun a ha => h.off a ((hkey a).symm.trans ha)

omit [DecidableEq α] [DecidableEq β] in
/-- The head of a bucket is one of its nodes. -/
theorem key_of_head (h : d.Indexes key chains) (hhead : d.heads b = some c) : key c = some b := by
  obtain ⟨l, seg⟩ := (h.repr b).seg
  exact (h.mem c b).mp (seg.head_mem hhead)

omit [DecidableEq α] [DecidableEq β] in
theorem head_eq (h : d.Indexes key chains) (b : β) : d.heads b = (chains b).head? := by
  obtain ⟨l, seg⟩ := (h.repr b).seg
  cases hc : chains b with
  | nil =>
    rw [hc] at seg
    exact seg.1
  | cons x xs =>
    rw [hc] at seg
    exact seg.1

omit [DecidableEq α] [DecidableEq β] in
theorem next_eq (h : d.Indexes key chains) {pre rest : List α} (hb : chains b = pre ++ a :: rest) :
    d.links.next a = rest.head? := by
  obtain ⟨l, seg⟩ := (h.repr b).seg
  rw [hb] at seg
  obtain ⟨m, e, _, _, _, right⟩ := Links.seg_append.mp seg
  cases rest with
  | nil => exact right.1
  | cons x xs => exact right.1

theorem push (h : d.Indexes key chains) (ha : key a = none) (b : β) :
    (d.push b a).Indexes (Function.update key a (some b))
      (Function.update chains b (a :: chains b)) := by
  have hout : ∀ e, a ∉ chains e := by
    intro e hmem
    rw [(h.mem a e).mp hmem] at ha
    cases ha
  -- only the links of `a` and of the old head change
  have hframe : ∀ c, c ≠ a → key c ≠ some b →
      (d.links.linkFront (d.heads b) a).next c = d.links.next c ∧
        (d.links.linkFront (d.heads b) a).prev c = d.links.prev c := by
    intro c hca hcb
    have hhead : d.heads b ≠ some c := fun hc => hcb (h.key_of_head hc)
    constructor
    · simp [Links.linkFront, Function.update_of_ne hca]
    · simp [Links.linkFront, Links.setPrevOf_prev_of_ne hhead, Function.update_of_ne hca]
  refine ⟨fun e => ?_, fun c e => ?_, fun c hc => ?_⟩
  · by_cases he : e = b
    · subst he
      rw [Function.update_self]
      have hpush := (h.repr e).push (hout e)
      refine ⟨?_, hpush.nodup⟩
      obtain ⟨l, seg⟩ := hpush.seg
      refine ⟨l, ?_⟩
      show Links.Seg _ none (Function.update d.heads e _ e) _ l none
      rw [Function.update_self]
      exact seg
    · rw [Function.update_of_ne he]
      obtain ⟨l, seg⟩ := (h.repr e).seg
      refine ⟨⟨l, ?_⟩, (h.repr e).nodup⟩
      show Links.Seg _ none (Function.update d.heads b _ e) _ l none
      rw [Function.update_of_ne he]
      refine Links.Seg.congr (fun x hx => hframe x ?_ ?_) seg
      · rintro rfl
        exact hout e hx
      · rw [(h.mem x e).mp hx]
        exact fun hc => he (Option.some.inj hc)
  · exact mem_push h.mem ha b c e
  · have hca : c ≠ a := by
      rintro rfl
      rw [Function.update_self] at hc
      cases hc
    rw [Function.update_of_ne hca] at hc
    obtain ⟨hnext, hprev⟩ := hframe c hca (by simp [hc])
    obtain ⟨hn, hp⟩ := h.off c hc
    exact ⟨hnext.trans hn, hprev.trans hp⟩

theorem remove (h : d.Indexes key chains) (ha : key a = some b) :
    (d.remove b a).Indexes (Function.update key a none)
      (Function.update chains b ((chains b).erase a)) := by
  have hmem : a ∈ chains b := (h.mem a b).mpr ha
  have hnodup := (h.repr b).nodup
  -- the neighbours of `a` are in its bucket
  have hframe : ∀ c, c ≠ a → key c ≠ some b →
      (d.links.unlink a).next c = d.links.next c ∧ (d.links.unlink a).prev c = d.links.prev c := by
    intro c hca hcb
    obtain ⟨l, seg⟩ := (h.repr b).seg
    obtain ⟨us, vs, hus⟩ := List.append_of_mem hmem
    rw [hus] at hnodup seg
    obtain ⟨m, e, left, rfl, hprev, right⟩ := Links.seg_append.mp seg
    have hleft : ∀ y, d.links.prev a = some y → y ∈ us := by
      intro y hy
      rcases left.last_mem (hprev.symm.trans hy) with hn | hm
      · cases hn
      · exact hm
    have hin : ∀ y, y ∈ us ∨ y ∈ vs → key y = some b := by
      intro y hy
      refine (h.mem y b).mp ?_
      rw [hus]
      rcases hy with hy | hy <;> simp [hy]
    refine Links.unlink_frame hca (fun hc => hcb (hin c (.inl (hleft c hc))))
      (fun hc => hcb (hin c (.inr (right.head_mem hc)))) fun hc => ?_
    exact (List.nodup_append.mp hnodup).2.2 a (hleft a hc) a (by simp) rfl
  refine ⟨fun e => ?_, fun c e => ?_, fun c hc => ?_⟩
  · by_cases he : e = b
    · subst he
      rw [Function.update_self]
      have hremove := (h.repr e).remove hmem
      refine ⟨?_, hremove.nodup⟩
      obtain ⟨l, seg⟩ := hremove.seg
      refine ⟨l, ?_⟩
      show Links.Seg _ none (Function.update d.heads e _ e) _ l none
      rw [Function.update_self]
      exact seg
    · rw [Function.update_of_ne he]
      obtain ⟨l, seg⟩ := (h.repr e).seg
      refine ⟨⟨l, ?_⟩, (h.repr e).nodup⟩
      show Links.Seg _ none (Function.update d.heads b _ e) _ l none
      rw [Function.update_of_ne he]
      refine Links.Seg.congr (fun x hx => hframe x ?_ ?_) seg
      · rintro rfl
        rw [(h.mem x e).mp hx] at ha
        exact he (Option.some.inj ha)
      · rw [(h.mem x e).mp hx]
        exact fun hc => he (Option.some.inj hc)
  · exact mem_erase h.mem hnodup ha c e
  · by_cases hca : c = a
    · subst hca
      exact ⟨Links.unlink_next_self _ _, Links.unlink_prev_self _ _⟩
    · rw [Function.update_of_ne hca] at hc
      obtain ⟨hnext, hprev⟩ := hframe c hca (by rw [hc]; nofun)
      obtain ⟨hn, hp⟩ := h.off c hc
      exact ⟨hnext.trans hn, hprev.trans hp⟩

end Indexes

end Index

/-! ## Loops over a chain -/

namespace Chain

variable {α σ : Type}

/-- Visit a chain; the link of a node is read before the node is visited.  `none` when the fuel
does not suffice. -/
def loop (next : σ → α → Option α) (visit : σ → α → σ) : Nat → Option α → σ → Option σ
  | _, none, s => some s
  | 0, some _, _ => none
  | fuel + 1, some a, s => loop next visit fuel (next s a) (visit s a)

/-- `P s rest` says what holds when the nodes `rest` are still to be visited; then the loop ends with
none left. -/
theorem loop_spec (next : σ → α → Option α) (visit : σ → α → σ) {P : σ → List α → Prop}
    (hnext : ∀ s a rest, P s (a :: rest) → next s a = rest.head?)
    (hvisit : ∀ s a rest, P s (a :: rest) → P (visit s a) rest) {xs : List α} :
    ∀ {s : σ} {fuel : Nat}, P s xs → xs.length ≤ fuel →
      ∃ s', loop next visit fuel xs.head? s = some s' ∧ P s' [] := by
  induction xs with
  | nil =>
    intro s fuel hP _
    refine ⟨s, ?_, hP⟩
    cases fuel <;> rfl
  | cons a rest ih =>
    intro s fuel hP hlen
    cases fuel with
    | zero => simp at hlen
    | succ fuel =>
      show ∃ s', loop next visit fuel (next s a) (visit s a) = some s' ∧ P s' []
      rw [hnext s a rest hP]
      exact ih (hvisit s a rest hP) (by simpa using hlen)

end Chain

end Intrusive
