import WepollEx.Lib.Buckets

/-!
# Hash indexes with singly linked chains

The chains run through one link of each node.  A node is taken out by the loop that walks from the
head of its bucket to the link that points to it.
-/

namespace Intrusive

variable {α β : Type}

/-- From `h` the links lead through `xs` to `e`. -/
def Path (next : α → Option α) : Option α → List α → Option α → Prop
  | h, [], e => h = e
  | h, x :: xs, e => h = some x ∧ Path next (next x) xs e

theorem Path.congr {next next' : α → Option α} {xs : List α} :
    ∀ {h e : Option α}, (∀ x ∈ xs, next' x = next x) → Path next h xs e → Path next' h xs e := by
  induction xs with
  | nil => exact fun _ hp => hp
  | cons x xs ih =>
    intro h e hn hp
    refine ⟨hp.1, ?_⟩
    rw [hn x (by simp)]
    exact ih (fun y hy => hn y (by simp [hy])) hp.2

theorem Path.store [DecidableEq α] {next : α → Option α} {xs : List α} {h e v : Option α} {a : α}
    (hp : Path next h xs e) (ha : a ∉ xs) : Path (Function.update next a v) h xs e :=
  hp.congr fun _ hx => Function.update_of_ne (ne_of_mem_of_not_mem hx ha) _ _

theorem path_append {next : α → Option α} {xs ys : List α} :
    ∀ {h e : Option α}, Path next h (xs ++ ys) e ↔ ∃ m, Path next h xs m ∧ Path next m ys e := by
  induction xs with
  | nil => simp [Path]
  | cons x xs ih =>
    intro h e
    rw [List.cons_append]
    constructor
    · intro hp
      obtain ⟨m, hxs, hys⟩ := ih.mp hp.2
      exact ⟨m, ⟨hp.1, hxs⟩, hys⟩
    · intro hp
      obtain ⟨m, hxs, hys⟩ := hp
      exact ⟨hxs.1, ih.mpr ⟨m, hxs.2, hys⟩⟩

/-- A head for every bucket, and one link for every node. -/
structure ForwardIndex (α β : Type) where
  heads : β → Option α
  next : α → Option α

namespace ForwardIndex

/-- The place of a pointer: a bucket head or the link of a node. -/
inductive Link (α β : Type)
  | head (b : β)
  | node (a : α)

def empty : ForwardIndex α β := ⟨fun _ => none, fun _ => none⟩

def value (d : ForwardIndex α β) : Link α β → Option α
  | .head b => d.heads b
  | .node a => d.next a

/-- The nodes that a loop over the chain from `h` visits, as far as the fuel goes. -/
def walk (d : ForwardIndex α β) : Nat → Option α → List α
  | _, none => []
  | 0, some _ => []
  | fuel + 1, some a => a :: d.walk fuel (d.next a)

theorem walk_eq {d : ForwardIndex α β} {xs : List α} :
    ∀ {h : Option α} {fuel : Nat}, Path d.next h xs none → xs.length ≤ fuel →
      d.walk fuel h = xs := by
  induction xs with
  | nil =>
    intro h fuel hp _
    obtain rfl : h = none := hp
    cases fuel <;> rfl
  | cons x xs ih =>
    intro h fuel hp hlen
    obtain ⟨rfl, hrest⟩ := hp
    cases fuel with
    | zero => simp at hlen
    | succ fuel => rw [walk, ih hrest (by simpa using hlen)]

variable [DecidableEq α] [DecidableEq β]

def store (d : ForwardIndex α β) (v : Option α) : Link α β → ForwardIndex α β
  | .head b => { d with heads := Function.update d.heads b v }
  | .node a => { d with next := Function.update d.next a v }

def push (d : ForwardIndex α β) (b : β) (a : α) : ForwardIndex α β where
  heads := Function.update d.heads b (some a)
  next := Function.update d.next a (d.heads b)

/-- Walk until a link is empty or points to `a`; `none` when the fuel does not suffice. -/
def seek (d : ForwardIndex α β) (a : α) : Nat → Link α β → Option (Link α β)
  | 0, link => if d.value link = none ∨ d.value link = some a then some link else none
  | fuel + 1, link =>
    match d.value link with
    | none => some link
    | some c => if c = a then some link else seek d a fuel (.node c)

/-- Take `a` out of the chain of `b`. -/
def remove (d : ForwardIndex α β) (fuel : Nat) (b : β) (a : α) : Option (ForwardIndex α β) :=
  (d.seek a fuel (.head b)).map fun link =>
    let d := if d.value link = some a then d.store (d.next a) link else d
    { d with next := Function.update d.next a none }

/-- The chains hold each node in the bucket that is its key, and no other node. -/
structure Indexes (d : ForwardIndex α β) (key : α → Option β) (chains : β → List α) : Prop where
  repr : ∀ b, Path d.next (d.heads b) (chains b) none
  nodup : ∀ b, (chains b).Nodup
  mem : ∀ a b, a ∈ chains b ↔ key a = some b
  off : ∀ a, key a = none → d.next a = none

omit [DecidableEq α] [DecidableEq β] in
theorem indexes_empty : (empty : ForwardIndex α β).Indexes (fun _ => none) fun _ => [] where
  repr := fun _ => rfl
  nodup := fun _ => List.nodup_nil
  mem := fun a b => by simp
  off := fun _ _ => rfl

omit [DecidableEq β] in
/-- The walk ends at the link that points to `a`. -/
theorem seek_spec {d : ForwardIndex α β} {a : α} {post : List α} {pre : List α} :
    ∀ {link : Link α β} {fuel : Nat}, Path d.next (d.value link) (pre ++ a :: post) none →
      a ∉ pre → pre.length ≤ fuel → ∃ last, d.seek a fuel link = some last ∧
        d.value last = some a ∧
        ((pre = [] ∧ last = link) ∨ ∃ us c, pre = us ++ [c] ∧ last = .node c) := by
  induction pre with
  | nil =>
    intro link fuel hp _ _
    refine ⟨link, ?_, hp.1, .inl ⟨rfl, rfl⟩⟩
    cases fuel with
    | zero => simp [seek, hp.1]
    | succ fuel => simp [seek, hp.1]
  | cons x pre ih =>
    intro link fuel hp ha hlen
    have hx : x ≠ a := fun hx => ha (by simp [hx])
    cases fuel with
    | zero => simp at hlen
    | succ fuel =>
      obtain ⟨last, hseek, hvalue, hlast⟩ := @ih (.node x) fuel hp.2
        (fun hmem => ha (by simp [hmem])) (by simpa using hlen)
      refine ⟨last, ?_, hvalue, .inr ?_⟩
      · rw [seek, hp.1]
        simpa [hx] using hseek
      · rcases hlast with ⟨hnil, rfl⟩ | ⟨us, c, hus, rfl⟩
        · exact ⟨[], x, by simp [hnil], rfl⟩
        · exact ⟨x :: us, c, by simp [hus], rfl⟩

omit [DecidableEq β] in
/-- The walk over a chain without `a` ends at an empty link. -/
theorem seek_absent {d : ForwardIndex α β} {a : α} {xs : List α} :
    ∀ {link : Link α β} {fuel : Nat}, Path d.next (d.value link) xs none → a ∉ xs →
      xs.length ≤ fuel → ∃ last, d.seek a fuel link = some last ∧ d.value last = none := by
  induction xs with
  | nil =>
    intro link fuel hp _ _
    refine ⟨link, ?_, hp⟩
    have hnone : d.value link = none := hp
    cases fuel <;> simp [seek, hnone]
  | cons x xs ih =>
    intro link fuel hp ha hlen
    have hx : x ≠ a := fun hx => ha (by simp [hx])
    cases fuel with
    | zero => simp at hlen
    | succ fuel =>
      obtain ⟨last, hseek, hvalue⟩ := @ih (.node x) fuel hp.2
        (fun hmem => ha (by simp [hmem])) (by simpa using hlen)
      refine ⟨last, ?_, hvalue⟩
      rw [seek, hp.1]
      simpa [hx] using hseek

namespace Indexes

variable {d : ForwardIndex α β} {key : α → Option β} {chains : β → List α} {a c : α} {b e : β}

omit [DecidableEq α] [DecidableEq β] in
theorem walk_eq (h : d.Indexes key chains) {fuel : Nat} (hfuel : (chains b).length ≤ fuel) :
    d.walk fuel (d.heads b) = chains b :=
  ForwardIndex.walk_eq (h.repr b) hfuel

/-- Taking out a node that is in no chain changes nothing. -/
theorem remove_absent (h : d.Indexes key chains) (ha : key a = none) {fuel : Nat}
    (hfuel : (chains b).length ≤ fuel) : d.remove fuel b a = some d := by
  have hout : a ∉ chains b := by
    intro hmem
    rw [(h.mem a b).mp hmem] at ha
    cases ha
  obtain ⟨last, hseek, hvalue⟩ := @seek_absent α β _ d a (chains b) (.head b) fuel (h.repr b) hout hfuel
  have hnext : Function.update d.next a none = d.next := by
    rw [← h.off a ha, Function.update_eq_self]
  rw [ForwardIndex.remove, hseek, Option.map_some, hvalue]
  simp [hnext]

omit [DecidableEq α] [DecidableEq β] in
theorem congr {key' : α → Option β} (h : d.Indexes key chains) (hkey : ∀ c, key' c = key c) :
    d.Indexes key' chains where
  repr := h.repr
  nodup := h.nodup
  mem := fun a b => by
    rw [hkey a]
    exact h.mem a b
  off := fun a ha => h.off a ((hkey a).symm.trans ha)

omit [DecidableEq α] [DecidableEq β] in
theorem head_eq (h : d.Indexes key chains) (b : β) : d.heads b = (chains b).head? := by
  have hp := h.repr b
  cases hc : chains b with
  | nil =>
    rw [hc] at hp
    exact hp
  | cons x xs =>
    rw [hc] at hp
    exact hp.1

omit [DecidableEq α] [DecidableEq β] in
theorem next_eq (h : d.Indexes key chains) {pre rest : List α} (hb : chains b = pre ++ a :: rest) :
    d.next a = rest.head? := by
  have hp := h.repr b
  rw [hb] at hp
  obtain ⟨m, -, -, hrest⟩ := path_append.mp hp
  cases rest with
  | nil => exact hrest
  | cons x xs => exact hrest.1

theorem push (h : d.Indexes key chains) (ha : key a = none) (b : β) :
    (d.push b a).Indexes (Function.update key a (some b))
      (Function.update chains b (a :: chains b)) := by
  have hout : ∀ e, a ∉ chains e := by
    intro e hmem
    rw [(h.mem a e).mp hmem] at ha
    cases ha
  have hkept : ∀ e, ∀ x ∈ chains e, (d.push b a).next x = d.next x := by
    intro e x hx
    have hxa : x ≠ a := fun hxa => hout e (hxa ▸ hx)
    exact Function.update_of_ne hxa _ _
  refine ⟨fun e => ?_, fun e => ?_, fun c e => ?_, fun c hc => ?_⟩
  · by_cases he : e = b
    · subst he
      rw [Function.update_self]
      refine ⟨Function.update_self .., ?_⟩
      have hnext : (d.push e a).next a = d.heads e := Function.update_self ..
      rw [hnext]
      exact (h.repr e).congr (hkept e)
    · rw [Function.update_of_ne he]
      have hhead : (d.push b a).heads e = d.heads e := Function.update_of_ne he _ _
      rw [hhead]
      exact (h.repr e).congr (hkept e)
  · by_cases he : e = b
    · subst he
      rw [Function.update_self]
      exact List.nodup_cons.mpr ⟨hout e, h.nodup e⟩
    · rw [Function.update_of_ne he]
      exact h.nodup e
  · exact mem_push h.mem ha b c e
  · have hca : c ≠ a := by
      intro hca
      rw [hca, Function.update_self] at hc
      cases hc
    rw [Function.update_of_ne hca] at hc
    exact (Function.update_of_ne hca _ _).trans (h.off c hc)

omit [DecidableEq β] in
/-- The chain without `a`, once the link that pointed to it points behind it. -/
theorem path_unlink {next : α → Option α} {us vs : List α} {h : Option α}
    (hp : Path next h (us ++ c :: a :: vs) none) (hnodup : (us ++ c :: a :: vs).Nodup) :
    Path (Function.update (Function.update next c (next a)) a none) h (us ++ c :: vs) none := by
  obtain ⟨m, hus, hc, ha, hvs⟩ := path_append.mp hp
  obtain ⟨-, hcav, hdisj⟩ := List.nodup_append.mp hnodup
  obtain ⟨hcout, hav⟩ := List.nodup_cons.mp hcav
  obtain ⟨haout, -⟩ := List.nodup_cons.mp hav
  have hca : c ≠ a := fun hca => hcout (by simp [hca])
  have hkept : ∀ x, x ≠ c → x ≠ a →
      Function.update (Function.update next c (next a)) a none x = next x := by
    intro x hxc hxa
    rw [Function.update_of_ne hxa, Function.update_of_ne hxc]
  refine path_append.mpr ⟨m, hus.congr fun x hx => hkept x ?_ ?_, hc, ?_⟩
  · exact hdisj x hx c (by simp)
  · exact hdisj x hx a (by simp)
  · rw [Function.update_of_ne hca, Function.update_self]
    refine hvs.congr fun x hx => hkept x ?_ ?_
    · intro hxc
      exact hcout (by simp [← hxc, hx])
    · intro hxa
      exact haout (hxa ▸ hx)

theorem remove (h : d.Indexes key chains) (ha : key a = some b) {fuel : Nat}
    (hfuel : (chains b).length ≤ fuel) :
    ∃ d', d.remove fuel b a = some d' ∧ d'.Indexes (Function.update key a none)
      (Function.update chains b ((chains b).erase a)) := by
  have hmem : a ∈ chains b := (h.mem a b).mpr ha
  obtain ⟨pre, post, hout, hchain, herase⟩ := List.exists_erase_eq hmem
  have hpath := h.repr b
  have hnodup := h.nodup b
  rw [hchain] at hpath hnodup
  obtain ⟨last, hseek, hvalue, hlast⟩ := @seek_spec α β _ d a post pre (.head b) fuel hpath hout (by
    rw [hchain, List.length_append] at hfuel
    omega)
  -- the nodes of other buckets are neither `a` nor its predecessor
  have hother : ∀ e, e ≠ b → ∀ x ∈ chains e, x ∉ chains b := by
    intro e he x hx hxb
    have hkeys := ((h.mem x e).mp hx).symm.trans ((h.mem x b).mp hxb)
    exact he (Option.some.inj hkeys)
  have hresult : ∀ d' : ForwardIndex α β, (∀ e, e ≠ b → d'.heads e = d.heads e) →
      (∀ x, x ∉ chains b → d'.next x = d.next x) → d'.next a = none →
      Path d'.next (d'.heads b) (pre ++ post) none →
      d'.Indexes (Function.update key a none)
        (Function.update chains b ((chains b).erase a)) := by
    intro d' hheads hnext hnone hrest
    refine ⟨fun e => ?_, fun e => ?_, mem_erase h.mem (h.nodup b) ha, fun c hc => ?_⟩
    · by_cases he : e = b
      · rw [he, Function.update_self, herase]
        exact hrest
      · rw [Function.update_of_ne he, hheads e he]
        exact (h.repr e).congr fun x hx => hnext x (hother e he x hx)
    · by_cases he : e = b
      · rw [he, Function.update_self]
        exact (h.nodup b).erase a
      · rw [Function.update_of_ne he]
        exact h.nodup e
    · by_cases hca : c = a
      · rw [hca]
        exact hnone
      · rw [Function.update_of_ne hca] at hc
        have hcb : c ∉ chains b := by
          intro hmem
          rw [(h.mem c b).mp hmem] at hc
          cases hc
        rw [hnext c hcb]
        exact h.off c hc
  have hremove : d.remove fuel b a = some { d.store (d.next a) last with
      next := Function.update (d.store (d.next a) last).next a none } := by
    rw [ForwardIndex.remove, hseek, Option.map_some, if_pos hvalue]
  refine ⟨_, hremove, ?_⟩
  rcases hlast with ⟨hpre, rfl⟩ | ⟨us, c, hus, rfl⟩
  · -- `a` is the first node
    refine hresult _ (fun e he => Function.update_of_ne he _ _) (fun x hx => ?_)
      (Function.update_self ..) ?_
    · have hxa : x ≠ a := fun hxa => hx (hxa ▸ hmem)
      exact Function.update_of_ne hxa _ _
    · rw [hpre] at hpath hnodup ⊢
      obtain ⟨-, hpost⟩ := hpath
      obtain ⟨haout, -⟩ := List.nodup_cons.mp hnodup
      have hhead : Function.update d.heads b (d.next a) b = d.next a := Function.update_self ..
      show Path _ (Function.update d.heads b (d.next a) b) post none
      rw [hhead]
      refine hpost.congr fun x hx => ?_
      have hxa : x ≠ a := fun hxa => haout (hxa ▸ hx)
      exact Function.update_of_ne hxa _ _
  · have hcb : c ∈ chains b := by simp [hchain, hus]
    refine hresult _ (fun e he => rfl) (fun x hx => ?_) (Function.update_self ..) ?_
    · have hxa : x ≠ a := fun hxa => hx (hxa ▸ hmem)
      have hxc : x ≠ c := fun hxc => hx (hxc ▸ hcb)
      exact (Function.update_of_ne hxa _ _).trans (Function.update_of_ne hxc _ _)
    · rw [hus, List.append_assoc] at hpath hnodup ⊢
      exact path_unlink hpath hnodup

end Indexes

end ForwardIndex

end Intrusive
