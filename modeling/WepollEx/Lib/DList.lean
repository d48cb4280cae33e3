import Mathlib.Data.List.Nodup
import Mathlib.Logic.Function.Basic

/-!
# Intrusive doubly linked lists

The links of an intrusive list live outside its elements: `Links` holds the `next` and `prev`
fields of every node, and several lists may share one `Links`.  `Seg` relates a stretch of linked
nodes to the list of nodes it visits; `DList` adds a head and a tail pointer, `HList` only a head.
-/

namespace Intrusive

/-- The `next` and `prev` fields of every node. -/
structure Links (α : Type) where
  next : α → Option α
  prev : α → Option α

namespace Links

variable {α : Type} [DecidableEq α]

def empty : Links α := ⟨fun _ => none, fun _ => none⟩

def setNext (k : Links α) (a : α) (v : Option α) : Links α :=
  { k with next := Function.update k.next a v }

def setPrev (k : Links α) (a : α) (v : Option α) : Links α :=
  { k with prev := Function.update k.prev a v }

/-- `p->next = v` where `p` may be null, in which case nothing is stored. -/
def setNextOf (k : Links α) (p v : Option α) : Links α :=
  match p with
  | none => k
  | some a => k.setNext a v

/-- `p->prev = v` where `p` may be null, in which case nothing is stored. -/
def setPrevOf (k : Links α) (p v : Option α) : Links α :=
  match p with
  | none => k
  | some a => k.setPrev a v

/-- Take `a` out of the list it is linked into and clear its own links. -/
def unlink (k : Links α) (a : α) : Links α :=
  let k := k.setNextOf (k.prev a) (k.next a)
  let k := k.setPrevOf (k.next a) (k.prev a)
  (k.setNext a none).setPrev a none

/-- Link `a` in front of the node `head` points to. -/
def linkFront (k : Links α) (head : Option α) (a : α) : Links α :=
  let k := (k.setPrev a none).setNext a head
  k.setPrevOf head (some a)

/-- Link `a` between the node `e` and the one behind it. -/
def linkAfter (k : Links α) (e a : α) : Links α :=
  let k := (k.setNext a (k.next e)).setPrev a (some e)
  let k := k.setPrevOf (k.next a) (some a)
  k.setNext e (some a)

/-- Link `a` behind the node `tail` points to. -/
def linkBack (k : Links α) (tail : Option α) (a : α) : Links α :=
  (k.setPrev a tail).setNextOf tail (some a)

@[simp] theorem setNext_next (k : Links α) (a : α) (v : Option α) :
    (k.setNext a v).next = Function.update k.next a v := rfl

@[simp] theorem setNext_prev (k : Links α) (a : α) (v : Option α) :
    (k.setNext a v).prev = k.prev := rfl

@[simp] theorem setPrev_prev (k : Links α) (a : α) (v : Option α) :
    (k.setPrev a v).prev = Function.update k.prev a v := rfl

@[simp] theorem setPrev_next (k : Links α) (a : α) (v : Option α) :
    (k.setPrev a v).next = k.next := rfl

@[simp] theorem setNextOf_prev (k : Links α) (p v : Option α) :
    (k.setNextOf p v).prev = k.prev := by
  cases p <;> rfl

@[simp] theorem setPrevOf_next (k : Links α) (p v : Option α) :
    (k.setPrevOf p v).next = k.next := by
  cases p <;> rfl

theorem setNextOf_next_of_ne {k : Links α} {p v : Option α} {b : α} (h : p ≠ some b) :
    (k.setNextOf p v).next b = k.next b := by
  cases p with
  | none => rfl
  | some a => simp [setNextOf, Function.update_of_ne (fun e : b = a => h (e ▸ rfl))]

theorem setPrevOf_prev_of_ne {k : Links α} {p v : Option α} {b : α} (h : p ≠ some b) :
    (k.setPrevOf p v).prev b = k.prev b := by
  cases p with
  | none => rfl
  | some a => simp [setPrevOf, Function.update_of_ne (fun e : b = a => h (e ▸ rfl))]

/-! ## Segments -/

/-- `k.Seg p h xs l t`: starting from the pointer `h`, whose node has predecessor `p`, the `next`
links visit exactly `xs`, the last node visited is `l` (or `p` if there is none), and the link
leaving the segment is `t`. -/
def Seg (k : Links α) : Option α → Option α → List α → Option α → Option α → Prop
  | p, h, [], l, t => h = t ∧ l = p
  | p, h, x :: xs, l, t => h = some x ∧ k.prev x = p ∧ k.Seg (some x) (k.next x) xs l t

omit [DecidableEq α] in
theorem Seg.congr {k k' : Links α} {xs : List α} :
    ∀ {p h l t}, (∀ x ∈ xs, k'.next x = k.next x ∧ k'.prev x = k.prev x) →
      k.Seg p h xs l t → k'.Seg p h xs l t := by
  induction xs with
  | nil => exact fun _ h => h
  | cons x xs ih =>
    intro p h l t agree seg
    obtain ⟨hh, hp, rest⟩ := seg
    have hx := agree x (by simp)
    refine ⟨hh, hx.2.trans hp, ?_⟩
    rw [hx.1]
    exact ih (fun y hy => agree y (by simp [hy])) rest

omit [DecidableEq α] in
theorem seg_append {k : Links α} {xs ys : List α} :
    ∀ {p h l t}, k.Seg p h (xs ++ ys) l t ↔
      ∃ m e, k.Seg p h xs m e ∧ k.Seg m e ys l t := by
  induction xs with
  | nil =>
    intro p h l t
    constructor
    · intro seg
      exact ⟨p, h, ⟨rfl, rfl⟩, seg⟩
    · rintro ⟨m, e, ⟨rfl, rfl⟩, seg⟩
      exact seg
  | cons x xs ih =>
    intro p h l t
    simp only [List.cons_append, Seg, ih]
    constructor
    · rintro ⟨hh, hp, m, e, left, right⟩
      exact ⟨m, e, ⟨hh, hp, left⟩, right⟩
    · rintro ⟨m, e, ⟨hh, hp, left⟩, right⟩
      exact ⟨hh, hp, m, e, left, right⟩

omit [DecidableEq α] in
theorem seg_concat {k : Links α} {xs : List α} {y : α} {p h l t} :
    k.Seg p h (xs ++ [y]) l t ↔
      k.Seg p h xs (k.prev y) (some y) ∧ k.next y = t ∧ l = some y := by
  rw [seg_append]
  constructor
  · rintro ⟨m, e, left, rfl, rfl, ht, hl⟩
    exact ⟨left, ht, hl⟩
  · rintro ⟨left, ht, hl⟩
    exact ⟨_, _, left, rfl, rfl, ht, hl⟩

/-- Storing a node's `next` field does not disturb a segment the node is not on. -/
theorem Seg.setNext_of_notMem {k : Links α} {xs : List α} {p h l t a v}
    (ha : a ∉ xs) (seg : k.Seg p h xs l t) : (k.setNext a v).Seg p h xs l t := by
  refine Seg.congr (k := k) (fun x hx => ⟨?_, rfl⟩) seg
  have hne : x ≠ a := fun e => ha (e ▸ hx)
  exact Function.update_of_ne hne _ _

/-- Storing a node's `prev` field does not disturb a segment the node is not on. -/
theorem Seg.setPrev_of_notMem {k : Links α} {xs : List α} {p h l t a v}
    (ha : a ∉ xs) (seg : k.Seg p h xs l t) : (k.setPrev a v).Seg p h xs l t := by
  refine Seg.congr (k := k) (fun x hx => ⟨rfl, ?_⟩) seg
  have hne : x ≠ a := fun e => ha (e ▸ hx)
  exact Function.update_of_ne hne _ _

/-- Redirect the link that leaves a segment: the segment's head if it is empty, and the `next`
field of its last node otherwise. -/
theorem Seg.retargetEnd {k : Links α} {xs : List α} {p h m e} (e' : Option α)
    (nodup : xs.Nodup) (seg : k.Seg p h xs m e) :
    (k.setNextOf m e').Seg p (if xs = [] then e' else h) xs m e' := by
  rcases List.eq_nil_or_concat xs with rfl | ⟨ys, y, rfl⟩
  · obtain ⟨rfl, rfl⟩ := seg
    exact ⟨by simp, rfl⟩
  · rw [List.concat_eq_append] at *
    rw [seg_concat] at seg
    obtain ⟨left, rfl, rfl⟩ := seg
    have hy : y ∉ ys := by
      intro hy
      exact (List.nodup_append.mp nodup).2.2 y hy y (by simp) rfl
    have hne : ys ++ [y] ≠ [] := by simp
    rw [if_neg hne, seg_concat]
    refine ⟨?_, by simp [setNextOf], rfl⟩
    exact left.setNext_of_notMem hy

/-- Redirect the predecessor of a segment. -/
theorem Seg.retargetStart {k : Links α} {ys : List α} {q h l t} (q' : Option α)
    (nodup : ys.Nodup) (seg : k.Seg q h ys l t) :
    (k.setPrevOf (if ys = [] then none else h) q').Seg q' h ys
      (if ys = [] then q' else l) t := by
  cases ys with
  | nil =>
    obtain ⟨rfl, rfl⟩ := seg
    exact ⟨rfl, by simp⟩
  | cons y ys =>
    obtain ⟨rfl, _, rest⟩ := seg
    refine ⟨rfl, by simp [setPrevOf], ?_⟩
    simp only [reduceCtorEq, if_false, setPrevOf, setPrev_next]
    exact rest.setPrev_of_notMem (List.nodup_cons.mp nodup).1

omit [DecidableEq α] in
theorem Seg.last_mem {k : Links α} {xs : List α} {p h m e y}
    (seg : k.Seg p h xs m e) (hm : m = some y) : p = some y ∨ y ∈ xs := by
  rcases List.eq_nil_or_concat xs with rfl | ⟨ys, z, rfl⟩
  · exact .inl (seg.2 ▸ hm)
  · rw [List.concat_eq_append, seg_concat] at seg
    obtain ⟨_, _, rfl⟩ := seg
    cases hm
    simp

omit [DecidableEq α] in
theorem Seg.head_mem {k : Links α} {xs : List α} {p h l y}
    (seg : k.Seg p h xs l none) (hh : h = some y) : y ∈ xs := by
  cases xs with
  | nil =>
    rw [seg.1] at hh
    cases hh
  | cons x xs =>
    obtain ⟨rfl, _⟩ := seg
    cases hh
    simp

omit [DecidableEq α] in
theorem Seg.head_eq_none_iff {k : Links α} {xs : List α} {p h l}
    (seg : k.Seg p h xs l none) : h = none ↔ xs = [] := by
  cases xs with
  | nil => simp [seg.1]
  | cons x xs => simp [seg.1]

omit [DecidableEq α] in
theorem Seg.last_eq_none_iff {k : Links α} {xs : List α} {h l t}
    (seg : k.Seg none h xs l t) : l = none ↔ xs = [] := by
  rcases List.eq_nil_or_concat xs with rfl | ⟨ys, z, rfl⟩
  · simp [seg.2]
  · rw [List.concat_eq_append, seg_concat] at seg
    simp [seg.2.2]

omit [DecidableEq α] in
/-- The links determine the nodes of a segment that ends. -/
theorem Seg.unique {k : Links α} {xs ys : List α} {p h l l'} (seg : k.Seg p h xs l none)
    (seg' : k.Seg p h ys l' none) : xs = ys := by
  induction xs generalizing p h ys with
  | nil => exact (seg'.head_eq_none_iff.mp seg.1).symm
  | cons x xs ih =>
    obtain ⟨rfl, -, rest⟩ := seg
    cases ys with
    | nil => cases seg'.1
    | cons y ys =>
      obtain ⟨hxy, -, rest'⟩ := seg'
      cases hxy
      rw [ih rest rest']

/-! ## Taking a node out -/

theorem unlink_next_self (k : Links α) (a : α) : (k.unlink a).next a = none := by
  simp [unlink]

theorem unlink_prev_self (k : Links α) (a : α) : (k.unlink a).prev a = none := by
  simp [unlink]

/-- A node that is neither the node taken out nor one of its neighbours keeps its links. -/
theorem unlink_frame {k : Links α} {a b : α} (hb : b ≠ a) (hp : k.prev a ≠ some b)
    (hn : k.next a ≠ some b) (hs : k.prev a ≠ some a) :
    (k.unlink a).next b = k.next b ∧ (k.unlink a).prev b = k.prev b := by
  have hnext : (k.setNextOf (k.prev a) (k.next a)).next a = k.next a := setNextOf_next_of_ne hs
  simp only [unlink, setPrev_next, setNext_next, setPrevOf_next, setPrev_prev, setNext_prev,
    Function.update_of_ne hb, hnext, setNextOf_prev]
  exact ⟨setNextOf_next_of_ne hp, by rw [setPrevOf_prev_of_ne hn, setNextOf_prev]⟩

theorem Seg.unlink {k : Links α} {xs ys : List α} {a : α} {h l}
    (nodup : (xs ++ a :: ys).Nodup) (seg : k.Seg none h (xs ++ a :: ys) l none) :
    (k.unlink a).Seg none (if k.prev a = none then k.next a else h) (xs ++ ys)
      (if k.next a = none then k.prev a else l) none := by
  obtain ⟨m, e, left, rfl, hprev, right⟩ := seg_append.mp seg
  obtain ⟨nodupXs, nodupAys, disj⟩ := List.nodup_append.mp nodup
  obtain ⟨haYs, nodupYs⟩ := List.nodup_cons.mp nodupAys
  have haXs : a ∉ xs := fun ha => disj a ha a (by simp) rfl
  have disj' : ∀ y ∈ xs, y ∉ ys := fun y hx hy => disj y hx y (by simp [hy]) rfl
  have hmem : ∀ y, m = some y → y ∈ xs := by
    intro y hy
    rcases left.last_mem hy with hc | hc
    · cases hc
    · exact hc
  have hma : m ≠ some a := fun hc => haXs (hmem a hc)
  have hnext : (k.setNextOf m (k.next a)).next a = k.next a := setNextOf_next_of_ne hma
  -- first store: the predecessor skips `a`
  have left1 := Seg.retargetEnd (k.next a) nodupXs left
  have right1 : (k.setNextOf m (k.next a)).Seg (some a) (k.next a) ys l none := by
    cases m with
    | none => exact right
    | some y => exact right.setNext_of_notMem (disj' y (hmem y rfl))
  -- second store: the successor points back over `a`
  have right2 := Seg.retargetStart m nodupYs right1
  have hif : (if ys = [] then none else k.next a) = k.next a := by
    split
    · next hys => exact (right.head_eq_none_iff.mpr hys).symm
    · rfl
  rw [hif] at right2
  have left2 : ((k.setNextOf m (k.next a)).setPrevOf (k.next a) m).Seg none
      (if xs = [] then k.next a else h) xs m (k.next a) := by
    cases hn : k.next a with
    | none => simpa [setPrevOf, hn] using left1
    | some y =>
      rw [hn] at left1
      refine left1.setPrev_of_notMem fun hy => ?_
      exact disj' y hy (right.head_mem hn)
  have joined := seg_append.mpr ⟨_, _, left2, right2⟩
  have haJoined : a ∉ xs ++ ys := by simp [haXs, haYs]
  have cleared := (joined.setNext_of_notMem (v := none) haJoined).setPrev_of_notMem
    (v := none) haJoined
  have hm : (m = none) = (xs = []) := propext left.last_eq_none_iff
  have hy : (k.next a = none) = (ys = []) := propext right.head_eq_none_iff
  simp only [Links.unlink, hprev, hnext, setNextOf_prev]
  simpa only [hm, hy] using cleared

/-! ## Putting a node in -/

theorem Seg.linkFront {k : Links α} {xs : List α} {a : α} {h l}
    (nodup : xs.Nodup) (ha : a ∉ xs) (seg : k.Seg none h xs l none) :
    (k.linkFront h a).Seg none (some a) (a :: xs) (if xs = [] then some a else l) none := by
  have base : ((k.setPrev a none).setNext a h).Seg none h xs l none :=
    (seg.setPrev_of_notMem ha).setNext_of_notMem ha
  have moved := Seg.retargetStart (some a) nodup base
  have hif : (if xs = [] then none else h) = h := by
    split
    · next hxs => exact (seg.head_eq_none_iff.mpr hxs).symm
    · rfl
  rw [hif] at moved
  have hah : h ≠ some a := fun hc => ha (seg.head_mem hc)
  refine ⟨rfl, ?_, ?_⟩
  · simp [Links.linkFront, setPrevOf_prev_of_ne hah]
  · simpa [Links.linkFront] using moved

theorem Seg.linkBack {k : Links α} {xs : List α} {a : α} {h l}
    (nodup : xs.Nodup) (ha : a ∉ xs) (hnext : k.next a = none) (seg : k.Seg none h xs l none) :
    (k.linkBack l a).Seg none (if l = none then some a else h) (xs ++ [a]) (some a) none := by
  have base : (k.setPrev a l).Seg none h xs l none := seg.setPrev_of_notMem ha
  have moved := Seg.retargetEnd (some a) nodup base
  have hl : (l = none) = (xs = []) := propext seg.last_eq_none_iff
  have hla : l ≠ some a := by
    intro hc
    rcases seg.last_mem hc with hn | hm
    · cases hn
    · exact ha hm
  rw [seg_concat]
  refine ⟨?_, ?_, rfl⟩
  · simpa [Links.linkBack, hl] using moved
  · simp [Links.linkBack, setNextOf_next_of_ne hla, hnext]

theorem Seg.linkAfter {k : Links α} {xs : List α} {e a : α} {l} (nodup : (e :: xs).Nodup)
    (ha : a ∉ e :: xs) (seg : k.Seg none (some e) (e :: xs) l none) :
    (k.linkAfter e a).Seg none (some e) (e :: a :: xs) (if xs = [] then some a else l) none := by
  obtain ⟨-, hprev, rest⟩ := seg
  obtain ⟨hexs, hxs⟩ := List.nodup_cons.mp nodup
  have hne : e ≠ a := fun h => ha (h ▸ List.mem_cons_self)
  have haxs : a ∉ xs := fun h => ha (List.mem_cons_of_mem e h)
  have hnext : ((k.setNext a (k.next e)).setPrev a (some e)).next a = k.next e := by simp
  -- the nodes behind `e` now follow `a`
  have base : ((k.setNext a (k.next e)).setPrev a (some e)).Seg (some e) (k.next e) xs l none :=
    (rest.setNext_of_notMem haxs).setPrev_of_notMem haxs
  have moved := Seg.retargetStart (some a) hxs base
  have hif : (if xs = [] then none else k.next e) = k.next e := by
    split
    · next hnil => exact (rest.head_eq_none_iff.mpr hnil).symm
    · rfl
  rw [hif] at moved
  have hnotHead : ∀ b, b ∉ xs → k.next e ≠ some b := fun b hb hc => hb (rest.head_mem hc)
  unfold Links.linkAfter
  simp only [hnext]
  refine ⟨rfl, ?_, by simp, ?_, ?_⟩
  · simp [setPrevOf_prev_of_ne (hnotHead e hexs), Function.update_of_ne hne, hprev]
  · simp [setPrevOf_prev_of_ne (hnotHead a haxs)]
  · have hkeep := moved.setNext_of_notMem (v := some a) hexs
    simpa [Function.update_of_ne hne.symm] using hkeep

end Links

/-! ## Lists with a head and a tail pointer -/

/-- An intrusive list with both end pointers. -/
structure DList (α : Type) where
  head : Option α
  tail : Option α
  links : Links α
  /-- No assertion of an operation on the list has failed. -/
  asserted : Bool

namespace DList

variable {α : Type} [DecidableEq α]

def empty : DList α := ⟨none, none, .empty, true⟩

/-- `assert(b)`. -/
def check (d : DList α) (b : Bool) : DList α := { d with asserted := d.asserted && b }

def append (d : DList α) (a : α) : DList α where
  head := if d.tail = none then some a else d.head
  tail := some a
  links := d.links.linkBack d.tail a
  asserted := d.asserted && ((d.links.next a).isNone && (d.links.prev a).isNone)

def remove (d : DList α) (a : α) : DList α where
  head := if d.links.prev a = none then d.links.next a else d.head
  tail := if d.links.next a = none then d.links.prev a else d.tail
  links := d.links.unlink a
  asserted := d.asserted &&
    (((d.links.prev a).isSome || d.head = some a) && ((d.links.next a).isSome || d.tail = some a))

/-- Move the head node `a` behind the tail. -/
def rotate (d : DList α) (a : α) : DList α :=
  let d := d.check (d.head = some a)
  if d.tail = some a then d
  else
    let head := d.links.next a
    let links := d.links.setPrevOf head none
    let links := (links.setNext a none).setPrev a d.tail
    { d with head, tail := some a, links := links.setNextOf d.tail (some a) }

theorem rotate_tail (d : DList α) (a : α) : (d.rotate a).tail = some a := by
  by_cases htail : d.tail = some a <;> simp [rotate, check, htail]

/-- `d` represents `xs`: the end pointers and links run through exactly `xs`, no node occurs
twice, and every other node has null links. -/
structure Repr (d : DList α) (xs : List α) : Prop where
  seg : d.links.Seg none d.head xs d.tail none
  nodup : xs.Nodup
  off : ∀ a ∉ xs, d.links.next a = none ∧ d.links.prev a = none

omit [DecidableEq α] in
theorem repr_empty : (empty : DList α).Repr [] :=
  ⟨⟨rfl, rfl⟩, List.nodup_nil, fun _ _ => ⟨rfl, rfl⟩⟩

omit [DecidableEq α] in
@[simp] theorem check_head (d : DList α) (b : Bool) : (d.check b).head = d.head := rfl

omit [DecidableEq α] in
@[simp] theorem check_tail (d : DList α) (b : Bool) : (d.check b).tail = d.tail := rfl

omit [DecidableEq α] in
@[simp] theorem check_links (d : DList α) (b : Bool) : (d.check b).links = d.links := rfl

omit [DecidableEq α] in
@[simp] theorem check_asserted (d : DList α) (b : Bool) :
    (d.check b).asserted = (d.asserted && b) := rfl

namespace Repr

variable {d : DList α} {xs ys : List α} {a : α}

omit [DecidableEq α] in
theorem check (h : d.Repr xs) (b : Bool) : (d.check b).Repr xs := ⟨h.seg, h.nodup, h.off⟩

theorem append (h : d.Repr xs) (ha : a ∉ xs) : (d.append a).Repr (xs ++ [a]) where
  seg := h.seg.linkBack h.nodup ha (h.off a ha).1
  nodup := by
    rw [List.nodup_append]
    refine ⟨h.nodup, by simp, ?_⟩
    intro x hx y hy
    rw [List.mem_singleton] at hy
    exact fun e => ha (hy ▸ e ▸ hx)
  off := by
    intro b hb
    simp only [List.mem_append, List.mem_singleton, not_or] at hb
    have htail : d.tail ≠ some b := by
      intro hc
      rcases h.seg.last_mem hc with hn | hm
      · cases hn
      · exact hb.1 hm
    simp only [DList.append, Links.linkBack, Links.setNextOf_prev, Links.setPrev_prev,
      Function.update_of_ne hb.2, Links.setNextOf_next_of_ne htail, Links.setPrev_next]
    exact h.off b hb.1

theorem remove_middle (h : d.Repr (xs ++ a :: ys)) : (d.remove a).Repr (xs ++ ys) where
  seg := h.seg.unlink h.nodup
  nodup := (List.nodup_middle.mp h.nodup).of_cons
  off := by
    intro b hb
    obtain ⟨m, e, left, rfl, hprev, right⟩ := Links.seg_append.mp h.seg
    have haXs : a ∉ xs := fun ha => (List.nodup_append.mp h.nodup).2.2 a ha a (by simp) rfl
    by_cases hba : b = a
    · subst hba
      exact ⟨Links.unlink_next_self _ _, Links.unlink_prev_self _ _⟩
    have hmem : ∀ y, m = some y → y ∈ xs := by
      intro y hy
      rcases left.last_mem hy with hc | hc
      · cases hc
      · exact hc
    have hbxy : b ∉ xs ∧ b ∉ ys := by simpa using hb
    have frame := Links.unlink_frame (k := d.links) hba
      (fun hc => hbxy.1 (hmem b (hprev ▸ hc))) (fun hc => hbxy.2 (right.head_mem hc))
      (fun hc => haXs (hmem a (hprev ▸ hc)))
    simp only [DList.remove, frame]
    exact h.off b (by simp [hba, hbxy])

theorem remove (h : d.Repr xs) (ha : a ∈ xs) : (d.remove a).Repr (xs.erase a) := by
  obtain ⟨us, vs, rfl⟩ := List.append_of_mem ha
  have haUs : a ∉ us := fun hc => (List.nodup_append.mp h.nodup).2.2 a hc a (by simp) rfl
  rw [List.erase_append_right _ haUs, List.erase_cons_head]
  exact h.remove_middle

/-- Rotating the head to the back is removing it and appending it again. -/
theorem rotate (h : d.Repr (a :: xs)) : (d.rotate a).Repr (xs ++ [a]) := by
  obtain ⟨hhead, hprev, rest⟩ := h.seg
  obtain ⟨haXs, nodup⟩ := List.nodup_cons.mp h.nodup
  by_cases htail : d.tail = some a
  · have hxs : xs = [] := by
      rcases List.eq_nil_or_concat xs with hc | ⟨ys, z, rfl⟩
      · exact hc
      · rw [List.concat_eq_append, Links.seg_concat] at rest
        rw [rest.2.2] at htail
        cases htail
        simp at haXs
    subst hxs
    simpa [DList.rotate, htail] using h.check _
  · have hxs : xs ≠ [] := by
      rintro rfl
      exact htail rest.2
    have hnextNone : d.links.next a ≠ none := fun hc => hxs (rest.head_eq_none_iff.mp hc)
    have removed : (d.remove a).Repr xs := remove_middle (show d.Repr ([] ++ a :: xs) from h)
    have moved := removed.append haXs
    suffices d.rotate a = (d.remove a).append a by rw [this]; exact moved
    obtain ⟨t, ht⟩ : ∃ t, d.tail = some t := by
      refine Option.ne_none_iff_exists'.mp fun hc => ?_
      exact List.cons_ne_nil _ _ (h.seg.last_eq_none_iff.mp hc)
    have hta : t ≠ a := fun e => htail (e ▸ ht)
    obtain ⟨n, hn⟩ : ∃ n, d.links.next a = some n := Option.ne_none_iff_exists'.mp hnextNone
    simp [DList.rotate, DList.append, DList.remove, Links.unlink, Links.linkBack, hprev, hn,
      Links.setNextOf, Links.setPrevOf, ht, hta, Links.setNext, Links.setPrev, hhead]

omit [DecidableEq α] in
theorem mem_iff_linked (h : d.Repr xs) :
    a ∈ xs ↔ d.links.prev a ≠ none ∨ d.links.next a ≠ none ∨ d.head = some a := by
  constructor
  · intro ha
    obtain ⟨us, vs, rfl⟩ := List.append_of_mem ha
    obtain ⟨m, e, left, rfl, hprev, _⟩ := Links.seg_append.mp h.seg
    by_cases hm : m = none
    · rw [left.last_eq_none_iff] at hm
      subst hm
      exact .inr (.inr left.1)
    · exact .inl (hprev ▸ hm)
  · intro hl
    by_contra ha
    obtain ⟨hn, hp⟩ := h.off a ha
    rcases hl with hc | hc | hc
    · exact hc hp
    · exact hc hn
    · exact ha (h.seg.head_mem hc)

omit [DecidableEq α] in
theorem head_eq (h : d.Repr xs) : d.head = xs.head? := by
  cases xs with
  | nil => exact h.seg.1
  | cons x xs => exact h.seg.1

omit [DecidableEq α] in
theorem unique (h : d.Repr xs) (h' : d.Repr ys) : xs = ys := h.seg.unique h'.seg

theorem append_asserted (h : d.Repr xs) (ha : a ∉ xs) : (d.append a).asserted = d.asserted := by
  simp [DList.append, h.off a ha]

theorem remove_asserted (h : d.Repr xs) (ha : a ∈ xs) : (d.remove a).asserted = d.asserted := by
  obtain ⟨us, vs, rfl⟩ := List.append_of_mem ha
  obtain ⟨m, e, left, rfl, hprev, right⟩ := Links.seg_append.mp h.seg
  have hfirst : (d.links.prev a).isSome = true ∨ d.head = some a := by
    cases hm : m with
    | some b => exact .inl (by rw [hprev, hm]; rfl)
    | none =>
      obtain rfl := left.last_eq_none_iff.mp hm
      exact .inr left.1
  have hlast : (d.links.next a).isSome = true ∨ d.tail = some a := by
    cases hn : d.links.next a with
    | some b => exact .inl rfl
    | none =>
      obtain rfl := right.head_eq_none_iff.mp hn
      exact .inr right.2
  simp only [DList.remove]
  rcases hfirst with hf | hf <;> rcases hlast with hl | hl <;> simp [hf, hl]

end Repr

/-- `d` links exactly the nodes that satisfy `member`, once each, and `n` is their number. -/
def Lists (d : DList α) (n : Nat) (member : α → Prop) : Prop :=
  ∃ xs, d.Repr xs ∧ (∀ a, a ∈ xs ↔ member a) ∧ n = xs.length

namespace Lists

variable {d : DList α} {n : Nat} {member member' : α → Prop} {a : α}

omit [DecidableEq α] in
theorem congr (h : d.Lists n member) (hm : ∀ b, member b ↔ member' b) : d.Lists n member' := by
  obtain ⟨xs, repr, mem, rfl⟩ := h
  exact ⟨xs, repr, fun b => (mem b).trans (hm b), rfl⟩

theorem append (h : d.Lists n member) (ha : ¬member a) :
    (d.append a).Lists (n + 1) fun b => b = a ∨ member b := by
  obtain ⟨xs, repr, mem, rfl⟩ := h
  have haXs : a ∉ xs := fun hc => ha ((mem a).mp hc)
  refine ⟨xs ++ [a], repr.append haXs, fun b => ?_, by simp⟩
  rw [List.mem_append, List.mem_singleton, mem b]
  exact or_comm

omit [DecidableEq α] in
theorem check (h : d.Lists n member) (b : Bool) : (d.check b).Lists n member := by
  obtain ⟨xs, repr, mem, rfl⟩ := h
  exact ⟨xs, repr.check b, mem, rfl⟩

theorem remove (h : d.Lists n member) (ha : member a) :
    (d.remove a).Lists (n - 1) fun b => b ≠ a ∧ member b := by
  obtain ⟨xs, repr, mem, rfl⟩ := h
  have haXs : a ∈ xs := (mem a).mpr ha
  refine ⟨xs.erase a, repr.remove haXs, fun b => ?_, (List.length_erase_of_mem haXs).symm⟩
  rw [repr.nodup.mem_erase_iff, mem b]

/-- Rotating a node that is at one of the two ends. -/
theorem rotate (h : d.Lists n member) (ends : d.head = some a ∨ d.tail = some a) :
    (d.rotate a).Lists n member := by
  by_cases htail : d.tail = some a
  · obtain ⟨xs, repr, mem, rfl⟩ := h
    refine ⟨xs, ?_, mem, rfl⟩
    simpa [DList.rotate, htail] using repr.check _
  · obtain ⟨xs, repr, mem, rfl⟩ := h
    have hhead := ends.resolve_right htail
    rw [repr.head_eq] at hhead
    obtain ⟨ys, rfl⟩ := List.head?_eq_some_iff.mp hhead
    refine ⟨ys ++ [a], repr.rotate, fun b => ?_, by simp⟩
    rw [← mem b, List.mem_append, List.mem_singleton, List.mem_cons]
    exact or_comm

end Lists

end DList

/-! ## Lists with a head pointer only -/

/-- An intrusive list that keeps no tail pointer. -/
structure HList (α : Type) where
  head : Option α
  links : Links α

namespace HList

variable {α : Type} [DecidableEq α]

def empty : HList α := ⟨none, .empty⟩

def push (d : HList α) (a : α) : HList α where
  head := some a
  links := d.links.linkFront d.head a

def remove (d : HList α) (a : α) : HList α where
  head := if d.links.prev a = none then d.links.next a else d.head
  links := d.links.unlink a

/-- Put `a` behind the node `e`. -/
def insertAfter (d : HList α) (e a : α) : HList α := { d with links := d.links.linkAfter e a }

/-- `d` represents `xs`; the last node is not stored, so it is only said to exist. -/
structure Repr (d : HList α) (xs : List α) : Prop where
  seg : ∃ l, d.links.Seg none d.head xs l none
  nodup : xs.Nodup

omit [DecidableEq α] in
theorem repr_empty : (empty : HList α).Repr [] := ⟨⟨none, rfl, rfl⟩, List.nodup_nil⟩

namespace Repr

variable {d : HList α} {xs : List α} {a : α}

theorem push (h : d.Repr xs) (ha : a ∉ xs) : (d.push a).Repr (a :: xs) := by
  obtain ⟨l, seg⟩ := h.seg
  exact ⟨⟨_, seg.linkFront h.nodup ha⟩, List.nodup_cons.mpr ⟨ha, h.nodup⟩⟩

theorem remove (h : d.Repr xs) (ha : a ∈ xs) : (d.remove a).Repr (xs.erase a) := by
  obtain ⟨l, seg⟩ := h.seg
  have nodup := h.nodup
  obtain ⟨us, vs, rfl⟩ := List.append_of_mem ha
  have haUs : a ∉ us := fun hc => (List.nodup_append.mp nodup).2.2 a hc a (by simp) rfl
  rw [List.erase_append_right _ haUs, List.erase_cons_head]
  exact ⟨⟨_, seg.unlink nodup⟩, (List.nodup_middle.mp nodup).of_cons⟩

theorem insertAfter {e : α} (h : d.Repr (e :: xs)) (ha : a ∉ e :: xs) :
    (d.insertAfter e a).Repr (e :: a :: xs) := by
  obtain ⟨l, seg⟩ := h.seg
  have hhead : d.head = some e := seg.1
  rw [hhead] at seg
  have linked := seg.linkAfter h.nodup ha
  rw [← hhead] at linked
  have hnodup : (a :: e :: xs).Nodup := List.nodup_cons.mpr ⟨ha, h.nodup⟩
  exact ⟨⟨_, linked⟩, (List.Perm.swap e a xs).nodup_iff.mp hnodup⟩

omit [DecidableEq α] in
theorem head_eq (h : d.Repr xs) : d.head = xs.head? := by
  obtain ⟨l, seg⟩ := h.seg
  cases xs with
  | nil => exact seg.1
  | cons x xs => exact seg.1

end Repr

end HList

end Intrusive
