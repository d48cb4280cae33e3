import WepollEx.Lib.Chains
import WepollEx.Lib.Transition
import WepollEx.Port.State

/-!
# The buffer pool

A pool keeps its buffers in a stack and, for the time it is destroyed, in a list of all buffers.
Both lists run through the headers of the buffers.  A function returns `none` when it would follow a
pointer to freed memory or not end.

`entries` and `handedOut` are ghosts: the buffers allocated since the pool was initialised, and
those the callers have taken and not given back.  So is `history`, the values of `in_use` since then.
-/

namespace WepollEx.Pool

open Intrusive Transition

abbrev EntryId := Nat
abbrev PoolId := Nat

/-- The pool this development looks at. -/
def self : PoolId := 0

def EFAULT : Errno := 14

/-- `ep_pool_entry_t`; `magic` says that the field has the magic value. -/
structure Entry where
  next : Option EntryId
  allNext : Option EntryId
  owner : Option PoolId
  magic : Bool
  inPool : Bool
  deriving DecidableEq, Repr

abbrev Heap := EntryId → Option Entry

/-- `ep_afd_pool_t`. -/
structure AfdPool where
  stack : Option EntryId
  allEntries : Option EntryId
  bufSize : Nat
  capacity : Nat
  allocated : Nat
  inUse : Nat
  peak : Nat
  initialized : Bool
  deriving DecidableEq, Repr

/-- After `memset`. -/
def AfdPool.zero : AfdPool := ⟨none, none, 0, 0, 0, 0, 0, false⟩

structure State where
  pool : AfdPool
  heap : Heap
  entries : List EntryId
  handedOut : List EntryId
  history : List Nat

def State.start : State := ⟨.zero, fun _ => none, [], [], []⟩

/-- `malloc`; an address in use is not returned. -/
def malloc (heap : Heap) (answer : Option EntryId) : Option EntryId :=
  answer.filter fun a => (heap a).isNone

def SIZE_MAX : Nat := 2 ^ 64 - 1

/-- `offsetof(ep_pool_entry_t, data)`. -/
def headerSize : Nat := 80

/-- The address that `ep_pool_entry_alloc` returns. -/
def epPoolEntryAlloc (st : State) (answer : Option EntryId) : Option EntryId :=
  if st.pool.bufSize > SIZE_MAX - headerSize then none else malloc st.heap answer

/-- The header that `ep_pool_entry_alloc` fills in. -/
def newEntry (inPool : Bool) : Entry := ⟨none, none, some self, true, inPool⟩

/-- `ep_pool_entries_free`, for at most `fuel` entries. -/
def epPoolEntriesFree : Nat → Option EntryId → Heap → Option (List EntryId × Heap)
  | _, none, heap => some ([], heap)
  | 0, some _, _ => none
  | fuel + 1, some a, heap =>
    match heap a with
    | none => none
    | some entry =>
      match epPoolEntriesFree fuel entry.allNext (Function.update heap a none) with
      | none => none
      | some (freed, heap) => some (a :: freed, heap)

/-! ## Initialisation -/

/-- A new entry on both lists. -/
def State.prefill (st : State) (a : EntryId) : State :=
  { st with
    pool := { st.pool with
      stack := some a, allEntries := some a, allocated := st.pool.allocated + 1 }
    heap := Function.update st.heap a
      (some { newEntry true with next := st.pool.stack, allNext := st.pool.allEntries })
    entries := a :: st.entries }

/-- The loop of `ep_afd_pool_init` with `n` entries to go. -/
def initLoop (allocs : Nat → Option EntryId) : Nat → State → Option (Option Errno × State)
  | 0, st => some (none, st)
  | n + 1, st =>
    match epPoolEntryAlloc st (allocs n) with
    | some a => initLoop allocs n (st.prefill a)
    | none =>
      match epPoolEntriesFree st.pool.allocated st.pool.allEntries st.heap with
      | none => none
      | some (_, heap) => some (some ENOMEM, { st with
          pool := { st.pool with
            stack := none, allEntries := none, allocated := 0, initialized := false }
          heap := heap
          entries := []
          handedOut := []
          history := [] })

def epAfdPoolInit (mutexInit : Option Errno) (allocs : Nat → Option EntryId)
    (bufSize capacity : Nat) (st : State) : Option (Option Errno × State) :=
  if bufSize = 0 ∨ capacity = 0 then some (some EINVAL, st)
  else
    let st := { st with pool := .zero, entries := [], handedOut := [], history := [] }
    match mutexInit with
    | some rc => some (some rc, st)
    | none =>
      initLoop allocs capacity { st with
        pool := { st.pool with bufSize := bufSize, capacity := capacity, initialized := true }
        history := [0] }

/-! ## Taking and giving back -/

/-- The entry is handed out: the second half of `ep_afd_pool_take`. -/
def State.handOut (st : State) (a : EntryId) (entry : Entry) : State :=
  let now := st.pool.inUse + 1
  { st with
    pool := { st.pool with inUse := now, peak := if now > st.pool.peak then now else st.pool.peak }
    heap := Function.update st.heap a (some { entry with next := none, inPool := false })
    handedOut := a :: st.handedOut
    history := now :: st.history }

/-- The first entry of the stack is handed out. -/
def State.pop (st : State) (a : EntryId) (entry : Entry) : State :=
  ({ st with pool := { st.pool with stack := entry.next } } : State).handOut a entry

/-- `lock` is the error of `pthread_mutex_lock`, `alloc` answers the `malloc` of an empty pool. -/
def epAfdPoolTake (lock : Option Errno) (alloc : Option EntryId) (st : State) :
    Option (Except Errno EntryId × State) :=
  if !st.pool.initialized then some (.error EFAULT, st)
  else
    match lock with
    | some rc => some (.error rc, st)
    | none =>
      match st.pool.stack with
      | some a =>
        match st.heap a with
        | none => none
        | some entry => some (.ok a, st.pop a entry)
      | none =>
        match epPoolEntryAlloc st alloc with
        | none => some (.error ENOMEM, st)
        | some a =>
          let entry := { newEntry false with allNext := st.pool.allEntries }
          some (.ok a, ({ st with
            pool := { st.pool with allEntries := some a, allocated := st.pool.allocated + 1 }
            entries := a :: st.entries } : State).handOut a entry)

def epAfdPoolGive (lock : Option Errno) (a : EntryId) (st : State) :
    Option (Option Errno × State) :=
  match st.heap a with
  | none => none
  | some entry =>
    if !entry.magic || entry.owner ≠ some self || !st.pool.initialized then some (some EINVAL, st)
    else
      match lock with
      | some rc => some (some rc, st)
      | none =>
        if entry.inPool then some (some EINVAL, st)
        else
          let st := { st with
            heap := Function.update st.heap a
              (some { entry with inPool := true, next := st.pool.stack })
            pool := { st.pool with stack := some a }
            handedOut := st.handedOut.erase a }
          if st.pool.inUse > 0 then
            some (none, { st with
              pool := { st.pool with inUse := st.pool.inUse - 1 }
              history := (st.pool.inUse - 1) :: st.history })
          else some (some EINVAL, st)

def epAfdPoolDestroy (lock : Option Errno) (st : State) :
    Option (Option Errno × List EntryId × State) :=
  if !st.pool.initialized then some (none, [], st)
  else
    match lock with
    | some rc => some (some rc, [], st)
    | none =>
      if st.pool.inUse ≠ 0 then some (some EBUSY, [], st)
      else
        match epPoolEntriesFree st.pool.allocated st.pool.allEntries st.heap with
        | none => none
        | some (freed, heap) => some (none, freed, { st with
            pool := { st.pool with
              stack := none, allEntries := none, allocated := 0, initialized := false }
            heap := heap
            entries := []
            handedOut := []
            history := [] })

/-! ## Runs -/

inductive Act
  | init (mutexInit : Option Errno) (allocs : Nat → Option EntryId) (bufSize capacity : Nat)
  | take (lock : Option Errno) (alloc : Option EntryId)
  | give (lock : Option Errno) (a : EntryId)
  | destroy (lock : Option Errno)
  /-- Another pool allocates, changes or frees an entry. -/
  | foreign (a : EntryId) (entry : Option Entry)

/-- The memory is not an entry of this pool. -/
def Foreign (entry : Option Entry) : Prop := ∀ e, entry = some e → e.owner ≠ some self

instance (entry : Option Entry) : Decidable (Foreign entry) :=
  match entry with
  | none => .isTrue nofun
  | some e => decidable_of_iff (e.owner ≠ some self)
      ⟨fun h _ he => Option.some.inj he ▸ h, fun h => h e rfl⟩

/-- The callers give back a buffer of this pool, or a live one of another pool. -/
def State.MayGive (st : State) (a : EntryId) : Prop :=
  a ∈ st.entries ∨ Foreign (st.heap a) ∧ st.heap a ≠ none

instance (st : State) (a : EntryId) : Decidable (st.MayGive a) :=
  inferInstanceAs (Decidable (_ ∨ _))

def State.step (st : State) : Act → Option State
  | .init mutexInit allocs bufSize capacity =>
    (epAfdPoolInit mutexInit allocs bufSize capacity st).map Prod.snd
  | .take lock alloc => (epAfdPoolTake lock alloc st).map Prod.snd
  | .give lock a =>
    if st.MayGive a then (epAfdPoolGive lock a st).map Prod.snd else none
  | .destroy lock => (epAfdPoolDestroy lock st).map fun r => r.2.2
  | .foreign a entry =>
    if Foreign (st.heap a) ∧ Foreign entry then
      some { st with heap := Function.update st.heap a entry }
    else none

/-! ## The two lists -/

def Heap.next (heap : Heap) (a : EntryId) : Option EntryId := (heap a).bind Entry.next

def Heap.allNext (heap : Heap) (a : EntryId) : Option EntryId := (heap a).bind Entry.allNext

def Heap.inPool (heap : Heap) (a : EntryId) : Bool := (heap a).any Entry.inPool

/-- The entry carries the mark of this pool. -/
def Heap.Marked (heap : Heap) (a : EntryId) : Prop :=
  ∃ entry, heap a = some entry ∧ entry.owner = some self ∧ entry.magic = true

section Update

variable {heap : Heap} {a b : EntryId} {entry : Entry}

theorem next_update : Heap.next (Function.update heap a (some entry)) =
    Function.update heap.next a entry.next := by
  funext b
  by_cases hb : b = a <;> simp [Heap.next, hb]

theorem allNext_update : Heap.allNext (Function.update heap a (some entry)) =
    Function.update heap.allNext a entry.allNext := by
  funext b
  by_cases hb : b = a <;> simp [Heap.allNext, hb]

theorem inPool_update : Heap.inPool (Function.update heap a (some entry)) =
    Function.update heap.inPool a entry.inPool := by
  funext b
  by_cases hb : b = a <;> simp [Heap.inPool, hb]

theorem marked_update (ho : entry.owner = some self) (hm : entry.magic = true)
    (h : b = a ∨ heap.Marked b) : Heap.Marked (Function.update heap a (some entry)) b := by
  by_cases hb : b = a
  · exact ⟨entry, by simp [hb], ho, hm⟩
  · obtain ⟨e, he, hmark⟩ := h.resolve_left hb
    exact ⟨e, by simp [Function.update_of_ne hb, he], hmark⟩

theorem not_marked (h : Foreign (heap a)) : ¬ heap.Marked a :=
  fun ⟨e, he, ho, _⟩ => h e he ho

end Update

/-- The lists and the counters of an initialised pool whose stack is `free`. -/
structure Laid (st : State) (free : List EntryId) : Prop where
  marked : ∀ a ∈ st.entries, st.heap.Marked a
  stack : Path st.heap.next st.pool.stack free none
  all : Path st.heap.allNext st.pool.allEntries st.entries none
  free_nodup : free.Nodup
  entries_nodup : st.entries.Nodup
  mem_free : ∀ a, a ∈ free ↔ a ∈ st.entries ∧ st.heap.inPool a = true
  mem_handedOut : ∀ a, a ∈ st.handedOut ↔ a ∈ st.entries ∧ st.heap.inPool a = false
  handedOut_nodup : st.handedOut.Nodup
  allocated : st.entries.length = st.pool.allocated
  inUse : st.pool.inUse + free.length = st.pool.allocated
  used : st.history.head? = some st.pool.inUse
  peak : st.pool.peak ∈ st.history ∧ ∀ n ∈ st.history, n ≤ st.pool.peak

/-- An address outside the pool's entries. -/
theorem Laid.not_mem {st : State} {free : List EntryId} {a : EntryId} (hst : Laid st free)
    (h : Foreign (st.heap a)) : a ∉ st.entries :=
  fun ha => not_marked h (hst.marked a ha)

theorem foreign_none {heap : Heap} {a : EntryId} (h : heap a = none) : Foreign (heap a) := by
  intro e he
  cases h.symm.trans he

theorem Laid.not_free {st : State} {free : List EntryId} {a : EntryId} (hst : Laid st free)
    (ha : a ∉ st.entries) : a ∉ free := fun h => ha ((hst.mem_free a).mp h).1

theorem Laid.not_handedOut {st : State} {free : List EntryId} {a : EntryId} (hst : Laid st free)
    (ha : a ∉ st.entries) : a ∉ st.handedOut := fun h => ha ((hst.mem_handedOut a).mp h).1

theorem Laid.prefill {st : State} {free : List EntryId} {a : EntryId} (hst : Laid st free)
    (hfresh : st.heap a = none) : Laid (st.prefill a) (a :: free) := by
  have ha : a ∉ st.entries := hst.not_mem (foreign_none hfresh)
  simp only [State.prefill]
  constructor
  case marked =>
    intro b hb
    exact marked_update rfl rfl ((List.mem_cons.mp hb).imp id (hst.marked b))
  case stack =>
    rw [next_update]
    exact ⟨rfl, by simpa using hst.stack.store (hst.not_free ha)⟩
  case all =>
    rw [allNext_update]
    exact ⟨rfl, by simpa using hst.all.store ha⟩
  case free_nodup => exact List.nodup_cons.mpr ⟨hst.not_free ha, hst.free_nodup⟩
  case entries_nodup => exact List.nodup_cons.mpr ⟨ha, hst.entries_nodup⟩
  case mem_free =>
    intro b
    rw [inPool_update]
    by_cases hb : b = a
    · simp [hb, newEntry]
    · simp [hb, hst.mem_free b]
  case mem_handedOut =>
    intro b
    rw [inPool_update]
    by_cases hb : b = a
    · simp [hb, newEntry, hst.not_handedOut ha]
    · simp [hb, hst.mem_handedOut b]
  case handedOut_nodup => exact hst.handedOut_nodup
  case allocated => simp [hst.allocated]
  case inUse =>
    have := hst.inUse
    simp only [List.length_cons]
    omega
  case used => exact hst.used
  case peak => exact hst.peak

theorem Laid.pop {st : State} {free : List EntryId} {a : EntryId} {entry : Entry}
    (hst : Laid st (a :: free)) (hentry : st.heap a = some entry) :
    Laid (st.pop a entry) free := by
  obtain ⟨hmem, hin⟩ := (hst.mem_free a).mp List.mem_cons_self
  obtain ⟨hnot, hnodup⟩ := List.nodup_cons.mp hst.free_nodup
  obtain ⟨e, he, howner, hmagic⟩ := hst.marked a hmem
  obtain rfl : e = entry := Option.some.inj (he.symm.trans hentry)
  have hout : a ∉ st.handedOut := fun h => by simp [((hst.mem_handedOut a).mp h).2] at hin
  simp only [State.pop, State.handOut]
  constructor
  case marked => exact fun b hb => marked_update howner hmagic (.inr (hst.marked b hb))
  case stack =>
    rw [next_update]
    have hrest : Path st.heap.next (st.heap.next a) free none := hst.stack.2
    rw [Heap.next, hentry] at hrest
    exact hrest.store hnot
  case all =>
    rw [allNext_update]
    refine hst.all.congr fun b _ => ?_
    by_cases hb : b = a
    · simp [hb, Heap.allNext, hentry]
    · simp [hb]
  case free_nodup => exact hnodup
  case entries_nodup => exact hst.entries_nodup
  case mem_free =>
    intro b
    rw [inPool_update]
    by_cases hb : b = a
    · simp [hb, hnot]
    · simpa [hb] using hst.mem_free b
  case mem_handedOut =>
    intro b
    rw [inPool_update]
    by_cases hb : b = a
    · simp [hb, hmem]
    · simpa [hb] using hst.mem_handedOut b
  case handedOut_nodup => exact List.nodup_cons.mpr ⟨hout, hst.handedOut_nodup⟩
  case allocated => exact hst.allocated
  case inUse =>
    have := hst.inUse
    simp only [List.length_cons] at this
    simp only
    omega
  case used => rfl
  case peak =>
    obtain ⟨hpeak, hmax⟩ := hst.peak
    simp only [List.forall_mem_cons]
    split
    · refine ⟨List.mem_cons_self, le_rfl, fun n hn => ?_⟩
      have := hmax n hn
      omega
    · exact ⟨List.mem_cons_of_mem _ hpeak, by omega, hmax⟩

/-- Growing an empty pool and taking the new entry is putting it on the stack and taking it. -/
theorem grow_eq {st : State} {a : EntryId} (hstack : st.pool.stack = none) :
    ({ st with
      pool := { st.pool with allEntries := some a, allocated := st.pool.allocated + 1 }
      entries := a :: st.entries } : State).handOut a
        { newEntry false with allNext := st.pool.allEntries } =
    (st.prefill a).pop a
      { newEntry true with next := st.pool.stack, allNext := st.pool.allEntries } := by
  simp [State.pop, State.prefill, State.handOut, newEntry, hstack]

theorem Laid.push {st : State} {free : List EntryId} {a : EntryId} {entry : Entry}
    (hst : Laid st free) (hmem : a ∈ st.entries) (hentry : st.heap a = some entry)
    (hin : entry.inPool = false) :
    0 < st.pool.inUse ∧ Laid { st with
      heap := Function.update st.heap a (some { entry with inPool := true, next := st.pool.stack })
      pool := { st.pool with stack := some a, inUse := st.pool.inUse - 1 }
      handedOut := st.handedOut.erase a
      history := (st.pool.inUse - 1) :: st.history } (a :: free) := by
  have hpool : st.heap.inPool a = false := by simp [Heap.inPool, hentry, hin]
  have hnot : a ∉ free := fun h => by simp [((hst.mem_free a).mp h).2] at hpool
  obtain ⟨e, he, howner, hmagic⟩ := hst.marked a hmem
  obtain rfl : e = entry := Option.some.inj (he.symm.trans hentry)
  -- the stack and this entry are different entries of the pool
  have hlen : free.length < st.pool.allocated := by
    have hnodup : (a :: free).Nodup := List.nodup_cons.mpr ⟨hnot, hst.free_nodup⟩
    have hsub : (a :: free) ⊆ st.entries :=
      List.cons_subset.mpr ⟨hmem, fun b hb => ((hst.mem_free b).mp hb).1⟩
    rw [← hst.allocated]
    exact (hnodup.subperm hsub).length_le
  have hcount := hst.inUse
  refine ⟨by omega, ?_⟩
  constructor
  case marked => exact fun b hb => marked_update howner hmagic (.inr (hst.marked b hb))
  case stack =>
    rw [next_update]
    exact ⟨rfl, by simpa using hst.stack.store hnot⟩
  case all =>
    rw [allNext_update]
    refine hst.all.congr fun b _ => ?_
    by_cases hb : b = a
    · simp [hb, Heap.allNext, hentry]
    · simp [hb]
  case free_nodup => exact List.nodup_cons.mpr ⟨hnot, hst.free_nodup⟩
  case entries_nodup => exact hst.entries_nodup
  case mem_free =>
    intro b
    rw [inPool_update]
    by_cases hb : b = a
    · simp [hb, hmem]
    · simpa [hb] using hst.mem_free b
  case mem_handedOut =>
    intro b
    rw [inPool_update, hst.handedOut_nodup.mem_erase_iff]
    by_cases hb : b = a
    · simp [hb]
    · simpa [hb] using hst.mem_handedOut b
  case handedOut_nodup => exact hst.handedOut_nodup.erase a
  case allocated => exact hst.allocated
  case inUse =>
    simp only [List.length_cons]
    omega
  case used => rfl
  case peak =>
    obtain ⟨hpeak, hmax⟩ := hst.peak
    refine ⟨List.mem_cons_of_mem _ hpeak, List.forall_mem_cons.mpr ⟨?_, hmax⟩⟩
    have := hmax st.pool.inUse (List.mem_of_mem_head? hst.used)
    simp only
    omega

theorem Laid.elsewhere {st : State} {free : List EntryId} {heap : Heap} (hst : Laid st free)
    (hsame : ∀ b ∈ st.entries, heap b = st.heap b) : Laid { st with heap := heap } free := by
  have hfree : ∀ b ∈ free, b ∈ st.entries := fun b hb => ((hst.mem_free b).mp hb).1
  have hin : ∀ b v, b ∈ st.entries ∧ heap.inPool b = v ↔
      b ∈ st.entries ∧ st.heap.inPool b = v := by
    intro b v
    refine and_congr_right fun hb => ?_
    rw [Heap.inPool, Heap.inPool, hsame b hb]
  constructor
  case marked =>
    intro b hb
    obtain ⟨entry, hentry, hmark⟩ := hst.marked b hb
    exact ⟨entry, (hsame b hb).trans hentry, hmark⟩
  case stack =>
    exact hst.stack.congr fun b hb => congrArg (·.bind Entry.next) (hsame b (hfree b hb))
  case all => exact hst.all.congr fun b hb => congrArg (·.bind Entry.allNext) (hsame b hb)
  case free_nodup => exact hst.free_nodup
  case entries_nodup => exact hst.entries_nodup
  case mem_free => exact fun b => (hst.mem_free b).trans (hin b true).symm
  case mem_handedOut => exact fun b => (hst.mem_handedOut b).trans (hin b false).symm
  case handedOut_nodup => exact hst.handedOut_nodup
  case allocated => exact hst.allocated
  case inUse => exact hst.inUse
  case used => exact hst.used
  case peak => exact hst.peak

/-- Along the list of all entries each is freed once. -/
theorem epPoolEntriesFree_eq {xs : List EntryId} :
    ∀ {h : Option EntryId} {heap : Heap}, Path heap.allNext h xs none → xs.Nodup →
      (∀ a ∈ xs, heap a ≠ none) →
      epPoolEntriesFree xs.length h heap =
        some (xs, fun a => if a ∈ xs then none else heap a) := by
  induction xs with
  | nil =>
    intro h heap hp _ _
    obtain rfl : h = none := hp
    simp [epPoolEntriesFree]
  | cons x xs ih =>
    intro h heap hp hnodup hlive
    obtain ⟨rfl, hrest⟩ := hp
    obtain ⟨hx, hxs⟩ := List.nodup_cons.mp hnodup
    obtain ⟨entry, hentry⟩ := Option.ne_none_iff_exists'.mp (hlive x List.mem_cons_self)
    have hsame : ∀ b ∈ xs, Function.update heap x none b = heap b :=
      fun b hb => Function.update_of_ne (ne_of_mem_of_not_mem hb hx) _ _
    have hnext : Path (Heap.allNext (Function.update heap x none)) entry.allNext xs none := by
      rw [Heap.allNext, hentry] at hrest
      exact hrest.congr fun b hb => by rw [Heap.allNext, Heap.allNext, hsame b hb]
    have htail := ih hnext hxs fun b hb => by
      rw [hsame b hb]
      exact hlive b (List.mem_cons_of_mem _ hb)
    simp only [List.length_cons, epPoolEntriesFree, hentry, htail]
    congr 2
    funext b
    by_cases hb : b = x
    · simp [hb]
    · simp [hb]

theorem Laid.freed {st : State} {free : List EntryId} (hst : Laid st free) :
    epPoolEntriesFree st.pool.allocated st.pool.allEntries st.heap =
      some (st.entries, fun a => if a ∈ st.entries then none else st.heap a) := by
  rw [← hst.allocated]
  refine epPoolEntriesFree_eq hst.all hst.entries_nodup fun a ha => ?_
  obtain ⟨e, he, _⟩ := hst.marked a ha
  simp [he]

/-! ## What the operations keep -/

/-- The invariant of the runs. -/
def Sound (st : State) : Prop :=
  if st.pool.initialized then ∃ free, Laid st free else st.entries = []

theorem Sound.laid {st : State} (h : Sound st) (hinit : st.pool.initialized = true) :
    ∃ free, Laid st free := by
  rwa [Sound, if_pos hinit] at h

theorem Laid.sound {st : State} {free : List EntryId} (h : Laid st free)
    (hinit : st.pool.initialized = true) : Sound st := by
  rw [Sound, if_pos hinit]
  exact ⟨free, h⟩

theorem epPoolEntryAlloc_fresh {st : State} {answer : Option EntryId} {a : EntryId}
    (h : epPoolEntryAlloc st answer = some a) : st.heap a = none := by
  rw [epPoolEntryAlloc] at h
  split at h
  · cases h
  · simpa using (Option.filter_eq_some_iff.mp h).2

theorem initLoop_sound {allocs : Nat → Option EntryId} {n : Nat} :
    ∀ {st : State} {free : List EntryId}, Laid st free → st.pool.initialized = true →
      ∃ r st', initLoop allocs n st = some (r, st') ∧ Sound st' := by
  induction n with
  | zero => exact fun hst hinit => ⟨_, _, rfl, hst.sound hinit⟩
  | succ n ih =>
    intro st free hst hinit
    rw [initLoop]
    cases ha : epPoolEntryAlloc st (allocs n) with
    | some a => exact ih (hst.prefill (epPoolEntryAlloc_fresh ha)) hinit
    | none =>
      simp only [hst.freed]
      exact ⟨_, _, rfl, rfl⟩

theorem init_sound (mutexInit : Option Errno) (allocs : Nat → Option EntryId)
    (bufSize capacity : Nat) {st : State} (hst : Sound st) :
    ∃ r st', epAfdPoolInit mutexInit allocs bufSize capacity st = some (r, st') ∧ Sound st' := by
  rw [epAfdPoolInit]
  split
  · exact ⟨_, _, rfl, hst⟩
  · cases mutexInit with
    | some rc => exact ⟨_, _, rfl, rfl⟩
    | none =>
      refine initLoop_sound (?_ : Laid _ []) rfl
      constructor <;> simp [AfdPool.zero, Intrusive.Path]

theorem take_sound (lock : Option Errno) (alloc : Option EntryId) {st : State} (hst : Sound st) :
    ∃ r st', epAfdPoolTake lock alloc st = some (r, st') ∧ Sound st' ∧
      ∀ a, r = .ok a → a ∉ st.handedOut ∧ st'.handedOut = a :: st.handedOut := by
  unfold epAfdPoolTake
  cases hinit : st.pool.initialized with
  | false => exact ⟨_, _, rfl, hst, nofun⟩
  | true =>
    obtain ⟨free, hlaid⟩ := hst.laid hinit
    cases lock with
    | some rc => exact ⟨_, _, rfl, hst, nofun⟩
    | none =>
      cases hstack : st.pool.stack with
      | some a =>
        obtain ⟨x, free, rfl⟩ : ∃ x xs, free = x :: xs := by
          cases free with
          | nil => cases hstack.symm.trans hlaid.stack
          | cons x xs => exact ⟨x, xs, rfl⟩
        obtain rfl : a = x := Option.some.inj (hstack.symm.trans hlaid.stack.1)
        obtain ⟨hmem, hin⟩ := (hlaid.mem_free a).mp List.mem_cons_self
        obtain ⟨entry, hentry, _⟩ := hlaid.marked a hmem
        simp only [hentry]
        refine ⟨_, _, rfl, (hlaid.pop hentry).sound hinit, fun b hb => ?_⟩
        obtain rfl : a = b := Except.ok.inj hb
        exact ⟨fun h => by simp [((hlaid.mem_handedOut a).mp h).2] at hin, rfl⟩
      | none =>
        cases ha : epPoolEntryAlloc st alloc with
        | none => exact ⟨_, _, rfl, hst, nofun⟩
        | some a =>
          have hfresh := epPoolEntryAlloc_fresh ha
          have hpop := (hlaid.prefill hfresh).pop (Function.update_self a _ _)
          rw [← grow_eq hstack] at hpop
          refine ⟨_, _, rfl, hpop.sound hinit, fun b hb => ?_⟩
          obtain rfl : a = b := Except.ok.inj hb
          exact ⟨hlaid.not_handedOut (hlaid.not_mem (foreign_none hfresh)), rfl⟩

theorem give_sound (lock : Option Errno) {a : EntryId} {st : State} (hst : Sound st)
    (hmay : st.MayGive a) :
    ∃ r st', epAfdPoolGive lock a st = some (r, st') ∧ Sound st' ∧
      (a ∉ st.handedOut → r ≠ none ∧ st' = st) := by
  obtain ⟨entry, hentry⟩ : ∃ entry, st.heap a = some entry := by
    rcases hmay with ha | ⟨_, hlive⟩
    · by_cases hinit : st.pool.initialized = true
      · obtain ⟨free, hlaid⟩ := hst.laid hinit
        obtain ⟨entry, hentry, _⟩ := hlaid.marked a ha
        exact ⟨entry, hentry⟩
      · rw [Sound, if_neg hinit] at hst
        simp [hst] at ha
    · exact Option.ne_none_iff_exists'.mp hlive
  simp only [epAfdPoolGive, hentry]
  split
  · exact ⟨_, _, rfl, hst, fun _ => ⟨nofun, rfl⟩⟩
  · rename_i hchecks
    simp only [Bool.or_eq_true, Bool.not_eq_true', decide_eq_true_eq, not_or, Bool.not_eq_false,
      not_not] at hchecks
    obtain ⟨⟨_, howner⟩, hinit⟩ := hchecks
    obtain ⟨free, hlaid⟩ := hst.laid hinit
    have hmem : a ∈ st.entries := hmay.resolve_right fun h => h.1 entry hentry howner
    cases lock with
    | some rc => exact ⟨_, _, rfl, hst, fun _ => ⟨nofun, rfl⟩⟩
    | none =>
      cases hin : entry.inPool with
      | true => exact ⟨_, _, rfl, hst, fun _ => ⟨nofun, rfl⟩⟩
      | false =>
        obtain ⟨hpos, hpush⟩ := hlaid.push hmem hentry hin
        have hout : a ∈ st.handedOut :=
          (hlaid.mem_handedOut a).mpr ⟨hmem, by simp [Heap.inPool, hentry, hin]⟩
        simp only [Bool.false_eq_true, if_false, gt_iff_lt, if_pos hpos]
        exact ⟨_, _, rfl, hpush.sound hinit, fun h => absurd hout h⟩

/-- What a destroyed pool leaves. -/
def State.destroyed (st : State) : State :=
  { st with
    pool := { st.pool with stack := none, allEntries := none, allocated := 0, initialized := false }
    heap := fun a => if a ∈ st.entries then none else st.heap a
    entries := []
    handedOut := []
    history := [] }

theorem destroy_sound (lock : Option Errno) {st : State} (hst : Sound st) :
    ∃ r freed st', epAfdPoolDestroy lock st = some (r, freed, st') ∧ Sound st' ∧
      (st.pool.initialized = true → lock = none → st.pool.inUse = 0 →
        r = none ∧ freed = st.entries ∧ st' = st.destroyed) ∧
      (st.pool.inUse ≠ 0 → freed = [] ∧ st' = st) := by
  unfold epAfdPoolDestroy
  cases hinit : st.pool.initialized with
  | false => exact ⟨_, _, _, rfl, hst, nofun, fun _ => ⟨rfl, rfl⟩⟩
  | true =>
    obtain ⟨free, hlaid⟩ := hst.laid hinit
    cases lock with
    | some rc => exact ⟨_, _, _, rfl, hst, nofun, fun _ => ⟨rfl, rfl⟩⟩
    | none =>
      by_cases huse : st.pool.inUse = 0
      · simp only [hlaid.freed, if_neg (not_not.mpr huse)]
        exact ⟨_, _, _, rfl, rfl, fun _ _ _ => ⟨rfl, rfl, rfl⟩, fun h => absurd huse h⟩
      · rw [if_neg (by simp), if_pos huse]
        exact ⟨_, _, _, rfl, hst, fun _ _ h => absurd h huse, fun _ => ⟨rfl, rfl⟩⟩

theorem Sound.step {st st' : State} {a : Act} (hst : Sound st) (h : st.step a = some st') :
    Sound st' := by
  cases a with
  | init mutexInit allocs bufSize capacity =>
    obtain ⟨r, s, hs, hsound⟩ := init_sound mutexInit allocs bufSize capacity hst
    simp only [State.step, hs, Option.map_some, Option.some.injEq] at h
    exact h ▸ hsound
  | take lock alloc =>
    obtain ⟨r, s, hs, hsound, _⟩ := take_sound lock alloc hst
    simp only [State.step, hs, Option.map_some, Option.some.injEq] at h
    exact h ▸ hsound
  | give lock b =>
    simp only [State.step] at h
    split at h
    · rename_i hmay
      obtain ⟨r, s, hs, hsound, _⟩ := give_sound lock hst hmay
      simp only [hs, Option.map_some, Option.some.injEq] at h
      exact h ▸ hsound
    · cases h
  | destroy lock =>
    obtain ⟨r, freed, s, hs, hsound, _⟩ := destroy_sound lock hst
    simp only [State.step, hs, Option.map_some, Option.some.injEq] at h
    exact h ▸ hsound
  | foreign b entry =>
    simp only [State.step] at h
    split at h
    · rename_i hforeign
      cases h
      by_cases hinit : st.pool.initialized = true
      · obtain ⟨free, hlaid⟩ := hst.laid hinit
        have hb := hlaid.not_mem hforeign.1
        refine (hlaid.elsewhere fun c hc => ?_).sound hinit
        exact Function.update_of_ne (ne_of_mem_of_not_mem hc hb) _ _
      · rw [Sound, if_neg hinit] at hst ⊢
        exact hst
    · cases h

theorem Sound.reach {st : State} (h : Reach State.step .start st) : Sound st :=
  h.invariant rfl fun _ _ _ hst hstep => hst.step hstep

/-! ## The pool in every run -/

end WepollEx.Pool
