import WepollEx.Lib.Probing
import WepollEx.Lib.Transition
import WepollEx.Port.State

/-!
# The descriptor table

The port finds the registration of a descriptor in an open-addressed table with linear probing and
removal without tombstones.  The functions below return `none` for a loop that does not end.  What
the rest of the development calls the descriptor map of a port is the map this table refines.
-/

namespace WepollEx

open Probing Transition Counting

def WEPOLL_INITIAL_FDS : Nat := 256
def SIZE_MAX : Nat := 2 ^ 64 - 1
/-- `sizeof(ep_sock_t *)`. -/
def POINTER_SIZE : Nat := 8

/-- `fd_table`, `fd_table_size` and `fd_table_count`. -/
structure FdTable where
  slots : Slots Addr
  size : Nat
  count : Nat

def FdTable.empty : FdTable := ⟨fun _ => none, 0, 0⟩

section

-- `sock->fd`, which does not change while the registration is in the table
variable (fd : Addr → Socket)

/-- `(size_t)sock->fd % size`. -/
def fdHome (size : Nat) (sock : Addr) : Nat := (fd sock).toNat % size

/-- The rehash loop of `ep_fd_table_grow` over the slots of the old table. -/
def rehash (newSize : Nat) (old : Slots Addr) : List Nat → Slots Addr → Option (Slots Addr)
  | [], newTable => some newTable
  | i :: is, newTable =>
    match old i with
    | none => rehash newSize old is newTable
    | some sock =>
      match seek newSize (free newTable) newSize (fdHome fd newSize sock) with
      | none => none
      | some slot => rehash newSize old is (Function.update newTable slot (some sock))

def epFdTableGrow (alloc : Bool) (newSize : Nat) (table : FdTable) :
    Option (Option Errno × FdTable) :=
  if newSize = 0 ∨ newSize > SIZE_MAX / POINTER_SIZE then some (some ENOMEM, table)
  else if !alloc then some (some ENOMEM, table)
  else
    match rehash fd newSize table.slots (List.range table.size) fun _ => none with
    | none => none
    | some newTable => some (none, { table with slots := newTable, size := newSize })

/-- The probe loop of `ep_fd_table_lookup`. -/
def lookupLoop (table : FdTable) (key : Socket) : Nat → Nat → Option Addr
  | 0, _ => none
  | probes + 1, slot =>
    match table.slots slot with
    | none => none
    | some sock =>
      if fd sock = key then some sock
      else lookupLoop table key probes ((slot + 1) % table.size)

def epFdTableLookup (table : FdTable) (key : Socket) : Option Addr :=
  if table.size = 0 then none else lookupLoop fd table key table.size (key.toNat % table.size)

/-- The growth at the beginning of `ep_fd_table_insert`. -/
def growForInsert (alloc : Bool) (table : FdTable) : Option (Option Errno × FdTable) :=
  if table.size = 0 ∨ table.count * 4 % 2 ^ 64 ≥ table.size * 3 % 2 ^ 64 then
    if table.size = 0 then epFdTableGrow fd alloc WEPOLL_INITIAL_FDS table
    else if table.size > SIZE_MAX / 2 then some (some ENOMEM, table)
    else epFdTableGrow fd alloc (table.size * 2) table
  else some (none, table)

def epFdTableInsert (alloc : Bool) (sock : Addr) (table : FdTable) :
    Option (Option Errno × FdTable) :=
  match growForInsert fd alloc table with
  | none => none
  | some (some e, table) => some (some e, table)
  | some (none, table) =>
    match seek table.size (free table.slots) table.size (fdHome fd table.size sock) with
    | none => none
    | some slot => some (none, { table with
        slots := Function.update table.slots slot (some sock), count := table.count + 1 })

def epFdTableRemove (sock : Addr) (table : FdTable) : Option FdTable :=
  if table.size = 0 then some table
  else
    match seek table.size (fun slot => table.slots slot = some sock || free table.slots slot)
        table.size (fdHome fd table.size sock) with
    | none => none
    | some slot =>
      if table.slots slot = none then some table
      else
        match closeGap table.size (fdHome fd table.size) table.size slot
            (Function.update table.slots slot none) with
        | none => none
        | some slots => some { table with slots := slots, count := table.count - 1 }

/-! ## The map -/

/-- The table holds exactly the registrations of `entries`. -/
structure FdTable.Ok (table : FdTable) (entries : Socket → Option Addr) : Prop where
  fits : table.size ≤ SIZE_MAX / POINTER_SIZE
  big : table.size = 0 ∨ WEPOLL_INITIAL_FDS ≤ table.size
  once : Once table.size table.slots
  clustered : Clustered table.size (fdHome fd table.size) table.slots
  holds : ∀ a, Holds table.size table.slots a ↔ entries (fd a) = some a
  own : ∀ s a, entries s = some a → fd a = s
  counts : Counts (fun a => entries (fd a) = some a) table.count
  room : table.size = 0 ∨ table.count < table.size

end

section

variable {fd : Addr → Socket} {table : FdTable} {entries : Socket → Option Addr}

theorem ok_empty : FdTable.empty.Ok fd fun _ => none where
  fits := Nat.zero_le _
  big := .inl rfl
  once := fun p hp => absurd hp (Nat.not_lt_zero p)
  clustered := fun p hp => absurd hp (Nat.not_lt_zero p)
  holds := fun _ => ⟨fun ⟨p, hp, _⟩ => absurd hp (Nat.not_lt_zero p), nofun⟩
  own := nofun
  counts := .none nofun
  room := .inl rfl

theorem fdHome_lt {size : Nat} (h : size ≠ 0) (a : Addr) : fdHome fd size a < size :=
  Nat.mod_lt _ (Nat.pos_of_ne_zero h)

theorem FdTable.Ok.free (h : table.Ok fd entries) (hsize : table.size ≠ 0) :
    ∃ e < table.size, table.slots e = none :=
  exists_free h.counts (fun a => (h.holds a).mp) h.once (h.room.resolve_left hsize)

/-! ## Probes for a registration -/

/-- A probe that comes to a free slot has not missed an entry from the same home slot. -/
theorem FdTable.Ok.probe (h : table.Ok fd entries) (hsize : table.size ≠ 0) (stop : Nat → Bool)
    {home : Nat} (hhome : home < table.size) (hstop : ∀ p, table.slots p = none → stop p = true) :
    ∃ t, seek table.size stop table.size home = some t ∧ t < table.size ∧ stop t = true ∧
      (table.slots t = none → ∀ p < table.size, ∀ a, table.slots p = some a →
        fdHome fd table.size a = home → stop p = false) := by
  obtain ⟨e, he, hfree⟩ := h.free hsize
  obtain ⟨t, ht, htn, hts, hle, hgo⟩ :=
    seek_spec he (hstop e hfree) hhome (Nat.le_add_left table.size _)
  refine ⟨t, ht, htn, hts, fun hnone p hp a hpa heq => ?_⟩
  obtain ⟨hbehind, hfull⟩ := h.clustered.near (fdHome_lt hsize) he hfree p hp a hpa
  rw [heq] at hbehind hfull
  refine hgo p hp hbehind ?_
  -- the entry is not behind the free slot, nor in it
  rcases Nat.lt_trichotomy (rank table.size e t) (rank table.size e p) with hlt | hsame | hgt
  · exact absurd hnone (hfull t htn hle hlt)
  · rw [rank_inj he htn hp hsame, hpa] at hnone
    cases hnone
  · exact hgt

theorem lookupLoop_eq (table : FdTable) (key : Socket) (probes slot : Nat) :
    lookupLoop fd table key probes slot =
      (seek table.size (fun p => (table.slots p).all fun a => fd a = key) probes slot).bind
        table.slots := by
  induction probes generalizing slot with
  | zero => rfl
  | succ probes ih =>
    rw [lookupLoop, seek]
    cases hslot : table.slots slot with
    | none => simp [hslot]
    | some a =>
      by_cases ha : fd a = key
      · simp [hslot, ha]
      · simp only [ha, if_false, Option.all_some, decide_false, Bool.false_eq_true]
        exact ih _

/-- A lookup answers as the map does. -/
theorem FdTable.Ok.lookup (h : table.Ok fd entries) (key : Socket) :
    epFdTableLookup fd table key = entries key := by
  unfold epFdTableLookup
  split
  · rename_i hsize
    cases hkey : entries key with
    | none => rfl
    | some a =>
      obtain ⟨p, hp, -⟩ := (h.holds a).mpr (by rw [h.own key a hkey]; exact hkey)
      omega
  · rename_i hsize
    obtain ⟨t, ht, htn, hts, hnone⟩ := h.probe hsize
      (fun p => (table.slots p).all fun a => fd a = key)
      (Nat.mod_lt key.toNat (Nat.pos_of_ne_zero hsize)) fun p hp => by simp [hp]
    rw [lookupLoop_eq, ht, Option.bind_some]
    cases hslot : table.slots t with
    | none =>
      symm
      rw [Option.eq_none_iff_forall_ne_some]
      intro a ha
      have hfd := h.own key a ha
      obtain ⟨p, hp, hpa⟩ := (h.holds a).mpr (by rw [hfd]; exact ha)
      have hgo := hnone hslot p hp a hpa (by rw [fdHome, hfd])
      simp [hpa, hfd] at hgo
    | some a =>
      have hfd : fd a = key := by simpa [hslot] using hts
      rw [← hfd]
      exact ((h.holds a).mp ⟨t, htn, hslot⟩).symm

/-! ## Growing -/

/-- The rehash loop ends if there is room, and it adds the entries of the slots it goes through. -/
theorem rehash_spec (fd : Addr → Socket) {newSize count : Nat} {P : Addr → Prop} {old : Slots Addr} {size : Nat}
    (hP : Counts P count) (room : count < newSize) (hold : ∀ a, Holds size old a → P a)
    (once : Once size old) (is : List Nat) : ∀ (new : Slots Addr), is.Nodup → (∀ i ∈ is, i < size) →
      Once newSize new → Clustered newSize (fdHome fd newSize) new →
      (∀ a, Holds newSize new a → P a) →
      (∀ i ∈ is, ∀ a, old i = some a → ¬Holds newSize new a) →
      ∃ new', rehash fd newSize old is new = some new' ∧ Once newSize new' ∧
        Clustered newSize (fdHome fd newSize) new' ∧
        ∀ a, Holds newSize new' a ↔ Holds newSize new a ∨ ∃ i ∈ is, old i = some a := by
  have hhome : ∀ a, fdHome fd newSize a < newSize := fdHome_lt (by omega)
  induction is with
  | nil =>
    intro new _ _ honce hclustered _ _
    exact ⟨new, rfl, honce, hclustered, fun a => by simp⟩
  | cons i is ih =>
    intro new hnodup hlt honce hclustered hsub hfresh
    obtain ⟨hi, hnodup'⟩ := List.nodup_cons.mp hnodup
    have hlt' : ∀ j ∈ is, j < size := fun j hj => hlt j (List.mem_cons_of_mem i hj)
    unfold rehash
    cases hslot : old i with
    | none =>
      obtain ⟨new', hrun, honce', hclustered', hholds⟩ := ih new hnodup' hlt' honce hclustered hsub
        fun j hj => hfresh j (List.mem_cons_of_mem i hj)
      refine ⟨new', hrun, honce', hclustered', fun a => ?_⟩
      rw [hholds a, List.exists_mem_cons_iff, hslot]
      simp
    | some x =>
      have hx : ¬Holds newSize new x := hfresh i List.mem_cons_self x hslot
      have hPx : P x := hold x ⟨i, hlt i List.mem_cons_self, hslot⟩
      obtain ⟨e, he, hfree⟩ := exists_free hP hsub honce room
      obtain ⟨t, ht, hfirst⟩ := seek_free he hfree (hhome x)
      have htfree := (hfirst e he hfree).free
      have htlt := (hfirst e he hfree).lt
      have hplace : ∀ a, Holds newSize (Function.update new t (some x)) a ↔ _ :=
        holds_place htlt htfree
      have hsub' : ∀ a, Holds newSize (Function.update new t (some x)) a → P a := by
        intro a ha
        rcases (hplace a).mp ha with rfl | ha
        · exact hPx
        · exact hsub a ha
      have honce1 : Once newSize (Function.update new t (some x)) := honce.place hx
      have hclustered1 := hclustered.place hhome hfirst (exists_free hP hsub' honce1 room)
      have hfresh' : ∀ j ∈ is, ∀ a, old j = some a →
          ¬Holds newSize (Function.update new t (some x)) a := by
        intro j hj a ha hheld
        rcases (hplace a).mp hheld with rfl | hheld
        · exact hi (once i (hlt i List.mem_cons_self) j (hlt' j hj) a hslot ha ▸ hj)
        · exact hfresh j (List.mem_cons_of_mem i hj) a ha hheld
      obtain ⟨new', hrun, honce', hclustered', hholds⟩ :=
        ih _ hnodup' hlt' honce1 hclustered1 hsub' hfresh'
      simp only [ht]
      refine ⟨new', hrun, honce', hclustered', fun a => ?_⟩
      rw [hholds a, hplace a, List.exists_mem_cons_iff, hslot]
      constructor
      · rintro ((rfl | ha) | ha)
        · exact .inr (.inl rfl)
        · exact .inl ha
        · exact .inr (.inr ha)
      · rintro (ha | heq | ha)
        · exact .inl (.inr ha)
        · exact .inl (.inl (Option.some.inj heq).symm)
        · exact .inr ha

/-- A growth to more slots than there are entries ends.  It fails without a trace, or keeps the
map. -/
theorem FdTable.Ok.grow (h : table.Ok fd entries) (alloc : Bool) {newSize : Nat}
    (big : WEPOLL_INITIAL_FDS ≤ newSize) (room : table.count < newSize) :
    epFdTableGrow fd alloc newSize table = some (some ENOMEM, table) ∨
      ∃ slots, epFdTableGrow fd alloc newSize table =
          some (none, { table with slots := slots, size := newSize }) ∧
        FdTable.Ok fd { table with slots := slots, size := newSize } entries := by
  unfold epFdTableGrow
  split
  · exact .inl rfl
  rename_i hfits
  split
  · exact .inl rfl
  have hempty : ∀ a : Addr, ¬Holds newSize (fun _ => none) a := by
    rintro a ⟨p, -, hp⟩
    cases hp
  obtain ⟨slots, hrun, honce, hclustered, hholds⟩ := rehash_spec fd h.counts room
    (fun a => (h.holds a).mp) h.once (List.range table.size) (fun _ => none) List.nodup_range
    (fun i hi => List.mem_range.mp hi) nofun nofun
    (fun a ha => absurd ha (hempty a)) fun _ _ a _ => hempty a
  refine .inr ⟨slots, by rw [hrun], ?_⟩
  refine ⟨by dsimp only; omega, .inr big, honce, hclustered, fun a => ?_, h.own, h.counts, .inr room⟩
  rw [hholds a, ← h.holds a, or_iff_right (hempty a)]
  constructor
  · rintro ⟨i, hi, ha⟩
    exact ⟨i, List.mem_range.mp hi, ha⟩
  · rintro ⟨i, hi, ha⟩
    exact ⟨i, List.mem_range.mpr hi, ha⟩

/-! ## Inserting and removing -/

/-- The growth of an insertion leaves room for one more. -/
theorem FdTable.Ok.growForInsert (h : table.Ok fd entries) (alloc : Bool) :
    WepollEx.growForInsert fd alloc table = some (some ENOMEM, table) ∨
      ∃ table', WepollEx.growForInsert fd alloc table = some (none, table') ∧
        table'.Ok fd entries ∧ table'.size ≠ 0 ∧ table'.count + 1 < table'.size := by
  have hfits := h.fits
  have hroom := h.room
  have hmax : SIZE_MAX / POINTER_SIZE = 2305843009213693951 := by decide
  have hinitial : WEPOLL_INITIAL_FDS = 256 := rfl
  have hgrow : ∀ newSize, WEPOLL_INITIAL_FDS ≤ newSize → table.count + 1 < newSize →
      epFdTableGrow fd alloc newSize table = some (some ENOMEM, table) ∨
        ∃ table', epFdTableGrow fd alloc newSize table = some (none, table') ∧
          table'.Ok fd entries ∧ table'.size ≠ 0 ∧ table'.count + 1 < table'.size := by
    intro newSize big room
    refine (h.grow alloc big (by omega)).imp_right ?_
    rintro ⟨slots, hrun, hok⟩
    exact ⟨_, hrun, hok, by dsimp only; omega, room⟩
  unfold WepollEx.growForInsert
  split
  · split
    · rename_i hzero
      have hcount : table.count = 0 := by
        have hnone : ∀ a, ¬entries (fd a) = some a := by
          intro a ha
          obtain ⟨p, hp, -⟩ := (h.holds a).mpr ha
          omega
        by_contra hne
        obtain ⟨a, ha⟩ := h.counts.exists_of_pos (Nat.pos_of_ne_zero hne)
        exact hnone a ha
      exact hgrow _ (Nat.le_refl _) (by omega)
    split
    · exact .inl rfl
    · rename_i hzero _
      have hbig := h.big
      exact hgrow _ (by omega) (by omega)
  · -- the threshold is below the size, and nothing wraps
    rename_i hthreshold
    have hbig := h.big
    obtain ⟨hzero, hbelow⟩ := not_or.mp hthreshold
    rw [Nat.mod_eq_of_lt (by omega), Nat.mod_eq_of_lt (by omega)] at hbelow
    exact .inr ⟨table, rfl, h, hzero, by omega⟩

theorem FdTable.Ok.insert (h : table.Ok fd entries) (alloc : Bool) {sock : Addr}
    (absent : entries (fd sock) = none) :
    epFdTableInsert fd alloc sock table = some (some ENOMEM, table) ∨
      ∃ table', epFdTableInsert fd alloc sock table = some (none, table') ∧
        table'.Ok fd (Function.update entries (fd sock) (some sock)) := by
  unfold epFdTableInsert
  rcases h.growForInsert alloc with hfail | ⟨grown, hgrown, hok, hsize, hroom⟩
  · exact .inl (by rw [hfail])
  right
  rw [hgrown]
  dsimp only
  obtain ⟨e, he, hfree⟩ := hok.free hsize
  have hhome : ∀ a, fdHome fd grown.size a < grown.size := fdHome_lt hsize
  obtain ⟨t, ht, hfirst⟩ := seek_free he hfree (hhome sock)
  have htlt := (hfirst e he hfree).lt
  have hnew : ¬Holds grown.size grown.slots sock := by
    intro hheld
    have := (hok.holds sock).mp hheld
    rw [absent] at this
    cases this
  have hholds : ∀ a, Holds grown.size (Function.update grown.slots t (some sock)) a ↔
      Function.update entries (fd sock) (some sock) (fd a) = some a := by
    intro a
    rw [holds_place htlt (hfirst e he hfree).free, hok.holds a]
    by_cases ha : fd a = fd sock
    · rw [ha, Function.update_self, absent]
      simp [eq_comm]
    · rw [Function.update_of_ne ha, or_iff_right]
      rintro rfl
      exact ha rfl
  have hcounts : Counts (fun a => Function.update entries (fd sock) (some sock) (fd a) = some a)
      (grown.count + 1) := by
    refine hok.counts.insert (a := sock) (by rw [absent]; exact nofun) fun a => ?_
    rw [← hholds a, holds_place htlt (hfirst e he hfree).free, hok.holds a]
  have honce := hok.once.place (t := t) hnew
  rw [ht]
  refine ⟨_, rfl, hok.fits, hok.big, honce, ?_, hholds, ?_, hcounts, .inr hroom⟩
  · exact hok.clustered.place hhome hfirst
      (exists_free hcounts (fun a => (hholds a).mp) honce hroom)
  · intro s a ha
    by_cases hs : s = fd sock
    · rw [hs, Function.update_self] at ha
      rw [hs, Option.some.inj ha]
    · rw [Function.update_of_ne hs] at ha
      exact hok.own s a ha

theorem FdTable.Ok.remove (h : table.Ok fd entries) (sock : Addr) :
    ∃ table', epFdTableRemove fd sock table = some table' ∧
      table'.Ok fd (if entries (fd sock) = some sock then Function.update entries (fd sock) none
        else entries) := by
  unfold epFdTableRemove
  split
  · rename_i hzero
    refine ⟨table, rfl, ?_⟩
    rw [if_neg]
    · exact h
    · intro hin
      obtain ⟨p, hp, -⟩ := (h.holds sock).mpr hin
      omega
  rename_i hsize
  obtain ⟨t, ht, htn, hts, hnone⟩ := h.probe hsize
    (fun slot => table.slots slot = some sock || Probing.free table.slots slot)
    (fdHome_lt hsize sock) fun p hp => by rw [free_iff.mpr hp, Bool.or_true]
  rw [ht]
  dsimp only
  split
  · -- the probe has met no entry of the registration
    rename_i hslot
    refine ⟨table, rfl, ?_⟩
    rw [if_neg]
    · exact h
    · intro hin
      obtain ⟨p, hp, hpa⟩ := (h.holds sock).mpr hin
      have hgo := hnone hslot p hp sock hpa rfl
      simp [hpa] at hgo
  rename_i hslot
  have hsock : table.slots t = some sock := by
    rw [Bool.or_eq_true, free_iff, decide_eq_true_eq] at hts
    exact hts.resolve_right hslot
  have hin : entries (fd sock) = some sock := (h.holds sock).mp ⟨t, htn, hsock⟩
  obtain ⟨e, he, hfree⟩ := h.free hsize
  have hte : t ≠ e := by
    rintro rfl
    exact hslot hfree
  have hhome : ∀ a, fdHome fd table.size a < table.size := fdHome_lt hsize
  obtain ⟨slots', hrun, hfree', hnear', honce', hholds'⟩ := closeGap_spec hhome he table.size htn hte
    (by rwa [Function.update_of_ne hte.symm]) (h.clustered.near hhome he hfree).take h.once.take
    (by omega)
  rw [hrun, if_pos hin]
  have hmap : ∀ a, Function.update entries (fd sock) none (fd a) = some a ↔
      a ≠ sock ∧ entries (fd a) = some a := by
    intro a
    by_cases ha : fd a = fd sock
    · rw [ha, Function.update_self, hin]
      simp [eq_comm]
    · rw [Function.update_of_ne ha]
      refine ⟨fun h => ⟨?_, h⟩, And.right⟩
      rintro rfl
      exact ha rfl
  refine ⟨_, rfl, h.fits, h.big, honce', hnear'.clustered hhome he hfree', fun a => ?_,
    fun s a ha => ?_, h.counts.erase hin hmap, ?_⟩
  · rw [hholds' a, holds_take h.once htn hsock, hmap a, h.holds a]
  · by_cases hs : s = fd sock
    · rw [hs, Function.update_self] at ha
      cases ha
    · rw [Function.update_of_ne hs] at ha
      exact h.own s a ha
  · exact h.room.imp_right fun hroom => Nat.lt_of_le_of_lt (Nat.sub_le _ _) hroom

end

/-! ## Runs -/

/-- The table of a port and the map it stands for. -/
structure TableState where
  table : FdTable
  entries : Socket → Option Addr

inductive TableOp
  /-- Insert a registration whose descriptor is not present; `alloc` answers a growth. -/
  | insert (sock : Addr) (alloc : Bool)
  | remove (sock : Addr)
  /-- A growth of its own, as the creation of a port makes it for a size hint. -/
  | grow (newSize : Nat) (alloc : Bool)
  deriving DecidableEq, Repr

section

variable (fd : Addr → Socket)

def TableState.step (st : TableState) : TableOp → Option TableState
  | .insert sock alloc =>
    if st.entries (fd sock) ≠ none then none
    else
      match epFdTableInsert fd alloc sock st.table with
      | none => none
      | some (some _, table) => some { st with table := table }
      | some (none, table) =>
        some ⟨table, Function.update st.entries (fd sock) (some sock)⟩
  | .remove sock =>
    match epFdTableRemove fd sock st.table with
    | none => none
    | some table =>
      some ⟨table, if st.entries (fd sock) = some sock then
        Function.update st.entries (fd sock) none else st.entries⟩
  | .grow newSize alloc =>
    if newSize < WEPOLL_INITIAL_FDS ∨ newSize ≤ st.table.count then none
    else (epFdTableGrow fd alloc newSize st.table).map fun r => { st with table := r.2 }

/-- The table of `st` is its map. -/
structure TableState.Refines (st : TableState) : Prop where
  lookup : ∀ key, epFdTableLookup fd st.table key = st.entries key
  count : Counts (fun a => st.entries (fd a) = some a) st.table.count
  free : st.table.size ≠ 0 → ∃ slot < st.table.size, st.table.slots slot = none
  clustered : Clustered st.table.size (fdHome fd st.table.size) st.table.slots
  /-- An insertion ends, and a failed one changes nothing. -/
  insert : ∀ sock alloc, st.entries (fd sock) = none →
    ∃ e table, epFdTableInsert fd alloc sock st.table = some (e, table) ∧
      (e ≠ none → table = st.table)
  remove : ∀ sock, ∃ table, epFdTableRemove fd sock st.table = some table
  grow : ∀ newSize alloc, WEPOLL_INITIAL_FDS ≤ newSize → st.table.count < newSize →
    ∃ e table, epFdTableGrow fd alloc newSize st.table = some (e, table) ∧
      (e ≠ none → table = st.table)

end

section

variable {fd : Addr → Socket}

theorem TableState.step_ok {st st' : TableState} {op : TableOp} (h : st.table.Ok fd st.entries)
    (hstep : st.step fd op = some st') : st'.table.Ok fd st'.entries := by
  cases op with
  | insert sock alloc =>
    unfold TableState.step at hstep
    dsimp only at hstep
    split at hstep
    · cases hstep
    rename_i habsent
    rcases h.insert alloc (not_not.mp habsent) with hfail | ⟨table, hrun, hok⟩
    · rw [hfail] at hstep
      cases hstep
      exact h
    · rw [hrun] at hstep
      cases hstep
      exact hok
  | remove sock =>
    unfold TableState.step at hstep
    dsimp only at hstep
    obtain ⟨table, hrun, hok⟩ := h.remove sock
    rw [hrun] at hstep
    cases hstep
    exact hok
  | grow newSize alloc =>
    unfold TableState.step at hstep
    dsimp only at hstep
    split at hstep
    · cases hstep
    rename_i henough
    have hbig : WEPOLL_INITIAL_FDS ≤ newSize := by omega
    rcases h.grow alloc hbig (by omega) with hfail | ⟨slots, hrun, hok⟩
    · rw [hfail] at hstep
      cases hstep
      exact h
    · rw [hrun] at hstep
      cases hstep
      exact hok

end

/-- The descriptor table refines a finite map, in every run from the empty table. -/
theorem fd_table_refines_map (fd : Addr → Socket) (st : TableState)
    (h : Reach (TableState.step fd) ⟨.empty, fun _ => none⟩ st) : st.Refines fd := by
  have hok : st.table.Ok fd st.entries :=
    h.invariant (P := fun st => st.table.Ok fd st.entries) ok_empty
      fun _ _ _ hok hstep => TableState.step_ok hok hstep
  refine ⟨hok.lookup, hok.counts, hok.free, hok.clustered, ?_, ?_, ?_⟩
  · intro sock alloc habsent
    rcases hok.insert alloc habsent with hfail | ⟨table, hrun, -⟩
    · exact ⟨_, _, hfail, fun _ => rfl⟩
    · exact ⟨_, _, hrun, fun hne => absurd rfl hne⟩
  · intro sock
    obtain ⟨table, hrun, -⟩ := hok.remove sock
    exact ⟨table, hrun⟩
  · intro newSize alloc big room
    rcases hok.grow alloc big room with hfail | ⟨slots, hrun, -⟩
    · exact ⟨_, _, hfail, fun _ => rfl⟩
    · exact ⟨_, _, hrun, fun hne => absurd rfl hne⟩

/-- Three descriptors with one home slot; the first is removed. -/
def collisions : List TableOp := [.insert 255 true, .insert 511 true, .insert 767 true, .remove 255]

/-- The others are found although the slot at their home has been freed. -/
theorem fd_table_refines_map_collisions : ∃ st,
    run (TableState.step (BitVec.ofNat 64)) ⟨.empty, fun _ => none⟩ collisions = some st ∧
      st.table.count = 2 ∧ epFdTableLookup (BitVec.ofNat 64) st.table 767 = some 767 := by
  have hrun : (run (TableState.step (BitVec.ofNat 64)) ⟨.empty, fun _ => none⟩ collisions).map
      (fun st => (st.table.count, st.entries 767)) = some (2, some 767) := by
    decide +kernel
  obtain ⟨st, hst, hvalues⟩ := Option.map_eq_some_iff.mp hrun
  simp only [Prod.mk.injEq] at hvalues
  refine ⟨st, hst, hvalues.1, ?_⟩
  rw [(fd_table_refines_map (BitVec.ofNat 64) st (Reach.refl.of_run hst)).lookup, hvalues.2]

end WepollEx
