import WepollEx.Lib.Counting
import WepollEx.Lib.DList
import WepollEx.Lib.Transition
import WepollEx.Port.State

/-!
# AFD handle groups

The registrations of a port share AFD helper handles in groups of at most `WEPOLL_AFD_GROUP_SIZE`.
The port embeds the first group; the others are allocated when no group has room and freed with
their last registration.  A group is on the list of groups and, while it has room, on the list of
available groups.

`opened` and `closed` are ghosts: the handles are numbered in the order in which they are opened.
-/

namespace WepollEx.AfdGroups

open Intrusive Transition Counting

abbrev GroupId := Nat
abbrev Handle := Nat

def WEPOLL_AFD_GROUP_SIZE : Nat := 128

/-- `&port->afd_group`. -/
def embedded : GroupId := 0

/-- `ep_afd_group_t` without its links. -/
structure Group where
  socketCount : Nat
  afd : Handle
  deriving DecidableEq, Repr

structure State where
  /-- The groups in memory. -/
  groups : GroupId → Option Group
  /-- The list from the embedded group on. -/
  list : HList GroupId
  /-- `port->afd_available`. -/
  available : HList GroupId
  /-- `sock->afd_group`. -/
  afdGroup : Addr → Option GroupId
  /-- No assertion has failed and no freed group has been used. -/
  asserted : Bool
  opened : Nat
  closed : List Handle

def State.start : State where
  groups := Function.update (fun _ => none) embedded (some ⟨0, 0⟩)
  list := ⟨some embedded, .empty⟩
  available := ⟨some embedded, .empty⟩
  afdGroup := fun _ => none
  asserted := true
  opened := 1
  closed := []

/-- Put a new group behind the embedded one. -/
def State.newGroup (st : State) (g : GroupId) : State :=
  { st with
    groups := Function.update st.groups g (some ⟨0, st.opened⟩)
    list := st.list.insertAfter embedded g
    available := st.available.push g
    opened := st.opened + 1 }

/-- The end of `ep_sock_acquire_afd_group_locked`, for the group it has found. -/
def State.assign (st : State) (sock : Addr) (g : GroupId) : State :=
  match st.groups g with
  | none => { st with asserted := false }
  | some group =>
    { st with
      asserted := st.asserted && group.socketCount < WEPOLL_AFD_GROUP_SIZE
      groups := Function.update st.groups g
        (some { group with socketCount := group.socketCount + 1 })
      available :=
        if group.socketCount + 1 = WEPOLL_AFD_GROUP_SIZE then st.available.remove g
        else st.available
      afdGroup := Function.update st.afdGroup sock (some g) }

/-- `ep_sock_acquire_afd_group_locked`; `alloc` is the memory of a new group, `afdOpen` the error
of `ep_afd_open`. -/
def epSockAcquireAfdGroupLocked (alloc : Option GroupId) (afdOpen : Option Errno) (sock : Addr)
    (st : State) : Option Errno × State :=
  match st.afdGroup sock with
  | some _ => (none, st)
  | none =>
    match st.available.head with
    | some g => (none, st.assign sock g)
    | none =>
      match alloc, afdOpen with
      | none, _ => (some ENOMEM, st)
      | some _, some e => (some e, st)
      | some g, none => (none, (st.newGroup g).assign sock g)

/-- The registration leaves its group. -/
def State.unassign (st : State) (sock : Addr) (g : GroupId) (group : Group) : State :=
  { st with
    asserted := st.asserted && 0 < group.socketCount
    afdGroup := Function.update st.afdGroup sock none
    groups := Function.update st.groups g
      (some { group with socketCount := group.socketCount - 1 })
    available :=
      if group.socketCount = WEPOLL_AFD_GROUP_SIZE then st.available.push g else st.available }

/-- An empty group is closed and freed. -/
def State.dropGroup (st : State) (g : GroupId) (afd : Handle) : State :=
  { st with
    available := st.available.remove g
    list := st.list.remove g
    closed := afd :: st.closed
    groups := Function.update st.groups g none }

def epSockReleaseAfdGroupLocked (sock : Addr) (st : State) : State :=
  match st.afdGroup sock with
  | none => st
  | some g =>
    match st.groups g with
    | none => { st with asserted := false }
    | some group =>
      let st := st.unassign sock g group
      if group.socketCount - 1 = 0 ∧ g ≠ embedded then st.dropGroup g group.afd else st

inductive Act
  /-- The memory of a new group is not in use. -/
  | acquire (sock : Addr) (alloc : Option GroupId) (afdOpen : Option Errno)
  | release (sock : Addr)
  deriving DecidableEq, Repr

def State.step (st : State) : Act → Option State
  | .acquire sock alloc afdOpen =>
    if (alloc.bind st.groups).isSome then none
    else some (epSockAcquireAfdGroupLocked alloc afdOpen sock st).2
  | .release sock => some (epSockReleaseAfdGroupLocked sock st)

/-! ## The invariant -/

/-- The group is in memory. -/
def State.live (st : State) (g : GroupId) : Prop := ∃ group, st.groups g = some group

/-- The group has room for another registration. -/
def State.hasRoom (st : State) (g : GroupId) : Prop :=
  ∃ group, st.groups g = some group ∧ group.socketCount < WEPOLL_AFD_GROUP_SIZE

/-- What holds of the groups; `fresh` is a group that waits for its first registration or has lost
its last one. -/
structure Inv (st : State) (fresh : Option GroupId) : Prop where
  asserted : st.asserted = true
  counts : ∀ g group, st.groups g = some group →
    Counts (fun sock => st.afdGroup sock = some g) group.socketCount ∧
      group.socketCount ≤ WEPOLL_AFD_GROUP_SIZE
  used : ∀ g group, st.groups g = some group → g ≠ embedded → some g ≠ fresh →
    0 < group.socketCount
  assigned : ∀ sock g, st.afdGroup sock = some g → st.live g
  available : ∃ xs, st.available.Repr xs ∧ ∀ g, g ∈ xs ↔ st.hasRoom g
  list : ∃ gs, st.list.Repr (embedded :: gs) ∧ ∀ g, g ∈ embedded :: gs ↔ st.live g
  handles : ∀ g group, st.groups g = some group → group.afd < st.opened ∧ group.afd ∉ st.closed
  distinct : ∀ g group g' group', st.groups g = some group → st.groups g' = some group' →
    group.afd = group'.afd → g = g'
  nodup : st.closed.Nodup
  closed : ∀ handle < st.opened, (∀ g group, st.groups g = some group → group.afd ≠ handle) →
    handle ∈ st.closed
  bounded : ∀ handle ∈ st.closed, handle < st.opened

section

variable {st : State} {fresh : Option GroupId} {g h : GroupId} {group : Group} {sock : Addr}

theorem update_some {groups : GroupId → Option Group} {x : Option Group}
    (hh : Function.update groups g x h = some group) :
    (h = g ∧ x = some group) ∨ (h ≠ g ∧ groups h = some group) := by
  by_cases heq : h = g
  · rw [heq, Function.update_self] at hh
    exact .inl ⟨heq, hh⟩
  · rw [Function.update_of_ne heq] at hh
    exact .inr ⟨heq, hh⟩

theorem groupSize_pos : 0 < WEPOLL_AFD_GROUP_SIZE := by decide

theorem repr_singleton : (⟨some embedded, .empty⟩ : HList GroupId).Repr [embedded] :=
  ⟨⟨some embedded, rfl, rfl, rfl, rfl⟩, List.nodup_singleton _⟩

theorem inv_start : Inv .start none := by
  have honly : ∀ {g group}, State.start.groups g = some group → g = embedded ∧ group = ⟨0, 0⟩ := by
    intro g group hg
    have hupdate : Function.update (fun _ => none) embedded (some ⟨0, 0⟩) g = some group := hg
    rcases update_some hupdate with ⟨rfl, hx⟩ | ⟨-, hx⟩
    · exact ⟨rfl, (Option.some.inj hx).symm⟩
    · cases hx
  have hthere : State.start.groups embedded = some ⟨0, 0⟩ := rfl
  constructor
  · rfl
  · intro g group hg
    obtain ⟨rfl, rfl⟩ := honly hg
    exact ⟨.none nofun, Nat.zero_le _⟩
  · intro g group hg hne
    exact absurd (honly hg).1 hne
  · exact nofun
  · refine ⟨[embedded], repr_singleton, fun g => ?_⟩
    rw [List.mem_singleton]
    constructor
    · rintro rfl
      exact ⟨_, hthere, groupSize_pos⟩
    · rintro ⟨group, hg, -⟩
      exact (honly hg).1
  · refine ⟨[], repr_singleton, fun g => ?_⟩
    rw [List.mem_singleton]
    constructor
    · rintro rfl
      exact ⟨_, hthere⟩
    · rintro ⟨group, hg⟩
      exact (honly hg).1
  · intro g group hg
    obtain ⟨rfl, rfl⟩ := honly hg
    exact ⟨Nat.zero_lt_one, nofun⟩
  · intro g group g' group' hg hg' _
    rw [(honly hg).1, (honly hg').1]
  · exact List.nodup_nil
  · intro handle hlt hnone
    have : handle = 0 := Nat.lt_one_iff.mp hlt
    exact absurd this.symm (hnone embedded _ hthere)
  · exact nofun

/-! ## A new group -/

theorem Inv.newGroup (inv : Inv st none) (hfresh : st.groups g = none) :
    Inv (st.newGroup g) (some g) := by
  have hnew : ∀ {h group}, (st.newGroup g).groups h = some group →
      (h = g ∧ group = ⟨0, st.opened⟩) ∨ (h ≠ g ∧ st.groups h = some group) := by
    intro h group hh
    exact (update_some hh).imp_left fun ⟨heq, hx⟩ => ⟨heq, (Option.some.inj hx).symm⟩
  have hself : (st.newGroup g).groups g = some ⟨0, st.opened⟩ := Function.update_self ..
  have hother : ∀ {h}, h ≠ g → (st.newGroup g).groups h = st.groups h :=
    fun hne => Function.update_of_ne hne ..
  have hold : ∀ {h group}, st.groups h = some group → h ≠ g := by
    rintro h group hh rfl
    rw [hfresh] at hh
    cases hh
  have hembedded : g ≠ embedded := by
    rintro rfl
    obtain ⟨gs, -, hmem⟩ := inv.list
    obtain ⟨group, hg⟩ := (hmem embedded).mp List.mem_cons_self
    exact hold hg rfl
  constructor
  · exact inv.asserted
  · intro h group hh
    rcases hnew hh with ⟨rfl, rfl⟩ | ⟨hne, hh⟩
    · refine ⟨.none fun sock hsock => ?_, Nat.zero_le _⟩
      obtain ⟨group, hg⟩ := inv.assigned sock h hsock
      exact hold hg rfl
    · exact inv.counts h group hh
  · intro h group hh hne hnot
    rcases hnew hh with ⟨rfl, -⟩ | ⟨-, hh⟩
    · exact absurd rfl hnot
    · exact inv.used h group hh hne nofun
  · intro sock h hsock
    obtain ⟨group, hg⟩ := inv.assigned sock h hsock
    exact ⟨group, by rw [hother (hold hg)]; exact hg⟩
  · obtain ⟨xs, hrepr, hmem⟩ := inv.available
    have hnot : g ∉ xs := by
      intro hg
      obtain ⟨group, hg, -⟩ := (hmem g).mp hg
      exact hold hg rfl
    refine ⟨g :: xs, hrepr.push hnot, fun h => ?_⟩
    rw [List.mem_cons, hmem h]
    constructor
    · rintro (rfl | ⟨group, hg, hroom⟩)
      · exact ⟨_, hself, groupSize_pos⟩
      · exact ⟨group, by rw [hother (hold hg)]; exact hg, hroom⟩
    · rintro ⟨group, hh, hroom⟩
      rcases hnew hh with ⟨rfl, -⟩ | ⟨-, hh⟩
      · exact .inl rfl
      · exact .inr ⟨group, hh, hroom⟩
  · obtain ⟨gs, hrepr, hmem⟩ := inv.list
    have hnot : g ∉ embedded :: gs := by
      intro hg
      obtain ⟨group, hg⟩ := (hmem g).mp hg
      exact hold hg rfl
    refine ⟨g :: gs, hrepr.insertAfter hnot, fun h => ?_⟩
    have hswap : h ∈ embedded :: g :: gs ↔ h = g ∨ h ∈ embedded :: gs := by
      simp only [List.mem_cons]
      exact or_left_comm
    rw [hswap, hmem h]
    constructor
    · rintro (rfl | ⟨group, hg⟩)
      · exact ⟨_, hself⟩
      · exact ⟨group, by rw [hother (hold hg)]; exact hg⟩
    · rintro ⟨group, hh⟩
      rcases hnew hh with ⟨rfl, -⟩ | ⟨-, hh⟩
      · exact .inl rfl
      · exact .inr ⟨group, hh⟩
  · intro h group hh
    rcases hnew hh with ⟨rfl, rfl⟩ | ⟨-, hh⟩
    · refine ⟨Nat.lt_succ_self _, fun hin => ?_⟩
      exact absurd (inv.bounded _ hin) (Nat.lt_irrefl _)
    · obtain ⟨hlt, hopen⟩ := inv.handles h group hh
      exact ⟨Nat.lt_succ_of_lt hlt, hopen⟩
  · intro h group h' group' hh hh' heq
    rcases hnew hh with ⟨hg, rfl⟩ | ⟨-, hx⟩ <;> rcases hnew hh' with ⟨hg', rfl⟩ | ⟨-, hx'⟩
    · exact hg.trans hg'.symm
    · exact absurd heq.symm (Nat.ne_of_lt (inv.handles h' group' hx').1)
    · exact absurd heq (Nat.ne_of_lt (inv.handles h group hx).1)
    · exact inv.distinct h group h' group' hx hx' heq
  · exact inv.nodup
  · intro handle hlt hnone
    rcases Nat.lt_succ_iff_lt_or_eq.mp hlt with hlt | rfl
    · exact inv.closed handle hlt fun h group hh =>
        hnone h group (by rw [hother (hold hh)]; exact hh)
    · exact absurd rfl (hnone g _ hself)
  · exact fun handle hin => Nat.lt_succ_of_lt (inv.bounded handle hin)

/-! ## Joining and leaving a group -/

/-- The registrations of a group after one has joined it. -/
theorem counts_join {afdGroup : Addr → Option GroupId} {n : Nat} (hsock : afdGroup sock = none)
    (hcounts : Counts (fun s => afdGroup s = some h) n) :
    Counts (fun s => Function.update afdGroup sock (some g) s = some h)
      (if h = g then n + 1 else n) := by
  have hiff : ∀ s, Function.update afdGroup sock (some g) s = some h ↔
      (s = sock ∧ h = g) ∨ afdGroup s = some h := by
    intro s
    by_cases hs : s = sock
    · rw [hs, Function.update_self, hsock]
      simp [eq_comm]
    · rw [Function.update_of_ne hs]
      simp [hs]
  split
  · rename_i heq
    refine hcounts.insert (a := sock) (by rw [hsock]; exact nofun) fun s => ?_
    rw [hiff s]
    simp [heq]
  · rename_i hne
    refine hcounts.congr fun s => ?_
    rw [hiff s]
    simp [hne]

/-- The registrations of a group after one has left `g`. -/
theorem counts_leave {afdGroup : Addr → Option GroupId} {n : Nat} (hsock : afdGroup sock = some g)
    (hcounts : Counts (fun s => afdGroup s = some h) n) :
    Counts (fun s => Function.update afdGroup sock none s = some h)
      (if h = g then n - 1 else n) := by
  have hiff : ∀ s, Function.update afdGroup sock none s = some h ↔
      s ≠ sock ∧ afdGroup s = some h := by
    intro s
    by_cases hs : s = sock
    · rw [hs, Function.update_self]
      simp
    · rw [Function.update_of_ne hs]
      simp [hs]
  split
  · rename_i heq
    exact hcounts.erase (a := sock) (by rw [hsock, heq]) hiff
  · rename_i hne
    refine hcounts.congr fun s => ?_
    rw [hiff s, and_iff_right_of_imp]
    rintro hs rfl
    rw [hsock] at hs
    exact hne (Option.some.inj hs).symm

/-- The count of one group changes, and the list of available groups with it. -/
structure Recounted (st st' : State) (g : GroupId) (group : Group) (n : Nat) : Prop where
  groups : st'.groups = Function.update st.groups g (some { group with socketCount := n })
  list : st'.list = st.list
  opened : st'.opened = st.opened
  closed : st'.closed = st.closed
  asserted : st'.asserted = true
  bound : n ≤ WEPOLL_AFD_GROUP_SIZE
  available : ∃ xs, st'.available.Repr xs ∧ ∀ h, h ∈ xs ↔
    if h = g then n < WEPOLL_AFD_GROUP_SIZE else st.hasRoom h

theorem Inv.recount {st' : State} {fresh' : Option GroupId} {n : Nat} (inv : Inv st fresh)
    (hg : st.groups g = some group) (re : Recounted st st' g group n)
    (hcounts : ∀ h m, Counts (fun s => st.afdGroup s = some h) m →
      Counts (fun s => st'.afdGroup s = some h) (if h = g then n else m))
    (hassigned : ∀ s h, st'.afdGroup s = some h → st.live h ∨ h = g)
    (hused : g ≠ embedded → some g ≠ fresh' → 0 < n)
    (hfresh : ∀ h, h ≠ g → some h = fresh → some h = fresh') : Inv st' fresh' := by
  have hcase : ∀ {h group'}, st'.groups h = some group' →
      (h = g ∧ group' = { group with socketCount := n }) ∨ (h ≠ g ∧ st.groups h = some group') := by
    intro h group' hh
    rw [re.groups] at hh
    exact (update_some hh).imp_left fun ⟨heq, hx⟩ => ⟨heq, (Option.some.inj hx).symm⟩
  -- every group keeps its handle
  have hafd : ∀ {h group'}, st'.groups h = some group' →
      ∃ group'', st.groups h = some group'' ∧ group''.afd = group'.afd := by
    intro h group' hh
    rcases hcase hh with ⟨rfl, rfl⟩ | ⟨-, hh⟩
    · exact ⟨group, hg, rfl⟩
    · exact ⟨group', hh, rfl⟩
  have hback : ∀ {h group'}, st.groups h = some group' →
      ∃ group'', st'.groups h = some group'' ∧ group''.afd = group'.afd := by
    intro h group' hh
    rw [re.groups]
    by_cases heq : h = g
    · subst heq
      obtain rfl := Option.some.inj (hg.symm.trans hh)
      exact ⟨_, Function.update_self .., rfl⟩
    · exact ⟨group', by rw [Function.update_of_ne heq]; exact hh, rfl⟩
  have hlive : ∀ h, st'.live h ↔ st.live h := by
    intro h
    constructor
    · rintro ⟨group', hh⟩
      obtain ⟨group'', hh, -⟩ := hafd hh
      exact ⟨group'', hh⟩
    · rintro ⟨group', hh⟩
      obtain ⟨group'', hh, -⟩ := hback hh
      exact ⟨group'', hh⟩
  constructor
  · exact re.asserted
  · intro h group' hh
    rcases hcase hh with ⟨rfl, rfl⟩ | ⟨hne, hh⟩
    · have hc := hcounts h _ (inv.counts h group hg).1
      rw [if_pos rfl] at hc
      exact ⟨hc, re.bound⟩
    · obtain ⟨hc, hle⟩ := inv.counts h group' hh
      have hc' := hcounts h _ hc
      rw [if_neg hne] at hc'
      exact ⟨hc', hle⟩
  · intro h group' hh hne hnot
    rcases hcase hh with ⟨rfl, rfl⟩ | ⟨hgne, hh⟩
    · exact hused hne hnot
    · exact inv.used h group' hh hne fun heq => hnot (hfresh h hgne heq)
  · intro s h hs
    rw [hlive]
    rcases hassigned s h hs with hlive' | rfl
    · exact hlive'
    · exact ⟨group, hg⟩
  · obtain ⟨xs, hrepr, hmem⟩ := re.available
    refine ⟨xs, hrepr, fun h => (hmem h).trans ?_⟩
    split
    · rename_i heq
      subst heq
      constructor
      · intro hroom
        exact ⟨_, by rw [re.groups, Function.update_self], hroom⟩
      · rintro ⟨group', hh, hroom⟩
        rcases hcase hh with ⟨-, rfl⟩ | ⟨hne, -⟩
        · exact hroom
        · exact absurd rfl hne
    · rename_i hne
      unfold State.hasRoom
      rw [re.groups, Function.update_of_ne hne]
  · obtain ⟨gs, hrepr, hmem⟩ := inv.list
    exact ⟨gs, by rw [re.list]; exact hrepr, fun h => by rw [hmem h, hlive h]⟩
  · intro h group' hh
    obtain ⟨group'', hh, hsame⟩ := hafd hh
    rw [re.opened, re.closed, ← hsame]
    exact inv.handles h group'' hh
  · intro h group1 h' group2 hh hh' heq
    obtain ⟨x, hx, hsame⟩ := hafd hh
    obtain ⟨x', hx', hsame'⟩ := hafd hh'
    exact inv.distinct h x h' x' hx hx' (by rw [hsame, hsame', heq])
  · rw [re.closed]
    exact inv.nodup
  · intro handle hlt hnone
    rw [re.opened] at hlt
    rw [re.closed]
    refine inv.closed handle hlt fun h group' hh => ?_
    obtain ⟨group'', hh, hsame⟩ := hback hh
    exact hsame ▸ hnone h group'' hh
  · rw [re.closed, re.opened]
    exact inv.bounded

theorem Inv.assign (inv : Inv st fresh) (hsock : st.afdGroup sock = none)
    (hg : st.groups g = some group) (hroom : group.socketCount < WEPOLL_AFD_GROUP_SIZE)
    (hfresh : fresh = none ∨ fresh = some g) : Inv (st.assign sock g) none := by
  have hassign : st.assign sock g =
      { st with
        asserted := st.asserted && group.socketCount < WEPOLL_AFD_GROUP_SIZE
        groups := Function.update st.groups g
          (some { group with socketCount := group.socketCount + 1 })
        available :=
          if group.socketCount + 1 = WEPOLL_AFD_GROUP_SIZE then st.available.remove g
          else st.available
        afdGroup := Function.update st.afdGroup sock (some g) } := by
    rw [State.assign, hg]
  have hcount := (inv.counts g group hg).1
  rw [hassign]
  refine inv.recount (n := group.socketCount + 1) hg ⟨rfl, rfl, rfl, rfl, ?_, hroom, ?_⟩ ?_ ?_ ?_ ?_
  · simp [inv.asserted, hroom]
  · obtain ⟨xs, hrepr, hmem⟩ := inv.available
    have hin : g ∈ xs := (hmem g).mpr ⟨group, hg, hroom⟩
    dsimp only
    split
    · rename_i hfull
      refine ⟨xs.erase g, hrepr.remove hin, fun h => ?_⟩
      rw [hrepr.nodup.mem_erase_iff, hmem h]
      split
      · rename_i heq
        simp [heq, hfull]
      · rename_i hne
        simp [hne]
    · rename_i hmore
      refine ⟨xs, hrepr, fun h => ?_⟩
      split
      · rename_i heq
        rw [heq]
        exact ⟨fun _ => by omega, fun _ => hin⟩
      · exact hmem h
  · intro h m hm
    have hjoin := counts_join (g := g) hsock hm
    by_cases heq : h = g
    · subst heq
      have hjoin' := counts_join (g := h) hsock hcount
      rw [if_pos rfl] at hjoin' ⊢
      exact hjoin'
    · rw [if_neg heq] at hjoin ⊢
      exact hjoin
  · intro s h hs
    dsimp only at hs
    by_cases hss : s = sock
    · rw [hss, Function.update_self] at hs
      exact .inr (Option.some.inj hs).symm
    · rw [Function.update_of_ne hss] at hs
      exact .inl (inv.assigned s h hs)
  · exact fun _ _ => Nat.succ_pos _
  · rintro h hne heq
    rcases hfresh with rfl | rfl
    · exact heq
    · exact absurd (Option.some.inj heq) hne

theorem Inv.unassign (inv : Inv st none) (hsock : st.afdGroup sock = some g)
    (hg : st.groups g = some group) : Inv (st.unassign sock g group) (some g) := by
  obtain ⟨hcount, hbound⟩ := inv.counts g group hg
  have hpos : 0 < group.socketCount := hcount.pos hsock
  refine inv.recount (n := group.socketCount - 1) hg ⟨rfl, rfl, rfl, rfl, ?_, by omega, ?_⟩ ?_ ?_ ?_
    nofun
  · simp [State.unassign, inv.asserted, hpos]
  · obtain ⟨xs, hrepr, hmem⟩ := inv.available
    simp only [State.unassign]
    split
    · rename_i hfull
      have hnot : g ∉ xs := by
        intro hin
        obtain ⟨group', hg', hroom⟩ := (hmem g).mp hin
        obtain rfl := Option.some.inj (hg.symm.trans hg')
        omega
      refine ⟨g :: xs, hrepr.push hnot, fun h => ?_⟩
      rw [List.mem_cons, hmem h]
      split
      · rename_i heq
        exact ⟨fun _ => by omega, fun _ => .inl heq⟩
      · rename_i hne
        simp [hne]
    · rename_i hroom
      have hin : g ∈ xs := (hmem g).mpr ⟨group, hg, by omega⟩
      refine ⟨xs, hrepr, fun h => ?_⟩
      split
      · rename_i heq
        rw [heq]
        exact ⟨fun _ => by omega, fun _ => hin⟩
      · exact hmem h
  · intro h m hm
    have hleave := counts_leave hsock hm
    by_cases heq : h = g
    · subst heq
      have hleave' := counts_leave hsock hcount
      rw [if_pos rfl] at hleave' ⊢
      exact hleave'
    · rw [if_neg heq] at hleave ⊢
      exact hleave
  · intro s h hs
    simp only [State.unassign] at hs
    by_cases hss : s = sock
    · rw [hss, Function.update_self] at hs
      cases hs
    · rw [Function.update_of_ne hss] at hs
      exact .inl (inv.assigned s h hs)
  · exact fun _ hnot => absurd rfl hnot

/-- A group without registrations is closed. -/
theorem Inv.dropGroup (inv : Inv st (some g)) (hg : st.groups g = some group)
    (hempty : group.socketCount = 0) (hne : g ≠ embedded) : Inv (st.dropGroup g group.afd) none := by
  have hother : ∀ {h group'}, (st.dropGroup g group.afd).groups h = some group' →
      h ≠ g ∧ st.groups h = some group' := by
    intro h group' hh
    rcases update_some hh with ⟨-, hx⟩ | hx
    · cases hx
    · exact hx
  have hkeep : ∀ {h group'}, h ≠ g → st.groups h = some group' →
      (st.dropGroup g group.afd).groups h = some group' := by
    intro h group' hhg hh
    show Function.update st.groups g none h = _
    rwa [Function.update_of_ne hhg]
  have hunused : ∀ s, st.afdGroup s ≠ some g := by
    have hcounts := (inv.counts g group hg).1
    rw [hempty] at hcounts
    exact hcounts.of_zero
  obtain ⟨hlt, hopen⟩ := inv.handles g group hg
  constructor
  · exact inv.asserted
  · intro h group' hh
    exact inv.counts h group' (hother hh).2
  · intro h group' hh hne' _
    exact inv.used h group' (hother hh).2 hne' fun heq => (hother hh).1 (Option.some.inj heq)
  · intro s h hs
    obtain ⟨group', hh⟩ := inv.assigned s h hs
    refine ⟨group', hkeep ?_ hh⟩
    rintro rfl
    exact hunused s hs
  · obtain ⟨xs, hrepr, hmem⟩ := inv.available
    have hin : g ∈ xs := (hmem g).mpr ⟨group, hg, by rw [hempty]; exact groupSize_pos⟩
    refine ⟨xs.erase g, hrepr.remove hin, fun h => ?_⟩
    rw [hrepr.nodup.mem_erase_iff, hmem h]
    constructor
    · rintro ⟨hhg, group', hh, hroom⟩
      exact ⟨group', hkeep hhg hh, hroom⟩
    · rintro ⟨group', hh, hroom⟩
      exact ⟨(hother hh).1, group', (hother hh).2, hroom⟩
  · obtain ⟨gs, hrepr, hmem⟩ := inv.list
    have hin : g ∈ embedded :: gs := (hmem g).mpr ⟨group, hg⟩
    have hremove := hrepr.remove hin
    rw [List.erase_cons_tail (by simpa using hne.symm)] at hremove
    refine ⟨gs.erase g, hremove, fun h => ?_⟩
    rw [← List.erase_cons_tail (by simpa using hne.symm), hrepr.nodup.mem_erase_iff, hmem h]
    constructor
    · rintro ⟨hhg, group', hh⟩
      exact ⟨group', hkeep hhg hh⟩
    · rintro ⟨group', hh⟩
      exact ⟨(hother hh).1, group', (hother hh).2⟩
  · intro h group' hh
    obtain ⟨hlt', hopen'⟩ := inv.handles h group' (hother hh).2
    refine ⟨hlt', ?_⟩
    simp only [State.dropGroup, List.mem_cons, not_or]
    exact ⟨fun heq => (hother hh).1 (inv.distinct h group' g group (hother hh).2 hg heq), hopen'⟩
  · intro h group1 h' group2 hh hh' heq
    exact inv.distinct h group1 h' group2 (hother hh).2 (hother hh').2 heq
  · exact List.nodup_cons.mpr ⟨hopen, inv.nodup⟩
  · intro handle hlt' hnone
    simp only [State.dropGroup, List.mem_cons]
    by_cases heq : handle = group.afd
    · exact .inl heq
    · refine .inr (inv.closed handle hlt' fun h group' hh => ?_)
      by_cases hhg : h = g
      · subst hhg
        obtain rfl := Option.some.inj (hg.symm.trans hh)
        exact fun hc => heq hc.symm
      · exact hnone h group' (hkeep hhg hh)
  · intro handle hin
    simp only [State.dropGroup, List.mem_cons] at hin
    rcases hin with rfl | hin
    · exact hlt
    · exact inv.bounded handle hin

/-! ## Runs -/

/-- A registration without a group takes one with room, or a new one. -/
theorem Inv.acquire (inv : Inv st none) {alloc : Option GroupId} (afdOpen : Option Errno)
    (hfresh : ∀ g, alloc = some g → st.groups g = none) (sock : Addr) :
    Inv (epSockAcquireAfdGroupLocked alloc afdOpen sock st).2 none := by
  unfold epSockAcquireAfdGroupLocked
  split
  · exact inv
  rename_i hsock
  obtain ⟨xs, hrepr, hmem⟩ := inv.available
  split
  · rename_i g hhead
    have hin : g ∈ xs := by
      rw [hrepr.head_eq] at hhead
      exact List.mem_of_head? hhead
    obtain ⟨group, hg, hroom⟩ := (hmem g).mp hin
    exact inv.assign hsock hg hroom (.inl rfl)
  split
  · exact inv
  · exact inv
  · rename_i g
    have hnew := inv.newGroup (hfresh g rfl)
    exact hnew.assign hsock (Function.update_self ..) groupSize_pos (.inr rfl)

theorem Inv.release (inv : Inv st none) (sock : Addr) :
    Inv (epSockReleaseAfdGroupLocked sock st) none := by
  unfold epSockReleaseAfdGroupLocked
  split
  · exact inv
  rename_i g hsock
  obtain ⟨group, hg⟩ := inv.assigned sock g hsock
  rw [hg]
  dsimp only
  have hleft := inv.unassign hsock hg
  have hgroup : (st.unassign sock g group).groups g =
      some { group with socketCount := group.socketCount - 1 } := Function.update_self ..
  split
  · rename_i hlast
    have hdropped := hleft.dropGroup hgroup hlast.1 hlast.2
    exact hdropped
  · rename_i hstays
    refine { hleft with used := fun h group' hh hne _ => ?_ }
    by_cases heq : some h = some g
    · cases heq
      obtain rfl := Option.some.inj (hgroup.symm.trans hh)
      have hnot : ¬(group.socketCount - 1 = 0) := fun hzero => hstays ⟨hzero, hne⟩
      exact Nat.pos_of_ne_zero hnot
    · exact hleft.used h group' hh hne heq

theorem Inv.step {st' : State} {a : Act} (inv : Inv st none) (hstep : st.step a = some st') :
    Inv st' none := by
  cases a with
  | acquire sock alloc afdOpen =>
    unfold State.step at hstep
    dsimp only at hstep
    split at hstep
    · cases hstep
    rename_i hfresh
    cases hstep
    refine inv.acquire afdOpen (fun g hg => ?_) sock
    rw [hg] at hfresh
    simpa using hfresh
  | release sock =>
    cases hstep
    exact inv.release sock

end

/-- What the groups of a port are for. -/
structure Accounted (st : State) : Prop where
  /-- No assertion fails. -/
  asserted : st.asserted = true
  counts : ∀ g group, st.groups g = some group →
    Counts (fun sock => st.afdGroup sock = some g) group.socketCount ∧
      group.socketCount ≤ WEPOLL_AFD_GROUP_SIZE
  available : ∃ xs, st.available.Repr xs ∧ ∀ g, g ∈ xs ↔ st.hasRoom g
  list : ∃ gs, st.list.Repr (embedded :: gs) ∧
    (∀ g, g ∈ gs ↔ g ≠ embedded ∧ ∃ sock, st.afdGroup sock = some g) ∧
    ∀ g, g ∈ embedded :: gs ↔ st.live g
  /-- A handle is closed at most once, and it is closed if its group is gone. -/
  closed : st.closed.Nodup ∧ ∀ handle, handle ∈ st.closed ↔ handle < st.opened ∧
    ∀ g group, st.groups g = some group → group.afd ≠ handle
  /-- It is closed exactly when the last registration of a group other than the embedded one
  leaves. -/
  closes : ∀ sock g group, st.afdGroup sock = some g → st.groups g = some group →
    (g ≠ embedded → (∀ s, st.afdGroup s = some g → s = sock) →
      (epSockReleaseAfdGroupLocked sock st).closed = group.afd :: st.closed) ∧
    (g = embedded ∨ (∃ s, s ≠ sock ∧ st.afdGroup s = some g) →
      (epSockReleaseAfdGroupLocked sock st).closed = st.closed)
  keeps : ∀ sock alloc afdOpen,
    (epSockAcquireAfdGroupLocked alloc afdOpen sock st).2.closed = st.closed

theorem assign_closed (st : State) (sock : Addr) (g : GroupId) :
    (st.assign sock g).closed = st.closed := by
  unfold State.assign
  split <;> rfl

theorem acquire_closed (alloc : Option GroupId) (afdOpen : Option Errno) (sock : Addr) (st : State) :
    (epSockAcquireAfdGroupLocked alloc afdOpen sock st).2.closed = st.closed := by
  unfold epSockAcquireAfdGroupLocked
  split
  · rfl
  split
  · exact assign_closed st sock _
  split
  · rfl
  · rfl
  · exact assign_closed _ sock _

/-- The accounting of the groups, in every state that acquisitions and releases reach. -/
theorem afd_groups_accounted (st : State) (h : Reach State.step .start st) : Accounted st := by
  have inv : Inv st none :=
    h.invariant (P := fun st => Inv st none) inv_start fun _ _ _ inv hstep => inv.step hstep
  refine ⟨inv.asserted, inv.counts, inv.available, ?_, ⟨inv.nodup, fun handle => ?_⟩, ?_,
    fun sock alloc afdOpen => acquire_closed alloc afdOpen sock st⟩
  · obtain ⟨gs, hrepr, hmem⟩ := inv.list
    refine ⟨gs, hrepr, fun g => ?_, hmem⟩
    constructor
    · intro hg
      obtain ⟨group, hgroup⟩ := (hmem g).mp (List.mem_cons_of_mem _ hg)
      have hne : g ≠ embedded := by
        rintro rfl
        exact (List.nodup_cons.mp hrepr.nodup).1 hg
      have hpos := inv.used g group hgroup hne nofun
      exact ⟨hne, (inv.counts g group hgroup).1.exists_of_pos hpos⟩
    · rintro ⟨hne, sock, hsock⟩
      exact (List.mem_cons.mp ((hmem g).mpr (inv.assigned sock g hsock))).resolve_left hne
  · constructor
    · intro hin
      refine ⟨inv.bounded handle hin, fun g group hg heq => ?_⟩
      exact (inv.handles g group hg).2 (heq ▸ hin)
    · rintro ⟨hlt, hnone⟩
      exact inv.closed handle hlt hnone
  · intro sock g group hsock hg
    have hcounts := counts_leave hsock (inv.counts g group hg).1
    rw [if_pos rfl] at hcounts
    have hrelease : epSockReleaseAfdGroupLocked sock st =
        if group.socketCount - 1 = 0 ∧ g ≠ embedded then
          (st.unassign sock g group).dropGroup g group.afd
        else st.unassign sock g group := by
      simp only [epSockReleaseAfdGroupLocked, hsock, hg]
    rw [hrelease]
    constructor
    · intro hne honly
      have hzero : group.socketCount - 1 = 0 := by
        by_contra hpos
        obtain ⟨s, hs⟩ := hcounts.exists_of_pos (Nat.pos_of_ne_zero hpos)
        by_cases hss : s = sock
        · rw [hss, Function.update_self] at hs
          cases hs
        · rw [Function.update_of_ne hss] at hs
          exact hss (honly s hs)
      rw [if_pos ⟨hzero, hne⟩]
      rfl
    · intro hstays
      rw [if_neg]
      · rfl
      · rintro ⟨hzero, hne⟩
        obtain ⟨s, hss, hs⟩ := hstays.resolve_left hne
        rw [hzero] at hcounts
        exact hcounts.of_zero s (by rwa [Function.update_of_ne hss])

/-- As many registrations as the embedded group has room for, and one more that leaves again. -/
def overflow : List Act :=
  (List.range 129).map (fun sock => .acquire sock (some (sock + 1)) none) ++ [.release 128]

/-- The second group has come and gone. -/
theorem afd_groups_accounted_overflow : ∃ st, run State.step .start overflow = some st ∧
    st.opened = 2 ∧ Accounted st ∧ 1 ∈ st.closed := by
  have hrun : (run State.step .start overflow).map (fun st => (st.opened, st.closed)) =
      some (2, [1]) := by
    decide +kernel
  obtain ⟨st, hst, hvalues⟩ := Option.map_eq_some_iff.mp hrun
  simp only [Prod.mk.injEq] at hvalues
  refine ⟨st, hst, hvalues.1, afd_groups_accounted st (Reach.refl.of_run hst), ?_⟩
  rw [hvalues.2]
  exact List.mem_singleton_self _

end WepollEx.AfdGroups
