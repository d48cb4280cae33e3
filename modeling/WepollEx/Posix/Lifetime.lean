import WepollEx.Posix.Custody

/-!
# The lifetime of a POSIX port

Every step of the registry keeps one party in charge of a closing port.
-/

namespace WepollEx.Posix

open Counting Transition

section

variable {leaks : Prop} {st : Registry} {t : Tid} {p : PortId} {pc : Pc} {epfd : Epfd}

/-! ## How a thread stands to locks and ports -/

/-- A thread that neither holds nor ends anything. -/
structure Pc.Free (pc : Pc) : Prop where
  locks : pc.locks = false
  locksPort : pc.locksPort = none
  holds : pc.holds = none
  ends : pc.ends = none

/-- A thread that holds a reference on `p` and no lock. -/
structure Pc.Uses (pc : Pc) (p : PortId) : Prop where
  locks : pc.locks = false
  locksPort : pc.locksPort = none
  holds : pc.holds = some p
  ends : pc.ends = none

/-- A thread that holds a reference on `p` and the port's own lock. -/
structure Pc.UsesLocked (pc : Pc) (p : PortId) : Prop where
  locks : pc.locks = false
  locksPort : pc.locksPort = some p
  holds : pc.holds = some p
  ends : pc.ends = none

/-- A thread that is in charge of `p` and does not hold the registry lock. -/
structure Pc.InCharge (pc : Pc) (p : PortId) (s : Stage) : Prop where
  locks : pc.locks = false
  locksPort : pc.locksPort = none
  holds : pc.holds = none
  ends : pc.ends = some (p, s)

theorem Pc.Free.idle : Pc.Free Pc.idle := ⟨rfl, rfl, rfl, rfl⟩

theorem Use.pc_uses (use : Use) (p : PortId) : (use.pc p).Uses p := by
  cases use <;> exact ⟨rfl, rfl, rfl, rfl⟩

theorem After.pc_free (after : After) : after.pc.Free := by
  cases after <;> exact ⟨rfl, rfl, rfl, rfl⟩

theorem Registry.Inv.gotoFree (h : st.Inv leaks) (before : (st.threads t).Free) (after : pc.Free) :
    (st.goto t pc).Inv leaks :=
  h.goto (after.locks.trans before.locks.symm) (after.locksPort.trans before.locksPort.symm)
    (after.holds.trans before.holds.symm) (after.ends.trans before.ends.symm)

/-- A step from one program counter to another that stands the same. -/
theorem Registry.Inv.stay (h : st.Inv leaks) {before : Pc} (hpc : st.threads t = before)
    (locks : pc.locks = before.locks) (locksPort : pc.locksPort = before.locksPort)
    (holds : pc.holds = before.holds) (ends : pc.ends = before.ends) : (st.goto t pc).Inv leaks :=
  h.goto (hpc ▸ locks) (hpc ▸ locksPort) (hpc ▸ holds) (hpc ▸ ends)

/-- The holder of the registry lock releases it and stands the same otherwise. -/
theorem Registry.Inv.giveBack (h : st.Inv leaks) {before : Pc} (hpc : st.threads t = before)
    (held : before.locks = true) (locks : pc.locks = false)
    (locksPort : pc.locksPort = before.locksPort) (holds : pc.holds = before.holds)
    (ends : pc.ends = before.ends) : (st.unlock.goto t pc).Inv leaks :=
  h.unlock ((h.lock t).mp (hpc ▸ held)) locks (hpc ▸ locksPort) (hpc ▸ holds) (hpc ▸ ends)

/-! ## The port's own lock -/

theorem Port.At.withLock {port : Port} {u : Tid} {s : Stage} (h : port.At u s) (x : Option Tid) :
    { port with lock := x }.At u s := by
  cases s with
  | discarding => exact h
  | marked => exact ⟨⟨h.1.published, h.1.closing, h.1.aliases, h.1.frees⟩, h.2⟩
  | waiting => exact ⟨⟨h.1.published, h.1.closing, h.1.aliases, h.1.frees⟩, h.2⟩
  | freeing => exact ⟨⟨h.1.published, h.1.closing, h.1.aliases, h.1.frees⟩, h.2⟩

theorem Port.Ownerless.withLock {port : Port} (h : port.Ownerless leaks)
    (published : port.published = true) (x : Option Tid) :
    { port with lock := x }.Ownerless leaks := by
  cases h with
  | unborn blank =>
    rw [blank] at published
    cases published
  | opened published aliases closing retired closeWaiter sleepers frees =>
    exact .opened published aliases closing retired closeWaiter sleepers frees
  | orphan closing retired closeWaiter sleepers refs =>
    exact .orphan ⟨closing.published, closing.closing, closing.aliases, closing.frees⟩ retired
      closeWaiter sleepers refs
  | freed frees aliases refs => exact .freed frees aliases refs
  | leaked leaks closing refs retired =>
    exact .leaked leaks ⟨closing.published, closing.closing, closing.aliases, closing.frees⟩ refs
      retired

/-- A thread with a reference takes or releases the port's own lock. -/
theorem portLock_inv (h : st.Inv leaks) (holds : (st.threads t).holds = some p) {x : Option Tid}
    (locks : pc.locks = (st.threads t).locks) (before : (st.threads t).ends = none)
    (after : pc.ends = none) (holds' : pc.holds = some p)
    (portLock : pc.locksPort = some p ↔ x = some t)
    (portLockOther : ∀ u, u ≠ t → (x = some u ↔ (st.ports p).lock = some u))
    (only : ∀ q, q ≠ p → pc.locksPort ≠ some q ∧ (st.threads t).locksPort ≠ some q) :
    ((st.modify p fun port => { port with lock := x }).goto t pc).Inv leaks := by
  have hpub := h.held t p holds
  refine h.useStep { st.ports p with lock := x } hpub locks before after portLock
    portLockOther ?_ hpub rfl (fun u s hs => hs.withLock x) (fun hl => hl.withLock hpub x) ?_
  · exact (h.refs p hpub).congr fun u => update_iff (by rw [holds, holds']) u
  · intro q hq
    refine ⟨⟨fun hl => absurd hl (only q hq).1, fun hl => absurd hl (only q hq).2⟩, ?_⟩
    rw [holds, holds']

theorem lockPort_inv {st' : Registry} (h : st.Inv leaks) (before : (st.threads t).Uses p)
    (after : pc.UsesLocked p) (hstep : st.lockPort t p pc = some st') : st'.Inv leaks := by
  unfold Registry.lockPort at hstep
  split at hstep
  · cases hstep
  · rename_i hfree
    cases hstep
    have hnone : (st.ports p).lock = none := by simpa using hfree
    refine portLock_inv h before.holds (after.locks.trans before.locks.symm) before.ends after.ends
      after.holds (by rw [after.locksPort]; simp) ?_ ?_
    · intro u hu
      rw [hnone]
      simpa using Ne.symm hu
    · intro q hq
      rw [after.locksPort, before.locksPort]
      exact ⟨fun heq => hq (Option.some.inj heq).symm, nofun⟩

theorem unlockPort_inv (h : st.Inv leaks) (before : (st.threads t).UsesLocked p)
    (after : pc.Uses p) : (st.unlockPort t p pc).Inv leaks := by
  have hheld : (st.ports p).lock = some t := (h.portLock t p).mp before.locksPort
  refine portLock_inv h before.holds (after.locks.trans before.locks.symm) before.ends after.ends
    after.holds (by rw [after.locksPort]; simp) ?_ ?_
  · intro u hu
    rw [hheld]
    simpa using Ne.symm hu
  · intro q hq
    rw [after.locksPort, before.locksPort]
    exact ⟨nofun, fun heq => hq (Option.some.inj heq).symm⟩

/-! ## References -/

theorem acquireRef_inv (h : st.Inv leaks) {i : Nat} (hi : (st.slots i).map Prod.fst = some p)
    (before : (st.threads t).Free) (after : pc.Uses p) :
    ((st.modify p fun port => { port with refs := port.refs + 1 }).goto t pc).Inv leaks := by
  obtain ⟨hnone, hpub, hclosing, hretired, hwaiter, hsleepers, hfrees⟩ := h.mapped hi
  have hcount := h.refs p hpub
  refine h.useStep { st.ports p with refs := (st.ports p).refs + 1 } hpub
    (after.locks.trans before.locks.symm) before.ends after.ends ?_ (fun _ _ => Iff.rfl) ?_ hpub
    rfl ?_ ?_ ?_
  · rw [after.locksPort, ← before.locksPort]
    exact h.portLock t p
  · refine hcount.insert (a := t) (by rw [before.holds]; nofun) fun u => ?_
    by_cases hu : u = t
    · rw [hu, Function.update_self, after.holds]
      simp
    · rw [Function.update_of_ne hu]
      simp [hu]
  · intro u s hat
    -- an open port satisfies none of the stages
    cases s with
    | discarding =>
      rw [hat.1] at hpub
      cases hpub
    | marked =>
      rw [hat.1.closing] at hclosing
      cases hclosing
    | waiting =>
      rw [hat.1.closing] at hclosing
      cases hclosing
    | freeing =>
      rw [hat.1.closing] at hclosing
      cases hclosing
  · intro _
    exact .opened hpub ((h.slots p).pos hi) hclosing hretired hwaiter hsleepers hfrees
  · intro q hq
    rw [before.locksPort, after.locksPort, before.holds, after.holds]
    refine ⟨Iff.rfl, fun heq => ?_, nofun⟩
    exact absurd (Option.some.inj heq).symm hq

/-! ## Map slots -/

theorem slot_update {slots : Nat → Option (PortId × Epfd)} {i : Nat} {q : PortId}
    {entry : Option (PortId × Epfd)} (hold : (slots i).map Prod.fst ≠ some q)
    (hnew : entry.map Prod.fst ≠ some q) (j : Nat) :
    (Function.update slots i entry j).map Prod.fst = some q ↔
      (slots j).map Prod.fst = some q := by
  by_cases hj : j = i
  · rw [hj, Function.update_self]
    exact ⟨fun he => absurd he hnew, fun he => absurd he hold⟩
  · rw [Function.update_of_ne hj]

/-- Slots come and go while others still name the port. -/
theorem remap_inv (h : st.Inv leaks) {i : Nat} (hi : (st.slots i).map Prod.fst = some p)
    {slots : Nat → Option (PortId × Epfd)} {aliases : Nat} (pos : 0 < aliases)
    (counts : Counts (fun j => (slots j).map Prod.fst = some p) aliases)
    (others : ∀ q, q ≠ p → ∀ j, (slots j).map Prod.fst = some q ↔
      (st.slots j).map Prod.fst = some q) :
    ({ st with slots := slots }.modify p fun port => { port with aliases := aliases }).Inv
      leaks := by
  obtain ⟨hnone, hpub, hclosing, hretired, hwaiter, hsleepers, hfrees⟩ := h.mapped hi
  have hown : ∀ u s, (st.threads u).ends ≠ some (p, s) := hnone
  have hstate : ({ st with slots := slots }.modify p fun port => { port with aliases := aliases }) =
      st.after 0 ⟨st.threads 0, p, { st.ports p with aliases := aliases }, st.lock, slots,
        st.nextPort⟩ := by
    simp only [Registry.modify, Registry.after, Function.update_eq_self]
  rw [hstate]
  refine h.after
    { lock := h.lock 0
      lockOther := fun _ _ => Iff.rfl
      portLock := h.portLock 0 p
      portLockOther := fun _ _ => Iff.rfl
      refs := fun _ => by simpa only [Function.update_eq_self] using h.refs p hpub
      held := fun _ => hpub
      slots := counts
      owned := fun u s hu => ?_
      unique := fun s hs => absurd hs (hown 0 s)
      ownerless := fun _ => .opened hpub pos hclosing hretired hwaiter hsleepers hfrees
      bound := ⟨h.bound_of_published hpub, Nat.le_refl _⟩
      elsewhere := fun q hq => ⟨Iff.rfl, Iff.rfl, fun _ => Iff.rfl, others q hq⟩ }
  simp only [Function.update_eq_self] at hu
  exact absurd hu (hown u s)

theorem freeSlot_none {i : Nat} (hi : st.freeSlot = some i) : st.slots i = none := by
  have := List.find?_some hi
  simpa using this

theorem addAlias_inv {st' : Registry} (h : st.Inv leaks) {i : Nat}
    (hi : (st.slots i).map Prod.fst = some p) (hadd : st.portAddAliasLocked p epfd = some st') :
    st'.Inv leaks ∧ st'.threads = st.threads ∧ st'.lock = st.lock ∧
      ∃ j, st'.slots j = some (p, epfd) := by
  unfold Registry.portAddAliasLocked at hadd
  obtain ⟨j, hj, rfl⟩ := Option.map_eq_some_iff.mp hadd
  have hfree := freeSlot_none hj
  refine ⟨?_, rfl, rfl, j, Function.update_self ..⟩
  refine remap_inv h hi (Nat.succ_pos _) ?_ fun q hq => slot_update (by simp [hfree]) ?_
  · refine (h.slots p).insert (a := j) (by simp [hfree]) fun k => ?_
    by_cases hk : k = j
    · simp [hk]
    · simp [hk]
  · simpa using Ne.symm hq

/-- What `port_remove_epfd_locked` does to a port that the map still names. -/
theorem removeEpfd_cases (st : Registry) (p : PortId) (epfd : Epfd) :
    st.portRemoveEpfdLocked p epfd = st ∨ ∃ i, st.slots i = some (p, epfd) ∧
      st.portRemoveEpfdLocked p epfd =
        (st.setSlot i none).modify p fun port => { port with aliases := port.aliases - 1 } := by
  unfold Registry.portRemoveEpfdLocked
  split
  · exact .inl rfl
  · rename_i i hfind
    exact .inr ⟨i, by simpa using List.find?_some hfind, rfl⟩

theorem removed_counts (h : st.Inv leaks) {i : Nat} (hi : st.slots i = some (p, epfd)) :
    Counts (fun j => (Function.update st.slots i none j).map Prod.fst = some p)
      ((st.ports p).aliases - 1) := by
  refine (h.slots p).erase (a := i) (by simp [hi]) fun j => ?_
  by_cases hj : j = i
  · simp [hj]
  · simp [hj]

/-- A slot of `p` is cleared and others remain. -/
theorem dropAlias_inv (h : st.Inv leaks) {j : Nat} (hj : (st.slots j).map Prod.fst = some p)
    (pos : ((st.portRemoveEpfdLocked p epfd).ports p).aliases ≠ 0) :
    (st.portRemoveEpfdLocked p epfd).Inv leaks ∧
      (st.portRemoveEpfdLocked p epfd).threads = st.threads ∧
      (st.portRemoveEpfdLocked p epfd).lock = st.lock := by
  rcases removeEpfd_cases st p epfd with heq | ⟨i, hi, heq⟩
  · rw [heq]
    exact ⟨h, rfl, rfl⟩
  · rw [heq] at pos ⊢
    refine ⟨remap_inv h hj ?_ (removed_counts h hi) fun q hq => slot_update ?_ nofun, rfl, rfl⟩
    · have : (st.ports p).aliases - 1 ≠ 0 := by
        simpa [Registry.modify, Registry.setSlot] using pos
      exact Nat.pos_of_ne_zero this
    · simpa [hi] using Ne.symm hq

/-- The last slot of `p` is cleared and `t` is in charge of `p`. -/
theorem lastAlias_inv (h : st.Inv leaks) {j : Nat} (hj : (st.slots j).map Prod.fst = some p)
    (zero : ((st.portRemoveEpfdLocked p epfd).ports p).aliases = 0) (free : st.lock = none)
    (locks : pc.locks = true) (before : (st.threads t).ends = none)
    (after : pc.ends = some (p, .marked)) (noRef : (st.threads t).holds = none)
    (noPort : (st.threads t).locksPort = none) (noRef' : pc.holds = none)
    (noPort' : pc.locksPort = none) :
    ((((st.portRemoveEpfdLocked p epfd).modify p fun port =>
      { port with closing := true }).take t).goto t pc).Inv leaks := by
  obtain ⟨hnone, hpub, hclosing, hretired, hwaiter, hsleepers, hfrees⟩ := h.mapped hj
  have hpos := (h.slots p).pos hj
  rcases removeEpfd_cases st p epfd with heq | ⟨i, hi, heq⟩
  · rw [heq] at zero
    omega
  rw [heq] at zero ⊢
  have hzero : (st.ports p).aliases - 1 = 0 := by
    simpa [Registry.modify, Registry.setSlot] using zero
  have hstate : ((((st.setSlot i none).modify p fun port =>
      { port with aliases := port.aliases - 1 }).modify p fun port =>
      { port with closing := true }).take t).goto t pc =
      st.after t ⟨pc, p, { st.ports p with aliases := (st.ports p).aliases - 1, closing := true },
        some t, Function.update st.slots i none, st.nextPort⟩ := by
    simp [Registry.modify, Registry.setSlot, Registry.take, Registry.goto, Registry.after]
  rw [hstate]
  refine h.after
    { lock := ⟨fun _ => rfl, fun _ => locks⟩
      lockOther := fun u hu => ?_
      portLock := ?_
      portLockOther := fun _ _ => Iff.rfl
      refs := fun _ => (h.refs p hpub).congr fun u => update_iff (by rw [noRef, noRef']) u
      held := fun _ => hpub
      slots := removed_counts h hi
      owned := fun u s hu => ?_
      unique := fun s _ u s' _ => hnone u s'
      ownerless := fun hno => ?_
      bound := ⟨h.bound_of_published hpub, Nat.le_refl _⟩
      elsewhere := fun q hq => ⟨by rw [noPort, noPort'], by rw [noRef, noRef'], fun s => ?_,
        slot_update (by simpa [hi] using Ne.symm hq) (by simp)⟩ }
  · rw [free]
    simpa using Ne.symm hu
  · show pc.locksPort = some p ↔ (st.ports p).lock = some t
    rw [noPort', ← noPort]
    exact h.portLock t p
  · by_cases hu' : u = t
    · rw [hu', Function.update_self] at hu
      change pc.ends = some (p, s) at hu
      rw [after] at hu
      obtain rfl := congrArg Prod.snd (Option.some.inj hu)
      exact ⟨⟨hpub, rfl, hzero, hfrees⟩, hretired, hwaiter, hsleepers⟩
    · rw [Function.update_of_ne hu'] at hu
      exact absurd hu (hnone u s)
  · have := hno t .marked
    rw [Function.update_self] at this
    exact absurd after this
  · rw [before, after]
    refine ⟨fun heq => ?_, (by simp)⟩
    exact absurd (congrArg Prod.fst (Option.some.inj heq)).symm hq

/-! ## Acquiring -/

theorem lookup_mapped (hl : st.portLookupLocked epfd = some p) :
    ∃ i, st.slots i = some (p, epfd) := by
  obtain ⟨i, -, hi⟩ := List.exists_of_findSome?_eq_some hl
  cases hs : st.slots i with
  | none => simp [hs] at hi
  | some entry =>
    obtain ⟨q, e⟩ := entry
    simp only [hs] at hi
    split at hi
    · rename_i he
      exact ⟨i, by rw [hs, he, Option.some.inj hi]⟩
    · cases hi

theorem lookupAlias_mapped {same : Nat → Bool}
    (hl : st.portLookupAliasLocked epfd same = some p) :
    ∃ i, (st.slots i).map Prod.fst = some p := by
  obtain ⟨i, -, hi⟩ := List.exists_of_findSome?_eq_some hl
  cases hs : st.slots i with
  | none => simp [hs] at hi
  | some entry =>
    obtain ⟨q, e⟩ := entry
    simp only [hs] at hi
    split at hi
    · exact ⟨i, by rw [hs, ← Option.some.inj hi]; rfl⟩
    · cases hi

theorem acquireFound_inv (h : st.Inv leaks) (before : (st.threads t).Free) (free : st.lock = none)
    {i : Nat} (hi : (st.slots i).map Prod.fst = some p) (use : Use) (answers : Answers) :
    (st.acquireFound t p epfd use answers).Inv leaks := by
  unfold Registry.acquireFound
  split
  · exact h.gotoFree before .idle
  cases answers.identity with
  | error stale => exact h.gotoFree before .idle
  | same => exact acquireRef_inv h hi before (use.pc_uses p)
  | other =>
    dsimp only
    split
    · rename_i hzero
      exact lastAlias_inv h hi hzero free rfl before.ends rfl before.holds before.locksPort rfl rfl
    · rename_i hpos
      obtain ⟨hinv, hthreads, -⟩ := dropAlias_inv h hi hpos
      exact hinv.gotoFree (by rw [hthreads]; exact before) ⟨rfl, rfl, rfl, rfl⟩

theorem acquire_inv (h : st.Inv leaks) (before : (st.threads t).Free) (free : st.lock = none)
    (use : Use) (answers : Answers) : (st.acquire t epfd use answers).Inv leaks := by
  unfold Registry.acquire
  split
  · rename_i p hl
    obtain ⟨i, hi⟩ := lookup_mapped hl
    exact acquireFound_inv h before free (by rw [hi]; rfl) use answers
  split
  · rename_i p hl
    obtain ⟨i, hi⟩ := lookupAlias_mapped hl
    split
    · exact h.gotoFree before .idle
    · rename_i st' hadd
      obtain ⟨hinv, hthreads, hlock, j, hj⟩ := addAlias_inv h hi hadd
      exact acquireFound_inv hinv (by rw [hthreads]; exact before) (hlock.trans free)
        (by rw [hj]; rfl) use answers
  split
  · exact h.take free rfl before.locksPort.symm before.holds.symm before.ends.symm
  · exact h.gotoFree before .idle

theorem fresh_unseen (h : st.Inv leaks) :
    (∀ u s, (st.threads u).ends ≠ some (st.nextPort, s)) ∧
      (∀ u, (st.threads u).holds ≠ some st.nextPort) ∧
      (∀ u, (st.threads u).locksPort ≠ some st.nextPort) ∧
      ∀ i, (st.slots i).map Prod.fst ≠ some st.nextPort := by
  have hblank := h.fresh st.nextPort (Nat.le_refl _)
  refine ⟨fun u s hu => ?_, fun u hu => ?_, fun u hu => ?_, fun i => ?_⟩
  · exact absurd (h.bound u _ s hu) (Nat.lt_irrefl _)
  · have := h.held u _ hu
    rw [hblank] at this
    cases this
  · have := (h.portLock u _).mp hu
    rw [hblank] at this
    cases this
  · have := h.slots st.nextPort
    rw [hblank] at this
    exact this.of_zero i

/-- A port that cannot be published is discarded by its creator. -/
theorem discard_inv (h : st.Inv leaks) (held : st.lock = some t) (refs closes : Nat)
    (noPort : (st.threads t).locksPort = none) (noRef : (st.threads t).holds = none)
    (before : (st.threads t).ends = none) :
    (({ st with nextPort := st.nextPort + 1 }.modify st.nextPort fun port =>
      { port with refs := refs }).goto t (.discard st.nextPort closes)).Inv leaks := by
  obtain ⟨hends, hholds, hlocks, hslots⟩ := fresh_unseen h
  have hblank := h.fresh st.nextPort (Nat.le_refl _)
  refine h.after (d := ⟨.discard st.nextPort closes, st.nextPort,
    { st.ports st.nextPort with refs := refs }, st.lock, st.slots, st.nextPort + 1⟩)
    { lock := ⟨fun _ => held, fun _ => rfl⟩
      lockOther := fun _ _ => Iff.rfl
      portLock := by rw [hblank]; exact ⟨nofun, nofun⟩
      portLockOther := fun _ _ => Iff.rfl
      refs := fun hpub => ?_
      held := fun hor => ?_
      slots := h.slots _
      owned := fun u s hu => ?_
      unique := fun _ _ u s' _ => hends u s'
      ownerless := fun hno => ?_
      bound := ⟨Nat.lt_succ_self _, Nat.le_succ _⟩
      elsewhere := fun q hq => ⟨by rw [noPort]; rfl, by rw [noRef]; rfl, fun s => ?_,
        fun _ => Iff.rfl⟩ }
  · rw [hblank] at hpub
    cases hpub
  · rcases hor with hor | hor
    · cases hor
    · rw [hblank] at hor
      cases hor
  · by_cases hu' : u = t
    · rw [hu', Function.update_self] at hu
      obtain rfl := congrArg Prod.snd (Option.some.inj hu)
      rw [hblank]
      exact ⟨rfl, rfl, rfl⟩
    · rw [Function.update_of_ne hu'] at hu
      exact absurd hu (hends u s)
  · have := hno t .discarding
    rw [Function.update_self] at this
    exact absurd rfl this
  · rw [before]
    refine ⟨fun heq => ?_, nofun⟩
    exact absurd (congrArg Prod.fst (Option.some.inj heq)).symm hq

/-- A new port is entered into a free slot with one reference. -/
theorem publish_inv (h : st.Inv leaks) (held : st.lock = some t) {i : Nat}
    (hi : st.slots i = none) (use : Use) (noPort : (st.threads t).locksPort = none)
    (noRef : (st.threads t).holds = none) (before : (st.threads t).ends = none) :
    (st.after t ⟨use.pc st.nextPort, st.nextPort,
      { Port.blank with refs := 1, aliases := 1, published := true }, none,
      Function.update st.slots i (some (st.nextPort, epfd)), st.nextPort + 1⟩).Inv leaks := by
  obtain ⟨hends, hholds, hlocks, hslots⟩ := fresh_unseen h
  obtain ⟨hlocks', hport', hholds', hends'⟩ := use.pc_uses st.nextPort
  have hblank := h.fresh st.nextPort (Nat.le_refl _)
  refine h.after
    { lock := by rw [hlocks']; exact ⟨nofun, nofun⟩
      lockOther := fun u hu => ?_
      portLock := by rw [hport']; exact ⟨nofun, nofun⟩
      portLockOther := fun u _ => by rw [hblank]
      refs := fun _ => .one (a := t) fun u => ?_
      held := fun _ => rfl
      slots := .one (a := i) fun j => ?_
      owned := fun u s hu => ?_
      unique := fun s hs => by
        rw [hends'] at hs
        cases hs
      ownerless := fun _ => .opened rfl (Nat.lt_succ_self 0) rfl rfl rfl rfl rfl
      bound := ⟨Nat.lt_succ_self _, Nat.le_succ _⟩
      elsewhere := fun q hq => ⟨by rw [noPort, hport'], ?_, fun s => by rw [before, hends'],
        slot_update (by simp [hi]) (by simpa using Ne.symm hq)⟩ }
  · rw [held]
    simpa using Ne.symm hu
  · by_cases hu : u = t
    · rw [hu, Function.update_self, hholds']
      simp
    · rw [Function.update_of_ne hu]
      exact ⟨fun hh => absurd hh (hholds u), fun hh => absurd hh hu⟩
  · by_cases hj : j = i
    · simp [hj]
    · simpa [hj] using hslots j
  · by_cases hu' : u = t
    · rw [hu', Function.update_self] at hu
      change (use.pc st.nextPort).ends = _ at hu
      rw [hends'] at hu
      cases hu
    · rw [Function.update_of_ne hu'] at hu
      exact absurd hu (hends u s)
  · rw [noRef, hholds']
    refine ⟨fun heq => ?_, nofun⟩
    exact absurd (Option.some.inj heq).symm hq

theorem create_inv (h : st.Inv leaks) (held : st.lock = some t)
    (noPort : (st.threads t).locksPort = none) (noRef : (st.threads t).holds = none)
    (before : (st.threads t).ends = none) (use : Use) (answers : Answers) :
    (st.create t epfd use answers).Inv leaks := by
  have hgive : (st.unlock.goto t .idle).Inv leaks :=
    h.unlock held rfl noPort.symm noRef.symm before.symm
  have hblank := h.fresh st.nextPort (Nat.le_refl _)
  unfold Registry.create
  dsimp only
  split
  · exact hgive
  cases answers.create with
  | noMemory => exact hgive
  | failed closes =>
    have hdiscard := discard_inv h held (st.ports st.nextPort).refs closes noPort noRef before
    have hsame : ({ st with nextPort := st.nextPort + 1 }.modify st.nextPort fun port =>
        { port with refs := (st.ports st.nextPort).refs }) =
        { st with nextPort := st.nextPort + 1 } := by
      simp [Registry.modify]
    rw [hsame] at hdiscard
    exact hdiscard
  | created =>
    dsimp only
    split
    · exact discard_inv h held 1 2 noPort noRef before
    · rename_i i hfree
      have hi : st.slots i = none := freeSlot_none hfree
      have hpublish := @publish_inv leaks st t epfd h held i hi use noPort noRef before
      have hstate : (((({ st with nextPort := st.nextPort + 1 }.modify st.nextPort fun port =>
          { port with refs := 1 }).setSlot i (some (st.nextPort, epfd))).modify st.nextPort
            fun port => { port with aliases := 1, published := true }).unlock).goto t
              (use.pc st.nextPort) =
          st.after t ⟨use.pc st.nextPort, st.nextPort,
            { Port.blank with refs := 1, aliases := 1, published := true }, none,
            Function.update st.slots i (some (st.nextPort, epfd)), st.nextPort + 1⟩ := by
        simp [Registry.modify, Registry.setSlot, Registry.unlock, Registry.goto, Registry.after,
          hblank]
      rw [hstate]
      exact hpublish

/-! ## Releasing -/

/-- The counter of a port without the reference of `t`. -/
theorem release_counts (h : st.Inv leaks) (holds : (st.threads t).holds = some p)
    (noRef : pc.holds = none) :
    Counts (fun u => (Function.update st.threads t pc u).holds = some p)
      ((st.ports p).refs - 1) := by
  refine (h.refs p (h.held t p holds)).erase (a := t) holds fun u => ?_
  by_cases hu : u = t
  · simp [hu, noRef]
  · simp [hu]

/-- What a reference says about the custody of its port. -/
theorem Registry.Inv.custody_of_ref (h : st.Inv leaks) (holds : (st.threads t).holds = some p) :
    (st.ports p).refs ≠ 0 ∧
      ((∃ u, (st.threads u).ends = some (p, .marked)) ∨
        (∃ u, (st.threads u).ends = some (p, .waiting)) ∨
        ((∀ u s, (st.threads u).ends ≠ some (p, s)) ∧ (st.ports p).closing = false ∧
          (st.ports p).retired = false) ∨
        ((∀ u s, (st.threads u).ends ≠ some (p, s)) ∧ (st.ports p).Closing ∧
          (st.ports p).retired = true ∧ (st.ports p).closeWaiter = false ∧
          (st.ports p).sleepers = [])) := by
  have hpub := h.held t p holds
  have hrefs : (st.ports p).refs ≠ 0 := ((h.refs p hpub).pos holds).ne'
  refine ⟨hrefs, ?_⟩
  by_cases hown : ∃ u s, (st.threads u).ends = some (p, s)
  · obtain ⟨u, s, hu⟩ := hown
    have hat := h.owned u p s hu
    cases s with
    | discarding =>
      rw [hat.1] at hpub
      cases hpub
    | marked => exact .inl ⟨u, hu⟩
    | waiting => exact .inr (.inl ⟨u, hu⟩)
    | freeing => exact absurd hat.2.2.2.2 hrefs
  · have hnone : ∀ u s, (st.threads u).ends ≠ some (p, s) := fun u s hu => hown ⟨u, s, hu⟩
    cases h.ownerless p hnone with
    | unborn blank =>
      rw [blank] at hpub
      cases hpub
    | opened _ _ closing retired => exact .inr (.inr (.inl ⟨hnone, closing, retired⟩))
    | orphan closing retired closeWaiter sleepers =>
      exact .inr (.inr (.inr ⟨hnone, closing, retired, closeWaiter, sleepers⟩))
    | freed _ _ refs => exact absurd (refs hpub) hrefs
    | leaked _ _ refs => exact absurd refs hrefs

/-- The port after a release, before the decision to free it. -/
def Port.released (port : Port) : Port :=
  { port with
    refs := port.refs - 1
    sleepers :=
      if port.closing && port.refs - 1 = 0 then port.sleepers.tail else port.sleepers }

theorem portRelease_eq (st : Registry) (t : Tid) (p : PortId) (next free : Pc) :
    st.portRelease t p next free =
      if (st.ports p).retired && (st.ports p).aliases = 0 && (st.ports p).refs - 1 = 0 &&
          !(st.ports p).closeWaiter then
        (st.modify p fun port => { port.released with retired := false }).goto t free
      else (st.modify p Port.released).goto t next := by
  unfold Registry.portRelease
  by_cases hsignal : ((st.ports p).closing && decide ((st.ports p).refs - 1 = 0)) = true
  · simp only [Registry.modify, Registry.goto, Port.released, Function.update_self,
      Function.update_idem, hsignal, if_true]
  · simp only [Registry.modify, Registry.goto, Port.released, Function.update_self,
      Function.update_idem, hsignal, if_false, Bool.false_eq_true]

theorem Port.At.released {port : Port} {u : Tid} {s : Stage} (h : port.At u s)
    (refs : port.refs ≠ 0) (published : port.published = true) : port.released.At u s := by
  cases s with
  | discarding =>
    rw [h.1] at published
    cases published
  | marked =>
    refine ⟨⟨h.1.published, h.1.closing, h.1.aliases, h.1.frees⟩, h.2.1, h.2.2.1, ?_⟩
    simp [Port.released, h.2.2.2]
  | waiting =>
    refine ⟨⟨h.1.published, h.1.closing, h.1.aliases, h.1.frees⟩, h.2.1, h.2.2.1, ?_⟩
    by_cases hlast : port.refs - 1 = 0
    · -- the signal wakes the closer
      left
      rcases h.2.2.2 with hs | ⟨hs, -⟩ <;> simp [Port.released, h.1.closing, hlast, hs]
    · rcases h.2.2.2 with hs | ⟨hs, -⟩
      · exact .inl (by simp [Port.released, hs])
      · exact .inr ⟨by simp [Port.released, hlast, hs], hlast⟩
  | freeing => exact absurd h.2.2.2.2 refs

/-- A release that leaves the freeing to somebody else. -/
theorem release_inv (h : st.Inv leaks) (before : (st.threads t).Uses p)
    (free : ¬((st.ports p).retired = true ∧ (st.ports p).aliases = 0 ∧
      (st.ports p).refs - 1 = 0 ∧ (st.ports p).closeWaiter = false))
    (after : pc.Free) : ((st.modify p Port.released).goto t pc).Inv leaks := by
  have hpub := h.held t p before.holds
  obtain ⟨hrefs, hcustody⟩ := h.custody_of_ref before.holds
  refine h.useStep (st.ports p).released hpub (after.locks.trans before.locks.symm) before.ends
    after.ends ?_ (fun _ _ => Iff.rfl) (release_counts h before.holds after.holds) hpub rfl
    (fun u s hat => hat.released hrefs hpub) ?_ ?_
  · rw [after.locksPort, ← before.locksPort]
    exact h.portLock t p
  · intro hless
    cases hless with
    | unborn blank =>
      rw [blank] at hpub
      cases hpub
    | opened published aliases closing retired closeWaiter sleepers frees =>
      exact .opened published aliases closing retired closeWaiter
        (by simp [Port.released, sleepers]) frees
    | orphan closing retired closeWaiter sleepers _ =>
      refine .orphan ⟨closing.published, closing.closing, closing.aliases, closing.frees⟩ retired
        closeWaiter (by simp [Port.released, sleepers]) ?_
      exact fun hzero => free ⟨retired, closing.aliases, hzero, closeWaiter⟩
    | freed _ _ refs => exact absurd (refs hpub) hrefs
    | leaked _ _ refs => exact absurd refs hrefs
  · intro q hq
    rw [before.locksPort, after.locksPort, before.holds, after.holds]
    refine ⟨Iff.rfl, nofun, fun heq => ?_⟩
    exact absurd (Option.some.inj heq).symm hq

/-- The last release of a port that its closer has left behind takes charge of it. -/
theorem lastRelease_inv (h : st.Inv leaks) (before : (st.threads t).Uses p)
    (retired : (st.ports p).retired = true) (last : (st.ports p).refs - 1 = 0)
    (closeWaiter : (st.ports p).closeWaiter = false) (after : pc.InCharge p .freeing) :
    ((st.modify p fun port => { port.released with retired := false }).goto t pc).Inv leaks := by
  have hpub := h.held t p before.holds
  obtain ⟨hrefs, hcustody⟩ := h.custody_of_ref before.holds
  obtain ⟨hnone, hclosing, hsleepers⟩ : (∀ u s, (st.threads u).ends ≠ some (p, s)) ∧
      (st.ports p).Closing ∧ (st.ports p).sleepers = [] := by
    rcases hcustody with ⟨u, hu⟩ | ⟨u, hu⟩ | ⟨-, -, hno⟩ | ⟨hnone, hclosing, -, -, hs⟩
    · have := (h.owned u p _ hu).2.1
      rw [retired] at this
      cases this
    · have := (h.owned u p _ hu).2.2.1
      rw [closeWaiter] at this
      cases this
    · rw [retired] at hno
      cases hno
    · exact ⟨hnone, hclosing, hs⟩
  refine h.after (d := ⟨pc, p, { (st.ports p).released with retired := false }, st.lock, st.slots,
    st.nextPort⟩)
    { lock := by rw [after.locks, ← before.locks]; exact h.lock t
      lockOther := fun _ _ => Iff.rfl
      portLock := ?_
      portLockOther := fun _ _ => Iff.rfl
      refs := fun _ => release_counts h before.holds after.holds
      held := fun _ => hpub
      slots := h.slots p
      owned := fun u s hu => ?_
      unique := fun _ _ u s' _ => hnone u s'
      ownerless := fun hno => ?_
      bound := ⟨h.bound_of_published hpub, Nat.le_refl _⟩
      elsewhere := fun q hq => ⟨by rw [before.locksPort, after.locksPort], ?_, fun s => ?_, fun _ => Iff.rfl⟩ }
  · show pc.locksPort = some p ↔ (st.ports p).lock = some t
    rw [after.locksPort, ← before.locksPort]
    exact h.portLock t p
  · by_cases hu' : u = t
    · rw [hu', Function.update_self] at hu
      change pc.ends = some (p, s) at hu
      rw [after.ends] at hu
      obtain rfl := congrArg Prod.snd (Option.some.inj hu)
      exact ⟨⟨hclosing.published, hclosing.closing, hclosing.aliases, hclosing.frees⟩, rfl,
        closeWaiter, by simp [Port.released, hsleepers], last⟩
    · rw [Function.update_of_ne hu'] at hu
      exact absurd hu (hnone u s)
  · have := hno t .freeing
    rw [Function.update_self] at this
    exact absurd after.ends this
  · rw [after.holds, before.holds]
    refine ⟨nofun, fun heq => ?_⟩
    exact absurd (Option.some.inj heq).symm hq
  · rw [before.ends, after.ends]
    refine ⟨fun heq => ?_, nofun⟩
    exact absurd (congrArg Prod.fst (Option.some.inj heq)).symm hq

theorem portRelease_inv (h : st.Inv leaks) (before : (st.threads t).Uses p) {next free : Pc}
    (hnext : next.Free) (hfree : free.InCharge p .freeing) :
    (st.portRelease t p next free).Inv leaks := by
  rw [portRelease_eq]
  split
  · rename_i hlast
    simp only [Bool.and_eq_true, decide_eq_true_eq, Bool.not_eq_true'] at hlast
    obtain ⟨⟨⟨hretired, -⟩, hzero⟩, hwaiter⟩ := hlast
    exact lastRelease_inv h before hretired hzero hwaiter hfree
  · rename_i hlast
    simp only [Bool.and_eq_true, decide_eq_true_eq, Bool.not_eq_true'] at hlast
    exact release_inv h before
      (fun hall => hlast ⟨⟨⟨hall.1, hall.2.1⟩, hall.2.2.1⟩, hall.2.2.2⟩) hnext

/-! ## Closing -/

theorem inCharge_step (h : st.Inv leaks) {s : Stage} (before : (st.threads t).InCharge p s)
    {f : Port → Port} (locks : pc.locks = false) (noPort : pc.locksPort = none)
    (noRef : pc.holds = none) (sameLock : (f (st.ports p)).lock = (st.ports p).lock)
    (sameRefs : (f (st.ports p)).refs = (st.ports p).refs)
    (samePublished : (f (st.ports p)).published = (st.ports p).published)
    (sameAliases : (f (st.ports p)).aliases = (st.ports p).aliases)
    (after : (∃ s', pc.ends = some (p, s') ∧ (f (st.ports p)).At t s') ∨
      (pc.ends = none ∧ (f (st.ports p)).Ownerless leaks)) :
    ((st.modify p f).goto t pc).Inv leaks :=
  h.ownStep st.lock (f (st.ports p)) before.ends before.locksPort before.holds
    (by rw [locks, ← before.locks]; exact h.lock t) (fun _ _ => Iff.rfl) noPort noRef sameLock
    sameRefs samePublished sameAliases after

theorem modify_modify (st : Registry) (p : PortId) (f g : Port → Port) :
    (st.modify p f).modify p g = st.modify p (g ∘ f) := by
  simp [Registry.modify]

/-- The loop of `port_wait_and_free` after `f` has prepared the port. -/
theorem waitOrFree_inv (h : st.Inv leaks) {s : Stage} (before : (st.threads t).InCharge p s)
    {f : Port → Port} (sameLock : (f (st.ports p)).lock = (st.ports p).lock)
    (sameRefs : (f (st.ports p)).refs = (st.ports p).refs)
    (samePublished : (f (st.ports p)).published = (st.ports p).published)
    (sameAliases : (f (st.ports p)).aliases = (st.ports p).aliases)
    (closing : (f (st.ports p)).Closing) (retired : (f (st.ports p)).retired = true)
    (closeWaiter : (f (st.ports p)).closeWaiter = true)
    (awake : (f (st.ports p)).sleepers = []) (after : After) :
    ((st.modify p f).waitOrFree t p after).Inv leaks := by
  unfold Registry.waitOrFree
  have hport : (st.modify p f).ports p = f (st.ports p) := Function.update_self ..
  rw [hport, modify_modify, modify_modify]
  split
  · rename_i hrefs
    refine inCharge_step h before rfl rfl rfl sameLock sameRefs samePublished sameAliases
      (.inl ⟨.waiting, rfl, ?_⟩)
    exact ⟨⟨closing.published, closing.closing, closing.aliases, closing.frees⟩, retired,
      closeWaiter, .inr ⟨by simp [awake], hrefs⟩⟩
  · rename_i hrefs
    refine inCharge_step h before rfl rfl rfl sameLock sameRefs samePublished sameAliases
      (.inl ⟨.freeing, rfl, ?_⟩)
    exact ⟨⟨closing.published, closing.closing, closing.aliases, closing.frees⟩, rfl, rfl, awake,
      not_not.mp hrefs⟩

theorem waitAndFree_inv (h : st.Inv leaks) (before : (st.threads t).InCharge p .marked)
    (after : After) : (st.waitAndFree t p after).Inv leaks := by
  obtain ⟨hclosing, -, -, hsleepers⟩ := h.owned t p _ before.ends
  exact waitOrFree_inv h before rfl rfl rfl rfl
    ⟨hclosing.published, hclosing.closing, hclosing.aliases, hclosing.frees⟩ rfl rfl hsleepers after

theorem condWake_inv (h : st.Inv leaks) (before : (st.threads t).InCharge p .waiting)
    (after : After) : (st.condWake t p after).Inv leaks := by
  obtain ⟨hclosing, hretired, hwaiter, hsleepers⟩ := h.owned t p _ before.ends
  refine waitOrFree_inv h before rfl rfl rfl rfl
    ⟨hclosing.published, hclosing.closing, hclosing.aliases, hclosing.frees⟩ hretired hwaiter ?_
    after
  rcases hsleepers with hs | ⟨hs, -⟩ <;> simp [hs]

/-- `port_free` by the thread in charge. -/
theorem free_inv (h : st.Inv leaks) (before : (st.threads t).InCharge p .freeing) {next : Pc}
    (hnext : next.Free) : (st.free t p next).Inv leaks := by
  obtain ⟨hclosing, -, -, -, hrefs⟩ := h.owned t p _ before.ends
  refine inCharge_step h before hnext.locks hnext.locksPort hnext.holds rfl rfl rfl rfl
    (.inr ⟨hnext.ends, ?_⟩)
  exact .freed (by simp [hclosing.frees]) hclosing.aliases fun _ => hrefs

/-- The creator frees a port that was never published. -/
theorem discardFree_inv (h : st.Inv leaks) (held : st.lock = some t)
    (before : st.threads t = .discard p 0) : ((st.free t p .idle).unlock).Inv leaks := by
  have hends : (st.threads t).ends = some (p, .discarding) := by rw [before]; rfl
  obtain ⟨hpub, hfrees, haliases⟩ := h.owned t p _ hends
  refine h.ownStep none { st.ports p with frees := (st.ports p).frees + 1 }
    hends (by rw [before]; rfl) (by rw [before]; rfl) ⟨nofun, nofun⟩ (fun u hu => ?_) rfl rfl rfl
    rfl rfl rfl (.inr ⟨rfl, ?_⟩)
  · rw [held]
    simpa using Ne.symm hu
  · refine .freed (by simp [hfrees]) haliases fun hyes => ?_
    change (st.ports p).published = true at hyes
    rw [hpub] at hyes
    cases hyes

theorem closeWaitCancelCleanup_inv (h : st.Inv leaks)
    (before : (st.threads t).InCharge p .waiting) :
    (st.closeWaitCancelCleanup t p).Inv leaks := by
  obtain ⟨hclosing, hretired, hwaiter, hsleepers⟩ := h.owned t p _ before.ends
  have hawake : (st.ports p).sleepers.erase t = [] := by
    rcases hsleepers with hs | ⟨hs, -⟩ <;> simp [hs]
  unfold Registry.closeWaitCancelCleanup
  dsimp only
  rw [modify_modify]
  split
  · rename_i hrefs
    have hzero : (st.ports p).refs = 0 := by simpa [Registry.modify] using hrefs
    refine inCharge_step h before rfl rfl rfl rfl rfl rfl rfl (.inl ⟨.freeing, rfl, ?_⟩)
    exact ⟨⟨hclosing.published, hclosing.closing, hclosing.aliases, hclosing.frees⟩, rfl, rfl,
      hawake, hzero⟩
  · rename_i hrefs
    have hne : (st.ports p).refs ≠ 0 := by simpa [Registry.modify] using hrefs
    -- the port is left to the last release
    refine inCharge_step h before rfl rfl rfl rfl rfl rfl rfl (.inr ⟨rfl, ?_⟩)
    exact .orphan ⟨hclosing.published, hclosing.closing, hclosing.aliases, hclosing.frees⟩ hretired
      rfl hawake hne

theorem closeFound_inv (h : st.Inv leaks) (before : (st.threads t).Free) (free : st.lock = none)
    {i : Nat} (hi : (st.slots i).map Prod.fst = some p) (answers : Answers) :
    (st.closeFound t p epfd answers).Inv leaks := by
  unfold Registry.closeFound
  split
  · exact h.gotoFree before .idle
  dsimp only
  have hretire : ∀ closePublicFd : Bool,
      (if ((st.portRemoveEpfdLocked p epfd).ports p).aliases = 0 then
        (((st.portRemoveEpfdLocked p epfd).modify p fun port => { port with closing := true }).take
          t).goto t (.closeWake p closePublicFd)
      else if closePublicFd then ((st.portRemoveEpfdLocked p epfd).take t).goto t (.closeFd none)
      else (st.portRemoveEpfdLocked p epfd).goto t .idle).Inv leaks := by
    intro closePublicFd
    split
    · rename_i hzero
      exact lastAlias_inv h hi hzero free rfl before.ends rfl before.holds before.locksPort rfl rfl
    · rename_i hpos
      obtain ⟨hinv, hthreads, hlock⟩ := dropAlias_inv h hi hpos
      have hbefore : ((st.portRemoveEpfdLocked p epfd).threads t).Free := by
        rw [hthreads]
        exact before
      split
      · exact hinv.take (hlock.trans free) rfl hbefore.locksPort.symm hbefore.holds.symm
          hbefore.ends.symm
      · exact hinv.gotoFree hbefore .idle
  cases answers.identity with
  | same => exact hretire true
  | other => exact hretire false
  | error stale =>
    cases stale with
    | true =>
      simp only [if_true]
      exact hretire false
    | false => exact h.gotoFree before .idle

theorem close_inv (h : st.Inv leaks) (before : (st.threads t).Free) (free : st.lock = none)
    (answers : Answers) : (st.close t epfd answers).Inv leaks := by
  unfold Registry.close
  split
  · rename_i p hl
    obtain ⟨i, hi⟩ := lookup_mapped hl
    exact closeFound_inv h before free (by rw [hi]; rfl) answers
  split
  · rename_i p hl
    obtain ⟨i, hi⟩ := lookupAlias_mapped hl
    split
    · exact h.gotoFree before .idle
    · rename_i st' hadd
      obtain ⟨hinv, hthreads, hlock, j, hj⟩ := addAlias_inv h hi hadd
      exact closeFound_inv hinv (by rw [hthreads]; exact before) (hlock.trans free)
        (by rw [hj]; rfl) answers
  · exact h.take free rfl before.locksPort.symm before.holds.symm before.ends.symm

/-- `port_remove_locked` finds no slot of a port whose last alias is gone. -/
theorem portRemoveLocked_eq (h : st.Inv leaks) (zero : (st.ports p).aliases = 0) :
    st.portRemoveLocked p = st := by
  have hslots : ∀ i, (st.slots i).map Prod.fst ≠ some p := by
    have := h.slots p
    rw [zero] at this
    exact this.of_zero
  unfold Registry.portRemoveLocked
  have hmap : (fun i => if (st.slots i).map Prod.fst = some p then none else st.slots i) =
      st.slots := by
    funext i
    rw [if_neg (hslots i)]
  rw [hmap]
  have hport : ({ st.ports p with aliases := 0 } : Port) = st.ports p := by
    rw [← zero]
  simp only [Registry.modify, hport, Function.update_eq_self]

/-! ## Steps -/

variable {st' : Registry} {answers : Answers}

theorem retireWake_inv (h : st.Inv leaks) {use : Use}
    (hpc : st.threads t = .retireWake p epfd use) :
    ((st.portRemoveLocked p).unlock.goto t (.waitAndFree p (.acquire epfd use))).Inv leaks := by
  have hmarked := h.owned t p .marked (by rw [hpc]; rfl)
  rw [portRemoveLocked_eq h hmarked.1.aliases]
  exact h.giveBack hpc rfl rfl rfl rfl rfl

theorem closingCheck_inv (h : st.Inv leaks) {site : CheckSite}
    (hpc : st.threads t = .closingCheck p site) : (st.closingCheck t p site).Inv leaks := by
  have hrelease : (st.goto t (.release p)).Inv leaks :=
    h.stay hpc rfl rfl rfl rfl
  cases site with
  | failed => exact hrelease
  | afterDecoration => exact hrelease
  | beforeDecoration =>
    simp only [Registry.closingCheck]
    split
    · exact hrelease
    · exact h.stay hpc rfl rfl rfl rfl

theorem run_inv (h : st.Inv leaks) (hstep : st.run t answers = some st') : st'.Inv leaks := by
  unfold Registry.run at hstep
  split at hstep
  · cases hstep
  rename_i hlock
  have hfree : Registry.needsLock (st.threads t) = true → st.lock = none := by
    intro hneeds
    simpa [hneeds] using hlock
  have hheld : (st.threads t).locks = true → st.lock = some t := (h.lock t).mp
  -- how `t` stands to locks, references and ports is read off its program counter
  cases hpc : st.threads t <;> simp only [hpc] at hstep hfree hheld
  case idle => cases hstep
  case dead => cases hstep
  case acquire epfd use =>
    obtain rfl := Option.some.inj hstep
    exact acquire_inv h (hpc ▸ ⟨rfl, rfl, rfl, rfl⟩) (hfree rfl) use answers
  case validate epfd use closes =>
    cases closes with
    | zero =>
      cases hstep
      exact create_inv h (hheld rfl) (by rw [hpc]; rfl) (by rw [hpc]; rfl) (by rw [hpc]; rfl) use
        answers
    | succ closes =>
      cases hstep
      exact h.stay hpc rfl rfl rfl rfl
  case discard p closes =>
    cases closes with
    | zero =>
      cases hstep
      exact discardFree_inv h (hheld rfl) hpc
    | succ closes =>
      cases hstep
      exact h.stay hpc rfl rfl rfl rfl
  case retireWake p epfd use =>
    cases hstep
    exact retireWake_inv h hpc
  case waitAndFree p after =>
    cases hstep
    exact waitAndFree_inv h (hpc ▸ ⟨rfl, rfl, rfl, rfl⟩) after
  case condWait p after =>
    cases hstep
    exact condWake_inv h (hpc ▸ ⟨rfl, rfl, rfl, rfl⟩) after
  case freeing p closes after =>
    cases closes with
    | zero =>
      cases hstep
      exact free_inv h (hpc ▸ ⟨rfl, rfl, rfl, rfl⟩) after.pc_free
    | succ closes =>
      cases hstep
      exact h.stay hpc rfl rfl rfl rfl
  case control p =>
    exact lockPort_inv h (hpc ▸ ⟨rfl, rfl, rfl, rfl⟩) ⟨rfl, rfl, rfl, rfl⟩ hstep
  case controlLocked p =>
    cases hstep
    split <;> exact unlockPort_inv h (hpc ▸ ⟨rfl, rfl, rfl, rfl⟩) ⟨rfl, rfl, rfl, rfl⟩
  case waitStart p =>
    exact lockPort_inv h (hpc ▸ ⟨rfl, rfl, rfl, rfl⟩) ⟨rfl, rfl, rfl, rfl⟩ hstep
  case waitStartLocked p =>
    cases hstep
    exact unlockPort_inv h (hpc ▸ ⟨rfl, rfl, rfl, rfl⟩) ⟨rfl, rfl, rfl, rfl⟩
  case nativeWait p =>
    cases hstep
    exact h.stay hpc rfl rfl rfl rfl
  case closingCheck p site =>
    cases hstep
    exact closingCheck_inv h hpc
  case decorate p =>
    exact lockPort_inv h (hpc ▸ ⟨rfl, rfl, rfl, rfl⟩) ⟨rfl, rfl, rfl, rfl⟩ hstep
  case decorateLocked p =>
    cases hstep
    exact unlockPort_inv h (hpc ▸ ⟨rfl, rfl, rfl, rfl⟩) ⟨rfl, rfl, rfl, rfl⟩
  case release p =>
    cases hstep
    exact portRelease_inv h (hpc ▸ ⟨rfl, rfl, rfl, rfl⟩) .idle ⟨rfl, rfl, rfl, rfl⟩
  case close epfd =>
    obtain rfl := Option.some.inj hstep
    exact close_inv h (hpc ▸ ⟨rfl, rfl, rfl, rfl⟩) (hfree rfl) answers
  case closeWake p closePublicFd =>
    split at hstep
    · cases hstep
      exact h.stay hpc rfl rfl rfl rfl
    · cases hstep
      exact h.giveBack hpc rfl rfl rfl rfl rfl
  case closeFd closed =>
    cases hstep
    cases closed <;>
      exact h.giveBack hpc rfl rfl rfl rfl rfl
  case cancelRelease p =>
    cases hstep
    exact portRelease_inv h (hpc ▸ ⟨rfl, rfl, rfl, rfl⟩) ⟨rfl, rfl, rfl, rfl⟩
      ⟨rfl, rfl, rfl, rfl⟩
  case cancelFree p =>
    cases hstep
    exact free_inv h (hpc ▸ ⟨rfl, rfl, rfl, rfl⟩) ⟨rfl, rfl, rfl, rfl⟩

/-- A thread that is cancelled in `port_free` leaves the port behind. -/
theorem leak_inv (h : st.Inv leaks) (allowed : leaks) {closes : Nat} {after : After}
    (hpc : st.threads t = .freeing p closes after) : (st.goto t .dead).Inv leaks := by
  have hcharge : (st.threads t).InCharge p .freeing := by
    rw [hpc]
    exact ⟨rfl, rfl, rfl, rfl⟩
  obtain ⟨hclosing, hretired, -, -, hrefs⟩ := h.owned t p _ hcharge.ends
  have hleak : ((st.modify p id).goto t .dead).Inv leaks :=
    inCharge_step h hcharge rfl rfl rfl rfl rfl rfl rfl
      (.inr ⟨rfl, .leaked allowed hclosing hrefs hretired⟩)
  simpa [Registry.modify] using hleak

/-- A cancellation of a thread that does not hold the registry lock. -/
theorem cancel_inv (h : st.Inv leaks) (polite : st.lock ≠ some t)
    (allowed : ∀ p closes after, st.threads t = .freeing p closes after → leaks)
    (hstep : st.cancel t = some st') : st'.Inv leaks := by
  have hno : (st.threads t).locks = true → False := fun hlocks => polite ((h.lock t).mp hlocks)
  unfold Registry.cancel at hstep
  cases hpc : st.threads t <;> simp only [hpc, reduceCtorEq] at hstep hno
  case nativeWait p =>
    cases hstep
    exact h.stay hpc rfl rfl rfl rfl
  case condWait p after =>
    split at hstep
    · cases hstep
    · cases hstep
      exact closeWaitCancelCleanup_inv h (hpc ▸ ⟨rfl, rfl, rfl, rfl⟩)
  case freeing p closes after =>
    cases closes with
    | zero => cases hstep
    | succ closes =>
      cases hstep
      exact leak_inv h (allowed p _ after hpc) hpc
  case validate => exact (hno rfl).elim
  case discard => exact (hno rfl).elim
  case retireWake => exact (hno rfl).elim
  case closeWake => exact (hno rfl).elim
  case closeFd => exact (hno rfl).elim

/-- Every step keeps the invariant, as long as no thread is cancelled with the registry lock held and
only those who allow leaks cancel a thread in `port_free`. -/
theorem step_inv (h : st.Inv leaks) {a : Act}
    (cancelled : ∀ t, a = .cancel t → st.lock ≠ some t ∧
      ∀ p closes after, st.threads t = .freeing p closes after → leaks)
    (hstep : st.step a = some st') : st'.Inv leaks := by
  have hcall : ∀ {t pc}, pc.Free →
      (if st.threads t = .idle then some (st.goto t pc) else none) = some st' → st'.Inv leaks := by
    intro t pc hfree hif
    split at hif
    · rename_i hidle
      cases hif
      exact h.gotoFree (by rw [hidle]; exact .idle) hfree
    · cases hif
  cases a with
  | call t epfd use => exact hcall ⟨rfl, rfl, rfl, rfl⟩ hstep
  | close t epfd => exact hcall ⟨rfl, rfl, rfl, rfl⟩ hstep
  | run t answers => exact run_inv h hstep
  | cancel t => exact cancel_inv h (cancelled t rfl).1 (cancelled t rfl).2 hstep

end

end WepollEx.Posix
