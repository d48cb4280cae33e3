import WepollEx.Nginx.Adapter

/-!
# No wanted class stays disarmed unseen

A class that is wanted and disarmed is pending, and a state with pending classes is in the queue, so
that the next sweep comes back to it.
-/

namespace WepollEx.Nginx

open Mask Transition

/-! ## Classes -/

def classBit : Direction → Nat
  | .read => 0
  | .write => 1

theorem classForEvent_eq (d : Direction) : classForEvent d = BitVec.twoPow 32 (classBit d) := by
  cases d <;> rfl

theorem has_iff {mask : RearmClasses} {d : Direction} :
    Has mask d = mask.getLsbD (classBit d) := by
  have hlt : classBit d < 32 := by cases d <;> decide
  rw [Has, classForEvent_eq, Bool.eq_iff_iff, bne_iff_ne, ne_eq, BitVec.ofNat_eq_ofNat,
    and_eq_zero_iff]
  simp only [BitVec.getLsbD_twoPow, hlt, decide_true, Bool.true_and]
  refine ⟨fun h => ?_, fun h hall => hall _ h (decide_eq_true rfl)⟩
  by_contra hbit
  exact h fun i hi he => hbit (of_decide_eq_true he ▸ hi)

@[simp] theorem has_zero (d : Direction) : Has 0#32 d = false := by
  cases d <;> rfl

@[simp] theorem has_or (a b : RearmClasses) (d : Direction) :
    Has (a ||| b) d = (Has a d || Has b d) := by
  simp [has_iff]

@[simp] theorem has_and (a b : RearmClasses) (d : Direction) :
    Has (a &&& b) d = (Has a d && Has b d) := by
  simp [has_iff]

@[simp] theorem has_not (a : RearmClasses) (d : Direction) : Has (~~~a) d = !Has a d := by
  have hlt : classBit d < 32 := by cases d <;> decide
  simp [has_iff, hlt]

@[simp] theorem has_classForEvent (d e : Direction) : Has (classForEvent d) e = decide (d = e) := by
  cases d <;> cases e <;> rfl

/-! ## What an operation on one state leaves alone -/

/-- The connection that the state is bound to, and how. -/
def ConnectionState.binding (st : ConnectionState) : Option ConnId × Int × Bool × Bool :=
  (st.connection, st.fd, st.inst, st.registered)

/-- All but its place in the queue. -/
def ConnectionState.core (st : ConnectionState) :
    (Option ConnId × Int × Bool × Bool) × RearmClasses × RearmClasses × RearmClasses :=
  (st.binding, st.interests, st.disarmed, st.pending)

namespace Adapter

/-- The masks of a state are consistent, and no wanted class is disarmed without being pending. -/
structure Owed (m : Adapter) (s : StateId) : Prop where
  within : Within (m.states s).pending (m.states s).disarmed
  pending : ∀ c, (m.states s).connection = some c → m.stateIsCurrent s = true → ∀ d,
    Has (m.states s).interests d = true → Has (m.states s).disarmed d = true →
    ((m.connections c).event d).closed = false → Has (m.states s).pending d = true

/-- The invariant of the runs. -/
structure Inv (m : Adapter) : Prop where
  nodup : m.pendingStates.Nodup
  mem : ∀ s, s ∈ m.pendingStates ↔ (m.states s).queued = true
  bound : ∀ s ∈ m.pendingStates, s < m.stateCount
  listed : ∀ s, (m.states s).pending ≠ 0 → (m.states s).queued = true
  owed : ∀ s, m.Owed s
  clean : m.overflowLogged = false

/-- The fields of a connection on which the invariant depends. -/
def Alike (a b : Connection) : Prop :=
  a.fd = b.fd ∧ a.read.inst = b.read.inst ∧ ∀ d, (a.event d).closed = (b.event d).closed

/-- Only the state `s` differs, apart from its place in the queue. -/
structure Edit (s : StateId) (m m' : Adapter) : Prop where
  queue : m'.pendingStates = m.pendingStates
  count : m'.stateCount = m.stateCount
  log : m'.overflowLogged = m.overflowLogged
  others : ∀ t, t ≠ s → m'.states t = m.states t
  queued : (m'.states s).queued = (m.states s).queued
  alike : ∀ c, Alike (m'.connections c) (m.connections c)

theorem Edit.refl (s : StateId) (m : Adapter) : Edit s m m :=
  ⟨rfl, rfl, rfl, fun _ _ => rfl, rfl, fun _ => ⟨rfl, rfl, fun _ => rfl⟩⟩

theorem Edit.trans {s : StateId} {m₁ m₂ m₃ : Adapter} (h : Edit s m₁ m₂) (h' : Edit s m₂ m₃) :
    Edit s m₁ m₃ where
  queue := h'.queue.trans h.queue
  count := h'.count.trans h.count
  log := h'.log.trans h.log
  others := fun t ht => (h'.others t ht).trans (h.others t ht)
  queued := h'.queued.trans h.queued
  alike := fun c => by
    obtain ⟨hfd, hinst, hclosed⟩ := h.alike c
    obtain ⟨hfd', hinst', hclosed'⟩ := h'.alike c
    exact ⟨hfd'.trans hfd, hinst'.trans hinst, fun d => (hclosed' d).trans (hclosed d)⟩

theorem edit_state {m : Adapter} {s : StateId} {f : ConnectionState → ConnectionState}
    (hf : (f (m.states s)).queued = (m.states s).queued) : Edit s m (m.modifyState s f) where
  queue := rfl
  count := rfl
  log := rfl
  others := fun t ht => Function.update_of_ne ht _ _
  queued := by simp [modifyState, hf]
  alike := fun _ => ⟨rfl, rfl, fun _ => rfl⟩

theorem edit_event {m : Adapter} {s : StateId} {c : ConnId} {d : Direction} {f : Event → Event}
    (hinst : ∀ ev, (f ev).inst = ev.inst) (hclosed : ∀ ev, (f ev).closed = ev.closed) :
    Edit s m (m.modifyEvent c d f) where
  queue := rfl
  count := rfl
  log := rfl
  others := fun _ _ => rfl
  queued := rfl
  alike := fun b => by
    by_cases hb : b = c
    · subst hb
      cases d <;> simp [modifyEvent, Connection.modify, Alike, hinst] <;>
        intro d <;> cases d <;> simp [Connection.event, hclosed]
    · simp [modifyEvent, Alike, hb]

section Edits

variable {m m' : Adapter} {s t : StateId}

/-- Being current depends on the state and on the connection's identity. -/
theorem stateIsCurrent_congr (hst : (m'.states t).binding = (m.states t).binding)
    (hcount : m'.stateCount = m.stateCount)
    (halike : ∀ c, Alike (m'.connections c) (m.connections c)) :
    m'.stateIsCurrent t = m.stateIsCurrent t := by
  simp only [ConnectionState.binding, Prod.mk.injEq] at hst
  obtain ⟨hconn, hfd, hinst, hreg⟩ := hst
  simp only [stateIsCurrent, stateForConnection, hconn, hfd, hinst, hreg, hcount]
  cases (m.states t).connection with
  | none => rfl
  | some c =>
    obtain ⟨hfd, hinst, _⟩ := halike c
    simp only [hfd, hinst]

theorem Owed.congr (h : m.Owed t) (hst : (m'.states t).core = (m.states t).core)
    (hcount : m'.stateCount = m.stateCount)
    (halike : ∀ c, Alike (m'.connections c) (m.connections c)) : m'.Owed t := by
  simp only [ConnectionState.core, Prod.mk.injEq] at hst
  obtain ⟨hbinding, hinterests, hdisarmed, hpending⟩ := hst
  constructor
  · rw [hpending, hdisarmed]
    exact h.within
  · intro c hc hcur d hint hdis hclosed
    rw [stateIsCurrent_congr hbinding hcount halike] at hcur
    rw [(halike c).2.2 d] at hclosed
    rw [hinterests] at hint
    rw [hdisarmed] at hdis
    rw [hpending]
    exact h.pending c ((congrArg Prod.fst hbinding).symm.trans hc) hcur d hint hdis hclosed

theorem Inv.edit (inv : m.Inv) (h : Edit s m m') (howed : m'.Owed s)
    (hlisted : (m'.states s).pending ≠ 0 → (m'.states s).queued = true) : m'.Inv where
  nodup := by rw [h.queue]; exact inv.nodup
  mem := by
    intro t
    rw [h.queue, inv.mem]
    by_cases ht : t = s
    · rw [ht, h.queued]
    · rw [h.others t ht]
  bound := by rw [h.queue, h.count]; exact inv.bound
  listed := by
    intro t
    by_cases ht : t = s
    · rw [ht]; exact hlisted
    · rw [h.others t ht]; exact inv.listed t
  owed := by
    intro t
    by_cases ht : t = s
    · rw [ht]; exact howed
    · exact (inv.owed t).congr (by rw [h.others t ht]) h.count h.alike
  clean := by rw [h.log]; exact inv.clean

/-- Flags of events do not matter. -/
theorem Inv.flags (inv : m.Inv) (h : Edit s m m') (hst : m'.states s = m.states s) : m'.Inv :=
  inv.edit h ((inv.owed s).congr (by rw [hst]) h.count h.alike) (by rw [hst]; exact inv.listed s)

/-- What rearming does: the state stays bound, classes leave `pending`, and none is missed. -/
structure Settles (s : StateId) (m m' : Adapter) : Prop extends Edit s m m' where
  binding : (m'.states s).binding = (m.states s).binding
  shrinks : Within (m'.states s).pending (m.states s).pending
  owed : m.Owed s → m'.Owed s

theorem Settles.refl (s : StateId) (m : Adapter) : Settles s m m where
  toEdit := .refl s m
  binding := rfl
  shrinks := .refl _
  owed := id

theorem Settles.trans {m₁ m₂ m₃ : Adapter} (h : Settles s m₁ m₂) (h' : Settles s m₂ m₃) :
    Settles s m₁ m₃ where
  toEdit := h.toEdit.trans h'.toEdit
  binding := h'.binding.trans h.binding
  shrinks := h'.shrinks.trans h.shrinks
  owed := h'.owed ∘ h.owed

theorem Inv.settles (inv : m.Inv) (h : Settles s m m') : m'.Inv := by
  refine inv.edit h.toEdit (h.owed (inv.owed s)) fun hne => ?_
  rw [h.queued]
  refine inv.listed s fun hzero => hne ?_
  have hshrinks := h.shrinks
  rw [hzero] at hshrinks
  exact within_zero_iff.mp hshrinks

/-- A change of the masks that leaves the state bound. -/
theorem settles_state {f : ConnectionState → ConnectionState}
    (hqueued : (f (m.states s)).queued = (m.states s).queued)
    (hbinding : (f (m.states s)).binding = (m.states s).binding)
    (hshrinks : Within (f (m.states s)).pending (m.states s).pending)
    (hwithin : Within (m.states s).pending (m.states s).disarmed →
      Within (f (m.states s)).pending (f (m.states s)).disarmed)
    (hpending : m.Owed s → ∀ c, (m.states s).connection = some c → m.stateIsCurrent s = true → ∀ d,
      Has (f (m.states s)).interests d = true → Has (f (m.states s)).disarmed d = true →
      ((m.connections c).event d).closed = false → Has (f (m.states s)).pending d = true) :
    Settles s m (m.modifyState s f) := by
  have hself : (m.modifyState s f).states s = f (m.states s) := Function.update_self ..
  refine ⟨edit_state hqueued, by rw [hself, hbinding], by rwa [hself], fun howed => ⟨?_, ?_⟩⟩
  · rw [hself]
    exact hwithin howed.within
  · intro c hc hcur d
    have hsame : (m.modifyState s f).stateIsCurrent s = m.stateIsCurrent s :=
      stateIsCurrent_congr (by rw [hself, hbinding]) rfl fun _ => ⟨rfl, rfl, fun _ => rfl⟩
    rw [hsame] at hcur
    rw [hself] at hc ⊢
    have hconn : (m.states s).connection = some c := by
      rw [← hc]
      exact (congrArg Prod.fst hbinding).symm
    exact hpending howed c hconn hcur d

theorem settles_event {c : ConnId} {d : Direction} {f : Event → Event}
    (hinst : ∀ ev, (f ev).inst = ev.inst) (hclosed : ∀ ev, (f ev).closed = ev.closed) :
    Settles s m (m.modifyEvent c d f) where
  toEdit := edit_event hinst hclosed
  binding := rfl
  shrinks := .refl _
  owed := fun h => h.congr rfl rfl (edit_event (s := s) hinst hclosed).alike

/-- Events may become active, ready or posted. -/
theorem Inv.event {c : ConnId} {d : Direction} {f : Event → Event} (inv : m.Inv)
    (hinst : ∀ ev, (f ev).inst = ev.inst) (hclosed : ∀ ev, (f ev).closed = ev.closed) :
    (m.modifyEvent c d f).Inv :=
  inv.settles (s := 0) (settles_event hinst hclosed)

theorem Inv.active {c : ConnId} {d : Direction} (inv : m.Inv) (v : Bool) :
    (m.modifyEvent c d fun ev => { ev with active := v }).Inv :=
  inv.event (fun _ => rfl) fun _ => rfl

theorem activate_settles (classes : RearmClasses) (d : Direction) :
    Settles s m (m.activate s classes d) := by
  rw [activate]
  split
  · split
    · exact settles_event (fun _ => rfl) fun _ => rfl
    · exact .refl s m
  · exact .refl s m

/-- Masks of the same classes taken from both sides. -/
theorem within_clear {a b : RearmClasses} (classes : RearmClasses) (h : Within a b) :
    Within (a &&& ~~~classes) (b &&& ~~~classes) :=
  (h.and_left _).and_and (within_and_self_right _ _)

theorem rearmClasses_settles (rearm : Bool) (classes : RearmClasses) :
    Settles s m (m.rearmClasses rearm s classes).2 := by
  rw [rearmClasses]
  split
  · exact .refl s m
  split
  · exact .refl s m
  refine .trans (settles_state rfl rfl ?_ ?_ ?_)
    ((activate_settles classes .read).trans (activate_settles classes .write))
  · exact within_and_self_left _ _
  · exact within_clear classes
  · intro howed c hc hcur d hint hdis hclosed
    simp only [has_and, Bool.and_eq_true] at hdis ⊢
    exact ⟨howed.pending c hc hcur d hint hdis.1 hclosed, hdis.2⟩

theorem collect_settles {c : ConnId} (hc : (m.states s).connection = some c)
    (classes : RearmClasses) (d : Direction) : Settles s m (m.collect s c classes d).2 := by
  simp only [collect]
  split
  · split
    · rename_i hdrop
      dsimp only
      refine settles_state rfl rfl ?_ ?_ ?_
      · exact within_and_self_left _ _
      · exact fun h => h.and_left _
      · intro howed b hb hcur e hint hdis hclosed
        obtain rfl : c = b := Option.some.inj (hc.symm.trans hb)
        have hne : d ≠ e := by
          rintro rfl
          simp [hint, hclosed] at hdrop
        simpa [hne] using howed.pending c hc hcur e hint hdis hclosed
    · split <;> exact .refl s m
  · exact .refl s m

theorem Settles.connection {c : ConnId} (h : Settles s m m')
    (hc : (m.states s).connection = some c) : (m'.states s).connection = some c :=
  (congrArg Prod.fst h.binding).trans hc

theorem rearmReadyState_settles (rearm : Bool) : Settles s m (m.rearmReadyState rearm s).2 := by
  rw [rearmReadyState]
  split
  · rename_i c hcur hc
    have hread := collect_settles hc 0 .read
    have hwrite := collect_settles (hread.connection hc) (m.collect s c 0 .read).1 .write
    exact (hread.trans hwrite).trans (rearmClasses_settles rearm _)
  · rename_i hnot
    dsimp only
    refine settles_state rfl rfl ?_ ?_ ?_
    · exact Within.zero _
    · exact fun _ => Within.zero _
    · exact fun _ c hc hcur => (hnot c hcur hc).elim

end Edits

/-! ## The queue -/

def withQueue (m : Adapter) (queue : List StateId) : Adapter := { m with pendingStates := queue }

section Queue

variable {m m' : Adapter} {s : StateId} {before rest : List StateId}

theorem Owed.withQueue (h : m.Owed s) (queue : List StateId) : (m.withQueue queue).Owed s :=
  h.congr rfl rfl fun _ => ⟨rfl, rfl, fun _ => rfl⟩

theorem Settles.withQueue (h : Settles s m m') (queue : List StateId) :
    Settles s (m.withQueue queue) (m'.withQueue queue) where
  queue := rfl
  count := h.count
  log := h.log
  others := h.others
  queued := h.queued
  alike := h.alike
  binding := h.binding
  shrinks := h.shrinks
  owed := fun howed => (h.owed (howed.withQueue m.pendingStates)).withQueue queue

/-- A state without pending classes may leave the queue. -/
theorem Inv.dequeue (inv : (m.withQueue (before ++ s :: rest)).Inv)
    (hnone : (m.states s).pending = 0) :
    ((m.modifyState s fun st => { st with queued := false }).withQueue (before ++ rest)).Inv := by
  have hnodup : (before ++ s :: rest).Nodup := inv.nodup
  have hsub : (before ++ rest).Sublist (before ++ s :: rest) :=
    (List.sublist_cons_self s rest).append_left before
  obtain ⟨hs, hrest⟩ := List.nodup_cons.mp (List.perm_middle.nodup_iff.mp hnodup)
  have hother : ∀ t, t ≠ s →
      (m.modifyState s fun st => { st with queued := false }).states t = m.states t :=
    fun t ht => Function.update_of_ne ht _ _
  have hself : (m.modifyState s fun st => { st with queued := false }).states s =
      { m.states s with queued := false } := Function.update_self ..
  constructor
  case nodup => exact hnodup.sublist hsub
  case mem =>
    intro t
    by_cases ht : t = s
    · subst ht
      rw [withQueue, hself]
      simp only [Bool.false_eq_true, iff_false]
      exact hs
    · have hmem := inv.mem t
      simp only [withQueue] at hmem ⊢
      rw [hother t ht, ← hmem]
      simp [ht]
  case bound => exact fun t ht => inv.bound t (hsub.subset ht)
  case listed =>
    intro t
    by_cases ht : t = s
    · subst ht
      rw [withQueue, hself]
      exact fun h => absurd hnone h
    · rw [withQueue, hother t ht]
      exact inv.listed t
  case owed =>
    intro t
    refine (inv.owed t).congr ?_ rfl fun _ => ⟨rfl, rfl, fun _ => rfl⟩
    by_cases ht : t = s
    · subst ht
      rw [withQueue, hself]
      rfl
    · rw [withQueue, hother t ht]
      rfl
  case clean => exact inv.clean

theorem rearmReadyState_dropped {rearm : Bool}
    (h : (m.rearmReadyState rearm s).2.stateIsCurrent s = false) :
    ((m.rearmReadyState rearm s).2.states s).pending = 0 := by
  have hsettles := rearmReadyState_settles (m := m) (s := s) rearm
  rw [stateIsCurrent_congr hsettles.binding hsettles.count hsettles.alike] at h
  simp [rearmReadyState, h, modifyState]

/-- The states still in the queue are those already kept and those still to come. -/
theorem sweepLoop_inv {rearm : Nat → Bool} :
    ∀ {m : Adapter} {before : List StateId}, (m.withQueue (before ++ rest)).Inv →
      ((sweepLoop rearm rest m).2.2.withQueue (before ++ (sweepLoop rearm rest m).2.1)).Inv := by
  induction rest with
  | nil => exact fun inv => inv
  | cons s rest ih =>
    intro m before inv
    have hsettles := rearmReadyState_settles (m := m) (s := s) (rearm rest.length)
    have inv' := inv.settles (hsettles.withQueue (before ++ s :: rest))
    simp only [sweepLoop]
    split
    · rw [List.append_cons] at inv' ⊢
      exact ih inv'
    · rename_i hdrop
      refine ih (inv'.dequeue ?_)
      by_contra hne
      cases hcur : (m.rearmReadyState (rearm rest.length) s).2.stateIsCurrent s with
      | true => exact hdrop (by simpa [hcur] using hne)
      | false => exact hne (rearmReadyState_dropped hcur)

theorem sweepPendingStates_inv (rearm : Nat → Bool) (inv : m.Inv) :
    (m.sweepPendingStates rearm).2.Inv := by
  have hqueue : (m.withQueue ([] ++ m.pendingStates)).Inv := inv
  exact sweepLoop_inv hqueue

/-- A state of the cycle that is not in the queue finds room in it. -/
theorem Inv.room (inv : m.Inv) (hs : s < m.stateCount) (hq : (m.states s).queued = false) :
    m.pendingStates.length < m.stateCount := by
  have hnot : s ∉ m.pendingStates := by
    rw [inv.mem, hq]
    exact Bool.false_ne_true
  have hnodup : (s :: m.pendingStates).Nodup := List.nodup_cons.mpr ⟨hnot, inv.nodup⟩
  have hsub : s :: m.pendingStates ⊆ List.range m.stateCount := by
    intro t ht
    rcases List.mem_cons.mp ht with rfl | ht
    · exact List.mem_range.mpr hs
    · exact List.mem_range.mpr (inv.bound t ht)
  have hlen := (hnodup.subperm hsub).length_le
  simp only [List.length_cons, List.length_range] at hlen
  omega

/-- The state joins the queue if it has pending classes. -/
theorem Inv.enqueue (inv : m.Inv) (h : Edit s m m') (hs : s < m.stateCount) (howed : m'.Owed s) :
    (m'.queuePendingState s).Inv := by
  rw [queuePendingState]
  split
  · rename_i hskip
    simp only [Bool.or_eq_true, decide_eq_true_eq] at hskip
    exact inv.edit h howed fun hne => hskip.resolve_left hne
  · rename_i hput
    simp only [Bool.or_eq_true, decide_eq_true_eq, not_or, Bool.not_eq_true] at hput
    have hq : (m.states s).queued = false := h.queued ▸ hput.2
    have hroom := inv.room hs hq
    rw [if_neg (by rw [h.queue, h.count]; omega)]
    have hnot : s ∉ m.pendingStates := by
      rw [inv.mem, hq]
      exact Bool.false_ne_true
    have hself : (({ m' with pendingStates := m'.pendingStates ++ [s] } : Adapter).modifyState s
        fun st => { st with queued := true }).states s = { m'.states s with queued := true } :=
      Function.update_self ..
    have hother : ∀ t, t ≠ s → (({ m' with pendingStates := m'.pendingStates ++ [s] } :
        Adapter).modifyState s fun st => { st with queued := true }).states t = m.states t :=
      fun t ht => (Function.update_of_ne ht _ _).trans (h.others t ht)
    constructor
    case nodup =>
      simp only [modifyState, h.queue]
      exact List.nodup_append.mpr ⟨inv.nodup, List.nodup_singleton s,
        fun a ha b hb => by simp at hb; exact fun he => hnot (hb ▸ he ▸ ha)⟩
    case mem =>
      intro t
      by_cases ht : t = s
      · rw [ht, hself]
        simp [modifyState]
      · rw [hother t ht, ← inv.mem]
        simp [modifyState, h.queue, ht]
    case bound =>
      intro t ht
      simp only [modifyState, h.queue, h.count, List.mem_append, List.mem_singleton] at ht ⊢
      exact ht.elim (inv.bound t) fun he => he ▸ hs
    case listed =>
      intro t
      by_cases ht : t = s
      · rw [ht, hself]
        exact fun _ => rfl
      · rw [hother t ht]
        exact inv.listed t
    case owed =>
      intro t
      by_cases ht : t = s
      · subst ht
        refine howed.congr ?_ rfl fun _ => ⟨rfl, rfl, fun _ => rfl⟩
        rw [hself]
        rfl
      · exact (inv.owed t).congr (by rw [hother t ht]) h.count h.alike
    case clean => exact h.log.trans inv.clean

end Queue

/-! ## The callbacks -/

section Callbacks

variable {m : Adapter} {s : StateId} {c : ConnId}

theorem modifyState_self (f : ConnectionState → ConnectionState) :
    (m.modifyState s f).states s = f (m.states s) := Function.update_self ..

/-- A state without pending classes that wants nothing, or has nothing disarmed. -/
theorem Inv.rest {f : ConnectionState → ConnectionState} (inv : m.Inv)
    (hqueued : (f (m.states s)).queued = (m.states s).queued) (hnone : (f (m.states s)).pending = 0)
    (hidle : (f (m.states s)).interests = 0 ∨ (f (m.states s)).disarmed = 0) :
    (m.modifyState s f).Inv := by
  refine inv.edit (edit_state hqueued) ⟨?_, ?_⟩ ?_
  · rw [modifyState_self, hnone]
    exact Within.zero _
  · rw [modifyState_self]
    intro c _ _ d hint hdis _
    rcases hidle with h | h
    · simp [h] at hint
    · simp [h] at hdis
  · rw [modifyState_self]
    exact fun h => absurd hnone h

theorem stateForConnection_eq (h : m.stateForConnection c = some s) : s = c ∧ c < m.stateCount := by
  rw [stateForConnection] at h
  split at h
  · rename_i hlt
    exact ⟨(Option.some.inj h).symm, hlt⟩
  · cases h

theorem stateIsCurrent_iff : m.stateIsCurrent s = true ↔
    (m.states s).registered = true ∧ (m.states s).connection = some s ∧ s < m.stateCount ∧
    (m.connections s).fd ≠ -1 ∧ (m.connections s).fd = (m.states s).fd ∧
    (m.connections s).read.inst = (m.states s).inst := by
  simp only [stateIsCurrent, Bool.and_eq_true]
  cases hc : (m.states s).connection with
  | none => simp
  | some b =>
    simp only [Bool.and_eq_true, bne_iff_ne, beq_iff_eq, Option.some.injEq]
    constructor
    · rintro ⟨hreg, ⟨⟨hfd, hsame⟩, hinst⟩, hstate⟩
      obtain ⟨rfl, hlt⟩ := stateForConnection_eq hstate
      exact ⟨hreg, rfl, hlt, hfd, hsame, hinst⟩
    · rintro ⟨hreg, rfl, hlt, hfd, hsame, hinst⟩
      exact ⟨hreg, ⟨⟨hfd, hsame⟩, hinst⟩, by rw [stateForConnection, if_pos hlt]⟩

theorem prepareState_cases {m' : Adapter} (h : m.prepareState c = some (s, m')) :
    s = c ∧ (m' = m ∧ (m.states c).registered = true ∨
      m' = m.resetState c c ∧ (m.states c).registered = false) := by
  rw [prepareState] at h
  split at h
  · cases h
  · rename_i t ht
    obtain ⟨rfl, _⟩ := stateForConnection_eq ht
    cases hreg : (m.states t).registered with
    | true =>
      simp only [hreg, if_true] at h
      split at h
      · cases h
      · cases h
        exact ⟨rfl, .inl ⟨rfl, rfl⟩⟩
    | false =>
      simp only [hreg, Bool.false_eq_true, if_false] at h
      cases h
      exact ⟨rfl, .inr ⟨rfl, rfl⟩⟩

/-- What the callbacks find when the connection is registered: the state as it was, or a new one
with nothing disarmed. -/
structure Found (m : Adapter) (c : ConnId) (s : StateId) (m' : Adapter) : Prop where
  inv : m'.Inv
  state : s = c
  disarmed : m' = m ∧ (m.states c).registered = true ∨ (m'.states s).disarmed = 0

theorem registered_spec (ctl : Bool) (c : ConnId) (inv : m.Inv) :
    (∃ m', m.registered ctl c = .error m' ∧ m'.Inv) ∨
      ∃ s m', m.registered ctl c = .ok (s, m') ∧ Found m c s m' := by
  rw [registered]
  cases hp : m.prepareState c with
  | none => exact .inl ⟨m, rfl, inv⟩
  | some p =>
    obtain ⟨s, m'⟩ := p
    obtain ⟨rfl, ⟨rfl, hreg⟩ | ⟨rfl, hreg⟩⟩ := prepareState_cases hp
    · simp only [hreg, if_true]
      exact .inr ⟨s, m', rfl, inv, rfl, .inl ⟨rfl, hreg⟩⟩
    · have hreset : (m.resetState s s).Inv := inv.rest rfl rfl (.inl rfl)
      have hnot : ((m.resetState s s).states s).registered = false := by
        rw [resetState, modifyState_self]
        rfl
      simp only [hnot, Bool.false_eq_true, if_false, registerEdgeConnection]
      cases ctl with
      | false => exact .inl ⟨_, rfl, hreset⟩
      | true =>
        refine .inr ⟨s, _, rfl, hreset.rest rfl rfl (.inr rfl), rfl, .inr ?_⟩
        rw [modifyState_self]

theorem clear_of_not_has {a : RearmClasses} {d : Direction} (h : Has a d = false) :
    a &&& ~~~classForEvent d = a := by
  rw [has_iff] at h
  apply BitVec.eq_of_getLsbD_eq
  intro i hi
  by_cases he : i = classBit d
  · simp [he, h]
  · simp [hi, classForEvent_eq, he]

/-- The class of `d` is wanted and armed. -/
theorem Inv.want {m' : Adapter} {d : Direction} (inv : m.Inv) (h : Edit s m m')
    (hst : m'.states s = { m.states s with
      interests := (m.states s).interests ||| classForEvent d
      disarmed := (m.states s).disarmed &&& ~~~classForEvent d
      pending := (m.states s).pending &&& ~~~classForEvent d }) : m'.Inv := by
  refine inv.edit h ⟨?_, ?_⟩ ?_
  · rw [hst]
    exact within_clear _ (inv.owed s).within
  · intro b hb hcur e hint hdis hclosed
    rw [stateIsCurrent_congr (by rw [hst]; rfl) h.count h.alike] at hcur
    rw [(h.alike b).2.2 e] at hclosed
    rw [hst] at hb hint hdis ⊢
    simp only [has_or, has_and, has_not, has_classForEvent, Bool.or_eq_true, Bool.and_eq_true,
      Bool.not_eq_true', decide_eq_true_eq, decide_eq_false_iff_not] at hint hdis ⊢
    exact ⟨(inv.owed s).pending b hb hcur e (hint.resolve_right hdis.2) hdis.1 hclosed, hdis.2⟩
  · rw [hst]
    refine fun hne => inv.listed s fun hzero => hne ?_
    simp [hzero]

theorem activate_states (classes : RearmClasses) (d : Direction) :
    (m.activate s classes d).states = m.states := by
  rw [activate]
  split
  · split <;> rfl
  · rfl

theorem rearmClasses_true {classes : RearmClasses} (hne : classes ≠ 0) :
    (m.rearmClasses true s classes).1 = true ∧
    (m.rearmClasses true s classes).2.states s = { m.states s with
      disarmed := (m.states s).disarmed &&& ~~~classes
      pending := (m.states s).pending &&& ~~~classes } := by
  rw [rearmClasses, if_neg hne]
  simp [activate_states, modifyState_self]

theorem rearmClasses_false {classes : RearmClasses} (hne : classes ≠ 0) :
    m.rearmClasses false s classes = (false, m) := by
  rw [rearmClasses, if_neg hne]
  rfl

theorem want_inv (rearm : Bool) (d : Direction) (inv : m.Inv) : (m.want rearm s d).2.Inv := by
  have hedit : Edit s m (m.modifyState s fun st =>
      { st with interests := st.interests ||| classForEvent d }) := edit_state rfl
  have hne : classForEvent d ≠ 0 := by cases d <;> decide
  simp only [want, modifyState_self]
  cases hdis : Has (m.states s).disarmed d with
  | false =>
    simp only [Bool.false_eq_true, if_false, if_true]
    refine inv.want (d := d) (hedit.trans (edit_state rfl)) ?_
    rw [modifyState_self, modifyState_self, clear_of_not_has hdis]
  | true =>
    cases rearm with
    | false =>
      simp only [if_true, rearmClasses_false hne, Bool.false_eq_true, if_false]
      refine inv.flags (s := s) (hedit.trans (edit_state rfl)) ?_
      simp [modifyState_self]
    | true =>
      have hrearm := rearmClasses_settles (m := m.modifyState s fun st =>
        { st with interests := st.interests ||| classForEvent d }) (s := s) true (classForEvent d)
      obtain ⟨hok, hst⟩ := rearmClasses_true (m := m.modifyState s fun st =>
        { st with interests := st.interests ||| classForEvent d }) (s := s) hne
      simp only [if_true, hok]
      refine inv.want (d := d) (hedit.trans (hrearm.toEdit.trans (edit_state rfl))) ?_
      rw [modifyState_self, hst, modifyState_self]
      simp [BitVec.and_assoc]

/-- The condition of `addConnection_inv`: no class is disarmed that the state does not want yet,
or the rearm succeeds. -/
def Rearmable (m : Adapter) (rearm : Bool) (c : ConnId) : Prop :=
  rearm = true ∨ ((m.states c).registered = true → ∀ d, Has (m.states c).disarmed d = true →
    Has (m.states c).interests d = true)

@[simp] theorem has_bothClasses (d : Direction) : Has bothClasses d = true := by
  cases d <;> rfl

theorem wantBoth_self : (m.wantBoth s).states s =
    { m.states s with interests := (m.states s).interests ||| bothClasses } :=
  modifyState_self _

/-- All classes are wanted: those disarmed were wanted before. -/
theorem Inv.wantAll {m' : Adapter} (inv : m.Inv) (h : Edit s m m')
    (hst : m'.states s =
      { m.states s with interests := (m.states s).interests ||| bothClasses })
    (hwanted : ∀ d, Has (m.states s).disarmed d = true → Has (m.states s).interests d = true) :
    m'.Inv := by
  refine inv.edit h ⟨?_, ?_⟩ ?_
  · rw [hst]
    exact (inv.owed s).within
  · intro b hb hcur d _ hdis hclosed
    rw [stateIsCurrent_congr (by rw [hst]; rfl) h.count h.alike] at hcur
    rw [(h.alike b).2.2 d] at hclosed
    rw [hst] at hb hdis ⊢
    exact (inv.owed s).pending b hb hcur d (hwanted d hdis) hdis hclosed
  · rw [hst]
    exact inv.listed s

/-- Nothing is disarmed. -/
theorem Inv.armed {m' : Adapter} (inv : m.Inv) (h : Edit s m m')
    (hwithin : Within (m'.states s).pending (m'.states s).disarmed)
    (hshrinks : Within (m'.states s).pending (m.states s).pending)
    (harmed : ∀ d, Has (m'.states s).disarmed d = false) : m'.Inv := by
  refine inv.edit h ⟨hwithin, fun b _ _ d _ hdis _ => ?_⟩ fun hne => ?_
  · rw [harmed d] at hdis
    cases hdis
  · rw [h.queued]
    refine inv.listed s fun hzero => hne ?_
    rw [hzero] at hshrinks
    exact within_zero_iff.mp hshrinks

/-- The part of `addConnection` for a registered state. -/
theorem wantBoth_inv (rearm : Bool) (inv : m.Inv)
    (hrearm : rearm = true ∨ ∀ d, Has (m.states s).disarmed d = true →
      Has (m.states s).interests d = true) :
    ((m.wantBoth s).rearmClasses rearm s
      (((m.wantBoth s).states s).disarmed &&& bothClasses)).2.Inv := by
  have hedit : Edit s m (m.wantBoth s) := edit_state rfl
  have hdisarmed : ((m.wantBoth s).states s).disarmed = (m.states s).disarmed := by
    rw [wantBoth_self]
  rw [hdisarmed]
  by_cases hzero : (m.states s).disarmed &&& bothClasses = 0
  · rw [rearmClasses, if_pos hzero]
    refine inv.wantAll hedit wantBoth_self fun d hdis => ?_
    have hnone := congrArg (Has · d) hzero
    simp [hdis] at hnone
  cases rearm with
  | true =>
    obtain ⟨_, hst⟩ := rearmClasses_true (m := m.wantBoth s) (s := s) hzero
    rw [wantBoth_self] at hst
    refine inv.armed (hedit.trans (rearmClasses_settles true _).toEdit) ?_ ?_ fun d => ?_
    · rw [hst]
      exact within_clear _ (inv.owed s).within
    · rw [hst]
      exact within_and_self_left _ _
    · rw [hst]
      simp
  | false =>
    rw [rearmClasses_false hzero]
    exact inv.wantAll hedit wantBoth_self (hrearm.resolve_left Bool.false_ne_true)

theorem addConnection_inv {ctl rearm : Bool} (inv : m.Inv) (hrearm : m.Rearmable rearm c) :
    (m.addConnection ctl rearm c).2.Inv := by
  rw [addConnection]
  rcases registered_spec ctl c inv with ⟨m', hreg, inv'⟩ | ⟨s, m', hreg, hfound⟩
  · rw [hreg]
    exact inv'
  rw [hreg]
  obtain ⟨inv', rfl, hdis⟩ := hfound
  have hall := wantBoth_inv (s := s) rearm inv' <| hrearm.imp id fun h d hd => by
    rcases hdis with ⟨rfl, hreg⟩ | hzero
    · exact h hreg d hd
    · simp [hzero] at hd
  dsimp only
  split
  · rename_i heq
    rw [heq] at hall
    exact hall
  · rename_i heq
    rw [heq] at hall
    exact (hall.active true).active true

theorem edgeAddEvent_inv {ctl rearm : Bool} {b : Option ConnId} {d : Direction} (inv : m.Inv) :
    (m.edgeAddEvent ctl rearm b d).2.Inv := by
  unfold edgeAddEvent
  cases b with
  | none => exact inv
  | some c =>
    dsimp only
    split
    · exact inv
    rcases registered_spec ctl c inv with ⟨m', hreg, inv'⟩ | ⟨s, m', hreg, hfound⟩
    · rw [hreg]
      exact inv'
    · rw [hreg]
      have hwant := want_inv (s := s) rearm d hfound.inv
      dsimp only
      split
      · rename_i heq
        rw [heq] at hwant
        exact hwant
      · rename_i heq
        rw [heq] at hwant
        exact hwant.active true

theorem unbindState_inv (inv : m.Inv) : (m.unbindState s).Inv := inv.rest rfl rfl (.inl rfl)

theorem delConnection_inv {del : Option Errno} (inv : m.Inv) : (m.delConnection del c).2.Inv := by
  simp only [delConnection]
  split
  · exact (inv.active false).active false
  · exact unbindState_inv ((inv.active false).active false)

theorem edgeDelEvent_inv {del : Option Errno} {b : Option ConnId} {d : Direction} {close : Bool}
    (inv : m.Inv) : (m.edgeDelEvent del b d close).2.Inv := by
  unfold edgeDelEvent
  cases b with
  | none => exact inv
  | some c =>
    dsimp only
    split
    · exact delConnection_inv inv
    refine Inv.active ?_ false
    split
    · exact inv
    split
    · refine inv.settles (settles_state rfl rfl ?_ ?_ ?_)
      · exact within_and_self_left _ _
      · exact fun h => h.and_left _
      · intro howed b hb hcur e hint hdis hclosed
        simp only [has_and, Bool.and_eq_true] at hint ⊢
        exact ⟨howed.pending b hb hcur e hint.1 hdis hclosed, hint.2⟩
    · exact inv

end Callbacks

end Adapter

end WepollEx.Nginx
