import WepollEx.Nginx.Pending

/-!
# Runs of the nginx event module

The loop of `process_events` with its handlers, what nginx itself does to its connections, and what
holds whenever a callback has returned.
-/

namespace WepollEx.Nginx

open Mask Transition

namespace Adapter

/-! ## The loop -/

section Loop

variable {m : Adapter} {s : StateId} {c : ConnId}

theorem within_of_has {a : RearmClasses} {d : Direction} (h : Has a d = true) :
    Within (classForEvent d) a := by
  rw [has_iff] at h
  refine within_iff.mpr fun i hi => ?_
  rw [classForEvent_eq, BitVec.getLsbD_twoPow] at hi
  simp only [Bool.and_eq_true, decide_eq_true_eq] at hi
  exact hi.2 ▸ h

/-- The event disarms the classes of the directions it reports. -/
theorem has_delivered (revents : Events) (d : Direction) :
    Has (delivered revents) d = isReady revents d := by
  rw [delivered]
  split
  · rename_i hterminal
    cases d <;> simp only [isReady, hterminal, Bool.true_or] <;> rfl
  · rw [has_or]
    cases hread : isReady revents .read <;> cases hwrite : isReady revents .write <;>
      cases d <;> simp only [hread, hwrite] <;> rfl

theorem await_edit (dispatch : Bool) (d : Direction) : Edit s m (m.await s c dispatch d) := by
  rw [await]
  split
  · refine .trans (edit_state rfl) (edit_event ?_ ?_) <;>
      · intro ev
        split <;> rfl
  · exact .refl s m

theorem await_self (dispatch : Bool) (d : Direction) :
    (m.await s c dispatch d).states s = { m.states s with
      pending := (m.states s).pending ||| if dispatch then classForEvent d else 0 } := by
  cases dispatch <;> simp [await, modifyState, modifyEvent]

/-- The pending classes that an event adds. -/
def added (st : ConnectionState) (revents : Events) : RearmClasses :=
  (if isReady revents .read && Has st.interests .read then classForEvent .read else 0) |||
    (if isReady revents .write && Has st.interests .write then classForEvent .write else 0)

theorem has_added (st : ConnectionState) (revents : Events) (d : Direction) :
    Has (added st revents) d = (isReady revents d && Has st.interests d) := by
  rw [added, has_or]
  generalize hread : (isReady revents .read && Has st.interests .read) = read
  generalize hwrite : (isReady revents .write && Has st.interests .write) = write
  cases d <;> simp only [hread, hwrite] <;> cases read <;> cases write <;> rfl

theorem within_added (st : ConnectionState) (revents : Events) :
    Within (added st revents) (delivered revents) := by
  have hone : ∀ d, Within (if isReady revents d && Has st.interests d then classForEvent d else 0)
      (delivered revents) := by
    intro d
    split
    · rename_i h
      simp only [Bool.and_eq_true] at h
      exact within_of_has ((has_delivered revents d).trans h.1)
    · exact Within.zero _
  exact (hone .read).or (hone .write)

theorem deliver_inv (c : ConnId) (revents : Events) (inv : m.Inv) (hcur : m.stateIsCurrent s = true) :
    (m.deliver s c revents).Inv := by
  rw [deliver]
  generalize hm₁ : m.modifyState s (fun st =>
    { st with disarmed := st.disarmed ||| delivered revents }) = m₁
  have hedit₁ : Edit s m m₁ := hm₁ ▸ edit_state rfl
  have hst₁ : m₁.states s =
      { m.states s with disarmed := (m.states s).disarmed ||| delivered revents } :=
    hm₁ ▸ modifyState_self _
  have hedit := hedit₁.trans ((await_edit (c := c) (m₁.dispatches s revents .read) .read).trans
    (await_edit (c := c) (m₁.dispatches s revents .write) .write))
  refine inv.enqueue hedit (stateIsCurrent_iff.mp hcur).2.2.1 ?_
  have hst : (((m₁.await s c (m₁.dispatches s revents .read) .read).await s c
      (m₁.dispatches s revents .write) .write).states s) = { m.states s with
        disarmed := (m.states s).disarmed ||| delivered revents
        pending := (m.states s).pending ||| added (m.states s) revents } := by
    rw [await_self, await_self, hst₁]
    simp [dispatches, hst₁, added, BitVec.or_assoc]
  constructor
  · rw [hst]
    exact (inv.owed s).within.or_mono (within_added _ revents)
  · intro b hb hcur' d hint hdis hclosed
    rw [(hedit.alike b).2.2 d] at hclosed
    rw [hst] at hb hint hdis ⊢
    simp only [has_or, has_added, has_delivered, Bool.or_eq_true, Bool.and_eq_true] at hdis ⊢
    exact hdis.imp (fun h => (inv.owed s).pending b hb hcur d hint h hclosed) fun h => ⟨h, hint⟩

theorem dispatch_inv {f : Frame} {d : Direction} {handler : Bool} {set : Event → Event}
    (inv : m.Inv) (hinst : ∀ ev, (set ev).inst = ev.inst)
    (hclosed : ∀ ev, (set ev).closed = ev.closed) : (dispatch m f c d handler set).2.Inv := by
  have inv' := inv.event (c := c) (d := d) hinst hclosed
  rw [dispatch]
  split
  · exact inv'.event (fun _ => rfl) fun _ => rfl
  · exact inv'

theorem advance_inv {f : Frame} {handler rearm : Bool} (inv : m.Inv) :
    (advance handler rearm m f).2.Inv := by
  rw [advance]
  split
  · split
    · dsimp only
      split
      · exact inv
      · split
        · exact inv
        · rename_i s _ hskip
          simp only [Bool.or_eq_true, Bool.not_eq_true', not_or, Bool.not_eq_false] at hskip
          have hdeliver := deliver_inv (m.events f.i).connection (m.events f.i).events inv hskip.1.1
          dsimp only
          split
          · exact dispatch_inv hdeliver (fun _ => rfl) fun _ => rfl
          · exact hdeliver
    · exact inv
  · dsimp only
    split
    · exact dispatch_inv inv (fun _ => rfl) fun _ => rfl
    · exact inv
  · dsimp only
    split
    · exact inv.settles (rearmReadyState_settles rearm)
    · exact inv

theorem processEvents_inv {rearm : Nat → Bool} {wait : Except Errno (List Record)}
    {postEvents : Bool} (inv : m.Inv) : (processEvents rearm wait postEvents m).2.Inv := by
  have hsweep := sweepPendingStates_inv rearm inv
  rw [processEvents]
  cases wait with
  | error e => exact hsweep
  | ok records =>
    refine ⟨hsweep.nodup, hsweep.mem, hsweep.bound, hsweep.listed, fun s => ?_, hsweep.clean⟩
    exact (hsweep.owed s).congr rfl rfl fun _ => ⟨rfl, rfl, fun _ => rfl⟩

/-! ## What nginx does to its connections -/

/-- Connections may change as long as no state becomes current and no event reopens. -/
theorem Inv.connect {connections : ConnId → Connection} (inv : m.Inv)
    (h : ∀ s b, (m.states s).connection = some b →
      ({ m with connections := connections } : Adapter).stateIsCurrent s = true →
      m.stateIsCurrent s = true ∧ ∀ d, ((connections b).event d).closed = false →
        ((m.connections b).event d).closed = false) :
    ({ m with connections := connections } : Adapter).Inv where
  nodup := inv.nodup
  mem := inv.mem
  bound := inv.bound
  listed := inv.listed
  owed := fun s => ⟨(inv.owed s).within, fun b hb hcur d hint hdis hclosed => by
    obtain ⟨hcur', hclosed'⟩ := h s b hb hcur
    exact (inv.owed s).pending b hb hcur' d hint hdis (hclosed' d hclosed)⟩
  clean := inv.clean

theorem shut_inv {d : Direction} (inv : m.Inv) :
    (m.modifyEvent c d fun ev => { ev with closed := true }).Inv := by
  refine inv.connect fun s b hb hcur => ?_
  have hfields : ∀ a, (Function.update m.connections c ((m.connections c).modify
      (fun ev => { ev with closed := true }) d) a).fd = (m.connections a).fd ∧
      (Function.update m.connections c ((m.connections c).modify
        (fun ev => { ev with closed := true }) d) a).read.inst = (m.connections a).read.inst := by
    intro a
    by_cases ha : a = c
    · subst ha
      cases d <;> simp [Connection.modify]
    · simp [ha]
  rw [stateIsCurrent_iff] at hcur ⊢
  simp only [hfields] at hcur
  refine ⟨hcur, fun e hopen => ?_⟩
  by_cases hbc : b = c
  · subst hbc
    cases d <;> cases e <;> simp_all [Connection.modify, Connection.event]
  · simpa [hbc] using hopen

/-- The connection has another identity than the one under which its state is registered. -/
theorem replace_inv {connection : Connection} (inv : m.Inv)
    (hnew : (m.states c).registered = true → connection.fd ≠ -1 →
      connection.fd = (m.states c).fd → connection.read.inst ≠ (m.states c).inst) :
    ({ m with connections := Function.update m.connections c connection } : Adapter).Inv := by
  refine inv.connect fun s b hb hcur => ?_
  rw [stateIsCurrent_iff] at hcur ⊢
  obtain ⟨hreg, hself, hlt, hfd, hsame, hinst⟩ := hcur
  obtain rfl : s = b := Option.some.inj (hself.symm.trans hb)
  by_cases hs : s = c
  · subst hs
    simp only [Function.update_self] at hfd hsame hinst
    exact absurd hinst (hnew hreg hfd hsame)
  · simp only [Function.update_of_ne hs] at hfd hsame hinst ⊢
    exact ⟨⟨hreg, hself, hlt, hfd, hsame, hinst⟩, fun _ h => h⟩

end Loop

end Adapter

/-! ## Runs -/

open Adapter

/-- The rearm of `addConnection` may fail only where it is not needed for a class that was not
wanted before. -/
def Rearms (sys : Sys) : Act → Prop
  | .addConnection _ rearm c => sys.adapter.Rearmable rearm c
  | _ => True

theorem step_inv {sys sys' : Sys} {a : Act} (inv : sys.adapter.Inv) (hrearms : Rearms sys a)
    (h : sys.step a = some sys') : sys'.adapter.Inv := by
  cases a with
  | advance handler rearm =>
    simp only [Sys.step] at h
    split at h
    · cases h
    · cases h
      exact advance_inv inv
  | addEvent ctl rearm c d =>
    obtain ⟨_, ⟨⟩⟩ := Option.ite_none_right_eq_some.mp h
    exact edgeAddEvent_inv inv
  | delEvent del c d close =>
    obtain ⟨_, ⟨⟩⟩ := Option.ite_none_right_eq_some.mp h
    exact edgeDelEvent_inv inv
  | addConnection ctl rearm c =>
    obtain ⟨_, ⟨⟩⟩ := Option.ite_none_right_eq_some.mp h
    exact addConnection_inv inv hrearms
  | delConnection del c =>
    obtain ⟨_, ⟨⟩⟩ := Option.ite_none_right_eq_some.mp h
    exact delConnection_inv inv
  | processEvents rearm wait postEvents =>
    obtain ⟨_, ⟨⟩⟩ := Option.ite_none_right_eq_some.mp h
    exact processEvents_inv inv
  | touch c d ready posted =>
    obtain ⟨_, ⟨⟩⟩ := Option.ite_none_right_eq_some.mp h
    exact inv.event (fun _ => rfl) fun _ => rfl
  | shut c d =>
    obtain ⟨_, ⟨⟩⟩ := Option.ite_none_right_eq_some.mp h
    exact shut_inv inv
  | close c =>
    obtain ⟨_, ⟨⟩⟩ := Option.ite_none_right_eq_some.mp h
    exact replace_inv inv fun _ hfd => absurd rfl hfd
  | recycle c fd accept =>
    obtain ⟨hmay, ⟨⟩⟩ := Option.ite_none_right_eq_some.mp h
    refine replace_inv inv fun hreg _ hfd hinst => ?_
    simp only [Bool.and_eq_true, Fresh, Bool.not_eq_true'] at hmay
    simp only [Connection.recycled] at hfd hinst
    simp [hreg, hfd, hinst] at hmay

theorem start_inv (n : Nat) (connections : ConnId → Connection) :
    (Sys.start n connections).adapter.Inv where
  nodup := List.nodup_nil
  mem := fun _ => ⟨nofun, nofun⟩
  bound := nofun
  listed := fun _ h => absurd rfl h
  owed := fun _ => ⟨.refl _, nofun⟩
  clean := rfl

/-- What holds whenever a callback of the module has returned. -/
structure Kept (m : Adapter) : Prop where
  /-- A class that is wanted and disarmed waits for its rearm in the queue. -/
  owed : ∀ s c d, m.stateIsCurrent s = true → (m.states s).connection = some c →
    Has (m.states s).interests d = true → Has (m.states s).disarmed d = true →
    ((m.connections c).event d).closed = false →
    Has (m.states s).pending d = true ∧ s ∈ m.pendingStates
  once : m.pendingStates.Nodup
  queued : ∀ s, s ∈ m.pendingStates ↔ (m.states s).queued = true
  room : m.pendingStates.length ≤ m.stateCount
  overflow : m.overflowLogged = false
  within : ∀ s, Within (m.states s).pending (m.states s).disarmed

theorem Adapter.Inv.kept {m : Adapter} (inv : m.Inv) : Kept m where
  owed := by
    intro s c d hcur hc hint hdis hclosed
    have hpending := (inv.owed s).pending c hc hcur d hint hdis hclosed
    refine ⟨hpending, (inv.mem s).mpr (inv.listed s fun hzero => ?_)⟩
    simp [hzero] at hpending
  once := inv.nodup
  queued := inv.mem
  room := by
    have hsub : m.pendingStates ⊆ List.range m.stateCount :=
      fun s hs => List.mem_range.mpr (inv.bound s hs)
    simpa using (inv.nodup.subperm hsub).length_le
  overflow := inv.clean
  within := fun s => (inv.owed s).within

theorem edge_adapter_kept {n : Nat} {connections : ConnId → Connection} {sys : Sys}
    (h : ReachWhen Sys.step Rearms (Sys.start n connections) sys) : Kept sys.adapter :=
  (h.invariant (P := fun sys : Sys => sys.adapter.Inv) (start_inv n connections)
    fun _ _ _ inv hok hstep => step_inv inv hok hstep).kept

/-- An open connection. -/
def idle : Connection := ⟨5, ⟨false, false, false, false, false, false, false⟩,
  ⟨false, false, false, false, false, false, false⟩⟩

/-- A read event whose handler leaves it ready, and whose rearm then fails in the next sweep. -/
def retried : List Act :=
  [.addConnection true true 0,
    .processEvents (fun _ => true) (.ok [⟨EPOLLIN, 0, false, some 0⟩]) false,
    .advance true true, .advance true true, .advance true true, .advance true true,
    .touch 0 .read false false, .processEvents (fun _ => false) (.ok []) false]

theorem edge_adapter_kept_retried :
    ∃ sys, run Sys.step (Sys.start 1 fun _ => idle) retried = some sys ∧
      (sys.adapter.pendingStates = [0] ∧ (sys.adapter.states 0).pending = 1) ∧
      Kept sys.adapter := by
  obtain ⟨sys, hrun, hsys⟩ := Option.map_eq_some_iff.mp
    (by decide +kernel : (run Sys.step (Sys.start 1 fun _ => idle) retried).map
      (fun sys => (sys.adapter.pendingStates, (sys.adapter.states 0).pending)) = some ([0], 1))
  have hok : Always Sys.step Rearms (Sys.start 1 fun _ => idle) retried := by
    refine .of_forall (fun a ha s => ?_) _
    simp only [retried, List.mem_cons, List.not_mem_nil, or_false] at ha
    rcases ha with rfl | rfl | rfl | rfl | rfl | rfl | rfl | rfl <;>
      simp [Rearms, Adapter.Rearmable]
  exact ⟨sys, hrun, Prod.mk.inj hsys, edge_adapter_kept (ReachWhen.refl.of_run hok hrun)⟩

/-- Writability is reported while only reading is wanted, which disarms the write class; then
`ngx_wepoll_add_connection` wants it and fails to rearm it. -/
def forgotten : List Act :=
  [.addEvent true true (some 0) .read,
    .processEvents (fun _ => true) (.ok [⟨EPOLLOUT, 0, false, some 0⟩]) false,
    .advance true true, .advance true true, .advance true true, .advance true true,
    .addConnection true false 0]

/-- The interest stays, and the class is neither armed nor pending. -/
theorem edge_adapter_forgets_class :
    ∃ sys, run Sys.step (Sys.start 1 fun _ => idle) forgotten = some sys ∧ sys.frames = [] ∧
      ¬ Kept sys.adapter := by
  obtain ⟨sys, hrun, hsys⟩ := Option.map_eq_some_iff.mp
    (by decide +kernel : (run Sys.step (Sys.start 1 fun _ => idle) forgotten).map
      (fun sys => (sys.frames, sys.adapter.stateIsCurrent 0, sys.adapter.states 0,
        (sys.adapter.connections 0).write.closed)) =
      some ([], true, { ConnectionState.zero with
        connection := some 0, fd := 5, interests := 3, disarmed := 2, registered := true }, false))
  obtain ⟨hframes, hcur, hst, hclosed⟩ : _ ∧ _ ∧ _ ∧ _ := by
    simpa only [Prod.mk.injEq] using hsys
  refine ⟨sys, hrun, hframes, fun hkept => ?_⟩
  have hpending := (hkept.owed 0 0 .write hcur (by rw [hst]) (by rw [hst]; rfl) (by rw [hst]; rfl)
    hclosed).1
  rw [hst] at hpending
  exact absurd hpending (by decide)

end WepollEx.Nginx
