import Mathlib.Data.List.Nodup
import WepollEx.Pool.ReadyProgress

/-!
# The ready queue is correct

Every push is returned at most once and in the order of the exchanges, a node that is with the
caller is written by nobody, and once all pushes have completed draining returns every node.
-/

namespace WepollEx.ReadyQueue

open HalfLinked

variable {α : Type} [DecidableEq α]

/-- What an operation of the consumer does to the nodes outside the queue. -/
structure Effect (st st' : State α) : Prop where
  /-- A node that is with the caller stays there and is not written. -/
  keeps : ∀ n, st.owner n = .caller → st'.owner n = .caller ∧ st'.next n = st.next n
  /-- A drain returns the list of the nodes it has taken, and hands them to the caller. -/
  delivers : st'.consumer = .idle → ∃ xs, st'.returned = st.returned ++ xs ∧
    st'.result = xs.head? ∧ Linked st'.next xs ∧ ∀ n ∈ xs, st'.owner n = .caller

variable {st st' : State α} {d : Drain α} {node : α} {spurious : Bool}

omit [DecidableEq α] in
/-- The consumer goes on and writes at most to a node that is not with the caller. -/
theorem Effect.busy (owner : ∀ n, st.owner n = .caller → st'.owner n = .caller)
    (next : ∀ n, st.owner n = .caller → st'.next n = st.next n) (busy : st'.consumer ≠ .idle) :
    Effect st st' :=
  ⟨fun n hn => ⟨owner n hn, next n hn⟩, fun hidle => absurd hidle busy⟩

theorem Effect.finish {mid : State α} (owner : mid.owner = st.owner)
    (returned : mid.returned = st.returned)
    (next : ∀ n, st.owner n = .caller → mid.next n = st.next n)
    (lists : d.Lists mid.next mid.held) : Effect st (mid.finish d) where
  keeps := by
    intro n hn
    refine ⟨?_, next n hn⟩
    show (if n ∈ mid.held then Owner.caller else mid.owner n) = .caller
    rw [owner, hn]
    exact ite_self _
  delivers := by
    intro _
    refine ⟨mid.held, ?_, lists.head, lists.linked, fun n hn => if_pos hn⟩
    show mid.returned ++ mid.held = _
    rw [returned]

theorem Effect.again {mid : State α} (owner : mid.owner = st.owner)
    (returned : mid.returned = st.returned)
    (next : ∀ n, st.owner n = .caller → mid.next n = st.next n)
    (lists : d.Lists mid.next mid.held) : Effect st (mid.again d) := by
  unfold State.again
  split
  · exact .busy (fun n hn => (congrFun owner n).trans hn) next (by simp)
  · exact .finish owner returned next lists

/-- A node of the queue, of the consumer, or the stub is not with the caller. -/
theorem Inv.ne_of_caller (h : Inv st) {n m : α} (hn : st.owner n = .caller)
    (hm : m ∈ st.chain ∨ m ∈ st.held ∨ m = st.stub) : n ≠ m := by
  rintro rfl
  rcases hm with hchain | hheld | rfl
  · exact h.outside hn (by simp) (by simp) hchain
  · exact h.not_held hn (by simp) hheld
  · exact h.ne_stub hn (by simp) rfl

theorem Inv.take_effect (h : Inv st) {n : α} : Effect st (st.take d n) := by
  refine .busy (fun m hm => ?_) (fun _ _ => rfl) (by simp [State.take])
  exact (Function.update_of_ne (h.ne_of_caller hm (.inl h.tail_mem)) ..).trans hm

theorem Inv.takeOrLoadHead_effect (h : Inv st) : Effect st (st.takeOrLoadHead d) := by
  unfold State.takeOrLoadHead
  cases st.next st.tail with
  | some n => exact h.take_effect
  | none => exact .busy (fun _ hm => hm) (fun _ _ => rfl) (by simp)

/-- The consumer writes to one node only, and that is not with the caller. -/
theorem Inv.store_next (h : Inv st) {m : α} (hm : m ∈ st.chain ∨ m ∈ st.held ∨ m = st.stub)
    (v : Option α) (n : α) (hn : st.owner n = .caller) :
    Function.update st.next m v n = st.next n :=
  Function.update_of_ne (h.ne_of_caller hn hm) ..

theorem Inv.consumer_effect (h : Inv st) (hstep : st.consumerStep spurious = some st') :
    Effect st st' := by
  unfold State.consumerStep at hstep
  have hlocals := h.locals
  cases hpc : st.consumer with
  | idle =>
    rw [hpc] at hstep
    cases hstep
  | load d =>
    rw [hpc] at hstep hlocals
    by_cases hstub : st.tail = st.stub
    · simp only [if_pos hstub] at hstep
      cases hnext : st.next st.tail with
      | none =>
        rw [hnext] at hstep
        cases hstep
        exact .finish rfl rfl (fun _ _ => rfl) hlocals
      | some n =>
        rw [hnext] at hstep
        cases hstep
        exact .busy (fun _ hm => hm) (fun _ _ => rfl) (by simp)
    · simp only [if_neg hstub] at hstep
      cases hstep
      exact h.takeOrLoadHead_effect
  | loadAfterStub d =>
    rw [hpc] at hstep
    cases hstep
    exact h.takeOrLoadHead_effect
  | loadHead d =>
    rw [hpc] at hstep hlocals
    by_cases hhead : st.tail = st.head
    · simp only [if_neg (not_not_intro hhead)] at hstep
      cases hstep
      exact .busy (fun _ hm => hm) (fun _ _ => rfl) (by simp)
    · simp only [if_pos hhead] at hstep
      cases hstep
      exact .finish rfl rfl (fun _ _ => rfl) hlocals
  | stubClear d =>
    rw [hpc] at hstep
    cases hstep
    exact .busy (fun _ hm => hm) (h.store_next (.inr (.inr rfl)) none) (by simp)
  | stubExchange d =>
    rw [hpc] at hstep
    cases hstep
    exact .busy (fun _ hm => hm) (fun _ _ => rfl) (by simp)
  | stubLink d prev =>
    rw [hpc] at hstep
    cases hstep
    have hp : st.pend prev = some (st.stub, none) :=
      (h.stubLinking prev st.stub).mpr ⟨rfl, by rw [hpc]; rfl⟩
    have hmem : prev ∈ st.chain := h.pendIn prev (by rw [hp]; simp)
    exact .busy (fun _ hm => hm) (h.store_next (.inl hmem) (some st.stub)) (by simp)
  | reload d =>
    rw [hpc] at hstep hlocals
    cases hnext : st.next st.tail with
    | none =>
      rw [hnext] at hstep
      cases hstep
      exact .finish rfl rfl (fun _ _ => rfl) hlocals
    | some n =>
      rw [hnext] at hstep
      cases hstep
      exact h.take_effect
  | clear d node =>
    rw [hpc] at hstep hlocals
    cases hstep
    obtain ⟨xs, hxs, _⟩ := hlocals
    have hmem : node ∈ st.held := by
      rw [hxs]
      simp
    exact .busy (fun _ hm => hm) (h.store_next (.inr (.inl hmem)) none) (by simp)
  | account d node =>
    rw [hpc] at hstep
    have hpos : 0 < st.queued := h.queued_pos (by rw [hpc]; rfl)
    simp only [if_pos hpos] at hstep
    cases hstep
    exact .busy (fun _ hm => hm) (fun _ _ => rfl) (by simp)
  | compareExchange d node queued =>
    rw [hpc] at hstep hlocals
    have hpos : 0 < st.queued := h.queued_pos (by rw [hpc]; rfl)
    by_cases heq : !spurious ∧ st.queued = queued
    · simp only [if_pos heq] at hstep
      cases hstep
      obtain ⟨xs, hxs, hlists, hclear⟩ := hlocals
      unfold State.accept
      cases hlast : d.outTail with
      | none =>
        refine .again rfl rfl (fun _ _ => rfl) ?_
        show Drain.Lists _ st.next st.held
        rw [hxs]
        exact hlists.first hlast hclear
      | some last => exact .busy (fun _ hm => hm) (fun _ _ => rfl) (by simp)
    · simp only [if_neg heq, if_pos hpos] at hstep
      cases hstep
      exact .busy (fun _ hm => hm) (fun _ _ => rfl) (by simp)
  | append d node last =>
    rw [hpc] at hstep hlocals
    cases hstep
    obtain ⟨xs, hxs, hlists, hclear, hlast⟩ := hlocals
    have hmem : last ∈ st.held := by
      rw [hxs]
      refine List.mem_append_left _ (List.mem_of_getLast? ?_)
      exact hlists.last.symm.trans hlast
    refine .again rfl rfl (h.store_next (.inr (.inl hmem)) (some node)) ?_
    have hnodup := h.heldNodup
    show Drain.Lists _ (Function.update st.next last (some node)) st.held
    rw [hxs] at hnodup ⊢
    exact hlists.append hlast hclear hnodup

/-- Until it is pushed again a node that is with the caller stays there, and nobody writes to it. -/
theorem Inv.untouched (h : Inv st) {a : Act α} (hstep : ReadyQueue.step st a = some st') {n : α}
    (hn : st.owner n = .caller) :
    (∃ t, a = .push t n) ∨ (st'.owner n = .caller ∧ st'.next n = st.next n) := by
  cases a with
  | push t node =>
    replace hstep : st.push t node = some st' := hstep
    unfold State.push at hstep
    split at hstep
    case isFalse => cases hstep
    cases hstep
    by_cases hnode : n = node
    · subst hnode
      exact .inl ⟨t, rfl⟩
    · exact .inr ⟨(Function.update_of_ne hnode ..).trans hn, rfl⟩
  | drain maxevents =>
    replace hstep : st.drain maxevents = some st' := hstep
    unfold State.drain at hstep
    split at hstep
    case isFalse => cases hstep
    cases hstep
    exact .inr ⟨hn, rfl⟩
  | consumer spurious => exact .inr ((h.consumer_effect hstep).keeps n hn)
  | producer t =>
    replace hstep : st.producerStep t = some st' := hstep
    unfold State.producerStep at hstep
    have hne : ∀ node, (st.producer t).holds = some node → n ≠ node := by
      rintro node hnode rfl
      have := hn.symm.trans (h.holds t n hnode)
      cases this
    cases hpc : st.producer t with
    | idle =>
      rw [hpc] at hstep
      cases hstep
    | clear node =>
      rw [hpc] at hstep
      cases hstep
      exact .inr ⟨hn, Function.update_of_ne (hne node (by rw [hpc]; rfl)) ..⟩
    | count node =>
      rw [hpc] at hstep
      cases hstep
      exact .inr ⟨hn, rfl⟩
    | exchange node =>
      rw [hpc] at hstep
      cases hstep
      exact .inr ⟨(Function.update_of_ne (hne node (by rw [hpc]; rfl)) ..).trans hn, rfl⟩
    | link prev node =>
      rw [hpc] at hstep
      cases hstep
      have hp : st.pend prev = some (node, some t) := (h.linking t prev node).mp hpc
      have hmem : prev ∈ st.chain := h.pendIn prev (by rw [hp]; simp)
      exact .inr ⟨hn, h.store_next (.inl hmem) (some node) n hn⟩

/-- The returned pushes of a producer are the first ones it made, in its order. -/
theorem Inv.returned_prefix (h : Inv st) (t : Tid) :
    ((st.pushed.take st.returned.length).filter fun p => p.1 = t).map Prod.snd <+: st.begun t := by
  rw [h.program t]
  refine List.IsPrefix.trans ?_ (List.prefix_append ..)
  exact ((List.take_prefix ..).filter _).map _

/-- What a state of the queue has to satisfy. -/
structure Correct (st : State α) : Prop where
  /-- The nodes come out in the order of their exchanges, each push at most once. -/
  order : st.returned ++ st.pending = st.pushed.map Prod.snd
  program : ∀ t,
    ((st.pushed.take st.returned.length).filter fun p => p.1 = t).map Prod.snd <+: st.begun t
  /-- A drain returns the list of the nodes it has taken, and hands them to the caller. -/
  delivers : ∀ spurious st', st.consumerStep spurious = some st' → st'.consumer = .idle →
    ∃ xs, st'.returned = st.returned ++ xs ∧ st'.result = xs.head? ∧ Linked st'.next xs ∧
      ∀ n ∈ xs, st'.owner n = .caller
  untouched : ∀ a st' n, step st a = some st' → st.owner n = .caller →
    (∃ t, a = .push t n) ∨ (st'.owner n = .caller ∧ st'.next n = st.next n)
  /-- From the tail to the head the queue is a chain whose missing links are about to be stored. -/
  chain : (∃ xs, st.chain = st.tail :: xs) ∧ (∃ xs, st.chain = xs ++ [st.head]) ∧
    Links st.next st.pend st.chain
  stub : st.chain.count st.stub ≤ 1
  counter : st.queued + st.accounted = st.counted
  pops : st.accounted + st.consumer.owes = (st.returned ++ st.held).length
  /-- A pop is counted only while the counter is positive. -/
  positive : st.consumer.owes = 1 → 0 < st.queued
  running : st.consumer ≠ .idle → ∀ spurious, (st.consumerStep spurious).isSome
  /-- Once all pushes have completed, drains return the oldest nodes, as many as they ask for. -/
  drains : (∀ t, st.producer t = .idle) → st.consumer = .idle → ∀ acts st',
    (∀ a ∈ acts, a.byConsumer = true) → Transition.run step st acts = some st' →
    st'.consumer = .idle →
    st'.returned =
      (st.pushed.map Prod.snd).take (st.returned.length + (acts.map Act.budget).sum)
  /-- And each of them ends. -/
  ends : (∀ t, st.producer t = .idle) → st.consumer = .idle → ∀ maxevents (flags : List Bool) st',
    Transition.run step st (.drain maxevents :: flags.map .consumer) = some st' →
    flags.count false ≤ 16 * st.pending.length + 8

omit [DecidableEq α] in
theorem Solo.of_idle (producers : ∀ t, st.producer t = .idle) (idle : st.consumer = .idle) :
    Solo st where
  idle := producers
  room := by
    rw [idle]
    nofun
  atHead := by
    rw [idle]
    nofun
  linking := by
    rw [idle]
    nofun
  relinked := by
    rw [idle]
    nofun

theorem Inv.drains_all (h : Inv st) (producers : ∀ t, st.producer t = .idle)
    (idle : st.consumer = .idle) {acts : List (Act α)} (own : ∀ a ∈ acts, a.byConsumer = true)
    (hrun : Transition.run ReadyQueue.step st acts = some st')
    (hidle : st'.consumer = .idle) :
    st'.returned =
      (st.pushed.map Prod.snd).take (st.returned.length + (acts.map Act.budget).sum) := by
  have hreturned := (Solo.of_idle producers idle).run_returned h own hrun hidle
  rw [hreturned, ← h.returned_pending, List.take_length_add_append, idle]
  simp [ConsumerPc.maxevents, ConsumerPc.drain]

theorem Inv.drain_ends (h : Inv st) (producers : ∀ t, st.producer t = .idle)
    (idle : st.consumer = .idle) {maxevents : Nat} {flags : List Bool}
    (hrun : Transition.run ReadyQueue.step st (.drain maxevents :: flags.map .consumer) =
      some st') : flags.count false ≤ 16 * st.pending.length + 8 := by
  obtain ⟨mid, hmid, hrest⟩ := Transition.run_cons hrun
  have hsolo := (Solo.of_idle producers idle).drain hmid
  have hwork := hsolo.1.run_work (h.step hmid) hrest
  have hmidWork : mid.work = 16 * st.remaining.length + 8 := by
    replace hmid : st.drain maxevents = some mid := hmid
    unfold State.drain at hmid
    split at hmid
    case isFalse => cases hmid
    cases hmid
    rfl
  have hle : st.remaining.length ≤ st.pending.length := by
    unfold State.pending
    rw [List.length_append]
    omega
  omega

/-- Under every interleaving of the operations of any number of producers and one consumer, the
ready queue loses, repeats and reorders nothing. -/
theorem ready_queue_correct (stub : α) (h : Transition.Reach step (init stub) st) :
    Correct st := by
  have hinv := inv_reach h
  exact
    { order := hinv.returned_pending
      program := hinv.returned_prefix
      delivers := fun _ _ hstep => (hinv.consumer_effect hstep).delivers
      untouched := fun _ _ _ hstep => hinv.untouched hstep
      chain := ⟨hinv.first, hinv.last, hinv.links⟩
      stub := List.nodup_iff_count.mp hinv.nodup _
      counter := hinv.counts.counter
      pops := by
        rw [List.length_append]
        exact hinv.counts.accounted
      positive := hinv.queued_pos
      running := consumerStep_isSome st
      drains := fun hp hc _ _ => hinv.drains_all hp hc
      ends := fun hp hc _ _ _ => hinv.drain_ends hp hc }

/-- A drain that meets a missing link returns nothing; the next one returns both nodes. -/
def overtakenPush : List (Act Nat) :=
  [.push 1 5, .producer 1, .producer 1, .producer 1, .push 2 6, .producer 2, .producer 2,
    .producer 2, .producer 2, .drain 10, .consumer false, .producer 1, .drain 10] ++
    List.replicate 16 (.consumer false)

theorem ready_queue_correct_overtakenPush :
    ∃ st : State Nat, Transition.run step (init 0) overtakenPush = some st ∧
      st.returned = [5, 6] ∧ Correct st := by
  have h : ((Transition.run step (init 0) overtakenPush).map State.returned) = some [5, 6] := by
    decide +kernel
  obtain ⟨st, hrun, hreturned⟩ := Option.map_eq_some_iff.mp h
  exact ⟨st, hrun, hreturned, ready_queue_correct 0 (Transition.Reach.refl.of_run hrun)⟩

end WepollEx.ReadyQueue
