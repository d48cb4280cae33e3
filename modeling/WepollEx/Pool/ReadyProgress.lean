import Mathlib.Algebra.GroupWithZero.Nat
import WepollEx.Pool.ReadyHistory

/-!
# Draining a queue at rest

Once every push has completed, the consumer is alone.  A drain then takes a bounded number of
operations, not counting weak compare-exchanges that fail for no reason, and returns the oldest
nodes, as many as it was asked for.
-/

namespace WepollEx.ReadyQueue

open HalfLinked

variable {α : Type}

namespace ConsumerPc

/-- The local variables of the drain in progress. -/
def drain : ConsumerPc α → Option (Drain α)
  | .idle => none
  | .load d | .loadAfterStub d | .loadHead d | .stubClear d | .stubExchange d | .stubLink d _
  | .reload d | .clear d _ | .account d _ | .compareExchange d _ _ | .append d _ _ => some d

/-- How many nodes the drain in progress may return. -/
def maxevents (pc : ConsumerPc α) : Nat := (pc.drain.map Drain.maxevents).getD 0

/-- The consumer has found the tail without a link. -/
def atHead : ConsumerPc α → Bool
  | .loadHead _ | .stubClear _ | .stubExchange _ => true
  | _ => false

/-- The consumer has linked the stub behind the tail. -/
def relinked : ConsumerPc α → Bool
  | .reload _ => true
  | _ => false

/-- A bound on the operations before a node is taken, or before the next one is looked for. -/
def effort (queued : Nat) : ConsumerPc α → Nat
  | .idle => 0
  | .load _ => 8
  | .loadAfterStub _ => 7
  | .loadHead _ => 6
  | .stubClear _ => 5
  | .stubExchange _ => 4
  | .stubLink _ _ => 3
  | .reload _ => 2
  | .clear _ _ => 13
  | .account _ _ => 12
  | .compareExchange _ _ q => if q = queued then 10 else 11
  | .append _ _ _ => 9

end ConsumerPc

section

variable [DecidableEq α]

namespace State

/-- The nodes in the queue. -/
def remaining (st : State α) : List α := st.chain.filter (· ≠ st.stub)

/-- The nodes that were pushed and not returned yet. -/
def pending (st : State α) : List α := st.held ++ st.remaining

/-- A bound on the operations of the drain in progress. -/
def work (st : State α) : Nat := 16 * st.remaining.length + st.consumer.effort st.queued

end State

/-- The consumer is alone since its drain began. -/
structure Solo (st : State α) : Prop where
  idle : ∀ t, st.producer t = .idle
  room : ∀ d, st.consumer.drain = some d → d.count < d.maxevents
  atHead : st.consumer.atHead = true → st.chain = [st.tail]
  linking : ∀ prev, st.consumer.linking = some prev → prev = st.tail
  relinked : st.consumer.relinked = true → st.next st.tail ≠ none

/-- What an operation of the lone consumer does. -/
structure Advance (spurious : Bool) (st st' : State α) : Prop where
  solo : Solo st'
  pushed : st'.pushed = st.pushed
  outcome : (st'.returned = st.returned ∧ st'.consumer.maxevents = st.consumer.maxevents) ∨
    (st'.consumer = .idle ∧
      st'.returned = st.returned ++ st.pending.take st.consumer.maxevents)
  work : st'.work ≤ st.work ∧ (spurious = false → st'.work < st.work)

variable {st st' : State α} {d : Drain α} {node : α} {spurious : Bool}

/-- Alone, the consumer finds a missing link only at the end. -/
theorem Inv.alone_at_head (h : Inv st) (idle : ∀ t, st.producer t = .idle)
    (linking : st.consumer.linking = none) (hnext : st.next st.tail = none) :
    st.chain = [st.tail] := by
  obtain ⟨ys, hys⟩ := h.first
  have hlinks := h.links
  rw [hys] at hlinks ⊢
  rcases hlinks.of_next_none hnext with ⟨rfl, _⟩ | ⟨b, zs, w, _, hpend⟩
  · rfl
  · exfalso
    cases w with
    | none =>
      have := (h.stubLinking _ _).mp hpend
      rw [linking] at this
      cases this.2
    | some t =>
      have := (h.linking t _ _).mpr hpend
      rw [idle t] at this
      cases this

/-- The drain goes on, with less left to do. -/
theorem Solo.goOn (hs : Solo st) (producer : st'.producer = st.producer)
    (pushed : st'.pushed = st.pushed) (returned : st'.returned = st.returned)
    (remaining : st'.remaining = st.remaining) (drain : st'.consumer.drain = st.consumer.drain)
    (atHead : st'.consumer.atHead = true → st'.chain = [st'.tail])
    (linking : ∀ prev, st'.consumer.linking = some prev → prev = st'.tail)
    (relinked : st'.consumer.relinked = true → st'.next st'.tail ≠ none)
    (effort : st'.consumer.effort st'.queued < st.consumer.effort st.queued) :
    Advance spurious st st' := by
  have hwork : st'.work < st.work := by
    unfold State.work
    rw [remaining]
    exact Nat.add_lt_add_left effort _
  refine
    { solo :=
        { idle := ?_
          room := fun d hd => hs.room d (drain.symm.trans hd)
          atHead := atHead
          linking := linking
          relinked := relinked }
      pushed := pushed
      outcome := .inl ⟨returned, ?_⟩
      work := ⟨Nat.le_of_lt hwork, fun _ => hwork⟩ }
  · rw [producer]
    exact hs.idle
  · unfold ConsumerPc.maxevents
    rw [drain]

/-- A drain that has all the nodes it may return, or all there are. -/
theorem State.pending_take {m : Nat} (room : st.held.length ≤ m)
    (full : st.held.length = m ∨ st.remaining = []) : st.pending.take m = st.held := by
  unfold State.pending
  rcases full with rfl | hnil
  · exact List.take_left ..
  · rw [hnil, List.append_nil]
    exact List.take_of_length_le room

theorem Solo.finish (hs : Solo st) (room : st.held.length ≤ st.consumer.maxevents)
    (full : st.held.length = st.consumer.maxevents ∨ st.remaining = [])
    (busy : 0 < st.consumer.effort st.queued) : Advance spurious st (st.finish d) where
  solo :=
    { idle := hs.idle
      room := fun d hd => by cases hd
      atHead := fun hc => by cases hc
      linking := fun prev hp => by cases hp
      relinked := fun hc => by cases hc }
  pushed := rfl
  outcome := .inr ⟨rfl, by
    show st.returned ++ st.held = _
    rw [State.pending_take room full]⟩
  work := by
    have hlt : (st.finish d).work < st.work := Nat.add_lt_add_left busy _
    exact ⟨Nat.le_of_lt hlt, fun _ => hlt⟩

theorem Solo.take (hs : Solo st) (h : Inv st) {n : α} (hd : st.consumer.drain = some d)
    (real : st.tail ≠ st.stub) (busy : 0 < st.consumer.effort st.queued) :
    Advance spurious st (st.take d n) where
  solo :=
    { idle := hs.idle
      room := fun e he => by
        cases he
        exact hs.room d hd
      atHead := fun hc => by cases hc
      linking := fun prev hp => by cases hp
      relinked := fun hc => by cases hc }
  pushed := rfl
  outcome := .inl ⟨rfl, by
    unfold ConsumerPc.maxevents
    rw [hd]
    rfl⟩
  work := by
    obtain ⟨ys, hys⟩ := h.first
    have hlen : st.remaining.length = (st.take d n).remaining.length + 1 := by
      show (st.chain.filter (· ≠ st.stub)).length =
        (st.chain.tail.filter (· ≠ st.stub)).length + 1
      rw [hys]
      simp [real]
    have hlt : (st.take d n).work < st.work := by
      show 16 * (st.take d n).remaining.length + 13 < _
      unfold State.work
      omega
    exact ⟨Nat.le_of_lt hlt, fun _ => hlt⟩

theorem Solo.takeOrLoadHead (hs : Solo st) (h : Inv st) (hd : st.consumer.drain = some d)
    (linking : st.consumer.linking = none) (real : st.tail ≠ st.stub)
    (effort : 6 < st.consumer.effort st.queued) :
    Advance spurious st (st.takeOrLoadHead d) := by
  unfold State.takeOrLoadHead
  cases hnext : st.next st.tail with
  | some n => exact hs.take h hd real (by omega)
  | none =>
    exact hs.goOn rfl rfl rfl rfl hd.symm (fun _ => h.alone_at_head hs.idle linking hnext)
      nofun nofun effort

/-- The drain has added a node to its list, in a state that differs in nothing that matters here. -/
theorem Solo.again (hs : Solo st) {mid : State α} (producer : mid.producer = st.producer)
    (pushed : mid.pushed = st.pushed) (returned : mid.returned = st.returned)
    (held : mid.held = st.held) (remaining : mid.remaining = st.remaining)
    (count : d.count = st.held.length) (room : d.count ≤ d.maxevents)
    (max : d.maxevents = st.consumer.maxevents)
    (effort : 8 < st.consumer.effort st.queued) : Advance spurious st (mid.again d) := by
  have hidle : ∀ t, mid.producer t = .idle := by
    rw [producer]
    exact hs.idle
  unfold State.again
  split
  case isTrue hlt =>
    have hwork : State.work { mid with consumer := .load d } < st.work := by
      show 16 * mid.remaining.length + 8 < _
      rw [remaining]
      exact Nat.add_lt_add_left effort _
    refine
      { solo :=
          { idle := hidle
            room := fun e he => ?_
            atHead := fun hc => by cases hc
            linking := fun prev hp => by cases hp
            relinked := fun hc => by cases hc }
        pushed := pushed
        outcome := .inl ⟨returned, max⟩
        work := ⟨Nat.le_of_lt hwork, fun _ => hwork⟩ }
    cases he
    exact hlt
  case isFalse hge =>
    have hwork : (mid.finish d).work < st.work := by
      show 16 * mid.remaining.length + 0 < _
      rw [remaining]
      exact Nat.add_lt_add_left (by omega) _
    refine
      { solo :=
          { idle := hidle
            room := fun e he => by cases he
            atHead := fun hc => by cases hc
            linking := fun prev hp => by cases hp
            relinked := fun hc => by cases hc }
        pushed := pushed
        outcome := .inr ⟨rfl, ?_⟩
        work := ⟨Nat.le_of_lt hwork, fun _ => hwork⟩ }
    show mid.returned ++ mid.held = _
    rw [returned, held, State.pending_take (by omega) (.inl (by omega))]

theorem Solo.accept (hs : Solo st) {xs : List α} {queued : Nat}
    (hpc : st.consumer = .compareExchange d node queued) (held : st.held = xs ++ [node])
    (lists : d.Lists st.next xs) :
    Advance spurious st
      ({ st with queued := queued - 1, accounted := st.accounted + 1 }.accept d node) := by
  have hroom : d.count < d.maxevents := hs.room d (by rw [hpc]; rfl)
  have heffort : 9 < st.consumer.effort st.queued := by
    rw [hpc]
    show 9 < if queued = st.queued then 10 else 11
    split <;> omega
  have hmax : st.consumer.maxevents = d.maxevents := by rw [hpc]; rfl
  unfold State.accept
  cases hlast : d.outTail with
  | none =>
    refine hs.again rfl rfl rfl rfl rfl ?_ hroom hmax.symm (by omega)
    rw [held, List.length_append, ← lists.count]
    rfl
  | some last =>
    exact hs.goOn rfl rfl rfl rfl (by rw [hpc]; rfl) nofun nofun nofun heffort

theorem Solo.skipStub (hs : Solo st) (h : Inv st) {n : α} (hpc : st.consumer = .load d)
    (hstub : st.tail = st.stub) :
    Advance spurious st
      { st with tail := n, chain := st.chain.tail, consumer := .loadAfterStub d } := by
  refine hs.goOn rfl rfl rfl ?_ (by rw [hpc]; rfl) nofun nofun nofun
    (by rw [hpc]; simp [ConsumerPc.effort])
  obtain ⟨ys, hys⟩ := h.first
  show st.chain.tail.filter (· ≠ st.stub) = st.chain.filter (· ≠ st.stub)
  rw [hys, hstub]
  simp

theorem Solo.stubExchange (hs : Solo st) (h : Inv st) (hpc : st.consumer = .stubExchange d) :
    Advance spurious st { st.exchangeHead st.stub none with consumer := .stubLink d st.head } := by
  refine hs.goOn rfl rfl rfl ?_ (by rw [hpc]; rfl) nofun (fun prev hp => ?_) nofun
    (by rw [hpc]; simp [ConsumerPc.effort])
  · show (st.chain ++ [st.stub]).filter (· ≠ st.stub) = st.chain.filter (· ≠ st.stub)
    rw [List.filter_append]
    simp
  · cases hp
    have hhead := h.head_mem
    rw [hs.atHead (by rw [hpc]; rfl)] at hhead
    exact List.mem_singleton.mp hhead

theorem Solo.stubLink (hs : Solo st) {prev : α} (hpc : st.consumer = .stubLink d prev) :
    Advance spurious st { st.storeLink prev st.stub with consumer := .reload d } := by
  have hprev : prev = st.tail := hs.linking prev (by rw [hpc]; rfl)
  refine hs.goOn rfl rfl rfl rfl (by rw [hpc]; rfl) nofun nofun (fun _ => ?_)
    (by rw [hpc]; simp [ConsumerPc.effort])
  show Function.update st.next prev (some st.stub) st.tail ≠ none
  rw [hprev, Function.update_self]
  simp

/-- A compare-exchange that failed is repeated with the counter's present value. -/
theorem Solo.retry (hs : Solo st) {queued : Nat}
    (hpc : st.consumer = .compareExchange d node queued)
    (failed : ¬(!spurious ∧ st.queued = queued)) :
    Advance spurious st { st with consumer := .compareExchange d node st.queued } := by
  have heffort : st.work = 16 * st.remaining.length + if queued = st.queued then 10 else 11 := by
    unfold State.work
    rw [hpc]
    rfl
  have hnow : State.work { st with consumer := .compareExchange d node st.queued } =
      16 * st.remaining.length + 10 := by
    show 16 * st.remaining.length + (if st.queued = st.queued then 10 else 11) = _
    rw [if_pos rfl]
  refine
    { solo :=
        { idle := hs.idle
          room := fun e he => hs.room e (by rw [hpc]; exact he)
          atHead := fun hc => by cases hc
          linking := fun prev hp => by cases hp
          relinked := fun hc => by cases hc }
      pushed := rfl
      outcome := .inl ⟨rfl, by rw [hpc]; rfl⟩
      work := ⟨?_, fun hspurious => ?_⟩ }
  · rw [hnow, heffort]
    split <;> omega
  · have hne : ¬queued = st.queued := by
      rintro rfl
      exact failed ⟨by rw [hspurious]; rfl, rfl⟩
    rw [hnow, heffort, if_neg hne]
    omega

/-- Every operation of a lone consumer advances. -/
theorem Solo.advance (hs : Solo st) (h : Inv st) (hstep : st.consumerStep spurious = some st') :
    Advance spurious st st' := by
  unfold State.consumerStep at hstep
  have hlocals := h.locals
  cases hpc : st.consumer with
  | idle =>
    rw [hpc] at hstep
    cases hstep
  | load d =>
    rw [hpc] at hstep hlocals
    have hmax : st.consumer.maxevents = d.maxevents := by rw [hpc]; rfl
    have hlinking : st.consumer.linking = none := by rw [hpc]; rfl
    by_cases hstub : st.tail = st.stub
    · simp only [if_pos hstub] at hstep
      cases hnext : st.next st.tail with
      | none =>
        rw [hnext] at hstep
        cases hstep
        have hroom := hs.room d (by rw [hpc]; rfl)
        have hcount := hlocals.count
        refine hs.finish (by omega) (.inr ?_) (by rw [hpc]; simp [ConsumerPc.effort])
        unfold State.remaining
        rw [h.alone_at_head hs.idle hlinking hnext, hstub]
        simp
      | some n =>
        rw [hnext] at hstep
        cases hstep
        exact hs.skipStub h hpc hstub
    · simp only [if_neg hstub] at hstep
      cases hstep
      exact hs.takeOrLoadHead h (by rw [hpc]; rfl) hlinking hstub (by rw [hpc]; simp [ConsumerPc.effort])
  | loadAfterStub d =>
    rw [hpc] at hstep
    cases hstep
    exact hs.takeOrLoadHead h (by rw [hpc]; rfl) (by rw [hpc]; rfl) (h.realTail (by rw [hpc]; rfl))
      (by rw [hpc]; simp [ConsumerPc.effort])
  | loadHead d =>
    rw [hpc] at hstep
    have hchain : st.chain = [st.tail] := hs.atHead (by rw [hpc]; rfl)
    have hhead : st.tail = st.head := by
      have := h.head_mem
      rw [hchain] at this
      exact (List.mem_singleton.mp this).symm
    simp only [if_neg (not_not_intro hhead)] at hstep
    cases hstep
    exact hs.goOn rfl rfl rfl rfl (by rw [hpc]; rfl) (fun _ => hchain) nofun nofun
      (by rw [hpc]; simp [ConsumerPc.effort])
  | stubClear d =>
    rw [hpc] at hstep
    cases hstep
    exact hs.goOn rfl rfl rfl rfl (by rw [hpc]; rfl) (fun _ => hs.atHead (by rw [hpc]; rfl)) nofun
      nofun (by rw [hpc]; simp [ConsumerPc.effort])
  | stubExchange d =>
    rw [hpc] at hstep
    cases hstep
    exact hs.stubExchange h hpc
  | stubLink d prev =>
    rw [hpc] at hstep
    cases hstep
    exact hs.stubLink hpc
  | reload d =>
    rw [hpc] at hstep
    cases hnext : st.next st.tail with
    | none => exact absurd hnext (hs.relinked (by rw [hpc]; rfl))
    | some n =>
      rw [hnext] at hstep
      cases hstep
      exact hs.take h (by rw [hpc]; rfl) (h.realTail (by rw [hpc]; rfl)) (by rw [hpc]; simp [ConsumerPc.effort])
  | clear d node =>
    rw [hpc] at hstep
    cases hstep
    exact hs.goOn rfl rfl rfl rfl (by rw [hpc]; rfl) nofun nofun nofun
      (by rw [hpc]; simp [ConsumerPc.effort])
  | account d node =>
    rw [hpc] at hstep
    have hpos : 0 < st.queued := h.queued_pos (by rw [hpc]; rfl)
    simp only [if_pos hpos] at hstep
    cases hstep
    exact hs.goOn rfl rfl rfl rfl (by rw [hpc]; rfl) nofun nofun nofun
      (by rw [hpc]; simp [ConsumerPc.effort])
  | compareExchange d node queued =>
    rw [hpc] at hstep hlocals
    have hpos : 0 < st.queued := h.queued_pos (by rw [hpc]; rfl)
    by_cases heq : !spurious ∧ st.queued = queued
    · simp only [if_pos heq] at hstep
      cases hstep
      obtain ⟨xs, hxs, hlists, _⟩ := hlocals
      exact hs.accept hpc hxs hlists
    · simp only [if_neg heq, if_pos hpos] at hstep
      cases hstep
      exact hs.retry hpc heq
  | append d node last =>
    rw [hpc] at hstep hlocals
    cases hstep
    obtain ⟨xs, hxs, hlists, _⟩ := hlocals
    refine hs.again rfl rfl rfl rfl rfl ?_ (hs.room d (by rw [hpc]; rfl)) (by rw [hpc]; rfl)
      (by rw [hpc]; simp [ConsumerPc.effort])
    rw [hxs, List.length_append, ← hlists.count]
    rfl

/-- What is pending is what was pushed and not returned. -/
theorem Inv.returned_pending (h : Inv st) : st.returned ++ st.pending = st.pushed.map Prod.snd := by
  rw [h.fifo, List.append_assoc]
  rfl

/-- An operation of the consumer. -/
def Act.byConsumer : Act α → Bool
  | .drain _ | .consumer _ => true
  | _ => false

/-- How many nodes a call asks for. -/
def Act.budget : Act α → Nat
  | .drain maxevents => maxevents
  | _ => 0

theorem Solo.drain (hs : Solo st) {maxevents : Nat} (hstep : st.drain maxevents = some st') :
    Solo st' ∧ st.consumer = .idle ∧ st'.consumer.maxevents = maxevents ∧
      st'.returned = st.returned ∧ st'.pending = st.pending := by
  unfold State.drain at hstep
  split at hstep
  case isFalse => cases hstep
  rename_i hguard
  cases hstep
  refine ⟨?_, hguard.1, rfl, rfl, rfl⟩
  exact
    { idle := hs.idle
      room := fun d hd => by
        cases hd
        exact hguard.2
      atHead := nofun
      linking := nofun
      relinked := nofun }

/-- Drains of a lone consumer return the oldest nodes, as many as they ask for together. -/
theorem Solo.run_returned {acts : List (Act α)} (h : Inv st) (hs : Solo st)
    (own : ∀ a ∈ acts, a.byConsumer = true) (hrun : Transition.run step st acts = some st')
    (hidle : st'.consumer = .idle) :
    st'.returned = st.returned ++
      st.pending.take (st.consumer.maxevents + (acts.map Act.budget).sum) := by
  induction acts generalizing st with
  | nil =>
    cases hrun
    rw [hidle]
    simp [ConsumerPc.maxevents, ConsumerPc.drain]
  | cons a acts ih =>
    obtain ⟨mid, hmid, hrest⟩ := Transition.run_cons hrun
    have hinv : Inv mid := h.step hmid
    have hown : ∀ b ∈ acts, b.byConsumer = true := fun b hb => own b (List.mem_cons_of_mem _ hb)
    rw [List.map_cons, List.sum_cons]
    cases a with
    | push t node => cases own _ List.mem_cons_self
    | producer t => cases own _ List.mem_cons_self
    | drain maxevents =>
      obtain ⟨hsolo, hstart, hmax, hreturned, hpending⟩ := hs.drain hmid
      rw [ih hinv hsolo hown hrest, hreturned, hpending, hmax, hstart]
      simp [ConsumerPc.maxevents, ConsumerPc.drain, Act.budget]
    | consumer spurious =>
      have hadvance := hs.advance h hmid
      have hkept : mid.returned ++ mid.pending = st.returned ++ st.pending := by
        rw [hinv.returned_pending, hadvance.pushed, h.returned_pending]
      rw [ih hinv hadvance.solo hown hrest]
      rcases hadvance.outcome with ⟨hreturned, hmax⟩ | ⟨hdone, hreturned⟩
      · rw [hreturned] at hkept
        rw [hreturned, hmax, List.append_cancel_left hkept]
        simp [Act.budget]
      · -- the call has returned: the rest is what is left of the pending nodes
        have hdrop : mid.pending = st.pending.drop st.consumer.maxevents := by
          rw [hreturned, List.append_assoc] at hkept
          have hcancel := List.append_cancel_left hkept
          nth_rewrite 2 [← List.take_append_drop st.consumer.maxevents st.pending] at hcancel
          exact List.append_cancel_left hcancel
        rw [hreturned, hdrop, hdone, List.append_assoc, ← List.take_add]
        simp [ConsumerPc.maxevents, ConsumerPc.drain, Act.budget]

/-- A lone consumer comes to the end of its drain: its work bounds the operations that are not
compare-exchanges failing for no reason. -/
theorem Solo.run_work {flags : List Bool} (h : Inv st) (hs : Solo st)
    (hrun : Transition.run step st (flags.map .consumer) = some st') :
    st'.work + flags.count false ≤ st.work := by
  induction flags generalizing st with
  | nil =>
    cases hrun
    simp
  | cons spurious flags ih =>
    obtain ⟨mid, hmid, hrest⟩ := Transition.run_cons hrun
    have hadvance := hs.advance h hmid
    have hle := ih (h.step hmid) hadvance.solo hrest
    obtain ⟨hwork, hlt⟩ := hadvance.work
    cases spurious with
    | true =>
      rw [List.count_cons_of_ne (by simp)]
      omega
    | false =>
      have := hlt rfl
      rw [List.count_cons_self]
      omega

/-- A drain in progress is never stuck. -/
theorem consumerStep_isSome (st : State α) (busy : st.consumer ≠ .idle) (spurious : Bool) :
    (st.consumerStep spurious).isSome := by
  unfold State.consumerStep
  cases hpc : st.consumer with
  | idle => exact absurd hpc busy
  | load d =>
    show Option.isSome (if st.tail = st.stub then _ else _) = true
    split
    · cases st.next st.tail <;> rfl
    · rfl
  | loadHead d =>
    show Option.isSome (if st.tail ≠ st.head then _ else _) = true
    split <;> rfl
  | reload d =>
    cases st.next st.tail <;> rfl
  | account d node =>
    show Option.isSome (if 0 < st.queued then _ else _) = true
    split <;> rfl
  | compareExchange d node queued =>
    show Option.isSome (if !spurious ∧ st.queued = queued then _ else _) = true
    split
    · rfl
    · split <;> rfl
  | _ => rfl

end

end WepollEx.ReadyQueue
