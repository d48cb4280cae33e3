import WepollEx.Pool.ReadyShape

/-!
# What was pushed, taken and counted

Besides the shape of its chain the queue keeps three facts: the list the consumer is building is
linked (`Local`), the nodes come out in the order in which they were exchanged in (`History`), and
the counter is the number of counted pushes less the counted pops (`Counts`).
-/

namespace WepollEx.ReadyQueue

open HalfLinked

variable {α : Type}

/-- The nodes `xs` are linked one after the other, and the last link is null. -/
def Linked (next : α → Option α) (xs : List α) : Prop :=
  Links next (fun _ => (none : Option (α × Unit))) xs

/-- The local variables of a drain that has taken the nodes `xs`. -/
structure Drain.Lists (d : Drain α) (next : α → Option α) (xs : List α) : Prop where
  head : d.outHead = xs.head?
  last : d.outTail = xs.getLast?
  count : d.count = xs.length
  linked : Linked next xs

/-- What the consumer knows of the nodes it has taken. -/
def ConsumerPc.Local (next : α → Option α) (held : List α) : ConsumerPc α → Prop
  | .idle => held = []
  | .load d | .loadAfterStub d | .loadHead d | .stubClear d | .stubExchange d | .stubLink d _
  | .reload d => d.Lists next held
  | .clear d node => ∃ xs, held = xs ++ [node] ∧ d.Lists next xs
  | .account d node | .compareExchange d node _ =>
    ∃ xs, held = xs ++ [node] ∧ d.Lists next xs ∧ next node = none
  | .append d node last =>
    ∃ xs, held = xs ++ [node] ∧ d.Lists next xs ∧ next node = none ∧ d.outTail = some last

/-- The pop that the consumer still has to count. -/
def ConsumerPc.owes : ConsumerPc α → Nat
  | .clear _ _ | .account _ _ | .compareExchange _ _ _ => 1
  | _ => 0

def ProducerPc.counted : ProducerPc α → Bool
  | .exchange _ => true
  | _ => false

structure History [DecidableEq α] (st : State α) : Prop where
  fifo : st.pushed.map Prod.snd = st.returned ++ st.held ++ st.chain.filter (· ≠ st.stub)
  program : ∀ t, st.begun t =
    (st.pushed.filter fun p => p.1 = t).map Prod.snd ++ (st.producer t).holds.toList

structure Counts (st : State α) : Prop where
  counted : st.counted = st.pushed.length + st.counting.length
  counting : ∀ t, t ∈ st.counting ↔ (st.producer t).counted = true
  nodup : st.counting.Nodup
  counter : st.queued + st.accounted = st.counted
  accounted : st.accounted + st.consumer.owes = st.returned.length + st.held.length

/-- The invariant of the queue. -/
structure Inv [DecidableEq α] (st : State α) : Prop extends Shape st, History st where
  locals : st.consumer.Local st.next st.held
  heldNodup : st.held.Nodup
  counts : Counts st

section

variable {next next' : α → Option α} {xs held : List α} {d : Drain α} {node : α}

theorem Drain.Lists.congr (h : d.Lists next xs) (same : ∀ n ∈ xs, next' n = next n) :
    d.Lists next' xs :=
  ⟨h.head, h.last, h.count, h.linked.congr same fun _ _ => rfl⟩

theorem ConsumerPc.Local.congr {pc : ConsumerPc α} (h : pc.Local next held)
    (same : ∀ n ∈ held, next' n = next n) : pc.Local next' held := by
  cases pc with
  | idle => exact h
  | clear d node =>
    obtain ⟨xs, rfl, hd⟩ := h
    exact ⟨xs, rfl, hd.congr fun n hn => same n (List.mem_append_left _ hn)⟩
  | account d node =>
    obtain ⟨xs, rfl, hd, hn⟩ := h
    exact ⟨xs, rfl, hd.congr fun n hn => same n (List.mem_append_left _ hn),
      (same node (by simp)).trans hn⟩
  | compareExchange d node queued =>
    obtain ⟨xs, rfl, hd, hn⟩ := h
    exact ⟨xs, rfl, hd.congr fun n hn => same n (List.mem_append_left _ hn),
      (same node (by simp)).trans hn⟩
  | append d node last =>
    obtain ⟨xs, rfl, hd, hn, hl⟩ := h
    exact ⟨xs, rfl, hd.congr fun n hn => same n (List.mem_append_left _ hn),
      (same node (by simp)).trans hn, hl⟩
  | load d => exact Drain.Lists.congr h same
  | loadAfterStub d => exact Drain.Lists.congr h same
  | loadHead d => exact Drain.Lists.congr h same
  | stubClear d => exact Drain.Lists.congr h same
  | stubExchange d => exact Drain.Lists.congr h same
  | stubLink d prev => exact Drain.Lists.congr h same
  | reload d => exact Drain.Lists.congr h same

/-- A first node is added to the drain's list. -/
theorem Drain.Lists.first (h : d.Lists next xs) (empty : d.outTail = none)
    (cleared : next node = none) :
    Drain.Lists { d with outHead := some node, outTail := some node, count := d.count + 1 } next
      (xs ++ [node]) := by
  have hnil : xs = [] := by
    have := h.last.symm.trans empty
    exact List.getLast?_eq_none_iff.mp this
  subst hnil
  exact ⟨rfl, rfl, by simp [h.count], cleared, rfl⟩

/-- A further node is linked to the last one. -/
theorem Drain.Lists.append [DecidableEq α] {last : α} (h : d.Lists next xs)
    (tail : d.outTail = some last) (cleared : next node = none) (nodup : (xs ++ [node]).Nodup) :
    Drain.Lists { d with outTail := some node, count := d.count + 1 }
      (Function.update next last (some node)) (xs ++ [node]) := by
  have hlast := h.last.symm.trans tail
  obtain ⟨ys, rfl⟩ := List.getLast?_eq_some_iff.mp hlast
  have hnode : node ∉ ys ++ [last] := by
    intro hmem
    exact (List.nodup_append.mp nodup).2.2 node hmem node (by simp) rfl
  refine ⟨?_, by simp, by simp [h.count], ?_⟩
  · rw [h.head]
    cases ys <;> simp
  · -- the exchange and the store of the link, both by the consumer
    have hnodup : (ys ++ [last]).Nodup := (List.nodup_append.mp nodup).1
    have hlinked : Links next (fun _ => (none : Option (α × Unit))) (ys ++ [last]) := h.linked
    have hexchange := hlinked.exchange hnodup hnode cleared rfl ()
    have hstore := hexchange.store nodup (a := last) (by simp) (Function.update_self ..)
    refine Links.congr hstore (fun _ _ => rfl) fun n _ => ?_
    by_cases hn : n = last
    · subst hn
      rw [Function.update_self]
    · rw [Function.update_of_ne hn, Function.update_of_ne hn]

end

section

variable [DecidableEq α] {st st' : State α} {t : Tid} {node : α}

theorem inv_init (stub : α) : Inv (init stub) where
  toShape := shape_init stub
  fifo := by simp [init]
  program := fun _ => rfl
  locals := rfl
  heldNodup := List.nodup_nil
  counts :=
    { counted := rfl
      counting := fun t => by simp [init, ProducerPc.counted]
      nodup := List.nodup_nil
      counter := rfl
      accounted := rfl }

namespace Inv

/-- A node that somebody else owns was not taken. -/
theorem not_held (h : Inv st) {o : Owner} (howner : st.owner node = o) (ho : o ≠ .consumer) :
    node ∉ st.held := by
  intro hmem
  exact ho (howner.symm.trans (h.heldOwner node hmem))

/-- A node of the chain was not taken. -/
theorem chain_not_held (h : Inv st) (hmem : node ∈ st.chain) : node ∉ st.held := by
  rcases h.inQueue node hmem with rfl | hq
  · exact h.not_held h.stubOwner (by simp)
  · exact h.not_held hq (by simp)

/-- What the consumer knows is not affected by a write to a node it has not taken. -/
theorem locals_store (h : Inv st) (hnode : node ∉ st.held) (v : Option α) :
    st.consumer.Local (Function.update st.next node v) st.held := by
  refine h.locals.congr fun n hn => Function.update_of_ne ?_ ..
  rintro rfl
  exact hnode hn

theorem push (h : Inv st) (hstep : st.push t node = some st') : Inv st' := by
  have hshape := h.toShape.push hstep
  unfold State.push at hstep
  split at hstep
  case isFalse => cases hstep
  rename_i hguard
  obtain ⟨hidle, _⟩ := hguard
  cases hstep
  refine
    { toShape := hshape
      fifo := h.fifo
      program := fun u => ?_
      locals := h.locals
      heldNodup := h.heldNodup
      counts := { h.counts with counting := fun u => ?_ } }
  · show Function.update st.begun t (st.begun t ++ [node]) u =
      (st.pushed.filter fun p => p.1 = u).map Prod.snd ++
        (Function.update st.producer t (.clear node) u).holds.toList
    by_cases hu : u = t
    · subst hu
      have := h.program u
      rw [hidle] at this
      rw [Function.update_self, Function.update_self, this]
      simp [ProducerPc.holds]
    · rw [Function.update_of_ne hu, Function.update_of_ne hu]
      exact h.program u
  · refine (h.counts.counting u).trans ?_
    show _ ↔ (Function.update st.producer t _ u).counted = true
    by_cases hu : u = t
    · subst hu
      rw [Function.update_self, hidle]
      simp [ProducerPc.counted]
    · rw [Function.update_of_ne hu]

/-- The history of a producer that moves on with the same node. -/
theorem program_setProducer (h : Inv st) {pc : ProducerPc α}
    (holds : pc.holds = (st.producer t).holds) (u : Tid) :
    st.begun u = (st.pushed.filter fun p => p.1 = u).map Prod.snd ++
      (Function.update st.producer t pc u).holds.toList := by
  by_cases hu : u = t
  · subst hu
    rw [Function.update_self, holds]
    exact h.program u
  · rw [Function.update_of_ne hu]
    exact h.program u

theorem counting_setProducer (h : Inv st) {pc : ProducerPc α} (counted : pc.counted = false)
    (before : (st.producer t).counted = false) (u : Tid) :
    u ∈ st.counting ↔ (Function.update st.producer t pc u).counted = true := by
  refine (h.counts.counting u).trans ?_
  by_cases hu : u = t
  · subst hu
    rw [Function.update_self, before, counted]
  · rw [Function.update_of_ne hu]

theorem producerStep (h : Inv st) (hstep : st.producerStep t = some st') : Inv st' := by
  have hshape := h.toShape.producerStep hstep
  unfold State.producerStep at hstep
  cases hpc : st.producer t with
  | idle =>
    rw [hpc] at hstep
    cases hstep
  | clear node =>
    rw [hpc] at hstep
    cases hstep
    have howner : st.owner node = .producer t := h.holds t node (by rw [hpc]; rfl)
    exact
      { toShape := hshape
        fifo := h.fifo
        program := h.program_setProducer (by rw [hpc]; rfl)
        locals := h.locals_store (h.not_held howner (by simp)) none
        heldNodup := h.heldNodup
        counts := { h.counts with counting := h.counting_setProducer rfl (by rw [hpc]; rfl) } }
  | count node =>
    rw [hpc] at hstep
    cases hstep
    have hout : t ∉ st.counting := by
      rw [h.counts.counting t, hpc]
      simp [ProducerPc.counted]
    refine
      { toShape := hshape
        fifo := h.fifo
        program := h.program_setProducer (by rw [hpc]; rfl)
        locals := h.locals
        heldNodup := h.heldNodup
        counts :=
          { counted := ?_
            counting := fun u => ?_
            nodup := List.nodup_cons.mpr ⟨hout, h.counts.nodup⟩
            counter := ?_
            accounted := h.counts.accounted } }
    · show st.counted + 1 = st.pushed.length + (t :: st.counting).length
      have := h.counts.counted
      simp only [List.length_cons]
      omega
    · show u ∈ t :: st.counting ↔ (Function.update st.producer t _ u).counted = true
      rw [List.mem_cons, h.counts.counting u]
      by_cases hu : u = t
      · subst hu
        rw [Function.update_self]
        simp [ProducerPc.counted]
      · rw [Function.update_of_ne hu]
        simp [hu]
    · show st.queued + 1 + st.accounted = st.counted + 1
      have := h.counts.counter
      omega
  | exchange node =>
    rw [hpc] at hstep
    cases hstep
    have howner : st.owner node = .producer t := h.holds t node (by rw [hpc]; rfl)
    have hstub : node ≠ st.stub := h.ne_stub howner (by simp)
    have hin : t ∈ st.counting := by
      rw [h.counts.counting t, hpc]
      rfl
    refine
      { toShape := hshape
        fifo := ?_
        program := fun u => ?_
        locals := h.locals
        heldNodup := h.heldNodup
        counts :=
          { counted := ?_
            counting := fun u => ?_
            nodup := h.counts.nodup.erase t
            counter := h.counts.counter
            accounted := h.counts.accounted } }
    · show (st.pushed ++ [(t, node)]).map Prod.snd =
        st.returned ++ st.held ++ (st.chain ++ [node]).filter (· ≠ st.stub)
      rw [List.map_append, h.fifo, List.filter_append]
      simp [hstub]
    · show st.begun u = ((st.pushed ++ [(t, node)]).filter fun p => p.1 = u).map Prod.snd ++
        (Function.update st.producer t _ u).holds.toList
      have := h.program u
      rw [this, List.filter_append, List.map_append]
      by_cases hu : u = t
      · subst hu
        rw [Function.update_self, hpc]
        simp [ProducerPc.holds]
      · rw [Function.update_of_ne hu]
        simp [Ne.symm hu]
    · show st.counted = (st.pushed ++ [(t, node)]).length + (st.counting.erase t).length
      have := h.counts.counted
      have hpos := List.length_pos_of_mem hin
      rw [List.length_erase_of_mem hin]
      simp only [List.length_append, List.length_singleton]
      omega
    · show u ∈ st.counting.erase t ↔ (Function.update st.producer t _ u).counted = true
      rw [h.counts.nodup.mem_erase_iff, h.counts.counting u]
      by_cases hu : u = t
      · subst hu
        rw [Function.update_self]
        simp [ProducerPc.counted]
      · rw [Function.update_of_ne hu]
        simp [hu]
  | link prev node =>
    rw [hpc] at hstep
    cases hstep
    have hp : st.pend prev = some (node, some t) := (h.linking t prev node).mp hpc
    have hmem : prev ∈ st.chain := h.pendIn prev (by rw [hp]; simp)
    exact
      { toShape := hshape
        fifo := h.fifo
        program := h.program_setProducer (by rw [hpc]; rfl)
        locals := h.locals_store (h.chain_not_held hmem) (some node)
        heldNodup := h.heldNodup
        counts := { h.counts with counting := h.counting_setProducer rfl (by rw [hpc]; rfl) } }

/-- The consumer moves on with the nodes it has. -/
theorem setConsumer (h : Inv st) {pc : ConsumerPc α} (shape : Shape { st with consumer := pc })
    (locals : pc.Local st.next st.held) (owes : pc.owes = st.consumer.owes) :
    Inv { st with consumer := pc } where
  toShape := shape
  fifo := h.fifo
  program := h.program
  locals := locals
  heldNodup := h.heldNodup
  counts :=
    { h.counts with
      accounted := by
        show st.accounted + pc.owes = _
        rw [owes]
        exact h.counts.accounted }

/-- The counter is positive as long as a pop has to be counted. -/
theorem queued_pos (h : Inv st) (owes : st.consumer.owes = 1) : 0 < st.queued := by
  have hlen := congrArg List.length h.fifo
  have hcounted := h.counts.counted
  have hcounter := h.counts.counter
  have haccounted := h.counts.accounted
  simp only [List.length_map, List.length_append] at hlen
  omega

theorem finish (h : Inv st) {d : Drain α} (linking : st.consumer.linking = none)
    (owes : st.consumer.owes = 0) : Inv (st.finish d) where
  toShape := h.toShape.finish d linking
  fifo := by
    show st.pushed.map Prod.snd = (st.returned ++ st.held) ++ [] ++ st.chain.filter (· ≠ st.stub)
    rw [List.append_nil]
    exact h.fifo
  program := h.program
  locals := rfl
  heldNodup := List.nodup_nil
  counts :=
    { h.counts with
      accounted := by
        show st.accounted + 0 = (st.returned ++ st.held).length + 0
        have := h.counts.accounted
        rw [List.length_append]
        omega }

theorem take (h : Inv st) {d : Drain α} {n : α} (linking : st.consumer.linking = none)
    (owes : st.consumer.owes = 0) (lists : d.Lists st.next st.held) (real : st.tail ≠ st.stub)
    (hnext : st.next st.tail = some n) : Inv (st.take d n) := by
  obtain ⟨ys, hys⟩ := h.first
  refine
    { toShape := h.toShape.take linking real hnext
      fifo := ?_
      program := h.program
      locals := ⟨st.held, rfl, lists⟩
      heldNodup := ?_
      counts := { h.counts with accounted := ?_ } }
  · show st.pushed.map Prod.snd =
      st.returned ++ (st.held ++ [st.tail]) ++ st.chain.tail.filter (· ≠ st.stub)
    rw [h.fifo, hys]
    simp [real]
  · refine List.nodup_append.mpr ⟨h.heldNodup, by simp, ?_⟩
    rintro a ha b hb rfl
    obtain rfl := List.mem_singleton.mp hb
    exact h.chain_not_held h.tail_mem ha
  · show st.accounted + 1 = st.returned.length + (st.held ++ [st.tail]).length
    have := h.counts.accounted
    simp only [List.length_append, List.length_singleton]
    omega

theorem advanceStub (h : Inv st) {d : Drain α} {n : α} (hpc : st.consumer = .load d)
    (hstub : st.tail = st.stub) (hnext : st.next st.tail = some n) :
    Inv { st with tail := n, chain := st.chain.tail, consumer := .loadAfterStub d } := by
  obtain ⟨ys, hys⟩ := h.first
  have hlocals := h.locals
  have haccounted := h.counts.accounted
  rw [hpc] at hlocals haccounted
  refine
    { toShape := h.toShape.advanceStub (by rw [hpc]; rfl) hstub hnext
      fifo := ?_
      program := h.program
      locals := hlocals
      heldNodup := h.heldNodup
      counts := { h.counts with accounted := haccounted } }
  show st.pushed.map Prod.snd = st.returned ++ st.held ++ st.chain.tail.filter (· ≠ st.stub)
  rw [h.fifo, hys, hstub]
  simp

theorem stubClear (h : Inv st) {d : Drain α} (hpc : st.consumer = .stubClear d)
    (out : st.stub ∉ st.chain) :
    Inv { st.store st.stub none with consumer := .stubExchange d } := by
  have hstub : st.stub ∉ st.held := h.not_held h.stubOwner (by simp)
  have hlocals := h.locals_store hstub none
  have haccounted := h.counts.accounted
  rw [hpc] at hlocals haccounted
  have hstored : Shape (st.store st.stub none) := by
    refine h.toShape.store out none ?_ ?_
    · intro t ht
      have hother := h.holds t st.stub (ProducerPc.holds_of_cleared ht)
      exact absurd (h.stubOwner.symm.trans hother) (by simp)
    · rw [hpc]
      intro hc
      cases hc
  refine
    { toShape := hstored.setConsumer (by show st.consumer.linking = none; rw [hpc]; rfl) rfl
        (fun _ => Function.update_self ..) (fun _ => out) ?_
      fifo := h.fifo
      program := h.program
      locals := hlocals
      heldNodup := h.heldNodup
      counts := { h.counts with accounted := haccounted } }
  intro _
  exact h.realTail (by rw [hpc]; rfl)

/-- The stub leaves no trace in the history. -/
theorem stubExchange (h : Inv st) {d : Drain α} (hpc : st.consumer = .stubExchange d) :
    Inv { st.exchangeHead st.stub none with consumer := .stubLink d st.head } := by
  have hlocals := h.locals
  have haccounted := h.counts.accounted
  rw [hpc] at hlocals haccounted
  refine
    { toShape := h.toShape.stubExchange hpc
      fifo := ?_
      program := h.program
      locals := hlocals
      heldNodup := h.heldNodup
      counts := { h.counts with accounted := haccounted } }
  show st.pushed.map Prod.snd =
    st.returned ++ st.held ++ (st.chain ++ [st.stub]).filter (· ≠ st.stub)
  rw [h.fifo, List.filter_append]
  simp

theorem stubLink (h : Inv st) {d : Drain α} {prev : α} (hpc : st.consumer = .stubLink d prev) :
    Inv { st.storeLink prev st.stub with consumer := .reload d } := by
  have hp : st.pend prev = some (st.stub, none) :=
    (h.stubLinking prev st.stub).mpr ⟨rfl, by rw [hpc]; rfl⟩
  have hmem : prev ∈ st.chain := h.pendIn prev (by rw [hp]; simp)
  have hlocals := h.locals_store (h.chain_not_held hmem) (some st.stub)
  have haccounted := h.counts.accounted
  rw [hpc] at hlocals haccounted
  exact
    { toShape := h.toShape.stubLink hpc
      fifo := h.fifo
      program := h.program
      locals := hlocals
      heldNodup := h.heldNodup
      counts := { h.counts with accounted := haccounted } }

/-- The consumer writes to a node it has taken. -/
theorem shape_store_held (h : Inv st) (hmem : node ∈ st.held) (v : Option α)
    (stub : st.consumer.stubCleared = false) : Shape (st.store node v) := by
  have howner := h.heldOwner node hmem
  refine h.toShape.store (h.outside howner (by simp) (by simp)) v ?_ ?_
  · intro t ht
    have hother := h.holds t node (ProducerPc.holds_of_cleared ht)
    exact absurd (howner.symm.trans hother) (by simp)
  · rw [stub]
    intro hc
    cases hc

theorem clear (h : Inv st) {d : Drain α} (hpc : st.consumer = .clear d node) :
    Inv { st.store node none with consumer := .account d node } := by
  have hlocals := h.locals
  have haccounted := h.counts.accounted
  rw [hpc] at hlocals haccounted
  obtain ⟨xs, hxs, hlists⟩ := hlocals
  have hmem : node ∈ st.held := by
    rw [hxs]
    simp
  have hshape := h.shape_store_held hmem none (by rw [hpc]; rfl)
  have hnode : ∀ n ∈ xs, n ≠ node := by
    have hnodup := h.heldNodup
    rw [hxs] at hnodup
    exact fun n hn => (List.nodup_append.mp hnodup).2.2 n hn node (by simp)
  refine
    { toShape := hshape.setLocal (by show st.consumer.linking = none; rw [hpc]; rfl) rfl rfl rfl rfl
      fifo := h.fifo
      program := h.program
      locals := ⟨xs, hxs, ?_, Function.update_self ..⟩
      heldNodup := h.heldNodup
      counts := { h.counts with accounted := haccounted } }
  exact hlists.congr fun n hn => Function.update_of_ne (hnode n hn) ..

/-- The drain goes on with a longer list, or returns it. -/
theorem again (h : Inv st) {d : Drain α} (linking : st.consumer.linking = none)
    (owes : st.consumer.owes = 0) (lists : d.Lists st.next st.held) : Inv (st.again d) := by
  unfold State.again
  split
  · exact h.setConsumer (h.toShape.setLocal linking rfl rfl rfl rfl) lists owes.symm
  · exact h.finish linking owes

/-- The pop is counted. -/
theorem popped (h : Inv st) {pc : ConsumerPc α} (shape : Shape { st with consumer := pc })
    (locals : pc.Local st.next st.held) (before : st.consumer.owes = 1) (owes : pc.owes = 0) :
    Inv { st with queued := st.queued - 1, accounted := st.accounted + 1, consumer := pc } where
  toShape := { shape with }
  fifo := h.fifo
  program := h.program
  locals := locals
  heldNodup := h.heldNodup
  counts :=
    { h.counts with
      counter := by
        have := h.counts.counter
        have := h.queued_pos before
        show st.queued - 1 + (st.accounted + 1) = st.counted
        omega
      accounted := by
        have := h.counts.accounted
        show st.accounted + 1 + pc.owes = st.returned.length + st.held.length
        omega }

theorem accept (h : Inv st) {d : Drain α} {xs : List α} (linking : st.consumer.linking = none)
    (owes : st.consumer.owes = 1) (held : st.held = xs ++ [node]) (lists : d.Lists st.next xs)
    (cleared : st.next node = none) :
    Inv ({ st with queued := st.queued - 1, accounted := st.accounted + 1 }.accept d node) := by
  unfold State.accept
  cases hlast : d.outTail with
  | none =>
    have hload : Inv { st with
        queued := st.queued - 1
        accounted := st.accounted + 1
        consumer := .load { d with
          outHead := some node, outTail := some node, count := d.count + 1 } } := by
      refine h.popped (h.toShape.setLocal linking rfl rfl rfl rfl) ?_ owes rfl
      rw [held]
      exact lists.first hlast cleared
    exact hload.again rfl rfl hload.locals
  | some last =>
    exact h.popped (h.toShape.setLocal linking rfl rfl rfl rfl)
      ⟨xs, held, lists, cleared, hlast⟩ owes rfl

theorem append (h : Inv st) {d : Drain α} {last : α} (hpc : st.consumer = .append d node last) :
    Inv ((st.store last (some node)).again { d with outTail := some node, count := d.count + 1 }) := by
  have hlocals := h.locals
  have haccounted := h.counts.accounted
  rw [hpc] at hlocals haccounted
  obtain ⟨xs, hxs, hlists, hclear, hlast⟩ := hlocals
  have hnodup := h.heldNodup
  rw [hxs] at hnodup
  have hmem : last ∈ st.held := by
    rw [hxs]
    refine List.mem_append_left _ (List.mem_of_getLast? ?_)
    exact hlists.last.symm.trans hlast
  have hload : Inv { st.store last (some node) with
      consumer := .load { d with outTail := some node, count := d.count + 1 } } :=
    { toShape := (h.shape_store_held hmem (some node) (by rw [hpc]; rfl)).setLocal
        (by show st.consumer.linking = none; rw [hpc]; rfl) rfl rfl rfl rfl
      fifo := h.fifo
      program := h.program
      locals := by
        show Drain.Lists _ (Function.update st.next last (some node)) st.held
        rw [hxs]
        exact hlists.append hlast hclear hnodup
      heldNodup := h.heldNodup
      counts := { h.counts with accounted := haccounted } }
  exact hload.again rfl rfl hload.locals

/-- A queue whose tail is its head holds no stub behind a real node. -/
theorem stub_out (h : Inv st) (real : st.tail ≠ st.stub) (hhead : st.tail = st.head) :
    st.stub ∉ st.chain := by
  obtain ⟨ys, hys⟩ := h.first
  obtain ⟨zs, hzs⟩ := h.last
  have hnodup := h.nodup
  cases zs with
  | nil =>
    rw [hzs, ← hhead]
    simpa using Ne.symm real
  | cons z zs =>
    exfalso
    rw [hys] at hzs
    obtain ⟨rfl, rfl⟩ := List.cons.inj hzs
    rw [hys, ← hhead] at hnodup
    simp at hnodup

/-- The consumer takes the tail, or finds its link missing and compares it with the head. -/
theorem takeOrLoadHead (h : Inv st) {d : Drain α} (linking : st.consumer.linking = none)
    (owes : st.consumer.owes = 0) (lists : d.Lists st.next st.held) (real : st.tail ≠ st.stub) :
    Inv (st.takeOrLoadHead d) := by
  unfold State.takeOrLoadHead
  cases hnext : st.next st.tail with
  | some n => exact h.take linking owes lists real hnext
  | none =>
    refine h.setConsumer (h.toShape.setConsumer linking rfl ?_ ?_ fun _ => real) lists owes.symm
    · intro hc
      cases hc
    · intro hc
      cases hc

theorem consumerStep (h : Inv st) {spurious : Bool}
    (hstep : st.consumerStep spurious = some st') : Inv st' := by
  unfold State.consumerStep at hstep
  have hlocals := h.locals
  cases hpc : st.consumer with
  | idle =>
    rw [hpc] at hstep
    cases hstep
  | load d =>
    rw [hpc] at hstep hlocals
    have hlinking : st.consumer.linking = none := by rw [hpc]; rfl
    have howes : st.consumer.owes = 0 := by rw [hpc]; rfl
    by_cases hstub : st.tail = st.stub
    · simp only [if_pos hstub] at hstep
      cases hnext : st.next st.tail with
      | none =>
        rw [hnext] at hstep
        cases hstep
        exact h.finish hlinking howes
      | some n =>
        rw [hnext] at hstep
        cases hstep
        exact h.advanceStub hpc hstub hnext
    · simp only [if_neg hstub] at hstep
      cases hstep
      exact h.takeOrLoadHead hlinking howes hlocals hstub
  | loadAfterStub d =>
    rw [hpc] at hstep hlocals
    cases hstep
    exact h.takeOrLoadHead (by rw [hpc]; rfl) (by rw [hpc]; rfl) hlocals
      (h.realTail (by rw [hpc]; rfl))
  | loadHead d =>
    rw [hpc] at hstep hlocals
    by_cases hhead : st.tail = st.head
    · simp only [if_neg (not_not_intro hhead)] at hstep
      cases hstep
      have hreal : st.tail ≠ st.stub := h.realTail (by rw [hpc]; rfl)
      refine h.setConsumer (h.toShape.setConsumer (by rw [hpc]; rfl) rfl ?_ ?_ fun _ => hreal)
        hlocals (by rw [hpc]; rfl)
      · intro hc
        cases hc
      · intro _
        exact h.stub_out hreal hhead
    · simp only [if_pos hhead] at hstep
      cases hstep
      exact h.finish (by rw [hpc]; rfl) (by rw [hpc]; rfl)
  | stubClear d =>
    rw [hpc] at hstep
    cases hstep
    have hout : st.stub ∉ st.chain := h.stubOut (by rw [hpc]; rfl)
    exact h.stubClear hpc hout
  | stubExchange d =>
    rw [hpc] at hstep
    cases hstep
    exact h.stubExchange hpc
  | stubLink d prev =>
    rw [hpc] at hstep
    cases hstep
    exact h.stubLink hpc
  | reload d =>
    rw [hpc] at hstep hlocals
    cases hnext : st.next st.tail with
    | none =>
      rw [hnext] at hstep
      cases hstep
      exact h.finish (by rw [hpc]; rfl) (by rw [hpc]; rfl)
    | some n =>
      rw [hnext] at hstep
      cases hstep
      exact h.take (by rw [hpc]; rfl) (by rw [hpc]; rfl) hlocals (h.realTail (by rw [hpc]; rfl)) hnext
  | clear d node =>
    rw [hpc] at hstep
    cases hstep
    exact h.clear hpc
  | account d node =>
    rw [hpc] at hstep hlocals
    have hpos : 0 < st.queued := h.queued_pos (by rw [hpc]; rfl)
    simp only [if_pos hpos] at hstep
    cases hstep
    exact h.setConsumer (h.toShape.setLocal (by rw [hpc]; rfl) rfl rfl rfl rfl) hlocals
      (by rw [hpc]; rfl)
  | compareExchange d node queued =>
    rw [hpc] at hstep hlocals
    have hpos : 0 < st.queued := h.queued_pos (by rw [hpc]; rfl)
    by_cases heq : !spurious ∧ st.queued = queued
    · simp only [if_pos heq] at hstep
      cases hstep
      obtain ⟨_, rfl⟩ := heq
      obtain ⟨xs, hxs, hlists, hclear⟩ := hlocals
      exact h.accept (by rw [hpc]; rfl) (by rw [hpc]; rfl) hxs hlists hclear
    · simp only [if_neg heq, if_pos hpos] at hstep
      cases hstep
      exact h.setConsumer (h.toShape.setLocal (by rw [hpc]; rfl) rfl rfl rfl rfl) hlocals
        (by rw [hpc]; rfl)
  | append d node last =>
    rw [hpc] at hstep
    cases hstep
    exact h.append hpc

theorem drain (h : Inv st) {maxevents : Nat} (hstep : st.drain maxevents = some st') :
    Inv st' := by
  unfold State.drain at hstep
  split at hstep
  case isFalse => cases hstep
  rename_i hguard
  obtain ⟨hidle, _⟩ := hguard
  cases hstep
  have hlocals := h.locals
  rw [hidle] at hlocals
  refine h.setConsumer (h.toShape.setLocal (by rw [hidle]; rfl) rfl rfl rfl rfl) ?_
    (by rw [hidle]; rfl)
  have hheld : st.held = [] := hlocals
  rw [hheld]
  exact ⟨rfl, rfl, rfl, trivial⟩

/-- Every operation keeps the invariant. -/
theorem step (h : Inv st) {a : Act α} (hstep : ReadyQueue.step st a = some st') : Inv st' := by
  cases a with
  | push t node => exact h.push hstep
  | producer t => exact h.producerStep hstep
  | drain maxevents => exact h.drain hstep
  | consumer spurious => exact h.consumerStep hstep

end Inv

theorem inv_reach {stub : α} (h : Transition.Reach ReadyQueue.step (init stub) st) : Inv st :=
  h.invariant (inv_init stub) fun _ _ _ hinv hstep => hinv.step hstep

end

end WepollEx.ReadyQueue
