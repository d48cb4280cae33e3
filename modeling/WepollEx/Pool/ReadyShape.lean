import WepollEx.Lib.HalfLinked
import WepollEx.Pool.ReadyQueue

/-!
# The chain of the ready queue

`Shape` is the invariant of the half-linked chain: which nodes are in it, which links are pending
and by whom, and who may write to the nodes outside.  Every operation keeps it.
-/

namespace WepollEx.ReadyQueue

open HalfLinked

variable {α : Type}

namespace ProducerPc

/-- The node of a push that has not exchanged the head yet. -/
def holds : ProducerPc α → Option α
  | .clear node | .count node | .exchange node => some node
  | _ => none

/-- The node of a push, once its link is cleared. -/
def cleared : ProducerPc α → Option α
  | .count node | .exchange node => some node
  | _ => none

end ProducerPc

namespace ConsumerPc

/-- The consumer has found that the tail is not the stub. -/
def pastStub : ConsumerPc α → Bool
  | .loadAfterStub _ | .loadHead _ | .stubClear _ | .stubExchange _ | .stubLink _ _
  | .reload _ => true
  | _ => false

/-- The consumer is about to put the stub back into the queue. -/
def insertsStub : ConsumerPc α → Bool
  | .stubClear _ | .stubExchange _ => true
  | _ => false

/-- The node whose link to the stub the consumer is about to store. -/
def linking : ConsumerPc α → Option α
  | .stubLink _ prev => some prev
  | _ => none

def stubCleared : ConsumerPc α → Bool
  | .stubExchange _ => true
  | _ => false

end ConsumerPc

/-- The nodes from the tail to the head are a half-linked chain. -/
structure Spine (st : State α) : Prop where
  nodup : st.chain.Nodup
  first : ∃ ys, st.chain = st.tail :: ys
  last : ∃ ys, st.chain = ys ++ [st.head]
  links : Links st.next st.pend st.chain
  pendIn : ∀ a, st.pend a ≠ none → a ∈ st.chain

structure Shape (st : State α) : Prop extends Spine st where
  inQueue : ∀ n ∈ st.chain, n = st.stub ∨ st.owner n = .queue
  stubOwner : st.owner st.stub = .stub
  holds : ∀ t n, (st.producer t).holds = some n → st.owner n = .producer t
  cleared : ∀ t n, (st.producer t).cleared = some n → st.next n = none
  linking : ∀ t a b, st.producer t = .link a b ↔ st.pend a = some (b, some t)
  stubLinking : ∀ a b, st.pend a = some (b, none) ↔ b = st.stub ∧ st.consumer.linking = some a
  stubCleared : st.consumer.stubCleared = true → st.next st.stub = none
  stubOut : st.consumer.insertsStub = true → st.stub ∉ st.chain
  realTail : st.consumer.pastStub = true → st.tail ≠ st.stub
  heldOwner : ∀ n ∈ st.held, st.owner n = .consumer

theorem ProducerPc.holds_of_cleared {pc : ProducerPc α} {n : α} (h : pc.cleared = some n) :
    pc.holds = some n := by
  cases pc <;> first | exact h | cases h

section

variable [DecidableEq α] {st : State α} {t : Tid} {node : α}

theorem shape_init (stub : α) : Shape (init stub) where
  nodup := by simp [init]
  first := ⟨[], rfl⟩
  last := ⟨[], rfl⟩
  links := ⟨rfl, rfl⟩
  pendIn := fun _ hp => absurd rfl hp
  inQueue := fun n hn => .inl (List.mem_singleton.mp hn)
  stubOwner := by simp [init]
  holds := fun t n hn => by cases hn
  cleared := fun t n hn => by cases hn
  linking := fun t a b => by simp [init]
  stubLinking := fun a b => by simp [init, ConsumerPc.linking]
  stubCleared := fun h => by cases h
  stubOut := fun h => by cases h
  realTail := fun h => by cases h
  heldOwner := fun n hn => by cases hn

namespace Spine

omit [DecidableEq α] in
theorem head_mem (h : Spine st) : st.head ∈ st.chain := by
  obtain ⟨ys, hys⟩ := h.last
  rw [hys]
  exact List.mem_append_right _ (List.mem_singleton_self _)

omit [DecidableEq α] in
theorem tail_mem (h : Spine st) : st.tail ∈ st.chain := by
  obtain ⟨ys, hys⟩ := h.first
  rw [hys]
  exact List.mem_cons_self

omit [DecidableEq α] in
/-- Nobody has to store a link from the head. -/
theorem pend_head (h : Spine st) : st.pend st.head = none := by
  obtain ⟨ys, hys⟩ := h.last
  have hlinks := h.links
  rw [hys] at hlinks
  exact hlinks.last.2

theorem exchangeHead (h : Spine st) (fresh : node ∉ st.chain) (cleared : st.next node = none)
    (w : Option Tid) : Spine (st.exchangeHead node w) := by
  obtain ⟨ys, hys⟩ := h.last
  obtain ⟨zs, hzs⟩ := h.first
  refine ⟨?_, ⟨zs ++ [node], ?_⟩, ⟨st.chain, rfl⟩, ?_, ?_⟩
  · refine List.nodup_append.mpr ⟨h.nodup, by simp, ?_⟩
    rintro a ha b hb rfl
    exact fresh (List.mem_singleton.mp hb ▸ ha)
  · show st.chain ++ [node] = _
    rw [hzs]
    rfl
  · have hpend : st.pend node = none := by
      by_contra hp
      exact fresh (h.pendIn node hp)
    have hlinks := h.links
    have hnodup := h.nodup
    rw [hys] at hlinks hnodup fresh
    show Links st.next (Function.update st.pend st.head _) (st.chain ++ [node])
    rw [hys]
    exact hlinks.exchange hnodup fresh cleared hpend w
  · intro a ha
    refine List.mem_append_left _ ?_
    by_cases hah : a = st.head
    · rw [hah]
      exact h.head_mem
    · have hold : Function.update st.pend st.head (some (node, w)) a = st.pend a :=
        Function.update_of_ne hah ..
      exact h.pendIn a fun hp => ha (hold.trans hp)

theorem storeLink (h : Spine st) {prev : α} {w : Option Tid}
    (hp : st.pend prev = some (node, w)) : Spine (st.storeLink prev node) := by
  have hmem : prev ∈ st.chain := h.pendIn prev (by rw [hp]; simp)
  refine ⟨h.nodup, h.first, h.last, h.links.store h.nodup hmem hp, ?_⟩
  intro a ha
  refine h.pendIn a fun hnone => ha ?_
  show Function.update st.pend prev none a = none
  by_cases hap : a = prev
  · subst hap
    exact Function.update_self ..
  · exact (Function.update_of_ne hap ..).trans hnone

theorem write (h : Spine st) (outside : node ∉ st.chain) (v : Option α) :
    Spine (st.store node v) :=
  ⟨h.nodup, h.first, h.last, h.links.write outside v, h.pendIn⟩

omit [DecidableEq α] in
/-- The tail moves on along a stored link. -/
theorem advance (h : Spine st) {n : α} (hnext : st.next st.tail = some n) :
    Spine { st with tail := n, chain := st.chain.tail } ∧ st.pend st.tail = none ∧
      ∃ ys, st.chain = st.tail :: n :: ys := by
  obtain ⟨xs, hxs⟩ := h.first
  have hlinks := h.links
  have hnodup := h.nodup
  rw [hxs] at hlinks hnodup
  obtain ⟨hpend, ys, rfl⟩ := hlinks.of_next hnext
  refine ⟨⟨?_, ⟨ys, ?_⟩, ?_, ?_, ?_⟩, hpend, ys, hxs⟩
  · show st.chain.tail.Nodup
    rw [hxs]
    exact (List.nodup_cons.mp hnodup).2
  · show st.chain.tail = _
    rw [hxs]
    rfl
  · obtain ⟨zs, hzs⟩ := h.last
    show ∃ ys, st.chain.tail = ys ++ [st.head]
    cases zs with
    | nil =>
      rw [hxs] at hzs
      simp at hzs
    | cons z zs =>
      refine ⟨zs, ?_⟩
      rw [hzs]
      rfl
  · show Links st.next st.pend st.chain.tail
    rw [hxs]
    exact hlinks.tail
  · intro a ha
    show a ∈ st.chain.tail
    have hmem := h.pendIn a ha
    rw [hxs] at hmem ⊢
    rcases List.mem_cons.mp hmem with rfl | hin
    · exact absurd hpend ha
    · exact hin

end Spine

namespace Shape

omit [DecidableEq α] in
/-- A node that belongs neither to the queue nor is the stub is not in the chain. -/
theorem outside (h : Shape st) {o : Owner} (howner : st.owner node = o) (hq : o ≠ .queue)
    (hs : o ≠ .stub) : node ∉ st.chain := by
  intro hmem
  rcases h.inQueue node hmem with rfl | hin
  · exact hs (howner.symm.trans h.stubOwner)
  · exact hq (howner.symm.trans hin)

omit [DecidableEq α] in
theorem ne_stub (h : Shape st) {o : Owner} (howner : st.owner node = o) (hs : o ≠ .stub) :
    node ≠ st.stub := by
  rintro rfl
  exact hs (howner.symm.trans h.stubOwner)

omit [DecidableEq α] in
/-- A property of all producers after one of them has moved. -/
theorem forall_update {P : Tid → ProducerPc α → Prop} {pc : ProducerPc α} (self : P t pc)
    (others : ∀ u, u ≠ t → P u (st.producer u)) (u : Tid) :
    P u (Function.update st.producer t pc u) := by
  by_cases hu : u = t
  · subst hu
    rw [Function.update_self]
    exact self
  · rw [Function.update_of_ne hu]
    exact others u hu

theorem push {st' : State α} (h : Shape st) (hstep : st.push t node = some st') : Shape st' := by
  unfold State.push at hstep
  split at hstep
  case isFalse => cases hstep
  rename_i hguard
  obtain ⟨hidle, howner⟩ := hguard
  cases hstep
  have hother : ∀ n o, o ≠ .caller → st.owner n = o →
      Function.update st.owner node (.producer t) n = o := by
    intro n o ho hn
    rw [← hn]
    refine Function.update_of_ne ?_ ..
    rintro rfl
    exact ho (hn.symm.trans howner)
  refine
    { h with
      inQueue := fun n hn => (h.inQueue n hn).imp id (hother n _ (by simp))
      stubOwner := hother _ _ (by simp) h.stubOwner
      holds := forall_update (P := fun u pc => ∀ n, pc.holds = some n →
        Function.update st.owner node (.producer t) n = .producer u) ?_ ?_
      cleared := forall_update (P := fun u pc => ∀ n, pc.cleared = some n → st.next n = none) ?_
        fun u _ => h.cleared u
      linking := forall_update (P := fun u pc => ∀ a b, pc = .link a b ↔
        st.pend a = some (b, some u)) ?_ fun u _ => h.linking u
      heldOwner := fun n hn => hother n _ (by simp) (h.heldOwner n hn) }
  · intro n hn
    cases hn
    exact Function.update_self ..
  · intro u _ n hn
    exact hother n _ (by simp) (h.holds u n hn)
  · intro n hn
    cases hn
  · intro a b
    rw [← h.linking t a b, hidle]
    simp

/-- The link of a node outside the chain is written. -/
theorem store (h : Shape st) (outside : node ∉ st.chain) (v : Option α)
    (cleared : ∀ t, (st.producer t).cleared ≠ some node)
    (stub : st.consumer.stubCleared = true → node ≠ st.stub) : Shape (st.store node v) where
  toSpine := h.toSpine.write outside v
  inQueue := h.inQueue
  stubOwner := h.stubOwner
  holds := h.holds
  cleared := by
    intro t n hn
    refine (Function.update_of_ne ?_ ..).trans (h.cleared t n hn)
    rintro rfl
    exact cleared t hn
  linking := h.linking
  stubLinking := h.stubLinking
  stubCleared := fun hc => (Function.update_of_ne (stub hc).symm ..).trans (h.stubCleared hc)
  stubOut := h.stubOut
  realTail := h.realTail
  heldOwner := h.heldOwner

omit [DecidableEq α] in
/-- A producer moves on without an effect on the chain. -/
theorem setProducer (h : Shape st) {pc : ProducerPc α} (holds : pc.holds = (st.producer t).holds)
    (cleared : ∀ n, pc.cleared = some n → st.next n = none) (now : ∀ a b, pc ≠ .link a b)
    (before : ∀ a b, st.producer t ≠ .link a b) : Shape (st.setProducer t pc) :=
  { h with
    holds := forall_update (P := fun u pc => ∀ n, pc.holds = some n → st.owner n = .producer u)
      (fun n hn => h.holds t n (holds.symm.trans hn)) fun u _ => h.holds u
    cleared := forall_update (P := fun u pc => ∀ n, pc.cleared = some n → st.next n = none) cleared
      fun u _ => h.cleared u
    linking := forall_update (P := fun u pc => ∀ a b, pc = .link a b ↔
      st.pend a = some (b, some u)) (fun a b => by
        rw [← h.linking t a b]
        exact ⟨fun hc => absurd hc (now a b), fun hc => absurd hc (before a b)⟩)
      fun u _ => h.linking u }

theorem producerExchange (h : Shape st) (hpc : st.producer t = .exchange node) :
    Shape ({ st.exchangeHead node (some t) with
      owner := Function.update st.owner node .queue
      pushed := st.pushed ++ [(t, node)]
      counting := st.counting.erase t }.setProducer t (.link st.head node)) := by
  have howner : st.owner node = .producer t := h.holds t node (by rw [hpc]; rfl)
  have hout : node ∉ st.chain := h.outside howner (by simp) (by simp)
  have hclear : st.next node = none := h.cleared t node (by rw [hpc]; rfl)
  have hhead := h.pend_head
  have hother : ∀ n o, o ≠ .producer t → st.owner n = o →
      Function.update st.owner node .queue n = o := by
    intro n o ho hn
    rw [← hn]
    refine Function.update_of_ne ?_ ..
    rintro rfl
    exact ho (hn.symm.trans howner)
  have hspine := h.toSpine.exchangeHead hout hclear (some t)
  refine
    { nodup := hspine.nodup
      first := hspine.first
      last := hspine.last
      links := hspine.links
      pendIn := hspine.pendIn
      inQueue := ?_
      stubOwner := hother _ _ (by simp) h.stubOwner
      holds := forall_update (P := fun u pc => ∀ n, pc.holds = some n →
        Function.update st.owner node .queue n = .producer u) (fun n hn => by cases hn) ?_
      cleared := forall_update (P := fun u pc => ∀ n, pc.cleared = some n → st.next n = none)
        (fun n hn => by cases hn) fun u _ => h.cleared u
      linking := forall_update (P := fun u pc => ∀ a b, pc = .link a b ↔
        Function.update st.pend st.head (some (node, some t)) a = some (b, some u)) ?_ ?_
      stubLinking := ?_
      stubCleared := h.stubCleared
      stubOut := ?_
      realTail := h.realTail
      heldOwner := fun n hn => hother n _ (by simp) (h.heldOwner n hn) }
  · intro n hn
    rcases List.mem_append.mp hn with hin | hin
    · exact (h.inQueue n hin).imp id (hother n _ (by simp))
    · obtain rfl := List.mem_singleton.mp hin
      exact .inr (Function.update_self ..)
  · intro u hu n hn
    refine hother n _ ?_ (h.holds u n hn)
    intro he
    exact hu (Owner.producer.inj he)
  · intro a b
    by_cases ha : a = st.head
    · subst ha
      rw [Function.update_self]
      simp
    · rw [Function.update_of_ne ha, ← h.linking t a b, hpc]
      simp [Ne.symm ha]
  · intro u hu a b
    by_cases ha : a = st.head
    · subst ha
      refine (h.linking u st.head b).trans ?_
      rw [Function.update_self, hhead]
      simp [Ne.symm hu]
    · rw [Function.update_of_ne ha]
      exact h.linking u a b
  · intro a b
    refine Iff.trans ?_ (h.stubLinking a b)
    show Function.update st.pend st.head (some (node, some t)) a = some (b, none) ↔ _
    by_cases ha : a = st.head
    · subst ha
      rw [Function.update_self, hhead]
      simp
    · rw [Function.update_of_ne ha]
  · intro hc hmem
    rcases List.mem_append.mp hmem with hin | hin
    · exact h.stubOut hc hin
    · exact h.ne_stub howner (by simp) (List.mem_singleton.mp hin).symm

theorem producerLink (h : Shape st) {prev : α} (hpc : st.producer t = .link prev node) :
    Shape ((st.storeLink prev node).setProducer t .idle) := by
  have hp : st.pend prev = some (node, some t) := (h.linking t prev node).mp hpc
  have hmem : prev ∈ st.chain := h.pendIn prev (by rw [hp]; simp)
  have hspine := h.toSpine.storeLink hp
  have hfree : ∀ n, n ∉ st.chain → Function.update st.next prev (some node) n = st.next n := by
    intro n hn
    refine Function.update_of_ne ?_ ..
    rintro rfl
    exact hn hmem
  refine
    { nodup := hspine.nodup
      first := hspine.first
      last := hspine.last
      links := hspine.links
      pendIn := hspine.pendIn
      inQueue := h.inQueue
      stubOwner := h.stubOwner
      holds := forall_update (P := fun u pc => ∀ n, pc.holds = some n → st.owner n = .producer u)
        (fun n hn => by cases hn) fun u _ => h.holds u
      cleared := forall_update (P := fun u pc => ∀ n, pc.cleared = some n →
        Function.update st.next prev (some node) n = none) (fun n hn => by cases hn) ?_
      linking := forall_update (P := fun u pc => ∀ a b, pc = .link a b ↔
        Function.update st.pend prev none a = some (b, some u)) ?_ ?_
      stubLinking := ?_
      stubCleared := ?_
      stubOut := h.stubOut
      realTail := h.realTail
      heldOwner := h.heldOwner }
  · intro u _ n hn
    have howner := h.holds u n (ProducerPc.holds_of_cleared hn)
    exact (hfree n (h.outside howner (by simp) (by simp))).trans (h.cleared u n hn)
  · intro a b
    by_cases ha : a = prev
    · subst ha
      rw [Function.update_self]
      simp
    · rw [Function.update_of_ne ha, ← h.linking t a b, hpc]
      simp [Ne.symm ha]
  · intro u hu a b
    by_cases ha : a = prev
    · subst ha
      refine (h.linking u a b).trans ?_
      rw [Function.update_self, hp]
      simp [Ne.symm hu]
    · rw [Function.update_of_ne ha]
      exact h.linking u a b
  · intro a b
    refine Iff.trans ?_ (h.stubLinking a b)
    show Function.update st.pend prev none a = some (b, none) ↔ _
    by_cases ha : a = prev
    · subst ha
      rw [Function.update_self, hp]
      simp
    · rw [Function.update_of_ne ha]
  · intro hc
    have hout : st.stub ∉ st.chain := by
      refine h.stubOut ?_
      cases hcon : st.consumer <;> simp_all [ConsumerPc.stubCleared, ConsumerPc.insertsStub,
        State.storeLink, State.store, State.setProducer]
    exact (hfree _ hout).trans (h.stubCleared hc)

theorem producerStep {st' : State α} (h : Shape st) (hstep : st.producerStep t = some st') :
    Shape st' := by
  unfold State.producerStep at hstep
  cases hpc : st.producer t with
  | idle =>
    rw [hpc] at hstep
    cases hstep
  | clear node =>
    rw [hpc] at hstep
    cases hstep
    have howner : st.owner node = .producer t := h.holds t node (by rw [hpc]; rfl)
    have hout : node ∉ st.chain := h.outside howner (by simp) (by simp)
    have hstored : Shape (st.store node none) := by
      refine h.store hout none ?_ fun _ => h.ne_stub howner (by simp)
      intro u hu
      have hother := h.holds u node (ProducerPc.holds_of_cleared hu)
      obtain rfl : t = u := Owner.producer.inj (howner.symm.trans hother)
      rw [hpc] at hu
      cases hu
    refine hstored.setProducer ?_ ?_ (by simp) ?_
    · show some node = (st.producer t).holds
      rw [hpc]
      rfl
    · intro n hn
      cases hn
      exact Function.update_self ..
    · intro a b hc
      have hc : st.producer t = .link a b := hc
      rw [hpc] at hc
      cases hc
  | count node =>
    rw [hpc] at hstep
    cases hstep
    have hcounted : Shape { st with
        queued := st.queued + 1, counted := st.counted + 1, counting := t :: st.counting } := { h with }
    refine hcounted.setProducer ?_ ?_ (by simp) ?_
    · show some node = (st.producer t).holds
      rw [hpc]
      rfl
    · intro n hn
      exact h.cleared t n (by rw [hpc]; exact hn)
    · intro a b hc
      have hc : st.producer t = .link a b := hc
      rw [hpc] at hc
      cases hc
  | exchange node =>
    rw [hpc] at hstep
    cases hstep
    exact h.producerExchange hpc
  | link prev node =>
    rw [hpc] at hstep
    cases hstep
    exact h.producerLink hpc

omit [DecidableEq α] in
/-- The consumer moves on without an effect on the queue. -/
theorem setConsumer (h : Shape st) {pc : ConsumerPc α} (before : st.consumer.linking = none)
    (now : pc.linking = none) (cleared : pc.stubCleared = true → st.next st.stub = none)
    (out : pc.insertsStub = true → st.stub ∉ st.chain)
    (real : pc.pastStub = true → st.tail ≠ st.stub) : Shape { st with consumer := pc } :=
  { h with
    stubLinking := fun a b => by
      refine (h.stubLinking a b).trans ?_
      rw [before, now]
    stubCleared := cleared
    stubOut := out
    realTail := real }

omit [DecidableEq α] in
/-- A consumer that holds a node or has just started knows nothing of the stub. -/
theorem setLocal (h : Shape st) {pc : ConsumerPc α} (before : st.consumer.linking = none)
    (now : pc.linking = none) (past : pc.pastStub = false) (inserts : pc.insertsStub = false)
    (cleared : pc.stubCleared = false) : Shape { st with consumer := pc } := by
  refine h.setConsumer before now ?_ ?_ ?_
  · rw [cleared]
    intro hc
    cases hc
  · rw [inserts]
    intro hc
    cases hc
  · rw [past]
    intro hc
    cases hc

omit [DecidableEq α] in
theorem advanceStub (h : Shape st) {d : Drain α} {n : α} (before : st.consumer.linking = none)
    (hstub : st.tail = st.stub) (hnext : st.next st.tail = some n) :
    Shape { st with tail := n, chain := st.chain.tail, consumer := .loadAfterStub d } := by
  obtain ⟨hspine, _, ys, hys⟩ := h.toSpine.advance hnext
  have hnodup := h.nodup
  rw [hys] at hnodup
  refine
    { nodup := hspine.nodup
      first := hspine.first
      last := hspine.last
      links := hspine.links
      pendIn := hspine.pendIn
      inQueue := fun m hm => h.inQueue m (List.mem_of_mem_tail hm)
      stubOwner := h.stubOwner
      holds := h.holds
      cleared := h.cleared
      linking := h.linking
      stubLinking := fun a b => ?_
      stubCleared := fun hc => by cases hc
      stubOut := fun hc => by cases hc
      realTail := fun _ hn => ?_
      heldOwner := h.heldOwner }
  · refine (h.stubLinking a b).trans ?_
    rw [before]
    rfl
  · have hn : n = st.stub := hn
    rw [hstub, hn] at hnodup
    simp at hnodup

theorem take (h : Shape st) {d : Drain α} {n : α} (before : st.consumer.linking = none)
    (real : st.tail ≠ st.stub) (hnext : st.next st.tail = some n) : Shape (st.take d n) := by
  obtain ⟨hspine, _, ys, hys⟩ := h.toSpine.advance hnext
  have hnodup := h.nodup
  rw [hys] at hnodup
  have howner : st.owner st.tail = .queue := (h.inQueue _ h.tail_mem).resolve_left real
  have hother : ∀ m, m ≠ st.tail → ∀ o, st.owner m = o →
      Function.update st.owner st.tail .consumer m = o := by
    intro m hm o ho
    rw [← ho]
    exact Function.update_of_ne hm ..
  have hne : ∀ m o, o ≠ .queue → st.owner m = o → m ≠ st.tail := by
    rintro m o ho hm rfl
    exact ho (hm.symm.trans howner)
  refine
    { nodup := hspine.nodup
      first := hspine.first
      last := hspine.last
      links := hspine.links
      pendIn := hspine.pendIn
      inQueue := fun m hm => ?_
      stubOwner := hother _ (Ne.symm real) _ h.stubOwner
      holds := fun t m hm => ?_
      cleared := h.cleared
      linking := h.linking
      stubLinking := fun a b => ?_
      stubCleared := fun hc => by cases hc
      stubOut := fun hc => by cases hc
      realTail := fun hc => by cases hc
      heldOwner := fun m hm => ?_ }
  · have hm : m ∈ st.chain.tail := hm
    refine (h.inQueue m (List.mem_of_mem_tail hm)).imp id (hother m ?_ _)
    rintro rfl
    rw [hys] at hm
    exact (List.nodup_cons.mp hnodup).1 hm
  · have hold := h.holds t m hm
    exact hother m (hne m _ (by simp) hold) _ hold
  · refine (h.stubLinking a b).trans ?_
    rw [before]
    rfl
  · rcases List.mem_append.mp hm with hin | hin
    · have hold := h.heldOwner m hin
      exact hother m (hne m _ (by simp) hold) _ hold
    · obtain rfl := List.mem_singleton.mp hin
      exact Function.update_self ..

theorem finish (h : Shape st) (d : Drain α) (before : st.consumer.linking = none) :
    Shape (st.finish d) := by
  have hother : ∀ m o, o ≠ .consumer → st.owner m = o →
      (if m ∈ st.held then Owner.caller else st.owner m) = o := by
    intro m o ho hm
    rw [if_neg, hm]
    intro hheld
    exact ho (hm.symm.trans (h.heldOwner m hheld))
  exact
    { h with
      inQueue := fun m hm => (h.inQueue m hm).imp id (hother m _ (by simp))
      stubOwner := hother _ _ (by simp) h.stubOwner
      holds := fun t m hm => hother m _ (by simp) (h.holds t m hm)
      stubLinking := fun a b => by
        refine (h.stubLinking a b).trans ?_
        rw [before]
        rfl
      stubCleared := fun hc => by cases hc
      stubOut := fun hc => by cases hc
      realTail := fun hc => by cases hc
      heldOwner := fun m hm => by cases hm }

theorem stubExchange (h : Shape st) {d : Drain α} (hpc : st.consumer = .stubExchange d) :
    Shape { st.exchangeHead st.stub none with consumer := .stubLink d st.head } := by
  have hout : st.stub ∉ st.chain := h.stubOut (by rw [hpc]; rfl)
  have hclear : st.next st.stub = none := h.stubCleared (by rw [hpc]; rfl)
  have hhead := h.pend_head
  have hspine := h.toSpine.exchangeHead hout hclear none
  refine
    { nodup := hspine.nodup
      first := hspine.first
      last := hspine.last
      links := hspine.links
      pendIn := hspine.pendIn
      inQueue := fun m hm => ?_
      stubOwner := h.stubOwner
      holds := h.holds
      cleared := h.cleared
      linking := fun t a b => ?_
      stubLinking := fun a b => ?_
      stubCleared := fun hc => by cases hc
      stubOut := fun hc => by cases hc
      realTail := fun _ => h.realTail (by rw [hpc]; rfl)
      heldOwner := h.heldOwner }
  · rcases List.mem_append.mp hm with hin | hin
    · exact h.inQueue m hin
    · exact .inl (List.mem_singleton.mp hin)
  · refine (h.linking t a b).trans ?_
    show _ ↔ Function.update st.pend st.head (some (st.stub, none)) a = _
    by_cases ha : a = st.head
    · subst ha
      rw [Function.update_self, hhead]
      simp
    · rw [Function.update_of_ne ha]
  · show Function.update st.pend st.head (some (st.stub, none)) a = _ ↔ b = st.stub ∧
      some st.head = some a
    by_cases ha : a = st.head
    · subst ha
      rw [Function.update_self]
      simp [eq_comm]
    · rw [Function.update_of_ne ha, h.stubLinking a b, hpc]
      simp [ConsumerPc.linking, Ne.symm ha]

theorem stubLink (h : Shape st) {d : Drain α} {prev : α} (hpc : st.consumer = .stubLink d prev) :
    Shape { st.storeLink prev st.stub with consumer := .reload d } := by
  have hp : st.pend prev = some (st.stub, none) :=
    (h.stubLinking prev st.stub).mpr ⟨rfl, by rw [hpc]; rfl⟩
  have hmem : prev ∈ st.chain := h.pendIn prev (by rw [hp]; simp)
  have hspine := h.toSpine.storeLink hp
  refine
    { nodup := hspine.nodup
      first := hspine.first
      last := hspine.last
      links := hspine.links
      pendIn := hspine.pendIn
      inQueue := h.inQueue
      stubOwner := h.stubOwner
      holds := h.holds
      cleared := fun t n hn => ?_
      linking := fun t a b => ?_
      stubLinking := fun a b => ?_
      stubCleared := fun hc => by cases hc
      stubOut := fun hc => by cases hc
      realTail := fun _ => h.realTail (by rw [hpc]; rfl)
      heldOwner := h.heldOwner }
  · have howner := h.holds t n (ProducerPc.holds_of_cleared hn)
    refine (Function.update_of_ne ?_ ..).trans (h.cleared t n hn)
    rintro rfl
    exact h.outside howner (by simp) (by simp) hmem
  · refine (h.linking t a b).trans ?_
    show _ ↔ Function.update st.pend prev none a = _
    by_cases ha : a = prev
    · subst ha
      rw [Function.update_self, hp]
      simp
    · rw [Function.update_of_ne ha]
  · show Function.update st.pend prev none a = _ ↔ b = st.stub ∧ none = some a
    by_cases ha : a = prev
    · subst ha
      rw [Function.update_self]
      simp
    · rw [Function.update_of_ne ha, h.stubLinking a b, hpc]
      simp [ConsumerPc.linking, Ne.symm ha]

end Shape

end

end WepollEx.ReadyQueue
