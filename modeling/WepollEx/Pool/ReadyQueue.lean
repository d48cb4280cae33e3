import Mathlib.Logic.Function.Basic
import WepollEx.Lib.Transition

/-!
# The ready queue at the level of atomic operations

`ep_ready_push` and `ep_ready_drain` on a queue of nodes: any number of producers and one consumer,
cut at every atomic operation.  A producer clears its node's link, counts the push, exchanges
`head` and only then stores the link from the previous head, so the consumer meets chains with
missing links.

The ghost fields say which nodes are in the queue (`chain`), which links are still to be stored
(`pend`), to whom each node belongs (`owner`), and what was pushed and returned so far.
-/

namespace WepollEx.ReadyQueue

abbrev Tid := Nat

/-- Who may write to a node. -/
inductive Owner
  | caller
  | producer (t : Tid)
  | queue
  | consumer
  | stub
  deriving DecidableEq, Repr

variable {α : Type}

/-- `ep_ready_link` of a pushed node, by the operation that comes next. -/
inductive ProducerPc (α : Type)
  | idle
  | clear (node : α)
  | count (node : α)
  | exchange (node : α)
  | link (prev node : α)
  deriving DecidableEq, Repr

/-- The local variables of `ep_ready_drain`. -/
structure Drain (α : Type) where
  maxevents : Nat
  count : Nat
  outHead : Option α
  outTail : Option α
  deriving DecidableEq, Repr

/-- `ep_ready_drain` and `ep_ready_pop_one`, by the operation that comes next. -/
inductive ConsumerPc (α : Type)
  | idle
  | load (d : Drain α)
  /-- The tail was the stub and has been moved on. -/
  | loadAfterStub (d : Drain α)
  | loadHead (d : Drain α)
  /-- `ep_ready_link` of the stub. -/
  | stubClear (d : Drain α)
  | stubExchange (d : Drain α)
  | stubLink (d : Drain α) (prev : α)
  | reload (d : Drain α)
  /-- A node was taken: clear its link and count the pop. -/
  | clear (d : Drain α) (node : α)
  | account (d : Drain α) (node : α)
  | compareExchange (d : Drain α) (node : α) (queued : Nat)
  /-- Link the node to the nodes taken before. -/
  | append (d : Drain α) (node last : α)
  deriving DecidableEq, Repr

structure State (α : Type) where
  next : α → Option α
  head : α
  tail : α
  stub : α
  queued : Nat
  producer : Tid → ProducerPc α
  consumer : ConsumerPc α
  /-- What the last drain returned. -/
  result : Option α
  /-- Ghost: the nodes from the tail to the head, in the order of their exchanges. -/
  chain : List α
  /-- Ghost: the link from a node that a producer, or the consumer, is about to store. -/
  pend : α → Option (α × Option Tid)
  /-- Ghost: to whom a node belongs. -/
  owner : α → Owner
  /-- Ghost: the nodes each producer has pushed, in the order of its calls. -/
  begun : Tid → List α
  /-- Ghost: the pushes in the order of their exchanges. -/
  pushed : List (Tid × α)
  /-- Ghost: the nodes the current drain has taken. -/
  held : List α
  /-- Ghost: the nodes that earlier drains have returned. -/
  returned : List α
  /-- Ghost: pushes that were counted, and pops that were. -/
  counted : Nat
  accounted : Nat
  /-- Ghost: the producers that have counted their push and not exchanged it yet. -/
  counting : List Tid

section

variable [DecidableEq α]

/-- `ep_ready_init`. -/
def init (stub : α) : State α where
  next := fun _ => none
  head := stub
  tail := stub
  stub := stub
  queued := 0
  producer := fun _ => .idle
  consumer := .idle
  result := none
  chain := [stub]
  pend := fun _ => none
  owner := fun n => if n = stub then .stub else .caller
  begun := fun _ => []
  pushed := []
  held := []
  returned := []
  counted := 0
  accounted := 0
  counting := []

namespace State

def setProducer (st : State α) (t : Tid) (pc : ProducerPc α) : State α :=
  { st with producer := Function.update st.producer t pc }

def store (st : State α) (node : α) (v : Option α) : State α :=
  { st with next := Function.update st.next node v }

/-- Exchange `head` for `node`; `w` will store the link from the old head. -/
def exchangeHead (st : State α) (node : α) (w : Option Tid) : State α :=
  { st with
    head := node
    chain := st.chain ++ [node]
    pend := Function.update st.pend st.head (some (node, w)) }

/-- Store the link from `prev` to `node`. -/
def storeLink (st : State α) (prev node : α) : State α :=
  { st.store prev (some node) with pend := Function.update st.pend prev none }

/-- `ep_ready_push` is called with a node of the caller's. -/
def push (st : State α) (t : Tid) (node : α) : Option (State α) :=
  if st.producer t = .idle ∧ st.owner node = .caller then
    some ({ st with
      owner := Function.update st.owner node (.producer t)
      begun := Function.update st.begun t (st.begun t ++ [node]) }.setProducer t (.clear node))
  else none

/-- The next operation of a push. -/
def producerStep (st : State α) (t : Tid) : Option (State α) :=
  match st.producer t with
  | .idle => none
  | .clear node => some ((st.store node none).setProducer t (.count node))
  | .count node =>
    some ({ st with
      queued := st.queued + 1
      counted := st.counted + 1
      counting := t :: st.counting }.setProducer t (.exchange node))
  | .exchange node =>
    some ({ st.exchangeHead node (some t) with
      owner := Function.update st.owner node .queue
      pushed := st.pushed ++ [(t, node)]
      counting := st.counting.erase t }.setProducer t (.link st.head node))
  | .link prev node => some ((st.storeLink prev node).setProducer t .idle)

/-- `ep_ready_drain` returns. -/
def finish (st : State α) (d : Drain α) : State α :=
  { st with
    consumer := .idle
    result := d.outHead
    owner := fun n => if n ∈ st.held then .caller else st.owner n
    held := []
    returned := st.returned ++ st.held }

/-- The loop of `ep_ready_drain` after a node was added to its list. -/
def again (st : State α) (d : Drain α) : State α :=
  if d.count < d.maxevents then { st with consumer := .load d } else st.finish d

/-- `ep_ready_pop_one` has returned `node`. -/
def accept (st : State α) (d : Drain α) (node : α) : State α :=
  match d.outTail with
  | none =>
    st.again { d with outHead := some node, outTail := some node, count := d.count + 1 }
  | some last => { st with consumer := .append d node last }

/-- The tail moves on to `n` and its old node is taken. -/
def take (st : State α) (d : Drain α) (n : α) : State α :=
  { st with
    tail := n
    chain := st.chain.tail
    owner := Function.update st.owner st.tail .consumer
    held := st.held ++ [st.tail]
    consumer := .clear d st.tail }

/-- The tail is a real node: take it if it is linked to another one. -/
def takeOrLoadHead (st : State α) (d : Drain α) : State α :=
  match st.next st.tail with
  | some n => st.take d n
  | none => { st with consumer := .loadHead d }

/-- The next operation of the consumer; `spurious` makes a weak compare-exchange fail. -/
def consumerStep (st : State α) (spurious : Bool) : Option (State α) :=
  match st.consumer with
  | .idle => none
  | .load d =>
    if st.tail = st.stub then
      match st.next st.tail with
      | none => some (st.finish d)
      | some n => some { st with tail := n, chain := st.chain.tail, consumer := .loadAfterStub d }
    else some (st.takeOrLoadHead d)
  | .loadAfterStub d => some (st.takeOrLoadHead d)
  | .loadHead d =>
    -- a producer that has exchanged the head has not linked its node yet
    if st.tail ≠ st.head then some (st.finish d) else some { st with consumer := .stubClear d }
  | .stubClear d => some { st.store st.stub none with consumer := .stubExchange d }
  | .stubExchange d =>
    some { st.exchangeHead st.stub none with consumer := .stubLink d st.head }
  | .stubLink d prev => some { st.storeLink prev st.stub with consumer := .reload d }
  | .reload d =>
    match st.next st.tail with
    | none => some (st.finish d)
    | some n => some (st.take d n)
  | .clear d node => some { st.store node none with consumer := .account d node }
  | .account d node =>
    if 0 < st.queued then some { st with consumer := .compareExchange d node st.queued }
    else some (st.accept d node)
  | .compareExchange d node queued =>
    if !spurious ∧ st.queued = queued then
      some ({ st with queued := queued - 1, accounted := st.accounted + 1 }.accept d node)
    else if 0 < st.queued then some { st with consumer := .compareExchange d node st.queued }
    else some (st.accept d node)
  | .append d node last =>
    some ((st.store last (some node)).again
      { d with outTail := some node, count := d.count + 1 })

/-- `ep_ready_drain` is called. -/
def drain (st : State α) (maxevents : Nat) : Option (State α) :=
  if st.consumer = .idle ∧ 0 < maxevents then
    some { st with consumer := .load ⟨maxevents, 0, none, none⟩ }
  else none

end State

inductive Act (α : Type)
  | push (t : Tid) (node : α)
  | producer (t : Tid)
  | drain (maxevents : Nat)
  | consumer (spurious : Bool)
  deriving DecidableEq, Repr

def step (st : State α) : Act α → Option (State α)
  | .push t node => st.push t node
  | .producer t => st.producerStep t
  | .drain maxevents => st.drain maxevents
  | .consumer spurious => st.consumerStep spurious

end

end WepollEx.ReadyQueue
