import WepollEx.Lib.Batch
import WepollEx.System.Interest

/-!
# `epoll_ctl_batch` on Windows

The loop over the operations and its rollback, as calls of `epoll_ctl_port` with a NULL context that
no other thread interleaves with.  A call whose handle still names the registered object changes the
interest of that descriptor, or nothing.  Neither an unnoticed change of the object nor a wake that
cannot be posted is covered by that.
-/

namespace WepollEx

def EFAULT : Errno := 14

/-- A control call with the wake it owes. -/
def ControlOp.call (op : ControlOp) (answers : ControlAnswers) (post : Option Errno) (m : Mem) :
    Option Errno × Mem :=
  match op.run answers m with
  | (.fail e, m) => (some e, m)
  | (.ok false, m) => (none, m)
  | (.ok true, m) =>
    match epPortPostIocp m.port post .control with
    | (none, p) => (none, { m with port := p })
    | (some e, p) =>
      (some e, { m with port := epPortFailIocpPost (p.record (.wakeFailed (m.serialOf op.fd))) e })

/-- What the environment answers one call of the batch. -/
structure CallAnswers where
  control : ControlAnswers
  alloc : AllocAnswers
  /-- The error of the wake post. -/
  post : Option Errno

/-- The control operation behind an operation of the batch. -/
def CallAnswers.operation (answers : CallAnswers) :
    Batch.Op Socket (Events × BitVec 64) → ControlOp
  | .add fd event => .add answers.alloc fd event.1 event.2 0
  | .mod fd event => .mod fd event.1 event.2 0
  | .del fd => .del fd

/-- One call of `epoll_ctl_port` from the batch. -/
def epollCtlPort (answers : CallAnswers) (op : Batch.Op Socket (Events × BitVec 64)) (m : Mem) :
    Option Errno × Mem :=
  if op.key = INVALID_SOCKET then (some EBADF, m)
  else (answers.operation op).call answers.control answers.post m

/-- The operation codes of the batch. -/
inductive CtlOp
  | add | mod | del
  | other (op : Int)
  deriving DecidableEq, Repr

/-- The validation loop; `hasEvents` tells that the caller passed an event array. -/
def batchOps (hasEvents : Bool) : List (CtlOp × Socket × Events × BitVec 64) →
    Except Errno (List (Batch.Op Socket (Events × BitVec 64)))
  | [] => .ok []
  | (op, fd, event) :: items =>
    let next (o : Batch.Op Socket (Events × BitVec 64)) :=
      if fd = INVALID_SOCKET then .error EBADF else (batchOps hasEvents items).map (o :: ·)
    match op with
    | .other _ => .error EINVAL
    | .add => if hasEvents then next (.add fd event) else .error EFAULT
    | .mod => if hasEvents then next (.mod fd event) else .error EFAULT
    | .del => next (.del fd)

/-- `epoll_ctl_batch` on a port it has acquired; `hasArrays` tells that `ops` and `fds` are not
NULL.  The calls of the loop get the answers `forth`, those of its rollback `back`. -/
def epollCtlBatch (forth back : Nat → CallAnswers) (hasArrays hasEvents : Bool)
    (items : List (CtlOp × Socket × Events × BitVec 64)) (m : Mem) : Option Errno × Mem :=
  if items = [] then (some EINVAL, m)
  else if !hasArrays then (some EFAULT, m)
  else match batchOps hasEvents items with
    | .error e => (some e, m)
    | .ok ops => Batch.batch epollCtlPort forth back [] ops m

section

variable {m : Mem} {op : ControlOp} {answers : ControlAnswers} {post : Option Errno}
  {token : Socket → Nat} {listed : Socket → Prop}

theorem call_moves (h : Sound m) (fresh : op.allocatesFresh m = true) :
    MemMoves Control m (op.call answers post m).2 := by
  have hrun := control_run_moves h answers fresh
  unfold ControlOp.call
  generalize op.run answers m = r at hrun ⊢
  obtain ⟨result, m'⟩ := r
  cases result with
  | fail e => exact hrun
  | ok wake =>
    cases wake with
    | false => exact hrun
    | true =>
      dsimp only
      rcases postIocp_cases m'.port post .control with hpost | ⟨e, hpost⟩ <;> rw [hpost]
      · exact hrun.trans (.single (.port (.inl rfl) .post))
      · have hrecord : MemMoves Control m' { m' with
          port := m'.port.record (.wakeFailed (m'.serialOf op.fd)) } :=
            .single (.port (.inl rfl) (.wakeFailed _))
        exact hrun.trans (hrecord.trans (failPost_memMoves (T := Control) (.inl rfl) _ e))

/-- A call whose wake is posted ends as its locked part does. -/
theorem call_posted
    (posted : ∀ m', op.run answers m = (.ok true, m') →
      (epPortPostIocp m'.port post .control).1 = none)
    (recognises : (op.run answers m).2.Recognises token listed) :
    ((∃ e, (op.run answers m).1 = .fail e ∧ (op.call answers post m).1 = some e) ∨
      ∃ wake, (op.run answers m).1 = .ok wake ∧ (op.call answers post m).1 = none) ∧
    (op.call answers post m).2.registered = (op.run answers m).2.registered ∧
    (op.call answers post m).2.Recognises token listed := by
  unfold ControlOp.call
  generalize op.run answers m = r at posted recognises ⊢
  obtain ⟨result, m'⟩ := r
  cases result with
  | fail e => exact ⟨.inl ⟨e, rfl, rfl⟩, rfl, recognises⟩
  | ok wake =>
    cases wake with
    | false => exact ⟨.inr ⟨false, rfl, rfl⟩, rfl, recognises⟩
    | true =>
      have hnone := posted m' rfl
      rcases postIocp_cases m'.port post .control with hpost | ⟨e, hpost⟩
      · dsimp only
        rw [hpost]
        obtain ⟨hview, hrecs⟩ := registered_withPort (q := { m'.port with
          iocp := m'.port.iocp ++ [.control] }) rfl rfl recognises
        exact ⟨.inr ⟨true, rfl, rfl⟩, hview, hrecs⟩
      · rw [hpost] at hnone
        cases hnone

/-- What one call of the batch may rely on: its descriptor names the object that is registered, the
allocator hands out free storage, and a wake that it owes can be posted. -/
structure Steady (token : Socket → Nat) (listed : Socket → Prop) (answers : CallAnswers)
    (op : Batch.Op Socket (Events × BitVec 64)) (m : Mem) : Prop where
  listed : listed op.key
  object : SameObject token op.key answers.control answers.alloc
  fresh : (answers.operation op).allocatesFresh m = true
  posted : ∀ m', (answers.operation op).run answers.control m = (.ok true, m') →
    (epPortPostIocp m'.port answers.post .control).1 = none

theorem operation_changes {answers : CallAnswers} {op : Batch.Op Socket (Events × BitVec 64)}
    (h : Sound m) (recognises : m.Recognises token listed) (steady : Steady token listed answers op m) :
    Changes token listed m op.key op.Fits op.result
      ((answers.operation op).run answers.control m) := by
  cases op with
  | add fd event =>
    refine epollCtlAdd_changes h recognises steady.listed steady.object fun a ha => ?_
    have hfresh := steady.fresh
    simp only [CallAnswers.operation, ControlOp.allocatesFresh, ha,
      Option.isNone_iff_eq_none] at hfresh
    exact hfresh
  | mod fd event => exact epollCtlMod_changes h recognises steady.listed steady.object
  | del fd => exact unregister_changes h recognises steady.listed steady.object

/-- A steady call changes the entry of its descriptor or, if it fails, nothing. -/
theorem epollCtlPort_lawful (token : Socket → Nat) (listed : Socket → Prop) :
    Batch.Lawful epollCtlPort id Mem.registered (Steady token listed)
      (fun m => Sound m ∧ m.Recognises token listed) := by
  constructor
  · rintro answers op m ⟨h, recognises⟩ steady
    have hchanges := operation_changes h recognises steady
    unfold epollCtlPort
    split
    · exact ⟨h, recognises⟩
    · exact ⟨h.memMoves (call_moves h steady.fresh),
        (call_posted steady.posted hchanges.recognises).2.2⟩
  · rintro answers op m e ⟨h, recognises⟩ steady hfail
    have hchanges := operation_changes h recognises steady
    unfold epollCtlPort at hfail ⊢
    split at hfail
    · rw [if_pos ‹_›]
    rw [if_neg ‹_›]
    obtain ⟨⟨e', hrun, -⟩ | ⟨_, -, hnone⟩, hview, -⟩ := call_posted steady.posted hchanges.recognises
    · exact hview.trans (hchanges.fail e' hrun)
    · rw [hnone] at hfail
      cases hfail
  · rintro answers op m ⟨h, recognises⟩ steady hsuccess
    have hchanges := operation_changes h recognises steady
    unfold epollCtlPort at hsuccess ⊢
    split at hsuccess
    · cases hsuccess
    rw [if_neg ‹_›]
    obtain ⟨⟨_, -, hsome⟩ | ⟨wake, hrun, -⟩, hview, -⟩ :=
      call_posted steady.posted hchanges.recognises
    · rw [hsome] at hsuccess
      cases hsuccess
    · obtain ⟨hfits, hupdate⟩ := hchanges.ok wake hrun
      exact ⟨hfits, hview.trans hupdate⟩

end

end WepollEx
