import WepollEx.Posix.Batch
import WepollEx.System.Batch
import WepollEx.System.Environment

/-!
# What a failed `epoll_ctl_batch` leaves behind

Both implementations of `epoll_ctl_batch` undo only additions, and whatever the operations before
the failure repeat, the registered set is the one at entry without the deleted descriptors, with
the interest that was written last.
-/

namespace WepollEx

open Granted

/-- The registered set behind a batch whose operation behind `pre` is the first to fail, and the
error it reports. -/
theorem ctl_batch_failure :
    (∀ (fingerprint : Posix.FileId → Posix.FdIdentity) (forth back : Nat → Posix.CtlAnswers)
      (hasEvents : Bool) (items : List (Posix.CtlOp × Posix.Fd × Posix.EpollEvent))
      (pre post : List (Batch.Op Posix.Fd Posix.EpollEvent))
      (op : Batch.Op Posix.Fd Posix.EpollEvent) (s mid : Posix.Kernel × Posix.Metadata)
      (e : Posix.Errno),
      Posix.batchOps hasEvents items = .ok (pre ++ op :: post) →
      Batch.Smooth (Posix.batchCall fingerprint) forth back (Posix.place s.1.files) Posix.entries
        (fun _ _ _ => True) [] (pre ++ op :: post) s →
      Batch.applied (Posix.batchCall fingerprint) forth 0 pre s = some mid →
      (Posix.batchCall fingerprint (forth pre.length) op mid).1 = some e →
      (Posix.epollCtlBatch fingerprint forth back true hasEvents items s).1 = some e ∧
        Posix.entries (Posix.epollCtlBatch fingerprint forth back true hasEvents items s).2 =
          Batch.survives (Posix.place s.1.files) (Posix.entries s) pre) ∧
    (∀ (lifetime : LifetimeMode) (explicitRearm udpProbeEvent : Bool) (st : Sys)
      (token : Socket → Nat) (forth back : Nat → CallAnswers) (hasEvents : Bool)
      (items : List (CtlOp × Socket × Events × BitVec 64))
      (pre post : List (Batch.Op Socket (Events × BitVec 64)))
      (op : Batch.Op Socket (Events × BitVec 64)) (mid : Mem) (e : Errno),
      Reachable (.create lifetime explicitRearm udpProbeEvent) st →
      batchOps hasEvents items = .ok (pre ++ op :: post) →
      st.mem.Recognises token (fun fd => ∃ o ∈ pre ++ op :: post, o.key = fd) →
      Batch.Smooth epollCtlPort forth back id Mem.registered
        (Steady token fun fd => ∃ o ∈ pre ++ op :: post, o.key = fd) [] (pre ++ op :: post) st.mem →
      Batch.applied epollCtlPort forth 0 pre st.mem = some mid →
      (epollCtlPort (forth pre.length) op mid).1 = some e →
      (epollCtlBatch forth back true hasEvents items st.mem).1 = some e ∧
        (epollCtlBatch forth back true hasEvents items st.mem).2.registered =
          Batch.survives id st.mem.registered pre) := by
  constructor
  · intro fingerprint forth back hasEvents items pre post op s mid e hops hsmooth happ hfail
    have hitems : items ≠ [] := by
      rintro rfl
      simp [Posix.batchOps] at hops
    rw [Posix.epollCtlBatch, if_neg hitems, if_neg (by decide), hops]
    exact Batch.batch_failed (Posix.batchCall_lawful fingerprint s.1.files) rfl hsmooth happ hfail
  · intro lifetime explicitRearm udpProbeEvent st token forth back hasEvents items pre post op mid e
      h hops hrecognises hsmooth happ hfail
    have hitems : items ≠ [] := by
      rintro rfl
      simp [batchOps] at hops
    have hsound := (h.ordered (ordered_create lifetime explicitRearm udpProbeEvent)).sound
    rw [epollCtlBatch, if_neg hitems, if_neg (by decide), hops]
    exact Batch.batch_failed (epollCtlPort_lawful token _) ⟨hsound, hrecognises⟩ hsmooth happ hfail

/-- The environment grants every call but the wake, the descriptor names the endpoint `token`, and a
new registration is stored at `a`. -/
def grantedCall (token : Nat) (post : Option Errno) (a : Addr) : CallAnswers where
  control := { control with
    identity := ⟨.token token, none, true⟩
    submit := { submit with identity := ⟨.token token, none, true⟩ } }
  alloc := { alloc a with endpoint := .token token }
  post := post

theorem grantedCall_object (token : Nat) (post : Option Errno) (a : Addr) (fd : Socket) :
    SameObject (fun _ => token) fd (grantedCall token post a).control
      (grantedCall token post a).alloc where
  endpoint := fun _ h => (EndpointAnswer.token.inj h).symm
  answered := nofun
  soType := nofun
  submit := ⟨nofun, nofun, nofun, nofun, nofun, nofun, nofun⟩
  newEndpoint := fun _ h => (EndpointAnswer.token.inj h).symm
  newBase := by
    rintro info base hinfo hkind
    cases hinfo
    cases hkind
    decide

theorem grantedCall_steady {token : Nat} {post : Option Errno} {a : Addr}
    {op : Batch.Op Socket (Events × BitVec 64)} {m : Mem} {listed : Socket → Prop}
    (hlisted : listed op.key)
    (fresh : ((grantedCall token post a).operation op).allocatesFresh m = true)
    (quiet : (((grantedCall token post a).operation op).run
      (grantedCall token post a).control m).1 ≠ .ok true) :
    Steady (fun _ => token) listed (grantedCall token post a) op m :=
  ⟨hlisted, grantedCall_object token post a _, fresh, fun _ hrun =>
    absurd (congrArg Prod.fst hrun) quiet⟩

/-- An ADD and a MOD before a second ADD of the same descriptor. -/
def repeatedAdd : List (CtlOp × Socket × Events × BitVec 64) :=
  [(.add, 6, EPOLLIN, 1), (.mod, 6, EPOLLOUT, 2), (.add, 6, EPOLLIN, 3)]

/-- The same on POSIX, where the descriptor 6 is open. -/
def posixRepeatedAdd : List (Posix.CtlOp × Posix.Fd × Posix.EpollEvent) :=
  [(.add, 6, ⟨EPOLLIN, 1⟩), (.mod, 6, ⟨EPOLLOUT, 2⟩), (.add, 6, ⟨EPOLLIN, 3⟩)]

def posixOpened : Posix.Kernel × Posix.Metadata :=
  (⟨fun fd => if fd = 6 then some 1 else none, fun _ _ => none⟩, .create)

/-- How the environments answer these batches. -/
def posixRepeated : Option Posix.Errno × Posix.Kernel × Posix.Metadata :=
  Posix.epollCtlBatch (fun _ => ⟨1, 2, 3, 4⟩) (fun _ => ⟨none, none, none, some 50⟩)
    (fun _ => ⟨none, none, none, none⟩) true true posixRepeatedAdd posixOpened

def repeated : Option Errno × Mem :=
  epollCtlBatch (fun i => grantedCall 7 none (101 + i)) (fun _ => grantedCall 7 none 0) true true
    repeatedAdd (Sys.create .bestEffort false false).mem

/-- Nothing is registered afterwards. -/
theorem ctl_batch_failure_repeatedAdd :
    (posixRepeated.1 = some Posix.EEXIST ∧ Posix.entries posixRepeated.2 (6, 1) = none) ∧
      repeated.1 = some EEXIST ∧ repeated.2.registered = fun _ => none := by
  constructor
  · let call := Posix.batchCall (fun _ => ⟨1, 2, 3, 4⟩)
    let forth (_ : Nat) : Posix.CtlAnswers := ⟨none, none, none, some 50⟩
    let back (_ : Nat) : Posix.CtlAnswers := ⟨none, none, none, none⟩
    let pre : List (Batch.Op Posix.Fd Posix.EpollEvent) :=
      [.add 6 ⟨EPOLLIN, 1⟩, .mod 6 ⟨EPOLLOUT, 2⟩]
    let s₁ := (call (forth 0) (.add 6 ⟨EPOLLIN, 1⟩) posixOpened).2
    let s₂ := (call (forth 1) (.mod 6 ⟨EPOLLOUT, 2⟩) s₁).2
    let s₃ := (call (forth 2) (.add 6 ⟨EPOLLIN, 3⟩) s₂).2
    have hcalls : (call (forth 0) (.add 6 ⟨EPOLLIN, 1⟩) posixOpened).1 = none ∧
        (call (forth 1) (.mod 6 ⟨EPOLLOUT, 2⟩) s₁).1 = none ∧
        (call (forth 2) (.add 6 ⟨EPOLLIN, 3⟩) s₂).1 = some Posix.EEXIST ∧
        (call (back 0) (.del 6) s₃).1 = none := by
      decide +kernel
    obtain ⟨h₁, h₂, h₃, h₄⟩ := hcalls
    have hsmooth : Batch.Smooth call forth back (Posix.place posixOpened.1.files) Posix.entries
        (fun _ _ _ => True) [] (pre ++ [.add 6 ⟨EPOLLIN, 3⟩]) posixOpened :=
      .succeed trivial h₁ (.succeed trivial h₂ (.fail trivial h₃ ⟨trivial, fun _ => h₄, trivial⟩))
    have happ : Batch.applied call forth 0 pre posixOpened = some s₂ := by
      rw [Batch.applied_cons h₁, Batch.applied_cons h₂, Batch.applied]
    obtain ⟨herr, hset⟩ := ctl_batch_failure.1 _ forth back true posixRepeatedAdd pre []
      (.add 6 ⟨EPOLLIN, 3⟩) posixOpened s₂ Posix.EEXIST rfl hsmooth happ h₃
    exact ⟨herr, congrFun hset (6, 1)⟩
  · let forth (i : Nat) := grantedCall 7 none (101 + i)
    let back (_ : Nat) := grantedCall 7 none 0
    let pre : List (Batch.Op Socket (Events × BitVec 64)) :=
      [.add 6 (EPOLLIN, 1), .mod 6 (EPOLLOUT, 2)]
    let m := (Sys.create .bestEffort false false).mem
    let m₁ := (epollCtlPort (forth 0) (.add 6 (EPOLLIN, 1)) m).2
    let m₂ := (epollCtlPort (forth 1) (.mod 6 (EPOLLOUT, 2)) m₁).2
    let m₃ := (epollCtlPort (forth 2) (.add 6 (EPOLLIN, 3)) m₂).2
    have hcalls : (epollCtlPort (forth 0) (.add 6 (EPOLLIN, 1)) m).1 = none ∧
        (epollCtlPort (forth 1) (.mod 6 (EPOLLOUT, 2)) m₁).1 = none ∧
        (epollCtlPort (forth 2) (.add 6 (EPOLLIN, 3)) m₂).1 = some EEXIST ∧
        (epollCtlPort (back 0) (.del 6) m₃).1 = none := by
      decide +kernel
    obtain ⟨h₁, h₂, h₃, h₄⟩ := hcalls
    have hlisted : ∃ o ∈ pre ++ [.add 6 (EPOLLIN, 3)], o.key = 6 := ⟨_, List.mem_cons_self, rfl⟩
    have hsmooth : Batch.Smooth epollCtlPort forth back id Mem.registered
        (Steady (fun _ => 7) fun fd => ∃ o ∈ pre ++ [.add 6 (EPOLLIN, 3)], o.key = fd) []
        (pre ++ [.add 6 (EPOLLIN, 3)]) m := by
      refine .succeed (grantedCall_steady hlisted (by decide +kernel) (by decide +kernel)) h₁ ?_
      refine .succeed (grantedCall_steady hlisted (by decide +kernel) (by decide +kernel)) h₂ ?_
      refine .fail (grantedCall_steady hlisted (by decide +kernel) (by decide +kernel)) h₃ ?_
      exact ⟨grantedCall_steady hlisted (by decide +kernel) (by decide +kernel), fun _ => h₄, trivial⟩
    have happ : Batch.applied epollCtlPort forth 0 pre m = some m₂ := by
      rw [Batch.applied_cons h₁, Batch.applied_cons h₂, Batch.applied]
    have hempty : m.Recognises (fun _ => 7) fun fd =>
        ∃ o ∈ pre ++ [.add 6 (EPOLLIN, 3)], o.key = fd := by
      intro fd _ a s named
      have hnone : (none : Option Addr) = some a := named
      cases hnone
    obtain ⟨herr, hset⟩ := ctl_batch_failure.2 .bestEffort false false _ (fun _ => 7) forth back true
      repeatedAdd pre [] (.add 6 (EPOLLIN, 3)) m₂ EEXIST .refl rfl hempty hsmooth happ h₃
    refine ⟨herr, hset.trans ?_⟩
    funext fd
    rfl

/-- The registration of a socket whose oneshot has fired and whose receive side is shut down, with
a waiter that blocks. -/
def shutDownWaited : List Act :=
  waitUntilBlocked 8 ++ [add (EPOLLIN ||| EPOLLONESHOT), receive] ++ takePacket ++
    List.replicate 7 (.waiter wait) ++ [.control (.shutdown 5 .receive) control] ++
    waitUntilBlocked 8

/-- Two corners of the Windows implementation.  An ADD of a descriptor whose registration is of an
object closed before the call replaces that registration, and the rollback then removes the
descriptor, although nothing before the failure deletes it.  A MOD that cannot post the wake it
owes fails, and yet its interest stays. -/
theorem ctl_batch_failure_corners :
    (∃ st, Reachable (.create .bestEffort false false) st ∧
      (∀ fd, SameObject (fun _ => 8) fd (grantedCall 8 none 101).control
        (grantedCall 8 none 101).alloc) ∧
      st.mem.registered 5 = some (EPOLLIN, 42) ∧
      (epollCtlBatch (fun _ => grantedCall 8 none 101) (fun _ => grantedCall 8 none 101) true true
        [(.add, 5, EPOLLIN, 9), (.mod, 6, EPOLLIN, 10)] st.mem).1 = some ENOENT ∧
      (epollCtlBatch (fun _ => grantedCall 8 none 101) (fun _ => grantedCall 8 none 101) true true
        [(.add, 5, EPOLLIN, 9), (.mod, 6, EPOLLIN, 10)] st.mem).2.registered 5 = none) ∧
    ∃ st, Reachable (.create .bestEffort false false) st ∧
      st.mem.registered 5 = some (EPOLLIN ||| EPOLLONESHOT, 42) ∧
      (epollCtlBatch (fun _ => grantedCall 7 (some EIO) 101) (fun _ => grantedCall 7 none 101) true
        true [(.mod, 5, EPOLLIN, 9)] st.mem).1 = some EIO ∧
      (epollCtlBatch (fun _ => grantedCall 7 (some EIO) 101) (fun _ => grantedCall 7 none 101) true
        true [(.mod, 5, EPOLLIN, 9)] st.mem).2.registered 5 = some (EPOLLIN, 9) := by
  have hreused : ((Sys.create .bestEffort false false).run [add EPOLLIN]).map (fun st =>
      let r := epollCtlBatch (fun _ => grantedCall 8 none 101) (fun _ => grantedCall 8 none 101) true
        true [(.add, 5, EPOLLIN, 9), (.mod, 6, EPOLLIN, 10)] st.mem
      (st.mem.registered 5, r.1, r.2.registered 5)) =
        some (some (EPOLLIN, 42), some ENOENT, none) := by
    decide +kernel
  have hunposted : ((Sys.create .bestEffort false false).run shutDownWaited).map (fun st =>
      let r := epollCtlBatch (fun _ => grantedCall 7 (some EIO) 101)
        (fun _ => grantedCall 7 none 101) true true [(.mod, 5, EPOLLIN, 9)] st.mem
      (st.mem.registered 5, r.1, r.2.registered 5)) =
        some (some (EPOLLIN ||| EPOLLONESHOT, 42), some EIO, some (EPOLLIN, 9)) := by
    decide +kernel
  obtain ⟨st, hst, hend⟩ := Option.map_eq_some_iff.mp hreused
  obtain ⟨st', hst', hend'⟩ := Option.map_eq_some_iff.mp hunposted
  simp only [Prod.mk.injEq] at hend hend'
  exact ⟨⟨st, Reachable.refl.of_run hst, grantedCall_object 8 none 101, hend⟩,
    st', Reachable.refl.of_run hst', hend'⟩

end WepollEx
