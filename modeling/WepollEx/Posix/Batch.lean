import WepollEx.Lib.Batch
import WepollEx.Posix.Agreement

/-!
# `epoll_ctl_batch` on POSIX

The loop over the operations and its rollback, as calls of `port_ctl_ctx` with a NULL context.  Each
call changes the native interest list at the descriptor it names and the file that is open there, or
not at all, whatever the metadata holds.
-/

namespace WepollEx.Posix

/-- One call of `port_ctl_ctx` from the batch. -/
def batchCall (fingerprint : FileId → FdIdentity) (answers : CtlAnswers)
    (op : Batch.Op Fd EpollEvent) (s : Kernel × Metadata) : Option Errno × Kernel × Metadata :=
  match op with
  | .add fd event => portCtlCtx fingerprint answers .add fd (some event) 0 s.1 s.2
  | .mod fd event => portCtlCtx fingerprint answers .mod fd (some event) 0 s.1 s.2
  | .del fd => portCtlCtx fingerprint answers .del fd none 0 s.1 s.2

/-- The validation loop; `hasEvents` tells that the caller passed an event array. -/
def batchOps (hasEvents : Bool) :
    List (CtlOp × Fd × EpollEvent) → Except Errno (List (Batch.Op Fd EpollEvent))
  | [] => .ok []
  | (.other _, _, _) :: _ => .error EINVAL
  | (.add, fd, event) :: items =>
    if hasEvents then (batchOps hasEvents items).map (.add fd event :: ·) else .error EFAULT
  | (.mod, fd, event) :: items =>
    if hasEvents then (batchOps hasEvents items).map (.mod fd event :: ·) else .error EFAULT
  | (.del, fd, _) :: items => (batchOps hasEvents items).map (.del fd :: ·)

/-- `epoll_ctl_batch` on a port it has acquired; `hasArrays` tells that `ops` and `fds` are not
NULL.  The calls of the loop get the answers `forth`, those of its rollback `back`. -/
def epollCtlBatch (fingerprint : FileId → FdIdentity) (forth back : Nat → CtlAnswers)
    (hasArrays hasEvents : Bool) (items : List (CtlOp × Fd × EpollEvent)) (s : Kernel × Metadata) :
    Option Errno × Kernel × Metadata :=
  if items = [] then (some EINVAL, s)
  else if !hasArrays then (some EFAULT, s)
  else match batchOps hasEvents items with
    | .error e => (some e, s)
    | .ok ops => Batch.batch (batchCall fingerprint) forth back [] ops s

section

variable {fingerprint : FileId → FdIdentity} {answers : CtlAnswers} {op : CtlOp} {fd : Fd}
  {event : Option EpollEvent} {ctx : Ctx} {k : Kernel} {m : Metadata} {p : Pending}

/-- A MOD that has passed the selection has a node to write to. -/
theorem ctlSelect_mod {identity : FdIdentity} {reserve node reserved : Option NodeId}
    (h : ctlSelect m .mod fd identity reserve = .ok (node, reserved)) :
    (∃ a n, node = some a ∧ m.nodes a = some n) ∨ reserved ≠ none := by
  unfold ctlSelect at h
  generalize hfind : m.nodeFindIdentityLocked fd identity = r at h
  obtain ⟨found, identityMatches⟩ := r
  dsimp only at h
  split at h
  · cases h
  split at h
  · split at h
    · cases h
    · cases h
      exact .inr nofun
  · rename_i hfound
    cases h
    obtain ⟨a, rfl⟩ := Option.ne_none_iff_exists'.mp fun hnone => hfound ⟨rfl, hnone⟩
    have hmem : a ∈ (m.fdChain (fdSlot fd)).filter fun a =>
        (m.nodes a).any fun n => n.fd = fd && n.identity = identity := by
      simp only [Metadata.nodeFindIdentityLocked, Prod.mk.injEq] at hfind
      split at hfind
      · rename_i b hfilter
        obtain rfl := Option.some.inj hfind.1
        rw [hfilter]
        exact List.mem_singleton_self _
      · cases hfind.1
    have hany := (List.mem_filter.mp hmem).2
    cases hn : m.nodes a with
    | none =>
      rw [hn] at hany
      cases hany
    | some n => exact .inl ⟨a, n, rfl, hn⟩

/-- A second half that fails has taken the registration of an ADD back. -/
theorem ctlCommit_native (answers : CtlAnswers) (k : Kernel) (hadd : p.op = .add → p.node = none ∧ p.reserved = none)
    (hmod : p.op = .mod → (∃ a n, p.node = some a ∧ m.nodes a = some n) ∨ p.reserved ≠ none)
    (hop : ∀ code, p.op ≠ .other code) :
    ((ctlCommit answers p k m).1 = none ∧ (ctlCommit answers p k m).2.1 = k) ∨
      (p.op = .add ∧ (ctlCommit answers p k m).1 ≠ none ∧
        (ctlCommit answers p k m).2.1 =
          match epollCtl k .del p.fd p.event none with
          | .ok k' => k'
          | .error _ => k) := by
  unfold ctlCommit
  cases hcode : p.op with
  | other code => exact absurd hcode (hop code)
  | del =>
    left
    dsimp only
    split
    · exact ⟨rfl, rfl⟩
    · split <;> exact ⟨rfl, rfl⟩
  | mod =>
    left
    dsimp only
    split
    · exact ⟨rfl, rfl⟩
    · rename_i hnone
      rcases hmod hcode with ⟨a, n, hnode, hn⟩ | hreserved
      · simp [hnode, hn] at hnone
      · obtain ⟨a, ha⟩ := Option.ne_none_iff_exists'.mp hreserved
        rw [ha]
        exact ⟨rfl, rfl⟩
  | add =>
    obtain ⟨hnode, hreserved⟩ := hadd hcode
    rw [hnode, hreserved]
    cases hans : answers.node with
    | some a => exact .inl ⟨rfl, rfl⟩
    | none =>
      refine .inr ⟨rfl, ?_⟩
      dsimp only [Option.bind_none]
      have hnone : ((none : Option NodeId) <|> none) = none := rfl
      rw [hnone]
      cases hdel : epollCtl k .del p.fd p.event none with
      | error e => exact ⟨nofun, rfl⟩
      | ok k' => exact ⟨nofun, rfl⟩

theorem setNative_setNative (k : Kernel) (fd : Fd) (file : FileId) (e e' : Option EpollEvent) :
    (k.setNative fd file e).setNative fd file e' = k.setNative fd file e' := by
  simp [Kernel.setNative]

theorem setNative_same {file : FileId} {e : Option EpollEvent} (h : k.native fd file = e) :
    k.setNative fd file e = k := by
  subst h
  simp [Kernel.setNative]

/-- What a control call does to the native interest list. -/
theorem portCtlCtx_native (hop : ∀ code, op ≠ .other code) :
    ((portCtlCtx fingerprint answers op fd event ctx k m).1 ≠ none ∧
      (portCtlCtx fingerprint answers op fd event ctx k m).2.1 = k) ∨
    ((portCtlCtx fingerprint answers op fd event ctx k m).1 = none ∧
      ∃ file new, k.files fd = some file ∧
        Turns op (event.getD ⟨0, 0⟩) (k.native fd file) new ∧
        (portCtlCtx fingerprint answers op fd event ctx k m).2.1 = k.setNative fd file new) := by
  unfold portCtlCtx
  cases hnative : ctlNative fingerprint answers op fd event ctx k m with
  | error e => exact .inl ⟨nofun, rfl⟩
  | ok r =>
    obtain ⟨p, k'⟩ := r
    obtain ⟨identity, node, reserved, -, hselect, hctl, rfl⟩ := ctlNative_passed hnative
    obtain ⟨file, new, hfile, hturns, rfl⟩ := epollCtl_ok hctl
    dsimp only
    have hadd : op = .add → node = none ∧ reserved = none := by
      rintro rfl
      cases hselect
      exact ⟨rfl, rfl⟩
    have hmod : op = .mod → (∃ a n, node = some a ∧ m.nodes a = some n) ∨ reserved ≠ none := by
      rintro rfl
      exact ctlSelect_mod hselect
    rcases ctlCommit_native (p := ⟨op, fd, identity, event.getD ⟨0, 0⟩, ctx, node, reserved⟩)
        answers (k.setNative fd file new) hadd hmod hop with
      ⟨hok, hk⟩ | ⟨hcode, hfail, hk⟩
    · exact .inr ⟨hok, file, new, hfile, hturns, hk⟩
    · refine .inl ⟨hfail, ?_⟩
      obtain rfl : op = .add := hcode
      generalize hold : k.native fd file = old at hturns
      cases hturns
      rw [hk]
      simp only [epollCtl, show (k.setNative fd file _).files fd = some file from hfile,
        setNative_self, setNative_setNative]
      exact setNative_same hold

end

/-! ## The law -/

/-- The registration of the descriptor's open file. -/
def place (files : Fd → Option FileId) (fd : Fd) : Fd × FileId := (fd, (files fd).getD 0)

def entries (s : Kernel × Metadata) (p : Fd × FileId) : Option EpollEvent := s.1.native p.1 p.2

theorem entries_setNative (k : Kernel) (m m' : Metadata) (fd : Fd) (file : FileId)
    (e : Option EpollEvent) :
    entries (k.setNative fd file e, m') = Function.update (entries (k, m)) (fd, file) e := by
  funext ⟨fd', file'⟩
  by_cases hfd : fd' = fd
  · subst hfd
    by_cases hfile : file' = file
    · subst hfile
      rw [Function.update_self]
      exact setNative_self ..
    · rw [Function.update_of_ne (by simp [hfile])]
      exact setNative_file _ _ _ hfile
  · rw [Function.update_of_ne (by simp [hfd])]
    exact congrFun (setNative_fd k file e hfd) file'

/-- Each call changes the registration it names, or nothing. -/
theorem batchCall_lawful (fingerprint : FileId → FdIdentity) (files : Fd → Option FileId) :
    Batch.Lawful (batchCall fingerprint) (place files) entries (fun _ _ _ => True)
      (fun s => s.1.files = files) := by
  have hcall : ∀ answers op s, ∃ code event, (∀ c, code ≠ .other c) ∧
      batchCall fingerprint answers op s =
        portCtlCtx fingerprint answers code op.key event 0 s.1 s.2 ∧
      ∀ old new, Turns code (event.getD ⟨0, 0⟩) old new → op.Fits old ∧ new = op.result := by
    intro answers op s
    cases op with
    | add fd event =>
      refine ⟨.add, some event, nofun, rfl, ?_⟩
      rintro old new ⟨⟩
      exact ⟨rfl, rfl⟩
    | mod fd event =>
      refine ⟨.mod, some event, nofun, rfl, ?_⟩
      rintro old new ⟨⟩
      exact ⟨nofun, rfl⟩
    | del fd =>
      refine ⟨.del, none, nofun, rfl, ?_⟩
      rintro old new ⟨⟩
      exact ⟨nofun, rfl⟩
  refine ⟨?_, ?_, ?_⟩
  · intro answers op s hfiles _
    obtain ⟨code, event, hcode, heq, -⟩ := hcall answers op s
    rw [heq]
    rcases portCtlCtx_native hcode with ⟨-, hk⟩ | ⟨-, file, new, -, -, hk⟩
    · rw [hk]
      exact hfiles
    · rw [hk]
      exact hfiles
  · intro answers op s e _ _ hfail
    obtain ⟨code, event, hcode, heq, -⟩ := hcall answers op s
    rw [heq] at hfail ⊢
    rcases portCtlCtx_native hcode with ⟨-, hk⟩ | ⟨hok, -⟩
    · funext p
      rw [entries, hk]
      rfl
    · rw [hok] at hfail
      cases hfail
  · intro answers op s hfiles _ hok
    obtain ⟨code, event, hcode, heq, hturns⟩ := hcall answers op s
    rw [heq] at hok ⊢
    rcases portCtlCtx_native hcode with ⟨hfail, -⟩ | ⟨-, file, new, hfile, hturn, hk⟩
    · exact absurd hok hfail
    · have hplace : place files op.key = (op.key, file) := by
        rw [place, ← hfiles, hfile]
        rfl
      obtain ⟨hfits, rfl⟩ := hturns _ _ hturn
      rw [hplace]
      refine ⟨hfits, ?_⟩
      rw [← entries_setNative s.1 s.2 (portCtlCtx fingerprint answers code op.key event 0 s.1 s.2).2.2,
        ← hk]

end WepollEx.Posix
