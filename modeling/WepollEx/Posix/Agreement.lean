import WepollEx.Posix.Index

/-!
# The native interest list and the nodes

While no control call holds the port's lock, a descriptor has a node exactly when it has a native
registration, and the node has the fingerprint of the registered file and the event the kernel
holds.  A control call breaks this for its own descriptor between its native `epoll_ctl` and its
last write, and for no other.
-/

namespace WepollEx.Posix

namespace Metadata

/-- No node has the descriptor. -/
def Absent (m : Metadata) (fd : Fd) : Prop := ∀ a n, m.nodes a = some n → n.fd ≠ fd

/-- `m'` has the node `new` for the descriptor, or none, and the nodes of `m` otherwise. -/
structure Sets (m m' : Metadata) (fd : Fd) (new : Option Node) : Prop where
  others : ∀ a n, n.fd ≠ fd → (m'.nodes a = some n ↔ m.nodes a = some n)
  gone : new = none → m'.Absent fd
  here : ∀ n, new = some n → n.fd = fd ∧ ∃ a, m'.nodes a = some n

variable {m m' : Metadata} {a : NodeId} {fd : Fd} {n n' : Node}

theorem Sets.put (hnodes : m'.nodes = Function.update m.nodes a (some n)) (hfd : n.fd = fd)
    (hold : ∀ n', m.nodes a = some n' → n'.fd = fd) : m.Sets m' fd (some n) where
  others := by
    intro b n' hn'
    rw [hnodes]
    by_cases hb : b = a
    · rw [hb, Function.update_self]
      constructor
      · intro h
        exact absurd ((Option.some.inj h) ▸ hfd) hn'
      · intro h
        exact absurd (hold n' h) hn'
    · rw [Function.update_of_ne hb]
  gone := nofun
  here := by
    intro n' h
    cases h
    exact ⟨hfd, a, by rw [hnodes, Function.update_self]⟩

theorem Sets.drop (hvalid : m.Valid) (hnodes : m'.nodes = Function.update m.nodes a none)
    (ha : m.nodes a = some n) (hfd : n.fd = fd) : m.Sets m' fd none where
  others := by
    intro b n' hn'
    rw [hnodes]
    by_cases hb : b = a
    · rw [hb, Function.update_self, ha]
      constructor
      · exact nofun
      · intro h
        exact absurd ((Option.some.inj h) ▸ hfd) hn'
    · rw [Function.update_of_ne hb]
  gone := by
    intro _ b n' hb
    rw [hnodes] at hb
    by_cases hba : b = a
    · rw [hba, Function.update_self] at hb
      cases hb
    · rw [Function.update_of_ne hba] at hb
      exact fun hn' => hba (hvalid.distinct b a n' n hb ha (hn'.trans hfd.symm))
  here := nofun

/-- The context and the event of the latest ADD or MOD of each registered descriptor. -/
def Latest (m : Metadata) (latest : Fd → Option (Ctx × EpollEvent)) : Prop :=
  ∀ fd ctx event, latest fd = some (ctx, event) ↔
    ∃ a n, m.nodes a = some n ∧ n.fd = fd ∧ n.userCtx = ctx ∧ n.event = event

theorem Latest.sets {latest : Fd → Option (Ctx × EpollEvent)} {new : Option Node}
    (h : m.Latest latest) (hvalid : m'.Valid) (hs : m.Sets m' fd new) :
    m'.Latest (Function.update latest fd (new.map fun n => (n.userCtx, n.event))) := by
  intro fd' ctx event
  by_cases hfd : fd' = fd
  · subst hfd
    rw [Function.update_self]
    cases new with
    | none =>
      simp only [Option.map_none]
      constructor
      · exact nofun
      · rintro ⟨a, n, ha, hn, -⟩
        exact absurd hn (hs.gone rfl a n ha)
    | some n =>
      obtain ⟨hn, a, ha⟩ := hs.here n rfl
      simp only [Option.map_some, Option.some.injEq, Prod.mk.injEq]
      constructor
      · rintro ⟨rfl, rfl⟩
        exact ⟨a, n, ha, hn, rfl, rfl⟩
      · rintro ⟨b, n', hb, hn', hctx, hevent⟩
        obtain rfl := hvalid.distinct a b n n' ha hb (hn.trans hn'.symm)
        obtain rfl := Option.some.inj (ha.symm.trans hb)
        exact ⟨hctx, hevent⟩
  · rw [Function.update_of_ne hfd, h fd' ctx event]
    constructor
    · rintro ⟨a, n, ha, hn, hrest⟩
      exact ⟨a, n, (hs.others a n (hn ▸ hfd)).mpr ha, hn, hrest⟩
    · rintro ⟨a, n, ha, hn, hrest⟩
      exact ⟨a, n, (hs.others a n (hn ▸ hfd)).mp ha, hn, hrest⟩

end Metadata

/-! ## Agreement -/

section

variable (fingerprint : FileId → FdIdentity)

/-- The native registration of the descriptor is of the file it names, and it has a node. -/
structure Agrees (k : Kernel) (m : Metadata) (fd : Fd) : Prop where
  current : ∀ file, k.files fd ≠ some file → k.native fd file = none
  absent : (∀ file, k.native fd file = none) → m.Absent fd
  present : ∀ file event, k.native fd file = some event →
    ∃ a n, m.nodes a = some n ∧ n.fd = fd ∧ n.identity = fingerprint file ∧ n.event = event

/-- What holds of the descriptor of a control call between its two halves. -/
structure Underway (k : Kernel) (m : Metadata) (p : Pending) (file : FileId) : Prop where
  opened : k.files p.fd = some file
  identity : p.identity = fingerprint file
  others : ∀ file', file' ≠ file → k.native p.fd file' = none
  state :
    (p.op = .add ∧ k.native p.fd file = some p.event ∧ m.Absent p.fd ∧ p.node = none ∧
      p.reserved = none) ∨
    ∃ a n, p.node = some a ∧ m.nodes a = some n ∧ n.fd = p.fd ∧ n.identity = fingerprint file ∧
      ((p.op = .mod ∧ k.native p.fd file = some p.event) ∨
        (p.op = .del ∧ k.native p.fd file = none))

variable {fingerprint} {k k' : Kernel} {m m' : Metadata} {fd : Fd} {p : Pending} {file : FileId}
  {op : CtlOp} {event : Option EpollEvent} {ctx : Ctx} {answers : CtlAnswers}

theorem Agrees.frame {fd' : Fd} {new : Option Node} (h : Agrees fingerprint k m fd') (hfd : fd' ≠ fd)
    (hfiles : k'.files fd' = k.files fd') (hnative : k'.native fd' = k.native fd')
    (hs : m.Sets m' fd new) : Agrees fingerprint k' m' fd' where
  current := by
    rw [hfiles, hnative]
    exact h.current
  absent := by
    rw [hnative]
    intro hnone a n ha hn
    exact h.absent hnone a n ((hs.others a n (hn ▸ hfd)).mp ha) hn
  present := by
    rw [hnative]
    intro file event hev
    obtain ⟨a, n, ha, hn, hrest⟩ := h.present file event hev
    exact ⟨a, n, (hs.others a n (hn ▸ hfd)).mpr ha, hn, hrest⟩

/-- The nodes stay. -/
theorem Agrees.kernel (h : Agrees fingerprint k m fd) (hfiles : k'.files fd = k.files fd)
    (hnative : k'.native fd = k.native fd) : Agrees fingerprint k' m fd where
  current := by
    rw [hfiles, hnative]
    exact h.current
  absent := by
    rw [hnative]
    exact h.absent
  present := by
    rw [hnative]
    exact h.present

theorem Agrees.node_unique {k : Kernel} {m : Metadata} {fd : Fd} {a : NodeId} {n : Node}
    (h : Agrees fingerprint k m fd) (hvalid : m.Valid) (ha : m.nodes a = some n) (hfd : n.fd = fd) :
    ∃! file, k.native fd file = some n.event := by
  obtain ⟨file, hfile⟩ : ∃ file, k.native fd file ≠ none := by
    by_contra hnone
    push Not at hnone
    exact h.absent hnone a n ha hfd
  have hopen : ∀ file', k.native fd file' ≠ none → k.files fd = some file' := by
    intro file' hne
    by_contra hclosed
    exact hne (h.current file' hclosed)
  obtain ⟨event, hevent⟩ := Option.ne_none_iff_exists'.mp hfile
  obtain ⟨b, n', hb, hfd', -, rfl⟩ := h.present file event hevent
  obtain rfl := hvalid.distinct b a n' n hb ha (hfd'.trans hfd.symm)
  obtain rfl := Option.some.inj (hb.symm.trans ha)
  refine ⟨file, hevent, fun file' hfile' => ?_⟩
  have h1 := hopen file' (by rw [hfile']; nofun)
  rw [hopen file hfile] at h1
  exact (Option.some.inj h1).symm


theorem setNative_self (k : Kernel) (fd : Fd) (file : FileId) (e : Option EpollEvent) :
    (k.setNative fd file e).native fd file = e := by
  simp [Kernel.setNative]

theorem setNative_file (k : Kernel) (fd : Fd) {file file' : FileId} (e : Option EpollEvent)
    (h : file' ≠ file) : (k.setNative fd file e).native fd file' = k.native fd file' := by
  simp [Kernel.setNative, Function.update_of_ne h]

theorem setNative_fd (k : Kernel) {fd fd' : Fd} (file : FileId) (e : Option EpollEvent)
    (h : fd' ≠ fd) : (k.setNative fd file e).native fd' = k.native fd' := by
  simp [Kernel.setNative, Function.update_of_ne h]

/-- The entry of the operation's descriptor in the native list, before and after a success. -/
inductive Turns : CtlOp → EpollEvent → Option EpollEvent → Option EpollEvent → Prop
  | add (event : EpollEvent) : Turns .add event none (some event)
  | mod (event old : EpollEvent) : Turns .mod event (some old) (some event)
  | del (event old : EpollEvent) : Turns .del event (some old) none

theorem epollCtl_ok {e : EpollEvent} {refuse : Option Errno}
    (h : epollCtl k op fd e refuse = .ok k') :
    ∃ file new, k.files fd = some file ∧ Turns op e (k.native fd file) new ∧
      k' = k.setNative fd file new := by
  unfold epollCtl at h
  split at h
  · cases h
  · rename_i file hfile
    cases op with
    | add =>
      cases hn : k.native fd file <;> simp only [hn] at h
      · split at h <;> cases h
        exact ⟨file, _, hfile, hn ▸ .add e, rfl⟩
      · cases h
    | mod =>
      cases hn : k.native fd file <;> simp only [hn] at h
      · cases h
      · split at h <;> cases h
        exact ⟨file, _, hfile, hn ▸ .mod e _, rfl⟩
    | del =>
      cases hn : k.native fd file <;> simp only [hn] at h
      · cases h
      · cases h
        exact ⟨file, _, hfile, hn ▸ .del e _, rfl⟩
    | other op => simp at h

/-- A registered descriptor finds its node, and another finds none. -/
theorem ctlSelect_eq (hvalid : m.Valid) (hagrees : Agrees fingerprint k m fd)
    (reserve : Option NodeId) {node reserved : Option NodeId}
    (h : ctlSelect m op fd (fingerprint file) reserve = .ok (node, reserved)) :
    (op = .add → node = none ∧ reserved = none) ∧
    (op ≠ .add → k.native fd file ≠ none →
      ∃ a n, node = some a ∧ m.nodes a = some n ∧ n.fd = fd ∧ n.identity = fingerprint file) := by
  refine ⟨?_, ?_⟩
  · rintro rfl
    cases h
    exact ⟨rfl, rfl⟩
  · intro hop hnative
    obtain ⟨event, hevent⟩ := Option.ne_none_iff_exists'.mp hnative
    obtain ⟨a, n, ha, hfd, hidentity, -⟩ := hagrees.present file event hevent
    have hfind := hvalid.find_some ha
    rw [hfd, hidentity] at hfind
    refine ⟨a, n, ?_, ha, hfd, hidentity⟩
    cases op with
    | add => exact absurd rfl hop
    | mod =>
      simp only [ctlSelect, hfind] at h
      cases h
      rfl
    | del =>
      simp only [ctlSelect, hfind] at h
      cases h
      rfl
    | other op =>
      simp only [ctlSelect, hfind] at h
      cases h
      rfl

/-- The checks a control call has passed once its native `epoll_ctl` has succeeded. -/
theorem ctlNative_passed (h : ctlNative fingerprint answers op fd event ctx k m = .ok (p, k')) :
    ∃ identity node reserved,
      fdIdentityCapture fingerprint k fd answers.stat = .ok identity ∧
      ctlSelect m op fd identity answers.reserve = .ok (node, reserved) ∧
      epollCtl k op fd (event.getD ⟨0, 0⟩) answers.refuse = .ok k' ∧
      p = ⟨op, fd, identity, event.getD ⟨0, 0⟩, ctx, node, reserved⟩ := by
  unfold ctlNative at h
  split at h
  · cases h
  · cases h
  · cases h
  · split at h
    · cases h
    rename_i identity hidentity
    split at h
    · cases h
    rename_i node reserved hselect
    dsimp only at h
    split at h
    · cases h
    rename_i k'' hctl
    cases h
    exact ⟨identity, node, reserved, hidentity, hselect, hctl, rfl⟩

/-- The first half of a control call. -/
theorem ctlNative_ok (hvalid : m.Valid) (hagrees : Agrees fingerprint k m fd)
    (h : ctlNative fingerprint answers op fd event ctx k m = .ok (p, k')) :
    p.op = op ∧ p.fd = fd ∧ p.event = event.getD ⟨0, 0⟩ ∧ p.userCtx = ctx ∧
      ∃ file new, k.files fd = some file ∧ Turns op p.event (k.native fd file) new ∧
        k' = k.setNative fd file new ∧ Underway fingerprint k' m p file := by
  obtain ⟨identity, node, reserved, hidentity, hselect, hctl, rfl⟩ := ctlNative_passed h
  obtain ⟨file, new, hfile, hturns, rfl⟩ := epollCtl_ok hctl
  obtain rfl : identity = fingerprint file := by
    unfold fdIdentityCapture at hidentity
    rw [hfile] at hidentity
    dsimp only at hidentity
    split at hidentity <;> cases hidentity
    rfl
  obtain ⟨hadd, hfound⟩ := ctlSelect_eq hvalid hagrees _ hselect
  refine ⟨rfl, rfl, rfl, rfl, file, new, hfile, hturns, rfl, hfile, rfl, ?_, ?_⟩
  · intro file' hne
    rw [setNative_file k fd _ hne]
    refine hagrees.current file' fun hfile' => hne ?_
    rw [hfile] at hfile'
    exact (Option.some.inj hfile').symm
  · generalize hold : k.native fd file = old at hturns hfound
    simp only [setNative_self]
    cases hturns with
    | add =>
      obtain ⟨rfl, rfl⟩ := hadd rfl
      refine .inl ⟨rfl, rfl, hagrees.absent fun file' => ?_, rfl, rfl⟩
      by_cases hfile' : file' = file
      · rw [hfile', hold]
      · refine hagrees.current file' fun h' => hfile' ?_
        rw [hfile] at h'
        exact (Option.some.inj h').symm
    | mod =>
      obtain ⟨a, n, rfl, ha, hfd, hid⟩ := hfound nofun nofun
      exact .inr ⟨a, n, rfl, ha, hfd, hid, .inl ⟨rfl, rfl⟩⟩
    | del =>
      obtain ⟨a, n, rfl, ha, hfd, hid⟩ := hfound nofun nofun
      exact .inr ⟨a, n, rfl, ha, hfd, hid, .inr ⟨rfl, rfl⟩⟩

/-- The node of the descriptor after a success. -/
def Pending.result (p : Pending) : Option Node :=
  match p.op with
  | .del => none
  | _ => some ⟨p.fd, p.identity, p.userCtx, p.event, p.event.data⟩

/-- The context and the event of the descriptor after a success. -/
def Pending.outcome (p : Pending) : Option (Ctx × EpollEvent) :=
  match p.op with
  | .del => none
  | _ => some (p.userCtx, p.event)

theorem Pending.result_outcome (p : Pending) :
    (p.result.map fun n => (n.userCtx, n.event)) = p.outcome := by
  cases hop : p.op <;> simp only [result, outcome, hop, Option.map_none, Option.map_some]

/-- Once the node is written the descriptor agrees again. -/
theorem Underway.settled (h : Underway fingerprint k m p file) (hs : m.Sets m' p.fd p.result) :
    Agrees fingerprint k m' p.fd := by
  have hnative : ∀ file' event, k.native p.fd file' = some event → file' = file := by
    intro file' event hev
    by_contra hne
    rw [h.others file' hne] at hev
    cases hev
  have hcurrent : ∀ file', k.files p.fd ≠ some file' → k.native p.fd file' = none :=
    fun file' hne => h.others file' fun heq => hne (heq ▸ h.opened)
  by_cases hdel : p.op = .del
  · have hgone : m'.Absent p.fd := hs.gone (by simp only [Pending.result, hdel])
    refine ⟨hcurrent, fun _ => hgone, fun file' event hev => ?_⟩
    obtain rfl := hnative file' event hev
    rcases h.state with ⟨hop, -⟩ | ⟨_, _, _, _, _, _, ⟨hop, _⟩ | ⟨_, hnone⟩⟩
    · rw [hdel] at hop
      cases hop
    · rw [hdel] at hop
      cases hop
    · rw [hnone] at hev
      cases hev
  · have hresult : p.result = some ⟨p.fd, p.identity, p.userCtx, p.event, p.event.data⟩ := by
      unfold Pending.result
      split
      · exact absurd ‹_› hdel
      · rfl
    have hregistered : k.native p.fd file = some p.event := by
      rcases h.state with ⟨_, hev, -⟩ | ⟨_, _, _, _, _, _, ⟨_, hev⟩ | ⟨hop, _⟩⟩
      · exact hev
      · exact hev
      · exact absurd hop hdel
    obtain ⟨-, a, ha⟩ := hs.here _ hresult
    refine ⟨hcurrent, fun hnone => ?_, fun file' event hev => ?_⟩
    · rw [hnone file] at hregistered
      cases hregistered
    · obtain rfl := hnative file' event hev
      rw [hregistered] at hev
      exact ⟨a, _, ha, rfl, h.identity, Option.some.inj hev⟩

/-- The second half of a control call: the node is written, or the native entry is taken back. -/
inductive Committed (k : Kernel) (m : Metadata) (p : Pending) (file : FileId) :
    Option Errno × Kernel × Metadata → Prop
  | done {m' : Metadata} (valid : m'.Valid) (sets : m.Sets m' p.fd p.result)
      (generation : m'.metadataGeneration = m.bumpGeneration.metadataGeneration) :
      Committed k m p file (none, k, m')
  | undone (op : p.op = .add) :
      Committed k m p file (some ENOMEM, k.setNative p.fd file none, m)

theorem ctlStore_generation (p : Pending) (a : NodeId) (n : Node) (m : Metadata) :
    (ctlStore p a n m).metadataGeneration = m.bumpGeneration.metadataGeneration := by
  simp only [ctlStore, Metadata.bumpGeneration, Metadata.nodeDataInsertLocked, Metadata.setNode,
    Metadata.dataRemove_generation]

theorem ctlCommit_spec (hvalid : m.Valid) (h : Underway fingerprint k m p file)
    (hfresh : ∀ a, answers.node = some a → m.nodes a = none) :
    Committed k m p file (ctlCommit answers p k m) := by
  rcases h.state with ⟨hop, hnative, habsent, hnode, hreserved⟩ | ⟨a, n, hnode, ha, hfd, hid, hop⟩
  · unfold ctlCommit
    have hreserve : (p.reserved <|> answers.node) = answers.node := by
      rw [hreserved]
      rfl
    simp only [hop, hnode, hreserve, Option.bind_none]
    cases hans : answers.node with
    | none =>
      have hdel : epollCtl k .del p.fd p.event none = .ok (k.setNative p.fd file none) := by
        simp only [epollCtl, h.opened, hnative]
      simp only [hdel]
      exact .undone hop
    | some a =>
      have hlink := hvalid.link (n := ⟨p.fd, p.identity, 0, ⟨0, 0⟩, 0⟩) (hfresh a hans) habsent
      refine .done (hlink.store p) ?_ (ctlStore_generation ..)
      have hresult : p.result = some (Metadata.stored p ⟨p.fd, p.identity, 0, ⟨0, 0⟩, 0⟩) := by
        simp only [Pending.result, hop, Metadata.stored]
      rw [hresult]
      refine Metadata.Sets.put (a := a) ?_ rfl fun n' hn' => ?_
      · rw [Metadata.ctlStore_nodes]
        simp only [Metadata.setNode, Function.update_idem]
      · rw [hfresh a hans] at hn'
        cases hn'
  · rcases hop with ⟨hop, hnative⟩ | ⟨hop, hnative⟩
    · unfold ctlCommit
      simp only [hop, hnode, Option.bind_some, ha, Option.map_some]
      have hresult : p.result = some (Metadata.stored p n) := by
        simp only [Pending.result, hop, Metadata.stored, hfd, hid, h.identity]
      refine .done ((hvalid.halfway ha).store p) ?_ (ctlStore_generation ..)
      rw [hresult]
      refine .put (Metadata.ctlStore_nodes p a n m) hfd fun n' hn' => ?_
      rw [ha] at hn'
      exact Option.some.inj hn' ▸ hfd
    · unfold ctlCommit
      obtain ⟨m', hunlink, hvalid', hnodes, hgen⟩ := hvalid.unlink ha
      simp only [hop, hnode, Option.bind_some, ha, Option.map_some, hunlink]
      have hresult : p.result = none := by simp only [Pending.result, hop]
      refine .done hvalid'.bump ?_ ?_
      · rw [hresult]
        exact .drop hvalid hnodes ha hfd
      · simp only [Metadata.bumpGeneration, hgen]

end

end WepollEx.Posix
