import WepollEx.Lib.Transition
import WepollEx.Posix.Agreement

/-!
# Contexts of the events of an extended wait

Control calls and extended waits of any number of threads on one port.  A wait reads the generation
of the metadata, blocks in the native wait without the lock, and looks up the contexts of what it
got under the lock if the generation is still the same.  `epoll_ctl_batch` is a sequence of control
calls with a NULL context.
-/

namespace WepollEx.Posix.Decoration

open Transition

abbrev Tid := Nat

/-- `struct epoll_event_ex`. -/
structure EpollEventEx where
  events : Events
  data : BitVec 64
  userCtx : Ctx
  timestamp : Nat
  flags : BitVec 32
  deriving DecidableEq, Repr

/-- The flags of an event of a registration with the mask. -/
def registrationFlags (events : Events) : BitVec 32 :=
  (if events &&& EPOLLET ≠ 0 then WEPOLL_FLAG_ET_DELIVERED ||| WEPOLL_FLAG_EDGE_ARMED else 0) |||
    if events &&& EPOLLONESHOT ≠ 0 then WEPOLL_FLAG_ONESHOT_FIRED else 0

/-- One round of the loop over the native events. -/
def expand (m : Metadata) (metadataStable : Bool) (nowNs : Nat) (e : EpollEvent) : EpollEventEx :=
  match if metadataStable then m.nodeSnapshotByDataLocked e.data else none with
  | some (userCtx, event) => ⟨e.events, e.data, userCtx, nowNs, registrationFlags event.events⟩
  | none => ⟨e.events, e.data, 0, nowNs, 0⟩

theorem expand_data (m : Metadata) (metadataStable : Bool) (nowNs : Nat) (e : EpollEvent) :
    (expand m metadataStable nowNs e).data = e.data := by
  unfold expand
  split <;> rfl

/-- Where a thread is in `posix_wait_ex`. -/
inductive WaitPc
  | idle
  /-- In the native wait. -/
  | waiting (generation : Nat)
  | returned (generation : Nat) (native : List EpollEvent)
  | done (records : List EpollEventEx)
  deriving DecidableEq, Repr

def WaitPc.generation : WaitPc → Option Nat
  | .waiting g => some g
  | .returned g _ => some g
  | _ => none

abbrev History := Fd → Option (Ctx × EpollEvent)

structure State where
  kernel : Kernel
  metadata : Metadata
  /-- The control call that holds the port's lock across its native `epoll_ctl`. -/
  pending : Option Pending
  waits : Tid → WaitPc
  /-- The latest successful ADD or MOD of each registered descriptor. -/
  latest : History
  /-- `latest` when the wait began. -/
  seen : Tid → History
  /-- A control call has run since the wait began. -/
  overlapped : Tid → Bool

inductive Act
  | control (op : CtlOp) (fd : Fd) (event : Option EpollEvent) (ctx : Ctx) (answers : CtlAnswers)
  | commit (answers : CtlAnswers)
  | waitBegin (t : Tid)
  /-- The native wait returns; any events at all, the internal wake of a close included. -/
  | nativeReturn (t : Tid) (events : List EpollEvent)
  | decorate (t : Tid) (nowNs : Nat)
  /-- The wait fails, is cancelled, or finds the port closing. -/
  | abandon (t : Tid)
  | openFile (fd : Fd) (file : FileId)
  | close (fd : Fd)

namespace State

def goto (s : State) (t : Tid) (pc : WaitPc) : State :=
  { s with waits := Function.update s.waits t pc }

def overlap (s : State) : State := { s with overlapped := fun _ => true }

/-- What a successful control call leaves in the history. -/
def record (s : State) (p : Pending) : State :=
  { s with latest := Function.update s.latest p.fd p.outcome }

/-- The allocator hands out an address that is not in use. -/
def fresh (s : State) (a : Option NodeId) : Bool := a.all fun a => (s.metadata.nodes a).isNone

end State

section

variable (fingerprint : FileId → FdIdentity)

def step (s : State) : Act → Option State
  | .control op fd event ctx answers =>
    if s.pending = none ∧ s.fresh answers.reserve then
      match ctlNative fingerprint answers op fd event ctx s.kernel s.metadata with
      | .error _ => some s.overlap
      | .ok (p, k) => some { s.overlap with kernel := k, pending := some p }
    else none
  | .commit answers =>
    match s.pending with
    | none => none
    | some p =>
      if s.fresh answers.node then
        match ctlCommit answers p s.kernel s.metadata with
        | (none, k, m) =>
          some { (s.record p).overlap with kernel := k, metadata := m, pending := none }
        | (some _, k, m) => some { s.overlap with kernel := k, metadata := m, pending := none }
      else none
  | .waitBegin t =>
    if s.pending = none ∧ (s.waits t).generation = none then
      some { s.goto t (.waiting s.metadata.metadataGeneration) with
        seen := Function.update s.seen t s.latest
        overlapped := Function.update s.overlapped t false }
    else none
  | .nativeReturn t events =>
    match s.waits t with
    | .waiting g => some (s.goto t (.returned g events))
    | _ => none
  | .decorate t nowNs =>
    match s.waits t with
    | .returned g events =>
      if s.pending = none then
        let metadataStable := s.metadata.metadataGeneration == g
        some (s.goto t (.done (events.map (expand s.metadata metadataStable nowNs))))
      else none
    | _ => none
  | .abandon t => if (s.waits t).generation ≠ none then some (s.goto t .idle) else none
  | .openFile fd file =>
    if s.kernel.files fd = none then
      some { s with kernel := { s.kernel with files := Function.update s.kernel.files fd (some file) } }
    else none
  | .close fd =>
    some { s with kernel := { s.kernel with files := Function.update s.kernel.files fd none } }

/-- A port that has just been created, in a process with the open files. -/
def start (files : Fd → Option FileId) : State where
  kernel := ⟨files, fun _ _ => none⟩
  metadata := .create
  pending := none
  waits := fun _ => .idle
  latest := fun _ => none
  seen := fun _ _ => none
  overlapped := fun _ => false

/-- A registration is deleted before its descriptor is closed, and the generation does not wrap. -/
def Disciplined (s : State) : Act → Prop
  | .close fd => (∀ file, s.kernel.native fd file = none) ∧ ∀ p, s.pending = some p → p.fd ≠ fd
  | .commit _ => s.metadata.metadataGeneration + 1 < 2 ^ 64
  | _ => True

/-! ## The invariant -/

/-- What a wait in progress knows about the metadata. -/
structure Knows (s : State) (t : Tid) (g : Nat) : Prop where
  le : g ≤ s.metadata.metadataGeneration
  seen : g = s.metadata.metadataGeneration → s.seen t = s.latest
  alone : s.overlapped t = false → g = s.metadata.metadataGeneration

structure Inv (s : State) : Prop where
  valid : s.metadata.Valid
  agrees : ∀ fd, (∀ p, s.pending = some p → p.fd ≠ fd) →
    Agrees fingerprint s.kernel s.metadata fd
  underway : ∀ p, s.pending = some p → ∃ file, Underway fingerprint s.kernel s.metadata p file
  latest : s.metadata.Latest s.latest
  waits : ∀ t g, (s.waits t).generation = some g → Knows s t g

variable {fingerprint} {s s' : State}

theorem inv_start (files : Fd → Option FileId) : Inv fingerprint (start files) where
  valid := Metadata.valid_create
  agrees := fun _ _ => ⟨fun _ _ => rfl, fun _ => nofun, nofun⟩
  underway := nofun
  latest := fun fd ctx event => by
    constructor
    · exact nofun
    · rintro ⟨a, n, ha, -⟩
      cases ha
  waits := nofun

theorem Inv.agrees_all (h : Inv fingerprint s) (hfree : s.pending = none) (fd : Fd) :
    Agrees fingerprint s.kernel s.metadata fd := by
  refine h.agrees fd fun p hp => ?_
  rw [hfree] at hp
  cases hp

/-- The threads' places change and nothing else. -/
theorem Inv.goto {t : Tid} {pc : WaitPc} (h : Inv fingerprint s)
    (hpc : ∀ g, pc.generation = some g → Knows s t g) : Inv fingerprint (s.goto t pc) := by
  refine ⟨h.valid, h.agrees, h.underway, h.latest, fun t' g hg => ?_⟩
  by_cases ht : t' = t
  · subst ht
    simp only [State.goto, Function.update_self] at hg
    exact ⟨(hpc g hg).le, (hpc g hg).seen, (hpc g hg).alone⟩
  · simp only [State.goto, Function.update_of_ne ht] at hg
    exact ⟨(h.waits t' g hg).le, (h.waits t' g hg).seen, (h.waits t' g hg).alone⟩

/-- Only the open files change, at a descriptor that has no registration. -/
theorem Inv.files {fd : Fd} {file : Option FileId} (h : Inv fingerprint s)
    (hnone : ∀ file, s.kernel.native fd file = none) (hfree : ∀ p, s.pending = some p → p.fd ≠ fd) :
    Inv fingerprint { s with
      kernel := { s.kernel with files := Function.update s.kernel.files fd file } } := by
  refine ⟨h.valid, fun fd' hfd' => ?_, fun p hp => ?_, h.latest,
    fun t g hg => ⟨(h.waits t g hg).le, (h.waits t g hg).seen, (h.waits t g hg).alone⟩⟩
  · by_cases hfd : fd' = fd
    · subst hfd
      have hagrees := h.agrees fd' hfd'
      refine ⟨fun file _ => hnone file, hagrees.absent, fun file event hev => ?_⟩
      rw [hnone file] at hev
      cases hev
    · exact (h.agrees fd' hfd').kernel (Function.update_of_ne hfd _ _) rfl
  · obtain ⟨file', hunder⟩ := h.underway p hp
    refine ⟨file', ?_, hunder.identity, hunder.others, hunder.state⟩
    exact (Function.update_of_ne (hfree p hp) _ _).trans hunder.opened

theorem Inv.control (h : Inv fingerprint s) (hfree : s.pending = none) {op : CtlOp} {fd : Fd}
    {event : Option EpollEvent} {ctx : Ctx} {answers : CtlAnswers} {p : Pending} {k : Kernel}
    (hctl : ctlNative fingerprint answers op fd event ctx s.kernel s.metadata = .ok (p, k)) :
    Inv fingerprint { s.overlap with kernel := k, pending := some p } := by
  obtain ⟨-, hfd, -, -, file, new, hfile, -, rfl, hunder⟩ :=
    ctlNative_ok h.valid (h.agrees_all hfree fd) hctl
  refine ⟨h.valid, fun fd' hfd' => ?_, fun p' hp' => ?_, h.latest,
    fun t g hg => ⟨(h.waits t g hg).le, (h.waits t g hg).seen, nofun⟩⟩
  · have hne : fd' ≠ fd := hfd ▸ (hfd' p rfl).symm
    exact (h.agrees_all hfree fd').kernel rfl (setNative_fd _ _ _ hne)
  · cases hp'
    exact ⟨file, hunder⟩

theorem Inv.commit (h : Inv fingerprint s) {p : Pending} (hp : s.pending = some p)
    {answers : CtlAnswers} (hfresh : s.fresh answers.node)
    (hwrap : s.metadata.metadataGeneration + 1 < 2 ^ 64)
    (hs : step fingerprint s (.commit answers) = some s') : Inv fingerprint s' := by
  obtain ⟨file, hunder⟩ := h.underway p hp
  have hallocated : ∀ a, answers.node = some a → s.metadata.nodes a = none := by
    intro a ha
    rw [State.fresh, ha] at hfresh
    simpa using hfresh
  have hcommitted := ctlCommit_spec h.valid hunder hallocated
  have hother : ∀ fd', fd' ≠ p.fd → Agrees fingerprint s.kernel s.metadata fd' := by
    intro fd' hne
    refine h.agrees fd' fun p' hp' => ?_
    obtain rfl := Option.some.inj (hp.symm.trans hp')
    exact hne.symm
  simp only [step, hp, hfresh, if_true] at hs
  generalize ctlCommit answers p s.kernel s.metadata = r at hs hcommitted
  cases hcommitted with
  | undone hop =>
    cases hs
    refine ⟨h.valid, fun fd' _ => ?_, by rintro _ ⟨⟩, h.latest,
      fun t g hg => ⟨(h.waits t g hg).le, (h.waits t g hg).seen, by rintro ⟨⟩⟩⟩
    by_cases hne : fd' = p.fd
    · subst hne
      have hnone : ∀ file', (s.kernel.setNative p.fd file none).native p.fd file' = none := by
        intro file'
        by_cases hf : file' = file
        · rw [hf, setNative_self]
        · rw [setNative_file _ _ _ hf, hunder.others file' hf]
      refine ⟨fun file' _ => hnone file', fun _ => ?_, fun file' event hev => ?_⟩
      · rcases hunder.state with ⟨-, -, habsent, -⟩ | ⟨_, _, _, _, _, _, ⟨hop', _⟩ | ⟨hop', _⟩⟩
        · exact habsent
        · rw [hop] at hop'
          cases hop'
        · rw [hop] at hop'
          cases hop'
      · rw [hnone file'] at hev
        cases hev
    · exact (hother fd' hne).kernel rfl (setNative_fd _ _ _ hne)
  | done hvalid hsets hgen =>
    cases hs
    have hbump : s.metadata.bumpGeneration.metadataGeneration =
        s.metadata.metadataGeneration + 1 := by
      simp only [Metadata.bumpGeneration, Nat.mod_eq_of_lt hwrap, Nat.succ_ne_zero, if_false]
    refine ⟨hvalid, fun fd' _ => ?_, by rintro _ ⟨⟩, ?_, fun t g hg => ?_⟩
    · by_cases hne : fd' = p.fd
      · subst hne
        exact hunder.settled hsets
      · exact (hother fd' hne).frame hne rfl rfl hsets
    · have hlatest := h.latest.sets hvalid hsets
      rwa [p.result_outcome] at hlatest
    · have hle := (h.waits t g hg).le
      refine ⟨?_, fun heq => ?_, by rintro ⟨⟩⟩
      · exact (Nat.le_succ_of_le hle).trans (by rw [hgen, hbump])
      · have hgen' : g = _ := heq.trans (hgen.trans hbump)
        omega

theorem inv_step (h : Inv fingerprint s) {a : Act} (hok : Disciplined s a)
    (hs : step fingerprint s a = some s') : Inv fingerprint s' := by
  cases a with
  | control op fd event ctx answers =>
    simp only [step] at hs
    split at hs
    · rename_i hguard
      split at hs
      · cases hs
        exact ⟨h.valid, h.agrees, h.underway, h.latest,
          fun t g hg => ⟨(h.waits t g hg).le, (h.waits t g hg).seen, nofun⟩⟩
      · rename_i p k hctl
        cases hs
        exact h.control hguard.1 hctl
    · cases hs
  | commit answers =>
    cases hp : s.pending with
    | none =>
      simp only [step, hp] at hs
      cases hs
    | some p =>
      by_cases hfresh : s.fresh answers.node
      · exact h.commit hp hfresh hok hs
      · simp only [step, hp, hfresh] at hs
        cases hs
  | waitBegin t =>
    simp only [step] at hs
    split at hs
    · cases hs
      refine ⟨h.valid, h.agrees, h.underway, h.latest, fun t' g hg => ?_⟩
      by_cases ht : t' = t
      · subst ht
        simp only [State.goto, Function.update_self] at hg
        cases hg
        exact ⟨le_rfl, fun _ => Function.update_self .., fun _ => rfl⟩
      · simp only [State.goto, Function.update_of_ne ht] at hg
        have hknows := h.waits t' g hg
        refine ⟨hknows.le, fun heq => ?_, fun halone => hknows.alone ?_⟩
        · exact (Function.update_of_ne ht _ _).trans (hknows.seen heq)
        · exact (Function.update_of_ne ht _ _).symm.trans halone
    · cases hs
  | nativeReturn t events =>
    simp only [step] at hs
    split at hs
    · rename_i g hpc
      cases hs
      exact h.goto fun g' hg' => Option.some.inj hg' ▸ h.waits t g (by rw [hpc]; rfl)
    · cases hs
  | decorate t nowNs =>
    simp only [step] at hs
    split at hs
    · split at hs
      · cases hs
        exact h.goto nofun
      · cases hs
    · cases hs
  | abandon t =>
    simp only [step] at hs
    split at hs
    · cases hs
      exact h.goto nofun
    · cases hs
  | openFile fd file =>
    simp only [step] at hs
    split at hs
    · rename_i hclosed
      cases hs
      have hfree : ∀ p, s.pending = some p → p.fd ≠ fd := by
        rintro p hp rfl
        obtain ⟨file', hunder⟩ := h.underway p hp
        have hopen := hunder.opened
        rw [hclosed] at hopen
        cases hopen
      refine h.files (fun file' => (h.agrees fd hfree).current file' ?_) hfree
      rw [hclosed]
      exact nofun
    · cases hs
  | close fd =>
    cases hs
    exact h.files hok.1 hok.2

theorem inv_reach {files : Fd → Option FileId}
    (h : ReachWhen (step fingerprint) Disciplined (start files) s) : Inv fingerprint s :=
  h.invariant (inv_start files) fun _ _ _ hinv hok hs => inv_step hinv hok hs

/-! ## Records -/

/-- Each native registration has exactly one node, and each node is of one registration. -/
structure OnePerRegistration (k : Kernel) (m : Metadata) : Prop where
  node : ∀ fd file event, k.native fd file = some event →
    ∃! a, ∃ n, m.nodes a = some n ∧ n.fd = fd ∧ n.event = event
  native : ∀ a n, m.nodes a = some n → ∃! file, k.native n.fd file = some n.event

/-- The registration is the only one with the value. -/
structure OnlyWith (k : Kernel) (data : BitVec 64) (fd : Fd) (file : FileId) (event : EpollEvent) :
    Prop where
  native : k.native fd file = some event
  carries : event.data = data
  only : ∀ fd' file' event', k.native fd' file' = some event' → event'.data = data →
    fd' = fd ∧ file' = file

/-- The context of a record is that of the only registration with its value, which has not changed
since the wait began. -/
def Owned (s : State) (t : Tid) (r : EpollEventEx) : Prop :=
  ∃ fd file event, OnlyWith s.kernel r.data fd file event ∧
    s.latest fd = some (r.userCtx, event) ∧ s.seen t fd = s.latest fd

theorem Inv.onePerRegistration (h : Inv fingerprint s) (hfree : s.pending = none) :
    OnePerRegistration s.kernel s.metadata where
  node := by
    intro fd file event hevent
    obtain ⟨a, n, ha, hfd, -, hev⟩ := (h.agrees_all hfree fd).present file event hevent
    refine ⟨a, ⟨n, ha, hfd, hev⟩, ?_⟩
    rintro b ⟨n', hb, hfd', -⟩
    exact h.valid.distinct b a n' n hb ha (hfd'.trans hfd.symm)
  native := fun _ n ha => (h.agrees_all hfree n.fd).node_unique h.valid ha rfl

/-- A node whose value no other node has is that of the only registration with the value. -/
theorem Inv.owned (h : Inv fingerprint s) (hfree : s.pending = none) {t : Tid} {g : Nat}
    (hg : (s.waits t).generation = some g) (hstable : g = s.metadata.metadataGeneration)
    {r : EpollEventEx} {a : NodeId} {n : Node} (ha : s.metadata.nodes a = some n)
    (hctx : n.userCtx = r.userCtx) (hdata : n.event.data = r.data)
    (honly : ∀ b n', s.metadata.nodes b = some n' → n'.event.data = r.data → b = a) :
    Owned s t r := by
  obtain ⟨file, hfile, hunique⟩ := (h.agrees_all hfree n.fd).node_unique h.valid ha rfl
  refine ⟨n.fd, file, n.event, ⟨hfile, hdata, ?_⟩, ?_, ?_⟩
  · intro fd' file' event' hevent' hdata'
    obtain ⟨b, n', hb, rfl, -, rfl⟩ := (h.agrees_all hfree fd').present file' event' hevent'
    obtain rfl := honly b n' hb hdata'
    obtain rfl := Option.some.inj (hb.symm.trans ha)
    exact ⟨rfl, hunique file' hevent'⟩
  · exact (h.latest n.fd r.userCtx n.event).mpr ⟨a, n, ha, rfl, hctx, rfl⟩
  · rw [(h.waits t g hg).seen hstable]

/-- In every state that control calls and waits reach, both indexes hold exactly the nodes, one for
each native registration while the port's lock is free; and a record gets no context or that of the
latest ADD or MOD of the only registration with its value, and gets it if no control call
overlapped the wait. -/
theorem record_contexts {files : Fd → Option FileId}
    (h : ReachWhen (step fingerprint) Disciplined (start files) s) :
    s.metadata.Valid ∧ (s.pending = none → OnePerRegistration s.kernel s.metadata) ∧
      ∀ t nowNs s', step fingerprint s (.decorate t nowNs) = some s' →
        ∃ records, s'.waits t = .done records ∧ ∀ r ∈ records,
          (r.userCtx = 0 ∨ Owned s t r) ∧
          (s.overlapped t = false →
            ∀ fd file event, OnlyWith s.kernel r.data fd file event → Owned s t r) := by
  have hinv := inv_reach h
  refine ⟨hinv.valid, hinv.onePerRegistration, fun t nowNs s' hs => ?_⟩
  simp only [step] at hs
  split at hs
  case h_2 => cases hs
  rename_i g events hpc
  split at hs
  case isFalse => cases hs
  rename_i hfree
  cases hs
  have hg : (s.waits t).generation = some g := by
    rw [hpc]
    rfl
  refine ⟨_, Function.update_self .., fun r hr => ?_⟩
  obtain ⟨e, -, rfl⟩ := List.mem_map.mp hr
  constructor
  · unfold expand
    split
    · rename_i userCtx event hlookup
      right
      by_cases hstable : s.metadata.metadataGeneration = g
      · rw [beq_iff_eq.mpr hstable, if_pos rfl] at hlookup
        obtain ⟨a, n, ha, hctx, -, hdata, honly⟩ := hinv.valid.snapshot_unique hlookup
        exact hinv.owned hfree hg hstable.symm ha hctx hdata honly
      · rw [beq_eq_false_iff_ne.mpr hstable, if_neg nofun] at hlookup
        cases hlookup
    · exact .inl rfl
  · intro halone fd file event honly
    have hstable := (hinv.waits t g hg).alone halone
    obtain ⟨a, n, ha, hfd, -, hev⟩ :=
      (hinv.agrees_all hfree fd).present file event honly.native
    have hdata : n.event.data = e.data := by
      rw [hev, honly.carries, expand_data]
    have honly' : ∀ b n', s.metadata.nodes b = some n' → n'.event.data = e.data → b = a := by
      intro b n' hb hdata'
      obtain ⟨file', hfile', -⟩ := (hinv.agrees_all hfree n'.fd).node_unique hinv.valid hb rfl
      have hsame := (honly.only n'.fd file' n'.event hfile' (by rw [hdata', expand_data])).1
      exact hinv.valid.distinct b a n' n hb ha (hsame.trans hfd.symm)
    have hlookup := hinv.valid.snapshot_some ha hdata honly'
    have hexpand : expand s.metadata (s.metadata.metadataGeneration == g) nowNs e =
        ⟨e.events, e.data, n.userCtx, nowNs, registrationFlags n.event.events⟩ := by
      simp only [expand, beq_iff_eq.mpr hstable.symm, if_true, hlookup]
    rw [hexpand]
    exact hinv.owned hfree hg hstable ha rfl hdata honly'

end

/-- A descriptor is added with a context, and a wait that begins afterwards returns its event. -/
theorem record_contexts_added :
    ∃ s s' : State, ∃ r : EpollEventEx,
      step (fun _ => ⟨1, 2, 3, 4⟩) s (.decorate 0 9) = some s' ∧ s'.waits 0 = .done [r] ∧
        r.userCtx = 5 ∧ Owned s 0 r := by
  let answers : CtlAnswers := ⟨none, none, none, some 50⟩
  obtain ⟨s, hreach, s', hs, hdone⟩ : ∃ s, ReachWhen (step fun _ => ⟨1, 2, 3, 4⟩) Disciplined
      (start fun fd => if fd = 7 then some 100 else none) s ∧
      ∃ s', step (fun _ => ⟨1, 2, 3, 4⟩) s (.decorate 0 9) = some s' ∧
        s'.waits 0 = .done [⟨EPOLLIN, 42, 5, 9, 0⟩] :=
    ⟨_, (((ReachWhen.refl.step (.control .add 7 (some ⟨EPOLLIN, 42⟩) 5 answers) trivial rfl).step
      (.commit answers) (show 1 + 1 < 2 ^ 64 by decide) rfl).step (.waitBegin 0) trivial rfl).step
      (.nativeReturn 0 [⟨EPOLLIN, 42⟩]) trivial rfl, _, rfl, rfl⟩
  obtain ⟨-, -, hdecorate⟩ := record_contexts hreach
  obtain ⟨records, hrecords, hall⟩ := hdecorate 0 9 s' hs
  obtain rfl := WaitPc.done.inj (hdone.symm.trans hrecords)
  exact ⟨s, s', _, hs, hdone, rfl, (hall _ (List.mem_singleton_self _)).1.resolve_left nofun⟩

end WepollEx.Posix.Decoration
