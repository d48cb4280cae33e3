import WepollEx.Lifecycle.Sound

/-!
# Control calls on the whole port

Every public control call looks a registration up, checks that its handle still names the same
object and then changes that one registration; ADD makes a new one.  Each is a sequence of moves of
the port.
-/

namespace WepollEx

section

variable {c : Cell} {m : Mem}

/-! ## Calls on a registered handle -/

/-- The check before a control operation retires the registration or leaves it as it is. -/
theorem validateControl_spec (h : Lifecycle c) (live : c.freed = false)
    (answers : ControlAnswers) :
    Moves Plain c (epSockValidateControlLocked answers c).2 ∧
      ((epSockValidateControlLocked answers c).1 = .live →
        (epSockValidateControlLocked answers c).2.core = c.core) := by
  have hcore := validateIdentity_core answers.identity false c
  unfold epSockValidateControlLocked
  split
  · exact ⟨.refl, fun _ => rfl⟩
  generalize epSockValidateIdentityLocked answers.identity false c = r at hcore ⊢
  obtain ⟨check, e, d⟩ := r
  have hlife : Lifecycle d := h.of_core hcore
  have hlive : d.freed = false := (core_congr hcore Cell.freed).trans live
  have hmoves : Moves Plain c (epSockRetireStaleLocked answers.cancel d) :=
    (Moves.of_core hcore).trans (retireStale_moves hlife hlive answers.cancel)
  cases check with
  | matching => exact ⟨.of_core hcore, fun _ => hcore⟩
  | error => exact ⟨.of_core hcore, nofun⟩
  | stale => exact ⟨hmoves, nofun⟩
  | closed =>
    dsimp only
    split
    · exact ⟨hmoves, nofun⟩
    · exact ⟨hmoves, nofun⟩

/-- A registration that the table names has not been deleted. -/
theorem Sound.alive_of_table (h : Sound m) {fd : Socket} {a : Addr} {s : EpSock}
    (ht : m.port.fdTable fd = some a) (found : m.socks a = some s) : s.deletePending = false := by
  obtain ⟨s', hs', hfd⟩ := h.table fd a ht
  obtain rfl : s' = s := Option.some.inj (hs'.symm.trans found)
  cases hd : s'.deletePending with
  | false => rfl
  | true =>
    have habsent := (h.life a s' found).dead_absent hd
    rw [show (m.cell a s').sock.fd = fd from hfd] at habsent
    exact absurd ht habsent

theorem onRegistration_moves (h : Sound m) (answers : ControlAnswers)
    {op : Cell → CtlResult × Cell} (fd : Socket)
    (hop : ∀ c : Cell, Lifecycle c → c.freed = false → c.sock.deletePending = false →
      Moves Plain c (op c).2) :
    MemMoves Plain m (onRegistration answers op fd m).2 := by
  unfold onRegistration
  cases ht : m.port.fdTable fd with
  | none => exact .refl
  | some a =>
    dsimp only
    cases hs : m.socks a with
    | none => exact .refl
    | some s =>
      dsimp only
      have hlife := h.life a s hs
      have halive := h.alive_of_table ht hs
      obtain ⟨hmoves, hcore⟩ := validateControl_spec hlife rfl answers
      generalize epSockValidateControlLocked answers (m.cell a s) = r at hmoves hcore ⊢
      obtain ⟨check, d⟩ := r
      cases check with
      | retired e => exact .of_moves hs hmoves
      | failed e => exact .of_moves hs hmoves
      | live =>
        have hd : d.core = (m.cell a s).core := hcore rfl
        have hfreed : d.freed = false := core_congr hd Cell.freed
        have hdead : d.sock.deletePending = false :=
          (core_congr hd fun x => x.sock.deletePending).trans halive
        exact .of_moves hs (hmoves.trans (hop d (hlife.of_core hd) hfreed hdead))

theorem epollCtlMod_moves (h : Sound m) (answers : ControlAnswers) (fd : Socket)
    (events : Events) (data : BitVec 64) (ctx : Nat) :
    MemMoves Plain m (epollCtlMod answers fd events data ctx m).2 := by
  unfold epollCtlMod
  split
  · exact .refl
  split
  · exact .refl
  rename_i hex
  have plain : events &&& (EPOLLONESHOT ||| EPOLLET) &&& EPOLLEXCLUSIVE = 0 := by
    rw [BitVec.and_assoc, show (EPOLLONESHOT ||| EPOLLET) &&& EPOLLEXCLUSIVE = 0 by decide]
    exact BitVec.and_zero
  exact onRegistration_moves h answers fd fun c hl hf ha =>
    modifyLocked_moves hl hf ha answers events plain data ctx

theorem unregister_moves (h : Sound m) (answers : ControlAnswers) (fd : Socket) :
    MemMoves Plain m (epPortUnregister answers fd m).2 :=
  onRegistration_moves h answers fd fun _ hl hf _ => unregisterLocked_moves hl hf answers

theorem rearm_moves (h : Sound m) (answers : ControlAnswers) (fd : Socket) :
    MemMoves Plain m (epPortRearm answers fd m).2 :=
  onRegistration_moves h answers fd fun _ hl hf ha => rearmLocked_moves hl hf ha answers

theorem portRearmClasses_moves (h : Sound m) (answers : ControlAnswers) (fd : Socket)
    (classes : Classes) : MemMoves Plain m (epPortRearmClasses answers fd classes m).2 := by
  unfold epPortRearmClasses
  split
  · exact .refl
  · exact onRegistration_moves h answers fd fun _ hl hf ha =>
      rearmClassesLocked_moves hl hf ha answers classes

theorem shutdownSocket_moves (h : Sound m) (answers : ControlAnswers) (fd : Socket)
    (how : ShutdownHow) : MemMoves Plain m (epPortShutdownSocket answers fd how m).2 := by
  unfold epPortShutdownSocket
  cases m.port.fdTable fd with
  | none =>
    dsimp only
    cases answers.target with
    | error e => exact .refl
    | ok info =>
      dsimp only
      cases info.kind with
      | socket base => cases answers.shutdown <;> exact .refl
      | _ => exact .refl
  | some a =>
    exact onRegistration_moves h answers fd fun _ hl hf ha => shutdownLocked_moves hl hf ha answers how

/-! ## ADD -/

/-- The moves of a control call. -/
def Control (t : Tag) : Prop := t = .plain ∨ t = .inserted

theorem MemMoves.control {m' : Mem} (h : MemMoves Plain m m') : MemMoves Control m m' :=
  h.mono fun _ ht => .inl ht

theorem allocSocketFields_spec (answers : AllocAnswers) (p : Port) (fd base : Socket) :
    (allocSocketFields answers p fd base).2.core = p.core ∧
      ∀ s, (allocSocketFields answers p fd base).1 = .ok s →
        s.core = (blankSock fd .socket 0).core := by
  unfold allocSocketFields
  dsimp only
  repeat' split
  all_goals
    refine ⟨rfl, fun s hs => ?_⟩
    first
    | cases hs; rfl
    | cases hs

theorem allocFields_spec (answers : AllocAnswers) (p : Port) (fd : Socket) (kind : TargetKind) :
    (allocFields answers p fd kind).2.core = p.core ∧
      ∀ s, (allocFields answers p fd kind).1 = .ok s →
        ∃ k semantics, s.core = { (blankSock fd k 0).core with waitableSemantics := semantics } := by
  cases kind with
  | socket base =>
    obtain ⟨hp, hs⟩ := allocSocketFields_spec answers p fd base
    exact ⟨hp, fun s h => ⟨.socket, .none, hs s h⟩⟩
  | pipe access synchronousIo =>
    refine ⟨rfl, fun s h => ⟨.pipe, .none, ?_⟩⟩
    obtain rfl := Except.ok.inj h
    rfl
  | waitable semantics =>
    refine ⟨rfl, fun s h => ⟨.waitable, semantics, ?_⟩⟩
    obtain rfl := Except.ok.inj h
    rfl
  | invalid =>
    refine ⟨rfl, fun s h => ?_⟩
    simp [allocFields] at h
  | unsupported =>
    refine ⟨rfl, fun s h => ?_⟩
    simp [allocFields] at h

/-- A blank registration with a fresh generation. -/
def FreshSock (p : Port) (fd : Socket) (s : EpSock) : Prop :=
  ∃ kind semantics, s.core = { (blankSock fd kind 0).core with
    waitableSemantics := semantics
    generation := nextGeneration p.nextSockGeneration }

theorem alloc_cases (answers : AllocAnswers) (fd : Socket) (p : Port) :
    (∃ (e : Errno) (q : Port), epSockAllocLocked answers fd p = (.error e, q) ∧ q.core = p.core) ∨
      ∃ (a : Addr) (s : EpSock) (q : Port), epSockAllocLocked answers fd p = (.ok (a, s), q.bumpGeneration) ∧
        answers.addr = some a ∧ FreshSock p fd s ∧ q.core = p.core := by
  unfold epSockAllocLocked
  split
  · exact .inl ⟨_, _, rfl, rfl⟩
  rename_i info _
  split
  · exact .inl ⟨_, _, rfl, rfl⟩
  split
  · exact .inl ⟨_, _, rfl, rfl⟩
  split
  · exact .inl ⟨_, _, rfl, rfl⟩
  split
  · exact .inl ⟨_, _, rfl, rfl⟩
  rename_i a haddr
  obtain ⟨hport, hsock⟩ := allocFields_spec answers p fd info.kind
  generalize allocFields answers p fd info.kind = r at hport hsock ⊢
  obtain ⟨result, q⟩ := r
  cases result with
  | error e => exact .inl ⟨_, _, rfl, hport⟩
  | ok s =>
    obtain ⟨kind, semantics, hs⟩ := hsock s rfl
    refine .inr ⟨a, _, q, rfl, haddr, ⟨kind, semantics, ?_⟩, hport⟩
    have hgen : q.core.nextSockGeneration = p.core.nextSockGeneration := by rw [hport]
    have hgen' : q.nextSockGeneration = p.nextSockGeneration := hgen
    have : ({ s with generation := nextGeneration q.nextSockGeneration } : EpSock).core =
        { s.core with generation := nextGeneration q.nextSockGeneration } := rfl
    rw [this, hs, hgen']

/-- The interest a caller gives to a new registration. -/
def EpSock.withInterest (s : EpSock) (events flags : Events) (data : BitVec 64) (ctx : Nat) :
    EpSock :=
  { s with userEvents := events, userFlags := flags, userData := data, userCtx := ctx }

theorem registerRejects_none {p : Port} {s : EpSock} (h : registerRejects p s = none) :
    (s.isExclusive = true → s.kind = .socket) ∧
      (p.explicitRearm = true → s.isET = true → s.kind = .socket ∧ s.isExclusive = false) := by
  unfold registerRejects at h
  split at h
  · cases h
  rename_i hkind
  split at h
  · cases h
  rename_i hexplicit
  split at h
  · cases h
  rename_i haux
  constructor
  · intro hx
    cases hk : s.kind with
    | socket => rfl
    | waitable => exact absurd ⟨by simp [EpSock.isAux, hk], hx⟩ haux
    | pipe => exact absurd ⟨by simp [EpSock.isAux, hk], hx⟩ haux
  · intro he het
    constructor
    · by_contra hk
      exact hkind ⟨he, het, hk⟩
    · cases hx : s.isExclusive with
      | false => rfl
      | true => exact absurd ⟨he, het, hx⟩ hexplicit

theorem FreshSock.newborn {p q : Port} {fd : Socket} {s : EpSock} (h : FreshSock p fd s)
    (hq : q.explicitRearm = p.explicitRearm) {events flags : Events} {data : BitVec 64} {ctx : Nat}
    (accepted : registerRejects q (s.withInterest events flags data ctx) = none)
    (shape : flags &&& EPOLLEXCLUSIVE ≠ 0 → flags &&& EPOLLONESHOT = 0) :
    Newborn p (s.withInterest events flags data ctx) := by
  obtain ⟨kind, semantics, hs⟩ := h
  obtain ⟨hexclusive, hexplicit⟩ := registerRejects_none accepted
  have get : ∀ {β : Type} (f : EpSock → β), f s.core = f _ := fun f => congrArg f hs
  exact
    { idle := get EpSock.pollStatus
      unqueued := get EpSock.readyQueued
      unfired := get EpSock.oneshotFired
      unlisted := get EpSock.needsRearm
      alive := get EpSock.deletePending
      unposted := get EpSock.completionPosted
      unarmed := get EpSock.waitRegistration
      unowned := get EpSock.waitableNotificationOwned
      status := get EpSock.ioStatus
      observed := get EpSock.observedEvents
      disarmed := get EpSock.explicitDisarmedClasses
      pending := get EpSock.pendingEvents
      exclusive := fun hx => by
        refine ⟨hexclusive hx, ?_⟩
        have := shape (of_decide_eq_true hx)
        simp [EpSock.isOneshot, EpSock.withInterest, this]
      explicit := fun he het => hexplicit (hq.trans he) het
      generation := get EpSock.generation }

/-- The first submission of a registration that is not listed yet. -/
theorem registerSubmit_moves (h : Lifecycle c) (live : c.freed = false)
    (alive : c.sock.deletePending = false) (unfired : c.sock.oneshotFired = false)
    (idle : c.sock.pollStatus = .idle) (answers : SubmitAnswers) :
    Moves Plain c (registerSubmit answers c).2 := by
  obtain ⟨d, hd, hmoves, hfreed, hidle⟩ : ∃ d, (if !epWaitableIsDormant c.sock then
      epSockSetNeedsRearmLocked c true else c) = d ∧ Moves Plain c d ∧ d.freed = false ∧
        d.sock.pollStatus = .idle := by
    split
    · refine ⟨_, rfl, setNeedsRearm_moves live true (fun _ => ⟨alive, unfired⟩)
        (fun _ => unfired), ?_, ?_⟩
      · rw [setNeedsRearm_freed]
        exact live
      · rw [setNeedsRearm_eq]
        exact idle
    · exact ⟨_, rfl, .refl, live, idle⟩
  have hlife := h.moves hmoves hfreed
  unfold registerSubmit
  simp only [hd]
  split
  · have hs := submit_spec hlife hfreed hidle answers true false
    generalize epSockSubmitLocked answers true false d = r at hs ⊢
    obtain ⟨result, immediate, e⟩ := r
    cases result with
    | ok => exact (hmoves.trans hs.moves).trans (countChange_moves e)
    | retired _ => exact hmoves.trans hs.moves
    | failed err =>
      obtain ⟨hfreed', hidle'⟩ := (hs.failed err rfl).idle
      refine (hmoves.trans hs.moves).trans ?_
      dsimp only
      rw [forget_eq]
      exact (forget_moves (hfreed'.trans hfreed)).trans (free_moves (hfreed'.trans hfreed)
        (forgottenTable_absent e) (hidle'.trans hidle))
  · exact hmoves.trans (countChange_moves d)

theorem registerNew_moves (h : Sound m) {alloc : AllocAnswers} (submit : SubmitAnswers)
    {fd : Socket} {events flags : Events} (data : BitVec 64) (ctx : Nat)
    (shape : flags &&& EPOLLEXCLUSIVE ≠ 0 → flags &&& EPOLLONESHOT = 0)
    (fresh : ∀ a, alloc.addr = some a → m.socks a = none) (absent : m.port.fdTable fd = none) :
    MemMoves Control m (registerNew alloc submit fd events flags data ctx m).2 := by
  have quiet : ∀ q : Port, q.core = m.port.core → MemMoves Control m { m with port := q } :=
    fun q hq => .single (.quiet (fun _ => rfl) hq)
  unfold registerNew
  rcases alloc_cases alloc fd m.port with ⟨e, q, halloc, hq⟩ | ⟨a, s, q, halloc, haddr, hfresh, hq⟩
  · rw [halloc]
    exact quiet q hq
  rw [halloc]
  dsimp only
  have hquiet := quiet q hq
  have hskip : MemMoves Control m { m with port := q.bumpGeneration } :=
    hquiet.tail (.port (.inl rfl) .skipGeneration)
  cases haccept : registerRejects q.bumpGeneration (s.withInterest events flags data ctx) with
  | some e =>
    rw [EpSock.withInterest] at haccept
    simp only [haccept]
    exact hskip
  | none =>
    have hgen : q.nextSockGeneration = m.port.nextSockGeneration :=
      Port.core_congr hq fun x => x.nextSockGeneration
    have htable : q.fdTable = m.port.fdTable := Port.core_congr hq fun x => x.fdTable
    have hfd : s.fd = fd := by
      obtain ⟨kind, semantics, hs⟩ := hfresh
      exact congrArg EpSock.fd hs
    have hfresh' : FreshSock q fd s := by
      unfold FreshSock
      rw [hgen]
      exact hfresh
    have hnewborn := hfresh'.newborn rfl haccept shape
    rw [EpSock.withInterest] at haccept
    simp only [haccept]
    split
    · exact hskip
    · set m1 : Mem := { m with port := q } with hm1
      have hsound : Sound m1 := h.memMoves hquiet
      have hstorage : m1.socks a = none := fresh a haddr
      have hins := hquiet.tail (.insert (s := s.withInterest events flags data ctx) (.inr rfl) hstorage
        (by show q.fdTable s.fd = none; rw [hfd, htable]; exact absent) hnewborn)
      have hlife := Newborn.lifecycle (a := a) hnewborn (hsound.dangling a hstorage)
      have hmoves := registerSubmit_moves hlife rfl hnewborn.alive hnewborn.unfired hnewborn.idle
        submit
      have hcell := m1.cell_put (c := inserted m1 a (s.withInterest events flags data ctx)) rfl
      have hrun := MemMoves.of_moves (m := m1.put (inserted m1 a _)) hcell.1
        (by rw [hcell.2]; exact hmoves)
      rw [Mem.put_put m1 hmoves.addr] at hrun
      exact hins.trans hrun.control

/-- A dropped registration is released or waits for the end of its poll. -/
theorem dropClosed_gone (c : Cell) : (epSockDropClosedLocked c).freed = true ∨
    (epSockDropClosedLocked c).sock.deletePending = true := by
  unfold epSockDropClosedLocked freeIfIdle
  simp only [setNeedsRearm_eq, setOneshotFired_eq, forget_eq]
  split
  · exact .inl rfl
  · exact .inr rfl

theorem validateControl_gone {answers : ControlAnswers} {e : Errno} {d : Cell}
    (h : epSockValidateControlLocked answers c = (.retired e, d)) :
    d.freed = true ∨ d.sock.deletePending = true := by
  unfold epSockValidateControlLocked at h
  split at h
  · simp at h
  split at h
  · simp at h
  · simp at h
  · simp only [Prod.mk.injEq] at h
    rw [← h.2]
    exact dropClosed_gone _
  · dsimp only at h
    split at h
    · simp at h
    · simp only [Prod.mk.injEq] at h
      rw [← h.2]
      exact dropClosed_gone _

theorem Moves.table {T : Tag → Prop} {d : Cell} (h : Moves T c d) {fd : Socket} {b : Addr}
    (hd : d.port.fdTable fd = some b) : c.port.fdTable fd = some b := by
  induction h with
  | refl => exact hd
  | quiet _ hcore ih => exact ih ((core_congr hcore fun x => x.port.fdTable fd).symm.trans hd)
  | step _ _ _ hm ih => exact ih (hm.table hd)

/-- The table does not name a registration that is gone. -/
theorem Sound.unnamed (h : Sound m) {d : Cell} {fd : Socket} (hm : m = (m.put d))
    (gone : d.freed = true ∨ d.sock.deletePending = true) : m.port.fdTable fd ≠ some d.addr := by
  intro ht
  have hself : m.socks d.addr = if d.freed then none else some d.sock := by
    rw [hm]
    exact Mem.socks_put_self
  obtain ⟨s, hs, _⟩ := h.table fd d.addr ht
  rcases gone with hfreed | hdead
  · simp [hself, hfreed] at hs
  · have halive := h.alive_of_table ht hs
    cases hf : d.freed with
    | true => simp [hself, hf] at hs
    | false =>
      have hsock : d.sock = s := by simpa [hself, hf] using hs
      rw [← hsock, hdead] at halive
      cases halive

theorem register_moves (h : Sound m) (control : ControlAnswers) {alloc : AllocAnswers}
    (fd : Socket) {events flags : Events} (data : BitVec 64) (ctx : Nat)
    (shape : flags &&& EPOLLEXCLUSIVE ≠ 0 → flags &&& EPOLLONESHOT = 0)
    (fresh : ∀ a, alloc.addr = some a → m.socks a = none) :
    MemMoves Control m (epPortRegister control alloc fd events flags data ctx m).2 := by
  unfold epPortRegister
  split
  · exact .refl
  split
  · exact .refl
  cases ht : m.port.fdTable fd with
  | none => exact registerNew_moves h control.submit data ctx shape fresh ht
  | some a =>
    dsimp only
    cases hs : m.socks a with
    | none => exact .refl
    | some s =>
      dsimp only
      obtain ⟨hmoves, _⟩ := validateControl_spec (h.life a s hs) rfl control
      have hgone := @validateControl_gone (m.cell a s) control
      generalize epSockValidateControlLocked control (m.cell a s) = r at hmoves hgone ⊢
      obtain ⟨check, d⟩ := r
      have hput : MemMoves Plain m (m.put d) := .of_moves hs hmoves
      have haddr : d.addr = a := hmoves.addr
      cases check with
      | live => exact hput.control
      | failed e => exact hput.control
      | retired e =>
        dsimp only
        split
        · have hsound := h.memMoves hput
          refine hput.control.trans (registerNew_moves hsound control.submit data ctx shape ?_ ?_)
          · intro b hb
            have hfresh := fresh b hb
            have hne : b ≠ d.addr := by
              rintro rfl
              rw [haddr, hs] at hfresh
              cases hfresh
            rw [Mem.socks_put_of_ne hne]
            exact hfresh
          · cases hnew : (m.put d).port.fdTable fd with
            | none => rfl
            | some b =>
              have hold : m.port.fdTable fd = some b := hmoves.table hnew
              obtain rfl : a = b := Option.some.inj (ht.symm.trans hold)
              rw [← haddr] at hnew
              exact absurd hnew (hsound.unnamed (Mem.put_put m rfl).symm (hgone rfl))
        · exact hput.control

theorem epollCtlAdd_moves (h : Sound m) (control : ControlAnswers) {alloc : AllocAnswers}
    (fd : Socket) (events : Events) (data : BitVec 64) (ctx : Nat)
    (fresh : ∀ a, alloc.addr = some a → m.socks a = none) :
    MemMoves Control m (epollCtlAdd control alloc fd events data ctx m).2 := by
  have hmask : ∀ bit : Events, (EPOLLONESHOT ||| EPOLLEXCLUSIVE ||| EPOLLET) &&& bit = bit →
      events &&& (EPOLLONESHOT ||| EPOLLEXCLUSIVE ||| EPOLLET) &&& bit = events &&& bit := by
    intro bit hbit
    rw [BitVec.and_assoc, hbit]
  have hx := hmask EPOLLEXCLUSIVE (by decide)
  have ho := hmask EPOLLONESHOT (by decide)
  unfold epollCtlAdd
  dsimp only
  split
  · exact .refl
  split
  · split
    · exact .refl
    split
    · exact .refl
    rename_i hallowed
    refine register_moves h control fd data ctx (fun _ => ?_) fresh
    -- EPOLLONESHOT is not one of the bits that may accompany EPOLLEXCLUSIVE
    rw [ho]
    have hsub : EPOLLONESHOT &&& ~~~exclusiveAllowed = EPOLLONESHOT := by decide
    have hnone : events &&& ~~~exclusiveAllowed = 0 := by simpa using hallowed
    rw [← hsub, BitVec.and_comm EPOLLONESHOT, ← BitVec.and_assoc, hnone]
    exact BitVec.zero_and
  · rename_i hplain
    refine register_moves h control fd data ctx (fun hne => ?_) fresh
    rw [hx] at hne
    exact absurd hne hplain

end

end WepollEx
