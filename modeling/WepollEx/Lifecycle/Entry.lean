import WepollEx.Lifecycle.Rollback

/-!
# What the table shows of a registration

The caller of `epoll_ctl` sees which descriptors are registered, and with which events and data.
The functions behind a control call change these only where they retire a registration or give it a
new interest; an answer that says the handle is closed is what makes a submission retire it.
-/

namespace WepollEx

/-- The fields by which the table knows a registration and by which its handle is recognised. -/
structure Entry where
  addr : Addr
  freed : Bool
  fdTable : Socket → Option Addr
  lifetime : LifetimeMode
  fd : Socket
  kind : RegKind
  userEvents : Events
  userData : BitVec 64
  endpointId : Nat
  tokenKnown : Bool
  /-- The provider base of a port that never looks it up again. -/
  base : Socket

def Cell.entry (c : Cell) : Entry where
  addr := c.addr
  freed := c.freed
  fdTable := c.port.fdTable
  lifetime := c.port.lifetime
  fd := c.sock.fd
  kind := c.sock.kind
  userEvents := c.sock.userEvents
  userData := c.sock.userData
  endpointId := c.sock.endpointId
  tokenKnown := c.sock.endpointIdState ≠ .unavailable
  base := if c.port.lifetime = .synchronized then c.sock.baseSocket else 0

/-- The registration's part of an entry. -/
def EpSock.shown (s : EpSock) :
    Socket × RegKind × Events × BitVec 64 × Nat × IdentityState × Socket :=
  (s.fd, s.kind, s.userEvents, s.userData, s.endpointId, s.endpointIdState, s.baseSocket)

/-- No answer says that the handle is closed. -/
structure SubmitAnswers.Open (answers : SubmitAnswers) : Prop where
  base : ∀ e, answers.base = .error e → isClosedErrno e = false
  wait : ∀ e, answers.wait ≠ .failed true e
  pollKey : ∀ e, answers.pollKey = some e → isClosedErrno e = false
  afd : ∀ e, answers.afd = .failed e → isClosedErrno e = false
  query : answers.pipe.query ≠ some (.error .invalidHandle)
  peek : answers.pipe.peek ≠ .error .invalidHandle
  zeroWrite : answers.pipe.zeroWrite ≠ .invalidHandle

section

variable {c d : Cell}

/-! ## Small functions -/

theorem mapSock_entry (c : Cell) {f : EpSock → EpSock} (h : (f c.sock).shown = c.sock.shown) :
    (c.mapSock f).entry = c.entry := by
  simp only [EpSock.shown, Prod.mk.injEq] at h
  obtain ⟨h1, h2, h3, h4, h5, h6, h7⟩ := h
  simp only [Cell.entry, Cell.mapSock, h1, h2, h3, h4, h5, h6, h7]

theorem setFlags_entry (c : Cell) (f : Flags) : (c.setFlags f).entry = c.entry := rfl

theorem setNeedsRearm_entry (c : Cell) (b : Bool) :
    (epSockSetNeedsRearmLocked c b).entry = c.entry := by
  rw [setNeedsRearm_eq, setFlags_entry]

theorem setOneshotFired_entry (c : Cell) (b : Bool) :
    (epSockSetOneshotFiredLocked c b).entry = c.entry := by
  rw [setOneshotFired_eq, setFlags_entry]

/-- A port that keeps its table keeps the entries. -/
theorem entry_withPort {p : Port} (table : p.fdTable = c.port.fdTable)
    (lifetime : p.lifetime = c.port.lifetime) : Cell.entry { c with port := p } = c.entry := by
  simp only [Cell.entry, table, lifetime]

theorem failPost_table (p : Port) (e : Errno) :
    (epPortFailIocpPost p e).fdTable = p.fdTable ∧ (epPortFailIocpPost p e).lifetime = p.lifetime := by
  unfold epPortFailIocpPost
  split <;> exact ⟨rfl, rfl⟩

theorem failPost_entry (c : Cell) (e : Errno) :
    (c.mapPort fun p => epPortFailIocpPost p e).entry = c.entry :=
  entry_withPort (failPost_table c.port e).1 (failPost_table c.port e).2

theorem postIocp_table (p : Port) (answer : Option Errno) (packet : Packet) :
    (epPortPostIocp p answer packet).2.fdTable = p.fdTable ∧
      (epPortPostIocp p answer packet).2.lifetime = p.lifetime := by
  unfold epPortPostIocp
  split
  · exact ⟨rfl, rfl⟩
  · split <;> exact ⟨rfl, rfl⟩

theorem recordAsyncError_table (p : Port) (post : Option Errno) (e : Errno) :
    (epPortRecordAsyncErrorLocked p post e).fdTable = p.fdTable ∧
      (epPortRecordAsyncErrorLocked p post e).lifetime = p.lifetime := by
  unfold epPortRecordAsyncErrorLocked
  dsimp only
  split
  · exact ⟨rfl, rfl⟩
  split
  · have hpost := postIocp_table { p with
      asynchronousErrors := p.asynchronousErrors + 1, asyncError := orEio e } post .control
    generalize epPortPostIocp _ post .control = r at hpost ⊢
    obtain ⟨failed, q⟩ := r
    cases failed with
    | none => exact hpost
    | some e' =>
      have hfail := failPost_table q e'
      exact ⟨hfail.1.trans hpost.1, hfail.2.trans hpost.2⟩
  · exact ⟨rfl, rfl⟩

theorem auxPost_entry (answer : Option Errno) (status : NtStatus) (c : Cell) :
    (epAuxPostCompletion answer status c).2.entry = c.entry := by
  unfold epAuxPostCompletion
  dsimp only
  have hpost := postIocp_table (c.mapSock fun s => { s with ioStatus := status }).port answer
    (.status (c.mapSock fun s => { s with ioStatus := status }).addr)
  generalize epPortPostIocp _ answer _ = r at hpost ⊢
  obtain ⟨failed, p⟩ := r
  cases failed with
  | none => exact entry_withPort hpost.1 hpost.2
  | some e =>
    have hfail := failPost_table p e
    exact entry_withPort (hfail.1.trans hpost.1) (hfail.2.trans hpost.2)

theorem auxArm_entry (answer : Option Errno) (c : Cell) :
    (epAuxArmLocked answer c).2.entry = c.entry := by
  unfold epAuxArmLocked
  split
  · rfl
  · split <;> rfl

theorem auxDisarm_entry (answer : Option Errno) (c : Cell) :
    (epAuxDisarmLocked answer c).2.entry = c.entry := by
  unfold epAuxDisarmLocked
  split
  · rfl
  · split <;> rfl

theorem completePending_entry (asyncPost : Option Errno) (c : Cell) :
    (epSockCompletePendingLocked asyncPost c).2.entry = c.entry := by
  unfold epSockCompletePendingLocked
  split
  · have h := recordAsyncError_table { c.port with accountingViolated := true } asyncPost EIO
    exact entry_withPort h.1 h.2
  · rfl

theorem cancel_entry (answers : CancelAnswers) (c : Cell) :
    (epSockCancelLocked answers c).2.entry = c.entry := by
  unfold epSockCancelLocked
  split
  · rfl
  split
  · have hdisarm := auxDisarm_entry answers.disarm c
    generalize epAuxDisarmLocked answers.disarm c = r at hdisarm ⊢
    obtain ⟨failed, d⟩ := r
    cases failed with
    | some e => exact hdisarm
    | none =>
      dsimp only at hdisarm ⊢
      split
      · exact hdisarm
      have hdone := completePending_entry answers.asyncPost
        (d.mapSock fun s => { s with pendingEvents := 0 })
      generalize epSockCompletePendingLocked answers.asyncPost _ = r at hdone ⊢
      obtain ⟨fine, b⟩ := r
      cases fine with
      | false => exact hdone.trans hdisarm
      | true =>
        dsimp only
        split <;> exact hdone.trans hdisarm
  · have hafd : (epAfdCancel answers.afd c).2.entry = c.entry := by
      unfold epAfdCancel
      split
      · rfl
      · split <;> rfl
    generalize epAfdCancel answers.afd c = r at hafd ⊢
    obtain ⟨failed, d⟩ := r
    cases failed <;> exact hafd

theorem cancelCovering_entry (answers : CancelAnswers) (c : Cell) :
    (cancelCovering answers c).2.entry = c.entry := by
  have h := cancel_entry answers c
  unfold cancelCovering
  generalize epSockCancelLocked answers c = r at h ⊢
  obtain ⟨failed, d⟩ := r
  cases failed <;> exact h

/-! ## Local shutdown -/

theorem localShutdownLevel_entry (answers : LevelAnswers) (c : Cell) :
    (epSockLocalShutdownLevelLocked answers c).2.entry = c.entry := by
  have hsock := localShutdownLevel_sock answers c
  have hcore := localShutdownLevel_core answers c
  have hport : (epSockLocalShutdownLevelLocked answers c).2.port.lifetime = c.port.lifetime :=
    core_congr hcore fun x => x.port.lifetime
  simp only [Cell.entry, hsock, hport]
  simp only [show (epSockLocalShutdownLevelLocked answers c).2.addr = c.addr from
      core_congr hcore Cell.addr,
    show (epSockLocalShutdownLevelLocked answers c).2.freed = c.freed from
      core_congr hcore Cell.freed,
    show (epSockLocalShutdownLevelLocked answers c).2.port.fdTable = c.port.fdTable from
      core_congr hcore fun x => x.port.fdTable]

theorem publishLocalShutdown_entry (alreadyReady : Bool) (delivered : Events) (now : Nat)
    (c : Cell) : (publishLocalShutdown alreadyReady delivered now c).entry = c.entry := by
  have hbump : (if alreadyReady then c.bumpGeneration else c).entry = c.entry := by
    split <;> rfl
  unfold publishLocalShutdown
  dsimp only
  generalize (if alreadyReady then c.bumpGeneration else c) = b at hbump ⊢
  have hrearm := setNeedsRearm_entry b false
  generalize epSockSetNeedsRearmLocked b false = d at hrearm ⊢
  have hfire : (if d.sock.isOneshot then epSockSetOneshotFiredLocked d true else d).entry =
      d.entry := by
    split
    · exact setOneshotFired_entry d true
    · rfl
  generalize (if d.sock.isOneshot then epSockSetOneshotFiredLocked d true else d) = e at hfire ⊢
  exact hfire.trans (hrearm.trans hbump)

theorem queueLocalShutdown_entry (levels : LevelAnswers) (nodeAlloc : Option Errno)
    (claims : List Classes) (now : Nat) (node : Bool) (c : Cell) :
    (epSockQueueLocalShutdownLocked levels nodeAlloc claims now node c).2.entry = c.entry := by
  have hlevel := localShutdownLevel_entry levels c
  unfold epSockQueueLocalShutdownLocked
  generalize epSockLocalShutdownLevelLocked levels c = r at hlevel ⊢
  obtain ⟨level, d⟩ := r
  refine Eq.trans ?_ hlevel
  show (queueShutdownLevel level nodeAlloc claims now node d).2.entry = d.entry
  unfold queueShutdownLevel
  generalize (if d.sock.isET = true then epEtEdge d.sock level
    else (level, d.sock.observedEvents)) = edge
  obtain ⟨fresh, observed⟩ := edge
  dsimp only
  generalize (if d.sock.readyQueued = true then d.sock.pendingEvents ||| fresh else fresh) =
    delivered
  split
  · rfl
  split
  · rfl
  split
  · rfl
  split
  · exact setNeedsRearm_entry _ true
  · exact publishLocalShutdown_entry ..

/-! ## Submission -/

/-- A submission that keeps the registration. -/
def Stays (c : Cell) (r : SubmitResult × Cell) : Prop :=
  r.2.entry = c.entry ∧ ∀ e, r.1 ≠ .retired e

theorem settlePolling_stays {r : Option Errno × Cell} (h : r.2.entry = c.entry) :
    Stays c (settlePolling r) := by
  obtain ⟨failed, d⟩ := r
  cases failed with
  | some e => exact ⟨h, nofun⟩
  | none => exact ⟨(setNeedsRearm_entry d false).trans h, nofun⟩

theorem submitWaitable_stays {answers : SubmitAnswers} (hopen : answers.Open) (c : Cell) :
    Stays c (submitWaitable answers c) := by
  unfold submitWaitable
  split
  · exact ⟨rfl, nofun⟩
  split
  · exact ⟨rfl, nofun⟩
  dsimp only
  split
  · exact settlePolling_stays (auxPost_entry ..)
  split
  · rename_i invalidHandle e hwait
    cases invalidHandle with
    | true => exact absurd hwait (hopen.wait e)
    | false => exact ⟨rfl, nofun⟩
  · exact settlePolling_stays (auxArm_entry ..)
  · refine settlePolling_stays ((auxPost_entry ..).trans ?_)
    split <;> rfl

theorem pipeSnapshot_open {answers : SubmitAnswers} (hopen : answers.Open) (s : EpSock) :
    (epPipeSnapshot answers.pipe s).localClosed = false := by
  have hfallback : (epPipeFallbackSnapshot answers.pipe s).localClosed = false := by
    unfold epPipeFallbackSnapshot
    cases hpeek : answers.pipe.peek with
    | ok available => rfl
    | error e =>
      cases e with
      | invalidHandle => exact absurd hpeek hopen.peek
      | peerClosed => rfl
      | other => rfl
      | accessDenied =>
        dsimp only
        split
        · split
          · rfl
          · cases hwrite : answers.pipe.zeroWrite with
            | invalidHandle => exact absurd hwrite hopen.zeroWrite
            | _ => rfl
        · rfl
  unfold epPipeSnapshot
  cases hquery : answers.pipe.query with
  | none => exact hfallback
  | some r =>
    cases r with
    | ok info => rfl
    | error e =>
      cases e with
      | invalidHandle => exact absurd hquery hopen.query
      | accessDenied => exact hfallback
      | peerClosed => rfl
      | other => rfl

theorem submitPipe_stays {answers : SubmitAnswers} (hopen : answers.Open) (c : Cell) :
    Stays c (submitPipe answers c) := by
  unfold submitPipe
  dsimp only
  rw [if_neg (by simp [pipeSnapshot_open hopen])]
  split
  · exact ⟨rfl, nofun⟩
  split
  · exact ⟨rfl, nofun⟩
  have hschedule : ∀ level d, (epPipeScheduleLocked answers level d).2.entry = d.entry := by
    intro level d
    unfold epPipeScheduleLocked
    split
    · rfl
    split
    · exact auxPost_entry ..
    · exact auxArm_entry ..
  refine settlePolling_stays ((hschedule _ _).trans ?_)
  split <;> rfl

/-- The base of a socket whose handle is open. -/
theorem afdPollBase_entry {answers : SubmitAnswers} (hopen : answers.Open)
    (hbase : c.port.lifetime = .synchronized → c.sock.baseSocket ≠ INVALID_SOCKET) :
    (epAfdPollBase answers.base c).2.entry = c.entry ∧
      ∀ e, (epAfdPollBase answers.base c).1 = some e → isClosedErrno e = false := by
  unfold epAfdPollBase
  split
  · rename_i hsync
    rw [if_neg (hbase hsync)]
    exact ⟨rfl, nofun⟩
  rename_i hsync
  have hkept : ∀ (b : Socket) (id : Nat) (cached : Bool), (c.mapSock fun s =>
      { s with baseSocket := b, baseSocketIdentity := id, baseSocketCached := cached }).entry =
        c.entry := by
    intro b id cached
    simp only [Cell.entry, Cell.mapSock, hsync, if_false]
    rfl
  split
  · exact ⟨rfl, nofun⟩
  split
  · rename_i e he
    refine ⟨hkept _ c.sock.baseSocketIdentity _, fun e' he' => ?_⟩
    cases he'
    exact hopen.base _ he
  · split
    · exact ⟨hkept _ c.sock.endpointId _, nofun⟩
    · exact ⟨hkept _ c.sock.baseSocketIdentity _, nofun⟩

theorem afdPollSubmit_entry {answers : SubmitAnswers} (hopen : answers.Open)
    (hbase : c.port.lifetime = .synchronized → c.sock.baseSocket ≠ INVALID_SOCKET)
    (afdEvents : AfdEvents) :
    (epAfdPollSubmit answers afdEvents c).2.entry = c.entry ∧
      ∀ e, (epAfdPollSubmit answers afdEvents c).1 = .error e → isClosedErrno e = false := by
  obtain ⟨hentry, hclosed⟩ := afdPollBase_entry hopen hbase
  unfold epAfdPollSubmit
  generalize epAfdPollBase answers.base c = r at hentry hclosed ⊢
  obtain ⟨failed, d⟩ := r
  cases failed with
  | some e =>
    refine ⟨hentry, fun e' he' => ?_⟩
    obtain rfl := Except.error.inj he'
    exact hclosed _ rfl
  | none =>
    dsimp only
    cases hkey : answers.pollKey with
    | some e =>
      refine ⟨(mapSock_entry _ rfl).trans hentry, fun e' he' => ?_⟩
      obtain rfl := Except.error.inj he'
      exact hopen.pollKey _ hkey
    | none =>
      dsimp only
      have hstatus : ((d.mapSock fun s => { s with afdInfo := ⟨1, afdEvents, 0⟩ }).mapSock fun s =>
          { s with ioStatus := STATUS_PENDING }).entry = c.entry :=
        (mapSock_entry _ rfl).trans ((mapSock_entry d rfl).trans hentry)
      generalize Cell.mapSock _ _ = b at hstatus ⊢
      cases hafd : answers.afd with
      | failed e =>
        refine ⟨hstatus, fun e' he' => ?_⟩
        obtain rfl := Except.error.inj he'
        exact hopen.afd _ hafd
      | success info => exact ⟨(mapSock_entry _ rfl).trans hstatus, nofun⟩
      | pending => exact ⟨hstatus, nofun⟩

theorem submitAfd_stays {answers : SubmitAnswers} (hopen : answers.Open)
    (hbase : c.port.lifetime = .synchronized → c.sock.baseSocket ≠ INVALID_SOCKET)
    (wantImmediate : Bool) (afdEvents : AfdEvents) :
    (submitAfd answers wantImmediate afdEvents c).2.2.entry = c.entry ∧
      ∀ e, (submitAfd answers wantImmediate afdEvents c).1 ≠ .retired e := by
  unfold submitAfd
  split
  · exact ⟨rfl, nofun⟩
  dsimp only
  obtain ⟨hentry, hclosed⟩ := afdPollSubmit_entry
    (c := c.mapSock fun s => { s with submittedWaitEpoch := c.port.activeWaitEpoch })
    hopen hbase afdEvents
  generalize epAfdPollSubmit answers afdEvents _ = r at hentry hclosed ⊢
  obtain ⟨result, d⟩ := r
  have hrearm : (epSockSetNeedsRearmLocked d false).entry = c.entry :=
    (setNeedsRearm_entry d false).trans hentry
  cases result with
  | error e =>
    dsimp only
    rw [if_neg (by simp [hclosed e rfl])]
    exact ⟨hentry, nofun⟩
  | ok pending =>
    cases pending with
    | true =>
      dsimp only
      generalize epSockSetNeedsRearmLocked d false = b at hrearm ⊢
      exact ⟨hrearm, nofun⟩
    | false =>
      dsimp only
      generalize epSockSetNeedsRearmLocked d false = b at hrearm ⊢
      split
      · exact ⟨hrearm, nofun⟩
      split
      · exact ⟨hentry, nofun⟩
      have hpolling : b.setPolling.entry = c.entry := hrearm
      generalize b.setPolling = b at hpolling ⊢
      have hpost := postIocp_table b.port answers.post (.status b.addr)
      generalize epPortPostIocp b.port answers.post _ = posted at hpost ⊢
      obtain ⟨failed, p⟩ := posted
      cases failed with
      | none => exact ⟨(entry_withPort hpost.1 hpost.2).trans hpolling, nofun⟩
      | some e =>
        dsimp only
        rw [failPost_entry, setNeedsRearm_entry]
        have hkept : Cell.entry { b with port := p } = b.entry := entry_withPort hpost.1 hpost.2
        exact ⟨hkept.trans hpolling, nofun⟩

/-- The submission of an idle registration whose identity the caller has checked. -/
theorem submit_stays {answers : SubmitAnswers} (hopen : answers.Open)
    (idle : c.sock.pollStatus = .idle)
    (hbase : c.sock.kind = .socket → c.port.lifetime = .synchronized →
      c.sock.baseSocket ≠ INVALID_SOCKET)
    (unfired : c.sock.kind = .socket → c.sock.oneshotFired = false) (wantImmediate : Bool) :
    (epSockSubmitLocked answers true wantImmediate c).2.2.entry = c.entry ∧
      ∀ e, (epSockSubmitLocked answers true wantImmediate c).1 ≠ .retired e := by
  unfold epSockSubmitLocked
  split
  · exact ⟨rfl, nofun⟩
  split
  · rw [if_neg (by simp [idle])]
    have hrearm := setNeedsRearm_entry c false
    dsimp only
    generalize epSockSetNeedsRearmLocked c false = b at hrearm ⊢
    split <;> exact ⟨hrearm, nofun⟩
  rw [if_neg (by simp [idle]), if_neg (by simp [idle])]
  split
  · exact ⟨rfl, nofun⟩
  unfold submitChecked submitIdle
  rw [if_pos (.inr rfl)]
  cases hkind : c.sock.kind with
  | waitable => exact submitWaitable_stays hopen c
  | pipe => exact submitPipe_stays hopen c
  | socket =>
    dsimp only
    unfold submitSocket
    rw [if_neg (by simp [unfired hkind])]
    split
    · exact ⟨rfl, nofun⟩
    dsimp only
    have hqueue : ∀ r : QueueResult × Cell, r = (if c.sock.localShutdown ≠ .none then
        epSockQueueLocalShutdownLocked answers.levels answers.nodeAlloc answers.claims answers.now
          false (c.mapSock fun s => { s with etHoldoff := false })
        else (.nothing, c.mapSock fun s => { s with etHoldoff := false })) →
        r.2.entry = c.entry := by
      rintro r rfl
      split
      · exact queueLocalShutdown_entry ..
      · rfl
    split
    · rename_i e d hr
      exact ⟨hqueue _ hr.symm, nofun⟩
    · rename_i d hr
      exact ⟨hqueue _ hr.symm, nofun⟩
    · rename_i d hr
      have hd := hqueue _ hr.symm
      have hsync : d.port.lifetime = c.port.lifetime := congrArg Entry.lifetime hd
      split
      · exact ⟨(setNeedsRearm_entry d false).trans hd, nofun⟩
      · obtain ⟨hentry, hresult⟩ := submitAfd_stays hopen (c := d) (fun hs => by
          have hbased := congrArg Entry.base hd
          simp only [Cell.entry, hs, hsync ▸ hs, if_true] at hbased
          rw [hbased]
          exact hbase hkind (hsync ▸ hs)) wantImmediate
            (epSockAfdEventsLocked d.port d.sock d.sock.userEvents)
        exact ⟨hentry.trans hd, hresult⟩

end

end WepollEx
