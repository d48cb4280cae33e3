import WepollEx.Lifecycle.Entry
import WepollEx.System.Runs

/-!
# The registered set behind control calls

The registered descriptors with their events and data, and what an ADD, a MOD or a DEL does to them
when the handle it names is open and still names the object that is registered.
-/

namespace WepollEx

/-- The events and the data of a registered descriptor. -/
def Mem.registered (m : Mem) (fd : Socket) : Option (Events × BitVec 64) :=
  ((m.port.fdTable fd).bind m.socks).map fun s => (s.userEvents, s.userData)

/-- The handle still names the object that was registered. -/
def EpSock.Recognised (token : Socket → Nat) (lifetime : LifetimeMode) (s : EpSock) : Prop :=
  s.kind = .socket → (lifetime = .synchronized → s.baseSocket ≠ INVALID_SOCKET) ∧
    (s.endpointIdState ≠ .unavailable → s.endpointId = token s.fd)

/-- The answers of a call on a descriptor that stays open and keeps its endpoint token. -/
structure SameObject (token : Socket → Nat) (fd : Socket) (control : ControlAnswers)
    (alloc : AllocAnswers) : Prop where
  endpoint : ∀ id, control.identity.endpoint = .token id → id = token fd
  answered : ∀ e, control.identity.endpoint = .error e → isClosedErrno (orEio e) = false
  soType : ∀ e, control.identity.soType = some e → isClosedErrno e = false
  submit : control.submit.Open
  newEndpoint : ∀ id, alloc.endpoint = .token id → id = token fd
  newBase : ∀ info base, alloc.target = .ok info → info.kind = .socket base → base ≠ INVALID_SOCKET

/-- The entry with another interest. -/
def Entry.withInterest (e : Entry) (events : Events) (data : BitVec 64) : Entry :=
  { e with userEvents := events, userData := data }

section

variable {c d : Cell} {token : Socket → Nat} {events : Events} {data : BitVec 64}

theorem entry_withInterest_self (c : Cell) :
    c.entry.withInterest c.sock.userEvents c.sock.userData = c.entry := rfl

theorem EpSock.Recognised.of_entry (h : c.sock.Recognised token c.port.lifetime)
    (hentry : d.entry = c.entry.withInterest events data) :
    d.sock.Recognised token d.port.lifetime := by
  intro hkind
  have hlifetime : d.port.lifetime = c.port.lifetime := congrArg Entry.lifetime hentry
  have hbase := congrArg Entry.base hentry
  have htoken : d.sock.endpointId = c.sock.endpointId := congrArg Entry.endpointId hentry
  have hfd : d.sock.fd = c.sock.fd := congrArg Entry.fd hentry
  have hknown : (decide (d.sock.endpointIdState ≠ .unavailable) : Bool) =
      decide (c.sock.endpointIdState ≠ .unavailable) := congrArg Entry.tokenKnown hentry
  obtain ⟨hsync, hid⟩ := h ((congrArg Entry.kind hentry).symm.trans hkind)
  constructor
  · intro hs
    simp only [Cell.entry, Entry.withInterest, hlifetime, hlifetime.symm.trans hs, if_true] at hbase
    rw [hbase]
    exact hsync (hlifetime.symm.trans hs)
  · intro hne
    rw [htoken, hfd]
    refine hid fun hno => hne ?_
    simpa [hno] using hknown

/-! ## The check before a control call -/

theorem validateIdentity_open {control : ControlAnswers} {alloc : AllocAnswers}
    (h : c.sock.Recognised token c.port.lifetime)
    (answers : SameObject token c.sock.fd control alloc) :
    (epSockValidateIdentityLocked control.identity false c).2.2.entry = c.entry ∧
      ((epSockValidateIdentityLocked control.identity false c).1 = .matching ∨
        (epSockValidateIdentityLocked control.identity false c).1 = .error) := by
  have hfailed : (c.mapPort fun p =>
      { p with identityFailures := p.identityFailures + 1 }).entry = c.entry := rfl
  unfold epSockValidateIdentityLocked
  dsimp only
  split
  · exact ⟨rfl, .inl rfl⟩
  rename_i hkind
  split
  · cases hso : control.identity.soType with
    | none => exact ⟨rfl, .inl rfl⟩
    | some e =>
      dsimp only
      rw [if_neg (by simp [answers.soType e hso])]
      exact ⟨hfailed, .inr rfl⟩
  rename_i hknown
  cases hend : control.identity.endpoint with
  | unavailable =>
    cases hso : control.identity.soType with
    | none => exact ⟨hfailed, .inr rfl⟩
    | some e =>
      dsimp only
      rw [if_neg (by simp [answers.soType e hso])]
      exact ⟨hfailed, .inr rfl⟩
  | error e =>
    dsimp only
    rw [if_neg (by simp [answers.answered e hend])]
    cases hso : control.identity.soType with
    | none => exact ⟨hfailed, .inr rfl⟩
    | some e' =>
      dsimp only
      rw [if_neg (by simp [answers.soType e' hso])]
      exact ⟨hfailed, .inr rfl⟩
  | token id =>
    have hid : id = c.sock.endpointId :=
      (answers.endpoint id hend).trans ((h (by simpa using hkind)).2 hknown).symm
    dsimp only
    rw [if_pos hid]
    refine ⟨?_, .inl rfl⟩
    -- a token that settles stays known
    unfold EpSock.settleEndpoint
    simp only [Cell.entry, Cell.mapSock]
    split
    · rename_i hsettle
      simp only [Bool.and_eq_true, decide_eq_true_eq] at hsettle
      simp [hsettle.1]
    · rfl

/-- The check of an open handle that still names the registered object retires nothing. -/
theorem validateControl_open {control : ControlAnswers} {alloc : AllocAnswers}
    (h : c.sock.Recognised token c.port.lifetime)
    (answers : SameObject token c.sock.fd control alloc) :
    (epSockValidateControlLocked control c).2.entry = c.entry ∧
      ∀ e, (epSockValidateControlLocked control c).1 ≠ .retired e := by
  unfold epSockValidateControlLocked
  split
  · exact ⟨rfl, nofun⟩
  obtain ⟨hentry, hcheck⟩ := validateIdentity_open h answers
  generalize epSockValidateIdentityLocked control.identity false c = r at hentry hcheck ⊢
  obtain ⟨check, e, d⟩ := r
  rcases hcheck with hcheck | hcheck
  · obtain rfl : check = .matching := hcheck
    exact ⟨hentry, nofun⟩
  · obtain rfl : check = .error := hcheck
    exact ⟨hentry, nofun⟩

/-! ## MOD -/

theorem modifyPendingPoll_entry (answers : ControlAnswers) (events : Events) (c : Cell) :
    (modifyPendingPoll answers events c).2.entry = c.entry := by
  have hcancel := cancelCovering_entry answers.cancel c
  unfold modifyPendingPoll
  split
  · rfl
  dsimp only
  split
  · exact hcancel
  split
  · rfl
  split
  · exact hcancel
  split
  · rfl
  · exact hcancel

theorem ite_entry (p : Prop) [Decidable p] {x y : Cell} {e : Entry} (hx : x.entry = e)
    (hy : y.entry = e) : (if p then x else y).entry = e := by
  split
  · exact hx
  · exact hy

theorem modifyApply_entry (events flags : Events) (data : BitVec 64) (ctx : Nat) (covers : Bool)
    (now : Nat) (c : Cell) :
    (modifyApply events flags data ctx covers now c).entry =
      c.entry.withInterest events data := by
  unfold modifyApply
  extract_lets interest dormant preserve transfer c₁ c₂ c₃ c₄ c₅ c₆ c₇ c₈ c₉ c₁₀
  have h₁ : c₁.entry = c.entry.withInterest events data := rfl
  have h₂ : c₂.entry = c.entry.withInterest events data := (setOneshotFired_entry c₁ false).trans h₁
  have h₃ : c₃.entry = c.entry.withInterest events data := (mapSock_entry c₂ rfl).trans h₂
  have h₄ : c₄.entry = c.entry.withInterest events data :=
    ite_entry _ ((setNeedsRearm_entry c₃ false).trans h₃)
      (ite_entry _ ((setNeedsRearm_entry c₃ true).trans h₃) h₃)
  have h₅ : c₅.entry = c.entry.withInterest events data := (mapSock_entry c₄ rfl).trans h₄
  have h₇ : c₇.entry = c.entry.withInterest events data := h₅
  have h₈ : c₈.entry = c.entry.withInterest events data := (mapSock_entry c₇ rfl).trans h₇
  have h₉ : c₉.entry = c.entry.withInterest events data :=
    ite_entry _ ((setOneshotFired_entry c₈ true).trans h₈) h₈
  have h₁₀ : c₁₀.entry = c.entry.withInterest events data := (mapSock_entry c₉ rfl).trans h₉
  exact ite_entry _ h₁₀ (ite_entry _ ((mapSock_entry c₇ rfl).trans h₇) h₇)

/-- The rollback of a MOD writes the old interest and the old identity back. -/
theorem modifyRollback_entry {before : Cell} (h : c.entry = before.entry.withInterest events data) :
    (modifyRollback before c).entry = before.entry := by
  have haddr : c.addr = before.addr := congrArg Entry.addr h
  have hfreed : c.freed = before.freed := congrArg Entry.freed h
  have htable : c.port.fdTable = before.port.fdTable := congrArg Entry.fdTable h
  have hlifetime : c.port.lifetime = before.port.lifetime := congrArg Entry.lifetime h
  have hfd : c.sock.fd = before.sock.fd := congrArg Entry.fd h
  have hkind : c.sock.kind = before.sock.kind := congrArg Entry.kind h
  simp only [modifyRollback, restoreWorklist_eq, Cell.entry, Cell.mapSock, Cell.setFlags,
    Cell.unrecord, Cell.mapPort, haddr, hfreed, htable, hlifetime, hfd, hkind]

/-- The outcome of a call that sets an interest. -/
def SetsInterest (c : Cell) (events : Events) (data : BitVec 64) (r : CtlResult × Cell) : Prop :=
  (∀ e, r.1 = .fail e → r.2.entry = c.entry) ∧
    ∀ wake, r.1 = .ok wake → r.2.entry = c.entry.withInterest events data

theorem SetsInterest.fail (e : Errno) (h : d.entry = c.entry) :
    SetsInterest c events data (.fail e, d) := ⟨fun _ _ => h, nofun⟩

theorem SetsInterest.ok (wake : Bool) (h : d.entry = c.entry.withInterest events data) :
    SetsInterest c events data (.ok wake, d) := ⟨nofun, fun _ _ => h⟩

theorem modifySubmit_entry {answers : ControlAnswers} {before : Cell} (hopen : answers.submit.Open)
    (h : c.entry = before.entry.withInterest events data)
    (hbase : c.sock.kind = .socket → c.port.lifetime = .synchronized →
      c.sock.baseSocket ≠ INVALID_SOCKET)
    (unfired : c.sock.kind = .socket → c.sock.oneshotFired = false) :
    SetsInterest before events data (modifySubmit answers before c) := by
  unfold modifySubmit
  split
  · rename_i hgo
    simp only [Bool.and_eq_true, decide_eq_true_eq] at hgo
    obtain ⟨hentry, hstays⟩ := submit_stays hopen hgo.1.2 hbase unfired false
    generalize epSockSubmitLocked answers.submit true false c = r at hentry hstays ⊢
    obtain ⟨result, immediate, d⟩ := r
    cases result with
    | ok => exact .ok _ (hentry.trans h)
    | retired e => exact absurd rfl (hstays e)
    | failed e => exact .fail e (modifyRollback_entry (hentry.trans h))
  · exact .ok _ h

theorem modifyLocked_entry {answers : ControlAnswers} (hopen : answers.submit.Open)
    (recognised : c.sock.Recognised token c.port.lifetime) (events flags : Events)
    (data : BitVec 64) (ctx : Nat) :
    SetsInterest c events data (modifyLocked answers events flags data ctx c) := by
  unfold modifyLocked
  split
  · exact .fail _ rfl
  split
  · exact .fail _ rfl
  split
  · exact .fail _ rfl
  have hpoll := modifyPendingPoll_entry answers events c
  generalize modifyPendingPoll answers events c = r at hpoll ⊢
  obtain ⟨result, d⟩ := r
  cases result with
  | error e => exact .fail e hpoll
  | ok covers =>
    dsimp only
    split
    · exact .fail _ hpoll
    have happly := modifyApply_entry events flags data ctx covers answers.now d
    have hd : d.entry = c.entry := hpoll
    have hrecognised := recognised.of_entry (hd.trans (entry_withInterest_self c).symm)
    have hset : SetsInterest d events data (modifySubmit answers d
        (modifyApply events flags data ctx covers answers.now d)) := by
      refine modifySubmit_entry hopen happly (fun hk hs => ?_) fun hk => ?_
      · exact ((hrecognised.of_entry happly) hk).1 hs
      · -- only a waitable keeps a queued notification, and only that fires the new oneshot
        have hkind : d.sock.kind = .socket := (congrArg Entry.kind happly).symm.trans hk
        have hcore := @modifyApply_core d events flags data ctx covers answers.now
          fun hh => by rw [holds_waitable hh] at hkind; cases hkind
        exact core_congr hcore fun x => x.sock.oneshotFired
    exact ⟨fun e he => (hset.1 e he).trans hd, fun w hw => (hset.2 w hw).trans (by rw [hd])⟩

/-! ## DEL -/

theorem freeIfIdle_table (c : Cell) : (freeIfIdle c).port.fdTable = c.port.fdTable ∧
    (freeIfIdle c).port.lifetime = c.port.lifetime ∧ (freeIfIdle c).addr = c.addr := by
  unfold freeIfIdle epSockFreeLocked
  split
  · simp only [setNeedsRearm_eq, setOneshotFired_eq]
    exact ⟨rfl, rfl, rfl⟩
  · exact ⟨rfl, rfl, rfl⟩

theorem unregisterLocked_table (answers : ControlAnswers)
    (named : c.port.fdTable c.sock.fd = some c.addr) :
    (unregisterLocked answers c).1 = .ok false ∧
      (unregisterLocked answers c).2.addr = c.addr ∧
      (unregisterLocked answers c).2.port.lifetime = c.port.lifetime ∧
      (unregisterLocked answers c).2.port.fdTable =
        Function.update c.port.fdTable c.sock.fd none := by
  have hcancel : (if c.sock.pollStatus = .pending then (epSockCancelLocked answers.cancel c).2
      else c).entry = c.entry := by
    split
    · exact cancel_entry ..
    · rfl
  unfold unregisterLocked
  dsimp only
  generalize (if c.sock.pollStatus = .pending then (epSockCancelLocked answers.cancel c).2
    else c) = b at hcancel ⊢
  have haddr : b.addr = c.addr := congrArg Entry.addr hcancel
  have htable : b.port.fdTable = c.port.fdTable := congrArg Entry.fdTable hcancel
  have hlifetime : b.port.lifetime = c.port.lifetime := congrArg Entry.lifetime hcancel
  have hfd : b.sock.fd = c.sock.fd := congrArg Entry.fd hcancel
  have hforget : epFdTableForget b = b.mapPort fun p =>
      { p with fdTable := Function.update p.fdTable b.sock.fd none } := by
    rw [epFdTableForget, if_pos (by rw [htable, hfd, haddr]; exact named)]
  rw [hforget]
  simp only [setNeedsRearm_eq]
  generalize hx : countChange _ = x
  obtain ⟨h1, h2, h3⟩ := freeIfIdle_table x
  rw [h1, h2, h3, ← hx]
  refine ⟨trivial, haddr, hlifetime, ?_⟩
  show Function.update b.port.fdTable b.sock.fd none = _
  rw [htable, hfd]

/-! ## ADD -/

theorem allocSocketFields_recognised {control : ControlAnswers} {alloc : AllocAnswers}
    {fd base : Socket} {p : Port} {s : EpSock} (answers : SameObject token fd control alloc)
    (hbase : base ≠ INVALID_SOCKET) (h : (allocSocketFields alloc p fd base).1 = .ok s)
    (lifetime : LifetimeMode) : s.Recognised token lifetime := by
  intro _
  unfold allocSocketFields at h
  dsimp only at h
  split at h
  · split at h
    · cases h
    · cases h
      exact ⟨fun _ => hbase, fun hno => absurd rfl hno⟩
  split at h
  · cases h
  · split at h
    · cases h
    · split at h
      · cases h
      · cases h
        exact ⟨fun _ => hbase, fun hno => absurd rfl hno⟩
  · rename_i id hid
    split at h
    · cases h
    · cases h
      exact ⟨fun _ => hbase, fun _ => answers.newEndpoint id hid⟩

/-- A new registration is of the object the descriptor names. -/
theorem alloc_recognised {control : ControlAnswers} {alloc : AllocAnswers} {fd : Socket} {p q : Port}
    {a : Addr} {s : EpSock} (answers : SameObject token fd control alloc)
    (h : epSockAllocLocked alloc fd p = (.ok (a, s), q)) (lifetime : LifetimeMode) :
    s.Recognised token lifetime := by
  unfold epSockAllocLocked at h
  split at h
  · cases h
  rename_i info htarget
  split at h
  · cases h
  split at h
  · cases h
  split at h
  · cases h
  split at h
  · cases h
  split at h
  · cases h
  rename_i s' q' hfields
  cases h
  unfold allocFields at hfields
  split at hfields
  · rename_i base hkind
    have hs := allocSocketFields_recognised (p := p) answers (answers.newBase info base htarget hkind)
      (congrArg Prod.fst hfields) lifetime
    exact hs
  · cases hfields
    exact nofun
  · cases hfields
    exact nofun
  · cases hfields

/-- The first submission of a registration that the table names keeps it there, or takes it out and
releases it. -/
theorem registerSubmit_entry {answers : SubmitAnswers} (hopen : answers.Open)
    (idle : c.sock.pollStatus = .idle) (unfired : c.sock.oneshotFired = false)
    (recognised : c.sock.Recognised token c.port.lifetime)
    (named : c.port.fdTable c.sock.fd = some c.addr) :
    (∀ e, (registerSubmit answers c).1 = .fail e →
      (registerSubmit answers c).2.freed = true ∧ (registerSubmit answers c).2.addr = c.addr ∧
        (registerSubmit answers c).2.port.lifetime = c.port.lifetime ∧
        (registerSubmit answers c).2.port.fdTable =
          Function.update c.port.fdTable c.sock.fd none) ∧
    ∀ wake, (registerSubmit answers c).1 = .ok wake →
      wake = false ∧ (registerSubmit answers c).2.entry = c.entry := by
  obtain ⟨b, hb, hentry, hidle, hunfired⟩ : ∃ b, (if !epWaitableIsDormant c.sock then
      epSockSetNeedsRearmLocked c true else c) = b ∧ b.entry = c.entry ∧
        b.sock.pollStatus = .idle ∧ b.sock.oneshotFired = false := by
    split
    · refine ⟨_, rfl, setNeedsRearm_entry c true, ?_, ?_⟩
      · rw [setNeedsRearm_eq]
        exact idle
      · rw [setNeedsRearm_eq]
        exact unfired
    · exact ⟨c, rfl, rfl, idle, unfired⟩
  have hrecognised := recognised.of_entry (hentry.trans (entry_withInterest_self c).symm)
  unfold registerSubmit
  simp only [hb]
  split
  · obtain ⟨hsubmit, hstays⟩ := submit_stays hopen hidle (fun hk hs => (hrecognised hk).1 hs)
      (fun _ => hunfired) false
    generalize epSockSubmitLocked answers true false b = r at hsubmit hstays ⊢
    obtain ⟨result, immediate, d⟩ := r
    have hd : d.entry = c.entry := hsubmit.trans hentry
    cases result with
    | ok => exact ⟨(by simp), fun wake hw => ⟨(CtlResult.ok.inj hw).symm, hd⟩⟩
    | retired e => exact absurd rfl (hstays e)
    | failed e =>
      refine ⟨fun e' _ => ?_, (by simp)⟩
      have haddr : d.addr = c.addr := congrArg Entry.addr hd
      have htable : d.port.fdTable = c.port.fdTable := congrArg Entry.fdTable hd
      have hfd : d.sock.fd = c.sock.fd := congrArg Entry.fd hd
      have hlifetime : d.port.lifetime = c.port.lifetime := congrArg Entry.lifetime hd
      have hforget : epFdTableForget d = d.mapPort fun p =>
          { p with fdTable := Function.update p.fdTable d.sock.fd none } := by
        rw [epFdTableForget, if_pos (by rw [htable, hfd, haddr]; exact named)]
      simp only [hforget, epSockFreeLocked, setNeedsRearm_eq, setOneshotFired_eq]
      refine ⟨trivial, haddr, hlifetime, ?_⟩
      show Function.update d.port.fdTable d.sock.fd none = _
      rw [htable, hfd]
  · exact ⟨(by simp), fun wake hw => ⟨(CtlResult.ok.inj hw).symm, hentry⟩⟩

end

/-! ## The whole port -/

/-- The listed descriptors that are registered name the objects that are registered. -/
def Mem.Recognises (token : Socket → Nat) (listed : Socket → Prop) (m : Mem) : Prop :=
  ∀ fd, listed fd → ∀ a s, m.port.fdTable fd = some a → m.socks a = some s →
    s.Recognised token m.port.lifetime

section

variable {m : Mem} {d : Cell} {token : Socket → Nat} {listed : Socket → Prop} {fd : Socket}
  {a : Addr} {s : EpSock} {control : ControlAnswers} {alloc : AllocAnswers} {events : Events}
  {data : BitVec 64}

theorem registered_of_named (named : m.port.fdTable fd = some a) (found : m.socks a = some s) :
    m.registered fd = some (s.userEvents, s.userData) := by
  simp [Mem.registered, named, found]

/-- No other descriptor names the registration at `a`. -/
def Mem.Alone (m : Mem) (fd : Socket) (a : Addr) : Prop :=
  ∀ fd' b, fd' ≠ fd → m.port.fdTable fd' = some b → b ≠ a

theorem Sound.alone (h : Sound m) (named : m.port.fdTable fd = some a) : m.Alone fd a := by
  rintro fd' b hne hb rfl
  obtain ⟨s, hs, hfd⟩ := h.table fd b named
  obtain ⟨s', hs', hfd'⟩ := h.table fd' b hb
  obtain rfl := Option.some.inj (hs.symm.trans hs')
  exact hne (hfd'.symm.trans hfd)

theorem Sound.alone_fresh (h : Sound m) (fresh : m.socks a = none) (fd : Socket) :
    m.Alone fd a := by
  rintro fd' b - hb rfl
  obtain ⟨s, hs, -⟩ := h.table fd' b hb
  rw [fresh] at hs
  cases hs

/-- Writing a registration back that `fd` names, or that has left the table. -/
theorem registered_put (alone : m.Alone fd a) (haddr : d.addr = a) (named : Bool)
    (live : named = true → d.freed = false)
    (table : d.port.fdTable = Function.update m.port.fdTable fd (if named then some a else none)) :
    (m.put d).registered = Function.update m.registered fd
      (if named then some (d.sock.userEvents, d.sock.userData) else none) := by
  funext fd'
  have htable : (m.put d).port.fdTable fd' =
      Function.update m.port.fdTable fd (if named then some a else none) fd' := congrFun table fd'
  by_cases hfd : fd' = fd
  · subst hfd
    rw [Function.update_self] at htable ⊢
    cases named with
    | false => simp [Mem.registered, htable]
    | true =>
      refine registered_of_named htable ?_
      rw [← haddr, Mem.socks_put_self, live rfl]
      rfl
  · rw [Function.update_of_ne hfd] at htable ⊢
    simp only [Mem.registered, htable]
    cases hb : m.port.fdTable fd' with
    | none => rfl
    | some b =>
      simp only [Option.bind_some]
      rw [Mem.socks_put_of_ne (haddr ▸ alone fd' b hfd hb)]

theorem recognises_put (recognises : m.Recognises token listed) (alone : m.Alone fd a)
    (haddr : d.addr = a) (named : Bool) (lifetime : d.port.lifetime = m.port.lifetime)
    (table : d.port.fdTable = Function.update m.port.fdTable fd (if named then some a else none))
    (recognised : named = true → d.sock.Recognised token d.port.lifetime) :
    (m.put d).Recognises token listed := by
  intro fd' hl b s' hb hs'
  have htable : (m.put d).port.fdTable fd' =
      Function.update m.port.fdTable fd (if named then some a else none) fd' := congrFun table fd'
  rw [hb] at htable
  by_cases hfd : fd' = fd
  · subst hfd
    rw [Function.update_self] at htable
    cases named with
    | false => cases htable
    | true =>
      rcases Mem.found_put hs' with ⟨-, rfl, -⟩ | ⟨hne, -⟩
      · exact recognised rfl
      · exact absurd ((Option.some.inj htable).trans haddr.symm) hne
  · rw [Function.update_of_ne hfd] at htable
    rw [Mem.socks_put_of_ne (haddr ▸ alone fd' b hfd htable.symm)] at hs'
    rw [show (m.put d).port.lifetime = m.port.lifetime from lifetime]
    exact recognises fd' hl b s' htable.symm hs'

/-- Writing a registration back whose entry is what it was. -/
theorem registered_same (h : Sound m) (recognises : m.Recognises token listed)
    (named : m.port.fdTable fd = some a) (found : m.socks a = some s)
    (recognised : s.Recognised token m.port.lifetime) (hd : d.entry = (m.cell a s).entry) :
    (m.put d).registered = m.registered ∧ (m.put d).Recognises token listed := by
  have htable : d.port.fdTable = Function.update m.port.fdTable fd (some a) := by
    rw [← named, Function.update_eq_self]
    exact congrArg Entry.fdTable hd
  have hput := registered_put (h.alone named) (congrArg Entry.addr hd) true
    (fun _ => congrArg Entry.freed hd) htable
  rw [if_pos rfl, show d.sock.userEvents = s.userEvents from congrArg Entry.userEvents hd,
    show d.sock.userData = s.userData from congrArg Entry.userData hd,
    ← registered_of_named named found, Function.update_eq_self] at hput
  refine ⟨hput, recognises_put recognises (h.alone named) (congrArg Entry.addr hd) true
    (congrArg Entry.lifetime hd) htable fun _ => ?_⟩
  exact EpSock.Recognised.of_entry (c := m.cell a s) recognised
    (hd.trans (entry_withInterest_self _).symm)

/-- What a call on a descriptor does before its operation: it does not find a registration, fails
and keeps its entry, or goes on with its entry. -/
theorem onRegistration_open (op : Cell → CtlResult × Cell) (h : Sound m)
    (recognises : m.Recognises token listed) (hlisted : listed fd)
    (answers : SameObject token fd control alloc) :
    (∃ e, onRegistration control op fd m = (.fail e, m)) ∨
      ∃ a s c, m.port.fdTable fd = some a ∧ m.socks a = some s ∧ s.fd = fd ∧
        s.Recognised token m.port.lifetime ∧ c.entry = (m.cell a s).entry ∧
        ((∃ e, onRegistration control op fd m = (.fail e, m.put c)) ∨
          onRegistration control op fd m = ((op c).1, m.put (op c).2)) := by
  cases named : m.port.fdTable fd with
  | none => exact .inl ⟨epTargetFailAbsent control.target, by simp only [onRegistration, named]⟩
  | some a =>
    obtain ⟨s, hs, hfd⟩ := h.table fd a named
    have hrec : s.Recognised token m.port.lifetime := recognises fd hlisted a s named hs
    obtain ⟨hentry, hstays⟩ := validateControl_open (c := m.cell a s) hrec
      (show SameObject token s.fd control alloc from hfd.symm ▸ answers)
    refine .inr ⟨a, s, (epSockValidateControlLocked control (m.cell a s)).2, rfl, hs, hfd, hrec,
      hentry, ?_⟩
    simp only [onRegistration, named, hs]
    generalize epSockValidateControlLocked control (m.cell a s) = r at hstays ⊢
    obtain ⟨check, c⟩ := r
    cases check with
    | retired e => exact absurd rfl (hstays e)
    | failed e => exact .inl ⟨e, rfl⟩
    | live => exact .inr rfl

/-- How a call changes the registered set, given the interest it sets. -/
structure Changes (token : Socket → Nat) (listed : Socket → Prop) (m : Mem) (fd : Socket)
    (fits : Option (Events × BitVec 64) → Prop) (value : Option (Events × BitVec 64))
    (r : CtlResult × Mem) : Prop where
  fail : ∀ e, r.1 = .fail e → r.2.registered = m.registered
  ok : ∀ wake, r.1 = .ok wake →
    fits (m.registered fd) ∧ r.2.registered = Function.update m.registered fd value
  recognises : r.2.Recognises token listed

/-- A call that sets an interest on a registered descriptor. -/
theorem onRegistration_changes {op : Cell → CtlResult × Cell} (h : Sound m)
    (recognises : m.Recognises token listed) (hlisted : listed fd)
    (answers : SameObject token fd control alloc)
    (hop : ∀ c : Cell, c.sock.Recognised token c.port.lifetime →
      SetsInterest c events data (op c)) :
    Changes token listed m fd (· ≠ none) (some (events, data)) (onRegistration control op fd m) := by
  rcases onRegistration_open op h recognises hlisted answers with
    ⟨e, heq⟩ | ⟨a, s, c, named, hs, hfd, hrec, hentry, ⟨e, heq⟩ | heq⟩ <;> rw [heq]
  · exact ⟨fun _ _ => rfl, nofun, recognises⟩
  · obtain ⟨hview, hrecs⟩ := registered_same h recognises named hs hrec hentry
    exact ⟨fun _ _ => hview, nofun, hrecs⟩
  · have hset := hop c (EpSock.Recognised.of_entry (c := m.cell a s) hrec
      (hentry.trans (entry_withInterest_self _).symm))
    generalize op c = r at hset ⊢
    obtain ⟨result, d⟩ := r
    cases result with
    | fail e =>
      obtain ⟨hview, hrecs⟩ :=
        registered_same h recognises named hs hrec ((hset.1 e rfl).trans hentry)
      exact ⟨fun _ _ => hview, nofun, hrecs⟩
    | ok wake =>
      have hd : d.entry = (m.cell a s).entry.withInterest events data :=
        (hset.2 wake rfl).trans (congrArg (Entry.withInterest · events data) hentry)
      have htable : d.port.fdTable = Function.update m.port.fdTable fd (some a) := by
        rw [← named, Function.update_eq_self]
        exact congrArg Entry.fdTable hd
      refine ⟨nofun, fun _ _ => ⟨?_, ?_⟩, ?_⟩
      · rw [registered_of_named named hs]
        exact nofun
      · have hput := registered_put (h.alone named) (congrArg Entry.addr hd) true
          (fun _ => congrArg Entry.freed hd) htable
        rwa [if_pos rfl, show d.sock.userEvents = events from congrArg Entry.userEvents hd,
          show d.sock.userData = data from congrArg Entry.userData hd] at hput
      · exact recognises_put recognises (h.alone named) (congrArg Entry.addr hd) true
          (congrArg Entry.lifetime hd) htable
          fun _ => EpSock.Recognised.of_entry (c := m.cell a s) hrec hd

/-- A DEL takes a registered descriptor out of the set, or fails and keeps it. -/
theorem unregister_changes (h : Sound m) (recognises : m.Recognises token listed)
    (hlisted : listed fd) (answers : SameObject token fd control alloc) :
    Changes token listed m fd (· ≠ none) none (epPortUnregister control fd m) := by
  unfold epPortUnregister
  rcases onRegistration_open (unregisterLocked control) h recognises hlisted answers with
    ⟨e, heq⟩ | ⟨a, s, c, named, hs, hfd, hrec, hentry, ⟨e, heq⟩ | heq⟩ <;> rw [heq]
  · exact ⟨fun _ _ => rfl, nofun, recognises⟩
  · obtain ⟨hview, hrecs⟩ := registered_same h recognises named hs hrec hentry
    exact ⟨fun _ _ => hview, nofun, hrecs⟩
  · have htable : c.port.fdTable = m.port.fdTable := congrArg Entry.fdTable hentry
    have haddr : c.addr = a := congrArg Entry.addr hentry
    have hcfd : c.sock.fd = fd := (congrArg Entry.fd hentry).trans hfd
    obtain ⟨hok, haddr', hlifetime, hforget⟩ := unregisterLocked_table control
      (c := c) (by rw [htable, hcfd, haddr]; exact named)
    rw [htable, hcfd] at hforget
    refine ⟨fun e he => ?_, fun wake _ => ⟨?_, ?_⟩, ?_⟩
    · rw [hok] at he
      cases he
    · rw [registered_of_named named hs]
      exact nofun
    · exact registered_put (h.alone named) (haddr'.trans haddr) false nofun hforget
    · exact recognises_put recognises (h.alone named) (haddr'.trans haddr) false
        (hlifetime.trans (congrArg Entry.lifetime hentry)) hforget nofun

theorem registered_withPort {q : Port} (htable : q.fdTable = m.port.fdTable)
    (hlifetime : q.lifetime = m.port.lifetime) (recognises : m.Recognises token listed) :
    ({ m with port := q } : Mem).registered = m.registered ∧
      ({ m with port := q } : Mem).Recognises token listed := by
  constructor
  · funext fd
    simp only [Mem.registered, htable]
  · intro fd hl a s named found
    show s.Recognised token q.lifetime
    rw [hlifetime]
    exact recognises fd hl a s (htable ▸ named) found

/-- An ADD of a descriptor that is not registered puts it into the set, or fails and does not. -/
theorem registerNew_changes {flags : Events} {ctx : Nat} (h : Sound m)
    (recognises : m.Recognises token listed) (answers : SameObject token fd control alloc)
    (fresh : ∀ a, alloc.addr = some a → m.socks a = none) (absent : m.port.fdTable fd = none) :
    Changes token listed m fd (· = none) (some (events, data))
      (registerNew alloc control.submit fd events flags data ctx m) := by
  unfold registerNew
  rcases alloc_cases alloc fd m.port with ⟨e, q, halloc, hq⟩ | ⟨a, s, q, halloc, haddr, hfresh, hq⟩
  · have htable : q.fdTable = m.port.fdTable := (congrArg Port.fdTable hq :)
    have hlifetime : q.lifetime = m.port.lifetime := (congrArg Port.lifetime hq :)
    obtain ⟨hview, hrecs⟩ := registered_withPort htable hlifetime recognises
    rw [halloc]
    exact ⟨fun _ _ => hview, nofun, hrecs⟩
  have hrec := alloc_recognised answers halloc m.port.lifetime
  have htable : q.fdTable = m.port.fdTable := (congrArg Port.fdTable hq :)
  have hlifetime : q.lifetime = m.port.lifetime := (congrArg Port.lifetime hq :)
  obtain ⟨hview, hrecs⟩ := registered_withPort (q := q.bumpGeneration) htable hlifetime recognises
  obtain ⟨kind, semantics, hs⟩ := hfresh
  have hfd : s.fd = fd := (congrArg EpSock.fd hs :)
  have hidle : s.pollStatus = .idle := (congrArg EpSock.pollStatus hs :)
  have hunfired : s.oneshotFired = false := (congrArg EpSock.oneshotFired hs :)
  rw [halloc]
  dsimp only
  split
  · exact ⟨fun _ _ => hview, nofun, hrecs⟩
  split
  · exact ⟨fun _ _ => hview, nofun, hrecs⟩
  set c := registerInsert ⟨a, s.withInterest events flags data ctx, q.bumpGeneration, false⟩ with hc
  simp only [show ({ s with
    userEvents := events
    userFlags := flags
    userData := data
    userCtx := ctx } : EpSock) = s.withInterest events flags data ctx from rfl, ← hc]
  have hinserted : c.port.fdTable = Function.update m.port.fdTable fd (some a) := by
    rw [← htable, ← hfd]
    rfl
  have hcfd : c.sock.fd = fd := hfd
  have hcrec : c.sock.Recognised token c.port.lifetime :=
    show s.Recognised token q.lifetime from hlifetime.symm ▸ hrec
  obtain ⟨hfail, hok⟩ := registerSubmit_entry (c := c) answers.submit hidle hunfired hcrec
    (by rw [hinserted, hcfd, Function.update_self]; rfl)
  have halone := h.alone_fresh (fresh a haddr) fd
  have hnone : m.registered fd = none := by simp [Mem.registered, absent]
  generalize registerSubmit control.submit c = r at hfail hok ⊢
  obtain ⟨result, d⟩ := r
  cases result with
  | fail e =>
    obtain ⟨hfreed, hda, hdl, hdt⟩ := hfail e rfl
    have hforget : d.port.fdTable = Function.update m.port.fdTable fd none := by
      rw [show d.port.fdTable = _ from hdt, hinserted, hcfd, Function.update_idem]
    have hput := registered_put halone hda false nofun hforget
    refine ⟨fun _ _ => ?_, nofun, ?_⟩
    · rw [show (m.put d).registered = _ from hput, if_neg (by decide), ← hnone,
        Function.update_eq_self]
    · exact recognises_put recognises halone hda false (hdl.trans hlifetime) hforget nofun
  | ok wake =>
    obtain ⟨-, hd⟩ := hok wake rfl
    have hdt : d.port.fdTable = Function.update m.port.fdTable fd (some a) :=
      (congrArg Entry.fdTable hd).trans hinserted
    have hput := registered_put halone (congrArg Entry.addr hd) true
      (fun _ => congrArg Entry.freed hd) hdt
    refine ⟨nofun, fun _ _ => ⟨hnone, ?_⟩, ?_⟩
    · rwa [if_pos rfl, show d.sock.userEvents = events from congrArg Entry.userEvents hd,
        show d.sock.userData = data from congrArg Entry.userData hd] at hput
    · refine recognises_put recognises halone (congrArg Entry.addr hd) true
        ((congrArg Entry.lifetime hd).trans hlifetime) hdt fun _ => ?_
      exact hcrec.of_entry
        (hd.trans (entry_withInterest_self _).symm)

theorem epPortRegister_changes {flags : Events} {ctx : Nat} (h : Sound m)
    (recognises : m.Recognises token listed) (hlisted : listed fd)
    (answers : SameObject token fd control alloc)
    (fresh : ∀ a, alloc.addr = some a → m.socks a = none) :
    Changes token listed m fd (· = none) (some (events, data))
      (epPortRegister control alloc fd events flags data ctx m) := by
  unfold epPortRegister
  split
  · exact ⟨fun _ _ => rfl, nofun, recognises⟩
  split
  · exact ⟨fun _ _ => rfl, nofun, recognises⟩
  cases named : m.port.fdTable fd with
  | none => exact registerNew_changes h recognises answers fresh named
  | some a =>
    obtain ⟨s, hs, hfd⟩ := h.table fd a named
    have hrec : s.Recognised token m.port.lifetime := recognises fd hlisted a s named hs
    obtain ⟨hentry, hstays⟩ := validateControl_open (c := m.cell a s) hrec
      (show SameObject token s.fd control alloc from hfd.symm ▸ answers)
    simp only [hs]
    generalize epSockValidateControlLocked control (m.cell a s) = r at hentry hstays ⊢
    obtain ⟨check, c⟩ := r
    obtain ⟨hview, hrecs⟩ := registered_same h recognises named hs hrec hentry
    cases check with
    | retired e => exact absurd rfl (hstays e)
    | failed e => exact ⟨fun _ _ => hview, nofun, hrecs⟩
    | live => exact ⟨fun _ _ => hview, nofun, hrecs⟩

theorem epollCtlAdd_changes {ctx : Nat} (h : Sound m) (recognises : m.Recognises token listed)
    (hlisted : listed fd) (answers : SameObject token fd control alloc)
    (fresh : ∀ a, alloc.addr = some a → m.socks a = none) :
    Changes token listed m fd (· = none) (some (events, data))
      (epollCtlAdd control alloc fd events data ctx m) := by
  have hregister (flags : Events) : Changes token listed m fd (· = none) (some (events, data))
      (epPortRegister control alloc fd events flags data ctx m) :=
    epPortRegister_changes h recognises hlisted answers fresh
  unfold epollCtlAdd
  split
  · exact ⟨fun _ _ => rfl, nofun, recognises⟩
  split
  · split
    · exact ⟨fun _ _ => rfl, nofun, recognises⟩
    · split
      · exact ⟨fun _ _ => rfl, nofun, recognises⟩
      · exact hregister _
  · exact hregister _

theorem epollCtlMod_changes {ctx : Nat} (h : Sound m) (recognises : m.Recognises token listed)
    (hlisted : listed fd) (answers : SameObject token fd control alloc) :
    Changes token listed m fd (· ≠ none) (some (events, data))
      (epollCtlMod control fd events data ctx m) := by
  unfold epollCtlMod
  split
  · exact ⟨fun _ _ => rfl, nofun, recognises⟩
  split
  · exact ⟨fun _ _ => rfl, nofun, recognises⟩
  · exact onRegistration_changes h recognises hlisted answers fun c hrec =>
      modifyLocked_entry answers.submit hrec events _ data ctx

end

end WepollEx
