import WepollEx.Lifecycle.Flags

/-!
# The registration as a state machine

`Move` lists every way in which the port's functions change a registration: each constructor is
one indivisible change of the fields that matter for its lifetime, its pending poll, its ready
node and its latches, with the condition under which the code makes it.  The fields left out
(`Cell.core` blanks them) are caches and statistics.  Later modules show that each function of the
port is a sequence of moves, so that an invariant has to be checked once for each move.
-/

namespace WepollEx

open Intrusive Mask

/-! ## The fields that matter -/

/-- The registration without its caches, probe results and display state. -/
def EpSock.core (s : EpSock) : EpSock :=
  { s with
    baseSocket := 0
    pipeAccess := ⟨false, false⟩
    pipeSynchronousIo := false
    socketProtocol := .unknown
    udpAfdQualifierEligible := false
    asyncReadCapability := .unknown
    udpReadlessReceiveParked := false
    localShutdown := .none
    endpointId := 0
    endpointIdState := .unavailable
    identityCheckedEpoch := 0
    identityCheckedResult := .matching
    baseSocketIdentity := 0
    baseSocketCached := false
    state := .registered
    submittedAfdEvents := 0
    submittedWaitEpoch := 0
    pipeTerminalDelivered := false
    etHoldoff := false
    afdInfo := ⟨0, 0, 0⟩ }

/-- The port without its statistics, its waiter's bookkeeping and its latched errors. -/
def Port.core (p : Port) : Port :=
  { p with
    udpProbeEvent := false
    iocpPostError := 0
    waiterActive := false
    waiterCoalescing := false
    activeWaitEpoch := 0
    nextWaitEpoch := 0
    wakePending := .none
    wakeEvent := (0, 0)
    asyncError := 0
    generation := 0
    rearmWorkVisits := 0
    oneshotProbeVisits := 0
    staleEventsDropped := 0
    identityFailures := 0
    asynchronousErrors := 0
    tcpCurrentLevelProbes := 0
    tcpCurrentLevelFallbacks := 0 }

def Cell.core (c : Cell) : Cell := { c with sock := c.sock.core, port := c.port.core }

/-- Packets in the completion port or in the waiter's batch that name `a`. -/
def Port.packets (p : Port) (a : Addr) : Nat :=
  p.iocp.count (.status a) + p.iocpEntries.count (.status a)

/-- What outside the port still refers to the registration at `a`. -/
def Port.refs (p : Port) (a : Addr) : Nat :=
  (p.afdInFlight a).toNat + (p.waitArmed a).toNat + p.packets a

/-- The bits a registration may report. -/
def EpSock.interest (s : EpSock) : Events := s.userEvents ||| EPOLLERR ||| EPOLLHUP

/-- The events of the queued ready node. -/
def EpSock.queuedEvents (s : EpSock) : Events := if s.readyQueued then s.pendingEvents else 0

/-- A bit that stands for a notification, not for an error. -/
def hasSignal (events : Events) : Bool := events &&& ~~~(EPOLLERR ||| EPOLLHUP) ≠ 0

/-- The classes that a delivery of `events` leaves disarmed. -/
def disarmedAfter (c : Cell) (events : Events) : Classes :=
  if epSockExplicitRearmEnabled c.port c.sock then
    c.sock.explicitDisarmedClasses ||| epExplicitDeliveryClasses events
  else c.sock.explicitDisarmedClasses

/-! ## Moves -/

/-- The kinds of moves that some results tell apart. -/
inductive Tag
  | plain
  /-- A new registration. -/
  | inserted
  /-- The waiter takes packets off the completion port or off its batch. -/
  | dequeued
  /-- A drain takes a ready node, returns it or drops it. -/
  | delivered
  /-- A oneshot delivery fires while its registration is on the rearm list. -/
  | firedWhileRearming
  /-- A drain drops a valid node of an edge-triggered registration because the identity of its
  socket could not be queried. -/
  | suppressed
  deriving DecidableEq, Repr

inductive Move : Tag → Cell → Cell → Prop
  /-- The worklist flags change.  A fired oneshot delivery stays fired until the table has
  forgotten the registration. -/
  | relist {c : Cell} {f : Flags} (toggles : Toggles c.addr c.flags f)
      (dead : c.sock.deletePending = true → f.rearm = false ∧ f.fired = false)
      (fired : f.fired = c.sock.oneshotFired ∨
        (f.fired = false ∧ c.port.fdTable c.sock.fd ≠ some c.addr))
      (both : f.rearm = true → f.fired = true → c.sock.needsRearm = true) :
      Move .plain c (c.setFlags f)
  /-- The registration goes from one end of a worklist to its back. -/
  | rotate {c : Cell} (w : Worklist) (listed : c.sock.onWorklist w = true)
      (ends : (c.port.worklist w).head = some c.addr ∨ (c.port.worklist w).tail = some c.addr) :
      Move .plain c (c.mapPort fun p => p.setWorklist w ((p.worklist w).rotate c.addr))
  /-- Bits leave the edge latch, or those of the queued node enter it. -/
  | latch {c : Cell} {o : Events} (within : c.sock.isExclusive = false →
        Within o (c.sock.observedEvents ||| c.sock.queuedEvents)) :
      Move .plain c (c.mapSock fun s => { s with observedEvents := o })
  | pend {c : Cell} {e : Events} (unqueued : c.sock.readyQueued = false) :
      Move .plain c (c.mapSock fun s => { s with pendingEvents := e })
  | status {c : Cell} {v : NtStatus} (aux : c.sock.isAux = true → v = STATUS_SUCCESS) :
      Move .plain c (c.mapSock fun s => { s with ioStatus := v })
  /-- A failed post closes the port. -/
  | fault {c : Cell} {l : List Packet} (packets : l = c.port.iocp ∨ l = []) :
      Move .plain c (c.mapPort fun p => { p with
        closing := true
        iocpPostHandle := false
        iocpClosed := true
        iocp := l
        iocpPostFailures := p.iocpPostFailures + 1 })
  | postControl {c : Cell} :
      Move .plain c (c.mapPort fun p => { p with iocp := p.iocp ++ [.control] })
  /-- An AFD request goes out. -/
  | submitAfd {c : Cell} {o : Events} (socket : c.sock.kind = .socket)
      (idle : c.sock.pollStatus = .idle) (unqueued : c.sock.readyQueued = false)
      (unfired : c.sock.oneshotFired = false) (live : c.sock.deletePending = false)
      (within : Within o c.sock.observedEvents) :
      Move .plain c { c with
        sock := { c.sock with pollStatus := .pending, observedEvents := o }
        port := { c.port with
          afdInFlight := Function.update c.port.afdInFlight c.addr true
          pendingPollCount := c.port.pendingPollCount + 1 } }
  /-- An AFD request that was satisfied at once is posted as a packet. -/
  | postAfd {c : Cell} (socket : c.sock.kind = .socket)
      (idle : c.sock.pollStatus = .idle) (unqueued : c.sock.readyQueued = false)
      (unfired : c.sock.oneshotFired = false) (live : c.sock.deletePending = false) :
      Move .plain c { c with
        sock := { c.sock with pollStatus := .pending }
        port := { c.port with
          iocp := c.port.iocp ++ [.status c.addr]
          pendingPollCount := c.port.pendingPollCount + 1 } }
  /-- A waitable or pipe that is ready already posts its own packet. -/
  | postAux {c : Cell} (aux : c.sock.isAux = true)
      (idle : c.sock.pollStatus = .idle) (unqueued : c.sock.readyQueued = false)
      (unfired : c.sock.oneshotFired = false) (live : c.sock.deletePending = false)
      (owned : epWaitableMayConsume c.sock = true → c.sock.waitableNotificationOwned = true) :
      Move .plain c { c with
        sock := { c.sock with
          pollStatus := .pending, completionPosted := true, ioStatus := STATUS_SUCCESS }
        port := { c.port with
          iocp := c.port.iocp ++ [.status c.addr]
          pendingPollCount := c.port.pendingPollCount + 1 } }
  /-- A wait or timer is registered. -/
  | armWait {c : Cell} (aux : c.sock.isAux = true)
      (idle : c.sock.pollStatus = .idle) (unqueued : c.sock.readyQueued = false)
      (unfired : c.sock.oneshotFired = false) (live : c.sock.deletePending = false)
      (unowned : epWaitableMayConsume c.sock = true → c.sock.waitableNotificationOwned = false) :
      Move .plain c { c with
        sock := { c.sock with pollStatus := .pending, waitRegistration := true }
        port := { c.port with
          waitArmed := Function.update c.port.waitArmed c.addr true
          pendingPollCount := c.port.pendingPollCount + 1 } }
  | cancelMark {c : Cell} (pending : c.sock.pollStatus = .pending)
      (disarmed : c.port.waitArmed c.addr = false) :
      Move .plain c (c.mapSock fun s => { s with pollStatus := .cancelled })
  /-- A wait or timer is unregistered. -/
  | disarm {c : Cell} :
      Move .plain c { c with
        sock := { c.sock with waitRegistration := false }
        port := { c.port with waitArmed := Function.update c.port.waitArmed c.addr false } }
  /-- The pending poll is over. -/
  | retire {c : Cell} {p : Bool} (busy : c.sock.pollStatus ≠ .idle)
      (unreferenced : c.port.refs c.addr = 0)
      (aux : c.sock.isAux = true → c.sock.waitRegistration = false ∧ p = false) :
      Move .plain c { c with
        sock := { c.sock with pollStatus := .idle, completionPosted := p }
        port := { c.port with pendingPollCount := c.port.pendingPollCount - 1 } }
  | clearPosted {c : Cell} (taken : c.port.packets c.addr = 0) :
      Move .plain c (c.mapSock fun s => { s with completionPosted := false })
  /-- A registered wait or timer fires. -/
  | fireWait {c : Cell} (armed : c.port.waitArmed c.addr = true) :
      Move .plain c (c.mapPort fun p =>
        { p with waitArmed := Function.update p.waitArmed c.addr false })
  /-- The kernel completes an AFD request; a closed completion port swallows the packet. -/
  | finishAfd {c : Cell} {v : NtStatus} (inFlight : c.port.afdInFlight c.addr = true) :
      Move .plain c { c with
        sock := { c.sock with ioStatus := v }
        port := { c.port with
          afdInFlight := Function.update c.port.afdInFlight c.addr false
          iocp :=
            if c.port.iocpClosed then c.port.iocp else c.port.iocp ++ [.status c.addr] } }
  /-- The kernel object gives up a notification. -/
  | take {c : Cell} (consumes : epWaitableMayConsume c.sock = true)
      (unowned : c.sock.waitableNotificationOwned = false)
      (unqueued : c.sock.readyQueued = false)
      (unarmed : c.port.waitArmed c.addr = false) :
      Move .plain c c.takeNotification
  /-- The callback of a fired wait or timer posts its packet. -/
  | postFired {c : Cell} (aux : c.sock.isAux = true) (pending : c.sock.pollStatus = .pending)
      (unreferenced : c.port.refs c.addr = 0)
      (owned : epWaitableMayConsume c.sock = true → c.sock.waitableNotificationOwned = true) :
      Move .plain c { c with
        sock := { c.sock with completionPosted := true, ioStatus := STATUS_SUCCESS }
        port := { c.port with iocp := c.port.iocp ++ [.status c.addr] } }
  /-- A taken notification is forgotten by a rollback, after a post has failed. -/
  | lose {c : Cell} (failed : c.port.iocpPostFailures ≠ 0) :
      Move .plain c (c.mapPort fun p =>
        { p with consumedCount := bumpAt p.consumedCount c.sock.serial })
  /-- A ready node is queued for an idle registration, which fires a oneshot. -/
  | publish {t : Tag} {c : Cell} {e o : Events} {n : Nat} {f : Flags}
      (toggles : Toggles c.addr c.flags f) (unfired : c.sock.oneshotFired = false)
      (fires : f.fired = c.sock.isOneshot)
      (both : f.rearm = true → f.fired = true → t = .firedWhileRearming)
      (idle : c.sock.pollStatus = .idle)
      (unqueued : c.sock.readyQueued = false) (live : c.sock.deletePending = false)
      (nonzero : e ≠ 0) (interest : Within e c.sock.interest)
      (owned : epWaitableMayConsume c.sock = true →
        c.sock.waitableNotificationOwned = true ∧ hasSignal e = true)
      (armed : epSockExplicitRearmEnabled c.port c.sock = true →
        epReadinessClasses e &&& c.sock.explicitDisarmedClasses = 0)
      (latched : c.sock.isExclusive = false → Within o (c.sock.observedEvents ||| e)) :
      Move t c (Cell.setFlags { c with
        sock := { c.sock with
          pendingEvents := e
          observedEvents := o
          explicitDisarmedClasses := disarmedAfter c e
          waitableNotificationOwned :=
            !epWaitableMayConsume c.sock && c.sock.waitableNotificationOwned
          readyQueued := true }
        port := { c.port with readyQueue := c.port.readyQueue ++ [readyNodeFor c.sock e n] } } f)
  /-- A queued node is replaced by one that also carries a local shutdown. -/
  | republish {c : Cell} {e edge o : Events} {n : Nat} {f : Flags}
      (toggles : Toggles c.addr c.flags f) (unlisted : f.rearm = false)
      (fires : f.fired = c.sock.isOneshot) (idle : c.sock.pollStatus = .idle)
      (queued : c.sock.readyQueued = true) (live : c.sock.deletePending = false)
      (socket : c.sock.kind = .socket)
      (nonzero : e ≠ 0) (interest : Within e c.sock.interest)
      (armed : epSockExplicitRearmEnabled c.port c.sock = true →
        epReadinessClasses edge &&& c.sock.explicitDisarmedClasses = 0)
      (latched : c.sock.isExclusive = false →
        e = c.sock.pendingEvents ||| edge ∧ Within o (c.sock.observedEvents ||| edge)) :
      Move .plain c (Cell.setFlags { c with
        sock := { c.sock with
          pendingEvents := e
          observedEvents := o
          explicitDisarmedClasses := disarmedAfter c e
          generation := nextGeneration c.port.nextSockGeneration }
        port := { c.port.bumpGeneration with
          readyQueue := c.port.readyQueue ++
            [readyNodeFor { c.sock with
                generation := nextGeneration c.port.nextSockGeneration } e n] } } f)
  /-- A drain returns the node it holds. -/
  | deliver {c : Cell} {n : ReadyNode} {o : Events} (held : c.port.drainNode = some n)
      (fd : n.fd = c.sock.fd) (generation : n.sockGeneration = c.sock.generation)
      (table : c.port.fdTable c.sock.fd = some c.addr)
      (live : c.sock.deletePending = false) (within : Within o c.sock.observedEvents) :
      Move .delivered c { c with
        sock := { c.sock with pendingEvents := 0, readyQueued := false, observedEvents := o }
        port := { c.port with
          drainNode := none
          history := c.port.history ++ [.returned (recordFor c.sock n)] } }
  /-- A drain drops the node it holds, and the delivery it stood for. -/
  | suppress {t : Tag} {c : Cell} {n : ReadyNode} {f : Flags} (toggles : Toggles c.addr c.flags f)
      (unfired : f.fired = false) (socket : c.sock.kind = .socket)
      (held : c.port.drainNode = some n) (fd : n.fd = c.sock.fd) (generation : n.sockGeneration = c.sock.generation)
      (table : c.port.fdTable c.sock.fd = some c.addr)
      (live : c.sock.deletePending = false)
      (edge : t = .suppressed ∨ (t = .delivered ∧
        ¬(c.sock.isET = true ∧ c.sock.isExclusive = false))) :
      Move t c (Cell.setFlags { c with
        sock := { c.sock with pendingEvents := 0, readyQueued := false }
        port := { c.port with drainNode := none } } f)
  /-- A MOD of a registration whose queued notification, if any, may be forgotten or is taken
  back (`transfer`). -/
  | modify {c : Cell} {events flags : Events} {data : BitVec 64} {ctx : Nat} {transfer : Bool}
      {f : Flags} (toggles : Toggles c.addr c.flags f) (unfired : f.fired = false)
      (live : c.sock.deletePending = false)
      (plain : flags &&& EPOLLEXCLUSIVE = 0)
      (explicit : c.port.explicitRearm = true → flags &&& EPOLLET ≠ 0 → c.sock.kind = .socket)
      (holds : transfer = holdsQueuedNotification c.sock) :
      Move .plain c (Cell.setFlags { c with
        sock := { c.sock with
          userEvents := events
          userFlags := flags
          userData := data
          userCtx := ctx
          pendingEvents := 0
          observedEvents := 0
          explicitDisarmedClasses := 0
          waitableNotificationOwned := c.sock.waitableNotificationOwned || transfer
          readyQueued := false
          generation := nextGeneration c.port.nextSockGeneration }
        port := c.port.bumpGeneration.record (.modified c.sock.serial events data ctx) } f)
  /-- A MOD of a registration whose queued notification moves to a new node. -/
  | modifyQueued {c : Cell} {events flags : Events} {data : BitVec 64} {ctx n : Nat} {f : Flags}
      (toggles : Toggles c.addr c.flags f) (unlisted : f.rearm = false)
      (fires : f.fired = (flags &&& EPOLLONESHOT ≠ 0 : Bool)) (live : c.sock.deletePending = false)
      (plain : flags &&& EPOLLEXCLUSIVE = 0)
      (explicit : c.port.explicitRearm = true → flags &&& EPOLLET ≠ 0 → c.sock.kind = .socket)
      (holds : holdsQueuedNotification c.sock = true)
      (wanted : epWaitableInterestEvents events ≠ 0) :
      Move .plain c (Cell.setFlags { c with
        sock := { c.sock with
          userEvents := events
          userFlags := flags
          userData := data
          userCtx := ctx
          pendingEvents := epWaitableInterestEvents events
          observedEvents := if flags &&& EPOLLET ≠ 0 then epWaitableInterestEvents events else 0
          explicitDisarmedClasses := 0
          generation := nextGeneration c.port.nextSockGeneration }
        port := { c.port.bumpGeneration with
          history := c.port.history ++ [.modified c.sock.serial events data ctx]
          readyQueue := c.port.readyQueue ++
            [readyNodeFor { c.sock with
                userFlags := flags
                userData := data
                userCtx := ctx
                generation := nextGeneration c.port.nextSockGeneration }
              (epWaitableInterestEvents events) n] } } f)
  /-- A rearm of a fired oneshot registration. -/
  | rearm {c : Cell} {f : Flags} (toggles : Toggles c.addr c.flags f) (unfired : f.fired = false)
      (live : c.sock.deletePending = false)
      (implicit : epSockExplicitRearmEnabled c.port c.sock = false) :
      Move .plain c (Cell.setFlags { c with
        sock := { c.sock with
          pendingEvents := 0
          observedEvents := 0
          waitableNotificationOwned :=
            c.sock.waitableNotificationOwned || holdsQueuedNotification c.sock
          readyQueued := false
          generation := nextGeneration c.port.nextSockGeneration }
        port := c.port.bumpGeneration.record (.rearmed c.sock.serial) } f)
  /-- Classes are acknowledged; a fired oneshot is armed again with the last one. -/
  | acknowledge {c : Cell} {classes : Classes} {o : Events} {f : Flags}
      (toggles : Toggles c.addr c.flags f)
      (fired : f = c.flags ∨ (f.fired = false ∧ (c.sock.oneshotFired = true →
        c.sock.explicitDisarmedClasses &&& ~~~classes = 0)))
      (live : c.sock.deletePending = false)
      (unqueued : c.sock.readyQueued = false)
      (within : Within o (epReadinessFilterClasses c.sock.observedEvents classes)) :
      Move .plain c (Cell.setFlags { c with
        sock := { c.sock with
          explicitDisarmedClasses := c.sock.explicitDisarmedClasses &&& ~~~classes
          observedEvents := o }
        port := c.port.record (.classesRearmed c.sock.serial classes) } f)
  /-- An unqueued registration gets a new generation. -/
  | renew {c : Cell} (unqueued : c.sock.readyQueued = false ∨ c.sock.deletePending = true) :
      Move .plain c c.bumpGeneration
  /-- A generation is handed out and taken back. -/
  | skipGeneration {c : Cell} : Move .plain c (c.mapPort Port.bumpGeneration)
  /-- The table forgets the registration. -/
  | forget {c : Cell} :
      Move .plain c (c.mapPort fun p =>
        { p with fdTable := Function.update p.fdTable c.sock.fd none })
  | condemn {c : Cell} (absent : c.port.fdTable c.sock.fd ≠ some c.addr)
      (unlisted : c.sock.needsRearm = false) (unfired : c.sock.oneshotFired = false) :
      Move .plain c (c.mapSock fun s => { s with deletePending := true })
  /-- The storage is released. -/
  | free {c : Cell} (absent : c.port.fdTable c.sock.fd ≠ some c.addr)
      (idle : c.sock.pollStatus = .idle)
      (unlisted : c.sock.needsRearm = false) (unfired : c.sock.oneshotFired = false) :
      Move .plain c { c with
        freed := true
        port := { c.port with
          sockList := c.port.sockList.remove c.addr
          freedCount := bumpAt c.port.freedCount c.sock.serial } }

/-- Sequences of moves whose tags are allowed by `T`. -/
inductive Moves (T : Tag → Prop) : Cell → Cell → Prop
  | refl {c : Cell} : Moves T c c
  /-- The cells differ only in fields that do not matter. -/
  | quiet {c d e : Cell} : Moves T c d → e.core = d.core → Moves T c e
  | step {c d e : Cell} {t : Tag} : Moves T c d → d.freed = false → T t → Move t d e → Moves T c e

def Plain (t : Tag) : Prop := t = .plain

namespace Moves

variable {T U : Tag → Prop} {c d e : Cell}

theorem trans (hcd : Moves T c d) (hde : Moves T d e) : Moves T c e := by
  induction hde with
  | refl => exact hcd
  | quiet _ h ih => exact ih.quiet h
  | step _ hf ht hm ih => exact ih.step hf ht hm

theorem mono (hTU : ∀ t, T t → U t) (h : Moves T c d) : Moves U c d := by
  induction h with
  | refl => exact .refl
  | quiet _ h ih => exact ih.quiet h
  | step _ hf ht hm ih => exact ih.step hf (hTU _ ht) hm

theorem of_core (h : d.core = c.core) : Moves T c d := Moves.quiet .refl h

theorem of_plain (h : Moves Plain c d) (hT : T .plain) : Moves T c d :=
  h.mono fun t ht => by rw [show t = .plain from ht]; exact hT

/-- A plain move at the end of a sequence. -/
theorem plain (h : Moves Plain c d) (live : d.freed = false) (m : Move .plain d e) :
    Moves Plain c e :=
  h.step live rfl m

theorem single (live : c.freed = false) (m : Move .plain c d) : Moves Plain c d :=
  Moves.plain .refl live m

end Moves

end WepollEx
