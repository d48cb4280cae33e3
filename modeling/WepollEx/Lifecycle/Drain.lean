import WepollEx.Lifecycle.Arm
import WepollEx.System.Machine

/-!
# Drains, dispatch and callbacks

The waiter's other critical sections, and what the kernel does to a registration.
-/

namespace WepollEx

open Mask

attribute [local simp] Cell.core EpSock.core Port.core Cell.mapSock Cell.mapPort Cell.setFlags
  Cell.flags Flags.needs Flags.fire Cell.record Port.record

/-! ## Drain of one node -/

section

variable {T : Tag → Prop} {c : Cell} {m : Mem} {node : ReadyNode}

/-- The cell of a drain that holds a valid node. -/
structure Holds (c : Cell) (node : ReadyNode) : Prop where
  live : c.freed = false
  held : c.port.drainNode = some node
  fd : node.fd = c.sock.fd
  generation : node.sockGeneration = c.sock.generation
  table : c.port.fdTable c.sock.fd = some c.addr
  alive : c.sock.deletePending = false

theorem Holds.of_core {d : Cell} (h : Holds c node) (hcore : d.core = c.core) : Holds d node := by
  have hc : Holds c.core node := ⟨h.live, h.held, h.fd, h.generation, h.table, h.alive⟩
  rw [← hcore] at hc
  exact ⟨hc.live, hc.held, hc.fd, hc.generation, hc.table, hc.alive⟩

/-- The drain has handed its node over. -/
def Cell.emptyHanded (c : Cell) : Cell := c.mapPort fun p => { p with drainNode := none }

theorem drained_moves (delivered : T .delivered) (h : Holds c node) (pipeEt : Bool)
    (snapshot : PipeSnapshot) :
    Moves T c ((c.mapSock (drainedSock pipeEt snapshot node)).mapPort fun p =>
      { p with
        drainNode := none
        history := p.history ++ [.returned (recordFor c.sock node)] }) := by
  have hm : Move .delivered c _ := Move.deliver
    (o := (drainedSock pipeEt snapshot node c.sock).observedEvents) h.held h.fd h.generation
    h.table h.alive ?_
  · refine (Moves.step .refl h.live delivered hm).quiet ?_
    simp [drainedSock]
  · unfold drainedSock
    dsimp only
    split
    · exact .zero _
    split
    · exact .zero _
    · exact .refl _

theorem rearmDrained_eq (c : Cell) : ∃ b, rearmDrained c =
    (c.mapSock fun s => { s with etHoldoff := false }).setFlags (c.flags.needs c.addr b) := by
  unfold rearmDrained
  dsimp only
  rw [setNeedsRearm_eq]
  exact ⟨_, rfl⟩

theorem noteReturned_core (maxevents : Nat) (first : Bool) (node : ReadyNode) (c : Cell) :
    (noteReturned maxevents first node c).emptyHanded.core =
      Cell.core (c.mapPort fun p => { p with
        drainNode := none
        history := p.history ++ [.returned (recordFor c.sock node)] }) := by
  unfold noteReturned
  dsimp only
  split <;> rfl

theorem drainDeliver_moves (plain : T .plain) (delivered : T .delivered) (h : Holds c node)
    (answers : PipeAnswers) (maxevents : Nat) (first : Bool) :
    Moves T c (drainDeliver answers maxevents first node c).emptyHanded := by
  unfold drainDeliver
  dsimp only
  generalize (decide (c.sock.kind = .pipe) && c.sock.isET) = pipeEt
  generalize (if pipeEt then epPipeSnapshot answers c.sock else PipeSnapshot.blank) = snapshot
  have hdrained := drained_moves delivered h pipeEt snapshot
  set d := c.mapSock (drainedSock pipeEt snapshot node) with hd
  have halive : d.sock.deletePending = false := h.alive
  split
  · rename_i hguard
    have hunfired : d.sock.oneshotFired = false := by
      simp only [Bool.and_eq_true, Bool.not_eq_true'] at hguard
      exact hguard.1.1
    obtain ⟨b, hb⟩ := rearmDrained_eq d
    rw [hb]
    set d' := d.mapPort fun p => { p with
      drainNode := none
      history := p.history ++ [.returned (recordFor c.sock node)] } with hd'
    have hneeds := setNeedsRearm_moves (c := d') h.live b (fun _ => ⟨halive, hunfired⟩)
      (fun _ => hunfired)
    refine (hdrained.trans (hneeds.of_plain plain)).quiet ?_
    rw [noteReturned_core, setNeedsRearm_eq]
    rfl
  · refine hdrained.quiet ?_
    rw [noteReturned_core]
    rfl

/-- The record of an error depends neither on the table nor on the held node. -/
theorem recordAsyncError_patch (p : Port) (table : Socket → Option Addr)
    (node : Option ReadyNode) (post : Option Errno) (e : Errno) :
    epPortRecordAsyncErrorLocked { p with fdTable := table, drainNode := node } post e =
      { epPortRecordAsyncErrorLocked p post e with fdTable := table, drainNode := node } := by
  unfold epPortRecordAsyncErrorLocked
  by_cases hlatched : p.asyncError = 0
  · by_cases hopen : (!p.closing && !p.waiterActive && !p.iocpClosed) = true
    · simp only [Bool.and_eq_true, Bool.not_eq_true'] at hopen
      cases hhandle : p.iocpPostHandle with
      | false => simp [hlatched, hopen, epPortPostIocp, epPortFailIocpPost]
      | true =>
        cases post with
        | none => simp [hlatched, hopen, epPortPostIocp]
        | some e' => simp [hlatched, hopen, epPortPostIocp, epPortFailIocpPost]
    · simp [hlatched, hopen]
  · simp [hlatched]

theorem recordAsyncError_withNode (p : Port) (node : Option ReadyNode) (post : Option Errno)
    (e : Errno) : { epPortRecordAsyncErrorLocked p post e with drainNode := node } =
      epPortRecordAsyncErrorLocked { p with drainNode := node } post e := by
  have hpatch := recordAsyncError_patch p p.fdTable node post e
  have htable : (epPortRecordAsyncErrorLocked p post e).fdTable = p.fdTable := by
    have := congrArg Port.fdTable (recordAsyncError_patch p p.fdTable p.drainNode post e)
    exact this
  exact (congrArg (fun t => { epPortRecordAsyncErrorLocked p post e with
    fdTable := t, drainNode := node }) htable).trans hpatch.symm

theorem recordAsyncError_withTable (p : Port) (table : Socket → Option Addr)
    (post : Option Errno) (e : Errno) :
    epPortRecordAsyncErrorLocked { p with fdTable := table } post e =
      { epPortRecordAsyncErrorLocked p post e with fdTable := table } := by
  have hpatch := recordAsyncError_patch p table p.drainNode post e
  have hnode : (epPortRecordAsyncErrorLocked p post e).drainNode = p.drainNode := by
    have := congrArg Port.drainNode (recordAsyncError_patch p p.fdTable p.drainNode post e)
    exact this
  exact hpatch.trans (congrArg (fun n => { epPortRecordAsyncErrorLocked p post e with
    fdTable := table, drainNode := n }) hnode.symm)

theorem drainSuppress_moves (plain : T .plain) (delivered : T .delivered) (h : Holds c node)
    (socket : c.sock.kind = .socket)
    (edge : c.sock.isET = true → c.sock.isExclusive = false → T .suppressed)
    (asyncPost : Option Errno) (e : Errno) :
    Moves T c (drainSuppress asyncPost e c).emptyHanded := by
  obtain ⟨t, ht, hedge⟩ : ∃ t, T t ∧ (t = .suppressed ∨ (t = .delivered ∧
      ¬(c.sock.isET = true ∧ c.sock.isExclusive = false))) := by
    by_cases hlatched : c.sock.isET = true ∧ c.sock.isExclusive = false
    · exact ⟨.suppressed, edge hlatched.1 hlatched.2, .inl rfl⟩
    · exact ⟨.delivered, delivered, .inr ⟨rfl, hlatched⟩⟩
  have hdrop := Moves.step .refl h.live ht (.suppress (.needs true (.fire false .refl)) rfl socket
    h.held h.fd h.generation h.table h.alive hedge)
  set d : Cell := { c with
    sock := { c.sock with pendingEvents := 0, readyQueued := false }
    port := { c.port with drainNode := none } } with hd
  have hrecord := recordAsyncError_moves
    (c := d.setFlags ((c.flags.fire c.addr false).needs c.addr true)) (by exact h.live) asyncPost e
  refine (hdrop.trans (hrecord.of_plain plain)).quiet ?_
  unfold drainSuppress rearmWithError Cell.emptyHanded
  simp only [setNeedsRearm_eq, setOneshotFired_eq, Cell.mapPort, recordAsyncError_withNode]
  rfl

/-- The node is valid for an edge-triggered registration whose identity check fails now. -/
def drainSuppresses (answers : DrainAnswers) (node : ReadyNode) (m : Mem) : Bool :=
  match m.port.fdTable node.fd with
  | none => false
  | some a =>
    match m.socks a with
    | none => false
    | some s => m.port.lifetime = .strict && s.generation = node.sockGeneration &&
        !s.deletePending && s.isET && !s.isExclusive &&
        (epSockValidateIdentityForDeliveryLocked answers.identity (m.cell a s)).1 = .error

/-- The port after the drain has let go of its node. -/
def Mem.emptyHanded (m : Mem) : Mem := { m with port := { m.port with drainNode := none } }

theorem Mem.put_emptyHanded (m : Mem) (c : Cell) : (m.put c).emptyHanded = m.put c.emptyHanded := rfl

theorem discard_moves (delivered : T .delivered) (held : m.port.drainNode = some node)
    (stale : ∀ a s, m.port.fdTable node.fd = some a → m.socks a = some s →
      s.generation = node.sockGeneration → s.deletePending = true) :
    MemMoves T m m.emptyHanded :=
  .single (.port delivered (.discard held stale))

/-- The queue and the held node of a port. -/
def Port.nodes (p : Port) : List ReadyNode × Option ReadyNode := (p.readyQueue, p.drainNode)

theorem setNeedsRearm_nodes (c : Cell) (b : Bool) :
    (epSockSetNeedsRearmLocked c b).port.nodes = c.port.nodes := by
  rw [setNeedsRearm_eq]
  rfl

theorem setOneshotFired_nodes (c : Cell) (b : Bool) :
    (epSockSetOneshotFiredLocked c b).port.nodes = c.port.nodes := by
  rw [setOneshotFired_eq]
  rfl

theorem freeIfIdle_nodes (c : Cell) : (freeIfIdle c).port.nodes = c.port.nodes := by
  unfold freeIfIdle epSockFreeLocked
  split
  · exact (setOneshotFired_nodes _ _).trans (setNeedsRearm_nodes _ _)
  · rfl

theorem forget_nodes (c : Cell) : (epFdTableForget c).port.nodes = c.port.nodes := by
  rw [forget_eq]
  rfl

theorem dropClosed_nodes (c : Cell) : (epSockDropClosedLocked c).port.nodes = c.port.nodes := by
  unfold epSockDropClosedLocked
  rw [freeIfIdle_nodes]
  exact (setOneshotFired_nodes _ _).trans ((setNeedsRearm_nodes _ _).trans (forget_nodes c))

theorem retireStale_nodes (h : Lifecycle c) (live : c.freed = false) (answers : CancelAnswers) :
    (epSockRetireStaleLocked answers c).port.nodes = c.port.nodes := by
  unfold epSockRetireStaleLocked
  dsimp only
  rw [dropClosed_nodes]
  split
  · have := congrArg Port.nodes (cancel_cancelled h live answers).port
    exact this
  · rfl

/-- A registration whose socket is gone is retired and its node dropped. -/
theorem retireHeld_moves (plain : T .plain) (delivered : T .delivered) (h : Sound m) {a : Addr}
    {s : EpSock} {d : Cell} (found : m.socks a = some s)
    (held : m.port.drainNode = some node) (table : m.port.fdTable node.fd = some a)
    (hcore : d.core = (m.cell a s).core) (answers : CancelAnswers) :
    MemMoves T m (m.put (epSockRetireStaleLocked answers d)).emptyHanded := by
  have hlife : Lifecycle d := (h.life a s found).of_core hcore
  have hlive : d.freed = false := core_congr hcore Cell.freed
  have hmoves := (Moves.of_core hcore).trans (retireStale_moves hlife hlive answers)
  have hput := MemMoves.of_moves found (hmoves.of_plain plain)
  have hnodes := retireStale_nodes hlife hlive answers
  have hheld : (m.put (epSockRetireStaleLocked answers d)).port.drainNode = some node := by
    have h1 := congrArg Prod.snd hnodes
    have h2 : d.port.drainNode = m.port.drainNode := core_congr hcore fun x => x.port.drainNode
    exact (h1.trans h2).trans held
  refine hput.trans (discard_moves delivered hheld fun b s' hb _ _ => ?_)
  have hold : m.port.fdTable node.fd = some b := hmoves.table hb
  obtain rfl : a = b := Option.some.inj (table.symm.trans hold)
  have hgone : (epSockRetireStaleLocked answers d).freed = true ∨
      (epSockRetireStaleLocked answers d).sock.deletePending = true := dropClosed_gone _
  have haddr : (epSockRetireStaleLocked answers d).addr = a := hmoves.addr
  have hne : (m.put (epSockRetireStaleLocked answers d)).port.fdTable node.fd ≠
      some (epSockRetireStaleLocked answers d).addr :=
    (h.memMoves hput).unnamed (Mem.put_put m rfl).symm hgone
  rw [haddr] at hne
  exact absurd hb hne

theorem drainNode_moves (plain : T .plain) (delivered : T .delivered) (h : Sound m) (held : m.port.drainNode = some node)
    (answers : DrainAnswers) (maxevents : Nat) (first : Bool)
    (edge : drainSuppresses answers node m = true → T .suppressed) :
    MemMoves T m (drainNodeLocked answers maxevents first node m).2.emptyHanded := by
  have hstale : (∀ a s, m.port.fdTable node.fd = some a → m.socks a = some s →
      s.generation = node.sockGeneration → s.deletePending = true) →
      MemMoves T m (Mem.emptyHanded { m with port := { m.port with
        staleEventsDropped := m.port.staleEventsDropped + 1 } }) := by
    intro stale
    have hquiet : MemMoves T m { m with port := { m.port with
        staleEventsDropped := m.port.staleEventsDropped + 1 } } := .of_core rfl
    exact hquiet.trans (discard_moves delivered (by exact held) stale)
  unfold drainNodeLocked
  unfold drainSuppresses at edge
  dsimp only
  cases ht : m.port.fdTable node.fd with
  | none =>
    refine hstale fun a s hta => ?_
    simp [ht] at hta
  | some a =>
    rw [ht] at edge
    dsimp only at edge ⊢
    cases hs : m.socks a with
    | none =>
      refine hstale fun b s hta hsb => ?_
      obtain rfl : a = b := Option.some.inj (ht.symm.trans hta)
      simp [hs] at hsb
    | some s =>
      rw [hs] at edge
      dsimp only at edge ⊢
      obtain ⟨s', hs', hfd⟩ := h.table node.fd a ht
      obtain rfl : s = s' := Option.some.inj (hs.symm.trans hs')
      split
      · rename_i hvalid
        obtain ⟨hgen, halive⟩ := hvalid
        have hholds : Holds (m.cell a s) node :=
          ⟨rfl, held, hfd.symm, hgen.symm, by rw [show (m.cell a s).sock.fd = node.fd from hfd]; exact ht,
            by simpa [Mem.cell] using halive⟩
        have hdeliver : ∀ d : Cell, d.core = (m.cell a s).core → MemMoves T m
            (m.put (drainDeliver answers.pipe maxevents first node d)).emptyHanded := by
          intro d hcore
          rw [Mem.put_emptyHanded]
          have hmoves := drainDeliver_moves plain delivered (hholds.of_core hcore) answers.pipe
            maxevents first
          exact .of_moves hs ((Moves.of_core hcore).trans hmoves)
        split
        · exact hdeliver _ rfl
        have hcore := validateForDelivery_core answers.identity (m.cell a s)
        have hkind := @validateForDelivery_error answers.identity (m.cell a s)
        generalize epSockValidateIdentityForDeliveryLocked answers.identity (m.cell a s) = r
          at hcore hkind edge ⊢
        obtain ⟨check, e, d⟩ := r
        have hretire := retireHeld_moves plain delivered h hs held ht hcore answers.cancel
        cases check with
        | stale => exact hretire
        | closed => exact hretire
        | matching => exact hdeliver d hcore
        | error =>
          dsimp only
          split
          · rename_i hstrict
            rw [Mem.put_emptyHanded]
            have hlifetime : d.port.lifetime = m.port.lifetime :=
              core_congr hcore fun x => x.port.lifetime
            have het : d.sock.isET = s.isET := core_congr hcore fun x => x.sock.isET
            have hex : d.sock.isExclusive = s.isExclusive := core_congr hcore fun x => x.sock.isExclusive
            have hsocket : d.sock.kind = .socket :=
              (core_congr hcore fun x => x.sock.kind).trans (hkind rfl)
            refine .of_moves hs ((Moves.of_core hcore).trans
              (drainSuppress_moves plain delivered (hholds.of_core hcore) hsocket ?_
                answers.asyncPost e))
            intro hET hEx
            refine edge ?_
            simp only [Bool.and_eq_true, decide_eq_true_eq]
            exact ⟨⟨⟨⟨⟨hlifetime.symm.trans hstrict, hgen⟩, by simpa using halive⟩, het.symm.trans hET⟩,
              by rw [← hex, hEx]; rfl⟩, trivial⟩
          · exact hdeliver d hcore
      · rename_i hinvalid
        refine hstale fun b s' hta hsb hgen => ?_
        obtain rfl : a = b := Option.some.inj (ht.symm.trans hta)
        obtain rfl : s = s' := Option.some.inj (hs.symm.trans hsb)
        simpa [hgen] using hinvalid

/-! ## The whole drain -/

theorem recordAsyncError_queue (p : Port) (post : Option Errno) (e : Errno) :
    (epPortRecordAsyncErrorLocked p post e).readyQueue = p.readyQueue := by
  unfold epPortRecordAsyncErrorLocked
  dsimp only
  split
  · rfl
  split
  · set q : Port := { p with
      asynchronousErrors := p.asynchronousErrors + 1, asyncError := orEio e } with hq
    rcases postIocp_cases q post .control with h | ⟨e', h⟩
    · rw [h]
    · rw [h]
      dsimp only
      unfold epPortFailIocpPost
      split <;> rfl
  · rfl

theorem drainDeliver_queue (answers : PipeAnswers) (maxevents : Nat) (first : Bool)
    (node : ReadyNode) (c : Cell) :
    (drainDeliver answers maxevents first node c).port.readyQueue = c.port.readyQueue := by
  have hnote : ∀ d : Cell, (noteReturned maxevents first node d).port.readyQueue =
      d.port.readyQueue := by
    intro d
    unfold noteReturned
    dsimp only
    split <;> rfl
  unfold drainDeliver
  dsimp only
  rw [hnote]
  generalize (decide (c.sock.kind = .pipe) && c.sock.isET) = pipeEt
  generalize (if pipeEt then epPipeSnapshot answers c.sock else PipeSnapshot.blank) = snapshot
  split
  · obtain ⟨b, hb⟩ := rearmDrained_eq (c.mapSock (drainedSock pipeEt snapshot node))
    rw [hb]
    rfl
  · rfl

/-- A drain adds nothing to the queue. -/
theorem drainNode_queue (h : Sound m) (answers : DrainAnswers) (maxevents : Nat) (first : Bool)
    (node : ReadyNode) :
    (drainNodeLocked answers maxevents first node m).2.port.readyQueue = m.port.readyQueue := by
  unfold drainNodeLocked
  dsimp only
  split
  · rfl
  split
  · rfl
  rename_i a _ _ s found
  split
  · split
    · exact drainDeliver_queue _ _ _ _ _
    have hcore := validateForDelivery_core answers.identity (m.cell a s)
    generalize epSockValidateIdentityForDeliveryLocked answers.identity (m.cell a s) = r at hcore ⊢
    obtain ⟨check, e, d⟩ := r
    have hqueue : d.port.readyQueue = m.port.readyQueue :=
      core_congr hcore fun x => x.port.readyQueue
    have hretire : (epSockRetireStaleLocked answers.cancel d).port.readyQueue =
        m.port.readyQueue := by
      have := congrArg Prod.fst (retireStale_nodes ((h.life a s found).of_core hcore)
        (core_congr hcore Cell.freed) answers.cancel)
      exact this.trans hqueue
    cases check with
    | stale => exact hretire
    | closed => exact hretire
    | matching => exact (drainDeliver_queue _ _ _ _ _).trans hqueue
    | error =>
      dsimp only
      split
      · show (drainSuppress answers.asyncPost e d).port.readyQueue = _
        unfold drainSuppress rearmWithError
        simp only [setNeedsRearm_eq, setOneshotFired_eq, Cell.mapPort_port, recordAsyncError_queue]
        exact hqueue
      · exact (drainDeliver_queue _ _ _ _ _).trans hqueue
  · rfl

/-- The drain of `node` and of what follows it drops a valid node at some point. -/
def drainLoopSuppresses (answers : Nat → DrainAnswers) (maxevents : Nat) (node : ReadyNode) :
    List ReadyNode → List EventRecord → Mem → Bool
  | rest, out, m =>
    drainSuppresses (answers rest.length) node m ||
      (let (record, m) := drainNodeLocked (answers rest.length) maxevents (out.length = 0) node m
      let out := out ++ record.toList
      match rest with
      | [] => false
      | next :: rest =>
        out.length < maxevents && drainLoopSuppresses answers maxevents next rest out
          { m with port := { m.port with readyQueue := rest, drainNode := some next } })

theorem drainLoop_moves (plain : T .plain) (delivered : T .delivered) (answers : Nat → DrainAnswers) (maxevents : Nat)
    {rest : List ReadyNode} (out : List EventRecord) (h : Sound m)
    (held : m.port.drainNode = some node) (queue : m.port.readyQueue = rest)
    (edge : drainLoopSuppresses answers maxevents node rest out m = true → T .suppressed) :
    MemMoves T m (drainLoop answers maxevents node rest out m).2 := by
  induction rest generalizing m node out with
  | nil =>
    unfold drainLoopSuppresses at edge
    unfold drainLoop
    exact drainNode_moves plain delivered h held _ _ _ fun hs => edge (by rw [Bool.or_eq_true]; exact .inl hs)
  | cons next rest ih =>
    unfold drainLoopSuppresses at edge
    unfold drainLoop
    set r := drainNodeLocked (answers (next :: rest).length) maxevents (decide (out.length = 0))
      node m with hr
    have hnode := drainNode_moves plain delivered h held (answers (next :: rest).length) maxevents
      (decide (out.length = 0)) fun hs => edge (by rw [Bool.or_eq_true]; exact .inl hs)
    rw [← hr] at hnode
    have hqueue : r.2.emptyHanded.port.readyQueue = next :: rest :=
      (drainNode_queue h _ _ _ node).trans queue
    dsimp only
    split
    · rename_i hroom
      have hpop := hnode.tail (.port delivered (.pop rfl hqueue))
      refine hpop.trans (ih _ (h.memMoves hpop) rfl rfl fun hs => edge ?_)
      rw [Bool.or_eq_true]
      refine .inr ?_
      rw [Bool.and_eq_true]
      exact ⟨decide_eq_true hroom, hs⟩
    · exact hnode

/-- The locked part of a drain drops a valid node. -/
def epDrainSuppresses (answers : Nat → DrainAnswers) (maxevents : Nat) (m : Mem) : Bool :=
  match m.port.drainNode with
  | none => false
  | some node => drainLoopSuppresses answers maxevents node m.port.readyQueue [] m

theorem drainToBuffer_moves (plain : T .plain) (delivered : T .delivered) (h : Sound m)
    (answers : Nat → DrainAnswers) (maxevents : Nat)
    (edge : epDrainSuppresses answers maxevents m = true → T .suppressed) :
    MemMoves T m (epDrainToBufferLocked answers maxevents m).2 := by
  unfold epDrainToBufferLocked
  unfold epDrainSuppresses at edge
  cases hn : m.port.drainNode with
  | none => exact .refl
  | some node =>
    rw [hn] at edge
    exact drainLoop_moves plain delivered answers maxevents [] h hn rfl edge

/-! ## Dispatch -/

/-- The oldest packet of the batch, taken off it, finds its registration unreferenced. -/
theorem Sound.dequeued (h : Sound m) {a : Addr} {s : EpSock} {rest : List Packet}
    (oldest : m.port.iocpEntries = .status a :: rest) (found : m.socks a = some s) :
    Dequeued (Mem.cell { m with port := { m.port with iocpEntries := rest } } a s) := by
  have hlife := h.life a s found
  have hpackets : m.port.packets a = Port.packets { m.port with iocpEntries := rest } a + 1 := by
    rw [packets_eq, packets_eq, oldest, List.count_cons_self]
    rfl
  have hrefs := hlife.refs_le
  have hcount : m.port.refs a = Port.refs { m.port with iocpEntries := rest } a + 1 := by
    rw [refs_eq, refs_eq, hpackets]
    rfl
  have hsound : Sound { m with port := { m.port with iocpEntries := rest } } :=
    h.memMove (T := fun _ => True) (.port trivial (.consume oldest))
  refine ⟨hsound.life a s found, rfl, ?_, fun hm => ?_⟩
  · have : m.port.refs a ≤ 1 := hrefs
    show Port.refs { m.port with iocpEntries := rest } a = 0
    omega
  · refine hlife.packet_owned hm ?_
    show m.port.packets a ≠ 0
    omega

/-- The packet's completion fires a oneshot registration that is on the rearm list. -/
def dispatchRefires (packet : Packet) (m : Mem) : Bool :=
  match packet with
  | .control => false
  | .status a =>
    match m.socks a with
    | none => false
    | some s => completionRefires (m.cell a s)

theorem dispatch_moves (plain : T .plain) (dequeued : T .dequeued) (h : Sound m) {packet : Packet} {rest : List Packet}
    (oldest : m.port.iocpEntries = packet :: rest) (answers : CompletionAnswers)
    (both : dispatchRefires packet { m with port := { m.port with iocpEntries := rest } } = true →
      T .firedWhileRearming) :
    MemMoves T m (epPortDispatchIocpEntry answers packet
      { m with port := { m.port with iocpEntries := rest } }) := by
  have hconsume : MemMoves T m { m with port := { m.port with iocpEntries := rest } } :=
    .single (.port dequeued (.consume oldest))
  unfold epPortDispatchIocpEntry
  cases packet with
  | control => exact hconsume
  | status a =>
    dsimp only
    unfold dispatchRefires at both
    dsimp only at both
    cases hs : m.socks a with
    | none => exact hconsume
    | some s =>
      rw [hs] at both
      exact hconsume.trans (MemMoves.of_moves hs
        (handleCompletion_moves plain (h.dequeued oldest hs) both answers))

end

/-! ## The kernel -/

section

variable {c : Cell} {m : Mem}

/-- The registration right after its wait or timer has fired. -/
def Cell.fired (c : Cell) : Cell :=
  c.mapPort fun p => { p with waitArmed := Function.update p.waitArmed c.addr false }

theorem Lifecycle.fired_unreferenced (h : Lifecycle c) (armed : c.port.waitArmed c.addr = true) :
    c.fired.port.refs c.addr = 0 := by
  have hle := h.refs_le
  rw [refs_eq, armed] at hle
  rw [refs_eq]
  have hself : c.fired.port.waitArmed c.addr = false := by simp [Cell.fired]
  have hpackets : c.fired.port.packets c.addr = c.port.packets c.addr := rfl
  have hflight : c.fired.port.afdInFlight c.addr = c.port.afdInFlight c.addr := rfl
  rw [hself, hpackets, hflight]
  simp only [Bool.toNat_true, Bool.toNat_false] at hle ⊢
  omega

/-- What a callback posts for, once it has taken the notification. -/
structure Called (c : Cell) : Prop where
  live : c.freed = false
  aux : c.sock.isAux = true
  pending : c.sock.pollStatus = .pending
  unreferenced : c.port.refs c.addr = 0
  owned : epWaitableMayConsume c.sock = true → c.sock.waitableNotificationOwned = true

theorem auxPost_moves (h : Called c) (post : Option Errno) :
    Moves Plain c (epAuxPostCompletion post STATUS_SUCCESS c).2 := by
  rcases auxPost_cases post STATUS_SUCCESS c with hp | ⟨e, hp⟩
  · rw [hp]
    exact .single h.live (.postFired h.aux h.pending h.unreferenced h.owned)
  · rw [hp]
    have h1 : Moves Plain c (c.mapSock fun s => { s with ioStatus := STATUS_SUCCESS }) :=
      .single h.live (.status fun _ => rfl)
    have h2 := h1.plain (by exact h.live) (.clearPosted (by exact packets_zero_of_refs h.unreferenced))
    exact h2.trans (failPost_moves (by exact h.live) e)

/-- A registered wait or timer fires. -/
theorem auxCallback_moves (h : Lifecycle c) (live : c.freed = false)
    (armed : c.port.waitArmed c.addr = true) (post : Option Errno) :
    Moves Plain c (auxCallback post c) := by
  obtain ⟨haux, hwait, hpending⟩ := h.armed_wait armed
  have hfire : Moves Plain c c.fired := .single live (.fireWait armed)
  have hrefs := h.fired_unreferenced armed
  unfold auxCallback
  dsimp only
  split
  · rename_i hconsumes
    have hunowned : c.sock.waitableNotificationOwned = false := h.armed_unowned hconsumes armed
    have hunqueued := h.busy_unqueued (by simp [hpending])
    have htake := hfire.plain live (.take hconsumes hunowned hunqueued (unarmed_of_refs hrefs))
    have hcalled : Called c.fired.takeNotification := ⟨live, haux, hpending, hrefs, fun _ => rfl⟩
    exact htake.trans (auxPost_moves hcalled post)
  · rename_i hconsumes
    have hcalled : Called c.fired :=
      ⟨live, haux, hpending, hrefs, fun hm => absurd hm hconsumes⟩
    exact hfire.trans (auxPost_moves hcalled post)

theorem afdComplete_moves (live : c.freed = false) (inFlight : c.port.afdInFlight c.addr = true)
    (status : NtStatus) (info : AfdInfo) : Moves Plain c (afdComplete status info c) := by
  refine (Moves.single live (.finishAfd (v := status) inFlight)).quiet ?_
  simp [afdComplete]

end

end WepollEx
