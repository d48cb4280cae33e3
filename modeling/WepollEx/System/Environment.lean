import WepollEx.System.Runs

/-!
# An environment in which nothing fails

Every system call the port makes is answered by an argument of the step that makes it.  These are
the answers of an environment that grants every call: the target of a registration is a connected
TCP socket with one provider base, a poll is accepted and stays pending, a cancellation comes too
late, and no level is ready until the kernel completes a poll.  A concrete run overrides the
answers it is about.
-/

namespace WepollEx.Granted

def identity : IdentityAnswers := ⟨.token 7, none, true⟩

def levels : LevelAnswers := ⟨true, some ⟨false, false, false, false⟩, some false, some false, false⟩

def pipe : PipeAnswers := ⟨some (.error .other), .error .other, .other⟩

def submit : SubmitAnswers where
  identity := identity
  disarm := none
  closeRaced := false
  post := none
  wait := .timeout
  register := none
  pipe := pipe
  base := .ok 1
  levels := levels
  nodeAlloc := none
  claims := []
  afdGroup := none
  pollKey := none
  afd := .pending
  now := 0

def cancel : CancelAnswers := ⟨none, .notFound, none⟩

/-- The levels a completion samples: readable and writable. -/
def pass : PassAnswers where
  identity := identity
  refresh := submit
  udp := ⟨.ok (), true, identity, true, .ready⟩
  wait := .object0
  pipe := pipe
  levels := ⟨true, some ⟨false, false, true, false⟩, some true, some false, false⟩
  readReady := some true
  writeReady := some true
  nodeAlloc := none
  claims := []
  resubmit := submit
  now := 0

def completion : CompletionAnswers := ⟨none, cancel, none, submit, fun _ => pass⟩

def control : ControlAnswers where
  identity := identity
  target := .ok ⟨.socket 1, 0⟩
  cancel := cancel
  nodeAlloc := none
  shutdown := none
  submit := submit
  now := 0

/-- A new registration is stored at `a`. -/
def alloc (a : Addr) : AllocAnswers where
  target := .ok ⟨.socket 1, 0⟩
  addr := some a
  protocol := .tcp
  udpAfdQualifierEligible := false
  asyncReadCapability := .unknown
  endpoint := .token 7
  stable := true
  afdInfo := none
  tableInsert := none

def wait : WaitAnswers where
  stubBetween := false
  arm := ⟨fun _ => submit, fun _ => submit, none⟩
  drain := fun _ => ⟨identity, cancel, pipe, none⟩
  completion := completion
  dequeue := .packets 1
  expired := false
  timeLeft := true
  longTimeLeft := true
  budgetSpent := false
  asyncPost := none

/-- A waiter with an infinite timeout comes to block in its dequeue. -/
def waitUntilBlocked (maxevents : Nat) : List Act :=
  .waitBegin maxevents false true :: List.replicate 9 (.waiter wait)

/-- ADD of the socket 5, stored at 100. -/
def add (events : Events) : Act := .control (.add (alloc 100) 5 events 42 0) control

/-- The kernel completes the poll of the registration at 100 with a receive event. -/
def receive : Act := .afdComplete 100 0 ⟨1, AFD_POLL_RECEIVE, 0⟩

/-- The waiter takes a packet, dispatches it and sees that its batch is done. -/
def takePacket : List Act := List.replicate 3 (.waiter wait)

end WepollEx.Granted
