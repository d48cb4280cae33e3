import WepollEx.Lib.Chains
import WepollEx.Lib.Transition
import WepollEx.Port.State

/-!
# The index of AFD poll targets

AFD requests can interfere when they name the same numeric handle, so each value has one owner in
the process.  This file models the index of owners in its two layouts, the duplicate-and-retry loop
of a claim and the handles that a submission opens and closes.  Submissions on different ports
interleave at the index lock and at every call into the kernel; `KeyPc` is where a submission or a
completion of one registration has got to.

The kernel's answers are part of the acts.  `claims`, `releases`, `opens`, `closes` and
`duplications` only count.
-/

namespace WepollEx

open Intrusive

abbrev Handle := BitVec 64

/-- The buckets without and with `WEPOLL_EX_LARGE_AFD_INDEX`. -/
inductive KeyIndex
  | small (d : ForwardIndex Addr Nat)
  | large (d : Index Addr Nat)

namespace KeyIndex

/-- `EP_AFD_POLL_KEY_BUCKETS`. -/
def buckets : KeyIndex → Nat
  | .small _ => 256
  | .large _ => 4096

def head : KeyIndex → Nat → Option Addr
  | .small d, b => d.heads b
  | .large d, b => d.heads b

def next : KeyIndex → Addr → Option Addr
  | .small d, a => d.next a
  | .large d, a => d.links.next a

def push : KeyIndex → Nat → Addr → KeyIndex
  | .small d, b, a => .small (d.push b a)
  | .large d, b, a => .large (d.push b a)

def remove : KeyIndex → Nat → Nat → Addr → Option KeyIndex
  | .small d, fuel, b, a => (d.remove fuel b a).map .small
  | .large d, _, b, a => some (.large (d.remove b a))

end KeyIndex

/-- The local variables of the loop in `ep_afd_poll_key_claim`. -/
structure ClaimLoop where
  base : Handle
  collisions : List Handle
  capacity : Nat

/-- How far a submission or a completion has got. -/
inductive KeyPc
  | idle
  /-- Before the claim of the base handle itself. -/
  | claim (base : Handle)
  /-- Before `DuplicateHandle`. -/
  | duplicate (loop : ClaimLoop)
  | tryDuplicate (loop : ClaimLoop) (handle : Handle)
  /-- The duplicate collides; it is to be kept. -/
  | keep (loop : ClaimLoop) (handle : Handle)
  /-- There is no room to keep it. -/
  | closeDuplicate (loop : ClaimLoop) (handle : Handle)
  | closeCollisions (rest : List Handle) (failed : Bool)
  /-- The key is claimed; before `NtDeviceIoControlFile`. -/
  | submit (isDuplicate : Bool)
  /-- `ep_afd_poll_duplicate_finish`, before the duplicate is closed. -/
  | closeTarget (reserveSlot : Bool)
  | createEvent
  | closeEvent (event : Handle)
  | storeReservation (event : Handle)
  /-- `ep_afd_poll_key_release`, at the end of a submission or in a completion. -/
  | release (completing : Bool)
  | closeReservation (reservation : Handle) (completing : Bool)

/-- The index, the fields of each registration that belong to it, and the open handles. -/
structure AfdKeys where
  index : KeyIndex
  /-- `afd_poll_target`; zero is `NULL`. -/
  target : Addr → Handle
  /-- `afd_poll_key_reservation`; zero is `NULL`. -/
  reservation : Addr → Handle
  /-- `afd_poll_key_owned`. -/
  owned : Addr → Bool
  pollStatus : Addr → PollStatus
  allocated : Addr → Bool
  pc : Addr → KeyPc
  /-- The handle values that are open in the process. -/
  isOpen : Handle → Bool
  linked : Nat
  claims : Addr → Nat
  releases : Addr → Nat
  opens : Addr → Handle → Nat
  closes : Addr → Handle → Nat
  duplications : Addr → Nat

namespace AfdKeys

def start (index : KeyIndex) : AfdKeys where
  index := index
  target := fun _ => 0
  reservation := fun _ => 0
  owned := fun _ => false
  pollStatus := fun _ => .idle
  allocated := fun _ => false
  pc := fun _ => .idle
  isOpen := fun _ => false
  linked := 0
  claims := fun _ => 0
  releases := fun _ => 0
  opens := fun _ _ => 0
  closes := fun _ _ => 0
  duplications := fun _ => 0

def goto (st : AfdKeys) (a : Addr) (pc : KeyPc) : AfdKeys :=
  { st with pc := Function.update st.pc a pc }

def setStatus (st : AfdKeys) (a : Addr) (status : PollStatus) : AfdKeys :=
  { st with pollStatus := Function.update st.pollStatus a status }

def epAfdPollKeyBucket (index : KeyIndex) (target : Handle) : Nat :=
  let value := target ^^^ (target >>> 4)
  let value := value ^^^ (value >>> 12)
  (value &&& BitVec.ofNat 64 (index.buckets - 1)).toNat

def isActiveLoop (st : AfdKeys) (target : Handle) : Nat → Option Addr → Option Bool
  | _, none => some false
  | 0, some _ => none
  | fuel + 1, some active =>
    if st.target active = target then some true
    else isActiveLoop st target fuel (st.index.next active)

def epAfdPollKeyIsActiveLocked (st : AfdKeys) (target : Handle) : Option Bool :=
  st.isActiveLoop target st.linked (st.index.head (epAfdPollKeyBucket st.index target))

def epAfdPollKeyInsertLocked (st : AfdKeys) (a : Addr) (target : Handle) : AfdKeys :=
  { st with
    target := Function.update st.target a target
    reservation := Function.update st.reservation a 0
    index := st.index.push (epAfdPollKeyBucket st.index target) a
    owned := Function.update st.owned a true
    linked := st.linked + 1
    claims := Function.update st.claims a (st.claims a + 1) }

def epAfdPollKeyTryClaim (st : AfdKeys) (a : Addr) (target : Handle) : Option (Bool × AfdKeys) :=
  (st.epAfdPollKeyIsActiveLocked target).map fun active =>
    if active then (false, st) else (true, st.epAfdPollKeyInsertLocked a target)

/-- `ep_afd_poll_key_release_locked`: the reservation that is left to close. -/
def epAfdPollKeyReleaseLocked (st : AfdKeys) (a : Addr) : Option (Handle × AfdKeys) :=
  (st.index.remove st.linked (epAfdPollKeyBucket st.index (st.target a)) a).map fun index =>
    (st.reservation a,
      { st with
        index := index
        target := Function.update st.target a 0
        reservation := Function.update st.reservation a 0
        owned := Function.update st.owned a false
        releases := Function.update st.releases a (st.releases a + 1) })

/-- The kernel hands out a handle to `a`. -/
def opened (st : AfdKeys) (a : Addr) (handle : Handle) : AfdKeys :=
  { st with
    isOpen := Function.update st.isOpen handle true
    opens := Function.update st.opens a
      (Function.update (st.opens a) handle (st.opens a handle + 1)) }

def closeHandle (st : AfdKeys) (a : Addr) (handle : Handle) (ok : Bool) : AfdKeys :=
  { st with
    isOpen := if ok then Function.update st.isOpen handle false else st.isOpen
    closes := Function.update st.closes a
      (Function.update (st.closes a) handle (st.closes a handle + 1)) }

/-! ## A submission -/

/-- Where the claim goes once `rest` is left of the collisions. -/
def closing (rest : List Handle) (failed : Bool) : KeyPc :=
  match rest with
  | [] => if failed then .idle else .submit true
  | _ :: _ => .closeCollisions rest failed

def tryClaimBase (st : AfdKeys) (a : Addr) (base : Handle) : Option AfdKeys :=
  (st.epAfdPollKeyTryClaim a base).map fun (claimed, st) =>
    st.goto a (if claimed then .submit false else .duplicate ⟨base, [], 0⟩)

/-- `DuplicateHandle`, which may fail. -/
def duplicateHandle (st : AfdKeys) (a : Addr) (loop : ClaimLoop) (answer : Option Handle) :
    AfdKeys :=
  let st := { st with duplications := Function.update st.duplications a (st.duplications a + 1) }
  match answer with
  | none => st.goto a (closing loop.collisions true)
  | some handle => (st.opened a handle).goto a (.tryDuplicate loop handle)

def tryClaimDuplicate (st : AfdKeys) (a : Addr) (loop : ClaimLoop) (handle : Handle)
    (forceCollision : Bool) : Option AfdKeys :=
  if forceCollision then some (st.goto a (.keep loop handle))
  else
    (st.epAfdPollKeyTryClaim a handle).map fun (claimed, st) =>
      st.goto a (if claimed then closing loop.collisions false else .keep loop handle)

def SIZE_MAX : Nat := 2 ^ 64 - 1

def grownCapacity (capacity : Nat) : Nat := if capacity = 0 then 8 else capacity * 2 % 2 ^ 64

/-- Keep a colliding duplicate, for which the array may have to grow. -/
def keepCollision (st : AfdKeys) (a : Addr) (loop : ClaimLoop) (handle : Handle)
    (allocates : Bool) : AfdKeys :=
  let kept := loop.collisions ++ [handle]
  if loop.collisions.length = loop.capacity then
    let newCapacity := grownCapacity loop.capacity
    if newCapacity < loop.capacity ∨ newCapacity > SIZE_MAX / 8 ∨ !allocates then
      st.goto a (.closeDuplicate loop handle)
    else st.goto a (.duplicate { loop with collisions := kept, capacity := newCapacity })
  else st.goto a (.duplicate { loop with collisions := kept })

inductive SubmitOutcome
  | pending
  | success
  | failed
  deriving DecidableEq

def ntDeviceIoControlFile (st : AfdKeys) (a : Addr) (isDuplicate : Bool) :
    SubmitOutcome → AfdKeys
  | .pending =>
    (st.setStatus a .pending).goto a (if isDuplicate then .closeTarget true else .idle)
  | _ => st.goto a (if isDuplicate then .closeTarget false else .release false)

/-- After `CloseHandle(target)` in `ep_afd_poll_duplicate_finish`. -/
def afterCloseTarget (reserveSlot ok : Bool) : KeyPc :=
  if reserveSlot then (if ok then .createEvent else .idle) else .release false

/-- `CreateEventW`; zero when it fails. -/
def createEventW (st : AfdKeys) (a : Addr) (event : Handle) : AfdKeys :=
  if event = 0 then st.goto a .idle
  else
    (st.opened a event).goto a
      (if event = st.target a then .storeReservation event else .closeEvent event)

def storeReservation (st : AfdKeys) (a : Addr) (event : Handle) : AfdKeys :=
  { st with reservation := Function.update st.reservation a event }.goto a .idle

/-- The end of `ep_afd_poll_key_release`. -/
def released (st : AfdKeys) (a : Addr) (completing : Bool) : AfdKeys :=
  (if completing then st.setStatus a .idle else st).goto a .idle

def epAfdPollKeyRelease (st : AfdKeys) (a : Addr) (completing : Bool) : Option AfdKeys :=
  if st.owned a = false then some (st.released a completing)
  else
    (st.epAfdPollKeyReleaseLocked a).map fun (reservation, st) =>
      if reservation = 0 then st.released a completing
      else st.goto a (.closeReservation reservation completing)

/-- The next `CloseHandle` of `a`. -/
def close (st : AfdKeys) (a : Addr) (ok : Bool) : KeyPc → Option AfdKeys
  | .closeDuplicate loop handle =>
    some ((st.closeHandle a handle ok).goto a (closing loop.collisions true))
  | .closeCollisions (handle :: rest) failed =>
    some ((st.closeHandle a handle ok).goto a (closing rest failed))
  | .closeTarget reserveSlot =>
    some ((st.closeHandle a (st.target a) ok).goto a (afterCloseTarget reserveSlot ok))
  | .closeEvent event => some ((st.closeHandle a event ok).goto a .idle)
  | .closeReservation reservation completing =>
    some ((st.closeHandle a reservation ok).released a completing)
  | _ => none

end AfdKeys

/-- The acts of a registration, and what the rest of the process does with handles. -/
inductive KeyAct
  | alloc (a : Addr)
  | free (a : Addr)
  /-- `ep_afd_poll_submit` for a provider base, up to the claim. -/
  | submit (a : Addr) (base : Handle)
  | tryClaim (a : Addr) (forceCollision : Bool)
  | duplicate (a : Addr) (answer : Option Handle)
  | keep (a : Addr) (allocates : Bool)
  | close (a : Addr) (ok : Bool)
  | enterKernel (a : Addr) (outcome : AfdKeys.SubmitOutcome)
  | createEvent (a : Addr) (event : Handle)
  | storeReservation (a : Addr)
  | release (a : Addr)
  /-- The port posts the packet of an immediate success itself. -/
  | post (a : Addr)
  | cancel (a : Addr)
  /-- `ep_sock_handle_completion`, up to the release of the key. -/
  | complete (a : Addr)
  | processOpens (handle : Handle)
  | processCloses (handle : Handle)

namespace AfdKeys

/-- The registration is between two calls. -/
def quiet (st : AfdKeys) (a : Addr) : Bool :=
  st.allocated a && match st.pc a with
    | .idle => true
    | _ => false

/-- A registration whose storage is cleared. -/
def alloc (st : AfdKeys) (a : Addr) : AfdKeys :=
  { st with
    allocated := Function.update st.allocated a true
    target := Function.update st.target a 0
    reservation := Function.update st.reservation a 0
    owned := Function.update st.owned a false
    pollStatus := Function.update st.pollStatus a .idle }

def step (st : AfdKeys) : KeyAct → Option AfdKeys
  | .alloc a => if st.allocated a then none else some (st.alloc a)
  | .free a =>
    if st.quiet a ∧ st.pollStatus a = .idle then
      some { st with allocated := Function.update st.allocated a false }
    else none
  | .submit a base =>
    if st.quiet a ∧ st.pollStatus a = .idle then
      some ({ st with duplications := Function.update st.duplications a 0 }.goto a (.claim base))
    else none
  | .tryClaim a forceCollision =>
    match st.pc a with
    | .claim base => st.tryClaimBase a base
    | .tryDuplicate loop handle => st.tryClaimDuplicate a loop handle forceCollision
    | _ => none
  | .duplicate a answer =>
    match st.pc a with
    | .duplicate loop => some (st.duplicateHandle a loop answer)
    | _ => none
  | .keep a allocates =>
    match st.pc a with
    | .keep loop handle => some (st.keepCollision a loop handle allocates)
    | _ => none
  | .close a ok => st.close a ok (st.pc a)
  | .enterKernel a outcome =>
    match st.pc a with
    | .submit isDuplicate => some (st.ntDeviceIoControlFile a isDuplicate outcome)
    | _ => none
  | .createEvent a event =>
    match st.pc a with
    | .createEvent => some (st.createEventW a event)
    | _ => none
  | .storeReservation a =>
    match st.pc a with
    | .storeReservation event => some (st.storeReservation a event)
    | _ => none
  | .release a =>
    match st.pc a with
    | .release completing => st.epAfdPollKeyRelease a completing
    | _ => none
  | .post a =>
    if st.quiet a ∧ st.pollStatus a = .idle then some (st.setStatus a .pending) else none
  | .cancel a =>
    if st.quiet a ∧ st.pollStatus a = .pending then some (st.setStatus a .cancelled) else none
  | .complete a =>
    if st.quiet a ∧ st.pollStatus a ≠ .idle then some (st.goto a (.release true)) else none
  | .processOpens handle => some { st with isOpen := Function.update st.isOpen handle true }
  | .processCloses handle => some { st with isOpen := Function.update st.isOpen handle false }

end AfdKeys

end WepollEx
