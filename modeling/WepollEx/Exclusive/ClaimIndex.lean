import WepollEx.Exclusive.Decision
import WepollEx.Lib.Buckets
import WepollEx.Port.State

/-!
# The index of EPOLLEXCLUSIVE claims

The process-wide index of the classes that exclusive registrations have claimed: 128 buckets of
doubly linked claims, one claim node in each registration.  Every function here runs under
`g_exclusive_lock`.

A loop over a bucket takes `linked`, the number of claims linked so far, as its fuel.
-/

namespace WepollEx

open Intrusive

structure ClaimIndex where
  index : Index Addr Nat
  /-- `exclusive_claim_base`. -/
  claimBase : Addr → Socket
  /-- `exclusive_claim_classes`; zero for a registration without a claim. -/
  claimClasses : Addr → Classes
  /-- `base_socket` of every registration. -/
  baseSocket : Addr → Socket
  /-- Ghost: how many claims were linked into the index so far. -/
  linked : Nat

def epExclusiveBucket (base : Socket) : Nat :=
  let value := base ^^^ (base >>> 17)
  let value := value * 0x9e3779b97f4a7c15#64
  value.toNat % 128

namespace ClaimIndex

def empty : ClaimIndex where
  index := .empty
  claimBase := fun _ => INVALID_SOCKET
  claimClasses := fun _ => 0
  baseSocket := fun _ => INVALID_SOCKET
  linked := 0

def epExclusiveUnlinkLocked (st : ClaimIndex) (a : Addr) : ClaimIndex :=
  if st.claimClasses a = 0 then st
  else
    { st with
      index := st.index.remove (epExclusiveBucket (st.claimBase a)) a
      claimBase := Function.update st.claimBase a INVALID_SOCKET
      claimClasses := Function.update st.claimClasses a 0 }

def epExclusiveRemoveClassesLocked (st : ClaimIndex) (a : Addr) (classes : Classes) :
    ClaimIndex :=
  if st.claimClasses a &&& classes = 0 then st
  else
    let remaining := st.claimClasses a &&& ~~~classes
    if remaining = 0 then st.epExclusiveUnlinkLocked a
    else { st with claimClasses := Function.update st.claimClasses a remaining }

/-- The provider base of `a` has changed since its claim: the claim is dropped. -/
def dropMoved (st : ClaimIndex) (a : Addr) (base : Socket) : ClaimIndex :=
  if st.claimClasses a ≠ 0 ∧ st.claimBase a ≠ base then st.epExclusiveUnlinkLocked a else st

def epExclusiveAddClassesLocked (st : ClaimIndex) (a : Addr) (base : Socket)
    (classes : Classes) : ClaimIndex :=
  if classes = 0 then st
  else
    let st := st.dropMoved a base
    let st :=
      if st.claimClasses a = 0 then
        { st with
          claimBase := Function.update st.claimBase a base
          index := st.index.push (epExclusiveBucket base) a
          linked := st.linked + 1 }
      else st
    { st with claimClasses := Function.update st.claimClasses a (st.claimClasses a ||| classes) }

/-- The loop that takes `classes` from every claim on `base`. -/
def releaseLoop (st : ClaimIndex) (base : Socket) (classes : Classes) : Option ClaimIndex :=
  Chain.loop (fun st claim => st.index.links.next claim)
    (fun st claim =>
      if st.claimBase claim = base then st.epExclusiveRemoveClassesLocked claim classes else st)
    st.linked (st.index.heads (epExclusiveBucket base)) st

/-- The local variables of the first loop of `ep_exclusive_try_claim`. -/
structure Scan where
  denied : Classes
  owned : Classes
  ownerTerminal : Bool
  peerTerminal : Bool

def scanClaim (st : ClaimIndex) (a : Addr) (base : Socket) (requested : Classes) (scan : Scan)
    (claim : Addr) : Scan :=
  if st.claimBase claim ≠ base then scan
  else
    let classes := st.claimClasses claim
    if claim = a then
      { scan with
        owned := scan.owned ||| classes
        ownerTerminal := scan.ownerTerminal || classes &&& EP_READINESS_CLASS_TERMINAL ≠ 0 }
    else if classes &&& EP_READINESS_CLASS_TERMINAL ≠ 0 then { scan with peerTerminal := true }
    else if requested &&& EP_READINESS_CLASS_TERMINAL = 0 then
      { scan with denied := scan.denied ||| (classes &&& requested) }
    else scan

def scanLoop (st : ClaimIndex) (a : Addr) (base : Socket) (requested : Classes) : Option Scan :=
  Chain.loop (fun _ claim => st.index.links.next claim) (st.scanClaim a base requested)
    st.linked (st.index.heads (epExclusiveBucket base)) ⟨0, 0, false, false⟩

/-- The first terminal claim supersedes the directional ones. -/
def supersede (st : ClaimIndex) (base : Socket) (requested : Classes) (peerTerminal : Bool) :
    Option ClaimIndex :=
  if requested &&& EP_READINESS_CLASS_TERMINAL ≠ 0 ∧ !peerTerminal then
    st.releaseLoop base (EP_READINESS_CLASS_READ ||| EP_READINESS_CLASS_WRITE)
  else some st

/-- `ep_exclusive_try_claim`: what is left of `delivered`, or `none` when the claim is refused. -/
def epExclusiveTryClaim (st : ClaimIndex) (a : Addr) (delivered : Events) :
    Option (Option Events × ClaimIndex) :=
  let base := st.baseSocket a
  let requested := epReadinessClasses delivered
  let st := st.dropMoved a base
  (st.scanLoop a base requested).bind fun scan =>
    let denied := if scan.peerTerminal then requested else scan.denied
    (st.supersede base requested scan.peerTerminal).map fun st =>
      let granted := requested &&& ~~~denied
      if granted = 0 ∧ requested ≠ 0 then (none, st)
      else
        let missing :=
          if scan.ownerTerminal then 0
          else if granted &&& EP_READINESS_CLASS_TERMINAL ≠ 0 then EP_READINESS_CLASS_TERMINAL
          else granted &&& ~~~scan.owned
        (some (epReadinessFilterClasses delivered denied),
          st.epExclusiveAddClassesLocked a base missing)

def epExclusiveReleaseOwner (st : ClaimIndex) (a : Addr) : ClaimIndex :=
  st.epExclusiveUnlinkLocked a

/-- Release `classes` of the provider base of `a`. -/
def releaseClasses (st : ClaimIndex) (a : Addr) (classes : Classes) : Option ClaimIndex :=
  let base := st.baseSocket a
  (st.dropMoved a base).releaseLoop base classes

def epExclusiveReleaseQuiescent (st : ClaimIndex) (a : Addr) (submittedAfdEvents : AfdEvents) :
    Option ClaimIndex :=
  st.releaseClasses a (epExclusiveQuiescentClasses submittedAfdEvents)

def epExclusiveReleaseInactive (st : ClaimIndex) (a : Addr) (inactiveClasses : Classes) :
    Option ClaimIndex :=
  st.releaseClasses a inactiveClasses

end ClaimIndex

/-- A call by the registration `a`, or a change of its provider base. -/
inductive ClaimAct
  | tryClaim (a : Addr) (delivered : Events)
  | releaseOwner (a : Addr)
  | releaseQuiescent (a : Addr) (submittedAfdEvents : AfdEvents)
  | releaseInactive (a : Addr) (inactiveClasses : Classes)
  | setBase (a : Addr) (base : Socket)

/-- One call; `none` when a loop does not end. -/
def ClaimIndex.step (st : ClaimIndex) : ClaimAct → Option ClaimIndex
  | .tryClaim a delivered => (st.epExclusiveTryClaim a delivered).map Prod.snd
  | .releaseOwner a => some (st.epExclusiveReleaseOwner a)
  | .releaseQuiescent a submittedAfdEvents => st.epExclusiveReleaseQuiescent a submittedAfdEvents
  | .releaseInactive a inactiveClasses => st.epExclusiveReleaseInactive a inactiveClasses
  | .setBase a base => some { st with baseSocket := Function.update st.baseSocket a base }

end WepollEx
