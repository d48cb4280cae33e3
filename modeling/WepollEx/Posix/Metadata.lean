import WepollEx.Core.Events
import WepollEx.Lib.Chains

/-!
# The metadata of a POSIX port

A port keeps one node per registration, in two hash indexes: one by descriptor and one by the value
the registration hands out with its events.  `port_ctl_ctx` changes the native interest list and the
nodes under the port's lock; the native list is visible to a native wait in between, so the function
is cut after its first `epoll_ctl`.
-/

namespace WepollEx.Posix

open Intrusive

/-- A descriptor; a negative one is never open. -/
abbrev Fd := Nat
/-- An open file description. -/
abbrev FileId := Nat
/-- The address of a node. -/
abbrev NodeId := Nat
/-- A caller's pointer; zero is NULL. -/
abbrev Ctx := Nat
abbrev Errno := Nat

def ENOENT : Errno := 2
def EBADF : Errno := 9
def ENOMEM : Errno := 12
def EFAULT : Errno := 14
def EEXIST : Errno := 17
def EINVAL : Errno := 22
def EOPNOTSUPP : Errno := 95

/-- `posix_fd_identity_t`. -/
structure FdIdentity where
  device : BitVec 64
  inode : BitVec 64
  mode : BitVec 64
  rdevice : BitVec 64
  deriving DecidableEq, Repr

structure EpollEvent where
  events : Events
  data : BitVec 64
  deriving DecidableEq, Repr

/-- `posix_sock_node_t` without its links. -/
structure Node where
  fd : Fd
  identity : FdIdentity
  userCtx : Ctx
  event : EpollEvent
  dataKey : BitVec 64
  deriving DecidableEq, Repr

/-- `p->n_buckets`. -/
def nBuckets : Nat := 1024

def fdSlot (fd : Fd) : Nat := fd % nBuckets

def nodeDataSlot (dataKey : BitVec 64) : Nat := (dataKey ^^^ (dataKey >>> 32)).toNat % nBuckets

/-- The part of `posix_port_t` that `p->lock` guards. -/
structure Metadata where
  nodes : NodeId → Option Node
  buckets : ForwardIndex NodeId Nat
  dataBuckets : ForwardIndex NodeId Nat
  count : Nat
  metadataGeneration : Nat

def Metadata.create : Metadata where
  nodes := fun _ => none
  buckets := .empty
  dataBuckets := .empty
  count := 0
  metadataGeneration := 1

namespace Metadata

def setNode (m : Metadata) (a : NodeId) (n : Node) : Metadata :=
  { m with nodes := Function.update m.nodes a (some n) }

def fdChain (m : Metadata) (slot : Nat) : List NodeId :=
  m.buckets.walk m.count (m.buckets.heads slot)

def dataChain (m : Metadata) (slot : Nat) : List NodeId :=
  m.dataBuckets.walk m.count (m.dataBuckets.heads slot)

/-- The node if there is exactly one match, and the number of matches. -/
def nodeFindIdentityLocked (m : Metadata) (fd : Fd) (identity : FdIdentity) :
    Option NodeId × Nat :=
  let found := (m.fdChain (fdSlot fd)).filter fun a =>
    (m.nodes a).any fun n => n.fd = fd && n.identity = identity
  (match found with
    | [a] => some a
    | _ => none, found.length)

def nodeDataInsertLocked (m : Metadata) (a : NodeId) (n : Node) : Metadata :=
  { m.setNode a { n with dataKey := n.event.data } with
    dataBuckets := m.dataBuckets.push (nodeDataSlot n.event.data) a }

/-- A node that is in no chain is not found, and nothing happens. -/
def nodeDataRemoveLocked (m : Metadata) (a : NodeId) (n : Node) : Metadata :=
  match m.dataBuckets.remove m.count (nodeDataSlot n.dataKey) a with
  | some d => { m with dataBuckets := d }
  | none => m

def nodeRemovePtrLocked (m : Metadata) (a : NodeId) (n : Node) : Bool × Metadata :=
  if a ∈ m.fdChain (fdSlot n.fd) then
    match m.buckets.remove m.count (fdSlot n.fd) a with
    | some d =>
      let m := ({ m with buckets := d }).nodeDataRemoveLocked a n
      (true, { m with nodes := Function.update m.nodes a none, count := m.count - 1 })
    | none => (false, m)
  else (false, m)

/-- `metadata_generation++`, skipping zero. -/
def bumpGeneration (m : Metadata) : Metadata :=
  { m with metadataGeneration :=
      if (m.metadataGeneration + 1) % 2 ^ 64 = 0 then 1 else (m.metadataGeneration + 1) % 2 ^ 64 }

/-- `node_snapshot_by_data_locked`. -/
def nodeSnapshotByDataLocked (m : Metadata) (data : BitVec 64) : Option (Ctx × EpollEvent) :=
  match (m.dataChain (nodeDataSlot data)).filter fun a =>
      (m.nodes a).any fun n => n.dataKey = data with
  | [a] => (m.nodes a).map fun n => (n.userCtx, n.event)
  | _ => none

end Metadata

/-! ## The kernel -/

structure Kernel where
  /-- The open descriptors. -/
  files : Fd → Option FileId
  /-- The native interest list. -/
  native : Fd → FileId → Option EpollEvent

def Kernel.setNative (k : Kernel) (fd : Fd) (file : FileId) (event : Option EpollEvent) : Kernel :=
  { k with native := Function.update k.native fd (Function.update (k.native fd) file event) }

inductive CtlOp
  | add | mod | del
  | other (op : Int)
  deriving DecidableEq, Repr

/-- The native `epoll_ctl`; `refuse` is an error of the kernel's own. -/
def epollCtl (k : Kernel) (op : CtlOp) (fd : Fd) (event : EpollEvent) (refuse : Option Errno) :
    Except Errno Kernel :=
  match k.files fd with
  | none => .error EBADF
  | some file =>
    match op, k.native fd file with
    | .add, some _ => .error EEXIST
    | .add, none =>
      match refuse with
      | some e => .error e
      | none => .ok (k.setNative fd file (some event))
    | .mod, none => .error ENOENT
    | .mod, some _ =>
      match refuse with
      | some e => .error e
      | none => .ok (k.setNative fd file (some event))
    | .del, none => .error ENOENT
    | .del, some _ => .ok (k.setNative fd file none)
    | .other _, _ => .error EINVAL

/-! ## `port_ctl_ctx` -/

/-- What the kernel and the allocator answer to one control call. -/
structure CtlAnswers where
  /-- The error of `fstat` on an open descriptor. -/
  stat : Option Errno
  /-- The node reserved for a MOD without metadata. -/
  reserve : Option NodeId
  refuse : Option Errno
  /-- The node allocated for an ADD. -/
  node : Option NodeId

/-- A control call that has changed the native interest list and holds the port's lock. -/
structure Pending where
  op : CtlOp
  fd : Fd
  identity : FdIdentity
  event : EpollEvent
  userCtx : Ctx
  node : Option NodeId
  reserved : Option NodeId
  deriving DecidableEq, Repr

/-- `fd_identity_capture`. -/
def fdIdentityCapture (fingerprint : FileId → FdIdentity) (k : Kernel) (fd : Fd)
    (stat : Option Errno) : Except Errno FdIdentity :=
  match k.files fd with
  | none => .error EBADF
  | some file =>
    match stat with
    | some e => .error e
    | none => .ok (fingerprint file)

/-- The node a MOD or DEL is about, and the node reserved for a MOD that finds none. -/
def ctlSelect (m : Metadata) (op : CtlOp) (fd : Fd) (identity : FdIdentity)
    (reserve : Option NodeId) : Except Errno (Option NodeId × Option NodeId) :=
  match op with
  | .add => .ok (none, none)
  | _ =>
    let (n, identityMatches) := m.nodeFindIdentityLocked fd identity
    if identityMatches > 1 then .error EOPNOTSUPP
    else if op = .mod ∧ n = none then
      match reserve with
      | none => .error ENOMEM
      | some a => .ok (none, some a)
    else .ok (n, none)

/-- `port_ctl_ctx` up to its native `epoll_ctl`. -/
def ctlNative (fingerprint : FileId → FdIdentity) (answers : CtlAnswers) (op : CtlOp) (fd : Fd)
    (event : Option EpollEvent) (userCtx : Ctx) (k : Kernel) (m : Metadata) :
    Except Errno (Pending × Kernel) :=
  match op, event with
  | .other _, _ => .error EINVAL
  | .add, none => .error EFAULT
  | .mod, none => .error EFAULT
  | op, event =>
    let event := event.getD ⟨0, 0⟩
    match fdIdentityCapture fingerprint k fd answers.stat with
    | .error e => .error e
    | .ok identity =>
      match ctlSelect m op fd identity answers.reserve with
      | .error e => .error e
      | .ok (node, reserved) =>
        match epollCtl k op fd event answers.refuse with
        | .error e => .error e
        | .ok k => .ok (⟨op, fd, identity, event, userCtx, node, reserved⟩, k)

/-- Write the event and the context into a node and enter it under its new value. -/
def ctlStore (p : Pending) (a : NodeId) (n : Node) (m : Metadata) : Metadata :=
  let m := m.nodeDataRemoveLocked a n
  (m.nodeDataInsertLocked a { n with event := p.event, userCtx := p.userCtx }).bumpGeneration

/-- The rest of `port_ctl_ctx`. -/
def ctlCommit (answers : CtlAnswers) (p : Pending) (k : Kernel) (m : Metadata) :
    Option Errno × Kernel × Metadata :=
  match p.op with
  | .del =>
    match p.node.bind fun a => (m.nodes a).map fun n => (a, n) with
    | none => (none, k, m)
    | some (a, n) =>
      match m.nodeRemovePtrLocked a n with
      | (true, m) => (none, k, m.bumpGeneration)
      | (false, m) => (none, k, m)
  | _ =>
    match p.node.bind fun a => (m.nodes a).map fun n => (a, n) with
    | some (a, n) => (none, k, ctlStore p a n m)
    | none =>
      match p.reserved <|> answers.node with
      | none =>
        -- the node cannot be allocated: the native registration is taken back
        match epollCtl k .del p.fd p.event none with
        | .error _ => (some ENOMEM, k, m)
        | .ok k => (some ENOMEM, k, m)
      | some a =>
        let n : Node := ⟨p.fd, p.identity, 0, ⟨0, 0⟩, 0⟩
        let m := { m.setNode a n with
          buckets := m.buckets.push (fdSlot p.fd) a
          count := m.count + 1 }
        (none, k, ctlStore p a n m)

def portCtlCtx (fingerprint : FileId → FdIdentity) (answers : CtlAnswers) (op : CtlOp) (fd : Fd)
    (event : Option EpollEvent) (userCtx : Ctx) (k : Kernel) (m : Metadata) :
    Option Errno × Kernel × Metadata :=
  match ctlNative fingerprint answers op fd event userCtx k m with
  | .error e => (some e, k, m)
  | .ok (p, k) => ctlCommit answers p k m

end WepollEx.Posix
