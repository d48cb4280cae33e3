import WepollEx.Lib.Counting
import WepollEx.Posix.Metadata

/-!
# The two indexes of a POSIX port

Every operation on the nodes keeps each node in the two buckets of its current keys, and the counter
equal to the number of nodes.
-/

namespace WepollEx.Posix

open Intrusive Counting

namespace Metadata

/-- The bucket of a node in the index by descriptor, and in the index by value. -/
def fdKey (m : Metadata) (a : NodeId) : Option Nat := (m.nodes a).map fun n => fdSlot n.fd

def dataKey (m : Metadata) (a : NodeId) : Option Nat :=
  (m.nodes a).map fun n => nodeDataSlot n.dataKey

/-- Both indexes hold exactly the nodes, and no descriptor has two. -/
structure Valid (m : Metadata) : Prop where
  index : ∃ chains, m.buckets.Indexes m.fdKey chains
  dataIndex : ∃ chains, m.dataBuckets.Indexes m.dataKey chains
  keyed : ∀ a n, m.nodes a = some n → n.dataKey = n.event.data
  distinct : ∀ a b n n', m.nodes a = some n → m.nodes b = some n' → n.fd = n'.fd → a = b
  counted : Counts (fun a => m.nodes a ≠ none) m.count

theorem valid_create : Metadata.create.Valid where
  index := ⟨_, ForwardIndex.indexes_empty⟩
  dataIndex := ⟨_, ForwardIndex.indexes_empty⟩
  keyed := nofun
  distinct := nofun
  counted := .none fun _ h => h rfl

section

variable {m : Metadata} {a : NodeId} {n : Node} {key : NodeId → Option Nat}
  {chains : Nat → List NodeId} {d : ForwardIndex NodeId Nat} {b : Nat}

/-- The fuel of the loops over a chain suffices. -/
theorem chain_length (h : Counts (fun a => m.nodes a ≠ none) m.count) (hd : d.Indexes key chains)
    (hkey : ∀ a, m.nodes a = none → key a = none) (b : Nat) : (chains b).length ≤ m.count := by
  refine h.length_le (hd.nodup b) fun a ha hnone => ?_
  have := (hd.mem a b).mp ha
  rw [hkey a hnone] at this
  cases this

theorem fdKey_none (h : m.nodes a = none) : m.fdKey a = none := by
  rw [fdKey, h]
  rfl

theorem dataKey_none (h : m.nodes a = none) : m.dataKey a = none := by
  rw [dataKey, h]
  rfl

theorem Valid.mem_fdChain (h : m.Valid) (a : NodeId) (b : Nat) :
    a ∈ m.fdChain b ↔ ∃ n, m.nodes a = some n ∧ fdSlot n.fd = b := by
  obtain ⟨chains, hd⟩ := h.index
  rw [fdChain, hd.walk_eq (chain_length h.counted hd (fun _ => fdKey_none) b), hd.mem]
  exact Option.map_eq_some_iff

theorem Valid.mem_dataChain (h : m.Valid) (a : NodeId) (b : Nat) :
    a ∈ m.dataChain b ↔ ∃ n, m.nodes a = some n ∧ nodeDataSlot n.dataKey = b := by
  obtain ⟨chains, hd⟩ := h.dataIndex
  rw [dataChain, hd.walk_eq (chain_length h.counted hd (fun _ => dataKey_none) b), hd.mem]
  exact Option.map_eq_some_iff

theorem Valid.fdChain_nodup (h : m.Valid) (b : Nat) : (m.fdChain b).Nodup := by
  obtain ⟨chains, hd⟩ := h.index
  rw [fdChain, hd.walk_eq (chain_length h.counted hd (fun _ => fdKey_none) b)]
  exact hd.nodup b

theorem Valid.dataChain_nodup (h : m.Valid) (b : Nat) : (m.dataChain b).Nodup := by
  obtain ⟨chains, hd⟩ := h.dataIndex
  rw [dataChain, hd.walk_eq (chain_length h.counted hd (fun _ => dataKey_none) b)]
  exact hd.nodup b

/-! ## Finding -/

/-- The descriptor has a node with the fingerprint, and it is the only match. -/
theorem Valid.find_some (h : m.Valid) (ha : m.nodes a = some n) :
    m.nodeFindIdentityLocked n.fd n.identity = (some a, 1) := by
  have hfilter : (m.fdChain (fdSlot n.fd)).filter (fun a =>
      (m.nodes a).any fun n' => n'.fd = n.fd && n'.identity = n.identity) = [a] := by
    refine eq_singleton ((h.fdChain_nodup _).filter _) fun b => ?_
    rw [List.mem_filter, h.mem_fdChain]
    constructor
    · rintro ⟨⟨n', hb, -⟩, hany⟩
      simp only [hb, Option.any_some, Bool.and_eq_true, decide_eq_true_eq] at hany
      exact h.distinct b a n' n hb ha hany.1
    · rintro rfl
      exact ⟨⟨n, ha, rfl⟩, by simp [ha]⟩
  simp [nodeFindIdentityLocked, hfilter]

theorem find_none {fd : Fd} (hno : ∀ a n, m.nodes a = some n → n.fd ≠ fd)
    (identity : FdIdentity) : m.nodeFindIdentityLocked fd identity = (none, 0) := by
  have hfilter : (m.fdChain (fdSlot fd)).filter (fun a =>
      (m.nodes a).any fun n' => n'.fd = fd && n'.identity = identity) = [] := by
    refine List.filter_eq_nil_iff.mpr fun b _ => ?_
    cases hb : m.nodes b with
    | none => simp
    | some n => simp [hno b n hb]
  simp [nodeFindIdentityLocked, hfilter]

/-- The value of a node that no other node has. -/
theorem Valid.snapshot_some (h : m.Valid) {data : BitVec 64} (ha : m.nodes a = some n)
    (hdata : n.event.data = data)
    (only : ∀ b n', m.nodes b = some n' → n'.event.data = data → b = a) :
    m.nodeSnapshotByDataLocked data = some (n.userCtx, n.event) := by
  have hfilter : (m.dataChain (nodeDataSlot data)).filter (fun a =>
      (m.nodes a).any fun n => n.dataKey = data) = [a] := by
    refine eq_singleton ((h.dataChain_nodup _).filter _) fun b => ?_
    rw [List.mem_filter, h.mem_dataChain]
    constructor
    · rintro ⟨⟨n', hb, -⟩, hany⟩
      simp only [hb, Option.any_some, decide_eq_true_eq] at hany
      exact only b n' hb ((h.keyed b n' hb).symm.trans hany)
    · rintro rfl
      have hkey := (h.keyed b n ha).trans hdata
      exact ⟨⟨n, ha, by rw [hkey]⟩, by simp [ha, hkey]⟩
  simp [nodeSnapshotByDataLocked, hfilter, ha]

/-- What a snapshot returns is the only node with the value. -/
theorem Valid.snapshot_unique (h : m.Valid) {data : BitVec 64} {ctx : Ctx} {event : EpollEvent}
    (hs : m.nodeSnapshotByDataLocked data = some (ctx, event)) :
    ∃ a n, m.nodes a = some n ∧ n.userCtx = ctx ∧ n.event = event ∧ n.event.data = data ∧
      ∀ b n', m.nodes b = some n' → n'.event.data = data → b = a := by
  unfold nodeSnapshotByDataLocked at hs
  split at hs
  · rename_i a hfilter
    have hmem : ∀ b n', m.nodes b = some n' → n'.event.data = data → b = a := by
      intro b n' hb hdata
      have hkey := (h.keyed b n' hb).trans hdata
      have : b ∈ (m.dataChain (nodeDataSlot data)).filter (fun a =>
          (m.nodes a).any fun n => n.dataKey = data) := by
        rw [List.mem_filter, h.mem_dataChain]
        exact ⟨⟨n', hb, by rw [hkey]⟩, by simp [hb, hkey]⟩
      rw [hfilter] at this
      simpa using this
    obtain ⟨n, hn, heq⟩ := Option.map_eq_some_iff.mp hs
    obtain ⟨rfl, rfl⟩ := Prod.mk.inj heq
    refine ⟨a, n, hn, rfl, rfl, ?_, hmem⟩
    have ha : a ∈ (m.dataChain (nodeDataSlot data)).filter (fun a =>
        (m.nodes a).any fun n => n.dataKey = data) := by
      rw [hfilter]
      exact List.mem_singleton_self a
    have hany := (List.mem_filter.mp ha).2
    simp only [hn, Option.any_some, decide_eq_true_eq] at hany
    exact (h.keyed a n hn).symm.trans hany
  · cases hs

/-! ## Changing -/

theorem Valid.bump (h : m.Valid) : m.bumpGeneration.Valid :=
  ⟨h.index, h.dataIndex, h.keyed, h.distinct, h.counted⟩

/-- The node after `port_ctl_ctx` has written the event and the context. -/
def stored (p : Pending) (n : Node) : Node :=
  { n with event := p.event, userCtx := p.userCtx, dataKey := p.event.data }

theorem dataRemove_nodes (m : Metadata) (a : NodeId) (n : Node) :
    (m.nodeDataRemoveLocked a n).nodes = m.nodes := by
  unfold nodeDataRemoveLocked
  split <;> rfl

theorem dataRemove_buckets (m : Metadata) (a : NodeId) (n : Node) :
    (m.nodeDataRemoveLocked a n).buckets = m.buckets := by
  unfold nodeDataRemoveLocked
  split <;> rfl

theorem dataRemove_count (m : Metadata) (a : NodeId) (n : Node) :
    (m.nodeDataRemoveLocked a n).count = m.count := by
  unfold nodeDataRemoveLocked
  split <;> rfl

theorem dataRemove_generation (m : Metadata) (a : NodeId) (n : Node) :
    (m.nodeDataRemoveLocked a n).metadataGeneration = m.metadataGeneration := by
  unfold nodeDataRemoveLocked
  split <;> rfl

theorem ctlStore_nodes (p : Pending) (a : NodeId) (n : Node) (m : Metadata) :
    (ctlStore p a n m).nodes = Function.update m.nodes a (some (stored p n)) := by
  simp only [ctlStore, bumpGeneration, nodeDataInsertLocked, setNode, dataRemove_nodes, stored]

/-- The index by value while one node may be in no chain or in the chain of its old value. -/
structure Halfway (m : Metadata) (a : NodeId) (n : Node) : Prop where
  node : m.nodes a = some n
  index : ∃ chains, m.buckets.Indexes m.fdKey chains
  dataIndex : ∃ key chains, m.dataBuckets.Indexes key chains ∧ (∀ b, b ≠ a → key b = m.dataKey b) ∧
    (key a = some (nodeDataSlot n.dataKey) ∨ key a = none)
  keyed : ∀ b n', b ≠ a → m.nodes b = some n' → n'.dataKey = n'.event.data
  distinct : ∀ b b' n n', m.nodes b = some n → m.nodes b' = some n' → n.fd = n'.fd → b = b'
  counted : Counts (fun a => m.nodes a ≠ none) m.count

/-- Taking the node out of its chain by value leaves an index of the other nodes. -/
theorem Halfway.dataRemove (h : m.Halfway a n) :
    ∃ key chains, (m.nodeDataRemoveLocked a n).dataBuckets.Indexes key chains ∧
      key a = none ∧ ∀ b, b ≠ a → key b = m.dataKey b := by
  obtain ⟨key, chains, hd, hother, hself⟩ := h.dataIndex
  have hfuel : ∀ b, (chains b).length ≤ m.count := by
    intro b
    refine chain_length h.counted hd (fun c hc => ?_) b
    have hne : c ≠ a := by
      rintro rfl
      rw [h.node] at hc
      cases hc
    rw [hother c hne, dataKey_none hc]
  rcases hself with hself | hself
  · obtain ⟨d, hremove, hindex⟩ := hd.remove hself (hfuel _)
    have heq : (m.nodeDataRemoveLocked a n).dataBuckets = d := by
      rw [nodeDataRemoveLocked, hremove]
    refine ⟨_, _, heq ▸ hindex, Function.update_self .., fun b hb => ?_⟩
    rw [Function.update_of_ne hb, hother b hb]
  · refine ⟨key, chains, ?_, hself, hother⟩
    rw [nodeDataRemoveLocked, hd.remove_absent hself (hfuel _)]
    exact hd

/-- Storing enters the node in the chain of its new value. -/
theorem Halfway.store (h : m.Halfway a n) (p : Pending) : (ctlStore p a n m).Valid := by
  have hnodes := ctlStore_nodes p a n m
  have hself : (ctlStore p a n m).nodes a = some (stored p n) := by
    rw [hnodes, Function.update_self]
  have hother : ∀ b, b ≠ a → (ctlStore p a n m).nodes b = m.nodes b := by
    intro b hb
    rw [hnodes, Function.update_of_ne hb]
  refine ⟨?_, ?_, ?_, ?_, ?_⟩
  case refine_1 =>
    obtain ⟨chains, hd⟩ := h.index
    refine ⟨chains, ?_⟩
    have hbuckets : (ctlStore p a n m).buckets = m.buckets := by
      simp only [ctlStore, bumpGeneration, nodeDataInsertLocked, setNode, dataRemove_buckets]
    rw [hbuckets]
    refine hd.congr fun c => ?_
    by_cases hc : c = a
    · rw [hc, fdKey, fdKey, hself, h.node]
      rfl
    · rw [fdKey, fdKey, hother c hc]
  case refine_2 =>
    obtain ⟨key, chains, hd, hnone, hkey⟩ := h.dataRemove
    refine ⟨_, (hd.push hnone (nodeDataSlot p.event.data)).congr fun c => ?_⟩
    by_cases hc : c = a
    · rw [hc, Function.update_self, dataKey, hself]
      rfl
    · rw [Function.update_of_ne hc, hkey c hc, dataKey, dataKey, hother c hc]
  case refine_3 =>
    intro b n' hb
    by_cases hba : b = a
    · rw [hba, hself] at hb
      cases hb
      rfl
    · rw [hother b hba] at hb
      exact h.keyed b n' hba hb
  case refine_4 =>
    -- the descriptor of the node does not change
    have hold : ∀ b n', (ctlStore p a n m).nodes b = some n' →
        ∃ n'', m.nodes b = some n'' ∧ n''.fd = n'.fd := by
      intro b n' hb
      by_cases hba : b = a
      · rw [hba, hself] at hb
        cases hb
        exact ⟨n, hba ▸ h.node, rfl⟩
      · exact ⟨n', by rwa [hother b hba] at hb, rfl⟩
    intro b b' n1 n2 hb hb' hfd
    obtain ⟨n1', h1, hfd1⟩ := hold b n1 hb
    obtain ⟨n2', h2, hfd2⟩ := hold b' n2 hb'
    exact h.distinct b b' n1' n2' h1 h2 (by rw [hfd1, hfd2, hfd])
  case refine_5 =>
    have hcount : (ctlStore p a n m).count = m.count := by
      simp only [ctlStore, bumpGeneration, nodeDataInsertLocked, setNode, dataRemove_count]
    rw [hcount]
    refine h.counted.congr fun b => ?_
    by_cases hba : b = a
    · rw [hba, hself, h.node]
      simp
    · rw [hother b hba]

theorem Valid.halfway (h : m.Valid) (ha : m.nodes a = some n) : m.Halfway a n where
  node := ha
  index := h.index
  dataIndex := by
    obtain ⟨chains, hd⟩ := h.dataIndex
    refine ⟨m.dataKey, chains, hd, fun _ _ => rfl, .inl ?_⟩
    rw [dataKey, ha]
    rfl
  keyed := fun b n' _ hb => h.keyed b n' hb
  distinct := h.distinct
  counted := h.counted

/-- A new node in the chain of its descriptor. -/
def link (m : Metadata) (a : NodeId) (n : Node) : Metadata :=
  { m.setNode a n with
    buckets := m.buckets.push (fdSlot n.fd) a
    count := m.count + 1 }

theorem Valid.link (h : m.Valid) (ha : m.nodes a = none)
    (hfresh : ∀ b n', m.nodes b = some n' → n'.fd ≠ n.fd) : (m.link a n).Halfway a n := by
  have hself : (m.link a n).nodes a = some n := Function.update_self ..
  have hother : ∀ b, b ≠ a → (m.link a n).nodes b = m.nodes b :=
    fun b hb => Function.update_of_ne hb _ _
  refine ⟨hself, ?_, ?_, ?_, ?_, ?_⟩
  case refine_1 =>
    obtain ⟨chains, hd⟩ := h.index
    refine ⟨_, (hd.push (fdKey_none ha) (fdSlot n.fd)).congr fun c => ?_⟩
    by_cases hc : c = a
    · rw [hc, Function.update_self, fdKey, hself]
      rfl
    · rw [Function.update_of_ne hc, fdKey, fdKey, hother c hc]
  case refine_2 =>
    obtain ⟨chains, hd⟩ := h.dataIndex
    refine ⟨m.dataKey, chains, hd, fun b hb => ?_, .inr (dataKey_none ha)⟩
    rw [dataKey, dataKey, hother b hb]
  case refine_3 =>
    intro b n' hb hn
    exact h.keyed b n' (by rwa [hother b hb] at hn)
  case refine_4 =>
    intro b b' n1 n2 hb hb' hfd
    by_cases hba : b = a <;> by_cases hba' : b' = a
    · rw [hba, hba']
    · rw [hba, hself] at hb
      rw [hother b' hba'] at hb'
      cases hb
      exact absurd hfd.symm (hfresh b' n2 hb')
    · rw [hba', hself] at hb'
      rw [hother b hba] at hb
      cases hb'
      exact absurd hfd (hfresh b n1 hb)
    · rw [hother b hba] at hb
      rw [hother b' hba'] at hb'
      exact h.distinct b b' n1 n2 hb hb' hfd
  case refine_5 =>
    refine h.counted.insert (a := a) (by simp [ha]) fun b => ?_
    by_cases hba : b = a
    · simp [hba, hself]
    · simp [hba, hother b hba]

/-- Unlinking finds the node, and both indexes keep the others. -/
theorem Valid.unlink (h : m.Valid) (ha : m.nodes a = some n) :
    ∃ m', m.nodeRemovePtrLocked a n = (true, m') ∧ m'.Valid ∧
      m'.nodes = Function.update m.nodes a none ∧
      m'.metadataGeneration = m.metadataGeneration := by
  obtain ⟨chains, hd⟩ := h.index
  have hkey : m.fdKey a = some (fdSlot n.fd) := by
    rw [fdKey, ha]
    rfl
  obtain ⟨d, hremove, hindex⟩ :=
    hd.remove hkey (chain_length h.counted hd (fun _ => fdKey_none) (fdSlot n.fd))
  have hmem : a ∈ m.fdChain (fdSlot n.fd) := (h.mem_fdChain a _).mpr ⟨n, ha, rfl⟩
  let mid : Metadata := Metadata.nodeDataRemoveLocked { m with buckets := d } a n
  have hmid : mid.nodes = m.nodes := dataRemove_nodes _ a n
  refine ⟨{ mid with nodes := Function.update mid.nodes a none, count := mid.count - 1 },
    ?_, ⟨?_, ?_, ?_, ?_, ?_⟩, ?_, ?_⟩
  case refine_1 =>
    unfold nodeRemovePtrLocked
    rw [if_pos hmem, hremove]
  all_goals simp only [hmid]
  case refine_2 =>
    have hbuckets : mid.buckets = d := dataRemove_buckets _ a n
    refine ⟨_, hbuckets ▸ hindex.congr fun c => ?_⟩
    by_cases hc : c = a
    · simp [hc, fdKey]
    · simp [fdKey, Function.update_of_ne hc]
  case refine_3 =>
    obtain ⟨key, chains, hdata, hnone, hother⟩ := (h.halfway ha).dataRemove
    refine ⟨chains, ?_⟩
    have hbuckets : mid.dataBuckets = (m.nodeDataRemoveLocked a n).dataBuckets := by
      simp only [mid, nodeDataRemoveLocked]
      split <;> rfl
    rw [hbuckets]
    refine hdata.congr fun c => ?_
    by_cases hc : c = a
    · simp [hc, dataKey, hnone]
    · simp [dataKey, Function.update_of_ne hc, hother c hc]
  case refine_4 =>
    intro b n' hb
    by_cases hba : b = a
    · simp [hba] at hb
    · rw [Function.update_of_ne hba] at hb
      exact h.keyed b n' hb
  case refine_5 =>
    intro b b' n1 n2 hb hb' hfd
    by_cases hba : b = a
    · simp [hba] at hb
    by_cases hba' : b' = a
    · simp [hba'] at hb'
    rw [Function.update_of_ne hba] at hb
    rw [Function.update_of_ne hba'] at hb'
    exact h.distinct b b' n1 n2 hb hb' hfd
  case refine_6 =>
    have hcount : mid.count = m.count := dataRemove_count _ a n
    rw [hcount]
    refine h.counted.erase (a := a) (by simp [ha]) fun b => ?_
    by_cases hba : b = a
    · simp [hba]
    · simp [hba]
  case refine_8 => exact dataRemove_generation _ _ _

end

end Metadata

end WepollEx.Posix
