import WepollEx.Lib.Bytes
import WepollEx.Posix.Decoration

/-!
# Widening the native events in place

The native wait of `posix_wait_ex` writes packed `struct epoll_event` records into the caller's
array of `struct epoll_event_ex`, and a descending loop replaces them by the wider records.
-/

namespace WepollEx.Posix.Expansion

open Bytes Decoration

/-- The two records in memory. -/
structure Layout where
  /-- `sizeof(struct epoll_event)`. -/
  size : Nat
  /-- `sizeof(struct epoll_event_ex)`. -/
  sizeEx : Nat
  /-- The assertion on the two sizes. -/
  wider : size ≤ sizeEx
  /-- The native record with the given bytes. -/
  load : List UInt8 → EpollEvent
  /-- The bytes of an extended record. -/
  store : EpollEventEx → List UInt8
  /-- The events and the data of the extended record with the given bytes. -/
  loadEx : List UInt8 → EpollEvent
  length_store : ∀ e, (store e).length = sizeEx
  loadEx_store : ∀ e, loadEx (store e) = ⟨e.events, e.data⟩

variable (layout : Layout) (metadata : Metadata) (metadataStable : Bool) (nowNs : Nat)

/-- The bytes that a round of the loop copies to the caller, from those it has copied out. -/
def expandedBytes (native : List UInt8) : List UInt8 :=
  layout.store (expand metadata metadataStable nowNs (layout.load native))

/-- The loop of `posix_wait_ex` over the `n` native records. -/
def expandLoop (n : Nat) (events : Buffer UInt8) : Buffer UInt8 :=
  widen layout.size layout.sizeEx (expandedBytes layout metadata metadataStable nowNs) n events

/-- The native records the loop copies out. -/
def expandReads (n : Nat) (events : Buffer UInt8) : List EpollEvent :=
  (widenReads layout.size layout.sizeEx (expandedBytes layout metadata metadataStable nowNs) n
    events).map layout.load

/-- The `i`-th native record in the buffer. -/
def nativeEvent (events : Buffer UInt8) (i : Nat) : EpollEvent :=
  layout.load (read events (i * layout.size) layout.size)

/-- The bytes of the `i`-th extended record in the buffer. -/
def extendedBytes (events : Buffer UInt8) (i : Nat) : List UInt8 :=
  read events (i * layout.sizeEx) layout.sizeEx

theorem expandedBytes_length (native : List UInt8) :
    (expandedBytes layout metadata metadataStable nowNs native).length = layout.sizeEx :=
  layout.length_store _

theorem expand_events (e : EpollEvent) : (expand metadata metadataStable nowNs e).events = e.events := by
  unfold expand
  split <;> rfl

/-- The wait returns the records that the descriptor's contexts were looked up for. -/
theorem expandLoop_records (n : Nat) (events : Buffer UInt8) :
    (List.range n).map (extendedBytes layout
      (expandLoop layout metadata metadataStable nowNs n events)) =
      ((List.range n).map fun i =>
        expand metadata metadataStable nowNs (nativeEvent layout events i)).map layout.store := by
  rw [List.map_map]
  refine List.map_congr_left fun i hi => ?_
  exact read_widen layout.wider (expandedBytes_length layout metadata metadataStable nowNs) n events
    (List.mem_range.mp hi)

/-- The widening loop, for every layout, every number of records and every content. -/
theorem expansion_in_place (n : Nat) (events : Buffer UInt8) :
    (∀ i < n, layout.loadEx (extendedBytes layout
      (expandLoop layout metadata metadataStable nowNs n events) i) =
        nativeEvent layout events i) ∧
    expandReads layout metadata metadataStable nowNs n events =
      (List.range n).reverse.map (nativeEvent layout events) ∧
    ∀ k, n * layout.sizeEx ≤ k →
      expandLoop layout metadata metadataStable nowNs n events k = events k := by
  have hlength := expandedBytes_length layout metadata metadataStable nowNs
  refine ⟨fun i hi => ?_, ?_, fun k hk => widen_frame hlength n events hk⟩
  · rw [extendedBytes, expandLoop, read_widen layout.wider hlength n events hi, expandedBytes,
      layout.loadEx_store, expand_events, expand_data]
    rfl
  · rw [expandReads, widenReads_eq layout.wider, List.map_map]
    rfl

/-- The records on x86-64, where the native one is packed. -/
def x8664 : Layout where
  size := 12
  sizeEx := 40
  wider := by decide
  load bytes := ⟨.ofNat 32 (leValue (bytes.take 4)), .ofNat 64 (leValue ((bytes.drop 4).take 8))⟩
  store e := leBytes 4 e.events.toNat ++ (leBytes 4 0 ++ (leBytes 8 e.data.toNat ++
    (leBytes 4 e.flags.toNat ++ (leBytes 4 0 ++ (leBytes 8 e.timestamp ++ leBytes 8 e.userCtx)))))
  loadEx bytes := ⟨.ofNat 32 (leValue (bytes.take 4)), .ofNat 64 (leValue ((bytes.drop 8).take 8))⟩
  length_store e := by simp
  loadEx_store e := by
    have hevents : e.events.toNat % 256 ^ 4 = e.events.toNat := Nat.mod_eq_of_lt e.events.isLt
    have hdata : e.data.toNat % 256 ^ 8 = e.data.toNat := Nat.mod_eq_of_lt e.data.isLt
    rw [List.take_left' (length_leBytes 4 _), ← List.append_assoc,
      List.drop_left' (by rw [List.length_append, length_leBytes, length_leBytes]),
      List.take_left' (length_leBytes 8 _), leValue_leBytes, leValue_leBytes, hevents, hdata,
      BitVec.ofNat_toNat, BitVec.ofNat_toNat, BitVec.setWidth_eq, BitVec.setWidth_eq]

end WepollEx.Posix.Expansion
