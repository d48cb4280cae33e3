import WepollEx.Lifecycle.Release

/-!
# Probes

The identity checks, level polls and UDP probes of a registration change only its caches.
-/

namespace WepollEx

open Mask

-- the wrappers around a cell, unfolded wherever two cells are compared
attribute [local simp] Cell.core EpSock.core Port.core Cell.mapSock Cell.mapPort Cell.setFlags
  Cell.flags Flags.needs Flags.fire Cell.bumpGeneration Port.bumpGeneration

section

variable {c d : Cell}

/-! ## Probes change nothing that matters -/

theorem core_mapSock {f : EpSock → EpSock} (h : ∀ s, (f s).core = s.core) (c : Cell) :
    (c.mapSock f).core = c.core :=
  congrArg (fun s => ({ c with sock := s, port := c.port.core } : Cell)) (h c.sock)

theorem core_mapPort {f : Port → Port} (h : ∀ p, (f p).core = p.core) (c : Cell) :
    (c.mapPort f).core = c.core :=
  congrArg (fun p => ({ c with sock := c.sock.core, port := p } : Cell)) (h c.port)

theorem core_congr {α : Type} (h : d.core = c.core) (f : Cell → α) : f d.core = f c.core :=
  congrArg f h

/-- The registration with another token, on a port that counted identity failures. -/
def Cell.withToken (c : Cell) (id : Nat) (state : IdentityState) (failures : Nat) : Cell :=
  { c with
    sock := { c.sock with endpointId := id, endpointIdState := state }
    port := { c.port with identityFailures := failures } }

theorem settleEndpoint_eq (s : EpSock) (stable : Bool) :
    ∃ state, s.settleEndpoint stable = { s with endpointIdState := state } := by
  unfold EpSock.settleEndpoint
  split
  · exact ⟨_, rfl⟩
  · exact ⟨s.endpointIdState, rfl⟩

/-- An identity check changes nothing but the token and the count of failures. -/
theorem validateIdentity_eq (answers : IdentityAnswers) (allow : Bool) (c : Cell) :
    ∃ id state failures, (epSockValidateIdentityLocked answers allow c).2.2 =
      c.withToken id state failures := by
  have same : ∃ id state failures, c = c.withToken id state failures := ⟨_, _, _, rfl⟩
  have failed : ∃ id state failures, (c.mapPort fun p =>
      { p with identityFailures := p.identityFailures + 1 }) = c.withToken id state failures :=
    ⟨_, _, _, rfl⟩
  unfold epSockValidateIdentityLocked
  dsimp only
  split
  · exact same
  split
  · cases answers.soType with
    | none => exact same
    | some e =>
      dsimp only
      split
      · exact same
      · exact failed
  cases answers.endpoint with
  | unavailable =>
    cases answers.soType with
    | none => exact failed
    | some e =>
      dsimp only
      split
      · exact same
      · exact failed
  | error e =>
    dsimp only
    split
    · exact same
    cases answers.soType with
    | none => exact failed
    | some live =>
      dsimp only
      split
      · exact same
      · exact failed
  | token id =>
    dsimp only
    split
    · obtain ⟨state, hs⟩ := settleEndpoint_eq c.sock answers.stable
      exact ⟨c.sock.endpointId, state, c.port.identityFailures, by rw [Cell.mapSock, hs]; rfl⟩
    split
    · obtain ⟨state, hs⟩ := settleEndpoint_eq { c.sock with endpointId := id } answers.stable
      exact ⟨id, state, c.port.identityFailures, by rw [Cell.mapSock, hs]; rfl⟩
    · exact same

theorem validateIdentity_core (answers : IdentityAnswers) (allow : Bool) (c : Cell) :
    (epSockValidateIdentityLocked answers allow c).2.2.core = c.core := by
  obtain ⟨id, state, failures, h⟩ := validateIdentity_eq answers allow c
  rw [h]
  rfl

theorem validateForDelivery_core (answers : IdentityAnswers) (c : Cell) :
    (epSockValidateIdentityForDeliveryLocked answers c).2.2.core = c.core := by
  have h := validateIdentity_core answers false c
  unfold epSockValidateIdentityForDeliveryLocked
  dsimp only
  split
  · rfl
  split
  · exact (core_mapSock (fun _ => rfl) _).trans h
  · exact h

/-- Only the check of a socket can fail without a verdict. -/
theorem validateForDelivery_error {answers : IdentityAnswers} {c : Cell}
    (h : (epSockValidateIdentityForDeliveryLocked answers c).1 = .error) :
    c.sock.kind = .socket := by
  have hvalidate : (epSockValidateIdentityLocked answers false c).1 = .error := by
    unfold epSockValidateIdentityForDeliveryLocked at h
    dsimp only at h
    split at h
    · exact absurd h c.sock.identityCheckedResult.property
    · split at h <;> exact h
  by_contra hkind
  unfold epSockValidateIdentityLocked at hvalidate
  simp [hkind] at hvalidate

theorem pollCurrent_core (answers : LevelAnswers) (c : Cell) :
    (epSocketPollCurrent answers c).2.core = c.core := by
  unfold epSocketPollCurrent
  split <;> rfl

theorem mergeCurrentLevels_core (answers : LevelAnswers) (c : Cell) (delivered : Events) :
    (epSocketMergeCurrentLevels answers c delivered).2.2.core = c.core := by
  have h := pollCurrent_core answers c
  unfold epSocketMergeCurrentLevels
  split
  · rfl
  · generalize epSocketPollCurrent answers c = r at h ⊢
    obtain ⟨polled, d⟩ := r
    cases polled with
    | none => exact (core_mapPort (fun _ => rfl) d).trans h
    | some revents =>
      simp only
      split <;> exact h

theorem localShutdownLevel_core (answers : LevelAnswers) (c : Cell) :
    (epSockLocalShutdownLevelLocked answers c).2.core = c.core := by
  unfold epSockLocalShutdownLevelLocked
  split
  · rfl
  · exact mergeCurrentLevels_core answers c 0

/-- The probes of the current levels only count themselves. -/
theorem mergeCurrentLevels_sock (answers : LevelAnswers) (c : Cell) (delivered : Events) :
    (epSocketMergeCurrentLevels answers c delivered).2.2.sock = c.sock := by
  have h : (epSocketPollCurrent answers c).2.sock = c.sock := by
    unfold epSocketPollCurrent
    split <;> rfl
  unfold epSocketMergeCurrentLevels
  split
  · rfl
  · generalize epSocketPollCurrent answers c = r at h ⊢
    obtain ⟨polled, d⟩ := r
    cases polled with
    | none => exact h
    | some revents =>
      simp only
      split <;> exact h

theorem localShutdownLevel_sock (answers : LevelAnswers) (c : Cell) :
    (epSockLocalShutdownLevelLocked answers c).2.sock = c.sock := by
  unfold epSockLocalShutdownLevelLocked
  split
  · rfl
  · exact mergeCurrentLevels_sock answers c 0

theorem udpProbe_core (answers : UdpAnswers) (c : Cell) :
    (epUdpProbeReadLocked answers c).2.2.core = c.core := by
  have h := validateIdentity_core answers.identity false c
  unfold epUdpProbeReadLocked
  simp only
  split
  · rfl
  · split
    · rfl
    · split
      · rfl
      · split
        · rfl
        · generalize epSockValidateIdentityLocked answers.identity false c = r at h ⊢
          obtain ⟨check, e, d⟩ := r
          cases check with
          | stale => exact h
          | closed => exact h
          | matching => exact h
          | error =>
            simp only
            split <;> exact h

theorem afdPollBase_core (base : Except Errno Socket) (c : Cell) :
    (epAfdPollBase base c).2.core = c.core := by
  unfold epAfdPollBase
  split
  · rfl
  · split
    · rfl
    · split
      · rfl
      · split <;> rfl

end

end WepollEx
