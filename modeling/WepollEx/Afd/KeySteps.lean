import WepollEx.Afd.KeyTable

/-!
# What a step of the key machine can do

`Moved` lists the transitions with their guards.  The invariants are proved over it, one case for
each transition.
-/

namespace WepollEx

namespace AfdKeys

/-- Somebody owns the key `target`. -/
def Active (st : AfdKeys) (target : Handle) : Prop :=
  ∃ b, st.owned b = true ∧ st.target b = target

/-- One more call of `DuplicateHandle`. -/
def countDuplication (st : AfdKeys) (a : Addr) : AfdKeys :=
  { st with duplications := Function.update st.duplications a (st.duplications a + 1) }

/-- The transitions. -/
inductive Moved (st : AfdKeys) : KeyAct → AfdKeys → Prop
  | alloc {a} (free : st.allocated a = false) : Moved st (.alloc a) (st.alloc a)
  | free {a} (quiet : st.quiet a) (idle : st.pollStatus a = .idle) :
      Moved st (.free a) { st with allocated := Function.update st.allocated a false }
  | submit {a base} (quiet : st.quiet a) (idle : st.pollStatus a = .idle) :
      Moved st (.submit a base)
        ({ st with duplications := Function.update st.duplications a 0 }.goto a (.claim base))
  | claimBase {a base force} (pc : st.pc a = .claim base) (new : ¬st.Active base)
      (table : (st.epAfdPollKeyInsertLocked a base).Table) :
      Moved st (.tryClaim a force) ((st.epAfdPollKeyInsertLocked a base).goto a (.submit false))
  | busyBase {a base force} (pc : st.pc a = .claim base) :
      Moved st (.tryClaim a force) (st.goto a (.duplicate ⟨base, [], 0⟩))
  | noDuplicate {a loop} (pc : st.pc a = .duplicate loop) :
      Moved st (.duplicate a none)
        ((st.countDuplication a).goto a (closing loop.collisions true))
  | duplicate {a loop handle} (pc : st.pc a = .duplicate loop) :
      Moved st (.duplicate a (some handle))
        (((st.countDuplication a).opened a handle).goto a (.tryDuplicate loop handle))
  | claimDuplicate {a loop handle} (pc : st.pc a = .tryDuplicate loop handle)
      (new : ¬st.Active handle) (table : (st.epAfdPollKeyInsertLocked a handle).Table) :
      Moved st (.tryClaim a false)
        ((st.epAfdPollKeyInsertLocked a handle).goto a (closing loop.collisions false))
  | collide {a loop handle force} (pc : st.pc a = .tryDuplicate loop handle)
      (busy : force = false → st.Active handle) :
      Moved st (.tryClaim a force) (st.goto a (.keep loop handle))
  | keep {a loop handle allocates} (pc : st.pc a = .keep loop handle) (capacity : Nat) :
      Moved st (.keep a allocates)
        (st.goto a (.duplicate ⟨loop.base, loop.collisions ++ [handle], capacity⟩))
  | full {a loop handle allocates} (pc : st.pc a = .keep loop handle) :
      Moved st (.keep a allocates) (st.goto a (.closeDuplicate loop handle))
  | closeDuplicate {a loop handle ok} (pc : st.pc a = .closeDuplicate loop handle) :
      Moved st (.close a ok)
        ((st.closeHandle a handle ok).goto a (closing loop.collisions true))
  | closeCollision {a handle rest failed ok}
      (pc : st.pc a = .closeCollisions (handle :: rest) failed) :
      Moved st (.close a ok) ((st.closeHandle a handle ok).goto a (closing rest failed))
  | closeTarget {a reserveSlot ok} (pc : st.pc a = .closeTarget reserveSlot) :
      Moved st (.close a ok)
        ((st.closeHandle a (st.target a) ok).goto a (afterCloseTarget reserveSlot ok))
  | closeEvent {a event ok} (pc : st.pc a = .closeEvent event) :
      Moved st (.close a ok) ((st.closeHandle a event ok).goto a .idle)
  | closeReservation {a reservation completing ok}
      (pc : st.pc a = .closeReservation reservation completing) :
      Moved st (.close a ok) ((st.closeHandle a reservation ok).released a completing)
  | pend {a isDuplicate} (pc : st.pc a = .submit isDuplicate) :
      Moved st (.enterKernel a .pending)
        ((st.setStatus a .pending).goto a (if isDuplicate then .closeTarget true else .idle))
  | settle {a isDuplicate outcome} (pc : st.pc a = .submit isDuplicate) :
      Moved st (.enterKernel a outcome)
        (st.goto a (if isDuplicate then .closeTarget false else .release false))
  | noEvent {a} (pc : st.pc a = .createEvent) : Moved st (.createEvent a 0) (st.goto a .idle)
  | event {a event} (pc : st.pc a = .createEvent) (some : event ≠ 0) :
      Moved st (.createEvent a event) ((st.opened a event).goto a
        (if event = st.target a then .storeReservation event else .closeEvent event))
  | store {a event} (pc : st.pc a = .storeReservation event) :
      Moved st (.storeReservation a) (st.storeReservation a event)
  | releaseNothing {a completing} (pc : st.pc a = .release completing)
      (free : st.owned a = false) : Moved st (.release a) (st.released a completing)
  | release {a completing st₁} (pc : st.pc a = .release completing) (owned : st.owned a = true)
      (dropped : st.Dropped st₁ a) (table : st₁.Table) (none : st.reservation a = 0) :
      Moved st (.release a) (st₁.released a completing)
  | releaseReserved {a completing st₁} (pc : st.pc a = .release completing)
      (owned : st.owned a = true) (dropped : st.Dropped st₁ a) (table : st₁.Table)
      (some : st.reservation a ≠ 0) :
      Moved st (.release a) (st₁.goto a (.closeReservation (st.reservation a) completing))
  | post {a} (quiet : st.quiet a) (idle : st.pollStatus a = .idle) :
      Moved st (.post a) (st.setStatus a .pending)
  | cancel {a} (quiet : st.quiet a) (pending : st.pollStatus a = .pending) :
      Moved st (.cancel a) (st.setStatus a .cancelled)
  | complete {a} (quiet : st.quiet a) (busy : st.pollStatus a ≠ .idle) :
      Moved st (.complete a) (st.goto a (.release true))
  | processOpens {handle} : Moved st (.processOpens handle)
      { st with isOpen := Function.update st.isOpen handle true }
  | processCloses {handle} : Moved st (.processCloses handle)
      { st with isOpen := Function.update st.isOpen handle false }

section

variable {st st' : AfdKeys} {a : Addr} {act : KeyAct}

theorem Inv.moved_tryClaim (h : st.Inv) {force : Bool}
    (hstep : st.step (.tryClaim a force) = some st') : Moved st (.tryClaim a force) st' := by
  have hfits := h.fits a
  cases hpc : st.pc a with
  | claim base =>
    rw [hpc] at hfits
    simp only [step, hpc, tryClaimBase] at hstep
    rcases h.table.tryClaim hfits.1 base with ⟨hclaim, -⟩ | ⟨hclaim, hnew, htable⟩
    · rw [hclaim] at hstep
      cases hstep
      exact .busyBase hpc
    · rw [hclaim] at hstep
      cases hstep
      exact .claimBase hpc hnew htable
  | tryDuplicate loop handle =>
    rw [hpc] at hfits
    simp only [step, hpc, tryClaimDuplicate] at hstep
    cases force with
    | true =>
      cases hstep
      exact .collide hpc nofun
    | false =>
      rcases h.table.tryClaim hfits.1 handle with ⟨hclaim, hbusy⟩ | ⟨hclaim, hnew, htable⟩
      · rw [hclaim] at hstep
        cases hstep
        exact .collide hpc fun _ => hbusy
      · rw [hclaim] at hstep
        cases hstep
        exact .claimDuplicate hpc hnew htable
  | _ =>
    simp only [step, hpc] at hstep
    cases hstep

theorem Inv.moved_release (h : st.Inv) (hstep : st.step (.release a) = some st') :
    Moved st (.release a) st' := by
  cases hpc : st.pc a with
  | release completing =>
    simp only [step, hpc, epAfdPollKeyRelease] at hstep
    cases howned : st.owned a with
    | false =>
      rw [if_pos howned] at hstep
      cases hstep
      exact .releaseNothing hpc howned
    | true =>
      obtain ⟨st₁, hrelease, hdropped, htable⟩ := h.table.release howned
      rw [if_neg (by simp [howned]), hrelease, Option.map_some] at hstep
      cases hstep
      dsimp only
      split
      case isTrue hnone => exact .release hpc howned hdropped htable hnone
      case isFalse hsome => exact .releaseReserved hpc howned hdropped htable hsome
  | _ =>
    simp only [step, hpc] at hstep
    cases hstep

theorem moved_close {ok : Bool} (hstep : st.step (.close a ok) = some st') :
    Moved st (.close a ok) st' := by
  cases hpc : st.pc a with
  | closeDuplicate loop handle =>
    simp only [step, hpc, close] at hstep
    cases hstep
    exact .closeDuplicate hpc
  | closeCollisions rest failed =>
    cases rest with
    | nil =>
      simp only [step, hpc, close] at hstep
      cases hstep
    | cons handle rest =>
      simp only [step, hpc, close] at hstep
      cases hstep
      exact .closeCollision hpc
  | closeTarget reserveSlot =>
    simp only [step, hpc, close] at hstep
    cases hstep
    exact .closeTarget hpc
  | closeEvent event =>
    simp only [step, hpc, close] at hstep
    cases hstep
    exact .closeEvent hpc
  | closeReservation reservation completing =>
    simp only [step, hpc, close] at hstep
    cases hstep
    exact .closeReservation hpc
  | _ =>
    simp only [step, hpc, close] at hstep
    cases hstep

theorem moved_keep {allocates : Bool} (hstep : st.step (.keep a allocates) = some st') :
    Moved st (.keep a allocates) st' := by
  cases hpc : st.pc a with
  | keep loop handle =>
    simp only [step, hpc, keepCollision] at hstep
    split at hstep
    · split at hstep
      · cases hstep
        exact .full hpc
      · cases hstep
        exact .keep hpc _
    · cases hstep
      exact .keep hpc _
  | _ =>
    simp only [step, hpc] at hstep
    cases hstep

/-- Every step is one of the transitions. -/
theorem Inv.moved (h : st.Inv) (hstep : st.step act = some st') : Moved st act st' := by
  cases act with
  | alloc a =>
    simp only [step] at hstep
    split at hstep
    · cases hstep
    case isFalse hfree =>
      cases hstep
      exact .alloc (by simpa using hfree)
  | free a =>
    simp only [step] at hstep
    split at hstep
    case isTrue hquiet =>
      cases hstep
      exact .free hquiet.1 hquiet.2
    · cases hstep
  | submit a base =>
    simp only [step] at hstep
    split at hstep
    case isTrue hquiet =>
      cases hstep
      exact .submit hquiet.1 hquiet.2
    · cases hstep
  | tryClaim a force => exact h.moved_tryClaim hstep
  | duplicate a answer =>
    cases hpc : st.pc a with
    | duplicate loop =>
      simp only [step, hpc] at hstep
      cases hstep
      cases answer with
      | none => exact .noDuplicate hpc
      | some handle => exact .duplicate hpc
    | _ =>
      simp only [step, hpc] at hstep
      cases hstep
  | keep a allocates => exact moved_keep hstep
  | close a ok => exact moved_close hstep
  | enterKernel a outcome =>
    cases hpc : st.pc a with
    | submit isDuplicate =>
      simp only [step, hpc] at hstep
      cases hstep
      cases outcome with
      | pending => exact .pend hpc
      | success => exact .settle hpc
      | failed => exact .settle hpc
    | _ =>
      simp only [step, hpc] at hstep
      cases hstep
  | createEvent a event =>
    cases hpc : st.pc a with
    | createEvent =>
      simp only [step, hpc, createEventW] at hstep
      cases hstep
      split
      case isTrue hnone =>
        subst hnone
        exact .noEvent hpc
      case isFalse hsome => exact .event hpc hsome
    | _ =>
      simp only [step, hpc] at hstep
      cases hstep
  | storeReservation a =>
    cases hpc : st.pc a with
    | storeReservation event =>
      simp only [step, hpc] at hstep
      cases hstep
      exact .store hpc
    | _ =>
      simp only [step, hpc] at hstep
      cases hstep
  | release a => exact h.moved_release hstep
  | post a =>
    simp only [step] at hstep
    split at hstep
    case isTrue hquiet =>
      cases hstep
      exact .post hquiet.1 hquiet.2
    · cases hstep
  | cancel a =>
    simp only [step] at hstep
    split at hstep
    case isTrue hquiet =>
      cases hstep
      exact .cancel hquiet.1 hquiet.2
    · cases hstep
  | complete a =>
    simp only [step] at hstep
    split at hstep
    case isTrue hquiet =>
      cases hstep
      exact .complete hquiet.1 hquiet.2
    · cases hstep
  | processOpens handle =>
    cases hstep
    exact .processOpens
  | processCloses handle =>
    cases hstep
    exact .processCloses

/-! ## The invariant -/

theorem fits_closing {rest : List Handle} {failed : Bool} {owned : Bool}
    (howned : owned = !failed) : (closing rest failed).Fits owned .idle := by
  subst howned
  cases rest with
  | nil =>
    cases failed with
    | true => exact nofun
    | false => exact ⟨rfl, rfl⟩
  | cons handle rest => exact ⟨nofun, rfl, rfl⟩

theorem Table.congr (h : st.Table) (hi : st'.index = st.index) (ht : st'.target = st.target)
    (hr : st'.reservation = st.reservation) (ho : st'.owned = st.owned)
    (hl : st'.linked = st.linked) (hc : st'.claims = st.claims)
    (hd : st'.releases = st.releases) : st'.Table where
  indexes := by
    obtain ⟨chains, hindexes, hbound⟩ := h.indexes
    refine ⟨chains, ?_, by rw [hl]; exact hbound⟩
    rw [hi]
    refine hindexes.congr fun c => ?_
    rw [key, key, hi, ht, ho]
  unique := by
    rw [ho, ht]
    exact h.unique
  cleared := by
    rw [ho, ht, hr]
    exact h.cleared
  counted := by
    rw [hc, hd, ho]
    exact h.counted

theorem Inv.goto (h : st.Inv) (hlive : st.allocated a = true) {pc : KeyPc}
    (hself : pc.Fits (st.owned a) (st.pollStatus a)) : (st.goto a pc).Inv := by
  refine h.only hlive (.goto st a pc) (h.table.congr rfl rfl rfl rfl rfl rfl rfl) ?_
  have hpc : (st.goto a pc).pc a = pc := Function.update_self ..
  rw [hpc]
  exact hself

/-- Only handles and counts change. -/
theorem Inv.congr (h : st.Inv) (hi : st'.index = st.index) (ht : st'.target = st.target)
    (hr : st'.reservation = st.reservation) (ho : st'.owned = st.owned)
    (hl : st'.linked = st.linked) (hc : st'.claims = st.claims)
    (hd : st'.releases = st.releases) (hp : st'.pc = st.pc)
    (hs : st'.pollStatus = st.pollStatus) (ha : st'.allocated = st.allocated) : st'.Inv where
  table := h.table.congr hi ht hr ho hl hc hd
  fits := by
    rw [hp, ho, hs]
    exact h.fits
  dead := by
    rw [hp, hs, ha]
    exact h.dead

theorem Inv.setStatus (h : st.Inv) (hlive : st.allocated a = true) {status : PollStatus}
    (hself : (st.pc a).Fits (st.owned a) status) : (st.setStatus a status).Inv := by
  refine h.only hlive (.setStatus st a status) (h.table.congr rfl rfl rfl rfl rfl rfl rfl) ?_
  have hstatus : (st.setStatus a status).pollStatus a = status := Function.update_self ..
  rw [hstatus]
  exact hself

theorem Inv.setBoth (h : st.Inv) (hlive : st.allocated a = true) {status : PollStatus}
    {pc : KeyPc} (hself : pc.Fits (st.owned a) status) :
    ((st.setStatus a status).goto a pc).Inv := by
  refine h.only hlive ((Only.setStatus st a status).trans (.goto _ a pc))
    (h.table.congr rfl rfl rfl rfl rfl rfl rfl) ?_
  have hpc : ((st.setStatus a status).goto a pc).pc a = pc := Function.update_self ..
  have hstatus : ((st.setStatus a status).goto a pc).pollStatus a = status :=
    Function.update_self ..
  rw [hpc, hstatus]
  exact hself

/-- The end of a release. -/
theorem Inv.released (h : st.Inv) (hlive : st.allocated a = true) {completing : Bool}
    (hfree : st.owned a = false) : (st.released a completing).Inv := by
  have hidle : ∀ status, KeyPc.Fits .idle (st.owned a) status := by
    intro status howned
    rw [hfree] at howned
    cases howned
  cases completing with
  | true => exact h.setBoth hlive (hidle .idle)
  | false => exact h.goto hlive (hidle _)

/-- The claim of a target that nobody owns. -/
theorem Inv.claim (h : st.Inv) (hlive : st.allocated a = true) {target : Handle} {pc : KeyPc}
    (htable : (st.epAfdPollKeyInsertLocked a target).Table)
    (hself : pc.Fits true (st.pollStatus a)) :
    ((st.epAfdPollKeyInsertLocked a target).goto a pc).Inv := by
  refine h.only hlive ((Only.insert st a target).trans (.goto _ a pc))
    (htable.congr rfl rfl rfl rfl rfl rfl rfl) ?_
  have hpc : ((st.epAfdPollKeyInsertLocked a target).goto a pc).pc a = pc :=
    Function.update_self ..
  have howned : ((st.epAfdPollKeyInsertLocked a target).goto a pc).owned a = true :=
    Function.update_self ..
  rw [hpc, howned]
  exact hself

/-- The storage of a registration that is not allocated is cleared already. -/
theorem Inv.alloc_eq (h : st.Inv) (hfree : st.allocated a = false) :
    st.alloc a = { st with allocated := Function.update st.allocated a true } := by
  obtain ⟨hpc, hstatus⟩ := h.dead hfree
  have howned : st.owned a = false := by
    have hfits := h.fits a
    rw [hpc, hstatus] at hfits
    by_contra hne
    exact hfits (by simpa using hne) rfl
  obtain ⟨htarget, hreservation⟩ := h.table.cleared howned
  unfold AfdKeys.alloc
  rw [Function.update_eq_self_iff.mpr htarget.symm,
    Function.update_eq_self_iff.mpr hreservation.symm,
    Function.update_eq_self_iff.mpr howned.symm, Function.update_eq_self_iff.mpr hstatus.symm]

theorem Inv.alloc (h : st.Inv) (hfree : st.allocated a = false) : (st.alloc a).Inv := by
  rw [h.alloc_eq hfree]
  refine ⟨h.table.congr rfl rfl rfl rfl rfl rfl rfl, h.fits, ?_⟩
  intro b hb
  replace hb : Function.update st.allocated a true b = false := hb
  by_cases hba : b = a
  · rw [hba, Function.update_self] at hb
    cases hb
  · rw [Function.update_of_ne hba] at hb
    exact h.dead hb

theorem Inv.opened (h : st.Inv) (a : Addr) (handle : Handle) : (st.opened a handle).Inv :=
  h.congr rfl rfl rfl rfl rfl rfl rfl rfl rfl rfl

theorem Inv.closeHandle (h : st.Inv) (a : Addr) (handle : Handle) (ok : Bool) :
    (st.closeHandle a handle ok).Inv :=
  h.congr rfl rfl rfl rfl rfl rfl rfl rfl rfl rfl

theorem Inv.countDuplication (h : st.Inv) (a : Addr) : (st.countDuplication a).Inv :=
  h.congr rfl rfl rfl rfl rfl rfl rfl rfl rfl rfl

/-- A registration in the middle of a call. -/
theorem Inv.during (h : st.Inv) {pc : KeyPc} (hpc : st.pc a = pc) (hne : pc ≠ .idle) :
    st.allocated a = true ∧ pc.Fits (st.owned a) (st.pollStatus a) := by
  subst hpc
  exact ⟨h.live hne, h.fits a⟩

/-- The key of `a` leaves the index. -/
theorem Inv.dropped (h : st.Inv) (hlive : st.allocated a = true) {st₁ : AfdKeys}
    (hdropped : st.Dropped st₁ a) (htable : st₁.Table) {pc : KeyPc}
    (hself : pc.Fits false (st.pollStatus a)) : (st₁.goto a pc).Inv := by
  refine h.only hlive (hdropped.only.trans (.goto _ a pc))
    (htable.congr rfl rfl rfl rfl rfl rfl rfl) ?_
  have hpc : (st₁.goto a pc).pc a = pc := Function.update_self ..
  have howned : (st₁.goto a pc).owned a = false := by
    show st₁.owned a = false
    rw [hdropped.owned, Function.update_self]
  have hstatus : (st₁.goto a pc).pollStatus a = st.pollStatus a := by
    show st₁.pollStatus a = st.pollStatus a
    rw [← hdropped.rest]
  rw [hpc, howned, hstatus]
  exact hself

/-- The reservation is stored in a registration that owns its key. -/
theorem Table.reserve (h : st.Table) (howned : st.owned a = true) (event : Handle) :
    Table { st with reservation := Function.update st.reservation a event } where
  indexes := h.indexes
  unique := h.unique
  cleared := by
    intro b hb
    have hba : b ≠ a := by
      intro hba
      replace hb : st.owned b = false := hb
      rw [hba, howned] at hb
      cases hb
    obtain ⟨htarget, hreservation⟩ := h.cleared hb
    exact ⟨htarget, (Function.update_of_ne hba _ _).trans hreservation⟩
  counted := h.counted

theorem Inv.store (h : st.Inv) {event : Handle} (hpc : st.pc a = .storeReservation event) :
    (st.storeReservation a event).Inv := by
  obtain ⟨hlive, howned, hstatus⟩ := h.during hpc nofun
  have hstored : Inv { st with reservation := Function.update st.reservation a event } :=
    ⟨h.table.reserve howned event, h.fits, h.dead⟩
  refine hstored.goto hlive fun _ => ?_
  show st.pollStatus a ≠ .idle
  rw [hstatus]
  exact nofun

theorem Inv.step (h : st.Inv) (hmoved : Moved st act st') : st'.Inv := by
  cases hmoved with
  | alloc hfree => exact h.alloc hfree
  | @free a hquiet hidle =>
    obtain ⟨-, hpc⟩ := quiet_iff.mp hquiet
    refine ⟨h.table.congr rfl rfl rfl rfl rfl rfl rfl, h.fits, fun {b} hb => ?_⟩
    replace hb : Function.update st.allocated a false b = false := hb
    by_cases hba : b = a
    · rw [hba]
      exact ⟨hpc, hidle⟩
    · rw [Function.update_of_ne hba] at hb
      exact h.dead hb
  | @submit a base hquiet hidle =>
    obtain ⟨hlive, hpc⟩ := quiet_iff.mp hquiet
    have hfits := h.fits a
    rw [hpc] at hfits
    have hreset : Inv { st with duplications := Function.update st.duplications a 0 } :=
      h.congr rfl rfl rfl rfl rfl rfl rfl rfl rfl rfl
    have howned : st.owned a = false := by
      by_contra howned
      exact hfits (by simpa using howned) hidle
    refine hreset.goto hlive ?_
    exact ⟨howned, hidle⟩
  | claimBase hpc _ htable =>
    obtain ⟨hlive, -, hidle⟩ := h.during hpc nofun
    exact h.claim hlive htable ⟨rfl, hidle⟩
  | busyBase hpc =>
    obtain ⟨hlive, hfits⟩ := h.during hpc nofun
    exact h.goto hlive hfits
  | @noDuplicate a loop hpc =>
    obtain ⟨hlive, howned, hidle⟩ := h.during hpc nofun
    refine (h.countDuplication a).goto hlive ?_
    show (closing loop.collisions true).Fits (st.owned a) (st.pollStatus a)
    rw [hidle]
    exact fits_closing howned
  | @duplicate a loop handle hpc =>
    obtain ⟨hlive, hfits⟩ := h.during hpc nofun
    exact ((h.countDuplication a).opened a handle).goto hlive hfits
  | claimDuplicate hpc _ htable =>
    obtain ⟨hlive, -, hidle⟩ := h.during hpc nofun
    refine h.claim hlive htable ?_
    rw [hidle]
    exact fits_closing rfl
  | collide hpc _ =>
    obtain ⟨hlive, hfits⟩ := h.during hpc nofun
    exact h.goto hlive hfits
  | keep hpc capacity =>
    obtain ⟨hlive, hfits⟩ := h.during hpc nofun
    exact h.goto hlive hfits
  | full hpc =>
    obtain ⟨hlive, hfits⟩ := h.during hpc nofun
    exact h.goto hlive hfits
  | @closeDuplicate a loop handle ok hpc =>
    obtain ⟨hlive, howned, hidle⟩ := h.during hpc nofun
    refine (h.closeHandle a handle ok).goto hlive ?_
    show (closing loop.collisions true).Fits (st.owned a) (st.pollStatus a)
    rw [hidle]
    exact fits_closing howned
  | @closeCollision a handle rest failed ok hpc =>
    obtain ⟨hlive, -, howned, hidle⟩ := h.during hpc nofun
    refine (h.closeHandle a handle ok).goto hlive ?_
    show (closing rest failed).Fits (st.owned a) (st.pollStatus a)
    rw [hidle]
    exact fits_closing howned
  | @closeTarget a reserveSlot ok hpc =>
    obtain ⟨hlive, howned, hstatus⟩ := h.during hpc nofun
    refine (h.closeHandle a (st.target a) ok).goto hlive ?_
    show (afterCloseTarget reserveSlot ok).Fits (st.owned a) (st.pollStatus a)
    rw [howned, hstatus]
    cases reserveSlot with
    | true =>
      cases ok with
      | true => exact ⟨rfl, rfl⟩
      | false => exact nofun
    | false => exact ⟨rfl, rfl⟩
  | @closeEvent a event ok hpc =>
    obtain ⟨hlive, howned, hstatus⟩ := h.during hpc nofun
    refine (h.closeHandle a event ok).goto hlive fun _ => ?_
    show st.pollStatus a ≠ .idle
    rw [hstatus]
    exact nofun
  | @closeReservation a reservation completing ok hpc =>
    obtain ⟨hlive, howned, -⟩ := h.during hpc nofun
    exact (h.closeHandle a reservation ok).released hlive howned
  | @pend a isDuplicate hpc =>
    obtain ⟨hlive, howned, -⟩ := h.during hpc nofun
    refine h.setBoth hlive ?_
    rw [howned]
    cases isDuplicate with
    | true => exact ⟨rfl, rfl⟩
    | false => exact nofun
  | @settle a isDuplicate outcome hpc =>
    obtain ⟨hlive, howned, hidle⟩ := h.during hpc nofun
    refine h.goto hlive ?_
    rw [howned, hidle]
    cases isDuplicate with
    | true => exact ⟨rfl, rfl⟩
    | false => exact ⟨rfl, rfl⟩
  | noEvent hpc =>
    obtain ⟨hlive, -, hstatus⟩ := h.during hpc nofun
    refine h.goto hlive fun _ => ?_
    rw [hstatus]
    exact nofun
  | @event a event hpc hsome =>
    obtain ⟨hlive, hfits⟩ := h.during hpc nofun
    refine (h.opened a event).goto hlive ?_
    split
    · exact hfits
    · exact hfits
  | store hpc => exact h.store hpc
  | releaseNothing hpc hfree => exact h.released (h.during hpc nofun).1 hfree
  | @release a completing st₁ hpc howned hdropped htable hnone =>
    obtain ⟨hlive, -⟩ := h.during hpc nofun
    have hidle : (st₁.goto a .idle).Inv := h.dropped hlive hdropped htable nofun
    cases completing with
    | true =>
      have hlive₁ : (st₁.goto a .idle).allocated a = true := hdropped.only.allocated ▸ hlive
      refine hidle.setStatus hlive₁ ?_
      have hpc₁ : (st₁.goto a .idle).pc a = .idle := Function.update_self ..
      have howned₁ : (st₁.goto a .idle).owned a = false := by
        show st₁.owned a = false
        rw [hdropped.owned, Function.update_self]
      rw [hpc₁, howned₁]
      exact nofun
    | false => exact hidle
  | @releaseReserved a completing st₁ hpc howned hdropped htable hsome =>
    obtain ⟨hlive, hfits⟩ := h.during hpc nofun
    refine h.dropped hlive hdropped htable ⟨rfl, ?_⟩
    cases completing with
    | true => exact hfits
    | false => exact hfits.2
  | @post a hquiet hidle =>
    obtain ⟨hlive, hpc⟩ := quiet_iff.mp hquiet
    refine h.setStatus hlive ?_
    rw [hpc]
    exact nofun
  | @cancel a hquiet hpending =>
    obtain ⟨hlive, hpc⟩ := quiet_iff.mp hquiet
    refine h.setStatus hlive ?_
    rw [hpc]
    exact nofun
  | @complete a hquiet hbusy =>
    exact h.goto (quiet_iff.mp hquiet).1 hbusy
  | processOpens => exact h.congr rfl rfl rfl rfl rfl rfl rfl rfl rfl rfl
  | processCloses => exact h.congr rfl rfl rfl rfl rfl rfl rfl rfl rfl rfl

/-- The two layouts of an empty index. -/
def Fresh (index : KeyIndex) : Prop :=
  index = .small Intrusive.ForwardIndex.empty ∨ index = .large Intrusive.Index.empty

theorem Fresh.indexes {index : KeyIndex} (h : Fresh index) :
    index.Indexes (fun _ => none) fun _ => [] := by
  rcases h with rfl | rfl
  · exact Intrusive.ForwardIndex.indexes_empty
  · exact Intrusive.Index.indexes_empty

theorem inv_reach {index : KeyIndex} (hfresh : Fresh index)
    (h : Transition.Reach AfdKeys.step (start index) st) : st.Inv :=
  h.invariant (inv_start hfresh.indexes) fun _ _ _ hinv hstep => hinv.step (hinv.moved hstep)

end

end AfdKeys

end WepollEx
