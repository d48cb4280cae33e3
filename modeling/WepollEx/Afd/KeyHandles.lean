import WepollEx.Afd.KeySteps

/-!
# The handles of a submission

Every duplicate and every reservation that a submission opens is held by it until it is closed.
This needs a kernel that hands out only values that are not open and that closes what it is asked
to close, and a process that closes no handle of the library.
-/

namespace WepollEx

/-- `NULL` is no handle. -/
def nonNull (handle : Handle) : List Handle := if handle = 0 then [] else [handle]

/-- The handles that a submission holds at a point, besides its reservation. -/
def KeyPc.held (target : Handle) : KeyPc → List Handle
  | .duplicate loop => loop.collisions
  | .tryDuplicate loop handle => handle :: loop.collisions
  | .keep loop handle => handle :: loop.collisions
  | .closeDuplicate loop handle => handle :: loop.collisions
  | .closeCollisions rest failed => if failed then rest else target :: rest
  | .submit isDuplicate => if isDuplicate then [target] else []
  | .closeTarget _ => [target]
  | .closeEvent event => [event]
  | .storeReservation event => nonNull event
  | .closeReservation reservation _ => [reservation]
  | _ => []

/-- A reservation is stored only while no submission is in progress. -/
def KeyPc.mayReserve : KeyPc → Bool
  | .idle => true
  | .release _ => true
  | _ => false

namespace AfdKeys

def reserved (st : AfdKeys) (a : Addr) : List Handle := nonNull (st.reservation a)

/-- The handles that the library holds for `a`. -/
def held (st : AfdKeys) (a : Addr) : List Handle := (st.pc a).held (st.target a) ++ st.reserved a

/-- The kernel and the rest of the process keep to the rules of handles. -/
def Lawful (st : AfdKeys) : KeyAct → Prop
  | .duplicate _ answer => ∀ handle, answer = some handle → st.isOpen handle = false
  | .createEvent _ event => event ≠ 0 → st.isOpen event = false
  | .close _ ok => ok = true
  | .processOpens handle => st.isOpen handle = false
  | .processCloses handle => ∀ a, handle ∉ st.held a
  | _ => True

structure Kept (st : AfdKeys) : Prop where
  counted : ∀ a handle, st.opens a handle = st.closes a handle + (st.held a).count handle
  isOpen : ∀ {a handle}, handle ∈ st.held a → st.isOpen handle = true
  nodup : ∀ a, (st.held a).Nodup
  apart : ∀ {a b handle}, handle ∈ st.held a → handle ∈ st.held b → a = b
  unreserved : ∀ {a}, (st.pc a).mayReserve = false → st.reservation a = 0

theorem kept_start (index : KeyIndex) : (start index).Kept where
  counted := fun _ _ => rfl
  isOpen := nofun
  nodup := fun _ => List.nodup_nil
  apart := nofun
  unreserved := fun _ => rfl

section

variable {st st' : AfdKeys} {a : Addr} {act : KeyAct} {handle : Handle}

theorem closing_held (target : Handle) (rest : List Handle) (failed : Bool) :
    (closing rest failed).held target = if failed then rest else target :: rest := by
  cases rest with
  | nil => cases failed <;> rfl
  | cons handle rest => rfl

theorem closing_mayReserve {rest : List Handle} {failed : Bool}
    (h : (closing rest failed).mayReserve = true) : failed = true := by
  cases rest with
  | nil =>
    cases failed with
    | true => rfl
    | false => cases h
  | cons handle rest => cases h

theorem Only.held {b : Addr} (h : st.Only st' a) (hb : b ≠ a) : st'.held b = st.held b := by
  rw [AfdKeys.held, AfdKeys.held, reserved, reserved, h.pc b hb, h.target b hb,
    h.reservation b hb]

/-- A step that opens and closes nothing. -/
theorem Kept.same (h : st.Kept) (honly : st.Only st' a) (hself : (st'.held a).Perm (st.held a))
    (ho : st'.opens = st.opens) (hc : st'.closes = st.closes) (hk : st'.isOpen = st.isOpen)
    (hr : (st'.pc a).mayReserve = false → st'.reservation a = 0) : st'.Kept := by
  have hheld : ∀ b, (st'.held b).Perm (st.held b) := by
    intro b
    by_cases hb : b = a
    · rw [hb]
      exact hself
    · rw [honly.held hb]
  refine ⟨fun b x => ?_, fun {b x} hx => ?_, fun b => ?_, fun {b c x} hb hc => ?_, fun {b} hb => ?_⟩
  · rw [ho, hc, (hheld b).count_eq]
    exact h.counted b x
  · rw [hk]
    exact h.isOpen ((hheld b).mem_iff.mp hx)
  · exact (hheld b).nodup_iff.mpr (h.nodup b)
  · exact h.apart ((hheld b).mem_iff.mp hb) ((hheld c).mem_iff.mp hc)
  · by_cases hba : b = a
    · rw [hba] at hb ⊢
      exact hr hb
    · rw [honly.pc b hba] at hb
      rw [honly.reservation b hba]
      exact h.unreserved hb

/-- A step that opens a handle. -/
theorem Kept.opening (h : st.Kept) (honly : st.Only st' a) (hnew : st.isOpen handle = false)
    (hself : (st'.held a).Perm (handle :: st.held a))
    (ho : st'.opens = Function.update st.opens a
      (Function.update (st.opens a) handle (st.opens a handle + 1)))
    (hc : st'.closes = st.closes) (hk : st'.isOpen = Function.update st.isOpen handle true)
    (hr : (st'.pc a).mayReserve = false → st'.reservation a = 0) : st'.Kept := by
  have hfree : ∀ b, handle ∉ st.held b := by
    intro b hmem
    rw [h.isOpen hmem] at hnew
    cases hnew
  have hmem : ∀ b x, x ∈ st'.held b → (b = a ∧ x = handle) ∨ x ∈ st.held b := by
    intro b x hx
    by_cases hb : b = a
    · rw [hb, hself.mem_iff, List.mem_cons] at hx
      rcases hx with hx | hx
      · exact .inl ⟨hb, hx⟩
      · exact .inr (hb ▸ hx)
    · rw [honly.held hb] at hx
      exact .inr hx
  refine ⟨fun b x => ?_, fun {b x} hx => ?_, fun b => ?_, fun {b c x} hb hc => ?_, fun {b} hb => ?_⟩
  · have hcount := h.counted b x
    rw [ho, hc]
    by_cases hb : b = a
    · subst hb
      rw [Function.update_self, hself.count_eq]
      by_cases hx : x = handle
      · subst hx
        rw [Function.update_self, List.count_cons_self]
        omega
      · rw [Function.update_of_ne hx, List.count_cons_of_ne (Ne.symm hx)]
        omega
    · rw [Function.update_of_ne hb, honly.held hb]
      exact hcount
  · rw [hk]
    by_cases hxh : x = handle
    · rw [hxh, Function.update_self]
    · rw [Function.update_of_ne hxh]
      rcases hmem b x hx with hnew | hold
      · exact absurd hnew.2 hxh
      · exact h.isOpen hold
  · by_cases hb : b = a
    · rw [hb, hself.nodup_iff]
      exact List.nodup_cons.mpr ⟨hfree a, h.nodup a⟩
    · rw [honly.held hb]
      exact h.nodup b
  · rcases hmem b x hb with hnew | hold
    · rcases hmem c x hc with hnew' | hold'
      · exact hnew.1.trans hnew'.1.symm
      · exact absurd (hnew.2 ▸ hold') (hfree c)
    · rcases hmem c x hc with hnew' | hold'
      · exact absurd (hnew'.2 ▸ hold) (hfree b)
      · exact h.apart hold hold'
  · by_cases hba : b = a
    · rw [hba] at hb ⊢
      exact hr hb
    · rw [honly.pc b hba] at hb
      rw [honly.reservation b hba]
      exact h.unreserved hb

/-- A step that closes a handle it holds. -/
theorem Kept.closing (h : st.Kept) (honly : st.Only st' a)
    (hself : (st.held a).Perm (handle :: st'.held a)) (ho : st'.opens = st.opens)
    (hc : st'.closes = Function.update st.closes a
      (Function.update (st.closes a) handle (st.closes a handle + 1)))
    (hk : st'.isOpen = Function.update st.isOpen handle false)
    (hr : (st'.pc a).mayReserve = false → st'.reservation a = 0) : st'.Kept := by
  have hmem : ∀ {b x}, x ∈ st'.held b → x ∈ st.held b := by
    intro b x hx
    by_cases hb : b = a
    · rw [hb] at hx ⊢
      exact hself.mem_iff.mpr (List.mem_cons_of_mem _ hx)
    · rwa [honly.held hb] at hx
  have hheld : handle ∈ st.held a := hself.mem_iff.mpr (List.mem_cons_self ..)
  have hgone : ∀ b, handle ∉ st'.held b := by
    intro b hx
    by_cases hb : b = a
    · have hnodup := hself.nodup_iff.mp (h.nodup a)
      rw [hb] at hx
      exact (List.nodup_cons.mp hnodup).1 hx
    · exact hb (h.apart (hmem hx) hheld)
  refine ⟨fun b x => ?_, fun {b x} hx => ?_, fun b => ?_, fun {b c x} hb hc => ?_, fun {b} hb => ?_⟩
  · have hcount := h.counted b x
    rw [ho, hc]
    by_cases hb : b = a
    · subst hb
      rw [hself.count_eq] at hcount
      rw [Function.update_self]
      by_cases hx : x = handle
      · subst hx
        rw [List.count_cons_self] at hcount
        rw [Function.update_self]
        omega
      · rw [List.count_cons_of_ne (Ne.symm hx)] at hcount
        rw [Function.update_of_ne hx]
        omega
    · rw [Function.update_of_ne hb, honly.held hb]
      exact hcount
  · have hxh : x ≠ handle := fun hxh => hgone b (hxh ▸ hx)
    rw [hk, Function.update_of_ne hxh]
    exact h.isOpen (hmem hx)
  · by_cases hb : b = a
    · rw [hb]
      exact (List.nodup_cons.mp (hself.nodup_iff.mp (h.nodup a))).2
    · rw [honly.held hb]
      exact h.nodup b
  · exact h.apart (hmem hb) (hmem hc)
  · by_cases hba : b = a
    · rw [hba] at hb ⊢
      exact hr hb
    · rw [honly.pc b hba] at hb
      rw [honly.reservation b hba]
      exact h.unreserved hb

theorem Only.opened (st : AfdKeys) (a : Addr) (handle : Handle) (pc : KeyPc) :
    st.Only ((st.opened a handle).goto a pc) a := by
  have hopened : st.Only (st.opened a handle) a := .same a rfl rfl rfl rfl rfl rfl
  exact hopened.trans (.goto _ a pc)

theorem Only.closeHandle (st : AfdKeys) (a : Addr) (handle : Handle) (ok : Bool) (pc : KeyPc) :
    st.Only ((st.closeHandle a handle ok).goto a pc) a := by
  have hclosed : st.Only (st.closeHandle a handle ok) a := .same a rfl rfl rfl rfl rfl rfl
  exact hclosed.trans (.goto _ a pc)

/-- The handles that `a` holds once it goes on. -/
theorem held_goto (st : AfdKeys) (a : Addr) (pc : KeyPc) :
    (st.goto a pc).held a = pc.held (st.target a) ++ st.reserved a := by
  have hpc : (st.goto a pc).pc a = pc := Function.update_self ..
  rw [held, hpc]
  rfl

/-- `a` goes on without opening or closing a handle. -/
theorem Kept.goto (h : st.Kept) {pc : KeyPc} (hheld : pc.held (st.target a) = (st.pc a).held (st.target a))
    (hr : pc.mayReserve = false → st.reservation a = 0) : (st.goto a pc).Kept := by
  refine h.same (.goto st a pc) ?_ rfl rfl rfl ?_
  · rw [held_goto, hheld]
    exact .refl _
  · have hpc : (st.goto a pc).pc a = pc := Function.update_self ..
    rw [hpc]
    exact hr

/-- `a` closes the first handle it holds and goes on. -/
theorem Kept.closeGoto (h : st.Kept) {pc : KeyPc}
    (hheld : ((st.pc a).held (st.target a)).Perm (handle :: pc.held (st.target a)))
    (hr : pc.mayReserve = false → st.reservation a = 0) :
    ((st.closeHandle a handle true).goto a pc).Kept := by
  refine h.closing (.closeHandle st a handle true pc) ?_ rfl rfl rfl ?_
  · rw [held_goto, held]
    exact hheld.append_right _
  · have hpc : ((st.closeHandle a handle true).goto a pc).pc a = pc := Function.update_self ..
    rw [hpc]
    exact hr

/-- `a` opens a handle and goes on. -/
theorem Kept.openGoto (h : st.Kept) {pc : KeyPc} (hnew : st.isOpen handle = false)
    (hheld : pc.held (st.target a) = handle :: (st.pc a).held (st.target a))
    (hr : pc.mayReserve = false → st.reservation a = 0) :
    ((st.opened a handle).goto a pc).Kept := by
  refine h.opening (.opened st a handle pc) hnew ?_ rfl rfl rfl ?_
  · rw [held_goto, held]
    show (pc.held (st.target a) ++ st.reserved a).Perm _
    rw [hheld]
    exact .refl _
  · have hpc : ((st.opened a handle).goto a pc).pc a = pc := Function.update_self ..
    rw [hpc]
    exact hr

/-- Nothing about handles changes. -/
theorem Kept.congr (h : st.Kept) (hp : st'.pc = st.pc) (ht : st'.target = st.target)
    (hr : st'.reservation = st.reservation) (ho : st'.opens = st.opens)
    (hc : st'.closes = st.closes) (hk : st'.isOpen = st.isOpen) : st'.Kept := by
  have hheld : st'.held = st.held := by
    funext b
    rw [held, held, reserved, reserved, hp, ht, hr]
  refine ⟨?_, ?_, ?_, ?_, ?_⟩
  · rw [ho, hc, hheld]
    exact h.counted
  · rw [hk, hheld]
    exact h.isOpen
  · rw [hheld]
    exact h.nodup
  · rw [hheld]
    exact h.apart
  · rw [hp, hr]
    exact h.unreserved

/-- Between two calls an idle registration owns no key. -/
theorem Inv.unowned (h : st.Inv) (hpc : st.pc a = .idle) (hidle : st.pollStatus a = .idle) :
    st.owned a = false := by
  have hfits := h.fits a
  rw [hpc] at hfits
  by_contra howned
  exact hfits (by simpa using howned) hidle

/-- A registration without a key has no reservation. -/
theorem Inv.unreserved (h : st.Inv) (hfree : st.owned a = false) : st.reservation a = 0 :=
  (h.table.cleared hfree).2

/-- The claim of a handle that `a` holds, or of one that it does not. -/
theorem Kept.claim (h : st.Kept) (hfree : st.reservation a = 0) {target : Handle} {pc : KeyPc}
    (hheld : pc.held target = (st.pc a).held (st.target a)) :
    ((st.epAfdPollKeyInsertLocked a target).goto a pc).Kept := by
  have hself : ((st.epAfdPollKeyInsertLocked a target).goto a pc).reservation a = 0 :=
    Function.update_self ..
  refine h.same ((Only.insert st a target).trans (.goto _ a pc)) ?_ rfl rfl rfl fun _ => hself
  have htarget : (st.epAfdPollKeyInsertLocked a target).target a = target :=
    Function.update_self ..
  have hnone : (st.epAfdPollKeyInsertLocked a target).reserved a = [] := by
    exact if_pos (Function.update_self ..)
  rw [held_goto, htarget, hnone, held, reserved, hfree, hheld]
  exact .refl _

theorem Kept.released (h : (st.goto a .idle).Kept) (completing : Bool) :
    (st.released a completing).Kept := by
  cases completing with
  | true => exact h.congr rfl rfl rfl rfl rfl rfl
  | false => exact h

/-- The key of `a` leaves the index, and with it the reservation. -/
theorem Kept.dropped (h : st.Kept) {st₁ : AfdKeys} (hdropped : st.Dropped st₁ a) {pc : KeyPc}
    (hheld : pc.held 0 = (st.pc a).held (st.target a) ++ nonNull (st.reservation a)) :
    (st₁.goto a pc).Kept := by
  have htarget : st₁.target a = 0 := by rw [hdropped.target, Function.update_self]
  have hreservation : st₁.reservation a = 0 := by rw [hdropped.reservation, Function.update_self]
  refine h.same (hdropped.only.trans (.goto _ a pc)) ?_ ?_ ?_ ?_ fun _ => hreservation
  · rw [held_goto, htarget, reserved, hreservation, hheld, held, reserved]
    simp [nonNull]
  · show st₁.opens = st.opens
    rw [← hdropped.rest]
  · show st₁.closes = st.closes
    rw [← hdropped.rest]
  · show st₁.isOpen = st.isOpen
    rw [← hdropped.rest]

theorem Kept.step (h : st.Kept) (hinv : st.Inv) (hmoved : Moved st act st')
    (hlawful : st.Lawful act) : st'.Kept := by
  cases hmoved with
  | alloc hfree =>
    rw [hinv.alloc_eq hfree]
    exact h.congr rfl rfl rfl rfl rfl rfl
  | free => exact h.congr rfl rfl rfl rfl rfl rfl
  | @submit a base hquiet hidle =>
    obtain ⟨-, hpc⟩ := quiet_iff.mp hquiet
    have howned : st.owned a = false := hinv.unowned hpc hidle
    have hreset : Kept { st with duplications := Function.update st.duplications a 0 } :=
      h.congr rfl rfl rfl rfl rfl rfl
    refine hreset.goto ?_ fun _ => hinv.unreserved howned
    show [] = (st.pc a).held (st.target a)
    rw [hpc]
    rfl
  | @claimBase a base force hpc hnew htable =>
    refine h.claim (h.unreserved (by rw [hpc]; rfl)) ?_
    rw [hpc]
    rfl
  | @busyBase a base force hpc =>
    refine h.goto ?_ fun _ => h.unreserved (by rw [hpc]; rfl)
    rw [hpc]
    rfl
  | @noDuplicate a loop hpc =>
    have hcounted : (st.countDuplication a).Kept := h.congr rfl rfl rfl rfl rfl rfl
    have hunreserved : st.reservation a = 0 := h.unreserved (by rw [hpc]; rfl)
    refine hcounted.goto ?_ fun _ => hunreserved
    rw [closing_held]
    show loop.collisions = (st.pc a).held (st.target a)
    rw [hpc]
    rfl
  | @duplicate a loop handle hpc =>
    have hcounted : (st.countDuplication a).Kept := h.congr rfl rfl rfl rfl rfl rfl
    have hunreserved : st.reservation a = 0 := h.unreserved (by rw [hpc]; rfl)
    refine hcounted.openGoto (hlawful handle rfl) ?_ fun _ => hunreserved
    show handle :: loop.collisions = handle :: (st.pc a).held (st.target a)
    rw [hpc]
    rfl
  | @claimDuplicate a loop handle hpc hnew htable =>
    refine h.claim (h.unreserved (by rw [hpc]; rfl)) ?_
    rw [closing_held, hpc]
    rfl
  | @collide a loop handle force hpc hbusy =>
    refine h.goto ?_ fun _ => h.unreserved (by rw [hpc]; rfl)
    rw [hpc]
    rfl
  | @keep a loop handle allocates hpc capacity =>
    refine h.same (.goto st a _) ?_ rfl rfl rfl fun _ => h.unreserved (by rw [hpc]; rfl)
    rw [held_goto, held, hpc]
    exact (List.perm_append_singleton handle loop.collisions).append_right _
  | @full a loop handle allocates hpc =>
    refine h.goto ?_ fun _ => h.unreserved (by rw [hpc]; rfl)
    rw [hpc]
    rfl
  | @closeDuplicate a loop handle ok hpc =>
    obtain rfl : ok = true := hlawful
    refine h.closeGoto ?_ fun _ => h.unreserved (by rw [hpc]; rfl)
    rw [hpc, closing_held]
    rfl
  | @closeCollision a handle rest failed ok hpc =>
    obtain rfl : ok = true := hlawful
    refine h.closeGoto ?_ fun _ => h.unreserved (by rw [hpc]; rfl)
    rw [hpc, closing_held]
    cases failed with
    | true => exact .refl _
    | false => exact List.Perm.swap ..
  | @closeTarget a reserveSlot ok hpc =>
    obtain rfl : ok = true := hlawful
    refine h.closeGoto ?_ fun _ => h.unreserved (by rw [hpc]; rfl)
    rw [hpc]
    cases reserveSlot <;> rfl
  | @closeEvent a event ok hpc =>
    obtain rfl : ok = true := hlawful
    refine h.closeGoto ?_ nofun
    rw [hpc]
    rfl
  | @closeReservation a reservation completing ok hpc =>
    obtain rfl : ok = true := hlawful
    have hidle : ((st.closeHandle a reservation true).goto a .idle).Kept := by
      refine h.closeGoto ?_ nofun
      rw [hpc]
      rfl
    exact hidle.released completing
  | @pend a isDuplicate hpc =>
    have hgone : (st.goto a (if isDuplicate then .closeTarget true else .idle)).Kept := by
      refine h.goto ?_ fun _ => h.unreserved (by rw [hpc]; rfl)
      rw [hpc]
      cases isDuplicate <;> rfl
    exact hgone.congr rfl rfl rfl rfl rfl rfl
  | @settle a isDuplicate outcome hpc =>
    refine h.goto ?_ fun _ => h.unreserved (by rw [hpc]; rfl)
    rw [hpc]
    cases isDuplicate <;> rfl
  | @noEvent a hpc =>
    refine h.goto ?_ nofun
    rw [hpc]
    rfl
  | @event a event hpc hsome =>
    refine h.openGoto (hlawful hsome) ?_ fun _ => h.unreserved (by rw [hpc]; rfl)
    rw [hpc]
    split
    · exact if_neg hsome
    · rfl
  | @store a event hpc =>
    have hunreserved : st.reservation a = 0 := h.unreserved (by rw [hpc]; rfl)
    have honly : st.Only (st.storeReservation a event) a :=
      { pc := fun _ hb => Function.update_of_ne hb _ _
        owned := fun _ _ => rfl
        target := fun _ _ => rfl
        reservation := fun _ hb => Function.update_of_ne hb _ _
        status := fun _ _ => rfl
        allocated := rfl }
    have hpc' : (st.storeReservation a event).pc a = .idle := Function.update_self ..
    refine h.same honly ?_ rfl rfl rfl fun hbusy => ?_
    · have hreservation : (st.storeReservation a event).reservation a = event :=
        Function.update_self ..
      rw [held, held, reserved, reserved, hpc, hpc', hunreserved, hreservation]
      simp [KeyPc.held, nonNull]
    · rw [hpc'] at hbusy
      cases hbusy
  | @releaseNothing a completing hpc hfree =>
    have hidle : (st.goto a .idle).Kept := h.goto (by rw [hpc]; rfl) nofun
    exact hidle.released completing
  | @release a completing st₁ hpc howned hdropped htable hnone =>
    have hidle : (st₁.goto a .idle).Kept := h.dropped hdropped (by rw [hpc, hnone]; rfl)
    exact hidle.released completing
  | @releaseReserved a completing st₁ hpc howned hdropped htable hsome =>
    refine h.dropped hdropped ?_
    rw [hpc]
    exact (if_neg hsome).symm
  | post => exact h.congr rfl rfl rfl rfl rfl rfl
  | cancel => exact h.congr rfl rfl rfl rfl rfl rfl
  | @complete a hquiet hbusy =>
    obtain ⟨-, hpc⟩ := quiet_iff.mp hquiet
    refine h.goto ?_ nofun
    rw [hpc]
    rfl
  | @processOpens handle =>
    refine ⟨h.counted, fun {b x} hx => ?_, h.nodup, h.apart, h.unreserved⟩
    show Function.update st.isOpen handle true x = true
    by_cases hxh : x = handle
    · rw [hxh, Function.update_self]
    · rw [Function.update_of_ne hxh]
      exact h.isOpen hx
  | @processCloses handle =>
    refine ⟨h.counted, fun {b x} hx => ?_, h.nodup, h.apart, h.unreserved⟩
    have hxh : x ≠ handle := fun hxh => hlawful b (hxh ▸ hx)
    show Function.update st.isOpen handle false x = true
    rw [Function.update_of_ne hxh]
    exact h.isOpen hx

end

end AfdKeys

end WepollEx
