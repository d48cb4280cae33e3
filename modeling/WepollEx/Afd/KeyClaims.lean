import WepollEx.Afd.KeyHandles

/-!
# The duplicate-and-retry loop

A submission that runs alone ends its loop: every collision is the key of another registration, and
the duplicates it keeps are distinct.
-/

namespace WepollEx

/-- The registration that acts; `none` for the rest of the process. -/
def KeyAct.actor : KeyAct → Option Addr
  | .alloc a => some a
  | .free a => some a
  | .submit a _ => some a
  | .tryClaim a _ => some a
  | .duplicate a _ => some a
  | .keep a _ => some a
  | .close a _ => some a
  | .enterKernel a _ => some a
  | .createEvent a _ => some a
  | .storeReservation a => some a
  | .release a => some a
  | .post a => some a
  | .cancel a => some a
  | .complete a => some a
  | .processOpens _ => none
  | .processCloses _ => none

/-- The fault that makes a claim fail is not injected. -/
def KeyAct.unforced : KeyAct → Bool
  | .tryClaim _ forceCollision => !forceCollision
  | _ => true

/-- The submission is in `ep_afd_poll_key_claim`. -/
def KeyPc.claiming : KeyPc → Bool
  | .claim _ => true
  | .duplicate _ => true
  | .tryDuplicate _ _ => true
  | .keep _ _ => true
  | .closeDuplicate _ _ => true
  | .closeCollisions _ _ => true
  | _ => false

/-- What the loop has done with `k` keys in the index, `active` of which collide, after `n`
duplications. -/
def KeyPc.Bounded (active : Handle → Prop) (k n : Nat) : KeyPc → Prop
  | .claim _ => n = 0
  | .duplicate loop => (∀ handle ∈ loop.collisions, active handle) ∧ n = loop.collisions.length
  | .tryDuplicate loop _ =>
    (∀ handle ∈ loop.collisions, active handle) ∧ n = loop.collisions.length + 1
  | .keep loop handle =>
    (∀ other ∈ handle :: loop.collisions, active other) ∧ n = loop.collisions.length + 1
  | .closeDuplicate loop handle =>
    (∀ other ∈ handle :: loop.collisions, active other) ∧ n = loop.collisions.length + 1
  | .closeCollisions rest _ => rest.length ≤ k ∧ n ≤ k + 1
  | _ => n ≤ k + 1

/-- How many steps the claim takes at most from here on. -/
def KeyPc.effort (k : Nat) : KeyPc → Nat
  | .claim _ => 4 * k + 5
  | .duplicate loop => 3 * (k - loop.collisions.length) + k + 4
  | .tryDuplicate loop _ => 3 * (k - loop.collisions.length) + k + 3
  | .keep loop _ => 3 * (k - loop.collisions.length) + k + 2
  | .closeDuplicate _ _ => k + 1
  | .closeCollisions rest _ => rest.length
  | _ => 0

namespace AfdKeys

/-- `a` acts, or the rest of the process, within the rules of handles. -/
def Alone (a : Addr) (st : AfdKeys) (act : KeyAct) : Prop :=
  st.Lawful act ∧ (act.actor = some a ∨ act.actor = none) ∧ act.unforced

/-- `keys` are the registrations other than `a` that own a key. -/
structure Others (st : AfdKeys) (a : Addr) (keys : List Addr) (target : Addr → Handle) : Prop where
  mem : ∀ b, b ≠ a → (b ∈ keys ↔ st.owned b = true)
  target : ∀ b, b ≠ a → st.target b = target b

/-- One of the keys has the value `handle`. -/
def Taken (keys : List Addr) (target : Addr → Handle) (handle : Handle) : Prop :=
  ∃ b ∈ keys, target b = handle

section

variable {st st' : AfdKeys} {a : Addr} {act : KeyAct} {keys : List Addr} {target : Addr → Handle}

/-- Distinct handles that are all taken are no more than the keys. -/
theorem length_le_keys {handles : List Handle} (hnodup : handles.Nodup)
    (htaken : ∀ handle ∈ handles, Taken keys target handle) : handles.length ≤ keys.length := by
  have hsub : handles ⊆ keys.map target := by
    intro handle hmem
    obtain ⟨b, hb, rfl⟩ := htaken handle hmem
    exact List.mem_map_of_mem hb
  have hle := (hnodup.subperm hsub).length_le
  rwa [List.length_map] at hle

/-- The keys of the others stay as they are. -/
theorem Moved.others (h : Moved st act st') (hact : act.actor = some a ∨ act.actor = none) {b : Addr}
    (hb : b ≠ a) : st'.owned b = st.owned b ∧ st'.target b = st.target b := by
  have hne : ∀ c, act.actor = some c → b ≠ c := by
    intro c hc hbc
    rcases hact with ha | hnone
    · exact hb (hbc.trans (Option.some.inj (hc.symm.trans ha)))
    · rw [hc] at hnone
      cases hnone
  cases h with
  | alloc => exact ⟨Function.update_of_ne (hne _ rfl) _ _, Function.update_of_ne (hne _ rfl) _ _⟩
  | claimBase => exact ⟨Function.update_of_ne (hne _ rfl) _ _, Function.update_of_ne (hne _ rfl) _ _⟩
  | claimDuplicate =>
    exact ⟨Function.update_of_ne (hne _ rfl) _ _, Function.update_of_ne (hne _ rfl) _ _⟩
  | @closeReservation c reservation completing ok => cases completing <;> exact ⟨rfl, rfl⟩
  | @releaseNothing c completing => cases completing <;> exact ⟨rfl, rfl⟩
  | @release c completing st₁ hpc howned hdropped =>
    have hsame := And.intro (hdropped.only.owned b (hne _ rfl)) (hdropped.only.target b (hne _ rfl))
    cases completing <;> exact hsame
  | releaseReserved _ _ hdropped =>
    exact ⟨hdropped.only.owned b (hne _ rfl), hdropped.only.target b (hne _ rfl)⟩
  | _ => exact ⟨rfl, rfl⟩

theorem Others.step (h : st.Others a keys target) (hmoved : Moved st act st')
    (hact : act.actor = some a ∨ act.actor = none) : st'.Others a keys target where
  mem := by
    intro b hb
    rw [(hmoved.others hact hb).1]
    exact h.mem b hb
  target := by
    intro b hb
    rw [(hmoved.others hact hb).2]
    exact h.target b hb

/-- A key that another registration owns is taken. -/
theorem Others.taken (h : st.Others a keys target) (hfree : st.owned a = false) {handle : Handle}
    (hactive : st.Active handle) : Taken keys target handle := by
  obtain ⟨b, howned, htarget⟩ := hactive
  have hb : b ≠ a := by
    intro hb
    rw [hb, hfree] at howned
    cases howned
  exact ⟨b, (h.mem b hb).mpr howned, (h.target b hb).symm.trans htarget⟩

theorem bounded_closing {rest : List Handle} {failed : Bool} {k n : Nat} {active : Handle → Prop}
    (hrest : rest.length ≤ k) (hn : n ≤ k + 1) :
    (closing rest failed).Bounded active k n ∧ (closing rest failed).effort k = rest.length := by
  cases rest with
  | nil => cases failed <;> exact ⟨hn, rfl⟩
  | cons handle rest => exact ⟨⟨hrest, hn⟩, rfl⟩

theorem bounded_outside {pc : KeyPc} {active : Handle → Prop} {k n : Nat}
    (hout : pc.claiming = false) : pc.Bounded active k n ↔ n ≤ k + 1 := by
  cases pc with
  | claim | duplicate | tryDuplicate | keep | closeDuplicate | closeCollisions => cases hout
  | _ => exact Iff.rfl

/-- Outside a claim `a` stays outside, or begins to claim. -/
theorem Moved.outside (h : Moved st act st') (hactor : act.actor = some a)
    (hout : (st.pc a).claiming = false) :
    ((st'.pc a).claiming = false ∧ st'.duplications a = st.duplications a) ∨
      ((∃ base, st'.pc a = .claim base) ∧ st'.duplications a = 0) := by
  have hgoto : ∀ (s : AfdKeys) (pc : KeyPc), pc.claiming = false →
      s.duplications = st.duplications →
      ((s.goto a pc).pc a).claiming = false ∧ (s.goto a pc).duplications a = st.duplications a := by
    intro s pc hpc hn
    have hself : (s.goto a pc).pc a = pc := Function.update_self ..
    rw [hself]
    exact ⟨hpc, congrFun hn a⟩
  have hreleased : ∀ (s : AfdKeys) (completing : Bool), s.duplications = st.duplications →
      ((s.released a completing).pc a).claiming = false ∧
        (s.released a completing).duplications a = st.duplications a := by
    intro s completing hn
    cases completing with
    | true => exact hgoto (s.setStatus a .idle) .idle rfl hn
    | false => exact hgoto s .idle rfl hn
  cases h with
  | alloc => exact .inl ⟨hout, rfl⟩
  | free => exact .inl ⟨hout, rfl⟩
  | @submit c base =>
    cases hactor
    exact .inr ⟨⟨base, Function.update_self ..⟩, Function.update_self ..⟩
  | @closeTarget c reserveSlot ok =>
    cases hactor
    refine .inl (hgoto _ _ ?_ rfl)
    cases reserveSlot <;> cases ok <;> rfl
  | closeEvent =>
    cases hactor
    exact .inl (hgoto _ _ rfl rfl)
  | closeReservation =>
    cases hactor
    exact .inl (hreleased _ _ rfl)
  | @pend c isDuplicate =>
    cases hactor
    refine .inl (hgoto _ _ ?_ rfl)
    cases isDuplicate <;> rfl
  | @settle c isDuplicate =>
    cases hactor
    refine .inl (hgoto _ _ ?_ rfl)
    cases isDuplicate <;> rfl
  | noEvent =>
    cases hactor
    exact .inl (hgoto _ _ rfl rfl)
  | event =>
    cases hactor
    refine .inl (hgoto _ _ ?_ rfl)
    split <;> rfl
  | store =>
    cases hactor
    exact .inl (hgoto _ _ rfl rfl)
  | releaseNothing =>
    cases hactor
    exact .inl (hreleased _ _ rfl)
  | release _ _ hdropped =>
    cases hactor
    exact .inl (hreleased _ _ (by rw [← hdropped.rest]))
  | releaseReserved _ _ hdropped =>
    cases hactor
    exact .inl (hgoto _ _ rfl (by rw [← hdropped.rest]))
  | post => exact .inl ⟨hout, rfl⟩
  | cancel => exact .inl ⟨hout, rfl⟩
  | complete =>
    cases hactor
    exact .inl (hgoto _ _ rfl rfl)
  | claimBase hpc | busyBase hpc | noDuplicate hpc | duplicate hpc | claimDuplicate hpc
  | collide hpc | keep hpc | full hpc | closeDuplicate hpc | closeCollision hpc =>
    cases hactor
    rw [hpc] at hout
    cases hout
  | processOpens => cases hactor
  | processCloses => cases hactor

/-- The duplicates that `a` holds in its loop are distinct. -/
theorem Kept.loop_nodup (h : st.Kept) {handles : List Handle}
    (hheld : (st.pc a).held (st.target a) = handles) : handles.Nodup := by
  have hnodup := h.nodup a
  rw [held, hheld] at hnodup
  exact (List.nodup_append.mp hnodup).1

/-- What one step of `a` inside its claim does. -/
structure Progress (st st' : AfdKeys) (a : Addr) (keys : List Addr) (target : Addr → Handle) :
    Prop where
  bounded : (st'.pc a).Bounded (Taken keys target) keys.length (st'.duplications a)
  effort : (st'.pc a).effort keys.length < (st.pc a).effort keys.length

theorem Progress.goto {pc pc' : KeyPc} {n : Nat} (hpc : st.pc a = pc) (hpc' : st'.pc a = pc')
    (hn : st'.duplications a = n) (hb : pc'.Bounded (Taken keys target) keys.length n)
    (he : pc'.effort keys.length < pc.effort keys.length) : st.Progress st' a keys target where
  bounded := by
    rw [hpc', hn]
    exact hb
  effort := by
    rw [hpc, hpc']
    exact he

/-- The loop is over; the collisions are left to close. -/
theorem Progress.closing {pc : KeyPc} {rest : List Handle} {failed : Bool} (hpc : st.pc a = pc)
    (hpc' : st'.pc a = AfdKeys.closing rest failed) (hrest : rest.length ≤ keys.length)
    (hn : st'.duplications a ≤ keys.length + 1) (he : rest.length < pc.effort keys.length) :
    st.Progress st' a keys target := by
  obtain ⟨hb, heffort⟩ := bounded_closing hrest hn
  exact .goto hpc hpc' rfl hb (heffort ▸ he)

/-- Every step that `a` takes inside its claim brings the claim closer to its end. -/
theorem progress (hinv : st.Inv) (hkept : st.Kept) (hothers : st.Others a keys target)
    (hb : (st.pc a).Bounded (Taken keys target) keys.length (st.duplications a))
    (hmoved : Moved st act st') (hactor : act.actor = some a) (hunforced : act.unforced)
    (hin : (st.pc a).claiming = true) : st.Progress st' a keys target := by
  cases hmoved with
  | @claimBase c base force hpc hnew htable =>
    cases hactor
    rw [hpc] at hb
    refine .goto hpc (Function.update_self ..) rfl ?_ (Nat.succ_pos _)
    exact (bounded_outside rfl).mpr (hb ▸ Nat.zero_le _)
  | @busyBase c base force hpc =>
    cases hactor
    rw [hpc] at hb
    refine .goto hpc (Function.update_self ..) rfl ⟨nofun, hb⟩ ?_
    show 3 * (keys.length - 0) + keys.length + 4 < 4 * keys.length + 5
    omega
  | @noDuplicate c loop hpc =>
    obtain rfl := Option.some.inj hactor
    rw [hpc] at hb
    have hlen := length_le_keys (hkept.loop_nodup (by rw [hpc]; rfl)) hb.1
    refine .closing hpc (Function.update_self ..) hlen ?_ ?_
    · show Function.update st.duplications c (st.duplications c + 1) c ≤ _
      rw [Function.update_self, hb.2]
      exact Nat.succ_le_succ hlen
    · show loop.collisions.length < 3 * (keys.length - loop.collisions.length) + keys.length + 4
      omega
  | @duplicate c loop handle hpc =>
    cases hactor
    rw [hpc] at hb
    exact .goto hpc (Function.update_self ..) (Function.update_self ..)
      ⟨hb.1, congrArg Nat.succ hb.2⟩ (Nat.lt_succ_self _)
  | @claimDuplicate c loop handle hpc hnew htable =>
    obtain rfl := Option.some.inj hactor
    rw [hpc] at hb
    have hnodup : (handle :: loop.collisions).Nodup := hkept.loop_nodup (by rw [hpc]; rfl)
    have hlen := length_le_keys (List.nodup_cons.mp hnodup).2 hb.1
    refine .closing hpc (Function.update_self ..) hlen ?_ ?_
    · show st.duplications c ≤ _
      rw [hb.2]
      exact Nat.succ_le_succ hlen
    · show loop.collisions.length < 3 * (keys.length - loop.collisions.length) + keys.length + 3
      omega
  | @collide c loop handle force hpc hbusy =>
    cases hactor
    rw [hpc] at hb
    have hforce : force = false := by simpa [KeyAct.unforced] using hunforced
    have htaken := hothers.taken (hinv.during hpc nofun).2.1 (hbusy hforce)
    refine .goto hpc (Function.update_self ..) rfl ⟨?_, hb.2⟩ (Nat.lt_succ_self _)
    intro other hmem
    rcases List.mem_cons.mp hmem with rfl | hold
    · exact htaken
    · exact hb.1 other hold
  | @keep c loop handle allocates hpc capacity =>
    obtain rfl := Option.some.inj hactor
    rw [hpc] at hb
    have hlen := length_le_keys (hkept.loop_nodup (by rw [hpc]; rfl)) hb.1
    rw [List.length_cons] at hlen
    refine .goto hpc (Function.update_self ..) rfl ⟨?_, ?_⟩ ?_
    · intro other hmem
      refine hb.1 other ?_
      simpa [or_comm] using hmem
    · show st.duplications c = (loop.collisions ++ [handle]).length
      rw [hb.2, List.length_append]
      rfl
    · show 3 * (keys.length - (loop.collisions ++ [handle]).length) + keys.length + 4 <
        3 * (keys.length - loop.collisions.length) + keys.length + 2
      rw [List.length_append, List.length_singleton]
      omega
  | @full c loop handle allocates hpc =>
    cases hactor
    rw [hpc] at hb
    refine .goto hpc (Function.update_self ..) rfl hb ?_
    show keys.length + 1 < 3 * (keys.length - loop.collisions.length) + keys.length + 2
    omega
  | @closeDuplicate c loop handle ok hpc =>
    obtain rfl := Option.some.inj hactor
    rw [hpc] at hb
    have hlen := length_le_keys (hkept.loop_nodup (by rw [hpc]; rfl)) hb.1
    rw [List.length_cons] at hlen
    have hn : st.duplications c = loop.collisions.length + 1 := hb.2
    refine .closing hpc (Function.update_self ..) (by omega) ?_ ?_
    · show st.duplications c ≤ keys.length + 1
      omega
    · show loop.collisions.length < keys.length + 1
      omega
  | @closeCollision c handle rest failed ok hpc =>
    cases hactor
    rw [hpc] at hb
    obtain ⟨hlen, hn⟩ := hb
    rw [List.length_cons] at hlen
    exact .closing hpc (Function.update_self ..) (by omega) hn (Nat.lt_succ_self _)
  | alloc hfree =>
    cases hactor
    rw [(hinv.dead hfree).1] at hin
    cases hin
  | free hquiet | submit hquiet | post hquiet | cancel hquiet | complete hquiet =>
    cases hactor
    rw [(quiet_iff.mp hquiet).2] at hin
    cases hin
  | closeTarget hpc | closeEvent hpc | closeReservation hpc | pend hpc | settle hpc | noEvent hpc
  | event hpc | store hpc | releaseNothing hpc | release hpc | releaseReserved hpc =>
    cases hactor
    rw [hpc] at hin
    cases hin
  | processOpens => cases hactor
  | processCloses => cases hactor

/-- What holds while `a` runs alone. -/
structure Solo (st : AfdKeys) (a : Addr) (keys : List Addr) (target : Addr → Handle) : Prop where
  inv : st.Inv
  kept : st.Kept
  others : st.Others a keys target
  bounded : (st.pc a).Bounded (Taken keys target) keys.length (st.duplications a)

theorem Solo.duplications_le (h : st.Solo a keys target) : st.duplications a ≤ keys.length + 1 := by
  have hb := h.bounded
  cases hpc : st.pc a with
  | claim base =>
    rw [hpc] at hb
    rw [hb]
    exact Nat.zero_le _
  | duplicate loop =>
    rw [hpc] at hb
    have hlen := length_le_keys (h.kept.loop_nodup (by rw [hpc]; rfl)) hb.1
    have hn : st.duplications a = loop.collisions.length := hb.2
    omega
  | tryDuplicate loop handle =>
    rw [hpc] at hb
    have hnodup : (handle :: loop.collisions).Nodup := h.kept.loop_nodup (by rw [hpc]; rfl)
    have hlen := length_le_keys (List.nodup_cons.mp hnodup).2 hb.1
    have hn : st.duplications a = loop.collisions.length + 1 := hb.2
    omega
  | keep loop handle | closeDuplicate loop handle =>
    rw [hpc] at hb
    have hlen := length_le_keys (h.kept.loop_nodup (by rw [hpc]; rfl)) hb.1
    rw [List.length_cons] at hlen
    have hn : st.duplications a = loop.collisions.length + 1 := hb.2
    omega
  | closeCollisions rest failed =>
    rw [hpc] at hb
    exact hb.2
  | _ =>
    rw [hpc] at hb
    exact (bounded_outside rfl).mp hb

/-- The rest of the process does not touch the loop. -/
theorem Moved.process (h : Moved st act st') (hactor : act.actor = none) :
    st'.pc = st.pc ∧ st'.duplications = st.duplications := by
  cases h with
  | processOpens => exact ⟨rfl, rfl⟩
  | processCloses => exact ⟨rfl, rfl⟩
  | _ => cases hactor

/-- A step of a run of `a` alone; inside its claim, `a` comes closer to the end with each of its
own steps. -/
theorem Solo.step (h : st.Solo a keys target) (halone : Alone a st act)
    (hstep : st.step act = some st') : st'.Solo a keys target ∧
      ((st.pc a).claiming = true → (st'.pc a).effort keys.length +
        (if act.actor = some a then 1 else 0) ≤ (st.pc a).effort keys.length) := by
  obtain ⟨hlawful, hactor, hunforced⟩ := halone
  have hmoved := h.inv.moved hstep
  have hinv := h.inv.step hmoved
  have hkept := h.kept.step h.inv hmoved hlawful
  have hothers := h.others.step hmoved hactor
  rcases hactor with hself | hprocess
  · rw [if_pos hself]
    cases hin : (st.pc a).claiming with
    | true =>
      have hprogress := progress h.inv h.kept h.others h.bounded hmoved hself hunforced hin
      exact ⟨⟨hinv, hkept, hothers, hprogress.bounded⟩, fun _ => hprogress.effort⟩
    | false =>
      refine ⟨⟨hinv, hkept, hothers, ?_⟩, nofun⟩
      rcases hmoved.outside hself hin with ⟨hout, hn⟩ | ⟨⟨base, hpc⟩, hn⟩
      · rw [hn]
        exact (bounded_outside hout).mpr h.duplications_le
      · rw [hpc, hn]
        rfl
  · obtain ⟨hpc, hn⟩ := hmoved.process hprocess
    rw [if_neg (by simp [hprocess]), hpc]
    refine ⟨⟨hinv, hkept, hothers, ?_⟩, fun _ => Nat.le_refl _⟩
    rw [hpc, hn]
    exact h.bounded

/-- A run of `a` alone, all inside its claim. -/
theorem Solo.run (h : st.Solo a keys target) {acts : List KeyAct}
    (halways : Transition.Always AfdKeys.step
      (fun s act => Alone a s act ∧ (s.pc a).claiming = true) st acts)
    (hrun : Transition.run AfdKeys.step st acts = some st') :
    st'.Solo a keys target ∧ (st'.pc a).effort keys.length +
      acts.countP (fun act => act.actor = some a) ≤ (st.pc a).effort keys.length := by
  induction acts generalizing st with
  | nil =>
    cases hrun
    exact ⟨h, Nat.le_refl _⟩
  | cons act acts ih =>
    obtain ⟨mid, hmid, hrest⟩ := Transition.run_cons hrun
    obtain ⟨⟨halone, hin⟩, hlater⟩ := halways
    obtain ⟨hsolo, heffort⟩ := h.step halone hmid
    obtain ⟨hend, hle⟩ := ih hsolo (hlater mid hmid) hrest
    refine ⟨hend, ?_⟩
    have hfirst := heffort hin
    rw [List.countP_cons]
    simp only [decide_eq_true_eq]
    omega

end

end AfdKeys

end WepollEx
