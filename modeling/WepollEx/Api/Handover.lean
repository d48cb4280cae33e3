import WepollEx.Api.Lifetime

/-!
# References, aliases and the party in charge

The steps that change the counters of a shared record, and those by which a closing thread waits
for the references, gives the record up, or goes on to destroy it.
-/

namespace WepollEx.Api

section

variable {st st' : State} {t : Tid} {s : SharedAddr} {r r' : Shared} {pc : Pc}

/-- A call returns at once. -/
theorem Inv.returns (h : Inv st) (idle : st.pc t = .idle) {next : Int}
    (range : 1 ≤ next ∧ next ≤ INT_MAX) (result : Except Errno Int) :
    Inv ({ st with nextFd := next }.ret t result) := by
  have hst : { st with nextFd := next }.ret t result =
      { st with nextFd := next, returned := Function.update st.returned t result } := by
    show State.mk _ _ _ (Function.update st.pc t .idle) _ _ _ _ _ = _
    rw [← idle, Function.update_eq_self]
  rw [hst]
  exact
    { h with
      nextFd := range
      counted := fun s r hr => { h.counted s r hr with }
      inCharge := fun s r hr => { h.inCharge s r hr with }
      ports := { h.ports with } }

/-! ## References -/

/-- An operation takes a reference. -/
theorem Inv.acquire (h : Inv st) (idle : st.pc t = .idle) (before : st.shared s = some r)
    (opened : r.closing = false) :
    Inv ((st.setShared s { r with refs := r.refs + 1 }).goto t (.operating s)) := by
  have hc : Change st ((st.setShared s { r with refs := r.refs + 1 }).goto t (.operating s)) t
      (.operating s) s r { r with refs := r.refs + 1 } :=
    { before := before
      shared := rfl
      moved := rfl
      port := rfl
      nextShared := rfl
      nextPort := rfl
      destroyed := rfl
      names := fun _ _ _ => Iff.rfl
      holds := fun s' hs => by simp [idle, Pc.holds, Ne.symm hs]
      ends := fun s' _ => by simp [idle, Pc.ends, Pc.closes, Pc.destroys, Pc.frees]
      closes := fun s' _ => by simp [idle, Pc.closes]
      frees := by rw [idle]; rfl
      making := by rw [idle]; rfl }
  refine hc.inv h h.table h.nextFd h.noFault ⟨(h.counted s r before).aliases, ?_⟩ ?_
  · obtain ⟨ts, hts, hrefs⟩ := (h.counted s r before).refs
    have hout : t ∉ ts := by
      rw [hts, idle]
      nofun
    refine ⟨insert t ts, fun u => ?_, ?_⟩
    · show u ∈ insert t ts ↔ (Function.update st.pc t (.operating s) u).holds = some s
      rw [Finset.mem_insert, hts]
      by_cases hu : u = t
      · subst hu
        simp [Pc.holds]
      · simp [hu]
    · rw [Finset.card_insert_of_notMem hout, ← hrefs]
  · obtain ⟨hnobody, hdetached⟩ := (h.inCharge s r before).opened opened
    refine .of_open opened hdetached (h.inCharge s r before).closing fun u hu => hnobody u ?_
    refine (update_iff (f := Pc.ends) ?_ u).mp hu
    simp [idle, Pc.ends, Pc.closes, Pc.destroys, Pc.frees]

/-- An operation puts its reference back. -/
theorem Inv.put (h : Inv st) (operating : st.pc t = .operating s) : Inv (st.epfdPut t s) := by
  obtain ⟨r, before⟩ := h.held t s (by rw [operating]; rfl)
  obtain ⟨ts, hts, hrefs⟩ := (h.counted s r before).refs
  have hcharge := h.inCharge s r before
  have hin : t ∈ ts := by
    rw [hts, operating]
    rfl
  have hpos : 0 < r.refs := by
    rw [hrefs]
    exact Finset.card_pos.mpr ⟨t, hin⟩
  have hends : (st.pc t).ends = none := by rw [operating]; rfl
  -- whoever is in charge still waits for this reference
  have hwaits : ∀ u, (st.pc u).ends = some s → (st.pc u).closes = some s := by
    intro u hu
    by_contra hc
    have := hcharge.done u hc hu
    omega
  have hcounted : ∀ pc : Pc, pc.holds = none → ∀ q : Shared, q.aliases = r.aliases →
      q.refs = r.refs - 1 → Counted ((st.setShared s q).goto t pc) s q := by
    intro pc hpc q haliases hq
    obtain ⟨fds, hfds, halias⟩ := (h.counted s r before).aliases
    refine ⟨⟨fds, hfds, haliases.trans halias⟩, ⟨ts.erase t, fun u => ?_, ?_⟩⟩
    · show u ∈ ts.erase t ↔ (Function.update st.pc t pc u).holds = some s
      rw [Finset.mem_erase, hts]
      by_cases hu : u = t
      · subst hu
        simp [hpc]
      · simp [hu]
    · rw [Finset.card_erase_of_mem hin, hq, hrefs]
  have hchange : ∀ pc : Pc, pc.holds = none → pc.closes = none → pc.frees = none →
      pc.making = none → (∀ s', s' ≠ s → pc.ends ≠ some s') → ∀ q : Shared, q.port = r.port →
      Change st ((st.setShared s q).goto t pc) t pc s r q := by
    intro pc hholds hcloses hfrees hmaking hother q hport
    exact
      { before := before
        shared := rfl
        moved := rfl
        port := hport
        nextShared := rfl
        nextPort := rfl
        destroyed := rfl
        names := fun _ _ _ => Iff.rfl
        holds := fun s' hs => by
          rw [hholds, operating]
          exact ⟨nofun, fun hc => absurd (Option.some.inj hc).symm hs⟩
        ends := fun s' hs => by
          rw [hends]
          exact ⟨fun hc => absurd hc (hother s' hs), nofun⟩
        closes := fun s' _ => by
          rw [hcloses, operating]
          rfl
        frees := by rw [operating, hfrees]; rfl
        making := by rw [operating, hmaking]; rfl }
  have hnone : ∀ s', s' ≠ s → Pc.idle.ends ≠ some s' := fun _ _ => nofun
  have hsame : ∀ u, (Function.update st.pc t .idle u).ends = some s ↔ (st.pc u).ends = some s :=
    update_iff (by rw [hends]; exact ⟨nofun, nofun⟩)
  have hsameCloses : ∀ u, (Function.update st.pc t .idle u).closes = some s ↔
      (st.pc u).closes = some s :=
    update_iff (by rw [operating]; exact ⟨nofun, nofun⟩)
  unfold State.epfdPut State.withShared
  rw [before]
  simp only [if_pos hpos]
  split
  case isTrue hlast =>
    split
    case isTrue hdet =>
      refine (hchange (.destroying s true) rfl rfl rfl rfl ?_
        { r with refs := r.refs - 1 } rfl).inv h h.table h.nextFd h.noFault
        (hcounted (.destroying s true) rfl _ rfl rfl) ?_
      · intro s' hs hc
        exact hs (Option.some.inj hc).symm
      · -- nobody was in charge, and now this thread is
        have hself : ∀ u, (Function.update st.pc t (.destroying s true) u).ends = some s → u = t := by
          intro u hu
          by_contra hne
          rw [Function.update_of_ne hne] at hu
          have := hcharge.closes u (hwaits u hu)
          rw [hdet] at this
          cases this
        have hends' : (Function.update st.pc t (.destroying s true) t).ends = some s := by
          rw [Function.update_self]
          rfl
        exact
          { closing := hcharge.closing
            ends := fun _ _ => hlast.1
            unique := fun u v hu hv => (hself u hu).trans (hself v hv).symm
            closes := fun u hu => by
              have hu : (Function.update st.pc t (.destroying s true) u).closes = some s := hu
              by_cases hne : u = t
              · rw [hne, Function.update_self] at hu
                cases hu
              · rw [Function.update_of_ne hne] at hu
                exact hcharge.closes u hu
            done := fun _ _ _ => hlast.2
            detached := fun _ => ⟨hlast.1, .inr ⟨t, hends'⟩⟩
            someone := fun _ => .inl hdet }
    case isFalse hdet =>
      refine (hchange .idle rfl rfl rfl rfl hnone
        { r with refs := r.refs - 1, refsDrained := true } rfl).inv h h.table h.nextFd h.noFault
        (hcounted .idle rfl _ rfl rfl) ?_
      exact
        { closing := hcharge.closing
          ends := fun u hu => hcharge.ends u ((hsame u).mp hu)
          unique := fun u v hu hv => hcharge.unique u v ((hsame u).mp hu) ((hsame v).mp hv)
          closes := fun u hu => hcharge.closes u ((hsameCloses u).mp hu)
          done := fun _ _ _ => hlast.2
          detached := fun hd => absurd hd hdet
          someone := fun hcl => (hcharge.someone hcl).imp id fun ⟨u, hu⟩ => ⟨u, (hsame u).mpr hu⟩ }
  case isFalse hlast =>
    refine (hchange .idle rfl rfl rfl rfl hnone { r with refs := r.refs - 1 } rfl).inv h h.table
      h.nextFd h.noFault (hcounted .idle rfl _ rfl rfl) ?_
    exact
      { closing := hcharge.closing
        ends := fun u hu => hcharge.ends u ((hsame u).mp hu)
        unique := fun u v hu hv => hcharge.unique u v ((hsame u).mp hu) ((hsame v).mp hv)
        closes := fun u hu => hcharge.closes u ((hsameCloses u).mp hu)
        done := fun u hc hu => by
          have hu := (hsame u).mp hu
          exact absurd ((hsameCloses u).mpr (hwaits u hu)) hc
        detached := fun hd => by
          have hcl := (hcharge.detached hd).1
          refine ⟨hcl, .inl ?_⟩
          show 0 < r.refs - 1
          have : ¬r.refs - 1 = 0 := fun h0 => hlast ⟨hcl, h0⟩
          omega
        someone := fun hcl => (hcharge.someone hcl).imp id fun ⟨u, hu⟩ => ⟨u, (hsame u).mpr hu⟩ }

/-! ## Aliases -/

/-- A second name for an open record. -/
theorem Inv.duplicate (h : Inv st) (idle : st.pc t = .idle) (before : st.shared s = some r)
    (opened : r.closing = false) {fd next : Int} (free : st.buckets.epfdFindLocked fd = none)
    (pos : 0 < fd) (max : fd ≤ INT_MAX) (range : 1 ≤ next ∧ next ≤ INT_MAX)
    (result : Except Errno Int) :
    Inv (({ st with
      nextFd := next
      buckets := st.buckets.epfdInsertLocked ⟨fd, s⟩ }.setShared s
        { r with aliases := r.aliases + 1 }).ret t result) := by
  have hfind := h.table.find_insert (s := s) free pos max
  have hnames : ∀ fd' s', (st.buckets.epfdInsertLocked ⟨fd, s⟩).epfdFindLocked fd' =
      some ⟨fd', s'⟩ ↔ (fd' = fd ∧ s' = s) ∨ st.Names fd' s' := by
    intro fd' s'
    rw [hfind fd']
    split
    case isTrue heq =>
      subst heq
      unfold State.Names
      rw [free]
      simp [eq_comm]
    case isFalse hne => simp [hne, State.Names]
  have hidle : ∀ u, Function.update st.pc t .idle u = st.pc u :=
    congrFun (by rw [← idle, Function.update_eq_self])
  obtain ⟨hnobody, hdetached⟩ := (h.inCharge s r before).opened opened
  obtain ⟨fds, hfds, halias⟩ := (h.counted s r before).aliases
  have hout : fd ∉ fds := by
    rw [hfds]
    unfold State.Names
    rw [free]
    nofun
  have hc : Change st (({ st with
      nextFd := next
      buckets := st.buckets.epfdInsertLocked ⟨fd, s⟩ }.setShared s
        { r with aliases := r.aliases + 1 }).ret t result) t .idle s r
      { r with aliases := r.aliases + 1 } :=
    { before := before
      shared := rfl
      moved := rfl
      port := rfl
      nextShared := rfl
      nextPort := rfl
      destroyed := rfl
      names := fun fd' s' hs => (hnames fd' s').trans (or_iff_right fun hc => hs hc.2)
      holds := fun s' _ => by rw [idle]
      ends := fun s' _ => by rw [idle]
      closes := fun s' _ => by rw [idle]
      frees := by rw [idle]
      making := by rw [idle] }
  refine hc.inv h (h.table.insert free pos max) range h.noFault
    ⟨⟨insert fd fds, fun fd' => ?_, ?_⟩, ?_⟩ ?_
  · rw [Finset.mem_insert, hfds]
    exact ((hnames fd' s).trans (by simp)).symm
  · rw [Finset.card_insert_of_notMem hout, ← halias]
  · obtain ⟨ts, hts, hrefs⟩ := (h.counted s r before).refs
    refine ⟨ts, fun u => ?_, hrefs⟩
    show u ∈ ts ↔ (Function.update st.pc t .idle u).holds = some s
    rw [hidle u]
    exact hts u
  · refine .of_open opened hdetached ?_ fun u hu => hnobody u ?_
    · rw [opened]
      exact ⟨nofun, nofun⟩
    · rw [← hidle u]
      exact hu

/-- An alias is closed; the last one puts its thread in charge. -/
theorem Inv.close (h : Inv st) (idle : st.pc t = .idle) {fd : Int} {e : Entry}
    (found : st.buckets.epfdFindLocked fd = some e) (before : st.shared e.shared = some r)
    (opened : r.closing = false) {aliases : Nat} (count : aliases + 1 = r.aliases) (pc : Pc)
    (final : aliases = 0 → pc = .beginClose e.shared) (others : aliases ≠ 0 → pc = .idle) :
    Inv (({ st with
      buckets := st.buckets.epfdUnlinkLocked e
      fault := st.fault || r.aliases == 0 }.setShared e.shared
        { r with aliases := aliases, closing := aliases == 0 }).goto t pc) := by
  have hfind := h.table.find_unlink found
  have hfd := h.table.find_fd found
  have hnames : ∀ fd' s', (st.buckets.epfdUnlinkLocked e).epfdFindLocked fd' =
      some ⟨fd', s'⟩ ↔ fd' ≠ fd ∧ st.Names fd' s' := by
    intro fd' s'
    rw [hfind fd']
    split
    case isTrue heq => simp [heq]
    case isFalse hne => simp [hne, State.Names]
  have hself : ∀ s', s' ≠ e.shared → ¬st.Names fd s' := by
    intro s' hs hname
    have := Option.some.inj (hname.symm.trans found)
    exact hs (congrArg Entry.shared this)
  obtain ⟨hnobody, hdetached⟩ := (h.inCharge _ r before).opened opened
  obtain ⟨fds, hfds, halias⟩ := (h.counted _ r before).aliases
  have hin : fd ∈ fds := by
    rw [hfds]
    unfold State.Names
    rw [found, ← hfd]
  have hpc : pc.holds = none ∧ pc.frees = none ∧ pc.making = none ∧
      ∀ s', s' ≠ e.shared → pc.ends ≠ some s' ∧ pc.closes ≠ some s' := by
    by_cases hzero : aliases = 0
    · rw [final hzero]
      exact ⟨rfl, rfl, rfl, fun s' hs =>
        ⟨fun hc => hs (Option.some.inj hc).symm, fun hc => hs (Option.some.inj hc).symm⟩⟩
    · rw [others hzero]
      exact ⟨rfl, rfl, rfl, fun _ _ => ⟨nofun, nofun⟩⟩
  obtain ⟨hholds, hfrees, hmaking, hother⟩ := hpc
  have hc : Change st (({ st with
      buckets := st.buckets.epfdUnlinkLocked e
      fault := st.fault || r.aliases == 0 }.setShared e.shared
        { r with aliases := aliases, closing := aliases == 0 }).goto t pc) t pc e.shared r
      { r with aliases := aliases, closing := aliases == 0 } :=
    { before := before
      shared := rfl
      moved := rfl
      port := rfl
      nextShared := rfl
      nextPort := rfl
      destroyed := rfl
      names := fun fd' s' hs => (hnames fd' s').trans (and_iff_right_of_imp fun hname heq =>
        hself s' hs (heq ▸ hname))
      holds := fun s' _ => by
        rw [idle, hholds]
        exact ⟨nofun, nofun⟩
      ends := fun s' hs => by
        rw [idle]
        exact ⟨fun hc => absurd hc (hother s' hs).1, nofun⟩
      closes := fun s' hs => by
        rw [idle]
        exact ⟨fun hc => absurd hc (hother s' hs).2, nofun⟩
      frees := by rw [idle, hfrees]; rfl
      making := by rw [idle, hmaking]; rfl }
  refine hc.inv h (h.table.unlink e) h.nextFd ?_ ⟨⟨fds.erase fd, fun fd' => ?_, ?_⟩, ?_⟩ ?_
  · show (st.fault || r.aliases == 0) = false
    rw [h.noFault, ← count]
    rfl
  · rw [Finset.mem_erase, hfds]
    exact (hnames fd' e.shared).symm
  · rw [Finset.card_erase_of_mem hin, ← halias, ← count]
    rfl
  · obtain ⟨ts, hts, hrefs⟩ := (h.counted _ r before).refs
    refine ⟨ts, fun u => ?_, hrefs⟩
    rw [hts]
    refine (update_iff (f := Pc.holds) ?_ u).symm
    rw [hholds, idle]
    exact ⟨nofun, nofun⟩
  · by_cases hzero : aliases = 0
    · subst hzero
      obtain rfl := final rfl
      have honly : ∀ u, (Function.update st.pc t (.beginClose e.shared) u).ends = some e.shared →
          u = t := by
        intro u hu
        by_contra hne
        rw [Function.update_of_ne hne] at hu
        exact hnobody u hu
      have hclosing : ∀ u, u = t →
          (Function.update st.pc t (.beginClose e.shared) u).closes = some e.shared := by
        rintro u rfl
        rw [Function.update_self]
        rfl
      exact
        { closing := ⟨fun _ => rfl, fun _ => rfl⟩
          ends := fun _ _ => rfl
          unique := fun u v hu hv => (honly u hu).trans (honly v hv).symm
          closes := fun _ _ => hdetached
          done := fun u hclose hend => absurd (hclosing u (honly u hend)) hclose
          detached := by
            show r.detached = true → _
            rw [hdetached]
            nofun
          someone := fun _ => .inr ⟨t, by
            show (Function.update st.pc t (.beginClose e.shared) t).ends = some e.shared
            rw [Function.update_self]
            rfl⟩ }
    · obtain rfl := others hzero
      refine .of_open (by simp [hzero]) hdetached (by simp) fun u hu => hnobody u ?_
      refine (update_iff (f := Pc.ends) ?_ u).mp hu
      rw [idle]

/-! ## The party in charge -/

theorem Pc.of_closes {pc : Pc} (h : pc.closes = some s) :
    pc.holds = none ∧ pc.ends = some s ∧ pc.frees = none ∧ pc.making = none := by
  cases pc <;> first | exact ⟨rfl, h, rfl, rfl⟩ | cases h

theorem Pc.ends_of_frees {pc : Pc} (h : pc.frees = some s) : pc.ends = some s := by
  cases pc <;> first | exact h | cases h

/-- The closing thread goes on, and destroys the port only when no reference is left. -/
theorem Inv.closerMoves (h : Inv st) (closes : (st.pc t).closes = some s)
    (before : st.shared s = some r) (holds : pc.holds = none) (ends : pc.ends = some s)
    (frees : pc.frees = none) (making : pc.making = none)
    (done : pc.closes = some s ∨ (pc.closes = none ∧ r.refs = 0)) : Inv (st.goto t pc) := by
  obtain ⟨hholds, hends, hfrees, hmaking⟩ := Pc.of_closes closes
  have hcharge := h.inCharge s r before
  have hother : ∀ s', s' ≠ s → some s ≠ some s' := fun s' hs hc => hs (Option.some.inj hc).symm
  have hc : Change st (st.goto t pc) t pc s r r :=
    { before := before
      shared := by
        rw [← before, Function.update_eq_self]
        rfl
      moved := rfl
      port := rfl
      nextShared := rfl
      nextPort := rfl
      destroyed := rfl
      names := fun _ _ _ => Iff.rfl
      holds := fun s' _ => by rw [holds, hholds]
      ends := fun s' _ => by rw [ends, hends]
      closes := fun s' hs => by
        rw [closes]
        refine ⟨fun hc => ?_, fun hc => absurd hc (hother s' hs)⟩
        rcases done with hd | ⟨hd, _⟩
        · exact absurd (hd.symm.trans hc) (hother s' hs)
        · rw [hd] at hc
          cases hc
      frees := frees.trans hfrees.symm
      making := making.trans hmaking.symm }
  have hsame : ∀ u, (Function.update st.pc t pc u).ends = some s ↔ (st.pc u).ends = some s :=
    update_iff (by rw [ends, hends])
  refine hc.inv h h.table h.nextFd h.noFault ?_
    { closing := hcharge.closing
      ends := fun u hu => hcharge.ends u ((hsame u).mp hu)
      unique := fun u v hu hv => hcharge.unique u v ((hsame u).mp hu) ((hsame v).mp hv)
      closes := fun _ _ => hcharge.closes t closes
      done := fun u hclose hend => ?_
      detached := fun hd => (hcharge.detached hd).imp id fun hor =>
        hor.imp id fun ⟨u, hu⟩ => ⟨u, (hsame u).mpr hu⟩
      someone := fun hcl => (hcharge.someone hcl).imp id fun ⟨u, hu⟩ => ⟨u, (hsame u).mpr hu⟩ }
  · refine (h.counted s r before).congr (fun _ => Iff.rfl) (update_iff ?_) rfl rfl
    rw [holds, hholds]
  · obtain rfl : u = t := hcharge.unique u t ((hsame u).mp hend) hends
    have hclose : (Function.update st.pc u pc u).closes ≠ some s := hclose
    rw [Function.update_self] at hclose
    rcases done with hd | ⟨_, hd⟩
    · exact absurd hd hclose
    · exact hd

/-- The closing thread gives up and leaves the record to the last operation. -/
theorem Inv.detach (h : Inv st) (closes : (st.pc t).closes = some s)
    (before : st.shared s = some r) (busy : r.refs ≠ 0) :
    Inv ((st.setShared s { r with detached := true }).goto t .idle) := by
  obtain ⟨hholds, hends, hfrees, hmaking⟩ := Pc.of_closes closes
  have hcharge := h.inCharge s r before
  have hother : ∀ s', s' ≠ s → some s ≠ some s' := fun s' hs hc => hs (Option.some.inj hc).symm
  have hc : Change st ((st.setShared s { r with detached := true }).goto t .idle) t .idle s r
      { r with detached := true } :=
    { before := before
      shared := rfl
      moved := rfl
      port := rfl
      nextShared := rfl
      nextPort := rfl
      destroyed := rfl
      names := fun _ _ _ => Iff.rfl
      holds := fun s' _ => by rw [hholds]; exact Iff.rfl
      ends := fun s' hs => by
        rw [hends]
        exact ⟨nofun, fun hc => absurd hc (hother s' hs)⟩
      closes := fun s' hs => by
        rw [closes]
        exact ⟨nofun, fun hc => absurd hc (hother s' hs)⟩
      frees := hfrees.symm
      making := hmaking.symm }
  have hnobody : ∀ u, (Function.update st.pc t .idle u).ends ≠ some s := by
    intro u hu
    by_cases hne : u = t
    · rw [hne, Function.update_self] at hu
      cases hu
    · rw [Function.update_of_ne hne] at hu
      exact hne (hcharge.unique u t hu hends)
  refine hc.inv h h.table h.nextFd h.noFault ?_
    { closing := hcharge.closing
      ends := fun u hu => absurd hu (hnobody u)
      unique := fun u _ hu => absurd hu (hnobody u)
      closes := fun u hu => absurd (Pc.of_closes hu).2.1 (hnobody u)
      done := fun u _ hu => absurd hu (hnobody u)
      detached := fun _ => ⟨hcharge.ends t hends, .inl (Nat.pos_of_ne_zero busy)⟩
      someone := fun _ => .inl rfl }
  refine (h.counted s r before).congr (fun _ => Iff.rfl) (update_iff ?_) rfl rfl
  show Pc.idle.holds = some s ↔ (st.pc t).holds = some s
  rw [hholds]
  exact Iff.rfl

end

end WepollEx.Api
