import WepollEx.Api.Handover

/-!
# Creation and destruction of ports

The steps that create a port, publish it in the table, destroy it and free its record, and from
them what holds in every state the descriptor table reaches.
-/

namespace WepollEx.Api

section

variable {st st' : State} {t : Tid} {s : SharedAddr} {r r' : Shared} {pc : Pc}

/-! ## Ports -/

/-- A thread moves on; the records stay as they are. -/
theorem Inv.of_ports (h : Inv st) (buckets : st'.buckets = st.buckets)
    (nextFd : 1 ≤ st'.nextFd ∧ st'.nextFd ≤ INT_MAX) (fault : st'.fault = st.fault)
    (shared : st'.shared = st.shared) (moved : st'.pc = Function.update st.pc t pc)
    (holds : pc.holds = (st.pc t).holds) (ends : pc.ends = (st.pc t).ends)
    (closes : pc.closes = (st.pc t).closes) (ports : Ports st') : Inv st' := by
  have hnames : ∀ fd s, st'.Names fd s ↔ st.Names fd s := by
    intro fd s
    unfold State.Names
    rw [buckets]
  have hholds : ∀ s u, (st'.pc u).holds = some s ↔ (st.pc u).holds = some s := by
    intro s u
    rw [moved]
    exact update_iff (by rw [holds]) u
  have hends : ∀ s u, (st'.pc u).ends = some s ↔ (st.pc u).ends = some s := by
    intro s u
    rw [moved]
    exact update_iff (by rw [ends]) u
  have hcloses : ∀ s u, (st'.pc u).closes = some s ↔ (st.pc u).closes = some s := by
    intro s u
    rw [moved]
    exact update_iff (by rw [closes]) u
  exact
    { table := by rw [buckets]; exact h.table
      nextFd := nextFd
      noFault := fault.trans h.noFault
      named := fun fd s hname => by rw [shared]; exact h.named fd s ((hnames fd s).mp hname)
      held := fun u s hu => by rw [shared]; exact h.held u s ((hholds s u).mp hu)
      ended := fun u s hu => by rw [shared]; exact h.ended u s ((hends s u).mp hu)
      counted := fun s r hr => by
        rw [shared] at hr
        exact (h.counted s r hr).congr (fun fd => hnames fd s) (hholds s) rfl rfl
      inCharge := fun s r hr => by
        rw [shared] at hr
        exact (h.inCharge s r hr).congr (hends s) (hcloses s) rfl rfl rfl rfl
      ports := ports }

/-- A new port. -/
theorem Inv.create (h : Inv st) (idle : st.pc t = .idle) : Inv (st.create t) := by
  have hports := h.ports
  have hpc : ∀ u, u ≠ t → Function.update st.pc t (.created st.nextPort) u = st.pc u :=
    fun u hu => Function.update_of_ne hu ..
  have hfrees : ∀ s u, (Function.update st.pc t (.created st.nextPort) u).frees = some s ↔
      (st.pc u).frees = some s := fun s => update_iff (by rw [idle]; exact Iff.rfl)
  have hmaking : ∀ u p, (Function.update st.pc t (.created st.nextPort) u).making = some p →
      (u = t ∧ p = st.nextPort) ∨ (u ≠ t ∧ (st.pc u).making = some p) := by
    intro u p hu
    by_cases hut : u = t
    · rw [hut, Function.update_self] at hu
      exact .inl ⟨hut, (Option.some.inj hu).symm⟩
    · rw [hpc u hut] at hu
      exact .inr ⟨hut, hu⟩
  refine h.of_ports rfl h.nextFd rfl rfl rfl (by rw [idle]; rfl) (by rw [idle]; rfl) (by rw [idle]; rfl)
    { unique := hports.unique
      making := fun u p hu => ?_
      bound := fun s r hr => ?_
      alive := fun s r hr hfree => hports.alive s r hr fun u hu => hfree u ((hfrees s u).mpr hu)
      destroyed := fun s r u hr hu => hports.destroyed s r u hr ((hfrees s u).mp hu)
      gone := fun p hp => ?_
      future := fun p hp => hports.future p (Nat.le_of_succ_le hp) }
  · rcases hmaking u p hu with ⟨rfl, rfl⟩ | ⟨hut, hold⟩
    · refine ⟨Nat.lt_succ_self _, hports.future _ (Nat.le_refl _), fun s r hr hport => ?_,
        fun v hv => ?_⟩
      · have := (hports.bound s r hr).2
        rw [hport] at this
        exact Nat.lt_irrefl _ this
      · rcases hmaking v st.nextPort hv with ⟨hvt, _⟩ | ⟨_, hother⟩
        · exact hvt
        · exact absurd (hports.making v st.nextPort hother).1 (Nat.lt_irrefl _)
    · obtain ⟨hlt, hzero, hother, huniq⟩ := hports.making u p hold
      refine ⟨Nat.lt_succ_of_lt hlt, hzero, hother, fun v hv => ?_⟩
      rcases hmaking v p hv with ⟨_, rfl⟩ | ⟨_, hv⟩
      · exact absurd hlt (Nat.lt_irrefl _)
      · exact huniq v hv
  · obtain ⟨hs, hp⟩ := hports.bound s r hr
    exact ⟨hs, Nat.lt_succ_of_lt hp⟩
  · rcases Nat.lt_succ_iff_lt_or_eq.mp hp with hlt | rfl
    · rcases hports.gone p hlt with hs | ⟨u, hu⟩ | hdone
      · exact .inl hs
      · have hut : u ≠ t := by
          rintro rfl
          rw [idle] at hu
          cases hu
        exact .inr (.inl ⟨u, by rw [← hu]; exact congrArg Pc.making (hpc u hut)⟩)
      · exact .inr (.inr hdone)
    · refine .inr (.inl ⟨t, ?_⟩)
      show (Function.update st.pc t (.created st.nextPort) t).making = _
      rw [Function.update_self]
      rfl

/-- A port that never got into the table is destroyed. -/
theorem Inv.discard (h : Inv st) {p : PortId} {e : Errno} (failed : st.pc t = .createFailed p e) :
    Inv ((st.destroyPort p).goto t .idle) := by
  have hports := h.ports
  obtain ⟨hlt, hzero, hother, huniq⟩ := hports.making t p (by rw [failed]; rfl)
  have hfrees : ∀ s u, (Function.update st.pc t .idle u).frees = some s ↔
      (st.pc u).frees = some s := fun s => update_iff (by rw [failed]; exact Iff.rfl)
  have hmaking : ∀ u q, (Function.update st.pc t .idle u).making = some q →
      u ≠ t ∧ (st.pc u).making = some q := by
    intro u q hu
    by_cases hut : u = t
    · rw [hut, Function.update_self] at hu
      cases hu
    · rw [Function.update_of_ne hut] at hu
      exact ⟨hut, hu⟩
  have hcount : ∀ q, q ≠ p → Function.update st.destroyed p (st.destroyed p + 1) q =
      st.destroyed q := fun q hq => Function.update_of_ne hq ..
  refine h.of_ports rfl h.nextFd rfl rfl rfl (by rw [failed]; rfl) (by rw [failed]; rfl)
    (by rw [failed]; rfl)
    { unique := hports.unique
      making := fun u q hu => ?_
      bound := hports.bound
      alive := fun s r hr hfree => ?_
      destroyed := fun s r u hr hu => ?_
      gone := fun q hq => ?_
      future := fun q hq => ?_ }
  · obtain ⟨hut, hold⟩ := hmaking u q hu
    obtain ⟨hltq, hzeroq, hotherq, huniqq⟩ := hports.making u q hold
    have hqp : q ≠ p := by
      rintro rfl
      exact hut (huniq u hold)
    exact ⟨hltq, (hcount q hqp).trans hzeroq, hotherq, fun v hv => huniqq v (hmaking v q hv).2⟩
  · refine (hcount _ (hother s r hr)).trans (hports.alive s r hr fun u hu => ?_)
    exact hfree u ((hfrees s u).mpr hu)
  · exact (hcount _ (hother s r hr)).trans (hports.destroyed s r u hr ((hfrees s u).mp hu))
  · by_cases hqp : q = p
    · refine .inr (.inr ?_)
      show Function.update st.destroyed p (st.destroyed p + 1) q = 1
      rw [hqp, Function.update_self, hzero]
    · rcases hports.gone q hq with hs | ⟨u, hu⟩ | hdone
      · exact .inl hs
      · have hut : u ≠ t := by
          rintro rfl
          rw [failed] at hu
          exact hqp (Option.some.inj hu).symm
        refine .inr (.inl ⟨u, ?_⟩)
        show (Function.update st.pc t .idle u).making = some q
        rw [Function.update_of_ne hut]
        exact hu
      · exact .inr (.inr ((hcount q hqp).trans hdone))
  · refine (hcount q ?_).trans (hports.future q hq)
    rintro rfl
    exact absurd hlt (Nat.not_lt.mpr hq)

/-- The port of a record is destroyed. -/
theorem Inv.destroy (h : Inv st) {deferred : Bool} (pcEq : st.pc t = .destroying s deferred)
    (before : st.shared s = some r) (result : Option Errno) :
    Inv ((st.destroyPort r.port).goto t (.freeing s deferred result)) := by
  have hports := h.ports
  have hcharge := h.inCharge s r before
  have hends : (st.pc t).ends = some s := by rw [pcEq]; rfl
  have hnone : ∀ u, (st.pc u).frees ≠ some s := by
    intro u hu
    obtain rfl := hcharge.unique u t (Pc.ends_of_frees hu) hends
    rw [pcEq] at hu
    cases hu
  have hzero : st.destroyed r.port = 0 := hports.alive s r before hnone
  have hfrees : ∀ s' u, (Function.update st.pc t (.freeing s deferred result) u).frees = some s' ↔
      (s' = s ∧ u = t) ∨ (s' ≠ s ∧ (st.pc u).frees = some s') := by
    intro s' u
    by_cases hut : u = t
    · subst hut
      rw [Function.update_self, pcEq]
      simp [Pc.frees, eq_comm]
    · rw [Function.update_of_ne hut]
      refine ⟨fun hu => .inr ⟨?_, hu⟩, ?_⟩
      · rintro rfl
        exact hnone u hu
      · rintro (⟨_, hu⟩ | ⟨_, hu⟩)
        · exact absurd hu hut
        · exact hu
  have hmaking : ∀ p u, (Function.update st.pc t (.freeing s deferred result) u).making = some p ↔
      (st.pc u).making = some p := fun p => update_iff (by rw [pcEq]; exact Iff.rfl)
  have hcount : ∀ q, q ≠ r.port →
      Function.update st.destroyed r.port (st.destroyed r.port + 1) q = st.destroyed q :=
    fun q hq => Function.update_of_ne hq ..
  refine h.of_ports rfl h.nextFd rfl rfl rfl (by rw [pcEq]; rfl) (by rw [pcEq]; rfl) (by rw [pcEq]; rfl)
    { unique := hports.unique
      making := fun u q hu => ?_
      bound := hports.bound
      alive := fun s' r' hr' hfree => ?_
      destroyed := fun s' r' u hr' hu => ?_
      gone := fun q hq => ?_
      future := fun q hq => ?_ }
  · obtain ⟨hlt, hz, hother, huniq⟩ := hports.making u q ((hmaking q u).mp hu)
    exact ⟨hlt, (hcount q (hother s r before).symm).trans hz, hother,
      fun v hv => huniq v ((hmaking q v).mp hv)⟩
  · have hne : s' ≠ s := by
      rintro rfl
      exact hfree t ((hfrees s' t).mpr (.inl ⟨rfl, rfl⟩))
    refine (hcount _ fun hp => hne (hports.unique s' s r' r hr' before hp)).trans ?_
    exact hports.alive s' r' hr' fun u hu => hfree u ((hfrees s' u).mpr (.inr ⟨hne, hu⟩))
  · rcases (hfrees s' u).mp hu with ⟨rfl, rfl⟩ | ⟨hne, hold⟩
    · obtain rfl := Option.some.inj (hr'.symm.trans before)
      show Function.update st.destroyed r'.port (st.destroyed r'.port + 1) r'.port = 1
      rw [Function.update_self, hzero]
    · refine (hcount _ fun hp => hne (hports.unique s' s r' r hr' before hp)).trans ?_
      exact hports.destroyed s' r' u hr' hold
  · rcases hports.gone q hq with hs | ⟨u, hu⟩ | hdone
    · exact .inl hs
    · exact .inr (.inl ⟨u, (hmaking q u).mpr hu⟩)
    · refine .inr (.inr ((hcount q ?_).trans hdone))
      rintro rfl
      rw [hzero] at hdone
      cases hdone
  · refine (hcount q ?_).trans (hports.future q hq)
    rintro rfl
    exact absurd (hports.bound s r before).2 (Nat.not_lt.mpr hq)

/-- A new record with its first alias. -/
theorem Inv.publish (h : Inv st) {p : PortId} (created : st.pc t = .created p) {fd next : Int}
    (free : st.buckets.epfdFindLocked fd = none) (pos : 0 < fd) (max : fd ≤ INT_MAX)
    (range : 1 ≤ next ∧ next ≤ INT_MAX) :
    Inv (({ st with
      nextFd := next
      nextShared := st.nextShared + 1
      buckets := st.buckets.epfdInsertLocked ⟨fd, st.nextShared⟩ }.setShared st.nextShared
        ⟨p, 0, 1, false, false, false⟩).goto t .idle) := by
  have hports := h.ports
  obtain ⟨hlt, hzero, hother, huniq⟩ := hports.making t p (by rw [created]; rfl)
  have hnew : st.shared st.nextShared = none := by
    cases hs : st.shared st.nextShared with
    | none => rfl
    | some r => exact absurd (hports.bound _ r hs).1 (Nat.lt_irrefl _)
  have hfresh : ∀ s' r, st.shared s' = some r → s' ≠ st.nextShared := by
    rintro s' r hr rfl
    rw [hnew] at hr
    cases hr
  have hold : ∀ s' r, Function.update st.shared st.nextShared
      (some ⟨p, 0, 1, false, false, false⟩) s' = some r →
      (s' = st.nextShared ∧ r = ⟨p, 0, 1, false, false, false⟩) ∨
        (s' ≠ st.nextShared ∧ st.shared s' = some r) := by
    intro s' r hr
    by_cases hs : s' = st.nextShared
    · rw [hs, Function.update_self] at hr
      exact .inl ⟨hs, (Option.some.inj hr).symm⟩
    · rw [Function.update_of_ne hs] at hr
      exact .inr ⟨hs, hr⟩
  have hkept : ∀ s' r, st.shared s' = some r → Function.update st.shared st.nextShared
      (some ⟨p, 0, 1, false, false, false⟩) s' = some r :=
    fun s' r hr => (Function.update_of_ne (hfresh s' r hr) ..).trans hr
  have hnames : ∀ fd' s', (st.buckets.epfdInsertLocked ⟨fd, st.nextShared⟩).epfdFindLocked fd' =
      some ⟨fd', s'⟩ ↔ (fd' = fd ∧ s' = st.nextShared) ∨ st.Names fd' s' := by
    intro fd' s'
    rw [h.table.find_insert free pos max fd']
    split
    case isTrue heq =>
      subst heq
      unfold State.Names
      rw [free]
      simp [eq_comm]
    case isFalse hne => simp [hne, State.Names]
  have hpc : ∀ {β : Type} (f : Pc → Option β) (x : β), f .idle = none → f (.created p) = none →
      ∀ u, f (Function.update st.pc t .idle u) = some x ↔ f (st.pc u) = some x := by
    intro β f x hidle hcreated
    refine update_iff ?_
    rw [created, hidle, hcreated]
  have hmaking : ∀ u q, (Function.update st.pc t .idle u).making = some q →
      u ≠ t ∧ (st.pc u).making = some q := by
    intro u q hu
    by_cases hut : u = t
    · rw [hut, Function.update_self] at hu
      cases hu
    · rw [Function.update_of_ne hut] at hu
      exact ⟨hut, hu⟩
  refine
    { table := h.table.insert free pos max
      nextFd := range
      noFault := h.noFault
      named := fun fd' s' hname => ?_
      held := fun u s' hu => ?_
      ended := fun u s' hu => ?_
      counted := fun s' r hr => ?_
      inCharge := fun s' r hr => ?_
      ports :=
        { unique := fun s₁ s₂ r₁ r₂ h₁ h₂ hport => ?_
          making := fun u q hu => ?_
          bound := fun s' r hr => ?_
          alive := fun s' r hr hfree => ?_
          destroyed := fun s' r u hr hu => ?_
          gone := fun q hq => ?_
          future := hports.future } }
  · rcases (hnames fd' s').mp hname with ⟨_, rfl⟩ | hname
    · exact ⟨_, Function.update_self ..⟩
    · exact (h.named fd' s' hname).imp fun r hr => hkept s' r hr
  · obtain ⟨r, hr⟩ := h.held u s' ((hpc Pc.holds s' rfl rfl u).mp hu)
    exact ⟨r, hkept s' r hr⟩
  · obtain ⟨r, hr⟩ := h.ended u s' ((hpc Pc.ends s' rfl rfl u).mp hu)
    exact ⟨r, hkept s' r hr⟩
  · rcases hold s' r hr with ⟨rfl, rfl⟩ | ⟨hs, hr⟩
    · refine ⟨⟨{fd}, fun fd' => ?_, rfl⟩, ⟨∅, fun u => ?_, rfl⟩⟩
      · rw [Finset.mem_singleton]
        refine Iff.trans ?_ (hnames fd' st.nextShared).symm
        refine ⟨fun heq => .inl ⟨heq, rfl⟩, ?_⟩
        rintro (⟨heq, _⟩ | hname)
        · exact heq
        · obtain ⟨r, hr⟩ := h.named fd' _ hname
          exact absurd rfl (hfresh _ r hr)
      · refine ⟨(by simp), fun hu => ?_⟩
        obtain ⟨r, hr⟩ := h.held u _ ((hpc Pc.holds _ rfl rfl u).mp hu)
        exact absurd rfl (hfresh _ r hr)
    · refine (h.counted s' r hr).congr (fun fd' => ?_) (hpc Pc.holds s' rfl rfl) rfl rfl
      exact (hnames fd' s').trans (or_iff_right fun hc => hs hc.2)
  · rcases hold s' r hr with ⟨rfl, rfl⟩ | ⟨_, hr⟩
    · refine .of_open rfl rfl ⟨(by simp), (by simp)⟩ fun u hu => ?_
      obtain ⟨r, hr⟩ := h.ended u _ ((hpc Pc.ends _ rfl rfl u).mp hu)
      exact absurd rfl (hfresh _ r hr)
    · exact (h.inCharge s' r hr).congr (hpc Pc.ends s' rfl rfl) (hpc Pc.closes s' rfl rfl) rfl rfl rfl
        rfl
  · rcases hold s₁ r₁ h₁ with ⟨rfl, rfl⟩ | ⟨_, h₁⟩ <;> rcases hold s₂ r₂ h₂ with ⟨rfl, rfl⟩ | ⟨_, h₂⟩
    · rfl
    · exact absurd hport.symm (hother s₂ r₂ h₂)
    · exact absurd hport (hother s₁ r₁ h₁)
    · exact hports.unique s₁ s₂ r₁ r₂ h₁ h₂ hport
  · obtain ⟨hut, hu⟩ := hmaking u q hu
    obtain ⟨hltq, hzeroq, hotherq, huniqq⟩ := hports.making u q hu
    refine ⟨hltq, hzeroq, fun s' r hr hport => ?_, fun v hv => huniqq v (hmaking v q hv).2⟩
    rcases hold s' r hr with ⟨_, rfl⟩ | ⟨_, hr⟩
    · have hport : p = q := hport
      subst hport
      exact hut (huniq u hu)
    · exact hotherq s' r hr hport
  · rcases hold s' r hr with ⟨rfl, rfl⟩ | ⟨_, hr⟩
    · exact ⟨Nat.lt_succ_self _, hlt⟩
    · obtain ⟨hs, hp⟩ := hports.bound s' r hr
      exact ⟨Nat.lt_succ_of_lt hs, hp⟩
  · rcases hold s' r hr with ⟨_, rfl⟩ | ⟨_, hr⟩
    · exact hzero
    · exact hports.alive s' r hr fun u hu => hfree u ((hpc Pc.frees s' rfl rfl u).mpr hu)
  · have hu := (hpc Pc.frees s' rfl rfl u).mp hu
    rcases hold s' r hr with ⟨rfl, _⟩ | ⟨_, hr⟩
    · obtain ⟨q, hq⟩ := h.ended u _ (Pc.ends_of_frees hu)
      exact absurd rfl (hfresh _ q hq)
    · exact hports.destroyed s' r u hr hu
  · rcases hports.gone q hq with ⟨s', r, hr, hport⟩ | ⟨u, hu⟩ | hdone
    · exact .inl ⟨s', r, hkept s' r hr, hport⟩
    · by_cases hut : u = t
      · rw [hut, created] at hu
        exact .inl ⟨st.nextShared, _, Function.update_self .., Option.some.inj hu⟩
      · refine .inr (.inl ⟨u, ?_⟩)
        show (Function.update st.pc t .idle u).making = some q
        rw [Function.update_of_ne hut]
        exact hu
    · exact .inr (.inr hdone)

/-- The record of a destroyed port is freed. -/
theorem Inv.free (h : Inv st) {deferred : Bool} {result : Option Errno}
    (freeing : st.pc t = .freeing s deferred result) :
    Inv ({ st with shared := Function.update st.shared s none }.goto t .idle) := by
  have hports := h.ports
  have hends : (st.pc t).ends = some s := by rw [freeing]; rfl
  obtain ⟨r, before⟩ := h.ended t s hends
  have hcharge := h.inCharge s r before
  have hcounted := h.counted s r before
  have hdestroyed : st.destroyed r.port = 1 :=
    hports.destroyed s r t before (by rw [freeing]; rfl)
  have hunnamed : ∀ fd, ¬st.Names fd s := by
    intro fd hname
    obtain ⟨fds, hfds, halias⟩ := hcounted.aliases
    rw [hcharge.closing.mp (hcharge.ends t hends)] at halias
    rw [← hfds, Finset.card_eq_zero.mp halias.symm] at hname
    cases hname
  have hunheld : ∀ u, (st.pc u).holds ≠ some s := by
    intro u hu
    obtain ⟨ts, hts, hrefs⟩ := hcounted.refs
    rw [hcharge.done t (by rw [freeing]; nofun) hends] at hrefs
    rw [← hts, Finset.card_eq_zero.mp hrefs.symm] at hu
    cases hu
  have hold : ∀ s' q, Function.update st.shared s none s' = some q →
      s' ≠ s ∧ st.shared s' = some q := by
    intro s' q hq
    by_cases hs : s' = s
    · rw [hs, Function.update_self] at hq
      cases hq
    · rw [Function.update_of_ne hs] at hq
      exact ⟨hs, hq⟩
  have hkept : ∀ s' q, s' ≠ s → st.shared s' = some q →
      Function.update st.shared s none s' = some q :=
    fun s' q hs hq => (Function.update_of_ne hs ..).trans hq
  have hpc : ∀ (f : Pc → Option SharedAddr) (s' : SharedAddr), f .idle = none →
      f (.freeing s deferred result) ≠ some s' →
      ∀ u, f (Function.update st.pc t .idle u) = some s' ↔ f (st.pc u) = some s' := by
    intro f s' hidle hfreeing
    refine update_iff ?_
    rw [freeing, hidle]
    exact ⟨nofun, fun hc => absurd hc hfreeing⟩
  have hother : ∀ s', s' ≠ s → some s ≠ some s' := fun s' hs hc => hs (Option.some.inj hc).symm
  have hmaking : ∀ u q, (Function.update st.pc t .idle u).making = some q ↔
      (st.pc u).making = some q :=
    fun u q => update_iff (by rw [freeing]; exact Iff.rfl) u
  refine
    { table := h.table
      nextFd := h.nextFd
      noFault := h.noFault
      named := fun fd s' hname => ?_
      held := fun u s' hu => ?_
      ended := fun u s' hu => ?_
      counted := fun s' q hq => ?_
      inCharge := fun s' q hq => ?_
      ports :=
        { unique := fun s₁ s₂ r₁ r₂ h₁ h₂ => hports.unique s₁ s₂ r₁ r₂ (hold s₁ r₁ h₁).2
            (hold s₂ r₂ h₂).2
          making := fun u q hu => ?_
          bound := fun s' q hq => hports.bound s' q (hold s' q hq).2
          alive := fun s' q hq hfree => ?_
          destroyed := fun s' q u hq hu => ?_
          gone := fun q hq => ?_
          future := hports.future } }
  · obtain ⟨q, hq⟩ := h.named fd s' hname
    exact ⟨q, hkept s' q (fun hs => hunnamed fd (hs ▸ hname)) hq⟩
  · have hu := (hpc Pc.holds s' rfl nofun u).mp hu
    obtain ⟨q, hq⟩ := h.held u s' hu
    exact ⟨q, hkept s' q (fun hs => hunheld u (hs ▸ hu)) hq⟩
  · have hut : u ≠ t := by
      rintro rfl
      have hu : (Function.update st.pc u .idle u).ends = some s' := hu
      rw [Function.update_self] at hu
      cases hu
    have hu : (st.pc u).ends = some s' := by
      rw [← hu]
      exact congrArg Pc.ends (Function.update_of_ne hut ..).symm
    obtain ⟨q, hq⟩ := h.ended u s' hu
    exact ⟨q, hkept s' q (fun hs => hut (hcharge.unique u t (hs ▸ hu) hends)) hq⟩
  · obtain ⟨_, hq⟩ := hold s' q hq
    exact (h.counted s' q hq).congr (fun _ => Iff.rfl) (hpc Pc.holds s' rfl nofun) rfl rfl
  · obtain ⟨hs, hq⟩ := hold s' q hq
    exact (h.inCharge s' q hq).congr (hpc Pc.ends s' rfl (hother s' hs))
      (hpc Pc.closes s' rfl nofun) rfl rfl rfl rfl
  · obtain ⟨hlt, hzero, hothers, huniq⟩ := hports.making u q ((hmaking u q).mp hu)
    exact ⟨hlt, hzero, fun s' r' hr' => hothers s' r' (hold s' r' hr').2,
      fun v hv => huniq v ((hmaking v q).mp hv)⟩
  · obtain ⟨hs, hq⟩ := hold s' q hq
    refine hports.alive s' q hq fun u hu => hfree u ?_
    exact (hpc Pc.frees s' rfl (hother s' hs) u).mpr hu
  · obtain ⟨hs, hq⟩ := hold s' q hq
    exact hports.destroyed s' q u hq ((hpc Pc.frees s' rfl (hother s' hs) u).mp hu)
  · rcases hports.gone q hq with ⟨s', r', hr', hport⟩ | ⟨u, hu⟩ | hdone
    · by_cases hs : s' = s
      · subst hs
        obtain rfl := Option.some.inj (hr'.symm.trans before)
        exact .inr (.inr (hport ▸ hdestroyed))
      · exact .inl ⟨s', r', hkept s' r' hs hr', hport⟩
    · exact .inr (.inl ⟨u, (hmaking u q).mpr hu⟩)
    · exact .inr (.inr hdone)

/-! ## Steps -/

/-- The result of a call is no part of the invariant. -/
theorem Inv.setReturned (h : Inv st) (f : Tid → Except Errno Int) :
    Inv { st with returned := f } :=
  { h with
    counted := fun s r hr => { h.counted s r hr with }
    inCharge := fun s r hr => { h.inCharge s r hr with }
    ports := { h.ports with } }

theorem Inv.ret (h : Inv (st.goto t .idle)) (result : Except Errno Int) : Inv (st.ret t result) :=
  h.setReturned (Function.update st.returned t result)

theorem Inv.shared_of_find (h : Inv st) {fd : Int} {e : Entry}
    (found : st.buckets.epfdFindLocked fd = some e) : ∃ r, st.shared e.shared = some r := by
  refine h.named fd e.shared ?_
  unfold State.Names
  rw [found, ← h.table.find_fd found]

/-- What the allocator returns. -/
theorem Inv.allocated (h : Inv st) :
    (1 ≤ (st.buckets.epfdAllocateIdLocked st.nextFd).2 ∧
      (st.buckets.epfdAllocateIdLocked st.nextFd).2 ≤ INT_MAX) ∧
    (0 < (st.buckets.epfdAllocateIdLocked st.nextFd).1 →
      (st.buckets.epfdAllocateIdLocked st.nextFd).1 ≤ INT_MAX ∧
      st.buckets.epfdFindLocked (st.buckets.epfdAllocateIdLocked st.nextFd).1 = none) := by
  obtain ⟨hpos, hmax, hfree⟩ :=
    st.buckets.allocateLoop_sound 2147483647 h.nextFd.1 h.nextFd.2
  exact ⟨⟨hpos, hmax⟩, hfree⟩

theorem Inv.createFails (h : Inv st) {p : PortId} (created : st.pc t = .created p) {next : Int}
    (range : 1 ≤ next ∧ next ≤ INT_MAX) (e : Errno) :
    Inv ({ st with nextFd := next }.goto t (.createFailed p e)) := by
  refine h.of_ports rfl range rfl rfl rfl (by rw [created]; rfl) (by rw [created]; rfl)
    (by rw [created]; rfl) (h.ports.congr (fun hr => ⟨_, hr, rfl⟩) (fun hr => ⟨_, hr, rfl⟩)
      (fun u s => ?_) (fun u q => ?_) rfl rfl rfl)
  · exact update_iff (f := Pc.frees) (by rw [created]; exact Iff.rfl) u
  · exact update_iff (f := Pc.making) (by rw [created]; exact Iff.rfl) u

theorem Inv.epfdAlloc (h : Inv st) {p : PortId} (created : st.pc t = .created p)
    (failure : Option Errno) : Inv (st.epfdAlloc t p failure) := by
  unfold State.epfdAlloc
  cases failure with
  | some e => exact h.createFails created h.nextFd e
  | none =>
    obtain ⟨hrange, hfree⟩ := h.allocated
    generalize st.buckets.epfdAllocateIdLocked st.nextFd = found at hrange hfree ⊢
    obtain ⟨fd, next⟩ := found
    dsimp only at hrange hfree ⊢
    split
    case isTrue hpos =>
      obtain ⟨hmax, hnone⟩ := hfree hpos
      exact (h.publish created hnone hpos hmax hrange).ret (.ok fd)
    case isFalse => exact h.createFails created hrange EMFILE

theorem Inv.epfdDuplicate (h : Inv st) (idle : st.pc t = .idle) (fd : Int)
    (failure : Option Errno) : Inv (st.epfdDuplicate t fd failure) := by
  unfold State.epfdDuplicate
  cases failure with
  | some e => exact h.returns idle h.nextFd (.error e)
  | none =>
    dsimp only
    cases found : st.buckets.epfdFindLocked fd with
    | none => exact h.returns idle h.nextFd (.error EBADF)
    | some source =>
      obtain ⟨r, before⟩ := h.shared_of_find found
      simp only [State.withShared, before]
      split
      case isTrue => exact h.returns idle h.nextFd (.error EBADF)
      case isFalse hopen =>
        obtain ⟨hrange, hfree⟩ := h.allocated
        generalize st.buckets.epfdAllocateIdLocked st.nextFd = allocated at hrange hfree ⊢
        obtain ⟨duplicate, next⟩ := allocated
        dsimp only at hrange hfree ⊢
        split
        case isTrue hpos =>
          obtain ⟨hmax, hnone⟩ := hfree hpos
          exact h.duplicate idle before (by simpa using hopen) hnone hpos hmax hrange (.ok duplicate)
        case isFalse => exact h.returns idle hrange (.error EMFILE)

theorem Inv.epfdAcquire (h : Inv st) (idle : st.pc t = .idle) (fd : Int) :
    Inv (st.epfdAcquire t fd) := by
  unfold State.epfdAcquire
  cases found : st.buckets.epfdFindLocked fd with
  | none => exact h.returns idle h.nextFd (.error EBADF)
  | some e =>
    obtain ⟨r, before⟩ := h.shared_of_find found
    simp only [State.withShared, before]
    split
    case isTrue => exact h.returns idle h.nextFd (.error EBADF)
    case isFalse hopen => exact h.acquire idle before (by simpa using hopen)

theorem Inv.wepollClose (h : Inv st) (idle : st.pc t = .idle) (fd : Int) :
    Inv (st.wepollClose t fd) := by
  unfold State.wepollClose
  cases found : st.buckets.epfdFindLocked fd with
  | none => exact h.returns idle h.nextFd (.error EBADF)
  | some e =>
    obtain ⟨r, before⟩ := h.shared_of_find found
    simp only [State.withShared, before]
    split
    case isTrue => exact h.returns idle h.nextFd (.error EBADF)
    case isFalse hopen =>
      have hclosing : r.closing = false := by simpa using hopen
      have hpos : r.aliases ≠ 0 := by
        intro hzero
        exact hopen ((h.inCharge _ r before).closing.mpr hzero)
      have hcount : r.aliases - 1 + 1 = r.aliases := by omega
      split
      case isTrue hzero =>
        have hclosed := h.close idle found before hclosing hcount (.beginClose e.shared)
          (fun _ => rfl) fun hne => absurd hzero hne
        rwa [hzero] at hclosed ⊢
      case isFalse hne =>
        have hclosed := h.close idle found before hclosing hcount .idle
          (fun hzero => absurd hzero hne) fun _ => rfl
        have hrecord : { r with aliases := r.aliases - 1, closing := r.aliases - 1 == 0 } =
            { r with aliases := r.aliases - 1 } := by
          rw [beq_false_of_ne hne, ← hclosing]
        rw [hrecord] at hclosed
        exact hclosed.ret (.ok 0)

theorem Inv.wait (h : Inv st) (waiting : st.pc t = .waiting s) {answer : Answer}
    (hstep : st.wait t s answer = some st') : Inv st' := by
  have hcloses : (st.pc t).closes = some s := by rw [waiting]; rfl
  obtain ⟨r, before⟩ := h.ended t s (Pc.of_closes hcloses).2.1
  have hmoves : ∀ e, Inv (st.goto t (.recheck s e)) := fun e =>
    h.closerMoves hcloses before rfl rfl rfl rfl (.inl rfl)
  unfold State.wait at hstep
  cases answer with
  | signalled =>
    simp only [before] at hstep
    split at hstep
    · cases hstep
      exact hmoves 0
    · cases hstep
  | timeout =>
    cases hstep
    exact hmoves _
  | failed e =>
    cases hstep
    exact hmoves _
  | destroyed result => cases hstep
  | go => cases hstep

theorem Inv.resume (h : Inv st) {answer : Answer} (hstep : st.resume t answer = some st') :
    Inv st' := by
  unfold State.resume at hstep
  cases hpc : st.pc t with
  | idle => simp [hpc] at hstep
  | created p => simp [hpc] at hstep
  | operating s => simp [hpc] at hstep
  | createFailed p e =>
    simp only [hpc] at hstep
    cases hstep
    exact (h.discard hpc).ret (.error e)
  | beginClose s =>
    have hcloses : (st.pc t).closes = some s := by rw [hpc]; rfl
    obtain ⟨r, before⟩ := h.ended t s (Pc.of_closes hcloses).2.1
    simp only [hpc, State.withShared, before] at hstep
    cases hstep
    exact h.closerMoves hcloses before rfl rfl rfl rfl (.inl rfl)
  | checkRefs s =>
    have hcloses : (st.pc t).closes = some s := by rw [hpc]; rfl
    obtain ⟨r, before⟩ := h.ended t s (Pc.of_closes hcloses).2.1
    simp only [hpc, State.checkRefs, State.withShared, before] at hstep
    cases hstep
    split
    case isTrue => exact h.closerMoves hcloses before rfl rfl rfl rfl (.inl rfl)
    case isFalse hzero =>
      exact h.closerMoves hcloses before rfl rfl rfl rfl (.inr ⟨rfl, not_not.mp hzero⟩)
  | waiting s =>
    simp only [hpc] at hstep
    exact h.wait hpc hstep
  | recheck s waitError =>
    have hcloses : (st.pc t).closes = some s := by rw [hpc]; rfl
    obtain ⟨r, before⟩ := h.ended t s (Pc.of_closes hcloses).2.1
    simp only [hpc, State.recheck, State.withShared, before] at hstep
    cases hstep
    split
    case isTrue hbusy => exact (h.detach hcloses before hbusy).ret _
    case isFalse hzero =>
      exact h.closerMoves hcloses before rfl rfl rfl rfl (.inr ⟨rfl, not_not.mp hzero⟩)
  | destroying s deferred =>
    obtain ⟨r, before⟩ := h.ended t s (by rw [hpc]; rfl)
    cases answer with
    | destroyed result =>
      simp only [hpc, State.epfdDestroy, State.withShared, before] at hstep
      cases hstep
      exact h.destroy hpc before result
    | _ => simp [hpc, State.epfdDestroy] at hstep
  | freeing s deferred result =>
    simp only [hpc] at hstep
    cases hstep
    unfold State.epfdFree
    have hfree := h.free hpc
    split
    case isTrue => exact hfree
    case isFalse =>
      cases result with
      | none => exact hfree.ret (.ok 0)
      | some e => exact hfree.ret (.error e)

/-- Every step keeps the invariant. -/
theorem Inv.step (h : Inv st) {a : Act} (hstep : Api.step st a = some st') : Inv st' := by
  cases a with
  | create t =>
    simp only [Api.step] at hstep
    split at hstep
    · cases hstep
      exact h.create ‹_›
    · cases hstep
  | alloc t failure =>
    cases hpc : st.pc t with
    | created p =>
      simp only [Api.step, hpc] at hstep
      cases hstep
      exact h.epfdAlloc hpc failure
    | _ => simp [Api.step, hpc] at hstep
  | dup t fd failure =>
    simp only [Api.step] at hstep
    split at hstep
    · cases hstep
      exact h.epfdDuplicate ‹_› fd failure
    · cases hstep
  | acquire t fd =>
    simp only [Api.step] at hstep
    split at hstep
    · cases hstep
      exact h.epfdAcquire ‹_› fd
    · cases hstep
  | put t =>
    cases hpc : st.pc t with
    | operating s =>
      simp only [Api.step, hpc] at hstep
      cases hstep
      exact h.put hpc
    | _ => simp [Api.step, hpc] at hstep
  | close t fd =>
    simp only [Api.step] at hstep
    split at hstep
    · cases hstep
      exact h.wepollClose ‹_› fd
    · cases hstep
  | resume t answer => exact h.resume hstep

theorem inv_reach (h : Transition.Reach Api.step start st) : Inv st :=
  h.invariant inv_start fun _ _ _ hinv hstep => hinv.step hstep

/-! ## The descriptor table over whole runs -/

/-- All entries of the table. -/
def State.entries (st : State) : List Entry := (List.range 64).flatMap st.buckets

theorem epfdBucket_lt (fd : Int) : epfdBucket fd < 64 := by
  unfold epfdBucket
  omega

theorem Inv.entries_nodup (h : Inv st) : (st.entries.map Entry.fd).Nodup := by
  unfold State.entries
  rw [List.map_flatMap, List.nodup_flatMap]
  refine ⟨fun b _ => h.table.nodup b, List.Pairwise.imp ?_ List.nodup_range⟩
  intro b c hbc fd hb hc
  obtain ⟨e, he, rfl⟩ := List.mem_map.mp hb
  obtain ⟨f, hf, hfd⟩ := List.mem_map.mp hc
  refine hbc ?_
  rw [← h.table.bucket b e he, ← h.table.bucket c f hf, hfd]

theorem Inv.mem_entries (h : Inv st) {e : Entry} :
    e ∈ st.entries ↔ st.buckets.epfdFindLocked e.fd = some e := by
  unfold State.entries
  rw [List.mem_flatMap, h.table.find_iff]
  constructor
  · rintro ⟨b, _, he⟩
    rw [h.table.bucket b e he]
    exact ⟨he, rfl⟩
  · rintro ⟨he, _⟩
    exact ⟨_, List.mem_range.mpr (epfdBucket_lt e.fd), he⟩

theorem Inv.alias_open (h : Inv st) {fd : Int} (name : st.Names fd s) :
    ∃ r, st.shared s = some r ∧ r.closing = false ∧ st.destroyed r.port = 0 := by
  obtain ⟨r, hr⟩ := h.named fd s name
  have hopen : r.closing = false := by
    cases hc : r.closing with
    | false => rfl
    | true =>
      obtain ⟨fds, hfds, halias⟩ := (h.counted s r hr).aliases
      rw [(h.inCharge s r hr).closing.mp hc] at halias
      have hmem := (hfds fd).mpr name
      rw [Finset.card_eq_zero.mp halias.symm] at hmem
      cases hmem
  obtain ⟨hnobody, _⟩ := (h.inCharge s r hr).opened hopen
  exact ⟨r, hr, hopen, h.ports.alive s r hr fun u hu => hnobody u (Pc.ends_of_frees hu)⟩

theorem Inv.holder_alive (h : Inv st) (holds : (st.pc t).holds = some s) :
    ∃ r, st.shared s = some r ∧ st.destroyed r.port = 0 := by
  obtain ⟨r, hr⟩ := h.held t s holds
  refine ⟨r, hr, h.ports.alive s r hr fun u hu => ?_⟩
  -- a thread that frees the record has seen its last reference go
  have hend := Pc.ends_of_frees hu
  have hclose : (st.pc u).closes ≠ some s := by
    intro hc
    rw [(Pc.of_closes hc).2.2.1] at hu
    cases hu
  obtain ⟨ts, hts, hrefs⟩ := (h.counted s r hr).refs
  rw [(h.inCharge s r hr).done u hclose hend] at hrefs
  have hmem := (hts t).mpr holds
  rw [Finset.card_eq_zero.mp hrefs.symm] at hmem
  cases hmem

theorem Inv.destroyed_le_one (h : Inv st) (p : PortId) : st.destroyed p ≤ 1 := by
  by_cases hp : p < st.nextPort
  · rcases h.ports.gone p hp with ⟨s, r, hr, rfl⟩ | ⟨t, ht⟩ | hdone
    · by_cases hfree : ∃ u, (st.pc u).frees = some s
      · obtain ⟨u, hu⟩ := hfree
        exact Nat.le_of_eq (h.ports.destroyed s r u hr hu)
      · rw [h.ports.alive s r hr fun u hu => hfree ⟨u, hu⟩]
        exact Nat.zero_le 1
    · rw [(h.ports.making t p ht).2.1]
      exact Nat.zero_le 1
    · exact Nat.le_of_eq hdone
  · rw [h.ports.future p (Nat.not_lt.mp hp)]
    exact Nat.zero_le 1

/-- A call in progress works on the port `p`. -/
def State.Busy (st : State) (p : PortId) : Prop :=
  ∃ t, (st.pc t).making = some p ∨
    ∃ s r, ((st.pc t).holds = some s ∨ (st.pc t).ends = some s) ∧ st.shared s = some r ∧ r.port = p

/-- An alias of the port `p` is in the table. -/
def State.Aliased (st : State) (p : PortId) : Prop :=
  ∃ fd s r, st.Names fd s ∧ st.shared s = some r ∧ r.port = p

/-- A port that is neither in the table nor in use has been destroyed. -/
theorem Inv.destroyed_once (h : Inv st) {p : PortId} (created : p < st.nextPort)
    (unaliased : ¬st.Aliased p) (unused : ¬st.Busy p) : st.destroyed p = 1 := by
  rcases h.ports.gone p created with ⟨s, r, hr, hport⟩ | ⟨t, ht⟩ | hdone
  · exfalso
    have hcharge := h.inCharge s r hr
    by_cases hzero : r.aliases = 0
    · -- somebody is in charge of the record
      rcases hcharge.someone (hcharge.closing.mpr hzero) with hd | ⟨u, hu⟩
      · rcases (hcharge.detached hd).2 with hpos | ⟨u, hu⟩
        · obtain ⟨ts, hts, hrefs⟩ := (h.counted s r hr).refs
          obtain ⟨u, hu⟩ := Finset.card_pos.mp (hrefs ▸ hpos)
          exact unused ⟨u, .inr ⟨s, r, .inl ((hts u).mp hu), hr, hport⟩⟩
        · exact unused ⟨u, .inr ⟨s, r, .inr hu, hr, hport⟩⟩
      · exact unused ⟨u, .inr ⟨s, r, .inr hu, hr, hport⟩⟩
    · obtain ⟨fds, hfds, halias⟩ := (h.counted s r hr).aliases
      obtain ⟨fd, hfd⟩ := Finset.card_pos.mp (halias ▸ Nat.pos_of_ne_zero hzero)
      exact unaliased ⟨fd, s, r, (hfds fd).mp hfd, hr, hport⟩
  · exact absurd ⟨t, .inl ht⟩ unused
  · exact hdone

/-- Closing an alias takes no other one out of the table. -/
theorem Inv.close_others (h : Inv st) {fd fd' : Int}
    (hstep : Api.step st (.close t fd) = some st') (other : fd' ≠ fd) (name : st.Names fd' s) :
    st'.Names fd' s := by
  simp only [Api.step] at hstep
  split at hstep
  case isFalse => cases hstep
  cases hstep
  unfold State.wepollClose
  cases found : st.buckets.epfdFindLocked fd with
  | none => exact name
  | some e =>
    have hunlinked : (st.buckets.epfdUnlinkLocked e).epfdFindLocked fd' = some ⟨fd', s⟩ := by
      rw [h.table.find_unlink found, if_neg other]
      exact name
    obtain ⟨r, before⟩ := h.shared_of_find found
    simp only [State.withShared, before]
    split
    · exact name
    · split
      · exact hunlinked
      · exact hunlinked

/-- A thread in charge of a record is never stuck. -/
theorem resume_of_ends (st : State) (ends : (st.pc t).ends = some s) :
    ∃ answer, (st.resume t answer).isSome := by
  unfold State.resume
  cases hpc : st.pc t with
  | idle => rw [hpc] at ends; cases ends
  | created p => rw [hpc] at ends; cases ends
  | createFailed p e => rw [hpc] at ends; cases ends
  | operating s => rw [hpc] at ends; cases ends
  | waiting s => exact ⟨.timeout, rfl⟩
  | destroying s deferred => exact ⟨.destroyed none, rfl⟩
  | _ => exact ⟨.go, rfl⟩

/-- What a state of the descriptor table has to satisfy. -/
structure Correct (st : State) : Prop where
  noFault : st.fault = false
  aliases : ∀ e, e ∈ st.entries ↔ st.buckets.epfdFindLocked e.fd = some e
  positive : ∀ e ∈ st.entries, 0 < e.fd ∧ e.fd ≤ INT_MAX
  distinct : (st.entries.map Entry.fd).Nodup
  /-- The allocator finds an unused positive integer whenever there is one. -/
  allocator : ∀ fd, 0 < fd → fd ≤ INT_MAX → st.buckets.epfdFindLocked fd = none →
    0 < (st.buckets.epfdAllocateIdLocked st.nextFd).1 ∧
      (st.buckets.epfdAllocateIdLocked st.nextFd).1 ≤ INT_MAX ∧
      st.buckets.epfdFindLocked (st.buckets.epfdAllocateIdLocked st.nextFd).1 = none
  once : ∀ p, st.destroyed p ≤ 1
  /-- A port is not destroyed while an operation holds a reference or an alias names it. -/
  holders : ∀ t s, (st.pc t).holds = some s → ∃ r, st.shared s = some r ∧ st.destroyed r.port = 0
  usable : ∀ fd s, st.Names fd s →
    ∃ r, st.shared s = some r ∧ r.closing = false ∧ st.destroyed r.port = 0
  /-- Once its last alias is closed and every reference put, it is destroyed. -/
  completed : ∀ p < st.nextPort, ¬st.Aliased p → ¬st.Busy p → st.destroyed p = 1
  running : ∀ t s, (st.pc t).ends = some s → ∃ answer, (st.resume t answer).isSome
  others : ∀ t fd st', Api.step st (.close t fd) = some st' →
    ∀ fd' s, fd' ≠ fd → st.Names fd' s → st'.Names fd' s

/-- Under every interleaving of creations, duplications, operations and closes the descriptors are
distinct and each port is destroyed exactly once, after its last use. -/
theorem descriptors_correct (h : Transition.Reach Api.step start st) : Correct st := by
  have hinv := inv_reach h
  obtain ⟨hrange, hfree⟩ := hinv.allocated
  refine
    { noFault := hinv.noFault
      aliases := fun _ => hinv.mem_entries
      positive := fun e he => hinv.table.find_range (hinv.mem_entries.mp he)
      distinct := hinv.entries_nodup
      allocator := fun fd hpos hmax hnone => ?_
      once := hinv.destroyed_le_one
      holders := fun _ _ => hinv.holder_alive
      usable := fun _ _ => hinv.alias_open
      completed := fun _ => hinv.destroyed_once
      running := fun _ _ => resume_of_ends st
      others := fun _ _ _ hstep _ _ => hinv.close_others hstep }
  have hfound := Buckets.allocate_complete hinv.nextFd.1 hinv.nextFd.2 hpos hmax hnone
  exact ⟨hfound, hfree hfound⟩

/-- A final close times out on an operation, which then destroys the port. -/
def closeTimesOut : List Act :=
  [.create 0, .alloc 0 none, .dup 0 1 none, .acquire 1 2, .close 0 1, .close 0 2, .resume 0 .go,
    .resume 0 .go, .resume 0 .timeout, .resume 0 .go, .put 1, .resume 1 (.destroyed none),
    .resume 1 .go]

theorem descriptors_correct_closeTimesOut :
    ∃ st, Transition.run Api.step start closeTimesOut = some st ∧ st.destroyed 0 = 1 ∧
      st.nextPort = 1 ∧ Correct st := by
  have h : (Transition.run Api.step start closeTimesOut).map
      (fun st => (st.destroyed 0, st.nextPort)) = some (1, 1) := by
    decide +kernel
  obtain ⟨st, hrun, hst⟩ := Option.map_eq_some_iff.mp h
  obtain ⟨hdestroyed, hports⟩ := Prod.mk.inj hst
  exact ⟨st, hrun, hdestroyed, hports, descriptors_correct (Transition.Reach.refl.of_run hrun)⟩

end

end WepollEx.Api
