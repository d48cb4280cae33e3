import WepollEx.Exclusive.ClaimIndex

/-!
# Who has claimed what

The index represents a partial map from registrations to the base and the classes they have
claimed.  Each function of the index is described by what it does to this map.
-/

namespace WepollEx

open Intrusive

/-- The base and the classes that a registration has claimed. -/
abbrev Owners := Addr → Option (Socket × Classes)

/-- A claim after `classes` were taken from it. -/
def shrink (classes : Classes) (claim : Socket × Classes) : Option (Socket × Classes) :=
  if claim.2 &&& ~~~classes = 0 then none else some (claim.1, claim.2 &&& ~~~classes)

/-- `classes` are taken from every claim on `base`. -/
def Owners.release (o : Owners) (base : Socket) (classes : Classes) : Owners := fun a =>
  (o a).bind fun claim => if claim.1 = base then shrink classes claim else some claim

/-- The claim of `a` is dropped if it is on another base. -/
def Owners.drop (o : Owners) (a : Addr) (base : Socket) : Owners :=
  Function.update o a ((o a).filter fun claim => claim.1 = base)

/-- The classes that `a` has claimed on `base`. -/
def Owners.on (o : Owners) (a : Addr) (base : Socket) : Classes :=
  ((o a).filter fun claim => claim.1 = base).elim 0 Prod.snd

def Owners.add (o : Owners) (a : Addr) (base : Socket) (classes : Classes) : Owners :=
  if classes = 0 then o else Function.update o a (some (base, o.on a base ||| classes))

def isTerminal (classes : Classes) : Bool := classes &&& EP_READINESS_CLASS_TERMINAL ≠ 0

/-- The classes that a claim adds, for classes that it owns already. -/
def missingClasses (owned granted : Classes) : Classes :=
  if isTerminal owned then 0
  else if isTerminal granted then EP_READINESS_CLASS_TERMINAL
  else granted &&& ~~~owned

/-- The first terminal claim on `base` takes the directional classes from the others. -/
def Owners.superseded (o : Owners) (base : Socket) (requested : Classes)
    (peers : List Classes) : Owners :=
  if isTerminal requested ∧ !peers.any isTerminal then
    o.release base (EP_READINESS_CLASS_READ ||| EP_READINESS_CLASS_WRITE)
  else o

/-- `a` claims the classes `requested` of `base`, of which its peers have claimed `peers`. -/
def Owners.claim (o : Owners) (a : Addr) (base : Socket) (requested : Classes)
    (peers : List Classes) : Owners :=
  let granted := requested &&& ~~~epExclusiveDenied requested peers
  if granted = 0 ∧ requested ≠ 0 then o.superseded base requested peers
  else (o.superseded base requested peers).add a base (missingClasses (o.on a base) granted)

theorem Owners.claim_eq (o : Owners) (a : Addr) (base : Socket) (requested : Classes)
    (peers : List Classes) : o.claim a base requested peers =
      if requested &&& ~~~epExclusiveDenied requested peers = 0 ∧ requested ≠ 0 then
        o.superseded base requested peers
      else (o.superseded base requested peers).add a base
        (missingClasses (o.on a base) (requested &&& ~~~epExclusiveDenied requested peers)) := rfl

/-- `peers` are the classes that the registrations other than `a` have claimed on `base`. -/
def Owners.Peers (o : Owners) (a : Addr) (base : Socket) (peers : List Classes) : Prop :=
  ∀ k, k ∈ peers ↔ ∃ c, c ≠ a ∧ o c = some (base, k)

namespace ClaimIndex

def owners (st : ClaimIndex) : Owners := fun a =>
  if st.claimClasses a = 0 then none else some (st.claimBase a, st.claimClasses a)

/-- The bucket a claim belongs to. -/
def key (o : Owners) (a : Addr) : Option Nat := (o a).map fun claim => epExclusiveBucket claim.1

/-- The chains hold exactly the claims, and the fuel of the loops suffices. -/
structure Ok (st : ClaimIndex) (chains : Nat → List Addr) : Prop where
  indexes : st.index.Indexes (key st.owners) chains
  bound : ∀ b, (chains b).length ≤ st.linked

section

variable {st : ClaimIndex} {chains : Nat → List Addr} {a c : Addr} {base : Socket}
  {classes : Classes} {claim : Socket × Classes}

theorem owners_eq_none : st.owners a = none ↔ st.claimClasses a = 0 := by
  unfold owners
  split <;> simp_all

theorem owners_eq_some :
    st.owners a = some claim ↔ st.claimClasses a ≠ 0 ∧ claim = (st.claimBase a, st.claimClasses a) := by
  unfold owners
  split
  · simp_all
  · simp_all [eq_comm]

theorem owners_unlink (st : ClaimIndex) (a : Addr) :
    (st.epExclusiveUnlinkLocked a).owners = Function.update st.owners a none := by
  unfold epExclusiveUnlinkLocked
  funext c
  split
  case isTrue hzero =>
    by_cases hc : c = a
    · rw [hc, Function.update_self]
      exact owners_eq_none.mpr hzero
    · rw [Function.update_of_ne hc]
  case isFalse =>
    by_cases hc : c = a
    · simp [hc, owners]
    · simp [owners, Function.update_of_ne hc]

theorem key_update (o : Owners) (a : Addr) (v : Option (Socket × Classes)) :
    key (Function.update o a v) =
      Function.update (key o) a (v.map fun claim => epExclusiveBucket claim.1) := by
  funext c
  by_cases hc : c = a
  · subst hc
    simp [key]
  · simp [key, hc]

/-- Taking a registration out of every chain, where it is in one at most. -/
theorem erase_chains {b : Nat} (hb : ∀ e, a ∈ chains e → e = b) :
    Function.update chains b ((chains b).erase a) = fun e => (chains e).erase a := by
  funext e
  by_cases he : e = b
  · rw [he, Function.update_self]
  · rw [Function.update_of_ne he, List.erase_of_not_mem fun hmem => he (hb e hmem)]

theorem Ok.unlink (h : st.Ok chains) (a : Addr) :
    (st.epExclusiveUnlinkLocked a).Ok fun b => (chains b).erase a := by
  have hbound : ∀ b, ((chains b).erase a).length ≤ st.linked :=
    fun b => List.length_erase_le.trans (h.bound b)
  have howners := owners_unlink st a
  refine ⟨?_, ?_⟩
  · rw [howners, key_update]
    by_cases hzero : st.claimClasses a = 0
    · -- nothing to do: the registration is in no chain
      have hnone : key st.owners a = none := by
        rw [key, owners_eq_none.mpr hzero]
        rfl
      have hout : ∀ b, a ∉ chains b := by
        intro b hmem
        rw [(h.indexes.mem a b).mp hmem] at hnone
        cases hnone
      have hsame : (fun b => (chains b).erase a) = chains := by
        funext b
        exact List.erase_of_not_mem (hout b)
      rw [hsame, epExclusiveUnlinkLocked, if_pos hzero]
      refine h.indexes.congr fun c => ?_
      by_cases hc : c = a
      · rw [hc, Function.update_self, hnone]
        rfl
      · rw [Function.update_of_ne hc]
    · have hkey : key st.owners a = some (epExclusiveBucket (st.claimBase a)) := by
        rw [key, owners_eq_some.mpr ⟨hzero, rfl⟩]
        rfl
      have hremove := h.indexes.remove hkey
      rw [erase_chains fun e he => Option.some.inj (((h.indexes.mem a e).mp he).symm.trans hkey)]
        at hremove
      rw [epExclusiveUnlinkLocked, if_neg hzero]
      exact hremove
  · have hlinked : (st.epExclusiveUnlinkLocked a).linked = st.linked := by
      unfold epExclusiveUnlinkLocked
      split <;> rfl
    rw [hlinked]
    exact hbound

theorem and_not_eq_self {k m : Classes} (h : k &&& m = 0) : k &&& ~~~m = k := by
  apply BitVec.eq_of_getLsbD_eq
  intro i hi
  have hbit := congrArg (fun v => v.getLsbD i) h
  simp only [BitVec.getLsbD_and, BitVec.getLsbD_not, hi, decide_true, Bool.true_and] at hbit ⊢
  cases hk : k.getLsbD i <;> simp_all

theorem owners_removeClasses (st : ClaimIndex) (a : Addr) (classes : Classes) :
    (st.epExclusiveRemoveClassesLocked a classes).owners =
      Function.update st.owners a ((st.owners a).bind (shrink classes)) := by
  unfold epExclusiveRemoveClassesLocked
  split
  case isTrue hdisjoint =>
    -- no class is taken
    have hsame : (st.owners a).bind (shrink classes) = st.owners a := by
      cases ho : st.owners a with
      | none => rfl
      | some claim =>
        obtain ⟨hne, rfl⟩ := owners_eq_some.mp ho
        rw [Option.bind_some, shrink, and_not_eq_self hdisjoint, if_neg hne]
    rw [hsame, Function.update_eq_self]
  case isFalse hclaims =>
    have hne : st.claimClasses a ≠ 0 := by
      intro hzero
      rw [hzero] at hclaims
      simp at hclaims
    have hclaim : st.owners a = some (st.claimBase a, st.claimClasses a) :=
      owners_eq_some.mpr ⟨hne, rfl⟩
    rw [hclaim, Option.bind_some, shrink]
    dsimp only
    split
    case isTrue hzero => exact owners_unlink st a
    case isFalse hremain =>
      funext c
      by_cases hc : c = a
      · subst hc
        simpa [owners] using hremain
      · simp [owners, Function.update_of_ne hc]

theorem Ok.removeClasses (h : st.Ok chains) (a : Addr) (classes : Classes) :
    (st.epExclusiveRemoveClassesLocked a classes).Ok chains ∨
      (st.epExclusiveRemoveClassesLocked a classes).Ok fun b => (chains b).erase a := by
  have howners := owners_removeClasses st a classes
  unfold epExclusiveRemoveClassesLocked at howners ⊢
  split
  case isTrue => exact .inl h
  case isFalse hclaims =>
    rw [if_neg hclaims] at howners
    dsimp only at howners ⊢
    split
    case isTrue => exact .inr (h.unlink a)
    case isFalse hremain =>
      rw [if_neg hremain] at howners
      refine .inl ⟨?_, h.bound⟩
      refine h.indexes.congr fun c => ?_
      rw [howners, key_update]
      by_cases hc : c = a
      · subst hc
        rw [Function.update_self, key]
        cases ho : st.owners c with
        | none => rfl
        | some claim =>
          obtain ⟨_, rfl⟩ := owners_eq_some.mp ho
          rw [Option.bind_some, shrink, if_neg hremain]
          rfl
      · rw [Function.update_of_ne hc]

theorem removeClasses_same (st : ClaimIndex) (a : Addr) (classes : Classes) :
    (st.epExclusiveRemoveClassesLocked a classes).baseSocket = st.baseSocket ∧
      (st.epExclusiveRemoveClassesLocked a classes).linked = st.linked := by
  unfold epExclusiveRemoveClassesLocked epExclusiveUnlinkLocked
  split
  · exact ⟨rfl, rfl⟩
  · dsimp only
    split
    · split <;> exact ⟨rfl, rfl⟩
    · exact ⟨rfl, rfl⟩

/-- What a loop over the claims on a base has done when `rest` is still to be visited. -/
structure Releasing (start : ClaimIndex) (base : Socket) (classes : Classes) (st : ClaimIndex)
    (rest : List Addr) : Prop where
  ok : ∃ chains pre, st.Ok chains ∧ chains (epExclusiveBucket base) = pre ++ rest
  ahead : ∀ c ∈ rest, st.owners c = start.owners c
  behind : ∀ c, c ∉ rest → st.owners c = start.owners.release base classes c
  baseSocket : st.baseSocket = start.baseSocket

theorem Releasing.visit {start : ClaimIndex} {rest : List Addr}
    (h : Releasing start base classes st (a :: rest)) :
    Releasing start base classes
      (if st.claimBase a = base then st.epExclusiveRemoveClassesLocked a classes else st) rest := by
  obtain ⟨chains, pre, hok, hchain⟩ := h.ok
  have hnodup : (pre ++ a :: rest).Nodup := hchain ▸ (hok.indexes.repr _).nodup
  have hapre : a ∉ pre := fun hc => (List.nodup_append.mp hnodup).2.2 a hc a (by simp) rfl
  have harest : a ∉ rest := (List.nodup_cons.mp (List.nodup_append.mp hnodup).2.1).1
  -- a registration on the chain has a claim
  have hclaimed : ∃ claim, st.owners a = some claim := by
    have hkey := (hok.indexes.mem a (epExclusiveBucket base)).mp (by rw [hchain]; simp)
    cases ho : st.owners a with
    | none =>
      rw [key, ho] at hkey
      cases hkey
    | some claim => exact ⟨claim, rfl⟩
  obtain ⟨claim, hclaim⟩ := hclaimed
  obtain ⟨_, rfl⟩ := owners_eq_some.mp hclaim
  have hstart := (h.ahead a List.mem_cons_self).symm.trans hclaim
  have hother : ∀ c, c ∉ rest → c ≠ a → c ∉ a :: rest := by
    intro c hc hca hmem
    rcases List.mem_cons.mp hmem with rfl | hr
    · exact hca rfl
    · exact hc hr
  split
  case isTrue hbase =>
    have howners := owners_removeClasses st a classes
    refine ⟨?_, fun c hc => ?_, fun c hc => ?_, ?_⟩
    · rcases hok.removeClasses a classes with hok' | hok'
      · exact ⟨chains, pre ++ [a], hok', by simp [hchain]⟩
      · refine ⟨_, pre, hok', ?_⟩
        rw [hchain, List.erase_append_right _ hapre, List.erase_cons_head]
    · have hca : c ≠ a := by
        rintro rfl
        exact harest hc
      rw [howners, Function.update_of_ne hca]
      exact h.ahead c (List.mem_cons_of_mem _ hc)
    · rw [howners]
      by_cases hca : c = a
      · subst hca
        rw [Function.update_self, hclaim, Owners.release, hstart]
        simp [hbase]
      · rw [Function.update_of_ne hca]
        exact h.behind c (hother c hc hca)
    · exact (removeClasses_same st a classes).1.trans h.baseSocket
  case isFalse hbase =>
    refine ⟨⟨chains, pre ++ [a], hok, by simp [hchain]⟩, fun c hc => ?_, fun c hc => ?_,
      h.baseSocket⟩
    · exact h.ahead c (List.mem_cons_of_mem _ hc)
    · by_cases hca : c = a
      · subst hca
        rw [hclaim, Owners.release, hstart]
        simp [hbase]
      · exact h.behind c (hother c hc hca)

/-- The loop ends, and takes `classes` from every claim on `base`. -/
theorem Ok.releaseLoop (h : st.Ok chains) (base : Socket) (classes : Classes) :
    ∃ st' chains', st.releaseLoop base classes = some st' ∧ st'.Ok chains' ∧
      st'.owners = st.owners.release base classes ∧ st'.baseSocket = st.baseSocket := by
  have hstart : Releasing st base classes st (chains (epExclusiveBucket base)) := by
    refine ⟨⟨chains, [], h, rfl⟩, fun _ _ => rfl, fun c hc => ?_, rfl⟩
    rw [Owners.release]
    cases ho : st.owners c with
    | none => rfl
    | some claim =>
      rw [Option.bind_some, if_neg]
      rintro rfl
      refine hc ((h.indexes.mem c _).mpr ?_)
      rw [key, ho]
      rfl
  obtain ⟨st', hloop, hend⟩ := Chain.loop_spec _ _ (P := Releasing st base classes)
    (fun s a rest hs => by
      obtain ⟨chains, pre, hok, hchain⟩ := hs.ok
      exact hok.indexes.next_eq hchain) (fun s a rest hs => hs.visit) hstart (h.bound _)
  obtain ⟨chains', _, hok, _⟩ := hend.ok
  refine ⟨st', chains', ?_, hok, ?_, hend.baseSocket⟩
  · unfold ClaimIndex.releaseLoop
    rw [h.indexes.head_eq]
    exact hloop
  · funext c
    exact hend.behind c (by simp)

theorem owners_dropMoved (st : ClaimIndex) (a : Addr) (base : Socket) :
    (st.dropMoved a base).owners = st.owners.drop a base := by
  unfold dropMoved Owners.drop
  split
  case isTrue hmoved =>
    rw [owners_unlink, owners_eq_some.mpr ⟨hmoved.1, rfl⟩]
    simp [Option.filter, hmoved.2]
  case isFalse hsame =>
    have hkept : (st.owners a).filter (fun claim => claim.1 = base) = st.owners a := by
      cases ho : st.owners a with
      | none => rfl
      | some claim =>
        obtain ⟨hne, rfl⟩ := owners_eq_some.mp ho
        have hbase : st.claimBase a = base := by
          by_contra hc
          exact hsame ⟨hne, hc⟩
        simp [hbase]
    rw [hkept, Function.update_eq_self]

theorem Ok.dropMoved (h : st.Ok chains) (a : Addr) (base : Socket) :
    ∃ chains', (st.dropMoved a base).Ok chains' := by
  unfold ClaimIndex.dropMoved
  split
  · exact ⟨_, h.unlink a⟩
  · exact ⟨chains, h⟩

theorem dropMoved_baseSocket (st : ClaimIndex) (a : Addr) (base : Socket) :
    (st.dropMoved a base).baseSocket = st.baseSocket := by
  unfold dropMoved epExclusiveUnlinkLocked
  split
  · split <;> rfl
  · rfl

/-- After the claim on another base is dropped, what is left is on `base`. -/
theorem dropMoved_base (hne : (st.dropMoved a base).claimClasses a ≠ 0) :
    (st.dropMoved a base).claimBase a = base := by
  have howner := owners_eq_some.mpr ⟨hne, rfl⟩
  rw [owners_dropMoved, Owners.drop, Function.update_self] at howner
  simpa using (Option.filter_eq_some_iff.mp howner).2

theorem on_drop (o : Owners) (a : Addr) (base : Socket) : (o.drop a base).on a base = o.on a base := by
  unfold Owners.on Owners.drop
  rw [Function.update_self]
  cases o a with
  | none => rfl
  | some claim => simp

theorem on_eq_claimClasses (st : ClaimIndex) (a : Addr) (base : Socket) :
    st.owners.on a base = (st.dropMoved a base).claimClasses a := by
  rw [← on_drop, ← owners_dropMoved, Owners.on]
  by_cases hzero : (st.dropMoved a base).claimClasses a = 0
  · rw [owners_eq_none.mpr hzero, hzero]
    rfl
  · rw [owners_eq_some.mpr ⟨hzero, rfl⟩]
    simp [Option.filter, dropMoved_base hzero]

theorem Ok.addClasses (h : st.Ok chains) (a : Addr) (base : Socket) (classes : Classes) :
    (∃ chains', (st.epExclusiveAddClassesLocked a base classes).Ok chains') ∧
      (st.epExclusiveAddClassesLocked a base classes).owners = st.owners.add a base classes ∧
      (st.epExclusiveAddClassesLocked a base classes).baseSocket = st.baseSocket := by
  unfold epExclusiveAddClassesLocked Owners.add
  split
  case isTrue => exact ⟨⟨chains, h⟩, rfl, rfl⟩
  case isFalse hclasses =>
    obtain ⟨chains₁, hok⟩ := h.dropMoved a base
    have howners := owners_dropMoved st a base
    have hbases := dropMoved_baseSocket st a base
    rw [on_eq_claimClasses]
    have hbase : (st.dropMoved a base).claimClasses a ≠ 0 →
        (st.dropMoved a base).claimBase a = base := dropMoved_base
    generalize st.dropMoved a base = mid at hok howners hbases hbase ⊢
    have hnonzero : mid.claimClasses a ||| classes ≠ 0#8 := by
      intro hzero
      refine hclasses (Mask.within_zero_iff.mp ?_)
      rw [← hzero]
      exact (Mask.Within.refl classes).inr _
    have hresult : ∀ st' : ClaimIndex, st'.claimBase = Function.update mid.claimBase a base →
        st'.claimClasses =
          Function.update mid.claimClasses a (mid.claimClasses a ||| classes) →
        st'.owners = Function.update mid.owners a (some (base, mid.claimClasses a ||| classes)) := by
      intro st' hbase' hclasses'
      funext c
      by_cases hc : c = a
      · subst hc
        simpa [owners, hbase', hclasses'] using hnonzero
      · simp [owners, hbase', hclasses', Function.update_of_ne hc]
    have hmid : Function.update mid.owners a (some (base, mid.claimClasses a ||| classes)) =
        Function.update st.owners a (some (base, mid.claimClasses a ||| classes)) := by
      rw [howners, Owners.drop, Function.update_idem]
    rw [← hmid]
    dsimp only
    split
    case isTrue hzero =>
      have hkey : key mid.owners a = none := by
        rw [key, owners_eq_none.mpr hzero]
        rfl
      refine ⟨⟨_, (hok.indexes.push hkey (epExclusiveBucket base)).congr fun c => ?_, fun b => ?_⟩,
        hresult _ rfl rfl, hbases⟩
      · rw [hresult _ rfl rfl, key_update]
        rfl
      · have hlen := hok.bound
        by_cases hb : b = epExclusiveBucket base
        · rw [hb, Function.update_self]
          exact Nat.succ_le_succ (hlen _)
        · rw [Function.update_of_ne hb]
          exact Nat.le_succ_of_le (hlen b)
    case isFalse hone =>
      have hbase := hbase hone
      have hsame : mid.claimBase = Function.update mid.claimBase a base := by
        rw [← hbase, Function.update_eq_self]
      have howned := hresult { mid with
        claimClasses := Function.update mid.claimClasses a (mid.claimClasses a ||| classes) } hsame rfl
      refine ⟨⟨chains₁, hok.indexes.congr fun c => ?_, hok.bound⟩, howned, hbases⟩
      rw [howned, key_update]
      by_cases hc : c = a
      · rw [hc, Function.update_self, key, owners_eq_some.mpr ⟨hone, rfl⟩, ← hbase]
        rfl
      · rw [Function.update_of_ne hc]

/-! ## The scan -/

/-- The classes that the registrations of `xs` other than `a` have claimed on `base`. -/
def peers (st : ClaimIndex) (a : Addr) (base : Socket) (xs : List Addr) : List Classes :=
  (xs.filter fun c => c ≠ a ∧ st.claimBase c = base).map st.claimClasses

/-- The classes that `a` has claimed on `base`, if it is in `xs`. -/
def own (st : ClaimIndex) (a : Addr) (base : Socket) (xs : List Addr) : List Classes :=
  (xs.filter fun c => c = a ∧ st.claimBase c = base).map st.claimClasses

theorem peers_cons (st : ClaimIndex) (a : Addr) (base : Socket) (c : Addr) (xs : List Addr) :
    st.peers a base (c :: xs) = if c ≠ a ∧ st.claimBase c = base
      then st.claimClasses c :: st.peers a base xs else st.peers a base xs := by
  unfold peers
  rw [List.filter_cons]
  split <;> simp_all

theorem own_cons (st : ClaimIndex) (a : Addr) (base : Socket) (c : Addr) (xs : List Addr) :
    st.own a base (c :: xs) = if c = a ∧ st.claimBase c = base
      then st.claimClasses c :: st.own a base xs else st.own a base xs := by
  unfold own
  rw [List.filter_cons]
  by_cases h : c = a ∧ st.claimBase c = base
  · obtain ⟨rfl, rfl⟩ := h
    simp
  · simp [h]

theorem scan_foldl (st : ClaimIndex) (a : Addr) (base : Socket) (requested : Classes)
    (xs : List Addr) (scan : Scan) :
    xs.foldl (st.scanClaim a base requested) scan =
      { denied := if isTerminal requested then scan.denied
          else ((st.peers a base xs).filter fun k => !isTerminal k).foldl
            (fun denied k => denied ||| (k &&& requested)) scan.denied
        owned := (st.own a base xs).foldl (· ||| ·) scan.owned
        ownerTerminal := scan.ownerTerminal || (st.own a base xs).any isTerminal
        peerTerminal := scan.peerTerminal || (st.peers a base xs).any isTerminal } := by
  induction xs generalizing scan with
  | nil => simp [peers, own]
  | cons c xs ih =>
    rw [List.foldl_cons, ih]
    by_cases hbase : st.claimBase c = base
    · by_cases hc : c = a
      · subst hc
        have hpeers : st.peers c base (c :: xs) = st.peers c base xs := by simp [peers_cons]
        have hown : st.own c base (c :: xs) = st.claimClasses c :: st.own c base xs := by
          simp [own_cons, hbase]
        rw [hpeers, hown]
        simp [scanClaim, hbase, isTerminal, Bool.or_assoc]
      · have hpeers : st.peers a base (c :: xs) = st.claimClasses c :: st.peers a base xs := by
          simp [peers_cons, hc, hbase]
        have hown : st.own a base (c :: xs) = st.own a base xs := by simp [own_cons, hc]
        rw [hpeers, hown]
        by_cases hterm : st.claimClasses c &&& EP_READINESS_CLASS_TERMINAL = 0#8
        · by_cases hreq : requested &&& EP_READINESS_CLASS_TERMINAL = 0#8
          · simp [scanClaim, hbase, hc, isTerminal, hterm, hreq]
          · simp [scanClaim, hbase, hc, isTerminal, hterm, hreq]
        · simp [scanClaim, hbase, hc, isTerminal, hterm]
    · have hpeers : st.peers a base (c :: xs) = st.peers a base xs := by simp [peers_cons, hbase]
      have hown : st.own a base (c :: xs) = st.own a base xs := by simp [own_cons, hbase]
      rw [hpeers, hown]
      simp [scanClaim, hbase]

/-- The scan ends, and has met every claim of the bucket. -/
theorem Ok.scanLoop (h : st.Ok chains) (a : Addr) (base : Socket) (requested : Classes) :
    st.scanLoop a base requested = some ((chains (epExclusiveBucket base)).foldl
      (st.scanClaim a base requested) ⟨0, 0, false, false⟩) := by
  obtain ⟨scan, hloop, pre, hpre, hscan⟩ := Chain.loop_spec
    (fun (_ : Scan) claim => st.index.links.next claim) (st.scanClaim a base requested)
    (P := fun scan rest => ∃ pre, chains (epExclusiveBucket base) = pre ++ rest ∧
      scan = pre.foldl (st.scanClaim a base requested) ⟨0, 0, false, false⟩)
    (fun s c rest hs => by
      obtain ⟨pre, hpre, _⟩ := hs
      exact h.indexes.next_eq hpre)
    (fun s c rest hs => by
      obtain ⟨pre, hpre, hscan⟩ := hs
      refine ⟨pre ++ [c], by simp [hpre], ?_⟩
      rw [List.foldl_append, ← hscan]
      rfl) ⟨[], rfl, rfl⟩ (h.bound _)
  rw [List.append_nil] at hpre
  rw [hpre, ← hscan, ← hloop, ClaimIndex.scanLoop, h.indexes.head_eq]
  rfl

/-- A claim on `base` is in the bucket of `base`. -/
theorem Ok.mem_bucket (h : st.Ok chains) :
    c ∈ chains (epExclusiveBucket base) ∧ st.claimBase c = base ↔
      st.owners c = some (base, st.claimClasses c) := by
  rw [h.indexes.mem, key]
  constructor
  · rintro ⟨hkey, rfl⟩
    obtain ⟨claim, hclaim, _⟩ := Option.map_eq_some_iff.mp hkey
    obtain ⟨_, rfl⟩ := owners_eq_some.mp hclaim
    exact hclaim
  · intro howner
    rw [howner]
    exact ⟨rfl, (congrArg Prod.fst (owners_eq_some.mp howner).2).symm⟩

theorem Ok.peers (h : st.Ok chains) (a : Addr) (base : Socket) :
    st.owners.Peers a base (st.peers a base (chains (epExclusiveBucket base))) := by
  intro k
  simp only [ClaimIndex.peers, List.mem_map, List.mem_filter, decide_eq_true_eq]
  constructor
  · rintro ⟨c, ⟨hmem, hca, hbase⟩, rfl⟩
    exact ⟨c, hca, h.mem_bucket.mp ⟨hmem, hbase⟩⟩
  · rintro ⟨c, hca, howner⟩
    have hk : k = st.claimClasses c := congrArg Prod.snd (owners_eq_some.mp howner).2
    subst hk
    obtain ⟨hmem, hbase⟩ := h.mem_bucket.mpr howner
    exact ⟨c, ⟨hmem, hca, hbase⟩, rfl⟩

/-- What the scan finds out about the registration itself. -/
theorem Ok.own (h : st.Ok chains) (a : Addr) (base : Socket) :
    (st.own a base (chains (epExclusiveBucket base))).foldl (· ||| ·) 0 = st.owners.on a base ∧
      (st.own a base (chains (epExclusiveBucket base))).any isTerminal =
        isTerminal (st.owners.on a base) := by
  have hnodup := (h.indexes.repr (epExclusiveBucket base)).nodup
  by_cases howner : st.owners a = some (base, st.claimClasses a)
  · obtain ⟨hmem, hbase⟩ := h.mem_bucket.mpr howner
    have hown : st.own a base (chains (epExclusiveBucket base)) = [st.claimClasses a] := by
      -- a registration is in a chain at most once
      have hfilter : ((chains (epExclusiveBucket base)).filter
          fun c => c = a ∧ st.claimBase c = base) = [a] := by
        have hpred : ∀ c ∈ chains (epExclusiveBucket base),
            decide (c = a ∧ st.claimBase c = base) = (c == a) := by
          intro c _
          by_cases hc : c = a
          · simp [hc, hbase]
          · simp [hc]
        rw [List.filter_congr hpred, List.filter_beq, hnodup.count, if_pos hmem]
        rfl
      rw [ClaimIndex.own, hfilter]
      rfl
    have hon : st.owners.on a base = st.claimClasses a := by
      simp [Owners.on, howner, Option.filter]
    rw [hown, hon]
    simp
  · have hown : st.own a base (chains (epExclusiveBucket base)) = [] := by
      simp only [ClaimIndex.own, List.map_eq_nil_iff, List.filter_eq_nil_iff, decide_eq_true_eq]
      rintro c hmem ⟨rfl, hbase⟩
      exact howner (h.mem_bucket.mp ⟨hmem, hbase⟩)
    have hon : st.owners.on a base = 0 := by
      rw [Owners.on]
      cases ho : st.owners a with
      | none => rfl
      | some claim =>
        have hbase : claim.1 ≠ base := by
          rintro rfl
          obtain ⟨hne, rfl⟩ := owners_eq_some.mp ho
          exact howner ho
        simp [Option.filter, hbase]
    rw [hown, hon]
    exact ⟨rfl, rfl⟩

theorem filter_of_none {peers : List Classes} (h : peers.any isTerminal = false) :
    (peers.filter fun k => !isTerminal k) = peers := by
  rw [List.filter_eq_self]
  intro k hk
  have hnone := List.any_eq_false.mp h k hk
  simpa using hnone

theorem denied_eq (requested : Classes) (peers : List Classes) :
    epExclusiveDenied requested peers =
      if peers.any isTerminal then requested
      else if isTerminal requested then 0
      else peers.foldl (fun denied k => denied ||| (k &&& requested)) 0 := by
  have hreq : isTerminal requested = decide (requested &&& EP_READINESS_CLASS_TERMINAL ≠ 0) := rfl
  rw [hreq, epExclusiveDenied]
  simp only [decide_eq_true_eq]
  rfl

/-- The classes that the code denies after its scan. -/
theorem denied_scan (requested : Classes) (peers : List Classes) :
    (if peers.any isTerminal then requested
      else if isTerminal requested then 0
      else (peers.filter fun k => !isTerminal k).foldl
        (fun denied k => denied ||| (k &&& requested)) 0) = epExclusiveDenied requested peers := by
  rw [denied_eq]
  cases hany : peers.any isTerminal with
  | true => rfl
  | false => rw [filter_of_none hany]

/-- What the claim does once the scan is over. -/
theorem Ok.supersede (h : st.Ok chains) (base : Socket) (requested : Classes)
    (peers : List Classes) : ∃ st' chains',
      st.supersede base requested (peers.any isTerminal) = some st' ∧ st'.Ok chains' ∧
      st'.baseSocket = st.baseSocket ∧ st'.owners = st.owners.superseded base requested peers := by
  have hreq : isTerminal requested = decide (requested &&& EP_READINESS_CLASS_TERMINAL ≠ 0) := rfl
  rw [Owners.superseded, hreq, ClaimIndex.supersede]
  simp only [decide_eq_true_eq]
  split
  · obtain ⟨st', chains', hloop, hok, howners, hbases⟩ := h.releaseLoop base
      (EP_READINESS_CLASS_READ ||| EP_READINESS_CLASS_WRITE)
    exact ⟨st', chains', hloop, hok, hbases, howners⟩
  · exact ⟨st, chains, rfl, h, rfl, rfl⟩

/-- A claim ends, decides as `epExclusiveTryClaimMask` does on the claims of the peers, and
records what it grants. -/
theorem Ok.tryClaim (h : st.Ok chains) (a : Addr) (delivered : Events) :
    ∃ st' chains' peers,
      st.epExclusiveTryClaim a delivered = some (epExclusiveTryClaimMask peers delivered, st') ∧
      st'.Ok chains' ∧ st'.baseSocket = st.baseSocket ∧
      (st.owners.drop a (st.baseSocket a)).Peers a (st.baseSocket a) peers ∧
      st'.owners = (st.owners.drop a (st.baseSocket a)).claim a (st.baseSocket a)
        (epReadinessClasses delivered) peers := by
  obtain ⟨chains₁, hmid⟩ := h.dropMoved a (st.baseSocket a)
  have howners := owners_dropMoved st a (st.baseSocket a)
  have hbases := dropMoved_baseSocket st a (st.baseSocket a)
  unfold epExclusiveTryClaim
  dsimp only
  generalize st.baseSocket a = base at hmid howners hbases ⊢
  generalize st.dropMoved a base = mid at hmid howners hbases ⊢
  rw [← howners]
  have hpeers := hmid.peers a base
  obtain ⟨hown, hterm⟩ := hmid.own a base
  rw [hmid.scanLoop, scan_foldl, hown, hterm, Option.bind_some]
  generalize mid.peers a base (chains₁ (epExclusiveBucket base)) = peers at hpeers ⊢
  simp only [Bool.false_or]
  obtain ⟨st₁, chains₂, hsup, hok, hbases₁, howners₁⟩ :=
    hmid.supersede base (epReadinessClasses delivered) peers
  rw [hsup, Option.map_some, denied_scan]
  have hclaim := mid.owners.claim_eq a base (epReadinessClasses delivered) peers
  rw [← howners₁] at hclaim
  by_cases hrefused : epReadinessClasses delivered &&&
      ~~~epExclusiveDenied (epReadinessClasses delivered) peers = 0 ∧
        epReadinessClasses delivered ≠ 0
  · rw [if_pos hrefused] at hclaim ⊢
    refine ⟨st₁, chains₂, peers, ?_, hok, hbases₁.trans hbases, hpeers, hclaim.symm⟩
    rw [epExclusiveTryClaimMask, if_pos hrefused]
  · rw [if_neg hrefused] at hclaim ⊢
    obtain ⟨⟨chains₃, hok'⟩, howners', hbases'⟩ := hok.addClasses a base
      (missingClasses (mid.owners.on a base) (epReadinessClasses delivered &&&
        ~~~epExclusiveDenied (epReadinessClasses delivered) peers))
    refine ⟨_, chains₃, peers, ?_, hok', hbases'.trans (hbases₁.trans hbases), hpeers, ?_⟩
    · rw [epExclusiveTryClaimMask, if_neg hrefused]
      simp only [missingClasses, isTerminal, decide_eq_true_eq]
    · rw [howners', hclaim]

/-- A release of classes ends, and takes them from every claim on the base of `a`. -/
theorem Ok.releaseClasses (h : st.Ok chains) (a : Addr) (classes : Classes) :
    ∃ st' chains', st.releaseClasses a classes = some st' ∧ st'.Ok chains' ∧
      st'.baseSocket = st.baseSocket ∧
      st'.owners =
        (st.owners.drop a (st.baseSocket a)).release (st.baseSocket a) classes := by
  obtain ⟨chains₁, hmid⟩ := h.dropMoved a (st.baseSocket a)
  obtain ⟨st', chains', hloop, hok, howners, hbases⟩ := hmid.releaseLoop (st.baseSocket a) classes
  refine ⟨st', chains', hloop, hok, hbases.trans (dropMoved_baseSocket st a _), ?_⟩
  rw [howners, owners_dropMoved]

end

end ClaimIndex

end WepollEx
