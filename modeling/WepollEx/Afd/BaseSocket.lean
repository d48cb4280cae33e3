import WepollEx.Port.State

/-!
# The base handle of a layered socket

`ep_socket_get_base_with_ioctl` asks a socket for its base provider handle.  A layered service
provider that rejects the query is unwrapped through the older provider-chain queries, until a
handle answers, none is new or the array of visited handles is full.
-/

namespace WepollEx.Provider

/-! ## Error codes -/

/-- The Win32 and Winsock codes that `ep_winerr_to_errno` knows. -/
inductive WinError
  | success
  | fileNotFound | pathNotFound | notFound
  | tooManyOpenFiles | accessDenied
  | invalidHandle | abandonedWait0
  | notEnoughMemory | outofmemory | noSystemResources
  | invalidData | invalidParameter | invalidAddress
  | notReady | ioPending
  | busy | sharingViolation
  | fileExists | alreadyExists
  | brokenPipe | noData | pipeNotConnected
  | operationAborted | cancelled
  | semTimeout | timeout | waitTimeout
  | notSupported | callNotImplemented | invalidFunction | genFailure
  | wsaewouldblock | wsaeinprogress | wsaealready | wsaeinval | wsaebadf | wsaeacces | wsaefault
  | wsaemfile | wsaenobufs | wsaenotsock | wsaedestaddrreq | wsaemsgsize | wsaeprototype
  | wsaenoprotoopt | wsaeprotonosupport | wsaesocktnosupport | wsaeopnotsupp | wsaepfnosupport
  | wsaeafnosupport | wsaeaddrinuse | wsaeaddrnotavail | wsaenetdown | wsaenetunreach
  | wsaenetreset | wsaeconnaborted | wsaeconnreset | wsaenotconn | wsaeshutdown
  | wsaetoomanyrefs | wsaetimedout | wsaeconnrefused | wsaeloop | wsaenametoolong
  | wsaehostdown | wsaehostunreach | wsaenotempty | wsaeusers | wsaedquot | wsaestale | wsaeremote
  | other (code : BitVec 32)
  deriving DecidableEq, Repr

def EAGAIN : Errno := 11
def EACCES : Errno := 13
def EFAULT : Errno := 14
def EMFILE : Errno := 24
def ENOSPC : Errno := 28
def EPIPE : Errno := 32
def ENAMETOOLONG : Errno := 38
def ENOSYS : Errno := 40
def ENOTEMPTY : Errno := 41
def EADDRINUSE : Errno := 100
def EADDRNOTAVAIL : Errno := 101
def EAFNOSUPPORT : Errno := 102
def ECANCELED : Errno := 105
def ECONNABORTED : Errno := 106
def ECONNREFUSED : Errno := 107
def ECONNRESET : Errno := 108
def EDESTADDRREQ : Errno := 109
def EHOSTUNREACH : Errno := 110
def ELOOP : Errno := 114
def EMSGSIZE : Errno := 115
def ENETDOWN : Errno := 116
def ENETRESET : Errno := 117
def ENETUNREACH : Errno := 118
def ENOBUFS : Errno := 119
def ENOPROTOOPT : Errno := 123
def ENOTCONN : Errno := 126
def ENOTSUP : Errno := 129
def EPROTONOSUPPORT : Errno := 135
def EPROTOTYPE : Errno := 136
def ETIMEDOUT : Errno := 138
/-- The names below are not in `errno.h` on Windows. -/
def ESOCKTNOSUPPORT : Errno := EOPNOTSUPP
def EPFNOSUPPORT : Errno := EAFNOSUPPORT
def ETOOMANYREFS : Errno := EAGAIN
def EHOSTDOWN : Errno := EHOSTUNREACH
def EUSERS : Errno := EAGAIN
def EDQUOT : Errno := ENOSPC
def ESTALE : Errno := EINVAL
def EREMOTE : Errno := EINVAL

def epWinerrToErrno : WinError → Errno
  | .success => 0
  | .fileNotFound | .pathNotFound | .notFound => ENOENT
  | .tooManyOpenFiles => EMFILE
  | .accessDenied => EACCES
  | .invalidHandle | .abandonedWait0 => EBADF
  | .notEnoughMemory | .outofmemory | .noSystemResources => ENOMEM
  | .invalidData | .invalidParameter => EINVAL
  | .invalidAddress => EFAULT
  | .notReady | .ioPending => EAGAIN
  | .busy | .sharingViolation => EBUSY
  | .fileExists | .alreadyExists => EEXIST
  | .brokenPipe | .noData => EPIPE
  | .pipeNotConnected => ENOTCONN
  | .operationAborted | .cancelled => ECANCELED
  | .semTimeout | .timeout | .waitTimeout => ETIMEDOUT
  | .notSupported | .callNotImplemented => ENOTSUP
  | .invalidFunction => ENOSYS
  | .genFailure => EIO
  | .wsaewouldblock => EAGAIN
  | .wsaeinprogress => EAGAIN
  | .wsaealready => EAGAIN
  | .wsaeinval => EINVAL
  | .wsaebadf => EBADF
  | .wsaeacces => EACCES
  | .wsaefault => EFAULT
  | .wsaemfile => EMFILE
  | .wsaenobufs => ENOBUFS
  | .wsaenotsock => ENOTSOCK
  | .wsaedestaddrreq => EDESTADDRREQ
  | .wsaemsgsize => EMSGSIZE
  | .wsaeprototype => EPROTOTYPE
  | .wsaenoprotoopt => ENOPROTOOPT
  | .wsaeprotonosupport => EPROTONOSUPPORT
  | .wsaesocktnosupport => ESOCKTNOSUPPORT
  | .wsaeopnotsupp => EOPNOTSUPP
  | .wsaepfnosupport => EPFNOSUPPORT
  | .wsaeafnosupport => EAFNOSUPPORT
  | .wsaeaddrinuse => EADDRINUSE
  | .wsaeaddrnotavail => EADDRNOTAVAIL
  | .wsaenetdown => ENETDOWN
  | .wsaenetunreach => ENETUNREACH
  | .wsaenetreset => ENETRESET
  | .wsaeconnaborted => ECONNABORTED
  | .wsaeconnreset => ECONNRESET
  | .wsaenotconn => ENOTCONN
  | .wsaeshutdown => EPIPE
  | .wsaetoomanyrefs => ETOOMANYREFS
  | .wsaetimedout => ETIMEDOUT
  | .wsaeconnrefused => ECONNREFUSED
  | .wsaeloop => ELOOP
  | .wsaenametoolong => ENAMETOOLONG
  | .wsaehostdown => EHOSTDOWN
  | .wsaehostunreach => EHOSTUNREACH
  | .wsaenotempty => ENOTEMPTY
  | .wsaeusers => EUSERS
  | .wsaedquot => EDQUOT
  | .wsaestale => ESTALE
  | .wsaeremote => EREMOTE
  | .other _ => EINVAL

/-! ## The traversal -/

inductive Ioctl
  /-- `SIO_BASE_HANDLE`. -/
  | base
  /-- `SIO_BSP_HANDLE_SELECT`. -/
  | select
  /-- `SIO_BSP_HANDLE_POLL`. -/
  | poll
  /-- `SIO_BSP_HANDLE`. -/
  | generic
  deriving DecidableEq, Repr

/-- `ep_socket_ioctl_fn`: the handle, `INVALID_SOCKET` for a failure, and the error it reports. -/
abbrev IoctlFn := Socket → Ioctl → Socket × WinError

def fallbackIoctls : List Ioctl := [.select, .poll, .generic]

/-- The size of the array `visited`. -/
def VISITED_MAX : Nat := 32

/-- How the inner loop over the fallbacks ends. -/
inductive Fallback
  | advanced (candidate : Socket)
  /-- A new handle, but no room for it. -/
  | full
  | exhausted (sawCycle : Bool)
  deriving DecidableEq, Repr

/-- The inner loop over the fallbacks. -/
def tryFallbacks (ioctl : IoctlFn) (current : Socket) (visited : List Socket) :
    List Ioctl → Bool → Fallback
  | [], sawCycle => .exhausted sawCycle
  | i :: rest, sawCycle =>
    let candidate := (ioctl current i).1
    if candidate = INVALID_SOCKET ∨ candidate = current then
      tryFallbacks ioctl current visited rest sawCycle
    else if candidate ∈ visited then
      tryFallbacks ioctl current visited rest true
    else if visited.length ≥ VISITED_MAX then .full
    else .advanced candidate

/-- What a traversal returns, and the handles it visited. -/
structure Traversal where
  result : Except Errno Socket
  visited : List Socket
  deriving DecidableEq, Repr

/-- The outer loop with `depth` iterations left. -/
def getBaseLoop (ioctl : IoctlFn) : Nat → Socket → List Socket → Traversal
  | 0, _, visited => ⟨.error ELOOP, visited⟩
  | depth + 1, current, visited =>
    let (base, baseError) := ioctl current .base
    if base ≠ INVALID_SOCKET then ⟨.ok base, visited⟩
    else if baseError = .wsaenotsock then ⟨.error ENOTSOCK, visited⟩
    else
      match tryFallbacks ioctl current visited fallbackIoctls false with
      | .full => ⟨.error ELOOP, visited⟩
      | .advanced candidate => getBaseLoop ioctl depth candidate (visited ++ [candidate])
      | .exhausted true => ⟨.error ELOOP, visited⟩
      | .exhausted false => ⟨.error (epWinerrToErrno baseError), visited⟩

/-- `ep_socket_get_base_with_ioctl`; a missing callback is `none`. -/
def epSocketGetBaseWithIoctl (socket : Socket) (ioctlFn : Option IoctlFn) : Traversal :=
  if socket = INVALID_SOCKET then ⟨.error ENOTSOCK, []⟩
  else
    match ioctlFn with
    | none => ⟨.error EFAULT, []⟩
    | some ioctl => getBaseLoop ioctl 32 socket [socket]

/-! ## The chain of handles -/

section

variable (ioctl : IoctlFn)

/-- The base query of a handle succeeds. -/
def Answers (c : Socket) : Prop := (ioctl c .base).1 ≠ INVALID_SOCKET

instance (c : Socket) : Decidable (Answers ioctl c) := inferInstanceAs (Decidable (_ ≠ _))

/-- The handle a fallback of `c` leads to, if `seen` are behind it. -/
def nextHandle (seen : List Socket) (c : Socket) : Option Socket :=
  (fallbackIoctls.map fun i => (ioctl c i).1).find? fun d => d ≠ INVALID_SOCKET ∧ d ∉ seen

/-- The chain goes on behind a handle whose base query fails, but not because it is no socket. -/
def Unwraps (c : Socket) : Prop :=
  (ioctl c .base).1 = INVALID_SOCKET ∧ (ioctl c .base).2 ≠ .wsaenotsock

instance (c : Socket) : Decidable (Unwraps ioctl c) := inferInstanceAs (Decidable (_ ∧ _))

/-- The handles `c0, …, ck`, if the chain is that long. -/
def chain (socket : Socket) : Nat → Option (List Socket)
  | 0 => some [socket]
  | k + 1 => do
    let seen ← chain socket k
    let c ← seen.getLast?
    if Unwraps ioctl c then (nextHandle ioctl seen c).map fun d => seen ++ [d] else none

/-- The handle `ck`. -/
def handle (socket : Socket) (k : Nat) : Option Socket :=
  (chain ioctl socket k).bind List.getLast?

/-- One of the queries offers a handle that has been seen, other than `c` itself. -/
def OffersOld (is : List Ioctl) (seen : List Socket) (c : Socket) : Prop :=
  ∃ i ∈ is, (ioctl c i).1 ≠ INVALID_SOCKET ∧ (ioctl c i).1 ≠ c ∧ (ioctl c i).1 ∈ seen

instance (is : List Ioctl) (seen : List Socket) (c : Socket) :
    Decidable (OffersOld ioctl is seen c) :=
  inferInstanceAs (Decidable (∃ i ∈ is, _ ∧ _))

end

section

variable {ioctl : IoctlFn} {socket c : Socket} {seen : List Socket} {k : Nat}

theorem chain_succ_iff {seen' : List Socket} : chain ioctl socket (k + 1) = some seen' ↔
    ∃ seen c d, chain ioctl socket k = some seen ∧ seen.getLast? = some c ∧ Unwraps ioctl c ∧
      nextHandle ioctl seen c = some d ∧ seen' = seen ++ [d] := by
  constructor
  · intro h
    simp only [chain, Option.bind_eq_bind, Option.bind_eq_some_iff] at h
    obtain ⟨seen, hseen, c, hc, h⟩ := h
    split at h
    · rename_i hunwraps
      obtain ⟨d, hd, rfl⟩ := Option.map_eq_some_iff.mp h
      exact ⟨seen, c, d, hseen, hc, hunwraps, hd, rfl⟩
    · cases h
  · rintro ⟨seen, c, d, hseen, hc, hunwraps, hd, rfl⟩
    simp [chain, hseen, hc, hunwraps, hd]

theorem nextHandle_some {d : Socket} (h : nextHandle ioctl seen c = some d) :
    d ≠ INVALID_SOCKET ∧ d ∉ seen := by
  have := List.find?_some h
  simpa using this

/-- The handles of a chain are different, and as many as its index says. -/
theorem chain_spec (h : chain ioctl socket k = some seen) :
    seen.Nodup ∧ seen.length = k + 1 ∧ ∃ c, seen.getLast? = some c ∧ c ∈ seen := by
  induction k generalizing seen with
  | zero =>
    cases h
    exact ⟨List.nodup_singleton _, rfl, socket, rfl, List.mem_singleton_self _⟩
  | succ k ih =>
    obtain ⟨seen', c, d, hseen, -, -, hd, rfl⟩ := chain_succ_iff.mp h
    obtain ⟨hnodup, hlength, -⟩ := ih hseen
    refine ⟨?_, by simp [hlength], d, by simp, by simp⟩
    rw [List.nodup_append]
    refine ⟨hnodup, List.nodup_singleton _, ?_⟩
    rintro x hx y hy rfl
    obtain rfl := List.mem_singleton.mp hy
    exact (nextHandle_some hd).2 hx

/-- A chain that goes further has passed each handle before. -/
theorem chain_passes {j : Nat} (h : chain ioctl socket k = some seen) (hj : j < k) :
    ∃ seen' c, chain ioctl socket j = some seen' ∧ seen'.getLast? = some c ∧ Unwraps ioctl c ∧
      nextHandle ioctl seen' c ≠ none := by
  induction k generalizing seen with
  | zero => omega
  | succ k ih =>
    obtain ⟨seen', c, d, hseen, hc, hunwraps, hd, rfl⟩ := chain_succ_iff.mp h
    rcases Nat.lt_succ_iff_lt_or_eq.mp hj with hlt | rfl
    · exact ih hseen hlt
    · exact ⟨seen', c, hseen, hc, hunwraps, by simp [hd]⟩

/-! ## The loops -/

/-- The inner loop finds the next handle of the chain, or knows whether there was an old one. -/
theorem tryFallbacks_eq (ioctl : IoctlFn) (is : List Ioctl) (sawCycle : Bool) (hc : c ∈ seen) :
    tryFallbacks ioctl c seen is sawCycle =
      match (is.map fun i => (ioctl c i).1).find? fun d => d ≠ INVALID_SOCKET ∧ d ∉ seen with
      | some d => if seen.length ≥ VISITED_MAX then .full else .advanced d
      | none => .exhausted (sawCycle || decide (OffersOld ioctl is seen c)) := by
  induction is generalizing sawCycle with
  | nil => simp [tryFallbacks, OffersOld]
  | cons i is ih =>
    unfold tryFallbacks
    dsimp only
    have hskips : ((ioctl c i).1 = INVALID_SOCKET ∨ (ioctl c i).1 ∈ seen) →
        ((i :: is).map fun i => (ioctl c i).1).find? (fun d => d ≠ INVALID_SOCKET ∧ d ∉ seen) =
          (is.map fun i => (ioctl c i).1).find? fun d => d ≠ INVALID_SOCKET ∧ d ∉ seen := by
      intro hold
      rw [List.map_cons, List.find?_cons_of_neg]
      simpa using hold.resolve_left
    split
    · rename_i hself
      rw [ih, hskips (hself.imp_right fun h => by rwa [h])]
      have hsame : OffersOld ioctl (i :: is) seen c ↔ OffersOld ioctl is seen c := by
        unfold OffersOld
        rw [List.exists_mem_cons_iff, or_iff_right]
        exact fun h => hself.elim h.1 h.2.1
      rw [decide_eq_decide.mpr hsame]
    rename_i hother
    obtain ⟨hvalid, hne⟩ := not_or.mp hother
    split
    · rename_i hold
      have hsome : OffersOld ioctl (i :: is) seen c :=
        ⟨i, List.mem_cons_self, hvalid, hne, hold⟩
      rw [ih, hskips (.inr hold), Bool.true_or, decide_eq_true hsome, Bool.or_true]
    · rename_i hnew
      rw [List.map_cons, List.find?_cons_of_pos (by simp [hvalid, hnew])]

/-- How a traversal that has visited `seen`, the last one `c`, ends. -/
inductive Ends (ioctl : IoctlFn) (seen : List Socket) (c : Socket) : Except Errno Socket → Prop
  | found (answers : Answers ioctl c) : Ends ioctl seen c (.ok (ioctl c .base).1)
  | notSocket (fails : ¬Answers ioctl c) (error : (ioctl c .base).2 = .wsaenotsock) :
      Ends ioctl seen c (.error ENOTSOCK)
  | long (unwraps : Unwraps ioctl c) (full : seen.length = VISITED_MAX)
      (next : nextHandle ioctl seen c ≠ none) : Ends ioctl seen c (.error ELOOP)
  | cycle (unwraps : Unwraps ioctl c) (last : nextHandle ioctl seen c = none)
      (old : OffersOld ioctl fallbackIoctls seen c) : Ends ioctl seen c (.error ELOOP)
  | fails (unwraps : Unwraps ioctl c) (last : nextHandle ioctl seen c = none)
      (old : ¬OffersOld ioctl fallbackIoctls seen c) :
      Ends ioctl seen c (.error (epWinerrToErrno (ioctl c .base).2))

/-- One iteration ends the traversal or goes one handle further. -/
theorem getBaseLoop_step (ioctl : IoctlFn) (depth : Nat) (hc : c ∈ seen) (room : seen.length ≤ VISITED_MAX) :
    ((getBaseLoop ioctl (depth + 1) c seen).visited = seen ∧
      Ends ioctl seen c (getBaseLoop ioctl (depth + 1) c seen).result) ∨
    ∃ d, Unwraps ioctl c ∧ nextHandle ioctl seen c = some d ∧ seen.length < VISITED_MAX ∧
      getBaseLoop ioctl (depth + 1) c seen = getBaseLoop ioctl depth d (seen ++ [d]) := by
  rw [getBaseLoop]
  dsimp only
  split
  · rename_i hanswers
    exact .inl ⟨rfl, .found hanswers⟩
  rename_i hfails
  have hinvalid : (ioctl c .base).1 = INVALID_SOCKET := not_not.mp hfails
  split
  · rename_i hnot
    exact .inl ⟨rfl, .notSocket hfails hnot⟩
  rename_i herror
  have hunwraps : Unwraps ioctl c := ⟨hinvalid, herror⟩
  have htry := tryFallbacks_eq ioctl fallbackIoctls false hc
  rw [← nextHandle] at htry
  cases hnext : nextHandle ioctl seen c with
  | some d =>
    rw [hnext] at htry
    dsimp only at htry
    by_cases hfull : seen.length ≥ VISITED_MAX
    · rw [if_pos hfull] at htry
      rw [htry]
      exact .inl ⟨rfl, .long hunwraps (Nat.le_antisymm room hfull) (by simp [hnext])⟩
    · rw [if_neg hfull] at htry
      rw [htry]
      exact .inr ⟨d, hunwraps, rfl, Nat.lt_of_not_le hfull, rfl⟩
  | none =>
    rw [hnext, Bool.false_or] at htry
    dsimp only at htry
    by_cases hold : OffersOld ioctl fallbackIoctls seen c
    · rw [decide_eq_true hold] at htry
      rw [htry]
      exact .inl ⟨rfl, .cycle hunwraps hnext hold⟩
    · rw [decide_eq_false hold] at htry
      rw [htry]
      exact .inl ⟨rfl, .fails hunwraps hnext hold⟩

/-- The outer loop follows the chain, by induction on the iterations that are left. -/
theorem getBaseLoop_ends (depth : Nat) (hk : k + depth = 32) (h : chain ioctl socket k = some seen)
    (hlt : k < 32) (hc : seen.getLast? = some c) :
    ∃ n c', n < 32 ∧ chain ioctl socket n = some (getBaseLoop ioctl depth c seen).visited ∧
      (getBaseLoop ioctl depth c seen).visited.getLast? = some c' ∧
      Ends ioctl (getBaseLoop ioctl depth c seen).visited c'
        (getBaseLoop ioctl depth c seen).result := by
  induction depth generalizing k seen c with
  | zero => omega
  | succ depth ih =>
    obtain ⟨-, hlength, -⟩ := chain_spec h
    have room : seen.length ≤ VISITED_MAX := by
      unfold VISITED_MAX
      omega
    rcases getBaseLoop_step ioctl depth (List.mem_of_getLast? hc) room with
      ⟨hvisited, hends⟩ | ⟨d, hunwraps, hnext, hless, heq⟩
    · rw [hvisited]
      exact ⟨k, c, hlt, h, hc, hends⟩
    · rw [heq]
      refine ih (k := k + 1) (by omega) (chain_succ_iff.mpr ⟨seen, c, d, h, hc, hunwraps, hnext, rfl⟩)
        ?_ (by simp)
      unfold VISITED_MAX at hless
      omega

end

/-! ## The result -/

/-- The 33rd handle would be needed, or the last one offers only handles that have been visited,
and not only itself. -/
def Loops (ioctl : IoctlFn) (socket : Socket) (visited : List Socket) : Prop :=
  chain ioctl socket 32 ≠ none ∨ ∃ c, visited.getLast? = some c ∧
    nextHandle ioctl visited c = none ∧ OffersOld ioctl fallbackIoctls visited c

/-- What a traversal from `socket` has visited and returns. -/
structure Traversed (ioctl : IoctlFn) (socket : Socket) (t : Traversal) : Prop where
  /-- The handles of the chain, as far as it goes, and at most 32. -/
  visits : ∃ n < 32, chain ioctl socket n = some t.visited ∧
    (n + 1 = 32 ∨ chain ioctl socket (n + 1) = none)
  distinct : t.visited.Nodup ∧ t.visited.length ≤ 32
  found : ∀ k < 32, ∀ c, handle ioctl socket k = some c → Answers ioctl c →
    t.result = .ok (ioctl c .base).1
  notSocket : ∀ k < 32, ∀ c, handle ioctl socket k = some c → ¬Answers ioctl c →
    (ioctl c .base).2 = .wsaenotsock → t.result = .error ENOTSOCK
  otherwise : (∀ k < 32, ∀ c, handle ioctl socket k = some c → Unwraps ioctl c) →
    (Loops ioctl socket t.visited → t.result = .error ELOOP) ∧
    (¬Loops ioctl socket t.visited → ∃ c, t.visited.getLast? = some c ∧
      t.result = .error (epWinerrToErrno (ioctl c .base).2))

section

variable {ioctl : IoctlFn} {socket c : Socket} {seen : List Socket} {n : Nat}

theorem not_unwraps_of_answers (h : Answers ioctl c) : ¬Unwraps ioctl c := fun hu => h hu.1

/-- The chain goes no further than the traversal. -/
theorem Ends.stops {r : Except Errno Socket} (h : Ends ioctl seen c r)
    (hchain : chain ioctl socket n = some seen) (hc : seen.getLast? = some c) :
    n + 1 = 32 ∨ chain ioctl socket (n + 1) = none := by
  obtain ⟨-, hlength, -⟩ := chain_spec hchain
  have hstop : ¬Unwraps ioctl c ∨ nextHandle ioctl seen c = none →
      chain ioctl socket (n + 1) = none := by
    intro hlast
    rw [Option.eq_none_iff_forall_ne_some]
    intro seen' hsome
    obtain ⟨seen'', c', d, hseen, hc', hunwraps, hd, -⟩ := chain_succ_iff.mp hsome
    obtain rfl := Option.some.inj (hchain.symm.trans hseen)
    obtain rfl := Option.some.inj (hc.symm.trans hc')
    rcases hlast with hnot | hnone
    · exact hnot hunwraps
    · rw [hnone] at hd
      cases hd
  cases h with
  | found answers => exact .inr (hstop (.inl (not_unwraps_of_answers answers)))
  | notSocket _ error => exact .inr (hstop (.inl fun hu => hu.2 error))
  | long _ full _ => exact .inl (hlength.symm.trans full)
  | cycle _ last _ => exact .inr (hstop (.inr last))
  | fails _ last _ => exact .inr (hstop (.inr last))

/-- A handle of the chain at which it does not go on is the last one visited. -/
theorem handle_last {k : Nat} {c' : Socket} (hchain : chain ioctl socket n = some seen)
    (hc : seen.getLast? = some c) (stops : n + 1 = 32 ∨ chain ioctl socket (n + 1) = none)
    (hk : k < 32) (hc' : handle ioctl socket k = some c') (hnot : ¬Unwraps ioctl c') : c' = c := by
  obtain ⟨seen', hseen', hlast'⟩ := Option.bind_eq_some_iff.mp hc'
  rcases Nat.lt_trichotomy k n with hlt | rfl | hgt
  · obtain ⟨seen'', d, hseen'', hd, hunwraps, -⟩ := chain_passes hchain hlt
    obtain rfl := Option.some.inj (hseen'.symm.trans hseen'')
    obtain rfl := Option.some.inj (hlast'.symm.trans hd)
    exact absurd hunwraps hnot
  · obtain rfl := Option.some.inj (hchain.symm.trans hseen')
    exact Option.some.inj (hlast'.symm.trans hc)
  · have hnext : chain ioctl socket (n + 1) ≠ none := by
      rcases Nat.lt_or_eq_of_le (Nat.succ_le_of_lt hgt) with hlt | heq
      · obtain ⟨seen'', -, hseen'', -⟩ := chain_passes hseen' hlt
        simp [hseen'']
      · rw [Nat.succ_eq_add_one] at heq
        simp [heq, hseen']
    rcases stops with hfull | hnone
    · omega
    · exact absurd hnone hnext

end

/-- The traversal of a provider chain, whatever the providers answer. -/
theorem provider_chain (ioctl : IoctlFn) (socket : Socket) (valid : socket ≠ INVALID_SOCKET) :
    Traversed ioctl socket (epSocketGetBaseWithIoctl socket (some ioctl)) := by
  have hstart : epSocketGetBaseWithIoctl socket (some ioctl) =
      getBaseLoop ioctl 32 socket [socket] := if_neg valid
  have hfirst : chain ioctl socket 0 = some [socket] := rfl
  have hlast : [socket].getLast? = some socket := rfl
  obtain ⟨n, c, hn, hchain, hc, hends⟩ := getBaseLoop_ends 32 rfl hfirst (by omega) hlast
  rw [← hstart] at hchain hc hends
  generalize epSocketGetBaseWithIoctl socket (some ioctl) = t at hchain hc hends ⊢
  obtain ⟨result, visited⟩ := t
  dsimp only at hchain hc hends
  obtain ⟨hnodup, hlength, -⟩ := chain_spec hchain
  have hstops := hends.stops hchain hc
  have hhandle : handle ioctl socket n = some c := by rw [handle, hchain]; exact hc
  constructor
  · exact ⟨n, hn, hchain, hstops⟩
  · exact ⟨hnodup, by dsimp only; omega⟩
  · intro k hk c' hc' hanswers
    obtain rfl := handle_last hchain hc hstops hk hc' (not_unwraps_of_answers hanswers)
    cases hends with
    | found _ => rfl
    | notSocket fails _ => exact absurd hanswers fails
    | long unwraps | cycle unwraps | fails unwraps => exact absurd unwraps.1 hanswers
  · intro k hk c' hc' hfails herror
    obtain rfl := handle_last hchain hc hstops hk hc' fun hu => hu.2 herror
    cases hends with
    | found answers => exact absurd answers hfails
    | notSocket _ _ => rfl
    | long unwraps | cycle unwraps | fails unwraps => exact absurd herror unwraps.2
  · intro hall
    have hunwraps := hall n hn c hhandle
    cases hends with
    | found answers => exact absurd hunwraps (not_unwraps_of_answers answers)
    | notSocket _ error => exact absurd error hunwraps.2
    | long _ full next =>
      have hloops : Loops ioctl socket visited := by
        obtain ⟨d, hd⟩ := Option.ne_none_iff_exists'.mp next
        have hsucc := chain_succ_iff.mpr ⟨visited, c, d, hchain, hc, hunwraps, hd, rfl⟩
        rw [← hlength, full] at hsucc
        exact .inl (by rw [show 32 = VISITED_MAX from rfl, hsucc]; simp)
      exact ⟨fun _ => rfl, fun h => absurd hloops h⟩
    | cycle _ last old => exact ⟨fun _ => rfl, fun h => absurd (.inr ⟨c, hc, last, old⟩) h⟩
    | fails _ last old =>
      refine ⟨fun h => ?_, fun _ => ⟨c, hc, rfl⟩⟩
      rcases h with hlong | ⟨c', hc', -, hold⟩
      · obtain ⟨seen', hseen'⟩ := Option.ne_none_iff_exists'.mp hlong
        obtain ⟨seen'', d, hseen'', hd, -, hnext⟩ := chain_passes hseen' hn
        obtain rfl := Option.some.inj (hchain.symm.trans hseen'')
        obtain rfl := Option.some.inj (hc.symm.trans hd)
        exact absurd last hnext
      · obtain rfl := Option.some.inj (hc.symm.trans hc')
        exact absurd hold old

/-- A provider whose SELECT handle leads back, and whose POLL handle unwraps the layer. -/
def backwards : IoctlFn := fun c i =>
  if c = 1 ∧ i = .select then (2, .success)
  else if c = 2 ∧ i = .select then (1, .success)
  else if c = 2 ∧ i = .poll then (3, .success)
  else if c = 3 ∧ i = .base then (3, .success)
  else (INVALID_SOCKET, .wsaeopnotsupp)

theorem provider_chain_backwards :
    (1 : Socket) ≠ INVALID_SOCKET ∧ handle backwards 1 2 = some 3 ∧
      (epSocketGetBaseWithIoctl 1 (some backwards)).result = .ok 3 := by
  have hhandle : handle backwards 1 2 = some 3 := by decide
  exact ⟨by decide, hhandle,
    (provider_chain backwards 1 (by decide)).found 2 (by omega) 3 hhandle (by decide)⟩

/-- A base query that fails with `WSAELOOP`, without a chain behind it. -/
def reportsLoop : IoctlFn := fun _ _ => (INVALID_SOCKET, .wsaeloop)

/-- The error is ELOOP although no handle was offered at all. -/
theorem provider_chain_reportsLoop :
    (epSocketGetBaseWithIoctl 1 (some reportsLoop)) = ⟨.error ELOOP, [1]⟩ ∧
      chain reportsLoop 1 1 = none ∧ ¬OffersOld reportsLoop fallbackIoctls [1] 1 := by
  decide

end WepollEx.Provider
