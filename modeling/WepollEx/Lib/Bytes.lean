import Mathlib.Algebra.GroupWithZero.Nat
import Mathlib.Data.List.Range

/-!
# Records in a shared buffer

A buffer is the content of memory from a base address on.  `widen` replaces packed records of one
size by wider ones in the same place, the last record first.
-/

namespace Bytes

variable {β : Type}

/-- The cells at the offsets from a base address. -/
abbrev Buffer (β : Type) := Nat → β

/-- The `len` cells at `off`. -/
def read (m : Buffer β) (off len : Nat) : List β := (List.range len).map fun j => m (off + j)

/-- Store `xs` at `off`. -/
def write (m : Buffer β) (off : Nat) (xs : List β) : Buffer β := fun k =>
  if h : off ≤ k ∧ k - off < xs.length then xs.get ⟨k - off, h.2⟩ else m k

section

variable {m : Buffer β} {off off' len k : Nat} {xs : List β}

theorem write_frame (h : k < off ∨ off + xs.length ≤ k) : write m off xs k = m k := by
  rw [write, dif_neg]
  omega

@[simp] theorem length_read : (read m off len).length = len := by simp [read]

theorem read_congr {m' : Buffer β} (h : ∀ j < len, m' (off + j) = m (off + j)) :
    read m' off len = read m off len :=
  List.map_congr_left fun j hj => h j (List.mem_range.mp hj)

theorem read_write_self (m : Buffer β) (off : Nat) (xs : List β) :
    read (write m off xs) off xs.length = xs := by
  apply List.ext_getElem (by simp)
  intro i _ hi
  simp [read, write, hi]

/-- A store does not disturb what lies before it or behind it. -/
theorem read_write_of_disjoint (h : off + len ≤ off' ∨ off' + xs.length ≤ off) :
    read (write m off' xs) off len = read m off len :=
  read_congr fun j hj => write_frame (by omega)

end

/-! ## Widening records in place -/

section

variable (s S : Nat) (f : List β → List β)

/-- Replace the first `n` records of size `s` by records of size `S`, the last one first. -/
def widen : Nat → Buffer β → Buffer β
  | 0, m => m
  | i + 1, m => widen i (write m (i * S) (f (read m (i * s) s)))

/-- The records that `widen` reads, in the order in which it reads them. -/
def widenReads : Nat → Buffer β → List (List β)
  | 0, _ => []
  | i + 1, m => read m (i * s) s :: widenReads i (write m (i * S) (f (read m (i * s) s)))

end

section

variable {s S : Nat} {f : List β → List β}

/-- Replacing a record leaves the records before it as they were. -/
theorem read_before (wider : s ≤ S) {i j : Nat} (hj : j < i) (m : Buffer β) (xs : List β) :
    read (write m (i * S) xs) (j * s) s = read m (j * s) s := by
  refine read_write_of_disjoint (.inl ?_)
  calc j * s + s = (j + 1) * s := (Nat.succ_mul j s).symm
    _ ≤ i * s := Nat.mul_le_mul_right s hj
    _ ≤ i * S := Nat.mul_le_mul_left i wider

/-- Nothing behind the wide records is written. -/
theorem widen_frame (size : ∀ xs, (f xs).length = S) (n : Nat) (m : Buffer β) {k : Nat}
    (hk : n * S ≤ k) : widen s S f n m k = m k := by
  induction n generalizing m with
  | zero => rfl
  | succ i ih =>
    rw [Nat.succ_mul] at hk
    rw [widen, ih _ (by omega), write_frame (.inr (by rw [size]; exact hk))]

/-- Each wide record is made from the packed record that was there at the beginning. -/
theorem read_widen (wider : s ≤ S) (size : ∀ xs, (f xs).length = S) (n : Nat) (m : Buffer β)
    {i : Nat} (hi : i < n) : read (widen s S f n m) (i * S) S = f (read m (i * s) s) := by
  induction n generalizing m with
  | zero => omega
  | succ n ih =>
    rw [widen]
    rcases Nat.lt_succ_iff_lt_or_eq.mp hi with hlt | rfl
    · rw [ih _ hlt, read_before wider hlt]
    · -- the later rounds write before the record
      calc read (widen s S f i _) (i * S) S
          = read (write m (i * S) (f (read m (i * s) s))) (i * S) S :=
            read_congr fun j _ => widen_frame size i _ (by omega)
        _ = f (read m (i * s) s) := by
            have h := read_write_self m (i * S) (f (read m (i * s) s))
            rwa [size] at h

/-- No packed record is overwritten before it is read. -/
theorem widenReads_eq (wider : s ≤ S) (n : Nat) (m : Buffer β) :
    widenReads s S f n m = (List.range n).reverse.map fun i => read m (i * s) s := by
  induction n generalizing m with
  | zero => rfl
  | succ n ih =>
    rw [widenReads, ih, List.range_succ, List.reverse_append, List.reverse_singleton,
      List.singleton_append, List.map_cons]
    congr 1
    refine List.map_congr_left fun i hi => read_before wider ?_ m _
    simpa using hi

end

/-! ## Little-endian integers -/

/-- The `w` bytes of an integer. -/
def leBytes : Nat → Nat → List UInt8
  | 0, _ => []
  | w + 1, v => UInt8.ofNat v :: leBytes w (v / 256)

def leValue : List UInt8 → Nat
  | [] => 0
  | b :: bs => b.toNat + 256 * leValue bs

@[simp] theorem length_leBytes (w v : Nat) : (leBytes w v).length = w := by
  induction w generalizing v with
  | zero => rfl
  | succ w ih => rw [leBytes, List.length_cons, ih]

theorem leValue_leBytes (w v : Nat) : leValue (leBytes w v) = v % 256 ^ w := by
  induction w generalizing v with
  | zero => rw [leBytes, leValue, Nat.pow_zero, Nat.mod_one]
  | succ w ih =>
    have hsplit : v % (256 * 256 ^ w) = v % 256 + 256 * (v / 256 % 256 ^ w) := Nat.mod_mul
    rw [← Nat.pow_succ'] at hsplit
    rw [leBytes, leValue, ih, UInt8.toNat_ofNat', hsplit]

end Bytes
