import Mathlib.Tactic.Ring
import Mathlib.Tactic.Linarith

/-!
Fixed-width little-endian words over byte lists. `leBytes` and `leNat` are
inverse up to the width, `twos` and `signed` read the same bytes as a
two's complement integer, and `wordBytes`/`wordOf` are the network-order
form of a 32-bit word. Nothing here knows which program the bytes belong to.
-/

namespace BinderRpc.Octets

def leBytes : Nat → Nat → List UInt8
  | 0, _ => []
  | width + 1, n => UInt8.ofNat n :: leBytes width (n / 256)

def leNat : List UInt8 → Nat
  | [] => 0
  | byte :: rest => byte.toNat + 256 * leNat rest

@[simp] theorem length_leBytes (width n : Nat) : (leBytes width n).length = width := by
  induction width generalizing n with
  | zero => rfl
  | succ width ih => simp [leBytes, ih]

theorem leNat_lt (bytes : List UInt8) : leNat bytes < 256 ^ bytes.length := by
  induction bytes with
  | nil => simp [leNat]
  | cons byte rest ih =>
      have small : byte.toNat < 256 := UInt8.toNat_lt byte
      simp only [leNat, List.length_cons, Nat.pow_succ]
      omega

theorem leNat_append (low high : List UInt8) :
    leNat (low ++ high) = leNat low + 256 ^ low.length * leNat high := by
  induction low with
  | nil => simp [leNat]
  | cons byte rest ih =>
      simp only [List.cons_append, leNat, ih, List.length_cons, Nat.pow_succ]
      ring

theorem leNat_cleared_le (low high : List UInt8) :
    leNat (List.replicate low.length 0 ++ high) ≤ leNat (low ++ high) := by
  have none : ∀ count, leNat (List.replicate count 0) = 0 := by
    intro count
    induction count with
    | zero => rfl
    | succ count ih => simp [List.replicate_succ, leNat, ih]
  rw [leNat_append, leNat_append, none, List.length_replicate]
  omega

theorem leNat_leBytes (width n : Nat) : leNat (leBytes width n) = n % 256 ^ width := by
  induction width generalizing n with
  | zero => simp [leBytes, leNat, Nat.mod_one]
  | succ width ih =>
      have head : (UInt8.ofNat n).toNat = n % 256 := UInt8.toNat_ofNat
      rw [leBytes, leNat, ih, head, Nat.pow_succ, Nat.mul_comm (256 ^ width) 256,
        Nat.mod_mul]

theorem leBytes_leNat (bytes : List UInt8) : leBytes bytes.length (leNat bytes) = bytes := by
  induction bytes with
  | nil => rfl
  | cons byte rest ih =>
      have small : byte.toNat < 256 := UInt8.toNat_lt byte
      have quotient : (byte.toNat + 256 * leNat rest) / 256 = leNat rest := by omega
      have low : UInt8.ofNat (byte.toNat + 256 * leNat rest) = byte := by
        apply UInt8.toNat_inj.mp
        rw [UInt8.toNat_ofNat']
        omega
      simp only [List.length_cons, leNat, leBytes, quotient, low, ih]

theorem take_leBytes (low high n : Nat) (within : low ≤ high) :
    (leBytes high n).take low = leBytes low n := by
  induction low generalizing high n with
  | zero => simp [leBytes]
  | succ low ih =>
      cases high with
      | zero => omega
      | succ high => simp [leBytes, ih high (n / 256) (by omega)]

theorem leBytes_mod (width n : Nat) : leBytes width (n % 256 ^ width) = leBytes width n := by
  have back := leBytes_leNat (leBytes width n)
  rwa [length_leBytes, leNat_leBytes] at back

/-! Two's complement reading of a little-endian object. -/

def twos (width : Nat) (value : Int) : List UInt8 :=
  leBytes width (value % (256 ^ width : Nat)).toNat

def signed (bytes : List UInt8) : Int :=
  (leNat bytes : Int).bmod (256 ^ bytes.length)

theorem twos_signed (bytes : List UInt8) : twos bytes.length (signed bytes) = bytes := by
  have residue : signed bytes % (256 ^ bytes.length : Nat) = (leNat bytes : Int) := by
    rw [signed, Int.bmod_emod]
    exact Int.emod_eq_of_lt (by omega) (by exact_mod_cast leNat_lt bytes)
  rw [twos, residue, Int.toNat_natCast, leBytes_leNat]

theorem take_twos (low high : Nat) (value : Int) (within : low ≤ high) :
    (twos high value).take low = twos low value := by
  rw [twos, take_leBytes low high _ within, ← leBytes_mod low, twos]
  congr 1
  have divides : ((256 ^ low : Nat) : Int) ∣ ((256 ^ high : Nat) : Int) := by
    exact_mod_cast Nat.pow_dvd_pow 256 within
  have wide : 0 ≤ value % (256 ^ high : Nat) := Int.emod_nonneg _ (by positivity)
  have narrow : 0 ≤ value % (256 ^ low : Nat) := Int.emod_nonneg _ (by positivity)
  have same := Int.emod_emod_of_dvd value divides
  apply Int.ofNat.inj
  change (((value % (256 ^ high : Nat)).toNat % 256 ^ low : Nat) : Int) =
    ((value % (256 ^ low : Nat)).toNat : Int)
  rw [Int.natCast_emod, Int.toNat_of_nonneg wide, Int.toNat_of_nonneg narrow]
  exact same

theorem signed_bounds (bytes : List UInt8) (half : Nat)
    (width : 256 ^ bytes.length = 2 * half) :
    -(half : Int) ≤ signed bytes ∧ signed bytes < half := by
  have positive : 0 < 256 ^ bytes.length := by positivity
  have lower := Int.le_bmod (x := (leNat bytes : Int)) positive
  have upper := Int.bmod_lt (x := (leNat bytes : Int)) positive
  simp only [signed, width] at *
  push_cast at *
  omega

/-! A 32-bit word in network order. -/

def wordBytes (word : BitVec 32) : List UInt8 := (leBytes 4 word.toNat).reverse

def wordOf (bytes : List UInt8) : BitVec 32 := BitVec.ofNat 32 (leNat bytes.reverse)

@[simp] theorem length_wordBytes (word : BitVec 32) : (wordBytes word).length = 4 := by
  simp [wordBytes]

@[simp] theorem wordOf_wordBytes (word : BitVec 32) : wordOf (wordBytes word) = word := by
  have small : word.toNat < 256 ^ 4 := word.isLt
  rw [wordOf, wordBytes, List.reverse_reverse, leNat_leBytes, Nat.mod_eq_of_lt small,
    BitVec.ofNat_toNat, BitVec.setWidth_eq]

end BinderRpc.Octets
