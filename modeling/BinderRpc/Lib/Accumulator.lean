import Mathlib.Algebra.BigOperators.Group.List.Basic
import Mathlib.Algebra.Order.BigOperators.Group.List
import Mathlib.Algebra.Ring.Int.Defs
import Mathlib.Tactic.Common

/-!
Sums kept in a register of fixed width. The register holds the sum modulo its
range, and for terms that are not negative every sum on the way is exact exactly
when the last one fits.
-/

namespace BinderRpc.Accumulator

variable (w : Nat)

def accumulate (terms : List Int) : BitVec w :=
  terms.foldl (fun sum term => sum + BitVec.ofInt w term) 0

theorem foldl_ofInt (terms : List Int) (start : Int) :
    terms.foldl (fun sum term => sum + BitVec.ofInt w term) (BitVec.ofInt w start) =
      BitVec.ofInt w (start + terms.sum) := by
  induction terms generalizing start with
  | nil => simp
  | cons term rest ih =>
      rw [List.foldl_cons, ← BitVec.ofInt_add, ih, List.sum_cons, Int.add_assoc]

theorem accumulate_eq (terms : List Int) : accumulate w terms = BitVec.ofInt w terms.sum := by
  have run := foldl_ofInt w terms 0
  rwa [Int.zero_add, BitVec.ofInt_ofNat] at run

theorem sum_take_bounds (terms : List Int) (nonneg : ∀ term ∈ terms, 0 ≤ term) (k : Nat) :
    0 ≤ (terms.take k).sum ∧ (terms.take k).sum ≤ terms.sum := by
  have front : 0 ≤ (terms.take k).sum :=
    List.sum_nonneg fun term member => nonneg term (List.mem_of_mem_take member)
  have back : 0 ≤ (terms.drop k).sum :=
    List.sum_nonneg fun term member => nonneg term (List.mem_of_mem_drop member)
  have whole := List.sum_take_add_sum_drop terms k
  omega

/-- No sum on the way wraps exactly when the total fits. -/
theorem exact_iff (positive : 0 < w) (terms : List Int) (nonneg : ∀ term ∈ terms, 0 ≤ term) :
    (∀ k, (accumulate w (terms.take k)).toInt = (terms.take k).sum) ↔ terms.sum < 2 ^ (w - 1) := by
  constructor
  · intro exact
    have last := exact terms.length
    rw [List.take_length] at last
    rw [← last]
    exact BitVec.toInt_lt
  · intro fits k
    obtain ⟨low, high⟩ := sum_take_bounds terms nonneg k
    have range : (0 : Int) < 2 ^ (w - 1) := Int.pow_pos (by decide)
    rw [accumulate_eq]
    exact BitVec.toInt_ofInt_eq_self positive (by omega) (by omega)

end BinderRpc.Accumulator
