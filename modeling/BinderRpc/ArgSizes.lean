import BinderRpc.Lib.Accumulator
import BinderRpc.Model.Marshal

/-!
The size exec_args allocates for its argument table. Every summand is a `size_t`,
and every sum is narrowed to the `int` it is kept in, so the size is the sum of
the elements' sizes as long as that is an `int`.
-/

namespace BinderRpc.ArgSizes

open Text Signature Marshal Accumulator

/-- Elements times their width, with a terminator behind a char array. -/
def argBytes (a : Args) : Int :=
  match a.kind with
  | none => 0
  | some .char => if a.arrLength = 0 then 1 else a.arrLength + 1
  | some kind => if a.arrLength = 0 then kind.size else a.arrLength * kind.size

def totalBytes (argInfo : List Args) : Int := (argInfo.map argBytes).sum

theorem setWidth_ofInt (x : Int) : (BitVec.ofInt 64 x).setWidth 32 = BitVec.ofInt 32 x := by
  apply BitVec.eq_of_toNat_eq
  rw [BitVec.toNat_setWidth, BitVec.toNat_ofInt, BitVec.toNat_ofInt]
  omega

theorem argSize_narrowed (a : Args) : (argSize a).setWidth 32 = BitVec.ofInt 32 (argBytes a) := by
  rw [argSize, argBytes]
  cases a.kind with
  | none => rfl
  | some kind =>
      cases kind with
      | char =>
          by_cases scalar : a.arrLength = 0
          · simp only [if_pos scalar]
            rfl
          · simp only [if_neg scalar]
            rw [setWidth_ofInt, BitVec.ofInt_toInt]
      | _ =>
          by_cases scalar : a.arrLength = 0
          · simp only [if_pos scalar]
            rfl
          · simp only [if_neg scalar]
            rw [BitVec.setWidth_mul _ _ (by decide), setWidth_ofInt, BitVec.ofInt_mul]
            rfl

theorem sizeStep_eq (size : CInt) (a : Args) :
    ((size.signExtend 64) + argSize a).setWidth 32 = size + BitVec.ofInt 32 (argBytes a) := by
  rw [BitVec.setWidth_add _ _ (by decide), argSize_narrowed, BitVec.signExtend, setWidth_ofInt,
    BitVec.ofInt_toInt]

theorem calculateArgSize_eq (argInfo : List Args) :
    calculateArgSize argInfo = accumulate 32 (argInfo.map argBytes) := by
  rw [calculateArgSize, accumulate, List.foldl_map]
  simp only [sizeStep_eq]

theorem calculateArgSize_toInt (argInfo : List Args) :
    (calculateArgSize argInfo).toInt = (totalBytes argInfo).bmod (2 ^ 32) := by
  rw [calculateArgSize_eq, accumulate_eq, BitVec.toInt_ofInt]
  rfl

theorem argBytes_nonneg (a : Args) (nonneg : 0 ≤ a.arrLength) : 0 ≤ argBytes a := by
  have width : ∀ kind : Kind, 0 ≤ (if a.arrLength = 0 then (kind.size : Int) else a.arrLength * kind.size) := by
    intro kind
    split
    · omega
    · exact Int.mul_nonneg nonneg (Int.natCast_nonneg _)
  rw [argBytes]
  cases a.kind with
  | none => exact Int.le_refl 0
  | some kind =>
      cases kind with
      | char =>
          simp only
          split <;> omega
      | _ => exact width _

theorem terms_nonneg (argInfo : List Args) (nonneg : ∀ a ∈ argInfo, 0 ≤ a.arrLength) :
    ∀ bytes ∈ argInfo.map argBytes, 0 ≤ bytes := by
  intro bytes member
  obtain ⟨a, inside, rfl⟩ := List.mem_map.mp member
  exact argBytes_nonneg a (nonneg a inside)

theorem totalBytes_nonneg (argInfo : List Args) (nonneg : ∀ a ∈ argInfo, 0 ≤ a.arrLength) :
    0 ≤ totalBytes argInfo :=
  List.sum_nonneg (terms_nonneg argInfo nonneg)

/-- The size after so many arguments, the one passed to malloc among them, and the
length of a char array with its terminator are what they would be without a limit. -/
structure SizesExact (argInfo : List Args) : Prop where
  steps : ∀ k, (calculateArgSize (argInfo.take k)).toInt = totalBytes (argInfo.take k)
  terminated : ∀ a ∈ argInfo, a.kind = some .char → a.arrLength ≠ 0 →
    (BitVec.ofInt 32 (a.arrLength + 1)).toInt = a.arrLength + 1
  allocated : 0 ≤ (calculateArgSize argInfo).toInt

theorem argBytes_le (argInfo : List Args) (nonneg : ∀ a ∈ argInfo, 0 ≤ a.arrLength) (a : Args)
    (member : a ∈ argInfo) : argBytes a ≤ totalBytes argInfo :=
  List.single_le_sum (terms_nonneg argInfo nonneg) _ (List.mem_map_of_mem member)

theorem sizes_exact_iff (argInfo : List Args) (nonneg : ∀ a ∈ argInfo, 0 ≤ a.arrLength) :
    SizesExact argInfo ↔ totalBytes argInfo < 2 ^ 31 := by
  have exact := exact_iff 32 (by decide) (argInfo.map argBytes) (terms_nonneg argInfo nonneg)
  simp only [← List.map_take, ← calculateArgSize_eq] at exact
  constructor
  · intro sizes
    exact exact.mp sizes.steps
  · intro fits
    have steps := exact.mpr fits
    refine ⟨steps, ?_, ?_⟩
    · intro a member char array
      have bytes : argBytes a = a.arrLength + 1 := by
        rw [argBytes, char]
        exact if_neg array
      have small := argBytes_le argInfo nonneg a member
      have low := nonneg a member
      exact BitVec.toInt_ofInt_eq_self (by decide) (by omega) (by omega)
    · have last := steps argInfo.length
      rw [List.take_length] at last
      rw [last]
      exact totalBytes_nonneg argInfo nonneg

theorem chars_double_exact : SizesExact [⟨1, 0, 1, 5⟩, ⟨1, 0, 5, 0⟩] := by
  refine (sizes_exact_iff _ ?_).mpr (by decide)
  intro a member
  simp only [List.mem_cons, List.not_mem_nil, or_false] at member
  rcases member with rfl | rfl <;> decide

def hugeKey : Bytes := [102, 124, 49, 124, 49, 124, 48, 124, 51, 124, 53, 51, 54, 56, 55, 48, 57, 49, 50]

theorem huge_array_negative :
    parseKey hugeKey = .ok ⟨[102], 1, [⟨1, 0, 3, 536870912⟩]⟩ ∧
      (calculateArgSize [⟨1, 0, 3, 536870912⟩]).toInt = -2147483648 ∧
      ¬ SizesExact [⟨1, 0, 3, 536870912⟩] := by
  have negative : (calculateArgSize [⟨1, 0, 3, 536870912⟩]).toInt = -2147483648 := by decide
  refine ⟨by rfl, negative, fun sizes => ?_⟩
  have allocated := sizes.allocated
  rw [negative] at allocated
  exact absurd allocated (by decide)

end BinderRpc.ArgSizes
