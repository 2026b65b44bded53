import Mathlib.Data.List.TakeWhile
import BinderRpc.Lib.Decimal

/-!
Byte strings and the text helpers of helpers.cpp. A `std::string` is its list
of bytes, embedded NULs included; a C string stops at its first NUL. Where the
C++ program has no defined continuation the model stops with a `Fault`:
an access outside an object, an exception nobody catches, a length that does
not fit the `int` it is stored in.
-/

namespace BinderRpc

inductive Fault where
  /-- An element of a vector or a byte of a buffer past its end. -/
  | badIndex
  /-- `stoi`, `stol`, `stod` or `stof` threw. -/
  | badConversion
  /-- A length or position that is not an `int`, or a negative array size. -/
  | badSize
  /-- `substr` past the end of the string. -/
  | badPosition
  /-- A pointer that no code has set. -/
  | dangling
  /-- An address that was not allocated is freed. -/
  | badFree
  /-- A C string without a terminator. -/
  | unterminated
  /-- A loop that does not end. -/
  | diverges
  /-- Control reached the end of a function that returns a value. -/
  | noReturn
  deriving DecidableEq, Repr

abbrev Bytes := List UInt8

/-- A C `int` that crosses the wire or is compared with a constant. -/
abbrev CInt := BitVec 32

namespace Text

open Decimal

def bar : UInt8 := 124

def cText (bytes : Bytes) : Bytes := bytes.takeWhile (· ≠ 0)

/-- A `size_t` stored in an `int`. Lengths from 2^31 on have no defined value. -/
def intOfSize (n : Nat) : Except Fault Nat :=
  if n < 2 ^ 31 then .ok n else .error .badSize

def toStri (i : Int) : Bytes := decimal i

def stoi (text : Bytes) : Except Fault Int :=
  match readInt (cText text) with
  | none => .error .badConversion
  | some value =>
      if -(2 ^ 31) ≤ value ∧ value < 2 ^ 31 then .ok value else .error .badConversion

def stol (text : Bytes) : Except Fault Int :=
  match readInt (cText text) with
  | none => .error .badConversion
  | some value =>
      if -(2 ^ 63) ≤ value ∧ value < 2 ^ 63 then .ok value else .error .badConversion

/-- `strtol`, which answers 0 where `stoi` throws for want of a digit and stops at the
ends of `long`, narrowed to `int`. -/
def atoi (text : Bytes) : CInt :=
  BitVec.ofInt 32 (max (-(2 ^ 63)) (min ((readInt (cText text)).getD 0) (2 ^ 63 - 1)))

theorem nul_not_in_cText (bytes : Bytes) : 0 ∉ cText bytes := by
  intro member
  have nonzero := List.mem_takeWhile_imp member
  simp at nonzero

theorem cText_eq_self (bytes : Bytes) (free : 0 ∉ bytes) : cText bytes = bytes := by
  apply List.takeWhile_eq_self_iff.mpr
  intro byte member
  have nonzero : byte ≠ 0 := ne_of_mem_of_not_mem member free
  simpa using nonzero

theorem nul_not_in_decimal (value : Int) : (0 : UInt8) ∉ decimal value := by
  intro member
  rcases mem_decimal value 0 member with sign | digit
  · exact absurd sign (by decide)
  · exact absurd digit (by decide)

theorem bar_not_in_decimal (value : Int) : bar ∉ decimal value := by
  intro member
  rcases mem_decimal value bar member with sign | digit
  · exact absurd sign (by decide)
  · exact absurd digit (by decide)

theorem stoi_toStri (value : Int) (low : -(2 ^ 31) ≤ value) (high : value < 2 ^ 31) :
    stoi (toStri value) = .ok value := by
  rw [stoi, toStri, cText_eq_self _ (nul_not_in_decimal value), readInt_decimal]
  exact if_pos ⟨low, high⟩

theorem stol_toStri (value : Int) (low : -(2 ^ 63) ≤ value) (high : value < 2 ^ 63) :
    stol (toStri value) = .ok value := by
  rw [stol, toStri, cText_eq_self _ (nul_not_in_decimal value), readInt_decimal]
  exact if_pos ⟨low, high⟩

/-! `split`. `std::string::find` answers a `size_t`; the code keeps it in the
`int` `end` and compares that with `string::npos`. -/

def npos : Nat := 2 ^ 64 - 1

def find (text : Bytes) (sep : UInt8) (start : Nat) : Option Nat :=
  ((text.drop start).findIdx? (· == sep)).map (· + start)

/-- The `int` that holds the search result: `npos` narrows to -1. -/
def endOf : Option Nat → Except Fault Int
  | none => .ok (-1)
  | some position => (intOfSize position).map Int.ofNat

/-- The `size_t` an `int` becomes when it is compared with `npos`. -/
def sizeOfInt (i : Int) : Nat := (i % 2 ^ 64).toNat

/-- `substr`; without a count it runs to the end of the string. -/
def substr (text : Bytes) (start : Nat) (count : Option Nat) : Except Fault Bytes :=
  if start ≤ text.length then
    .ok ((text.drop start).take (count.getD text.length))
  else .error .badPosition

def splitLoop (text : Bytes) (sep : UInt8) : Nat → Nat → Except Fault (List Bytes)
  | 0, _ => .error .diverges
  | fuel + 1, start => do
      let stop ← endOf (find text sep start)
      if sizeOfInt stop = npos then
        let token ← substr text start none
        return [token]
      else
        let token ← substr text start (some (stop - start).toNat)
        let next ← intOfSize (stop + 1).toNat
        let rest ← splitLoop text sep fuel next
        return token :: rest

def split (text : Bytes) (sep : UInt8) : Except Fault (List Bytes) :=
  splitLoop text sep (text.length + 1) 0

/-- Every separator from `start` on lies where an `int` holds the position
after it. -/
def SplittableFrom (text : Bytes) (sep : UInt8) (start : Nat) : Prop :=
  ∀ position, start ≤ position → text[position]? = some sep → position + 1 < 2 ^ 31

def Splittable (text : Bytes) (sep : UInt8) : Prop := SplittableFrom text sep 0

theorem find_none (text : Bytes) (sep : UInt8) (start : Nat)
    (missing : find text sep start = none) : sep ∉ text.drop start := by
  simp only [find, Option.map_eq_none_iff, List.findIdx?_eq_none_iff, beq_eq_false_iff_ne] at missing
  exact fun member => missing sep member rfl

/-- A hit is the first separator: the text from `start` is a separator-free
token, the separator, and what follows it. -/
theorem find_some (text : Bytes) (sep : UInt8) (start position : Nat)
    (hit : find text sep start = some position) :
    start ≤ position ∧ text[position]? = some sep ∧
      sep ∉ (text.drop start).take (position - start) ∧
      text.drop start = (text.drop start).take (position - start) ++ sep :: text.drop (position + 1) := by
  simp only [find, Option.map_eq_some_iff, List.findIdx?_eq_some_iff_getElem] at hit
  obtain ⟨offset, ⟨inside, here, before⟩, rfl⟩ := hit
  have found : (text.drop start)[offset] = sep := by simpa using here
  have whole : text[offset + start]? = some sep := by
    have := List.getElem?_eq_getElem inside
    rw [found, List.getElem?_drop, Nat.add_comm] at this
    exact this
  refine ⟨by omega, whole, ?_, ?_⟩
  · intro member
    obtain ⟨index, bound, same⟩ := List.mem_iff_getElem.mp member
    simp only [List.length_take, Nat.add_sub_cancel] at bound
    have earlier := before index (by omega)
    simp only [List.getElem_take] at same
    simp [same] at earlier
  · have cut := (List.take_append_drop offset (text.drop start)).symm
    rw [List.drop_eq_getElem_cons inside, found, List.drop_drop] at cut
    rw [Nat.add_sub_cancel]
    rw [show offset + start + 1 = start + (offset + 1) by omega]
    exact cut

theorem sizeOfInt_ofNat (n : Nat) (small : n < 2 ^ 31) : sizeOfInt (n : Int) ≠ npos := by
  simp only [sizeOfInt, npos]
  omega

/-! One turn of the loop, by what the search answers. -/

theorem splitLoop_last (text : Bytes) (sep : UInt8) (fuel start : Nat)
    (within : start ≤ text.length) (missing : find text sep start = none) :
    splitLoop text sep (fuel + 1) start = .ok [text.drop start] := by
  have whole : (text.drop start).take text.length = text.drop start :=
    List.take_of_length_le (by simp)
  simp [splitLoop, missing, endOf, sizeOfInt, npos, substr, within, whole, bind, Except.bind,
    pure, Except.pure]

theorem splitLoop_next (text : Bytes) (sep : UInt8) (fuel start position : Nat)
    (within : start ≤ text.length) (hit : find text sep start = some position)
    (later : start ≤ position) (fits : position + 1 < 2 ^ 31) :
    splitLoop text sep (fuel + 1) start =
      (splitLoop text sep fuel (position + 1)).map
        ((text.drop start).take (position - start) :: ·) := by
  have low : position < 2 ^ 31 := by omega
  have span : ((position : Int) - (start : Int)).toNat = position - start := by omega
  simp only [splitLoop, hit, endOf, intOfSize, low, if_true, Except.map, Int.ofNat_eq_natCast,
    bind, Except.bind, sizeOfInt_ofNat position low, if_false, substr, within, span,
    Option.getD_some, Int.toNat_natCast_add_one, fits, pure, Except.pure]

theorem splitLoop_wide (text : Bytes) (sep : UInt8) (fuel start position : Nat)
    (within : start ≤ text.length) (hit : find text sep start = some position)
    (wide : ¬ position + 1 < 2 ^ 31) :
    splitLoop text sep (fuel + 1) start = .error .badSize := by
  by_cases low : position < 2 ^ 31
  · simp only [splitLoop, hit, endOf, intOfSize, low, if_true, Except.map, Int.ofNat_eq_natCast,
      bind, Except.bind, sizeOfInt_ofNat position low, if_false, substr, within,
      Option.getD_some, Int.toNat_natCast_add_one, wide]
  · simp only [splitLoop, hit, endOf, intOfSize, low, if_false, Except.map, bind, Except.bind]

theorem splittableFrom_step (text : Bytes) (sep : UInt8) (start position : Nat)
    (later : start ≤ position) (fits : position + 1 < 2 ^ 31) :
    SplittableFrom text sep start ↔ SplittableFrom text sep (position + 1) := by
  constructor
  · exact fun all q after at_q => all q (by omega) at_q
  · intro all q after at_q
    by_cases beyond : position + 1 ≤ q
    · exact all q beyond at_q
    · omega

/-- The loop from `start`: the tokens of the remaining text, or a position
that does not fit `end`. -/
theorem splitLoop_eq (text : Bytes) (sep : UInt8) (fuel start : Nat)
    (enough : text.length < fuel + start) (within : start ≤ text.length) :
    (SplittableFrom text sep start →
      splitLoop text sep fuel start = .ok ((text.drop start).splitOn sep)) ∧
    (¬ SplittableFrom text sep start → splitLoop text sep fuel start = .error .badSize) := by
  induction fuel generalizing start with
  | zero => omega
  | succ fuel ih =>
      cases hit : find text sep start with
      | none =>
          have absent := find_none text sep start hit
          rw [splitLoop_last text sep fuel start within hit, List.splitOn_eq_singleton absent]
          refine ⟨fun _ => rfl, fun failed => absurd ?_ failed⟩
          intro position later here
          refine absurd (List.mem_iff_getElem?.mpr ⟨position - start, ?_⟩) absent
          rw [List.getElem?_drop, Nat.add_sub_cancel' later]
          exact here
      | some position =>
          obtain ⟨later, here, free, cut⟩ := find_some text sep start position hit
          have inside : position < text.length := (List.getElem?_eq_some_iff.mp here).1
          by_cases fits : position + 1 < 2 ^ 31
          · have tail := ih (position + 1) (by omega) (by omega)
            have tokens : (text.drop start).splitOn sep =
                (text.drop start).take (position - start) :: (text.drop (position + 1)).splitOn sep := by
              conv_lhs => rw [cut]
              exact List.splitOn_append_cons_self_of_not_mem free _
            rw [splitLoop_next text sep fuel start position within hit later fits, tokens,
              splittableFrom_step text sep start position later fits]
            constructor
            · intro all
              rw [tail.1 all]
              rfl
            · intro failed
              rw [tail.2 failed, Except.map]
          · rw [splitLoop_wide text sep fuel start position within hit fits]
            exact ⟨fun all => absurd (all position later here) fits, fun _ => rfl⟩

theorem split_ok (text : Bytes) (sep : UInt8) (fits : Splittable text sep) :
    split text sep = .ok (text.splitOn sep) :=
  (splitLoop_eq text sep (text.length + 1) 0 (by omega) (Nat.zero_le _)).1 fits

theorem split_error (text : Bytes) (sep : UInt8) (wide : ¬ Splittable text sep) :
    split text sep = .error .badSize :=
  (splitLoop_eq text sep (text.length + 1) 0 (by omega) (Nat.zero_le _)).2 wide

theorem splittable_of_length (text : Bytes) (sep : UInt8) (short : text.length < 2 ^ 31) :
    Splittable text sep := by
  intro position _ here
  have inside : position < text.length := (List.getElem?_eq_some_iff.mp here).1
  omega

end Text
end BinderRpc
