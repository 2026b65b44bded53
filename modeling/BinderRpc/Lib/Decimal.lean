import Mathlib.Data.List.TakeWhile
import Mathlib.Tactic.Linarith
import Mathlib.Tactic.Ring

/-!
Decimal text of an integer as bytes, and the prefix reader of the C library
family `strtol`: leading blanks, one optional sign, then the longest run of
digits. `readInt_decimal` is the round trip; the remaining lemmas say which
bytes a decimal text can hold and how long it can be.
-/

namespace BinderRpc.Decimal

def minus : UInt8 := 45
def plus : UInt8 := 43

def isSpace (byte : UInt8) : Bool := byte == 32 || (9 ≤ byte && byte ≤ 13)

def isDigit (byte : UInt8) : Bool := 48 ≤ byte && byte ≤ 57

def digitText (n : Nat) : List UInt8 := (Nat.toDigits 10 n).map Char.toUInt8

def decimal (value : Int) : List UInt8 :=
  if value < 0 then minus :: digitText value.natAbs else digitText value.natAbs

def digitValue (digits : List UInt8) : Nat :=
  digits.foldl (fun acc byte => 10 * acc + (byte.toNat - 48)) 0

def readDigits (text : List UInt8) : Option Nat :=
  let digits := text.takeWhile isDigit
  if digits = [] then none else some (digitValue digits)

def readInt (text : List UInt8) : Option Int :=
  let body := text.dropWhile isSpace
  if body.head? = some minus then (readDigits body.tail).map fun n => -(n : Int)
  else if body.head? = some plus then (readDigits body.tail).map fun n => (n : Int)
  else (readDigits body).map fun n => (n : Int)

theorem digit_char_bounds (c : Char) (digit : c.isDigit = true) :
    48 ≤ c.toNat ∧ c.toNat ≤ 57 := by
  simp only [Char.isDigit, Bool.and_eq_true, decide_eq_true_eq, UInt32.le_iff_toNat_le] at digit
  exact digit

theorem digit_byte (c : Char) (digit : c.isDigit = true) : c.toUInt8.toNat = c.toNat := by
  have bounds := digit_char_bounds c digit
  simp only [Char.toUInt8, UInt32.toNat_toUInt8]
  change c.toNat % 256 = c.toNat
  omega

theorem isDigit_iff (byte : UInt8) :
    isDigit byte = true ↔ 48 ≤ byte.toNat ∧ byte.toNat ≤ 57 := by
  simp [isDigit, UInt8.le_iff_toNat_le]

theorem digitText_digits (n : Nat) (byte : UInt8) (member : byte ∈ digitText n) :
    isDigit byte = true := by
  obtain ⟨c, inside, rfl⟩ := List.mem_map.mp member
  have digit := Nat.isDigit_of_mem_toDigits (by decide) (by decide) inside
  rw [isDigit_iff, digit_byte c digit]
  exact digit_char_bounds c digit

theorem digitText_ne_nil (n : Nat) : digitText n ≠ [] := by
  simp [digitText, Nat.toDigits_ne_nil]

theorem digitValue_map (digits : List Char) (all : ∀ c ∈ digits, c.isDigit = true) (acc : Nat) :
    (digits.map Char.toUInt8).foldl (fun acc byte => 10 * acc + (byte.toNat - 48)) acc =
      Nat.ofDigitChars 10 digits acc := by
  induction digits generalizing acc with
  | nil => rfl
  | cons c rest ih =>
      have head := digit_byte c (all c List.mem_cons_self)
      rw [List.map_cons, List.foldl_cons, head, ih (fun d member => all d (List.mem_cons_of_mem c member))]
      rfl

theorem digitValue_digitText (n : Nat) : digitValue (digitText n) = n := by
  rw [digitValue, digitText, digitValue_map _ (fun c member =>
    Nat.isDigit_of_mem_toDigits (by decide) (by decide) member)]
  exact Nat.ofDigitChars_ten_toDigits

theorem readDigits_digitText (n : Nat) : readDigits (digitText n) = some n := by
  have whole : (digitText n).takeWhile isDigit = digitText n :=
    List.takeWhile_eq_self_iff.mpr (digitText_digits n)
  simp [readDigits, whole, digitText_ne_nil, digitValue_digitText]

theorem digitText_cons (n : Nat) :
    ∃ byte rest, digitText n = byte :: rest ∧ isDigit byte = true := by
  cases text : digitText n with
  | nil => exact absurd text (digitText_ne_nil n)
  | cons byte rest => exact ⟨byte, rest, rfl, digitText_digits n byte (by simp [text])⟩

theorem digit_not_special (byte : UInt8) (digit : isDigit byte = true) :
    isSpace byte = false ∧ byte ≠ minus ∧ byte ≠ plus := by
  have bounds := (isDigit_iff byte).mp digit
  refine ⟨?_, ?_, ?_⟩
  · simp only [isSpace, Bool.or_eq_false_iff, Bool.and_eq_false_iff, decide_eq_false_iff_not,
      UInt8.le_iff_toNat_le, beq_eq_false_iff_ne]
    refine ⟨?_, Or.inr ?_⟩
    · rintro rfl
      exact absurd bounds.1 (by decide)
    · have limit : (13 : UInt8).toNat = 13 := rfl
      omega
  · rintro rfl
    exact absurd bounds.1 (by decide)
  · rintro rfl
    exact absurd bounds.1 (by decide)

theorem readInt_decimal (value : Int) : readInt (decimal value) = some value := by
  unfold decimal
  split
  case isTrue negative =>
    have kept : (minus :: digitText value.natAbs).dropWhile isSpace =
        minus :: digitText value.natAbs := by
      simp [show isSpace minus = false by decide]
    have magnitude : -(value.natAbs : Int) = value := by omega
    simp only [readInt, kept, List.head?_cons, List.tail_cons, readDigits_digitText, if_true]
    exact congrArg some magnitude
  case isFalse positive =>
    obtain ⟨byte, rest, text, digit⟩ := digitText_cons value.natAbs
    obtain ⟨space, notMinus, notPlus⟩ := digit_not_special byte digit
    have kept : (digitText value.natAbs).dropWhile isSpace = digitText value.natAbs := by
      simp [text, space]
    have first : (digitText value.natAbs).head? = some byte := by simp [text]
    have magnitude : (value.natAbs : Int) = value := by omega
    simp [readInt, kept, first, notMinus, notPlus, readDigits_digitText, magnitude]

theorem decimal_injective : Function.Injective decimal := by
  intro left right same
  have read := congrArg readInt same
  rw [readInt_decimal, readInt_decimal] at read
  exact Option.some.inj read

theorem decimal_ne_nil (value : Int) : decimal value ≠ [] := by
  unfold decimal
  split
  · simp
  · exact digitText_ne_nil _

theorem mem_decimal (value : Int) (byte : UInt8) (member : byte ∈ decimal value) :
    byte = minus ∨ isDigit byte = true := by
  unfold decimal at member
  split at member
  · rcases List.mem_cons.mp member with sign | digit
    · exact Or.inl sign
    · exact Or.inr (digitText_digits _ byte digit)
  · exact Or.inr (digitText_digits _ byte member)

end BinderRpc.Decimal
