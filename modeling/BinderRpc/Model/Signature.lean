import BinderRpc.Lib.Joining
import BinderRpc.Lib.Outcome
import BinderRpc.Model.Text

/-!
`Args` and `Function` of DB.cpp: the bit fields of one argument type, and the
key under which binder and servers file a procedure. The key is read back by
`parseKey`, the loop that exec_args, receive_execute_response and rpcCall
repeat.
-/

namespace BinderRpc.Signature

open Text Joining

def argChar : Int := 1
def argShort : Int := 2
def argInt : Int := 3
def argLong : Int := 4
def argDouble : Int := 5
def argFloat : Int := 6

def argInput : Nat := 31
def argOutput : Nat := 30

inductive Kind where
  | char | short | int | long | double | float
  deriving DecidableEq, Repr

def Kind.size : Kind → Nat
  | .char => 1
  | .short => 2
  | .int => 4
  | .long => 8
  | .double => 8
  | .float => 4

structure Args where
  input : Int
  output : Int
  type : Int
  arrLength : Int
  deriving DecidableEq, Repr

/-- `set_arg_types`. -/
def Args.ofType (argType : CInt) : Args where
  input := (argType.sshiftRight argInput &&& 1).toInt
  output := (argType.sshiftRight argOutput &&& 1).toInt
  type := (argType.sshiftRight 16 &&& 0xf).toInt
  arrLength := (argType &&& 0xFFFF).toInt

/-- The case of the `switch` a type code selects, none for `default`. -/
def Args.kind (a : Args) : Option Kind :=
  if a.type = argChar then some .char
  else if a.type = argShort then some .short
  else if a.type = argInt then some .int
  else if a.type = argLong then some .long
  else if a.type = argDouble then some .double
  else if a.type = argFloat then some .float
  else none

def Args.tokenCount (a : Args) : Nat := if a.arrLength = 0 then 1 else a.arrLength.toNat

def Args.fields (a : Args) : List Bytes :=
  [toStri a.input, toStri a.output, toStri a.type, toStri a.arrLength]

def Args.getArgsKey (a : Args) : Bytes :=
  toStri a.input ++ [bar] ++ toStri a.output ++ [bar] ++ toStri a.type ++ [bar] ++ toStri a.arrLength

/-- A zero-terminated `int` array, by the entries before its terminator. -/
structure ArgTypes where
  entries : List CInt
  nonzero : ∀ entry ∈ entries, entry ≠ 0

def ArgTypes.array (argTypes : ArgTypes) : List CInt := argTypes.entries ++ [0]

/-- `while (argTypes[arg_length++]);` less the terminator it also counts. -/
def scanLength (array : List CInt) : Nat := (array.takeWhile (· ≠ 0)).length

structure Function where
  name : Bytes
  argTypes : ArgTypes

def Function.argLength (f : Function) : Nat := scanLength f.argTypes.array

def Function.args (f : Function) : List Args :=
  (f.argTypes.array.take f.argLength).map Args.ofType

/-- `gen_key`; `as.substr(0, as.size()-1)` drops the last delimiter and leaves
an empty text empty. -/
def Function.getKey (f : Function) : Bytes :=
  let as := f.args.flatMap fun a => a.getArgsKey ++ [bar]
  f.name ++ [bar] ++ toStri f.argLength ++ [bar] ++ as.dropLast

/-- `operator[]` on a vector. -/
def element {α : Type} (vec : List α) (index : Nat) : Except Fault α :=
  match vec[index]? with
  | some value => .ok value
  | none => .error .badIndex

def parseArgs (keyS : List Bytes) : Nat → Nat → Except Fault (List Args)
  | 0, _ => .ok []
  | count + 1, index => do
      let input ← stoi (← element keyS index)
      let output ← stoi (← element keyS (index + 1))
      let type ← stoi (← element keyS (index + 2))
      let arrLength ← stoi (← element keyS (index + 3))
      let rest ← parseArgs keyS count (index + 4)
      return ⟨input, output, type, arrLength⟩ :: rest

structure ParsedKey where
  name : Bytes
  argLength : Int
  argInfo : List Args
  deriving DecidableEq, Repr

def parseKey (key : Bytes) : Except Fault ParsedKey := do
  let keyS ← split key bar
  let name ← element keyS 0
  let argLength ← stoi (← element keyS 1)
  let argInfo ← parseArgs keyS argLength.toNat 2
  return ⟨name, argLength, argInfo⟩

theorem masked_bounds (word mask : CInt) (small : mask.toNat < 2 ^ 31) :
    0 ≤ (word &&& mask).toInt ∧ (word &&& mask).toInt ≤ mask.toNat := by
  have below : (word &&& mask).toNat ≤ mask.toNat := by
    rw [BitVec.toNat_and]
    exact Nat.and_le_right
  rw [BitVec.toInt_eq_toNat_of_lt (by omega)]
  omega

theorem ofType_bounds (argType : CInt) :
    (0 ≤ (Args.ofType argType).input ∧ (Args.ofType argType).input ≤ 1) ∧
    (0 ≤ (Args.ofType argType).output ∧ (Args.ofType argType).output ≤ 1) ∧
    (0 ≤ (Args.ofType argType).type ∧ (Args.ofType argType).type ≤ 15) ∧
    (0 ≤ (Args.ofType argType).arrLength ∧ (Args.ofType argType).arrLength ≤ 65535) :=
  ⟨masked_bounds _ 1 (by decide), masked_bounds _ 1 (by decide),
    masked_bounds _ 0xf (by decide), masked_bounds _ 0xFFFF (by decide)⟩

theorem nonneg_types (types : List CInt) : ∀ a ∈ types.map Args.ofType, 0 ≤ a.arrLength := by
  intro a member
  obtain ⟨argType, _, rfl⟩ := List.mem_map.mp member
  exact (ofType_bounds argType).2.2.2.1

theorem tokenCount_eq (a : Args) (nonneg : 0 ≤ a.arrLength) : a.tokenCount = max 1 a.arrLength.toNat := by
  rw [Args.tokenCount]
  split <;> omega

/-- The mask hides the sign bits that an arithmetic shift brings in. -/
theorem masked_shift (word : CInt) (shift width : Nat) (within : shift + width ≤ 32)
    (narrow : width < 32) :
    (word.sshiftRight shift &&& BitVec.ofNat 32 (2 ^ width - 1)).toInt =
      (word.toNat / 2 ^ shift % 2 ^ width : Nat) := by
  have logical : word.sshiftRight shift &&& BitVec.ofNat 32 (2 ^ width - 1) =
      word >>> shift &&& BitVec.ofNat 32 (2 ^ width - 1) := by
    apply BitVec.eq_of_getLsbD_eq
    intro i inside
    simp only [BitVec.getLsbD_and, BitVec.getLsbD_sshiftRight, BitVec.getLsbD_ushiftRight,
      BitVec.getLsbD_ofNat, Nat.testBit_two_pow_sub_one]
    by_cases kept : i < width
    · have here : shift + i < 32 := by omega
      have word_bit : ¬ 32 ≤ i := by omega
      simp [here, word_bit]
    · simp [kept]
  have power : 2 ^ width ≤ 2 ^ 31 := Nat.pow_le_pow_right (by decide) (by omega)
  have mask : (BitVec.ofNat 32 (2 ^ width - 1)).toNat = 2 ^ width - 1 := by
    rw [BitVec.toNat_ofNat]
    exact Nat.mod_eq_of_lt (by omega)
  have value : (word >>> shift &&& BitVec.ofNat 32 (2 ^ width - 1)).toNat =
      word.toNat / 2 ^ shift % 2 ^ width := by
    rw [BitVec.toNat_and, mask, BitVec.toNat_ushiftRight, Nat.and_two_pow_sub_one_eq_mod,
      Nat.shiftRight_eq_div_pow]
  have small : word.toNat / 2 ^ shift % 2 ^ width < 2 ^ width := Nat.mod_lt _ (by positivity)
  rw [logical, BitVec.toInt_eq_toNat_of_lt (by omega), value]

/-- Bit 31, bit 30, bits 16 to 19 and bits 0 to 15. -/
theorem ofType_bits (argType : CInt) :
    Args.ofType argType =
      ⟨(argType.toNat / 2 ^ 31 % 2 : Nat), (argType.toNat / 2 ^ 30 % 2 : Nat),
        (argType.toNat / 2 ^ 16 % 2 ^ 4 : Nat), (argType.toNat % 2 ^ 16 : Nat)⟩ := by
  have input := masked_shift argType 31 1 (by decide) (by decide)
  have output := masked_shift argType 30 1 (by decide) (by decide)
  have type := masked_shift argType 16 4 (by decide) (by decide)
  have length := masked_shift argType 0 16 (by decide) (by decide)
  simp only [BitVec.sshiftRight_zero, pow_zero, Nat.div_one] at length
  rw [Args.ofType]
  congr 1

theorem scanLength_array (argTypes : ArgTypes) : scanLength argTypes.array = argTypes.entries.length := by
  have kept : argTypes.entries.takeWhile (fun entry => entry ≠ 0) = argTypes.entries :=
    List.takeWhile_eq_self_iff.mpr fun entry member => by simpa using argTypes.nonzero entry member
  rw [scanLength, ArgTypes.array, List.takeWhile_append, kept]
  simp

theorem args_eq (f : Function) : f.args = f.argTypes.entries.map Args.ofType := by
  rw [Function.args, Function.argLength, scanLength_array, ArgTypes.array, List.take_left']
  rfl

theorem argLength_eq (f : Function) : f.argLength = f.argTypes.entries.length :=
  scanLength_array f.argTypes

/-- The tokens of a key: name, count, four per argument. Without arguments
the key ends in a delimiter, which leaves one empty token. -/
def keyTokens (name : Bytes) (args : List Args) : List Bytes :=
  name :: toStri args.length :: (if args = [] then [[]] else args.flatMap Args.fields)

/-- `gen_key`'s text, loop and cut-off delimiter included. -/
theorem keyText_eq (name : Bytes) (args : List Args) :
    name ++ [bar] ++ toStri args.length ++ [bar] ++
        (args.flatMap fun a => a.getArgsKey ++ [bar]).dropLast =
      [bar].intercalate (keyTokens name args) := by
  have pieces : args.flatMap (fun a => a.getArgsKey ++ [bar]) =
      terminated bar (args.flatMap Args.fields) := by
    rw [terminated, List.flatMap_assoc]
    congr 1
    funext a
    simp [Args.getArgsKey, Args.fields]
  rw [pieces, dropLast_terminated, keyTokens, List.intercalate_cons_cons]
  by_cases none : args = []
  · simp [none, List.intercalate_cons_cons, List.intercalate_nil]
  · have fields : args.flatMap Args.fields ≠ [] := by
      cases args with
      | nil => exact absurd rfl none
      | cons a rest => simp [Args.fields]
    rw [if_neg none, List.intercalate_cons_of_ne_nil fields]
    simp

/-! The constructor takes the number of arguments from its caller: the array may
hold any entries. -/

/-- `Function(name, arg_types, arg_length)`. -/
structure CountedFunction where
  name : Bytes
  argTypes : List CInt
  argLength : Nat
  within : argLength ≤ argTypes.length

def CountedFunction.args (f : CountedFunction) : List Args :=
  (f.argTypes.take f.argLength).map Args.ofType

def CountedFunction.getKey (f : CountedFunction) : Bytes :=
  let as := f.args.flatMap fun a => a.getArgsKey ++ [bar]
  f.name ++ [bar] ++ toStri f.argLength ++ [bar] ++ as.dropLast

def Function.counted (f : Function) : CountedFunction where
  name := f.name
  argTypes := f.argTypes.array
  argLength := f.argLength
  within := by
    rw [argLength_eq, ArgTypes.array, List.length_append]
    omega

theorem counted_args (f : Function) : f.counted.args = f.args := rfl

theorem counted_getKey (f : Function) : f.counted.getKey = f.getKey := rfl

theorem CountedFunction.length_args (f : CountedFunction) : f.args.length = f.argLength := by
  rw [CountedFunction.args, List.length_map, List.length_take, Nat.min_eq_left f.within]

theorem CountedFunction.getKey_eq (f : CountedFunction) :
    f.getKey = [bar].intercalate (keyTokens f.name f.args) := by
  rw [← keyText_eq, f.length_args]
  rfl

theorem getKey_eq (f : Function) : f.getKey = [bar].intercalate (keyTokens f.name f.args) := by
  rw [← counted_getKey, f.counted.getKey_eq, counted_args]
  rfl

end BinderRpc.Signature
