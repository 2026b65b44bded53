import Mathlib.Logic.Function.Basic
import BinderRpc.Lib.Octets
import BinderRpc.Model.Signature

/-!
marshall_args, unmarshall_args and calculate_arg_size of helpers.cpp. Memory
reached through an argument pointer is its bytes, little-endian; a pointer that
nothing has set is `none`. The decoder's `new` blocks keep the bytes written
from their start, `none` where the byte is whatever the allocator left, so a
write past the capacity shows as a cell beyond it.
-/

namespace BinderRpc.Marshal

open Text Signature Octets Joining

/-- The C++ library's text of floating point values, which is not modelled. -/
structure FloatText where
  printDouble : BitVec 64 → Bytes
  printFloat : BitVec 32 → Bytes
  stod : Bytes → Option (BitVec 64)
  stof : Bytes → Option (BitVec 32)

def FloatText.absent : FloatText := ⟨fun _ => [], fun _ => [], fun _ => none, fun _ => none⟩

/-! Encoding. -/

/-- `stream << *p` for the element whose object bytes are given. -/
def elementText (fp : FloatText) (kind : Kind) (object : Bytes) : Bytes :=
  match kind with
  | .char => object
  | .short | .int | .long => toStri (signed object)
  | .double => fp.printDouble (BitVec.ofNat 64 (leNat object))
  | .float => fp.printFloat (BitVec.ofNat 32 (leNat object))

def readElement (kind : Kind) (memory : Bytes) (m : Nat) : Except Fault Bytes :=
  let object := (memory.drop (kind.size * m)).take kind.size
  if object.length = kind.size then .ok object else .error .badIndex

def readElements (fp : FloatText) (kind : Kind) (memory : Bytes) : Nat → Nat → Except Fault (List Bytes)
  | 0, _ => .ok []
  | count + 1, m => do
      let object ← readElement kind memory m
      let rest ← readElements fp kind memory count (m + 1)
      return elementText fp kind object :: rest

def marshallOne (fp : FloatText) (a : Args) (kind : Kind) : Option Bytes → Except Fault (List Bytes)
  | none => .error .dangling
  | some memory => readElements fp kind memory a.tokenCount 0

/-- The loop over the arguments; `none` is the `default` that returns "". -/
def marshallLoop (fp : FloatText) : List Args → List (Option Bytes) → Except Fault (Option (List Bytes))
  | [], _ => .ok (some [])
  | a :: rest, args =>
      match a.kind, args with
      | none, _ => .ok none
      | some _, [] => .error .badIndex
      | some kind, pointer :: more => do
          let texts ← marshallOne fp a kind pointer
          let tail ← marshallLoop fp rest more
          return tail.map (texts ++ ·)

def marshallArgs (fp : FloatText) (argTypes : List CInt) (args : List (Option Bytes))
    (argLength : Nat) : Except Fault Bytes := do
  if argTypes.length < argLength then throw .badIndex
  match ← marshallLoop fp ((argTypes.take argLength).map Args.ofType) args with
  | none => return []
  | some texts => return (terminated bar texts).dropLast

/-! Decoding. -/

structure Block where
  capacity : Nat
  cells : List (Option UInt8)
  deriving DecidableEq, Repr

/-- `new` of that many bytes, of which the first ones have been written. -/
def Block.fresh (capacity : Nat) (written : List (Option UInt8)) : Block :=
  ⟨capacity, written ++ List.replicate (capacity - written.length) none⟩

/-- The first bytes at `text.c_str()`: the text, its terminator, and what lies behind
the string. -/
def cStrBytes (text : Bytes) (count : Nat) : List (Option UInt8) :=
  ((text ++ [0]).map some ++ List.replicate count none).take count

/-- How many bytes can be read behind the terminator of the string that is run
together for a slot. -/
abbrev Margin := Nat → Nat

/-- `memcpy` of `count` bytes from `text.c_str()`. -/
def copyText (text : Bytes) (margin count : Nat) : Except Fault (List (Option UInt8)) :=
  if count ≤ text.length + 1 + margin then .ok (cStrBytes text count) else .error .badIndex

def appendLoop (stop : Int) : List Bytes → Int → Except Fault Bytes
  | [], i => if i = stop then .ok [] else .error .badIndex
  | token :: rest, i =>
      if i = stop then .ok [] else (appendLoop stop rest (i + 1)).map (token ++ ·)

def appendVectorString (vec : List Bytes) (start : Nat) (stop : Int) : Except Fault Bytes :=
  appendLoop stop (vec.drop start) start

def converted {α : Type} : Option α → Except Fault α
  | some value => .ok value
  | none => .error .badConversion

def decodeScalar (fp : FloatText) (kind : Kind) (token : Bytes) : Except Fault Block :=
  match kind with
  | .char => .ok (Block.fresh 1 (cStrBytes token 1))
  | .short => do
      let a ← stoi token
      return Block.fresh (2 * 2) (((twos 4 a).take 2).map some)
  | .int => do
      let a ← stoi token
      return Block.fresh (4 * 4) ((twos 4 a).map some)
  | .long => do
      let a ← stol token
      return Block.fresh (8 * 8) ((twos 8 a).map some)
  | .double => do
      let a ← converted (fp.stod (cText token))
      return Block.fresh (8 * 8) ((leBytes 8 a.toNat).map some)
  | .float => do
      let a ← converted (fp.stof (cText token))
      return Block.fresh (4 * 4) ((leBytes 4 a.toNat).map some)

def store (cells : List (Option UInt8)) (offset : Nat) (bytes : Bytes) : List (Option UInt8) :=
  cells.take offset ++ List.replicate (offset - cells.length) none ++ bytes.map some ++
    cells.drop (offset + bytes.length)

/-- The `ARG_LONG` loop: every round converts token `i` and stores it at `arr[i]`,
whatever `j` is. -/
def storeLongs (marshall : List Bytes) (i : Nat) :
    Nat → List (Option UInt8) → Except Fault (List (Option UInt8))
  | 0, cells => .ok cells
  | rounds + 1, cells => do
      let a ← stol (← element marshall i)
      storeLongs marshall i rounds (store cells (8 * i) (twos 8 a))

def decodeArray (margin : Nat) (kind : Kind) (marshall : List Bytes) (i : Nat) (arrLen : Int) :
    Except Fault Block := do
  let str ← appendVectorString marshall i (i + arrLen - 1)
  let len := arrLen.toNat
  match kind with
  | .char =>
      -- one byte more than `new char[arr_len]` is copied, then arr[arr_len] is cleared
      let copied ← copyText str margin (len + 1)
      return ⟨len, copied.set len (some 0)⟩
  | .long =>
      let cells ← storeLongs marshall i len (List.replicate (8 * (8 * len)) none)
      return ⟨8 * (8 * len), cells⟩
  | other =>
      let copied ← copyText str margin (other.size * len)
      return Block.fresh (other.size * (other.size * len)) copied

/-- One turn of the `switch` for slot `i`; `none` is `default`. -/
def decodeSlot (fp : FloatText) (margin : Margin) (a : Args) (marshall : List Bytes) (i : Nat) :
    Except Fault (Option Block) :=
  match a.kind with
  | none => .ok none
  | some kind =>
      if a.arrLength = 0 then do
        let token ← element marshall i
        return some (← decodeScalar fp kind token)
      else (decodeArray (margin i) kind marshall i a.arrLength).map some

structure Unmarshalled where
  ret : Int
  /-- The assignments `args[i] = block`, in order. -/
  writes : List (Nat × Block)
  deriving DecidableEq, Repr

/-- The loop of unmarshall_args. After an array the index stands at its last
token (`i = offset`) before the `i++`. -/
def unmarshallLoop (fp : FloatText) (margin : Margin) (argInfo : List Args) (marshall : List Bytes)
    (i : Nat) : Except Fault Unmarshalled :=
  if inside : i < argInfo.length then do
    match ← decodeSlot fp margin argInfo[i] marshall i with
    | none => return ⟨-1, []⟩
    | some block =>
        let rest ← unmarshallLoop fp margin argInfo marshall (i + max 1 (argInfo[i].tokenCount))
        return ⟨rest.ret, (i, block) :: rest.writes⟩
  else .ok ⟨0, []⟩
termination_by argInfo.length - i

def unmarshallArgs (fp : FloatText) (margin : Margin) (argInfo : List Args) (marshall : List Bytes) :
    Except Fault Unmarshalled :=
  unmarshallLoop fp margin argInfo marshall 0

def applyWrites (table : Nat → Option Block) (writes : List (Nat × Block)) : Nat → Option Block :=
  writes.foldl (fun before write => Function.update before write.1 (some write.2)) table

def slotTable (writes : List (Nat × Block)) : Nat → Option Block :=
  applyWrites (fun _ => none) writes

theorem fresh_take (capacity : Nat) (written : List (Option UInt8)) :
    (Block.fresh capacity written).cells.take written.length = written := by
  simp [Block.fresh]

@[simp] theorem length_cStrBytes (text : Bytes) (count : Nat) :
    (cStrBytes text count).length = count := by
  simp only [cStrBytes, List.length_take, List.length_append, List.length_map, List.length_replicate]
  omega

theorem copyText_ok_iff (text : Bytes) (margin count : Nat) (bytes : List (Option UInt8)) :
    copyText text margin count = .ok bytes ↔
      count ≤ text.length + 1 + margin ∧ bytes = cStrBytes text count := by
  rw [copyText]
  split
  · rename_i within
    rw [Except.ok.injEq, eq_comm]
    exact (and_iff_right within).symm
  · rename_i beyond
    exact ⟨fun same => (by cases same), fun fits => absurd fits.1 beyond⟩

theorem take_cStrBytes (text : Bytes) (short long : Nat) (within : short ≤ long) :
    (cStrBytes text long).take short = cStrBytes text short := by
  rw [cStrBytes, cStrBytes, List.take_take, Nat.min_eq_left within, List.take_append,
    List.take_append, List.take_replicate, List.take_replicate]
  congr 2
  omega

theorem appendLoop_eq (front back : List Bytes) (i : Int) :
    appendLoop (i + front.length) (front ++ back) i = .ok front.flatten := by
  induction front generalizing i with
  | nil => cases back <;> simp [appendLoop]
  | cons token rest ih =>
      have moved : i ≠ i + ((token :: rest).length : Int) := by
        simp only [List.length_cons, Nat.cast_add]
        omega
      have stop : i + ((token :: rest).length : Int) = i + 1 + (rest.length : Int) := by
        simp only [List.length_cons, Nat.cast_add]
        omega
      rw [List.cons_append, appendLoop, if_neg moved, stop, ih (i + 1)]
      rfl

theorem store_store (cells : List (Option UInt8)) (offset : Nat) (bytes : Bytes) :
    store (store cells offset bytes) offset bytes = store cells offset bytes := by
  have front : (cells.take offset ++ List.replicate (offset - cells.length) none).length = offset := by
    simp only [List.length_append, List.length_take, List.length_replicate]
    omega
  have whole : store cells offset bytes =
      (cells.take offset ++ List.replicate (offset - cells.length) none) ++
        (bytes.map some ++ cells.drop (offset + bytes.length)) := by
    simp [store, List.append_assoc]
  have reach : offset - (store cells offset bytes).length = 0 := by
    rw [whole, List.length_append, front]
    omega
  have middle : (bytes.map some : List (Option UInt8)).length = bytes.length := List.length_map _
  rw [store, reach, whole, List.take_left' front, List.drop_append, front,
    List.drop_of_length_le (by omega), Nat.add_sub_cancel_left, List.drop_left' middle]
  simp

theorem storeLongs_eq (marshall : List Bytes) (i rounds : Nat) (cells : List (Option UInt8))
    (token : Bytes) (value : Int) (found : element marshall i = .ok token)
    (read : stol token = .ok value) :
    storeLongs marshall i (rounds + 1) cells = .ok (store cells (8 * i) (twos 8 value)) := by
  induction rounds generalizing cells with
  | zero => simp [storeLongs, found, read]
  | succ rounds ih =>
      rw [storeLongs, found, Outcome.ok_bind, read, Outcome.ok_bind, ih, store_store]

theorem applyWrites_agree (writes : List (Nat × Block)) (left right : Nat → Option Block) (k : Nat)
    (same : left k = right k) : applyWrites left writes k = applyWrites right writes k := by
  induction writes generalizing left right with
  | nil => exact same
  | cons write rest ih =>
      apply ih
      by_cases hit : k = write.1
      · subst hit
        simp
      · simp [Function.update_of_ne hit, same]

theorem applyWrites_untouched (writes : List (Nat × Block)) (table : Nat → Option Block) (k : Nat)
    (elsewhere : ∀ write ∈ writes, write.1 ≠ k) : applyWrites table writes k = table k := by
  induction writes generalizing table with
  | nil => rfl
  | cons write rest ih =>
      have tail := ih (Function.update table write.1 (some write.2))
        fun other member => elsewhere other (List.mem_cons_of_mem _ member)
      exact tail.trans (Function.update_of_ne (elsewhere write List.mem_cons_self).symm _ _)

theorem slotTable_self (i : Nat) (block : Block) (rest : List (Nat × Block))
    (later : ∀ write ∈ rest, write.1 ≠ i) : slotTable ((i, block) :: rest) i = some block :=
  (applyWrites_untouched rest _ i later).trans (Function.update_self _ _ _)

theorem slotTable_other (i k : Nat) (block : Block) (rest : List (Nat × Block)) (other : k ≠ i) :
    slotTable ((i, block) :: rest) k = slotTable rest k :=
  applyWrites_agree rest _ _ k (Function.update_of_ne other _ _)

theorem slotTable_unwritten (writes : List (Nat × Block)) (k : Nat)
    (elsewhere : ∀ write ∈ writes, write.1 ≠ k) : slotTable writes k = none :=
  applyWrites_untouched writes _ k elsewhere

theorem unmarshallLoop_done (fp : FloatText) (margin : Margin) (argInfo : List Args) (marshall : List Bytes)
    (i : Nat) (past : argInfo.length ≤ i) : unmarshallLoop fp margin argInfo marshall i = .ok ⟨0, []⟩ := by
  rw [unmarshallLoop, dif_neg (by omega)]

theorem unmarshallLoop_next (fp : FloatText) (margin : Margin) (argInfo : List Args) (marshall : List Bytes)
    (i : Nat) (a : Args) (here : argInfo[i]? = some a) (block : Block)
    (decoded : decodeSlot fp margin a marshall i = .ok (some block)) :
    unmarshallLoop fp margin argInfo marshall i =
      (unmarshallLoop fp margin argInfo marshall (i + max 1 a.tokenCount)).map fun rest =>
        ⟨rest.ret, (i, block) :: rest.writes⟩ := by
  obtain ⟨inside, same⟩ := List.getElem?_eq_some_iff.mp here
  rw [unmarshallLoop, dif_pos inside]
  simp only [same, decoded, Outcome.ok_bind]
  cases unmarshallLoop fp margin argInfo marshall (i + max 1 a.tokenCount) <;> rfl

theorem unmarshallLoop_ok (fp : FloatText) (margin : Margin) (argInfo : List Args) (marshall : List Bytes)
    (i : Nat) (a : Args) (here : argInfo[i]? = some a) (result : Unmarshalled)
    (run : unmarshallLoop fp margin argInfo marshall i = .ok result) :
    (decodeSlot fp margin a marshall i = .ok none ∧ result = ⟨-1, []⟩) ∨
      ∃ block rest, decodeSlot fp margin a marshall i = .ok (some block) ∧
        unmarshallLoop fp margin argInfo marshall (i + max 1 a.tokenCount) = .ok rest ∧
        result = ⟨rest.ret, (i, block) :: rest.writes⟩ := by
  obtain ⟨inside, rfl⟩ := List.getElem?_eq_some_iff.mp here
  rw [unmarshallLoop, dif_pos inside] at run
  obtain ⟨slot, decoded, run⟩ := (Outcome.bind_eq_ok _ _ _).mp run
  cases slot with
  | none =>
      cases run
      exact Or.inl ⟨decoded, rfl⟩
  | some block =>
      obtain ⟨rest, later, run⟩ := (Outcome.bind_eq_ok _ _ _).mp run
      cases run
      exact Or.inr ⟨block, rest, decoded, later, rfl⟩

/-- The loop's induction: its index moves past an argument's elements until it has
left the list. -/
@[elab_as_elim]
theorem slot_induction (argInfo : List Args) {motive : Nat → Prop}
    (done : ∀ i, argInfo.length ≤ i → motive i)
    (next : ∀ i a, argInfo[i]? = some a → motive (i + max 1 a.tokenCount) → motive i) (i : Nat) :
    motive i := by
  induction left : argInfo.length - i using Nat.strong_induction_on generalizing i with
  | _ left ih =>
      by_cases inside : i < argInfo.length
      · exact next i _ (List.getElem?_eq_getElem inside) (ih _ (by omega) _ rfl)
      · exact done i (by omega)

theorem unmarshallLoop_from (fp : FloatText) (margin : Margin) (argInfo : List Args) (marshall : List Bytes)
    (i : Nat) (result : Unmarshalled) (run : unmarshallLoop fp margin argInfo marshall i = .ok result) :
    ∀ write ∈ result.writes, i ≤ write.1 := by
  induction i using slot_induction argInfo generalizing result with
  | done i past =>
      rw [unmarshallLoop_done fp margin argInfo marshall i past] at run
      cases run
      simp
  | next i a here ih =>
      rcases unmarshallLoop_ok fp margin argInfo marshall i a here result run with
        ⟨_, rfl⟩ | ⟨block, rest, _, later, rfl⟩
      · simp
      · intro write member
        rcases List.mem_cons.mp member with first | other
        · simp [first]
        · have := ih rest later write other
          omega

/-! calculate_arg_size. Each `size +=` adds a `size_t` product and narrows the
sum back to `int`. -/

/-- Bytes counted for one argument, as a `size_t`. The char array case adds one
to the `int` length first. -/
def argSize (a : Args) : BitVec 64 :=
  match a.kind with
  | none => 0
  | some .char =>
      if a.arrLength = 0 then 1 else BitVec.ofInt 64 (BitVec.ofInt 32 (a.arrLength + 1)).toInt
  | some kind =>
      if a.arrLength = 0 then BitVec.ofNat 64 kind.size
      else BitVec.ofInt 64 a.arrLength * BitVec.ofNat 64 kind.size

def calculateArgSize (argInfo : List Args) : CInt :=
  argInfo.foldl (fun size a => ((size.signExtend 64) + argSize a).setWidth 32) 0

end BinderRpc.Marshal
