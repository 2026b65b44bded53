import BinderRpc.ArgSizes
import BinderRpc.Execution

/-!
Which EXECUTE messages the server survives. Nothing in handle_request, exec_args
and unmarshall_args checks a length, an index or a number before it is used, so
each function returns exactly on the inputs whose parts happen to fit, and a
message that misses one of them takes the server down.
-/

namespace BinderRpc.Survival

open Outcome Octets Text Signature Marshal Socket Database Server Frames Execution

/-- The conversion applied to a token of this type does not throw. -/
def Converts (fp : FloatText) (kind : Kind) (token : Bytes) : Prop :=
  match kind with
  | .char => True
  | .short | .int => Finishes (stoi token)
  | .long => Finishes (stol token)
  | .double => (fp.stod (cText token)).isSome
  | .float => (fp.stof (cText token)).isSome

theorem element_ok_iff {α : Type} (vec : List α) (index : Nat) (value : α) :
    element vec index = .ok value ↔ vec[index]? = some value := by
  rw [element]
  cases vec[index]? <;> simp

def IsInt (tokens : List Bytes) (index : Nat) : Prop :=
  ∃ token, tokens[index]? = some token ∧ Finishes (stoi token)

theorem finishes_stoi_bind {α : Type} (tokens : List Bytes) (index : Nat) (next : Int → Except Fault α)
    (later : Prop) (same : ∀ value, Finishes (next value) ↔ later) :
    Finishes (element tokens index >>= fun token => stoi token >>= next) ↔ IsInt tokens index ∧ later := by
  rw [finishes_bind]
  constructor
  · rintro ⟨token, found, run⟩
    obtain ⟨value, read, run⟩ := (finishes_bind _ _).mp run
    exact ⟨⟨token, (element_ok_iff _ _ _).mp found, value, read⟩, (same value).mp run⟩
  · rintro ⟨⟨token, found, value, read⟩, run⟩
    exact ⟨token, (element_ok_iff _ _ _).mpr found, (finishes_bind _ _).mpr ⟨value, read, (same value).mpr run⟩⟩

theorem parseArgs_finishes_iff (keyS : List Bytes) (count index : Nat) :
    Finishes (parseArgs keyS count index) ↔ ∀ j < 4 * count, IsInt keyS (index + j) := by
  induction count generalizing index with
  | zero => simp [parseArgs]
  | succ count ih =>
      have tail : ∀ input output type arrLength : Int,
          Finishes (parseArgs keyS count (index + 4) >>= fun rest =>
            pure (⟨input, output, type, arrLength⟩ :: rest : List Args)) ↔
          ∀ j < 4 * count, IsInt keyS (index + 4 + j) := by
        intro input output type arrLength
        rw [← ih]
        exact finishes_bind_pure _ _
      have fields : Finishes (parseArgs keyS (count + 1) index) ↔
          IsInt keyS index ∧ IsInt keyS (index + 1) ∧ IsInt keyS (index + 2) ∧ IsInt keyS (index + 3) ∧
            ∀ j < 4 * count, IsInt keyS (index + 4 + j) := by
        refine finishes_stoi_bind keyS index _ _ fun input => ?_
        refine finishes_stoi_bind keyS (index + 1) _ _ fun output => ?_
        refine finishes_stoi_bind keyS (index + 2) _ _ fun type => ?_
        refine finishes_stoi_bind keyS (index + 3) _ _ fun arrLength => ?_
        exact tail input output type arrLength
      rw [fields]
      constructor
      · rintro ⟨first, second, third, fourth, later⟩ j inside
        -- the four fields of the first argument, and those behind it
        rcases j with _ | _ | _ | _ | j
        · exact first
        · exact second
        · exact third
        · exact fourth
        · have field := later j (by omega)
          rwa [Nat.add_assoc, Nat.add_comm 4 j] at field
      · intro all
        refine ⟨all 0 (by omega), all 1 (by omega), all 2 (by omega), all 3 (by omega), ?_⟩
        intro j inside
        have field := all (j + 4) (by omega)
        rwa [Nat.add_comm j 4, ← Nat.add_assoc] at field

/-- The second token is the number of arguments, and four `int` tokens for each
follow. -/
def KeyReadable (key : Bytes) : Prop :=
  ∃ token count, (key.splitOn bar)[1]? = some token ∧ stoi token = .ok count ∧
    ∀ j < 4 * count.toNat, IsInt (key.splitOn bar) (2 + j)

def intAt (tokens : List Bytes) (index : Nat) : Int :=
  (tokens[index]?.bind fun token => (stoi token).toOption).getD 0

def describedFrom (tokens : List Bytes) : Nat → Nat → List Args
  | 0, _ => []
  | count + 1, index =>
      ⟨intAt tokens index, intAt tokens (index + 1), intAt tokens (index + 2), intAt tokens (index + 3)⟩ ::
        describedFrom tokens count (index + 4)

def described (key : Bytes) : List Args :=
  describedFrom (key.splitOn bar) (intAt (key.splitOn bar) 1).toNat 2

theorem parseKey_finishes_iff (key : Bytes) (short : key.length < 2 ^ 31) :
    Finishes (parseKey key) ↔ KeyReadable key := by
  have tokens := split_ok key bar (splittable_of_length key bar short)
  constructor
  · rintro ⟨parsed, run⟩
    obtain ⟨keyS, splits, run⟩ := (bind_eq_ok _ _ _).mp run
    cases tokens.symm.trans splits
    obtain ⟨name, _, run⟩ := (bind_eq_ok _ _ _).mp run
    obtain ⟨token, found, run⟩ := (bind_eq_ok _ _ _).mp run
    obtain ⟨count, read, run⟩ := (bind_eq_ok _ _ _).mp run
    obtain ⟨argInfo, fields, _⟩ := (bind_eq_ok _ _ _).mp run
    exact ⟨token, count, (element_ok_iff _ _ _).mp found, read,
      (parseArgs_finishes_iff _ _ _).mp ⟨argInfo, fields⟩⟩
  · rintro ⟨token, count, found, read, fields⟩
    obtain ⟨argInfo, fields⟩ := (parseArgs_finishes_iff _ _ _).mpr fields
    obtain ⟨inside, _⟩ := List.getElem?_eq_some_iff.mp found
    have name : element (key.splitOn bar) 0 = .ok (key.splitOn bar)[0] :=
      (element_ok_iff _ _ _).mpr (List.getElem?_eq_getElem (by omega))
    have second := (element_ok_iff _ _ _).mpr found
    refine ⟨⟨(key.splitOn bar)[0], count, argInfo⟩, ?_⟩
    simp only [parseKey, tokens, name, second, read, fields, ok_bind]
    rfl

/-! unmarshall_args. -/

theorem appendLoop_finishes_iff (stop : Int) (tokens : List Bytes) (i : Int) :
    Finishes (appendLoop stop tokens i) ↔ i ≤ stop ∧ stop ≤ i + tokens.length := by
  induction tokens generalizing i with
  | nil =>
      rw [appendLoop]
      by_cases here : i = stop
      · simp [here]
      · rw [if_neg here]
        simp only [not_finishes_error, List.length_nil, Nat.cast_zero, false_iff]
        omega
  | cons token rest ih =>
      rw [appendLoop]
      -- the loop compares with `!=`, so an end below the index is never met
      by_cases here : i = stop
      · simp only [here, if_true, finishes_ok, List.length_cons, true_iff]
        omega
      · rw [if_neg here, finishes_map, ih]
        simp only [List.length_cons, Nat.cast_add, Nat.cast_one]
        omega

/-- The text that the tokens of an array of this length, all but the last, make up. -/
def runTogether (tokens : List Bytes) (i len : Nat) : Bytes := ((tokens.drop i).take (len - 1)).flatten

def copied (kind : Kind) (len : Nat) : Nat :=
  match kind with
  | .char => len + 1
  | .long => 0
  | other => other.size * len

/-- Slot `i` can be decoded: its one token converts, or as many tokens as an array of
this positive length runs together are left, and what is copied of them can be read. -/
def SlotReadable (fp : FloatText) (margin : Margin) (a : Args) (kind : Kind) (tokens : List Bytes)
    (i : Nat) : Prop :=
  if a.arrLength = 0 then ∃ token, tokens[i]? = some token ∧ Converts fp kind token
  else 0 < a.arrLength ∧ a.arrLength ≤ (tokens.length - i : Nat) + 1 ∧
    (kind = .long → ∃ token, tokens[i]? = some token ∧ Converts fp .long token) ∧
    copied kind a.arrLength.toNat ≤ (runTogether tokens i a.arrLength.toNat).length + 1 + margin i

theorem decodeScalar_finishes_iff (fp : FloatText) (kind : Kind) (token : Bytes) :
    Finishes (decodeScalar fp kind token) ↔ Converts fp kind token := by
  have float : ∀ {α : Type} (result : Option α), Finishes (converted result) ↔ result.isSome := by
    intro α result
    cases result <;> simp [converted]
  cases kind with
  | char => simp [decodeScalar, Converts]
  | short => exact finishes_bind_pure _ _
  | int => exact finishes_bind_pure _ _
  | long => exact finishes_bind_pure _ _
  | double => exact (finishes_bind_pure _ _).trans (float _)
  | float => exact (finishes_bind_pure _ _).trans (float _)

theorem storeLongs_finishes_iff (tokens : List Bytes) (i rounds : Nat) (cells : List (Option UInt8))
    (some_rounds : 0 < rounds) :
    Finishes (storeLongs tokens i rounds cells) ↔
      ∃ token, tokens[i]? = some token ∧ Finishes (stol token) := by
  obtain ⟨more, rfl⟩ := Nat.exists_eq_succ_of_ne_zero (Nat.ne_of_gt some_rounds)
  constructor
  · rintro ⟨result, run⟩
    obtain ⟨token, found, run⟩ := (bind_eq_ok _ _ _).mp run
    obtain ⟨value, read, _⟩ := (bind_eq_ok _ _ _).mp run
    exact ⟨token, (element_ok_iff _ _ _).mp found, value, read⟩
  · rintro ⟨token, found, value, read⟩
    exact ⟨_, storeLongs_eq tokens i more cells token value ((element_ok_iff _ _ _).mpr found) read⟩

theorem copyText_finishes_iff (text : Bytes) (margin count : Nat) :
    Finishes (copyText text margin count) ↔ count ≤ text.length + 1 + margin := by
  simp [Finishes, copyText_ok_iff]

theorem appendVectorString_eq (tokens : List Bytes) (i : Nat) (arrLen : Int) (positive : 0 < arrLen)
    (left : arrLen ≤ (tokens.length - i : Nat) + 1) :
    appendVectorString tokens i (i + arrLen - 1) = .ok (runTogether tokens i arrLen.toNat) := by
  have run := appendLoop_eq ((tokens.drop i).take (arrLen.toNat - 1))
    ((tokens.drop i).drop (arrLen.toNat - 1)) i
  have stop : (i : Int) + arrLen - 1 = i + (((tokens.drop i).take (arrLen.toNat - 1)).length : Int) := by
    rw [List.length_take, List.length_drop]
    omega
  rwa [List.take_append_drop, ← stop] at run

theorem decodeArray_finishes_iff (fp : FloatText) (margin : Nat) (kind : Kind) (tokens : List Bytes)
    (i : Nat) (arrLen : Int) :
    Finishes (decodeArray margin kind tokens i arrLen) ↔
      0 < arrLen ∧ arrLen ≤ (tokens.length - i : Nat) + 1 ∧
        (kind = .long → ∃ token, tokens[i]? = some token ∧ Converts fp .long token) ∧
        copied kind arrLen.toNat ≤ (runTogether tokens i arrLen.toNat).length + 1 + margin := by
  have text : Finishes (appendVectorString tokens i (i + arrLen - 1)) ↔
      0 < arrLen ∧ arrLen ≤ (tokens.length - i : Nat) + 1 := by
    rw [appendVectorString, appendLoop_finishes_iff, List.length_drop]
    omega
  by_cases appended : 0 < arrLen ∧ arrLen ≤ (tokens.length - i : Nat) + 1
  · rw [decodeArray, appendVectorString_eq tokens i arrLen appended.1 appended.2, ok_bind]
    simp only [appended, true_and]
    -- one copy of the text, or the same token converted in every round
    have copying : ∀ (count : Nat) (block : List (Option UInt8) → Block),
        Finishes (copyText (runTogether tokens i arrLen.toNat) margin count >>= fun bytes =>
          pure (block bytes)) ↔
          count ≤ (runTogether tokens i arrLen.toNat).length + 1 + margin := by
      intro count block
      rw [finishes_bind_pure, copyText_finishes_iff]
    cases kind with
    | char => simpa [copied] using copying (arrLen.toNat + 1) fun bytes => ⟨_, bytes.set _ (some 0)⟩
    | long =>
        simp only [copied, Nat.zero_le, and_true, true_implies]
        rw [finishes_bind_pure]
        exact storeLongs_finishes_iff tokens i arrLen.toNat _ (by omega)
    | _ => simpa [copied] using copying _ fun bytes => Block.fresh _ bytes
  · have stuck : ¬ Finishes (decodeArray margin kind tokens i arrLen) := by
      rintro ⟨block, run⟩
      obtain ⟨str, run, _⟩ := (bind_eq_ok _ _ _).mp run
      exact appended (text.mp ⟨str, run⟩)
    exact ⟨fun finishes => absurd finishes stuck,
      fun fits => absurd ⟨fits.1, fits.2.1⟩ appended⟩

theorem decodeSlot_known (fp : FloatText) (margin : Margin) (a : Args) (kind : Kind) (tokens : List Bytes)
    (i : Nat) (known : a.kind = some kind) :
    (∃ block, decodeSlot fp margin a tokens i = .ok (some block)) ↔ SlotReadable fp margin a kind tokens i := by
  rw [decodeSlot, known, SlotReadable]
  simp only
  by_cases scalar : a.arrLength = 0
  · rw [if_pos scalar, if_pos scalar]
    constructor
    · rintro ⟨block, run⟩
      obtain ⟨token, found, run⟩ := (bind_eq_ok _ _ _).mp run
      obtain ⟨value, decoded, _⟩ := (bind_eq_ok _ _ _).mp run
      exact ⟨token, (element_ok_iff _ _ _).mp found,
        (decodeScalar_finishes_iff fp kind token).mp ⟨value, decoded⟩⟩
    · rintro ⟨token, found, converts⟩
      obtain ⟨value, decoded⟩ := (decodeScalar_finishes_iff fp kind token).mpr converts
      rw [(element_ok_iff _ _ _).mpr found, ok_bind, decoded]
      exact ⟨value, rfl⟩
  · rw [if_neg scalar, if_neg scalar, ← decodeArray_finishes_iff]
    constructor
    · rintro ⟨block, run⟩
      obtain ⟨value, decoded, _⟩ := (map_eq_ok _ _ _).mp run
      exact ⟨value, decoded⟩
    · rintro ⟨value, decoded⟩
      exact ⟨value, by rw [decoded]; rfl⟩

def filled (fp : FloatText) (margin : Margin) (argInfo : List Args) (tokens : List Bytes) (i : Nat) :
    List (Nat × Block) :=
  if inside : i < argInfo.length then
    match decodeSlot fp margin argInfo[i] tokens i with
    | .ok (some block) => (i, block) :: filled fp margin argInfo tokens (i + max 1 argInfo[i].tokenCount)
    | _ => []
  else []
termination_by argInfo.length - i

section Reply

variable (fp : FloatText) (memory : Memory) (db : ServerDB Skeleton) (key argS : Bytes) (f : Function)

def requestSlots : Slots :=
  slots memory.blocks (filled fp memory.margin (described key) (argS.splitOn bar) 0)

def outcome : CInt × List Call × Slots :=
  invoke f (requestSlots fp memory key argS) (db.lookup key)

end Reply

def requestOf (buff : Bytes) (keyLen argsLen : Nat) : ExecuteRequest where
  key := cText ((buff.drop 4).take keyLen)
  args := cText ((buff.drop (8 + keyLen)).take argsLen)

def received (stale : Stale) (socket : Link) (mLength : CInt) : Bytes :=
  (recvInto socket (staleBytes stale mLength.toInt.toNat)).2.1

/-- The server returns to its loop, and the size it allocated for the slots was none
below zero. -/
structure Survives (fp : FloatText) (memory : Memory) (db : ServerDB Skeleton) (socket : Link) :
    Prop where
  returns : Finishes (handleRequest fp memory db socket execute)
  allocates : ∀ request left parsed,
    recvExecuteRequest memory.request socket = .ok (some request, left) →
    parseKey request.key = .ok parsed → 0 ≤ (calculateArgSize parsed.argInfo).toInt

theorem length_cText (bytes : Bytes) : (cText bytes).length ≤ bytes.length :=
  (List.takeWhile_sublist _).length_le

end BinderRpc.Survival
