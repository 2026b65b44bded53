import BinderRpc.Marshalled

/-!
Exactly which argument lists come back from marshall_args through
unmarshall_args. The decoder keeps one index for arguments and tokens, so an
array of several elements hides every argument after it; and an array's memory
is filled with the digits of its tokens rather than with their values.
-/

namespace BinderRpc.RoundTrip

open Text Signature Marshal Octets Joining Marshalled

/-- Slot `k` points at memory that begins with these bytes. -/
def SlotHolds (writes : List (Nat × Block)) (k : Nat) (memory : Bytes) : Prop :=
  ∃ block, slotTable writes k = some block ∧ block.cells.take memory.length = memory.map some

/-- Encoding, splitting and decoding gives every argument back. -/
def RoundTrips (fp : FloatText) (margin : Margin) (types : List CInt) (args : List Bytes) : Prop :=
  ∃ text tokens writes,
    marshallArgs fp (types ++ [0]) (args.map some) types.length = .ok text ∧
    split text bar = .ok tokens ∧
    unmarshallArgs fp margin (types.map Args.ofType) tokens = .ok ⟨0, writes⟩ ∧
    ∀ k memory, args[k]? = some memory → SlotHolds writes k memory

/-- The bytes the decoder copies for an array: the printed elements but the last,
run together, and a terminator. They happen to be the array's own bytes. -/
def ImageIsText (fp : FloatText) (a : Args) (memory : Bytes) : Prop :=
  cStrBytes (argTexts fp a memory).dropLast.flatten memory.length = memory.map some

/-- An array in position `k` of `n` survives when it hides no later argument and
its own memory is rebuilt. A char array is copied with one byte too many. -/
def ArraySurvives (fp : FloatText) (margin : Margin) (k n : Nat) (a : Args) (memory : Bytes) : Prop :=
  (k + 1 = n ∨ a.tokenCount = 1) ∧
    (a.kind = some .long → k = 0 ∧ a.tokenCount = 1) ∧
    (a.kind ≠ some .long → ImageIsText fp a memory) ∧ (a.kind = some .char → 0 < margin k)

def SurvivesFrom (fp : FloatText) (margin : Margin) (i n : Nat) (infos : List Args)
    (args : List Bytes) : Prop :=
  ∀ k a memory, infos[k]? = some a → args[k]? = some memory →
    a.arrLength = 0 ∨ ArraySurvives fp margin (i + k) n a memory

/-- Every argument is a scalar or an array that survives, and `split` can hold
the position of every delimiter. -/
def Transmissible (fp : FloatText) (margin : Margin) (infos : List Args) (args : List Bytes) : Prop :=
  Splittable (joinedText fp infos args) bar ∧ SurvivesFrom fp margin 0 infos.length infos args

theorem survivesFrom_cons (fp : FloatText) (margin : Margin) (i n : Nat) (a : Args) (infos : List Args)
    (memory : Bytes) (args : List Bytes) :
    SurvivesFrom fp margin i n (a :: infos) (memory :: args) ↔
      (a.arrLength = 0 ∨ ArraySurvives fp margin i n a memory) ∧
        SurvivesFrom fp margin (i + 1) n infos args := by
  constructor
  · intro all
    refine ⟨all 0 a memory rfl rfl, fun k b other here there => ?_⟩
    have later := all (k + 1) b other here there
    rwa [show i + (k + 1) = i + 1 + k by omega] at later
  · rintro ⟨first, later⟩ k b other here there
    cases k with
    | zero =>
        cases here
        cases there
        exact first
    | succ k =>
        have tail := later k b other here there
        rwa [show i + 1 + k = i + (k + 1) by omega] at tail

theorem stoi_element (fp : FloatText) (kind : Kind) (memory : Bytes)
    (size : memory.length = kind.size) (narrow : kind = .short ∨ kind = .int) :
    stoi (elementText fp kind memory) = .ok (signed memory) := by
  rcases narrow with rfl | rfl
  · have bounds := signed_bounds memory (2 ^ 15) (by rw [size]; rfl)
    exact stoi_toStri _ (by omega) (by omega)
  · have bounds := signed_bounds memory (2 ^ 31) (by rw [size]; rfl)
    exact stoi_toStri _ (by omega) (by omega)

theorem stol_element (fp : FloatText) (memory : Bytes) (size : memory.length = 8) :
    stol (elementText fp .long memory) = .ok (signed memory) := by
  have bounds := signed_bounds memory (2 ^ 63) (by rw [size]; rfl)
  exact stol_toStri _ (by omega) (by omega)

theorem twos_object (memory : Bytes) (width : Nat) (size : memory.length = width) :
    twos width (signed memory) = memory := by
  subst size
  exact twos_signed memory

theorem decodeScalar_element (fp : FloatText) (kind : Kind) (memory : Bytes)
    (size : memory.length = kind.size) (exact_kind : isExact kind = true) :
    ∃ block, decodeScalar fp kind (elementText fp kind memory) = .ok block ∧
      block.cells.take memory.length = memory.map some := by
  have rebuilt : ∀ capacity, (Block.fresh capacity (memory.map some)).cells.take memory.length =
      memory.map some := by
    intro capacity
    have := fresh_take capacity (memory.map some)
    rwa [List.length_map] at this
  cases kind with
  | char =>
      obtain ⟨byte, rfl⟩ : ∃ byte, memory = [byte] := List.length_eq_one_iff.mp size
      exact ⟨_, rfl, rfl⟩
  | short =>
      refine ⟨Block.fresh (2 * 2) (memory.map some), ?_, rebuilt _⟩
      have object : (twos 4 (signed memory)).take 2 = memory := by
        rw [take_twos 2 4 _ (by decide)]
        exact twos_object memory 2 size
      rw [decodeScalar, stoi_element fp .short memory size (Or.inl rfl), Outcome.ok_bind, object]
      rfl
  | int =>
      refine ⟨Block.fresh (4 * 4) (memory.map some), ?_, rebuilt _⟩
      rw [decodeScalar, stoi_element fp .int memory size (Or.inr rfl), Outcome.ok_bind,
        twos_object memory 4 size]
      rfl
  | long =>
      refine ⟨Block.fresh (8 * 8) (memory.map some), ?_, rebuilt _⟩
      rw [decodeScalar, stol_element fp memory size, Outcome.ok_bind, twos_object memory 8 size]
      rfl
  | double => exact absurd exact_kind (by decide)
  | float => exact absurd exact_kind (by decide)

theorem unknown_cell (cells : List (Option UInt8)) (memory : Bytes) (position : Nat)
    (reach : position < memory.length) (unknown : cells[position]? = some none) :
    cells.take memory.length ≠ memory.map some := by
  intro same
  have cell := congrArg (·[position]?) same
  simp only [List.getElem?_take_of_lt reach, unknown, List.getElem?_map,
    List.getElem?_eq_getElem reach, Option.map_some] at cell
  cases cell

/-- The cells of a long array after the loop: one value, at index `i`. -/
theorem store_image (i len : Nat) (value memory : Bytes) (width : value.length = 8)
    (some_elements : 0 < len) (size : memory.length = 8 * len) (first : len = 1 → value = memory) :
    (store (List.replicate (8 * (8 * len)) none) (8 * i) value).take memory.length =
      memory.map some ↔ i = 0 ∧ len = 1 := by
  constructor
  · intro same
    by_cases here : i = 0
    · refine ⟨here, ?_⟩
      by_contra several
      -- the cell behind the first element was never written
      refine unknown_cell _ memory 8 (by omega) ?_ same
      subst here
      simp only [store, Nat.mul_zero, List.take_zero, List.length_replicate, Nat.zero_sub,
        List.replicate_zero, List.nil_append, width, Nat.zero_add, List.drop_replicate]
      rw [List.getElem?_append_right (by simp [width])]
      simp only [List.length_map, width, Nat.sub_self, List.getElem?_replicate]
      exact if_pos (by omega)
    · exfalso
      -- the first cell was never written
      refine unknown_cell _ memory 0 (by omega) ?_ same
      simp only [store, List.take_replicate, List.append_assoc]
      rw [List.getElem?_append_left (by simp only [List.length_replicate]; omega),
        List.getElem?_replicate]
      exact if_pos (by omega)
  · rintro ⟨rfl, rfl⟩
    have value_eq := first rfl
    subst value_eq
    simp [store, width]

theorem append_texts (tokens texts others : List Bytes) (i : Nat) (arrLen : Int)
    (aligned : tokens.drop i = texts ++ others) (count : (texts.length : Int) = arrLen)
    (some_text : texts ≠ []) :
    appendVectorString tokens i (i + arrLen - 1) = .ok texts.dropLast.flatten := by
  have cut : texts = texts.dropLast ++ [texts.getLast some_text] :=
    (List.dropLast_append_getLast some_text).symm
  have stop : (i : Int) + arrLen - 1 = i + (texts.dropLast.length : Int) := by
    have positive := List.length_pos_iff.mpr some_text
    rw [List.length_dropLast]
    omega
  rw [appendVectorString, aligned, stop]
  conv_lhs => rw [cut]
  rw [List.dropLast_concat, List.append_assoc]
  exact appendLoop_eq _ _ _

theorem first_token (fp : FloatText) (a : Args) (memory : Bytes) (kind : Kind)
    (known : a.kind = some kind) (some_elements : 0 < a.tokenCount) (tokens others : List Bytes)
    (i : Nat) (aligned : tokens.drop i = argTexts fp a memory ++ others) :
    element tokens i = .ok (elementText fp kind (memory.take kind.size)) := by
  obtain ⟨count, len⟩ : ∃ count, a.tokenCount = count + 1 := ⟨a.tokenCount - 1, by omega⟩
  have here : tokens[i]? = (argTexts fp a memory ++ others)[0]? := by
    rw [← aligned, List.getElem?_drop, Nat.add_zero]
  rw [element, here]
  simp [argTexts, known, len, chunks]

theorem copied_image (text memory : Bytes) (size count : Nat) (whole : memory.length = size * count) :
    (Block.fresh (size * (size * count)) (cStrBytes text (size * count))).cells.take memory.length =
      cStrBytes text memory.length := by
  have copied := fresh_take (size * (size * count)) (cStrBytes text (size * count))
  rw [length_cStrBytes] at copied
  rw [whole, copied]

/-- The turn for slot `i` fills it with memory that begins with these bytes. -/
def DecodesTo (fp : FloatText) (margin : Margin) (a : Args) (tokens : List Bytes) (i : Nat) (memory : Bytes) :
    Prop :=
  ∃ block, decodeSlot fp margin a tokens i = .ok (some block) ∧
    block.cells.take memory.length = memory.map some

theorem decodeSlot_scalar (fp : FloatText) (margin : Margin) (a : Args) (memory : Bytes) (kind : Kind)
    (known : a.kind = some kind) (exact_kind : isExact kind = true) (scalar : a.arrLength = 0)
    (size : memory.length = kind.size * a.tokenCount) (tokens others : List Bytes) (i : Nat)
    (aligned : tokens.drop i = argTexts fp a memory ++ others) : DecodesTo fp margin a tokens i memory := by
  have single : a.tokenCount = 1 := if_pos scalar
  have object : memory.length = kind.size := by rw [size, single, Nat.mul_one]
  obtain ⟨block, decoded, value⟩ := decodeScalar_element fp kind memory object exact_kind
  have token := first_token fp a memory kind known (by omega) tokens others i aligned
  rw [List.take_of_length_le (Nat.le_of_eq object)] at token
  refine ⟨block, ?_, value⟩
  simp only [decodeSlot, known, scalar, if_true, token, Outcome.ok_bind, decoded, pure, Except.pure]

theorem known_within (text memory : Bytes) (image : cStrBytes text memory.length = memory.map some) :
    memory.length ≤ text.length + 1 := by
  by_contra longer
  have cell := congrArg (·[text.length + 1]?) image
  have unknown : (cStrBytes text memory.length)[text.length + 1]? = some none := by
    rw [cStrBytes, List.getElem?_take_of_lt (by omega), List.getElem?_append_right (by simp)]
    simp only [List.length_map, List.length_append, List.length_singleton, Nat.sub_self,
      List.getElem?_replicate]
    exact if_pos (by omega)
  simp only [unknown, List.getElem?_map, List.getElem?_eq_getElem (by omega : text.length + 1 < memory.length),
    Option.map_some] at cell
  cases cell

theorem length_chars (fp : FloatText) (a : Args) (memory : Bytes) (char : a.kind = some .char)
    (size : memory.length = a.tokenCount) :
    (argTexts fp a memory).dropLast.flatten.length = a.tokenCount - 1 := by
  have single : ∀ text ∈ (argTexts fp a memory).dropLast, text.length = 1 := by
    intro text member
    have listed := (List.dropLast_sublist _).subset member
    simp only [argTexts, char, List.mem_map] at listed
    obtain ⟨object, chunk, rfl⟩ := listed
    exact (mem_chunks 1 a.tokenCount memory object (by rw [size, Nat.one_mul]) chunk).1
  have count := length_argTexts fp a memory .char char
  rw [List.length_flatten, List.map_congr_left single, List.map_const', List.sum_replicate,
    List.length_dropLast, count, nsmul_one]
  rfl

theorem decodeArray_decodesTo (fp : FloatText) (margin : Margin) (a : Args) (kind : Kind)
    (known : a.kind = some kind) (array : a.arrLength ≠ 0) (tokens : List Bytes) (i : Nat) (memory : Bytes) :
    DecodesTo fp margin a tokens i memory ↔
      ∃ block, decodeArray (margin i) kind tokens i a.arrLength = .ok block ∧
        block.cells.take memory.length = memory.map some := by
  simp only [DecodesTo, decodeSlot, known, if_neg array]
  constructor
  · rintro ⟨block, run, value⟩
    obtain ⟨_, decoded, same⟩ := (Outcome.map_eq_ok _ _ _).mp run
    cases same
    exact ⟨block, decoded, value⟩
  · rintro ⟨block, decoded, value⟩
    exact ⟨block, (Outcome.map_eq_ok _ _ _).mpr ⟨block, decoded, rfl⟩, value⟩

section Array
variable (tokens : List Bytes) (i : Nat) (arrLen : Int) (margin : Nat) (text memory : Bytes)
  (appended : appendVectorString tokens i (i + arrLen - 1) = .ok text)
include appended

/-- One byte more than the array has is copied. -/
theorem decodeArray_chars (size : memory.length = arrLen.toNat) (chars : text.length + 1 = arrLen.toNat) :
    (∃ block, decodeArray margin .char tokens i arrLen = .ok block ∧
        block.cells.take memory.length = memory.map some) ↔
      cStrBytes text memory.length = memory.map some ∧ 0 < margin := by
  have cleared : ((cStrBytes text (arrLen.toNat + 1)).set arrLen.toNat (some 0)).take memory.length =
      cStrBytes text memory.length := by
    rw [size, List.take_set_of_le (Nat.le_refl _), take_cStrBytes _ _ _ (Nat.le_succ _)]
  simp only [decodeArray, appended, Outcome.ok_bind]
  constructor
  · rintro ⟨block, run, value⟩
    obtain ⟨bytes, copied, run⟩ := (Outcome.bind_eq_ok _ _ _).mp run
    obtain ⟨within, rfl⟩ := (copyText_ok_iff _ _ _ _).mp copied
    cases run
    exact ⟨cleared.symm.trans value, by omega⟩
  · rintro ⟨image, room⟩
    have copied := (copyText_ok_iff text margin (arrLen.toNat + 1) _).mpr ⟨by omega, rfl⟩
    exact ⟨_, (Outcome.bind_eq_ok _ _ _).mpr ⟨_, copied, rfl⟩, cleared.trans image⟩

/-- What is the array's own memory lies within the text, so the copy can be made. -/
theorem decodeArray_words (kind : Kind) (narrow : kind = .short ∨ kind = .int)
    (size : memory.length = kind.size * arrLen.toNat) :
    (∃ block, decodeArray margin kind tokens i arrLen = .ok block ∧
        block.cells.take memory.length = memory.map some) ↔
      cStrBytes text memory.length = memory.map some := by
  have image := copied_image text memory kind.size arrLen.toNat size
  have copying : decodeArray margin kind tokens i arrLen = do
      let copied ← copyText text margin (kind.size * arrLen.toNat)
      return Block.fresh (kind.size * (kind.size * arrLen.toNat)) copied := by
    rcases narrow with rfl | rfl <;> rw [decodeArray, appended, Outcome.ok_bind]
  rw [copying]
  constructor
  · rintro ⟨block, run, value⟩
    obtain ⟨bytes, copied, run⟩ := (Outcome.bind_eq_ok _ _ _).mp run
    obtain ⟨_, rfl⟩ := (copyText_ok_iff _ _ _ _).mp copied
    cases run
    exact image.symm.trans value
  · intro same
    have within := known_within _ memory same
    have copied := (copyText_ok_iff text margin (kind.size * arrLen.toNat) _).mpr ⟨by omega, rfl⟩
    exact ⟨_, (Outcome.bind_eq_ok _ _ _).mpr ⟨_, copied, rfl⟩, image.trans same⟩

/-- The one value that every round stores is the first element, and it is stored at
the place of element `i`. -/
theorem decodeArray_longs (positive : 0 < arrLen) (size : memory.length = 8 * arrLen.toNat)
    (fp : FloatText) (token : element tokens i = .ok (elementText fp .long (memory.take 8))) :
    (∃ block, decodeArray margin .long tokens i arrLen = .ok block ∧
        block.cells.take memory.length = memory.map some) ↔ i = 0 ∧ arrLen.toNat = 1 := by
  obtain ⟨rounds, len⟩ : ∃ rounds, arrLen.toNat = rounds + 1 := ⟨arrLen.toNat - 1, by omega⟩
  have long_enough : (memory.take 8).length = 8 := by
    rw [List.length_take]
    omega
  have stored := storeLongs_eq tokens i rounds (List.replicate (8 * (8 * (rounds + 1))) none)
    _ _ token (stol_element fp _ long_enough)
  have object := twos_object (memory.take 8) 8 long_enough
  have image := store_image i (rounds + 1) (memory.take 8) memory long_enough (by omega)
    (by rw [size, len])
    (fun one => List.take_of_length_le (by omega))
  simp only [decodeArray, appended, Outcome.ok_bind, len, stored]
  simpa [object, len, pure, Except.pure] using image

end Array

/-- Whether an array slot is filled, and with the array's own bytes, is up to the
element type. -/
theorem decodeSlot_array (fp : FloatText) (margin : Margin) (a : Args) (memory : Bytes) (kind : Kind)
    (known : a.kind = some kind) (exact_kind : isExact kind = true) (positive : 0 < a.arrLength)
    (size : memory.length = kind.size * a.tokenCount) (tokens others : List Bytes) (i : Nat)
    (aligned : tokens.drop i = argTexts fp a memory ++ others) :
    DecodesTo fp margin a tokens i memory ↔
      (a.kind = some .long → i = 0 ∧ a.tokenCount = 1) ∧
        (a.kind ≠ some .long → ImageIsText fp a memory) ∧ (a.kind = some .char → 0 < margin i) := by
  have nonzero : a.arrLength ≠ 0 := by omega
  have count : a.tokenCount = a.arrLength.toNat := if_neg nonzero
  have length := length_argTexts fp a memory kind known
  have some_text : argTexts fp a memory ≠ [] := by
    intro empty
    rw [empty, List.length_nil] at length
    omega
  have appended := append_texts tokens (argTexts fp a memory) others i a.arrLength aligned
    (by omega) some_text
  rw [decodeArray_decodesTo fp margin a kind known nonzero, known]
  cases kind with
  | char =>
      have bytes : memory.length = a.tokenCount := size.trans (Nat.one_mul _)
      have chars := length_chars fp a memory known bytes
      rw [decodeArray_chars tokens i a.arrLength (margin i) _ memory appended (bytes.trans count) (by omega)]
      simp [ImageIsText]
  | long =>
      have token : element tokens i = .ok (elementText fp .long (memory.take 8)) :=
        first_token fp a memory .long known (by omega) tokens others i aligned
      rw [decodeArray_longs tokens i a.arrLength (margin i) _ memory appended positive
        (size.trans (by rw [count]; rfl)) fp token]
      simp [count]
  | short =>
      rw [decodeArray_words tokens i a.arrLength (margin i) _ memory appended .short (Or.inl rfl)
        (by rw [size, count])]
      simp [ImageIsText]
  | int =>
      rw [decodeArray_words tokens i a.arrLength (margin i) _ memory appended .int (Or.inr rfl)
        (by rw [size, count])]
      simp [ImageIsText]
  | double => exact absurd exact_kind (by decide)
  | float => exact absurd exact_kind (by decide)

def Rebuilds (fp : FloatText) (margin : Margin) (infos : List Args) (tokens : List Bytes) (i : Nat)
    (args : List Bytes) : Prop :=
  ∃ writes, unmarshallLoop fp margin infos tokens i = .ok ⟨0, writes⟩ ∧
    ∀ k memory, args[k]? = some memory → SlotHolds writes (i + k) memory

section Turn
variable (fp : FloatText) (margin : Margin) (infos : List Args) (tokens : List Bytes) (i : Nat)
  (a : Args) (here : infos[i]? = some a) (block : Block)
  (decoded : decodeSlot fp margin a tokens i = .ok (some block)) (memory : Bytes) (args : List Bytes)
include here decoded

theorem rebuilds_next (single : a.tokenCount = 1) :
    Rebuilds fp margin infos tokens i (memory :: args) ↔
      block.cells.take memory.length = memory.map some ∧ Rebuilds fp margin infos tokens (i + 1) args := by
  have turn := unmarshallLoop_next fp margin infos tokens i a here block decoded
  rw [single, Nat.max_self] at turn
  constructor
  · rintro ⟨writes, run, held⟩
    rw [turn, Outcome.map_eq_ok] at run
    obtain ⟨⟨ret, rest⟩, later, same⟩ := run
    cases same
    have beyond := unmarshallLoop_from fp margin infos tokens (i + 1) _ later
    obtain ⟨first, found, value⟩ := held 0 memory rfl
    rw [Nat.add_zero, slotTable_self i block rest fun write member => by
      have := beyond write member
      omega] at found
    cases found
    refine ⟨value, rest, later, fun k other there => ?_⟩
    have slot := held (k + 1) other there
    rwa [SlotHolds, slotTable_other i _ _ _ (by omega), show i + (k + 1) = i + 1 + k by omega] at slot
  · rintro ⟨value, rest, later, held⟩
    have beyond := unmarshallLoop_from fp margin infos tokens (i + 1) _ later
    refine ⟨(i, block) :: rest, by rw [turn, later]; rfl, fun k other there => ?_⟩
    cases k with
    | zero =>
        cases there
        refine ⟨block, slotTable_self i block rest fun write member => ?_, value⟩
        have := beyond write member
        omega
    | succ k =>
        have slot := held k other there
        rwa [SlotHolds, slotTable_other i _ _ _ (by omega), show i + (k + 1) = i + 1 + k by omega]

/-- An array of several elements moves the index past slots it never fills. -/
theorem rebuilds_jump (several : 1 < a.tokenCount) (aligned : infos.length = i + 1 + args.length) :
    Rebuilds fp margin infos tokens i (memory :: args) ↔
      block.cells.take memory.length = memory.map some ∧ args = [] := by
  have turn := unmarshallLoop_next fp margin infos tokens i a here block decoded
  rw [Nat.max_eq_right (by omega)] at turn
  constructor
  · rintro ⟨writes, run, held⟩
    rw [turn, Outcome.map_eq_ok] at run
    obtain ⟨⟨ret, rest⟩, later, same⟩ := run
    cases same
    have beyond := unmarshallLoop_from fp margin infos tokens (i + a.tokenCount) _ later
    have first := slotTable_self i block rest fun write member => by
      have := beyond write member
      omega
    constructor
    · obtain ⟨found, slot, value⟩ := held 0 memory rfl
      rw [Nat.add_zero, first] at slot
      cases slot
      exact value
    · cases args with
      | nil => rfl
      | cons hidden others =>
          exfalso
          obtain ⟨found, slot, _⟩ := held 1 hidden rfl
          rw [slotTable_other i _ _ _ (by omega), slotTable_unwritten rest (i + 1) fun write member => by
            have := beyond write member
            omega] at slot
          cases slot
  · rintro ⟨value, rfl⟩
    have ended := unmarshallLoop_done fp margin infos tokens (i + a.tokenCount)
      (by rw [aligned]; simp only [List.length_nil]; omega)
    refine ⟨[(i, block)], by rw [turn, ended]; rfl, fun k other there => ?_⟩
    cases k with
    | zero =>
        cases there
        exact ⟨block, slotTable_self i block [] (by simp), value⟩
    | succ k => simp at there

end Turn

theorem rebuilds_decodes (fp : FloatText) (margin : Margin) (infos : List Args) (tokens : List Bytes)
    (i : Nat) (a : Args) (here : infos[i]? = some a) (args : List Bytes)
    (rebuilt : Rebuilds fp margin infos tokens i args) :
    ∃ block, decodeSlot fp margin a tokens i = .ok (some block) := by
  obtain ⟨writes, run, _⟩ := rebuilt
  rcases unmarshallLoop_ok fp margin infos tokens i a here _ run with ⟨_, same⟩ | ⟨block, _, decoded, _⟩
  · cases same
  · exact ⟨block, decoded⟩

section Slot
variable (fp : FloatText) (margin : Margin) (infos : List Args) (tokens : List Bytes) (i : Nat)
  (a : Args) (here : infos[i]? = some a) (memory : Bytes) (args : List Bytes)
include here

theorem rebuilds_single_iff (single : a.tokenCount = 1) :
    Rebuilds fp margin infos tokens i (memory :: args) ↔
      DecodesTo fp margin a tokens i memory ∧ Rebuilds fp margin infos tokens (i + 1) args := by
  constructor
  · intro rebuilt
    obtain ⟨block, decoded⟩ := rebuilds_decodes fp margin infos tokens i a here _ rebuilt
    obtain ⟨value, later⟩ :=
      (rebuilds_next fp margin infos tokens i a here block decoded memory args single).mp rebuilt
    exact ⟨⟨block, decoded, value⟩, later⟩
  · rintro ⟨⟨block, decoded, value⟩, later⟩
    exact (rebuilds_next fp margin infos tokens i a here block decoded memory args single).mpr ⟨value, later⟩

theorem rebuilds_several_iff (several : 1 < a.tokenCount) (aligned : infos.length = i + 1 + args.length) :
    Rebuilds fp margin infos tokens i (memory :: args) ↔
      DecodesTo fp margin a tokens i memory ∧ args = [] := by
  constructor
  · intro rebuilt
    obtain ⟨block, decoded⟩ := rebuilds_decodes fp margin infos tokens i a here _ rebuilt
    obtain ⟨value, none⟩ :=
      (rebuilds_jump fp margin infos tokens i a here block decoded memory args several aligned).mp rebuilt
    exact ⟨⟨block, decoded, value⟩, none⟩
  · rintro ⟨⟨block, decoded, value⟩, none⟩
    exact (rebuilds_jump fp margin infos tokens i a here block decoded memory args several aligned).mpr
      ⟨value, none⟩

end Slot

theorem rebuilds_done (fp : FloatText) (margin : Margin) (infos : List Args) (tokens : List Bytes) :
    Rebuilds fp margin infos tokens infos.length [] :=
  ⟨[], unmarshallLoop_done fp margin infos tokens _ (Nat.le_refl _), by simp⟩

/-- The decoder, started on the first token of the remaining arguments, rebuilds
them exactly when each of them survives. -/
theorem rebuilds_iff (fp : FloatText) (margin : Margin) (front rest : List Args) (args : List Bytes)
    (tokens : List Bytes) (aligned : tokens.drop front.length = allTexts fp rest args)
    (matching : Matching rest args) (exact_types : ExactTypes rest)
    (lengths : ∀ a ∈ rest, 0 ≤ a.arrLength) :
    Rebuilds fp margin (front ++ rest) tokens front.length args ↔
      SurvivesFrom fp margin front.length (front.length + rest.length) rest args := by
  induction matching generalizing front with
  | nil =>
      have done := rebuilds_done fp margin front tokens
      simp only [List.append_nil, done, true_iff]
      intro k a memory here
      simp at here
  | @cons a memory rest args describes others ih =>
      obtain ⟨kind, known, size⟩ := describes
      obtain ⟨kind', known', exact_kind⟩ := exact_types a List.mem_cons_self
      have same : kind' = kind := Option.some.inj (known'.symm.trans known)
      subst same
      have nonnegative := lengths a List.mem_cons_self
      have here : (front ++ a :: rest)[front.length]? = some a := by simp
      have pairs : rest.length = args.length := others.length_eq
      have total : (front ++ a :: rest).length = front.length + 1 + args.length := by
        simp only [List.length_append, List.length_cons, pairs]
        omega
      rw [allTexts] at aligned
      -- a single token leaves the rest of the tokens to the rest of the arguments
      have tail : a.tokenCount = 1 →
          (Rebuilds fp margin (front ++ a :: rest) tokens (front.length + 1) args ↔
            SurvivesFrom fp margin (front.length + 1) (front.length + (rest.length + 1)) rest args) := by
        intro single
        have length := length_argTexts fp a memory kind' known
        have dropped : tokens.drop (front ++ [a]).length = allTexts fp rest args := by
          rw [List.length_append, List.length_singleton, ← List.drop_drop, aligned,
            List.drop_left' (by rw [length, single])]
        have next := ih (front ++ [a]) dropped
          (fun b listed => exact_types b (List.mem_cons_of_mem a listed))
          (fun b listed => lengths b (List.mem_cons_of_mem a listed))
        simp only [List.append_assoc, List.singleton_append, List.length_append,
          List.length_singleton] at next
        rwa [show front.length + 1 + rest.length = front.length + (rest.length + 1) by omega] at next
      rw [survivesFrom_cons, List.length_cons]
      by_cases scalar : a.arrLength = 0
      · have single : a.tokenCount = 1 := if_pos scalar
        have value := decodeSlot_scalar fp margin a memory kind' known exact_kind scalar size tokens _
          front.length aligned
        rw [rebuilds_single_iff fp margin _ tokens front.length a here memory args single, tail single]
        simp [value, scalar]
      · have image := decodeSlot_array fp margin a memory kind' known exact_kind (by omega) size tokens _
          front.length aligned
        by_cases single : a.tokenCount = 1
        · rw [rebuilds_single_iff fp margin _ tokens front.length a here memory args single, tail single, image]
          simp [ArraySurvives, scalar, single]
        · have several : 1 < a.tokenCount := by
            have count : a.tokenCount = a.arrLength.toNat := if_neg scalar
            omega
          rw [rebuilds_several_iff fp margin _ tokens front.length a here memory args several total, image]
          -- only the last argument may have several elements
          have alone : args = [] ↔ front.length + 1 = front.length + (rest.length + 1) := by
            rw [← List.length_eq_zero_iff]
            omega
          constructor
          · rintro ⟨value, none⟩
            refine ⟨Or.inr ⟨Or.inl (alone.mp none), value⟩, fun k b other listed => ?_⟩
            have empty : rest = [] := List.length_eq_zero_iff.mp (by rw [pairs, none]; rfl)
            simp [empty] at listed
          · rintro ⟨array | ⟨place, value⟩, _⟩
            · exact absurd array scalar
            · exact ⟨value, alone.mpr (place.resolve_right single)⟩

/-- Marshalling an argument list of chars, shorts, ints and longs gives it back
exactly when it is transmissible. -/
theorem roundTrips_iff (fp : FloatText) (margin : Margin) (types : List CInt) (args : List Bytes)
    (some_types : types ≠ []) (exact_types : ExactTypes (types.map Args.ofType))
    (matching : Matching (types.map Args.ofType) args)
    (chars : CharsAvoid bar (types.map Args.ofType) args) :
    RoundTrips fp margin types args ↔ Transmissible fp margin (types.map Args.ofType) args := by
  have lengths := nonneg_types types
  have encoded := marshallArgs_eq fp types [0] args (matching.readable _ _)
  have free := allTexts_free bar bar_not_in_decimal fp _ args (matching.readable _ _) exact_types chars
  have some_text := argTexts_ne_nil fp _ args matching (by simpa using some_types) lengths
  have decoded := rebuilds_iff fp margin [] (types.map Args.ofType) args
    (allTexts fp (types.map Args.ofType) args) rfl matching exact_types lengths
  simp only [List.nil_append, List.length_nil, Nat.zero_add] at decoded
  rw [Transmissible, ← decoded]
  constructor
  · rintro ⟨text, tokens, writes, marshalled, parts, run, held⟩
    rw [encoded] at marshalled
    cases marshalled
    by_cases fits : Splittable (joinedText fp (types.map Args.ofType) args) bar
    · rw [split_joinedText fp _ args some_text free fits] at parts
      cases parts
      refine ⟨fits, writes, run, fun k memory there => ?_⟩
      simpa using held k memory there
    · rw [split_error _ _ fits] at parts
      cases parts
  · rintro ⟨fits, writes, run, held⟩
    refine ⟨_, _, writes, encoded, split_joinedText fp _ args some_text free fits, run,
      fun k memory there => ?_⟩
    simpa using held k memory there

theorem roundTrips_char_long :
    RoundTrips .absent (fun _ => 0) [0x80010000, 0x80040000] [[97], [1, 0, 0, 0, 0, 0, 0, 0x80]] := by
  refine (roundTrips_iff _ _ _ _ (by decide) ?_ ?_ ?_).mpr ⟨splittable_of_length _ _ (by decide), ?_⟩
  · intro a member
    simp only [List.map_cons, List.map_nil, List.mem_cons, List.not_mem_nil, or_false] at member
    rcases member with rfl | rfl
    · exact ⟨.char, by decide⟩
    · exact ⟨.long, by decide⟩
  · exact .cons ⟨.char, by decide⟩ (.cons ⟨.long, by decide⟩ .nil)
  · exact .cons (by decide) (.cons (by decide) .nil)
  · intro k a memory here _
    have types := List.mem_of_getElem? here
    simp only [List.map_cons, List.map_nil, List.mem_cons, List.not_mem_nil, or_false] at types
    rcases types with rfl | rfl
    · exact Or.inl (by decide)
    · exact Or.inl (by decide)

/-- The short array 12345, 6 is decoded as the digits "1234". -/
theorem short_array_garbled :
    ExactTypes ([0x80020002].map Args.ofType) ∧
    Matching ([0x80020002].map Args.ofType) [[0x39, 0x30, 6, 0]] ∧
    CharsAvoid bar ([0x80020002].map Args.ofType) [[0x39, 0x30, 6, 0]] ∧
    ¬ RoundTrips .absent (fun _ => 0) [0x80020002] [[0x39, 0x30, 6, 0]] := by
  refine ⟨?_, .cons ⟨.short, by decide⟩ .nil, .cons (by decide) .nil, ?_⟩
  · intro a member
    simp only [List.map_cons, List.map_nil, List.mem_singleton] at member
    exact ⟨.short, by rw [member]; decide⟩
  · rintro ⟨text, tokens, writes, marshalled, parts, run, held⟩
    cases marshalled.symm.trans (show _ = .ok [49, 50, 51, 52, 53, 124, 54] by rfl)
    cases parts.symm.trans (show _ = .ok [[49, 50, 51, 52, 53], [54]] by rfl)
    rw [unmarshallArgs, unmarshallLoop_next _ _ _ _ 0 _ rfl _ rfl,
      unmarshallLoop_done _ _ _ _ _ (by decide)] at run
    cases run
    obtain ⟨block, slot, value⟩ := held 0 _ rfl
    cases slot
    exact absurd value (by decide)

end BinderRpc.RoundTrip
