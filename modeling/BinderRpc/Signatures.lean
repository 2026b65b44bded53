import BinderRpc.Keys

/-!
What a key says about the function it was made from. The parse gives back name,
count and arguments whenever the positions of its delimiters are `int`s. Two
functions share a key only if they agree, or if the name of one runs on, after
the name of the other, through that one's count and leading arguments up to an
array length that passes for a count.
-/

namespace BinderRpc.Signatures

open Text Signature Joining Decimal Keys

/-- A delimiter stands behind the last but one token, which leaves at least four
bytes in front of it for every argument. -/
theorem few_of_splittable (name : Bytes) (args : List Args)
    (fits : Splittable ([bar].intercalate (keyTokens name args)) bar) : args.length < 2 ^ 31 := by
  by_cases none : args = []
  · simp [none]
  · have some_tail : keyTail args ≠ [] := List.cons_ne_nil _ _
    have tokens : keyTokens name args =
        (name :: (keyTail args).dropLast) ++ [(keyTail args).getLast some_tail] := by
      rw [keyTokens_eq, List.cons_append, List.dropLast_append_getLast]
    have text := intercalate_append bar (name :: (keyTail args).dropLast)
      [(keyTail args).getLast some_tail] (List.cons_ne_nil _ _) (List.cons_ne_nil _ _)
    rw [← tokens] at text
    have pieces := length_pieces_le bar (name :: (keyTail args).dropLast)
    rw [List.length_cons, List.length_dropLast, length_keyTail args none] at pieces
    -- the delimiter in front of the last token
    have delimiter : ([bar].intercalate (keyTokens name args))[
        ([bar].intercalate (name :: (keyTail args).dropLast)).length]? = some bar := by
      rw [text, List.getElem?_append_right (Nat.le_refl _), Nat.sub_self]
      rfl
    have place := fits _ (Nat.zero_le _) delimiter
    omega

theorem intFields_types (types : List CInt) : IntFields (types.map Args.ofType) := by
  intro a member
  obtain ⟨argType, _, rfl⟩ := List.mem_map.mp member
  have bounds := ofType_bounds argType
  simp only [InRange]
  omega

/-- The bits of one argument type, as they stand in the fields of an argument. -/
structure BitsOf (argType : CInt) (a : Args) : Prop where
  input : a.input = (argType.toNat / 2 ^ 31 % 2 : Nat)
  output : a.output = (argType.toNat / 2 ^ 30 % 2 : Nat)
  type : a.type = (argType.toNat / 2 ^ 16 % 2 ^ 4 : Nat)
  arrLength : a.arrLength = (argType.toNat % 2 ^ 16 : Nat)

theorem bitsOf_ofType (argType : CInt) : BitsOf argType (Args.ofType argType) := by
  rw [ofType_bits]
  exact ⟨rfl, rfl, rfl, rfl⟩

/-- The key parses into the name, the count and the function's own arguments,
each with the bits of its type. -/
structure ParsesBack (f : CountedFunction) : Prop where
  parsed : parseKey f.getKey = .ok ⟨f.name, f.argLength, f.args⟩
  bits : List.Forall₂ BitsOf (f.argTypes.take f.argLength) f.args

theorem parsesBack_iff (f : CountedFunction) (free : bar ∉ f.name) :
    ParsesBack f ↔ Splittable f.getKey bar := by
  constructor
  · intro back
    by_contra wide
    have parsed := back.parsed
    rw [parseKey, split_error _ _ wide] at parsed
    cases parsed
  · intro fits
    rw [f.getKey_eq] at fits
    have few := few_of_splittable f.name f.args fits
    have parsed := parseKey_tokens f.name f.args free (intFields_types _) few fits
    constructor
    · rw [f.getKey_eq, parsed, f.length_args]
    · rw [CountedFunction.args, List.forall₂_map_right_iff]
      exact List.forall₂_same.mpr fun argType _ => bitsOf_ofType argType

def charsAndInt : CountedFunction := ⟨[102], [0xC0010007, 0x40030000], 2, by decide⟩

theorem parsesBack_charsAndInt : ParsesBack charsAndInt := by
  apply (parsesBack_iff charsAndInt (by decide)).mpr
  exact splittable_of_length _ bar (by decide)

/-- The delimiter behind a name of 2^31 bytes has no `int` position. -/
theorem long_name_unparsed :
    ∃ f : CountedFunction, bar ∉ f.name ∧ f.argLength = 0 ∧ parseKey f.getKey = .error .badSize := by
  obtain ⟨name, size, free⟩ : ∃ name : Bytes, name.length = 2 ^ 31 ∧ bar ∉ name := by
    refine ⟨List.replicate (2 ^ 31) 97, List.length_replicate, ?_⟩
    exact fun member => absurd (List.eq_of_mem_replicate member) (by decide)
  refine ⟨⟨name, [], 0, Nat.le_refl 0⟩, free, rfl, ?_⟩
  have delimiter : (CountedFunction.mk name [] 0 (Nat.le_refl 0)).getKey[name.length]? = some bar := by
    simp [CountedFunction.getKey, List.append_assoc]
  have wide : ¬ Splittable (CountedFunction.mk name [] 0 (Nat.le_refl 0)).getKey bar := by
    intro fits
    have place := fits _ (Nat.zero_le _) delimiter
    omega
  rw [parseKey, split_error _ _ wide]
  rfl

/-- `f` passes for the last arguments of `g`: its name is the name, the count and
the leading arguments of `g` up to an array length that is the count of `f`. -/
structure Imitates (f g : CountedFunction) : Prop where
  some_args : f.args ≠ []
  name : ∃ lead a, g.args = lead ++ a :: f.args ∧ a.arrLength = f.args.length ∧
    f.name = [bar].intercalate (g.name :: toStri g.args.length :: (lead.flatMap Args.fields ++
      [toStri a.input, toStri a.output, toStri a.type]))

theorem extra_free (count : Nat) (lead : List Args) (a : Args) :
    ∀ text ∈ toStri count :: (lead.flatMap Args.fields ++
      [toStri a.input, toStri a.output, toStri a.type]), bar ∉ text := by
  intro text member
  rcases List.mem_cons.mp member with rfl | later
  · exact bar_not_in_decimal _
  · rcases List.mem_append.mp later with leading | last
    · obtain ⟨b, _, inside⟩ := List.mem_flatMap.mp leading
      exact fields_free b text inside
    · simp only [List.mem_cons, List.not_mem_nil, or_false] at last
      rcases last with rfl | rfl | rfl <;> exact bar_not_in_decimal _

theorem getKey_eq_iff_tokens (f g : CountedFunction) :
    f.getKey = g.getKey ↔
      f.name.splitOn bar ++ keyTail f.args = g.name.splitOn bar ++ keyTail g.args := by
  rw [f.getKey_eq, g.getKey_eq, ← splitOn_keyText, ← splitOn_keyText]
  constructor
  · exact congrArg _
  · intro same
    have text := congrArg [bar].intercalate same
    rwa [List.intercalate_splitOn, List.intercalate_splitOn] at text

theorem Imitates.getKey_eq (f g : CountedFunction) (imitates : Imitates f g) : f.getKey = g.getKey := by
  obtain ⟨some_args, lead, a, cut, count, name⟩ := imitates
  rw [getKey_eq_iff_tokens, name, splitOn_named g.name _ (List.cons_ne_nil _ _) (extra_free _ lead a),
    List.append_assoc]
  -- both now start with the tokens of g's name
  congr 1
  exact (keyTail_suffix g.args f.args _ (List.cons_ne_nil _ _)).mpr
    ⟨some_args, lead, a, cut, count, rfl⟩

theorem same_or_imitates (f g : CountedFunction) (extra : List Bytes)
    (names : f.name.splitOn bar = g.name.splitOn bar ++ extra)
    (tails : extra ++ keyTail f.args = keyTail g.args) :
    (f.name = g.name ∧ f.args = g.args) ∨ Imitates f g := by
  by_cases none : extra = []
  · subst none
    rw [List.append_nil] at names
    have name := congrArg [bar].intercalate names
    rw [List.intercalate_splitOn, List.intercalate_splitOn] at name
    exact Or.inl ⟨name, keyTail_injective _ _ tails⟩
  · obtain ⟨some_args, lead, a, cut, count, tokens⟩ :=
      (keyTail_suffix g.args f.args extra none).mp tails
    have text := intercalate_append bar (g.name.splitOn bar) extra (List.splitOn_ne_nil _ _) none
    rw [← names, List.intercalate_splitOn, List.intercalate_splitOn] at text
    refine Or.inr ⟨some_args, lead, a, cut, count, ?_⟩
    rw [← tokens, text, List.intercalate_cons_of_ne_nil none, List.append_assoc]
    rfl

theorem not_imitates_of_free (f g : CountedFunction) (free : bar ∉ f.name) : ¬ Imitates f g := by
  rintro ⟨_, lead, a, _, _, name⟩
  apply free
  rw [name, List.intercalate_cons_of_ne_nil (List.cons_ne_nil _ _)]
  simp

/-- Equal keys belong to equal signatures, or to a name that imitates the front of
the other signature; a name without delimiters imitates nothing. -/
theorem keys_identify (f g : CountedFunction) :
    (f.getKey = g.getKey ↔ (f.name = g.name ∧ f.args = g.args) ∨ Imitates f g ∨ Imitates g f) ∧
      (bar ∉ f.name → ¬ Imitates f g) := by
  refine ⟨⟨?_, ?_⟩, not_imitates_of_free f g⟩
  · intro same
    -- one name has all the tokens of the other, and perhaps more
    rcases List.append_eq_append_iff.mp ((getKey_eq_iff_tokens f g).mp same) with
      ⟨extra, names, tails⟩ | ⟨extra, names, tails⟩
    · rcases same_or_imitates g f extra names tails.symm with ⟨name, args⟩ | imitates
      · exact Or.inl ⟨name.symm, args.symm⟩
      · exact Or.inr (Or.inr imitates)
    · rcases same_or_imitates f g extra names tails.symm with equal | imitates
      · exact Or.inl equal
      · exact Or.inr (Or.inl imitates)
  · rintro (⟨name, args⟩ | imitates | imitates)
    · rw [f.getKey_eq, g.getKey_eq, name, args]
    · exact imitates.getKey_eq f g
    · exact (imitates.getKey_eq g f).symm

def twoArguments : CountedFunction := ⟨[120], [0xC0010001, 0xC0030000], 2, by decide⟩

def imitator : CountedFunction :=
  ⟨[120, 124, 50, 124, 49, 124, 49, 124, 49], [0xC0030000], 1, by decide⟩

theorem imitator_collides :
    imitator.getKey = twoArguments.getKey ∧ 0 ∉ imitator.name ∧ 0 ∉ twoArguments.name ∧
      imitator.name ≠ twoArguments.name ∧ imitator.args ≠ twoArguments.args := by
  decide

theorem keys_differ : charsAndInt.getKey ≠ twoArguments.getKey := by
  intro same
  rcases (keys_identify charsAndInt twoArguments).1.mp same with ⟨name, _⟩ | imitates | imitates
  · exact absurd name (by decide)
  · exact (keys_identify charsAndInt twoArguments).2 (by decide) imitates
  · exact (keys_identify twoArguments charsAndInt).2 (by decide) imitates

end BinderRpc.Signatures
