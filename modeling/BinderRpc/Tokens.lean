import BinderRpc.Marshalled

/-!
split against joining, and what it makes of a marshalled text. The encoder writes
chars as they are, so a char that is the delimiter falls apart into empty tokens.
-/

namespace BinderRpc.Tokens

open Text Signature Marshal Marshalled Joining

/-- Splitting and joining undo each other as far as an `int` counts; a join further
on is split back exactly when it has no delimiter there. -/
theorem split_joins (sep : UInt8) :
    (∀ text : Bytes, text.length < 2 ^ 31 →
      ∃ tokens, split text sep = .ok tokens ∧ tokens ≠ [] ∧ (∀ token ∈ tokens, sep ∉ token) ∧
        [sep].intercalate tokens = text) ∧
    ∀ tokens : List Bytes, tokens ≠ [] → (∀ token ∈ tokens, sep ∉ token) →
      (split ([sep].intercalate tokens) sep = .ok tokens ↔
        Splittable ([sep].intercalate tokens) sep) := by
  constructor
  · intro text short
    refine ⟨text.splitOn sep, split_ok text sep (splittable_of_length text sep short),
      List.splitOn_ne_nil sep text, free_of_mem_splitOn sep text, List.intercalate_splitOn sep⟩
  · intro tokens some_tokens free
    constructor
    · intro split_back
      by_contra wide
      rw [split_error _ _ wide] at split_back
      cases split_back
    · intro fits
      rw [split_ok _ _ fits, List.splitOn_intercalate sep free some_tokens]

theorem split_empty_tokens :
    ∃ tokens, split [124, 97, 124] bar = .ok tokens ∧ tokens ≠ [] ∧ (∀ token ∈ tokens, bar ∉ token) ∧
      [bar].intercalate tokens = [124, 97, 124] :=
  (split_joins bar).1 [124, 97, 124] (by decide)

/-- A token of 2^31 bytes, and an empty one behind it. -/
theorem long_token_lost :
    ∃ tokens : List Bytes, tokens ≠ [] ∧ (∀ token ∈ tokens, bar ∉ token) ∧
      split ([bar].intercalate tokens) bar ≠ .ok tokens := by
  obtain ⟨long, size, free⟩ : ∃ long : Bytes, long.length = 2 ^ 31 ∧ bar ∉ long := by
    refine ⟨List.replicate (2 ^ 31) 97, List.length_replicate, ?_⟩
    exact fun member => absurd (List.eq_of_mem_replicate member) (by decide)
  have wide : ¬ Splittable ([bar].intercalate [long, []]) bar := by
    intro fits
    have delimiter : ([bar].intercalate [long, []])[long.length]? = some bar := by
      simp [List.intercalate_cons_cons]
    have place := fits _ (Nat.zero_le _) delimiter
    omega
  refine ⟨[long, []], List.cons_ne_nil _ _, ?_, ?_⟩
  · intro token member
    simp only [List.mem_cons, List.not_mem_nil, or_false] at member
    rcases member with rfl | rfl
    · exact free
    · exact List.not_mem_nil
  · rw [split_error _ _ wide]
    exact fun same => by cases same

structure PlainFloats (fp : FloatText) : Prop where
  double : ∀ value, bar ∉ fp.printDouble value
  float : ∀ value, bar ∉ fp.printFloat value

/-- The marshalled text is split into the texts of the elements, one for a scalar and
one for each element of an array. -/
def Tokenises (fp : FloatText) (types after : List CInt) (args : List Bytes) : Prop :=
  ∃ text, marshallArgs fp (types ++ after) (args.map some) types.length = .ok text ∧
    split text bar = .ok (allTexts fp (types.map Args.ofType) args) ∧
    (allTexts fp (types.map Args.ofType) args).length =
      ((types.map Args.ofType).map fun a => max 1 a.arrLength.toNat).sum

theorem elementText_free_iff (fp : FloatText) (plain : PlainFloats fp) (kind : Kind) (object : Bytes) :
    bar ∉ elementText fp kind object ↔ (kind = .char → bar ∉ object) := by
  cases kind with
  | char => simp [elementText]
  | short => simpa [elementText, toStri] using bar_not_in_decimal _
  | int => simpa [elementText, toStri] using bar_not_in_decimal _
  | long => simpa [elementText, toStri] using bar_not_in_decimal _
  | double => simpa [elementText] using plain.double _
  | float => simpa [elementText] using plain.float _

theorem argTexts_free_iff (fp : FloatText) (plain : PlainFloats fp) (a : Args) (memory : Bytes)
    (kind : Kind) (known : a.kind = some kind) :
    (∀ text ∈ argTexts fp a memory, bar ∉ text) ↔
      (a.kind = some .char → bar ∉ memory.take a.tokenCount) := by
  have texts : (∀ text ∈ argTexts fp a memory, bar ∉ text) ↔
      ∀ object ∈ chunks kind.size a.tokenCount memory, kind = .char → bar ∉ object := by
    simp only [argTexts, known, List.forall_mem_map, elementText_free_iff fp plain]
  rw [texts, known]
  constructor
  · intro all char
    cases char
    have bytes := flatten_chunks 1 a.tokenCount memory
    rw [Nat.one_mul] at bytes
    rw [← bytes]
    intro member
    obtain ⟨object, listed, inside⟩ := List.mem_flatten.mp member
    exact all object listed rfl inside
  · rintro free object listed rfl inside
    have bytes := flatten_chunks 1 a.tokenCount memory
    rw [Nat.one_mul] at bytes
    apply free rfl
    rw [← bytes]
    exact List.mem_flatten.mpr ⟨object, listed, inside⟩

theorem allTexts_free_iff (fp : FloatText) (plain : PlainFloats fp) (infos : List Args)
    (args : List Bytes) (matching : Matching infos args) :
    (∀ text ∈ allTexts fp infos args, bar ∉ text) ↔ CharsAvoid bar infos args := by
  induction matching with
  | nil => simp [allTexts, CharsAvoid]
  | @cons a memory infos args describes _ ih =>
      obtain ⟨kind, known, _⟩ := describes
      rw [CharsAvoid, List.forall₂_cons, ← argTexts_free_iff fp plain a memory kind known]
      simp only [allTexts, List.forall_mem_append]
      exact and_congr_right fun _ => ih

theorem length_allTexts (fp : FloatText) (infos : List Args) (args : List Bytes)
    (matching : Matching infos args) (nonneg : ∀ a ∈ infos, 0 ≤ a.arrLength) :
    (allTexts fp infos args).length = (infos.map fun a => max 1 a.arrLength.toNat).sum := by
  induction matching with
  | nil => rfl
  | @cons a memory infos args describes _ ih =>
      obtain ⟨kind, known, _⟩ := describes
      have later := ih fun b listed => nonneg b (List.mem_cons_of_mem a listed)
      rw [allTexts, List.length_append, length_argTexts fp a memory kind known, later, List.map_cons,
        List.sum_cons, tokenCount_eq a (nonneg a List.mem_cons_self)]

theorem tokenises_iff (fp : FloatText) (plain : PlainFloats fp) (types after : List CInt)
    (args : List Bytes) (some_types : types ≠ [])
    (matching : Matching (types.map Args.ofType) args) :
    Tokenises fp types after args ↔
      CharsAvoid bar (types.map Args.ofType) args ∧
        Splittable (joinedText fp (types.map Args.ofType) args) bar := by
  have encoded := marshallArgs_eq fp types after args (matching.readable _ _)
  have nonneg := nonneg_types types
  rw [← allTexts_free_iff fp plain _ args matching]
  constructor
  · rintro ⟨text, marshalled, tokens, _⟩
    cases encoded.symm.trans marshalled
    by_cases fits : Splittable (joinedText fp (types.map Args.ofType) args) bar
    · rw [split_ok _ _ fits] at tokens
      have cut := free_of_mem_splitOn bar (joinedText fp (types.map Args.ofType) args)
      rw [Except.ok.inj tokens] at cut
      exact ⟨cut, fits⟩
    · rw [split_error _ _ fits] at tokens
      cases tokens
  · rintro ⟨free, fits⟩
    have some_text := argTexts_ne_nil fp _ args matching (by simpa using some_types) nonneg
    exact ⟨_, encoded, split_joinedText fp _ args some_text free fits,
      length_allTexts fp _ args matching nonneg⟩

theorem tokenises_shorts_char :
    Tokenises .absent [0x80020002, 0x80010000] [0] [[5, 0, 6, 0], [97]] := by
  have plain : PlainFloats .absent := ⟨fun _ => List.not_mem_nil, fun _ => List.not_mem_nil⟩
  refine (tokenises_iff .absent plain _ _ _ (by decide) ?_).mpr ⟨?_, splittable_of_length _ _ (by decide)⟩
  · exact .cons ⟨.short, by decide⟩ (.cons ⟨.char, by decide⟩ .nil)
  · exact .cons (by decide) (.cons (by decide) .nil)

/-- The char `|` is split into two empty tokens. -/
theorem delimiter_char_split :
    Matching ([0x80010000].map Args.ofType) [[bar]] ∧
      marshallArgs .absent [0x80010000, 0] [some [bar]] 1 = .ok [bar] ∧
      split [bar] bar = .ok [[], []] ∧ ¬ Tokenises .absent [0x80010000] [0] [[bar]] := by
  have encoded : marshallArgs .absent [0x80010000, 0] [some [bar]] 1 = .ok [bar] := by rfl
  have tokens : split [bar] bar = .ok [[], []] := by rfl
  refine ⟨.cons ⟨.char, by decide⟩ .nil, encoded, tokens, ?_⟩
  rintro ⟨text, marshalled, parts, _⟩
  cases encoded.symm.trans marshalled
  exact absurd (Except.ok.inj (tokens.symm.trans parts)) (by decide)

end BinderRpc.Tokens
