import BinderRpc.Model.Signature

/-!
Reading a key back. A name without '|' and argument fields printed by `to_stri`
come back from `split` token by token. The tokens behind the name also tell how
far a name with delimiters can imitate another signature: up to an array length
that is the imitator's count, and so never one whose arguments are all scalars.
-/

namespace BinderRpc.Keys

open Text Signature Joining Decimal

def keyTail (args : List Args) : List Bytes :=
  toStri args.length :: (if args = [] then [[]] else args.flatMap Args.fields)

theorem keyTokens_eq (name : Bytes) (args : List Args) :
    keyTokens name args = name :: keyTail args := rfl

theorem fields_free (a : Args) : ∀ text ∈ a.fields, bar ∉ text := by
  intro text member
  simp only [Args.fields, List.mem_cons, List.not_mem_nil, or_false] at member
  rcases member with rfl | rfl | rfl | rfl <;> exact bar_not_in_decimal _

theorem keyTail_free (args : List Args) : ∀ text ∈ keyTail args, bar ∉ text := by
  intro text member
  rcases List.mem_cons.mp member with rfl | later
  · exact bar_not_in_decimal _
  · by_cases none : args = []
    · rw [if_pos none, List.mem_singleton] at later
      simp [later]
    · rw [if_neg none] at later
      obtain ⟨a, _, inside⟩ := List.mem_flatMap.mp later
      exact fields_free a text inside

theorem length_keyTail (args : List Args) (some_args : args ≠ []) :
    (keyTail args).length = 1 + 4 * args.length := by
  have fields : (args.flatMap Args.fields).length = 4 * args.length := by
    simp [List.length_flatMap, Args.fields, Nat.mul_comm]
  rw [keyTail, if_neg some_args, List.length_cons, fields, Nat.add_comm]

theorem splitOn_named (name : Bytes) (tokens : List Bytes) (some_tokens : tokens ≠ [])
    (free : ∀ text ∈ tokens, bar ∉ text) :
    ([bar].intercalate (name :: tokens)).splitOn bar = name.splitOn bar ++ tokens := by
  rw [List.intercalate_cons_of_ne_nil some_tokens, List.append_assoc, List.singleton_append,
    List.splitOn_append_cons_self, List.splitOn_intercalate bar free some_tokens]

theorem splitOn_keyText (name : Bytes) (args : List Args) :
    ([bar].intercalate (keyTokens name args)).splitOn bar = name.splitOn bar ++ keyTail args := by
  rw [keyTokens_eq]
  exact splitOn_named name (keyTail args) (List.cons_ne_nil _ _) (keyTail_free args)

theorem splitOn_getKey (f : Function) :
    f.getKey.splitOn bar = f.name.splitOn bar ++ keyTail f.args := by
  rw [getKey_eq, splitOn_keyText]

def InRange (value : Int) : Prop := -(2 ^ 31) ≤ value ∧ value < 2 ^ 31

def IntFields (args : List Args) : Prop :=
  ∀ a ∈ args, InRange a.input ∧ InRange a.output ∧ InRange a.type ∧ InRange a.arrLength

theorem intFields_args (f : Function) : IntFields f.args := by
  intro a member
  rw [args_eq] at member
  obtain ⟨argType, _, rfl⟩ := List.mem_map.mp member
  have bounds := ofType_bounds argType
  simp only [InRange]
  omega

theorem element_at {α : Type} (front back : List α) (value : α) (index : Nat)
    (place : index = front.length) : element (front ++ value :: back) index = .ok value := by
  simp [element, place]

theorem parseArgs_fields (args : List Args) (front back : List Bytes) (index : Nat)
    (place : index = front.length) (ints : IntFields args) :
    parseArgs (front ++ args.flatMap Args.fields ++ back) args.length index = .ok args := by
  induction args generalizing front index with
  | nil => rfl
  | cons a rest ih =>
      obtain ⟨⟨input, output, type, arrLength⟩, others⟩ := List.forall_mem_cons.mp ints
      have next := ih (front ++ a.fields) (index + 4) (by simp [Args.fields, place]) others
      have tokens : front ++ (a :: rest).flatMap Args.fields ++ back =
          front ++ a.fields ++ rest.flatMap Args.fields ++ back := by
        simp
      rw [tokens]
      have first := element_at front (toStri a.output :: toStri a.type :: toStri a.arrLength ::
        (rest.flatMap Args.fields ++ back)) (toStri a.input) index place
      have second := element_at (front ++ [toStri a.input]) (toStri a.type :: toStri a.arrLength ::
        (rest.flatMap Args.fields ++ back)) (toStri a.output) (index + 1) (by simp [place])
      have third := element_at (front ++ [toStri a.input, toStri a.output]) (toStri a.arrLength ::
        (rest.flatMap Args.fields ++ back)) (toStri a.type) (index + 2) (by simp [place])
      have fourth := element_at (front ++ [toStri a.input, toStri a.output, toStri a.type])
        (rest.flatMap Args.fields ++ back) (toStri a.arrLength) (index + 3) (by simp [place])
      simp only [Args.fields, List.append_assoc, List.cons_append, List.nil_append] at *
      simp only [List.length_cons, parseArgs, first, second, third, fourth, next, Outcome.ok_bind,
        stoi_toStri _ input.1 input.2, stoi_toStri _ output.1 output.2,
        stoi_toStri _ type.1 type.2, stoi_toStri _ arrLength.1 arrLength.2, pure, Except.pure]

theorem parseKey_tokens (name : Bytes) (args : List Args) (free : bar ∉ name)
    (ints : IntFields args) (few : args.length < 2 ^ 31)
    (fits : Splittable ([bar].intercalate (keyTokens name args)) bar) :
    parseKey ([bar].intercalate (keyTokens name args)) = .ok ⟨name, args.length, args⟩ := by
  have tokens_free : ∀ text ∈ keyTokens name args, bar ∉ text := by
    rw [keyTokens_eq]
    exact List.forall_mem_cons.mpr ⟨free, keyTail_free args⟩
  have tokens := split_ok _ _ fits
  rw [List.splitOn_intercalate bar tokens_free (by simp [keyTokens])] at tokens
  have count : stoi (toStri args.length) = .ok (args.length : Int) :=
    stoi_toStri _ (by omega) (by exact_mod_cast few)
  have fields : parseArgs (keyTokens name args) args.length 2 = .ok args := by
    by_cases none : args = []
    · subst none
      rfl
    · have whole := parseArgs_fields args [name, toStri args.length] [] 2 rfl ints
      rw [List.append_nil] at whole
      rwa [keyTokens, if_neg none]
  have head : element (keyTokens name args) 0 = .ok name := rfl
  have second : element (keyTokens name args) 1 = .ok (toStri args.length) := rfl
  simp only [parseKey, tokens, head, second, count, Int.toNat_natCast, fields, Outcome.ok_bind,
    pure, Except.pure]

theorem length_args_le (f : Function) : f.args.length ≤ f.getKey.length := by
  have pieces := length_pieces_le bar (keyTokens f.name f.args)
  rw [← getKey_eq] at pieces
  have many : f.args.length + 1 < (keyTokens f.name f.args).length := by
    rw [keyTokens_eq, List.length_cons]
    by_cases none : f.args = []
    · simp [none, keyTail]
    · rw [length_keyTail f.args none]
      omega
  omega

theorem parseKey_getKey (f : Function) (free : bar ∉ f.name) (short : f.getKey.length < 2 ^ 31) :
    parseKey f.getKey = .ok ⟨f.name, f.args.length, f.args⟩ := by
  have few := length_args_le f
  have fits := splittable_of_length f.getKey bar short
  rw [getKey_eq] at fits
  have parsed := parseKey_tokens f.name f.args free (intFields_args f) (by omega) fits
  rwa [← getKey_eq] at parsed

/-! What a key says about the arguments, whatever the name. -/

theorem fields_injective (left right : List Args)
    (same : left.flatMap Args.fields = right.flatMap Args.fields) : left = right := by
  induction left generalizing right with
  | nil =>
      cases right with
      | nil => rfl
      | cons b rest => simp [Args.fields] at same
  | cons a rest ih =>
      cases right with
      | nil => simp [Args.fields] at same
      | cons b others =>
          simp only [List.flatMap_cons, Args.fields, List.cons_append, List.nil_append,
            List.cons.injEq] at same
          obtain ⟨input, output, type, arrLength, later⟩ := same
          have first : a = b := by
            cases a
            cases b
            simp only [Args.mk.injEq]
            exact ⟨decimal_injective input, decimal_injective output, decimal_injective type,
              decimal_injective arrLength⟩
          rw [first, ih others later]

theorem keyTail_injective (left right : List Args) (same : keyTail left = keyTail right) :
    left = right := by
  obtain ⟨count, later⟩ := List.cons.inj same
  have lengths : left.length = right.length := by exact_mod_cast decimal_injective count
  by_cases none : left = []
  · subst none
    exact (List.length_eq_zero_iff.mp lengths.symm).symm
  · have some_right : right ≠ [] := by
      rintro rfl
      exact none (List.length_eq_zero_iff.mp lengths)
    rw [if_neg none, if_neg some_right] at later
    exact fields_injective left right later

theorem nil_mem_keyTail (args : List Args) : [] ∈ keyTail args ↔ args = [] := by
  constructor
  · intro member
    by_contra some_args
    rw [keyTail, if_neg some_args] at member
    rcases List.mem_cons.mp member with count | field
    · exact decimal_ne_nil _ count.symm
    · obtain ⟨a, _, there⟩ := List.mem_flatMap.mp field
      simp only [Args.fields, List.mem_cons, List.not_mem_nil, or_false] at there
      rcases there with text | text | text | text <;> exact decimal_ne_nil _ text.symm
  · rintro rfl
    simp [keyTail]

theorem keyTail_cut (lead back : List Args) (a : Args) :
    keyTail (lead ++ a :: back) =
      (toStri (lead ++ a :: back).length :: (lead.flatMap Args.fields ++
        [toStri a.input, toStri a.output, toStri a.type])) ++
      (toStri a.arrLength :: back.flatMap Args.fields) := by
  rw [keyTail, if_neg (by simp)]
  simp [Args.fields]

/-- Tokens in front of a tail make another tail only where an array length of the
other is the count. -/
theorem keyTail_suffix (left right : List Args) (extra : List Bytes) (some_extra : extra ≠ []) :
    extra ++ keyTail right = keyTail left ↔
      right ≠ [] ∧ ∃ lead a, left = lead ++ a :: right ∧ a.arrLength = right.length ∧
        extra = toStri left.length :: (lead.flatMap Args.fields ++
          [toStri a.input, toStri a.output, toStri a.type]) := by
  have positive := List.length_pos_iff.mpr some_extra
  constructor
  · intro same
    have lengths := congrArg List.length same
    rw [List.length_append] at lengths
    have some_right : right ≠ [] := by
      rintro rfl
      have empty : [] ∈ keyTail left := by
        rw [← same]
        exact List.mem_append_right _ ((nil_mem_keyTail []).mpr rfl)
      have none := (nil_mem_keyTail left).mp empty
      subst none
      omega
    have some_left : left ≠ [] := by
      rintro rfl
      have empty := (nil_mem_keyTail []).mpr rfl
      have two : (keyTail []).length = 2 := rfl
      rw [length_keyTail right some_right, two] at lengths
      have := List.length_pos_iff.mpr some_right
      omega
    rw [length_keyTail right some_right, length_keyTail left some_left] at lengths
    have inside : left.length - right.length - 1 < left.length := by omega
    obtain ⟨lead, a, back, cut, place, count⟩ : ∃ lead a back, left = lead ++ a :: back ∧
        lead.length = left.length - right.length - 1 ∧ back.length = right.length := by
      refine ⟨left.take (left.length - right.length - 1), left[left.length - right.length - 1],
        left.drop (left.length - right.length - 1 + 1), ?_, ?_, ?_⟩
      · rw [← List.drop_eq_getElem_cons inside, List.take_append_drop]
      · rw [List.length_take]
        omega
      · rw [List.length_drop]
        omega
    have size : extra.length = (toStri left.length :: (lead.flatMap Args.fields ++
        [toStri a.input, toStri a.output, toStri a.type])).length := by
      have fields : (lead.flatMap Args.fields).length = 4 * lead.length := by
        simp [List.length_flatMap, Args.fields, Nat.mul_comm]
      rw [List.length_cons, List.length_append, fields]
      simp only [List.length_cons, List.length_nil]
      omega
    have behind : keyTail right = toStri right.length :: right.flatMap Args.fields := by
      rw [keyTail, if_neg some_right]
    rw [cut, keyTail_cut, ← cut, behind] at same
    obtain ⟨front, rest⟩ := List.append_inj same size
    obtain ⟨length, fields⟩ := List.cons.inj rest
    have same_back := fields_injective right back fields
    subst same_back
    exact ⟨some_right, lead, a, cut, (decimal_injective length).symm, front⟩
  · rintro ⟨some_right, lead, a, cut, count, rfl⟩
    rw [cut, keyTail_cut, ← cut, count, keyTail, if_neg some_right]

/-- A scalar signature under a name without delimiters shares its key only with
functions of the same argument fields. -/
theorem args_of_scalar_key (f g : Function) (free : bar ∉ f.name)
    (scalars : ∀ a ∈ f.args, a.arrLength = 0) (same : g.getKey = f.getKey) : g.args = f.args := by
  have tokens := congrArg (List.splitOn bar) same
  rw [splitOn_getKey, splitOn_getKey, List.splitOn_eq_singleton free] at tokens
  cases names : g.name.splitOn bar with
  | nil => exact absurd names (List.splitOn_ne_nil bar g.name)
  | cons first others =>
      rw [names] at tokens
      have tails : others ++ keyTail g.args = keyTail f.args := (List.cons.inj tokens).2
      cases others with
      | nil => exact keyTail_injective g.args f.args tails
      | cons second more =>
          -- an argument of `f` would have the count of `g` for its array length
          obtain ⟨some_args, lead, a, cut, count, _⟩ :=
            (keyTail_suffix f.args g.args (second :: more) (List.cons_ne_nil _ _)).mp tails
          have scalar := scalars a (by rw [cut]; simp)
          have positive := List.length_pos_iff.mpr some_args
          omega

end BinderRpc.Keys
