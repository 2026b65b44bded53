import BinderRpc.Execution

/-!
Remote execution of signatures without arrays, from the client's frame to the
client's view of the response. The request always reaches the skeleton with the
client's values; the response always comes back unless its own length does not
fit an `int`, which happens when the results print longer than the arguments.
-/

namespace BinderRpc.ScalarCalls

open Octets Text Signature Marshal Marshalled RoundTrip Socket Database Client Server Frames Execution
  Joining

def Scalars (infos : List Args) : Prop := ∀ a ∈ infos, a.arrLength = 0

def HoldsValues (slots : Slots) (args : List Bytes) : Prop :=
  ∀ k value, args[k]? = some value → ∃ memory, slots k = some memory ∧ memory.take value.length = value

def SlotsReadable (infos : List Args) (slots : Slots) : Prop :=
  ∀ k a, infos[k]? = some a → ∃ memory, slots k = some memory ∧ Holds a memory

def SlotsPrintable (infos : List Args) (slots : Slots) : Prop :=
  ∀ k a memory, infos[k]? = some a → slots k = some memory → a.kind = some .char →
    0 ∉ memory.take a.tokenCount

theorem split_scalars (fp : FloatText) (margin : Margin) (infos : List Args) (args : List Bytes)
    (matching : Matching infos args) (exact_types : ExactTypes infos) (scalars : Scalars infos)
    (chars : CharsAvoid bar infos args) (fits : Splittable (joinedText fp infos args) bar) :
    ∃ tokens, split (joinedText fp infos args) bar = .ok tokens ∧ Rebuilds fp margin infos tokens 0 args := by
  have lengths : ∀ a ∈ infos, 0 ≤ a.arrLength := fun a member => by rw [scalars a member]
  by_cases none : infos = []
  · subst none
    cases matching
    exact ⟨[[]], split_ok _ _ fits, rebuilds_done fp margin [] [[]]⟩
  · have free := allTexts_free bar bar_not_in_decimal fp infos args (matching.readable _ _) exact_types
      chars
    have some_text := argTexts_ne_nil fp infos args matching none lengths
    refine ⟨_, split_joinedText fp infos args some_text free fits, ?_⟩
    have rebuilt := rebuilds_iff fp margin [] infos args (allTexts fp infos args) rfl matching exact_types
      lengths
    apply rebuilt.mpr
    intro k a memory here _
    exact Or.inl (scalars a (List.mem_of_getElem? here))

theorem slots_value (stale : Nat → Stale) (writes : List (Nat × Block)) (k : Nat) (value : Bytes)
    (held : SlotHolds writes k value) :
    ∃ memory, slots stale writes k = some memory ∧ memory.take value.length = value := by
  obtain ⟨block, slot, cells⟩ := held
  refine ⟨block.cells.mapIdx fun i cell => cell.getD (stale k i), by rw [slots, slot]; rfl, ?_⟩
  apply List.ext_getElem?
  intro i
  by_cases inside : i < value.length
  · have cell := congrArg (·[i]?) cells
    simp only [List.getElem?_take_of_lt inside, List.getElem?_map,
      List.getElem?_eq_getElem inside, Option.map_some] at cell
    rw [List.getElem?_take_of_lt inside, List.getElem?_mapIdx, cell, List.getElem?_eq_getElem inside]
    rfl
  · rw [List.getElem?_eq_none (by rw [List.length_take]; omega), List.getElem?_eq_none (by omega)]

theorem slotsReadable_of_values (infos : List Args) (args : List Bytes) (slots : Slots)
    (matching : Matching infos args) (values : HoldsValues slots args) : SlotsReadable infos slots := by
  intro k a here
  obtain ⟨lengths, pairs⟩ := List.forall₂_iff_get.mp matching
  obtain ⟨inside, rfl⟩ := List.getElem?_eq_some_iff.mp here
  obtain ⟨kind, known, size⟩ := pairs k inside (by omega)
  obtain ⟨memory, slot, value⟩ := values k args[k] (List.getElem?_eq_getElem (by omega))
  refine ⟨memory, slot, kind, known, ?_⟩
  have enough := congrArg List.length value
  rw [List.length_take] at enough
  simp only [List.get_eq_getElem] at size
  omega

def slotMemory (slots : Slots) (n : Nat) : List Bytes := (List.range n).map fun k => (slots k).getD []

theorem slotMemory_pointers (infos : List Args) (slots : Slots) (readable : SlotsReadable infos slots) :
    (List.range infos.length).map slots = (slotMemory slots infos.length).map some := by
  rw [slotMemory, List.map_map]
  apply List.map_congr_left
  intro k member
  obtain ⟨memory, slot, _⟩ := readable k _ (List.getElem?_eq_getElem (List.mem_range.mp member))
  simp [slot]

theorem slotMemory_readable (infos : List Args) (slots : Slots) (readable : SlotsReadable infos slots) :
    Readable infos (slotMemory slots infos.length) := by
  apply List.forall₂_iff_get.mpr
  refine ⟨by simp [slotMemory], ?_⟩
  intro k inside _
  obtain ⟨memory, slot, holds⟩ := readable k _ (List.getElem?_eq_getElem inside)
  simpa [slotMemory, slot] using holds

theorem slotMemory_printable (infos : List Args) (slots : Slots) (readable : SlotsReadable infos slots)
    (printable : SlotsPrintable infos slots) :
    CharsAvoid 0 infos (slotMemory slots infos.length) := by
  apply List.forall₂_iff_get.mpr
  refine ⟨by simp [slotMemory], ?_⟩
  intro k inside _ char
  have here := List.getElem?_eq_getElem inside
  obtain ⟨memory, slot, _⟩ := readable k _ here
  have free := printable k _ memory here slot char
  simpa [slotMemory, slot] using free

section Call

variable (fp : FloatText) (memory : Memory) (db : ServerDB Skeleton) (f g : Function) (q : Skeleton)
  (args : List Bytes) (frame rest : Bytes) (socket : Link)

/-- What a skeleton of a scalar procedure may be relied on for: it leaves
readable objects behind, and no NUL where it reports success. -/
def Behaves (infos : List Args) (q : Skeleton) : Prop :=
  ∀ types slots, SlotsReadable infos slots →
    SlotsReadable infos (q types slots).2 ∧
      ((q types slots).1 = 0 → SlotsPrintable infos (q types slots).2)

theorem scalar_request (name_bar : bar ∉ f.name) (name_nul : 0 ∉ f.name)
    (exact_types : ExactTypes f.args) (scalars : Scalars f.args) (matching : Matching f.args args)
    (chars_bar : CharsAvoid bar f.args args) (chars_nul : CharsAvoid 0 f.args args)
    (registered : db.functions f.getKey = some g) (skeleton : db.lookup f.getKey = some q)
    (behaves : Behaves f.args q)
    (built : executeRequestFrame fp f.name f.argTypes (args.map some) = .ok frame)
    (prompt : socket.Prompt) (stream : socket.incoming = frame ++ rest) :
    ∃ slots text, HoldsValues slots args ∧ SlotsReadable f.args slots ∧
      text = joinedText fp f.args (slotMemory (q g.argTypes.array slots).2 f.args.length) ∧
      marshallArgs fp g.argTypes.array ((List.range f.args.length).map (q g.argTypes.array slots).2)
        f.args.length = .ok text ∧
      rpcExecuteTurn fp memory db socket =
        ((sendExecuteResponse memory.response { socket with incoming := rest } g f.getKey text
          (if (q g.argTypes.array slots).1 = 0 then 0 else errInvalidArgs)).map fun sent =>
            some ⟨sent.1, [⟨q, g.argTypes.array, slots⟩], db, sent.2⟩) := by
  have filed := db.keyed f.getKey g registered
  have same_args := Keys.args_of_scalar_key f g name_bar scalars filed
  obtain ⟨text, marshalled, fits, rfl⟩ := executeRequestFrame_ok fp f.name f.argTypes _ frame built
  change f.getKey.length + text.length + 18 < 2 ^ 31 at fits
  -- the arguments as the request carries them
  have encoded := marshallArgs_eq fp f.argTypes.entries [0] args
    (by rw [← args_eq f]; exact matching.readable _ _)
  rw [← args_eq f] at encoded
  rw [scanLength_array] at marshalled
  cases encoded.symm.trans marshalled
  have printable := nul_not_in_joinedText fp f.args args (matching.readable _ _) exact_types chars_nul
  have turn := rpcExecuteTurn_request fp memory db socket f.getKey _ rest prompt stream
    (nul_not_in_getKey f name_nul) fits
  rw [cText_eq_self _ printable] at turn
  -- and as the server takes them apart
  have parsed := Keys.parseKey_getKey f name_bar (by omega)
  obtain ⟨tokens, parts, writes, unmarshalled, held⟩ := split_scalars fp memory.margin f.args args matching
    exact_types scalars chars_bar (splittable_of_length _ bar (by omega))
  have values : HoldsValues (slots memory.blocks writes) args := by
    intro k value there
    apply slots_value memory.blocks writes k value
    simpa using held k value there
  have readable := slotsReadable_of_values f.args args _ matching values
  have after := (behaves g.argTypes.array _ readable).1
  have count : g.argTypes.entries.length = f.args.length := by
    rw [← same_args, args_eq, List.length_map]
  have reply := marshallArgs_eq fp g.argTypes.entries [0]
    (slotMemory (q g.argTypes.array (slots memory.blocks writes)).2 f.args.length)
    (by rw [← args_eq g, same_args]; exact slotMemory_readable f.args _ after)
  rw [← args_eq g, same_args, count, ← slotMemory_pointers f.args _ after] at reply
  have invoked : invoke g (slots memory.blocks writes) (db.lookup f.getKey) =
      (if (q g.argTypes.array (slots memory.blocks writes)).1 = 0 then 0 else errInvalidArgs,
        [⟨q, g.argTypes.array, slots memory.blocks writes⟩],
        (q g.argTypes.array (slots memory.blocks writes)).2) := by
    rw [skeleton]
    rfl
  refine ⟨_, _, values, readable, rfl, reply, ?_⟩
  have path : Path fp memory db f.getKey (joinedText fp f.args args) ⟨f.name, f.args.length, f.args⟩
      tokens ⟨0, writes⟩ g _ :=
    ⟨parsed, parts, unmarshalled, by simp, registered, by rw [invoked, Int.toNat_natCast]; exact reply⟩
  rw [turn, execArgs_path fp memory db _ _ _ _ _ _ g _ path, invoked]
  cases sendExecuteResponse memory.response { socket with incoming := rest } g f.getKey _
    (if (q g.argTypes.array (slots memory.blocks writes)).1 = 0 then 0 else errInvalidArgs) <;> rfl

def ClientSees (ret : CInt) (text key : Bytes) : ExecuteReply → Prop
  | .lost _ => False
  | .failure reasonCode => ret ≠ 0 ∧ reasonCode = errInvalidArgs
  | .success marshalled found => ret = 0 ∧ cText marshalled = text ∧ cText found = key

theorem scalar_call_answered (name_bar : bar ∉ f.name) (name_nul : 0 ∉ f.name)
    (exact_types : ExactTypes f.args) (scalars : Scalars f.args) (matching : Matching f.args args)
    (chars_bar : CharsAvoid bar f.args args) (chars_nul : CharsAvoid 0 f.args args)
    (registered : db.functions f.getKey = some g) (skeleton : db.lookup f.getKey = some q)
    (behaves : Behaves f.args q)
    (built : executeRequestFrame fp f.name f.argTypes (args.map some) = .ok frame)
    (prompt : socket.Prompt) (clear : socket.Clear) (stream : socket.incoming = frame ++ rest) :
    ∃ slots text, HoldsValues slots args ∧
      marshallArgs fp g.argTypes.array ((List.range f.args.length).map (q g.argTypes.array slots).2)
        f.args.length = .ok text ∧
      ((q g.argTypes.array slots).1 ≠ 0 ∨ f.getKey.length + text.length + 18 < 2 ^ 31 →
        ∃ reply, rpcExecuteTurn fp memory db socket =
            .ok (some ⟨0, [⟨q, g.argTypes.array, slots⟩], db,
              { socket with incoming := rest, sent := socket.sent ++ reply }⟩) ∧
          ∀ locals (client : Link) more, client.Prompt → client.incoming = reply ++ more →
            ∃ answer, recvExecuteReply locals client =
                .ok (answer, { client with incoming := more }) ∧
              ClientSees (q g.argTypes.array slots).1 text f.getKey answer) := by
  obtain ⟨slots, text, values, readable, printed, marshalled, turn⟩ :=
    scalar_request fp memory db f g q args frame rest socket name_bar name_nul exact_types scalars
      matching chars_bar chars_nul registered skeleton behaves built prompt stream
  refine ⟨slots, text, values, marshalled, fun fits => ?_⟩
  have filed := db.keyed f.getKey g registered
  have sending : ({ socket with incoming := rest } : Link).Clear := clear
  rw [turn]
  by_cases zero : (q g.argTypes.array slots).1 = 0
  · have short := fits.resolve_left (not_not.mpr zero)
    have free : 0 ∉ text := by
      obtain ⟨after, printable⟩ := behaves g.argTypes.array slots readable
      rw [printed]
      exact nul_not_in_joinedText fp f.args _ (slotMemory_readable f.args _ after) exact_types
        (slotMemory_printable f.args _ after (printable zero))
    rw [if_pos zero, ← filed, sendExecuteResponse_success memory.response _ g text sending, filed,
      if_pos short]
    refine ⟨framed executeSuccess (resultBody f.getKey text), rfl, ?_⟩
    intro locals client more arriving front
    refine ⟨_, recvExecuteReply_success locals client f.getKey text more arriving front short,
      zero, cText_terminated text free, ?_⟩
    exact cText_eq_self _ (nul_not_in_getKey f name_nul)
  · rw [if_neg zero, sendExecuteResponse_failure memory.response _ g f.getKey text _ sending
      (by decide)]
    refine ⟨wordBytes executeFailure ++ wordBytes errInvalidArgs, rfl, ?_⟩
    intro locals client more arriving front
    exact ⟨_, recvExecuteReply_failure locals client errInvalidArgs more arriving front, zero, rfl⟩

end Call

/-! One `int` in and out. -/

def oneInt : ArgTypes := ⟨[0xC0030000], by simp⟩

def oneIntArgs : List Args := [⟨1, 1, 3, 0⟩]

theorem oneInt_args (name : Bytes) : (Function.mk name oneInt).args = oneIntArgs := by rfl

theorem oneInt_key (name : Bytes) : (Function.mk name oneInt).getKey =
    name ++ [124, 49, 124, 49, 124, 49, 124, 51, 124, 48] := by
  have count : (Function.mk name oneInt).argLength = 1 := by rfl
  rw [Function.getKey, oneInt_args, count, List.append_assoc, List.append_assoc, List.append_assoc]
  exact congrArg (name ++ ·) (by decide)

theorem oneInt_scalar : ExactTypes oneIntArgs ∧ Scalars oneIntArgs ∧
    Matching oneIntArgs [[0, 0, 0, 0]] ∧ CharsAvoid bar oneIntArgs [[0, 0, 0, 0]] ∧
    CharsAvoid 0 oneIntArgs [[0, 0, 0, 0]] := by
  refine ⟨?_, ?_, .cons ⟨.int, by decide⟩ .nil, .cons (by decide) .nil, .cons (by decide) .nil⟩
  · intro a member
    rw [oneIntArgs, List.mem_singleton] at member
    exact ⟨.int, by rw [member]; decide⟩
  · intro a member
    rw [oneIntArgs, List.mem_singleton] at member
    rw [member]

def lowest : Skeleton := fun _ _ => (0, fun _ => some [0, 0, 0, 128])

theorem lowest_behaves : Behaves oneIntArgs lowest := by
  intro types slots _
  constructor
  · intro k a here
    have member := List.mem_of_getElem? here
    rw [oneIntArgs, List.mem_singleton] at member
    exact ⟨_, rfl, .int, by rw [member]; decide⟩
  · intro _ k a memory here _ char
    have member := List.mem_of_getElem? here
    rw [oneIntArgs, List.mem_singleton] at member
    rw [member] at char
    exact absurd char (by decide)

def serving (f : Function) (q : Skeleton) : ServerDB Skeleton :=
  ((ServerDB.empty Skeleton).updateDb registerSuccess f q).2

theorem serving_functions (f : Function) (q : Skeleton) :
    (serving f q).functions f.getKey = some f := by
  rw [serving, (updateDb_insert _ _ f q (by decide)).1, insertMissing_self]
  rfl

theorem serving_lookup (f : Function) (q : Skeleton) : (serving f q).lookup f.getKey = some q := by
  rw [serving, (updateDb_insert _ _ f q (by decide)).2, insertMissing_self]
  rfl

theorem one_int_answered :
    ∃ slots text, HoldsValues slots [[0, 0, 0, 0]] ∧
      marshallArgs .absent oneInt.array ((List.range 1).map (lowest oneInt.array slots).2) 1 =
        .ok text ∧
      ((lowest oneInt.array slots).1 ≠ 0 ∨
          (Function.mk [102] oneInt).getKey.length + text.length + 18 < 2 ^ 31 →
        ∃ reply, rpcExecuteTurn .absent zeroed (serving ⟨[102], oneInt⟩ lowest)
            (.delivering (framed execute (executeBody (Function.mk [102] oneInt).getKey [48]))) =
            .ok (some ⟨0, [⟨lowest, oneInt.array, slots⟩], serving ⟨[102], oneInt⟩ lowest,
              { Link.delivering [] with sent := reply }⟩) ∧
          ∀ locals (client : Link) more, client.Prompt → client.incoming = reply ++ more →
            ∃ answer, recvExecuteReply locals client =
                .ok (answer, { client with incoming := more }) ∧
              ClientSees (lowest oneInt.array slots).1 text (Function.mk [102] oneInt).getKey answer) :=
  scalar_call_answered .absent zeroed (serving ⟨[102], oneInt⟩ lowest) ⟨[102], oneInt⟩ ⟨[102], oneInt⟩
    lowest [[0, 0, 0, 0]] _ [] (.delivering _) (by decide) (by decide) oneInt_scalar.1
    oneInt_scalar.2.1 oneInt_scalar.2.2.1 oneInt_scalar.2.2.2.1 oneInt_scalar.2.2.2.2
    (serving_functions _ _) (serving_lookup _ _) lowest_behaves
    (executeRequestFrame_fits .absent ⟨[102], oneInt⟩ _ [48] rfl (by decide)) rfl rfl
    (List.append_nil _).symm

/-- The key and the argument fit a request, the key and the result no response. -/
theorem long_name_unanswered (name : Bytes) (size : name.length = 2 ^ 31 - 39) (name_bar : bar ∉ name)
    (name_nul : 0 ∉ name) :
    executeRequestFrame .absent name oneInt [some [0, 0, 0, 0]] =
        .ok (framed execute (executeBody (Function.mk name oneInt).getKey [48])) ∧
      rpcExecuteTurn .absent zeroed (serving ⟨name, oneInt⟩ lowest)
        (.delivering (framed execute (executeBody (Function.mk name oneInt).getKey [48]))) =
        .error .badSize := by
  have key : (Function.mk name oneInt).getKey.length = 2 ^ 31 - 29 := by
    rw [oneInt_key, List.length_append, size]
    decide
  have built := executeRequestFrame_fits .absent ⟨name, oneInt⟩ [some [0, 0, 0, 0]] [48] (by rfl)
    (by rw [key]; decide)
  obtain ⟨exact_types, scalars, matching, chars_bar, chars_nul⟩ := oneInt_scalar
  obtain ⟨slots, text, _, _, printed, _, turn⟩ :=
    scalar_request .absent zeroed (serving ⟨name, oneInt⟩ lowest) ⟨name, oneInt⟩ ⟨name, oneInt⟩ lowest
      [[0, 0, 0, 0]] (framed execute (executeBody (Function.mk name oneInt).getKey [48])) []
      (.delivering (framed execute (executeBody (Function.mk name oneInt).getKey [48]))) name_bar
      name_nul exact_types scalars matching chars_bar chars_nul (serving_functions _ _)
      (serving_lookup _ _) lowest_behaves built rfl (List.append_nil _).symm
  have digits : text.length = 11 := by
    have left_behind : slotMemory (lowest oneInt.array slots).2 1 = [[0, 0, 0, 128]] := by rfl
    have text_eq : text = joinedText .absent oneIntArgs [[0, 0, 0, 128]] := by
      rw [printed, ← left_behind]
      rfl
    rw [text_eq]
    decide
  refine ⟨built, ?_⟩
  have succeeded : (lowest oneInt.array slots).1 = 0 := rfl
  have refused := sendExecuteResponse_success zeroed.response (.delivering []) ⟨name, oneInt⟩ text rfl
  rw [if_neg (by rw [key, digits]; decide)] at refused
  rw [turn, if_pos succeeded]
  exact congrArg (Except.map _) refused

theorem results_too_long :
    ∃ f : Function, bar ∉ f.name ∧ 0 ∉ f.name ∧ ExactTypes f.args ∧ Scalars f.args ∧
      Matching f.args [[0, 0, 0, 0]] ∧ CharsAvoid bar f.args [[0, 0, 0, 0]] ∧
      CharsAvoid 0 f.args [[0, 0, 0, 0]] ∧ (serving f lowest).functions f.getKey = some f ∧
      (serving f lowest).lookup f.getKey = some lowest ∧ Behaves f.args lowest ∧
      ∃ frame, executeRequestFrame .absent f.name f.argTypes [some [0, 0, 0, 0]] = .ok frame ∧
        rpcExecuteTurn .absent zeroed (serving f lowest) (.delivering frame) = .error .badSize := by
  obtain ⟨name, size, name_bar, name_nul⟩ :
      ∃ name : Bytes, name.length = 2 ^ 31 - 39 ∧ bar ∉ name ∧ 0 ∉ name := by
    refine ⟨List.replicate (2 ^ 31 - 39) 97, List.length_replicate, ?_, ?_⟩
    · exact fun member => absurd (List.eq_of_mem_replicate member) (by decide)
    · exact fun member => absurd (List.eq_of_mem_replicate member) (by decide)
  obtain ⟨built, unanswered⟩ := long_name_unanswered name size name_bar name_nul
  obtain ⟨exact_types, scalars, matching, chars_bar, chars_nul⟩ := oneInt_scalar
  exact ⟨⟨name, oneInt⟩, name_bar, name_nul, exact_types, scalars, matching, chars_bar, chars_nul,
    serving_functions _ _, serving_lookup _ _, lowest_behaves, _, built, unanswered⟩

end BinderRpc.ScalarCalls
