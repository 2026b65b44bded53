import BinderRpc.ScalarCalls
import BinderRpc.ServerLoop

/-!
Client::receive_execute_response and the copy of its reads in rpcCall, which stops
where the results would be stored. Where the member function is used instead, the
results of a scalar procedure come back to the caller as the skeleton left them.
-/

namespace BinderRpc.Delivery

open Octets Text Signature Marshal Marshalled RoundTrip Socket Database Client Server Frames Joining
  Execution ScalarCalls ServerLoop

/-! The two copies side by side. -/

/-- The member function from the reply that rpcCall's copy would have read on. -/
def storeReply (fp : FloatText) (margin : Margin) (stale : Nat → Stale) (server : Link) :
    ExecuteReply → Except Fault (CInt × Option Slots × Link)
  | .lost ret => .ok (ret, none, server)
  | .failure reasonCode => .ok (reasonCode, none, server)
  | .success marshalled key => do
      let parsed ← parseKey (cText key)
      let argsS ← split (cText marshalled) bar
      let unmarshall ← unmarshallArgs fp margin parsed.argInfo argsS
      return (if unmarshall.ret < 0 then errUnmarshallingServer else 0,
        some (slots stale unmarshall.writes), server)

/-- The two copies make the same reads, and take the buffer apart alike. -/
theorem receiveExecuteResponse_eq (fp : FloatText) (locals : Locals) (margin : Margin)
    (stale : Nat → Stale) (server : Link) :
    receiveExecuteResponse fp locals margin stale server =
      recvExecuteReply locals server >>= fun received =>
        storeReply fp margin stale received.2 received.1 := by
  rw [receiveExecuteResponse, recvExecuteReply]
  rcases recvInto server (staleBytes locals.flag 4) with ⟨_ | count, flag, server⟩
  · rfl
  · by_cases failure : wordOf flag = executeFailure
    · simp only [if_pos failure]
      rcases recvInto server (staleBytes locals.reasonCode 4) with ⟨_, _, _⟩
      rfl
    · simp only [if_neg failure, recvResults, recvLength]
      rcases recvInto server [0, 0, 0, 0] with ⟨_ | count, mLength, server⟩
      · rfl
      · simp only [recvResultsBody, bind_assoc]
        refine Outcome.bind_congr _ _ _ fun nLen _ => ?_
        rcases recvInto server (staleBytes locals.response nLen) with ⟨_ | count, buff, server⟩
        · rfl
        · simp only [bind_assoc, pure_bind, storeReply]
          -- the memcpys are the same, and what follows them is storeReply
          refine Outcome.bind_congr _ _ _ fun marsLen _ => ?_
          refine Outcome.bind_congr _ _ _ fun keyLen _ => ?_
          refine Outcome.bind_congr _ _ _ fun _ _ => ?_
          refine Outcome.bind_congr _ _ _ fun marshalled _ => ?_
          refine Outcome.bind_congr _ _ _ fun _ _ => ?_
          refine Outcome.bind_congr _ _ _ fun key _ => ?_
          refine Outcome.bind_congr _ _ _ fun parsed _ => ?_
          refine Outcome.bind_congr _ _ _ fun tokens _ => ?_
          refine Outcome.bind_congr _ _ _ fun result _ => ?_
          by_cases failed : result.ret < 0
          · rw [if_pos failed, if_pos failed]
          · rw [if_neg failed, if_neg failed]

/-- The results of the reply do not unmarshal. -/
def Unstorable (fp : FloatText) (margin : Margin) (reply : ExecuteReply) : Prop :=
  ∃ marshalled key parsed tokens result, reply = .success marshalled key ∧
    parseKey (cText key) = .ok parsed ∧ split (cText marshalled) bar = .ok tokens ∧
      unmarshallArgs fp margin parsed.argInfo tokens = .ok result ∧ result.ret < 0

theorem unstorable_success (fp : FloatText) (margin : Margin) (marshalled key : Bytes)
    (parsed : ParsedKey) (tokens : List Bytes) (result : Unmarshalled)
    (parses : parseKey (cText key) = .ok parsed)
    (splits : split (cText marshalled) bar = .ok tokens)
    (unmarshals : unmarshallArgs fp margin parsed.argInfo tokens = .ok result) :
    Unstorable fp margin (.success marshalled key) ↔ result.ret < 0 := by
  constructor
  · rintro ⟨_, _, _, _, _, same, parses', splits', unmarshals', failed⟩
    cases same
    cases parses.symm.trans parses'
    cases splits.symm.trans splits'
    cases unmarshals.symm.trans unmarshals'
    exact failed
  · exact fun failed => ⟨_, _, _, _, _, rfl, parses, splits, unmarshals, failed⟩

/-- Wherever the member function returns, so does rpcCall's copy of it, and with the
same value but for results that do not unmarshal: those it counts as a success. -/
theorem copies_agree (fp : FloatText) (locals : Locals) (margin : Margin) (stale : Nat → Stale)
    (server after : Link) (ret : CInt) (table : Option Slots)
    (run : receiveExecuteResponse fp locals margin stale server = .ok (ret, table, after)) :
    ∃ reply there, recvExecuteReply locals server = .ok (reply, after) ∧ concludeCall reply = .ok there ∧
      ((ret = there ∧ ¬ Unstorable fp margin reply) ∨
        (ret = errUnmarshallingServer ∧ there = 0 ∧ Unstorable fp margin reply)) := by
  rw [receiveExecuteResponse_eq] at run
  obtain ⟨⟨reply, left⟩, received, run⟩ := (Outcome.bind_eq_ok _ _ _).mp run
  have unstored : (∀ marshalled key, reply ≠ .success marshalled key) → ¬ Unstorable fp margin reply := by
    rintro other ⟨marshalled, key, _, _, _, same, _⟩
    exact other marshalled key same
  cases reply with
  | lost code =>
      cases run
      exact ⟨_, ret, received, rfl, Or.inl ⟨rfl, unstored (by simp)⟩⟩
  | failure reasonCode =>
      cases run
      exact ⟨_, ret, received, rfl, Or.inl ⟨rfl, unstored (by simp)⟩⟩
  | success marshalled key =>
      obtain ⟨parsed, parses, run⟩ := (Outcome.bind_eq_ok _ _ _).mp run
      obtain ⟨tokens, splits, run⟩ := (Outcome.bind_eq_ok _ _ _).mp run
      obtain ⟨result, unmarshals, run⟩ := (Outcome.bind_eq_ok _ _ _).mp run
      have concluded : concludeCall (.success marshalled key) = .ok 0 := by
        simp only [concludeCall, parses, splits, Outcome.ok_bind]
        rfl
      have storing := unstorable_success fp margin marshalled key parsed tokens result parses splits unmarshals
      cases run
      -- rpcCall unmarshals nothing, so it goes on where this stops
      by_cases failed : result.ret < 0
      · rw [if_pos failed]
        exact ⟨_, 0, received, concluded, Or.inr ⟨rfl, rfl, storing.mpr failed⟩⟩
      · rw [if_neg failed]
        exact ⟨_, 0, received, concluded, Or.inl ⟨rfl, fun unstorable => failed (storing.mp unstorable)⟩⟩

def untypedReply : Bytes :=
  framed executeSuccess (resultBody [102, 124, 49, 124, 49, 124, 49, 124, 57, 124, 48] [48])

theorem untyped_disagrees :
    ∃ reply there, recvExecuteReply ⟨fun _ => 0, fun _ => 0, fun _ => 0, fun _ => 0, fun _ => 0⟩
        (.delivering untypedReply) = .ok (reply, .delivering []) ∧ concludeCall reply = .ok there ∧
      ((errUnmarshallingServer = there ∧ ¬ Unstorable .absent (fun _ => 0) reply) ∨
        (errUnmarshallingServer = errUnmarshallingServer ∧ there = 0 ∧
          Unstorable .absent (fun _ => 0) reply)) := by
  have stopped : unmarshallArgs .absent (fun _ => 0) [⟨1, 1, 9, 0⟩] [[48]] = .ok ⟨-1, []⟩ := by
    rw [unmarshallArgs, unmarshallLoop, dif_pos (by decide)]
    rfl
  have received := recvExecuteReply_success
    ⟨fun _ => 0, fun _ => 0, fun _ => 0, fun _ => 0, fun _ => 0⟩ (.delivering untypedReply)
    [102, 124, 49, 124, 49, 124, 49, 124, 57, 124, 48] [48] [] rfl (List.append_nil _).symm (by decide)
  have run : receiveExecuteResponse .absent
      ⟨fun _ => 0, fun _ => 0, fun _ => 0, fun _ => 0, fun _ => 0⟩ (fun _ => 0) (fun _ _ => 0)
      (.delivering untypedReply) =
        .ok (errUnmarshallingServer, some (slots (fun _ _ => 0) []), .delivering []) := by
    have parsed : parseKey (cText [102, 124, 49, 124, 49, 124, 49, 124, 57, 124, 48]) =
        .ok ⟨[102], 1, [⟨1, 1, 9, 0⟩]⟩ := by rfl
    have tokens : split (cText ([48] ++ [0])) bar = .ok [[48]] := by rfl
    rw [receiveExecuteResponse_eq, received]
    simp only [Outcome.ok_bind, storeReply, parsed, tokens, stopped]
    rfl
  exact copies_agree .absent _ (fun _ => 0) (fun _ _ => 0) _ _ _ _ run

def valueOf (a : Args) (memory : Bytes) : Bytes :=
  match a.kind with
  | none => []
  | some kind => memory.take (kind.size * a.tokenCount)

def resultsOf (infos : List Args) (slots : Slots) : List Bytes :=
  List.zipWith valueOf infos (slotMemory slots infos.length)

def resultText (fp : FloatText) (infos : List Args) (slots : Slots) : Bytes :=
  joinedText fp infos (slotMemory slots infos.length)

def SlotsAvoid (byte : UInt8) (infos : List Args) (slots : Slots) : Prop :=
  CharsAvoid byte infos (slotMemory slots infos.length)

theorem argTexts_valueOf (fp : FloatText) (a : Args) (memory : Bytes) :
    argTexts fp a (valueOf a memory) = argTexts fp a memory := by
  rw [argTexts, argTexts, valueOf]
  cases a.kind with
  | none => rfl
  | some kind => simp only [chunks_take]

theorem allTexts_values (fp : FloatText) (infos : List Args) (memories : List Bytes) :
    allTexts fp infos (List.zipWith valueOf infos memories) = allTexts fp infos memories := by
  induction infos generalizing memories with
  | nil => rfl
  | cons a infos ih =>
      cases memories with
      | nil => rfl
      | cons memory memories => rw [List.zipWith_cons_cons, allTexts, allTexts, argTexts_valueOf, ih]

theorem matching_values (infos : List Args) (memories : List Bytes) (readable : Readable infos memories) :
    Matching infos (List.zipWith valueOf infos memories) := by
  induction readable with
  | nil => exact .nil
  | @cons a memory infos memories holds _ ih =>
      obtain ⟨kind, known, size⟩ := holds
      refine .cons ⟨kind, known, ?_⟩ ih
      rw [valueOf, known, List.length_take, Nat.min_eq_left size]

theorem charsAvoid_values (byte : UInt8) (infos : List Args) (memories : List Bytes)
    (chars : CharsAvoid byte infos memories) :
    CharsAvoid byte infos (List.zipWith valueOf infos memories) := by
  induction chars with
  | nil => exact .nil
  | @cons a memory infos memories free _ ih =>
      refine .cons ?_ ih
      intro char member
      have value : valueOf a memory = memory.take a.tokenCount := by simp [valueOf, char, Kind.size]
      rw [value] at member
      exact free char (List.mem_of_mem_take member)

theorem resultText_values (fp : FloatText) (infos : List Args) (slots : Slots) :
    resultText fp infos slots = joinedText fp infos (resultsOf infos slots) := by
  rw [resultText, resultsOf, joinedText, joinedText, allTexts_values]

theorem receive_failure (fp : FloatText) (locals : Locals) (margin : Margin) (stale : Nat → Stale)
    (client : Link) (reasonCode : CInt) (rest : Bytes) (prompt : client.Prompt)
    (stream : client.incoming = (wordBytes executeFailure ++ wordBytes reasonCode) ++ rest) :
    receiveExecuteResponse fp locals margin stale client =
      .ok (reasonCode, none, { client with incoming := rest }) := by
  rw [receiveExecuteResponse_eq, recvExecuteReply_failure locals client reasonCode rest prompt stream]
  rfl

theorem receive_success (fp : FloatText) (locals : Locals) (margin : Margin) (stale : Nat → Stale)
    (client : Link) (f : Function) (values : List Bytes) (rest : Bytes) (prompt : client.Prompt)
    (stream : client.incoming =
      framed executeSuccess (resultBody f.getKey (joinedText fp f.args values)) ++ rest)
    (fits : f.getKey.length + (joinedText fp f.args values).length + 18 < 2 ^ 31)
    (name_bar : bar ∉ f.name) (name_nul : 0 ∉ f.name) (exact_types : ExactTypes f.args)
    (scalars : Scalars f.args) (matching : Matching f.args values) (chars_bar : CharsAvoid bar f.args values)
    (chars_nul : CharsAvoid 0 f.args values) :
    ∃ table, receiveExecuteResponse fp locals margin stale client =
      .ok (0, some table, { client with incoming := rest }) ∧ HoldsValues table values := by
  have printable := nul_not_in_joinedText fp f.args values (matching.readable _ _) exact_types chars_nul
  have parsed := Keys.parseKey_getKey f name_bar (by omega)
  obtain ⟨tokens, parts, writes, unmarshalled, held⟩ :=
    split_scalars fp margin f.args values matching exact_types
    scalars chars_bar (splittable_of_length _ bar (by omega))
  have received := recvExecuteReply_success locals client f.getKey _ rest prompt stream fits
  refine ⟨slots stale writes, ?_, ?_⟩
  · rw [receiveExecuteResponse_eq, received]
    simp only [Outcome.ok_bind, storeReply, cText_eq_self _ (nul_not_in_getKey f name_nul),
      cText_terminated _ printable,
      parsed, parts, unmarshallArgs, unmarshalled]
    rfl
  · intro k value there
    apply slots_value stale writes k value
    simpa using held k value there

section Call
variable (fp : FloatText) (memory : Memory) (db : ServerDB Skeleton) (f g : Function) (q : Skeleton)
  (args : List Bytes) (frame rest : Bytes) (socket : Link)

theorem scalar_turn (name_bar : bar ∉ f.name) (name_nul : 0 ∉ f.name)
    (exact_types : ExactTypes f.args) (scalars : Scalars f.args) (matching : Matching f.args args)
    (chars_bar : CharsAvoid bar f.args args) (chars_nul : CharsAvoid 0 f.args args)
    (registered : db.functions f.getKey = some g) (skeleton : db.lookup f.getKey = some q)
    (behaves : Behaves f.args q)
    (built : executeRequestFrame fp f.name f.argTypes (args.map some) = .ok frame)
    (prompt : socket.Prompt) (clear : socket.Clear) (stream : socket.incoming = frame ++ rest) :
    ∃ slots, HoldsValues slots args ∧ SlotsReadable f.args slots ∧
      ((q g.argTypes.array slots).1 = 0 → 0 ∉ resultText fp f.args (q g.argTypes.array slots).2) ∧
      ((q g.argTypes.array slots).1 ≠ 0 ∨
          f.getKey.length + (resultText fp f.args (q g.argTypes.array slots).2).length + 18 < 2 ^ 31 →
        rpcExecuteTurn fp memory db socket =
          .ok (some ⟨0, [⟨q, g.argTypes.array, slots⟩], db,
            { socket with
              incoming := rest
              sent := socket.sent ++ report (q g.argTypes.array slots).1 f.getKey
                (resultText fp f.args (q g.argTypes.array slots).2) }⟩)) := by
  obtain ⟨slots, _, values, readable, rfl, _, turn⟩ :=
    scalar_request fp memory db f g q args frame rest socket name_bar name_nul exact_types scalars
      matching chars_bar chars_nul registered skeleton behaves built prompt stream
  have filed := db.keyed f.getKey g registered
  have sending : ({ socket with incoming := rest } : Link).Clear := clear
  obtain ⟨after, printable⟩ := behaves g.argTypes.array slots readable
  refine ⟨slots, values, readable, fun zero => ?_, fun fits => ?_⟩
  · exact nul_not_in_joinedText fp f.args _ (slotMemory_readable f.args _ after) exact_types
      (slotMemory_printable f.args _ after (printable zero))
  · by_cases zero : (q g.argTypes.array slots).1 = 0
    · have response := sendExecuteResponse_success memory.response { socket with incoming := rest } g
        (resultText fp f.args (q g.argTypes.array slots).2) sending
      rw [filed, if_pos (fits.resolve_left (not_not.mpr zero))] at response
      rw [if_pos zero] at turn
      rw [report, if_pos zero]
      exact turn.trans (congrArg _ response)
    · have response := sendExecuteResponse_failure memory.response { socket with incoming := rest } g
        f.getKey (resultText fp f.args (q g.argTypes.array slots).2) errInvalidArgs sending (by decide)
      rw [if_neg zero] at turn
      rw [report, if_neg zero]
      exact turn.trans (congrArg _ response)

/-- A scalar call there and back: the one call of the skeleton finds the caller's values
in its slots, and the table of receive_execute_response holds what it left in them. -/
theorem results_return (name_bar : bar ∉ f.name) (name_nul : 0 ∉ f.name)
    (exact_types : ExactTypes f.args) (scalars : Scalars f.args) (matching : Matching f.args args)
    (chars_bar : CharsAvoid bar f.args args) (chars_nul : CharsAvoid 0 f.args args)
    (registered : db.functions f.getKey = some g) (skeleton : db.lookup f.getKey = some q)
    (behaves : Behaves f.args q)
    (built : executeRequestFrame fp f.name f.argTypes (args.map some) = .ok frame)
    (prompt : socket.Prompt) (clear : socket.Clear) (stream : socket.incoming = frame ++ rest) :
    ∃ slots, HoldsValues slots args ∧
      ((q g.argTypes.array slots).1 = 0 → SlotsAvoid bar f.args (q g.argTypes.array slots).2 →
        f.getKey.length + (resultText fp f.args (q g.argTypes.array slots).2).length + 18 < 2 ^ 31 →
        ∃ served reply, rpcExecuteTurn fp memory db socket = .ok (some served) ∧
          served.calls = [⟨q, g.argTypes.array, slots⟩] ∧ served.socket.sent = socket.sent ++ reply ∧
          ∀ locals margin stale (client : Link) more, client.Prompt → client.incoming = reply ++ more →
            ∃ table, receiveExecuteResponse fp locals margin stale client =
                .ok (0, some table, { client with incoming := more }) ∧
              HoldsValues table (resultsOf f.args (q g.argTypes.array slots).2)) ∧
      ((q g.argTypes.array slots).1 ≠ 0 →
        ∃ served reply, rpcExecuteTurn fp memory db socket = .ok (some served) ∧
          served.calls = [⟨q, g.argTypes.array, slots⟩] ∧ served.socket.sent = socket.sent ++ reply ∧
          ∀ locals margin stale (client : Link) more, client.Prompt → client.incoming = reply ++ more →
            receiveExecuteResponse fp locals margin stale client =
              .ok (errInvalidArgs, none, { client with incoming := more })) := by
  obtain ⟨slots, values, readable, _, turn⟩ :=
    scalar_turn fp memory db f g q args frame rest socket name_bar name_nul exact_types scalars
      matching chars_bar chars_nul registered skeleton behaves built prompt clear stream
  obtain ⟨after, printable⟩ := behaves g.argTypes.array slots readable
  have memories := slotMemory_readable f.args _ after
  refine ⟨slots, values, fun zero avoids fits => ?_, fun failed => ?_⟩
  · refine ⟨_, _, turn (Or.inr fits), rfl, rfl, ?_⟩
    intro locals margin stale client more arriving front
    rw [report, if_pos zero] at front
    rw [resultText_values] at fits front
    exact receive_success fp locals margin stale client f _ more arriving front fits name_bar name_nul
      exact_types
      scalars (matching_values f.args _ memories) (charsAvoid_values bar f.args _ avoids)
      (charsAvoid_values 0 f.args _ (slotMemory_printable f.args _ after (printable zero)))
  · refine ⟨_, _, turn (Or.inl failed), rfl, rfl, ?_⟩
    intro locals margin stale client more arriving front
    rw [report, if_neg failed] at front
    exact receive_failure fp locals margin stale client errInvalidArgs more arriving front

end Call

theorem oneInt_built : executeRequestFrame .absent [102] oneInt [some [0, 0, 0, 0]] =
    .ok (framed execute (executeBody (Function.mk [102] oneInt).getKey [48])) :=
  executeRequestFrame_fits .absent ⟨[102], oneInt⟩ _ [48] rfl (by decide)

theorem one_int_returned :
    ∃ slots, HoldsValues slots [[0, 0, 0, 0]] ∧
      ((lowest oneInt.array slots).1 = 0 → SlotsAvoid bar oneIntArgs (lowest oneInt.array slots).2 →
        (Function.mk [102] oneInt).getKey.length +
          (resultText .absent oneIntArgs (lowest oneInt.array slots).2).length + 18 < 2 ^ 31 →
        ∃ served reply, rpcExecuteTurn .absent zeroed (serving ⟨[102], oneInt⟩ lowest)
            (.delivering (framed execute (executeBody (Function.mk [102] oneInt).getKey [48]))) =
              .ok (some served) ∧
          served.calls = [⟨lowest, oneInt.array, slots⟩] ∧ served.socket.sent = [] ++ reply ∧
          ∀ locals margin stale (client : Link) more, client.Prompt → client.incoming = reply ++ more →
            ∃ table, receiveExecuteResponse .absent locals margin stale client =
                .ok (0, some table, { client with incoming := more }) ∧
              HoldsValues table (resultsOf oneIntArgs (lowest oneInt.array slots).2)) ∧
      ((lowest oneInt.array slots).1 ≠ 0 →
        ∃ served reply, rpcExecuteTurn .absent zeroed (serving ⟨[102], oneInt⟩ lowest)
            (.delivering (framed execute (executeBody (Function.mk [102] oneInt).getKey [48]))) =
              .ok (some served) ∧
          served.calls = [⟨lowest, oneInt.array, slots⟩] ∧ served.socket.sent = [] ++ reply ∧
          ∀ locals margin stale (client : Link) more, client.Prompt → client.incoming = reply ++ more →
            receiveExecuteResponse .absent locals margin stale client =
              .ok (errInvalidArgs, none, { client with incoming := more })) :=
  results_return .absent zeroed (serving ⟨[102], oneInt⟩ lowest) ⟨[102], oneInt⟩ ⟨[102], oneInt⟩ lowest
    [[0, 0, 0, 0]] _ [] (.delivering _) (by decide) (by decide) oneInt_scalar.1 oneInt_scalar.2.1
    oneInt_scalar.2.2.1 oneInt_scalar.2.2.2.1 oneInt_scalar.2.2.2.2 (serving_functions _ _)
    (serving_lookup _ _) lowest_behaves
    oneInt_built rfl rfl (List.append_nil _).symm

end BinderRpc.Delivery
