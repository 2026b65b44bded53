import BinderRpc.Frames
import BinderRpc.RoundTrip

/-!
An execute request from the type read in rpcExecute's loop to exec_args, and the
ways through exec_args. Only one of them ends in a response.
-/

namespace BinderRpc.Execution

open Octets Text Signature Marshal Marshalled RoundTrip Socket Database Client Server Frames Joining

theorem rpcExecuteTurn_request (fp : FloatText) (memory : Memory) (db : ServerDB Skeleton)
    (socket : Link) (key text rest : Bytes) (prompt : socket.Prompt)
    (stream : socket.incoming = framed execute (executeBody key text) ++ rest) (free : 0 ∉ key)
    (fits : key.length + text.length + 18 < 2 ^ 31) :
    rpcExecuteTurn fp memory db socket =
      (execArgs fp memory db { socket with incoming := rest } key (cText text)).map some := by
  rw [framed, List.append_assoc, List.append_assoc] at stream
  have type := recvType_front memory.messageType socket execute _ prompt stream
  have request := recvExecuteRequest_body memory.request
    { socket with
      incoming := lengthBytes (executeBody key text).length ++ (executeBody key text ++ rest) }
    key text rest prompt (List.append_assoc _ _ _).symm free fits
  rw [rpcExecuteTurn, type]
  simp only [handleRequest, if_true, request, Outcome.ok_bind]

/-- The way through exec_args that reaches send_execute_response. -/
structure Path (fp : FloatText) (memory : Memory) (db : ServerDB Skeleton) (key argS : Bytes)
    (parsed : ParsedKey) (tokens : List Bytes) (result : Unmarshalled) (f : Function)
    (reply : Bytes) : Prop where
  parses : parseKey key = .ok parsed
  splits : split argS bar = .ok tokens
  unmarshals : unmarshallArgs fp memory.margin parsed.argInfo tokens = .ok result
  typed : ¬ result.ret < 0
  registered : db.functions key = some f
  marshals : marshallArgs fp f.argTypes.array
    ((List.range parsed.argLength.toNat).map
      (invoke f (slots memory.blocks result.writes) (db.lookup key)).2.2)
    parsed.argLength.toNat = .ok reply

theorem execArgs_path (fp : FloatText) (memory : Memory) (db : ServerDB Skeleton) (socket : Link)
    (key argS : Bytes) (parsed : ParsedKey) (tokens : List Bytes) (result : Unmarshalled)
    (f : Function) (reply : Bytes) (path : Path fp memory db key argS parsed tokens result f reply) :
    execArgs fp memory db socket key argS =
      (sendExecuteResponse memory.response socket f key reply
        (invoke f (slots memory.blocks result.writes) (db.lookup key)).1).map fun sent =>
          ⟨sent.1, (invoke f (slots memory.blocks result.writes) (db.lookup key)).2.1, db, sent.2⟩ := by
  simp only [execArgs, path.parses, path.splits, path.unmarshals, Outcome.ok_bind, if_neg path.typed,
    path.registered, path.marshals]
  cases sendExecuteResponse memory.response socket f key reply
    (invoke f (slots memory.blocks result.writes) (db.lookup key)).1 <;> rfl

theorem execArgs_cases (fp : FloatText) (memory : Memory) (db : ServerDB Skeleton) (socket : Link)
    (key argS : Bytes) (served : Served)
    (run : execArgs fp memory db socket key argS = .ok served) :
    served = ⟨errUnmarshallingServer, [], db, socket⟩ ∨
    (db.functions key = none ∧ served = ⟨errServerDoesntContainFunc, [], db, socket⟩) ∨
    ∃ parsed tokens result f reply sent, Path fp memory db key argS parsed tokens result f reply ∧
      sendExecuteResponse memory.response socket f key reply
        (invoke f (slots memory.blocks result.writes) (db.lookup key)).1 = .ok sent ∧
      served = ⟨sent.1, (invoke f (slots memory.blocks result.writes) (db.lookup key)).2.1, db, sent.2⟩ := by
  obtain ⟨parsed, parses, run⟩ := (Outcome.bind_eq_ok _ _ _).mp run
  obtain ⟨tokens, splits, run⟩ := (Outcome.bind_eq_ok _ _ _).mp run
  obtain ⟨result, unmarshals, run⟩ := (Outcome.bind_eq_ok _ _ _).mp run
  by_cases typed : result.ret < 0
  · rw [if_pos typed] at run
    cases run
    exact Or.inl rfl
  · rw [if_neg typed] at run
    cases registered : db.functions key with
    | none =>
        rw [registered] at run
        cases run
        exact Or.inr (Or.inl ⟨rfl, rfl⟩)
    | some f =>
        rw [registered] at run
        obtain ⟨reply, marshals, run⟩ := (Outcome.bind_eq_ok _ _ _).mp run
        obtain ⟨sent, response, run⟩ := (Outcome.bind_eq_ok _ _ _).mp run
        cases run
        exact Or.inr (Or.inr ⟨parsed, tokens, result, f, reply, sent,
          ⟨parses, splits, unmarshals, typed, registered, marshals⟩, response, rfl⟩)

def zeroed : Memory := ⟨fun _ => 0, fun _ => 0, fun _ => 0, fun _ _ => 0, fun _ => 0⟩

def emptyRequest : Bytes := framed execute (executeBody [102, 124, 48, 124] [])

theorem emptyRequest_built :
    executeRequestFrame .absent noArguments.name noArguments.argTypes [] = .ok emptyRequest := by rfl

theorem emptyRequest_unmarshals (margin : Margin) (tokens : List Bytes) :
    unmarshallArgs .absent margin [] tokens = .ok ⟨0, []⟩ :=
  unmarshallLoop_done .absent margin [] tokens 0 (Nat.le_refl 0)

end BinderRpc.Execution
