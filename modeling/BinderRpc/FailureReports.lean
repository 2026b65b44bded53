import BinderRpc.Execution
import BinderRpc.Location

/-!
A whole call against a binder and a server in any state. The server's failures
come back as rpcCall's return value. The binder's do not: the branch that reads
the reason code of a LOCATION_FAILURE has no return statement behind it.
-/

namespace BinderRpc.FailureReports

open Octets Text Signature Marshal Socket Database Binder Client Server Frames Registry Location
  Execution

def located (fp : FloatText) (locals : Locals) (server : Bytes → Bytes → Option Link) (name : Bytes)
    (argTypes : ArgTypes) (args : List (Option Bytes)) : LocationReply → Except Fault Called
  | .lost => .ok ⟨errBinderRecvFail, args, none⟩
  | .failure none reasonCode => .ok ⟨reasonCode, args, none⟩
  | .failure (some _) _ => .error .noReturn
  | .success sName port =>
      match server sName (toStri port.toInt) with
      | none => .ok ⟨-1, args, none⟩
      | some link => callServer fp locals link name argTypes args
  | .other => .ok ⟨0, args, none⟩

theorem rpcCall_eq (fp : FloatText) (heap : Bytes) (locals : Locals) (binder : Link)
    (server : Bytes → Bytes → Option Link) (name : Bytes) (argTypes : ArgTypes)
    (args : List (Option Bytes)) :
    rpcCall fp heap locals ⟨.ok binder, server⟩ name argTypes args =
      createLocationRequest name argTypes >>= fun m => sendLocationRequest heap m binder >>= fun sent =>
        if sent.1.toInt < 0 then .ok ⟨sent.1, args, none⟩
        else located fp locals server name argTypes args (recvLocationReply locals sent.2).1 := by
  refine Outcome.bind_congr _ _ _ fun m _ => Outcome.bind_congr _ _ _ fun sent _ => ?_
  simp only
  split
  · rfl
  · generalize recvLocationReply locals sent.2 = result
    obtain ⟨reply, link⟩ := result
    cases reply with
    | failure res reasonCode => cases res <;> rfl
    | success sName port =>
        simp only [located]
        cases server sName (toStri port.toInt) <;> rfl
    | _ => rfl

/-! What the client asks, and what its peers answer. -/

def Asks (heap name : Bytes) (argTypes : ArgTypes) (func : Function) : Prop :=
  ∃ m, createLocationRequest name argTypes = .ok m ∧ locationFunction heap m = .ok func ∧
    locationRequestFrame heap m = .ok (framed locationRequest (keyBody func))

theorem asks_bounds (heap name : Bytes) (argTypes : ArgTypes) (func : Function)
    (asks : Asks heap name argTypes func) : 0 ∉ func.name ∧ func.getKey.length + 9 < 2 ^ 31 := by
  obtain ⟨m, _, rebuilt, built⟩ := asks
  obtain ⟨other, same, fits, _⟩ := locationRequestFrame_ok heap m _ built
  cases rebuilt.symm.trans same
  exact ⟨locationFunction_free heap m func rebuilt, fits⟩

theorem rpcCall_asked (fp : FloatText) (heap : Bytes) (locals : Locals) (binder : Link)
    (server : Bytes → Bytes → Option Link) (name : Bytes) (argTypes : ArgTypes)
    (args : List (Option Bytes)) (func : Function) (asks : Asks heap name argTypes func)
    (clear : binder.Clear) :
    rpcCall fp heap locals ⟨.ok binder, server⟩ name argTypes args =
      located fp locals server name argTypes args
        (recvLocationReply locals
          { binder with sent := binder.sent ++ framed locationRequest (keyBody func) }).1 := by
  obtain ⟨m, created, _, built⟩ := asks
  have sent : sendLocationRequest heap m binder =
      .ok (0, { binder with sent := binder.sent ++ framed locationRequest (keyBody func) }) := by
    rw [sendLocationRequest, built, Outcome.ok_bind, sendAll_clear binder _ clear]
    rfl
  rw [rpcCall_eq, created, Outcome.ok_bind, sent, Outcome.ok_bind]
  rfl

/-- After these registrations the binder's turn on the client's request sends this. -/
def BinderReplies (history : List Registration) (scratch : Scratch) (heap name : Bytes)
    (argTypes : ArgTypes) (reply : Bytes) : Prop :=
  ∃ func ret db after, Asks heap name argTypes func ∧
    initTurn scratch (replay history) (.delivering (framed locationRequest (keyBody func))) =
      .ok (some (ret, db, after)) ∧ after.sent = reply

/-- A server's turn on the client's request sends this. -/
def ServerReplies (fp : FloatText) (memory : Memory) (db : ServerDB Skeleton) (name : Bytes)
    (argTypes : ArgTypes) (args : List (Option Bytes)) (reply : Bytes) : Prop :=
  ∃ frame served, executeRequestFrame fp name argTypes args = .ok frame ∧
    rpcExecuteTurn fp memory db (.delivering frame) = .ok (some served) ∧ served.socket.sent = reply

theorem initTurn_locate (scratch : Scratch) (history : List Registration) (f : Function)
    (free : 0 ∉ f.name) (fits : f.getKey.length + 9 < 2 ^ 31) :
    initTurn scratch (replay history) (.delivering (framed locationRequest (keyBody f))) =
      .ok (some (0, replay history,
        ⟨[], [], answerBytes scratch.beyond (registrants history f.getKey).head?, []⟩)) := by
  have turn := initTurn_request scratch (replay history) (.delivering (framed locationRequest (keyBody f)))
    f.getKey [] rfl (List.append_nil _).symm (nul_not_in_getKey f free) (by omega)
  have answered := sendLocationResponse_clear scratch.beyond (replay history) (.delivering []) f.getKey
    rfl ((represents_replay history).nonempty f.getKey)
  rw [head_replay] at answered
  exact turn.trans (congrArg (Except.map some) answered)

theorem binderReplies_iff (history : List Registration) (scratch : Scratch) (heap name : Bytes)
    (argTypes : ArgTypes) (reply : Bytes) :
    BinderReplies history scratch heap name argTypes reply ↔
      ∃ func, Asks heap name argTypes func ∧
        reply = answerBytes scratch.beyond (registrants history func.getKey).head? := by
  constructor
  · rintro ⟨func, ret, db, after, asks, turn, rfl⟩
    obtain ⟨free, fits⟩ := asks_bounds heap name argTypes func asks
    cases (initTurn_locate scratch history func free fits).symm.trans turn
    exact ⟨func, asks, rfl⟩
  · rintro ⟨func, asks, rfl⟩
    obtain ⟨free, fits⟩ := asks_bounds heap name argTypes func asks
    exact ⟨func, _, _, _, asks, initTurn_locate scratch history func free fits, rfl⟩

theorem unregistered_of_failure (history : List Registration) (scratch : Scratch) (heap name : Bytes)
    (argTypes : ArgTypes) (r : CInt)
    (replies : BinderReplies history scratch heap name argTypes
      (wordBytes locationFailure ++ wordBytes r)) :
    ∃ func, Asks heap name argTypes func ∧ registrants history func.getKey = [] := by
  obtain ⟨func, asks, same⟩ := (binderReplies_iff _ _ _ _ _ _).mp replies
  refine ⟨func, asks, ?_⟩
  cases first : registrants history func.getKey with
  | nil => rfl
  | cons s others =>
      -- the answer to a registered key is a success
      rw [first] at same
      have type := (List.append_inj same (by simp)).1
      exact absurd type (by decide)

theorem length_place (history : List Registration) (scratch : Scratch) (heap name place : Bytes)
    (argTypes : ArgTypes)
    (replies : BinderReplies history scratch heap name argTypes (wordBytes locationSuccess ++ place)) :
    place.length = maxHostName + 1 + 4 := by
  obtain ⟨func, _, same⟩ := (binderReplies_iff _ _ _ _ _ _).mp replies
  cases first : registrants history func.getKey with
  | nil =>
      rw [first] at same
      have type := (List.append_inj same (by simp)).1
      exact absurd type (by decide)
  | cons s others =>
      rw [first] at same
      rw [List.append_cancel_left same]
      simp

/-- The connection with a peer that sends this reply, whole, and takes everything. -/
structure Answers (link : Link) (reply : Bytes) : Prop where
  prompt : link.Prompt
  clear : link.Clear
  stream : link.incoming = reply

def LeadsTo (network : Bytes → Bytes → Option Link) (place : Bytes) (server : Link) : Prop :=
  network (cText (place.take maxHostName))
    (toStri (wordOf ((place.drop (maxHostName + 1)).take 4)).toInt) = some server

def Returns (outcome : Except Fault Called) (ret : CInt) : Prop :=
  ∃ called, outcome = .ok called ∧ called.ret = ret

structure FailuresReported (fp : FloatText) (heap : Bytes) (history : List Registration)
    (name : Bytes) (argTypes : ArgTypes) (args : List (Option Bytes)) : Prop where
  /-- The binder's failure is returned, and no server is contacted. -/
  binder : ∀ scratch r,
    BinderReplies history scratch heap name argTypes (wordBytes locationFailure ++ wordBytes r) →
    r.toInt < 0 ∧ ∀ locals network binder,
      Answers binder (wordBytes locationFailure ++ wordBytes r) →
      ∃ called, rpcCall fp heap locals ⟨.ok binder, network⟩ name argTypes args = .ok called ∧
        called.ret = r ∧ called.reply = none
  /-- The server's failure is returned. -/
  server : ∀ scratch place memory db r,
    BinderReplies history scratch heap name argTypes (wordBytes locationSuccess ++ place) →
    ServerReplies fp memory db name argTypes args (wordBytes executeFailure ++ wordBytes r) →
    ∀ locals network binder server, Answers binder (wordBytes locationSuccess ++ place) →
      LeadsTo network place server → Answers server (wordBytes executeFailure ++ wordBytes r) →
      Returns (rpcCall fp heap locals ⟨.ok binder, network⟩ name argTypes args) r

theorem rpcCall_failure (fp : FloatText) (heap : Bytes) (locals : Locals)
    (network : Bytes → Bytes → Option Link) (binder : Link) (name : Bytes) (argTypes : ArgTypes)
    (args : List (Option Bytes)) (func : Function) (r : CInt) (asks : Asks heap name argTypes func)
    (answers : Answers binder (wordBytes locationFailure ++ wordBytes r)) :
    rpcCall fp heap locals ⟨.ok binder, network⟩ name argTypes args = .error .noReturn := by
  have stream := answers.stream
  rw [← List.append_nil (wordBytes r)] at stream
  have reply := recvLocationReply_failure locals
    { binder with sent := binder.sent ++ framed locationRequest (keyBody func) } r [] answers.prompt stream
  rw [rpcCall_asked fp heap locals binder network name argTypes args func asks answers.clear, reply]
  rfl

theorem callServer_failure (fp : FloatText) (locals : Locals) (server : Link) (name : Bytes)
    (argTypes : ArgTypes) (args : List (Option Bytes)) (frame : Bytes) (r : CInt)
    (built : executeRequestFrame fp name argTypes args = .ok frame)
    (answers : Answers server (wordBytes executeFailure ++ wordBytes r)) :
    Returns (callServer fp locals server name argTypes args) r := by
  have sent : sendExecuteRequest fp server name argTypes args =
      .ok (0, { server with sent := server.sent ++ frame }) := by
    rw [sendExecuteRequest, built, Outcome.ok_bind, sendAll_clear server _ answers.clear]
    rfl
  have received := recvExecuteReply_failure locals { server with sent := server.sent ++ frame } r []
    answers.prompt (by rw [List.append_nil]; exact answers.stream)
  rw [callServer, sent, Outcome.ok_bind]
  simp only [received, Outcome.ok_bind, concludeCall]
  exact ⟨_, rfl, rfl⟩

theorem failures_reported_iff (fp : FloatText) (heap : Bytes) (history : List Registration)
    (name : Bytes) (argTypes : ArgTypes) (args : List (Option Bytes)) :
    FailuresReported fp heap history name argTypes args ↔
      ∀ func, Asks heap name argTypes func → registrants history func.getKey ≠ [] := by
  constructor
  · intro reported func asks unregistered
    have replies : BinderReplies history ⟨fun _ => 0, fun _ => 0, fun _ => 0, 0⟩ heap name argTypes
        (wordBytes locationFailure ++ wordBytes errServerNotFound) := by
      refine (binderReplies_iff _ _ _ _ _ _).mpr ⟨func, asks, ?_⟩
      rw [unregistered]
      rfl
    obtain ⟨_, returned⟩ := reported.binder _ _ replies
    obtain ⟨called, run, _⟩ := returned ⟨fun _ => 0, fun _ => 0, fun _ => 0, fun _ => 0, fun _ => 0⟩
      (fun _ _ => none)
      (.delivering (wordBytes locationFailure ++ wordBytes errServerNotFound)) ⟨rfl, rfl, rfl⟩
    cases (rpcCall_failure fp heap _ _ (.delivering (wordBytes locationFailure ++
      wordBytes errServerNotFound)) name argTypes args func errServerNotFound asks
      ⟨rfl, rfl, rfl⟩).symm.trans run
  · intro known
    constructor
    · intro scratch r replies
      obtain ⟨func, asks, unregistered⟩ := unregistered_of_failure history scratch heap name argTypes r replies
      exact absurd unregistered (known func asks)
    · intro scratch place memory db r replies serves locals network binder server answers leads failed
      obtain ⟨func, asks, _⟩ := (binderReplies_iff _ _ _ _ _ _).mp replies
      obtain ⟨frame, _, built, _⟩ := serves
      have length := length_place history scratch heap name place argTypes replies
      have stream := answers.stream
      rw [← List.append_nil place] at stream
      have reply := recvLocationReply_success locals
        { binder with sent := binder.sent ++ framed locationRequest (keyBody func) } place []
        answers.prompt length stream
      rw [rpcCall_asked fp heap locals binder network name argTypes args func asks answers.clear, reply,
        located, leads]
      exact callServer_failure fp locals server name argTypes args frame r built failed

/-- Nobody has registered `f`: the binder says so and rpcCall has nothing to return. -/
theorem unregistered_unreported :
    BinderReplies [] ⟨fun _ => 0, fun _ => 0, fun _ => 0, 0⟩ [] [102] noArguments.argTypes
        (wordBytes locationFailure ++ wordBytes errServerNotFound) ∧
      rpcCall .absent [] ⟨fun _ => 0, fun _ => 0, fun _ => 0, fun _ => 0, fun _ => 0⟩
          ⟨.ok (.delivering (wordBytes locationFailure ++ wordBytes errServerNotFound)), fun _ _ => none⟩
          [102] noArguments.argTypes [] = .error .noReturn ∧
      ¬ FailuresReported .absent [] [] [102] noArguments.argTypes [] := by
  have asks : Asks [] [102] noArguments.argTypes noArguments := ⟨_, rfl, rfl, rfl⟩
  have replies : BinderReplies [] ⟨fun _ => 0, fun _ => 0, fun _ => 0, 0⟩ [] [102] noArguments.argTypes
      (wordBytes locationFailure ++ wordBytes errServerNotFound) :=
    (binderReplies_iff _ _ _ _ _ _).mpr ⟨noArguments, asks, rfl⟩
  have run : rpcCall .absent [] ⟨fun _ => 0, fun _ => 0, fun _ => 0, fun _ => 0, fun _ => 0⟩
      ⟨.ok (.delivering (wordBytes locationFailure ++ wordBytes errServerNotFound)), fun _ _ => none⟩
      [102] noArguments.argTypes [] = .error .noReturn := by rfl
  refine ⟨replies, run, fun reported => ?_⟩
  obtain ⟨_, returned⟩ := reported.binder _ _ replies
  obtain ⟨called, ended, _⟩ := returned ⟨fun _ => 0, fun _ => 0, fun _ => 0, fun _ => 0, fun _ => 0⟩
    (fun _ _ => none)
    (.delivering (wordBytes locationFailure ++ wordBytes errServerNotFound)) ⟨rfl, rfl, rfl⟩
  cases run.symm.trans ended

end BinderRpc.FailureReports
