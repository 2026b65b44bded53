import Mathlib.Data.List.Induction
import BinderRpc.Execution
import BinderRpc.Transfers

/-!
The two tables of a server and what exec_args makes of them. A registration ends
up executable only if the tables had nothing in its way. Over any run of
registrations a procedure never loses its skeleton, so a success report stands
for a call.
-/

namespace BinderRpc.Dispatch

open Octets Text Signature Marshal Socket Database Server Frames Execution Transfers

/-- What a client, and the skeletons, see of a served request. -/
def visible (served : Served) : CInt × List Call × Link := (served.ret, served.calls, served.socket)

def SameDispatch (db after : ServerDB Skeleton) (key : Bytes) : Prop :=
  ∀ (fp : FloatText) (memory : Memory) (socket : Link) (argS : Bytes),
    (execArgs fp memory after socket key argS).map visible =
      (execArgs fp memory db socket key argS).map visible

theorem sameDispatch (db after : ServerDB Skeleton) (key : Bytes)
    (functions : after.functions key = db.functions key) (lookup : after.lookup key = db.lookup key) :
    SameDispatch db after key := by
  intro fp memory socket argS
  simp only [execArgs, functions, lookup, Outcome.map_bind]
  refine Outcome.bind_congr _ _ _ fun parsed _ => ?_
  refine Outcome.bind_congr _ _ _ fun tokens _ => ?_
  refine Outcome.bind_congr _ _ _ fun result _ => ?_
  by_cases typed : result.ret < 0
  · rw [if_pos typed, if_pos typed]
    rfl
  · rw [if_neg typed, if_neg typed]
    cases db.functions key with
    | none => rfl
    | some f =>
        simp only [Outcome.map_bind]
        rfl

def CalledOnce (fp : FloatText) (memory : Memory) (key argS : Bytes) (q : Skeleton)
    (argTypes : List CInt) (served : Served) : Prop :=
  ∃ parsed tokens result, parseKey key = .ok parsed ∧ split argS bar = .ok tokens ∧
    unmarshallArgs fp memory.margin parsed.argInfo tokens = .ok result ∧ ¬ result.ret < 0 ∧
    served.calls = [⟨q, argTypes, slots memory.blocks result.writes⟩]

theorem calledOnce_of_path (fp : FloatText) (memory : Memory) (db : ServerDB Skeleton)
    (key argS : Bytes) (parsed : ParsedKey) (tokens : List Bytes) (result : Unmarshalled) (f : Function)
    (reply : Bytes) (q : Skeleton) (sent : CInt × Link)
    (path : Path fp memory db key argS parsed tokens result f reply) :
    CalledOnce fp memory key argS q f.argTypes.array
      ⟨sent.1, (invoke f (slots memory.blocks result.writes) (some q)).2.1, db, sent.2⟩ :=
  ⟨parsed, tokens, result, path.parses, path.splits, path.unmarshals, path.typed, rfl⟩

/-- The key is filed with these argument types, and a request for it calls `f`. -/
structure Executes (db : ServerDB Skeleton) (func : Function) (f : Skeleton) : Prop where
  filed : ∃ g, db.functions func.getKey = some g ∧ g.argTypes = func.argTypes
  skeleton : db.lookup func.getKey = some f
  called : ∀ fp memory socket argS served,
    execArgs fp memory db socket func.getKey argS = .ok served →
      (served.ret = errUnmarshallingServer ∧ served.calls = []) ∨
        CalledOnce fp memory func.getKey argS f func.argTypes.array served

theorem executes_iff (db : ServerDB Skeleton) (func : Function) (f : Skeleton) :
    Executes db func f ↔
      (∃ g, db.functions func.getKey = some g ∧ g.argTypes = func.argTypes) ∧
        db.lookup func.getKey = some f := by
  constructor
  · intro executes
    exact ⟨executes.filed, executes.skeleton⟩
  · rintro ⟨⟨g, filed, types⟩, skeleton⟩
    refine ⟨⟨g, filed, types⟩, skeleton, ?_⟩
    intro fp memory socket argS served run
    rcases execArgs_cases fp memory db socket func.getKey argS served run with
      rfl | ⟨unregistered, _⟩ | ⟨parsed, tokens, result, g', reply, sent, path, _, rfl⟩
    · exact Or.inl ⟨rfl, rfl⟩
    · cases filed.symm.trans unregistered
    · cases filed.symm.trans path.registered
      rw [skeleton, ← types]
      exact Or.inr (calledOnce_of_path fp memory db _ argS parsed tokens result g reply f sent path)

/-- What a registration is for: its procedure executes, the others as before. -/
structure Recorded (db : ServerDB Skeleton) (flag : CInt) (func : Function) (f : Skeleton) : Prop where
  executes : Executes (db.updateDb flag func f).2 func f
  others : ∀ key, key ≠ func.getKey → SameDispatch db (db.updateDb flag func f).2 key

/-- A function already filed under the key has the same argument types; a warning
finds one there; and no other skeleton is there when the binder knows of none. -/
structure Recordable (db : ServerDB Skeleton) (flag : CInt) (func : Function) (f : Skeleton) : Prop where
  types : ∀ g, db.functions func.getKey = some g → g.argTypes = func.argTypes
  known : flag = registerWarning → (db.functions func.getKey).isSome
  fresh : flag = registerSuccess → ∀ q, db.lookup func.getKey = some q → q = f

/-- insert keeps whatever is there, in both tables. -/
theorem executes_success_iff (db : ServerDB Skeleton) (func : Function) (f : Skeleton) :
    Executes (db.updateDb registerSuccess func f).2 func f ↔ Recordable db registerSuccess func f := by
  have new : registerSuccess ≠ registerWarning := by decide
  obtain ⟨functions, lookup⟩ := updateDb_insert db registerSuccess func f new
  rw [executes_iff, functions, lookup, insertMissing_self, insertMissing_self]
  constructor
  · rintro ⟨⟨g, filed, types⟩, skeleton⟩
    refine ⟨?_, fun warning => absurd warning new, ?_⟩
    · intro old stored
      rw [stored] at filed
      cases filed
      exact types
    · intro _ q stored
      rw [stored] at skeleton
      exact Option.some.inj skeleton
  · rintro ⟨types, _, fresh⟩
    constructor
    · cases stored : db.functions func.getKey with
      | none => exact ⟨func, rfl, rfl⟩
      | some g => exact ⟨g, rfl, types g stored⟩
    · cases stored : db.lookup func.getKey with
      | none => rfl
      | some q => exact congrArg some (fresh rfl q stored)

theorem executes_warning_iff (db : ServerDB Skeleton) (func : Function) (f : Skeleton) :
    Executes (db.updateDb registerWarning func f).2 func f ↔ Recordable db registerWarning func f := by
  have old : registerWarning ≠ registerSuccess := by decide
  obtain ⟨functions, lookup⟩ := updateDb_warning db func f
  rw [executes_iff, functions, lookup, Function.update_self]
  constructor
  · rintro ⟨⟨g, filed, types⟩, _⟩
    refine ⟨?_, ?_, fun success => absurd success old⟩
    · intro g' stored
      cases filed.symm.trans stored
      exact types
    · intro _
      rw [filed]
      rfl
  · rintro ⟨types, known, _⟩
    obtain ⟨g, stored⟩ := Option.isSome_iff_exists.mp (known rfl)
    exact ⟨⟨g, stored, types g stored⟩, rfl⟩

theorem recorded_iff (db : ServerDB Skeleton) (flag : CInt) (func : Function) (f : Skeleton)
    (acknowledged : flag = registerSuccess ∨ flag = registerWarning) :
    Recorded db flag func f ↔ Recordable db flag func f := by
  have others : ∀ key, key ≠ func.getKey → SameDispatch db (db.updateDb flag func f).2 key := by
    intro key different
    obtain ⟨functions, lookup⟩ := updateDb_other db flag func f key different
    exact sameDispatch _ _ key functions lookup
  have executes : Recorded db flag func f ↔ Executes (db.updateDb flag func f).2 func f :=
    ⟨Recorded.executes, fun executes => ⟨executes, others⟩⟩
  rw [executes]
  rcases acknowledged with rfl | rfl
  · exact executes_success_iff db func f
  · exact executes_warning_iff db func f

def succeeding : Skeleton := fun _ args => (0, args)

def failing : Skeleton := fun _ args => (1, args)

theorem first_recorded :
    Recorded (ServerDB.empty Skeleton) registerSuccess noArguments succeeding := by
  refine (recorded_iff (ServerDB.empty Skeleton) registerSuccess noArguments _ (Or.inl rfl)).mpr ?_
  constructor
  · intro g stored
    cases stored
  · exact fun warning => absurd warning (by decide)
  · intro _ q stored
    cases stored

/-- A binder that remembers an earlier process of the server answers with a warning,
and the procedure is never found. One that has forgotten the server answers with
success, and the skeleton registered before goes on being called. -/
theorem remembered_unrecorded :
    execArgs .absent zeroed
        ((ServerDB.empty Skeleton).updateDb registerWarning noArguments succeeding).2
        (.delivering []) noArguments.getKey [] =
      .ok ⟨errServerDoesntContainFunc, [],
        ((ServerDB.empty Skeleton).updateDb registerWarning noArguments succeeding).2,
        .delivering []⟩ ∧
    ¬ Recorded (ServerDB.empty Skeleton) registerWarning noArguments succeeding ∧
    ¬ Recorded ((ServerDB.empty Skeleton).updateDb registerSuccess noArguments succeeding).2
      registerSuccess noArguments failing := by
  have key : noArguments.getKey = [102, 124, 48, 124] := by rfl
  have parsed : parseKey [102, 124, 48, 124] = .ok ⟨[102], 0, []⟩ := by rfl
  have tokens : split [] bar = .ok [[]] := by rfl
  refine ⟨?_, ?_, ?_⟩
  · rw [key]
    simp only [execArgs, parsed, tokens, emptyRequest_unmarshals, Outcome.ok_bind]
    rfl
  · intro recorded
    obtain ⟨g, filed, _⟩ := recorded.executes.filed
    rw [(updateDb_warning _ _ _).1] at filed
    cases filed
  · intro recorded
    have new : registerSuccess ≠ registerWarning := by decide
    have skeleton := recorded.executes.skeleton
    rw [(updateDb_insert _ _ _ _ new).2, insertMissing_self, (updateDb_insert _ _ _ _ new).2,
      insertMissing_self] at skeleton
    have returns := congrArg (fun q => (q [] fun _ => none).1) (Option.some.inj skeleton)
    exact absurd returns (by decide)

structure Update where
  flag : CInt
  func : Function
  f : Skeleton

def update (db : ServerDB Skeleton) (u : Update) : ServerDB Skeleton := (db.updateDb u.flag u.func u.f).2

def replay (updates : List Update) : ServerDB Skeleton := updates.foldl update (ServerDB.empty Skeleton)

theorem replay_snoc (updates : List Update) (u : Update) :
    replay (updates ++ [u]) = update (replay updates) u := by
  simp [replay]

/-- Every procedure has a skeleton, and every skeleton was registered under its key. -/
structure Supplied (updates : List Update) (db : ServerDB Skeleton) : Prop where
  found : ∀ key g, db.functions key = some g → ∃ q, db.lookup key = some q
  source : ∀ key q, db.lookup key = some q → ∃ u ∈ updates, u.func.getKey = key ∧ u.f = q

theorem supplied_empty : Supplied [] (ServerDB.empty Skeleton) where
  found := by
    intro key g filed
    cases filed
  source := by
    intro key q stored
    cases stored

theorem update_lookup (db : ServerDB Skeleton) (u : Update) :
    ∃ q, (update db u).lookup u.func.getKey = some q ∧ (q = u.f ∨ db.lookup u.func.getKey = some q) := by
  unfold update
  by_cases warning : u.flag = registerWarning
  · rw [warning, (updateDb_warning db u.func u.f).2, Function.update_self]
    exact ⟨u.f, rfl, Or.inl rfl⟩
  · rw [(updateDb_insert db u.flag u.func u.f warning).2, insertMissing_self]
    cases stored : db.lookup u.func.getKey with
    | none => exact ⟨u.f, rfl, Or.inl rfl⟩
    | some q => exact ⟨q, rfl, Or.inr rfl⟩

theorem supplied_update (updates : List Update) (db : ServerDB Skeleton) (u : Update)
    (supplied : Supplied updates db) : Supplied (updates ++ [u]) (update db u) := by
  obtain ⟨skeleton, stored, origin⟩ := update_lookup db u
  constructor
  · intro key g filed
    by_cases same : key = u.func.getKey
    · rw [same]
      exact ⟨skeleton, stored⟩
    · obtain ⟨functions, lookup⟩ := updateDb_other db u.flag u.func u.f key same
      rw [update, functions] at filed
      rw [update, lookup]
      exact supplied.found key g filed
  · intro key q present
    by_cases same : key = u.func.getKey
    · rw [same, stored] at present
      cases present
      rcases origin with new | old
      · exact ⟨u, by simp, same.symm, new.symm⟩
      · obtain ⟨before, member, under, registered⟩ := supplied.source _ _ old
        exact ⟨before, List.mem_append_left _ member, under.trans same.symm, registered⟩
    · rw [update, (updateDb_other db u.flag u.func u.f key same).2] at present
      obtain ⟨before, member, under, registered⟩ := supplied.source key q present
      exact ⟨before, List.mem_append_left _ member, under, registered⟩

theorem supplied_replay (updates : List Update) : Supplied updates (replay updates) := by
  induction updates using List.reverseRecOn with
  | nil => exact supplied_empty
  | append_singleton updates u ih =>
      rw [replay_snoc]
      exact supplied_update updates _ u ih

def SaysSuccess (bytes : Bytes) : Prop := ∃ rest, bytes = wordBytes executeSuccess ++ rest

theorem failure_not_success (count : Nat) (reasonCode : CInt) :
    ¬ SaysSuccess ((wordBytes executeFailure ++ wordBytes reasonCode).take count) := by
  rintro ⟨rest, same⟩
  have size := congrArg List.length same
  have front := congrArg (List.take 4) same
  simp only [List.length_take, List.length_append, length_wordBytes] at size
  rw [List.take_take, Nat.min_eq_left (by omega), List.take_left' (length_wordBytes _),
    List.take_left' (length_wordBytes _)] at front
  exact absurd front (by decide)

theorem sendExecuteResponse_success_zero (stale : Stale) (socket : Link) (f : Function)
    (key text : Bytes) (reasonCode : CInt) (sent : CInt × Link) (report : Bytes)
    (run : sendExecuteResponse stale socket f key text reasonCode = .ok sent)
    (out : sent.2.sent = socket.sent ++ report) (success : SaysSuccess report) : reasonCode = 0 := by
  by_contra failed
  rw [sendExecuteResponse, if_pos failed] at run
  cases run
  obtain ⟨count, part, _⟩ := sendAll_out socket (wordBytes executeFailure ++ wordBytes reasonCode)
  rw [List.append_cancel_left (out.symm.trans part)] at success
  exact failure_not_success _ _ success

theorem invoke_zero (f : Function) (args : Slots) (q : Skeleton)
    (zero : (invoke f args (some q)).1 = 0) : (q f.argTypes.array args).1 = 0 := by
  by_contra failed
  simp only [invoke, if_neg failed] at zero
  exact absurd zero (by decide)

structure Honest (updates : List Update) (db : ServerDB Skeleton) : Prop where
  /-- So the branch without a skeleton is never taken. -/
  found : ∀ key g, db.functions key = some g → ∃ q, db.lookup key = some q
  keyed : ∀ key g, db.functions key = some g → g.getKey = key
  executed : ∀ fp memory socket key argS served report,
    execArgs fp memory db socket key argS = .ok served →
      served.socket.sent = socket.sent ++ report → SaysSuccess report →
        ∃ u ∈ updates, u.func.getKey = key ∧ ∃ g, db.functions key = some g ∧
          CalledOnce fp memory key argS u.f g.argTypes.array served ∧
          ∀ call ∈ served.calls, (call.q call.argTypes call.args).1 = 0

theorem success_executes (updates : List Update) : Honest updates (replay updates) := by
  have supplied := supplied_replay updates
  refine ⟨supplied.found, (replay updates).keyed, ?_⟩
  intro fp memory socket key argS served report run out success
  have unsent : ¬ SaysSuccess [] := by
    rintro ⟨rest, same⟩
    cases same
  rcases execArgs_cases fp memory (replay updates) socket key argS served run with
    rfl | ⟨_, rfl⟩ | ⟨parsed, tokens, result, g, reply, sent, path, response, rfl⟩
  · rw [List.self_eq_append_right.mp out] at success
    exact absurd success unsent
  · rw [List.self_eq_append_right.mp out] at success
    exact absurd success unsent
  · obtain ⟨q, stored⟩ := supplied.found key g path.registered
    obtain ⟨u, member, under, rfl⟩ := supplied.source key q stored
    have zero := sendExecuteResponse_success_zero _ socket g key reply _ sent report response out success
    rw [stored] at zero ⊢
    refine ⟨u, member, under, g, path.registered,
      calledOnce_of_path fp memory _ key argS parsed tokens result g reply u.f sent path, ?_⟩
    intro call only
    rw [List.mem_singleton.mp only]
    exact invoke_zero g _ u.f zero

end BinderRpc.Dispatch
