import BinderRpc.Lib.Sessions
import BinderRpc.Dispatch
import BinderRpc.Model.Loops
import BinderRpc.Reception

/-!
rpcExecute over whole runs. Nothing goes out to a client but the report of the one
call its turn made.
-/

namespace BinderRpc.ServerLoop

open Octets Text Signature Marshal Socket Database Server Client Frames Schedules Arrival Reception
  Transfers Execution Dispatch Multiplexer

/-! A turn with what was asked and said in it. -/

structure Witnessed where
  received : Received
  served : Served
  said : Bytes

def witnessTurn (fp : FloatText) (memory : Memory) (db : ServerDB Skeleton) (socket : Link) :
    Except Fault (Option (Witnessed × ServerDB Skeleton × Link)) :=
  match recvType memory.messageType socket with
  | (none, _) => .ok none
  | (some type, left) => do
      let (received, left) ← serverDecode memory.request type left
      let served ← serverActs fp memory db left received
      return some (⟨received, served, served.socket.sent.drop socket.sent.length⟩, served.db, served.socket)

def witnessing (fp : FloatText) (db : ServerDB Skeleton) (listener : Nat)
    (rounds : List (Round listener Link Memory)) :
    Except Fault (State (ServerDB Skeleton) Link Witnessed) :=
  run listener (witnessTurn fp) rounds (start db listener)

theorem executeTurn_witnessed (fp : FloatText) (memory : Memory) (db : ServerDB Skeleton) (socket : Link) :
    executeTurn fp memory db socket =
      (witnessTurn fp memory db socket).map (Option.map fun result => (result.1.served, result.2)) := by
  rw [executeTurn, rpcExecuteTurn, witnessTurn]
  obtain ⟨type, left⟩ := recvType memory.messageType socket
  cases type with
  | none => rfl
  | some type =>
      simp only [server_handleRequest]
      cases serverDecode memory.request type left with
      | error fault => rfl
      | ok result =>
          simp only [Outcome.ok_bind]
          cases serverActs fp memory db result.2 result.1 <;> rfl

theorem rpcExecute_witnessed (fp : FloatText) (db : ServerDB Skeleton) (listener : Nat)
    (rounds : List (Round listener Link Memory)) :
    rpcExecute fp db listener rounds =
      (witnessing fp db listener rounds).map (State.retold Witnessed.served) :=
  run_retold listener (witnessTurn fp) (executeTurn fp) Witnessed.served (executeTurn_witnessed fp) rounds
    (start db listener)

theorem witnessTurn_ok (fp : FloatText) (memory : Memory) (db later : ServerDB Skeleton)
    (socket after : Link) (note : Witnessed)
    (taken : witnessTurn fp memory db socket = .ok (some (note, later, after))) :
    ∃ type left heard, recvType memory.messageType socket = (some type, left) ∧
      serverDecode memory.request type left = .ok (note.received, heard) ∧
      serverActs fp memory db heard note.received = .ok note.served ∧
      later = note.served.db ∧ after = note.served.socket ∧ heard.sent = socket.sent ∧
      note.said = note.served.socket.sent.drop socket.sent.length := by
  rw [witnessTurn] at taken
  cases typed : recvType memory.messageType socket with
  | mk type left =>
  rw [typed] at taken
  cases type with
  | none => cases taken
  | some type =>
      obtain ⟨⟨received, heard⟩, decoded, taken⟩ := (Outcome.bind_eq_ok _ _ _).mp taken
      obtain ⟨served, acted, taken⟩ := (Outcome.bind_eq_ok _ _ _).mp taken
      cases taken
      have kept := congrArg (fun result => Link.sent result.2)
        (recvType_joined memory.messageType socket socket)
      rw [show joined socket socket = socket from rfl, typed] at kept
      have silent := ((hears_serverDecode memory.request type).sends left heard _ decoded).1
      exact ⟨type, left, heard, rfl, decoded, acted, rfl, rfl, silent.trans kept, rfl⟩

def report (ret : CInt) (key text : Bytes) : Bytes :=
  if ret = 0 then framed executeSuccess (resultBody key text)
  else wordBytes executeFailure ++ wordBytes errInvalidArgs

theorem sendExecuteResponse_says (stale : Stale) (socket : Link) (g : Function) (text : Bytes)
    (ret : CInt) (sent : CInt × Link)
    (run : sendExecuteResponse stale socket g g.getKey text (if ret = 0 then 0 else errInvalidArgs) =
      .ok sent) :
    ∃ said, sent.2.sent = socket.sent ++ said ∧ said <+: report ret g.getKey text ∧
      (ret = 0 → sent.1 = 0 → said = report ret g.getKey text) := by
  by_cases zero : ret = 0
  · obtain ⟨n, part, whole⟩ := sendAll_out socket (framed executeSuccess (resultBody g.getKey text))
    rw [if_pos zero, sendExecuteResponse_framed] at run
    rw [report, if_pos zero]
    by_cases fits : g.getKey.length + text.length + 18 < 2 ^ 31
    · rw [if_pos fits] at run
      cases run
      refine ⟨_, part, List.take_prefix _ _, fun _ sent_all => ?_⟩
      rw [whole (by rw [sent_all]; decide), List.take_length]
    · rw [if_neg fits] at run
      cases run
  · obtain ⟨n, part, _⟩ := sendAll_out socket (wordBytes executeFailure ++ wordBytes errInvalidArgs)
    rw [if_neg zero, sendExecuteResponse, if_pos (by decide)] at run
    rw [report, if_neg zero]
    cases run
    exact ⟨_, part, List.take_prefix _ _, fun returned => absurd returned zero⟩

/-- What came of a turn: no skeleton was called and nothing was said, or the one
registered under the key of the request was called, once, and nothing was said but
the report of that call, on as many arguments as the key counts. -/
inductive Accounted (fp : FloatText) (updates : List Update) : Witnessed → Prop where
  | nothing (received : Received) (served : Served) (none : served.calls = []) :
      Accounted fp updates ⟨received, served, []⟩
  | called (request : ExecuteRequest) (served : Served) (said : Bytes) (u : Update) (listed : u ∈ updates)
      (under : u.func.getKey = request.key) (g : Function)
      (filed : (replay updates).functions request.key = some g) (memory : Memory) (args : Slots)
      (once : CalledOnce fp memory request.key request.args u.f g.argTypes.array served)
      (calls : served.calls = [⟨u.f, g.argTypes.array, args⟩]) (parsed : ParsedKey)
      (parses : parseKey request.key = .ok parsed) (text : Bytes)
      (results : marshallArgs fp g.argTypes.array
        ((List.range parsed.argLength.toNat).map (u.f g.argTypes.array args).2)
        parsed.argLength.toNat = .ok text)
      (part : said <+: report (u.f g.argTypes.array args).1 request.key text)
      (whole : (u.f g.argTypes.array args).1 = 0 → served.ret = 0 →
        said = report (u.f g.argTypes.array args).1 request.key text) :
      Accounted fp updates ⟨.execute (some request), served, said⟩

theorem execArgs_accounted (fp : FloatText) (memory : Memory) (updates : List Update) (socket : Link)
    (request : ExecuteRequest) (served : Served)
    (run : execArgs fp memory (replay updates) socket request.key request.args = .ok served) :
    served.db = replay updates ∧ ∃ said, served.socket.sent = socket.sent ++ said ∧
      Accounted fp updates ⟨.execute (some request), served, said⟩ := by
  have supplied := supplied_replay updates
  rcases execArgs_cases fp memory (replay updates) socket request.key request.args served run with
    rfl | ⟨_, rfl⟩ | ⟨parsed, tokens, result, g, text, sent, path, response, rfl⟩
  · exact ⟨rfl, [], (List.append_nil _).symm, .nothing _ _ rfl⟩
  · exact ⟨rfl, [], (List.append_nil _).symm, .nothing _ _ rfl⟩
  -- a skeleton was called, and a registration has supplied it
  · obtain ⟨q, stored⟩ := supplied.found request.key g path.registered
    obtain ⟨u, listed, under, rfl⟩ := supplied.source request.key q stored
    have filed := (replay updates).keyed request.key g path.registered
    have marshals := path.marshals
    rw [stored] at response marshals
    rw [← filed] at response
    obtain ⟨said, out, part, whole⟩ := sendExecuteResponse_says memory.response socket g text
      (u.f g.argTypes.array (slots memory.blocks result.writes)).1 sent response
    rw [filed] at part whole
    refine ⟨rfl, said, out, ?_⟩
    rw [stored]
    exact .called request _ said u listed under g path.registered memory _
      (calledOnce_of_path fp memory _ _ _ parsed tokens result g text u.f sent path) rfl parsed path.parses
      text marshals part whole

theorem witnessTurn_lawful (fp : FloatText) (updates : List Update) (memory : Memory)
    (db : ServerDB Skeleton) (socket : Link) (note : Witnessed) (later : ServerDB Skeleton) (after : Link)
    (tables : db = replay updates)
    (taken : witnessTurn fp memory db socket = .ok (some (note, later, after))) :
    later = replay updates ∧ later = db ∧ Accounted fp updates note := by
  obtain ⟨type, left, heard, _, _, acted, rfl, rfl, silent, cut⟩ :=
    witnessTurn_ok fp memory db later socket after note taken
  subst tables
  obtain ⟨received, served, bytes⟩ := note
  have said : ∀ out, served.socket.sent = heard.sent ++ out → bytes = out := by
    intro out there
    simp only at cut
    rw [cut, there, silent, List.drop_left]
  cases received with
  | execute request =>
      cases request with
      | none =>
          cases acted
          rw [said [] (List.append_nil _).symm]
          exact ⟨rfl, rfl, .nothing _ _ rfl⟩
      | some request =>
          obtain ⟨same, out, sent, accounted⟩ := execArgs_accounted fp memory updates heard request served acted
          rw [said out sent]
          exact ⟨same, same, accounted⟩
  | closed | ignored | register | locate | location | response =>
      cases acted
      rw [said [] (List.append_nil _).symm]
      exact ⟨rfl, rfl, .nothing _ _ rfl⟩

/-- Whatever clients come and go, and whatever they send. -/
theorem rpcExecute_accounted (fp : FloatText) (updates : List Update) (listener : Nat)
    (rounds : List (Round listener Link Memory)) (s : State (ServerDB Skeleton) Link Served)
    (ran : rpcExecute fp (replay updates) listener rounds = .ok s) :
    ∃ after, witnessing fp (replay updates) listener rounds = .ok after ∧
      s = after.retold Witnessed.served ∧ after.shared = replay updates ∧
      ∀ note ∈ notes after.turns, Accounted fp updates note := by
  rw [rpcExecute_witnessed] at ran
  obtain ⟨after, witnessed, retold⟩ := (Outcome.map_eq_ok _ _ _).mp ran
  obtain ⟨same, ordered⟩ := run_sequential (fun db _ => db) (fun _ note => Accounted fp updates note)
    (replay updates) listener (witnessTurn fp) (· = replay updates) rfl
    (witnessTurn_lawful fp updates) rounds after witnessed
  refine ⟨after, witnessed, retold.symm, same, ?_⟩
  intro note member
  obtain ⟨earlier, later, split⟩ := List.append_of_mem member
  exact ordered.placed earlier note later split

theorem execArgs_db (fp : FloatText) (memory : Memory) (db : ServerDB Skeleton) (socket : Link)
    (key argS : Bytes) (served : Served) (run : execArgs fp memory db socket key argS = .ok served) :
    served.db = db := by
  rcases execArgs_cases fp memory db socket key argS served run with
    rfl | ⟨_, rfl⟩ | ⟨_, _, _, _, _, _, _, _, rfl⟩ <;> rfl

theorem executeTurn_ok (fp : FloatText) (memory : Memory) (db : ServerDB Skeleton) (socket : Link)
    (served : Served) (later : ServerDB Skeleton) (after : Link)
    (taken : executeTurn fp memory db socket = .ok (some (served, later, after))) :
    rpcExecuteTurn fp memory db socket = .ok (some served) ∧ later = db ∧ after = served.socket := by
  rw [executeTurn_witnessed] at taken
  obtain ⟨outcome, witnessed, same⟩ := (Outcome.map_eq_ok _ _ _).mp taken
  cases outcome with
  | none => cases same
  | some result =>
      obtain ⟨note, later', after'⟩ := result
      cases same
      obtain ⟨type, left, heard, typed, decoded, acted, rfl, rfl, _⟩ :=
        witnessTurn_ok fp memory db later socket after note witnessed
      refine ⟨?_, ?_, rfl⟩
      · rw [rpcExecuteTurn, typed]
        simp only [server_handleRequest, decoded, Outcome.ok_bind, acted]
        rfl
      · obtain ⟨received, served, said⟩ := note
        cases received with
        | execute request =>
            cases request with
            | none =>
                cases acted
                rfl
            | some request => exact execArgs_db fp memory db heard _ _ served acted
        | closed | ignored | register | locate | location | response =>
            cases acted
            rfl

def servedNext (fp : FloatText) (db : ServerDB Skeleton) (memory : Memory) (socket : Link) :
    Option (Served × Link) :=
  match rpcExecuteTurn fp memory db socket with
  | .ok (some served) => some (served, served.socket)
  | _ => none

theorem projects_served (fp : FloatText) (db : ServerDB Skeleton) :
    Projects (executeTurn fp) (· = db) id id (servedNext fp db) where
  ended := by
    rintro memory _ socket rfl ended
    rw [executeTurn] at ended
    obtain ⟨outcome, run, same⟩ := (Outcome.map_eq_ok _ _ _).mp ended
    cases outcome with
    | none => rw [servedNext, id, run]
    | some served => cases same
  taken := by
    rintro memory _ socket served later after rfl taken
    obtain ⟨run, same, left⟩ := executeTurn_ok fp memory _ socket served later after taken
    refine ⟨same, ?_⟩
    rw [servedNext, id, run, left]
    rfl

theorem rpcExecute_reached (fp : FloatText) (db : ServerDB Skeleton) (listener : Nat)
    (before : List (Round listener Link Memory)) (s : State (ServerDB Skeleton) Link Served)
    (reached : rpcExecute fp db listener before = .ok s) : WellFormed listener s ∧ s.shared = db :=
  run_keeps listener (executeTurn fp) (fun s => s.shared = db)
    (fun round i s after _ held visited => visited.keeps listener (executeTurn fp) (· = db) id id
      (servedNext fp db) (projects_served fp db) round i s after held) before _ s
    (wellFormed_start db listener) rfl reached

/-! A client without arguments on descriptor 4, beside the listening 3. -/

def registeredOnce : List Update := [⟨registerSuccess, noArguments, succeeding⟩]

def clientRound (fd : Nat) : Round 3 Link Memory where
  ready := {fd}
  accept := .offering 0 (.delivering emptyRequest)
  scratch _ := zeroed

def joining : Round 3 Link Memory := clientRound 3

def asking : Round 3 Link Memory := clientRound 4

def attached : State (ServerDB Skeleton) Link Served :=
  accepted joining.accept (start (replay registeredOnce) 3)

theorem attached_reached : rpcExecute .absent (replay registeredOnce) 3 [joining] = .ok attached ∧
    WellFormed 3 attached :=
  run_single 3 (executeTurn .absent) joining [] _ attached (wellFormed_start (replay registeredOnce) 3) 3
    (Finset.mem_singleton_self 3) rfl rfl

theorem asking_answered : ∃ served,
    rpcExecuteTurn .absent zeroed (replay registeredOnce) (.delivering emptyRequest) = .ok (some served) ∧
      served.calls = [⟨succeeding, noArguments.argTypes.array, slots zeroed.blocks []⟩] := by
  have turn := rpcExecuteTurn_request .absent zeroed (replay registeredOnce)
    (.delivering emptyRequest) [102, 124, 48, 124] [] [] rfl rfl (by decide) (by decide)
  have path : Path .absent zeroed (replay registeredOnce) [102, 124, 48, 124] (cText [])
      ⟨[102], 0, []⟩ [[]] ⟨0, []⟩ noArguments [] :=
    ⟨rfl, rfl, emptyRequest_unmarshals _ _, by decide, rfl, rfl⟩
  rw [turn, execArgs_path _ _ _ _ _ _ _ _ _ _ _ path]
  exact ⟨_, rfl, rfl⟩

theorem asking_runs (s : State (ServerDB Skeleton) Link Served) (valid : WellFormed 3 s)
    (member : 4 ∈ s.master) (tables : s.shared = replay registeredOnce)
    (opened : s.conns 4 = some (.delivering emptyRequest)) :
    ∃ after, run 3 (executeTurn .absent) [asking] s = .ok after := by
  obtain ⟨next, visited⟩ : ∃ next, visit 3 (executeTurn .absent) asking {4} 4 s = .ok next := by
    obtain ⟨served, answered, _⟩ := asking_answered
    rw [visit, if_neg (by simp), if_neg (by decide), opened, tables]
    simp only [executeTurn, show asking.scratch 4 = zeroed from rfl, answered]
    exact ⟨_, rfl⟩
  exact ⟨next, (run_single 3 (executeTurn .absent) asking [] s next valid 4 member rfl visited).1⟩

theorem asking_accounted :
    ∃ s after, rpcExecute .absent (replay registeredOnce) 3 [joining, asking] = .ok s ∧
      witnessing .absent (replay registeredOnce) 3 [joining, asking] = .ok after ∧
      s = after.retold Witnessed.served ∧
        ∀ note ∈ notes after.turns, Accounted .absent registeredOnce note := by
  obtain ⟨s, ran⟩ := asking_runs attached attached_reached.2 (Finset.mem_insert_self 4 {3}) rfl rfl
  have whole : rpcExecute .absent (replay registeredOnce) 3 [joining, asking] = .ok s :=
    (run_single 3 (executeTurn .absent) joining [asking] _ attached
      (wellFormed_start (replay registeredOnce) 3) 3 (Finset.mem_singleton_self 3) rfl rfl).1.trans ran
  obtain ⟨after, witnessed, retold, _, accounted⟩ :=
    rpcExecute_accounted .absent registeredOnce 3 [joining, asking] s whole
  exact ⟨s, after, whole, witnessed, retold, accounted⟩

end BinderRpc.ServerLoop
