import BinderRpc.Registry

/-!
Runs of the binder with registrations and location requests in any order. A
request is answered from the head of the stored list, the first server ever
registered for its key, and the client reads that answer back whatever lies
behind the host's terminator.
-/

namespace BinderRpc.Location

open Octets Text Signature Socket Database Binder Client Frames Registry

/-- What send_location_response sends. -/
def answerBytes (beyond : Stale) : Option ServerInfo → Bytes
  | none => wordBytes locationFailure ++ wordBytes errServerNotFound
  | some s => wordBytes locationSuccess ++ (cStrField s.host (maxHostName + 1) beyond ++ wordBytes s.port)

def answer : Option ServerInfo → LocationReply
  | none => .failure (some 4) errServerNotFound
  | some s => .success s.host s.port

theorem sendLocationResponse_clear (beyond : Stale) (db : BinderDB) (socket : Link) (key : Bytes)
    (clear : socket.Clear) (nonempty : db.lookup key ≠ some []) :
    sendLocationResponse beyond db socket key =
      .ok (0, db, { socket with
        sent := socket.sent ++ answerBytes beyond ((db.lookup key).getD []).head? }) := by
  have again : ∀ bytes, ({ socket with sent := bytes } : Link).Clear := fun _ => clear
  unfold sendLocationResponse
  cases stored : db.lookup key with
  | none =>
      rw [if_pos rfl, sendAll_clear socket _ clear]
      simp only
      rw [if_neg (by decide), sendAll_clear _ _ (again _)]
      simp [answerBytes]
  | some servers =>
      cases servers with
      | nil => exact absurd stored nonempty
      | cons s rest =>
          have found : db.subscript key = (s :: rest, db) := by
            rw [BinderDB.subscript, stored]
          rw [if_neg (by simp), found]
          simp only [element, List.getElem?_cons_zero, Outcome.ok_bind]
          rw [sendAll_clear socket _ clear]
          simp only
          rw [if_neg (by decide), sendAll_clear _ _ (again _)]
          simp [answerBytes, pure, Except.pure]

theorem sendLocationResponse_db (beyond : Stale) (db after : BinderDB) (socket link : Link)
    (key : Bytes) (res : CInt)
    (sent : sendLocationResponse beyond db socket key = .ok (res, after, link)) : after = db := by
  unfold sendLocationResponse at sent
  by_cases missing : db.lookup key = none
  · rw [if_pos missing] at sent
    simp only at sent
    split at sent
    · cases sent
      rfl
    · cases sent
      rfl
  · obtain ⟨servers, stored⟩ := Option.ne_none_iff_exists'.mp missing
    have found : db.subscript key = (servers, db) := by
      rw [BinderDB.subscript, stored]
    rw [if_neg missing, found] at sent
    obtain ⟨s, _, sent⟩ := (Outcome.bind_eq_ok _ _ _).mp sent
    simp only at sent
    split at sent
    · cases sent
      rfl
    · cases sent
      rfl

/-! The client's reads of an answer that arrives whole. -/

theorem recvLocationReply_failure (locals : Locals) (client : Link) (r : CInt) (rest : Bytes)
    (prompt : client.Prompt)
    (stream : client.incoming = wordBytes locationFailure ++ (wordBytes r ++ rest)) :
    recvLocationReply locals client = (.failure (some 4) r, { client with incoming := rest }) := by
  have type := recvInto_front client (staleBytes locals.msgType 4) _ _ prompt stream (by simp)
  have reason := recvInto_front { client with incoming := wordBytes r ++ rest } [0, 0, 0, 0] _ rest prompt
    rfl (by simp)
  rw [recvLocationReply, type]
  simp only [wordOf_wordBytes, if_true, reason, length_wordBytes]

theorem recvLocationReply_success (locals : Locals) (client : Link) (place rest : Bytes)
    (prompt : client.Prompt) (length : place.length = maxHostName + 1 + 4)
    (stream : client.incoming = wordBytes locationSuccess ++ (place ++ rest)) :
    recvLocationReply locals client =
      (.success (cText (place.take maxHostName)) (wordOf ((place.drop (maxHostName + 1)).take 4)),
        { client with incoming := rest }) := by
  have type := recvInto_front client (staleBytes locals.msgType 4) _ _ prompt stream (by simp)
  have address := recvInto_front { client with incoming := place ++ rest }
    (staleBytes locals.location (maxHostName + 1 + 4)) _ rest prompt rfl (by simp [length])
  rw [recvLocationReply, type]
  simp only [wordOf_wordBytes, if_neg (show ¬ locationSuccess = locationFailure by decide), if_true,
    address]

theorem recvLocationReply_answer (locals : Locals) (client : Link) (beyond : Stale)
    (s : Option ServerInfo) (rest : Bytes) (prompt : client.Prompt)
    (stream : client.incoming = answerBytes beyond s ++ rest)
    (host : ∀ server, s = some server → server.host.length ≤ maxHostName ∧ 0 ∉ server.host) :
    recvLocationReply locals client = (answer s, { client with incoming := rest }) := by
  cases s with
  | none =>
      rw [answerBytes, List.append_assoc] at stream
      exact recvLocationReply_failure locals client errServerNotFound rest prompt stream
  | some server =>
      obtain ⟨short, free⟩ := host server rfl
      rw [answerBytes, List.append_assoc] at stream
      have name : cText ((cStrField server.host (maxHostName + 1) beyond ++
          wordBytes server.port).take maxHostName) = server.host := by
        rw [List.take_append_of_le_length (by rw [length_cStrField]; omega),
          cText_field _ _ _ beyond free (by omega), List.take_of_length_le short]
      have port : ((cStrField server.host (maxHostName + 1) beyond ++
          wordBytes server.port).drop (maxHostName + 1)).take 4 = wordBytes server.port := by
        rw [List.drop_left' (length_cStrField _ _ _), List.take_of_length_le (by simp)]
      rw [recvLocationReply_success locals client _ rest prompt (by simp) stream, name, port,
        wordOf_wordBytes, answer]

theorem receiveLocationRequest_body (stale beyond : Stale) (db : BinderDB) (socket : Link)
    (key rest : Bytes) (prompt : socket.Prompt) (stream : socket.incoming = (key ++ [0]) ++ rest)
    (free : 0 ∉ key) (fits : key.length + 2 < 2 ^ 31) :
    receiveLocationRequest stale beyond db socket (BitVec.ofNat 32 (key ++ [0]).length) =
      sendLocationResponse beyond db { socket with incoming := rest } key := by
  rw [receiveLocationRequest, recvLocationRequest_body stale socket key rest prompt stream free fits]
  rfl

theorem initTurn_request (scratch : Scratch) (db : BinderDB) (socket : Link) (key rest : Bytes)
    (prompt : socket.Prompt) (stream : socket.incoming = framed locationRequest (key ++ [0]) ++ rest)
    (free : 0 ∉ key) (fits : key.length + 2 < 2 ^ 31) :
    initTurn scratch db socket =
      (sendLocationResponse scratch.beyond db { socket with incoming := rest } key).map some := by
  rw [framed, List.append_assoc, List.append_assoc] at stream
  have type := recvType_front scratch.messageType socket locationRequest _ prompt stream
  have length := recvLength_front
    { socket with incoming := lengthBytes (key ++ [0]).length ++ ((key ++ [0]) ++ rest) } _ _ prompt rfl
  have body := receiveLocationRequest_body scratch.request scratch.beyond db
    { socket with incoming := (key ++ [0]) ++ rest } key rest prompt rfl free fits
  rw [initTurn, type]
  simp only [handleRequest, if_neg (show ¬ locationRequest = register by decide), if_true, length]
  rw [body]

inductive Event where
  | register (r : Registration)
  /-- A location request answered over this connection. -/
  | locate (key : Bytes) (beyond : Stale) (socket : Link)

def step (db : BinderDB) : Event → BinderDB
  | .register r => (update db r).2
  | .locate key beyond socket =>
      match sendLocationResponse beyond db socket key with
      | .ok (_, after, _) => after
      | .error _ => db

def reached (events : List Event) : BinderDB := events.foldl step BinderDB.empty

def registrations (events : List Event) : List Registration :=
  events.filterMap fun event =>
    match event with
    | .register r => some r
    | .locate _ _ _ => none

theorem step_locate (db : BinderDB) (key : Bytes) (beyond : Stale) (socket : Link) :
    step db (.locate key beyond socket) = db := by
  rw [step]
  cases outcome : sendLocationResponse beyond db socket key with
  | error fault => rfl
  | ok result =>
      obtain ⟨res, after, link⟩ := result
      exact sendLocationResponse_db beyond db after socket link key res outcome

theorem reached_eq (events : List Event) : reached events = replay (registrations events) := by
  induction events using List.reverseRecOn with
  | nil => rfl
  | append_singleton events event ih =>
      have last : reached (events ++ [event]) = step (reached events) event := by
        simp [reached]
      rw [last, ih]
      cases event with
      | register r =>
          have more : registrations (events ++ [.register r]) = registrations events ++ [r] := by
            simp [registrations]
          rw [more, replay_snoc]
          rfl
      | locate key beyond socket =>
          have same : registrations (events ++ [.locate key beyond socket]) = registrations events := by
            simp [registrations]
          rw [same, step_locate]

structure Serves (history : List Registration) (db : BinderDB) : Prop where
  flag : ∀ r, (update db r).1 =
    if r.server ∈ registrants history r.key then registerWarning else registerSuccess
  members : ∀ key s,
    (∃ servers, db.lookup key = some servers ∧ s ∈ servers) ↔ s ∈ registrants history key
  others : ∀ r key, key ≠ r.key → (update db r).2.lookup key = db.lookup key
  first : ∀ key servers, db.lookup key = some servers →
    servers ≠ [] ∧ servers.head? = (registrants history key).head?
  unchanged : ∀ beyond socket key res after link,
    sendLocationResponse beyond db socket key = .ok (res, after, link) → after = db
  located : ∀ beyond socket key, socket.Clear → ∃ bytes,
    sendLocationResponse beyond db socket key =
      .ok (0, db, { socket with sent := socket.sent ++ bytes }) ∧
    ∀ locals client rest, client.Prompt → client.incoming = bytes ++ rest →
      recvLocationReply locals client =
        (answer (registrants history key).head?, { client with incoming := rest })
  requested : ∀ stale beyond socket key rest, socket.Prompt →
    socket.incoming = (key ++ [0]) ++ rest → 0 ∉ key → key.length + 2 < 2 ^ 31 →
    receiveLocationRequest stale beyond db socket (BitVec.ofNat 32 (key ++ [0]).length) =
      sendLocationResponse beyond db { socket with incoming := rest } key

theorem registrant_host (history : List Registration)
    (hosts : ∀ r ∈ history, HostText r.sName) (key : Bytes) (s : ServerInfo)
    (member : s ∈ registrants history key) : HostText s.host := by
  simp only [registrants, Directory.announced, announcements, List.mem_map, List.mem_filter] at member
  obtain ⟨entry, ⟨⟨r, listed, rfl⟩, _⟩, rfl⟩ := member
  exact hosts r listed

theorem serves_reached (events : List Event)
    (hosts : ∀ r ∈ registrations events, HostText r.sName) :
    Serves (registrations events) (reached events) := by
  rw [reached_eq]
  have represents := represents_replay (registrations events)
  constructor
  · exact replay_flag (registrations events)
  · intro key s
    rw [← mem_replay]
    cases stored : (replay (registrations events)).lookup key with
    | none => simp
    | some servers => simp
  · exact lookup_update_other _
  · intro key servers stored
    have head := head_replay (registrations events) key
    rw [stored, Option.getD_some] at head
    refine ⟨?_, head⟩
    rintro rfl
    exact represents.nonempty key stored
  · exact fun beyond socket key res after link => sendLocationResponse_db beyond _ after socket link key res
  · intro beyond socket key clear
    have head := head_replay (registrations events) key
    refine ⟨answerBytes beyond (registrants (registrations events) key).head?, ?_, ?_⟩
    · rw [sendLocationResponse_clear beyond _ socket key clear (represents.nonempty key), head]
    · intro locals client rest prompt stream
      apply recvLocationReply_answer locals client beyond _ rest prompt stream
      intro server first
      exact registrant_host _ hosts key server (List.mem_of_head? first)
  · exact fun stale beyond socket key rest => receiveLocationRequest_body stale beyond _ socket key rest

theorem serves_two_servers :
    Serves [⟨[102], [97], 1, [102]⟩, ⟨[102], [98], 2, [102]⟩]
      (reached [.register ⟨[102], [97], 1, [102]⟩, .locate [102] (fun _ => 7) (.delivering []),
        .register ⟨[102], [98], 2, [102]⟩]) := by
  refine serves_reached [.register ⟨[102], [97], 1, [102]⟩,
    .locate [102] (fun _ => 7) (.delivering []), .register ⟨[102], [98], 2, [102]⟩] ?_
  intro r member
  simp only [registrations, List.filterMap_cons, List.filterMap_nil, List.mem_cons, List.not_mem_nil,
    or_false] at member
  rcases member with rfl | rfl
  · exact ⟨by decide, by decide⟩
  · exact ⟨by decide, by decide⟩

end BinderRpc.Location
