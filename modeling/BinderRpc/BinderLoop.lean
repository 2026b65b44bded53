import BinderRpc.Lib.Sessions
import BinderRpc.Conversation
import BinderRpc.Model.Loops
import BinderRpc.Reception
import BinderRpc.Transfers

/-!
The binder among all its connections. Whatever order its turns come in, they are
answered as if taken one after the other: each location request from the
registrations noted before it. A connection is heard as if it were the only one.
-/

namespace BinderRpc.BinderLoop

open Octets Text Signature Socket Database Binder Server Client Frames Registry Location Schedules
  Arrival Conversation Reception Transfers Multiplexer

/-! A turn with what was heard and said in it. -/

structure Overheard where
  ret : CInt
  received : Received
  /-- What update_db returned, where it was called. -/
  flag : Option CInt
  said : Bytes
  deriving DecidableEq, Repr

def decided (db : BinderDB) : Received → Option CInt
  | .register (some request) =>
      some (db.updateDb request.fName request.sName request.port request.key).1
  | _ => none

def overhearTurn (scratch : Scratch) (db : BinderDB) (socket : Link) :
    Except Fault (Option (Overheard × BinderDB × Link)) :=
  match recvType scratch.messageType socket with
  | (none, _) => .ok none
  | (some type, left) => do
      let (received, left) ← binderDecode scratch.request type left
      let (ret, later, after) ← binderActs scratch.beyond scratch.pointer db left received
      return some (⟨ret, received, decided db received, after.sent.drop socket.sent.length⟩, later, after)

def overhearing (listener : Nat) (rounds : List (Round listener Link Scratch)) :
    Except Fault (State BinderDB Link Overheard) :=
  run listener overhearTurn rounds (start BinderDB.empty listener)

theorem initTurn_overheard (scratch : Scratch) (db : BinderDB) (socket : Link) :
    initTurn scratch db socket =
      (overhearTurn scratch db socket).map (Option.map fun result => (result.1.ret, result.2)) := by
  rw [initTurn, overhearTurn]
  obtain ⟨type, left⟩ := recvType scratch.messageType socket
  cases type with
  | none => rfl
  | some type =>
      simp only [binder_handleRequest]
      cases binderDecode scratch.request type left with
      | error fault => rfl
      | ok result =>
          simp only [Outcome.ok_bind]
          cases binderActs scratch.beyond scratch.pointer db result.2 result.1 <;> rfl

theorem init_overheard (listener : Nat) (rounds : List (Round listener Link Scratch)) :
    Binder.init listener rounds = (overhearing listener rounds).map (State.retold Overheard.ret) :=
  run_retold listener overhearTurn initTurn Overheard.ret initTurn_overheard rounds
    (start BinderDB.empty listener)

theorem overhearTurn_ok (scratch : Scratch) (db later : BinderDB) (socket after : Link) (note : Overheard)
    (taken : overhearTurn scratch db socket = .ok (some (note, later, after))) :
    ∃ type left heard, recvType scratch.messageType socket = (some type, left) ∧
      binderDecode scratch.request type left = .ok (note.received, heard) ∧
      binderActs scratch.beyond scratch.pointer db heard note.received = .ok (note.ret, later, after) ∧
      heard.sent = socket.sent ∧ note.flag = decided db note.received ∧
      note.said = after.sent.drop socket.sent.length := by
  rw [overhearTurn] at taken
  cases typed : recvType scratch.messageType socket with
  | mk type left =>
  rw [typed] at taken
  cases type with
  | none => cases taken
  | some type =>
      obtain ⟨⟨received, heard⟩, decoded, taken⟩ := (Outcome.bind_eq_ok _ _ _).mp taken
      obtain ⟨⟨ret, db', after'⟩, acted, taken⟩ := (Outcome.bind_eq_ok _ _ _).mp taken
      cases taken
      -- the receivers send nothing
      have kept := congrArg (fun result => Link.sent result.2)
        (recvType_joined scratch.messageType socket socket)
      rw [show joined socket socket = socket from rfl, typed] at kept
      have silent := ((hears_binderDecode scratch.request type).sends left heard _ decoded).1
      exact ⟨type, left, heard, rfl, decoded, acted, silent.trans kept, rfl, rfl⟩

/-- Two messages one after the other, the second only if the first went out. -/
theorem sendAll_twice (socket : Link) (first second : Bytes) :
    ∃ said, (if (sendAll socket first).1 = -1 then (sendAll socket first).2.2
        else (sendAll (sendAll socket first).2.2 second).2.2).sent = socket.sent ++ said ∧
      said <+: first ++ second ∧
      ((sendAll socket first).1 ≠ -1 → (sendAll (sendAll socket first).2.2 second).1 ≠ -1 →
        said = first ++ second) := by
  obtain ⟨m, sooner, all⟩ := sendAll_out socket first
  obtain ⟨n, later, whole⟩ := sendAll_out (sendAll socket first).2.2 second
  by_cases failed : (sendAll socket first).1 = -1
  · rw [if_pos failed]
    refine ⟨_, sooner, ?_, fun out => absurd failed out⟩
    exact (List.take_prefix _ _).trans (List.prefix_append _ _)
  · rw [if_neg failed]
    refine ⟨first ++ second.take n, ?_, ?_, ?_⟩
    · rw [later, sooner, all failed, List.take_length, List.append_assoc]
    · exact (List.prefix_append_right_inj first).mpr (List.take_prefix _ _)
    · intro _ out
      rw [whole out, List.take_length]

/-- Each reply is a prefix of the answer, and the whole of it if the result is 0. -/
theorem sendLocationResponse_says (beyond : Stale) (db later : BinderDB) (socket after : Link)
    (key : Bytes) (res : CInt) (nonempty : db.lookup key ≠ some [])
    (sent : sendLocationResponse beyond db socket key = .ok (res, later, after)) :
    ∃ said, after.sent = socket.sent ++ said ∧
      said <+: answerBytes beyond ((db.lookup key).getD []).head? ∧
      (res = 0 → said = answerBytes beyond ((db.lookup key).getD []).head?) := by
  have failure : errBinderSendFail ≠ 0 := by decide
  unfold sendLocationResponse at sent
  cases stored : db.lookup key with
  | none =>
      rw [stored, if_pos rfl] at sent
      obtain ⟨said, out, part, all⟩ :=
        sendAll_twice socket (wordBytes locationFailure) (wordBytes errServerNotFound)
      by_cases first : (sendAll socket (wordBytes locationFailure)).1 = -1
      · simp only [if_pos first] at sent out
        cases sent
        exact ⟨said, out, part, fun zero => absurd zero failure⟩
      · simp only [if_neg first] at sent out
        cases sent
        refine ⟨said, out, part, fun zero => all first fun second => ?_⟩
        rw [if_pos second] at zero
        exact failure zero
  | some servers =>
      cases servers with
      | nil => exact absurd stored nonempty
      | cons s rest =>
          have found : db.subscript key = (s :: rest, db) := by
            rw [BinderDB.subscript, stored]
          rw [if_neg (by simp [stored]), found] at sent
          simp only [element, List.getElem?_cons_zero, Outcome.ok_bind] at sent
          obtain ⟨said, out, part, all⟩ := sendAll_twice socket (wordBytes locationSuccess)
            (cStrField s.host (maxHostName + 1) beyond ++ wordBytes s.port)
          by_cases first : (sendAll socket (wordBytes locationSuccess)).1 = -1
          · simp only [if_pos first] at sent out
            cases sent
            exact ⟨said, out, part, fun zero => absurd zero failure⟩
          · simp only [if_neg first] at sent out
            cases sent
            refine ⟨said, out, part, fun zero => all first fun second => ?_⟩
            rw [if_pos second] at zero
            exact failure zero

theorem sendRegisterResponse_says (pointer : BitVec 64) (socket : Link) (flag : CInt) :
    ∃ said, (sendRegisterResponse pointer socket flag).2.sent = socket.sent ++ said ∧
      said <+: (StringObject.bytes ⟨pointer, toStri flag.toInt⟩).take 4 := by
  rw [sendRegisterResponse]
  cases out : socket.send ((StringObject.bytes ⟨pointer, toStri flag.toInt⟩).take 4) with
  | mk count after =>
  cases count with
  | none => exact ⟨[], by rw [(Link.send_none _ _ _ out).1, List.append_nil], List.nil_prefix⟩
  | some n => exact ⟨_, (Link.send_some _ _ _ _ out).2.1, List.take_prefix _ _⟩

def registration : Received → Option Registration
  | .register (some request) => some ⟨request.fName, request.sName, request.port, request.key⟩
  | _ => none

def registered (log : List Overheard) : List Registration :=
  log.filterMap fun note => registration note.received

def applied (db : BinderDB) (note : Overheard) : BinderDB :=
  match registration note.received with
  | some r => (update db r).2
  | none => db

/-- What a turn says with this database in front of it. -/
def Says (db : BinderDB) (note : Overheard) : Prop :=
  match note.received with
  | .register (some request) => HostText request.sName ∧
      ∃ pointer, note.said <+: (StringObject.bytes ⟨pointer, toStri
        (db.updateDb request.fName request.sName request.port request.key).1.toInt⟩).take 4
  | .locate (some key) => ∃ beyond,
      note.said <+: answerBytes beyond ((db.lookup key).getD []).head? ∧
      (note.ret = 0 → note.said = answerBytes beyond ((db.lookup key).getD []).head?)
  | _ => note.said = []

def Fits (db : BinderDB) (note : Overheard) : Prop :=
  note.flag = decided db note.received ∧ Says db note

theorem cText_hostText (text : Bytes) : HostText (cText (text.take maxHostName)) := by
  have short : (cText (text.take maxHostName)).length ≤ (text.take maxHostName).length :=
    (List.takeWhile_sublist _).length_le
  rw [List.length_take] at short
  refine ⟨by omega, ?_⟩
  intro member
  exact absurd (List.mem_takeWhile_imp member) (by simp)

theorem recvRegisterRequest_host (stale : Stale) (socket after : Link) (length : CInt)
    (request : RegisterRequest)
    (read : recvRegisterRequest stale socket length = .ok (some request, after)) :
    HostText request.sName := by
  obtain ⟨_, _, read⟩ := (Outcome.bind_eq_ok _ _ _).mp read
  obtain ⟨size, _, read⟩ := (Outcome.bind_eq_ok _ _ _).mp read
  cases came : recvInto socket (staleBytes stale size) with
  | mk count rest =>
  rw [came] at read
  cases count with
  | none => cases read
  | some count =>
      obtain ⟨sName, _, read⟩ := (Outcome.bind_eq_ok _ _ _).mp read
      obtain ⟨port, _, read⟩ := (Outcome.bind_eq_ok _ _ _).mp read
      obtain ⟨fName, _, read⟩ := (Outcome.bind_eq_ok _ _ _).mp read
      obtain ⟨key, _, read⟩ := (Outcome.bind_eq_ok _ _ _).mp read
      cases read
      exact cText_hostText sName

theorem binderDecode_host (stale : Stale) (type : CInt) (socket after : Link) (request : RegisterRequest)
    (decoded : binderDecode stale type socket = .ok (.register (some request), after)) :
    HostText request.sName := by
  unfold binderDecode at decoded
  by_cases registers : type = register
  · rw [if_pos registers, sized] at decoded
    cases size : recvLength socket with
    | mk length left =>
    rw [size] at decoded
    cases length with
    | none => cases decoded
    | some length =>
        obtain ⟨read, body, named⟩ := (renamed_eq_ok _ _ _ _).mp decoded
        cases named
        exact recvRegisterRequest_host stale left after length request body
  · rw [if_neg registers] at decoded
    by_cases locates : type = locationRequest
    · rw [if_pos locates, sized] at decoded
      cases size : recvLength socket with
      | mk length left =>
      rw [size] at decoded
      cases length with
      | none => cases decoded
      | some length =>
          obtain ⟨read, _, named⟩ := (renamed_eq_ok _ _ _ _).mp decoded
          cases named
    · rw [if_neg locates] at decoded
      cases decoded

def Filled (db : BinderDB) : Prop := ∀ key, db.lookup key ≠ some []

theorem overhearTurn_lawful (scratch : Scratch) (db : BinderDB) (socket : Link) (note : Overheard)
    (later : BinderDB) (after : Link) (filled : Filled db)
    (taken : overhearTurn scratch db socket = .ok (some (note, later, after))) :
    Filled later ∧ later = applied db note ∧ Fits db note := by
  obtain ⟨type, left, heard, _, decoded, acted, silent, flagged, cut⟩ :=
    overhearTurn_ok scratch db later socket after note taken
  -- what is said is what has gone out since the turn began
  have said : ∀ bytes, after.sent = heard.sent ++ bytes → note.said = bytes := by
    intro bytes out
    rw [cut, out, silent, List.drop_left]
  have quiet : after = heard → note.said = [] := by
    rintro rfl
    exact said [] (List.append_nil _).symm
  obtain ⟨ret, received, flag, bytes⟩ := note
  cases received with
  | register request =>
      cases request with
      | none =>
          cases acted
          exact ⟨filled, rfl, flagged, quiet rfl⟩
      | some request =>
          have host := binderDecode_host scratch.request type left heard request decoded
          obtain ⟨out, sent, part⟩ := sendRegisterResponse_says scratch.pointer heard
            (db.updateDb request.fName request.sName request.port request.key).1
          cases acted
          refine ⟨nonempty_updateDb db request.fName request.sName request.port request.key filled, rfl,
            flagged, host, scratch.pointer, ?_⟩
          rw [said out sent]
          exact part
  | locate key =>
      cases key with
      | none =>
          cases acted
          exact ⟨filled, rfl, flagged, quiet rfl⟩
      | some key =>
          have same := sendLocationResponse_db scratch.beyond db later heard after key ret acted
          subst same
          obtain ⟨out, sent, part, whole⟩ := sendLocationResponse_says scratch.beyond later later heard after
            key ret (filled key) acted
          refine ⟨filled, rfl, flagged, scratch.beyond, ?_, ?_⟩
          · rw [said out sent]
            exact part
          · intro zero
            rw [said out sent]
            exact whole zero
  | closed | ignored | execute | location | response =>
      cases acted
      exact ⟨filled, rfl, flagged, quiet rfl⟩

theorem foldl_applied (log : List Overheard) :
    log.foldl applied BinderDB.empty = replay (registered log) := by
  induction log using List.reverseRecOn with
  | nil => rfl
  | append_singleton log note ih =>
      have more : registered (log ++ [note]) = registered log ++ (registration note.received).toList := by
        cases noted : registration note.received <;> simp [registered, noted]
      rw [List.foldl_append, List.foldl_cons, List.foldl_nil, ih, more, applied]
      cases noted : registration note.received with
      | none => simp
      | some r => simp [replay_snoc]

/-- What a turn answers when these have registered before it. A client that is
answered in full reads the first of them. -/
inductive Answers (history : List Registration) : Overheard → Prop where
  | registers (ret flag : CInt) (request : RegisterRequest) (said : Bytes) (pointer : BitVec 64)
      (host : HostText request.sName)
      (placed : flag = if ⟨request.sName, request.port⟩ ∈ registrants history request.key
        then registerWarning else registerSuccess)
      (part : said <+: (StringObject.bytes ⟨pointer, toStri flag.toInt⟩).take 4) :
      Answers history ⟨ret, .register (some request), some flag, said⟩
  | locates (ret : CInt) (key said : Bytes) (beyond : Stale)
      (part : said <+: answerBytes beyond (registrants history key).head?)
      (read : ret = 0 → ∀ locals client rest, client.Prompt → client.incoming = said ++ rest →
        recvLocationReply locals client =
          (answer (registrants history key).head?, { client with incoming := rest })) :
      Answers history ⟨ret, .locate (some key), none, said⟩
  | quiet (ret : CInt) (received : Received) (unasked : ∀ request, received ≠ .register (some request))
      (unlocated : ∀ key, received ≠ .locate (some key)) : Answers history ⟨ret, received, none, []⟩

structure InOrder (s : State BinderDB Link Overheard) : Prop where
  database : s.shared = replay (registered (notes s.turns))
  answered : ∀ earlier note later, notes s.turns = earlier ++ note :: later →
    Answers (registered earlier) note

theorem answers_of_fits (log : List Overheard) (hosts : ∀ r ∈ registered log, HostText r.sName)
    (note : Overheard) (fits : Fits (replay (registered log)) note) : Answers (registered log) note := by
  obtain ⟨ret, received, flag, said⟩ := note
  obtain ⟨flagged, fits⟩ := fits
  simp only at flagged
  subst flagged
  unfold Says at fits
  cases received with
  | register request =>
      cases request with
      | none =>
          cases fits
          exact .quiet ret _ (by simp) (by simp)
      | some request =>
          obtain ⟨host, pointer, part⟩ := fits
          exact .registers ret _ request said pointer host
            (replay_flag (registered log) ⟨request.fName, request.sName, request.port, request.key⟩) part
  | locate key =>
      cases key with
      | none =>
          cases fits
          exact .quiet ret _ (by simp) (by simp)
      | some key =>
          obtain ⟨beyond, part, whole⟩ := fits
          rw [head_replay] at part whole
          refine .locates ret key said beyond part ?_
          intro zero locals client rest prompt stream
          have all : said = answerBytes beyond (registrants (registered log) key).head? := whole zero
          rw [all] at stream
          apply recvLocationReply_answer locals client beyond _ rest prompt stream
          intro server first
          exact registrant_host _ hosts key server (List.mem_of_head? first)
  | closed | ignored | execute | location | response =>
      cases fits
      exact .quiet ret _ (by simp) (by simp)

theorem registered_host (s : State BinderDB Link Overheard)
    (ordered : Sequential applied Fits BinderDB.empty s) (r : Registration)
    (member : r ∈ registered (notes s.turns)) : HostText r.sName := by
  obtain ⟨note, listed, noted⟩ := List.mem_filterMap.mp member
  obtain ⟨earlier, later, split⟩ := List.append_of_mem listed
  obtain ⟨_, fits⟩ := ordered.placed earlier note later split
  obtain ⟨ret, received, flag, said⟩ := note
  cases received with
  | register request =>
      cases request with
      | none => cases noted
      | some request =>
          cases noted
          exact fits.1
  | closed | ignored | locate | execute | location | response => cases noted

theorem overhearing_inOrder (listener : Nat) (rounds : List (Round listener Link Scratch))
    (after : State BinderDB Link Overheard) (ran : overhearing listener rounds = .ok after) :
    InOrder after := by
  obtain ⟨_, ordered⟩ := run_sequential applied Fits BinderDB.empty listener overhearTurn Filled
    (by intro key; simp [BinderDB.empty]) overhearTurn_lawful rounds after ran
  constructor
  · rw [ordered.shared, foldl_applied]
  · intro earlier note later split
    apply answers_of_fits
    · intro r member
      apply registered_host after ordered r
      rw [split, registered, List.filterMap_append]
      exact List.mem_append_left _ member
    · rw [← foldl_applied]
      exact ordered.placed earlier note later split

/-- Whatever connections come and go and in whatever order they are served. -/
theorem init_inOrder (listener : Nat) (rounds : List (Round listener Link Scratch))
    (s : State BinderDB Link CInt) (ran : Binder.init listener rounds = .ok s) :
    ∃ after, overhearing listener rounds = .ok after ∧ s = after.retold Overheard.ret ∧ InOrder after := by
  rw [init_overheard] at ran
  obtain ⟨after, overheard, retold⟩ := (Outcome.map_eq_ok _ _ _).mp ran
  exact ⟨after, overheard, retold.symm, overhearing_inOrder listener rounds after overheard⟩

def heardNext (scratch : Scratch) (link : Link) : Option (Received × Link) :=
  match recvType scratch.messageType link with
  | (none, _) => none
  | (some type, left) =>
      match binderDecode scratch.request type left with
      | .error _ => none
      | .ok result => some result

theorem binderActs_receives (beyond : Stale) (pointer : BitVec 64) (db later : BinderDB)
    (socket after : Link) (received : Received) (ret : CInt) (filled : Filled db)
    (acted : binderActs beyond pointer db socket received = .ok (ret, later, after)) :
    after.incoming = socket.incoming ∧ after.arrivals = socket.arrivals := by
  cases received with
  | register request =>
      cases request with
      | none =>
          cases acted
          exact ⟨rfl, rfl⟩
      | some request =>
          cases acted
          exact sendRegisterResponse_receives pointer socket _
  | locate key =>
      cases key with
      | none =>
          cases acted
          exact ⟨rfl, rfl⟩
      | some key =>
          obtain ⟨res, link, sent, receives⟩ := sendLocationResponse_receives beyond db socket key (filled key)
          cases sent.symm.trans acted
          exact receives
  | closed | ignored | execute | location | response =>
      cases acted
      exact ⟨rfl, rfl⟩

theorem projects_heard : Projects overhearTurn Filled half Overheard.received heardNext where
  ended := by
    intro scratch db socket _ ended
    rw [overhearTurn] at ended
    rw [heardNext, half, recvType_joined]
    cases typed : recvType scratch.messageType socket with
    | mk type left =>
    rw [typed] at ended
    cases type with
    | none => rfl
    | some type =>
        obtain ⟨result, _, ended⟩ := (Outcome.bind_eq_ok _ _ _).mp ended
        obtain ⟨state, _, ended⟩ := (Outcome.bind_eq_ok _ _ _).mp ended
        cases ended
  taken := by
    intro scratch db socket note later after filled taken
    obtain ⟨type, left, heard, typed, decoded, acted, _⟩ :=
      overhearTurn_ok scratch db later socket after note taken
    obtain ⟨incoming, arrivals⟩ := binderActs_receives _ _ db later heard after _ _ filled acted
    refine ⟨(overhearTurn_lawful scratch db socket note later after filled taken).1, ?_⟩
    have decoded_half := (hears_binderDecode scratch.request type).half left heard _ decoded
    rw [heardNext, half, recvType_joined, typed]
    simp only [half] at decoded_half ⊢
    rw [decoded_half]
    simp only [joined, incoming, arrivals]

theorem solo_requests (requests : List Request) (bytes rest : Bytes)
    (encoded : encodeAll requests = .ok bytes) (scratches : List Scratch)
    (turns : scratches.length = requests.length) (link : Link) (prompt : link.Prompt)
    (stream : link.incoming = bytes ++ rest) :
    solo heardNext scratches link =
      (requests.map Request.asked, some { link with incoming := rest }) := by
  induction requests generalizing bytes scratches link with
  | nil =>
      cases List.length_eq_zero_iff.mp turns
      cases encoded
      rw [List.nil_append] at stream
      rw [solo, ← stream]
      rfl
  | cons request others ih =>
      cases scratches with
      | nil => cases turns
      | cons scratch more =>
          obtain ⟨first, built, encoded⟩ := (Outcome.bind_eq_ok _ _ _).mp encoded
          obtain ⟨later, laters, encoded⟩ := (Outcome.bind_eq_ok _ _ _).mp encoded
          cases encoded
          obtain ⟨type, body, rfl, decodes⟩ := binderDecode_asked request first built
          have front : link.incoming =
              wordBytes type ++ (lengthBytes body.length ++ (body ++ (later ++ rest))) := by
            rw [stream, framed]
            simp only [List.append_assoc]
          -- type, length and body, and then the next request
          have typed := recvType_front scratch.messageType link type _ prompt front
          have decoded := decodes scratch.request
            { link with incoming := lengthBytes body.length ++ (body ++ (later ++ rest)) } (later ++ rest)
            prompt rfl
          have next : heardNext scratch link =
              some (request.asked, { link with incoming := later ++ rest }) := by
            rw [heardNext, typed]
            simp only [decoded]
          rw [solo, next]
          simp only [ih later laters more (Nat.succ.inj turns) { link with incoming := later ++ rest }
            prompt rfl, List.map_cons]

/-- From any state the binder gets into: requests written back to back on one
connection are heard in order, one a turn, and nothing of what comes behind them,
whatever happens on the other connections meanwhile. -/
theorem conversation_undisturbed (listener : Nat) (before rounds : List (Round listener Link Scratch))
    (s after : State BinderDB Link Overheard) (reached : overhearing listener before = .ok s)
    (ran : run listener overhearTurn rounds s = .ok after) (fd : Nat) (served : fd ≠ listener)
    (socket : Link) (opened : s.conns fd = some socket) (prompt : socket.Prompt)
    (requests : List Request) (bytes rest : Bytes) (encoded : encodeAll requests = .ok bytes)
    (stream : socket.incoming = bytes ++ rest)
    (turns : (rounds.filter fun round => fd ∈ round.ready).length = requests.length) :
    ∃ new left, after.turns = s.turns ++ new ∧
      heard Overheard.received fd new = requests.map Request.asked ∧
      after.conns fd = some left ∧ left.incoming = rest ∧ left.Prompt := by
  obtain ⟨valid, filled⟩ := run_keeps listener overhearTurn (fun s => Filled s.shared)
    (fun round i s after _ held visited => visited.keeps listener overhearTurn Filled half
      Overheard.received heardNext projects_heard round i s after held) before _ s
    (wellFormed_start BinderDB.empty listener) (by intro key; simp [start, BinderDB.empty]) reached
  obtain ⟨_, new, added, tracked⟩ := run_tracks listener overhearTurn Filled half Overheard.received
    heardNext projects_heard fd served rounds s after valid filled ran
  -- the requests by themselves; `tracked` carries them over to the run
  have alone := solo_requests requests bytes rest encoded (scratches fd rounds)
    (by rw [scratches, List.length_map, turns]) (half socket) prompt stream
  obtain ⟨heards, left, still, remains⟩ := tracked socket _ opened (congrArg Prod.snd alone)
  rw [alone] at heards
  have incoming := congrArg Link.incoming remains
  have arrivals := congrArg Link.arrivals remains
  exact ⟨new, left, added, heards, still, incoming, arrivals.trans prompt⟩

/-! The greeting of Conversation.lean on descriptor 4, beside the listening 3. -/

def greetingBytes : Bytes :=
  framed Socket.register (registerBody ⟨[104], 1⟩ (fun _ => 7) (fun _ => 7) noArguments) ++
    framed locationRequest (keyBody noArguments)

def greetingRound (fd : Nat) : Round 3 Link Scratch where
  ready := {fd}
  accept := .offering 0 (.delivering greetingBytes)
  scratch _ := ⟨fun _ => 0, fun _ => 0, fun _ => 0, 4096⟩

def connected : State BinderDB Link Overheard :=
  accepted (greetingRound 3).accept (start BinderDB.empty 3)

theorem connected_reached : overhearing 3 [greetingRound 3] = .ok connected ∧ WellFormed 3 connected :=
  run_single 3 overhearTurn (greetingRound 3) [] _ connected (wellFormed_start BinderDB.empty 3) 3
    (Finset.mem_singleton_self 3) rfl rfl

set_option maxRecDepth 8000 in
theorem greeting_runs :
    ∃ after, run 3 overhearTurn [greetingRound 4, greetingRound 4] connected = .ok after := by
  obtain ⟨s, after, first, second, member⟩ : ∃ s after,
      visit 3 overhearTurn (greetingRound 4) {4} 4 connected = .ok s ∧
      visit 3 overhearTurn (greetingRound 4) {4} 4 s = .ok after ∧ 4 ∈ s.master :=
    ⟨_, _, rfl, rfl, Finset.mem_insert_self 4 {3}⟩
  obtain ⟨next, valid⟩ := run_single 3 overhearTurn (greetingRound 4) [greetingRound 4] connected s
    connected_reached.2 4 (Finset.mem_insert_self 4 {3}) rfl first
  obtain ⟨last, _⟩ := run_single 3 overhearTurn (greetingRound 4) [] s after valid 4 member rfl second
  exact ⟨after, next.trans last⟩

set_option maxRecDepth 8000 in
theorem greeting_undisturbed :
    ∃ after new left, run 3 overhearTurn [greetingRound 4, greetingRound 4] connected = .ok after ∧
      after.turns = connected.turns ++ new ∧
      heard Overheard.received 4 new = [.register (some ⟨[104], 1, [102], [102, 124, 48, 124]⟩),
        .locate (some [102, 124, 48, 124])] ∧ after.conns 4 = some left ∧ left.incoming = [] := by
  obtain ⟨after, ran⟩ := greeting_runs
  obtain ⟨new, left, added, heards, still, incoming, _⟩ := conversation_undisturbed 3 [greetingRound 3]
    [greetingRound 4, greetingRound 4] connected after connected_reached.1 ran 4 (by decide)
    (.delivering greetingBytes) rfl rfl greeting greetingBytes [] rfl (List.append_nil _).symm rfl
  exact ⟨after, new, left, ran, added, heards, still, incoming⟩

theorem greeting_inOrder :
    ∃ s after, Binder.init 3 [greetingRound 3, greetingRound 4, greetingRound 4] = .ok s ∧
      overhearing 3 [greetingRound 3, greetingRound 4, greetingRound 4] = .ok after ∧
      s = after.retold Overheard.ret ∧ InOrder after := by
  obtain ⟨last, ran⟩ := greeting_runs
  have whole : overhearing 3 [greetingRound 3, greetingRound 4, greetingRound 4] = .ok last :=
    (run_single 3 overhearTurn (greetingRound 3) _ _ connected (wellFormed_start BinderDB.empty 3) 3
      (Finset.mem_singleton_self 3) rfl rfl).1.trans ran
  have ended : Binder.init 3 [greetingRound 3, greetingRound 4, greetingRound 4] =
      .ok (last.retold Overheard.ret) := by
    rw [init_overheard, whole]
    rfl
  obtain ⟨after, overheard, retold, ordered⟩ := init_inOrder 3 _ _ ended
  exact ⟨_, after, ended, overheard, retold, ordered⟩

end BinderRpc.BinderLoop
