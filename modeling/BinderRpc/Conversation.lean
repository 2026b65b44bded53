import BinderRpc.Arrival
import BinderRpc.Naming

/-!
One connection to the binder over many turns of its loop. Requests written back
to back come off it one a turn, each with what its sender put in, and the next
turn starts at the first byte of the next request.
-/

namespace BinderRpc.Conversation

open Octets Text Signature Socket Database Binder Server Client Frames Registry Schedules Arrival

/-! Requests as their senders build them. -/

inductive Request where
  | register (s : Server) (host : HostText s.host) (hostBeyond nameBeyond : Stale) (f : Function)
      (free : 0 ∉ f.name)
  | locate (heap name : Bytes) (argTypes : ArgTypes) (free : 0 ∉ name) (short : name.length < 64)

def Request.message : Request → Message
  | .register s host hostBeyond nameBeyond f free => .register s hostBeyond nameBeyond f host.2 free
  | .locate heap name argTypes _ _ => .locationRequest heap name argTypes

def Request.asked : Request → Received
  | .register s _ _ _ f _ => .register (some ⟨s.host, s.port, f.name.take maxFuncName, f.getKey⟩)
  | .locate _ name argTypes _ _ => .locate (some (Function.mk name argTypes).getKey)

def Request.registration : Request → Option Registration
  | .register s _ _ _ f _ => some ⟨f.name.take maxFuncName, s.host, s.port, f.getKey⟩
  | .locate .. => none

def encodeAll : List Request → Except Fault Bytes
  | [] => .ok []
  | request :: rest => do
      let first ← request.message.encode
      let others ← encodeAll rest
      return first ++ others

/-- Turn after turn on one connection, until it closes. -/
def listen : List Scratch → BinderDB → Link → Except Fault (BinderDB × Link)
  | [], db, socket => .ok (db, socket)
  | scratch :: more, db, socket => do
      match ← initTurn scratch db socket with
      | none => return (db, socket)
      | some (_, db, socket) => listen more db socket

/-- The loop taken apart at the decoder: what each turn is asked, and what it does. -/
def overhear : List Scratch → BinderDB → Link → Except Fault (List Received × BinderDB × Link)
  | [], db, socket => .ok ([], db, socket)
  | scratch :: more, db, socket =>
      match recvType scratch.messageType socket with
      | (none, _) => .ok ([], db, socket)
      | (some type, left) => do
          let (received, left) ← binderDecode scratch.request type left
          let (_, db, left) ← binderActs scratch.beyond scratch.pointer db left received
          let (log, db, left) ← overhear more db left
          return (received :: log, db, left)

theorem listen_eq (scratches : List Scratch) (db : BinderDB) (socket : Link) :
    listen scratches db socket = (overhear scratches db socket).map Prod.snd := by
  induction scratches generalizing db socket with
  | nil => rfl
  | cons scratch more ih =>
      rw [listen, overhear, initTurn]
      obtain ⟨type, left⟩ := recvType scratch.messageType socket
      cases type with
      | none => rfl
      | some type =>
          simp only [binder_handleRequest]
          cases decoded : binderDecode scratch.request type left with
          | error fault => rfl
          | ok result =>
              simp only [Outcome.ok_bind]
              cases acted : binderActs scratch.beyond scratch.pointer db result.2 result.1 with
              | error fault => rfl
              | ok state =>
                  simp only [Except.map, Outcome.ok_bind, ih]
                  cases overhear more state.2.1 state.2.2 <;> rfl

theorem binderDecode_asked (request : Request) (bytes : Bytes)
    (encoded : request.message.encode = .ok bytes) :
    ∃ type body, bytes = framed type body ∧ ∀ stale socket rest, socket.Prompt →
      socket.incoming = lengthBytes body.length ++ (body ++ rest) →
      binderDecode stale type socket = .ok (request.asked, { socket with incoming := rest }) := by
  cases request with
  | register s host hostBeyond nameBeyond f free =>
      obtain ⟨fits, rfl⟩ := encode_register s hostBeyond nameBeyond f host.2 free bytes encoded
      refine ⟨Socket.register, registerBody s hostBeyond nameBeyond f, rfl, ?_⟩
      intro stale socket rest prompt stream
      have body := recvRegisterRequest_body stale
        { socket with incoming := registerBody s hostBeyond nameBeyond f ++ rest } s hostBeyond nameBeyond
        f rest prompt rfl host.2 free fits
      rw [List.take_of_length_le host.1] at body
      rw [binderDecode, if_pos rfl, sized, recvLength_front socket _ _ prompt stream]
      exact (renamed_eq_ok _ _ _ _).mpr ⟨_, body, rfl⟩
  | locate heap name argTypes free short =>
      obtain ⟨m, func, created, rebuilt, fits, rfl⟩ :=
        encode_locationRequest heap name argTypes bytes encoded
      rw [Naming.createLocationRequest_short name argTypes (by omega)] at created
      cases created
      rw [Naming.locationFunction_short heap name argTypes free] at rebuilt
      cases rebuilt
      refine ⟨locationRequest, keyBody ⟨name, argTypes⟩, rfl, ?_⟩
      intro stale socket rest prompt stream
      have body := recvLocationRequest_body stale
        { socket with incoming := keyBody ⟨name, argTypes⟩ ++ rest } _ rest prompt rfl
        (nul_not_in_getKey ⟨name, argTypes⟩ free) (by omega)
      rw [binderDecode, if_neg (by decide), if_pos rfl, sized, recvLength_front socket _ _ prompt stream]
      exact (renamed_eq_ok _ _ _ _).mpr ⟨_, body, rfl⟩

theorem sendRegisterResponse_receives (pointer : BitVec 64) (socket : Link) (flag : CInt) :
    (sendRegisterResponse pointer socket flag).2.incoming = socket.incoming ∧
      (sendRegisterResponse pointer socket flag).2.arrivals = socket.arrivals := by
  have receives := Link.send_receives socket (StringObject.bytes ⟨pointer, toStri flag.toInt⟩ |>.take 4)
  rw [sendRegisterResponse]
  generalize socket.send _ = result at *
  obtain ⟨count, after⟩ := result
  cases count <;> exact receives

theorem sendLocationResponse_receives (beyond : Stale) (db : BinderDB) (socket : Link) (key : Bytes)
    (nonempty : db.lookup key ≠ some []) :
    ∃ res after, sendLocationResponse beyond db socket key = .ok (res, db, after) ∧
      after.incoming = socket.incoming ∧ after.arrivals = socket.arrivals := by
  have twice : ∀ first second, (sendAll (sendAll socket first).2.2 second).2.2.incoming = socket.incoming ∧
      (sendAll (sendAll socket first).2.2 second).2.2.arrivals = socket.arrivals := by
    intro first second
    have later := sendAll_receives (sendAll socket first).2.2 second
    have sooner := sendAll_receives socket first
    exact ⟨later.1.trans sooner.1, later.2.trans sooner.2⟩
  unfold sendLocationResponse
  cases stored : db.lookup key with
  | none =>
      rw [if_pos rfl]
      simp only
      split
      · exact ⟨_, _, rfl, sendAll_receives socket _⟩
      · exact ⟨_, _, rfl, twice _ _⟩
  | some servers =>
      cases servers with
      | nil => exact absurd stored nonempty
      | cons s rest =>
          have found : db.subscript key = (s :: rest, db) := by
            rw [BinderDB.subscript, stored]
          rw [if_neg (by simp), found]
          simp only [element, List.getElem?_cons_zero, Outcome.ok_bind]
          split
          · exact ⟨_, _, rfl, sendAll_receives socket _⟩
          · exact ⟨_, _, rfl, twice _ _⟩

theorem binderActs_asked (request : Request) (beyond : Stale) (pointer : BitVec 64)
    (history : List Registration) (socket : Link) :
    ∃ res after, binderActs beyond pointer (replay history) socket request.asked =
        .ok (res, replay (history ++ request.registration.toList), after) ∧
      after.incoming = socket.incoming ∧ after.arrivals = socket.arrivals := by
  cases request with
  | register s host hostBeyond nameBeyond f free =>
      simp only [Request.asked, Request.registration, Option.toList_some, replay_snoc, binderActs]
      refine ⟨_, _, rfl, ?_⟩
      exact sendRegisterResponse_receives pointer socket _
  | locate heap name argTypes free short =>
      simp only [Request.asked, Request.registration, Option.toList_none, List.append_nil, binderActs]
      exact sendLocationResponse_receives beyond _ socket _ ((represents_replay history).nonempty _)

theorem initTurn_dry (scratch : Scratch) (db : BinderDB) (socket : Link) (prompt : socket.Prompt)
    (dry : socket.incoming = []) : initTurn scratch db socket = .ok none := by
  have closed : recvType scratch.messageType socket = (none, { socket with incoming := [] }) := by
    rw [recvType, recvInto, Link.recv_prompt socket _ prompt, dry]
    rfl
  rw [initTurn, closed]

theorem overhear_turn (request : Request) (bytes later : Bytes)
    (encoded : request.message.encode = .ok bytes) (scratch : Scratch) (more : List Scratch)
    (history : List Registration) (socket : Link) (prompt : socket.Prompt)
    (stream : socket.incoming = bytes ++ later) :
    ∃ left, left.Prompt ∧ left.incoming = later ∧
      overhear (scratch :: more) (replay history) socket =
        (overhear more (replay (history ++ request.registration.toList)) left).map fun result =>
          (request.asked :: result.1, result.2) := by
  obtain ⟨type, body, rfl, decodes⟩ := binderDecode_asked request bytes encoded
  have front : socket.incoming =
      wordBytes type ++ (lengthBytes body.length ++ (body ++ later)) := by
    rw [stream, framed]
    simp only [List.append_assoc]
  have typed := recvType_front scratch.messageType socket type _ prompt front
  have decoded := decodes scratch.request
    { socket with incoming := lengthBytes body.length ++ (body ++ later) } later prompt rfl
  obtain ⟨res, left, acted, incoming, arrivals⟩ := binderActs_asked request scratch.beyond
    scratch.pointer history { socket with incoming := later }
  -- the reply may fail, but it leaves the receives alone
  refine ⟨left, arrivals.trans prompt, incoming, ?_⟩
  rw [overhear, typed]
  simp only [decoded, Outcome.ok_bind, acted]
  cases overhear more (replay (history ++ request.registration.toList)) left <;> rfl

theorem overhear_run (requests : List Request) (bytes rest : Bytes)
    (encoded : encodeAll requests = .ok bytes) (scratches : List Scratch)
    (turns : scratches.length = requests.length) (history : List Registration) (socket : Link)
    (prompt : socket.Prompt) (stream : socket.incoming = bytes ++ rest) :
    ∃ after, overhear scratches (replay history) socket =
        .ok (requests.map Request.asked, replay (history ++ requests.filterMap Request.registration),
          after) ∧ after.incoming = rest ∧ after.Prompt := by
  induction requests generalizing bytes scratches history socket with
  | nil =>
      cases List.length_eq_zero_iff.mp turns
      cases encoded
      refine ⟨socket, ?_, stream, prompt⟩
      simp [overhear]
  | cons request others ih =>
      cases scratches with
      | nil => cases turns
      | cons scratch more =>
          obtain ⟨first, built, encoded⟩ := (Outcome.bind_eq_ok _ _ _).mp encoded
          obtain ⟨later, laters, encoded⟩ := (Outcome.bind_eq_ok _ _ _).mp encoded
          cases encoded
          rw [List.append_assoc] at stream
          obtain ⟨left, waiting, incoming, turn⟩ := overhear_turn request first (later ++ rest) built
            scratch more history socket prompt stream
          obtain ⟨after, run, ended⟩ := ih later laters more (Nat.succ.inj turns) _ left waiting incoming
          have registered : history ++ (request :: others).filterMap Request.registration =
              history ++ request.registration.toList ++ others.filterMap Request.registration := by
            cases registration : request.registration <;> simp [registration]
          refine ⟨after, ?_, ended⟩
          rw [turn, run, registered]
          rfl

theorem conversation_in_order (requests : List Request) (bytes rest : Bytes)
    (encoded : encodeAll requests = .ok bytes) (scratches : List Scratch)
    (turns : scratches.length = requests.length) (history : List Registration) (socket : Link)
    (prompt : socket.Prompt) (stream : socket.incoming = bytes ++ rest) :
    ∃ after,
      overhear scratches (replay history) socket =
        .ok (requests.map Request.asked, replay (history ++ requests.filterMap Request.registration),
          after) ∧
      listen scratches (replay history) socket =
        .ok (replay (history ++ requests.filterMap Request.registration), after) ∧
      after.incoming = rest ∧ after.Prompt ∧
      (rest = [] → ∀ scratch db, initTurn scratch db after = .ok none) := by
  obtain ⟨after, run, incoming, waiting⟩ := overhear_run requests bytes rest encoded scratches turns
    history socket prompt stream
  refine ⟨after, run, ?_, incoming, waiting, ?_⟩
  · rw [listen_eq, run]
    rfl
  · intro ended scratch db
    exact initTurn_dry scratch db after waiting (incoming.trans ended)

def greeting : List Request :=
  [.register ⟨[104], 1⟩ ⟨by decide, by decide⟩ (fun _ => 7) (fun _ => 7) noArguments (by decide),
    .locate [] [102] noArguments.argTypes (by decide) (by decide)]

theorem greeting_in_order :
    ∃ bytes after, encodeAll greeting = .ok bytes ∧
      overhear (List.replicate 2 ⟨fun _ => 0, fun _ => 0, fun _ => 0, 4096⟩) (replay [])
          (.delivering bytes) =
        .ok ([.register (some ⟨[104], 1, [102], [102, 124, 48, 124]⟩), .locate (some [102, 124, 48, 124])],
          replay [⟨[102], [104], 1, [102, 124, 48, 124]⟩], after) ∧ after.incoming = [] := by
  obtain ⟨bytes, encoded⟩ : ∃ bytes, encodeAll greeting = .ok bytes := ⟨_, rfl⟩
  obtain ⟨after, heard, _, left, _⟩ := conversation_in_order greeting bytes [] encoded
    (List.replicate 2 ⟨fun _ => 0, fun _ => 0, fun _ => 0, 4096⟩) rfl [] (.delivering bytes) rfl
    (List.append_nil bytes).symm
  exact ⟨bytes, after, encoded, heard, left⟩

end BinderRpc.Conversation
