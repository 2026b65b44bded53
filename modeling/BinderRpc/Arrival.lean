import BinderRpc.Location
import BinderRpc.Schedules

/-!
The program's receivers under every way TCP can cut a stream. None of their reads
is repeated, so a message is decoded as sent exactly by the schedules that cut
none of its reads.
-/

namespace BinderRpc.Arrival

open Octets Text Signature Marshal Socket Link Database Binder Server Client Frames Schedules

structure Unset where
  messageType : Stale
  request : Stale
  locals : Locals

inductive Received where
  | closed
  | ignored
  | register (request : Option RegisterRequest)
  | locate (key : Option Bytes)
  | execute (request : Option ExecuteRequest)
  | location (reply : LocationReply)
  | response (reply : ExecuteReply)
  deriving DecidableEq, Repr

/-! Requests: the type read by the main loop, then handle_request up to its action. -/

def binderDecode (stale : Stale) (type : CInt) (socket : Link) : Except Fault (Received × Link) :=
  if type = register then
    sized (.register none)
      (fun link length => renamed .register (recvRegisterRequest stale link length)) socket
  else if type = locationRequest then
    sized (.locate none)
      (fun link length => renamed .locate (recvLocationRequest stale link length)) socket
  else .ok (.ignored, socket)

def serverDecode (stale : Stale) (type : CInt) (socket : Link) : Except Fault (Received × Link) :=
  if type = execute then
    sized (.execute none) (fun link length => renamed .execute (recvExecuteBody stale link length)) socket
  else .ok (.ignored, socket)

def turn (decode : Stale → CInt → Link → Except Fault (Received × Link)) (memory : Unset)
    (socket : Link) : Except Fault (Received × Link) :=
  match recvType memory.messageType socket with
  | (none, socket) => .ok (.closed, socket)
  | (some type, socket) => decode memory.request type socket

def binderActs (beyond : Stale) (pointer : BitVec 64) (db : BinderDB) (socket : Link) :
    Received → Except Fault (CInt × BinderDB × Link)
  | .register (some request) =>
      let (retUpdate, db) := db.updateDb request.fName request.sName request.port request.key
      let (ret, socket) := sendRegisterResponse pointer socket retUpdate
      .ok (if ret = 0 then 0 else errBinderRecvFail, db, socket)
  | .register none => .ok (errBinderRecvFail, db, socket)
  | .locate (some key) => sendLocationResponse beyond db socket key
  | .locate none => .ok (errBinderRecvFail, db, socket)
  | _ => .ok (0, db, socket)

/-- handle_request of the binder decodes, then acts. -/
theorem binder_handleRequest (stale beyond : Stale) (pointer : BitVec 64) (db : BinderDB)
    (socket : Link) (type : CInt) :
    Binder.handleRequest stale beyond pointer db socket type =
      binderDecode stale type socket >>= fun result => binderActs beyond pointer db result.2 result.1 := by
  unfold Binder.handleRequest binderDecode
  by_cases registers : type = register
  · rw [if_pos registers, if_pos registers, sized]
    obtain ⟨length, after⟩ := recvLength socket
    cases length with
    | none => rfl
    | some length =>
        simp only [receiveRegisterRequest, renamed]
        cases recvRegisterRequest stale after length with
        | error fault => rfl
        | ok result =>
            obtain ⟨request, left⟩ := result
            cases request <;> rfl
  · rw [if_neg registers, if_neg registers]
    by_cases locates : type = locationRequest
    · rw [if_pos locates, if_pos locates, sized]
      obtain ⟨length, after⟩ := recvLength socket
      cases length with
      | none => rfl
      | some length =>
          simp only [receiveLocationRequest, renamed]
          cases recvLocationRequest stale after length with
          | error fault => rfl
          | ok result =>
              obtain ⟨key, left⟩ := result
              cases key <;> rfl
    · rw [if_neg locates, if_neg locates]
      rfl

def serverActs (fp : FloatText) (memory : Server.Memory) (db : ServerDB Skeleton) (socket : Link) :
    Received → Except Fault Served
  | .execute (some request) => execArgs fp memory db socket request.key request.args
  | .execute none => .ok ⟨errServerClientRecv, [], db, socket⟩
  | _ => .ok ⟨0, [], db, socket⟩

theorem server_handleRequest (fp : FloatText) (memory : Server.Memory) (db : ServerDB Skeleton)
    (socket : Link) (type : CInt) :
    Server.handleRequest fp memory db socket type =
      serverDecode memory.request type socket >>= fun result =>
        serverActs fp memory db result.2 result.1 := by
  unfold Server.handleRequest serverDecode
  by_cases executes : type = execute
  · rw [if_pos executes, if_pos executes, sized, recvExecuteRequest]
    obtain ⟨length, after⟩ := recvLength socket
    cases length with
    | none => rfl
    | some length =>
        simp only [renamed]
        cases recvExecuteBody memory.request after length with
        | error fault => rfl
        | ok result =>
            obtain ⟨request, left⟩ := result
            cases request <;> rfl
  · rw [if_neg executes, if_neg executes]
    rfl

/-! Replies: rpcCall's reads on the binder's and on the server's connection. -/

def locationReceive (memory : Unset) (binder : Link) : Except Fault (Received × Link) :=
  .ok (.location (recvLocationReply memory.locals binder).1, (recvLocationReply memory.locals binder).2)

def responseReceive (memory : Unset) (server : Link) : Except Fault (Received × Link) :=
  renamed .response (recvExecuteReply memory.locals server)

theorem arraySize_eq_ok (n : Int) (size : Nat) (declared : arraySize n = .ok size) : size = n.toNat := by
  unfold arraySize at declared
  split at declared
  · cases declared
    rfl
  · cases declared

theorem recvInto_same (left right : Link) (stale : Stale) (count : Nat)
    (same : (left.recv count).1 = (right.recv count).1) :
    recvInto left (staleBytes stale count) =
      ((recvInto right (staleBytes stale count)).1, (recvInto right (staleBytes stale count)).2.1,
        (left.recv count).2) := by
  simp only [recvInto, length_staleBytes, same]

theorem uniform_register (stale : Stale) : Uniform (recvRegisterRequest stale) := by
  intro left right length same
  simp only [recvRegisterRequest, Outcome.map_bind]
  refine Outcome.bind_congr _ _ _ fun cells _ => Outcome.bind_congr _ _ _ fun size declared => ?_
  cases arraySize_eq_ok _ _ declared
  rw [recvInto_same left right stale _ same]
  obtain ⟨count, buff, after⟩ := recvInto right (staleBytes stale length.toInt.toNat)
  cases count with
  | none => rfl
  | some count =>
      simp only [Outcome.map_bind]
      rfl

theorem uniform_locate (stale : Stale) : Uniform (recvLocationRequest stale) := by
  intro left right length same
  simp only [recvLocationRequest, Outcome.map_bind]
  refine Outcome.bind_congr _ _ _ fun cells _ => Outcome.bind_congr _ _ _ fun size declared => ?_
  cases arraySize_eq_ok _ _ declared
  rw [recvInto_same left right stale _ same]
  obtain ⟨count, buff, after⟩ := recvInto right (staleBytes stale length.toInt.toNat)
  cases count with
  | none => rfl
  | some count =>
      simp only [Outcome.map_bind]
      rfl

theorem uniform_execute (stale : Stale) : Uniform (recvExecuteBody stale) := by
  intro left right length same
  simp only [recvExecuteBody, Outcome.map_bind]
  refine Outcome.bind_congr _ _ _ fun size declared => ?_
  cases arraySize_eq_ok _ _ declared
  rw [recvInto_same left right stale _ same]
  rfl

theorem uniform_results (stale : Stale) : Uniform (recvResultsBody stale) := by
  intro left right length same
  simp only [recvResultsBody, Outcome.map_bind]
  refine Outcome.bind_congr _ _ _ fun size declared => ?_
  cases arraySize_eq_ok _ _ declared
  rw [recvInto_same left right stale _ same]
  obtain ⟨count, buff, after⟩ := recvInto right (staleBytes stale length.toInt.toNat)
  cases count with
  | none => rfl
  | some count =>
      simp only [Outcome.map_bind]
      rfl

/-! A request is a type that decodes to a length and a body, where no type at all
decodes to nothing. -/

structure Decodes (decode : Stale → CInt → Link → Except Fault (Received × Link)) (code : CInt) where
  low : UInt8
  layout : wordBytes code = [0, 0, 0, low]
  lost : Received
  body : Stale → Link → CInt → Except Fault (Received × Link)
  of_code : ∀ stale socket, decode stale code socket = sized lost (body stale) socket
  of_zero : ∀ stale socket, decode stale 0 socket = .ok (.ignored, socket)
  uniform : ∀ stale, Uniform (body stale)
  lost_named : lost ≠ .ignored
  body_named : ∀ stale link length result after,
    body stale link length = .ok (result, after) → result ≠ .ignored

def registers : Decodes binderDecode register where
  low := 1
  layout := rfl
  lost := .register none
  body stale link length := renamed .register (recvRegisterRequest stale link length)
  of_code _ _ := rfl
  of_zero _ _ := rfl
  uniform stale := uniform_renamed _ _ (uniform_register stale)
  lost_named := by simp
  body_named := by
    intro stale link length result after run
    obtain ⟨request, _, rfl⟩ := (renamed_eq_ok _ _ _ _).mp run
    simp

def locates : Decodes binderDecode locationRequest where
  low := 5
  layout := rfl
  lost := .locate none
  body stale link length := renamed .locate (recvLocationRequest stale link length)
  of_code _ _ := rfl
  of_zero _ _ := rfl
  uniform stale := uniform_renamed _ _ (uniform_locate stale)
  lost_named := by simp
  body_named := by
    intro stale link length result after run
    obtain ⟨key, _, rfl⟩ := (renamed_eq_ok _ _ _ _).mp run
    simp

def executes : Decodes serverDecode execute where
  low := 8
  layout := rfl
  lost := .execute none
  body stale link length := renamed .execute (recvExecuteBody stale link length)
  of_code _ _ := rfl
  of_zero _ _ := rfl
  uniform stale := uniform_renamed _ _ (uniform_execute stale)
  lost_named := by simp
  body_named := by
    intro stale link length result after run
    obtain ⟨request, _, rfl⟩ := (renamed_eq_ok _ _ _ _).mp run
    simp

theorem framed_eq (code : CInt) (block : Bytes) :
    framed code block = wordBytes code ++ (lengthBytes block.length ++ block) := by
  rw [framed, List.append_assoc]

theorem Decodes.intact_iff {decode : Stale → CInt → Link → Except Fault (Received × Link)}
    {code : CInt} (decodes : Decodes decode code) (block rest : Bytes) (limits : List Nat)
    (positive : ∀ limit ∈ limits, 0 < limit) (small : block.length < 2 ^ 31)
    (arrives : ∀ stale, ∃ decoded, decodes.body stale (scheduled (block ++ rest) [])
      (BitVec.ofNat 32 block.length) = .ok (decoded, scheduled rest [])) :
    (∀ memory, Intact (turn decode memory) (framed code block) rest limits) ↔
      Covers limits [4, 4, block.length] := by
  rw [framed_eq]
  apply staged_iff (turn decode) (fun memory => sized decodes.lost (decodes.body memory.request)) code
    (lengthBytes block.length ++ block) rest [4, block.length] limits positive
  · intro memory limits reached
    rw [turn, recvType_whole _ _ _ _ reached]
    exact decodes.of_code _ _
  · -- the bytes that did not arrive are 0 here, and so is then the type
    refine ⟨⟨spoil 0, fun _ => 0, ⟨spoil 0, spoil 0, spoil 0, spoil 0, spoil 0⟩⟩, ?_⟩
    intro decoded link left some_bytes short run whole
    rw [turn, recvType_scheduled _ _ _ _ some_bytes,
      spoiled_type code decodes.low 0 _ _ decodes.layout short] at run
    cases (decodes.of_zero _ _).symm.trans run
    exact sized_result _ _ (· ≠ .ignored) decodes.lost_named (decodes.body_named _) _ _ _ whole rfl
  · intro memory
    exact sized_iff _ _ (decodes.uniform _) block rest limits.tail small (arrives _)

theorem recvResults_eq (stale : Stale) (server : Link) :
    recvResults stale server = sized (.lost errServerClientRecv) (recvResultsBody stale) server := rfl

theorem recvResultsBody_not_failure (stale : Stale) (server after : Link) (length : CInt)
    (reply : ExecuteReply) (run : recvResultsBody stale server length = .ok (reply, after))
    (reasonCode : CInt) : reply ≠ .failure reasonCode := by
  rcases recvResultsBody_ok stale server after length reply run with rfl | ⟨marshalled, key, rfl⟩
  · simp
  · simp

theorem zero_type : wordOf [0, 0, 0, 0] ≠ executeFailure ∧ wordOf [0, 0, 0, 0] ≠ locationFailure ∧
    wordOf [0, 0, 0, 0] ≠ locationSuccess := by decide

def Unset.filledWith (stale : Stale) : Unset := ⟨stale, stale, ⟨stale, stale, stale, stale, stale⟩⟩

theorem response_success_iff (key text rest : Bytes) (limits : List Nat)
    (positive : ∀ limit ∈ limits, 0 < limit) (fits : key.length + text.length + 18 < 2 ^ 31) :
    (∀ memory, Intact (responseReceive memory) (framed executeSuccess (resultBody key text)) rest
      limits) ↔ Covers limits [4, 4, (resultBody key text).length] := by
  have size := length_resultBody key text
  rw [framed_eq]
  apply staged_iff responseReceive (fun memory => sized (.response (.lost errServerClientRecv))
    fun link length => renamed .response (recvResultsBody memory.locals.response link length))
    executeSuccess (lengthBytes (resultBody key text).length ++ resultBody key text) rest
    [4, (resultBody key text).length] limits positive
  · intro memory limits reached
    rw [responseReceive, recvExecuteReply, recvInto_type _ _ _ _ reached]
    simp only [wordOf_wordBytes, if_neg (show ¬ executeSuccess = executeFailure by decide)]
    rw [recvResults_eq, renamed_sized]
  · -- the bytes that did not arrive make the type EXECUTE_FAILURE here
    refine ⟨Unset.filledWith (spoil 10), ?_⟩
    intro decoded link left _ short run whole
    obtain ⟨count, after, flag⟩ := recvInto_spoiled executeSuccess 9 10
      ((lengthBytes (resultBody key text).length ++ resultBody key text) ++ rest) limits rfl short
    rw [responseReceive, recvExecuteReply] at run
    simp only [Unset.filledWith, flag, if_pos (show wordOf [0, 0, 0, 10] = executeFailure by rfl)] at run
    cases run
    obtain ⟨length, read, taken⟩ := sized_result _ _ (fun received => ∃ reply,
      received = .response reply ∧ ∀ reasonCode, reply ≠ .failure reasonCode)
      ⟨_, rfl, by simp⟩ (by
        intro link length result after body
        obtain ⟨reply, ran, rfl⟩ := (renamed_eq_ok _ _ _ _).mp body
        exact ⟨reply, rfl, recvResultsBody_not_failure _ _ _ _ _ ran⟩) _ _ _ whole
    cases read
    exact taken _ rfl
  · intro memory
    apply sized_iff _ _ (uniform_renamed _ _ (uniform_results _)) (resultBody key text) rest
      limits.tail (by omega)
    have results := recvResults_body memory.locals.response
      (scheduled (lengthBytes (resultBody key text).length ++ resultBody key text ++ rest) []) key text
      rest rfl rfl fits
    rw [recvResults, recvLength_block] at results
    exact ⟨_, (renamed_eq_ok _ _ _ _).mpr ⟨_, results, rfl⟩⟩

theorem response_failure_iff (reasonCode : CInt) (rest : Bytes) (limits : List Nat)
    (positive : ∀ limit ∈ limits, 0 < limit) :
    (∀ memory, Intact (responseReceive memory) (wordBytes executeFailure ++ wordBytes reasonCode) rest
      limits) ↔ Covers limits [4, 4] := by
  rw [← length_wordBytes reasonCode]
  apply staged_single_iff responseReceive (fun memory => staleBytes memory.locals.reasonCode 4)
    (fun _ reason => .response (.failure (wordOf reason))) executeFailure (wordBytes reasonCode) rest
    limits (by simp) positive
  · intro memory limits reached
    rw [responseReceive, recvExecuteReply, recvInto_type _ _ _ _ reached]
    simp only [wordOf_wordBytes, if_true]
    rfl
  · -- the bytes that did not arrive make the type 0 here
    refine ⟨Unset.filledWith (spoil 0), ?_⟩
    intro decoded link left _ short run whole
    obtain ⟨count, after, flag⟩ := recvInto_spoiled executeFailure 10 0 (wordBytes reasonCode ++ rest)
      limits rfl short
    rw [responseReceive, recvExecuteReply] at run
    simp only [Unset.filledWith, flag, if_neg zero_type.1] at run
    rw [recvResults_eq] at run
    obtain ⟨reply, ran, rfl⟩ := (renamed_eq_ok _ _ _ _).mp run
    have taken := sized_result _ _ (fun reply => ∀ reasonCode, reply ≠ .failure reasonCode)
      (by simp) (fun _ _ _ _ body => recvResultsBody_not_failure _ _ _ _ _ body) _ _ _ ran
    cases whole
    exact taken _ rfl

theorem location_success_iff (place rest : Bytes) (limits : List Nat)
    (length : place.length = maxHostName + 1 + 4) (positive : ∀ limit ∈ limits, 0 < limit) :
    (∀ memory, Intact (locationReceive memory) (wordBytes locationSuccess ++ place) rest limits) ↔
      Covers limits [4, maxHostName + 1 + 4] := by
  rw [← length]
  apply staged_single_iff locationReceive
    (fun memory => staleBytes memory.locals.location (maxHostName + 1 + 4))
    (fun _ buff => .location
      (.success (cText (buff.take maxHostName)) (wordOf ((buff.drop (maxHostName + 1)).take 4))))
    locationSuccess place rest limits (by simp [length]) positive
  · intro memory limits reached
    rw [locationReceive, recvLocationReply, recvInto_type _ _ _ _ reached]
    simp only [wordOf_wordBytes, if_neg (show ¬ locationSuccess = locationFailure by decide), if_true]
    rfl
  · refine ⟨Unset.filledWith (spoil 0), ?_⟩
    intro decoded link left _ short run whole
    obtain ⟨count, after, type⟩ := recvInto_spoiled locationSuccess 6 0 (place ++ rest) limits rfl short
    rw [locationReceive, recvLocationReply] at run
    simp only [Unset.filledWith, type, if_neg zero_type.2.1, if_neg zero_type.2.2] at run
    cases run
    cases whole

theorem location_failure_iff (reasonCode : CInt) (rest : Bytes) (limits : List Nat)
    (positive : ∀ limit ∈ limits, 0 < limit) :
    (∀ memory, Intact (locationReceive memory) (wordBytes locationFailure ++ wordBytes reasonCode) rest
      limits) ↔ Covers limits [4, 4] := by
  rw [← length_wordBytes reasonCode]
  apply staged_single_iff locationReceive (fun _ => [0, 0, 0, 0])
    (fun count reason => .location (.failure count (wordOf reason))) locationFailure
    (wordBytes reasonCode) rest limits (by simp) positive
  · intro memory limits reached
    rw [locationReceive, recvLocationReply, recvInto_type _ _ _ _ reached]
    simp only [wordOf_wordBytes, if_true]
    rfl
  · refine ⟨Unset.filledWith (spoil 0), ?_⟩
    intro decoded link left _ short run whole
    obtain ⟨count, after, type⟩ := recvInto_spoiled locationFailure 7 0 (wordBytes reasonCode ++ rest)
      limits rfl short
    rw [locationReceive, recvLocationReply] at run
    simp only [Unset.filledWith, type, if_neg zero_type.2.1, if_neg zero_type.2.2] at run
    cases run
    cases whole

/-! Every message, from its encoder to its receiver. -/

inductive Message where
  | register (s : Server) (hostBeyond nameBeyond : Stale) (f : Function)
      (host_free : 0 ∉ s.host) (name_free : 0 ∉ f.name)
  | locationRequest (heap name : Bytes) (argTypes : ArgTypes)
  | execute (fp : FloatText) (name : Bytes) (argTypes : ArgTypes) (args : List (Option Bytes))
      (name_free : 0 ∉ name)
  | locationResponse (beyond : Stale) (db : BinderDB) (key : Bytes)
  | executeResponse (stale : Stale) (f : Function) (text : Bytes) (reasonCode : CInt)

def Message.encode : Message → Except Fault Bytes
  | .register s hostBeyond nameBeyond f _ _ => do
      let m ← s.createRegisterMessage hostBeyond nameBeyond f
      return (sendRegisterRequest m (.delivering [])).2.sent
  | .locationRequest heap name argTypes => do
      let m ← createLocationRequest name argTypes
      return (← sendLocationRequest heap m (.delivering [])).2.sent
  | .execute fp name argTypes args _ => do
      return (← sendExecuteRequest fp (.delivering []) name argTypes args).2.sent
  | .locationResponse beyond db key => do
      return (← sendLocationResponse beyond db (.delivering []) key).2.2.sent
  | .executeResponse stale f text reasonCode => do
      return (← sendExecuteResponse stale (.delivering []) f f.getKey text reasonCode).2.sent

theorem encode_register (s : Server) (hostBeyond nameBeyond : Stale) (f : Function)
    (host_free : 0 ∉ s.host) (name_free : 0 ∉ f.name) (bytes : Bytes)
    (encoded : (Message.register s hostBeyond nameBeyond f host_free name_free).encode = .ok bytes) :
    f.getKey.length + 143 < 2 ^ 31 ∧
      bytes = framed Socket.register (registerBody s hostBeyond nameBeyond f) := by
  obtain ⟨m, built, encoded⟩ := (Outcome.bind_eq_ok _ _ _).mp encoded
  obtain ⟨fits, buff, length⟩ := createRegisterMessage_ok s hostBeyond nameBeyond f m built
  rw [sendRegisterRequest, length, List.take_length, sendAll_clear (.delivering []) _ rfl, buff]
    at encoded
  cases encoded
  exact ⟨fits, rfl⟩

theorem encode_locationRequest (heap name : Bytes) (argTypes : ArgTypes) (bytes : Bytes)
    (encoded : (Message.locationRequest heap name argTypes).encode = .ok bytes) :
    ∃ m func, createLocationRequest name argTypes = .ok m ∧ locationFunction heap m = .ok func ∧
      func.getKey.length + 9 < 2 ^ 31 ∧ bytes = framed Socket.locationRequest (keyBody func) := by
  obtain ⟨m, created, encoded⟩ := (Outcome.bind_eq_ok _ _ _).mp encoded
  obtain ⟨⟨ret, link⟩, request, encoded⟩ := (Outcome.bind_eq_ok _ _ _).mp encoded
  obtain ⟨frame, built, request⟩ := (Outcome.bind_eq_ok _ _ _).mp request
  obtain ⟨func, rebuilt, fits, rfl⟩ := locationRequestFrame_ok heap m frame built
  rw [sendAll_clear (.delivering []) _ rfl] at request
  cases request
  cases encoded
  have type : m.type = Socket.locationRequest := by
    obtain ⟨_, _, made⟩ := (Outcome.bind_eq_ok _ _ _).mp created
    cases made
    rfl
  rw [← type]
  exact ⟨m, func, created, rebuilt, fits, rfl⟩

def Message.receive : Message → Unset → Link → Except Fault (Received × Link)
  | .register .. => turn binderDecode
  | .locationRequest .. => turn binderDecode
  | .execute .. => turn serverDecode
  | .locationResponse .. => locationReceive
  | .executeResponse .. => responseReceive

def Message.reads (bytes : Bytes) : Message → List Nat
  | .locationResponse _ db key =>
      if db.lookup key = none then [4, 4] else [4, maxHostName + 1 + 4]
  | .executeResponse _ _ _ reasonCode => if reasonCode = 0 then [4, 4, bytes.length - 8] else [4, 4]
  | _ => [4, 4, bytes.length - 8]

/-- The receiver decodes the message over this schedule as over one whose reads
are all whole, and leaves what follows it on the stream. -/
def Arrives (message : Message) (bytes rest : Bytes) (limits : List Nat) : Prop :=
  ∀ memory, Intact (message.receive memory) bytes rest limits

theorem arrives_register (s : Server) (hostBeyond nameBeyond : Stale) (f : Function)
    (host_free : 0 ∉ s.host) (name_free : 0 ∉ f.name) (bytes rest : Bytes) (limits : List Nat)
    (positive : ∀ limit ∈ limits, 0 < limit)
    (encoded : (Message.register s hostBeyond nameBeyond f host_free name_free).encode = .ok bytes) :
    Arrives (.register s hostBeyond nameBeyond f host_free name_free) bytes rest limits ↔
      Covers limits [4, 4, bytes.length - 8] := by
  obtain ⟨fits, rfl⟩ := encode_register s hostBeyond nameBeyond f host_free name_free bytes encoded
  have size := length_registerBody s hostBeyond nameBeyond f
  rw [length_framed, Nat.add_sub_cancel]
  apply registers.intact_iff (registerBody s hostBeyond nameBeyond f) rest limits positive (by omega)
  intro stale
  have body := recvRegisterRequest_body stale
    (scheduled (registerBody s hostBeyond nameBeyond f ++ rest) []) s hostBeyond nameBeyond f rest rfl
    rfl host_free name_free fits
  exact ⟨_, (renamed_eq_ok _ _ _ _).mpr ⟨_, body, rfl⟩⟩

theorem arrives_locationRequest (heap name : Bytes) (argTypes : ArgTypes) (bytes rest : Bytes)
    (limits : List Nat) (positive : ∀ limit ∈ limits, 0 < limit)
    (encoded : (Message.locationRequest heap name argTypes).encode = .ok bytes) :
    Arrives (.locationRequest heap name argTypes) bytes rest limits ↔
      Covers limits [4, 4, bytes.length - 8] := by
  obtain ⟨m, func, _, rebuilt, fits, rfl⟩ := encode_locationRequest heap name argTypes bytes encoded
  have free := locationFunction_free heap m func rebuilt
  have size : (keyBody func).length = func.getKey.length + 1 := by simp [keyBody]
  rw [length_framed, Nat.add_sub_cancel]
  apply locates.intact_iff (keyBody func) rest limits positive (by omega)
  intro stale
  have body := recvLocationRequest_body stale (scheduled (keyBody func ++ rest) []) func.getKey rest rfl
    rfl (nul_not_in_getKey func free) (by omega)
  exact ⟨_, (renamed_eq_ok _ _ _ _).mpr ⟨_, body, rfl⟩⟩

theorem arrives_execute (fp : FloatText) (name : Bytes) (argTypes : ArgTypes)
    (args : List (Option Bytes)) (name_free : 0 ∉ name) (bytes rest : Bytes) (limits : List Nat)
    (positive : ∀ limit ∈ limits, 0 < limit)
    (encoded : (Message.execute fp name argTypes args name_free).encode = .ok bytes) :
    Arrives (.execute fp name argTypes args name_free) bytes rest limits ↔
      Covers limits [4, 4, bytes.length - 8] := by
  obtain ⟨⟨ret, link⟩, request, encoded⟩ := (Outcome.bind_eq_ok _ _ _).mp encoded
  obtain ⟨frame, built, request⟩ := (Outcome.bind_eq_ok _ _ _).mp request
  obtain ⟨text, _, fits, rfl⟩ := executeRequestFrame_ok fp name argTypes args frame built
  rw [sendAll_clear (.delivering []) _ rfl] at request
  cases request
  cases encoded
  have key_free := nul_not_in_getKey ⟨name, argTypes⟩ name_free
  generalize (Function.mk name argTypes).getKey = key at *
  have size := length_executeBody key text
  simp only [delivering, List.nil_append]
  rw [length_framed, Nat.add_sub_cancel]
  apply executes.intact_iff (executeBody key text) rest limits positive (by omega)
  intro stale
  have request := recvExecuteRequest_body stale
    (scheduled (lengthBytes (executeBody key text).length ++ executeBody key text ++ rest) []) key text
    rest rfl rfl key_free fits
  rw [recvExecuteRequest, recvLength_block] at request
  exact ⟨_, (renamed_eq_ok _ _ _ _).mpr ⟨_, request, rfl⟩⟩

theorem arrives_locationResponse (beyond : Stale) (db : BinderDB) (key bytes rest : Bytes)
    (limits : List Nat) (positive : ∀ limit ∈ limits, 0 < limit)
    (encoded : (Message.locationResponse beyond db key).encode = .ok bytes) :
    Arrives (.locationResponse beyond db key) bytes rest limits ↔
      Covers limits ((Message.locationResponse beyond db key).reads bytes) := by
  have nonempty : db.lookup key ≠ some [] := by
    intro empty
    obtain ⟨_, response, _⟩ := (Outcome.bind_eq_ok _ _ _).mp encoded
    rw [sendLocationResponse, if_neg (by rw [empty]; simp), BinderDB.subscript, empty] at response
    cases response
  have response := Location.sendLocationResponse_clear beyond db (.delivering []) key rfl nonempty
  rw [Message.encode, response] at encoded
  cases encoded
  rw [Message.reads]
  cases stored : db.lookup key with
  | none =>
      rw [if_pos rfl]
      exact location_failure_iff errServerNotFound rest limits positive
  | some servers =>
      cases servers with
      | nil => exact absurd stored nonempty
      | cons s others =>
          rw [if_neg (by simp)]
          exact location_success_iff (cStrField s.host (maxHostName + 1) beyond ++ wordBytes s.port) rest
            limits (by simp) positive

theorem arrives_executeResponse (stale : Stale) (f : Function) (text : Bytes) (reasonCode : CInt)
    (bytes rest : Bytes) (limits : List Nat) (positive : ∀ limit ∈ limits, 0 < limit)
    (encoded : (Message.executeResponse stale f text reasonCode).encode = .ok bytes) :
    Arrives (.executeResponse stale f text reasonCode) bytes rest limits ↔
      Covers limits ((Message.executeResponse stale f text reasonCode).reads bytes) := by
  rw [Message.encode] at encoded
  rw [Message.reads]
  by_cases success : reasonCode = 0
  · rw [if_pos success]
    rw [success, sendExecuteResponse_success stale (.delivering []) f text rfl] at encoded
    by_cases fits : f.getKey.length + text.length + 18 < 2 ^ 31
    · rw [if_pos fits] at encoded
      cases encoded
      simp only [delivering, List.nil_append]
      rw [length_framed, Nat.add_sub_cancel]
      exact response_success_iff f.getKey text rest limits positive fits
    · rw [if_neg fits] at encoded
      cases encoded
  · rw [if_neg success]
    have response := sendExecuteResponse_failure stale (.delivering []) f f.getKey text reasonCode rfl
      success
    rw [response] at encoded
    cases encoded
    exact response_failure_iff reasonCode rest limits positive

theorem arrives_iff (message : Message) (bytes rest : Bytes) (limits : List Nat)
    (positive : ∀ limit ∈ limits, 0 < limit) (encoded : message.encode = .ok bytes) :
    Arrives message bytes rest limits ↔ Covers limits (message.reads bytes) := by
  cases message with
  | register s hostBeyond nameBeyond f host_free name_free =>
      exact arrives_register s hostBeyond nameBeyond f host_free name_free bytes rest limits positive
        encoded
  | locationRequest heap name argTypes =>
      exact arrives_locationRequest heap name argTypes bytes rest limits positive encoded
  | execute fp name argTypes args name_free =>
      exact arrives_execute fp name argTypes args name_free bytes rest limits positive encoded
  | locationResponse beyond db key =>
      exact arrives_locationResponse beyond db key bytes rest limits positive encoded
  | executeResponse stale f text reasonCode =>
      exact arrives_executeResponse stale f text reasonCode bytes rest limits positive encoded

def fRequest : Message := .locationRequest [] [102] noArguments.argTypes

theorem fRequest_encoded : fRequest.encode = .ok (framed locationRequest (keyBody noArguments)) := by rfl

/-- Limits above what is asked for, and past their end none. -/
theorem whole_reads_arrive :
    Arrives fRequest (framed locationRequest (keyBody noArguments)) [1, 2] [4, 9] := by
  apply (arrives_iff fRequest _ [1, 2] [4, 9] (by decide) fRequest_encoded).mpr
  simp [fRequest, Message.reads, Covers]

/-- The five bytes of the key come as two and three: the binder looks up `f|` and
finds the other three in place of the next message's type. -/
theorem split_key_garbled :
    turn binderDecode (.filledWith fun _ => 0)
        (scheduled (framed locationRequest (keyBody noArguments)) [4, 4, 2, 3]) =
      .ok (.locate (some [102, 124]), scheduled [48, 124, 0] [3]) ∧
    ¬ Arrives fRequest (framed locationRequest (keyBody noArguments)) [] [4, 4, 2, 3] := by
  have split : turn binderDecode (.filledWith fun _ => 0)
      (scheduled (framed locationRequest (keyBody noArguments)) [4, 4, 2, 3]) =
      .ok (.locate (some [102, 124]), scheduled [48, 124, 0] [3]) := by rfl
  refine ⟨split, fun arrives => ?_⟩
  obtain ⟨decoded, link, _, run, ended⟩ := arrives (.filledWith fun _ => 0)
  rw [List.append_nil] at run
  cases split.symm.trans run
  cases ended

end BinderRpc.Arrival
