import BinderRpc.Frames

/-!
One REGISTER message at the binder, whatever arrives of it and whatever becomes
of the reply. The database is written between the read and the reply, and of the
read only -1 is noticed.
-/

namespace BinderRpc.Atomicity

open Octets Text Signature Socket Database Binder Server Frames

/-- Two names and the port, in front of the key. -/
def fixedSize : Nat := maxFuncName + 1 + maxHostName + 1 + 4

def requestOf (buff : Bytes) : RegisterRequest where
  sName := cText (buff.take maxHostName)
  port := wordOf ((buff.drop (maxHostName + 1)).take 4)
  fName := cText ((buff.drop (maxHostName + 1 + 4)).take maxFuncName)
  key := cText (buff.drop fixedSize)

def registered (db : BinderDB) (request : RegisterRequest) : BinderDB :=
  (db.updateDb request.fName request.sName request.port request.key).2

/-- All four bytes of a length are received, and a body of that length. -/
def Complete (socket : Link) (request : RegisterRequest) : Prop :=
  ∃ field sized body rest, socket.recv 4 = (some field, sized) ∧ field.length = 4 ∧
    (fixedSize : Int) ≤ (wordOf field).toInt ∧
    sized.recv (wordOf field).toInt.toNat = (some body, rest) ∧
    (body.length : Int) = (wordOf field).toInt ∧ request = requestOf body

/-- Either 0 is returned and one complete message has been registered, or a nonzero
code is returned and the database is as before. -/
def AllOrNothing (stale beyond : Stale) (pointer : BitVec 64) (db : BinderDB) (socket : Link) : Prop :=
  ∃ ret after left, Binder.handleRequest stale beyond pointer db socket register = .ok (ret, after, left) ∧
    ((ret = 0 ∧ ∃ request, Complete socket request ∧ after = registered db request) ∨
      (ret ≠ 0 ∧ after = db))

def ReplyFails (socket : Link) : Prop := socket.departures.head? = some .failed

instance (socket : Link) : Decidable (ReplyFails socket) := inferInstanceAs (Decidable (_ = _))

/-- Registering this changes nothing: its server is the first one stored, or the
stored list is empty. -/
def Listed (db : BinderDB) (request : RegisterRequest) : Prop :=
  ∃ servers, db.lookup request.key = some servers ∧ servers.idxOf ⟨request.sName, request.port⟩ = 0

inductive GoesWell (stale : Stale) (db : BinderDB) (socket : Link) : Prop where
  | lengthLost (failed : (socket.recv 4).1 = none)
  | bodyLost (length : CInt) (sized : Link) (size : recvLength socket = (some length, sized))
      (allocated : (fixedSize : Int) ≤ length.toInt + 1)
      (failed : (sized.recv length.toInt.toNat).1 = none)
  | answered (request : RegisterRequest) (complete : Complete socket request)
      (sent : ¬ ReplyFails socket)
  | listed (length : CInt) (sized : Link) (size : recvLength socket = (some length, sized))
      (fits : (fixedSize : Int) ≤ length.toInt) (count : Nat) (buff : Bytes) (rest : Link)
      (received : recvInto sized (staleBytes stale length.toInt.toNat) = (some count, buff, rest))
      (known : Listed db (requestOf buff)) (failed : ReplyFails socket)

theorem registered_same_iff (db : BinderDB) (request : RegisterRequest) :
    registered db request = db ↔ Listed db request :=
  updateDb_same_iff db request.fName request.sName request.port request.key

/-- The key would be shorter than nothing. -/
theorem recvRegisterRequest_short (stale : Stale) (socket : Link) (length : CInt)
    (short : length.toInt + 1 < fixedSize) :
    recvRegisterRequest stale socket length = .error .badSize := by
  have cells : arraySize (length.toInt - (maxFuncName + 1 + maxHostName + 1 + 4) + 1) = .error .badSize := by
    rw [arraySize, if_neg]
    simp only [fixedSize] at short
    omega
  rw [recvRegisterRequest]
  simp only [cells, Outcome.error_bind]

theorem recvRegisterRequest_read (stale : Stale) (socket : Link) (length : CInt)
    (allocated : (fixedSize : Int) ≤ length.toInt + 1) :
    recvRegisterRequest stale socket length =
      match recvInto socket (staleBytes stale length.toInt.toNat) with
      | (none, _, left) => .ok (none, left)
      | (some _, buff, left) =>
          if (fixedSize : Int) ≤ length.toInt then .ok (some (requestOf buff), left)
          else .error .badIndex := by
  have constant : (maxFuncName : Int) + 1 + maxHostName + 1 + 4 = fixedSize := rfl
  have top := BitVec.toInt_lt (x := length)
  have cells : ∃ count, arraySize (length.toInt - fixedSize + 1) = .ok count := by
    refine ⟨_, if_pos ?_⟩
    omega
  obtain ⟨count, cells⟩ := cells
  have positive : (0 : Int) ≤ length.toInt := by
    simp only [fixedSize, maxFuncName, maxHostName] at allocated
    omega
  have size : arraySize length.toInt = .ok length.toInt.toNat := if_pos ⟨positive, by omega⟩
  have whole := recvInto_length socket (staleBytes stale length.toInt.toNat)
  rw [length_staleBytes] at whole
  rw [recvRegisterRequest]
  simp only [constant, cells, size, Outcome.ok_bind]
  generalize recvInto socket (staleBytes stale length.toInt.toNat) = result at *
  obtain ⟨got, buff, left⟩ := result
  cases got with
  | none => rfl
  | some got =>
      simp only at whole ⊢
      have room : fixedSize ≤ buff.length + 1 := by omega
      have sName : slice buff 0 (maxHostName + 1) = .ok ((buff.drop 0).take (maxHostName + 1)) :=
        slice_within buff 0 (maxHostName + 1) (by simp only [fixedSize] at room; omega)
      have port : slice buff (maxHostName + 1) 4 = .ok ((buff.drop (maxHostName + 1)).take 4) :=
        slice_within buff (maxHostName + 1) 4 (by simp only [fixedSize] at room; omega)
      by_cases fits : (fixedSize : Int) ≤ length.toInt
      · obtain ⟨keySize, key_size⟩ := Int.eq_ofNat_of_zero_le (Int.sub_nonneg_of_le fits)
        have fName : slice buff (maxHostName + 1 + 4) (maxFuncName + 1) =
            .ok ((buff.drop (maxHostName + 1 + 4)).take (maxFuncName + 1)) :=
          slice_within buff (maxHostName + 1 + 4) (maxFuncName + 1)
            (by simp only [fixedSize] at fits; omega)
        have key : slice buff (maxHostName + 1 + maxFuncName + 1 + 4) keySize =
            .ok ((buff.drop fixedSize).take keySize) :=
          slice_within buff fixedSize keySize (by omega)
        have rest : (buff.drop fixedSize).take keySize = buff.drop fixedSize :=
          List.take_of_length_le (by rw [List.length_drop]; omega)
        rw [if_pos fits, key_size]
        simp only [sName, port, fName, key, rest, Outcome.ok_bind, List.drop_zero, List.take_take,
          Nat.min_eq_left (Nat.le_succ _)]
        rfl
      · -- one byte is missing already for the function's name
        have fName : slice buff (maxHostName + 1 + 4) (maxFuncName + 1) = .error .badIndex := by
          rw [slice, if_neg]
          simp only [fixedSize, maxFuncName, maxHostName] at *
          omega
        rw [if_neg fits]
        simp only [sName, port, fName, Outcome.ok_bind, Outcome.error_bind]

theorem recvInto_departures (socket : Link) (old : Bytes) :
    (recvInto socket old).2.2.departures = socket.departures := Link.recv_departures socket old.length

theorem recvLength_departures (socket : Link) : (recvLength socket).2.departures = socket.departures := by
  have same := recvInto_departures socket [0, 0, 0, 0]
  rw [recvLength]
  split <;> simp_all only

theorem sendRegisterResponse_code (pointer : BitVec 64) (socket : Link) (flag : CInt) :
    (sendRegisterResponse pointer socket flag).1 = if ReplyFails socket then errBinderSendFail else 0 := by
  have fails := Link.send_fails_iff socket (StringObject.bytes ⟨pointer, toStri flag.toInt⟩ |>.take 4)
  rw [sendRegisterResponse]
  generalize socket.send _ = result at *
  obtain ⟨count, left⟩ := result
  cases count with
  | none =>
      have failed : ReplyFails socket := fails.mp rfl
      rw [if_pos failed]
  | some count =>
      have sent : ¬ ReplyFails socket := fun failed => by cases fails.mpr failed
      rw [if_neg sent]

theorem handle_lost (stale beyond : Stale) (pointer : BitVec 64) (db : BinderDB) (socket : Link)
    (failed : (socket.recv 4).1 = none) :
    ∃ left, Binder.handleRequest stale beyond pointer db socket register =
      .ok (errBinderRecvFail, db, left) := by
  have lost : recvLength socket = (none, (socket.recv 4).2) := by
    rw [recvLength, recvInto_eq socket [0, 0, 0, 0] 4 rfl, failed]
    rfl
  rw [Binder.handleRequest, if_pos rfl, lost]
  exact ⟨_, rfl⟩

section Read

variable (stale beyond : Stale) (pointer : BitVec 64) (db : BinderDB) (socket sized : Link)
  (length : CInt) (size : recvLength socket = (some length, sized))

include size

theorem handle_short (short : length.toInt + 1 < fixedSize) :
    Binder.handleRequest stale beyond pointer db socket register = .error .badSize := by
  rw [Binder.handleRequest, if_pos rfl, size]
  simp only [receiveRegisterRequest, recvRegisterRequest_short stale sized length short, Outcome.error_bind]

theorem handle_unread (allocated : (fixedSize : Int) ≤ length.toInt + 1)
    (failed : (sized.recv length.toInt.toNat).1 = none) :
    ∃ left, Binder.handleRequest stale beyond pointer db socket register =
      .ok (errBinderRecvFail, db, left) := by
  have unread : recvRegisterRequest stale sized length =
      .ok (none, (sized.recv length.toInt.toNat).2) := by
    rw [recvRegisterRequest_read stale sized length allocated,
      recvInto_eq sized _ _ (length_staleBytes stale length.toInt.toNat), failed]
    rfl
  rw [Binder.handleRequest, if_pos rfl, size]
  simp only [receiveRegisterRequest, unread, Outcome.ok_bind]
  exact ⟨_, rfl⟩

theorem handle_read (allocated : (fixedSize : Int) ≤ length.toInt + 1) (count : Nat) (buff : Bytes)
    (rest : Link) (received : recvInto sized (staleBytes stale length.toInt.toNat) = (some count, buff, rest)) :
    if (fixedSize : Int) ≤ length.toInt then
      ∃ left, Binder.handleRequest stale beyond pointer db socket register =
        .ok (if ReplyFails socket then errBinderRecvFail else 0, registered db (requestOf buff), left)
    else Binder.handleRequest stale beyond pointer db socket register = .error .badIndex := by
  -- receiving does not touch the schedule of the sends
  have schedule : rest.departures = socket.departures := by
    have first := recvLength_departures socket
    have second := recvInto_departures sized (staleBytes stale length.toInt.toNat)
    rw [size] at first
    rw [received] at second
    exact second.trans first
  rw [Binder.handleRequest, if_pos rfl, size]
  simp only [receiveRegisterRequest, recvRegisterRequest_read stale sized length allocated, received]
  by_cases fits : (fixedSize : Int) ≤ length.toInt
  · rw [if_pos fits, if_pos fits]
    have code := sendRegisterResponse_code pointer rest (db.updateDb (requestOf buff).fName
      (requestOf buff).sName (requestOf buff).port (requestOf buff).key).1
    have same : ReplyFails rest ↔ ReplyFails socket := by rw [ReplyFails, ReplyFails, schedule]
    simp only [same] at code
    refine ⟨(sendRegisterResponse pointer rest (db.updateDb (requestOf buff).fName
      (requestOf buff).sName (requestOf buff).port (requestOf buff).key).1).2, ?_⟩
    simp only [Outcome.ok_bind, pure, Except.pure, code, registered]
    by_cases failed : ReplyFails socket
    · simp only [if_pos failed]
      rfl
    · simp only [if_neg failed]
      rfl
  · rw [if_neg fits, if_neg fits]
    rfl

end Read

theorem complete_received (stale : Stale) (socket : Link) (request : RegisterRequest)
    (complete : Complete socket request) :
    ∃ length sized count buff rest, recvLength socket = (some length, sized) ∧
      (fixedSize : Int) ≤ length.toInt ∧
      recvInto sized (staleBytes stale length.toInt.toNat) = (some count, buff, rest) ∧
      request = requestOf buff := by
  obtain ⟨field, sized, body, rest, first, four, fits, second, whole, rfl⟩ := complete
  have size : recvLength socket = (some (wordOf field), sized) := by
    rw [recvLength, recvInto_eq socket [0, 0, 0, 0] 4 rfl, first]
    simp only [Option.map_some]
    rw [Link.filled_whole [0, 0, 0, 0] field (Nat.le_of_eq four.symm)]
  refine ⟨wordOf field, sized, body.length, body, rest, size, fits, ?_, rfl⟩
  rw [recvInto_eq sized _ _ (length_staleBytes stale (wordOf field).toInt.toNat), second]
  simp only [Option.map_some]
  rw [Link.filled_whole _ _ (by rw [length_staleBytes]; omega)]

theorem recvLength_lost (socket sized : Link) (lost : recvLength socket = (none, sized)) :
    (socket.recv 4).1 = none := by
  rw [recvLength, recvInto_eq socket [0, 0, 0, 0] 4 rfl] at lost
  cases failed : (socket.recv 4).1 with
  | none => rfl
  | some field =>
      rw [failed] at lost
      cases lost

/-- Once a body has been read, the update has happened, and what it did must agree
with the code that the reply leads to. -/
theorem goesWell_of_read (stale beyond : Stale) (pointer : BitVec 64) (db : BinderDB)
    (socket sized : Link) (length : CInt) (size : recvLength socket = (some length, sized))
    (allocated : (fixedSize : Int) ≤ length.toInt + 1) (count : Nat) (buff : Bytes) (rest : Link)
    (received : recvInto sized (staleBytes stale length.toInt.toNat) = (some count, buff, rest))
    (whole : AllOrNothing stale beyond pointer db socket) : GoesWell stale db socket := by
  obtain ⟨ret, after, left, run, outcome⟩ := whole
  have read := handle_read stale beyond pointer db socket sized length size allocated count buff rest
    received
  by_cases fits : (fixedSize : Int) ≤ length.toInt
  · rw [if_pos fits] at read
    obtain ⟨left', read⟩ := read
    cases run.symm.trans read
    by_cases failed : ReplyFails socket
    · -- an error code after the update
      rw [if_pos failed] at outcome
      rcases outcome with ⟨zero, _⟩ | ⟨_, same⟩
      · exact absurd zero (by decide)
      · exact .listed length sized size fits count buff rest received
          ((registered_same_iff db _).mp same) failed
    · rw [if_neg failed] at outcome
      rcases outcome with ⟨_, request, complete, _⟩ | ⟨nonzero, _⟩
      · exact .answered request complete failed
      · exact absurd rfl nonzero
  · rw [if_neg fits, run] at read
    cases read

theorem all_or_nothing_iff (stale beyond : Stale) (pointer : BitVec 64) (db : BinderDB)
    (socket : Link) :
    AllOrNothing stale beyond pointer db socket ↔ GoesWell stale db socket := by
  constructor
  · intro whole
    cases size : recvLength socket with
    | mk length sized =>
    cases length with
    | none => exact .lengthLost (recvLength_lost socket sized size)
    | some length =>
        -- the key's array is allocated before the body is received
        by_cases allocated : (fixedSize : Int) ≤ length.toInt + 1
        · cases received : recvInto sized (staleBytes stale length.toInt.toNat) with
          | mk count result =>
          obtain ⟨buff, rest⟩ := result
          cases count with
          | none =>
              rw [recvInto_eq sized _ _ (length_staleBytes stale length.toInt.toNat)] at received
              have failed := Option.map_eq_none_iff.mp (congrArg Prod.fst received)
              exact .bodyLost length sized size allocated failed
          | some count =>
              exact goesWell_of_read stale beyond pointer db socket sized length size allocated count buff
                rest received whole
        · obtain ⟨ret, after, left, run, _⟩ := whole
          rw [handle_short stale beyond pointer db socket sized length size (by omega)] at run
          cases run
  · intro well
    cases well with
    | lengthLost failed =>
        obtain ⟨left, run⟩ := handle_lost stale beyond pointer db socket failed
        exact ⟨_, _, left, run, Or.inr ⟨by decide, rfl⟩⟩
    | bodyLost length sized size allocated failed =>
        obtain ⟨left, run⟩ := handle_unread stale beyond pointer db socket sized length size allocated failed
        exact ⟨_, _, left, run, Or.inr ⟨by decide, rfl⟩⟩
    | answered request complete sent =>
        obtain ⟨length, sized, count, buff, rest, size, fits, received, rfl⟩ :=
          complete_received stale socket request complete
        have run := handle_read stale beyond pointer db socket sized length size (by omega) count buff rest
          received
        rw [if_pos fits, if_neg sent] at run
        obtain ⟨left, run⟩ := run
        exact ⟨_, _, left, run, Or.inl ⟨rfl, _, complete, rfl⟩⟩
    | listed length sized size fits count buff rest received known failed =>
        have run := handle_read stale beyond pointer db socket sized length size (by omega) count buff rest
          received
        rw [if_pos fits, if_pos failed, (registered_same_iff db _).mpr known] at run
        obtain ⟨left, run⟩ := run
        exact ⟨_, _, left, run, Or.inr ⟨by decide, rfl⟩⟩

def mute : Link where
  incoming := lengthBytes 139 ++ registerBody ⟨[104], 1⟩ (fun _ => 0) (fun _ => 0) noArguments
  arrivals := []
  sent := []
  departures := [.failed]

/-- The binder returns an error code, and has registered `f` all the same. -/
theorem mute_registered :
    (∃ after left, Binder.handleRequest (fun _ => 0) (fun _ => 0) 4096 BinderDB.empty mute register =
        .ok (errBinderRecvFail, after, left) ∧
      after.lookup noArguments.getKey = some [⟨[104], 1⟩]) ∧
      ¬ AllOrNothing (fun _ => 0) (fun _ => 0) 4096 BinderDB.empty mute := by
  have size := recvLength_front mute 139 (registerBody ⟨[104], 1⟩ (fun _ => 0) (fun _ => 0) noArguments)
    rfl rfl
  have received := recvInto_front
    { mute with incoming := registerBody ⟨[104], 1⟩ (fun _ => 0) (fun _ => 0) noArguments }
    (staleBytes (fun _ => 0) 139) _ [] rfl (List.append_nil _).symm
    (by rw [length_registerBody, length_staleBytes]; rfl)
  have read := handle_read (fun _ => 0) (fun _ => 0) 4096 BinderDB.empty mute _ 139 size (by decide) _ _ _
    received
  have said : requestOf (registerBody ⟨[104], 1⟩ (fun _ => 0) (fun _ => 0) noArguments) =
      ⟨[104], 1, [102], noArguments.getKey⟩ := by rfl
  rw [if_pos (by decide), if_pos (by rfl), said] at read
  obtain ⟨left, run⟩ := read
  have filed : (registered BinderDB.empty ⟨[104], 1, [102], noArguments.getKey⟩).lookup
      noArguments.getKey = some [⟨[104], 1⟩] := by
    rw [registered, updateDb_lookup, Function.update_self]
    rfl
  refine ⟨⟨_, left, run, filed⟩, ?_⟩
  rintro ⟨ret, after, left', same, outcome⟩
  cases run.symm.trans same
  rcases outcome with ⟨zero, _⟩ | ⟨_, unchanged⟩
  · exact absurd zero (by decide)
  · rw [unchanged] at filed
    cases filed

end BinderRpc.Atomicity
