import BinderRpc.FailureReports
import BinderRpc.Reception
import BinderRpc.Survival
import BinderRpc.Transfers

/-!
When rpcCall returns 0. The transport and both peers may do anything: the
connections come with any bytes, any schedule and any stale memory. Zero comes
out of four branches, and only one of them has seen an answer of the right type.
-/

namespace BinderRpc.FalseSuccess

open Octets Text Signature Marshal Socket Client Frames FailureReports Transfers

section Call

variable (fp : FloatText) (heap : Bytes) (locals : Locals) (network : Network) (name : Bytes)
  (argTypes : ArgTypes) (args : List (Option Bytes))

/-- The binder's connection when the location request has gone out without an error. -/
def Asking (after : Link) : Prop :=
  ∃ binder m ret, network.binder = .ok binder ∧ createLocationRequest name argTypes = .ok m ∧
    sendLocationRequest heap m binder = .ok (ret, after) ∧ ¬ ret.toInt < 0

/-- The server at the address read from the binder's connection. -/
def Connected (after server : Link) : Prop :=
  ∃ sName port, (recvLocationReply locals after).1 = .success sName port ∧
    network.server sName (toStri port.toInt) = some server

/-- The end of the function is reached, where it returns anything. -/
def FallsOff : Prop :=
  ∃ after count reasonCode, Asking heap network name argTypes after ∧
    (recvLocationReply locals after).1 = .failure (some count) reasonCode

def ClaimsSuccess : Prop :=
  Returns (rpcCall fp heap locals network name argTypes args) 0 ∨
    FallsOff heap locals network name argTypes

/-- A complete LOCATION_SUCCESS comes first on the stream. -/
def LocationSent (stream : Bytes) : Prop :=
  ∃ place rest, place.length = maxHostName + 1 + 4 ∧ stream = wordBytes locationSuccess ++ place ++ rest

def RequestSent (server : Link) : Prop :=
  ∃ frame, executeRequestFrame fp name argTypes args = .ok frame ∧
    (sendAll server frame).2.2.sent = server.sent ++ frame

/-- A complete response of type EXECUTE_SUCCESS comes first on the stream. -/
def ResultsSent (stream : Bytes) : Prop :=
  ∃ body rest, body.length < 2 ^ 31 ∧ stream = framed executeSuccess body ++ rest

structure Earned (after server : Link) : Prop where
  located : LocationSent after.incoming
  requested : RequestSent fp name argTypes args server
  answered : ResultsSent server.incoming

def NoFalseSuccess : Prop :=
  ClaimsSuccess fp heap locals network name argTypes args →
    ∃ after server, Asking heap network name argTypes after ∧ Connected locals network after server ∧
      Earned fp name argTypes args after server

/-- The location request is built, and no send fails on the binder's connection
before it is out. -/
def Asked (binder : Link) : Prop :=
  ∃ m frame, network.binder = .ok binder ∧ createLocationRequest name argTypes = .ok m ∧
    locationRequestFrame heap m = .ok frame ∧ Link.LetsOut binder.departures frame.length

def marshalledSize (buff : Bytes) : Int := (wordOf (buff.take 4)).toInt

def keySize (buff : Bytes) : Int := (wordOf ((buff.drop 4).take 4)).toInt

/-- The buffer holds two lengths and, where they say, results and a key that can be
read. -/
structure ResultsFramed (buff : Bytes) : Prop where
  header : 8 ≤ buff.length
  marshalled : 0 ≤ marshalledSize buff ∧ 8 + marshalledSize buff ≤ buff.length
  key : 0 ≤ keySize buff + 1 ∧ 8 + marshalledSize buff + (keySize buff + 1) ≤ buff.length
  readable : Survival.KeyReadable
    (cText ((buff.drop (8 + (marshalledSize buff).toNat)).take (keySize buff).toNat))

/-- What is read from the server's connection is no success: a receive fails, or the
flag is EXECUTE_FAILURE with a reason, or the results cannot be taken apart. -/
inductive Refused (server : Link) : Prop where
  | flag_lost (flag : Bytes) (link : Link)
      (flagged : recvInto server (staleBytes locals.flag 4) = (none, flag, link))
  | failure (count : Nat) (flag : Bytes) (link : Link)
      (flagged : recvInto server (staleBytes locals.flag 4) = (some count, flag, link))
      (failed : wordOf flag = executeFailure)
      (reason : wordOf (recvInto link (staleBytes locals.reasonCode 4)).2.1 ≠ 0)
  | length_lost (count : Nat) (flag : Bytes) (link after : Link)
      (flagged : recvInto server (staleBytes locals.flag 4) = (some count, flag, link))
      (other : wordOf flag ≠ executeFailure) (sized : recvLength link = (none, after))
  | body_refused (count : Nat) (flag : Bytes) (link after : Link) (length : CInt)
      (flagged : recvInto server (staleBytes locals.flag 4) = (some count, flag, link))
      (other : wordOf flag ≠ executeFailure) (sized : recvLength link = (some length, after))
      (body : length.toInt < 0 ∨
        (recvInto after (staleBytes locals.response length.toInt.toNat)).1 = none ∨
        ¬ ResultsFramed (recvInto after (staleBytes locals.response length.toInt.toNat)).2.1)

/-- A whole LOCATION_SUCCESS is on the binder's stream and a whole EXECUTE_SUCCESS on
the server's, and no send fails before the request is out. -/
structure Whole (binder server : Link) (frame : Bytes) : Prop where
  located : binder.incoming.take 4 = wordBytes locationSuccess ∧
    4 + (maxHostName + 1 + 4) ≤ binder.incoming.length
  requested : Link.LetsOut server.departures frame.length
  answered : server.incoming.take 4 = wordBytes executeSuccess ∧
    ∃ size < 2 ^ 31, (server.incoming.drop 4).take 4 = lengthBytes size ∧ 8 + size ≤ server.incoming.length

/-- The type read from the binder is LOCATION_SUCCESS, and a server refuses unless
everything has come and gone whole. -/
structure WellAnswered : Prop where
  type : ∀ binder count msgType link, Asked heap network name argTypes binder →
    recvInto binder (staleBytes locals.msgType 4) = (some count, msgType, link) →
    wordOf msgType = locationSuccess
  reply : ∀ binder server frame, Asked heap network name argTypes binder →
    Connected locals network binder server → executeRequestFrame fp name argTypes args = .ok frame →
    Refused locals server ∨ Whole binder server frame

theorem rpcCall_asking (after : Link) (asking : Asking heap network name argTypes after) :
    rpcCall fp heap locals network name argTypes args =
      located fp locals network.server name argTypes args (recvLocationReply locals after).1 := by
  obtain ⟨binder, m, ret, connected, created, sent, went⟩ := asking
  obtain ⟨first, server⟩ := network
  cases connected
  rw [rpcCall_eq, created, Outcome.ok_bind, sent, Outcome.ok_bind, if_neg went]

variable {fp heap locals network name argTypes args}

theorem asking_unique (left right : Link) (first : Asking heap network name argTypes left)
    (second : Asking heap network name argTypes right) : left = right := by
  obtain ⟨binder, m, ret, connected, created, sent, _⟩ := first
  obtain ⟨binder', m', ret', connected', created', sent', _⟩ := second
  cases connected.symm.trans connected'
  cases created.symm.trans created'
  cases sent.symm.trans sent'
  rfl

theorem connected_unique (after left right : Link) (first : Connected locals network after left)
    (second : Connected locals network after right) : left = right := by
  obtain ⟨sName, port, reply, found⟩ := first
  obtain ⟨sName', port', reply', found'⟩ := second
  cases reply.symm.trans reply'
  exact Option.some.inj (found.symm.trans found')

theorem asking_of_zero (refused : ∀ code, network.binder = .error code → code.toInt < 0)
    (zero : Returns (rpcCall fp heap locals network name argTypes args) 0) :
    ∃ after, Asking heap network name argTypes after := by
  obtain ⟨called, run, ret⟩ := zero
  obtain ⟨first, server⟩ := network
  cases first with
  | error code =>
      have negative := refused code rfl
      cases run
      subst ret
      exact absurd negative (by decide)
  | ok binder =>
      rw [rpcCall_eq] at run
      obtain ⟨m, created, run⟩ := (Outcome.bind_eq_ok _ _ _).mp run
      obtain ⟨sent, gone, run⟩ := (Outcome.bind_eq_ok _ _ _).mp run
      by_cases failed : sent.1.toInt < 0
      · rw [if_pos failed] at run
        cases run
        exact absurd (show (0 : CInt).toInt < 0 from ret ▸ failed) (by decide)
      · exact ⟨sent.2, binder, m, sent.1, rfl, created, gone, failed⟩

theorem concludeCall_zero_iff (reply : ExecuteReply) :
    concludeCall reply = .ok 0 ↔
      match reply with
      | .lost ret => ret = 0
      | .failure reasonCode => reasonCode = 0
      | .success marshalled key =>
          ∃ parsed tokens, parseKey (cText key) = .ok parsed ∧ split (cText marshalled) bar = .ok tokens := by
  cases reply with
  | lost ret => simp [concludeCall]
  | failure reasonCode => simp [concludeCall]
  | success marshalled key =>
      constructor
      · intro run
        obtain ⟨parsed, parses, run⟩ := (Outcome.bind_eq_ok _ _ _).mp run
        obtain ⟨tokens, splits, _⟩ := (Outcome.bind_eq_ok _ _ _).mp run
        exact ⟨parsed, tokens, parses, splits⟩
      · rintro ⟨parsed, tokens, parses, splits⟩
        simp only [concludeCall, parses, splits, Outcome.ok_bind]
        rfl

theorem slices_iff (buff marshalLength keyLength marshalled key : Bytes) :
    (slice buff 0 4 = .ok marshalLength ∧ slice buff 4 4 = .ok keyLength ∧
      slice buff 8 (wordOf marshalLength).toInt = .ok marshalled ∧
      slice buff (8 + (wordOf marshalLength).toInt.toNat) ((wordOf keyLength).toInt + 1) = .ok key) ↔
    8 ≤ buff.length ∧ (0 ≤ marshalledSize buff ∧ 8 + marshalledSize buff ≤ buff.length) ∧
      (0 ≤ keySize buff + 1 ∧ 8 + marshalledSize buff + (keySize buff + 1) ≤ buff.length) ∧
      marshalLength = buff.take 4 ∧ keyLength = (buff.drop 4).take 4 ∧
      marshalled = (buff.drop 8).take (marshalledSize buff).toNat ∧
      key = (buff.drop (8 + (marshalledSize buff).toNat)).take (keySize buff + 1).toNat := by
  simp only [slice_ok_iff, marshalledSize, keySize, show (4 : Int).toNat = 4 from rfl, List.drop_zero]
  constructor
  · rintro ⟨⟨_, _, rfl⟩, ⟨_, header, rfl⟩, ⟨low, inside, rfl⟩, ⟨some_key, whole, rfl⟩⟩
    exact ⟨header, ⟨low, by omega⟩, ⟨some_key, by omega⟩, rfl, rfl, rfl, rfl⟩
  · rintro ⟨header, ⟨low, inside⟩, ⟨some_key, whole⟩, rfl, rfl, rfl, rfl⟩
    exact ⟨⟨by decide, by omega, rfl⟩, ⟨by decide, header, rfl⟩, ⟨low, by omega, rfl⟩,
      some_key, by omega, rfl⟩

def takeApart (buff : Bytes) : Except Fault ExecuteReply := do
  let nMarsLen := (wordOf (← slice buff 0 4)).toInt
  let nKeyLen := (wordOf (← slice buff 4 4)).toInt
  let _ ← arraySize (nMarsLen + 1)
  let marshalled ← slice buff 8 nMarsLen
  let _ ← arraySize (nKeyLen + 1)
  let key ← slice buff (8 + nMarsLen.toNat) (nKeyLen + 1)
  return .success marshalled (key.take nKeyLen.toNat)

theorem recvResultsBody_received (stale : Stale) (server after : Link) (length : CInt) (count : Nat)
    (buff : Bytes) (nonneg : 0 ≤ length.toInt)
    (received : recvInto server (staleBytes stale length.toInt.toNat) = (some count, buff, after)) :
    recvResultsBody stale server length = (takeApart buff).map fun reply => (reply, after) := by
  have high := BitVec.toInt_lt (x := length)
  have size : arraySize length.toInt = .ok length.toInt.toNat :=
    (arraySize_ok_iff ..).mpr ⟨nonneg, by omega, rfl⟩
  rw [recvResultsBody, size, Outcome.ok_bind, received, takeApart]
  simp only [Outcome.map_bind]
  rfl

theorem takeApart_zero_iff (buff : Bytes) (small : buff.length < 2 ^ 31) :
    (∃ reply, takeApart buff = .ok reply ∧ concludeCall reply = .ok 0) ↔ ResultsFramed buff := by
  -- as much of the key is kept as its length says
  have kept : ∀ rest : Bytes, (rest.take (keySize buff + 1).toNat).take (keySize buff).toNat =
      rest.take (keySize buff).toNat := by
    intro rest
    rw [List.take_take, Nat.min_eq_left (by omega)]
  have short : ∀ start count, (cText ((buff.drop start).take count)).length < 2 ^ 31 := by
    intro start count
    refine Nat.lt_of_le_of_lt (Survival.length_cText _) (Nat.lt_of_le_of_lt ?_ small)
    rw [List.length_take, List.length_drop]
    omega
  constructor
  · rintro ⟨reply, run, concludes⟩
    obtain ⟨marshalLength, first, run⟩ := (Outcome.bind_eq_ok _ _ _).mp run
    obtain ⟨keyLength, second, run⟩ := (Outcome.bind_eq_ok _ _ _).mp run
    obtain ⟨_, _, run⟩ := (Outcome.bind_eq_ok _ _ _).mp run
    obtain ⟨marshalled, third, run⟩ := (Outcome.bind_eq_ok _ _ _).mp run
    obtain ⟨_, _, run⟩ := (Outcome.bind_eq_ok _ _ _).mp run
    obtain ⟨key, fourth, run⟩ := (Outcome.bind_eq_ok _ _ _).mp run
    cases run
    obtain ⟨header, inside, whole, rfl, rfl, rfl, rfl⟩ := (slices_iff ..).mp ⟨first, second, third, fourth⟩
    obtain ⟨parsed, _, parses, _⟩ := (concludeCall_zero_iff _).mp concludes
    have parses' : parseKey (cText ((buff.drop (8 + (marshalledSize buff).toNat)).take
        (keySize buff).toNat)) = .ok parsed := by
      rw [← kept]
      exact parses
    exact ⟨header, inside, whole, (Survival.parseKey_finishes_iff _ (short _ _)).mp ⟨parsed, parses'⟩⟩
  · rintro ⟨header, inside, whole, readable⟩
    obtain ⟨first, second, third, fourth⟩ := (slices_iff buff ..).mpr
      ⟨header, inside, whole, rfl, rfl, rfl, rfl⟩
    obtain ⟨parsed, parses⟩ := (Survival.parseKey_finishes_iff _ (short _ _)).mpr readable
    have results : arraySize ((wordOf (buff.take 4)).toInt + 1) = .ok (marshalledSize buff + 1).toNat :=
      (arraySize_ok_iff ..).mpr ⟨by rw [← marshalledSize]; omega, by rw [← marshalledSize]; omega, rfl⟩
    have name : arraySize ((wordOf ((buff.drop 4).take 4)).toInt + 1) = .ok (keySize buff + 1).toNat :=
      (arraySize_ok_iff ..).mpr ⟨by rw [← keySize]; omega, by rw [← keySize]; omega, rfl⟩
    refine ⟨.success ((buff.drop 8).take (marshalledSize buff).toNat)
      (((buff.drop (8 + (marshalledSize buff).toNat)).take (keySize buff + 1).toNat).take
        (keySize buff).toNat), ?_, ?_⟩
    · simp only [takeApart, first, second, third, fourth, results, name, Outcome.ok_bind]
      rfl
    · rw [kept]
      exact (concludeCall_zero_iff _).mpr
        ⟨parsed, _, parses, split_ok _ bar (splittable_of_length _ bar (short _ _))⟩

theorem recvResultsBody_zero_iff (stale : Stale) (server : Link) (length : CInt) :
    (∃ reply left, recvResultsBody stale server length = .ok (reply, left) ∧ concludeCall reply = .ok 0) ↔
      ¬ (length.toInt < 0 ∨ (recvInto server (staleBytes stale length.toInt.toNat)).1 = none ∨
        ¬ ResultsFramed (recvInto server (staleBytes stale length.toInt.toNat)).2.1) := by
  have high := BitVec.toInt_lt (x := length)
  by_cases negative : length.toInt < 0
  · have refused : recvResultsBody stale server length = .error .badSize := by
      rw [recvResultsBody, arraySize, if_neg (by omega)]
      rfl
    simp [refused, negative]
  have filled := recvInto_length server (staleBytes stale length.toInt.toNat)
  rw [length_staleBytes] at filled
  cases received : recvInto server (staleBytes stale length.toInt.toNat) with
  | mk count rest =>
  obtain ⟨buff, after⟩ := rest
  rw [received] at filled
  simp only at filled
  cases count with
  | none =>
      have lost : recvResultsBody stale server length = .ok (.lost errServerClientRecv, after) := by
        rw [recvResultsBody, (arraySize_ok_iff ..).mpr ⟨by omega, by omega, rfl⟩, Outcome.ok_bind, received]
        rfl
      simp only [lost, or_true, true_or, not_true, iff_false]
      rintro ⟨reply, left, run, concludes⟩
      cases run
      cases concludes
  | some count =>
      have body := recvResultsBody_received stale server after length count buff (by omega) received
      have taken := takeApart_zero_iff buff (by omega)
      simp only [body, negative, reduceCtorEq, false_or, not_not]
      rw [← taken]
      constructor
      · rintro ⟨reply, left, run, concludes⟩
        obtain ⟨_, apart, same⟩ := (Outcome.map_eq_ok _ _ _).mp run
        cases same
        exact ⟨reply, apart, concludes⟩
      · rintro ⟨reply, run, concludes⟩
        exact ⟨reply, after, by rw [run]; rfl, concludes⟩

theorem reads_zero_iff (locals : Locals) (server : Link) :
    (∃ reply left, recvExecuteReply locals server = .ok (reply, left) ∧ concludeCall reply = .ok 0) ↔
      ¬ Refused locals server := by
  constructor
  · rintro ⟨reply, left, received, concludes⟩ refused
    rw [recvExecuteReply] at received
    cases refused with
    | flag_lost flag link flagged =>
        rw [flagged] at received
        cases received
        cases concludes
    | failure count flag link flagged failed reason =>
        rw [flagged] at received
        simp only [if_pos failed] at received
        cases received
        exact reason (Except.ok.inj concludes)
    | length_lost count flag link after flagged other sized =>
        rw [flagged] at received
        simp only [if_neg other, recvResults, sized] at received
        cases received
        cases concludes
    | body_refused count flag link after length flagged other sized body =>
        rw [flagged] at received
        simp only [if_neg other, recvResults, sized] at received
        exact (recvResultsBody_zero_iff locals.response after length).mp ⟨reply, left, received, concludes⟩
          body
  · intro accepted
    rw [recvExecuteReply]
    rcases received : recvInto server (staleBytes locals.flag 4) with ⟨_ | count, flag, link⟩
    · exact absurd (.flag_lost flag link received) accepted
    · by_cases failed : wordOf flag = executeFailure
      · by_cases zero : wordOf (recvInto link (staleBytes locals.reasonCode 4)).2.1 = 0
        · simp only [if_pos failed]
          exact ⟨_, _, rfl, congrArg Except.ok zero⟩
        · exact absurd (.failure count flag link received failed zero) accepted
      · simp only [if_neg failed, recvResults]
        rcases sized : recvLength link with ⟨_ | length, after⟩
        · exact absurd (.length_lost count flag link after received failed sized) accepted
        · refine (recvResultsBody_zero_iff locals.response after length).mpr fun body => ?_
          exact accepted (.body_refused count flag link after length received failed sized body)

theorem recvLocationReply_of_success (after : Link)
    (type : ∀ count msgType link, recvInto after (staleBytes locals.msgType 4) =
      (some count, msgType, link) → wordOf msgType = locationSuccess) :
    (recvLocationReply locals after).1 = .lost ∨
      ∃ sName port, (recvLocationReply locals after).1 = .success sName port := by
  rw [recvLocationReply]
  split
  · exact Or.inl rfl
  · rename_i count msgType link typed
    rw [type count msgType link typed, if_neg (by decide), if_pos rfl]
    exact Or.inr ⟨_, _, rfl⟩

theorem recvLocationReply_of_other (after link : Link) (count : Nat) (msgType : Bytes)
    (typed : recvInto after (staleBytes locals.msgType 4) = (some count, msgType, link))
    (other : wordOf msgType ≠ locationSuccess) :
    (recvLocationReply locals after).1 = .other ∨ (recvLocationReply locals after).1 = .failure none 0 ∨
      ∃ got reasonCode, (recvLocationReply locals after).1 = .failure (some got) reasonCode := by
  rw [recvLocationReply, typed]
  by_cases failed : wordOf msgType = locationFailure
  · simp only [if_pos failed]
    have unread := recvInto_failed link [0, 0, 0, 0]
    generalize recvInto link [0, 0, 0, 0] = result at *
    obtain ⟨res, reasonCode, left⟩ := result
    cases res with
    | none =>
        -- the reason code keeps its initial value
        cases unread rfl
        exact Or.inr (Or.inl rfl)
    | some got => exact Or.inr (Or.inr ⟨got, _, rfl⟩)
  · simp only [if_neg failed, if_neg other]
    exact Or.inl trivial

theorem claims_of_other (after link : Link) (count : Nat) (msgType : Bytes)
    (asking : Asking heap network name argTypes after)
    (typed : recvInto after (staleBytes locals.msgType 4) = (some count, msgType, link))
    (other : wordOf msgType ≠ locationSuccess) :
    ClaimsSuccess fp heap locals network name argTypes args := by
  have run := rpcCall_asking fp heap locals network name argTypes args after asking
  rcases recvLocationReply_of_other after link count msgType typed other with
    reply | reply | ⟨got, reasonCode, reply⟩
  · rw [reply] at run
    exact Or.inl ⟨_, run, rfl⟩
  · rw [reply] at run
    exact Or.inl ⟨_, run, rfl⟩
  · exact Or.inr ⟨after, got, reasonCode, asking, reply⟩

theorem not_connected_of_other (after link server : Link) (count : Nat) (msgType : Bytes)
    (typed : recvInto after (staleBytes locals.msgType 4) = (some count, msgType, link))
    (other : wordOf msgType ≠ locationSuccess) : ¬ Connected locals network after server := by
  rintro ⟨sName, port, success, _⟩
  rcases recvLocationReply_of_other after link count msgType typed other with
    reply | reply | ⟨got, reasonCode, reply⟩
  · cases success.symm.trans reply
  · cases success.symm.trans reply
  · cases success.symm.trans reply

theorem returns_ok (called : Called) (ret : CInt) : Returns (.ok called) ret ↔ called.ret = ret := by
  constructor
  · rintro ⟨same, run, returned⟩
    cases run
    exact returned
  · intro returned
    exact ⟨called, rfl, returned⟩

theorem rpcCall_connected (after server : Link) (asking : Asking heap network name argTypes after)
    (connected : Connected locals network after server) :
    rpcCall fp heap locals network name argTypes args = callServer fp locals server name argTypes args := by
  obtain ⟨sName, port, reply, found⟩ := connected
  rw [rpcCall_asking fp heap locals network name argTypes args after asking, reply, located, found]

theorem connected_of_zero (after : Link) (asking : Asking heap network name argTypes after)
    (type : ∀ count msgType link, recvInto after (staleBytes locals.msgType 4) =
      (some count, msgType, link) → wordOf msgType = locationSuccess)
    (zero : Returns (rpcCall fp heap locals network name argTypes args) 0) :
    ∃ server, Connected locals network after server := by
  rw [rpcCall_asking fp heap locals network name argTypes args after asking] at zero
  rcases recvLocationReply_of_success after type with lost | ⟨sName, port, reply⟩
  · rw [lost, located, returns_ok] at zero
    exact absurd (show errBinderRecvFail = 0 from zero) (by decide)
  · rw [reply, located] at zero
    cases found : network.server sName (toStri port.toInt) with
    | none =>
        rw [found, returns_ok] at zero
        exact absurd (show (-1 : CInt) = 0 from zero) (by decide)
    | some server => exact ⟨server, sName, port, reply, found⟩

theorem callServer_frame (server : Link) (value : CInt)
    (returns : Returns (callServer fp locals server name argTypes args) value) :
    ∃ frame, executeRequestFrame fp name argTypes args = .ok frame := by
  obtain ⟨_, run, _⟩ := returns
  obtain ⟨_, sent, _⟩ := (Outcome.bind_eq_ok _ _ _).mp run
  obtain ⟨frame, built, _⟩ := (Outcome.bind_eq_ok _ _ _).mp sent
  exact ⟨frame, built⟩

/-! What has been sent changes nothing of what is read. -/

theorem asking_iff (after : Link) :
    Asking heap network name argTypes after ↔
      ∃ binder m frame, network.binder = .ok binder ∧ createLocationRequest name argTypes = .ok m ∧
        locationRequestFrame heap m = .ok frame ∧ Link.LetsOut binder.departures frame.length ∧
        after = (sendAll binder frame).2.2 := by
  constructor
  · rintro ⟨binder, m, ret, connected, created, sent, went⟩
    obtain ⟨frame, built, sent⟩ := (Outcome.bind_eq_ok _ _ _).mp sent
    have code : (sendAll binder frame).1 = ret := congrArg Prod.fst (Except.ok.inj sent)
    have left : (sendAll binder frame).2.2 = after := congrArg Prod.snd (Except.ok.inj sent)
    refine ⟨binder, m, frame, connected, created, built, (sendAll_zero_iff binder frame).mp ?_, left.symm⟩
    rcases sendAll_returns binder frame with zero | failed
    · exact zero
    · rw [← code, failed] at went
      exact absurd (by decide) went
  · rintro ⟨binder, m, frame, connected, created, built, out, rfl⟩
    refine ⟨binder, m, 0, connected, created, ?_, by decide⟩
    rw [sendLocationRequest, built, Outcome.ok_bind, ← (sendAll_zero_iff binder frame).mpr out]
    rfl

theorem msgType_sendAll (binder : Link) (frame old msgType : Bytes) (count : Nat) :
    (∃ link, recvInto (sendAll binder frame).2.2 old = (some count, msgType, link)) ↔
      ∃ link, recvInto binder old = (some count, msgType, link) := by
  rw [Reception.sendAll_joined, Reception.recvInto_joined]
  simp [Prod.ext_iff]

theorem connected_sendAll (binder server : Link) (frame : Bytes) :
    Connected locals network (sendAll binder frame).2.2 server ↔ Connected locals network binder server := by
  rw [Connected, Reception.sendAll_joined, Reception.recvLocationReply_joined]
  exact Iff.rfl

theorem callServer_zero_iff (server : Link) (frame : Bytes)
    (built : executeRequestFrame fp name argTypes args = .ok frame) :
    Returns (callServer fp locals server name argTypes args) 0 ↔ ¬ Refused locals server := by
  have heard := Reception.hears_executeReply locals server (sendAll server frame).2.2
  rw [← Reception.sendAll_joined] at heard
  rw [← reads_zero_iff, callServer, sendExecuteRequest, built]
  simp only [Outcome.ok_bind, pure_bind, heard]
  constructor
  · rintro ⟨called, run, zero⟩
    obtain ⟨⟨reply, left⟩, received, run⟩ := (Outcome.bind_eq_ok _ _ _).mp run
    obtain ⟨⟨_, before⟩, first, same⟩ := (Outcome.map_eq_ok _ _ _).mp received
    cases same
    obtain ⟨value, concludes, run⟩ := (Outcome.bind_eq_ok _ _ _).mp run
    cases run
    cases zero
    exact ⟨_, before, first, concludes⟩
  · rintro ⟨reply, left, received, concludes⟩
    simp only [received, Except.map, concludes, Outcome.ok_bind]
    exact ⟨_, rfl, rfl⟩

theorem locationSent_iff (stream : Bytes) :
    LocationSent stream ↔
      stream.take 4 = wordBytes locationSuccess ∧ 4 + (maxHostName + 1 + 4) ≤ stream.length := by
  constructor
  · rintro ⟨place, rest, length, rfl⟩
    refine ⟨?_, by simp only [List.length_append, length_wordBytes, length]; omega⟩
    rw [List.append_assoc, List.take_left' (length_wordBytes _)]
  · rintro ⟨type, long⟩
    refine ⟨(stream.drop 4).take (maxHostName + 1 + 4), (stream.drop 4).drop (maxHostName + 1 + 4), ?_, ?_⟩
    · rw [List.length_take, List.length_drop]
      omega
    · rw [← type, List.append_assoc, List.take_append_drop, List.take_append_drop]

theorem requestSent_iff (server : Link) (frame : Bytes)
    (built : executeRequestFrame fp name argTypes args = .ok frame) :
    RequestSent fp name argTypes args server ↔ Link.LetsOut server.departures frame.length := by
  rw [← sendAll_zero_iff]
  obtain ⟨used, delivered⟩ := sendAll_delivered server frame
  have bytes := delivered.bytes
  rw [List.drop_zero, Nat.sub_zero] at bytes
  constructor
  · rintro ⟨_, same, sent⟩
    cases built.symm.trans same
    rcases delivered.returned with ⟨zero, _⟩ | ⟨_, cut, _⟩
    · exact zero
    · have whole := congrArg List.length (List.append_cancel_left (bytes.symm.trans sent))
      rw [List.length_take] at whole
      omega
  · intro zero
    refine ⟨frame, built, ?_⟩
    rcases delivered.returned with ⟨_, whole, _⟩ | ⟨minus, _⟩
    · rw [bytes, whole, List.take_length]
    · exact absurd (zero.symm.trans minus) (by decide)

theorem resultsSent_iff (stream : Bytes) :
    ResultsSent stream ↔ stream.take 4 = wordBytes executeSuccess ∧
      ∃ size < 2 ^ 31, (stream.drop 4).take 4 = lengthBytes size ∧ 8 + size ≤ stream.length := by
  constructor
  · rintro ⟨body, rest, small, rfl⟩
    rw [framed, List.append_assoc, List.append_assoc]
    refine ⟨List.take_left' (length_wordBytes _), body.length, small, ?_, ?_⟩
    · rw [List.drop_left' (length_wordBytes _), List.take_left' (length_lengthBytes _)]
    · simp only [List.length_append, length_wordBytes, length_lengthBytes]
      omega
  · rintro ⟨type, size, small, length, long⟩
    have cut : ((stream.drop 8).take size).length = size := by
      rw [List.length_take, List.length_drop]
      omega
    refine ⟨(stream.drop 8).take size, (stream.drop 8).drop size, by rw [cut]; exact small, ?_⟩
    rw [framed, cut, ← type, ← length, List.append_assoc, List.take_append_drop, List.append_assoc]
    rw [show (8 : Nat) = 4 + 4 from rfl, ← List.drop_drop, List.take_append_drop, List.take_append_drop]

theorem earned_iff (after binder server : Link) (frame : Bytes) (incoming : after.incoming = binder.incoming)
    (built : executeRequestFrame fp name argTypes args = .ok frame) :
    Earned fp name argTypes args after server ↔ Whole binder server frame := by
  constructor
  · rintro ⟨located, requested, answered⟩
    rw [incoming] at located
    exact ⟨(locationSent_iff _).mp located, (requestSent_iff server frame built).mp requested,
      (resultsSent_iff _).mp answered⟩
  · rintro ⟨located, requested, answered⟩
    refine ⟨?_, (requestSent_iff server frame built).mpr requested, (resultsSent_iff _).mpr answered⟩
    rw [incoming]
    exact (locationSent_iff _).mpr located

theorem no_false_success_iff (refused : ∀ code, network.binder = .error code → code.toInt < 0) :
    NoFalseSuccess fp heap locals network name argTypes args ↔
      WellAnswered fp heap locals network name argTypes args := by
  constructor
  · intro honest
    constructor
    · rintro binder count msgType link ⟨m, frame, found, created, built, out⟩ typed
      by_contra other
      have asking := (asking_iff _).mpr ⟨binder, m, frame, found, created, built, out, rfl⟩
      obtain ⟨_, typed'⟩ := (msgType_sendAll binder frame _ msgType count).mpr ⟨link, typed⟩
      obtain ⟨after, server, asking', connected, _⟩ :=
        honest (claims_of_other _ _ count msgType asking typed' other)
      cases asking_unique after _ asking' asking
      exact not_connected_of_other _ _ server count msgType typed' other connected
    · rintro binder server request ⟨m, frame, found, created, built, out⟩ connected framed_request
      have asking := (asking_iff _).mpr ⟨binder, m, frame, found, created, built, out, rfl⟩
      have connected' := (connected_sendAll binder server frame).mpr connected
      by_cases no : Refused locals server
      · exact Or.inl no
      · have zero := (callServer_zero_iff server request framed_request).mpr no
        rw [← rpcCall_connected _ server asking connected'] at zero
        obtain ⟨after, server', asking', connected'', earned⟩ := honest (Or.inl zero)
        cases asking_unique after _ asking' asking
        cases connected_unique _ server' server connected'' connected'
        exact Or.inr ((earned_iff _ binder server request (sendAll_receives binder frame).1
          framed_request).mp earned)
  · intro answered claims
    have type : ∀ after, Asking heap network name argTypes after → ∀ count msgType link,
        recvInto after (staleBytes locals.msgType 4) = (some count, msgType, link) →
        wordOf msgType = locationSuccess := by
      intro after asking count msgType link typed
      obtain ⟨binder, m, frame, found, created, built, out, rfl⟩ := (asking_iff _).mp asking
      obtain ⟨_, typed'⟩ := (msgType_sendAll binder frame _ msgType count).mp ⟨link, typed⟩
      exact answered.type binder count msgType _ ⟨m, frame, found, created, built, out⟩ typed'
    rcases claims with zero | ⟨after, count, reasonCode, asking, reply⟩
    · obtain ⟨after, asking⟩ := asking_of_zero refused zero
      obtain ⟨server, connected⟩ := connected_of_zero after asking (type after asking) zero
      rw [rpcCall_connected after server asking connected] at zero
      obtain ⟨binder, m, frame, found, created, built, out, rfl⟩ := (asking_iff _).mp asking
      obtain ⟨request, framed_request⟩ := callServer_frame server 0 zero
      have whole := (answered.reply binder server request ⟨m, frame, found, created, built, out⟩
        ((connected_sendAll binder server frame).mp connected) framed_request).resolve_left
        ((callServer_zero_iff server request framed_request).mp zero)
      exact ⟨_, server, asking, connected, (earned_iff _ binder server request
        (sendAll_receives binder frame).1 framed_request).mpr whole⟩
    · -- the end is reached only behind another type
      rcases recvLocationReply_of_success after (type after asking) with lost | ⟨sName, port, success⟩
      · cases reply.symm.trans lost
      · cases reply.symm.trans success

end Call

/-! The call of `f` over connections with these bytes, everything arriving whole. -/

def zeroes : Locals := ⟨fun _ => 0, fun _ => 0, fun _ => 0, fun _ => 0, fun _ => 0⟩

def goodNetwork : Network where
  binder := .ok (.delivering (wordBytes locationSuccess ++
    (cStrField [104] (maxHostName + 1) (fun _ => 0) ++ wordBytes 1) ++ []))
  server _ _ := some (.delivering (framed executeSuccess (resultBody noArguments.getKey []) ++ []))

theorem good_earned : NoFalseSuccess .absent [] zeroes goodNetwork [102] noArguments.argTypes [] := by
  refine (no_false_success_iff (fun _ failed => by cases failed)).mpr ⟨?_, ?_⟩
  · rintro binder count msgType link ⟨_, _, connected, _⟩ typed
    cases connected
    cases typed
    rfl
  · rintro binder server frame ⟨_, _, connected, _⟩ ⟨_, _, _, found⟩ _
    cases connected
    cases found
    exact Or.inr ⟨⟨by rfl, by decide⟩, trivial, by rfl, 14, by decide, by rfl, by decide⟩

/-- The binder hangs up, what is in `msg_type` counts as neither answer, and rpcCall
returns 0. -/
theorem hung_up_claimed :
    Returns (rpcCall .absent [] zeroes ⟨.ok (.delivering []), fun _ _ => none⟩ [102]
        noArguments.argTypes []) 0 ∧
      ¬ NoFalseSuccess .absent [] zeroes ⟨.ok (.delivering []), fun _ _ => none⟩ [102]
        noArguments.argTypes [] := by
  have zero : Returns (rpcCall .absent [] zeroes ⟨.ok (.delivering []), fun _ _ => none⟩ [102]
      noArguments.argTypes []) 0 := ⟨_, rfl, rfl⟩
  refine ⟨zero, fun honest => ?_⟩
  obtain ⟨after, server, _, ⟨sName, port, _, found⟩, _⟩ := honest (Or.inl zero)
  cases found

end BinderRpc.FalseSuccess
