import BinderRpc.Frames
import BinderRpc.Transfers

/-!
One call of rpcRegister as a run, and the binder's turn that answers it. What the
call makes of its acknowledgement depends on the four bytes that come and on the
memory of its own process.
-/

namespace BinderRpc.Registering

open Octets Text Signature Socket Database Binder Server Frames Transfers

def arrived (binder : Link) : Bytes := (binder.recv 4).1.getD []

/-- An address after these bytes have been laid over its lowest ones. -/
def overlaid (data : BitVec 64) (bytes : Bytes) : BitVec 64 :=
  BitVec.ofNat 64 (leNat (bytes ++ (leBytes 8 data.toNat).drop bytes.length))

theorem recvFlag_eq (strings : BitVec 64 → Option Bytes) (data : BitVec 64) (binder : Link) :
    recvFlag strings data binder =
      match if overlaid data (arrived binder) = data then some []
        else strings (overlaid data (arrived binder)) with
      | none => .error .dangling
      | some text => .ok (atoi text, overlaid data (arrived binder), (binder.recv 4).2) := by
  have four : ((leBytes 8 data.toNat).take 4).length = 4 := by simp
  have low : Link.filled ((leBytes 8 data.toNat).take 4) (binder.recv 4).1 ++
      (leBytes 8 data.toNat).drop 4 =
      arrived binder ++ (leBytes 8 data.toNat).drop (arrived binder).length := by
    rw [arrived]
    cases received : (binder.recv 4).1 with
    | none => simp [Link.filled]
    | some bytes =>
        have within := Link.length_recv binder 4 bytes received
        have high : ((leBytes 8 data.toNat).take 4).drop bytes.length ++ (leBytes 8 data.toNat).drop 4 =
            (leBytes 8 data.toNat).drop bytes.length := by
          conv_rhs => rw [← List.take_append_drop 4 (leBytes 8 data.toNat)]
          rw [List.drop_append_of_le_length (by rw [four]; exact within)]
        rw [Link.filled, Option.getD_some, List.append_assoc, high]
  rw [recvFlag]
  simp only [StringObject.bytes, recvInto_eq binder _ 4 four, low]
  rw [← overlaid]
  cases (if overlaid data (arrived binder) = data then some []
    else strings (overlaid data (arrived binder))) <;> rfl

theorem recvFlag_ok_iff (strings : BitVec 64 → Option Bytes) (data pointer : BitVec 64)
    (binder left : Link) (flag : CInt) :
    recvFlag strings data binder = .ok (flag, pointer, left) ↔
      pointer = overlaid data (arrived binder) ∧ left = (binder.recv 4).2 ∧
        ∃ text, (if pointer = data then some [] else strings pointer) = some text ∧
          flag = atoi text := by
  rw [recvFlag_eq]
  constructor
  · intro received
    split at received
    · cases received
    · rename_i text there
      cases received
      exact ⟨rfl, rfl, text, there, rfl⟩
  · rintro ⟨rfl, rfl, text, there, rfl⟩
    rw [there]

theorem arrived_sendAll (binder : Link) (buf : Bytes) :
    arrived (sendAll binder buf).2.2 = arrived binder := by
  obtain ⟨incoming, arrivals⟩ := sendAll_receives binder buf
  rw [arrived, arrived, Link.recv_congr _ binder 4 incoming arrivals]

theorem createRegisterMessage_fits (s : Server) (hostBeyond nameBeyond : Stale) (func : Function)
    (fits : func.getKey.length + 143 < 2 ^ 31) :
    ∃ m, s.createRegisterMessage hostBeyond nameBeyond func = .ok m ∧
      m.buff.length = func.getKey.length + 143 := by
  have total : intOfSize (maxHostName + 1 + maxFuncName + 1 + (func.getKey.length + 1) + 12) =
      .ok (maxHostName + 1 + maxFuncName + 1 + (func.getKey.length + 1) + 12) := by
    rw [intOfSize, if_pos]
    simp only [maxHostName, maxFuncName]
    omega
  have built : ∃ m, s.createRegisterMessage hostBeyond nameBeyond func = .ok m := by
    rw [createRegisterMessage, total]
    exact ⟨_, rfl⟩
  obtain ⟨m, built⟩ := built
  obtain ⟨_, buff, _⟩ := createRegisterMessage_ok s hostBeyond nameBeyond func m built
  refine ⟨m, built, ?_⟩
  rw [buff, length_framed, length_registerBody]

theorem sendRegisterRequest_eq (s : Server) (hostBeyond nameBeyond : Stale) (func : Function)
    (m : RegisterMessage) (binder : Link)
    (built : s.createRegisterMessage hostBeyond nameBeyond func = .ok m) :
    sendRegisterRequest m binder =
      (if (sendAll binder m.buff).1 = -1 then -8 else 0, (sendAll binder m.buff).2.2) := by
  obtain ⟨_, _, length⟩ := createRegisterMessage_ok s hostBeyond nameBeyond func m built
  rw [sendRegisterRequest, length, List.take_length]

structure RegisterCall (Skel : Type) where
  process : Process
  name : Bytes
  argTypes : ArgTypes
  f : Skel

section Call

variable {Skel : Type}

def RegisterCall.func (call : RegisterCall Skel) : Function := ⟨call.name, call.argTypes⟩

def RegisterCall.message (call : RegisterCall Skel) (s : Server) : Except Fault RegisterMessage :=
  s.createRegisterMessage call.process.hostBeyond call.process.nameBeyond call.func

def RegisterCall.run (call : RegisterCall Skel) (s : Server) (db : ServerDB Skel) (binder : Link) :
    Except Fault (CInt × ServerDB Skel × Link) :=
  rpcRegister call.process s db binder call.name call.argTypes call.f

theorem RegisterCall.run_sent (call : RegisterCall Skel) (s : Server) (db : ServerDB Skel)
    (binder : Link) (m : RegisterMessage) (built : call.message s = .ok m)
    (out : (sendAll binder m.buff).1 = 0) :
    call.run s db binder = do
      let (flag, pointer, left) ←
        recvFlag call.process.strings call.process.data (sendAll binder m.buff).2.2
      call.process.destroyFlag pointer
      return ((concludeRegister db flag call.func call.f).1,
        (concludeRegister db flag call.func call.f).2, left) := by
  have sent := sendRegisterRequest_eq s _ _ call.func m binder built
  rw [out, if_neg (by decide)] at sent
  rw [RegisterCall.message, RegisterCall.func] at built
  rw [RegisterCall.run, rpcRegister, built, Outcome.ok_bind, sent]
  rfl

theorem RegisterCall.run_unsent (call : RegisterCall Skel) (s : Server) (db : ServerDB Skel)
    (binder : Link) (m : RegisterMessage) (built : call.message s = .ok m)
    (failed : (sendAll binder m.buff).1 = -1) :
    call.run s db binder = .ok (registerFailure, db, (sendAll binder m.buff).2.2) := by
  have sent := sendRegisterRequest_eq s _ _ call.func m binder built
  rw [failed, if_pos rfl] at sent
  rw [RegisterCall.message, RegisterCall.func] at built
  rw [RegisterCall.run, rpcRegister, built, Outcome.ok_bind, sent]
  rfl

/-- What a call does that returns on a connection that takes what it sends: the
message, the flag it goes by, and the tables it leaves. -/
def Registers (s : Server) (db : ServerDB Skel) (call : RegisterCall Skel) (message : Bytes)
    (flag : CInt) (after : ServerDB Skel) : Prop :=
  ∃ binder ret pointer left, binder.Clear ∧ call.run s db binder = .ok (ret, after, left) ∧
    left.sent = binder.sent ++ message ∧
    recvFlag call.process.strings call.process.data { binder with sent := left.sent } =
      .ok (flag, pointer, left)

theorem registers_step (s : Server) (db after : ServerDB Skel) (call : RegisterCall Skel)
    (message : Bytes) (flag : CInt) (run : Registers s db call message flag after) :
    (∃ m, call.message s = .ok m ∧ message = m.buff) ∧
      after = (concludeRegister db flag call.func call.f).2 := by
  obtain ⟨binder, ret, pointer, left, clear, run, sent, flagged⟩ := run
  have started := run
  obtain ⟨m, built, _⟩ := (Outcome.bind_eq_ok _ _ _).mp started
  have out := sendAll_clear binder m.buff clear
  rw [call.run_sent s db binder m built (by rw [out]), out] at run
  obtain ⟨⟨flag', pointer', left'⟩, received, run⟩ := (Outcome.bind_eq_ok _ _ _).mp run
  obtain ⟨_, _, run⟩ := (Outcome.bind_eq_ok _ _ _).mp run
  cases run
  -- receiving the flag leaves what was sent alone
  obtain ⟨_, rfl, _⟩ := (recvFlag_ok_iff ..).mp received
  have kept := Link.recv_sent { binder with sent := binder.sent ++ m.buff } 4
  rw [kept] at flagged
  cases received.symm.trans flagged
  exact ⟨⟨m, built, List.append_cancel_left (sent.symm.trans kept)⟩, rfl⟩

theorem registers_of_flag (s : Server) (db : ServerDB Skel) (call : RegisterCall Skel)
    (m : RegisterMessage) (binder left : Link) (flag : CInt) (pointer : BitVec 64)
    (built : call.message s = .ok m) (clear : binder.Clear)
    (received : recvFlag call.process.strings call.process.data
      { binder with sent := binder.sent ++ m.buff } = .ok (flag, pointer, left))
    (freed : call.process.destroyFlag pointer = .ok ()) :
    Registers s db call m.buff flag (concludeRegister db flag call.func call.f).2 := by
  have out := sendAll_clear binder m.buff clear
  obtain ⟨_, same, _⟩ := (recvFlag_ok_iff ..).mp received
  have kept : left.sent = binder.sent ++ m.buff := by
    rw [same, Link.recv_sent]
  have run := call.run_sent s db binder m built (by rw [out])
  rw [out, received, Outcome.ok_bind] at run
  simp only [freed, Outcome.ok_bind] at run
  exact ⟨binder, _, pointer, left, clear, run, kept, by rw [kept, received]⟩

def Begins (s : Server) (db : ServerDB Skel) (call : RegisterCall Skel) (message : Bytes) : Prop :=
  ∃ flag after, Registers s db call message flag after

theorem overlaid_nothing (data : BitVec 64) : overlaid data [] = data := by
  have small : data.toNat < 256 ^ 8 := data.isLt
  rw [overlaid, List.length_nil, List.drop_zero, List.nil_append, leNat_leBytes,
    Nat.mod_eq_of_lt small, BitVec.ofNat_toNat, BitVec.setWidth_eq]

/-- Any message that can be built goes out, also to a binder that hangs up. -/
theorem begins_iff (s : Server) (db : ServerDB Skel) (call : RegisterCall Skel) (message : Bytes) :
    Begins s db call message ↔ ∃ m, call.message s = .ok m ∧ message = m.buff := by
  constructor
  · rintro ⟨flag, after, run⟩
    exact (registers_step s db after call message flag run).1
  · rintro ⟨m, built, rfl⟩
    have none : arrived { Link.delivering [] with sent := m.buff } = [] := rfl
    have received : recvFlag call.process.strings call.process.data
        { Link.delivering [] with sent := m.buff } =
        .ok (atoi [], call.process.data, { Link.delivering [] with sent := m.buff }) := by
      rw [recvFlag_eq, none, overlaid_nothing, if_pos rfl]
      rfl
    have freed : call.process.destroyFlag call.process.data = .ok () := if_pos (Or.inl rfl)
    exact ⟨_, _, registers_of_flag s db call m (.delivering []) _ _ _ built rfl received freed⟩

/-! A process in which any flag can be read: behind an address stands the number
in its low half. -/

def literal : Process where
  strings pointer := some (toStri (pointer.setWidth 32).toInt)
  blocks _ := true
  data := BitVec.ofNat 64 (2 ^ 32)
  hostBeyond _ := 0
  nameBeyond _ := 0

theorem overlaid_literal (flag : CInt) :
    overlaid literal.data (leBytes 4 flag.toNat) = BitVec.ofNat 64 (flag.toNat + 2 ^ 32) := by
  have small : flag.toNat < 256 ^ 4 := flag.isLt
  have high : (leBytes 8 literal.data.toNat).drop (leBytes 4 flag.toNat).length = [1, 0, 0, 0] := by
    rw [length_leBytes]
    rfl
  rw [overlaid, high, leNat_append, leNat_leBytes, length_leBytes, Nat.mod_eq_of_lt small]
  rfl

theorem atoi_toStri (flag : CInt) : atoi (toStri flag.toInt) = flag := by
  have low := BitVec.le_toInt flag
  have high := BitVec.toInt_lt (x := flag)
  rw [atoi, toStri, cText_eq_self _ (nul_not_in_decimal _), Decimal.readInt_decimal, Option.getD_some,
    min_eq_left (by omega), max_eq_right (by omega), BitVec.ofInt_toInt]

theorem literal_reads (flag : CInt) (binder : Link) (prompt : binder.Prompt) (rest : Bytes)
    (stream : binder.incoming = leBytes 4 flag.toNat ++ rest) :
    ∃ pointer left, recvFlag literal.strings literal.data binder = .ok (flag, pointer, left) := by
  have received := Link.recv_front binder _ rest 4 prompt stream (length_leBytes 4 _)
  have came : arrived binder = leBytes 4 flag.toNat := by
    rw [arrived, received]
    rfl
  refine ⟨_, _, (recvFlag_ok_iff ..).mpr ⟨rfl, rfl, ?_⟩⟩
  rw [came, overlaid_literal]
  by_cases own : BitVec.ofNat 64 (flag.toNat + 2 ^ 32) = literal.data
  · -- nothing but 0 leaves the string where it is
    have zero : flag = 0 := by
      have same := congrArg BitVec.toNat own
      have small := flag.isLt
      simp only [literal, BitVec.toNat_ofNat] at same
      apply BitVec.eq_of_toNat_eq
      change flag.toNat = 0
      omega
    subst zero
    exact ⟨[], if_pos own, rfl⟩
  · refine ⟨toStri flag.toInt, ?_, (atoi_toStri flag).symm⟩
    have narrowed : (BitVec.ofNat 64 (flag.toNat + 2 ^ 32)).setWidth 32 = flag := by
      apply BitVec.eq_of_toNat_eq
      have small := flag.isLt
      rw [BitVec.toNat_setWidth, BitVec.toNat_ofNat]
      omega
    rw [if_neg own]
    simp only [literal, narrowed]

/-- In such a process a call can go by any flag. -/
theorem literal_registers (s : Server) (db : ServerDB Skel) (call : RegisterCall Skel)
    (m : RegisterMessage) (flag : CInt) (plain : call.process = literal) (built : call.message s = .ok m) :
    Registers s db call m.buff flag (concludeRegister db flag call.func call.f).2 := by
  obtain ⟨pointer, left, received⟩ := literal_reads flag
    { Link.delivering (leBytes 4 flag.toNat) with sent := m.buff } rfl [] (List.append_nil _).symm
  rw [← plain] at received
  have freed : call.process.destroyFlag pointer = .ok () := by
    rw [plain]
    exact if_pos (Or.inr rfl)
  exact registers_of_flag s db call m (.delivering (leBytes 4 flag.toNat)) left flag pointer built rfl
    received freed

end Call

def TurnReads (scratch : Scratch) (socket : Link) (request : RegisterRequest) : Prop :=
  ∃ typed length sized read,
    recvType scratch.messageType socket = (some register, typed) ∧
    recvLength typed = (some length, sized) ∧
    recvRegisterRequest scratch.request sized length = .ok (some request, read)

/-- What a turn does that reads this message from a connection that delivers it
whole: the flag it decides, and the database after it. -/
def Processes (db : BinderDB) (message : Bytes) (flag : CInt) (after : BinderDB) : Prop :=
  ∃ scratch socket rest request ret left, socket.Prompt ∧ socket.incoming = message ++ rest ∧
    TurnReads scratch socket request ∧ initTurn scratch db socket = .ok (some (ret, after, left)) ∧
    (db.updateDb request.fName request.sName request.port request.key).1 = flag

theorem initTurn_register (scratch : Scratch) (db : BinderDB) (socket : Link)
    (request : RegisterRequest) (reads : TurnReads scratch socket request) :
    ∃ ret left, initTurn scratch db socket = .ok (some (ret,
      (db.updateDb request.fName request.sName request.port request.key).2, left)) := by
  obtain ⟨typed, length, sized, read, type, size, body⟩ := reads
  rw [initTurn, type]
  simp only [Binder.handleRequest, if_true, size, receiveRegisterRequest, body, Outcome.ok_bind]
  exact ⟨_, _, rfl⟩

theorem turnReads_message (s : Server) (host : HostText s.host) (func : Function)
    (name_free : 0 ∉ func.name) (hostBeyond nameBeyond : Stale) (m : RegisterMessage)
    (built : s.createRegisterMessage hostBeyond nameBeyond func = .ok m) (scratch : Scratch)
    (socket : Link) (prompt : socket.Prompt) (rest : Bytes) (stream : socket.incoming = m.buff ++ rest)
    (request : RegisterRequest) :
    TurnReads scratch socket request ↔
      request = ⟨s.host, s.port, func.name.take maxFuncName, func.getKey⟩ := by
  obtain ⟨fits, buff, _⟩ := createRegisterMessage_ok s hostBeyond nameBeyond func m built
  rw [buff, framed, List.append_assoc, List.append_assoc] at stream
  have type := recvType_front scratch.messageType socket register _ prompt stream
  have length := recvLength_front { socket with
    incoming := lengthBytes (registerBody s hostBeyond nameBeyond func).length ++
      (registerBody s hostBeyond nameBeyond func ++ rest) } _ _ prompt rfl
  have body := recvRegisterRequest_body scratch.request { socket with
    incoming := registerBody s hostBeyond nameBeyond func ++ rest } s hostBeyond nameBeyond func rest
    prompt rfl host.2 name_free fits
  rw [List.take_of_length_le host.1] at body
  constructor
  · rintro ⟨typed, size, sized, read, first, second, third⟩
    cases type.symm.trans first
    cases length.symm.trans second
    cases body.symm.trans third
    rfl
  · rintro rfl
    exact ⟨_, _, _, _, type, length, body⟩

theorem processes_iff {Skel : Type} (s : Server) (host : HostText s.host) (call : RegisterCall Skel)
    (name_free : 0 ∉ call.name) (m : RegisterMessage) (built : call.message s = .ok m) (db after : BinderDB)
    (flag : CInt) :
    Processes db m.buff flag after ↔
      flag = (db.updateDb (call.name.take maxFuncName) s.host s.port call.func.getKey).1 ∧
        after = (db.updateDb (call.name.take maxFuncName) s.host s.port call.func.getKey).2 := by
  have reads := turnReads_message s host call.func name_free _ _ m built
  constructor
  · rintro ⟨scratch, socket, rest, request, ret, left, prompt, stream, read, run, rfl⟩
    obtain ⟨ret', left', turn⟩ := initTurn_register scratch db socket request read
    cases turn.symm.trans run
    rw [(reads scratch socket prompt rest stream request).mp read]
    exact ⟨rfl, rfl⟩
  · rintro ⟨rfl, rfl⟩
    have read := (reads ⟨fun _ => 0, fun _ => 0, fun _ => 0, 0⟩ (.delivering m.buff) rfl []
      (List.append_nil _).symm _).mpr rfl
    obtain ⟨ret, left, turn⟩ := initTurn_register _ db _ _ read
    exact ⟨_, .delivering m.buff, [], _, ret, left, rfl, (List.append_nil _).symm, read, turn, rfl⟩

end BinderRpc.Registering
