import BinderRpc.Agreement
import BinderRpc.ServerLoop
import BinderRpc.Tables

/-!
Everything at once: one binder, servers that register, and clients that ask the
binder for an address and then send their request there, all of it interleaved.
What a server makes of its acknowledgement is left open (`ack`), because the four
bytes are not the flag. Messages arrive whole.
-/

namespace BinderRpc.Deployment

open Octets Text Signature Marshal Socket Database Binder Server Client Frames Registry Location
  Registering Agreement Dispatch Tables ServerLoop

/-! What a client brings about at the binder and at a server. -/

/-- The key that a turn of the binder reads from a location request. -/
def TurnLocates (scratch : Scratch) (socket : Link) (key : Bytes) : Prop :=
  ∃ typed length sized read,
    recvType scratch.messageType socket = (some locationRequest, typed) ∧
    recvLength typed = (some length, sized) ∧
    recvLocationRequest scratch.request sized length = .ok (some key, read)

/-- A turn of the binder on the location request for `func`: the key it takes from
the message, what the client makes of the answer, and the database after it. -/
def Locates (db : BinderDB) (func : Function) (key : Bytes) (reply : LocationReply) (after : BinderDB) :
    Prop :=
  ∃ heap m frame scratch socket rest ret left locals client done,
    createLocationRequest func.name func.argTypes = .ok m ∧ locationRequestFrame heap m = .ok frame ∧
    socket.Prompt ∧ socket.Clear ∧ socket.incoming = frame ++ rest ∧ TurnLocates scratch socket key ∧
    initTurn scratch db socket = .ok (some (ret, after, left)) ∧
    client.Prompt ∧ left.sent = socket.sent ++ client.incoming ∧
    recvLocationReply locals client = (reply, done)

/-- A turn of a server on an execute request for `func`, with any arguments. -/
def Executes (db : ServerDB Skeleton) (func : Function) (served : Served) : Prop :=
  ∃ fp args frame memory socket rest, executeRequestFrame fp func.name func.argTypes args = .ok frame ∧
    socket.Prompt ∧ socket.incoming = frame ++ rest ∧
    rpcExecuteTurn fp memory db socket = .ok (some served)

theorem turnLocates_request (scratch : Scratch) (socket : Link) (func : Function) (rest key : Bytes)
    (prompt : socket.Prompt) (stream : socket.incoming = framed locationRequest (keyBody func) ++ rest)
    (free : 0 ∉ func.name) (fits : func.getKey.length + 2 < 2 ^ 31) :
    TurnLocates scratch socket key ↔ key = func.getKey := by
  rw [framed, List.append_assoc, List.append_assoc] at stream
  have type := recvType_front scratch.messageType socket locationRequest _ prompt stream
  have length := recvLength_front
    { socket with incoming := lengthBytes (keyBody func).length ++ (keyBody func ++ rest) } _ _ prompt rfl
  have body := recvLocationRequest_body scratch.request
    { socket with incoming := keyBody func ++ rest } func.getKey rest prompt rfl
    (nul_not_in_getKey func free) fits
  constructor
  · rintro ⟨typed, size, sized, read, first, second, third⟩
    cases type.symm.trans first
    cases length.symm.trans second
    cases body.symm.trans third
    rfl
  · rintro rfl
    exact ⟨_, _, _, _, type, length, body⟩

/-- The answer that arrives whole names the first server of the list of the key, and
the key of a short name arrives as it is. -/
theorem locates_step (db after : BinderDB) (func : Function) (key : Bytes) (reply : LocationReply)
    (nonempty : ∀ key, db.lookup key ≠ some [])
    (hosts : ∀ key, ∀ s ∈ (db.lookup key).getD [], HostText s.host) (free : 0 ∉ func.name)
    (turn : Locates db func key reply after) :
    after = db ∧ reply = answer ((db.lookup key).getD []).head? ∧
      (func.name.length ≤ 63 → key = func.getKey) := by
  obtain ⟨heap, m, frame, scratch, socket, rest, ret, left, locals, client, done, created, built, prompt,
    clear, stream, read, turn, listening, arrived, heard⟩ := turn
  obtain ⟨asked, rebuilt, fits, rfl⟩ := locationRequestFrame_ok heap m frame built
  have type : m.type = locationRequest := by
    obtain ⟨_, _, made⟩ := (Outcome.bind_eq_ok _ _ _).mp created
    cases made
    rfl
  rw [type] at stream
  have asked_free := locationFunction_free heap m asked rebuilt
  have taken := (turnLocates_request scratch socket asked rest key prompt stream asked_free (by omega)).mp
    read
  subst taken
  have answered := sendLocationResponse_clear scratch.beyond db { socket with incoming := rest }
    asked.getKey clear (nonempty asked.getKey)
  rw [initTurn_request scratch db socket asked.getKey rest prompt stream
    (nul_not_in_getKey asked asked_free) (by omega), answered] at turn
  cases turn
  have reads := recvLocationReply_answer locals client scratch.beyond
    ((db.lookup asked.getKey).getD []).head? [] listening
    ((List.append_cancel_left arrived).symm.trans (List.append_nil _).symm)
    (fun server first => hosts _ server (List.mem_of_head? first))
  refine ⟨rfl, congrArg Prod.fst (heard.symm.trans reads), fun short => ?_⟩
  obtain ⟨name, argTypes⟩ := func
  rw [Naming.createLocationRequest_short name argTypes short] at created
  cases created
  rw [Naming.locationFunction_short heap name argTypes free] at rebuilt
  cases rebuilt
  rfl

theorem locates_completes (db : BinderDB) (func : Function)
    (nonempty : ∀ key, db.lookup key ≠ some [])
    (hosts : ∀ key, ∀ s ∈ (db.lookup key).getD [], HostText s.host) (free : 0 ∉ func.name)
    (short : func.name.length ≤ 63) (fits : func.getKey.length + 9 < 2 ^ 31) :
    Locates db func func.getKey (answer ((db.lookup func.getKey).getD []).head?) db := by
  obtain ⟨name, argTypes⟩ := func
  have created := Naming.createLocationRequest_short name argTypes short
  have frame : locationRequestFrame [] ⟨locationRequest, name.length + 1, scanLength argTypes.array,
      name ++ [0], argTypes⟩ = .ok (framed locationRequest (keyBody ⟨name, argTypes⟩)) := by
    have length : intOfSize ((Function.mk name argTypes).getKey.length + 1 + 8) =
        .ok ((Function.mk name argTypes).getKey.length + 9) := if_pos fits
    rw [locationRequestFrame, Naming.locationFunction_short [] name argTypes free]
    simp only [Outcome.ok_bind, length]
    rw [framed, keyBody, List.length_append]
    rfl
  have key_free := nul_not_in_getKey ⟨name, argTypes⟩ free
  let scratch : Scratch := ⟨fun _ => 0, fun _ => 0, fun _ => 0, 0⟩
  let socket : Link := .delivering (framed locationRequest (keyBody ⟨name, argTypes⟩))
  have stream : socket.incoming = framed locationRequest (keyBody ⟨name, argTypes⟩) ++ [] :=
    (List.append_nil _).symm
  have read := (turnLocates_request scratch socket ⟨name, argTypes⟩ [] _ rfl stream free (by omega)).mpr rfl
  have answered := sendLocationResponse_clear scratch.beyond db (.delivering [])
    (Function.mk name argTypes).getKey rfl (nonempty _)
  have turn := (initTurn_request scratch db socket (Function.mk name argTypes).getKey [] rfl stream key_free
    (by omega)).trans (congrArg (Except.map some) answered)
  -- the client reads what the binder has sent
  let client : Link := .delivering (answerBytes scratch.beyond
    ((db.lookup (Function.mk name argTypes).getKey).getD []).head?)
  have heard := recvLocationReply_answer ⟨fun _ => 0, fun _ => 0, fun _ => 0, fun _ => 0, fun _ => 0⟩ client
    scratch.beyond _ [] rfl (List.append_nil _).symm
    (fun server first => hosts _ server (List.mem_of_head? first))
  exact ⟨[], _, _, scratch, socket, [], _, _, _, client, _, created, frame, rfl, rfl, stream, read, turn,
    rfl, rfl, heard⟩

structure Asking where
  func : Function
  /-- The key the binder took from its request. -/
  key : Bytes
  reply : LocationReply

structure Outcome (ι : Type) where
  server : ι
  asking : Asking
  calls : List Call

structure World (ι κ : Type) where
  binder : BinderDB
  tables : ι → ServerDB Skeleton
  phase : ι → Phase Skeleton
  /-- The completed calls of rpcRegister, with the flag each went by. -/
  concluded : ι → List Update
  asking : κ → Option Asking
  outcomes : List (Outcome ι)

variable {ι κ : Type} [DecidableEq ι] [DecidableEq κ]

def World.start : World ι κ where
  binder := BinderDB.empty
  tables _ := ServerDB.empty Skeleton
  phase _ := .idle
  concluded _ := []
  asking _ := none
  outcomes := []

/-- `ack flag got`: a server may go by `got` where the binder decided `flag`. -/
inductive Step (address : ι → Server) (ack : CInt → CInt → Prop) (w : World ι κ) : World ι κ → Prop where
  | request (i : ι) (call : RegisterCall Skeleton) (message : Bytes) (idle : w.phase i = .idle)
      (name_free : 0 ∉ call.name) (begins : Begins (address i) (w.tables i) call message) :
      Step address ack w { w with phase := Function.update w.phase i (.requested call message) }
  | process (i : ι) (call : RegisterCall Skeleton) (message : Bytes) (flag : CInt) (after : BinderDB)
      (waiting : w.phase i = .requested call message) (turn : Processes w.binder message flag after) :
      Step address ack w
        { w with
          binder := after
          phase := Function.update w.phase i (.answered call message flag) }
  | conclude (i : ι) (call : RegisterCall Skeleton) (message : Bytes) (flag got : CInt)
      (after : ServerDB Skeleton) (waiting : w.phase i = .answered call message flag)
      (told : ack flag got) (run : Registers (address i) (w.tables i) call message got after) :
      Step address ack w
        { w with
          tables := Function.update w.tables i after
          phase := Function.update w.phase i .idle
          concluded := Function.update w.concluded i (w.concluded i ++ [⟨got, call.func, call.f⟩]) }
  | locate (j : κ) (func : Function) (key : Bytes) (reply : LocationReply) (after : BinderDB)
      (name_free : 0 ∉ func.name) (turn : Locates w.binder func key reply after) :
      Step address ack w
        { w with binder := after, asking := Function.update w.asking j (some ⟨func, key, reply⟩) }
  | execute (j : κ) (i : ι) (asking : Asking) (served : Served) (located : w.asking j = some asking)
      (reached : asking.reply = .success (address i).host (address i).port)
      (turn : Executes (w.tables i) asking.func served) :
      Step address ack w
        { w with
          tables := Function.update w.tables i served.db
          asking := Function.update w.asking j none
          outcomes := w.outcomes ++ [⟨i, asking, served.calls⟩] }

def Reachable (address : ι → Server) (ack : CInt → CInt → Prop) (w : World ι κ) : Prop :=
  Runs.Reached (· = World.start) (Step address ack) w

def Enlisted (address : ι → Server) (w : World ι κ) (i : ι) (key : Bytes) : Prop :=
  info (address i) ∈ (w.binder.lookup key).getD []

/-- The calls that came to ServerDB::update_db. -/
def recorded (concluded : List Update) : List Update :=
  concluded.filter fun u => u.flag ≠ registerFailure

/-- The server is through with a call for the key, or the binder is. -/
def Announced (w : World ι κ) (i : ι) (key : Bytes) : Prop :=
  (∃ u ∈ w.concluded i, u.func.getKey = key) ∨
    ∃ call message flag, w.phase i = .answered call message flag ∧ call.func.getKey = key

/-- The request was executed by nothing but a skeleton that this server has
registered under the key of the client's own function. -/
structure Executed (concluded : ι → List Update) (outcome : Outcome ι) : Prop where
  once : outcome.calls.length ≤ 1
  skeleton : ∀ call ∈ outcome.calls, ∃ u ∈ concluded outcome.server,
    u.func.getKey = outcome.asking.func.getKey ∧ u.f = call.q

structure Invariant (address : ι → Server) (w : World ι κ) : Prop where
  nonempty : ∀ key, w.binder.lookup key ≠ some []
  messages : ∀ i call message, w.phase i = .requested call message →
    0 ∉ call.name ∧ ∃ m, call.message (address i) = .ok m ∧ message = m.buff
  tables : ∀ i, w.tables i = Dispatch.replay (recorded (w.concluded i))
  listed : ∀ key, ∀ s ∈ (w.binder.lookup key).getD [], ∃ i, s = info (address i)
  enlisted : ∀ i key, Enlisted address w i key ↔ Announced w i key
  located : ∀ j asking, w.asking j = some asking → 0 ∉ asking.func.name ∧
    (asking.func.name.length ≤ 63 → asking.key = asking.func.getKey) ∧
    ∀ sName port, asking.reply = .success sName port →
      ∃ i, (address i).host = sName ∧ (address i).port = port ∧ Enlisted address w i asking.key
  outcomes : ∀ outcome ∈ w.outcomes, Enlisted address w outcome.server outcome.asking.key ∧
    Executed w.concluded outcome

omit [DecidableEq ι] [DecidableEq κ] in
theorem invariant_start (address : ι → Server) : Invariant address (World.start : World ι κ) := by
  constructor
  · intro key
    simp [World.start, BinderDB.empty]
  · intro i call message waiting
    cases waiting
  · intro i
    rfl
  · intro key s member
    cases member
  · intro i key
    simp [Enlisted, Announced, World.start, BinderDB.empty]
  · intro j asking located
    cases located
  · intro outcome member
    cases member

section Steps
variable (address : ι → Server) (w : World ι κ)

omit [DecidableEq κ] in
theorem announced_update (i j : ι) (key : Bytes) (phase : Phase Skeleton) :
    Announced { w with phase := Function.update w.phase i phase } j key ↔
      if j = i then (∃ u ∈ w.concluded i, u.func.getKey = key) ∨
        ∃ call message flag, phase = .answered call message flag ∧ call.func.getKey = key
      else Announced w j key := by
  by_cases same : j = i
  · subst same
    simp only [Announced, Function.update_self, if_true]
  · simp only [Announced, Function.update_of_ne same, if_neg same]

omit [DecidableEq κ] in
theorem invariant_request (i : ι) (call : RegisterCall Skeleton) (message : Bytes)
    (idle : w.phase i = .idle) (name_free : 0 ∉ call.name)
    (begins : Begins (address i) (w.tables i) call message) (before : Invariant address w) :
    Invariant address { w with phase := Function.update w.phase i (.requested call message) } where
  nonempty := before.nonempty
  messages := by
    intro j call' message' waiting
    rcases update_cases w.phase i j _ _ waiting with ⟨rfl, sent⟩ | ⟨_, waiting⟩
    · cases sent
      exact ⟨name_free, (begins_iff (address j) (w.tables j) call message).mp begins⟩
    · exact before.messages j call' message' waiting
  tables := before.tables
  listed := before.listed
  enlisted := by
    intro j key
    refine (before.enlisted j key).trans ?_
    rw [announced_update]
    by_cases same : j = i
    · subst same
      simp [Announced, idle]
    · rw [if_neg same]
  located := before.located
  outcomes := before.outcomes

omit [DecidableEq κ] in
theorem invariant_process (addressed : Addressed address) (i : ι) (call : RegisterCall Skeleton)
    (message : Bytes) (flag : CInt) (after : BinderDB) (waiting : w.phase i = .requested call message)
    (turn : Processes w.binder message flag after) (before : Invariant address w) :
    Invariant address
      { w with
        binder := after
        phase := Function.update w.phase i (.answered call message flag) } := by
  obtain ⟨name_free, m, built, rfl⟩ := before.messages i call message waiting
  obtain ⟨_, rfl⟩ := (processes_iff (address i) (addressed.hosts i) call name_free m built w.binder after
    flag).mp turn
  have members := mem_updateDb w.binder (call.name.take maxFuncName) (address i).host (address i).port
    call.func.getKey before.nonempty
  have kept : ∀ j key, Enlisted address w j key → info (address j) ∈
      ((w.binder.updateDb (call.name.take maxFuncName) (address i).host (address i).port
        call.func.getKey).2.lookup key).getD [] := fun j key old => (members key _).mpr (Or.inr old)
  constructor
  · exact nonempty_updateDb w.binder _ _ _ _ before.nonempty
  · intro j call' message' other
    rcases update_cases w.phase i j _ _ other with ⟨_, moved⟩ | ⟨_, other⟩
    · cases moved
    · exact before.messages j call' message' other
  · exact before.tables
  · intro key s member
    rcases (members key s).mp member with ⟨_, rfl⟩ | old
    · exact ⟨i, rfl⟩
    · exact before.listed key s old
  · intro j key
    refine (members key (info (address j))).trans ?_
    refine Iff.trans ?_ (announced_update w i j key _).symm
    by_cases same : j = i
    · subst same
      have old := before.enlisted j key
      rw [Enlisted] at old
      have answers : key = call.func.getKey ↔ call.func.getKey = key := eq_comm
      rw [old]
      simp [info, Announced, waiting, answers, or_comm]
    · rw [if_neg same, ← before.enlisted j key, Enlisted]
      constructor
      · rintro (⟨_, equal⟩ | old)
        · have fields := ServerInfo.mk.inj equal
          exact absurd (addressed.distinct j i fields.1 fields.2) same
        · exact old
      · exact Or.inr
  · intro j asking located
    obtain ⟨free, short, names⟩ := before.located j asking located
    refine ⟨free, short, ?_⟩
    intro sName port success
    obtain ⟨i, host, at_port, old⟩ := names sName port success
    exact ⟨i, host, at_port, kept i _ old⟩
  · intro outcome member
    obtain ⟨old, executed⟩ := before.outcomes outcome member
    exact ⟨kept _ _ old, executed⟩

omit [DecidableEq κ] in
theorem invariant_conclude (i : ι) (call : RegisterCall Skeleton) (message : Bytes) (flag got : CInt)
    (after : ServerDB Skeleton) (waiting : w.phase i = .answered call message flag)
    (run : Registers (address i) (w.tables i) call message got after) (before : Invariant address w) :
    Invariant address
      { w with
        tables := Function.update w.tables i after
        phase := Function.update w.phase i .idle
        concluded := Function.update w.concluded i (w.concluded i ++ [⟨got, call.func, call.f⟩]) } := by
  obtain ⟨_, rfl⟩ := registers_step (address i) (w.tables i) after call message got run
  have grows : ∀ j, ∀ u ∈ w.concluded j,
      u ∈ Function.update w.concluded i (w.concluded i ++ [⟨got, call.func, call.f⟩]) j := by
    intro j u member
    by_cases same : j = i
    · subst same
      rw [Function.update_self]
      exact List.mem_append_left _ member
    · rwa [Function.update_of_ne same]
  constructor
  · exact before.nonempty
  · intro j call' message' other
    rcases update_cases w.phase i j _ _ other with ⟨_, moved⟩ | ⟨_, other⟩
    · cases moved
    · exact before.messages j call' message' other
  · intro j
    by_cases same : j = i
    · subst same
      simp only [Function.update_self, concludeRegister, before.tables j]
      by_cases failed : got = registerFailure
      · simp [recorded, failed]
      · have more : recorded (w.concluded j ++ [⟨got, call.func, call.f⟩]) =
            recorded (w.concluded j) ++ [⟨got, call.func, call.f⟩] := by simp [recorded, failed]
        rw [if_neg failed, more, Dispatch.replay_snoc]
        rfl
    · simp only [Function.update_of_ne same]
      exact before.tables j
  · exact before.listed
  · intro j key
    refine (before.enlisted j key).trans ?_
    by_cases same : j = i
    · subst same
      simp only [Announced, Function.update_self, waiting]
      constructor
      · rintro (⟨u, member, under⟩ | ⟨_, _, _, same, under⟩)
        · exact Or.inl ⟨u, List.mem_append_left _ member, under⟩
        · cases same
          exact Or.inl ⟨_, List.mem_append_right _ (List.mem_singleton_self _), under⟩
      · rintro (⟨u, member, under⟩ | ⟨_, _, _, idle, _⟩)
        · rcases List.mem_append.mp member with old | new
          · exact Or.inl ⟨u, old, under⟩
          · rw [List.mem_singleton.mp new] at under
            exact Or.inr ⟨call, message, flag, rfl, under⟩
        · cases idle
    · simp only [Announced, Function.update_of_ne same]
  · exact before.located
  · intro outcome member
    obtain ⟨old, once, skeleton⟩ := before.outcomes outcome member
    refine ⟨old, once, ?_⟩
    intro call called
    obtain ⟨u, there, under, same⟩ := skeleton call called
    exact ⟨u, grows _ u there, under, same⟩

omit [DecidableEq ι] [DecidableEq κ] in
theorem listed_hosts (addressed : Addressed address) (before : Invariant address w) (key : Bytes)
    (s : ServerInfo) (member : s ∈ (w.binder.lookup key).getD []) : HostText s.host := by
  obtain ⟨i, rfl⟩ := before.listed key s member
  exact addressed.hosts i

omit [DecidableEq ι] in
theorem invariant_locate (addressed : Addressed address) (j : κ) (func : Function) (key : Bytes)
    (reply : LocationReply) (after : BinderDB) (name_free : 0 ∉ func.name)
    (turn : Locates w.binder func key reply after) (before : Invariant address w) :
    Invariant address
      { w with binder := after, asking := Function.update w.asking j (some ⟨func, key, reply⟩) } := by
  obtain ⟨rfl, told, known⟩ := locates_step w.binder after func key reply before.nonempty
    (listed_hosts address w addressed before) name_free turn
  refine ⟨before.nonempty, before.messages, before.tables, before.listed, before.enlisted, ?_,
    before.outcomes⟩
  intro j' asking located
  rcases update_cases w.asking j j' _ _ located with ⟨_, new⟩ | ⟨_, located⟩
  · cases new
    refine ⟨name_free, known, ?_⟩
    rintro sName port rfl
    cases first : ((w.binder.lookup key).getD []).head? with
    | none =>
        rw [first] at told
        cases told
    | some s =>
        rw [first] at told
        cases told
        have member := List.mem_of_head? first
        obtain ⟨i, rfl⟩ := before.listed key s member
        exact ⟨i, rfl, rfl, member⟩
  · exact before.located j' asking located

theorem executes_step (concluded : List Update) (func : Function) (served : Served)
    (free : 0 ∉ func.name) (turn : Executes (Dispatch.replay (recorded concluded)) func served) :
    served.db = Dispatch.replay (recorded concluded) ∧ served.calls.length ≤ 1 ∧
      ∀ call ∈ served.calls, ∃ u ∈ concluded, u.func.getKey = func.getKey ∧ u.f = call.q := by
  obtain ⟨fp, args, frame, memory, socket, rest, built, prompt, stream, turn⟩ := turn
  obtain ⟨text, _, fits, rfl⟩ := executeRequestFrame_ok fp _ _ args frame built
  rw [Execution.rpcExecuteTurn_request fp memory _ socket func.getKey text rest prompt stream
    (nul_not_in_getKey func free) fits] at turn
  obtain ⟨_, ran, same⟩ := (Outcome.map_eq_ok _ _ _).mp turn
  cases same
  obtain ⟨tables, said, _, accounted⟩ := execArgs_accounted fp memory (recorded concluded)
    { socket with incoming := rest } ⟨func.getKey, cText text⟩ served ran
  refine ⟨tables, ?_⟩
  cases accounted with
  | nothing _ _ none =>
      refine ⟨by simp [none], ?_⟩
      intro call called
      rw [none] at called
      cases called
  | called _ _ _ u there under _ _ _ _ _ calls =>
      refine ⟨by simp [calls], ?_⟩
      intro call called
      rw [calls] at called
      rw [List.mem_singleton.mp called]
      exact ⟨u, List.mem_of_mem_filter there, under, rfl⟩

theorem invariant_execute (addressed : Addressed address) (j : κ) (i : ι) (asking : Asking)
    (served : Served) (located : w.asking j = some asking)
    (reached : asking.reply = .success (address i).host (address i).port)
    (turn : Executes (w.tables i) asking.func served) (before : Invariant address w) :
    Invariant address
      { w with
        tables := Function.update w.tables i served.db
        asking := Function.update w.asking j none
        outcomes := w.outcomes ++ [⟨i, asking, served.calls⟩] } := by
  obtain ⟨free, _, names⟩ := before.located j asking located
  rw [before.tables i] at turn
  obtain ⟨kept, once, skeleton⟩ := executes_step (w.concluded i) asking.func served free turn
  have same_tables : Function.update w.tables i served.db = w.tables := by
    rw [kept, ← before.tables i, Function.update_eq_self]
  rw [same_tables]
  refine ⟨before.nonempty, before.messages, before.tables, before.listed, before.enlisted, ?_, ?_⟩
  · intro j' asking' located'
    rcases update_cases w.asking j j' _ _ located' with ⟨_, gone⟩ | ⟨_, located'⟩
    · cases gone
    · exact before.located j' asking' located'
  · intro outcome member
    rcases List.mem_append.mp member with old | new
    · exact before.outcomes outcome old
    · rw [List.mem_singleton.mp new]
      -- the binder named a server with this address, and there is no other
      obtain ⟨i', host, port, named⟩ := names _ _ reached
      cases addressed.distinct i' i host port
      exact ⟨named, once, skeleton⟩

end Steps

theorem invariant_step (address : ι → Server) (addressed : Addressed address) (ack : CInt → CInt → Prop)
    (w w' : World ι κ) (before : Invariant address w) (taken : Step address ack w w') :
    Invariant address w' := by
  cases taken with
  | request i call message idle name_free begins =>
      exact invariant_request address w i call message idle name_free begins before
  | process i call message flag after waiting turn =>
      exact invariant_process address w addressed i call message flag after waiting turn before
  | conclude i call message flag got after waiting told run =>
      exact invariant_conclude address w i call message flag got after waiting run before
  | locate j func key reply after name_free turn =>
      exact invariant_locate address w addressed j func key reply after name_free turn before
  | execute j i asking served located reached turn =>
      exact invariant_execute address w addressed j i asking served located reached turn before

theorem invariant_reachable (address : ι → Server) (addressed : Addressed address)
    (ack : CInt → CInt → Prop) (w : World ι κ) (reachable : Reachable address ack w) :
    Invariant address w := by
  refine Runs.always _ _ _ ?_ (invariant_step address addressed ack) w reachable
  rintro _ rfl
  exact invariant_start address

theorem registration_completes (address : ι → Server) (addressed : Addressed address)
    (ack : CInt → CInt → Prop) (w : World ι κ) (reachable : Reachable address ack w) (i : ι)
    (idle : w.phase i = .idle) (func : Function) (f : Skeleton) (name_free : 0 ∉ func.name)
    (fits : func.getKey.length + 143 < 2 ^ 31) (got : CInt)
    (told : ack (w.binder.updateDb (func.name.take maxFuncName) (address i).host (address i).port
      func.getKey).1 got) :
    ∃ w' : World ι κ, Reachable address ack w' ∧ w'.phase i = .idle ∧
      w'.concluded i = w.concluded i ++ [⟨got, func, f⟩] ∧ w'.outcomes = w.outcomes ∧
      w'.binder = (w.binder.updateDb (func.name.take maxFuncName) (address i).host (address i).port
        func.getKey).2 := by
  let call : RegisterCall Skeleton := ⟨literal, func.name, func.argTypes, f⟩
  obtain ⟨m, built, _⟩ := createRegisterMessage_fits (address i) literal.hostBeyond literal.nameBeyond func
    fits
  have turn := (processes_iff (address i) (addressed.hosts i) call name_free m built w.binder _ _).mpr
    ⟨rfl, rfl⟩
  have run := literal_registers (address i) (w.tables i) call m got rfl built
  have first := Runs.Reached.step _ _ reachable
    (Step.request i call m.buff idle name_free ⟨_, _, run⟩)
  have second := Runs.Reached.step _ _ first
    (Step.process i call m.buff _ _ (Function.update_self ..) turn)
  have third := Runs.Reached.step _ _ second
    (Step.conclude i call m.buff _ got _ (Function.update_self ..) told run)
  exact ⟨_, third, Function.update_self .., Function.update_self .., rfl, rfl⟩

theorem location_completes (address : ι → Server) (addressed : Addressed address)
    (ack : CInt → CInt → Prop) (w : World ι κ) (reachable : Reachable address ack w) (j : κ)
    (func : Function) (name_free : 0 ∉ func.name) (short : func.name.length ≤ 63)
    (fits : func.getKey.length + 9 < 2 ^ 31) :
    Reachable address ack
      { w with
        asking := Function.update w.asking j
          (some ⟨func, func.getKey, answer ((w.binder.lookup func.getKey).getD []).head?⟩) } := by
  have holds := invariant_reachable address addressed ack w reachable
  have turn := locates_completes w.binder func holds.nonempty (listed_hosts address w addressed holds)
    name_free short fits
  exact Runs.Reached.step _ _ reachable (Step.locate j func _ _ _ name_free turn)

/-! Whatever becomes of the acknowledgements. -/

structure Sound (address : ι → Server) (w : World ι κ) : Prop where
  named : ∀ j asking sName port, w.asking j = some asking → asking.reply = .success sName port →
    ∃ i, (address i).host = sName ∧ (address i).port = port ∧ Announced w i asking.key
  executed : ∀ outcome ∈ w.outcomes,
    Announced w outcome.server outcome.asking.key ∧ Executed w.concluded outcome
  /-- A server the binder names may still have nothing to execute: it takes an
  acknowledgement that reads neither as a failure nor as a warning. -/
  served : ∀ i key q, ArrayLengths.Dispatches (w.tables i) key q ↔
    (∃ u ∈ w.concluded i, u.func.getKey = key ∧ u.flag ≠ registerFailure ∧ u.flag ≠ registerWarning) ∧
      stored (under (recorded (w.concluded i)) key) = some q

theorem sound_reachable (address : ι → Server) (addressed : Addressed address)
    (ack : CInt → CInt → Prop) (w : World ι κ) (reachable : Reachable address ack w) :
    Sound address w := by
  have holds := invariant_reachable address addressed ack w reachable
  constructor
  · intro j asking sName port located success
    obtain ⟨i, host, at_port, enlisted⟩ := (holds.located j asking located).2.2 sName port success
    exact ⟨i, host, at_port, (holds.enlisted i asking.key).mp enlisted⟩
  · intro outcome member
    obtain ⟨enlisted, executed⟩ := holds.outcomes outcome member
    exact ⟨(holds.enlisted _ _).mp enlisted, executed⟩
  · intro i key q
    rw [holds.tables i, dispatches_filed]
    refine and_congr_left fun _ => ?_
    simp only [under, recorded, List.mem_filter, decide_eq_true_eq]
    constructor
    · rintro ⟨u, ⟨⟨member, kept⟩, same⟩, new⟩
      exact ⟨u, member, same, kept, new⟩
    · rintro ⟨u, member, same, kept, new⟩
      exact ⟨u, ⟨⟨member, kept⟩, same⟩, new⟩

/-! Where every acknowledgement is read as it was decided. -/

def overview (w : World ι κ) : Agreement.World ι Skeleton where
  binder := w.binder
  servers := w.tables
  phase := w.phase
  completed i := ((w.concluded i).map fun u => (u.func.getKey, u.f)).reverse

theorem overview_step (address : ι → Server) (addressed : Addressed address) (w w' : World ι κ)
    (holds : Invariant address w) (taken : Step address (· = ·) w w') :
    Agreement.Step address (overview w) (overview w') ∨ overview w' = overview w := by
  cases taken with
  | request i call message idle name_free begins =>
      exact Or.inl (.request i call message idle name_free begins)
  | process i call message flag after waiting turn =>
      exact Or.inl (.process i call message flag after waiting turn)
  | conclude i call message flag got after waiting told run =>
      subst told
      have completed : (overview
          { w with
            tables := Function.update w.tables i after
            phase := Function.update w.phase i .idle
            concluded := Function.update w.concluded i
              (w.concluded i ++ [⟨flag, call.func, call.f⟩]) }).completed =
          Function.update (overview w).completed i
            ((call.func.getKey, call.f) :: (overview w).completed i) := by
        funext j
        by_cases same : j = i
        · subst same
          simp [overview]
        · simp only [overview, Function.update_of_ne same]
      refine Or.inl ?_
      have step : Agreement.Step address (overview w) _ := .conclude i call message flag after waiting run
      rw [← completed] at step
      exact step
  | locate j func key reply after name_free turn =>
      obtain ⟨rfl, _⟩ := locates_step w.binder after func key reply holds.nonempty
        (listed_hosts address w addressed holds) name_free turn
      exact Or.inr rfl
  | execute j i asking served located reached turn =>
      refine Or.inr ?_
      rw [holds.tables i] at turn
      obtain ⟨kept, _⟩ := executes_step (w.concluded i) asking.func served
        (holds.located j asking located).1 turn
      rw [kept, ← holds.tables i]
      simp only [overview, Function.update_eq_self]

theorem overview_reachable (address : ι → Server) (addressed : Addressed address) (w : World ι κ)
    (reachable : Reachable address (· = ·) w) : Agreement.Reachable address (overview w) := by
  refine Runs.simulates _ _ _ _ overview ?_ (fun w w' before taken => ?_) w reachable
  · rintro _ rfl
    rfl
  · exact overview_step address addressed w w' (invariant_reachable address addressed _ w before) taken

/-- A client with a name short enough has been sent to a server that, once it is
through with its registrations, executes for it the skeleton it registered last. -/
theorem located_executes (address : ι → Server) (addressed : Addressed address) (w : World ι κ)
    (reachable : Reachable address (· = ·) w) (j : κ) (asking : Asking) (sName : Bytes) (port : CInt)
    (located : w.asking j = some asking) (success : asking.reply = .success sName port)
    (short : asking.func.name.length ≤ 63) :
    ∃ i, (address i).host = sName ∧ (address i).port = port ∧ (w.phase i = .idle →
      ∃ q, latest ((overview w).completed i) asking.func.getKey = some q ∧
        ArrayLengths.Dispatches (w.tables i) asking.func.getKey q) := by
  have holds := invariant_reachable address addressed (· = ·) w reachable
  have agrees := Agreement.invariant_reachable address addressed (overview w)
    (overview_reachable address addressed w reachable)
  obtain ⟨_, key, names⟩ := holds.located j asking located
  obtain ⟨i, host, at_port, enlisted⟩ := names sName port success
  refine ⟨i, host, at_port, fun idle => ?_⟩
  rw [key short] at enlisted
  -- an idle server has no call under way, so it is through with one for the key
  have quiet : ¬ InFlight (overview w) i asking.func.getKey := by
    rintro ⟨call, message, flag, waiting, _⟩
    cases idle.symm.trans waiting
  have known := ((agrees.enrolled i asking.func.getKey).mp enlisted).resolve_right quiet
  obtain ⟨q, last⟩ := Option.isSome_iff_exists.mp known
  have functions := agrees.functions i asking.func.getKey
  have skeletons := agrees.skeletons i asking.func.getKey
  rw [last] at functions skeletons
  exact ⟨q, last, functions, skeletons⟩

/-! Server `h` registers `f` and two clients are sent there. -/

def sent : Asking := ⟨noArguments, noArguments.getKey, .success [104] 1⟩

theorem registered_located (ack : CInt → CInt → Prop) (got : CInt) (told : ack registerSuccess got) :
    ∃ w : World Bool Bool, Reachable twoServers ack w ∧ w.phase true = .idle ∧
      w.concluded true = [⟨got, noArguments, succeeding⟩] ∧ w.asking true = some sent ∧
      w.asking false = some sent ∧ w.outcomes = [] := by
  have start : Reachable twoServers ack (World.start : World Bool Bool) := Runs.Reached.start _ rfl
  obtain ⟨w, reachable, idle, concluded, outcomes, binder⟩ := registration_completes twoServers
    twoServers_addressed ack World.start start true rfl noArguments succeeding (by decide) (by decide) got told
  have answered : answer ((w.binder.lookup noArguments.getKey).getD []).head? = .success [104] 1 := by
    rw [binder]
    rfl
  have first := location_completes twoServers twoServers_addressed ack w reachable true noArguments
    (by decide) (by decide) (by decide)
  have second := location_completes twoServers twoServers_addressed ack _ first false noArguments
    (by decide) (by decide) (by decide)
  rw [answered] at second
  exact ⟨_, second, idle, concluded, rfl, rfl, outcomes⟩

theorem registered_sound :
    ∃ (w : World Bool Bool) (args : Slots), w.asking true = some sent ∧
      w.outcomes = [⟨true, sent, [⟨succeeding, noArguments.argTypes.array, args⟩]⟩] ∧ Sound twoServers w := by
  obtain ⟨w, reachable, _, concluded, waiting, located, outcomes⟩ :=
    registered_located (fun _ _ => True) registerSuccess trivial
  obtain ⟨served, answered, calls⟩ := asking_answered
  have tables : w.tables true = Dispatch.replay registeredOnce := by
    rw [(invariant_reachable twoServers twoServers_addressed _ w reachable).tables, concluded]
    rfl
  have turn : Executes (w.tables true) sent.func served := by
    rw [tables]
    exact ⟨.absent, [], Execution.emptyRequest, Execution.zeroed, .delivering Execution.emptyRequest, [],
      Execution.emptyRequest_built, rfl, (List.append_nil _).symm, answered⟩
  have executed := Runs.Reached.step _ _ reachable (Step.execute false true sent served located rfl turn)
  refine ⟨_, slots Execution.zeroed.blocks [], ?_, ?_,
    sound_reachable twoServers twoServers_addressed (fun _ _ => True) _ executed⟩
  · simpa using waiting
  · simp only [outcomes, calls, List.nil_append]

theorem registered_executes :
    ∃ w : World Bool Bool, ∃ q, latest ((overview w).completed true) noArguments.getKey = some q ∧
      ArrayLengths.Dispatches (w.tables true) noArguments.getKey q := by
  obtain ⟨w, reachable, idle, _, located, _⟩ := registered_located (· = ·) registerSuccess rfl
  obtain ⟨i, _, port, executes⟩ := located_executes twoServers twoServers_addressed w reachable true
    sent [104] 1 located rfl (by decide)
  -- the other server listens on another port
  cases i with
  | false => exact absurd port (by decide)
  | true => exact ⟨w, executes idle⟩

end BinderRpc.Deployment
