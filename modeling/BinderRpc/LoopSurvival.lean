import BinderRpc.BinderLoop
import BinderRpc.ServerLoop
import BinderRpc.Survival

/-!
Which passes the two loops come back from. A fault of any turn ends the process,
with every other connection of it, so a pass is survived by the turns taken each
for itself.
-/

namespace BinderRpc.LoopSurvival

open Octets Text Signature Marshal Socket Database Binder Server Frames Arrival Conversation Multiplexer Outcome
open BinderLoop (Filled overhearTurn_lawful overhearTurn initTurn_overheard)

/-! The binder. -/

theorem binderActs_finishes (beyond : Stale) (pointer : BitVec 64) (db : BinderDB) (socket : Link)
    (received : Received) (filled : Filled db) :
    Finishes (binderActs beyond pointer db socket received) := by
  cases received with
  | register request => cases request <;> exact ⟨_, rfl⟩
  | locate key =>
      cases key with
      | none => exact ⟨_, rfl⟩
      | some key =>
          obtain ⟨res, after, sent, _⟩ := sendLocationResponse_receives beyond db socket key (filled key)
          exact ⟨_, sent⟩
  | closed | ignored | execute | location | response => exact ⟨_, rfl⟩

/-- Only reading the request can fail. -/
theorem initTurn_finishes_iff (scratch : Scratch) (db : BinderDB) (socket : Link) (filled : Filled db) :
    Finishes (initTurn scratch db socket) ↔
      ∀ type left, recvType scratch.messageType socket = (some type, left) →
        Finishes (binderDecode scratch.request type left) := by
  rw [initTurn]
  cases typed : recvType scratch.messageType socket with
  | mk type left =>
  cases type with
  | none => simp
  | some type =>
      simp only [finishes_map, binder_handleRequest, finishes_bind, Prod.mk.injEq, Option.some.injEq]
      constructor
      · rintro ⟨result, run, _⟩ type' left' ⟨rfl, rfl⟩
        exact ⟨result, run⟩
      · intro reads
        obtain ⟨result, run⟩ := reads type left ⟨rfl, rfl⟩
        exact ⟨result, run, binderActs_finishes _ _ db _ _ filled⟩

theorem initTurn_filled (scratch : Scratch) (db : BinderDB) (socket : Link) (ret : CInt) (later : BinderDB)
    (after : Link) (filled : Filled db)
    (taken : initTurn scratch db socket = .ok (some (ret, later, after))) : Filled later := by
  rw [initTurn_overheard] at taken
  obtain ⟨outcome, heard, same⟩ := (map_eq_ok _ _ _).mp taken
  cases outcome with
  | none => cases same
  | some result =>
      obtain ⟨note, db', socket'⟩ := result
      cases same
      exact (overhearTurn_lawful scratch db socket note later after filled heard).1

theorem init_reached (listener : Nat) (before : List (Round listener Link Scratch))
    (s : State BinderDB Link CInt) (reached : Binder.init listener before = .ok s) :
    WellFormed listener s ∧ Filled s.shared := by
  refine run_keeps listener initTurn (fun s => Filled s.shared) ?_ before _ s
    (wellFormed_start BinderDB.empty listener) (by intro key; simp [start, BinderDB.empty]) reached
  intro round i s next _ filled visited
  cases visited with
  | accepts =>
      unfold accepted
      split <;> exact filled
  | stale => exact filled
  | hangsUp => exact filled
  | serves _ conn after note later _ taken =>
      exact initTurn_filled (round.scratch i) s.shared conn note later after filled taken

theorem empty_filled : Filled BinderDB.empty := by
  intro key
  simp [BinderDB.empty]

/-- The binder gets through a pass exactly when it would get through the request
of every connection that is ready with that connection alone, just started. -/
theorem init_pass_survives_iff (listener : Nat) (before : List (Round listener Link Scratch))
    (s : State BinderDB Link CInt) (reached : Binder.init listener before = .ok s)
    (round : Round listener Link Scratch) :
    Finishes (pass listener initTurn round s) ↔
      ∀ fd ∈ round.ready, ∀ socket, s.conns fd = some socket →
        Finishes (initTurn (round.scratch fd) BinderDB.empty socket) := by
  obtain ⟨valid, filled⟩ := init_reached listener before s reached
  -- whether a turn ends is not up to the database
  have steady : ∀ scratch socket db other, Filled db → Filled other →
      (Finishes (initTurn scratch db socket) ↔ Finishes (initTurn scratch other socket)) := by
    intro scratch socket db other held also
    rw [initTurn_finishes_iff scratch db socket held, initTurn_finishes_iff scratch other socket also]
  rw [pass_finishes_iff listener initTurn Filled initTurn_filled steady round s valid filled]
  refine forall₄_congr fun fd _ socket _ => ?_
  exact steady (round.scratch fd) socket s.shared BinderDB.empty filled empty_filled

/-- Every one of them has then had its turn, once, and nobody else. -/
theorem init_pass_serves (listener : Nat) (before : List (Round listener Link Scratch))
    (s after : State BinderDB Link CInt) (reached : Binder.init listener before = .ok s)
    (round : Round listener Link Scratch) (taken : pass listener initTurn round s = .ok after) :
    Serves listener round s after :=
  pass_serves listener initTurn round s after (init_reached listener before s reached).1 taken

def negativeLocation : Bytes := wordBytes locationRequest ++ wordBytes (-1)

/-- A connection on descriptor 4, beside the listening 3. -/
def binderRound (fd : Nat) (bytes : Bytes) : Round 3 Link Scratch where
  ready := {fd}
  accept := .offering 0 (.delivering bytes)
  scratch _ := ⟨fun _ => 0, fun _ => 0, fun _ => 0, 4096⟩

def binderJoined (bytes : Bytes) : State BinderDB Link CInt :=
  accepted (binderRound 3 bytes).accept (start BinderDB.empty 3)

theorem binderJoined_reached (bytes : Bytes) :
    Binder.init 3 [binderRound 3 bytes] = .ok (binderJoined bytes) ∧ WellFormed 3 (binderJoined bytes) :=
  run_single 3 initTurn (binderRound 3 bytes) [] _ _ (wellFormed_start BinderDB.empty 3) 3
    (Finset.mem_singleton_self 3) rfl rfl

/-- The binder outlives a location request, and no allocation of -1 bytes. -/
theorem negative_length_fatal :
    (∃ s, Binder.init 3 [binderRound 3 (framed locationRequest (keyBody noArguments))] = .ok s ∧
      Finishes (pass 3 initTurn (binderRound 4 []) s)) ∧
    ∃ s, Binder.init 3 [binderRound 3 negativeLocation] = .ok s ∧
      ¬ Finishes (pass 3 initTurn (binderRound 4 []) s) := by
  constructor
  · refine ⟨_, (binderJoined_reached _).1,
      (init_pass_survives_iff 3 _ _ (binderJoined_reached _).1 _).mpr ?_⟩
    intro fd ready socket opened
    cases Finset.mem_singleton.mp ready
    cases opened
    exact ⟨_, rfl⟩
  · refine ⟨_, (binderJoined_reached negativeLocation).1, fun survives => ?_⟩
    have alone := (init_pass_survives_iff 3 _ _ (binderJoined_reached negativeLocation).1 _).mp survives 4
      (Finset.mem_singleton_self 4) (.delivering negativeLocation) rfl
    exact not_finishes_error Fault.badSize alone

theorem locating_served :
    ∃ s after, Binder.init 3 [binderRound 3 (framed locationRequest (keyBody noArguments))] = .ok s ∧
      pass 3 initTurn (binderRound 4 []) s = .ok after ∧ Serves 3 (binderRound 4 []) s after := by
  obtain ⟨reached, valid⟩ := binderJoined_reached (framed locationRequest (keyBody noArguments))
  obtain ⟨after, visited⟩ : ∃ after, visit 3 initTurn (binderRound 4 []) {4} 4
      (binderJoined (framed locationRequest (keyBody noArguments))) = .ok after := ⟨_, rfl⟩
  have taken := (pass_single 3 initTurn (binderRound 4 []) _ valid 4
    (Finset.mem_insert_self 4 {3}) rfl).trans visited
  exact ⟨_, after, reached, taken, init_pass_serves 3 _ _ after reached (binderRound 4 []) taken⟩

/-! The server. -/

/-- The pass comes to its end, and no turn of it has asked for memory of a size
below zero. -/
structure PassSurvives (fp : FloatText) (listener : Nat) (round : Round listener Link Memory)
    (s : State (ServerDB Skeleton) Link Served) : Prop where
  returns : Finishes (pass listener (executeTurn fp) round s)
  allocates : ∀ fd ∈ round.ready, ∀ socket left request after parsed, s.conns fd = some socket →
    recvType (round.scratch fd).messageType socket = (some execute, left) →
    recvExecuteRequest (round.scratch fd).request left = .ok (some request, after) →
    parseKey request.key = .ok parsed → 0 ≤ (calculateArgSize parsed.argInfo).toInt

theorem executeTurn_finishes_iff (fp : FloatText) (memory : Memory) (db : ServerDB Skeleton)
    (socket : Link) :
    Finishes (executeTurn fp memory db socket) ↔
      ∀ left, recvType memory.messageType socket = (some execute, left) →
        Finishes (Server.handleRequest fp memory db left execute) := by
  rw [executeTurn, finishes_map, rpcExecuteTurn]
  cases typed : recvType memory.messageType socket with
  | mk type left =>
  cases type with
  | none => simp
  | some type =>
      simp only [finishes_map, Prod.mk.injEq, Option.some.injEq]
      constructor
      · rintro finishes left' ⟨rfl, rfl⟩
        exact finishes
      · intro executes
        by_cases same : type = execute
        · subst same
          exact executes left ⟨rfl, rfl⟩
        -- any other message is let pass
        · rw [Server.handleRequest, if_neg same]
          exact finishes_ok _

theorem executeTurn_db (fp : FloatText) (db : ServerDB Skeleton) (memory : Memory)
    (tables : ServerDB Skeleton) (socket : Link) (served : Served) (later : ServerDB Skeleton) (after : Link)
    (held : tables = db) (taken : executeTurn fp memory tables socket = .ok (some (served, later, after))) :
    later = db :=
  (ServerLoop.executeTurn_ok fp memory tables socket served later after taken).2.1.trans held

/-- The server gets through a pass exactly when it would get through every EXECUTE
message that is ready by itself, with the tables it was started with. -/
theorem rpcExecute_pass_survives_iff (fp : FloatText) (db : ServerDB Skeleton) (listener : Nat)
    (before : List (Round listener Link Memory)) (s : State (ServerDB Skeleton) Link Served)
    (reached : rpcExecute fp db listener before = .ok s) (round : Round listener Link Memory) :
    PassSurvives fp listener round s ↔
      ∀ fd ∈ round.ready, ∀ socket left, s.conns fd = some socket →
        recvType (round.scratch fd).messageType socket = (some execute, left) →
          Survival.Survives fp (round.scratch fd) db left := by
  obtain ⟨valid, held⟩ := ServerLoop.rpcExecute_reached fp db listener before s reached
  have passes := pass_finishes_iff listener (executeTurn fp) (· = db) (executeTurn_db fp db)
    (fun memory socket one other first second => by rw [first, second]) round s valid held
  rw [held] at passes
  simp only [executeTurn_finishes_iff] at passes
  constructor
  · rintro ⟨returns, allocates⟩ fd ready socket left opened typed
    exact ⟨passes.mp returns fd ready socket opened left typed,
      fun request after parsed => allocates fd ready socket left request after parsed opened typed⟩
  · intro alone
    constructor
    · rw [passes]
      intro fd ready socket opened left typed
      exact (alone fd ready socket left opened typed).returns
    · intro fd ready socket left request after parsed opened typed
      exact (alone fd ready socket left opened typed).allocates request after parsed

theorem asking_survives : ∃ s, rpcExecute .absent (Dispatch.replay ServerLoop.registeredOnce) 3
    [ServerLoop.joining] = .ok s ∧ PassSurvives .absent 3 ServerLoop.asking s := by
  refine ⟨_, ServerLoop.attached_reached.1, ?_⟩
  refine (rpcExecute_pass_survives_iff .absent _ 3 _ _ ServerLoop.attached_reached.1 _).mpr ?_
  intro fd ready socket left opened typed
  cases Finset.mem_singleton.mp ready
  cases opened
  obtain ⟨served, answered, _⟩ := ServerLoop.asking_answered
  have returns := (executeTurn_finishes_iff .absent Execution.zeroed _ _).mp
    ((finishes_map _ _).mpr ⟨_, answered⟩) left typed
  refine ⟨returns, ?_⟩
  intro request after parsed read parses
  cases typed
  have body := recvExecuteRequest_body Execution.zeroed.request
    (.delivering (lengthBytes 14 ++ executeBody [102, 124, 48, 124] [])) [102, 124, 48, 124] [] [] rfl rfl
    (by decide) (by decide)
  cases body.symm.trans read
  cases (show parseKey [102, 124, 48, 124] = .ok ⟨[102], 0, []⟩ by rfl).symm.trans parses
  decide

end BinderRpc.LoopSurvival
