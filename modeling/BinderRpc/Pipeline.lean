import BinderRpc.Delivery

/-!
Scalar requests written back to back by one client of a server among others. They
are executed in order, one a turn, each by the skeleton under its key and on its own
values, and the replies come back in that order. What the other clients do shows in
none of it.
-/

namespace BinderRpc.Pipeline

open Octets Text Signature Marshal Marshalled RoundTrip Socket Database Client Server Frames ScalarCalls
  Execution ServerLoop Delivery Multiplexer

structure Request (fp : FloatText) (db : ServerDB Skeleton) where
  f : Function
  g : Function
  q : Skeleton
  args : List Bytes
  frame : Bytes
  name_bar : bar ∉ f.name
  name_nul : 0 ∉ f.name
  exact_types : ExactTypes f.args
  scalars : Scalars f.args
  matching : Matching f.args args
  chars_bar : CharsAvoid bar f.args args
  chars_nul : CharsAvoid 0 f.args args
  registered : db.functions f.getKey = some g
  skeleton : db.lookup f.getKey = some q
  behaves : Behaves f.args q
  built : executeRequestFrame fp f.name f.argTypes (args.map some) = .ok frame
  /-- A response to it can be built. -/
  modest : ∀ slots, SlotsReadable f.args slots → (q g.argTypes.array slots).1 = 0 →
    f.getKey.length + (resultText fp f.args (q g.argTypes.array slots).2).length + 18 < 2 ^ 31

variable (fp : FloatText) (db : ServerDB Skeleton)

/-- The skeleton was called once, on the request's values, and the reply reads as
what it left and returned. -/
def Answered (r : Request fp db) (served : Served) (reply : Bytes) : Prop :=
  ∃ slots, HoldsValues slots r.args ∧ served.calls = [⟨r.q, r.g.argTypes.array, slots⟩] ∧
    ∀ locals (client : Link) more, client.Prompt → client.incoming = reply ++ more →
      ∃ answer, recvExecuteReply locals client = .ok (answer, { client with incoming := more }) ∧
        ClientSees (r.q r.g.argTypes.array slots).1
          (resultText fp r.f.args (r.q r.g.argTypes.array slots).2) r.f.getKey answer

theorem report_read (f : Function) (ret : CInt) (text : Bytes) (name_nul : 0 ∉ f.name)
    (text_nul : ret = 0 → 0 ∉ text) (fits : ret = 0 → f.getKey.length + text.length + 18 < 2 ^ 31)
    (locals : Locals) (client : Link) (more : Bytes) (arriving : client.Prompt)
    (front : client.incoming = report ret f.getKey text ++ more) :
    ∃ answer, recvExecuteReply locals client = .ok (answer, { client with incoming := more }) ∧
      ClientSees ret text f.getKey answer := by
  by_cases zero : ret = 0
  · rw [report, if_pos zero] at front
    exact ⟨_, recvExecuteReply_success locals client f.getKey text more arriving front (fits zero), zero,
      cText_terminated text (text_nul zero), cText_eq_self _ (nul_not_in_getKey f name_nul)⟩
  · rw [report, if_neg zero] at front
    exact ⟨_, recvExecuteReply_failure locals client errInvalidArgs more arriving front, zero, rfl⟩

def Request.reply (r : Request fp db) (slots : Slots) : Bytes :=
  report (r.q r.g.argTypes.array slots).1 r.f.getKey
    (resultText fp r.f.args (r.q r.g.argTypes.array slots).2)

def Replied (r : Request fp db) (served : Served) (reply : Bytes) : Prop :=
  ∃ slots, HoldsValues slots r.args ∧ SlotsReadable r.f.args slots ∧ served.ret = 0 ∧
    served.calls = [⟨r.q, r.g.argTypes.array, slots⟩] ∧ reply = r.reply fp db slots

theorem answered_of_replied (r : Request fp db) (served : Served) (reply : Bytes)
    (replied : Replied fp db r served reply) : Answered fp db r served reply := by
  obtain ⟨slots, values, readable, _, calls, rfl⟩ := replied
  obtain ⟨after, printable⟩ := r.behaves r.g.argTypes.array slots readable
  refine ⟨slots, values, calls, ?_⟩
  intro locals client more arriving front
  refine report_read r.f _ _ r.name_nul (fun zero => ?_) (r.modest slots readable) locals client more arriving
    front
  exact nul_not_in_joinedText fp r.f.args _ (slotMemory_readable r.f.args _ after) r.exact_types
    (slotMemory_printable r.f.args _ after (printable zero))

theorem request_turn (r : Request fp db) (memory : Memory) (socket : Link) (rest : Bytes)
    (prompt : socket.Prompt) (clear : socket.Clear) (stream : socket.incoming = r.frame ++ rest) :
    ∃ served reply, rpcExecuteTurn fp memory db socket = .ok (some served) ∧ Replied fp db r served reply ∧
      served.socket = { socket with incoming := rest, sent := socket.sent ++ reply } := by
  obtain ⟨slots, values, readable, _, turn⟩ :=
    scalar_turn fp memory db r.f r.g r.q r.args r.frame rest socket r.name_bar r.name_nul r.exact_types
      r.scalars r.matching r.chars_bar r.chars_nul r.registered r.skeleton r.behaves r.built prompt clear
      stream
  refine ⟨_, _, turn ?_, ⟨slots, values, readable, rfl, rfl, rfl⟩, rfl⟩
  by_cases zero : (r.q r.g.argTypes.array slots).1 = 0
  · exact Or.inr (r.modest slots readable zero)
  · exact Or.inl zero

theorem solo_requests (requests : List (Request fp db)) (scratches : List Memory)
    (turns : scratches.length = requests.length) (link : Link) (rest : Bytes) (prompt : link.Prompt)
    (clear : link.Clear) (stream : link.incoming = (requests.map Request.frame).flatten ++ rest) :
    ∃ told : List (Served × Bytes),
      solo (servedNext fp db) scratches link = (told.map Prod.fst,
        some { link with incoming := rest, sent := link.sent ++ (told.map Prod.snd).flatten }) ∧
      List.Forall₂ (fun r note => Replied fp db r note.1 note.2) requests told := by
  induction requests generalizing scratches link with
  | nil =>
      cases List.length_eq_zero_iff.mp turns
      refine ⟨[], ?_, .nil⟩
      have same : { link with incoming := rest, sent := link.sent ++ [] } = link := by
        rw [List.append_nil, ← List.nil_append rest, ← List.flatten_nil, ← List.map_nil, ← stream]
      rw [List.map_nil, List.map_nil, List.flatten_nil, same]
      rfl
  | cons r requests ih =>
      cases scratches with
      | nil => cases turns
      | cons memory scratches =>
          rw [List.map_cons, List.flatten_cons, List.append_assoc] at stream
          obtain ⟨served, reply, turn, replied, after⟩ :=
            request_turn fp db r memory link _ prompt clear stream
          have next : servedNext fp db memory link = some (served, served.socket) := by
            rw [servedNext, turn]
          -- the reply goes out on the other half, so the next request is now in front
          obtain ⟨told, later, others⟩ := ih scratches (Nat.succ.inj turns) served.socket
            (by rw [after]; exact prompt) (by rw [after]; exact clear) (by rw [after])
          refine ⟨(served, reply) :: told, ?_, .cons replied others⟩
          rw [after] at next later
          rw [solo, next]
          simp only [later, List.map_cons, List.flatten_cons, List.append_assoc]

theorem requests_served (listener : Nat) (before rounds : List (Round listener Link Memory))
    (s after : State (ServerDB Skeleton) Link Served) (fd : Nat) (socket : Link)
    (requests : List (Request fp db)) (rest : Bytes)
    (reached : rpcExecute fp db listener before = .ok s)
    (ran : run listener (executeTurn fp) rounds s = .ok after) (client : fd ≠ listener)
    (opened : s.conns fd = some socket) (prompt : socket.Prompt) (clear : socket.Clear)
    (stream : socket.incoming = (requests.map Request.frame).flatten ++ rest)
    (turns : (rounds.filter fun round => fd ∈ round.ready).length = requests.length) :
    ∃ (new : List (Nat × Turn Served)) (told : List (Served × Bytes)),
      after.turns = s.turns ++ new ∧ heard id fd new = told.map Prod.fst ∧
      List.Forall₂ (fun r note => Replied fp db r note.1 note.2) requests told ∧
      after.conns fd = some { socket with
        incoming := rest
        sent := socket.sent ++ (told.map Prod.snd).flatten } := by
  obtain ⟨valid, held⟩ := rpcExecute_reached fp db listener before s reached
  obtain ⟨_, new, added, tracked⟩ := run_tracks listener (executeTurn fp) (· = db) id id
    (servedNext fp db) (projects_served fp db) fd client rounds s after valid held ran
  obtain ⟨told, alone, replied⟩ := solo_requests fp db requests (scratches fd rounds)
    (by rw [scratches, List.length_map, turns]) socket rest prompt clear stream
  obtain ⟨heards, left, still, remains⟩ := tracked socket _ opened (congrArg Prod.snd alone)
  rw [id, alone] at heards
  refine ⟨new, told, added, heards, replied, ?_⟩
  rw [still]
  exact congrArg some remains

/-- Whatever the other clients do meanwhile, and whatever state they have brought the
server to before. -/
theorem requests_in_order (listener : Nat) (before rounds : List (Round listener Link Memory))
    (s after : State (ServerDB Skeleton) Link Served)
    (reached : rpcExecute fp db listener before = .ok s)
    (ran : run listener (executeTurn fp) rounds s = .ok after) (fd : Nat) (client : fd ≠ listener)
    (socket : Link) (opened : s.conns fd = some socket) (prompt : socket.Prompt) (clear : socket.Clear)
    (requests : List (Request fp db)) (rest : Bytes)
    (stream : socket.incoming = (requests.map Request.frame).flatten ++ rest)
    (turns : (rounds.filter fun round => fd ∈ round.ready).length = requests.length) :
    ∃ (new : List (Nat × Turn Served)) (told : List (Served × Bytes)),
      after.turns = s.turns ++ new ∧ heard id fd new = told.map Prod.fst ∧
      List.Forall₂ (fun r note => Answered fp db r note.1 note.2) requests told ∧
      after.conns fd = some { socket with
        incoming := rest
        sent := socket.sent ++ (told.map Prod.snd).flatten } := by
  obtain ⟨new, told, added, heards, replied, still⟩ := requests_served fp db listener before rounds s after
    fd socket requests rest reached ran client opened prompt clear stream turns
  exact ⟨new, told, added, heards, replied.imp fun _ _ => answered_of_replied fp db _ _ _, still⟩

/-- A skeleton that goes by the values in its slots, and not by the bytes around them. -/
def Blind (infos : List Args) (q : Skeleton) : Prop :=
  ∀ types slots other, SlotsReadable infos slots → SlotsReadable infos other →
    resultsOf infos slots = resultsOf infos other →
    (q types slots).1 = (q types other).1 ∧
      ((q types slots).1 = 0 → resultsOf infos (q types slots).2 = resultsOf infos (q types other).2)

def valueSlots (args : List Bytes) : Slots := fun k => args[k]?

def Request.answer (r : Request fp db) : Bytes := r.reply fp db (valueSlots r.args)

def CalledOn (r : Request fp db) (served : Served) : Prop :=
  served.ret = 0 ∧ ∃ slots, HoldsValues slots r.args ∧ served.calls = [⟨r.q, r.g.argTypes.array, slots⟩]

theorem valueSlots_hold (args : List Bytes) : HoldsValues (valueSlots args) args :=
  fun _ value there => ⟨value, there, List.take_length⟩

theorem resultsOf_values (infos : List Args) (args : List Bytes) (slots : Slots)
    (matching : Matching infos args) (values : HoldsValues slots args) : resultsOf infos slots = args := by
  obtain ⟨lengths, pairs⟩ := List.forall₂_iff_get.mp matching
  apply List.ext_getElem
  · simp only [resultsOf, slotMemory, List.length_zipWith, List.length_map, List.length_range]
    omega
  · intro k _ inside
    obtain ⟨kind, known, size⟩ := pairs k (by omega) inside
    obtain ⟨memory, slot, value⟩ := values k args[k] (List.getElem?_eq_getElem inside)
    simp only [List.get_eq_getElem] at known size
    simp only [resultsOf, slotMemory, List.getElem_zipWith, List.getElem_map, List.getElem_range, slot,
      Option.getD_some, valueOf, known, ← size, value]

theorem reply_blind (r : Request fp db) (slots : Slots) (values : HoldsValues slots r.args)
    (readable : SlotsReadable r.f.args slots) (blind : Blind r.f.args r.q) :
    r.reply fp db slots = r.answer fp db := by
  have own := valueSlots_hold r.args
  obtain ⟨ret, left⟩ := blind r.g.argTypes.array slots (valueSlots r.args) readable
    (slotsReadable_of_values r.f.args r.args _ r.matching own)
    ((resultsOf_values r.f.args r.args slots r.matching values).trans
      (resultsOf_values r.f.args r.args _ r.matching own).symm)
  rw [Request.answer, Request.reply, Request.reply, report, report, ← ret]
  by_cases zero : (r.q r.g.argTypes.array slots).1 = 0
  · rw [if_pos zero, if_pos zero, resultText_values, resultText_values, left zero]
  · rw [if_neg zero, if_neg zero]

theorem replies_blind (requests : List (Request fp db)) (told : List (Served × Bytes))
    (blind : ∀ r ∈ requests, Blind r.f.args r.q)
    (replied : List.Forall₂ (fun r note => Replied fp db r note.1 note.2) requests told) :
    told.map Prod.snd = requests.map (Request.answer fp db) ∧
      List.Forall₂ (CalledOn fp db) requests (told.map Prod.fst) := by
  induction replied with
  | nil => exact ⟨rfl, .nil⟩
  | @cons r note requests told first _ ih =>
      obtain ⟨slots, values, readable, zero, calls, reply⟩ := first
      obtain ⟨replies, others⟩ := ih fun r listed => blind r (List.mem_cons_of_mem _ listed)
      refine ⟨?_, .cons ⟨zero, slots, values, calls⟩ others⟩
      rw [List.map_cons, List.map_cons, replies, reply,
        reply_blind fp db r slots values readable (blind r List.mem_cons_self)]

/-- Two runs of a server in which a client has written the same requests: whatever the
memory of either holds, and whatever the other clients have done and do in it, the
client's calls are the same and its connection ends up the same. -/
theorem clients_apart (listener fd : Nat) (client : fd ≠ listener)
    (before before' rounds rounds' : List (Round listener Link Memory))
    (s s' after after' : State (ServerDB Skeleton) Link Served)
    (reached : rpcExecute fp db listener before = .ok s)
    (reached' : rpcExecute fp db listener before' = .ok s')
    (ran : run listener (executeTurn fp) rounds s = .ok after)
    (ran' : run listener (executeTurn fp) rounds' s' = .ok after')
    (socket : Link) (opened : s.conns fd = some socket) (opened' : s'.conns fd = some socket)
    (prompt : socket.Prompt) (clear : socket.Clear) (requests : List (Request fp db))
    (blind : ∀ r ∈ requests, Blind r.f.args r.q) (rest : Bytes)
    (stream : socket.incoming = (requests.map Request.frame).flatten ++ rest)
    (turns : (rounds.filter fun round => fd ∈ round.ready).length = requests.length)
    (turns' : (rounds'.filter fun round => fd ∈ round.ready).length = requests.length) :
    ∃ new new' left, after.turns = s.turns ++ new ∧ after'.turns = s'.turns ++ new' ∧
      List.Forall₂ (CalledOn fp db) requests (heard id fd new) ∧
      List.Forall₂ (CalledOn fp db) requests (heard id fd new') ∧
      after.conns fd = some left ∧ after'.conns fd = some left ∧
      left.sent = socket.sent ++ (requests.map (Request.answer fp db)).flatten := by
  obtain ⟨new, told, added, heards, replied, still⟩ := requests_served fp db listener before rounds s after
    fd socket requests rest reached ran client opened prompt clear stream turns
  obtain ⟨new', told', added', heards', replied', still'⟩ := requests_served fp db listener before' rounds'
    s' after' fd socket requests rest reached' ran' client opened' prompt clear stream turns'
  obtain ⟨replies, called⟩ := replies_blind fp db requests told blind replied
  obtain ⟨replies', called'⟩ := replies_blind fp db requests told' blind replied'
  rw [← heards] at called
  rw [← heards'] at called'
  rw [replies] at still
  rw [replies'] at still'
  exact ⟨new, new', _, added, added', called, called', still, still', rfl⟩

/-! Two calls of `f` with one `int`, on descriptor 4 beside the listening 3. -/

theorem lowest_modest (slots : Slots) (_ : SlotsReadable oneIntArgs slots)
    (_ : (lowest oneInt.array slots).1 = 0) :
    (Function.mk [102] oneInt).getKey.length +
      (resultText .absent oneIntArgs (lowest oneInt.array slots).2).length + 18 < 2 ^ 31 := by
  have text : resultText .absent oneIntArgs (lowest oneInt.array slots).2 =
      joinedText .absent oneIntArgs [[0, 0, 0, 128]] := by rfl
  rw [text]
  decide

theorem bar_not_in_f : bar ∉ [(102 : UInt8)] := by decide

theorem nul_not_in_f : 0 ∉ [(102 : UInt8)] := by decide

def oneIntRequest : Request .absent (serving ⟨[102], oneInt⟩ lowest) where
  f := ⟨[102], oneInt⟩
  g := ⟨[102], oneInt⟩
  q := lowest
  args := [[0, 0, 0, 0]]
  frame := framed execute (executeBody (Function.mk [102] oneInt).getKey [48])
  name_bar := bar_not_in_f
  name_nul := nul_not_in_f
  exact_types := oneInt_scalar.1
  scalars := oneInt_scalar.2.1
  matching := oneInt_scalar.2.2.1
  chars_bar := oneInt_scalar.2.2.2.1
  chars_nul := oneInt_scalar.2.2.2.2
  registered := serving_functions _ _
  skeleton := serving_lookup _ _
  behaves := lowest_behaves
  built := oneInt_built
  modest := lowest_modest

def twiceRound (fd : Nat) : Round 3 Link Memory where
  ready := {fd}
  accept := .offering 0 (.delivering (oneIntRequest.frame ++ oneIntRequest.frame))
  scratch _ := zeroed

theorem twiceRound_runs (s : State (ServerDB Skeleton) Link Served) (valid : WellFormed 3 s)
    (tables : s.shared = serving ⟨[102], oneInt⟩ lowest) (socket : Link) (opened : s.conns 4 = some socket)
    (rest : Bytes) (prompt : socket.Prompt) (clear : socket.Clear)
    (stream : socket.incoming = oneIntRequest.frame ++ rest) (later : List (Round 3 Link Memory)) :
    ∃ (served : Served) (left : Link), WellFormed 3 (answered 4 served s.shared left s) ∧
      left.Prompt ∧ left.Clear ∧ left.incoming = rest ∧
      run 3 (executeTurn .absent) (twiceRound 4 :: later) s =
        run 3 (executeTurn .absent) later (answered 4 served s.shared left s) := by
  obtain ⟨served, reply, turn, _, after⟩ := request_turn .absent _ oneIntRequest zeroed socket rest prompt
    clear stream
  have taken : executeTurn .absent zeroed s.shared socket = .ok (some (served, served.db, served.socket)) := by
    rw [executeTurn, tables, turn]
    rfl
  have same := (executeTurn_ok .absent zeroed s.shared socket served _ _ taken).2.1
  have visited : visit 3 (executeTurn .absent) (twiceRound 4) {4} 4 s =
      .ok (answered 4 served s.shared served.socket s) := by
    rw [visit, if_neg (by simp), if_neg (by decide), opened]
    simp only [show (twiceRound 4).scratch 4 = zeroed from rfl, taken, same]
  have member : 4 ∈ s.master := (valid.members 4).mpr (Or.inr (by rw [opened]; rfl))
  obtain ⟨runs, still⟩ := run_single 3 (executeTurn .absent) (twiceRound 4) later s _ valid 4 member rfl
    visited
  exact ⟨served, served.socket, still, by rw [after]; exact prompt, by rw [after]; exact clear,
    by rw [after], runs⟩

theorem twice_in_order :
    ∃ s after new told left, rpcExecute .absent (serving ⟨[102], oneInt⟩ lowest) 3 [twiceRound 3] = .ok s ∧
      run 3 (executeTurn .absent) [twiceRound 4, twiceRound 4] s = .ok after ∧
      after.turns = s.turns ++ new ∧ heard id 4 new = told.map Prod.fst ∧
      List.Forall₂ (fun r (note : Served × Bytes) => Answered .absent _ r note.1 note.2)
        [oneIntRequest, oneIntRequest] told ∧
      after.conns 4 = some left ∧ left.incoming = [] := by
  have joined := run_single 3 (executeTurn .absent) (twiceRound 3) [] _ _
    (wellFormed_start (serving ⟨[102], oneInt⟩ lowest) 3) 3 (Finset.mem_singleton_self 3) rfl rfl
  obtain ⟨first, left, valid, prompt, clear, stream, sooner⟩ := twiceRound_runs _ joined.2 rfl _ rfl _ rfl
    rfl rfl [twiceRound 4]
  obtain ⟨second, last, _, _, _, _, later⟩ := twiceRound_runs _ valid rfl left
    (by simp [answered]) [] prompt clear (stream.trans (List.append_nil _).symm) []
  have ran := sooner.trans later
  obtain ⟨new, told, added, heards, answered, still⟩ := requests_in_order .absent
    (serving ⟨[102], oneInt⟩ lowest) 3 [twiceRound 3] [twiceRound 4, twiceRound 4] _ _ joined.1 ran 4
    (by decide) (.delivering (oneIntRequest.frame ++ oneIntRequest.frame)) rfl rfl rfl
    [oneIntRequest, oneIntRequest] [] (by simp [Link.delivering]) rfl
  exact ⟨_, _, new, told, _, joined.1, ran, added, heards, answered, still, rfl⟩

theorem lowest_blind : Blind oneIntArgs lowest := fun _ _ _ _ _ _ => ⟨rfl, fun _ => rfl⟩

def crowding : Round 3 Link Memory where
  ready := {3}
  accept := .offering 1 (.delivering [])
  scratch _ := zeroed

theorem twice_apart :
    ∃ s after after' new new' left,
      rpcExecute .absent (serving ⟨[102], oneInt⟩ lowest) 3 [twiceRound 3] = .ok s ∧
      run 3 (executeTurn .absent) [twiceRound 4, twiceRound 4] s = .ok after ∧
      run 3 (executeTurn .absent) [crowding, twiceRound 4, twiceRound 4] s = .ok after' ∧
      after.turns = s.turns ++ new ∧ after'.turns = s.turns ++ new' ∧
      List.Forall₂ (CalledOn .absent _) [oneIntRequest, oneIntRequest] (heard id 4 new) ∧
      List.Forall₂ (CalledOn .absent _) [oneIntRequest, oneIntRequest] (heard id 4 new') ∧
      after.conns 4 = some left ∧ after'.conns 4 = some left ∧
      left.sent = [] ++ ([oneIntRequest, oneIntRequest].map (Request.answer .absent _)).flatten := by
  have joined := run_single 3 (executeTurn .absent) (twiceRound 3) [] _ _
    (wellFormed_start (serving ⟨[102], oneInt⟩ lowest) 3) 3 (Finset.mem_singleton_self 3) rfl rfl
  -- both requests are served from any state in which the client is in
  have served : ∀ s : State (ServerDB Skeleton) Link Served, WellFormed 3 s →
      s.shared = serving ⟨[102], oneInt⟩ lowest →
      s.conns 4 = some (.delivering (oneIntRequest.frame ++ oneIntRequest.frame)) →
      ∃ after, run 3 (executeTurn .absent) [twiceRound 4, twiceRound 4] s = .ok after := by
    intro s valid tables opened
    obtain ⟨first, left, valid, prompt, clear, stream, sooner⟩ := twiceRound_runs s valid tables _ opened _
      rfl rfl rfl [twiceRound 4]
    obtain ⟨second, last, _, _, _, _, later⟩ := twiceRound_runs _ valid tables left
      (by simp [answered]) [] prompt clear (stream.trans (List.append_nil _).symm) []
    exact ⟨_, sooner.trans later⟩
  obtain ⟨after, ran⟩ := served _ joined.2 rfl rfl
  obtain ⟨crowded, valid⟩ := run_single 3 (executeTurn .absent) crowding [twiceRound 4, twiceRound 4] _ _
    joined.2 3 (by decide) rfl rfl
  obtain ⟨after', ran'⟩ := served _ valid rfl rfl
  have blind : ∀ r ∈ [oneIntRequest, oneIntRequest], Blind r.f.args r.q := by
    intro r listed
    have one : r = oneIntRequest := by simpa using listed
    subst one
    exact lowest_blind
  obtain ⟨new, new', left, added, added', called, called', here, here', sent⟩ := clients_apart .absent
    (serving ⟨[102], oneInt⟩ lowest) 3 4 (by decide) [twiceRound 3] [twiceRound 3]
    [twiceRound 4, twiceRound 4] [crowding, twiceRound 4, twiceRound 4] _ _ after after' joined.1 joined.1 ran
    (crowded.trans ran') (.delivering (oneIntRequest.frame ++ oneIntRequest.frame)) rfl rfl rfl rfl
    [oneIntRequest, oneIntRequest] blind [] (by simp [Link.delivering]) rfl rfl
  exact ⟨_, after, after', new, new', left, joined.1, ran, crowded.trans ran', added, added', called, called',
    here, here', sent⟩

end BinderRpc.Pipeline
