import BinderRpc.Keys
import BinderRpc.Model.Binder
import BinderRpc.Model.Client
import BinderRpc.Model.Server

/-!
The messages on the wire. Requests and successful execute responses are a type,
the length of the rest, and the rest; each receiver finds in a message delivered
whole what its sender put there.
-/

namespace BinderRpc.Frames

open Octets Text Signature Marshal Socket Database Joining Binder Client Server

theorem cText_append_nul (text rest : Bytes) (free : 0 ∉ text) : cText (text ++ 0 :: rest) = text := by
  rw [cText, List.takeWhile_append_of_pos]
  · simp
  · intro byte member
    have nonzero : byte ≠ 0 := ne_of_mem_of_not_mem member free
    simpa using nonzero

theorem cText_terminated (text : Bytes) (free : 0 ∉ text) : cText (text ++ [0]) = text :=
  cText_append_nul text [] free

theorem cText_append_terminator (text : Bytes) : cText (text ++ [0]) = cText text := by
  induction text with
  | nil => rfl
  | cons byte rest ih =>
      simp only [cText, List.cons_append, List.takeWhile_cons] at *
      rw [ih]

theorem cText_field (text : Bytes) (count n : Nat) (beyond : Stale) (free : 0 ∉ text)
    (within : n ≤ count) : cText ((cStrField text count beyond).take n) = text.take n := by
  rw [cStrField, List.take_take, Nat.min_eq_left within]
  by_cases short : text.length < n
  · have cut : (text ++ 0 :: staleBytes beyond count).take n =
        text ++ 0 :: (staleBytes beyond count).take (n - text.length - 1) := by
      obtain ⟨more, room⟩ : ∃ more, n - text.length = more + 1 := ⟨n - text.length - 1, by omega⟩
      rw [List.take_append, List.take_of_length_le (by omega), room, List.take_succ_cons,
        Nat.add_sub_cancel]
    rw [cut, cText_append_nul text _ free, List.take_of_length_le (by omega)]
  · rw [List.take_append_of_le_length (by omega)]
    apply cText_eq_self
    exact fun member => free (List.mem_of_mem_take member)

theorem nul_not_in_getKey (f : Function) (free : 0 ∉ f.name) : 0 ∉ f.getKey := by
  intro member
  rw [getKey_eq] at member
  rcases mem_intercalate bar _ 0 member with sep | ⟨text, listed, inside⟩
  · exact absurd sep (by decide)
  · rw [Keys.keyTokens_eq] at listed
    rcases List.mem_cons.mp listed with rfl | later
    · exact free inside
    · rcases List.mem_cons.mp later with rfl | field
      · exact nul_not_in_decimal _ inside
      · by_cases none : f.args = []
        · rw [if_pos none, List.mem_singleton] at field
          simp [field] at inside
        · rw [if_neg none] at field
          obtain ⟨a, _, there⟩ := List.mem_flatMap.mp field
          simp only [Args.fields, List.mem_cons, List.not_mem_nil, or_false] at there
          rcases there with rfl | rfl | rfl | rfl <;> exact nul_not_in_decimal _ inside

/-! Encoders. -/

def framed (type : CInt) (body : Bytes) : Bytes :=
  wordBytes type ++ lengthBytes body.length ++ body

theorem length_framed (type : CInt) (body : Bytes) : (framed type body).length = body.length + 8 := by
  simp only [framed, List.length_append, length_wordBytes, length_lengthBytes]
  omega

theorem intOfSize_ok (n m : Nat) (fits : intOfSize n = .ok m) : n < 2 ^ 31 ∧ m = n := by
  unfold intOfSize at fits
  split at fits
  · rename_i small
    cases fits
    exact ⟨small, rfl⟩
  · cases fits

def registerBody (s : Server) (hostBeyond nameBeyond : Stale) (f : Function) : Bytes :=
  cStrField s.host (maxHostName + 1) hostBeyond ++ wordBytes s.port ++
    cStrField f.name (maxFuncName + 1) nameBeyond ++ (f.getKey ++ [0])

theorem length_registerBody (s : Server) (hostBeyond nameBeyond : Stale) (f : Function) :
    (registerBody s hostBeyond nameBeyond f).length = f.getKey.length + 135 := by
  simp only [registerBody, List.length_append, length_cStrField, length_wordBytes, List.length_singleton,
    maxHostName, maxFuncName]
  omega

theorem createRegisterMessage_ok (s : Server) (hostBeyond nameBeyond : Stale) (f : Function)
    (m : RegisterMessage) (built : s.createRegisterMessage hostBeyond nameBeyond f = .ok m) :
    f.getKey.length + 143 < 2 ^ 31 ∧
      m.buff = framed register (registerBody s hostBeyond nameBeyond f) ∧
      m.buffLength = m.buff.length := by
  unfold createRegisterMessage at built
  obtain ⟨length, fits, built⟩ := (Outcome.bind_eq_ok _ _ _).mp built
  obtain ⟨small, rfl⟩ := intOfSize_ok _ _ fits
  cases built
  have size : maxHostName + 1 + maxFuncName + 1 + (f.getKey.length + 1) + 12 - 8 =
      (registerBody s hostBeyond nameBeyond f).length := by
    rw [length_registerBody]
    simp only [maxHostName, maxFuncName]
    omega
  have buff : wordBytes register ++ lengthBytes (maxHostName + 1 + maxFuncName + 1 +
      (f.getKey.length + 1) + 12 - 8) ++ cStrField s.host (maxHostName + 1) hostBeyond ++
      wordBytes s.port ++ cStrField f.name (maxFuncName + 1) nameBeyond ++ (f.getKey ++ [0]) =
      framed register (registerBody s hostBeyond nameBeyond f) := by
    rw [size, framed, registerBody]
    simp only [List.append_assoc]
  refine ⟨?_, buff, ?_⟩
  · simp only [maxHostName, maxFuncName] at small
    omega
  · simp only [buff]
    rw [length_framed, length_registerBody]
    simp only [maxHostName, maxFuncName]
    omega

def keyBody (f : Function) : Bytes := f.getKey ++ [0]

theorem locationFunction_free (heap : Bytes) (m : LocationRequestMessage) (func : Function)
    (rebuilt : locationFunction heap m = .ok func) : 0 ∉ func.name := by
  obtain ⟨text, read, made⟩ := (Outcome.bind_eq_ok _ _ _).mp rebuilt
  cases made
  unfold bufferText at read
  split at read
  · cases read
    exact nul_not_in_cText _
  · cases read

theorem locationRequestFrame_ok (heap : Bytes) (m : LocationRequestMessage) (frame : Bytes)
    (built : locationRequestFrame heap m = .ok frame) :
    ∃ func, locationFunction heap m = .ok func ∧ func.getKey.length + 9 < 2 ^ 31 ∧
      frame = framed m.type (keyBody func) := by
  obtain ⟨func, found, built⟩ := (Outcome.bind_eq_ok _ _ _).mp built
  obtain ⟨length, fits, built⟩ := (Outcome.bind_eq_ok _ _ _).mp built
  obtain ⟨small, rfl⟩ := intOfSize_ok _ _ fits
  cases built
  refine ⟨func, found, small, ?_⟩
  have size : func.getKey.length + 1 + 8 - 8 = (keyBody func).length := by
    simp [keyBody]
  rw [framed, ← size]
  rfl

def executeBody (key text : Bytes) : Bytes :=
  lengthBytes (key.length + 1) ++ (key ++ [0]) ++ lengthBytes (text.length + 1) ++ (text ++ [0])

theorem length_executeBody (key text : Bytes) :
    (executeBody key text).length = key.length + text.length + 10 := by
  simp only [executeBody, List.length_append, length_lengthBytes, List.length_singleton]
  omega

theorem executeRequestFrame_ok (fp : FloatText) (name : Bytes) (argTypes : ArgTypes)
    (args : List (Option Bytes)) (frame : Bytes)
    (built : executeRequestFrame fp name argTypes args = .ok frame) :
    ∃ text, marshallArgs fp argTypes.array args (scanLength argTypes.array) = .ok text ∧
      (⟨name, argTypes⟩ : Function).getKey.length + text.length + 18 < 2 ^ 31 ∧
      frame = framed execute (executeBody (⟨name, argTypes⟩ : Function).getKey text) := by
  obtain ⟨text, marshalled, built⟩ := (Outcome.bind_eq_ok _ _ _).mp built
  obtain ⟨length, fits, built⟩ := (Outcome.bind_eq_ok _ _ _).mp built
  obtain ⟨small, rfl⟩ := intOfSize_ok _ _ fits
  cases built
  refine ⟨text, marshalled, by omega, ?_⟩
  have size : (⟨name, argTypes⟩ : Function).getKey.length + 1 + (text.length + 1) + 16 - 8 =
      (executeBody (⟨name, argTypes⟩ : Function).getKey text).length := by
    rw [length_executeBody]
    omega
  rw [framed, ← size, executeBody]
  simp only [List.append_assoc]

theorem executeRequestFrame_fits (fp : FloatText) (f : Function) (args : List (Option Bytes))
    (text : Bytes)
    (marshalled : marshallArgs fp f.argTypes.array args (scanLength f.argTypes.array) = .ok text)
    (fits : f.getKey.length + text.length + 18 < 2 ^ 31) :
    executeRequestFrame fp f.name f.argTypes args = .ok (framed execute (executeBody f.getKey text)) := by
  have total : intOfSize (f.getKey.length + 1 + (text.length + 1) + 16) =
      .ok (f.getKey.length + text.length + 18) := by
    rw [intOfSize, if_pos (by omega)]
    congr 1
    omega
  have body : f.getKey.length + text.length + 18 - 8 = (executeBody f.getKey text).length := by
    rw [length_executeBody]
    omega
  rw [executeRequestFrame, marshalled]
  simp only [Outcome.ok_bind, total, body]
  rw [framed, executeBody]
  simp only [List.append_assoc]
  rfl

def resultBody (key text : Bytes) : Bytes :=
  lengthBytes (text.length + 1) ++ lengthBytes key.length ++ (text ++ [0]) ++ (key ++ [0])

theorem length_resultBody (key text : Bytes) :
    (resultBody key text).length = key.length + text.length + 10 := by
  simp only [resultBody, List.length_append, length_lengthBytes, List.length_singleton]
  omega

/-- A response for a procedure filed under its own key fills its buffer. -/
theorem sendExecuteResponse_framed (stale : Stale) (socket : Link) (f : Function) (text : Bytes) :
    sendExecuteResponse stale socket f f.getKey text 0 =
      if f.getKey.length + text.length + 18 < 2 ^ 31 then
        .ok ((sendAll socket (framed executeSuccess (resultBody f.getKey text))).1,
          (sendAll socket (framed executeSuccess (resultBody f.getKey text))).2.2)
      else .error .badSize := by
  have total : text.length + 1 + (f.getKey.length + 1) + 16 = f.getKey.length + text.length + 18 := by
    omega
  have frame : wordBytes executeSuccess ++ lengthBytes (f.getKey.length + text.length + 18 - 8) ++
      lengthBytes (text.length + 1) ++ lengthBytes f.getKey.length ++ (text ++ [0]) ++
      (f.getKey ++ [0]) = framed executeSuccess (resultBody f.getKey text) := by
    rw [framed, length_resultBody, resultBody]
    simp only [List.append_assoc]
    rfl
  have size := length_framed executeSuccess (resultBody f.getKey text)
  rw [length_resultBody] at size
  unfold sendExecuteResponse
  rw [if_neg (by simp), total, intOfSize]
  by_cases small : f.getKey.length + text.length + 18 < 2 ^ 31
  · rw [if_pos small, if_pos small, Outcome.ok_bind]
    simp only [frame]
    rw [if_neg (by omega), size, Nat.sub_self]
    simp [staleBytes]
    rfl
  · rw [if_neg small, if_neg small]
    rfl

theorem sendExecuteResponse_success (stale : Stale) (socket : Link) (f : Function) (text : Bytes)
    (clear : socket.Clear) :
    sendExecuteResponse stale socket f f.getKey text 0 =
      if f.getKey.length + text.length + 18 < 2 ^ 31 then
        .ok (0, { socket with sent := socket.sent ++ framed executeSuccess (resultBody f.getKey text) })
      else .error .badSize := by
  rw [sendExecuteResponse_framed, sendAll_clear socket _ clear]

theorem sendExecuteResponse_failure (stale : Stale) (socket : Link) (f : Function)
    (key text : Bytes) (reasonCode : CInt) (clear : socket.Clear) (failed : reasonCode ≠ 0) :
    sendExecuteResponse stale socket f key text reasonCode =
      .ok (0, { socket with
        sent := socket.sent ++ (wordBytes executeFailure ++ wordBytes reasonCode) }) := by
  unfold sendExecuteResponse
  rw [if_pos failed, sendAll_clear socket _ clear]

/-! Decoders, for a message that arrives whole. -/

theorem recvRegisterRequest_body (stale : Stale) (socket : Link) (s : Server)
    (hostBeyond nameBeyond : Stale) (f : Function) (rest : Bytes) (prompt : socket.Prompt)
    (stream : socket.incoming = registerBody s hostBeyond nameBeyond f ++ rest)
    (host_free : 0 ∉ s.host) (name_free : 0 ∉ f.name) (fits : f.getKey.length + 143 < 2 ^ 31) :
    recvRegisterRequest stale socket
        (BitVec.ofNat 32 (registerBody s hostBeyond nameBeyond f).length) =
      .ok (some ⟨s.host.take maxHostName, s.port, f.name.take maxFuncName, f.getKey⟩,
        { socket with incoming := rest }) := by
  have size := length_registerBody s hostBeyond nameBeyond f
  have length := toInt_ofNat (registerBody s hostBeyond nameBeyond f).length (by omega)
  have key_size : ((registerBody s hostBeyond nameBeyond f).length : Int) -
      (maxFuncName + 1 + maxHostName + 1 + 4) = (f.getKey.length + 1 : Nat) := by
    rw [size]
    simp only [maxFuncName, maxHostName]
    omega
  have arrived := recvInto_front socket
    (staleBytes stale (registerBody s hostBeyond nameBeyond f).length) _ rest prompt stream (by simp)
  have host : slice (registerBody s hostBeyond nameBeyond f) 0 (maxHostName + 1) =
      .ok (cStrField s.host (maxHostName + 1) hostBeyond) := by
    rw [registerBody, List.append_assoc, List.append_assoc]
    exact slice_middle [] (cStrField _ _ _) _ 0 _ rfl (by rw [length_cStrField]; rfl)
  have port : slice (registerBody s hostBeyond nameBeyond f) (maxHostName + 1) 4 =
      .ok (wordBytes s.port) := by
    rw [registerBody, List.append_assoc]
    exact slice_middle _ _ _ _ _ (by simp) (by simp)
  have name : slice (registerBody s hostBeyond nameBeyond f) (maxHostName + 1 + 4)
      (maxFuncName + 1) = .ok (cStrField f.name (maxFuncName + 1) nameBeyond) := by
    rw [registerBody]
    exact slice_middle _ _ _ _ _ (by simp) (by simp)
  have key : slice (registerBody s hostBeyond nameBeyond f)
      (maxHostName + 1 + maxFuncName + 1 + 4) (f.getKey.length + 1 : Nat) =
      .ok (f.getKey ++ [0]) := by
    rw [registerBody, ← List.append_nil (_ ++ (f.getKey ++ [0]))]
    exact slice_middle _ _ _ _ _ (by simp [maxHostName, maxFuncName]) (by simp)
  have cells : arraySize (((f.getKey.length + 1 : Nat) : Int) + 1) = .ok (f.getKey.length + 2) :=
    arraySize_ok (f.getKey.length + 2) (by omega)
  have whole : arraySize ((registerBody s hostBeyond nameBeyond f).length : Int) =
      .ok (registerBody s hostBeyond nameBeyond f).length := arraySize_ok _ (by omega)
  simp only [recvRegisterRequest, length, key_size, cells, whole, arrived, host, port, name, key,
    Outcome.ok_bind, pure, Except.pure, wordOf_wordBytes,
    cText_field s.host _ maxHostName hostBeyond host_free (Nat.le_succ _),
    cText_field f.name _ maxFuncName nameBeyond name_free (Nat.le_succ _),
    cText_terminated f.getKey (nul_not_in_getKey f name_free)]

theorem recvLocationRequest_body (stale : Stale) (socket : Link) (key rest : Bytes)
    (prompt : socket.Prompt) (stream : socket.incoming = (key ++ [0]) ++ rest) (free : 0 ∉ key)
    (fits : key.length + 2 < 2 ^ 31) :
    recvLocationRequest stale socket (BitVec.ofNat 32 (key ++ [0]).length) =
      .ok (some key, { socket with incoming := rest }) := by
  have size : (key ++ [0]).length = key.length + 1 := by simp
  have length := toInt_ofNat (key ++ [0]).length (by omega)
  have arrived := recvInto_front socket (staleBytes stale (key ++ [0]).length) _ rest prompt stream
    (by simp)
  have cells : arraySize (((key ++ [0]).length : Int) + 1) = .ok (key.length + 2) := by
    rw [size]
    exact arraySize_ok (key.length + 2) fits
  have whole : arraySize ((key ++ [0]).length : Int) = .ok (key ++ [0]).length :=
    arraySize_ok _ (by omega)
  have text : slice (key ++ [0]) 0 ((key ++ [0]).length : Int) = .ok (key ++ [0]) := by
    have part := slice_middle [] (key ++ [0]) [] 0 _ rfl rfl
    rwa [List.nil_append, List.append_nil] at part
  simp only [recvLocationRequest, length, cells, whole, arrived, text, Outcome.ok_bind, pure,
    Except.pure, cText_terminated key free]

theorem recvExecuteRequest_body (stale : Stale) (socket : Link) (key text rest : Bytes)
    (prompt : socket.Prompt)
    (stream : socket.incoming =
      lengthBytes (executeBody key text).length ++ executeBody key text ++ rest)
    (free : 0 ∉ key) (fits : key.length + text.length + 18 < 2 ^ 31) :
    recvExecuteRequest stale socket =
      .ok (some ⟨key, cText text⟩, { socket with incoming := rest }) := by
  have size := length_executeBody key text
  have read := recvLength_front socket (BitVec.ofNat 32 (executeBody key text).length)
    (executeBody key text ++ rest) prompt (by rw [stream, List.append_assoc]; rfl)
  have length := toInt_ofNat (executeBody key text).length (by omega)
  have whole : arraySize ((executeBody key text).length : Int) =
      .ok (executeBody key text).length := arraySize_ok _ (by omega)
  have arrived := recvInto_front { socket with incoming := executeBody key text ++ rest }
    (staleBytes stale (executeBody key text).length) _ rest prompt rfl (by simp)
  have key_length : slice (executeBody key text) 0 4 = .ok (lengthBytes (key.length + 1)) := by
    rw [executeBody, List.append_assoc, List.append_assoc]
    exact slice_middle [] _ _ 0 _ rfl (by simp)
  have key_bytes : slice (executeBody key text) 4 (key.length + 1 : Nat) = .ok (key ++ [0]) := by
    rw [executeBody, List.append_assoc]
    exact slice_middle _ _ _ _ _ (by simp) (by simp)
  have text_length : slice (executeBody key text) (4 + (key.length + 1)) 4 =
      .ok (lengthBytes (text.length + 1)) := by
    rw [executeBody]
    exact slice_middle _ _ _ _ _ (by simp) (by simp)
  have text_bytes : slice (executeBody key text) (8 + (key.length + 1)) (text.length + 1 : Nat) =
      .ok (text ++ [0]) := by
    rw [executeBody, ← List.append_nil (_ ++ (text ++ [0]))]
    exact slice_middle _ _ _ _ _ (by simp; omega) (by simp)
  have key_cells : arraySize (((key.length + 1 : Nat) : Int) + 1) = .ok (key.length + 2) :=
    arraySize_ok (key.length + 2) (by omega)
  have text_cells : arraySize (((text.length + 1 : Nat) : Int) + 1) = .ok (text.length + 2) :=
    arraySize_ok (text.length + 2) (by omega)
  simp only [recvExecuteRequest, recvExecuteBody, read, length, whole, arrived, key_length, key_bytes, text_length,
    text_bytes, key_cells, text_cells, wordOf_lengthBytes (key.length + 1) (by omega),
    wordOf_lengthBytes (text.length + 1) (by omega), Int.toNat_natCast, Outcome.ok_bind, pure,
    Except.pure, cText_terminated key free, cText_append_terminator text]

theorem recvResults_body (stale : Stale) (server : Link) (key text rest : Bytes)
    (prompt : server.Prompt)
    (stream : server.incoming =
      lengthBytes (resultBody key text).length ++ resultBody key text ++ rest)
    (fits : key.length + text.length + 18 < 2 ^ 31) :
    recvResults stale server =
      .ok (.success (text ++ [0]) key, { server with incoming := rest }) := by
  have size := length_resultBody key text
  have read := recvLength_front server (BitVec.ofNat 32 (resultBody key text).length)
    (resultBody key text ++ rest) prompt (by rw [stream, List.append_assoc]; rfl)
  have length := toInt_ofNat (resultBody key text).length (by omega)
  have whole : arraySize ((resultBody key text).length : Int) =
      .ok (resultBody key text).length := arraySize_ok _ (by omega)
  have arrived := recvInto_front { server with incoming := resultBody key text ++ rest }
    (staleBytes stale (resultBody key text).length) _ rest prompt rfl (by simp)
  have text_length : slice (resultBody key text) 0 4 = .ok (lengthBytes (text.length + 1)) := by
    rw [resultBody, List.append_assoc, List.append_assoc]
    exact slice_middle [] _ _ 0 _ rfl (by simp)
  have key_length : slice (resultBody key text) 4 4 = .ok (lengthBytes key.length) := by
    rw [resultBody, List.append_assoc]
    exact slice_middle _ _ _ _ _ (by simp) (by simp)
  have text_bytes : slice (resultBody key text) 8 (text.length + 1 : Nat) = .ok (text ++ [0]) := by
    rw [resultBody]
    exact slice_middle _ _ _ _ _ (by simp) (by simp)
  have key_bytes : slice (resultBody key text) (8 + (text.length + 1)) (key.length + 1 : Nat) =
      .ok (key ++ [0]) := by
    rw [resultBody, ← List.append_nil (_ ++ (key ++ [0]))]
    exact slice_middle _ _ _ _ _ (by simp; omega) (by simp)
  have text_cells : arraySize (((text.length + 1 : Nat) : Int) + 1) = .ok (text.length + 2) :=
    arraySize_ok (text.length + 2) (by omega)
  have key_cells : arraySize ((key.length + 1 : Nat) : Int) = .ok (key.length + 1) :=
    arraySize_ok (key.length + 1) (by omega)
  have key_int : (key.length : Int) + 1 = (key.length + 1 : Nat) := rfl
  simp only [recvResults, recvResultsBody, read, length, whole, arrived, text_length, key_length, text_bytes,
    text_cells, key_cells, wordOf_lengthBytes (text.length + 1) (by omega),
    wordOf_lengthBytes key.length (by omega), Int.toNat_natCast, Outcome.ok_bind, key_int, key_bytes,
    pure, Except.pure, List.take_left]

theorem recvResultsBody_ok (stale : Stale) (server after : Link) (length : CInt) (reply : ExecuteReply)
    (run : recvResultsBody stale server length = .ok (reply, after)) :
    reply = .lost errServerClientRecv ∨ ∃ marshalled key, reply = .success marshalled key := by
  obtain ⟨size, _, run⟩ := (Outcome.bind_eq_ok _ _ _).mp run
  split at run
  · cases run
    exact Or.inl rfl
  · obtain ⟨_, _, run⟩ := (Outcome.bind_eq_ok _ _ _).mp run
    obtain ⟨_, _, run⟩ := (Outcome.bind_eq_ok _ _ _).mp run
    obtain ⟨_, _, run⟩ := (Outcome.bind_eq_ok _ _ _).mp run
    obtain ⟨marshalled, _, run⟩ := (Outcome.bind_eq_ok _ _ _).mp run
    obtain ⟨_, _, run⟩ := (Outcome.bind_eq_ok _ _ _).mp run
    obtain ⟨key, _, run⟩ := (Outcome.bind_eq_ok _ _ _).mp run
    cases run
    exact Or.inr ⟨_, _, rfl⟩

theorem recvExecuteReply_success (locals : Locals) (client : Link) (key text rest : Bytes)
    (prompt : client.Prompt)
    (stream : client.incoming = framed executeSuccess (resultBody key text) ++ rest)
    (fits : key.length + text.length + 18 < 2 ^ 31) :
    recvExecuteReply locals client =
      .ok (.success (text ++ [0]) key, { client with incoming := rest }) := by
  rw [framed, List.append_assoc, List.append_assoc] at stream
  have flag := recvInto_front client (staleBytes locals.flag 4) _ _ prompt stream (by simp)
  have results := recvResults_body locals.response
    { client with
      incoming := lengthBytes (resultBody key text).length ++ (resultBody key text ++ rest) }
    key text rest prompt (List.append_assoc _ _ _).symm fits
  rw [recvExecuteReply, flag]
  simp only [wordOf_wordBytes, if_neg (show ¬ executeSuccess = executeFailure by decide), results]

theorem recvExecuteReply_failure (locals : Locals) (client : Link) (reasonCode : CInt) (rest : Bytes)
    (prompt : client.Prompt)
    (stream : client.incoming = (wordBytes executeFailure ++ wordBytes reasonCode) ++ rest) :
    recvExecuteReply locals client = .ok (.failure reasonCode, { client with incoming := rest }) := by
  rw [List.append_assoc] at stream
  have flag := recvInto_front client (staleBytes locals.flag 4) _ _ prompt stream (by simp)
  have reason := recvInto_front { client with incoming := wordBytes reasonCode ++ rest }
    (staleBytes locals.reasonCode 4) _ rest prompt rfl (by simp)
  rw [recvExecuteReply, flag]
  simp only [wordOf_wordBytes, if_true, reason]

theorem recvType_framed (stale : Stale) (type : CInt) (body : Bytes) :
    recvType stale (Link.delivering (framed type body)) =
      (some type, Link.delivering (lengthBytes body.length ++ body)) := by
  have stream : framed type body = wordBytes type ++ (lengthBytes body.length ++ body) := by
    rw [framed, List.append_assoc]
  rw [stream]
  exact recvType_front stale (Link.delivering _) type _ rfl rfl

theorem recvLength_delivering (body : Bytes) :
    recvLength (Link.delivering (lengthBytes body.length ++ body)) =
      (some (BitVec.ofNat 32 body.length), Link.delivering body) :=
  recvLength_front (Link.delivering _) _ body rfl rfl

/-- A host name as gethostname leaves it in its array. -/
def HostText (host : Bytes) : Prop := host.length ≤ maxHostName ∧ 0 ∉ host

def ReadsRegister (stale : Stale) (message : Bytes) (request : RegisterRequest) : Prop :=
  ∃ typed sized done length,
    recvType stale (Link.delivering message) = (some register, typed) ∧
    recvLength typed = (some length, sized) ∧
    recvRegisterRequest stale sized length = .ok (some request, done)

theorem reads_register (s : Server) (host : HostText s.host) (func : Function)
    (name_free : 0 ∉ func.name) (hostBeyond nameBeyond stale : Stale) (m : RegisterMessage)
    (built : s.createRegisterMessage hostBeyond nameBeyond func = .ok m) (request : RegisterRequest) :
    ReadsRegister stale m.buff request ↔
      request = ⟨s.host, s.port, func.name.take maxFuncName, func.getKey⟩ := by
  obtain ⟨fits, buff, _⟩ := createRegisterMessage_ok s hostBeyond nameBeyond func m built
  have type := recvType_framed stale register (registerBody s hostBeyond nameBeyond func)
  have length := recvLength_delivering (registerBody s hostBeyond nameBeyond func)
  have body := recvRegisterRequest_body stale (Link.delivering _) s hostBeyond nameBeyond func [] rfl
    (List.append_nil _).symm host.2 name_free fits
  rw [List.take_of_length_le host.1] at body
  rw [buff]
  constructor
  · rintro ⟨typed, sized, done, size, first, second, third⟩
    cases type.symm.trans first
    cases length.symm.trans second
    cases body.symm.trans third
    rfl
  · rintro rfl
    exact ⟨_, _, _, _, type, length, body⟩

def ReadsLocation (stale : Stale) (message key : Bytes) : Prop :=
  ∃ typed sized done length,
    recvType stale (Link.delivering message) = (some locationRequest, typed) ∧
    recvLength typed = (some length, sized) ∧
    recvLocationRequest stale sized length = .ok (some key, done)

theorem reads_location (stale : Stale) (f : Function) (name_free : 0 ∉ f.name)
    (fits : f.getKey.length + 2 < 2 ^ 31) (key : Bytes) :
    ReadsLocation stale (framed locationRequest (keyBody f)) key ↔ key = f.getKey := by
  have type := recvType_framed stale locationRequest (keyBody f)
  have length := recvLength_delivering (keyBody f)
  have body := recvLocationRequest_body stale (Link.delivering (keyBody f)) f.getKey [] rfl
    (List.append_nil _).symm (nul_not_in_getKey f name_free) fits
  constructor
  · rintro ⟨typed, sized, done, size, first, second, third⟩
    cases type.symm.trans first
    cases length.symm.trans second
    cases body.symm.trans third
    rfl
  · rintro rfl
    exact ⟨_, _, _, _, type, length, body⟩

def ReadsExecute (stale : Stale) (message : Bytes) (request : ExecuteRequest) : Prop :=
  ∃ typed done,
    recvType stale (Link.delivering message) = (some execute, typed) ∧
    recvExecuteRequest stale typed = .ok (some request, done)

theorem reads_execute (stale : Stale) (key text : Bytes) (free : 0 ∉ key)
    (fits : key.length + text.length + 18 < 2 ^ 31) (request : ExecuteRequest) :
    ReadsExecute stale (framed execute (executeBody key text)) request ↔
      request = ⟨key, cText text⟩ := by
  have type := recvType_framed stale execute (executeBody key text)
  have body := recvExecuteRequest_body stale (Link.delivering _) key text [] rfl
    (List.append_nil _).symm free fits
  constructor
  · rintro ⟨typed, done, first, second⟩
    cases type.symm.trans first
    cases body.symm.trans second
    rfl
  · rintro rfl
    exact ⟨_, _, type, body⟩

def noArguments : Function := ⟨[102], ⟨[], by simp⟩⟩

end BinderRpc.Frames
