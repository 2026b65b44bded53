import BinderRpc.Execution

/-!
The argument text inside an execute request and an execute response. Both frames
give its length and carry every byte; both receivers then hand the copied bytes
on as a C string, which ends at the first NUL.
-/

namespace BinderRpc.Texts

open Octets Text Signature Marshal Socket Database Client Server Frames

theorem cText_eq_iff (text : Bytes) : cText text = text ↔ 0 ∉ text := by
  constructor
  · intro whole
    rw [← whole]
    exact nul_not_in_cText text
  · exact cText_eq_self text

/-- handle_request reads the key and the text put into the request, and passes
them to exec_args. -/
def RequestCarries (f : Function) (text frame : Bytes) : Prop :=
  ∀ stale, ReadsExecute stale frame ⟨f.getKey, text⟩

/-- rpcCall parses the key and splits the text put into the response. -/
def ResponseCarries (f : Function) (text : Bytes) : Prop :=
  ∀ stale socket ret after, socket.Clear → socket.sent = [] →
    sendExecuteResponse stale socket f f.getKey text 0 = .ok (ret, after) →
    ∀ locals client rest, client.Prompt → client.incoming = after.sent ++ rest →
      ∃ marshalled key,
        recvExecuteReply locals client =
          .ok (.success marshalled key, { client with incoming := rest }) ∧
        cText key = f.getKey ∧ cText marshalled = text

theorem request_carries_iff (f : Function) (text : Bytes) (free : 0 ∉ f.name)
    (fits : f.getKey.length + text.length + 18 < 2 ^ 31) :
    RequestCarries f text (framed execute (executeBody f.getKey text)) ↔ 0 ∉ text := by
  rw [← cText_eq_iff]
  constructor
  · intro carries
    have read := (reads_execute (fun _ => 0) f.getKey text (nul_not_in_getKey f free) fits _).mp
      (carries fun _ => 0)
    exact (ExecuteRequest.mk.inj read).2.symm
  · intro whole stale
    apply (reads_execute stale f.getKey text (nul_not_in_getKey f free) fits _).mpr
    rw [whole]

theorem response_carries_iff (f : Function) (text : Bytes) (free : 0 ∉ f.name)
    (fits : f.getKey.length + text.length + 18 < 2 ^ 31) : ResponseCarries f text ↔ 0 ∉ text := by
  rw [← cText_eq_iff]
  have key_text := cText_eq_self f.getKey (nul_not_in_getKey f free)
  have read : ∀ locals client rest, client.Prompt →
      client.incoming = framed executeSuccess (resultBody f.getKey text) ++ rest →
      recvExecuteReply locals client =
        .ok (.success (text ++ [0]) f.getKey, { client with incoming := rest }) :=
    fun locals client rest prompt stream =>
      recvExecuteReply_success locals client f.getKey text rest prompt stream fits
  constructor
  · intro carries
    have sent := sendExecuteResponse_success (fun _ => 0) (.delivering []) f text rfl
    rw [if_pos fits] at sent
    obtain ⟨marshalled, key, received, _, same⟩ := carries (fun _ => 0) (.delivering []) _ _ rfl rfl sent
      ⟨fun _ => 0, fun _ => 0, fun _ => 0, fun _ => 0, fun _ => 0⟩
      (.delivering (framed executeSuccess (resultBody f.getKey text))) [] rfl (List.append_nil _).symm
    cases (read _ (.delivering (framed executeSuccess (resultBody f.getKey text))) [] rfl
      (List.append_nil _).symm).symm.trans received
    rw [← cText_append_terminator]
    exact same
  · intro whole stale socket ret after clear unsent sent locals client rest prompt stream
    rw [sendExecuteResponse_success stale socket f text clear, if_pos fits, unsent] at sent
    cases sent
    refine ⟨text ++ [0], f.getKey, read locals client rest prompt stream, key_text, ?_⟩
    rw [cText_append_terminator, whole]

structure Carried (f : Function) (text frame : Bytes) : Prop where
  request : RequestCarries f text frame
  response : ResponseCarries f text

theorem carried_iff (fp : FloatText) (name : Bytes) (argTypes : ArgTypes)
    (args : List (Option Bytes)) (text frame : Bytes) (free : 0 ∉ name)
    (marshalled : marshallArgs fp argTypes.array args (scanLength argTypes.array) = .ok text)
    (built : executeRequestFrame fp name argTypes args = .ok frame) :
    Carried ⟨name, argTypes⟩ text frame ↔ 0 ∉ text := by
  obtain ⟨other, same, fits, rfl⟩ := executeRequestFrame_ok fp name argTypes args frame built
  cases marshalled.symm.trans same
  constructor
  · intro carried
    exact (request_carries_iff ⟨name, argTypes⟩ text free fits).mp carried.request
  · intro whole
    exact ⟨(request_carries_iff ⟨name, argTypes⟩ text free fits).mpr whole,
      (response_carries_iff ⟨name, argTypes⟩ text free fits).mpr whole⟩

def oneChar : ArgTypes := ⟨[0x80010000], by simp⟩

theorem letter_carried :
    ∃ frame, executeRequestFrame .absent [102] oneChar [some [97]] = .ok frame ∧
      Carried ⟨[102], oneChar⟩ [97] frame := by
  obtain ⟨frame, built⟩ : ∃ frame, executeRequestFrame .absent [102] oneChar [some [97]] = .ok frame :=
    ⟨_, rfl⟩
  exact ⟨frame, built,
    (carried_iff .absent [102] oneChar [some [97]] [97] frame (by decide) rfl built).mpr (by decide)⟩

/-- The char 0 is put in and the server is passed an empty text. -/
theorem nul_char_lost :
    ∃ frame, executeRequestFrame .absent [102] oneChar [some [0]] = .ok frame ∧
      marshallArgs .absent oneChar.array [some [0]] 1 = .ok [0] ∧
      ReadsExecute (fun _ => 0) frame ⟨(Function.mk [102] oneChar).getKey, []⟩ ∧
      ¬ Carried ⟨[102], oneChar⟩ [0] frame := by
  refine ⟨_, rfl, rfl, ?_, ?_⟩
  · exact (reads_execute (fun _ => 0) (Function.mk [102] oneChar).getKey [0] (by decide) (by decide) _).mpr rfl
  · intro carried
    have read := (reads_execute (fun _ => 0) (Function.mk [102] oneChar).getKey [0] (by decide)
      (by decide) _).mp (carried.request fun _ => 0)
    exact absurd (ExecuteRequest.mk.inj read).2 (by decide)

end BinderRpc.Texts
