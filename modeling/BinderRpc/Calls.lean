import BinderRpc.Delivery
import BinderRpc.FailureReports
import BinderRpc.Naming

/-!
A scalar call from rpcCall's first byte to its return value, through a binder that
has dealt with any registrations and the server it names. The procedure runs on the
caller's values and its return value decides the caller's; the caller's memory stays
as it was.
-/

namespace BinderRpc.Calls

open Octets Text Signature Marshal Marshalled RoundTrip Socket Database Binder Client Server Frames Registry
  Location Execution FailureReports ScalarCalls ServerLoop Delivery

theorem asks_short (heap : Bytes) (f : Function) (name_nul : 0 ∉ f.name) (short : f.name.length ≤ 63)
    (fits : f.getKey.length + 9 < 2 ^ 31) : Asks heap f.name f.argTypes f := by
  obtain ⟨name, argTypes⟩ := f
  have rebuilt := Naming.locationFunction_short heap name argTypes name_nul locationRequest
    (name.length + 1) (scanLength argTypes.array)
  refine ⟨_, Naming.createLocationRequest_short name argTypes short, rebuilt, ?_⟩
  have total : intOfSize ((Function.mk name argTypes).getKey.length + 1 + 8) =
      .ok ((Function.mk name argTypes).getKey.length + 9) := if_pos fits
  have body : (Function.mk name argTypes).getKey.length + 9 - 8 =
      (keyBody ⟨name, argTypes⟩).length := by simp [keyBody]
  rw [locationRequestFrame, rebuilt]
  simp only [Outcome.ok_bind, total, body]
  rfl

section Client
variable (fp : FloatText) (heap : Bytes) (locals : Locals) (network : Bytes → Bytes → Option Link)
  (f : Function) (args : List (Option Bytes))

theorem rpcCall_located (binder server : Link) (beyond : Stale) (s : ServerInfo)
    (asks : Asks heap f.name f.argTypes f) (host : HostText s.host)
    (answers : Answers binder (answerBytes beyond (some s)))
    (leads : network s.host (toStri s.port.toInt) = some server) :
    rpcCall fp heap locals ⟨.ok binder, network⟩ f.name f.argTypes args =
      callServer fp locals server f.name f.argTypes args := by
  have reply := recvLocationReply_answer locals
    { binder with sent := binder.sent ++ framed locationRequest (keyBody f) } beyond (some s) []
    answers.prompt (answers.stream.trans (List.append_nil _).symm) (by rintro _ ⟨⟩; exact host)
  rw [rpcCall_asked fp heap locals binder network f.name f.argTypes args f asks answers.clear, reply,
    answer, located, leads]

theorem callServer_answered (server after : Link) (frame : Bytes) (reply : ExecuteReply) (ret : CInt)
    (built : executeRequestFrame fp f.name f.argTypes args = .ok frame) (clear : server.Clear)
    (received : recvExecuteReply locals { server with sent := server.sent ++ frame } = .ok (reply, after))
    (concluded : concludeCall reply = .ok ret) :
    callServer fp locals server f.name f.argTypes args = .ok ⟨ret, args, some reply⟩ := by
  have sent : sendExecuteRequest fp server f.name f.argTypes args =
      .ok (0, { server with sent := server.sent ++ frame }) := by
    rw [sendExecuteRequest, built, Outcome.ok_bind, sendAll_clear server _ clear]
    rfl
  rw [callServer, sent, Outcome.ok_bind]
  simp only [received, Outcome.ok_bind, concluded]
  rfl

theorem rpcCall_answered (binder server after : Link) (beyond : Stale) (s : ServerInfo) (frame : Bytes)
    (reply : ExecuteReply) (ret : CInt) (asks : Asks heap f.name f.argTypes f) (host : HostText s.host)
    (built : executeRequestFrame fp f.name f.argTypes args = .ok frame)
    (answers : Answers binder (answerBytes beyond (some s)))
    (leads : network s.host (toStri s.port.toInt) = some server) (clear : server.Clear)
    (received : recvExecuteReply locals { server with sent := server.sent ++ frame } = .ok (reply, after))
    (concluded : concludeCall reply = .ok ret) :
    rpcCall fp heap locals ⟨.ok binder, network⟩ f.name f.argTypes args = .ok ⟨ret, args, some reply⟩ := by
  rw [rpcCall_located fp heap locals network f args binder server beyond s asks host answers leads]
  exact callServer_answered fp locals f args server after frame reply ret built clear received concluded

theorem concludeCall_results (text : Bytes) (name_bar : bar ∉ f.name) (name_nul : 0 ∉ f.name)
    (text_nul : 0 ∉ text) (fits : f.getKey.length + text.length + 18 < 2 ^ 31) :
    concludeCall (.success (text ++ [0]) f.getKey) = .ok 0 := by
  have parsed := Keys.parseKey_getKey f name_bar (by omega)
  have parts := split_ok text bar (splittable_of_length text bar (by omega))
  simp only [concludeCall, cText_eq_self _ (nul_not_in_getKey f name_nul), cText_terminated _ text_nul,
    parsed, parts, Outcome.ok_bind]
  rfl

end Client

section Call
variable (fp : FloatText) (heap : Bytes) (history : List Registration) (scratch : Scratch)
  (memory : Memory) (db : ServerDB Skeleton) (f g : Function) (q : Skeleton) (s : ServerInfo)
  (args : List Bytes) (frame : Bytes)

theorem binder_names (asks : Asks heap f.name f.argTypes f)
    (first : (registrants history f.getKey).head? = some s) :
    BinderReplies history scratch heap f.name f.argTypes (answerBytes scratch.beyond (some s)) :=
  (binderReplies_iff _ _ _ _ _ _).mpr ⟨f, asks, by rw [first]⟩

/-- Where its response can be built, the call returns 0 if the skeleton did on the
caller's values, and ERR_INVALID_ARGS if not. Nothing comes back into the arguments. -/
theorem call_through (name_bar : bar ∉ f.name) (name_nul : 0 ∉ f.name) (short : f.name.length ≤ 63)
    (exact_types : ExactTypes f.args) (scalars : Scalars f.args) (matching : Matching f.args args)
    (chars_bar : CharsAvoid bar f.args args) (chars_nul : CharsAvoid 0 f.args args)
    (registered : db.functions f.getKey = some g) (skeleton : db.lookup f.getKey = some q)
    (behaves : Behaves f.args q) (first : (registrants history f.getKey).head? = some s)
    (host : HostText s.host)
    (built : executeRequestFrame fp f.name f.argTypes (args.map some) = .ok frame) :
    ∃ slots, HoldsValues slots args ∧
      ((q g.argTypes.array slots).1 ≠ 0 ∨
          f.getKey.length + (resultText fp f.args (q g.argTypes.array slots).2).length + 18 < 2 ^ 31 →
        ∃ fromBinder fromServer,
          BinderReplies history scratch heap f.name f.argTypes fromBinder ∧
          ServerReplies fp memory db f.name f.argTypes (args.map some) fromServer ∧
          ∀ locals network binder server, Answers binder fromBinder →
            network s.host (toStri s.port.toInt) = some server → Answers server fromServer →
            ∃ reply, rpcCall fp heap locals ⟨.ok binder, network⟩ f.name f.argTypes (args.map some) =
              .ok ⟨if (q g.argTypes.array slots).1 = 0 then 0 else errInvalidArgs, args.map some,
                some reply⟩) := by
  obtain ⟨slots, values, _, text_nul, turn⟩ :=
    scalar_turn fp memory db f g q args frame [] (.delivering frame) name_bar name_nul exact_types scalars
      matching chars_bar chars_nul registered skeleton behaves built rfl rfl (List.append_nil _).symm
  obtain ⟨_, _, room, _⟩ := executeRequestFrame_ok fp f.name f.argTypes _ frame built
  change f.getKey.length + _ + 18 < 2 ^ 31 at room
  -- where the execute frame can be built, so can the shorter location frame
  have asks := asks_short heap f name_nul short (by omega)
  refine ⟨slots, values, fun fits => ?_⟩
  refine ⟨_, _, binder_names heap history scratch f s asks first, ⟨frame, _, built, turn fits, rfl⟩, ?_⟩
  intro locals network binder server answers leads responds
  have stream := responds.stream.trans (List.append_nil _).symm
  rw [show (Link.delivering frame).sent = [] from rfl, List.nil_append] at stream
  by_cases zero : (q g.argTypes.array slots).1 = 0
  · have fitting := fits.resolve_left (not_not.mpr zero)
    rw [report, if_pos zero] at stream
    have received := recvExecuteReply_success locals { server with sent := server.sent ++ frame } f.getKey
      _ [] responds.prompt stream fitting
    rw [if_pos zero]
    exact ⟨_, rpcCall_answered fp heap locals network f _ binder server _ _ s frame _ 0 asks host built
      answers leads responds.clear received
      (concludeCall_results f _ name_bar name_nul (text_nul zero) fitting)⟩
  · rw [report, if_neg zero] at stream
    have received := recvExecuteReply_failure locals { server with sent := server.sent ++ frame }
      errInvalidArgs [] responds.prompt stream
    rw [if_neg zero]
    exact ⟨_, rpcCall_answered fp heap locals network f _ binder server _ _ s frame _ errInvalidArgs asks
      host built answers leads responds.clear received rfl⟩

end Call

theorem one_int_call :
    ∃ slots, HoldsValues slots [[0, 0, 0, 0]] ∧
      ((lowest oneInt.array slots).1 ≠ 0 ∨
          (Function.mk [102] oneInt).getKey.length +
            (resultText .absent oneIntArgs (lowest oneInt.array slots).2).length + 18 < 2 ^ 31 →
        ∃ fromBinder fromServer,
          BinderReplies [⟨[102], [104], 1, (Function.mk [102] oneInt).getKey⟩]
            ⟨fun _ => 0, fun _ => 0, fun _ => 0, 0⟩ [] [102] oneInt fromBinder ∧
          ServerReplies .absent zeroed (serving ⟨[102], oneInt⟩ lowest) [102] oneInt [some [0, 0, 0, 0]]
            fromServer ∧
          ∀ locals network binder server, Answers binder fromBinder →
            network [104] [49] = some server → Answers server fromServer →
            ∃ reply, rpcCall .absent [] locals ⟨.ok binder, network⟩ [102] oneInt [some [0, 0, 0, 0]] =
              .ok ⟨if (lowest oneInt.array slots).1 = 0 then 0 else errInvalidArgs, [some [0, 0, 0, 0]],
                some reply⟩) :=
  call_through .absent [] [⟨[102], [104], 1, (Function.mk [102] oneInt).getKey⟩]
    ⟨fun _ => 0, fun _ => 0, fun _ => 0, 0⟩ zeroed (serving ⟨[102], oneInt⟩ lowest) ⟨[102], oneInt⟩
    ⟨[102], oneInt⟩ lowest ⟨[104], 1⟩ [[0, 0, 0, 0]] _ (by decide) (by decide) (by decide)
    oneInt_scalar.1 oneInt_scalar.2.1 oneInt_scalar.2.2.1 oneInt_scalar.2.2.2.1 oneInt_scalar.2.2.2.2
    (serving_functions _ _) (serving_lookup _ _) lowest_behaves (by rw [oneInt_key]; rfl)
    ⟨by decide, by decide⟩ oneInt_built

end BinderRpc.Calls
