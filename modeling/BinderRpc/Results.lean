import BinderRpc.Location
import BinderRpc.ScalarCalls

/-!
What a caller gets back. rpcCall reads a successful response and takes its text
apart, but the call that would store the values is commented out: the caller's
memory after a call is the memory before it.
-/

namespace BinderRpc.Results

open Octets Text Signature Marshal Marshalled Socket Database Client Frames Location ScalarCalls

def MemoryHolds (args : List (Option Bytes)) (k : Nat) (value : Bytes) : Prop :=
  ∃ memory, args[k]? = some (some memory) ∧ memory.take value.length = value

/-- Output arguments hold the results and the others are as before. -/
def ResultsDelivered (infos : List Args) (before after : List (Option Bytes)) (values : List Bytes) :
    Prop :=
  ∀ k a value, infos[k]? = some a → values[k]? = some value →
    if a.output = 1 then MemoryHolds after k value else after[k]? = before[k]?

def OutputsHold (infos : List Args) (args : List (Option Bytes)) (values : List Bytes) : Prop :=
  ∀ k a value, infos[k]? = some a → values[k]? = some value → a.output = 1 → MemoryHolds args k value

theorem callServer_args (fp : FloatText) (locals : Locals) (server : Link) (name : Bytes)
    (argTypes : ArgTypes) (args : List (Option Bytes)) (called : Called)
    (run : callServer fp locals server name argTypes args = .ok called) : called.args = args := by
  obtain ⟨sent, _, run⟩ := (Outcome.bind_eq_ok _ _ _).mp run
  obtain ⟨received, _, run⟩ := (Outcome.bind_eq_ok _ _ _).mp run
  obtain ⟨ret, _, run⟩ := (Outcome.bind_eq_ok _ _ _).mp run
  cases run
  rfl

theorem rpcCall_args (fp : FloatText) (heap : Bytes) (locals : Locals) (network : Network)
    (name : Bytes) (argTypes : ArgTypes) (args : List (Option Bytes)) (called : Called)
    (run : rpcCall fp heap locals network name argTypes args = .ok called) : called.args = args := by
  unfold rpcCall at run
  cases connected : network.binder with
  | error connectionResult =>
      rw [connected] at run
      cases run
      rfl
  | ok binder =>
      rw [connected] at run
      obtain ⟨locMsg, _, run⟩ := (Outcome.bind_eq_ok _ _ _).mp run
      obtain ⟨⟨messageResult, binder'⟩, _, run⟩ := (Outcome.bind_eq_ok _ _ _).mp run
      simp only at run
      by_cases unsent : messageResult.toInt < 0
      · rw [if_pos unsent] at run
        cases run
        rfl
      · rw [if_neg unsent] at run
        split at run
        · cases run
          rfl
        · cases run
          rfl
        · cases run
        · split at run
          · cases run
            rfl
          · exact callServer_args fp locals _ name argTypes args called run
        · cases run
          rfl

/-- Whatever the call returns, and whatever values its reply carries. -/
theorem results_delivered_iff (fp : FloatText) (heap : Bytes) (locals : Locals) (network : Network)
    (name : Bytes) (argTypes : ArgTypes) (args : List (Option Bytes)) (called : Called)
    (values : List Bytes) (run : rpcCall fp heap locals network name argTypes args = .ok called) :
    ResultsDelivered (Function.mk name argTypes).args args called.args values ↔
      OutputsHold (Function.mk name argTypes).args args values := by
  rw [rpcCall_args fp heap locals network name argTypes args called run]
  constructor
  · intro delivered k a value here there output
    have outcome := delivered k a value here there
    rwa [if_pos output] at outcome
  · intro holds k a value here there
    by_cases output : a.output = 1
    · rw [if_pos output]
      exact holds k a value here there output
    · rw [if_neg output]

/-! A call of `f` with one `int`, answered with 5. -/

def quiet : Locals := ⟨fun _ => 0, fun _ => 0, fun _ => 0, fun _ => 0, fun _ => 0⟩

def answering : Network where
  binder := .ok (.delivering (answerBytes (fun _ => 0) (some ⟨[104], 1⟩)))
  server := fun _ _ => some (.delivering
    (framed executeSuccess (resultBody (Function.mk [102] oneInt).getKey [53])))

theorem five_found :
    ResultsDelivered (Function.mk [102] oneInt).args [some [5, 0, 0, 0]] [some [5, 0, 0, 0]]
      [[5, 0, 0, 0]] := by
  refine (results_delivered_iff .absent [] quiet answering [102] oneInt [some [5, 0, 0, 0]]
    ⟨0, [some [5, 0, 0, 0]], some (.success [53, 0] (Function.mk [102] oneInt).getKey)⟩
    [[5, 0, 0, 0]] rfl).mpr ?_
  intro k a value _ there _
  cases k with
  | zero =>
      cases there
      exact ⟨_, rfl, rfl⟩
  | succ k => simp at there

/-- A caller whose memory holds 0 finds 0 after a call that returned 0. -/
theorem zero_kept :
    rpcCall .absent [] quiet answering [102] oneInt [some [0, 0, 0, 0]] =
        .ok ⟨0, [some [0, 0, 0, 0]], some (.success [53, 0] (Function.mk [102] oneInt).getKey)⟩ ∧
      joinedText .absent (Function.mk [102] oneInt).args [[5, 0, 0, 0]] = [53] ∧
      ¬ ResultsDelivered (Function.mk [102] oneInt).args [some [0, 0, 0, 0]] [some [0, 0, 0, 0]]
        [[5, 0, 0, 0]] := by
  refine ⟨rfl, rfl, fun delivered => ?_⟩
  have output : (⟨1, 1, 3, 0⟩ : Args).output = 1 := rfl
  have held := delivered 0 ⟨1, 1, 3, 0⟩ [5, 0, 0, 0] rfl rfl
  rw [if_pos output] at held
  obtain ⟨memory, same, value⟩ := held
  cases same
  exact absurd value (by decide)

end BinderRpc.Results
