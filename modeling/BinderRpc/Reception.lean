import BinderRpc.Arrival

/-!
The receivers look at the receiving half of a connection only, and leave the
sending half as it was.
-/

namespace BinderRpc.Reception

open Octets Text Socket Binder Client Server Schedules Arrival

variable {α β : Type}

/-- The receiving half of one connection and the sending half of another. -/
def joined (link other : Link) : Link := { link with sent := other.sent, departures := other.departures }

def half (link : Link) : Link := joined link (.delivering [])

def Hears (receive : Link → Except Fault (α × Link)) : Prop :=
  ∀ link other, receive (joined link other) =
    (receive link).map fun result => (result.1, joined result.2 other)

theorem Hears.sends {receive : Link → Except Fault (α × Link)} (hears : Hears receive) (link after : Link)
    (result : α) (run : receive link = .ok (result, after)) :
    after.sent = link.sent ∧ after.departures = link.departures := by
  have own := hears link link
  rw [show joined link link = link from rfl, run] at own
  have same : after = joined after link := congrArg Prod.snd (Except.ok.inj own)
  rw [same]
  exact ⟨rfl, rfl⟩

theorem Hears.half {receive : Link → Except Fault (α × Link)} (hears : Hears receive) (link after : Link)
    (result : α) (run : receive link = .ok (result, after)) :
    receive (half link) = .ok (result, Reception.half after) := by
  rw [Reception.half, hears, run]
  rfl

theorem recv_joined (link other : Link) (count : Nat) :
    (joined link other).recv count = ((link.recv count).1, joined (link.recv count).2 other) := by
  unfold Link.recv joined
  cases link.arrivals with
  | nil => rfl
  | cons transfer rest => cases transfer <;> rfl

theorem recvInto_joined (link other : Link) (old : Bytes) :
    recvInto (joined link other) old =
      ((recvInto link old).1, (recvInto link old).2.1, joined (recvInto link old).2.2 other) := by
  simp only [recvInto, recv_joined]

theorem recvType_joined (stale : Stale) (link other : Link) :
    recvType stale (joined link other) =
      ((recvType stale link).1, joined (recvType stale link).2 other) := by
  simp only [recvType, recvInto_joined]
  obtain ⟨count, memory, after⟩ := recvInto link (staleBytes stale 4)
  rcases count with _ | _ | count <;> rfl

theorem recvLength_joined (link other : Link) :
    recvLength (joined link other) = ((recvLength link).1, joined (recvLength link).2 other) := by
  simp only [recvLength, recvInto_joined]
  obtain ⟨count, memory, after⟩ := recvInto link [0, 0, 0, 0]
  cases count <;> rfl

theorem hears_sized (lost : α) (body : Link → CInt → Except Fault (α × Link))
    (hears : ∀ length, Hears fun link => body link length) : Hears (sized lost body) := by
  intro link other
  rw [sized, sized, recvLength_joined]
  obtain ⟨length, after⟩ := recvLength link
  cases length with
  | none => rfl
  | some length => exact hears length after other

theorem hears_renamed (name : α → β) (receive : Link → Except Fault (α × Link)) (hears : Hears receive) :
    Hears fun link => renamed name (receive link) := by
  intro link other
  simp only [renamed, hears link other]
  cases receive link <;> rfl

theorem hears_register (stale : Stale) (length : CInt) :
    Hears fun link => recvRegisterRequest stale link length := by
  intro link other
  simp only [recvRegisterRequest, Outcome.map_bind]
  -- how long the buffers are is up to the length alone
  refine Outcome.bind_congr _ _ _ fun cells _ => Outcome.bind_congr _ _ _ fun size _ => ?_
  rw [recvInto_joined]
  obtain ⟨count, buff, after⟩ := recvInto link (staleBytes stale size)
  cases count with
  | none => rfl
  | some count =>
      simp only [Outcome.map_bind]
      rfl

theorem hears_locate (stale : Stale) (length : CInt) :
    Hears fun link => recvLocationRequest stale link length := by
  intro link other
  simp only [recvLocationRequest, Outcome.map_bind]
  refine Outcome.bind_congr _ _ _ fun cells _ => Outcome.bind_congr _ _ _ fun size _ => ?_
  rw [recvInto_joined]
  obtain ⟨count, buff, after⟩ := recvInto link (staleBytes stale size)
  cases count with
  | none => rfl
  | some count =>
      simp only [Outcome.map_bind]
      rfl

theorem hears_execute (stale : Stale) (length : CInt) :
    Hears fun link => recvExecuteBody stale link length := by
  intro link other
  simp only [recvExecuteBody, Outcome.map_bind]
  refine Outcome.bind_congr _ _ _ fun size _ => ?_
  rw [recvInto_joined]
  rfl

theorem hears_binderDecode (stale : Stale) (type : CInt) : Hears (binderDecode stale type) := by
  intro link other
  unfold binderDecode
  by_cases registers : type = register
  · rw [if_pos registers, if_pos registers]
    exact hears_sized _ _ (fun length => hears_renamed _ _ (hears_register stale length)) link other
  · rw [if_neg registers, if_neg registers]
    by_cases locates : type = locationRequest
    · rw [if_pos locates, if_pos locates]
      exact hears_sized _ _ (fun length => hears_renamed _ _ (hears_locate stale length)) link other
    · rw [if_neg locates, if_neg locates]
      rfl

theorem hears_serverDecode (stale : Stale) (type : CInt) : Hears (serverDecode stale type) := by
  intro link other
  unfold serverDecode
  by_cases executes : type = execute
  · rw [if_pos executes, if_pos executes]
    exact hears_sized _ _ (fun length => hears_renamed _ _ (hears_execute stale length)) link other
  · rw [if_neg executes, if_neg executes]
    rfl

theorem recvLocationReply_joined (locals : Locals) (link other : Link) :
    recvLocationReply locals (joined link other) =
      ((recvLocationReply locals link).1, joined (recvLocationReply locals link).2 other) := by
  simp only [recvLocationReply, recvInto_joined]
  obtain ⟨count, msgType, after⟩ := recvInto link (staleBytes locals.msgType 4)
  cases count with
  | none => rfl
  | some count =>
      simp only [recvInto_joined]
      split
      · rfl
      · split <;> rfl

theorem hears_results (stale : Stale) (length : CInt) :
    Hears fun link => recvResultsBody stale link length := by
  intro link other
  simp only [recvResultsBody, Outcome.map_bind]
  refine Outcome.bind_congr _ _ _ fun size _ => ?_
  rw [recvInto_joined]
  obtain ⟨count, buff, after⟩ := recvInto link (staleBytes stale size)
  cases count with
  | none => rfl
  | some count =>
      simp only [Outcome.map_bind]
      rfl

theorem hears_executeReply (locals : Locals) : Hears (recvExecuteReply locals) := by
  intro link other
  simp only [recvExecuteReply, recvInto_joined]
  obtain ⟨count, flag, after⟩ := recvInto link (staleBytes locals.flag 4)
  cases count with
  | none => rfl
  | some count =>
      simp only
      by_cases failure : wordOf flag = executeFailure
      · rw [if_pos failure, if_pos failure, recvInto_joined]
        rfl
      · rw [if_neg failure, if_neg failure, recvResults_eq, recvResults_eq]
        exact hears_sized _ _ (hears_results locals.response) after other

theorem sendAll_joined (link : Link) (buf : Bytes) :
    (sendAll link buf).2.2 = joined link (sendAll link buf).2.2 := by
  obtain ⟨incoming, arrivals⟩ := sendAll_receives link buf
  generalize (sendAll link buf).2.2 = after at *
  rw [joined, ← incoming, ← arrivals]

end BinderRpc.Reception
