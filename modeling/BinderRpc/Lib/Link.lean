import Mathlib.Tactic.Common

/-!
One end of a connected stream socket. `incoming` is what the peer still
delivers and `sent` what has been handed over. Each transfer call follows the
next entry of its schedule, which may cut it short or make it fail; past the
end of a schedule every call moves as much as it asks for. A peer with nothing
more to deliver has closed: the wait for one that keeps silent is not modelled.
A send that fails returns -1 and nothing else happens, as where SIGPIPE is ignored.
-/

namespace BinderRpc

inductive Transfer where
  | failed
  | upTo (limit : Nat)
  deriving DecidableEq, Repr

structure Link where
  incoming : List UInt8
  arrivals : List Transfer
  sent : List UInt8
  departures : List Transfer
  deriving DecidableEq, Repr

namespace Link

/-- `recv`: the bytes received, `none` for -1. -/
def recv (link : Link) (count : Nat) : Option (List UInt8) × Link :=
  match link.arrivals with
  | [] => (some (link.incoming.take count), { link with incoming := link.incoming.drop count })
  | .failed :: rest => (none, { link with arrivals := rest })
  | .upTo limit :: rest =>
      (some (link.incoming.take (min limit count)),
        { link with incoming := link.incoming.drop (min limit count), arrivals := rest })

/-- `send`: the number of bytes taken, `none` for -1. -/
def send (link : Link) (bytes : List UInt8) : Option Nat × Link :=
  match link.departures with
  | [] => (some bytes.length, { link with sent := link.sent ++ bytes })
  | .failed :: rest => (none, { link with departures := rest })
  | .upTo limit :: rest =>
      (some (min limit bytes.length),
        { link with sent := link.sent ++ bytes.take limit, departures := rest })

/-- Nothing cuts a receive short. -/
def Prompt (link : Link) : Prop := link.arrivals = []

/-- Nothing cuts a send short. -/
def Clear (link : Link) : Prop := link.departures = []

def delivering (bytes : List UInt8) : Link := ⟨bytes, [], [], []⟩

theorem recv_prompt (link : Link) (count : Nat) (prompt : link.Prompt) :
    link.recv count =
      (some (link.incoming.take count), { link with incoming := link.incoming.drop count }) := by
  simp only [recv, show link.arrivals = [] from prompt]

theorem recv_front (link : Link) (front rest : List UInt8) (count : Nat) (prompt : link.Prompt)
    (stream : link.incoming = front ++ rest) (length : front.length = count) :
    link.recv count = (some front, { link with incoming := rest }) := by
  rw [recv_prompt link count prompt, stream, List.take_left' length, List.drop_left' length]

theorem send_clear (link : Link) (bytes : List UInt8) (clear : link.Clear) :
    link.send bytes = (some bytes.length, { link with sent := link.sent ++ bytes }) := by
  simp only [send, show link.departures = [] from clear]

theorem send_receives (link : Link) (bytes : List UInt8) :
    (link.send bytes).2.incoming = link.incoming ∧ (link.send bytes).2.arrivals = link.arrivals := by
  unfold send
  split <;> exact ⟨rfl, rfl⟩

/-- A buffer after a receive into it: the bytes that came, then what it held. -/
def filled (old : List UInt8) : Option (List UInt8) → List UInt8
  | none => old
  | some data => data ++ old.drop data.length

theorem recv_departures (link : Link) (count : Nat) : (link.recv count).2.departures = link.departures := by
  unfold recv
  split <;> rfl

theorem recv_sent (link : Link) (count : Nat) : (link.recv count).2.sent = link.sent := by
  unfold recv
  split <;> rfl

theorem recv_congr (link other : Link) (count : Nat) (incoming : link.incoming = other.incoming)
    (arrivals : link.arrivals = other.arrivals) : (link.recv count).1 = (other.recv count).1 := by
  unfold recv
  rw [arrivals, incoming]
  cases other.arrivals with
  | nil => rfl
  | cons entry rest => cases entry <;> rfl

theorem length_recv (link : Link) (count : Nat) (data : List UInt8)
    (received : (link.recv count).1 = some data) : data.length ≤ count := by
  unfold recv at received
  split at received
  · cases received
    exact List.length_take_le count link.incoming
  · cases received
  · cases received
    exact Nat.le_trans (List.length_take_le _ _) (Nat.min_le_right _ _)

theorem send_fails_iff (link : Link) (bytes : List UInt8) :
    (link.send bytes).1 = none ↔ link.departures.head? = some .failed := by
  unfold send
  split
  · rename_i schedule
    simp [schedule]
  · rename_i schedule
    simp [schedule]
  · rename_i schedule
    simp [schedule]

theorem length_filled (old data : List UInt8) (within : data.length ≤ old.length) :
    (filled old (some data)).length = old.length := by
  simp only [filled, List.length_append, List.length_drop]
  omega

theorem filled_whole (old data : List UInt8) (length : old.length ≤ data.length) :
    filled old (some data) = data := by
  simp [filled, List.drop_of_length_le length]

/-! What one transfer moves, and what it uses up of its schedule. -/

theorem send_some (link after : Link) (bytes : List UInt8) (n : Nat)
    (sent : link.send bytes = (some n, after)) :
    n ≤ bytes.length ∧ after.sent = link.sent ++ bytes.take n ∧
      ((link.departures = [] ∧ after.departures = [] ∧ n = bytes.length) ∨
        ∃ limit, link.departures = .upTo limit :: after.departures) := by
  unfold send at sent
  split at sent
  · rename_i schedule
    cases sent
    exact ⟨Nat.le_refl _, by rw [List.take_length], Or.inl ⟨schedule, schedule, rfl⟩⟩
  · cases sent
  · rename_i limit rest schedule
    cases sent
    refine ⟨Nat.min_le_right _ _, ?_, Or.inr ⟨limit, schedule⟩⟩
    simp only [List.take_eq_take_min (i := limit)]

theorem send_none (link after : Link) (bytes : List UInt8) (refused : link.send bytes = (none, after)) :
    after.sent = link.sent ∧ link.departures = .failed :: after.departures := by
  unfold send at refused
  split at refused
  · cases refused
  · rename_i schedule
    cases refused
    exact ⟨rfl, schedule⟩
  · cases refused

theorem recv_some (link after : Link) (count : Nat) (data : List UInt8)
    (received : link.recv count = (some data, after)) :
    link.incoming = data ++ after.incoming ∧ data.length ≤ count ∧
      ((link.arrivals = [] ∧ after.arrivals = [] ∧ data.length = min count link.incoming.length) ∨
        ∃ limit, link.arrivals = .upTo limit :: after.arrivals) := by
  have within := length_recv link count data (congrArg Prod.fst received)
  unfold recv at received
  split at received
  · rename_i schedule
    cases received
    exact ⟨(List.take_append_drop _ _).symm, within, Or.inl ⟨schedule, schedule, List.length_take⟩⟩
  · cases received
  · rename_i limit rest schedule
    cases received
    exact ⟨(List.take_append_drop _ _).symm, within, Or.inr ⟨limit, schedule⟩⟩

theorem recv_none (link after : Link) (count : Nat) (refused : link.recv count = (none, after)) :
    after.incoming = link.incoming ∧ link.arrivals = .failed :: after.arrivals := by
  unfold recv at refused
  split at refused
  · cases refused
  · rename_i schedule
    cases refused
    exact ⟨rfl, schedule⟩
  · cases refused

/-- The schedule takes so many bytes before a send fails. -/
def LetsOut : List Transfer → Nat → Prop
  | [], _ => True
  | .failed :: _, count => count = 0
  | .upTo limit :: rest, count => LetsOut rest (count - limit)

theorem letsOut_zero (schedule : List Transfer) : LetsOut schedule 0 := by
  induction schedule with
  | nil => trivial
  | cons entry rest ih =>
      cases entry with
      | failed => rfl
      | upTo limit => rwa [LetsOut, Nat.zero_sub]

/-- A stream of which each receive takes no more than the next limit. -/
def scheduled (stream : List UInt8) (limits : List Nat) : Link := ⟨stream, limits.map .upTo, [], []⟩

def reach : List Nat → Nat → Nat
  | [], count => count
  | limit :: _, count => min limit count

def Covers : List Nat → List Nat → Prop
  | limit :: limits, request :: requests => request ≤ limit ∧ Covers limits requests
  | _, _ => True

theorem recv_scheduled (stream : List UInt8) (limits : List Nat) (count : Nat) :
    (scheduled stream limits).recv count =
      (some (stream.take (reach limits count)), scheduled (stream.drop (reach limits count)) limits.tail) := by
  cases limits <;> rfl

theorem reach_le (limits : List Nat) (count : Nat) : reach limits count ≤ count := by
  cases limits with
  | nil => exact Nat.le_refl count
  | cons limit limits => exact Nat.min_le_right limit count

theorem reach_pos (limits : List Nat) (count : Nat) (positive : ∀ limit ∈ limits, 0 < limit)
    (some_count : 0 < count) : 0 < reach limits count := by
  cases limits with
  | nil => exact some_count
  | cons limit limits =>
      have first := positive limit List.mem_cons_self
      simp only [reach]
      omega

theorem covers_cons (limits requests : List Nat) (request : Nat) :
    Covers limits (request :: requests) ↔
      reach limits request = request ∧ Covers limits.tail requests := by
  cases limits with
  | nil => cases requests <;> simp [Covers, reach]
  | cons limit limits =>
      have reached : min limit request = request ↔ request ≤ limit := by omega
      rw [Covers, reach, reached, List.tail_cons]

end Link
end BinderRpc
