import BinderRpc.Lib.Outcome
import BinderRpc.Model.Socket

/-!
Receivers on a stream that arrives in pieces. Every read of the program is one
`recv`, so a message is taken as sent exactly when no read of it is cut short: a
short read of a length makes the length smaller, and any other short read leaves
bytes of the message on the stream.
-/

namespace BinderRpc.Schedules

open Octets Socket Link

theorem recvInto_scheduled (stream old : Bytes) (limits : List Nat) :
    recvInto (scheduled stream limits) old =
      (some (stream.take (reach limits old.length)).length,
        filled old (some (stream.take (reach limits old.length))),
        scheduled (stream.drop (reach limits old.length)) limits.tail) := by
  rw [recvInto, recv_scheduled]
  rfl

theorem recvInto_reached (front rest old : Bytes) (limits : List Nat)
    (length : front.length = old.length) (reached : reach limits old.length = old.length) :
    recvInto (scheduled (front ++ rest) limits) old =
      (some front.length, front, scheduled rest limits.tail) := by
  rw [recvInto_scheduled, reached, List.take_left' length, List.drop_left' length,
    filled_whole old front (Nat.le_of_eq length.symm)]

variable {α : Type}

/-- Over this schedule the receiver decodes what it decodes when every read is
whole, and it stops at the end of the message. -/
def Intact (receive : Link → Except Fault (α × Link)) (message rest : Bytes) (limits : List Nat) : Prop :=
  ∃ decoded link, receive (scheduled (message ++ rest) []) = .ok (decoded, scheduled rest []) ∧
    receive (scheduled (message ++ rest) limits) = .ok (decoded, link) ∧ link.incoming = rest

/-- What is left after bytes have been taken is the rest only if they reached it. -/
theorem taken_all (message rest : Bytes) (count : Nat) (left : (message ++ rest).drop count = rest) :
    message.length ≤ count := by
  have size := congrArg List.length left
  rw [List.length_drop, List.length_append] at size
  omega

def single (old : Bytes) (decode : Option Nat → Bytes → α) (link : Link) : Except Fault (α × Link) :=
  match recvInto link old with
  | (count, memory, link) => .ok (decode count memory, link)

theorem single_iff (old : Bytes) (decode : Option Nat → Bytes → α) (block rest : Bytes)
    (limits : List Nat) (length : block.length = old.length) :
    Intact (single old decode) block rest limits ↔ Covers limits [block.length] := by
  rw [covers_cons, length]
  constructor
  · rintro ⟨decoded, link, _, run, ended⟩
    rw [single, recvInto_scheduled] at run
    cases run
    have all := taken_all block rest _ ended
    have most := reach_le limits old.length
    exact ⟨by omega, by cases limits.tail <;> trivial⟩
  · rintro ⟨reached, _⟩
    refine ⟨decode (some block.length) block, scheduled rest limits.tail, ?_, ?_, rfl⟩
    · rw [single, recvInto_reached block rest old [] length rfl]
      rfl
    · rw [single, recvInto_reached block rest old limits length reached]

def sized (lost : α) (body : Link → CInt → Except Fault (α × Link)) (link : Link) :
    Except Fault (α × Link) :=
  match recvLength link with
  | (none, link) => .ok (lost, link)
  | (some length, link) => body link length

/-- The body is one read of the given length, and nothing else of the
connection matters to it. -/
def Uniform (body : Link → CInt → Except Fault (α × Link)) : Prop :=
  ∀ left right length, (left.recv length.toInt.toNat).1 = (right.recv length.toInt.toNat).1 →
    body left length = (body right length).map fun result =>
      (result.1, (left.recv length.toInt.toNat).2)

theorem recvLength_scheduled (stream : Bytes) (limits : List Nat) :
    recvLength (scheduled stream limits) =
      (some (wordOf (filled [0, 0, 0, 0] (some (stream.take (reach limits 4))))),
        scheduled (stream.drop (reach limits 4)) limits.tail) := by
  rw [recvLength, recvInto_scheduled]
  rfl

theorem recvLength_block (block rest : Bytes) :
    recvLength (scheduled (lengthBytes block.length ++ block ++ rest) []) =
      (some (BitVec.ofNat 32 block.length), scheduled (block ++ rest) []) :=
  recvLength_front (scheduled _ []) _ _ rfl (List.append_assoc _ _ _)

/-- A length of which only the first bytes arrive is not larger than it was. -/
theorem partial_length (n count : Nat) (small : n < 2 ^ 31) (within : count ≤ 4) :
    (wordOf (filled [0, 0, 0, 0] (some ((lengthBytes n).take count)))).toInt.toNat ≤ n := by
  have four : (lengthBytes n).length = 4 := length_lengthBytes n
  have size : ((lengthBytes n).take count).length = count := by
    rw [List.length_take, four]
    omega
  have zeros : ([0, 0, 0, 0] : Bytes).drop count = List.replicate (4 - count) 0 := by
    have all : ([0, 0, 0, 0] : Bytes) = List.replicate 4 0 := rfl
    rw [all, List.drop_replicate]
  have cut : (lengthBytes n).reverse =
      ((lengthBytes n).drop count).reverse ++ ((lengthBytes n).take count).reverse := by
    rw [← List.reverse_append, List.take_append_drop]
  have value : leNat (lengthBytes n).reverse = n := by
    rw [lengthBytes, wordBytes, List.reverse_reverse, leNat_leBytes, BitVec.toNat_ofNat]
    omega
  have cleared := leNat_cleared_le ((lengthBytes n).drop count).reverse
    ((lengthBytes n).take count).reverse
  rw [← cut, value, List.length_reverse, List.length_drop, four] at cleared
  have memory : (filled [0, 0, 0, 0] (some ((lengthBytes n).take count))).reverse =
      List.replicate (4 - count) 0 ++ ((lengthBytes n).take count).reverse := by
    rw [filled, size, zeros, List.reverse_append, List.reverse_replicate]
  rw [wordOf, memory, toInt_ofNat _ (by omega)]
  exact cleared

theorem recvLength_whole (n : Nat) (stream : Bytes) (limits : List Nat) (reached : reach limits 4 = 4) :
    recvLength (scheduled (lengthBytes n ++ stream) limits) =
      (some (BitVec.ofNat 32 n), scheduled stream limits.tail) := by
  have front : (lengthBytes n ++ stream).take 4 = lengthBytes n := List.take_left' (length_lengthBytes _)
  have back : (lengthBytes n ++ stream).drop 4 = stream := List.drop_left' (length_lengthBytes _)
  rw [recvLength_scheduled, reached, front, back, filled_whole _ _ (by simp), lengthBytes,
    wordOf_wordBytes]

theorem sized_iff (lost : α) (body : Link → CInt → Except Fault (α × Link)) (uniform : Uniform body)
    (block rest : Bytes) (limits : List Nat) (small : block.length < 2 ^ 31)
    (arrives : ∃ decoded, body (scheduled (block ++ rest) []) (BitVec.ofNat 32 block.length) =
      .ok (decoded, scheduled rest [])) :
    Intact (sized lost body) (lengthBytes block.length ++ block) rest limits ↔
      Covers limits [4, block.length] := by
  have whole := toInt_ofNat block.length small
  rw [covers_cons, covers_cons]
  constructor
  · rintro ⟨decoded, link, _, run, ended⟩
    rw [sized, recvLength_scheduled] at run
    simp only at run
    -- the body is read once, with the length that was received
    rw [uniform _ _ _ rfl, recv_scheduled] at run
    obtain ⟨result, _, same⟩ := (Outcome.map_eq_ok _ _ _).mp run
    cases same
    have received : ((lengthBytes block.length ++ block) ++ rest).take (reach limits 4) =
        (lengthBytes block.length).take (reach limits 4) := by
      rw [List.append_assoc]
      apply List.take_append_of_le_length
      rw [length_lengthBytes]
      exact reach_le limits 4
    have smaller := partial_length block.length (reach limits 4) small (reach_le limits 4)
    simp only [scheduled, List.drop_drop, received] at ended
    have all := taken_all _ rest _ ended
    rw [List.length_append, length_lengthBytes] at all
    have first := reach_le limits 4
    have second := reach_le limits.tail
      (wordOf (filled [0, 0, 0, 0] (some ((lengthBytes block.length).take (reach limits 4))))).toInt.toNat
    have four : reach limits 4 = 4 := by omega
    rw [four, List.take_of_length_le (by simp), filled_whole _ _ (by simp), wordOf_lengthBytes _ small,
      Int.toNat_natCast] at all second
    exact ⟨four, by omega, by cases limits.tail.tail <;> trivial⟩
  · rintro ⟨first, second, _⟩
    obtain ⟨decoded, arrived⟩ := arrives
    have data : ((scheduled (block ++ rest) limits.tail).recv
        (BitVec.ofNat 32 block.length).toInt.toNat).1 =
        ((scheduled (block ++ rest) []).recv (BitVec.ofNat 32 block.length).toInt.toNat).1 := by
      rw [recv_scheduled, recv_scheduled, whole, Int.toNat_natCast, second]
      rfl
    refine ⟨decoded, scheduled rest limits.tail.tail, ?_, ?_, rfl⟩
    · rw [sized, List.append_assoc, recvLength_whole _ _ [] rfl]
      exact arrived
    · rw [sized, List.append_assoc, recvLength_whole _ _ limits first]
      simp only
      rw [uniform _ _ _ data, arrived, recv_scheduled, whole, Int.toNat_natCast, second,
        List.drop_left]
      rfl

def spoil (byte : UInt8) : Stale := fun i => if i = 3 then byte else 0

/-- A type that arrives in part is completed from uninitialised memory. -/
theorem spoiled_type (code : CInt) (low byte : UInt8) (rest : Bytes) (count : Nat)
    (layout : wordBytes code = [0, 0, 0, low]) (short : count < 4) :
    filled (staleBytes (spoil byte) 4) (some ((wordBytes code ++ rest).take count)) = [0, 0, 0, byte] := by
  have front : (wordBytes code ++ rest).take count = ([0, 0, 0, low] : Bytes).take count := by
    rw [layout]
    exact List.take_append_of_le_length (by simp; omega)
  rw [front]
  match count, short with
  | 0, _ => rfl
  | 1, _ => rfl
  | 2, _ => rfl
  | 3, _ => rfl

theorem whole_type (stale : Stale) (code : CInt) (rest : Bytes) :
    filled (staleBytes stale 4) (some ((wordBytes code ++ rest).take 4)) = wordBytes code := by
  rw [List.take_left' (length_wordBytes code), filled_whole _ _ (by simp)]

theorem recvType_scheduled (stale : Stale) (code : CInt) (rest : Bytes) (limits : List Nat)
    (some_bytes : 0 < reach limits 4) :
    recvType stale (scheduled (wordBytes code ++ rest) limits) =
      (some (wordOf (filled (staleBytes stale 4) (some ((wordBytes code ++ rest).take (reach limits 4))))),
        scheduled ((wordBytes code ++ rest).drop (reach limits 4)) limits.tail) := by
  have most := reach_le limits 4
  have count : ((wordBytes code ++ rest).take (reach limits 4)).length = reach limits 4 := by
    rw [List.length_take, List.length_append, length_wordBytes]
    omega
  obtain ⟨more, same⟩ : ∃ more, reach limits 4 = more + 1 := ⟨reach limits 4 - 1, by omega⟩
  rw [recvType, recvInto_scheduled, length_staleBytes, count, same]

theorem recvType_whole (stale : Stale) (code : CInt) (rest : Bytes) (limits : List Nat)
    (reached : reach limits 4 = 4) :
    recvType stale (scheduled (wordBytes code ++ rest) limits) =
      (some code, scheduled rest limits.tail) := by
  rw [recvType_scheduled stale code rest limits (by omega), reached, whole_type, wordOf_wordBytes,
    List.drop_left' (length_wordBytes code)]

/-! The same read by a client, which does not stop at the end of the stream. -/

theorem recvInto_type (stale : Stale) (code : CInt) (rest : Bytes) (limits : List Nat)
    (reached : reach limits 4 = 4) :
    recvInto (scheduled (wordBytes code ++ rest) limits) (staleBytes stale 4) =
      (some 4, wordBytes code, scheduled rest limits.tail) := by
  rw [recvInto_reached (wordBytes code) rest _ limits (by simp) (by simpa using reached),
    length_wordBytes]

theorem recvInto_spoiled (code : CInt) (low byte : UInt8) (rest : Bytes) (limits : List Nat)
    (layout : wordBytes code = [0, 0, 0, low]) (short : reach limits 4 < 4) :
    ∃ count link, recvInto (scheduled (wordBytes code ++ rest) limits) (staleBytes (spoil byte) 4) =
      (some count, [0, 0, 0, byte], link) := by
  rw [recvInto_scheduled, length_staleBytes, spoiled_type code low byte rest _ layout short]
  exact ⟨_, _, rfl⟩

/-- A message whose type must arrive whole, because memory can complete a part
of it to another one, is intact when its type and its remaining reads are. -/
theorem staged_iff {Memory : Type} (receive tail : Memory → Link → Except Fault (α × Link))
    (code : CInt) (block rest : Bytes) (requests limits : List Nat)
    (positive : ∀ limit ∈ limits, 0 < limit)
    (opens : ∀ memory limits, reach limits 4 = 4 →
      receive memory (scheduled (wordBytes code ++ (block ++ rest)) limits) =
        tail memory (scheduled (block ++ rest) limits.tail))
    (spoils : ∃ memory, ∀ decoded link left, 0 < reach limits 4 → reach limits 4 < 4 →
      receive memory (scheduled (wordBytes code ++ (block ++ rest)) limits) = .ok (decoded, link) →
      tail memory (scheduled (block ++ rest) []) ≠ .ok (decoded, left))
    (ends : ∀ memory, Intact (tail memory) block rest limits.tail ↔ Covers limits.tail requests) :
    (∀ memory, Intact (receive memory) (wordBytes code ++ block) rest limits) ↔
      Covers limits (4 :: requests) := by
  have some_bytes := reach_pos limits 4 positive (by decide)
  have most := reach_le limits 4
  have opens_whole := fun memory => opens memory [] rfl
  rw [covers_cons]
  constructor
  · intro intact
    have first : reach limits 4 = 4 := by
      by_contra short
      obtain ⟨memory, differs⟩ := spoils
      obtain ⟨decoded, link, whole, run, _⟩ := intact memory
      rw [List.append_assoc] at whole run
      rw [opens_whole] at whole
      exact differs decoded link _ some_bytes (by omega) run whole
    obtain ⟨memory, _⟩ := spoils
    refine ⟨first, (ends memory).mp ?_⟩
    obtain ⟨decoded, link, whole, run, ended⟩ := intact memory
    rw [List.append_assoc] at whole run
    rw [opens_whole] at whole
    rw [opens memory limits first] at run
    exact ⟨decoded, link, whole, run, ended⟩
  · rintro ⟨first, others⟩ memory
    obtain ⟨decoded, link, whole, run, ended⟩ := (ends memory).mpr others
    refine ⟨decoded, link, ?_, ?_, ended⟩
    · rw [List.append_assoc, opens_whole]
      exact whole
    · rw [List.append_assoc, opens memory limits first]
      exact run

theorem staged_single_iff {Memory : Type} (receive : Memory → Link → Except Fault (α × Link))
    (old : Memory → Bytes) (decode : Option Nat → Bytes → α) (code : CInt) (block rest : Bytes)
    (limits : List Nat) (length : ∀ memory, block.length = (old memory).length)
    (positive : ∀ limit ∈ limits, 0 < limit)
    (opens : ∀ memory limits, reach limits 4 = 4 →
      receive memory (scheduled (wordBytes code ++ (block ++ rest)) limits) =
        single (old memory) decode (scheduled (block ++ rest) limits.tail))
    (spoils : ∃ memory, ∀ decoded link left, 0 < reach limits 4 → reach limits 4 < 4 →
      receive memory (scheduled (wordBytes code ++ (block ++ rest)) limits) = .ok (decoded, link) →
      single (old memory) decode (scheduled (block ++ rest) []) ≠ .ok (decoded, left)) :
    (∀ memory, Intact (receive memory) (wordBytes code ++ block) rest limits) ↔
      Covers limits [4, block.length] := by
  apply staged_iff receive (fun memory => single (old memory) decode) code block rest [block.length]
    limits positive opens spoils
  intro memory
  exact single_iff (old memory) decode block rest limits.tail (length memory)

def renamed {β : Type} (name : α → β) (outcome : Except Fault (α × Link)) : Except Fault (β × Link) :=
  outcome.map fun result => (name result.1, result.2)

theorem renamed_eq_ok {β : Type} (name : α → β) (outcome : Except Fault (α × Link)) (result : β)
    (link : Link) :
    renamed name outcome = .ok (result, link) ↔
      ∃ value, outcome = .ok (value, link) ∧ name value = result := by
  rw [renamed, Outcome.map_eq_ok]
  constructor
  · rintro ⟨⟨value, after⟩, ran, same⟩
    cases same
    exact ⟨value, ran, rfl⟩
  · rintro ⟨value, ran, rfl⟩
    exact ⟨(value, link), ran, rfl⟩

theorem uniform_renamed {β : Type} (body : Link → CInt → Except Fault (α × Link)) (name : α → β)
    (uniform : Uniform body) : Uniform fun link length => renamed name (body link length) := by
  intro left right length same
  simp only [renamed]
  rw [uniform left right length same]
  cases body right length <;> rfl

theorem renamed_sized {β : Type} (name : α → β) (lost : α)
    (body : Link → CInt → Except Fault (α × Link)) (link : Link) :
    renamed name (sized lost body link) =
      sized (name lost) (fun link length => renamed name (body link length)) link := by
  rw [sized, sized]
  obtain ⟨length, after⟩ := recvLength link
  cases length <;> rfl

theorem sized_result (lost : α) (body : Link → CInt → Except Fault (α × Link)) (holds : α → Prop)
    (of_lost : holds lost)
    (of_body : ∀ link length result after, body link length = .ok (result, after) → holds result)
    (link after : Link) (result : α) (run : sized lost body link = .ok (result, after)) :
    holds result := by
  rw [sized] at run
  split at run
  · cases run
    exact of_lost
  · exact of_body _ _ _ _ run

end BinderRpc.Schedules
