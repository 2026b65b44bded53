import BinderRpc.Model.Socket

/-!
The two loops around send and recv, over every schedule. send_all always ends,
with a prefix of its buffer handed over. recv_all reads right whatever it reads,
but only a full buffer or an error makes it stop: a peer that closes early is
asked again without end.
-/

namespace BinderRpc.Transfers

open Socket

/-! send_all. -/

inductive Sends (buf : Bytes) : Link → Nat → CInt × Nat × Link → Prop where
  | full (link : Link) (total : Nat) (out : ¬ total < buf.length) : Sends buf link total (0, total, link)
  | failed (link after : Link) (total : Nat) (more : total < buf.length)
      (refused : link.send (buf.drop total) = (none, after)) : Sends buf link total (-1, total, after)
  | next (link after : Link) (total n : Nat) (result : CInt × Nat × Link) (more : total < buf.length)
      (sent : link.send (buf.drop total) = (some n, after)) (later : Sends buf after (total + n) result) :
      Sends buf link total result

theorem sendLoop_full (buf : Bytes) (fuel : Nat) (link : Link) (total : Nat)
    (out : ¬ total < buf.length) : sendLoop buf fuel link total = (0, total, link) := by
  cases fuel with
  | zero => rfl
  | succ fuel => rw [sendLoop, if_neg out]

theorem sendLoop_sends (buf : Bytes) (fuel : Nat) (link : Link) (total : Nat)
    (enough : link.departures.length + 2 ≤ fuel) : Sends buf link total (sendLoop buf fuel link total) := by
  induction fuel generalizing link total with
  | zero => omega
  | succ fuel ih =>
      by_cases more : total < buf.length
      · rw [sendLoop, if_pos more]
        cases result : link.send (buf.drop total) with
        | mk count after =>
        cases count with
        | none => exact .failed link after total more result
        | some n =>
            obtain ⟨_, _, entry⟩ := Link.send_some link after _ n result
            refine .next link after total n _ more result ?_
            change Sends buf after (total + n) (sendLoop buf fuel after (total + n))
            rcases entry with ⟨_, _, whole⟩ | ⟨limit, schedule⟩
            · have out : ¬ total + n < buf.length := by
                rw [whole, List.length_drop]
                omega
              rw [sendLoop_full buf fuel after _ out]
              exact .full after _ out
            · apply ih
              rw [schedule, List.length_cons] at enough
              omega
      · rw [sendLoop_full buf (fuel + 1) link total more]
        exact .full link total more

theorem sendAll_sends (link : Link) (buf : Bytes) : Sends buf link 0 (sendAll link buf) :=
  sendLoop_sends buf _ link 0 (Nat.le_refl _)

/-- What the loop from `total` on has done when it ends; `used` are the results its
sends were given. -/
structure Delivered (buf : Bytes) (link : Link) (total : Nat) (result : CInt × Nat × Link)
    (used : List Transfer) : Prop where
  from_total : total ≤ result.2.1
  within : result.2.1 ≤ buf.length
  bytes : result.2.2.sent = link.sent ++ (buf.drop total).take (result.2.1 - total)
  schedule : link.departures = used ++ result.2.2.departures
  returned : (result.1 = 0 ∧ result.2.1 = buf.length ∧ .failed ∉ used) ∨
    (result.1 = -1 ∧ result.2.1 < buf.length ∧ .failed ∈ used)

theorem Sends.delivered (buf : Bytes) (link : Link) (total : Nat) (result : CInt × Nat × Link)
    (within : total ≤ buf.length) (run : Sends buf link total result) :
    ∃ used, Delivered buf link total result used := by
  induction run with
  | full link total out =>
      refine ⟨[], Nat.le_refl _, within, by simp, rfl, Or.inl ⟨rfl, ?_, by simp⟩⟩
      exact Nat.le_antisymm within (Nat.not_lt.mp out)
  | failed link after total more refused =>
      obtain ⟨sent, schedule⟩ := Link.send_none link after _ refused
      exact ⟨[.failed], Nat.le_refl _, within, by simp [sent], schedule, Or.inr ⟨rfl, more, by simp⟩⟩
  | next link after total n result more sent _ ih =>
      obtain ⟨size, handed, entry⟩ := Link.send_some link after _ n sent
      rw [List.length_drop] at size
      obtain ⟨used, delivered⟩ := ih (by omega)
      have after_total := delivered.from_total
      have bytes : result.2.2.sent = link.sent ++ (buf.drop total).take (result.2.1 - total) := by
        rw [delivered.bytes, handed, List.append_assoc, ← List.drop_drop,
          show result.2.1 - total = n + (result.2.1 - (total + n)) by omega, List.take_add]
      rcases entry with ⟨schedule, unused, _⟩ | ⟨limit, schedule⟩
      · have nothing := delivered.schedule
        rw [unused] at nothing
        obtain ⟨rfl, left⟩ := List.append_eq_nil_iff.mp nothing.symm
        exact ⟨[], by omega, delivered.within, bytes, by rw [schedule, left]; rfl, delivered.returned⟩
      · refine ⟨.upTo limit :: used, by omega, delivered.within, bytes, ?_, ?_⟩
        · rw [schedule, delivered.schedule]
          rfl
        · simpa using delivered.returned

structure DeliversPrefix (link : Link) (buf : Bytes) : Prop where
  ends : Sends buf link 0 (sendAll link buf)
  within : (sendAll link buf).2.1 ≤ buf.length
  bytes : (sendAll link buf).2.2.sent = link.sent ++ buf.take (sendAll link buf).2.1
  complete : (sendAll link buf).1 = 0 ↔ (sendAll link buf).2.1 = buf.length
  /-- The entries that the sends used up tell whether one of them failed. -/
  failure : ∃ used, link.departures = used ++ (sendAll link buf).2.2.departures ∧
    ((sendAll link buf).1 = -1 ↔ .failed ∈ used)
  cut : (sendAll link buf).1 = -1 → (sendAll link buf).2.1 < buf.length
  codes : (sendAll link buf).1 = 0 ∨ (sendAll link buf).1 = -1

theorem sendAll_delivered (link : Link) (buf : Bytes) :
    ∃ used, Delivered buf link 0 (sendAll link buf) used :=
  (sendAll_sends link buf).delivered buf link 0 _ (Nat.zero_le _)

theorem sendAll_out (link : Link) (buf : Bytes) :
    ∃ n, (sendAll link buf).2.2.sent = link.sent ++ buf.take n ∧
      ((sendAll link buf).1 ≠ -1 → n = buf.length) := by
  obtain ⟨used, delivered⟩ := sendAll_delivered link buf
  have bytes := delivered.bytes
  rw [List.drop_zero, Nat.sub_zero] at bytes
  refine ⟨_, bytes, fun out => ?_⟩
  rcases delivered.returned with ⟨_, whole, _⟩ | ⟨minus, _⟩
  · exact whole
  · exact absurd minus out

theorem sendAll_returns (link : Link) (buf : Bytes) :
    (sendAll link buf).1 = 0 ∨ (sendAll link buf).1 = -1 := by
  obtain ⟨used, delivered⟩ := sendAll_delivered link buf
  rcases delivered.returned with ⟨zero, _⟩ | ⟨minus, _⟩
  · exact Or.inl zero
  · exact Or.inr minus

theorem Sends.zero_iff (buf : Bytes) (link : Link) (total : Nat) (result : CInt × Nat × Link)
    (run : Sends buf link total result) :
    result.1 = 0 ↔ Link.LetsOut link.departures (buf.length - total) := by
  induction run with
  | full link total out =>
      rw [Nat.sub_eq_zero_of_le (Nat.not_lt.mp out)]
      exact ⟨fun _ => Link.letsOut_zero _, fun _ => rfl⟩
  | failed link after total more refused =>
      obtain ⟨_, schedule⟩ := Link.send_none link after _ refused
      rw [schedule, Link.LetsOut]
      exact ⟨fun minus => absurd (show (-1 : CInt) = 0 from minus) (by decide), fun none => by omega⟩
  | next link after total n result more sent _ ih =>
      rw [ih]
      obtain ⟨_, _, entry⟩ := Link.send_some link after _ n sent
      rcases entry with ⟨schedule, unused, _⟩ | ⟨limit, schedule⟩
      · rw [schedule, unused, Link.LetsOut, Link.LetsOut]
      · have taken : n = min limit (buf.length - total) := by
          have count := congrArg Prod.fst sent
          simp only [Link.send, schedule, List.length_drop, Option.some.injEq] at count
          exact count.symm
        rw [schedule, Link.LetsOut, show buf.length - (total + n) = buf.length - total - limit by omega]

theorem sendAll_zero_iff (link : Link) (buf : Bytes) :
    (sendAll link buf).1 = 0 ↔ Link.LetsOut link.departures buf.length :=
  (sendAll_sends link buf).zero_iff buf link 0 _

theorem send_all_delivers (link : Link) (buf : Bytes) : DeliversPrefix link buf := by
  have ends := sendAll_sends link buf
  obtain ⟨used, delivered⟩ := sendAll_delivered link buf
  have bytes := delivered.bytes
  rw [List.drop_zero, Nat.sub_zero] at bytes
  have differ : (0 : CInt) ≠ -1 := by decide
  rcases delivered.returned with ⟨zero, whole, none⟩ | ⟨minus, cut, some_failed⟩
  · refine ⟨ends, delivered.within, bytes, ⟨fun _ => whole, fun _ => zero⟩,
      ⟨used, delivered.schedule, ?_⟩, ?_, Or.inl zero⟩
    · rw [zero]
      exact ⟨fun same => absurd same differ, fun failed => absurd failed none⟩
    · rw [zero]
      exact fun same => absurd same differ
  · refine ⟨ends, delivered.within, bytes, ⟨?_, fun whole => absurd whole (Nat.ne_of_lt cut)⟩,
      ⟨used, delivered.schedule, ⟨fun _ => some_failed, fun _ => minus⟩⟩, fun _ => cut, Or.inr minus⟩
    rw [minus]
    exact fun same => absurd same.symm differ

/-! recv_all. -/

def stored (buf data : Bytes) (total : Nat) : Bytes :=
  buf.take total ++ (data ++ buf.drop (total + data.length))

theorem length_stored (buf data : Bytes) (total : Nat) (within : total + data.length ≤ buf.length) :
    (stored buf data total).length = buf.length := by
  simp only [stored, List.length_append, List.length_take, List.length_drop]
  omega

theorem take_stored (buf data : Bytes) (total : Nat) (within : total + data.length ≤ buf.length) :
    (stored buf data total).take (total + data.length) = buf.take total ++ data := by
  rw [stored, ← List.append_assoc, List.take_left']
  simp only [List.length_append, List.length_take]
  omega

theorem drop_stored (buf data : Bytes) (total got : Nat) (within : total + data.length ≤ buf.length)
    (past : total + data.length ≤ got) : (stored buf data total).drop got = buf.drop got := by
  have front : (buf.take total ++ data).length = total + data.length := by
    simp only [List.length_append, List.length_take]
    omega
  rw [stored, ← List.append_assoc, List.drop_append, List.drop_of_length_le (by omega), front,
    List.drop_drop, List.nil_append, Nat.add_sub_cancel' past]

theorem recvLoop_next (rounds : Nat) (link after : Link) (buf data : Bytes) (total : Nat)
    (more : total < buf.length) (received : link.recv (buf.length - total) = (some data, after)) :
    recvLoop (rounds + 1) link buf total =
      recvLoop rounds after (stored buf data total) (total + data.length) := by
  rw [recvLoop, if_pos more, recvInto_eq link _ _ List.length_drop, received, Link.filled, List.drop_drop]
  rfl

theorem recvLoop_failed (rounds : Nat) (link after : Link) (buf : Bytes) (total : Nat)
    (more : total < buf.length) (refused : link.recv (buf.length - total) = (none, after)) :
    recvLoop (rounds + 1) link buf total = some (-1, total, buf, after) := by
  rw [recvLoop, if_pos more, recvInto_eq link _ _ List.length_drop, refused]
  rfl

theorem recvLoop_full (rounds : Nat) (link : Link) (buf : Bytes) (total : Nat)
    (out : ¬ total < buf.length) : recvLoop (rounds + 1) link buf total = some (0, total, buf, link) := by
  rw [recvLoop, if_neg out]

theorem recvLoop_some (rounds : Nat) (link after : Link) (buf memory : Bytes) (total got : Nat)
    (ret : CInt) (within : total ≤ buf.length)
    (run : recvLoop rounds link buf total = some (ret, got, memory, after)) :
    ∃ data, link.incoming = data ++ after.incoming ∧ got = total + data.length ∧ got ≤ buf.length ∧
      memory = buf.take total ++ (data ++ buf.drop got) ∧
      ((ret = 0 ∧ got = buf.length) ∨ (ret = -1 ∧ got < buf.length ∧ .failed ∈ link.arrivals)) := by
  induction rounds generalizing link buf total with
  | zero => cases run
  | succ rounds ih =>
      by_cases more : total < buf.length
      · cases result : link.recv (buf.length - total) with
        | mk taken left =>
        cases taken with
        | none =>
            obtain ⟨incoming, schedule⟩ := Link.recv_none link left _ result
            rw [recvLoop_failed rounds link left buf total more result] at run
            cases run
            refine ⟨[], by rw [incoming]; rfl, rfl, within, ?_, Or.inr ⟨rfl, more, ?_⟩⟩
            · exact (List.take_append_drop _ _).symm
            · rw [schedule]
              exact List.mem_cons_self
        | some first =>
            obtain ⟨incoming, size, entry⟩ := Link.recv_some link left _ first result
            rw [recvLoop_next rounds link left buf first total more result] at run
            have inside : total + first.length ≤ buf.length := by omega
            have length := length_stored buf first total inside
            obtain ⟨rest, later, count, fits, filled, returned⟩ := ih left _ _ (by omega) run
            rw [length] at fits returned
            refine ⟨first ++ rest, by rw [incoming, later, List.append_assoc], ?_, fits, ?_, ?_⟩
            · rw [count, List.length_append, Nat.add_assoc]
            · rw [filled, take_stored buf first total inside,
                drop_stored buf first total got inside (by omega)]
              simp only [List.append_assoc]
            · rcases returned with full | ⟨minus, cut, failed⟩
              · exact Or.inl full
              · refine Or.inr ⟨minus, cut, ?_⟩
                rcases entry with ⟨_, none, _⟩ | ⟨limit, schedule⟩
                · rw [none] at failed
                  cases failed
                · rw [schedule]
                  exact List.mem_cons_of_mem _ failed
      · rw [recvLoop_full rounds link buf total more] at run
        cases run
        refine ⟨[], rfl, rfl, within, (List.take_append_drop _ _).symm, Or.inl ⟨rfl, by omega⟩⟩

/-- The loop ends on a full buffer, for which the stream must be long enough, or on
an error. -/
def Satisfied (link : Link) (missing : Nat) : Prop :=
  missing ≤ link.incoming.length ∨ .failed ∈ link.arrivals

theorem recvLoop_ends (link : Link) (buf : Bytes) (total : Nat) (within : total ≤ buf.length)
    (satisfied : Satisfied link (buf.length - total)) :
    ∃ rounds result, recvLoop rounds link buf total = some result := by
  induction schedule : link.arrivals generalizing link buf total with
  | nil =>
      have long : buf.length - total ≤ link.incoming.length := by
        refine satisfied.resolve_right ?_
        rw [schedule]
        exact List.not_mem_nil
      by_cases more : total < buf.length
      · -- nothing cuts this recv short, so one round fills the buffer
        have received := Link.recv_prompt link (buf.length - total) schedule
        refine ⟨2, _, (recvLoop_next 1 link _ buf _ total more received).trans
          (recvLoop_full 0 _ _ _ ?_)⟩
        rw [length_stored] <;> rw [List.length_take] <;> omega
      · exact ⟨1, _, recvLoop_full 0 link buf total more⟩
  | cons entry rest ih =>
      by_cases more : total < buf.length
      · cases result : link.recv (buf.length - total) with
        | mk taken left =>
        cases taken with
        | none => exact ⟨1, _, recvLoop_failed 0 link left buf total more result⟩
        | some data =>
            obtain ⟨incoming, size, used⟩ := Link.recv_some link left _ data result
            rcases used with ⟨none, _⟩ | ⟨limit, entries⟩
            · rw [schedule] at none
              cases none
            · rw [schedule] at entries
              obtain ⟨first, others⟩ := List.cons.inj entries
              have length := length_stored buf data total (by omega)
              have later : Satisfied left (buf.length - (total + data.length)) := by
                rcases satisfied with long | failed
                · rw [incoming, List.length_append] at long
                  exact Or.inl (by omega)
                · rw [schedule, first] at failed
                  rcases List.mem_cons.mp failed with here | there
                  · cases here
                  · exact Or.inr (others ▸ there)
              obtain ⟨rounds, ended, run⟩ := ih left _ (total + data.length) (by omega)
                (length ▸ later) others.symm
              refine ⟨rounds + 1, ended, ?_⟩
              rw [recvLoop_next rounds link left buf data total more result, run]
      · exact ⟨1, _, recvLoop_full 0 link buf total more⟩

theorem satisfied_of_some (rounds : Nat) (link : Link) (buf : Bytes) (result : CInt × Nat × Bytes × Link)
    (run : recvAll rounds link buf = some result) : Satisfied link buf.length := by
  obtain ⟨ret, got, memory, after⟩ := result
  obtain ⟨data, incoming, count, _, _, returned⟩ :=
    recvLoop_some rounds link after buf memory 0 got ret (Nat.zero_le _) run
  rcases returned with ⟨_, full⟩ | ⟨_, _, failed⟩
  · refine Or.inl ?_
    rw [incoming, List.length_append]
    omega
  · exact Or.inr failed

/-- recv_all ends, says how many bytes it received, has them in order at the front
of the buffer, and returns 0 only for a full one. -/
def ReceivesAll (link : Link) (buf : Bytes) : Prop :=
  ∃ rounds ret got memory after, recvAll rounds link buf = some (ret, got, memory, after) ∧
    ∃ data, link.incoming = data ++ after.incoming ∧ got = data.length ∧
      memory = data ++ buf.drop got ∧ (ret = 0 → got = buf.length)

theorem receives_all_iff (link : Link) (buf : Bytes) :
    ReceivesAll link buf ↔ Satisfied link buf.length := by
  constructor
  · rintro ⟨rounds, _, _, _, _, run, _⟩
    exact satisfied_of_some rounds link buf _ run
  · intro satisfied
    obtain ⟨rounds, ⟨ret, got, memory, after⟩, run⟩ := recvLoop_ends link buf 0 (Nat.zero_le _) satisfied
    obtain ⟨data, incoming, count, _, filled, returned⟩ :=
      recvLoop_some rounds link after buf memory 0 got ret (Nat.zero_le _) run
    refine ⟨rounds, ret, got, memory, after, run, data, incoming, by omega, filled, ?_⟩
    rintro rfl
    rcases returned with ⟨_, full⟩ | ⟨minus, _⟩
    · exact full
    · exact absurd minus (by decide)

/-- Two bytes of four arrive before the peer closes, and the loop never ends. -/
theorem closed_halfway :
    (∀ rounds, recvAll rounds (.delivering [1, 2]) [0, 0, 0, 0] = none) ∧
      ¬ ReceivesAll (.delivering [1, 2]) [0, 0, 0, 0] := by
  have unsatisfied : ¬ Satisfied (.delivering [1, 2]) 4 := by
    rintro (long | failed)
    · exact absurd long (by decide)
    · cases failed
  have endless : ∀ rounds, recvAll rounds (.delivering [1, 2]) [0, 0, 0, 0] = none := by
    intro rounds
    cases run : recvAll rounds (.delivering [1, 2]) [0, 0, 0, 0] with
    | none => rfl
    | some result => exact absurd (satisfied_of_some rounds _ _ result run) unsatisfied
  refine ⟨endless, ?_⟩
  rintro ⟨rounds, ret, got, memory, after, run, _⟩
  cases (endless rounds).symm.trans run

end BinderRpc.Transfers
