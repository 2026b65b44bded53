import BinderRpc.Registering

/-!
What an unsuccessful rpcRegister leaves behind. The send's result is checked and
answered with a message code in place of an error code; the receive's is not, and
every flag but one falls through to update_db. The flag is the number that stands
at the address the four bytes make of the string's own.
-/

namespace BinderRpc.FailedRegistrations

open Octets Text Signature Socket Database Server Frames Transfers Registering

/-- The bytes lead away from the string's own characters, to a text that is a `long`
whose low half is `value`. -/
def ReadsAs (process : Process) (bytes : Bytes) (value : CInt) : Prop :=
  overlaid process.data bytes ≠ process.data ∧
    ∃ text number, process.strings (overlaid process.data bytes) = some text ∧
      Decimal.readInt (cText text) = some number ∧ -(2 ^ 63) ≤ number ∧ number < 2 ^ 63 ∧
      BitVec.ofInt 32 number = value

/-- What is no number is 0 to atoi, and what is too large ends in 0 or -1. -/
theorem atoi_eq_iff (text : Bytes) (value : CInt) (nonzero : value ≠ 0) (other : value ≠ -1) :
    atoi text = value ↔ ∃ number, Decimal.readInt (cText text) = some number ∧ -(2 ^ 63) ≤ number ∧
      number < 2 ^ 63 ∧ BitVec.ofInt 32 number = value := by
  rw [atoi]
  cases read : Decimal.readInt (cText text) with
  | none =>
      constructor
      · rintro rfl
        exact absurd rfl nonzero
      · rintro ⟨_, found, _⟩
        cases found
  | some number =>
      simp only [Option.getD_some, Option.some.injEq, exists_eq_left']
      by_cases low : -(2 ^ 63) ≤ number
      · by_cases high : number < 2 ^ 63
        · rw [min_eq_left (by omega), max_eq_right low]
          exact ⟨fun same => ⟨low, high, same⟩, fun found => found.2.2⟩
        · rw [min_eq_right (by omega), max_eq_right (by decide)]
          constructor
          · rintro rfl
            exact absurd (by decide) other
          · rintro ⟨_, small, _⟩
            exact absurd small high
      · rw [min_eq_left (by omega), max_eq_left (by omega)]
        constructor
        · rintro rfl
          exact absurd (by decide) nonzero
        · rintro ⟨large, _⟩
          exact absurd large low

section Registration

variable {Skel : Type} (call : RegisterCall Skel) (s : Server) (db : ServerDB Skel) (binder : Link)

/-- The request has a length that an `int` holds, and no send fails before it is out. -/
def Requested : Prop :=
  call.func.getKey.length + 143 < 2 ^ 31 ∧
    Link.LetsOut binder.departures (call.func.getKey.length + 143)

/-- All four bytes of an acknowledgement are received, and the flag is a success. -/
def Acknowledged : Prop :=
  Requested call binder ∧ (arrived binder).length = 4 ∧
    (ReadsAs call.process (arrived binder) registerSuccess ∨
      ReadsAs call.process (arrived binder) registerWarning)

/-- The call returns, and without an acknowledgement it returns a negative code and
leaves the database as it was. -/
def LeavesNoTrace : Prop :=
  ∃ ret after left, call.run s db binder = .ok (ret, after, left) ∧
    (¬ Acknowledged call binder → ret.toInt < 0 ∧ after = db)

theorem updateDb_zero (flag : CInt) (func : Function) (f : Skel) : (db.updateDb flag func f).1 = 0 := by
  rw [ServerDB.updateDb]
  split <;> rfl

theorem concludeRegister_negative (flag : CInt) (func : Function) (f : Skel)
    (negative : (concludeRegister db flag func f).1.toInt < 0) : flag = registerFailure := by
  by_contra other
  rw [concludeRegister, if_neg other, updateDb_zero] at negative
  exact absurd negative (by decide)

theorem requested_iff (m : RegisterMessage) (built : call.message s = .ok m) :
    Requested call binder ↔ (sendAll binder m.buff).1 = 0 := by
  obtain ⟨fits, buff, _⟩ := createRegisterMessage_ok s _ _ call.func m built
  have length : m.buff.length = call.func.getKey.length + 143 := by
    rw [buff, length_framed, length_registerBody]
  rw [Requested, sendAll_zero_iff, length]
  exact and_iff_right fits

theorem freed_iff (process : Process) (pointer : BitVec 64) (away : pointer ≠ process.data) :
    process.destroyFlag pointer = .ok () ↔ process.blocks pointer = true := by
  rw [Process.destroyFlag]
  by_cases block : process.blocks pointer = true
  · simp [block]
  · simp [block, away]

theorem run_reads (value : CInt) (nonzero : value ≠ 0) (other : value ≠ -1)
    (requested : Requested call binder)
    (block : call.process.blocks (overlaid call.process.data (arrived binder)) = true)
    (reads : ReadsAs call.process (arrived binder) value) :
    ∃ left, call.run s db binder = .ok ((concludeRegister db value call.func call.f).1,
      (concludeRegister db value call.func call.f).2, left) := by
  obtain ⟨away, text, number, there, read⟩ := reads
  obtain ⟨m, built, _⟩ := createRegisterMessage_fits s call.process.hostBeyond call.process.nameBeyond
    call.func requested.1
  have flag := (atoi_eq_iff text value nonzero other).mpr ⟨number, read⟩
  have received := (recvFlag_ok_iff call.process.strings call.process.data _
    (sendAll binder m.buff).2.2 _ value).mpr
    ⟨rfl, rfl, text, by rw [arrived_sendAll, if_neg away, there], flag.symm⟩
  rw [arrived_sendAll] at received
  have freed := (freed_iff call.process _ away).mpr block
  refine ⟨((sendAll binder m.buff).2.2.recv 4).2, ?_⟩
  rw [call.run_sent s db binder m built ((requested_iff call s binder m built).mp requested), received,
    Outcome.ok_bind]
  simp only [freed, Outcome.ok_bind]
  rfl

theorem leaves_no_trace_iff :
    LeavesNoTrace call s db binder ↔
      Requested call binder ∧
        call.process.blocks (overlaid call.process.data (arrived binder)) = true ∧
        (((arrived binder).length = 4 ∧ (ReadsAs call.process (arrived binder) registerSuccess ∨
            ReadsAs call.process (arrived binder) registerWarning)) ∨
          ReadsAs call.process (arrived binder) registerFailure) := by
  constructor
  · rintro ⟨ret, after, left, run, clean⟩
    obtain ⟨m, built, _⟩ := (Outcome.bind_eq_ok _ _ _).mp run
    have sent := requested_iff call s binder m built
    rcases sendAll_returns binder m.buff with out | failed
    · have requested := sent.mpr out
      rw [call.run_sent s db binder m built out] at run
      obtain ⟨⟨flag, pointer, _⟩, received, run⟩ := (Outcome.bind_eq_ok _ _ _).mp run
      obtain ⟨_, freed, run⟩ := (Outcome.bind_eq_ok _ _ _).mp run
      cases run
      obtain ⟨rfl, _, text, there, told⟩ := (recvFlag_ok_iff ..).mp received
      rw [arrived_sendAll] at freed there
      by_cases acknowledged : Acknowledged call binder
      · obtain ⟨_, four, reads⟩ := acknowledged
        have away : overlaid call.process.data (arrived binder) ≠ call.process.data :=
          reads.elim And.left And.left
        exact ⟨requested, (freed_iff call.process _ away).mp freed, Or.inl ⟨four, reads⟩⟩
      · have failure := concludeRegister_negative db flag call.func call.f (clean acknowledged).1
        rw [failure] at told
        -- the server's own string is empty and no failure
        have away : overlaid call.process.data (arrived binder) ≠ call.process.data := by
          intro own
          rw [if_pos own] at there
          cases there
          cases told
        rw [if_neg away] at there
        obtain ⟨number, read⟩ := (atoi_eq_iff text registerFailure (by decide) (by decide)).mp told.symm
        exact ⟨requested, (freed_iff call.process _ away).mp freed,
          Or.inr ⟨away, text, number, there, read⟩⟩
    · -- a failed send is answered with REGISTER_FAILURE, which is 3
      rw [call.run_unsent s db binder m built failed] at run
      cases run
      have missing : ¬ Acknowledged call binder := by
        rintro ⟨requested, _⟩
        cases failed.symm.trans (sent.mp requested)
      exact absurd (clean missing).1 (by decide)
  · rintro ⟨requested, block, ⟨four, success | warning⟩ | failure⟩
    · obtain ⟨left, run⟩ := run_reads call s db binder registerSuccess (by decide) (by decide) requested
        block success
      exact ⟨_, _, left, run, fun missing => absurd ⟨requested, four, Or.inl success⟩ missing⟩
    · obtain ⟨left, run⟩ := run_reads call s db binder registerWarning (by decide) (by decide) requested
        block warning
      exact ⟨_, _, left, run, fun missing => absurd ⟨requested, four, Or.inr warning⟩ missing⟩
    · obtain ⟨left, run⟩ := run_reads call s db binder registerFailure (by decide) (by decide) requested
        block failure
      rw [concludeRegister, if_pos rfl] at run
      exact ⟨errRegFail, db, left, run, fun _ => ⟨by decide, rfl⟩⟩

end Registration

/-! Server `h` registers `f`, which has no arguments. -/

def fCall : RegisterCall Nat := ⟨literal, [102], noArguments.argTypes, 7⟩

/-- The binder hangs up, and the procedure is filed and 0 returned. -/
theorem hung_up_filed :
    (∃ db left, fCall.run ⟨[104], 1⟩ (ServerDB.empty Nat) (.delivering []) = .ok (0, db, left) ∧
        db.lookup noArguments.getKey = some 7) ∧
      ¬ LeavesNoTrace fCall ⟨[104], 1⟩ (ServerDB.empty Nat) (.delivering []) := by
  obtain ⟨m, built, _⟩ := createRegisterMessage_fits ⟨[104], 1⟩ literal.hostBeyond literal.nameBeyond
    fCall.func (by decide)
  have out : sendAll (.delivering []) m.buff = (0, m.buff.length, { Link.delivering [] with sent := m.buff }) :=
    sendAll_clear (.delivering []) m.buff rfl
  have run := fCall.run_sent ⟨[104], 1⟩ (ServerDB.empty Nat) (.delivering []) m built (by rw [out])
  have received : recvFlag literal.strings literal.data { Link.delivering [] with sent := m.buff } =
      .ok (0, literal.data, { Link.delivering [] with sent := m.buff }) := rfl
  rw [out, show fCall.process = literal from rfl, received, Outcome.ok_bind] at run
  refine ⟨⟨_, _, run, ?_⟩, ?_⟩
  · rfl
  · rintro ⟨ret, after, left, again, clean⟩
    have missing : ¬ Acknowledged fCall (.delivering []) := by
      rintro ⟨_, four, _⟩
      cases four
    obtain ⟨negative, _⟩ := clean missing
    cases run.symm.trans again
    exact absurd negative (by decide)

end BinderRpc.FailedRegistrations
