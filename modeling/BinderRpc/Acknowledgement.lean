import BinderRpc.Registering
import BinderRpc.Registry

/-!
The acknowledgement of a registration. Both sides give the address of a string
object where its characters are meant: the binder sends the low half of a data
pointer, the server lays it over the low half of its own and reads the C string
at the mixed address in its own memory. The flag's characters never travel.
-/

namespace BinderRpc.Acknowledgement

open Octets Text Signature Socket Database Binder Server Frames Registry Registering

/-- What rpcRegister obtains when the binder, with the characters of its string at
`pointer`, answers a server whose own string has its characters at `data`. -/
def obtained (pointer data : BitVec 64) (strings : BitVec 64 → Option Bytes) (flag : CInt) :
    Except Fault CInt :=
  (recvFlag strings data (.delivering (sendRegisterResponse pointer (.delivering []) flag).2.sent)).map
    Prod.fst

def mixed (pointer data : BitVec 64) : BitVec 64 := overlaid data ((leBytes 8 pointer.toNat).take 4)

theorem obtained_eq (pointer data : BitVec 64) (strings : BitVec 64 → Option Bytes) (flag : CInt) :
    obtained pointer data strings flag =
      match if mixed pointer data = data then some [] else strings (mixed pointer data) with
      | none => .error .dangling
      | some text => .ok (atoi text) := by
  have came : arrived (.delivering (sendRegisterResponse pointer (.delivering []) flag).2.sent) =
      (leBytes 8 pointer.toNat).take 4 := by
    change ((leBytes 8 pointer.toNat).take 4).take 4 = _
    rw [List.take_take, Nat.min_self]
  rw [obtained, recvFlag_eq, came, mixed]
  cases (if overlaid data ((leBytes 8 pointer.toNat).take 4) = data then some []
    else strings (overlaid data ((leBytes 8 pointer.toNat).take 4))) <;> rfl

/-- The server obtains the flag of this registration wherever the two strings
lie and whatever its memory holds. -/
def Arrives (db : BinderDB) (request : RegisterRequest) : Prop :=
  ∀ pointer data strings,
    obtained pointer data strings
        (db.updateDb request.fName request.sName request.port request.key).1 =
      .ok (db.updateDb request.fName request.sName request.port request.key).1

theorem never_arrives (db : BinderDB) (request : RegisterRequest) :
    ¬ Arrives db request ∧
      ∀ pointer data, ∃ strings value,
        obtained pointer data strings
            (db.updateDb request.fName request.sName request.port request.key).1 = .ok value ∧
          value ≠ (db.updateDb request.fName request.sName request.port request.key).1 := by
  have wrong : ∀ pointer data, ∃ strings value,
      obtained pointer data strings
          (db.updateDb request.fName request.sName request.port request.key).1 = .ok value ∧
        value ≠ (db.updateDb request.fName request.sName request.port request.key).1 := by
    intro pointer data
    -- at the mixed address there may be any text; at its own the server's is empty
    refine ⟨fun _ => some [], 0, ?_, ?_⟩
    · rw [obtained_eq]
      by_cases own : mixed pointer data = data
      · rw [if_pos own]
        rfl
      · rw [if_neg own]
        rfl
    · rw [updateDb_flag]
      by_cases known : ⟨request.sName, request.port⟩ ∈ (db.lookup request.key).getD []
      · rw [if_pos known]
        decide
      · rw [if_neg known]
        decide
  refine ⟨fun arrives => ?_, wrong⟩
  obtain ⟨strings, value, same, differs⟩ := wrong 0 0
  have flag := arrives 0 0 strings
  rw [same] at flag
  exact differs (Except.ok.inj flag)

/-- Both strings at the same address: the server reads its own empty string, 0 in
place of REGISTER_SUCCESS. -/
theorem zero_for_success :
    (BinderDB.empty.updateDb [102] [104] 1 [102]).1 = registerSuccess ∧
      obtained 4096 4096 (fun _ => none) registerSuccess = .ok 0 ∧
      ¬ Arrives BinderDB.empty ⟨[104], 1, [102], [102]⟩ := by
  have read : obtained 4096 4096 (fun _ => none) registerSuccess = .ok 0 := by rfl
  refine ⟨rfl, read, fun arrives => ?_⟩
  have flag := arrives 4096 4096 fun _ => none
  cases read.symm.trans flag

end BinderRpc.Acknowledgement
