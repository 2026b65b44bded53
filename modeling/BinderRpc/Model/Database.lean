import BinderRpc.Model.Signature
import BinderRpc.Model.Socket

/-!
The two databases of DB.cpp. A `std::map` is a partial function on its keys;
`insert` keeps an existing entry and `operator[]` assignment replaces it.
-/

namespace BinderRpc.Database

open Signature Socket

structure ServerInfo where
  host : Bytes
  port : CInt
  deriving DecidableEq, Repr

structure BinderDB where
  lookup : Bytes → Option (List ServerInfo)

def BinderDB.empty : BinderDB := ⟨fun _ => none⟩

/-- `operator[]` of the map, which files an empty list under a missing key. -/
def BinderDB.subscript (db : BinderDB) (key : Bytes) : List ServerInfo × BinderDB :=
  match db.lookup key with
  | some servers => (servers, db)
  | none => ([], ⟨Function.update db.lookup key (some [])⟩)

/-- The loop of BinderDB::update_db over the list as it was read: each entry
before the first match appends the new server once more. -/
def scanServers (s : ServerInfo) : List ServerInfo → List ServerInfo → CInt × List ServerInfo
  | [], stored => (registerSuccess, stored)
  | server :: rest, stored =>
      if ¬ (server.host = s.host ∧ server.port = s.port) then scanServers s rest (stored ++ [s])
      else (registerWarning, stored)

def BinderDB.updateDb (db : BinderDB) (_fName sName : Bytes) (port : CInt) (key : Bytes) :
    CInt × BinderDB :=
  let s : ServerInfo := ⟨sName, port⟩
  match db.lookup key with
  | none => (registerSuccess, ⟨Function.update db.lookup key (some [s])⟩)
  | some servers =>
      let result := scanServers s servers servers
      (result.1, ⟨Function.update db.lookup key (some result.2)⟩)

/-- A server's own tables. Skeletons are whatever `Skel` stands for; `functions`
files every procedure under its own key. -/
structure ServerDB (Skel : Type) where
  lookup : Bytes → Option Skel
  functions : Bytes → Option Function
  keyed : ∀ key f, functions key = some f → f.getKey = key

def ServerDB.empty (Skel : Type) : ServerDB Skel := ⟨fun _ => none, fun _ => none, by simp⟩

/-- `map::insert`. -/
def insertMissing {α : Type} (table : Bytes → Option α) (key : Bytes) (value : α) :
    Bytes → Option α :=
  if (table key).isSome then table else Function.update table key (some value)

theorem insertMissing_keyed (functions : Bytes → Option Function)
    (keyed : ∀ key f, functions key = some f → f.getKey = key) (func : Function) :
    ∀ key f, insertMissing functions func.getKey func key = some f → f.getKey = key := by
  intro key f found
  unfold insertMissing at found
  split at found
  · exact keyed key f found
  · by_cases same : key = func.getKey
    · subst same
      rw [Function.update_self] at found
      cases found
      rfl
    · rw [Function.update_of_ne same] at found
      exact keyed key f found

def ServerDB.updateDb {Skel : Type} (db : ServerDB Skel) (flag : CInt) (func : Function) (f : Skel) :
    CInt × ServerDB Skel :=
  if flag = registerWarning then
    (0, { db with lookup := Function.update db.lookup func.getKey (some f) })
  else
    (0, { lookup := insertMissing db.lookup func.getKey f
          functions := insertMissing db.functions func.getKey func
          keyed := insertMissing_keyed db.functions db.keyed func })

/-! What a registration leaves in the server's tables. -/

theorem insertMissing_self {α : Type} (table : Bytes → Option α) (key : Bytes) (value : α) :
    insertMissing table key value key = some ((table key).getD value) := by
  unfold insertMissing
  cases stored : table key with
  | none => simp
  | some old => simp [stored]

theorem insertMissing_other {α : Type} (table : Bytes → Option α) (key other : Bytes) (value : α)
    (different : other ≠ key) : insertMissing table key value other = table other := by
  unfold insertMissing
  split
  · rfl
  · exact Function.update_of_ne different _ _

theorem updateDb_warning {Skel : Type} (db : ServerDB Skel) (func : Function) (f : Skel) :
    (db.updateDb registerWarning func f).2.functions = db.functions ∧
      (db.updateDb registerWarning func f).2.lookup = Function.update db.lookup func.getKey (some f) := by
  rw [ServerDB.updateDb, if_pos rfl]
  exact ⟨rfl, rfl⟩

theorem updateDb_insert {Skel : Type} (db : ServerDB Skel) (flag : CInt) (func : Function) (f : Skel)
    (new : flag ≠ registerWarning) :
    (db.updateDb flag func f).2.functions = insertMissing db.functions func.getKey func ∧
      (db.updateDb flag func f).2.lookup = insertMissing db.lookup func.getKey f := by
  rw [ServerDB.updateDb, if_neg new]
  exact ⟨rfl, rfl⟩

theorem updateDb_other {Skel : Type} (db : ServerDB Skel) (flag : CInt) (func : Function) (f : Skel)
    (key : Bytes) (different : key ≠ func.getKey) :
    (db.updateDb flag func f).2.functions key = db.functions key ∧
      (db.updateDb flag func f).2.lookup key = db.lookup key := by
  by_cases warning : flag = registerWarning
  · subst warning
    obtain ⟨functions, lookup⟩ := updateDb_warning db func f
    rw [functions, lookup, Function.update_of_ne different]
    exact ⟨rfl, rfl⟩
  · obtain ⟨functions, lookup⟩ := updateDb_insert db flag func f warning
    rw [functions, lookup, insertMissing_other _ _ _ _ different, insertMissing_other _ _ _ _ different]
    exact ⟨rfl, rfl⟩

/-! The scan in closed form: it stops at the first match, having appended the
server once per entry before it. -/

theorem scanServers_eq (s : ServerInfo) (servers stored : List ServerInfo) :
    scanServers s servers stored =
      (if s ∈ servers then registerWarning else registerSuccess,
        stored ++ List.replicate (servers.idxOf s) s) := by
  induction servers generalizing stored with
  | nil => simp [scanServers]
  | cons server rest ih =>
      by_cases same : server = s
      · subst same
        simp [scanServers]
      · have differs : ¬ (server.host = s.host ∧ server.port = s.port) := by
          rintro ⟨host, port⟩
          exact same (by cases server; cases s; simp_all)
        rw [scanServers, if_pos differs, ih]
        simp [List.idxOf_cons_ne rest same, Ne.symm same, List.replicate_succ, List.append_assoc]

def enlisted (s : ServerInfo) : Option (List ServerInfo) → List ServerInfo
  | none => [s]
  | some servers => servers ++ List.replicate (servers.idxOf s) s

theorem updateDb_lookup (db : BinderDB) (fName sName : Bytes) (port : CInt) (key : Bytes) :
    (db.updateDb fName sName port key).2.lookup =
      Function.update db.lookup key (some (enlisted ⟨sName, port⟩ (db.lookup key))) := by
  cases stored : db.lookup key with
  | none => simp [BinderDB.updateDb, stored, enlisted]
  | some servers => simp [BinderDB.updateDb, stored, enlisted, scanServers_eq]

theorem updateDb_flag (db : BinderDB) (fName sName : Bytes) (port : CInt) (key : Bytes) :
    (db.updateDb fName sName port key).1 =
      if ⟨sName, port⟩ ∈ (db.lookup key).getD [] then registerWarning else registerSuccess := by
  cases stored : db.lookup key with
  | none => simp [BinderDB.updateDb, stored]
  | some servers => simp [BinderDB.updateDb, stored, scanServers_eq]

/-- A registration changes nothing exactly when its server is the first one of the
stored list. (Or when that list is empty, which no registration leaves behind.) -/
theorem updateDb_same_iff (db : BinderDB) (fName sName : Bytes) (port : CInt) (key : Bytes) :
    (db.updateDb fName sName port key).2 = db ↔
      ∃ servers, db.lookup key = some servers ∧ servers.idxOf ⟨sName, port⟩ = 0 := by
  have lookup := updateDb_lookup db fName sName port key
  constructor
  · intro same
    rw [same] at lookup
    have entry := congrFun lookup key
    rw [Function.update_self] at entry
    cases stored : db.lookup key with
    | none =>
        rw [stored] at entry
        cases entry
    | some servers =>
        rw [stored] at entry
        have length := congrArg List.length (Option.some.inj entry)
        simp only [enlisted, List.length_append, List.length_replicate] at length
        exact ⟨servers, rfl, by omega⟩
  · rintro ⟨servers, stored, first⟩
    rw [stored, enlisted, first, List.replicate_zero, List.append_nil, ← stored,
      Function.update_eq_self] at lookup
    exact congrArg BinderDB.mk lookup

theorem mem_enlisted (s other : ServerInfo) (stored : Option (List ServerInfo))
    (some_stored : stored ≠ some []) :
    other ∈ enlisted s stored ↔ other = s ∨ other ∈ stored.getD [] := by
  cases stored with
  | none => simp [enlisted]
  | some servers =>
      simp only [enlisted, List.mem_append, List.mem_replicate, Option.getD_some]
      constructor
      · rintro (old | ⟨_, new⟩)
        · exact Or.inr old
        · exact Or.inl new
      · rintro (rfl | old)
        · by_cases known : other ∈ servers
          · exact Or.inl known
          · refine Or.inr ⟨?_, rfl⟩
            rw [List.idxOf_eq_length known]
            intro empty
            exact some_stored (congrArg some (List.length_eq_zero_iff.mp empty))
        · exact Or.inl old

theorem enlisted_ne_nil (s : ServerInfo) (stored : Option (List ServerInfo))
    (nonempty : stored ≠ some []) : enlisted s stored ≠ [] := by
  cases stored with
  | none => simp [enlisted]
  | some servers =>
      intro none
      rw [enlisted] at none
      exact nonempty (congrArg some (List.append_eq_nil_iff.mp none).1)

section Stored
variable (db : BinderDB) (fName sName : Bytes) (port : CInt) (key : Bytes)
  (nonempty : ∀ other, db.lookup other ≠ some [])
include nonempty

theorem nonempty_updateDb (other : Bytes) :
    (db.updateDb fName sName port key).2.lookup other ≠ some [] := by
  rw [updateDb_lookup]
  by_cases same : other = key
  · subst same
    rw [Function.update_self]
    intro empty
    exact enlisted_ne_nil _ _ (nonempty other) (Option.some.inj empty)
  · rw [Function.update_of_ne same]
    exact nonempty other

theorem mem_updateDb (other : Bytes) (s : ServerInfo) :
    s ∈ ((db.updateDb fName sName port key).2.lookup other).getD [] ↔
      (other = key ∧ s = ⟨sName, port⟩) ∨ s ∈ (db.lookup other).getD [] := by
  rw [updateDb_lookup]
  by_cases same : other = key
  · subst same
    rw [Function.update_self, Option.getD_some, mem_enlisted _ _ _ (nonempty other)]
    simp
  · rw [Function.update_of_ne same]
    simp [same]

end Stored

end BinderRpc.Database
