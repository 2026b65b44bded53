import BinderRpc.ArrayLengths
import BinderRpc.Dispatch

/-!
Both databases read off the history of a key. A server's tables come down to two
registrations of the key; the binder's list doubles with every new server.
-/

namespace BinderRpc.Tables

open Octets Signature Marshal Socket Database Server Frames Dispatch

def under (updates : List Update) (key : Bytes) : List Update :=
  updates.filter fun u => u.func.getKey = key

def warned (u : Update) : Bool := u.flag = registerWarning

/-- The procedure of the first registration that was not warned. -/
def filed (history : List Update) : Option Function :=
  (history.find? fun u => !warned u).map Update.func

/-- The skeleton of the last registration that was warned, or of the first of all. -/
def stored (history : List Update) : Option Skeleton :=
  ((history.filter warned).getLast?.or history.head?).map Update.f

theorem under_snoc (updates : List Update) (u : Update) (key : Bytes) :
    under (updates ++ [u]) key =
      if u.func.getKey = key then under updates key ++ [u] else under updates key := by
  by_cases same : u.func.getKey = key
  · simp [under, same]
  · simp [under, same]

theorem filed_snoc (history : List Update) (u : Update) :
    filed (history ++ [u]) = if warned u then filed history else some ((filed history).getD u.func) := by
  rw [filed, List.find?_append]
  cases old : history.find? fun u => !warned u with
  | some first => cases new : warned u <;> simp [filed, old]
  | none => cases new : warned u <;> simp [filed, old, new]

theorem stored_snoc (history : List Update) (u : Update) :
    stored (history ++ [u]) = if warned u then some u.f else some ((stored history).getD u.f) := by
  rw [stored, List.filter_append]
  cases new : warned u with
  | true => simp [new]
  | false =>
      have same : (history.filter warned) ++ [u].filter warned = history.filter warned := by simp [new]
      rw [same, stored]
      cases history with
      | nil => simp
      | cons first rest =>
          rw [List.cons_append, List.head?_cons, List.head?_cons]
          cases ((first :: rest).filter warned).getLast? <;> rfl

structure Tabulated (updates : List Update) (db : ServerDB Skeleton) : Prop where
  functions : ∀ key, db.functions key = filed (under updates key)
  lookup : ∀ key, db.lookup key = stored (under updates key)

theorem tabulated_update (updates : List Update) (db : ServerDB Skeleton) (u : Update)
    (before : Tabulated updates db) : Tabulated (updates ++ [u]) (update db u) := by
  have step : ∀ key, (update db u).functions key = filed (under (updates ++ [u]) key) ∧
      (update db u).lookup key = stored (under (updates ++ [u]) key) := by
    intro key
    rw [under_snoc, update]
    by_cases same : u.func.getKey = key
    · subst same
      rw [if_pos rfl, filed_snoc, stored_snoc, ← before.functions, ← before.lookup]
      by_cases warning : u.flag = registerWarning
      · obtain ⟨functions, lookup⟩ := updateDb_warning db u.func u.f
        have told : warned u = true := decide_eq_true warning
        rw [if_pos told, if_pos told, warning, functions, lookup, Function.update_self]
        exact ⟨rfl, rfl⟩
      · obtain ⟨functions, lookup⟩ := updateDb_insert db u.flag u.func u.f warning
        have told : ¬ warned u = true := by simp [warned, warning]
        rw [if_neg told, if_neg told, functions, lookup, insertMissing_self, insertMissing_self]
        exact ⟨rfl, rfl⟩
    · obtain ⟨functions, lookup⟩ := updateDb_other db u.flag u.func u.f key (Ne.symm same)
      rw [if_neg same, functions, lookup]
      exact ⟨before.functions key, before.lookup key⟩
  exact ⟨fun key => (step key).1, fun key => (step key).2⟩

theorem tabulated_replay (updates : List Update) : Tabulated updates (replay updates) := by
  induction updates using List.reverseRecOn with
  | nil => exact ⟨fun key => rfl, fun key => rfl⟩
  | append_singleton updates u ih =>
      rw [replay_snoc]
      exact tabulated_update updates _ u ih

/-- What an execute request for the key comes to is settled by the registrations of
that key, in their order, however they lie among the others. -/
theorem dispatch_by_key (first second : List Update) (key : Bytes)
    (same : under first key = under second key) : SameDispatch (replay first) (replay second) key := by
  apply sameDispatch
  · rw [(tabulated_replay second).functions, (tabulated_replay first).functions, same]
  · rw [(tabulated_replay second).lookup, (tabulated_replay first).lookup, same]

theorem two_procedures_either_order :
    SameDispatch (replay [⟨registerSuccess, noArguments, succeeding⟩,
        ⟨registerSuccess, ⟨[103], noArguments.argTypes⟩, succeeding⟩])
      (replay [⟨registerSuccess, ⟨[103], noArguments.argTypes⟩, succeeding⟩,
        ⟨registerSuccess, noArguments, succeeding⟩]) noArguments.getKey :=
  dispatch_by_key _ _ _ rfl

theorem filed_isSome (history : List Update) :
    (filed history).isSome ↔ ∃ u ∈ history, u.flag ≠ registerWarning := by
  rw [filed, Option.isSome_map, List.find?_isSome]
  simp [warned]

theorem dispatches_filed (updates : List Update) (key : Bytes) (q : Skeleton) :
    ArrayLengths.Dispatches (replay updates) key q ↔
      (∃ u ∈ under updates key, u.flag ≠ registerWarning) ∧ stored (under updates key) = some q := by
  rw [ArrayLengths.Dispatches, (tabulated_replay updates).functions, (tabulated_replay updates).lookup,
    filed_isSome]

/-- A key is served at all once a registration of it has come back without a
warning, and then by the skeleton of the last warned one, or of the first. -/
theorem dispatches_iff (updates : List Update) (key : Bytes) (q : Skeleton) :
    ArrayLengths.Dispatches (replay updates) key q ↔
      (∃ u ∈ updates, u.func.getKey = key ∧ u.flag ≠ registerWarning) ∧
        stored (under updates key) = some q := by
  rw [dispatches_filed]
  simp [under, and_assoc]

section Lists
open Registry

theorem grown_snoc (first s : ServerInfo) (later : List ServerInfo) :
    grown first (later ++ [s]) =
      grown first later ++ List.replicate ((grown first later).idxOf s) s := by
  simp [grown]

theorem length_grown_pos (first : ServerInfo) (later : List ServerInfo) :
    0 < (grown first later).length := by
  induction later using List.reverseRecOn with
  | nil => exact Nat.one_pos
  | append_singleton later other ih =>
      rw [grown_snoc, List.length_append]
      omega

theorem mem_grown (first s : ServerInfo) (later : List ServerInfo) :
    s ∈ grown first later ↔ s ∈ first :: later := by
  induction later using List.reverseRecOn with
  | nil => simp [grown]
  | append_singleton later other ih =>
      have some_stored := length_grown_pos first later
      have snoc : first :: (later ++ [other]) = (first :: later) ++ [other] := rfl
      rw [grown_snoc, snoc, List.mem_append, List.mem_append, List.mem_replicate, ← ih, List.mem_singleton]
      constructor
      · rintro (old | ⟨_, new⟩)
        · exact Or.inl old
        · exact Or.inr new
      · rintro (old | rfl)
        · exact Or.inl old
        · by_cases old : s ∈ grown first later
          · exact Or.inl old
          · rw [List.idxOf_eq_length old]
            exact Or.inr ⟨by omega, rfl⟩

theorem length_grown_le (first : ServerInfo) (later : List ServerInfo) :
    (grown first later).length ≤ 2 ^ later.length ∧
      ((grown first later).length = 2 ^ later.length ↔ (first :: later).Nodup) := by
  induction later using List.reverseRecOn with
  | nil => simp [grown]
  | append_singleton later s ih =>
      obtain ⟨bound, full⟩ := ih
      have within : (grown first later).idxOf s ≤ (grown first later).length := List.idxOf_le_length
      have length : (grown first (later ++ [s])).length =
          (grown first later).length + (grown first later).idxOf s := by
        rw [grown_snoc, List.length_append, List.length_replicate]
      have twice : 2 ^ (later ++ [s]).length = 2 * 2 ^ later.length := by
        rw [List.length_append, List.length_singleton, Nat.pow_succ']
      -- the search runs to the end for a new server only, and then the list doubles
      have new : (grown first later).idxOf s = (grown first later).length ↔ s ∉ first :: later := by
        rw [List.idxOf_eq_length_iff, mem_grown]
      have nodup : (first :: (later ++ [s])).Nodup ↔ (first :: later).Nodup ∧ s ∉ first :: later := by
        rw [← List.cons_append, List.nodup_append]
        simp only [List.nodup_singleton, List.mem_singleton, true_and]
        refine and_congr_right fun _ => ?_
        constructor
        · intro apart member
          exact apart s member s rfl rfl
        · rintro fresh a member _ rfl rfl
          exact fresh member
      rw [length, twice, nodup, ← full, ← new]
      refine ⟨by omega, ?_⟩
      constructor
      · intro whole
        exact ⟨by omega, by omega⟩
      · rintro ⟨whole, last⟩
        omega

/-- A key registered `n` times keeps at most 2^(n-1) entries, and that many exactly
when no server registered it twice. -/
theorem list_doubles (history : List Registration) (key : Bytes) (servers : List ServerInfo)
    (kept : (Registry.replay history).lookup key = some servers) :
    servers.length ≤ 2 ^ ((registrants history key).length - 1) ∧
      (servers.length = 2 ^ ((registrants history key).length - 1) ↔ (registrants history key).Nodup) := by
  have replayed := lookup_replay history key
  cases split : registrants history key with
  | nil =>
      rw [split, kept] at replayed
      cases replayed
  | cons first later =>
      rw [split, kept] at replayed
      cases replayed
      exact length_grown_le first later

theorem three_servers_double :
    [(⟨[97], 1⟩ : ServerInfo), ⟨[98], 1⟩, ⟨[99], 1⟩, ⟨[99], 1⟩].length ≤
        2 ^ ((registrants [⟨[102], [97], 1, [102]⟩, ⟨[102], [98], 1, [102]⟩, ⟨[102], [99], 1, [102]⟩]
          [102]).length - 1) ∧
      ([(⟨[97], 1⟩ : ServerInfo), ⟨[98], 1⟩, ⟨[99], 1⟩, ⟨[99], 1⟩].length =
          2 ^ ((registrants [⟨[102], [97], 1, [102]⟩, ⟨[102], [98], 1, [102]⟩,
            ⟨[102], [99], 1, [102]⟩] [102]).length - 1) ↔
        (registrants [⟨[102], [97], 1, [102]⟩, ⟨[102], [98], 1, [102]⟩, ⟨[102], [99], 1, [102]⟩]
          [102]).Nodup) :=
  list_doubles [⟨[102], [97], 1, [102]⟩, ⟨[102], [98], 1, [102]⟩, ⟨[102], [99], 1, [102]⟩] [102]
    [⟨[97], 1⟩, ⟨[98], 1⟩, ⟨[99], 1⟩, ⟨[99], 1⟩] rfl

end Lists

end BinderRpc.Tables
