import Mathlib.Data.Finset.Card
import BinderRpc.Frames
import BinderRpc.Lib.Directory

/-!
The binder's database over whole runs. It represents the directory of the
servers announced so far: flags, membership and the first server of every list
are the directory's. The lists themselves repeat a server, and `unique_iff` says
from which histories they do.
-/

namespace BinderRpc.Registry

open Octets Text Signature Socket Database Binder Client Frames

structure Registration where
  fName : Bytes
  sName : Bytes
  port : CInt
  key : Bytes
  deriving DecidableEq, Repr

def Registration.server (r : Registration) : ServerInfo := ⟨r.sName, r.port⟩

def update (db : BinderDB) (r : Registration) : CInt × BinderDB :=
  db.updateDb r.fName r.sName r.port r.key

def replay (history : List Registration) : BinderDB :=
  history.foldl (fun db r => (update db r).2) BinderDB.empty

def announcements (history : List Registration) : List (Bytes × ServerInfo) :=
  history.map fun r => (r.key, r.server)

/-- Who registered a key, in order, repetitions included. -/
def registrants (history : List Registration) (key : Bytes) : List ServerInfo :=
  Directory.announced (announcements history) key

theorem replay_snoc (history : List Registration) (r : Registration) :
    replay (history ++ [r]) = (update (replay history) r).2 := by
  simp [replay]

theorem registrants_snoc (history : List Registration) (r : Registration) (key : Bytes) :
    registrants (history ++ [r]) key =
      if r.key = key then registrants history key ++ [r.server] else registrants history key := by
  rw [registrants, announcements, List.map_append, List.map_singleton, Directory.announced_snoc]
  rfl

structure Represents (db : BinderDB) (d : Directory Bytes ServerInfo) : Prop where
  nonempty : ∀ key, db.lookup key ≠ some []
  members : ∀ key s, s ∈ (db.lookup key).getD [] ↔ s ∈ d.entries key
  first : ∀ key, ((db.lookup key).getD []).head? = (d.entries key).head?

theorem represents_empty : Represents BinderDB.empty Directory.empty where
  nonempty := by
    intro key
    simp [BinderDB.empty]
  members := by
    intro key s
    simp [BinderDB.empty, Directory.empty]
  first := by
    intro key
    rfl

theorem head_enlisted (s : ServerInfo) (stored : Option (List ServerInfo))
    (nonempty : stored ≠ some []) :
    (enlisted s stored).head? = some ((stored.getD []).head?.getD s) := by
  cases stored with
  | none => rfl
  | some servers =>
      cases servers with
      | nil => exact absurd rfl nonempty
      | cons first rest => rfl

theorem represents_update (db : BinderDB) (d : Directory Bytes ServerInfo) (r : Registration)
    (represents : Represents db d) :
    Represents (update db r).2 (d.announce r.key r.server) := by
  have stored : (update db r).2.lookup =
      Function.update db.lookup r.key (some (enlisted r.server (db.lookup r.key))) :=
    updateDb_lookup db r.fName r.sName r.port r.key
  constructor
  · exact nonempty_updateDb db r.fName r.sName r.port r.key represents.nonempty
  · intro key s
    rw [Directory.mem_announce, ← represents.members]
    exact mem_updateDb db r.fName r.sName r.port r.key represents.nonempty key s
  · intro key
    rw [stored]
    by_cases same : key = r.key
    · subst same
      rw [Function.update_self, Option.getD_some, head_enlisted _ _ (represents.nonempty r.key),
        represents.first, Directory.entries_announce_self]
      cases listed : d.entries r.key with
      | nil => simp
      | cons first rest =>
          split <;> simp
    · rw [Function.update_of_ne same, Directory.entries_announce_other d r.key key r.server same]
      exact represents.first key

theorem represents_replay (history : List Registration) :
    Represents (replay history) (Directory.run (announcements history)) := by
  induction history using List.reverseRecOn with
  | nil => exact represents_empty
  | append_singleton history r ih =>
      have last : Directory.run (announcements (history ++ [r])) =
          (Directory.run (announcements history)).announce r.key r.server := by
        simp [Directory.run, announcements]
      rw [replay_snoc, last]
      exact represents_update _ _ r ih

theorem mem_replay (history : List Registration) (key : Bytes) (s : ServerInfo) :
    s ∈ ((replay history).lookup key).getD [] ↔ s ∈ registrants history key := by
  rw [(represents_replay history).members, Directory.mem_run, registrants]

theorem head_replay (history : List Registration) (key : Bytes) :
    (((replay history).lookup key).getD []).head? = (registrants history key).head? := by
  rw [(represents_replay history).first, Directory.head_run, registrants]

theorem replay_flag (history : List Registration) (r : Registration) :
    (update (replay history) r).1 =
      if r.server ∈ registrants history r.key then registerWarning else registerSuccess := by
  have flag := updateDb_flag (replay history) r.fName r.sName r.port r.key
  rw [update, flag]
  exact if_congr (mem_replay history r.key r.server) rfl rfl

theorem lookup_update_other (db : BinderDB) (r : Registration) (key : Bytes) (other : key ≠ r.key) :
    (update db r).2.lookup key = db.lookup key := by
  rw [update, updateDb_lookup, Function.update_of_ne other]

/-- The list of a key after its first registrant and the later ones. -/
def grown (first : ServerInfo) (later : List ServerInfo) : List ServerInfo :=
  later.foldl (fun servers s => servers ++ List.replicate (servers.idxOf s) s) [first]

theorem lookup_replay (history : List Registration) (key : Bytes) :
    (replay history).lookup key =
      match registrants history key with
      | [] => none
      | first :: later => some (grown first later) := by
  induction history using List.reverseRecOn with
  | nil => rfl
  | append_singleton history r ih =>
      rw [replay_snoc, registrants_snoc]
      by_cases same : r.key = key
      · subst same
        rw [if_pos rfl, update, updateDb_lookup, Function.update_self, ih]
        cases registrants history r.key with
        | nil => rfl
        | cons first later => simp [grown, enlisted, Registration.server]
      · rw [if_neg same, lookup_update_other _ _ _ (Ne.symm same), ih]

theorem foldl_keeps (later servers : List ServerInfo)
    (unique : (later.foldl (fun servers s => servers ++ List.replicate (servers.idxOf s) s)
      servers).Nodup) : servers.Nodup := by
  induction later generalizing servers with
  | nil => exact unique
  | cons s rest ih => exact List.Nodup.of_append_left (ih _ unique)

/-- A second registrant other than the first one brings a repetition with its
next registration by anybody else. -/
theorem foldl_pair (first second : ServerInfo) (later : List ServerInfo) (other : second ≠ first) :
    (later.foldl (fun servers s => servers ++ List.replicate (servers.idxOf s) s)
      [first, second]).Nodup ↔ later.filter (· ≠ first) = [] := by
  induction later with
  | nil => simp [Ne.symm other]
  | cons s rest ih =>
      by_cases same : s = first
      · subst same
        simpa using ih
      · constructor
        · intro unique
          exfalso
          have pushed := foldl_keeps rest _ unique
          by_cases again : s = second
          · subst again
            simp [Ne.symm same] at pushed
          · simp [Ne.symm same, Ne.symm again, List.replicate_succ] at pushed
        · intro none
          simp [same] at none

theorem grown_nodup (first : ServerInfo) (later : List ServerInfo) :
    (grown first later).Nodup ↔ (later.filter (· ≠ first)).length ≤ 1 := by
  unfold grown
  induction later with
  | nil => simp
  | cons s rest ih =>
      by_cases same : s = first
      · subst same
        simpa using ih
      · have pair := foldl_pair first s rest same
        have next : (s :: rest).filter (· ≠ first) = s :: rest.filter (· ≠ first) := by simp [same]
        have step : [first] ++ List.replicate ([first].idxOf s) s = [first, s] := by
          simp [Ne.symm same]
        rw [List.foldl_cons, step, pair, next, List.length_cons]
        constructor
        · intro none
          rw [none, List.length_nil]
        · intro few
          exact List.length_eq_zero_iff.mp (by omega)

/-- Every stored list names each server once, hence as many as registered. -/
def Unique (history : List Registration) : Prop :=
  ∀ key servers, (replay history).lookup key = some servers →
    servers.Nodup ∧ servers.length = (registrants history key).toFinset.card

/-- At most one registration of the key comes from a server other than the
key's first registrant. -/
def OneNewcomer (history : List Registration) (key : Bytes) : Prop :=
  ∀ first later, registrants history key = first :: later → (later.filter (· ≠ first)).length ≤ 1

theorem unique_iff (history : List Registration) :
    Unique history ↔ ∀ key, OneNewcomer history key := by
  constructor
  · intro unique key first later split
    have stored := lookup_replay history key
    rw [split] at stored
    exact (grown_nodup first later).mp (unique key _ stored).1
  · intro few key servers stored
    have nodup : servers.Nodup := by
      have replayed := lookup_replay history key
      cases split : registrants history key with
      | nil =>
          rw [split, stored] at replayed
          cases replayed
      | cons first later =>
          rw [split, stored] at replayed
          cases replayed
          exact (grown_nodup first later).mpr (few key first later split)
    have same : servers.toFinset = (registrants history key).toFinset := by
      ext s
      have member := mem_replay history key s
      rw [stored, Option.getD_some] at member
      rw [List.mem_toFinset, List.mem_toFinset, member]
    refine ⟨nodup, ?_⟩
    rw [← same, List.toFinset_card_of_nodup nodup]

theorem three_servers_repeat :
    (replay [⟨[102], [97], 1, [102]⟩, ⟨[102], [98], 1, [102]⟩, ⟨[102], [99], 1, [102]⟩]).lookup
        [102] = some [⟨[97], 1⟩, ⟨[98], 1⟩, ⟨[99], 1⟩, ⟨[99], 1⟩] ∧
      ¬ Unique [⟨[102], [97], 1, [102]⟩, ⟨[102], [98], 1, [102]⟩, ⟨[102], [99], 1, [102]⟩] := by
  have stored : (replay [⟨[102], [97], 1, [102]⟩, ⟨[102], [98], 1, [102]⟩,
      ⟨[102], [99], 1, [102]⟩]).lookup [102] =
      some [⟨[97], 1⟩, ⟨[98], 1⟩, ⟨[99], 1⟩, ⟨[99], 1⟩] := by rfl
  refine ⟨stored, fun unique => ?_⟩
  exact absurd (unique _ _ stored).1 (by decide)

/-- However often `r` has been registered again, the next time is answered with a
warning and every stored list is as it was. -/
structure NoOp (history : List Registration) (r : Registration) : Prop where
  warned : ∀ times, (update (replay (history ++ List.replicate times r)) r).1 = registerWarning
  unchanged : ∀ times, replay (history ++ List.replicate times r) = replay history

theorem update_same_iff (history : List Registration) (r : Registration)
    (present : r.server ∈ ((replay history).lookup r.key).getD []) :
    (update (replay history) r).2 = replay history ↔
      (((replay history).lookup r.key).getD []).head? = some r.server := by
  rw [update, updateDb_same_iff]
  constructor
  · rintro ⟨servers, stored, first⟩
    rw [stored, Option.getD_some] at present ⊢
    cases servers with
    | nil => cases present
    | cons server rest =>
        by_contra other
        have differs : server ≠ r.server := fun same => other (by rw [same]; rfl)
        have later : (server :: rest).idxOf r.server = rest.idxOf r.server + 1 :=
          List.idxOf_cons_ne rest differs
        exact absurd (later.symm.trans first) (Nat.succ_ne_zero _)
  · intro first
    cases stored : (replay history).lookup r.key with
    | none =>
        rw [stored] at present
        cases present
    | some servers =>
        rw [stored, Option.getD_some] at first
        obtain ⟨rest, rfl⟩ := List.head?_eq_some_iff.mp first
        exact ⟨_, rfl, List.idxOf_cons_self⟩

/-- The scan meets the entry of the server before it has appended anything only if
no other entry stands in front of it. -/
theorem noOp_iff (history : List Registration) (r : Registration)
    (present : r.server ∈ ((replay history).lookup r.key).getD []) :
    NoOp history r ↔ (((replay history).lookup r.key).getD []).head? = some r.server := by
  rw [← update_same_iff history r present]
  constructor
  · intro idle
    rw [← replay_snoc]
    exact idle.unchanged 1
  · intro same
    have unchanged : ∀ times, replay (history ++ List.replicate times r) = replay history := by
      intro times
      induction times with
      | zero => rw [List.replicate_zero, List.append_nil]
      | succ times ih => rw [List.replicate_succ', ← List.append_assoc, replay_snoc, ih, same]
    refine ⟨fun times => ?_, unchanged⟩
    rw [unchanged, update, updateDb_flag]
    exact if_pos present

theorem only_server_idle : NoOp [⟨[102], [97], 1, [102]⟩] ⟨[102], [97], 1, [102]⟩ :=
  (noOp_iff _ _ (by decide)).mpr (by decide)

/-- The second server of a key registers again, is warned, and is stored twice. -/
theorem second_server_repeats :
    (update (replay [⟨[102], [97], 1, [102]⟩, ⟨[102], [98], 1, [102]⟩]) ⟨[102], [98], 1, [102]⟩).1 =
        registerWarning ∧
      (update (replay [⟨[102], [97], 1, [102]⟩, ⟨[102], [98], 1, [102]⟩])
        ⟨[102], [98], 1, [102]⟩).2.lookup [102] = some [⟨[97], 1⟩, ⟨[98], 1⟩, ⟨[98], 1⟩] ∧
      ¬ NoOp [⟨[102], [97], 1, [102]⟩, ⟨[102], [98], 1, [102]⟩] ⟨[102], [98], 1, [102]⟩ := by
  have stored : (update (replay [⟨[102], [97], 1, [102]⟩, ⟨[102], [98], 1, [102]⟩])
      ⟨[102], [98], 1, [102]⟩).2.lookup [102] = some [⟨[97], 1⟩, ⟨[98], 1⟩, ⟨[98], 1⟩] := by rfl
  refine ⟨by rfl, stored, fun idle => ?_⟩
  have same := congrArg (fun db => BinderDB.lookup db [102]) (idle.unchanged 1)
  exact absurd (stored.symm.trans same) (by decide)

end BinderRpc.Registry
