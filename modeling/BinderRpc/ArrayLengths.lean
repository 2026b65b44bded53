import BinderRpc.Execution
import BinderRpc.Location
import BinderRpc.Naming

/-!
Two signatures that differ in nothing but the lengths of their arrays. The key
spells every length out, so a procedure registered with the one is found under
the other only if the lengths are the same after all.
-/

namespace BinderRpc.ArrayLengths

open Octets Text Signature Marshal Socket Database Binder Client Server Frames Registry Location
  Naming Execution

def infos (argTypes : ArgTypes) : List Args := argTypes.entries.map Args.ofType

/-- Same input, output and type bits, and arrays in the same places. -/
def Alike (first second : ArgTypes) : Prop :=
  List.Forall₂ (fun a b : Args => a.input = b.input ∧ a.output = b.output ∧ a.type = b.type ∧
    (a.arrLength = 0 ↔ b.arrLength = 0)) (infos first) (infos second)

def SameLengths (first second : ArgTypes) : Prop :=
  (infos first).map Args.arrLength = (infos second).map Args.arrLength

/-- Both tables of the server have the key, and the skeleton is this one. -/
def Dispatches (db : ServerDB Skeleton) (key : Bytes) (q : Skeleton) : Prop :=
  (db.functions key).isSome ∧ db.lookup key = some q

/-- With the key in the tables, its skeleton is called once unless the arguments do
not unmarshal. -/
def CallsOnce (served : Served) (q : Skeleton) : Prop :=
  (served.ret = errUnmarshallingServer ∧ served.calls = []) ∨ ∃ call, served.calls = [call] ∧ call.q = q

theorem execArgs_dispatches (fp : FloatText) (memory : Memory) (db : ServerDB Skeleton)
    (socket : Link) (key argS : Bytes) (q : Skeleton) (served : Served)
    (run : execArgs fp memory db socket key argS = .ok served) (dispatches : Dispatches db key q) :
    CallsOnce served q := by
  rcases execArgs_cases fp memory db socket key argS served run with
    rfl | ⟨unregistered, _⟩ | ⟨_, _, result, f, _, _, _, _, rfl⟩
  · exact Or.inl ⟨rfl, rfl⟩
  · have registered := dispatches.1
    rw [unregistered] at registered
    cases registered
  · rw [dispatches.2]
    exact Or.inr ⟨_, rfl, rfl⟩

theorem turn_dispatches (fp : FloatText) (memory : Memory) (db : ServerDB Skeleton) (socket : Link)
    (f : Function) (args : List (Option Bytes)) (frame rest : Bytes) (q : Skeleton) (served : Served)
    (free : 0 ∉ f.name) (built : executeRequestFrame fp f.name f.argTypes args = .ok frame)
    (prompt : socket.Prompt) (stream : socket.incoming = frame ++ rest)
    (run : rpcExecuteTurn fp memory db socket = .ok (some served))
    (dispatches : Dispatches db f.getKey q) : CallsOnce served q := by
  obtain ⟨text, _, fits, rfl⟩ := executeRequestFrame_ok fp f.name f.argTypes args frame built
  rw [rpcExecuteTurn_request fp memory db socket f.getKey text rest prompt stream
    (nul_not_in_getKey f free) fits] at run
  obtain ⟨_, ran, same⟩ := (Outcome.map_eq_ok _ _ _).mp run
  cases same
  exact execArgs_dispatches fp memory db _ f.getKey _ q served ran dispatches

theorem infos_eq (first second : ArgTypes) (alike : Alike first second)
    (lengths : SameLengths first second) : infos first = infos second := by
  unfold Alike SameLengths at *
  generalize infos first = left at *
  generalize infos second = right at *
  induction alike with
  | nil => rfl
  | @cons a b rest others fields _ ih =>
      obtain ⟨input, output, type, _⟩ := fields
      obtain ⟨length, later⟩ := List.cons.inj lengths
      have same : a = b := by
        cases a
        cases b
        simp only [Args.mk.injEq]
        exact ⟨input, output, type, length⟩
      rw [same, ih later]

theorem getKey_of_infos (name : Bytes) (first second : ArgTypes) (same : infos first = infos second) :
    (Function.mk name first).getKey = (Function.mk name second).getKey := by
  rw [getKey_eq, getKey_eq, args_eq, args_eq]
  exact congrArg (fun args => [bar].intercalate (keyTokens name args)) same

theorem infos_of_getKey (name : Bytes) (first second : ArgTypes)
    (same : (Function.mk name first).getKey = (Function.mk name second).getKey) :
    infos first = infos second := by
  have tokens := congrArg (List.splitOn bar) same
  rw [Keys.splitOn_getKey, Keys.splitOn_getKey] at tokens
  have args := Keys.keyTail_injective _ _ (List.append_cancel_left tokens)
  rwa [args_eq, args_eq] at args

theorem getKey_named (name : Bytes) (argTypes : ArgTypes) :
    ∃ fields, (Function.mk name argTypes).getKey = name ++ bar :: fields := by
  rw [Function.getKey]
  simp only [List.append_assoc, List.singleton_append]
  exact ⟨_, rfl⟩

/-- A clipped name is read on into the memory behind it, where no byte need be the
next one of the registered key. -/
theorem locationKey_strays (name : Bytes) (first second : ArgTypes) (free : 0 ∉ name)
    (long : 63 < name.length) :
    ∃ heap, ∀ key, locationKey heap name second = .ok key → key ≠ (Function.mk name first).getKey := by
  obtain ⟨fields, whole⟩ := getKey_named name first
  -- two candidates, of which at least one differs
  obtain ⟨c, nonzero, other⟩ : ∃ c : UInt8, c ≠ 0 ∧ some c ≠ (name ++ bar :: fields)[64]? := by
    by_cases one : some (1 : UInt8) = (name ++ bar :: fields)[64]?
    · refine ⟨2, by decide, ?_⟩
      rw [← one]
      decide
    · exact ⟨1, by decide, one⟩
  refine ⟨[c, 0], ?_⟩
  intro key located same
  obtain ⟨m, built, located⟩ := (Outcome.bind_eq_ok _ _ _).mp located
  have buffer := createLocationRequest_long name second long m built
  have strayed : cText (m.funcNameBuffer ++ [c, 0]) = name.take 64 ++ [c] := by
    rw [buffer, show [c, 0] = [c] ++ [0] from rfl, ← List.append_assoc]
    apply cText_terminated
    intro member
    rcases List.mem_append.mp member with early | last
    · exact free (List.mem_of_mem_take early)
    · exact nonzero (List.mem_singleton.mp last).symm
  obtain ⟨func, rebuilt, located⟩ := (Outcome.bind_eq_ok _ _ _).mp located
  obtain ⟨text, read, rebuilt⟩ := (Outcome.bind_eq_ok _ _ _).mp rebuilt
  rw [bufferText, if_pos (by simp), strayed] at read
  cases read
  cases rebuilt
  cases located
  obtain ⟨others, key⟩ := getKey_named (name.take 64 ++ [c]) m.argTypesBuffer
  rw [key, whole] at same
  have sixty_four : (name.take 64).length = 64 := by
    rw [List.length_take]
    omega
  -- byte 64 is the memory's in the one key and the name's or its delimiter in the other
  have byte := congrArg (fun text : Bytes => text[64]?) same
  simp only [List.append_assoc] at byte
  rw [List.getElem?_append_right (by omega), sixty_four] at byte
  exact other byte

/-- Wherever the first signature is registered, location requests and execute
requests with the second one reach the registered procedure. -/
structure LengthsIgnored (name : Bytes) (first second : ArgTypes) : Prop where
  located : ∀ (heap : Bytes) (history : List Registration),
    (∃ r ∈ history, r.key = (Function.mk name first).getKey) →
    ∃ key, locationKey heap name second = .ok key ∧ ∀ (beyond : Stale) (socket : Link), socket.Clear →
      ∃ place, sendLocationResponse beyond (replay history) socket key =
        .ok (0, replay history,
          { socket with sent := socket.sent ++ (wordBytes locationSuccess ++ place) })
  dispatched : ∀ db q, Dispatches db (Function.mk name first).getKey q →
    ∀ fp args stale frame request, executeRequestFrame fp name second args = .ok frame →
      ReadsExecute stale frame request → Dispatches db request.key q
  called : ∀ db q, Dispatches db (Function.mk name first).getKey q →
    ∀ fp args frame rest memory socket served, executeRequestFrame fp name second args = .ok frame →
      socket.Prompt → socket.incoming = frame ++ rest →
      rpcExecuteTurn fp memory db socket = .ok (some served) → CallsOnce served q

theorem unregistered_not_located (history : List Registration) (beyond : Stale) (socket : Link)
    (key : Bytes) (clear : socket.Clear) (missing : ∀ r ∈ history, r.key ≠ key) (place : Bytes) :
    sendLocationResponse beyond (replay history) socket key ≠
      .ok (0, replay history,
        { socket with sent := socket.sent ++ (wordBytes locationSuccess ++ place) }) := by
  have none : registrants history key = [] := by
    simp only [registrants, Directory.announced, announcements, List.map_eq_nil_iff,
      List.filter_eq_nil_iff, List.mem_map]
    rintro entry ⟨r, listed, rfl⟩ same
    exact missing r listed (by simpa using same)
  rw [sendLocationResponse_clear beyond _ socket key clear ((represents_replay history).nonempty key),
    head_replay, none]
  intro located
  have sent := congrArg (fun outcome => outcome.toOption.map fun result => result.2.2.sent) located
  simp only [Except.toOption, Option.map_some, Option.some.injEq, List.append_cancel_left_eq] at sent
  have type := (List.append_inj sent (by simp)).1
  exact absurd type (by decide)

theorem registered_located (history : List Registration) (beyond : Stale) (socket : Link)
    (key : Bytes) (clear : socket.Clear) (registered : ∃ r ∈ history, r.key = key) :
    ∃ place, sendLocationResponse beyond (replay history) socket key =
      .ok (0, replay history,
        { socket with sent := socket.sent ++ (wordBytes locationSuccess ++ place) }) := by
  rw [sendLocationResponse_clear beyond _ socket key clear ((represents_replay history).nonempty key),
    head_replay]
  cases listed : registrants history key with
  | nil =>
      exfalso
      obtain ⟨r, member, same⟩ := registered
      simp only [registrants, Directory.announced, announcements, List.map_eq_nil_iff,
        List.filter_eq_nil_iff, List.mem_map] at listed
      exact listed _ ⟨r, member, rfl⟩ (by simpa using same)
  | cons s others => exact ⟨_, rfl⟩

theorem asked_of_ignored (name heap : Bytes) (first second : ArgTypes)
    (ignored : LengthsIgnored name first second) :
    locationKey heap name second = .ok (Function.mk name first).getKey := by
  obtain ⟨key, located, answered⟩ := ignored.located heap
    [⟨name, [], 0, (Function.mk name first).getKey⟩] ⟨_, List.mem_singleton_self _, rfl⟩
  obtain ⟨place, sent⟩ := answered (fun _ => 0) (.delivering []) rfl
  have same : key = (Function.mk name first).getKey := by
    by_contra other
    refine unregistered_not_located _ (fun _ => 0) (.delivering []) key rfl ?_ place sent
    intro r member same
    rw [List.mem_singleton.mp member] at same
    exact other same.symm
  rw [located, same]

theorem lengths_ignored_iff (name : Bytes) (first second : ArgTypes) (free : 0 ∉ name)
    (alike : Alike first second) :
    LengthsIgnored name first second ↔ name.length ≤ 63 ∧ SameLengths first second := by
  constructor
  · intro ignored
    have short : name.length ≤ 63 := by
      by_contra long
      obtain ⟨heap, strays⟩ := locationKey_strays name first second free (by omega)
      exact strays _ (asked_of_ignored name heap first second ignored) rfl
    refine ⟨short, ?_⟩
    have asked := asked_of_ignored name [] first second ignored
    have own := locationKey_short [] name second free short
    have same := Except.ok.inj (asked.symm.trans own)
    rw [SameLengths, infos_of_getKey name first second same]
  · rintro ⟨short, lengths⟩
    have same := getKey_of_infos name first second (infos_eq first second alike lengths)
    constructor
    · intro heap history registered
      rw [same] at registered
      exact ⟨_, locationKey_short heap name second free short,
        fun beyond socket clear => registered_located history beyond socket _ clear registered⟩
    · intro db q dispatches fp args stale frame request built read
      rw [executed_key fp name second free args stale frame request built read, ← same]
      exact dispatches
    · intro db q dispatches fp args frame rest memory socket served built prompt stream run
      rw [same] at dispatches
      exact turn_dispatches fp memory db socket ⟨name, second⟩ args frame rest q served free built
        prompt stream run dispatches

def chars (length : Fin (2 ^ 16)) : ArgTypes where
  entries := [BitVec.ofNat 32 (2 ^ 30 + 2 ^ 16 + length)]
  nonzero := by
    intro entry member zero
    rw [List.mem_singleton.mp member] at zero
    have bits := congrArg BitVec.toNat zero
    have within := length.isLt
    simp at bits
    omega

theorem same_lengths_found : LengthsIgnored [102, 50] (chars 100) (chars 100) :=
  (lengths_ignored_iff _ _ _ (by decide)
    (List.forall₂_same.mpr fun _ _ => ⟨rfl, rfl, rfl, Iff.rfl⟩)).mpr ⟨by decide, rfl⟩

/-- Registered with a hundred characters and looked for with twenty-eight, f2 is
not found. -/
theorem other_length_not_found :
    Alike (chars 100) (chars 28) ∧
      sendLocationResponse (fun _ => 0)
          (replay [⟨[102, 50], [104], 1, (Function.mk [102, 50] (chars 100)).getKey⟩]) (.delivering [])
          (Function.mk [102, 50] (chars 28)).getKey =
        .ok (0, replay [⟨[102, 50], [104], 1, (Function.mk [102, 50] (chars 100)).getKey⟩],
          { Link.delivering [] with sent := wordBytes locationFailure ++ wordBytes errServerNotFound }) ∧
      ¬ LengthsIgnored [102, 50] (chars 100) (chars 28) := by
  have registered : (Function.mk [102, 50] (chars 100)).getKey =
      [102, 50, 124, 49, 124, 48, 124, 49, 124, 49, 124, 49, 48, 48] := by rfl
  have wanted : (Function.mk [102, 50] (chars 28)).getKey =
      [102, 50, 124, 49, 124, 48, 124, 49, 124, 49, 124, 50, 56] := by rfl
  rw [registered, wanted]
  refine ⟨.cons (by decide) .nil, by rfl, ?_⟩
  intro ignored
  have asked : locationKey [] [102, 50] (chars 28) =
      .ok [102, 50, 124, 49, 124, 48, 124, 49, 124, 49, 124, 50, 56] := by rfl
  have found := asked_of_ignored [102, 50] [] (chars 100) (chars 28) ignored
  rw [registered, asked] at found
  exact absurd (Except.ok.inj found) (by decide)

end BinderRpc.ArrayLengths
