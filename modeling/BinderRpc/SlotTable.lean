import Mathlib.Data.List.Nodup
import BinderRpc.ArgSizes
import BinderRpc.Survival

/-!
The table of argument slots: allocated by the sizes of the elements, filled with a
pointer a slot, at an index that also walks over the tokens of arrays.
-/

namespace BinderRpc.SlotTable

open Text Signature Marshal ArgSizes Survival

/-- The indices at which `args[i]` is assigned, in order, also when a later token
then fails to convert. -/
def assigned (fp : FloatText) (margin : Margin) (argInfo : List Args) (marshall : List Bytes)
    (i : Nat) : List Nat :=
  if inside : i < argInfo.length then
    match decodeSlot fp margin argInfo[i] marshall i with
    | .ok (some _) => i :: assigned fp margin argInfo marshall (i + max 1 argInfo[i].tokenCount)
    | _ => []
  else []
termination_by argInfo.length - i

/-- The indices the loop comes to as long as every token converts. -/
def path (argInfo : List Args) (i : Nat) : List Nat :=
  if inside : i < argInfo.length then i :: path argInfo (i + max 1 argInfo[i].tokenCount) else []
termination_by argInfo.length - i

/-- A pointer a slot fits into the table, and a decoder that returns 0 has filled
every slot once. -/
structure Accounted (fp : FloatText) (margin : Margin) (argInfo : List Args) (tokens : List Bytes) : Prop where
  fits : ∀ k ∈ assigned fp margin argInfo tokens 0, (8 * (k + 1) : Int) ≤ (calculateArgSize argInfo).toInt
  filled : ∀ result, unmarshallArgs fp margin argInfo tokens = .ok result → result.ret = 0 →
    ∀ k < argInfo.length, (result.writes.map Prod.fst).count k = 1

/-- Only the last argument has several elements, and the elements' sizes cover eight
bytes an argument without leaving the `int`. -/
structure TableSuffices (argInfo : List Args) : Prop where
  single : ∀ k a, argInfo[k]? = some a → k + 1 < argInfo.length → a.tokenCount = 1
  covers : (8 * argInfo.length : Int) ≤ totalBytes argInfo
  small : totalBytes argInfo < 2 ^ 31

def ReadableAt (fp : FloatText) (margin : Margin) (argInfo : List Args) (tokens : List Bytes)
    (k : Nat) : Prop :=
  ∃ a kind, argInfo[k]? = some a ∧ a.kind = some kind ∧ SlotReadable fp margin a kind tokens k

inductive Reaches (fp : FloatText) (margin : Margin) (argInfo : List Args)
    (tokens : List Bytes) : Nat → Nat → Prop where
  | here (i : Nat) : Reaches fp margin argInfo tokens i i
  | later (i k : Nat) (a : Args) (kind : Kind) (here : argInfo[i]? = some a) (known : a.kind = some kind)
      (readable : SlotReadable fp margin a kind tokens i)
      (onwards : Reaches fp margin argInfo tokens (i + max 1 a.tokenCount) k) :
      Reaches fp margin argInfo tokens i k

/-- A slot on the way cannot be decoded, and the pointer stored last before it fits
into the table, whose size is an `int`. -/
def StopsInTime (fp : FloatText) (margin : Margin) (argInfo : List Args) (tokens : List Bytes) : Prop :=
  ∃ stop, Reaches fp margin argInfo tokens 0 stop ∧ stop < argInfo.length ∧
    ¬ ReadableAt fp margin argInfo tokens stop ∧
    ∀ last a, Reaches fp margin argInfo tokens 0 last → argInfo[last]? = some a →
      last + max 1 a.tokenCount = stop → (8 * (last + 1) : Int) ≤ (totalBytes argInfo).bmod (2 ^ 32)

theorem path_next (argInfo : List Args) (i : Nat) (a : Args) (here : argInfo[i]? = some a) :
    path argInfo i = i :: path argInfo (i + max 1 a.tokenCount) := by
  obtain ⟨inside, rfl⟩ := List.getElem?_eq_some_iff.mp here
  rw [path, dif_pos inside]

theorem path_done (argInfo : List Args) (i : Nat) (past : argInfo.length ≤ i) : path argInfo i = [] := by
  rw [path, dif_neg (by omega)]

theorem path_from (argInfo : List Args) (i k : Nat) (member : k ∈ path argInfo i) :
    i ≤ k ∧ k < argInfo.length := by
  induction i using slot_induction argInfo with
  | done i past =>
      rw [path_done argInfo i past] at member
      cases member
  | next i a here ih =>
      rw [path_next argInfo i a here] at member
      rcases List.mem_cons.mp member with rfl | later
      · exact ⟨Nat.le_refl k, (List.getElem?_eq_some_iff.mp here).1⟩
      · obtain ⟨low, high⟩ := ih later
        exact ⟨by omega, high⟩

theorem path_jumps (argInfo : List Args) (i k j : Nat) (a : Args) (here : argInfo[k]? = some a)
    (visited : k ∈ path argInfo i) (reached : j ∈ path argInfo i) (behind : k < j) :
    k + max 1 a.tokenCount ≤ j := by
  induction i using slot_induction argInfo with
  | done i past =>
      rw [path_done argInfo i past] at reached
      cases reached
  | next i b there ih =>
      have low := (path_from argInfo i k visited).1
      rw [path_next argInfo i b there] at visited reached
      rcases List.mem_cons.mp reached with rfl | j_later
      · omega
      · rcases List.mem_cons.mp visited with rfl | k_later
        · cases here.symm.trans there
          exact (path_from argInfo _ j j_later).1
        · exact ih k_later j_later

theorem path_eq_range (argInfo : List Args) (i : Nat)
    (single : ∀ k a, argInfo[k]? = some a → k + 1 < argInfo.length → a.tokenCount = 1) :
    path argInfo i = List.range' i (argInfo.length - i) := by
  induction i using slot_induction argInfo with
  | done i past =>
      rw [path_done argInfo i past, Nat.sub_eq_zero_of_le past]
      rfl
  | next i a here ih =>
      have inside := (List.getElem?_eq_some_iff.mp here).1
      rw [path_next argInfo i a here, show argInfo.length - i = argInfo.length - (i + 1) + 1 by omega,
        List.range'_succ]
      congr 1
      by_cases last : i + 1 < argInfo.length
      · rw [single i a here last, Nat.max_self] at ih ⊢
        exact ih
      · rw [path_done _ _ (by omega), Nat.sub_eq_zero_of_le (by omega)]
        rfl

theorem decodeSlot_ok (fp : FloatText) (margin : Margin) (argInfo : List Args) (tokens : List Bytes)
    (i : Nat) (a : Args)
    (here : argInfo[i]? = some a) (result : Unmarshalled)
    (run : unmarshallLoop fp margin argInfo tokens i = .ok result) (zero : result.ret = 0) :
    ∃ block rest, decodeSlot fp margin a tokens i = .ok (some block) ∧
      unmarshallLoop fp margin argInfo tokens (i + max 1 a.tokenCount) = .ok rest ∧
      result = ⟨rest.ret, (i, block) :: rest.writes⟩ := by
  rcases unmarshallLoop_ok fp margin argInfo tokens i a here result run with ⟨_, rfl⟩ | decoded
  · exact absurd zero (by decide)
  · exact decoded

theorem writes_eq_path (fp : FloatText) (margin : Margin) (argInfo : List Args) (tokens : List Bytes) (i : Nat)
    (result : Unmarshalled) (run : unmarshallLoop fp margin argInfo tokens i = .ok result)
    (zero : result.ret = 0) : result.writes.map Prod.fst = path argInfo i := by
  induction i using slot_induction argInfo generalizing result with
  | done i past =>
      rw [unmarshallLoop_done fp margin argInfo tokens i past] at run
      cases run
      rw [path_done argInfo i past]
      rfl
  | next i a here ih =>
      obtain ⟨block, rest, _, later, rfl⟩ := decodeSlot_ok fp margin argInfo tokens i a here result run zero
      rw [path_next argInfo i a here, List.map_cons, ih rest later zero]

theorem assigned_done (fp : FloatText) (margin : Margin) (argInfo : List Args) (tokens : List Bytes) (i : Nat)
    (past : argInfo.length ≤ i) : assigned fp margin argInfo tokens i = [] := by
  rw [assigned, dif_neg (by omega)]

theorem assigned_next (fp : FloatText) (margin : Margin) (argInfo : List Args) (tokens : List Bytes)
    (i : Nat) (a : Args)
    (here : argInfo[i]? = some a) (block : Block)
    (decoded : decodeSlot fp margin a tokens i = .ok (some block)) :
    assigned fp margin argInfo tokens i = i :: assigned fp margin argInfo tokens (i + max 1 a.tokenCount) := by
  obtain ⟨inside, rfl⟩ := List.getElem?_eq_some_iff.mp here
  rw [assigned, dif_pos inside, decoded]

theorem assigned_eq_path (fp : FloatText) (margin : Margin) (argInfo : List Args) (tokens : List Bytes)
    (i : Nat)
    (result : Unmarshalled) (run : unmarshallLoop fp margin argInfo tokens i = .ok result)
    (zero : result.ret = 0) : assigned fp margin argInfo tokens i = path argInfo i := by
  induction i using slot_induction argInfo generalizing result with
  | done i past => rw [path_done argInfo i past, assigned_done fp margin argInfo tokens i past]
  | next i a here ih =>
      obtain ⟨block, rest, decoded, later, rfl⟩ :=
        decodeSlot_ok fp margin argInfo tokens i a here result run zero
      rw [path_next argInfo i a here, assigned_next fp margin argInfo tokens i a here block decoded,
        ih rest later zero]

/-! The decoder up to a slot it cannot fill. -/

theorem decodeSlot_readable (fp : FloatText) (margin : Margin) (argInfo : List Args) (tokens : List Bytes)
    (i : Nat)
    (a : Args) (here : argInfo[i]? = some a) :
    (∃ block, decodeSlot fp margin a tokens i = .ok (some block)) ↔ ReadableAt fp margin argInfo tokens i := by
  constructor
  · rintro ⟨block, decoded⟩
    cases known : a.kind with
    | none =>
        rw [decodeSlot, known] at decoded
        cases decoded
    | some kind =>
        exact ⟨a, kind, here, known, (decodeSlot_known fp margin a kind tokens i known).mp ⟨block, decoded⟩⟩
  · rintro ⟨b, kind, there, known, readable⟩
    cases here.symm.trans there
    exact (decodeSlot_known fp margin a kind tokens i known).mpr readable

theorem assigned_stuck (fp : FloatText) (margin : Margin) (argInfo : List Args) (tokens : List Bytes)
    (i : Nat) (a : Args)
    (here : argInfo[i]? = some a) (unreadable : ¬ ReadableAt fp margin argInfo tokens i) :
    assigned fp margin argInfo tokens i = [] := by
  rw [← decodeSlot_readable fp margin argInfo tokens i a here] at unreadable
  obtain ⟨inside, rfl⟩ := List.getElem?_eq_some_iff.mp here
  rw [assigned, dif_pos inside]
  split
  · rename_i block decoded
    exact absurd ⟨block, decoded⟩ unreadable
  · rfl

theorem mem_assigned_iff (fp : FloatText) (margin : Margin) (argInfo : List Args) (tokens : List Bytes)
    (i k : Nat) :
    k ∈ assigned fp margin argInfo tokens i ↔
      Reaches fp margin argInfo tokens i k ∧ ReadableAt fp margin argInfo tokens k := by
  constructor
  · intro member
    induction i using slot_induction argInfo with
    | done i past =>
        rw [assigned_done fp margin argInfo tokens i past] at member
        cases member
    | next i a here ih =>
        by_cases readable : ReadableAt fp margin argInfo tokens i
        · obtain ⟨block, decoded⟩ := (decodeSlot_readable fp margin argInfo tokens i a here).mpr readable
          rw [assigned_next fp margin argInfo tokens i a here block decoded] at member
          rcases List.mem_cons.mp member with rfl | later
          · exact ⟨.here k, readable⟩
          · obtain ⟨b, kind, there, known, slot⟩ := readable
            cases here.symm.trans there
            obtain ⟨onwards, at_k⟩ := ih later
            exact ⟨.later i k a kind here known slot onwards, at_k⟩
        · rw [assigned_stuck fp margin argInfo tokens i a here readable] at member
          cases member
  · rintro ⟨reached, readable⟩
    induction reached with
    | here i =>
        obtain ⟨a, kind, here, _⟩ := id readable
        obtain ⟨block, decoded⟩ := (decodeSlot_readable fp margin argInfo tokens i a here).mpr readable
        rw [assigned_next fp margin argInfo tokens i a here block decoded]
        exact List.mem_cons_self
    | later i k a kind here known slot _ ih =>
        obtain ⟨block, decoded⟩ := (decodeSlot_known fp margin a kind tokens i known).mpr slot
        rw [assigned_next fp margin argInfo tokens i a here block decoded]
        exact List.mem_cons_of_mem i (ih readable)

theorem assigned_lt (fp : FloatText) (margin : Margin) (argInfo : List Args) (tokens : List Bytes) (i k : Nat)
    (member : k ∈ assigned fp margin argInfo tokens i) : k < argInfo.length := by
  obtain ⟨a, _, here, _⟩ := ((mem_assigned_iff fp margin argInfo tokens i k).mp member).2
  exact (List.getElem?_eq_some_iff.mp here).1

theorem Reaches.le (fp : FloatText) (margin : Margin) (argInfo : List Args) (tokens : List Bytes) (i k : Nat)
    (reached : Reaches fp margin argInfo tokens i k) : i ≤ k := by
  induction reached with
  | here i => exact Nat.le_refl i
  | later i k a kind _ _ _ _ ih => omega

/-- Up to where the loop gets stuck, every index it comes to has been assigned. -/
theorem Reaches.readable (fp : FloatText) (margin : Margin) (argInfo : List Args) (tokens : List Bytes)
    (i k stop : Nat)
    (reached : Reaches fp margin argInfo tokens i k) (stuck : Reaches fp margin argInfo tokens i stop)
    (unreadable : ¬ ReadableAt fp margin argInfo tokens stop) :
    k ≤ stop ∧ (k < stop → ReadableAt fp margin argInfo tokens k) := by
  induction stuck with
  | here i =>
      cases reached with
      | here => exact ⟨Nat.le_refl _, fun less => absurd less (Nat.lt_irrefl _)⟩
      | later _ _ a kind here known slot _ => exact absurd ⟨a, kind, here, known, slot⟩ unreadable
  | later i stop a kind here known slot onwards ih =>
      cases reached with
      | here =>
          have forward := Reaches.le fp margin argInfo tokens _ stop onwards
          exact ⟨by omega, fun _ => ⟨a, kind, here, known, slot⟩⟩
      | later _ _ b _ there _ _ others =>
          cases here.symm.trans there
          exact ih others unreadable

theorem Reaches.last (fp : FloatText) (margin : Margin) (argInfo : List Args) (tokens : List Bytes)
    (i k stop : Nat) (stuck : Reaches fp margin argInfo tokens i stop)
    (reached : Reaches fp margin argInfo tokens i k) (before : k < stop) :
    ∃ last a, Reaches fp margin argInfo tokens i last ∧ argInfo[last]? = some a ∧
      last + max 1 a.tokenCount = stop ∧ k ≤ last := by
  induction stuck generalizing k with
  | here i => exact absurd (Reaches.le fp margin argInfo tokens i k reached) (by omega)
  | later i stop a kind here known slot onwards ih =>
      by_cases next : i + max 1 a.tokenCount = stop
      · refine ⟨i, a, .here i, here, next, ?_⟩
        cases reached with
        | here => exact Nat.le_refl i
        | later _ _ b _ there _ _ others =>
            cases here.symm.trans there
            have past := Reaches.le fp margin argInfo tokens _ k others
            omega
      · have forward := Reaches.le fp margin argInfo tokens _ stop onwards
        have furthest : ∀ j, Reaches fp margin argInfo tokens (i + max 1 a.tokenCount) j → j < stop →
            ∃ last b, Reaches fp margin argInfo tokens i last ∧ argInfo[last]? = some b ∧
              last + max 1 b.tokenCount = stop ∧ j ≤ last := by
          intro j reached_j short
          obtain ⟨last, b, reached_last, at_last, step, below⟩ := ih j reached_j short
          exact ⟨last, b, .later i last a kind here known slot reached_last, at_last, step, below⟩
        cases reached with
        | here =>
            obtain ⟨last, b, reached_last, at_last, step, below⟩ := furthest _ (.here _) (by omega)
            exact ⟨last, b, reached_last, at_last, step, by omega⟩
        | later _ _ b _ there _ _ others =>
            cases here.symm.trans there
            exact furthest k others before

theorem returns_or_stuck (fp : FloatText) (margin : Margin) (argInfo : List Args) (tokens : List Bytes)
    (i : Nat) :
    (∃ writes, unmarshallLoop fp margin argInfo tokens i = .ok ⟨0, writes⟩) ∨
      ∃ stop, Reaches fp margin argInfo tokens i stop ∧ stop < argInfo.length ∧
        ¬ ReadableAt fp margin argInfo tokens stop := by
  induction i using slot_induction argInfo with
  | done i past => exact Or.inl ⟨[], unmarshallLoop_done fp margin argInfo tokens i past⟩
  | next i a here ih =>
      by_cases readable : ReadableAt fp margin argInfo tokens i
      · obtain ⟨b, kind, there, known, slot⟩ := readable
        cases here.symm.trans there
        obtain ⟨block, decoded⟩ := (decodeSlot_known fp margin a kind tokens i known).mpr slot
        rcases ih with ⟨writes, later⟩ | ⟨stop, onwards, stuck⟩
        · refine Or.inl ⟨(i, block) :: writes, ?_⟩
          rw [unmarshallLoop_next fp margin argInfo tokens i a here block decoded, later]
          rfl
        · exact Or.inr ⟨stop, .later i stop a kind here known slot onwards, stuck⟩
      · exact Or.inr ⟨i, .here i, (List.getElem?_eq_some_iff.mp here).1, readable⟩

theorem readable_of_returned (fp : FloatText) (margin : Margin) (argInfo : List Args) (tokens : List Bytes)
    (i stop : Nat)
    (result : Unmarshalled) (run : unmarshallLoop fp margin argInfo tokens i = .ok result)
    (zero : result.ret = 0) (reached : Reaches fp margin argInfo tokens i stop)
    (inside : stop < argInfo.length) :
    ReadableAt fp margin argInfo tokens stop := by
  induction reached generalizing result with
  | here i =>
      have here := List.getElem?_eq_getElem inside
      obtain ⟨block, _, decoded, _⟩ := decodeSlot_ok fp margin argInfo tokens i _ here result run zero
      exact (decodeSlot_readable fp margin argInfo tokens i _ here).mp ⟨block, decoded⟩
  | later i stop a kind here _ _ _ ih =>
      obtain ⟨_, rest, _, later, rfl⟩ := decodeSlot_ok fp margin argInfo tokens i a here result run zero
      exact ih rest later zero inside

theorem kind_size_le (kind : Kind) : kind.size ≤ 8 := by
  cases kind <;> decide

theorem argBytes_single (a : Args) (nonneg : 0 ≤ a.arrLength) (single : a.tokenCount = 1) :
    argBytes a ≤ 8 := by
  rw [tokenCount_eq a nonneg] at single
  rw [argBytes]
  cases a.kind with
  | none => exact Int.natCast_nonneg 8
  | some kind =>
      have width := kind_size_le kind
      have one : a.arrLength = 0 ∨ a.arrLength = 1 := by omega
      rcases one with length | length <;> cases kind <;> simp [length, Kind.size]

theorem argBytes_bounded (a : Args) (bounds : 0 ≤ a.arrLength ∧ a.arrLength ≤ 65535) :
    argBytes a ≤ 524280 := by
  rw [argBytes]
  cases a.kind with
  | none => exact Int.natCast_nonneg 524280
  | some kind =>
      cases kind <;> simp only [Kind.size] <;> split <;> omega

theorem totalBytes_le (argInfo : List Args)
    (bounds : ∀ a ∈ argInfo, 0 ≤ a.arrLength ∧ a.arrLength ≤ 65535)
    (single : ∀ k a, argInfo[k]? = some a → k + 1 < argInfo.length → a.tokenCount = 1) :
    totalBytes argInfo ≤ 8 * argInfo.length + 524280 := by
  rcases List.eq_nil_or_concat argInfo with rfl | ⟨front, last, same⟩
  · decide
  · rw [List.concat_eq_append] at same
    subst same
    have before : (front.map argBytes).sum ≤ 8 * front.length := by
      have each : ∀ bytes ∈ front.map argBytes, bytes ≤ 8 := by
        intro bytes member
        obtain ⟨a, listed, rfl⟩ := List.mem_map.mp member
        obtain ⟨k, inside, here⟩ := List.mem_iff_getElem.mp listed
        have low := (bounds a (List.mem_append_left _ listed)).1
        refine argBytes_single a low (single k a ?_ ?_)
        · rw [List.getElem?_append_left inside, List.getElem?_eq_getElem inside, here]
        · rw [List.length_append, List.length_singleton]
          omega
      have sum := List.sum_le_card_nsmul (front.map argBytes) 8 each
      rw [List.length_map, nsmul_eq_mul] at sum
      omega
    have after := argBytes_bounded last (bounds last (by simp))
    simp only [totalBytes, List.map_append, List.map_singleton, List.sum_append, List.sum_singleton,
      List.length_append, List.length_singleton]
    omega

theorem accounted_of_suffices (fp : FloatText) (margin : Margin) (argInfo : List Args) (tokens : List Bytes)
    (nonneg : ∀ a ∈ argInfo, 0 ≤ a.arrLength) (suffices_all : TableSuffices argInfo) :
    Accounted fp margin argInfo tokens := by
  have total := totalBytes_nonneg argInfo nonneg
  have small := suffices_all.small
  have size : (calculateArgSize argInfo).toInt = totalBytes argInfo := by
    rw [calculateArgSize_toInt]
    exact Int.bmod_eq_of_le (by omega) (by omega)
  constructor
  · intro k member
    have inside := assigned_lt fp margin argInfo tokens 0 k member
    have covers := suffices_all.covers
    rw [size]
    omega
  · intro result run zero k inside
    rw [writes_eq_path fp margin argInfo tokens 0 result run zero, path_eq_range argInfo 0 suffices_all.single,
      ← List.range_eq_range']
    exact List.count_eq_one_of_mem List.nodup_range (List.mem_range.mpr inside)

theorem accounted_of_stop (fp : FloatText) (margin : Margin) (argInfo : List Args) (tokens : List Bytes)
    (stops : StopsInTime fp margin argInfo tokens) : Accounted fp margin argInfo tokens := by
  obtain ⟨stop, reached, inside, unreadable, fits⟩ := stops
  constructor
  · intro k member
    obtain ⟨reached_k, readable⟩ := (mem_assigned_iff fp margin argInfo tokens 0 k).mp member
    have place := (Reaches.readable fp margin argInfo tokens 0 k stop reached_k reached unreadable).1
    have other : k ≠ stop := by
      rintro rfl
      exact unreadable readable
    obtain ⟨last, a, reached_last, at_last, step, below⟩ :=
      Reaches.last fp margin argInfo tokens 0 k stop reached reached_k (by omega)
    have room := fits last a reached_last at_last step
    rw [calculateArgSize_toInt]
    omega
  · intro result run zero
    exact absurd (readable_of_returned fp margin argInfo tokens 0 stop result run zero reached inside)
      unreadable

/-- A decoder that fills every slot once, each within the table, has arguments whose
sizes make up for the pointers. -/
theorem suffices_of_returned (fp : FloatText) (margin : Margin) (argInfo : List Args) (tokens : List Bytes)
    (bounds : ∀ a ∈ argInfo, 0 ≤ a.arrLength ∧ a.arrLength ≤ 65535) (writes : List (Nat × Block))
    (run : unmarshallLoop fp margin argInfo tokens 0 = .ok ⟨0, writes⟩)
    (accounted : Accounted fp margin argInfo tokens) : TableSuffices argInfo := by
  have visited : ∀ k < argInfo.length, k ∈ path argInfo 0 := by
    intro k inside
    have once := accounted.filled _ run rfl k inside
    rw [writes_eq_path fp margin argInfo tokens 0 _ run rfl] at once
    exact List.one_le_count_iff.mp (Nat.le_of_eq once.symm)
  have single : ∀ k a, argInfo[k]? = some a → k + 1 < argInfo.length → a.tokenCount = 1 := by
    intro k a here next
    have jump := path_jumps argInfo 0 k (k + 1) a here (visited k (by omega)) (visited (k + 1) next)
      (Nat.lt_succ_self k)
    have count := tokenCount_eq a (bounds a (List.mem_of_getElem? here)).1
    omega
  have covers : (8 * argInfo.length : Int) ≤ (totalBytes argInfo).bmod (2 ^ 32) := by
    rw [← calculateArgSize_toInt]
    by_cases none : argInfo = []
    · subst none
      decide
    · have some_args := List.length_pos_iff.mpr none
      have last := accounted.fits (argInfo.length - 1) (by
        rw [assigned_eq_path fp margin argInfo tokens 0 _ run rfl]
        exact visited _ (by omega))
      omega
  -- a sum that left the `int` would have come back negative
  have most := totalBytes_le argInfo bounds single
  have total := totalBytes_nonneg argInfo fun a member => (bounds a member).1
  have small : totalBytes argInfo < 2 ^ 31 := by
    rw [Int.bmod_def] at covers
    split at covers <;> omega
  refine ⟨single, ?_, small⟩
  rwa [Int.bmod_eq_of_le (by omega) (by omega)] at covers

theorem accounted_iff (fp : FloatText) (margin : Margin) (argInfo : List Args) (tokens : List Bytes)
    (bounds : ∀ a ∈ argInfo, 0 ≤ a.arrLength ∧ a.arrLength ≤ 65535) :
    Accounted fp margin argInfo tokens ↔ TableSuffices argInfo ∨ StopsInTime fp margin argInfo tokens := by
  constructor
  · intro accounted
    rcases returns_or_stuck fp margin argInfo tokens 0 with ⟨writes, run⟩ | ⟨stop, reached, inside, unreadable⟩
    · exact Or.inl (suffices_of_returned fp margin argInfo tokens bounds writes run accounted)
    · refine Or.inr ⟨stop, reached, inside, unreadable, fun last a reached_last _ step => ?_⟩
      have readable := (Reaches.readable fp margin argInfo tokens 0 last stop reached_last reached
        unreadable).2 (by omega)
      rw [← calculateArgSize_toInt]
      exact accounted.fits last ((mem_assigned_iff fp margin argInfo tokens 0 last).mpr
        ⟨reached_last, readable⟩)
  · rintro (suffices_all | stops)
    · exact accounted_of_suffices fp margin argInfo tokens (fun a member => (bounds a member).1) suffices_all
    · exact accounted_of_stop fp margin argInfo tokens stops

theorem one_long_accounted : Accounted .absent (fun _ => 0) [⟨1, 0, 4, 0⟩] [[53]] := by
  refine (accounted_iff .absent _ _ _ ?_).mpr (Or.inl ⟨?_, by decide, by decide⟩)
  · intro a member
    rw [List.mem_singleton.mp member]
    decide
  · intro k a _ next
    exact absurd next (by simp)

/-- The pointer to a char is written into a table of one byte. -/
theorem one_char_outside :
    0 ∈ assigned .absent (fun _ => 0) [⟨1, 0, 1, 0⟩] [[97]] 0 ∧ (calculateArgSize [⟨1, 0, 1, 0⟩]).toInt = 1 ∧
      ¬ Accounted .absent (fun _ => 0) [⟨1, 0, 1, 0⟩] [[97]] := by
  have readable : ReadableAt .absent (fun _ => 0) [⟨1, 0, 1, 0⟩] [[97]] 0 :=
    ⟨⟨1, 0, 1, 0⟩, .char, rfl, rfl, [97], rfl, trivial⟩
  have stored : 0 ∈ assigned .absent (fun _ => 0) [⟨1, 0, 1, 0⟩] [[97]] 0 :=
    (mem_assigned_iff _ _ _ _ 0 0).mpr ⟨.here 0, readable⟩
  have size : (calculateArgSize [⟨1, 0, 1, 0⟩]).toInt = 1 := by decide
  refine ⟨stored, size, fun accounted => ?_⟩
  have fits := accounted.fits 0 stored
  rw [size] at fits
  exact absurd fits (by decide)

end BinderRpc.SlotTable
