import Mathlib.Algebra.BigOperators.Group.List.Basic
import Mathlib.Tactic.Ring

/-!
Pieces written one after another, each followed by a separator, and the text
left when the last separator is cut off. `dropLast_terminated` turns that
encoder's loop into `List.intercalate`, which `List.splitOn` undoes.
-/

namespace BinderRpc.Joining

variable {α : Type}

def terminated (sep : α) (pieces : List (List α)) : List α :=
  pieces.flatMap (· ++ [sep])

@[simp] theorem terminated_nil (sep : α) : terminated sep [] = [] := rfl

@[simp] theorem terminated_cons (sep : α) (piece : List α) (rest : List (List α)) :
    terminated sep (piece :: rest) = piece ++ sep :: terminated sep rest := by
  simp [terminated]

theorem dropLast_terminated (sep : α) (pieces : List (List α)) :
    (terminated sep pieces).dropLast = [sep].intercalate pieces := by
  induction pieces with
  | nil => rfl
  | cons piece rest ih =>
      cases rest with
      | nil => simp [List.dropLast_append_of_ne_nil]
      | cons next rest =>
          have more : terminated sep (next :: rest) ≠ [] := by simp
          rw [terminated_cons, List.intercalate_cons_cons, ← ih, List.append_assoc,
            List.dropLast_append_of_ne_nil (by simp), List.dropLast_cons_of_ne_nil more]
          rfl

theorem intercalate_append (sep : α) (left right : List (List α))
    (some_left : left ≠ []) (some_right : right ≠ []) :
    [sep].intercalate (left ++ right) =
      [sep].intercalate left ++ sep :: [sep].intercalate right := by
  induction left with
  | nil => exact absurd rfl some_left
  | cons piece rest ih =>
      cases rest with
      | nil => simp [List.intercalate_cons_of_ne_nil some_right]
      | cons next rest =>
          have tail := ih (by simp)
          simp only [List.cons_append] at tail ⊢
          rw [List.intercalate_cons_cons, List.intercalate_cons_cons, tail]
          simp

theorem mem_intercalate (sep : α) (pieces : List (List α)) (value : α)
    (member : value ∈ [sep].intercalate pieces) :
    value = sep ∨ ∃ piece ∈ pieces, value ∈ piece := by
  induction pieces with
  | nil => simp [List.intercalate_nil] at member
  | cons piece rest ih =>
      cases rest with
      | nil => exact Or.inr ⟨piece, by simp, by simpa using member⟩
      | cons next rest =>
          rw [List.intercalate_cons_cons] at member
          rcases List.mem_append.mp member with (front | back)
          · rcases List.mem_append.mp front with (inside | same)
            · exact Or.inr ⟨piece, by simp, inside⟩
            · exact Or.inl (by simpa using same)
          · rcases ih back with same | ⟨other, listed, inside⟩
            · exact Or.inl same
            · exact Or.inr ⟨other, List.mem_cons_of_mem piece listed, inside⟩

theorem length_intercalate (sep : α) (pieces : List (List α)) (some_piece : pieces ≠ []) :
    ([sep].intercalate pieces).length + 1 = (pieces.map fun piece => piece.length + 1).sum := by
  induction pieces with
  | nil => exact absurd rfl some_piece
  | cons piece rest ih =>
      cases rest with
      | nil => simp
      | cons next rest =>
          have tail := ih (by simp)
          rw [List.intercalate_cons_cons, List.map_cons, List.sum_cons, ← tail]
          simp only [List.length_append, List.length_singleton]
          omega

theorem length_pieces_le (sep : α) (pieces : List (List α)) :
    pieces.length ≤ ([sep].intercalate pieces).length + 1 := by
  cases pieces with
  | nil => simp
  | cons piece rest =>
      rw [length_intercalate sep (piece :: rest) (List.cons_ne_nil _ _),
        ← List.length_map (fun piece => piece.length + 1)]
      apply List.length_le_sum_of_one_le
      intro size member
      obtain ⟨other, _, rfl⟩ := List.mem_map.mp member
      omega

theorem free_of_mem_splitOn [BEq α] [LawfulBEq α] (sep : α) (text : List α) :
    ∀ piece ∈ text.splitOn sep, sep ∉ piece := by
  induction text with
  | nil => simp
  | cons value rest ih =>
      rw [List.splitOn_cons_eq_if_modifyHead]
      split
      · intro piece member
        rcases List.mem_cons.mp member with rfl | later
        · exact List.not_mem_nil
        · exact ih piece later
      · rename_i other
        obtain ⟨first, pieces, cut⟩ := List.exists_cons_of_ne_nil (List.splitOn_ne_nil sep rest)
        rw [cut] at ih ⊢
        intro piece member
        rcases List.mem_cons.mp member with rfl | later
        · intro inside
          rcases List.mem_cons.mp inside with same | deeper
          · exact other (beq_iff_eq.mpr same.symm)
          · exact ih first List.mem_cons_self deeper
        · exact ih piece (List.mem_cons_of_mem first later)

/-! Pieces of one width, cut from the front. -/

def chunks (width : Nat) : Nat → List α → List (List α)
  | 0, _ => []
  | count + 1, list => list.take width :: chunks width count (list.drop width)

@[simp] theorem length_chunks (width count : Nat) (list : List α) :
    (chunks width count list).length = count := by
  induction count generalizing list with
  | zero => rfl
  | succ count ih => simp [chunks, ih]

theorem chunks_take (width count : Nat) (list : List α) :
    chunks width count (list.take (width * count)) = chunks width count list := by
  induction count generalizing list with
  | zero => rfl
  | succ count ih =>
      have front : (list.take (width * (count + 1))).take width = list.take width := by
        rw [List.take_take, Nat.mul_succ, Nat.min_eq_left (Nat.le_add_left width _)]
      have back : (list.take (width * (count + 1))).drop width =
          (list.drop width).take (width * count) := by
        rw [List.drop_take, Nat.mul_succ, Nat.add_sub_cancel]
      rw [chunks, chunks, front, back, ih]

theorem flatten_chunks (width count : Nat) (list : List α) :
    (chunks width count list).flatten = list.take (width * count) := by
  induction count generalizing list with
  | zero => simp [chunks]
  | succ count ih =>
      rw [chunks, List.flatten_cons, ih, Nat.mul_succ, Nat.add_comm, List.take_add]

theorem mem_chunks (width count : Nat) (list piece : List α)
    (enough : width * count ≤ list.length) (member : piece ∈ chunks width count list) :
    piece.length = width ∧ ∀ value ∈ piece, value ∈ list := by
  induction count generalizing list with
  | zero => simp [chunks] at member
  | succ count ih =>
      have room : width + width * count ≤ list.length := by
        rwa [Nat.mul_succ, Nat.add_comm] at enough
      rcases List.mem_cons.mp member with first | later
      · subst first
        exact ⟨by simp; omega, fun value inside => List.mem_of_mem_take inside⟩
      · have tail := ih (list.drop width) (by simp; omega) later
        exact ⟨tail.1, fun value inside => List.mem_of_mem_drop (tail.2 value inside)⟩

end BinderRpc.Joining
