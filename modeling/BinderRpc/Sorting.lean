import Mathlib.Data.List.Induction
import BinderRpc.Lib.Bubbling
import BinderRpc.Model.Sample

/-!
What f3 of the sample server does to its array. The exchange goes through an `int`,
so a long that does not fit one is cut the first time it moves.
-/

namespace BinderRpc.Sorting

open Signature Sample Bubbling

theorem throughInt_settled (value : Int) : throughInt (throughInt value) = throughInt value := by
  simp [throughInt]

/-! The loops on the array, against passes over a list. -/

theorem element_append (before : List Int) (x : Int) (after : List Int) :
    element (before ++ x :: after) before.length = .ok x := by
  simp [element]

theorem exchange_settles (before : List Int) (x y : Int) (after : List Int) :
    exchange (before ++ x :: y :: after) (before.length + 1) =
      .ok (before ++ settle throughInt x (y :: after)) := by
  have right : element (before ++ x :: y :: after) (before.length + 1) = .ok y := by
    have place := element_append (before ++ [x]) y after
    rwa [List.append_assoc, List.length_append] at place
  have left := element_append before x (y :: after)
  rw [exchange, right, Outcome.ok_bind, Nat.add_sub_cancel, left, Outcome.ok_bind, settle]
  by_cases above : x < y
  · rw [if_pos above, if_pos above]
    simp [pure, Except.pure]
  · rw [if_neg above, if_neg above]
    rfl

theorem settle_cons (x y : Int) (after : List Int) :
    ∃ z zs, settle throughInt x (y :: after) = z :: zs := by
  rw [settle]
  split <;> exact ⟨_, _, rfl⟩

theorem innerLoop_done (i : Nat) (a : List Int) : innerLoop i i a = .ok a := by
  cases i with
  | zero => rfl
  | succ i => rw [innerLoop, if_neg (by omega)]

theorem innerLoop_settles (before u : List Int) (y : Int) (after : List Int) :
    innerLoop before.length (before.length + u.length) (before ++ (u ++ y :: after)) =
      .ok (before ++ u.foldr (settle throughInt) (y :: after)) := by
  induction u using List.reverseRecOn generalizing y after with
  | nil => exact innerLoop_done _ _
  | append_singleton u x ih =>
      have step := exchange_settles (before ++ u) x y after
      rw [List.append_assoc, List.append_assoc, List.length_append] at step
      obtain ⟨z, zs, settled⟩ := settle_cons x y after
      have size : before.length + (u ++ [x]).length = before.length + u.length + 1 := by
        rw [List.length_append, List.length_singleton, Nat.add_assoc]
      rw [size, innerLoop, if_pos (by omega), List.append_assoc u, List.singleton_append, step,
        Outcome.ok_bind, settled, ih, List.foldr_append, List.foldr_cons, List.foldr_nil, settled]

theorem foldr_settle_append (u : List Int) (y : Int) (ys tail : List Int) :
    ∃ z zs, u.foldr (settle throughInt) (y :: ys) = z :: zs ∧
      u.foldr (settle throughInt) (y :: (ys ++ tail)) = z :: (zs ++ tail) ∧
      zs.length = u.length + ys.length := by
  induction u with
  | nil => exact ⟨y, ys, rfl, rfl, (Nat.zero_add _).symm⟩
  | cons x u ih =>
      obtain ⟨z, zs, alone, followed, size⟩ := ih
      simp only [List.foldr_cons, alone, followed, settle]
      by_cases above : x < z
      · simp only [if_pos above]
        exact ⟨_, _, rfl, rfl, by simp only [List.length_cons, size]; omega⟩
      · simp only [if_neg above]
        exact ⟨_, _, rfl, rfl, by simp only [List.length_cons, size]; omega⟩

theorem bubble_append (u : List Int) (y : Int) :
    bubble throughInt (u ++ [y]) = u.foldr (settle throughInt) [y] := by
  rw [bubble, List.foldr_append]
  rfl

theorem outerLoop_sweeps (len n : Nat) (done l tail : List Int) (size : l.length = n)
    (whole : done.length + n = len) :
    outerLoop len n done.length (done ++ (l ++ tail)) =
      .ok (done ++ (sweep throughInt n l ++ tail)) := by
  induction n generalizing done l with
  | zero => rfl
  | succ n ih =>
      obtain ⟨u, y, rfl⟩ : ∃ u y, l = u ++ [y] :=
        ⟨_, _, (List.dropLast_append_getLast (List.ne_nil_of_length_eq_add_one size)).symm⟩
      obtain ⟨z, zs, alone, followed, left⟩ := foldr_settle_append u y [] tail
      rw [List.length_append, List.length_singleton] at size
      have inner := innerLoop_settles done u y tail
      rw [List.nil_append] at followed
      rw [followed] at inner
      -- the inner loop starts at the end of the list, not of the array
      have last : len - 1 = done.length + u.length := by omega
      have front := ih (done ++ [z]) zs (by rw [left, List.length_nil]; omega)
        (by rw [List.length_append, List.length_singleton]; omega)
      rw [List.length_append, List.length_singleton, List.append_assoc, List.append_assoc] at front
      rw [outerLoop, last, List.append_assoc u, List.singleton_append, inner, Outcome.ok_bind]
      refine front.trans ?_
      rw [sweep, bubble_append, alone]
      rfl

def counted (a : List Int) : Nat := (throughInt (a.headD 0)).toNat

theorem f3_sweeps (a : List Int) (some_first : a ≠ []) (within : counted a ≤ a.length) :
    f3 a = .ok (sweep throughInt (counted a) (a.take (counted a)) ++ a.drop (counted a)) := by
  obtain ⟨first, rest, rfl⟩ := List.exists_cons_of_ne_nil some_first
  have size : ((first :: rest).take (counted (first :: rest))).length = counted (first :: rest) := by
    rw [List.length_take, Nat.min_eq_left within]
  have run := outerLoop_sweeps (counted (first :: rest)) (counted (first :: rest)) [] _
    ((first :: rest).drop (counted (first :: rest))) size (Nat.zero_add _)
  rw [List.take_append_drop] at run
  exact run

/-- A longer array than there is is read past its end in the first comparison. -/
theorem f3_short (a : List Int) (short : a.length < counted a) : f3 a = .error .badIndex := by
  cases a with
  | nil => rfl
  | cons first rest =>
      obtain ⟨n, many⟩ : ∃ n, counted (first :: rest) = n + 2 := by
        rw [List.length_cons] at short
        exact ⟨counted (first :: rest) - 2, by omega⟩
      -- the first comparison is at `len - 1`, which is past the end
      have past : element (first :: rest) (n + 1) = .error .badIndex := by
        rw [many, List.length_cons] at short
        rw [element, List.getElem?_eq_none (by rw [List.length_cons]; omega)]
      change outerLoop (counted (first :: rest)) (counted (first :: rest)) 0 (first :: rest) = _
      rw [many, outerLoop, Nat.add_sub_cancel (n + 1) 1, innerLoop, if_pos (Nat.succ_pos n), exchange, past]
      rfl

/-- f3 sorts an array, and leaves what lies behind it, exactly when the array is as
long as its first element says and no `long` that is not an `int` stands behind a
smaller one. Any other is cut down on its way to the front. -/
theorem f3_sorts_iff (a : List Int) :
    (∃ after, f3 a = .ok after ∧ after.drop (counted a) = a.drop (counted a) ∧
      Sorts (a.take (counted a)) (after.take (counted a))) ↔
      a ≠ [] ∧ counted a ≤ a.length ∧
        (a.take (counted a)).Pairwise fun y x => throughInt x = x ∨ x ≤ y := by
  by_cases none : a = []
  · subst none
    constructor
    · rintro ⟨after, run, _⟩
      cases run
    · exact fun some_first => absurd rfl some_first.1
  by_cases within : counted a ≤ a.length
  · have run := f3_sweeps a none within
    have size : (a.take (counted a)).length = counted a := by
      rw [List.length_take, Nat.min_eq_left within]
    have sorts := sorts_iff throughInt throughInt_settled (a.take (counted a))
    rw [size] at sorts
    have front : (sweep throughInt (counted a) (a.take (counted a))).length = counted a := by
      rw [length_sweep, size]
    constructor
    · rintro ⟨after, again, _, sorted⟩
      cases run.symm.trans again
      rw [List.take_left' front] at sorted
      exact ⟨none, within, sorts.mp sorted⟩
    · rintro ⟨_, _, movable⟩
      refine ⟨_, run, List.drop_left' front, ?_⟩
      rw [List.take_left' front]
      exact sorts.mpr movable
  · constructor
    · rintro ⟨after, run, _⟩
      cases (f3_short a (by omega)).symm.trans run
    · exact fun counts => absurd counts.2.1 within

/-- The array of client1.c, and one whose length and second element do not sort. -/
example : f3 [11, 109, 107, 105, 103, 101, 102, 104, 106, 108, 110] =
    .ok [110, 109, 108, 107, 106, 105, 104, 103, 102, 101, 11] := by rfl

example : f3 [2, 2 ^ 32] = .ok [0, 2] := by rfl

end BinderRpc.Sorting
