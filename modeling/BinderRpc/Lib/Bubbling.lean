import Mathlib.Data.List.Perm.Basic
import Mathlib.Order.Lattice
import Mathlib.Tactic.Common

/-!
Bubble sort, the largest to the front, where a value that moves to the front goes
through a variable too narrow for some. `sorts_iff`: it sorts exactly the lists in
which no value that the variable would change stands behind a smaller one.
-/

namespace BinderRpc.Bubbling

variable {α : Type} [LinearOrder α] (narrow : α → α)

/-- One comparison; the later value moves to the front if it is the larger. -/
def settle (x : α) : List α → List α
  | [] => [x]
  | y :: ys => if x < y then narrow y :: x :: ys else x :: y :: ys

def bubble (l : List α) : List α := l.foldr (settle narrow) []

/-- So many passes, each over what is left behind the fronts of those before. -/
def sweep : Nat → List α → List α
  | 0, l => l
  | n + 1, l =>
      match bubble narrow l with
      | [] => []
      | y :: ys => y :: sweep n ys

/-- No value to be changed has a smaller one in front of it. -/
def Movable (l : List α) : Prop := l.Pairwise fun y x => narrow x = x ∨ x ≤ y

structure Sorts (before after : List α) : Prop where
  perm : after.Perm before
  descending : after.Pairwise fun y x => x ≤ y

def wide (l : List α) : Nat := l.countP fun x => narrow x ≠ x

theorem length_settle (x : α) (l : List α) : (settle narrow x l).length = l.length + 1 := by
  cases l with
  | nil => rfl
  | cons y ys =>
      rw [settle]
      split <;> rfl

theorem length_bubble (l : List α) : (bubble narrow l).length = l.length := by
  induction l with
  | nil => rfl
  | cons x l ih => rw [bubble, List.foldr_cons, length_settle, ← bubble, ih, List.length_cons]

theorem length_sweep (n : Nat) (l : List α) : (sweep narrow n l).length = l.length := by
  induction n generalizing l with
  | zero => rfl
  | succ n ih =>
      have pass := length_bubble narrow l
      rw [sweep]
      cases bubbled : bubble narrow l with
      | nil => rw [← pass, bubbled]
      | cons y ys => rw [← pass, bubbled, List.length_cons, List.length_cons, ih]

def Exact (x : α) (l : List α) : Prop := ∀ y ∈ l.head?, x < y → narrow y = y

def Fronted (l : List α) : Prop := ∀ y ys, l = y :: ys → ∀ z ∈ ys, z ≤ y

theorem wide_cons (x : α) (l : List α) :
    wide narrow (x :: l) = wide narrow l + if narrow x ≠ x then 1 else 0 := by
  simp [wide, List.countP_cons]

theorem exact_of_movable (x : α) (l : List α) (movable : Movable narrow (x :: l)) :
    Exact narrow x l := by
  intro y first above
  obtain ⟨ys, rfl⟩ := List.head?_eq_some_iff.mp first
  exact (List.rel_of_pairwise_cons movable List.mem_cons_self).resolve_right (not_le.mpr above)

theorem wide_settle (settled : ∀ x, narrow (narrow x) = narrow x) (x : α) (l : List α) :
    wide narrow (settle narrow x l) ≤ wide narrow (x :: l) ∧
      (wide narrow (settle narrow x l) = wide narrow (x :: l) → Exact narrow x l) := by
  cases l with
  | nil => exact ⟨Nat.le_refl _, fun _ y first => by cases first⟩
  | cons y ys =>
      rw [settle]
      by_cases above : x < y
      · rw [if_pos above]
        simp only [wide_cons, settled, ne_eq, not_true_eq_false, if_false]
        refine ⟨by omega, ?_⟩
        rintro same _ ⟨⟩ _
        by_contra changed
        rw [if_pos changed] at same
        omega
      · rw [if_neg above]
        refine ⟨Nat.le_refl _, ?_⟩
        rintro _ _ ⟨⟩ larger
        exact absurd larger above

theorem settle_exact (x : α) (l : List α) (exact : Exact narrow x l) :
    (settle narrow x l).Perm (x :: l) ∧
      (Movable narrow (settle narrow x l) ↔ Movable narrow (x :: l)) ∧
      (Fronted l → Fronted (settle narrow x l)) := by
  cases l with
  | nil =>
      refine ⟨.refl _, Iff.rfl, ?_⟩
      rintro _ _ _ ⟨⟩ z member
      cases member
  | cons y ys =>
      rw [settle]
      by_cases above : x < y
      · rw [if_pos above, exact y rfl above]
        refine ⟨.swap x y ys, ?_, ?_⟩
        · simp only [Movable, List.pairwise_cons, List.mem_cons, forall_eq_or_imp]
          have kept := exact y rfl above
          constructor
          · rintro ⟨⟨_, later⟩, here, rest⟩
            exact ⟨⟨Or.inl kept, here⟩, later, rest⟩
          · rintro ⟨⟨_, here⟩, later, rest⟩
            exact ⟨⟨Or.inr (le_of_lt above), later⟩, here, rest⟩
        · rintro largest _ _ ⟨⟩ z member
          rcases List.mem_cons.mp member with rfl | later
          · exact le_of_lt above
          · exact largest y ys rfl z later
      · rw [if_neg above]
        refine ⟨.refl _, Iff.rfl, ?_⟩
        rintro largest _ _ ⟨⟩ z member
        rcases List.mem_cons.mp member with rfl | later
        · exact not_lt.mp above
        · exact le_trans (largest y ys rfl z later) (not_lt.mp above)

theorem bubble_cons (x : α) (l : List α) :
    bubble narrow (x :: l) = settle narrow x (bubble narrow l) := rfl

theorem wide_bubble (settled : ∀ x, narrow (narrow x) = narrow x) (l : List α) :
    wide narrow (bubble narrow l) ≤ wide narrow l := by
  induction l with
  | nil => exact Nat.le_refl _
  | cons x l ih =>
      have step := (wide_settle narrow settled x (bubble narrow l)).1
      rw [wide_cons] at step
      rw [bubble_cons, wide_cons]
      omega

theorem bubble_exact (settled : ∀ x, narrow (narrow x) = narrow x) (l : List α)
    (unchanged : Movable narrow l ∨ wide narrow (bubble narrow l) = wide narrow l) :
    (bubble narrow l).Perm l ∧ (Movable narrow (bubble narrow l) ↔ Movable narrow l) ∧
      Fronted (bubble narrow l) := by
  induction l with
  | nil =>
      refine ⟨.refl _, Iff.rfl, ?_⟩
      rintro _ _ ⟨⟩
  | cons x l ih =>
      obtain ⟨less, exact⟩ := wide_settle narrow settled x (bubble narrow l)
      have later := wide_bubble narrow settled l
      -- the count never rises, so if it has not fallen in all it has not on the way
      have tail : Movable narrow l ∨ wide narrow (bubble narrow l) = wide narrow l := by
        refine unchanged.imp (fun movable => (List.pairwise_cons.mp movable).2) fun same => ?_
        rw [bubble_cons, wide_cons] at same
        rw [wide_cons] at less
        omega
      obtain ⟨perm, movable_iff, fronted⟩ := ih tail
      have behind : Movable narrow (x :: bubble narrow l) ↔ Movable narrow (x :: l) := by
        simp only [Movable, List.pairwise_cons]
        refine and_congr ?_ movable_iff
        exact forall_congr' fun z => by rw [perm.mem_iff]
      have moved : Exact narrow x (bubble narrow l) := by
        rcases unchanged with movable | same
        · exact exact_of_movable narrow x _ (behind.mpr movable)
        · apply exact
          rw [bubble_cons, wide_cons] at same
          rw [wide_cons] at less ⊢
          omega
      obtain ⟨settled_perm, settled_iff, settled_front⟩ := settle_exact narrow x _ moved
      exact ⟨settled_perm.trans (perm.cons x), settled_iff.trans behind, settled_front fronted⟩

theorem wide_sweep (settled : ∀ x, narrow (narrow x) = narrow x) (n : Nat) (l : List α) :
    wide narrow (sweep narrow n l) ≤ wide narrow l := by
  induction n generalizing l with
  | zero => exact Nat.le_refl _
  | succ n ih =>
      have pass := wide_bubble narrow settled l
      rw [sweep]
      cases bubbled : bubble narrow l with
      | nil => exact Nat.zero_le _
      | cons y ys =>
          have rest := ih ys
          rw [bubbled, wide_cons] at pass
          rw [wide_cons]
          omega

theorem sweep_exact (settled : ∀ x, narrow (narrow x) = narrow x) (n : Nat) (l : List α)
    (enough : l.length ≤ n)
    (unchanged : Movable narrow l ∨ wide narrow (sweep narrow n l) = wide narrow l) :
    Sorts l (sweep narrow n l) ∧ Movable narrow l := by
  induction n generalizing l with
  | zero =>
      cases List.length_eq_zero_iff.mp (Nat.le_zero.mp enough)
      exact ⟨⟨.refl _, .nil⟩, .nil⟩
  | succ n ih =>
      have pass := wide_bubble narrow settled l
      rw [sweep] at unchanged ⊢
      cases bubbled : bubble narrow l with
      | nil =>
          have size := length_bubble narrow l
          rw [bubbled] at size
          cases List.length_eq_zero_iff.mp size.symm
          exact ⟨⟨.refl _, .nil⟩, .nil⟩
      | cons y ys =>
          rw [bubbled] at unchanged pass
          simp only at unchanged ⊢
          have rest := wide_sweep narrow settled n ys
          have first : Movable narrow l ∨ wide narrow (bubble narrow l) = wide narrow l := by
            refine unchanged.imp_right fun same => ?_
            rw [bubbled]
            rw [wide_cons] at same pass ⊢
            omega
          obtain ⟨perm, movable_iff, fronted⟩ := bubble_exact narrow settled l first
          rw [bubbled] at perm movable_iff fronted
          have later : Movable narrow ys ∨ wide narrow (sweep narrow n ys) = wide narrow ys := by
            rcases unchanged with movable | same
            · exact Or.inl (List.pairwise_cons.mp (movable_iff.mpr movable)).2
            · rw [wide_cons] at same pass
              exact Or.inr (by omega)
          have shorter : ys.length ≤ n := by
            have size := length_bubble narrow l
            rw [bubbled, List.length_cons] at size
            omega
          obtain ⟨⟨sorted_perm, descending⟩, movable⟩ := ih ys shorter later
          -- the front stays where it is, and nothing behind it is larger
          have largest := fronted y ys rfl
          refine ⟨⟨(sorted_perm.cons y).trans perm, ?_⟩, movable_iff.mp ?_⟩
          · refine List.pairwise_cons.mpr ⟨fun z member => ?_, descending⟩
            exact largest z (sorted_perm.mem_iff.mp member)
          · exact List.pairwise_cons.mpr ⟨fun z member => Or.inr (largest z member), movable⟩

/-- A value the variable changes never comes back, so what is not sorted has lost one. -/
theorem sorts_iff (settled : ∀ x, narrow (narrow x) = narrow x) (l : List α) :
    Sorts l (sweep narrow l.length l) ↔ Movable narrow l := by
  constructor
  · intro sorts
    exact (sweep_exact narrow settled _ l (Nat.le_refl _)
      (Or.inr (sorts.perm.countP_eq _))).2
  · intro movable
    exact (sweep_exact narrow settled _ l (Nat.le_refl _) (Or.inl movable)).1

end BinderRpc.Bubbling
