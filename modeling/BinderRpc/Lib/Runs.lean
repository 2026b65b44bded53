import Mathlib.Tactic.Common

/-! States reached by a transition relation, and the rule for what holds in all
of them. -/

namespace BinderRpc.Runs

variable {State : Type}

inductive Reached (start : State → Prop) (step : State → State → Prop) : State → Prop where
  | start (s : State) (initial : start s) : Reached start step s
  | step (s t : State) (before : Reached start step s) (taken : step s t) : Reached start step t

theorem always (start : State → Prop) (step : State → State → Prop) (holds : State → Prop)
    (initially : ∀ s, start s → holds s) (preserved : ∀ s t, holds s → step s t → holds t)
    (s : State) (reached : Reached start step s) : holds s := by
  induction reached with
  | start s initial => exact initially s initial
  | step s t _ taken ih => exact preserved s t ih taken

/-- Where every step from a reached state, seen from above, is a step or nothing at
all, the states reached are states reached above. -/
theorem simulates {Above : Type} (start : State → Prop) (step : State → State → Prop)
    (start' : Above → Prop) (step' : Above → Above → Prop) (seen : State → Above)
    (initially : ∀ s, start s → start' (seen s))
    (follows : ∀ s t, Reached start step s → step s t → step' (seen s) (seen t) ∨ seen t = seen s)
    (s : State) (reached : Reached start step s) : Reached start' step' (seen s) := by
  induction reached with
  | start s initial => exact .start _ (initially s initial)
  | step s t before taken ih =>
      rcases follows s t before taken with moved | stayed
      · exact .step _ _ ih moved
      · rw [stayed]
        exact ih

end BinderRpc.Runs
