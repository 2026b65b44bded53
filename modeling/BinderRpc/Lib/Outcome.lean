import Mathlib.Tactic.Common

/-! Peeling apart computations that may fail. -/

namespace BinderRpc.Outcome

variable {ε α β : Type}

theorem bind_eq_ok (first : Except ε α) (next : α → Except ε β) (result : β) :
    (first >>= next) = .ok result ↔ ∃ value, first = .ok value ∧ next value = .ok result := by
  cases first with
  | error fault => simp [bind, Except.bind]
  | ok value => simp [bind, Except.bind]

theorem map_eq_ok (first : Except ε α) (change : α → β) (result : β) :
    first.map change = .ok result ↔ ∃ value, first = .ok value ∧ change value = result := by
  cases first with
  | error fault => simp [Except.map]
  | ok value => simp [Except.map]

@[simp] theorem ok_bind (value : α) (next : α → Except ε β) :
    ((Except.ok value : Except ε α) >>= next) = next value := rfl

@[simp] theorem error_bind (fault : ε) (next : α → Except ε β) :
    ((Except.error fault : Except ε α) >>= next) = .error fault := rfl

theorem map_bind (first : Except ε α) (next : α → Except ε β) {γ : Type} (change : β → γ) :
    (first >>= next).map change = first >>= fun value => (next value).map change := by
  cases first <;> rfl

theorem bind_congr (first : Except ε α) (next other : α → Except ε β)
    (same : ∀ value, first = .ok value → next value = other value) :
    (first >>= next) = first >>= other := by
  cases first with
  | error fault => rfl
  | ok value => exact same value rfl

def Finishes (outcome : Except ε α) : Prop := ∃ value, outcome = .ok value

@[simp] theorem finishes_ok (value : α) : Finishes (Except.ok value : Except ε α) := ⟨value, rfl⟩

@[simp] theorem finishes_pure (value : α) : Finishes (pure value : Except ε α) := ⟨value, rfl⟩

@[simp] theorem not_finishes_error (fault : ε) : ¬ Finishes (Except.error fault : Except ε α) := by
  rintro ⟨value, same⟩
  cases same

theorem finishes_bind (first : Except ε α) (next : α → Except ε β) :
    Finishes (first >>= next) ↔ ∃ value, first = .ok value ∧ Finishes (next value) := by
  cases first with
  | error fault => simp
  | ok value => simp

theorem finishes_bind_pure (first : Except ε α) (change : α → β) :
    Finishes (first >>= fun value => pure (change value)) ↔ Finishes first := by
  rw [finishes_bind]
  constructor
  · rintro ⟨value, run, _⟩
    exact ⟨value, run⟩
  · rintro ⟨value, run⟩
    exact ⟨value, run, finishes_pure _⟩

@[simp] theorem finishes_map (first : Except ε α) (change : α → β) :
    Finishes (first.map change) ↔ Finishes first := by
  cases first with
  | error fault => simp [Except.map]
  | ok value => simp [Except.map]

end BinderRpc.Outcome
