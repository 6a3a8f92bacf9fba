import Mathlib.Data.List.Basic

/-!
Histories, as lists that grow at the end, and what holds of each event after the events before it.
-/

namespace History

/-- Every event has a property after the events before it. -/
def Each (P : List α → α → Prop) (history : List α) : Prop :=
  ∀ before event after, history = before ++ event :: after → P before event

theorem split_append (h : history ++ [event] = before ++ event' :: after) :
    (∃ after', history = before ++ event' :: after') ∨ (before = history ∧ event' = event) := by
  rcases List.eq_nil_or_concat after with rfl | ⟨after', last, rfl⟩
  · obtain ⟨rfl, rfl⟩ := List.append_singleton_inj.mp h
    exact .inr ⟨rfl, rfl⟩
  · rw [List.concat_eq_append, ← List.cons_append, ← List.append_assoc] at h
    obtain ⟨rfl, -⟩ := List.append_singleton_inj.mp h
    exact .inl ⟨after', rfl⟩

theorem Each.nil : Each P [] := fun before _ _ h =>
  absurd h.symm (List.append_ne_nil_of_right_ne_nil before (List.cons_ne_nil _ _))

theorem Each.append (h : Each P history) (hevent : P history event) :
    Each P (history ++ [event]) := by
  intro before event' after hsplit
  rcases split_append hsplit with ⟨after', hsplit⟩ | ⟨rfl, rfl⟩
  · exact h before event' after' hsplit
  · exact hevent

end History
