import Mathlib.Logic.Relation

/-!
Machines that take steps on actions, some of which they cannot take, and their runs.
-/

namespace Machine

variable {s' : σ}

/-- The state after some actions, if they can all be taken. -/
def steps (step : σ → α → Option σ) (s : σ) (actions : List α) : Option σ :=
  actions.foldlM step s

/-- The runs whose steps meet a condition. -/
def Runs (step : σ → α → Option σ) (P : σ → α → Prop) : σ → σ → Prop :=
  Relation.ReflTransGen fun s s' => ∃ action, P s action ∧ step s action = some s'

/-- The machine that takes only the steps that meet a condition. -/
def checked (step : σ → α → Option σ) (P : σ → α → Prop) [∀ s action, Decidable (P s action)]
    (s : σ) (action : α) : Option σ :=
  if P s action then step s action else none

theorem steps_cons : steps step s (action :: actions) = some s' ↔
      ∃ s₁, step s action = some s₁ ∧ steps step s₁ actions = some s' :=
  Option.bind_eq_some_iff

namespace Runs

theorem next (hrun : Runs step P start s) (h : step s action = some s') (hP : P s action) :
    Runs step P start s' :=
  hrun.tail ⟨action, hP, h⟩

theorem steps (hrun : Runs step P start s) (h : steps step s actions = some s')
    (hP : ∀ action ∈ actions, ∀ s, P s action) :
    Runs step P start s' := by
  induction actions generalizing s with
  | nil =>
    cases h
    exact hrun
  | cons action actions ih =>
    obtain ⟨s₁, hstep, h⟩ := steps_cons.mp h
    have hfirst : P s action := hP action List.mem_cons_self s
    exact ih (hrun.next hstep hfirst) h fun action' hmem =>
      hP action' (List.mem_cons_of_mem _ hmem)

theorem of_checked [∀ s action, Decidable (P s action)] (hrun : Runs step P start s)
    (h : Machine.steps (checked step P) s actions = some s') :
    Runs step P start s' := by
  induction actions generalizing s with
  | nil =>
    cases h
    exact hrun
  | cons action actions ih =>
    obtain ⟨s₁, hstep, h⟩ := steps_cons.mp h
    rw [checked] at hstep
    split at hstep
    · next hP => exact ih (hrun.next hstep hP) h
    · nomatch hstep

/-- What holds at the start and is kept by every step holds in every state of a run. -/
theorem invariant (hrun : Runs step P start s) (Inv : σ → Prop) (hstart : Inv start)
    (hstep : ∀ s action s', Inv s → P s action → step s action = some s' → Inv s') : Inv s := by
  induction hrun with
  | refl => exact hstart
  | tail _ hlast ih =>
    obtain ⟨action, hP, h⟩ := hlast
    exact hstep _ action _ ih hP h

end Runs

end Machine
