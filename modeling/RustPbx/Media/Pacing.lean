import Mathlib.Data.Nat.Basic

/-!
Pacing of the egress task: a deadline paces the ticks, and after a stall the next ticks come at
once, but only a few of them.
-/

namespace RustPbx.Media

open List

def maxCatchupFrames : Nat := 5

structure Pacing where
  nextDeadline : Nat
  catchupFrames : Nat

namespace Pacing

def advancePacing (p : Pacing) (now ptime : Nat) : Option Nat × Pacing :=
  let nextDeadline := p.nextDeadline + ptime
  if nextDeadline ≤ now then
    let catchupFrames := p.catchupFrames + 1
    if catchupFrames > maxCatchupFrames then (some (now - nextDeadline), ⟨now + ptime, 0⟩)
    else (none, ⟨nextDeadline, catchupFrames⟩)
  else (none, ⟨nextDeadline, 0⟩)

def run (ptime : Nat) (p : Pacing) (wakes : List Nat) : Pacing :=
  wakes.foldl (fun p now => (p.advancePacing now ptime).2) p

/-- The task does not wake before the deadline. -/
def Wakes (ptime : Nat) : Pacing → List Nat → Prop
  | _, [] => True
  | p, now :: wakes => p.nextDeadline ≤ now ∧ Wakes ptime (p.advancePacing now ptime).2 wakes

theorem advancePacing_cases (p : Pacing) (now ptime : Nat) (hptime : 0 < ptime) :
    p.nextDeadline + ptime ≤ (p.advancePacing now ptime).2.nextDeadline ∧
      ((p.advancePacing now ptime).2.catchupFrames = p.catchupFrames + 1 ∧
          p.catchupFrames < maxCatchupFrames ∨ (p.advancePacing now ptime).2.catchupFrames = 0 ∧
          now < (p.advancePacing now ptime).2.nextDeadline) := by
  unfold advancePacing
  dsimp only
  split_ifs with hlate hmany
  · exact ⟨by dsimp only; omega, .inr ⟨rfl, by dsimp only; omega⟩⟩
  · exact ⟨le_rfl, .inl ⟨rfl, by omega⟩⟩
  · exact ⟨le_rfl, .inr ⟨rfl, by simpa using hlate⟩⟩

theorem le_nextDeadline_run (hptime : 0 < ptime) (p : Pacing) (wakes : List Nat) :
    p.nextDeadline + wakes.length * ptime ≤ (p.run ptime wakes).nextDeadline := by
  induction wakes generalizing p with
  | nil => simp [run]
  | cons now wakes ih =>
    have hadvance := (p.advancePacing_cases now ptime hptime).1
    have hrest := ih (p.advancePacing now ptime).2
    rw [length_cons, Nat.succ_mul]
    change _ ≤ ((p.advancePacing now ptime).2.run ptime wakes).nextDeadline
    omega

theorem Wakes.countP_mul_le (h : Wakes ptime p wakes) (hptime : 0 < ptime) :
    wakes.countP (· ≤ b) * ptime ≤ b + ptime - p.nextDeadline := by
  induction wakes generalizing p with
  | nil => simp
  | cons now wakes ih =>
    obtain ⟨hnow, h⟩ := h
    have hadvance := (p.advancePacing_cases now ptime hptime).1
    have hrest := ih h
    rw [countP_cons, Nat.add_mul]
    split_ifs with hle
    · have hle : now ≤ b := of_decide_eq_true hle
      omega
    · omega

theorem Wakes.countP_mul_lt (h : Wakes ptime p wakes) (hptime : 0 < ptime)
    (hcatchup : p.catchupFrames ≤ maxCatchupFrames) (hafter : ∀ now ∈ wakes, a ≤ now) :
    (wakes.countP (· ≤ b) + p.catchupFrames) * ptime < 7 * ptime + (b - a) := by
  have hmul : p.catchupFrames * ptime ≤ 5 * ptime := Nat.mul_le_mul_right _ hcatchup
  induction wakes generalizing p with
  | nil =>
    rw [countP_nil, Nat.zero_add]
    omega
  | cons now wakes ih =>
    obtain ⟨hnow, h⟩ := h
    have hfirst := hafter now (.head _)
    obtain ⟨-, ⟨hmore, hfew⟩ | ⟨-, hahead⟩⟩ := p.advancePacing_cases now ptime hptime
    · have hfew : (p.advancePacing now ptime).2.catchupFrames ≤ 5 := hmore ▸ hfew
      have hrest := ih h hfew (fun w hw => hafter w (.tail _ hw)) (Nat.mul_le_mul_right _ hfew)
      refine lt_of_le_of_lt (Nat.mul_le_mul_right _ ?_) hrest
      rw [countP_cons]
      split_ifs <;> omega
    · have hrest := h.countP_mul_le (b := b) hptime
      rw [countP_cons, Nat.add_mul, Nat.add_mul]
      split_ifs <;> omega

theorem Wakes.window (h : Wakes ptime p wakes) (hptime : 0 < ptime)
    (hcatchup : p.catchupFrames ≤ maxCatchupFrames) (hsorted : wakes.Pairwise (· ≤ ·)) :
    wakes.countP (fun now => a ≤ now ∧ now ≤ b) * ptime < 7 * ptime + (b - a) := by
  induction wakes generalizing p with
  | nil =>
    rw [countP_nil]
    omega
  | cons now wakes ih =>
    obtain ⟨hfirst, hrest⟩ := pairwise_cons.mp hsorted
    by_cases hnow : a ≤ now
    · have hafter := forall_mem_cons.mpr ⟨hnow, fun w hw => Nat.le_trans hnow (hfirst w hw)⟩
      have hcount := h.countP_mul_lt (b := b) hptime hcatchup hafter
      refine lt_of_le_of_lt (Nat.mul_le_mul_right _ ?_) hcount
      exact Nat.le_add_right_of_le (countP_mono_left fun w _ hw => by simp_all)
    · rw [countP_cons_of_neg (by simp [hnow])]
      refine ih h.2 ?_ hrest
      obtain ⟨-, ⟨hmore, hfew⟩ | ⟨hnone, -⟩⟩ := p.advancePacing_cases now ptime hptime <;> omega

/-- **Pacing is bounded** over every sequence of wake-ups. -/
theorem pacing_bounded (ptime start : Nat) (wakes : List Nat) (hptime : 0 < ptime)
    (hsorted : wakes.Pairwise (· ≤ ·)) (hwakes : Wakes ptime ⟨start, 0⟩ wakes) :
    (∀ a d, wakes.countP (fun now => a ≤ now ∧ now ≤ a + d) * ptime < 7 * ptime + d) ∧
      start + wakes.length * ptime ≤ (run ptime ⟨start, 0⟩ wakes).nextDeadline := by
  refine ⟨fun a d => ?_, le_nextDeadline_run hptime ⟨start, 0⟩ wakes⟩
  simpa using hwakes.window (a := a) (b := a + d) hptime (Nat.zero_le _) hsorted

/-- After a stall of eight packet times, six frames come at once. -/
theorem pacing_bounded_stalled :
    (∀ a d, [0, 160, 160, 160, 160, 160, 160].countP (fun now => a ≤ now ∧ now ≤ a + d) * 20 <
      7 * 20 + d) ∧ 0 + 7 * 20 ≤ (run 20 ⟨0, 0⟩ [0, 160, 160, 160, 160, 160, 160]).nextDeadline :=
  pacing_bounded 20 0 [0, 160, 160, 160, 160, 160, 160] (by decide) (by decide)
    (by simp [Wakes, advancePacing, maxCatchupFrames])

end Pacing

end RustPbx.Media
