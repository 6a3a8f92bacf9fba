import Mathlib.Algebra.Order.Group.Nat
import Mathlib.Data.List.Count

/-!
The generic cell rate algorithm.

A limiter stores one time, at which it would be idle if the accepted cells came evenly spaced. A
cell conforms if it is not too far ahead of that time. `Accepted` relates the times of the accepted
cells, newest first and in no particular order of time, to the stored one.
-/

namespace CellRate

/-- The time between two cells, and how far a cell may be ahead of its time. -/
structure Rate where
  interval : Nat
  tolerance : Nat
  interval_pos : 0 < interval

variable (rate : Rate)

def Rate.conforms (arrival now : Nat) : Prop :=
  arrival - rate.tolerance ≤ now

def Rate.advance (arrival now : Nat) : Nat :=
  max arrival now + rate.interval

/-- The cells `cells` have been accepted, and `arrival` is stored then. -/
inductive Accepted : List Nat → Nat → Prop where
  | nil : Accepted [] 0
  | cons {cells : List Nat} {arrival now : Nat} (h : Accepted cells arrival)
      (hnow : rate.conforms arrival now) : Accepted (now :: cells) (rate.advance arrival now)

/-- The cells of a closed window. -/
def within (start length : Nat) (cells : List Nat) : Nat :=
  cells.countP fun now => start ≤ now && now ≤ start + length

namespace Accepted

variable {rate : Rate}

theorem spacing (h : Accepted rate cells arrival) (length : Nat)
    (hpos : 0 < within start length cells) :
    start + within start length cells * rate.interval ≤ arrival := by
  induction h with
  | nil => exact absurd hpos (Nat.lt_irrefl 0)
  | @cons cells arrival now h hnow ih =>
    have hadvance : arrival + rate.interval ≤ rate.advance arrival now :=
      Nat.add_le_add_right (Nat.le_max_left _ _) _
    have hadvance' : now + rate.interval ≤ rate.advance arrival now :=
      Nat.add_le_add_right (Nat.le_max_right _ _) _
    rw [within, List.countP_cons] at hpos ⊢
    change 0 < within start length cells + _ at hpos
    change start + (within start length cells + _) * _ ≤ _
    rcases Nat.eq_zero_or_pos (within start length cells) with hzero | hsome
    · rw [hzero] at hpos ⊢
      split at hpos
      next hin =>
        simp only [Bool.and_eq_true, decide_eq_true_eq] at hin
        rw [if_pos (by simpa using hin), Nat.one_mul]
        omega
      · exact absurd hpos (Nat.lt_irrefl 0)
    · split
      · rw [Nat.add_mul]
        omega
      · rw [Nat.add_zero]
        omega

/-- **The bound for a window**: no more cells are accepted in it than fit into its length and the
tolerance, and one. -/
theorem within_le (h : Accepted rate cells arrival) (length : Nat) :
    within start length cells ≤ 1 + (rate.tolerance + length) / rate.interval := by
  induction h with
  | nil => exact Nat.zero_le _
  | @cons cells arrival now h hnow ih =>
    rw [within, List.countP_cons]
    change within start length cells + _ ≤ _
    split
    next hin =>
      simp only [Bool.and_eq_true, decide_eq_true_eq] at hin
      rcases Nat.eq_zero_or_pos (within start length cells) with hzero | hsome
      · rw [hzero]
        exact Nat.le_add_right 1 _
      · have hspace := h.spacing length hsome
        unfold Rate.conforms at hnow
        have hfit : within start length cells * rate.interval ≤ rate.tolerance + length := by
          omega
        have := (Nat.le_div_iff_mul_le rate.interval_pos).mpr hfit
        omega
    · exact ih

theorem arrival_le (h : Accepted rate cells arrival) (hlatest : ∀ now ∈ cells, now ≤ latest) :
    arrival ≤ latest + cells.length * rate.interval := by
  induction h with
  | nil => exact Nat.zero_le _
  | @cons cells arrival now h hnow ih =>
    have hrest := ih fun n hn => hlatest n (List.mem_cons_of_mem _ hn)
    have hhead := hlatest now List.mem_cons_self
    rw [Rate.advance, List.length_cons, Nat.add_mul]
    omega

end Accepted

end CellRate
