import Mathlib.Algebra.BigOperators.Group.List.Basic
import Mathlib.Algebra.Order.Ring.Int

/-!
Sums that are cut off at both ends after each addition.

`above` and `below` are what the numbers above and below zero sum up to. A cut sum is the cut of the
true sum in every order of the numbers exactly when they fit or are all on one side (`Orderless`,
`foldl_add_of_orderless`, `orderless_of_two_orders`).
-/

namespace Saturating

open List

def clamp (lo hi x : Int) : Int := max lo (min hi x)

def add (lo hi total x : Int) : Int := clamp lo hi (total + x)

def above (xs : List Int) : Int := (xs.map (max 0)).sum

def below (xs : List Int) : Int := (xs.map (min 0)).sum

def Orderless (lo hi : Int) (xs : List Int) : Prop :=
  (above xs ≤ hi ∧ lo ≤ below xs) ∨ above xs = 0 ∨ below xs = 0

instance : Decidable (Orderless lo hi xs) := inferInstanceAs (Decidable (_ ∨ _))

@[simp] theorem above_cons : above (x :: xs) = max 0 x + above xs := rfl

@[simp] theorem below_cons : below (x :: xs) = min 0 x + below xs := rfl

theorem above_nonneg (xs : List Int) : 0 ≤ above xs := by
  induction xs with
  | nil => exact Int.le_refl 0
  | cons x xs ih =>
    rw [above_cons]
    omega

theorem below_nonpos (xs : List Int) : below xs ≤ 0 := by
  induction xs with
  | nil => exact Int.le_refl 0
  | cons x xs ih =>
    rw [below_cons]
    omega

theorem above_eq_zero (h : ∀ x ∈ xs, x ≤ 0) : above xs = 0 := by
  induction xs with
  | nil => rfl
  | cons x xs ih =>
    rw [above_cons, ih fun y hy => h y (.tail _ hy), max_eq_left (h x (.head _)), Int.add_zero]

theorem below_eq_zero (h : ∀ x ∈ xs, 0 ≤ x) : below xs = 0 := by
  induction xs with
  | nil => rfl
  | cons x xs ih =>
    rw [below_cons, ih fun y hy => h y (.tail _ hy), min_eq_left (h x (.head _)), Int.add_zero]

theorem sum_eq (xs : List Int) : xs.sum = above xs + below xs := by
  induction xs with
  | nil => rfl
  | cons x xs ih =>
    rw [sum_cons, above_cons, below_cons, ih]
    omega

theorem Orderless.perm (h : Orderless lo hi xs) (hperm : ys.Perm xs) : Orderless lo hi ys := by
  have habove : above ys = above xs := (hperm.map _).sum_eq
  have hbelow : below ys = below xs := (hperm.map _).sum_eq
  rwa [Orderless, habove, hbelow]

section

variable {lo hi total : Int} (hlo : lo ≤ total) (hhi : total ≤ hi)

include hlo hhi

theorem foldl_add_of_fits (habove : total + above xs ≤ hi) (hbelow : lo ≤ total + below xs) :
    xs.foldl (add lo hi) total = total + xs.sum := by
  induction xs generalizing total with
  | nil => simp
  | cons x xs ih =>
    rw [above_cons] at habove
    rw [below_cons] at hbelow
    have := above_nonneg xs
    have := below_nonpos xs
    have hadd : add lo hi total x = total + x := by
      rw [add, clamp]
      omega
    rw [foldl_cons, hadd, ih (by omega) (by omega) (by omega) (by omega), sum_cons]
    omega

theorem foldl_add_of_below (h : above xs = 0) :
    xs.foldl (add lo hi) total = max lo (total + below xs) := by
  induction xs generalizing total with
  | nil => simp [below, hlo]
  | cons x xs ih =>
    rw [above_cons] at h
    have := above_nonneg xs
    have := below_nonpos xs
    rw [foldl_cons, ih (by rw [add, clamp]; omega) (by rw [add, clamp]; omega) (by omega), add,
      clamp, below_cons]
    omega

theorem foldl_add_of_above (h : below xs = 0) :
    xs.foldl (add lo hi) total = min hi (total + above xs) := by
  induction xs generalizing total with
  | nil => simp [above, hhi]
  | cons x xs ih =>
    rw [below_cons] at h
    have := above_nonneg xs
    have := below_nonpos xs
    rw [foldl_cons, ih (by rw [add, clamp]; omega) (by rw [add, clamp]; omega) (by omega), add,
      clamp, above_cons]
    omega

end

section

variable {lo hi : Int} (hlo : lo ≤ 0) (hhi : 0 ≤ hi)

include hlo hhi

theorem clamp_foldl_add (xs : List Int) :
    clamp lo hi (xs.foldl (add lo hi) 0) = xs.foldl (add lo hi) 0 := by
  refine xs.foldlRecOn (motive := fun total => clamp lo hi total = total) _ ?_ fun total _ x _ => ?_
  · rw [clamp]
    omega
  · rw [add, clamp, clamp]
    omega

theorem foldl_add_of_orderless (h : Orderless lo hi xs) :
    xs.foldl (add lo hi) 0 = clamp lo hi xs.sum := by
  have := above_nonneg xs
  have := below_nonpos xs
  rw [sum_eq, clamp]
  obtain ⟨habove, hbelow⟩ | h | h := h
  · rw [foldl_add_of_fits hlo hhi (by omega) (by omega), sum_eq]
    omega
  · rw [foldl_add_of_below hlo hhi h]
    omega
  · rw [foldl_add_of_above hlo hhi h]
    omega

/-- If the cut sum is right with the numbers above zero first and with them last, then it is right
in every order. -/
theorem orderless_of_two_orders (hlt : lo < hi) (hp : below ps = 0) (hn : above ns = 0)
    (hfirst : (ps ++ ns).foldl (add lo hi) 0 = clamp lo hi (ps ++ ns).sum)
    (hlast : (ns ++ ps).foldl (add lo hi) 0 = clamp lo hi (ns ++ ps).sum) :
    Orderless lo hi (ps ++ ns) := by
  have habove : above (ps ++ ns) = above ps := by
    rw [above, map_append, sum_append]
    exact (congrArg (_ + ·) hn).trans (Int.add_zero _)
  have hbelow : below (ps ++ ns) = below ns := by
    rw [below, map_append, sum_append]
    exact (congrArg (· + _) hp).trans (Int.zero_add _)
  have := above_nonneg ps
  have := below_nonpos ns
  rw [foldl_append, foldl_add_of_above hlo hhi hp, foldl_add_of_below (by omega) (by omega) hn,
    sum_append, sum_eq ps, sum_eq ns, hp, hn, clamp] at hfirst
  rw [foldl_append, foldl_add_of_below hlo hhi hn, foldl_add_of_above (by omega) (by omega) hp,
    sum_append, sum_eq ps, sum_eq ns, hp, hn, clamp] at hlast
  rw [Orderless, habove, hbelow]
  omega

end

end Saturating
