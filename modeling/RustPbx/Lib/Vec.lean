import Mathlib.Data.List.Perm.Basic

/-!
Operations on vectors that lists do not have: removal that moves the last element into the gap, a
change of the first element with a property, and two vectors in turns.
-/

namespace Vec

open List

def swapRemove (l : List α) (i : Nat) : List α :=
  match l.getLast? with
  | some last => (l.set i last).dropLast
  | none => []

variable {f : α → α}

theorem swapRemove_perm (h : i < l.length) :
    (swapRemove l i).Perm (l.eraseIdx i) := by
  obtain rfl | ⟨init, last, rfl⟩ := eq_nil_or_concat l
  · cases h
  · have hlast : (init ++ [last]).getLast? = some last := getLast?_concat
    rw [concat_eq_append] at h ⊢
    rw [swapRemove, hlast]
    dsimp only
    rw [length_append, length_singleton] at h
    by_cases hi : i < init.length
    · rw [set_append_left _ _ hi, dropLast_concat, eraseIdx_append_of_lt_length hi]
      exact (set_perm_cons_eraseIdx hi last).trans (perm_append_singleton _ _).symm
    · have heq : i = init.length := by omega
      subst heq
      rw [set_append_right _ _ (Nat.le_refl _),
        eraseIdx_append_of_length_le (Nat.le_refl _),
        Nat.sub_self]
      simp

def updateFirst (p : α → Bool) (f : α → α) : List α → List α
  | [] => []
  | x :: xs => if p x then f x :: xs else x :: updateFirst p f xs

theorem map_updateFirst (h : ∀ x, g (f x) = g x) :
    (updateFirst p f l).map g = l.map g := by
  induction l with
  | nil => rfl
  | cons x xs ih =>
    unfold updateFirst
    split
    · rw [map_cons, map_cons, h]
    · rw [map_cons, map_cons, ih]

theorem mem_of_mem_updateFirst (h : y ∈ updateFirst p f l) :
    y ∈ l ∨ ∃ x ∈ l, p x = true ∧ y = f x := by
  induction l with
  | nil => cases h
  | cons x xs ih =>
    unfold updateFirst at h
    split at h
    next hp =>
      rcases mem_cons.mp h with rfl | h
      · exact .inr ⟨x, mem_cons_self, hp, rfl⟩
      · exact .inl (mem_cons_of_mem _ h)
    · rcases mem_cons.mp h with rfl | h
      · exact .inl mem_cons_self
      · obtain h | ⟨x', hx', hp', rfl⟩ := ih h
        · exact .inl (mem_cons_of_mem _ h)
        · exact .inr ⟨x', mem_cons_of_mem _ hx', hp', rfl⟩

theorem mem_updateFirst (hx : x ∈ l) (hp : p x = true) (honly : ∀ y ∈ l, p y = true → y = x) :
    f x ∈ updateFirst p f l := by
  induction l with
  | nil => cases hx
  | cons y ys ih =>
    unfold updateFirst
    split
    next hy =>
      rw [honly y mem_cons_self hy]
      exact mem_cons_self
    next hy =>
      rcases mem_cons.mp hx with rfl | hx
      · exact absurd hp hy
      · exact mem_cons_of_mem _ (ih hx fun z hz => honly z (mem_cons_of_mem _ hz))

def interleave : List α → List α → List α
  | x :: xs, y :: ys => x :: y :: interleave xs ys
  | _, _ => []

def left : List α → List α
  | x :: _ :: rest => x :: left rest
  | _ => []

def right : List α → List α
  | _ :: y :: rest => y :: right rest
  | _ => []

theorem left_interleave (h : xs.length = ys.length) : left (interleave xs ys) = xs := by
  induction xs generalizing ys with
  | nil => rfl
  | cons x xs ih =>
    cases ys with
    | nil => cases h
    | cons y ys => exact congrArg (x :: ·) (ih (Nat.succ.inj h))

theorem right_interleave (h : xs.length = ys.length) : right (interleave xs ys) = ys := by
  induction xs generalizing ys with
  | nil =>
    cases ys with
    | nil => rfl
    | cons y ys => cases h
  | cons x xs ih =>
    cases ys with
    | nil => cases h
    | cons y ys => exact congrArg (y :: ·) (ih (Nat.succ.inj h))

theorem interleave_append (h : xs.length = ys.length) :
    interleave (xs ++ xs') (ys ++ ys') = interleave xs ys ++ interleave xs' ys' := by
  induction xs generalizing ys with
  | nil =>
    cases ys with
    | nil => rfl
    | cons y ys => cases h
  | cons x xs ih =>
    cases ys with
    | nil => cases h
    | cons y ys => exact congrArg (x :: y :: ·) (ih (Nat.succ.inj h))

end Vec
