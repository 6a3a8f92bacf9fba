import Mathlib.Data.List.Basic

/-!
Blocks of values that are placed on a line.

A block is a list of values and the position of its first value. `look` reads the line at a
position, `trace` reads a stretch of it with a blank where there is nothing. Blocks that are `Apart`
are in order and do not overlap; `insert_of_end_le` says what is read after a block is put behind
them.
-/

namespace Blocks

open List

/-- The value at a position, in the first block that covers it. -/
def look : List (Nat × List α) → Nat → Option α
  | [], _ => none
  | (k, v) :: rest, p => if k ≤ p ∧ p < k + v.length then v[p - k]? else look rest p

def insert (k : Nat) (v : List α) : List (Nat × List α) → List (Nat × List α)
  | [] => [(k, v)]
  | (k', v') :: rest =>
    if k < k' then (k, v) :: (k', v') :: rest
    else if k = k' then (k, v) :: rest
    else (k', v') :: insert k v rest

/-- The blocks are in order from a position on and do not overlap. -/
def Apart : Nat → List (Nat × List α) → Prop
  | _, [] => True
  | lo, (k, v) :: rest => lo ≤ k ∧ Apart (k + v.length) rest

/-- Where the last block ends. -/
def endOf : Nat → List (Nat × List α) → Nat
  | lo, [] => lo
  | _, (k, v) :: rest => endOf (k + v.length) rest

variable {blocks : List (Nat × List α)} {v : List α}

theorem Apart.le_endOf (h : Apart lo blocks) : lo ≤ endOf lo blocks := by
  induction blocks generalizing lo with
  | nil => exact Nat.le_refl lo
  | cons b rest ih =>
    obtain ⟨hlo, hrest⟩ := h
    have := ih hrest
    change lo ≤ endOf (b.1 + b.2.length) rest
    omega

theorem Apart.look_of_lt (h : Apart lo blocks) (hp : p < lo) : look blocks p = none := by
  induction blocks generalizing lo with
  | nil => rfl
  | cons b rest ih =>
    obtain ⟨hlo, hrest⟩ := h
    rw [look, if_neg (by omega)]
    exact ih hrest (by omega)

theorem Apart.look_of_end_le (h : Apart lo blocks) (hp : endOf lo blocks ≤ p) :
    look blocks p = none := by
  induction blocks generalizing lo with
  | nil => rfl
  | cons b rest ih =>
    have hend := Nat.le_trans h.2.le_endOf hp
    rw [look, if_neg (by omega)]
    exact ih h.2 hp

theorem look_of_uncovered (h : ∀ b ∈ blocks, ¬ (b.1 ≤ p ∧ p < b.1 + b.2.length)) :
    look blocks p = none := by
  induction blocks with
  | nil => rfl
  | cons b rest ih =>
    rw [look, if_neg (h b mem_cons_self)]
    exact ih fun b' hb' => h b' (mem_cons_of_mem b hb')

theorem Apart.look_of_mem (h : Apart lo blocks) (hmem : (k, v) ∈ blocks) (hk : k ≤ p)
    (hp : p < k + v.length) : look blocks p = v[p - k]? := by
  induction blocks generalizing lo with
  | nil => cases hmem
  | cons b rest ih =>
    obtain heq | hmem := mem_cons.mp hmem
    · subst heq
      rw [look, if_pos ⟨hk, hp⟩]
    · have hread := ih h.2 hmem
      by_cases hcovers : b.1 ≤ p ∧ p < b.1 + b.2.length
      · -- The other block begins where this one has ended.
        rw [h.2.look_of_lt hcovers.2, getElem?_eq_getElem (by omega)] at hread
        cases hread
      · rw [look, if_neg hcovers]
        exact hread

theorem look_cons_of_end_le (hp : k + v.length ≤ p) : look ((k, v) :: rest) p = look rest p := by
  rw [look, if_neg (by omega)]

theorem Apart.le_key (h : Apart lo blocks) (hb : b ∈ blocks) : lo ≤ b.1 := by
  induction blocks generalizing lo with
  | nil => cases hb
  | cons c rest ih =>
    obtain rfl | hb := mem_cons.mp hb
    · exact h.1
    · have := ih h.2 hb
      have := h.1
      omega

theorem endOf_eq_getLast? :
    endOf lo blocks = (blocks.getLast?.map fun b => b.1 + b.2.length).getD lo := by
  induction blocks generalizing lo with
  | nil => rfl
  | cons b rest ih =>
    rw [endOf, ih, getLast?_cons]
    cases rest.getLast? with
    | none | some => rfl

/-! ## A block behind the others -/

theorem apart_concat : Apart lo (blocks ++ [(k, v)]) ↔ Apart lo blocks ∧ endOf lo blocks ≤ k := by
  induction blocks generalizing lo with
  | nil => exact ⟨fun h => ⟨trivial, h.1⟩, fun h => ⟨h.2, trivial⟩⟩
  | cons b rest ih =>
    rw [cons_append, Apart, ih, Apart, and_assoc]
    rfl

theorem endOf_concat : endOf lo (blocks ++ [(k, v)]) = k + v.length := by
  induction blocks generalizing lo with
  | nil => rfl
  | cons b rest ih => exact ih

theorem Apart.look_concat (h : Apart lo blocks) (hend : endOf lo blocks ≤ k) :
    look (blocks ++ [(k, v)]) p =
      if k ≤ p ∧ p < k + v.length then v[p - k]? else look blocks p := by
  induction blocks generalizing lo with
  | nil => rfl
  | cons b rest ih =>
    have hb := Nat.le_trans h.2.le_endOf hend
    rw [cons_append, look, look, ih h.2 hend]
    split
    · rw [if_neg (by omega)]
    · rfl

theorem insert_behind (h : Apart lo blocks) (hkeys : (blocks.map Prod.fst).Pairwise (· < ·))
    (hend : endOf lo blocks ≤ k) : ∃ init, insert k v blocks = init ++ [(k, v)] ∧
      (∀ b ∈ init, b.1 < k) ∧ (blocks = init ∨ blocks = init ++ [(k, [])]) := by
  induction blocks generalizing lo with
  | nil => exact ⟨[], rfl, nofun, .inl rfl⟩
  | cons b rest ih =>
    obtain ⟨k', v'⟩ := b
    rw [map_cons, pairwise_cons] at hkeys
    obtain ⟨hfirst, hkeys⟩ := hkeys
    have hb := Nat.le_trans h.2.le_endOf hend
    rw [insert, if_neg (by omega)]
    by_cases hsame : k = k'
    · subst hsame
      have hempty : v' = [] := eq_nil_of_length_eq_zero (by omega)
      have hlast : rest = [] := by
        cases rest with
        | nil => rfl
        | cons c after =>
          have hc := hfirst c.1 mem_cons_self
          have hcend := Nat.le_trans h.2.2.le_endOf hend
          omega
      subst hempty hlast
      rw [if_pos rfl]
      exact ⟨[], rfl, nofun, .inr rfl⟩
    · obtain ⟨init, hinsert, hbefore, hblocks⟩ := ih h.2 hkeys hend
      rw [if_neg hsame, hinsert]
      refine ⟨(k', v') :: init, rfl, ?_, hblocks.imp (congrArg _) (congrArg _)⟩
      intro b hb'
      obtain rfl | hb' := mem_cons.mp hb'
      · omega
      · exact hbefore b hb'

/-- Blocks with different positions, as a map has them, that are apart. -/
structure Placed (lo : Nat) (blocks : List (Nat × List α)) : Prop where
  apart : Apart lo blocks
  keys : (blocks.map Prod.fst).Pairwise (· < ·)

theorem Placed.insert (h : Placed lo blocks) (hend : endOf lo blocks ≤ k) :
    Placed lo (insert k v blocks) ∧ endOf lo (insert k v blocks) = k + v.length ∧
      ∀ p, look (insert k v blocks) p =
        if k ≤ p ∧ p < k + v.length then v[p - k]? else look blocks p := by
  obtain ⟨init, hinsert, hbefore, hblocks⟩ := insert_behind (v := v) h.apart h.keys hend
  -- The blocks before the new one: without an empty one at its position.
  have hinit : Placed lo init ∧ endOf lo init ≤ k ∧ ∀ p, look blocks p = look init p := by
    obtain rfl | rfl := hblocks
    · exact ⟨h, hend, fun _ => rfl⟩
    · obtain ⟨hapart, hle⟩ := apart_concat.mp h.apart
      have hkeys := h.keys
      rw [map_append] at hkeys
      refine ⟨⟨hapart, (pairwise_append.mp hkeys).1⟩, hle, fun p => ?_⟩
      rw [hapart.look_concat hle, if_neg]
      rw [length_nil]
      omega
  obtain ⟨hplaced, hle, hlook⟩ := hinit
  rw [hinsert]
  refine ⟨⟨apart_concat.mpr ⟨hplaced.apart, hle⟩, ?_⟩, endOf_concat, fun p => ?_⟩
  · rw [map_append, pairwise_append]
    refine ⟨hplaced.keys, pairwise_singleton _ _, fun a ha b hb => ?_⟩
    obtain ⟨block, hblock, rfl⟩ := mem_map.mp ha
    cases mem_singleton.mp hb
    exact hbefore block hblock
  · rw [hplaced.apart.look_concat hle, hlook p]

theorem Placed.tail (h : Placed lo ((k, v) :: rest)) : Placed (k + v.length) rest := by
  have hkeys := h.keys
  rw [map_cons, pairwise_cons] at hkeys
  exact ⟨h.apart.2, hkeys.2⟩

theorem Placed.cut (h : Placed lo ((k, v) :: rest)) (hmid : k < mid) (hend : mid < k + v.length) :
    Placed mid ((mid, v.drop (mid - k)) :: rest) ∧
      endOf mid ((mid, v.drop (mid - k)) :: rest) = endOf lo ((k, v) :: rest) ∧
      ∀ p, mid ≤ p → look ((mid, v.drop (mid - k)) :: rest) p = look ((k, v) :: rest) p := by
  have hlen : mid + (v.drop (mid - k)).length = k + v.length := by
    rw [length_drop]
    omega
  refine ⟨⟨⟨Nat.le_refl mid, ?_⟩, ?_⟩, ?_, fun p hp => ?_⟩
  · rw [hlen]
    exact h.apart.2
  · rw [map_cons, pairwise_cons]
    refine ⟨fun key hkey => ?_, h.tail.keys⟩
    obtain ⟨b, hb, rfl⟩ := mem_map.mp hkey
    exact Nat.lt_of_lt_of_le hend (h.apart.2.le_key hb)
  · rw [endOf, endOf, hlen]
  · rw [look, look, hlen]
    by_cases hcovers : p < k + v.length
    · rw [if_pos ⟨hp, hcovers⟩, if_pos ⟨by omega, hcovers⟩, getElem?_drop]
      congr 1
      omega
    · rw [if_neg (by omega), if_neg (by omega)]

theorem insert_of_lt (h : Apart lo blocks) (hk : k < lo) :
    insert k v blocks = (k, v) :: blocks := by
  cases blocks with
  | nil => rfl
  | cons b rest =>
    have := h.1
    rw [insert, if_pos (by omega)]

/-- What stands between two positions, with a blank where there is nothing. -/
def trace (blank : α) (f : Nat → Option α) (lo hi : Nat) : List α :=
  (range' lo (hi - lo)).map fun p => (f p).getD blank

@[simp] theorem length_trace : (trace blank f lo hi).length = hi - lo := by
  rw [trace, length_map, length_range']

theorem trace_append (hlo : lo ≤ mid) (hhi : mid ≤ hi) :
    trace blank f lo mid ++ trace blank f mid hi = trace blank f lo hi := by
  obtain ⟨m, rfl⟩ := Nat.exists_eq_add_of_le hlo
  obtain ⟨n, rfl⟩ := Nat.exists_eq_add_of_le hhi
  have hlen : lo + m + n - lo = m + n := by omega
  rw [trace, trace, trace, ← map_append, Nat.add_sub_cancel_left, Nat.add_sub_cancel_left,
    hlen, ← range'_append_1]

theorem trace_congr (h : ∀ p, lo ≤ p → p < hi → f p = g p) :
    trace blank f lo hi = trace blank g lo hi := by
  apply map_congr_left
  intro p hp
  obtain ⟨hlo, hhi⟩ := mem_range'_1.mp hp
  rw [h p hlo (by omega)]

theorem trace_blank (h : ∀ p, lo ≤ p → p < hi → f p = none) :
    trace blank f lo hi = replicate (hi - lo) blank := by
  rw [trace_congr h, trace, map_const', length_range']
  rfl

theorem trace_block (h : ∀ p, k ≤ p → p < hi → f p = v[p - k]?) (hhi : hi ≤ k + v.length) :
    trace blank f k hi = v.take (hi - k) := by
  apply ext_getElem?
  intro i
  rw [trace, getElem?_map]
  by_cases hi' : i < hi - k
  · rw [getElem?_range' (by omega), getElem?_take_of_lt hi', Option.map_some,
      h _ (by omega) (by omega), Nat.one_mul, Nat.add_sub_cancel_left,
      getElem?_eq_getElem (by omega)]
    rfl
  · rw [getElem?_eq_none (by rw [length_range']; omega),
      getElem?_eq_none (by rw [length_take]; omega)]
    rfl

theorem getElem?_trace (h : i < hi - lo) :
    (trace blank f lo hi)[i]? = some ((f (lo + i)).getD blank) := by
  rw [trace, getElem?_map, getElem?_range' (by omega), Nat.one_mul]
  rfl

end Blocks
