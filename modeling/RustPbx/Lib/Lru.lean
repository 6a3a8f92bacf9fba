import Mathlib.Data.List.Nodup

/-!
A cache that keeps the most recently used entries.

What a cache does is known by its laws (`Lru.Impl`): it holds nothing but what was put into it, and
as long as there is room it forgets nothing. `Impl.recency` keeps the entries in the order of their
last use.
-/

namespace Lru

/-- What a cache holds: at most `capacity` entries, of different keys. -/
structure Content (κ ν : Type) where
  entries : List (κ × ν)
  capacity : Nat
  pos : 0 < capacity
  bounded : entries.length ≤ capacity
  nodup : (entries.map Prod.fst).Nodup

namespace Content

open List

variable [DecidableEq κ] (c : Content κ ν)

def find? (k : κ) : Option ν :=
  (c.entries.find? fun e => e.1 = k).map Prod.snd

def others (k : κ) : List (κ × ν) :=
  c.entries.filter fun e => e.1 ≠ k

theorem not_mem_others : k ∉ (c.others k).map Prod.fst := by
  simp [others]

theorem nodup_others : ((c.others k).map Prod.fst).Nodup :=
  c.nodup.sublist (filter_sublist.map _)

variable {c}

theorem mem_of_find? (h : c.find? k = some v) : (k, v) ∈ c.entries := by
  obtain ⟨⟨k', v'⟩, hfind, rfl⟩ := Option.map_eq_some_iff.mp h
  obtain rfl : k' = k := by simpa using find?_some hfind
  exact mem_of_find?_eq_some hfind

/-- Keep an entry as the most recently used one; the least recently used one may have to go. -/
def push (c : Content κ ν) (k : κ) (v : ν) : Content κ ν where
  entries := (k, v) :: (c.others k).take (c.capacity - 1)
  capacity := c.capacity
  pos := c.pos
  bounded := by
    have := c.pos
    simp only [length_cons, length_take]
    omega
  nodup := by
    rw [map_cons, nodup_cons, map_take]
    exact ⟨fun h => c.not_mem_others (mem_of_mem_take h),
      c.nodup_others.sublist (take_sublist _ _)⟩

theorem mem_push (h : e ∈ (c.push k v).entries) : e = (k, v) ∨ e ∈ c.entries := by
  rcases mem_cons.mp h with rfl | h
  · exact .inl rfl
  · exact .inr (mem_filter.mp (mem_of_mem_take h)).1

theorem find?_push (hroom : (c.others k).length < c.capacity) :
    (c.push k v).find? k' = if k' = k then some v else c.find? k' := by
  change (List.find? _ ((k, v) :: (c.others k).take (c.capacity - 1))).map _ = _
  rw [take_of_length_le (Nat.le_sub_one_of_lt hroom)]
  split
  next heq => simp [heq]
  next hne =>
    rw [find?_cons_of_neg (by simpa using Ne.symm hne), others, find?_filter]
    congr 2
    grind

theorem mem_push_of_find? (hkv : c.find? k = some v) :
    e ∈ (c.push k v).entries ↔ e ∈ c.entries := by
  have hkv := mem_of_find? hkv
  refine ⟨fun h => (mem_push h).elim (fun heq => heq ▸ hkv) id, fun h => ?_⟩
  by_cases hk : e.1 = k
  · rw [inj_on_of_nodup_map c.nodup h hkv hk]
    exact mem_cons_self
  · have hlt : (c.others k).length < c.entries.length :=
      length_filter_lt_length_iff_exists.mpr ⟨_, hkv, by simp⟩
    have := c.bounded
    refine mem_cons_of_mem _ ?_
    rw [take_of_length_le (by omega)]
    exact mem_filter.mpr ⟨h, by simpa using hk⟩

end Content

/-- The operations of a cache, with their laws. -/
structure Impl (κ ν : Type) [DecidableEq κ] where
  put : Content κ ν → κ → ν → Content κ ν
  get : Content κ ν → κ → Option ν × Content κ ν
  mem_put : ∀ {c k v e}, e ∈ (put c k v).entries → e = (k, v) ∨ e ∈ c.entries
  find?_put : ∀ {c k v k'}, (c.others k).length < c.capacity →
    (put c k v).find? k' = if k' = k then some v else c.find? k'
  capacity_put : ∀ c k v, (put c k v).capacity = c.capacity
  get_fst : ∀ c k, (get c k).1 = c.find? k
  mem_get : ∀ {c k e}, e ∈ (get c k).2.entries ↔ e ∈ c.entries

def Impl.recency [DecidableEq κ] : Impl κ ν where
  put := Content.push
  get c k := (c.find? k, ((c.find? k).map (c.push k)).getD c)
  mem_put := Content.mem_push
  find?_put := Content.find?_push
  capacity_put _ _ _ := rfl
  get_fst _ _ := rfl
  mem_get {c k e} := by
    cases hfind : c.find? k with
    | none => exact Iff.rfl
    | some v => exact Content.mem_push_of_find? hfind

end Lru

/-- A cache and the implementation that it is one of. -/
structure Lru (κ ν : Type) [DecidableEq κ] extends Lru.Content κ ν where
  impl : Lru.Impl κ ν

namespace Lru

variable [DecidableEq κ]

def empty (impl : Impl κ ν) (capacity : Nat) (pos : 0 < capacity) : Lru κ ν :=
  ⟨⟨[], capacity, pos, Nat.zero_le _, List.nodup_nil⟩, impl⟩

def put (c : Lru κ ν) (k : κ) (v : ν) : Lru κ ν :=
  { c.impl.put c.toContent k v with impl := c.impl }

def get (c : Lru κ ν) (k : κ) : Option ν × Lru κ ν :=
  let r := c.impl.get c.toContent k
  (r.1, { r.2 with impl := c.impl })

variable {c : Lru κ ν}

theorem mem_put (h : e ∈ (c.put k v).entries) : e = (k, v) ∨ e ∈ c.entries :=
  c.impl.mem_put h

theorem mem_get : e ∈ (c.get k).2.entries ↔ e ∈ c.entries :=
  c.impl.mem_get

theorem get_fst (c : Lru κ ν) (k : κ) : (c.get k).1 = c.find? k :=
  c.impl.get_fst ..

end Lru
