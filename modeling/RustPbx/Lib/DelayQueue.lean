import Mathlib.Data.List.AList

/-!
Delay queues: values that become ready at a deadline, under keys that the queue hands out.

A key is a handle of one entry. Handing the queue a key that has no entry any more, or a delay that
it does not accept, is a panic. An entry comes out at its deadline or later, never before it.
-/

namespace DelayQueue

inductive Panic where
  | staleKey
  | invalidDeadline

structure Entry (ν : Type) where
  key : Nat
  value : ν
  due : Nat

end DelayQueue

/-- A delay queue; no two entries share a key. -/
structure DelayQueue (ν : Type) where
  entries : List (DelayQueue.Entry ν)
  nodup : (entries.map (·.key)).Nodup

namespace DelayQueue

def empty : DelayQueue ν := ⟨[], List.nodup_nil⟩

instance : Membership (Entry ν) (DelayQueue ν) := ⟨fun q e => e ∈ q.entries⟩

def keys (q : DelayQueue ν) : List Nat := q.entries.map (·.key)

def drop (key : Nat) (q : DelayQueue ν) : DelayQueue ν where
  entries := q.entries.filter (·.key ≠ key)
  nodup := q.nodup.sublist (List.filter_sublist.map _)

def push (e : Entry ν) (q : DelayQueue ν) (h : e.key ∉ q.keys) : DelayQueue ν where
  entries := e :: q.entries
  nodup := List.nodup_cons.mpr ⟨h, q.nodup⟩

theorem key_notMem_drop (q : DelayQueue ν) : key ∉ (q.drop key).keys := by
  simp [keys, drop]

variable {q : DelayQueue ν}

@[simp] theorem notMem_empty : e ∉ (empty : DelayQueue ν) := List.not_mem_nil

@[simp] theorem mem_drop : e ∈ q.drop key ↔ e ∈ q ∧ e.key ≠ key := by
  change e ∈ (q.drop key).entries ↔ e ∈ q.entries ∧ _
  simp [drop]

@[simp] theorem mem_push : e' ∈ q.push e h ↔ e' = e ∨ e' ∈ q :=
  List.mem_cons

theorem eq_of_key_eq (he : e ∈ q) (he' : e' ∈ q) (h : e.key = e'.key) : e = e' :=
  List.inj_on_of_nodup_map q.nodup he he' h

theorem key_mem_keys (he : e ∈ q) : e.key ∈ q.keys :=
  List.mem_map_of_mem he

theorem find_key (he : e ∈ q) : q.entries.find? (·.key = e.key) = some e := by
  cases h : q.entries.find? (·.key = e.key) with
  | none => exact absurd (List.find?_eq_none.mp h e he) (by simp)
  | some e' =>
    have hkey : e'.key = e.key := by simpa using List.find?_some h
    rw [eq_of_key_eq (List.mem_of_find?_eq_some h) he hkey]

/-- The operations of a queue, with their laws. Inserting gives the key of the new entry. -/
structure Impl (ν : Type) where
  insert : (now : Nat) → ν → (delay : Nat) → DelayQueue ν → Except Panic (Nat × DelayQueue ν)
  reset : (now key delay : Nat) → DelayQueue ν → Except Panic (DelayQueue ν)
  remove : (key : Nat) → DelayQueue ν → Except Panic (DelayQueue ν)
  mem_insert : ∀ {now value delay q key q'}, insert now value delay q = .ok (key, q') →
    ∀ e, e ∈ q' ↔ e = ⟨key, value, now + delay⟩ ∨ e ∈ q
  insert_ne_staleKey : ∀ {now value delay q}, insert now value delay q ≠ .error .staleKey
  mem_reset : ∀ {now delay q e q'}, e ∈ q → reset now e.key delay q = .ok q' →
    ∀ e', e' ∈ q' ↔ e' = { e with due := now + delay } ∨ e' ∈ q ∧ e'.key ≠ e.key
  reset_ne_staleKey : ∀ {now delay q e}, e ∈ q → reset now e.key delay q ≠ .error .staleKey
  remove_ok : ∀ {q e}, e ∈ q → remove e.key q = .ok (q.drop e.key)

/-- A queue that accepts every delay, from a way to find new keys. -/
def Impl.ofKeys (freshKey : List Nat → Nat) (fresh : ∀ keys, freshKey keys ∉ keys) : Impl ν where
  insert now value delay q :=
    .ok (freshKey q.keys, q.push ⟨_, value, now + delay⟩ (fresh q.keys))
  reset now key delay q := ((q.entries.find? (·.key = key)).map fun e =>
    .ok ((q.drop key).push ⟨key, e.value, now + delay⟩ q.key_notMem_drop)).getD (.error .staleKey)
  remove key q := if key ∈ q.keys then .ok (q.drop key) else .error .staleKey
  mem_insert h e := by
    cases h
    exact mem_push
  insert_ne_staleKey := nofun
  mem_reset he h e' := by
    rw [find_key he] at h
    cases h
    rw [mem_push, mem_drop]
  reset_ne_staleKey he := by
    rw [find_key he]
    nofun
  remove_ok he := if_pos (key_mem_keys he)

end DelayQueue
