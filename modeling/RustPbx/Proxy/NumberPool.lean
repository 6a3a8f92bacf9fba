import Mathlib.Algebra.Group.Nat.Defs
import Mathlib.Data.List.MinMax
import Mathlib.Data.List.Perm.Subperm
import RustPbx.Lib.Lru
import RustPbx.Lib.Machine

/-!
The least used number of a pool, as the caller of an outbound call.

A number is chosen and its use is counted in two steps. Calls that choose before the others have
counted get the same number (`same_number_thrice`).
-/

namespace RustPbx.Proxy

open List

structure NumberPool where
  usage : Lru String UInt64
  /-- What the calls have chosen whose use is not counted yet. -/
  chosen : List String := []

inductive PickStep where
  | choose
  | count (i : Nat)
  deriving DecidableEq

namespace NumberPool

theorem capacity_pos : 0 < 10000 := by decide

def start (impl : Lru.Impl String UInt64) : NumberPool where
  usage := .empty impl 10000 capacity_pos

def counted (s : NumberPool) (did : String) : UInt64 :=
  (s.usage.find? did).getD 0

def uses (s : NumberPool) (did : String) : Nat :=
  (s.counted did).toNat

def step (didNumbers : List String) (s : NumberPool) : PickStep → Option NumberPool
  | .choose => (didNumbers.argmin s.uses).map fun did => { s with chosen := did :: s.chosen }
  | .count i => s.chosen[i]?.map fun did =>
    { usage := s.usage.put did (s.counted did + 1), chosen := s.chosen.eraseIdx i }

/-- No call chooses before the last one has counted, and no count is at the end of its 64 bits. -/
def Alone (s : NumberPool) (action : PickStep) : Prop :=
  (action = .choose → s.chosen = []) ∧ ∀ did ∈ s.chosen, s.uses did + 1 < 2 ^ 64

instance : Decidable (Alone s action) := inferInstanceAs (Decidable (_ ∧ _))

structure Balanced (didNumbers : List String) (s : NumberPool) : Prop where
  capacity : s.usage.capacity = 10000
  tracked : s.usage.entries.map (·.1) ⊆ didNumbers
  balanced : ∀ a ∈ didNumbers, ∀ b ∈ didNumbers, s.uses a ≤ s.uses b + 1
  least : s.chosen = [] ∨
    ∃ did ∈ didNumbers, s.chosen = [did] ∧ ∀ b ∈ didNumbers, s.uses did ≤ s.uses b

variable {didNumbers : List String} {s : NumberPool}

theorem Balanced.room (hpool : didNumbers.length ≤ 10000) (h : s.Balanced didNumbers)
    (hmem : did ∈ didNumbers) : (s.usage.others did).length < s.usage.capacity := by
  have hkeys : (did :: (s.usage.others did).map (·.1)) ⊆ didNumbers :=
    cons_subset.mpr ⟨hmem, fun _ hkey => h.tracked ((filter_sublist.map _).subset hkey)⟩
  have hlength := (subperm_of_subset
    (nodup_cons.mpr ⟨s.usage.not_mem_others, s.usage.nodup_others⟩) hkeys).length_le
  rw [length_cons, length_map] at hlength
  exact h.capacity ▸ hlength.trans hpool

theorem uses_put (hroom : (s.usage.others did).length < s.usage.capacity)
    (hlt : s.uses did + 1 < 2 ^ 64) (chosen : List String) (b : String) :
    uses ⟨s.usage.put did (s.counted did + 1), chosen⟩ b =
      if b = did then s.uses did + 1 else s.uses b := by
  rw [uses, counted, Lru.put, s.usage.impl.find?_put hroom]
  split
  · rw [Option.getD_some, UInt64.toNat_add, UInt64.toNat_one]
    exact Nat.mod_eq_of_lt hlt
  · rfl

theorem Balanced.step (hpool : didNumbers.length ≤ 10000) (h : s.Balanced didNumbers)
    (halone : Alone s action) (hstep : s.step didNumbers action = some s') :
    s'.Balanced didNumbers := by
  cases action with
  | choose =>
    obtain ⟨did, hdid, rfl⟩ := Option.map_eq_some_iff.mp hstep
    refine ⟨h.capacity, h.tracked, h.balanced, .inr ⟨did, argmin_mem hdid, ?_, fun b hb => ?_⟩⟩
    · exact congrArg (did :: ·) (halone.1 rfl)
    · exact le_of_mem_argmin hb hdid
  | count i =>
    obtain hnone | ⟨did, hmem, hone, hleast⟩ := h.least
    · simp [NumberPool.step, hnone] at hstep
    rw [NumberPool.step, hone, getElem?_singleton] at hstep
    split at hstep
    next hi =>
      cases hstep
      have hlt := halone.2 did (hone ▸ mem_singleton_self did)
      refine ⟨(s.usage.impl.capacity_put ..).trans h.capacity, fun key hkey => ?_,
        fun a ha b hb => ?_, .inl (by rw [hi]; rfl)⟩
      · obtain ⟨e, he, rfl⟩ := mem_map.mp hkey
        obtain rfl | he := Lru.mem_put he
        · exact hmem
        · exact h.tracked (mem_map_of_mem he)
      · have hab := h.balanced a ha b hb
        have hdid := hleast b hb
        rw [uses_put (h.room hpool hmem) hlt, uses_put (h.room hpool hmem) hlt]
        grind
    · cases hstep

/-- **The numbers of a pool are used evenly** by calls that do not overlap. -/
theorem numbers_balanced (impl : Lru.Impl String UInt64) (didNumbers : List String)
    (hpool : didNumbers.length ≤ 10000) (s : NumberPool)
    (hrun : Machine.Runs (step didNumbers) Alone (start impl) s) :
    ∀ a ∈ didNumbers, ∀ b ∈ didNumbers, s.uses a ≤ s.uses b + 1 := by
  have hstart : Balanced didNumbers (start impl) :=
    ⟨rfl, nil_subset _, fun _ _ _ _ => Nat.zero_le _, .inl rfl⟩
  exact (hrun.invariant (Balanced didNumbers) hstart fun _ _ _ h halone hstep =>
    h.step hpool halone hstep).balanced

theorem numbers_balanced_pair : ∃ s, Machine.steps (step ["100", "200"]) (start .recency)
    [.choose, .count 0, .choose, .count 0, .choose, .count 0] = some s ∧
      s.uses "100" = 2 ∧ s.uses "200" = 1 ∧ s.uses "100" ≤ s.uses "200" + 1 := by
  have hrun : Machine.steps (Machine.checked (step ["100", "200"]) Alone) (start .recency)
      [.choose, .count 0, .choose, .count 0, .choose, .count 0] = some _ := rfl
  exact ⟨_, rfl, rfl, rfl, numbers_balanced .recency ["100", "200"] (by decide) _
    (Machine.Runs.of_checked .refl hrun) _ (by decide) _ (by decide)⟩

/-- Calls that choose at the same time use one number three times, and the other not at all. -/
theorem same_number_thrice : ∃ s, Machine.steps (step ["100", "200"]) (start .recency)
    [.choose, .choose, .choose, .count 0, .count 0, .count 0] = some s ∧
      s.chosen = [] ∧ s.uses "100" = 3 ∧ s.uses "200" = 0 :=
  ⟨_, rfl, rfl, rfl, rfl⟩

end NumberPool

end RustPbx.Proxy
