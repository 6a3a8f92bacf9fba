import RustPbx.Lib.Binary64
import RustPbx.Lib.Str

/-!
The jump consistent hash of the remote backend.

The loop is generic in its floating-point step: `next b shift` is the position jumped to from `b`.
`Advances` is what the loop needs of it. The positions visited form a `walk`; `LandsOn` says which
of them is the last one below the bucket count.
-/

namespace RustPbx.Sipflow

open Option

def hashKey (key : String) : UInt64 :=
  (Str.bytes key.toList).foldl (fun hash b => hash * 31 + b.toUInt64) 0

def advance (hash : UInt64) : UInt64 :=
  hash * 2862933555777941757 + 1

/-- The position jumped to from `b`, in `f64` arithmetic as the source computes it. -/
def floatStep (b : Int) (shift : UInt64) : Int :=
  (Float.Model.ofInt64 (Int64.ofInt (b + 1)) * Float.Model.ofUInt64 ((1 : UInt64) <<< 31)
    / Float.Model.ofUInt64 (shift + 1)).toInt64.toInt

section
variable (next : Int → UInt64 → Int)

/-- The `while j < num_buckets` loop. It returns the last `b`, or `none` if it needs more than
`fuel` rounds. -/
def jumpLoop (n : Int) : Nat → UInt64 → Int → Int → Option Int
  | 0, _, _, _ => none
  | fuel + 1, hash, b, j =>
    if j < n then
      jumpLoop n fuel (advance hash) j (next j (advance hash >>> 33))
    else
      some b

/-- `jump_consistent_hash`; `num_buckets as i64` and `b as usize` reinterpret a 64-bit integer. -/
def jumpConsistentHash (key : String) (numBuckets : Nat) : Option Nat :=
  if numBuckets = 1 then
    some 0
  else
    (jumpLoop next (Int.bmod numBuckets (2 ^ 64)) (numBuckets + 1) (hashKey key) (-1) 0).map
      fun b => (b % 2 ^ 64).toNat

def walk (hash : UInt64) : Nat → UInt64 × Int
  | 0 => (hash, 0)
  | k + 1 =>
    let (hash, j) := walk hash k
    (advance hash, next j (advance hash >>> 33))

def position (hash : UInt64) (k : Nat) : Int :=
  (walk next hash k).2

/-- The last position before the first one at or past `n`, reached in fewer than `n` jumps. -/
def LandsOn (n : Nat) (hash : UInt64) (r : Int) : Prop :=
  ∃ k < n, position next hash k = r ∧ (∀ m ≤ k, position next hash m < n) ∧
    n ≤ position next hash (k + 1)

variable {next}

@[simp] theorem position_zero (hash : UInt64) : position next hash 0 = 0 := rfl

theorem position_succ (hash : UInt64) : position next hash (k + 1)
      = next (position next hash k) (advance (walk next hash k).1 >>> 33) := rfl

variable {n : Nat} {hash : UInt64}

theorem jumpLoop_walk_eq_some_iff :
    jumpLoop next n fuel (walk next hash i).1 b (position next hash i) = some r ↔
      (n ≤ position next hash i ∧ 0 < fuel ∧ b = r) ∨
      ∃ k, i ≤ k ∧ k + 1 < i + fuel ∧ position next hash k = r ∧
        (∀ m, i ≤ m → m ≤ k → position next hash m < n) ∧ n ≤ position next hash (k + 1) := by
  induction fuel generalizing b i with
  | zero =>
    simp only [jumpLoop, reduceCtorEq, Nat.lt_irrefl, false_and, false_iff]
    rintro ⟨k, hk, hlt, -⟩
    omega
  | succ fuel ih =>
    rw [jumpLoop]
    split
    · next hlt =>
      change jumpLoop next n fuel (walk next hash (i + 1)).1 _ (position next hash (i + 1)) = _ ↔ _
      rw [ih]
      constructor
      · rintro (⟨hge, hpos, rfl⟩ | ⟨k, hik, hkf, hr, hall, hge⟩)
        · refine .inr ⟨i, Nat.le_refl i, by omega, rfl, fun m h₁ h₂ => ?_, hge⟩
          obtain rfl : m = i := by omega
          exact hlt
        · refine .inr ⟨k, by omega, by omega, hr, fun m h₁ h₂ => ?_, hge⟩
          rcases Nat.eq_or_lt_of_le h₁ with rfl | h₁
          · exact hlt
          · exact hall m h₁ h₂
      · rintro (⟨hge, -, -⟩ | ⟨k, hik, hkf, hr, hall, hge⟩)
        · omega
        · rcases Nat.eq_or_lt_of_le hik with rfl | hik
          · exact .inl ⟨hge, by omega, hr⟩
          · exact .inr ⟨k, hik, by omega, hr, fun m h₁ h₂ => hall m (by omega) h₂, hge⟩
    · next hge =>
      constructor
      · rintro ⟨rfl⟩
        exact .inl ⟨by omega, by omega, rfl⟩
      · rintro (⟨-, -, rfl⟩ | ⟨k, hik, -, -, hall, -⟩)
        · rfl
        · exact absurd (hall i (Nat.le_refl i) hik) hge

/-- **The loop computes the landing position.** -/
theorem jumpLoop_eq_some_iff (hn : 1 ≤ n) :
    jumpLoop next n (n + 1) hash (-1) 0 = some r ↔ LandsOn next n hash r := by
  refine (jumpLoop_walk_eq_some_iff : jumpLoop next n (n + 1) (walk next hash 0).1 (-1)
    (position next hash 0) = some r ↔ _).trans ?_
  rw [position_zero]
  constructor
  · rintro (⟨hge, -, -⟩ | ⟨k, -, hk, hr, hall, hge⟩)
    · omega
    · exact ⟨k, by omega, hr, fun m hm => hall m (Nat.zero_le m) hm, hge⟩
  · rintro ⟨k, hk, hr, hall, hge⟩
    exact .inr ⟨k, Nat.zero_le k, by omega, hr, fun m _ hm => hall m hm, hge⟩

theorem LandsOn.unique (hn : 1 ≤ n) (h : LandsOn next n hash r) (h' : LandsOn next n hash r') :
    r = r' := by
  rw [← jumpLoop_eq_some_iff hn] at h h'
  exact some.inj (h.symm.trans h')

/-! ## Steps that advance -/

/-- Below `n`, every jump moves forward. -/
def Advances (next : Int → UInt64 → Int) (n : Nat) : Prop :=
  ∀ (b : Int) (shift : UInt64), 0 ≤ b → b < n → shift.toNat < 2 ^ 31 → b + 1 ≤ next b shift

theorem toNat_shiftRight_lt (hash : UInt64) : (hash >>> 33).toNat < 2 ^ 31 := by
  have hlt := hash.toNat_lt
  rw [UInt64.toNat_shiftRight, Nat.shiftRight_eq_div_pow]
  change hash.toNat / 2 ^ 33 < 2 ^ 31
  omega

theorem Advances.le_position (h : Advances next n) (hash : UInt64)
    (hlt : ∀ m < k, position next hash m < n) : (k : Int) ≤ position next hash k := by
  induction k with
  | zero => simp
  | succ k ih =>
    have hk := ih fun m hm => hlt m (by omega)
    have hstep := h (position next hash k) _ (by omega) (hlt k (by omega))
      (toNat_shiftRight_lt (advance (walk next hash k).1))
    rw [position_succ]
    omega

/-- **The loop terminates in range** when every jump moves forward. -/
theorem Advances.exists_landsOn (h : Advances next n) (hn : 1 ≤ n) (hash : UInt64) :
    ∃ r, LandsOn next n hash r ∧ 0 ≤ r ∧ r < n := by
  have hpast : ∃ k, n ≤ position next hash k := by
    by_contra hnone
    push Not at hnone
    have := h.le_position hash fun m (_ : m < n) => hnone m
    have := hnone n
    omega
  -- the first position at or past `n` is not the start, and the one before it is the landing
  obtain ⟨k, hk⟩ : ∃ k, Nat.find hpast = k + 1 := by
    refine ⟨Nat.find hpast - 1, (Nat.succ_pred fun h0 => ?_).symm⟩
    have := Nat.find_spec hpast
    rw [h0, position_zero] at this
    omega
  have hlt : ∀ m ≤ k, position next hash m < n := fun m hm =>
    not_le.mp (Nat.find_min hpast (by omega))
  have hge := h.le_position hash (k := k) fun m hm => hlt m (by omega)
  refine ⟨position next hash k, ⟨k, ?_, rfl, hlt, ?_⟩, by omega, hlt k (Nat.le_refl k)⟩
  · have := hlt k (Nat.le_refl k)
    omega
  · rw [← hk]
    exact Nat.find_spec hpast

theorem Advances.landsOn_zero_iff (h : Advances next n) (hn : 1 ≤ n) :
    LandsOn next n hash 0 ↔ n ≤ position next hash 1 := by
  constructor
  · rintro ⟨k, hk, hzero, hall, hge⟩
    have := h.le_position hash (k := k) fun m hm => hall m (by omega)
    obtain rfl : k = 0 := by omega
    exact hge
  · intro hge
    refine ⟨0, by omega, rfl, fun m hm => ?_, hge⟩
    obtain rfl : m = 0 := by omega
    rw [position_zero]
    omega

theorem bmod_count (hcast : n < 2 ^ 63) : Int.bmod n (2 ^ 64) = n :=
  Int.bmod_eq_of_le (by omega) (by omega)

theorem Advances.jumpConsistentHash_lt (h : Advances next n) (hn : 1 ≤ n) (hcast : n < 2 ^ 63) :
    ∃ i < n, jumpConsistentHash next key n = some i := by
  rw [jumpConsistentHash, bmod_count hcast]
  split
  · exact ⟨0, by omega, rfl⟩
  · obtain ⟨r, hr, h0, hlt⟩ := h.exists_landsOn hn (hashKey key)
    rw [(jumpLoop_eq_some_iff hn).mpr hr]
    refine ⟨(r % 2 ^ 64).toNat, ?_, rfl⟩
    omega

theorem Advances.landsOn_succ (h : Advances next (n + 1)) (hlands : LandsOn next n hash r) :
    LandsOn next (n + 1) hash r ∨ LandsOn next (n + 1) hash n := by
  obtain ⟨k, hk, hr, hall, hge⟩ := hlands
  rcases Int.lt_or_eq_of_le hge with hgt | heq
  · refine .inl ⟨k, by omega, hr, fun m hm => ?_, by omega⟩
    have := hall m hm
    omega
  · refine .inr ⟨k + 1, by omega, heq.symm, fun m hm => ?_, ?_⟩
    · rcases Nat.lt_or_eq_of_le hm with hm | rfl
      · have := hall m (by omega)
        omega
      · omega
    · have := h (position next hash (k + 1)) _ (by omega) (by omega)
        (toNat_shiftRight_lt (advance (walk next hash (k + 1)).1))
      rw [position_succ]
      omega

/-- **A bucket that is added only takes keys**: they stay where they were or go to the new one. -/
theorem jumpConsistentHash_grows (next : Int → UInt64 → Int)
    (hnext : ∀ b shift, 0 ≤ b → b + 1 ≤ next b shift) (n : Nat) (hn : 1 ≤ n)
    (hcast : n + 1 < 2 ^ 63) :
    (∀ hash, ∃ r : Nat, r < n ∧ jumpLoop next n (n + 1) hash (-1) 0 = some ↑r ∧
      (jumpLoop next ↑(n + 1) (n + 2) hash (-1) 0 = some ↑r ∨
        jumpLoop next ↑(n + 1) (n + 2) hash (-1) 0 = some ↑n)) ∧
      ∀ key, ∃ i < n, jumpConsistentHash next key n = some i ∧
        (jumpConsistentHash next key (n + 1) = some i ∨
          jumpConsistentHash next key (n + 1) = some n) := by
  have hadvances (n : Nat) : Advances next n := fun b shift hb _ _ => hnext b shift hb
  have hloop (hash : UInt64) : ∃ r : Nat, r < n ∧ jumpLoop next n (n + 1) hash (-1) 0 = some ↑r ∧
      (jumpLoop next ↑(n + 1) (n + 2) hash (-1) 0 = some ↑r ∨
        jumpLoop next ↑(n + 1) (n + 2) hash (-1) 0 = some ↑n) := by
    obtain ⟨r, hr, h0, hlt⟩ := (hadvances n).exists_landsOn hn hash
    lift r to Nat using h0
    refine ⟨r, by omega, (jumpLoop_eq_some_iff hn).mpr hr, ?_⟩
    exact ((hadvances (n + 1)).landsOn_succ hr).imp (jumpLoop_eq_some_iff (by omega)).mpr
      (jumpLoop_eq_some_iff (by omega)).mpr
  refine ⟨hloop, fun key => ?_⟩
  obtain ⟨r, hr, hold, hnew⟩ := hloop (hashKey key)
  have hword (m : Nat) (hm : m ≤ n) : ((m : Int) % 2 ^ 64).toNat = m := by omega
  refine ⟨r, hr, ?_, ?_⟩
  · rw [jumpConsistentHash, bmod_count (by omega)]
    split
    · exact congrArg some (by omega)
    · rw [hold, map_some, hword r hr.le]
  · simp only [jumpConsistentHash, if_neg (show n + 1 ≠ 1 by omega), bmod_count hcast]
    refine hnew.imp (fun h => ?_) fun h => ?_
    · rw [h, map_some, hword r hr.le]
    · rw [h, map_some, hword n le_rfl]

theorem jumpConsistentHash_grows_two : ∃ i < 2, jumpConsistentHash (fun b _ => b + 1) "a" 2 =
    some i ∧ (jumpConsistentHash (fun b _ => b + 1) "a" 3 = some i ∨
      jumpConsistentHash (fun b _ => b + 1) "a" 3 = some 2) :=
  (jumpConsistentHash_grows (fun b _ => b + 1) (fun _ _ _ => le_rfl) 2 (by decide)
    (by decide)).2 "a"

/-- A count that is negative as a signed number: the start is returned as the largest index. -/
theorem jumpLoop_negative :
    jumpLoop floatStep (UInt64.toInt64 0x8000000000000000).toInt 1 (hashKey "a") (-1) 0 =
      some (-1) ∧ ((-1 : Int) % 2 ^ 64).toNat = 2 ^ 64 - 1 :=
  ⟨if_neg (by decide), by decide⟩

end

/-- **The `f64` step moves forward** as long as positions are exact in `f64`. -/
theorem floatStep_advances (hn : n < 2 ^ 53) : Advances floatStep n := by
  intro b shift hb hlt hshift
  obtain ⟨m, rfl⟩ : ∃ m : Nat, b = m := ⟨b.toNat, by omega⟩
  have hx : (Int64.ofInt ((m : Int) + 1)).toInt = (m + 1 : Nat) := by
    rw [Int64.toInt_ofInt_of_le (by omega) (by omega)]
    rfl
  have hd : (shift + 1).toNat = shift.toNat + 1 := by
    exact Nat.mod_eq_of_lt (by change shift.toNat + 1 < 2 ^ 64; omega)
  have hbound := Binary64.le_toInt64_mul_div (n := m + 1) (p := 31) (d := shift.toNat + 1)
    (by omega) (by omega) (by omega) (by omega) (by decide)
  have hstep : floatStep m shift = (Float.Model.ofInt (Int64.ofInt ((m : Int) + 1)).toInt *
      Float.Model.ofInt (2 ^ 31 : Nat) /
        Float.Model.ofInt ((shift + 1).toNat : Int)).toInt64.toInt :=
    rfl
  rw [hstep, hx, hd]
  exact_mod_cast hbound

theorem position_floatStep_range (hash : UInt64) (k : Nat) :
    -2 ^ 63 ≤ position floatStep hash k ∧ position floatStep hash k < 2 ^ 63 := by
  cases k with
  | zero => simp
  | succ k =>
    exact ⟨Int64.le_toInt _, Int64.toInt_lt _⟩

theorem not_landsOn {n : Nat} {hash : UInt64} (hn : 2 ^ 63 ≤ n) : ¬ LandsOn floatStep n hash r := by
  rintro ⟨k, -, -, -, hge⟩
  have := position_floatStep_range hash (k + 1)
  omega

theorem jumpConsistentHash_eq_iff (hn : 1 < n) (hsize : n < 2 ^ 64) :
    jumpConsistentHash floatStep key n = jumpConsistentHash floatStep key' n ↔
      ∀ r, LandsOn floatStep n (hashKey key) r ↔ LandsOn floatStep n (hashKey key') r := by
  have hinj : ∀ {hash hash' : UInt64} {r r' : Int}, LandsOn floatStep n hash r →
      LandsOn floatStep n hash' r' → (r % 2 ^ 64).toNat = (r' % 2 ^ 64).toNat → r = r' := by
    rintro hash hash' _ _ ⟨k, -, rfl, -⟩ ⟨k', -, rfl, -⟩ heq
    have := position_floatStep_range hash k
    have := position_floatStep_range hash' k'
    omega
  rw [jumpConsistentHash, jumpConsistentHash, if_neg (by omega), if_neg (by omega)]
  rcases Nat.lt_or_ge n (2 ^ 63) with hcast | hcast
  swap
  · -- The count is negative, so that no jump is made.
    have hcount : Int.bmod n (2 ^ 64) = n - 2 ^ 64 := by
      rw [Int.bmod_def]
      omega
    rw [hcount, jumpLoop, jumpLoop, if_neg (by omega), if_neg (by omega)]
    exact iff_of_true rfl fun r => iff_of_false (not_landsOn hcast) (not_landsOn hcast)
  rw [bmod_count hcast]
  simp only [← jumpLoop_eq_some_iff hn.le] at hinj ⊢
  cases hx : jumpLoop floatStep n (n + 1) (hashKey key) (-1) 0 with
  | none => cases jumpLoop floatStep n (n + 1) (hashKey key') (-1) 0 <;> simp
  | some r =>
    cases hy : jumpLoop floatStep n (n + 1) (hashKey key') (-1) 0 with
    | none => simp
    | some r' =>
      simp only [map_some, some.injEq]
      constructor
      · intro heq
        simp [hinj hx hy heq]
      · intro heq
        rw [(heq r).mp rfl]

end RustPbx.Sipflow
