import Mathlib.Algebra.Ring.Int.Defs
import Mathlib.Algebra.Ring.Nat

/-!
Numbers that count modulo 2^32 and are compared by their signed distance.

`ahead a b` is how far `a` is ahead of `b`, the shorter way around. A list of such numbers has a
`position`, where one gets by following these distances from the first number on.
-/

namespace Wrap32

/-- How far a number is ahead of another, which is negative if it is behind. -/
def ahead (a b : UInt32) : Int :=
  (a - b).toInt32.toInt

theorem ahead_eq : ahead a b = if (a - b).toNat < 2 ^ 31 then ((a - b).toNat : Int)
      else (a - b).toNat - 2 ^ 32 := by
  change (a - b).toBitVec.toInt = _
  rw [BitVec.toInt_eq_toNat_cond]
  split
  next h =>
    rw [if_pos]
    · rfl
    · change 2 * (a - b).toNat < 2 ^ 32 at h
      omega
  next h =>
    rw [if_neg]
    · rfl
    · change ¬ 2 * (a - b).toNat < 2 ^ 32 at h
      omega

theorem ahead_add (h : n.toNat < 2 ^ 31) (a : UInt32) : ahead (a + n) a = n.toNat := by
  have hsub : a + n - a = n := by
    rw [UInt32.add_comm, UInt32.add_sub_cancel]
  rw [ahead_eq, hsub, if_pos h]

theorem ahead_between (ha : 0 ≤ ahead c a) (hb : 0 ≤ ahead c b) :
    ahead b a = ahead c a - ahead c b := by
  rw [ahead_eq] at ha hb
  rw [ahead_eq, ahead_eq, ahead_eq]
  have hca := UInt32.toNat_sub c a
  have hcb := UInt32.toNat_sub c b
  have hba := UInt32.toNat_sub b a
  have := b.toNat_lt
  split at ha <;> split at hb <;> split <;> omega

theorem ahead_add_of_ahead (hc : 0 ≤ ahead c b) (hn : n.toNat < 2 ^ 31) :
    ahead (b + n) c = n.toNat - ahead c b := by
  rw [ahead_eq] at hc
  rw [ahead_eq, ahead_eq]
  have hcb := UInt32.toNat_sub c b
  have hbn := UInt32.toNat_add b n
  have hbnc := UInt32.toNat_sub (b + n) c
  have := b.toNat_lt
  have := c.toNat_lt
  split at hc <;> split <;> omega

theorem toNat_ofNat_sub (h : n ≤ m) (hlt : m - n < 2 ^ 32) :
    (UInt32.ofNat m - UInt32.ofNat n).toNat = m - n := by
  rw [UInt32.toNat_sub, UInt32.toNat_ofNat', UInt32.toNat_ofNat']
  omega

/-- Where the newest of some numbers is, the newest being the first of the list. -/
def position : List UInt32 → Int
  | [] => 0
  | [t] => t.toNat
  | t :: t' :: ts => position (t' :: ts) + ahead t t'

end Wrap32
