import Mathlib.Algebra.Ring.Nat
import RustPbx.Lib.Effect

/-!
Reading and writing binary formats.

Numbers are big-endian. A reader is a computation over the bytes that are left. `Reads x a bytes`
says that `x` takes exactly `bytes` from the front and returns `a`. `Local x` says that `x` does not
look beyond what it takes.
-/

namespace Bytes

open List

/-- The low `width` bytes of a number, most significant first. -/
def put : (width : Nat) → Nat → List UInt8
  | 0, _ => []
  | width + 1, n => put width (n / 256) ++ [UInt8.ofNat n]

def value (bytes : List UInt8) : Nat :=
  bytes.foldl (fun n b => n * 256 + b.toNat) 0

@[simp] theorem length_put : (put width n).length = width := by
  induction width generalizing n with
  | zero => rfl
  | succ width ih => simp [put, ih]

theorem value_put : value (put width n) = n % 256 ^ width := by
  induction width generalizing n with
  | zero => simp [put, value, Nat.mod_one]
  | succ width ih =>
    have hlast : value (put width (n / 256) ++ [UInt8.ofNat n]) =
        value (put width (n / 256)) * 256 + n % 256 := by simp [value]
    rw [put, hlast, ih, Nat.pow_succ, Nat.mul_comm (256 ^ width), Nat.mod_mul]
    omega

/-! ## Readers -/

def require (b : Bool) (e : ε) : Eff σ ε Unit :=
  if b then pure () else Eff.fail e

/-- Take a number of bytes; `short` is the error when only so many are left. -/
def take (n : Nat) (short : Nat → ε) : Eff (List UInt8) ε (List UInt8) :=
  ⟨fun s => if s.length < n then (.error (short s.length), s) else (.ok (s.take n), s.drop n)⟩

def get (width : Nat) (short : Nat → ε) : Eff (List UInt8) ε Nat := do
  let bytes ← take width short
  return value bytes

/-- `x` takes exactly `bytes` and returns `a`, whatever follows. -/
def Reads (x : Eff (List UInt8) ε α) (a : α) (bytes : List UInt8) : Prop :=
  ∀ rest, x.run (bytes ++ rest) = (.ok a, rest)

namespace Reads

variable {a : α}

theorem pure (a : α) : Reads (Pure.pure a : Eff (List UInt8) ε α) a [] :=
  fun _ => rfl

theorem run_bind (hx : Reads x a bytes) (rest : List UInt8) :
    (x >>= f).run (bytes ++ rest) = (f a).run rest := by
  rw [Eff.run_bind, hx, Eff.andThen_ok]

theorem bind (hx : Reads x a bytes) (hf : Reads (f a) b bytes') :
    Reads (x >>= f) b (bytes ++ bytes') := by
  intro rest
  rw [append_assoc, hx.run_bind, hf]

theorem bind_nil (hx : Reads x a []) (hf : Reads (f a) b bytes) : Reads (x >>= f) b bytes :=
  bind hx hf

theorem map (hx : Reads x a bytes) (g : α → β) :
    Reads (x >>= fun a => Pure.pure (g a)) (g a) bytes := by
  have h := bind (f := fun a => Pure.pure (g a)) hx (pure (g a))
  rwa [append_nil] at h

theorem require (h : c = true) : Reads (Bytes.require c e) () [] := by
  subst h
  exact pure ()

theorem take (bytes : List UInt8) (short : Nat → ε) :
    Reads (Bytes.take bytes.length short) bytes bytes := by
  intro rest
  simp [Bytes.take]

theorem get (short : Nat → ε) (h : n < 256 ^ width) :
    Reads (Bytes.get width short) n (put width n) := by
  have htake := take (put width n) short
  rw [length_put] at htake
  have hread := htake.map value
  rwa [value_put, Nat.mod_eq_of_lt h] at hread

end Reads

/-- What `x` does does not depend on bytes behind those it takes. -/
def Local (x : Eff (List UInt8) ε α) : Prop :=
  ∀ s a rest more, x.run s = (.ok a, rest) → x.run (s ++ more) = (.ok a, rest ++ more)

namespace Local

variable {x : Eff (List UInt8) ε α}

theorem pure (a : α) : Local (Pure.pure a : Eff (List UInt8) ε α) := by
  intro s b rest more h
  obtain ⟨rfl, rfl⟩ : a = b ∧ s = rest := by simpa using h
  rfl

theorem fail (e : ε) : Local (Eff.fail e : Eff (List UInt8) ε α) := by
  intro s b rest more h
  simp at h

theorem ofExcept (r : Except ε α) : Local (Eff.ofExcept r : Eff (List UInt8) ε α) := by
  cases r with
  | error e => exact fail e
  | ok a => exact pure a

theorem bind (hx : Local x) (hf : ∀ a, Local (f a)) : Local (x >>= f) := by
  intro s b rest more h
  obtain ⟨a, t, hxs, hft⟩ := Eff.bind_ok h
  rw [Eff.run_bind, hx s a t more hxs, Eff.andThen_ok, hf a t b rest more hft]

theorem require (c : Bool) (e : ε) : Local (Bytes.require c e) := by
  cases c
  · exact fail e
  · exact pure ()

theorem take (n : Nat) (short : Nat → ε) : Local (Bytes.take n short) := by
  intro s b rest more h
  simp only [Bytes.take] at h ⊢
  split at h
  · simp at h
  next hlen =>
  obtain ⟨rfl, rfl⟩ : s.take n = b ∧ s.drop n = rest := by simpa using h
  have hle : n ≤ s.length := Nat.le_of_not_lt hlen
  rw [if_neg (by simp; omega), take_append_of_le_length hle, drop_append_of_le_length hle]

theorem get (width : Nat) (short : Nat → ε) : Local (Bytes.get width short) :=
  bind (take width short) fun _ => pure _

end Local

theorem Reads.fails_on_front (hx : Reads x a bytes) (hlocal : Local x)
    (hbytes : bytes = front ++ back) (hback : back ≠ []) :
    ∃ e, (x.run front).1 = .error e := by
  rcases hfront : x.run front with ⟨e | b, rest⟩
  · exact ⟨e, rfl⟩
  · have hall := hx []
    rw [append_nil, hbytes, hlocal front b rest back hfront] at hall
    obtain ⟨-, hnil⟩ := Prod.mk.inj hall
    exact absurd (append_eq_nil_iff.mp hnil).2 hback

end Bytes
