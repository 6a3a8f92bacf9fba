import Mathlib.Tactic.Common

/-!
Computations over a state that can fail.

`Eff σ ε α` keeps the state when it fails, as imperative code does: what was done before an early
error return stays done. The simp lemmas `run_pure`, `run_bind`, ... run a computation one statement
at a time. `Within R x` says that `x` moves the state along `R` whatever it returns, `FailsOnly P x`
with which errors `x` can fail.
-/

/-- A computation over a state that can fail; the state survives the failure. -/
structure Eff (σ ε α : Type) where
  run : σ → Except ε α × σ

namespace Eff

variable {α : Type}

def andThen (r : Except ε α × σ) (f : α → Eff σ ε β) : Except ε β × σ :=
  match r with
  | (.ok a, s) => (f a).run s
  | (.error e, s) => (.error e, s)

instance : Monad (Eff σ ε) where
  pure a := ⟨fun s => (.ok a, s)⟩
  bind x f := ⟨fun s => andThen (x.run s) f⟩

def get : Eff σ ε σ := ⟨fun s => (.ok s, s)⟩

def modify (f : σ → σ) : Eff σ ε Unit := ⟨fun s => (.ok (), f s)⟩

def modifyGet (f : σ → α × σ) : Eff σ ε α := ⟨fun s => (.ok (f s).1, (f s).2)⟩

def fail (e : ε) : Eff σ ε α := ⟨fun s => (.error e, s)⟩

def ofExcept (x : Except ε α) : Eff σ ε α := ⟨fun s => (x, s)⟩

def zoom (part : σ → τ) (put : τ → σ → σ) (x : Eff τ ε α) : Eff σ ε α :=
  ⟨fun s => ((x.run (part s)).1, put (x.run (part s)).2 s)⟩

def mapError (wrap : ε' → ε) (x : Eff σ ε' α) : Eff σ ε α :=
  ⟨fun s => ((x.run s).1.mapError wrap, (x.run s).2)⟩

/-- Look at the outcome of a computation: failures that `caught` reads are handed on, others pass
through. -/
def attempt (caught : ε → Option ε') (x : Eff σ ε α) : Eff σ ε (Except ε' α) :=
  ⟨fun s =>
    match x.run s with
    | (.ok a, s') => (.ok (.ok a), s')
    | (.error e, s') =>
      match caught e with
      | some e' => (.ok (.error e'), s')
      | none => (.error e, s')⟩

def when (b : Bool) (x : Eff σ ε Unit) : Eff σ ε Unit :=
  if b then x else pure ()

def each (f : α → Eff σ ε Unit) : List α → Eff σ ε Unit
  | [] => pure ()
  | x :: xs => do
    f x
    each f xs

def filterMap (f : α → Eff σ ε (Option β)) : List α → Eff σ ε (List β)
  | [] => pure []
  | x :: xs => do
    let y ← f x
    let ys ← filterMap f xs
    pure (y.toList ++ ys)

def firstSome : List (Eff σ ε (Option α)) → Eff σ ε (Option α)
  | [] => pure none
  | x :: xs => do
    match ← x with
    | some a => pure (some a)
    | none => firstSome xs

@[simp] theorem andThen_ok : andThen (.ok a, s) f = (f a).run s := rfl

@[simp] theorem andThen_error : andThen (.error e, s) f = (.error e, s) := rfl

@[simp] theorem run_pure : (pure a : Eff σ ε α).run s = (.ok a, s) := rfl

@[simp] theorem run_bind (x : Eff σ ε α) (f : α → Eff σ ε β) (s : σ) :
    (x >>= f).run s = andThen (x.run s) f := rfl

@[simp] theorem run_get : (get : Eff σ ε σ).run s = (.ok s, s) := rfl

@[simp] theorem run_modify : (modify f : Eff σ ε Unit).run s = (.ok (), f s) := rfl

@[simp] theorem run_modifyGet : (modifyGet f : Eff σ ε α).run s = (.ok (f s).1, (f s).2) := rfl

@[simp] theorem run_fail : (fail e : Eff σ ε α).run s = (.error e, s) := rfl

@[simp] theorem run_ofExcept : (ofExcept x : Eff σ ε α).run s = (x, s) := rfl

theorem run_mapError : (mapError wrap x).run s = ((x.run s).1.mapError wrap, (x.run s).2) := rfl

theorem run_attempt : ((attempt caught x).run s).2 = (x.run s).2 := by
  simp only [attempt]
  rcases x.run s with ⟨e | a, s'⟩
  · cases hc : caught e <;> simp [hc]
  · rfl

theorem attempt_ok (h : (attempt caught x).run s = (.ok (.ok a), s')) : x.run s = (.ok a, s') := by
  simp only [attempt] at h
  rcases hx : x.run s with ⟨e | b, t⟩ <;> rw [hx] at h
  · cases hc : caught e <;> simp [hc] at h
  · simpa using h

theorem mapError_ok (h : (mapError wrap x).run s = (.ok a, s')) : x.run s = (.ok a, s') := by
  rw [run_mapError] at h
  rcases hx : x.run s with ⟨e | b, t⟩ <;> rw [hx] at h
  · cases h
  · cases h
    rfl

theorem ok_of_bind {x : Except ε α} {f : α → Except ε β} (h : x >>= f = .ok b) :
    ∃ a, x = .ok a ∧ f a = .ok b := by
  cases x with
  | error e => cases h
  | ok a => exact ⟨a, rfl, h⟩

theorem bind_ok {f : α → Eff σ ε β} (h : (x >>= f).run s = (.ok b, s')) :
    ∃ a t, x.run s = (.ok a, t) ∧ (f a).run t = (.ok b, s') := by
  rw [run_bind] at h
  rcases hx : x.run s with ⟨e | a, t⟩ <;> rw [hx] at h
  · simp at h
  · exact ⟨a, t, rfl, h⟩

/-- Sequencing stops with the first half, or goes on with what it returned. -/
theorem bind_cases {f : α → Eff σ ε β} {T : σ → Prop} (hstop : T (x.run s).2)
    (hnext : ∀ a s', x.run s = (.ok a, s') → T ((f a).run s').2) : T ((x >>= f).run s).2 := by
  rw [run_bind]
  rcases hxs : x.run s with ⟨e | a, s'⟩
  · rwa [hxs] at hstop
  · exact hnext a s' hxs

/-! ## Moving along a relation -/

/-- Whatever `x` returns, it moves the state along `R`. -/
def Within (R : σ → σ → Prop) (x : Eff σ ε α) : Prop :=
  ∀ s, R s (x.run s).2

namespace Within

variable {f : α → Eff σ ε β}

theorem of_run (h : Within R x) (hrun : x.run s = (r, s')) : R s s' := by
  have hs := h s
  rwa [hrun] at hs

theorem pure [Std.Refl R] (a : α) : Within R (Pure.pure a : Eff σ ε α) :=
  fun s => Std.Refl.refl s

theorem fail [Std.Refl R] (e : ε) : Within R (Eff.fail e : Eff σ ε α) :=
  fun s => Std.Refl.refl s

theorem ofExcept [Std.Refl R] (r : Except ε α) : Within R (Eff.ofExcept r : Eff σ ε α) :=
  fun s => Std.Refl.refl s

theorem get [Std.Refl R] : Within R (Eff.get : Eff σ ε σ) :=
  fun s => Std.Refl.refl s

theorem modify (h : ∀ s, R s (g s)) : Within R (Eff.modify g : Eff σ ε Unit) :=
  h

theorem modifyGet (h : ∀ s, R s (g s).2) : Within R (Eff.modifyGet g : Eff σ ε α) :=
  h

/-- Sequencing from one state, where the second half may rely on what the first half did. -/
theorem bindAt [IsTrans σ R] (hx : R s (x.run s).2)
    (hf : ∀ a s', x.run s = (.ok a, s') → R s' ((f a).run s').2) : R s ((x >>= f).run s).2 := by
  refine bind_cases hx fun a s' hxs => ?_
  rw [hxs] at hx
  exact IsTrans.trans _ _ _ hx (hf a s' hxs)

theorem bindRun [IsTrans σ R] (hx : Within R x)
    (hf : ∀ s a s', x.run s = (.ok a, s') → R s' ((f a).run s').2) : Within R (x >>= f) :=
  fun s => bindAt (hx s) (hf s)

theorem bind [IsTrans σ R] (hx : Within R x) (hf : ∀ a, Within R (f a)) : Within R (x >>= f) :=
  bindRun hx fun _ a s' _ => hf a s'

theorem seq [IsTrans σ R] (hx : Within R x) (hy : Within R y) : Within R (x >>= fun _ => y) :=
  bind hx fun _ => hy

theorem when [Std.Refl R] (hx : Within R x) : Within R (Eff.when b x) := by
  cases b
  · exact Within.pure ()
  · exact hx

theorem attempt (hx : Within R x) : Within R (Eff.attempt caught x) := by
  intro s
  rw [run_attempt]
  exact hx s

theorem each [Std.Refl R] [IsTrans σ R] (h : ∀ x ∈ xs, Within R (g x)) :
    Within R (Eff.each g xs) := by
  induction xs with
  | nil => exact Within.pure ()
  | cons x xs ih => exact bind (h x (by simp)) fun _ => ih fun y hy => h y (by simp [hy])

theorem filterMap [Std.Refl R] [IsTrans σ R]
    (h : ∀ x ∈ xs, Within R (g x)) : Within R (Eff.filterMap g xs) := by
  induction xs with
  | nil => exact Within.pure []
  | cons x xs ih =>
    refine bind (h x (by simp)) fun y => bind (ih fun z hz => h z (by simp [hz])) fun ys => ?_
    exact Within.pure _

end Within

def FailsOnly (P : ε → Prop) (x : Eff σ ε α) : Prop :=
  ∀ s e, (x.run s).1 = .error e → P e

namespace FailsOnly

variable {x : Eff σ ε α}

theorem pure (a : α) : FailsOnly P (Pure.pure a : Eff σ ε α) :=
  nofun

theorem get : FailsOnly P (Eff.get : Eff σ ε σ) :=
  nofun

theorem modify (g : σ → σ) : FailsOnly P (Eff.modify g : Eff σ ε Unit) :=
  nofun

theorem modifyGet (g : σ → α × σ) : FailsOnly P (Eff.modifyGet g : Eff σ ε α) :=
  nofun

theorem bind (hx : FailsOnly P x) (hf : ∀ a, FailsOnly P (f a)) : FailsOnly P (x >>= f) := by
  intro s e h
  rw [run_bind] at h
  rcases hxs : x.run s with ⟨e' | a, s'⟩ <;> rw [hxs] at h
  · obtain rfl : e' = e := Except.error.inj h
    exact hx s e' (congrArg Prod.fst hxs)
  · exact hf a s' e h

theorem seq (hx : FailsOnly P x) (hy : FailsOnly P y) : FailsOnly P (x >>= fun _ => y) :=
  bind hx fun _ => hy

theorem when {x : Eff σ ε Unit} (hx : FailsOnly P x) : FailsOnly P (Eff.when b x) := by
  cases b
  · exact pure ()
  · exact hx

theorem each (h : ∀ x, FailsOnly P (g x)) (xs : List α) : FailsOnly P (Eff.each g xs) := by
  induction xs with
  | nil => exact pure ()
  | cons x xs ih => exact bind (h x) fun _ => ih

theorem returns (h : FailsOnly (fun _ => False) x) (s : σ) : ∃ a s', x.run s = (.ok a, s') := by
  rcases hxs : x.run s with ⟨e | a, s'⟩
  · exact (h s e (congrArg Prod.fst hxs)).elim
  · exact ⟨a, s', rfl⟩

end FailsOnly

theorem forall_of_filterMap {Q : β → σ → Prop} {g : α → Eff σ ε (Option β)}
    [Std.Refl R] [IsTrans σ R] (hg : ∀ x, Within R (g x)) (hQ : ∀ {y s s'}, R s s' → Q y s → Q y s')
    (hfound : ∀ {x y s s'}, (g x).run s = (.ok (some y), s') → Q y s')
    (h : (filterMap g xs).run s = (.ok ys, s')) : ∀ y ∈ ys, Q y s' := by
  induction xs generalizing s ys with
  | nil =>
    obtain ⟨rfl, -⟩ : [] = ys ∧ s = s' := by simpa [filterMap] using h
    simp
  | cons x xs ih =>
    obtain ⟨y, t, hy, h⟩ := bind_ok h
    obtain ⟨zs, u, hzs, h⟩ := bind_ok h
    obtain ⟨rfl, rfl⟩ : y.toList ++ zs = ys ∧ u = s' := by simpa using h
    intro z hz
    rcases List.mem_append.mp hz with hhead | htail
    · obtain rfl : y = some z := by simpa using hhead
      have hmove : Within R (filterMap g xs) := Within.filterMap fun x _ => hg x
      exact hQ (hmove.of_run hzs) (hfound hy)
    · exact ih hzs z htail

end Eff
