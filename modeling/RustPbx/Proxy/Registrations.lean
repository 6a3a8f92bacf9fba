import RustPbx.Proxy.Locator

/-!
What a locator is for: the bindings of users, whichever backend keeps them.

A user has at most one binding for each contact. Registering a contact replaces its binding, and
takes the other contacts of the same phone along to the new address. An expired binding may be kept
or dropped, so two backends are compared by the others (`SameLive`).
-/

namespace RustPbx.Proxy

open Sip Call

structure Identity where
  username : String
  /-- Empty for a user without a realm. -/
  realm : String
  deriving DecidableEq

def Identity.identifier (i : Identity) : String :=
  if i.realm = "" then i.username else i.username ++ "@" ++ i.realm

structure Binding where
  /-- The text of the contact. -/
  aor : String
  expires : Nat
  /-- When the binding was written, in seconds. -/
  modified : Nat
  instanceId : Option String
  transport : Transport
  addr : HostWithPort

namespace Binding

variable {new b : Binding}

def ofLocation (uris : UriLib) (now : Nat) (location : Location) (transport : Transport)
    (addr : HostWithPort) : Binding :=
  ⟨uris.print location.aor, location.expires, now, location.instanceId, transport, addr⟩

def Live (now : Nat) (b : Binding) : Prop :=
  b.expires ≠ 0 ∧ now - b.modified < b.expires + locatorExpireGraceSecs

def SharesPhone (new b : Binding) : Prop :=
  new.instanceId.isSome = true ∧ b.instanceId = new.instanceId ∧ b.aor ≠ new.aor

instance (new b : Binding) : Decidable (SharesPhone new b) :=
  inferInstanceAs (Decidable (_ ∧ _ ∧ _))

def redirect (new b : Binding) : Binding :=
  if SharesPhone new b then { b with transport := new.transport, addr := new.addr } else b

/-- The binding goes down with a connection. -/
def ClosedBy (now : Nat) (transport : Transport) (addr : HostWithPort) (b : Binding) : Prop :=
  (b.transport = transport ∧ b.addr = addr) ∧ b.modified < now - MemoryLocator.unregisterGraceSecs

theorem Live.earlier (h : b.Live now') (hle : now ≤ now') : b.Live now :=
  ⟨h.1, Nat.lt_of_le_of_lt (Nat.sub_le_sub_right hle _) h.2⟩

@[simp] theorem live_redirect : (new.redirect b).Live now ↔ b.Live now := by
  rw [redirect]
  split <;> exact Iff.rfl

end Binding

abbrev Registrations := Identity → Binding → Prop

namespace Registrations

variable {Known : Set Identity} {now now' : Nat}

def redirect (R : Registrations) (i : Identity) (new : Binding) : Registrations := fun i' b =>
  if i' = i then ∃ old, R i old ∧ b = new.redirect old else R i' b

section

variable (R : Registrations)

def remove (i : Identity) (aor : String) : Registrations := fun i' b =>
  R i' b ∧ ¬ (i' = i ∧ b.aor = aor)

def put (i : Identity) (new : Binding) : Registrations := fun i' b =>
  (i' = i ∧ b = new) ∨ R.remove i new.aor i' b

def register (i : Identity) (new : Binding) : Registrations :=
  (R.redirect i new).put i new

def unregister (i : Identity) : Registrations := fun i' b =>
  R i' b ∧ i' ≠ i

def close (now : Nat) (transport : Transport) (addr : HostWithPort) :
    Registrations := fun i b =>
  R i b ∧ ¬ b.ClosedBy now transport addr

end

def SameLive (Known : Set Identity) (now : Nat) (R R' : Registrations) : Prop :=
  ∀ i ∈ Known, ∀ b : Binding, b.Live now → (R i b ↔ R' i b)

section

variable (h : SameLive Known now R R')
include h

theorem SameLive.symm : SameLive Known now R' R :=
  fun i hi b hb => (h i hi b hb).symm

theorem SameLive.trans (h' : SameLive Known now R' R'') :
    SameLive Known now R R'' :=
  fun i hi b hb => (h i hi b hb).trans (h' i hi b hb)

theorem SameLive.later (hle : now ≤ now') :
    SameLive Known now' R R' :=
  fun i hi b hb => h i hi b (hb.earlier hle)

theorem SameLive.redirect (i : Identity) (new : Binding) :
    SameLive Known now (R.redirect i new) (R'.redirect i new) := by
  intro i' hi b hb
  rw [Registrations.redirect, Registrations.redirect]
  by_cases hii : i' = i
  · rw [if_pos hii, if_pos hii]
    rw [hii] at hi
    refine exists_congr fun old => and_congr_left fun hbold => h i hi old ?_
    rw [hbold, Binding.live_redirect] at hb
    exact hb
  · rw [if_neg hii, if_neg hii]
    exact h i' hi b hb

end

theorem sameLive_redirect (h : ∀ b, R i b → b.Live now → ¬ new.SharesPhone b) :
    SameLive Known now R (R.redirect i new) := by
  intro i' _ b hb
  rw [Registrations.redirect]
  split
  next hii =>
    rw [hii]
    constructor
    · intro hR
      exact ⟨b, hR, (if_neg (h b hR hb)).symm⟩
    · rintro ⟨old, hR, rfl⟩
      rw [Binding.live_redirect] at hb
      rw [Binding.redirect, if_neg (h old hR hb)]
      exact hR
  · exact Iff.rfl

def OnePhone (now : Nat) (i : Identity) (new : Binding) (R : Registrations) : Prop :=
  ∀ b b', R i b → R i b' → b.Live now → b'.Live now → new.SharesPhone b → new.SharesPhone b' →
    b.aor = b'.aor

section

variable (h : SameLive Known now R R')
include h

theorem SameLive.onePhone (hi : i ∈ Known) (hone : OnePhone now i new R') : OnePhone now i new R :=
  fun b b' hb hb' hlive hlive' =>
    hone b b' ((h i hi b hlive).mp hb) ((h i hi b' hlive').mp hb') hlive hlive'

theorem SameLive.remove (i : Identity) (aor : String) :
    SameLive Known now (R.remove i aor) (R'.remove i aor) :=
  fun i' hi b hb => and_congr_left fun _ => h i' hi b hb

theorem SameLive.put (i : Identity) (new : Binding) :
    SameLive Known now (R.put i new) (R'.put i new) :=
  fun i' hi b hb => or_congr_right (h.remove i new.aor i' hi b hb)

theorem SameLive.register (i : Identity) (new : Binding) :
    SameLive Known now (R.register i new) (R'.register i new) :=
  (h.redirect i new).put i new

theorem SameLive.unregister (i : Identity) :
    SameLive Known now (R.unregister i) (R'.unregister i) :=
  fun i' hi b hb => and_congr_left fun _ => h i' hi b hb

theorem SameLive.close (transport : Transport) (addr : HostWithPort) :
    SameLive Known now (R.close now transport addr) (R'.close now transport addr) :=
  fun i hi b hb => and_congr_left fun _ => h i hi b hb

end

end Registrations

end RustPbx.Proxy
