import RustPbx.Lib.Machine
import RustPbx.Proxy.PresencePromises

/-!
Extensions with a live binding are not offline.

The manager handles the events of the locator while tasks go on to change it. It looks again at the
bindings before it makes an extension offline, except when a user says so
(`unregistered_elsewhere`).
-/

namespace RustPbx.Proxy

open Sip Call List

/-! ## The manager at work -/

structure PresenceSystem where
  locator : LocatorSystem
  handled : Nat
  /-- The bindings of the Offline event at hand that are still to be looked at. -/
  atHand : Option (List Location × LocatorOfflineReason)
  states : PresenceStates

inductive PresenceAction where
  | locator (a : LocatorAction)
  /-- The manager does the next thing, with what the business plane says. -/
  | handle (now : Int) (business : String → Option PresenceState)

namespace PresenceSystem

open PresenceStates

section

variable (s : PresenceSystem)

def handleEvent (now : Int) (business : String → Option PresenceState) :
    LocatorEvent → PresenceSystem
  | .registered loc =>
    { s with handled := s.handled + 1, states := s.states.handleRegistered now business false loc }
  | .refreshed loc =>
    { s with handled := s.handled + 1, states := s.states.handleRegistered now business true loc }
  | .unregistered loc =>
    { s with handled := s.handled + 1, states := s.states.handleUnregistered now loc }
  | .offline locs reason => { s with atHand := some (locs, reason) }

def isActive (extension : String) : Bool :=
  s.locator.locator.hasActiveBindingForUser s.locator.now extension

def handle (now : Int) (business : String → Option PresenceState) : Option PresenceSystem :=
  match s.atHand with
  | none => s.locator.events[s.handled]?.map (s.handleEvent now business)
  | some ([], _) => some { s with handled := s.handled + 1, atHand := none }
  | some (loc :: locs, reason) =>
    -- the decision and its effect are under the lock
    if (getUser loc).isSome && s.locator.holder.isSome then none
    else
      some { s with
        atHand := some (locs, reason)
        states := s.states.handleOffline now s.isActive reason loc }

def step (srv : RegistrarServer) (s : PresenceSystem) : PresenceAction → Option PresenceSystem
  | .locator a => (s.locator.step srv a).map fun locator => { s with locator }
  | .handle now business => s.handle now business

/-- What the events that are not done yet promise. -/
def promised : String → Prop :=
  promise (s.locator.events.drop s.handled) s.states.Online

end

variable {s : PresenceSystem}

/-- Live extensions are promised not to be offline. -/
structure Agrees (srv : RegistrarServer) (s : PresenceSystem) : Prop where
  keeps : s.locator.Keeps srv s.promised
  handled : s.handled ≤ s.locator.events.length
  atHand : s.atHand.isSome = true →
    ∃ locs reason, s.locator.events[s.handled]? = some (.offline locs reason)

theorem promised_eq (h : s.locator.events[s.handled]? = some event) :
    s.promised = promise (s.locator.events.drop (s.handled + 1)) (event.after s.states.Online) := by
  obtain ⟨hlt, rfl⟩ := List.getElem?_eq_some_iff.mp h
  rw [promised, drop_eq_getElem_cons hlt]
  rfl

theorem Agrees.locator (h : s.Agrees srv) {locator : LocatorSystem}
    (hstep : s.locator.step srv a = some locator)
    (hpermits : ∀ task, a = .acquire task → s.locator.Permits srv task) :
    ({ s with locator } : PresenceSystem).Agrees srv := by
  obtain ⟨published, hevents, hkeeps⟩ := (LocatorSystem.Step.of_step hstep).keeps hpermits h.keeps
  constructor
  · have hpromised : ({ s with locator } : PresenceSystem).promised =
        promise published s.promised := by
      rw [promised, promised, ← promise_append]
      rw [hevents, drop_append_of_le_length h.handled]
    rw [hpromised]
    exact hkeeps
  · rw [hevents, length_append]
    exact Nat.le_add_right_of_le h.handled
  · intro hsome
    obtain ⟨locs, reason, hevent⟩ := h.atHand hsome
    refine ⟨locs, reason, ?_⟩
    rw [hevents]
    exact getElem?_append_left (List.getElem?_eq_some_iff.mp hevent).1 ▸ hevent

theorem Agrees.done (h : s.Agrees srv) (hevent : s.locator.events[s.handled]? = some event)
    {states : PresenceStates}
    (honline : ∀ extension, event.after s.states.Online extension → states.Online extension) :
    ({ s with handled := s.handled + 1, atHand := none, states } : PresenceSystem).Agrees srv := by
  constructor
  · refine h.keeps.mono fun extension hpromised => ?_
    rw [promised_eq hevent] at hpromised
    exact promise_mono (honline extension) hpromised
  · exact (List.getElem?_eq_some_iff.mp hevent).1
  · nofun

theorem Agrees.handle (h : s.Agrees srv)
    (hstep : s.handle now business = some s') : s'.Agrees srv := by
  obtain ⟨locator, handled, atHand, states⟩ := s
  rw [PresenceSystem.handle] at hstep
  match atHand with
  | none =>
    obtain ⟨event, hevent, rfl⟩ := Option.map_eq_some_iff.mp hstep
    have hheader := h.keeps.headers event (mem_of_getElem? hevent)
    cases event with
    | registered loc =>
      have hheader := hheader rfl loc (mem_singleton_self loc)
      refine h.done hevent fun extension hafter => ?_
      obtain huser | honline := hafter
      · exact PresenceStates.online_of_registered huser hheader
      · exact honline.handleRegistered now business false hheader
    | refreshed loc =>
      have hheader := hheader rfl loc (mem_singleton_self loc)
      exact h.done hevent fun _ honline => honline.handleRegistered now business true hheader
    | unregistered loc =>
      exact h.done hevent fun _ ⟨huser, honline⟩ => Online.handleUnregistered honline now huser
    | offline locs reason => exact ⟨h.keeps, h.handled, fun _ => ⟨locs, reason, hevent⟩⟩
  | some ([], reason) =>
    cases hstep
    obtain ⟨locs, reason', hevent⟩ := h.atHand rfl
    exact h.done hevent fun _ honline => honline
  | some (loc :: locs, reason) =>
    dsimp only at hstep
    split at hstep
    · cases hstep
    next hlock =>
      cases hstep
      refine ⟨?_, h.handled, fun _ => h.atHand rfl⟩
      cases huser : getUser loc with
      | none =>
        apply h.keeps.mono
        intro extension
        refine promise_mono (fun honline => Online.handleOffline honline now reason loc ?_)
        rw [huser]
        nofun
      | some user =>
        have hfree : locator.holder = none := by
          rw [huser] at hlock
          exact Option.not_isSome_iff_eq_none.mp hlock
        apply h.keeps.free hfree
        intro extension id hserves
        refine promise_mono (fun honline => Online.handleOffline honline now reason loc ?_)
        exact fun _ => hserves.hasActiveBindingForUser h.keeps.filed

/-! ## Runs -/

def Permits (srv : RegistrarServer) (s : PresenceSystem) : PresenceAction → Prop
  | .locator (.acquire task) => s.locator.Permits srv task
  | _ => True

def Runs (srv : RegistrarServer) (C : PresenceSystem → PresenceAction → Prop) :
    PresenceSystem → PresenceSystem → Prop :=
  Relation.ReflTransGen fun s s' => ∃ a, C s a ∧ s.step srv a = some s'

def initial (checker : Option (String → Bool)) (now : Nat) (states : PresenceStates) :
    PresenceSystem :=
  ⟨⟨now, { realmChecker := checker }, [], none⟩, 0, none, states⟩

def HasBinding (s : PresenceSystem) (extension : String) : Prop :=
  ∃ id, s.locator.locator.Serves s.locator.now extension id

theorem agrees_initial (checker : Option (String → Bool)) (now : Nat) (states : PresenceStates) :
    (initial checker now states).Agrees srv := by
  have hempty : ∀ id loc, ¬ ({ realmChecker := checker } : MemoryLocator).Holds id loc := by
    rintro id loc ⟨bindings, key, hrow, -⟩
    exact absurd hrow not_mem_nil
  have hreachable : LocatorSystem.Reachable srv checker (initial checker now states).locator :=
    ⟨now, .refl⟩
  refine ⟨⟨hreachable.consistent, ?_, ?_, ?_, ?_⟩, Nat.le_refl 0, nofun⟩
  · exact fun id loc hloc => absurd hloc (hempty id loc)
  · exact fun event hevent => absurd hevent not_mem_nil
  · intro holder (hnone : none = some holder)
    cases hnone
  · rintro extension id ⟨loc, hloc, -⟩
    exact absurd hloc (hempty id loc)

theorem Agrees.step (h : s.Agrees srv) (hpermits : s.Permits srv a)
    (hstep : s.step srv a = some s') : s'.Agrees srv := by
  cases a with
  | locator a =>
    obtain ⟨locator, hlocator, rfl⟩ := Option.map_eq_some_iff.mp hstep
    apply h.locator hlocator
    rintro task rfl
    exact hpermits
  | handle now business => exact h.handle hstep

theorem Runs.agrees (h : Runs srv (Permits srv) s s') (hs : s.Agrees srv) : s'.Agrees srv := by
  induction h with
  | refl => exact hs
  | tail _ hstep ih =>
    obtain ⟨a, hpermits, hstep⟩ := hstep
    exact ih.step hpermits hstep

/-- **Extensions with a binding** that is not expired are not offline once all events are done and
no task is under way, if every task had what it needs. -/
theorem registered_not_offline {checker : Option (String → Bool)} {now : Nat}
    {states : PresenceStates} (hruns : Runs srv (Permits srv) (initial checker now states) s)
    (hfree : s.locator.holder = none) (hdone : s.handled = s.locator.events.length)
    {extension : String} (hbinding : s.HasBinding extension) (timestamp : Int) :
    (s.states.getState timestamp extension).status ≠ .offline := by
  obtain ⟨id, hserves⟩ := hbinding
  have hkeeps := (hruns.agrees (agrees_initial checker now states)).keeps
  have hpromised : s.promised extension :=
    hkeeps.kept hserves (LocatorSystem.settled_of hfree trivial)
  -- nothing is left that could make it offline
  rw [promised, hdone, drop_length] at hpromised
  exact hpromised.getState timestamp

def run (srv : RegistrarServer) (s : PresenceSystem) (actions : List PresenceAction) :
    Option PresenceSystem :=
  actions.foldlM (fun s a => s.step srv a) s

theorem Runs.of_run
    (hallowed : ∀ a ∈ actions, ∀ s, C s a) (h : s.run srv actions = some s') : Runs srv C s s' :=
  Machine.Runs.steps .refl h hallowed

theorem hasBinding_of_any (h : s.locator.locator.all.any (fun loc =>
      !loc.isExpiredAt s.locator.now && getUser loc == some extension) = true) :
    s.HasBinding extension := by
  obtain ⟨loc, hmem, hlive⟩ := any_eq_true.mp h
  rw [Bool.and_eq_true, Bool.not_eq_true', beq_iff_eq] at hlive
  obtain ⟨id, hholds⟩ := MemoryLocator.holds_of_mem_all hmem
  exact ⟨id, loc, hholds, hlive⟩

def phoneActions (c : ContactRequest) (steps : List LocatorAction) : List PresenceAction :=
  .locator (.acquire (.register c)) :: (steps.map .locator ++ [.handle 0 fun _ => none])

theorem Runs.of_phoneActions (hpermits : s.locator.Permits srv (.register c))
    (hsteps : ∀ task, .acquire task ∉ steps) (h : s.run srv (phoneActions c steps) = some s') :
    Runs srv (Permits srv) s s' := by
  obtain ⟨next, hnext, hrest⟩ := Option.bind_eq_some_iff.mp h
  refine .head ⟨.locator (.acquire (.register c)), hpermits, hnext⟩
    (Runs.of_run (fun a ha s => ?_) hrest)
  obtain ha | ha := mem_append.mp ha
  · obtain ⟨step, hstep, rfl⟩ := mem_map.mp ha
    cases step with
    | acquire task => exact absurd hstep (hsteps task)
    | _ => trivial
  · rw [mem_singleton.mp ha]
    trivial

theorem registered_not_offline_phone :
    ∃ s, Runs LocatorSystem.plainRegistrar (Permits LocatorSystem.plainRegistrar)
        (initial none 0 ∅) s ∧
      s.HasBinding "1001" ∧ (s.states.getState 0 "1001").status ≠ .offline := by
  have hpermits : (initial none 0 ∅).locator.Permits LocatorSystem.plainRegistrar
      (.register (LocatorSystem.phoneContact "1001" (some "a.example") "1001" 60)) := by
    refine ⟨⟨?_, rfl⟩, nofun, ?_⟩
    · rintro user (⟨⟨⟩⟩ | ⟨⟨⟩⟩) <;> rfl
    · rintro - ⟨-, loc, ⟨bindings, key, hrow, -⟩, -⟩
      exact absurd hrow not_mem_nil
  obtain ⟨s, hrun, hfree, hdone, hany⟩ : ∃ s, (initial none 0 ∅).run LocatorSystem.plainRegistrar
        (phoneActions (LocatorSystem.phoneContact "1001" (some "a.example") "1001" 60)
          [.advance, .advance, .advance]) = some s ∧
      s.locator.holder = none ∧ s.handled = s.locator.events.length ∧
      s.locator.locator.all.any (fun loc =>
        !loc.isExpiredAt s.locator.now && getUser loc == some "1001") = true :=
    ⟨_, rfl, rfl, rfl, rfl⟩
  have hruns := Runs.of_phoneActions hpermits (by simp) hrun
  have hbinding := hasBinding_of_any hany
  exact ⟨s, hruns, hbinding, registered_not_offline hruns hfree hdone hbinding 0⟩

/-- A user in two realms: when the user goes from one, the extension goes offline in the other. -/
theorem unregistered_elsewhere :
    ∃ s, Runs LocatorSystem.plainRegistrar (fun _ _ => True) (initial none 0 ∅) s ∧
      s.locator.holder = none ∧ s.handled = s.locator.events.length ∧ s.HasBinding "1001" ∧
      (s.states.getState 0 "1001").status = .offline := by
  obtain ⟨s, hs⟩ : ∃ s, (initial none 0 ∅).run LocatorSystem.plainRegistrar
      (phoneActions (LocatorSystem.phoneContact "1001" (some "a.example") "1001" 60)
          [.advance, .advance, .advance] ++
        phoneActions (LocatorSystem.phoneContact "1001" (some "b.example") "1001" 60)
          [.advance, .advance, .advance] ++
        phoneActions (LocatorSystem.phoneContact "1001" (some "a.example") "1001" 0)
          [.advance, .advance, .recheck "1001" (some "a.example"), .advance]) = some s ∧
      s.locator.holder = none ∧ s.handled = s.locator.events.length ∧
      s.locator.locator.all.any (fun loc =>
        !loc.isExpiredAt s.locator.now && getUser loc == some "1001") = true ∧
      (s.states.getState 0 "1001").status = .offline :=
    ⟨_, rfl, rfl, rfl, rfl, rfl⟩
  obtain ⟨hrun, hfree, hdone, hany, hoffline⟩ := hs
  exact ⟨s, .of_run (fun _ _ _ => trivial) hrun, hfree, hdone, hasBinding_of_any hany, hoffline⟩

end PresenceSystem

end RustPbx.Proxy
