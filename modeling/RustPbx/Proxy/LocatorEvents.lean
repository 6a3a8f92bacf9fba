import RustPbx.Proxy.LocatorSystem

/-!
The events of the locator.

`Consistent` is what holds in every state of the tasks that change the locator.
A REGISTER whose steps nothing comes between is a run of them, to what the registrar leaves.
-/

namespace RustPbx.Proxy

open Sip Call MemoryLocator List Option Registry

namespace LocatorSystem

/-! ## Consistency -/

/-- The last event about an identifier reports a binding that was made. -/
def LastUp (s : LocatorSystem) (id : String) : Prop :=
  ∃ event, s.locator.lastEvent s.events id = some event ∧ event.isUp = true

/-- The event that a REGISTER is about to publish is about a binding that was made, and the bindings
to be reported as gone belong to users without any. -/
def HolderFits (s : LocatorSystem) : LockHolder → Prop
  | .publishing event => event.isUp = true
  | .rechecking pending offline _ => Grouped pending ∧
    ∀ loc ∈ offline, ∀ id, s.locator.ownerOf loc = some id → ¬ s.locator.Active s.now id
  | _ => True

/-- What holds in every state. -/
structure Consistent (s : LocatorSystem) : Prop where
  /-- A live identifier was last reported as live, or is about to be. -/
  last : ∀ id, s.locator.Active s.now id → s.LastUp id ∨
    ∃ event, s.holder = some (.publishing event) ∧ s.locator.concerns id event = true
  fits : ∀ holder, s.holder = some holder → s.HolderFits holder

def silent : Option LockHolder → Prop
  | some (.publishing _) => False
  | _ => True

/-- No event is about to be published. -/
def Settled (s : LocatorSystem) : Prop :=
  silent s.holder

variable {s : LocatorSystem} {id : String} {removal : Removal}

theorem settled_of (h : s.holder = task?) (hsilent : silent task?) : s.Settled := by
  rw [Settled, h]
  exact hsilent

theorem Settled.not_publishing (h : s.Settled) :
    s.holder ≠ some (.publishing event) := by
  intro hevent
  rw [Settled, hevent] at h
  exact h

theorem Consistent.lastUp (h : s.Consistent) (hactive : s.locator.Active s.now id)
    (hsettled : s.Settled) : s.LastUp id := by
  obtain hlast | ⟨event, hevent, -⟩ := h.last id hactive
  · exact hlast
  · exact absurd hevent hsettled.not_publishing

theorem Consistent.removing (h : s.Consistent)
    (hsettled : s.Settled) {locator : MemoryLocator}
    (hrealms : locator.realmChecker = s.locator.realmChecker)
    (hactive : ∀ id, locator.Active s.now id → s.locator.Active s.now id)
    (removed : List Location) (removal : Removal) :
    (s.removing locator removed removal).Consistent := by
  constructor
  · intro id hid
    refine .inl ?_
    change ∃ event, locator.lastEvent s.events id = some event ∧ _
    rw [lastEvent_congr hrealms]
    exact h.lastUp (hactive id hid) hsettled
  · rintro _ ⟨⟩
    exact ⟨grouped_groupByUser, fun _ hloc => absurd hloc not_mem_nil⟩

theorem Consistent.announcing (h : s.Consistent)
    (hsettled : s.Settled) {locator : MemoryLocator}
    (hrealms : locator.realmChecker = s.locator.realmChecker) (hup : event.isUp = true)
    (hactive : ∀ id, locator.Active s.now id →
      s.locator.Active s.now id ∨ s.locator.concerns id event = true) :
    (s.announcing locator event).Consistent := by
  constructor
  · intro id hid
    obtain hbefore | hconcerns := hactive id hid
    · refine .inl ?_
      change ∃ event, locator.lastEvent s.events id = some event ∧ _
      rw [lastEvent_congr hrealms]
      exact h.lastUp hbefore hsettled
    · refine .inr ⟨event, rfl, ?_⟩
      change locator.concerns id event = true
      rw [concerns_congr hrealms]
      exact hconcerns
  · rintro _ ⟨⟩
    exact hup

theorem Consistent.hold (h : s.Consistent) (hsettled : s.Settled) (hfits : s.HolderFits task) :
    ({ s with holder := some task } : LocatorSystem).Consistent := by
  constructor
  · exact fun id hactive => .inl (h.lastUp hactive hsettled)
  · rintro _ ⟨⟩
    exact hfits

theorem Consistent.released {events : List LocatorEvent} (hlast : ∀ id, s.locator.Active s.now id →
      ({ s with events, holder := none } : LocatorSystem).LastUp id) :
    ({ s with events, holder := none } : LocatorSystem).Consistent := by
  constructor
  · exact fun id hactive => .inl (hlast id hactive)
  · intro holder (hnone : none = some holder)
    cases hnone

theorem Removal.event_spec (h : removal.event offline = some event) :
    event.isUp = false ∧ ∀ loc ∈ event.locations, loc ∈ offline := by
  cases offline with
  | nil => cases removal <;> cases h
  | cons loc locs =>
    cases removal with
    | unregistered =>
      cases h
      exact ⟨rfl, fun _ hloc => mem_singleton.mp hloc ▸ mem_cons_self⟩
    | offline reason =>
      cases h
      exact ⟨rfl, fun _ hloc => hloc⟩

theorem LastUp.append (h : s.LastUp id)
    (hother : ∀ e, event = some e → s.locator.concerns id e = false) :
    ({ s with events := s.events ++ event.toList, holder := none } : LocatorSystem).LastUp id := by
  cases event with
  | none =>
    change ∃ event, s.locator.lastEvent (s.events ++ []) id = some event ∧ _
    rw [append_nil]
    exact h
  | some e =>
    change ∃ event, s.locator.lastEvent (s.events ++ [e]) id = some event ∧ _
    rw [lastEvent_append_singleton, hother e rfl]
    exact h

theorem Consistent.not_concerns (h : s.Consistent)
    (hholder : s.holder = some (.rechecking pending offline removal))
    (hevent : removal.event offline = some event) (hactive : s.locator.Active s.now id) :
    s.locator.concerns id event = false := by
  rw [Bool.eq_false_iff]
  intro hconcerns
  obtain ⟨loc, hloc, howner⟩ := concerns_eq_true.mp hconcerns
  have hoffline := (Removal.event_spec hevent).2 loc hloc
  exact (h.fits _ hholder).2 loc hoffline id howner hactive

theorem ContactRequest.concerns_location (c : ContactRequest) (l : MemoryLocator)
    (isRefresh : Bool) : l.concerns (l.getIdentifier c.user.username c.user.realm)
      (if isRefresh then .refreshed (c.location srv) else .registered (c.location srv)) = true := by
  refine concerns_eq_true.mpr ⟨c.location srv, ?_, rfl⟩
  cases isRefresh
  · exact mem_singleton_self _
  · exact mem_singleton_self _

theorem Step.consistent (hstep : s.Step srv a s') (h : s.Consistent) : s'.Consistent := by
  cases hstep with
  | @pass now hle =>
    constructor
    · exact fun id hactive => h.last id (hactive.earlier hle)
    · intro holder hholder
      have hfits := h.fits holder hholder
      cases holder with
      | rechecking pending offline removal =>
        refine ⟨hfits.1, fun loc hloc id howner hactive => ?_⟩
        exact hfits.2 loc hloc id howner (hactive.earlier hle)
      | start | checked => trivial
      | publishing event => exact hfits
  | acquire hfree | check hfree =>
    exact h.hold (settled_of hfree trivial) trivial
  | unregister hholder =>
    exact h.removing (settled_of hholder trivial) (unregister_realmChecker _ _ _)
      (fun _ => active_of_unregister) _ _
  | close hholder | sweep hholder =>
    exact h.removing (settled_of hholder trivial) dropBindings_realmChecker
      (fun _ => active_of_dropBindings) _ _
  | remove hholder hexpires =>
    apply h.removing (settled_of hholder trivial)
      (register_realmChecker _ _ _ _ _ _)
    intro id hactive
    obtain hbefore | ⟨-, hlifetime⟩ := active_of_register hactive
    · exact hbefore
    · exact absurd hexpires hlifetime
  | @register c isRefresh hholder hexpires =>
    apply h.announcing (settled_of hholder trivial)
      (register_realmChecker _ _ _ _ _ _)
    · cases isRefresh <;> rfl
    · intro id hactive
      obtain hbefore | ⟨hid, -⟩ := active_of_register hactive
      · exact .inl hbefore
      · rw [hid]
        exact .inr (ContactRequest.concerns_location c s.locator isRefresh)
  | @publish event hholder =>
    apply Consistent.released
    intro id hactive
    cases hconcerns : s.locator.concerns id event with
    | true =>
      refine ⟨event, ?_, h.fits _ hholder⟩
      rw [lastEvent_append_singleton, hconcerns, if_pos rfl]
    | false =>
      obtain hlast | ⟨event', hevent', hconcerns'⟩ := h.last id hactive
      · exact hlast.append fun e he => some.inj he ▸ hconcerns
      · cases hholder.symm.trans hevent'
        rw [hconcerns'] at hconcerns
        cases hconcerns
  | @report pending offline removal hholder =>
    apply Consistent.released
    intro id hactive
    apply (h.lastUp hactive (settled_of hholder trivial)).append
    intro event hevent
    exact h.not_concerns hholder hevent hactive
  | keep hholder =>
    have hfits := h.fits _ hholder
    exact h.hold (settled_of hholder trivial) ⟨hfits.1.erase _, hfits.2⟩
  | @drop username realm pending offline locs removal hholder hlocs hgone =>
    have hfits := h.fits _ hholder
    refine h.hold (settled_of hholder trivial) ⟨hfits.1.erase _, fun loc hloc id howner => ?_⟩
    obtain hold | hnew := mem_append.mp hloc
    · exact hfits.2 loc hold id howner
    · obtain ⟨husername, hrealm⟩ := hfits.1 username realm locs hlocs loc hnew
      rw [ownerOf, husername, hrealm] at howner
      rw [← some.inj howner]
      exact hgone

/-! ## Runs -/

/-- One after the other, steps lead from one state to another. -/
def Steps (srv : RegistrarServer) : LocatorSystem → LocatorSystem → Prop :=
  Relation.ReflTransGen fun s s' => ∃ a, s.step srv a = some s'

theorem Steps.tail (h : Steps srv s s') (hstep : s'.step srv a = some s'') : Steps srv s s'' :=
  Relation.ReflTransGen.tail h ⟨a, hstep⟩

/-- The states that come about from an empty locator. -/
def Reachable (srv : RegistrarServer) (checker : Option (String → Bool)) (s : LocatorSystem) :
    Prop :=
  ∃ now, Steps srv ⟨now, { realmChecker := checker }, [], none⟩ s

theorem not_active_empty (checker : Option (String → Bool)) (now : Nat) (id : String) :
    ¬ ({ realmChecker := checker } : MemoryLocator).Active now id := by
  rintro ⟨-, loc, ⟨bindings, key, hrow, -⟩, -⟩
  exact absurd hrow not_mem_nil

theorem Reachable.consistent (h : Reachable srv checker s) :
    s.Consistent := by
  obtain ⟨now, hruns⟩ := h
  induction hruns with
  | refl =>
    constructor
    · exact fun id hactive => absurd hactive (not_active_empty checker now id)
    · intro holder (hnone : none = some holder)
      cases hnone
  | tail _ hstep ih =>
    obtain ⟨a, hstep⟩ := hstep
    exact (Step.of_step hstep).consistent ih

theorem Step.published (hstep : s.Step srv a s') (h : s.Consistent)
    (hevents : s'.events = s.events ++ [event]) (hdown : event.isUp = false)
    (hloc : loc ∈ event.locations) (howner : s.locator.ownerOf loc = some id) :
    ¬ s.locator.Active s.now id := by
  have hsame : s.events ≠ s.events ++ [event] := by
    intro hsame
    have hlength := congrArg length hsame
    rw [length_append, length_singleton] at hlength
    omega
  cases hstep with
  | pass | acquire | check | keep | drop => exact absurd hevents hsame
  | unregister | close | sweep | remove =>
    rw [removing_events] at hevents
    exact absurd hevents hsame
  | register =>
    rw [announcing_events] at hevents
    exact absurd hevents hsame
  | publish hholder =>
    cases append_cancel_left hevents
    rw [h.fits _ hholder] at hdown
    cases hdown
  | @report pending offline removal hholder =>
    have hevent : removal.event offline = some event := by
      have htoList := append_cancel_left hevents
      cases hremoval : removal.event offline with
      | none =>
        rw [hremoval] at htoList
        cases htoList
      | some e =>
        rw [hremoval] at htoList
        cases htoList
        rfl
    exact (h.fits _ hholder).2 loc ((Removal.event_spec hevent).2 loc hloc) id howner

/-- **Events and bindings**: in every reachable state, when the lock is free, the last event about a
user with a live binding says that the user registered, and events about users that are gone are
published while they have no live binding. -/
theorem events_consistent {checker : Option (String → Bool)} {s : LocatorSystem}
    (h : Reachable srv checker s) : (s.holder = none → ∀ username realm,
      s.locator.hasActiveBindings s.now username realm = true →
      ∃ event, s.locator.lastEvent s.events (s.locator.getIdentifier username realm) =
        some event ∧ event.isUp = true) ∧
    ∀ a s' event, s.step srv a = some s' → s'.events = s.events ++ [event] →
      event.isUp = false → ∀ loc ∈ event.locations, ∀ username,
      loc.registeredUsername = some username →
      s.locator.hasActiveBindings s.now username loc.registeredRealm = false := by
  constructor
  · intro hfree username realm hactive
    exact h.consistent.lastUp (hasActiveBindings_iff.mp hactive) (settled_of hfree trivial)
  · intro a s' event hstep hevents hdown loc hloc username husername
    rw [Bool.eq_false_iff]
    intro hactive
    have howner : s.locator.ownerOf loc =
        some (s.locator.getIdentifier username loc.registeredRealm) := by
      rw [ownerOf, husername, map_some]
    exact (Step.of_step hstep).published h.consistent hevents hdown hloc howner
      (hasActiveBindings_iff.mp hactive)

def plainRegistrar : RegistrarServer where
  lib := {
    parseAuthorization := fun _ => none
    parseContact := fun _ => none
    uri := {
      parse := fun _ => .error ""
      print := fun uri => uri.user.getD "" ++ "@" ++ uri.hostText
      parseHostWithPort := fun _ => .error "" }
    sipScheme := fun _ => .sip }
  verifyDigest := fun _ _ _ _ => false
  getUser := fun _ _ _ => .ok none
  isSameRealm := fun _ => false
  locatorEvents := true

def phoneUri (user : String) : Uri :=
  ⟨some .sip, some ⟨user, none⟩, ⟨.domain "phone".toList, none⟩, []⟩

def phoneContact (username : String) (realm : Option String) (extension : String)
    (expires : Nat) : ContactRequest where
  tx := ⟨{ method := .register, uri := phoneUri "" }, none, []⟩
  user := { username, realm }
  registeredAor := phoneUri extension
  expires
  contact := ⟨none, phoneUri username, "", [], true⟩
  built := 0

def registeredPhone : LocatorSystem where
  now := 0
  locator := ({} : MemoryLocator).register plainRegistrar.lib.uri 0 "alice" none
    ((phoneContact "alice" none "1001" 60).location plainRegistrar)
  events := [.registered ((phoneContact "alice" none "1001" 60).location plainRegistrar)]
  holder := none

theorem reachable_registeredPhone : Reachable plainRegistrar none registeredPhone := by
  have hstart : Steps plainRegistrar ⟨0, {}, [], none⟩
      ⟨0, {}, [], some (.checked (phoneContact "alice" none "1001" 60) false)⟩ :=
    (Steps.tail (a := .acquire (.register (phoneContact "alice" none "1001" 60))) .refl
      rfl).tail (a := .advance) rfl
  exact ⟨0, (hstart.tail (a := .advance) rfl).tail (a := .advance) rfl⟩

theorem events_consistent_phone : (∃ event, registeredPhone.locator.lastEvent registeredPhone.events
      (registeredPhone.locator.getIdentifier "alice" none) = some event ∧ event.isUp = true) ∧
    ∃ (s s' : LocatorSystem) (event : LocatorEvent),
      s.step plainRegistrar .advance = some s' ∧ s'.events = s.events ++ [event] ∧
      event.isUp = false ∧ ∃ loc ∈ event.locations, loc.registeredUsername = some "alice" ∧
        s.locator.hasActiveBindings s.now "alice" loc.registeredRealm = false := by
  obtain ⟨now, hsteps⟩ := reachable_registeredPhone
  have hgone := ((hsteps.tail
    (a := .acquire (.register (phoneContact "alice" none "1001" 0))) rfl).tail
      (a := .advance) rfl).tail (a := .advance) rfl
  have hrechecked : Reachable plainRegistrar none _ :=
    ⟨now, hgone.tail (a := .recheck "alice" none) rfl⟩
  exact ⟨(events_consistent reachable_registeredPhone).1 rfl "alice" none (by decide),
    _, _, .unregistered _, rfl, rfl, rfl, _, .head _, rfl,
    (events_consistent hrechecked).2 .advance _ _ rfl rfl rfl _ (.head _) "alice" rfl⟩

def registry (s : LocatorSystem) : Registry :=
  ⟨s.locator, s.events⟩

theorem unregistered_event (now : Nat)
    (husername : loc.registeredUsername = some username) : (Removal.event .unregistered
      (if l.hasActiveBindings now username loc.registeredRealm then [] else [loc])).toList =
    (locationsWithoutActiveBindings l now [loc]).map .unregistered := by
  rw [locationsWithoutActiveBindings, filter_cons, husername, any_some]
  generalize l.hasActiveBindings now username loc.registeredRealm = active
  cases active <;> rfl

theorem steps_removing (hevents : srv.locatorEvents = true) (locator : MemoryLocator)
    (husername : loc.registeredUsername = some username) :
    ∃ s', Steps srv (s.removing locator [loc] .unregistered) s' ∧ s'.holder = none ∧
      s'.now = s.now ∧ s'.registry = sendUnregistered srv s.now ⟨locator, s.events⟩ loc := by
  have hgroups : groupByUser [loc] =
      (∅ : UserGroups).insert (username, loc.registeredRealm) [loc] := by
    rw [groupByUser, foldl_cons, husername]
    rfl
  have hempty : ((groupByUser [loc]).erase (username, loc.registeredRealm)).entries.isEmpty := by
    rw [hgroups]
    exact isEmpty_iff.mpr (kerase_cons_eq rfl)
  have hrecheck : (s.removing locator [loc] .unregistered).step srv
      (.recheck username loc.registeredRealm) = some ⟨s.now, locator, s.events,
        some (.rechecking ((groupByUser [loc]).erase (username, loc.registeredRealm))
          (if locator.hasActiveBindings s.now username loc.registeredRealm then [] else [loc])
          .unregistered)⟩ := by
    rw [removing, step]
    dsimp only
    rw [hgroups, AList.lookup_insert, map_some, nil_append]
  refine ⟨_, (Steps.tail .refl hrecheck).tail (a := .advance) (if_pos hempty), rfl, rfl, ?_⟩
  rw [sendUnregistered, if_pos hevents, ← unregistered_event s.now husername]
  rfl

theorem steps_registerContact (tx : Transaction) (user : SipUser) (registeredAor : Uri)
    (contact : ParsedContact) (hevents : srv.locatorEvents = true) (hfree : s.holder = none)
    (globalExpires : Option Nat) : ∃ s', Steps srv s s' ∧ s'.holder = none ∧ s'.now = s.now ∧
      s'.registry = s.registry.registerContact srv s.now tx user registeredAor globalExpires
        contact := by
  obtain ⟨now, locator, events, holder⟩ := s
  cases hfree
  let c : ContactRequest := ⟨tx, user, registeredAor,
    grantedExpires srv globalExpires contact, contact, now⟩
  let isRefresh := c.expires != 0 && locator.hasActiveBindings now user.username user.realm
  let event : LocatorEvent :=
    if isRefresh then .refreshed (c.location srv) else .registered (c.location srv)
  have hcheck : (⟨now, locator, events, some (.start (.register c))⟩ : LocatorSystem).step srv
      .advance = some ⟨now, locator, events, some (.checked c isRefresh)⟩ := rfl
  have hstart : Steps srv ⟨now, locator, events, none⟩ _ :=
    (Steps.tail (a := .acquire (.register c)) .refl rfl).tail hcheck
  generalize hlocator :
    locator.register srv.lib.uri now user.username user.realm (c.location srv) = locator'
  have hadvance : (⟨now, locator, events, some (.checked c isRefresh)⟩ : LocatorSystem).step srv
      .advance = if c.expires = 0 then
        some (removing ⟨now, locator, events, none⟩ locator' [c.location srv] .unregistered)
      else some (announcing ⟨now, locator, events, none⟩ locator' event) := by
    rw [← hlocator]
    rfl
  have hregistry : registerContact srv now tx user registeredAor globalExpires ⟨locator, events⟩
      contact = if c.expires = 0 then sendUnregistered srv now ⟨locator', events⟩ (c.location srv)
      else ⟨locator', events ++ [event]⟩ := by
    rw [← hlocator, registerContact]
    simp only [hevents]
    rfl
  rw [registry, hregistry]
  by_cases hexpires : c.expires = 0
  · rw [if_pos hexpires] at hadvance ⊢
    obtain ⟨s', hsteps, hdone⟩ := steps_removing (s := ⟨now, locator, events, none⟩) hevents
      locator' (rfl : (c.location srv).registeredUsername = _)
    exact ⟨s', (hstart.tail hadvance).trans hsteps, hdone⟩
  · rw [if_neg hexpires] at hadvance ⊢
    exact ⟨_, (hstart.tail hadvance).tail (a := .advance) rfl, rfl, rfl, rfl⟩

/-- **A REGISTER that no other task comes between** is a run of the system, and leaves the bindings
and the events that `registrar` leaves. -/
theorem steps_registrar (srv : RegistrarServer) (s : LocatorSystem) (tx : Transaction)
    (cookie : TransactionCookie) (hevents : srv.locatorEvents = true) (hfree : s.holder = none) :
    ∃ s', Steps srv s s' ∧ s'.holder = none ∧
      s'.registry = (registrar srv s.now tx cookie s.registry).2.2 := by
  have hcontacts (user : SipUser) (aor : Uri) (globalExpires : Option Nat)
      (contacts : List ParsedContact) : ∀ t : LocatorSystem, t.now = s.now → t.holder = none →
      ∃ s', Steps srv t s' ∧ s'.holder = none ∧ s'.registry = contacts.foldl
        (Registry.registerContact srv s.now tx user aor globalExpires) t.registry := by
    induction contacts with
    | nil => exact fun t _ hfree => ⟨t, .refl, hfree, rfl⟩
    | cons contact contacts ih =>
      intro t hnow hfree
      obtain ⟨t', hsteps, hfree', hnow', hregistry⟩ :=
        steps_registerContact tx user aor contact hevents hfree globalExpires
      obtain ⟨s', hrest, hdone⟩ := ih t' (hnow'.trans hnow) hfree'
      rw [hregistry, hnow] at hdone
      exact ⟨s', hsteps.trans hrest, hdone⟩
  unfold registrar
  split
  · exact ⟨s, .refl, hfree, rfl⟩
  split
  · exact ⟨s, .refl, hfree, rfl⟩
  next request headers _ =>
    cases request with
    | register user aor globalExpires contacts =>
      exact hcontacts user aor globalExpires contacts s rfl hfree
    | unregisterAll user aor =>
      obtain ⟨now, locator, events, holder⟩ := s
      cases hfree
      obtain ⟨s', hsteps, hdone, -, hregistry⟩ := steps_removing (s := ⟨now, locator, events, none⟩)
        hevents (locator.unregister user.username user.realm)
        (rfl : (wildcardLocation user aor).registeredUsername = _)
      refine ⟨s', Relation.ReflTransGen.trans ?_ hsteps, hdone, hregistry⟩
      exact (Steps.tail (a := .acquire (.unregisterAll user aor)) .refl rfl).tail
        (a := .advance) rfl

def phoneRegistrar : RegistrarServer :=
  let uris := { plainRegistrar.lib.uri with parse := fun _ => .ok (phoneUri "alice") }
  { plainRegistrar with lib := { plainRegistrar.lib with uri := uris } }

def phoneRegisters : Transaction where
  original := {
    method := .register
    uri := phoneUri ""
    headers := [.contact "<sip:alice@phone>".toList]
    toHeader := some { uri := some (phoneUri "1001") } }

theorem steps_registrar_phone :
    let after := (registrar phoneRegistrar 0 phoneRegisters { user := some { username := "alice" } }
      ⟨{}, []⟩).2.2
    after.locator.hasActiveBindings 0 "alice" none = true ∧
      ∃ s, Steps phoneRegistrar ⟨0, {}, [], none⟩ s ∧ s.holder = none ∧ s.registry = after :=
  ⟨by decide, steps_registrar phoneRegistrar ⟨0, {}, [], none⟩ phoneRegisters _ rfl rfl⟩

end LocatorSystem

end RustPbx.Proxy
