import RustPbx.Proxy.Registrar

/-!
The tasks that change the locator.

A REGISTER, a closed connection and the sweep change the locator and publish what they did while
they hold one lock, in several steps. An operation that has removed bindings looks again whether a
user has one left, and publishes only the users without one.
-/

namespace RustPbx.Proxy

open Sip Call List Table

namespace MemoryLocator

/-- An identifier has a binding that is not expired. -/
def Active (l : MemoryLocator) (now : Nat) (id : String) : Prop :=
  id ≠ "" ∧ ∃ loc, l.Holds id loc ∧ loc.isExpiredAt now = false

variable {l : MemoryLocator} {id : String}

theorem hasActiveBindings_iff : l.hasActiveBindings now username realm = true ↔
      l.Active now (l.getIdentifier username realm) := by
  rw [hasActiveBindings, Bool.and_eq_true, bne_iff_ne, Option.any_eq_true]
  refine and_congr_right fun _ => ⟨?_, ?_⟩
  · rintro ⟨bindings, hlookup, hany⟩
    obtain ⟨loc, hloc, hlive⟩ := any_eq_true.mp hany
    obtain ⟨key, hrow⟩ := row_of_mem_values hloc
    exact ⟨loc, ⟨bindings, key, row_of_lookup hlookup, hrow⟩, Bool.not_eq_true' _ ▸ hlive⟩
  · rintro ⟨loc, ⟨bindings, key, hrow, hbinding⟩, hlive⟩
    refine ⟨bindings, hrow.lookup, any_eq_true.mpr ⟨loc, ?_, Bool.not_eq_true' _ ▸ hlive⟩⟩
    exact mem_map_of_mem hbinding

theorem isExpiredAt_mono {loc : Location} (hle : now ≤ now') (h : loc.isExpiredAt now = true) :
    loc.isExpiredAt now' = true := by
  rw [Location.isExpiredAt, Bool.or_eq_true, Option.any_eq_true] at h ⊢
  refine h.imp_right ?_
  rintro ⟨modified, hmodified, hold⟩
  refine ⟨modified, hmodified, decide_eq_true ?_⟩
  have hold := of_decide_eq_true hold
  omega

theorem Active.earlier (hle : now ≤ now') (h : l.Active now' id) : l.Active now id := by
  obtain ⟨hid, loc, hholds, hlive⟩ := h
  refine ⟨hid, loc, hholds, ?_⟩
  cases hexpired : loc.isExpiredAt now with
  | false => rfl
  | true =>
    rw [isExpiredAt_mono hle hexpired] at hlive
    cases hlive

theorem active_of_unregister (h : (l.unregister username realm).Active now id) :
    l.Active now id := by
  obtain ⟨hid, loc, hholds, hlive⟩ := h
  exact ⟨hid, loc, unregister_holds hholds, hlive⟩

/-- What every change of the bindings of one identifier keeps. -/
theorem dropBindings_induction {P : MemoryLocator → Prop} (h : P l)
    (hstep : ∀ l' id, P l' → P (l'.updateBindings id (·.retain fun _ loc => !p loc))) :
    P (l.dropBindings p) := by
  have hrows : ∀ (rows : List (Sigma fun _ : String => Table String Location))
      (l' : MemoryLocator), P l' → P (rows.foldl (fun l row =>
        l.updateBindings row.1 (·.retain fun _ loc => !p loc)) l') := by
    intro rows
    induction rows with
    | nil => exact fun _ h => h
    | cons row rows ih => exact fun l' h => ih _ (hstep l' row.1 h)
  exact hrows _ l h

theorem dropBindings_holds (h : (l.dropBindings p).Holds id loc) : l.Holds id loc := by
  revert h
  apply dropBindings_induction (P := fun l' => l'.Holds id loc → l.Holds id loc)
  · exact fun h => h
  · intro l' id' ih h
    exact ih (updateBindings_holds_of_sub (fun _ _ _ => row_of_retain) h)

theorem active_of_dropBindings (h : (l.dropBindings p).Active now id) : l.Active now id := by
  obtain ⟨hid, loc, hholds, hlive⟩ := h
  exact ⟨hid, loc, dropBindings_holds hholds, hlive⟩

theorem active_of_register (h : (l.register uris now username realm location).Active now' id) :
    l.Active now' id ∨ id = l.getIdentifier username realm ∧ location.expires ≠ 0 := by
  obtain ⟨hne, loc, hholds, hlive⟩ := h
  obtain hold | ⟨hid, hnew | ⟨old, hold, hloc⟩⟩ := register_holds hholds
  · exact .inl ⟨hne, loc, hold, hlive⟩
  · refine .inr ⟨hid, fun hexpires => ?_⟩
    have hexpired : loc.isExpiredAt now' = true := by
      rw [hnew, touch, stamp, hexpires]
      rfl
    rw [hexpired] at hlive
    cases hlive
  · have hsame : loc.isExpiredAt now' = old.isExpiredAt now' := by
      rw [hloc]
      rfl
    exact .inl ⟨hne, old, hold, hsame ▸ hlive⟩

@[simp] theorem dropBindings_realmChecker : (l.dropBindings p).realmChecker = l.realmChecker := by
  apply dropBindings_induction (P := fun l' => l'.realmChecker = l.realmChecker)
  · rfl
  · exact fun l' id ih => (updateBindings_realmChecker ..).trans ih

end MemoryLocator

/-! ## Events and identities -/

namespace LocatorEvent

def locations : LocatorEvent → List Location
  | .registered loc => [loc]
  | .refreshed loc => [loc]
  | .unregistered loc => [loc]
  | .offline locs _ => locs

def isUp : LocatorEvent → Bool
  | .registered _ => true
  | .refreshed _ => true
  | .unregistered _ => false
  | .offline .. => false

end LocatorEvent

namespace MemoryLocator

/-- The identifier of the user that a binding belongs to. -/
def ownerOf (l : MemoryLocator) (loc : Location) : Option String :=
  loc.registeredUsername.map fun username => l.getIdentifier username loc.registeredRealm

def concerns (l : MemoryLocator) (id : String) (event : LocatorEvent) : Bool :=
  event.locations.any fun loc => l.ownerOf loc == some id

def lastEvent (l : MemoryLocator) (events : List LocatorEvent) (id : String) :
    Option LocatorEvent :=
  events.reverse.find? (l.concerns id)

variable {l l' : MemoryLocator}

theorem concerns_eq_true {id : String} :
    l.concerns id event = true ↔ ∃ loc ∈ event.locations, l.ownerOf loc = some id := by
  rw [concerns, any_eq_true]
  simp only [beq_iff_eq]

theorem lastEvent_append_singleton (id : String) : l.lastEvent (events ++ [event]) id =
      if l.concerns id event then some event else l.lastEvent events id := by
  rw [lastEvent, reverse_append, reverse_singleton, singleton_append,
    find?_cons]
  cases l.concerns id event <;> rfl

theorem ownerOf_congr (h : l.realmChecker = l'.realmChecker) : l.ownerOf = l'.ownerOf := by
  unfold ownerOf
  rw [getIdentifier_congr h]

theorem concerns_congr (h : l.realmChecker = l'.realmChecker) : l.concerns = l'.concerns := by
  unfold concerns
  rw [ownerOf_congr h]

theorem lastEvent_congr (h : l.realmChecker = l'.realmChecker) : l.lastEvent = l'.lastEvent := by
  unfold lastEvent
  rw [concerns_congr h]

end MemoryLocator

abbrev UserGroups := Table (String × Option String) (List Location)

def groupByUser (removed : List Location) : UserGroups :=
  removed.foldl (fun groups loc =>
    match loc.registeredUsername with
    | none => groups
    | some username =>
      let key := (username, loc.registeredRealm)
      groups.insert key ((groups.lookup key).getD [] ++ [loc])) ∅

def Grouped (groups : UserGroups) : Prop :=
  ∀ username realm locs, groups.lookup (username, realm) = some locs →
    ∀ loc ∈ locs, loc.registeredUsername = some username ∧ loc.registeredRealm = realm

private theorem exists_of_mem_getD (h : loc ∈ locs.getD []) :
    ∃ old, locs = some old ∧ loc ∈ old := by
  cases locs with
  | none => exact absurd h not_mem_nil
  | some old => exact ⟨old, rfl, h⟩

theorem Grouped.insert (h : Grouped groups) (husername : loc.registeredUsername = some username) :
    Grouped (groups.insert (username, loc.registeredRealm)
      ((groups.lookup (username, loc.registeredRealm)).getD [] ++ [loc])) := by
  intro username' realm' locs hlocs loc' hloc'
  rw [lookup_insert_eq] at hlocs
  split at hlocs
  next hkey =>
    cases hkey
    cases hlocs
    obtain hold | hnew := mem_append.mp hloc'
    · obtain ⟨old, hlookup, hold⟩ := exists_of_mem_getD hold
      exact h _ _ old hlookup loc' hold
    · obtain rfl := mem_singleton.mp hnew
      exact ⟨husername, rfl⟩
  · exact h _ _ locs hlocs loc' hloc'

theorem Grouped.erase (h : Grouped groups) (key : String × Option String) :
    Grouped (groups.erase key) := by
  intro username realm locs hlocs
  rw [lookup_erase_eq] at hlocs
  split at hlocs
  · cases hlocs
  · exact h username realm locs hlocs

private theorem groupByUser_induction {P : UserGroups → Prop} (removed : List Location)
    (hnone : P ∅) (hinsert : ∀ groups, P groups → ∀ loc ∈ removed, ∀ username,
      loc.registeredUsername = some username → P (groups.insert (username, loc.registeredRealm)
        ((groups.lookup (username, loc.registeredRealm)).getD [] ++ [loc]))) :
    P (groupByUser removed) := by
  refine foldlRecOn removed _ hnone fun groups h loc hloc => ?_
  cases husername : loc.registeredUsername with
  | none => exact h
  | some username => exact hinsert groups h loc hloc username husername

theorem grouped_groupByUser : Grouped (groupByUser removed) :=
  groupByUser_induction removed nofun fun _ h _ _ _ husername => h.insert husername

theorem mem_of_groupByUser (hlocs : (groupByUser removed).lookup key = some locs)
    (hloc : loc ∈ locs) : loc ∈ removed := by
  have hall : ∀ key locs, (groupByUser removed).lookup key = some locs →
      ∀ loc ∈ locs, loc ∈ removed := by
    refine groupByUser_induction (P := fun groups => ∀ key locs, groups.lookup key = some locs →
      ∀ loc ∈ locs, loc ∈ removed) removed nofun ?_
    intro groups h loc hmem username _ key locs hlocs loc' hloc'
    rw [lookup_insert_eq] at hlocs
    split at hlocs
    · cases hlocs
      obtain hold | hnew := mem_append.mp hloc'
      · obtain ⟨old, hlookup, hold⟩ := exists_of_mem_getD hold
        exact h _ old hlookup loc' hold
      · exact mem_singleton.mp hnew ▸ hmem
    · exact h key locs hlocs loc' hloc'
  exact hall key locs hlocs loc hloc

/-! ## The system -/

structure ContactRequest where
  tx : Transaction
  user : SipUser
  registeredAor : Uri
  expires : Nat
  contact : ParsedContact
  /-- When its binding was made, which is before the lock is taken. -/
  built : Nat

def ContactRequest.location (srv : RegistrarServer) (c : ContactRequest) : Location :=
  Registry.locationOf srv c.built c.tx c.user c.registeredAor c.expires c.contact

/-- What takes the lock. -/
inductive LocatorTask where
  | unregisterAll (user : SipUser) (registeredAor : Uri)
  | register (contact : ContactRequest)
  | transportClosed (addr : SipAddr)
  | sweep

def wildcardLocation (user : SipUser) (registeredAor : Uri) : Location where
  aor := registeredAor
  registeredUsername := some user.username
  registeredRealm := user.realm
  registeredAor := some registeredAor

inductive Removal where
  | unregistered
  | offline (reason : LocatorOfflineReason)

/-- What is published about the users that have no binding left, if there are any. -/
def Removal.event : Removal → List Location → Option LocatorEvent
  | _, [] => none
  | .unregistered, loc :: _ => some (.unregistered loc)
  | .offline reason, loc :: locs => some (.offline (loc :: locs) reason)

inductive LockHolder where
  | start (task : LocatorTask)
  /-- A REGISTER has looked whether its user has a binding already. -/
  | checked (contact : ContactRequest) (isRefresh : Bool)
  | publishing (event : LocatorEvent)
  /-- The users still to be looked at, and the bindings of users that have none left. -/
  | rechecking (pending : UserGroups) (offline : List Location) (removal : Removal)

structure LocatorSystem where
  now : Nat
  locator : MemoryLocator
  events : List LocatorEvent
  holder : Option LockHolder

inductive LocatorAction where
  | pass (now : Nat)
  | acquire (task : LocatorTask)
  | advance
  /-- The task that holds the lock looks at one of the users. -/
  | recheck (username : String) (realm : Option String)

namespace LocatorSystem

variable (srv : RegistrarServer)

variable (s : LocatorSystem)

def removing (locator : MemoryLocator) (removed : List Location) (removal : Removal) :
    LocatorSystem :=
  { s with locator, holder := some (.rechecking (groupByUser removed) [] removal) }

def announcing (locator : MemoryLocator) (event : LocatorEvent) : LocatorSystem :=
  { s with locator, holder := some (.publishing event) }

@[simp] theorem removing_events (locator : MemoryLocator) :
    (s.removing locator removed removal).events = s.events := rfl

@[simp] theorem announcing_events (locator : MemoryLocator) :
    (s.announcing locator event).events = s.events := rfl

def advance : LockHolder → Option LocatorSystem
  | .start (.unregisterAll user registeredAor) =>
    some (s.removing (s.locator.unregister user.username user.realm)
      [wildcardLocation user registeredAor] .unregistered)
  | .start (.register c) =>
    let isRefresh :=
      c.expires != 0 && s.locator.hasActiveBindings s.now c.user.username c.user.realm
    some { s with holder := some (.checked c isRefresh) }
  | .start (.transportClosed addr) =>
    let removed := s.locator.all.filter (MemoryLocator.closesWith s.now addr)
    some (s.removing (s.locator.unregisterWithAddress s.now addr) removed
      (.offline .transportClosed))
  | .start .sweep =>
    let removed := s.locator.all.filter (·.isExpiredAt s.now)
    some (s.removing (s.locator.sweepExpired s.now) removed (.offline .expired))
  | .checked c isRefresh =>
    let location := c.location srv
    let locator :=
      s.locator.register srv.lib.uri s.now c.user.username c.user.realm location
    if c.expires = 0 then some (s.removing locator [location] .unregistered)
    else
      let event := if isRefresh then LocatorEvent.refreshed location else .registered location
      some (s.announcing locator event)
  | .publishing event => some { s with events := s.events ++ [event], holder := none }
  | .rechecking pending offline removal =>
    if pending.entries.isEmpty then
      some { s with events := s.events ++ (removal.event offline).toList, holder := none }
    else none

def step : LocatorAction → Option LocatorSystem
  | .pass now => if s.now ≤ now then some { s with now } else none
  | .acquire task =>
    match s.holder with
    | none => some { s with holder := some (.start task) }
    | some _ => none
  | .advance => s.holder.bind (s.advance srv)
  | .recheck username realm =>
    match s.holder with
    | some (.rechecking pending offline removal) =>
      (pending.lookup (username, realm)).map fun locs =>
        let offline :=
          if s.locator.hasActiveBindings s.now username realm then offline else offline ++ locs
        { s with holder := some (.rechecking (pending.erase (username, realm)) offline removal) }
    | _ => none

/-- What each action does. A task either changes the locator, or looks at it, or publishes. -/
inductive Step (s : LocatorSystem) : LocatorAction → LocatorSystem → Prop where
  | pass {now : Nat} (h : s.now ≤ now) : Step s (.pass now) { s with now }
  | acquire {task : LocatorTask} (h : s.holder = none) :
    Step s (.acquire task) { s with holder := some (.start task) }
  | unregister {user : SipUser} {aor : Uri}
      (h : s.holder = some (.start (.unregisterAll user aor))) :
    Step s .advance (s.removing (s.locator.unregister user.username user.realm)
      [wildcardLocation user aor] .unregistered)
  | check {c : ContactRequest} (h : s.holder = some (.start (.register c))) {isRefresh : Bool}
      (hrefresh : isRefresh = true →
        s.locator.Active s.now (s.locator.getIdentifier c.user.username c.user.realm)) :
    Step s .advance { s with holder := some (.checked c isRefresh) }
  | close {addr : SipAddr} (h : s.holder = some (.start (.transportClosed addr))) :
    Step s .advance (s.removing (s.locator.dropBindings (MemoryLocator.closesWith s.now addr))
      (s.locator.all.filter (MemoryLocator.closesWith s.now addr)) (.offline .transportClosed))
  | sweep (h : s.holder = some (.start .sweep)) :
    Step s .advance (s.removing (s.locator.dropBindings (·.isExpiredAt s.now))
      (s.locator.all.filter (·.isExpiredAt s.now)) (.offline .expired))
  | remove {c : ContactRequest} {isRefresh : Bool} (h : s.holder = some (.checked c isRefresh))
      (hexpires : c.expires = 0) :
    Step s .advance (s.removing (s.locator.register srv.lib.uri s.now c.user.username c.user.realm
      (c.location srv)) [c.location srv] .unregistered)
  | register {c : ContactRequest} {isRefresh : Bool} (h : s.holder = some (.checked c isRefresh))
      (hexpires : c.expires ≠ 0) :
    Step s .advance (s.announcing
      (s.locator.register srv.lib.uri s.now c.user.username c.user.realm (c.location srv))
      (if isRefresh then .refreshed (c.location srv) else .registered (c.location srv)))
  | publish {event : LocatorEvent} (h : s.holder = some (.publishing event)) :
    Step s .advance { s with events := s.events ++ [event], holder := none }
  | report {pending : UserGroups} {offline : List Location} {removal : Removal}
      (h : s.holder = some (.rechecking pending offline removal)) :
    Step s .advance { s with events := s.events ++ (removal.event offline).toList, holder := none }
  | keep {username : String} {realm : Option String} {pending : UserGroups}
      {offline : List Location} {removal : Removal}
      (h : s.holder = some (.rechecking pending offline removal)) :
    Step s (.recheck username realm)
      { s with holder := some (.rechecking (pending.erase (username, realm)) offline removal) }
  | drop {username : String} {realm : Option String} {pending : UserGroups}
      {offline locs : List Location} {removal : Removal}
      (h : s.holder = some (.rechecking pending offline removal))
      (hlocs : pending.lookup (username, realm) = some locs)
      (hgone : ¬ s.locator.Active s.now (s.locator.getIdentifier username realm)) :
    Step s (.recheck username realm) { s with
        holder := some (.rechecking (pending.erase (username, realm)) (offline ++ locs) removal) }

variable {srv}

theorem Step.of_advance {s : LocatorSystem} {holder : LockHolder}
    (hholder : s.holder = some holder) (h : s.advance srv holder = some s') :
    s.Step srv .advance s' := by
  cases holder with
  | start task =>
    cases task with
    | unregisterAll user aor =>
      cases h
      exact .unregister hholder
    | register c =>
      cases h
      refine .check hholder fun hrefresh => ?_
      exact MemoryLocator.hasActiveBindings_iff.mp ((Bool.and_eq_true _ _).mp hrefresh).2
    | transportClosed addr =>
      cases h
      exact .close hholder
    | sweep =>
      cases h
      exact .sweep hholder
  | checked c isRefresh =>
    rw [advance] at h
    split at h
    next hexpires =>
      cases h
      exact .remove hholder hexpires
    next hexpires =>
      cases h
      exact .register hholder hexpires
  | publishing event =>
    cases h
    exact .publish hholder
  | rechecking pending offline removal =>
    rw [advance] at h
    split at h
    · cases h
      exact .report hholder
    · cases h

theorem Step.of_step {s : LocatorSystem} (h : s.step srv a = some s') : s.Step srv a s' := by
  cases a with
  | pass now =>
    rw [step] at h
    split at h
    next hle =>
      cases h
      exact .pass hle
    · cases h
  | acquire task =>
    rw [step] at h
    split at h
    next hfree =>
      cases h
      exact .acquire hfree
    · cases h
  | advance =>
    obtain ⟨holder, hholder, h⟩ := Option.bind_eq_some_iff.mp h
    exact .of_advance hholder h
  | recheck username realm =>
    rw [step] at h
    split at h
    next pending offline removal hholder =>
      obtain ⟨locs, hlocs, rfl⟩ := Option.map_eq_some_iff.mp h
      split
      · exact .keep hholder
      next hgone =>
        exact .drop hholder hlocs fun hactive =>
          hgone (MemoryLocator.hasActiveBindings_iff.mpr hactive)
    · cases h

end LocatorSystem

end RustPbx.Proxy
