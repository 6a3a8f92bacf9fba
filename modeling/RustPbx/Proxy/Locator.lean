import Mathlib.Data.List.Sort
import RustPbx.Call.Location
import RustPbx.Lib.Table

/-!
The in-memory locator: which contacts are registered, and which of them an address reaches.

Bindings are filed under the identifier of the user that registered them (`getIdentifier`). A lookup
first searches all bindings for one with a matching address, then the identifiers of the looked-up
user, then all bindings again by user and realm of their addresses.
-/

namespace RustPbx.Proxy

open Sip Call Str Table List

def hostWithoutPort (value : String) : String :=
  let trimmed := trimChars value.toList
  String.ofList <|
    match trimmed, splitOnce ']' trimmed with
    | '[' :: _, some (bracketed, _) => bracketed.tail
    | _, _ =>
      -- several colons: an IPv6 address without brackets
      if 1 < trimmed.count ':' then trimmed
      else (splitOnce ':' trimmed).elim trimmed Prod.fst

def isLocalRealm (realm : String) : Bool :=
  if trim realm = "" then false
  else
    let host := hostWithoutPort realm
    if lower host ∈ ["localhost", "127.0.0.1", "0.0.0.0", "::1"] then true
    else
      match IpAddr.parse host.toList with
      | none => false
      | some ip =>
        ip.isLoopback || ip.isUnspecified ||
          match ip with
          | .v4 a b _ _ => IpAddr.isPrivateV4 a b
          | .v6 .. => false

def isWebrtcInvalidHost (host : String) : Bool :=
  ".invalid".toList.isSuffixOf host.toList

def uriMatches (uris : UriLib) (a b : Uri) : Bool :=
  a == b || (a.user == b.user && ((isLocalRealm a.hostText && isLocalRealm b.hostText) ||
        ((isWebrtcInvalidHost a.hostText || isWebrtcInvalidHost b.hostText) &&
          eqIgnoreAsciiCase a.hostText b.hostText))) ||
    eqIgnoreAsciiCase (uris.print a) (uris.print b)

/-- Whether `a` was modified no earlier than `b`; never modified counts as oldest. -/
def atLeastAsRecent (a b : Location) : Bool :=
  match a.lastModified, b.lastModified with
  | some x, some y => y ≤ x
  | some _, none => true
  | none, some _ => false
  | none, none => true

def dedupByKey (uris : UriLib) (seen : List String) : List Location → List Location
  | [] => []
  | loc :: rest =>
    let key := loc.bindingKey uris
    if key ∈ seen then dedupByKey uris seen rest
    else loc :: dedupByKey uris (key :: seen) rest

def sortLocationsByRecency (uris : UriLib) (locations : List Location) : List Location :=
  dedupByKey uris [] (locations.insertionSort fun a b => atLeastAsRecent a b)

theorem mem_of_mem_dedupByKey (h : loc ∈ dedupByKey uris seen locs) : loc ∈ locs := by
  induction locs generalizing seen with
  | nil => exact h
  | cons l locs ih =>
    rw [dedupByKey] at h
    split at h
    · exact mem_cons_of_mem l (ih h)
    · rcases mem_cons.mp h with rfl | h
      · exact mem_cons_self
      · exact mem_cons_of_mem l (ih h)

theorem mem_of_mem_sortLocationsByRecency (h : loc ∈ sortLocationsByRecency uris locs) :
    loc ∈ locs :=
  (mem_insertionSort _).mp (mem_of_mem_dedupByKey h)

/-! ## The locator -/

structure MemoryLocator where
  /-- The bindings of each identifier, by binding key. -/
  locations : Table String (Table String Location) := ∅
  /-- How the server decides that a realm is its own, once it has been set. -/
  realmChecker : Option (String → Bool) := none

namespace MemoryLocator

section

variable (uris : UriLib) (l : MemoryLocator)

def isLocalRealm (realm : String) : Bool :=
  match l.realmChecker with
  | some checker => checker realm
  | none => Proxy.isLocalRealm realm

def getIdentifier (user : String) (realm : Option String) : String :=
  let username := lower (trim user)
  let realm := ((realm.map trim).filter (· ≠ "")).map fun r =>
    if l.isLocalRealm r then "localhost" else lower r
  if username = "" then "" else realm.elim username fun r => username ++ "@" ++ r

def updateBindings (identifier : String) (f : Table String Location → Table String Location) :
    MemoryLocator :=
  match l.locations.lookup identifier with
  | none => l
  | some bindings =>
    let bindings := f bindings
    if bindings.entries.isEmpty then { l with locations := l.locations.erase identifier }
    else { l with locations := l.locations.insert identifier bindings }

def pruneExpired (now : Nat) (identifier : String) : MemoryLocator :=
  l.updateBindings identifier (·.retain fun _ loc => !loc.isExpiredAt now)

/-- Give the new destination to a live binding of the same instance that is filed under another
key. -/
def redirectInstance (now : Nat) (location : Location) (bindings : Table String Location) :
    Table String Location :=
  match location.instanceId, location.destination with
  | some inst, some destination =>
    match bindings.entries.find? fun row =>
      row.2.instanceId == some inst && row.2.bindingKey uris != location.bindingKey uris &&
        !row.2.isExpiredAt now with
    | some row => bindings.insert row.1 { row.2 with destination := some destination }
    | none => bindings
  | _, _ => bindings

def stamp (username : String) (realm : Option String) (location : Location) : Location :=
  { location with registeredUsername := some username, registeredRealm := realm }

def touch (now : Nat) (location : Location) : Location :=
  { location with lastModified := location.lastModified.or (some now) }

def file (identifier key : String) (location : Location) : MemoryLocator :=
  let bindings := ((l.locations.lookup identifier).getD ∅).insert key location
  { l with locations := l.locations.insert identifier bindings }

def register (now : Nat) (username : String) (realm : Option String) (location : Location) :
    MemoryLocator :=
  let identifier := l.getIdentifier username realm
  if identifier = "" then l
  else
    let location := stamp username realm location
    let key := location.bindingKey uris
    let l := l.pruneExpired now identifier
    if location.expires = 0 then l.updateBindings identifier (·.erase key)
    else
      let l := l.updateBindings identifier (redirectInstance uris now location)
      l.file identifier key (touch now location)

def unregister (username : String) (realm : Option String) : MemoryLocator :=
  let identifier := l.getIdentifier username realm
  if identifier = "" then l else { l with locations := l.locations.erase identifier }

def hasActiveBindings (now : Nat) (username : String) (realm : Option String) : Bool :=
  let identifier := l.getIdentifier username realm
  identifier != "" && (l.locations.lookup identifier).any fun bindings =>
    bindings.values.any fun loc => !loc.isExpiredAt now

def hasActiveBindingForUser (now : Nat) (username : String) : Bool :=
  let user := lower (trim username)
  let named (uri : Uri) : Bool := uri.user.any (eqIgnoreAsciiCase · user)
  user != "" && l.locations.entries.any fun row =>
    row.2.values.any fun loc =>
      !loc.isExpiredAt now && (row.1 == user || startsWith row.1 (user ++ "@") ||
        named loc.aor || loc.registeredAor.any named)

def unregisterGraceSecs : Nat := 5

def closesWith (now : Nat) (addr : SipAddr) (loc : Location) : Bool :=
  loc.destination == some addr &&
    !loc.lastModified.any fun modified => now - unregisterGraceSecs * 10 ^ 9 ≤ modified

def dropBindings (p : Location → Bool) : MemoryLocator :=
  l.locations.entries.foldl (fun l row => l.updateBindings row.1 (·.retain fun _ loc => !p loc)) l

def unregisterWithAddress (now : Nat) (addr : SipAddr) : MemoryLocator :=
  l.dropBindings (closesWith now addr)

def sweepExpired (now : Nat) : MemoryLocator :=
  l.dropBindings (·.isExpiredAt now)

def all : List Location :=
  l.locations.values.flatMap (·.values)

/-- One of the binding's own addresses is the looked-up one. -/
def matchesDirectly (uri : Uri) (loc : Location) : Bool :=
  loc.aor == uri || uriMatches uris loc.aor uri ||
    (loc.registeredAor.any fun registered => registered == uri || uriMatches uris registered uri) ||
    loc.gruu.any fun gruu => gruu == uris.print uri || eqIgnoreAsciiCase gruu (uris.print uri)

def realmMatches (requestedRealm candidateRealm : String) : Bool :=
  let requested := trim requestedRealm
  let candidate := trim candidateRealm
  requested == "" || (l.isLocalRealm requested && l.isLocalRealm candidate) ||
    lower (hostWithoutPort requested) == lower (hostWithoutPort candidate)

def matchesUser (username realm : String) (address : Uri) : Bool :=
  (address.user.any fun user => eqIgnoreAsciiCase (trim user) (lower username)) &&
    (isWebrtcInvalidHost realm || l.realmMatches realm (trim address.hostText))

def lookupIdentifiers (uri : Uri) : List String :=
  let username := trim (uri.user.getD "")
  let realm := trim uri.hostText
  if username = "" then []
  else
    (if realm = "" then [] else [l.getIdentifier username (some realm)]) ++
      [l.getIdentifier username (some "localhost"), l.getIdentifier username none]

def matchesByUser (uri : Uri) (loc : Location) : Bool :=
  let username := trim (uri.user.getD "")
  let realm := trim uri.hostText
  username != "" &&
    (loc.registeredAor.any (l.matchesUser username realm) || l.matchesUser username realm loc.aor)

def lookup (uri : Uri) : List Location :=
  let directHits := l.all.filter (matchesDirectly uris uri)
  if !directHits.isEmpty then sortLocationsByRecency uris directHits
  else
    match (l.lookupIdentifiers uri).findSome? fun id =>
      (l.locations.lookup id).filter fun bindings => !bindings.entries.isEmpty with
    | some bindings => sortLocationsByRecency uris bindings.values
    | none => sortLocationsByRecency uris (l.all.filter (l.matchesByUser uri))

end

/-! ## Where bindings come from -/

/-- The locator has a binding filed under an identifier. -/
inductive Holds (l : MemoryLocator) (id : String) (loc : Location) : Prop where
  | intro (bindings : Table String Location) (key : String)
    (row : l.locations.Row id bindings) (binding : bindings.Row key loc)

variable {l : MemoryLocator} {id : String}

theorem updateBindings_holds (h : (l.updateBindings id f).Holds id' loc) : l.Holds id' loc ∨
      (id' = id ∧ ∃ bindings key, l.locations.Row id bindings ∧ (f bindings).Row key loc) := by
  unfold updateBindings at h
  split at h
  · exact .inl h
  next bindings hbindings =>
  obtain ⟨bindings', key, hrow, hloc⟩ := h
  simp only at hrow
  split at hrow
  · exact .inl ⟨bindings', key, row_of_erase hrow, hloc⟩
  · rcases row_of_insert hrow with ⟨rfl, rfl⟩ | hrow
    · exact .inr ⟨rfl, bindings, key, row_of_lookup hbindings, hloc⟩
    · exact .inl ⟨bindings', key, hrow, hloc⟩

theorem updateBindings_holds_of_sub
    (hf : ∀ bindings key x, (f bindings).Row key x → bindings.Row key x)
    (h : (l.updateBindings id f).Holds id' loc) : l.Holds id' loc := by
  rcases updateBindings_holds h with h | ⟨rfl, bindings, key, hrow, hloc⟩
  · exact h
  · exact ⟨bindings, key, hrow, hf _ _ _ hloc⟩

theorem pruneExpired_holds (h : (l.pruneExpired now identifier).Holds id loc) : l.Holds id loc :=
  updateBindings_holds_of_sub (fun _ _ _ => row_of_retain) h

theorem redirectInstance_row (h : (redirectInstance uris now location bindings).Row key x) :
    bindings.Row key x ∨ ∃ old, bindings.Row key old ∧
      x = { old with destination := location.destination } := by
  unfold redirectInstance at h
  split at h
  · next inst destination hinst hdest =>
    split at h
    · next row hfind =>
      rcases row_of_insert h with ⟨rfl, rfl⟩ | h
      · exact .inr ⟨row.2, mem_of_find?_eq_some hfind, by rw [hdest]⟩
      · exact .inl h
    · exact .inl h
  · exact .inl h

theorem file_holds (h : (l.file identifier key location).Holds id loc) :
    l.Holds id loc ∨ (id = identifier ∧ loc = location) := by
  obtain ⟨bindings, key', hrow, hloc⟩ := h
  rcases row_of_insert hrow with ⟨rfl, rfl⟩ | hrow
  · rcases row_of_insert hloc with ⟨-, rfl⟩ | hloc
    · exact .inr ⟨rfl, rfl⟩
    cases hold : l.locations.lookup id with
    | none =>
      rw [hold] at hloc
      exact absurd hloc not_mem_nil
    | some old =>
      rw [hold] at hloc
      exact .inl ⟨old, key', row_of_lookup hold, hloc⟩
  · exact .inl ⟨bindings, key', hrow, hloc⟩

@[simp] theorem updateBindings_realmChecker (id : String) :
    (l.updateBindings id f).realmChecker = l.realmChecker := by
  unfold updateBindings
  split
  · rfl
  · simp only
    split <;> rfl

@[simp] theorem register_realmChecker (uris : UriLib) (l : MemoryLocator) (now : Nat)
    (username : String) (realm : Option String) (location : Location) :
    (l.register uris now username realm location).realmChecker = l.realmChecker := by
  unfold register
  simp only
  split
  · rfl
  split
  · simp [pruneExpired]
  · simp [file, pruneExpired]

@[simp] theorem unregister_realmChecker (l : MemoryLocator) (username : String)
    (realm : Option String) : (l.unregister username realm).realmChecker = l.realmChecker := by
  unfold unregister
  simp only
  split <;> rfl

theorem getIdentifier_congr {l' : MemoryLocator} (h : l.realmChecker = l'.realmChecker) :
    l.getIdentifier = l'.getIdentifier := by
  have hlocal : l.isLocalRealm = l'.isLocalRealm := by
    unfold isLocalRealm
    rw [h]
  unfold getIdentifier
  rw [hlocal]

/-- **What a registration files**: what was filed before, the location, and an earlier binding of
the same user with the new destination. -/
theorem register_holds (h : (l.register uris now username realm location).Holds id loc) :
    l.Holds id loc ∨ (id = l.getIdentifier username realm ∧
      (loc = touch now (stamp username realm location) ∨
        ∃ old, l.Holds id old ∧ loc = { old with destination := location.destination })) := by
  unfold register at h
  simp only at h
  split at h
  · exact .inl h
  split at h
  · exact .inl (pruneExpired_holds (updateBindings_holds_of_sub (fun _ _ _ => row_of_erase) h))
  rcases file_holds h with h | hfiled
  · rcases updateBindings_holds h with h | ⟨hid, bindings, key, hrow, hloc⟩
    · exact .inl (pruneExpired_holds h)
    rw [← hid] at hrow
    rcases redirectInstance_row hloc with hloc | ⟨old, hold, heq⟩
    · exact .inl (pruneExpired_holds ⟨bindings, key, hrow, hloc⟩)
    · exact .inr ⟨hid, .inr ⟨old, pruneExpired_holds ⟨bindings, key, hrow, hold⟩, heq⟩⟩
  · exact .inr (hfiled.imp_right .inl)

theorem unregister_holds (h : (l.unregister username realm).Holds id loc) : l.Holds id loc := by
  unfold unregister at h
  simp only at h
  split at h
  · exact h
  · obtain ⟨bindings, key, hrow, hloc⟩ := h
    exact ⟨bindings, key, row_of_erase hrow, hloc⟩

theorem holds_of_mem_all (h : loc ∈ l.all) : ∃ id, l.Holds id loc := by
  obtain ⟨bindings, hbindings, hloc⟩ := mem_flatMap.mp h
  obtain ⟨id, hrow⟩ := row_of_mem_values hbindings
  obtain ⟨key, hloc⟩ := row_of_mem_values hloc
  exact ⟨id, bindings, key, hrow, hloc⟩

/-- **What a lookup finds**: bindings with the looked-up address, and those filed under an
identifier of its user. -/
theorem lookup_holds (h : loc ∈ l.lookup uris uri) :
    ∃ id, l.Holds id loc ∧ (matchesDirectly uris uri loc = true ∨
      l.matchesByUser uri loc = true ∨ id ∈ l.lookupIdentifiers uri) := by
  unfold lookup at h
  simp only at h
  split at h
  · obtain ⟨hall, hmatch⟩ := mem_filter.mp (mem_of_mem_sortLocationsByRecency h)
    obtain ⟨id, hholds⟩ := holds_of_mem_all hall
    exact ⟨id, hholds, .inl hmatch⟩
  split at h
  · next bindings hfound =>
    obtain ⟨id, hid, hbindings⟩ := exists_of_findSome?_eq_some hfound
    obtain ⟨hlookup, -⟩ := Option.filter_eq_some_iff.mp hbindings
    obtain ⟨key, hloc⟩ := row_of_mem_values (mem_of_mem_sortLocationsByRecency h)
    exact ⟨id, ⟨bindings, key, row_of_lookup hlookup, hloc⟩, .inr (.inr hid)⟩
  · obtain ⟨hall, hmatch⟩ := mem_filter.mp (mem_of_mem_sortLocationsByRecency h)
    obtain ⟨id, hholds⟩ := holds_of_mem_all hall
    exact ⟨id, hholds, .inr (.inl hmatch)⟩

end MemoryLocator

end RustPbx.Proxy
