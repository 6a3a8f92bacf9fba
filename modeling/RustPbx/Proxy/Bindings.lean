import RustPbx.Proxy.Registrar

/-!
Whose bindings a lookup finds, over whole runs of REGISTER requests.

The registrar files a binding under the user whose digest was verified, but takes the
address-of-record and the contact from the request, and a lookup searches by any of the three. So a
user can register a binding for the address-of-record of another (`lookup_foreign_binding`).
`Attributed` is the invariant of the locator.
-/

namespace RustPbx.Proxy

open Sip Call MemoryLocator Registry List

structure RegisterStep where
  server : RegistrarServer
  now : Nat
  tx : Transaction
  cookie : TransactionCookie := {}

namespace RegisterStep

/-- Digest is the only source of authentication. -/
structure ByDigest (s : RegisterStep) : Prop where
  method : s.tx.original.method = .register
  digestOnly : DigestOnly s.server.toServer s.tx s.cookie

def run (s : RegisterStep) (r : Registry) : Registry :=
  match onTransactionBegin s.server.toServer s.now s.tx ⟨s.cookie, none, none⟩ with
  | (.ok .continue, st) => (registrar s.server s.now s.tx st.cookie r).2.2
  | _ => r

def binding (s : RegisterStep) (user : SipUser) (aor : Uri) (contact : ParsedContact) : Location :=
  Registry.locationOf s.server s.now s.tx user aor
    (Registry.grantedExpires s.server (globalExpires s.tx.original) contact) contact

/-- The request has the contact and the address-of-record, and a digest verified against the
password of the user. -/
structure Binds (s : RegisterStep) (user : SipUser) (aor : Uri) (contact : ParsedContact) :
    Prop where
  verified : ∃ named stored, VerifiedDigest s.server.toServer s.tx named stored ∧
    user = stored.mergeWith named
  aor : s.tx.original.toHeader.bind (·.uri) = some aor
  contact : ∃ entries, parseContactHeaders s.server.lib s.tx.original = some entries ∧
    .address contact ∈ entries

end RegisterStep

def registryAfter (steps : List RegisterStep) (r : Registry) : Registry :=
  steps.foldl (fun r s => s.run r) r

/-- One request of the run made the binding, and one gave it its destination, both for users with
this identifier. -/
structure Attributed (steps : List RegisterStep) (identifier : SipUser → String) (id : String)
    (loc : Location) : Prop where
  made : ∃ s ∈ steps, ∃ user aor contact, s.Binds user aor contact ∧ id = identifier user ∧
    loc = { s.binding user aor contact with destination := loc.destination }
  directed : ∃ s ∈ steps, ∃ user aor contact, s.Binds user aor contact ∧ id = identifier user ∧
    loc.destination = (s.binding user aor contact).destination

section

def identifierOf (checker : Option (String → Bool)) (user : SipUser) : String :=
  ({ realmChecker := checker } : MemoryLocator).getIdentifier user.username user.realm

/-- Every binding of the registry goes back to the requests of a run. -/
structure AllAttributed (steps : List RegisterStep) (checker : Option (String → Bool))
    (r : Registry) : Prop where
  realms : r.locator.realmChecker = checker
  holds : ∀ id loc, r.locator.Holds id loc → Attributed steps (identifierOf checker) id loc

variable {s : RegisterStep}

section

variable (h : AllAttributed steps checker r)
include h

theorem AllAttributed.identifier (user : SipUser) :
    r.locator.getIdentifier user.username user.realm = identifierOf checker user :=
  congrFun (congrFun (getIdentifier_congr h.realms) _) _

theorem AllAttributed.registerContact (hs : s ∈ steps)
    (hbinds : s.Binds user aor contact) : AllAttributed steps checker
      (Registry.registerContact s.server s.now s.tx user aor (globalExpires s.tx.original) r
        contact) := by
  constructor
  · rw [registerContact_locator, register_realmChecker, h.realms]
  intro id loc hholds
  rw [registerContact_locator] at hholds
  have hdirected : ∀ {dest}, dest = (s.binding user aor contact).destination →
      id = r.locator.getIdentifier user.username user.realm →
      ∃ s ∈ steps, ∃ user aor contact, s.Binds user aor contact ∧ id = identifierOf checker user ∧
        dest = (s.binding user aor contact).destination :=
    fun hdest hid => ⟨s, hs, user, aor, contact, hbinds, hid.trans (h.identifier user), hdest⟩
  rcases register_holds hholds with hold | ⟨hid, hmade | ⟨old, hold, hmade⟩⟩
  · exact h.holds id loc hold
  · -- the binding just made
    have hdest : loc.destination = (s.binding user aor contact).destination := by rw [hmade]; rfl
    refine ⟨⟨s, hs, user, aor, contact, hbinds, hid.trans (h.identifier user), ?_⟩,
      hdirected hdest hid⟩
    rw [hdest]
    exact hmade
  · -- an older binding with the new destination
    obtain ⟨s', hs', user', aor', contact', hbinds', hid', hold'⟩ := (h.holds id old hold).made
    have hdest : loc.destination = (s.binding user aor contact).destination := by rw [hmade]; rfl
    refine ⟨⟨s', hs', user', aor', contact', hbinds', hid', ?_⟩, hdirected hdest hid⟩
    rw [hmade, hold']

theorem AllAttributed.registerContacts (hs : s ∈ steps)
    {contacts : List ParsedContact} (hbinds : ∀ c ∈ contacts, s.Binds user aor c) :
    AllAttributed steps checker
      (contacts.foldl (Registry.registerContact s.server s.now s.tx user aor
        (globalExpires s.tx.original)) r) := by
  induction contacts generalizing r with
  | nil => exact h
  | cons c contacts ih =>
    rw [forall_mem_cons] at hbinds
    exact ih (h.registerContact hs hbinds.1) hbinds.2

theorem AllAttributed.unregisterAll (srv : RegistrarServer)
    (now : Nat) (user : SipUser) (aor : Uri) :
    AllAttributed steps checker (r.unregisterAll srv now user aor) := by
  constructor
  · rw [unregisterAll_locator, unregister_realmChecker, h.realms]
  · intro id loc hholds
    rw [unregisterAll_locator] at hholds
    exact h.holds id loc (unregister_holds hholds)

end

theorem registeringUserOf_verified (hs : s.ByDigest)
    (hauth : onTransactionBegin s.server.toServer s.now s.tx ⟨s.cookie, none, none⟩ =
      (.ok .continue, st)) (huser : registeringUserOf s.server.lib s.tx st.cookie = some user) :
    ∃ named stored, VerifiedDigest s.server.toServer s.tx named stored ∧
      user = stored.mergeWith named := by
  rcases onTransactionBegin_continue hauth hs.digestOnly (.inl hs.method) with
    ⟨authed, outcome, hverified, hcookie⟩ | ⟨-, ⟨c, hc, -⟩, -⟩
  · obtain ⟨named, stored, hdigest, rfl⟩ := authenticateRequestInner_some hverified
    refine ⟨named, stored, hdigest, ?_⟩
    rw [registeringUserOf, hdigest.names, hcookie] at huser
    exact (Option.some.inj huser).symm.trans (SipUser.mergeWith_mergeWith stored named)
  · cases hc

theorem AllAttributed.run (h : AllAttributed steps checker r) (hmem : s ∈ steps) (hs : s.ByDigest) :
    AllAttributed steps checker (s.run r) := by
  unfold RegisterStep.run
  split
  · next st hauth =>
    unfold registrar
    rw [if_neg (not_not_intro hs.method)]
    split
    · exact h
    · next request headers hread =>
      rcases readRegister_ok hread with
        ⟨user, aor, rfl⟩ | ⟨user, aor, entries, huser, haor, hparse, rfl⟩
      · exact h.unregisterAll s.server s.now user aor
      · refine h.registerContacts hmem fun contact hcontact => ?_
        refine ⟨registeringUserOf_verified hs hauth huser, haor, entries, hparse, ?_⟩
        obtain ⟨entry, hentry, heq⟩ := mem_filterMap.mp hcontact
        cases entry with
        | wildcard => cases heq
        | address c =>
          cases heq
          exact hentry
  · exact h

theorem AllAttributed.registryAfter (h : AllAttributed steps checker r)
    (hrest : ∀ s ∈ rest, s ∈ steps ∧ s.ByDigest) :
    AllAttributed steps checker (registryAfter rest r) := by
  induction rest generalizing r with
  | nil => exact h
  | cons s rest ih =>
    rw [forall_mem_cons] at hrest
    exact ih (h.run hrest.1.1 hrest.1.2) hrest.2

def emptyRegistry (checker : Option (String → Bool)) : Registry :=
  { locator := { realmChecker := checker } }

theorem allAttributed_empty : AllAttributed steps checker (emptyRegistry checker) where
  realms := rfl
  holds := by
    intro id loc ⟨bindings, key, hrow, _⟩
    cases hrow

end

/-! ## A foreign address-of-record -/

def sipAddress (user host : String) : Uri :=
  ⟨some .sip, some ⟨user, none⟩, ⟨.domain host.toList, none⟩, []⟩

def mallorysServer : RegistrarServer where
  lib := {
    parseAuthorization := fun raw => if raw = "mallory" then some ⟨"mallory", "localhost"⟩ else none
    parseContact := fun _ => none
    uri := {
      parse := fun text =>
        if text = "sip:mallory@phone" then .ok (sipAddress "mallory" "phone") else .error "bad URI"
      print := fun uri => "sip:" ++ uri.user.getD "" ++ "@" ++ uri.hostText
      parseHostWithPort := fun _ => .error "bad host" }
    sipScheme := fun _ => .sip }
  verifyDigest := fun auth password _ _ => auth.username == "mallory" && password == "secret"
  getUser := fun name _ _ =>
    if name = "mallory" then .ok (some { username := "mallory", password := some "secret" })
    else .ok none
  isSameRealm := fun realm => realm == "localhost"

def malloryRegisters (toUser : String) : RegisterStep where
  server := mallorysServer
  now := 0
  tx := {
    original := {
      method := .register
      uri := sipAddress "" "localhost"
      headers := [.authorization "mallory", .contact "<sip:mallory@phone>".toList]
      topVia := some { target := some (.udp, ⟨.domain "phone".toList, none⟩) }
      fromHeader := some { uri := some (sipAddress "mallory" "localhost"), tag := some "tag" }
      toHeader := some { uri := some (sipAddress toUser "localhost") }
      callId := some "call" } }

def malloryBinding (toUser : String) : Location where
  aor := sipAddress "mallory" "phone"
  expires := 30
  destination := some ⟨some .udp, ⟨.domain "phone".toList, none⟩⟩
  lastModified := some 0
  headers := (malloryRegisters toUser).tx.original.headers
  registeredUsername := some "mallory"
  registeredRealm := some "localhost"
  registeredAor := some (sipAddress toUser "localhost")
  contactRaw := some "<sip:mallory@phone>;expires=30"
  transport := some .udp

theorem malloryRegisters_byDigest : (malloryRegisters toUser).ByDigest :=
  ⟨rfl, rfl, rfl, rfl, fun _ _ => rfl⟩

theorem malloryRegisters_verified
    (h : VerifiedDigest (malloryRegisters toUser).server.toServer (malloryRegisters toUser).tx
      named stored) : named.username = "mallory" ∧ stored.username = "mallory" := by
  have hnamed := (Option.some.inj (congrArg (Option.map SipUser.username) h.names)).symm
  refine ⟨hnamed, ?_⟩
  have hholds := h.holds
  rw [hnamed] at hholds
  exact congrArg SipUser.username (Option.some.inj (Except.ok.inj hholds)).symm

/-- **Bindings that a lookup returns** were made by a REGISTER of the run, for the user whose digest
it verified; their destination is from a REGISTER of a user with the same identifier. They are found
by one of their own addresses, or under an identifier of the looked-up user. -/
theorem lookup_attributed (steps : List RegisterStep) (checker : Option (String → Bool))
    (l : MemoryLocator) (uris : UriLib) (uri : Uri) (loc : Location)
    (hsteps : ∀ s ∈ steps, s.ByDigest)
    (hl : l = (registryAfter steps (emptyRegistry checker)).locator)
    (hfound : loc ∈ l.lookup uris uri) : ∃ s ∈ steps, ∃ user aor contact, s.Binds user aor contact ∧
      loc.registeredUsername = some user.username ∧ loc.registeredRealm = user.realm ∧
      loc = { s.binding user aor contact with destination := loc.destination } ∧
      (∃ s' ∈ steps, ∃ user' aor' contact', s'.Binds user' aor' contact' ∧
        identifierOf checker user' = identifierOf checker user ∧
        loc.destination = (s'.binding user' aor' contact').destination) ∧
      (matchesDirectly uris uri loc = true ∨ l.matchesByUser uri loc = true ∨
        identifierOf checker user ∈ l.lookupIdentifiers uri) := by
  subst hl
  have hempty : AllAttributed steps checker (emptyRegistry checker) := allAttributed_empty
  have hall := hempty.registryAfter fun s hs => ⟨hs, hsteps s hs⟩
  obtain ⟨id, hholds, hmatch⟩ := lookup_holds hfound
  obtain ⟨hmade, s', hs', user', aor', contact', hbinds', hid', hdest⟩ := hall.holds id loc hholds
  obtain ⟨s, hs, user, aor, contact, hbinds, hid, hloc⟩ := hmade
  rw [hid] at hmatch
  exact ⟨s, hs, user, aor, contact, hbinds, by rw [hloc]; rfl, by rw [hloc]; rfl, hloc,
    ⟨s', hs', user', aor', contact', hbinds', hid'.symm.trans hid, hdest⟩, hmatch⟩

theorem lookup_attributed_mallory : malloryBinding "mallory" ∈
        (registryAfter [malloryRegisters "mallory"] (emptyRegistry none)).locator.lookup
          mallorysServer.lib.uri (sipAddress "mallory" "localhost") ∧
      ∃ s ∈ [malloryRegisters "mallory"], ∃ user aor contact, s.Binds user aor contact ∧
        (malloryBinding "mallory").registeredUsername = some user.username := by
  have hfound : malloryBinding "mallory" ∈
      (registryAfter [malloryRegisters "mallory"] (emptyRegistry none)).locator.lookup
        mallorysServer.lib.uri (sipAddress "mallory" "localhost") := by decide
  have hsteps : ∀ s ∈ [malloryRegisters "mallory"], s.ByDigest := by
    intro s hs
    obtain rfl := mem_singleton.mp hs
    exact malloryRegisters_byDigest
  obtain ⟨s, hs, user, aor, contact, hbinds, hname, -⟩ :=
    lookup_attributed _ none _ _ _ _ hsteps rfl hfound
  exact ⟨hfound, s, hs, user, aor, contact, hbinds, hname⟩

/-- The address-of-record of `alice` reaches the phone of `mallory`, and no REGISTER was ever
verified as `alice`. -/
theorem lookup_foreign_binding :
    ∃ (steps : List RegisterStep) (checker : Option (String → Bool)) (uris : UriLib)
      (u r : String) (loc : Location), (∀ s ∈ steps, s.ByDigest) ∧ isLocalRealm r = true ∧
      loc ∈ (registryAfter steps (emptyRegistry checker)).locator.lookup uris (sipAddress u r) ∧
      ∀ s ∈ steps, ∀ named stored, VerifiedDigest s.server.toServer s.tx named stored →
        named.username ≠ u ∧ stored.username ≠ u := by
  refine ⟨[malloryRegisters "alice"], none, mallorysServer.lib.uri, "alice", "localhost",
    malloryBinding "alice", ?_, by decide, by decide, ?_⟩
  · intro s hs
    obtain rfl := mem_singleton.mp hs
    exact malloryRegisters_byDigest
  · intro s hs named stored hverified
    obtain rfl := mem_singleton.mp hs
    obtain ⟨hnamed, hstored⟩ := malloryRegisters_verified hverified
    rw [hnamed, hstored]
    exact ⟨by decide, by decide⟩

end RustPbx.Proxy
