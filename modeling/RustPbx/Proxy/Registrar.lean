import RustPbx.Proxy.Auth
import RustPbx.Proxy.Contact
import RustPbx.Proxy.Locator

/-!
The registrar: what a REGISTER writes into the locator.

Every contact of the request is filed under the authenticated user. The address-of-record a binding
is registered for is the To header of the request, which is not compared with that user.
-/

namespace RustPbx.Proxy

open Sip Call

structure RegistrarServer extends Server where
  registrarExpires : Option Nat := none
  maxRegistrarExpires : Option Nat := none
  /-- The addon that supplies response headers for a user; it can fail. -/
  registrationResponseHook : Option (String → Option (List Header)) := none
  clusterSelfAddr : Option SipAddr := none
  defaultContactAddr : Option SipAddr := none
  allows : List String := []
  locatorEvents : Bool := false

inductive LocatorOfflineReason where
  | transportClosed
  | expired

inductive LocatorEvent where
  | registered (location : Location)
  | refreshed (location : Location)
  | unregistered (location : Location)
  | offline (locations : List Location) (reason : LocatorOfflineReason)

structure RegisterReply where
  status : Nat
  headers : List Header := []

structure Registry where
  locator : MemoryLocator := {}
  events : List LocatorEvent := []

def locationsWithoutActiveBindings (l : MemoryLocator) (now : Nat) (removed : List Location) :
    List Location :=
  removed.filter fun loc =>
    loc.registeredUsername.any fun username => !l.hasActiveBindings now username loc.registeredRealm

namespace Registry

variable (srv : RegistrarServer) (now : Nat) (tx : Transaction) (user : SipUser)

variable (registeredAor : Uri) (r : Registry)

def sendUnregistered (removed : Location) : Registry :=
  if srv.locatorEvents then
    { r with
      events := r.events ++
        (locationsWithoutActiveBindings r.locator now [removed]).map .unregistered }
  else r

def grantedExpires (globalExpires : Option Nat) (contact : ParsedContact) : Nat :=
  min ((contact.expires.or globalExpires).getD (srv.registrarExpires.getD 30))
    (srv.maxRegistrarExpires.getD 50)

def locationOf (registeredAor : Uri) (expires : Nat) (contact : ParsedContact) : Location :=
  let destination := user.destination.getD contact.destinationFromUri
  let overWebSocket (t : Option Transport) : Bool := t == some .ws || t == some .wss
  let isInvalid := contact.uri.host.print.tails.any fun t => ".invalid".toList.isPrefixOf t
  { aor := contact.uri
    expires
    destination := some destination
    lastModified := some now
    supportsWebrtc := (overWebSocket contact.transport && isInvalid) ||
      overWebSocket destination.transport || user.isSupportWebrtc
    -- all but From, To, Call-ID, CSeq and Via
    headers := some tx.original.headers
    registeredUsername := some user.username
    registeredRealm := user.realm
    registeredAor := some registeredAor
    contactRaw := some (contact.contactValue expires)
    instanceId := contact.instanceId
    gruu := contact.gruu
    tempGruu := contact.tempGruu
    transport := contact.transport.or destination.transport
    userAgent := tx.original.headers.findSome? fun
      | .userAgent value => some value
      | _ => none
    homeProxy := srv.clusterSelfAddr.or srv.defaultContactAddr }

def registerContact (registeredAor : Uri) (globalExpires : Option Nat) (r : Registry)
    (contact : ParsedContact) : Registry :=
  let expires := grantedExpires srv globalExpires contact
  let location := locationOf srv now tx user registeredAor expires contact
  let isRefresh := expires != 0 && r.locator.hasActiveBindings now user.username user.realm
  let locator := r.locator.register srv.lib.uri now user.username user.realm location
  let r := { r with locator }
  if expires = 0 then sendUnregistered srv now r location
  else if srv.locatorEvents then
    let event := if isRefresh then .refreshed location else .registered location
    { r with events := r.events ++ [event] }
  else r

def unregisterAll (registeredAor : Uri) (r : Registry) : Registry :=
  let r := { r with locator := r.locator.unregister user.username user.realm }
  sendUnregistered srv now r {
    aor := registeredAor
    registeredUsername := some user.username
    registeredRealm := user.realm
    registeredAor := some registeredAor }

@[simp] theorem sendUnregistered_locator :
    (sendUnregistered srv now r removed).locator = r.locator := by
  unfold sendUnregistered
  split <;> rfl

theorem registerContact_locator (globalExpires : Option Nat) :
    (registerContact srv now tx user registeredAor globalExpires r contact).locator =
      r.locator.register srv.lib.uri now user.username user.realm (locationOf srv now tx user
        registeredAor (grantedExpires srv globalExpires contact) contact) := by
  unfold registerContact
  simp only
  split
  · rw [sendUnregistered_locator]
  split
  · dsimp only
  · dsimp only

theorem unregisterAll_locator : (unregisterAll srv now user registeredAor r).locator =
      r.locator.unregister user.username user.realm := by
  unfold unregisterAll
  rw [sendUnregistered_locator]

end Registry

def registeringUserOf (lib : SipLib) (tx : Transaction) (cookie : TransactionCookie) :
    Option SipUser :=
  let named := SipUser.tryFrom lib tx
  (cookie.user.or named).map fun user => named.elim user user.mergeWith

def addresses (entries : List ContactEntry) : List ParsedContact :=
  entries.filterMap fun
    | .address contact => some contact
    | .wildcard => none

inductive RegisterRequest where
  | unregisterAll (user : SipUser) (registeredAor : Uri)
  | register (user : SipUser) (registeredAor : Uri) (globalExpires : Option Nat)
    (contacts : List ParsedContact)

def globalExpires (req : Request) : Option Nat :=
  req.expires.bind fun v => Str.parseUnsigned (2 ^ 32) v.toList

def responseHeaders (srv : RegistrarServer) (registeredAor : Uri) : Option (List Header) :=
  match srv.registrationResponseHook with
  | none => some []
  | some hook => hook (registeredAor.user.getD "")

def classifyRegister (user : SipUser) (registeredAor : Uri) (globalExpires : Option Nat)
    (entries : List ContactEntry) : Except Nat RegisterRequest :=
  if entries.any (·.isWildcard) then
    if 1 < entries.length ∨ globalExpires.getD 0 ≠ 0 then .error 400
    else .ok (.unregisterAll user registeredAor)
  else .ok (.register user registeredAor globalExpires (addresses entries))

def readRegister (srv : RegistrarServer) (tx : Transaction) (cookie : TransactionCookie) :
    Except Nat (RegisterRequest × List Header) :=
  match registeringUserOf srv.lib tx cookie, tx.original.toHeader.bind (·.uri),
    parseContactHeaders srv.lib tx.original with
  | some user, some registeredAor, some entries =>
    if entries.isEmpty then .error 400
    else
      match responseHeaders srv registeredAor with
      | none => .error 503
      | some headers =>
        (classifyRegister user registeredAor (globalExpires tx.original) entries).map (·, headers)
  | _, _, _ => .error 400

theorem readRegister_ok (h : readRegister srv tx cookie = .ok (request, headers)) :
    (∃ user aor, request = .unregisterAll user aor) ∨
      ∃ user aor entries, registeringUserOf srv.lib tx cookie = some user ∧
        tx.original.toHeader.bind (·.uri) = some aor ∧
        parseContactHeaders srv.lib tx.original = some entries ∧
        request = .register user aor (globalExpires tx.original) (addresses entries) := by
  unfold readRegister at h
  split at h
  · next user aor entries huser haor hentries =>
    split at h
    · cases h
    split at h
    · cases h
    unfold classifyRegister at h
    split at h
    · split at h
      · cases h
      · cases h
        exact .inl ⟨user, aor, rfl⟩
    · cases h
      exact .inr ⟨user, aor, entries, huser, haor, hentries, rfl⟩
  · cases h

def applyRegister (srv : RegistrarServer) (now : Nat) (tx : Transaction) (r : Registry)
    (headers : List Header) : RegisterRequest → List Header × Registry
  | .unregisterAll user registeredAor =>
    (headers, r.unregisterAll srv now user registeredAor)
  | .register user registeredAor globalExpires contacts =>
    let granted := contacts.map fun c => (c, Registry.grantedExpires srv globalExpires c)
    let contactHeaders := granted.map fun (c, expires) =>
      Header.other "Contact" (c.contactValue expires)
    let allow :=
      if srv.allows.isEmpty then [] else [Header.other "Allow" (String.intercalate "," srv.allows)]
    let maxExpires := (granted.map Prod.snd).foldl max 0
    (headers ++ contactHeaders ++ allow ++
        [.other "Expires" (String.ofList (Nat.toDigits 10 maxExpires))],
      contacts.foldl (Registry.registerContact srv now tx user registeredAor globalExpires) r)

def registrar (srv : RegistrarServer) (now : Nat) (tx : Transaction) (cookie : TransactionCookie)
    (r : Registry) : ProxyAction × Option RegisterReply × Registry :=
  if tx.original.method ≠ .register then (.continue, none, r)
  else
    match readRegister srv tx cookie with
    | .error status => (.abort, some { status }, r)
    | .ok (request, headers) =>
      let done := applyRegister srv now tx r headers request
      (.abort, some { status := 200, headers := done.1 }, done.2)

end RustPbx.Proxy
