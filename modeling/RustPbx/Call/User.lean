import RustPbx.Sip.Types

/-!
The user a request speaks for.

`SipUser.tryFrom` reads the user off a request. Nothing is verified here. `mergeWith` completes a
stored user from a request; it never changes the name.
-/

namespace RustPbx.Call

open Sip Option

structure Authorization where
  username : String
  realm : String

structure TypedContact where
  displayName : Option String
  uri : Uri
  params : List (String × Option String)

structure SipLib where
  parseAuthorization : String → Option Authorization
  parseContact : List Char → Option TypedContact
  uri : UriLib
  sipScheme : Transport → Scheme

structure SipUser where
  id : Nat := 0
  enabled : Bool := true
  username : String := ""
  password : Option String := none
  realm : Option String := none
  departmentIds : List Int := []
  displayName : Option String := none
  email : Option String := none
  phone : Option String := none
  note : Option String := none
  allowGuestCalls : Bool := false
  originContact : Option TypedContact := none
  contact : Option TypedContact := none
  fromUri : Option Uri := none
  destination : Option SipAddr := none
  isSupportWebrtc : Bool := false
  iceLite : Bool := false

def paramText : String × Option String → String
  | (name, none) => ";" ++ name
  | (name, some value) => ";" ++ name ++ "=" ++ value

def portText (port : UInt16) : String :=
  String.ofList (Nat.toDigits 10 port.toNat)

namespace SipUser

def mergeWith (u other : SipUser) : SipUser where
  id := if u.id = 0 then other.id else u.id
  enabled := u.enabled
  username := u.username
  password := u.password.or other.password
  realm := u.realm.or other.realm
  departmentIds := if u.departmentIds.isEmpty then other.departmentIds else u.departmentIds
  displayName := u.displayName.or other.displayName
  email := u.email.or other.email
  phone := u.phone.or other.phone
  note := u.note.or other.note
  allowGuestCalls := u.allowGuestCalls || other.allowGuestCalls
  originContact := u.originContact.or other.originContact
  contact := u.contact.or other.contact
  fromUri := u.fromUri.or other.fromUri
  destination := u.destination.or other.destination
  isSupportWebrtc := u.isSupportWebrtc || other.isSupportWebrtc
  iceLite := u.iceLite || other.iceLite

variable (u other : SipUser)

theorem mergeWith_mergeWith : (u.mergeWith other).mergeWith other = u.mergeWith other := by
  simp only [mergeWith, mk.injEq, Option.or_assoc, Bool.or_assoc, Bool.or_self]
  constructor
  · split <;> simp_all
  · split <;> simp_all

@[simp] theorem mergeWith_username : (u.mergeWith other).username = u.username := rfl

def getContactUsername : String :=
  match u.originContact with
  | some contact => contact.uri.user.getD ""
  | none => u.username

def buildContact (lib : SipLib) (tx : Transaction) (u : SipUser) : SipUser :=
  match tx.localAddrs.head? with
  | none => u
  | some addr =>
    let params :=
      match addr.transport with
      | some .udp | none => []
      | some t => [("transport", some t.name)]
    { u with
      contact := some {
        displayName := none
        uri := {
          scheme := addr.transport.map lib.sipScheme
          auth := some ⟨u.getContactUsername, none⟩
          hostWithPort := addr.addr
          params := [] }
        params } }

/-- The destination on a reliable connection is its peer; the transport stays the one of the Via
header. -/
def applyFlowDestination (destination : SipAddr) (connection : Option Connection) : SipAddr :=
  match connection with
  | none => destination
  | some conn =>
    match conn.reliable, conn.remoteAddr with
    | true, some remote =>
      match remote.addr.host with
      | .ipAddr ip =>
        if ip.isUnspecified then destination else { destination with addr := remote.addr }
      | .domain _ => { destination with addr := remote.addr }
    | _, _ => destination

/-- Those of the first Authorization header, and only without one those of the first
Proxy-Authorization header. -/
def checkAuthorizationHeaders (lib : SipLib) (req : Request) : Option Authorization :=
  let authorization := req.headers.findSome? fun
    | .authorization value => some value
    | _ => none
  let proxyAuthorization := req.headers.findSome? fun
    | .proxyAuthorization value => some value
    | _ => none
  (authorization.or proxyAuthorization).bind lib.parseAuthorization

def identity (lib : SipLib) (req : Request) (fromUri : Uri) : String × Option String :=
  match checkAuthorizationHeaders lib req with
  | some auth => (auth.username, some auth.realm)
  | none =>
    (fromUri.user.getD "", some <|
      match fromUri.hostWithPort.port with
      | some port => fromUri.hostText ++ ":" ++ portText port
      | none => fromUri.hostText)

def tryFrom (lib : SipLib) (tx : Transaction) : Option SipUser := do
  let fromHeader ← tx.original.fromHeader
  let fromUri ← fromHeader.uri
  let (username, realm) := identity lib tx.original fromUri
  let originContact := (tx.original.headers.findSome? fun
    | .contact value => some value
    | _ => none).bind lib.parseContact
  let via ← tx.original.topVia
  let (viaTransport, destinationAddr) ← via.target
  let destination := applyFlowDestination ⟨some viaTransport, destinationAddr⟩ tx.connection
  let contactDeclaresIce := originContact.any fun contact =>
    contact.params.any fun p => Str.eqIgnoreAsciiCase (paramText p) ";+sip.ice"
  let overWebSocket := viaTransport == .ws || viaTransport == .wss
  return buildContact lib tx {
    username, realm, originContact
    fromUri := some fromUri
    destination := some destination
    isSupportWebrtc := overWebSocket || contactDeclaresIce
    iceLite := contactDeclaresIce && !overWebSocket
    displayName := fromHeader.displayName }

@[simp] theorem buildContact_password : (u.buildContact lib tx).password = u.password := by
  unfold buildContact
  split <;> rfl

theorem tryFrom_password {u : SipUser} (h : tryFrom lib tx = some u) : u.password = none := by
  simp only [tryFrom, bind_eq_bind, bind_eq_some_iff] at h
  obtain ⟨_, _, _, _, _, _, _, _, h⟩ := h
  obtain rfl := some.inj h
  simp

end SipUser

end RustPbx.Call
