import RustPbx.Call.User
import RustPbx.Lib.Lru

/-!
The authentication module of the proxy.

A REGISTER or INVITE passes when an authentication backend, a trunk, a cluster peer, a verified
digest or a callee open to guests vouches for it. A request inside a dialog may pass on the word of
the dialog cache, which remembers the Call-ID, the From tag and the source of a request that was
authenticated, and not the user.
-/

namespace RustPbx.Proxy

open Sip Call

/-- The Call-ID and the From tag of a dialog. -/
abbrev AuthCacheKey := String × String

structure AuthCacheEntry where
  sourceAddr : SipAddr
  authenticatedAt : Nat
  ttl : Nat

def AuthCacheEntry.isExpired (entry : AuthCacheEntry) (now : Nat) : Bool :=
  entry.ttl < now - entry.authenticatedAt

structure AuthCacheConfig where
  enabled : Bool
  cacheSize : Nat
  ttlSeconds : Nat

structure DialogAuthCache where
  inner : Lru AuthCacheKey AuthCacheEntry
  /-- In nanoseconds. -/
  ttl : Nat

namespace DialogAuthCache

def new (impl : Lru.Impl AuthCacheKey AuthCacheEntry) (config : AuthCacheConfig) :
    DialogAuthCache where
  inner :=
    if h : 0 < config.cacheSize then .empty impl config.cacheSize h
    else .empty impl 10000 (by decide)
  ttl := config.ttlSeconds * 10 ^ 9

def put (cache : DialogAuthCache) (now : Nat) (key : AuthCacheKey) (sourceAddr : SipAddr) :
    DialogAuthCache :=
  { cache with inner := cache.inner.put key ⟨sourceAddr, now, cache.ttl⟩ }

/-- Whether a dialog was authenticated from this source; asking counts as a use of the entry. -/
def isAuthenticated (cache : DialogAuthCache) (now : Nat) (key : AuthCacheKey)
    (sourceAddr : SipAddr) : Bool × DialogAuthCache :=
  let found := cache.inner.get key
  (found.1.any fun e => !e.isExpired now && e.sourceAddr == sourceAddr,
    { cache with inner := found.2 })

theorem mem_of_isAuthenticated {cache : DialogAuthCache}
    (h : (cache.isAuthenticated now key sourceAddr).1 = true) :
    ∃ entry, (key, entry) ∈ cache.inner.entries ∧ entry.sourceAddr = sourceAddr := by
  rw [isAuthenticated, Lru.get_fst] at h
  cases hfind : cache.inner.find? key with
  | none => simp [hfind] at h
  | some entry =>
    simp only [hfind, Option.any_some, Bool.and_eq_true, beq_iff_eq] at h
    exact ⟨entry, Lru.Content.mem_of_find? hfind, h.2⟩

end DialogAuthCache

inductive AuthError where
  | notFound
  | disabled
  | invalidCredentials
  | spamDetected
  | paymentRequired
  | other (text : String)
  deriving DecidableEq

def AuthError.text : AuthError → String
  | .notFound => "User not found"
  | .invalidCredentials => "Invalid credentials"
  | .spamDetected => "Spam detected"
  | .paymentRequired => "Payment required"
  | .disabled => "User is disabled"
  | .other text => text

structure TransactionCookie where
  user : Option SipUser := none
  isSpam : Bool := false
  /-- Whether an earlier module found that the request comes from a trunk. -/
  fromTrunk : Bool := false
  calleeDisplayName : Option String := none

/-- The server when a request arrives. The user backend, the digest verification and the other
sources of authentication are arbitrary. -/
structure Server where
  lib : SipLib
  verifyDigest : Authorization → String → Method → String → Bool
  getUser : String → Option String → Request → Except AuthError (Option SipUser)
  isSameRealm : String → Bool
  isBanned : SipAddr → Bool := fun _ => false
  authBackend : List (Request → TransactionCookie → Except AuthError (Option SipUser)) := []
  clusterPeerIps : List IpAddr := []
  ensureUser : Option Bool := none
  realms : Option (List String) := none

inductive ProxyAction where
  | «continue»
  | abort

structure Challenge where
  status : Nat
  realm : String

structure AuthState where
  cookie : TransactionCookie
  dialogAuthCache : Option DialogAuthCache
  reply : Option Challenge := none

inductive AuthFailure where
  /-- The SIP stack could not read a header of the request. -/
  | malformedRequest
  | authentication (text : String)

abbrev AuthResult := Except AuthFailure ProxyAction × AuthState

def AuthState.setUser (st : AuthState) (user : SipUser) : AuthState :=
  { st with cookie := { st.cookie with user := some user } }

def AuthState.markAsSpam (st : AuthState) : AuthState :=
  { st with cookie := { st.cookie with isSpam := true } }

inductive AuthAttemptOutcome where
  | noCredentials
  | disabled
  | realmMismatch
  | badCredentials
  | unknownUser
  | success

/-- The credentials that are verified, with their text: those of whichever of the two headers
comes first. -/
def credentials (lib : SipLib) (req : Request) : Option (Authorization × String) :=
  (req.headers.findSome? fun
    | .authorization value => some value
    | .proxyAuthorization value => some value
    | _ => none).bind fun value => (lib.parseAuthorization value).map (·, value)

def authenticateRequestInner (srv : Server) (tx : Transaction) :
    Except AuthError (Option SipUser × AuthAttemptOutcome) :=
  match credentials srv.lib tx.original with
  | none => .ok (none, .noCredentials)
  | some (auth, raw) =>
    match SipUser.tryFrom srv.lib tx with
    | none => .error (.other "malformed request")
    | some user =>
      match srv.getUser user.username user.realm tx.original with
      | .error e => .error e
      | .ok none => .ok (none, .unknownUser)
      | .ok (some stored) =>
        if !stored.enabled then .ok (none, .disabled)
        else if user.realm.any fun realm => !srv.isSameRealm realm then
          .ok (none, .realmMismatch)
        else
          let stored := stored.mergeWith user
          if srv.verifyDigest auth (stored.password.getD "") tx.original.method raw then
            .ok (some stored, .success)
          else .ok (none, .badCredentials)

/-- A digest is verified against the password of `stored`, whom the backend holds under the name and
realm of `named`, whom the request names. -/
structure VerifiedDigest (srv : Server) (tx : Transaction) (named stored : SipUser) : Prop where
  names : SipUser.tryFrom srv.lib tx = some named
  holds : srv.getUser named.username named.realm tx.original = .ok (some stored)
  verifies : ∃ auth raw, credentials srv.lib tx.original = some (auth, raw) ∧
    srv.verifyDigest auth (stored.password.getD "") tx.original.method raw = true

variable {now : Nat}

theorem authenticateRequestInner_some
    (h : authenticateRequestInner srv tx = .ok (some user, outcome)) :
    ∃ named stored, VerifiedDigest srv tx named stored ∧ user = stored.mergeWith named := by
  unfold authenticateRequestInner at h
  split at h
  · simp at h
  next auth raw hcred =>
  split at h
  · simp at h
  next named hnamed =>
  split at h
  · simp at h
  · simp at h
  next stored hstored =>
  have hpassword : (stored.mergeWith named).password = stored.password := by
    simp [SipUser.mergeWith, SipUser.tryFrom_password hnamed]
  simp only [hpassword] at h
  split at h
  · simp at h
  split at h
  · simp at h
  split at h
  · next hverified =>
    refine ⟨named, stored, ⟨hnamed, hstored, auth, raw, hcred, hverified⟩, ?_⟩
    simp only [Except.ok.injEq, Prod.mk.injEq, Option.some.injEq] at h
    exact h.1.symm
  · simp at h

/-! ## The module -/

def isInDialogRequest (tx : Transaction) : Bool :=
  (tx.original.toHeader.bind (·.tag)).isSome

def extractAuthCacheKey (tx : Transaction) : Option AuthCacheKey := do
  let callId ← tx.original.callId
  let fromHeader ← tx.original.fromHeader
  let fromTag ← fromHeader.tag
  return (callId, fromTag)

def authenticatedByCache (cache : Option DialogAuthCache) (now : Nat) (tx : Transaction) :
    Bool × Option DialogAuthCache :=
  match isInDialogRequest tx, cache, extractAuthCacheKey tx, tx.sourceAddr with
  | true, some cache, some key, some source =>
    let answer := cache.isAuthenticated now key source
    (answer.1, some answer.2)
  | _, cache, _, _ => (false, cache)

def cacheDialog (cache : Option DialogAuthCache) (now : Nat) (tx : Transaction) :
    Option DialogAuthCache :=
  match cache, tx.sourceAddr, extractAuthCacheKey tx with
  | some cache, some source, some key => some (cache.put now key source)
  | cache, _, _ => cache

def isClusterPeerSource (srv : Server) (tx : Transaction) : Bool :=
  match tx.sourceAddr with
  | none => false
  | some source =>
    match source.addr.host with
    | .ipAddr ip => ip != .v4 0 0 0 0 && srv.clusterPeerIps.contains ip
    | .domain _ => false

def askBackends (tx : Transaction) :
    List (Request → TransactionCookie → Except AuthError (Option SipUser)) → AuthState →
      Option SipUser × AuthState
  | [], st => (none, st)
  | backend :: rest, st =>
    match backend tx.original st.cookie with
    | .ok (some user) => (some user, st)
    | .ok none => askBackends tx rest st
    | .error .spamDetected => askBackends tx rest st.markAsSpam
    | .error _ => askBackends tx rest st

def normalizeRealm (realm : String) : String :=
  let realm := (Str.splitOnce ':' realm.toList).elim realm fun (host, _) => String.ofList host
  if realm = "" ∨ realm = "*" ∨ realm = "127.0.0.1" ∨ realm = "::1" then "localhost" else realm

def selectRealm (realms : Option (List String)) (requestHost : String) : String :=
  let requested := Str.trim requestHost
  let normalized := normalizeRealm requested
  let listed := realms.bind fun realms =>
    (realms.find? fun realm => realm = requested ∨ realm = normalized).or
      (realms.head?.filter (· ≠ ""))
  listed.getD (if requested = "" then normalized else requested)

def guestCallee (srv : Server) (tx : Transaction) (toUri : Uri) : Option SipUser :=
  if tx.original.method = .invite then
    match srv.getUser (toUri.user.getD "") (some toUri.hostText) tx.original with
    | .ok (some callee) => if callee.allowGuestCalls then some callee else none
    | _ => none
  else none

def isKnownUser (srv : Server) (username realm : String) (tx : Transaction) : Bool :=
  match srv.getUser username (some realm) tx.original with
  | .ok (some _) => true
  | _ => false

def denyRequest (srv : Server) (tx : Transaction) (txUser : SipUser) (st : AuthState) :
    AuthResult :=
  match tx.original.toHeader.bind (·.uri), tx.original.fromHeader.bind (·.uri) with
  | none, _ => (.error .malformedRequest, st)
  | some toUri, fromUri =>
    match guestCallee srv tx toUri, fromUri with
    | some callee, _ =>
      let st := st.setUser txUser
      let calleeDisplayName := callee.displayName.or st.cookie.calleeDisplayName
      (.ok .continue, { st with cookie := { st.cookie with calleeDisplayName } })
    | none, none => (.error .malformedRequest, st)
    | none, some fromUri =>
      let realm := selectRealm srv.realms tx.original.uri.hostText
      if srv.ensureUser.getD false && !isKnownUser srv (fromUri.user.getD "") realm tx then
        (.ok .abort, st.markAsSpam)
      else
        let status := if tx.original.method = .register then 401 else 407
        (.ok .abort, { st with reply := some ⟨status, realm⟩ })

def authenticate (srv : Server) (now : Nat) (tx : Transaction) (txUser : SipUser)
    (st : AuthState) : AuthResult :=
  match askBackends tx srv.authBackend st with
  | (some user, st) =>
    let st := st.setUser (user.mergeWith txUser)
    (.ok .continue, { st with dialogAuthCache := cacheDialog st.dialogAuthCache now tx })
  | (none, st) =>
    if st.cookie.isSpam then (.ok .abort, st)
    else if st.cookie.fromTrunk then (.ok .continue, st.setUser txUser)
    else if isClusterPeerSource srv tx && srv.isSameRealm tx.original.uri.hostText then
      (.ok .continue, st.setUser txUser)
    else
      match authenticateRequestInner srv tx with
      | .error e =>
        (.error (.authentication ("Authentication error: " ++ e.text)),
          if e = .spamDetected then st.markAsSpam else st)
      | .ok (some user, _) =>
        let st := st.setUser user
        (.ok .continue, { st with dialogAuthCache := cacheDialog st.dialogAuthCache now tx })
      | .ok (none, _) => denyRequest srv tx txUser st

def onTransactionBegin (srv : Server) (now : Nat) (tx : Transaction) (st : AuthState) :
    AuthResult :=
  match SipUser.tryFrom srv.lib tx with
  | none => (.error .malformedRequest, st)
  | some txUser =>
    if tx.sourceAddr.any srv.isBanned then (.ok .abort, st)
    else
      let vouched := authenticatedByCache st.dialogAuthCache now tx
      let st := { st with dialogAuthCache := vouched.2 }
      if vouched.1 then (.ok .continue, st.setUser txUser)
      else if isInDialogRequest tx ∧ tx.original.method = .invite then
        -- a re-INVITE is left to the dialog layer
        (.ok .continue, st.setUser txUser)
      else if tx.original.method ≠ .invite ∧ tx.original.method ≠ .register then
        (.ok .continue, st)
      else authenticate srv now tx txUser st

/-! ## The ways to pass -/

/-- The cache holds an entry for the dialog and the source of a request. -/
def Known (cache : Option DialogAuthCache) (tx : Transaction) : Prop :=
  ∃ c ∈ cache, ∃ key entry, (key, entry) ∈ c.inner.entries ∧
    extractAuthCacheKey tx = some key ∧ tx.sourceAddr = some entry.sourceAddr

/-- Two requests with the same Call-ID, From tag and source address. -/
def SameDialog (a b : Transaction) : Prop :=
  ∃ key source, (extractAuthCacheKey a = some key ∧ a.sourceAddr = some source) ∧
    extractAuthCacheKey b = some key ∧ b.sourceAddr = some source

theorem known_of_cacheDialog (h : Known (cacheDialog cache now tx) other) :
    Known cache other ∨ SameDialog tx other := by
  unfold cacheDialog at h
  split at h
  · next cache source key hsource hkey =>
    obtain ⟨c, hc, key', entry, hmem, hkey', hsource'⟩ := h
    obtain rfl := Option.mem_some.mp hc
    rcases Lru.mem_put hmem with heq | hmem
    · cases heq
      exact .inr ⟨key, source, ⟨hkey, hsource⟩, hkey', hsource'⟩
    · exact .inl ⟨cache, rfl, key', entry, hmem, hkey', hsource'⟩
  · exact .inl h

theorem known_of_authenticatedByCache (h : Known (authenticatedByCache cache now tx).2 other) :
    Known cache other := by
  unfold authenticatedByCache at h
  split at h
  · next cache key source hdialog hkey hsource =>
    obtain ⟨c, hc, key', entry, hmem, h⟩ := h
    obtain rfl := Option.mem_some.mp hc
    exact ⟨cache, rfl, key', entry, Lru.mem_get.mp hmem, h⟩
  · exact h

theorem authenticatedByCache_hit (h : (authenticatedByCache cache now tx).1 = true) :
    isInDialogRequest tx = true ∧ Known cache tx := by
  unfold authenticatedByCache at h
  split at h
  · next cache key source hdialog hkey hsource =>
    obtain ⟨entry, hmem, rfl⟩ := DialogAuthCache.mem_of_isAuthenticated h
    exact ⟨hdialog, cache, rfl, key, entry, hmem, hkey, hsource⟩
  · cases h

/-- The digest is the only thing that can vouch for a request. -/
structure DigestOnly (srv : Server) (tx : Transaction) (cookie : TransactionCookie) : Prop where
  noBackend : srv.authBackend = []
  noTrunk : cookie.fromTrunk = false
  noPeer : isClusterPeerSource srv tx = false
  noGuest : ∀ toUri, tx.original.toHeader.bind (·.uri) = some toUri →
    guestCallee srv tx toUri = none

theorem denyRequest_digestOnly (honly : DigestOnly srv tx st.cookie)
    (h : denyRequest srv tx txUser st = (result, st')) :
    result ≠ .ok .continue ∧ st'.dialogAuthCache = st.dialogAuthCache := by
  unfold denyRequest at h
  split at h
  · cases h
    exact ⟨by simp, rfl⟩
  next toUri hto =>
  rw [honly.noGuest toUri hto] at h
  split at h
  · next heq => cases heq
  · cases h
    exact ⟨by simp, rfl⟩
  · simp only at h
    split at h
    all_goals
      cases h
      exact ⟨by simp, rfl⟩

theorem authenticate_digestOnly (h : authenticate srv now tx txUser st = (result, st'))
    (honly : DigestOnly srv tx st.cookie) :
    (∃ user outcome, authenticateRequestInner srv tx = .ok (some user, outcome) ∧
      st'.cookie.user = some user ∧ st'.dialogAuthCache = cacheDialog st.dialogAuthCache now tx) ∨
    (result ≠ .ok .continue ∧ st'.dialogAuthCache = st.dialogAuthCache) := by
  rw [authenticate, honly.noBackend, askBackends] at h
  simp only [honly.noTrunk, honly.noPeer, Bool.false_and, Bool.false_eq_true, if_false] at h
  split at h
  · cases h
    exact .inr ⟨by simp, rfl⟩
  split at h
  · cases h
    exact .inr ⟨by simp, by split <;> rfl⟩
  · next user outcome hauth =>
    cases h
    exact .inl ⟨user, outcome, hauth, rfl, rfl⟩
  · exact .inr (denyRequest_digestOnly honly h)

/-- A REGISTER, or an INVITE outside a dialog. -/
def NeedsAuth (tx : Transaction) : Prop :=
  tx.original.method = .register ∨ (tx.original.method = .invite ∧ isInDialogRequest tx = false)

/-- **How a request passes by its digest alone**: as the user its digest verifies, or on the word of
the cache as the user it names. -/
theorem onTransactionBegin_continue (h : onTransactionBegin srv now tx st = (.ok .continue, st'))
    (honly : DigestOnly srv tx st.cookie) (hneeds : NeedsAuth tx) :
    (∃ user outcome, authenticateRequestInner srv tx = .ok (some user, outcome) ∧
      st'.cookie.user = some user) ∨ (isInDialogRequest tx = true ∧ Known st.dialogAuthCache tx ∧
      st'.cookie.user = SipUser.tryFrom srv.lib tx) := by
  unfold onTransactionBegin at h
  split at h
  · cases h
  next txUser hnames =>
  split at h
  · cases h
  simp only at h
  split at h
  · next hvouched =>
    cases h
    exact .inr ⟨(authenticatedByCache_hit hvouched).1, (authenticatedByCache_hit hvouched).2,
      hnames.symm⟩
  split at h
  · next hre => simp [NeedsAuth, hre.1, hre.2] at hneeds
  split at h
  · next hmethod => simp [NeedsAuth, hmethod.1, hmethod.2] at hneeds
  rcases authenticate_digestOnly h honly with ⟨user, outcome, hauth, huser, -⟩ | ⟨hfail, -⟩
  · exact .inl ⟨user, outcome, hauth, huser⟩
  · exact absurd rfl hfail

/-- **What the cache learns by digests alone**: no dialog but that of a verified request. -/
theorem known_of_onTransactionBegin
    (h : Known (onTransactionBegin srv now tx st).2.dialogAuthCache other)
    (honly : DigestOnly srv tx st.cookie) : Known st.dialogAuthCache other ∨ (SameDialog tx other ∧
      ∃ user outcome, authenticateRequestInner srv tx = .ok (some user, outcome)) := by
  unfold onTransactionBegin at h
  split at h
  · exact .inl h
  next txUser hnames =>
  split at h
  · exact .inl h
  simp only at h
  iterate 3
    split at h
    · exact .inl (known_of_authenticatedByCache h)
  rcases hrun : authenticate srv now tx txUser _ with ⟨result, st'⟩
  rw [hrun] at h
  rcases authenticate_digestOnly hrun honly with ⟨user, outcome, hauth, -, hcache⟩ | ⟨-, hcache⟩
  · rw [hcache] at h
    rcases known_of_cacheDialog h with h | hsame
    · exact .inl (known_of_authenticatedByCache h)
    · exact .inr ⟨hsame, user, outcome, hauth⟩
  · rw [hcache] at h
    exact .inl (known_of_authenticatedByCache h)

end RustPbx.Proxy
