import RustPbx.Proxy.Auth

/-!
The identity of the requests that pass the authentication module, over whole runs of requests.

The dialog cache remembers that a dialog was authenticated and not as whom, so a later REGISTER in
the dialog passes as whoever it names. This is the only way a request passes as a user whose digest
was never verified.
-/

namespace RustPbx.Proxy

open Sip Call Option List

structure AuthStep where
  server : Server
  now : Nat
  tx : Transaction
  cookie : TransactionCookie := {}

namespace AuthStep

variable (s : AuthStep)

def run (cache : Option DialogAuthCache) : AuthResult :=
  onTransactionBegin s.server s.now s.tx ⟨s.cookie, cache, none⟩

/-- The module lets the request continue with `user` in the cookie. -/
def PassesAs (cache : Option DialogAuthCache) (user : SipUser) : Prop :=
  (s.run cache).1 = .ok .continue ∧ (s.run cache).2.cookie.user = some user

/-- The digest is verified against the password of `user`: the stored user, completed from the
request, or one of the name and realm it is stored under. -/
def Verifies (user : SipUser) : Prop :=
  ∃ named stored, VerifiedDigest s.server s.tx named stored ∧ (user = stored.mergeWith named ∨
      (user.username = named.username ∧ user.realm = named.realm))

def ByDigest : Prop :=
  DigestOnly s.server s.tx s.cookie

def names : Option (String × Option String) :=
  (SipUser.tryFrom s.server.lib s.tx).map fun user => (user.username, user.realm)

end AuthStep

def cacheAfter (cache : Option DialogAuthCache) (past : List AuthStep) : Option DialogAuthCache :=
  past.foldl (fun cache s => (s.run cache).2.dialogAuthCache) cache

/-- A user's digest was verified in this request or in an earlier one of the same dialog. -/
def IdentityVerified (past : List AuthStep) (s : AuthStep) (user : SipUser) : Prop :=
  s.Verifies user ∨ ∃ p ∈ past, SameDialog p.tx s.tx ∧ p.Verifies user

/-- A REGISTER inside a dialog names the user that the earlier requests of the dialog name in their
credentials. -/
def KeepsIdentity (past : List AuthStep) (s : AuthStep) : Prop :=
  s.tx.original.method = .register → isInDialogRequest s.tx = true →
    ∀ p ∈ past, SameDialog p.tx s.tx → (credentials p.server.lib p.tx.original).isSome →
      p.names = s.names

theorem not_known_new : ¬ Known (some (.new impl config)) tx := by
  intro ⟨c, hc, key, entry, hmem, _⟩
  obtain rfl := mem_some.mp hc
  unfold DialogAuthCache.new at hmem
  split at hmem <;> cases hmem

/-- **What the cache knows was verified**: by digests alone it comes to know a dialog only if a
request of it carried a verified digest. -/
theorem known_of_cacheAfter (hpast : ∀ p ∈ past, p.ByDigest)
    (h : Known (cacheAfter cache past) tx) :
    Known cache tx ∨ ∃ p ∈ past, SameDialog p.tx tx ∧ ∃ named stored,
      VerifiedDigest p.server p.tx named stored := by
  induction past generalizing cache with
  | nil => exact .inl h
  | cons p past ih =>
    rw [forall_mem_cons] at hpast
    rcases ih hpast.2 h with h | ⟨q, hq, h⟩
    · rcases known_of_onTransactionBegin h hpast.1 with h | ⟨hsame, user, outcome, hauth⟩
      · exact .inl h
      · obtain ⟨named, stored, hverified, -⟩ := authenticateRequestInner_some hauth
        exact .inr ⟨p, mem_cons_self, hsame, named, stored, hverified⟩
    · exact .inr ⟨q, mem_cons_of_mem p hq, h⟩

/-! ## A dialog that changes hands -/

def twoUserServer : Server where
  lib := {
    parseAuthorization := fun raw => if raw = "alice" then some ⟨"alice", "pbx"⟩ else none
    parseContact := fun _ => none
    uri := ⟨fun _ => .error "", fun _ => "", fun _ => .error ""⟩
    sipScheme := fun _ => .sip }
  verifyDigest := fun _ password _ raw => password == "secret" && raw == "alice"
  getUser := fun name _ _ =>
    if name = "alice" then .ok (some { username := "alice", password := some "secret" })
    else if name = "bob" then .ok (some { username := "bob", password := some "hidden" })
    else .ok none
  isSameRealm := fun realm => realm == "pbx"

def registerAs (user : String) (headers : List Header) (toTag : Option String) : Transaction where
  original := {
    method := .register
    uri := pbxUri none
    headers
    topVia := some { target := some (.udp, ⟨.domain "phone".toList, none⟩) }
    fromHeader := some { uri := some (pbxUri user), tag := some "tag" }
    toHeader := some { uri := some (pbxUri user), tag := toTag }
    callId := some "call" }
  connection := some ⟨some ⟨some .udp, ⟨.domain "phone".toList, none⟩⟩, false⟩
where
  pbxUri (user : Option String) : Uri :=
    ⟨some .sip, user.map (⟨·, none⟩), ⟨.domain "pbx".toList, none⟩, []⟩

def aliceRegisters : AuthStep :=
  ⟨twoUserServer, 0, registerAs "alice" [.authorization "alice"] none, {}⟩

def reRegister (user : String) : AuthStep :=
  ⟨twoUserServer, 1, registerAs user [] (some "tag"), {}⟩

theorem registerAs_byDigest :
    (⟨twoUserServer, now, registerAs user headers toTag, {}⟩ : AuthStep).ByDigest :=
  ⟨rfl, rfl, rfl, fun _ _ => rfl⟩

/-- **By digests alone** a REGISTER or an INVITE outside a dialog passes only as a user whose digest
was verified in it or earlier in its dialog, if a REGISTER inside a dialog keeps to its user. -/
theorem passes_of_keepsIdentity (impl : Lru.Impl AuthCacheKey AuthCacheEntry)
    (config : AuthCacheConfig) (past : List AuthStep) (s : AuthStep) (user : SipUser)
    (hrun : ∀ p ∈ past, p.ByDigest) (hs : s.ByDigest) (hneeds : NeedsAuth s.tx)
    (hkeeps : KeepsIdentity past s)
    (hpasses : s.PassesAs (cacheAfter (some (.new impl config)) past) user) :
    IdentityVerified past s user := by
  obtain ⟨hcontinue, huser⟩ := hpasses
  rcases onTransactionBegin_continue (Prod.ext hcontinue rfl) hs hneeds with
    ⟨verified, outcome, hauth, huser'⟩ | ⟨hdialog, hknown, huser'⟩
  · -- by its own digest
    obtain ⟨named, stored, hverified, rfl⟩ := authenticateRequestInner_some hauth
    obtain rfl := some.inj (huser.symm.trans huser')
    exact .inl ⟨named, stored, hverified, .inl rfl⟩
  · -- on the word of the cache, which a request of the same dialog earned with its digest
    rcases known_of_cacheAfter hrun hknown with hknown | ⟨p, hp, hsame, named, stored, hverified⟩
    · exact absurd hknown not_known_new
    have hregister : s.tx.original.method = .register := by
      rcases hneeds with h | ⟨-, h⟩
      · exact h
      · rw [hdialog] at h
        cases h
    obtain ⟨auth, raw, hcred, -⟩ := hverified.verifies
    have hsameName := hkeeps hregister hdialog p hp hsame (by rw [hcred]; rfl)
    have hname : SipUser.tryFrom s.server.lib s.tx = some user := huser'.symm.trans huser
    rw [AuthStep.names, AuthStep.names, hverified.names, hname] at hsameName
    obtain ⟨hu, hr⟩ := Prod.mk.inj (some.inj hsameName)
    exact .inr ⟨p, hp, hsame, named, stored, hverified, .inr ⟨hu.symm, hr.symm⟩⟩

def registeringUser (user : String) : SipUser where
  username := user
  realm := some "pbx"
  fromUri := some (registerAs.pbxUri user)
  destination := some ⟨some .udp, ⟨.domain "phone".toList, none⟩⟩

theorem username_of_aliceRegisters (h : aliceRegisters.Verifies user) :
    user.username = "alice" := by
  obtain ⟨named, stored, hverified, hsame⟩ := h
  have hnamed : named = registeringUser "alice" := (Option.some.inj hverified.names).symm
  subst hnamed
  have hstored := some.inj (Except.ok.inj hverified.holds)
  rcases hsame with rfl | ⟨hname, -⟩
  · rw [SipUser.mergeWith_username, ← hstored]
  · exact hname

/-- A REGISTER that names `bob` passes as `bob` on the digest of `alice`. -/
theorem passes_as_unverified :
    ∃ (config : AuthCacheConfig) (past : List AuthStep) (s : AuthStep) (user : SipUser),
      (∀ p ∈ past, p.ByDigest) ∧ s.ByDigest ∧ NeedsAuth s.tx ∧
        s.PassesAs (cacheAfter (some (.new .recency config)) past) user ∧
        ¬ IdentityVerified past s user := by
  refine ⟨⟨true, 100, 3600⟩, [aliceRegisters], reRegister "bob", registeringUser "bob", ?_,
    registerAs_byDigest .., .inl rfl, ⟨by rfl, by rfl⟩, ?_⟩
  · intro p hp
    obtain rfl := mem_singleton.mp hp
    exact registerAs_byDigest ..
  rintro (⟨named, stored, hverified, -⟩ | ⟨p, hp, -, hverifies⟩)
  · -- the second REGISTER carries no credentials
    obtain ⟨auth, raw, hcred, -⟩ := hverified.verifies
    exact nomatch hcred
  · obtain rfl := mem_singleton.mp hp
    exact absurd (username_of_aliceRegisters hverifies) (by decide)

theorem passes_of_keepsIdentity_alice :
    (reRegister "alice").PassesAs
        (cacheAfter (some (.new .recency ⟨true, 100, 3600⟩)) [aliceRegisters])
        (registeringUser "alice") ∧
      IdentityVerified [aliceRegisters] (reRegister "alice") (registeringUser "alice") := by
  have hpasses : (reRegister "alice").PassesAs
      (cacheAfter (some (.new .recency ⟨true, 100, 3600⟩)) [aliceRegisters])
      (registeringUser "alice") :=
    ⟨by rfl, by rfl⟩
  refine ⟨hpasses, passes_of_keepsIdentity .recency ⟨true, 100, 3600⟩ _ _ _ ?_
    (registerAs_byDigest ..) (.inl rfl) ?_ hpasses⟩
  · intro p hp
    obtain rfl := mem_singleton.mp hp
    exact registerAs_byDigest ..
  · intro _ _ p hp _ _
    obtain rfl := mem_singleton.mp hp
    rfl

end RustPbx.Proxy
