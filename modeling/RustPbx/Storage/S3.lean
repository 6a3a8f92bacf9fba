import RustPbx.Lib.Effect
import RustPbx.Lib.Str

/-!
Object stores, the URLs that uploads record, and the way back to a store and a key.

A download is signed by the first store whose endpoint and bucket the URL starts with, whatever
comes next in it. A bucket whose name starts with that of another one is taken for that one, and the
virtual-host style of Aliyun is not read back at all (`presign_wrong_bucket`). The object store
library decides which settings make a store, which texts are paths and what a signature is. Backends
that cannot sign are left out.
-/

namespace RustPbx.S3

open Str List Option

inductive S3Vendor where
  | aws
  | gcp
  | azure
  | aliyun
  | tencent
  | minio
  | digitalOcean
  deriving DecidableEq

structure S3Config where
  vendor : S3Vendor := .aws
  bucket : String := ""
  region : String := ""
  accessKey : Option String := none
  secretKey : Option String := none
  endpoint : Option String := none
  keyPrefix : Option String := none
  deriving DecidableEq

structure ObjectStoreLib where
  build : S3Config → Except String Unit
  parsePath : String → Option String
  signedUrl : S3Config → String → Nat → Option String

/-- A text without the blanks around it, if anything is left. -/
def presentText (value : Option String) : Option String :=
  (value.map trim).filter (· ≠ "")

def normalizeS3Credentials :
    Option String → Option String → Except String (Option (String × String))
  | some accessKey, some secretKey => .ok (some (accessKey, secretKey))
  | none, none => .ok none
  | _, _ =>
    .error "access_key and secret_key must both be set, or neither for anonymous access"

structure Storage where
  config : S3Config
  keyPrefix : String := ""
  /-- The store has credentials to sign with. -/
  signer : Bool
  endpoint : Option String
  bucket : String
  deriving DecidableEq

def maxPresignExpirySecs : Nat := 604800

structure SignedUrl where
  storage : Storage
  path : String
  url : String
  deriving DecidableEq

namespace Storage

def signerOf (config : S3Config) : Except String Bool :=
  let accessKey := presentText config.accessKey
  let secretKey := presentText config.secretKey
  match config.vendor with
  | .gcp =>
    if accessKey.isSome && secretKey.isNone then
      .error ("gcp storage requires secret_key (service account key), " ++
        "or neither key for anonymous access")
    else .ok secretKey.isSome
  | _ => (normalizeS3Credentials accessKey secretKey).map isSome

def new (lib : ObjectStoreLib) (config : S3Config) : Except String Storage := do
  let signer ← signerOf config
  lib.build config
  return {
    config
    keyPrefix := config.keyPrefix.getD ""
    signer
    endpoint := presentText config.endpoint
    bucket := trimMatches '/' config.bucket }

variable (s : Storage)

def normalizePath (path : String) : String :=
  let path := trimStartMatches '/' path
  if s.keyPrefix = "" then path else trimEndMatches '/' s.keyPrefix ++ "/" ++ path

def objectPath (lib : ObjectStoreLib) (path : String) : Option String :=
  lib.parsePath (s.normalizePath path)

def sign (lib : ObjectStoreLib) (path : String) (expiresIn : Nat) : Option SignedUrl :=
  (lib.signedUrl s.config path (min expiresIn maxPresignExpirySecs)).map (⟨s, path, ·⟩)

def presignReadUrl (lib : ObjectStoreLib) (path : String) (expiresIn : Nat) : Option SignedUrl :=
  if s.signer then (s.objectPath lib path).bind (s.sign lib · expiresIn) else none

def keyAfter (base raw : String) : Option String :=
  match stripStart base raw with
  | some rest =>
    let key := trimStartMatches '/' rest
    if key = "" then none else some key
  | none => none

def base (endpoint : String) : String :=
  trimEndMatches '/' endpoint ++ "/" ++ trimMatches '/' s.bucket

def s3Base : String :=
  "s3://" ++ trimMatches '/' s.bucket ++ "/"

def objectKeyFromUrl (rawUrl : String) : Option String :=
  let raw := trim rawUrl
  if raw = "" then none
  else
    let ofEndpoint := (presentText s.endpoint).bind fun endpoint => keyAfter (s.base endpoint) raw
    ofEndpoint.or (keyAfter s.s3Base raw)

end Storage

structure S3TargetSpec where
  storage : Storage
  bucket : String
  endpoint : Option String
  vendor : Option S3Vendor
  root : Option String := none
  deriving DecidableEq

def s3UrlStr (endpoint : Option String) (aliyunVirtualHostStyle : Bool) (bucket key : String) :
    String :=
  let bucket := trimMatches '/' (trim bucket)
  let key := trimStartMatches '/' key
  match presentText endpoint with
  | none => "s3://" ++ bucket ++ "/" ++ key
  | some endpoint =>
    let endpoint := trimEndMatches '/' endpoint
    if aliyunVirtualHostStyle then endpoint ++ "/" ++ key
    else endpoint ++ "/" ++ bucket ++ "/" ++ key

def S3TargetSpec.s3Url (target : S3TargetSpec) (key : String) : String :=
  s3UrlStr target.endpoint (target.vendor = some .aliyun) target.bucket key

def buildS3Spec (lib : ObjectStoreLib) (vendor : Option S3Vendor) (bucket : String)
    (region accessKey secretKey endpoint root : Option String) : Except String S3TargetSpec := do
  let endpoint := presentText endpoint
  let storage ← Storage.new lib {
    vendor := vendor.getD .aws
    bucket
    region := region.getD ""
    accessKey
    secretKey
    endpoint }
  return { storage, bucket, endpoint, vendor, root }

def presignArtifactUrl (lib : ObjectStoreLib) : List (Storage × Nat) → String → Option SignedUrl
  | [], _ => none
  | (storage, expiry) :: candidates, rawUrl =>
    if storage.signer then
      match storage.objectKeyFromUrl rawUrl with
      | some key => storage.presignReadUrl lib key expiry
      | none => presignArtifactUrl lib candidates rawUrl
    else presignArtifactUrl lib candidates rawUrl

/-! ## From a URL back to its store -/

@[simp] theorem presentText_presentText : presentText (presentText value) = presentText value := by
  cases value with
  | none => rfl
  | some text =>
    by_cases h : trim text = ""
    · simp [presentText, h, filter_some]
    · simp [presentText, h, trim_trim, filter_some]

namespace Storage

variable {s : Storage}

theorem new_ok {config : S3Config} (h : new lib config = .ok s) :
    s.endpoint = presentText config.endpoint ∧ s.bucket = trimMatches '/' config.bucket := by
  obtain ⟨signer, -, h⟩ := Eff.ok_of_bind h
  obtain ⟨-, -, h⟩ := Eff.ok_of_bind h
  obtain rfl := Except.ok.inj h
  exact ⟨rfl, rfl⟩

theorem normalizePath_trimStart :
    s.normalizePath (trimStartMatches '/' path) = s.normalizePath path := by
  simp only [normalizePath, trimStartMatches_trimStartMatches]

/-- The texts that a store looks for at the start of a URL, in this order. -/
def bases (s : Storage) : List String :=
  ((presentText s.endpoint).map s.base).toList ++ [s.s3Base]

theorem keyAfter_eq_some {base : String} : keyAfter base raw = some key ↔
      ∃ rest, raw = base ++ rest ∧ trimStartMatches '/' rest = key ∧ key ≠ "" := by
  constructor
  · intro h
    rw [keyAfter] at h
    split at h
    · next rest hrest =>
      dsimp only at h
      split at h
      · nomatch h
      · next hkey =>
        obtain rfl := some.inj h
        exact ⟨rest, stripStart_eq_some.mp hrest, rfl, hkey⟩
    · nomatch h
  · rintro ⟨rest, hraw, rfl, hkey⟩
    simp [keyAfter, stripStart_eq_some.mpr hraw, hkey]

/-- The store takes the URL for one of its own: more than slashes follows one of its texts. -/
def Reads (s : Storage) (url : String) : Prop :=
  ∃ base ∈ s.bases, ∃ rest, url = base ++ rest ∧ trimStartMatches '/' rest ≠ ""

/-- The key follows the first of the texts with which the store takes the URL for one of its own. -/
def ReadsKey (s : Storage) (url key : String) : Prop :=
  ∃ before base after, s.bases = before ++ base :: after ∧
    (∃ rest, url = base ++ rest ∧ trimStartMatches '/' rest = key ∧ key ≠ "") ∧
    ∀ earlier ∈ before, ∀ rest, url = earlier ++ rest → trimStartMatches '/' rest = ""

theorem keyAfter_eq_none {base : String} : keyAfter base raw = none ↔
    ∀ rest, raw = base ++ rest → trimStartMatches '/' rest = "" := by
  rw [eq_none_iff_forall_ne_some]
  constructor
  · intro h rest hraw
    by_contra hne
    exact h _ (keyAfter_eq_some.mpr ⟨rest, hraw, rfl, hne⟩)
  · intro h key hkey
    obtain ⟨rest, hraw, rfl, hne⟩ := keyAfter_eq_some.mp hkey
    exact hne (h rest hraw)

theorem objectKeyFromUrl_eq (s : Storage) (url : String) :
    s.objectKeyFromUrl url = s.bases.findSome? (keyAfter · (trim url)) := by
  rw [objectKeyFromUrl]
  split
  next hempty =>
    refine (findSome?_eq_none_iff.mpr fun base _ => keyAfter_eq_none.mpr fun rest hrest => ?_).symm
    rw [hempty] at hrest
    rw [(String.append_eq_empty_iff.mp hrest.symm).2]
    decide
  next =>
    rw [bases]
    cases presentText s.endpoint with
    | none => simp
    | some endpoint => cases hkey : keyAfter (s.base endpoint) (trim url) <;> simp [hkey]

theorem objectKeyFromUrl_eq_some :
    s.objectKeyFromUrl url = some key ↔ s.ReadsKey (trim url) key := by
  simp only [objectKeyFromUrl_eq, findSome?_eq_some_iff, keyAfter_eq_some, keyAfter_eq_none,
    ReadsKey]

theorem objectKeyFromUrl_eq_none : s.objectKeyFromUrl url = none ↔ ¬ s.Reads (trim url) := by
  simp only [objectKeyFromUrl_eq, findSome?_eq_none_iff, keyAfter_eq_none, Reads, not_exists,
    not_and, not_not]

theorem ReadsKey.reads (h : s.ReadsKey url key) : s.Reads url := by
  obtain ⟨before, base, after, hbases, ⟨rest, hurl, rfl, hne⟩, -⟩ := h
  exact ⟨base, hbases ▸ mem_append_right _ mem_cons_self, rest, hurl, hne⟩

theorem normalizePath_inj : s.normalizePath path = s.normalizePath path' ↔
    trimStartMatches '/' path = trimStartMatches '/' path' := by
  unfold normalizePath
  split
  · rfl
  · exact String.append_right_inj _

end Storage

/-- The first of the candidates that sign and take the URL for one of their own. -/
def Signs (candidates : List (Storage × Nat)) (url : String) (s : Storage) (expiry : Nat) : Prop :=
  ∃ before after, candidates = before ++ (s, expiry) :: after ∧ s.signer = true ∧ s.Reads url ∧
    ∀ c ∈ before, c.1.signer = true → ¬ c.1.Reads url

theorem presignArtifactUrl_of_silent (lib : ObjectStoreLib)
    (h : ∀ c ∈ candidates, c.1.signer = true → ¬ c.1.Reads (trim url))
    (more : List (Storage × Nat)) :
    presignArtifactUrl lib (candidates ++ more) url = presignArtifactUrl lib more url := by
  induction candidates with
  | nil => rfl
  | cons c candidates ih =>
    have hrest := ih fun d hd => h d (mem_cons_of_mem _ hd)
    rw [cons_append, presignArtifactUrl]
    split
    next hsigner => rw [Storage.objectKeyFromUrl_eq_none.mpr (h c mem_cons_self hsigner), hrest]
    · exact hrest

theorem presignArtifactUrl_of_signs (h : Signs candidates (trim url) s expiry) :
    ∃ key, s.ReadsKey (trim url) key ∧ ∀ lib, presignArtifactUrl lib candidates url =
      (s.objectPath lib key).bind (s.sign lib · expiry) := by
  obtain ⟨before, after, rfl, hsigner, hreads, hbefore⟩ := h
  obtain ⟨key, hkey⟩ : ∃ key, s.objectKeyFromUrl url = some key := by
    by_contra hnone
    exact Storage.objectKeyFromUrl_eq_none.mp
      (eq_none_iff_forall_ne_some.mpr fun key hkey => hnone ⟨key, hkey⟩) hreads
  refine ⟨key, Storage.objectKeyFromUrl_eq_some.mp hkey, fun lib => ?_⟩
  rw [presignArtifactUrl_of_silent lib hbefore, presignArtifactUrl, if_pos hsigner, hkey]
  exact if_pos hsigner

theorem signs_or_silent (candidates : List (Storage × Nat)) (url : String) :
    (∃ s expiry, Signs candidates url s expiry) ∨
      ∀ c ∈ candidates, c.1.signer = true → ¬ c.1.Reads url := by
  induction candidates with
  | nil => exact .inr (forall_mem_nil _)
  | cons c candidates ih =>
    by_cases hc : c.1.signer = true ∧ c.1.Reads url
    · exact .inl ⟨c.1, c.2, [], candidates, rfl, hc.1, hc.2, forall_mem_nil _⟩
    · rw [not_and] at hc
      obtain ⟨s, expiry, before, after, rfl, hsigner, hreads, hbefore⟩ | hnone := ih
      · exact .inl ⟨s, expiry, c :: before, after, rfl, hsigner, hreads,
          forall_mem_cons.mpr ⟨hc, hbefore⟩⟩
      · exact .inr (forall_mem_cons.mpr ⟨hc, hnone⟩)

namespace S3TargetSpec

variable {target : S3TargetSpec}

def Built (lib : ObjectStoreLib) (target : S3TargetSpec) : Prop :=
  ∃ vendor bucket region accessKey secretKey endpoint root,
    buildS3Spec lib vendor bucket region accessKey secretKey endpoint root = .ok target

/-- The store of a target has the endpoint and the bucket of the target. -/
structure Agrees (target : S3TargetSpec) : Prop where
  endpoint : target.storage.endpoint = target.endpoint
  present : presentText target.endpoint = target.endpoint
  bucket : target.storage.bucket = trimMatches '/' target.bucket

theorem Built.agrees (h : target.Built lib) : target.Agrees := by
  obtain ⟨vendor, bucket, region, accessKey, secretKey, endpoint, root, h⟩ := h
  obtain ⟨storage, hnew, h⟩ := Eff.ok_of_bind h
  obtain rfl := Except.ok.inj h
  obtain ⟨hendpoint, hbucket⟩ := Storage.new_ok hnew
  exact ⟨hendpoint.trans presentText_presentText, presentText_presentText, hbucket⟩

/-- What the way back from the URL of a key depends on. -/
structure Plain (target : S3TargetSpec) (key : String) : Prop where
  named : trimStartMatches '/' key ≠ ""
  url : trim (target.s3Url key) = target.s3Url key
  bucket : trim target.bucket = target.bucket
  /-- No virtual-host style URL that leaves a bucket out. -/
  host : target.vendor = some .aliyun → target.endpoint ≠ none → trimMatches '/' target.bucket = ""

theorem s3Url_eq (hagrees : target.Agrees) (hplain : target.Plain key) :
    ∃ base rest, target.storage.bases.head? = some base ∧ target.s3Url key = base ++ rest ∧
      trimStartMatches '/' rest = trimStartMatches '/' key := by
  rw [Storage.bases, hagrees.endpoint, s3Url, s3UrlStr, hplain.bucket]
  have hpresent := hagrees.present
  cases hendpoint : target.endpoint with
  | none =>
    refine ⟨_, trimStartMatches '/' key, rfl, ?_, trimStartMatches_trimStartMatches⟩
    rw [Storage.s3Base, hagrees.bucket, trimMatches_trimMatches]
    rfl
  | some endpoint =>
    rw [hendpoint] at hpresent
    rw [hpresent]
    by_cases hvendor : target.vendor = some .aliyun
    · have hbucket := hplain.host hvendor (by simp [hendpoint])
      refine ⟨_, trimStartMatches '/' key, rfl, ?_, trimStartMatches_trimStartMatches⟩
      rw [Storage.base, hagrees.bucket, trimMatches_trimMatches, hbucket]
      simp [hvendor]
    · refine ⟨_, "/" ++ trimStartMatches '/' key, rfl, ?_, ?_⟩
      · simp [Storage.base, hagrees.bucket, trimMatches_trimMatches, hvendor, String.append_assoc]
      · rw [trimStartMatches_append (by decide), trimStartMatches_trimStartMatches]

theorem readsKey_s3Url (hagrees : target.Agrees) (hplain : target.Plain key) :
    target.storage.ReadsKey (trim (target.s3Url key)) (trimStartMatches '/' key) := by
  obtain ⟨base, rest, hbase, hurl, hrest⟩ := s3Url_eq hagrees hplain
  obtain ⟨tail, htail⟩ := head?_eq_some_iff.mp hbase
  rw [hplain.url]
  exact ⟨[], base, tail, htail, ⟨rest, hurl, hrest, hplain.named⟩, forall_mem_nil _⟩

end S3TargetSpec

/-- A URL addresses a key of a store: the whole name of the bucket stands before the key. -/
inductive Storage.Addresses (s : Storage) : String → String → Prop where
  | path {endpoint : String} (key : String) (hendpoint : presentText s.endpoint = some endpoint)
      (hbucket : trimMatches '/' s.bucket ≠ "") :
      s.Addresses (s.base endpoint ++ ("/" ++ key)) key
  /-- Without a bucket, everything under the endpoint is in the store. -/
  | host {endpoint : String} (key : String) (hendpoint : presentText s.endpoint = some endpoint)
      (hbucket : trimMatches '/' s.bucket = "") : s.Addresses (s.base endpoint ++ key) key
  | s3 (key : String) : s.Addresses (s.s3Base ++ key) key

/-- The URL starts with the endpoint and the name of the bucket, and the name goes on. -/
def Storage.Cut (s : Storage) (url : String) : Prop :=
  ∃ endpoint rest, presentText s.endpoint = some endpoint ∧ trimMatches '/' s.bucket ≠ "" ∧
    url = s.base endpoint ++ rest ∧ trimStartMatches '/' rest ≠ "" ∧ ¬ ∃ key, rest = "/" ++ key

theorem Storage.reads_iff_cut {s : Storage} (h : ∀ key, ¬ s.Addresses url key) :
    s.Reads url ↔ s.Cut url := by
  constructor
  · rintro ⟨base, hbase, rest, hurl, hne⟩
    rw [Storage.bases, mem_append, mem_toList, map_eq_some_iff, mem_singleton] at hbase
    rcases hbase with ⟨endpoint, hendpoint, rfl⟩ | rfl
    · by_cases hbucket : trimMatches '/' s.bucket = ""
      · exact absurd (.host rest hendpoint hbucket) (hurl ▸ h rest)
      · refine ⟨endpoint, rest, hendpoint, hbucket, hurl, hne, ?_⟩
        rintro ⟨key, rfl⟩
        exact absurd (.path key hendpoint hbucket) (hurl ▸ h key)
    · exact absurd (.s3 rest) (hurl ▸ h rest)
  · rintro ⟨endpoint, rest, hendpoint, -, hurl, hne, -⟩
    refine ⟨s.base endpoint, ?_, rest, hurl, hne⟩
    rw [Storage.bases, hendpoint]
    exact mem_append_left _ (mem_singleton.mpr rfl)

/-- A library that takes every path and signs it. -/
def signingLib : ObjectStoreLib where
  build _ := .ok ()
  parsePath path := some path
  signedUrl _ path _ := some path

/-- **Presigning finds the way back** to the key and the store of a recorded URL exactly if the
store is the first that takes the URL for one of its own, and reads the key in it, which it does
unless the key, the bucket or the style of the URL is unusual. A URL that addresses none of the
stores is never signed exactly if it does not go on where it should end the name of a bucket. -/
theorem presign_recorded (candidates : List (Storage × Nat)) :
    (∀ (target : S3TargetSpec) (key : String),
      ((∃ expiry, (target.storage, expiry) ∈ candidates ∧ ∀ lib,
        presignArtifactUrl lib candidates (target.s3Url key) =
          (target.storage.objectPath lib key).bind (target.storage.sign lib · expiry)) ↔
        (∃ expiry, Signs candidates (trim (target.s3Url key)) target.storage expiry) ∧
          target.storage.ReadsKey (trim (target.s3Url key)) (trimStartMatches '/' key)) ∧
      ∀ lib, target.Built lib → target.Plain key →
        target.storage.ReadsKey (trim (target.s3Url key)) (trimStartMatches '/' key)) ∧
    ∀ url, (∀ c ∈ candidates, c.1.signer = true → ∀ key, ¬ c.1.Addresses (trim url) key) →
      ((∀ lib, presignArtifactUrl lib candidates url = none) ↔
        ∀ c ∈ candidates, c.1.signer = true → ¬ c.1.Cut (trim url)) := by
  refine ⟨fun target key => ⟨⟨?_, ?_⟩, fun lib hbuilt hplain =>
    S3TargetSpec.readsKey_s3Url hbuilt.agrees hplain⟩, fun url hnone => ⟨?_, ?_⟩⟩
  · rintro ⟨expiry, -, hsigned⟩
    obtain ⟨s, expiry', hsigns⟩ | hsilent := signs_or_silent candidates (trim (target.s3Url key))
    · obtain ⟨key', hreads, hresult⟩ := presignArtifactUrl_of_signs hsigns
      have h := (hresult signingLib).symm.trans (hsigned signingLib)
      obtain ⟨rfl, hpath, -⟩ := SignedUrl.mk.inj (some.inj h)
      have hkey : trimStartMatches '/' key' = key' := by
        obtain ⟨_, _, _, _, ⟨_, _, rfl, _⟩, _⟩ := hreads
        exact trimStartMatches_trimStartMatches
      rw [Storage.normalizePath_inj, hkey] at hpath
      exact ⟨⟨expiry', hsigns⟩, hpath ▸ hreads⟩
    · have hnever := presignArtifactUrl_of_silent signingLib hsilent []
      rw [append_nil, hsigned] at hnever
      cases hnever
  · rintro ⟨⟨expiry, hsigns⟩, hreads⟩
    obtain ⟨key', hreads', hresult⟩ := presignArtifactUrl_of_signs hsigns
    obtain rfl : key' = trimStartMatches '/' key :=
      some.inj ((Storage.objectKeyFromUrl_eq_some.mpr hreads').symm.trans
        (Storage.objectKeyFromUrl_eq_some.mpr hreads))
    obtain ⟨before, after, heq, -⟩ := hsigns
    refine ⟨expiry, heq ▸ mem_append_right _ mem_cons_self, fun lib => ?_⟩
    rw [hresult, Storage.objectPath, Storage.normalizePath_trimStart]
    rfl
  · intro hnever c hc hsigner hcut
    obtain ⟨s, expiry, hsigns⟩ | hsilent := signs_or_silent candidates (trim url)
    · obtain ⟨key', -, hresult⟩ := presignArtifactUrl_of_signs hsigns
      cases (hresult signingLib).symm.trans (hnever signingLib)
    · exact hsilent c hc hsigner ((Storage.reads_iff_cut (hnone c hc hsigner)).mpr hcut)
  · intro hcut lib
    have hsilent := presignArtifactUrl_of_silent lib (fun c hc hsigner hreads =>
      hcut c hc hsigner ((Storage.reads_iff_cut (hnone c hc hsigner)).mp hreads)) []
    rwa [append_nil] at hsilent

def sampleEndpoint : String := "http://s3.local"

def sampleStorage (vendor : S3Vendor) (bucket : String) : Storage where
  config := {
    vendor, bucket
    accessKey := some "id"
    secretKey := some "key"
    endpoint := some sampleEndpoint }
  signer := true
  endpoint := some sampleEndpoint
  bucket

def sampleTarget (vendor : S3Vendor) (bucket : String) : S3TargetSpec where
  storage := sampleStorage vendor bucket
  bucket
  endpoint := some sampleEndpoint
  vendor := some vendor

def sampleCandidates (vendor : S3Vendor) (buckets : List String) : List (Storage × Nat) :=
  buckets.map fun bucket => (sampleStorage vendor bucket, 60)

/-- Of two buckets the one with the longer name comes first. -/
theorem presign_recorded_two_buckets : ∃ expiry,
    (sampleStorage .minio "recordings", expiry) ∈ sampleCandidates .minio ["recordings", "rec"] ∧
      ∀ lib, presignArtifactUrl lib (sampleCandidates .minio ["recordings", "rec"])
          ((sampleTarget .minio "recordings").s3Url "a.wav") =
        ((sampleStorage .minio "recordings").objectPath lib "a.wav").bind
          ((sampleStorage .minio "recordings").sign lib · expiry) := by
  have hbuilt : (sampleTarget .minio "recordings").Built signingLib :=
    ⟨some .minio, "recordings", none, some "id", some "key", some sampleEndpoint, none,
      by decide +kernel⟩
  have hplain : (sampleTarget .minio "recordings").Plain "a.wav" :=
    ⟨by decide +kernel, by decide +kernel, by decide +kernel, nofun⟩
  obtain ⟨hiff, hreads⟩ := (presign_recorded (sampleCandidates .minio ["recordings", "rec"])).1
    (sampleTarget .minio "recordings") "a.wav"
  have hkey := hreads signingLib hbuilt hplain
  exact hiff.mpr ⟨⟨60, [], _, rfl, rfl, hkey.reads, forall_mem_nil _⟩, hkey⟩

/-- **A bucket is taken for one with a shorter name**, so a URL is signed for another bucket and
key, or although it addresses nothing; and a virtual-host style URL is not signed. -/
theorem presign_wrong_bucket : ((sampleTarget .minio "recordings").Built signingLib ∧
      presignArtifactUrl signingLib (sampleCandidates .minio ["rec", "recordings"])
        ((sampleTarget .minio "recordings").s3Url "a.wav") =
          some ⟨sampleStorage .minio "rec", "ordings/a.wav", "ordings/a.wav"⟩) ∧
    ((sampleTarget .aliyun "rec").Built signingLib ∧
      presignArtifactUrl signingLib (sampleCandidates .aliyun ["rec"])
        ((sampleTarget .aliyun "rec").s3Url "a.wav") = none) ∧
    ((∀ key, ¬ (sampleStorage .minio "rec").Addresses "http://s3.local/record" key) ∧
      presignArtifactUrl signingLib (sampleCandidates .minio ["rec"]) "http://s3.local/record" =
        some ⟨sampleStorage .minio "rec", "ord", "ord"⟩) := by
  refine ⟨⟨⟨some .minio, "recordings", none, some "id", some "key", some sampleEndpoint, none,
      by decide +kernel⟩, by decide +kernel⟩,
    ⟨⟨some .aliyun, "rec", none, some "id", some "key", some sampleEndpoint, none,
      by decide +kernel⟩, by decide +kernel⟩, ?_, by decide +kernel⟩
  intro key haddresses
  generalize hurl : "http://s3.local/record" = url at haddresses
  cases haddresses with
  | path _ hendpoint _ =>
    obtain rfl : sampleEndpoint = _ :=
      some.inj ((by decide +kernel : some sampleEndpoint = _).trans hendpoint)
    rw [← String.append_assoc] at hurl
    exact absurd (stripStart_eq_some.mpr hurl)
      (ne_of_eq_of_ne (by decide +kernel : _ = none) (some_ne_none key).symm)
  | host _ _ hbucket => exact absurd hbucket (by decide +kernel)
  | s3 =>
    exact absurd (stripStart_eq_some.mpr hurl)
      (ne_of_eq_of_ne (by decide +kernel : _ = none) (some_ne_none key).symm)

end RustPbx.S3
