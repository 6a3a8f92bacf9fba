import RustPbx.Proxy.Locator

/-!
Where a request to a URI is sent, by the bindings that a lookup of the URI has found.

A failed lookup is one without bindings. If the host is `.invalid` and no binding has the URI, all
bindings of the lookup are taken (`unmatched_invalid_host`).
-/

namespace RustPbx.Proxy

open Sip Call Str Option

/-- The printers and defaults of the SIP stack; `sipAddr` is the address of a URI itself. -/
structure TargetLib where
  print : Uri → String
  printAddr : HostWithPort → String
  defaultPort : Transport → UInt16
  sipAddr : Uri → Except String SipAddr

structure DialogTargetLocator where
  localAddrs : List SipAddr
  clusterEnabled : Bool

namespace DialogTargetLocator

variable (lib : TargetLib) (l : DialogTargetLocator) (uri : Uri) (loc : Location)

def isLocalHomeProxy (homeProxy : SipAddr) : Bool :=
  l.localAddrs.any fun addr => lib.printAddr addr.addr == lib.printAddr homeProxy.addr

def isExactContact : Bool :=
  loc.aor == uri

def effectivePort : UInt16 :=
  uri.hostWithPort.port.getD <| lib.defaultPort <|
    uri.transport.getD (if uri.scheme = some .sips then .tls else .udp)

def isRegisteredAor : Bool :=
  loc.registeredAor.any fun aor =>
    aor.scheme == uri.scheme && aor.user == uri.user &&
      eqIgnoreAsciiCase aor.hostText uri.hostText &&
      effectivePort lib aor == effectivePort lib uri

def isGruu : Bool :=
  loc.gruu.any fun gruu => gruu == lib.print uri || eqIgnoreAsciiCase gruu (lib.print uri)

def isHomeProxyTarget : Bool :=
  loc.homeProxy.any fun homeProxy => loc.registeredAor.any fun aor =>
    aor.user == uri.user && homeProxy.addr == uri.hostWithPort

/-- Which of the bindings are looked at. -/
def selects (locs : List Location) : Location → Bool :=
  if locs.any (isExactContact uri) then isExactContact uri
  else if locs.any (isRegisteredAor lib uri) then isRegisteredAor lib uri
  else if locs.any (isGruu lib uri) then isGruu lib uri
  else if isWebrtcInvalidHost uri.hostText then fun _ => true
  else isHomeProxyTarget uri

/-- The binding is reached by way of its home proxy. -/
def forwards : Bool :=
  l.clusterEnabled && loc.homeProxy.any fun homeProxy => loc.registeredAor.any fun aor =>
    aor == uri || aor.user == uri.user &&
      (uri.hostWithPort == homeProxy.addr || isWebrtcInvalidHost uri.hostText)

def forwardTarget (locs : List Location) : Option SipAddr := do
  let loc ← locs.find? (l.forwards uri)
  let homeProxy ← loc.homeProxy
  if l.isLocalHomeProxy lib homeProxy then loc.destination.or (some homeProxy) else some homeProxy

def firstTarget (locs : List Location) : Option SipAddr := do
  let loc ← locs.head?
  match loc.homeProxy with
  | some homeProxy =>
    if l.clusterEnabled && !l.isLocalHomeProxy lib homeProxy then some homeProxy
    else loc.destination
  | none => loc.destination

def locateInner (locs : List Location) : Except String SipAddr :=
  let locs := locs.filter (selects lib uri locs)
  match (l.forwardTarget lib uri locs).or (l.firstTarget lib locs) with
  | some addr => .ok addr
  | none => (lib.sipAddr uri).mapError fun e =>
    "failed to convert uri to sip addr: " ++ lib.print uri ++ ", error: " ++ e

def Matches : Prop :=
  isExactContact uri loc ∨ isRegisteredAor lib uri loc ∨ isGruu lib uri loc ∨
    isHomeProxyTarget uri loc

/-- The address is the home proxy of the binding, or its destination unless another node is its
home. -/
def Gives (addr : SipAddr) : Prop :=
  loc.homeProxy = some addr ∨ loc.destination = some addr ∧
    ∀ homeProxy, loc.homeProxy = some homeProxy → l.isLocalHomeProxy lib homeProxy = true

variable {lib} {l} {uri} {loc}

theorem matches_of_selects (h : selects lib uri locs loc = true) :
    Matches lib uri loc ∨ isWebrtcInvalidHost uri.hostText = true := by
  unfold selects at h
  split at h
  · exact .inl (.inl h)
  split at h
  · exact .inl (.inr (.inl h))
  split at h
  · exact .inl (.inr (.inr (.inl h)))
  split at h
  next hinvalid => exact .inr hinvalid
  · exact .inl (.inr (.inr (.inr h)))

theorem gives_of_forwardTarget (h : l.forwardTarget lib uri locs = some addr) :
    ∃ loc ∈ locs, l.Gives lib loc addr := by
  simp only [forwardTarget, bind_eq_bind, bind_eq_some_iff] at h
  obtain ⟨loc, hfind, homeProxy, hhome, h⟩ := h
  refine ⟨loc, List.mem_of_find?_eq_some hfind, ?_⟩
  split at h
  next hlocal =>
    cases hdest : loc.destination with
    | none => exact .inl (by simpa [hdest, hhome] using h)
    | some dest =>
      have heq : dest = addr := by simpa [hdest] using h
      exact .inr ⟨hdest.trans (congrArg some heq), by simpa [hhome] using hlocal⟩
  · exact .inl (hhome.trans h)

theorem gives_of_firstTarget (hcluster : l.clusterEnabled = true)
    (h : l.firstTarget lib locs = some addr) : ∃ loc ∈ locs, l.Gives lib loc addr := by
  simp only [firstTarget, bind_eq_bind, bind_eq_some_iff] at h
  obtain ⟨loc, hhead, h⟩ := h
  refine ⟨loc, List.mem_of_head? hhead, ?_⟩
  cases hhome : loc.homeProxy with
  | none => exact .inr ⟨by simpa [hhome] using h, by simp [hhome]⟩
  | some homeProxy =>
    rw [hhome] at h
    dsimp only at h
    split at h
    · exact .inl (hhome.trans h)
    next hlocal => exact .inr ⟨h, by simpa [hhome, hcluster] using hlocal⟩

/-- **The target in a cluster** is given by a binding that has the URI, or by any of the lookup if
the host is `.invalid`, or it is the address of the URI. A binding with its home on another node
gives that home. -/
theorem located_target (hcluster : l.clusterEnabled = true)
    (h : l.locateInner lib uri locs = .ok addr) :
    (∃ loc ∈ locs, (Matches lib uri loc ∨ isWebrtcInvalidHost uri.hostText = true) ∧
      l.Gives lib loc addr) ∨ lib.sipAddr uri = .ok addr := by
  unfold locateInner at h
  dsimp only at h
  split at h
  next target htarget =>
    cases h
    have hgives : ∃ loc ∈ locs.filter (selects lib uri locs), l.Gives lib loc addr := by
      obtain h | ⟨-, h⟩ := or_eq_some_iff.mp htarget
      · exact gives_of_forwardTarget h
      · exact gives_of_firstTarget hcluster h
    obtain ⟨loc, hloc, hgives⟩ := hgives
    obtain ⟨hmem, hselects⟩ := List.mem_filter.mp hloc
    exact .inl ⟨loc, hmem, matches_of_selects hselects, hgives⟩
  · cases haddr : lib.sipAddr uri with
    | error e => rw [haddr] at h; cases h
    | ok own => rw [haddr] at h; cases h; exact .inr rfl

def node (host : String) : SipAddr := ⟨some .udp, ⟨.domain host.toList, some 5060⟩⟩

def uriOf (user host : String) : Uri :=
  ⟨some .sip, some ⟨user, none⟩, ⟨.domain host.toList, none⟩, []⟩

def plainLib : TargetLib :=
  ⟨fun _ => "", fun addr => .ofList addr.host.print, fun _ => 5060, fun _ => .error ""⟩

def clustered : DialogTargetLocator := ⟨[node "here"], true⟩

def remoteBinding : Location where
  aor := uriOf "alice" "phone"
  registeredAor := uriOf "alice" "example"
  destination := node "phone"
  homeProxy := node "there"

theorem located_target_remote : (∃ loc ∈ [remoteBinding],
      (Matches plainLib (uriOf "alice" "example") loc ∨
        isWebrtcInvalidHost (uriOf "alice" "example").hostText = true) ∧
      clustered.Gives plainLib loc (node "there")) ∨
    plainLib.sipAddr (uriOf "alice" "example") = .ok (node "there") :=
  located_target rfl (by decide)

/-- The binding of Alice is taken for a URI of Bob. -/
theorem unmatched_invalid_host :
    let loc := { remoteBinding with homeProxy := none }
    let uri := uriOf "bob" "x.invalid"
    clustered.locateInner plainLib uri [loc] = .ok (node "phone") ∧
      ¬ Matches plainLib uri loc ∧ plainLib.sipAddr uri ≠ .ok (node "phone") := by
  unfold Matches
  decide

end DialogTargetLocator

end RustPbx.Proxy
