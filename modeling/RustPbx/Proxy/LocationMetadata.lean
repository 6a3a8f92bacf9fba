import RustPbx.Routing.Types

/-!
How a location of the database keeps its User-Agent, its home proxy and its address-of-record in one
column.

The two addresses are appended to the User-Agent with a marker each, and reading takes them off
again from the end of the text, also from a User-Agent that itself ends in a marker and an address
(`forged_home_proxy`).
-/

namespace RustPbx.Proxy

open Sip Str Option

structure AddrLib extends UriLib where
  printSipAddr : SipAddr → String
  sipAddrOfUri : Uri → Except String SipAddr

namespace AddrLib

variable (lib : AddrLib)

def parseTransportToken (value : String) : Option Transport :=
  Routing.resolveTransportFromStr (trim value)

def encodeSipAddr (addr : SipAddr) : String :=
  lib.printSipAddr addr

def homeProxyMarker : String := "|hp="

def registeredAorMarker : String := "|ra="

def decodeWithTransport (trimmed : String) : Option SipAddr := do
  let (transportRaw, addrRaw) ← splitOnce ' ' trimmed.toList
  let transport ← parseTransportToken (String.ofList transportRaw)
  let addr ← (lib.parseHostWithPort (trim (String.ofList addrRaw))).toOption
  return ⟨some transport, addr⟩

def decodeSipAddr (value : String) : Option SipAddr :=
  let trimmed := trim value
  if trimmed = "" then none
  else
    (lib.decodeWithTransport trimmed).or <|
      ((lib.parse trimmed).toOption.bind fun uri => (lib.sipAddrOfUri uri).toOption).or <|
        (lib.parseHostWithPort trimmed).toOption.map fun addr => ⟨none, addr⟩

def locationMetadata (userAgent : String) (homeProxy : Option SipAddr)
    (registeredAor : Option Uri) : String :=
  let value := match homeProxy with
    | some addr => userAgent ++ (homeProxyMarker ++ lib.encodeSipAddr addr)
    | none => userAgent
  match registeredAor with
  | some uri => value ++ (registeredAorMarker ++ lib.print uri)
  | none => value

def encodeLocationMetadata (userAgent : Option String) (homeProxy : Option SipAddr)
    (registeredAor : Option Uri) : Option String :=
  let value := lib.locationMetadata (userAgent.getD "") homeProxy registeredAor
  if value = "" then none else some value

def homeProxyOf (tail : String) : Option SipAddr :=
  (stripStart "hp=" tail).bind lib.decodeSipAddr

def registeredAorOf (tail : String) : Option Uri :=
  (stripStart "ra=" tail).bind fun value => (lib.parse value).toOption

/-- The loop that takes the addresses off the end. Each of the two is read at most once. -/
def decodeLoop (rest : String) (homeProxy : Option SipAddr) (registeredAor : Option Uri) :
    String × Option SipAddr × Option Uri :=
  match _hsplit : rsplitOnce '|' rest with
  | none => (rest, homeProxy, registeredAor)
  | some (before, tail) =>
    match if homeProxy.isNone then lib.homeProxyOf tail else none with
    | some parsed => decodeLoop before (some parsed) registeredAor
    | none =>
      match if registeredAor.isNone then lib.registeredAorOf tail else none with
      | some parsed => decodeLoop before homeProxy (some parsed)
      | none => (rest, homeProxy, registeredAor)
termination_by rest.length
decreasing_by
  all_goals
    have hlength := congrArg List.length (rsplitOnce_spec _hsplit).1
    simp only [List.length_append, List.length_cons, String.length_toList] at hlength
    omega

def decodeLocationMetadata (value : Option String) : Option String × Option SipAddr × Option Uri :=
  match value with
  | none => (none, none, none)
  | some raw =>
    let (rest, homeProxy, registeredAor) := lib.decodeLoop raw none none
    (if rest = "" then none else some rest, homeProxy, registeredAor)

variable {lib}

theorem homeProxyOf_append : lib.homeProxyOf ("hp=" ++ text) = lib.decodeSipAddr text := by
  rw [homeProxyOf, stripStart_eq_some.mpr rfl, bind_some]

theorem registeredAorOf_append :
    lib.registeredAorOf ("ra=" ++ text) = (lib.parse text).toOption := by
  rw [registeredAorOf, stripStart_eq_some.mpr rfl, bind_some]

theorem homeProxyOf_aor : lib.homeProxyOf ("ra=" ++ text) = none := by
  have hstart : stripStart "hp=" ("ra=" ++ text) = none := by
    rw [stripStart, String.toList_append]
    rfl
  rw [homeProxyOf, hstart, bind_none]

variable {homeProxy : Option SipAddr}

theorem rsplitOnce_marked (hmarker : marker.toList = '|' :: start.toList)
    (hbar : '|' ∉ (start ++ text).toList) :
    rsplitOnce '|' (before ++ (marker ++ text)) = some (before, start ++ text) := by
  apply rsplitOnce_append _ hbar
  rw [String.toList_append, String.toList_append, hmarker, List.cons_append]

theorem marked_of_rsplitOnce (marker : String) (hmarker : marker.toList = '|' :: start.toList)
    (hsplit : rsplitOnce '|' value = some (before, tail))
    (hstart : stripStart start tail = some text) :
    value = before ++ (marker ++ text) ∧ '|' ∉ text.toList := by
  obtain ⟨hparts, hbar⟩ := rsplitOnce_spec hsplit
  rw [stripStart_eq_some.mp hstart, String.toList_append] at hparts hbar
  refine ⟨?_, fun hmem => hbar (List.mem_append_right _ hmem)⟩
  rw [← String.toList_inj, hparts, String.toList_append, String.toList_append, hmarker,
    List.cons_append]

theorem rsplitOnce_homeProxy (hbar : '|' ∉ text.toList) :
    rsplitOnce '|' (before ++ (homeProxyMarker ++ text)) = some (before, "hp=" ++ text) :=
  rsplitOnce_marked rfl (by simpa using hbar)

theorem rsplitOnce_registeredAor (hbar : '|' ∉ text.toList) :
    rsplitOnce '|' (before ++ (registeredAorMarker ++ text)) = some (before, "ra=" ++ text) :=
  rsplitOnce_marked rfl (by simpa using hbar)

theorem decodeLoop_homeProxy (before : String) (hbar : '|' ∉ text.toList)
    (hread : lib.decodeSipAddr text = some addr) (registeredAor : Option Uri) :
    lib.decodeLoop (before ++ (homeProxyMarker ++ text)) none registeredAor =
      lib.decodeLoop before (some addr) registeredAor := by
  rw [decodeLoop]
  split
  next hsplit => simp [rsplitOnce_homeProxy hbar] at hsplit
  next hsplit =>
    obtain ⟨rfl, rfl⟩ : before = _ ∧ "hp=" ++ text = _ := by
      simpa [rsplitOnce_homeProxy hbar] using hsplit
    simp [homeProxyOf_append, hread]

theorem decodeLoop_registeredAor (hbar : '|' ∉ text.toList)
    (hread : lib.parse text = .ok uri) :
    lib.decodeLoop (before ++ (registeredAorMarker ++ text)) homeProxy none =
      lib.decodeLoop before homeProxy (some uri) := by
  rw [decodeLoop]
  split
  next hsplit => simp [rsplitOnce_registeredAor hbar] at hsplit
  next hsplit =>
    obtain ⟨rfl, rfl⟩ : before = _ ∧ "ra=" ++ text = _ := by
      simpa [rsplitOnce_registeredAor hbar] using hsplit
    simp [homeProxyOf_aor, registeredAorOf_append, hread, Except.toOption]

theorem decodeLoop_keeps_homeProxy (h : homeProxy ≠ none) :
    (lib.decodeLoop rest homeProxy registeredAor).2.1 = homeProxy := by
  fun_induction decodeLoop lib rest homeProxy registeredAor <;> simp_all

theorem decodeLoop_keeps_registeredAor (h : registeredAor ≠ none) :
    (lib.decodeLoop rest homeProxy registeredAor).2.2 = registeredAor := by
  fun_induction decodeLoop lib rest homeProxy registeredAor <;> simp_all

def bars (s : String) : Nat := s.toList.count '|'

theorem bars_append (a b : String) : bars (a ++ b) = bars a + bars b := by
  rw [bars, String.toList_append, List.count_append, bars, bars]

theorem bars_of_rsplitOnce (h : rsplitOnce '|' s = some (before, tail)) :
    bars s = bars before + 1 := by
  obtain ⟨hparts, htail⟩ := rsplitOnce_spec h
  rw [bars, bars, hparts, List.count_append, List.count_cons_self,
    List.count_eq_zero_of_not_mem htail]

variable (lib) in
theorem decodeLoop_bars (rest : String) (homeProxy : Option SipAddr) (registeredAor : Option Uri) :
    bars (lib.decodeLoop rest homeProxy registeredAor).1 +
        (lib.decodeLoop rest homeProxy registeredAor).2.1.toList.length +
        (lib.decodeLoop rest homeProxy registeredAor).2.2.toList.length =
      bars rest + homeProxy.toList.length + registeredAor.toList.length := by
  fun_induction decodeLoop lib rest homeProxy registeredAor with
  | case1 rest homeProxy registeredAor hsplit => rfl
  | case2 rest homeProxy registeredAor before tail hsplit parsed hread ih =>
    obtain ⟨hnone, -⟩ : homeProxy = none ∧ _ := by simpa using hread
    rw [ih, bars_of_rsplitOnce hsplit, hnone]
    simp only [toList_some, toList_none, List.length_singleton, List.length_nil]
  | case3 rest homeProxy registeredAor before tail hsplit hproxy parsed hread ih =>
    obtain ⟨hnone, -⟩ : registeredAor = none ∧ _ := by simpa using hread
    rw [ih, bars_of_rsplitOnce hsplit, hnone]
    simp only [toList_some, toList_none, List.length_singleton, List.length_nil]
    omega
  | case4 => rfl

/-! ## Round trips -/

variable (lib) in
def EndsInHomeProxy (userAgent : String) : Prop :=
  ∃ before text addr, userAgent = before ++ (homeProxyMarker ++ text) ∧ '|' ∉ text.toList ∧
    lib.decodeSipAddr text = some addr

variable (lib) in
/-- The text ends in an address-of-record as the encoder writes it. -/
def EndsInRegisteredAor (userAgent : String) : Prop :=
  ∃ before text uri, userAgent = before ++ (registeredAorMarker ++ text) ∧ '|' ∉ text.toList ∧
    lib.parse text = .ok uri

theorem endsInHomeProxy_of_read (hsplit : rsplitOnce '|' userAgent = some (before, tail))
    (hread : lib.homeProxyOf tail = some addr) : lib.EndsInHomeProxy userAgent := by
  obtain ⟨text, hstart, hdecode⟩ := bind_eq_some_iff.mp hread
  obtain ⟨hparts, hbar⟩ := marked_of_rsplitOnce homeProxyMarker rfl hsplit hstart
  exact ⟨before, text, addr, hparts, hbar, hdecode⟩

theorem endsInRegisteredAor_of_read (hsplit : rsplitOnce '|' userAgent = some (before, tail))
    (hread : lib.registeredAorOf tail = some uri) : lib.EndsInRegisteredAor userAgent := by
  obtain ⟨text, hstart, hparse⟩ := bind_eq_some_iff.mp hread
  obtain ⟨hparts, hbar⟩ := marked_of_rsplitOnce registeredAorMarker rfl hsplit hstart
  have hok : lib.parse text = .ok uri := by
    cases hresult : lib.parse text with
    | error e => simp [hresult, Except.toOption] at hparse
    | ok found => simpa [hresult, Except.toOption] using hparse
  exact ⟨before, text, uri, hparts, hbar, hok⟩

theorem decodeLoop_eq_self :
    lib.decodeLoop userAgent homeProxy registeredAor = (userAgent, homeProxy, registeredAor) ↔
      (homeProxy = none → ¬ lib.EndsInHomeProxy userAgent) ∧
        (registeredAor = none → ¬ lib.EndsInRegisteredAor userAgent) := by
  constructor
  · intro hself
    constructor
    · rintro rfl ⟨before, text, addr, rfl, hbar, hread⟩
      rw [decodeLoop_homeProxy before hbar hread] at hself
      have hkept : (lib.decodeLoop before (some addr) registeredAor).2.1 = some addr :=
        decodeLoop_keeps_homeProxy (some_ne_none addr)
      rw [hself] at hkept
      cases hkept
    · rintro rfl ⟨before, text, uri, rfl, hbar, hread⟩
      rw [decodeLoop_registeredAor hbar hread] at hself
      have hkept : (lib.decodeLoop before homeProxy (some uri)).2.2 = some uri :=
        decodeLoop_keeps_registeredAor (some_ne_none uri)
      rw [hself] at hkept
      cases hkept
  · rintro ⟨hproxy, haor⟩
    rw [decodeLoop]
    split
    · rfl
    next before tail hsplit =>
      split
      next addr hread =>
        obtain ⟨hnone, hread⟩ : homeProxy = none ∧ _ := by simpa using hread
        exact absurd (endsInHomeProxy_of_read hsplit hread) (hproxy hnone)
      · split
        next uri hread =>
          obtain ⟨hnone, hread⟩ : registeredAor = none ∧ _ := by simpa using hread
          exact absurd (endsInRegisteredAor_of_read hsplit hread) (haor hnone)
        · rfl

theorem decode_encode_eq_iff (hne : userAgent ≠ "") : lib.decodeLocationMetadata
        (lib.encodeLocationMetadata (some userAgent) homeProxy registeredAor) =
        (some userAgent, homeProxy, registeredAor) ↔
      lib.decodeLoop (lib.locationMetadata userAgent homeProxy registeredAor) none none =
        (userAgent, homeProxy, registeredAor) := by
  have hsome : lib.locationMetadata userAgent homeProxy registeredAor ≠ "" := by
    cases homeProxy <;> cases registeredAor <;> simp [locationMetadata, hne]
  rw [encodeLocationMetadata, getD_some, if_neg hsome, decodeLocationMetadata]
  generalize lib.decodeLoop _ none none = out
  obtain ⟨rest, proxy, aor⟩ := out
  by_cases hrest : rest = ""
  · simp [hrest, hne.symm]
  · simp [hrest]

/-- The addresses are taken off as they were put on, if their texts have no bar. -/
theorem decodeLoop_locationMetadata
    (hproxy : ∀ addr ∈ homeProxy, lib.decodeSipAddr (lib.encodeSipAddr addr) = some addr)
    (haor : ∀ uri ∈ registeredAor, lib.parse (lib.print uri) = .ok uri)
    (hproxyBar : ∀ addr ∈ homeProxy, '|' ∉ (lib.encodeSipAddr addr).toList)
    (haorBar : ∀ uri ∈ registeredAor, '|' ∉ (lib.print uri).toList) :
    lib.decodeLoop (lib.locationMetadata userAgent homeProxy registeredAor) none none =
      lib.decodeLoop userAgent homeProxy registeredAor := by
  have hread : ∀ aor : Option Uri,
      lib.decodeLoop (lib.locationMetadata userAgent homeProxy none) none aor =
        lib.decodeLoop userAgent homeProxy aor := by
    intro aor
    cases homeProxy with
    | none => rfl
    | some addr => exact decodeLoop_homeProxy userAgent (hproxyBar addr rfl) (hproxy addr rfl) aor
  cases registeredAor with
  | none => exact hread none
  | some uri =>
    rw [← hread (some uri)]
    exact decodeLoop_registeredAor (haorBar uri rfl) (haor uri rfl)

theorem bars_locationMetadata (userAgent : String) (homeProxy : Option SipAddr)
    (registeredAor : Option Uri) : bars (lib.locationMetadata userAgent homeProxy registeredAor) =
      bars userAgent + (homeProxy.elim 0 fun addr => 1 + bars (lib.encodeSipAddr addr)) +
        registeredAor.elim 0 fun uri => 1 + bars (lib.print uri) := by
  have hhome : bars homeProxyMarker = 1 := by decide
  have hreg : bars registeredAorMarker = 1 := by decide
  cases homeProxy <;> cases registeredAor <;>
    simp [locationMetadata, bars_append, hhome, hreg]

theorem bars_eq_zero : bars s = 0 ↔ '|' ∉ s.toList :=
  List.count_eq_zero

/-- **What the column gives back**: values that read back from their texts come back if and only if
neither address has a bar in its text and the User-Agent does not end in an address of a kind that
the location does not have. -/
theorem decode_encode_iff {userAgent : String} (hne : userAgent ≠ "")
    {homeProxy : Option SipAddr} {registeredAor : Option Uri}
    (hproxy : ∀ addr ∈ homeProxy, lib.decodeSipAddr (lib.encodeSipAddr addr) = some addr)
    (haor : ∀ uri ∈ registeredAor, lib.parse (lib.print uri) = .ok uri) : lib.decodeLocationMetadata
        (lib.encodeLocationMetadata (some userAgent) homeProxy registeredAor) =
        (some userAgent, homeProxy, registeredAor) ↔
      (∀ addr ∈ homeProxy, '|' ∉ (lib.encodeSipAddr addr).toList) ∧
        (∀ uri ∈ registeredAor, '|' ∉ (lib.print uri).toList) ∧
        (homeProxy = none → ¬ lib.EndsInHomeProxy userAgent) ∧
        (registeredAor = none → ¬ lib.EndsInRegisteredAor userAgent) := by
  rw [decode_encode_eq_iff hne]
  constructor
  · intro hloop
    -- What was read took one bar each, so the texts of the addresses had none.
    have hbars := lib.decodeLoop_bars
      (lib.locationMetadata userAgent homeProxy registeredAor) none none
    rw [hloop, bars_locationMetadata] at hbars
    have hproxyBar : ∀ addr ∈ homeProxy, '|' ∉ (lib.encodeSipAddr addr).toList := by
      rintro addr rfl
      apply bars_eq_zero.mp
      cases registeredAor <;> simp at hbars <;> omega
    have haorBar : ∀ uri ∈ registeredAor, '|' ∉ (lib.print uri).toList := by
      rintro uri rfl
      apply bars_eq_zero.mp
      cases homeProxy <;> simp at hbars <;> omega
    rw [decodeLoop_locationMetadata hproxy haor hproxyBar haorBar] at hloop
    exact ⟨hproxyBar, haorBar, decodeLoop_eq_self.mp hloop⟩
  · rintro ⟨hproxyBar, haorBar, hends⟩
    rw [decodeLoop_locationMetadata hproxy haor hproxyBar haorBar]
    exact decodeLoop_eq_self.mpr hends

def hostNames : AddrLib where
  parse s := .ok ⟨none, none, ⟨.domain s.toList, none⟩, []⟩
  print uri := uri.hostText
  parseHostWithPort s := .ok ⟨.domain s.toList, none⟩
  printSipAddr addr :=
    (addr.transport.map (·.name ++ " ")).getD "" ++ String.ofList addr.addr.host.print
  sipAddrOfUri uri := .ok ⟨none, uri.hostWithPort⟩

/-- A location with both addresses gets them back, whatever its User-Agent looks like. -/
theorem decode_encode_both : hostNames.decodeLocationMetadata
        (hostNames.encodeLocationMetadata (some "phone|hp=UDP evil")
          (some ⟨some .udp, ⟨.domain "edge".toList, none⟩⟩)
          (some ⟨none, none, ⟨.domain "pbx".toList, none⟩, []⟩)) =
      (some "phone|hp=UDP evil", some ⟨some .udp, ⟨.domain "edge".toList, none⟩⟩,
        some ⟨none, none, ⟨.domain "pbx".toList, none⟩, []⟩) := by
  refine (decode_encode_iff (by decide) ?_ ?_).mpr ⟨?_, ?_, nofun, nofun⟩
  · rintro addr ⟨⟩
    decide
  · rintro uri ⟨⟩
    rfl
  · rintro addr ⟨⟩
    decide
  · rintro uri ⟨⟩
    decide

/-- A phone chooses the home proxy it is stored with: it ends its User-Agent in the marker and an
address. -/
theorem decode_forged (hne : front ≠ "") (hfront : '|' ∉ front.toList)
    (hbar : '|' ∉ (lib.encodeSipAddr addr).toList)
    (hread : lib.decodeSipAddr (lib.encodeSipAddr addr) = some addr) :
    lib.decodeLocationMetadata (lib.encodeLocationMetadata
        (some (front ++ (homeProxyMarker ++ lib.encodeSipAddr addr))) none none) =
      (some front, some addr, none) := by
  have hrest : lib.decodeLoop front (some addr) none = (front, some addr, none) := by
    apply decodeLoop_eq_self.mpr
    refine ⟨nofun, ?_⟩
    rintro - ⟨before, text, uri, rfl, -⟩
    rw [← bars_eq_zero, bars_append, bars_append, show bars registeredAorMarker = 1 by decide]
      at hfront
    omega
  have hloop := decodeLoop_homeProxy front hbar hread none
  have hsome : front ++ (homeProxyMarker ++ lib.encodeSipAddr addr) ≠ "" := by simp [hne]
  rw [encodeLocationMetadata, locationMetadata, getD_some, if_neg hsome,
    decodeLocationMetadata, hloop, hrest]
  simp [hne]

/-- **A forged home proxy.** A phone registers with the marker and an address at the end of its
User-Agent, and is read with that home proxy and another User-Agent. -/
theorem forged_home_proxy : hostNames.decodeLocationMetadata
        (hostNames.encodeLocationMetadata (some "phone|hp=UDP evil") none none) =
      (some "phone", some ⟨some .udp, ⟨.domain "evil".toList, none⟩⟩, none) := by
  have hread : hostNames.decodeSipAddr
      (hostNames.encodeSipAddr ⟨some .udp, ⟨.domain "evil".toList, none⟩⟩) =
      some ⟨some .udp, ⟨.domain "evil".toList, none⟩⟩ := by decide
  have hne : "phone" ≠ "" := by decide
  have hfront : '|' ∉ "phone".toList := by decide
  exact decode_forged hne hfront (by decide) hread

end AddrLib

end RustPbx.Proxy
