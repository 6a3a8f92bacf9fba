import RustPbx.Sip.Types

/-!
The NAT fix of received Contact headers.

`rewriteContactValue` walks over the `<...>` parts of a header value and `rewriteNatedUri` replaces
private addresses in them. Both cut strings at byte offsets found by searching, so both could abort.
`Inspector.afterReceived` is the message inspector around them.
-/

namespace RustPbx.Proxy

namespace NatInspector

open Str Sip Except List

def isPrivateIp : IpAddr → Bool
  | ip@(.v4 a b _ _) =>
    IpAddr.isPrivateV4 a b || ip.isLoopback || (a == 169 && b == 254) || ip.isUnspecified
  | ip => ip.isLoopback || ip.isUnspecified

def splitUser (rest : List Char) : Except SliceError (List Char × List Char) :=
  match find (· == '@') rest with
  | some idx => do return (← sliceTo rest (idx + 1), ← sliceFrom rest (idx + 1))
  | none => return ([], rest)

def splitSuffix (authority : List Char) : Except SliceError (List Char × List Char) :=
  match find (fun c => c == ';' || c == '?') authority with
  | some idx => do return (← sliceTo authority idx, ← sliceFrom authority idx)
  | none => return (authority, [])

/-- The host, without the brackets of an IPv6 reference, and the text of the port. -/
def splitHostPort (authority : List Char) :
    Except SliceError (Option (List Char × Option (List Char))) :=
  match stripChar '[' authority with
  | some afterBracket =>
    match find (· == ']') afterBracket with
    | none => return none
    | some close => do
      let host ← sliceTo afterBracket close
      let tail ← sliceFrom afterBracket (close + 1)
      return some (host, stripChar ':' tail)
  | none =>
    match find (· == ':') authority with
    | some idx => do
      let host ← sliceTo authority idx
      let port ← sliceFrom authority (idx + 1)
      return some (host, some port)
    | none => return some (authority, none)

def joinPort (host : List Char) : Option (List Char) → List Char
  | some port => host ++ [':'] ++ port
  | none => host

def hostIp? : Host → Option IpAddr
  | .ipAddr ip => some ip
  | .domain name => IpAddr.parse name

def newAuthority (host : List Char) (origPort : Option (List Char)) (target : HostWithPort) :
    Option (List Char) := do
  let hostIp ← IpAddr.parse host
  guard (isPrivateIp hostIp)
  let targetIp ← hostIp? target.host
  -- both sides on private networks: nothing is gained
  guard (!(isPrivateIp targetIp && targetIp != hostIp))
  let newPort := (target.port.map fun p => Nat.toDigits 10 p.toNat).or origPort
  if targetIp = hostIp then
    -- the host is reachable already, only the port needs fixing
    guard (newPort ≠ origPort)
    return joinPort host newPort
  else
    return joinPort target.host.print newPort

def rewriteNatedUri (uri : List Char) (target : HostWithPort) :
    Except SliceError (Option (List Char)) :=
  match find (· == ':') uri with
  | none => return none
  | some colon => do
    let scheme ← sliceTo uri (colon + 1)
    if scheme ≠ "sip:".toList ∧ scheme ≠ "sips:".toList then
      return none
    else
      let rest ← sliceFrom uri (colon + 1)
      let (userPart, authority) ← splitUser rest
      let (authority, suffix) ← splitSuffix authority
      match ← splitHostPort authority with
      | none => return none
      | some (host, origPort) =>
        return (newAuthority host origPort target).map fun authority =>
          scheme ++ userPart ++ authority ++ suffix

theorem slices_of_find (h : find p s = some i) (hascii : ∀ c, p c = true → c.utf8Size = 1) :
    ∃ a c b, s = a ++ c :: b ∧ p c = true ∧ (∀ x ∈ a, p x = false) ∧
      sliceTo s i = .ok a ∧ sliceFrom s i = .ok (c :: b) ∧
      sliceTo s (i + 1) = .ok (a ++ [c]) ∧ sliceFrom s (i + 1) = .ok b := by
  obtain ⟨a, c, b, rfl, rfl, hc, hbefore⟩ := find_eq_some h
  exact ⟨a, c, b, rfl, hc, hbefore, sliceTo_append a _, sliceFrom_append a _,
    sliceTo_cons a b (hascii c hc), sliceFrom_cons a b (hascii c hc)⟩

theorem ascii_of_beq (hd : d.utf8Size = 1) (c : Char) (h : (c == d) = true) : c.utf8Size = 1 := by
  rw [beq_iff_eq.mp h]
  exact hd

theorem splitUser_total (rest : List Char) : ∃ r, splitUser rest = .ok r := by
  rw [splitUser]
  split
  · next idx h =>
    obtain ⟨a, c, b, -, -, -, -, -, hto, hfrom⟩ := slices_of_find h (ascii_of_beq rfl)
    rw [hto, hfrom]
    exact ⟨_, rfl⟩
  · exact ⟨_, rfl⟩

theorem splitSuffix_total (authority : List Char) : ∃ r, splitSuffix authority = .ok r := by
  rw [splitSuffix]
  split
  · next idx h =>
    obtain ⟨a, c, b, -, -, -, hto, hfrom, -⟩ := slices_of_find h fun c hc => by
      rcases Bool.or_eq_true_iff.mp hc with hc | hc
      · exact ascii_of_beq rfl c hc
      · exact ascii_of_beq rfl c hc
    rw [hto, hfrom]
    exact ⟨_, rfl⟩
  · exact ⟨_, rfl⟩

theorem splitHostPort_total (authority : List Char) : ∃ r, splitHostPort authority = .ok r := by
  rw [splitHostPort]
  split
  · split
    · exact ⟨_, rfl⟩
    · next close h =>
      obtain ⟨a, c, b, -, -, -, hto, -, -, hfrom⟩ := slices_of_find h (ascii_of_beq rfl)
      rw [hto, hfrom]
      exact ⟨_, rfl⟩
  · split
    · next idx h =>
      obtain ⟨a, c, b, -, -, -, hto, -, -, hfrom⟩ := slices_of_find h (ascii_of_beq rfl)
      rw [hto, hfrom]
      exact ⟨_, rfl⟩
    · exact ⟨_, rfl⟩

theorem rewriteNatedUri_total (uri : List Char) (target : HostWithPort) :
    ∃ r, rewriteNatedUri uri target = .ok r := by
  rw [rewriteNatedUri]
  split
  · exact ⟨_, rfl⟩
  · next colon h =>
    obtain ⟨a, c, rest, -, -, -, -, -, hto, hfrom⟩ := slices_of_find h (ascii_of_beq rfl)
    obtain ⟨⟨userPart, authority⟩, huser⟩ := splitUser_total rest
    obtain ⟨⟨host, suffix⟩, hsuffix⟩ := splitSuffix_total authority
    obtain ⟨hostPort, hhost⟩ := splitHostPort_total host
    rw [hto, hfrom]
    simp only [bind, Except.bind, huser, hsuffix, hhost]
    split
    · exact ⟨_, rfl⟩
    · cases hostPort with
      | none | some => exact ⟨_, rfl⟩

/-- Why a rewrite yields no value: a slice aborted, or the loop was cut off. -/
inductive Fault where
  | slice (e : SliceError)
  | fuel
  deriving DecidableEq

def rewriteContactLoop (target : HostWithPort) :
    Nat → (out : List Char) → (changed : Bool) → (rest : List Char) →
      Except Fault (Option (List Char))
  | 0, _, _, _ => .error .fuel
  | fuel + 1, out, changed, rest =>
    match find (· == '<') rest with
    | none => return if changed then some (out ++ rest) else none
    | some lt => do
      let before ← (sliceTo rest (lt + 1)).mapError .slice
      let after ← (sliceFrom rest (lt + 1)).mapError .slice
      let uriLen := (find (· == '>') after).getD (byteLen after)
      let uri ← (sliceTo after uriLen).mapError .slice
      let rewritten ← (rewriteNatedUri uri target).mapError .slice
      let rest ← (sliceFrom after (uriLen + 1)).mapError .slice
      rewriteContactLoop target fuel (out ++ before ++ rewritten.getD uri ++ ['>'])
        (changed || rewritten.isSome) rest

def rewriteContactValue (value : List Char) (target : HostWithPort) :
    Except Fault (Option (List Char)) :=
  rewriteContactLoop target (value.length + 1) [] false value

/-- Every `<` of the text is followed by a `>`. -/
def BracketsClosed (s : List Char) : Prop :=
  ∀ a b, s = a ++ '<' :: b → '>' ∈ b

theorem bracketsClosed_cons : BracketsClosed (c :: s) ↔ (c = '<' → '>' ∈ s) ∧ BracketsClosed s := by
  constructor
  · intro h
    refine ⟨fun hc => h [] s (by rw [hc, nil_append]), fun a b hs => ?_⟩
    exact h (c :: a) b (by rw [hs, cons_append])
  · rintro ⟨hhead, htail⟩ a b hs
    cases a with
    | nil =>
      cases hs
      exact hhead rfl
    | cons d a =>
      cases hs
      exact htail a b rfl

theorem bracketsClosed_append_gt (a b : List Char) :
    BracketsClosed (a ++ '>' :: b) ↔ BracketsClosed b := by
  induction a with
  | nil => simp [bracketsClosed_cons]
  | cons c a ih =>
    rw [cons_append, bracketsClosed_cons, ih]
    simp

theorem bracketsClosed_of_not_mem (h : '<' ∉ s) : BracketsClosed s := by
  rintro a b rfl
  simp at h

theorem rewriteContactLoop_done (h : '<' ∉ rest) :
    ∃ r, rewriteContactLoop target (fuel + 1) out changed rest = .ok r := by
  rw [rewriteContactLoop, find_none h]
  exact ⟨_, rfl⟩

theorem rewriteContactLoop_closed (target : HostWithPort) (fuel : Nat) (out : List Char)
    (changed : Bool) (b : List Char) (ha : '<' ∉ a) (hu : '>' ∉ u) :
    ∃ out' changed', rewriteContactLoop target (fuel + 1) out changed (a ++ '<' :: (u ++ '>' :: b))
      = rewriteContactLoop target fuel out' changed' b := by
  obtain ⟨rewritten, huri⟩ := rewriteNatedUri_total u target
  refine ⟨out ++ (a ++ ['<']) ++ rewritten.getD u ++ ['>'], changed || rewritten.isSome, ?_⟩
  rw [rewriteContactLoop, find_append ha]
  dsimp only
  rw [sliceTo_cons a _ rfl, sliceFrom_cons a _ rfl]
  simp only [Except.mapError, bind, Except.bind, find_append hu, Option.getD_some, sliceTo_append,
    huri]
  rw [sliceFrom_cons u b rfl]

theorem rewriteContactLoop_open (ha : '<' ∉ a) (hu : '>' ∉ u) :
    rewriteContactLoop target (fuel + 1) out changed (a ++ '<' :: u)
      = .error (.slice .outOfRange) := by
  obtain ⟨rewritten, huri⟩ := rewriteNatedUri_total u target
  have hall : sliceTo u (byteLen u) = .ok u := by
    simpa using sliceTo_append u []
  have hpast : sliceFrom u (byteLen u + 1) = .error .outOfRange :=
    sliceFrom_of_lt (Nat.lt_succ_self _)
  rw [rewriteContactLoop, find_append ha]
  dsimp only
  rw [sliceTo_cons a u rfl, sliceFrom_cons a u rfl]
  simp only [Except.mapError, bind, Except.bind, find_none hu, Option.getD_none, hall, huri, hpast]

theorem bracket_cases (s : List Char) : '<' ∉ s ∨ (∃ a u, s = a ++ '<' :: u ∧ '<' ∉ a ∧ '>' ∉ u) ∨
      ∃ a u b, s = a ++ '<' :: (u ++ '>' :: b) ∧ '<' ∉ a ∧ '>' ∉ u := by
  by_cases hlt : '<' ∈ s
  · obtain ⟨a, t, rfl, ha⟩ := eq_append_cons_of_mem hlt
    by_cases hgt : '>' ∈ t
    · obtain ⟨u, b, rfl, hu⟩ := eq_append_cons_of_mem hgt
      exact .inr (.inr ⟨a, u, b, rfl, ha, hu⟩)
    · exact .inr (.inl ⟨a, t, rfl, ha, hgt⟩)
  · exact .inl hlt

theorem rewriteContactLoop_total_iff (hfuel : rest.length < fuel) :
    (∃ r, rewriteContactLoop target fuel out changed rest = .ok r) ↔ BracketsClosed rest := by
  induction fuel generalizing out changed rest with
  | zero => omega
  | succ fuel ih =>
    rcases bracket_cases rest with h | ⟨a, u, rfl, ha, hu⟩ | ⟨a, u, b, rfl, ha, hu⟩
    · exact iff_of_true (rewriteContactLoop_done h) (bracketsClosed_of_not_mem h)
    · rw [rewriteContactLoop_open ha hu]
      refine iff_of_false (by rintro ⟨r, hr⟩; cases hr) fun h => hu (h a u rfl)
    · obtain ⟨out', changed', hstep⟩ := rewriteContactLoop_closed target fuel out changed b ha hu
      rw [hstep, ih (by simp at hfuel; omega)]
      have := bracketsClosed_append_gt (a ++ '<' :: u) b
      rw [append_assoc] at this
      exact this.symm

/-- **When the Contact rewrite is safe**: always for a URI, and for a header value exactly when each
`<` is closed by a later `>`. -/
theorem rewriteContactValue_total_iff (value : List Char) (target : HostWithPort) :
    (∀ uri, ∃ r, rewriteNatedUri uri target = .ok r) ∧
    ((∃ r, rewriteContactValue value target = .ok r) ↔ BracketsClosed value) :=
  ⟨fun uri => rewriteNatedUri_total uri target, rewriteContactLoop_total_iff (Nat.lt_succ_self _)⟩

/-- A Contact without its closing bracket cuts one byte past the end of the value. -/
theorem rewriteContactValue_unclosed :
    rewriteContactValue "<sip:alice@10.0.0.1".toList ⟨.ipAddr (.v4 203 0 113 9), some 5060⟩
      = .error (.slice .outOfRange) := by
  decide

/-! ## The inspector -/

inductive StatusKind where
  | provisional
  | successful
  | redirection
  | failure
  deriving DecidableEq

structure Response where
  kind : StatusKind
  headers : List Header
  cseqMethod : Option Method

inductive SipMessage where
  | request (req : Request)
  | response (resp : Response)

/-- The inspector: the global default, and the networks whose trunks differ from it. -/
structure Inspector where
  enabled : Bool
  exceptions : IpAddr → Bool

def Inspector.enabledFor (insp : Inspector) (source : SipAddr) : Bool :=
  match source.addr.host with
  | .ipAddr ip => insp.enabled != insp.exceptions ip
  | .domain _ => insp.enabled

def hasRouteSet (headers : List Header) : Bool :=
  headers.any fun
    | .recordRoute _ | .route _ => true
    | _ => false

def rewriteContacts (target : HostWithPort) : List Header → Except Fault (List Header)
  | [] => return []
  | .contact value :: rest => do
    let value' ← rewriteContactValue value target
    return .contact (value'.getD value) :: (← rewriteContacts target rest)
  | h :: rest => return h :: (← rewriteContacts target rest)

/-- The address an INVITE is fixed to: where its topmost Via says it was received from. -/
def requestTarget (req : Request) (sourcePort : Option UInt16) : Option HostWithPort := do
  guard (req.method = .invite ∧ !hasRouteSet req.headers)
  let via ← req.topVia
  let ip ← via.received.join
  return ⟨.ipAddr ip, via.rport.join.or sourcePort⟩

/-- The address a response is fixed to: its source, unless it echoes our own bindings. -/
def responseTarget (resp : Response) (source : SipAddr) : Option HostWithPort :=
  if resp.cseqMethod ≠ some .register ∧ (resp.kind = .provisional ∨ resp.kind = .successful) ∧
      !hasRouteSet resp.headers then
    some source.addr
  else none

def Inspector.afterReceived (insp : Inspector) (msg : SipMessage) (source : Option SipAddr) :
    Except Fault SipMessage :=
  match source with
  | none => return msg
  | some source =>
    if !insp.enabledFor source || source.transport = some .ws || source.transport = some .wss then
      return msg
    else
      match msg with
      | .request req =>
        match requestTarget req source.addr.port with
        | some target =>
          return .request { req with headers := ← rewriteContacts target req.headers }
        | none => return msg
      | .response resp =>
        match responseTarget resp source with
        | some target =>
          return .response { resp with headers := ← rewriteContacts target resp.headers }
        | none => return msg

def SipMessage.headers : SipMessage → List Header
  | .request req => req.headers
  | .response resp => resp.headers

def SipMessage.withHeaders : SipMessage → List Header → SipMessage
  | .request req, headers => .request { req with headers }
  | .response resp, headers => .response { resp with headers }

/-- A header, whatever its Contact says. -/
def blank : Header → Header
  | .contact _ => .contact []
  | h => h

theorem rewriteContacts_cases (target : HostWithPort) (headers : List Header) :
    (∃ hs, rewriteContacts target headers = .ok hs ∧ hs.map blank = headers.map blank) ∨
      (∃ fault, rewriteContacts target headers = .error fault) ∧
        ∃ value, .contact value ∈ headers ∧ ¬ BracketsClosed value := by
  induction headers with
  | nil => exact .inl ⟨[], rfl, rfl⟩
  | cons h rest ih =>
    have hrest (kept : Header) (hkept : blank kept = blank h) :
        (∃ hs, (do return kept :: (← rewriteContacts target rest)) = .ok hs ∧
          hs.map blank = (h :: rest).map blank) ∨
        (∃ fault, (do return kept :: (← rewriteContacts target rest)) = .error fault) ∧
          ∃ value, .contact value ∈ h :: rest ∧ ¬ BracketsClosed value := by
      obtain ⟨hs, hhs, hblank⟩ | ⟨⟨fault, hfault⟩, value, hmem, hopen⟩ := ih
      · rw [hhs]
        exact .inl ⟨_, rfl, congrArg₂ (· :: ·) hkept hblank⟩
      · rw [hfault]
        exact .inr ⟨⟨fault, rfl⟩, value, mem_cons_of_mem _ hmem, hopen⟩
    cases h with
    | contact value =>
      have htotal : (∃ r, rewriteContactValue value target = .ok r) ↔ BracketsClosed value :=
        rewriteContactLoop_total_iff (Nat.lt_succ_self _)
      rw [rewriteContacts]
      cases hr : rewriteContactValue value target with
      | error fault =>
        refine .inr ⟨⟨fault, rfl⟩, value, mem_cons_self, fun hclosed => ?_⟩
        obtain ⟨r, hok⟩ := htotal.mpr hclosed
        cases hr.symm.trans hok
      | ok r => exact hrest _ rfl
    | recordRoute | route | userAgent | authorization | proxyAuthorization | other =>
      rw [rewriteContacts]
      · exact hrest _ rfl
      · nofun

/-- **The inspector changes nothing but what Contacts say** in a message it returns, and it aborts
only at a Contact with a bracket that is not closed. -/
theorem Inspector.afterReceived_contacts (insp : Inspector) (msg : SipMessage)
    (source : Option SipAddr) :
    (∃ headers, insp.afterReceived msg source = .ok (msg.withHeaders headers) ∧
      headers.map blank = msg.headers.map blank) ∨
      (∃ fault, insp.afterReceived msg source = .error fault) ∧
        ∃ value, .contact value ∈ msg.headers ∧ ¬ BracketsClosed value := by
  have hsame : msg.withHeaders msg.headers = msg := by cases msg <;> rfl
  have hkept : (pure msg : Except Fault SipMessage) = .ok (msg.withHeaders msg.headers) := by
    rw [hsame]
    rfl
  unfold Inspector.afterReceived
  split
  · exact .inl ⟨_, hkept, rfl⟩
  · split
    · exact .inl ⟨_, hkept, rfl⟩
    · cases msg with
      | request req | response req =>
        simp only
        split
        · next target _ =>
          obtain ⟨hs, hhs, hblank⟩ | ⟨⟨fault, hfault⟩, hopen⟩ :=
            rewriteContacts_cases target req.headers
          · rw [hhs]
            exact .inl ⟨hs, rfl, hblank⟩
          · rw [hfault]
            exact .inr ⟨⟨fault, rfl⟩, hopen⟩
        · exact .inl ⟨_, hkept, rfl⟩

end NatInspector

end RustPbx.Proxy
