import RustPbx.Proxy.TrunkIndex

/-!
The access control module.

At the beginning of a transaction it looks at the user agent and the From URI, then at what it has
counted for the address the request comes from, and last at the trunks and the address rules. At the
end of a transaction it counts one request less for its address. Networks are compared under masks,
of a word for IPv4 and of segments for IPv6 (`first_rule_decides`).
-/

namespace RustPbx.Proxy

open BitVec

structure AclConfig where
  uaWhiteList : List String := []
  uaBlackList : List String := []
  uaBlockScanners : Bool := true
  uriRejectMalformed : Bool := false
  uriMaxLength : Nat := 256
  dosEnabled : Bool := false
  dosMaxCpsPerIp : UInt32 := 100
  dosMaxConcurrentPerIp : UInt32 := 500
  dosScanProbeThreshold : UInt32 := 50
  dosScanBlockDurationSecs : Nat := 600

inductive FromUri where
  | missing
  | malformed
  | uri (text : String)

/-- The source address is that of the connection, or the one a trusted proxy has put into its Via.
-/
structure AclRequest where
  userAgent : Option String
  fromUri : FromUri
  sourceIp : Option IpAddr

namespace Acl

def commonScannerUaPatterns : List String :=
  ["friendly-scanner", "sipvicious", "sipcli", "sipsak", "pplsip", "vaxsipuseragent", "ozeki",
    "sip-test", "rapid7", "nexpose", "masscan", "zmap", "nmap", "unicornscan", "sundayddr"]

inductive UaBlockReason where
  | blacklisted (pattern : String)
  | scanner (pattern : String)
  | notWhitelisted

def containsText (text part : String) : Bool :=
  text.toList.tails.any fun rest => part.toList.isPrefixOf rest

def matchUa (toLowercase : String → String) (cfg : AclConfig) (ua : String) :
    Option UaBlockReason :=
  let ua := toLowercase ua
  match cfg.uaBlackList.find? fun p => containsText ua (toLowercase p) with
  | some pattern => some (.blacklisted pattern)
  | none =>
    if cfg.uaWhiteList ≠ [] then
      if cfg.uaWhiteList.any fun p => containsText ua (toLowercase p) then none
      else some .notWhitelisted
    else if !cfg.uaBlockScanners then none
    else (commonScannerUaPatterns.find? (containsText ua)).map .scanner

def checkUriNormalization (cfg : AclConfig) (fromUri : FromUri) : Except String Unit :=
  if !cfg.uriRejectMalformed then .ok ()
  else
    match fromUri with
    | .missing => .error "malformed From header"
    | .malformed => .error "malformed From URI"
    | .uri text =>
      if Str.byteLen text.toList > cfg.uriMaxLength then .error "From URI too long" else .ok ()

def wordMask (prefixLen : Nat) : BitVec 32 :=
  if prefixLen = 0 then 0 else allOnes 32 <<< (32 - prefixLen)

def segmentMask (bits : Nat) : BitVec 16 :=
  if bits = 16 then allOnes 16 else allOnes 16 <<< (16 - bits)

def word (a b c d : UInt8) : BitVec 32 :=
  a.toBitVec ++ b.toBitVec ++ c.toBitVec ++ d.toBitVec

def maskSegment (prefixLen i : Nat) (segment : UInt16) : UInt16 :=
  if prefixLen > i * 16 then ⟨segment.toBitVec &&& segmentMask (min (prefixLen - i * 16) 16)⟩
  else 0

def maskAddr (prefixLen : Nat) : IpAddr → IpAddr
  | .v4 a b c d =>
    let network := word a b c d &&& wordMask prefixLen
    let octet (i : Nat) : UInt8 := ⟨network.extractLsb' (8 * i) 8⟩
    .v4 (octet 3) (octet 2) (octet 1) (octet 0)
  | .v6 s0 s1 s2 s3 s4 s5 s6 s7 =>
    let masked := maskSegment prefixLen
    .v6 (masked 0 s0) (masked 1 s1) (masked 2 s2) (masked 3 s3) (masked 4 s4) (masked 5 s5)
      (masked 6 s6) (masked 7 s7)

structure IpNetwork where
  network : IpAddr
  prefixLen : Nat
  deriving DecidableEq

/-- The loop over the segments, with the bits that are left to compare. -/
def sameSegments : Nat → List (UInt16 × UInt16) → Bool
  | _, [] => true
  | remainingBits, (network, segment) :: rest =>
    if remainingBits = 0 then true
    else
      let mask := segmentMask (min remainingBits 16)
      if network.toBitVec &&& mask ≠ segment.toBitVec &&& mask then false
      else if remainingBits ≥ 16 then sameSegments (remainingBits - 16) rest
      else true

def IpNetwork.contains (n : IpNetwork) (ip : IpAddr) : Bool :=
  match n.network, ip with
  | .v4 a b c d, .v4 a' b' c' d' =>
    word a b c d &&& wordMask n.prefixLen = word a' b' c' d' &&& wordMask n.prefixLen
  | .v6 s0 s1 s2 s3 s4 s5 s6 s7, .v6 t0 t1 t2 t3 t4 t5 t6 t7 =>
    sameSegments n.prefixLen
      [(s0, t0), (s1, t1), (s2, t2), (s3, t3), (s4, t4), (s5, t5), (s6, t6), (s7, t7)]
  | _, _ => false

/-- An address, or an address and the length of its network; what follows the network in the address
is masked. -/
def parseNetwork (addr : List Char) : Option IpNetwork :=
  if '/' ∉ addr then (IpAddr.parse addr).map fun ip => ⟨ip, ip.width⟩
  else
    match addr.splitOn '/' with
    | [host, length] => do
      let ip ← IpAddr.parse host
      let prefixLen ← Str.parseUnsigned 256 length
      if prefixLen ≤ ip.width then some ⟨maskAddr prefixLen ip, prefixLen⟩ else none
    | _ => none

inductive AclAction where
  | allow
  | deny
  deriving DecidableEq

def AclAction.parse : String → Option AclAction
  | "allow" => some .allow
  | "deny" => some .deny
  | _ => none

structure AclRule where
  action : AclAction
  network : Option IpNetwork
  deriving DecidableEq

def splitWhitespace (text : String) : List (List Char) :=
  (text.toList.splitOnP Str.isWhitespace).filter (· ≠ [])

def AclRule.new (rule : String) : Option AclRule :=
  match splitWhitespace rule with
  | action :: network :: _ => do
    let action ← AclAction.parse (Str.lower (String.ofList action))
    if network = "all".toList then some ⟨action, none⟩
    else
      let network ← parseNetwork network
      some ⟨action, some network⟩
  | _ => none

def parseRules (rules : List String) : List AclRule :=
  rules.filterMap AclRule.new

def isIpAllowed : List AclRule → IpAddr → Bool
  | [], _ => false
  | rule :: rules, addr =>
    match rule.network with
    | some network => if network.contains addr then rule.action = .allow else isIpAllowed rules addr
    | none => rule.action = .allow

/-! ## Which rule applies -/

theorem getMsbD_and_leading (x : BitVec w) : (x &&& allOnes w <<< (w - bits)).getMsbD i =
    (x.getMsbD i && decide (i < bits)) := by
  rw [getMsbD_and, getMsbD_shiftLeft, getMsbD_allOnes]
  by_cases hw : i < w
  · congr 1
    rw [decide_eq_decide]
    omega
  · rw [getMsbD_of_ge _ _ (Nat.le_of_not_lt hw), Bool.false_and, Bool.false_and]

theorem and_leading_eq_iff {x y : BitVec w} :
    x &&& allOnes w <<< (w - bits) = y &&& allOnes w <<< (w - bits) ↔
      ∀ i < bits, x.getMsbD i = y.getMsbD i := by
  refine ⟨fun h i hi => ?_, fun h => eq_of_getMsbD_eq fun i _ => ?_⟩
  · have hbit := congrArg (getMsbD · i) h
    simpa only [getMsbD_and_leading, hi, decide_true, Bool.and_true] using hbit
  · rw [getMsbD_and_leading, getMsbD_and_leading]
    by_cases hi : i < bits
    · rw [h i hi]
    · rw [decide_eq_false hi, Bool.and_false, Bool.and_false]

theorem wordMask_eq (prefixLen : Nat) : wordMask prefixLen = allOnes 32 <<< (32 - prefixLen) := by
  unfold wordMask
  split
  · next h =>
    rw [h]
    decide
  · rfl

theorem segmentMask_eq (bits : Nat) : segmentMask bits = allOnes 16 <<< (16 - bits) := by
  unfold segmentMask
  split
  · next h => rw [h]; rfl
  · rfl

def segmentBit : List UInt16 → Nat → Bool
  | [], _ => false
  | segment :: rest, i =>
    if i < 16 then segment.toBitVec.getMsbD i else segmentBit rest (i - 16)

/-- A bit of an address, from the first. -/
def addrBit : IpAddr → Nat → Bool
  | .v4 a b c d, i => (word a b c d).getMsbD i
  | .v6 s0 s1 s2 s3 s4 s5 s6 s7, i => segmentBit [s0, s1, s2, s3, s4, s5, s6, s7] i

/-- The address is of the family of the network, and has its leading bits. -/
def IpNetwork.Agrees (n : IpNetwork) (ip : IpAddr) : Prop :=
  n.network.isV6 = ip.isV6 ∧ ∀ i < n.prefixLen, addrBit n.network i = addrBit ip i

instance (n : IpNetwork) (ip : IpAddr) : Decidable (n.Agrees ip) :=
  inferInstanceAs (Decidable (_ ∧ _))

theorem forall_segmentBit_cons {x y : UInt16} {xs ys : List UInt16} :
    (∀ i < n, segmentBit (x :: xs) i = segmentBit (y :: ys) i) ↔
      (∀ i < min n 16, x.toBitVec.getMsbD i = y.toBitVec.getMsbD i) ∧
        ∀ i < n - 16, segmentBit xs i = segmentBit ys i := by
  simp only [segmentBit]
  refine ⟨fun h => ⟨fun i hi => ?_, fun i hi => ?_⟩, fun h i hi => ?_⟩
  · simpa [show i < 16 by omega] using h i (by omega)
  · simpa using h (i + 16) (by omega)
  · split
    · exact h.1 i (by omega)
    · exact h.2 _ (by omega)

theorem sameSegments_iff (pairs : List (UInt16 × UInt16)) : ∀ n, sameSegments n pairs = true ↔
    ∀ i < n, segmentBit (pairs.map (·.1)) i = segmentBit (pairs.map (·.2)) i := by
  induction pairs with
  | nil => exact fun _ => iff_of_true rfl fun _ _ => rfl
  | cons pair rest ih =>
    intro n
    unfold sameSegments
    by_cases hzero : n = 0
    · subst hzero
      exact iff_of_true rfl nofun
    rw [if_neg hzero, List.map_cons, List.map_cons, forall_segmentBit_cons, ← and_leading_eq_iff,
      ← segmentMask_eq]
    dsimp only
    split
    next hmask => exact iff_of_false nofun fun h => hmask h.1
    next hmask =>
      rw [and_iff_right (not_not.mp hmask)]
      split
      · exact ih _
      · exact iff_of_true rfl fun i hi => by omega

theorem contains_iff (n : IpNetwork) (ip : IpAddr) : n.contains ip = true ↔ n.Agrees ip := by
  obtain ⟨network, prefixLen⟩ := n
  cases network with
  | v4 =>
    cases ip with
    | v4 =>
      refine decide_eq_true_iff.trans ?_
      rw [wordMask_eq]
      exact and_leading_eq_iff.trans (and_iff_right rfl).symm
    | v6 => exact iff_of_false nofun nofun
  | v6 =>
    cases ip with
    | v4 => exact iff_of_false nofun nofun
    | v6 => exact (sameSegments_iff _ _).trans (and_iff_right rfl).symm

theorem getMsbD_maskSegment (hi : i < min (prefixLen - k * 16) 16) :
    (maskSegment prefixLen k x).toBitVec.getMsbD i = x.toBitVec.getMsbD i := by
  rw [maskSegment, if_pos (by omega), segmentMask_eq, getMsbD_and_leading, decide_eq_true hi,
    Bool.and_true]

theorem word_octets (w : BitVec 32) : word ⟨w.extractLsb' 24 8⟩ ⟨w.extractLsb' 16 8⟩
    ⟨w.extractLsb' 8 8⟩ ⟨w.extractLsb' 0 8⟩ = w := by
  unfold word
  ext i hi
  grind

theorem addrBit_maskAddr (ip : IpAddr) :
    ∀ i < prefixLen, addrBit (maskAddr prefixLen ip) i = addrBit ip i := by
  cases ip with
  | v4 a b c d =>
    intro i hi
    refine (congrArg (getMsbD · i) (word_octets _)).trans ?_
    rw [wordMask_eq, getMsbD_and_leading, decide_eq_true hi, Bool.and_true]
    rfl
  | v6 =>
    iterate 8 refine forall_segmentBit_cons.mpr ⟨fun i hi => getMsbD_maskSegment (by omega), ?_⟩
    exact fun _ _ => rfl

/-! ## What a rule says -/

/-- The text is an address, or an address and the length of a network it is in. -/
inductive Written (text : List Char) : IpAddr → Nat → Prop where
  | address (hslash : '/' ∉ text) (hip : IpAddr.parse text = some ip) : Written text ip ip.width
  | cidr (hslash : '/' ∈ text) (hparts : text.splitOn '/' = [host, length])
      (hip : IpAddr.parse host = some ip) (hlength : Str.parseUnsigned 256 length = some prefixLen)
      (hle : prefixLen ≤ ip.width) : Written text ip prefixLen

def AclAction.verb : AclAction → String
  | .allow => "allow"
  | .deny => "deny"

theorem AclAction.parse_eq_some_iff : AclAction.parse text = some action ↔ text = action.verb := by
  unfold AclAction.parse
  split
  · cases action <;> simp [AclAction.verb]
  · cases action <;> simp [AclAction.verb]
  next hallow hdeny => exact iff_of_false nofun (by cases action <;> assumption)

/-- The rule begins with a verb in any case, and a network as it is written or the word `all`. -/
inductive Says (rule : String) : AclAction → Option (IpAddr × Nat) → Prop where
  | all (hwords : splitWhitespace rule = verb :: "all".toList :: rest)
      (hverb : Str.lower (String.ofList verb) = action.verb) : Says rule action none
  | network (hwords : splitWhitespace rule = verb :: text :: rest)
      (hverb : Str.lower (String.ofList verb) = action.verb) (hall : text ≠ "all".toList)
      (hwritten : Written text ip prefixLen) : Says rule action (some (ip, prefixLen))

/-- The address is one of those the rule is for. -/
def Hits (addr : IpAddr) : Option (IpAddr × Nat) → Prop
  | none => True
  | some (ip, prefixLen) => (IpNetwork.mk ip prefixLen).Agrees addr

theorem agrees_maskAddr : (IpNetwork.mk (maskAddr prefixLen ip) prefixLen).Agrees addr ↔
    (IpNetwork.mk ip prefixLen).Agrees addr := by
  refine and_congr ?_ (forall₂_congr fun i hi => ?_)
  · cases ip <;> rfl
  · rw [addrBit_maskAddr ip i hi]

theorem parseNetwork_spec (h : Written text ip prefixLen) : ∃ n, parseNetwork text = some n ∧
    ∀ addr, n.contains addr = true ↔ (IpNetwork.mk ip prefixLen).Agrees addr := by
  cases h with
  | address hslash hip =>
    refine ⟨⟨ip, ip.width⟩, ?_, fun addr => contains_iff _ addr⟩
    rw [parseNetwork, if_pos hslash, hip]
    rfl
  | cidr hslash hparts hip hlength hle =>
    refine ⟨⟨maskAddr prefixLen ip, prefixLen⟩, ?_, fun addr => ?_⟩
    · rw [parseNetwork, if_neg (not_not.mpr hslash), hparts]
      simp [hip, hlength, hle]
    · rw [contains_iff, agrees_maskAddr]

theorem written_of_parseNetwork (h : parseNetwork text = some n) :
    ∃ ip prefixLen, Written text ip prefixLen := by
  unfold parseNetwork at h
  split at h
  next hslash =>
    obtain ⟨ip, hip, -⟩ := Option.map_eq_some_iff.mp h
    exact ⟨ip, _, .address hslash hip⟩
  next hslash =>
    split at h
    next hparts =>
      simp only [Option.bind_eq_bind, Option.bind_eq_some_iff] at h
      obtain ⟨ip, hip, prefixLen, hlength, h⟩ := h
      split at h
      next hle => exact ⟨ip, prefixLen, .cidr (not_not.mp hslash) hparts hip hlength hle⟩
      · cases h
    · cases h

theorem new_spec (h : Says rule action network) : ∃ r, AclRule.new rule = some r ∧
    r.action = action ∧
      ∀ addr, (r.network.all fun n => n.contains addr) = true ↔ Hits addr network := by
  cases h with
  | all hwords hverb =>
    refine ⟨⟨action, none⟩, ?_, rfl, fun addr => iff_of_true rfl trivial⟩
    rw [AclRule.new, hwords]
    simp [AclAction.parse_eq_some_iff.mpr hverb]
  | network hwords hverb hall hwritten =>
    obtain ⟨n, hn, hagrees⟩ := parseNetwork_spec hwritten
    refine ⟨⟨action, some n⟩, ?_, rfl, hagrees⟩
    rw [AclRule.new, hwords]
    simp only [AclAction.parse_eq_some_iff.mpr hverb, hn, if_neg hall, Option.bind_eq_bind,
      Option.bind_some]

theorem says_of_new (h : AclRule.new rule = some r) : ∃ network, Says rule r.action network := by
  unfold AclRule.new at h
  split at h
  next verb text rest hwords =>
    obtain ⟨action, haction, h⟩ := Option.bind_eq_some_iff.mp h
    have hverb := AclAction.parse_eq_some_iff.mp haction
    split at h
    next hall =>
      cases h
      exact ⟨none, .all (hall ▸ hwords) hverb⟩
    next hall =>
      obtain ⟨n, hn, ⟨⟩⟩ := Option.bind_eq_some_iff.mp h
      obtain ⟨ip, prefixLen, hwritten⟩ := written_of_parseNetwork hn
      exact ⟨some (ip, prefixLen), .network hwords hverb hall hwritten⟩
  · cases h

theorem isIpAllowed_cons (r : AclRule) (rs : List AclRule) (addr : IpAddr) :
    isIpAllowed (r :: rs) addr = if r.network.all (·.contains addr) then decide (r.action = .allow)
      else isIpAllowed rs addr := by
  rw [isIpAllowed]
  cases r.network with
  | none => rfl
  | some n => rfl

theorem exists_first_cons {P Q : String → Prop} : (∃ before rule after,
      first :: rules = before ++ rule :: after ∧ (∀ earlier ∈ before, ¬ P earlier) ∧ Q rule) ↔
    Q first ∨ ¬ P first ∧ ∃ before rule after,
      rules = before ++ rule :: after ∧ (∀ earlier ∈ before, ¬ P earlier) ∧ Q rule := by
  constructor
  · rintro ⟨before, rule, after, heq, hbefore, hQ⟩
    cases before with
    | nil =>
      cases heq
      exact .inl hQ
    | cons _ before =>
      cases heq
      exact .inr ⟨hbefore _ (.head _), before, rule, after, rfl,
        fun e he => hbefore e (.tail _ he), hQ⟩
  · rintro (hQ | ⟨hP, before, rule, after, rfl, hbefore, hQ⟩)
    · exact ⟨[], first, rules, rfl, nofun, hQ⟩
    · exact ⟨first :: before, rule, after, rfl, List.forall_mem_cons.mpr ⟨hP, hbefore⟩, hQ⟩

/-- **The first rule for an address decides**: one for all addresses, or one with a network, as it
is written, that has its family and its leading bits. An address without a rule is denied. -/
theorem first_rule_decides (rules : List String) (addr : IpAddr) :
    isIpAllowed (parseRules rules) addr = true ↔ ∃ before rule after,
      rules = before ++ rule :: after ∧
        (∀ earlier ∈ before, ¬ ∃ action network, Says earlier action network ∧ Hits addr network) ∧
        ∃ network, Says rule .allow network ∧ Hits addr network := by
  induction rules with
  | nil => simp [parseRules, isIpAllowed]
  | cons rule rules ih =>
    rw [exists_first_cons, ← ih, parseRules, List.filterMap_cons]
    cases hnew : AclRule.new rule with
    | none =>
      have hsilent : ¬ ∃ action network, Says rule action network ∧ Hits addr network := by
        rintro ⟨action, network, hsays, -⟩
        obtain ⟨r, hr, -⟩ := new_spec hsays
        cases hnew.symm.trans hr
      rw [or_iff_right fun h => hsilent ⟨.allow, h⟩, and_iff_right hsilent]
      rfl
    | some r =>
      obtain ⟨network, hsays⟩ := says_of_new hnew
      have hunique (action network') (h : Says rule action network') : action = r.action ∧
          ((r.network.all (·.contains addr)) = true ↔ Hits addr network') := by
        obtain ⟨r', hr', haction, hhits⟩ := new_spec h
        cases hnew.symm.trans hr'
        exact ⟨haction.symm, hhits addr⟩
      change isIpAllowed (r :: parseRules rules) addr = true ↔ _
      rw [isIpAllowed_cons]
      split
      next happlies =>
        have hhits := (hunique _ _ hsays).2.mp happlies
        rw [decide_eq_true_iff, or_iff_left fun h => h.1 ⟨_, _, hsays, hhits⟩]
        refine ⟨fun h => ⟨network, h ▸ hsays, hhits⟩, ?_⟩
        rintro ⟨network', hallow, -⟩
        exact (hunique _ _ hallow).1.symm
      next happlies =>
        have hnone : ¬ ∃ action network, Says rule action network ∧ Hits addr network := by
          rintro ⟨action, network', hsays', hhits⟩
          exact happlies ((hunique _ _ hsays').2.mpr hhits)
        rw [or_iff_right fun h => hnone ⟨.allow, h⟩, and_iff_right hnone]

/-- A rule for another address, and one for a network. -/
theorem first_rule_decides_office :
    isIpAllowed (parseRules ["deny 10.0.0.7", "Allow 10.1.2.3/8", "deny all"]) (.v4 10 0 0 9) =
      true := by
  refine (first_rule_decides _ _).mpr
    ⟨["deny 10.0.0.7"], "Allow 10.1.2.3/8", ["deny all"], rfl, ?_, some (.v4 10 1 2 3, 8), ?_, ?_⟩
  · rintro earlier hearlier ⟨action, network, hsays, hhits⟩
    cases List.mem_singleton.mp hearlier
    obtain ⟨r, hr, -, hspec⟩ := new_spec hsays
    have hnew : AclRule.new "deny 10.0.0.7" = some ⟨.deny, some ⟨.v4 10 0 0 7, 32⟩⟩ := by decide
    cases hnew.symm.trans hr
    exact absurd ((hspec _).mpr hhits) (by decide)
  · have hwords : splitWhitespace "Allow 10.1.2.3/8" = ["Allow".toList, "10.1.2.3/8".toList] := by
      decide
    have hparts : "10.1.2.3/8".toList.splitOn '/' = ["10.1.2.3".toList, "8".toList] := by decide
    exact .network hwords (by decide) (by decide)
      (.cidr (by decide) hparts (by decide) (by decide) (by decide))
  · exact (by decide : (IpNetwork.mk (.v4 10 1 2 3) 8).Agrees (.v4 10 0 0 9))

/-- What is counted for an address, with times in nanoseconds. -/
structure DosPerIpData where
  recent : List Int := []
  concurrent : Nat := 0
  blockedUntil : Option Int := none

def nanosPerSec : Int := 1000000000

/-- A block that is over is taken back, with all that was counted. -/
def DosPerIpData.unblock (entry : DosPerIpData) (now : Int) : Option DosPerIpData :=
  match entry.blockedUntil with
  | some blockedUntil => if now < blockedUntil then none else some {}
  | none => some entry

def DosPerIpData.track (cfg : AclConfig) (now : Int) (entry : DosPerIpData) :
    Except String Unit × DosPerIpData :=
  let entry := { entry with recent := entry.recent.filter (· > now - nanosPerSec) }
  let block := some (now + cfg.dosScanBlockDurationSecs * nanosPerSec)
  if entry.recent.length ≥ cfg.dosMaxCpsPerIp.toNat then
    (.error "CPS limit exceeded", { entry with blockedUntil := block })
  else if entry.concurrent ≥ cfg.dosMaxConcurrentPerIp.toNat then
    (.error "Concurrent limit exceeded", entry)
  else if entry.recent.length ≥ cfg.dosScanProbeThreshold.toNat then
    (.error "Scan detected", { entry with blockedUntil := block })
  else
    (.ok (), { entry with recent := entry.recent ++ [now], concurrent := entry.concurrent + 1 })

abbrev DosData := Table IpAddr DosPerIpData

def dosCheckAndTrack (cfg : AclConfig) (now : Int) (data : DosData) (ip : IpAddr) :
    Except String Unit × DosData :=
  let entry := (data.lookup ip).getD {}
  match entry.unblock now with
  | none => (.error "IP blocked", data.insert ip entry)
  | some entry =>
    let (result, entry) := entry.track cfg now
    (result, data.insert ip entry)

def dosRelease (data : DosData) (ip : IpAddr) : DosData :=
  match data.lookup ip with
  | some entry => data.insert ip { entry with concurrent := entry.concurrent - 1 }
  | none => data

/-- Why a request is denied, as it is reported. -/
inductive Denial where
  | uaBlacklist (reason : UaBlockReason)
  | missingUserAgent
  | uriNormalization (error : String)
  | dosRateLimit (error : String)
  | ipDenied

def checkRequest (toLowercase : String → String) (cfg : AclConfig) (request : AclRequest) :
    Option Denial :=
  let ua :=
    match request.userAgent with
    | some ua => (matchUa toLowercase cfg ua).map .uaBlacklist
    | none => if cfg.uaWhiteList ≠ [] then some .missingUserAgent else none
  match ua with
  | some denial => some denial
  | none =>
    match checkUriNormalization cfg request.fromUri with
    | .error e => some (.uriNormalization e)
    | .ok () => none

def checkDos (cfg : AclConfig) (now : Int) (data : DosData) (request : AclRequest) :
    Option Denial × DosData :=
  if cfg.dosEnabled then
    match request.sourceIp with
    | some ip =>
      match dosCheckAndTrack cfg now data ip with
      | (.ok (), data) => (none, data)
      | (.error e, data) => (some (.dosRateLimit e), data)
    | none => (none, data)
  else (none, data)

def checkIp (rules : List String) (trunk : Option TrunkContext) (request : AclRequest) :
    Except String (Option Denial) :=
  match request.sourceIp with
  | none => .error "missing transport source address"
  | some ip =>
    if trunk.isSome || isIpAllowed (parseRules rules) ip then .ok none else .ok (some .ipDenied)

def onTransactionEnd (cfg : AclConfig) (data : DosData) (request : AclRequest) : DosData :=
  if cfg.dosEnabled then
    match request.sourceIp with
    | some ip => dosRelease data ip
    | none => data
  else data

/-! ## What is counted -/

def DosData.concurrent (data : DosData) (ip : IpAddr) : Nat :=
  ((data.lookup ip).getD {}).concurrent

def DosData.BlockOver (data : DosData) (now : Int) (ip : IpAddr) : Prop :=
  ∃ blockedUntil ∈ ((data.lookup ip).getD {}).blockedUntil, blockedUntil ≤ now

theorem DosData.concurrent_insert (data : DosData) :
    DosData.concurrent (data.insert ip entry) ip' =
      if ip' = ip then entry.concurrent else data.concurrent ip' := by
  unfold DosData.concurrent
  rw [Table.lookup_insert_eq]
  split
  · rfl
  · rfl

theorem concurrent_dosRelease (data : DosData) :
    (dosRelease data ip).concurrent ip' =
      if ip' = ip then data.concurrent ip - 1 else data.concurrent ip' := by
  unfold dosRelease
  cases hentry : data.lookup ip with
  | none =>
    dsimp only
    split
    next heq =>
      rw [heq, DosData.concurrent, hentry]
      rfl
    · rfl
  | some entry =>
    rw [DosData.concurrent_insert]
    have hcount : data.concurrent ip = entry.concurrent := by
      rw [DosData.concurrent, hentry]
      rfl
    rw [hcount]

theorem DosPerIpData.track_cases (data : DosData)
    (entry : DosPerIpData) : (∃ e, (entry.track cfg now).1 = .error e ∧
      ∀ ip', DosData.concurrent (data.insert ip (entry.track cfg now).2) ip' =
        if ip' = ip then entry.concurrent else data.concurrent ip') ∨
    ((entry.track cfg now).1 = .ok () ∧ entry.concurrent < cfg.dosMaxConcurrentPerIp.toNat ∧
      ∀ ip', DosData.concurrent (data.insert ip (entry.track cfg now).2) ip' =
        if ip' = ip then entry.concurrent + 1 else data.concurrent ip') := by
  simp only [DosData.concurrent_insert]
  unfold DosPerIpData.track
  dsimp only
  split
  · exact .inl ⟨_, rfl, fun _ => rfl⟩
  · split
    · exact .inl ⟨_, rfl, fun _ => rfl⟩
    next hmax =>
      split
      · exact .inl ⟨_, rfl, fun _ => rfl⟩
      · exact .inr ⟨rfl, Nat.lt_of_not_le hmax, fun _ => rfl⟩

/-- **What a check counts**: one more for a request that it admits, on top of nothing if it finds
that a block is over. -/
theorem dosCheckAndTrack_cases (data : DosData) :
    ∃ base, (data.BlockOver now ip → base = 0) ∧
      (¬ data.BlockOver now ip → base = data.concurrent ip) ∧
      ((∃ e, (dosCheckAndTrack cfg now data ip).1 = .error e ∧
        ∀ ip', (dosCheckAndTrack cfg now data ip).2.concurrent ip' =
          if ip' = ip then base else data.concurrent ip') ∨
      ((dosCheckAndTrack cfg now data ip).1 = .ok () ∧ base < cfg.dosMaxConcurrentPerIp.toNat ∧
        ∀ ip', (dosCheckAndTrack cfg now data ip).2.concurrent ip' =
          if ip' = ip then base + 1 else data.concurrent ip')) := by
  unfold dosCheckAndTrack DosData.BlockOver
  have hcount : data.concurrent ip = ((data.lookup ip).getD {}).concurrent := rfl
  rw [hcount]
  generalize (data.lookup ip).getD {} = entry
  dsimp only
  unfold DosPerIpData.unblock
  cases hblock : entry.blockedUntil with
  | none =>
    refine ⟨entry.concurrent, nofun, fun _ => rfl, ?_⟩
    exact entry.track_cases data
  | some blockedUntil =>
    by_cases hlt : now < blockedUntil
    · have hnot : ¬ ∃ b ∈ some blockedUntil, b ≤ now := by
        rintro ⟨_, ⟨⟩, hle⟩
        exact absurd hlt (Int.not_lt.mpr hle)
      refine ⟨entry.concurrent, fun h => absurd h hnot, fun _ => rfl, ?_⟩
      dsimp only
      rw [if_pos hlt]
      exact .inl ⟨_, rfl, fun ip' => DosData.concurrent_insert data⟩
    · have hover : ∃ b ∈ some blockedUntil, b ≤ now := ⟨_, rfl, Int.not_lt.mp hlt⟩
      refine ⟨0, fun _ => rfl, fun h => absurd hover h, ?_⟩
      dsimp only
      rw [if_neg hlt]
      exact DosPerIpData.track_cases data {}

theorem checkDos_cases (h : checkDos cfg now data request = (denial, data')) :
    ((cfg.dosEnabled && request.sourceIp.isSome) = false ∧ denial = none ∧ data' = data) ∨
    (cfg.dosEnabled = true ∧ ∃ ip, request.sourceIp = some ip ∧
      ∃ base, (data.BlockOver now ip → base = 0) ∧
        (¬ data.BlockOver now ip → base = data.concurrent ip) ∧ ((denial.isSome ∧
          ∀ ip', data'.concurrent ip' = if ip' = ip then base else data.concurrent ip') ∨
        (denial = none ∧ base < cfg.dosMaxConcurrentPerIp.toNat ∧
          ∀ ip', data'.concurrent ip' = if ip' = ip then base + 1 else data.concurrent ip'))) := by
  unfold checkDos at h
  cases henabled : cfg.dosEnabled with
  | false =>
    rw [henabled] at h
    cases h
    exact .inl ⟨rfl, rfl, rfl⟩
  | true =>
    rw [henabled, if_pos rfl] at h
    cases hip : request.sourceIp with
    | none =>
      rw [hip] at h
      cases h
      exact .inl ⟨rfl, rfl, rfl⟩
    | some ip =>
      rw [hip] at h
      dsimp only at h
      obtain ⟨base, hover, hnot, hcases⟩ := dosCheckAndTrack_cases data
      refine .inr ⟨rfl, ip, rfl, base, hover, hnot, ?_⟩
      obtain ⟨e, hresult, hcount⟩ | ⟨hresult, hmax, hcount⟩ := hcases
      · split at h
        next hok =>
          rw [hok] at hresult
          cases hresult
        next herror =>
          cases h
          rw [herror] at hcount
          exact .inl ⟨rfl, hcount⟩
      · split at h
        next hok =>
          cases h
          rw [hok] at hcount
          exact .inr ⟨rfl, hmax, hcount⟩
        next herror =>
          rw [herror] at hresult
          cases hresult

end Acl

end RustPbx.Proxy
