import RustPbx.Sipflow.Protocol

/-!
What is stored of a recorded item.

The local backend turns an item into a `ProcessedPacket` directly. The remote backend turns it into
a packet, the packet into bytes, and the receiver turns these into a packet and then into what is
stored.
-/

namespace RustPbx.Sipflow

open Bytes Eff IpAddr Prod Except

def gzipMagic : List UInt8 := [0x1F, 0x8B]

def zstdMagic : List UInt8 := [0x28, 0xB5, 0x2F, 0xFD]

def compressMinSize : Nat := 96

def startsWithName (name : String) (line : List Char) : Bool :=
  name.toList.isPrefixOf (line.map Char.toLower)

def extractCallid (payload : List UInt8) : Option String :=
  (Str.lines (Str.fromUtf8Lossy payload)).findSome? fun line =>
    if startsWithName "call-id:" line then some (.ofList (Str.trimChars (line.drop 8)))
    else if startsWithName "i:" line then some (.ofList (Str.trimChars (line.drop 2)))
    else none

structure ProcessedPacket where
  msgType : MsgType
  callid : Option String
  src : String
  dst : String
  leg : Option Int32
  timestamp : UInt64
  payload : List UInt8
  origSize : Nat
  compSize : Nat

def formatAddr (addr : IpAddr × UInt16) : String :=
  .ofList (addr.1.print ++ ':' :: Nat.toDigits 10 addr.2.toNat)

section

variable (gzip : UInt32 → List UInt8 → Option (List UInt8))

/-- The source compresses from `compressMinSize` on; the threshold is a parameter here. -/
def maybeCompressPayload (minSize : Nat) (payload : List UInt8) (level : UInt32) : List UInt8 :=
  if payload.length < minSize || gzipMagic.isPrefixOf payload || zstdMagic.isPrefixOf payload
  then payload else (gzip (min level 9) payload).getD payload

def storedPayload (compress : Option UInt32) : MsgType → List UInt8 → List UInt8
  | .sip, payload => compress.elim payload (maybeCompressPayload gzip compressMinSize payload)
  | .rtp, payload => payload

def processPacketWithAddr (msgType : MsgType) (srcAddr dstAddr : String) (timestamp : UInt64)
    (callId : Option String) (leg : Option Int32) (payload : List UInt8)
    (compress : Option UInt32) : ProcessedPacket where
  msgType := msgType
  callid := match msgType with
    | .sip => callId.or (extractCallid payload)
    | .rtp => callId
  src := srcAddr
  dst := dstAddr
  leg := leg
  timestamp := timestamp
  payload := storedPayload gzip compress msgType payload
  origSize := payload.length
  compSize := (storedPayload gzip compress msgType payload).length

def processPacketWith (packet : Packet) (compress : Option UInt32) : ProcessedPacket :=
  processPacketWithAddr gzip packet.msgType (formatAddr packet.src) (formatAddr packet.dst)
    packet.timestamp packet.callId packet.leg packet.payload compress

def localAddr (defaultPort : UInt16) (s : String) : String :=
  if isSynth s then .ofList ("0.0.0.0:".toList ++ Nat.toDigits 10 defaultPort.toNat) else s

def localRecord (compress : Option UInt32) (callId : String) (item : SipFlowItem) :
    ProcessedPacket :=
  let msgType := match item.msgType with
    | .sip => MsgType.sip
    | .rtp => MsgType.rtp
  processPacketWithAddr gzip msgType (localAddr item.msgType.defaultPort item.srcAddr)
    (localAddr item.msgType.defaultPort item.dstAddr) item.timestamp
    (if callId = "" then none else some callId)
    (match msgType with
    | .sip => none
    | .rtp => item.leg)
    item.payload compress

def remoteRecord (compress : Option UInt32) (callId : String) (item : SipFlowItem)
    (clientId : UInt32) : Except ParseError ProcessedPacket :=
  (parsePacket (encodePacket (buildPacket callId item clientId))).map fun packet =>
    processPacketWith gzip packet compress

/-- The text that is printed for an IPv4 address and a port. -/
def IsSocketAddrV4 (s : String) : Prop :=
  ∃ a b c d port, s = formatAddr (.v4 a b c d, port)

section

variable (defaultPort : UInt16) (s : String)

theorem parseAddr_v4 : ∃ a b c d, (parseAddr defaultPort s).1 = .v4 a b c d := by
  have hparse {text : List Char} (h : ':' ∉ text) :
      ∃ a b c d, (parse text).getD (.v4 127 0 0 1) = .v4 a b c d := by
    cases hp : parse text with
    | none => exact ⟨_, _, _, _, rfl⟩
    | some ip => exact eq_v4_of_parse h hp
  unfold parseAddr
  split
  next hsplit => exact hparse (Str.splitOnce_not_mem hsplit)
  next hnone => exact hparse (Str.not_mem_of_splitOnce_none hnone)

theorem packetAddr_v4 : ∃ a b c d, (packetAddr defaultPort s).1 = .v4 a b c d := by
  unfold packetAddr
  split
  · exact ⟨_, _, _, _, rfl⟩
  · exact parseAddr_v4 _ _

theorem parseAddr_formatAddr :
    parseAddr defaultPort (formatAddr (.v4 a b c d, port)) = (.v4 a b c d, port) := by
  have hsplit := Str.splitOnce_append (no_colon_in_print_v4 a b c d)
    (Nat.toDigits 10 port.toNat)
  simp only [parseAddr, formatAddr, String.toList_ofList, hsplit, parse_print_v4,
    Str.parseUnsigned_toDigits port.toNat_lt]
  simp

/-- An address keeps its text exactly if it is left out, or is the text of an IPv4 address and a
port. -/
theorem formatAddr_packetAddr_iff :
    formatAddr (packetAddr defaultPort s) = localAddr defaultPort s ↔
      isSynth s = true ∨ IsSocketAddrV4 s := by
  unfold packetAddr localAddr
  split
  next hsynth => exact iff_of_true rfl (.inl hsynth)
  next hreal =>
    constructor
    · intro h
      obtain ⟨a, b, c, d, hip⟩ := parseAddr_v4 defaultPort s
      refine .inr ⟨a, b, c, d, (parseAddr defaultPort s).2, ?_⟩
      rw [← hip, h]
    · rintro (hsynth | ⟨a, b, c, d, port, rfl⟩)
      · exact absurd hsynth hreal
      · rw [parseAddr_formatAddr]

end

theorem take_length (h : (Bytes.take n short).run s = (.ok taken, s')) :
    taken.length = n ∧ s.length = n + s'.length := by
  simp only [Bytes.take] at h
  split at h
  · cases h
  next hlen =>
    obtain ⟨rfl, rfl⟩ : s.take n = taken ∧ s.drop n = s' := by simpa using h
    simp
    omega

theorem tryGetU32_length (h : tryGetU32.run s = (.ok n, s')) : s.length = 4 + s'.length := by
  obtain ⟨_, t, hget, hret⟩ := bind_ok h
  obtain ⟨_, u, htake, hret'⟩ := bind_ok hget
  obtain ⟨-, rfl⟩ := mk.inj hret
  obtain ⟨-, rfl⟩ := mk.inj hret'
  exact (take_length htake).2

theorem utf8_of_fromUtf8 (h : fromUtf8 bytes = .ok s) : utf8 s = bytes := by
  unfold fromUtf8 String.fromUTF8? at h
  split at h
  next hs =>
    split at hs
    · cases h
      obtain rfl := Option.some.inj hs
      simp [utf8, String.fromUTF8]
    · cases hs
  · cases h

theorem length_of_readMetadata (h : (readMetadata.run metadata).1 = .ok (callId, leg)) :
    ∃ id, callId = some id ∧ leg.isSome = true ∧ 8 + (utf8 id).length = metadata.length := by
  rcases hrun : readMetadata.run metadata with ⟨_ | r, rest⟩ <;> rw [hrun] at h
  · cases h
  obtain rfl : r = (callId, leg) := ok.inj h
  obtain ⟨l, s₁, hleg, h⟩ := bind_ok hrun
  obtain ⟨n, s₂, hlen, h⟩ := bind_ok h
  obtain ⟨bytes, s₃, htake, h⟩ := bind_ok h
  obtain ⟨s₄, s₅, hget, h⟩ := bind_ok h
  obtain ⟨_, s₆, hempty, h⟩ := bind_ok h
  obtain ⟨id, s₇, hutf8, h⟩ := bind_ok h
  obtain ⟨⟨rfl, rfl⟩, -⟩ : (some id = callId ∧ some l = leg) ∧ s₇ = rest := by simpa using h
  refine ⟨id, rfl, rfl, ?_⟩
  obtain ⟨u, t, hu32, hret⟩ := bind_ok hleg
  obtain ⟨-, rfl⟩ := mk.inj hret
  obtain ⟨rfl, rfl⟩ : s₃ = s₄ ∧ s₃ = s₅ := by simpa using hget
  have hnil : s₃ = [] := by
    cases s₃ with
    | nil => rfl
    | cons _ _ => simp [require] at hempty
  have hbytes := utf8_of_fromUtf8 (mk.inj hutf8).1
  have h₁ := tryGetU32_length hu32
  have h₂ := tryGetU32_length hlen
  have h₃ := take_length htake
  simp only [hnil, List.length_nil, ← hbytes] at h₃ h₂ h₁
  omega

theorem readCallMetadata_bound (h : readCallMetadata.run s = (.ok (callId, leg), s')) :
    ∀ id, callId = some id → 8 + (utf8 id).length < 2 ^ 32 := by
  obtain ⟨n, t, -, h⟩ := bind_ok h
  split at h
  · obtain ⟨⟨rfl, rfl⟩, -⟩ : (none = callId ∧ none = leg) ∧ t = s' := by simpa using h
    exact nofun
  · obtain ⟨metadata, u, htake, h⟩ := bind_ok h
    obtain ⟨id, rfl, -, hlen⟩ := length_of_readMetadata (mk.inj h).1
    rintro _ ⟨⟩
    rw [hlen, (take_length htake).1]
    exact n.toNat_lt

theorem parsePacket_bound (h : parsePacket data = .ok p) :
    p.payload.length < 2 ^ 32 ∧ ∀ id, p.callId = some id → 8 + (utf8 id).length < 2 ^ 32 := by
  unfold parsePacket at h
  rcases hrun : readPacket.run data with ⟨_ | q, rest⟩ <;> rw [hrun] at h
  · cases h
  obtain rfl : q = p := ok.inj h
  -- the fields before the metadata and the payload
  obtain ⟨_, _, -, h⟩ := bind_ok hrun
  iterate 11 obtain ⟨_, _, -, h⟩ := bind_ok h
  obtain ⟨metadata, _, hmetadata, h⟩ := bind_ok h
  obtain ⟨payload, t, hpayload, h⟩ := bind_ok h
  obtain rfl := ok.inj (mk.inj h).1
  obtain ⟨n, _, -, htake⟩ := bind_ok hpayload
  exact ⟨(take_length htake).1 ▸ n.toNat_lt, readCallMetadata_bound hmetadata⟩

/-! ## Comparing the backends -/

def arrivedPacket (callId : String) (item : SipFlowItem) (clientId : UInt32) : Packet :=
  { buildPacket callId item clientId with
    leg := match item.msgType with
      | .sip => none
      | .rtp => some (item.leg.getD 0) }

theorem encodePacket_arrivedPacket : encodePacket (arrivedPacket callId item clientId) =
      encodePacket (buildPacket callId item clientId) := by
  unfold arrivedPacket buildPacket encodePacket encodeMetadata
  cases item.msgType <;> rfl

theorem arrivedPacket_encodable (hcall : item.msgType = .rtp → 8 + (utf8 callId).length < 2 ^ 32)
    (hpayload : item.payload.length < 2 ^ 32) : (arrivedPacket callId item clientId).Encodable where
  family := by
    obtain ⟨a, b, c, d, hsrc⟩ := packetAddr_v4 item.msgType.defaultPort item.srcAddr
    obtain ⟨a', b', c', d', hdst⟩ := packetAddr_v4 item.msgType.defaultPort item.dstAddr
    simp only [arrivedPacket, buildPacket, hsrc, hdst, ipFamily]
  metadata := by
    cases hm : item.msgType <;> simp [arrivedPacket, buildPacket, hm]
  callId id h := by
    cases hm : item.msgType with
    | sip => simp [arrivedPacket, buildPacket, hm] at h
    | rtp =>
      obtain rfl : callId = id := by simpa [arrivedPacket, buildPacket, hm] using h
      exact hcall hm
  payload := hpayload

theorem parsePacket_buildPacket (hcall : item.msgType = .rtp → 8 + (utf8 callId).length < 2 ^ 32)
    (hpayload : item.payload.length < 2 ^ 32) :
    parsePacket (encodePacket (buildPacket callId item clientId)) =
      .ok (arrivedPacket callId item clientId) := by
  rw [← encodePacket_arrivedPacket]
  exact parsePacket_encodePacket (arrivedPacket_encodable hcall hpayload)

/-- The addresses are left out or IPv4; a SIP item's call id is that of its message, or left to be
taken from there; an RTP item has a call id and a leg; the lengths fit. -/
structure Alike (callId : String) (item : SipFlowItem) : Prop where
  src : isSynth item.srcAddr = true ∨ IsSocketAddrV4 item.srcAddr
  dst : isSynth item.dstAddr = true ∨ IsSocketAddrV4 item.dstAddr
  sip : item.msgType = .sip → callId = "" ∨ extractCallid item.payload = some callId
  rtp : item.msgType = .rtp →
    callId ≠ "" ∧ item.leg.isSome = true ∧ 8 + (utf8 callId).length < 2 ^ 32
  payload : item.payload.length < 2 ^ 32

theorem processPacketWith_arrivedPacket :
    processPacketWith gzip (arrivedPacket callId item clientId) compress =
      localRecord gzip compress callId item ↔
    (isSynth item.srcAddr = true ∨ IsSocketAddrV4 item.srcAddr) ∧
    (isSynth item.dstAddr = true ∨ IsSocketAddrV4 item.dstAddr) ∧
    (item.msgType = .sip → callId = "" ∨ extractCallid item.payload = some callId) ∧
    (item.msgType = .rtp → callId ≠ "" ∧ item.leg.isSome = true) := by
  rw [← formatAddr_packetAddr_iff item.msgType.defaultPort item.srcAddr,
    ← formatAddr_packetAddr_iff item.msgType.defaultPort item.dstAddr]
  simp only [processPacketWith, localRecord, processPacketWithAddr, arrivedPacket, buildPacket,
    ProcessedPacket.mk.injEq]
  cases hm : item.msgType with
  | sip =>
    have hcall : (extractCallid item.payload =
        (if callId = "" then none else some callId).or (extractCallid item.payload)) ↔
          callId = "" ∨ extractCallid item.payload = some callId := by
      split <;> simp_all
    dsimp only
    tauto
  | rtp =>
    have hcall : (some callId = if callId = "" then none else some callId) ↔ callId ≠ "" := by
      split <;> simp_all
    have hleg : some (item.leg.getD 0) = item.leg ↔ item.leg.isSome = true := by
      cases item.leg <;> simp
    simp only [hleg]
    tauto

/-- **The backends compared**: an item is stored by both alike exactly if it is one of the items
above. -/
theorem remoteRecord_eq_localRecord_iff (compress : Option UInt32) (callId : String)
    (item : SipFlowItem) (clientId : UInt32) :
    remoteRecord gzip compress callId item clientId = .ok (localRecord gzip compress callId item) ↔
      Alike callId item := by
  constructor
  · intro h
    rcases hparse : parsePacket (encodePacket (buildPacket callId item clientId)) with e | p <;>
      rw [remoteRecord, hparse] at h
    · cases h
    have hstored : processPacketWith gzip p compress = localRecord gzip compress callId item :=
      ok.inj h
    obtain ⟨hpayload, hcall⟩ := parsePacket_bound hparse
    -- the stored sizes and call ids agree, so the bounds on what was read hold of the item
    have hsize : p.payload.length = item.payload.length :=
      congrArg ProcessedPacket.origSize hstored
    rw [hsize] at hpayload
    have hfits : item.msgType = .rtp → 8 + (utf8 callId).length < 2 ^ 32 := by
      intro hm
      by_cases hempty : callId = ""
      · subst hempty
        decide
      · have hkind : p.msgType = .rtp := by
          simpa [localRecord, hm, processPacketWith, processPacketWithAddr] using
            congrArg ProcessedPacket.msgType hstored
        refine hcall callId ?_
        simpa [localRecord, hm, processPacketWith, processPacketWithAddr, hkind, hempty] using
          congrArg ProcessedPacket.callid hstored
    rw [parsePacket_buildPacket hfits hpayload] at hparse
    obtain rfl : arrivedPacket callId item clientId = p := ok.inj hparse
    obtain ⟨hsrc, hdst, hsip, hrtp⟩ := (processPacketWith_arrivedPacket gzip).mp hstored
    exact ⟨hsrc, hdst, hsip, fun hm => ⟨(hrtp hm).1, (hrtp hm).2, hfits hm⟩, hpayload⟩
  · rintro ⟨hsrc, hdst, hsip, hrtp, hpayload⟩
    rw [remoteRecord, parsePacket_buildPacket (fun hm => (hrtp hm).2.2) hpayload]
    refine congrArg ok ((processPacketWith_arrivedPacket gzip).mpr ?_)
    exact ⟨hsrc, hdst, hsip, fun hm => ⟨(hrtp hm).1, (hrtp hm).2.1⟩⟩

end

def ipv6Item : SipFlowItem where
  timestamp := 1
  seq := 0
  leg := some 0
  msgType := .rtp
  srcAddr := "[2001:db8::1]:4000"
  dstAddr := "10.0.0.2:4002"
  payload := [0x80, 0, 0, 42]

/-- The receiver stores the local host as the source of such an item. -/
theorem remoteRecord_ipv6Item :
    (remoteRecord (fun _ _ => none) none "call" ipv6Item 7).map (·.src) = .ok "127.0.0.1:0" ∧
      (localRecord (fun _ _ => none) none "call" ipv6Item).src = "[2001:db8::1]:4000" := by
  decide

end RustPbx.Sipflow
