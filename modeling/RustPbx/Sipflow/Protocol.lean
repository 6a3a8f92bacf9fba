import RustPbx.Lib.Bytes
import RustPbx.Sipflow.Remote

/-!
The wire format of sipflow packets.

A datagram is a single packet or a batch of packets, told apart by its first two bytes. All numbers
are big-endian; the call id, the payload and, in a batch, each packet follow their own length.
-/

namespace RustPbx.Sipflow

open Bytes UInt16 UInt32 List

def packetMagic : UInt16 := 0x5346

def batchMagic : UInt16 := 0x5347

def batchVersion : UInt8 := 1

def maxBatchCount : Nat := 65535

/-- Why a datagram is not accepted. -/
inductive ParseError where
  /-- A number is cut off: the bytes it takes and those that are left. -/
  | tryGet (requested available : Nat)
  | invalidMagic (magic : UInt16)
  | unsupportedVersion (version : UInt8)
  | invalidMsgType
  | invalidIpFamily
  | metadataLength
  | callIdLength
  | metadataTrailing
  | callIdUtf8
  | payloadLength
  | datagramTooShort
  | invalidDatagramMagic (magic : UInt16)
  | unsupportedBatchVersion (version : UInt8)
  | frameLength (index frameLen remaining : Nat)
  | batchTrailing (remaining count : Nat)
  deriving DecidableEq

abbrev Reader := Eff (List UInt8) ParseError

def tryGet (width : Nat) : Reader Nat :=
  Bytes.get width (.tryGet width)

def tryGetU8 : Reader UInt8 := do
  let n ← tryGet 1
  return .ofNat n

def tryGetU16 : Reader UInt16 := do
  let n ← tryGet 2
  return .ofNat n

def tryGetU32 : Reader UInt32 := do
  let n ← tryGet 4
  return .ofNat n

def tryGetU64 : Reader UInt64 := do
  let n ← tryGet 8
  return .ofNat n

def tryGetI32 : Reader Int32 := do
  let n ← tryGetU32
  return n.toInt32

def utf8 (s : String) : List UInt8 :=
  s.toByteArray.data.toList

def fromUtf8 (bytes : List UInt8) : Except ParseError String :=
  match String.fromUTF8? bytes.toByteArray with
  | some s => .ok s
  | none => .error .callIdUtf8

def ipFamily : IpAddr → UInt8
  | .v4 _ _ _ _ => 4
  | .v6 _ _ _ _ _ _ _ _ => 6

def ipBits : IpAddr → Nat
  | .v4 a b c d => a.toNat * 2 ^ 24 + b.toNat * 2 ^ 16 + c.toNat * 2 ^ 8 + d.toNat
  | .v6 s0 s1 s2 s3 s4 s5 s6 s7 =>
    s0.toNat * 2 ^ 112 + s1.toNat * 2 ^ 96 + s2.toNat * 2 ^ 80 + s3.toNat * 2 ^ 64 +
      s4.toNat * 2 ^ 48 + s5.toNat * 2 ^ 32 + s6.toNat * 2 ^ 16 + s7.toNat

def ipWidth : IpAddr → Nat
  | .v4 _ _ _ _ => 4
  | .v6 _ _ _ _ _ _ _ _ => 16

def ipv4OfBits (n : Nat) : IpAddr :=
  .v4 (.ofNat (n / 2 ^ 24)) (.ofNat (n / 2 ^ 16)) (.ofNat (n / 2 ^ 8)) (.ofNat n)

def ipv6OfBits (n : Nat) : IpAddr :=
  .v6 (.ofNat (n / 2 ^ 112)) (.ofNat (n / 2 ^ 96)) (.ofNat (n / 2 ^ 80)) (.ofNat (n / 2 ^ 64))
    (.ofNat (n / 2 ^ 48)) (.ofNat (n / 2 ^ 32)) (.ofNat (n / 2 ^ 16)) (.ofNat n)

/-! ## Parsing -/

def readMsgType : Reader MsgType := do
  let raw ← tryGetU8
  match raw with
  | 0 => return .sip
  | 1 => return .rtp
  | _ => Eff.fail .invalidMsgType

def readIp (family : UInt8) : Reader IpAddr :=
  match family with
  | 4 => do
    let n ← tryGet 4
    return ipv4OfBits n
  | 6 => do
    let n ← tryGet 16
    return ipv6OfBits n
  | _ => Eff.fail .invalidIpFamily

def readClientId (version : UInt8) : Reader UInt32 :=
  if version = 3 then tryGetU32 else return 0

def readMetadata : Reader (Option String × Option Int32) := do
  let leg ← tryGetI32
  let callIdLen ← tryGetU32
  let callId ← Bytes.take callIdLen.toNat fun _ => .callIdLength
  let rest ← Eff.get
  require rest.isEmpty .metadataTrailing
  let callId ← Eff.ofExcept (fromUtf8 callId)
  return (some callId, some leg)

def readCallMetadata : Reader (Option String × Option Int32) := do
  let metadataLen ← tryGetU32
  if metadataLen = 0 then return (none, none)
  else
    let metadata ← Bytes.take metadataLen.toNat fun _ => .metadataLength
    Eff.ofExcept (readMetadata.run metadata).1

def readPayload : Reader (List UInt8) := do
  let payloadLen ← tryGetU32
  Bytes.take payloadLen.toNat fun _ => .payloadLength

def readPacket : Reader Packet := do
  let magic ← tryGetU16
  require (magic = packetMagic) (.invalidMagic magic)
  let version ← tryGetU8
  require (version = 2 ∨ version = 3) (.unsupportedVersion version)
  let msgType ← readMsgType
  let family ← tryGetU8
  let srcIp ← readIp family
  let srcPort ← tryGetU16
  let dstIp ← readIp family
  let dstPort ← tryGetU16
  let timestamp ← tryGetU64
  let clientId ← readClientId version
  let metadata ← readCallMetadata
  let payload ← readPayload
  return { msgType, src := (srcIp, srcPort), dst := (dstIp, dstPort), timestamp, clientId, payload
           callId := metadata.1, leg := metadata.2 }

def parsePacket (data : List UInt8) : Except ParseError Packet :=
  (readPacket.run data).1

def readFrames (index : Nat) : (count : Nat) → Reader (List Packet)
  | 0 => return []
  | count + 1 => do
    let frameLen ← tryGetU32
    let frame ← Bytes.take frameLen.toNat (.frameLength index frameLen.toNat)
    let packet ← Eff.ofExcept (parsePacket frame)
    let packets ← readFrames (index + 1) count
    return packet :: packets

def readBatch : Reader (List Packet) := do
  let _ ← tryGetU16
  let version ← tryGetU8
  require (version = batchVersion) (.unsupportedBatchVersion version)
  let count ← tryGetU16
  let packets ← readFrames 0 count.toNat
  let rest ← Eff.get
  require rest.isEmpty (.batchTrailing rest.length count.toNat)
  return packets

def parseBatch (data : List UInt8) : Except ParseError (List Packet) :=
  (readBatch.run data).1

def parseDatagram (data : List UInt8) : Except ParseError (List Packet) :=
  match data with
  | b0 :: b1 :: _ =>
    let magic := UInt16.ofNat (value [b0, b1])
    if magic = packetMagic then (parsePacket data).map ([·])
    else if magic = batchMagic then parseBatch data
    else .error (.invalidDatagramMagic magic)
  | _ => .error .datagramTooShort

def withLength (bytes : List UInt8) : List UInt8 :=
  put 4 bytes.length ++ bytes

def msgTypeByte : MsgType → Nat
  | .sip => 0
  | .rtp => 1

def encodeAddr (addr : IpAddr × UInt16) : List UInt8 :=
  put (ipWidth addr.1) (ipBits addr.1) ++ put 2 addr.2.toNat

def encodeMetadata (callId : Option String) (leg : Option Int32) : List UInt8 :=
  if callId.isSome || leg.isSome then
    withLength (put 4 (leg.getD 0).toUInt32.toNat ++ withLength (utf8 (callId.getD "")))
  else put 4 0

def encodePacket (p : Packet) : List UInt8 :=
  put 2 packetMagic.toNat ++ (put 1 3 ++ (put 1 (msgTypeByte p.msgType) ++
    (put 1 (ipFamily p.src.1).toNat ++ (encodeAddr p.src ++ (encodeAddr p.dst ++
    (put 8 p.timestamp.toNat ++ (put 4 p.clientId.toNat ++ (encodeMetadata p.callId p.leg ++
    withLength p.payload))))))))

def encodeBatch (packets : List Packet) : Except Nat (List UInt8) :=
  if maxBatchCount < packets.length then .error packets.length
  else .ok (put 2 batchMagic.toNat ++ (put 1 batchVersion.toNat ++ (put 2 packets.length ++
    packets.flatMap fun p => withLength (encodePacket p))))

theorem tryGet_reads (h : n < 256 ^ width) : Reads (tryGet width) n (put width n) :=
  .get _ h

theorem tryGetU8_reads (n : UInt8) : Reads tryGetU8 n (put 1 n.toNat) := by
  have h := (tryGet_reads (show n.toNat < 256 ^ 1 from n.toNat_lt)).map UInt8.ofNat
  rwa [UInt8.ofNat_toNat] at h

theorem tryGetU16_reads (n : UInt16) : Reads tryGetU16 n (put 2 n.toNat) := by
  have h := (tryGet_reads (show n.toNat < 256 ^ 2 from n.toNat_lt)).map UInt16.ofNat
  rwa [UInt16.ofNat_toNat] at h

theorem tryGetU32_reads (n : UInt32) : Reads tryGetU32 n (put 4 n.toNat) := by
  have h := (tryGet_reads (show n.toNat < 256 ^ 4 from n.toNat_lt)).map UInt32.ofNat
  rwa [UInt32.ofNat_toNat] at h

theorem tryGetU64_reads (n : UInt64) : Reads tryGetU64 n (put 8 n.toNat) := by
  have h := (tryGet_reads (show n.toNat < 256 ^ 8 from n.toNat_lt)).map UInt64.ofNat
  rwa [UInt64.ofNat_toNat] at h

theorem tryGetI32_reads (n : Int32) : Reads tryGetI32 n (put 4 n.toUInt32.toNat) := by
  have h := (tryGetU32_reads n.toUInt32).map toInt32
  rwa [Int32.toInt32_toUInt32] at h

theorem fromUtf8_utf8 (s : String) : fromUtf8 (utf8 s) = .ok s := by
  have hbytes : (utf8 s).toByteArray = s.toByteArray := by
    apply ByteArray.ext
    simp [utf8]
  simp only [fromUtf8, hbytes, String.fromUTF8?]
  rw [dif_pos s.isValidUTF8]
  rfl

variable {bytes : List UInt8}

theorem length_reads (h : bytes.length < 2 ^ 32) :
    Reads tryGetU32 (UInt32.ofNat bytes.length) (put 4 bytes.length) := by
  have hget := tryGetU32_reads (ofNat bytes.length)
  rwa [toNat_ofNat_of_lt' h] at hget

theorem withLength_run (short : UInt32 → Nat → ParseError) {f : List UInt8 → Reader α}
    (h : bytes.length < 2 ^ 32) (rest : List UInt8) :
    (do
      let n ← tryGetU32
      let taken ← Bytes.take n.toNat (short n)
      f taken : Reader α).run (withLength bytes ++ rest) = (f bytes).run rest := by
  rw [withLength, append_assoc, (length_reads h).run_bind, toNat_ofNat_of_lt' h,
    (Reads.take bytes _).run_bind]

theorem readMetadata_run (h : (utf8 callId).length < 2 ^ 32) :
    readMetadata.run (put 4 leg.toUInt32.toNat ++ withLength (utf8 callId)) =
      (.ok (some callId, some leg), []) := by
  have hlen := withLength_run (fun _ _ => ParseError.callIdLength) (f := fun callId => do
    let rest ← Eff.get
    require rest.isEmpty .metadataTrailing
    let callId ← Eff.ofExcept (fromUtf8 callId)
    return (some callId, some leg)) h []
  rw [append_nil] at hlen
  rw [readMetadata, (tryGetI32_reads leg).run_bind, hlen]
  simp [require, fromUtf8_utf8]

/-! ## Packets -/

/-- Source and destination are of one family, call id and leg come together, and the fields of
variable length fit their lengths. -/
structure Packet.Encodable (p : Packet) : Prop where
  family : ipFamily p.src.1 = ipFamily p.dst.1
  metadata : p.callId.isSome = p.leg.isSome
  callId : ∀ callId, p.callId = some callId → 8 + (utf8 callId).length < 2 ^ 32
  payload : p.payload.length < 2 ^ 32

theorem readMsgType_reads (msgType : MsgType) :
    Reads readMsgType msgType (put 1 (msgTypeByte msgType)) := by
  cases msgType with
  | sip | rtp => exact fun _ => rfl

theorem ipBits_lt (ip : IpAddr) : ipBits ip < 256 ^ ipWidth ip := by
  cases ip with
  | v4 a b c d =>
    have := a.toNat_lt; have := b.toNat_lt; have := c.toNat_lt; have := d.toNat_lt
    simp only [ipBits, ipWidth]
    omega
  | v6 s0 s1 s2 s3 s4 s5 s6 s7 =>
    have := s0.toNat_lt; have := s1.toNat_lt; have := s2.toNat_lt; have := s3.toNat_lt
    have := s4.toNat_lt; have := s5.toNat_lt; have := s6.toNat_lt; have := s7.toNat_lt
    simp only [ipBits, ipWidth]
    omega

theorem ipv4OfBits_ipBits (a b c d : UInt8) : ipv4OfBits (ipBits (.v4 a b c d)) = .v4 a b c d := by
  have := a.toNat_lt; have := b.toNat_lt; have := c.toNat_lt; have := d.toNat_lt
  simp only [ipv4OfBits, ipBits, IpAddr.v4.injEq, ← UInt8.toNat_inj, UInt8.toNat_ofNat']
  omega

theorem ipv6OfBits_ipBits (s0 s1 s2 s3 s4 s5 s6 s7 : UInt16) :
    ipv6OfBits (ipBits (.v6 s0 s1 s2 s3 s4 s5 s6 s7)) = .v6 s0 s1 s2 s3 s4 s5 s6 s7 := by
  have := s0.toNat_lt; have := s1.toNat_lt; have := s2.toNat_lt; have := s3.toNat_lt
  have := s4.toNat_lt; have := s5.toNat_lt; have := s6.toNat_lt; have := s7.toNat_lt
  simp only [ipv6OfBits, ipBits, IpAddr.v6.injEq, ← UInt16.toNat_inj, UInt16.toNat_ofNat']
  omega

theorem readIp_reads : Reads (readIp (ipFamily ip)) ip (put (ipWidth ip) (ipBits ip)) := by
  have hget := tryGet_reads (ipBits_lt ip)
  cases ip with
  | v4 a b c d =>
    have h := hget.map ipv4OfBits
    rwa [ipv4OfBits_ipBits] at h
  | v6 s0 s1 s2 s3 s4 s5 s6 s7 =>
    have h := hget.map ipv6OfBits
    rwa [ipv6OfBits_ipBits] at h

theorem readCallMetadata_reads (hboth : callId.isSome = leg.isSome)
    (hfits : ∀ id, callId = some id → 8 + (utf8 id).length < 2 ^ 32) :
    Reads readCallMetadata (callId, leg) (encodeMetadata callId leg) := by
  cases callId with
  | none =>
    obtain rfl : leg = none := by simpa using hboth
    exact fun _ => rfl
  | some id =>
    obtain ⟨l, rfl⟩ : ∃ l, leg = some l := Option.isSome_iff_exists.mp hboth.symm
    let metadata := put 4 l.toUInt32.toNat ++ withLength (utf8 id)
    have hsize : metadata.length = 8 + (utf8 id).length := by
      simp [metadata, withLength]
      omega
    have hlt := hsize ▸ hfits id rfl
    have hne : UInt32.ofNat metadata.length ≠ 0 := by
      intro h
      have hzero := congrArg UInt32.toNat h
      rw [UInt32.toNat_ofNat_of_lt' hlt, UInt32.toNat_zero] at hzero
      omega
    have henc : encodeMetadata (some id) (some l) = put 4 metadata.length ++ metadata := rfl
    rw [henc]
    refine (length_reads hlt).bind ?_
    rw [if_neg hne, toNat_ofNat_of_lt' hlt]
    intro rest
    rw [(Reads.take metadata _).run_bind, readMetadata_run (by have := hfits id rfl; omega)]
    rfl

theorem readPayload_reads (h : payload.length < 2 ^ 32) :
    Reads readPayload payload (withLength payload) := by
  refine (length_reads h).bind ?_
  rw [toNat_ofNat_of_lt' h]
  exact Reads.take payload _

theorem encodeAddr_reads {f : IpAddr → UInt16 → Reader α} (hfamily : family = ipFamily addr.1)
    (hf : Reads (f addr.1 addr.2) a bytes) :
    Reads (do
      let ip ← readIp family
      let port ← tryGetU16
      f ip port) a (encodeAddr addr ++ bytes) := by
  subst hfamily
  rw [encodeAddr, append_assoc]
  exact readIp_reads.bind ((tryGetU16_reads addr.2).bind hf)

theorem readPacket_reads (hp : p.Encodable) : Reads readPacket p (encodePacket p) := by
  refine (tryGetU16_reads packetMagic).bind (.bind_nil (.require (by simp)) ?_)
  refine (tryGetU8_reads 3).bind (.bind_nil (.require (by simp)) ?_)
  refine (readMsgType_reads p.msgType).bind ((tryGetU8_reads (ipFamily p.src.1)).bind ?_)
  refine encodeAddr_reads rfl (encodeAddr_reads hp.family ?_)
  refine (tryGetU64_reads p.timestamp).bind ((tryGetU32_reads p.clientId).bind ?_)
  refine (readCallMetadata_reads hp.metadata hp.callId).bind ?_
  exact (readPayload_reads hp.payload).map _

theorem tryGet_local : Local (tryGet width) :=
  .get _ _

theorem readMsgType_local : Local readMsgType := by
  refine .bind (.bind tryGet_local fun _ => .pure _) fun raw => ?_
  split
  · exact .pure _
  · exact .pure _
  · exact .fail _

theorem readIp_local : Local (readIp family) := by
  unfold readIp
  split
  · exact .bind tryGet_local fun _ => .pure _
  · exact .bind tryGet_local fun _ => .pure _
  · exact .fail _

theorem tryGetU16_local : Local tryGetU16 :=
  .bind tryGet_local fun _ => .pure _

theorem tryGetU32_local : Local tryGetU32 :=
  .bind tryGet_local fun _ => .pure _

theorem readClientId_local : Local (readClientId version) := by
  unfold readClientId
  split
  · exact tryGetU32_local
  · exact .pure _

theorem readCallMetadata_local : Local readCallMetadata := by
  refine .bind tryGetU32_local fun n => ?_
  split
  · exact .pure _
  · exact .bind (.take _ _) fun _ => .ofExcept _

theorem readPacket_local : Local readPacket := by
  refine .bind tryGetU16_local fun _ => .bind (.require _ _) fun _ => ?_
  refine .bind (.bind tryGet_local fun _ => .pure _) fun version => ?_
  refine .bind (.require _ _) fun _ => .bind readMsgType_local fun _ => ?_
  refine .bind (.bind tryGet_local fun _ => .pure _) fun family => ?_
  refine .bind readIp_local fun _ => .bind tryGetU16_local fun _ => ?_
  refine .bind readIp_local fun _ => .bind tryGetU16_local fun _ => ?_
  refine .bind (.bind tryGet_local fun _ => .pure _) fun _ => ?_
  refine .bind readClientId_local fun _ => .bind readCallMetadata_local fun _ => ?_
  exact .bind (.bind tryGetU32_local fun _ => .take _ _) fun _ => .pure _

theorem parsePacket_encodePacket (hp : p.Encodable) : parsePacket (encodePacket p) = .ok p := by
  have h := readPacket_reads hp []
  rw [append_nil] at h
  rw [parsePacket, h]

theorem parsePacket_fails_on_front (hp : p.Encodable) (h : encodePacket p = front ++ back)
    (hback : back ≠ []) : ∃ e, parsePacket front = .error e :=
  (readPacket_reads hp).fails_on_front readPacket_local h hback

theorem readFrames_reads (index : Nat)
    (h : ∀ p ∈ packets, p.Encodable ∧ (encodePacket p).length < 2 ^ 32) :
    Reads (readFrames index packets.length) packets
      (packets.flatMap fun p => withLength (encodePacket p)) := by
  induction packets generalizing index with
  | nil => exact .pure _
  | cons p packets ih =>
    obtain ⟨hp, hlen⟩ := h p (by simp)
    have htail := ih (index + 1) fun q hq => h q (by simp [hq])
    intro rest
    rw [flatMap_cons, append_assoc, length_cons, readFrames]
    rw [withLength_run (fun n => .frameLength index n.toNat) hlen, parsePacket_encodePacket hp]
    exact (htail.map fun packets => p :: packets) rest

theorem parseDatagram_batch (rest : List UInt8) : parseDatagram (put 2 batchMagic.toNat ++ rest) =
      parseBatch (put 2 batchMagic.toNat ++ rest) := rfl

theorem parseDatagram_encodeBatch (hcount : packets.length ≤ maxBatchCount)
    (h : ∀ p ∈ packets, p.Encodable ∧ (encodePacket p).length < 2 ^ 32) :
    ∃ bytes, encodeBatch packets = .ok bytes ∧ parseDatagram bytes = .ok packets := by
  refine ⟨_, if_neg (Nat.not_lt.mpr hcount), ?_⟩
  have hlen := toNat_ofNat_of_lt' (Nat.lt_succ_of_le hcount)
  have hget := tryGetU16_reads (ofNat packets.length)
  have hframes := readFrames_reads 0 h
  rw [← append_nil (packets.flatMap _)]
  rw [hlen] at hget
  rw [parseDatagram_batch, parseBatch, readBatch, (tryGetU16_reads batchMagic).run_bind,
    (tryGetU8_reads batchVersion).run_bind]
  simp only [require, decide_true, if_true, Eff.run_bind, Eff.run_pure, Eff.andThen_ok]
  rw [hget, Eff.andThen_ok, hlen, hframes.run_bind]
  simp

/-- **The wire format**: a batch of at most 65535 encodable packets is read back, so is a single
packet, and no proper initial part of an encoded packet is accepted. -/
theorem wire_format : (∀ packets : List Packet, packets.length ≤ maxBatchCount →
      (∀ p ∈ packets, p.Encodable ∧ (encodePacket p).length < 2 ^ 32) →
      ∃ bytes, encodeBatch packets = .ok bytes ∧ parseDatagram bytes = .ok packets) ∧
    ∀ p : Packet, p.Encodable → parsePacket (encodePacket p) = .ok p ∧
      ∀ front back, encodePacket p = front ++ back → back ≠ [] →
        ∃ e, parsePacket front = .error e :=
  ⟨fun _ hcount h => parseDatagram_encodeBatch hcount h, fun _ hp =>
    ⟨parsePacket_encodePacket hp, fun _ _ h hback => parsePacket_fails_on_front hp h hback⟩⟩

def mediaPacket : Packet where
  msgType := .rtp
  src := (.v4 10 0 0 1, 4000)
  dst := (.v4 10 0 0 2, 4002)
  timestamp := 123
  callId := some "call-123"
  leg := some (-1)
  payload := [0x80, 0, 0, 42]
  clientId := 7

theorem mediaPacket_encodable : mediaPacket.Encodable where
  family := rfl
  metadata := rfl
  callId id h := by
    obtain rfl : "call-123" = id := Option.some.inj h
    decide
  payload := by decide

theorem wire_format_mediaPacket : (∃ bytes, encodeBatch [mediaPacket, mediaPacket] = .ok bytes ∧
      parseDatagram bytes = .ok [mediaPacket, mediaPacket]) ∧
    parsePacket (encodePacket mediaPacket) = .ok mediaPacket ∧
    ∃ e, parsePacket (encodePacket mediaPacket).dropLast = .error e := by
  refine ⟨wire_format.1 _ (by decide) ?_, ?_, ?_⟩
  · intro p hp
    obtain rfl : p = mediaPacket := by simpa using hp
    exact ⟨mediaPacket_encodable, by decide⟩
  · exact (wire_format.2 mediaPacket mediaPacket_encodable).1
  · exact (wire_format.2 mediaPacket mediaPacket_encodable).2 _ [42] (by decide) (by decide)

end RustPbx.Sipflow
