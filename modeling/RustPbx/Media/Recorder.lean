import Mathlib.Algebra.Ring.Nat
import RustPbx.Lib.Blocks
import RustPbx.Lib.Vec

/-!
The recorder of a call between two parties, with PCMU as the codec of its file.

The first frame of a leg is placed by the clock at which it was captured, the next ones by their RTP
timestamps, and none before the end of what the leg already has. The legs are flushed together, and
the file gets the two stretches interleaved, with silence where a leg has no frame. What the codec
library and the tone generator compute is left open (`AudioLib`), and so is the moment at which a
write also flushes.
-/

namespace RustPbx.Media

inductive CodecType where
  | pcmu
  | pcma
  | g722
  | g729
  | opus
  | telephoneEvent
  deriving DecidableEq

/-- The codec of a payload type, the PCMU codec, which works sample by sample, and the tones of the
digits. -/
structure AudioLib where
  codecOf : UInt8 → Option CodecType
  encodeSample : Int16 → UInt8
  decodeSample : UInt8 → Int16
  tone : Char → Nat → Int16

inductive LegSide where
  | a
  | b
  deriving DecidableEq

structure NegotiatedCodec where
  codec : CodecType
  payloadType : UInt8
  clockRate : Nat

structure NegotiatedLegProfile where
  audio : Option NegotiatedCodec
  dtmf : Option NegotiatedCodec

namespace Recorder

/-- A frame with its data, and the payload of the RTP packet if it came in one. -/
structure AudioFrame where
  rtpTimestamp : UInt32
  clockRate : Nat
  data : List UInt8
  payloadType : Option UInt8
  rawPacket : Option (List UInt8)

def AudioFrame.payload (frame : AudioFrame) : List UInt8 :=
  frame.rawPacket.getD frame.data

def sampleRate : Nat := 8000

def captureDriftToleranceMs : Nat := 100

def u32 (n : Nat) : Nat := n % 2 ^ 32

def saturatingAdd (a b : Nat) : Nat := min (a + b) (2 ^ 32 - 1)

structure DtmfEventState where
  digitCode : UInt8
  rtpTimestamp : UInt32
  absoluteTimestamp : Nat
  durationSamples : Nat

structure CaptureClock where
  originMicros : Nat
  offsetSamples : Nat
  latestSamples : Nat

structure LegTrack where
  buffer : List (Nat × List UInt8)
  started : Bool
  /-- An RTP timestamp, the position it has, and the clock rate. -/
  rtpAnchor : Option (UInt32 × Nat × Nat)
  dtmfState : Option DtmfEventState

end Recorder

structure Recorder where
  legs : LegSide → Recorder.LegTrack
  captureClock : Option Recorder.CaptureClock
  nextFlushTs : Nat
  writtenSamples : Nat
  profile : NegotiatedLegProfile
  channels : Nat
  stereoSwap : Bool
  monoCallerOnly : Bool
  file : List UInt8
  dataSize : UInt32

namespace Recorder

def new (profile : NegotiatedLegProfile) (channels : Nat) (stereoSwap monoCallerOnly : Bool) :
    Recorder where
  legs _ := ⟨[], false, none, none⟩
  captureClock := none
  nextFlushTs := 0
  writtenSamples := 0
  profile
  channels
  stereoSwap
  monoCallerOnly
  file := []
  dataSize := 0

section

variable (r : Recorder)

def modify (leg : LegSide) (f : LegTrack → LegTrack) : Recorder :=
  { r with legs := fun l => if l = leg then f (r.legs l) else r.legs l }

def resumeCaptureClock : Recorder :=
  { r with
    captureClock := none
    legs := fun l => { r.legs l with rtpAnchor := none } }

def blockEnd (block : Nat × List UInt8) : Nat :=
  u32 (block.1 + u32 block.2.length)

def legEndTs (leg : LegSide) : Nat :=
  max (((r.legs leg).buffer.getLast?.map blockEnd).getD r.nextFlushTs) r.nextFlushTs

def recordingPosition (leg : LegSide) (captureTs : Option Nat) : Nat :=
  match captureTs with
  | none => r.legEndTs leg
  | some captureTs =>
    let tolerance := sampleRate * captureDriftToleranceMs / 1000
    let target := if (r.legs leg).started then captureTs - tolerance else captureTs
    max (r.legEndTs leg) target

def setRtpAnchor (leg : LegSide) (rtpTimestamp : UInt32) (pos rtpClockRate : Nat) : Recorder :=
  r.modify leg ({ · with rtpAnchor := some (rtpTimestamp, pos, rtpClockRate) })

def rtpAnchoredPosition (leg : LegSide) (rtpTimestamp : UInt32) (rtpClockRate : Nat)
    (captureTs : Option Nat) : Nat × Recorder :=
  match (r.legs leg).rtpAnchor.filter (·.2.2 == rtpClockRate) with
  | none =>
    let pos := r.recordingPosition leg captureTs
    (pos, r.setRtpAnchor leg rtpTimestamp pos rtpClockRate)
  | some (anchorTs, anchorPos, _) =>
    let delta := min ((rtpTimestamp - anchorTs).toNat * sampleRate / rtpClockRate) (2 ^ 32 - 1)
    if delta > sampleRate * 600 then
      let pos := r.legEndTs leg
      (pos, r.setRtpAnchor leg rtpTimestamp pos rtpClockRate)
    else (max (r.legEndTs leg) (u32 (anchorPos + delta)), r)

/-- The position of a capture time. The clock starts at the end of what was recorded. -/
def captureTimestamp (receivedAtMicros : Nat) : Option Nat × Recorder :=
  if receivedAtMicros = 0 then (none, r)
  else
    let recorded := max (r.legEndTs .a) (r.legEndTs .b)
    let clock := r.captureClock.getD ⟨receivedAtMicros, recorded, recorded⟩
    let timestamp := saturatingAdd clock.offsetSamples
      (min ((receivedAtMicros - clock.originMicros) * sampleRate / 1000000) (2 ^ 32 - 1))
    (some timestamp, { r with
      captureClock := some { clock with latestSamples := max clock.latestSamples timestamp } })

def trimFront (data : List UInt8) (dropSamples : Nat) : Option (Nat × List UInt8) :=
  if data.length ≤ dropSamples then none else some (dropSamples, data.drop dropSamples)

def trimBack (data : List UInt8) (keepSamples : Nat) : Option (List UInt8) :=
  if keepSamples = 0 then none else some (data.take (min keepSamples data.length))

def outside (startTs endTs : Nat) (block : Nat × List UInt8) : List (Nat × List UInt8) :=
  let (ts, data) := block
  let after := saturatingAdd ts (u32 data.length)
  if after ≤ startTs ∨ endTs ≤ ts then [block]
  else
    (if ts < startTs then ((trimBack data (startTs - ts)).map (ts, ·)).toList else []) ++
    (if endTs < after then
      ((trimFront data (endTs - ts)).map fun r => (saturatingAdd ts r.1, r.2)).toList
    else [])

def insertAll (blocks buffer : List (Nat × List UInt8)) : List (Nat × List UInt8) :=
  blocks.foldl (fun buffer block => Blocks.insert block.1 block.2 buffer) buffer

/-- The digit that a leg has sent last is not overwritten. -/
def insertAudioBlock (leg : LegSide) (startTs : Nat) (encoded : List UInt8) : Recorder :=
  r.modify leg fun track =>
    let inserts := match track.dtmfState with
      | some state => outside state.absoluteTimestamp
          (saturatingAdd state.absoluteTimestamp state.durationSamples) (startTs, encoded)
      | none => [(startTs, encoded)]
    { track with started := true, buffer := insertAll inserts track.buffer }

def overlayDtmfRange (buffer : List (Nat × List UInt8)) (startTs endTs : Nat)
    (encoded : List UInt8) : List (Nat × List UInt8) :=
  let overlappingKeys := (buffer.filter (·.1 < endTs)).map Prod.fst
  let buffer := overlappingKeys.foldl (fun buffer key =>
    match buffer.find? (·.1 == key) with
    | some block => insertAll (outside startTs endTs block) (buffer.filter (·.1 ≠ key))
    | none => buffer) buffer
  Blocks.insert startTs encoded buffer

def silence (lib : AudioLib) (samples : Nat) : List UInt8 :=
  List.replicate (min samples (sampleRate * 10)) (lib.encodeSample 0)

def getLegData (lib : AudioLib) (flushTo : Nat) :
    Nat → List (Nat × List UInt8) → List UInt8 × List (Nat × List UInt8)
  | currentTs, [] => (silence lib (flushTo - currentTs), [])
  | currentTs, (ts, data) :: rest =>
    if currentTs < flushTo ∧ ts < flushTo then
      let gap := silence lib (ts - currentTs)
      let currentTs := max currentTs ts
      if flushTo < u32 (currentTs + u32 data.length) then
        let keep := flushTo - currentTs
        if 0 < keep then
          let restBytes := data.drop keep
          (gap ++ data.take keep,
            if restBytes.isEmpty then rest
            else Blocks.insert (u32 (currentTs + keep)) restBytes rest)
        else (gap ++ silence lib (flushTo - currentTs), Blocks.insert ts data rest)
      else
        let (result, buffer) := getLegData lib flushTo (u32 (currentTs + u32 data.length)) rest
        (gap ++ data ++ result, buffer)
    else (silence lib (flushTo - currentTs), (ts, data) :: rest)

def mix (lib : AudioLib) (dataA dataB : List UInt8) : List UInt8 :=
  List.zipWith (fun a b => lib.encodeSample (Int16.ofInt
    (((lib.decodeSample a).toInt + (lib.decodeSample b).toInt).tdiv 2))) dataA dataB

def assembleOutput (lib : AudioLib) (r : Recorder) (dataA dataB : List UInt8) : List UInt8 :=
  if r.channels = 1 then
    if r.monoCallerOnly then dataA else mix lib dataA dataB
  else if r.stereoSwap then Vec.interleave dataB dataA
  else Vec.interleave dataA dataB

def legMaxTs (leg : LegSide) : Nat :=
  ((r.legs leg).buffer.getLast?.map blockEnd).getD 0

def flushTarget (finalFlush : Bool) : Option Nat :=
  let maxTs := max (r.legMaxTs .a) (r.legMaxTs .b)
  if finalFlush then some maxTs
  else if !(r.legs .a).started || !(r.legs .b).started then
    some ((r.captureClock.map fun clock => min maxTs clock.latestSamples).getD maxTs)
  else if r.legMaxTs .a > r.nextFlushTs ∧ r.legMaxTs .b > r.nextFlushTs then
    some (min (r.legMaxTs .a) (r.legMaxTs .b))
  else if maxTs - r.nextFlushTs > sampleRate * 2 then some maxTs
  else none

end

def writeOut (lib : AudioLib) (r : Recorder) (flushLen : Nat) : Recorder :=
  let flushTo := u32 (r.nextFlushTs + flushLen)
  let data := fun leg => getLegData lib flushTo r.nextFlushTs (r.legs leg).buffer
  let output := assembleOutput lib r (data .a).1 (data .b).1
  { r with
    legs := fun leg => { r.legs leg with buffer := (data leg).2 }
    nextFlushTs := u32 (r.nextFlushTs + flushLen)
    file := r.file ++ output
    dataSize := r.dataSize + .ofNat output.length
    writtenSamples := r.writtenSamples + flushLen }

def flush (lib : AudioLib) (r : Recorder) (finalFlush : Bool) : Recorder :=
  match r.flushTarget finalFlush with
  | none => r
  | some target =>
    if target ≤ r.nextFlushTs then r
    else r.writeOut lib (min (target - r.nextFlushTs) (sampleRate * 10))

def finalize (lib : AudioLib) : Nat → Recorder → Option Recorder
  | 0, _ => none
  | fuel + 1, r =>
    let r' := r.flush lib true
    if r'.nextFlushTs = r.nextFlushTs then some r' else finalize lib fuel r'

/-! ## Writing -/

def dtmfCodeToChar (code : UInt8) : Option Char :=
  if code ≤ 9 then some (Char.ofNat ('0'.toNat + code.toNat))
  else if code = 10 then some '*'
  else if code = 11 then some '#'
  else if code ≤ 15 then some (Char.ofNat ('A'.toNat + (code.toNat - 12)))
  else none

/-- A packet of a telephone event, of which only what it adds to the event is written. -/
def writeDtmfPayloadAt (lib : AudioLib) (r : Recorder) (leg : LegSide) (payload : List UInt8)
    (rtpTimestamp : UInt32) (clockRate : Nat) (captureTs : Option Nat) : Recorder :=
  match payload with
  | digitCode :: flags :: high :: low :: _ =>
    match dtmfCodeToChar digitCode with
    | none => r
    | some digit =>
      let duration := high.toNat * 256 + low.toNat
      let durationSamples := u32 ((duration * sampleRate + max clockRate 1 - 1) / max clockRate 1)
      let existingState := (r.legs leg).dtmfState.filter fun state =>
        state.digitCode == digitCode && state.rtpTimestamp == rtpTimestamp
      if existingState.any (durationSamples ≤ ·.durationSamples) then r
      else
        let (absoluteTs, previousSamples) :=
          (existingState.map fun state => (state.absoluteTimestamp, state.durationSamples)).getD
            (r.recordingPosition leg captureTs, 0)
        let pcm := ((List.range durationSamples).map (lib.tone digit)).drop previousSamples
        let r := r.modify leg fun track => { track with
          started := true
          buffer := overlayDtmfRange track.buffer (saturatingAdd absoluteTs previousSamples)
            (saturatingAdd absoluteTs durationSamples) (pcm.map lib.encodeSample)
          dtmfState := some ⟨digitCode, rtpTimestamp, absoluteTs, durationSamples⟩ }
        if flags &&& 0x80 ≠ 0 then r.flush lib false else r
  | _ => r

/-- The length of the headers of redundant audio, and of the payloads before the newest one. -/
def redHeader : List UInt8 → Option (Nat × Nat)
  | [] => none
  | header :: rest =>
    if header &&& 0x80 ≠ 0 then
      match rest with
      | _ :: high :: low :: rest =>
        (redHeader rest).map fun (headers, redundant) =>
          (4 + headers, (high &&& 0x03).toNat * 256 + low.toNat + redundant)
      | _ => none
    else some (1, 0)

def redPrimary (audioPayloadType : Option UInt8) (encoded : List UInt8) : Option (List UInt8) :=
  match encoded with
  | first :: _ :: _ =>
    if some (first &&& 0x7f) = audioPayloadType then
      (redHeader encoded).bind fun (headers, redundant) =>
        if headers + redundant < encoded.length then some (encoded.drop (headers + redundant))
        else none
    else none
  | _ => none

/-- A call of `write`: `transcode` is what the library makes of another codec, `flushes` whether the
last flush is long enough ago. -/
structure Sample where
  leg : LegSide
  frame : AudioFrame
  dtmfPt : Option UInt8
  dtmfClockRate : Option Nat
  codecHint : Option CodecType
  profile : Option NegotiatedLegProfile
  receivedAtMicros : Nat
  transcode : CodecType → List UInt8 → List UInt8
  flushes : Bool

namespace Sample

variable (sample : Sample) (r : Recorder)

def legProfile : NegotiatedLegProfile :=
  sample.profile.getD r.profile

def dtmfPayloadType : Option UInt8 :=
  sample.dtmfPt.or ((sample.legProfile r).dtmf.map (·.payloadType))

def audioPayloadType : Option UInt8 :=
  (sample.legProfile r).audio.map (·.payloadType)

def hasDtmfPayloadType : Bool :=
  sample.frame.payloadType.isSome && sample.frame.payloadType == sample.dtmfPayloadType r

/-- A frame is taken for a packet of a telephone event because of its length and its first byte. -/
def looksLikeDtmf : Bool :=
  (sample.dtmfPayloadType r).isSome && sample.frame.data.length == 4 &&
    sample.frame.data.head?.any fun code => (dtmfCodeToChar code).isSome

/-- The codec that the caller gives, or the negotiated one if the frame has its payload type. -/
def hint : Option CodecType :=
  sample.codecHint.or <|
    if sample.frame.payloadType.isSome && sample.frame.payloadType == sample.audioPayloadType r then
      (sample.legProfile r).audio.map (·.codec)
    else none

/-- The codec and the payload of the frame, or of what it carries if it looks like RED. -/
def encoded : Option CodecType × List UInt8 :=
  match sample.hint r with
  | some codec => (some codec, sample.frame.payload)
  | none =>
    match redPrimary (sample.audioPayloadType r) sample.frame.payload with
    | some primary => ((sample.legProfile r).audio.map (·.codec), primary)
    | none => (none, sample.frame.payload)

def rtpClockRate (decoderType : CodecType) : Nat :=
  match (sample.legProfile r).audio.filter fun audio =>
      0 < audio.clockRate && audio.codec = decoderType with
  | some audio => audio.clockRate
  | none =>
    if 0 < sample.frame.clockRate then sample.frame.clockRate
    else match decoderType with
      | .g722 => 8000
      | .opus => 48000
      | _ => 8000

end Sample

def write (lib : AudioLib) (r : Recorder) (sample : Sample) : Option Nat × Recorder :=
  let (captureTs, r) := r.captureTimestamp sample.receivedAtMicros
  let frame := sample.frame
  if sample.hasDtmfPayloadType r then
    let clockRate :=
      (sample.dtmfClockRate.or ((sample.legProfile r).dtmf.map (·.clockRate))).getD sampleRate
    (none, r.writeDtmfPayloadAt lib sample.leg frame.data frame.rtpTimestamp clockRate captureTs)
  else if sample.looksLikeDtmf r then
    (none, r.writeDtmfPayloadAt lib sample.leg frame.data frame.rtpTimestamp
      (max frame.clockRate 8000) captureTs)
  else
    let (hint, payload) := sample.encoded r
    match hint.or (lib.codecOf (frame.payloadType.getD 0)) with
    | none => (none, r)
    | some decoderType =>
      let encoded := if decoderType = .pcmu then payload else sample.transcode decoderType payload
      let (pos, r) := r.rtpAnchoredPosition sample.leg frame.rtpTimestamp
        (sample.rtpClockRate r decoderType) captureTs
      let r := r.insertAudioBlock sample.leg pos encoded
      (some pos, if sample.flushes then r.flush lib false else r)

end Recorder

end RustPbx.Media
