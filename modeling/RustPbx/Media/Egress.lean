import Mathlib.Data.List.Chain
import RustPbx.Lib.Wrap32

/-!
The task that paces what a leg sends.

At each tick the task builds one frame from its source and hands it to the sender, which may be
full. The packets of a telephone event all have the timestamp at which the event began, and the last
of them moves the timeline to its end. A frame that the sender does not take is undone by setting
the timeline to the frame's own timestamp. The samples are left out: they do not matter to the
timeline.
-/

namespace RustPbx.Media

open List Wrap32

/-- A telephone event lasts at most this long at 8 kHz, for its length to fit at 48 kHz too. -/
def dtmfCanonicalMaxDuration : UInt16 := 10922

def durationTo8k (duration : UInt16) (sourceClockRate : UInt32) : Option UInt16 :=
  if sourceClockRate = 8000 then some (min duration dtmfCanonicalMaxDuration)
  else if sourceClockRate = 48000 then some (min (duration / 6) dtmfCanonicalMaxDuration)
  else none

def durationFrom8k (duration : UInt16) (targetClockRate : UInt32) : Option UInt16 :=
  let duration := min duration dtmfCanonicalMaxDuration
  if targetClockRate = 8000 then some duration
  else if targetClockRate = 48000 then some (duration * 6)
  else none

def fromBeBytes (high low : UInt8) : UInt16 :=
  UInt16.ofNat (high.toNat * 256 + low.toNat)

def mapTelephoneEventDuration (payload : List UInt8) (sourceClockRate targetClockRate : UInt32) :
    Option (List UInt8) :=
  match payload with
  | event :: flags :: high :: low :: rest => do
    let duration ← durationTo8k (fromBeBytes high low) sourceClockRate
    let duration ← durationFrom8k duration targetClockRate
    some (event :: flags :: (duration / 256).toUInt8 :: duration.toUInt8 :: rest)
  | _ => none

def endedDuration (payload : List UInt8) : Option UInt16 :=
  match payload with
  | _ :: flags :: high :: low :: _ =>
    if flags &&& 0x80 ≠ 0 then some (fromBeBytes high low) else none
  | _ => none

/-! ## The task -/

structure PeerPacket where
  rtpTimestamp : UInt32
  clockRate : UInt32
  data : List UInt8
  payloadType : Option UInt8
  marker : Bool

structure EgressCodec where
  payloadType : UInt8
  clockRate : UInt32
  dtmfPayloadType : Option UInt8

inductive EgressSource where
  | rewriteRelay
  | silence
  | media (loopPlayback : Bool)
  | inject
  | transcodePeer (sourceAudioPayloadType : UInt8) (primed : Bool)
  deriving DecidableEq

inductive FrameContent where
  | audio
  | event (payload : List UInt8)

structure EgressFrame where
  rtpTimestamp : UInt32
  clockRate : UInt32
  content : FrameContent
  sequenceNumber : UInt16
  payloadType : UInt8
  marker : Bool

structure EgressTask where
  codec : EgressCodec
  source : EgressSource
  ptimeNanos : Nat
  nextRtpTimestamp : UInt32
  sequenceNumber : UInt16
  markerPending : Bool
  dtmfEventTimestamp : Option (UInt32 × UInt32)
  eofTailTotal : Nat
  eofTailRemaining : Nat

/-- What a tick finds at the peer: a packet and those that are taken with it, an error, nothing for
a packet time, or a sample that is not audio. -/
inductive PeerInput where
  | received (packet : PeerPacket) (drained : List PeerPacket)
  | failed
  | timeout
  | other

/-- What a tick finds at the source: the end of the media, the marker of an injected frame, and what
comes from the peer. -/
structure Supply where
  mediaEnded : Bool
  injected : Option Bool
  peer : PeerInput

def playbackEofTailMs : Nat := 300

namespace EgressTask

def new (codec : EgressCodec) (source : EgressSource) (ptimeMs : Nat) (timestamp : UInt32) :
    EgressTask where
  codec
  source
  ptimeNanos := ptimeMs * 1000000
  nextRtpTimestamp := timestamp
  sequenceNumber := 0
  markerPending := false
  dtmfEventTimestamp := none
  eofTailTotal := (playbackEofTailMs + ptimeMs - 1) / ptimeMs
  eofTailRemaining := 0

variable (t : EgressTask)

def codecRtpTicksPerFrame : UInt32 :=
  .ofNat (t.codec.clockRate.toNat * t.ptimeNanos / 1000000000)

def buildFrame : EgressFrame × EgressTask :=
  (⟨t.nextRtpTimestamp, t.codec.clockRate, .audio, t.sequenceNumber, t.codec.payloadType,
      t.markerPending⟩,
    { t with nextRtpTimestamp := t.nextRtpTimestamp + t.codecRtpTicksPerFrame })

def eventTimestamp (packet : PeerPacket) : UInt32 :=
  match t.dtmfEventTimestamp with
  | some (sourceTimestamp, outputTimestamp) =>
    if sourceTimestamp = packet.rtpTimestamp then outputTimestamp else t.nextRtpTimestamp
  | none => t.nextRtpTimestamp

def afterEvent (rtpTimestamp : UInt32) (payload : List UInt8) : UInt32 :=
  match endedDuration payload with
  | some duration =>
    let eventEnd := rtpTimestamp + duration.toUInt32
    if Wrap32.ahead eventEnd t.nextRtpTimestamp > 0 then eventEnd else t.nextRtpTimestamp
  | none => t.nextRtpTimestamp

def buildDtmfFrame (packet : PeerPacket) : Option (EgressFrame × EgressTask) := do
  let payloadType ← t.codec.dtmfPayloadType
  let payload ← mapTelephoneEventDuration packet.data packet.clockRate t.codec.clockRate
  let rtpTimestamp := t.eventTimestamp packet
  some (⟨rtpTimestamp, t.codec.clockRate, .event payload, t.sequenceNumber, payloadType,
      packet.marker⟩,
    { t with
      dtmfEventTimestamp := some (packet.rtpTimestamp, rtpTimestamp)
      nextRtpTimestamp := t.afterEvent rtpTimestamp payload })

/-- The end of a playback that is not repeated: some silence, and then no source. -/
def endOfMedia (loopPlayback : Bool) : EgressTask :=
  if !loopPlayback && 0 < t.eofTailTotal then
    let remaining := (if t.eofTailRemaining = 0 then t.eofTailTotal else t.eofTailRemaining) - 1
    { t with
      eofTailRemaining := remaining
      source := if remaining = 0 then .silence else t.source }
  else { t with source := .silence }

def isVoice (audioPayloadType : UInt8) (packet : PeerPacket) : Bool :=
  packet.payloadType.all (· == audioPayloadType)

def buildEventOrSilence (packet : PeerPacket) : EgressFrame × EgressTask :=
  (t.buildDtmfFrame packet).getD t.buildFrame

def buildFromPeer (audioPayloadType : UInt8) (primed : Bool) :
    PeerInput → Option EgressFrame × EgressTask
  | .received packet drained =>
    if isVoice audioPayloadType packet then
      let t := { t with source := .transcodePeer audioPayloadType true }
      match drained.find? (!isVoice audioPayloadType ·) with
      | some popped => (t.buildEventOrSilence popped).map some id
      | none => t.buildFrame.map some id
    else
      match t.buildDtmfFrame packet with
      | some (frame, t) => (some frame, { t with source := .transcodePeer audioPayloadType true })
      | none => if primed then t.buildFrame.map some id else (none, t)
  | .failed | .timeout | .other => if primed then t.buildFrame.map some id else (none, t)

def build (supply : Supply) : Option EgressFrame × EgressTask :=
  match t.source with
  | .rewriteRelay | .silence => t.buildFrame.map some id
  | .media loopPlayback =>
    (if supply.mediaEnded then t.endOfMedia loopPlayback else t).buildFrame.map some id
  | .inject =>
    let (frame, t) := t.buildFrame
    (some { frame with marker := frame.marker || supply.injected.getD false }, t)
  | .transcodePeer audioPayloadType primed => t.buildFromPeer audioPayloadType primed supply.peer

def nextFrame (supply : Supply) : Option EgressFrame × EgressTask :=
  match t.build supply with
  | (some frame, t) => (some frame, { t with sequenceNumber := t.sequenceNumber + 1 })
  | (none, t) => (none, t)

def rollbackUnsentTimeline (frame : EgressFrame) : EgressTask :=
  { t with nextRtpTimestamp := frame.rtpTimestamp, sequenceNumber := frame.sequenceNumber }

def isRelay : EgressSource → Bool
  | .rewriteRelay => true
  | _ => false

def isMedia : EgressSource → Bool
  | .media _ => true
  | _ => false

def setSource (source : EgressSource) : EgressTask :=
  let leavesRelay := isRelay t.source && !isRelay source
  let startsMedia := t.source = .silence && isMedia source
  { t with
    source
    eofTailRemaining := 0
    markerPending := t.markerPending || leavesRelay || startsMedia
    dtmfEventTimestamp := none }

def updateCodec (codec : EgressCodec) : EgressTask :=
  { t with codec, markerPending := true, dtmfEventTimestamp := none }

def applyAdoptWireTimeline (lastWireTs : UInt32) (nextSeq : UInt16) : EgressTask :=
  { t with
    nextRtpTimestamp := lastWireTs + t.codecRtpTicksPerFrame
    sequenceNumber := nextSeq
    markerPending := true
    dtmfEventTimestamp := none }

end EgressTask

/-- The task, whether its gate is held, and the frames the sender has taken, the newest first. -/
structure Egress where
  task : EgressTask
  gated : Bool
  sent : List EgressFrame

namespace Egress

inductive Action where
  | setSource (source : EgressSource)
  | updateCodec (codec : EgressCodec)
  | adoptWireTimeline (lastWireTs : UInt32) (nextSeq : UInt16)
  | setGate (held : Bool)
  /-- A tick, at which the sender takes the frame or is full. -/
  | tick (supply : Supply) (accepted : Bool)

/-- No frames are built while a relay sends, or for silence before the call is answered. -/
def parked (s : Egress) : Bool :=
  EgressTask.isRelay s.task.source || (s.gated && s.task.source = .silence)

def tick (s : Egress) (supply : Supply) (accepted : Bool) : Egress :=
  match s.task.nextFrame supply with
  | (none, task) => { s with task }
  | (some frame, task) =>
    if accepted then
      { s with task := { task with markerPending := false }, sent := frame :: s.sent }
    else { s with task := task.rollbackUnsentTimeline frame }

def step (s : Egress) : Action → Option Egress
  | .setSource source => some { s with task := s.task.setSource source }
  | .updateCodec codec => some { s with task := s.task.updateCodec codec }
  | .adoptWireTimeline lastWireTs nextSeq =>
    some { s with task := s.task.applyAdoptWireTimeline lastWireTs nextSeq }
  | .setGate held => some { s with gated := held }
  | .tick supply accepted => if s.parked then none else some (s.tick supply accepted)

def Runs (C : Egress → Action → Prop) : Egress → Egress → Prop :=
  Relation.ReflTransGen fun s s' => ∃ action, C s action ∧ s.step action = some s'

end Egress

/-! ## The timeline -/

/-- What of the task matters to the timestamps and the sequence numbers. -/
structure Timeline where
  codec : EgressCodec
  ptimeNanos : Nat
  nextRtpTimestamp : UInt32
  sequenceNumber : UInt16
  dtmfEventTimestamp : Option (UInt32 × UInt32)

def Timeline.advance (l : Timeline) : Timeline :=
  { l with sequenceNumber := l.sequenceNumber + 1 }

def Timeline.back (frame : EgressFrame) (l : Timeline) : Timeline :=
  { l with nextRtpTimestamp := frame.rtpTimestamp, sequenceNumber := frame.sequenceNumber }

namespace EgressTask

def timeline (t : EgressTask) : Timeline :=
  ⟨t.codec, t.ptimeNanos, t.nextRtpTimestamp, t.sequenceNumber, t.dtmfEventTimestamp⟩

def eventPacket (t : EgressTask) (supply : Supply) : Option PeerPacket :=
  match t.source, supply.peer with
  | .transcodePeer audioPayloadType _, .received packet drained =>
    if isVoice audioPayloadType packet then drained.find? (!isVoice audioPayloadType ·)
    else some packet
  | _, _ => none

def carries (t : EgressTask) (packet : PeerPacket) : Bool :=
  t.codec.dtmfPayloadType.isSome &&
    (mapTelephoneEventDuration packet.data packet.clockRate t.codec.clockRate).isSome

/-- What a tick can build: nothing, an audio frame, or a packet of an event. -/
inductive Built (t : EgressTask) (supply : Supply) : Option EgressFrame → EgressTask → Prop where
  | nothing (htimeline : t'.timeline = t.timeline) : Built t supply none t'
  | audio (hcontent : frame.content = .audio)
      (htimestamp : frame.rtpTimestamp = t.nextRtpTimestamp)
      (hsequence : frame.sequenceNumber = t.sequenceNumber)
      (htimeline : t'.timeline = { t.timeline with
        nextRtpTimestamp := t.nextRtpTimestamp + t.codecRtpTicksPerFrame }) :
    Built t supply (some frame) t'
  | event {frame : EgressFrame} {t' : EgressTask} {packet : PeerPacket} {payload : List UInt8}
      (hpacket : t.eventPacket supply = some packet) (hcarries : t.carries packet)
      (hcontent : frame.content = .event payload)
      (htimestamp : frame.rtpTimestamp = t.eventTimestamp packet)
      (hsequence : frame.sequenceNumber = t.sequenceNumber)
      (htimeline : t'.timeline = { t.timeline with
        dtmfEventTimestamp := some (packet.rtpTimestamp, t.eventTimestamp packet)
        nextRtpTimestamp := t.afterEvent (t.eventTimestamp packet) payload }) :
    Built t supply (some frame) t'

variable {t : EgressTask}

theorem built_buildFrame {t₁ : EgressTask} (h : t₁.timeline = t.timeline) :
    Built t supply (some t₁.buildFrame.1) t₁.buildFrame.2 := by
  obtain ⟨codec, source, ptimeNanos, next, sequence, marker, event, total, remaining⟩ := t₁
  cases h
  exact .audio rfl rfl rfl rfl

theorem buildDtmfFrame_cases (h : t.buildDtmfFrame packet = some (frame, t')) :
    t.carries packet ∧ ∃ payload, frame.content = .event payload ∧
      frame.rtpTimestamp = t.eventTimestamp packet ∧ frame.sequenceNumber = t.sequenceNumber ∧
      t'.timeline = { t.timeline with
        dtmfEventTimestamp := some (packet.rtpTimestamp, t.eventTimestamp packet)
        nextRtpTimestamp := t.afterEvent (t.eventTimestamp packet) payload } := by
  obtain ⟨payloadType, htype, h⟩ := Option.bind_eq_some_iff.mp h
  obtain ⟨payload, hpayload, h⟩ := Option.bind_eq_some_iff.mp h
  cases h
  refine ⟨?_, payload, rfl, rfl, rfl, rfl⟩
  rw [carries, htype, hpayload]
  rfl

theorem ahead_afterEvent (hbegan : 0 ≤ Wrap32.ahead t.nextRtpTimestamp rtpTimestamp) :
    Wrap32.ahead t.nextRtpTimestamp rtpTimestamp ≤
        Wrap32.ahead (t.afterEvent rtpTimestamp payload) rtpTimestamp ∧
      ((((endedDuration payload).map (·.toNat)).getD 0 : Nat) : Int) ≤
        Wrap32.ahead (t.afterEvent rtpTimestamp payload) rtpTimestamp := by
  unfold afterEvent
  cases endedDuration payload with
  | none => exact ⟨Int.le_refl _, hbegan⟩
  | some duration =>
    have hsmall : duration.toUInt32.toNat < 2 ^ 31 := by
      rw [UInt16.toNat_toUInt32]
      have := duration.toNat_lt
      omega
    have hend := ahead_add hsmall rtpTimestamp
    have hfurther := ahead_add_of_ahead hbegan hsmall
    rw [UInt16.toNat_toUInt32] at hend hfurther
    dsimp only [Option.map_some, Option.getD_some]
    split
    · omega
    · omega

theorem buildDtmfFrame_source (source : EgressSource) :
    { t with source }.buildDtmfFrame packet =
      (t.buildDtmfFrame packet).map fun r => (r.1, { r.2 with source }) := by
  unfold buildDtmfFrame
  cases t.codec.dtmfPayloadType with
  | none => rfl
  | some payloadType =>
    cases mapTelephoneEventDuration packet.data packet.clockRate t.codec.clockRate with
    | none | some => rfl

theorem built_event {source : EgressSource}
    (hpacket : t.eventPacket supply = some packet) (h : t.buildDtmfFrame packet = some r) :
    Built t supply (some r.1) { r.2 with source } := by
  obtain ⟨hcarries, payload, hcontent, htimestamp, hsequence, htimeline⟩ := buildDtmfFrame_cases h
  exact .event hpacket hcarries hcontent htimestamp hsequence htimeline

theorem built_buildFromPeer (hsource : t.source = .transcodePeer audioPayloadType primed) :
    Built t supply (t.buildFromPeer audioPayloadType primed supply.peer).1
      (t.buildFromPeer audioPayloadType primed supply.peer).2 := by
  have hquiet : Built t supply (if primed then t.buildFrame.map some id else (none, t)).1
      (if primed then t.buildFrame.map some id else (none, t)).2 := by
    cases primed with
    | true => exact built_buildFrame rfl
    | false => exact .nothing rfl
  cases hpeer : supply.peer with
  | failed | timeout | other => exact hquiet
  | received packet drained =>
    have hevent : t.eventPacket supply = if isVoice audioPayloadType packet then
        drained.find? (!isVoice audioPayloadType ·) else some packet := by
      rw [eventPacket, hsource, hpeer]
    unfold buildFromPeer
    dsimp only
    cases hvoice : isVoice audioPayloadType packet with
    | true =>
      rw [hvoice] at hevent
      cases hpopped : drained.find? (!isVoice audioPayloadType ·) with
      | none => exact built_buildFrame rfl
      | some popped =>
        rw [hpopped] at hevent
        dsimp only
        rw [buildEventOrSilence, buildDtmfFrame_source]
        cases hbuild : t.buildDtmfFrame popped with
        | none => exact built_buildFrame rfl
        | some r => exact built_event hevent hbuild
    | false =>
      rw [hvoice] at hevent
      cases hbuild : t.buildDtmfFrame packet with
      | none => exact hquiet
      | some r => exact built_event hevent hbuild

theorem timeline_endOfMedia : (t.endOfMedia loopPlayback).timeline = t.timeline := by
  unfold endOfMedia
  split
  · rfl
  · rfl

/-- **What a tick builds**, from any source. -/
theorem built_build (t : EgressTask) (supply : Supply) :
    Built t supply (t.build supply).1 (t.build supply).2 := by
  unfold build
  cases hsource : t.source with
  | rewriteRelay | silence => exact built_buildFrame rfl
  | media loopPlayback =>
    dsimp only
    split
    · exact built_buildFrame timeline_endOfMedia
    · exact built_buildFrame rfl
  | inject => exact .audio rfl rfl rfl rfl
  | transcodePeer audioPayloadType primed => exact built_buildFromPeer hsource

end EgressTask

namespace Egress

/-- What a tick does to the timeline, and to what is sent. -/
inductive Ticked (s : Egress) (supply : Supply) : Bool → Egress → Prop where
  | nothing (htimeline : s'.task.timeline = s.task.timeline)
      (hsent : s'.sent = s.sent) :
    Ticked s supply accepted s'
  | audio (hcontent : frame.content = .audio)
      (htimestamp : frame.rtpTimestamp = s.task.nextRtpTimestamp)
      (hsequence : frame.sequenceNumber = s.task.sequenceNumber)
      (htimeline : s'.task.timeline = { s.task.timeline with
        nextRtpTimestamp := s.task.nextRtpTimestamp + s.task.codecRtpTicksPerFrame
        sequenceNumber := s.task.sequenceNumber + 1 })
      (hsent : s'.sent = frame :: s.sent) :
    Ticked s supply true s'
  | event {frame : EgressFrame} {packet payload s'}
      (hpacket : s.task.eventPacket supply = some packet) (hcarries : s.task.carries packet)
      (hcontent : frame.content = .event payload)
      (htimestamp : frame.rtpTimestamp = s.task.eventTimestamp packet)
      (hsequence : frame.sequenceNumber = s.task.sequenceNumber)
      (htimeline : s'.task.timeline = { s.task.timeline with
        dtmfEventTimestamp := some (packet.rtpTimestamp, s.task.eventTimestamp packet)
        nextRtpTimestamp := s.task.afterEvent (s.task.eventTimestamp packet) payload
        sequenceNumber := s.task.sequenceNumber + 1 })
      (hsent : s'.sent = frame :: s.sent) :
    Ticked s supply true s'
  | refused {packet s'} (hpacket : s.task.eventPacket supply = some packet)
      (hcarries : s.task.carries packet)
      (htimeline : s'.task.timeline = { s.task.timeline with
        dtmfEventTimestamp := some (packet.rtpTimestamp, s.task.eventTimestamp packet)
        nextRtpTimestamp := s.task.eventTimestamp packet })
      (hsent : s'.sent = s.sent) :
    Ticked s supply false s'

theorem ticked : Ticked s supply accepted (s.tick supply accepted) := by
  have hbuilt := EgressTask.built_build s.task supply
  unfold tick EgressTask.nextFrame
  cases hbuild : s.task.build supply with
  | mk frame t =>
    rw [hbuild] at hbuilt
    cases hbuilt with
    | nothing htimeline => exact .nothing htimeline rfl
    | @audio frame _ hcontent htimestamp hsequence htimeline =>
      cases accepted with
      | true =>
        have hadvanced := congrArg Timeline.advance htimeline
        exact .audio hcontent htimestamp hsequence hadvanced rfl
      | false =>
        have hback := congrArg (Timeline.back frame) htimeline
        refine .nothing (hback.trans ?_) rfl
        rw [Timeline.back, htimestamp, hsequence]
        rfl
    | @event frame _ packet payload hpacket hcarries hcontent htimestamp hsequence htimeline =>
      cases accepted with
      | true =>
        have hadvanced := congrArg Timeline.advance htimeline
        exact .event hpacket hcarries hcontent htimestamp hsequence hadvanced rfl
      | false =>
        have hback := congrArg (Timeline.back frame) htimeline
        refine .refused hpacket hcarries (hback.trans ?_) rfl
        rw [Timeline.back, htimestamp, hsequence]
        rfl

/-! ## Order -/

def position (frames : List EgressFrame) : Int :=
  Wrap32.position (frames.map (·.rtpTimestamp))

/-- How long a frame lasts: one packet time, or the duration of an event that has ended. -/
def span (ticks : UInt32) (frame : EgressFrame) : Nat :=
  match frame.content with
  | .audio => ticks.toNat
  | .event payload => ((endedDuration payload).map (·.toNat)).getD 0

def nextPosition (s : Egress) : Int :=
  Wrap32.position (s.task.nextRtpTimestamp :: s.sent.map (·.rtpTimestamp))

/-- The next timestamp is after all that was sent, and an audio frame after what was before it. -/
structure InOrder (ticks : UInt32) (s : Egress) : Prop where
  ticksPerFrame : s.task.codecRtpTicksPerFrame = ticks
  behind : ∀ f rest, s.sent = f :: rest → 0 ≤ Wrap32.ahead s.task.nextRtpTimestamp f.rtpTimestamp
  past : ∀ g older, g :: older <:+ s.sent → position (g :: older) + span ticks g ≤ s.nextPosition
  ordered : ∀ f rest, f :: rest <:+ s.sent → f.content = .audio →
    ∀ g older, g :: older <:+ rest → position (g :: older) + span ticks g ≤ position (f :: rest)

theorem InOrder.congr (h : InOrder ticks s)
    (hticks : s'.task.codecRtpTicksPerFrame = s.task.codecRtpTicksPerFrame)
    (hnext : s'.task.nextRtpTimestamp = s.task.nextRtpTimestamp) (hsent : s'.sent = s.sent) :
    InOrder ticks s' where
  ticksPerFrame := hticks.trans h.ticksPerFrame
  behind f rest hf := by
    rw [hnext]
    exact h.behind f rest (hsent ▸ hf)
  past g older hg := by
    rw [nextPosition, hnext, hsent]
    exact h.past g older (hsent ▸ hg)
  ordered f rest hf := h.ordered f rest (hsent ▸ hf)

theorem InOrder.audio (h : InOrder ticks s) (hhalf : ticks.toNat < 2 ^ 31)
    (hcontent : frame.content = .audio) (htimestamp : frame.rtpTimestamp = s.task.nextRtpTimestamp)
    (hticks : s'.task.codecRtpTicksPerFrame = s.task.codecRtpTicksPerFrame)
    (hnext : s'.task.nextRtpTimestamp = s.task.nextRtpTimestamp + s.task.codecRtpTicksPerFrame)
    (hsent : s'.sent = frame :: s.sent) : InOrder ticks s' := by
  have hahead : ahead s'.task.nextRtpTimestamp frame.rtpTimestamp = ticks.toNat := by
    rw [hnext, htimestamp, h.ticksPerFrame]
    exact ahead_add hhalf _
  have hframe : position (frame :: s.sent) = s.nextPosition := by
    rw [position, map_cons, htimestamp]
    rfl
  have hposition : s'.nextPosition = s.nextPosition + ticks.toNat := by
    rw [nextPosition, hsent, map_cons, Wrap32.position, hahead]
    exact congrArg (· + (ticks.toNat : Int)) hframe
  refine ⟨hticks.trans h.ticksPerFrame, fun f rest hf => ?_, fun g older hg => ?_,
    fun f rest hf haudio g older hg => ?_⟩
  · rw [hsent] at hf
    cases hf
    rw [hahead]
    exact Int.natCast_nonneg _
  · rw [hposition]
    rw [hsent, suffix_cons_iff] at hg
    obtain heq | hg := hg
    · cases heq
      have hspan : span ticks frame = ticks.toNat := by
        rw [span, hcontent]
      exact Int.le_of_eq (by rw [hframe, hspan])
    · have := h.past g older hg
      omega
  · rw [hsent, suffix_cons_iff] at hf
    obtain heq | hf := hf
    · cases heq
      rw [hframe]
      exact h.past g older hg
    · exact h.ordered f rest hf haudio g older hg

theorem InOrder.event (h : InOrder ticks s) (hcontent : frame.content = .event payload)
    (hbegan : 0 ≤ Wrap32.ahead s.task.nextRtpTimestamp frame.rtpTimestamp)
    (hticks : s'.task.codecRtpTicksPerFrame = s.task.codecRtpTicksPerFrame)
    (hnext : s'.task.nextRtpTimestamp = s.task.afterEvent frame.rtpTimestamp payload)
    (hsent : s'.sent = frame :: s.sent) : InOrder ticks s' := by
  obtain ⟨hkept, hended⟩ := EgressTask.ahead_afterEvent hbegan
  rw [← hnext] at hkept hended
  have hposition : s'.nextPosition = position (frame :: s.sent) +
      ahead s'.task.nextRtpTimestamp frame.rtpTimestamp := by
    rw [nextPosition, hsent, position]
    rfl
  refine ⟨hticks.trans h.ticksPerFrame, fun f rest hf => ?_, fun g older hg => ?_,
    fun f rest hf haudio g older hg => ?_⟩
  · rw [hsent] at hf
    cases hf
    exact Int.le_trans hbegan hkept
  · rw [hsent, suffix_cons_iff] at hg
    obtain heq | hg := hg
    · cases heq
      rw [hposition, span, hcontent]
      exact Int.add_le_add_left hended _
    · have hmoved : s.nextPosition ≤ s'.nextPosition := by
        cases hold : s.sent with
        | nil =>
          rw [hold] at hg
          exact absurd (eq_nil_of_suffix_nil hg) nofun
        | cons last before =>
          -- The event began between the last frame and where the timeline is.
          have hbetween := ahead_between (h.behind last before hold) hbegan
          have hbefore : s.nextPosition = position (last :: before) +
              ahead s.task.nextRtpTimestamp last.rtpTimestamp := by
            rw [nextPosition, hold, position]
            rfl
          have hframe : position (frame :: last :: before) = position (last :: before) +
              ahead frame.rtpTimestamp last.rtpTimestamp := rfl
          rw [hposition, hold, hbefore]
          omega
      exact Int.le_trans (h.past g older hg) hmoved
  · rw [hsent, suffix_cons_iff] at hf
    obtain heq | hf := hf
    · cases heq
      rw [hcontent] at haudio
      cases haudio
    · exact h.ordered f rest hf haudio g older hg

theorem ticks_congr {t t' : EgressTask} (hcodec : t'.codec.clockRate = t.codec.clockRate)
    (hptime : t'.ptimeNanos = t.ptimeNanos) :
    t'.codecRtpTicksPerFrame = t.codecRtpTicksPerFrame := by
  unfold EgressTask.codecRtpTicksPerFrame
  rw [hcodec, hptime]

theorem Ticked.ticksPerFrame (h : Ticked s supply accepted s') :
    s'.task.codecRtpTicksPerFrame = s.task.codecRtpTicksPerFrame := by
  have hcodec : s'.task.codec = s.task.codec ∧ s'.task.ptimeNanos = s.task.ptimeNanos := by
    cases h <;> rename_i htimeline _ <;>
      exact ⟨congrArg Timeline.codec htimeline, congrArg Timeline.ptimeNanos htimeline⟩
  exact ticks_congr (congrArg EgressCodec.clockRate hcodec.1) hcodec.2

/-- The codec keeps its clock rate, and the timeline is not taken over from a relay. -/
def Regular (s : Egress) : Action → Prop
  | .adoptWireTimeline _ _ => False
  | .updateCodec codec => codec.clockRate = s.task.codec.clockRate
  | _ => True

/-- A packet of an event that the sender does not take is at the timestamp of the timeline, and no
event lasts longer than timestamps can be compared. -/
def Steady (s : Egress) : Action → Prop
  | .tick supply accepted => ∀ packet, s.task.eventPacket supply = some packet →
      s.task.carries packet →
      0 ≤ Wrap32.ahead s.task.nextRtpTimestamp (s.task.eventTimestamp packet) ∧
      (accepted = false → s.task.eventTimestamp packet = s.task.nextRtpTimestamp)
  | action => Regular s action

theorem InOrder.tick (h : InOrder ticks s) (hhalf : ticks.toNat < 2 ^ 31)
    (hsteady : Steady s (.tick supply accepted)) (hticked : Ticked s supply accepted s') :
    InOrder ticks s' := by
  have hticks := hticked.ticksPerFrame
  cases hticked with
  | nothing htimeline hsent =>
    exact h.congr hticks (congrArg Timeline.nextRtpTimestamp htimeline) hsent
  | audio hcontent htimestamp _ htimeline hsent =>
    have hnext := congrArg Timeline.nextRtpTimestamp htimeline
    exact h.audio hhalf hcontent htimestamp hticks hnext hsent
  | @event frame packet payload _ hpacket hcarries hcontent htimestamp _ htimeline hsent =>
    obtain ⟨hbegan, -⟩ := hsteady packet hpacket hcarries
    rw [← htimestamp] at hbegan htimeline
    exact h.event hcontent hbegan hticks (congrArg Timeline.nextRtpTimestamp htimeline) hsent
  | @refused packet _ hpacket hcarries htimeline hsent =>
    obtain ⟨-, hbegins⟩ := hsteady packet hpacket hcarries
    have hnext := congrArg Timeline.nextRtpTimestamp htimeline
    exact h.congr hticks (hnext.trans (hbegins rfl)) hsent

theorem step_tick (h : s.step (.tick supply accepted) = some s') : Ticked s supply accepted s' := by
  unfold step at h
  dsimp only at h
  split at h
  · cases h
  · cases h
    exact ticked

theorem InOrder.step (h : InOrder ticks s) (hhalf : ticks.toNat < 2 ^ 31)
    (hsteady : Steady s action) (hstep : s.step action = some s') : InOrder ticks s' := by
  cases action with
  | setSource | setGate =>
    cases hstep
    exact h.congr rfl rfl rfl
  | updateCodec codec =>
    cases hstep
    exact h.congr (ticks_congr hsteady rfl) rfl rfl
  | adoptWireTimeline _ _ => exact hsteady.elim
  | tick supply accepted => exact h.tick hhalf hsteady (step_tick hstep)

theorem Runs.inOrder (hstart : InOrder ticks start) (hhalf : ticks.toNat < 2 ^ 31)
    (h : Runs Steady start s) : InOrder ticks s := by
  induction h with
  | refl => exact hstart
  | tail _ hstep ih =>
    obtain ⟨action, hsteady, hstep⟩ := hstep
    exact ih.step hhalf hsteady hstep

/-- The sequence numbers that were sent are consecutive, and the next one follows them. -/
def Sequenced (s : Egress) : Prop :=
  List.IsChain (fun new old => new = old + 1)
    (s.task.sequenceNumber :: s.sent.map (·.sequenceNumber))

theorem Sequenced.congr (h : Sequenced s)
    (hsequence : s'.task.sequenceNumber = s.task.sequenceNumber) (hsent : s'.sent = s.sent) :
    Sequenced s' := by
  rw [Sequenced, hsequence, hsent]
  exact h

theorem Sequenced.sent (h : Sequenced s) (hsequence : frame.sequenceNumber = s.task.sequenceNumber)
    (hnext : s'.task.sequenceNumber = s.task.sequenceNumber + 1)
    (hsent : s'.sent = frame :: s.sent) : Sequenced s' := by
  rw [Sequenced, hnext, hsent, map_cons, hsequence]
  exact isChain_cons_cons.mpr ⟨rfl, h⟩

theorem Sequenced.step (h : Sequenced s) (hregular : Regular s action)
    (hstep : s.step action = some s') : Sequenced s' := by
  cases action with
  | setSource | updateCodec | setGate =>
    cases hstep
    exact h
  | adoptWireTimeline _ _ => exact hregular.elim
  | tick supply accepted =>
    cases step_tick hstep with
    | nothing htimeline hsent | refused _ _ htimeline hsent =>
      exact h.congr (congrArg Timeline.sequenceNumber htimeline) hsent
    | audio _ _ hsequence htimeline hsent | event _ _ _ _ hsequence htimeline hsent =>
      exact h.sent hsequence (congrArg Timeline.sequenceNumber htimeline) hsent

theorem Runs.sequenced (hstart : Sequenced start) (h : Runs Regular start s) : Sequenced s := by
  induction h with
  | refl => exact hstart
  | tail _ hstep ih =>
    obtain ⟨action, hregular, hstep⟩ := hstep
    exact ih.step hregular hstep

def start (codec : EgressCodec) (source : EgressSource) (ptimeMs : Nat) (timestamp : UInt32)
    (gated : Bool) : Egress :=
  ⟨.new codec source ptimeMs timestamp, gated, []⟩

theorem inOrder_start (gated : Bool) :
    InOrder (start codec source ptimeMs timestamp gated).task.codecRtpTicksPerFrame
      (start codec source ptimeMs timestamp gated) where
  ticksPerFrame := rfl
  behind _ _ hf := nomatch hf
  past _ _ hg := absurd (eq_nil_of_suffix_nil hg) nofun
  ordered _ _ hf := absurd (eq_nil_of_suffix_nil hf) nofun

/-- **The frames that the sender takes are in order**: sequence numbers are consecutive, and each
audio frame is after those before it and after the events that have ended. -/
theorem taken_in_order (codec : EgressCodec) (source : EgressSource) (ptimeMs : Nat)
    (timestamp : UInt32) (gated : Bool) :
    (∀ s, Runs Regular (start codec source ptimeMs timestamp gated) s →
      (s.sent.map (·.sequenceNumber)).IsChain fun new old => new = old + 1) ∧
    (∀ ticks, (start codec source ptimeMs timestamp gated).task.codecRtpTicksPerFrame = ticks →
      ticks.toNat < 2 ^ 31 → ∀ s, Runs Steady (start codec source ptimeMs timestamp gated) s →
      ∀ f rest, f :: rest <:+ s.sent → f.content = .audio → ∀ g older, g :: older <:+ rest →
        position (g :: older) + span ticks g ≤ position (f :: rest)) := by
  constructor
  · intro s hruns
    have hstart : Sequenced (start codec source ptimeMs timestamp gated) := .singleton _
    exact (Runs.sequenced hstart hruns).tail
  · rintro ticks rfl hhalf s hruns
    exact (Runs.inOrder (inOrder_start gated) hhalf hruns).ordered

def callLeg : Egress :=
  start ⟨0, 8000, some 101⟩ (.transcodePeer 0 true) 20 0 false

def digitEnd : Supply :=
  ⟨false, none, .received ⟨1000, 8000, [5, 0x8a, 0x03, 0x20], some 101, false⟩ []⟩

def quiet : Supply :=
  ⟨false, none, .timeout⟩

def digitFrame (sequenceNumber : UInt16) : EgressFrame :=
  ⟨0, 8000, .event [5, 0x8a, 0x03, 0x20], sequenceNumber, 101, false⟩

def audioFrame (rtpTimestamp : UInt32) (sequenceNumber : UInt16) : EgressFrame :=
  ⟨rtpTimestamp, 8000, .audio, sequenceNumber, 0, false⟩

theorem Runs.next (h : Runs C first s) (action : Action)
    (hc : C s action) (hstep : s.step action = some s') : Runs C first s' :=
  h.tail ⟨action, hc, hstep⟩

theorem taken_in_order_digit : ∃ s, Runs Steady callLeg s ∧
    s.sent = [audioFrame 800 1, digitFrame 0] ∧ position [digitFrame 0] + span 160 (digitFrame 0) ≤
      position [audioFrame 800 1, digitFrame 0] := by
  have hend : Steady callLeg (.tick digitEnd true) := by
    intro packet hpacket hcarries
    cases hpacket
    decide
  have hruns : Runs Steady callLeg _ :=
    Runs.next (Runs.next .refl (.tick digitEnd true) hend rfl) (.tick quiet true) nofun rfl
  refine ⟨_, hruns, rfl, ?_⟩
  have hinorder := (taken_in_order ⟨0, 8000, some 101⟩ (.transcodePeer 0 true) 20 0 false).2
  exact hinorder 160 rfl (by decide) _ hruns (audioFrame 800 1) [digitFrame 0] suffix_rfl rfl
    (digitFrame 0) [] suffix_rfl

/-- A repeated end of a digit that the sender does not take sets the timeline back to where the
digit began, and the next audio frame is sent 100 ms before its end. -/
theorem audio_before_event_end : ∃ s, Runs Regular callLeg s ∧
    s.sent = [audioFrame 0 1, digitFrame 0] ∧ ¬ position [digitFrame 0] + span 160 (digitFrame 0) ≤
      position [audioFrame 0 1, digitFrame 0] := by
  have hended : Runs Regular callLeg _ := Runs.next .refl (.tick digitEnd true) trivial rfl
  have hrefused := hended.next (.tick digitEnd false) trivial rfl
  exact ⟨_, hrefused.next (.tick quiet true) trivial rfl, rfl, by decide⟩

end Egress

end RustPbx.Media
