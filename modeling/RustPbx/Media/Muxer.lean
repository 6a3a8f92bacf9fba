import RustPbx.Media.Assembler

/-!
The video track of a recording.

A sample is written when its frame arrives, with the time since the frame before as its duration.
So the start of a sample lags behind the timestamps by one frame.
-/

namespace RustPbx.Media

open List

def defaultFrameTicks : UInt32 := 3000

def maxFrameTicks : UInt32 := 2 * 90000

structure Mp4Sample where
  startTime : UInt64
  duration : UInt32
  isSync : Bool
  bytes : List UInt8

/-- `samples` is what the writer has written. -/
structure Mp4Muxer where
  samples : List Mp4Sample := []
  prevTs : Option UInt32 := none
  lastDuration : UInt32 := defaultFrameTicks
  nextStart : UInt64 := 0
  frameCount : UInt64 := 0

def Mp4Muxer.writeFrame (m : Mp4Muxer) (frame : VideoFrame) (written : Except String Unit) :
    Except String Unit × Mp4Muxer :=
  -- Of the frame before this one, and written with this one.
  let duration := match m.prevTs with
    | none => defaultFrameTicks
    | some prev =>
      let delta := frame.rtpTimestamp - prev
      if delta = 0 ∨ delta > maxFrameTicks then m.lastDuration else delta
  match written with
  | .error e => (.error e, m)
  | .ok () => (.ok (), {
      samples := m.samples ++ [⟨m.nextStart, duration, frame.isKeyframe, frame.data⟩]
      prevTs := some frame.rtpTimestamp
      lastDuration := duration
      nextStart := m.nextStart + duration.toUInt64
      frameCount := m.frameCount + 1 })

def Mp4Muxer.writeFrames (m : Mp4Muxer) (frames : List VideoFrame) : Mp4Muxer :=
  frames.foldl (fun m frame => (m.writeFrame frame (.ok ())).2) m

/-- The ticks from one frame to the next, across a wrap of the timestamps. -/
def VideoFrame.ticks (a b : VideoFrame) : UInt32 :=
  b.rtpTimestamp - a.rtpTimestamp

def elapsed (time : UInt64) (prev : VideoFrame) : List VideoFrame → List UInt64
  | [] => []
  | frame :: frames =>
    let time := time + (prev.ticks frame).toUInt64
    time :: elapsed time frame frames

def frameTimes : List VideoFrame → List UInt64
  | [] => []
  | frame :: frames => 0 :: elapsed 0 frame frames

def timeline (start : UInt64) (prev : VideoFrame) : List VideoFrame → List Mp4Sample
  | [] => []
  | frame :: frames =>
    let duration := prev.ticks frame
    ⟨start, duration, frame.isKeyframe, frame.data⟩ ::
      timeline (start + duration.toUInt64) frame frames

def Follows (a b : Mp4Sample) : Prop :=
  b.startTime = a.startTime + a.duration.toUInt64

/-- Two frames in a row, of which the second is later, but not by too much. -/
def Paced (a b : VideoFrame) : Prop :=
  0 < a.ticks b ∧ a.ticks b ≤ 180000

theorem samples_writeFrames {m : Mp4Muxer} (hprev : m.prevTs = some first.rtpTimestamp)
    (h : (first :: frames).IsChain Paced) :
    (m.writeFrames frames).samples = m.samples ++ timeline m.nextStart first frames := by
  induction frames generalizing m first with
  | nil => exact (append_nil _).symm
  | cons frame frames ih =>
    obtain ⟨⟨hpos, hle⟩, hrest⟩ := isChain_cons_cons.mp h
    have hkept : ¬ (frame.rtpTimestamp - first.rtpTimestamp = 0 ∨
        frame.rtpTimestamp - first.rtpTimestamp > maxFrameTicks) := by
      simp only [VideoFrame.ticks, maxFrameTicks] at *
      grind
    rw [Mp4Muxer.writeFrames, foldl_cons, ← Mp4Muxer.writeFrames, ih rfl hrest]
    simp [Mp4Muxer.writeFrame, hprev, if_neg hkept, timeline, VideoFrame.ticks]

theorem timeline_follows (hsample : start = sample.startTime + sample.duration.toUInt64) :
    (sample :: timeline start first frames).IsChain Follows := by
  induction frames generalizing start first sample with
  | nil => exact .singleton _
  | cons frame frames ih => exact .cons_cons hsample (ih rfl)

theorem starts_timeline_iff (time : UInt64) :
    (timeline (time + 3000) first frames).map (·.startTime) = elapsed time first frames ↔
      (first :: frames).IsChain fun a b => a.ticks b = 3000 := by
  induction frames generalizing time first with
  | nil => simp [timeline, elapsed]
  | cons frame frames ih =>
    -- The sample starts 3000 ticks after `first`, however far apart the frames are.
    have hticks : time + 3000 = time + (first.ticks frame).toUInt64 ↔ first.ticks frame = 3000 := by
      rw [UInt64.add_right_inj, show (3000 : UInt64) = (3000 : UInt32).toUInt64 from rfl,
        UInt32.toUInt64_inj, eq_comm]
    simp only [timeline, elapsed, map_cons, cons.injEq, isChain_cons_cons, hticks]
    refine and_congr_right fun h => ?_
    rw [h]
    exact ih _

/-- **The samples of a track** end where the next ones start, and they start at the times of their
frames if and only if all frames are 3000 ticks apart. -/
theorem track_times (frames : List VideoFrame) (h : frames.IsChain Paced) :
    let samples := (({} : Mp4Muxer).writeFrames frames).samples
    samples.IsChain Follows ∧
      (samples.map (·.startTime) = frameTimes frames ↔
        frames.IsChain fun a b => a.ticks b = 3000) := by
  cases frames with
  | nil => exact ⟨.nil, by simp [Mp4Muxer.writeFrames, frameTimes]⟩
  | cons first frames =>
    have hsamples : (({} : Mp4Muxer).writeFrames (first :: frames)).samples =
        ⟨0, 3000, first.isKeyframe, first.data⟩ :: timeline 3000 first frames :=
      samples_writeFrames rfl h
    rw [hsamples]
    refine ⟨timeline_follows rfl, ?_⟩
    rw [map_cons, frameTimes, ← starts_timeline_iff 0]
    simp

theorem track_times_two :
    let frames : List VideoFrame := [⟨4294966000, true, [1]⟩, ⟨1704, false, [2]⟩]
    let samples := (({} : Mp4Muxer).writeFrames frames).samples
    samples.IsChain Follows ∧
      (samples.map (·.startTime) = frameTimes frames ↔
        frames.IsChain fun a b => a.ticks b = 3000) :=
  track_times _ (.cons_cons ⟨by decide, by decide⟩ (.singleton _))

/-- A second frame 6000 ticks after the first one starts at 3000. -/
theorem frame_starts_early :
    let frames : List VideoFrame := [⟨0, true, [1]⟩, ⟨6000, false, [2]⟩]
    frameTimes frames = [0, 6000] ∧
      (({} : Mp4Muxer).writeFrames frames).samples.map (·.startTime) = [0, 3000] := by
  decide

end RustPbx.Media
