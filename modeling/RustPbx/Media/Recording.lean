import RustPbx.Media.Recorder

/-!
What the file of a recorder has in the end.

For each leg, what is flushed and what is still buffered are together the frames of the leg, each at
the position at which it was placed (`Tracks`). A flush moves a stretch from the buffers to the
file.
-/

namespace RustPbx.Media.Recorder

open Blocks List Option

variable {r : Recorder}

/-! ## The data of a leg -/

theorem u32_of_lt (h : n < 2 ^ 32) : u32 n = n := Nat.mod_eq_of_lt h

theorem silence_eq (h : samples ≤ sampleRate * 10) :
    silence lib samples = replicate samples (lib.encodeSample 0) := by
  rw [silence, Nat.min_eq_left h]

theorem length_le_endOf (h : Placed lo ((ts, data) :: rest)) :
    ts + data.length ≤ endOf lo ((ts, data) :: rest) :=
  h.tail.apart.le_endOf

/-- A leg gives what it has up to a position, and keeps the rest in its place. -/
theorem getLegData_spec (hplaced : Placed currentTs buffer)
    (hbound : endOf currentTs buffer < 2 ^ 32) (hle : currentTs ≤ flushTo)
    (hcap : flushTo - currentTs ≤ sampleRate * 10) : (getLegData lib flushTo currentTs buffer).1 =
        trace (lib.encodeSample 0) (look buffer) currentTs flushTo ∧
      Placed flushTo (getLegData lib flushTo currentTs buffer).2 ∧
      endOf flushTo (getLegData lib flushTo currentTs buffer).2 =
        max flushTo (endOf currentTs buffer) ∧
      ∀ p, flushTo ≤ p → look (getLegData lib flushTo currentTs buffer).2 p = look buffer p := by
  induction buffer generalizing currentTs with
  | nil =>
    refine ⟨?_, ⟨trivial, List.Pairwise.nil⟩, (Nat.max_eq_left hle).symm, fun p _ => rfl⟩
    rw [trace_blank (f := look []) fun p _ _ => rfl]
    exact silence_eq hcap
  | cons block rest ih =>
    obtain ⟨ts, data⟩ := block
    have hts : currentTs ≤ ts := hplaced.apart.1
    have hend := length_le_endOf hplaced
    have hgap : currentTs ≤ ts → ts ≤ flushTo →
        trace (lib.encodeSample 0) (look ((ts, data) :: rest)) currentTs ts =
          silence lib (ts - currentTs) := by
      intro _ hto
      rw [silence_eq (by omega)]
      apply trace_blank
      intro p _ hp
      have hapart : Apart ts ((ts, data) :: rest) := ⟨Nat.le_refl ts, hplaced.apart.2⟩
      exact hapart.look_of_lt hp
    rw [getLegData]
    by_cases hbefore : ts < flushTo
    · rw [if_pos ⟨by omega, hbefore⟩]
      dsimp only
      rw [Nat.max_eq_right hts, u32_of_lt (n := data.length) (by omega),
        u32_of_lt (by omega)]
      have hto : ts ≤ flushTo := Nat.le_of_lt hbefore
      rw [← trace_append hts hto, hgap hts hto]
      have hdata : ∀ p, ts ≤ p → p < ts + data.length →
          look ((ts, data) :: rest) p = data[p - ts]? := by
        intro p hlo hhi
        rw [look, if_pos ⟨hlo, hhi⟩]
      by_cases hcut : flushTo < ts + data.length
      · obtain ⟨hkept, hkeptEnd, hkeptLook⟩ := hplaced.cut hbefore hcut
        have hrest : (data.drop (flushTo - ts)).isEmpty = false := by
          rw [isEmpty_eq_false_iff_exists_mem]
          exact ⟨_, getElem_mem (by rw [length_drop]; omega : 0 < _)⟩
        have hpos : u32 (ts + (flushTo - ts)) = flushTo := by
          rw [Nat.add_sub_cancel' hto]
          exact u32_of_lt (by omega)
        rw [if_pos hcut, if_pos (by omega), hrest, hpos, if_neg Bool.false_ne_true,
          insert_of_lt hplaced.apart.2 hcut]
        refine ⟨?_, hkept, ?_, hkeptLook⟩
        · rw [trace_block (fun p hlo hhi => hdata p hlo (by omega)) (by omega)]
        · rw [hkeptEnd, Nat.max_eq_right (by omega)]
      · have hrest := hbound
        obtain ⟨hout, hkept, hkeptEnd, hkeptLook⟩ :=
          ih hplaced.tail hrest (by omega) (by omega)
        rw [trace_congr (g := look ((ts, data) :: rest)) fun p hlo _ =>
          (look_cons_of_end_le hlo).symm] at hout
        rw [if_neg hcut]
        refine ⟨?_, hkept, hkeptEnd, fun p hp => ?_⟩
        · rw [hout, append_assoc,
            ← trace_append (Nat.le_add_right ts data.length) (Nat.le_of_not_lt hcut),
            trace_block hdata (Nat.le_refl _), Nat.add_sub_cancel_left, take_length]
        · rw [hkeptLook p hp, look_cons_of_end_le (by omega)]
    · have hapart : Apart flushTo ((ts, data) :: rest) := ⟨by omega, hplaced.apart.2⟩
      rw [if_neg (by omega)]
      refine ⟨?_, ⟨hapart, hplaced.keys⟩, ?_, fun p _ => rfl⟩
      · rw [trace_blank fun p _ hp => hapart.look_of_lt hp]
        exact silence_eq hcap
      · exact (Nat.max_eq_right hapart.le_endOf).symm

theorem getD_blockEnd (h : endOf lo buffer < 2 ^ 32) :
    (buffer.getLast?.map blockEnd).getD lo = endOf lo buffer := by
  rw [endOf_eq_getLast?] at h ⊢
  cases hlast : buffer.getLast? with
  | none => rfl
  | some last =>
    rw [hlast, map_some, getD_some] at h
    change u32 (last.1 + u32 last.2.length) = last.1 + last.2.length
    rw [u32_of_lt (n := last.2.length) (by omega), u32_of_lt h]

structure Tracks (next : Nat) (track : LegTrack) (placed : List (Nat × List UInt8)) : Prop where
  buffer : Placed next track.buffer
  bound : endOf next track.buffer < 2 ^ 32
  apart : Apart 0 placed
  behind : endOf 0 placed ≤ endOf next track.buffer
  same : ∀ p, next ≤ p → look track.buffer p = look placed p
  noDtmf : track.dtmfState = none

theorem Tracks.legEndTs (h : Tracks r.nextFlushTs (r.legs leg) placed) :
    r.legEndTs leg = endOf r.nextFlushTs (r.legs leg).buffer := by
  rw [Recorder.legEndTs, getD_blockEnd h.bound]
  exact Nat.max_eq_left h.buffer.apart.le_endOf

theorem Tracks.legMaxTs_le (h : Tracks r.nextFlushTs (r.legs leg) placed) :
    r.legMaxTs leg ≤ endOf r.nextFlushTs (r.legs leg).buffer := by
  rw [← getD_blockEnd h.bound, legMaxTs]
  cases (r.legs leg).buffer.getLast? with
  | none => exact Nat.zero_le _
  | some last => exact Nat.le_refl _

theorem Tracks.le_legMaxTs (h : Tracks r.nextFlushTs (r.legs leg) placed)
    (hmax : r.legMaxTs leg ≤ r.nextFlushTs) :
    endOf r.nextFlushTs (r.legs leg).buffer ≤ r.nextFlushTs := by
  rw [← getD_blockEnd h.bound]
  rw [legMaxTs] at hmax
  cases hlast : (r.legs leg).buffer.getLast? with
  | none => exact Nat.le_refl _
  | some last =>
    rw [hlast] at hmax
    exact hmax

theorem Tracks.insert (h : Tracks base track placed)
    (hpos : endOf base track.buffer ≤ pos) (hfits : pos + data.length < 2 ^ 32)
    (hbuffer : track'.buffer = Blocks.insert pos data track.buffer)
    (hdtmf : track'.dtmfState = track.dtmfState) :
    Tracks base track' (placed ++ [(pos, data)]) := by
  obtain ⟨hplaced, hend, hlook⟩ := h.buffer.insert hpos
  have hbehind := Nat.le_trans h.behind hpos
  rw [← hbuffer] at hplaced hend hlook
  refine ⟨hplaced, ?_, apart_concat.mpr ⟨h.apart, hbehind⟩, ?_, fun p hp => ?_,
    hdtmf.trans h.noDtmf⟩
  · rw [hend]
    exact hfits
  · exact Nat.le_of_eq (endOf_concat.trans hend.symm)
  · rw [hlook, h.apart.look_concat hbehind, h.same p hp]

theorem Tracks.flush (h : Tracks base track placed) (hle : base ≤ flushTo)
    (hto : flushTo < 2 ^ 32) (hcap : flushTo - base ≤ sampleRate * 10)
    (hbuffer : track'.buffer = (getLegData lib flushTo base track.buffer).2)
    (hdtmf : track'.dtmfState = track.dtmfState) :
    Tracks flushTo track' placed ∧ endOf flushTo track'.buffer =
        max flushTo (endOf base track.buffer) ∧ (getLegData lib flushTo base track.buffer).1 =
        trace (lib.encodeSample 0) (look placed) base flushTo := by
  obtain ⟨hout, hkept, hend, hlook⟩ := getLegData_spec h.buffer h.bound hle hcap
  rw [← hbuffer] at hkept hend hlook
  have hbound := h.bound
  have hbehind := h.behind
  refine ⟨⟨hkept, ?_, h.apart, ?_, fun p hp => ?_, hdtmf.trans h.noDtmf⟩, hend, ?_⟩
  · omega
  · omega
  · rw [hlook p hp, h.same p (Nat.le_trans hle hp)]
  · rw [hout]
    exact trace_congr fun p hp _ => h.same p hp

/-! ## The file -/

def leftLeg (r : Recorder) : LegSide :=
  if r.stereoSwap then .b else .a

def rightLeg (r : Recorder) : LegSide :=
  if r.stereoSwap then .a else .b

def channel (r : Recorder) (leg : LegSide) : List UInt8 :=
  if leg = r.leftLeg then Vec.left r.file else Vec.right r.file

/-- What was placed on a leg up to the next position, with silence in between. -/
def flushed (lib : AudioLib) (r : Recorder) (placed : List (Nat × List UInt8)) : List UInt8 :=
  trace (lib.encodeSample 0) (look placed) 0 r.nextFlushTs

/-- A stereo recorder whose file has what was placed on the legs up to the next position. -/
structure Records (lib : AudioLib) (r : Recorder) (placed : LegSide → List (Nat × List UInt8)) :
    Prop where
  tracks : ∀ leg, Tracks r.nextFlushTs (r.legs leg) (placed leg)
  file : r.file =
    Vec.interleave (r.flushed lib (placed r.leftLeg)) (r.flushed lib (placed r.rightLeg))
  dataSize : r.dataSize = .ofNat r.file.length
  writtenSamples : r.writtenSamples = r.nextFlushTs
  stereo : r.channels = 2

section

theorem Records.of_same (h : Records lib r placed)
    (hbuffer : ∀ leg, (r'.legs leg).buffer = (r.legs leg).buffer)
    (hdtmf : ∀ leg, (r'.legs leg).dtmfState = (r.legs leg).dtmfState)
    (hrest : r' = { r with legs := r'.legs, captureClock := r'.captureClock }) :
    Records lib r' placed := by
  have htracks : ∀ leg, Tracks r.nextFlushTs (r'.legs leg) (placed leg) := by
    intro leg
    obtain ⟨hplaced, hbound, hapart, hbehind, hsame, hnone⟩ := h.tracks leg
    rw [← hbuffer] at hplaced hbound hbehind hsame
    exact ⟨hplaced, hbound, hapart, hbehind, hsame, (hdtmf leg).trans hnone⟩
  rw [hrest]
  exact ⟨htracks, h.file, h.dataSize, h.writtenSamples, h.stereo⟩

theorem Records.insert (h : Records lib r placed)
    (hpos : endOf r.nextFlushTs (r.legs leg).buffer ≤ pos) (hfits : pos + data.length < 2 ^ 32)
    (hplaced : placed' leg = placed leg ++ [(pos, data)])
    (hother : ∀ l, l ≠ leg → placed' l = placed l) :
    Records lib (r.insertAudioBlock leg pos data) placed' := by
  have hflushed : ∀ l, flushed lib (r.insertAudioBlock leg pos data) (placed' l) =
      flushed lib r (placed l) := by
    intro l
    by_cases hl : l = leg
    · subst hl
      have hbehind := Nat.le_trans (h.tracks l).behind hpos
      have hstart := Nat.le_trans (h.tracks l).buffer.apart.le_endOf hpos
      rw [hplaced]
      apply trace_congr
      intro p _ hp
      have hp : p < r.nextFlushTs := hp
      rw [(h.tracks l).apart.look_concat hbehind, if_neg (by omega)]
    · rw [hother l hl]
      rfl
  refine ⟨fun l => ?_, ?_, h.dataSize, h.writtenSamples, h.stereo⟩
  · by_cases hl : l = leg
    · subst hl
      rw [hplaced]
      refine (h.tracks l).insert hpos hfits ?_ ?_
      · simp only [insertAudioBlock, modify, (h.tracks l).noDtmf]
        rfl
      · simp only [insertAudioBlock, modify, if_pos]
    · rw [hother l hl]
      have hsame : (r.insertAudioBlock leg pos data).legs l = r.legs l := if_neg hl
      rw [hsame]
      exact h.tracks l
  · rw [hflushed, hflushed]
    exact h.file

theorem assembleOutput_stereo (h : r.channels = 2) (data : LegSide → List UInt8) :
    r.assembleOutput lib (data .a) (data .b) =
      Vec.interleave (data r.leftLeg) (data r.rightLeg) := by
  rw [assembleOutput, h, leftLeg, rightLeg]
  cases r.stereoSwap with
  | true | false => rfl

theorem length_flushed : (r.flushed lib placed).length = r.nextFlushTs := by
  rw [flushed, length_trace, Nat.sub_zero]

theorem Records.writeOut (h : Records lib r placed) (hto : r.nextFlushTs + flushLen < 2 ^ 32)
    (hcap : flushLen ≤ sampleRate * 10) : Records lib (r.writeOut lib flushLen) placed ∧
      (r.writeOut lib flushLen).nextFlushTs = r.nextFlushTs + flushLen ∧
      ∀ leg, endOf (r.nextFlushTs + flushLen) ((r.writeOut lib flushLen).legs leg).buffer =
        max (r.nextFlushTs + flushLen) (endOf r.nextFlushTs (r.legs leg).buffer) := by
  have hnext := u32_of_lt hto
  have hspec : ∀ leg, Tracks (r.nextFlushTs + flushLen) ((r.writeOut lib flushLen).legs leg)
      (placed leg) ∧ endOf (r.nextFlushTs + flushLen) ((r.writeOut lib flushLen).legs leg).buffer =
        max (r.nextFlushTs + flushLen) (endOf r.nextFlushTs (r.legs leg).buffer) ∧
      (getLegData lib (r.nextFlushTs + flushLen) r.nextFlushTs (r.legs leg).buffer).1 =
        trace (lib.encodeSample 0) (look (placed leg)) r.nextFlushTs
          (r.nextFlushTs + flushLen) := by
    intro leg
    refine (h.tracks leg).flush (Nat.le_add_right _ _) hto ?_ ?_ rfl
    · rw [Nat.add_sub_cancel_left]
      exact hcap
    · rw [← hnext]
      rfl
  have hflushed : ∀ leg, (r.writeOut lib flushLen).flushed lib (placed leg) =
      r.flushed lib (placed leg) ++
        (getLegData lib (u32 (r.nextFlushTs + flushLen)) r.nextFlushTs (r.legs leg).buffer).1 := by
    intro leg
    rw [hnext, (hspec leg).2.2, flushed, flushed,
      trace_append (Nat.zero_le _) (Nat.le_add_right _ _), ← hnext]
    rfl
  have hfile : (r.writeOut lib flushLen).file = r.file ++ Vec.interleave
      (getLegData lib (u32 (r.nextFlushTs + flushLen)) r.nextFlushTs (r.legs r.leftLeg).buffer).1
      (getLegData lib (u32 (r.nextFlushTs + flushLen)) r.nextFlushTs
        (r.legs r.rightLeg).buffer).1 :=
    congrArg (r.file ++ ·) (assembleOutput_stereo h.stereo fun leg =>
      (getLegData lib (u32 (r.nextFlushTs + flushLen)) r.nextFlushTs (r.legs leg).buffer).1)
  refine ⟨⟨fun leg => ?_, ?_, ?_, ?_, h.stereo⟩, hnext, fun leg => (hspec leg).2.1⟩
  · change Tracks (u32 (r.nextFlushTs + flushLen)) _ _
    rw [hnext]
    exact (hspec leg).1
  · change _ = Vec.interleave (flushed lib _ (placed r.leftLeg)) (flushed lib _ (placed r.rightLeg))
    have hlength : (r.flushed lib (placed r.leftLeg)).length =
        (r.flushed lib (placed r.rightLeg)).length := by
      rw [length_flushed, length_flushed]
    rw [hfile, hflushed, hflushed, Vec.interleave_append hlength, ← h.file]
  · change r.dataSize + UInt32.ofNat _ = UInt32.ofNat (r.file ++ _).length
    rw [h.dataSize, length_append, UInt32.ofNat_add]
  · change r.writtenSamples + flushLen = u32 (r.nextFlushTs + flushLen)
    rw [hnext, h.writtenSamples]

theorem flushTarget_le (h : r.flushTarget finalFlush = some target) :
    target ≤ max (r.legMaxTs .a) (r.legMaxTs .b) := by
  unfold flushTarget at h
  dsimp only at h
  split at h
  · cases h
    exact Nat.le_refl _
  · split at h
    · cases h
      cases r.captureClock with
      | none => exact Nat.le_refl _
      | some clock => exact Nat.min_le_left _ _
    · split at h
      · cases h
        omega
      · split at h
        · cases h
          exact Nat.le_refl _
        · cases h

def endTs (r : Recorder) : Nat :=
  max (endOf r.nextFlushTs (r.legs .a).buffer) (endOf r.nextFlushTs (r.legs .b).buffer)

theorem Records.endTs_lt (h : Records lib r placed) : r.endTs < 2 ^ 32 :=
  Nat.max_lt.mpr ⟨(h.tracks .a).bound, (h.tracks .b).bound⟩

theorem Records.maxTs_le (h : Records lib r placed) :
    max (r.legMaxTs .a) (r.legMaxTs .b) ≤ r.endTs := by
  have ha := (h.tracks .a).legMaxTs_le
  have hb := (h.tracks .b).legMaxTs_le
  rw [endTs]
  omega

theorem flush_cases : (r.flush lib finalFlush = r ∧
      (finalFlush = true → max (r.legMaxTs .a) (r.legMaxTs .b) ≤ r.nextFlushTs)) ∨
    ∃ flushLen, 0 < flushLen ∧ flushLen ≤ sampleRate * 10 ∧
      r.nextFlushTs + flushLen ≤ max (r.legMaxTs .a) (r.legMaxTs .b) ∧
      r.flush lib finalFlush = r.writeOut lib flushLen := by
  unfold flush
  cases htarget : r.flushTarget finalFlush with
  | none =>
    refine .inl ⟨rfl, ?_⟩
    rintro rfl
    cases htarget
  | some target =>
    have hle := flushTarget_le htarget
    dsimp only
    split
    next hdone =>
      refine .inl ⟨rfl, ?_⟩
      rintro rfl
      cases htarget
      exact hdone
    next =>
      refine .inr ⟨_, ?_, Nat.min_le_right _ _, ?_, rfl⟩
      · rw [sampleRate]
        omega
      · omega

section

variable (h : Records lib r placed)
include h

theorem Records.flush (finalFlush : Bool) : Records lib (r.flush lib finalFlush) placed := by
  have hmax := h.maxTs_le
  have hlt := h.endTs_lt
  obtain ⟨hsame, -⟩ | ⟨flushLen, -, hcap, hle, hflush⟩ := flush_cases
  · rw [hsame]
    exact h
  · rw [hflush]
    exact (h.writeOut (by omega) hcap).1

theorem Records.finalize_done (hsame : r.flush lib true = r)
    (hdone : max (r.legMaxTs .a) (r.legMaxTs .b) ≤ r.nextFlushTs) :
    ∃ r', finalize lib (n + 1) r = some r' ∧ Records lib r' placed ∧
      ∀ leg, endOf r'.nextFlushTs (r'.legs leg).buffer ≤ r'.nextFlushTs := by
  refine ⟨r, ?_, h, fun leg => (h.tracks leg).le_legMaxTs ?_⟩
  · rw [Recorder.finalize, hsame]
    exact if_pos rfl
  · cases leg with
    | a => exact Nat.le_trans (Nat.le_max_left _ _) hdone
    | b => exact Nat.le_trans (Nat.le_max_right _ _) hdone

/-- **Finalizing comes to an end** with nothing left in the buffers. -/
theorem Records.finalize (hn : r.endTs - r.nextFlushTs ≤ n) :
    ∃ r', finalize lib (n + 1) r = some r' ∧ Records lib r' placed ∧
      ∀ leg, endOf r'.nextFlushTs (r'.legs leg).buffer ≤ r'.nextFlushTs := by
  -- Each round but the last moves the next position closer to the end.
  induction n generalizing r with
  | zero =>
    obtain ⟨hsame, hdone⟩ | ⟨flushLen, hpos, -, hle, -⟩ := flush_cases
    · exact h.finalize_done hsame (hdone rfl)
    · have := h.maxTs_le
      omega
  | succ n ih =>
    obtain ⟨hsame, hdone⟩ | ⟨flushLen, hpos, hcap, hle, hflush⟩ := flush_cases
    · exact h.finalize_done hsame (hdone rfl)
    · have hmax := h.maxTs_le
      have hlt := h.endTs_lt
      have hto : r.nextFlushTs + flushLen < 2 ^ 32 := by omega
      obtain ⟨hrecords, hnext, hend⟩ := h.writeOut hto hcap
      have hendTs : (r.writeOut lib flushLen).endTs = r.endTs := by
        rw [endTs, hnext, hend, hend, endTs]
        rw [endTs] at hmax
        omega
      obtain ⟨r', hfinal, hr'⟩ := ih hrecords (by omega)
      refine ⟨r', ?_, hr'⟩
      rw [Recorder.finalize, hflush, if_neg (by omega)]
      exact hfinal

theorem Records.channel_eq : r.channel leg = r.flushed lib (placed leg) := by
  have hlength : (r.flushed lib (placed r.leftLeg)).length =
      (r.flushed lib (placed r.rightLeg)).length := by
    rw [length_flushed, length_flushed]
  rw [channel, h.file]
  split
  next hleft => rw [Vec.left_interleave hlength, hleft]
  next hleft =>
    have hright : leg = r.rightLeg := by
      rw [leftLeg] at hleft
      rw [rightLeg]
      cases leg <;> cases hswap : r.stereoSwap <;> simp_all
    rw [Vec.right_interleave hlength, hright]

theorem Records.slice_channel (hdone : endOf r.nextFlushTs (r.legs leg).buffer ≤ r.nextFlushTs)
    (hmem : (pos, data) ∈ placed leg) :
    ((r.channel leg).drop pos).take data.length = data := by
  cases hdata : data with
  | nil => rfl
  | cons byte bytes =>
    rw [← hdata]
    have hread := fun p => (h.tracks leg).apart.look_of_mem (p := p) hmem
    have hlength : 0 < data.length := by
      rw [hdata]
      exact Nat.succ_pos _
    have hto : pos + data.length ≤ r.nextFlushTs := by
      by_contra hover
      -- Otherwise the last byte of the frame would still be in the buffer.
      have hlast := hread (pos + (data.length - 1)) (by omega) (by omega)
      rw [← (h.tracks leg).same _ (by omega), (h.tracks leg).buffer.apart.look_of_end_le (by omega),
        getElem?_eq_getElem (by omega)] at hlast
      cases hlast
    have hframe : trace (lib.encodeSample 0) (look (placed leg)) pos (pos + data.length) =
        data.take (pos + data.length - pos) := trace_block hread (Nat.le_refl _)
    rw [Nat.add_sub_cancel_left, take_length] at hframe
    rw [h.channel_eq, flushed, ← trace_append (Nat.zero_le pos) (by omega : pos ≤ r.nextFlushTs),
      ← trace_append (Nat.le_add_right pos data.length) hto, hframe,
      drop_left' (length_trace.trans (Nat.sub_zero pos)), take_left' rfl]

theorem Records.silent_channel (hp : p < (r.channel leg).length)
    (hfree : ∀ b ∈ placed leg, ¬ (b.1 ≤ p ∧ p < b.1 + b.2.length)) :
    (r.channel leg)[p]? = some (lib.encodeSample 0) := by
  rw [h.channel_eq] at hp ⊢
  rw [length_flushed] at hp
  rw [flushed, getElem?_trace (by omega), Nat.zero_add, look_of_uncovered hfree]
  rfl

end

/-! ## Writing a frame -/

theorem legEndTs_le_recordingPosition : r.legEndTs leg ≤ r.recordingPosition leg captureTs := by
  cases captureTs with
  | none => exact Nat.le_refl _
  | some captureTs => exact Nat.le_max_left _ _

theorem Records.position (h : Records lib r placed) (leg : LegSide) (rtpTimestamp : UInt32)
    (rtpClockRate : Nat) (captureTs : Option Nat) :
    Records lib (r.rtpAnchoredPosition leg rtpTimestamp rtpClockRate captureTs).2 placed ∧
      endOf (r.rtpAnchoredPosition leg rtpTimestamp rtpClockRate captureTs).2.nextFlushTs
          ((r.rtpAnchoredPosition leg rtpTimestamp rtpClockRate captureTs).2.legs leg).buffer ≤
        (r.rtpAnchoredPosition leg rtpTimestamp rtpClockRate captureTs).1 := by
  have hend := (h.tracks leg).legEndTs
  have hbuffer : ∀ pos l,
      ((r.setRtpAnchor leg rtpTimestamp pos rtpClockRate).legs l).buffer = (r.legs l).buffer := by
    intro pos l
    by_cases hl : l = leg <;> simp [setRtpAnchor, modify, hl]
  have hanchored : ∀ pos,
      Records lib (r.setRtpAnchor leg rtpTimestamp pos rtpClockRate) placed := by
    intro pos
    refine h.of_same (hbuffer pos) (fun l => ?_) rfl
    by_cases hl : l = leg <;> simp [setRtpAnchor, modify, hl]
  unfold rtpAnchoredPosition
  split
  next =>
    refine ⟨hanchored _, ?_⟩
    rw [hbuffer]
    exact Nat.le_trans (Nat.le_of_eq hend.symm) legEndTs_le_recordingPosition
  next =>
    dsimp only
    split
    · refine ⟨hanchored _, ?_⟩
      rw [hbuffer]
      exact Nat.le_of_eq hend.symm
    · refine ⟨h, ?_⟩
      rw [← hend]
      exact Nat.le_max_left _ _

/-- It has not the payload type of telephone events, and is PCMU by the caller, the negotiation or
its payload type. -/
def Sample.IsPcmu (lib : AudioLib) (r : Recorder) (sample : Sample) : Prop :=
  sample.hasDtmfPayloadType r = false ∧
    (sample.hint r).or (lib.codecOf (sample.frame.payloadType.getD 0)) = some .pcmu

/-- The frame is not taken for a telephone event because of its length and its first byte, nor for
redundant audio because of its first bytes. -/
def Sample.Plain (r : Recorder) (sample : Sample) : Prop :=
  sample.looksLikeDtmf r = false ∧
    ((sample.hint r).isSome ∨ redPrimary (sample.audioPayloadType r) sample.frame.payload = none)

theorem Sample.Plain.encoded {sample : Sample} (h : sample.Plain r) :
    sample.encoded r = (sample.hint r, sample.frame.payload) := by
  rw [Sample.encoded]
  cases hhint : sample.hint r with
  | some codec => rfl
  | none =>
    obtain hsome | hred := h.2
    · rw [hhint] at hsome
      cases hsome
    · rw [hred]

theorem captureTimestamp_eq :
    ∃ captureClock, (r.captureTimestamp receivedAtMicros).2 = { r with captureClock } := by
  unfold captureTimestamp
  split
  · exact ⟨r.captureClock, rfl⟩
  · exact ⟨_, rfl⟩

theorem write_pcmu {sample : Sample} (hpcmu : sample.IsPcmu lib r) (hplain : sample.Plain r) :
    ∃ captureClock captureTs rtpClockRate,
      let placed := rtpAnchoredPosition { r with captureClock } sample.leg
        sample.frame.rtpTimestamp rtpClockRate captureTs
      let inserted := placed.2.insertAudioBlock sample.leg placed.1 sample.frame.payload
      r.write lib sample =
        (some placed.1, if sample.flushes then inserted.flush lib false else inserted) := by
  obtain ⟨captureClock, hclock⟩ := captureTimestamp_eq
  refine ⟨captureClock, (r.captureTimestamp sample.receivedAtMicros).1,
    sample.rtpClockRate r .pcmu, ?_⟩
  have hdtmf : sample.hasDtmfPayloadType { r with captureClock } = false := hpcmu.1
  have hlooks : sample.looksLikeDtmf { r with captureClock } = false := hplain.1
  have hencoded : sample.encoded { r with captureClock } =
      (sample.hint r, sample.frame.payload) := hplain.encoded
  unfold write
  dsimp only
  rw [hclock, hdtmf, hlooks, hencoded, if_neg Bool.false_ne_true]
  rw [hpcmu.2]
  rfl

theorem Records.write (h : Records lib r placed) (hpcmu : sample.IsPcmu lib r)
    (hplain : sample.Plain r) (hfits : ∀ pos, (r.write lib sample).1 = some pos →
      pos + sample.frame.payload.length < 2 ^ 32) : ∃ pos, (r.write lib sample).1 = some pos ∧
      ∀ placed', placed' sample.leg = placed sample.leg ++ [(pos, sample.frame.payload)] →
        (∀ l, l ≠ sample.leg → placed' l = placed l) →
        Records lib (r.write lib sample).2 placed' := by
  obtain ⟨captureClock, captureTs, rtpClockRate, hwrite⟩ := write_pcmu hpcmu hplain
  rw [hwrite] at hfits ⊢
  refine ⟨_, rfl, fun placed' hleg hother => ?_⟩
  have hclocked : Records lib { r with captureClock } placed :=
    h.of_same (fun _ => rfl) (fun _ => rfl) rfl
  obtain ⟨hplaced, hpos⟩ :=
    hclocked.position sample.leg sample.frame.rtpTimestamp rtpClockRate captureTs
  have hinserted := hplaced.insert hpos (hfits _ rfl) hleg hother
  split
  · exact hinserted.flush false
  · exact hinserted

end

/-! ## Sessions -/

structure Written where
  leg : LegSide
  position : Option Nat
  payload : List UInt8
  deriving DecidableEq

structure Session where
  recorder : Recorder
  frames : List Written

namespace Session

inductive Action where
  | write (sample : Sample)
  | flush
  | resume

def step (lib : AudioLib) (s : Session) : Action → Session
  | .write sample =>
    let (position, recorder) := s.recorder.write lib sample
    ⟨recorder, s.frames ++ [⟨sample.leg, position, sample.frame.payload⟩]⟩
  | .flush => { s with recorder := s.recorder.flush lib false }
  | .resume => { s with recorder := s.recorder.resumeCaptureClock }

def Runs (lib : AudioLib) (C : Session → Action → Prop) : Session → Session → Prop :=
  Relation.ReflTransGen fun s s' => ∃ action, C s action ∧ s.step lib action = s'

def start (profile : NegotiatedLegProfile) (stereoSwap monoCallerOnly : Bool) : Session :=
  ⟨.new profile 2 stereoSwap monoCallerOnly, []⟩

def placedOn (frames : List Written) (leg : LegSide) : List (Nat × List UInt8) :=
  frames.filterMap fun w => if w.leg = leg then w.position.map (·, w.payload) else none

/-- Only PCMU frames are written, and they are placed below 2^32. -/
def Pcmu (lib : AudioLib) (s : Session) : Action → Prop
  | .write sample => sample.IsPcmu lib s.recorder ∧
      ∀ pos, (s.recorder.write lib sample).1 = some pos → pos + sample.frame.payload.length < 2 ^ 32
  | _ => True

/-- No frame that is written is taken for something else. -/
def Plain (s : Session) : Action → Prop
  | .write sample => sample.Plain s.recorder
  | _ => True

/-- The file of a recorder: every frame at its position, and silence elsewhere. -/
structure Recorded (lib : AudioLib) (r : Recorder) (frames : List Written) : Prop where
  frame : ∀ w ∈ frames, ∃ pos, w.position = some pos ∧
    ((r.channel w.leg).drop pos).take w.payload.length = w.payload
  silent : ∀ leg p, p < (r.channel leg).length →
    (∀ w ∈ frames, w.leg = leg → ∀ pos, w.position = some pos →
      ¬ (pos ≤ p ∧ p < pos + w.payload.length)) →
    (r.channel leg)[p]? = some (lib.encodeSample 0)
  length : ∀ leg, (r.channel leg).length = r.writtenSamples
  dataSize : r.dataSize = .ofNat r.file.length

/-- The recorder has the frames of the session, each of which has a position. -/
structure Holds (lib : AudioLib) (s : Session) : Prop where
  records : Records lib s.recorder (placedOn s.frames)
  positions : ∀ w ∈ s.frames, w.position.isSome

theorem holds_start (profile : NegotiatedLegProfile) (stereoSwap monoCallerOnly : Bool) :
    Holds lib (start profile stereoSwap monoCallerOnly) where
  records := by
    refine ⟨fun leg => ?_, ?_, rfl, rfl, rfl⟩
    · exact ⟨⟨trivial, List.Pairwise.nil⟩, Nat.two_pow_pos 32, trivial, Nat.le_refl _,
        fun _ _ => rfl, rfl⟩
    · rfl
  positions := nofun

theorem Holds.step (h : Holds lib s) (hpcmu : Pcmu lib s action) (hplain : Plain s action) :
    Holds lib (s.step lib action) := by
  cases action with
  | write sample =>
    obtain ⟨pos, hpos, hrecords⟩ := h.records.write hpcmu.1 hplain hpcmu.2
    have hplaced : ∀ l, placedOn (s.frames ++ [⟨sample.leg, (s.recorder.write lib sample).1,
        sample.frame.payload⟩]) l = placedOn s.frames l ++
          if sample.leg = l then [(pos, sample.frame.payload)] else [] := by
      intro l
      rw [placedOn, hpos]
      by_cases hl : sample.leg = l <;> simp [placedOn, hl]
    refine ⟨hrecords _ ?_ fun l hl => ?_, fun w hw => ?_⟩
    · refine (hplaced sample.leg).trans ?_
      rw [if_pos rfl]
    · refine (hplaced l).trans ?_
      rw [if_neg (Ne.symm hl), append_nil]
    · obtain hw | hw := mem_append.mp hw
      · exact h.positions w hw
      · cases mem_singleton.mp hw
        exact isSome_of_eq_some hpos
  | flush => exact ⟨h.records.flush false, h.positions⟩
  | resume => exact ⟨h.records.of_same (fun _ => rfl) (fun _ => rfl) rfl, h.positions⟩

theorem Runs.holds (hfirst : Holds lib first)
    (h : Runs lib (fun s action => Pcmu lib s action ∧ Plain s action) first s) : Holds lib s := by
  induction h with
  | refl => exact hfirst
  | tail _ hstep ih =>
    obtain ⟨action, ⟨hpcmu, hplain⟩, rfl⟩ := hstep
    exact ih.step hpcmu hplain

theorem mem_placed {frames : List Written} {pos : Nat} (hw : w ∈ frames)
    (hpos : w.position = some pos) : (pos, w.payload) ∈ placedOn frames w.leg := by
  refine mem_filterMap.mpr ⟨w, hw, ?_⟩
  rw [if_pos rfl, hpos]
  rfl

theorem recorded_of_records {frames : List Written}
    (h : Records lib r (placedOn frames)) (hpositions : ∀ w ∈ frames, w.position.isSome)
    (hdone : ∀ leg, endOf r.nextFlushTs (r.legs leg).buffer ≤ r.nextFlushTs) :
    Recorded lib r frames where
  frame w hw := by
    obtain ⟨pos, hpos⟩ := isSome_iff_exists.mp (hpositions w hw)
    exact ⟨pos, hpos, h.slice_channel (hdone w.leg) (mem_placed hw hpos)⟩
  silent leg p hp hfree := by
    apply h.silent_channel hp
    intro b hb
    obtain ⟨w, hw, hb⟩ := mem_filterMap.mp hb
    split at hb
    next hleg =>
      obtain ⟨pos, hpos, rfl⟩ := map_eq_some_iff.mp hb
      exact hfree w hw hleg pos hpos
    next => cases hb
  length leg := by
    rw [h.channel_eq, length_flushed, h.writtenSamples]
  dataSize := h.dataSize

/-- **What is recorded.** After `Plain` PCMU frames, with flushes and pauses at any time, finalizing
comes to an end and the file has every frame at its position. -/
theorem frames_recorded (lib : AudioLib) (profile : NegotiatedLegProfile)
    (stereoSwap monoCallerOnly : Bool) {s : Session}
    (h : Runs lib (fun s action => Pcmu lib s action ∧ Plain s action)
      (start profile stereoSwap monoCallerOnly) s) :
    ∃ fuel r, finalize lib fuel s.recorder = some r ∧ Recorded lib r s.frames := by
  have hholds := Runs.holds (holds_start profile stereoSwap monoCallerOnly) h
  obtain ⟨r, hfinal, hrecords, hdone⟩ := hholds.records.finalize (Nat.le_refl _)
  exact ⟨_, r, hfinal, recorded_of_records hrecords hholds.positions hdone⟩

def silentLib : AudioLib where
  codecOf payloadType :=
    if payloadType = 0 then some .pcmu else if payloadType = 8 then some .pcma else none
  encodeSample _ := 0xff
  decodeSample _ := 0
  tone _ _ := 0

def pcmuSample (leg : LegSide) (payload : List UInt8) (receivedAtMicros : Nat)
    (transcode : CodecType → List UInt8 → List UInt8) : Sample where
  leg
  frame := ⟨0, 0, payload, some 0, some payload⟩
  dtmfPt := none
  dtmfClockRate := none
  codecHint := none
  profile := none
  receivedAtMicros
  transcode
  flushes := false

def pcmaProfile : NegotiatedLegProfile :=
  ⟨some ⟨.pcma, 8, 8000⟩, some ⟨.telephoneEvent, 101, 8000⟩⟩

theorem Runs.write (h : Runs lib C first s) (sample : Sample)
    (hc : C s (.write sample)) : Runs lib C first (s.step lib (.write sample)) :=
  h.tail ⟨.write sample, hc, rfl⟩

theorem fits_of_position (h : (r.write lib sample).1 = some p)
    (hp : p + sample.frame.payload.length < 2 ^ 32) (pos : Nat)
    (hpos : (r.write lib sample).1 = some pos) :
    pos + sample.frame.payload.length < 2 ^ 32 := by
  rw [h] at hpos
  cases hpos
  exact hp

theorem frames_recorded_two : ∃ s : Session,
    s.frames = [⟨.a, some 0, [0x10, 0x20, 0x30]⟩, ⟨.b, some 8, [0x40, 0x50]⟩] ∧
    ∃ fuel r, finalize silentLib fuel s.recorder = some r ∧ Recorded silentLib r s.frames := by
  let first := start pcmaProfile false false
  let a := pcmuSample .a [0x10, 0x20, 0x30] 1000 fun _ bytes => bytes
  let b := pcmuSample .b [0x40, 0x50] 2000 fun _ bytes => bytes
  have ha : (first.recorder.write silentLib a).1 = some 0 := by decide +kernel
  have hb : ((first.step silentLib (.write a)).recorder.write silentLib b).1 = some 8 := by
    decide +kernel
  have hruns : Runs silentLib (fun s action => Pcmu silentLib s action ∧ Plain s action) first
      ((first.step silentLib (.write a)).step silentLib (.write b)) :=
    Runs.write (Runs.write .refl a ⟨⟨⟨rfl, rfl⟩, fits_of_position ha (by decide)⟩, rfl, .inr rfl⟩) b
      ⟨⟨⟨rfl, rfl⟩, fits_of_position hb (by decide)⟩, rfl, .inr rfl⟩
  exact ⟨_, by decide +kernel, frames_recorded silentLib pcmaProfile false false hruns⟩

/-- A PCMU packet whose first byte is the payload type of PCMA. The others, read as PCMA, are 0x3a
and 0x08 in PCMU. -/
def lookalike : Sample :=
  pcmuSample .b [0x08, 0x11, 0x22] 1000 fun _ _ => [0x3a, 0x08]

/-- A PCMU packet is taken for redundant audio when its first byte is the payload type of the
negotiated PCMA: the byte is cut off and the rest is decoded as PCMA. -/
theorem pcmu_taken_for_red :
    ∃ s, Runs silentLib (Pcmu silentLib) (start pcmaProfile false false) s ∧
      s.frames = [⟨.b, some 0, [0x08, 0x11, 0x22]⟩] ∧
      ∃ fuel r, finalize silentLib fuel s.recorder = some r ∧ r.channel .b = [0x3a, 0x08] ∧
        ¬ Recorded silentLib r s.frames := by
  let s := (start pcmaProfile false false).step silentLib (.write lookalike)
  have hpos : ((start pcmaProfile false false).recorder.write silentLib lookalike).1 = some 0 := by
    decide +kernel
  have hruns : Runs silentLib (Pcmu silentLib) (start pcmaProfile false false) s :=
    Runs.write .refl lookalike ⟨⟨rfl, rfl⟩, fits_of_position hpos (by decide)⟩
  have hframes : s.frames = [⟨.b, some 0, [0x08, 0x11, 0x22]⟩] := by decide +kernel
  have hchannel : (finalize silentLib 2 s.recorder).map (channel · .b) = some [0x3a, 0x08] := by
    decide +kernel
  obtain ⟨r, hfinal, hchannel⟩ := map_eq_some_iff.mp hchannel
  refine ⟨s, hruns, hframes, 2, r, hfinal, hchannel, fun hrecorded => ?_⟩
  rw [hframes] at hrecorded
  obtain ⟨pos, hplaced, hslice⟩ := hrecorded.frame _ (mem_singleton_self _)
  cases hplaced
  rw [hchannel] at hslice
  cases hslice

end Session

end RustPbx.Media.Recorder
