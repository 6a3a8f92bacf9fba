import RustPbx.Lib.Wrap32
import RustPbx.Media.Recording

/-!
The RTP timeline of one leg of a recording, at any output rate.

`Timeline.place` is the placement of a packet as the recorder computes it, with what the recorder
has at that moment given by the arrival. At 8000 samples per second it is
`Recorder.rtpAnchoredPosition`. A packet more than ten minutes of samples after the anchor becomes
the new anchor at the end of the leg's data, wherever it belongs.
-/

namespace RustPbx.Media.Recorder

open List

structure Timeline where
  sampleRate : Nat
  /-- An RTP timestamp, the position it has, and the clock rate. -/
  anchor : Option (UInt32 × Nat × Nat)

/-- A packet by the sender's clock, and what the recorder has for the leg when it comes in. -/
structure Arrival where
  ticks : Nat
  legEnd : Nat
  started : Bool
  captureTs : Option Nat

namespace Timeline

def rtpTimestamp (a : Arrival) : UInt32 := .ofNat a.ticks

section

variable (t : Timeline)

def recordingPosition (a : Arrival) : Nat :=
  match a.captureTs with
  | none => a.legEnd
  | some captureTs =>
    let tolerance := t.sampleRate * captureDriftToleranceMs / 1000
    max a.legEnd (if a.started then captureTs - tolerance else captureTs)

def place (rtpClockRate : Nat) (a : Arrival) : Nat × Timeline :=
  match t.anchor.filter (·.2.2 == rtpClockRate) with
  | none =>
    let pos := t.recordingPosition a
    (pos, { t with anchor := some (rtpTimestamp a, pos, rtpClockRate) })
  | some (anchorTs, anchorPos, _) =>
    let delta :=
      min ((rtpTimestamp a - anchorTs).toNat * t.sampleRate / rtpClockRate) (2 ^ 32 - 1)
    if delta > t.sampleRate * 600 then
      (a.legEnd, { t with anchor := some (rtpTimestamp a, a.legEnd, rtpClockRate) })
    else (max a.legEnd (u32 (anchorPos + delta)), t)

def positions (t : Timeline) (rtpClockRate : Nat) : List Arrival → List Nat
  | [] => []
  | a :: stream =>
    (t.place rtpClockRate a).1 :: (t.place rtpClockRate a).2.positions rtpClockRate stream

theorem rtpAnchoredPosition_eq (r : Recorder) (leg : LegSide) (rtpClockRate ticks : Nat)
    (captureTs : Option Nat) : r.rtpAnchoredPosition leg (.ofNat ticks) rtpClockRate captureTs =
      let placed := place ⟨Recorder.sampleRate, (r.legs leg).rtpAnchor⟩ rtpClockRate
        ⟨ticks, r.legEndTs leg, (r.legs leg).started, captureTs⟩
      (placed.1, r.modify leg ({ · with rtpAnchor := placed.2.anchor })) := by
  have hsame : ∀ anchor, (r.legs leg).rtpAnchor = anchor →
      r.modify leg ({ · with rtpAnchor := anchor }) = r := by
    intro anchor hanchor
    have hlegs : (r.modify leg ({ · with rtpAnchor := anchor })).legs = r.legs := by
      funext l
      by_cases hl : l = leg
      · simp [modify, hl, ← hanchor]
      · simp [modify, hl]
    exact congrArg (fun legs => { r with legs }) hlegs
  have hpos : r.recordingPosition leg captureTs = recordingPosition
      ⟨Recorder.sampleRate, (r.legs leg).rtpAnchor⟩
      ⟨ticks, r.legEndTs leg, (r.legs leg).started, captureTs⟩ := by
    cases captureTs <;> rfl
  simp only [rtpAnchoredPosition, place]
  cases hanchor : (r.legs leg).rtpAnchor.filter (·.2.2 == rtpClockRate) with
  | none => rfl
  | some anchor =>
    dsimp only [rtpTimestamp]
    split
    next hfar =>
      simp only [hfar]
      rfl
    next hnear =>
      simp only [hnear, if_false]
      rw [hsame _ rfl]

/-! ## A stream -/

def samples (rtpClockRate start finish : Nat) : Nat :=
  (finish - start) * t.sampleRate / rtpClockRate

/-- Where a packet of a stream belongs: as long after the first packet as it was sent after it. -/
def due (rtpClockRate : Nat) (first a : Arrival) : Nat :=
  t.recordingPosition first + t.samples rtpClockRate first.ticks a.ticks

def nearAnchor (rtpClockRate : Nat) (a : Arrival) : Bool :=
  t.anchor.all fun anchor =>
    min ((rtpTimestamp a - anchor.1).toNat * t.sampleRate / rtpClockRate) (2 ^ 32 - 1) ≤
      t.sampleRate * 600

end

/-- No packet belongs beyond 2^32, and one that is not near the anchor belongs at the end of the
leg's data, a whole number of samples after the first packet. -/
def steady (t₀ : Timeline) (rtpClockRate : Nat) (first : Arrival) : Timeline → List Arrival → Bool
  | _, [] => true
  | t, a :: stream =>
    decide (t₀.due rtpClockRate first a < 2 ^ 32) &&
      (t.nearAnchor rtpClockRate a || (a.legEnd == t₀.due rtpClockRate first a &&
        (a.ticks - first.ticks) * t₀.sampleRate % rtpClockRate == 0)) &&
      steady t₀ rtpClockRate first (t.place rtpClockRate a).2 stream

/-- The timeline is anchored at the position of an instant of the sender's clock, a whole number of
samples after the first packet. -/
structure Anchored (t₀ : Timeline) (rtpClockRate : Nat) (first : Arrival) (t : Timeline)
    (ticks : Nat) : Prop where
  sampleRate : t.sampleRate = t₀.sampleRate
  anchor : t.anchor = some (.ofNat ticks,
    t₀.recordingPosition first + t₀.samples rtpClockRate first.ticks ticks, rtpClockRate)
  first_le : first.ticks ≤ ticks
  whole : rtpClockRate ∣ (ticks - first.ticks) * t₀.sampleRate

section

variable {t : Timeline}

theorem legEnd_le_recordingPosition : a.legEnd ≤ t.recordingPosition a := by
  unfold recordingPosition
  split
  · exact Nat.le_refl _
  · exact Nat.le_max_left _ _

theorem samples_add (hrate : 0 < rtpClockRate) (hstart : start ≤ middle)
    (hfinish : middle ≤ finish) (hwhole : rtpClockRate ∣ (middle - start) * t.sampleRate) :
    t.samples rtpClockRate start middle + t.samples rtpClockRate middle finish =
      t.samples rtpClockRate start finish := by
  have hsplit : (finish - start) * t.sampleRate =
      (middle - start) * t.sampleRate + (finish - middle) * t.sampleRate := by
    rw [← Nat.add_mul]
    congr 1
    omega
  obtain ⟨whole, hwhole⟩ := hwhole
  rw [samples, samples, samples, hsplit, hwhole, Nat.mul_add_div hrate,
    Nat.mul_div_cancel_left _ hrate]

section

variable (h : Anchored t₀ rtpClockRate first t ticks)
include h

theorem Anchored.toNat_sub (hticks : ticks ≤ a.ticks)
    (hspan : a.ticks - first.ticks < 2 ^ 32) :
    (rtpTimestamp a - UInt32.ofNat ticks).toNat = a.ticks - ticks := by
  refine Wrap32.toNat_ofNat_sub hticks ?_
  have := h.first_le
  omega

theorem Anchored.place_near (hrate : 0 < rtpClockRate)
    (hticks : ticks ≤ a.ticks) (hspan : a.ticks - first.ticks < 2 ^ 32)
    (hfits : t₀.due rtpClockRate first a < 2 ^ 32) (hnear : t.nearAnchor rtpClockRate a = true) :
    t.place rtpClockRate a = (max a.legEnd (t₀.due rtpClockRate first a), t) := by
  have hdelta := h.toNat_sub hticks hspan
  have hdue : t₀.recordingPosition first + t₀.samples rtpClockRate first.ticks ticks +
      (a.ticks - ticks) * t₀.sampleRate / rtpClockRate = t₀.due rtpClockRate first a := by
    rw [due, ← samples_add hrate h.first_le hticks h.whole, Nat.add_assoc]
    rfl
  have hmin : min ((a.ticks - ticks) * t₀.sampleRate / rtpClockRate) (2 ^ 32 - 1) =
      (a.ticks - ticks) * t₀.sampleRate / rtpClockRate := by omega
  have hlimit : (a.ticks - ticks) * t₀.sampleRate / rtpClockRate ≤ t₀.sampleRate * 600 := by
    simpa only [nearAnchor, h.anchor, Option.all_some, hdelta, h.sampleRate, hmin,
      decide_eq_true_eq] using hnear
  simp only [place, h.anchor, Option.filter_some, BEq.rfl, if_true, hdelta, h.sampleRate, hmin,
    hdue, u32_of_lt hfits]
  rw [if_neg (Nat.not_lt.mpr hlimit)]

theorem Anchored.place_far
    (hticks : ticks ≤ a.ticks) (hend : a.legEnd = t₀.due rtpClockRate first a)
    (hwhole : rtpClockRate ∣ (a.ticks - first.ticks) * t₀.sampleRate)
    (hfar : t.nearAnchor rtpClockRate a = false) : (t.place rtpClockRate a).1 = a.legEnd ∧
      Anchored t₀ rtpClockRate first (t.place rtpClockRate a).2 a.ticks := by
  have hlimit : t.sampleRate * 600 <
      min ((rtpTimestamp a - UInt32.ofNat ticks).toNat * t.sampleRate / rtpClockRate)
        (2 ^ 32 - 1) := by
    simpa only [nearAnchor, h.anchor, Option.all_some, decide_eq_false_iff_not, Nat.not_le]
      using hfar
  have hplace : t.place rtpClockRate a =
      (a.legEnd, { t with anchor := some (rtpTimestamp a, a.legEnd, rtpClockRate) }) := by
    simp only [place, h.anchor, Option.filter_some, BEq.rfl, if_true]
    rw [if_pos hlimit]
  rw [hplace]
  refine ⟨rfl, h.sampleRate, ?_, Nat.le_trans h.first_le hticks, hwhole⟩
  rw [hend]
  rfl

end

theorem place_first (hfresh : t₀.anchor.filter (·.2.2 == rtpClockRate) = none) :
    (t₀.place rtpClockRate first).1 = t₀.recordingPosition first ∧
      Anchored t₀ rtpClockRate first (t₀.place rtpClockRate first).2 first.ticks := by
  have hplace : t₀.place rtpClockRate first = (t₀.recordingPosition first, { t₀ with
      anchor := some (rtpTimestamp first, t₀.recordingPosition first, rtpClockRate) }) := by
    simp only [place, hfresh]
  have hzero : t₀.samples rtpClockRate first.ticks first.ticks = 0 := by
    rw [samples, Nat.sub_self, Nat.zero_mul, Nat.zero_div]
  rw [hplace]
  refine ⟨rfl, rfl, ?_, Nat.le_refl _, ?_⟩
  · rw [hzero]
    rfl
  · rw [Nat.sub_self, Nat.zero_mul]
    exact Nat.dvd_zero _

theorem Anchored.positions (h : Anchored t₀ rtpClockRate first t ticks) (hrate : 0 < rtpClockRate)
    (hfrom : ∀ a ∈ stream, ticks ≤ a.ticks) (horder : stream.Pairwise (·.ticks ≤ ·.ticks))
    (hspan : ∀ a ∈ stream, a.ticks - first.ticks < 2 ^ 32)
    (hsteady : steady t₀ rtpClockRate first t stream = true) : t.positions rtpClockRate stream =
      stream.map fun a => max a.legEnd (t₀.due rtpClockRate first a) := by
  induction stream generalizing t ticks with
  | nil => rfl
  | cons a stream ih =>
    obtain ⟨hlater, horder⟩ := pairwise_cons.mp horder
    have hticks := hfrom a mem_cons_self
    have hrest (b : Arrival) (hb : b ∈ stream) := hfrom b (mem_cons_of_mem _ hb)
    replace hspan : a.ticks - first.ticks < 2 ^ 32 ∧
        ∀ b ∈ stream, b.ticks - first.ticks < 2 ^ 32 := forall_mem_cons.mp hspan
    obtain ⟨⟨hfits, hplace⟩, hsteady⟩ : (t₀.due rtpClockRate first a < 2 ^ 32 ∧
        (t.nearAnchor rtpClockRate a = true ∨ a.legEnd = t₀.due rtpClockRate first a ∧
          (a.ticks - first.ticks) * t₀.sampleRate % rtpClockRate = 0)) ∧
        steady t₀ rtpClockRate first (t.place rtpClockRate a).2 stream = true := by
      simpa [steady] using hsteady
    rw [Timeline.positions, map_cons]
    cases hnear : t.nearAnchor rtpClockRate a with
    | true =>
      have hplaced := h.place_near hrate hticks hspan.1 hfits hnear
      rw [hplaced] at hsteady ⊢
      rw [ih h hrest horder hspan.2 hsteady]
    | false =>
      obtain ⟨hend, hwhole⟩ := hplace.resolve_left (by simp [hnear])
      obtain ⟨hpos, hanchored⟩ :=
        h.place_far hticks hend (Nat.dvd_of_mod_eq_zero hwhole) hnear
      rw [hpos, ih hanchored hlater horder hspan.2 hsteady, ← hend, Nat.max_self]

/-- **A packet is placed when it was sent**, as far from the first one as it was sent after it,
unless the leg already has data there. -/
theorem placed_when_due (hrate : 0 < rtpClockRate)
    (hfresh : t₀.anchor.filter (·.2.2 == rtpClockRate) = none)
    (horder : (first :: stream).Pairwise (·.ticks ≤ ·.ticks))
    (hspan : ∀ a ∈ stream, a.ticks - first.ticks < 2 ^ 32)
    (hsteady : steady t₀ rtpClockRate first (t₀.place rtpClockRate first).2 stream = true) :
    t₀.positions rtpClockRate (first :: stream) =
      (first :: stream).map fun a => max a.legEnd (t₀.due rtpClockRate first a) := by
  obtain ⟨hlater, horder⟩ := pairwise_cons.mp horder
  obtain ⟨hpos, hanchored⟩ : (t₀.place rtpClockRate first).1 = t₀.recordingPosition first ∧
      Anchored t₀ rtpClockRate first (t₀.place rtpClockRate first).2 first.ticks :=
    place_first hfresh
  have hdue : t₀.due rtpClockRate first first = t₀.recordingPosition first := by
    rw [due, samples, Nat.sub_self, Nat.zero_mul, Nat.zero_div, Nat.add_zero]
  rw [positions, map_cons, hanchored.positions hrate hlater horder hspan hsteady, hpos, hdue,
    Nat.max_eq_right legEnd_le_recordingPosition]

end

/-- Opus packets of twelve minutes in a PCMU recording, with a pause of five minutes. The last one
is not near the first any more and follows without a gap. -/
theorem placed_when_due_opus :
    positions ⟨8000, none⟩ 48000 [⟨4294000000, 0, false, some 40⟩, ⟨4308400000, 200, true, some 7⟩,
        ⟨4328560000, 5760040, true, none⟩] =
      [40, 2400040, 5760040] := by
  let t₀ : Timeline := ⟨8000, none⟩
  let first : Arrival := ⟨4294000000, 0, false, some 40⟩
  let stream : List Arrival := [⟨4308400000, 200, true, some 7⟩, ⟨4328560000, 5760040, true, none⟩]
  have hplaced : t₀.positions 48000 (first :: stream) =
      (first :: stream).map fun a => max a.legEnd (t₀.due 48000 first a) :=
    placed_when_due (by decide) rfl (by decide) (by decide) (by decide)
  exact hplaced.trans (by decide)

def packetAt (ticks : Nat) : Sample :=
  { Session.pcmuSample .a [0x10, 0x20] 0 fun _ bytes => bytes with
    frame := ⟨.ofNat ticks, 8000, [0x10, 0x20], some 0, some [0x10, 0x20]⟩ }

def pcmuProfile : NegotiatedLegProfile :=
  ⟨some ⟨.pcmu, 0, 8000⟩, none⟩

/-- Where a recorder places frames that are written one after the other. -/
def writtenAt (lib : AudioLib) (r : Recorder) : List Sample → List (Option Nat)
  | [] => []
  | sample :: samples => (r.write lib sample).1 :: writtenAt lib (r.write lib sample).2 samples

/-- The sender pauses for half a minute, ten minutes into the call. Its next packet belongs at
5040000 and is placed at the end of the leg's data, so the pause is lost. -/
theorem pause_lost : writtenAt Session.silentLib (.new pcmuProfile 2 false false)
        [packetAt 0, packetAt 4799000, packetAt 5040000] = [some 0, some 4799000, some 4799002] ∧
    positions ⟨8000, none⟩ 8000
        [⟨0, 0, false, none⟩, ⟨4799000, 2, true, none⟩, ⟨5040000, 4799002, true, none⟩] =
      [0, 4799000, 4799002] ∧
    max 4799002 (due ⟨8000, none⟩ 8000 ⟨0, 0, false, none⟩ ⟨5040000, 4799002, true, none⟩) =
      5040000 := by
  refine ⟨?_, by decide, by decide⟩
  decide +kernel

end Timeline

end RustPbx.Media.Recorder
