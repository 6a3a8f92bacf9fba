import Mathlib.Algebra.Ring.Int.Defs
import Mathlib.Data.List.DropRight
import Mathlib.Data.List.Infix
import RustPbx.Lib.FloatFormat
import RustPbx.Lib.Saturating
import RustPbx.Lib.Table
import RustPbx.Lib.Vec

/-!
The mixer of a conference.

One task takes commands, frames and ticks in any order; at a tick each participant gives at most one
frame, and is sent the frames of the others. A frame has a serial number, its place in `arrivals`;
`log` has what each tick has sent to whom, and from which frames.
-/

namespace RustPbx.Media

open List Vec

abbrev LegId := String

structure AudioFrame where
  samples : List Int16
  sampleRate : UInt32
  timestamp : UInt64 := 0

/-- A sample mixed into what is there already. The conversion cuts off a sum out of range. -/
def mixSample (gain : Float32) (o s : Int16) : Int16 :=
  (.ofModel (.ofInt16 o) + .ofModel (.ofInt16 s) * gain : Float32).toModel.toInt16

def AudioMixer.mix (frames : List (List Int16)) (gains : List Float32) : List Int16 :=
  if frames = [] ∨ gains.length ≠ frames.length then []
  else
    let frameLen := (frames.headD []).length
    (frames.zip gains).foldl (fun output (frame, gain) =>
        if frame.length ≠ frameLen then output else zipWith (mixSample gain) output frame)
      (replicate frameLen 0)

theorem mixSample_unit (o s : Int16) : mixSample 1.0 o s = .ofIntClamp (o.toInt + s.toInt) :=
  FloatFormat.toInt16_add_mul_one o s

/-- What the frames say at one place. -/
def column (frames : List (List Int16)) (i : Nat) : List Int :=
  frames.map fun frame => (frame.getD i 0).toInt

abbrev clampSample (x : Int) : Int := Saturating.clamp (-32768) 32767 x

abbrev addSample (total x : Int) : Int := Saturating.add (-32768) 32767 total x

theorem toInt_ofIntClamp_eq (x : Int) : (Int16.ofIntClamp x).toInt = clampSample x := by
  have hlo : Int16.minValue.toInt = -32768 := rfl
  have hhi : Int16.maxValue.toInt = 32767 := rfl
  unfold Int16.ofIntClamp clampSample Saturating.clamp
  split_ifs
  · rw [Int16.toInt_ofIntLE]
    omega
  · omega
  · omega

theorem ofIntClamp_inj : Int16.ofIntClamp x = .ofIntClamp y ↔ clampSample x = clampSample y := by
  rw [← Int16.toInt_inj, toInt_ofIntClamp_eq, toInt_ofIntClamp_eq]

theorem clampSample_add (total x : Int) :
    clampSample (addSample total x) = clampSample (total + x) := by
  unfold addSample Saturating.add clampSample Saturating.clamp
  omega

theorem foldl_clamped (xs : List Int) : clampSample (xs.foldl addSample 0) = xs.foldl addSample 0 :=
  Saturating.clamp_foldl_add (by decide) (by decide) xs

theorem mix_unit (hne : frames ≠ []) (hlen : ∀ frame ∈ frames, frame.length = frameLen) :
    AudioMixer.mix frames (replicate frames.length 1.0) = (range frameLen).map fun i =>
      .ofIntClamp ((column frames i).foldl addSample 0) := by
  have hhead : (frames.headD []).length = frameLen := by
    cases frames with
    | nil => exact absurd rfl hne
    | cons frame frames => exact hlen frame (.head _)
  rw [AudioMixer.mix, if_neg (by simp [hne]), hhead]
  clear hhead hne
  induction frames using reverseRecOn with
  | nil =>
    refine ext_getElem (by simp) fun i _ _ => ?_
    simp [column]
    rfl
  | append_singleton frames frame ih =>
    have hframe := hlen frame (by simp)
    have hbefore := ih fun f hf => hlen f (mem_append_left _ hf)
    rw [length_append, length_singleton, ← replicate_append_replicate,
      zip_append (by simp), foldl_append, hbefore]
    refine ext_getElem (by simp [hframe]) fun i h _ => ?_
    have hi : i < frameLen := by simpa [hframe] using h
    have hcolumn : column (frames ++ [frame]) i = column frames i ++ [(frame.getD i 0).toInt] := by
      simp [column]
    have hrange := foldl_clamped (column frames i)
    simp [hframe, mixSample_unit, hcolumn, hi, toInt_ofIntClamp_eq, hrange, ofIntClamp_inj]
    exact (clampSample_add _ _).symm

theorem mix_unit_eq_iff (total : Nat → Int) (hne : frames ≠ [])
    (hlen : ∀ frame ∈ frames, frame.length = frameLen) :
    (AudioMixer.mix frames (replicate frames.length 1.0) =
      (range frameLen).map fun i => .ofIntClamp (total i)) ↔
        ∀ i < frameLen, (column frames i).foldl addSample 0 = clampSample (total i) := by
  rw [mix_unit hne hlen, map_inj_left]
  refine forall_congr' fun i => ?_
  rw [mem_range, ofIntClamp_inj, foldl_clamped]

/-- **A mix under unit gains is the cut sum of the frames in whatever order they come**, exactly if
at each place the samples above and below zero both fit, or all are on one side. -/
theorem AudioMixer.mix_unit_iff (frames : List (List Int16))
    (hlen : ∀ frame ∈ frames, frame.length = (frames.headD []).length) :
    (∀ frames', frames'.Perm frames →
      AudioMixer.mix frames' (replicate frames'.length 1.0) =
        (range (frames.headD []).length).map fun i => .ofIntClamp (column frames i).sum) ↔
      ∀ i < (frames.headD []).length, Saturating.Orderless (-32768) 32767 (column frames i) := by
  rcases eq_or_ne frames [] with rfl | hne
  · refine iff_of_true (fun frames' hperm => ?_) nofun
    rw [hperm.eq_nil]
    rfl
  have hmix (frames' : List (List Int16)) (hperm : frames'.Perm frames) :=
    mix_unit_eq_iff (fun i => (column frames i).sum)
      (fun h => hne (Perm.eq_nil (h ▸ hperm.symm))) fun frame h => hlen frame (hperm.mem_iff.mp h)
  constructor
  · intro h i hi
    let loud (frame : List Int16) : Bool := 0 < (frame.getD i 0).toInt
    have hperm : (frames.filter loud ++ frames.filter (! loud ·)).Perm frames :=
      filter_append_perm ..
    have hperm' := perm_append_comm.trans hperm
    have hfirst := (hmix _ hperm).mp (h _ hperm) i hi
    have hlast := (hmix _ hperm').mp (h _ hperm') i hi
    have hcolumn : (column _ i).Perm (column frames i) := hperm.map _
    have hcolumn' : (column _ i).Perm (column frames i) := hperm'.map _
    rw [← hcolumn.sum_eq, column, map_append] at hfirst
    rw [← hcolumn'.sum_eq, column, map_append] at hlast
    refine (Saturating.orderless_of_two_orders (by decide) (by decide) (by decide) ?_ ?_ hfirst
      hlast).perm ?_
    · refine Saturating.below_eq_zero fun x hx => ?_
      obtain ⟨frame, hframe, rfl⟩ := mem_map.mp hx
      exact (of_decide_eq_true (mem_filter.mp hframe).2).le
    · refine Saturating.above_eq_zero fun x hx => ?_
      obtain ⟨frame, hframe, rfl⟩ := mem_map.mp hx
      simpa [loud] using (mem_filter.mp hframe).2
    · rw [← map_append]
      exact hcolumn.symm
  · intro h frames' hperm
    refine (hmix frames' hperm).mpr fun i hi => ?_
    have hcolumn : (column frames' i).Perm (column frames i) := hperm.map _
    rw [← hcolumn.sum_eq]
    exact Saturating.foldl_add_of_orderless (by decide) (by decide) ((h i hi).perm hcolumn)

/-- Two loud frames. -/
theorem AudioMixer.mix_unit_iff_loud :
    AudioMixer.mix [[30000], [30000]] [1.0, 1.0] = [32767] :=
  (AudioMixer.mix_unit_iff [[30000], [30000]] (by decide)).mpr (by decide) _ (.refl _)

/-- A sum that is cut on the way depends on the order of the frames. -/
theorem AudioMixer.mix_cut :
    AudioMixer.mix [[30000], [30000], [-30000]] [1.0, 1.0, 1.0] = [2767] ∧
      AudioMixer.mix [[30000], [-30000], [30000]] [1.0, 1.0, 1.0] = [30000] := by
  decide +kernel

/-! ## The state of the task -/

def inputBufferFrames : Nat := 5

structure Queued where
  serial : Nat
  frame : AudioFrame

structure Participant where
  legId : LegId
  input : List Queued
  muted : Bool
  /-- The frames put into the queue since the participant was added or its mute state changed. -/
  accepted : List Queued

namespace Participant

def setMuted (muted : Bool) (p : Participant) : Participant :=
  if p.muted ≠ muted then { p with input := [], muted, accepted := [] } else p

def push (q : Queued) (p : Participant) : Participant :=
  if p.muted then p
  else
    let input := if p.input.length = inputBufferFrames then p.input.tail else p.input
    { p with input := input ++ [q], accepted := p.accepted ++ [q] }

def frame (p : Participant) : Option Queued :=
  if p.muted then none else p.input.head?

theorem frame_eq_some {p : Participant} (h : p.frame = some q) :
    p.muted = false ∧ p.input.head? = some q := by
  unfold frame at h
  split at h
  · cases h
  next hmuted => exact ⟨Bool.eq_false_iff.mpr hmuted, h⟩

theorem legId_push (q : Queued) (p : Participant) : (p.push q).legId = p.legId := by
  unfold push
  split
  · rfl
  · rfl

theorem legId_setMuted (muted : Bool) (p : Participant) : (p.setMuted muted).legId = p.legId := by
  unfold setMuted
  split
  · rfl
  · rfl

end Participant

structure Source where
  legId : LegId
  serial : Nat
  samples : List Int16
  gain : Float32

structure Mixed where
  tick : Nat
  target : LegId
  sources : List Source
  frame : AudioFrame

structure ConferenceAudioMixer where
  sampleRate : UInt32
  frameSize : Nat := sampleRate.toNat * 20 / 1000

structure Mixing where
  running : Bool
  started : Bool
  participants : List Participant
  inputs : List LegId
  routeGains : Table (LegId × LegId) Float32
  participantCount : Nat
  arrivals : List (LegId × AudioFrame)
  ticks : Nat
  log : List Mixed

namespace Mixing

def new : Mixing where
  running := true
  started := false
  participants := []
  inputs := []
  routeGains := ∅
  participantCount := 0
  arrivals := []
  ticks := 0
  log := []

inductive Action where
  | start
  | add (legId : LegId)
  | remove (legId : LegId)
  | setMuted (legId : LegId) (muted : Bool)
  | setGain (src dst : LegId) (gain : Float32)
  | tick
  | frame (legId : LegId) (frame : AudioFrame)
  /-- The sender of a participant's frames is gone. -/
  | inputEnds (legId : LegId)
  | stop

def participantExists (s : Mixing) (legId : LegId) : Bool :=
  s.participants.any (·.legId == legId)

def add (s : Mixing) (legId : LegId) : Except String Unit × Mixing :=
  if s.participantExists legId then
    (.error ("Participant " ++ legId ++ " already exists in conference"), s)
  else
    let participants := s.participants ++ [⟨legId, [], false, []⟩]
    (.ok (), { s with
      inputs := legId :: s.inputs.filter (· ≠ legId)
      participants
      participantCount := participants.length })

def remove (s : Mixing) (legId : LegId) : Mixing :=
  let participants :=
    match s.participants.findIdx? (·.legId == legId) with
    | some index => Vec.swapRemove s.participants index
    | none => s.participants
  { s with
    inputs := s.inputs.filter (· ≠ legId)
    participants
    routeGains := s.routeGains.retain fun route _ => route.1 ≠ legId ∧ route.2 ≠ legId
    participantCount := participants.length }

def setMuted (s : Mixing) (legId : LegId) (muted : Bool) : Mixing :=
  { s with
    participants :=
      Vec.updateFirst (·.legId == legId) (Participant.setMuted muted) s.participants }

def epsilon : Float32 := 1.1920929e-7

def setGain (s : Mixing) (src dst : LegId) (gain : Float32) : Mixing :=
  let routeGains :=
    if (gain - 1.0).abs < epsilon then s.routeGains.erase (src, dst)
    else s.routeGains.insert (src, dst) gain
  { s with routeGains }

def takeFrame (s : Mixing) (legId : LegId) (frame : AudioFrame) : Mixing :=
  let q := ⟨s.arrivals.length, frame⟩
  { s with
    participants := Vec.updateFirst (·.legId == legId) (Participant.push q) s.participants
    arrivals := s.arrivals ++ [(legId, frame)] }

/-! ## Ticks -/

variable (m : ConferenceAudioMixer)

def resize (samples : List Int16) : List Int16 :=
  samples.take m.frameSize ++ replicate (m.frameSize - samples.length) 0

section

variable (s : Mixing)

def source (output input : Participant) : Option Source :=
  match input.frame with
  | none => none
  | some q =>
    let gain := (s.routeGains.lookup (input.legId, output.legId)).getD 1.0
    if gain > 0.0 then some ⟨input.legId, q.serial, resize m q.frame.samples, gain⟩ else none

def sources (output : Participant) (outputIndex : Nat) : List Source :=
  s.participants.zipIdx.filterMap fun (input, inputIndex) =>
    if inputIndex = outputIndex then none else s.source m output input

def mixFor (output : Participant) (outputIndex : Nat) : Option Mixed :=
  let sources := s.sources m output outputIndex
  if sources.isEmpty then none
  else
    let mixed := AudioMixer.mix (sources.map (·.samples)) (sources.map (·.gain))
    some ⟨s.ticks, output.legId, sources, ⟨mixed, m.sampleRate, 0⟩⟩

def mix : List Mixed :=
  s.participants.zipIdx.filterMap fun (output, outputIndex) => s.mixFor m output outputIndex

def tick : Mixing :=
  { s with
    participants := s.participants.map fun p => { p with input := p.input.tail }
    ticks := s.ticks + 1
    log := s.log ++ s.mix m }

def step (action : Action) : Option Mixing :=
  if s.running then
    match action with
    | .start => some { s with started := true }
    | .add legId => some (s.add legId).2
    | .remove legId => some (s.remove legId)
    | .setMuted legId muted => some (s.setMuted legId muted)
    | .setGain src dst gain => some (s.setGain src dst gain)
    | .tick => if s.started then some (s.tick m) else none
    | .frame legId frame => if legId ∈ s.inputs then some (s.takeFrame legId frame) else none
    | .inputEnds legId => some { s with inputs := s.inputs.filter (· ≠ legId) }
    | .stop => some { s with running := false, participantCount := 0 }
  else none

end

inductive Step (s : Mixing) : Action → Mixing → Prop where
  | start : Step s .start { s with started := true }
  | add {legId} : Step s (.add legId) (s.add legId).2
  | remove {legId} : Step s (.remove legId) (s.remove legId)
  | setMuted {legId muted} : Step s (.setMuted legId muted) (s.setMuted legId muted)
  | setGain {src dst gain} : Step s (.setGain src dst gain) (s.setGain src dst gain)
  | tick : Step s .tick (s.tick m)
  | frame {legId frame} : Step s (.frame legId frame) (s.takeFrame legId frame)
  | inputEnds {legId} :
    Step s (.inputEnds legId) { s with inputs := s.inputs.filter (· ≠ legId) }
  | stop : Step s .stop { s with running := false, participantCount := 0 }

variable {m} {s : Mixing}

theorem step_cases (h : s.step m action = some s') : Step m s action s' := by
  unfold step at h
  split at h
  · cases action with
    | tick =>
      dsimp only at h
      split at h
      · cases h
        exact .tick
      · cases h
    | frame legId frame =>
      dsimp only at h
      split at h
      · cases h
        exact .frame
      · cases h
    | _ =>
      cases h
      constructor
  · cases h

theorem mem_sources (h : src ∈ s.sources m output outputIndex) :
    ∃ input inputIndex q, inputIndex ≠ outputIndex ∧ s.participants[inputIndex]? = some input ∧
      input.frame = some q ∧ src.legId = input.legId ∧ src.serial = q.serial ∧
      src.samples = resize m q.frame.samples := by
  obtain ⟨⟨input, inputIndex⟩, hmem, hsource⟩ := mem_filterMap.mp h
  have hinput := mem_zipIdx_iff_getElem?.mp hmem
  dsimp only at hsource
  split at hsource
  · cases hsource
  next hne =>
    unfold source at hsource
    split at hsource
    · cases hsource
    next q hq =>
      dsimp only at hsource
      split at hsource
      · cases hsource
        exact ⟨input, inputIndex, q, hne, hinput, hq, rfl, rfl, rfl⟩
      · cases hsource

variable {p : Participant}

theorem mem_mix (h : e ∈ s.mix m) :
    ∃ output outputIndex, s.participants[outputIndex]? = some output ∧
      e.tick = s.ticks ∧ e.target = output.legId ∧ e.sources = s.sources m output outputIndex ∧
      e.frame.samples = AudioMixer.mix (e.sources.map (·.samples)) (e.sources.map (·.gain)) := by
  obtain ⟨⟨output, outputIndex⟩, hmem, hmixed⟩ := mem_filterMap.mp h
  have houtput := mem_zipIdx_iff_getElem?.mp hmem
  unfold mixFor at hmixed
  dsimp only at hmixed
  split at hmixed
  · cases hmixed
  · cases hmixed
    exact ⟨output, outputIndex, houtput, rfl, rfl, rfl, rfl⟩

/-- The queue of a participant is short and has its newest frames in order, none of which was sent
before; it is empty while the participant is muted. -/
structure ParticipantOk (s : Mixing) (p : Participant) : Prop where
  bounded : p.input.length ≤ inputBufferFrames
  newest : p.input <:+ p.accepted
  ordered : (p.input.map (·.serial)).Pairwise (· < ·)
  arrived : ∀ q ∈ p.input, s.arrivals[q.serial]? = some (p.legId, q.frame)
  unsent : ∀ e ∈ s.log, ∀ src ∈ e.sources, src.legId = p.legId → ∀ q ∈ p.input,
    src.serial < q.serial

/-- What holds of what was sent: it is mixed from frames of others. -/
structure MixedOk (m : ConferenceAudioMixer) (s : Mixing) (e : Mixed) : Prop where
  past : e.tick < s.ticks
  others : ∀ src ∈ e.sources, src.legId ≠ e.target
  arrived : ∀ src ∈ e.sources, ∃ frame, s.arrivals[src.serial]? = some (src.legId, frame) ∧
    src.samples = resize m frame.samples
  mixed : e.frame.samples = AudioMixer.mix (e.sources.map (·.samples)) (e.sources.map (·.gain))

/-- The frames of a participant are sent in the order of their arrival, one at a tick. -/
def InOrder (e e' : Mixed) : Prop :=
  ∀ src ∈ e.sources, ∀ src' ∈ e'.sources, src.legId = src'.legId →
    (e.tick < e'.tick → src.serial < src'.serial) ∧ (e.tick = e'.tick → src.serial = src'.serial)

structure Ok (m : ConferenceAudioMixer) (s : Mixing) : Prop where
  unique : (s.participants.map (·.legId)).Nodup
  participants : ∀ p ∈ s.participants, s.ParticipantOk p
  sent : ∀ e ∈ s.log, s.MixedOk m e
  ordered : ∀ e ∈ s.log, ∀ e' ∈ s.log, InOrder e e'

theorem ok_new : Ok m new where
  unique := nodup_nil
  participants := nofun
  sent := nofun
  ordered := nofun

theorem Ok.of_participants {participants : List Participant} (h : Ok m s)
    (hlog : s'.log = s.log) (harrivals : s'.arrivals = s.arrivals) (hticks : s'.ticks = s.ticks)
    (hparticipants : s'.participants = participants) (hunique : (participants.map (·.legId)).Nodup)
    (hok : ∀ p ∈ participants, s.ParticipantOk p) : Ok m s' where
  unique := hparticipants ▸ hunique
  participants p hp := by
    have hold := hok p (hparticipants ▸ hp)
    exact ⟨hold.bounded, hold.newest, hold.ordered, harrivals ▸ hold.arrived, hlog ▸ hold.unsent⟩
  sent e he := by
    have hold := h.sent e (hlog ▸ he)
    exact ⟨hticks ▸ hold.past, hold.others, harrivals ▸ hold.arrived, hold.mixed⟩
  ordered := hlog ▸ h.ordered

theorem Ok.congr (h : Ok m s) (hlog : s'.log = s.log) (harrivals : s'.arrivals = s.arrivals)
    (hticks : s'.ticks = s.ticks) (hparticipants : s'.participants = s.participants) : Ok m s' :=
  h.of_participants hlog harrivals hticks hparticipants h.unique h.participants

theorem participantOk_silent (s : Mixing) (legId : LegId) (muted : Bool) (accepted : List Queued) :
    s.ParticipantOk ⟨legId, [], muted, accepted⟩ where
  bounded := Nat.zero_le _
  newest := nil_suffix
  ordered := Pairwise.nil
  arrived := nofun
  unsent _ _ _ _ _ := nofun

theorem Ok.add (h : Ok m s) (legId : LegId) : Ok m (s.add legId).2 := by
  unfold Mixing.add
  split
  · exact h
  next hnew =>
    refine h.of_participants rfl rfl rfl rfl ?_ ?_
    · rw [map_append, nodup_append]
      refine ⟨h.unique, nodup_singleton _, ?_⟩
      rintro _ hold _ hadded rfl
      obtain ⟨p, hp, heq⟩ := mem_map.mp hold
      obtain rfl := mem_singleton.mp hadded
      apply hnew
      exact any_eq_true.mpr ⟨p, hp, beq_iff_eq.mpr heq⟩
    · intro p hp
      rcases mem_append.mp hp with hp | hp
      · exact h.participants p hp
      · obtain rfl := mem_singleton.mp hp
        exact participantOk_silent s legId false []

theorem Ok.remove (h : Ok m s) (legId : LegId) : Ok m (s.remove legId) := by
  unfold Mixing.remove
  refine h.of_participants rfl rfl rfl rfl ?_ ?_
  · split
    next index hindex =>
      have hlt := (findIdx?_eq_some_iff_getElem.mp hindex).1
      have hperm := (swapRemove_perm hlt).map (·.legId)
      rw [hperm.nodup_iff]
      exact h.unique.sublist ((eraseIdx_sublist _ _).map _)
    · exact h.unique
  · split
    next index hindex =>
      have hlt := (findIdx?_eq_some_iff_getElem.mp hindex).1
      intro p hp
      have hmem := (swapRemove_perm hlt).mem_iff.mp hp
      exact h.participants p ((eraseIdx_sublist _ _).subset hmem)
    · exact h.participants

theorem Ok.setMuted (h : Ok m s) (legId : LegId) (muted : Bool) :
    Ok m (s.setMuted legId muted) := by
  unfold Mixing.setMuted
  refine h.of_participants rfl rfl rfl rfl ?_ ?_
  · rw [map_updateFirst (Participant.legId_setMuted muted)]
    exact h.unique
  · intro p hp
    obtain hp | ⟨old, hold, -, rfl⟩ := mem_of_mem_updateFirst hp
    · exact h.participants p hp
    · unfold Participant.setMuted
      split
      · exact participantOk_silent s _ _ _
      · exact h.participants old hold

theorem serial_lt (h : s.arrivals[n]? = some x) : n < s.arrivals.length :=
  (List.getElem?_eq_some_iff.mp h).1

theorem arrivals_append {n : Nat} {x y : LegId × AudioFrame} (h : s.arrivals[n]? = some x) :
    (s.arrivals ++ [y])[n]? = some x := by
  rw [getElem?_append_left (serial_lt h)]
  exact h

theorem ParticipantOk.push (h : s.ParticipantOk p) (hok : Ok m s) (frame : AudioFrame) :
    (s.takeFrame p.legId frame).ParticipantOk (p.push ⟨s.arrivals.length, frame⟩) := by
  have hold : (s.takeFrame p.legId frame).ParticipantOk p :=
    ⟨h.bounded, h.newest, h.ordered, fun q hq => arrivals_append (h.arrived q hq), h.unsent⟩
  unfold Participant.push
  split
  · exact hold
  · -- the rest of the queue is a suffix of it, the whole of it unless it is full
    obtain ⟨rest, hrest, hsuffix, hlength⟩ : ∃ rest,
        (if p.input.length = inputBufferFrames then p.input.tail else p.input) = rest ∧
        rest <:+ p.input ∧ rest.length < inputBufferFrames := by
      have hbounded := h.bounded
      split
      next hfull =>
        refine ⟨_, rfl, tail_suffix _, ?_⟩
        rw [length_tail, hfull]
        decide
      next hroom => exact ⟨_, rfl, suffix_rfl, Nat.lt_of_le_of_ne hbounded hroom⟩
    rw [hrest]
    exact {
      bounded := by
        rw [length_append]
        exact hlength
      newest := by
        obtain ⟨before, hbefore⟩ := hsuffix.trans h.newest
        exact ⟨before, by rw [← hbefore, append_assoc]⟩
      ordered := by
        rw [map_append, pairwise_append]
        refine ⟨h.ordered.sublist (hsuffix.sublist.map _), pairwise_singleton _ _, ?_⟩
        rintro _ hserial _ hnew
        obtain ⟨q, hq, rfl⟩ := mem_map.mp hserial
        obtain rfl := mem_singleton.mp hnew
        exact serial_lt (h.arrived q (hsuffix.subset hq))
      arrived := by
        intro q hq
        rcases mem_append.mp hq with hq | hq
        · exact hold.arrived q (hsuffix.subset hq)
        · obtain rfl := mem_singleton.mp hq
          exact getElem?_concat_length
      unsent := by
        intro e he src hsrc hleg q hq
        rcases mem_append.mp hq with hq | hq
        · exact h.unsent e he src hsrc hleg q (hsuffix.subset hq)
        · obtain rfl := mem_singleton.mp hq
          obtain ⟨_, harrived, -⟩ := (hok.sent e he).arrived src hsrc
          exact serial_lt harrived }

theorem Ok.takeFrame (h : Ok m s) (legId : LegId) (frame : AudioFrame) :
    Ok m (s.takeFrame legId frame) where
  unique := by
    change ((updateFirst _ _ s.participants).map _).Nodup
    rw [map_updateFirst (Participant.legId_push _)]
    exact h.unique
  participants p hp := by
    obtain hp | ⟨old, hold, hleg, rfl⟩ := mem_of_mem_updateFirst hp
    · have hok := h.participants p hp
      exact ⟨hok.bounded, hok.newest, hok.ordered,
        fun q hq => arrivals_append (hok.arrived q hq), hok.unsent⟩
    · obtain rfl := beq_iff_eq.mp hleg
      exact (h.participants old hold).push h frame
  sent e he := by
    have hok := h.sent e he
    refine ⟨hok.past, hok.others, fun src hsrc => ?_, hok.mixed⟩
    obtain ⟨sent, harrived, hsamples⟩ := hok.arrived src hsrc
    exact ⟨sent, arrivals_append harrived, hsamples⟩
  ordered := h.ordered

/-! ## Ticks -/

theorem Ok.legId_ne (h : Ok m s) {i j : Nat} (hne : i ≠ j)
    (hp : s.participants[i]? = some p) (hp' : s.participants[j]? = some p') :
    p.legId ≠ p'.legId := by
  intro heq
  have hlt : i < (s.participants.map (·.legId)).length := by
    rw [length_map]
    exact (List.getElem?_eq_some_iff.mp hp).1
  apply hne
  apply (getElem?_inj hlt h.unique).mp
  rw [getElem?_map, getElem?_map, hp, hp']
  exact congrArg some heq

theorem Ok.eq_of_legId (h : Ok m s) (hp : p ∈ s.participants) (hp' : p' ∈ s.participants)
    (heq : p.legId = p'.legId) : p = p' :=
  inj_on_of_nodup_map h.unique hp hp' heq

theorem Ok.mem_mix (h : Ok m s) (he : e ∈ s.mix m) :
    e.tick = s.ticks ∧ (∃ p ∈ s.participants, p.legId = e.target) ∧
    (∀ src ∈ e.sources, src.legId ≠ e.target ∧
      ∃ p ∈ s.participants, ∃ q, p.legId = src.legId ∧ p.muted = false ∧
        p.input.head? = some q ∧ q.serial = src.serial ∧ src.samples = resize m q.frame.samples) ∧
    e.frame.samples = AudioMixer.mix (e.sources.map (·.samples)) (e.sources.map (·.gain)) := by
  obtain ⟨output, outputIndex, houtput, htick, htarget, hsources, hmixed⟩ := Mixing.mem_mix he
  refine ⟨htick, ⟨output, mem_of_getElem? houtput, htarget.symm⟩, fun src hsrc => ?_, hmixed⟩
  rw [hsources] at hsrc
  obtain ⟨input, inputIndex, q, hne, hinput, hframe, hleg, hserial, hsamples⟩ := mem_sources hsrc
  obtain ⟨hmuted, hhead⟩ := Participant.frame_eq_some hframe
  refine ⟨?_, input, mem_of_getElem? hinput, q, hleg.symm, hmuted, hhead, hserial.symm,
    hsamples⟩
  rw [hleg, htarget]
  exact h.legId_ne hne hinput houtput

theorem ParticipantOk.tick (h : s.ParticipantOk p) (hok : Ok m s) (hp : p ∈ s.participants) :
    (s.tick m).ParticipantOk { p with input := p.input.tail } where
  bounded := by
    rw [length_tail]
    exact Nat.le_trans (Nat.sub_le _ _) h.bounded
  newest := (tail_suffix _).trans h.newest
  ordered := h.ordered.sublist ((tail_sublist _).map _)
  arrived q hq := h.arrived q (mem_of_mem_tail hq)
  unsent e he src hsrc hleg q hq := by
    rcases mem_append.mp he with he | he
    · exact h.unsent e he src hsrc hleg q (mem_of_mem_tail hq)
    · -- the frame that is sent now is the head of this queue
      obtain ⟨-, -, hsources, -⟩ := hok.mem_mix he
      obtain ⟨-, p', hp', sent, hleg', -, hhead, hserial, -⟩ := hsources src hsrc
      obtain rfl := hok.eq_of_legId hp' hp (hleg'.trans hleg)
      have hordered := h.ordered
      obtain ⟨rest, hinput⟩ := head?_eq_some_iff.mp hhead
      rw [hinput, map_cons, pairwise_cons] at hordered
      rw [hinput] at hq
      rw [← hserial]
      exact hordered.1 _ (mem_map_of_mem hq)

theorem Ok.mixedOk_tick (h : Ok m s) (he : e ∈ (s.tick m).log) : (s.tick m).MixedOk m e := by
  rcases mem_append.mp he with he | he
  · have hok := h.sent e he
    exact ⟨Nat.lt_succ_of_lt hok.past, hok.others, hok.arrived, hok.mixed⟩
  · obtain ⟨htick, -, hsources, hmixed⟩ := h.mem_mix he
    refine ⟨Nat.lt_succ_of_le (Nat.le_of_eq htick), fun src hsrc => (hsources src hsrc).1,
      fun src hsrc => ?_,
      hmixed⟩
    obtain ⟨-, p, hp, q, hleg, -, hhead, hserial, hsamples⟩ := hsources src hsrc
    have harrived := (h.participants p hp).arrived q (mem_of_mem_head? hhead)
    rw [hserial, hleg] at harrived
    exact ⟨q.frame, harrived, hsamples⟩

theorem Ok.inOrder_tick (h : Ok m s) (he : e ∈ (s.tick m).log) (he' : e' ∈ (s.tick m).log) :
    InOrder e e' := by
  rcases mem_append.mp he with hold | hnew
  · rcases mem_append.mp he' with hold' | hnew'
    · exact h.ordered e hold e' hold'
    · -- the heads of the queues come after all that was sent before
      obtain ⟨htick', -, hsources', -⟩ := h.mem_mix hnew'
      intro src hsrc src' hsrc' hleg
      obtain ⟨-, p, hp, q, hleg', -, hhead, hserial, -⟩ := hsources' src' hsrc'
      have hlt := (h.participants p hp).unsent e hold src hsrc (hleg.trans hleg'.symm) q
        (mem_of_mem_head? hhead)
      have hpast := (h.sent e hold).past
      exact ⟨fun _ => hserial ▸ hlt, fun htick => by omega⟩
  · obtain ⟨htick, -, hsources, -⟩ := h.mem_mix hnew
    intro src hsrc src' hsrc' hleg
    rcases mem_append.mp he' with hold' | hnew'
    · have hpast := (h.sent e' hold').past
      exact ⟨fun hlt => by omega, fun heq => by omega⟩
    · -- both are the head of the same queue
      obtain ⟨htick', -, hsources', -⟩ := h.mem_mix hnew'
      obtain ⟨-, p, hp, q, hp_leg, -, hhead, hserial, -⟩ := hsources src hsrc
      obtain ⟨-, p', hp', q', hp_leg', -, hhead', hserial', -⟩ := hsources' src' hsrc'
      obtain rfl := h.eq_of_legId hp hp' (hp_leg.trans (hleg.trans hp_leg'.symm))
      obtain rfl := Option.some.inj (hhead.symm.trans hhead')
      exact ⟨fun hlt => by omega, fun _ => hserial.symm.trans hserial'⟩

theorem Ok.tick (h : Ok m s) : Ok m (s.tick m) where
  unique := by
    change ((s.participants.map _).map _).Nodup
    rw [map_map]
    exact h.unique
  participants p hp := by
    obtain ⟨old, hold, rfl⟩ := mem_map.mp hp
    exact (h.participants old hold).tick h hold
  sent _ he := h.mixedOk_tick he
  ordered _ he _ he' := h.inOrder_tick he he'

theorem Step.ok (hstep : Step m s action s') (h : Ok m s) : Ok m s' := by
  cases hstep with
  | start | setGain | inputEnds | stop => exact h.congr rfl rfl rfl rfl
  | add => exact h.add _
  | remove => exact h.remove _
  | setMuted => exact h.setMuted _ _
  | tick => exact h.tick
  | frame => exact h.takeFrame _ _

variable (m) in
def Runs : Mixing → Mixing → Prop :=
  Relation.ReflTransGen fun s s' => ∃ action, s.step m action = some s'

theorem Runs.ok (h : Runs m new s) : Ok m s := by
  induction h with
  | refl => exact ok_new
  | tail _ hstep ih =>
    obtain ⟨action, hstep⟩ := hstep
    exact (step_cases hstep).ok ih

theorem push_newest (h : p.input.length ≤ inputBufferFrames) (hmuted : p.muted = false) :
    p.push q = { p with
      input := (p.input ++ [q]).rtake inputBufferFrames, accepted := p.accepted ++ [q] } := by
  have hinput : (if p.input.length = inputBufferFrames then p.input.tail else p.input) ++ [q] =
      (p.input ++ [q]).rtake inputBufferFrames := by
    rw [rtake, length_append, length_singleton]
    split
    next hfull =>
      have hne : p.input ≠ [] := by
        intro hnil
        rw [hnil] at hfull
        exact absurd hfull (by decide)
      rw [hfull, Nat.add_sub_cancel_left, drop_one, tail_append_of_ne_nil hne]
    next hroom =>
      rw [Nat.sub_eq_zero_of_le (Nat.lt_of_le_of_ne h hroom), drop_zero]
  unfold Participant.push
  rw [hmuted]
  dsimp only
  rw [hinput]
  rfl

/-- What is sent goes to a participant, and comes from others who are participants and not muted. -/
def FromOthers (s : Mixing) (e : Mixed) : Prop :=
  (∃ p ∈ s.participants, p.legId = e.target) ∧ ∀ src ∈ e.sources, src.legId ≠ e.target ∧
      ∃ p ∈ s.participants, p.legId = src.legId ∧ p.muted = false ∧
        ∃ q, p.input.head? = some q ∧ q.serial = src.serial

theorem Step.sent (hstep : Step m s action s') (h : Ok m s) :
    ∃ sent, s'.log = s.log ++ sent ∧ ∀ e ∈ sent, s.FromOthers e := by
  have hquiet : s'.log = s.log → ∃ sent, s'.log = s.log ++ sent ∧ ∀ e ∈ sent, s.FromOthers e :=
    fun hlog => ⟨[], hlog.trans (append_nil _).symm, nofun⟩
  cases hstep with
  | tick =>
    refine ⟨s.mix m, rfl, fun e he => ?_⟩
    obtain ⟨-, htarget, hsources, -⟩ := h.mem_mix he
    refine ⟨htarget, fun src hsrc => ?_⟩
    obtain ⟨hne, p, hp, q, hleg, hmuted, hhead, hserial, -⟩ := hsources src hsrc
    exact ⟨hne, p, hp, hleg, hmuted, q, hhead, hserial⟩
  | add =>
    apply hquiet
    unfold Mixing.add
    split
    · rfl
    · rfl
  | start | remove | setMuted | setGain | frame | inputEnds | stop => exact hquiet rfl

/-- **The mixer of a conference**: the participants are distinct; a queue has at most five frames,
the newest; a frame that arrives takes the place of the oldest if there is no room; it is used at
one tick only, in the order of arrival; and a participant is sent audio only from others who are not
muted. -/
theorem conference_mixed (m : ConferenceAudioMixer) (s : Mixing) (h : Runs m new s) :
    (s.participants.map (·.legId)).Nodup ∧
    (∀ p ∈ s.participants, p.input.length ≤ inputBufferFrames ∧ p.input <:+ p.accepted) ∧
    (∀ legId frame s', s.step m (.frame legId frame) = some s' →
      ∀ p ∈ s.participants, p.legId = legId → p.muted = false → { p with
          input := (p.input ++ [(⟨s.arrivals.length, frame⟩ : Queued)]).rtake inputBufferFrames
          accepted := p.accepted ++ [⟨s.arrivals.length, frame⟩] } ∈ s'.participants) ∧
    (∀ e ∈ s.log, ∀ e' ∈ s.log, ∀ src ∈ e.sources, ∀ src' ∈ e'.sources,
      (src.serial = src'.serial → e.tick = e'.tick) ∧
      (src.legId = src'.legId → src.serial < src'.serial → e.tick < e'.tick)) ∧ (∀ e ∈ s.log,
      e.frame.samples = AudioMixer.mix (e.sources.map (·.samples)) (e.sources.map (·.gain)) ∧
      ∀ src ∈ e.sources, src.legId ≠ e.target ∧
        ∃ frame, s.arrivals[src.serial]? = some (src.legId, frame) ∧
          src.samples = resize m frame.samples) ∧ ∀ action s', s.step m action = some s' →
      ∃ sent, s'.log = s.log ++ sent ∧ ∀ e ∈ sent, s.FromOthers e := by
  have hok := h.ok
  refine ⟨hok.unique, fun p hp => ⟨(hok.participants p hp).bounded, (hok.participants p hp).newest⟩,
    fun legId frame s' hstep p hp hleg hmuted => ?_, fun e he e' he' src hsrc src' hsrc' => ?_,
    fun e he => ⟨(hok.sent e he).mixed, fun src hsrc => ?_⟩,
    fun action s' hstep => (step_cases hstep).sent hok⟩
  · rw [← push_newest (hok.participants p hp).bounded hmuted]
    cases step_cases hstep
    refine mem_updateFirst hp (beq_iff_eq.mpr hleg) fun p' hp' hleg' => ?_
    exact hok.eq_of_legId hp' hp ((beq_iff_eq.mp hleg').trans hleg.symm)
  · obtain ⟨_, harrived, -⟩ := (hok.sent e he).arrived src hsrc
    obtain ⟨_, harrived', -⟩ := (hok.sent e' he').arrived src' hsrc'
    refine ⟨fun hserial => ?_, fun hleg hserial => ?_⟩
    · -- a serial number is that of one participant
      rw [hserial, harrived'] at harrived
      have hleg : src.legId = src'.legId :=
        (Prod.mk.inj (Option.some.inj harrived)).1.symm
      rcases Nat.lt_trichotomy e.tick e'.tick with hlt | heq | hgt
      · have := (hok.ordered e he e' he' src hsrc src' hsrc' hleg).1 hlt
        omega
      · exact heq
      · have := (hok.ordered e' he' e he src' hsrc' src hsrc hleg.symm).1 hgt
        omega
    · rcases Nat.lt_trichotomy e.tick e'.tick with hlt | heq | hgt
      · exact hlt
      · have := (hok.ordered e he e' he' src hsrc src' hsrc' hleg).2 heq
        omega
      · have := (hok.ordered e' he' e he src' hsrc' src hsrc hleg.symm).1 hgt
        omega
  · exact ⟨(hok.sent e he).others src hsrc, (hok.sent e he).arrived src hsrc⟩

theorem Runs.next (action : Action) (h : Runs m s s') (hstep : s'.step m action = some s'') :
    Runs m s s'' :=
  h.tail ⟨action, hstep⟩

def narrowband : ConferenceAudioMixer where
  sampleRate := 8000

theorem conference_mixed_heard : ∃ s, Runs narrowband new s ∧ s.log.map (·.target) = ["b"] ∧
      (s.participants.map (·.legId)).Nodup ∧ ∀ e ∈ s.log, ∀ src ∈ e.sources, src.legId ≠ "b" ∧
        s.arrivals[src.serial]? = some (src.legId, ⟨[1, 2], 8000, 0⟩) := by
  have h0 : Runs narrowband new new := .refl
  have h1 := h0.next (.add "a") rfl
  have h2 := h1.next (.add "b") rfl
  have h3 := h2.next .start rfl
  have h4 := h3.next (.frame "a" ⟨[1, 2], 8000, 0⟩) rfl
  have h5 := h4.next .tick rfl
  obtain ⟨hnodup, -, -, -, hsent, -⟩ := conference_mixed narrowband _ h5
  refine ⟨_, h5, rfl, hnodup, fun e he src hsrc => ?_⟩
  cases mem_singleton.mp he
  cases mem_singleton.mp hsrc
  exact ⟨((hsent _ he).2 _ hsrc).1, rfl⟩

end Mixing

end RustPbx.Media
