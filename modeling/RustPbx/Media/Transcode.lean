import RustPbx.Media.Egress

/-!
The samples that a leg sends on from its peer.

What is decoded waits until there is enough for a frame, and the oldest samples are dropped when too
many wait. The frames and their timeline are those of the task of the leg.
-/

namespace RustPbx.Media

open List

def transcodePendingMaxFrames : Nat := 8

/-- The task with the samples that wait, and all that were sent. -/
structure Transcoding (δ : Type) extends Egress where
  decoder : δ
  pending : List Int16
  overflowSamples : Nat
  emitted : List Int16

namespace Transcoding

variable (decode : δ → List UInt8 → List Int16 × δ) (frameSamples : Nat)

def decodePacket (s : Transcoding δ) (packet : PeerPacket) : Transcoding δ :=
  let (pcm, decoder) := decode s.decoder packet.data
  { s with decoder, pending := s.pending ++ pcm }

def trim (s : Transcoding δ) : Transcoding δ :=
  let excess := s.pending.length - frameSamples * transcodePendingMaxFrames
  { s with
    pending := s.pending.drop excess
    overflowSamples := s.overflowSamples + excess }

/-- Decodes the packets that wait until there are enough samples or one is of a telephone event.
Returns those taken. -/
def drain (audioPayloadType : UInt8) :
    Transcoding δ → List PeerPacket → List PeerPacket × Transcoding δ
  | s, [] => ([], s.trim frameSamples)
  | s, packet :: waiting =>
    let s := s.trim frameSamples
    if frameSamples * transcodePendingMaxFrames ≤ s.pending.length then ([], s)
    else if EgressTask.isVoice audioPayloadType packet then
      (drain audioPayloadType (s.decodePacket decode packet) waiting).map (packet :: ·) id
    else ([packet], s)

def encodePending (s : Transcoding δ) : Transcoding δ :=
  { s with
    emitted := s.emitted ++ s.pending.take frameSamples
    pending := s.pending.drop frameSamples }

def send (s : Transcoding δ) (peer : PeerInput) : Transcoding δ :=
  { s with toEgress := s.toEgress.tick ⟨false, none, peer⟩ true }

def tick (s : Transcoding δ) (peer : PeerInput) : Transcoding δ :=
  match s.task.source, peer with
  | .transcodePeer audioPayloadType _, .received packet waiting =>
    if EgressTask.isVoice audioPayloadType packet then
      let (taken, s) :=
        drain decode frameSamples audioPayloadType (s.decodePacket decode packet) waiting
      let s := s.send (.received packet taken)
      if taken.all (EgressTask.isVoice audioPayloadType) then s.encodePending frameSamples else s
    else s.send peer
  | .transcodePeer _ primed, .timeout =>
    let s := s.send peer
    if primed && frameSamples ≤ s.pending.length then s.encodePending frameSamples else s
  | _, _ => s.send peer

/-- The leg of a peer whose voice has the payload type, right after a change. -/
def start (egress : Egress) (audioPayloadType : UInt8) (primed : Bool) (decoder : δ)
    (overflowSamples : Nat) : Transcoding δ :=
  ⟨{ egress with task := { egress.task with source := .transcodePeer audioPayloadType primed } },
    decoder, [], overflowSamples, []⟩

def run (s : Transcoding δ) (peers : List PeerInput) : Transcoding δ :=
  peers.foldl (tick decode frameSamples) s

/-! ## What is decoded -/

def decodeAll (decoder : δ) (packets : List PeerPacket) : List Int16 × δ :=
  packets.foldl (fun (pcm, decoder) packet => (decode decoder packet.data).map (pcm ++ ·) id)
    ([], decoder)

/-- What a tick reads of what it finds at the peer: the first packet, and as many of those behind it
as it takes. -/
def Takes : PeerInput → List PeerPacket → Prop
  | .received packet waiting, taken => ∃ more, more <+: waiting ∧ taken = packet :: more
  | _, taken => taken = []

variable {decode} {frameSamples}

theorem decodeAll_concat {d : δ} : decodeAll decode d (packets ++ [packet]) =
    (decode (decodeAll decode d packets).2 packet.data).map
      ((decodeAll decode d packets).1 ++ ·) id := by
  rw [decodeAll, foldl_append]
  rfl

/-- What has been read since the start, and how it was counted then. -/
structure Input (δ : Type) where
  audioPayloadType : UInt8
  decoder : δ
  overflow : Nat
  taken : List PeerPacket

def Input.voice (input : Input δ) : List PeerPacket :=
  input.taken.filter (EgressTask.isVoice input.audioPayloadType)

def Input.add (input : Input δ) (packets : List PeerPacket) : Input δ :=
  { input with taken := input.taken ++ packets }

variable (decode) in
/-- What was sent and what waits is what the voice read so far decodes to, without as many samples
as were counted. -/
structure Conserved (input : Input δ) (s : Transcoding δ) : Prop where
  source : ∃ primed, s.task.source = .transcodePeer input.audioPayloadType primed
  decoder : s.decoder = (decodeAll decode input.decoder input.voice).2
  sublist : (s.emitted ++ s.pending).Sublist (decodeAll decode input.decoder input.voice).1
  length : (s.emitted ++ s.pending).length + s.overflowSamples =
    (decodeAll decode input.decoder input.voice).1.length + input.overflow

variable (decode frameSamples) in
structure Held (input : Input δ) (s : Transcoding δ) : Prop extends
    Conserved decode input s where
  bound : s.pending.length ≤ frameSamples * transcodePendingMaxFrames

variable {s : Transcoding δ} {input : Input δ}

theorem voice_add_voice (h : EgressTask.isVoice input.audioPayloadType packet = true) :
    (input.add [packet]).voice = input.voice ++ [packet] := by
  simp [Input.add, Input.voice, h]

theorem voice_add_event (h : ¬ EgressTask.isVoice input.audioPayloadType packet = true) :
    (input.add [packet]).voice = input.voice := by
  simp [Input.add, Input.voice, h]

theorem add_append (input : Input δ) (packets more : List PeerPacket) :
    input.add (packets ++ more) = (input.add packets).add more := by
  simp [Input.add]

theorem add_nil : input.add [] = input := by
  simp [Input.add]

theorem Conserved.decodePacket (h : s.Conserved decode input)
    (hvoice : EgressTask.isVoice input.audioPayloadType packet = true) :
    (s.decodePacket decode packet).Conserved decode (input.add [packet]) := by
  have hall : decodeAll decode (input.add [packet]).decoder (input.add [packet]).voice =
      (decode s.decoder packet.data).map
        ((decodeAll decode input.decoder input.voice).1 ++ ·) id := by
    rw [voice_add_voice hvoice, h.decoder]
    exact decodeAll_concat
  refine ⟨h.source, ?_, ?_, ?_⟩
  · rw [hall]
    rfl
  · rw [hall, Transcoding.decodePacket, ← append_assoc]
    exact h.sublist.append_right _
  · have := h.length
    rw [hall]
    simp only [Transcoding.decodePacket, length_append, Prod.map_fst, Input.add] at this ⊢
    omega

theorem Conserved.trim (h : s.Conserved decode input) :
    (s.trim frameSamples).Held decode frameSamples input := by
  refine ⟨⟨h.source, h.decoder, ((drop_sublist _ _).append_left _).trans h.sublist, ?_⟩, ?_⟩
  · have := h.length
    simp only [Transcoding.trim, length_append, length_drop] at this ⊢
    omega
  · simp only [Transcoding.trim, length_drop]
    omega

theorem Held.add_event (h : s.Held decode frameSamples input)
    (hevent : ¬ EgressTask.isVoice input.audioPayloadType packet = true) :
    s.Held decode frameSamples (input.add [packet]) := by
  have hvoice := voice_add_event hevent
  exact ⟨⟨h.source, hvoice ▸ h.decoder, hvoice ▸ h.sublist, hvoice ▸ h.length⟩, h.bound⟩

theorem Conserved.drain (h : s.Conserved decode input) (frameSamples : Nat)
    (waiting : List PeerPacket) :
    ∃ more s', drain decode frameSamples input.audioPayloadType s waiting = (more, s') ∧
      more <+: waiting ∧ s'.Held decode frameSamples (input.add more) := by
  induction waiting generalizing s input with
  | nil => exact ⟨[], _, rfl, prefix_rfl, add_nil ▸ h.trim⟩
  | cons packet waiting ih =>
    unfold Transcoding.drain
    dsimp only
    split_ifs with hfull hvoice
    · exact ⟨[], _, rfl, nil_prefix, add_nil ▸ h.trim⟩
    · obtain ⟨more, s', heq, hmore, hheld⟩ := ih (h.trim.decodePacket hvoice)
      refine ⟨packet :: more, s', ?_, cons_prefix_cons.mpr ⟨rfl, hmore⟩, ?_⟩
      · rw [show input.audioPayloadType = (input.add [packet]).audioPayloadType from rfl, heq]
        rfl
      · exact add_append input [packet] more ▸ hheld
    · exact ⟨[packet], _, rfl, prefix_append [packet] waiting, h.trim.add_event hvoice⟩

theorem Held.encodePending (h : s.Held decode frameSamples input) :
    (s.encodePending frameSamples).Held decode frameSamples input := by
  have hsame : (s.encodePending frameSamples).emitted ++ (s.encodePending frameSamples).pending =
      s.emitted ++ s.pending := by
    rw [Transcoding.encodePending, append_assoc, take_append_drop]
  exact ⟨⟨h.source, h.decoder, hsame ▸ h.sublist, hsame ▸ h.length⟩,
    (drop_sublist ..).length_le.trans h.bound⟩

theorem source_buildDtmfFrame {t : EgressTask} (h : t.buildDtmfFrame packet = some (frame, t')) :
    t'.source = t.source := by
  simp only [EgressTask.buildDtmfFrame, Option.bind_eq_bind, Option.bind_eq_some_iff] at h
  obtain ⟨_, -, _, -, h⟩ := h
  cases h
  rfl

theorem source_nextFrame {t : EgressTask} (h : t.source = .transcodePeer audioPayloadType primed)
    (supply : Supply) :
    ∃ primed', (t.nextFrame supply).2.source = .transcodePeer audioPayloadType primed' := by
  have hbuild : ∃ primed', (t.build supply).2.source = .transcodePeer audioPayloadType primed' := by
    rw [EgressTask.build, h]
    dsimp only
    unfold EgressTask.buildFromPeer EgressTask.buildEventOrSilence
    split
    · split
      · dsimp only
        split
        · next packet _ =>
          cases hdtmf : ({ t with source := .transcodePeer audioPayloadType true } :
              EgressTask).buildDtmfFrame packet with
          | none => exact ⟨true, rfl⟩
          | some built => exact ⟨true, source_buildDtmfFrame hdtmf⟩
        · exact ⟨true, rfl⟩
      · split
        · exact ⟨true, rfl⟩
        · split_ifs <;> exact ⟨_, h⟩
    all_goals split_ifs <;> exact ⟨_, h⟩
  unfold EgressTask.nextFrame
  split
  all_goals
    next heq =>
    rw [heq] at hbuild
    exact hbuild

theorem Held.send (h : s.Held decode frameSamples input) (peer : PeerInput) :
    (s.send peer).Held decode frameSamples input := by
  obtain ⟨primed, hsource⟩ := h.source
  obtain ⟨primed', hnext⟩ := source_nextFrame hsource ⟨false, none, peer⟩
  refine ⟨⟨⟨primed', ?_⟩, h.decoder, h.sublist, h.length⟩, h.bound⟩
  unfold Transcoding.send Egress.tick
  dsimp only
  split
  all_goals
    next heq =>
    rw [heq] at hnext
    exact hnext

theorem Held.tick (h : s.Held decode frameSamples input) (peer : PeerInput) :
    ∃ taken, Takes peer taken ∧
      (s.tick decode frameSamples peer).Held decode frameSamples (input.add taken) := by
  obtain ⟨primed, hsource⟩ := h.source
  unfold Transcoding.tick
  rw [hsource]
  cases peer with
  | received packet waiting =>
    dsimp only
    by_cases hvoice : EgressTask.isVoice input.audioPayloadType packet
    · obtain ⟨more, s', heq, hmore, hheld⟩ :=
        (h.decodePacket hvoice).drain frameSamples waiting
      refine ⟨packet :: more, ⟨more, hmore, rfl⟩, ?_⟩
      rw [if_pos hvoice,
        show input.audioPayloadType = (input.add [packet]).audioPayloadType from rfl, heq]
      have hheld : s'.Held decode frameSamples (input.add (packet :: more)) :=
        add_append input [packet] more ▸ hheld
      dsimp only
      split_ifs
      · exact (hheld.send _).encodePending
      · exact hheld.send _
    · rw [if_neg hvoice]
      exact ⟨[packet], ⟨[], nil_prefix, rfl⟩, (h.send _).add_event hvoice⟩
  | timeout =>
    refine ⟨[], rfl, ?_⟩
    rw [add_nil]
    dsimp only
    split_ifs
    · exact (h.send _).encodePending
    · exact h.send _
  | failed | other => exact ⟨[], rfl, add_nil ▸ h.send _⟩

theorem Held.run (h : s.Held decode frameSamples input) (peers : List PeerInput) :
    ∃ taken, Forall₂ Takes peers taken ∧
      (run decode frameSamples s peers).Held decode frameSamples (input.add taken.flatten) := by
  induction peers generalizing s input with
  | nil => exact ⟨[], .nil, add_nil ▸ h⟩
  | cons peer peers ih =>
    obtain ⟨ps, hps, hs⟩ := h.tick peer
    obtain ⟨taken, htaken, hrun⟩ := ih hs
    refine ⟨ps :: taken, .cons hps htaken, ?_⟩
    rw [flatten_cons, add_append]
    exact hrun

end Transcoding

end RustPbx.Media
