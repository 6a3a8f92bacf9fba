import RustPbx.Sipflow.Protocol

/-!
How a sender of the remote sipflow backend puts a batch of packets on the wire.

With a limit on the size, datagrams are filled frame by frame until the next frame does not fit.
Packets carry a number here, that tells packets with the same contents apart.
-/

namespace RustPbx.Sipflow

open Bytes List

abbrev Numbered := Nat × Packet

structure Datagram where
  bytes : List UInt8
  packets : List Numbered

def estimatedWireSize (p : Packet) : Nat :=
  let ipSize := ipWidth p.src.1
  let metadataSize := if p.callId.isSome || p.leg.isSome
    then 4 + 4 + 4 + ((p.callId.map fun callId => (utf8 callId).length).getD 0) else 4
  2 + 1 + 1 + 1 + ipSize + 2 + ipSize + 2 + 8 + 4 + 4 + metadataSize + 4 + p.payload.length

def maxPayload (mtu : Nat) : Nat :=
  mtu - 28

def wouldExceedMtu (batch : List Numbered) (next : Packet) (mtu : Nat) : Bool :=
  maxPayload mtu < 5 + (batch.map fun p => 4 + estimatedWireSize p.2).sum +
    (4 + estimatedWireSize next)

def singleDatagram (p : Numbered) : Datagram :=
  ⟨encodePacket p.2, [p]⟩

structure Frames where
  bytes : List UInt8 := []
  count : UInt16 := 0
  packets : List Numbered := []

def Frames.datagram (frames : Frames) : Datagram where
  bytes := put 2 batchMagic.toNat ++ put 1 batchVersion.toNat ++ put 2 frames.count.toNat ++
    frames.bytes
  packets := frames.packets

def fillFrames (room : Nat) : List Numbered → Frames → Frames
  | [], frames => frames
  | p :: rest, frames =>
    let bytes := frames.bytes ++ withLength (encodePacket p.2)
    if 0 < frames.count ∧ room < 5 + bytes.length then frames
    else fillFrames room rest ⟨bytes, frames.count + 1, frames.packets ++ [p]⟩

/-- A count that has wrapped around makes the next datagram start early. -/
def splitBatch (room : Nat) : List Numbered → List Datagram
  | [] => []
  | p :: rest =>
    let frames := fillFrames room (p :: rest) {}
    if _h : frames.count = 0 then singleDatagram p :: splitBatch room rest
    else frames.datagram :: splitBatch room ((p :: rest).drop frames.count.toNat)
termination_by batch => batch.length
decreasing_by
  · simp
  · have hpos : 0 < frames.count.toNat := by
      rw [Nat.pos_iff_ne_zero]
      exact fun h0 => _h (UInt16.toNat_inj.mp h0)
    rw [length_drop]
    exact Nat.sub_lt (by simp) hpos

def flushBatch (mtu : Nat) : List Numbered → List Datagram
  | [] => []
  | [p] => if mtu = 0 then [singleDatagram p] else splitBatch (maxPayload mtu) [p]
  | batch =>
    if mtu = 0 then
      match encodeBatch (batch.map (·.2)) with
      | .ok bytes => [⟨bytes, batch⟩]
      | .error _ => batch.map singleDatagram
    else splitBatch (maxPayload mtu) batch

theorem fillFrames_spec (room : Nat) (batch : List Numbered) (frames : Frames)
    (hcount : frames.count = UInt16.ofNat frames.packets.length) :
    ∃ n ≤ batch.length, (fillFrames room batch frames).packets = frames.packets ++ batch.take n ∧
      (fillFrames room batch frames).count =
        UInt16.ofNat (fillFrames room batch frames).packets.length := by
  induction batch generalizing frames with
  | nil => exact ⟨0, le_rfl, by simp [fillFrames], hcount⟩
  | cons p rest ih =>
    rw [fillFrames]
    split
    · exact ⟨0, by simp, by simp, hcount⟩
    · obtain ⟨n, hn, hpackets, hcount'⟩ := ih ⟨_, frames.count + 1, frames.packets ++ [p]⟩ (by
        simp [hcount])
      exact ⟨n + 1, by simpa using hn, by simpa using hpackets, hcount'⟩

theorem mem_packets_or_mem_drop (hp : p ∈ batch) :
    p ∈ (fillFrames room batch {}).packets ∨
      p ∈ batch.drop (fillFrames room batch {}).count.toNat := by
  obtain ⟨n, hn, hpackets, hcount⟩ := fillFrames_spec room batch {} rfl
  rw [nil_append] at hpackets
  have hle : (fillFrames room batch {}).count.toNat ≤ n := by
    rw [hcount, hpackets, length_take, min_eq_left hn]
    exact Nat.mod_le _ _
  rw [hpackets]
  rw [← take_append_drop n batch, mem_append] at hp
  exact hp.imp_right fun hdrop => (drop_subset_drop_left batch hle) hdrop

theorem mem_splitBatch (hp : p ∈ batch) : ∃ d ∈ splitBatch room batch, p ∈ d.packets := by
  induction batch using splitBatch.induct room with
  | case1 => cases hp
  | case2 q rest frames hcount ih =>
    rw [splitBatch, dif_pos hcount]
    rcases mem_cons.mp hp with rfl | hp
    · exact ⟨_, .head _, mem_singleton_self _⟩
    · obtain ⟨d, hd, hmem⟩ := ih hp
      exact ⟨d, .tail _ hd, hmem⟩
  | case3 q rest frames hcount ih =>
    rw [splitBatch, dif_neg hcount]
    rcases mem_packets_or_mem_drop hp with hframes | hdrop
    · exact ⟨_, .head _, hframes⟩
    · obtain ⟨d, hd, hmem⟩ := ih hdrop
      exact ⟨d, .tail _ hd, hmem⟩

/-- **Every packet of a batch is handed to the socket.** -/
theorem mem_flushBatch (hp : p ∈ batch) :
    ∃ d ∈ flushBatch mtu batch, p ∈ d.packets := by
  unfold flushBatch
  split
  · cases hp
  · split
    · exact ⟨_, .head _, hp⟩
    · exact mem_splitBatch hp
  · split
    · split
      · exact ⟨_, .head _, hp⟩
      · exact ⟨singleDatagram p, mem_map_of_mem hp, mem_singleton_self _⟩
    · exact mem_splitBatch hp

/-! ## What a datagram holds -/

/-- The count has not wrapped around, and several packets are within the room. -/
structure Frames.Filled (room : Nat) (frames : Frames) : Prop where
  bytes : frames.bytes = (frames.packets.map (·.2)).flatMap fun p => withLength (encodePacket p)
  count : frames.count.toNat = frames.packets.length
  long : 4 * frames.packets.length ≤ frames.bytes.length
  fits : 2 ≤ frames.packets.length → 5 + frames.bytes.length ≤ room

theorem length_withLength (bytes : List UInt8) : (withLength bytes).length = 4 + bytes.length := by
  simp [withLength]

variable {frames : Frames}

theorem Frames.Filled.push (h : frames.Filled room) (hroom : room ≤ 65507) (p : Numbered)
    (hfits : ¬(0 < frames.count ∧
      room < 5 + (frames.bytes ++ withLength (encodePacket p.2)).length)) :
    Filled room ⟨frames.bytes ++ withLength (encodePacket p.2), frames.count + 1,
      frames.packets ++ [p]⟩ := by
  obtain ⟨hbytes, hcount, hlong, -⟩ := h
  rw [UInt16.lt_iff_toNat_lt, length_append, length_withLength] at hfits
  change ¬(0 < _ ∧ _) at hfits
  refine ⟨by simp [hbytes], ?_, ?_, fun htwo => ?_⟩
  · rw [UInt16.toNat_add, hcount, length_append]
    refine Nat.mod_eq_of_lt ?_
    change frames.packets.length + 1 < 65536
    omega
  · simp only [length_append, length_singleton, length_withLength]
    omega
  · simp only [length_append, length_singleton, length_withLength] at htwo ⊢
    omega

/-- The packets of a datagram can be read back from it, and several are within the room. -/
structure Datagram.Holds (room : Nat) (d : Datagram) : Prop where
  parses : parseDatagram d.bytes = .ok (d.packets.map (·.2))
  fits : 2 ≤ d.packets.length → d.bytes.length ≤ room

theorem Frames.Filled.holds (h : frames.Filled room) (hp : ∀ p ∈ frames.packets,
    p.2.Encodable ∧ (encodePacket p.2).length < 2 ^ 32) : frames.datagram.Holds room := by
  have hcount : (frames.packets.map (·.2)).length = frames.count.toNat := by
    rw [length_map, h.count]
  have hle : (frames.packets.map (·.2)).length ≤ maxBatchCount := by
    rw [hcount]
    exact Nat.le_of_lt_succ frames.count.toNat_lt
  have hall : ∀ p ∈ frames.packets.map (·.2), p.Encodable ∧ (encodePacket p).length < 2 ^ 32 := by
    intro _ hmap
    obtain ⟨p, hmem, rfl⟩ := mem_map.mp hmap
    exact hp p hmem
  obtain ⟨bytes, hencode, hparse⟩ := parseDatagram_encodeBatch hle hall
  rw [encodeBatch, if_neg (not_lt.mpr hle), hcount, ← h.bytes] at hencode
  cases hencode
  refine ⟨?_, fun htwo => ?_⟩
  · exact hparse
  · have := h.fits htwo
    simp only [datagram, length_append, length_put]
    omega

end RustPbx.Sipflow
