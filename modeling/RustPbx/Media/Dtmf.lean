import RustPbx.Media.Recorder

/-!
The detector of telephone events.

Each digit is carried by several packets, of which those with the end bit may be repeated. The
detector remembers the event that it reported last, so an event is reported again when the end of
another one comes between two of its packets.
-/

namespace RustPbx.Media

structure DtmfEventKey where
  digitCode : UInt8
  rtpTimestamp : UInt32
  deriving DecidableEq

structure EventPacket where
  payload : List UInt8
  rtpTimestamp : UInt32

def EventPacket.ended (packet : EventPacket) : Option (Char × DtmfEventKey) :=
  match packet.payload with
  | digitCode :: flags :: _ :: _ :: _ =>
    if flags &&& 0x80 = 0 then none
    else (Recorder.dtmfCodeToChar digitCode).map (·, ⟨digitCode, packet.rtpTimestamp⟩)
  | _ => none

structure DtmfDetector where
  lastEvent : Option DtmfEventKey := none

namespace DtmfDetector

def observe (d : DtmfDetector) (packet : EventPacket) : Option Char × DtmfDetector :=
  match packet.ended with
  | none => (none, d)
  | some (digit, event) =>
    if d.lastEvent = some event then (none, d) else (some digit, ⟨some event⟩)

/-- The events for which the packets of a list make the detector report a digit. -/
def reports (d : DtmfDetector) : List EventPacket → List DtmfEventKey
  | [] => []
  | packet :: packets =>
    match d.observe packet with
    | (some _, d') => d'.lastEvent.toList ++ d'.reports packets
    | (none, d') => d'.reports packets

def endedEvents (packets : List EventPacket) : List DtmfEventKey :=
  packets.filterMap fun packet => packet.ended.map (·.2)

/-- No event comes back after another one. -/
def Unmixed : List DtmfEventKey → Prop
  | [] => True
  | event :: events => event ∉ events.dropWhile (· = event) ∧ Unmixed events

theorem reports_cons (d : DtmfDetector) (packet : EventPacket) (packets : List EventPacket) :
    (endedEvents (packet :: packets) = endedEvents packets ∧
      d.reports (packet :: packets) = d.reports packets) ∨
    ∃ event, endedEvents (packet :: packets) = event :: endedEvents packets ∧
      d.reports (packet :: packets) = if d.lastEvent = some event then d.reports packets
        else event :: DtmfDetector.reports ⟨some event⟩ packets := by
  rw [reports, observe]
  cases hended : packet.ended with
  | none => exact .inl ⟨by simp [endedEvents, hended], rfl⟩
  | some ended =>
    refine .inr ⟨ended.2, by simp [endedEvents, hended], ?_⟩
    by_cases hlast : d.lastEvent = some ended.2
    · simp [hlast]
    · simp [hlast]

theorem mem_reports (h : event ∈ (DtmfDetector.mk (some last)).reports packets) :
    event ∈ (endedEvents packets).dropWhile (· = last) := by
  induction packets generalizing last with
  | nil => cases h
  | cons packet packets ih =>
    obtain ⟨hends, hreports⟩ | ⟨first, hends, hreports⟩ := reports_cons ⟨some last⟩ packet packets
    · rw [hends]
      exact ih (hreports ▸ h)
    · rw [hreports] at h
      rw [hends]
      by_cases hlast : last = first
      · rw [if_pos (congrArg some hlast)] at h
        rw [List.dropWhile_cons_of_pos (by simp [hlast])]
        exact ih h
      · rw [if_neg (hlast ∘ Option.some.inj)] at h
        rw [List.dropWhile_cons_of_neg (by simpa using Ne.symm hlast)]
        obtain rfl | hlater := List.mem_cons.mp h
        · exact .head _
        · exact .tail _ (List.dropWhile_subset _ (ih hlater))

/-- **Each event is reported at most once**, if its end packets come in one stretch. -/
theorem nodup_reports (d : DtmfDetector) (packets : List EventPacket)
    (h : Unmixed (endedEvents packets)) : (d.reports packets).Nodup := by
  induction packets generalizing d with
  | nil => exact List.nodup_nil
  | cons packet packets ih =>
    obtain ⟨hends, hreports⟩ | ⟨event, hends, hreports⟩ := reports_cons d packet packets
    · rw [hreports]
      exact ih d (hends ▸ h)
    · rw [hends] at h
      rw [hreports]
      split
      · exact ih d h.2
      · exact List.nodup_cons.mpr ⟨fun hmem => h.1 (mem_reports hmem), ih _ h.2⟩

def endPacket (digitCode : UInt8) (rtpTimestamp : UInt32) : EventPacket :=
  ⟨[digitCode, 0x8a, 3, 32], rtpTimestamp⟩

theorem nodup_reports_repeated :
    (DtmfDetector.reports {} [endPacket 1 0, endPacket 1 0, endPacket 2 960]).Nodup :=
  nodup_reports _ _ ⟨by decide, by decide, by decide, trivial⟩

/-- The end of the first event is repeated after the end of the second. -/
theorem reports_returning :
    DtmfDetector.reports {} [endPacket 1 0, endPacket 2 960, endPacket 1 0] =
      [⟨1, 0⟩, ⟨2, 960⟩, ⟨1, 0⟩] := by
  decide

end DtmfDetector

end RustPbx.Media
