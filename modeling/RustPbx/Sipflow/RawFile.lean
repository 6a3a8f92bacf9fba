import RustPbx.Sipflow.Storage

/-!
The contents of the raw files.

What is in a raw file together with what is still buffered for it only grows (`Storage.content`),
and so does what has been written (`Storage.written`).
-/

namespace RustPbx.Sipflow

open ByteFile List Function

namespace Storage

variable [DecidableEq β] {s : Storage β}

/-- What has been written of the records of a bucket. What stands beyond in the open file is left
over from writes that failed. -/
def written (s : Storage β) (bucket : β) : List UInt8 :=
  if s.rawFile = some bucket then
    (s.files bucket).take (s.currentOffset - s.writeBuf.length)
  else s.files bucket

def content (s : Storage β) (bucket : β) : List UInt8 :=
  if s.rawFile = some bucket then s.written bucket ++ s.writeBuf else s.written bucket

/-- The open file is the one of `rawPath`, the buffer goes to its end and is empty without an open
file. -/
structure Ok (s : Storage β) : Prop where
  path : ∀ bucket, s.rawFile = some bucket → s.rawPath = some bucket
  buffered : ∀ bucket, s.rawFile = some bucket → s.writeBuf.length ≤ s.currentOffset
  size : ∀ bucket, s.rawFile = some bucket →
    s.currentOffset - s.writeBuf.length ≤ (s.files bucket).length
  cursor : s.rawFile ≠ none → s.posKnown = true → s.cursor = s.currentOffset - s.writeBuf.length
  closed : s.rawFile = none → s.writeBuf = []

/-- Records stay where they are. -/
structure Grows (s s' : Storage β) : Prop where
  written : ∀ bucket, s.written bucket <+: s'.written bucket
  content : ∀ bucket, s.content bucket <+: s'.content bucket

theorem Grows.refl (s : Storage β) : s.Grows s :=
  ⟨fun _ => prefix_refl _, fun _ => prefix_refl _⟩

theorem Grows.trans (h : s.Grows s') (h' : s'.Grows s'') : s.Grows s'' :=
  ⟨fun b => (h.written b).trans (h'.written b), fun b => (h.content b).trans (h'.content b)⟩

theorem written_open (h : s.rawFile = some bucket) :
    s.written bucket = (s.files bucket).take (s.currentOffset - s.writeBuf.length) :=
  if_pos h

theorem written_closed (h : s.rawFile ≠ some bucket) : s.written bucket = s.files bucket :=
  if_neg h

theorem written_prefix_files (s : Storage β) :
    s.written bucket <+: s.files bucket := by
  unfold written
  split
  · exact take_prefix _ _
  · exact prefix_refl _

theorem content_open (h : s.rawFile = some bucket) :
    s.content bucket = s.written bucket ++ s.writeBuf :=
  if_pos h

theorem content_closed (h : s.rawFile ≠ some bucket) : s.content bucket = s.written bucket :=
  if_neg h

theorem content_eq_written (h : s.writeBuf = []) : s.content bucket = s.written bucket := by
  unfold content
  split
  · rw [h, append_nil]
  · rfl

theorem length_content (hs : s.Ok) (h : s.rawFile = some bucket) :
    (s.content bucket).length = s.currentOffset := by
  have hsize := hs.size bucket h
  have hbuf := hs.buffered bucket h
  rw [content_open h, written_open h, length_append, length_take]
  omega

/-! ## What the operations do -/

def overwrite (bucket : β) (bytes : List UInt8) (s : Storage β) : β → List UInt8 :=
  Function.update s.files bucket
    (writeAt (s.currentOffset - s.writeBuf.length) bytes (s.files bucket))

theorem Ok.overwrite_size (hs : s.Ok) (h : s.rawFile = some bucket) (bytes : List UInt8) :
    s.currentOffset - s.writeBuf.length + bytes.length ≤
      (s.overwrite bucket bytes bucket).length := by
  rw [overwrite, update_self]
  exact le_length_writeAt (hs.size bucket h)

theorem Ok.overwrite_part (hs : s.Ok) (h : s.rawFile = some bucket)
    (hfiles : s'.files = s.overwrite bucket (s.writeBuf.take n)) (hraw : s'.rawFile = s.rawFile)
    (hpath : s'.rawPath = s.rawPath) (hoffset : s'.currentOffset = s.currentOffset)
    (hbuf : s'.writeBuf = s.writeBuf) (hpos : s'.posKnown = false) : s'.Ok ∧ s.Grows s' := by
  have hsize := hs.overwrite_size h (s.writeBuf.take n)
  have hwritten : ∀ bucket', s'.written bucket' = s.written bucket' := by
    intro bucket'
    unfold written
    rw [hraw, hfiles, hoffset, hbuf, overwrite]
    by_cases hb : bucket' = bucket
    · subst hb
      rw [if_pos h, if_pos h, update_self, take_writeAt (hs.size bucket' h)]
    · have hne : s.rawFile ≠ some bucket' := fun h' => hb (Option.some.inj (h'.symm.trans h))
      rw [if_neg hne, if_neg hne, update_of_ne hb]
  refine ⟨⟨fun b hb => ?_, fun b hb => ?_, fun b hb => ?_, fun _ hknown => ?_, fun hnone => ?_⟩,
    fun b => by rw [hwritten], fun b => by rw [content, content, hwritten, hraw, hbuf]⟩
  · exact hpath ▸ hs.path b (hraw ▸ hb)
  · exact hbuf ▸ hoffset ▸ hs.buffered b (hraw ▸ hb)
  · cases h.symm.trans (hraw ▸ hb)
    rw [hfiles, hbuf]
    omega
  · rw [hpos] at hknown
    cases hknown
  · exact hbuf ▸ hs.closed (hraw ▸ hnone)

theorem Ok.overwrite_all (hs : s.Ok) (h : s.rawFile = some bucket)
    (hfiles : s'.files = s.overwrite bucket s.writeBuf) (hraw : s'.rawFile = s.rawFile)
    (hpath : s'.rawPath = s.rawPath) (hoffset : s'.currentOffset = s.currentOffset)
    (hbuf : s'.writeBuf = [])
    (hcursor : s'.cursor = s.currentOffset - s.writeBuf.length + s.writeBuf.length) :
    s'.Ok ∧ s.Grows s' := by
  have hle := hs.buffered bucket h
  have hsize := hs.overwrite_size h s.writeBuf
  have hwritten : ∀ bucket', s'.written bucket' = s.content bucket' := by
    intro bucket'
    unfold content written
    rw [hraw, hfiles, hoffset, hbuf, overwrite]
    by_cases hb : bucket' = bucket
    · subst hb
      rw [if_pos h, if_pos h, if_pos h, update_self,
        ← take_writeAt_end (hs.size bucket' h), Nat.sub_add_cancel hle]
      rfl
    · have hne : s.rawFile ≠ some bucket' := fun h' => hb (Option.some.inj (h'.symm.trans h))
      rw [if_neg hne, if_neg hne, if_neg hne, update_of_ne hb]
  refine ⟨⟨fun b hb => ?_, fun b hb => ?_, fun b hb => ?_, fun _ _ => ?_, fun _ => hbuf⟩,
    fun b => ?_, fun b => by rw [content_eq_written hbuf, hwritten]⟩
  · exact hpath ▸ hs.path b (hraw ▸ hb)
  · rw [hbuf]
    exact Nat.zero_le _
  · cases h.symm.trans (hraw ▸ hb)
    rw [hfiles, hbuf, length_nil]
    omega
  · rw [hcursor, hoffset, hbuf, length_nil, Nat.sub_zero, Nat.sub_add_cancel hle]
  · rw [hwritten]
    unfold content
    split
    · exact prefix_append _ _
    · exact prefix_refl _

/-- Writing the buffer keeps every record where it is; once it succeeds, the buffer is empty. -/
theorem flushRawBuf_spec (hs : s.Ok) :
    (s.flushRawBuf io).2.Ok ∧ s.Grows (s.flushRawBuf io).2 ∧
      (s.flushRawBuf io).2.rawFile = s.rawFile ∧ (s.flushRawBuf io).2.rawPath = s.rawPath ∧
      ((s.flushRawBuf io).1 = true → (s.flushRawBuf io).2.writeBuf = []) := by
  unfold flushRawBuf
  split
  next hempty => exact ⟨hs, .refl s, rfl, rfl, fun _ => isEmpty_iff.mp hempty⟩
  cases h : s.rawFile with
  | none => exact ⟨hs, .refl s, h, rfl, fun _ => hs.closed h⟩
  | some bucket =>
    dsimp only
    split
    · exact ⟨hs, .refl s, h, rfl, nofun⟩
    have hcursor : (if s.posKnown = true then s.cursor else s.currentOffset - s.writeBuf.length) =
        s.currentOffset - s.writeBuf.length := by
      split
      next hpos => exact hs.cursor (by rw [h]; nofun) hpos
      next => rfl
    rw [hcursor]
    cases io.failsAfter with
    | none =>
      exact and_assoc.mp ⟨hs.overwrite_all h rfl h.symm rfl rfl rfl rfl, rfl, rfl, fun _ => rfl⟩
    | some n =>
      exact and_assoc.mp ⟨hs.overwrite_part h rfl h.symm rfl rfl rfl rfl, rfl, rfl, nofun⟩

theorem grows_of_reopened (hbuf : s.writeBuf = []) (hfiles : s'.files = s.files)
    (hbuf' : s'.writeBuf = [])
    (hend : ∀ bucket, s'.rawFile = some bucket → s'.currentOffset = (s.files bucket).length) :
    s.Grows s' := by
  have hwritten : ∀ bucket, s'.written bucket = s.files bucket := by
    intro bucket
    unfold written
    rw [hfiles]
    split
    next h =>
      rw [hbuf', hend bucket h]
      exact List.take_length
    next => rfl
  refine ⟨fun b => ?_, fun b => ?_⟩
  · rw [hwritten]
    exact s.written_prefix_files
  · rw [content_eq_written hbuf, content_eq_written hbuf', hwritten]
    exact s.written_prefix_files

def Leaves (bucket : β) (s s' : Storage β) : Rotated → Prop
  | .failed => s'.rawFile = s.rawFile ∨ s'.rawFile = none
  | .kept => s'.rawFile = s.rawFile ∧ s.rawFile ≠ none
  | .switched => s'.rawFile = some bucket

theorem switch_spec (hs : s.Ok) (hbuf : s.writeBuf = [])
    (hpath : s.rawFile = none → s.rawPath ≠ some bucket) :
    (s.switch io bucket).2.Ok ∧ s.Grows (s.switch io bucket).2 ∧
      (s.switch io bucket).2.writeBuf = [] ∧
      Leaves bucket s (s.switch io bucket).2 (s.switch io bucket).1 := by
  have hclosed (s' : Storage β) (hraw : s'.rawFile = none) (hbuf' : s'.writeBuf = []) : s'.Ok :=
    ⟨by simp [hraw], by simp [hraw], by simp [hraw], by simp [hraw], fun _ => hbuf'⟩
  unfold switch
  split
  · exact ⟨hs, .refl s, hbuf, .inl rfl⟩
  split
  next hsame => exact ⟨hs, .refl s, hbuf, rfl, fun hnone => hpath hnone hsame⟩
  cases io with
  | createDirFails | openFails | metadataFails | seekFails =>
    exact ⟨hclosed _ rfl hbuf, grows_of_reopened hbuf rfl hbuf nofun, hbuf, .inr rfl⟩
  | ok =>
    refine ⟨⟨fun _ h => h, fun _ _ => ?_, fun b h => ?_, fun _ _ => ?_, nofun⟩,
      grows_of_reopened hbuf rfl hbuf ?_, hbuf, rfl⟩
    · simp [hbuf]
    · cases h
      exact Nat.sub_le _ _
    · simp [hbuf]
    · rintro b ⟨⟩
      rfl

theorem rotate_spec (hs : s.Ok) (hpath : s.rawFile = none → s.rawPath ≠ some bucket) :
    (s.rotate writeIo io bucket).2.Ok ∧ s.Grows (s.rotate writeIo io bucket).2 ∧
      ((s.rotate writeIo io bucket).1 = .switched → (s.rotate writeIo io bucket).2.writeBuf = []) ∧
      Leaves bucket s (s.rotate writeIo io bucket).2 (s.rotate writeIo io bucket).1 := by
  obtain ⟨hok, hgrows, hraw, hrawPath, hbuf⟩ := flushRawBuf_spec hs
  unfold rotate
  rcases hflush : s.flushRawBuf writeIo with ⟨_ | _, s₁⟩ <;>
    rw [hflush] at hok hgrows hraw hrawPath hbuf
  · exact ⟨hok, hgrows, nofun, .inl hraw⟩
  · have hpath₁ : s₁.rawFile = none → s₁.rawPath ≠ some bucket :=
      fun hnone => hrawPath ▸ hpath (hraw ▸ hnone)
    obtain ⟨hok', hgrows', hbuf', hleaves⟩ := switch_spec hok (hbuf rfl) hpath₁
    refine ⟨hok', hgrows.trans hgrows', fun _ => hbuf', ?_⟩
    unfold Leaves at hleaves ⊢
    rw [hraw] at hleaves
    exact hleaves

theorem length_rawRecord (packet : ProcessedPacket) :
    (rawRecord packet).length = 10 + packet.payload.length := by
  simp [rawRecord]
  omega

theorem append_spec (hs : s.Ok) (h : s.rawFile = some bucket)
    (hsized : packet.compSize = packet.payload.length) :
    (s.append packet).Ok ∧ s.Grows (s.append packet) ∧
      HasAt ((s.append packet).content bucket) s.currentOffset (rawRecord packet) := by
  have hstart : (s.append packet).currentOffset - (s.append packet).writeBuf.length =
      s.currentOffset - s.writeBuf.length := by
    have := length_rawRecord packet
    simp only [append, length_append]
    omega
  have hwritten : ∀ b, (s.append packet).written b = s.written b := by
    intro b
    unfold written
    rw [hstart]
    rfl
  have hcontent : ∀ b, s.content b <+: (s.append packet).content b := by
    intro b
    unfold content
    rw [hwritten]
    change _ <+: if s.rawFile = some b then s.written b ++ (s.writeBuf ++ rawRecord packet)
      else s.written b
    split
    · rw [← append_assoc]
      exact prefix_append _ _
    · exact prefix_refl _
  refine ⟨⟨hs.path, fun b hb => ?_, fun b hb => hstart ▸ hs.size b hb,
    fun hopen hpos => hstart ▸ hs.cursor hopen hpos, fun hnone => ?_⟩,
    ⟨fun b => by rw [hwritten], hcontent⟩, ?_⟩
  · have := hs.buffered b hb
    have := length_rawRecord packet
    simp only [append, length_append]
    omega
  · rw [show (s.append packet).rawFile = s.rawFile from rfl, h] at hnone
    cases hnone
  · have : (s.append packet).content bucket = s.content bucket ++ rawRecord packet := by
      have happend : (s.append packet).rawFile = some bucket := h
      rw [content_open happend, content_open h, hwritten, append_assoc]
      rfl
    rw [this, ← length_content hs h]
    exact hasAt_append

/-! ## Reading a record back -/

section

variable {gzip : UInt32 → List UInt8 → Option (List UInt8)}

theorem maybeCompressPayload_cases : maybeCompressPayload gzip minSize payload level = payload ∨
      ¬gzipMagic <+: payload ∧
        gzip (min level 9) payload = some (maybeCompressPayload gzip minSize payload level) := by
  unfold maybeCompressPayload
  split_ifs with h
  · exact .inl rfl
  · simp only [Bool.or_eq_true, isPrefixOf_iff_prefix, not_or] at h
    cases hgzip : gzip (min level 9) payload with
    | none => exact .inl rfl
    | some data => exact .inr ⟨h.1.2, rfl⟩

/-- Only the first compression does anything: what it gives begins with the magic. -/
theorem foldl_maybeCompressPayload {gunzip : List UInt8 → Option (List UInt8)}
    (hgzip : ∀ level payload data, gzip level payload = some data →
      gunzip data = some payload ∧ gzipMagic <+: data)
    (minSize : Nat) (levels : List UInt32) (payload : List UInt8) :
    let stored := levels.foldl (maybeCompressPayload gzip minSize) payload
    stored = payload ∨ gunzip stored = some payload ∧ gzipMagic <+: stored := by
  refine levels.foldlRecOn (motive := fun stored => stored = payload ∨
    gunzip stored = some payload ∧ gzipMagic <+: stored) _ (.inl rfl) ?_
  intro stored h level _
  obtain heq | ⟨hnot, hdata⟩ := maybeCompressPayload_cases
  · rwa [heq]
  · obtain rfl | ⟨-, hmagic⟩ := h
    · exact .inr (hgzip _ _ _ hdata)
    · exact absurd hmagic hnot

theorem payload_of_hasAt (h : HasAt file offset (rawRecord packet)) :
    (file.drop (offset + rawRecordHeaderLen)).take packet.payload.length = packet.payload := by
  obtain ⟨before, after, rfl, rfl⟩ := h
  rw [rawRecord, ← append_assoc before, append_assoc, drop_left', take_left]
  simp [rawRecordHeaderLen]

/-- **A payload is read back** from where the metadata of its packet says, once the buffer has been
written, however often it was compressed before. -/
theorem readRawPayload_compressed (gzip : UInt32 → List UInt8 → Option (List UInt8))
    (gunzip unzstd : List UInt8 → Option (List UInt8))
    (hgzip : ∀ level payload data, gzip level payload = some data →
      gunzip data = some payload ∧ gzipMagic <+: data)
    (minSize : Nat) (levels : List UInt32) (payload : List UInt8)
    (hplain : ¬gzipMagic <+: payload ∧ ¬zstdMagic <+: payload)
    (s : Storage β) (hs : s.Ok) (bucket : β) (hraw : s.rawFile = some bucket)
    (packet : ProcessedPacket)
    (hpacket : packet.payload = levels.foldl (maybeCompressPayload gzip minSize) payload)
    (hsized : packet.compSize = packet.payload.length)
    (io : WriteIo) (hflushed : ((s.append packet).flushRawBuf io).1 = true) :
    readRawPayload gunzip unzstd (((s.append packet).flushRawBuf io).2.files bucket)
      (s.metaOf packet).offset (s.metaOf packet).size = some payload := by
  obtain ⟨happend, -, hat⟩ := append_spec hs hraw hsized
  obtain ⟨-, hgrows, -, -, hbuf⟩ := @flushRawBuf_spec _ _ _ io happend
  have hdisk := hat.mono (hgrows.content bucket)
  rw [content_eq_written (hbuf hflushed)] at hdisk
  have hread := payload_of_hasAt (hdisk.mono (written_prefix_files _))
  have hstored := foldl_maybeCompressPayload hgzip minSize levels payload
  rw [← hpacket] at hstored
  change readRawPayload _ _ _ s.currentOffset packet.compSize = _
  simp only [readRawPayload, hsized, hread, lt_irrefl, if_false, isPrefixOf_iff_prefix]
  obtain heq | ⟨hgunzip, hmagic⟩ := hstored
  · rw [heq, if_neg hplain.2, if_neg hplain.1]
  · have hzstd : ¬zstdMagic <+: packet.payload := by
      obtain ⟨rest, hrest⟩ := hmagic
      rw [← hrest]
      exact fun h => absurd (cons_prefix_cons.mp h).1 (by decide)
    rw [if_neg hzstd, if_pos hmagic, hgunzip]

/-- A compression that puts the magic in front, applied twice, and a record behind another. -/
theorem readRawPayload_compressed_twice :
    let gzip := fun (_ : UInt32) payload => some (gzipMagic ++ payload)
    let payload := [6, 6].foldl (maybeCompressPayload gzip 1) [1, 2]
    let packet : ProcessedPacket := ⟨.sip, none, "", "", none, 0, payload, 2, payload.length⟩
    let s : Storage Unit :=
      { files := fun _ => [7, 7, 7], rawFile := some (), rawPath := some (), cursor := 3,
        currentOffset := 3 }
    readRawPayload (fun data => some (data.drop 2)) some
      (((s.append packet).flushRawBuf ⟨true, none⟩).2.files ()) 3 4 = some [1, 2] := by
  refine readRawPayload_compressed (fun _ payload => some (gzipMagic ++ payload)) _ _ ?_ 1 [6, 6]
    [1, 2] (by decide) _ ⟨by simp, by simp, by simp, by simp, by simp⟩ () rfl _ rfl rfl
    ⟨true, none⟩ rfl
  rintro _ payload _ ⟨⟩
  exact ⟨rfl, prefix_append ..⟩

end

/-- The record of the packet stands at its offset, in the file of its bucket or in the buffer. -/
def Placed (s : Storage β) (m : FlushMeta (Source β)) : Prop :=
  ∃ bucket, m.source.bucket = some bucket ∧ HasAt (s.content bucket) m.offset m.source.record

/-- The record of the packet has been written at its offset. -/
def OnDisk (s : Storage β) (m : FlushMeta (Source β)) : Prop :=
  ∃ bucket, m.source.bucket = some bucket ∧ HasAt (s.written bucket) m.offset m.source.record

theorem Placed.mono (h : s.Placed m) (hgrows : s.Grows s') : s'.Placed m :=
  h.imp fun bucket h => ⟨h.1, h.2.mono (hgrows.content bucket)⟩

theorem OnDisk.mono (h : s.OnDisk m) (hgrows : s.Grows s') : s'.OnDisk m :=
  h.imp fun bucket h => ⟨h.1, h.2.mono (hgrows.written bucket)⟩

theorem Placed.onDisk (h : s.Placed m) (hbuf : s.writeBuf = []) : s.OnDisk m :=
  h.imp fun _ h => ⟨h.1, content_eq_written hbuf ▸ h.2⟩

end Storage

end RustPbx.Sipflow
