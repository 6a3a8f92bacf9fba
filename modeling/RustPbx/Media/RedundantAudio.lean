import RustPbx.Media.Recorder

/-!
Redundant audio, as the recorder reads it.

`redWalk` goes over the headers by position, with `none` for a read out of bounds. There is none
(`redExtract_eq`), and what is extracted is the newest block (`red_primary_extracted`).
-/

namespace RustPbx.Media.Recorder

open List Option

/-- The end of the headers, and the length of the blocks before the newest one. -/
def redWalk (encoded : List UInt8) (pos redundantLen : Nat) : Option (Option (Nat × Nat)) :=
  if _ : pos ≥ encoded.length then some none
  else
    encoded[pos]?.bind fun hdr =>
      if hdr &&& 0x80 ≠ 0 then
        if pos + 1 + 2 ≥ encoded.length then some none
        else
          encoded[pos + 1 + 1]?.bind fun high => encoded[pos + 1 + 2]?.bind fun low =>
            redWalk encoded (pos + 1 + 3) (redundantLen + ((high &&& 0x03).toNat * 256 + low.toNat))
      else some (some (pos + 1, redundantLen))
termination_by encoded.length - pos

def redExtract (audioPayloadType : Option UInt8) (encoded : List UInt8) :
    Option (Option (List UInt8)) :=
  if encoded.length > 1 then
    encoded[0]?.bind fun first =>
      if some (first &&& 0x7f) = audioPayloadType then
        (redWalk encoded 0 0).map fun walked => walked.bind fun (hdrEnd, redundantLen) =>
          if hdrEnd + redundantLen < encoded.length then
            some (encoded.drop (hdrEnd + redundantLen))
          else none
      else some none
  else some none

theorem redWalk_append (before encoded : List UInt8) (redundantLen : Nat) :
    redWalk (before ++ encoded) before.length redundantLen =
      some ((redHeader encoded).map fun (headers, redundant) =>
        (before.length + headers, redundantLen + redundant)) := by
  induction encoded using redHeader.induct generalizing before redundantLen with
  | case1 => simp [redWalk, redHeader]
  | case2 header hflag offset high low rest ih =>
    have hrest := ih (before ++ [header, offset, high, low])
      (redundantLen + ((high &&& 0x03).toNat * 256 + low.toNat))
    rw [redWalk, redHeader]
    simp +arith [hflag] at hrest ⊢
    rw [hrest]
    cases redHeader rest <;> simp +arith
  | case3 header rest hflag hshort =>
    rw [redWalk, redHeader]
    · match rest with
      | [] | [_] | [_, _] => simp +arith [hflag]
      | a :: b :: c :: rest => exact absurd rfl (hshort a b c rest)
    · exact hshort
  | case4 header rest hflag =>
    unfold redHeader
    rw [redWalk]
    simp +arith [not_not.mp hflag]

/-- No byte is read out of bounds, and the walk is that of `redHeader`. -/
theorem redExtract_eq (audioPayloadType : Option UInt8) (encoded : List UInt8) :
    redExtract audioPayloadType encoded = some (redPrimary audioPayloadType encoded) := by
  match encoded with
  | [] | [_] => rfl
  | first :: second :: rest =>
    have hwalk := redWalk_append [] (first :: second :: rest) 0
    simp only [nil_append, length_nil] at hwalk
    rw [redExtract, if_pos (by simp), redPrimary, getElem?_cons_zero, bind_some, hwalk]
    split
    · simp
    · rfl

/-- A block that was sent before. -/
structure RedBlock where
  payloadType : Fin 128
  timestampOffset : Fin (2 ^ 14)
  data : List UInt8
  short : data.length < 1024

def RedBlock.header (block : RedBlock) : List UInt8 :=
  let fields := block.timestampOffset * 1024 + block.data.length
  [.ofNat (128 + block.payloadType), .ofNat (fields / 65536), .ofNat (fields / 256), .ofNat fields]

def redPayload (blocks : List RedBlock) (payloadType : Fin 128) (primary : List UInt8) :
    List UInt8 :=
  blocks.flatMap (·.header) ++ .ofNat payloadType :: (blocks.flatMap (·.data) ++ primary)

def firstType (blocks : List RedBlock) (payloadType : Fin 128) : Fin 128 :=
  (blocks.head?.map (·.payloadType)).getD payloadType

theorem redHeader_redPayload (blocks : List RedBlock) (payloadType : Fin 128) (rest : List UInt8) :
    redHeader (blocks.flatMap (·.header) ++ .ofNat payloadType :: rest) =
      some ((blocks.flatMap (·.header)).length + 1, (blocks.flatMap (·.data)).length) := by
  induction blocks with
  | nil =>
    have hlast : ∀ payloadType : Fin 128, ¬UInt8.ofNat payloadType &&& 0x80 ≠ 0 := by decide
    unfold redHeader
    exact if_neg (hlast payloadType)
  | cons block blocks ih =>
    have hflag : ∀ payloadType : Fin 128, UInt8.ofNat (128 + payloadType) &&& 0x80 ≠ 0 := by decide
    have hlength : (UInt8.ofNat ((block.timestampOffset * 1024 + block.data.length) / 256) &&&
        0x03).toNat * 256 + (UInt8.ofNat (block.timestampOffset * 1024 + block.data.length)).toNat =
          block.data.length := by
      have hshort := block.short
      rw [UInt8.toNat_and, UInt8.toNat_ofNat', UInt8.toNat_ofNat']
      change (_ &&& 2 ^ 2 - 1) * _ + _ = _
      rw [Nat.and_two_pow_sub_one_eq_mod]
      omega
    rw [flatMap_cons, flatMap_cons, RedBlock.header, length_append, length_append]
    simp only [cons_append, nil_append, redHeader, if_pos (hflag _), ih, hlength]
    simp +arith

/-- **Redundant audio**: the recorder extracts the newest block of every payload that starts with a
block of the negotiated type, and reads no bytes out of bounds. -/
theorem red_primary_extracted :
    (∀ blocks payloadType byte rest, redExtract (some (.ofNat (firstType blocks payloadType)))
      (redPayload blocks payloadType (byte :: rest)) = some (some (byte :: rest))) ∧
      ∀ audioPayloadType encoded, (redExtract audioPayloadType encoded).isSome := by
  constructor
  · intro blocks payloadType byte rest
    obtain ⟨first, hfirst, htype⟩ : ∃ first,
        (redPayload blocks payloadType (byte :: rest))[0]? = some first ∧
          first &&& 0x7f = .ofNat (firstType blocks payloadType) := by
      cases blocks with
      | nil =>
        have hmask : ∀ t : Fin 128, UInt8.ofNat t &&& 0x7f = .ofNat t := by decide
        exact ⟨_, rfl, hmask payloadType⟩
      | cons block =>
        have hmask : ∀ t : Fin 128, UInt8.ofNat (128 + t) &&& 0x7f = .ofNat t := by decide
        exact ⟨_, rfl, hmask block.payloadType⟩
    have hwalk := redWalk_append [] (redPayload blocks payloadType (byte :: rest)) 0
    simp only [nil_append, length_nil, Nat.zero_add] at hwalk
    rw [redPayload, redHeader_redPayload] at hwalk
    rw [redExtract, hfirst, redPayload, if_pos (by simp; omega), bind_some,
      if_pos (congrArg some htype), hwalk]
    simp only [map_some, bind_some]
    rw [if_pos (by simp; omega), Nat.add_assoc, drop_length_add_append, Nat.add_comm,
      drop_succ_cons, drop_left]
  · intro audioPayloadType encoded
    rw [redExtract_eq]
    rfl

end RustPbx.Media.Recorder
