import RustPbx.Lib.Bytes
import RustPbx.Media.Recorder

/-!
WAV files.

The header holds the size of the file and that of the data. It is written before the data and again
at the end; both fields are numbers of 32 bits, and the first one wraps before the second does.
-/

namespace RustPbx.Media

open Bytes List UInt32

def toLeBytes (width n : Nat) : List UInt8 :=
  (put width n).reverse

def fromLeBytes (bytes : List UInt8) : Nat :=
  value bytes.reverse

theorem fromLeBytes_toLeBytes : fromLeBytes (toLeBytes width n) = n % 256 ^ width := by
  rw [fromLeBytes, toLeBytes, reverse_reverse, value_put]

@[simp] theorem length_toLeBytes : (toLeBytes width n).length = width := by
  simp [toLeBytes]

def riffTag : List UInt8 := [0x52, 0x49, 0x46, 0x46]
def waveTag : List UInt8 := [0x57, 0x41, 0x56, 0x45]
def fmtTag : List UInt8 := [0x66, 0x6D, 0x74, 0x20]
def dataTag : List UInt8 := [0x64, 0x61, 0x74, 0x61]

structure WavSpec where
  codec : Option CodecType
  sampleRate : UInt32
  channels : UInt16

namespace WavSpec

def formatTag (spec : WavSpec) : UInt16 :=
  match spec.codec with
  | some .pcmu => 0x0007
  | some .pcma => 0x0006
  | some .g722 => 0x0065
  | some .g729 => 0x0083
  | _ => 0x0001

def rates (spec : WavSpec) : UInt16 × UInt32 × UInt16 :=
  match spec.codec with
  | some .pcmu | some .pcma => (8, spec.sampleRate * spec.channels.toUInt32, spec.channels)
  | some .g722 => (8, 8000 * spec.channels.toUInt32, spec.channels)
  | some .g729 => (8, 1000 * spec.channels.toUInt32, 10 * spec.channels)
  | _ => (16, spec.sampleRate * spec.channels.toUInt32 * 2, spec.channels * 2)

end WavSpec

def wavHeader (spec : WavSpec) (dataSize : UInt32) : List UInt8 :=
  let (bits, byteRate, blockAlign) := spec.rates
  riffTag ++ toLeBytes 4 (36 + dataSize).toNat ++ (waveTag ++ fmtTag ++ toLeBytes 4 16 ++
    toLeBytes 2 spec.formatTag.toNat ++ toLeBytes 2 spec.channels.toNat ++
    toLeBytes 4 spec.sampleRate.toNat ++ toLeBytes 4 byteRate.toNat ++
    toLeBytes 2 blockAlign.toNat ++ toLeBytes 2 bits.toNat ++ dataTag) ++
    toLeBytes 4 dataSize.toNat

structure CodecWavWriter where
  file : List UInt8
  spec : WavSpec
  writtenBytes : UInt32

namespace CodecWavWriter

def create (spec : WavSpec) : CodecWavWriter :=
  ⟨wavHeader spec 0, spec, 0⟩

def writePacket (w : CodecWavWriter) (data : List UInt8) : CodecWavWriter :=
  { w with file := w.file ++ data, writtenBytes := w.writtenBytes + .ofNat data.length }

def finalize (w : CodecWavWriter) : CodecWavWriter :=
  { w with file := wavHeader w.spec w.writtenBytes ++ w.file.drop 44 }

end CodecWavWriter

/-- The file of an export: the size of the data is cut to 32 bits. -/
def exportWav (spec : WavSpec) (data : List UInt8) : List UInt8 :=
  wavHeader spec (if data.length < 2 ^ 32 then .ofNat data.length else 0xFFFFFFFF) ++ data

def sizeFields (file : List UInt8) : Nat × Nat :=
  (fromLeBytes ((file.drop 4).take 4), fromLeBytes ((file.drop 40).take 4))

theorem sizeFields_wavHeader (spec : WavSpec) (dataSize : UInt32) (data : List UInt8) :
    sizeFields (wavHeader spec dataSize ++ data) = ((36 + dataSize).toNat, dataSize.toNat) := by
  have hfile (n : UInt32) : fromLeBytes (toLeBytes 4 n.toNat) = n.toNat := by
    rw [fromLeBytes_toLeBytes]
    exact Nat.mod_eq_of_lt n.toNat_lt
  unfold sizeFields wavHeader
  refine Prod.ext ?_ ?_
  · simp only [append_assoc]
    rw [drop_left' (show riffTag.length = 4 from rfl),
      take_left' (length_toLeBytes ..), hfile]
  · dsimp only
    rw [append_assoc, drop_left', take_left' (length_toLeBytes ..), hfile]
    simp [riffTag, waveTag, fmtTag, dataTag]

theorem foldl_writePacket (w : CodecWavWriter) (packets : List (List UInt8)) :
    packets.foldl CodecWavWriter.writePacket w = { w with
      file := w.file ++ packets.flatten
      writtenBytes := w.writtenBytes + .ofNat packets.flatten.length } := by
  induction packets generalizing w with
  | nil => simp
  | cons data packets ih =>
    rw [foldl_cons, ih]
    simp [CodecWavWriter.writePacket, UInt32.add_assoc]

/-- **The sizes in the header** are computed modulo 2³², for both writers: from the first length on
that is too large for a field they wrap, and before it they are true. -/
theorem sizeFields_eq (spec : WavSpec) (packets : List (List UInt8)) :
    let size := packets.flatten.length
    let counted := min size (2 ^ 32 - 1)
    let recorded :=
      sizeFields (packets.foldl CodecWavWriter.writePacket (.create spec)).finalize.file
    let exported := sizeFields (exportWav spec packets.flatten)
    recorded = ((36 + size) % 2 ^ 32, size % 2 ^ 32) ∧
      exported = ((36 + counted) % 2 ^ 32, counted) ∧
      (recorded = (36 + size, size) ∧ exported = (36 + counted, counted) ↔ 36 + size < 2 ^ 32) := by
  intro size counted recorded exported
  have hrecorded : recorded = ((36 + size) % 2 ^ 32, size % 2 ^ 32) := by
    simp only [recorded]
    rw [foldl_writePacket, CodecWavWriter.finalize, sizeFields_wavHeader]
    simp only [CodecWavWriter.create, UInt32.zero_add, UInt32.toNat_add, UInt32.toNat_ofNat',
      reduceToNat, Nat.add_mod_mod, size]
  have hexported : exported = ((36 + counted) % 2 ^ 32, counted) := by
    simp only [exported]
    rw [exportWav, sizeFields_wavHeader]
    split_ifs with h
    · simp only [UInt32.toNat_add, UInt32.toNat_ofNat', UInt32.reduceToNat, Prod.mk.injEq]
      omega
    · simp only [UInt32.toNat_add, reduceToNat, Prod.mk.injEq]
      omega
  refine ⟨hrecorded, hexported, ?_⟩
  rw [hrecorded, hexported, Prod.mk.injEq, Prod.mk.injEq]
  omega

/-- The header of a file with too much data says that it has 35 bytes. -/
theorem sizeFields_wrapped :
    sizeFields (exportWav ⟨none, 8000, 2⟩ (List.replicate (2 ^ 32) 0)) = (35, 2 ^ 32 - 1) := by
  rw [exportWav, length_replicate, sizeFields_wavHeader]
  rfl

end RustPbx.Media
