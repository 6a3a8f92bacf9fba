import RustPbx.Lib.ByteFile
import RustPbx.Sipflow.Flusher
import RustPbx.Sipflow.Process

/-!
The storage worker of the local sipflow backend, and its work with the flusher.

The worker appends records to the `data.raw` of the current bucket, through a buffer, and hands the
flusher what is to be written to the `sipflow.db` beside it. Which bucket a rotation leads to is an
input. A write that fails has put some of its bytes into the file. A worker operation that waits to
send is a phase of its own, at which the flusher can take its steps.
-/

namespace RustPbx.Sipflow

open List

def rawWriteBufSize : Nat := 64 * 1024

/-- Year, month, day and hour. -/
abbrev Hour := Int × Nat × Nat × Nat

structure Source (β : Type) where
  bucket : Option β
  record : List UInt8

def rawRecord (packet : ProcessedPacket) : List UInt8 :=
  Bytes.put 2 0x5346 ++ Bytes.put 4 packet.origSize ++ Bytes.put 4 packet.compSize ++ packet.payload

/-- `StorageManager` and the raw files. `cursor` is the position in the open raw file. -/
structure Storage (β : Type) where
  files : β → List UInt8
  currentHour : Hour := (0, 0, 0, 0)
  rawFile : Option β := none
  cursor : Nat := 0
  rawPath : Option β := none
  currentOffset : Nat := 0
  posKnown : Bool := true
  writeBuf : List UInt8 := []

/-- How the writing of the buffer goes: whether a seek succeeds, and after how many bytes the write
fails, if it fails. -/
structure WriteIo where
  seeks : Bool
  failsAfter : Option Nat

inductive OpenIo where
  | createDirFails
  | openFails
  | metadataFails
  | seekFails
  | ok
  deriving DecidableEq

inductive Rotated where
  | failed
  /-- The bucket is the current one. -/
  | kept
  | switched

namespace Storage

variable [DecidableEq β]

def flushRawBuf (io : WriteIo) (s : Storage β) : Bool × Storage β :=
  if s.writeBuf.isEmpty then (true, s)
  else
    match s.rawFile with
    | none => (true, s)
    | some bucket =>
      let offset := s.currentOffset - s.writeBuf.length
      if !s.posKnown && !io.seeks then (false, s)
      else
        let cursor := if s.posKnown then s.cursor else offset
        match io.failsAfter with
        | none =>
          (true, { s with
            files := Function.update s.files bucket
              (ByteFile.writeAt cursor s.writeBuf (s.files bucket))
            cursor := cursor + s.writeBuf.length
            posKnown := true
            writeBuf := [] })
        | some n =>
          (false, { s with
            files := Function.update s.files bucket
              (ByteFile.writeAt cursor (s.writeBuf.take n) (s.files bucket))
            cursor := cursor + (s.writeBuf.take n).length
            posKnown := false })

def switch (io : OpenIo) (bucket : β) (s : Storage β) : Rotated × Storage β :=
  if io = .createDirFails then (.failed, s)
  else if s.rawPath = some bucket then (.kept, s)
  else
    let s := { s with rawFile := none }
    match io with
    | .createDirFails | .openFails | .metadataFails => (.failed, s)
    | .seekFails => (.failed, { s with currentOffset := (s.files bucket).length })
    | .ok =>
      (.switched, { s with
        currentOffset := (s.files bucket).length
        cursor := (s.files bucket).length
        posKnown := true
        rawFile := some bucket
        rawPath := some bucket })

def rotate (writeIo : WriteIo) (io : OpenIo) (bucket : β) (s : Storage β) : Rotated × Storage β :=
  match s.flushRawBuf writeIo with
  | (false, s) => (.failed, s)
  | (true, s) => s.switch io bucket

def append (packet : ProcessedPacket) (s : Storage β) : Storage β :=
  { s with
    writeBuf := s.writeBuf ++ rawRecord packet
    currentOffset := s.currentOffset + (10 + packet.compSize) }

def metaOf (packet : ProcessedPacket) (s : Storage β) : FlushMeta (Source β) where
  msgType := packet.msgType
  callid := packet.callid
  src := packet.src
  dst := packet.dst
  leg := packet.leg
  timestamp := packet.timestamp
  offset := s.currentOffset
  size := packet.compSize
  source := { bucket := s.rawFile, record := rawRecord packet }

end Storage

/-! ## The worker and the flusher -/

inductive WorkerPhase (β : Type) where
  | idle
  /-- About to tell the flusher of a new bucket, before a packet is appended. -/
  | sendRotate (bucket : β) (hour : Hour) (packet : ProcessedPacket)
  | append (packet : ProcessedPacket)
  | sendMeta (m : FlushMeta (Source β))
  | sendFlush (sync : Bool)

structure Pipeline (β : Type) where
  storage : Storage β
  phase : WorkerPhase β
  channel : List (FlushCommand β (Source β))
  flusher : Flusher β (Source β)

def flusherCapacity (flushCount : Nat) : Nat := max flushCount 1000 * 2

/-- What happens next, with everything that is not determined by the state. -/
inductive PipelineInput (β : Type) where
  | write (packet : ProcessedPacket) (hour : Hour) (bucket : β) (writeIo : WriteIo) (io : OpenIo)
  | append (io : WriteIo)
  | send
  | flush (sync : Bool) (io : WriteIo)
  /-- The flusher takes a command, so long after its last flush. -/
  | command (elapsed : Nat)
  | slice (hash : HashOrder) (fault : Option Fault)
  | openDb (opened : Bool)

namespace Pipeline

variable {β : Type} [DecidableEq β]

def write (packet : ProcessedPacket) (hour : Hour) (bucket : β) (writeIo : WriteIo) (io : OpenIo)
    (p : Pipeline β) : Pipeline β :=
  if p.storage.rawFile.isNone || p.storage.currentHour ≠ hour then
    match p.storage.rotate writeIo io bucket with
    | (.failed, storage) => { p with storage }
    | (.kept, storage) =>
      { p with storage := { storage with currentHour := hour }, phase := .append packet }
    | (.switched, storage) => { p with storage, phase := .sendRotate bucket hour packet }
  else { p with phase := .append packet }

def append (packet : ProcessedPacket) (io : WriteIo) (p : Pipeline β) : Pipeline β :=
  let m := p.storage.metaOf packet
  let storage := p.storage.append packet
  if rawWriteBufSize ≤ storage.writeBuf.length then
    match storage.flushRawBuf io with
    | (false, storage) => { p with storage, phase := .idle }
    | (true, storage) => { p with storage, phase := .sendMeta m }
  else { p with storage, phase := .sendMeta m }

def flush (sync : Bool) (io : WriteIo) (p : Pipeline β) : Pipeline β :=
  match p.storage.flushRawBuf io with
  | (false, storage) => { p with storage }
  | (true, storage) => { p with storage, phase := .sendFlush sync }

def push (cmd : FlushCommand β (Source β)) (p : Pipeline β) : Pipeline β :=
  { p with channel := if p.flusher.phase = .dead then p.channel else p.channel ++ [cmd] }

/-- The message that the worker is about to send, and where it goes on. `force_flush` waits for its
answer, on which nothing depends. -/
def send (p : Pipeline β) : Option (Pipeline β) :=
  match p.phase with
  | .sendRotate bucket hour packet =>
    some { p.push (.rotate bucket) with
      storage := { p.storage with currentHour := hour }, phase := .append packet }
  | .sendMeta m => some { p.push (.fmeta m) with phase := .idle }
  | .sendFlush sync =>
    some { p.push (if sync then .flushSync else .flush) with phase := .idle }
  | .idle | .append _ => none

/-- One step of the worker or of the flusher. A packet has been through `processPacketWithAddr`,
which makes `compSize` the length of the payload. -/
def step (config : FlusherConfig) (p : Pipeline β) : PipelineInput β → Option (Pipeline β)
  | .write packet hour bucket writeIo io =>
    match p.phase with
    | .idle =>
      if packet.compSize = packet.payload.length then
        some (p.write packet hour bucket writeIo io)
      else none
    | _ => none
  | .append io =>
    match p.phase with
    | .append packet => some (p.append packet io)
    | _ => none
  | .send =>
    if p.channel.length < flusherCapacity config.flushCount || p.flusher.phase = .dead then p.send
    else none
  | .flush sync io =>
    match p.phase with
    | .idle => some (p.flush sync io)
    | _ => none
  | .command elapsed =>
    match p.flusher.phase, p.channel with
    | .idle, cmd :: channel =>
      some { p with channel, flusher := p.flusher.handleFlushCommand config elapsed cmd }
    | _, _ => none
  | .slice hash fault =>
    match p.flusher.phase, p.flusher.conn with
    | .flushing next, some bucket =>
      some { p with flusher := p.flusher.flushSlice hash fault bucket next }
    | _, _ => none
  | .openDb opened =>
    match p.flusher.phase with
    | .opening bucket => some { p with flusher := p.flusher.openDb opened bucket }
    | _ => none

/-- The worker and the flusher get from one state to another, by steps that meet `C`. -/
def Runs (config : FlusherConfig) (C : Pipeline β → PipelineInput β → Prop) :
    Pipeline β → Pipeline β → Prop :=
  Relation.ReflTransGen fun p p' => ∃ input, C p input ∧ p.step config input = some p'

end Pipeline

def rawRecordHeaderLen : Nat := 10

def readRawPayload (gunzip unzstd : List UInt8 → Option (List UInt8)) (file : List UInt8)
    (offset size : Nat) : Option (List UInt8) :=
  let buf := (file.drop (offset + rawRecordHeaderLen)).take size
  if buf.length < size then none
  else if zstdMagic.isPrefixOf buf then unzstd buf
  else if gzipMagic.isPrefixOf buf then gunzip buf
  else some buf

end RustPbx.Sipflow
