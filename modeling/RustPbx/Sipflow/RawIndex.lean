import RustPbx.Sipflow.RawFile
import RustPbx.Lib.History
import RustPbx.Lib.Machine

/-!
The index of the raw files: what the rows of a bucket database refer to.

That a packet is on disk by the time of its row needs that the flusher writes only when the worker
asks for it, right after it has written its buffer.
-/

namespace RustPbx.Sipflow

open ByteFile FlushCommand Storage Pipeline Flusher

section

def FlushCommand.moves (cur : Option β) : FlushCommand β γ → Option β
  | .rotate bucket => some bucket
  | _ => cur

/-- A packet comes while its bucket is the current one. -/
def FlushCommand.Fits (cur : Option β) : FlushCommand β (Source β) → Prop
  | .fmeta m => m.source.bucket = cur
  | _ => True

def FlushCommand.metas : FlushCommand β γ → List (FlushMeta γ)
  | .fmeta m => [m]
  | _ => []

/-- Every packet comes while its bucket is the current one. -/
def Ordered (cur : Option β) : List (FlushCommand β (Source β)) → Prop
  | [] => True
  | cmd :: cmds => cmd.Fits cur ∧ Ordered (cmd.moves cur) cmds

def bucketAfter (cur : Option β) (cmds : List (FlushCommand β γ)) : Option β :=
  cmds.foldl moves cur

theorem Ordered.append (h : Ordered cur cmds)
    (hcmd : cmd.Fits (bucketAfter cur cmds)) : Ordered cur (cmds ++ [cmd]) := by
  induction cmds generalizing cur with
  | nil => exact ⟨hcmd, trivial⟩
  | cons cmd' cmds ih => exact ⟨h.1, ih h.2 hcmd⟩

theorem bucketAfter_append :
    bucketAfter cur (cmds ++ [cmd]) = cmd.moves (bucketAfter cur cmds) := by
  simp [bucketAfter]

end

/-! ## The flusher -/

namespace Flusher

variable {β : Type} {f : Flusher β γ}

def target (f : Flusher β γ) : Option β :=
  match f.phase with
  | .flushing (.rotate bucket) | .opening bucket => some bucket
  | _ => f.conn

def nextBucket (conn : Option β) : AfterFlush β → Option β
  | .rotate bucket => some bucket
  | _ => conn

theorem target_of_flushing (h : f.phase = .flushing next) : f.target = nextBucket f.conn next := by
  unfold target
  rw [h]
  cases next <;> rfl

theorem target_proceed (f : Flusher β γ) (next : AfterFlush β) :
    (f.proceed next).target = nextBucket f.conn next := by
  cases next <;> rfl

theorem target_startFlush (next : AfterFlush β) :
    (f.startFlush next).target = nextBucket f.conn next := by
  unfold startFlush
  split
  · exact f.target_proceed next
  · exact target_of_flushing rfl

/-- The flusher is not lost, and it opens a database with an empty batch. -/
structure Ready (f : Flusher β γ) : Prop where
  alive : f.phase ≠ .dead
  opening : ∀ bucket, f.phase = .opening bucket → f.batch = []

theorem proceed_ready (next : AfterFlush β) (h : ∀ bucket, next = .rotate bucket → f.batch = []) :
    (f.proceed next).Ready := by
  cases next with
  | nothing | signal => exact ⟨nofun, nofun⟩
  | rotate bucket => exact ⟨nofun, fun _ _ => h bucket rfl⟩

theorem startFlush_ready (next : AfterFlush β) (h : f.conn = none → f.batch = []) :
    (f.startFlush next).Ready := by
  unfold startFlush
  split
  next hor =>
    refine proceed_ready next fun _ _ => ?_
    rcases Bool.or_eq_true_iff.mp hor with hempty | hnone
    · exact List.isEmpty_iff.mp hempty
    · exact h (Option.isNone_iff_eq_none.mp hnone)
  next => exact ⟨nofun, nofun⟩

theorem startFlush_batch (f : Flusher β γ) (next : AfterFlush β) :
    (f.startFlush next).batch = f.batch ∧ (f.startFlush next).conn = f.conn ∧
      (f.startFlush next).dbs = f.dbs := by
  unfold startFlush
  split
  · cases next <;> exact ⟨rfl, rfl, rfl⟩
  · exact ⟨rfl, rfl, rfl⟩

structure Handled (f f' : Flusher β γ) (cmd : FlushCommand β γ) : Prop where
  batch : f'.batch = f.batch ++ cmd.metas
  conn : f'.conn = f.conn
  dbs : f'.dbs = f.dbs
  target : f'.target = cmd.moves f.target
  ready : f'.Ready

theorem startFlush_handled (hidle : f.phase = .idle)
    (hmetas : cmd.metas = []) (hnext : nextBucket f.conn next = cmd.moves f.conn)
    (hconn : f.conn = none → f.batch ++ cmd.metas = []) :
    Handled f (f.startFlush next) cmd := by
  obtain ⟨hbatch, hconn', hdbs⟩ := f.startFlush_batch next
  have htarget : f.target = f.conn := by
    unfold target
    rw [hidle]
  rw [hmetas, List.append_nil] at hconn
  refine ⟨by rw [hbatch, hmetas, List.append_nil], hconn', hdbs, ?_, startFlush_ready next hconn⟩
  rw [target_startFlush, hnext, htarget]

theorem handleFlushCommand_handled
    (hidle : f.phase = .idle) (hconn : f.conn = none → f.batch ++ cmd.metas = []) :
    Handled f (f.handleFlushCommand config elapsed cmd) cmd := by
  cases cmd with
  | fmeta m =>
    unfold handleFlushCommand
    dsimp only
    split
    · -- As if a flush came after the packet.
      have hflush : Handled { f with batch := f.batch ++ [m] }
          (startFlush { f with batch := f.batch ++ [m] } .nothing) .flush :=
        startFlush_handled hidle rfl rfl (by simpa [metas] using hconn)
      obtain ⟨hbatch, hconn', hdbs, htarget, hready⟩ := hflush
      exact ⟨by simpa [metas] using hbatch, hconn', hdbs, htarget, hready⟩
    · refine ⟨rfl, rfl, rfl, rfl, ?_, ?_⟩ <;> simp [hidle]
  | flush | flushSync | rotate => exact startFlush_handled hidle rfl rfl hconn

variable [DecidableEq β]

/-- What a transaction does, if it is not one that fails right before a rotation and leaves packets
in the batch. -/
theorem flushSlice_spec (hash : HashOrder) (bucket : β) (hphase : f.phase = .flushing next)
    (hrest : ∀ bucket, next = .rotate bucket → fault ≠ none → f.batch.length ≤ commitChunkRows) :
    (f.flushSlice hash fault bucket next).batch = f.batch.drop commitChunkRows ∧
      (f.flushSlice hash fault bucket next).conn = f.conn ∧
      (f.flushSlice hash fault bucket next).target = f.target ∧
      (f.flushSlice hash fault bucket next).Ready ∧
      (f.flushSlice hash fault bucket next).dbs = Function.update f.dbs bucket
        (flushSliceInner hash fault (f.batch.take commitChunkRows) (f.dbs bucket) f.cache).2.1 := by
  have hok := flushSliceInner_ok hash (f.batch.take commitChunkRows) (f.dbs bucket) f.cache
  unfold flushSlice
  rcases hslice : flushSliceInner hash fault (f.batch.take commitChunkRows) (f.dbs bucket) f.cache
    with ⟨ok, db, cache⟩
  dsimp only
  split
  · refine ⟨rfl, rfl, ?_, ⟨?_, ?_⟩, rfl⟩
    · rfl
    · simp [hphase]
    · simp [hphase]
  next hstop =>
    refine ⟨?_, ?_, ?_, ?_, ?_⟩
    · cases next <;> rfl
    · cases next <;> rfl
    · rw [target_proceed, target_of_flushing hphase]
    · refine proceed_ready next fun bucket' hrotate => ?_
      cases fault with
      | none =>
        rw [hslice] at hok
        obtain rfl : ok = true := hok
        simpa using hstop
      | some fault => exact List.drop_eq_nil_of_le (hrest bucket' hrotate nofun)
    · cases next <;> rfl

theorem rows_slice {P : β → FlushMeta γ → Prop} {hash : HashOrder} {batch : List (FlushMeta γ)}
    (hd : new = Function.update old bucket
      (flushSliceInner hash fault (batch.take commitChunkRows) (old bucket) lru).2.1)
    (h : ∀ b, (old b).From (P b)) (hbatch : ∀ m ∈ batch, P bucket m) (b : β) :
    (new b).From (P b) := by
  rw [hd]
  by_cases heq : b = bucket
  · subst heq
    rw [Function.update_self]
    exact flushSliceInner_from hash (h b) fun m hm => hbatch m (List.mem_of_mem_take hm)
  · rw [Function.update_of_ne heq]
    exact h b

end Flusher

/-! ## Every row refers to record -/

namespace Pipeline

variable {β : Type} {p p' : Pipeline β}

/-- The last bucket that the flusher knows, or will know of, is the open one. -/
def InStep (p : Pipeline β) : Prop :=
  p.flusher.phase ≠ .dead → ∀ bucket, p.storage.rawFile = some bucket →
      bucketAfter p.flusher.target p.channel = some bucket

/-- No packet is written while no file is open though the path of one is remembered for its bucket,
and no transaction fails right before a rotation with packets left in the batch. -/
def Steady (p : Pipeline β) : PipelineInput β → Prop
  | .write _ _ bucket _ _ => p.storage.rawFile = none → p.storage.rawPath ≠ some bucket
  | .slice _ fault => ∀ bucket, p.flusher.phase = .flushing (.rotate bucket) → fault ≠ none →
    p.flusher.batch.length ≤ commitChunkRows
  | _ => True

theorem InStep.of_eq (h : p.InStep) (hchannel : p'.channel = p.channel)
    (hflusher : p'.flusher = p.flusher)
    (hraw : p'.storage.rawFile = p.storage.rawFile ∨ p'.storage.rawFile = none) : p'.InStep := by
  intro halive bucket hbucket
  rw [hflusher, hchannel]
  rcases hraw with hraw | hraw
  · exact h (hflusher ▸ halive) bucket (hraw ▸ hbucket)
  · rw [hraw] at hbucket
    cases hbucket

/-- The worker and the flusher as they start, on any raw files and any databases whose rows refer to
records in them. -/
structure Start (p : Pipeline β) : Prop where
  rawFile : p.storage.rawFile = none
  writeBuf : p.storage.writeBuf = []
  phase : p.phase = .idle
  channel : p.channel = []
  flusherPhase : p.flusher.phase = .idle
  conn : p.flusher.conn = none
  batch : p.flusher.batch = []
  rows : ∀ bucket, (p.flusher.dbs bucket).From fun m =>
    m.source.bucket = some bucket ∧ HasAt (p.storage.files bucket) m.offset m.source.record

theorem Start.closed (h : p.Start) (bucket : β) : p.storage.rawFile ≠ some bucket := by
  rw [h.rawFile]
  nofun

variable [DecidableEq β]

def WorkerOk (p : Pipeline β) : WorkerPhase β → Prop
  | .idle | .sendFlush _ => p.InStep
  | .sendRotate bucket _ packet =>
    p.storage.rawFile = some bucket ∧ packet.compSize = packet.payload.length
  | .append packet =>
    p.storage.rawFile ≠ none ∧ packet.compSize = packet.payload.length ∧ p.InStep
  | .sendMeta m => p.storage.Placed m ∧ m.source.bucket = p.storage.rawFile ∧ p.InStep

structure Indexed (p : Pipeline β) : Prop where
  storage : p.storage.Ok
  rows : ∀ bucket, (p.flusher.dbs bucket).From fun m =>
    m.source.bucket = some bucket ∧ p.storage.Placed m
  opening : ∀ bucket, p.flusher.phase = .opening bucket → p.flusher.batch = []
  batch : ∀ m ∈ p.flusher.batch, p.storage.Placed m ∧
    (p.flusher.phase ≠ .dead → m.source.bucket = p.flusher.conn)
  ordered : p.flusher.phase ≠ .dead → Ordered p.flusher.target p.channel
  channel : ∀ cmd ∈ p.channel, ∀ m ∈ cmd.metas, p.storage.Placed m
  worker : p.WorkerOk p.phase

/-- The worker is about to send something that makes the flusher write its batch. -/
def asks : WorkerPhase β → Prop
  | .sendRotate .. | .sendFlush _ => True
  | _ => False

/-- A step of the worker that sends nothing. -/
structure Worked (p p' : Pipeline β) : Prop where
  storage : p'.storage.Ok
  grows : p.storage.Grows p'.storage
  channel : p'.channel = p.channel
  flusher : p'.flusher = p.flusher
  worker : p'.WorkerOk p'.phase
  flushed : asks p'.phase → p'.storage.writeBuf = []

theorem Indexed.of_worked (h : p.Indexed) (hw : Worked p p') : p'.Indexed where
  storage := hw.storage
  rows bucket := by
    rw [hw.flusher]
    exact (h.rows bucket).imp fun _ _ hm => ⟨hm.1, hm.2.mono hw.grows⟩
  opening := hw.flusher ▸ h.opening
  batch m hm := by
    rw [hw.flusher] at hm ⊢
    exact ⟨(h.batch m hm).1.mono hw.grows, (h.batch m hm).2⟩
  ordered := by
    rw [hw.flusher, hw.channel]
    exact h.ordered
  channel cmd hcmd m hm := (h.channel cmd (hw.channel ▸ hcmd) m hm).mono hw.grows
  worker := hw.worker

theorem Indexed.inStep (h : p.Indexed) (hidle : p.phase = .idle) : p.InStep := by
  have hworker := h.worker
  rw [hidle] at hworker
  exact hworker

theorem Indexed.write (h : p.Indexed) (hidle : p.phase = .idle)
    (hsized : packet.compSize = packet.payload.length)
    (hsteady : p.storage.rawFile = none → p.storage.rawPath ≠ some bucket) :
    Worked p (p.write packet hour bucket writeIo io) := by
  have hstep := h.inStep hidle
  unfold Pipeline.write
  split
  · obtain ⟨hok, hgrows, hbuf, hleaves⟩ := rotate_spec h.storage hsteady
    rcases hrot : p.storage.rotate writeIo io bucket with ⟨rotated, storage⟩
    rw [hrot] at hok hgrows hbuf hleaves
    cases rotated with
    | failed =>
      refine ⟨hok, hgrows, rfl, rfl, ?_, ?_⟩ <;>
        rw [show ({ p with storage } : Pipeline β).phase = .idle from hidle]
      · exact hstep.of_eq rfl rfl hleaves
      · exact False.elim
    | kept =>
      refine ⟨⟨hok.path, hok.buffered, hok.size, hok.cursor, hok.closed⟩,
        ⟨hgrows.written, hgrows.content⟩, rfl, rfl,
        ⟨?_, hsized, hstep.of_eq rfl rfl (.inl hleaves.1)⟩, False.elim⟩
      exact hleaves.1 ▸ hleaves.2
    | switched => exact ⟨hok, hgrows, rfl, rfl, ⟨hleaves, hsized⟩, fun _ => hbuf rfl⟩
  next hopen =>
    refine ⟨h.storage, .refl _, rfl, rfl, ⟨fun hnone => hopen ?_, hsized, hstep⟩, False.elim⟩
    rw [show p.storage.rawFile = none from hnone]
    rfl

theorem Indexed.append (h : p.Indexed) (hphase : p.phase = .append packet) (io : WriteIo) :
    Worked p (p.append packet io) := by
  have hworker := h.worker
  rw [hphase] at hworker
  obtain ⟨hopen, hsized, hstep⟩ := hworker
  obtain ⟨bucket, hbucket⟩ := Option.ne_none_iff_exists'.mp hopen
  obtain ⟨hok, hgrows, hat⟩ := append_spec h.storage hbucket hsized
  have hplaced : (p.storage.append packet).Placed (p.storage.metaOf packet) :=
    ⟨bucket, hbucket, hat⟩
  unfold Pipeline.append
  dsimp only
  split
  · obtain ⟨hok', hgrows', hraw, -, -⟩ := flushRawBuf_spec hok
    rcases hflush : (p.storage.append packet).flushRawBuf io with ⟨_ | _, storage⟩ <;>
      rw [hflush] at hok' hgrows' hraw
    · exact ⟨hok', hgrows.trans hgrows', rfl, rfl, hstep.of_eq rfl rfl (.inl hraw), False.elim⟩
    · exact ⟨hok', hgrows.trans hgrows', rfl, rfl,
        ⟨hplaced.mono hgrows', hraw.symm, hstep.of_eq rfl rfl (.inl hraw)⟩, False.elim⟩
  · exact ⟨hok, hgrows, rfl, rfl, ⟨hplaced, rfl, hstep.of_eq rfl rfl (.inl rfl)⟩, False.elim⟩

theorem Indexed.flush (h : p.Indexed) (hidle : p.phase = .idle) (sync : Bool) (io : WriteIo) :
    Worked p (p.flush sync io) := by
  have hstep := h.inStep hidle
  obtain ⟨hok, hgrows, hraw, -, hbuf⟩ := flushRawBuf_spec h.storage
  unfold Pipeline.flush
  rcases hflush : p.storage.flushRawBuf io with ⟨_ | _, storage⟩ <;>
    rw [hflush] at hok hgrows hraw hbuf
  · refine ⟨hok, hgrows, rfl, rfl, ?_, ?_⟩ <;>
      rw [show ({ p with storage } : Pipeline β).phase = .idle from hidle]
    · exact hstep.of_eq rfl rfl (.inl hraw)
    · exact False.elim
  · exact ⟨hok, hgrows, rfl, rfl, hstep.of_eq rfl rfl (.inl hraw), fun _ => hbuf rfl⟩

theorem Indexed.push (h : p.Indexed)
    (hstorage : p'.storage = { p.storage with currentHour := hour })
    (hchannel : p'.channel = (p.push cmd).channel) (hflusher : p'.flusher = p.flusher)
    (hfits : p.flusher.phase ≠ .dead → cmd.Fits (bucketAfter p.flusher.target p.channel))
    (hplaced : ∀ m ∈ cmd.metas, p.storage.Placed m) (hworker : p'.WorkerOk p'.phase) :
    p'.Indexed := by
  obtain ⟨storage', phase', channel', flusher'⟩ := p'
  cases hstorage
  cases hchannel
  cases hflusher
  have hok := h.storage
  refine ⟨⟨hok.path, hok.buffered, hok.size, hok.cursor, hok.closed⟩, h.rows, h.opening, h.batch,
    fun halive => ?_, fun cmd' hcmd' m hm => ?_, hworker⟩
  · change Ordered _ (p.push cmd).channel
    rw [push, if_neg halive]
    exact (h.ordered halive).append (hfits halive)
  · change cmd' ∈ (p.push cmd).channel at hcmd'
    rw [push] at hcmd'
    split at hcmd'
    · exact h.channel cmd' hcmd' m hm
    · rcases List.mem_append.mp hcmd' with hcmd' | hcmd'
      · exact h.channel cmd' hcmd' m hm
      · rw [List.mem_singleton.mp hcmd'] at hm
        exact hplaced m hm

theorem inStep_push (hchannel : p'.channel = (p.push cmd).channel)
    (hflusher : p'.flusher = p.flusher)
    (h : p.flusher.phase ≠ .dead → ∀ bucket, p'.storage.rawFile = some bucket →
      cmd.moves (bucketAfter p.flusher.target p.channel) = some bucket) : p'.InStep := by
  intro halive bucket hbucket
  rw [hflusher] at halive
  rw [hchannel, hflusher, push, if_neg halive]
  exact bucketAfter_append.trans (h halive bucket hbucket)

theorem Indexed.send (h : p.Indexed) (hsend : p.send = some p') : p'.Indexed := by
  have hworker := h.worker
  unfold Pipeline.send at hsend
  cases hphase : p.phase with
  | idle | append =>
    rw [hphase] at hsend
    cases hsend
  | sendRotate bucket hour packet =>
    rw [hphase] at hsend hworker
    cases hsend
    obtain ⟨hraw, hsized⟩ := hworker
    refine h.push rfl rfl rfl (fun _ => trivial) nofun
      ⟨?_, hsized, inStep_push rfl rfl fun _ bucket' hbucket' => ?_⟩
    · rw [hraw]
      nofun
    · cases hraw.symm.trans hbucket'
      rfl
  | sendMeta m =>
    rw [hphase] at hsend hworker
    cases hsend
    obtain ⟨hplaced, hbucket, hstep⟩ := hworker
    have hopen := hplaced
    obtain ⟨bucket, hsome, -⟩ := hopen
    refine h.push rfl rfl rfl (fun halive => ?_) ?_ (inStep_push rfl rfl hstep)
    · exact hsome.trans (hstep halive bucket (hbucket ▸ hsome)).symm
    · rintro m' (_ | ⟨_, ⟨⟩⟩)
      exact hplaced
  | sendFlush sync =>
    rw [hphase] at hsend hworker
    cases hsend
    cases sync <;>
      exact h.push rfl rfl rfl (fun _ => trivial) (by simp [metas]) (inStep_push rfl rfl hworker)

theorem WorkerOk.of_flusher (h : p.WorkerOk p.phase) (hstorage : p'.storage = p.storage)
    (hphase : p'.phase = p.phase) (hstep : p'.flusher.phase ≠ .dead → p.flusher.phase ≠ .dead ∧
      bucketAfter p'.flusher.target p'.channel = bucketAfter p.flusher.target p.channel) :
    p'.WorkerOk p'.phase := by
  have hinStep (hs : p.InStep) : p'.InStep := fun halive bucket hbucket =>
    (hstep halive).2.trans (hs (hstep halive).1 bucket (hstorage ▸ hbucket))
  rw [hphase]
  cases hp : p.phase <;> rw [hp] at h
  · exact hinStep h
  · exact ⟨hstorage ▸ h.1, h.2⟩
  · exact ⟨hstorage ▸ h.1, h.2.1, hinStep h.2.2⟩
  · exact ⟨hstorage ▸ h.1, hstorage ▸ h.2.1, hinStep h.2.2⟩
  · exact hinStep h

theorem Indexed.command (h : p.Indexed)
    {channel : List (FlushCommand β (Source β))} (hidle : p.flusher.phase = .idle)
    (hchannel : p.channel = cmd :: channel) :
    Indexed { p with channel, flusher := p.flusher.handleFlushCommand config elapsed cmd } := by
  have halive : p.flusher.phase ≠ .dead := hidle ▸ nofun
  have htarget : p.flusher.target = p.flusher.conn := by
    unfold target
    rw [hidle]
  obtain ⟨hfits, hordered⟩ := hchannel ▸ h.ordered halive
  have hmetas : ∀ m ∈ cmd.metas, p.storage.Placed m ∧ m.source.bucket = p.flusher.conn := by
    intro m hm
    refine ⟨h.channel cmd (hchannel ▸ List.mem_cons_self) m hm, ?_⟩
    cases cmd with
    | fmeta m' =>
      obtain rfl := List.mem_singleton.mp hm
      exact hfits.trans htarget
    | flush | flushSync | rotate => exact absurd hm List.not_mem_nil
  have hbatch : ∀ m ∈ p.flusher.batch ++ cmd.metas,
      p.storage.Placed m ∧ m.source.bucket = p.flusher.conn := by
    intro m hm
    rcases List.mem_append.mp hm with hm | hm
    · exact ⟨(h.batch m hm).1, (h.batch m hm).2 halive⟩
    · exact hmetas m hm
  have hconn : p.flusher.conn = none → p.flusher.batch ++ cmd.metas = [] := by
    intro hnone
    refine List.eq_nil_iff_forall_not_mem.mpr fun m hm => ?_
    obtain ⟨⟨bucket, hbucket, -⟩, heq⟩ := hbatch m hm
    rw [heq, hnone] at hbucket
    cases hbucket
  obtain ⟨hb, hc, hd, ht, hr⟩ := handleFlushCommand_handled hidle hconn
  refine ⟨h.storage, fun bucket => ?_, hr.opening, fun m hm => ?_, fun _ => ?_, ?_, ?_⟩
  · exact hd ▸ h.rows bucket
  · obtain ⟨hplaced, hbucket⟩ := hbatch m (hb ▸ hm)
    exact ⟨hplaced, fun _ => hbucket.trans hc.symm⟩
  · exact ht ▸ hordered
  · exact fun cmd' hcmd' => h.channel cmd' (hchannel ▸ .tail _ hcmd')
  · refine h.worker.of_flusher rfl rfl fun _ => ⟨halive, ?_⟩
    rw [hchannel]
    exact congrArg (bucketAfter · channel) ht

theorem Indexed.slice (h : p.Indexed) {hash : HashOrder} (hphase : p.flusher.phase = .flushing next)
    (hconn : p.flusher.conn = some bucket) (hsteady : p.Steady (.slice hash fault)) :
    Indexed { p with flusher := p.flusher.flushSlice hash fault bucket next } := by
  have halive : p.flusher.phase ≠ .dead := hphase ▸ nofun
  have hbatch : ∀ m ∈ p.flusher.batch, m.source.bucket = some bucket ∧ p.storage.Placed m :=
    fun m hm => ⟨((h.batch m hm).2 halive).trans hconn, (h.batch m hm).1⟩
  obtain ⟨hb, hc, ht, hr, hd⟩ := flushSlice_spec hash bucket hphase
    fun bucket' hnext => hsteady bucket' (hnext ▸ hphase)
  refine ⟨h.storage, rows_slice hd h.rows hbatch, hr.opening, fun m hm => ?_, fun _ => ?_,
    h.channel, ?_⟩
  · have hm' := List.mem_of_mem_drop (hb ▸ hm)
    exact ⟨(hbatch m hm').2, fun _ => (hbatch m hm').1.trans (hconn.symm.trans hc.symm)⟩
  · exact ht ▸ h.ordered halive
  · exact h.worker.of_flusher rfl rfl fun _ => ⟨halive, congrArg (bucketAfter · p.channel) ht⟩

theorem Indexed.openDb (h : p.Indexed) (hphase : p.flusher.phase = .opening bucket)
    (opened : Bool) : Indexed { p with flusher := p.flusher.openDb opened bucket } := by
  have halive : p.flusher.phase ≠ .dead := hphase ▸ nofun
  have htarget : p.flusher.target = some bucket := by
    unfold target
    rw [hphase]
  have hbatch := h.opening bucket hphase
  unfold Flusher.openDb
  split
  · refine ⟨h.storage, h.rows, (fun _ h => by cases h), fun m hm => ?_, fun _ => ?_, h.channel, ?_⟩
    · exact absurd (hbatch ▸ hm) List.not_mem_nil
    · exact htarget ▸ h.ordered halive
    · exact h.worker.of_flusher rfl rfl fun _ =>
        ⟨halive, congrArg (bucketAfter · p.channel) htarget.symm⟩
  · refine ⟨h.storage, h.rows, (fun _ h => by cases h), fun m hm => ?_,
      fun hdead => absurd rfl hdead, h.channel, ?_⟩
    · exact absurd (hbatch ▸ hm) List.not_mem_nil
    · exact h.worker.of_flusher rfl rfl fun hdead => absurd rfl hdead

/-! ## When the records are on disk before their rows -/

/-- Packets whose rows are written, are being written or will be written at a command that is under
way are on disk. -/
structure Ahead (p : Pipeline β) : Prop where
  rows : ∀ bucket, (p.flusher.dbs bucket).From p.storage.OnDisk
  flushing : ∀ next, p.flusher.phase = .flushing next → ∀ m ∈ p.flusher.batch, p.storage.OnDisk m
  asked : ∀ before cmd after, p.channel = before ++ cmd :: after → cmd.metas = [] →
    ∀ m ∈ p.flusher.batch ++ before.flatMap metas, p.storage.OnDisk m
  worker : asks p.phase → p.storage.writeBuf = []

theorem Ahead.of_worked (h : p.Ahead) (hw : Worked p p') : p'.Ahead := by
  refine ⟨fun bucket => ?_, fun next hphase m hm => ?_, fun before cmd after hsplit hcmd m hm => ?_,
    hw.flushed⟩
  · rw [hw.flusher]
    exact (h.rows bucket).imp fun _ _ hm => hm.mono hw.grows
  · exact (h.flushing next (hw.flusher ▸ hphase) m (hw.flusher ▸ hm)).mono hw.grows
  · rw [hw.flusher] at hm
    exact (h.asked before cmd after (hw.channel ▸ hsplit) hcmd m hm).mono hw.grows

theorem Ahead.push (h : p.Ahead) (hi : p.Indexed)
    (hstorage : p'.storage = { p.storage with currentHour := hour })
    (hchannel : p'.channel = (p.push cmd).channel) (hflusher : p'.flusher = p.flusher)
    (hcmd : cmd.metas = [] → p.storage.writeBuf = []) (hworker : ¬ asks p'.phase) : p'.Ahead := by
  obtain ⟨storage', phase', channel', flusher'⟩ := p'
  cases hstorage
  cases hchannel
  cases hflusher
  refine ⟨h.rows, h.flushing, fun before cmd' after hsplit hcmd' m hm => ?_,
    fun hasks => absurd hasks hworker⟩
  change (p.push cmd).channel = _ at hsplit
  rw [push] at hsplit
  split at hsplit
  · exact h.asked before cmd' after hsplit hcmd' m hm
  · rcases History.split_append hsplit with ⟨after', hsplit⟩ | ⟨rfl, rfl⟩
    · exact h.asked before cmd' after' hsplit hcmd' m hm
    · -- The worker has just written its buffer.
      have hplaced : p.storage.Placed m := by
        rcases List.mem_append.mp hm with hm | hm
        · exact (hi.batch m hm).1
        · obtain ⟨cmd', hcmd', hm⟩ := List.mem_flatMap.mp hm
          exact hi.channel cmd' hcmd' m hm
      exact hplaced.onDisk (hcmd hcmd')

theorem Ahead.send (h : p.Ahead) (hi : p.Indexed) (hsend : p.send = some p') : p'.Ahead := by
  have hworker := h.worker
  unfold Pipeline.send at hsend
  cases hphase : p.phase with
  | idle | append =>
    rw [hphase] at hsend
    cases hsend
  | sendRotate | sendFlush =>
    rw [hphase] at hsend hworker
    cases hsend
    exact h.push hi rfl rfl rfl (fun _ => hworker trivial) id
  | sendMeta m =>
    rw [hphase] at hsend
    cases hsend
    exact h.push hi rfl rfl rfl nofun id

/-- A packet that the flusher takes does not make it write its batch. -/
def OnRequest (config : FlusherConfig) (p : Pipeline β) : PipelineInput β → Prop
  | .command elapsed => ∀ m channel, p.channel = .fmeta m :: channel →
    ¬ (0 < config.flushCount ∧ config.flushCount ≤ p.flusher.batch.length + 1) ∧
      ¬ (0 < config.flushInterval ∧ config.flushInterval ≤ elapsed)
  | _ => True

theorem Ahead.command (h : p.Ahead) {channel : List (FlushCommand β (Source β))}
    (hidle : p.flusher.phase = .idle) (hchannel : p.channel = cmd :: channel)
    (hrequest : p.OnRequest config (.command elapsed)) :
    Ahead { p with channel, flusher := p.flusher.handleFlushCommand config elapsed cmd } := by
  -- A command that is no packet finds the whole batch on disk.
  have hstart (next : AfterFlush β) (hmetas : cmd.metas = []) :
      Ahead { p with channel, flusher := p.flusher.startFlush next } := by
    obtain ⟨hbatch, -, hdbs⟩ := p.flusher.startFlush_batch next
    refine ⟨fun bucket => hdbs ▸ h.rows bucket, fun _ _ m hm => ?_,
      fun before cmd' after hsplit hcmd' m hm => ?_, h.worker⟩
    · exact h.asked [] cmd channel hchannel hmetas m (by simpa [hbatch] using hm)
    · refine h.asked (cmd :: before) cmd' after
        (hchannel.trans (congrArg (cmd :: ·) hsplit)) hcmd' m ?_
      rw [List.flatMap_cons, hmetas]
      exact hbatch ▸ hm
  cases cmd with
  | fmeta m =>
    obtain ⟨hcount, htime⟩ := hrequest m channel hchannel
    have htrigger : ¬ ((0 < config.flushCount &&
          config.flushCount ≤ (p.flusher.batch ++ [m]).length) ||
        (0 < config.flushInterval && config.flushInterval ≤ elapsed)) = true := by
      simp only [Bool.or_eq_true, Bool.and_eq_true, decide_eq_true_eq, List.length_append,
        List.length_singleton]
      exact not_or.mpr ⟨hcount, htime⟩
    unfold handleFlushCommand
    dsimp only
    rw [if_neg htrigger]
    refine ⟨h.rows, fun next hphase => ?_, fun before cmd' after hsplit hcmd' m' hm' => ?_,
      h.worker⟩
    · rw [show p.flusher.phase = .idle from hidle] at hphase
      cases hphase
    · refine h.asked (.fmeta m :: before) cmd' after
        (hchannel.trans (congrArg (.fmeta m :: ·) hsplit)) hcmd' m' ?_
      simpa [metas] using hm'
  | flush | flushSync | rotate => exact hstart _ rfl

theorem Ahead.slice (h : p.Ahead) {hash : HashOrder}
    (hphase : p.flusher.phase = .flushing next) (hsteady : p.Steady (.slice hash fault)) :
    Ahead { p with flusher := p.flusher.flushSlice hash fault bucket next } := by
  have hbatch := h.flushing next hphase
  obtain ⟨hb, -, -, -, hd⟩ := flushSlice_spec hash bucket hphase
    fun bucket' hnext => hsteady bucket' (hnext ▸ hphase)
  refine ⟨rows_slice hd h.rows hbatch,
    fun _ _ m hm => hbatch m (List.mem_of_mem_drop (hb ▸ hm)),
    fun before cmd after hsplit hcmd m hm => ?_, h.worker⟩
  refine h.asked before cmd after hsplit hcmd m ?_
  rcases List.mem_append.mp hm with hm | hm
  · exact List.mem_append_left _ (List.mem_of_mem_drop (hb ▸ hm))
  · exact List.mem_append_right _ hm

theorem Ahead.openDb (h : p.Ahead) (bucket : β) (opened : Bool) :
    Ahead { p with flusher := p.flusher.openDb opened bucket } := by
  unfold Flusher.openDb
  split <;> exact ⟨h.rows, (fun _ h => by cases h), h.asked, h.worker⟩

/-! ## Runs -/

theorem Indexed.step (h : p.Indexed) (hsteady : p.Steady input)
    (hstep : p.step config input = some p') :
    p'.Indexed ∧ (p.Ahead → p.OnRequest config input → p'.Ahead) := by
  have hworked (hw : Worked p p') : p'.Indexed ∧ (p.Ahead → p.OnRequest config input → p'.Ahead) :=
    ⟨h.of_worked hw, fun ha _ => ha.of_worked hw⟩
  cases input with
  | write packet hour bucket writeIo io =>
    cases hphase : p.phase <;> simp only [Pipeline.step, hphase, reduceCtorEq] at hstep
    split at hstep
    next hsized =>
      cases hstep
      exact hworked (h.write hphase hsized hsteady)
    next => cases hstep
  | append io =>
    cases hphase : p.phase <;> simp only [Pipeline.step, hphase, reduceCtorEq] at hstep
    cases hstep
    exact hworked (h.append hphase io)
  | send =>
    simp only [Pipeline.step] at hstep
    split at hstep
    · exact ⟨h.send hstep, fun ha _ => ha.send h hstep⟩
    · cases hstep
  | flush sync io =>
    cases hphase : p.phase <;> simp only [Pipeline.step, hphase, reduceCtorEq] at hstep
    cases hstep
    exact hworked (h.flush hphase sync io)
  | command elapsed =>
    cases hphase : p.flusher.phase <;> cases hchannel : p.channel <;>
      simp only [Pipeline.step, hphase, hchannel, reduceCtorEq] at hstep
    cases hstep
    exact ⟨h.command hphase hchannel, fun ha => ha.command hphase hchannel⟩
  | slice hash fault =>
    cases hphase : p.flusher.phase <;> cases hconn : p.flusher.conn <;>
      simp only [Pipeline.step, hphase, hconn, reduceCtorEq] at hstep
    cases hstep
    exact ⟨h.slice hphase hconn hsteady, fun ha _ => ha.slice hphase hsteady⟩
  | openDb opened =>
    cases hphase : p.flusher.phase <;> simp only [Pipeline.step, hphase, reduceCtorEq] at hstep
    cases hstep
    exact ⟨h.openDb hphase opened, fun ha _ => ha.openDb _ opened⟩

theorem Start.indexed (h : p.Start) : p.Indexed := by
  refine ⟨?_, fun bucket => ?_, fun bucket hphase => h.batch, fun m hm => ?_, fun _ => ?_, ?_, ?_⟩
  · have hraw := h.rawFile
    exact ⟨by simp [hraw], by simp [hraw], by simp [hraw], by simp [hraw], fun _ => h.writeBuf⟩
  · refine (h.rows bucket).imp fun _ m hm => ⟨hm.1, bucket, hm.1, ?_⟩
    rw [content_closed (h.closed bucket), written_closed (h.closed bucket)]
    exact hm.2
  · rw [h.batch] at hm
    cases hm
  · rw [h.channel]
    trivial
  · rw [h.channel]
    exact fun cmd hcmd => absurd hcmd List.not_mem_nil
  · rw [h.phase]
    exact fun _ bucket hbucket => absurd hbucket (h.closed bucket)

/-- The row was made while the file of its bucket was open, and the record stands at its offset
there, in the file or in what is buffered for it. -/
structure Refers (p : Pipeline β) (bucket : β) (m : FlushMeta (Source β)) : Prop where
  produced : m.source.bucket = some bucket
  content : HasAt (p.storage.content bucket) m.offset m.source.record
  file : (p.storage.rawFile = some bucket → p.storage.writeBuf = []) →
    HasAt (p.storage.files bucket) m.offset m.source.record

theorem Indexed.refers (h : p.Indexed) :
    (p.flusher.dbs bucket).From (p.Refers bucket) := by
  refine (h.rows bucket).imp fun _ m ⟨hbucket, bucket', hbucket', hat⟩ => ?_
  cases hbucket.symm.trans hbucket'
  refine ⟨hbucket, hat, fun hempty => ?_⟩
  have hwritten : p.storage.content bucket = p.storage.written bucket := by
    by_cases hopen : p.storage.rawFile = some bucket
    · exact content_eq_written (hempty hopen)
    · exact content_closed hopen
  exact (hwritten ▸ hat).mono p.storage.written_prefix_files

/-- **Rows refer to their records** in every `Steady` run. -/
theorem rows_refer (config : FlusherConfig) (start p : Pipeline β) (hstart : start.Start)
    (hruns : Runs config Steady start p) (bucket : β) :
    (∀ row ∈ (p.flusher.dbs bucket).sipMsgs, p.Refers bucket row.origin) ∧
      ∀ row ∈ (p.flusher.dbs bucket).mediaMsgs, p.Refers bucket row.origin := by
  have hindexed : p.Indexed := by
    induction hruns with
    | refl => exact hstart.indexed
    | tail _ hstep ih =>
      obtain ⟨input, hsteady, hstep⟩ := hstep
      exact (ih.step hsteady hstep).1
  exact ⟨(hindexed.refers).sip, (hindexed.refers).rtp⟩

theorem Start.ahead (h : p.Start) : p.Ahead := by
  refine ⟨fun bucket => ?_, fun next hphase => ?_, fun before cmd after hsplit => ?_, ?_⟩
  · refine (h.rows bucket).imp fun _ m hm => ⟨bucket, hm.1, ?_⟩
    rw [written_closed (h.closed bucket)]
    exact hm.2
  · rw [h.flusherPhase] at hphase
    cases hphase
  · rw [h.channel] at hsplit
    simp at hsplit
  · exact fun _ => h.writeBuf

/-- **Raw data is ahead of its index**, as long as the flusher writes on request only. -/
theorem rows_on_disk (config : FlusherConfig) (start p : Pipeline β) (hstart : start.Start)
    (hruns : Runs config (fun p input => p.Steady input ∧ p.OnRequest config input) start p)
    (bucket : β) : (∀ row ∈ (p.flusher.dbs bucket).sipMsgs,
      HasAt (p.storage.files bucket) row.origin.offset row.origin.source.record) ∧
      ∀ row ∈ (p.flusher.dbs bucket).mediaMsgs,
        HasAt (p.storage.files bucket) row.origin.offset row.origin.source.record := by
  have hinv : p.Indexed ∧ p.Ahead := by
    induction hruns with
    | refl => exact ⟨hstart.indexed, hstart.ahead⟩
    | tail _ hstep ih =>
      obtain ⟨input, ⟨hsteady, hrequest⟩, hstep⟩ := hstep
      exact (ih.1.step hsteady hstep).imp_right fun h => h ih.2 hrequest
  have hdisk : (p.flusher.dbs bucket).From fun m =>
      HasAt (p.storage.files bucket) m.offset m.source.record := by
    refine ⟨fun row hrow => ?_, fun row hrow => ?_⟩
    · obtain ⟨bucket', hbucket', hat⟩ := (hinv.2.rows bucket).sip row hrow
      cases ((hinv.1.rows bucket).sip row hrow).1.symm.trans hbucket'
      exact hat.mono p.storage.written_prefix_files
    · obtain ⟨bucket', hbucket', hat⟩ := (hinv.2.rows bucket).rtp row hrow
      cases ((hinv.1.rows bucket).rtp row hrow).1.symm.trans hbucket'
      exact hat.mono p.storage.written_prefix_files
  exact ⟨hdisk.sip, hdisk.rtp⟩

def empty : Pipeline Nat where
  storage := { files := fun _ => [] }
  phase := .idle
  channel := []
  flusher :=
    { dbs := fun _ => .empty, conn := none, batch := [], phase := .idle
      cache := .empty .recency 8 (Nat.succ_pos 7) }

theorem start_empty : empty.Start :=
  ⟨rfl, rfl, rfl, rfl, rfl, rfl, rfl, fun _ => ⟨nofun, nofun⟩⟩

def sipPacket : ProcessedPacket where
  msgType := .sip
  callid := some "a"
  src := "10.0.0.1:5060"
  dst := "10.0.0.2:5060"
  leg := none
  timestamp := 0
  payload := [79, 75]
  origSize := 2
  compSize := 2

def writes : WriteIo := ⟨true, none⟩

def play (config : FlusherConfig) (inputs : List (PipelineInput Nat)) (p : Pipeline Nat) :
    Option (Pipeline Nat) :=
  inputs.foldlM (fun p input => p.step config input) p

theorem runs_play
    (inputs : List (PipelineInput Nat)) {p p' : Pipeline Nat} (h : p.play config inputs = some p')
    (hC : ∀ p, ∀ input ∈ inputs, C p input) : Runs config C p p' :=
  Machine.Runs.steps .refl h fun input hinput p => hC p input hinput

def writeInput (hour bucket : Nat) (io : OpenIo) : PipelineInput Nat :=
  .write sipPacket (2026, 1, 1, hour) bucket writes io

/-- What follows the first packet, which is indexed when the worker asks for it. -/
def indexInputs : List (PipelineInput Nat) :=
  [.send, .append writes, .send, .flush false writes, .send, .command 0, .openDb true, .command 0,
    .command 0, .slice Flusher.inOrder none]

theorem steady_indexInputs : ∀ p, ∀ input ∈ indexInputs, Steady p input := by
  intro p input hinput
  fin_cases hinput
  all_goals first | exact trivial | exact fun _ _ h => absurd rfl h

theorem onRequest_zero {p : Pipeline Nat} : p.OnRequest ⟨0, 0⟩ input := by
  cases input with
  | command elapsed => exact fun _ _ _ => ⟨fun h => absurd h.1 (by decide),
      fun h => absurd h.1 (by decide)⟩
  | _ => exact trivial

theorem rows_refer_indexed : ∃ p, Runs ⟨0, 0⟩ Steady empty p ∧
    ∃ row ∈ (p.flusher.dbs 0).sipMsgs, p.Refers 0 row.origin := by
  have hruns : Runs ⟨0, 0⟩ Steady empty _ :=
    .head ⟨writeInput 9 0 .ok, nofun, rfl⟩ (runs_play indexInputs rfl steady_indexInputs)
  exact ⟨_, hruns, _, .head _, (rows_refer ⟨0, 0⟩ _ _ start_empty hruns 0).1 _ (.head _)⟩

theorem rows_on_disk_indexed :
    ∃ p, Runs ⟨0, 0⟩ (fun p input => p.Steady input ∧ p.OnRequest ⟨0, 0⟩ input) empty p ∧
      ∃ row ∈ (p.flusher.dbs 0).sipMsgs,
        HasAt (p.storage.files 0) row.origin.offset row.origin.source.record := by
  have hruns : Runs ⟨0, 0⟩ (fun p input => p.Steady input ∧ p.OnRequest ⟨0, 0⟩ input) empty _ :=
    .head ⟨writeInput 9 0 .ok, ⟨nofun, onRequest_zero⟩, rfl⟩ (runs_play indexInputs rfl
      fun p input hinput => ⟨steady_indexInputs p input hinput, onRequest_zero⟩)
  exact ⟨_, hruns, _, .head _, (rows_on_disk ⟨0, 0⟩ _ _ start_empty hruns 0).1 _ (.head _)⟩

/-- The flusher writes after every packet, while the record is still in the buffer of the worker. -/
theorem row_before_record : ∃ p, Runs ⟨1, 0⟩ (fun _ _ => True) empty p ∧
    ∃ row ∈ (p.flusher.dbs 0).sipMsgs,
      ¬ HasAt (p.storage.files 0) row.origin.offset row.origin.source.record := by
  refine ⟨_, runs_play [writeInput 9 0 .ok, .send, .append writes, .send, .command 0,
    .openDb true, .command 0, .slice inOrder none] rfl fun _ _ _ => trivial, _, .head _,
    fun h => ?_⟩
  exact absurd h.le_length (by decide)

/-- The raw file of the next bucket cannot be opened, and the clock is set back. The worker takes
the bucket for the current one, though it has closed its file, and the record of the second packet
is never written. -/
theorem row_without_record : ∃ p, Runs ⟨0, 0⟩ (fun _ _ => True) empty p ∧
    ∃ row ∈ (p.flusher.dbs 0).sipMsgs, row.origin.source.bucket = none ∧ p.storage.rawFile = none ∧
      ¬ HasAt (p.storage.files 0) row.origin.offset row.origin.source.record := by
  refine ⟨_, runs_play [writeInput 9 0 .ok, .send, .append writes, .send,
    writeInput 10 1 .openFails, writeInput 9 0 .ok, .append writes, .send, .flush false writes,
    .send, .command 0, .openDb true, .command 0, .command 0, .command 0,
    .slice inOrder none] rfl fun _ _ _ => trivial, _, .tail _ (.head _), rfl, rfl,
    fun h => ?_⟩
  exact absurd h.le_length (by decide)

end Pipeline

end RustPbx.Sipflow
