import RustPbx.Lib.Lru
import RustPbx.Sipflow.Remote

/-!
The flusher of the local sipflow backend.

The flusher writes what is to be indexed to the database of the current bucket, in transactions of
bounded size. A packet is filed under the id that the database gave to its call. The cache of these
ids is filled inside the transaction and keeps them when it fails.
-/

namespace RustPbx.Sipflow

open List

/-- Where a packet is to be indexed. `source` is no field of the source: it says where the packet
came from. -/
structure FlushMeta (γ : Type) where
  msgType : MsgType
  callid : Option String
  src : String
  dst : String
  leg : Option Int32
  timestamp : UInt64
  offset : Nat
  size : Nat
  source : γ

/-! ## The database of a bucket -/

def asI64 (n : Nat) : Int := (BitVec.ofNat 64 n).toInt

/-- A row of `sip_msgs`. `origin` is what the row was made from; it is not stored. -/
structure SipRow (γ : Type) where
  callId : Nat
  src : String
  dst : String
  timestamp : Int
  offset : Int
  size : Int
  origin : FlushMeta γ

structure RtpRow (γ : Type) where
  callId : Nat
  leg : Int32
  src : String
  timestamp : Int
  offset : Int
  size : Int
  origin : FlushMeta γ

/-- A bucket database. The ids of `call_meta` are given in order, and no id or call is there
twice. -/
structure Db (γ : Type) where
  callMeta : List (Nat × String) := []
  sequence : Nat := 0
  sipMsgs : List (SipRow γ) := []
  mediaMsgs : List (RtpRow γ) := []
  bounded : ∀ row ∈ callMeta, row.1 ≤ sequence := by simp
  ids : (callMeta.map Prod.fst).Nodup := by simp
  callids : (callMeta.map Prod.snd).Nodup := by simp

namespace Db

def empty : Db γ := {}

def callidOf (db : Db γ) (id : Nat) : Option String :=
  (db.callMeta.find? (·.1 = id)).map Prod.snd

/-- `INSERT .. ON CONFLICT(callid) DO UPDATE SET callid=callid RETURNING id`, of one row. -/
def upsert (db : Db γ) (callid : String) : Nat × Db γ :=
  match h : db.callMeta.find? (·.2 = callid) with
  | some row => (row.1, db)
  | none =>
    (db.sequence + 1, { db with
      callMeta := (db.sequence + 1, callid) :: db.callMeta
      sequence := db.sequence + 1
      bounded := by
        rintro row (_ | ⟨_, hrow⟩)
        · exact Nat.le_refl _
        · exact Nat.le_succ_of_le (db.bounded row hrow)
      ids := by
        refine nodup_cons.mpr ⟨fun hmem => ?_, db.ids⟩
        obtain ⟨row, hrow, hid⟩ := mem_map.mp hmem
        have := db.bounded row hrow
        omega
      callids := by
        refine nodup_cons.mpr ⟨fun hmem => ?_, db.callids⟩
        obtain ⟨row, hrow, hcallid⟩ := mem_map.mp hmem
        exact find?_eq_none.mp h row hrow (by simpa using hcallid) })

def insertCallids (db : Db γ) : List String → List (String × Nat) × Db γ
  | [] => ([], db)
  | callid :: callids =>
    let (id, db) := db.upsert callid
    let (newIds, db) := db.insertCallids callids
    ((callid, id) :: newIds, db)

end Db

structure Rows (γ : Type) where
  sip : List (SipRow γ) := []
  rtp : List (RtpRow γ) := []

def pushRow (rows : Rows γ) (fmeta : FlushMeta γ) (callId : Nat) : Rows γ :=
  match fmeta.msgType with
  | .sip => { rows with sip := rows.sip ++ [{
      callId
      src := fmeta.src
      dst := fmeta.dst
      timestamp := asI64 fmeta.timestamp.toNat
      offset := asI64 fmeta.offset
      size := asI64 fmeta.size
      origin := fmeta }] }
  | .rtp => { rows with rtp := rows.rtp ++ [{
      callId
      leg := fmeta.leg.getD 0
      src := fmeta.src
      timestamp := asI64 fmeta.timestamp.toNat
      offset := asI64 fmeta.offset
      size := asI64 fmeta.size
      origin := fmeta }] }

/-- The first pass over the packets: those of known calls become rows, the others wait for the ids
of their calls. -/
structure Scan (γ : Type) where
  cache : Lru String Nat
  rows : Rows γ := {}
  pending : List (FlushMeta γ) := []
  newCallids : List String := []

def Scan.step (scan : Scan γ) (fmeta : FlushMeta γ) : Scan γ :=
  match fmeta.callid with
  | none => scan
  | some callid =>
    match scan.cache.get callid with
    | (some id, cache) => { scan with cache, rows := pushRow scan.rows fmeta id }
    | (none, cache) => { scan with
        cache
        newCallids := if callid ∈ scan.newCallids then scan.newCallids
          else scan.newCallids ++ [callid]
        pending := scan.pending ++ [fmeta] }

def filePending (newIds : List (String × Nat)) (rows : Rows γ) (fmeta : FlushMeta γ) : Rows γ :=
  match fmeta.callid.bind fun callid => newIds.lookup callid with
  | none => rows
  | some id => pushRow rows fmeta id

inductive Fault where
  | begin
  | callids
  /-- A statement that inserts into `sip_msgs` or `media_msgs`. -/
  | messages
  | commit
  deriving DecidableEq

/-- The order in which a hash map hands out its entries. -/
structure HashOrder where
  order : List (String × Nat) → List (String × Nat)
  perm : ∀ entries, (order entries).Perm entries

/-- One transaction, which leaves the database as it was if it fails; the flag tells whether it went
through. -/
def flushSliceInner (hash : HashOrder) (fault : Option Fault)
    (metas : List (FlushMeta γ)) (db : Db γ) (cache : Lru String Nat) :
    Bool × Db γ × Lru String Nat :=
  if fault = some .begin then (false, db, cache)
  else
    let scan := metas.foldl Scan.step { cache }
    if !scan.newCallids.isEmpty && fault = some .callids then (false, db, scan.cache)
    else
      let (newIds, db') := db.insertCallids scan.newCallids
      let cache :=
        (hash.order newIds).foldl (fun cache entry => cache.put entry.1 entry.2) scan.cache
      let rows := scan.pending.foldl (filePending newIds) scan.rows
      if fault = some .messages || fault = some .commit then (false, db, cache)
      else
        (true, { db' with
          sipMsgs := db'.sipMsgs ++ rows.sip, mediaMsgs := db'.mediaMsgs ++ rows.rtp }, cache)

inductive FlushCommand (β γ : Type) where
  | fmeta (m : FlushMeta γ)
  | flush
  | flushSync
  | rotate (bucket : β)

/-- What the flusher does once the batch has been written. -/
inductive AfterFlush (β : Type) where
  | nothing
  /-- Tell whoever asked that it is done. -/
  | signal
  | rotate (bucket : β)
  deriving DecidableEq

inductive FlusherPhase (β : Type) where
  | idle
  | flushing (next : AfterFlush β)
  | opening (bucket : β)
  | dead
  deriving DecidableEq

/-- Both triggers are off at 0. -/
structure FlusherConfig where
  flushCount : Nat
  flushInterval : Nat

/-- The flusher thread and the databases. `conn` is the bucket whose database is open. -/
structure Flusher (β γ : Type) where
  dbs : β → Db γ
  conn : Option β
  batch : List (FlushMeta γ)
  cache : Lru String Nat
  phase : FlusherPhase β

def commitChunkRows : Nat := 5000

namespace Flusher

variable {γ : Type} [DecidableEq β]

def proceed (f : Flusher β γ) : AfterFlush β → Flusher β γ
  | .nothing | .signal => { f with phase := .idle }
  | .rotate bucket => { f with phase := .opening bucket }

def startFlush (f : Flusher β γ) (next : AfterFlush β) : Flusher β γ :=
  if f.batch.isEmpty || f.conn.isNone then f.proceed next
  else { f with phase := .flushing next }

def handleFlushCommand (config : FlusherConfig) (elapsed : Nat) (f : Flusher β γ) :
    FlushCommand β γ → Flusher β γ
  | .fmeta m =>
    let f := { f with batch := f.batch ++ [m] }
    let countTrigger := 0 < config.flushCount && config.flushCount ≤ f.batch.length
    let timeTrigger := 0 < config.flushInterval && config.flushInterval ≤ elapsed
    if countTrigger || timeTrigger then f.startFlush .nothing else f
  | .flush => f.startFlush .nothing
  | .flushSync => f.startFlush .signal
  | .rotate bucket => f.startFlush (.rotate bucket)

/-- One round of `try_flush`. The packets of a failed transaction are gone, and the rest of the
batch waits for another flush. -/
def flushSlice (hash : HashOrder) (fault : Option Fault) (bucket : β) (next : AfterFlush β)
    (f : Flusher β γ) : Flusher β γ :=
  let (ok, db, cache) :=
    flushSliceInner hash fault (f.batch.take commitChunkRows) (f.dbs bucket) f.cache
  let f := { f with
    dbs := Function.update f.dbs bucket db, cache, batch := f.batch.drop commitChunkRows }
  if ok && !f.batch.isEmpty then f else f.proceed next

def openDb (opened : Bool) (bucket : β) (f : Flusher β γ) : Flusher β γ :=
  if opened then
    { f with
      conn := some bucket
      cache := .empty f.cache.impl f.cache.capacity f.cache.pos
      phase := .idle }
  else { f with phase := .dead }

/-- One step of the flusher, whatever commands arrive; `C` says which transactions may fail. -/
inductive Step (config : FlusherConfig) (C : Flusher β γ → Option Fault → Prop) :
    Flusher β γ → Flusher β γ → Prop where
  | command {f : Flusher β γ} (cmd : FlushCommand β γ) (elapsed : Nat) :
    f.phase = .idle → Step config C f (f.handleFlushCommand config elapsed cmd)
  | slice {f : Flusher β γ} (hash : HashOrder) (fault : Option Fault) {bucket : β}
    {next : AfterFlush β} : f.phase = .flushing next → f.conn = some bucket → C f fault →
    Step config C f (f.flushSlice hash fault bucket next)
  | openDb {f : Flusher β γ} (opened : Bool) {bucket : β} :
    f.phase = .opening bucket → Step config C f (f.openDb opened bucket)

def Runs (config : FlusherConfig) (C : Flusher β γ → Option Fault → Prop) :
    Flusher β γ → Flusher β γ → Prop :=
  Relation.ReflTransGen (Step config C)

end Flusher

section

variable {γ : Type} {db : Db γ} {rows : Rows γ} {id : Nat}

theorem Db.callidOf_eq_some : db.callidOf id = some callid ↔ (id, callid) ∈ db.callMeta := by
  unfold Db.callidOf
  constructor
  · intro h
    obtain ⟨⟨id', callid'⟩, hfind, rfl⟩ := Option.map_eq_some_iff.mp h
    obtain rfl : id' = id := by simpa using find?_some hfind
    exact mem_of_find?_eq_some hfind
  · intro h
    cases hfind : db.callMeta.find? (·.1 = id) with
    | none => exact absurd (find?_eq_none.mp hfind _ h) (by simp)
    | some row =>
      have hid : row.1 = id := by simpa using find?_some hfind
      rw [inj_on_of_nodup_map db.ids (mem_of_find?_eq_some hfind) h hid]
      rfl

/-- The id stands for the call of the packet. -/
def Db.Files (db : Db γ) (id : Nat) (m : FlushMeta γ) : Prop :=
  ∃ callid, m.callid = some callid ∧ db.callidOf id = some callid

/-- The rows were made from packets for which `P` holds. -/
structure Rows.All (P : Nat → FlushMeta γ → Prop) (rows : Rows γ) : Prop where
  sip : ∀ row ∈ rows.sip, P row.callId row.origin
  rtp : ∀ row ∈ rows.rtp, P row.callId row.origin

/-- Every row stands under the id of the call of its packet. -/
def Db.Filed (db : Db γ) : Prop := Rows.All db.Files ⟨db.sipMsgs, db.mediaMsgs⟩

def Db.Knows (db : Db γ) (cache : Lru String Nat) : Prop :=
  ∀ entry ∈ cache.entries, db.callidOf entry.2 = some entry.1

variable {scan : Scan γ} {metas : List (FlushMeta γ)}

theorem Rows.All.imp (h : rows.All P) (hpq : ∀ id m, P id m → Q id m) : rows.All Q :=
  ⟨fun row hrow => hpq _ _ (h.sip row hrow), fun row hrow => hpq _ _ (h.rtp row hrow)⟩

theorem pushRow_all (h : rows.All P) (hm : P id m) : (pushRow rows m id).All P := by
  unfold pushRow
  split
  · exact ⟨forall_mem_append.mpr ⟨h.sip, forall_mem_singleton.mpr hm⟩, h.rtp⟩
  · exact ⟨h.sip, forall_mem_append.mpr ⟨h.rtp, forall_mem_singleton.mpr hm⟩⟩

/-- The database still knows the calls it knew, and has no other messages. -/
structure Db.Grows (db db' : Db γ) : Prop where
  callids : ∀ id callid, db.callidOf id = some callid → db'.callidOf id = some callid
  sipMsgs : db'.sipMsgs = db.sipMsgs
  mediaMsgs : db'.mediaMsgs = db.mediaMsgs

theorem Db.Grows.files (h : db.Grows db') (hm : db.Files id m) : db'.Files id m :=
  hm.imp fun _ hm => ⟨hm.1, h.callids _ _ hm.2⟩

theorem Db.Grows.filed (h : db.Grows db') (hdb : db.Filed) : db'.Filed := by
  unfold Db.Filed
  rw [h.sipMsgs, h.mediaMsgs]
  exact Rows.All.imp hdb fun _ _ hm => h.files hm

theorem Db.Grows.knows (h : db.Grows db') (hc : db.Knows cache) : db'.Knows cache :=
  fun entry hentry => h.callids _ _ (hc entry hentry)

theorem Db.upsert_spec (db : Db γ) : db.Grows (db.upsert callid).2 ∧
      (db.upsert callid).2.callidOf (db.upsert callid).1 = some callid := by
  unfold Db.upsert
  split
  next row hfind =>
    refine ⟨⟨fun _ _ h => h, rfl, rfl⟩, Db.callidOf_eq_some.mpr ?_⟩
    obtain rfl : row.2 = callid := by simpa using find?_some hfind
    exact mem_of_find?_eq_some hfind
  next =>
    refine ⟨⟨fun id callid h => ?_, rfl, rfl⟩, Db.callidOf_eq_some.mpr mem_cons_self⟩
    exact Db.callidOf_eq_some.mpr (mem_cons_of_mem _ (Db.callidOf_eq_some.mp h))

theorem Db.insertCallids_spec (db : Db γ) (callids : List String) :
    db.Grows (db.insertCallids callids).2 ∧ ∀ entry ∈ (db.insertCallids callids).1,
        (db.insertCallids callids).2.callidOf entry.2 = some entry.1 := by
  induction callids generalizing db with
  | nil => exact ⟨⟨fun _ _ h => h, rfl, rfl⟩, nofun⟩
  | cons callid callids ih =>
    obtain ⟨hgrows, hid⟩ := db.upsert_spec
    obtain ⟨hgrows', hids⟩ := ih (db.upsert callid).2
    refine ⟨⟨fun id callid h => hgrows'.callids _ _ (hgrows.callids _ _ h),
      hgrows'.sipMsgs.trans hgrows.sipMsgs, hgrows'.mediaMsgs.trans hgrows.mediaMsgs⟩, ?_⟩
    rintro entry (_ | ⟨_, hentry⟩)
    · exact hgrows'.callids _ _ hid
    · exact hids entry hentry

/-! ### A transaction -/

/-- What has been scanned is filed under known ids. -/
structure Scan.Ok (db : Db γ) (scan : Scan γ) : Prop where
  knows : db.Knows scan.cache
  rows : scan.rows.All db.Files

theorem Scan.Ok.step (h : scan.Ok db) (m : FlushMeta γ) : (scan.step m).Ok db := by
  unfold Scan.step
  split
  · exact h
  next callid hcallid =>
    have hget : db.Knows (scan.cache.get callid).2 := fun entry hentry =>
      h.knows entry (Lru.mem_get.mp hentry)
    have hfst := scan.cache.get_fst callid
    rcases hcache : scan.cache.get callid with ⟨_ | id, cache⟩ <;> rw [hcache] at hget hfst
    · exact ⟨hget, h.rows⟩
    · have hknown := h.knows _ (Lru.Content.mem_of_find? hfst.symm)
      exact ⟨hget, pushRow_all h.rows ⟨callid, hcallid, hknown⟩⟩

theorem Scan.Ok.foldl (h : scan.Ok db) (metas : List (FlushMeta γ)) :
    (metas.foldl Scan.step scan).Ok db := by
  induction metas generalizing scan with
  | nil => exact h
  | cons m metas ih => exact ih (h.step m)

def FlushMeta.Cached (cache : Lru String Nat) (m : FlushMeta γ) : Prop :=
  ∀ callid, m.callid = some callid → ∃ id, (callid, id) ∈ cache.entries

theorem Scan.newCallids_of_cached (scan : Scan γ) (metas : List (FlushMeta γ))
    (h : ∀ m ∈ metas, m.Cached scan.cache) :
    (metas.foldl Scan.step scan).newCallids = scan.newCallids := by
  induction metas generalizing scan with
  | nil => rfl
  | cons m metas ih =>
    have hstep : (scan.step m).newCallids = scan.newCallids ∧
        ∀ entry ∈ scan.cache.entries, entry ∈ (scan.step m).cache.entries := by
      unfold Scan.step
      split
      · exact ⟨rfl, fun _ h => h⟩
      next callid hcallid =>
        obtain ⟨id, hid⟩ := h m mem_cons_self callid hcallid
        have hkeep := fun entry (h : entry ∈ scan.cache.entries) => Lru.mem_get (k := callid).mpr h
        have hfst := scan.cache.get_fst callid
        rcases hcache : scan.cache.get callid with ⟨_ | id', cache⟩ <;> rw [hcache] at hfst
        · have hnone := Option.map_eq_none_iff.mp hfst.symm
          exact absurd (find?_eq_none.mp hnone _ hid) (by simp)
        · rw [hcache] at hkeep
          exact ⟨rfl, hkeep⟩
    rw [foldl_cons, ih _ fun m' hm' callid hcallid => ?_, hstep.1]
    exact (h m' (mem_cons_of_mem _ hm') callid hcallid).imp fun _ hid => hstep.2 _ hid

theorem filePending_all (newIds : List (String × Nat)) (pending : List (FlushMeta γ))
    (h : rows.All P)
    (hpending : ∀ m ∈ pending, ∀ callid id, m.callid = some callid → (callid, id) ∈ newIds →
      P id m) : (pending.foldl (filePending newIds) rows).All P := by
  induction pending generalizing rows with
  | nil => exact h
  | cons m pending ih =>
    refine ih ?_ fun m' hm' => hpending m' (.tail _ hm')
    unfold filePending
    split
    · exact h
    next id hid =>
      obtain ⟨callid, hcallid, hlook⟩ := Option.bind_eq_some_iff.mp hid
      obtain ⟨_, _, rfl, -⟩ := lookup_eq_some_iff.mp hlook
      exact pushRow_all h (hpending m mem_cons_self callid id hcallid (by simp))

theorem knows_putAll (hc : db.Knows cache) (entries : List (String × Nat))
    (h : ∀ entry ∈ entries, db.callidOf entry.2 = some entry.1) :
    db.Knows (entries.foldl (fun cache entry => cache.put entry.1 entry.2) cache) := by
  induction entries generalizing cache with
  | nil => exact hc
  | cons entry entries ih =>
    refine ih (fun entry' hentry' => ?_) fun entry' hentry' => h entry' (.tail _ hentry')
    rcases Lru.mem_put hentry' with rfl | hentry'
    · exact h _ mem_cons_self
    · exact hc entry' hentry'

/-- The rows and what waits for an id come from packets for which `Q` holds. -/
structure Scan.From (Q : FlushMeta γ → Prop) (scan : Scan γ) : Prop where
  rows : scan.rows.All fun _ m => Q m
  pending : ∀ m ∈ scan.pending, Q m

theorem Scan.From.foldl (h : scan.From Q) (hmetas : ∀ m ∈ metas, Q m) :
    (metas.foldl Scan.step scan).From Q := by
  induction metas generalizing scan with
  | nil => exact h
  | cons m metas ih =>
    have hm := hmetas m mem_cons_self
    refine ih ?_ fun m' hm' => hmetas m' (.tail _ hm')
    unfold Scan.step
    split
    · exact h
    · split
      · exact ⟨pushRow_all h.rows hm, h.pending⟩
      · exact ⟨h.rows, forall_mem_append.mpr ⟨h.pending, forall_mem_singleton.mpr hm⟩⟩

/-- The rows of a database come from packets for which `Q` holds. -/
def Db.From (Q : FlushMeta γ → Prop) (db : Db γ) : Prop :=
  Rows.All (fun _ m => Q m) ⟨db.sipMsgs, db.mediaMsgs⟩

variable (hash : HashOrder)

theorem flushSliceInner_from (hdb : db.From Q) (hmetas : ∀ m ∈ metas, Q m) :
    (flushSliceInner hash fault metas db cache).2.1.From Q := by
  have hscan : (metas.foldl Scan.step { cache }).From Q :=
    Scan.From.foldl ⟨⟨by simp, by simp⟩, by simp⟩ hmetas
  unfold flushSliceInner
  generalize metas.foldl Scan.step { cache } = scan at hscan ⊢
  split
  · exact hdb
  dsimp only
  split
  · exact hdb
  split
  · exact hdb
  · obtain ⟨hgrows, -⟩ := db.insertCallids_spec scan.newCallids
    have hnew := filePending_all (db.insertCallids scan.newCallids).1 scan.pending hscan.rows
      fun m hm _ _ _ _ => hscan.pending m hm
    exact ⟨forall_mem_append.mpr ⟨hgrows.sipMsgs ▸ hdb.sip, hnew.sip⟩,
      forall_mem_append.mpr ⟨hgrows.mediaMsgs ▸ hdb.rtp, hnew.rtp⟩⟩

theorem flushSliceInner_ok (metas : List (FlushMeta γ)) (db : Db γ) (cache : Lru String Nat) :
    (flushSliceInner hash none metas db cache).1 = true := by
  unfold flushSliceInner
  simp

/-- Rows are filed under the calls of their packets. If the transaction fails after these got their
ids, the cache keeps them, unless no call was new. -/
theorem flushSliceInner_spec (hdb : db.Filed) (hc : db.Knows cache)
    (hfault : fault = some .messages ∨ fault = some .commit → ∀ m ∈ metas, m.Cached cache) :
    (flushSliceInner hash fault metas db cache).2.1.Filed ∧
      (flushSliceInner hash fault metas db cache).2.1.Knows
        (flushSliceInner hash fault metas db cache).2.2 := by
  have hscan : (metas.foldl Scan.step { cache }).Ok db :=
    Scan.Ok.foldl ⟨hc, by simp, by simp⟩ metas
  have hnew : (∀ m ∈ metas, m.Cached cache) → (metas.foldl Scan.step { cache }).newCallids = [] :=
    Scan.newCallids_of_cached { cache } metas
  unfold flushSliceInner
  generalize metas.foldl Scan.step { cache } = scan at hscan hnew ⊢
  split
  · exact ⟨hdb, hc⟩
  dsimp only
  split
  · exact ⟨hdb, hscan.knows⟩
  obtain ⟨hgrows, hids⟩ := db.insertCallids_spec scan.newCallids
  split
  next hlate =>
    -- Nothing was put into the cache: no call was new.
    have hnone := hnew (hfault (by simpa using hlate))
    rw [hnone]
    have horder : hash.order [] = [] := perm_nil.mp (hash.perm [])
    simpa [Db.insertCallids, horder] using And.intro hdb hscan.knows
  next =>
    have hall := filePending_all (db.insertCallids scan.newCallids).1 scan.pending
      (hscan.rows.imp fun _ _ => hgrows.files) fun m _ callid id hcallid hid =>
        ⟨callid, hcallid, hids _ hid⟩
    have hold := hgrows.filed hdb
    refine ⟨⟨fun row hrow => ?_, fun row hrow => ?_⟩,
      knows_putAll (hgrows.knows hscan.knows) _ fun entry hentry =>
        hids entry ((hash.perm _).mem_iff.mp hentry)⟩
    · exact (mem_append.mp hrow).elim (hold.sip row) (hall.sip row)
    · exact (mem_append.mp hrow).elim (hold.rtp row) (hall.rtp row)

end

/-! ### Every run -/

namespace Flusher

variable {β γ : Type} {f f' : Flusher β γ}

/-- The transaction goes through, or fails before the calls get their ids, or all of them have ids
in the cache. -/
def KeepsCache (f : Flusher β γ) (fault : Option Fault) : Prop :=
  fault = some .messages ∨ fault = some .commit →
    ∀ m ∈ f.batch.take commitChunkRows, m.Cached f.cache

/-- Every row is filed under its call, and the cache agrees with the open database. -/
structure Filed (f : Flusher β γ) : Prop where
  dbs : ∀ bucket, (f.dbs bucket).Filed
  cache : ∀ bucket, f.conn = some bucket → (f.dbs bucket).Knows f.cache

/-- The flusher as it starts, on any databases whose rows are filed under their calls. -/
structure Start (f : Flusher β γ) : Prop where
  phase : f.phase = .idle
  conn : f.conn = none
  batch : f.batch = []
  cache : f.cache.entries = []
  dbs : ∀ bucket, (f.dbs bucket).Filed

theorem Start.filed (h : f.Start) : f.Filed :=
  ⟨h.dbs, fun bucket hconn => by rw [h.conn] at hconn; cases hconn⟩

theorem Filed.of_eq (h : f.Filed) (hdbs : f'.dbs = f.dbs) (hconn : f'.conn = f.conn)
    (hcache : f'.cache = f.cache) : f'.Filed := by
  obtain ⟨h₁, h₂⟩ := h
  rw [← hdbs, ← hcache, ← hconn] at *
  exact ⟨h₁, h₂⟩

theorem proceed_filed (h : f.Filed) (next : AfterFlush β) : (f.proceed next).Filed := by
  cases next <;> exact h.of_eq rfl rfl rfl

theorem startFlush_filed (h : f.Filed) (next : AfterFlush β) : (f.startFlush next).Filed := by
  unfold startFlush
  split
  · exact proceed_filed h next
  · exact h.of_eq rfl rfl rfl

theorem handleFlushCommand_filed (h : f.Filed) :
    (f.handleFlushCommand config elapsed cmd).Filed := by
  cases cmd with
  | fmeta m =>
    have hpush : Filed { f with batch := f.batch ++ [m] } := h.of_eq rfl rfl rfl
    unfold handleFlushCommand
    dsimp only
    split
    · exact startFlush_filed hpush _
    · exact hpush
  | flush | flushSync | rotate => exact startFlush_filed h _

variable [DecidableEq β]

theorem flushSlice_filed (h : f.Filed) (hash : HashOrder) (next : AfterFlush β)
    (hconn : f.conn = some bucket) (hkeeps : f.KeepsCache fault) :
    (f.flushSlice hash fault bucket next).Filed := by
  obtain ⟨hdb, hcache⟩ := flushSliceInner_spec hash (h.dbs bucket) (h.cache bucket hconn) hkeeps
  have hslice : Filed { f with
      dbs := Function.update f.dbs bucket (flushSliceInner hash fault
        (f.batch.take commitChunkRows) (f.dbs bucket) f.cache).2.1
      cache := (flushSliceInner hash fault
        (f.batch.take commitChunkRows) (f.dbs bucket) f.cache).2.2
      batch := f.batch.drop commitChunkRows } := by
    refine ⟨fun bucket' => ?_, fun bucket' hconn' => ?_⟩
    · by_cases heq : bucket' = bucket
      · subst heq
        simpa using hdb
      · simpa [Function.update_of_ne heq] using h.dbs bucket'
    · cases hconn.symm.trans hconn'
      simpa using hcache
  unfold flushSlice
  dsimp only
  split
  · exact hslice
  · exact proceed_filed hslice next

theorem Step.filed (hstep : Step config KeepsCache f f') (h : f.Filed) : f'.Filed := by
  cases hstep with
  | command cmd elapsed _ => exact handleFlushCommand_filed h
  | slice hash fault _ hconn hkeeps => exact flushSlice_filed h hash _ hconn hkeeps
  | openDb opened _ =>
    unfold Flusher.openDb
    split
    · exact ⟨h.dbs, fun _ _ => nofun⟩
    · exact h.of_eq rfl rfl rfl

/-- **Packets are filed under their calls**, as long as no transaction fails after it has put new
ids into the cache. -/
theorem rows_filed (config : FlusherConfig) (start f : Flusher β γ) (hstart : start.Start)
    (hruns : Runs config KeepsCache start f) (bucket : β) :
    (∀ row ∈ (f.dbs bucket).sipMsgs, (f.dbs bucket).Files row.callId row.origin) ∧
      ∀ row ∈ (f.dbs bucket).mediaMsgs, (f.dbs bucket).Files row.callId row.origin := by
  have hfiled : f.Filed := by
    induction hruns with
    | refl => exact hstart.filed
    | tail _ hstep ih => exact hstep.filed ih
  exact ⟨(hfiled.dbs bucket).sip, (hfiled.dbs bucket).rtp⟩

def empty : Flusher Unit Unit where
  dbs _ := {}
  conn := none
  batch := []
  cache := .empty .recency 8 (by decide)
  phase := .idle

theorem start_empty : empty.Start :=
  ⟨rfl, rfl, rfl, rfl, fun _ => ⟨nofun, nofun⟩⟩

def sipMeta (callid : String) : FlushMeta Unit where
  msgType := .sip
  callid := some callid
  src := "10.0.0.1:5060"
  dst := "10.0.0.2:5060"
  leg := none
  timestamp := 0
  offset := 0
  size := 0
  source := ()

def inOrder : HashOrder := ⟨id, fun _ => .refl _⟩

section

variable {f : Flusher Unit Unit}

def index (callid : String) (fault : Option Fault) (f : Flusher Unit Unit) : Flusher Unit Unit :=
  let f := f.handleFlushCommand ⟨0, 0⟩ 0 (.fmeta (sipMeta callid))
  let f := f.handleFlushCommand ⟨0, 0⟩ 0 .flush
  f.flushSlice inOrder fault () .nothing

def opened : Flusher Unit Unit :=
  (empty.handleFlushCommand ⟨0, 0⟩ 0 (.rotate ())).openDb true ()

theorem runs_opened : Runs ⟨0, 0⟩ C empty opened :=
  (Relation.ReflTransGen.single (.command (.rotate ()) 0 rfl)).tail (.openDb true rfl)

theorem runs_index (hphase : f.phase = .idle) (hconn : f.conn = some ()) (hbatch : f.batch = [])
    (hfault : C { f with batch := [sipMeta callid], phase := .flushing .nothing } fault) :
    Runs ⟨0, 0⟩ C f (f.index callid fault) := by
  obtain ⟨dbs, _, _, cache, _⟩ := f
  cases hphase
  cases hconn
  cases hbatch
  refine ((Relation.ReflTransGen.single (.command (.fmeta (sipMeta callid)) 0 rfl)).tail
    (.command .flush 0 rfl)).tail (.slice inOrder fault rfl rfl hfault)

end

theorem rows_filed_indexed : Runs ⟨0, 0⟩ KeepsCache empty (opened.index "a" none) ∧
    ∀ row ∈ ((opened.index "a" none).dbs ()).sipMsgs,
      ((opened.index "a" none).dbs ()).Files row.callId row.origin :=
  have hruns : Runs ⟨0, 0⟩ KeepsCache empty (opened.index "a" none) :=
    runs_opened.trans (runs_index rfl rfl rfl nofun)
  ⟨hruns, (rows_filed _ _ _ start_empty hruns ()).1⟩

/-- The transaction of the first packet fails at its commit. The id of its call goes to the next
call, and the next packet of the first call is filed under that. -/
theorem row_misfiled : let f := ((opened.index "a" (some .commit)).index "b" none).index "a" none
    Runs ⟨0, 0⟩ (fun _ _ => True) empty f ∧
      ∃ row ∈ (f.dbs ()).sipMsgs, row.origin.callid = some "a" ∧
        (f.dbs ()).callidOf row.callId = some "b" := by
  refine ⟨((runs_opened.trans (runs_index rfl rfl rfl trivial)).trans
    (runs_index rfl rfl rfl trivial)).trans (runs_index rfl rfl rfl trivial), ?_⟩
  exact ⟨_, .tail _ (.head _), rfl, rfl⟩

end Flusher

end RustPbx.Sipflow
