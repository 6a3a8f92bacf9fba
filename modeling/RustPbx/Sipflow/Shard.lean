import RustPbx.Lib.Machine
import RustPbx.Sipflow.Storage

/-!
The shards of the local sipflow backend, and which worker writes to which raw file.

In a sharded bucket each worker has a directory of its own; in one of the old layout records should
go to worker 0. The layout is detected from the directory, and the shared router publishes first the
key of the bucket and then its layout. A record is queued for the worker that the published layout
gives, and rotates into the bucket that is current when that worker gets to it. Every access to the
router and every wait of a rotation is a step of its own, and any number of readers ask for the
layout.
-/

namespace RustPbx.Sipflow

inductive SipFlowSubdirs where
  | none
  | daily
  | hourly

def zeroPadded (width n : Nat) : String :=
  String.ofList (List.replicate (width - (toString n).length) '0') ++ toString n

def yearText : Int → String
  | .ofNat year => zeroPadded 4 year
  | .negSucc year => "-" ++ zeroPadded 3 (year + 1)

def bucketSubdir (subdirs : SipFlowSubdirs) : Hour → String
  | (year, month, day, hour) =>
    let date := yearText year ++ zeroPadded 2 month ++ zeroPadded 2 day
    match subdirs with
    | .hourly => date ++ "/" ++ zeroPadded 2 hour
    | .daily => date
    | .none => ""

inductive BucketLayout where
  | single
  | multi
  deriving DecidableEq

def fnv1a (input : String) : UInt64 :=
  input.toUTF8.data.toList.foldl (fun hash b => (hash ^^^ b.toUInt64) * 0x100000001b3)
    0xcbf29ce484222325

/-- What is in the directory of a bucket: a `shard-*` directory, and anything else. -/
structure BucketDir where
  shards : Bool := false
  others : Bool := false

def BucketDir.legacy (dir : BucketDir) : Bool :=
  dir.others && !dir.shards

def detectBucketLayout (readable : Bool) (dir : BucketDir) : BucketLayout :=
  if readable && dir.legacy then .single else .multi

/-- The directory of a raw file: that of the bucket, or that of a shard in it. -/
structure WriteDir where
  subdir : String
  shard : Option Nat
  deriving DecidableEq

def writeDir (layout : BucketLayout) (subdir : String) (shardIndex : Nat) : WriteDir :=
  match layout with
  | .multi => ⟨subdir, some shardIndex⟩
  | .single => ⟨subdir, none⟩

/-! ## The router, the workers and the readers -/

structure RouterState where
  mode : BucketLayout := .multi
  shards : Nat
  bucketKey : UInt64 := 0

def RouterState.routeIndex (router : RouterState) (callId : String) : Nat :=
  if router.mode = .single ∨ router.shards ≤ 1 then 0
  else (fnv1a callId).toNat % router.shards

/-- Where a worker is in `rotate`, or a reader in `current_layout`. -/
inductive RotatePhase where
  | idle
  | asks
  | known
  /-- The key is another one: about to look at the directory. -/
  | detects
  | storesKey (layout : BucketLayout)
  | storesMode (layout : BucketLayout)
  | chosen (layout : BucketLayout)
  /-- About to close the old raw file, if it is another one. -/
  | closes (dir : WriteDir)
  | opens (dir : WriteDir)
  /-- The file is open, and its length not yet read. -/
  | opened (dir : WriteDir)
  deriving DecidableEq

/-- A reader has no queue and no file. `target` is the hour of the rotation in progress, and
`rawFile` the directory of the open raw file. -/
structure ShardWorker where
  phase : RotatePhase := .idle
  target : Hour := (0, 0, 0, 0)
  queue : Nat := 0
  currentHour : Hour := (0, 0, 0, 0)
  rawFile : Option WriteDir := none
  rawPath : Option WriteDir := none

/-- The workers are those below `router.shards`; the others are readers. -/
structure Shards where
  subdirs : SipFlowSubdirs
  router : RouterState
  now : Hour
  dirs : String → BucketDir
  workers : Nat → ShardWorker

inductive WorkerInput where
  /-- A worker takes a record, or a reader asks for the layout of the current bucket. -/
  | take
  | loadKey
  | loadMode
  | detect (readable : Bool)
  | storeKey
  | storeMode
  /-- Whether the shard directories could be made, and if not, whether one of them was. -/
  | createDirs (ok made : Bool)
  | close
  | open (ok : Bool)
  | measure (ok : Bool)
  deriving DecidableEq

inductive ShardInput where
  | tick (now : Hour)
  | record (callId : Option String)
  /-- Something else changes the directory of a bucket. -/
  | disk (subdir : String) (dir : BucketDir)
  | work (i : Nat) (input : WorkerInput)

namespace Shards

def setWorker (i : Nat) (w : ShardWorker) (s : Shards) : Shards :=
  { s with workers := Function.update s.workers i w }

def goOn (i : Nat) (phase : RotatePhase) (s : Shards) : Shards :=
  s.setWorker i { s.workers i with phase }

def setDir (subdir : String) (dir : BucketDir) (s : Shards) : Shards :=
  { s with dirs := Function.update s.dirs subdir dir }

def bucketOf (s : Shards) (i : Nat) : String :=
  bucketSubdir s.subdirs (s.workers i).target

def take (i : Nat) (s : Shards) : Option Shards :=
  let w := s.workers i
  if s.router.shards ≤ i then some (s.setWorker i { w with phase := .asks, target := s.now })
  else if w.queue = 0 then none
  else if w.rawFile.isNone ∨ w.currentHour ≠ s.now then
    some (s.setWorker i { w with phase := .asks, target := s.now, queue := w.queue - 1 })
  else some (s.setWorker i { w with queue := w.queue - 1 })

def loadKey (i : Nat) (s : Shards) : Shards :=
  s.goOn i (if s.router.bucketKey = fnv1a (s.bucketOf i) then .known else .detects)

def detected (i : Nat) (readable : Bool) (s : Shards) : BucketLayout :=
  if s.router.shards ≤ 1 then .single else detectBucketLayout readable (s.dirs (s.bucketOf i))

def storeKey (i : Nat) (layout : BucketLayout) (s : Shards) : Shards :=
  { s.goOn i (.storesMode layout) with
    router := { s.router with bucketKey := fnv1a (s.bucketOf i) } }

def storeMode (i : Nat) (layout : BucketLayout) (s : Shards) : Shards :=
  { s.goOn i (.chosen layout) with router := { s.router with mode := layout } }

def createDirs (i : Nat) (layout : BucketLayout) (ok made : Bool) (s : Shards) : Shards :=
  let subdir := s.bucketOf i
  if s.router.shards ≤ i then s.goOn i .idle
  else match layout, ok with
  | .multi, false =>
    (s.setDir subdir { s.dirs subdir with shards := (s.dirs subdir).shards || made }).goOn i .idle
  | .multi, true =>
    (s.setDir subdir { s.dirs subdir with shards := true }).goOn i
      (.closes (writeDir .multi subdir i))
  | .single, _ => s.goOn i (.closes (writeDir .single subdir i))

def close (i : Nat) (dir : WriteDir) (s : Shards) : Shards :=
  let w := s.workers i
  if w.rawPath = some dir then s.setWorker i { w with phase := .idle, currentHour := w.target }
  else s.setWorker i { w with phase := .opens dir, rawFile := none }

/-- The lock on the raw file is left out: where it cannot be had, that is only reported. -/
def openRaw (i : Nat) (dir : WriteDir) (ok : Bool) (s : Shards) : Shards :=
  let old := s.dirs dir.subdir
  if ok then
    (s.setDir dir.subdir { old with others := old.others || dir.shard.isNone }).setWorker i
      { s.workers i with phase := .opened dir, rawFile := some dir }
  else s.goOn i .idle

def measure (i : Nat) (dir : WriteDir) (ok : Bool) (s : Shards) : Shards :=
  let w := s.workers i
  if ok then s.setWorker i { w with phase := .idle, currentHour := w.target, rawPath := some dir }
  else s.setWorker i { w with phase := .idle, rawFile := none }

def work (i : Nat) (s : Shards) (input : WorkerInput) : Option Shards :=
  match (s.workers i).phase, input with
  | .idle, .take => s.take i
  | .asks, .loadKey => some (s.loadKey i)
  | .known, .loadMode => some (s.goOn i (.chosen s.router.mode))
  | .detects, .detect readable => some (s.goOn i (.storesKey (s.detected i readable)))
  | .storesKey layout, .storeKey => some (s.storeKey i layout)
  | .storesMode layout, .storeMode => some (s.storeMode i layout)
  | .chosen layout, .createDirs ok made => some (s.createDirs i layout ok made)
  | .closes dir, .close => some (s.close i dir)
  | .opens dir, .open ok => some (s.openRaw i dir ok)
  | .opened dir, .measure ok => some (s.measure i dir ok)
  | _, _ => none

def step (s : Shards) : ShardInput → Option Shards
  | .tick now => some { s with now }
  | .record callId =>
    let i := (callId.map s.router.routeIndex).getD 0
    some (s.setWorker i { s.workers i with queue := (s.workers i).queue + 1 })
  | .disk subdir dir => some (s.setDir subdir dir)
  | .work i input => s.work i input

def Runs (C : Shards → ShardInput → Prop) : Shards → Shards → Prop :=
  Relation.ReflTransGen fun s s' => ∃ input, C s input ∧ s.step input = some s'

end Shards

/-! ## Who has which file open -/

def WriteDir.OwnedBy (i : Nat) (dir : WriteDir) : Prop :=
  dir.shard = some i ∨ dir.shard = none ∧ i = 0

theorem WriteDir.OwnedBy.eq {dir : WriteDir} (hi : dir.OwnedBy i) (hj : dir.OwnedBy j) : i = j := by
  rcases hi with hi | ⟨hi, rfl⟩ <;> rcases hj with hj | ⟨hj, rfl⟩ <;> simp_all

/-- The old layout is for worker 0, and for readers. -/
def BucketLayout.Suits (shards i : Nat) (layout : BucketLayout) : Prop :=
  layout = .single → i = 0 ∨ shards ≤ i

theorem BucketLayout.Suits.owned (h : layout.Suits shards i) (hi : i < shards) (subdir : String) :
    (writeDir layout subdir i).OwnedBy i := by
  cases layout with
  | multi => exact .inl rfl
  | single => exact .inr ⟨rfl, (h rfl).resolve_right (by omega)⟩

def RotatePhase.Fits (shards i : Nat) : RotatePhase → Prop
  | .idle | .asks | .known | .detects => True
  | .storesKey layout | .storesMode layout | .chosen layout => layout.Suits shards i
  | .closes dir | .opens dir | .opened dir => dir.OwnedBy i

/-- The file that worker `i` has open is its own, and so is the one that it is about to open. -/
structure ShardWorker.Fits (shards i : Nat) (w : ShardWorker) : Prop where
  phase : w.phase.Fits shards i
  rawFile : ∀ dir, w.rawFile = some dir → dir.OwnedBy i

namespace Shards

variable {s s' : Shards}

/-- No two workers have the same raw file open. -/
def Exclusive (s : Shards) : Prop :=
  ∀ i j dir, (s.workers i).rawFile = some dir → (s.workers j).rawFile = some dir → i = j

/-- Worker 0 is the only one that finds the mode or a bucket to be of the old layout. -/
def OldLayoutFirst (s : Shards) : ShardInput → Prop
  | .work i .loadMode => 0 < i → i < s.router.shards → s.router.mode = .multi
  | .work i (.detect _) =>
    0 < i → i < s.router.shards → (s.dirs (s.bucketOf i)).legacy = false
  | _ => True

def Separate (s : Shards) : Prop :=
  ∀ i, (s.workers i).Fits s.router.shards i

theorem Separate.exclusive (h : s.Separate) : s.Exclusive :=
  fun i j dir hi hj => ((h i).rawFile dir hi).eq ((h j).rawFile dir hj)

theorem Separate.of_update (h : s.Separate) (hworkers : s'.workers = Function.update s.workers i w)
    (hshards : s'.router.shards = s.router.shards) (hw : w.Fits s.router.shards i) :
    s'.Separate := by
  intro j
  rw [hworkers, hshards]
  rcases eq_or_ne j i with rfl | hj
  · simpa using hw
  · simpa [hj] using h j

theorem Separate.goOn (h : s.Separate)
    (hphase : phase.Fits s.router.shards i) : (s.goOn i phase).Separate :=
  h.of_update rfl rfl ⟨hphase, (h i).rawFile⟩

theorem Separate.setDir (h : s.Separate) (subdir : String) (dir : BucketDir) :
    (s.setDir subdir dir).Separate := h

theorem suits_mode (hC : s.OldLayoutFirst (.work i .loadMode)) :
    s.router.mode.Suits s.router.shards i := by
  intro hmode
  by_contra! hi
  rw [hC (by omega) hi.2] at hmode
  cases hmode

theorem suits_detected (hC : s.OldLayoutFirst (.work i (.detect readable))) :
    (s.detected i readable).Suits s.router.shards i := by
  intro hlayout
  by_contra! hi
  have hshards : ¬ s.router.shards ≤ 1 := by omega
  simp [detected, hshards, detectBucketLayout, hC (by omega) hi.2] at hlayout

section

variable (h : s.Separate)
include h

theorem Separate.take (hstep : s.take i = some s') : s'.Separate := by
  simp only [Shards.take] at hstep
  split_ifs at hstep <;> cases hstep
  · exact h.of_update rfl rfl ⟨trivial, (h i).rawFile⟩
  · exact h.of_update rfl rfl ⟨trivial, (h i).rawFile⟩
  · exact h.of_update rfl rfl ⟨(h i).phase, (h i).rawFile⟩

theorem Separate.loadKey (i : Nat) : (s.loadKey i).Separate := by
  unfold Shards.loadKey
  split_ifs <;> exact h.goOn trivial

theorem Separate.createDirs (hsuits : layout.Suits s.router.shards i) (ok made : Bool) :
    (s.createDirs i layout ok made).Separate := by
  simp only [Shards.createDirs]
  split_ifs with hi
  · exact h.goOn trivial
  · have howned := hsuits.owned (not_le.mp hi) (s.bucketOf i)
    split
    · exact (h.setDir _ _).goOn trivial
    · exact (h.setDir _ _).goOn howned
    · exact h.goOn howned

theorem Separate.close (howned : dir.OwnedBy i) : (s.close i dir).Separate := by
  simp only [Shards.close]
  split_ifs
  · exact h.of_update rfl rfl ⟨trivial, (h i).rawFile⟩
  · exact h.of_update rfl rfl ⟨howned, nofun⟩

theorem Separate.openRaw (howned : dir.OwnedBy i) (ok : Bool) : (s.openRaw i dir ok).Separate := by
  simp only [Shards.openRaw]
  split_ifs
  · exact (h.setDir _ _).of_update rfl rfl ⟨howned, by rintro _ ⟨⟩; exact howned⟩
  · exact h.goOn trivial

theorem Separate.measure (i : Nat) (dir : WriteDir) (ok : Bool) :
    (s.measure i dir ok).Separate := by
  simp only [Shards.measure]
  split_ifs
  · exact h.of_update rfl rfl ⟨trivial, (h i).rawFile⟩
  · exact h.of_update rfl rfl ⟨trivial, nofun⟩

theorem Separate.work (hC : s.OldLayoutFirst (.work i input)) (hstep : s.work i input = some s') :
    s'.Separate := by
  have hfits := (h i).phase
  unfold Shards.work at hstep
  split at hstep <;> rename_i hphase
  case h_11 => cases hstep
  all_goals rw [hphase] at hfits
  case h_1 => exact h.take hstep
  all_goals cases hstep
  case h_2 => exact h.loadKey i
  case h_3 => exact h.goOn (suits_mode hC)
  case h_4 => exact h.goOn (suits_detected hC)
  case h_5 | h_6 => exact h.of_update rfl rfl ⟨hfits, (h i).rawFile⟩
  case h_7 => exact h.createDirs hfits _ _
  case h_8 => exact h.close hfits
  case h_9 => exact h.openRaw hfits _
  case h_10 => exact h.measure i _ _

theorem Separate.step (hC : s.OldLayoutFirst input)
    (hstep : s.step input = some s') : s'.Separate := by
  cases input with
  | tick now =>
    cases hstep
    exact h
  | record callId =>
    cases hstep
    exact h.of_update rfl rfl ⟨(h _).phase, (h _).rawFile⟩
  | disk subdir dir =>
    cases hstep
    exact h.setDir subdir dir
  | work i input => exact h.work hC hstep

end

structure Start (s : Shards) : Prop where
  mode : s.router.mode = .multi
  bucketKey : s.router.bucketKey = 0
  workers : ∀ i, s.workers i = {}

theorem Start.separate (h : s.Start) : s.Separate := by
  intro i
  rw [h.workers i]
  exact ⟨trivial, nofun⟩

/-- **No two workers have the same raw file open**, as long as worker 0 is the only one to meet the
old layout. -/
theorem raw_files_exclusive (s s' : Shards) (hstart : s.Start) (hruns : Runs OldLayoutFirst s s') :
    s'.Exclusive := by
  have hseparate : s'.Separate := by
    induction hruns with
    | refl => exact hstart.separate
    | tail _ hstep ih =>
      obtain ⟨input, hC, hstep⟩ := hstep
      exact ih.step hC hstep
  exact hseparate.exclusive

instance (s : Shards) : (input : ShardInput) → Decidable (s.OldLayoutFirst input)
  | .work i .loadMode =>
    inferInstanceAs (Decidable (0 < i → i < s.router.shards → s.router.mode = .multi))
  | .work i (.detect _) => inferInstanceAs (Decidable
      (0 < i → i < s.router.shards → (s.dirs (s.bucketOf i)).legacy = false))
  | .work _ .take | .work _ .loadKey | .work _ .storeKey | .work _ .storeMode
  | .work _ (.createDirs ..) | .work _ .close | .work _ (.open _) | .work _ (.measure _)
  | .tick _ | .record _ | .disk .. => inferInstanceAs (Decidable True)

section

variable (C : Shards → ShardInput → Prop) [∀ s input, Decidable (C s input)]

def play (inputs : List ShardInput) (s : Shards) : Option Shards :=
  inputs.foldlM (fun s input => if C s input then s.step input else none) s

variable {C}

theorem runs_play (inputs : List ShardInput) (h : s.play C inputs = some s') : Runs C s s' :=
  Machine.Runs.of_checked .refl h

end

/-- It is past two. The bucket of the hour before was written with one shard. -/
def upgraded : Shards where
  subdirs := .hourly
  router := { shards := 2 }
  now := (2026, 10, 25, 2)
  dirs subdir := { others := subdir = "20261025/01" }
  workers _ := {}

theorem start_upgraded : upgraded.Start := ⟨rfl, rfl, fun _ => rfl⟩

def detecting (i : Nat) : List ShardInput :=
  [.work i .take, .work i .loadKey, .work i (.detect true), .work i .storeKey, .work i .storeMode,
    .work i (.createDirs true true)]

def asking (i : Nat) : List ShardInput :=
  [.work i .take, .work i .loadKey, .work i .loadMode, .work i (.createDirs true true)]

def opening (i : Nat) : List ShardInput :=
  [.work i .close, .work i (.open true), .work i (.measure true)]

/-- The backend asks for the layout when it is made, and then gets a record for each worker. -/
def recording : List ShardInput :=
  detecting 2 ++ [.record (some "a"), .record (some "b")]

def rawFiles (s : Shards) : Option WriteDir × Option WriteDir :=
  ((s.workers 0).rawFile, (s.workers 1).rawFile)

/-- Both workers write to the new bucket. -/
theorem raw_files_exclusive_upgraded : ∃ s, Runs OldLayoutFirst upgraded s ∧
    s.rawFiles = (some ⟨"20261025/02", some 0⟩, some ⟨"20261025/02", some 1⟩) ∧ s.Exclusive := by
  have hfiles : (upgraded.play OldLayoutFirst
      (recording ++ asking 0 ++ opening 0 ++ asking 1 ++ opening 1)).map rawFiles =
      some (some ⟨"20261025/02", some 0⟩, some ⟨"20261025/02", some 1⟩) := by
    decide +kernel
  obtain ⟨s, hplay, hs⟩ := Option.map_eq_some_iff.mp hfiles
  have hruns := runs_play _ hplay
  exact ⟨s, hruns, hs, raw_files_exclusive _ _ start_upgraded hruns⟩

/-- The records are queued for both workers, and the clock is set back. Worker 0 finds the bucket of
the old layout and opens its raw file; worker 1 takes the layout from the router, and opens the same
file. -/
theorem raw_file_shared : ∃ s, Runs (fun _ _ => True) upgraded s ∧ ¬ s.Exclusive := by
  have hfiles : (upgraded.play (fun _ _ => True) (recording ++ [.tick (2026, 10, 25, 1)] ++
      detecting 0 ++ opening 0 ++ asking 1 ++ opening 1)).map rawFiles =
      some (some ⟨"20261025/01", none⟩, some ⟨"20261025/01", none⟩) := by
    decide +kernel
  obtain ⟨s, hplay, hs⟩ := Option.map_eq_some_iff.mp hfiles
  obtain ⟨h₀, h₁⟩ := Prod.mk.inj hs
  exact ⟨s, runs_play _ hplay, fun h => absurd (h 0 1 _ h₀ h₁) (by decide)⟩

end Shards

end RustPbx.Sipflow
