import RustPbx.Lib.Str
import RustPbx.Lib.Table
import RustPbx.Lib.Time

/-!
The registry that says which node of the cluster hosts a session, in memory and in the database.

A row is a session or an alias, which leads from the Call-ID of a dialog to a session. The database
keeps the start of the first registration (`restarted_session_differs`), tells an alias by the
direction alone, and skips a heartbeat when the row is less than a minute old. It is one that reads
a row before it writes it, and compares texts exactly.
-/

namespace RustPbx.Call

open Time Option

structure SessionInfo where
  callId : String
  nodeId : String
  caller : String := ""
  callee : String := ""
  direction : String := ""
  targetSessionId : Option String := none
  startedAt : Int
  deriving DecidableEq

namespace SessionInfo

def aliasDirection : String := "alias"

def aliasPrefix : String := "alias:"

def canonicalSessionId (info : SessionInfo) : String :=
  match info.targetSessionId with
  | some target => target
  | none => (Str.stripStart aliasPrefix info.direction).getD info.callId

def isAlias (info : SessionInfo) : Bool :=
  info.targetSessionId.isSome || info.direction == aliasDirection ||
    Str.startsWith info.direction aliasPrefix

end SessionInfo

/-- What the rest of the program asks a registry. -/
structure SessionRegistry where
  lookup : String → Option SessionInfo
  lookupOwnerChecked : String → Except String (Option String)

def resolveOwnerAndSession (registry : SessionRegistry) (callId : String) :
    Option (String × String) :=
  (registry.lookup callId).map fun info => (info.nodeId, info.canonicalSessionId)

/-- The limits, the first instants that the two clocks can write, and the database's test for a
direction that begins with the alias marker. -/
structure RegistryConfig where
  ttl : Nat
  maxAge : Nat
  firstInstant : Int
  firstUtc : Int
  likeAlias : String → Bool

def defaultSessionMaxAge : Nat := hours 12

def RegistryConfig.ageLimit (config : RegistryConfig) : Nat :=
  (fromStd config.maxAge).getD defaultSessionMaxAge

variable (config : RegistryConfig)

structure RegistryEntry where
  info : SessionInfo
  lastUpdate : Int

abbrev MemorySessionRegistry := Table String RegistryEntry

namespace MemorySessionRegistry

variable (sessions : MemorySessionRegistry)

def register (now : Int) (info : SessionInfo) : MemorySessionRegistry :=
  let registration : RegistryEntry := ⟨info, now⟩
  match sessions.lookup info.callId with
  | some entry =>
    if !info.isAlias || entry.info.isAlias then sessions.insert info.callId registration
    else sessions
  | none => sessions.insert info.callId registration

def unregister (info : SessionInfo) : MemorySessionRegistry :=
  sessions.retain fun callId entry =>
    !(callId == info.callId && entry.info.nodeId == info.nodeId &&
      entry.info.direction == info.direction &&
      entry.info.targetSessionId == info.targetSessionId)

def heartbeatNode (now : Int) (nodeId : String) (liveCallIds : List String) :
    MemorySessionRegistry :=
  if liveCallIds.isEmpty then sessions
  else sessions.mapRows fun _ entry =>
    if entry.info.nodeId == nodeId && liveCallIds.contains entry.info.callId then
      { entry with lastUpdate := now }
    else entry

def sweep (now : Int) : MemorySessionRegistry :=
  match before config.firstInstant now config.ttl, before config.firstUtc now config.ageLimit with
  | some freshnessCutoff, some ageCutoff =>
    sessions.retain fun _ entry =>
      !(entry.lastUpdate < freshnessCutoff || entry.info.startedAt < ageCutoff)
  | _, _ => sessions

def lookupOwner (callId : String) : Option String :=
  (sessions.lookup callId).map (·.info.nodeId)

def lookupInfo (callId : String) : Option SessionInfo :=
  (sessions.lookup callId).map (·.info)

theorem lookupOwner_eq (callId : String) :
    sessions.lookupOwner callId = (sessions.lookupInfo callId).map (·.nodeId) := by
  rw [lookupInfo, map_map]
  rfl

end MemorySessionRegistry

/-! ## In the database -/

structure ClusterSession where
  callId : String
  nodeId : String
  caller : String
  callee : String
  direction : String
  targetSessionId : Option String
  startedAt : Int
  lastUpdatedAt : Int

namespace ClusterSession

variable (m : ClusterSession)

def fromModel : SessionInfo :=
  ⟨m.callId, m.nodeId, m.caller, m.callee, m.direction, m.targetSessionId, m.startedAt⟩

def ofInfo (info : SessionInfo) (now : Int) : ClusterSession :=
  ⟨info.callId, info.nodeId, info.caller, info.callee, info.direction, info.targetSessionId,
    info.startedAt, now⟩

/-- The statement's own test for an alias. -/
def isAliasRow : Bool :=
  m.direction == SessionInfo.aliasDirection || config.likeAlias m.direction

/-- The row after a registration that meets it. An alias leaves a session alone, and the start stays
what it was. -/
def onConflict (info : SessionInfo) (now : Int) : ClusterSession :=
  let keep := info.isAlias && !m.isAliasRow config
  { m with
    nodeId := if keep then m.nodeId else info.nodeId
    caller := if keep then m.caller else info.caller
    callee := if keep then m.callee else info.callee
    direction := if keep then m.direction else info.direction
    targetSessionId := if keep then m.targetSessionId else info.targetSessionId
    lastUpdatedAt := if keep then m.lastUpdatedAt else now }

end ClusterSession

abbrev DbSessionRegistry := Table String ClusterSession

namespace DbSessionRegistry

def sweeperInterval : Nat := secs 60

variable (rows : DbSessionRegistry)

def register (now : Int) (info : SessionInfo) : DbSessionRegistry :=
  match rows.lookup info.callId with
  | some row => rows.insert info.callId (row.onConflict config info now)
  | none => rows.insert info.callId (ClusterSession.ofInfo info now)

def unregister (info : SessionInfo) : DbSessionRegistry :=
  rows.retain fun callId row =>
    !(callId == info.callId && row.nodeId == info.nodeId && row.direction == info.direction &&
      match info.targetSessionId with
      | some target => row.targetSessionId == some target
      | none => row.targetSessionId.isNone)

def heartbeatNode (now : Int) (nodeId : String) (liveCallIds : List String) : DbSessionRegistry :=
  if liveCallIds.isEmpty then rows
  else
    let staleBefore := now - sweeperInterval
    rows.mapRows fun callId row =>
      if row.nodeId == nodeId && liveCallIds.contains callId && row.lastUpdatedAt < staleBefore then
        { row with lastUpdatedAt := now }
      else row

/-- Delete what is stale, then what is too old. The statement behind a cutoff that cannot be written
is not executed. -/
def sweep (now : Int) : DbSessionRegistry :=
  match before config.firstUtc now ((fromStd config.ttl).getD (hours 1)) with
  | none => rows
  | some freshnessCutoff =>
    let rows : DbSessionRegistry := rows.retain fun _ row => !(row.lastUpdatedAt < freshnessCutoff)
    match before config.firstUtc now config.ageLimit with
    | none => rows
    | some ageCutoff => rows.retain fun _ row => !(row.startedAt < ageCutoff)

def lookupOwnerChecked (callId : String) : Except String (Option String) :=
  .ok ((rows.lookup callId).map (·.nodeId))

def lookupOwner (callId : String) : Option String :=
  match rows.lookupOwnerChecked callId with
  | .ok row => row
  | .error _ => none

def lookupInfo (callId : String) : Option SessionInfo :=
  (rows.lookup callId).map (·.fromModel)

theorem lookupOwner_eq (callId : String) :
    rows.lookupOwner callId = (rows.lookupInfo callId).map (·.nodeId) := by
  rw [lookupInfo, map_map]
  rfl

end DbSessionRegistry

inductive RegistryOp where
  | register (info : SessionInfo)
  | unregister (info : SessionInfo)
  | heartbeatNode (nodeId : String) (liveCallIds : List String)
  | sweep

structure RegistryPair where
  memory : MemorySessionRegistry := ∅
  db : DbSessionRegistry := ∅

namespace RegistryPair

def run (s : RegistryPair) (now : Int) : RegistryOp → RegistryPair
  | .register info => ⟨s.memory.register now info, s.db.register config now info⟩
  | .unregister info => ⟨s.memory.unregister info, s.db.unregister info⟩
  | .heartbeatNode nodeId live =>
    ⟨s.memory.heartbeatNode now nodeId live, s.db.heartbeatNode now nodeId live⟩
  | .sweep => ⟨s.memory.sweep config now, s.db.sweep config now⟩

/-- A registration finds no row, or one that both tests for an alias judge alike and that has the
same start, if it gives way. -/
def Reregisters (s : RegistryPair) (info : SessionInfo) : Prop :=
  ∀ row, s.db.lookup info.callId = some row →
    (info.isAlias = true → row.isAliasRow config = row.fromModel.isAlias) ∧
      ((info.isAlias = true → row.fromModel.isAlias = true) → row.startedAt = info.startedAt)

/-- The cutoffs can be written, and no row was updated on different sides of them in memory and in
the database. -/
structure Sweeps (s : RegistryPair) (now : Int) : Prop where
  ttl : config.ttl ≤ maxTimeDelta
  instant : config.firstInstant ≤ now - config.ttl
  utc : config.firstUtc ≤ now - config.ttl
  age : config.firstUtc ≤ now - config.ageLimit
  fresh : ∀ callId entry row, s.memory.lookup callId = some entry → s.db.lookup callId = some row →
      (entry.lastUpdate < now - config.ttl ↔ row.lastUpdatedAt < now - config.ttl)

/-- The operation is one that both backends treat alike. -/
def Permits (s : RegistryPair) (now : Int) : RegistryOp → Prop
  | .register info => s.Reregisters config info
  | .sweep => s.Sweeps config now
  | _ => True

abbrev Runs : RegistryPair → RegistryPair → Prop :=
  Relation.ReflTransGen fun s s' => ∃ now op, s.Permits config now op ∧ s' = s.run config now op

def SameRow (callId : String) (entry : RegistryEntry) (row : ClusterSession) : Prop :=
  row.callId = callId ∧ entry.info = row.fromModel

/-- Both backends have the same sessions. -/
def Agrees (s : RegistryPair) : Prop :=
  Table.Agrees SameRow s.memory s.db

variable {config} {s : RegistryPair}

theorem Agrees.register (h : s.Agrees) (hrow : s.Reregisters config info) (now : Int) :
    Agrees ⟨s.memory.register now info, s.db.register config now info⟩ := by
  rcases Table.Agrees.cases h info.callId with ⟨hnone, hnone'⟩ | ⟨entry, row, hentry, hdb, hsame⟩
  · simp only [MemorySessionRegistry.register, DbSessionRegistry.register, hnone, hnone']
    exact Table.Agrees.insert h ⟨rfl, rfl⟩
  · obtain ⟨hcall, hinfo⟩ := hsame
    obtain ⟨htest, hstart⟩ := hrow row hdb
    simp only [MemorySessionRegistry.register, DbSessionRegistry.register, hentry, hdb]
    by_cases hgives : info.isAlias = true → row.fromModel.isAlias = true
    · -- The row gives way: all but its start is replaced, and that is the same.
      have hwrite : (!info.isAlias || entry.info.isAlias) = true := by
        rw [hinfo]
        cases halias : info.isAlias with
        | false => rfl
        | true => simpa using hgives halias
      have hkeep : (info.isAlias && !row.isAliasRow config) = false := by
        cases halias : info.isAlias with
        | false => rfl
        | true => simp [htest halias, hgives halias]
      rw [if_pos hwrite]
      refine Table.Agrees.insert h ⟨hcall, ?_⟩
      rw [ClusterSession.onConflict, hkeep]
      simp [ClusterSession.fromModel, hcall, hstart hgives]
    · -- An alias meets a session, which stays in both.
      obtain ⟨halias, hsession⟩ := Classical.not_imp.mp hgives
      have hkeep : row.onConflict config info now = row := by
        simp [ClusterSession.onConflict, htest halias, halias, hsession]
      rw [if_neg (by simp [hinfo, halias, hsession]), hkeep]
      intro callId
      rw [Table.lookup_insert_eq]
      split
      next heq =>
        rw [heq, hentry]
        exact .some ⟨hcall, hinfo⟩
      · exact h callId

theorem Agrees.unregister (h : s.Agrees) (info : SessionInfo) :
    Agrees ⟨s.memory.unregister info, s.db.unregister info⟩ := by
  apply Table.Agrees.retain h
  rintro callId entry row - - ⟨-, hinfo⟩
  rw [hinfo]
  cases info.targetSessionId <;> simp [ClusterSession.fromModel]

theorem Agrees.heartbeatNode (h : s.Agrees) (now : Int) (nodeId : String) (live : List String) :
    Agrees ⟨s.memory.heartbeatNode now nodeId live, s.db.heartbeatNode now nodeId live⟩ := by
  simp only [MemorySessionRegistry.heartbeatNode, DbSessionRegistry.heartbeatNode]
  split
  · exact h
  · apply Table.Agrees.mapRows h
    rintro callId entry row ⟨hcall, hinfo⟩
    constructor
    · split <;> exact hcall
    · split <;> split <;> exact hinfo

theorem Agrees.sweep (h : s.Agrees) (hsweep : s.Sweeps config now) :
    Agrees ⟨s.memory.sweep config now, s.db.sweep config now⟩ := by
  have hinstant : before config.firstInstant now config.ttl = some (now - config.ttl) :=
    if_pos hsweep.instant
  have hutc : before config.firstUtc now ((fromStd config.ttl).getD (hours 1)) =
      some (now - config.ttl) := by
    rw [fromStd, if_pos hsweep.ttl]
    exact if_pos hsweep.utc
  have hage : before config.firstUtc now config.ageLimit = some (now - config.ageLimit) :=
    if_pos hsweep.age
  simp only [Agrees, MemorySessionRegistry.sweep, DbSessionRegistry.sweep, hinstant, hutc, hage,
    Table.retain_retain]
  apply Table.Agrees.retain h
  rintro callId entry row hentry hrow ⟨-, hinfo⟩
  have hstart : entry.info.startedAt = row.startedAt := congrArg SessionInfo.startedAt hinfo
  simp only [hstart, hsweep.fresh callId entry row hentry hrow, Bool.not_or]

theorem Agrees.run (h : s.Agrees) (hop : s.Permits config now op) :
    (s.run config now op).Agrees := by
  cases op with
  | register info => exact h.register hop now
  | unregister info => exact h.unregister info
  | heartbeatNode nodeId live => exact h.heartbeatNode now nodeId live
  | sweep => exact h.sweep hop

theorem Runs.step (hruns : Runs config {} s) (now : Int) (op : RegistryOp)
    (hop : s.Permits config now op) : Runs config {} (s.run config now op) :=
  hruns.tail ⟨now, op, hop, rfl⟩

theorem Runs.agrees (hruns : Runs config {} s) : s.Agrees := by
  induction hruns with
  | refl => exact Table.agrees_empty
  | tail _ hstep ih =>
    obtain ⟨now, op, hop, rfl⟩ := hstep
    exact ih.run hop

/-- **The backends agree**: after every run of permitted operations, they give the same answers
about every call. -/
theorem lookups_agree (hruns : Runs config {} s) (callId : String) :
    s.memory.lookupInfo callId = s.db.lookupInfo callId ∧
      s.memory.lookupOwner callId = s.db.lookupOwner callId := by
  have hinfo : s.memory.lookupInfo callId = s.db.lookupInfo callId := by
    rw [MemorySessionRegistry.lookupInfo, DbSessionRegistry.lookupInfo]
    rcases Table.Agrees.cases hruns.agrees callId with
      ⟨hnone, hnone'⟩ | ⟨entry, row, hentry, hrow, hsame⟩
    · rw [hnone, hnone']
      rfl
    · rw [hentry, hrow, map_some, map_some, hsame.2]
  refine ⟨hinfo, ?_⟩
  rw [MemorySessionRegistry.lookupOwner_eq, DbSessionRegistry.lookupOwner_eq, hinfo]

theorem fresh_of_same_updates (h : s.memory.mapRows (fun _ entry => entry.lastUpdate) =
      s.db.mapRows fun _ row => row.lastUpdatedAt) (hentry : s.memory.lookup callId = some entry)
    (hrow : s.db.lookup callId = some row) :
    entry.lastUpdate < cutoff ↔ row.lastUpdatedAt < cutoff := by
  have hlookup := congrArg (AList.lookup callId) h
  rw [Table.lookup_mapRows, Table.lookup_mapRows, hentry, hrow] at hlookup
  have hsame : entry.lastUpdate = row.lastUpdatedAt := some.inj hlookup
  rw [hsame]

def shortLived : RegistryConfig where
  ttl := secs 90
  maxAge := hours 12
  firstInstant := -hours 24
  firstUtc := -hours 24
  likeAlias direction := Str.startsWith direction SessionInfo.aliasPrefix

def inboundCall (callId : String) (startedAt : Int) : SessionInfo :=
  { callId, nodeId := "n", direction := "inbound", startedAt }

def heartbeaten : RegistryPair :=
  let s : RegistryPair := {}
  let s := s.run shortLived 0 (.register (inboundCall "call" 0))
  let s := s.run shortLived 0 (.register (inboundCall "other" 0))
  s.run shortLived (secs 70) (.heartbeatNode "n" ["call"])

/-- The session with the heartbeat survives a sweep in both backends, the other one in neither. -/
theorem lookups_agree_swept :
    (heartbeaten.run shortLived (secs 100) .sweep).memory.lookupInfo "call" =
        some (inboundCall "call" 0) ∧
      (heartbeaten.run shortLived (secs 100) .sweep).memory.lookupInfo "other" = none ∧
      (heartbeaten.run shortLived (secs 100) .sweep).memory.lookupInfo "call" =
        (heartbeaten.run shortLived (secs 100) .sweep).db.lookupInfo "call" := by
  refine ⟨by decide, by decide, ?_⟩
  have hcall : Runs shortLived {} (run shortLived {} 0 (.register (inboundCall "call" 0))) :=
    Runs.step .refl 0 (.register _) fun row hrow => by cases hrow
  have hother : Runs shortLived {} (run shortLived (run shortLived {} 0
      (.register (inboundCall "call" 0))) 0 (.register (inboundCall "other" 0))) :=
    hcall.step 0 (.register _) fun row hrow => by cases hrow
  have hbeaten : Runs shortLived {} heartbeaten := Runs.step hother _ (.heartbeatNode _ _) trivial
  have hsweep : heartbeaten.Sweeps shortLived (secs 100) :=
    ⟨by decide, by decide, by decide, by decide, fun _ _ _ => fresh_of_same_updates rfl⟩
  exact (lookups_agree (Runs.step hbeaten _ .sweep hsweep) "call").1

/-- **A session that is registered again.** The memory takes the new start, the database keeps the
first. -/
theorem restarted_session_differs : let s : RegistryPair := {}
    let s := s.run shortLived 0 (.register (inboundCall "call" 0))
    let s := s.run shortLived 5 (.register (inboundCall "call" 5))
    s.memory.lookupInfo "call" = some (inboundCall "call" 5) ∧
      s.db.lookupInfo "call" = some (inboundCall "call" 0) := by
  decide

end RegistryPair

end RustPbx.Call
