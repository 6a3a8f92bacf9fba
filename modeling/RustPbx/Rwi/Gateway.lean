import RustPbx.Lib.Table

/-!
The RWI gateway: its sessions, the calls that they own, and what it keeps about each call.

The metadata and the user data of a call are removed when it finishes, and also when its owner lets
go of it: `callFinished` does not know which of the two it is. User data that another call still
refers to goes with the last of these calls. DTMF taps, the event cache, the origin fields of events
and the replication of user data to other nodes are left out.
-/

namespace RustPbx.Rwi

open AList Option

abbrev SessionId := String
abbrev CallId := String
abbrev Context := String

structure RwiIdentity where
  token : String
  scopes : List String

inductive OwnershipMode where
  | control
  | listen
  | whisper
  | barge
  deriving DecidableEq

structure RwiSession where
  identity : RwiIdentity
  subscribedContexts : List Context := []
  ownedCalls : Table CallId OwnershipMode := ∅

structure CallMeta where
  /-- The root session, whose user data the call shares. -/
  sessionId : Option SessionId := none
  caller : Option String := none
  callee : Option String := none
  direction : Option String := none

structure SessionUserData where
  data : String
  /-- The data is kept only for the calls that still refer to it. -/
  removalRequested : Bool := false

inductive ClaimError where
  | alreadyOwned
  | sessionNotFound

inductive SetUserDataError where
  | sessionNotFound
  | tooLarge (size : Nat)

structure Gateway where
  sessions : Table SessionId RwiSession := ∅
  contextSubscriptions : Table Context (List SessionId) := ∅
  callOwnership : Table CallId SessionId := ∅
  callVars : Table CallId (Table String String) := ∅
  userData : Table SessionId SessionUserData := ∅
  sessionEventFilters : Table SessionId (List String) := ∅
  metaStore : Table CallId CallMeta := ∅

def maxUserDataBytes : Nat := 16 * 1024

namespace RwiSession

def claimCall (session : RwiSession) (callId : CallId) (mode : OwnershipMode) : Option RwiSession :=
  if callId ∈ session.ownedCalls then none
  else some { session with ownedCalls := session.ownedCalls.insert callId mode }

def releaseCall (session : RwiSession) (callId : CallId) : RwiSession :=
  { session with ownedCalls := session.ownedCalls.erase callId }

end RwiSession

namespace Gateway

variable (g : Gateway)

def createSession (sessionId : SessionId) (identity : RwiIdentity) : Gateway :=
  { g with sessions := g.sessions.insert sessionId { identity } }

def removeSession (sessionId : SessionId) : Gateway × List CallId :=
  let g := { g with sessionEventFilters := g.sessionEventFilters.erase sessionId }
  match g.sessions.lookup sessionId with
  | none => (g, [])
  | some session =>
    let owned := session.ownedCalls.entries.map Sigma.fst
    ({ g with
      sessions := g.sessions.erase sessionId
      contextSubscriptions := g.contextSubscriptions.mapRows fun context subs =>
        if context ∈ session.subscribedContexts then subs.filter (· ≠ sessionId) else subs
      callOwnership := g.callOwnership.eraseAll owned
      callVars := g.callVars.eraseAll owned }, owned)

def claimCallOwnership (sessionId : SessionId) (callId : CallId) (mode : OwnershipMode) :
    Except ClaimError Gateway :=
  if ((g.callOwnership.lookup callId).any (· ≠ sessionId)) then .error .alreadyOwned
  else
    match g.sessions.lookup sessionId with
    | none => .error .sessionNotFound
    | some session =>
      match session.claimCall callId mode with
      | none => .error .alreadyOwned
      | some session => .ok { g with
          sessions := g.sessions.insert sessionId session
          callOwnership := g.callOwnership.insert callId sessionId }

def usesUserData (sessionId : SessionId) : Bool :=
  sessionId ∈ g.metaStore || g.metaStore.values.any (·.sessionId = some sessionId)

def removeUserData (sessionId : SessionId) : Gateway :=
  if g.usesUserData sessionId then
    match g.userData.lookup sessionId with
    | some entry =>
      { g with userData := g.userData.insert sessionId { entry with removalRequested := true } }
    | none => g
  else { g with userData := g.userData.erase sessionId }

def releaseFrom (sessionId : SessionId) (callId : CallId) : Gateway :=
  match g.sessions.lookup sessionId with
  | some session =>
    { g with sessions := g.sessions.insert sessionId (session.releaseCall callId) }
  | none => g

def removeCallVars (callId : CallId) : Gateway :=
  { g with callVars := g.callVars.erase callId }

def removeMeta (callId : CallId) : Gateway :=
  { g with metaStore := g.metaStore.erase callId }

def dropUnusedUserData : Gateway :=
  { g with userData := g.userData.retain fun sessionId entry =>
      !entry.removalRequested || g.usesUserData sessionId }

def callFinished (callId : CallId) : Gateway :=
  let owner := g.callOwnership.lookup callId
  let g := { g with callOwnership := g.callOwnership.erase callId }
  let g := (owner.map (g.releaseFrom · callId)).getD g
  (((g.removeCallVars callId).removeMeta callId).removeUserData callId).dropUnusedUserData

def releaseCallOwnership (sessionId : SessionId) (callId : CallId) : Gateway :=
  match g.callOwnership.lookup callId with
  | some owner => if owner ≠ sessionId then g else g.callFinished callId
  | none =>
    if (g.sessions.lookup sessionId).any (callId ∈ ·.ownedCalls) then
      (g.releaseFrom sessionId callId).removeCallVars callId
    else g

def setUserData (sessionId : SessionId) (data : String) : Except SetUserDataError Gateway :=
  if sessionId ∉ g.metaStore then .error .sessionNotFound
  else if maxUserDataBytes < data.utf8ByteSize then .error (.tooLarge data.utf8ByteSize)
  else .ok { g with userData := g.userData.insert sessionId { data } }

def insertMeta (callId : CallId) (info : CallMeta) : Gateway :=
  { g with metaStore := g.metaStore.insert callId info }

/-! ## What the operations do to the context of a call -/

variable {g : Gateway} {g' : Gateway}

/-- Two gateways keep the same about each call. -/
structure SameContext (g g' : Gateway) : Prop where
  metaStore : g'.metaStore = g.metaStore
  userData : g'.userData = g.userData

theorem SameContext.rfl : SameContext g g := ⟨.refl _, .refl _⟩

theorem removeSession_sameContext (g : Gateway) :
    SameContext g (g.removeSession sessionId).1 := by
  rw [removeSession]
  split
  · exact ⟨.refl _, .refl _⟩
  · exact ⟨.refl _, .refl _⟩

theorem claimCallOwnership_sameContext (h : g.claimCallOwnership sessionId callId mode = .ok g') :
    SameContext g g' := by
  rw [claimCallOwnership] at h
  split at h
  · nomatch h
  · split at h
    · nomatch h
    · split at h
      · nomatch h
      · obtain rfl := Except.ok.inj h
        exact ⟨.refl _, .refl _⟩

theorem releaseFrom_sameContext : SameContext g (g.releaseFrom sessionId callId) := by
  rw [releaseFrom]
  split
  · exact ⟨.refl _, .refl _⟩
  · exact .rfl

@[simp] theorem removeUserData_metaStore : (g.removeUserData callId).metaStore = g.metaStore := by
  rw [removeUserData]
  split
  · split <;> rfl
  · rfl

theorem usesUserData_congr (h : g'.metaStore = g.metaStore) :
    g'.usesUserData sessionId = g.usesUserData sessionId := by
  rw [usesUserData, usesUserData, h]

theorem usesUserData_of_mem (h : callId ∈ g.metaStore) : g.usesUserData callId = true := by
  simp [usesUserData, h]

theorem usesUserData_of_root (hinfo : g.metaStore.lookup callId = some info)
    (hroot : info.sessionId = some sessionId) : g.usesUserData sessionId = true := by
  have hvalue : info ∈ g.metaStore.values :=
    List.mem_map.mpr ⟨⟨callId, info⟩, Table.row_of_lookup hinfo, rfl⟩
  rw [usesUserData, Bool.or_eq_true]
  exact .inr (List.any_eq_true.mpr ⟨info, hvalue, by simpa using hroot⟩)

theorem mem_removeUserData (huses : g.usesUserData sessionId = true)
    (h : sessionId ∈ g.userData) : sessionId ∈ (g.removeUserData callId).userData := by
  rw [removeUserData]
  split
  · split
    · exact (mem_insert _).mpr (.inr h)
    · exact h
  · next hunused =>
    have hne : sessionId ≠ callId := by
      rintro rfl
      exact hunused huses
    exact mem_erase.mpr ⟨hne, h⟩

theorem mem_dropUnusedUserData (huses : g.usesUserData sessionId = true)
    (h : sessionId ∈ g.userData) : sessionId ∈ g.dropUnusedUserData.userData := by
  obtain ⟨entry, hentry⟩ := isSome_iff_exists.mp (lookup_isSome.mpr h)
  rw [← lookup_isSome, dropUnusedUserData, Table.lookup_retain, hentry]
  simp [huses]

def disown (g : Gateway) (callId : CallId) : Gateway :=
  let owner := g.callOwnership.lookup callId
  let g := { g with callOwnership := g.callOwnership.erase callId }
  (owner.map (g.releaseFrom · callId)).getD g

theorem callFinished_eq :
    g.callFinished callId = ((((g.disown callId).removeCallVars callId).removeMeta
      callId).removeUserData callId).dropUnusedUserData := rfl

theorem disown_sameContext : SameContext g (g.disown callId) := by
  rw [disown]
  cases g.callOwnership.lookup callId with
  | none => exact ⟨.refl _, .refl _⟩
  | some owner =>
    obtain ⟨hmeta, hdata⟩ :=
      releaseFrom_sameContext
    exact ⟨hmeta, hdata⟩

@[simp] theorem callFinished_metaStore :
    (g.callFinished callId).metaStore = g.metaStore.erase callId := by
  change (((g.disown callId).removeCallVars callId).removeMeta callId |>.removeUserData
    callId).metaStore = _
  rw [removeUserData_metaStore, removeMeta, removeCallVars, disown_sameContext.metaStore]

theorem mem_callFinished_userData (huses : (g.callFinished callId).usesUserData sessionId = true)
    (h : sessionId ∈ g.userData) : sessionId ∈ (g.callFinished callId).userData := by
  let cleared := ((g.disown callId).removeCallVars callId).removeMeta callId
  have hmeta : (cleared.removeUserData callId).metaStore = cleared.metaStore :=
    removeUserData_metaStore
  have hcleared := (usesUserData_congr hmeta).symm.trans huses
  have hremoved := huses
  have hdata : sessionId ∈ cleared.userData := by
    change sessionId ∈ (g.disown callId).userData
    rw [disown_sameContext.userData]
    exact h
  exact mem_dropUnusedUserData hremoved (mem_removeUserData hcleared hdata)

theorem releaseCallOwnership_cases (g : Gateway) :
    (g.callOwnership.lookup callId = some sessionId ∧
      g.releaseCallOwnership sessionId callId = g.callFinished callId) ∨
    (g.callOwnership.lookup callId ≠ some sessionId ∧
      SameContext g (g.releaseCallOwnership sessionId callId)) := by
  rw [releaseCallOwnership]
  cases howner : g.callOwnership.lookup callId with
  | some owner =>
    by_cases h : owner = sessionId
    · subst h
      exact .inl ⟨rfl, if_neg (not_not_intro rfl)⟩
    · refine .inr ⟨fun heq => h (some.inj heq), ?_⟩
      dsimp only
      rw [if_pos h]
      exact .rfl
  | none =>
    refine .inr ⟨nofun, ?_⟩
    dsimp only
    split
    · obtain ⟨hmeta, hdata⟩ := releaseFrom_sameContext
      exact ⟨hmeta, hdata⟩
    · exact .rfl

/-- The metadata of one call is removed, and no user data that another call uses. -/
structure Removes (callId : CallId) (g g' : Gateway) : Prop where
  metaStore : g'.metaStore = g.metaStore.erase callId
  kept : ∀ other, g'.usesUserData other = true → other ∈ g.userData → other ∈ g'.userData
  only : ∀ other ∈ g'.userData, other ∈ g.userData

theorem removeMeta_removes (g : Gateway) :
    Removes callId g (g.removeMeta callId) :=
  ⟨rfl, fun _ _ h => h, fun _ h => h⟩

theorem mem_of_mem_removeUserData (h : other ∈ (g.removeUserData callId).userData) :
    other ∈ g.userData := by
  rw [removeUserData] at h
  split at h
  · split at h
    · next entry hentry =>
      rcases (mem_insert _).mp h with rfl | h
      · exact lookup_isSome.mp (isSome_of_eq_some hentry)
      · exact h
    · exact h
  · exact (mem_erase.mp h).2

theorem callFinished_removes (g : Gateway) :
    Removes callId g (g.callFinished callId) where
  metaStore := callFinished_metaStore
  kept _ huses h := mem_callFinished_userData huses h
  only other h := by
    rw [callFinished_eq, ← lookup_isSome] at h
    obtain ⟨entry, hentry⟩ := isSome_iff_exists.mp h
    have hrow := Table.row_of_retain (Table.row_of_lookup hentry)
    have hmem := mem_of_mem_removeUserData (lookup_isSome.mp (isSome_of_eq_some hrow.lookup))
    rwa [removeMeta, removeCallVars, disown_sameContext.userData] at hmem

/-- No context is removed, and user data is added only where there is metadata. -/
structure Grows (g g' : Gateway) : Prop where
  metaStore : ∀ other ∈ g.metaStore, other ∈ g'.metaStore
  userData : ∀ other ∈ g.userData, other ∈ g'.userData
  described : ∀ other ∈ g'.userData, other ∈ g.userData ∨ other ∈ g'.metaStore

theorem SameContext.grows (h : SameContext g g') : Grows g g' where
  metaStore _ hmem := h.metaStore ▸ hmem
  userData _ hmem := h.userData ▸ hmem
  described _ hmem := .inl (h.userData ▸ hmem)

theorem insertMeta_grows (g : Gateway) :
    Grows g (g.insertMeta callId info) where
  metaStore _ hmem := (mem_insert _).mpr (.inr hmem)
  userData _ hmem := hmem
  described _ hmem := .inl hmem

theorem setUserData_ok (h : g.setUserData sessionId data = .ok g') :
    sessionId ∈ g.metaStore ∧ g'.metaStore = g.metaStore ∧
      g'.userData = g.userData.insert sessionId { data } := by
  rw [setUserData] at h
  split at h
  · nomatch h
  · next hmeta =>
    split at h
    · nomatch h
    · obtain rfl := Except.ok.inj h
      exact ⟨not_not.mp hmeta, rfl, rfl⟩

theorem setUserData_grows (h : g.setUserData sessionId data = .ok g') : Grows g g' := by
  obtain ⟨hdescribed, hmeta, hdata⟩ := setUserData_ok h
  refine ⟨fun _ hmem => hmeta ▸ hmem, ?_, ?_⟩
  · intro other hmem
    rw [hdata]
    exact (mem_insert _).mpr (.inr hmem)
  · intro other hmem
    rw [hdata] at hmem
    rcases (mem_insert _).mp hmem with rfl | hmem
    · exact .inr (hmeta ▸ hdescribed)
    · exact .inl hmem

end Gateway

end RustPbx.Rwi
