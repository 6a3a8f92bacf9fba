import RustPbx.Proxy.LocatorSystem

/-!
What the presence manager makes of the events of the locator.

Bindings are filed under the user that registered them, but a presence state belongs to the
extension that a binding was registered for (`getUser`). The subscriptions, the database and the
notifications of the manager are left out.
-/

namespace RustPbx.Proxy

open Sip Call

inductive PresenceStatus where
  | idle
  | busy
  | ringing
  | wrapup
  | dnd
  | away (detail : String)
  | offline
  deriving DecidableEq

def PresenceStatus.normalize (status : String) : PresenceStatus :=
  if status ∈ ["idle", "online", "available"] then .idle
  else if status = "dnd" then .dnd
  else if status = "busy" then .busy
  else if status = "ringing" then .ringing
  else if status ∈ ["wrapup", "wrap-up", "wrap_up"] then .wrapup
  else if status ∈ ["offline", "closed", ""] then .offline
  else if status = "away" then .away ""
  else
    match (Str.stripStart "away:" status).or (Str.stripStart "custom:" status) with
    | some detail => .away detail
    | none => .away status

structure PresenceState where
  status : PresenceStatus := .offline
  note : Option String := none
  reason : Option String := none
  activity : Option String := none
  lastUpdated : Int
  expiresAt : Option Int := none
  offlineReason : Option String := none

def LocatorOfflineReason.asStr : LocatorOfflineReason → String
  | .transportClosed => "offline"
  | .expired => "expired"

def getUser (loc : Location) : Option String :=
  (((loc.registeredAor.bind (·.user)).map Str.trim).filter (· ≠ "")).or
    (loc.aor.user.filter (· ≠ ""))

def presenceHeader (loc : Location) : Option String :=
  loc.headers.bind fun headers => headers.findSome? fun
    | .other name value => if Str.eqIgnoreAsciiCase name "X-CC-Presence" then some value else none
    | _ => none

abbrev PresenceStates := Table String PresenceState

namespace PresenceStates

section

variable (states : PresenceStates)

def getState (now : Int) (extension : String) : PresenceState :=
  (states.lookup extension).getD { lastUpdated := now }

def registerRecoveryStatus (business : Option PresenceState) : PresenceStatus :=
  match business with
  | some state => if state.status ≠ .offline then state.status else .idle
  | none => .idle

/-- A registration brings back any extension that is offline, a refresh only after its connection or
its lifetime has ended, and not if it has no state. -/
def canRecover (isRefresh : Bool) (latest : Option PresenceState) : Bool :=
  match latest with
  | none => !isRefresh
  | some state =>
    state.status = .offline &&
      (!isRefresh || state.offlineReason ∈ [some "expired", some "offline"])

def handleRegistered (now : Int) (business : String → Option PresenceState) (isRefresh : Bool)
    (loc : Location) : PresenceStates :=
  match getUser loc with
  | none => states
  | some user =>
    let current := states.getState now user
    let live := { current with lastUpdated := now, expiresAt := none, offlineReason := none }
    match presenceHeader loc with
    | some status => states.insert user { live with status := .normalize status }
    | none =>
      if current.status = .offline ∧ canRecover isRefresh (states.lookup user) then
        let recovered := business user
        states.insert user { live with
          status := registerRecoveryStatus recovered
          note := (recovered.map (·.note)).getD live.note }
      else states

def setOffline (now : Int) (reason user : String) : PresenceStates :=
  states.insert user { lastUpdated := now, offlineReason := some reason }

def handleUnregistered (now : Int) (loc : Location) : PresenceStates :=
  match getUser loc with
  | none => states
  | some user => states.setOffline now "unregistered" user

def handleOffline (now : Int) (isActive : String → Bool) (reason : LocatorOfflineReason)
    (loc : Location) : PresenceStates :=
  match getUser loc with
  | none => states
  | some user => if isActive user then states else states.setOffline now reason.asStr user

/-! ## Extensions that are not offline -/

def Online (extension : String) : Prop :=
  ∃ state, states.lookup extension = some state ∧ state.status ≠ .offline

end

variable {states : PresenceStates}

theorem Online.getState (h : states.Online extension) (now : Int) :
    (states.getState now extension).status ≠ .offline := by
  obtain ⟨state, hlookup, hstatus⟩ := h
  rw [PresenceStates.getState, hlookup]
  exact hstatus

theorem registerRecoveryStatus_ne_offline : registerRecoveryStatus business ≠ .offline := by
  cases business with
  | none => nofun
  | some state =>
    rw [registerRecoveryStatus]
    split
    next h => exact h
    · nofun

theorem online_insert : Online (states.insert user state) extension ↔
      if extension = user then state.status ≠ .offline else states.Online extension := by
  rw [Online, Table.lookup_insert_eq]
  split
  · constructor
    · rintro ⟨_, ⟨⟩, h⟩
      exact h
    · exact fun h => ⟨state, rfl, h⟩
  · exact Iff.rfl

theorem Online.handleRegistered (h : states.Online extension) (now : Int)
    (business : String → Option PresenceState) (isRefresh : Bool)
    (hheader : presenceHeader loc = none) :
    (states.handleRegistered now business isRefresh loc).Online extension := by
  rw [PresenceStates.handleRegistered]
  split
  · exact h
  next user _ =>
    rw [hheader]
    dsimp only
    split
    · rw [online_insert]
      split
      · exact registerRecoveryStatus_ne_offline
      · exact h
    · exact h

theorem online_of_registered (huser : getUser loc = some user)
    (hheader : presenceHeader loc = none) :
    (states.handleRegistered now business false loc).Online user := by
  rw [PresenceStates.handleRegistered, huser, hheader]
  dsimp only
  split
  · rw [online_insert, if_pos rfl]
    exact registerRecoveryStatus_ne_offline
  next hstay =>
    -- An extension that is offline could have been brought back.
    rw [getState] at hstay
    cases hlookup : states.lookup user with
    | none =>
      rw [hlookup] at hstay
      exact absurd ⟨rfl, rfl⟩ hstay
    | some state =>
      rw [hlookup] at hstay
      refine ⟨state, hlookup, fun hoffline => hstay ⟨hoffline, ?_⟩⟩
      rw [canRecover, hoffline]
      rfl

/-- The end of a registration takes only its own extension offline. -/
theorem Online.handleUnregistered (h : states.Online extension) (now : Int)
    (huser : getUser loc ≠ some extension) :
    (states.handleUnregistered now loc).Online extension := by
  rw [PresenceStates.handleUnregistered]
  split
  · exact h
  next user hloc =>
    have hother : extension ≠ user := by
      rintro rfl
      exact huser hloc
    rw [setOffline, online_insert, if_neg hother]
    exact h

theorem Online.handleOffline (h : states.Online extension) (now : Int)
    (reason : LocatorOfflineReason) (loc : Location)
    (hactive : getUser loc = some extension → isActive extension = true) :
    (states.handleOffline now isActive reason loc).Online extension := by
  rw [PresenceStates.handleOffline]
  split
  · exact h
  next user huser =>
    split
    · exact h
    next hgone =>
      have hother : extension ≠ user := by
        rintro rfl
        exact hgone (hactive huser)
      rw [setOffline, online_insert, if_neg hother]
      exact h

end PresenceStates

end RustPbx.Proxy
