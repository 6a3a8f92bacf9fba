import RustPbx.Rwi.Gateway
import RustPbx.Lib.Machine

/-!
The context of a live call under connects and disconnects, originates, attaches and call ends.

Commands that claim a call let go of it again if they fail. The metadata of the calls of a session
that leaves is removed one call at a time and without the lock of the gateway. None of this asks
whether the call is live (`context_lost`).
-/

namespace RustPbx.Rwi.CallContext

open Gateway Option List SameContext

inductive Claim where
  | originate
  | attach (mode : OwnershipMode)
  deriving DecidableEq

def Claim.mode : Claim → OwnershipMode
  | .originate => .control
  | .attach mode => mode

structure Running where
  sessionId : SessionId
  callId : CallId
  claim : Claim
  deriving DecidableEq

structure State where
  gateway : Gateway := {}
  /-- The live calls, each as often as there are guards that will finish it. -/
  live : List CallId := []
  running : List Running := []
  /-- The calls whose metadata is still to be removed for sessions that left. -/
  leaving : List CallId := []
  /-- The calls that their owners have let go of; this decides nothing. -/
  detached : List CallId := []

inductive Action where
  | connect (sessionId : SessionId) (identity : RwiIdentity)
  | disconnect (sessionId : SessionId)
  /-- The metadata of a call goes after the session that owned it. -/
  | clear (callId : CallId)
  | claim (command : Running)
  | succeeded (command : Running)
  | failed (command : Running)
  | detach (sessionId : SessionId) (callId : CallId)
  | started (callId : CallId) (info : CallMeta)
  /-- The metadata of a call is written; a transfer does so for the call that the client names. -/
  | describe (callId : CallId) (info : CallMeta)
  | setUserData (callId : CallId) (data : String)
  /-- The last guard of a call record is dropped. -/
  | ended (callId : CallId)

def begin (s : State) (callId : CallId) : State :=
  { s with live := callId :: s.live, detached := s.detached.filter (· ≠ callId) }

def step (s : State) : Action → Option State
  | .connect sessionId identity =>
    -- The ids of sessions are fresh.
    if sessionId ∈ s.gateway.sessions then none
    else some { s with gateway := s.gateway.createSession sessionId identity }
  | .disconnect sessionId =>
    let (gateway, calls) := s.gateway.removeSession sessionId
    some { s with gateway, leaving := calls ++ s.leaving }
  | .clear callId =>
    if callId ∈ s.leaving then
      some { s with
        gateway := s.gateway.removeMeta callId
        leaving := s.leaving.erase callId }
    else none
  | .claim command =>
    match s.gateway.claimCallOwnership command.sessionId command.callId command.claim.mode with
    | .ok gateway => some { s with gateway, running := command :: s.running }
    | .error _ => some s
  | .succeeded command =>
    if command ∈ s.running then
      let s := { s with running := s.running.erase command }
      match command.claim with
      | .originate => some (begin s command.callId)
      | .attach _ => some s
    else none
  | .failed command =>
    if command ∈ s.running then
      some { s with
        gateway := s.gateway.releaseCallOwnership command.sessionId command.callId
        running := s.running.erase command }
    else none
  | .detach sessionId callId =>
    let owns := s.gateway.callOwnership.lookup callId = some sessionId
    some { s with
      gateway := s.gateway.releaseCallOwnership sessionId callId
      detached := if owns then callId :: s.detached else s.detached }
  | .started callId info =>
    some (begin { s with gateway := s.gateway.insertMeta callId info } callId)
  | .describe callId info =>
    some { s with gateway := s.gateway.insertMeta callId info }
  | .setUserData callId data =>
    match s.gateway.setUserData callId data with
    | .ok gateway => some { s with gateway }
    | .error _ => some s
  | .ended callId =>
    if callId ∈ s.live then
      some { s with gateway := s.gateway.callFinished callId, live := s.live.erase callId }
    else none

/-- Nobody clears a live call for a session that left, no failed command lets go of it, and no call
begins with its id. -/
def Apart (s : State) : Action → Prop
  | .clear callId => callId ∉ s.live
  | .failed command =>
    command.callId ∈ s.live → s.gateway.callOwnership.lookup command.callId ≠ some command.sessionId
  | .succeeded command =>
    command.claim = .originate → command.callId ∉ s.live ∧ command.callId ∉ s.gateway.userData
  | .started callId _ => callId ∉ s.live ∧ callId ∉ s.gateway.userData
  | _ => True

instance (s : State) (action : Action) : Decidable (Apart s action) :=
  match action with
  | .clear _ => inferInstanceAs (Decidable (_ ∉ _))
  | .failed _ => inferInstanceAs (Decidable (_ → _))
  | .succeeded _ => inferInstanceAs (Decidable (_ → _))
  | .started _ _ => inferInstanceAs (Decidable (_ ∧ _))
  | .connect _ _ | .disconnect _ | .claim _ | .detach _ _ | .describe _ _ | .setUserData _ _
  | .ended _ => .isTrue trivial

/-- What a step does to the contexts and to the live calls. -/
inductive Effect (s s' : State) : Prop where
  | grows (hgrows : s.gateway.Grows s'.gateway) (hlive : s'.live = s.live)
      (hdetached : s'.detached = s.detached)
  | begins (callId : CallId) (hfresh : callId ∉ s.live) (hdata : callId ∉ s.gateway.userData)
      (hgrows : s.gateway.Grows s'.gateway) (hsame : s'.gateway.userData = s.gateway.userData)
      (hlive : s'.live = callId :: s.live)
      (hdetached : s'.detached = s.detached.filter (· ≠ callId))
  | removes (callId : CallId) (hremoves : Removes callId s.gateway s'.gateway)
      (hgone : callId ∈ s'.live → callId ∈ s'.detached) (hlive : s'.live.Sublist s.live)
      (hdetached : s.detached ⊆ s'.detached)

/-- Every live call is live once, and has its metadata if it has user data. -/
structure Kept (s : State) : Prop where
  nodup : s.live.Nodup
  described : ∀ callId ∈ s.live, callId ∉ s.detached → callId ∈ s.gateway.userData →
    callId ∈ s.gateway.metaStore

theorem Effect.kept (heffect : Effect s s') (hkept : Kept s) : Kept s' := by
  cases heffect with
  | grows hgrows hlive hdetached =>
    refine ⟨hlive ▸ hkept.nodup, ?_⟩
    intro callId hmem hdet hdata
    rw [hlive] at hmem
    rw [hdetached] at hdet
    rcases hgrows.described callId hdata with hdata | hmeta
    · exact hgrows.metaStore callId (hkept.described callId hmem hdet hdata)
    · exact hmeta
  | begins begun hfresh hdata hgrows hsame hlive hdetached =>
    refine ⟨hlive ▸ nodup_cons.mpr ⟨hfresh, hkept.nodup⟩, ?_⟩
    intro callId hmem hdet hmemData
    rw [hsame] at hmemData
    -- The call that begins has no user data yet.
    have hne : callId ≠ begun := fun heq => hdata (heq ▸ hmemData)
    rw [hlive] at hmem
    have hmem : callId ∈ s.live := mem_of_ne_of_mem hne hmem
    have hdet : callId ∉ s.detached := by
      intro h
      exact hdet (hdetached ▸ mem_filter.mpr ⟨h, by simpa using hne⟩)
    exact hgrows.metaStore callId (hkept.described callId hmem hdet hmemData)
  | removes removed hremoves hgone hlive hdetached =>
    refine ⟨hkept.nodup.sublist hlive, ?_⟩
    intro callId hmem hdet hdata
    have hne : callId ≠ removed := by
      rintro rfl
      exact hdet (hgone hmem)
    have hmeta := hkept.described callId (hlive.subset hmem) (fun h => hdet (hdetached h))
      (hremoves.only callId hdata)
    rw [hremoves.metaStore]
    exact AList.mem_erase.mpr ⟨hne, hmeta⟩

/-- The context of a call is not removed: neither its metadata, nor its own user data, nor that of
its root session. -/
structure Keeps (callId : CallId) (g g' : Gateway) : Prop where
  metaStore : callId ∈ g.metaStore → callId ∈ g'.metaStore
  userData : callId ∈ g.userData → callId ∈ g'.userData
  inherited : ∀ info root, g.metaStore.lookup callId = some info → info.sessionId = some root →
    root ∈ g.userData → root ∈ g'.userData

theorem Effect.keeps (heffect : Effect s s') (hkept : Kept s) (hlive : callId ∈ s.live)
    (hlive' : callId ∈ s'.live) (hdetached' : callId ∉ s'.detached) :
    Keeps callId s.gateway s'.gateway := by
  cases heffect with
  | grows hgrows | begins begun _ _ hgrows =>
    exact ⟨hgrows.metaStore callId, hgrows.userData callId, fun _ root _ _ => hgrows.userData root⟩
  | removes removed hremoves hgone _ hdetached =>
    have hne : callId ≠ removed := by
      rintro rfl
      exact hdetached' (hgone hlive')
    have hmeta : callId ∈ s.gateway.metaStore → callId ∈ s'.gateway.metaStore := by
      intro h
      rw [hremoves.metaStore]
      exact AList.mem_erase.mpr ⟨hne, h⟩
    refine ⟨hmeta, ?_, ?_⟩
    · intro hdata
      have hown := hkept.described callId hlive (fun h => hdetached' (hdetached h)) hdata
      exact hremoves.kept callId (usesUserData_of_mem (hmeta hown)) hdata
    · intro info root hinfo hroot hdata
      have hinfo' : s'.gateway.metaStore.lookup callId = some info := by
        rw [hremoves.metaStore, AList.lookup_erase_ne hne, hinfo]
      exact hremoves.kept root (usesUserData_of_root hinfo' hroot) hdata

theorem effect_release (hgateway : s'.gateway = s.gateway.releaseCallOwnership sessionId callId)
    (hlive : s'.live = s.live) (hdetached : s.detached ⊆ s'.detached)
    (hother : s.gateway.callOwnership.lookup callId ≠ some sessionId → s'.detached = s.detached)
    (hgone : s.gateway.callOwnership.lookup callId = some sessionId → callId ∈ s'.live →
      callId ∈ s'.detached) : Effect s s' := by
  rcases s.gateway.releaseCallOwnership_cases with
    ⟨howner, hfinished⟩ | ⟨howner, hsame⟩
  · rw [hfinished] at hgateway
    exact .removes callId (hgateway ▸ s.gateway.callFinished_removes) (hgone howner)
      (hlive ▸ .refl _) hdetached
  · exact .grows (hgateway ▸ hsame.grows) hlive (hother howner)

theorem effect_of_step (hkept : Kept s) (hapart : Apart s action)
    (hstep : step s action = some s') : Effect s s' := by
  cases action with
  | connect sessionId identity =>
    rw [step] at hstep
    split at hstep
    · nomatch hstep
    · cases hstep
      exact .grows (grows ⟨rfl, rfl⟩) rfl rfl
  | disconnect sessionId =>
    cases hstep
    exact .grows s.gateway.removeSession_sameContext.grows rfl rfl
  | clear callId =>
    rw [step] at hstep
    split at hstep
    · cases hstep
      exact .removes callId s.gateway.removeMeta_removes (absurd · hapart) (.refl _)
        (List.Subset.refl _)
    · nomatch hstep
  | claim command =>
    rw [step] at hstep
    split at hstep
    · next gateway hclaim =>
      cases hstep
      exact .grows (claimCallOwnership_sameContext hclaim).grows rfl rfl
    · cases hstep
      exact .grows rfl.grows rfl rfl
  | succeeded command =>
    rw [step] at hstep
    split at hstep
    · split at hstep
      · next hclaim =>
        obtain ⟨hfresh, hdata⟩ := hapart hclaim
        cases hstep
        exact .begins command.callId hfresh hdata rfl.grows rfl rfl rfl
      · cases hstep
        exact .grows rfl.grows rfl rfl
    · nomatch hstep
  | failed command =>
    rw [step] at hstep
    split at hstep
    · cases hstep
      exact effect_release rfl rfl (List.Subset.refl _) (fun _ => rfl)
        fun howner hlive => absurd howner (hapart hlive)
    · nomatch hstep
  | detach sessionId callId =>
    cases hstep
    refine effect_release (rfl : _ = s.gateway.releaseCallOwnership sessionId callId) rfl ?_ ?_ ?_
    · split
      · exact subset_cons_self _ _
      · exact List.Subset.refl _
    · exact fun howner => if_neg howner
    · intro howner _
      rw [if_pos howner]
      exact mem_cons_self
  | started callId info =>
    obtain ⟨hfresh, hdata⟩ := hapart
    cases hstep
    exact .begins callId hfresh hdata s.gateway.insertMeta_grows rfl rfl rfl
  | describe callId info =>
    cases hstep
    exact .grows s.gateway.insertMeta_grows rfl rfl
  | setUserData callId data =>
    rw [step] at hstep
    split at hstep
    · next gateway hset =>
      cases hstep
      exact .grows (setUserData_grows hset) rfl rfl
    · cases hstep
      exact .grows rfl.grows rfl rfl
  | ended callId =>
    rw [step] at hstep
    split at hstep
    · cases hstep
      exact .removes callId s.gateway.callFinished_removes
        (fun hlive => absurd hlive hkept.nodup.not_mem_erase) erase_sublist
        (List.Subset.refl _)
    · nomatch hstep

abbrev Runs := Machine.Runs step Apart

theorem Runs.kept (hrun : Runs {} s) : Kept s :=
  hrun.invariant Kept ⟨.nil, nofun⟩ fun _ _ _ hkept hapart hstep =>
    (effect_of_step hkept hapart hstep).kept hkept

/-- **The context of a live call is kept** by every step of every run of such actions. -/
theorem context_kept {s s' : State} {action : Action} (hrun : Runs {} s)
    (hapart : Apart s action) (hstep : step s action = some s') (callId : CallId)
    (hlive : callId ∈ s.live) (hlive' : callId ∈ s'.live) (hdetached : callId ∉ s'.detached) :
    Keeps callId s.gateway s'.gateway :=
  (effect_of_step hrun.kept hapart hstep).keeps hrun.kept hlive hlive' hdetached

def sampleIdentity : RwiIdentity := ⟨"token", []⟩

def sampleOriginate : Running := ⟨"s", "c", .originate⟩

def sampleCalls : List Action :=
  [.connect "s" sampleIdentity, .claim sampleOriginate, .succeeded sampleOriginate,
    .describe "c" {}, .setUserData "c" "data", .started "d" {}]

def sampleState : State :=
  (Machine.steps (Machine.checked step Apart) {} sampleCalls).getD {}

theorem context_kept_other_end :
    ∃ s', Runs {} sampleState ∧ step sampleState (.ended "d") = some s' ∧
      "c" ∈ sampleState.gateway.userData ∧ Keeps "c" sampleState.gateway s'.gateway := by
  have hsteps : Machine.steps (Machine.checked step Apart) {} sampleCalls = some sampleState := rfl
  have hrun : Runs {} sampleState := Machine.Runs.of_checked .refl hsteps
  have hapart : Apart sampleState (.ended "d") := trivial
  refine ⟨_, hrun, rfl, by decide, ?_⟩
  exact context_kept hrun hapart rfl "c" (by decide) (by decide) (by decide)

/-- A step removes the metadata of a call that is live and that nobody has let go of. -/
def Lost (callId : CallId) (s s' : State) : Prop :=
  (callId ∈ s.live ∧ callId ∈ s'.live ∧ callId ∉ s'.detached) ∧
    callId ∈ s.gateway.metaStore ∧ callId ∉ s'.gateway.metaStore

instance (callId : CallId) (s s' : State) : Decidable (Lost callId s s') :=
  inferInstanceAs (Decidable (_ ∧ _))

/-- **A live call loses its context** when its owner disconnects, an originate with its id fails, or
another call with its id ends. -/
theorem context_lost : (∃ s s', Machine.steps step {} (sampleCalls ++ [.disconnect "s"]) = some s ∧
      step s (.clear "c") = some s' ∧ Lost "c" s s') ∧
    (∃ s s', Machine.steps step {} [.started "c" {}, .setUserData "c" "data",
        .connect "s" sampleIdentity, .claim sampleOriginate] = some s ∧
      step s (.failed sampleOriginate) = some s' ∧ Lost "c" s s' ∧
      "c" ∈ s.gateway.userData ∧ "c" ∉ s'.gateway.userData) ∧
    (∃ s s', Machine.steps step {} [.started "c" {}, .setUserData "c" "data",
        .connect "s" sampleIdentity, .claim sampleOriginate, .succeeded sampleOriginate] = some s ∧
      step s (.ended "c") = some s' ∧ Lost "c" s s' ∧
      "c" ∈ s.gateway.userData ∧ "c" ∉ s'.gateway.userData) :=
  ⟨⟨_, _, rfl, rfl, by decide⟩, ⟨_, _, rfl, rfl, by decide⟩, ⟨_, _, rfl, rfl, by decide⟩⟩

end RustPbx.Rwi.CallContext
