import RustPbx.Queue.Loop

/-!
What the methods of the queue application can do, said once.

`Move` lists the elementary changes that a method makes to the state of a callback. Each method
moves the state along `Moves`, however it ends. What no `Move` does, no method does: bridge the
caller, report that the call has left the queue, or turn a waiting call into a connected one. Some
moves need a `Permit`. `Ends` are the moves of a method that may give the call up as the last thing
it does.
-/

namespace RustPbx.Queue

open Sip Call Routing Eff List

def Command.neutral : Command → Bool
  | .legAdd _ _ _ _ | .bridge _ | .legRemove _ _ | .updateQueueMeta _ => false
  | _ => true

def Event.neutral : Event → Bool
  | .queueLeft .connected _ | .queueLeft .abandoned _ | .queueOverflowJoined _ _ => false
  | _ => true

/-- Outputs that say nothing about agent legs, the end of the queueing or a change of groups. -/
def Output.neutral : Output → Bool
  | .command cmd _ => cmd.neutral
  | .rwi _ _ event => event.neutral
  | _ => true

def RegistryCall.reserves : RegistryCall → Bool
  | .updatePresence _ _ | .selectAgent _ _ _ _ | .resolveTarget _
  | .resolveTargetWithPriority _ _ _ | .resolveTargetWithExclusions _ _ _ _
  | .resolveEscalationTargets _ _ _ _ _ => true
  | _ => false

def Request.reserves : Request → Bool
  | .registry call => call.reserves
  | _ => false

/-! ## Moves -/

/-- What only some methods do. -/
inductive Permit where
  | reserve
  | cancel
  /-- Join another group. -/
  | escalate
  /-- Release the agents that were dialled. -/
  | drain
  | consume (leg : String)
  /-- Bridge or cancel a leg that nobody expects to answer. -/
  | stray (leg : String)
  deriving DecidableEq

def Output.adds (leg : String) : Output → Bool
  | .command (.legAdd _ legId _ _) accepted => legId = leg && accepted
  | _ => false

def Output.removes (leg : String) : Output → Bool
  | .command (.legRemove legId _) _ => legId = leg
  | _ => false

/-- Whether a leg was originated, and not removed since. -/
def live (leg : String) (log : List Entry) : Bool :=
  log.foldl (fun alive e => e.output.adds leg || (alive && !e.output.removes leg)) false

@[simp] theorem live_append (log : List Entry) :
    live leg (log ++ [e]) = (e.output.adds leg || (live leg log && !e.output.removes leg)) := by
  simp [live]

def Sys.Live (s : Sys ω) (leg : String) : Prop :=
  live leg s.log = true

/-- A change of the application that leaves alone everything the results are about, and does not
connect the call. -/
structure Frame (a a' : QueueApp) : Prop where
  plan : a'.plan = a.plan
  config : a'.config = a.config
  agentRegistry : a'.agentRegistry = a.agentRegistry
  callId : a'.callId = a.callId
  rwiGateway : a'.rwiGateway = a.rwiGateway
  enqueuedAt : a'.enqueuedAt = a.enqueuedAt
  pending : a'.pendingAgents = a.pendingAgents
  timedOut : a'.timedOutLegs = a.timedOutLegs
  escalated : a'.escalatedGroups = a.escalatedGroups
  currentGroup : a'.currentGroup = a.currentGroup
  stageStartedAt : a'.stageStartedAt = a.stageStartedAt
  abandoned : a'.abandonedRecorded = a.abandonedRecorded
  attempted : a'.attemptedAgents = a.attemptedAgents
  connected : a'.callAlreadyConnected = true → a.callAlreadyConnected = true

/-- What a `Frame` leaves alone. -/
def QueueApp.kept (a : QueueApp) :=
  (a.plan, a.config, a.agentRegistry, a.callId, a.rwiGateway, a.enqueuedAt, a.pendingAgents,
    a.timedOutLegs, a.escalatedGroups, a.currentGroup, a.stageStartedAt, a.abandonedRecorded,
    a.attemptedAgents)

theorem Frame.of (h : a'.kept = a.kept)
    (hconnected : a'.callAlreadyConnected = true → a.callAlreadyConnected = true) :
    Frame a a' := by
  simp only [QueueApp.kept, Prod.mk.injEq] at h
  obtain ⟨h₁, h₂, h₃, h₄, h₅, h₆, h₇, h₈, h₉, h₁₀, h₁₁, h₁₂, h₁₃⟩ := h
  exact ⟨h₁, h₂, h₃, h₄, h₅, h₆, h₇, h₈, h₉, h₁₀, h₁₁, h₁₂, h₁₃, hconnected⟩

theorem Frame.trans (h₁ : Frame a b) (h₂ : Frame b c) : Frame a c where
  plan := h₂.plan.trans h₁.plan
  config := h₂.config.trans h₁.config
  agentRegistry := h₂.agentRegistry.trans h₁.agentRegistry
  callId := h₂.callId.trans h₁.callId
  rwiGateway := h₂.rwiGateway.trans h₁.rwiGateway
  enqueuedAt := h₂.enqueuedAt.trans h₁.enqueuedAt
  pending := h₂.pending.trans h₁.pending
  timedOut := h₂.timedOut.trans h₁.timedOut
  escalated := h₂.escalated.trans h₁.escalated
  currentGroup := h₂.currentGroup.trans h₁.currentGroup
  stageStartedAt := h₂.stageStartedAt.trans h₁.stageStartedAt
  abandoned := h₂.abandoned.trans h₁.abandoned
  attempted := h₂.attempted.trans h₁.attempted
  connected := h₁.connected ∘ h₂.connected

/-- The elementary changes of the state of a callback. -/
inductive Move (env : Env ω) (K : Permit → Prop) : Sys ω → Sys ω → Prop
  | ask {s} (r : Request) (h : r.reserves = true → K .reserve) :
      Move env K s { s with world := (env.answer r s.world).2 }
  | tick {s} (lapse : Nat) : Move env K s { s with clock := s.clock + lapse }
  | issue {s} : Move env K s { s with issued := s.issued + 1 }
  | control {s} (armed recovery deadline) : Move env K s { s with armed, recovery, deadline }
  | record {s} {output : Output} (h : output.neutral = true) : Move env K s (s.record output)
  | legAdd {s} (target leg headers recovery accepted) :
      Move env K s (s.record (.command (.legAdd target leg headers recovery) accepted))
  | legRemove {s} {leg : String} (reason accepted) (hk : K .cancel)
      (h : leg ∉ s.app.pendingAgents.map (·.2)) :
      Move env K s (s.record (.command (.legRemove leg reason) accepted))
  | announce {s} (group accepted) (h : K .escalate) :
      Move env K s (s.record (.command (.updateQueueMeta group) accepted))
  | join {s} (callId queueId group priority) (h : K .escalate) :
      Move env K s (s.record (.rwi callId queueId (.queueOverflowJoined group priority)))
  | frame {s} {app : QueueApp} (h : Frame s.app app) : Move env K s { s with app }
  | pending {s} {agents : List (String × String)}
      (h : ∀ agent ∈ agents, agent ∈ s.app.pendingAgents ∨ s.Live agent.2) :
      Move env K s { s with app := { s.app with pendingAgents := agents } }
  /-- All agents being dialled are forgotten, and their legs remembered as cancelled. -/
  | expire {s} :
      Move env K s { s with app := { s.app with
        pendingAgents := []
        timedOutLegs := s.app.timedOutLegs.union (s.app.pendingAgents.map (·.2)) } }
  | escalate {s} (escalatedGroups currentGroup stageStartedAt) (h : K .escalate) :
      Move env K s { s with app := { s.app with escalatedGroups, currentGroup, stageStartedAt } }
  | attempted {s} {agentIds : List String} (h : s.app.attemptedAgents ⊆ agentIds) :
      Move env K s { s with app := { s.app with attemptedAgents := agentIds } }
  | drain {s} (h : K .drain) :
      Move env K s { s with app := { s.app with attemptedAgents := [] } }
  | consume {s} {leg : String} (h : K (.consume leg)) :
      Move env K s { s with app := s.app.forgetTimedOut leg }

/-- The changes that a method makes, one after the other. -/
def Moves (env : Env ω) (K : Permit → Prop) : Sys ω → Sys ω → Prop :=
  Relation.ReflTransGen (Move env K)

section

variable {s : Sys ω}

instance : Std.Refl (Moves env K) := ⟨fun _ => .refl⟩

instance : IsTrans (Sys ω) (Moves env K) := ⟨fun _ _ _ => .trans⟩

theorem Move.moves (h : Move env K s s') : Moves env K s s' := .single h

theorem Move.mono (hK : ∀ permit, K permit → K' permit)
    (h : Move env K s s') : Move env K' s s' := by
  cases h with
  | ask r h => exact .ask r fun hr => hK _ (h hr)
  | tick lapse => exact .tick lapse
  | issue => exact .issue
  | control armed recovery deadline => exact .control armed recovery deadline
  | record h => exact .record h
  | legAdd target leg headers recovery accepted =>
    exact .legAdd target leg headers recovery accepted
  | legRemove reason accepted hk h => exact .legRemove reason accepted (hK _ hk) h
  | announce group accepted h => exact .announce group accepted (hK _ h)
  | join callId queueId group priority h => exact .join callId queueId group priority (hK _ h)
  | frame h => exact .frame h
  | pending h => exact .pending h
  | expire => exact .expire
  | escalate groups group start h => exact .escalate groups group start (hK _ h)
  | attempted h => exact .attempted h
  | drain h => exact .drain (hK _ h)
  | consume h => exact .consume (hK _ h)

theorem Moves.keeps {I : Sys ω → Prop} (step : ∀ {s s'}, Move env K s s' → I s → I s')
    (h : Moves env K s s') (hs : I s) : I s' := by
  induction h with
  | refl => exact hs
  | tail _ hstep ih => exact step hstep ih

variable {output : Output}

theorem Sys.Live.record (h : s.Live leg) (hr : output.removes leg = false) :
    (s.record output).Live leg := by
  simp only [Sys.Live] at h
  simp [Sys.Live, Sys.record, h, hr]

theorem removes_of_neutral (h : output.neutral = true) :
    output.removes leg = false := by
  cases output with
  | command cmd _ => cases cmd <;> first | rfl | cases h
  | _ => rfl

theorem Sys.Live.mono (hl : s.Live leg) (hk : ¬K .cancel) (h : Moves env K s s') : s'.Live leg := by
  refine h.keeps (I := fun s => s.Live leg) (fun hstep hlive => ?_) hl
  cases hstep with
  | record hn => exact hlive.record (removes_of_neutral hn)
  | legAdd | announce | join => exact hlive.record rfl
  | legRemove _ _ hcancel => exact absurd hcancel hk
  | _ => exact hlive

/-! ## Primitives -/

theorem modifyApp_moves (h : ∀ app, Frame app (f app)) : Within (Moves env K) (modifyApp f) :=
  .modify fun _ => (Move.frame (h _)).moves

theorem getApp_moves : Within (Moves env K) getApp :=
  .bind .get fun _ => .pure _

theorem onApp_moves (h : ∀ app, Within (Moves env K) (f app)) :
    Within (Moves env K) (getApp >>= f) :=
  .bind getApp_moves h

theorem now_moves : Within (Moves env K) now :=
  .bind .get fun _ => .pure _

theorem record_moves (h : output.neutral = true) : Within (Moves env K) (record output) :=
  .modify fun _ => (Move.record h).moves

theorem ask_moves (h : r.reserves = true → K .reserve) : Within (Moves env K) (ask env r) :=
  .modifyGet fun _ => (Move.ask r h).moves

theorem tick_moves : Within (Moves env K) (tick lapse) :=
  .modify fun _ => (Move.tick lapse).moves

theorem pause_moves : Within (Moves env K) (pause env) := by
  refine .bind (ask_moves nofun) fun a => .seq tick_moves <| .bind .get fun s => ?_
  split
  · exact .fail _
  · split
    · exact .fail _
    · exact .pure _

theorem await_moves (h : r.reserves = true → K .reserve) : Within (Moves env K) (await env r) :=
  .seq pause_moves <| .bind (ask_moves h) fun _ => .seq pause_moves <| .pure _

theorem call_moves (h : c.reserves = false) : Within (Moves env K) (call env c) :=
  await_moves fun hr => absurd (h.symm.trans hr) Bool.false_ne_true

theorem call_reserve_moves (h : K .reserve) : Within (Moves env K) (call env c) :=
  await_moves fun _ => h

theorem newUuid_moves : Within (Moves env K) (newUuid env) :=
  .modifyGet fun _ => Move.issue.moves

theorem trySend_moves (h : cmd.neutral = true) : Within (Moves env K) (trySend env cmd) :=
  .bind (ask_moves nofun) fun _ => .seq (record_moves h) <| .pure _

theorem send_moves (h : cmd.neutral = true) : Within (Moves env K) (send env cmd) :=
  .bind (trySend_moves h) fun _ => .ofExcept _

theorem fire_moves (h : cmd.neutral = true) : Within (Moves env K) (fire env cmd) :=
  .seq (trySend_moves h) <| .pure _

theorem setTimeout_moves (id : Timer) : Within (Moves env K) (setTimeout id delay) :=
  .seq (record_moves rfl) <| .modify fun _ => (Move.control _ _ _).moves

theorem cancelTimeout_moves (id : Timer) : Within (Moves env K) (cancelTimeout id) :=
  .seq (record_moves rfl) <| .modify fun _ => (Move.control _ _ _).moves

theorem emitRwi_moves (h : event.neutral = true) : Within (Moves env K) (emitRwi event) := by
  refine onApp_moves fun app => ?_
  split
  · exact record_moves h
  · exact .pure _

theorem answerCall_moves : Within (Moves env K) (answerCall env) :=
  send_moves rfl

theorem playAudio_moves :
    Within (Moves env K) (playAudio env clip file loopPlayback interruptible sideOnly) :=
  .bind newUuid_moves fun _ => .seq (send_moves rfl) <| .pure _

theorem requestExpired_moves : Within (Moves env K) (requestExpired env request) :=
  .bind now_moves fun _ => .bind (ask_moves nofun) fun _ => .pure _

theorem recoveryDial_moves : Within (Moves env K) (recoveryDial env request) := by
  cases request with
  | none => exact .pure _
  | some request =>
    refine .bind requestExpired_moves fun expired => ?_
    split
    · exact .fail _
    · cases request.expectedAppExecutionId with
      | none => exact .fail _
      | some id => exact .pure _

variable (agentId target uri : String)

theorem send_legAdd_moves :
    Within (Moves env K) (send env (.legAdd target leg headers recovery)) := by
  refine .bind (.bind (ask_moves nofun) fun reply => .bind ?_ fun _ => .pure _) fun _ => .ofExcept _
  exact .modify fun _ => (Move.legAdd target leg headers recovery _).moves

theorem originateCall_moves : Within (Moves env K) (originateCall env target headers) :=
  .bind newUuid_moves fun _ => .bind .get fun _ => .bind recoveryDial_moves fun _ =>
    .seq (send_legAdd_moves _) <| .pure _

theorem isOfflineLocalUser_moves : Within (Moves env K) (isOfflineLocalUser env target) := by
  refine .bind (trySend_moves rfl) fun reply => ?_
  cases reply with
  | error _ => exact .pure _
  | ok _ => exact await_moves nofun

theorem notifyEvent_moves : Within (Moves env K) (notifyEvent env notice) :=
  send_moves rfl

theorem removeLegs_moves (hk : K .cancel)
    (h : ∀ leg ∈ legs, leg ∉ s.app.pendingAgents.map (·.2)) :
    Moves env K s ((removeLegs env legs reason).run s).2 := by
  induction legs generalizing s with
  | nil => exact .refl
  | cons leg legs ih =>
    have hleg := h leg (by simp)
    refine Within.bindAt ?_ fun _ s' hs' => ih fun leg' hleg' => ?_
    · refine .tail (.single (.ask (.send (.legRemove leg reason)) nofun)) ?_
      exact .legRemove reason _ hk hleg
    · obtain ⟨-, rfl⟩ := Prod.mk.inj hs'
      exact h leg' (by simp [hleg'])

/-! ## Methods -/

theorem notifyRegistry_moves
    (h : ∀ app, (event app).reserves = false) : Within (Moves env K) (notifyRegistry env event) :=
  onApp_moves fun app => .when (.seq (call_moves (h app)) <| .pure _)

theorem callIfAttached_moves (h : ∀ app, (event app).reserves = true → K .reserve) :
    Within (Moves env K) (callIfAttached env event) :=
  onApp_moves fun app => .when (.seq (await_moves (h app)) <| .pure _)

theorem notifyConnected_moves : Within (Moves env K) (notifyConnected env agentId legId) :=
  .bind now_moves fun _ => notifyRegistry_moves fun _ => rfl

theorem agentIdForUri_moves : Within (Moves env K) (agentIdForUri env uri) := by
  refine onApp_moves fun app => ?_
  split
  · exact .bind (call_moves rfl) fun _ => .pure _
  · exact .pure _

theorem resolveAgentDisplayName_moves : Within (Moves env K) (resolveAgentDisplayName env uri) := by
  refine onApp_moves fun app => ?_
  split
  · exact .bind (call_moves rfl) fun _ => .pure _
  · exact .pure _

theorem pinAgentForDial_moves : Within (Moves env K) (pinAgentForDial env agentId uri) :=
  .when <| .bind (resolveAgentDisplayName_moves uri) fun _ => .seq (fire_moves rfl) <|
    onApp_moves fun _ => fire_moves rfl

theorem releasePhantomAgents_moves (hd : K .drain) :
    Within (Moves env K) (releasePhantomAgents env exclude) := by
  refine onApp_moves fun app => .seq (.modify fun s => (Move.drain hd).moves) ?_
  exact .when <| .each fun _ _ => .when <| .seq (call_moves rfl) <| .pure _

theorem agentAvailability_moves : Within (Moves env K) (agentAvailability env uri ownCallId) := by
  refine .bind (call_moves rfl) fun agents => ?_
  split
  · exact .pure _
  · exact .bind (call_moves rfl) fun _ => .pure _

theorem registryAvailability_moves : Within (Moves env K) (registryAvailability env uri) := by
  refine onApp_moves fun app => ?_
  split
  · exact agentAvailability_moves uri
  · exact .pure _

theorem isUnavailable_moves : Within (Moves env K) (isUnavailable env uri) := by
  refine .bind (registryAvailability_moves uri) fun availability => ?_
  cases availability with
  | some _ => exact .pure _
  | none => exact isOfflineLocalUser_moves uri

theorem enrichLocations_moves : Within (Moves env K) (enrichLocations env locations) := by
  refine onApp_moves fun app => ?_
  split
  · exact await_moves nofun
  · exact .pure _

theorem enrichedLegHeadersFor_moves : Within (Moves env K) (enrichedLegHeadersFor env uri) := by
  refine onApp_moves fun app => ?_
  split
  · exact .pure _
  · exact .bind enrichLocations_moves fun _ => .pure _

theorem clientRingOffer_moves : Within (Moves env K) (clientRingOffer env uri) := by
  refine onApp_moves fun app => ?_
  split
  · exact .pure _
  · exact .bind (call_moves rfl) fun _ => .pure _

theorem currentRingPolicy_moves : Within (Moves env K) (currentRingPolicy env) := by
  refine onApp_moves fun app => ?_
  split
  · exact ask_moves nofun
  · exact .pure _

theorem refreshRingPolicy_moves : Within (Moves env K) (refreshRingPolicy env) :=
  onApp_moves fun _ => .when <| .bind currentRingPolicy_moves fun _ =>
    modifyApp_moves fun _ => .of rfl id

theorem legHeadersFor_moves : Within (Moves env K) (legHeadersFor env uri) :=
  .seq refreshRingPolicy_moves <| .bind (enrichedLegHeadersFor_moves uri) fun _ =>
    .bind (clientRingOffer_moves uri) fun _ => .pure _

theorem armMaxWaitTimeout_moves : Within (Moves env K) armMaxWaitTimeout :=
  onApp_moves fun _ => .when <| .seq (modifyApp_moves fun _ => .of rfl id) <|
    setTimeout_moves _

theorem armQueueRetry_moves : Within (Moves env K) armQueueRetry :=
  onApp_moves fun _ => setTimeout_moves _

theorem deskRingTimeout_moves : Within (Moves env K) (deskRingTimeout env) := by
  refine onApp_moves fun app => ?_
  split
  · exact ask_moves nofun
  · exact .pure _

theorem armRingTimeout_moves : Within (Moves env K) (armRingTimeout env) :=
  .bind deskRingTimeout_moves fun _ => onApp_moves fun _ => setTimeout_moves _

theorem armEscalationCheck_moves : Within (Moves env K) armEscalationCheck := by
  refine onApp_moves fun app => .bind now_moves fun t => ?_
  cases app.nextEscalationCheckDelay t with
  | some delay => exact setTimeout_moves _
  | none => exact .pure _

theorem ensureAnswered_moves : Within (Moves env K) (ensureAnswered env) :=
  onApp_moves fun _ => .when <| .seq answerCall_moves <|
    modifyApp_moves fun _ => .of rfl id

theorem answerIfBusyPrompt_moves : Within (Moves env K) (answerIfBusyPrompt env) :=
  onApp_moves fun _ => .when ensureAnswered_moves

theorem startHoldMusic_moves : Within (Moves env K) (startHoldMusic env) := by
  refine onApp_moves fun app => ?_
  split
  · exact .bind playAudio_moves fun _ => modifyApp_moves fun _ => .of rfl id
  · exact .pure _

theorem startAgentRingback_moves : Within (Moves env K) (startAgentRingback env) :=
  .seq (modifyApp_moves fun _ => .of rfl nofun) <| .bind playAudio_moves fun _ =>
    modifyApp_moves fun _ => .of rfl id

theorem announcePosition_moves : Within (Moves env K) (announcePosition env) := by
  refine onApp_moves fun app => ?_
  split
  · exact .seq playAudio_moves <| .pure _
  · exact .pure _

theorem maybePlayComfortOrEwt_moves : Within (Moves env K) (maybePlayComfortOrEwt env) := by
  refine onApp_moves fun app => .bind now_moves fun t => ?_
  split
  · exact .pure _
  · exact .seq (modifyApp_moves fun _ => .of rfl nofun) <|
      .bind playAudio_moves fun _ => modifyApp_moves fun _ => .of rfl id

theorem maybeStartTransferPrompt_moves : Within (Moves env K) (maybeStartTransferPrompt env) := by
  refine onApp_moves fun app => ?_
  split
  · exact .pure _
  · exact .seq (modifyApp_moves fun _ => .of rfl id) <|
      .bind playAudio_moves fun _ => modifyApp_moves fun _ => .of rfl nofun

theorem expirePending_moves : Within (Moves env K) expirePending :=
  .modifyGet fun _ => Move.expire.moves

theorem executeFallback_moves (hk : K .cancel) : Within (Moves env K) (executeFallback env) := by
  refine .seq (modifyApp_moves fun _ => .of rfl nofun) <| .bindRun expirePending_moves ?_
  intro s ringing s' hexpire
  obtain ⟨rfl, rfl⟩ : s.app.pendingAgents = ringing ∧ _ = s' := by
    simpa [expirePending] using hexpire
  refine Within.bindAt ?_ fun _ s'' _ => ?_
  · -- nobody is being dialled any more when the legs are cancelled
    cases hp : s.app.pendingAgents with
    | nil => exact .refl
    | cons agent agents =>
      refine Within.bindAt (cancelTimeout_moves _ _) fun _ s'' hs'' => removeLegs_moves hk ?_
      obtain ⟨-, rfl⟩ := Prod.mk.inj hs''
      exact fun leg _ => not_mem_nil
  · refine Within.bind getApp_moves (fun app => .bind now_moves fun t => ?_) s''
    refine .seq (fire_moves rfl) <| .seq (notifyRegistry_moves fun _ => rfl) ?_
    exact .seq (emitRwi_moves rfl) <| .pure _

theorem attempt_moves (h : Within (Moves env K) x) : Within (Moves env K) (Queue.attempt x) :=
  .attempt h

theorem playFinalDestinationPromptOrFallback_moves (hk : K .cancel) :
    Within (Moves env K) (playFinalDestinationPromptOrFallback env) := by
  refine onApp_moves fun app => ?_
  split
  · exact executeFallback_moves hk
  · refine .bind (attempt_moves playAudio_moves) fun played => ?_
    cases played with
    | error _ => exact executeFallback_moves hk
    | ok token => exact .seq (modifyApp_moves fun _ => .of rfl nofun) <| .pure _

theorem enterWaitingForAgent_moves : Within (Moves env K) (enterWaitingForAgent env) := by
  refine onApp_moves fun app => ?_
  split
  · exact .seq (callIfAttached_moves fun _ => nofun) <| .seq armQueueRetry_moves <|
      .pure _
  · refine .seq (.when (callIfAttached_moves fun _ => nofun)) ?_
    refine .seq ensureAnswered_moves <| .seq (callIfAttached_moves fun _ => nofun) ?_
    refine .seq (callIfAttached_moves fun _ => nofun) ?_
    refine .seq (modifyApp_moves fun _ => .of rfl nofun) ?_
    refine .seq startHoldMusic_moves ?_
    refine .seq (.when announcePosition_moves) <| .seq maybePlayComfortOrEwt_moves ?_
    exact .seq armMaxWaitTimeout_moves <| .seq armQueueRetry_moves <|
      .seq armEscalationCheck_moves <| .pure _

/-- The moves of a method that may end by giving the call up. -/
def Ends (env : Env ω) (K : Permit → Prop) (s s' : Sys ω) : Prop :=
  Moves env K s s' ∨ ∃ t reason, Moves env K s t ∧
    s' = ((playUnavailablePromptAndThenFallback env reason).run t).2

namespace Ends

variable {f : α → Eff (Sys ω) Exn β}

theorem after_moves (h : Moves env K s t) (hend : Ends env K t s') : Ends env K s s' := by
  rcases hend with hm | ⟨u, reason, hm, rfl⟩
  · exact .inl (h.trans hm)
  · exact .inr ⟨u, reason, h.trans hm, rfl⟩

theorem of_moves (h : Within (Moves env K) x) : Within (Ends env K) x :=
  fun s => .inl (h s)

theorem giveUp : Within (Ends env K) (playUnavailablePromptAndThenFallback env reason) :=
  fun s => .inr ⟨s, reason, .refl, rfl⟩

theorem bindAt (hx : Moves env K s (x.run s).2)
    (hf : ∀ a s', x.run s = (.ok a, s') → Ends env K s' ((f a).run s').2) :
    Ends env K s ((x >>= f).run s).2 := by
  refine bind_cases (.inl hx) fun a s' hxs => ?_
  rw [hxs] at hx
  exact after_moves hx (hf a s' hxs)

theorem bindRun (hx : Within (Moves env K) x)
    (hf : ∀ s a s', x.run s = (.ok a, s') → Ends env K s' ((f a).run s').2) :
    Within (Ends env K) (x >>= f) :=
  fun s => bindAt (hx s) (hf s)

theorem bind (hx : Within (Moves env K) x) (hf : ∀ a, Within (Ends env K) (f a)) :
    Within (Ends env K) (x >>= f) :=
  bindRun hx fun _ a s' _ => hf a s'

theorem seq {y : Eff (Sys ω) Exn β} (hx : Within (Moves env K) x) (hy : Within (Ends env K) y) :
    Within (Ends env K) (x >>= fun _ => y) :=
  bind hx fun _ => hy

theorem pure (a : α) : Within (Ends env K) (Pure.pure a : Eff (Sys ω) Exn α) :=
  of_moves (.pure a)

end Ends

/-! ## Dialling -/

theorem pushPending_moves {uri : String} (h : s.Live leg) :
    Moves env K s ((modifyApp (·.pushPending uri leg)).run s).2 := by
  refine Move.moves (.pending fun agent hagent => ?_)
  rcases mem_append.mp hagent with hold | hnew
  · exact .inl hold
  · rw [mem_singleton.mp hnew]
    exact .inr h

theorem forgetPending_moves (hp : ∀ app, (f app).pendingAgents ⊆ app.pendingAgents)
    (hf : ∀ app, Frame { app with pendingAgents := (f app).pendingAgents } (f app)) :
    Within (Moves env K) (modifyApp f) :=
  fun _ => .tail (.single (.pending fun _ hagent => .inl (hp _ hagent))) (.frame (hf _))

theorem recordAttempted_moves :
    Within (Moves env K) (modifyApp (·.recordAttemptedAgent agentId)) := by
  intro s
  have hrecord : s.app.recordAttemptedAgent agentId =
      { s.app with attemptedAgents := (s.app.recordAttemptedAgent agentId).attemptedAgents } := by
    unfold QueueApp.recordAttemptedAgent
    split <;> rfl
  have hsub : s.app.attemptedAgents ⊆ (s.app.recordAttemptedAgent agentId).attemptedAgents := by
    unfold QueueApp.recordAttemptedAgent
    split
    · exact fun _ h => h
    · exact subset_append_left _ _
  have hmove : Moves env K s { s with app := { s.app with attemptedAgents := _ } } :=
    (Move.attempted hsub).moves
  rwa [← hrecord] at hmove

theorem live_of_originateCall {target : String}
    (h : (originateCall env target headers).run s = (.ok leg, s')) : s'.Live leg := by
  obtain ⟨legId, s₁, hleg, h⟩ := bind_ok h
  obtain ⟨t, s₂, -, h⟩ := bind_ok h
  obtain ⟨recovery, s₃, -, h⟩ := bind_ok h
  obtain ⟨u, s₄, hsend, hret⟩ := bind_ok h
  obtain ⟨rfl, rfl⟩ : legId = leg ∧ s₄ = s' := by simpa using hret
  obtain ⟨reply, s₅, htry, hok⟩ := bind_ok hsend
  obtain ⟨r, s₆, hask, h⟩ := bind_ok htry
  obtain ⟨u', s₇, hrecord, hret⟩ := bind_ok h
  obtain ⟨rfl, rfl⟩ : r = reply ∧ s₇ = s₅ := by simpa using hret
  obtain ⟨-, rfl⟩ := Prod.mk.inj hrecord
  cases r with
  | error e => simp [Except.mapError] at hok
  | ok u =>
    obtain ⟨-, rfl⟩ := Prod.mk.inj hok
    simp [Sys.Live, Sys.record, Output.adds, Except.toBool]

theorem offerTo_moves : Within (Moves env K) (offerTo env uri) := by
  refine .seq (callIfAttached_moves fun _ => nofun) <| .bind (legHeadersFor_moves uri) ?_
  intro headers
  refine .bind (agentIdForUri_moves uri) fun agentId => .bind (recordAttempted_moves agentId) ?_
  intro _
  refine onApp_moves fun app => .bind
    (.when (forgetPending_moves (fun _ => nil_subset _) fun _ => .of rfl id)) ?_
  intro _
  refine .seq (pinAgentForDial_moves agentId uri) ?_
  exact .bind (attempt_moves (originateCall_moves uri)) fun _ => .pure _

theorem live_of_offerTo {uri agentId : String}
    (h : (offerTo env uri).run s = (.ok (agentId, .ok leg), s')) : s'.Live leg := by
  iterate 7 obtain ⟨_, _, -, h⟩ := bind_ok h
  obtain ⟨dialled, t, hdial, hret⟩ := bind_ok h
  obtain ⟨⟨-, rfl⟩, rfl⟩ : (_ = agentId ∧ dialled = .ok leg) ∧ t = s' := by simpa using hret
  exact live_of_originateCall (attempt_ok hdial)

theorem noMoreAgents_ends : Within (Ends env K) (noMoreAgents env) := by
  refine Ends.bind getApp_moves fun app => ?_
  split
  · exact Ends.pure _
  split
  · apply Ends.of_moves
    refine .seq (forgetPending_moves (fun _ => nil_subset _) fun _ => .of rfl id) ?_
    exact .seq (cancelTimeout_moves _) <| enterWaitingForAgent_moves
  · exact Ends.giveUp

theorem nextAgent_moves : Within (Moves env K) (modifyApp (·.nextAgent)) :=
  modifyApp_moves fun _ => .of rfl id

theorem releaseUndialled_moves : Within (Moves env K) (releaseUndialled env agentId) := by
  refine callIfAttached_moves fun app h => ?_
  split at h <;> exact absurd h Bool.false_ne_true

theorem dialRound_ends : Within (Ends env K) (dialRound env locations) := by
  induction locations with
  | nil => exact noMoreAgents_ends
  | cons location rest ih =>
    refine Ends.bind (isUnavailable_moves _) fun unavailable => ?_
    split
    · exact Ends.seq nextAgent_moves <| ih
    · refine Ends.bindRun (offerTo_moves _) ?_
      rintro s ⟨agentId, dialled⟩ s' hoffer
      cases dialled with
      | ok leg =>
        refine Ends.bindAt (pushPending_moves (live_of_offerTo hoffer)) fun _ t _ => ?_
        refine Ends.of_moves (.seq armRingTimeout_moves ?_) t
        exact .seq (modifyApp_moves fun _ => .of rfl nofun) <|
          .seq maybeStartTransferPrompt_moves <| .pure _
      | error _ =>
        refine Ends.bind (releaseUndialled_moves agentId) (fun _ => ?_) s'
        refine Ends.seq nextAgent_moves ?_
        cases rest with
        | nil => exact Ends.giveUp
        | cons _ _ => exact ih

theorem dialNextAgent_ends : Within (Ends env K) (dialNextAgent env) := by
  refine Ends.bind getApp_moves fun app => ?_
  split
  · exact Ends.pure _
  · exact dialRound_ends

end

end RustPbx.Queue
