import RustPbx.Queue.Moves

/-!
What the callbacks of the queue application can do.

Every callback but the one that bridges the caller to an agent turns the state along `Turns`: it
moves, may give the call up, and moves on. `dispatch_turns` says so for all inputs at once and
names the permits that each of them needs.
-/

namespace RustPbx.Queue

open Sip Call Routing Eff Ends Within Move List QueueApp Input

section

theorem freshCandidates_moves (hr : K .reserve) :
    Within (Moves env K) (freshCandidates env target) :=
  onApp_moves fun _ => call_reserve_moves hr

theorem rotateCandidates_moves (hr : K .reserve) :
    Within (Moves env K) (rotateCandidates env target fresh) := by
  refine onApp_moves fun app => ?_
  split
  · exact .bind (call_reserve_moves hr) fun _ => .bind (.when (modifyApp_moves fun _ => .of rfl id))
      fun _ => .pure _
  · exact .pure _

theorem healCandidates_moves (hr : K .reserve) :
    Within (Moves env K) (healCandidates env target uris) := by
  refine onApp_moves fun app => ?_
  split
  · refine .bind (call_moves rfl) fun released => ?_
    split
    · exact freshCandidates_moves hr
    · exact .pure _
  · exact .pure _

theorem pollCandidates_moves (hr : K .reserve) :
    Within (Moves env K) (pollCandidates env group) :=
  .bind (freshCandidates_moves hr) fun _ => .bind (rotateCandidates_moves hr) fun _ =>
    healCandidates_moves hr

theorem tryOfferFromWait_ends (hr : K .reserve) : Within (Ends env K) (tryOfferFromWait env) := by
  refine bind getApp_moves fun app => ?_
  split
  · exact pure _
  split
  · exact of_moves <| .seq armQueueRetry_moves <| .pure _
  · refine bind (pollCandidates_moves hr) fun uris => ?_
    split
    · exact of_moves <| .seq armQueueRetry_moves <| .pure _
    · refine seq (cancelTimeout_moves _) ?_
      refine bind enrichLocations_moves fun locations => ?_
      refine seq (modifyApp_moves fun _ => .of rfl id) ?_
      exact seq (.when startHoldMusic_moves) <| dialNextAgent_ends

/-! ## Escalation -/

theorem dialOne_moves : Within (Moves env K) (dialOne env uri) := by
  refine .bind (agentIdForUri_moves uri) fun agentId => .seq (recordAttempted_moves agentId) ?_
  refine .seq (pinAgentForDial_moves agentId uri) ?_
  refine .bind (legHeadersFor_moves uri) fun headers => ?_
  refine .bindRun (attempt_moves (originateCall_moves uri)) ?_
  intro s dialled s' hdial
  cases dialled with
  | ok leg =>
    have hlive := live_of_originateCall (attempt_ok hdial)
    exact bindAt (pushPending_moves hlive) fun _ t _ => .refl
  | error _ => exact .refl

theorem dialAgents_moves : Within (Moves env K) (dialAgents env uris) :=
  .bind (.filterMap fun _ _ => dialOne_moves) fun _ => .when armRingTimeout_moves

theorem removeLegs_run (env : Env ω) (legs : List String) (reason : String) (s : Sys ω) :
    ∃ world log, ∀ app,
      (removeLegs env legs reason).run { s with app } = (.ok (), { s with app, world, log }) := by
  induction legs generalizing s with
  | nil => exact ⟨s.world, s.log, fun _ => rfl⟩
  | cons leg legs ih =>
    obtain ⟨world, log, happ⟩ := ih ((fire env (.legRemove leg reason)).run s).2
    exact ⟨world, log, happ⟩

/-- Cancelling legs and then forgetting all agents that are being dialled comes to the same as
forgetting them first. -/
theorem dropLegs_moves (hk : K .cancel) : ∃ t, (removeLegs env legs reason).run s = (.ok (), t) ∧
      Moves env K s { t with app := { t.app with pendingAgents := [] } } := by
  obtain ⟨world, log, happ⟩ := removeLegs_run env legs reason s
  refine ⟨_, happ s.app, ?_⟩
  have hforget : Moves env K s { s with app := { s.app with pendingAgents := [] } } :=
    moves (.pending nofun)
  have hremove : Moves env K { s with app := { s.app with pendingAgents := [] } }
      ((removeLegs env legs reason).run { s with app := { s.app with pendingAgents := [] } }).2 :=
    removeLegs_moves hk fun leg _ => not_mem_nil
  rw [happ] at hremove
  exact hforget.trans hremove

theorem cancelPendingLegs_moves (hk : K .cancel) :
    Within (Moves env K) (cancelPendingLegs env) := by
  intro s
  obtain ⟨t, hrun, hmoves⟩ :=
    dropLegs_moves hk
  rw [cancelPendingLegs, getApp, run_bind, run_bind, run_get, andThen_ok, run_pure, andThen_ok,
    run_bind, hrun, andThen_ok, run_bind, modifyApp, run_modify, andThen_ok]
  refine hmoves.trans (bind (.when <| .bind ?_ fun _ => ?_) (fun _ => ?_) _)
  · exact modifyApp_moves fun _ => .of rfl id
  · exact .seq (attempt_moves startHoldMusic_moves) <| .pure _
  · exact .seq (cancelTimeout_moves _) <| modifyApp_moves fun _ => .of rfl id

theorem leaveGroup_moves : Within (Moves env K) (leaveGroup env step) :=
  onApp_moves fun _ => .when <| .seq (emitRwi_moves rfl) <|
    notifyRegistry_moves fun _ => rfl

theorem resolveStep_moves (hr : K .reserve) :
    Within (Moves env K) (resolveStep env step) := by
  refine onApp_moves fun app => ?_
  cases app.config.skillGroup <;> exact call_reserve_moves hr

theorem escalationTargets_moves (hr : K .reserve) :
    Within (Moves env K) (escalationTargets env step) :=
  .bind (resolveStep_moves hr) fun _ => onApp_moves fun _ => .pure _

theorem dialStep_moves (hr : K .reserve) (hk : K .cancel) (he : K .escalate) :
    Within (Moves env K) (dialStep env step) := by
  refine .bind (escalationTargets_moves hr) fun uris => onApp_moves fun app => ?_
  cases app.config.escalationMode with
  | cumulative => exact dialAgents_moves
  | replace => exact .seq (cancelPendingLegs_moves hk) <| dialAgents_moves
  | sequential =>
    refine .seq (cancelPendingLegs_moves hk) <| .seq dialAgents_moves ?_
    exact .bind now_moves fun t => .modify fun s => (escalate _ _ _ he).moves

theorem announce_moves (he : K .escalate) :
    Within (Moves env K) (fire env (.updateQueueMeta group)) := by
  refine .seq (.bind (ask_moves nofun) fun reply => .bind ?_ fun _ => .pure _) <| .pure _
  exact .modify fun s => (announce group _ he).moves

theorem emitJoined_moves (he : K .escalate) :
    Within (Moves env K) (emitRwi (.queueOverflowJoined group priority)) := by
  refine onApp_moves fun app => ?_
  split
  · exact .modify fun s => (join _ _ group priority he).moves
  · exact .pure _

theorem triggerStep_moves (hr : K .reserve) (hk : K .cancel) (he : K .escalate) :
    Within (Moves env K) (triggerStep env step) := by
  refine .seq leaveGroup_moves <| .seq (announce_moves he) ?_
  refine onApp_moves fun app => .seq (emitJoined_moves he) ?_
  refine .seq (.when (dialStep_moves hr hk he)) ?_
  exact .modify fun s => (escalate _ _ _ he).moves

theorem checkEscalation_moves (hr : K .reserve) (hk : K .cancel) (he : K .escalate) :
    Within (Moves env K) (checkEscalation env) := by
  refine onApp_moves fun app => .bind now_moves fun t => ?_
  split
  · exact .pure _
  · exact triggerStep_moves hr hk he

theorem emitQueueRejoined_moves : Within (Moves env K) emitQueueRejoined :=
  .seq (modifyApp_moves fun _ => .of rfl id) <| onApp_moves fun _ => emitRwi_moves rfl

theorem returnToWait_moves (hd : K .drain) : Within (Moves env K) (returnToWait env) :=
  .seq (releasePhantomAgents_moves hd) <|
    .seq (modifyApp_moves fun _ => .of rfl id) <|
    .seq emitQueueRejoined_moves <| enterWaitingForAgent_moves

theorem restoreMusic_moves : Within (Moves env K) (restoreMusic env ended) :=
  onApp_moves fun _ => .when startHoldMusic_moves

theorem parallelAgentFailed_ends (hd : K .drain) :
    Within (Ends env K) (parallelAgentFailed env reason ended) := by
  refine bind getApp_moves fun app => ?_
  split
  · exact of_moves <| .seq restoreMusic_moves <| .pure _
  split
  · exact of_moves (returnToWait_moves hd)
  · exact giveUp

theorem sequentialAgentFailed_ends (hd : K .drain) :
    Within (Ends env K) (sequentialAgentFailed env reason ended) := by
  refine seq nextAgent_moves <| bind getApp_moves fun app => ?_
  split
  · split
    · exact pure _
    split
    · exact of_moves (returnToWait_moves hd)
    · exact giveUp
  · exact seq restoreMusic_moves <| dialNextAgent_ends

theorem stopRinging_moves : Within (Moves env K) (modifyApp (·.stopRinging failedLeg)) := by
  refine modifyApp_moves fun app => ?_
  cases failedLeg with
  | some leg => exact .of rfl id
  | none =>
    simp only [stopRinging]
    split <;> exact .of rfl id

theorem dropPending_moves : Within (Moves env K) (modifyApp (·.dropPending failedLeg)) := by
  cases failedLeg with
  | some leg =>
    exact forgetPending_moves (fun _ _ h => (mem_filter.mp h).1) fun _ => .of rfl id
  | none =>
    refine forgetPending_moves (fun app => ?_) fun _ => .of rfl id
    simp only [dropPending]
    split
    · exact dropLast_subset _
    · exact nil_subset _

theorem handleAgentUnavailable_ends (hd : K .drain) (reason : AgentUnavailableReason)
    (failedLeg : Option String) :
    Within (Ends env K) (handleAgentUnavailable env reason failedLeg) := by
  refine bind getApp_moves fun app => ?_
  split
  · exact pure _
  · refine seq stopRinging_moves ?_
    refine seq dropPending_moves ?_
    split
    · exact parallelAgentFailed_ends hd
    · exact sequentialAgentFailed_ends hd

theorem noteRinging_moves : Within (Moves env K) (noteRinging env leg) :=
  onApp_moves fun _ => .seq (modifyApp_moves fun _ => .of rfl id) <|
    .when startAgentRingback_moves

theorem onAgentRinging_moves (hr : K .reserve) :
    Within (Moves env K) (onAgentRinging env legId agentId) := by
  refine onApp_moves fun app => ?_
  split
  · exact .pure _
  · refine .seq (.when noteRinging_moves) ?_
    cases agentId with
    | none => exact .pure _
    | some id =>
      exact .seq (callIfAttached_moves fun _ _ => hr) <| .seq (emitRwi_moves rfl) <|
        .pure _

theorem recordNoAnswerAgent_frame (app : QueueApp) (agentId : String) :
    Frame app (app.recordNoAnswerAgent agentId) := by
  unfold recordNoAnswerAgent
  split <;> exact .of rfl id

variable (agentId : String)

theorem reportRejected_moves : Within (Moves env K) (reportRejected env agentId legId) := by
  refine .seq notifyEvent_moves <| onApp_moves fun app => ?_
  refine .seq (emitRwi_moves rfl) <| .seq (notifyRegistry_moves fun _ => rfl) ?_
  refine .when <| .bind (call_moves rfl) fun _ => .seq (call_moves rfl) ?_
  refine .seq (modifyApp_moves (recordNoAnswerAgent_frame · agentId)) ?_
  exact .seq (fire_moves rfl) <| call_moves rfl

theorem alertNoAnswer_moves : Within (Moves env K) (alertNoAnswer env agentId) :=
  onApp_moves fun _ => .seq (fire_moves rfl) <| call_moves rfl

theorem reportNoAnswer_moves : Within (Moves env K) (reportNoAnswer env agentId) := by
  refine onApp_moves fun app => .when <| .seq (call_moves rfl) ?_
  refine .seq (call_moves rfl) ?_
  refine .seq (modifyApp_moves (recordNoAnswerAgent_frame · agentId)) ?_
  exact alertNoAnswer_moves agentId

theorem onAgentFailed_ends (hd : K .drain) (hc : ∀ leg, legId = some leg → K (.consume leg))
    (hreport : Within (Moves env K) report) :
    Within (Ends env K) (onAgentFailed env reason legId report) := by
  refine bind getApp_moves fun app => ?_
  split
  · exact pure _
  split
  · next leg hleg =>
    have hconsume := hc leg (Option.filter_eq_some_iff.mp hleg).1
    exact of_moves <| .seq (.modify fun s => (consume hconsume).moves) <| .pure _
  · exact seq hreport <| handleAgentUnavailable_ends hd reason legId

theorem onDialNext_ends : Within (Ends env K) (onDialNext env) := by
  refine bind getApp_moves fun app => ?_
  split
  · exact dialNextAgent_ends
  · exact pure _

/-! ## Timers -/

theorem reportTimedOut_moves : Within (Moves env K) (reportTimedOut env agents dialled) := by
  refine onApp_moves fun app => .seq (call_moves rfl) ?_
  refine .seq (alertNoAnswer_moves _) <| .seq notifyEvent_moves ?_
  exact .seq (emitRwi_moves rfl) <| .seq (notifyRegistry_moves fun _ => rfl) <|
    .pure _

theorem reportAllTimedOut_moves (dialled : List (String × String)) :
    Within (Moves env K) (reportAllTimedOut env dialled) := by
  refine onApp_moves fun app => ?_
  split
  · exact .bind (call_moves rfl) fun _ => .filterMap fun agent _ => reportTimedOut_moves
  · exact .pure _

def SameApp (s s' : Sys ω) : Prop := s'.app = s.app

instance : Std.Refl (@SameApp ω) := ⟨fun _ => rfl⟩

instance : IsTrans (Sys ω) SameApp := ⟨fun _ _ _ h₁ h₂ => Eq.trans h₂ h₁⟩

theorem pause_sameApp : Within SameApp (pause env) := by
  refine .bind (.modifyGet fun _ => rfl) fun a => .seq (.modify fun _ => rfl) ?_
  refine .bind .get fun s => ?_
  split
  · exact .fail _
  split
  · exact .fail _
  · exact .pure _

theorem callIfAttached_sameApp : Within SameApp (callIfAttached env event) := by
  refine .bind (.bind .get fun _ => .pure _) fun app => .when <| .bind ?_ fun _ => .pure _
  exact .seq pause_sameApp <| .bind (.modifyGet fun _ => rfl) fun _ =>
    .seq pause_sameApp <| .pure _

theorem cancelTimedOut_moves (hk : K .cancel) (h : s.app.pendingAgents = []) :
    Moves env K s ((cancelTimedOut env dialled).run s).2 := by
  -- the registry is told first, which leaves the application alone
  have hsame : Within SameApp (Eff.each (fun (agent : String × String) =>
      callIfAttached env fun app => .expireClientRingOffer agent.1 app.callId) dialled) :=
    .each fun _ _ => callIfAttached_sameApp
  refine bindAt (each (fun _ _ => callIfAttached_moves fun _ => nofun) s) ?_
  intro _ s' hs'
  have happ : s'.app = s.app := hsame.of_run hs'
  refine bindAt (removeLegs_moves hk fun leg _ => ?_) fun _ t _ => ?_
  · rw [happ, h]
    exact not_mem_nil
  · exact bind tick_moves (fun _ => pause_moves) t

theorem foldl_recordNoAnswer_frame (agentIds : List String) (app : QueueApp) :
    Frame app (agentIds.foldl QueueApp.recordNoAnswerAgent app) := by
  induction agentIds generalizing app with
  | nil => exact .of rfl id
  | cons agentId agentIds ih =>
    exact (recordNoAnswerAgent_frame app agentId).trans (ih (app.recordNoAnswerAgent agentId))

theorem onRingTimeout_ends (hk : K .cancel) (hd : K .drain) :
    Within (Ends env K) (onRingTimeout env) := by
  refine bind getApp_moves fun app => ?_
  split
  · exact pure _
  refine bindRun expirePending_moves ?_
  intro s dialled s' hexpire
  obtain ⟨rfl, rfl⟩ : s.app.pendingAgents = dialled ∧ _ = s' := by
    simpa [expirePending] using hexpire
  refine bindAt ?_ fun _ t _ => ?_
  · cases hp : s.app.pendingAgents with
    | nil => exact .refl
    | cons agent agents => exact cancelTimedOut_moves hk rfl
  · refine bind (reportAllTimedOut_moves _) (fun agentIds => ?_) t
    refine seq (modifyApp_moves (foldl_recordNoAnswer_frame agentIds)) ?_
    exact handleAgentUnavailable_ends hd _ _

theorem giveUpWaiting_ends : Within (Ends env K) (giveUpWaiting env) := by
  refine seq (cancelTimeout_moves _) <| seq (cancelTimeout_moves _) ?_
  refine bind getApp_moves fun app => bind now_moves fun t => ?_
  refine seq notifyEvent_moves ?_
  refine seq (notifyRegistry_moves fun _ => rfl) ?_
  exact seq (emitRwi_moves rfl) <| giveUp

theorem onMaxWait_ends : Within (Ends env K) (onMaxWait env) := by
  refine bind getApp_moves fun app => bind now_moves fun t => ?_
  split
  · exact of_moves <| .seq (setTimeout_moves _) <| .pure _
  split
  · refine of_moves <| .seq (modifyApp_moves fun _ => .of rfl id) ?_
    exact .bind deskRingTimeout_moves fun _ => .seq (setTimeout_moves _) <| .pure _
  · exact giveUpWaiting_ends

theorem onQueueRetry_ends (hr : K .reserve) : Within (Ends env K) (onQueueRetry env) := by
  refine bind getApp_moves fun app => ?_
  split
  · exact dialNextAgent_ends
  · exact tryOfferFromWait_ends hr

theorem onEscalationCheck_moves (hr : K .reserve) (hk : K .cancel) (he : K .escalate) :
    Within (Moves env K) (onEscalationCheck env) :=
  .seq (checkEscalation_moves hr hk he) <| .seq armEscalationCheck_moves <| .pure _

theorem onHoldComplete_moves : Within (Moves env K) (onHoldComplete env) :=
  .seq maybePlayComfortOrEwt_moves <| onApp_moves fun _ =>
    .seq (.when startHoldMusic_moves) <| .pure _

theorem onTransferPromptComplete_moves : Within (Moves env K) (onTransferPromptComplete env) :=
  .seq (modifyApp_moves fun _ => .of rfl nofun) <|
    .seq startHoldMusic_moves <| .pure _

theorem onComfortPromptComplete_moves : Within (Moves env K) (onComfortPromptComplete env) :=
  onApp_moves fun _ => .seq (.when (modifyApp_moves fun _ => .of rfl nofun)) <|
    .seq startHoldMusic_moves <| .pure _

theorem onToken_moves (hclear : ∀ app, Frame app (clear app)) (hrest : Within (Moves env K) rest) :
    Within (Moves env K) (onToken token trackId clear rest) := by
  unfold onToken
  split
  · exact .seq (modifyApp_moves hclear) <| hrest
  · exact .pure _

theorem onAudioComplete_moves (hk : K .cancel) (hc : s.app.callAlreadyConnected = false) :
    Moves env K s ((onAudioComplete env trackId).run s).2 := by
  suffices h : ∀ state, s.app.state = state → Moves env K s ((onAudioComplete env trackId).run s).2
    from h _ rfl
  intro state hstate
  simp only [callAlreadyConnected, hstate] at hc
  simp only [onAudioComplete, getApp, run_bind, run_get, andThen_ok, run_pure, hstate]
  cases state with
  | waitingForAgent | playingHold | dialingAgents =>
    refine onToken_moves (fun app => ?_) onHoldComplete_moves s
    exact .of rfl id
  | playingTransferPrompt connectedAgent =>
    cases connectedAgent with
    | none =>
      refine onToken_moves (fun app => ?_) onTransferPromptComplete_moves s
      exact .of rfl id
    | some _ => simp at hc
  | playingServicePrompt => simp at hc
  | playingBusyPrompt | playingNoAnswerPrompt =>
    refine onToken_moves (fun app => ?_) (playFinalDestinationPromptOrFallback_moves hk) s
    exact .of rfl id
  | playingComfortPrompt =>
    refine onToken_moves (fun app => ?_) onComfortPromptComplete_moves s
    exact .of rfl id
  | playingFinalPrompt =>
    refine onToken_moves (fun app => ?_) (executeFallback_moves hk) s
    exact .of rfl id
  | init | answering | connected | executingFallback | done => exact .refl

/-! ## Diagnostics -/

/-- What a callback does: it moves, may give the call up, and moves on. -/
def Turns (env : Env ω) (K : Permit → Prop) (s s' : Sys ω) : Prop :=
  ∃ t, Ends env K s t ∧ Moves env K t s'

theorem Ends.turns (h : Ends env K s s') : Turns env K s s' := ⟨s', h, .refl⟩

theorem Turns.after_moves (h : Moves env K s t) (hturn : Turns env K t s') : Turns env K s s' := by
  obtain ⟨u, hend, hm⟩ := hturn
  exact ⟨u, Ends.after_moves h hend, hm⟩

theorem Turns.bind (hx : Within (Moves env K) x) (hf : ∀ a, Within (Turns env K) (f a)) :
    Within (Turns env K) (x >>= f) := by
  refine fun s => bind_cases (turns (.inl (hx s))) fun a s' hxs => ?_
  exact Turns.after_moves (hx.of_run hxs) (hf a s')

theorem Turns.andMoves (hx : Within (Turns env K) x) (hf : ∀ a, Within (Moves env K) (f a)) :
    Within (Turns env K) (x >>= f) := by
  refine fun s => bind_cases (hx s) fun a s' hxs => ?_
  obtain ⟨t, hend, hm⟩ := hx.of_run hxs
  exact ⟨t, hend, hm.trans (hf a s')⟩

theorem Turns.of_ends (h : Within (Ends env K) x) : Within (Turns env K) x :=
  fun s => (h s).turns

theorem Turns.of_moves (h : Within (Moves env K) x) : Within (Turns env K) x :=
  fun s => turns (.inl (h s))

theorem respond_moves : Within (Moves env K) (respond requestId reply) :=
  .seq (record_moves rfl) <| .pure _

theorem modifyControl_moves {f : Sys ω → Sys ω}
    (h : ∀ s, ∃ armed recovery deadline, f s = { s with armed, recovery, deadline }) :
    Within (Moves env K) (Eff.modify f : Eff (Sys ω) Exn Unit) := by
  intro s
  obtain ⟨armed, recovery, deadline, hf⟩ := h s
  rw [run_modify, hf]
  exact (control armed recovery deadline).moves

theorem releaseUnansweredRecoveryReservations_moves :
    Within (Moves env K) (releaseUnansweredRecoveryReservations env preserve) := by
  refine onApp_moves fun app => .when <| .bind (.filterMap fun agent _ => ?_) fun ids => ?_
  · exact .bind (agentIdForUri_moves _) fun _ => .pure _
  · refine .bind (call_moves rfl) fun agentIds => .each fun agentId _ => .when ?_
    exact .seq (call_moves rfl) <| .pure _

theorem timeoutAt_turns
    (hx : Within (Ends env K) x) : Within (Turns env K) (timeoutAt deadline x) := by
  refine Turns.bind (modifyControl_moves fun s => ⟨_, _, _, rfl⟩) fun _ => ?_
  refine Turns.andMoves (Turns.of_ends fun s => ?_) fun result => ?_
  · rw [run_attempt]
    exact hx s
  · refine .seq (modifyControl_moves fun s => ⟨_, _, _, rfl⟩) ?_
    split
    · exact .pure _
    · exact .pure _
    · exact .pure _
    · exact .fail _

theorem recoverDispatch_turns (hr : K .reserve) :
    Within (Turns env K) (recoverDispatch env request reason) := by
  refine Turns.bind (modifyApp_moves fun _ => .of rfl id) fun _ => ?_
  refine Turns.bind (modifyControl_moves fun s => ⟨_, _, _, rfl⟩) fun _ => ?_
  refine Turns.andMoves (timeoutAt_turns ?_) fun result => ?_
  · split
    · exact dialNextAgent_ends
    · exact tryOfferFromWait_ends hr
  · refine .seq (.when releaseUnansweredRecoveryReservations_moves) ?_
    refine .seq (modifyControl_moves fun s => ⟨_, _, _, rfl⟩) ?_
    refine .seq (modifyApp_moves fun _ => .of rfl id) ?_
    cases result with
    | ok action => exact .bind .get fun _ => .seq respond_moves <| .pure _
    | error message => exact respond_moves

theorem diagnoseDispatch_turns (hr : K .reserve) :
    Within (Turns env K) (diagnoseDispatch env request) := by
  refine Turns.bind requestExpired_moves fun expired => ?_
  split
  · exact Turns.of_moves respond_moves
  refine Turns.bind .get fun s => ?_
  dsimp only
  iterate 3
    split
    · exact Turns.of_moves respond_moves
  split
  · exact recoverDispatch_turns hr
  · exact Turns.of_moves respond_moves

theorem retryAfterRecovery_moves : Within (Moves env K) (retryAfterRecovery env) := by
  refine .seq (cancelTimeout_moves _) ?_
  refine .seq (modifyApp_moves fun _ => .of rfl id) ?_
  refine onApp_moves fun app => ?_
  split
  · refine .seq (modifyApp_moves fun _ => .of rfl id) ?_
    refine .bind (attempt_moves enterWaitingForAgent_moves) fun result => ?_
    exact .seq (modifyApp_moves fun _ => .of rfl id) <| .ofExcept _
  · exact .seq (modifyApp_moves fun _ => .of rfl nofun) <|
      .seq armQueueRetry_moves <| .pure _

theorem recoveryDialFailed_moves : Within (Moves env K) (recoveryDialFailed env requestId leg) := by
  refine onApp_moves fun app => ?_
  split
  · exact .pure _
  · refine .seq (forgetPending_moves (fun _ => erase_subset) fun _ => .of rfl id) ?_
    refine .bind (agentIdForUri_moves _) fun agentId => ?_
    refine .seq (modifyApp_moves fun _ => .of rfl id) ?_
    refine .seq (callIfAttached_moves fun _ => nofun) <| .bind getApp_moves ?_
    intro app
    split
    · exact .pure _
    · exact retryAfterRecovery_moves

/-! ## Entering -/

theorem registryAgents_moves (hr : K .reserve) : Within (Moves env K) (registryAgents env) := by
  refine onApp_moves fun app => .bind (ask_moves nofun) fun supported => ?_
  split
  · exact call_reserve_moves hr
  · exact .bind (call_moves rfl) fun _ => .pure _

theorem resolveAgents_moves (hr : K .reserve) : Within (Moves env K) (resolveAgents env) :=
  .bind (registryAgents_moves hr) fun _ => .when <| .bind enrichLocations_moves fun _ =>
    modifyApp_moves fun _ => .of rfl id

theorem recordAttempted_all_moves (agentIds : List String) : Within (Moves env K)
    (modifyApp fun app => agentIds.foldl QueueApp.recordAttemptedAgent app) := by
  intro s
  induction agentIds generalizing s with
  | nil => exact .single (.frame (.of rfl id))
  | cons agentId agentIds ih => exact (recordAttempted_moves agentId s).trans (ih _)

theorem adoptReservations_moves : Within (Moves env K) (adoptReservations env) :=
  onApp_moves fun _ => .bind (call_moves rfl) fun _ => recordAttempted_all_moves _

theorem withoutAgents_ends (error : QueueError) :
    Within (Ends env K) (withoutAgents env error) := by
  refine bind getApp_moves fun app => ?_
  split
  · exact of_moves enterWaitingForAgent_moves
  · exact seq (fire_moves rfl) <| seq answerIfBusyPrompt_moves <|
      giveUp

theorem firstRound_moves : Within (Moves env K) (modifyApp (·.firstRound)) :=
  modifyApp_moves fun _ => .of rfl nofun

theorem dialSelected_ends (hr : K .reserve) : Within (Ends env K) (dialSelected env) := by
  refine bind getApp_moves fun app => bind (call_reserve_moves hr) fun selected => ?_
  cases selected with
  | none => exact withoutAgents_ends _
  | some agent =>
    refine of_moves <| .seq (call_reserve_moves hr) ?_
    refine .seq (pinAgentForDial_moves _ _) <| .bind (legHeadersFor_moves _) ?_
    intro headers
    refine .bindRun (originateCall_moves _) fun s leg s' hdial => ?_
    refine bindAt ?_ fun _ t _ => ?_
    · have hrecord : Moves env K s' _ := recordAttempted_moves agent.agentId s'
      have hlive := live_of_originateCall hdial
      exact hrecord.trans (pushPending_moves hlive)
    · refine bind maybeStartTransferPrompt_moves (fun _ => ?_) t
      refine .seq notifyEvent_moves <| .seq (emitRwi_moves rfl) ?_
      exact .seq firstRound_moves <| .seq armRingTimeout_moves <| .pure _

theorem dialableUri_moves : Within (Moves env K) (dialableUri env location) :=
  .bind (isUnavailable_moves _) fun _ => .pure _

theorem dialParallel_moves : Within (Moves env K) (dialParallel env uri) := by
  refine .bind (legHeadersFor_moves uri) fun headers => .bind (agentIdForUri_moves uri) ?_
  refine fun agentId => .seq (recordAttempted_moves agentId) ?_
  refine .seq (pinAgentForDial_moves agentId uri) ?_
  refine .bind (attempt_moves (originateCall_moves uri)) fun dialled => ?_
  cases dialled <;> exact .pure _

theorem live_of_dialParallel (h : (dialParallel env uri).run s = (.ok (some agent), s')) :
    s'.Live agent.2 := by
  iterate 4 obtain ⟨_, _, -, h⟩ := bind_ok h
  obtain ⟨dialled, t, hdial, hret⟩ := bind_ok h
  cases dialled with
  | error _ => simp at hret
  | ok leg =>
    obtain ⟨rfl, rfl⟩ : (uri, leg) = agent ∧ t = s' := by simpa using hret
    exact live_of_originateCall (attempt_ok hdial)

theorem live_of_dialParallel_all
    (h : (Eff.filterMap (dialParallel env) uris).run s = (.ok agents, s')) :
    ∀ agent ∈ agents, s'.Live agent.2 := by
  refine forall_of_filterMap (R := Moves env fun _ => False) (fun uri => dialParallel_moves)
    (fun hm hlive => hlive.mono id hm) (fun hrun => live_of_dialParallel hrun) h

theorem dialAll_ends : Within (Ends env K) (dialAll env) := by
  refine bind getApp_moves fun app => ?_
  refine bind (.filterMap fun location _ => dialableUri_moves) fun uris => ?_
  split
  · exact withoutAgents_ends _
  refine bindRun (.filterMap fun uri _ => dialParallel_moves) fun s agents s' hdial => ?_
  refine bindAt ?_ fun _ t _ => ?_
  · have hagents := live_of_dialParallel_all hdial
    refine .tail (.single (.pending fun agent hagent => .inr (hagents agent hagent))) (.frame ?_)
    exact .of rfl nofun
  · exact of_moves (.seq armRingTimeout_moves <|
      .seq maybeStartTransferPrompt_moves <| .pure _) t

theorem startDialing_ends (hr : K .reserve) : Within (Ends env K) (startDialing env) := by
  refine bind getApp_moves fun app => seq (.when ?_) ?_
  · exact .seq answerCall_moves <| modifyApp_moves fun _ => .of rfl id
  refine seq startHoldMusic_moves <| seq (.when announcePosition_moves) ?_
  refine seq (.when armMaxWaitTimeout_moves) ?_
  split
  · exact dialSelected_ends hr
  split
  · exact dialAll_ends
  · exact of_moves <| .seq firstRound_moves <| .pure _

theorem onEnter_ends (hr : K .reserve) (ctx : ApplicationContext) :
    Ends env K { s with app := s.app.entered ctx s.clock } ((onEnter env ctx).run s).2 := by
  rw [onEnter, now, run_bind, run_bind, run_get, andThen_ok, run_pure, andThen_ok, run_bind,
    modifyApp, run_modify, andThen_ok]
  refine bind armEscalationCheck_moves (fun _ => bind getApp_moves fun app => ?_) _
  refine seq (.when (emitRwi_moves rfl)) ?_
  refine seq (.when (resolveAgents_moves hr)) ?_
  refine seq (.when adoptReservations_moves) <| bind getApp_moves fun app => ?_
  split
  · exact withoutAgents_ends _
  · exact startDialing_ends hr

def Input.permits : Input → Permit → Prop
  | .signal (.agentRinging ..), .reserve => True
  | .signal (.agentBusy legId _ _ _), permit | .signal (.agentNoAnswer legId _ _ _), permit =>
    permit = .drain ∨ ∃ leg, legId = some leg ∧ permit = .consume leg
  | .timeout .agentRing, permit => permit ∈ [.cancel, .drain]
  | .timeout .queueRetry, .reserve => True
  | .timeout .escalationCheck, permit => permit ∈ [.reserve, .cancel, .escalate]
  | .audioComplete _, .cancel => True
  | .diagnostic _, .reserve => True
  | _, _ => False

def Input.isAnswer : Input → Bool
  | .signal (.agentConnected ..) => true
  | _ => false

theorem Input.eq_of_isAnswer {input : Input} (h : input.isAnswer = true) :
    ∃ legId uri id, input = .signal (.agentConnected legId uri id) := by
  cases input with
  | signal signal => cases signal <;> first | exact ⟨_, _, _, rfl⟩ | cases h
  | _ => cases h

def Input.isPlayback : Input → Bool
  | .audioComplete _ => true
  | _ => false

/-- **What a callback can do**, unless an agent answers, or a prompt ends that is played to a
connected call. -/
theorem dispatch_turns (hc : input.isPlayback = true → s.app.callAlreadyConnected = false)
    (ha : input.isAnswer = false) :
    Turns env input.permits s ((dispatch env input).run s).2 := by
  cases input with
  | signal signal =>
    cases signal with
    | agentRinging legId _ agentId => exact Turns.of_moves (onAgentRinging_moves trivial) s
    | agentConnected => simp [isAnswer] at ha
    | agentBusy legId _ agentId _ =>
      exact (onAgentFailed_ends (.inl rfl) (fun leg h => .inr ⟨leg, h, rfl⟩)
        (.when (reportRejected_moves _)) s).turns
    | agentNoAnswer legId _ agentId _ =>
      exact (onAgentFailed_ends (.inl rfl) (fun leg h => .inr ⟨leg, h, rfl⟩)
        (.when (reportNoAnswer_moves _)) s).turns
    | dialNext => exact (onDialNext_ends s).turns
    | allAgentsBusy => exact (giveUp s).turns
  | recoveryDialFailed requestId leg => exact Turns.of_moves recoveryDialFailed_moves s
  | timeout timer =>
    cases timer with
    | agentRing =>
      exact (onRingTimeout_ends (by simp [permits]) (by simp [permits]) s).turns
    | maxWait => exact (onMaxWait_ends s).turns
    | queueRetry => exact (onQueueRetry_ends trivial s).turns
    | escalationCheck =>
      exact Turns.of_moves (onEscalationCheck_moves (by simp [permits])
        (by simp [permits]) (by simp [permits])) s
    | other _ => exact Turns.of_moves (.pure _) s
  | audioComplete trackId =>
    exact turns (.inl (onAudioComplete_moves trivial (hc rfl)))
  | diagnostic request => exact diagnoseDispatch_turns trivial s
  | other => exact Turns.of_moves (.pure _) s

end

end RustPbx.Queue
