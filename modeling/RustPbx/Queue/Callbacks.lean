import RustPbx.Queue.Dialing

/-!
The callbacks of the queue application: entering, signals from the session, timers, finished
playback, live diagnostics and leaving. `dispatch` sends each input to its callback.
-/

namespace RustPbx.Queue

open Sip Call Routing Eff

section

variable (env : Env ω)

def cancelPendingLegs : Eff (Sys ω) Exn Unit := do
  let app ← getApp
  removeLegs env (app.pendingAgents.map (·.2)) "stage_switch"
  modifyApp ({ · with pendingAgents := [] })
  when (!app.ringingAgentLegs.isEmpty) do
    modifyApp ({ · with ringingAgentLegs := [] })
    let _ ← attempt (startHoldMusic env)
    return ()
  cancelTimeout .agentRing
  modifyApp ({ · with dynamicAgents := none, currentAgentIdx := 0, dialAttempts := 0 })

def dialOne (uri : String) : Eff (Sys ω) Exn (Option String) := do
  let agentId ← agentIdForUri env uri
  modifyApp (·.recordAttemptedAgent agentId)
  pinAgentForDial env agentId uri
  let headers ← legHeadersFor env uri
  match ← attempt (originateCall env uri headers) with
  | .ok leg =>
    modifyApp (·.pushPending uri leg)
    return some leg
  | .error _ => return none

def dialAgents (uris : List String) : Eff (Sys ω) Exn Unit := do
  let legs ← filterMap (dialOne env) uris
  when (!legs.isEmpty) (armRingTimeout env)

def leaveGroup (step : EscalationStep) : Eff (Sys ω) Exn Unit := do
  let app ← getApp
  when (app.config.escalationMode = .sequential ∧ app.skillQueueId ≠ step.addSkillGroup) do
    emitRwi (.queueLeft .overflow app.skillGroups)
    notifyGroupSwitch env app.skillQueueId step.addSkillGroup

def resolveStep (step : EscalationStep) : Eff (Sys ω) Exn (List String) := do
  let app ← getApp
  match app.config.skillGroup with
  | some group =>
    call env (.resolveEscalationTargets ("skill-group:" ++ group) [step.addSkillGroup] app.callId
      step.fair (app.config.escalationMode = .cumulative))
  | none => call env (.resolveTarget ("skill-group:" ++ step.addSkillGroup))

def escalationTargets (step : EscalationStep) : Eff (Sys ω) Exn (List String) := do
  let uris ← resolveStep env step
  let app ← getApp
  return uris.filter fun uri => uri ∉ app.pendingAgents.map (·.1)

def dialStep (step : EscalationStep) : Eff (Sys ω) Exn Unit := do
  let uris ← escalationTargets env step
  let app ← getApp
  match app.config.escalationMode with
  | .cumulative => dialAgents env uris
  | .replace =>
    cancelPendingLegs env
    dialAgents env uris
  | .sequential =>
    cancelPendingLegs env
    dialAgents env uris
    let t ← now
    modifyApp ({ · with currentGroup := some step.addSkillGroup, stageStartedAt := some t })

def triggerStep (step : EscalationStep) : Eff (Sys ω) Exn Unit := do
  leaveGroup env step
  fire env (.updateQueueMeta step.addSkillGroup)
  let app ← getApp
  emitRwi (.queueOverflowJoined step.addSkillGroup app.eventPriority)
  when app.agentRegistry (dialStep env step)
  modifyApp fun app => { app with escalatedGroups := app.escalatedGroups ++ [step.addSkillGroup] }

def checkEscalation : Eff (Sys ω) Exn Unit := do
  let app ← getApp
  let t ← now
  match (app.dueStep t).filter fun _ => app.waitsInQueue with
  | none => return ()
  | some step => triggerStep env step

def emitQueueRejoined : Eff (Sys ω) Exn Unit := do
  modifyApp fun app => { app with joinAttempt := app.joinAttempt + 1 }
  let app ← getApp
  emitRwi (.queueJoined app.skillGroups app.eventPriority
    (if 1 < app.joinAttempt then some app.joinAttempt else none))

def returnToWait : Eff (Sys ω) Exn AppAction := do
  releasePhantomAgents env none
  modifyApp ({ · with dynamicAgents := none, currentAgentIdx := 0 })
  emitQueueRejoined
  enterWaitingForAgent env

def QueueApp.ringbackEnded (app : QueueApp) : Option String → Bool
  | some leg => leg ∈ app.ringingAgentLegs
  | none => !app.isParallel && !app.ringingAgentLegs.isEmpty

def QueueApp.stopRinging (app : QueueApp) : Option String → QueueApp
  | some leg => { app with ringingAgentLegs := app.ringingAgentLegs.filter (· ≠ leg) }
  | none => if app.isParallel then app else { app with ringingAgentLegs := [] }

/-- Without a failed leg the last agent of a parallel round is taken for it, and everybody in a
sequential one. -/
def QueueApp.dropPending (app : QueueApp) : Option String → QueueApp
  | some leg => { app with pendingAgents := app.pendingAgents.filter (·.2 ≠ leg) }
  | none => { app with
      pendingAgents := if app.isParallel then app.pendingAgents.dropLast else [] }

def restoreMusic (ringbackEnded : Bool) : Eff (Sys ω) Exn Unit := do
  let app ← getApp
  when (ringbackEnded && app.ringingAgentLegs.isEmpty) (startHoldMusic env)

def parallelAgentFailed (reason : AgentUnavailableReason) (ringbackEnded : Bool) :
    Eff (Sys ω) Exn AppAction := do
  let app ← getApp
  if app.pendingAgents ≠ [] then
    restoreMusic env ringbackEnded
    return .continue
  else if app.allowsWaitRetention then returnToWait env
  else playUnavailablePromptAndThenFallback env reason

def sequentialAgentFailed (reason : AgentUnavailableReason) (ringbackEnded : Bool) :
    Eff (Sys ω) Exn AppAction := do
  modifyApp (·.nextAgent)
  let app ← getApp
  if (reason = .noAnswer ∧ app.allowsWaitRetention) ∨
      app.getAgents.length ≤ app.currentAgentIdx then
    if app.fallbackExecuted then return .continue
    else if app.allowsWaitRetention then returnToWait env
    else playUnavailablePromptAndThenFallback env reason
  else
    restoreMusic env ringbackEnded
    dialNextAgent env

def handleAgentUnavailable (reason : AgentUnavailableReason) (failedLeg : Option String) :
    Eff (Sys ω) Exn AppAction := do
  let app ← getApp
  if app.callAlreadyConnected then return .continue
  else
    let ringbackEnded := app.ringbackEnded failedLeg
    modifyApp (·.stopRinging failedLeg)
    modifyApp (·.dropPending failedLeg)
    if app.isParallel then parallelAgentFailed env reason ringbackEnded
    else sequentialAgentFailed env reason ringbackEnded

/-! ## Signals -/

def playServicePromptOrExit (agentUri : String) : Eff (Sys ω) Exn AppAction := do
  ensureAnswered env
  let app ← getApp
  match app.prompts.bind (·.servicePrompt) with
  | none =>
    modifyApp ({ · with state := .connected agentUri })
    return .exit
  | some template =>
    let name ← resolveAgentDisplayName env agentUri
    let isUrl := Str.startsWith template "http://" || Str.startsWith template "https://"
    let file := template.replace "\x7bagent\x7d" (if isUrl then env.urlencode name else name)
    let token ← playAudio env .service file false false true
    modifyApp ({ · with serviceToken := some token, state := .playingServicePrompt agentUri })
    return .continue

def takePending : Eff (Sys ω) Exn (List (String × String)) :=
  modifyGet fun s =>
    (s.app.pendingAgents, { s with app := { s.app with pendingAgents := [] } })

def bridgeAgent (leg agentUri : String) (agentId : Option String) :
    Eff (Sys ω) Exn AppAction := do
  ensureAnswered env
  send env (.bridge leg)
  send env .unhold
  modifyApp ({ · with holdPlayback := none, ringingAgentLegs := [], transferToken := none,
                      comfortToken := none })
  cancelTimeout .agentRing
  cancelTimeout .escalationCheck
  cancelTimeout .queueRetry
  cancelTimeout .maxWait
  let pending ← takePending
  removeLegs env ((pending.map (·.2)).filter (· ≠ leg)) "superseded"
  let connectedId := agentId.getD agentUri
  releasePhantomAgents env (some connectedId)
  emitRwi (.queueAgentConnected connectedId leg)
  let app ← getApp
  emitRwi (.queueLeft .connected app.skillGroups)
  notifyConnected env connectedId leg
  playServicePromptOrExit env agentUri

def QueueApp.forgetTimedOut (app : QueueApp) (leg : String) : QueueApp :=
  { app with timedOutLegs := app.timedOutLegs.filter (· ≠ leg) }

def QueueApp.answeredLeg (app : QueueApp) (legId : Option String) (agentUri : String) :
    Option String :=
  legId.or ((app.pendingAgents.find? (·.1 = agentUri)).map (·.2))

def onAgentConnected (legId : Option String) (agentUri : String) (agentId : Option String) :
    Eff (Sys ω) Exn AppAction := do
  let app ← getApp
  if app.callAlreadyConnected then return .continue
  else
    match app.answeredLeg legId agentUri with
    | none => return .continue
    | some leg =>
      if leg ∈ app.timedOutLegs then
        modifyApp (·.forgetTimedOut leg)
        removeLegs env [leg] "superseded"
        return .continue
      else bridgeAgent env leg agentUri agentId

def noteRinging (leg : String) : Eff (Sys ω) Exn Unit := do
  let app ← getApp
  modifyApp fun app => { app with ringingAgentLegs := app.ringingAgentLegs.insert leg }
  when app.ringingAgentLegs.isEmpty (startAgentRingback env)

def onAgentRinging (legId : String) (agentId : Option String) : Eff (Sys ω) Exn AppAction := do
  let app ← getApp
  if legId ∈ app.timedOutLegs then return .continue
  else
    when app.agentRingbackEnabled (noteRinging env legId)
    match agentId with
    | none => return .continue
    | some id =>
      callIfAttached env fun app => .updatePresence id (.ringing (some app.callId))
      emitRwi (.queueAgentOffered id legId)
      return .continue

def reportRejected (agentId : String) (legId : Option String) : Eff (Sys ω) Exn Unit := do
  notifyEvent env (.agentRejected agentId)
  let app ← getApp
  emitRwi (.queueAgentRejected agentId app.dialAttempts legId)
  notifyRejected env agentId app.dialAttempts (legId.getD "")
  when app.agentRegistry do
    let outcome ← call env (.noteAgentRejected agentId app.callId app.ringPolicy)
    let _ ← call env (.releaseCall agentId app.callId)
    modifyApp (·.recordNoAnswerAgent agentId)
    fire env (.trace (.rejected agentId app.dialAttempts app.config.name outcome))
    call env (.emitAssignFailedAlert
      { callId := app.callId, queueId := app.config.name, agentId, attempt := app.dialAttempts
        reason := .rejected, sipStatus := some 486, outcome := some outcome })

def alertNoAnswer (agentId : String) : Eff (Sys ω) Exn Unit := do
  let app ← getApp
  fire env (.trace (.noAnswer agentId app.dialAttempts app.config.name))
  call env (.emitAssignFailedAlert
    { callId := app.callId, queueId := app.config.name, agentId, attempt := app.dialAttempts
      reason := .noAnswer })

def reportNoAnswer (agentId : String) : Eff (Sys ω) Exn Unit := do
  let app ← getApp
  when app.agentRegistry do
    call env (.noteAgentNoAnswer agentId app.callId app.ringPolicy)
    let _ ← call env (.releaseCall agentId app.callId)
    modifyApp (·.recordNoAnswerAgent agentId)
    alertNoAnswer env agentId

def onAgentFailed (reason : AgentUnavailableReason) (legId : Option String)
    (report : Eff (Sys ω) Exn Unit) : Eff (Sys ω) Exn AppAction := do
  let app ← getApp
  if app.callAlreadyConnected then return .continue
  else
    match legId.filter (· ∈ app.timedOutLegs) with
    | some leg =>
      modifyApp (·.forgetTimedOut leg)
      return .continue
    | none =>
      report
      handleAgentUnavailable env reason legId

def onAgentBusy (legId : Option String) (agentId : String) : Eff (Sys ω) Exn AppAction :=
  onAgentFailed env .busy legId (when (agentId ≠ "") (reportRejected env agentId legId))

def onAgentNoAnswer (legId : Option String) (agentId : String) : Eff (Sys ω) Exn AppAction :=
  onAgentFailed env .noAnswer legId (when (agentId ≠ "") (reportNoAnswer env agentId))

def QueueApp.isDialing (app : QueueApp) : Bool :=
  match app.state with
  | .dialingAgents _ => true
  | _ => false

def onDialNext : Eff (Sys ω) Exn AppAction := do
  let app ← getApp
  if app.isDialing && app.pendingAgents.isEmpty && app.ringingAgentLegs.isEmpty &&
      !app.callAlreadyConnected then
    dialNextAgent env
  else return .continue

def onSignal : QueueSignal → Eff (Sys ω) Exn AppAction
  | .agentConnected legId agentUri agentId => onAgentConnected env legId agentUri agentId
  | .agentRinging legId _ agentId => onAgentRinging env legId agentId
  | .agentBusy legId _ agentId _ => onAgentBusy env legId agentId
  | .agentNoAnswer legId _ agentId _ => onAgentNoAnswer env legId agentId
  | .dialNext => onDialNext env
  | .allAgentsBusy => playUnavailablePromptAndThenFallback env .busy

def reportTimedOut (agents : List AgentRecord) (dialled : String × String) :
    Eff (Sys ω) Exn (Option String) := do
  let app ← getApp
  let agentId := ((agents.find? (·.uri = dialled.1)).map (·.agentId)).getD (userPart env dialled.1)
  call env (.noteAgentNoAnswer agentId app.callId app.ringPolicy)
  alertNoAnswer env agentId
  notifyEvent env (.agentNoAnswer agentId)
  emitRwi (.queueAgentNoAnswer agentId app.dialAttempts dialled.2)
  notifyNoAnswer env agentId app.dialAttempts dialled.2
  return some agentId

def reportAllTimedOut (dialled : List (String × String)) : Eff (Sys ω) Exn (List String) := do
  let app ← getApp
  if app.agentRegistry then
    let agents ← call env .listAgents
    filterMap (reportTimedOut env agents) dialled
  else return []

def cancelTimedOut (dialled : List (String × String)) : Eff (Sys ω) Exn Unit := do
  each (fun (agent : String × String) =>
    callIfAttached env fun app => .expireClientRingOffer agent.1 app.callId) dialled
  removeLegs env (dialled.map (·.2)) "ring_timeout"
  tick (60 * 10 ^ 6)
  pause env

/-- A fire that was queued when a recovery took its leg back stands for no ringing agent. -/
def QueueApp.staleRingTimeout (app : QueueApp) : Bool :=
  !app.recoveryRequests.isEmpty && app.pendingAgents.isEmpty && app.ringingAgentLegs.isEmpty

def onRingTimeout : Eff (Sys ω) Exn AppAction := do
  let app ← getApp
  if app.staleRingTimeout || app.callAlreadyConnected then return .continue
  else
    let dialled ← expirePending
    when (!dialled.isEmpty) (cancelTimedOut env dialled)
    let agentIds ← reportAllTimedOut env dialled
    modifyApp fun app => agentIds.foldl QueueApp.recordNoAnswerAgent app
    handleAgentUnavailable env .noAnswer none

def giveUpWaiting : Eff (Sys ω) Exn AppAction := do
  cancelTimeout .queueRetry
  cancelTimeout .escalationCheck
  let app ← getApp
  let t ← now
  notifyEvent env (.timeout (app.waitSecs t))
  notifyTimeout env (app.waitSecs t)
  emitRwi .queueWaitTimeout
  playUnavailablePromptAndThenFallback env .busy

/-- Steps of the timeline that are still open defer the end, and after the last of them there is one
more ring timeout. -/
def onMaxWait : Eff (Sys ω) Exn AppAction := do
  let app ← getApp
  let t ← now
  match app.nextEscalationCheckDelay t with
  | some delay =>
    setTimeout .maxWait (max delay (secs 1))
    return .continue
  | none =>
    if app.escalatedGroups ≠ [] ∧ app.maxWaitGraceUsed = false then
      modifyApp ({ · with maxWaitGraceUsed := true })
      let desk ← deskRingTimeout env
      setTimeout .maxWait (app.effectiveRingTimeout desk)
      return .continue
    else giveUpWaiting env

/-- Static queues retry only after a guarded dial was rejected. -/
def QueueApp.retriesStaticDial (app : QueueApp) : Bool :=
  !app.allowsWaitRetention && app.isDialing && app.pendingAgents.isEmpty &&
    app.recoveryRequests.any fun request => !request.2.isEmpty

def onQueueRetry : Eff (Sys ω) Exn AppAction := do
  let app ← getApp
  if app.retriesStaticDial then dialNextAgent env else tryOfferFromWait env

def onEscalationCheck : Eff (Sys ω) Exn AppAction := do
  checkEscalation env
  armEscalationCheck
  return .continue

def onTimeout : Timer → Eff (Sys ω) Exn AppAction
  | .agentRing => onRingTimeout env
  | .maxWait => onMaxWait env
  | .queueRetry => onQueueRetry env
  | .escalationCheck => onEscalationCheck env
  | .other _ => return .continue

/-! ## Entering -/

def QueueApp.entered (app : QueueApp) (ctx : ApplicationContext) (t : Nat) : QueueApp :=
  { app with
    caller := ctx.caller
    state := .answering
    enqueuedAt := some t
    transferPromptEnabled := ctx.queueTransferPromptEnabled
    comfortPromptEnabled := ctx.queueComfortPromptEnabled
    busyPromptEnabled := ctx.queueBusyPromptEnabled
    agentRingbackEnabled := ctx.queueAgentRingbackEnabled
    noAnswerPromptEnabled := ctx.queueNoAnswerPromptEnabled
    rwiGateway := ctx.rwiGateway }

def registryAgents : Eff (Sys ω) Exn (List String) := do
  let app ← getApp
  let supported ← ask env .supportsSkillGroupDispatch
  match app.targetGroup.filter fun _ => supported with
  | some group =>
    call env (.resolveTargetWithPriority ("skill-group:" ++ group) app.callId
      (clampPriority app.config.priority))
  | none =>
    let agents ← call env (.findAvailableAgents app.config.requiredSkills)
    return agents.map (·.uri)

def resolveAgents : Eff (Sys ω) Exn Unit := do
  let uris ← registryAgents env
  when (!uris.isEmpty) do
    let locations ← enrichLocations env (uris.map (bareLocation env))
    modifyApp ({ · with dynamicAgents := some locations })

/-- Take over the reservations that were made for this call before the application started. -/
def adoptReservations : Eff (Sys ω) Exn Unit := do
  let app ← getApp
  let agentIds ← call env (.agentsRingingForCall app.callId)
  modifyApp fun app => agentIds.foldl QueueApp.recordAttemptedAgent app

def withoutAgents (error : QueueError) : Eff (Sys ω) Exn AppAction := do
  let app ← getApp
  if app.allowsWaitRetention then enterWaitingForAgent env
  else
    fire env (.reportCallError error none)
    answerIfBusyPrompt env
    playUnavailablePromptAndThenFallback env .busy

def QueueApp.firstRound (app : QueueApp) : QueueApp :=
  { app with state := .dialingAgents 1, dialAttempts := 1 }

def dialSelected : Eff (Sys ω) Exn AppAction := do
  let app ← getApp
  let selected ← call env (.selectAgent app.config.requiredSkills app.config.routingStrategy
    app.callId (clampPriority app.config.priority))
  match selected with
  | none => withoutAgents env .noAgentsSkill
  | some agent =>
    call env (.updatePresence agent.agentId (.ringing (some app.callId)))
    pinAgentForDial env agent.agentId agent.uri
    let headers ← legHeadersFor env agent.uri
    let leg ← originateCall env agent.uri headers
    modifyApp fun app => (app.recordAttemptedAgent agent.agentId).pushPending agent.uri leg
    maybeStartTransferPrompt env
    notifyEvent env (.agentRinging agent.agentId agent.uri)
    emitRwi (.queueAgentOffered agent.agentId leg)
    modifyApp (·.firstRound)
    armRingTimeout env
    return .continue

def dialableUri (location : Location) : Eff (Sys ω) Exn (Option String) := do
  let unavailable ← isUnavailable env (env.uris.print location.aor)
  return if unavailable then none else some (env.uris.print location.aor)

def dialParallel (uri : String) : Eff (Sys ω) Exn (Option (String × String)) := do
  let headers ← legHeadersFor env uri
  let agentId ← agentIdForUri env uri
  modifyApp (·.recordAttemptedAgent agentId)
  pinAgentForDial env agentId uri
  match ← attempt (originateCall env uri headers) with
  | .ok leg => return some (uri, leg)
  | .error _ => return none

def dialAll : Eff (Sys ω) Exn AppAction := do
  let app ← getApp
  let uris ← filterMap (dialableUri env) app.getAgents
  if uris = [] then withoutAgents env .noAgents
  else
    let pending ← filterMap (dialParallel env) uris
    modifyApp fun app => { app.firstRound with pendingAgents := pending }
    armRingTimeout env
    maybeStartTransferPrompt env
    return .continue

def startDialing : Eff (Sys ω) Exn AppAction := do
  let app ← getApp
  when app.plan.acceptImmediately do
    answerCall env
    modifyApp ({ · with answered := true })
  startHoldMusic env
  when app.config.announcePosition (announcePosition env)
  when app.allowsWaitRetention armMaxWaitTimeout
  if app.config.autonomousRouting && app.agentRegistry then dialSelected env
  else if app.isParallel then dialAll env
  else
    modifyApp (·.firstRound)
    return .continue

def onEnter (ctx : ApplicationContext) : Eff (Sys ω) Exn AppAction := do
  let t ← now
  modifyApp (·.entered ctx t)
  armEscalationCheck
  let app ← getApp
  when (!app.joinedEmittedExternally)
    (emitRwi (.queueJoined app.skillGroups app.eventPriority none))
  when (app.config.skillRoutingEnabled && app.getAgents.isEmpty && app.agentRegistry)
    (resolveAgents env)
  when app.agentRegistry (adoptReservations env)
  let app ← getApp
  if app.getAgents = [] then withoutAgents env .noAgents else startDialing env

def onToken (token : Option String) (trackId : String) (clear : QueueApp → QueueApp)
    (next : Eff (Sys ω) Exn AppAction) : Eff (Sys ω) Exn AppAction := do
  if trackMatches token trackId then
    modifyApp clear
    next
  else return .continue

def onHoldComplete : Eff (Sys ω) Exn AppAction := do
  maybePlayComfortOrEwt env
  let app ← getApp
  when (app.state ≠ .playingComfortPrompt) (startHoldMusic env)
  return .continue

def onTransferPromptComplete : Eff (Sys ω) Exn AppAction := do
  modifyApp fun app => { app with state := .dialingAgents app.dialAttempts }
  startHoldMusic env
  return .continue

def onComfortPromptComplete : Eff (Sys ω) Exn AppAction := do
  let app ← getApp
  when (app.allowsWaitRetention && app.pendingAgents.isEmpty && app.getAgents.isEmpty)
    (modifyApp ({ · with state := .waitingForAgent }))
  startHoldMusic env
  return .continue

def onAudioComplete (trackId : String) : Eff (Sys ω) Exn AppAction := do
  let app ← getApp
  match app.state with
  | .waitingForAgent | .playingHold _ | .dialingAgents _ =>
    onToken app.holdPlayback trackId id (onHoldComplete env)
  | .playingTransferPrompt connectedAgent =>
    onToken app.transferToken trackId ({ · with transferToken := none }) (match connectedAgent with
      | none => onTransferPromptComplete env
      | some agentUri => playServicePromptOrExit env agentUri)
  | .playingServicePrompt agentUri =>
    onToken app.serviceToken trackId
      ({ · with serviceToken := none, state := .connected agentUri }) (return .exit)
  | .playingBusyPrompt =>
    onToken app.busyToken trackId ({ · with busyToken := none })
      (playFinalDestinationPromptOrFallback env)
  | .playingNoAnswerPrompt =>
    onToken app.noAnswerToken trackId ({ · with noAnswerToken := none })
      (playFinalDestinationPromptOrFallback env)
  | .playingComfortPrompt =>
    onToken app.comfortToken trackId ({ · with comfortToken := none }) (onComfortPromptComplete env)
  | .playingFinalPrompt =>
    onToken app.finalToken trackId ({ · with finalToken := none }) (executeFallback env)
  | _ => return .continue

/-! ## Live diagnostics -/

def respond (requestId : String) (reply : Except String QueueDispatchDiagnostic) :
    Eff (Sys ω) Exn AppAction := do
  record (.respond requestId reply)
  return .continue

def QueueApp.waitsForPoll (app : QueueApp) : Bool :=
  match app.state with
  | .waitingForAgent | .playingHold _ => true
  | _ => false

/-- Whether the kick that starts the first sequential round has never come. -/
def QueueApp.missingKick (app : QueueApp) : Bool :=
  app.isDialing && app.currentAgentIdx == 0 && app.dialAttempts == 1 && !app.isParallel &&
    !app.getAgents.isEmpty

def QueueApp.noLeg (app : QueueApp) : Bool :=
  app.pendingAgents.isEmpty && app.ringingAgentLegs.isEmpty

def QueueDiagnosticRequest.liveVerified (request : QueueDiagnosticRequest) : Bool :=
  request.liveAgentLegs == some 0 && request.liveTransferInProgress == some false &&
    request.liveCallerConnected == some true && request.expectedAppExecutionId.isSome

def dispatchReason (app : QueueApp) (request : QueueDiagnosticRequest) (retryArmed : Bool) :
    DispatchReason :=
  if request.liveTransferInProgress = some true then .transferInProgress
  else if request.liveAgentLegs.any (0 < ·) then .activeAgentLeg
  else if request.liveCallerConnected = some false then .callerNotConnected
  else if !request.liveVerified then .liveSessionEvidenceIncomplete
  else if app.callAlreadyConnected then .alreadyConnected
  else if !app.noLeg then .dialInProgress
  else if app.fallbackExecuted then .fallbackInProgress
  else if app.missingKick then .dispatchStalled
  else if app.waitsForPoll && !retryArmed then .retryMissing
  else if app.waitsForPoll then .healthyWaiting
  else .notRecoverable

def dispatchEvidence (s : Sys ω) (request : QueueDiagnosticRequest) : QueueDispatchDiagnostic :=
  let retryArmed := decide (.queueRetry ∈ s.armed)
  { sessionId := s.app.callId
    queueId := s.app.config.name
    skillGroupId := s.app.targetGroup
    state := s.app.state
    pendingDials := s.app.pendingAgents.length
    ringingLegs := s.app.ringingAgentLegs.length
    retryArmed
    waitSecs := s.app.waitSecs s.clock
    recoverable := request.liveVerified && s.app.noLeg && !s.app.fallbackExecuted &&
      !s.app.callAlreadyConnected &&
      (s.app.missingKick || (s.app.waitsForPoll && !retryArmed))
    reason := dispatchReason s.app request retryArmed
    outcome := .observed
    candidateCount := s.app.getAgents.length
    candidatePreview := (s.app.getAgents.take 3).filterMap fun location =>
      env.extractSipUsername (env.uris.print location.aor) }

def timeoutAt (deadline : Nat) (x : Eff (Sys ω) Exn α) :
    Eff (Sys ω) Exn (Except String α) := do
  modify ({ · with deadline := some deadline })
  let result ← x.attempt some
  modify ({ · with deadline := none })
  match result with
  | .ok a => return .ok a
  | .error (.error message) => return .error message
  | .error .expired => return .error "result_unknown_timeout"
  | .error .cancelled => fail .cancelled

def releaseUnansweredRecoveryReservations (preservePending : Bool) :
    Eff (Sys ω) Exn Unit := do
  let app ← getApp
  when app.agentRegistry do
    let dialled ← filterMap (fun (agent : String × String) => do
      let agentId ← agentIdForUri env agent.1
      return some agentId) (if preservePending then app.pendingAgents else [])
    let agentIds ← call env (.agentsRingingForCall app.callId)
    each (fun agentId => when (agentId ∉ dialled) do
      let _ ← call env (.releaseUnansweredReservation agentId app.callId)
      return ()) agentIds

def QueueApp.recoveryDone (app : QueueApp) (requestId : String) : QueueApp :=
  let requests := app.recoveryRequests ++ [(requestId, app.pendingAgents.map (·.2))]
  { app with
    targetedRecovery := false
    recoveryRequests :=
      if maxRecoveryRequests < requests.length then requests.tail else requests }

def recoveryOutcome (evidence : QueueDispatchDiagnostic) : DispatchOutcome :=
  if 0 < evidence.pendingDials then .dialRequested
  else if evidence.retryArmed then .retryArmed
  else .noDispatch

def recoverDispatch (request : QueueDiagnosticRequest) (reason : DispatchReason) :
    Eff (Sys ω) Exn AppAction := do
  modifyApp ({ · with targetedRecovery := true })
  modify ({ · with recovery := some request })
  let result ← timeoutAt request.deadline
    (if reason = .dispatchStalled then dialNextAgent env else tryOfferFromWait env)
  when (!result.isOk) (releaseUnansweredRecoveryReservations env true)
  modify ({ · with recovery := none })
  modifyApp (·.recoveryDone request.requestId)
  match result with
  | .ok action =>
    let s ← get
    let evidence := dispatchEvidence env s request
    let _ ← respond request.requestId (.ok { evidence with outcome := recoveryOutcome evidence })
    return action
  | .error message =>
    respond request.requestId
      (.error ("recovery_failed: " ++ message ++ "; shared_dispatch_claim_may_remain"))

def diagnoseDispatch (request : QueueDiagnosticRequest) : Eff (Sys ω) Exn AppAction := do
  if ← requestExpired env request then respond request.requestId (.error "request_expired")
  else
    let s ← get
    let evidence := dispatchEvidence env s request
    if request.expectedSkillGroup.any (some · ≠ evidence.skillGroupId) then
      respond request.requestId (.ok { evidence with
        recoverable := false, reason := .skillGroupChanged, outcome := .rejected })
    else if !request.recover then respond request.requestId (.ok evidence)
    else if s.app.recoveryRequests.any (·.1 = request.requestId) then
      respond request.requestId (.ok { evidence with outcome := .alreadyProcessed })
    else if evidence.recoverable then recoverDispatch env request evidence.reason
    else respond request.requestId (.ok { evidence with outcome := .rejected })

def retryAfterRecovery : Eff (Sys ω) Exn AppAction := do
  cancelTimeout .agentRing
  modifyApp ({ · with currentAgentIdx := 0 })
  let app ← getApp
  if app.allowsWaitRetention then
    modifyApp ({ · with dynamicAgents := none, targetedRecovery := true })
    let result ← attempt (enterWaitingForAgent env)
    modifyApp ({ · with targetedRecovery := false })
    ofExcept (result.mapError .error)
  else
    modifyApp fun app => { app with state := .dialingAgents app.dialAttempts }
    armQueueRetry
    return .continue

def QueueApp.recoveredAgent (app : QueueApp) (requestId leg : String) : Option (String × String) :=
  if app.recoveryRequests.any fun request => request.1 = requestId ∧ leg ∈ request.2 then
    app.pendingAgents.find? (·.2 = leg)
  else none

def recoveryDialFailed (requestId leg : String) : Eff (Sys ω) Exn AppAction := do
  let app ← getApp
  match (app.recoveredAgent requestId leg).filter fun _ => !app.callAlreadyConnected with
  | none => return .continue
  | some agent =>
    modifyApp fun app => { app with pendingAgents := app.pendingAgents.erase agent }
    let agentId ← agentIdForUri env agent.1
    modifyApp fun app =>
      { app with ringingAgentLegs := app.ringingAgentLegs.filter (· ≠ leg) }
    callIfAttached env fun app => .releaseUnansweredReservation agentId app.callId
    let app ← getApp
    if app.pendingAgents ≠ [] then return .continue else retryAfterRecovery env

def releaseBindings : Eff (Sys ω) Exn Unit := do
  let app ← getApp
  if app.targetedRecovery then releaseUnansweredRecoveryReservations env false
  else releasePhantomAgents env none

def onExit : Eff (Sys ω) Exn Unit := do
  releaseBindings env
  let app ← getApp
  when (!app.callAlreadyConnected && !app.abandonedRecorded) (recordAbandoned env)
  modifyApp ({ · with state := .done })

/-- What the event loop hands to the application. -/
inductive Input where
  | signal (signal : QueueSignal)
  | recoveryDialFailed (requestId leg : String)
  | timeout (timer : Timer)
  | audioComplete (trackId : String)
  | diagnostic (request : QueueDiagnosticRequest)
  /-- Digits, recordings, transfer results and unknown events. -/
  | other
  deriving DecidableEq

def dispatch : Input → Eff (Sys ω) Exn AppAction
  | .signal signal => onSignal env signal
  | .recoveryDialFailed requestId leg => recoveryDialFailed env requestId leg
  | .timeout timer => onTimeout env timer
  | .audioComplete trackId => onAudioComplete env trackId
  | .diagnostic request => diagnoseDispatch env request
  | .other => return .continue

end

end RustPbx.Queue
