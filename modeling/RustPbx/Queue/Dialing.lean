import RustPbx.Queue.Controller

/-!
The methods of the queue application: waiting for an agent, dialling agents, giving up and
escalating to other skill groups.
-/

namespace RustPbx.Queue

open Sip Call Routing Eff

section

variable (env : Env ω)

def notifyRegistry (event : QueueApp → RegistryCall) : Eff (Sys ω) Exn Unit := do
  let app ← getApp
  when (app.skillEventsEnabled && app.agentRegistry) do
    let _ ← call env (event app)
    return ()

def notifyAbandoned (waitSecs : Nat) : Eff (Sys ω) Exn Unit :=
  notifyRegistry env fun app =>
    .notifyCallAbandoned app.callId app.skillQueueId waitSecs app.allSkillGroups

def notifyGroupSwitch (fromGroup toGroup : String) : Eff (Sys ω) Exn Unit :=
  notifyRegistry env fun app => .notifyGroupSwitch app.callId fromGroup toGroup

def notifyTimeout (waitSecs : Nat) : Eff (Sys ω) Exn Unit :=
  notifyRegistry env fun app => .notifyCallTimeout app.callId app.skillQueueId waitSecs

def notifyNoAnswer (agentId : String) (attempt : Nat) (legId : String) : Eff (Sys ω) Exn Unit :=
  notifyRegistry env fun app =>
    .notifyAgentNoAnswer app.callId app.skillQueueId agentId attempt legId

def notifyRejected (agentId : String) (attempt : Nat) (legId : String) : Eff (Sys ω) Exn Unit :=
  notifyRegistry env fun app =>
    .notifyAgentRejected app.callId app.skillQueueId agentId attempt legId

def notifyConnected (agentId legId : String) : Eff (Sys ω) Exn Unit := do
  let t ← now
  notifyRegistry env fun app =>
    .notifyCallConnected app.callId app.skillQueueId agentId legId (app.waitSecs t)

def notifyFallback (reason action : String) : Eff (Sys ω) Exn Unit :=
  notifyRegistry env fun app => .notifyCallFallback app.callId app.skillQueueId reason action

def callIfAttached (event : QueueApp → RegistryCall) : Eff (Sys ω) Exn Unit := do
  let app ← getApp
  when app.agentRegistry do
    let _ ← call env (event app)
    return ()

def userPart (uri : String) : String :=
  (env.extractSipUsername uri).getD uri

def agentIdForUri (uri : String) : Eff (Sys ω) Exn String := do
  let app ← getApp
  let location := app.getAgents.find? fun l => env.uris.print l.aor = uri
  let uri := ((location.bind (·.registeredAor)).map env.uris.print).getD uri
  if app.agentRegistry then
    let agents ← call env .listAgents
    return ((agents.find? (·.uri = uri)).map (·.agentId)).getD (userPart env uri)
  else return userPart env uri

def displayName (agents : List AgentRecord) (agentUri : String) : String :=
  let user := userPart env agentUri
  let byUser := agents.find? fun a => env.extractSipUsername a.uri = some user
  match (agents.find? (·.uri = agentUri)).or byUser with
  | some a => if a.displayName = "" then user else a.displayName
  | none => user

def resolveAgentDisplayName (agentUri : String) : Eff (Sys ω) Exn String := do
  let app ← getApp
  if app.agentRegistry then
    let agents ← call env .listAgents
    return displayName env agents agentUri
  else return userPart env agentUri

def pinAgentForDial (agentId uri : String) : Eff (Sys ω) Exn Unit := do
  when (agentId ≠ "") do
    let name ← resolveAgentDisplayName env uri
    fire env (.pinAgentMeta agentId name)
    let app ← getApp
    fire env (.trace (.offering agentId name app.config.name app.skillQueueId))

def releasePhantomAgents (exclude : Option String) : Eff (Sys ω) Exn Unit := do
  let app ← getApp
  modifyApp ({ · with attemptedAgents := [] })
  when app.agentRegistry do
    each (fun agentId => when (some agentId ≠ exclude) do
      let _ ← call env (.releaseCall agentId app.callId)
      return ()) app.attemptedAgents

def agentAvailability (uri ownCallId : String) : Eff (Sys ω) Exn (Option Bool) := do
  let agents ← call env .listAgents
  match ((agents.find? (·.uri = uri)).map (·.agentId)).or (env.extractSipUsername uri) with
  | none => return none
  | some agentId =>
    let agent ← call env (.getAgent agentId)
    return agent.map fun a =>
      (a.hasCapacity && a.presence == .idle) || a.presence == .ringing (some ownCallId)

def registryAvailability (uri : String) : Eff (Sys ω) Exn (Option Bool) := do
  let app ← getApp
  if app.agentRegistry then agentAvailability env uri app.callId else return none

def isUnavailable (uri : String) : Eff (Sys ω) Exn Bool := do
  match ← registryAvailability env uri with
  | some available => return !available
  | none => isOfflineLocalUser env uri

def bareLocation (uri : String) : Location :=
  { aor := (env.uris.parse uri).toOption.getD env.defaultUri, contactRaw := some uri }

def enrichLocations (locations : List Location) : Eff (Sys ω) Exn (List Location) := do
  let app ← getApp
  if app.locationEnricher then await env (.enrich locations) else return locations

def enrichedHeaders (app : QueueApp) (uri : String) : Option (List Header) :=
  let location := app.getAgents.find? fun l => env.uris.print l.aor = uri
  (location.bind (·.headers)).filter fun headers =>
    headers.any fun h => Str.eqIgnoreAsciiCase h.name "User-to-User"

def enrichedLegHeadersFor (uri : String) : Eff (Sys ω) Exn (List Header) := do
  let app ← getApp
  match enrichedHeaders env app uri with
  | some headers => return headers
  | none =>
    let enriched ← enrichLocations env [bareLocation env uri]
    return (enriched.head?.bind (·.headers)).getD []

def clientRingOffer (uri : String) : Eff (Sys ω) Exn (List Header) := do
  let app ← getApp
  match app.ringPolicy.filter fun policy => !policy.serverOwned && app.agentRegistry with
  | none => return []
  | some policy =>
    let token ← call env (.prepareClientRingOffer uri app.callId policy)
    return token.toList.map fun t => .other "Call-Info" ("<" ++ t ++ ">;purpose=ring-timeout")

def currentRingPolicy : Eff (Sys ω) Exn (Option AgentRingPolicy) := do
  let app ← getApp
  if app.agentRegistry then ask env .agentRingPolicy else return none

def refreshRingPolicy : Eff (Sys ω) Exn Unit := do
  let app ← getApp
  when app.pendingAgents.isEmpty do
    let policy ← currentRingPolicy env
    modifyApp ({ · with ringPolicy := policy })

def legHeadersFor (uri : String) : Eff (Sys ω) Exn (List Header) := do
  refreshRingPolicy env
  let headers ← enrichedLegHeadersFor env uri
  let offer ← clientRingOffer env uri
  return headers.filter (fun h => (ringTimeoutOffer h).isNone) ++ offer

/-! ## Timers and playback -/

def armMaxWaitTimeout : Eff (Sys ω) Exn Unit := do
  let app ← getApp
  when (!app.maxWaitArmed && app.config.maxWaitSecs ≠ 0) do
    modifyApp ({ · with maxWaitArmed := true })
    setTimeout .maxWait (secs app.config.maxWaitSecs)

def armQueueRetry : Eff (Sys ω) Exn Unit := do
  let app ← getApp
  setTimeout .queueRetry (secs (max 1 app.config.retryIntervalSecs))

def deskRingTimeout : Eff (Sys ω) Exn (Option Nat) := do
  let app ← getApp
  if app.agentRegistry then ask env .agentRingTimeout else return none

def armRingTimeout : Eff (Sys ω) Exn Unit := do
  let desk ← deskRingTimeout env
  let app ← getApp
  setTimeout .agentRing (app.effectiveRingTimeout desk)

def armEscalationCheck : Eff (Sys ω) Exn Unit := do
  let app ← getApp
  let t ← now
  match app.nextEscalationCheckDelay t with
  | some delay => setTimeout .escalationCheck delay
  | none => return ()

def ensureAnswered : Eff (Sys ω) Exn Unit := do
  let app ← getApp
  when (!app.answered) do
    answerCall env
    modifyApp ({ · with answered := true })

def answerIfBusyPrompt : Eff (Sys ω) Exn Unit := do
  let app ← getApp
  when (app.busyPromptEnabled && (app.prompts.bind (·.busyPrompt)).isSome) (ensureAnswered env)

def startHoldMusic : Eff (Sys ω) Exn Unit := do
  let app ← getApp
  match app.plan.hold.bind (·.audioFile) with
  | some file =>
    let token ← playAudio env .hold file false true false
    modifyApp ({ · with holdPlayback := some token })
  | none => return ()

def startAgentRingback : Eff (Sys ω) Exn Unit := do
  modifyApp fun app =>
    { app with transferToken := none, comfortToken := none,
               state := .dialingAgents app.dialAttempts }
  let token ← playAudio env .ringback defaultQueueHoldAudio true true false
  modifyApp ({ · with holdPlayback := some token })

def announcePosition : Eff (Sys ω) Exn Unit := do
  let app ← getApp
  match app.prompts.bind (·.positionPrompt) with
  | some file =>
    let _ ← playAudio env .position file false false false
    return ()
  | none => return ()

def dueComfortPrompt (app : QueueApp) (t : Nat) : Option ComfortPrompt :=
  let prompts := (app.prompts.map (·.comfortPrompts)).getD []
  (prompts[app.comfortIndex % prompts.length]?).filter fun prompt =>
    app.lastComfortPlayed.all fun last => prompt.intervalSecs ≤ secsBetween last t

def maybePlayComfortOrEwt : Eff (Sys ω) Exn Unit := do
  let app ← getApp
  let t ← now
  match (dueComfortPrompt app t).filter fun _ => app.comfortPromptEnabled with
  | none => return ()
  | some prompt =>
    modifyApp ({ · with state := .playingComfortPrompt })
    let token ← playAudio env .comfort prompt.audioFile false false false
    modifyApp fun app =>
      { app with comfortToken := some token, comfortIndex := app.comfortIndex + 1,
                 lastComfortPlayed := some t }

def maybeStartTransferPrompt : Eff (Sys ω) Exn Unit := do
  let app ← getApp
  match (app.prompts.bind (·.transferPrompt)).filter fun _ =>
      app.transferPromptEnabled && !app.transferPromptPlayed with
  | none => return ()
  | some file =>
    modifyApp ({ · with transferPromptPlayed := true, holdPlayback := none })
    let token ← playAudio env .transfer file false false true
    modifyApp ({ · with transferToken := some token, state := .playingTransferPrompt none })

def expirePending : Eff (Sys ω) Exn (List (String × String)) :=
  modifyGet fun s =>
    (s.app.pendingAgents, { s with app := { s.app with
          pendingAgents := []
          timedOutLegs := s.app.timedOutLegs.union (s.app.pendingAgents.map (·.2)) } })

def fallbackAction (app : QueueApp) : AppAction × QueueError :=
  match app.plan.fallback with
  | some (.failure action) => (getFallbackAction action, .allAgentsUnavailable)
  | some (.redirect target) => (.transfer (env.uris.print target), .allAgentsUnavailable)
  | none => (.hangup true (some 486), .allAgentsUnavailableDefault)

def actionLabel : AppAction → String
  | .transfer target => "transfer:" ++ target
  | .hangup _ _ => "hangup"
  | _ => "other"

def executeFallback : Eff (Sys ω) Exn AppAction := do
  modifyApp ({ · with state := .executingFallback, fallbackExecuted := true })
  let ringing ← expirePending
  when (!ringing.isEmpty) do
    cancelTimeout .agentRing
    removeLegs env (ringing.map (·.2)) "ring_timeout"
  let app ← getApp
  let t ← now
  let fallback := fallbackAction env app
  fire env (.reportCallError fallback.2 (app.enqueuedAt.map (secsBetween · t)))
  notifyFallback env "no_agent" (actionLabel fallback.1)
  emitRwi (.queueFallbackExecuted (actionLabel fallback.1) "no_agent")
  return fallback.1

def playFinalDestinationPromptOrFallback : Eff (Sys ω) Exn AppAction := do
  let app ← getApp
  match app.prompts.bind (·.finalDestinationPrompt) with
  | none => executeFallback env
  | some file =>
    match ← attempt (playAudio env .final file false false false) with
    | .error _ => executeFallback env
    | .ok token =>
      modifyApp ({ · with state := .playingFinalPrompt, finalToken := some token })
      return .continue

def unavailablePrompt (app : QueueApp) : AgentUnavailableReason → Option String
  | .busy => (app.prompts.bind (·.busyPrompt)).filter fun _ => app.busyPromptEnabled
  | .noAnswer => (app.prompts.bind (·.noAnswerPrompt)).filter fun _ => app.noAnswerPromptEnabled

def AgentUnavailableReason.clip : AgentUnavailableReason → Clip
  | .busy => .busy
  | .noAnswer => .noAnswer

def QueueApp.promptStarted (app : QueueApp) (token : String) : AgentUnavailableReason → QueueApp
  | .busy => { app with state := .playingBusyPrompt, busyToken := some token }
  | .noAnswer => { app with state := .playingNoAnswerPrompt, noAnswerToken := some token }

def recordAbandoned : Eff (Sys ω) Exn Unit := do
  modifyApp ({ · with abandonedRecorded := true })
  let app ← getApp
  let t ← now
  notifyAbandoned env (app.waitSecs t)
  let app ← getApp
  emitRwi (.queueLeft .abandoned app.skillGroups)

def playUnavailablePromptAndThenFallback (reason : AgentUnavailableReason) :
    Eff (Sys ω) Exn AppAction := do
  recordAbandoned env
  let app ← getApp
  match unavailablePrompt app reason with
  | none => playFinalDestinationPromptOrFallback env
  | some file =>
    match ← attempt (playAudio env reason.clip file false false false) with
    | .error _ => playFinalDestinationPromptOrFallback env
    | .ok token =>
      modifyApp (·.promptStarted token reason)
      return .continue

def enterWaitingForAgent : Eff (Sys ω) Exn AppAction := do
  let app ← getApp
  if app.state = .waitingForAgent ∨ app.state = .playingComfortPrompt then
    callIfAttached env fun app => .fifoReleaseDispatch app.callId
    armQueueRetry
    return .continue
  else
    when (!app.targetedRecovery) (callIfAttached env fun _ => .reconcileDeadCallBindings)
    ensureAnswered env
    callIfAttached env fun app => .fifoReleaseDispatch app.callId
    callIfAttached env fun app => .fifoRegisterWait (app.targetGroup.getD app.config.name)
      app.callId app.caller (clampPriority app.config.priority)
    modifyApp ({ · with state := .waitingForAgent, ringingAgentLegs := [] })
    startHoldMusic env
    when app.config.announcePosition (announcePosition env)
    maybePlayComfortOrEwt env
    armMaxWaitTimeout
    armQueueRetry
    armEscalationCheck
    return .continue

/-- What happens when nobody is left to dial. A kick that comes after the call was given up is
ignored. -/
def noMoreAgents : Eff (Sys ω) Exn AppAction := do
  let app ← getApp
  if app.abandonedRecorded ∨ app.state ∈ [.playingBusyPrompt, .playingNoAnswerPrompt,
      .playingFinalPrompt, .executingFallback, .done] then return .continue
  else if app.allowsWaitRetention then
    modifyApp ({ · with dynamicAgents := none, currentAgentIdx := 0, pendingAgents := [] })
    cancelTimeout .agentRing
    enterWaitingForAgent env
  else playUnavailablePromptAndThenFallback env .busy

def QueueApp.nextAgent (app : QueueApp) : QueueApp :=
  { app with currentAgentIdx := app.currentAgentIdx + 1, dialAttempts := app.dialAttempts + 1 }

def QueueApp.pushPending (app : QueueApp) (uri leg : String) : QueueApp :=
  { app with pendingAgents := app.pendingAgents ++ [(uri, leg)] }

def offerTo (uri : String) : Eff (Sys ω) Exn (String × Except String String) := do
  callIfAttached env fun app => .fifoBeginDispatch app.callId
  let headers ← legHeadersFor env uri
  let agentId ← agentIdForUri env uri
  modifyApp (·.recordAttemptedAgent agentId)
  let app ← getApp
  when (!app.isParallel) (modifyApp ({ · with pendingAgents := [] }))
  pinAgentForDial env agentId uri
  let dialled ← attempt (originateCall env uri headers)
  return (agentId, dialled)

def releaseUndialled (agentId : String) : Eff (Sys ω) Exn Unit :=
  callIfAttached env fun app =>
    if app.targetedRecovery then .releaseUnansweredReservation agentId app.callId
    else .releaseCall agentId app.callId

/-- The list of agents stays the same throughout, so the recursion follows what is left of it. -/
def dialRound : List Location → Eff (Sys ω) Exn AppAction
  | [] => noMoreAgents env
  | location :: rest => do
    let uri := env.uris.print location.aor
    if ← isUnavailable env uri then
      modifyApp (·.nextAgent)
      dialRound rest
    else
      let offer ← offerTo env uri
      match offer.2 with
      | .ok leg =>
        modifyApp (·.pushPending uri leg)
        armRingTimeout env
        modifyApp fun app => { app with state := .dialingAgents app.dialAttempts }
        maybeStartTransferPrompt env
        return .continue
      | .error _ =>
        releaseUndialled env offer.1
        modifyApp (·.nextAgent)
        match rest with
        | [] => playUnavailablePromptAndThenFallback env .busy
        | _ :: _ => dialRound rest

def dialNextAgent : Eff (Sys ω) Exn AppAction := do
  let app ← getApp
  if app.fallbackExecuted then return .continue
  else dialRound env (app.getAgents.drop app.currentAgentIdx)

def rotateCandidates (target : String) (fresh : List String) :
    Eff (Sys ω) Exn (List String) := do
  let app ← getApp
  if fresh = [] ∧ app.noAnswerAgents ≠ [] then
    let uris ← call env (.resolveTargetWithPriority target app.callId
      (clampPriority app.config.priority))
    when (!uris.isEmpty) (modifyApp ({ · with noAnswerAgents := [] }))
    return uris
  else return fresh

def freshCandidates (target : String) : Eff (Sys ω) Exn (List String) := do
  let app ← getApp
  call env (.resolveTargetWithExclusions target app.callId (clampPriority app.config.priority)
    app.noAnswerAgents)

def healCandidates (target : String) (uris : List String) : Eff (Sys ω) Exn (List String) := do
  let app ← getApp
  if uris = [] ∧ app.targetedRecovery = false then
    let released ← call env .reconcileDeadCallBindings
    if 0 < released then freshCandidates env target else return []
  else return uris

def pollCandidates (group : String) : Eff (Sys ω) Exn (List String) := do
  let target := "skill-group:" ++ group
  let fresh ← freshCandidates env target
  let uris ← rotateCandidates env target fresh
  healCandidates env target uris

def QueueApp.pollsForAgents (app : QueueApp) : Bool :=
  match app.state with
  | .waitingForAgent | .playingComfortPrompt | .playingHold _ => true
  | _ => false

def tryOfferFromWait : Eff (Sys ω) Exn AppAction := do
  let app ← getApp
  if app.callAlreadyConnected || app.fallbackExecuted || !app.pollsForAgents then
    return .continue
  else
    match app.targetGroup.filter fun _ => app.agentRegistry with
    | none =>
      armQueueRetry
      return .continue
    | some group =>
      let uris ← pollCandidates env group
      if uris = [] then
        armQueueRetry
        return .continue
      else
        cancelTimeout .queueRetry
        let locations ← enrichLocations env (uris.map (bareLocation env))
        modifyApp
          ({ · with dynamicAgents := some locations, currentAgentIdx := 0, dialAttempts := 0 })
        when (app.state ≠ .playingComfortPrompt) (startHoldMusic env)
        dialNextAgent env

end

end RustPbx.Queue
