import RustPbx.Queue.Types

/-!
The state of one queued call and what the application reads off it.
-/

namespace RustPbx.Queue

open Sip Call Routing

structure QueueApp where
  plan : QueuePlan
  config : QueueConfig
  agentRegistry : Bool := false
  locationEnricher : Bool := false
  callId : String := ""
  caller : String := ""
  ringPolicy : Option AgentRingPolicy := none
  state : QueueState := .init
  holdPlayback : Option String := none
  answered : Bool := false
  currentAgentIdx : Nat := 0
  dialAttempts : Nat := 0
  dynamicAgents : Option (List Location) := none
  enqueuedAt : Option Nat := none
  /-- The agents being dialled, with their legs. -/
  pendingAgents : List (String × String) := []
  timedOutLegs : List String := []
  ringingAgentLegs : List String := []
  comfortIndex : Nat := 0
  lastComfortPlayed : Option Nat := none
  escalatedGroups : List String := []
  currentGroup : Option String := none
  stageStartedAt : Option Nat := none
  rwiGateway : Bool := false
  transferPromptPlayed : Bool := false
  transferPromptEnabled : Bool := true
  comfortPromptEnabled : Bool := true
  busyPromptEnabled : Bool := true
  agentRingbackEnabled : Bool := false
  noAnswerPromptEnabled : Bool := true
  transferToken : Option String := none
  serviceToken : Option String := none
  busyToken : Option String := none
  noAnswerToken : Option String := none
  comfortToken : Option String := none
  finalToken : Option String := none
  abandonedRecorded : Bool := false
  fallbackExecuted : Bool := false
  attemptedAgents : List String := []
  noAnswerAgents : List String := []
  maxWaitArmed : Bool := false
  maxWaitGraceUsed : Bool := false
  joinedEmittedExternally : Bool := false
  joinAttempt : Nat := 1
  targetedRecovery : Bool := false
  /-- The recoveries so far, with the legs that were pending after each. -/
  recoveryRequests : List (String × List String) := []

namespace QueueApp

variable (app : QueueApp)

def callAlreadyConnected : Bool :=
  match app.state with
  | .connected _ | .playingServicePrompt _ | .playingTransferPrompt (some _) => true
  | _ => false

def getAgents : List Location :=
  match app.dynamicAgents with
  | some agents => agents
  | none =>
    match app.plan.dialStrategy with
    | some (.sequential locations) | some (.parallel locations) => locations
    | none => []

def isParallel : Bool :=
  match app.plan.dialStrategy with
  | some (.parallel _) => true
  | _ => false

def skillEventsEnabled : Bool :=
  app.config.skillRoutingEnabled || app.config.skillGroup.isSome

def skillQueueId : String :=
  app.currentGroup.getD (app.config.skillGroup.getD app.config.name)

def allSkillGroups : List String :=
  app.escalatedGroups.foldl (fun out group => if group ∈ out then out else out ++ [group])
    (app.config.skillGroup.toList.filter (· ≠ ""))

def skillGroups : Option (List String) :=
  if app.allSkillGroups = [] then none else some app.allSkillGroups

def eventPriority : Option Nat :=
  if app.config.priority ≠ 0 then some app.config.priority else none

def allowsWaitRetention : Bool :=
  app.config.skillGroup.isSome && app.agentRegistry

def targetGroup : Option String :=
  app.currentGroup.or app.config.skillGroup

def prompts : Option VoicePrompts :=
  app.plan.voicePrompts.or app.config.voicePrompts

def waitSecs (now : Nat) : Nat :=
  (app.enqueuedAt.map (secsBetween · now)).getD 0

def stageWaitSecs (now : Nat) : Nat :=
  match app.config.escalationMode with
  | .sequential => ((app.stageStartedAt.or app.enqueuedAt).map (secsBetween · now)).getD 0
  | _ => app.waitSecs now

def nextEscalationCheckDelay (now : Nat) : Option Nat :=
  let remaining := app.config.escalationTimeline.filter (·.addSkillGroup ∉ app.escalatedGroups)
  (remaining.map (·.thresholdSecs)).min?.map fun next =>
    secs (max 1 (min 10 (next - app.stageWaitSecs now)))

def dueStep (now : Nat) : Option EscalationStep :=
  app.config.escalationTimeline.find? fun step =>
    step.thresholdSecs ≤ app.stageWaitSecs now && step.addSkillGroup ∉ app.escalatedGroups

def waitsInQueue : Bool :=
  match app.state with
  | .waitingForAgent | .playingHold _ | .playingComfortPrompt | .dialingAgents _
  | .playingTransferPrompt none => true
  | _ => false

def recordAttemptedAgent (agentId : String) : QueueApp :=
  if agentId = "" ∨ agentId ∈ app.attemptedAgents then app
  else { app with attemptedAgents := app.attemptedAgents ++ [agentId] }

def recordNoAnswerAgent (agentId : String) : QueueApp :=
  if agentId = "" ∨ agentId ∈ app.noAnswerAgents then app
  else { app with noAnswerAgents := app.noAnswerAgents ++ [agentId] }

def policyRingTimeout (desk : Option Nat) : Nat :=
  match app.pendingAgents, app.ringPolicy with
  | _ :: _, some policy => policy.timeout
  | _, _ => desk.getD (secs 30)

def effectiveRingTimeout (desk : Option Nat) : Nat :=
  match app.config.ringTimeout with
  | some configured =>
    if desk.all (· = secs 30) then configured else app.policyRingTimeout desk
  | none => app.policyRingTimeout desk

end QueueApp

def trackMatches (token : Option String) (trackId : String) : Bool :=
  token.all (· = trackId)

def getFallbackAction : FailureAction → AppAction
  | .hangup code reason => .hangup reason.isSome code
  | .playThenHangup _ _ statusCode reason => .hangup reason.isSome (some statusCode)
  | .transfer (.uri uri) => .transfer uri
  | .transfer (.queue name) => .transfer ("queue:" ++ name)
  | .transfer (.routePoint point) => .transfer ("toivr:" ++ point)
  | .transfer (.ivr name) => .transfer ("ivr:" ++ name)
  | .transfer (.voicemail ext) => .transfer ("voicemail:" ++ ext)
  | .transfer (.conference id) => .transfer ("conference:" ++ id)
  | .transfer (.realtime preset) => .transfer ("realtime:" ++ preset)

def ringTimeoutOffer (header : Header) : Option String :=
  if Str.eqIgnoreAsciiCase header.name "Call-Info" then do
    let parts ← Str.splitOnce ';' header.value.toList
    let opened ← Str.stripChar '<' (Str.trimChars parts.1)
    let closed ← Str.stripChar '>' opened.reverse
    let uri := String.ofList closed.reverse
    if Str.trimChars parts.2 = "purpose=ring-timeout".toList ∧ Str.startsWith uri "urn:uuid:" then
      some uri
    else none
  else none

end RustPbx.Queue
