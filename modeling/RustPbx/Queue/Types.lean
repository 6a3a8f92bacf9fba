import RustPbx.Routing.QueuePlan

/-!
The data of the queue application: the agents behind the registry, the configuration of a queue,
the signals it reacts to, what it asks of the outside and what it reports.
-/

namespace RustPbx.Queue

open Sip Call Routing

def secs (n : Nat) : Nat := n * 10 ^ 9

def secsBetween (start now : Nat) : Nat := (now - start) / 10 ^ 9

inductive PresenceState where
  | offline
  | away (detail : String)
  | idle
  | ringing (callId : Option String)
  | busy (callId : Option String)
  | wrapup (callId : Option String)
  | dnd
  deriving DecidableEq

structure AgentRingPolicy where
  timeout : Nat
  serverOwned : Bool
  noAnswerState : PresenceState

structure AgentRecord where
  agentId : String
  displayName : String := ""
  uri : String
  maxConcurrency : Nat := 1
  currentCalls : Nat := 0
  presence : PresenceState := .idle

def AgentRecord.hasCapacity (agent : AgentRecord) : Bool :=
  agent.currentCalls < agent.maxConcurrency && agent.presence == .idle

inductive RoutingStrategy where
  | longestIdle
  | roundRobin
  | skillBased
  | leastCalls
  | external

structure AgentRejectOutcome where
  streak : Nat := 0
  deriving DecidableEq

inductive AssignFailReason where
  | rejected
  | noAnswer

structure AssignFailedAlert where
  callId : String
  queueId : String
  agentId : String
  attempt : Nat
  reason : AssignFailReason
  sipStatus : Option Nat := none
  outcome : Option AgentRejectOutcome := none

inductive EscalationMode where
  | replace
  | cumulative
  | sequential
  deriving DecidableEq

structure EscalationStep where
  thresholdSecs : Nat
  addSkillGroup : String
  fair : Bool := false

structure QueueConfig where
  name : String := ""
  ringTimeout : Option Nat := none
  skillRoutingEnabled : Bool := false
  requiredSkills : List String := []
  maxWaitSecs : Nat := 7200
  announcePosition : Bool := false
  retryIntervalSecs : Nat := 5
  autonomousRouting : Bool := false
  routingStrategy : RoutingStrategy := .longestIdle
  voicePrompts : Option VoicePrompts := none
  escalationMode : EscalationMode := .replace
  escalationTimeline : List EscalationStep := []
  skillGroup : Option String := none
  priority : Nat := 0

def clampPriority (priority : Nat) : Nat := min priority (2 ^ 31 - 1)

structure ApplicationContext where
  caller : String
  queueTransferPromptEnabled : Bool
  queueComfortPromptEnabled : Bool
  queueBusyPromptEnabled : Bool
  queueAgentRingbackEnabled : Bool
  queueNoAnswerPromptEnabled : Bool
  /-- Whether there is a gateway to send lifecycle events to. -/
  rwiGateway : Bool

inductive QueueState where
  | init
  | answering
  | playingHold (attempt : Nat)
  | waitingForAgent
  | playingTransferPrompt (connectedAgent : Option String)
  | playingBusyPrompt
  | playingNoAnswerPrompt
  | dialingAgents (attempt : Nat)
  | connected (agentUri : String)
  | playingServicePrompt (agentUri : String)
  | executingFallback
  | playingComfortPrompt
  | playingFinalPrompt
  | done
  deriving DecidableEq

inductive AgentUnavailableReason where
  | busy
  | noAnswer
  deriving DecidableEq

inductive QueueSignal where
  | agentRinging (legId agentUri : String) (agentId : Option String)
  | agentConnected (legId : Option String) (agentUri : String) (agentId : Option String)
  | agentBusy (legId agentUri : Option String) (agentId reason : String)
  | agentNoAnswer (legId agentUri : Option String) (agentId reason : String)
  | dialNext
  | allAgentsBusy
  deriving DecidableEq

inductive Timer where
  | agentRing
  | maxWait
  | queueRetry
  | escalationCheck
  | other (id : String)
  deriving DecidableEq

inductive AppAction where
  | continue
  | exit
  | hangup (serverUnavailable : Bool) (code : Option UInt16)
  | transfer (target : String)

/-- A live query of the dispatch of a call, possibly with the order to repair it. -/
structure QueueDiagnosticRequest where
  recover : Bool
  requestId : String
  expectedSkillGroup : Option String := none
  deadline : Nat
  expectedAppExecutionId : Option Nat := none
  liveAgentLegs : Option Nat := none
  liveTransferInProgress : Option Bool := none
  liveCallerConnected : Option Bool := none
  deriving DecidableEq

inductive DispatchReason where
  | transferInProgress
  | activeAgentLeg
  | callerNotConnected
  | liveSessionEvidenceIncomplete
  | alreadyConnected
  | dialInProgress
  | fallbackInProgress
  | dispatchStalled
  | retryMissing
  | healthyWaiting
  | notRecoverable
  | skillGroupChanged
  deriving DecidableEq

inductive DispatchOutcome where
  | observed
  | rejected
  | alreadyProcessed
  | dialRequested
  | retryArmed
  | noDispatch
  deriving DecidableEq

structure QueueDispatchDiagnostic where
  sessionId : String
  queueId : String
  skillGroupId : Option String
  state : QueueState
  pendingDials : Nat
  ringingLegs : Nat
  retryArmed : Bool
  waitSecs : Nat
  recoverable : Bool
  reason : DispatchReason
  outcome : DispatchOutcome
  candidateCount : Nat
  candidatePreview : List String
  deriving DecidableEq

def maxRecoveryRequests : Nat := 64

/-- What is being played: each kind of clip is started at one place of the application. -/
inductive Clip where
  | hold
  | ringback
  | comfort
  | transfer
  | service
  | busy
  | noAnswer
  | final
  | position
  deriving DecidableEq

inductive QueueError where
  | noAgents
  | noAgentsSkill
  | allAgentsUnavailable
  | allAgentsUnavailableDefault
  deriving DecidableEq

inductive TraceEvent where
  | offering (agentId agentName queueName skillGroup : String)
  | rejected (agentId : String) (attempt : Nat) (queueId : String) (outcome : AgentRejectOutcome)
  | noAnswer (agentId : String) (attempt : Nat) (queueId : String)
  deriving DecidableEq

inductive Notice where
  | agentRinging (agentId agentUri : String)
  | agentRejected (agentId : String)
  | agentNoAnswer (agentId : String)
  | timeout (waitSecs : Nat)
  deriving DecidableEq

/-- A guarded dial: the request that recovers the dispatch and the generation it was issued to. -/
structure RecoveryDial where
  requestId : String
  appExecutionId : Nat
  deadline : Nat
  deriving DecidableEq

inductive Command where
  | answer
  | play (clip : Clip) (file : String) (loopPlayback interruptible sideOnly : Bool)
      (trackId : String)
  | legAdd (target legId : String) (headers : List (String × String))
      (recovery : Option RecoveryDial)
  | bridge (legId : String)
  | unhold
  | legRemove (legId reason : String)
  | pinAgentMeta (agentId agentName : String)
  | trace (event : TraceEvent)
  | reportCallError (error : QueueError) (waitSecs : Option Nat)
  | updateQueueMeta (skillGroup : String)
  | injectAppEvent (notice : Notice)
  | probeOfflineTarget (target : String)
  | hangup (serverUnavailable : Bool) (code : Option UInt16)
  | transfer (target : String)
  deriving DecidableEq

inductive LeftReason where
  | connected
  | abandoned
  | overflow
  deriving DecidableEq

inductive Event where
  | queueJoined (skillGroups : Option (List String)) (priority attempt : Option Nat)
  | queueLeft (reason : LeftReason) (skillGroups : Option (List String))
  | queueOverflowJoined (skillGroup : String) (priority : Option Nat)
  | queueAgentOffered (agentId legId : String)
  | queueAgentConnected (agentId legId : String)
  | queueAgentRejected (agentId : String) (attempt : Nat) (legId : Option String)
  | queueAgentNoAnswer (agentId : String) (attempt : Nat) (legId : String)
  | queueWaitTimeout
  | queueFallbackExecuted (action reason : String)
  deriving DecidableEq

inductive Output where
  /-- A command, and whether the session took it. -/
  | command (cmd : Command) (accepted : Bool)
  | rwi (callId queueId : String) (event : Event)
  | setTimeout (id : Timer) (delay : Nat)
  | cancelTimeout (id : Timer)
  | respond (requestId : String) (reply : Except String QueueDispatchDiagnostic)
  deriving DecidableEq

structure Entry where
  time : Nat
  output : Output
  deriving DecidableEq

end RustPbx.Queue
