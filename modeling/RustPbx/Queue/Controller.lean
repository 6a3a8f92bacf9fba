import RustPbx.Queue.App

/-!
What a callback of the queue application runs on.

Everything outside the application is a world that answers requests: the agent registry, the session
that takes the commands, the scheduler at each await. `Env` holds the answers, over any type of
worlds. A callback is cut off at an await when the call is cancelled, and a recovery when its
deadline has passed.
-/

namespace RustPbx.Queue

open Sip Call Routing Eff

/-! ## The world -/

inductive RegistryCall where
  | listAgents
  | getAgent (agentId : String)
  | updatePresence (agentId : String) (state : PresenceState)
  | noteAgentNoAnswer (agentId callId : String) (policy : Option AgentRingPolicy)
  | noteAgentRejected (agentId callId : String) (policy : Option AgentRingPolicy)
  | emitAssignFailedAlert (alert : AssignFailedAlert)
  | prepareClientRingOffer (uri callId : String) (policy : AgentRingPolicy)
  | expireClientRingOffer (uri callId : String)
  | findAvailableAgents (skills : List String)
  | agentsRingingForCall (callId : String)
  | selectAgent (skills : List String) (strategy : RoutingStrategy) (callId : String)
      (priority : Nat)
  | resolveTarget (target : String)
  | resolveTargetWithPriority (target callId : String) (priority : Nat)
  | resolveTargetWithExclusions (target callId : String) (priority : Nat)
      (excluded : List String)
  | resolveEscalationTargets (primary : String) (groups : List String) (callId : String)
      (fair includePrimary : Bool)
  | fifoRegisterWait (queueId callId caller : String) (priority : Nat)
  | fifoBeginDispatch (callId : String)
  | fifoReleaseDispatch (callId : String)
  | notifyCallAbandoned (callId queueId : String) (waitSecs : Nat) (groups : List String)
  | notifyGroupSwitch (callId fromGroup toGroup : String)
  | notifyCallTimeout (callId queueId : String) (waitSecs : Nat)
  | notifyAgentNoAnswer (callId queueId agentId : String) (attempt : Nat) (legId : String)
  | notifyAgentRejected (callId queueId agentId : String) (attempt : Nat) (legId : String)
  | notifyCallConnected (callId queueId agentId legId : String) (waitSecs : Nat)
  | notifyCallFallback (callId queueId reason action : String)
  | releaseCall (agentId callId : String)
  | releaseUnansweredReservation (agentId callId : String)
  | reconcileDeadCallBindings

@[reducible] def RegistryCall.Reply : RegistryCall → Type
  | .listAgents | .findAvailableAgents _ => List AgentRecord
  | .getAgent _ | .selectAgent _ _ _ _ => Option AgentRecord
  | .noteAgentRejected _ _ _ => AgentRejectOutcome
  | .prepareClientRingOffer _ _ _ => Option String
  | .agentsRingingForCall _ | .resolveTarget _ | .resolveTargetWithPriority _ _ _
  | .resolveTargetWithExclusions _ _ _ _ | .resolveEscalationTargets _ _ _ _ _ => List String
  | .releaseCall _ _ | .releaseUnansweredReservation _ _ => Bool
  | .reconcileDeadCallBindings => Nat
  | _ => Unit

structure Await where
  lapse : Nat := 0
  cancelled : Bool := false
  /-- A deadline that has passed is noticed. -/
  overdue : Bool := false

inductive Request where
  | registry (call : RegistryCall)
  | agentRingTimeout
  | agentRingPolicy
  | supportsSkillGroupDispatch
  | send (cmd : Command)
  /-- The session's answer to a probe: the target is a local user without a registration. -/
  | offline (target : String)
  | enrich (locations : List Location)
  /-- Nobody waits any more for the reply to a diagnostic request. -/
  | replyClosed (requestId : String)
  | await

@[reducible] def Request.Reply : Request → Type
  | .registry call => call.Reply
  | .agentRingTimeout => Option Nat
  | .agentRingPolicy => Option AgentRingPolicy
  | .send _ => Except String Unit
  | .supportsSkillGroupDispatch | .offline _ | .replyClosed _ => Bool
  | .enrich _ => List Location
  | .await => Await

/-- The outside of the application, over worlds `ω`. -/
structure Env (ω : Type) where
  uris : UriLib
  defaultUri : Uri
  extractSipUsername : String → Option String
  urlencode : String → String
  /-- The identifiers that are generated, in order. -/
  uuid : Nat → String
  answer : (r : Request) → ω → r.Reply × ω
  /-- How the world may change while no callback runs. -/
  drift : ω → ω → Prop

/-- How a callback ends without an action. -/
inductive Exn where
  | error (message : String)
  | cancelled
  | expired

structure Sys (ω : Type) where
  app : QueueApp
  world : ω
  clock : Nat := 0
  log : List Entry := []
  /-- How many identifiers were generated. -/
  issued : Nat := 0
  armed : List Timer := []
  recovery : Option QueueDiagnosticRequest := none
  /-- The deadline of the running recovery. -/
  deadline : Option Nat := none
  /-- Whether the event loop drops the callback when the call is cancelled. -/
  cancellable : Bool := true

/-! ## Primitives -/

section

variable (env : Env ω)

def Sys.record (s : Sys ω) (output : Output) : Sys ω :=
  { s with log := s.log ++ [⟨s.clock, output⟩] }

def record (output : Output) : Eff (Sys ω) Exn Unit :=
  modify (·.record output)

def ask (r : Request) : Eff (Sys ω) Exn r.Reply :=
  modifyGet fun s => ((env.answer r s.world).1, { s with world := (env.answer r s.world).2 })

def getApp : Eff (Sys ω) Exn QueueApp := do
  let s ← get
  return s.app

def modifyApp (f : QueueApp → QueueApp) : Eff (Sys ω) Exn Unit :=
  modify fun s => { s with app := f s.app }

def now : Eff (Sys ω) Exn Nat := do
  let s ← get
  return s.clock

def tick (lapse : Nat) : Eff (Sys ω) Exn Unit :=
  modify fun s => { s with clock := s.clock + lapse }

def pause : Eff (Sys ω) Exn Unit := do
  let a ← ask env .await
  tick a.lapse
  let s ← get
  if a.cancelled && s.cancellable then fail .cancelled
  else if a.overdue && s.deadline.any (· ≤ s.clock) then fail .expired
  else return ()

def await (r : Request) : Eff (Sys ω) Exn r.Reply := do
  pause env
  let reply ← ask env r
  pause env
  return reply

def call (c : RegistryCall) : Eff (Sys ω) Exn c.Reply :=
  await env (.registry c)

def newUuid : Eff (Sys ω) Exn String :=
  modifyGet fun s => (env.uuid s.issued, { s with issued := s.issued + 1 })

def trySend (cmd : Command) : Eff (Sys ω) Exn (Except String Unit) := do
  let reply ← ask env (.send cmd)
  record (.command cmd reply.isOk)
  return reply

def send (cmd : Command) : Eff (Sys ω) Exn Unit := do
  let reply ← trySend env cmd
  ofExcept (reply.mapError .error)

def fire (cmd : Command) : Eff (Sys ω) Exn Unit := do
  let _ ← trySend env cmd
  return ()

/-- Look at the error of a computation; being cut off is not one. -/
def attempt (x : Eff (Sys ω) Exn α) : Eff (Sys ω) Exn (Except String α) :=
  x.attempt fun
    | .error message => some message
    | _ => none

def setTimeout (id : Timer) (delay : Nat) : Eff (Sys ω) Exn Unit := do
  record (.setTimeout id delay)
  modify fun s => { s with armed := s.armed.insert id }

def cancelTimeout (id : Timer) : Eff (Sys ω) Exn Unit := do
  record (.cancelTimeout id)
  modify fun s => { s with armed := s.armed.erase id }

def emitRwi (event : Event) : Eff (Sys ω) Exn Unit := do
  let app ← getApp
  if app.rwiGateway then record (.rwi app.callId app.config.name event) else return ()

def answerCall : Eff (Sys ω) Exn Unit :=
  send env .answer

def playAudio (clip : Clip) (file : String) (loopPlayback interruptible sideOnly : Bool) :
    Eff (Sys ω) Exn String := do
  let trackId ← newUuid env
  send env (.play clip file loopPlayback interruptible sideOnly trackId)
  return trackId

def requestExpired (request : QueueDiagnosticRequest) : Eff (Sys ω) Exn Bool := do
  let t ← now
  let closed ← ask env (.replyClosed request.requestId)
  return request.deadline ≤ t || closed

def recoveryDial : Option QueueDiagnosticRequest → Eff (Sys ω) Exn (Option RecoveryDial)
  | none => return none
  | some request => do
    if ← requestExpired env request then fail (.error "request_expired")
    else match request.expectedAppExecutionId with
      | none => fail (.error "queue_generation_unavailable")
      | some id => return some ⟨request.requestId, id, request.deadline⟩

def originateCall (target : String) (headers : List Header) : Eff (Sys ω) Exn String := do
  let legId ← newUuid env
  let s ← get
  let recovery ← recoveryDial env s.recovery
  send env (.legAdd target legId (headers.map fun h => (h.name, h.value)) recovery)
  return legId

def isOfflineLocalUser (target : String) : Eff (Sys ω) Exn Bool := do
  match ← trySend env (.probeOfflineTarget target) with
  | .error _ => return false
  | .ok _ => await env (.offline target)

def removeLegs (legs : List String) (reason : String) : Eff (Sys ω) Exn Unit :=
  each (fun leg => fire env (.legRemove leg reason)) legs

def notifyEvent (notice : Notice) : Eff (Sys ω) Exn Unit :=
  send env (.injectAppEvent notice)

end

end RustPbx.Queue
