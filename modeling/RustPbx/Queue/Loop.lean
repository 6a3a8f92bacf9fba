import RustPbx.Queue.Callbacks

/-!
The event loop that drives the queue application.

Between two callbacks the world drifts and time passes. `Runs env P` are the runs whose callbacks
all meet the condition `P` on the state and the input they start with.
-/

namespace RustPbx.Queue

inductive Phase where
  | start
  | running
  | closing
  | done
  /-- Ended by an error, without leaving the application. -/
  | failed
  deriving DecidableEq

/-- The event loop: its phase, the callback state and the inputs handed over so far. -/
structure Config (ω : Type) where
  phase : Phase
  sys : Sys ω
  inputs : List Input := []

section

variable (env : Env ω)

def conclude (cmd : Command) (s : Sys ω) : Phase × Sys ω :=
  match (send env cmd).run s with
  | (.ok _, s') => (.closing, s')
  | (.error _, s') => (.failed, s')

/-- What the loop does after a callback; a call that was cancelled meanwhile is closed. -/
def proceed (cancelled : Bool) : Except Exn AppAction × Sys ω → Phase × Sys ω
  | (.ok action, s) =>
    if cancelled then (.closing, s)
    else match action with
      | .continue => (.running, s)
      | .exit => (.closing, s)
      | .hangup serverUnavailable code => conclude env (.hangup serverUnavailable code) s
      | .transfer target => conclude env (.transfer target) s
  | (.error .cancelled, s) => (.closing, s)
  | (.error _, s) => (.failed, s)

def leave (s : Sys ω) : Phase × Sys ω :=
  match (onExit env).run { s with cancellable := false } with
  | (.ok _, s') => (.done, s')
  | (.error _, s') => (.failed, s')

theorem leave_phase (s : Sys ω) : (leave env s).1 ≠ .start ∧ (leave env s).1 ≠ .running := by
  unfold leave
  split <;> exact ⟨nofun, nofun⟩

/-- What may have changed when the next callback starts. -/
structure Drifts (s s' : Sys ω) : Prop where
  world : env.drift s.world s'.world
  clock : s.clock ≤ s'.clock
  rest : s' = { s with world := s'.world, clock := s'.clock, armed := s'.armed }

inductive LoopStep (P : Config ω → Input → Prop) : Config ω → Config ω → Prop
  | enter (ctx : ApplicationContext) (cancelled : Bool) (s : Sys ω) :
      LoopStep P ⟨.start, s, []⟩ ⟨(proceed env cancelled ((onEnter env ctx).run s)).1,
          (proceed env cancelled ((onEnter env ctx).run s)).2, []⟩
  | drift {s s' : Sys ω} {inputs : List Input} (h : Drifts env s s') :
      LoopStep P ⟨.running, s, inputs⟩ ⟨.running, s', inputs⟩
  | callback (cancelled : Bool) {s : Sys ω} {inputs : List Input} {input : Input}
      (h : P ⟨.running, s, inputs⟩ input) :
      LoopStep P ⟨.running, s, inputs⟩ ⟨(proceed env cancelled ((dispatch env input).run s)).1,
          (proceed env cancelled ((dispatch env input).run s)).2, inputs ++ [input]⟩
  | quit {s : Sys ω} {inputs : List Input} :
      LoopStep P ⟨.running, s, inputs⟩ ⟨.closing, s, inputs⟩
  | exit {s : Sys ω} {inputs : List Input} :
      LoopStep P ⟨.closing, s, inputs⟩ ⟨(leave env s).1, (leave env s).2, inputs⟩

/-- The runs of the event loop whose callbacks meet a condition. -/
def Runs (P : Config ω → Input → Prop) : Config ω → Config ω → Prop :=
  Relation.ReflTransGen (LoopStep env P)

structure Setup where
  plan : Routing.QueuePlan
  config : QueueConfig
  agentRegistry : Bool := false
  locationEnricher : Bool := false
  callId : String := ""
  joinedEmittedExternally : Bool := false

def Setup.app (setup : Setup) : QueueApp :=
  { plan := setup.plan
    config := setup.config
    agentRegistry := setup.agentRegistry
    locationEnricher := setup.locationEnricher
    callId := setup.callId
    joinedEmittedExternally := setup.joinedEmittedExternally }

def Setup.start (setup : Setup) (world : ω) (clock : Nat) : Config ω :=
  { phase := .start, sys := { app := setup.app, world, clock } }

/-! ## Playing inputs -/

def Config.enter (ctx : ApplicationContext) (c : Config ω) : Config ω :=
  ⟨(proceed env false ((onEnter env ctx).run c.sys)).1,
    (proceed env false ((onEnter env ctx).run c.sys)).2, []⟩

def Config.hand (input : Input) (c : Config ω) : Config ω :=
  match c.phase with
  | .running =>
    ⟨(proceed env false ((dispatch env input).run c.sys)).1,
      (proceed env false ((dispatch env input).run c.sys)).2, c.inputs ++ [input]⟩
  | _ => c

def Config.play (inputs : List Input) (c : Config ω) : Config ω :=
  inputs.foldl (fun c input => c.hand env input) c

def Config.wait (lapse : Nat) (c : Config ω) : Config ω :=
  { c with sys := { c.sys with clock := c.sys.clock + lapse } }

def Config.close (c : Config ω) : Config ω :=
  match c.phase with
  | .running | .closing => ⟨(leave env c.sys).1, (leave env c.sys).2, c.inputs⟩
  | _ => c

variable {env}

theorem LoopStep.mono (hPQ : ∀ c input, P c input → Q c input)
    (h : LoopStep env P c c') : LoopStep env Q c c' := by
  cases h with
  | enter ctx cancelled s => exact .enter ctx cancelled s
  | drift h => exact .drift h
  | callback cancelled h => exact .callback cancelled (hPQ _ _ h)
  | quit => exact .quit
  | exit => exact .exit

theorem runs_enter (setup : Setup) (world : ω) (clock : Nat) (ctx : ApplicationContext) :
    Runs env P (setup.start world clock) ((setup.start world clock).enter env ctx) :=
  .single (.enter ctx false _)

theorem runs_hand (h : P c input) : Runs env P c (c.hand env input) := by
  obtain ⟨phase, s, inputs⟩ := c
  cases phase with
  | running => exact .single (.callback false h)
  | _ => exact .refl

theorem runs_wait (hphase : c.phase = .running) (hdrift : env.drift c.sys.world c.sys.world) :
    Runs env P c (c.wait lapse) := by
  obtain ⟨phase, s, inputs⟩ := c
  obtain rfl : phase = .running := hphase
  exact .single (.drift ⟨hdrift, Nat.le_add_right _ _, rfl⟩)

theorem runs_close : Runs env P c (c.close env) := by
  obtain ⟨phase, s, inputs⟩ := c
  cases phase with
  | running => exact .head .quit (.single .exit)
  | closing => exact .single .exit
  | _ => exact .refl

theorem runs_play
    (h : ∀ i (hi : i < inputs.length), P (c.play env (inputs.take i)) (inputs.get ⟨i, hi⟩)) :
    Runs env P c (c.play env inputs) := by
  induction inputs generalizing c with
  | nil => exact .refl
  | cons input inputs ih =>
    have hhead : Runs env P c (c.hand env input) := runs_hand (h 0 (by simp))
    exact hhead.trans (ih fun i hi => h (i + 1) (by simpa using hi))

end

/-- An outside in which every command is accepted, nobody is registered and no time passes. -/
def Env.idle : Env Unit where
  uris :=
    { parse := fun s => .ok ⟨none, some ⟨s, none⟩, ⟨.domain [], none⟩, []⟩
      print := fun uri => (uri.auth.map (·.user)).getD ""
      parseHostWithPort := fun _ => .error "" }
  defaultUri := ⟨none, none, ⟨.domain [], none⟩, []⟩
  extractSipUsername := some
  urlencode := id
  uuid n := toString n
  answer
    | .registry c, w =>
      (match c with
      | .listAgents | .findAvailableAgents _ => []
      | .getAgent _ | .selectAgent _ _ _ _ => none
      | .noteAgentRejected _ _ _ => {}
      | .prepareClientRingOffer _ _ _ => none
      | .agentsRingingForCall _ | .resolveTarget _ | .resolveTargetWithPriority _ _ _
      | .resolveTargetWithExclusions _ _ _ _ | .resolveEscalationTargets _ _ _ _ _ => []
      | .releaseCall _ _ | .releaseUnansweredReservation _ _ => false
      | .reconcileDeadCallBindings => (0 : Nat)
      | .updatePresence _ _ | .noteAgentNoAnswer _ _ _ | .emitAssignFailedAlert _
      | .expireClientRingOffer _ _ | .fifoRegisterWait _ _ _ _ | .fifoBeginDispatch _
      | .fifoReleaseDispatch _ | .notifyCallAbandoned _ _ _ _ | .notifyGroupSwitch _ _ _
      | .notifyCallTimeout _ _ _ | .notifyAgentNoAnswer _ _ _ _ _
      | .notifyAgentRejected _ _ _ _ _ | .notifyCallConnected _ _ _ _ _
      | .notifyCallFallback _ _ _ _ => (), w)
    | .agentRingTimeout, w => (none, w)
    | .agentRingPolicy, w => (none, w)
    | .supportsSkillGroupDispatch, w => (false, w)
    | .send _, w => (.ok (), w)
    | .offline _, w => (false, w)
    | .enrich locations, w => (locations, w)
    | .replyClosed _, w => (false, w)
    | .await, w => ({}, w)
  drift _ _ := True

end RustPbx.Queue
