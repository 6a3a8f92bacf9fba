import Mathlib.Data.List.Nodup
import RustPbx.Lib.Machine

/-!
The event loop of a call application.

The loop is a machine that stops at every await and at the top of its loop; what comes next is the
input of a step. The applications of a chain are numbered in their order. A select that is cut off
takes its cancelled branch, which it can do only once the token is cancelled.
-/

namespace RustPbx.App

open Option

inductive CallRecordHangupReason where
  | byCaller
  | byCallee
  | byRefer
  | bySystem
  | autohangup
  | noAnswer
  | noBalance
  | answerMachine
  | serverUnavailable
  | canceled
  | rejected
  | failed
  | rtpTimeout
  | abandoned
  | other (text : String)

inductive ExitReason where
  | normal
  | hangup
  | remoteHangup (reason : Option CallRecordHangupReason)
  | transferred
  | chained
  | cancelled
  | error (message : String)

inductive AppAction (α : Type) where
  | continue
  | exit
  | transfer (target : String)
  | chain (next : α)
  | hangup (reason : Option CallRecordHangupReason) (code : Option UInt16)
  | sleep (duration : Nat)

/-- What a controller can hand over. `π` is the type of what the loop only passes on. -/
inductive ControllerEvent (π : Type) where
  | queueDiagnostic (requestId : String)
  | dtmfReceived (digit : String)
  | audioComplete (trackId : String) (interrupted : Bool)
  | recordingComplete (info : π)
  | transferResult (outcome : π)
  | hangup (reason : Option CallRecordHangupReason)
  | timeout (id : String)
  | custom (name : String) (data : π)

inductive AppEvent (π : Type) where
  | transferResult (outcome : π)
  | custom (name : String) (data : π)

inductive Handler (π : Type) where
  | onQueueDiagnostic (requestId : String)
  | onDtmf (digit : String)
  | onAudioComplete (trackId : String)
  | onRecordComplete (info : π)
  | onExternalEvent (event : AppEvent π)
  | onTimeout (id : String)

/-- A call that the loop makes, on the application with a number or on the controller. -/
inductive LoopCall (π : Type) where
  | onEnter (app : Nat)
  | handler (app : Nat) (handler : Handler π)
  | onExit (app : Nat) (reason : ExitReason)
  | hangup (reason : Option CallRecordHangupReason) (code : Option UInt16)
  | transfer (target : String)
  | recordTimerConsumed (id : String)
  | respond (requestId : String) (error : String)

inductive AfterExit (α : Type) where
  | finish
  | chain (next : α)

inductive LoopPoint (α : Type) where
  /-- In the `on_enter` of the first application. -/
  | entering
  | top (action : AppAction α)
  /-- In the select of `handle_next_event`. -/
  | waiting
  | handling (request : Option String)
  | hangingUp
  | transferring
  | sleeping (duration : Nat)
  /-- In the `on_enter` of a later application. -/
  | chaining
  | exiting (after : AfterExit α)
  | returned (result : Except String Unit)

structure EventLoop (α π : Type) where
  app : α
  /-- How many applications were left for a next one. -/
  number : Nat := 0
  cancelled : Bool := false
  cancelReason : ExitReason := .cancelled
  exitReason : Option ExitReason := none
  point : LoopPoint α
  calls : List (LoopCall π) := []

inductive LoopInput (α π : Type) where
  /-- The runtime cancels the token, with a cause if it has one. -/
  | cancel (reason : Option ExitReason)
  /-- The `on_enter` or the handler that is awaited gives a result. -/
  | completed (result : Except String (AppAction α))
  /-- A select takes its cancelled branch. -/
  | cutOff
  | event (event : Option (ControllerEvent π))
  | timer (id : String)
  /-- The hangup or the transfer was accepted or not. -/
  | commanded (result : Except String Unit)
  /-- The `on_exit` that is awaited gives a result. -/
  | exited (result : Except String Unit)
  | wake
  /-- The loop goes on from its top. -/
  | turn

namespace EventLoop

section

variable (l : EventLoop α π)

def record (call : LoopCall π) : EventLoop α π :=
  { l with calls := l.calls ++ [call] }

def stand (point : LoopPoint α) : EventLoop α π :=
  { l with point }

def new (app : α) : EventLoop α π :=
  { app, point := .entering, calls := [.onEnter 0] }

def onExit (l : EventLoop α π) (reason : ExitReason) (after : AfterExit α) : EventLoop α π :=
  (l.record (.onExit l.number reason)).stand (.exiting after)

def exitCancelled : EventLoop α π :=
  l.onExit l.cancelReason .finish

def resume : Except String (AppAction α) → EventLoop α π
  | .ok action => l.stand (.top action)
  | .error message => l.stand (.returned (.error message))

def dispatch (handler : Handler π) (request : Option String) : EventLoop α π :=
  (l.record (.handler l.number handler)).stand (.handling request)

def exitFor (reason : ExitReason) : EventLoop α π :=
  { l with exitReason := some reason, point := .top .exit }

def handleEvent : Option (ControllerEvent π) → EventLoop α π
  | some (.dtmfReceived digit) => l.dispatch (.onDtmf digit) none
  | some (.audioComplete trackId interrupted) =>
    if interrupted then l.stand (.top .continue) else l.dispatch (.onAudioComplete trackId) none
  | some (.recordingComplete info) => l.dispatch (.onRecordComplete info) none
  | some (.hangup reason) => l.exitFor (.remoteHangup reason)
  | some (.timeout id) => l.dispatch (.onTimeout id) none
  | some (.transferResult outcome) => l.dispatch (.onExternalEvent (.transferResult outcome)) none
  | some (.queueDiagnostic requestId) => l.dispatch (.onQueueDiagnostic requestId) (some requestId)
  | some (.custom name data) => l.dispatch (.onExternalEvent (.custom name data)) none
  | none => l.exitFor .normal

def cutHandler : Option String → EventLoop α π
  | some request => (l.record (.respond request "call_ended_or_canceled")).exitFor .cancelled
  | none => l.exitFor .cancelled

def turn (action : AppAction α) : EventLoop α π :=
  if l.cancelled then l.exitCancelled
  else match action with
    | .continue => l.stand .waiting
    | .exit => { l with exitReason := none }.onExit (l.exitReason.getD .normal) .finish
    | .hangup reason code => (l.record (.hangup reason code)).stand .hangingUp
    | .transfer target => (l.record (.transfer target)).stand .transferring
    | .chain next => l.onExit .chained (.chain next)
    | .sleep duration => l.stand (.sleeping duration)

def afterExit : AfterExit α → EventLoop α π
  | .finish => l.stand (.returned (.ok ()))
  | .chain next =>
    { l with app := next, number := l.number + 1 }.record (.onEnter (l.number + 1))
      |>.stand .chaining

def step : LoopInput α π → Option (EventLoop α π)
  | .cancel reason =>
    some { l with cancelled := true, cancelReason := reason.getD l.cancelReason }
  | .completed result =>
    match l.point with
    | .entering | .handling _ | .chaining => some (l.resume result)
    | _ => none
  | .cutOff =>
    if l.cancelled then
      match l.point with
      | .entering => some l.exitCancelled
      | .waiting => some (l.exitFor .cancelled)
      | .handling request => some (l.cutHandler request)
      | _ => none
    else none
  | .event event =>
    match l.point with
    | .waiting => some (l.handleEvent event)
    | _ => none
  | .timer id =>
    match l.point with
    | .waiting => some ((l.record (.recordTimerConsumed id)).dispatch (.onTimeout id) none)
    | _ => none
  | .commanded result =>
    match l.point, result with
    | .hangingUp, .ok () => some (l.onExit .hangup .finish)
    | .transferring, .ok () => some (l.onExit .transferred .finish)
    | .hangingUp, .error message | .transferring, .error message =>
      some (l.stand (.returned (.error message)))
    | _, _ => none
  | .exited result =>
    match l.point, result with
    | .exiting after, .ok () => some (l.afterExit after)
    | .exiting _, .error message => some (l.stand (.returned (.error message)))
    | _, _ => none
  | .wake =>
    match l.point with
    | .sleeping _ => some (l.stand (.top .continue))
    | _ => none
  | .turn =>
    match l.point with
    | .top action => some (l.turn action)
    | _ => none

abbrev Runs (P : LoopInput α π → Prop) : EventLoop α π → EventLoop α π → Prop :=
  Machine.Runs step fun _ => P

/-! ## Entering and leaving -/

def entered : List Nat :=
  l.calls.filterMap fun call =>
    match call with
    | .onEnter app => some app
    | _ => none

def exited : List Nat :=
  l.calls.filterMap fun call =>
    match call with
    | .onExit app _ => some app
    | _ => none

/-- No handler but `on_exit` fails, and no hangup or transfer. -/
def Succeeds : LoopInput α π → Prop
  | .completed (.error _) | .commanded (.error _) => False
  | _ => True

/-- Whether the loop is in an application, has called its `on_exit`, or has returned. -/
inductive Stage where
  | inside
  | left
  | finished

def stageAt : LoopPoint α → Stage
  | .exiting _ => .left
  | .returned _ => .finished
  | _ => .inside

def stage : Stage :=
  stageAt l.point

end

/-- A call that is neither `on_enter` nor `on_exit`. -/
def Quiet : LoopCall π → Prop
  | .onEnter _ | .onExit _ _ => False
  | _ => True

/-- What a step can do to the applications. -/
inductive Move (input : LoopInput α π) (l l' : EventLoop α π) : Prop
  | stay (hstage : l'.stage = l.stage) (hnumber : l'.number = l.number)
      (hentered : l'.entered = l.entered) (hexited : l'.exited = l.exited)
  | leave (hstage : l.stage = .inside) (hstage' : l'.stage = .left) (hnumber : l'.number = l.number)
      (hentered : l'.entered = l.entered) (hexited : l'.exited = l.exited ++ [l.number])
  | next (hstage : l.stage = .left) (hstage' : l'.stage = .inside)
      (hnumber : l'.number = l.number + 1) (hentered : l'.entered = l.entered ++ [l.number + 1])
      (hexited : l'.exited = l.exited)
  | finish (hstage : l.stage = .left) (hstage' : l'.stage = .finished)
      (hnumber : l'.number = l.number) (hentered : l'.entered = l.entered)
      (hexited : l'.exited = l.exited)
  | fail (hfails : ¬ Succeeds input) (hstage : l.stage = .inside) (hstage' : l'.stage = .finished)
      (hnumber : l'.number = l.number) (hentered : l'.entered = l.entered)
      (hexited : l'.exited = l.exited)

section

variable {l : EventLoop α π}

theorem entered_record : (l.record call).entered = l.entered ++
      match call with
      | .onEnter app => [app]
      | _ => [] := by
  cases call <;> simp [record, entered]

theorem exited_record : (l.record call).exited = l.exited ++
      match call with
      | .onExit app _ => [app]
      | _ => [] := by
  cases call <;> simp [record, exited]

theorem entered_record_of_quiet (h : Quiet call) : (l.record call).entered = l.entered := by
  rw [entered_record]
  cases call <;> first | exact h.elim | exact List.append_nil _

theorem exited_record_of_quiet (h : Quiet call) : (l.record call).exited = l.exited := by
  rw [exited_record]
  cases call <;> first | exact h.elim | exact List.append_nil _

section

variable (h : l.stage = .inside)
include h

theorem onExit_move : Move input l (l.onExit reason after) :=
  .leave h rfl rfl (entered_record.trans (List.append_nil _)) exited_record

theorem record_move {point : LoopPoint α} (hcall : Quiet call) (hpoint : stageAt point = .inside) :
    Move input l ((l.record call).stand point) :=
  .stay (hpoint.trans h.symm) rfl (entered_record_of_quiet hcall) (exited_record_of_quiet hcall)

theorem dispatch_move {request : Option String} : Move input l (l.dispatch handler request) :=
  record_move h trivial rfl

theorem handleEvent_move : Move input l (l.handleEvent event) := by
  unfold handleEvent
  split
  · exact dispatch_move h
  · split
    · exact .stay h.symm rfl rfl rfl
    · exact dispatch_move h
  · exact dispatch_move h
  · exact .stay h.symm rfl rfl rfl
  · exact dispatch_move h
  · exact dispatch_move h
  · exact dispatch_move h
  · exact dispatch_move h
  · exact .stay h.symm rfl rfl rfl

theorem cutHandler_move : Move input l (l.cutHandler request) := by
  cases request with
  | none => exact .stay h.symm rfl rfl rfl
  | some request =>
    exact .stay h.symm rfl (entered_record_of_quiet trivial) (exited_record_of_quiet trivial)

theorem turn_move {action : AppAction α} : Move input l (l.turn action) := by
  unfold turn
  split
  · exact onExit_move h
  · split
    · exact .stay h.symm rfl rfl rfl
    · exact .leave h rfl rfl (entered_record.trans (List.append_nil _)) exited_record
    · exact record_move h trivial rfl
    · exact record_move h trivial rfl
    · exact onExit_move h
    · exact .stay h.symm rfl rfl rfl

theorem resume_move : Move (.completed result) l (l.resume result) := by
  cases result with
  | ok action => exact .stay h.symm rfl rfl rfl
  | error message => exact .fail id h rfl rfl rfl rfl

end

theorem afterExit_move (h : l.stage = .left) : Move input l (l.afterExit after) := by
  cases after with
  | finish => exact .finish h rfl rfl rfl rfl
  | chain next =>
    exact .next h rfl rfl entered_record (exited_record.trans (List.append_nil _))

theorem step_move (h : l.step input = some l') : Move input l l' := by
  have hat {point : LoopPoint α} (hpoint : l.point = point) : l.stage = stageAt point :=
    congrArg stageAt hpoint
  cases input with
  | cancel reason =>
    cases h
    exact .stay rfl rfl rfl rfl
  | completed result =>
    simp only [step] at h
    split at h
    · next hpoint => exact some.inj h ▸ resume_move (hat hpoint)
    · next hpoint => exact some.inj h ▸ resume_move (hat hpoint)
    · next hpoint => exact some.inj h ▸ resume_move (hat hpoint)
    · cases h
  | cutOff =>
    simp only [step] at h
    split at h
    · split at h
      · next hpoint => exact some.inj h ▸ onExit_move (hat hpoint)
      · next hpoint => exact some.inj h ▸ .stay (hat hpoint).symm rfl rfl rfl
      · next hpoint => exact some.inj h ▸ cutHandler_move (hat hpoint)
      · cases h
    · cases h
  | event event =>
    simp only [step] at h
    split at h
    · next hpoint => exact some.inj h ▸ handleEvent_move (hat hpoint)
    · cases h
  | timer id =>
    simp only [step] at h
    split at h
    · next hpoint =>
      cases h
      refine .stay (hat hpoint).symm rfl ?_ ?_
      · refine (entered_record_of_quiet ?_).trans (entered_record_of_quiet ?_) <;> trivial
      · refine (exited_record_of_quiet ?_).trans (exited_record_of_quiet ?_) <;> trivial
    · cases h
  | commanded result =>
    simp only [step] at h
    split at h
    · next hpoint => exact some.inj h ▸ onExit_move (hat hpoint)
    · next hpoint => exact some.inj h ▸ onExit_move (hat hpoint)
    · next hpoint => exact some.inj h ▸ .fail id (hat hpoint) rfl rfl rfl rfl
    · next hpoint => exact some.inj h ▸ .fail id (hat hpoint) rfl rfl rfl rfl
    · cases h
  | exited result =>
    simp only [step] at h
    split at h
    · next hpoint => exact some.inj h ▸ afterExit_move (hat hpoint)
    · next hpoint => exact some.inj h ▸ .finish (hat hpoint) rfl rfl rfl rfl
    · cases h
  | wake =>
    simp only [step] at h
    split at h
    · next hpoint => exact some.inj h ▸ .stay (hat hpoint).symm rfl rfl rfl
    · cases h
  | turn =>
    simp only [step] at h
    split at h
    · next hpoint => exact some.inj h ▸ turn_move (hat hpoint)
    · cases h

structure Ordered (l : EventLoop α π) : Prop where
  entered : l.entered = List.range (l.number + 1)
  inside : l.stage = .inside → l.exited = List.range l.number
  left : l.stage = .left → l.exited = List.range (l.number + 1)
  finished : l.stage = .finished →
    l.exited = List.range l.number ∨ l.exited = List.range (l.number + 1)

theorem Move.ordered (hmove : Move input l l') (h : l.Ordered) : l'.Ordered := by
  cases hmove with
  | stay hstage hnumber hentered hexited =>
    refine ⟨?_, ?_, ?_, ?_⟩
    · rw [hentered, hnumber, h.entered]
    · rw [hstage, hnumber, hexited]
      exact h.inside
    · rw [hstage, hnumber, hexited]
      exact h.left
    · rw [hstage, hnumber, hexited]
      exact h.finished
  | leave hstage hstage' hnumber hentered hexited =>
    refine ⟨?_, ?_, fun _ => ?_, ?_⟩
    · rw [hentered, hnumber, h.entered]
    · rw [hstage']
      nofun
    · rw [hexited, hnumber, h.inside hstage, List.range_succ]
    · rw [hstage']
      nofun
  | next hstage hstage' hnumber hentered hexited =>
    refine ⟨?_, fun _ => ?_, ?_, ?_⟩
    · rw [hentered, hnumber, h.entered, List.range_succ (n := l.number + 1)]
    · rw [hexited, hnumber, h.left hstage]
    · rw [hstage']
      nofun
    · rw [hstage']
      nofun
  | finish hstage hstage' hnumber hentered hexited =>
    refine ⟨?_, ?_, ?_, fun _ => .inr ?_⟩
    · rw [hentered, hnumber, h.entered]
    · rw [hstage']
      nofun
    · rw [hstage']
      nofun
    · rw [hexited, hnumber, h.left hstage]
  | fail hfails hstage hstage' hnumber hentered hexited =>
    refine ⟨?_, ?_, ?_, fun _ => .inl ?_⟩
    · rw [hentered, hnumber, h.entered]
    · rw [hstage']
      nofun
    · rw [hstage']
      nofun
    · rw [hexited, hnumber, h.inside hstage]

theorem ordered_new (app : α) : (new app : EventLoop α π).Ordered :=
  ⟨rfl, fun _ => rfl, nofun, nofun⟩

/-- Whatever fails, the applications of a chain are entered and left in order, and only the last
one can be left out. -/
theorem runs_ordered {app : α} {P : LoopInput α π → Prop} (hrun : Runs P (new app) l) :
    l.Ordered := by
  exact hrun.invariant Ordered (ordered_new app) fun _ _ _ h _ hstep => (step_move hstep).ordered h

theorem runs_ordered_menu : ∃ l : EventLoop String Unit, Machine.steps step (new "menu")
    [.completed (.ok (.chain "queue")), .turn, .exited (.error "gone")] = some l ∧ l.Ordered :=
  Exists.imp (fun _ h => ⟨h, runs_ordered (P := fun _ => True) <|
    Machine.Runs.steps .refl h fun _ _ _ => trivial⟩) ⟨_, rfl⟩

/-- **The loop calls `on_exit` once** for each application that it has entered before it returns, in
every run in which all `Succeeds`. -/
theorem exits_once {app : α} {result : Except String Unit} (hrun : Runs Succeeds (new app) l)
    (hreturned : l.point = .returned result) : ∀ n ∈ l.entered, l.exited.count n = 1 := by
  obtain ⟨hordered, hall⟩ :
      l.Ordered ∧ (l.stage = .finished → l.exited = List.range (l.number + 1)) := by
    refine hrun.invariant
      (fun l => l.Ordered ∧ (l.stage = .finished → l.exited = List.range (l.number + 1)))
      ⟨ordered_new app, nofun⟩ fun l input l' ih hsucceeds hstep => ?_
    have hmove := step_move hstep
    refine ⟨hmove.ordered ih.1, ?_⟩
    cases hmove with
    | stay hstage hnumber hentered hexited =>
      rw [hstage, hexited, hnumber]
      exact ih.2
    | leave _ hstage' | next _ hstage' =>
      rw [hstage']
      nofun
    | finish hstage _ hnumber _ hexited =>
      intro _
      rw [hexited, hnumber, ih.1.left hstage]
    | fail hfails => exact absurd hsucceeds hfails
  have hfinished : l.stage = .finished := congrArg stageAt hreturned
  intro n hn
  rw [hordered.entered] at hn
  rw [hall hfinished]
  exact List.count_eq_one_of_mem List.nodup_range hn

end

/-- A menu chains to a second application, which is cancelled in a handler. -/
theorem exits_once_chain : ∃ l : EventLoop String Unit, Runs Succeeds (new "menu") l ∧
    l.point = .returned (.ok ()) ∧ l.calls = [.onEnter 0, .handler 0 (.onDtmf "1"),
      .onExit 0 .chained, .onEnter 1, .recordTimerConsumed "ring", .handler 1 (.onTimeout "ring"),
      .onExit 1 .cancelled] ∧ ∀ n ∈ l.entered, l.exited.count n = 1 := by
  obtain ⟨l, hsteps, hpoint, hcalls⟩ : ∃ l : EventLoop String Unit, Machine.steps step (new "menu")
      [.completed (.ok .continue), .turn, .event (some (.dtmfReceived "1")),
        .completed (.ok (.chain "queue")), .turn, .exited (.ok ()), .completed (.ok .continue),
        .turn, .timer "ring", .cancel none, .cutOff, .turn, .exited (.ok ())] = some l ∧
      l.point = .returned (.ok ()) ∧ l.calls = [.onEnter 0, .handler 0 (.onDtmf "1"),
        .onExit 0 .chained, .onEnter 1, .recordTimerConsumed "ring",
        .handler 1 (.onTimeout "ring"), .onExit 1 .cancelled] := ⟨_, rfl, rfl, rfl⟩
  have hrun : Runs Succeeds (new "menu") l := Machine.Runs.steps .refl hsteps (by simp [Succeeds])
  exact ⟨l, hrun, hpoint, hcalls, exits_once hrun hpoint⟩

/-- The handler of a digit fails. The loop returns the error, and the application was entered and
not left. -/
theorem failed_handler_not_left : ∃ l : EventLoop String Unit,
    Runs (fun _ => True) (new "menu") l ∧ l.point = .returned (.error "no such node") ∧
      l.calls = [.onEnter 0, .handler 0 (.onDtmf "1")] ∧
      ¬ ∀ n ∈ l.entered, l.exited.count n = 1 := by
  obtain ⟨l, hsteps, hpoint, hcalls⟩ : ∃ l : EventLoop String Unit, Machine.steps step (new "menu")
      [.completed (.ok .continue), .turn, .event (some (.dtmfReceived "1")),
        .completed (.error "no such node")] = some l ∧
      l.point = .returned (.error "no such node") ∧
      l.calls = [.onEnter 0, .handler 0 (.onDtmf "1")] := ⟨_, rfl, rfl, rfl⟩
  have hrun : Runs (fun _ => True) (new "menu") l :=
    Machine.Runs.steps .refl hsteps fun _ _ _ => trivial
  refine ⟨l, hrun, hpoint, hcalls, fun hall => ?_⟩
  have hcount := hall 0 (by simp [entered, hcalls])
  simp [exited, hcalls] at hcount

end EventLoop

end RustPbx.App
