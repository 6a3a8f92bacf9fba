import RustPbx.Queue.Turns

/-!
The call after an agent has answered.

Once the caller is bridged, the application is only there to play the service prompt, and leaves.
Two signals and one timer disturb the call in the window of the prompt, because their handlers do
not look whether it is connected; `undisturbed` excludes exactly those.
-/

namespace RustPbx.Queue

open Sip Call Routing Eff QueueApp

section

variable {s : Sys ω}

/-- Everything that is added to the log satisfies `p`. -/
def Adds (p : Output → Bool) (s s' : Sys ω) : Prop :=
  ∃ new, s'.log = s.log ++ new ∧ ∀ e ∈ new, p e.output = true

theorem Adds.of_log_eq (h : s'.log = s.log) : Adds p s s' :=
  ⟨[], by simp [h], by simp⟩

theorem Adds.trans (h₁ : Adds p s t) (h₂ : Adds p t s') : Adds p s s' := by
  obtain ⟨new₁, heq₁, hp₁⟩ := h₁
  obtain ⟨new₂, heq₂, hp₂⟩ := h₂
  refine ⟨new₁ ++ new₂, by rw [heq₂, heq₁, List.append_assoc], fun e he => ?_⟩
  exact (List.mem_append.mp he).elim (hp₁ e) (hp₂ e)

variable {cancelled : Bool} {r : Except Exn AppAction × Sys ω}

theorem Adds.record (h : p output = true) : Adds p s (s.record output) :=
  ⟨[_], rfl, fun e he => by rw [List.mem_singleton.mp he]; exact h⟩

theorem Adds.mono (hpq : ∀ output, p output = true → q output = true)
    (h : Adds p s s') : Adds q s s' := by
  obtain ⟨new, heq, hp⟩ := h
  exact ⟨new, heq, fun e he => hpq _ (hp e he)⟩

instance : Std.Refl (@Adds ω p) := ⟨fun _ => .of_log_eq rfl⟩

instance : IsTrans (Sys ω) (Adds p) := ⟨fun _ _ _ => .trans⟩

def Movable (K : Permit → Prop) (output : Output) : Prop :=
  output.neutral = true ∨
  (∃ target leg headers recovery accepted,
    output = .command (.legAdd target leg headers recovery) accepted) ∨
  (∃ leg reason accepted, output = .command (.legRemove leg reason) accepted) ∨
  (∃ group accepted, K .escalate ∧ output = .command (.updateQueueMeta group) accepted) ∨
  ∃ callId queueId group priority, K .escalate ∧
    output = .rwi callId queueId (.queueOverflowJoined group priority)

theorem Movable.of_cancel (h : Movable (fun permit => K permit ∨ permit = .cancel) output) :
    Movable K output := by
  rcases h with h | h | h | ⟨group, accepted, he, rfl⟩ | ⟨callId, queueId, group, priority, he, rfl⟩
  · exact .inl h
  · exact .inr (.inl h)
  · exact .inr (.inr (.inl h))
  · exact .inr (.inr (.inr (.inl ⟨_, _, he.resolve_right nofun, rfl⟩)))
  · exact .inr (.inr (.inr (.inr ⟨_, _, _, _, he.resolve_right nofun, rfl⟩)))

theorem Move.adds (hp : ∀ output, Movable K output → p output = true) (h : Move env K s s') :
    Adds p s s' := by
  cases h with
  | record h => exact .record (hp _ (.inl h))
  | legAdd => exact .record (hp _ (.inr (.inl ⟨_, _, _, _, _, rfl⟩)))
  | legRemove => exact .record (hp _ (.inr (.inr (.inl ⟨_, _, _, rfl⟩))))
  | announce _ _ h => exact .record (hp _ (.inr (.inr (.inr (.inl ⟨_, _, h, rfl⟩)))))
  | join _ _ _ _ h => exact .record (hp _ (.inr (.inr (.inr (.inr ⟨_, _, _, _, h, rfl⟩)))))
  | _ => exact .of_log_eq rfl

theorem Moves.adds (hp : ∀ output, Movable K output → p output = true) (h : Moves env K s s') :
    Adds p s s' := by
  induction h with
  | refl => exact .of_log_eq rfl
  | tail _ hstep ih => exact ih.trans (hstep.adds hp)

theorem recordAbandoned_cases :
    ∃ t, Moves env K { s with app := { s.app with abandonedRecorded := true } } t ∧
      (((recordAbandoned env).run s).2 = t ∨ ((recordAbandoned env).run s).2 = t.record
          (.rwi t.app.callId t.app.config.name (.queueLeft .abandoned t.app.skillGroups))) := by
  let s₁ : Sys ω := { s with app := { s.app with abandonedRecorded := true } }
  have hm : Moves env K s₁ ((notifyAbandoned env (s₁.app.waitSecs s₁.clock)).run s₁).2 :=
    notifyRegistry_moves (fun _ => rfl) s₁
  have hrun : (recordAbandoned env).run s =
      andThen ((notifyAbandoned env (s₁.app.waitSecs s₁.clock)).run s₁)
        (fun _ => getApp >>= fun app => emitRwi (.queueLeft .abandoned app.skillGroups)) := rfl
  rcases hn : (notifyAbandoned env (s₁.app.waitSecs s₁.clock)).run s₁ with ⟨e | _, t⟩ <;>
    rw [hn] at hm hrun
  · exact ⟨t, hm, .inl (congrArg Prod.snd hrun)⟩
  · refine ⟨t, hm, ?_⟩
    rw [hrun]
    cases hg : t.app.rwiGateway with
    | true => exact .inr (by simp [emitRwi, getApp, hg, record])
    | false => exact .inl (by simp [emitRwi, getApp, hg])

theorem giveUp_moves (hk : K .cancel) :
    Moves env K ((recordAbandoned env).run s).2
      ((playUnavailablePromptAndThenFallback env reason).run s).2 := by
  rw [show (playUnavailablePromptAndThenFallback env reason).run s =
    andThen ((recordAbandoned env).run s) _ from rfl]
  rcases (recordAbandoned env).run s with ⟨_ | _, t⟩
  · exact .refl
  · refine Within.bind getApp_moves (fun app => ?_) t
    split
    · exact playFinalDestinationPromptOrFallback_moves hk
    · refine .bind (attempt_moves playAudio_moves) fun played => ?_
      cases played with
      | error _ => exact playFinalDestinationPromptOrFallback_moves hk
      | ok token =>
        refine .seq (modifyApp_moves fun app => ?_) <| .pure _
        cases reason <;> exact .of rfl nofun

theorem recordAbandoned_adds (hp : ∀ output, Movable K output → p output = true)
    (hleft : ∀ callId queueId groups,
      p (.rwi callId queueId (.queueLeft .abandoned groups)) = true) :
    Adds p s ((recordAbandoned env).run s).2 := by
  obtain ⟨t, hm, ht⟩ := recordAbandoned_cases
  obtain ⟨new, hlog, hnew⟩ := hm.adds hp
  have hst : Adds p s t := ⟨new, hlog, hnew⟩
  rcases ht with ht | ht <;> rw [ht]
  · exact hst
  · exact hst.trans (.record (hleft _ _ _))

theorem Turns.adds (hp : ∀ output, Movable K output → p output = true)
    (hleft : ∀ callId queueId groups, p (.rwi callId queueId (.queueLeft .abandoned groups)) = true)
    (h : Turns env K s s') : Adds p s s' := by
  obtain ⟨t, hm | ⟨u, reason, hm, rfl⟩, hm'⟩ := h
  · exact (hm.adds hp).trans (hm'.adds hp)
  · have hrecord : Adds p u ((recordAbandoned env).run u).2 := recordAbandoned_adds hp hleft
    have hmoves : Moves env (fun permit => K permit ∨ permit = .cancel) _
        ((playUnavailablePromptAndThenFallback env reason).run u).2 :=
      giveUp_moves (.inr rfl)
    have hgive := hrecord.trans (hmoves.adds fun output h => hp output h.of_cancel)
    exact (hm.adds hp).trans (hgive.trans (hm'.adds hp))

def Output.isBridge : Output → Bool
  | .command (.bridge _) _ => true
  | _ => false

/-- Another agent is dialled or bridged, a busy or no-answer prompt or the ringback is played, or
the fallback is executed. -/
def Output.intrusive : Output → Bool
  | .command (.legAdd ..) _ | .command (.bridge _) _ => true
  | .command (.play clip ..) _ => clip = .busy ∨ clip = .noAnswer ∨ clip = .ringback
  | .command (.reportCallError error _) _ =>
    error = .allAgentsUnavailable ∨ error = .allAgentsUnavailableDefault
  | .command (.hangup ..) _ | .command (.transfer _) _ => true
  | .rwi _ _ (.queueFallbackExecuted ..) => true
  | _ => false

def Sys.Bridged (s : Sys ω) : Prop :=
  ∃ e ∈ s.log, e.output.isBridge = true

instance (s : Sys ω) : Decidable s.Bridged :=
  inferInstanceAs (Decidable (∃ e ∈ s.log, e.output.isBridge = true))

/-- The caller is talking to an agent, or about to. -/
def QueueApp.served (app : QueueApp) : Bool :=
  match app.state with
  | .connected _ | .playingServicePrompt _ => true
  | _ => false

theorem QueueApp.connected_of_served {app : QueueApp} (h : app.served = true) :
    app.callAlreadyConnected = true := by
  unfold served at h
  unfold callAlreadyConnected
  split at h <;> simp_all

theorem not_isBridge_of_movable (h : Movable K output) : (!output.isBridge) = true := by
  rcases h with h | ⟨_, _, _, _, _, rfl⟩ | ⟨_, _, _, rfl⟩ | ⟨_, _, _, rfl⟩ | ⟨_, _, _, _, _, rfl⟩
  · cases output with
    | command cmd _ => cases cmd <;> first | rfl | cases h
    | _ => rfl
  · rfl
  · rfl
  · rfl
  · rfl

theorem Sys.Bridged.of_adds (h : Adds (fun output => !output.isBridge) s s') (hb : s'.Bridged) :
    s.Bridged := by
  obtain ⟨new, heq, hnew⟩ := h
  obtain ⟨e, he, hbridge⟩ := hb
  rw [heq] at he
  rcases List.mem_append.mp he with hold | hadded
  · exact ⟨e, hold, hbridge⟩
  · have := hnew e hadded
    simp [hbridge] at this

/-- How a callback that connects the call ends: it leaves the application, or the service prompt
is playing. -/
def Serves (x : Eff (Sys ω) Exn AppAction) : Prop :=
  ∀ (s s' : Sys ω) (action : AppAction), x.run s = (.ok action, s') →
    (action = .exit ∨ action = .continue) ∧ s'.app.served = true

theorem Serves.bind (h : ∀ a, Serves (f a)) : Serves (x >>= f) := by
  intro s s' action hrun
  obtain ⟨a, t, -, hf⟩ := bind_ok hrun
  exact h a t s' action hf

theorem playServicePromptOrExit_serves : Serves (playServicePromptOrExit env agentUri) := by
  refine .bind fun _ => .bind fun app => ?_
  split
  · intro s s' action hrun
    obtain ⟨rfl, rfl⟩ : AppAction.exit = action ∧ _ = s' := by simpa [modifyApp] using hrun
    exact ⟨.inl rfl, rfl⟩
  · refine .bind fun name => .bind fun token => ?_
    intro s s' action hrun
    obtain ⟨rfl, rfl⟩ : AppAction.continue = action ∧ _ = s' := by simpa [modifyApp] using hrun
    exact ⟨.inr rfl, rfl⟩

theorem bridgeAgent_serves : Serves (bridgeAgent env leg agentUri agentId) :=
  .bind fun _ => .bind fun _ => .bind fun _ => .bind fun _ => .bind fun _ => .bind fun _ =>
    .bind fun _ => .bind fun _ => .bind fun _ => .bind fun _ => .bind fun _ => .bind fun _ =>
    .bind fun _ => .bind fun _ => .bind fun _ => playServicePromptOrExit_serves

/-! ## Callbacks of a connected call -/

/-- Nothing intrusive is logged, and the application stays in its state. -/
def Calm (s s' : Sys ω) : Prop :=
  Adds (fun output => !output.intrusive) s s' ∧ s'.app.state = s.app.state

instance : Std.Refl (@Calm ω) := ⟨fun _ => ⟨.of_log_eq rfl, rfl⟩⟩

instance : IsTrans (Sys ω) Calm := ⟨fun _ _ _ h₁ h₂ => ⟨h₁.1.trans h₂.1, h₂.2.trans h₁.2⟩⟩

theorem Calm.connected (h : Calm s s') :
    s'.app.callAlreadyConnected = s.app.callAlreadyConnected := by
  unfold callAlreadyConnected
  rw [h.2]

theorem record_calm (h : output.intrusive = false) : Within Calm (record (ω := ω) output) :=
  .modify fun _ => ⟨.record (by simp [h]), rfl⟩

theorem ask_calm (r : Request) : Within Calm (ask env r) :=
  .modifyGet fun _ => ⟨.of_log_eq rfl, rfl⟩

theorem modifyApp_calm (h : ∀ app, (f app).state = app.state) :
    Within Calm (modifyApp (ω := ω) f) :=
  .modify fun s => ⟨.of_log_eq rfl, h s.app⟩

theorem getApp_calm : Within Calm (getApp (ω := ω)) :=
  .bind .get fun _ => .pure _

theorem setTimeout_calm (id : Timer) (delay : Nat) : Within Calm (setTimeout (ω := ω) id delay) :=
  .seq (record_calm rfl) <| .modify fun _ => ⟨.of_log_eq rfl, rfl⟩

theorem pause_calm : Within Calm (pause env) := by
  refine .bind (ask_calm _) fun a => .seq (.modify fun _ => ⟨.of_log_eq rfl, rfl⟩) ?_
  refine .bind .get fun s => ?_
  split
  · exact .fail _
  · split
    · exact .fail _
    · exact .pure _

theorem call_calm : Within Calm (call env c) :=
  .seq pause_calm <| .bind (ask_calm _) fun _ => .seq pause_calm <| .pure _

theorem callIfAttached_calm : Within Calm (callIfAttached env event) :=
  .bind getApp_calm fun _ => .when (.seq call_calm <| .pure _)

theorem emitRwi_calm (h : ∀ callId queueId, (Output.rwi callId queueId event).intrusive = false) :
    Within Calm (emitRwi (ω := ω) event) := by
  refine .bind getApp_calm fun app => ?_
  split
  · exact record_calm (h _ _)
  · exact .pure _

theorem onAgentConnected_cases
    (h : (onAgentConnected env legId agentUri agentId).run s = (.ok action, s')) :
    (action = .exit ∨ action = .continue) ∧ s'.app.served = true ∨ Calm s s' := by
  obtain ⟨app, t, happ, h⟩ := bind_ok h
  obtain ⟨rfl, rfl⟩ : s.app = app ∧ s = t := by simpa [getApp] using happ
  split at h
  · obtain ⟨-, rfl⟩ : _ ∧ s = s' := by simpa using h
    exact .inr (Std.Refl.refl s)
  rcases hleg : s.app.answeredLeg legId agentUri with _ | leg <;> simp only [hleg] at h
  · obtain ⟨-, rfl⟩ : _ ∧ s = s' := by simpa using h
    exact .inr (Std.Refl.refl s)
  split at h
  · -- the late answer of a cancelled leg: the leg is removed once more
    refine .inr (Within.of_run ?_ h)
    refine .seq (modifyApp_calm fun _ => rfl) ?_
    refine .bind (.each fun _ _ => .seq (.bind (ask_calm _) fun _ => ?_) <| .pure _) ?_
    · exact .seq (record_calm rfl) <| .pure _
    · exact fun _ => .pure _
  · exact .inl (bridgeAgent_serves _ _ _ h)

/-- From this state the computation does nothing intrusive, and it leaves the application or the
call stays connected. -/
structure Settles (x : Eff (Sys ω) Exn AppAction) (s : Sys ω) : Prop where
  adds : Adds (fun output => !output.intrusive) s (x.run s).2
  connected : (x.run s).2.app.callAlreadyConnected = true
  action : ∀ action, (x.run s).1 = .ok action →
    action = .exit ∨ action = .continue ∧ (x.run s).2.app.served = true

namespace Settles

theorem stay (hs : s.app.served = true) : Settles (return .continue) s where
  adds := .of_log_eq rfl
  connected := connected_of_served hs
  action _ h := .inr ⟨(Except.ok.inj h).symm, hs⟩

theorem bindAt {f : α → Eff (Sys ω) Exn AppAction}
    (hx : Calm s (x.run s).2) (hs : s.app.served = true)
    (hf : ∀ a s', x.run s = (.ok a, s') → s'.app.served = true → Settles (f a) s') :
    Settles (x >>= f) s := by
  rcases hxs : x.run s with ⟨e | a, t⟩ <;> rw [hxs] at hx
  all_goals
    have ht : t.app.served = true := by
      unfold served at hs ⊢
      rwa [hx.2]
  · have hrun : (x >>= f).run s = (.error e, t) := by rw [run_bind, hxs, andThen_error]
    refine ⟨?_, ?_, ?_⟩ <;> rw [hrun]
    · exact hx.1
    · exact connected_of_served ht
    · nofun
  · have hrun : (x >>= f).run s = (f a).run t := by rw [run_bind, hxs, andThen_ok]
    obtain ⟨hadds, hconnected, haction⟩ := hf a t hxs ht
    refine ⟨?_, ?_, ?_⟩ <;> rw [hrun]
    · exact hx.1.trans hadds
    · exact hconnected
    · exact haction

theorem bind (hx : Within Calm x) (hs : s.app.served = true)
    (hf : ∀ a s', s'.app.served = true → Settles (f a) s') : Settles (x >>= f) s :=
  bindAt (hx s) hs fun a s' _ => hf a s'

theorem app (h : Settles (f s.app) s) : Settles (getApp >>= f) s :=
  ⟨h.adds, h.connected, h.action⟩

theorem time (h : Settles (f s.clock) s) : Settles (now >>= f) s :=
  ⟨h.adds, h.connected, h.action⟩

end Settles

/-- Inputs whose handlers do not look whether the call is connected come only while it is not, or do
not matter: all agents are busy; a phone rings and would start the ringback; the longest wait is
over and nothing defers the end. -/
def undisturbed (c : Config ω) (input : Input) : Bool :=
  !c.sys.app.callAlreadyConnected ||
    match input with
    | .signal .allAgentsBusy => false
    | .signal (.agentRinging legId _ _) =>
      legId ∈ c.sys.app.timedOutLegs || !c.sys.app.agentRingbackEnabled ||
        !c.sys.app.ringingAgentLegs.isEmpty
    | .timeout .maxWait =>
      (c.sys.app.nextEscalationCheckDelay c.sys.clock).isSome ||
        (!c.sys.app.escalatedGroups.isEmpty && !c.sys.app.maxWaitGraceUsed)
    | _ => true

theorem noteRinging_calm (h : s.app.ringingAgentLegs.isEmpty = false) :
    Calm s ((noteRinging env leg).run s).2 := by
  rw [noteRinging, getApp, run_bind, run_bind, run_get, andThen_ok, run_pure, andThen_ok, h]
  exact Within.bind (modifyApp_calm fun _ => rfl) (fun _ => .pure ()) s

/-- Without a dispatch to recover, a diagnostic request is only answered. -/
theorem diagnoseDispatch_responds (h : (dispatchEvidence env s request).recoverable = false) :
    ∃ world reply, (diagnoseDispatch env request).run s =
      (.ok .continue, { s with world }.record (.respond request.requestId reply)) := by
  refine ⟨(env.answer (.replyClosed request.requestId) s.world).2, ?_⟩
  simp only [diagnoseDispatch, requestExpired, now, ask, run_bind, run_get, run_modifyGet,
    andThen_ok, run_pure]
  split
  · exact ⟨_, rfl⟩
  rw [run_bind, run_get, andThen_ok]
  split
  · exact ⟨_, rfl⟩
  split
  · exact ⟨_, rfl⟩
  split
  · exact ⟨_, rfl⟩
  split
  · next hrecover => cases h.symm.trans hrecover
  · exact ⟨_, rfl⟩

section

variable (hs : s.app.served = true)
include hs

theorem onAgentRinging_settles
    (hquiet : legId ∈ s.app.timedOutLegs ∨ s.app.agentRingbackEnabled = false ∨
      s.app.ringingAgentLegs.isEmpty = false) :
    Settles (onAgentRinging env legId agentId) s := by
  refine .app ?_
  split
  · exact .stay hs
  next hleg =>
  have hnote : Calm s ((Eff.when s.app.agentRingbackEnabled (noteRinging env legId)).run s).2 := by
    rcases hquiet with hmem | hoff | hringing
    · exact absurd hmem hleg
    · rw [hoff]
      exact Within.pure () s
    · cases s.app.agentRingbackEnabled
      · exact Within.pure () s
      · exact noteRinging_calm hringing
  refine .bindAt hnote hs fun _ t _ ht => ?_
  cases agentId with
  | none => exact .stay ht
  | some id =>
    refine .bind callIfAttached_calm ht fun _ t ht => ?_
    exact .bind (emitRwi_calm fun _ _ => rfl) ht fun _ t ht => .stay ht

theorem onMaxWait_settles (hdefer : (s.app.nextEscalationCheckDelay s.clock).isSome = true ∨
      (s.app.escalatedGroups ≠ [] ∧ s.app.maxWaitGraceUsed = false)) :
    Settles (onMaxWait env) s := by
  refine .app (.time ?_)
  split
  · exact .bind (setTimeout_calm _ _) hs fun _ t ht => .stay ht
  next hnone =>
  have hgrace := hdefer.resolve_left (by simp [hnone])
  rw [if_pos hgrace]
  refine .bind (modifyApp_calm fun _ => rfl) hs fun _ t ht => ?_
  refine .bind (.bind getApp_calm fun app => ?_) ht fun _ t ht => ?_
  · split
    · exact ask_calm _
    · exact .pure _
  · exact .bind (setTimeout_calm _ _) ht fun _ t ht => .stay ht

theorem onAudioComplete_settles : Settles (onAudioComplete env trackId) s := by
  refine .app ?_
  unfold served at hs
  cases hstate : s.app.state <;> simp only [hstate, Bool.false_eq_true] at hs
  case connected => exact .stay (by simp [served, hstate])
  case playingServicePrompt agentUri =>
    simp only [onToken]
    split
    · exact ⟨.of_log_eq rfl, rfl, fun _ h => .inl (Except.ok.inj h).symm⟩
    · exact .stay (by simp [served, hstate])

theorem diagnoseDispatch_settles : Settles (diagnoseDispatch env request) s := by
  have hgone : (dispatchEvidence env s request).recoverable = false := by
    simp [dispatchEvidence, connected_of_served hs]
  obtain ⟨world, reply, hrun⟩ := diagnoseDispatch_responds hgone
  refine ⟨?_, ?_, ?_⟩ <;> rw [hrun]
  · have hsame : { s with world }.log = s.log := rfl
    exact (Adds.of_log_eq hsame).trans (.record rfl)
  · exact connected_of_served hs
  · exact fun _ h => .inr ⟨(Except.ok.inj h).symm, hs⟩

end

theorem QueueApp.not_dialing_of_served {app : QueueApp} (h : app.served = true) :
    app.isDialing = false ∧ app.waitsInQueue = false := by
  unfold served at h
  unfold isDialing waitsInQueue
  split at h <;> simp_all

theorem checkEscalation_run : (checkEscalation env).run s =
    (((s.app.dueStep s.clock).filter fun _ => s.app.waitsInQueue).elim (pure ())
      (triggerStep env)).run s := by
  simp only [checkEscalation, getApp, now, Eff.run_bind, Eff.run_get, Eff.andThen_ok, Eff.run_pure]
  cases (s.app.dueStep s.clock).filter fun _ => s.app.waitsInQueue <;> rfl

theorem checkEscalation_of_not_waiting (h : s.app.waitsInQueue = false) :
    (checkEscalation env).run s = (.ok (), s) := by
  have hnone : (s.app.dueStep s.clock).filter (fun _ => s.app.waitsInQueue) = none := by simp [h]
  rw [checkEscalation_run, hnone]
  rfl

theorem armEscalationCheck_calm : Within Calm (armEscalationCheck (ω := ω)) := by
  refine .bind getApp_calm fun app => .bind (.bind .get fun _ => .pure _) fun t => ?_
  cases app.nextEscalationCheckDelay t with
  | some delay => exact setTimeout_calm _ _
  | none => exact .pure _

/-- **A connected call rests**: whatever comes in, unless it disturbs the call. -/
theorem dispatch_settles (hs : s.app.served = true)
    (hu : undisturbed ⟨.running, s, inputs⟩ input = true) : Settles (dispatch env input) s := by
  have hc := connected_of_served hs
  obtain ⟨hdialing, hwaits⟩ := not_dialing_of_served hs
  simp only [undisturbed, hc] at hu
  cases input with
  | signal signal =>
    cases signal with
    | agentConnected | agentBusy | agentNoAnswer =>
      refine .app ?_
      rw [if_pos hc]
      exact .stay hs
    | agentRinging legId _ agentId =>
      refine onAgentRinging_settles hs ?_
      simpa [or_assoc] using hu
    | dialNext =>
      refine .app ?_
      simp only [hdialing]
      exact .stay hs
    | allAgentsBusy => cases hu
  | recoveryDialFailed requestId leg =>
    have hnone : (s.app.recoveredAgent requestId leg).filter
        (fun _ => !s.app.callAlreadyConnected) = none := by simp [hc]
    refine .app ?_
    rw [hnone]
    exact .stay hs
  | timeout timer =>
    cases timer with
    | agentRing =>
      refine .app ?_
      simp only [hc, Bool.or_true]
      exact .stay hs
    | maxWait =>
      refine onMaxWait_settles hs ?_
      simpa using hu
    | queueRetry =>
      refine .app ?_
      simp only [retriesStaticDial, hdialing, Bool.and_false, Bool.false_and,
        Bool.false_eq_true, if_false]
      refine .app ?_
      simp only [hc]
      exact .stay hs
    | escalationCheck =>
      refine .bindAt ?_ hs fun _ t _ ht => .bind armEscalationCheck_calm ht fun _ _ ht => .stay ht
      rw [checkEscalation_of_not_waiting hwaits]
      exact ⟨.of_log_eq rfl, rfl⟩
    | other _ => exact .stay hs
  | audioComplete trackId => exact onAudioComplete_settles hs
  | diagnostic request => exact diagnoseDispatch_settles hs
  | other => exact .stay hs

/-! ## Runs -/

theorem releaseBindings_calm : Within Calm (releaseBindings env) := by
  refine .bind getApp_calm fun app => ?_
  split
  · refine .bind getApp_calm fun app => .when <| .bind (.filterMap fun agent _ => ?_) fun ids => ?_
    · refine .bind (.bind getApp_calm fun app => ?_) fun _ => .pure _
      split
      · exact .bind call_calm fun _ => .pure _
      · exact .pure _
    · refine .bind call_calm fun agentIds => .each fun agentId _ => .when ?_
      exact .seq call_calm <| .pure _
  · refine .bind getApp_calm fun app => .seq (modifyApp_calm fun _ => rfl) ?_
    exact .when <| .each fun _ _ => .when <| .seq call_calm <| .pure _

theorem recordAbandoned_calm : Within Calm (recordAbandoned env) := by
  refine .seq (modifyApp_calm fun _ => rfl) <| .bind getApp_calm fun app => ?_
  refine .bind (.bind .get fun _ => .pure _) fun t => .bind ?_ fun _ => ?_
  · exact .bind getApp_calm fun app => .when (.seq call_calm <| .pure _)
  · exact .bind getApp_calm fun app => emitRwi_calm fun _ _ => rfl

theorem leave_adds : Adds (fun output => !output.intrusive) s (leave env s).2 := by
  have hexit : Within (Adds fun output => !output.intrusive) (onExit env) :=
    .seq (fun s => (releaseBindings_calm s).1) <| .bind (fun s => (getApp_calm s).1) fun _ =>
      .seq (.when fun s => (recordAbandoned_calm s).1) <| .modify fun _ => .of_log_eq rfl
  obtain ⟨new, hlog, hnew⟩ := hexit { s with cancellable := false }
  refine ⟨new, ?_, hnew⟩
  unfold leave
  split <;> simp_all

theorem conclude_adds (hcmd : ∀ accepted, p (.command cmd accepted) = true) :
    Adds p s (conclude env cmd s).2 := by
  have hsend : Within (Adds p) (send env cmd) :=
    .bind (.bind (.modifyGet fun _ => .of_log_eq rfl) fun reply => .bind
      (.modify fun _ => .record (hcmd _)) fun _ => .pure _) fun _ => .ofExcept _
  have hs := hsend s
  unfold conclude
  split <;> simp_all

theorem proceed_running (h : (proceed env cancelled r).1 = .running) :
    r.1 = .ok .continue ∧ (proceed env cancelled r).2 = r.2 := by
  obtain ⟨result, s⟩ := r
  cases result with
  | error e => cases e <;> cases h
  | ok action =>
    unfold proceed at h ⊢
    cases cancelled with
    | true => cases h
    | false =>
      cases action with
      | «continue» => exact ⟨rfl, rfl⟩
      | exit => cases h
      | hangup | transfer =>
        simp only [Bool.false_eq_true, if_false] at h
        unfold conclude at h
        split at h <;> cases h

theorem proceed_adds (hcmd : ∀ action, r.1 = .ok action → action = .exit ∨ action = .continue ∨
      ∀ cmd accepted, cmd.neutral = true → p (.command cmd accepted) = true) :
    Adds p r.2 (proceed env cancelled r).2 := by
  obtain ⟨result, s⟩ := r
  cases result with
  | error e => cases e <;> exact .of_log_eq rfl
  | ok action =>
    cases cancelled with
    | true => exact .of_log_eq rfl
    | false =>
      rcases hcmd action rfl with rfl | rfl | hp
      · exact .of_log_eq rfl
      · exact .of_log_eq rfl
      · cases action with
        | «continue» | exit => exact .of_log_eq rfl
        | hangup | transfer => exact conclude_adds fun accepted => hp _ accepted rfl

theorem proceed_phase :
    (proceed env cancelled r).1 ≠ .start ∧ (proceed env cancelled r).1 ≠ .done := by
  obtain ⟨result, s⟩ := r
  cases result with
  | error e => cases e <;> exact ⟨nofun, nofun⟩
  | ok action =>
    unfold proceed
    cases cancelled with
    | true => exact ⟨nofun, nofun⟩
    | false =>
      simp only [Bool.false_eq_true, if_false]
      cases action with
      | «continue» | exit => exact ⟨nofun, nofun⟩
      | hangup | transfer =>
        unfold conclude
        dsimp only
        split <;> exact ⟨nofun, nofun⟩

theorem Moves.not_connected (h : Moves env K s s') (hs : s.app.callAlreadyConnected = false) :
    s'.app.callAlreadyConnected = false := by
  refine h.keeps (I := fun s => s.app.callAlreadyConnected = false) (fun hstep hc => ?_) hs
  cases hstep with
  | frame hf => exact Bool.eq_false_iff.mpr fun h => Bool.eq_false_iff.mp hc (hf.connected h)
  | _ => exact hc

theorem Turns.not_connected (h : Turns env K s s') (hs : s.app.callAlreadyConnected = false) :
    s'.app.callAlreadyConnected = false := by
  obtain ⟨t, hm | ⟨u, reason, hm, rfl⟩, hm'⟩ := h
  · exact hm'.not_connected (hm.not_connected hs)
  · have hu := hm.not_connected hs
    have hrecord : ((recordAbandoned env).run u).2.app.callAlreadyConnected = false :=
      (Calm.connected (recordAbandoned_calm u)).trans hu
    have hmoves : Moves env (fun _ => True) _
        ((playUnavailablePromptAndThenFallback env reason).run u).2 := giveUp_moves trivial
    exact hm'.not_connected (hmoves.not_connected hrecord)

/-! ### The invariant -/

/-- Once the caller is bridged, the application serves the call for as long as it runs. -/
structure Config.Serving (c : Config ω) : Prop where
  start : c.phase = .start → ¬c.sys.Bridged
  bridged : c.phase = .running → c.sys.Bridged → c.sys.app.served = true
  connected : c.phase = .running → c.sys.app.callAlreadyConnected = true → c.sys.app.served = true

theorem serving_of_not_bridged (hb : ¬r.2.Bridged) (hc : r.2.app.callAlreadyConnected = false) :
    Config.Serving ⟨(proceed env cancelled r).1, (proceed env cancelled r).2, inputs⟩ := by
  have hadds : Adds (fun output => !output.isBridge) r.2 (proceed env cancelled r).2 :=
    proceed_adds fun _ _ => .inr (.inr fun cmd _ hn => by cases cmd <;> first | rfl | cases hn)
  refine ⟨fun h => absurd h proceed_phase.1, fun _ h => absurd (h.of_adds hadds) hb, ?_⟩
  intro hrun hconnected
  rw [(proceed_running hrun).2, hc] at hconnected
  cases hconnected

theorem serving_of_served
    (h : ∀ action, r.1 = .ok action → action = .exit ∨ action = .continue ∧ r.2.app.served = true) :
    Config.Serving ⟨(proceed env cancelled r).1, (proceed env cancelled r).2, inputs⟩ := by
  have hserved (hrun : (proceed env cancelled r).1 = .running) :
      (proceed env cancelled r).2.app.served = true := by
    obtain ⟨hok, hsys⟩ := proceed_running hrun
    rw [hsys]
    exact ((h _ hok).resolve_left nofun).2
  exact ⟨fun h => absurd h proceed_phase.1, fun hrun _ => hserved hrun, fun hrun _ => hserved hrun⟩

theorem Calm.of_bridge (h : Calm s s') : Adds (fun output => !output.isBridge) s s' := by
  refine h.1.mono fun output hquiet => ?_
  unfold Output.isBridge
  split
  · simp [Output.intrusive] at hquiet
  · rfl

theorem dispatch_serving (hb : ¬s.Bridged) (hc : s.app.callAlreadyConnected = false) :
    Config.Serving ⟨(proceed env cancelled ((dispatch env input).run s)).1,
      (proceed env cancelled ((dispatch env input).run s)).2, inputs⟩ := by
  cases ha : input.isAnswer with
  | false =>
    have hturns : Turns env input.permits s ((dispatch env input).run s).2 :=
      dispatch_turns (fun _ => hc) ha
    refine serving_of_not_bridged (fun h => hb (h.of_adds ?_)) (hturns.not_connected hc)
    exact hturns.adds (fun _ => not_isBridge_of_movable) fun _ _ _ => rfl
  | true =>
    obtain ⟨legId, agentUri, agentId, rfl⟩ := Input.eq_of_isAnswer ha
    rcases hrun : (dispatch env (.signal (.agentConnected legId agentUri agentId))).run s with
      ⟨e | action, s'⟩
    · exact serving_of_served nofun
    · rcases onAgentConnected_cases hrun with hserved | hcalm
      · exact serving_of_served fun _ h => by
          cases h
          exact hserved.1.imp_right (⟨·, hserved.2⟩)
      · exact serving_of_not_bridged (fun h => hb (h.of_adds hcalm.of_bridge))
          (hcalm.connected.trans hc)

theorem not_served_of_serving (h : Config.Serving ⟨.running, s, inputs⟩)
    (hs : s.app.served = false) : ¬s.Bridged ∧ s.app.callAlreadyConnected = false :=
  ⟨fun hb => Bool.eq_false_iff.mp hs (h.bridged rfl hb),
    Bool.eq_false_iff.mpr fun hc => Bool.eq_false_iff.mp hs (h.connected rfl hc)⟩

theorem LoopStep.serving (h : LoopStep env (fun c input => undisturbed c input = true) c c')
    (hc : c.Serving) :
    c'.Serving := by
  cases h with
  | enter ctx cancelled s =>
    have hends : Ends env (fun _ => True) _ ((onEnter env ctx).run s).2 := onEnter_ends trivial ctx
    have hs : ¬Sys.Bridged { s with app := s.app.entered ctx s.clock } := hc.start rfl
    refine serving_of_not_bridged (fun h => hs (h.of_adds ?_)) (hends.turns.not_connected rfl)
    exact hends.turns.adds (fun _ => not_isBridge_of_movable) fun _ _ _ => rfl
  | drift hd =>
    obtain ⟨hstart, hbridged, hconnected⟩ := hc
    rw [hd.rest]
    exact ⟨nofun, hbridged, hconnected⟩
  | @callback cancelled s inputs input hu =>
    cases hs : s.app.served with
    | true => exact serving_of_served (dispatch_settles hs hu).action
    | false =>
      obtain ⟨hb, hconnected⟩ := not_served_of_serving hc hs
      exact dispatch_serving hb hconnected
  | quit => exact ⟨nofun, nofun, nofun⟩
  | @exit s inputs =>
    have hphase := leave_phase env s
    exact ⟨fun h => absurd h hphase.1, fun h => absurd h hphase.2, fun h => absurd h hphase.2⟩

theorem LoopStep.adds (h : LoopStep env (fun c input => undisturbed c input = true) c c')
    (hc : c.Serving) (hb : c.sys.Bridged) :
    Adds (fun output => !output.intrusive) c.sys c'.sys := by
  cases h with
  | enter => exact absurd hb (hc.start rfl)
  | drift hd =>
    refine .of_log_eq ?_
    rw [hd.rest]
  | callback cancelled hu =>
    have hsettles : Settles (dispatch env _) _ := dispatch_settles (hc.bridged rfl hb) hu
    refine hsettles.adds.trans (proceed_adds fun action ha => ?_)
    exact (hsettles.action action ha).imp_right fun h => .inl h.1
  | quit => exact .of_log_eq rfl
  | exit => exact leave_adds

theorem Sys.Bridged.of_log (h : Adds p s t) (hb : s.Bridged) : t.Bridged := by
  obtain ⟨new, heq, -⟩ := h
  obtain ⟨e, he, hbridge⟩ := hb
  exact ⟨e, by rw [heq]; exact List.mem_append_left _ he, hbridge⟩

theorem Runs.serving {setup : Setup}
    (h : Runs env (fun c input => undisturbed c input = true) (setup.start world clock) c) :
    c.Serving := by
  induction h with
  | refl => exact ⟨fun _ ⟨_, he, _⟩ => by simp [Setup.start] at he, nofun, nofun⟩
  | tail _ hstep ih => exact hstep.serving ih

/-- **After a bridge**, nothing intrusive is done, as long as no input disturbs the call. -/
theorem no_intrusion_after_bridge {setup : Setup} {world : ω} {clock : Nat} {c c' : Config ω}
    (h : Runs env (fun c input => undisturbed c input = true) (setup.start world clock) c)
    (hb : c.sys.Bridged) (h' : Runs env (fun c input => undisturbed c input = true) c c') :
    ∃ new, c'.sys.log = c.sys.log ++ new ∧ ∀ e ∈ new, e.output.intrusive = false := by
  have hadds : Adds (fun output => !output.intrusive) c.sys c'.sys := by
    induction h' with
    | refl => exact .of_log_eq rfl
    | tail hrun hstep ih => exact ih.trans (hstep.adds (Runs.serving (h.trans hrun)) (hb.of_log ih))
  obtain ⟨new, hlog, hnew⟩ := hadds
  exact ⟨new, hlog, fun e he => by simpa using hnew e he⟩

end

def promptedQueue : Setup where
  plan :=
    { dialStrategy := some (.sequential
        [{ aor := ⟨none, some ⟨"agent", none⟩, ⟨.domain [], none⟩, []⟩ }])
      voicePrompts := some { servicePrompt := some "service.wav", busyPrompt := some "busy.wav" } }
  config := { name := "support", skillGroup := some "support" }
  agentRegistry := true
  callId := "call"

def servedCall : Config Unit :=
  ((promptedQueue.start () 0).enter .idle ⟨"caller", true, true, true, true, true, true⟩).play .idle
    [.signal .dialNext, .signal (.agentConnected (some "1") "agent" none)]

theorem runs_servedCall
    (h₁ : P ((promptedQueue.start () 0).enter .idle ⟨"caller", true, true, true, true, true, true⟩)
      (.signal .dialNext)) (h₂ : P (((promptedQueue.start () 0).enter .idle
      ⟨"caller", true, true, true, true, true, true⟩).hand .idle (.signal .dialNext))
      (.signal (.agentConnected (some "1") "agent" none))) :
    Runs .idle P (promptedQueue.start () 0) servedCall :=
  (runs_enter _ _ _ _).trans ((runs_hand h₁).trans (runs_hand h₂))

/-- A late failure of another leg leaves the connected call alone. -/
theorem no_intrusion_after_bridge_busy :
    ∃ new, (servedCall.hand .idle (.signal (.agentBusy none none "" ""))).sys.log =
      servedCall.sys.log ++ new ∧ ∀ e ∈ new, e.output.intrusive = false :=
  no_intrusion_after_bridge (runs_servedCall (by decide) (by decide)) (by decide)
    (runs_hand (by decide))

/-- The longest wait that ends while the service prompt plays starts the busy prompt. -/
theorem intrusion_after_bridge :
    Runs .idle (fun _ _ => True) (promptedQueue.start () 0) servedCall ∧ servedCall.sys.Bridged ∧
      Runs .idle (fun _ _ => True) servedCall (servedCall.hand .idle (.timeout .maxWait)) ∧
      ∃ e ∈ (servedCall.hand .idle (.timeout .maxWait)).sys.log.drop servedCall.sys.log.length,
        e.output.intrusive = true :=
  ⟨runs_servedCall trivial trivial, by decide, runs_hand trivial, by decide⟩

end RustPbx.Queue
