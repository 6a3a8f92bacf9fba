import RustPbx.Queue.Connected

/-!
Everything that a callback can do.

`Act` adds to the moves of the methods what only few places do: the call is given up, an agent's leg
is bridged, the call is connected, the end of the queueing is reported. A leg that answers is
bridged while it is being dialled; any other leg takes the permit `stray`, and so does the removal
of a leg that is being dialled.
-/

namespace RustPbx.Queue

open Sip Call Routing Eff Within Input

inductive Act {ω : Type} (env : Env ω) (K : Permit → Prop) : Sys ω → Sys ω → Prop
  | move {s s'} (h : Move env K s s') : Act env K s s'
  | abandon {s} : Act env K s { s with app := { s.app with abandonedRecorded := true } }
  | left {s} (callId queueId reason groups) :
      Act env K s (s.record (.rwi callId queueId (.queueLeft reason groups)))
  /-- The application changes in a way that may connect the call. -/
  | serve {s} {app : QueueApp} (h : app.kept = s.app.kept) : Act env K s { s with app }
  | bridge {s} {leg : String} (accepted)
      (h : leg ∈ s.app.pendingAgents.map (·.2) ∨ K (.stray leg)) :
      Act env K s (s.record (.command (.bridge leg) accepted))
  | drop {s} {leg : String} (reason accepted) (h : K (.stray leg)) :
      Act env K s (s.record (.command (.legRemove leg reason) accepted))

/-- What a callback does, one act after the other. -/
def Acts (env : Env ω) (K : Permit → Prop) : Sys ω → Sys ω → Prop :=
  Relation.ReflTransGen (Act env K)

section

variable {s : Sys ω}

instance : Std.Refl (Acts env K) := ⟨fun _ => .refl⟩

instance : IsTrans (Sys ω) (Acts env K) := ⟨fun _ _ _ => .trans⟩

theorem Act.acts (h : Act env K s s') : Acts env K s s' := .single h

theorem Acts.keeps {I : Sys ω → Prop} (step : ∀ {s s'}, Act env K s s' → I s → I s')
    (h : Acts env K s s') (hs : I s) : I s' := by
  induction h with
  | refl => exact hs
  | tail _ hstep ih => exact step hstep ih

theorem Moves.acts (hK : ∀ permit, K permit → K' permit) (h : Moves env K s s') :
    Acts env K' s s' := by
  induction h with
  | refl => exact .refl
  | tail _ hstep ih => exact ih.tail (.move (hstep.mono hK))

theorem acts_of_moves (h : Within (Moves env K) x) : Within (Acts env K) x :=
  fun s => (h s).acts fun _ hpermit => hpermit

theorem recordAbandoned_acts : Within (Acts env K) (recordAbandoned env) := by
  intro s
  obtain ⟨t, hm, ht⟩ := recordAbandoned_cases
  have hst : Acts env K s t := Act.abandon.acts.trans (hm.acts fun _ hpermit => hpermit)
  rcases ht with ht | ht <;> rw [ht]
  · exact hst
  · exact hst.tail (.left _ _ _ _)

theorem Turns.acts (hK : ∀ permit, K permit → K' permit) (hk : K' .cancel)
    (h : Turns env K s s') : Acts env K' s s' := by
  obtain ⟨t, hm | ⟨u, reason, hm, rfl⟩, hm'⟩ := h
  · exact (hm.acts hK).trans (hm'.acts hK)
  · have hgive : Moves env K' _ ((playUnavailablePromptAndThenFallback env reason).run u).2 :=
      giveUp_moves hk
    have hgive := (recordAbandoned_acts u).trans (hgive.acts fun _ hpermit => hpermit)
    exact (hm.acts hK).trans (hgive.trans (hm'.acts hK))

theorem modifyApp_acts (h : ∀ app, (f app).kept = app.kept) : Within (Acts env K) (modifyApp f) :=
  .modify fun _ => (Act.serve (h _)).acts

theorem emitLeft_acts (reason : LeftReason) (groups : Option (List String)) :
    Within (Acts env K) (emitRwi (.queueLeft reason groups)) := by
  refine .bind (acts_of_moves getApp_moves) fun app => ?_
  split
  · exact .modify fun _ => (Act.left _ _ _ _).acts
  · exact .pure _

theorem playServicePromptOrExit_acts (agentUri : String) :
    Within (Acts env K) (playServicePromptOrExit env agentUri) := by
  refine .seq (acts_of_moves ensureAnswered_moves) ?_
  refine .bind (acts_of_moves getApp_moves) fun app => ?_
  split
  · exact .seq (modifyApp_acts fun _ => rfl) <| .pure _
  · refine .bind (acts_of_moves (resolveAgentDisplayName_moves _)) fun name => ?_
    refine .bind (acts_of_moves playAudio_moves) fun token => ?_
    exact .seq (modifyApp_acts fun _ => rfl) <| .pure _

theorem ensureAnswered_pending (env : Env ω) (s : Sys ω) :
    ((ensureAnswered env).run s).2.app.pendingAgents = s.app.pendingAgents := by
  cases ha : s.app.answered with
  | true => simp [ensureAnswered, getApp, ha, Eff.when]
  | false =>
    simp only [ensureAnswered, getApp, run_bind, run_get, andThen_ok, run_pure, ha, Eff.when,
      Bool.not_false, if_true, answerCall]
    rcases hsend : (send env .answer).run s with ⟨e | u, t⟩
    · exact congrArg (·.app.pendingAgents) (Prod.mk.inj hsend).2.symm
    · exact congrArg (·.app.pendingAgents) (Prod.mk.inj hsend).2.symm

theorem bridgeAgent_acts (hd : K .drain) (hk : K .cancel)
    (h : leg ∈ s.app.pendingAgents.map (·.2) ∨ K (.stray leg)) : Acts env K s
      ((bridgeAgent env leg agentUri agentId).run s).2 := by
  refine bindAt (acts_of_moves ensureAnswered_moves s) fun _ s₁ hs₁ => ?_
  have hpending : s₁.app.pendingAgents = s.app.pendingAgents := by
    rw [← ensureAnswered_pending env s, hs₁]
  rw [← hpending] at h
  refine bindAt ?_ fun _ s₂ _ => ?_
  · exact .tail (.single (.move (.ask (.send (.bridge leg)) nofun))) (.bridge _ h)
  refine bind (acts_of_moves (send_moves rfl)) (fun _ => ?_) s₂
  refine .seq (modifyApp_acts fun _ => rfl) ?_
  iterate 4 refine .seq (acts_of_moves (cancelTimeout_moves _)) ?_
  refine .bindRun (.modifyGet fun s => ?_) ?_
  · exact (Act.move (.pending fun _ hagent => absurd hagent List.not_mem_nil)).acts
  intro s₃ pending s₄ htake
  -- nobody is being dialled any more when the other legs are cancelled
  obtain ⟨-, rfl⟩ := Prod.mk.inj htake
  refine bindAt ?_ fun _ s₅ _ => ?_
  · exact (removeLegs_moves hk fun leg _ => List.not_mem_nil).acts fun _ h => h
  refine bind (acts_of_moves (releasePhantomAgents_moves hd)) (fun _ => ?_) s₅
  refine .seq (acts_of_moves (emitRwi_moves rfl)) <| .bind (acts_of_moves getApp_moves) ?_
  refine fun app => .seq (emitLeft_acts _ _) ?_
  refine .seq (acts_of_moves (notifyConnected_moves _)) ?_
  exact playServicePromptOrExit_acts agentUri

def QueueApp.expects (app : QueueApp) (leg : String) : Bool :=
  decide (leg ∈ app.pendingAgents.map (·.2)) != decide (leg ∈ app.timedOutLegs)

theorem onAgentConnected_acts (hd : K .drain) (hk : K .cancel) (hc : ∀ leg, K (.consume leg))
    (h : ∀ leg, s.app.answeredLeg legId agentUri = some leg → s.app.expects leg = false →
      K (.stray leg)) :
    Acts env K s ((onAgentConnected env legId agentUri agentId).run s).2 := by
  change Acts env K s ((if s.app.callAlreadyConnected then _ else _ : Eff _ _ _).run s).2
  split
  · exact .refl
  split
  · exact .refl
  · next leg hleg =>
    have hstray := h leg hleg
    split
    · next htimedOut =>
      refine bindAt ?_ fun _ s₁ hs₁ => ?_
      · exact (Act.move (.consume (hc leg))).acts
      obtain ⟨-, rfl⟩ := Prod.mk.inj hs₁
      refine bindAt (bindAt ?_ fun _ t _ => .refl) fun _ t _ => .refl
      refine .tail (.single (.move (.ask (.send (.legRemove leg "superseded")) ?_))) ?_
      · intro h
        cases h
      by_cases hpending : leg ∈ s.app.pendingAgents.map (·.2)
      · exact .drop _ _ (hstray (by simp [QueueApp.expects, hpending, htimedOut]))
      · exact .move (.legRemove _ _ hk hpending)
    · next htimedOut =>
      refine bridgeAgent_acts hd hk ?_
      by_cases hpending : leg ∈ s.app.pendingAgents.map (·.2)
      · exact .inl hpending
      · exact .inr (hstray (by simp [QueueApp.expects, hpending, htimedOut]))

/-! ## All inputs -/

theorem onToken_acts (hclear : ∀ app, (clear app).kept = app.kept)
    (hnext : Within (Acts env K) next) :
    Within (Acts env K) (onToken token trackId clear next) := by
  unfold onToken
  split
  · exact .seq (modifyApp_acts hclear) <| hnext
  · exact .pure _

theorem onAudioComplete_acts (hk : K .cancel) :
    Within (Acts env K) (onAudioComplete env trackId) := by
  intro s
  cases hc : s.app.callAlreadyConnected with
  | false => exact (onAudioComplete_moves hk hc).acts fun _ h => h
  | true =>
    -- what is left are the prompts of a connected call
    simp only [onAudioComplete, getApp, run_bind, run_get, andThen_ok, run_pure]
    unfold QueueApp.callAlreadyConnected at hc
    split at hc
    · next hstate =>
      rw [hstate]
      exact .refl
    · next hstate =>
      rw [hstate]
      refine onToken_acts (fun app => ?_) (.pure _) s
      rfl
    · next hstate =>
      rw [hstate]
      refine onToken_acts (fun app => ?_) (playServicePromptOrExit_acts _) s
      rfl
    · cases hc

/-- The permits that callbacks take without being asked for more. -/
def Permit.usual : Permit → Prop
  | .escalate | .stray _ => False
  | _ => True

theorem Input.permits_usual {input : Input} (h : input.permits permit) :
    permit.usual ∨ permit = .escalate ∧ input = .timeout .escalationCheck := by
  cases permit with
  | escalate =>
    refine .inr ⟨rfl, ?_⟩
    cases input with
    | signal signal => cases signal <;> simp [permits] at h
    | timeout timer => cases timer <;> first | rfl | simp [permits] at h
    | _ => cases h
  | stray leg =>
    cases input with
    | signal signal | timeout signal => cases signal <;> simp [permits] at h
    | _ => cases h
  | _ => exact .inl trivial

def Input.answeredLeg (app : QueueApp) : Input → Option String
  | .signal (.agentConnected legId agentUri _) => app.answeredLeg legId agentUri
  | _ => none

/-- **What a callback can do**, whatever comes in. -/
theorem dispatch_acts (hu : ∀ permit, permit.usual → K permit)
    (he : input = .timeout .escalationCheck → K .escalate)
    (hs : ∀ leg, input.answeredLeg s.app = some leg → s.app.expects leg = false → K (.stray leg)) :
    Acts env K s ((dispatch env input).run s).2 := by
  cases hp : input.isPlayback with
  | true =>
    cases input with
    | audioComplete trackId => exact onAudioComplete_acts (hu _ trivial) s
    | _ => cases hp
  | false =>
    cases ha : input.isAnswer with
    | false =>
      have hturns : Turns env input.permits s ((dispatch env input).run s).2 :=
        dispatch_turns (fun hplay => absurd (hp.symm.trans hplay) Bool.false_ne_true) ha
      refine hturns.acts (fun permit hpermit => ?_) (hu _ trivial)
      rcases permits_usual hpermit with husual | ⟨rfl, hcheck⟩
      · exact hu permit husual
      · exact he hcheck
    | true =>
      obtain ⟨legId, agentUri, agentId, rfl⟩ := eq_of_isAnswer ha
      exact onAgentConnected_acts (hu _ trivial) (hu _ trivial) (fun _ => hu _ trivial) hs

theorem onEnter_acts (hr : K .reserve) (hk : K .cancel) (ctx : ApplicationContext) :
    Acts env K { s with app := s.app.entered ctx s.clock } ((onEnter env ctx).run s).2 :=
  (onEnter_ends hr ctx).turns.acts (fun _ h => h) hk

theorem releaseBindings_moves (hd : K .drain) : Within (Moves env K) (releaseBindings env) := by
  refine onApp_moves fun app => ?_
  split
  · exact releaseUnansweredRecoveryReservations_moves
  · exact releasePhantomAgents_moves hd

theorem onExit_acts (hd : K .drain) : Within (Acts env K) (onExit env) := by
  refine .seq (acts_of_moves (releaseBindings_moves hd)) ?_
  refine .bind (acts_of_moves getApp_moves) fun app => .seq (.when recordAbandoned_acts) ?_
  exact modifyApp_acts fun _ => rfl

theorem proceed_within [Std.Refl R]
    (hsend : ∀ cmd : Command, cmd.neutral = true → Within R (send env cmd)) (cancelled : Bool)
    (r : Except Exn AppAction × Sys ω) : R r.2 (proceed env cancelled r).2 := by
  have hconclude (cmd : Command) (s : Sys ω) (hn : cmd.neutral = true) :
      R s (conclude env cmd s).2 := by
    unfold conclude
    split
    · next hrun => exact (hsend cmd hn).of_run hrun
    · next hrun => exact (hsend cmd hn).of_run hrun
  obtain ⟨result, s⟩ := r
  cases result with
  | error e => cases e <;> exact Std.Refl.refl s
  | ok action =>
    unfold proceed
    dsimp only
    split
    · exact Std.Refl.refl s
    · cases action with
      | «continue» | exit => exact Std.Refl.refl s
      | hangup | transfer => exact hconclude _ _ rfl

theorem proceed_acts : Acts env K r.2 (proceed env cancelled r).2 :=
  proceed_within (fun _ hn => acts_of_moves (send_moves hn)) cancelled r

theorem leave_acts (hd : K .drain) :
    Acts env K { s with cancellable := false } (leave env s).2 := by
  unfold leave
  split
  · next hrun => exact (onExit_acts hd).of_run hrun
  · next hrun => exact (onExit_acts hd).of_run hrun

end

end RustPbx.Queue
