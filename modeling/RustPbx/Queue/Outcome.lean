import RustPbx.Queue.Acts

/-!
How the queueing of a call ends.

A queued call leaves the queue once: an agent is bridged and it is reported as connected, or it is
given up and reported as abandoned. Nothing keeps an agent from answering, or the application from
giving up once more, while the prompt of a call that is given up plays; `keepsOutcome` excludes it,
and that a callback is cut off between the flag of a report or the bridge and the report.
-/

namespace RustPbx.Queue

open Sip Call Routing Eff List Bool QueueApp

/-! ## Outcomes -/

/-- The end of the queueing that an output reports. -/
def Output.outcome : Output → Option LeftReason
  | .rwi _ _ (.queueLeft .connected _) => some .connected
  | .rwi _ _ (.queueLeft .abandoned _) => some .abandoned
  | _ => none

def outcomes (log : List Entry) : List LeftReason :=
  log.filterMap (·.output.outcome)

section

variable {env : Env ω}

theorem outcomes_record (s : Sys ω) (output : Output) :
    outcomes (s.record output).log = outcomes s.log ++ output.outcome.toList := by
  cases h : output.outcome <;> simp [outcomes, Sys.record, h]

theorem bridged_record (s : Sys ω) (output : Output) :
    (s.record output).Bridged ↔ s.Bridged ∨ output.isBridge = true := by
  constructor
  · rintro ⟨e, he, hbridge⟩
    rcases mem_append.mp he with hold | hnew
    · exact .inl ⟨e, hold, hbridge⟩
    · rw [mem_singleton.mp hnew] at hbridge
      exact .inr hbridge
  · rintro (⟨e, he, hbridge⟩ | hbridge)
    · exact ⟨e, mem_append_left _ he, hbridge⟩
    · exact ⟨_, mem_append_right _ (mem_singleton.mpr rfl), hbridge⟩

/-- Nothing is decided: no end is reported, nobody is bridged, and the call is not connected. -/
structure Rests (s s' : Sys ω) : Prop where
  outcomes : outcomes s'.log = outcomes s.log
  bridged : s'.Bridged ↔ s.Bridged
  gateway : s'.app.rwiGateway = s.app.rwiGateway
  abandoned : s'.app.abandonedRecorded = s.app.abandonedRecorded
  connected : s'.app.callAlreadyConnected = true → s.app.callAlreadyConnected = true

theorem Rests.trans (h₁ : Rests s t) (h₂ : Rests t s') : Rests s s' where
  outcomes := h₂.outcomes.trans h₁.outcomes
  bridged := h₂.bridged.trans h₁.bridged
  gateway := h₂.gateway.trans h₁.gateway
  abandoned := h₂.abandoned.trans h₁.abandoned
  connected := h₁.connected ∘ h₂.connected

instance : Std.Refl (@Rests ω) := ⟨fun _ => ⟨rfl, .rfl, rfl, rfl, id⟩⟩

instance : IsTrans (Sys ω) Rests := ⟨fun _ _ _ => .trans⟩

theorem record_rests (ho : output.outcome = none)
    (hb : output.isBridge = false) : Rests s (s.record output) where
  outcomes := by rw [outcomes_record, ho, Option.toList_none, append_nil]
  bridged := by rw [bridged_record, hb]; simp
  gateway := rfl
  abandoned := rfl
  connected := id

theorem app_rests (hg : app.rwiGateway = s.app.rwiGateway)
    (ha : app.abandonedRecorded = s.app.abandonedRecorded)
    (hc : app.callAlreadyConnected = true → s.app.callAlreadyConnected = true) :
    Rests s { s with app } :=
  ⟨rfl, .rfl, hg, ha, hc⟩

theorem outcome_of_neutral {output : Output} (h : output.neutral = true) :
    output.outcome = none ∧ output.isBridge = false := by
  cases output with
  | command cmd _ => cases cmd <;> first | exact ⟨rfl, rfl⟩ | cases h
  | rwi _ _ event =>
    cases event with
    | queueLeft reason _ => cases reason <;> first | exact ⟨rfl, rfl⟩ | cases h
    | _ => exact ⟨rfl, rfl⟩
  | _ => exact ⟨rfl, rfl⟩

theorem Move.rests (h : Move env K s s') : Rests s s' := by
  cases h with
  | record h => exact record_rests (outcome_of_neutral h).1 (outcome_of_neutral h).2
  | legAdd | legRemove | announce | join => exact record_rests rfl rfl
  | frame h => exact app_rests h.rwiGateway h.abandoned h.connected
  | pending | expire | escalate | attempted | drain | consume => exact app_rests rfl rfl id
  | ask | tick | issue | control => exact ⟨rfl, .rfl, rfl, rfl, id⟩

theorem Moves.rests (h : Moves env K s s') : Rests s s' := by
  induction h with
  | refl => exact Std.Refl.refl _
  | tail _ hstep ih => exact ih.trans hstep.rests

/-- The call is still queued. -/
structure Sys.Open (s : Sys ω) : Prop where
  outcomes : outcomes s.log = []
  bridged : ¬s.Bridged
  abandoned : s.app.abandonedRecorded = false
  connected : s.app.callAlreadyConnected = false

structure Sys.GivenUp (s : Sys ω) : Prop where
  outcomes : s.app.rwiGateway = true → outcomes s.log = [.abandoned]
  bridged : ¬s.Bridged
  abandoned : s.app.abandonedRecorded = true
  connected : s.app.callAlreadyConnected = false

structure Sys.Taken (s : Sys ω) : Prop where
  outcomes : s.app.rwiGateway = true → outcomes s.log = [.connected]
  bridged : s.Bridged
  connected : s.app.callAlreadyConnected = true

theorem Rests.not_connected (h : Rests s s') (hs : s.app.callAlreadyConnected = false) :
    s'.app.callAlreadyConnected = false :=
  eq_false_iff.mpr fun hc => eq_false_iff.mp hs (h.connected hc)

theorem Sys.Open.rests (hs : s.Open) (h : Rests s s') : s'.Open :=
  ⟨h.outcomes.trans hs.outcomes, fun hb => hs.bridged (h.bridged.mp hb),
    h.abandoned.trans hs.abandoned, h.not_connected hs.connected⟩

theorem Sys.GivenUp.rests (hs : s.GivenUp) (h : Rests s s') : s'.GivenUp :=
  ⟨fun hg => h.outcomes.trans (hs.outcomes (h.gateway ▸ hg)),
    fun hb => hs.bridged (h.bridged.mp hb),
    h.abandoned.trans hs.abandoned, h.not_connected hs.connected⟩

theorem Sys.Taken.rests (hs : s.Taken) (h : Rests s s') (hc : s'.app.callAlreadyConnected = true) :
    s'.Taken :=
  ⟨fun hg => h.outcomes.trans (hs.outcomes (h.gateway ▸ hg)), h.bridged.mpr hs.bridged, hc⟩

/-- No callback is cut off at an await. -/
def Env.Uncut (env : Env ω) : Prop :=
  ∀ world, (env.answer .await world).1.cancelled = false ∧
    (env.answer .await world).1.overdue = false

theorem pause_failsOnly (hu : env.Uncut) : FailsOnly P (pause env) := by
  intro s e h
  obtain ⟨hcancelled, hoverdue⟩ := hu s.world
  simp [pause, ask, tick, hcancelled, hoverdue] at h

theorem call_failsOnly (hu : env.Uncut) : FailsOnly P (call env c) :=
  .seq (pause_failsOnly hu) <| .bind (.modifyGet _) fun _ => .bind (pause_failsOnly hu)
    fun _ => .pure _

theorem getApp_failsOnly : FailsOnly P (getApp (ω := ω)) :=
  .bind .get fun _ => .pure _

theorem notifyRegistry_failsOnly (hu : env.Uncut) :
    FailsOnly P (notifyRegistry env event) :=
  .bind getApp_failsOnly fun _ => .when <| .seq (call_failsOnly hu) <| .pure _

theorem emitLeft_run :
    ∃ t, (emitRwi (.queueLeft reason groups)).run s = (.ok (), t) ∧ t.app = s.app ∧
      (t.Bridged ↔ s.Bridged) ∧ (s.app.rwiGateway = true → outcomes t.log =
        outcomes s.log ++ (Output.rwi "" "" (.queueLeft reason groups)).outcome.toList) := by
  cases hg : s.app.rwiGateway with
  | true =>
    refine ⟨s.record (.rwi s.app.callId s.app.config.name (.queueLeft reason groups)), ?_, rfl,
      ?_, fun _ => ?_⟩
    · simp [emitRwi, getApp, hg, record]
    · rw [bridged_record]
      simp [Output.isBridge]
    · rw [outcomes_record]
      cases reason <;> rfl
  | false => exact ⟨s, by simp [emitRwi, getApp, hg], rfl, .rfl, fun h => by cases h⟩

theorem recordAbandoned_givenUp (hu : env.Uncut) (hs : s.Open) :
    ((recordAbandoned env).run s).2.GivenUp := by
  let s₁ : Sys ω := { s with app := { s.app with abandonedRecorded := true } }
  let wait := s₁.app.waitSecs s₁.clock
  have hmoves : Within (Moves env fun _ => False) (notifyAbandoned env wait) :=
    notifyRegistry_moves fun _ => rfl
  obtain ⟨_, t, hnotify⟩ : ∃ a t, (notifyAbandoned env wait).run s₁ = (.ok a, t) :=
    (notifyRegistry_failsOnly hu).returns s₁
  have hrests : Rests s₁ t := (hmoves.of_run hnotify).rests
  obtain ⟨t', hemit, happ, hbridged, houtcome⟩ := emitLeft_run
  have hrun : (recordAbandoned env).run s = (.ok (), t') := by
    rw [show (recordAbandoned env).run s = andThen ((notifyAbandoned env wait).run s₁) _ from rfl,
      hnotify]
    exact hemit
  rw [hrun]
  refine ⟨fun hg => ?_, fun hb => ?_, ?_, ?_⟩
  · rw [houtcome (happ ▸ hg), hrests.outcomes.trans hs.outcomes]
    rfl
  · exact hs.bridged (hrests.bridged.mp (hbridged.mp hb))
  · rw [happ]
    exact hrests.abandoned
  · rw [happ]
    exact hrests.not_connected hs.connected

theorem Turns.decides (hu : env.Uncut) (h : Turns env K s s') (hs : s.Open) :
    s'.Open ∨ s'.GivenUp := by
  obtain ⟨t, hm | ⟨u, reason, hm, rfl⟩, hm'⟩ := h
  · exact .inl (hs.rests (hm.rests.trans hm'.rests))
  · have hgive : Moves env (fun _ => True) _
        ((playUnavailablePromptAndThenFallback env reason).run u).2 := giveUp_moves trivial
    exact .inr ((recordAbandoned_givenUp hu (hs.rests hm.rests)).rests
      (hgive.rests.trans hm'.rests))

/-! ## Bridging -/

/-- No end is reported, and a bridge stays a bridge. -/
structure Silent (s s' : Sys ω) : Prop where
  outcomes : outcomes s'.log = outcomes s.log
  bridged : s.Bridged → s'.Bridged
  gateway : s'.app.rwiGateway = s.app.rwiGateway

theorem Silent.trans (h₁ : Silent s t) (h₂ : Silent t s') : Silent s s' :=
  ⟨h₂.outcomes.trans h₁.outcomes, h₂.bridged ∘ h₁.bridged, h₂.gateway.trans h₁.gateway⟩

instance : Std.Refl (@Silent ω) := ⟨fun _ => ⟨rfl, id, rfl⟩⟩

instance : IsTrans (Sys ω) Silent := ⟨fun _ _ _ => .trans⟩

theorem Rests.silent (h : Rests s s') : Silent s s' :=
  ⟨h.outcomes, h.bridged.mpr, h.gateway⟩

theorem silent_of_moves (h : Within (Moves env fun _ => True) x) : Within Silent x :=
  fun s => (h s).rests.silent

theorem modifyApp_silent
    (h : ∀ app, (f app).rwiGateway = app.rwiGateway) : Within Silent (modifyApp (ω := ω) f) :=
  .modify fun s => ⟨rfl, id, h s.app⟩

theorem removeLegs_rests : Within Rests (removeLegs env legs reason) := by
  refine .each fun leg _ => .seq (.bind (.modifyGet fun s => ?_) fun _ => ?_) <| .pure _
  · exact ⟨rfl, .rfl, rfl, rfl, id⟩
  · exact .seq (.modify fun _ => record_rests rfl rfl) <| .pure _

theorem getApp_silent : Within Silent (getApp (ω := ω)) :=
  .bind .get fun _ => .pure _

theorem cancelTimeout_silent (timer : Timer) : Within Silent (cancelTimeout (ω := ω) timer) :=
  .seq (.modify fun _ => (record_rests rfl rfl).silent) <| .modify fun _ => ⟨rfl, id, rfl⟩

theorem emitConnected_silent (agentId leg : String) :
    Within Silent (emitRwi (ω := ω) (.queueAgentConnected agentId leg)) := by
  refine .bind getApp_silent fun app => ?_
  split
  · exact .modify fun _ => (record_rests rfl rfl).silent
  · exact .pure _

theorem playServicePromptOrExit_silent : Within Silent (playServicePromptOrExit env agentUri) := by
  refine .seq (silent_of_moves ensureAnswered_moves) <| .bind getApp_silent fun app => ?_
  split
  · exact .seq (modifyApp_silent fun _ => rfl) <| .pure _
  · refine .bind (silent_of_moves (resolveAgentDisplayName_moves _)) fun name => ?_
    refine .bind (silent_of_moves playAudio_moves) fun token => ?_
    exact .seq (modifyApp_silent fun _ => rfl) <| .pure _

/-- The computation reports the connection once, if it returns. -/
def Connects (x : Eff (Sys ω) Exn α) : Prop :=
  ∀ s a s', x.run s = (.ok a, s') → s'.app.rwiGateway = s.app.rwiGateway ∧
    (s.Bridged → s'.Bridged) ∧
    (s.app.rwiGateway = true → outcomes s'.log = outcomes s.log ++ [.connected])

theorem Connects.bind (hx : Within Silent x) (hf : ∀ a, Connects (f a)) : Connects (x >>= f) := by
  intro s b s' h
  obtain ⟨a, t, hrun, hrest⟩ := bind_ok h
  have hsilent := hx.of_run hrun
  obtain ⟨hgateway, hbridged, houtcome⟩ := hf a t b s' hrest
  refine ⟨hgateway.trans hsilent.gateway, hbridged ∘ hsilent.bridged, fun hg => ?_⟩
  rw [houtcome (hsilent.gateway ▸ hg), hsilent.outcomes]

theorem Connects.report (groups : Option (List String)) (hf : ∀ a, Within Silent (f a)) :
    Connects (emitRwi (.queueLeft .connected groups) >>= f) := by
  intro s b s' h
  obtain ⟨t, hemit, happ, hbridged, houtcome⟩ := emitLeft_run
  rw [run_bind, hemit] at h
  have hsilent := (hf ()).of_run h
  refine ⟨by rw [hsilent.gateway, happ], hsilent.bridged ∘ hbridged.mpr, fun hg => ?_⟩
  rw [hsilent.outcomes, houtcome hg]
  rfl

theorem send_bridge_bridged :
    Silent s ((send env (.bridge leg)).run s).2 ∧ ((send env (.bridge leg)).run s).2.Bridged := by
  let reply := env.answer (.send (.bridge leg)) s.world
  have hrun : ((send env (.bridge leg)).run s).2 =
      Sys.record { s with world := reply.2 } (.command (.bridge leg) reply.1.isOk) := rfl
  rw [hrun]
  refine ⟨⟨?_, fun hb => ?_, rfl⟩, (bridged_record _ _).mpr (.inr rfl)⟩
  · rw [outcomes_record]
    exact append_nil _
  · exact (bridged_record _ _).mpr (.inl hb)

theorem bridgeAgent_taken (hs : s.Open)
    (h : (bridgeAgent env leg agentUri agentId).run s = (.ok action, s')) :
    s'.Taken ∧ s'.app.served = true := by
  obtain ⟨-, hserved⟩ := bridgeAgent_serves _ _ _ h
  obtain ⟨_, s₁, hanswer, h⟩ := bind_ok h
  obtain ⟨_, s₂, hbridge, h⟩ := bind_ok h
  have hmoves : Within (Moves env fun _ => False) (ensureAnswered env) := ensureAnswered_moves
  have h₁ := (hmoves.of_run hanswer).rests
  obtain ⟨h₂, hbridged⟩ := send_bridge_bridged
  rw [hbridge] at h₂ hbridged
  have htaken {x : Eff (Sys ω) Exn AppAction} (hx : Connects x)
      (hrun : x.run s₂ = (.ok action, s')) : s'.Taken := by
    obtain ⟨hgateway, hkept, houtcome⟩ := hx s₂ action s' hrun
    refine ⟨fun hg => ?_, hkept hbridged, connected_of_served hserved⟩
    rw [houtcome (hgateway ▸ hg), h₂.outcomes, h₁.outcomes, hs.outcomes]
    rfl
  refine ⟨htaken ?_ h, hserved⟩
  refine .bind (silent_of_moves (send_moves rfl)) fun _ => ?_
  refine .bind (modifyApp_silent fun _ => rfl) fun _ => ?_
  refine .bind (cancelTimeout_silent _) fun _ => .bind (cancelTimeout_silent _) fun _ => ?_
  refine .bind (cancelTimeout_silent _) fun _ => .bind (cancelTimeout_silent _) fun _ => ?_
  refine .bind (.modifyGet fun _ => ⟨rfl, id, rfl⟩) fun pending => ?_
  refine .bind (fun s => (removeLegs_rests s).silent) fun _ => ?_
  refine .bind (silent_of_moves (releasePhantomAgents_moves trivial)) fun _ => ?_
  refine .bind (emitConnected_silent _ _) fun _ => .bind getApp_silent fun app => ?_
  refine .report _ fun _ => .seq (silent_of_moves (notifyConnected_moves _)) ?_
  exact playServicePromptOrExit_silent

theorem send_failsOnly : FailsOnly (· ≠ .cancelled) (send env cmd) := by
  refine .bind (.bind (.modifyGet _) fun _ => .seq (.modify _) <| .pure _) fun reply => ?_
  rintro s e h rfl
  cases reply <;> cases h

theorem ensureAnswered_failsOnly : FailsOnly (· ≠ .cancelled) (ensureAnswered env) :=
  .bind getApp_failsOnly fun _ => .when <| .seq send_failsOnly <| .modify _

theorem emitRwi_failsOnly (event : Event) : FailsOnly P (emitRwi (ω := ω) event) := by
  refine .bind getApp_failsOnly fun app => ?_
  split
  · exact .modify _
  · exact .pure _

theorem playServicePromptOrExit_failsOnly (hu : env.Uncut) :
    FailsOnly (· ≠ .cancelled) (playServicePromptOrExit env agentUri) := by
  refine .seq ensureAnswered_failsOnly <| .bind getApp_failsOnly fun app => ?_
  split
  · exact .seq (.modify _) <| .pure _
  · refine .bind (.bind getApp_failsOnly fun app => ?_) fun name => ?_
    · split
      · exact .bind (call_failsOnly hu) fun _ => .pure _
      · exact .pure _
    · refine .bind (.bind (.modifyGet _) fun _ => .seq send_failsOnly <| .pure _) ?_
      exact fun token => .seq (.modify _) <| .pure _

theorem bridgeAgent_failsOnly (hu : env.Uncut) :
    FailsOnly (· ≠ .cancelled) (bridgeAgent env leg agentUri agentId) := by
  have hcancel (timer : Timer) : FailsOnly (· ≠ .cancelled) (cancelTimeout (ω := ω) timer) :=
    .seq (.modify _) <| .modify _
  refine .seq ensureAnswered_failsOnly <| .seq send_failsOnly ?_
  refine .seq send_failsOnly <| .seq (.modify _) <| .seq (hcancel _) ?_
  refine .seq (hcancel _) <| .seq (hcancel _) <| .seq (hcancel _) ?_
  refine .bind (.modifyGet _) fun pending => .seq (.each (fun _ => ?_) _) ?_
  · exact .seq (.bind (.modifyGet _) fun _ => .bind (.modify _) fun _ => .pure _) <| .pure _
  refine .seq (.bind getApp_failsOnly fun app => .bind (.modify _) fun _ => ?_) ?_
  · refine .when <| .each (fun _ => .when ?_) _
    exact .seq (call_failsOnly hu) <| .pure _
  refine .seq (emitRwi_failsOnly _) <| .bind getApp_failsOnly fun app => ?_
  refine .seq (emitRwi_failsOnly _) <| .bind ?_ fun _ => ?_
  · exact .bind (.bind .get fun _ => .pure _) fun _ => notifyRegistry_failsOnly hu
  · exact playServicePromptOrExit_failsOnly hu

/-! ## After the decision -/

/-- By the guards of its handler, the input neither makes the application give the call up nor
bridge an agent. -/
def quietInput (env : Env ω) (s : Sys ω) : Input → Bool
  | .signal .allAgentsBusy => false
  | .signal (.agentConnected legId agentUri _) =>
    s.app.callAlreadyConnected ||
      (s.app.answeredLeg legId agentUri).all fun leg => leg ∈ s.app.timedOutLegs
  | .signal (.agentBusy legId _ _ _) | .signal (.agentNoAnswer legId _ _ _) =>
    s.app.callAlreadyConnected || legId.any fun leg => leg ∈ s.app.timedOutLegs
  | .signal .dialNext => s.app.callAlreadyConnected || !(s.app.isDialing && s.app.noLeg)
  | .timeout .agentRing => s.app.callAlreadyConnected || s.app.staleRingTimeout
  | .timeout .maxWait =>
    (s.app.nextEscalationCheckDelay s.clock).isSome ||
      (!s.app.escalatedGroups.isEmpty && !s.app.maxWaitGraceUsed)
  | .timeout .queueRetry =>
    !s.app.retriesStaticDial &&
      (s.app.callAlreadyConnected || s.app.fallbackExecuted || !s.app.pollsForAgents)
  | .diagnostic request => !(dispatchEvidence env s request).recoverable
  | _ => true

theorem rests_of_moves (h : Within (Moves env fun _ => True) x) : Rests s (x.run s).2 :=
  (h s).rests

theorem Rests.app (h : Rests s ((f s.app).run s).2) : Rests s ((getApp >>= f).run s).2 :=
  h

theorem Rests.time (h : Rests s ((f s.clock).run s).2) : Rests s ((now >>= f).run s).2 :=
  h

theorem forgetTimedOut_rests (leg : String) :
    Within Rests (modifyApp (ω := ω) (·.forgetTimedOut leg)) :=
  .modify fun _ => app_rests rfl rfl id

theorem onAgentConnected_rests (h : s.app.callAlreadyConnected = true ∨
      ∀ leg, s.app.answeredLeg legId agentUri = some leg → leg ∈ s.app.timedOutLegs) :
    Rests s ((onAgentConnected env legId agentUri agentId).run s).2 := by
  refine .app ?_
  split
  · exact Std.Refl.refl s
  · next hc =>
    split
    · exact Std.Refl.refl s
    · next leg hleg =>
      rw [if_pos (h.resolve_left hc leg hleg)]
      refine Within.bind (forgetTimedOut_rests leg) (fun _ => ?_) s
      exact .seq removeLegs_rests <| .pure _

theorem onAgentFailed_rests
    (h : s.app.callAlreadyConnected = true ∨ ∃ leg, legId = some leg ∧ leg ∈ s.app.timedOutLegs) :
    Rests s ((onAgentFailed env reason legId report).run s).2 := by
  refine .app ?_
  split
  · exact Std.Refl.refl s
  · next hc =>
    obtain ⟨leg, rfl, hleg⟩ := h.resolve_left hc
    simp only [Option.filter_some, hleg]
    exact Within.bind (forgetTimedOut_rests leg) (fun _ => .pure _) s

theorem onMaxWait_rests (h : (s.app.nextEscalationCheckDelay s.clock).isSome = true ∨
      (s.app.escalatedGroups ≠ [] ∧ s.app.maxWaitGraceUsed = false)) :
    Rests s ((onMaxWait env).run s).2 := by
  have hset (delay : Nat) : Within (Moves env fun _ => True) (setTimeout .maxWait delay) :=
    setTimeout_moves _
  refine .app (.time ?_)
  split
  · exact rests_of_moves (.seq (hset _) <| .pure _)
  · next hnone =>
    rw [if_pos (h.resolve_left (by simp [hnone]))]
    exact rests_of_moves <| .seq (modifyApp_moves fun _ => .of rfl id) <|
      .bind deskRingTimeout_moves fun _ => .seq (hset _) <| .pure _

theorem onAudioComplete_rests (hc : s.app.callAlreadyConnected = true → s.app.served = true) :
    Rests s ((onAudioComplete env trackId).run s).2 := by
  cases hconn : s.app.callAlreadyConnected with
  | false =>
    have hmoves : Moves env (fun _ => True) s ((onAudioComplete env trackId).run s).2 :=
      onAudioComplete_moves trivial hconn
    exact hmoves.rests
  | true =>
    have hserved := hc hconn
    simp only [onAudioComplete, getApp, run_bind, run_get, andThen_ok, run_pure]
    unfold served at hserved
    split at hserved
    · next hstate =>
      rw [hstate]
      exact Std.Refl.refl s
    · next hstate =>
      rw [hstate]
      dsimp only [onToken]
      split
      · exact app_rests rfl rfl fun _ => hconn
      · exact Std.Refl.refl s
    · cases hserved

theorem diagnoseDispatch_rests (h : (dispatchEvidence env s request).recoverable = false) :
    Rests s ((diagnoseDispatch env request).run s).2 := by
  obtain ⟨world, reply, hrun⟩ := diagnoseDispatch_responds h
  have hasked : Rests s { s with world } := ⟨rfl, .rfl, rfl, rfl, id⟩
  rw [hrun]
  exact hasked.trans (record_rests rfl rfl)

/-- **A quiet input decides nothing.** -/
theorem dispatch_rests (h : quietInput env s input = true)
    (hc : s.app.callAlreadyConnected = true → s.app.served = true) :
    Rests s ((dispatch env input).run s).2 := by
  cases input with
  | signal signal =>
    cases signal with
    | agentRinging legId _ agentId => exact rests_of_moves (onAgentRinging_moves trivial)
    | agentConnected legId agentUri agentId =>
      refine onAgentConnected_rests ?_
      simpa [quietInput, Option.all_eq_true] using h
    | agentBusy legId _ agentId _ | agentNoAnswer legId _ agentId _ =>
      refine onAgentFailed_rests ?_
      simpa [quietInput, Option.any_eq_true] using h
    | dialNext =>
      have hguard : (s.app.isDialing && s.app.pendingAgents.isEmpty &&
          s.app.ringingAgentLegs.isEmpty && !s.app.callAlreadyConnected) = false := by
        simp only [quietInput, noLeg] at h
        grind
      refine .app ?_
      rw [hguard]
      exact Std.Refl.refl s
    | allAgentsBusy => cases h
  | recoveryDialFailed requestId leg => exact rests_of_moves recoveryDialFailed_moves
  | timeout timer =>
    cases timer with
    | agentRing =>
      refine .app ?_
      rw [if_pos ((or_comm _ _).trans h)]
      exact Std.Refl.refl s
    | maxWait =>
      refine onMaxWait_rests ?_
      simpa [quietInput] using h
    | queueRetry =>
      obtain ⟨hstatic, hguard⟩ : s.app.retriesStaticDial = false ∧ (s.app.callAlreadyConnected ||
          s.app.fallbackExecuted || !s.app.pollsForAgents) = true := by
        simpa [quietInput] using h
      refine .app ?_
      rw [hstatic]
      refine .app ?_
      rw [if_pos hguard]
      exact Std.Refl.refl s
    | escalationCheck =>
      exact rests_of_moves (onEscalationCheck_moves trivial trivial trivial)
    | other _ => exact Std.Refl.refl s
  | audioComplete trackId => exact onAudioComplete_rests hc
  | diagnostic request =>
    refine diagnoseDispatch_rests ?_
    simpa [quietInput] using h
  | other => exact Std.Refl.refl s

theorem quietInput_of_served (hs : s.app.served = true)
    (hu : undisturbed ⟨.running, s, inputs⟩ input = true) : quietInput env s input = true := by
  have hc := connected_of_served hs
  have hdialing := (not_dialing_of_served hs).1
  simp only [undisturbed] at hu
  cases input with
  | signal signal => cases signal <;> simp_all [quietInput]
  | timeout timer =>
    cases timer <;> simp_all [quietInput, retriesStaticDial]
  | diagnostic request => simp [quietInput, dispatchEvidence, hc]
  | _ => rfl

/-! ## Runs -/

/-- A call that was given up or that an agent has taken stays so. -/
def keepsOutcome (env : Env ω) (c : Config ω) (input : Input) : Bool :=
  undisturbed c input && (!c.sys.app.abandonedRecorded || quietInput env c.sys input)

/-- What becomes of a queued call is reported as it happens. -/
def Sys.Decided (s : Sys ω) : Prop :=
  s.Open ∨ s.GivenUp ∨ s.Taken

/-- The call has left the queue, and was reported to have left it. -/
def Sys.Ended (s : Sys ω) : Prop :=
  (s.app.rwiGateway = true → outcomes s.log = [.abandoned]) ∧ ¬s.Bridged ∨
    (s.app.rwiGateway = true → outcomes s.log = [.connected]) ∧ s.Bridged

theorem Sys.Decided.rests (hs : s.Decided) (h : Rests s s')
    (hc : s.app.callAlreadyConnected = true → s'.app.callAlreadyConnected = true) : s'.Decided := by
  rcases hs with hs | hs | hs
  · exact .inl (hs.rests h)
  · exact .inr (.inl (hs.rests h))
  · exact .inr (.inr (hs.rests h (hc hs.connected)))

theorem dispatch_decides (hu : env.Uncut) (hs : s.Open) :
    ((dispatch env input).run s).2.Decided ∨
      ∃ e, ((dispatch env input).run s).1 = .error e ∧ e ≠ .cancelled := by
  cases ha : input.isAnswer with
  | false =>
    have hturns : Turns env input.permits s ((dispatch env input).run s).2 :=
      dispatch_turns (fun _ => hs.connected) ha
    exact .inl ((hturns.decides hu hs).imp_right .inl)
  | true =>
    obtain ⟨legId, agentUri, agentId, rfl⟩ := Input.eq_of_isAnswer ha
    by_cases hquiet : ∀ leg, s.app.answeredLeg legId agentUri = some leg → leg ∈ s.app.timedOutLegs
    · exact .inl (.inl (hs.rests (onAgentConnected_rests (.inr hquiet))))
    · obtain ⟨leg, hleg, hfresh⟩ : ∃ leg, s.app.answeredLeg legId agentUri = some leg ∧
          leg ∉ s.app.timedOutLegs := by simpa using hquiet
      have hrun : (dispatch env (.signal (.agentConnected legId agentUri agentId))).run s =
          (bridgeAgent env leg agentUri agentId).run s := by
        simp only [dispatch, onSignal, onAgentConnected, getApp, run_bind, run_get, andThen_ok,
          run_pure, hs.connected, hleg, hfresh, false_eq_true, if_false]
      rw [hrun]
      rcases hbridge : (bridgeAgent env leg agentUri agentId).run s with ⟨e | action, s'⟩
      · exact .inr ⟨e, rfl, bridgeAgent_failsOnly hu s e (by rw [hbridge])⟩
      · exact .inl (.inr (.inr (bridgeAgent_taken hs hbridge).1))

theorem onExit_ended (hu : env.Uncut) (hs : s.Decided)
    (h : (onExit env).run s = (.ok (), s')) : s'.Ended := by
  obtain ⟨_, t, hrelease, h⟩ := bind_ok h
  have hmoves : Within (Moves env fun _ => True) (releaseBindings env) :=
    releaseBindings_moves trivial
  have ht : t.Decided := by
    refine hs.rests (hmoves.of_run hrelease).rests fun hc => ?_
    exact (Calm.connected (releaseBindings_calm.of_run hrelease)).trans hc
  replace h : (do
      Eff.when (!t.app.callAlreadyConnected && !t.app.abandonedRecorded) (recordAbandoned env)
      modifyApp ({ · with state := .done })).run t = (.ok (), s') := h
  rcases ht with ht | ht | ht
  · rw [ht.connected, ht.abandoned] at h
    obtain ⟨_, u, hrecord, h⟩ := bind_ok h
    have hu := recordAbandoned_givenUp hu ht
    have hu : u.GivenUp := by rwa [show (recordAbandoned env).run t = _ from hrecord] at hu
    obtain ⟨-, rfl⟩ := Prod.mk.inj h
    exact .inl ⟨hu.outcomes, hu.bridged⟩
  · rw [ht.abandoned, Bool.not_true, Bool.and_false] at h
    obtain ⟨-, rfl⟩ := Prod.mk.inj h
    exact .inl ⟨ht.outcomes, ht.bridged⟩
  · rw [ht.connected] at h
    obtain ⟨-, rfl⟩ := Prod.mk.inj h
    exact .inr ⟨ht.outcomes, ht.bridged⟩

structure Config.Accounted (c : Config ω) : Prop where
  start : c.phase = .start → c.sys.Open
  running : c.phase = .running ∨ c.phase = .closing → c.sys.Decided
  done : c.phase = .done → c.sys.Ended

theorem accounted_of_decided (h : r.2.Decided ∨ ∃ e, r.1 = .error e ∧ e ≠ .cancelled) :
    Config.Accounted ⟨(proceed env cancelled r).1, (proceed env cancelled r).2, inputs⟩ := by
  have hrests : Rests r.2 (proceed env cancelled r).2 :=
    proceed_within (fun _ hn s => rests_of_moves (send_moves hn)) cancelled r
  have happ : (proceed env cancelled r).2.app = r.2.app :=
    proceed_within (R := fun s s' => s'.app = s.app) (fun _ _ _ => rfl) cancelled r
  refine ⟨fun h => absurd h proceed_phase.1, fun hphase => ?_, fun h => absurd h proceed_phase.2⟩
  rcases h with h | ⟨e, he, hne⟩
  · exact h.rests hrests fun hc => happ ▸ hc
  · obtain ⟨result, s⟩ := r
    obtain rfl : result = .error e := he
    cases e with
    | cancelled => exact absurd rfl hne
    | error | expired => exact hphase.elim nofun nofun

theorem LoopStep.accounted (hu : env.Uncut)
    (h : LoopStep env (fun c input => keepsOutcome env c input = true) c c') (hc : c.Serving)
    (ha : c.Accounted) : c'.Accounted := by
  cases h with
  | enter ctx cancelled s =>
    obtain ⟨houtcomes, hbridged, habandoned, -⟩ := ha.start rfl
    have hs : Sys.Open { s with app := s.app.entered ctx s.clock } :=
      ⟨houtcomes, hbridged, habandoned, rfl⟩
    have hends : Ends env (fun _ => True) _ ((onEnter env ctx).run s).2 := onEnter_ends trivial ctx
    exact accounted_of_decided (.inl ((hends.turns.decides hu hs).imp_right .inl))
  | @drift s s' inputs hd =>
    have hs : s.Decided := ha.running (.inl rfl)
    refine ⟨nofun, fun _ => hs.rests ?_ ?_, nofun⟩ <;> rw [hd.rest]
    · exact ⟨rfl, .rfl, rfl, rfl, id⟩
    · exact id
  | @callback cancelled s inputs input hkeeps =>
    obtain ⟨hdisturb, hquiet⟩ : undisturbed ⟨.running, s, inputs⟩ input = true ∧
        (s.app.abandonedRecorded = false ∨ quietInput env s input = true) := by
      simpa [keepsOutcome] using hkeeps
    have hs : s.Decided := ha.running (.inl rfl)
    rcases hs with hs | hs | hs
    · exact accounted_of_decided (dispatch_decides hu hs)
    · have hrests :=
        dispatch_rests (hquiet.resolve_left (by simp [hs.abandoned])) (hc.connected rfl)
      exact accounted_of_decided (.inl (.inr (.inl (hs.rests hrests))))
    · have hserved := hc.connected rfl hs.connected
      have hrests : Rests s ((dispatch env input).run s).2 :=
        dispatch_rests (quietInput_of_served hserved hdisturb) fun _ => hserved
      have hsettles : Settles (dispatch env input) s := dispatch_settles hserved hdisturb
      exact accounted_of_decided (.inl (.inr (.inr (hs.rests hrests hsettles.connected))))
  | quit => exact ⟨nofun, fun _ => ha.running (.inl rfl), nofun⟩
  | @exit s inputs =>
    have hs : s.Decided := ha.running (.inr rfl)
    have hs : Sys.Decided { s with cancellable := false } := hs.rests ⟨rfl, .rfl, rfl, rfl, id⟩ id
    unfold leave
    split
    · next hrun => exact ⟨nofun, fun h => by simp at h, fun _ => onExit_ended hu hs hrun⟩
    · exact ⟨nofun, fun h => by simp at h, nofun⟩

theorem Runs.accounted {setup : Setup} (hu : env.Uncut)
    (h : Runs env (fun c input => keepsOutcome env c input = true) (setup.start world clock) c) :
    c.Serving ∧ c.Accounted := by
  induction h with
  | refl =>
    have hempty : ¬(setup.start world clock).sys.Bridged := fun ⟨_, he, _⟩ =>
      absurd he not_mem_nil
    exact ⟨⟨fun _ => hempty, nofun, nofun⟩, ⟨fun _ => ⟨rfl, hempty, rfl, rfl⟩, nofun, nofun⟩⟩
  | tail _ hstep ih =>
    refine ⟨(hstep.mono fun c input h => ?_).serving ih.1, hstep.accounted hu ih.1 ih.2⟩
    exact (and_eq_true_iff.mp h).1

/-- **A call leaves the queue once**: exactly one end is reported, and it is the connection exactly
when an agent's leg was bridged. -/
theorem leaves_queue_once {setup : Setup} {world : ω} {clock : Nat} {c : Config ω} (hu : env.Uncut)
    (h : Runs env (fun c input => keepsOutcome env c input = true) (setup.start world clock) c)
    (hdone : c.phase = .done) (hg : c.sys.app.rwiGateway = true) :
    ∃ reason, outcomes c.sys.log = [reason] ∧ (reason = .connected ↔ c.sys.Bridged) := by
  rcases (Runs.accounted hu h).2.done hdone with ⟨houtcomes, hbridged⟩ | ⟨houtcomes, hbridged⟩
  · exact ⟨_, houtcomes hg, nofun, fun hb => absurd hb hbridged⟩
  · exact ⟨_, houtcomes hg, fun _ => hbridged, fun _ => rfl⟩

end

/-- The caller who hangs up while the service prompt plays was connected. -/
theorem leaves_queue_once_served : ∃ reason, outcomes (servedCall.close .idle).sys.log = [reason] ∧
      (reason = .connected ↔ (servedCall.close .idle).sys.Bridged) := by
  have hruns : Runs .idle (fun c input => keepsOutcome .idle c input = true)
      (promptedQueue.start () 0) (servedCall.close .idle) :=
    (runs_servedCall (by decide) (by decide)).trans runs_close
  exact leaves_queue_once (fun _ => ⟨rfl, rfl⟩) hruns (by decide) (by decide)

def lateCall : Config Unit :=
  ((promptedQueue.start () 0).enter .idle ⟨"caller", true, true, true, true, true, true⟩).play .idle
    [.signal .dialNext, .timeout .maxWait, .signal (.agentConnected (some "1") "agent" none)]

/-- An agent who answers while the busy prompt plays is bridged to a call that was already
reported as abandoned. -/
theorem answered_after_abandoned :
    Runs .idle (fun _ _ => True) (promptedQueue.start () 0) (lateCall.close .idle) ∧
      (lateCall.close .idle).phase = .done ∧ (lateCall.close .idle).sys.app.rwiGateway = true ∧
      outcomes (lateCall.close .idle).sys.log = [.abandoned, .connected] := by
  refine ⟨?_, by decide, by decide, by decide⟩
  exact (runs_enter _ _ _ _).trans ((runs_play fun _ _ => trivial).trans runs_close)

end RustPbx.Queue
