import RustPbx.Queue.Acts

/-!
The order in which a call joins the groups of its escalation timeline.

A check looks for the first step of the whole timeline whose threshold the current stage has
reached. So a later step with a smaller threshold overtakes the next one, and without an agent
registry the stage is never restarted. `Setup.Staged` excludes both.
-/

namespace RustPbx.Queue

open Sip Call Routing Eff List EscalationStep QueueApp

def Output.joined : Output → Option String
  | .command (.updateQueueMeta group) _ => some group
  | _ => none

def joins (log : List Entry) : List (Nat × String) :=
  log.filterMap fun e => e.output.joined.map (e.time, ·)

/-- The instant of the last join, or the one at which the call was queued. -/
def latest (since : Nat) (js : List (Nat × String)) : Nat :=
  js.foldl (fun _ j => j.1) since

/-- The groups of the first steps are joined in order, each after the threshold of its step in the
group before. -/
def InTurn : List EscalationStep → Nat → List (Nat × String) → Prop
  | _, _, [] => True
  | [], _, _ :: _ => False
  | step :: steps, since, j :: js =>
    j.2 = step.addSkillGroup ∧ since + secs step.thresholdSecs ≤ j.1 ∧ InTurn steps j.1 js

namespace InTurn

theorem nil : InTurn steps since [] := by
  cases steps <;> trivial

theorem groups (h : InTurn steps since js) :
    js.map (·.2) = (steps.take js.length).map (·.addSkillGroup) := by
  induction js generalizing steps since with
  | nil => rfl
  | cons j js ih =>
    cases steps with
    | nil => cases h
    | cons step steps => simp [h.1, ih h.2.2]

theorem next (h : InTurn steps since js) (hstep : steps[js.length]? = some step)
    (ht : latest since js + secs step.thresholdSecs ≤ t) :
    InTurn steps since (js ++ [(t, step.addSkillGroup)]) := by
  induction js generalizing steps since with
  | nil =>
    cases steps with
    | nil => cases hstep
    | cons first steps =>
      obtain rfl : first = step := Option.some.inj hstep
      exact ⟨rfl, ht, nil⟩
  | cons j js ih =>
    cases steps with
    | nil => cases h
    | cons first steps => exact ⟨h.1, h.2.1, ih h.2.2 (by simpa using hstep) ht⟩

end InTurn

/-- Whether a check that comes after `wait` seconds of a stage takes the step. -/
def EscalationStep.due (wait : Nat) (escalated : List String) (step : EscalationStep) : Bool :=
  step.thresholdSecs ≤ wait && step.addSkillGroup ∉ escalated

theorem EscalationStep.due_iff {step : EscalationStep} : step.due wait escalated = true ↔
      step.thresholdSecs ≤ wait ∧ step.addSkillGroup ∉ escalated := by
  simp [due]

theorem find?_due {steps : List EscalationStep} (hgroups : (steps.map (·.addSkillGroup)).Nodup)
    (hmono : (steps.map (·.thresholdSecs)).Pairwise (· ≤ ·))
    (h : steps.find? (·.due wait ((steps.take k).map (·.addSkillGroup))) = some step) :
    steps[k]? = some step ∧ step.thresholdSecs ≤ wait := by
  have hwait := (due_iff.mp (find?_some h)).1
  refine ⟨?_, hwait⟩
  -- none of the steps that were taken is due
  have hdone : (steps.take k).find? (·.due wait ((steps.take k).map (·.addSkillGroup))) = none := by
    refine find?_eq_none.mpr fun taken htaken hdue => ?_
    exact (due_iff.mp hdue).2 (mem_map.mpr ⟨taken, htaken, rfl⟩)
  rw [← take_append_drop k steps, find?_append, take_append_drop, hdone,
    Option.none_or] at h
  have hmono' : ((steps.drop k).map (·.thresholdSecs)).Pairwise (· ≤ ·) := by
    rw [map_drop]
    exact hmono.sublist (drop_sublist _ _)
  cases hdrop : steps.drop k with
  | nil => simp [hdrop] at h
  | cons next rest =>
    have hnext : steps[k]? = some next := by
      rw [← head?_drop, hdrop, head?_cons]
    have hnew : next.addSkillGroup ∉ (steps.take k).map (·.addSkillGroup) := by
      rw [← take_append_drop k steps, hdrop, map_append, nodup_append] at hgroups
      exact fun hmem => hgroups.2.2 _ hmem _ (by simp) rfl
    have hle : next.thresholdSecs ≤ step.thresholdSecs := by
      rw [hdrop] at h hmono'
      rcases mem_cons.mp (mem_of_find?_eq_some h) with rfl | hmem
      · exact Nat.le_refl _
      · exact (pairwise_cons.mp hmono').1 _ (mem_map.mpr ⟨step, hmem, rfl⟩)
    have hdue := due_iff.mpr ⟨Nat.le_trans hle hwait, hnew⟩
    rw [hdrop, find?_cons_of_pos hdue] at h
    rw [hnext, h]

/-! ## Staying in a group -/

section

variable {s : Sys ω}

/-- What the escalation goes by. -/
def QueueApp.stage (app : QueueApp) :=
  (app.config, app.agentRegistry, app.enqueuedAt, app.escalatedGroups, app.stageStartedAt)

/-- No group is joined. -/
structure Quiet (s s' : Sys ω) : Prop where
  clock : s.clock ≤ s'.clock
  joins : joins s'.log = joins s.log

structure Stays (s s' : Sys ω) : Prop extends Quiet s s' where
  stage : s'.app.stage = s.app.stage

instance : Std.Refl (@Quiet ω) := ⟨fun _ => ⟨Nat.le_refl _, rfl⟩⟩

instance : IsTrans (Sys ω) Quiet :=
  ⟨fun _ _ _ h₁ h₂ => ⟨Nat.le_trans h₁.clock h₂.clock, h₂.joins.trans h₁.joins⟩⟩

theorem Stays.trans (h₁ : Stays s t) (h₂ : Stays t s') : Stays s s' :=
  ⟨IsTrans.trans _ _ _ h₁.toQuiet h₂.toQuiet, h₂.stage.trans h₁.stage⟩

instance : Std.Refl (@Stays ω) := ⟨fun _ => ⟨Std.Refl.refl _, rfl⟩⟩

instance : IsTrans (Sys ω) Stays := ⟨fun _ _ _ => .trans⟩

theorem joins_record :
    joins (s.record output).log = joins s.log ++ (output.joined.map (s.clock, ·)).toList := by
  cases h : output.joined <;> simp [joins, Sys.record, h]

theorem record_stays (h : output.joined = none) : Stays s (s.record output) :=
  ⟨⟨Nat.le_refl _, by rw [joins_record, h]; simp⟩, rfl⟩

theorem app_stays (h : app.stage = s.app.stage) : Stays s { s with app } :=
  ⟨⟨Nat.le_refl _, rfl⟩, h⟩

variable {a a' : QueueApp}

theorem Frame.stage (h : Frame a a') : a'.stage = a.stage := by
  simp only [QueueApp.stage, h.config, h.agentRegistry, h.enqueuedAt, h.escalated, h.stageStartedAt]

theorem joined_of_neutral {output : Output} (h : output.neutral = true) : output.joined = none := by
  cases output with
  | command cmd _ => cases cmd <;> first | rfl | cases h
  | _ => rfl

theorem Move.stays (hK : ¬K .escalate) (h : Move env K s s') : Stays s s' := by
  cases h with
  | tick lapse => exact ⟨⟨Nat.le_add_right _ _, rfl⟩, rfl⟩
  | record h => exact record_stays (joined_of_neutral h)
  | legAdd | legRemove => exact record_stays rfl
  | announce _ _ h | join _ _ _ _ h | escalate _ _ _ h => exact absurd h hK
  | frame h => exact app_stays h.stage
  | ask | issue | control | pending | expire | attempted | drain | consume =>
    exact ⟨⟨Nat.le_refl _, rfl⟩, rfl⟩

theorem Moves.stays (hK : ¬K .escalate) (h : Moves env K s s') : Stays s s' := by
  induction h with
  | refl => exact Std.Refl.refl _
  | tail _ hstep ih => exact ih.trans (hstep.stays hK)

theorem QueueApp.stage_of_kept (h : a'.kept = a.kept) : a'.stage = a.stage := by
  simp only [kept, Prod.mk.injEq] at h
  obtain ⟨-, hconfig, hregistry, -, -, henqueued, -, -, hescalated, -, hstarted, -⟩ := h
  simp only [stage, hconfig, hregistry, henqueued, hescalated, hstarted]

theorem Act.stays (hK : ¬K .escalate) (h : Act env K s s') : Stays s s' := by
  cases h with
  | move h => exact h.stays hK
  | abandon => exact app_stays rfl
  | serve h => exact app_stays (stage_of_kept h)
  | left | bridge | drop => exact record_stays rfl

theorem Acts.stays (hK : ¬K .escalate) (h : Acts env K s s') : Stays s s' := by
  induction h with
  | refl => exact Std.Refl.refl _
  | tail _ hstep ih => exact ih.trans (hstep.stays hK)

theorem stays_of_moves (h : Within (Moves env (· ≠ .escalate)) x) : Within Stays x :=
  fun s => (h s).stays fun hne => hne rfl

theorem getApp_stays : Within Stays (getApp (ω := ω)) :=
  .bind .get fun _ => .pure _

theorem emitRwi_stays (event : Event) : Within Stays (emitRwi (ω := ω) event) := by
  refine .bind getApp_stays fun app => ?_
  split
  · exact .modify fun _ => record_stays rfl
  · exact .pure _

/-- **Every callback but the escalation check** leaves the call in its group. -/
theorem dispatch_stays (h : input ≠ .timeout .escalationCheck) :
    Within Stays (dispatch env input) := by
  intro s
  have hacts : Acts env (· ≠ .escalate) s ((dispatch env input).run s).2 := by
    refine dispatch_acts (fun permit husual hescalate => ?_) (fun hcheck => absurd hcheck h) nofun
    rw [hescalate] at husual
    exact husual
  exact hacts.stays fun hne => hne rfl

theorem armEscalationCheck_stays : Within Stays (armEscalationCheck (ω := ω)) := by
  refine .bind getApp_stays fun app => .bind (.bind .get fun _ => .pure _) fun t => ?_
  cases app.nextEscalationCheckDelay t with
  | some delay =>
    refine .seq (.modify fun _ => record_stays rfl) <| .modify fun _ => ?_
    exact ⟨⟨Nat.le_refl _, rfl⟩, rfl⟩
  | none => exact .pure _

theorem onEnter_stays (ctx : ApplicationContext) :
    Stays { s with app := s.app.entered ctx s.clock } ((onEnter env ctx).run s).2 := by
  have hacts : Acts env (· ≠ .escalate) _ ((onEnter env ctx).run s).2 :=
    onEnter_acts nofun nofun ctx
  exact hacts.stays fun hne => hne rfl

/-! ## Moving on -/

structure Joins (group : String) (t : Nat) (s s' : Sys ω) : Prop where
  after : s.clock ≤ t
  before : t ≤ s'.clock
  joins : joins s'.log = joins s.log ++ [(t, group)]

/-- The call joins a group, or none. -/
def Goes (group : String) (s s' : Sys ω) : Prop :=
  Quiet s s' ∨ ∃ t, Joins group t s s'

theorem Joins.after_quiet (h : Quiet s u) (hj : Joins group t u s') : Joins group t s s' :=
  ⟨Nat.le_trans h.clock hj.after, hj.before, by rw [hj.joins, h.joins]⟩

theorem Joins.then_quiet (hj : Joins group t s u) (h : Quiet u s') : Joins group t s s' :=
  ⟨hj.after, Nat.le_trans hj.before h.clock, by rw [h.joins, hj.joins]⟩

theorem Goes.after_quiet (hx : Within Quiet x) (hf : ∀ a, Within (Goes group) (f a)) :
    Within (Goes group) (x >>= f) := by
  refine fun s => bind_cases (.inl (hx s)) fun a s' hxs => ?_
  have hquiet := hx.of_run hxs
  rcases hf a s' with hs | ⟨t, hj⟩
  · exact .inl (IsTrans.trans _ _ _ hquiet hs)
  · exact .inr ⟨t, hj.after_quiet hquiet⟩

theorem Goes.then_quiet {f : α → Eff (Sys ω) Exn β}
    (hx : Goes group s (x.run s).2) (hf : ∀ a, Within Quiet (f a)) :
    Goes group s ((x >>= f).run s).2 := by
  refine bind_cases hx fun a s' hxs => ?_
  rw [hxs] at hx
  rcases hx with hs | ⟨t, hj⟩
  · exact .inl (IsTrans.trans _ _ _ hs (hf a s'))
  · exact .inr ⟨t, hj.then_quiet (hf a s')⟩

theorem announce_joins : Joins group s.clock s ((fire env (.updateQueueMeta group)).run s).2 :=
  ⟨Nat.le_refl _, Nat.le_refl _, joins_record⟩

theorem quiet_of_stays (h : Within Stays x) : Within Quiet x :=
  fun s => (h s).toQuiet

variable (step : EscalationStep)

theorem leaveGroup_stays : Within Stays (leaveGroup env step) :=
  stays_of_moves leaveGroup_moves

theorem escalationTargets_stays : Within Stays (escalationTargets env step) :=
  stays_of_moves (escalationTargets_moves nofun)

theorem cancelPendingLegs_stays : Within Stays (cancelPendingLegs env) :=
  stays_of_moves (cancelPendingLegs_moves nofun)

theorem dialAgents_stays : Within Stays (dialAgents env uris) :=
  stays_of_moves dialAgents_moves

theorem dialStep_quiet : Within Quiet (dialStep env step) := by
  refine .bind (quiet_of_stays (escalationTargets_stays step)) fun uris => ?_
  refine .bind (quiet_of_stays getApp_stays) fun app => ?_
  have hcancel : Within Quiet (cancelPendingLegs env) := quiet_of_stays cancelPendingLegs_stays
  have hdial : Within Quiet (dialAgents env uris) := quiet_of_stays dialAgents_stays
  cases app.config.escalationMode with
  | cumulative => exact hdial
  | replace => exact .seq hcancel <| hdial
  | sequential =>
    refine .seq hcancel <| .seq hdial ?_
    refine .bind (.bind .get fun _ => .pure _) fun t => ?_
    exact .modify fun _ => ⟨Nat.le_refl _, rfl⟩

theorem triggerStep_goes : Within (Goes step.addSkillGroup) (triggerStep env step) := by
  refine Goes.after_quiet (quiet_of_stays (leaveGroup_stays step)) fun _ => ?_
  refine fun s => Goes.then_quiet (.inr ⟨_, announce_joins⟩) fun _ => ?_
  refine .bind (quiet_of_stays getApp_stays) fun app => ?_
  refine .seq (quiet_of_stays (emitRwi_stays _)) <| .seq (.when (dialStep_quiet step)) ?_
  exact .modify fun _ => ⟨Nat.le_refl _, rfl⟩

/-- With a registry the stage starts anew, not before the group was joined. -/
structure Advances (step : EscalationStep) (s s' : Sys ω) : Prop where
  config : s'.app.config = s.app.config
  agentRegistry : s'.app.agentRegistry = s.app.agentRegistry
  enqueuedAt : s'.app.enqueuedAt = s.app.enqueuedAt
  escalated : s'.app.escalatedGroups = s.app.escalatedGroups ++ [step.addSkillGroup]
  joined : ∃ t, Joins step.addSkillGroup t s s' ∧
    (s.app.agentRegistry = true → ∃ start, s'.app.stageStartedAt = some start ∧ t ≤ start)

theorem QueueApp.stage_eq (h : a'.stage = a.stage) :
    a'.config = a.config ∧ a'.agentRegistry = a.agentRegistry ∧ a'.enqueuedAt = a.enqueuedAt ∧
      a'.escalatedGroups = a.escalatedGroups ∧ a'.stageStartedAt = a.stageStartedAt := by
  simpa [stage] using h

theorem dialStep_ok {step : EscalationStep} (hmode : s.app.config.escalationMode = .sequential)
    (h : (dialStep env step).run s = (.ok u, s')) :
    ∃ t, Stays s t ∧ s' = { t with app := { t.app with
      currentGroup := some step.addSkillGroup, stageStartedAt := some t.clock } } := by
  obtain ⟨uris, s₁, huris, h⟩ := bind_ok h
  have h₁ := (escalationTargets_stays step).of_run huris
  obtain ⟨app, s₂, happ, h⟩ := bind_ok h
  obtain ⟨rfl, rfl⟩ : s₁.app = app ∧ s₁ = s₂ := by simpa [getApp] using happ
  rw [(stage_eq h₁.stage).1, hmode] at h
  obtain ⟨_, s₃, hcancel, h⟩ := bind_ok h
  obtain ⟨_, s₄, hdial, h⟩ := bind_ok h
  have h₂ := h₁.trans (cancelPendingLegs_stays.of_run hcancel)
  have h₃ := h₂.trans (dialAgents_stays.of_run hdial)
  exact ⟨s₄, h₃, (Prod.mk.inj h).2.symm⟩

theorem triggerStep_ok {step : EscalationStep} (hmode : s.app.config.escalationMode = .sequential)
    (h : (triggerStep env step).run s = (.ok u, s')) : Advances step s s' := by
  obtain ⟨_, s₁, hleave, h⟩ := bind_ok h
  have h₁ := (leaveGroup_stays step).of_run hleave
  obtain ⟨_, s₂, hannounce, h⟩ := bind_ok h
  have hj : Joins step.addSkillGroup s₁.clock s s₂ := by
    have hs₂ : ((fire env (.updateQueueMeta step.addSkillGroup)).run s₁).2 = s₂ := by rw [hannounce]
    exact (hs₂ ▸ announce_joins).after_quiet h₁.toQuiet
  have hstage : s₂.app.stage = s.app.stage := by
    obtain ⟨-, rfl⟩ := Prod.mk.inj hannounce
    exact h₁.stage
  obtain ⟨app, s₃, happ, h⟩ := bind_ok h
  obtain ⟨rfl, rfl⟩ : s₂.app = app ∧ s₂ = s₃ := by simpa [getApp] using happ
  obtain ⟨_, s₄, hemit, h⟩ := bind_ok h
  have h₄ := (emitRwi_stays _).of_run hemit
  obtain ⟨hconfig, hregistry, henqueued, hescalated, hstarted⟩ :=
    stage_eq (h₄.stage.trans hstage)
  have hj := hj.then_quiet h₄.toQuiet
  obtain ⟨_, s₅, hdial, h⟩ := bind_ok h
  obtain ⟨-, rfl⟩ := Prod.mk.inj h
  rw [(stage_eq hstage).2.1] at hdial
  cases hr : s.app.agentRegistry with
  | false =>
    rw [hr] at hdial
    obtain ⟨-, rfl⟩ := Prod.mk.inj hdial
    exact ⟨hconfig, hregistry, henqueued, congrArg (· ++ [step.addSkillGroup]) hescalated, _,
      ⟨hj.after, hj.before, hj.joins⟩, fun h => absurd (hr.symm.trans h) Bool.false_ne_true⟩
  | true =>
    rw [hr] at hdial
    obtain ⟨t, ht, rfl⟩ := dialStep_ok (hconfig ▸ hmode) hdial
    obtain ⟨hconfig', hregistry', henqueued', hescalated', -⟩ := stage_eq ht.stage
    have hj' := hj.then_quiet ht.toQuiet
    exact ⟨hconfig'.trans hconfig, hregistry'.trans hregistry, henqueued'.trans henqueued,
      congrArg (· ++ [step.addSkillGroup]) (hescalated'.trans hescalated), _,
      ⟨hj'.after, hj'.before, hj'.joins⟩, fun _ => ⟨t.clock, rfl, hj'.before⟩⟩

theorem checkEscalation_cases :
    (checkEscalation env).run s = (.ok (), s) ∨ ∃ step, s.app.dueStep s.clock = some step ∧
      (checkEscalation env).run s = (triggerStep env step).run s := by
  rw [checkEscalation_run]
  cases hdue : (s.app.dueStep s.clock).filter (fun _ => s.app.waitsInQueue) with
  | none => exact .inl rfl
  | some step => exact .inr ⟨step, (Option.filter_eq_some_iff.mp hdue).1, rfl⟩

theorem onEscalationCheck_goes : ∃ group, Goes group s ((onEscalationCheck env).run s).2 := by
  have hrest (u : Unit) : Within Quiet (armEscalationCheck >>= fun _ => return AppAction.continue :
      Eff (Sys ω) Exn AppAction) := .seq (quiet_of_stays armEscalationCheck_stays) <| .pure _
  rcases checkEscalation_cases with hnone | ⟨step, -, htrigger⟩
  · refine ⟨"", Goes.then_quiet ?_ hrest⟩
    rw [hnone]
    exact .inl (Std.Refl.refl s)
  · refine ⟨step.addSkillGroup, Goes.then_quiet ?_ hrest⟩
    rw [htrigger]
    exact triggerStep_goes step s

/-! ## The timeline -/

/-- The thresholds do not decrease, and a registry restarts the measurement of each stage; without
one only the first step may have to wait. -/
structure Setup.Staged (setup : Setup) : Prop where
  thresholds : (setup.config.escalationTimeline.map (·.thresholdSecs)).Pairwise (· ≤ ·)
  restarted : setup.agentRegistry = true ∨
    ∀ step ∈ setup.config.escalationTimeline.tail, step.thresholdSecs = 0

structure OnTimeline (setup : Setup) (since : Nat) (s : Sys ω) : Prop where
  config : s.app.config = setup.config
  agentRegistry : s.app.agentRegistry = setup.agentRegistry
  enqueuedAt : s.app.enqueuedAt = some since
  escalated : s.app.escalatedGroups = (joins s.log).map (·.2)
  inTurn : InTurn setup.config.escalationTimeline since (joins s.log)
  now : latest since (joins s.log) ≤ s.clock
  stage : setup.agentRegistry = true ∨ joins s.log = [] →
    ∃ start, s.app.stageStartedAt.or s.app.enqueuedAt = some start ∧
      latest since (joins s.log) ≤ start

variable {setup : Setup}

theorem OnTimeline.stays (h : OnTimeline setup since s) (hs : Stays s s') :
    OnTimeline setup since s' := by
  obtain ⟨hconfig, hregistry, henqueued, hescalated, hstarted⟩ := stage_eq hs.stage
  refine ⟨hconfig.trans h.config, hregistry.trans h.agentRegistry, henqueued.trans h.enqueuedAt,
    ?_, ?_, ?_, ?_⟩ <;> rw [hs.joins]
  · exact hescalated.trans h.escalated
  · exact h.inTurn
  · exact Nat.le_trans h.now hs.clock
  · rw [hstarted, henqueued]
    exact h.stage

section

variable (hmode : setup.config.escalationMode = .sequential)
  (hgroups : (setup.config.escalationTimeline.map (·.addSkillGroup)).Nodup)
  (hstaged : setup.Staged)

include hmode hgroups hstaged

namespace OnTimeline

theorem due {step : EscalationStep} (h : OnTimeline setup since s)
    (hdue : s.app.dueStep s.clock = some step) :
    setup.config.escalationTimeline[(joins s.log).length]? = some step ∧
      latest since (joins s.log) + secs step.thresholdSecs ≤ s.clock := by
  have hfind : setup.config.escalationTimeline.find? (·.due (s.app.stageWaitSecs s.clock)
      ((setup.config.escalationTimeline.take (joins s.log).length).map (·.addSkillGroup))) =
      some step := by
    rw [← h.inTurn.groups, ← h.escalated, ← h.config]
    exact hdue
  obtain ⟨hnext, hwait⟩ := find?_due hgroups hstaged.thresholds hfind
  refine ⟨hnext, ?_⟩
  by_cases hstage : setup.agentRegistry = true ∨ joins s.log = []
  · obtain ⟨start, hstart, hlatest⟩ := h.stage hstage
    have hsecs : s.app.stageWaitSecs s.clock = (s.clock - start) / 10 ^ 9 := by
      simp [stageWaitSecs, h.config, hmode, hstart, secsBetween]
    have hnow := h.now
    unfold secs
    omega
  · -- only the first step may have to wait, and it has been taken
    obtain ⟨hregistry, hjoined⟩ := not_or.mp hstage
    obtain ⟨k, hk⟩ := Nat.exists_eq_succ_of_ne_zero
      fun hzero => hjoined (eq_nil_of_length_eq_zero hzero)
    have hmem : step ∈ setup.config.escalationTimeline.tail := by
      rw [hk] at hnext
      refine mem_of_getElem? (i := k) ?_
      rw [getElem?_tail]
      exact hnext
    rw [hstaged.restarted.resolve_left hregistry step hmem]
    simpa [secs] using h.now

theorem joined {step : EscalationStep} (h : OnTimeline setup since s)
    (hdue : s.app.dueStep s.clock = some step) (hj : Joins step.addSkillGroup t s s') :
    InTurn setup.config.escalationTimeline since (joins s'.log) := by
  obtain ⟨hnext, hlong⟩ := due hmode hgroups hstaged h hdue
  rw [hj.joins]
  exact h.inTurn.next hnext (Nat.le_trans hlong hj.after)

theorem advances {step : EscalationStep} (h : OnTimeline setup since s)
    (hdue : s.app.dueStep s.clock = some step) (ha : Advances step s s') :
    OnTimeline setup since s' := by
  obtain ⟨hconfig, hregistry, henqueued, hescalated, t, hj, hstarted⟩ := ha
  have hlatest : latest since (joins s'.log) = t := by rw [hj.joins]; simp [latest]
  refine ⟨hconfig.trans h.config, hregistry.trans h.agentRegistry, henqueued.trans h.enqueuedAt,
    ?_, joined hmode hgroups hstaged h hdue hj, Nat.le_trans (Nat.le_of_eq hlatest) hj.before, ?_⟩
  · rw [hescalated, h.escalated, hj.joins]
    simp
  · intro hstage
    have hr := h.agentRegistry.trans (hstage.resolve_right (by simp [hj.joins]))
    obtain ⟨start, hstart, ht⟩ := hstarted hr
    exact ⟨start, by simp [hstart], Nat.le_trans (Nat.le_of_eq hlatest) ht⟩

end OnTimeline

theorem onEscalationCheck_inTurn (h : OnTimeline setup since s) :
    InTurn setup.config.escalationTimeline since (joins ((onEscalationCheck env).run s).2.log) ∧
      ∀ action, ((onEscalationCheck env).run s).1 = .ok action →
        OnTimeline setup since ((onEscalationCheck env).run s).2 := by
  -- after the check the timer is armed again, which leaves the call in its group
  have hrest : Within Stays (armEscalationCheck >>= fun _ => return AppAction.continue :
      Eff (Sys ω) Exn AppAction) := .seq armEscalationCheck_stays <| .pure _
  have hrun : (onEscalationCheck env).run s = andThen ((checkEscalation env).run s)
      (fun _ => armEscalationCheck >>= fun _ => return AppAction.continue) := rfl
  rw [hrun]
  rcases checkEscalation_cases with hnone | ⟨step, hdue, htrigger⟩
  · rw [hnone]
    have hs' := h.stays (hrest s)
    exact ⟨hs'.inTurn, fun _ _ => hs'⟩
  · rw [htrigger]
    rcases hr : (triggerStep env step).run s with ⟨e | u, s'⟩
    · refine ⟨?_, nofun⟩
      rcases (triggerStep_goes step).of_run hr with hquiet | ⟨t, hj⟩
      · rw [andThen_error, hquiet.joins]
        exact h.inTurn
      · exact OnTimeline.joined hmode hgroups hstaged h hdue hj
    · have ha := triggerStep_ok (h.config ▸ hmode) hr
      have hs' := (OnTimeline.advances hmode hgroups hstaged h hdue ha).stays (hrest s')
      exact ⟨hs'.inTurn, fun _ _ => hs'⟩

end

/-! ## Runs -/

theorem proceed_joins : joins (proceed env cancelled r).2.log = joins r.2.log := by
  have hacts : Acts env (fun _ => False) r.2 (proceed env cancelled r).2 := proceed_acts
  exact (hacts.stays id).joins

theorem leave_joins : joins (leave env s).2.log = joins s.log := by
  have hacts : Acts env (· ≠ .escalate) _ (leave env s).2 := leave_acts nofun
  exact (hacts.stays fun hne => hne rfl).joins

/-- The call is on its timeline for as long as the loop runs. -/
structure Config.Timed (setup : Setup) (since : Nat) (c : Config ω) : Prop where
  inTurn : InTurn setup.config.escalationTimeline since (joins c.sys.log)
  start : c.phase = .start → c.sys.app = setup.app ∧ c.sys.clock = since ∧ c.sys.log = []
  running : c.phase = .running → OnTimeline setup since c.sys

theorem timed_of_callback {r : Except Exn AppAction × Sys ω}
    (hin : InTurn setup.config.escalationTimeline since (joins r.2.log))
    (hok : ∀ action, r.1 = .ok action → OnTimeline setup since r.2) : Config.Timed setup since
      ⟨(proceed env cancelled r).1, (proceed env cancelled r).2, inputs⟩ := by
  refine ⟨?_, fun h => absurd h proceed_phase.1, fun h => ?_⟩
  · rw [proceed_joins]
    exact hin
  · obtain ⟨hcontinue, hsys⟩ := proceed_running h
    rw [hsys]
    exact hok _ hcontinue

theorem OnTimeline.entered (ctx : ApplicationContext) (happ : s.app = setup.app)
    (hclock : s.clock = since) (hlog : s.log = []) :
    OnTimeline setup since { s with app := s.app.entered ctx s.clock } := by
  obtain rfl := hclock
  have hjoins : joins s.log = [] := by rw [hlog]; rfl
  refine ⟨by rw [happ]; rfl, by rw [happ]; rfl, rfl, ?_, ?_, ?_, fun _ => ⟨s.clock, ?_, ?_⟩⟩
  · rw [hjoins, happ]
    rfl
  · rw [hjoins]
    exact .nil
  · rw [hjoins]
    exact Nat.le_refl _
  · rw [happ]
    rfl
  · rw [hjoins]
    exact Nat.le_refl _

theorem LoopStep.timed (hmode : setup.config.escalationMode = .sequential)
    (hgroups : (setup.config.escalationTimeline.map (·.addSkillGroup)).Nodup)
    (hstaged : setup.Staged) (h : LoopStep env P c c') (hc : c.Timed setup since) :
    c'.Timed setup since := by
  cases h with
  | enter ctx cancelled s =>
    obtain ⟨happ, hclock, hlog⟩ := hc.start rfl
    have hs' : OnTimeline setup since ((onEnter env ctx).run s).2 :=
      (OnTimeline.entered ctx happ hclock hlog).stays (onEnter_stays ctx)
    exact timed_of_callback hs'.inTurn fun _ _ => hs'
  | @drift s s' inputs hd =>
    have hstays : Stays s s' := by
      refine ⟨⟨hd.clock, ?_⟩, ?_⟩ <;> rw [hd.rest]
    have hs' := (hc.running rfl).stays hstays
    exact ⟨hs'.inTurn, nofun, fun _ => hs'⟩
  | @callback cancelled s inputs input _ =>
    by_cases hcheck : input = .timeout .escalationCheck
    · subst hcheck
      obtain ⟨hin, hok⟩ := onEscalationCheck_inTurn hmode hgroups hstaged (hc.running rfl)
      exact timed_of_callback hin hok
    · have hs' : OnTimeline setup since ((dispatch env input).run s).2 :=
        (hc.running rfl).stays (dispatch_stays hcheck s)
      exact timed_of_callback hs'.inTurn fun _ _ => hs'
  | quit => exact ⟨hc.inTurn, nofun, nofun⟩
  | @exit s inputs =>
    have hphase := leave_phase env s
    refine ⟨?_, fun h => absurd h hphase.1, fun h => absurd h hphase.2⟩
    rw [leave_joins]
    exact hc.inTurn

theorem LoopStep.joins_one (h : LoopStep env P c c') :
    joins c'.sys.log = joins c.sys.log ∨ ∃ j, joins c'.sys.log = joins c.sys.log ++ [j] := by
  cases h with
  | enter ctx cancelled s =>
    exact .inl (proceed_joins.trans (onEnter_stays ctx).joins)
  | drift hd =>
    refine .inl ?_
    rw [hd.rest]
  | @callback cancelled s inputs input _ =>
    rw [proceed_joins]
    by_cases hcheck : input = .timeout .escalationCheck
    · subst hcheck
      obtain ⟨group, hquiet | ⟨t, hj⟩⟩ := onEscalationCheck_goes
      · exact .inl hquiet.joins
      · exact .inr ⟨_, hj.joins⟩
    · exact .inl (dispatch_stays hcheck s).joins
  | quit => exact .inl rfl
  | exit => exact .inl leave_joins

theorem Runs.timed (hmode : setup.config.escalationMode = .sequential)
    (hgroups : (setup.config.escalationTimeline.map (·.addSkillGroup)).Nodup)
    (hstaged : setup.Staged) (h : Runs env P (setup.start world clock) c) :
    c.Timed setup clock := by
  induction h with
  | refl => exact ⟨.nil, fun _ => ⟨rfl, rfl, rfl⟩, nofun⟩
  | tail _ hstep ih => exact hstep.timed hmode hgroups hstaged ih

/-- **The groups are joined in turn**, each after the threshold of its step in the group before, if
the setup is `Staged`. -/
theorem groups_joined_in_turn {world : ω} {clock : Nat} {c : Config ω}
    (h : Runs env (fun _ _ => True) (setup.start world clock) c)
    (hmode : setup.config.escalationMode = .sequential)
    (hgroups : (setup.config.escalationTimeline.map (·.addSkillGroup)).Nodup)
    (hstaged : setup.Staged) : InTurn setup.config.escalationTimeline clock (joins c.sys.log) ∧
      ∀ c', LoopStep env (fun _ _ => True) c c' →
        joins c'.sys.log = joins c.sys.log ∨ ∃ j, joins c'.sys.log = joins c.sys.log ++ [j] :=
  ⟨(h.timed hmode hgroups hstaged).inTurn, fun _ hstep => hstep.joins_one⟩

end

def overflowQueue (first second : Nat) : Setup where
  plan := {}
  config :=
    { name := "queue", skillGroup := some "support", escalationMode := .sequential
      escalationTimeline := [⟨first, "sales", false⟩, ⟨second, "desk", false⟩] }
  agentRegistry := true
  callId := "call"

def overflowCall (first second lapse : Nat) : Config Unit :=
  ((((overflowQueue first second).start () 0).enter .idle
    ⟨"caller", true, true, true, true, true, true⟩).wait (secs lapse)).hand .idle
    (.timeout .escalationCheck)

theorem runs_overflowCall (hphase : (((overflowQueue first second).start () 0).enter .idle
      ⟨"caller", true, true, true, true, true, true⟩).phase = .running)
    (h : P ((((overflowQueue first second).start () 0).enter .idle
      ⟨"caller", true, true, true, true, true, true⟩).wait (secs lapse))
      (.timeout .escalationCheck)) :
    Runs .idle P ((overflowQueue first second).start () 0) (overflowCall first second lapse) :=
  (runs_enter _ _ _ _).trans ((runs_wait hphase trivial).trans (runs_hand h))

/-- With thresholds of 30 and 60 seconds the first group is joined after 30 seconds. -/
theorem groups_joined_in_turn_first : joins (overflowCall 30 60 30).sys.log = [(secs 30, "sales")] ∧
      InTurn (overflowQueue 30 60).config.escalationTimeline 0
        (joins (overflowCall 30 60 30).sys.log) := by
  have hruns : Runs .idle (fun _ _ => True) ((overflowQueue 30 60).start () 0)
      (overflowCall 30 60 30) := runs_overflowCall (by decide) trivial
  exact ⟨by decide, (groups_joined_in_turn hruns rfl (by decide) ⟨by decide, .inl rfl⟩).1⟩

/-- With thresholds of 60 and 30 seconds the second group is joined first. -/
theorem smaller_threshold_overtakes : (overflowQueue 60 30).config.escalationMode = .sequential ∧
      ((overflowQueue 60 30).config.escalationTimeline.map (·.addSkillGroup)).Nodup ∧
      Runs .idle (fun _ _ => True) ((overflowQueue 60 30).start () 0) (overflowCall 60 30 30) ∧
      joins (overflowCall 60 30 30).sys.log = [(secs 30, "desk")] ∧
      ¬InTurn (overflowQueue 60 30).config.escalationTimeline 0
        (joins (overflowCall 60 30 30).sys.log) := by
  have hjoins : joins (overflowCall 60 30 30).sys.log = [(secs 30, "desk")] := by decide
  refine ⟨rfl, by decide, runs_overflowCall (by decide) trivial, hjoins, ?_⟩
  exact fun h => absurd h.1 (by decide)

end RustPbx.Queue
