import RustPbx.App.EventLoop

/-!
The runtime that starts and stops the application of a call.

The running slot, the counter of the starts and the registered sender of application events are
changed around the awaits of start, rollback, teardown and stop. A step is what happens from one
await to the next. A start is known by its generation, and so are its token, its sender and its
event loop.
-/

namespace RustPbx.App

open Function Option

inductive AppRuntimeError where
  | alreadyRunning (name : String)
  | notRunning
  | unknownApp (name : String)
  | startFailed (message : String)
  | configError (message : String)

structure RunningApp where
  name : String
  generation : Nat

/-- Where a call to `start_app` is that has reserved the slot. -/
inductive StartPhase where
  /-- In the factory. -/
  | creating (name : String)
  /-- Before the lock of its rollback. -/
  | rollingBack (error : AppRuntimeError)
  | returned

inductive LoopPhase where
  | running
  /-- Past the check of its generation, before the lock of the slot. -/
  | tearingDown
  | ended

structure Runtime where
  running : Option RunningApp := none
  /-- The counter of the starts. -/
  generation : Nat := 0
  /-- The start whose sender is registered with the session. -/
  sender : Option Nat := none
  cancelled : Nat → Bool := fun _ => false
  cancelReason : Nat → ExitReason := fun _ => .cancelled
  starts : Nat → Option StartPhase := fun _ => none
  loops : Nat → Option LoopPhase := fun _ => none
  /-- What the calls to `stop_app` that wait for the lock have read from the slot. -/
  stops : List RunningApp := []
  results : List (Except AppRuntimeError Unit) := []

inductive RuntimeAction where
  | start (name : String)
  /-- The factory of a start answers; the command to answer the call for an application can fail. -/
  | created (generation : Nat) (app : Except String Bool) (answered : Except String Unit)
  | rollback (generation : Nat)
  | exit (generation : Nat)
  /-- The teardown of an event loop has the lock. -/
  | teardown (generation : Nat)
  | stop (reason : ExitReason)
  /-- A call to `stop_app` has the lock. -/
  | clear (index : Nat)

namespace Runtime

section

variable (s : Runtime)

def setStart (generation : Nat) (phase : StartPhase) : Runtime :=
  { s with starts := update s.starts generation (some phase) }

def setLoop (generation : Nat) (phase : LoopPhase) : Runtime :=
  { s with loops := update s.loops generation (some phase) }

def answer (result : Except AppRuntimeError Unit) : Runtime :=
  { s with results := s.results ++ [result] }

def clearOwn (generation : Nat) : Runtime :=
  if s.running.map (·.generation) = some generation then { s with running := none } else s

def setAppEventSender (sender : Option Nat) : Runtime :=
  { s with sender }

def cancel (generation : Nat) (reason : ExitReason) : Runtime :=
  { s with
    cancelReason := update s.cancelReason generation reason
    cancelled := update s.cancelled generation true }

def reserve (name : String) : Runtime :=
  { s with
    running := some ⟨name, s.generation + 1⟩
    generation := s.generation + 1
    sender := some (s.generation + 1) }.setStart (s.generation + 1) (.creating name)

def launch (generation : Nat) (name : String) (app : Except String Bool)
    (answered : Except String Unit) : Runtime :=
  match app, answered with
  | .error message, _ => s.setStart generation (.rollingBack (.configError message))
  | .ok false, _ => s.setStart generation (.rollingBack (.unknownApp name))
  | .ok true, .error message => s.setStart generation (.rollingBack (.startFailed message))
  | .ok true, .ok () =>
    ((s.setStart generation .returned).setLoop generation .running).answer (.ok ())

def step : RuntimeAction → Option Runtime
  | .start name =>
    match s.running with
    | some current => some (s.answer (.error (.alreadyRunning current.name)))
    | none => some (s.reserve name)
  | .created generation app answered =>
    match s.starts generation with
    | some (.creating name) => some (s.launch generation name app answered)
    | _ => none
  | .rollback generation =>
    match s.starts generation with
    | some (.rollingBack error) =>
      some ((((s.clearOwn generation).setAppEventSender none).setStart generation
        .returned).answer (.error error))
    | _ => none
  | .exit generation =>
    match s.loops generation with
    | some .running =>
      some (s.setLoop generation (if s.generation = generation then .tearingDown else .ended))
    | _ => none
  | .teardown generation =>
    match s.loops generation with
    | some .tearingDown =>
      some (((s.clearOwn generation).setAppEventSender none).setLoop generation .ended)
    | _ => none
  | .stop reason =>
    match s.running with
    | some app => some { s.cancel app.generation reason with stops := s.stops ++ [app] }
    | none => some (s.answer (.error .notRunning))
  | .clear index =>
    match s.stops[index]? with
    | some _ =>
      some ({ s with running := none, stops := s.stops.eraseIdx index }.answer (.ok ()))
    | none => none

abbrev Runs (P : Runtime → RuntimeAction → Prop) : Runtime → Runtime → Prop :=
  Machine.Runs step P

/-- The start that a step belongs to; a stop belongs to the one it has read. -/
def owner : RuntimeAction → Option Nat
  | .created generation _ _ | .rollback generation | .exit generation | .teardown generation =>
    some generation
  | .clear index => s.stops[index]?.map (·.generation)
  | .start _ | .stop _ => none

/-- No later start has begun when a rollback, a teardown or a stop has the lock. -/
def Unbroken : RuntimeAction → Prop
  | .rollback generation | .teardown generation => s.generation = generation
  | .clear index => ∀ app, s.stops[index]? = some app → s.generation = app.generation
  | _ => True

/-- The event loop of a start runs and was not cancelled. -/
def Live (generation : Nat) : Prop :=
  s.loops generation = some .running ∧ s.cancelled generation = false

/-- A start that has not returned. -/
def InProgress (generation : Nat) : Prop :=
  (∃ name, s.starts generation = some (.creating name)) ∨
    ∃ error, s.starts generation = some (.rollingBack error)

/-- The task of an event loop has not ended. -/
def LoopUp (generation : Nat) : Prop :=
  s.loops generation = some .running ∨ s.loops generation = some .tearingDown

/-- A step from one state to another leaves the slot and the sender of a later start alone. -/
def Spares (action : RuntimeAction) (s' : Runtime) : Prop :=
  ∀ generation later, s.owner action = some generation → generation < later →
    (s.running.map (·.generation) = some later → s'.running = s.running) ∧
      (s.sender = some later → s'.sender = some later)

end

/-- What the claims about restarts come to. -/
structure Safe (s : Runtime) : Prop where
  single : ∀ generation other, s.Live generation → s.Live other → generation = other
  empty : (∀ generation, ¬ s.InProgress generation ∧ ¬ s.LoopUp generation) → s.running = none

variable {s s' : Runtime}

/-! ## What a step does -/

/-- The steps, each with what it takes. -/
inductive Effect (s : Runtime) : RuntimeAction → Runtime → Prop
  | refuse {name} (error : AppRuntimeError) (h : s.running ≠ none) :
      Effect s (.start name) (s.answer (.error error))
  | reserve {name} (h : s.running = none) : Effect s (.start name) (s.reserve name)
  | fail {generation name app answered} (error : AppRuntimeError)
      (h : s.starts generation = some (.creating name)) :
      Effect s (.created generation app answered) (s.setStart generation (.rollingBack error))
  | launch {generation name app answered} (h : s.starts generation = some (.creating name)) :
      Effect s (.created generation app answered)
        (((s.setStart generation .returned).setLoop generation .running).answer (.ok ()))
  | rollback {generation error} (h : s.starts generation = some (.rollingBack error)) :
      Effect s (.rollback generation) ((((s.clearOwn generation).setAppEventSender none).setStart
        generation .returned).answer (.error error))
  | exit {generation phase} (h : s.loops generation = some .running)
      (hphase : s.generation = generation → phase = .tearingDown)
      (hended : phase ≠ .running) : Effect s (.exit generation) (s.setLoop generation phase)
  | teardown {generation} (h : s.loops generation = some .tearingDown) :
      Effect s (.teardown generation)
        (((s.clearOwn generation).setAppEventSender none).setLoop generation .ended)
  | stop {app} (reason : ExitReason) (h : s.running = some app) :
      Effect s (.stop reason) { s.cancel app.generation reason with stops := s.stops ++ [app] }
  | idle (reason : ExitReason) (h : s.running = none) :
      Effect s (.stop reason) (s.answer (.error .notRunning))
  | clear {index app} (h : s.stops[index]? = some app) :
      Effect s (.clear index)
        ({ s with running := none, stops := s.stops.eraseIdx index }.answer (.ok ()))

variable {generation : Nat}

theorem launch_effect (h : s.starts generation = some (.creating name)) :
    Effect s (.created generation app answered) (s.launch generation name app answered) := by
  unfold Runtime.launch
  split
  · exact .fail _ h
  · exact .fail _ h
  · exact .fail _ h
  · exact .launch h

theorem step_effect (h : s.step action = some s') : Effect s action s' := by
  cases action with
  | start name =>
    simp only [step] at h
    split at h
    · next app happ =>
      cases h
      exact .refuse _ (by simp [happ])
    · next hnone =>
      cases h
      exact .reserve hnone
  | created generation app answered =>
    simp only [step] at h
    split at h
    · next name hstart => exact some.inj h ▸ launch_effect hstart
    · cases h
  | rollback generation =>
    simp only [step] at h
    split at h
    · next error hstart =>
      cases h
      exact .rollback hstart
    · cases h
  | exit generation =>
    simp only [step] at h
    split at h
    · next hloop =>
      cases h
      refine .exit hloop (fun heq => if_pos heq) ?_
      split <;> nofun
    · cases h
  | teardown generation =>
    simp only [step] at h
    split at h
    · next hloop =>
      cases h
      exact .teardown hloop
    · cases h
  | stop reason =>
    simp only [step] at h
    split at h
    · next app happ =>
      cases h
      exact .stop reason happ
    · next hnone =>
      cases h
      exact .idle reason hnone
  | clear index =>
    simp only [step] at h
    split at h
    · next app hstop =>
      cases h
      exact .clear hstop
    · cases h

/-! ## Invariants -/

/-- The slot is the one of the latest start, whose call or event loop is still there. -/
structure Coherent (s : Runtime) : Prop where
  slot : ∀ app, s.running = some app →
    app.generation = s.generation ∧ (s.InProgress app.generation ∨ s.LoopUp app.generation)
  starts : ∀ generation phase, s.starts generation = some phase → generation ≤ s.generation
  loops : ∀ generation phase, s.loops generation = some phase → s.starts generation = some .returned
  sender : ∀ generation, s.sender = some generation → generation ≤ s.generation
  stops : ∀ app ∈ s.stops, s.cancelled app.generation = true

/-- A start whose event loop is running or can still be made. -/
def Wants (s : Runtime) (generation : Nat) : Prop :=
  (∃ name, s.starts generation = some (.creating name)) ∨ s.loops generation = some .running

/-- Such a start has the slot, unless it was cancelled. -/
def Owned (s : Runtime) : Prop :=
  ∀ generation, s.cancelled generation = false → s.Wants generation →
    s.running.map (·.generation) = some generation

theorem setStart_starts (generation : Nat) :
    (s.setStart generation phase).starts n =
      if n = generation then some phase else s.starts n :=
  update_apply ..

theorem setLoop_loops (generation : Nat) :
    (s.setLoop generation phase).loops n = if n = generation then some phase else s.loops n :=
  update_apply ..

theorem clearOwn_cases (generation : Nat) :
    ∃ running, s.clearOwn generation = { s with running } ∧
      (∀ app, running = some app → s.running = some app ∧ app.generation ≠ generation) ∧
      ∀ n, n ≠ generation → s.running.map (·.generation) = some n →
        running.map (·.generation) = some n := by
  unfold clearOwn
  split
  · next hown =>
    refine ⟨none, rfl, nofun, fun n hne hn => ?_⟩
    exact absurd (some.inj (hn.symm.trans hown)) hne
  · next hother =>
    refine ⟨s.running, rfl, fun app happ => ⟨happ, fun heq => hother ?_⟩, fun _ _ => id⟩
    rw [happ, map_some, heq]

theorem Coherent.clear (h : s.Coherent)
    (hslot : ∀ app, app? = some app → s.running = some app ∧ app.generation ≠ generation) :
    { s with running := app?, sender := none }.Coherent :=
  ⟨fun app happ => h.slot app (hslot app happ).1, h.starts, h.loops, nofun, h.stops⟩

/-- Only the start of one generation changes. -/
theorem Coherent.change (h : s.Coherent)
    (hsame : ∀ n, n ≠ generation → s'.starts n = s.starts n ∧ s'.loops n = s.loops n)
    (hrest : (s'.running, s'.generation, s'.sender, s'.stops, s'.cancelled) =
      (s.running, s.generation, s.sender, s.stops, s.cancelled))
    (hknown : generation ≤ s.generation)
    (hup : ∀ app, s.running = some app → app.generation = generation →
      s'.InProgress generation ∨ s'.LoopUp generation)
    (hloops : ∀ phase, s'.loops generation = some phase →
      s'.starts generation = some .returned) : s'.Coherent := by
  simp only [Prod.mk.injEq] at hrest
  obtain ⟨hrunning, hgeneration, hsender, hstops, hcancelled⟩ := hrest
  refine ⟨fun app happ => ?_, fun n phase hn => ?_, fun n phase hn => ?_, ?_, ?_⟩
  · rw [hrunning] at happ
    refine ⟨hgeneration ▸ (h.slot app happ).1, ?_⟩
    by_cases heq : app.generation = generation
    · exact heq ▸ hup app happ heq
    · obtain ⟨hstarts, hloops⟩ := hsame app.generation heq
      rw [InProgress, LoopUp, hstarts, hloops]
      exact (h.slot app happ).2
  · rw [hgeneration]
    by_cases heq : n = generation
    · exact heq ▸ hknown
    · exact h.starts n phase ((hsame n heq).1 ▸ hn)
  · by_cases heq : n = generation
    · exact heq ▸ hloops phase (heq ▸ hn)
    · exact (hsame n heq).1.trans (h.loops n phase ((hsame n heq).2 ▸ hn))
  · exact hsender ▸ hgeneration ▸ h.sender
  · exact hstops ▸ hcancelled ▸ h.stops

theorem Effect.coherent (heffect : Effect s action s') (h : s.Coherent) : s'.Coherent := by
  cases heffect with
  | refuse | idle => exact ⟨h.slot, h.starts, h.loops, h.sender, h.stops⟩
  | @reserve name hnone =>
    refine ⟨fun app happ => ?_, fun n phase hn => ?_, fun n phase hn => ?_, fun n hn => ?_, h.stops⟩
    · cases happ
      exact ⟨rfl, .inl (.inl ⟨name, update_self ..⟩)⟩
    · rw [Runtime.reserve, setStart_starts] at hn
      split at hn
      · next heq => exact Nat.le_of_eq heq
      · exact Nat.le_succ_of_le (h.starts n phase hn)
    · have hold := h.loops n phase hn
      have hne : n ≠ s.generation + 1 := Nat.ne_of_lt (Nat.lt_succ_of_le (h.starts n _ hold))
      rw [Runtime.reserve, setStart_starts, if_neg hne]
      exact hold
    · cases hn
      exact Nat.le_refl _
  | @fail generation name app answered error hstart =>
    refine h.change (fun n hne => ⟨update_of_ne hne .., rfl⟩) rfl (h.starts generation _ hstart)
      (fun _ _ _ => .inl (.inr ⟨error, update_self ..⟩)) fun phase hn => ?_
    cases hstart.symm.trans (h.loops generation phase hn)
  | @launch generation name app answered hstart =>
    exact h.change (fun n hne => ⟨update_of_ne hne .., update_of_ne hne ..⟩) rfl
      (h.starts generation _ hstart) (fun _ _ _ => .inr (.inl (update_self ..)))
      fun _ _ => update_self ..
  | @rollback generation error hstart =>
    obtain ⟨running, hclear, hslot, -⟩ := clearOwn_cases generation
    rw [hclear]
    exact (h.clear hslot).change (fun n hne => ⟨update_of_ne hne .., rfl⟩) rfl
      (h.starts generation _ hstart) (fun app happ heq => absurd heq (hslot app happ).2)
      fun _ _ => update_self ..
  | @exit generation phase hloop hphase hended =>
    have hstart := h.loops generation _ hloop
    refine h.change (fun n hne => ⟨rfl, update_of_ne hne ..⟩) rfl (h.starts generation _ hstart)
      (fun app happ heq => ?_) fun _ _ => hstart
    obtain rfl := hphase ((h.slot app happ).1.symm.trans heq)
    exact .inr (.inr (update_self ..))
  | @teardown generation hloop =>
    have hstart := h.loops generation _ hloop
    obtain ⟨running, hclear, hslot, -⟩ := clearOwn_cases generation
    rw [hclear]
    exact (h.clear hslot).change (fun n hne => ⟨rfl, update_of_ne hne ..⟩) rfl
      (h.starts generation _ hstart) (fun app happ heq => absurd heq (hslot app happ).2)
      fun _ _ => hstart
  | @stop app reason happ =>
    refine ⟨h.slot, h.starts, h.loops, h.sender, fun app' hmem => ?_⟩
    change update s.cancelled app.generation true app'.generation = true
    rw [update_apply]
    split
    · rfl
    · next hne =>
      rcases List.mem_append.mp hmem with hmem | hmem
      · exact h.stops app' hmem
      · exact absurd (congrArg _ (List.mem_singleton.mp hmem)) hne
  | clear hstop =>
    exact ⟨nofun, h.starts, h.loops, h.sender, fun app hmem =>
      h.stops app (List.mem_of_mem_eraseIdx hmem)⟩

/-- Only the start of one generation changes. -/
theorem Owned.change (h : s.Owned)
    (hsame : ∀ n, n ≠ generation → s'.starts n = s.starts n ∧ s'.loops n = s.loops n)
    (hcancelled : s'.cancelled = s.cancelled)
    (hslot : ∀ n, n ≠ generation → s.running.map (·.generation) = some n →
      s'.running.map (·.generation) = some n)
    (hown : s.cancelled generation = false → s'.Wants generation →
      s'.running.map (·.generation) = some generation) : s'.Owned := by
  intro n hn hwants
  rw [hcancelled] at hn
  by_cases heq : n = generation
  · exact heq ▸ hown (heq ▸ hn) (heq ▸ hwants)
  · refine hslot n heq (h n hn ?_)
    unfold Wants at hwants ⊢
    rwa [← (hsame n heq).1, ← (hsame n heq).2]

theorem not_wants (hstart : s.starts n = some phase) (hphase : ∀ name, phase ≠ .creating name)
    (hloop : s.loops n ≠ some .running) :
    ¬ s.Wants n := by
  rintro (⟨name, hcreating⟩ | hrunning)
  · exact hphase name (some.inj (hstart.symm.trans hcreating))
  · exact hloop hrunning

theorem Effect.owned (heffect : Effect s action s') (hcoherent : s.Coherent)
    (hunbroken : Unbroken s action) (h : s.Owned) : s'.Owned := by
  cases heffect with
  | refuse | idle => exact h
  | @reserve name hnone =>
    refine h.change (fun n hne => ⟨update_of_ne hne .., rfl⟩) rfl (fun n _ hn => ?_) fun _ _ => rfl
    rw [hnone] at hn
    cases hn
  | @fail generation name app answered error hstart =>
    exact h.change (fun n hne => ⟨update_of_ne hne .., rfl⟩) rfl (fun _ _ => id)
      fun hn _ => h generation hn (.inl ⟨name, hstart⟩)
  | @launch generation name app answered hstart =>
    exact h.change (fun n hne => ⟨update_of_ne hne .., update_of_ne hne ..⟩) rfl (fun _ _ => id)
      fun hn _ => h generation hn (.inl ⟨name, hstart⟩)
  | @rollback generation error hstart =>
    obtain ⟨running, hclear, -, hslot⟩ := clearOwn_cases generation
    rw [hclear]
    refine h.change (fun n hne => ⟨update_of_ne hne .., rfl⟩) rfl hslot fun _ hwants => ?_
    refine absurd hwants (not_wants (update_self ..) nofun fun hloop => ?_)
    cases hstart.symm.trans (hcoherent.loops generation _ hloop)
  | @exit generation phase hloop hphase hended =>
    exact h.change (fun n hne => ⟨rfl, update_of_ne hne ..⟩) rfl (fun _ _ => id)
      fun hn _ => h generation hn (.inr hloop)
  | @teardown generation hloop =>
    obtain ⟨running, hclear, -, hslot⟩ := clearOwn_cases generation
    rw [hclear]
    refine h.change (fun n hne => ⟨rfl, update_of_ne hne ..⟩) rfl hslot fun _ hwants => ?_
    refine absurd hwants (not_wants (hcoherent.loops generation _ hloop) nofun ?_)
    rw [setLoop_loops, if_pos rfl]
    nofun
  | @stop app reason happ =>
    intro n hcancelled hn
    refine h n ?_ hn
    change update s.cancelled app.generation true n = false at hcancelled
    rw [update_apply] at hcancelled
    split at hcancelled
    · cases hcancelled
    · exact hcancelled
  | @clear index app hstop =>
    -- what is in the slot is what the stop has read and cancelled
    intro n hcancelled hn
    have hcancelled' : s.cancelled n = false := hcancelled
    obtain ⟨current, hcurrent, rfl⟩ := map_eq_some_iff.mp (h n hcancelled hn)
    rw [(hcoherent.slot current hcurrent).1, hunbroken app hstop,
      hcoherent.stops app (List.mem_of_getElem? hstop)] at hcancelled'
    cases hcancelled'

theorem Effect.spares (heffect : Effect s action s') (hcoherent : s.Coherent)
    (hunbroken : Unbroken s action) : Spares s action s' := by
  have hlate {later : Nat} (hlater : s.generation < later) :
      s.running.map (·.generation) ≠ some later ∧ s.sender ≠ some later := by
    refine ⟨fun hslot => ?_, fun hsender => ?_⟩
    · obtain ⟨app, happ, rfl⟩ := map_eq_some_iff.mp hslot
      exact absurd (hcoherent.slot app happ).1 (Nat.ne_of_gt hlater)
    · exact absurd (hcoherent.sender later hsender) (Nat.not_le_of_lt hlater)
  intro generation later howner hlater
  cases heffect with
  | refuse | idle | reserve | stop => cases howner
  | fail | launch | exit => exact ⟨fun _ => rfl, id⟩
  | rollback | teardown =>
    cases howner
    obtain ⟨hslot, hsender⟩ := hlate (Nat.lt_of_le_of_lt (Nat.le_of_eq hunbroken) hlater)
    exact ⟨fun h => absurd h hslot, fun h => absurd h hsender⟩
  | @clear index app hstop =>
    rw [owner, hstop] at howner
    cases howner
    have heq := hunbroken app hstop
    obtain ⟨hslot, hsender⟩ := hlate (Nat.lt_of_le_of_lt (Nat.le_of_eq heq) hlater)
    exact ⟨fun h => absurd h hslot, fun h => absurd h hsender⟩

/-- **The slot is never left with an application that is gone**, in any run. -/
theorem runs_coherent {P : Runtime → RuntimeAction → Prop} (hrun : Runs P {} s) : s.Coherent :=
  hrun.invariant Coherent ⟨nofun, nofun, nofun, nofun, nofun⟩ fun _ _ _ h _ hstep =>
    (step_effect hstep).coherent h

theorem runs_coherent_menu : ∃ s, Machine.steps step {} [.start "menu",
    .created 1 (.ok true) (.ok ()), .stop .transferred, .clear 0, .start "queue",
    .created 2 (.ok true) (.ok ()), .exit 1] = some s ∧ s.Coherent :=
  Exists.imp (fun _ h => ⟨h, runs_coherent (P := fun _ _ => True) <|
    Machine.Runs.steps .refl h fun _ _ _ => trivial⟩) ⟨_, rfl⟩

/-- **Restarts are safe** in every `Unbroken` run. -/
theorem restart_safe (hrun : Runs Unbroken {} s) :
    s.Safe ∧ ∀ action s', Unbroken s action → s.step action = some s' → Spares s action s' := by
  obtain ⟨hcoherent, howned⟩ : s.Coherent ∧ s.Owned := by
    have hinit : Owned {} := by
      rintro generation - (⟨_, h⟩ | h) <;> cases h
    refine hrun.invariant (fun s => s.Coherent ∧ s.Owned)
      ⟨⟨nofun, nofun, nofun, nofun, nofun⟩, hinit⟩ fun s action s' ih hunbroken hstep => ?_
    have heffect := step_effect hstep
    exact ⟨heffect.coherent ih.1, heffect.owned ih.1 hunbroken ih.2⟩
  refine ⟨⟨fun generation other hlive hother => ?_, fun hidle => ?_⟩,
    fun action s' hunbroken hstep => (step_effect hstep).spares hcoherent hunbroken⟩
  · have hslot := howned generation hlive.2 (.inr hlive.1)
    have hslot' := howned other hother.2 (.inr hother.1)
    exact some.inj (hslot.symm.trans hslot')
  · by_contra hsome
    obtain ⟨app, happ⟩ := ne_none_iff_exists'.mp hsome
    obtain ⟨hprogress, hloop⟩ := hidle app.generation
    exact (hcoherent.slot app happ).2.elim hprogress hloop

/-- A menu is stopped for a queue, and its event loop ends when the queue has been started. -/
theorem restart_safe_queue : ∃ s, Runs Unbroken {} s ∧ s.running = some ⟨"queue", 2⟩ ∧
    s.sender = some 2 ∧ s.loops 1 = some .ended ∧ s.Live 2 ∧ s.Safe ∧
      ∀ action s', Unbroken s action → s.step action = some s' → Spares s action s' := by
  obtain ⟨s₁, s₂, s, hsteps, hclear, hsteps', hstops, hgeneration, hrunning, hsender, hended,
      hlive⟩ :
      ∃ s₁ s₂ s, Machine.steps step {} [.start "menu", .created 1 (.ok true) (.ok ()),
        .stop .transferred] = some s₁ ∧ s₁.step (.clear 0) = some s₂ ∧
      Machine.steps step s₂ [.start "queue", .created 2 (.ok true) (.ok ()), .exit 1] = some s ∧
      s₁.stops = [⟨"menu", 1⟩] ∧ s₁.generation = 1 ∧ s.running = some ⟨"queue", 2⟩ ∧
      s.sender = some 2 ∧ s.loops 1 = some .ended ∧ s.Live 2 :=
    ⟨_, _, _, rfl, rfl, rfl, rfl, rfl, rfl, rfl, rfl, rfl, rfl⟩
  have hfirst : Runs Unbroken {} s₁ := Machine.Runs.steps .refl hsteps (by simp [Unbroken])
  have hunbroken : Unbroken s₁ (.clear 0) := by
    intro app happ
    rw [hstops] at happ
    cases happ
    exact hgeneration
  have hrun : Runs Unbroken {} s :=
    (hfirst.next hclear hunbroken).steps hsteps' (by simp [Unbroken])
  exact ⟨s, hrun, hrunning, hsender, hended, hlive, restart_safe hrun⟩

/-- The rollback of a start that was stopped in its factory takes the sender of the next start. A
stop that has read the slot of an application which ends clears that of the next one. -/
theorem restart_unsafe :
    (∃ s s', Runs (fun _ _ => True) {} s ∧ s.step (.rollback 1) = some s' ∧ s.sender = some 2 ∧
      s'.sender = none ∧ s'.running = some ⟨"queue", 2⟩ ∧ ¬ Spares s (.rollback 1) s') ∧
    ∃ s, Runs (fun _ _ => True) {} s ∧ s.Live 2 ∧ s.Live 3 ∧ ¬ s.Safe := by
  constructor
  · obtain ⟨s, s', hsteps, hstep, hsender, hsender', hrunning⟩ : ∃ s s', Machine.steps step {}
        [.start "menu", .stop .cancelled, .clear 0, .start "queue",
          .created 1 (.error "no such file") (.ok ())] = some s ∧
        s.step (.rollback 1) = some s' ∧ s.sender = some 2 ∧ s'.sender = none ∧
        s'.running = some ⟨"queue", 2⟩ := ⟨_, _, rfl, rfl, rfl, rfl, rfl⟩
    have hrun : Runs (fun _ _ => True) {} s := Machine.Runs.steps .refl hsteps fun _ _ _ => trivial
    refine ⟨s, s', hrun, hstep, hsender, hsender', hrunning, fun hspares => ?_⟩
    cases ((hspares 1 2 rfl (by decide)).2 hsender).symm.trans hsender'
  · obtain ⟨s, hsteps, hlive, hlive'⟩ : ∃ s, Machine.steps step {}
        [.start "menu", .created 1 (.ok true) (.ok ()), .stop .cancelled, .exit 1, .teardown 1,
          .start "queue", .created 2 (.ok true) (.ok ()), .clear 0, .start "survey",
          .created 3 (.ok true) (.ok ())] = some s ∧ s.Live 2 ∧ s.Live 3 :=
      ⟨_, rfl, ⟨rfl, rfl⟩, ⟨rfl, rfl⟩⟩
    have hrun : Runs (fun _ _ => True) {} s := Machine.Runs.steps .refl hsteps fun _ _ _ => trivial
    refine ⟨s, hrun, hlive, hlive', fun hsafe => ?_⟩
    cases hsafe.single 2 3 hlive hlive'

end Runtime

end RustPbx.App
