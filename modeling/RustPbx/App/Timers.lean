import Mathlib.Logic.Function.Basic
import RustPbx.Lib.Machine

/-!
The named one-shot timers of a call controller.

`set_timeout` takes an old timer of the name back, spawns a task and enters it in the table, and the
task can run in between. A task sleeps, claims its entry, counts the delivery and sends the name,
one step at a time; one that is aborted after its sleep runs on. The event loop owns the controller,
so no two calls overlap. The calls to `set_timeout` are numbered, and the number stands for the task
and for its handle. The history decides nothing.
-/

namespace RustPbx.App

open Function Option

inductive TimerStage where
  | spawned
  | sleeping (deadline : Nat)
  | awake
  | claimed
  | counted
  | finished (delivered : Bool)

structure TimerTask where
  id : String
  generation : UInt64
  delay : Nat
  aborted : Bool := false
  stage : TimerStage := .spawned

structure TimerEntry where
  generation : UInt64
  handle : Nat

structure SetCall where
  id : String
  delay : Nat
  generation : UInt64
  timer : Nat
  spawned : Bool := false

inductive TimerEvent where
  | set (timer : Nat) (id : String) (delay time : Nat)
  | cancel (id : String)
  | claim (timer : Nat) (id : String) (time : Nat)
  | deliver (timer : Nat) (id : String)
  | consume (timer : Nat) (id : String)
  deriving DecidableEq

structure Timers where
  clock : Nat := 0
  entries : String → Option TimerEntry := fun _ => none
  /-- The deliveries that were counted and not yet consumed. -/
  pending : String → Nat := fun _ => 0
  tasks : Nat → Option TimerTask := fun _ => none
  setting : Option SetCall := none
  /-- The channel to the event loop. -/
  fired : List (Nat × String) := []
  /-- The event loop has dropped its end of the channel. -/
  closed : Bool := false
  started : Nat := 0
  history : List TimerEvent := []

namespace Timers

section

variable (s : Timers)

def modifyTask (timer : Nat) (f : TimerTask → TimerTask) : Timers :=
  { s with tasks := update s.tasks timer ((s.tasks timer).map f) }

def abort (handle : Nat) : Timers :=
  s.modifyTask handle ({ · with aborted := true })

def cancel (id : String) : Timers :=
  match s.entries id with
  | some entry => { s with entries := update s.entries id none }.abort entry.handle
  | none => s

/-- The generation that the next timer of a name gets, after the old one is taken back. -/
def nextGeneration (id : String) : UInt64 :=
  match s.entries id with
  | some entry => entry.generation + 1
  | none => 0

def reregister (id : String) : UInt64 × Timers :=
  (s.nextGeneration id, s.cancel id)

def attach (id : String) (generation : UInt64) (handle : Nat) : Timers :=
  { s with entries := update s.entries id (some ⟨generation, handle⟩) }

def claim (id : String) (generation : UInt64) : Bool × Timers :=
  if (s.entries id).any (·.generation == generation) then
    (true, { s with entries := update s.entries id none })
  else (false, s)

def bumpPending (id : String) : Timers :=
  { s with pending := update s.pending id (s.pending id + 1) }

def consumePending (id : String) : Timers :=
  { s with pending := update s.pending id (s.pending id - 1) }

def setStage (timer : Nat) (stage : TimerStage) : Timers :=
  s.modifyTask timer ({ · with stage })

def record (event : TimerEvent) : Timers :=
  { s with history := s.history ++ [event] }

def send (timer : Nat) (id : String) : Timers :=
  { s with fired := s.fired ++ [(timer, id)] }.record (.deliver timer id)

def receive (timer : Nat) (id : String) (fired : List (Nat × String)) : Timers :=
  { s.consumePending id with fired }.record (.consume timer id)

inductive TimerAction where
  /-- A call to `set_timeout`, up to the generation that the new timer gets. -/
  | setTimeout (id : String) (delay : Nat)
  | spawn
  | attach
  | cancelTimeout (id : String)
  | run (timer : Nat)
  | tick (lapse : Nat)
  | consume
  | close

def spawnTask (call : SetCall) : Timers :=
  let task := { id := call.id, generation := call.generation, delay := call.delay }
  { s with
    tasks := update s.tasks call.timer (some task)
    setting := some { call with spawned := true } }

def runTask (timer : Nat) (task : TimerTask) : Option Timers :=
  match task.stage with
  | .spawned =>
    if task.aborted then none else some (s.setStage timer (.sleeping (s.clock + task.delay)))
  | .sleeping deadline =>
    if task.aborted || s.clock < deadline then none else some (s.setStage timer .awake)
  | .awake =>
    let (claimed, s) := s.claim task.id task.generation
    if claimed then some ((s.record (.claim timer task.id s.clock)).setStage timer .claimed)
    else some (s.setStage timer (.finished false))
  | .claimed => some ((s.bumpPending task.id).setStage timer .counted)
  | .counted =>
    if s.closed then some ((s.consumePending task.id).setStage timer (.finished false))
    else some ((s.send timer task.id).setStage timer (.finished true))
  | .finished _ => none

def step : TimerAction → Option Timers
  | .setTimeout id delay =>
    if s.setting.isSome then none
    else
      let (generation, reregistered) := s.reregister id
      some ({ reregistered with
        setting := some { id, delay, generation, timer := s.started }
        started := s.started + 1 }.record (.set s.started id delay s.clock))
  | .spawn =>
    match s.setting with
    | some call =>
      if call.spawned then none else some (s.spawnTask call)
    | none => none
  | .attach =>
    match s.setting with
    | some call =>
      if call.spawned then
        some { s.attach call.id call.generation call.timer with setting := none }
      else none
    | none => none
  | .cancelTimeout id =>
    if s.setting.isSome then none else some ((s.cancel id).record (.cancel id))
  | .run timer => (s.tasks timer).bind (s.runTask timer)
  | .tick lapse => some { s with clock := s.clock + lapse }
  | .consume =>
    match s.closed, s.fired with
    | false, (timer, id) :: fired => some (s.receive timer id fired)
    | _, _ => none
  | .close => some { s with closed := true }

end

abbrev Runs (P : Timers → TimerAction → Prop) : Timers → Timers → Prop :=
  Machine.Runs step P

variable {s : Timers}

/-! ## What a step does -/

/-- The steps, each with what it takes. -/
inductive Effect (s : Timers) : TimerAction → Timers → Prop
  | set (id delay) (h : s.setting = none) :
      Effect s (.setTimeout id delay) ({ s.cancel id with
        setting := some { id, delay, generation := s.nextGeneration id, timer := s.started }
        started := s.started + 1 }.record (.set s.started id delay s.clock))
  | spawn {call} (h : s.setting = some call) (hs : call.spawned = false) :
      Effect s .spawn (s.spawnTask call)
  | attach {call} (h : s.setting = some call) (hs : call.spawned = true) :
      Effect s .attach { s.attach call.id call.generation call.timer with setting := none }
  | cancel (id) (h : s.setting = none) :
      Effect s (.cancelTimeout id) ((s.cancel id).record (.cancel id))
  | poll {timer task} (ht : s.tasks timer = some task) (hs : task.stage = .spawned)
      (ha : task.aborted = false) :
      Effect s (.run timer) (s.setStage timer (.sleeping (s.clock + task.delay)))
  | wake {timer task deadline} (ht : s.tasks timer = some task)
      (hs : task.stage = .sleeping deadline) (ha : task.aborted = false)
      (hd : deadline ≤ s.clock) : Effect s (.run timer) (s.setStage timer .awake)
  | claim {timer task entry} (ht : s.tasks timer = some task) (hs : task.stage = .awake)
      (he : s.entries task.id = some entry) (hg : entry.generation = task.generation) :
      Effect s (.run timer) (({ s with entries := update s.entries task.id none }.record
        (.claim timer task.id s.clock)).setStage timer .claimed)
  | miss {timer task} (ht : s.tasks timer = some task) (hs : task.stage = .awake)
      (he : ∀ entry, s.entries task.id = some entry → entry.generation ≠ task.generation) :
      Effect s (.run timer) (s.setStage timer (.finished false))
  | count {timer task} (ht : s.tasks timer = some task) (hs : task.stage = .claimed) :
      Effect s (.run timer) ((s.bumpPending task.id).setStage timer .counted)
  | refuse {timer task} (ht : s.tasks timer = some task) (hs : task.stage = .counted)
      (hc : s.closed = true) :
      Effect s (.run timer) ((s.consumePending task.id).setStage timer (.finished false))
  | deliver {timer task} (ht : s.tasks timer = some task) (hs : task.stage = .counted)
      (hc : s.closed = false) :
      Effect s (.run timer) ((s.send timer task.id).setStage timer (.finished true))
  | tick (lapse) : Effect s (.tick lapse) { s with clock := s.clock + lapse }
  | consume {timer id fired} (hf : s.fired = (timer, id) :: fired) (hc : s.closed = false) :
      Effect s .consume (s.receive timer id fired)
  | close : Effect s .close { s with closed := true }

theorem runTask_effect (ht : s.tasks timer = some task) (h : s.runTask timer task = some s') :
    Effect s (.run timer) s' := by
  unfold runTask at h
  split at h
  · next hs =>
    split at h
    · cases h
    · next ha =>
      cases h
      exact .poll ht hs (by simpa using ha)
  · next deadline hs =>
    split at h
    · cases h
    · next ha =>
      cases h
      obtain ⟨haborted, hclock⟩ : task.aborted = false ∧ deadline ≤ s.clock := by simpa using ha
      exact .wake ht hs haborted hclock
  · next hs =>
    by_cases he : ∃ entry, s.entries task.id = some entry ∧ entry.generation = task.generation
    · obtain ⟨entry, hentry, hg⟩ := he
      simp only [Timers.claim, hentry, any_some, hg, BEq.rfl] at h
      cases h
      exact .claim ht hs hentry hg
    · have hmiss : ∀ entry, s.entries task.id = some entry → entry.generation ≠ task.generation :=
        fun entry hentry hg => he ⟨entry, hentry, hg⟩
      have hany : (s.entries task.id).any (·.generation == task.generation) = false := by
        cases hentry : s.entries task.id with
        | none => rfl
        | some entry => simpa using hmiss entry hentry
      simp only [Timers.claim, hany] at h
      cases h
      exact .miss ht hs hmiss
  · next hs =>
    cases h
    exact .count ht hs
  · next hs =>
    split at h
    · next hc =>
      cases h
      exact .refuse ht hs hc
    · next hc =>
      cases h
      exact .deliver ht hs (by simpa using hc)
  · cases h

theorem step_effect (h : s.step action = some s') : Effect s action s' := by
  cases action with
  | setTimeout id delay =>
    simp only [step] at h
    split at h
    · cases h
    · next hsetting =>
      cases h
      exact .set id delay (by simpa using hsetting)
  | spawn =>
    simp only [step] at h
    split at h
    · next call hcall =>
      split at h
      · cases h
      · next hspawned =>
        cases h
        exact .spawn hcall (by simpa using hspawned)
    · cases h
  | attach =>
    simp only [step] at h
    split at h
    · next call hcall =>
      split at h
      · next hspawned =>
        cases h
        exact .attach hcall hspawned
      · cases h
    · cases h
  | cancelTimeout id =>
    simp only [step] at h
    split at h
    · cases h
    · next hsetting =>
      cases h
      exact .cancel id (by simpa using hsetting)
  | run timer =>
    obtain ⟨task, ht, h⟩ := bind_eq_some_iff.mp h
    exact runTask_effect ht h
  | tick lapse =>
    cases h
    exact .tick lapse
  | consume =>
    simp only [step] at h
    split at h
    · next hc hf =>
      cases h
      exact .consume hf hc
    · cases h
  | close =>
    cases h
    exact .close

theorem modifyTask_tasks : (s.modifyTask timer f).tasks n =
      if n = timer then (s.tasks timer).map f else s.tasks n := by
  simp [modifyTask, update_apply]

theorem setStage_tasks (ht : s.tasks timer = some task)
    (h : (s.setStage timer stage).tasks n = some task') :
    n = timer ∧ task' = { task with stage } ∨ n ≠ timer ∧ s.tasks n = some task' := by
  rw [setStage, modifyTask_tasks] at h
  split at h
  · next heq =>
    rw [ht] at h
    cases h
    exact .inl ⟨heq, rfl⟩
  · next hne => exact .inr ⟨hne, h⟩

theorem cancel_eq (id : String) : s.cancel id = { s with
      entries := update s.entries id none
      tasks := fun n => (s.tasks n).map fun task =>
        if (s.entries id).any (·.handle = n) then { task with aborted := true } else task } := by
  unfold Timers.cancel
  split
  · next entry hentry =>
    rw [abort, modifyTask, hentry]
    congr 1
    funext n
    by_cases heq : entry.handle = n
    · simp [heq]
    · simp [heq, Ne.symm heq]
  · next hnone =>
    have hentries : update s.entries id none = s.entries := update_eq_self_iff.mpr hnone.symm
    simp [hnone, hentries]

theorem cancel_tasks {id : String} (h : (s.cancel id).tasks n = some task) :
    ∃ task₀, s.tasks n = some task₀ ∧ ((∃ entry, s.entries id = some entry ∧ entry.handle = n) ∧
          task = { task₀ with aborted := true } ∨
        (∀ entry, s.entries id = some entry → entry.handle ≠ n) ∧ task = task₀) := by
  rw [cancel_eq] at h
  obtain ⟨task₀, ht, rfl⟩ := map_eq_some_iff.mp h
  refine ⟨task₀, ht, ?_⟩
  split
  · next hany => exact .inl ⟨by simpa [any_eq_true] using hany, rfl⟩
  · next hnone => exact .inr ⟨by simpa [any_eq_true] using hnone, rfl⟩

theorem spawnTask_tasks (h : (s.spawnTask call).tasks n = some task) : n = call.timer ∧
        task = { id := call.id, generation := call.generation, delay := call.delay } ∨
      n ≠ call.timer ∧ s.tasks n = some task := by
  simp only [spawnTask, update_apply] at h
  split at h
  · next heq => exact .inl ⟨heq, (some.inj h).symm⟩
  · next hne => exact .inr ⟨hne, h⟩

end Timers

end RustPbx.App
