import Mathlib.Data.List.Induction
import RustPbx.App.Timers
import RustPbx.Lib.History

/-!
On whose behalf a timer fires.

A task that has come out of its sleep claims the entry of its name if the entry has its generation.
Generations start again at zero once a name has no entry, so an old task that was aborted too late
can claim the entry of a later timer.
-/

namespace RustPbx.App.Timers

open List Function

/-- The latest call to `set_timeout` for a name, unless it was cancelled: number, delay and time. -/
def latest (id : String) (history : List TimerEvent) : Option (Nat × Nat × Nat) :=
  history.foldl (fun current event =>
    match event with
    | .set timer id' delay time => if id' = id then some (timer, delay, time) else current
    | .cancel id' => if id' = id then none else current
    | _ => current) none

/-- Every claim is made for the latest timer of the name, after its delay, and every delivery
follows a claim. -/
def Lawful : List TimerEvent → Prop :=
  History.Each fun before event =>
    match event with
    | .claim timer id time =>
      ∃ delay start, latest id before = some (timer, delay, start) ∧ start + delay ≤ time
    | .deliver timer id => ∃ time, .claim timer id time ∈ before
    | _ => True

/-- No timer claims before its delay has passed since it was set. -/
def OnTime : List TimerEvent → Prop :=
  History.Each fun before event =>
    match event with
    | .claim timer _ time =>
      ∀ id delay start, .set timer id delay start ∈ before → start + delay ≤ time
    | _ => True

/-- No task that is about to claim has the generation that a new timer gets. -/
def FreshGeneration (s : Timers) : TimerAction → Prop
  | .setTimeout id _ => ∀ timer task, s.tasks timer = some task → task.id = id →
      task.stage = .awake → task.generation ≠ s.nextGeneration id
  | _ => True

section

variable {history : List TimerEvent}

@[simp] theorem latest_append (id : String) (history : List TimerEvent) :
    latest id (history ++ [event]) =
      match event with
      | .set timer id' delay time =>
        if id' = id then some (timer, delay, time) else latest id history
      | .cancel id' => if id' = id then none else latest id history
      | _ => latest id history := by
  simp only [latest, foldl_append, foldl_cons, foldl_nil]

theorem mem_of_latest {id : String} {timer delay time : Nat}
    (h : latest id history = some (timer, delay, time)) : .set timer id delay time ∈ history := by
  induction history using reverseRecOn with
  | nil => cases h
  | append_singleton history event ih =>
    rw [latest_append] at h
    have hold (h : latest id history = some (timer, delay, time)) :
        .set timer id delay time ∈ history ++ [event] := mem_append_left _ (ih h)
    cases event with
    | set timer' id' delay' time' =>
      dsimp only at h
      split at h
      · next heq =>
        cases h
        rw [heq]
        exact mem_append_right _ mem_cons_self
      · exact hold h
    | cancel id' =>
      dsimp only at h
      split at h
      · cases h
      · exact hold h
    | claim | deliver | consume => exact hold h

/-! ## Numbers and times -/

def SetAt (history : List TimerEvent) (timer delay time : Nat) : Prop :=
  ∀ id delay' time', .set timer id delay' time' ∈ history → delay' = delay ∧ time' = time

/-- Timers are numbered in order, and their tasks are not ahead of their time. -/
structure Timely (s : Timers) : Prop where
  sets : ∀ timer id delay time, .set timer id delay time ∈ s.history → timer < s.started
  tasks : ∀ timer task, s.tasks timer = some task → timer < s.started ∧
    ∃ time ≤ s.clock, SetAt s.history timer task.delay time ∧
      (∀ deadline, task.stage = .sleeping deadline → time + task.delay ≤ deadline) ∧
      (task.stage = .awake → time + task.delay ≤ s.clock)
  call : ∀ call, s.setting = some call → call.timer < s.started ∧
    ∃ time ≤ s.clock, SetAt s.history call.timer call.delay time

theorem SetAt.append (h : SetAt history timer delay time)
    (hne : ∀ id delay' time', event = .set timer id delay' time' → delay' = delay ∧ time' = time) :
    SetAt (history ++ [event]) timer delay time := by
  intro id delay' time' hmem
  rcases mem_append.mp hmem with hmem | hmem
  · exact h id delay' time' hmem
  · exact hne id delay' time' (mem_singleton.mp hmem).symm

namespace Timely

theorem record (h : Timely s) (hne : ∀ timer id delay time, event ≠ .set timer id delay time) :
    Timely (s.record event) where
  sets timer id delay time hmem := by
    rcases mem_append.mp hmem with hmem | hmem
    · exact h.sets timer id delay time hmem
    · exact absurd (mem_singleton.mp hmem).symm (hne timer id delay time)
  tasks timer task ht := by
    obtain ⟨hlt, time, hle, hset, hstage⟩ := h.tasks timer task ht
    exact ⟨hlt, time, hle, hset.append fun _ _ _ heq => absurd heq (hne _ _ _ _), hstage⟩
  call call hcall := by
    obtain ⟨hlt, time, hle, hset⟩ := h.call call hcall
    exact ⟨hlt, time, hle, hset.append fun _ _ _ heq => absurd heq (hne _ _ _ _)⟩

theorem setStage (h : Timely s) (ht : s.tasks timer = some task) (hstage : ∀ time ≤ s.clock,
      (∀ deadline, task.stage = .sleeping deadline → time + task.delay ≤ deadline) →
      (∀ deadline, stage = .sleeping deadline → time + task.delay ≤ deadline) ∧
      (stage = .awake → time + task.delay ≤ s.clock)) : Timely (s.setStage timer stage) where
  sets := h.sets
  tasks n task' ht' := by
    rcases setStage_tasks ht ht' with ⟨rfl, rfl⟩ | ⟨-, ht'⟩
    · obtain ⟨hlt, time, hle, hset, hsleep, -⟩ := h.tasks n task ht
      exact ⟨hlt, time, hle, hset, hstage time hle hsleep⟩
    · exact h.tasks n task' ht'
  call := h.call

theorem aside {e p f c} (h : Timely s) :
    Timely { s with entries := e, pending := p, fired := f, closed := c } :=
  ⟨h.sets, h.tasks, h.call⟩

theorem cancel (h : Timely s) (id : String) : Timely (s.cancel id) := by
  rw [cancel_eq]
  refine ⟨h.sets, fun timer task ht => ?_, h.call⟩
  obtain ⟨task₀, ht₀, rfl⟩ := Option.map_eq_some_iff.mp ht
  split <;> exact h.tasks timer task₀ ht₀

end Timely

theorem Timely.tasks_started (h : Timely s) : s.tasks s.started = none := by
  cases ht : s.tasks s.started with
  | none => rfl
  | some task => exact absurd (h.tasks _ _ ht).1 (Nat.lt_irrefl _)

theorem Timely.setAt_new (h : Timely s) (id : String) :
    SetAt (s.history ++ [.set s.started id delay time]) s.started delay time := by
  intro id' delay' time' hmem
  rcases mem_append.mp hmem with hmem | hmem
  · exact absurd (h.sets _ _ _ _ hmem) (Nat.lt_irrefl _)
  · cases mem_singleton.mp hmem
    exact ⟨rfl, rfl⟩

theorem Timely.set (h : Timely s) (id : String) (delay : Nat) (generation : UInt64) :
    Timely ({ s with
      setting := some { id, delay, generation, timer := s.started }
      started := s.started + 1 }.record (.set s.started id delay s.clock)) where
  sets timer id' delay' time' hmem := by
    rcases mem_append.mp hmem with hmem | hmem
    · exact Nat.lt_succ_of_lt (h.sets _ _ _ _ hmem)
    · cases mem_singleton.mp hmem
      exact Nat.lt_succ_self _
  tasks timer task ht := by
    obtain ⟨hlt, time, hle, hset, hstage⟩ := h.tasks timer task ht
    refine ⟨Nat.lt_succ_of_lt hlt, time, hle, hset.append fun id' delay' time' heq => ?_, hstage⟩
    injection heq with htimer
    omega
  call call hcall := by
    cases hcall
    exact ⟨Nat.lt_succ_self _, s.clock, Nat.le_refl _, h.setAt_new id⟩

theorem Effect.timely (heffect : Effect s action s') (h : Timely s) : Timely s' := by
  cases heffect with
  | set id delay hsetting =>
    have hset := (h.cancel id).set id delay (s.nextGeneration id)
    rw [cancel_eq] at hset ⊢
    exact hset
  | @spawn call hcall hspawned =>
    obtain ⟨hlt, time, hle, hset⟩ := h.call call hcall
    refine ⟨h.sets, fun timer task ht => ?_, fun call' hcall' => ?_⟩
    · rcases spawnTask_tasks ht with ⟨rfl, rfl⟩ | ⟨-, ht⟩
      · exact ⟨hlt, time, hle, hset, nofun, nofun⟩
      · exact h.tasks timer task ht
    · cases hcall'
      exact ⟨hlt, time, hle, hset⟩
  | attach hcall hspawned => exact ⟨h.sets, h.tasks, nofun⟩
  | cancel id hsetting => exact (h.cancel id).record nofun
  | poll ht hs ha =>
    refine h.setStage ht fun time hle _ => ⟨fun deadline heq => ?_, nofun⟩
    cases heq
    exact Nat.add_le_add_right hle _
  | wake ht hs ha hd =>
    exact h.setStage ht fun time _ hsleep => ⟨nofun, fun _ => Nat.le_trans (hsleep _ hs) hd⟩
  | claim ht | deliver ht =>
    refine Timely.setStage ?_ ht fun _ _ _ => ⟨nofun, nofun⟩
    exact h.aside.record nofun
  | miss ht | count ht | refuse ht =>
    exact h.aside.setStage ht fun _ _ _ => ⟨nofun, nofun⟩
  | tick lapse =>
    refine ⟨h.sets, fun timer task ht => ?_, fun call hcall => ?_⟩
    · obtain ⟨hlt, time, hle, hset, hsleep, hawake⟩ := h.tasks timer task ht
      exact ⟨hlt, time, Nat.le_add_right_of_le hle, hset, hsleep, fun hs =>
        Nat.le_add_right_of_le (hawake hs)⟩
    · obtain ⟨hlt, time, hle, hset⟩ := h.call call hcall
      exact ⟨hlt, time, Nat.le_add_right_of_le hle, hset⟩
  | consume => exact h.aside.record nofun
  | close => exact h.aside

/-! ## Who can claim -/

/-- The latest timer of a name has a number. -/
def Stands (history : List TimerEvent) (id : String) (timer : Nat) : Prop :=
  ∃ delay time, latest id history = some (timer, delay, time)

def MayClaim (task : TimerTask) : Prop :=
  task.stage = .awake ∨
    task.aborted = false ∧ (task.stage = .spawned ∨ ∃ deadline, task.stage = .sleeping deadline)

theorem not_mayClaim (hawake : task.stage ≠ .awake)
    (hspawned : task.stage ≠ .spawned) (hsleep : ∀ deadline, task.stage ≠ .sleeping deadline) :
    ¬ MayClaim task := by
  rintro (h | ⟨-, h | ⟨deadline, h⟩⟩)
  · exact hawake h
  · exact hspawned h
  · exact hsleep deadline h

/-- A task that was aborted too late: nothing has its generation. -/
structure Stale (entries : String → Option TimerEntry) (setting : Option SetCall)
    (task : TimerTask) : Prop where
  awake : task.stage = .awake
  entry : ∀ entry, entries task.id = some entry → entry.generation ≠ task.generation
  call : ∀ call, setting = some call → call.id = task.id → call.generation ≠ task.generation

/-- The task of a number has a name and a generation. -/
def Backs (s : Timers) (timer : Nat) (id : String) (generation : UInt64) : Prop :=
  ∃ task, s.tasks timer = some task ∧ task.id = id ∧ task.generation = generation

/-- The entry of a name, or the call that will make it, is for the latest timer, and no other task
can claim it. -/
structure Orderly (s : Timers) : Prop where
  entry : ∀ id entry, s.entries id = some entry →
    Stands s.history id entry.handle ∧ Backs s entry.handle id entry.generation
  call : ∀ call, s.setting = some call →
    s.entries call.id = none ∧ Stands s.history call.id call.timer ∧
      if call.spawned then Backs s call.timer call.id call.generation
      else s.tasks call.timer = none
  mayClaim : ∀ timer task, s.tasks timer = some task → MayClaim task →
    (∃ entry, s.entries task.id = some entry ∧ entry.handle = timer) ∨
    (∃ call, s.setting = some call ∧ call.id = task.id ∧ call.timer = timer) ∨
    Stale s.entries s.setting task
  claimed : ∀ timer task, s.tasks timer = some task → task.stage = .claimed ∨
    task.stage = .counted → ∃ time, .claim timer task.id time ∈ s.history

theorem Backs.setStage {id : String} {generation : UInt64} {stage : TimerStage}
    (h : Backs s n id generation) : Backs (s.setStage timer stage) n id generation := by
  obtain ⟨task, ht, hid, hgeneration⟩ := h
  unfold Backs
  rw [Timers.setStage, modifyTask_tasks]
  split
  · next heq => exact ⟨{ task with stage }, by rw [← heq, ht]; rfl, hid, hgeneration⟩
  · exact ⟨task, ht, hid, hgeneration⟩

theorem Backs.cancel {id : String} {generation : UInt64} (name : String)
    (h : Backs s n id generation) : Backs (s.cancel name) n id generation := by
  obtain ⟨task, ht, hid, hgeneration⟩ := h
  rw [cancel_eq]
  refine ⟨_, congrArg (Option.map _) ht, ?_⟩
  split <;> exact ⟨hid, hgeneration⟩

theorem of_update_none [DecidableEq α] {f : α → Option β} (h : update f a none a' = some b) :
    a' ≠ a ∧ f a' = some b := by
  rw [update_apply] at h
  split at h
  · cases h
  · next hne => exact ⟨hne, h⟩

namespace Orderly

theorem aside {p f c} (h : Orderly s) : Orderly { s with pending := p, fired := f, closed := c } :=
  ⟨h.entry, h.call, h.mayClaim, h.claimed⟩

theorem record (h : Orderly s) (hentry : ∀ id entry, s.entries id = some entry →
      latest id (s.history ++ [event]) = latest id s.history)
    (hcall : ∀ call, s.setting = some call →
      latest call.id (s.history ++ [event]) = latest call.id s.history) :
    Orderly (s.record event) where
  entry id entry he := by
    obtain ⟨⟨delay, time, hlatest⟩, hbacks⟩ := h.entry id entry he
    exact ⟨⟨delay, time, (hentry id entry he).trans hlatest⟩, hbacks⟩
  call call hsetting := by
    obtain ⟨hnone, ⟨delay, time, hlatest⟩, htask⟩ := h.call call hsetting
    exact ⟨hnone, ⟨delay, time, (hcall call hsetting).trans hlatest⟩, htask⟩
  mayClaim := h.mayClaim
  claimed timer task ht hs := by
    obtain ⟨time, hmem⟩ := h.claimed timer task ht hs
    exact ⟨time, mem_append_left _ hmem⟩

variable {call : SetCall} {entry : TimerEntry}

section

variable (h : Orderly s)
include h

theorem setStage (ht : s.tasks timer = some task)
    (hmay : MayClaim { task with stage } → MayClaim task ∧ task.stage ≠ .awake)
    (hclaimed : stage = .claimed ∨ stage = .counted →
      ∃ time, .claim timer task.id time ∈ s.history) : Orderly (s.setStage timer stage) where
  entry id entry he := by
    obtain ⟨hstands, hbacks⟩ := h.entry id entry he
    exact ⟨hstands, hbacks.setStage⟩
  call call hsetting := by
    obtain ⟨hnone, hstands, htask⟩ := h.call call hsetting
    refine ⟨hnone, hstands, ?_⟩
    split at htask
    · next hspawned =>
      rw [if_pos hspawned]
      exact htask.setStage
    · next hspawned =>
      rw [if_neg hspawned, Timers.setStage, modifyTask_tasks]
      split
      · next heq =>
        rw [← heq, htask] at ht
        cases ht
      · exact htask
  mayClaim n task' ht' hmay' := by
    rcases setStage_tasks ht ht' with ⟨rfl, rfl⟩ | ⟨-, ht'⟩
    · obtain ⟨hold, hawake⟩ := hmay hmay'
      rcases h.mayClaim n task ht hold with hentry | hcall | hstale
      · exact .inl hentry
      · exact .inr (.inl hcall)
      · exact absurd hstale.awake hawake
    · exact h.mayClaim n task' ht' hmay'
  claimed n task' ht' hs := by
    rcases setStage_tasks ht ht' with ⟨rfl, rfl⟩ | ⟨-, ht'⟩
    · exact hclaimed hs
    · exact h.claimed n task' ht' hs

theorem cancel (hsetting : s.setting = none) (id : String) : Orderly (s.cancel id) where
  entry id' entry he := by
    rw [cancel_eq] at he
    obtain ⟨hstands, hbacks⟩ := h.entry id' entry (of_update_none he).2
    refine ⟨?_, hbacks.cancel id⟩
    rwa [cancel_eq]
  call call hcall := by
    rw [cancel_eq] at hcall
    cases hsetting.symm.trans hcall
  mayClaim timer task ht hmay := by
    obtain ⟨task₀, ht₀, ⟨⟨entry, hentry, rfl⟩, rfl⟩ | ⟨hother, rfl⟩⟩ := cancel_tasks ht
    · obtain ⟨-, task₁, ht₁, hid, -⟩ := h.entry id entry hentry
      cases ht₀.symm.trans ht₁
      have hawake : task₀.stage = .awake := by
        rcases hmay with hawake | ⟨haborted, -⟩
        · exact hawake
        · cases haborted
      rw [cancel_eq]
      refine .inr (.inr ⟨hawake, fun entry' he' => ?_, hsetting ▸ nofun⟩)
      exact absurd hid (of_update_none he').1
    · rw [cancel_eq]
      rcases h.mayClaim timer task ht₀ hmay with ⟨entry, hentry, rfl⟩ | hcall | hstale
      · refine .inl ⟨entry, ?_, rfl⟩
        refine (update_of_ne ?_ ..).trans hentry
        rintro rfl
        exact hother entry hentry rfl
      · exact .inr (.inl hcall)
      · exact .inr (.inr ⟨hstale.awake, fun entry he => hstale.entry entry (of_update_none he).2,
          hstale.call⟩)
  claimed timer task ht hs := by
    rw [cancel_eq]
    obtain ⟨task₀, ht₀, ⟨-, rfl⟩ | ⟨-, rfl⟩⟩ := cancel_tasks ht
    · exact h.claimed timer task₀ ht₀ hs
    · exact h.claimed timer task ht₀ hs

theorem set {id : String} {generation : UInt64} (hsetting : s.setting = none)
    (hentry : s.entries id = none) (hnew : s.tasks s.started = none)
    (hfresh : ∀ timer task, s.tasks timer = some task → task.id = id → task.stage = .awake →
      task.generation ≠ generation) (delay : Nat) : Orderly ({ s with
      setting := some { id, delay, generation, timer := s.started }
      started := s.started + 1 }.record (.set s.started id delay s.clock)) where
  entry id' entry he := by
    obtain ⟨⟨delay', time', hlatest⟩, hbacks⟩ := h.entry id' entry he
    have hne : id ≠ id' := by
      rintro rfl
      cases hentry.symm.trans he
    refine ⟨⟨delay', time', ?_⟩, hbacks⟩
    simp only [Timers.record, latest_append, if_neg hne, hlatest]
  call call hcall := by
    cases hcall
    refine ⟨hentry, ⟨delay, s.clock, ?_⟩, ?_⟩
    · simp only [Timers.record, latest_append, if_true]
    · exact hnew
  mayClaim timer task ht hmay := by
    rcases h.mayClaim timer task ht hmay with hentry | ⟨call, hcall, -⟩ | hstale
    · exact .inl hentry
    · rw [hsetting] at hcall
      cases hcall
    · refine .inr (.inr ⟨hstale.awake, hstale.entry, fun call hcall hid heq => ?_⟩)
      cases hcall
      exact hfresh timer task ht hid.symm hstale.awake heq.symm
  claimed timer task ht hs := by
    obtain ⟨time, hmem⟩ := h.claimed timer task ht hs
    exact ⟨time, mem_append_left _ hmem⟩

theorem spawn (hcall : s.setting = some call) (hspawned : call.spawned = false) :
    Orderly (s.spawnTask call) := by
  obtain ⟨hnone, hstands, htask⟩ := h.call call hcall
  rw [if_neg (by simp [hspawned])] at htask
  refine ⟨fun id entry he => ?_, fun call' hcall' => ?_, fun timer task ht hmay => ?_,
    fun timer task ht hs => ?_⟩
  · obtain ⟨hstands, task, ht, hbacks⟩ := h.entry id entry he
    refine ⟨hstands, task, ?_, hbacks⟩
    have hne : entry.handle ≠ call.timer := by
      intro heq
      rw [heq, htask] at ht
      cases ht
    simpa only [spawnTask, update_of_ne hne] using ht
  · cases hcall'
    refine ⟨hnone, hstands, ?_⟩
    exact ⟨_, update_self .., rfl, rfl⟩
  · rcases spawnTask_tasks ht with ⟨rfl, rfl⟩ | ⟨-, ht⟩
    · exact .inr (.inl ⟨{ call with spawned := true }, rfl, rfl, rfl⟩)
    · rcases h.mayClaim timer task ht hmay with hentry | ⟨call', hcall', hid, hn⟩ | hstale
      · exact .inl hentry
      · cases hcall.symm.trans hcall'
        exact .inr (.inl ⟨{ call with spawned := true }, rfl, hid, hn⟩)
      · refine .inr (.inr ⟨hstale.awake, hstale.entry, fun call' hcall' => ?_⟩)
        cases hcall'
        exact hstale.call call hcall
  · rcases spawnTask_tasks ht with ⟨rfl, rfl⟩ | ⟨-, ht⟩
    · rcases hs with hs | hs <;> cases hs
    · exact h.claimed timer task ht hs

theorem attach (hcall : s.setting = some call) (hspawned : call.spawned = true) :
    Orderly { s.attach call.id call.generation call.timer with setting := none } := by
  obtain ⟨hnone, hstands, htask⟩ := h.call call hcall
  rw [if_pos hspawned] at htask
  refine ⟨fun id entry he => ?_, nofun, fun timer task ht hmay => ?_, h.claimed⟩
  · simp only [Timers.attach, update_apply] at he
    split at he
    · next heq =>
      cases he
      subst heq
      exact ⟨hstands, htask⟩
    · exact h.entry id entry he
  · have hother {id : String} {entry : TimerEntry} (he : s.entries id = some entry) :
        id ≠ call.id := by
      rintro rfl
      cases hnone.symm.trans he
    rcases h.mayClaim timer task ht hmay with ⟨entry, he, hn⟩ | ⟨call', hcall', hid, hn⟩ | hstale
    · exact .inl ⟨entry, by simpa only [Timers.attach, update_of_ne (hother he)], hn⟩
    · cases hcall.symm.trans hcall'
      exact .inl ⟨⟨call.generation, call.timer⟩, by simp [Timers.attach, hid], hn⟩
    · refine .inr (.inr ⟨hstale.awake, fun entry he => ?_, nofun⟩)
      simp only [Timers.attach, update_apply] at he
      split at he
      · next heq =>
        cases he
        exact hstale.call call hcall heq.symm
      · exact hstale.entry entry he

theorem handle_eq (ht : s.tasks timer = some task) (hs : task.stage = .awake)
    (he : s.entries task.id = some entry) (hg : entry.generation = task.generation) :
    entry.handle = timer := by
  rcases h.mayClaim timer task ht (.inl hs) with ⟨entry', he', hn⟩ | ⟨call, hcall, hid, -⟩ | hstale
  · cases he.symm.trans he'
    exact hn
  · cases (hid ▸ (h.call call hcall).1).symm.trans he
  · exact absurd hg (hstale.entry entry he)

theorem clear {id : String} (he : s.entries id = some entry)
    (hdone : ∀ task, s.tasks entry.handle = some task → ¬ MayClaim task) :
    Orderly { s with entries := update s.entries id none } := by
  refine ⟨fun id' entry' he' => h.entry id' entry' (of_update_none he').2, fun call hcall => ?_,
    fun timer task ht hmay => ?_, h.claimed⟩
  · obtain ⟨hnone, hrest⟩ := h.call call hcall
    refine ⟨?_, hrest⟩
    show update s.entries id none call.id = none
    rw [update_apply]
    split
    · rfl
    · exact hnone
  · rcases h.mayClaim timer task ht hmay with ⟨entry', he', rfl⟩ | hcall | hstale
    · refine .inl ⟨entry', ?_, rfl⟩
      show update s.entries id none task.id = some entry'
      rw [update_of_ne, he']
      rintro rfl
      cases he.symm.trans he'
      exact hdone task ht hmay
    · exact .inr (.inl hcall)
    · exact .inr (.inr ⟨hstale.awake, fun entry he => hstale.entry entry (of_update_none he).2,
        hstale.call⟩)

theorem retire (ht : s.tasks timer = some task) (hmay : ¬ MayClaim { task with stage })
    (hclaimed : ¬(stage = .claimed ∨ stage = .counted)) : Orderly (s.setStage timer stage) :=
  h.setStage ht (absurd · hmay) (absurd · hclaimed)

end

end Orderly

theorem Effect.orderly (heffect : Effect s action s') (htimely : Timely s) (h : Orderly s)
    (hfresh : FreshGeneration s action) : Orderly s' := by
  cases heffect with
  | set id delay hsetting =>
    have hfresh' (timer : Nat) (task : TimerTask) (ht : (s.cancel id).tasks timer = some task)
        (hid : task.id = id) (hs : task.stage = .awake) :
        task.generation ≠ s.nextGeneration id := by
      obtain ⟨task₀, ht₀, ⟨-, rfl⟩ | ⟨-, rfl⟩⟩ := cancel_tasks ht
      · exact hfresh timer task₀ ht₀ hid hs
      · exact hfresh timer task ht₀ hid hs
    have hset := (h.cancel hsetting id).set (by rw [cancel_eq, hsetting])
      (by rw [cancel_eq]; exact update_self ..) (htimely.cancel id).tasks_started hfresh' delay
    rw [cancel_eq] at hset ⊢
    exact hset
  | spawn hcall hspawned => exact h.spawn hcall hspawned
  | attach hcall hspawned => exact h.attach hcall hspawned
  | cancel id hsetting =>
    refine (h.cancel hsetting id).record (fun id' entry he => ?_) (fun call hcall => ?_)
    · rw [cancel_eq] at he
      simp only [latest_append, if_neg (Ne.symm (of_update_none he).1)]
    · rw [cancel_eq] at hcall
      cases hsetting.symm.trans hcall
  | poll ht hs ha =>
    exact h.setStage ht (fun _ => ⟨.inr ⟨ha, .inl hs⟩, by simp [hs]⟩)
      (by simp)
  | wake ht hs ha hd =>
    exact h.setStage ht (fun _ => ⟨.inr ⟨ha, .inr ⟨_, hs⟩⟩, by simp [hs]⟩)
      (by simp)
  | @claim timer task entry ht hs he hg =>
    have hrecord : Orderly (s.record (.claim timer task.id s.clock)) :=
      h.record (fun _ _ _ => latest_append ..) (fun _ _ => latest_append ..)
    have hstage : Orderly ((s.record (.claim timer task.id s.clock)).setStage timer .claimed) :=
      hrecord.setStage ht (absurd · (not_mayClaim nofun nofun nofun))
        (fun _ => ⟨s.clock, mem_append_right _ mem_cons_self⟩)
    refine hstage.clear he fun task' ht' => ?_
    rw [h.handle_eq ht hs he hg] at ht'
    obtain ⟨-, rfl⟩ | ⟨hne, -⟩ := setStage_tasks ht ht'
    · exact not_mayClaim nofun nofun nofun
    · exact absurd rfl hne
  | miss ht | refuse ht => exact h.aside.retire ht (not_mayClaim nofun nofun nofun) (by simp)
  | count ht hs =>
    exact h.aside.setStage ht (absurd · (not_mayClaim nofun nofun nofun))
      (fun _ => h.claimed _ _ ht (.inl hs))
  | deliver ht =>
    refine Orderly.retire ?_ ht (not_mayClaim nofun nofun nofun) (by simp)
    exact h.aside.record (fun _ _ _ => latest_append ..) (fun _ _ => latest_append ..)
  | tick | close => exact ⟨h.entry, h.call, h.mayClaim, h.claimed⟩
  | consume => exact h.aside.record (fun _ _ _ => latest_append ..) (fun _ _ => latest_append ..)

theorem claim_due {timer : Nat} {task : TimerTask} {entry : TimerEntry} (htimely : Timely s)
    (h : Orderly s) (ht : s.tasks timer = some task) (hs : task.stage = .awake)
    (he : s.entries task.id = some entry) (hg : entry.generation = task.generation) :
    ∃ delay start, latest task.id s.history = some (timer, delay, start) ∧
      start + delay ≤ s.clock := by
  obtain ⟨⟨delay, start, hlatest⟩, -⟩ := h.entry task.id entry he
  rw [h.handle_eq ht hs he hg] at hlatest
  obtain ⟨-, time, -, hset, -, hdue⟩ := htimely.tasks timer task ht
  obtain ⟨rfl, rfl⟩ := hset _ _ _ (mem_of_latest hlatest)
  exact ⟨_, _, hlatest, hdue hs⟩

theorem Effect.lawful (heffect : Effect s action s') (htimely : Timely s) (horderly : Orderly s)
    (h : Lawful s.history) : Lawful s'.history := by
  cases heffect with
  | set | cancel =>
    rw [cancel_eq]
    exact History.Each.append h trivial
  | claim ht hs he hg =>
    have hdue := claim_due htimely horderly ht hs he hg
    exact History.Each.append h hdue
  | deliver ht hs hc => exact History.Each.append h (horderly.claimed _ _ ht (.inr hs))
  | consume hf hc => exact History.Each.append h trivial
  | spawn | attach | poll | wake | miss | count | refuse | tick | close => exact h

theorem Effect.onTime (heffect : Effect s action s') (htimely : Timely s)
    (h : OnTime s.history) : OnTime s'.history := by
  cases heffect with
  | set | cancel =>
    rw [cancel_eq]
    exact History.Each.append h trivial
  | claim ht hs =>
    refine History.Each.append h fun id delay start hmem => ?_
    obtain ⟨-, time, -, hset, -, hdue⟩ := htimely.tasks _ _ ht
    obtain ⟨rfl, rfl⟩ := hset id delay start hmem
    exact hdue hs
  | deliver | consume => exact History.Each.append h trivial
  | spawn | attach | poll | wake | miss | count | refuse | tick | close => exact h

/-- **No timer fires early**, in any run. -/
theorem claims_on_time {P : Timers → TimerAction → Prop} (hrun : Runs P {} s) :
    OnTime s.history := by
  have hall : Timely s ∧ OnTime s.history := by
    refine hrun.invariant (fun s => Timely s ∧ OnTime s.history)
      ⟨⟨nofun, nofun, nofun⟩, History.Each.nil⟩ fun s action s' h _ hstep => ?_
    have heffect := step_effect hstep
    exact ⟨heffect.timely h.1, heffect.onTime h.1 h.2⟩
  exact hall.2

theorem claims_on_time_ring : ∃ s, Machine.steps step {} [.setTimeout "ring" 5, .spawn, .attach,
    .run 0, .tick 7, .run 0, .run 0] = some s ∧ OnTime s.history :=
  Exists.imp (fun _ h => ⟨h, claims_on_time (P := fun _ _ => True) <|
    Machine.Runs.steps .refl h fun _ _ _ => trivial⟩) ⟨_, rfl⟩

/-- **A name fires for its latest timer only**, and after its delay, in every run of
`FreshGeneration`s. -/
theorem fires_for_latest (hrun : Runs FreshGeneration {} s) : Lawful s.history := by
  have hall : Timely s ∧ Orderly s ∧ Lawful s.history := by
    refine hrun.invariant (fun s => Timely s ∧ Orderly s ∧ Lawful s.history)
      ⟨⟨nofun, nofun, nofun⟩, ⟨nofun, nofun, nofun, nofun⟩, History.Each.nil⟩ ?_
    rintro s action s' ⟨htimely, horderly, hlawful⟩ hfresh hstep
    have heffect := step_effect hstep
    exact ⟨heffect.timely htimely, heffect.orderly htimely horderly hfresh,
      heffect.lawful htimely horderly hlawful⟩
  exact hall.2.2

end

/-- A timer is set again between its sleep and its claim. -/
theorem fires_for_latest_ring : ∃ s, Runs FreshGeneration {} s ∧
    s.history = [.set 0 "ring" 5 0, .set 1 "ring" 60 5, .claim 1 "ring" 65, .deliver 1 "ring"] ∧
      Lawful s.history := by
  obtain ⟨s₁, s₂, s, hset, hawake, hfresh, hrest, hhistory⟩ : ∃ s₁ s₂ s,
      step {} (.setTimeout "ring" 5) = some s₁ ∧
      Machine.steps step s₁ [.spawn, .attach, .run 0, .tick 5, .run 0] = some s₂ ∧
      FreshGeneration s₂ (.setTimeout "ring" 60) ∧
      Machine.steps step s₂ [.setTimeout "ring" 60, .spawn, .attach, .run 0, .run 1, .tick 60,
        .run 1, .run 1, .run 1, .run 1] = some s ∧
      s.history = [.set 0 "ring" 5 0, .set 1 "ring" 60 5, .claim 1 "ring" 65,
        .deliver 1 "ring"] := by
    refine ⟨_, _, _, rfl, rfl, fun timer task htask _ _ => ?_, rfl, by decide⟩
    cases timer with
    | zero =>
      obtain rfl := Option.some_inj.mp htask
      decide
    | succ timer => cases htask
  obtain ⟨s₃, hreset, hlast⟩ := Machine.steps_cons.mp hrest
  have hfirst : Runs FreshGeneration {} s₁ := Machine.Runs.next .refl hset nofun
  have hsecond : Runs FreshGeneration {} s₂ := hfirst.steps hawake (by simp [FreshGeneration])
  have hrun : Runs FreshGeneration {} s :=
    (hsecond.next hreset hfresh).steps hlast (by simp [FreshGeneration])
  exact ⟨s, hrun, hhistory, fires_for_latest hrun⟩

/-- A timer is cancelled between its sleep and its claim, and set again with a longer delay. The old
task has the generation of the new entry and delivers in its name, at once. -/
theorem cancelled_timer_fires : ∃ s, Runs (fun _ _ => True) {} s ∧
    s.history = [.set 0 "ring" 5 0, .cancel "ring", .set 1 "ring" 60 5, .claim 0 "ring" 5,
      .deliver 0 "ring"] ∧ ¬ Lawful s.history := by
  obtain ⟨s, hsteps, hhistory⟩ : ∃ s, Machine.steps step {}
      [.setTimeout "ring" 5, .spawn, .attach, .run 0, .tick 5, .run 0, .cancelTimeout "ring",
        .setTimeout "ring" 60, .spawn, .attach, .run 0, .run 0, .run 0] = some s ∧
      s.history = [.set 0 "ring" 5 0, .cancel "ring", .set 1 "ring" 60 5, .claim 0 "ring" 5,
        .deliver 0 "ring"] := ⟨_, rfl, by decide⟩
  have hrun : Runs (fun _ _ => True) {} s :=
    Machine.Runs.steps .refl hsteps fun _ _ _ => trivial
  refine ⟨s, hrun, hhistory, fun hlawful => ?_⟩
  obtain ⟨delay, start, hlatest, -⟩ := hlawful
    [.set 0 "ring" 5 0, .cancel "ring", .set 1 "ring" 60 5] (.claim 0 "ring" 5) _ hhistory
  cases hlatest

end RustPbx.App.Timers
