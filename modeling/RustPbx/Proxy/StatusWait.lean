import RustPbx.Lib.Machine
import RustPbx.Proxy.ActiveCalls

/-!
A task that waits for the status of a call, while other tasks change it.

A change is made first and notified then. The waiting task reads the status and then creates the
future that is woken, and a notification in between is lost (`missed_notification`).
-/

namespace RustPbx.Proxy

deriving instance DecidableEq for ActiveProxyCallStatus

inductive WaitPhase where
  | checks
  /-- The status is not the one to wait for. The future is not created yet. -/
  | arms
  | waits (woken : Bool)
  | returned (result : Bool)
  deriving DecidableEq

structure StatusWait where
  status : Option ActiveProxyCallStatus
  deadline : Nat
  now : Nat := 0
  phase : WaitPhase := .checks
  /-- How many calls of `upsert` and `update` have not notified yet. -/
  owed : Nat := 0

inductive WaitAction where
  | change (status : Option ActiveProxyCallStatus)
  | notify
  | elapse (time : Nat)
  | read
  | arm
  | wake
  | expire

namespace StatusWait

def step (target : ActiveProxyCallStatus) (s : StatusWait) : WaitAction → Option StatusWait
  | .change status => some { s with status, owed := s.owed + 1 }
  | .notify =>
    if s.owed = 0 then none
    else some { s with
      owed := s.owed - 1, phase := if s.phase = .waits false then .waits true else s.phase }
  | .elapse time => some { s with now := s.now + time }
  | .read =>
    if s.phase = .checks then
      some { s with phase := if s.status = some target then .returned true else .arms }
    else none
  | .arm =>
    if s.phase = .arms then
      some { s with phase := if s.now ≥ s.deadline then .returned false else .waits false }
    else none
  | .wake => if s.phase = .waits true then some { s with phase := .checks } else none
  | .expire =>
    if (s.phase = .waits true ∨ s.phase = .waits false) ∧ s.now ≥ s.deadline then
      some { s with phase := .returned false }
    else none

/-- No notification comes between the read and the future, and the deadline comes when no task has
anything to do before it. -/
def Prompt (s : StatusWait) : WaitAction → Prop
  | .notify => s.phase ≠ .arms
  | .elapse time => s.now + time < s.deadline ∨
    s.owed = 0 ∧ s.phase ≠ .checks ∧ s.phase ≠ .arms ∧ s.phase ≠ .waits true
  | _ => True

structure Alert (target : ActiveProxyCallStatus) (s : StatusWait) : Prop where
  owed : s.phase = .arms ∨ s.phase = .waits false → s.status = some target → 0 < s.owed
  late : s.phase = .returned false → s.deadline ≤ s.now

variable {s s' : StatusWait}

theorem Alert.step (h : s.Alert target) (hprompt : s.Prompt action)
    (hstep : s.step target action = some s') : s'.Alert target := by
  obtain ⟨howed, hlate⟩ := h
  cases action <;> simp only [StatusWait.step, Option.ite_none_left_eq_some,
    Option.ite_none_right_eq_some, Option.some.injEq] at hstep <;> grind [Prompt, Alert]

/-- **A wait returns in time**: if the call has the status when the deadline comes, the wait has
returned `true`, unless a notification is lost or a task is held up until then. -/
theorem wait_returns (target : ActiveProxyCallStatus) (status : Option ActiveProxyCallStatus)
    (deadline : Nat) (s : StatusWait)
    (hrun : Machine.Runs (step target) Prompt { status, deadline } s) (time : Nat)
    (hbefore : s.now < s.deadline) (hcomes : s.deadline ≤ s.now + time)
    (hprompt : s.Prompt (.elapse time)) (hstatus : s.status = some target) :
    s.phase = .returned true := by
  obtain ⟨howed, hlate⟩ := hrun.invariant (Alert target) ⟨by simp, by simp⟩
    fun _ _ _ h hprompt hstep => h.step hprompt hstep
  obtain hearly | ⟨hnone, hchecks, harms, hwoken⟩ := hprompt
  · omega
  · rcases hphase : s.phase with _ | _ | (_ | _) | (_ | _)
    · exact absurd hphase hchecks
    · exact absurd hphase harms
    · exact absurd hnone (Nat.ne_of_gt (howed (.inr hphase) hstatus))
    · exact absurd hphase hwoken
    · exact absurd hbefore (Nat.not_lt.mpr (hlate hphase))
    · rfl

/-- The call is answered while the task waits. -/
theorem wait_returns_talking :
    (⟨some .talking, 10, 0, .returned true, 0⟩ : StatusWait).phase = .returned true := by
  have harmed : Machine.Runs (step .talking) Prompt { status := none, deadline := 10 } _ :=
    .tail (.single ⟨.read, trivial, rfl⟩) ⟨.arm, trivial, rfl⟩
  have hnotified : Machine.Runs (step .talking) Prompt { status := none, deadline := 10 } _ :=
    (harmed.tail ⟨.change (some .talking), trivial, rfl⟩).tail ⟨.notify, nofun, rfl⟩
  have hrun : Machine.Runs (step .talking) Prompt { status := none, deadline := 10 } _ :=
    (hnotified.tail ⟨.wake, trivial, rfl⟩).tail ⟨.read, trivial, rfl⟩
  exact wait_returns .talking none 10 _ hrun 10 (by decide) (by decide) (.inr (by decide)) rfl

/-- The call is answered and notified after the status is read, and the wait returns `false`. -/
theorem missed_notification : (Machine.steps (step .talking) { status := none, deadline := 10 }
    [.read, .change (some .talking), .notify, .arm, .elapse 10, .expire]).map
      (fun s => (s.status, s.now, s.phase)) = some (some .talking, 10, .returned false) := by
  decide

end StatusWait

end RustPbx.Proxy
