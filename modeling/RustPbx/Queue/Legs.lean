import RustPbx.Queue.Escalation
import RustPbx.Lib.History

/-!
The legs that are bridged.

Every agent that is being dialled is on a live leg. A leg whose removal is remembered is not bridged
when it answers late. A leg that was removed without being remembered is: by a stage switch, next to
an agent who answered first, or once a late signal has made the application forget.
`answersExpected` excludes the answers of such legs.
-/

namespace RustPbx.Queue

open Sip Call Routing Eff List

theorem live_iff : live leg log = true ↔ ∃ before e after, log = before ++ e :: after ∧
      e.output.adds leg = true ∧ ∀ e' ∈ after, e'.output.removes leg = false := by
  induction log using reverseRecOn with
  | nil => simp [live]
  | append_singleton log last ih =>
    rw [live_append]
    constructor
    · intro h
      cases hadds : last.output.adds leg with
      | true => exact ⟨log, last, [], rfl, hadds, fun _ h => absurd h not_mem_nil⟩
      | false =>
        obtain ⟨hlive, hremoves⟩ : live leg log = true ∧ last.output.removes leg = false := by
          simpa [hadds] using h
        obtain ⟨before, e, after, rfl, he, hafter⟩ := ih.mp hlive
        refine ⟨before, e, after ++ [last], by simp, he, ?_⟩
        exact forall_mem_append.mpr ⟨hafter, forall_mem_singleton.mpr hremoves⟩
    · rintro ⟨before, e, after, hlog, he, hafter⟩
      rcases eq_nil_or_concat after with rfl | ⟨rest, e', rfl⟩
      · obtain ⟨-, rfl⟩ := append_singleton_inj.mp hlog
        rw [he, Bool.true_or]
      · rw [concat_eq_append, ← cons_append, ← append_assoc] at hlog
        obtain ⟨rfl, rfl⟩ := append_singleton_inj.mp hlog
        have hlive := ih.mpr ⟨before, e, rest, rfl, he, fun e'' h => hafter e'' (by simp [h])⟩
        rw [hlive, hafter last (by simp)]
        simp

section

variable {s : Sys ω}

def BridgesLive (log : List Entry) : Prop :=
  ∀ before t leg accepted after,
    log = before ++ ⟨t, .command (.bridge leg) accepted⟩ :: after → live leg before = true

theorem BridgesLive.append (h : BridgesLive log)
    (he : ∀ leg accepted, e.output = .command (.bridge leg) accepted → live leg log = true) :
    BridgesLive (log ++ [e]) := by
  intro before t leg accepted after hlog
  rcases History.split_append hlog with ⟨rest, hlog⟩ | ⟨rfl, rfl⟩
  · exact h before t leg accepted rest hlog
  · exact he leg accepted rfl

/-- Agents are dialled on live legs, and only live legs were bridged. -/
structure Sys.Sound (s : Sys ω) : Prop where
  dialled : ∀ agent ∈ s.app.pendingAgents, s.Live agent.2
  bridged : BridgesLive s.log

namespace Sys.Sound

theorem record (h : s.Sound) (hr : ∀ agent ∈ s.app.pendingAgents, output.removes agent.2 = false)
    (hb : ∀ leg accepted, output = .command (.bridge leg) accepted → s.Live leg) :
    (s.record output).Sound :=
  ⟨fun agent hagent => (h.dialled agent hagent).record (hr agent hagent), h.bridged.append hb⟩

theorem app {app : QueueApp} (h : s.Sound)
    (hp : ∀ agent ∈ app.pendingAgents, agent ∈ s.app.pendingAgents ∨ s.Live agent.2) :
    Sys.Sound { s with app } :=
  ⟨fun agent hagent => (hp agent hagent).elim (h.dialled agent) id, h.bridged⟩

end Sys.Sound

theorem Move.sound (h : Move env K s s') (hs : s.Sound) : s'.Sound := by
  cases h with
  | @record output hn =>
    refine hs.record (fun _ _ => removes_of_neutral hn) fun leg accepted heq => ?_
    rw [heq] at hn
    cases hn
  | legAdd | announce | join => exact hs.record (fun _ _ => rfl) nofun
  | @legRemove leg reason accepted hk hleg =>
    refine hs.record (fun agent hagent => decide_eq_false fun heq => hleg ?_) nofun
    exact mem_map.mpr ⟨agent, hagent, heq.symm⟩
  | frame h => exact hs.app fun agent hagent => .inl (h.pending ▸ hagent)
  | pending h => exact hs.app h
  | expire => exact hs.app nofun
  | escalate | attempted | drain | consume => exact hs.app fun _ hagent => .inl hagent
  | ask | tick | issue | control => exact ⟨hs.dialled, hs.bridged⟩

theorem Act.sound (hK : ∀ leg, ¬K (.stray leg)) (h : Act env K s s') (hs : s.Sound) : s'.Sound := by
  cases h with
  | move h => exact h.sound hs
  | abandon => exact hs.app fun _ hagent => .inl hagent
  | left => exact hs.record (fun _ _ => rfl) nofun
  | serve h =>
    refine hs.app fun agent hagent => .inl ?_
    simp only [QueueApp.kept, Prod.mk.injEq] at h
    exact h.2.2.2.2.2.2.1 ▸ hagent
  | @bridge leg accepted h =>
    refine hs.record (fun _ _ => rfl) fun leg' accepted' heq => ?_
    obtain ⟨rfl, -⟩ : leg = leg' ∧ accepted = accepted' := by simpa using heq
    obtain ⟨agent, hagent, rfl⟩ := mem_map.mp (h.resolve_right (hK leg))
    exact hs.dialled agent hagent
  | drop _ _ h => exact absurd h (hK _)

theorem Acts.sound (hK : ∀ leg, ¬K (.stray leg)) (h : Acts env K s s') (hs : s.Sound) : s'.Sound :=
  h.keeps (fun hact hsound => hact.sound hK hsound) hs

/-! ## Runs -/

/-- An answer comes on a leg that is either being dialled or remembered as cancelled. -/
def answersExpected (c : Config ω) (input : Input) : Bool :=
  (input.answeredLeg c.sys.app).all c.sys.app.expects

/-- The permits of callbacks without stray legs. -/
def Permit.expected (permit : Permit) : Prop :=
  ∀ leg, permit ≠ .stray leg

theorem not_expected_stray (leg : String) : ¬(Permit.stray leg).expected :=
  fun h => h leg rfl

theorem dispatch_expected (h : answersExpected ⟨.running, s, inputs⟩ input = true) :
    Acts env Permit.expected s ((dispatch env input).run s).2 := by
  refine dispatch_acts (fun permit husual leg hstray => ?_) (fun _ => nofun) fun leg hleg hnot => ?_
  · rw [hstray] at husual
    exact husual
  · simp only [answersExpected, hleg] at h
    exact absurd (hnot.symm.trans h) Bool.false_ne_true

theorem LoopStep.sound
    (h : LoopStep env (fun c input => answersExpected c input = true) c c') (hc : c.sys.Sound) :
    c'.sys.Sound := by
  cases h with
  | enter ctx cancelled s =>
    have hs : Sys.Sound { s with app := s.app.entered ctx s.clock } :=
      hc.app fun _ hagent => .inl hagent
    have henter : Acts env Permit.expected _ ((onEnter env ctx).run s).2 :=
      onEnter_acts nofun nofun ctx
    exact proceed_acts.sound not_expected_stray (henter.sound not_expected_stray hs)
  | @drift s s' inputs hd =>
    rw [hd.rest]
    exact ⟨hc.dialled, hc.bridged⟩
  | @callback cancelled s inputs input hanswers =>
    have hacts : Acts env Permit.expected s _ := dispatch_expected hanswers
    exact proceed_acts.sound not_expected_stray (hacts.sound not_expected_stray hc)
  | quit => exact hc
  | @exit s inputs =>
    have hs : Sys.Sound { s with cancellable := false } := ⟨hc.dialled, hc.bridged⟩
    have hacts : Acts env Permit.expected _ (leave env s).2 := leave_acts nofun
    exact hacts.sound not_expected_stray hs

theorem Runs.sound {setup : Setup}
    (h : Runs env (fun c input => answersExpected c input = true) (setup.start world clock) c) :
    c.sys.Sound := by
  induction h with
  | refl => exact ⟨fun _ hagent => absurd hagent not_mem_nil, fun before _ _ _ after hlog => by
      cases before <;> cases hlog⟩
  | tail _ hstep ih => exact hstep.sound ih

/-- **Only live legs are bridged**: those originated before and not removed since, if answers come
on legs that are being dialled or remembered as cancelled. -/
theorem bridged_leg_live {setup : Setup} {world : ω} {clock : Nat} {c : Config ω}
    (h : Runs env (fun c input => answersExpected c input = true) (setup.start world clock) c)
    {before after : List Entry} {t : Nat} {leg : String} {accepted : Bool}
    (hlog : c.sys.log = before ++ ⟨t, .command (.bridge leg) accepted⟩ :: after) :
    ∃ earlier e later, before = earlier ++ e :: later ∧ e.output.adds leg = true ∧
      ∀ e' ∈ later, e'.output.removes leg = false :=
  live_iff.mp (h.sound.bridged before t leg accepted after hlog)

end

theorem split_at {e : Entry} (h : log[i]? = some e) :
    log = log.take i ++ e :: log.drop (i + 1) := by
  obtain ⟨hi, rfl⟩ := List.getElem?_eq_some_iff.mp h
  rw [← drop_eq_getElem_cons hi, take_append_drop]

/-- The leg of the agent who is being dialled is bridged when the agent answers. -/
theorem bridged_leg_live_served :
    ∃ earlier e later, servedCall.sys.log.take 9 = earlier ++ e :: later ∧
      e.output.adds "1" = true ∧ ∀ e' ∈ later, e'.output.removes "1" = false :=
  bridged_leg_live (runs_servedCall (by decide) (by decide))
    (split_at (e := ⟨0, .command (.bridge "1") true⟩) (by decide))

/-- The queue for one agent, with an overflow group after 30 seconds. -/
def stagedQueue : Setup :=
  { promptedQueue with
    config :=
      { promptedQueue.config with
        escalationMode := .sequential, escalationTimeline := [⟨30, "sales", false⟩] } }

def stagedCall : Config Unit :=
  (((stagedQueue.start () 0).enter .idle ⟨"caller", true, true, true, true, true, true⟩).hand .idle
    (.signal .dialNext)).wait (secs 30)

/-- The stage switch cancels the agent's leg, and the agent's answer crosses it. -/
def strayCall : Config Unit :=
  stagedCall.play .idle
    [.timeout .escalationCheck, .signal (.agentConnected (some "1") "agent" none)]

theorem runs_strayCall : Runs .idle (fun _ _ => True) (stagedQueue.start () 0) strayCall := by
  have hdialled : Runs .idle (fun _ _ => True) (stagedQueue.start () 0) stagedCall :=
    (runs_enter _ _ _ _).trans ((runs_hand trivial).trans (runs_wait (by decide) trivial))
  exact hdialled.trans (runs_play fun _ _ => trivial)

/-- A leg that a stage switch has removed is bridged. -/
theorem removed_leg_bridged : Runs .idle (fun _ _ => True) (stagedQueue.start () 0) strayCall ∧
      ∃ before after, strayCall.sys.log =
          before ++ ⟨secs 30, .command (.bridge "1") true⟩ :: after ∧
        ¬∃ earlier e later, before = earlier ++ e :: later ∧ e.output.adds "1" = true ∧
          ∀ e' ∈ later, e'.output.removes "1" = false := by
  have hbridge : strayCall.sys.log[15]? = some ⟨secs 30, .command (.bridge "1") true⟩ := by decide
  refine ⟨runs_strayCall, strayCall.sys.log.take 15, _, split_at hbridge, fun h => ?_⟩
  exact absurd (live_iff.mpr h) (by decide)

end RustPbx.Queue
