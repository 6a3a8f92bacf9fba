import RustPbx.Proxy.SessionRefresh

/-!
The intervals of session timers.

Five functions write the interval of a timer or the smallest interval it accepts, each from headers
that the peer controls. `Write` has one constructor for each of them; what the event loop does is a
sequence of such writes. The answer of a callee is the one place where the interval is taken over
unchecked.
-/

namespace RustPbx.SessionTimer

open Sip SessionTimerState
open DelayQueue (Entry Impl Panic)

/-- The interval of an active timer is not below its minimum, nor the minimum below 90 seconds. -/
def SessionTimerState.Sound (timer : SessionTimerState) : Prop :=
  timer.active = true → timer.minSe ≤ timer.sessionInterval ∧ secs minMinSe ≤ timer.minSe

/-! ## The writers of a timer -/

structure CalleeAnswer where
  mode : SessionTimerMode
  requestedSessionInterval : Nat
  headers : List Header

/-- The interval that the answer settles is not below 90 seconds. Without one in the answer, the
requested one counts if timers are always on. -/
def CalleeAnswer.LongEnough (answer : CalleeAnswer) : Prop :=
  match (getHeaderValue answer.headers "Session-Expires").bind SessionExpires.parse with
  | some sessionExpires => secs minMinSe ≤ sessionExpires.interval
  | none => answer.mode = .always → secs minMinSe ≤ answer.requestedSessionInterval

namespace SessionTimerState

variable {timer : SessionTimerState}

theorem sound_serverTimer {mode : SessionTimerMode}
    (h : SipSession.serverTimer mode defaultExpires now headers = some timer) : timer.Sound := by
  have hmin := SipSession.le_requestedMinSe headers
  unfold SipSession.serverTimer at h
  dsimp only at h
  split at h
  · split at h
    · split at h
      · cases h
      next hlarge =>
        cases h
        exact fun _ => ⟨Nat.le_of_not_lt hlarge, hmin⟩
    · cases h
      exact nofun
  · split at h
    · cases h
      exact fun _ => ⟨Nat.le_max_right _ _, hmin⟩
    · cases h
      exact nofun

theorem sound_calleeTimer {answer : CalleeAnswer} (h : answer.LongEnough) :
    Sound (SipSession.calleeTimer answer.mode answer.requestedSessionInterval now
      answer.headers) := by
  unfold CalleeAnswer.LongEnough at h
  unfold SipSession.calleeTimer
  split
  next hse =>
    rw [hse] at h
    exact fun _ => ⟨h, Nat.le_refl _⟩
  next hse =>
    rw [hse] at h
    exact fun hactive => ⟨h (of_decide_eq_true hactive), Nat.le_refl _⟩

theorem Sound.raise (h : timer.Sound) (minSe : Nat) : Sound { timer with
      minSe := max timer.minSe minSe, sessionInterval := max timer.sessionInterval minSe } := by
  intro hactive
  obtain ⟨hinterval, hmin⟩ := h hactive
  exact ⟨max_le_max hinterval (Nat.le_refl _), hmin.trans (Nat.le_max_left _ _)⟩

theorem Sound.applyRefreshResponse (h : timer.Sound) :
    Sound (timer.applyRefreshResponse now headers).1 := by
  unfold SessionTimerState.applyRefreshResponse
  split
  · dsimp only
    split
    · exact h
    · exact nofun
  · split
    · exact h
    · split
      · exact h
      next hlarge => exact fun hactive => ⟨Nat.le_of_not_lt hlarge, (h hactive).2⟩

theorem Sound.applySessionTimerHeaders (h : timer.Sound)
    (happly : timer.applySessionTimerHeaders headers = some timer') : timer'.Sound := by
  unfold SessionTimerState.applySessionTimerHeaders at happly
  split at happly
  · cases happly
    exact h
  · split at happly
    · cases happly
    next hlarge =>
      cases happly
      exact fun hactive => ⟨Nat.le_of_not_lt hlarge, (h hactive).2⟩

end SessionTimerState

def Event.Meets (C : CalleeAnswer → Prop) : Event δ → Prop
  | .initCalleeTimer _ mode requested headers => C ⟨mode, requested, headers⟩
  | _ => True

namespace SipSession

variable [DecidableEq δ] {s : SipSession δ}

inductive Write (C : CalleeAnswer → Prop) : SipSession δ → SipSession δ → Prop where
  | initServerTimer {s : SipSession δ} {mode : SessionTimerMode} {defaultExpires : Nat}
      {headers : List Header} {timer : SessionTimerState} (d : δ)
      (h : serverTimer mode defaultExpires s.now headers = some timer) :
      Write C s (s.setTimer d timer)
  | initCalleeTimer {s : SipSession δ} (d : δ) (answer : CalleeAnswer) (h : C answer) :
      Write C s (s.setTimer d
        (calleeTimer answer.mode answer.requestedSessionInterval s.now answer.headers))
  | startRefresh {s : SipSession δ} {timer : SessionTimerState} (d : δ)
      (h : s.timers.lookup d = some timer) :
      Write C s (s.setTimer d { timer with refreshing := true })
  | applyRefreshMinSe {s : SipSession δ} (d : δ) (headers : List Header) :
      Write C s (s.applyRefreshMinSe d headers).2
  | completeRefreshFromResponse {s : SipSession δ} (d : δ) (headers : List Header) :
      Write C s (s.completeRefreshFromResponse d headers).2
  | failRefreshIfPending {s : SipSession δ} (d : δ) : Write C s (s.failRefreshIfPending d)
  | remoteRefresh {s : SipSession δ} {timer timer' : SessionTimerState} (d : δ)
      (headers : List Header) (h : s.timers.lookup d = some timer)
      (happly : timer.applySessionTimerHeaders headers = some timer') :
      Write C s (s.setTimer d (if timer'.active then timer'.updateRefresh s.now else timer'))
  | forget {s s' : SipSession δ}
      (h : ∀ d timer, s'.timers.lookup d = some timer → s.timers.lookup d = some timer) :
      Write C s s'

def Writes (C : CalleeAnswer → Prop) : SipSession δ → SipSession δ → Prop :=
  Relation.ReflTransGen (Write C)

def Sound (s : SipSession δ) : Prop :=
  ∀ d timer, s.timers.lookup d = some timer → timer.Sound

theorem Sound.setTimer (h : s.Sound) (htimer : timer.Sound) : (s.setTimer d timer).Sound := by
  intro d' timer' hlook
  rw [SipSession.setTimer, Table.lookup_insert_eq] at hlook
  split at hlook
  · cases hlook
    exact htimer
  · exact h d' timer' hlook

theorem Write.sound (h : Write CalleeAnswer.LongEnough s s') (hs : s.Sound) : s'.Sound := by
  cases h with
  | initServerTimer d htimer => exact hs.setTimer (sound_serverTimer htimer)
  | initCalleeTimer d answer hanswer =>
    exact hs.setTimer (sound_calleeTimer hanswer)
  | startRefresh d htimer =>
    have hsound := hs d _ htimer
    exact hs.setTimer hsound
  | applyRefreshMinSe d headers =>
    unfold SipSession.applyRefreshMinSe
    split
    next htimer => exact hs.setTimer ((hs d _ htimer).raise _)
    · exact hs
  | completeRefreshFromResponse d headers =>
    unfold SipSession.completeRefreshFromResponse
    split
    · exact hs
    next htimer => exact hs.setTimer (hs d _ htimer).applyRefreshResponse
  | failRefreshIfPending d =>
    unfold SipSession.failRefreshIfPending
    split
    · exact hs
    next htimer =>
      have hsound := hs d _ htimer
      split
      · exact hs.setTimer hsound
      · exact hs
  | remoteRefresh d headers htimer happly =>
    apply hs.setTimer
    have hsound := (hs d _ htimer).applySessionTimerHeaders happly
    split
    · exact hsound
    · exact hsound
  | forget hforget => exact fun d timer htimer => hs d timer (hforget d timer htimer)

theorem Writes.sound (h : Writes CalleeAnswer.LongEnough (new start) s) : s.Sound := by
  induction h with
  | refl => exact fun d timer htimer => nomatch htimer
  | tail _ hwrite ih => exact hwrite.sound ih

/-! ## The event loop writes in this way -/

theorem writes_of_timers (h : s'.timers = s.timers) : Writes C s s' :=
  .single (.forget fun _ _ htimer => h ▸ htimer)

omit [DecidableEq δ] in
theorem exists_of_bind {x : Except Panic α} {f : α → SipSession δ}
    (h : (do let a ← x; return f a) = .ok s') : ∃ a, f a = s' := by
  cases x with
  | error panic => cases h
  | ok a => exact ⟨a, Except.ok.inj h⟩

theorem timers_of_unscheduleTimer (h : s.unscheduleTimer impl d = .ok s') :
    s'.timers = s.timers := by
  unfold unscheduleTimer at h
  split at h
  · cases h
    rfl
  · obtain ⟨queue, rfl⟩ := exists_of_bind h
    rfl

theorem timers_of_scheduleTimerWithTimeout
    (h : s.scheduleTimerWithTimeout impl d timeout = .ok s') : s'.timers = s.timers := by
  unfold scheduleTimerWithTimeout at h
  split at h
  · exact timers_of_unscheduleTimer h
  · dsimp only at h
    split at h
    · obtain ⟨queue, rfl⟩ := exists_of_bind h
      rfl
    · obtain ⟨⟨key, queue⟩, rfl⟩ := exists_of_bind h
      rfl

theorem Write.scheduled (h : Write C s s') (hok : s'.scheduleTimer impl d = .ok s'') :
    Writes C s s'' :=
  .head h (writes_of_timers (timers_of_scheduleTimerWithTimeout hok))

theorem writes_await (exchange : Exchange) (s : SipSession δ) : Writes C s (s.await exchange) :=
  writes_of_timers rfl

section

variable (d : δ) (exchanges : RefreshExchanges) (s : SipSession δ)

theorem finishReinvite_writes (reply : Reply) (s : SipSession δ) :
    Writes C s (s.finishReinvite d reply).2 := by
  have hfail : Writes C s (s.failRefreshIfPending d) := .single (.failRefreshIfPending d)
  unfold finishReinvite
  split
  · exact hfail
  · exact hfail
  · split
    · exact .single (.completeRefreshFromResponse d _)
    · exact hfail

theorem tryReinviteRefresh_writes :
    Writes C s (s.tryReinviteRefresh d exchanges).2 := by
  unfold tryReinviteRefresh
  split
  · exact .refl
  · refine (writes_await exchanges.reinvite s).trans ?_
    generalize s.await exchanges.reinvite = s₁
    dsimp only
    split
    next status headers _ =>
      split
      · have hmin : Writes C s₁ (s₁.applyRefreshMinSe d headers).2 :=
          .single (.applyRefreshMinSe d headers)
        split
        next s₂ hse =>
          rw [hse] at hmin
          exact (hmin.trans (writes_await exchanges.reinviteRetry s₂)).trans
            (finishReinvite_writes d _ _)
        next s₂ hse =>
          rw [hse] at hmin
          exact hmin.tail (.failRefreshIfPending d)
      · exact finishReinvite_writes d _ s₁
    · exact finishReinvite_writes d _ s₁

theorem handleUpdateRefreshResponse_writes (reply : Reply) (allowRetry : Bool) (s : SipSession δ) :
    Writes C s (s.handleUpdateRefreshResponse d reply allowRetry).2 := by
  unfold handleUpdateRefreshResponse
  split
  · exact .refl
  · exact .refl
  · split
    · exact .single (.completeRefreshFromResponse d _)
    · split
      · split
        · exact .refl
        · exact .single (.applyRefreshMinSe d _)
      · split
        · exact writes_of_timers rfl
        · exact .refl

theorem tryUpdateRefresh_writes : Writes C s (s.tryUpdateRefresh d exchanges).2 := by
  unfold tryUpdateRefresh
  split
  · exact .refl
  · have hfirst : Writes C s _ := (writes_await exchanges.update s).trans
      (handleUpdateRefreshResponse_writes d exchanges.update.reply true _)
    split
    next s₁ hretry =>
      rw [hretry] at hfirst
      exact (hfirst.trans (writes_await exchanges.updateRetry s₁)).trans
        (handleUpdateRefreshResponse_writes d _ false _)
    · exact hfirst

theorem sendDialogSessionRefresh_writes :
    Writes C s (s.sendDialogSessionRefresh d exchanges).2 := by
  unfold sendDialogSessionRefresh
  split
  · exact tryReinviteRefresh_writes d exchanges s
  · have hupdate : Writes C s _ := tryUpdateRefresh_writes d exchanges s
    rcases hout : s.tryUpdateRefresh d exchanges with ⟨outcome, s₁⟩
    rw [hout] at hupdate
    cases outcome with
    | refreshed | retry => exact hupdate
    | fallbackToReinvite => exact hupdate.trans (tryReinviteRefresh_writes d exchanges s₁)
    | failed => exact hupdate.tail (.failRefreshIfPending d)

theorem nextTimerAction_writes : Writes C s (s.nextTimerAction d).2 := by
  unfold nextTimerAction
  dsimp only
  split
  · exact writes_of_timers rfl
  next timer htimer =>
    split
    · exact writes_of_timers rfl
    · split
      · have hdrop : Writes C s { s with queueKeys := s.queueKeys.erase d } :=
          writes_of_timers rfl
        exact hdrop.tail (.startRefresh d htimer)
      · exact writes_of_timers rfl

end

theorem fire_writes (h : s.fire impl e exchanges = .ok s') : Writes C s s' := by
  have hdrop : Writes C s { s with queue := s.queue.drop e.key } := writes_of_timers rfl
  have hnext := hdrop.trans (nextTimerAction_writes e.value _)
  unfold fire at h
  split at h
  next s₁ hact =>
    rw [hact] at hnext
    have hsend : Writes C s _ := hnext.trans (sendDialogSessionRefresh_writes e.value exchanges s₁)
    split at h <;> next s₂ hout =>
      rw [hout] at hsend
      exact hsend.trans (writes_of_timers (timers_of_scheduleTimerWithTimeout h))
  next s₁ hact =>
    rw [hact] at hnext
    cases h
    exact hnext.trans (writes_of_timers rfl)
  next s₁ hact =>
    rw [hact] at hnext
    cases h
    exact hnext

theorem updateDialogTimerFromHeaders_writes
    (h : s.updateDialogTimerFromHeaders impl d headers = .ok s') : Writes C s s' := by
  unfold updateDialogTimerFromHeaders at h
  split at h
  · cases h
    exact .refl
  next timer htimer =>
    split at h
    · cases h
      exact .refl
    next timer' happly =>
      have hwrite : Write C s _ := .remoteRefresh d headers htimer happly
      exact hwrite.scheduled h

theorem removeDialog_writes (h : s.removeDialog impl d = .ok s') : Writes C s s' := by
  unfold removeDialog at h
  cases hun : s.unscheduleTimer impl d with
  | error panic =>
    rw [hun] at h
    cases h
  | ok s₁ =>
    rw [hun] at h
    cases h
    refine (writes_of_timers (timers_of_unscheduleTimer hun)).tail
      (.forget fun d' timer hlook => ?_)
    exact (Table.row_of_erase (Table.row_of_lookup hlook)).lookup

/-- **An event is a sequence of writes**. -/
theorem handle_writes (hC : event.Meets C) (h : s.handle impl event = .ok s') : Writes C s s' := by
  cases event with
  | initServerTimer callerDialog mode defaultExpires headers =>
    cases callerDialog with
    | none =>
      cases h
      exact .refl
    | some d =>
      unfold handle initServerTimer at h
      dsimp only at h
      split at h
      · cases h
        exact .refl
      next timer htimer =>
        have hwrite : Write C s _ := .initServerTimer d htimer
        exact hwrite.scheduled h
  | initCalleeTimer d mode requested headers =>
    have hwrite : Write C s _ := .initCalleeTimer d ⟨mode, requested, headers⟩ hC
    exact hwrite.scheduled h
  | fire e exchanges => exact fire_writes h
  | remoteRefresh d headers => exact updateDialogTimerFromHeaders_writes h
  | removeDialog d => exact removeDialog_writes h
  | clearAll =>
    cases h
    exact .single (.forget fun _ _ hlook => nomatch hlook)
  | elapse lapse =>
    cases h
    exact writes_of_timers rfl

/-- **No interval is too small**: also in the middle of a refresh, the interval of an active timer
is at least its minimum, which is at least 90 seconds. -/
theorem active_interval_bounded (start : Nat) (s : SipSession δ)
    (h : Writes CalleeAnswer.LongEnough (new start) s) (d : δ) (timer : SessionTimerState)
    (htimer : s.timers.lookup d = some timer) (hactive : timer.active = true) :
    timer.minSe ≤ timer.sessionInterval ∧ secs minMinSe ≤ timer.minSe :=
  h.sound d timer htimer hactive

def answerWith (interval : String) : Event Nat :=
  .initCalleeTimer 7 .supported (secs 1800) [.other "Session-Expires" interval]

def answeredTimer (interval : Nat) : SessionTimerState where
  mode := .supported
  enabled := true
  active := true
  lastRefresh := 0
  sessionInterval := secs interval

theorem active_interval_bounded_answered : ∃ s : SipSession Nat,
    Writes CalleeAnswer.LongEnough (new 0) s ∧
    s.timers.lookup 7 = some (answeredTimer 120) ∧ (answeredTimer 120).active = true ∧
    (answeredTimer 120).minSe ≤ (answeredTimer 120).sessionInterval ∧
    secs minMinSe ≤ (answeredTimer 120).minSe := by
  have hlong : (answerWith "120").Meets CalleeAnswer.LongEnough := by
    change secs minMinSe ≤ secs 120
    decide
  have hrun : handle counting (new 0) (answerWith "120") = .ok _ := rfl
  have hwrites := handle_writes hlong hrun
  exact ⟨_, hwrites, rfl, rfl, active_interval_bounded 0 _ hwrites 7 _ rfl rfl⟩

/-- A callee answers with an interval of ten seconds. -/
theorem short_interval_answered : ∃ s : SipSession Nat, Runs counting (new 0) s ∧
    s.timers.lookup 7 = some (answeredTimer 10) ∧ (answeredTimer 10).active = true ∧
    (answeredTimer 10).sessionInterval < (answeredTimer 10).minSe :=
  ⟨_, .single ⟨answerWith "10", trivial, rfl⟩, rfl, rfl, by decide⟩

end SipSession

end RustPbx.SessionTimer
