import Mathlib.Data.List.MinMax
import RustPbx.Proxy.SessionTimer

/-!
Session refreshes, and what the timers of a session look like after any events.

An entry of the delay queue is never due before the timer has something to do. So an entry that
comes out of the queue always leads to a refresh, after which the dialog is scheduled again, or to
the report that the session has expired.
-/

namespace RustPbx.SessionTimer

open Sip SessionTimerState DelayQueue Option
open DelayQueue (Entry Impl Panic)

/-! ## The refresh of a dialog -/

inductive Reply where
  /-- It could not be sent, or its answer could not be applied to the media. -/
  | error
  /-- There was no final response. -/
  | none
  | response (status : Nat) (headers : List Header)

structure Exchange where
  lapse : Nat
  reply : Reply

structure RefreshExchanges where
  update : Exchange
  updateRetry : Exchange
  reinvite : Exchange
  reinviteRetry : Exchange

inductive UpdateRefreshOutcome where
  | refreshed
  | retry
  | fallbackToReinvite
  | failed

def isSuccessful (status : Nat) : Bool := 200 ≤ status && status < 300

def sessionIntervalTooSmall : Nat := 422

def shouldFallbackToReinvite (status : Nat) : Bool := status = 405 || status = 501

namespace SipSession

variable [DecidableEq δ]

def await (exchange : Exchange) (s : SipSession δ) : SipSession δ :=
  { s with now := s.now + exchange.lapse }

/-- Raise the interval to what a rejection asks for; the flag tells whether it does. The lookup
fails only for a dialog without a timer. -/
def applyRefreshMinSe (d : δ) (headers : List Header) (s : SipSession δ) : Bool × SipSession δ :=
  match (getHeaderValue headers "Min-SE").bind parseMinSe, s.timers.lookup d with
  | some minSe, some timer =>
    (true, s.setTimer d { timer with
      minSe := max timer.minSe minSe, sessionInterval := max timer.sessionInterval minSe })
  | _, _ => (false, s)

def completeRefreshFromResponse (d : δ) (headers : List Header) (s : SipSession δ) :
    Bool × SipSession δ :=
  match s.timers.lookup d with
  | none => (true, s)
  | some timer =>
    let (timer, ok) := timer.applyRefreshResponse s.now headers
    (ok, s.setTimer d timer)

def failRefreshIfPending (d : δ) (s : SipSession δ) : SipSession δ :=
  match s.timers.lookup d with
  | none => s
  | some timer => if timer.refreshing then s.setTimer d timer.failRefresh else s

def handleUpdateRefreshResponse (d : δ) (reply : Reply) (allowRetry : Bool) (s : SipSession δ) :
    UpdateRefreshOutcome × SipSession δ :=
  match reply with
  | .error | .none => (.failed, s)
  | .response status headers =>
    if isSuccessful status then
      let (ok, s) := s.completeRefreshFromResponse d headers
      (if ok then .refreshed else .failed, s)
    else if status = sessionIntervalTooSmall then
      if !allowRetry then (.failed, s)
      else
        let (applied, s) := s.applyRefreshMinSe d headers
        (if applied then .retry else .failed, s)
    else if shouldFallbackToReinvite status then
      (.fallbackToReinvite, { s with refreshDisabled := d :: s.refreshDisabled })
    else (.failed, s)

def tryUpdateRefresh (d : δ) (exchanges : RefreshExchanges) (s : SipSession δ) :
    UpdateRefreshOutcome × SipSession δ :=
  if (s.timers.lookup d).isNone then (.failed, s)
  else
    match (s.await exchanges.update).handleUpdateRefreshResponse d exchanges.update.reply true with
    | (.retry, s) =>
      (s.await exchanges.updateRetry).handleUpdateRefreshResponse d exchanges.updateRetry.reply
        false
    | outcome => outcome

def finishReinvite (d : δ) (reply : Reply) (s : SipSession δ) : Bool × SipSession δ :=
  match reply with
  | .error | .none => (false, s.failRefreshIfPending d)
  | .response status headers =>
    if isSuccessful status then s.completeRefreshFromResponse d headers
    else (false, s.failRefreshIfPending d)

def tryReinviteRefresh (d : δ) (exchanges : RefreshExchanges) (s : SipSession δ) :
    Bool × SipSession δ :=
  if (s.timers.lookup d).isNone then (false, s)
  else
    let s := s.await exchanges.reinvite
    match exchanges.reinvite.reply with
    | .response status headers =>
      if status = sessionIntervalTooSmall then
        match s.applyRefreshMinSe d headers with
        | (true, s) =>
          (s.await exchanges.reinviteRetry).finishReinvite d exchanges.reinviteRetry.reply
        | (false, s) => (false, s.failRefreshIfPending d)
      else s.finishReinvite d (.response status headers)
    | reply => s.finishReinvite d reply

/-- Refresh a dialog: by UPDATE unless the peer has refused that before, else by re-INVITE. -/
def sendDialogSessionRefresh (d : δ) (exchanges : RefreshExchanges) (s : SipSession δ) :
    Bool × SipSession δ :=
  if d ∈ s.refreshDisabled then s.tryReinviteRefresh d exchanges
  else
    match s.tryUpdateRefresh d exchanges with
    | (.refreshed, s) => (true, s)
    | (.retry, s) => (false, s)
    | (.fallbackToReinvite, s) => s.tryReinviteRefresh d exchanges
    | (.failed, s) => (false, s.failRefreshIfPending d)

def fire (impl : Impl δ) (e : Entry δ) (exchanges : RefreshExchanges) (s : SipSession δ) :
    Except Panic (SipSession δ) :=
  match { s with queue := s.queue.drop e.key }.nextTimerAction e.value with
  | (some .refresh, s) =>
    match s.sendDialogSessionRefresh e.value exchanges with
    | (true, s) => s.scheduleTimer impl e.value
    | (false, s) => s.scheduleExpirationTimer impl e.value
  | (some .expired, s) => .ok { s with expired := e.value :: s.expired }
  | (none, s) => .ok s

end SipSession

inductive Event (δ : Type) where
  | initServerTimer (callerDialog : Option δ) (mode : SessionTimerMode) (defaultExpires : Nat)
    (headers : List Header)
  | initCalleeTimer (d : δ) (mode : SessionTimerMode) (requestedSessionInterval : Nat)
    (headers : List Header)
  | fire (e : Entry δ) (exchanges : RefreshExchanges)
  | remoteRefresh (d : δ) (headers : List Header)
  | removeDialog (d : δ)
  | clearAll
  | elapse (lapse : Nat)

variable {δ : Type} [DecidableEq δ]

/-- An entry comes out of the queue at its deadline or later. -/
def Event.CanHappen (s : SipSession δ) : Event δ → Prop
  | .fire e _ => e ∈ s.queue ∧ e.due ≤ s.now
  | _ => True

namespace SipSession

def handle (impl : Impl δ) (s : SipSession δ) : Event δ → Except Panic (SipSession δ)
  | .initServerTimer callerDialog mode defaultExpires headers =>
    s.initServerTimer impl callerDialog mode defaultExpires headers
  | .initCalleeTimer d mode requested headers => s.initCalleeTimer impl d mode requested headers
  | .fire e exchanges => s.fire impl e exchanges
  | .remoteRefresh d headers => s.updateDialogTimerFromHeaders impl d headers
  | .removeDialog d => s.removeDialog impl d
  | .clearAll => .ok s.clearAll
  | .elapse lapse => .ok { s with now := s.now + lapse }

def Step (impl : Impl δ) (s s' : SipSession δ) : Prop :=
  ∃ event : Event δ, event.CanHappen s ∧ s.handle impl event = .ok s'

def Runs (impl : Impl δ) : SipSession δ → SipSession δ → Prop :=
  Relation.ReflTransGen (Step impl)

/-- The timer of the dialog runs, and the dialog has not been reported as expired. -/
def Waits (s : SipSession δ) (d : δ) : Prop :=
  ∃ timer, s.timers.lookup d = some timer ∧ timer.running = true ∧ d ∉ s.expired

/-- The reverse index holds the keys of the entries, and nothing else. -/
def Linked (s : SipSession δ) : Prop :=
  ∀ d key, s.queueKeys.lookup d = some key ↔ ∃ e ∈ s.queue, e.key = key ∧ e.value = d

end SipSession

/-- When the timer has something to do at the earliest. -/
def SessionTimerState.wakeTime (timer : SessionTimerState) : Nat :=
  timer.lastRefresh +
    if timer.shouldWeRefresh then timer.sessionInterval / 2 else timer.sessionInterval

namespace SipSession

/-- The dialog has an entry if it waits for one, which is not due too early, and it is not in the
middle of a refresh. -/
structure InOrder (s : SipSession δ) (d : δ) : Prop where
  entry : (∃ e ∈ s.queue, e.value = d) ↔ s.Waits d
  due : ∀ e ∈ s.queue, e.value = d →
    ∀ timer, s.timers.lookup d = some timer → timer.wakeTime ≤ e.due
  settled : ∀ timer, s.timers.lookup d = some timer → timer.refreshing = false

structure Inv (s : SipSession δ) : Prop where
  linked : s.Linked
  inOrder : ∀ d, s.InOrder d

/-- Nothing has changed for the dialog. -/
structure SameAt (d : δ) (s s' : SipSession δ) : Prop where
  entries : ∀ e : Entry δ, e.value = d → (e ∈ s'.queue ↔ e ∈ s.queue)
  timer : s'.timers.lookup d = s.timers.lookup d
  expired : d ∈ s'.expired ↔ d ∈ s.expired

/-- The event ends in such a state, unless the queue refuses the delay it is asked for. -/
def Ends (P : SipSession δ → Prop) : Except Panic (SipSession δ) → Prop
  | .ok s => P s
  | .error panic => panic = .invalidDeadline

variable {s : SipSession δ}

theorem SameAt.refl (d : δ) (s : SipSession δ) : SameAt d s s :=
  ⟨fun _ _ => Iff.rfl, rfl, Iff.rfl⟩

theorem SameAt.trans (h : SameAt d s s') (h' : SameAt d s' s'') : SameAt d s s'' where
  entries e he := (h'.entries e he).trans (h.entries e he)
  timer := h'.timer.trans h.timer
  expired := h'.expired.trans h.expired

theorem SameAt.inOrder (h : SameAt d s s') (hs : s.InOrder d) : s'.InOrder d where
  entry := by
    have hentry : (∃ e ∈ s'.queue, e.value = d) ↔ ∃ e ∈ s.queue, e.value = d :=
      exists_congr fun e => and_congr_left fun he => h.entries e he
    rw [hentry, hs.entry, Waits, Waits, h.timer, h.expired]
  due e he hd timer htimer :=
    hs.due e ((h.entries e hd).mp he) hd timer (h.timer ▸ htimer)
  settled timer htimer := hs.settled timer (h.timer ▸ htimer)

theorem Linked.unique (hl : s.Linked) (he : e ∈ s.queue) (he' : e' ∈ s.queue)
    (h : e.value = e'.value) : e = e' := by
  have hkey := (hl e.value e.key).mpr ⟨e, he, rfl, rfl⟩
  have hkey' := (hl e.value e'.key).mpr ⟨e', he', rfl, h.symm⟩
  exact eq_of_key_eq he he' (some.inj (hkey.symm.trans hkey'))

/-! ## Scheduling a dialog -/

/-- The dialog has been scheduled for after the timeout, or taken out of the schedule. -/
structure Rescheduled (d : δ) (timeout : Option Nat) (s s' : SipSession δ) : Prop where
  linked : s'.Linked
  timers : s'.timers = s.timers
  others : ∀ d' ≠ d, SameAt d' s s'
  out : timeout = none → ∀ e ∈ s'.queue, e.value ≠ d
  entry : timeout.isSome → (∃ e ∈ s'.queue, e.value = d) ∧ d ∉ s'.expired
  due : ∀ delay, timeout = some delay → ∀ e ∈ s'.queue, e.value = d → e.due = s.now + delay

theorem Linked.value_ne (hl : s.Linked) (hkey : s.queueKeys.lookup d = none) :
    ∀ e ∈ s.queue, e.value ≠ d := by
  rintro e he rfl
  cases hkey.symm.trans ((hl e.value e.key).mpr ⟨e, he, rfl, rfl⟩)

theorem Linked.drop (hl : s.Linked) (he : e ∈ s.queue) : Rescheduled e.value none s { s with
      queue := s.queue.drop e.key, queueKeys := s.queueKeys.erase e.value } := by
  have hout : ∀ e' ∈ s.queue.drop e.key, e'.value ≠ e.value := by
    intro e' he' hvalue
    obtain ⟨he', hne⟩ := mem_drop.mp he'
    exact hne (congrArg _ (hl.unique he' he hvalue))
  have hother : ∀ e' ∈ s.queue, e'.value ≠ e.value → e' ∈ s.queue.drop e.key :=
    fun e' he' hne => mem_drop.mpr ⟨he', fun hkey => hne (congrArg _ (eq_of_key_eq he' he hkey))⟩
  refine ⟨fun d key => ?_, rfl, fun d' hd' => ⟨?_, rfl, Iff.rfl⟩, fun _ => hout, nofun, nofun⟩
  · by_cases hd : d = e.value
    · subst hd
      simp only [AList.lookup_erase, reduceCtorEq, false_iff]
      rintro ⟨e', he', -, hvalue⟩
      exact hout e' he' hvalue
    · rw [AList.lookup_erase_ne hd, hl]
      constructor
      · rintro ⟨e', he', hkey, rfl⟩
        exact ⟨e', hother e' he' hd, hkey, rfl⟩
      · rintro ⟨e', he', hkey⟩
        exact ⟨e', (mem_drop.mp he').1, hkey⟩
  · rintro e' rfl
    exact ⟨fun he' => (mem_drop.mp he').1, fun he' => hother e' he' hd'⟩

theorem unscheduleTimer_ends (hl : s.Linked) (d : δ) :
    Ends (fun s' => Rescheduled d none s s') (s.unscheduleTimer impl d) := by
  unfold unscheduleTimer
  cases hkey : s.queueKeys.lookup d with
  | none => exact ⟨hl, rfl, fun d' _ => .refl d' s, fun _ => hl.value_ne hkey, nofun, nofun⟩
  | some key =>
    obtain ⟨e, he, rfl, rfl⟩ := (hl d key).mp hkey
    dsimp only
    rw [impl.remove_ok he]
    exact hl.drop he

theorem rescheduled_of_entry (hl : s.Linked) (hd : e.value = d)
    (hdue : e.due = s.now + delay) {queue : DelayQueue δ}
    (hmem : ∀ e', e' ∈ queue ↔ e' = e ∨ e' ∈ s.queue ∧ e'.value ≠ d) : Rescheduled d (some delay) s
      { s with
        expired := s.expired.filter (· ≠ d), queue
        queueKeys := s.queueKeys.insert d e.key } where
  linked := by
    intro d' key
    rw [Table.lookup_insert_eq]
    by_cases hd' : d' = d
    · subst hd'
      simp only [↓reduceIte, some.injEq, hmem]
      constructor
      · rintro rfl
        exact ⟨e, .inl rfl, rfl, hd⟩
      · rintro ⟨e', rfl | ⟨-, hne⟩, hkey, hvalue⟩
        · exact hkey
        · exact absurd hvalue hne
    · rw [if_neg hd', hl]
      constructor
      · rintro ⟨e', he', hkey, rfl⟩
        exact ⟨e', (hmem e').mpr (.inr ⟨he', hd'⟩), hkey, rfl⟩
      · rintro ⟨e', he', hkey, rfl⟩
        rcases (hmem e').mp he' with rfl | ⟨he', -⟩
        · exact absurd hd hd'
        · exact ⟨e', he', hkey, rfl⟩
  timers := rfl
  others d' hd' := by
    refine ⟨fun e' he' => ?_, rfl, ?_⟩
    · rw [hmem]
      constructor
      · rintro (rfl | ⟨he', -⟩)
        · exact absurd (he'.symm.trans hd) hd'
        · exact he'
      · exact fun h => .inr ⟨h, he' ▸ hd'⟩
    · simp [hd']
  out := nofun
  entry _ := ⟨⟨e, (hmem e).mpr (.inl rfl), hd⟩, by simp⟩
  due := by
    rintro delay' ⟨⟩ e' he' hvalue
    rcases (hmem e').mp he' with rfl | ⟨-, hne⟩
    · exact hdue
    · exact absurd hvalue hne

theorem scheduleTimerWithTimeout_ends (hl : s.Linked) :
    Ends (fun s' => Rescheduled d timeout s s') (s.scheduleTimerWithTimeout impl d timeout) := by
  unfold scheduleTimerWithTimeout
  cases timeout with
  | none => exact unscheduleTimer_ends hl d
  | some delay =>
    dsimp only
    cases hkey : s.queueKeys.lookup d with
    | none =>
      rcases hins : impl.insert s.now d delay s.queue with panic | ⟨key, queue⟩
      · cases panic with
        | staleKey => exact absurd hins (impl.insert_ne_staleKey)
        | invalidDeadline => rfl
      · have hmem := impl.mem_insert hins
        have : ∀ e', e' ∈ queue ↔ e' = ⟨key, d, s.now + delay⟩ ∨ e' ∈ s.queue ∧ e'.value ≠ d :=
          fun e' => (hmem e').trans (or_congr_right
            (iff_self_and.mpr (hl.value_ne hkey e')))
        exact rescheduled_of_entry hl rfl rfl this
    | some key =>
      obtain ⟨e, he, rfl, rfl⟩ := (hl d key).mp hkey
      dsimp only
      rcases hres : impl.reset s.now e.key delay s.queue with panic | queue
      · cases panic with
        | staleKey => exact absurd hres (impl.reset_ne_staleKey he)
        | invalidDeadline => rfl
      · have hmem := impl.mem_reset he hres
        have : ∀ e', e' ∈ queue ↔
            e' = { e with due := s.now + delay } ∨ e' ∈ s.queue ∧ e'.value ≠ e.value :=
          fun e' => (hmem e').trans (or_congr_right (and_congr_right fun he' =>
            not_congr ⟨fun h => congrArg _ (eq_of_key_eq he' he h),
              fun h => congrArg _ (hl.unique he' he h)⟩))
        exact rescheduled_of_entry (e := { e with due := s.now + delay }) hl rfl rfl this

theorem Rescheduled.inOrder (h : Rescheduled d timeout s s')
    (htimer : s.timers.lookup d = some timer) (hsettled : timer.refreshing = false)
    (hsome : timeout.isSome = timer.running)
    (hwake : ∀ delay, timeout = some delay → timer.wakeTime ≤ s.now + delay) : s'.InOrder d := by
  have htimer' : s'.timers.lookup d = some timer := h.timers ▸ htimer
  refine ⟨⟨?_, ?_⟩, ?_, ?_⟩
  · rintro ⟨e, he, hvalue⟩
    cases timeout with
    | none => exact absurd hvalue (h.out rfl e he)
    | some delay => exact ⟨timer, htimer', hsome.symm, (h.entry rfl).2⟩
  · rintro ⟨timer', hlook, hrun, -⟩
    cases htimer'.symm.trans hlook
    exact (h.entry (hsome.trans hrun)).1
  · intro e he hvalue timer' hlook
    cases htimer'.symm.trans hlook
    cases timeout with
    | none => exact absurd hvalue (h.out rfl e he)
    | some delay => exact (hwake delay rfl).trans (h.due delay rfl e he hvalue).ge
  · intro timer' hlook
    cases htimer'.symm.trans hlook
    exact hsettled

end SipSession

namespace SessionTimerState

variable {timer : SessionTimerState}

theorem nextTimeout_isSome : (timer.nextTimeout now).isSome = timer.running := by
  cases hrun : timer.running <;>
    simp [nextTimeout, timeUntilRefresh, timeUntilExpiration, nextRefreshTime, expirationTime, hrun]
  split <;> rfl

theorem timeUntilExpiration_isSome : (timer.timeUntilExpiration now).isSome = timer.running := by
  cases hrun : timer.running <;> simp [timeUntilExpiration, expirationTime, hrun]

theorem wakeTime_le_expiration (h : timer.timeUntilExpiration now = some delay) :
    timer.wakeTime ≤ now + delay := by
  simp only [timeUntilExpiration, expirationTime, map_eq_some_iff,
    ite_none_right_eq_some, some.injEq] at h
  unfold wakeTime
  split <;> omega

theorem wakeTime_le_next (hsettled : timer.refreshing = false)
    (h : timer.nextTimeout now = some delay) : timer.wakeTime ≤ now + delay := by
  unfold nextTimeout at h
  split at h
  · cases h
  · split at h
    next _ hlocal =>
      simp only [timeUntilRefresh, nextRefreshTime, map_eq_some_iff,
        ite_none_right_eq_some, some.injEq] at h
      rw [hsettled, Bool.not_false, Bool.true_and] at hlocal
      rw [wakeTime, if_pos hlocal]
      omega
    next => exact wakeTime_le_expiration h

end SessionTimerState

namespace SipSession

variable {impl : Impl δ} {s : SipSession δ} {timer : SessionTimerState}

theorem inv_of_rescheduled (h : Rescheduled d timeout s s') (hothers : ∀ d' ≠ d, s.InOrder d')
    (hd : s'.InOrder d) : s'.Inv := by
  refine ⟨h.linked, fun d' => ?_⟩
  by_cases hd' : d' = d
  · exact hd' ▸ hd
  · exact (h.others d' hd').inOrder (hothers d' hd')

omit [DecidableEq δ] in
theorem Ends.imp (h : Ends P r) (hpq : ∀ s, P s → Q s) : Ends Q r := by
  cases r with
  | ok s => exact hpq s h
  | error panic => exact h

theorem scheduleTimer_ends (hl : s.Linked) (hothers : ∀ d' ≠ d, s.InOrder d')
    (htimer : s.timers.lookup d = some timer) (hsettled : timer.refreshing = false) :
    Ends Inv (s.scheduleTimer impl d) := by
  unfold scheduleTimer
  rw [htimer]
  refine (scheduleTimerWithTimeout_ends hl).imp fun s' h => ?_
  exact inv_of_rescheduled h hothers (h.inOrder htimer hsettled nextTimeout_isSome
    fun delay => wakeTime_le_next hsettled)

theorem scheduleExpirationTimer_ends (hl : s.Linked) (hothers : ∀ d' ≠ d, s.InOrder d')
    (htimer : s.timers.lookup d = some timer) (hsettled : timer.refreshing = false) :
    Ends Inv (s.scheduleExpirationTimer impl d) := by
  unfold scheduleExpirationTimer
  rw [htimer]
  refine (scheduleTimerWithTimeout_ends hl).imp fun s' h => ?_
  exact inv_of_rescheduled h hothers (h.inOrder htimer hsettled timeUntilExpiration_isSome
    fun delay => wakeTime_le_expiration)

/-! ## Refreshing a dialog -/

def HasTimer (d : δ) (s : SipSession δ) : Prop := ∃ timer, s.timers.lookup d = some timer

/-- The dialog has a timer that is not in the middle of a refresh. -/
def Settled (d : δ) (s : SipSession δ) : Prop :=
  ∃ timer, s.timers.lookup d = some timer ∧ timer.refreshing = false

/-- Only the timer of the dialog has changed, and time may have passed. -/
structure Touches (d : δ) (s s' : SipSession δ) : Prop where
  queue : s'.queue = s.queue
  queueKeys : s'.queueKeys = s.queueKeys
  expired : s'.expired = s.expired
  others : ∀ d' ≠ d, s'.timers.lookup d' = s.timers.lookup d'
  hasTimer : s.HasTimer d → s'.HasTimer d

theorem Touches.refl (d : δ) (s : SipSession δ) : Touches d s s :=
  ⟨rfl, rfl, rfl, fun _ _ => rfl, id⟩

theorem Touches.trans (h : Touches d s s') (h' : Touches d s' s'') : Touches d s s'' where
  queue := h'.queue.trans h.queue
  queueKeys := h'.queueKeys.trans h.queueKeys
  expired := h'.expired.trans h.expired
  others d' hd' := (h'.others d' hd').trans (h.others d' hd')
  hasTimer := h'.hasTimer ∘ h.hasTimer

theorem Touches.linked (h : Touches d s s') (hl : s.Linked) : s'.Linked := by
  unfold Linked
  rw [h.queue, h.queueKeys]
  exact hl

theorem Touches.sameAt (h : Touches d s s') (hd' : d' ≠ d) : SameAt d' s s' :=
  ⟨fun e _ => by rw [h.queue], h.others d' hd', by rw [h.expired]⟩

@[simp] theorem lookup_setTimer_self : (s.setTimer d timer).timers.lookup d = some timer :=
  AList.lookup_insert _

theorem touches_setTimer (d : δ) (timer : SessionTimerState) (s : SipSession δ) :
    Touches d s (s.setTimer d timer) :=
  ⟨rfl, rfl, rfl, fun _ hd' => AList.lookup_insert_ne hd', fun _ => ⟨timer, lookup_setTimer_self⟩⟩

theorem touches_await (d : δ) (exchange : Exchange) (s : SipSession δ) :
    Touches d s (s.await exchange) :=
  ⟨rfl, rfl, rfl, fun _ _ => rfl, id⟩

theorem touches_applyRefreshMinSe (d : δ) (headers : List Header) (s : SipSession δ) :
    Touches d s (s.applyRefreshMinSe d headers).2 := by
  unfold applyRefreshMinSe
  split
  · exact touches_setTimer d _ s
  · exact .refl d s

theorem touches_completeRefreshFromResponse :
    Touches d s (s.completeRefreshFromResponse d headers).2 := by
  unfold completeRefreshFromResponse
  split
  · exact .refl d s
  · exact touches_setTimer d _ s

theorem touches_failRefreshIfPending : Touches d s (s.failRefreshIfPending d) := by
  unfold failRefreshIfPending
  split
  · exact .refl d s
  · split
    · exact touches_setTimer d _ s
    · exact .refl d s

theorem applyRefreshResponse_settled (now : Nat) :
    (timer.applyRefreshResponse now headers).1.refreshing = false := by
  unfold applyRefreshResponse
  split
  · dsimp only
    split <;> rfl
  · split
    · rfl
    · split <;> rfl

theorem completeRefreshFromResponse_settled (h : s.HasTimer d) :
    (s.completeRefreshFromResponse d headers).2.Settled d := by
  obtain ⟨timer, htimer⟩ := h
  unfold completeRefreshFromResponse
  rw [htimer]
  exact ⟨_, lookup_setTimer_self, applyRefreshResponse_settled s.now⟩

theorem failRefreshIfPending_settled (h : s.HasTimer d) : (s.failRefreshIfPending d).Settled d := by
  obtain ⟨timer, htimer⟩ := h
  unfold failRefreshIfPending
  rw [htimer]
  dsimp only
  split
  next => exact ⟨_, lookup_setTimer_self, rfl⟩
  next hpending => exact ⟨timer, htimer, Bool.not_eq_true _ ▸ hpending⟩

/-- The refresh has returned: only the timer of the dialog has changed, and it is settled. -/
def Returns (d : δ) (s s' : SipSession δ) : Prop := Touches d s s' ∧ s'.Settled d

theorem Touches.returns (h : Touches d s s') (h' : Returns d s' s'') : Returns d s s'' :=
  ⟨h.trans h'.1, h'.2⟩

theorem failRefreshIfPending_returns (h : s.HasTimer d) : Returns d s (s.failRefreshIfPending d) :=
  ⟨touches_failRefreshIfPending, failRefreshIfPending_settled h⟩

theorem finishReinvite_returns (h : s.HasTimer d) (reply : Reply) :
    Returns d s (s.finishReinvite d reply).2 := by
  cases reply with
  | error | none => exact failRefreshIfPending_returns h
  | response status headers =>
    rw [finishReinvite]
    split
    · exact ⟨touches_completeRefreshFromResponse,
        completeRefreshFromResponse_settled h⟩
    · exact failRefreshIfPending_returns h

theorem tryReinviteRefresh_returns (h : s.HasTimer d) :
    Returns d s (s.tryReinviteRefresh d exchanges).2 := by
  have htimer : (s.timers.lookup d).isNone = false :=
    Option.isNone_eq_false_iff.mpr (Option.isSome_iff_exists.mpr h)
  unfold tryReinviteRefresh
  rw [htimer, if_neg Bool.false_ne_true]
  refine (touches_await d exchanges.reinvite s).returns ?_
  have h₁ : (s.await exchanges.reinvite).HasTimer d := h
  generalize s.await exchanges.reinvite = s₁ at h₁ ⊢
  cases exchanges.reinvite.reply with
  | error => exact finishReinvite_returns h₁ .error
  | none => exact finishReinvite_returns h₁ .none
  | response status headers =>
    dsimp only
    split
    · have ht := touches_applyRefreshMinSe d headers s₁
      rcases hse : s₁.applyRefreshMinSe d headers with ⟨_ | _, s₂⟩ <;> rw [hse] at ht
      · exact ht.returns (failRefreshIfPending_returns (ht.hasTimer h₁))
      · have ht' := ht.trans (touches_await d exchanges.reinviteRetry s₂)
        exact ht'.returns (finishReinvite_returns (ht'.hasTimer h₁) _)
    · exact finishReinvite_returns h₁ _

/-- What the answer to an UPDATE leaves behind. A second rejection of the interval is not
retried. -/
theorem handleUpdateRefreshResponse_spec (h : s.HasTimer d) (reply : Reply) (allowRetry : Bool) :
    Touches d s (s.handleUpdateRefreshResponse d reply allowRetry).2 ∧
    ((s.handleUpdateRefreshResponse d reply allowRetry).1 = .refreshed →
      (s.handleUpdateRefreshResponse d reply allowRetry).2.Settled d) ∧
    (allowRetry = false → (s.handleUpdateRefreshResponse d reply allowRetry).1 ≠ .retry) := by
  cases reply with
  | error | none => exact ⟨.refl d s, nofun, nofun⟩
  | response status headers =>
    rw [handleUpdateRefreshResponse]
    split
    · refine ⟨touches_completeRefreshFromResponse,
        fun _ => completeRefreshFromResponse_settled h, fun _ => ?_⟩
      dsimp only
      split <;> nofun
    · split
      · split
        · exact ⟨.refl d s, nofun, nofun⟩
        next hretry =>
          refine ⟨touches_applyRefreshMinSe d headers s, ?_, fun hno => ?_⟩
          · dsimp only
            split <;> nofun
          · exact absurd hno (by simpa using hretry)
      · split
        · exact ⟨⟨rfl, rfl, rfl, fun _ _ => rfl, id⟩, nofun, nofun⟩
        · exact ⟨.refl d s, nofun, nofun⟩

theorem tryUpdateRefresh_spec (h : s.HasTimer d) :
    Touches d s (s.tryUpdateRefresh d exchanges).2 ∧
    ((s.tryUpdateRefresh d exchanges).1 = .refreshed →
      (s.tryUpdateRefresh d exchanges).2.Settled d) ∧
    (s.tryUpdateRefresh d exchanges).1 ≠ .retry := by
  have htimer : (s.timers.lookup d).isNone = false :=
    Option.isNone_eq_false_iff.mpr (Option.isSome_iff_exists.mpr h)
  have h₁ : (s.await exchanges.update).HasTimer d := h
  unfold tryUpdateRefresh
  rw [htimer]
  obtain ⟨ht, hsettled, -⟩ := handleUpdateRefreshResponse_spec h₁ exchanges.update.reply true
  rcases hout : (s.await exchanges.update).handleUpdateRefreshResponse d exchanges.update.reply true
    with ⟨outcome, s₂⟩
  rw [hout] at ht hsettled
  have ht₂ := (touches_await d exchanges.update s).trans ht
  cases outcome with
  | retry =>
    have ht₃ := ht₂.trans (touches_await d exchanges.updateRetry s₂)
    obtain ⟨ht', hsettled', hretry⟩ := handleUpdateRefreshResponse_spec (ht₃.hasTimer h)
      exchanges.updateRetry.reply false
    exact ⟨ht₃.trans ht', hsettled', hretry rfl⟩
  | refreshed => exact ⟨ht₂, hsettled, nofun⟩
  | fallbackToReinvite | failed => exact ⟨ht₂, nofun, nofun⟩

theorem sendDialogSessionRefresh_returns (h : s.HasTimer d) (exchanges : RefreshExchanges) :
    Returns d s (s.sendDialogSessionRefresh d exchanges).2 := by
  unfold sendDialogSessionRefresh
  split
  · exact tryReinviteRefresh_returns h
  · obtain ⟨ht, hsettled, hretry⟩ := tryUpdateRefresh_spec h
    rcases hout : s.tryUpdateRefresh d exchanges with ⟨outcome, s₁⟩
    rw [hout] at ht hsettled hretry
    cases outcome with
    | refreshed => exact ⟨ht, hsettled rfl⟩
    | retry => exact absurd rfl hretry
    | fallbackToReinvite => exact ht.returns (tryReinviteRefresh_returns (ht.hasTimer h))
    | failed => exact ht.returns (failRefreshIfPending_returns (ht.hasTimer h))

/-! ## Every event -/

theorem setTimer_scheduleTimer_ends (hs : s.Inv) (hsettled : timer.refreshing = false) :
    Ends Inv ((s.setTimer d timer).scheduleTimer impl d) :=
  have ht := touches_setTimer d timer s
  scheduleTimer_ends (ht.linked hs.linked)
    (fun d' hd' => (ht.sameAt hd').inOrder (hs.inOrder d')) lookup_setTimer_self hsettled

theorem serverTimer_settled {mode : SessionTimerMode} {now : Nat}
    (h : serverTimer mode defaultExpires now headers = some timer) :
    timer.refreshing = false := by
  unfold serverTimer at h
  dsimp only at h
  split at h
  · split at h
    · split at h
      · cases h
      · cases h
        rfl
    · cases h
      rfl
  · split at h <;> cases h <;> rfl

theorem applySessionTimerHeaders_settled
    (h : timer.applySessionTimerHeaders headers = some timer') :
    timer'.refreshing = timer.refreshing := by
  unfold applySessionTimerHeaders at h
  split at h
  · cases h
    rfl
  · split at h
    · cases h
    · cases h
      rfl

theorem updateDialogTimerFromHeaders_ends (hs : s.Inv) :
    Ends Inv (s.updateDialogTimerFromHeaders impl d headers) := by
  unfold updateDialogTimerFromHeaders
  cases htimer : s.timers.lookup d with
  | none => exact hs
  | some timer =>
    dsimp only
    cases happly : timer.applySessionTimerHeaders headers with
    | none => exact hs
    | some timer' =>
      refine setTimer_scheduleTimer_ends hs ?_
      have hsettled := (applySessionTimerHeaders_settled happly).trans
        ((hs.inOrder d).settled timer htimer)
      split <;> exact hsettled

theorem removeDialog_ends (hs : s.Inv) : Ends Inv (s.removeDialog impl d) := by
  have hun : Ends _ (s.unscheduleTimer impl d) := unscheduleTimer_ends hs.linked d
  unfold removeDialog
  cases hout : s.unscheduleTimer impl d with
  | error panic =>
    rw [hout] at hun
    exact hun
  | ok s' =>
    rw [hout] at hun
    refine ⟨hun.linked, fun d' => ?_⟩
    by_cases hd' : d' = d
    · subst hd'
      refine ⟨⟨?_, ?_⟩, ?_, ?_⟩
      · rintro ⟨e, he, hvalue⟩
        exact absurd hvalue (hun.out rfl e he)
      · rintro ⟨timer, htimer, -⟩
        simp at htimer
      · intro e _ _ timer htimer
        simp at htimer
      · intro timer htimer
        simp at htimer
    · have hsame : SameAt d' s' { s' with
          timers := s'.timers.erase d
          refreshDisabled := s'.refreshDisabled.filter (· ≠ d) } :=
        ⟨fun _ _ => Iff.rfl, AList.lookup_erase_ne hd', Iff.rfl⟩
      exact ((hun.others d' hd').trans hsame).inOrder (hs.inOrder d')

theorem clearAll_inv (s : SipSession δ) : s.clearAll.Inv := by
  refine ⟨fun d key => ?_, fun d => ⟨⟨?_, ?_⟩, ?_, ?_⟩⟩ <;> simp [clearAll, Waits]

/-- **An entry is never due for nothing**: its dialog has to be refreshed or has expired. -/
theorem nextTimerAction_of_due (hs : s.Inv) (he : e ∈ s.queue) (hdue : e.due ≤ s.now)
    (hlook : s.timers.lookup e.value = some timer) : timer.isExpired s.now = true ∨
      (timer.shouldWeRefresh && timer.shouldRefresh s.now && !timer.refreshing) = true := by
  obtain ⟨_, htimer, hrun, -⟩ := (hs.inOrder e.value).entry.mp ⟨e, he, rfl⟩
  cases hlook.symm.trans htimer
  have hwake := ((hs.inOrder e.value).due e he rfl timer hlook).trans hdue
  have hsettled := (hs.inOrder e.value).settled timer hlook
  unfold wakeTime at hwake
  cases hlocal : timer.shouldWeRefresh
  · left
    rw [hlocal, if_neg Bool.false_ne_true] at hwake
    simp only [isExpired, hrun, Bool.true_and, decide_eq_true_eq]
    omega
  · right
    rw [hlocal, if_pos rfl] at hwake
    simp only [shouldRefresh, hrun, hsettled, Bool.not_false, Bool.true_and,
      Bool.and_true, decide_eq_true_eq]
    omega

theorem fire_ends (hs : s.Inv) (he : e ∈ s.queue) (hdue : e.due ≤ s.now) :
    Ends Inv (s.fire impl e exchanges) := by
  obtain ⟨timer, htimer, -, -⟩ := (hs.inOrder e.value).entry.mp ⟨e, he, rfl⟩
  have hdrop := hs.linked.drop he
  unfold fire nextTimerAction
  dsimp only
  rw [htimer]
  dsimp only
  by_cases hexp : timer.isExpired s.now = true
  · -- The dialog is left without an entry, as one that has been reported.
    rw [if_pos hexp]
    refine ⟨hdrop.linked, fun d' => ?_⟩
    by_cases hd' : d' = e.value
    · subst hd'
      have hgone := hdrop.out rfl
      exact ⟨⟨fun ⟨e', he', hvalue⟩ => absurd hvalue (hgone e' he'),
        fun ⟨_, _, _, hnot⟩ => absurd List.mem_cons_self hnot⟩,
        fun e' he' hvalue => absurd hvalue (hgone e' he'), (hs.inOrder e.value).settled⟩
    · refine SameAt.inOrder ((hdrop.others d' hd').trans ?_) (hs.inOrder d')
      exact ⟨fun _ _ => Iff.rfl, rfl, by simp [hd']⟩
  · have hrefresh := (nextTimerAction_of_due hs he hdue htimer).resolve_left hexp
    rw [if_neg hexp, if_pos hrefresh]
    dsimp only
    generalize hbase : ({ s with
      queue := s.queue.drop e.key, queueKeys := s.queueKeys.erase e.value } : SipSession δ) = base
      at hdrop ⊢
    -- The refresh changes the timer of the dialog only, so the others stay as they are.
    have hret : Returns e.value base _ :=
      (touches_setTimer e.value { timer with refreshing := true } base).returns
        (sendDialogSessionRefresh_returns ⟨_, lookup_setTimer_self⟩ exchanges)
    rcases hout : (base.setTimer e.value { timer with refreshing := true }).sendDialogSessionRefresh
      e.value exchanges with ⟨ok, s'⟩
    rw [hout] at hret
    obtain ⟨ht, timer', htimer', hsettled⟩ := hret
    have hothers' : ∀ d' ≠ e.value, s'.InOrder d' :=
      fun d' hd' => ((hdrop.others d' hd').trans (ht.sameAt hd')).inOrder (hs.inOrder d')
    cases ok with
    | true => exact scheduleTimer_ends (ht.linked hdrop.linked) hothers' htimer' hsettled
    | false => exact scheduleExpirationTimer_ends (ht.linked hdrop.linked) hothers' htimer' hsettled

theorem handle_ends (hs : s.Inv) (h : event.CanHappen s) : Ends Inv (s.handle impl event) := by
  cases event with
  | initServerTimer callerDialog mode defaultExpires headers =>
    unfold handle initServerTimer
    cases callerDialog with
    | none => exact hs
    | some d =>
      dsimp only
      cases htimer : serverTimer mode defaultExpires s.now headers with
      | none => exact hs
      | some timer => exact setTimer_scheduleTimer_ends hs (serverTimer_settled htimer)
  | initCalleeTimer d mode requested headers =>
    refine setTimer_scheduleTimer_ends hs ?_
    unfold calleeTimer
    split <;> rfl
  | fire e exchanges => exact fire_ends hs h.1 h.2
  | remoteRefresh d headers => exact updateDialogTimerFromHeaders_ends hs
  | removeDialog d => exact removeDialog_ends hs
  | clearAll => exact clearAll_inv s
  | elapse lapse =>
    have hsame (d : δ) : SameAt d s { s with now := s.now + lapse } :=
      ⟨fun _ _ => Iff.rfl, rfl, Iff.rfl⟩
    exact ⟨hs.linked, fun d => (hsame d).inOrder (hs.inOrder d)⟩

theorem new_inv (now : Nat) : (new now : SipSession δ).Inv := clearAll_inv (new now)

theorem Runs.inv (h : Runs impl (new start) s) : s.Inv := by
  induction h with
  | refl => exact new_inv start
  | tail _ hstep ih =>
    obtain ⟨event, hcan, hok⟩ := hstep
    have hends : Ends Inv (handle impl _ event) := handle_ends ih hcan
    rw [hok] at hends
    exact hends

/-- **The schedule of the timers**: exactly the dialogs that wait have an entry, one each; the
reverse index holds their keys; no timer is in the middle of a refresh; and no event hands the queue
a stale key. -/
theorem timers_scheduled (impl : Impl δ) (start : Nat) (s : SipSession δ)
    (h : Runs impl (new start) s) : (∀ d, s.Waits d → ∃! e, e ∈ s.queue ∧ e.value = d) ∧
    (∀ d, ¬ s.Waits d → ∀ e ∈ s.queue, e.value ≠ d) ∧
    (∀ d key, s.queueKeys.lookup d = some key ↔ ∃ e ∈ s.queue, e.key = key ∧ e.value = d) ∧
    (∀ d timer, s.timers.lookup d = some timer → timer.refreshing = false) ∧
    ∀ event : Event δ, event.CanHappen s → s.handle impl event ≠ .error .staleKey := by
  have hs := h.inv
  refine ⟨fun d hd => ?_, fun d hd e he hvalue => ?_, hs.linked, fun d => (hs.inOrder d).settled,
    fun event hcan hpanic => ?_⟩
  · obtain ⟨e, he, hvalue⟩ := (hs.inOrder d).entry.mpr hd
    exact ⟨e, ⟨he, hvalue⟩, fun e' ⟨he', hvalue'⟩ =>
      hs.linked.unique he' he (hvalue'.trans hvalue.symm)⟩
  · exact hd ((hs.inOrder d).entry.mp ⟨e, he, hvalue⟩)
  · have hends : Ends Inv (s.handle impl event) := handle_ends hs hcan
    rw [hpanic] at hends
    cases hends

/-- **No timer goes off early**: no entry is due before the timer of its dialog. -/
theorem entries_not_early (impl : Impl δ) (start : Nat) (s : SipSession δ)
    (h : Runs impl (new start) s) : ∀ e ∈ s.queue, ∀ timer,
      s.timers.lookup e.value = some timer → timer.wakeTime ≤ e.due :=
  fun e he => (h.inv.inOrder e.value).due e he rfl

def counting : Impl Nat :=
  .ofKeys (·.foldr max 0 + 1) fun _ h => absurd (List.le_max_of_le' 0 h le_rfl) (by omega)

/-- The callee of a call answers; half an interval later its refresh gets no answer. -/
theorem timers_scheduled_unanswered : ∃ s : SipSession Nat, Runs counting (new 0) s ∧ s.Waits 7 ∧
    ∃! e, e ∈ s.queue ∧ e.value = 7 := by
  have hanswer : Runs counting (new 0) _ :=
    .single ⟨.initCalleeTimer 7 .always (secs 1800) [], trivial, rfl⟩
  have helapse : Runs counting (new 0) _ := hanswer.tail ⟨.elapse (secs 900), trivial, rfl⟩
  have hrun : Runs counting (new 0) _ := helapse.tail
    ⟨.fire ⟨1, 7, secs 900⟩ ⟨⟨secs 32, .none⟩, ⟨0, .none⟩, ⟨0, .none⟩, ⟨0, .none⟩⟩,
      ⟨.head _, by decide⟩, rfl⟩
  refine ⟨_, hrun, ?waits, (timers_scheduled counting 0 _ hrun).1 7 ?waits⟩
  exact ⟨_, rfl, rfl, List.not_mem_nil⟩

theorem entries_not_early_callee : ∃ (s : SipSession Nat) (timer : SessionTimerState),
    Runs counting (new 0) s ∧ s.timers.lookup 7 = some timer ∧ timer.wakeTime ≤ secs 900 :=
  have hanswer : Runs counting (new 0) _ :=
    .single ⟨.initCalleeTimer 7 .always (secs 1800) [], trivial, rfl⟩
  ⟨_, _, hanswer, rfl, entries_not_early counting 0 _ hanswer ⟨1, 7, secs 900⟩ (.head _) _ rfl⟩

end SipSession

end RustPbx.SessionTimer
