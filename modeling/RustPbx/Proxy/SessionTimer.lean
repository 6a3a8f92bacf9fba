import RustPbx.Lib.DelayQueue
import RustPbx.Lib.Table
import RustPbx.Sip.Types

/-!
Session timers of a SIP session.

The session keeps a delay queue of the dialogs to wake up for, and a reverse index from dialogs to
their entries in it. The event loop takes one event at a time and handles it to its end; the refresh
that a firing starts is awaited there. Times and durations are in nanoseconds. Code between two
awaits takes no time.
-/

namespace RustPbx.SessionTimer

open Sip

def secs (n : Nat) : Nat := n * 10 ^ 9

def defaultSessionExpires : Nat := 1800

def minMinSe : Nat := 90

inductive SessionTimerMode where
  | off
  | supported
  | always
  deriving DecidableEq

inductive SessionRefresher where
  | «local»
  | remote
  deriving DecidableEq

inductive SessionRefresherParam where
  | uac
  | uas
  deriving DecidableEq

structure SessionExpires where
  interval : Nat
  refresher : Option SessionRefresherParam
  deriving DecidableEq

def refresherParam (refresher : Option SessionRefresherParam) (part : List Char) :
    Option SessionRefresherParam :=
  match Str.splitOnce '=' (Str.trimChars part) with
  | none => refresher
  | some (name, value) =>
    if Str.eqIgnoreAsciiCase (.ofList (Str.trimChars name)) "refresher" then
      if Str.eqIgnoreAsciiCase (.ofList (Str.trimChars value)) "uac" then some .uac
      else if Str.eqIgnoreAsciiCase (.ofList (Str.trimChars value)) "uas" then some .uas
      else none
    else refresher

def SessionExpires.parse (value : String) : Option SessionExpires :=
  match value.toList.splitOn ';' with
  | [] => none
  | interval :: params => do
    let n ← Str.parseUnsigned (2 ^ 64) (Str.trimChars interval)
    return { interval := secs n, refresher := params.foldl refresherParam none }

example : SessionExpires.parse " 1800 ; Refresher = UAS" = some ⟨secs 1800, some .uas⟩ := by decide

def asSecs (duration : Nat) : Nat := duration / 10 ^ 9

def SessionExpires.value (sessionExpires : SessionExpires) : String :=
  let interval := Nat.toDigits 10 (asSecs sessionExpires.interval)
  match sessionExpires.refresher with
  | some .uac => .ofList (interval ++ ";refresher=uac".toList)
  | some .uas => .ofList (interval ++ ";refresher=uas".toList)
  | none => .ofList interval

def SessionExpires.intoHeader (sessionExpires : SessionExpires) : Header :=
  .other "Session-Expires" sessionExpires.value

def getHeaderValue (headers : List Header) (name : String) : Option String :=
  (headers.find? fun header => Str.eqIgnoreAsciiCase header.name name).map (·.value)

def hasTimerSupport (headers : List Header) : Bool :=
  headers.any fun header => Str.eqIgnoreAsciiCase header.name "Supported" &&
    (header.value.toList.splitOn ',').any fun tag => Str.trimChars tag = "timer".toList

def parseMinSe (value : String) : Option Nat :=
  (Str.parseUnsigned (2 ^ 64) (Str.trimChars value.toList)).map secs

def selectServerTimerRefresher (peerSupportsTimer sessionExpiresPresent : Bool) :
    Option SessionRefresherParam → SessionRefresher
  | some .uac => .remote
  | some .uas => .local
  | none => if peerSupportsTimer && sessionExpiresPresent then .remote else .local

def selectClientTimerRefresher : Option SessionRefresherParam → SessionRefresher
  | some .uas => .remote
  | some .uac | none => .local

/-! ## One timer -/

structure SessionTimerState where
  mode : SessionTimerMode := .off
  enabled : Bool := false
  sessionInterval : Nat := secs defaultSessionExpires
  minSe : Nat := secs minMinSe
  refresher : SessionRefresher := .local
  active : Bool := false
  refreshing : Bool := false
  lastRefresh : Nat
  refreshCount : Nat := 0
  failedRefreshes : Nat := 0

namespace SessionTimerState

variable (timer : SessionTimerState) (now : Nat)

def running : Bool := timer.active && timer.enabled

def shouldRefresh : Bool :=
  timer.running && !timer.refreshing && timer.sessionInterval / 2 ≤ now - timer.lastRefresh

def isExpired : Bool :=
  timer.running && timer.sessionInterval ≤ now - timer.lastRefresh

def nextRefreshTime : Option Nat :=
  if timer.running then some (timer.lastRefresh + timer.sessionInterval / 2) else none

def expirationTime : Option Nat :=
  if timer.running then some (timer.lastRefresh + timer.sessionInterval) else none

def timeUntilExpiration : Option Nat :=
  timer.expirationTime.map (· - now)

def timeUntilRefresh : Option Nat :=
  timer.nextRefreshTime.map (· - now)

def shouldWeRefresh : Bool := timer.refresher = .local

def nextTimeout : Option Nat :=
  if !timer.running then none
  else if !timer.refreshing && timer.shouldWeRefresh then timer.timeUntilRefresh now
  else timer.timeUntilExpiration now

def completeRefresh : SessionTimerState :=
  { timer with lastRefresh := now, refreshing := false, refreshCount := timer.refreshCount + 1 }

def failRefresh : SessionTimerState :=
  { timer with refreshing := false, failedRefreshes := timer.failedRefreshes + 1 }

def updateRefresh : SessionTimerState :=
  { timer with lastRefresh := now, refreshCount := timer.refreshCount + 1 }

/-- Take over what a request of the peer says; `none` if its interval is too small. -/
def applySessionTimerHeaders (headers : List Header) : Option SessionTimerState :=
  match (getHeaderValue headers "Session-Expires").bind SessionExpires.parse with
  | none => some timer
  | some sessionExpires =>
    if sessionExpires.interval < timer.minSe then none
    else some { timer with
      sessionInterval := sessionExpires.interval
      refresher := match sessionExpires.refresher with
        | some .uac => .remote
        | some .uas => .local
        | none => timer.refresher }

/-- Take over the answer to a refresh; the flag tells whether it was accepted. -/
def applyRefreshResponse (headers : List Header) : SessionTimerState × Bool :=
  match getHeaderValue headers "Session-Expires" with
  | none =>
    let timer := timer.completeRefresh now
    if timer.mode = .always then ({ timer with refresher := .local }, true)
    else ({ timer with enabled := false, active := false }, true)
  | some value =>
    match SessionExpires.parse value with
    | none => (timer.completeRefresh now, true)
    | some sessionExpires =>
      if sessionExpires.interval < timer.minSe then (timer.failRefresh, false)
      else
        let refresher := match sessionExpires.refresher with
          | some param => selectClientTimerRefresher (some param)
          | none => timer.refresher
        (completeRefresh { timer with sessionInterval := sessionExpires.interval, refresher } now,
          true)

def getMinSeValue : String :=
  .ofList (Nat.toDigits 10 (asSecs timer.minSe))

def buildTimerHeaders (sessionExpires : SessionExpires) (minSe : String)
    (includeContentType : Bool) : List Header :=
  (if includeContentType then [.other "Content-Type" "application/sdp"] else []) ++
    [sessionExpires.intoHeader, .other "Min-SE" minSe, .other "Supported" "timer"]

def buildSessionTimerHeaders (includeContentType : Bool) : List Header :=
  buildTimerHeaders
    { interval := timer.sessionInterval
      refresher := some (match timer.refresher with | .local => .uac | .remote => .uas) }
    timer.getMinSeValue includeContentType

def buildSessionTimerResponseHeaders : List Header :=
  SessionExpires.intoHeader
    { interval := timer.sessionInterval
      refresher := some (match timer.refresher with | .local => .uas | .remote => .uac) } ::
    (if timer.refresher = .remote then [.other "Require" "timer"] else [])

def successfulRefreshResponseHeaders : List Header :=
  if timer.enabled && timer.active then timer.buildSessionTimerResponseHeaders else []

end SessionTimerState

/-! ## The timers of a session -/

/-- `now` is the clock. `expired` is no field of the source: it records the dialogs that were
reported as expired and have not been scheduled since. -/
structure SipSession (δ : Type) where
  timers : Table δ SessionTimerState
  refreshDisabled : List δ
  queue : DelayQueue δ
  queueKeys : Table δ Nat
  now : Nat
  expired : List δ

inductive TimerAction where
  | refresh
  | expired

namespace SipSession

open DelayQueue (Impl Panic)

variable [DecidableEq δ]

def new (now : Nat) : SipSession δ where
  timers := ∅
  refreshDisabled := []
  queue := .empty
  queueKeys := ∅
  now
  expired := []

def setTimer (d : δ) (timer : SessionTimerState) (s : SipSession δ) : SipSession δ :=
  { s with timers := s.timers.insert d timer }

def unscheduleTimer (impl : Impl δ) (d : δ) (s : SipSession δ) : Except Panic (SipSession δ) :=
  match s.queueKeys.lookup d with
  | none => .ok s
  | some key => do
    let queue ← impl.remove key s.queue
    return { s with queue, queueKeys := s.queueKeys.erase d }

def scheduleTimerWithTimeout (impl : Impl δ) (d : δ) (timeout : Option Nat) (s : SipSession δ) :
    Except Panic (SipSession δ) :=
  match timeout with
  | none => s.unscheduleTimer impl d
  | some timeout =>
    let s := { s with expired := s.expired.filter (· ≠ d) }
    match s.queueKeys.lookup d with
    | some key => do
      let queue ← impl.reset s.now key timeout s.queue
      return { s with queue, queueKeys := s.queueKeys.insert d key }
    | none => do
      let (key, queue) ← impl.insert s.now d timeout s.queue
      return { s with queue, queueKeys := s.queueKeys.insert d key }

def scheduleTimer (impl : Impl δ) (d : δ) (s : SipSession δ) : Except Panic (SipSession δ) :=
  s.scheduleTimerWithTimeout impl d ((s.timers.lookup d).bind (·.nextTimeout s.now))

def scheduleExpirationTimer (impl : Impl δ) (d : δ) (s : SipSession δ) :
    Except Panic (SipSession δ) :=
  s.scheduleTimerWithTimeout impl d ((s.timers.lookup d).bind (·.timeUntilExpiration s.now))

def removeDialog (impl : Impl δ) (d : δ) (s : SipSession δ) : Except Panic (SipSession δ) := do
  let s ← s.unscheduleTimer impl d
  return { s with
    timers := s.timers.erase d, refreshDisabled := s.refreshDisabled.filter (· ≠ d) }

def clearAll (s : SipSession δ) : SipSession δ :=
  { s with timers := ∅, refreshDisabled := [], queue := .empty, queueKeys := ∅ }

/-- The smallest interval to accept, raised to what a request asks for. -/
def requestedMinSe (headers : List Header) : Nat :=
  match (getHeaderValue headers "Min-SE").bind parseMinSe with
  | some minSe => max (secs minMinSe) minSe
  | none => secs minMinSe

theorem le_requestedMinSe (headers : List Header) : secs minMinSe ≤ requestedMinSe headers := by
  unfold requestedMinSe
  split
  · exact Nat.le_max_left _ _
  · exact Nat.le_refl _

def serverTimer (mode : SessionTimerMode) (defaultExpires now : Nat) (headers : List Header) :
    Option SessionTimerState :=
  let timer : SessionTimerState := { mode, lastRefresh := now, minSe := requestedMinSe headers }
  match getHeaderValue headers "Session-Expires" with
  | some value =>
    match SessionExpires.parse value with
    | some sessionExpires =>
      if sessionExpires.interval < timer.minSe then none
      else some { timer with
        enabled := true
        sessionInterval := sessionExpires.interval
        active := true
        refresher := selectServerTimerRefresher (hasTimerSupport headers) true
          sessionExpires.refresher }
    | none => some timer
  | none =>
    if mode = .always then some { timer with
      enabled := true
      sessionInterval := max (secs defaultExpires) timer.minSe
      active := true
      refresher := selectServerTimerRefresher (hasTimerSupport headers) false none }
    else some timer

def initServerTimer (impl : Impl δ) (callerDialog : Option δ) (mode : SessionTimerMode)
    (defaultExpires : Nat) (headers : List Header) (s : SipSession δ) :
    Except Panic (SipSession δ) :=
  match callerDialog with
  | none => .ok s
  | some d =>
    match serverTimer mode defaultExpires s.now headers with
    | none => .ok s
    | some timer => (s.setTimer d timer).scheduleTimer impl d

def calleeTimer (mode : SessionTimerMode) (requestedSessionInterval now : Nat)
    (headers : List Header) : SessionTimerState :=
  match (getHeaderValue headers "Session-Expires").bind SessionExpires.parse with
  | some sessionExpires =>
    { mode
      enabled := true
      active := true
      lastRefresh := now
      sessionInterval := sessionExpires.interval
      refresher := selectClientTimerRefresher sessionExpires.refresher }
  | none =>
    { mode
      enabled := mode = .always
      active := mode = .always
      lastRefresh := now
      sessionInterval := requestedSessionInterval
      refresher := .local }

def initCalleeTimer (impl : Impl δ) (d : δ) (mode : SessionTimerMode)
    (requestedSessionInterval : Nat) (headers : List Header) (s : SipSession δ) :
    Except Panic (SipSession δ) :=
  (s.setTimer d (calleeTimer mode requestedSessionInterval s.now headers)).scheduleTimer impl d

def updateDialogTimerFromHeaders (impl : Impl δ) (d : δ) (headers : List Header)
    (s : SipSession δ) : Except Panic (SipSession δ) :=
  match s.timers.lookup d with
  | none => .ok s
  | some timer =>
    match timer.applySessionTimerHeaders headers with
    | none => .ok s
    | some timer =>
      let timer := if timer.active then timer.updateRefresh s.now else timer
      (s.setTimer d timer).scheduleTimer impl d

def nextTimerAction (scheduled : δ) (s : SipSession δ) : Option TimerAction × SipSession δ :=
  let s := { s with queueKeys := s.queueKeys.erase scheduled }
  match s.timers.lookup scheduled with
  | none => (none, s)
  | some timer =>
    if timer.isExpired s.now then (some .expired, s)
    else if timer.shouldWeRefresh && timer.shouldRefresh s.now && !timer.refreshing then
      (some .refresh, s.setTimer scheduled { timer with refreshing := true })
    else (none, s)

end SipSession

end RustPbx.SessionTimer
