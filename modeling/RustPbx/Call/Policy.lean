import RustPbx.Lib.Effect
import RustPbx.Lib.Str
import RustPbx.Lib.Table

/-!
Call policies and the counters behind them.

`InMemoryFrequencyLimiter` keeps one counter for each policy, scope, scope value and kind of limit.
Concurrency counters count slots that are taken and must be given back.
-/

namespace RustPbx.Call

open Eff

structure Counter where
  count : UInt32
  windowEnd : Int

/-- The window end of a concurrency counter. -/
def i64Max : Int := 2 ^ 63 - 1

def evaluateWindow (c : Counter) (now newWindowEnd : Int) (limit : UInt32) : Bool × Counter :=
  if now > c.windowEnd then (true, ⟨1, newWindowEnd⟩)
  else if c.count ≥ limit then (false, c)
  else (true, { c with count := c.count + 1 })

structure InMemoryFrequencyLimiter where
  counts : Table String Counter

namespace InMemoryFrequencyLimiter

def getKey (policyId scope scopeValue limitType : String) : String :=
  policyId ++ ":" ++ scope ++ ":" ++ scopeValue ++ ":" ++ limitType

section

variable (l : InMemoryFrequencyLimiter) (policyId scope scopeValue : String)

def entry (key : String) (fresh : Counter) (visit : Counter → Bool × Counter) :
    Bool × InMemoryFrequencyLimiter :=
  let r := visit ((l.counts.lookup key).getD fresh)
  (r.1, ⟨l.counts.insert key r.2⟩)

def checkAndIncrement (now : Int) (policyId scope scopeValue : String)
    (limit windowHours : UInt32) : Bool × InMemoryFrequencyLimiter :=
  l.entry (getKey policyId scope scopeValue "frequency") ⟨0, 0⟩ fun c =>
    evaluateWindow c now (now + windowHours.toNat * 3600) limit

def todayEnd (now : Int) : Int :=
  now / 86400 * 86400 + 86399

def checkDailyLimit (now : Int) (policyId scope scopeValue : String) (limit : UInt32) :
    Bool × InMemoryFrequencyLimiter :=
  l.entry (getKey policyId scope scopeValue "daily") ⟨0, 0⟩ fun c =>
    evaluateWindow c now (todayEnd now) limit

def checkConcurrency (policyId scope scopeValue : String) (maxConcurrency : UInt32) :
    Bool × InMemoryFrequencyLimiter :=
  l.entry (getKey policyId scope scopeValue "concurrency") ⟨0, i64Max⟩ fun c =>
    if c.count ≥ maxConcurrency then (false, { c with windowEnd := i64Max })
    else (true, ⟨c.count + 1, i64Max⟩)

def releaseConcurrency (policyId scope scopeValue : String) : InMemoryFrequencyLimiter :=
  let key := getKey policyId scope scopeValue "concurrency"
  match l.counts.lookup key with
  | some c => if c.count > 0 then ⟨l.counts.insert key { c with count := c.count - 1 }⟩ else l
  | none => l

def isConcurrencyKey (key : String) : Bool :=
  ":concurrency".toList.isSuffixOf key.toList

theorem isConcurrencyKey_getKey :
    isConcurrencyKey (getKey policyId scope scopeValue "concurrency") = true := by
  simp only [isConcurrencyKey, getKey, List.isSuffixOf_iff_suffix]
  exact ⟨policyId.toList ++ ":".toList ++ scope.toList ++ ":".toList ++ scopeValue.toList, by simp⟩

theorem not_isConcurrencyKey_getKey (h : ¬ ":concurrency".toList <:+ (":" ++ limitType).toList)
    (h' : ¬ (":" ++ limitType).toList <:+ ":concurrency".toList)
    (policyId scope scopeValue : String) :
    isConcurrencyKey (getKey policyId scope scopeValue limitType) = false := by
  rw [Bool.eq_false_iff]
  intro hc
  rw [isConcurrencyKey, List.isSuffixOf_iff_suffix] at hc
  have hsuffix :
      (":" ++ limitType).toList <:+ (getKey policyId scope scopeValue limitType).toList :=
    ⟨policyId.toList ++ ":".toList ++ scope.toList ++ ":".toList ++ scopeValue.toList,
      by simp [getKey]⟩
  rcases List.suffix_or_suffix_of_suffix hc hsuffix with hs | hs
  · exact h hs
  · exact h' hs

end

end InMemoryFrequencyLimiter

structure TimeWindow where
  start : String
  stop : String
  timezone : String

structure FrequencyLimit where
  count : UInt32
  windowHours : UInt32

structure PolicySpec where
  calledPrefix : Option String := none
  trunkCountry : Option String := none
  allowedDestinationCountries : List String := []
  timeWindow : Option TimeWindow := none
  denyRegions : List String := []
  allowLandline : Option Bool := none
  frequencyLimit : Option FrequencyLimit := none
  /-- The number of calls a day. -/
  dailyLimit : Option UInt32 := none
  /-- `max_total`: the number of calls at a time. -/
  concurrency : Option UInt32 := none

inductive PolicyRejection where
  | destinationNotAllowed (msg : String)
  | landlineNotAllowed (msg : String)
  | timeWindowDenied (msg : String)
  | regionDenied (msg : String)
  | frequencyLimitExceeded (msg : String)
  | dailyLimitExceeded (msg : String)
  | concurrencyLimitExceeded (msg : String)
  | invalidNumber (msg : String)

def PolicyRejection.print : PolicyRejection → String
  | destinationNotAllowed msg | landlineNotAllowed msg | timeWindowDenied msg | regionDenied msg
  | frequencyLimitExceeded msg | dailyLimitExceeded msg | concurrencyLimitExceeded msg
  | invalidNumber msg => msg

inductive PolicyCheckStatus where
  | allowed
  | rejected (rejection : PolicyRejection)

structure ConcurrencyHold where
  policyId : String
  scope : String
  scopeValue : String

structure PolicyCheckOutcome where
  status : PolicyCheckStatus
  concurrencyHolds : List ConcurrencyHold

inductive NumberType where
  | fixedLine
  | fixedLineOrMobile
  | other
  deriving DecidableEq

structure PhoneNumber where
  countryId : Option String
  numberType : NumberType

/-- The libraries and clocks a policy check reads; `ω` is the state of the outside world. -/
structure PolicyEnv (ω : Type) where
  parseNumber : String → Option PhoneNumber
  parseTime : String → Except String Nat
  localTime : ω → Nat × ω
  /-- A time zone, as the way to read its time of day. -/
  parseTimezone : String → Except String (ω → Nat × ω)
  timestamp : ω → Int × ω

structure GuardState (ω : Type) where
  limiter : InMemoryFrequencyLimiter
  world : ω

/-! ## The policy guard -/

namespace PolicyGuard

variable (env : PolicyEnv ω) (policyId : String) (policy : PolicySpec)
  (caller callee : String) (originCountry : Option String)

def readWorld (read : ω → α × ω) : Eff (GuardState ω) String α :=
  modifyGet fun s => ((read s.world).1, { s with world := (read s.world).2 })

def useLimiter (op : InMemoryFrequencyLimiter → Bool × InMemoryFrequencyLimiter) :
    Eff (GuardState ω) String Bool :=
  modifyGet fun s => ((op s.limiter).1, { s with limiter := (op s.limiter).2 })

/-- A policy for other called numbers or for another country says nothing about the call. -/
def applies : Bool :=
  policy.calledPrefix.all (Str.startsWith callee) &&
    match policy.trunkCountry, originCountry with
    | some tc, some oc => tc == oc
    | _, _ => true

def listed (regions : List String) (region : String) : Bool :=
  regions.any (Str.eqIgnoreAsciiCase · region)

def checkDestination : Eff (GuardState ω) String (Option PolicyRejection) :=
  match policy.allowedDestinationCountries, env.parseNumber callee with
  | [], _ | _, none => pure none
  | countries, some number =>
    match number.countryId with
    | some region =>
      if listed countries region then pure none
      else pure (some (.destinationNotAllowed
        ("Destination country " ++ region ++ " not allowed for callee " ++ callee)))
    | none => pure (some (.invalidNumber ("No country ID found for callee " ++ callee)))

def checkLandline : Eff (GuardState ω) String (Option PolicyRejection) :=
  match policy.allowLandline, env.parseNumber callee with
  | some false, some number =>
    if number.numberType = .fixedLine ∨ number.numberType = .fixedLineOrMobile then
      pure (some (.landlineNotAllowed ("Landline calls are not allowed: " ++ callee)))
    else pure none
  | _, _ => pure none

def outsideWindow (start stop now : Nat) : Bool :=
  if start ≤ stop then now < start || now > stop
  -- the window crosses midnight
  else now < start && now > stop

def checkTimeWindow : Eff (GuardState ω) String (Option PolicyRejection) :=
  match policy.timeWindow with
  | none => pure none
  | some window => do
    let start ← ofExcept ((env.parseTime window.start).mapError ("Invalid start time: " ++ ·))
    let stop ← ofExcept ((env.parseTime window.stop).mapError ("Invalid end time: " ++ ·))
    let read ← ofExcept <|
      if window.timezone = "Local" then .ok env.localTime
      else (env.parseTimezone window.timezone).mapError ("Invalid timezone: " ++ ·)
    let now ← readWorld read
    if outsideWindow start stop now then
      pure (some (.timeWindowDenied
        ("Call outside allowed time window: " ++ window.start ++ " - " ++ window.stop)))
    else pure none

def checkRegions : Eff (GuardState ω) String (Option PolicyRejection) :=
  let denied (region : Option String) (msg : String → String) : Option PolicyRejection :=
    (region.filter (listed policy.denyRegions)).map fun r => .regionDenied (msg r)
  pure <| denied ((env.parseNumber callee).bind (·.countryId))
        (fun r => "Destination country " ++ r ++ " is denied for callee " ++ callee) <|>
      denied ((env.parseNumber caller).bind (·.countryId))
        (fun r => "Source country " ++ r ++ " is denied for caller " ++ caller) <|>
      denied originCountry (fun r => "Origin country " ++ r ++ " is denied")

def checkFrequency : Eff (GuardState ω) String (Option PolicyRejection) :=
  match policy.frequencyLimit with
  | none => pure none
  | some limit => do
    let now ← readWorld env.timestamp
    if ← useLimiter fun l =>
        l.checkAndIncrement now policyId "caller" caller limit.count limit.windowHours then
      pure none
    else
      pure (some (.frequencyLimitExceeded ("Frequency limit reached for caller " ++ caller)))

def checkDaily : Eff (GuardState ω) String (Option PolicyRejection) :=
  match policy.dailyLimit with
  | none => pure none
  | some limit => do
    let now ← readWorld env.timestamp
    if ← useLimiter fun l => l.checkDailyLimit now policyId "caller" caller limit then pure none
    else pure (some (.dailyLimitExceeded ("Daily limit reached for caller " ++ caller)))

def checkSlots : Eff (GuardState ω) String PolicyCheckOutcome :=
  match policy.concurrency with
  | none => pure ⟨.allowed, []⟩
  | some maxTotal => do
    if ← useLimiter fun l => l.checkConcurrency policyId "caller" caller maxTotal then
      pure ⟨.allowed, [⟨policyId, "caller", caller⟩]⟩
    else
      pure ⟨.rejected (.concurrencyLimitExceeded
        ("Concurrency limit reached for caller " ++ caller)), []⟩

/-- `check_policy`: the holds come with the decision, and only with a call that is allowed. -/
def checkPolicy : Eff (GuardState ω) String PolicyCheckOutcome := do
  if !applies policy callee originCountry then return ⟨.allowed, []⟩
  match ← firstSome [checkDestination env policy callee, checkLandline env policy callee,
    checkTimeWindow env policy, checkRegions env policy caller callee originCountry,
    checkFrequency env policyId policy caller, checkDaily env policyId policy caller] with
  | some rejection => return ⟨.rejected rejection, []⟩
  | none => checkSlots policyId policy caller

end PolicyGuard

end RustPbx.Call
