import Mathlib.Logic.Embedding.Basic
import RustPbx.Routing.Match

/-!
Trunks: choosing one, admitting a call to it, and stamping it on an INVITE.

`State` is what a match works on: the shared limiters and counters, and the local variables that
outlive a statement. Early returns of the source are exits of the computation: `Exit.returned` is an
`Ok` result, `Exit.failed` an error or a panic.
-/

namespace RustPbx.Routing

open Sip Call

structure RouteAbortTrace where
  code : UInt16
  reason : Option String

structure RouteTrace where
  selectedTrunk : Option String := none
  abort : Option RouteAbortTrace := none

structure RouteTarget where
  option : InviteOption
  hints : Option DialplanHints

inductive RouteResult where
  | forward (targets : List RouteTarget)
  | queue (option : InviteOption) (queue : QueuePlan) (hints : Option DialplanHints)
  | application (option : InviteOption) (appName : String) (appParams : Option Setting)
      (autoAnswer : Bool) (hints : Option DialplanHints)
  | notHandled (option : InviteOption) (hints : Option DialplanHints)
  | abort (code : UInt16) (reason : Option String)

inductive Exit where
  | returned (result : RouteResult)
  | failed (failure : Failure)

structure State (ω : Type) where
  limiter : InMemoryFrequencyLimiter
  calls : Table Nat Nat
  /-- The round-robin counters, by the texts of the destinations. -/
  roundRobin : Table String Nat
  world : ω
  trace : Option RouteTrace
  holds : List ConcurrencyHold
  lease : List Permit

structure Env (ω : Type) where
  regex : RegexLib
  uris : UriLib
  policy : PolicyEnv ω
  amdOverlay : Setting → Setting → Setting
  hash : String → UInt64
  /-- The text that `{:?}` writes; names are quoted, so no two destinations have the same. -/
  debug : DestConfig ↪ String
  random : ω → Nat × ω
  /-- A call-rate limiter refuses with a reason. -/
  cpsTryAcquire : LimiterRef → ω → Option String × ω

inductive MatchMode where
  | execute
  | inspect

structure MatchInput (ω : Type) where
  trunks : Option (Table String TrunkConfig)
  sourceTrunk : Option SourceTrunk
  policyGuard : Bool
  mode : MatchMode

def MatchInput.trunk? (inp : MatchInput ω) (name : String) : Option TrunkConfig :=
  inp.trunks.bind (·.lookup name)

section

variable (env : Env ω) (inp : MatchInput ω)

def useWorld (f : ω → α × ω) : Eff (State ω) ε α :=
  Eff.modifyGet fun s => ((f s.world).1, { s with world := (f s.world).2 })

def onTrace (f : RouteTrace → RouteTrace) : Eff (State ω) ε Unit :=
  Eff.modify fun s => { s with trace := s.trace.map f }

def orFail (x : Eff (State ω) Failure α) : Eff (State ω) Exit α :=
  Eff.mapError .failed x

/-! ## Permits and slots -/

def tryAcquire (limiter : LimiterRef) : Eff (State ω) Exit Bool :=
  Eff.modifyGet fun s =>
    let taken := (s.calls.lookup limiter.id).getD 0
    if taken < limiter.limit.toNat then
      (true, { s with
        calls := s.calls.insert limiter.id (taken + 1), lease := s.lease ++ [⟨limiter.id⟩] })
    else (false, s)

def dropPermit (calls : Table Nat Nat) (permit : Permit) : Table Nat Nat :=
  calls.insert permit.limiter ((calls.lookup permit.limiter).getD 0 - 1)

def releaseAll : Eff (State ω) Exit Unit :=
  Eff.modify fun s => { s with calls := s.lease.foldl dropPermit s.calls, lease := [] }

def releaseHolds : Eff (State ω) Exit Unit :=
  Eff.modify fun s =>
    { s with
      limiter :=
        if inp.policyGuard then
          s.holds.foldl (fun l h => l.releaseConcurrency h.policyId h.scope h.scopeValue) s.limiter
        else s.limiter
      holds := [] }

def traceAbort (code : UInt16) (reason : Option String) : Eff (State ω) Exit Unit :=
  onTrace fun t => { t with abort := some ⟨code, reason⟩ }

def abortReleasing (code : UInt16) (reason : String) : Eff (State ω) Exit Unit := do
  traceAbort code (some reason)
  releaseHolds inp
  releaseAll
  Eff.fail (.returned (.abort code (some reason)))

def serviceUnavailable : UInt16 := 503

def forbidden : UInt16 := 403

def admitCps (trunk : TrunkConfig) (refuse : String → Eff (State ω) Exit Unit) :
    Eff (State ω) Exit Unit :=
  match trunk.cpsLimiter with
  | none => pure ()
  | some limiter => do
    match ← useWorld (env.cpsTryAcquire limiter) with
    | some reason => refuse reason
    | none => pure ()

def admitCall (trunk : TrunkConfig) (refuse : String → Eff (State ω) Exit Unit) :
    Eff (State ω) Exit Unit :=
  match trunk.concurrentCallLimiter with
  | none => pure ()
  | some limiter => do
    if ← tryAcquire limiter then pure ()
    else refuse ("Concurrent call limit exceeded (limit: " ++ toString limiter.limit ++ ")")

def admitTrunk (trunk : TrunkConfig) (refuse : String → Eff (State ω) Exit Unit) :
    Eff (State ω) Exit Unit := do
  admitCps env trunk refuse
  admitCall trunk refuse

def withGuard (x : Eff (GuardState ω) String α) : Eff (State ω) Exit α :=
  Eff.zoom (fun s => ⟨s.limiter, s.world⟩)
    (fun g s => { s with limiter := g.limiter, world := g.world })
    (Eff.mapError (fun e => .failed (.error e)) x)

def enforcePolicy (policyId : String) (policy : Option PolicySpec) (option : InviteOption)
    (originCountry : Option String) : Eff (State ω) Exit Unit :=
  match policy with
  | none => pure ()
  | some policy =>
    if inp.policyGuard then do
      let outcome ← withGuard (PolicyGuard.checkPolicy env.policy policyId policy
        (option.caller.user.getD "") (option.callee.user.getD "") originCountry)
      Eff.modify fun s => { s with holds := s.holds ++ outcome.concurrencyHolds }
      match outcome.status with
      | .allowed => pure ()
      | .rejected rejection => abortReleasing inp forbidden rejection.print
    else pure ()

def DestConfig.trunks : DestConfig → List String
  | .single trunk => [trunk]
  | .multiple trunks => trunks

def randomRange (n : Nat) : Eff (State ω) Failure Nat := do
  return (← useWorld env.random) % n

def nextRoundRobinIndex (destinationKey : String) (count : Nat) : Eff (State ω) Failure Nat :=
  Eff.modifyGet fun s =>
    if count = 0 then (0, s)
    else
      let n := (s.roundRobin.lookup destinationKey).getD 0
      (n % count,
        { s with roundRobin := s.roundRobin.insert destinationKey ((n + 1) % 2 ^ 64) })

def saturatingAdd (a b : Nat) : Nat :=
  min (a + b) (2 ^ 32 - 1)

def trunkWeight (name : String) : Nat :=
  (((inp.trunk? name).bind (·.weight)).getD 100).toNat

/-- The index of the first trunk whose cumulative weight exceeds the drawn number. -/
def weightedIndex (drawn : Nat) : Nat → Nat → List Nat → Option Nat
  | _, _, [] => none
  | index, cumulative, weight :: rest =>
    if drawn < saturatingAdd cumulative weight then some index
    else weightedIndex drawn (index + 1) (saturatingAdd cumulative weight) rest

def selectTrunkWeighted (trunks : List String) : Eff (State ω) Failure String :=
  match trunks with
  | [] => Eff.fail (.error "No trunks for weighted selection")
  | [trunk] => pure trunk
  | trunks => do
    let weights := trunks.map (trunkWeight inp)
    let total := weights.foldl saturatingAdd 0
    if total = 0 then
      return trunks.getD (← randomRange env trunks.length) ""
    else
      let drawn ← randomRange env total
      return trunks.getD ((weightedIndex drawn 0 0 weights).getD (trunks.length - 1)) ""

def hashValue (hashKey : Option String) (option : InviteOption) : String :=
  match hashKey with
  | some "from.user" => option.caller.user.getD ""
  | some "to.user" => option.callee.user.getD ""
  | some "call-id" => "default"
  | some key => key
  | none => env.uris.print option.caller

def selectTrunk (dest : DestConfig) (select : String) (hashKey : Option String)
    (option : InviteOption) : Eff (State ω) Failure String :=
  match dest.trunks with
  | [] => Eff.fail (.error "No trunks configured")
  | [trunk] => pure trunk
  | trunks => do
    match select with
    | "random" => return trunks.getD (← randomRange env trunks.length) ""
    | "hash" =>
      return trunks.getD ((env.hash (hashValue env hashKey option)).toNat % trunks.length) ""
    | "weighted" => selectTrunkWeighted env inp trunks
    | _ => return trunks.getD (← nextRoundRobinIndex (env.debug dest) trunks.length) ""

/-! ## Hints and stamps -/

def trunkMediaModeToProxyMode : MediaMode → MediaProxyMode
  | .none => .none
  | .bypass => .bypass
  | .auto => .auto
  | .forceTranscode => .all

def TrunkConfig.hasMediaHints (t : TrunkConfig) : Bool :=
  !t.codec.isEmpty || t.mediaMode.isSome || t.videoPolicy.isSome || t.recording.isSome ||
    t.ringback.isSome || t.maxRingTime.isSome || t.maxCallDuration.isSome ||
    t.externalIp.isSome || t.bindIp.isSome || t.iceLite.isSome ||
    t.passthroughCustomSdpAttrs.isSome || t.profile.isSome || t.diversionHeaders.isSome ||
    t.historyInfo.isSome || t.amd.isSome

def ringTime (secs : UInt32) : Option Nat :=
  if secs > 0 then some secs.toNat else none

def mergeTrunkMediaHints (hints : Option DialplanHints) (t : TrunkConfig) : Option DialplanHints :=
  if !t.hasMediaHints then hints
  else
    let h := hints.getD {}
    some { h with
      networkProfileId := t.profile.or h.networkProfileId
      diversionPolicy :=
        if t.diversionHeaders.isSome || t.historyInfo.isSome then
          let p := h.diversionPolicy.getD {}
          some ⟨t.diversionHeaders.getD p.diversionHeaders, t.historyInfo.getD p.historyInfo⟩
        else h.diversionPolicy
      allowCodecs := if t.codec.isEmpty then h.allowCodecs else some t.codec
      mediaMode := (t.mediaMode.map trunkMediaModeToProxyMode).or h.mediaMode
      videoPolicy := t.videoPolicy.or h.videoPolicy
      recording := t.recording.or h.recording
      ringback := t.ringback.or h.ringback
      -- source and destination trunk both merge here: the shorter limit wins
      maxDuration :=
        match t.maxCallDuration.filter (· > 0) with
        | some secs => some ((h.maxDuration.map (min · secs.toNat)).getD secs.toNat)
        | none => h.maxDuration
      maxRingTime :=
        match t.maxRingTime with
        | some secs => ringTime secs
        | none => h.maxRingTime
      externalIp := t.externalIp.or h.externalIp
      bindIp := t.bindIp.or h.bindIp
      iceLite := t.iceLite.or h.iceLite
      passthroughCustomSdpAttrs :=
        match t.passthroughCustomSdpAttrs with
        | some passthrough => some (h.passthroughCustomSdpAttrs.getD true && passthrough)
        | none => h.passthroughCustomSdpAttrs
      amd :=
        match t.amd with
        | some amd => some ((h.amd.map (env.amdOverlay · amd)).getD amd)
        | none => h.amd }

def attachOutboundTrunkMetadata (hints : Option DialplanHints) (name : String)
    (trunk : TrunkConfig) : Option DialplanHints :=
  some { hints.getD {} with outboundTrunk := some ⟨trunk.id, name, trunk.dest⟩ }

def parseServerUri (dest : String) : Except Failure Uri :=
  let isBracket (c : Char) : Bool := c == '<' || c == '>'
  let trimmed := String.ofList (((Str.trim dest).toList.dropWhile isBracket).rdropWhile isBracket)
  let text :=
    if Str.startsWith trimmed "sip:" || Str.startsWith trimmed "sips:" then trimmed
    else "sip:" ++ trimmed
  (env.uris.parse text).mapError fun e => .error ("invalid SIP URI '" ++ text ++ "': " ++ e)

/-- Where the INVITE is sent: the outbound proxy, or the destination itself. -/
def nextHop (trunk : TrunkConfig) (destUri : Uri) : Except Failure Uri :=
  match (trunk.outboundProxy.map Str.trim).filter (· ≠ "") with
  | some proxy => (parseServerUri env proxy).mapError fun
    | .error e => .error ("Invalid trunk outbound proxy '" ++ proxy ++ "': " ++ e)
    | .panic => .panic
  | none => return destUri

def applyTrunkConfig (option : InviteOption) (trunk : TrunkConfig) :
    Except Failure InviteOption := do
  let destUri ← (env.uris.parse trunk.dest).mapError fun e =>
    Failure.error ("Invalid trunk destination '" ++ trunk.dest ++ "': " ++ e)
  let hop ← nextHop env trunk destUri
  let rewrite (uri : Uri) : Uri :=
    if trunk.rewriteHostport then { uri with hostWithPort := destUri.hostWithPort } else uri
  return { option with
    destination := some ⟨trunk.transport.bind resolveTransportFromStr, hop.hostWithPort⟩
    callee := rewrite option.callee
    caller := rewrite option.caller
    credential :=
      match trunk.username, trunk.password with
      | some username, some password => some ⟨username, password, some destUri.hostText⟩
      | _, _ => option.credential
    headers := some <| option.headers.getD [] ++
      -- the identity is that of the caller before the rewrite
      if trunk.username.isSome then
        [.other "P-Asserted-Identity" ("<" ++ env.uris.print option.caller ++ ">")]
      else [] }

def stampTrunk (option : InviteOption) (hints : Option DialplanHints) (name : String)
    (trunk : TrunkConfig) : Except Failure (InviteOption × Option DialplanHints) := do
  let option ← applyTrunkConfig env option trunk
  return (option, attachOutboundTrunkMetadata (mergeTrunkMediaHints env hints trunk) name trunk)

/-! ## Forwarding -/

def MatchInput.sourceConfig : Option TrunkConfig :=
  inp.sourceTrunk.bind fun source => inp.trunk? source.name

structure Matched where
  rule : RouteRule
  option : InviteOption
  hints : Option DialplanHints

def originCountry : Option String :=
  inp.sourceConfig.bind (·.country)

def attachHolds (hints : Option DialplanHints) (holds : List ConcurrencyHold) :
    Option DialplanHints :=
  if holds.isEmpty then hints else some { hints.getD {} with concurrencyHolds := holds }

def attachConcurrentCallLease (hints : Option DialplanHints) (lease : List Permit) :
    Option DialplanHints :=
  if lease.isEmpty then hints else some { hints.getD {} with concurrentCallLease := lease }

def attach (hints : Option DialplanHints) : Eff (State ω) Exit (Option DialplanHints) :=
  Eff.modifyGet fun s =>
    (attachConcurrentCallLease (attachHolds hints s.holds) s.lease,
      { s with holds := [], lease := [] })

def allowCodecs (rule : RouteRule) (hints : Option DialplanHints) : Option DialplanHints :=
  if rule.codecs.isEmpty then hints else some { hints.getD {} with allowCodecs := some rule.codecs }

def chooseTrunk (m : Matched) (dest : DestConfig) : Eff (State ω) Failure String := do
  let selected ← selectTrunk env inp dest m.rule.action.select m.rule.action.hashKey m.option
  onTrace fun t => { t with selectedTrunk := some selected }
  return selected

def dialTrunk (m : Matched) (dest : DestConfig) :
    Eff (State ω) Exit (InviteOption × Option DialplanHints) := do
  let selected ← orFail (chooseTrunk env inp m dest)
  match inp.trunk? selected with
  | none => pure (m.option, m.hints)
  | some trunk => do
    admitTrunk env trunk (abortReleasing inp serviceUnavailable)
    enforcePolicy env inp ("trunk:" ++ selected) trunk.policy m.option (originCountry inp)
    orFail (Eff.ofExcept (stampTrunk env m.option m.hints selected trunk))

def forwardAction (m : Matched) : Eff (State ω) Exit RouteResult := do
  let (option, hints) ← match m.rule.action.dest, inp.mode with
    | some dest, .execute => dialTrunk env inp m dest
    | _, _ => pure (m.option, m.hints)
  let hints ← attach (allowCodecs m.rule hints)
  return .forward [⟨option, hints⟩]

end

end RustPbx.Routing
