import RustPbx.Call.Policy
import RustPbx.Sip.Types

/-!
The routing configuration, and what a routing decision hands on.

Settings that routing only passes on (recording, ringback, answering machine detection, ...) are
kept as `Setting`s.
-/

namespace RustPbx.Routing

open Sip Call

/-- A configuration value that is passed on unread. -/
structure Setting where
  text : String

/-- How a routing function ends without a result: with an error text, or by a panic. -/
inductive Failure where
  | error (msg : String)
  | panic
  deriving DecidableEq

inductive MediaMode where
  | none
  | bypass
  | auto
  | forceTranscode

inductive MediaProxyMode where
  | all
  | auto
  | nat
  | none
  | bypass

structure LimiterRef where
  id : Nat
  limit : UInt32

structure TrunkConfig where
  dest : String
  outboundProxy : Option String := none
  username : Option String := none
  password : Option String := none
  codec : List String := []
  concurrentCallLimiter : Option LimiterRef := none
  cpsLimiter : Option LimiterRef := none
  weight : Option UInt32 := none
  transport : Option String := none
  id : Option Int := none
  recording : Option Setting := none
  amd : Option Setting := none
  country : Option String := none
  policy : Option PolicySpec := none
  rewriteHostport : Bool := true
  mediaMode : Option MediaMode := none
  videoPolicy : Option Setting := none
  externalIp : Option String := none
  bindIp : Option String := none
  iceLite : Option Bool := none
  passthroughCustomSdpAttrs : Option Bool := none
  profile : Option String := none
  ringback : Option Setting := none
  maxRingTime : Option UInt32 := none
  maxCallDuration : Option UInt32 := none
  diversionHeaders : Option Bool := none
  historyInfo : Option Bool := none

structure SourceTrunk where
  name : String
  id : Option Int

/-! ## Rules -/

structure MatchConditions where
  fromUser : Option String := none
  fromHost : Option String := none
  toUser : Option String := none
  toHost : Option String := none
  requestUriUser : Option String := none
  requestUriHost : Option String := none
  headers : List (String × String) := []
  caller : Option String := none
  callee : Option String := none

inductive DestConfig where
  | single (trunk : String)
  | multiple (trunks : List String)
  deriving DecidableEq

structure RouteAction where
  dest : Option DestConfig := none
  select : String := "rr"
  hashKey : Option String := none

structure RouteRule where
  matchConditions : MatchConditions := {}
  action : RouteAction := {}
  codecs : List String := []

structure Credential where
  username : String
  password : String
  realm : Option String

structure InviteOption where
  caller : Uri
  callee : Uri
  destination : Option SipAddr := none
  credential : Option Credential := none
  headers : Option (List Header) := none

structure OutboundTrunkContext where
  id : Option Int
  name : String
  dest : String

structure DiversionPolicy where
  diversionHeaders : Bool := false
  historyInfo : Bool := false

structure Permit where
  limiter : Nat

/-- Durations are in seconds. -/
structure DialplanHints where
  recording : Option Setting := none
  maxDuration : Option Nat := none
  maxRingTime : Option Nat := none
  allowCodecs : Option (List String) := none
  outboundTrunk : Option OutboundTrunkContext := none
  mediaMode : Option MediaProxyMode := none
  videoPolicy : Option Setting := none
  externalIp : Option String := none
  bindIp : Option String := none
  iceLite : Option Bool := none
  passthroughCustomSdpAttrs : Option Bool := none
  networkProfileId : Option String := none
  ringback : Option Setting := none
  diversionPolicy : Option DiversionPolicy := none
  amd : Option Setting := none
  concurrencyHolds : List ConcurrencyHold := []
  concurrentCallLease : List Permit := []

/-- No letter outside ASCII becomes one of these in lower case. -/
def resolveTransportFromStr (s : String) : Option Transport :=
  match Str.lower s with
  | "udp" => some .udp
  | "tcp" => some .tcp
  | "tls" => some .tls
  | "ws" => some .ws
  | "wss" => some .wss
  | _ => none

end RustPbx.Routing
