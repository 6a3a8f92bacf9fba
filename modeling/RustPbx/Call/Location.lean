import RustPbx.Sip.Types

/-!
Where a user can be reached: one registered contact, or one target of a dial plan.
-/

namespace RustPbx.Call

open Sip

structure Location where
  aor : Uri
  expires : Nat := 0
  destination : Option SipAddr := none
  /-- When the binding was written, in nanoseconds. -/
  lastModified : Option Nat := none
  supportsWebrtc : Bool := false
  headers : Option (List Header) := none
  registeredUsername : Option String := none
  registeredRealm : Option String := none
  registeredAor : Option Uri := none
  contactRaw : Option String := none
  instanceId : Option String := none
  gruu : Option String := none
  tempGruu : Option String := none
  transport : Option Transport := none
  userAgent : Option String := none
  homeProxy : Option SipAddr := none
  deriving DecidableEq

def locatorExpireGraceSecs : Nat := 30

namespace Location

def bindingKey (uris : UriLib) (loc : Location) : String :=
  match loc.instanceId, loc.gruu with
  | some inst, _ => uris.print loc.aor ++ "|instance=" ++ inst
  | none, some gruu => uris.print loc.aor ++ "|gruu=" ++ gruu
  | none, none => uris.print loc.aor

def isExpiredAt (loc : Location) (now : Nat) : Bool :=
  loc.expires == 0 || loc.lastModified.any fun modified =>
    (loc.expires + locatorExpireGraceSecs) * 10 ^ 9 ≤ now - modified

end Location

end RustPbx.Call
