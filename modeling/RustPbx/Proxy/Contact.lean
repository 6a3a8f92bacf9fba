import RustPbx.Call.User
import RustPbx.Routing.Types

/-!
The Contact headers of a REGISTER.

`parseContactHeaders` cuts the headers at the commas that stand outside quotes and angle brackets
and reads each entry.
-/

namespace RustPbx.Proxy

open Sip Call Str

structure ContactParam where
  name : String
  value : Option String
  quoted : Bool

namespace ContactParam

def is (p : ContactParam) (needle : String) : Bool :=
  eqIgnoreAsciiCase p.name needle

def rendered (p : ContactParam) : String :=
  match p.value with
  | some value =>
    if p.quoted || value.toList.any (fun c => c == ' ' || c == ';' || c == ',') then
      p.name ++ "=\"" ++ value ++ "\""
    else p.name ++ "=" ++ value
  | none => p.name

end ContactParam

structure ParsedContact where
  displayName : Option String
  uri : Uri
  uriString : String
  params : List ContactParam
  hasAngleBrackets : Bool

inductive ContactEntry where
  | wildcard
  | address (contact : ParsedContact)

def ContactEntry.isWildcard : ContactEntry → Bool
  | .wildcard => true
  | .address _ => false

def escapeDisplayName (input : String) : String :=
  String.ofList (input.toList.flatMap fun c => if c = '\\' ∨ c = '"' then ['\\', c] else [c])

namespace ParsedContact

variable (c : ParsedContact)

def paramValue (name : String) : Option String :=
  (c.params.find? (·.is name)).bind (·.value)

def expires (c : ParsedContact) : Option Nat :=
  (c.paramValue "expires").bind fun v => parseUnsigned (2 ^ 32) v.toList

def instanceId : Option String :=
  c.paramValue "+sip.instance"

def gruu (c : ParsedContact) : Option String :=
  c.paramValue "pub-gruu"

def tempGruu : Option String :=
  c.paramValue "temp-gruu"

def transport (c : ParsedContact) : Option Transport :=
  ((c.paramValue "transport").bind Routing.resolveTransportFromStr).or c.uri.transport

def destinationFromUri : SipAddr :=
  ⟨c.transport, c.uri.hostWithPort⟩

def contactValue (expires : Nat) : String :=
  let display := c.displayName.elim "" fun d => "\"" ++ escapeDisplayName d ++ "\" "
  let uri := if c.hasAngleBrackets then "<" ++ c.uriString ++ ">" else c.uriString
  let params := (c.params.filter fun p => !p.is "expires").map fun p => ";" ++ p.rendered
  display ++ uri ++ String.join params ++ ";expires=" ++ String.ofList (Nat.toDigits 10 expires)

end ParsedContact

/-! ## Parsing -/

def collectHeaderValues (req : Request) (name : String) : List (List Char) :=
  req.headers.filterMap fun header =>
    let (key, value) := (splitOnce ':' header.text).getD (header.text, [])
    if eqIgnoreAsciiCase (trim (String.ofList key)) name then
      some (trimChars value)
    else none

/-- Where the cutter of Contact entries stands: inside quotes or not, and inside how many angle
brackets. -/
structure EntryScan where
  inQuotes : Bool := false
  angleDepth : Nat := 0

def EntryScan.step (scan : EntryScan) (c : Char) : EntryScan :=
  if c = '"' then { scan with inQuotes := !scan.inQuotes }
  else if c = '<' ∧ !scan.inQuotes then { scan with angleDepth := scan.angleDepth + 1 }
  else if c = '>' ∧ !scan.inQuotes then { scan with angleDepth := scan.angleDepth - 1 }
  else scan

def EntryScan.cuts (scan : EntryScan) (c : Char) : Bool :=
  c == ',' && !scan.inQuotes && scan.angleDepth == 0

def cutEntries (scan : EntryScan) (current : List Char) : List Char → List (List Char)
  | [] => [current]
  | c :: cs =>
    if scan.cuts c then current :: cutEntries scan [] cs
    else cutEntries (scan.step c) (current ++ [c]) cs

def splitContactEntries (value : List Char) : List (List Char) :=
  ((cutEntries {} [] value).map trimChars).filter (!·.isEmpty)

def buildContactParam (value : List Char) : Option ContactParam :=
  let cleaned := trimChars ((trimChars value).dropWhile (· == ';'))
  if cleaned.isEmpty then none
  else
    match splitOnce '=' cleaned with
    | some (name, raw) =>
      let raw := trimChars raw
      let name := String.ofList (trimChars name)
      if raw.head? = some '"' ∧ raw.getLast? = some '"' ∧ 2 ≤ raw.length then
        some ⟨name, some (String.ofList raw.tail.dropLast), true⟩
      else some ⟨name, some (String.ofList raw), false⟩
    | none => some ⟨String.ofList cleaned, none, false⟩

def cutParams (inQuotes : Bool) (current : List Char) : List Char → List (List Char)
  | [] => [current]
  | c :: cs =>
    if c = '"' then cutParams (!inQuotes) (current ++ [c]) cs
    else if c = ';' ∧ !inQuotes then current :: cutParams inQuotes [] cs
    else cutParams inQuotes (current ++ [c]) cs

def parseContactParams (segment : List Char) : List ContactParam :=
  (cutParams false [] (trimChars segment)).filterMap buildContactParam

def takeDisplayName (entry : List Char) : Option String × List Char :=
  match entry with
  | '"' :: quoted =>
    match splitOnce '"' quoted with
    | some (name, rest) => (some (String.ofList name), trimChars rest)
    | none => (none, entry)
  | _ =>
    match splitOnce '<' entry with
    | some (name, rest) =>
      let name := trimChars name
      let bare := (name.dropWhile (· == '"')).rdropWhile (· == '"')
      (if name.isEmpty then none else some (String.ofList bare), trimChars ('<' :: rest))
    | none => (none, entry)

def parseContactEntry (lib : SipLib) (entry : List Char) : Option ContactEntry :=
  let trimmed := trimChars entry
  if trimmed = ['*'] then some .wildcard
  else do
    let (displayName, remainder) := takeDisplayName trimmed
    let (uriPart, paramPart, hasAngleBrackets) ←
      match remainder with
      | '<' :: inner =>
        (splitOnce '>' inner).map fun (uri, params) =>
          (trimChars uri, trimChars params, true)
      | _ =>
        let (uri, params) := (splitOnce ';' remainder).getD (remainder, [])
        some (trimChars uri, params, false)
    if uriPart = ['*'] then some .wildcard
    else
      let uri ← (lib.uri.parse (String.ofList uriPart)).toOption
      some <| .address {
        displayName, uri, hasAngleBrackets
        uriString := String.ofList uriPart
        params := parseContactParams paramPart }

def parseContactHeaders (lib : SipLib) (req : Request) : Option (List ContactEntry) :=
  ((collectHeaderValues req "Contact").flatMap splitContactEntries).mapM (parseContactEntry lib)

end RustPbx.Proxy
