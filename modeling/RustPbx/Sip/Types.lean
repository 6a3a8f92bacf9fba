import RustPbx.Lib.IpAddr

/-!
The SIP data the proxy works on: addresses, URIs, headers and requests.

They follow the SIP stack's own types. Headers keep the text they were received with where the
proxy works on the text, and the parsed value where it only reads that.
-/

namespace RustPbx.Sip

inductive Host where
  | domain (name : List Char)
  | ipAddr (ip : IpAddr)
  deriving DecidableEq

def Host.print : Host → List Char
  | .ipAddr (.v4 a b c d) => IpAddr.print (.v4 a b c d)
  | .ipAddr ip => ['['] ++ ip.print ++ [']']
  | .domain name => name

structure HostWithPort where
  host : Host
  port : Option UInt16
  deriving DecidableEq

inductive Transport where
  | udp
  | tcp
  | tls
  | ws
  | wss
  deriving DecidableEq

def Transport.name : Transport → String
  | .udp => "UDP"
  | .tcp => "TCP"
  | .tls => "TLS"
  | .ws => "WS"
  | .wss => "WSS"

structure SipAddr where
  transport : Option Transport
  addr : HostWithPort
  deriving DecidableEq

inductive Scheme where
  | sip
  | sips
  | tel
  | other (name : String)
  deriving DecidableEq

structure Auth where
  user : String
  password : Option String
  deriving DecidableEq

structure Uri where
  scheme : Option Scheme
  auth : Option Auth
  hostWithPort : HostWithPort
  params : List (String × Option String)
  deriving DecidableEq

def Uri.user (uri : Uri) : Option String :=
  uri.auth.map (·.user)

def Uri.host (uri : Uri) : Host :=
  uri.hostWithPort.host

def Uri.hostText (uri : Uri) : String :=
  String.ofList uri.host.print

structure UriLib where
  parse : String → Except String Uri
  print : Uri → String
  parseHostWithPort : String → Except String HostWithPort

def Transport.ofName (name : String) : Option Transport :=
  [Transport.udp, .tcp, .tls, .ws, .wss].find? fun t => Str.eqIgnoreAsciiCase t.name name

def Uri.transport (uri : Uri) : Option Transport :=
  uri.params.findSome? fun (name, value) =>
    if name = "transport" then value.bind Transport.ofName else none

inductive Method where
  | invite
  | register
  | other (name : String)
  deriving DecidableEq

inductive Header where
  | contact (value : List Char)
  | recordRoute (value : List Char)
  | route (value : List Char)
  | userAgent (value : String)
  | authorization (value : String)
  | proxyAuthorization (value : String)
  | other (name : String) (value : String)
  deriving DecidableEq

def Header.text : Header → List Char
  | .contact value => "Contact: ".toList ++ value
  | .recordRoute value => "Record-Route: ".toList ++ value
  | .route value => "Route: ".toList ++ value
  | .userAgent value => "User-Agent: ".toList ++ value.toList
  | .authorization value => "Authorization: ".toList ++ value.toList
  | .proxyAuthorization value => "Proxy-Authorization: ".toList ++ value.toList
  | .other name value => name.toList ++ ": ".toList ++ value.toList

def Header.name : Header → String
  | .contact _ => "Contact"
  | .recordRoute _ => "Record-Route"
  | .route _ => "Route"
  | .userAgent _ => "User-Agent"
  | .authorization _ => "Authorization"
  | .proxyAuthorization _ => "Proxy-Authorization"
  | .other name _ => name

def Header.value : Header → String
  | .contact value | .recordRoute value | .route value => String.ofList value
  | .userAgent value | .authorization value | .proxyAuthorization value => value
  | .other _ value => value

/-- Each NAT parameter is absent, present and unreadable, or a value; the target is what the stack
derives as the place to answer to. -/
structure Via where
  received : Option (Option IpAddr) := none
  rport : Option (Option UInt16) := none
  target : Option (Transport × HostWithPort) := none

/-- A From or To header; what cannot be read is absent. -/
structure NameAddr where
  uri : Option Uri
  tag : Option String := none
  displayName : Option String := none

/-- A request, with the first header of each kind that is read as a parsed value. -/
structure Request where
  method : Method
  uri : Uri
  headers : List Header := []
  topVia : Option Via := none
  fromHeader : Option NameAddr := none
  toHeader : Option NameAddr := none
  callId : Option String := none
  expires : Option String := none

structure Connection where
  remoteAddr : Option SipAddr
  reliable : Bool

structure Transaction where
  original : Request
  connection : Option Connection := none
  /-- The addresses the endpoint itself listens on. -/
  localAddrs : List SipAddr := []

def Transaction.sourceAddr (tx : Transaction) : Option SipAddr :=
  tx.connection.bind (·.remoteAddr)

end RustPbx.Sip
