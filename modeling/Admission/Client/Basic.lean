import Admission.Client.Authentication
import Admission.Net.ServerName
import Admission.Webhook.Basic

/-!
# Clients

A client knows everything about calling one webhook: where to dial, how to secure the connection,
and what to put into a request.  `ClientBuilder.build` makes one out of a webhook's configuration,
which names a service of the cluster or a URL; the service counts if both are there.
-/

namespace Admission

/-- Where connections go. -/
inductive Target where
  | address (host : String) (port : Nat)
  /-- A service of the cluster, looked up for every connection. -/
  | service (service : ServiceReference)
  deriving DecidableEq, Repr

/-- How a connection is secured, and the name the server must prove. -/
structure SecureName where
  config : TlsConfig
  serverName : String
  deriving DecidableEq, Repr

/-- A host and a port to dial. -/
structure Endpoint where
  host : String
  port : Nat
  deriving DecidableEq, Repr

def Endpoint.text (e : Endpoint) : String := s!"{e.host}:{e.port}"

/-- Everything about calling one webhook. -/
structure Client where
  target : Target
  /-- The host header, which is also what the client was built for. -/
  authority : String
  path : String
  /-- None for a connection that is not secured. -/
  tls : Option SecureName
  bearerToken : Option String
  deriving DecidableEq, Repr

namespace Client

/-- What may be shown of a client: no secrets. -/
def summary (c : Client) : String :=
  s!"RestClient \x7b authority: {Text.quoted c.authority}, path: {Text.quoted c.path}, " ++
    s!"tls: {c.tls.isSome}, .. \x7d"

end Client

namespace ServiceReference

/-- The endpoint of a service by the name the cluster gives it; it must have a name and a namespace,
and a port in range. -/
def resolve (service : ServiceReference) : Except ClientError Endpoint :=
  let label := s!"{service.namespaceName}/{service.name}"
  if service.namespaceName = "" ∨ service.name = "" then
    .error (.resolve label "service name and namespace are required")
  else if 0 ≤ service.port ∧ service.port ≤ 65535 then
    .ok ⟨CredentialTable.serviceHost service.name service.namespaceName, service.port.toNat⟩
  else .error (.resolve label s!"invalid port {service.port}")

end ServiceReference

/-- The endpoint to dial. -/
def Target.resolve : Target → Except ClientError Endpoint
  | .address host port => .ok ⟨host, port⟩
  | .service reference => reference.resolve

/-- The parts clients are built with. -/
structure ClientBuilder where
  /-- Credentials by host. -/
  credentials : Option CredentialTable
  /-- Whether services of the cluster can be looked up. -/
  resolvesServices : Bool
  pki : Pki

/-- Which parts are missing. -/
structure MissingParts where
  missing : List String
  deriving DecidableEq, Repr

def MissingParts.message (m : MissingParts) : String :=
  "the client manager requires " ++ " and ".intercalate m.missing

namespace ClientBuilder

/-- Whether every part that building needs is there. -/
def validate (builder : ClientBuilder) : Except MissingParts Unit :=
  let missing :=
    (if builder.resolvesServices then [] else ["a service resolver"]) ++
      (if builder.credentials.isSome then [] else ["an authentication info resolver"])
  if missing = [] then .ok () else .error ⟨missing⟩

/-- The security of a connection to a server name. -/
def secure (builder : ClientBuilder) (credentials : Credentials) (caBundle : List UInt8)
    (serverName : String) : Except ClientError SecureName :=
  match TlsConfig.forClient builder.pki [credentials.caData, caBundle] credentials.identity with
  | .error e => .error (.tls e)
  | .ok config =>
    if Net.isServerName serverName then .ok ⟨config, serverName⟩
    else .error (.invalidUrl serverName .serverName)

/-- The client of a service. -/
def buildService (builder : ClientBuilder) (table : CredentialTable) (service : ServiceReference)
    (caBundle : List UInt8) : Except ClientError Client := do
  let credentials := table.forService service.name service.namespaceName service.port
  let host := CredentialTable.serviceHost service.name service.namespaceName
  let tls ← builder.secure credentials caBundle (credentials.serverName.getD host)
  return ⟨.service service, s!"{host}:{service.port}", service.path, some tls,
    credentials.bearerToken⟩

/-- A host without the brackets around an address. -/
def trimBrackets (host : String) : String :=
  let chars := host.toList.dropWhile (· = '[')
  String.ofList (chars.reverse.dropWhile (· = ']')).reverse

/-- The client of a URL. -/
def buildUrl (builder : ClientBuilder) (table : CredentialTable) (url : String)
    (caBundle : List UInt8) : Except ClientError Client := do
  let some uri := Net.Uri.ofText? url | .error (.invalidUrl url .malformed)
  let https ←
    if uri.scheme = some "https" then .ok true
    else if uri.scheme = some "http" then .ok false
    else .error (.invalidUrl url .scheme)
  let some authority := uri.authority | .error (.invalidUrl url .missingHost)
  let host := trimBrackets (Net.Uri.host authority)
  let port := (Net.Uri.port? authority).getD (if https then 443 else 80)
  let credentials := table.forAuthority authority
  let tls ←
    if https then some <$> builder.secure credentials caBundle (credentials.serverName.getD host)
    else .ok none
  return ⟨.address host port, authority, uri.path, tls, credentials.bearerToken⟩

/-- The client of a webhook's configuration. -/
def build (builder : ClientBuilder) (config : ClientConfig) : Except ClientError Client := do
  let some table := builder.credentials
    | .error (.notConfigured "authentication info resolver")
  match config.service, config.url with
  | some service, _ =>
    if builder.resolvesServices then builder.buildService table service config.caBundle
    else .error (.notConfigured "service resolver")
  | none, some url => builder.buildUrl table url config.caBundle
  | none, none => .error .needServiceOrUrl

end ClientBuilder

end Admission
