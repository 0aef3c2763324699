import Admission.Client.Trust
import Admission.Dict
import Admission.Net.Uri

/-!
# Credentials by host

A table gives the credentials for calling a host.  They are looked up by host and port, then by
host, then under `*`, the first entry counting; a host without any is called anonymously.
-/

namespace Admission

/-- What is shown to a host and what it is trusted by. -/
structure Credentials where
  bearerToken : Option String := none
  identity : Option Identity := none
  /-- PEM certificates to trust besides the webhook's own. -/
  caData : List UInt8 := []
  /-- The name the server must prove, in place of its host. -/
  serverName : Option String := none
  deriving DecidableEq, Repr

namespace Credentials

/-- What may be shown of credentials: no secrets. -/
def summary (c : Credentials) : String :=
  let token := match c.bearerToken with
    | some _ => "Some(\"<redacted>\")"
    | none => "None"
  let identity := match c.identity with
    | some _ => "Some(ClientIdentity \x7b .. \x7d)"
    | none => "None"
  let name := match c.serverName with
    | some name => s!"Some({Text.quoted name})"
    | none => "None"
  s!"AuthenticationInfo \x7b bearer_token: {token}, client_identity: {identity}, " ++
    s!"ca_data: {c.caData.length}, server_name: {name} \x7d"

end Credentials

/-- Credentials by host. -/
abbrev CredentialTable := Dict Credentials

namespace CredentialTable

/-- The key of the entry for all hosts. -/
def anyHost : String := "*"

/-- The first entry among candidate keys and then `*`. -/
def lookup (table : CredentialTable) (candidates : List String) : Credentials :=
  ((candidates ++ [anyHost]).findSome? table.get?).getD {}

/-- The host of an authority: what is in brackets, or what stands before the port. -/
def hostOf (authority : String) : String :=
  match authority.toList with
  | '[' :: rest =>
    if rest.contains ']' then String.ofList (rest.takeWhile (· ≠ ']')) else authority
  | chars =>
    match Net.Uri.afterLast? ':' chars with
    | none => authority
    | some port =>
      let host := chars.take (chars.length - port.length - 1)
      if !host.contains ':' && (Net.Uri.portNumber? port).isSome then String.ofList host
      else authority

/-- The credentials for the authority of a URL. -/
def forAuthority (table : CredentialTable) (authority : String) : Credentials :=
  table.lookup [authority, hostOf authority]

/-- The name a service of the cluster has as a host. -/
def serviceHost (name namespaceName : String) : String := s!"{name}.{namespaceName}.svc"

/-- The credentials for a service of the cluster. -/
def forService (table : CredentialTable) (name namespaceName : String) (port : Int) :
    Credentials :=
  let host := serviceHost name namespaceName
  table.lookup [s!"{host}:{port}", host]

end CredentialTable

end Admission
