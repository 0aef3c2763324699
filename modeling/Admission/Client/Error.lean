import Admission.Text.Quoted
import Admission.Time.Span

/-!
# Why a webhook cannot be reached

The causes, from building a client to reading the answer, each with its wording.
-/

namespace Admission

/-- What is wrong with certificates, keys or the files they are in. -/
inductive TlsError where
  | certFileRead (path reason : String)
  | keyFileRead (path reason : String)
  | noCerts (path : String)
  | noKey (path : String)
  | caBundle (reason : String)
  | clientCert (reason : String)
  /-- Certificate and key do not make an identity. -/
  | config (reason : String)
  deriving DecidableEq, Repr

def TlsError.message : TlsError → String
  | .certFileRead path reason => s!"failed to read cert file \x27{path}\x27: {reason}"
  | .keyFileRead path reason => s!"failed to read key file \x27{path}\x27: {reason}"
  | .noCerts path => s!"no valid certificates found in \x27{path}\x27"
  | .noKey path => s!"no valid private key found in \x27{path}\x27"
  | .caBundle reason => s!"invalid CA bundle: {reason}"
  | .clientCert reason => s!"invalid client certificate: {reason}"
  | .config reason => s!"failed to build TLS config: {reason}"

/-- What is wrong with a URL. -/
inductive UrlFault where
  /-- It is no URI. -/
  | malformed
  | scheme
  | missingHost
  /-- The host is no name that a server can prove. -/
  | serverName
  deriving DecidableEq, Repr

def UrlFault.message : UrlFault → String
  | .malformed => "invalid uri"
  | .scheme => "scheme must be https or http"
  | .missingHost => "missing host"
  | .serverName => "invalid dns name"

/-- Why a webhook cannot be reached. -/
inductive ClientError where
  | needServiceOrUrl
  | invalidUrl (url : String) (fault : UrlFault)
  /-- A part that clients are built with is missing. -/
  | notConfigured (what : String)
  | resolve (service reason : String)
  | tls (e : TlsError)
  | connect (address reason : String)
  | handshake (authority reason : String)
  | invalidRequest (reason : String)
  | http (reason : String)
  /-- An answer with another status than success, and the start of its body. -/
  | status (code : Nat) (body : String)
  | timeout (limit : Time.Span)
  | decode (reason : String)
  deriving DecidableEq, Repr

def ClientError.message : ClientError → String
  | .needServiceOrUrl => "webhook configuration must have either service or URL"
  | .invalidUrl url fault => s!"invalid webhook URL {Text.quoted url}: {fault.message}"
  | .notConfigured what => s!"{what} is not configured"
  | .resolve service reason => s!"unable to resolve service {service}: {reason}"
  | .tls e => e.message
  | .connect address reason => s!"dial {address}: {reason}"
  | .handshake authority reason => s!"TLS handshake with {authority}: {reason}"
  | .invalidRequest reason => s!"invalid request: {reason}"
  | .http reason => reason
  | .status code body => s!"the server responded with status {code}: {body}"
  | .timeout limit => s!"request did not complete within {limit.text}"
  | .decode reason => s!"unable to decode response: {reason}"

end Admission
