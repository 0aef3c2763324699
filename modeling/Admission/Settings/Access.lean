import Admission.Client.Authentication
import Admission.Settings.Basic
import Admission.Text.Blank
import Admission.Text.Utf8

/-!
# Credentials out of settings

The entries of access name files.  They are read in order of the hosts, and of an entry the token,
the identity and the certificates in this order; the first that fails counts.
-/

namespace Admission

/-- The contents of files, or why a file cannot be read. -/
abbrev FileReader := String → Except String (List UInt8)

/-- Why there are no credentials. -/
inductive AccessError where
  | unreadable (path : String) (cause : String)
  /-- A certificate without a key, or a key without a certificate. -/
  | incompleteIdentity (host : String)
  deriving DecidableEq, Repr

/-- The wording. -/
def AccessError.message : AccessError → String
  | .unreadable path cause => s!"failed to read {path}: {cause}"
  | .incompleteIdentity host =>
    s!"auth entry {Text.quoted host} sets only one of client_cert_path and client_key_path"

namespace AccessSettings

/-- Reads a file. -/
def readFile (files : FileReader) (path : String) : Except AccessError (List UInt8) :=
  (files path).mapError (.unreadable path)

/-- The identity, if both its files are named. -/
def identity (files : FileReader) (host : String) (s : AccessSettings) :
    Except AccessError (Option Identity) :=
  match s.clientCertPath, s.clientKeyPath with
  | some cert, some key => do return some ⟨← readFile files cert, ← readFile files key⟩
  | none, none => .ok none
  | _, _ => .error (.incompleteIdentity host)

/-- The credentials for a host; a token is trimmed. -/
def credentials (files : FileReader) (host : String) (s : AccessSettings) :
    Except AccessError Credentials := do
  let token ← s.tokenFile.mapM (readFile files)
  let identity ← s.identity files host
  let caData ← s.caPath.mapM (readFile files)
  return {
    bearerToken := token.map fun bytes => Text.trim (Utf8.decodeLossy bytes)
    identity := identity
    caData := caData.getD []
    serverName := s.serverName }

end AccessSettings

/-- The credentials of all entries. -/
def ClientSettings.credentials (files : FileReader) (s : ClientSettings) :
    Except AccessError CredentialTable := do
  let entries ← s.access.fields.mapM fun (host, entry) => do
    return (host, ← entry.credentials files host)
  return .ofFields entries

end Admission
