import Admission.Client.Error
import Admission.Pem

/-!
# Trust and identity

Which certificates a connection trusts, and which identity it shows.  Reading certificates and keys
is the business of a `Pki`, which says what bytes it can use; everything else is decided here.

With no bundle at all the roots of the platform are trusted, and otherwise exactly the certificates
of the bundles.
-/

namespace Admission

/-- What bytes are certificates and keys. -/
structure Pki where
  /-- Whether bytes are a certificate that can be trusted. -/
  isAnchor : List UInt8 → Bool
  /-- Whether a chain of certificates and a key make an identity. -/
  isIdentity : List (List UInt8) → List UInt8 → Bool

/-- A PEM certificate chain and its PEM key. -/
structure Identity where
  certificates : List UInt8
  key : List UInt8
  deriving DecidableEq, Repr

/-- Whom a connection trusts. -/
inductive Roots where
  | platform
  | only (certificates : List (List UInt8))
  deriving DecidableEq, Repr

/-- How a connection is secured. -/
structure TlsConfig where
  roots : Roots
  /-- The chain and the key that are shown, if any. -/
  identity : Option (List (List UInt8) × List UInt8)
  deriving DecidableEq, Repr

namespace TlsConfig

/-- The certificates of one bundle, all of which must be usable. -/
def bundleAnchors (pki : Pki) (bundle : List UInt8) : Except TlsError (List (List UInt8)) :=
  match Pem.certificates bundle with
  | .error e => .error (.caBundle e.message)
  | .ok [] => .error (.caBundle "no PEM certificates found")
  | .ok anchors =>
    if anchors.all pki.isAnchor then .ok anchors else .error (.caBundle "unusable certificate")

/-- Whom the bundles that are not empty make trusted. -/
def rootsOf (pki : Pki) (bundles : List (List UInt8)) : Except TlsError Roots :=
  match bundles.filter (· ≠ []) with
  | [] => .ok .platform
  | given => do return .only (← given.mapM (bundleAnchors pki)).flatten

/-- The chain and the key of an identity. -/
def identityOf (pki : Pki) (identity : Identity) :
    Except TlsError (List (List UInt8) × List UInt8) :=
  match Pem.certificates identity.certificates with
  | .error e => .error (.clientCert e.message)
  | .ok chain =>
    match Pem.privateKey identity.key with
    | .error e => .error (.clientCert e.message)
    | .ok none => .error (.clientCert "no private key found")
    | .ok (some key) =>
      if pki.isIdentity chain key then .ok (chain, key)
      else .error (.config "unusable certificate or key")

/-- The security of calls: bundles to trust, and perhaps an identity to show. -/
def forClient (pki : Pki) (bundles : List (List UInt8)) (identity : Option Identity) :
    Except TlsError TlsConfig := do
  let roots ← rootsOf pki bundles
  match identity with
  | none => return ⟨roots, none⟩
  | some identity => return ⟨roots, some (← identityOf pki identity)⟩

/-- The identity a server shows, out of the contents of its two files; none stands for a file that
cannot be read. -/
def forServer (pki : Pki) (certPath keyPath : String) (cert key : Option (List UInt8)) :
    Except TlsError (List (List UInt8) × List UInt8) :=
  match cert, key with
  | none, _ => .error (.certFileRead certPath "no such file")
  | some _, none => .error (.keyFileRead keyPath "no such file")
  | some cert, some key =>
    match Pem.certificates cert with
    | .error e => .error (.certFileRead certPath e.message)
    | .ok [] => .error (.noCerts certPath)
    | .ok chain =>
      match Pem.privateKey key with
      | .error e => .error (.keyFileRead keyPath e.message)
      | .ok none => .error (.noKey keyPath)
      | .ok (some key) =>
        if pki.isIdentity chain key then .ok (chain, key)
        else .error (.config "unusable certificate or key")

end TlsConfig

end Admission
