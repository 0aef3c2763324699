import Admission.Equivalence
import Admission.Time.Span

/-!
# Settings

What the gateway is told before it starts: where it listens, where its webhooks come from, how it
calls them, which resources are the same under several names, and the labels of namespaces where no
cluster is watched.  Every setting but the members of a group of resources has a default.
-/

namespace Admission

/-- Where webhook configurations come from. -/
inductive SourceKind where
  /-- A manifest in a file. -/
  | file
  /-- The cluster. -/
  | cluster
  deriving DecidableEq, Repr, Inhabited

namespace SourceKind

def all : List SourceKind := [file, cluster]

/-- The name in settings. -/
def text : SourceKind → String
  | file => "file"
  | cluster => "cluster"

def ofText? (text : String) : Option SourceKind := all.find? (·.text = text)

theorem ofText?_text (kind : SourceKind) : ofText? kind.text = some kind := by
  cases kind <;> decide

end SourceKind

/-- How webhook configurations are had. -/
structure SourceSettings where
  source : SourceKind := .file
  /-- The file of the manifest. -/
  path : String := "/etc/webhook-admission/webhooks.yaml"
  reloadIntervalSeconds : Nat := 30
  deriving DecidableEq, Repr

/-- The time between two readings of the manifest: a second at least. -/
def SourceSettings.reloadInterval (s : SourceSettings) : Time.Span :=
  .ofSeconds (max 1 s.reloadIntervalSeconds)

/-- What is shown to a host and what it is trusted by, in files. -/
structure AccessSettings where
  /-- The file of the bearer token. -/
  tokenFile : Option String := none
  clientCertPath : Option String := none
  clientKeyPath : Option String := none
  /-- The file of certificates to trust. -/
  caPath : Option String := none
  /-- The name the server must prove, in place of its host. -/
  serverName : Option String := none
  deriving DecidableEq, Repr

/-- How webhooks are called. -/
structure ClientSettings where
  /-- How many clients are kept. -/
  cacheSize : Nat := 200
  defaultTimeoutSeconds : Nat := 10
  readyTimeoutSeconds : Nat := 10
  /-- Access by host, by host and port, or to all hosts under `*`. -/
  access : Dict AccessSettings := ∅
  deriving DecidableEq

namespace ClientSettings

/-- How long a webhook that sets no time may take. -/
def defaultTimeout (s : ClientSettings) : Time.Span := .ofSeconds s.defaultTimeoutSeconds

/-- How long a request waits for webhook configurations. -/
def readyTimeout (s : ClientSettings) : Time.Span := .ofSeconds s.readyTimeoutSeconds

end ClientSettings

/-- A member of a group of resources that are the same. -/
structure EquivalentResource where
  group : String
  version : String
  resource : String
  subresource : String
  kind : String
  deriving DecidableEq, Repr

namespace EquivalentResource

/-- The name of the resource. -/
def gvr (r : EquivalentResource) : GroupVersionResource := ⟨r.group, r.version, r.resource⟩

/-- Its kind, in the same version of the same group. -/
def gvk (r : EquivalentResource) : GroupVersionKind := ⟨r.group, r.version, r.kind⟩

/-- The entry of the register, under an identity. -/
def registration (identity : String) (r : EquivalentResource) : Registration :=
  ⟨identity, r.gvr, r.subresource, r.gvk⟩

end EquivalentResource

/-- All settings. -/
structure Settings where
  listenAddr : String := "0.0.0.0:8443"
  tlsCertPath : String := "/certs/tls.crt"
  tlsKeyPath : String := "/certs/tls.key"
  metricsAddr : String := "0.0.0.0:9090"
  logLevel : String := "info"
  webhooks : SourceSettings := {}
  client : ClientSettings := {}
  /-- Groups of resources that are the same. -/
  equivalentResources : List (List EquivalentResource) := []
  /-- The labels of namespaces where webhooks come from a file. -/
  namespaces : Dict (Dict String) := ∅
  deriving DecidableEq

namespace Settings

/-- The identity that the members of a group share. -/
def groupIdentity (index : Nat) : String := s!"equivalence-group-{index}"

/-- The entries that groups make, in order; the first group has the number `index`. -/
def registrationsFrom (index : Nat) : List (List EquivalentResource) → List Registration
  | [] => []
  | group :: rest =>
    group.map (EquivalentResource.registration (groupIdentity index)) ++
      registrationsFrom (index + 1) rest

/-- The register of the groups of resources. -/
def registry (s : Settings) : EquivalenceRegistry :=
  (registrationsFrom 0 s.equivalentResources).foldl EquivalenceRegistry.register .empty

end Settings

end Admission
