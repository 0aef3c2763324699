import Admission.Client.Caller
import Admission.FileWatch
import Admission.Gateway
import Admission.Json.Reader
import Admission.Settings.Access
import Admission.Settings.Format

/-!
# The service

The gateway as its settings make it: webhooks out of a watched file, namespaces out of the settings,
and the five paths it answers.  The files and the network are asked of whoever runs it.
-/

namespace Admission

/-- A request to the service. -/
structure ServiceRequest where
  method : String
  path : String
  body : String
  deriving DecidableEq, Repr

/-- An answer of the service. -/
structure ServiceReply where
  status : Nat
  body : String
  deriving DecidableEq, Repr

/-- A running service. -/
structure Service (σ : Type) where
  settings : Settings
  manager : ClientManager
  network : Network σ
  /-- The time of the other side. -/
  clock : σ → Time.Span
  watch : FileWatch
  metrics : Metrics := {}
  traffic : Traffic σ

/-- Why a service cannot start. -/
inductive StartError where
  | server (cause : TlsError)
  | access (cause : AccessError)
  | clients (missing : MissingParts)
  /-- Webhooks are wanted out of a cluster, and there is none. -/
  | noCluster

/-- The wording. -/
def StartError.message : StartError → String
  | .server cause => s!"Failed to load TLS config: {cause.message}"
  | .access cause => s!"Failed to load webhook client credentials: {cause.message}"
  | .clients missing => s!"Invalid client manager: {missing.message}"
  | .noCluster => "Failed to connect to the cluster: no cluster is reachable"

/-- A network in which nobody answers. -/
def Network.unreachable : Network Unit where
  dial _ _ world := (.refused "connection refused", world)
  ready _ world := (false, world)
  send _ _ world := (.canceled, world)
  isClosed _ _ := true

namespace Service

variable {σ : Type}

/-- The most bytes of a body that are read. -/
def maxBody : Nat := 3 * 1024 * 1024

/-- A service with its webhooks still to be read. -/
def start (settings : Settings) (pki : Pki) (files : FileReader) (network : Network σ)
    (clock : σ → Time.Span) (world : σ) : Except StartError (Service σ) := do
  let contents (path : String) := (files path).toOption
  let _ ← (TlsConfig.forServer pki settings.tlsCertPath settings.tlsKeyPath
    (contents settings.tlsCertPath) (contents settings.tlsKeyPath)).mapError .server
  let table ← (settings.client.credentials files).mapError .access
  let manager := ClientManager.withCapacity ⟨some table, true, pki⟩ settings.client.cacheSize
  manager.builder.validate.mapError .clients
  if settings.webhooks.source = .cluster then throw .noCluster
  return {
    settings := settings, manager := manager, network := network, clock := clock
    watch := { interval := settings.webhooks.reloadInterval }
    traffic := { world := world } }

/-- The step of admission for webhooks of a kind. -/
def plugin (service : Service σ) (kind : WebhookKind) : Plugin (Traffic σ) :=
  let caller := Caller.overNetwork service.manager service.network service.clock
    service.settings.client.defaultTimeout
  let scheme : Scheme := ⟨Converter.relabel, id, service.settings.registry⟩
  let namespaces : NamespaceLister := service.settings.namespaces.get?
  let timeout := service.settings.client.readyTimeout
  match kind with
  | .mutating =>
    .mutating (fun _ => service.watch.source.mutating) namespaces scheme timeout caller
  | .validating =>
    .validating (fun _ => service.watch.source.validating) namespaces scheme timeout caller
      ValidatingDispatch.promptFirst

/-- Both steps. -/
def gateway (service : Service σ) : Gateway (Traffic σ) :=
  ⟨service.plugin .mutating, service.plugin .validating⟩

/-- The health of a service that receives requests. -/
def health (service : Service σ) : Health :=
  ⟨true, [service.watch.source.mutating.synced, service.watch.source.validating.synced]⟩

/-- Answers a review. -/
def review (service : Service σ) (step : GatewayStep) (body : String) :
    ServiceReply × Service σ :=
  if maxBody < body.utf8ByteSize then (⟨413, "length limit exceeded"⟩, service)
  else
    match Json.read? body with
    | none => (⟨400, "Failed to parse the request body as JSON"⟩, service)
    | some value =>
      let a := service.gateway.handle step value service.metrics service.traffic
      (⟨200, a.review.write⟩, { service with metrics := a.metrics, traffic := a.world })

/-- Answers a request. -/
def handle (service : Service σ) (request : ServiceRequest) : ServiceReply × Service σ :=
  match request.path, request.method with
  | "/validate", "POST" => service.review .validate request.body
  | "/mutate", "POST" => service.review .mutate request.body
  | "/healthz", "GET" => (⟨200, Health.healthz⟩, service)
  | "/readyz", "GET" =>
    let (status, text) := service.health.readyz
    (⟨status, text⟩, service)
  | "/metrics", "GET" => (⟨200, service.metrics.exposition⟩, service)
  | path, _ =>
    if ["/validate", "/mutate", "/healthz", "/readyz", "/metrics"].contains path then
      (⟨405, ""⟩, service)
    else (⟨404, ""⟩, service)

end Service

end Admission
