import Admission.Settings.Basic
import Admission.Settings.Environment
import Admission.Yaml.Record

/-!
# Settings as values

Settings are read from a file of YAML with the environment laid over it.  A record is an object, of
which other keys are passed over, or an array of its fields in order, of which further items are
passed over.  A setting that is absent has its default; `null` stands for absence only in the
fields of an entry of access.
-/

namespace Admission

/-- Why there are no settings. -/
inductive SettingsError where
  | malformed (fault : Yaml.Fault)
  | undecodable (cause : DecodeError)
  deriving DecidableEq, Repr

/-- The wording. -/
def SettingsError.message : SettingsError → String
  | .malformed fault => fault.message
  | .undecodable cause => cause.message

namespace Settings

/-! ## 1. reading -/

/-- The named fields of a record, from an object by name, from an array by position. -/
def fieldsOf (names : List String) : Json → Decoded (Fields Json)
  | .obj fields => .ok fields
  | .arr items => .ok (names.zip items)
  | _ => .error (.expected "a record")

/-- A natural number of 64 bits. -/
def asCount : Json → Decoded Nat
  | .int n => if Width.fitsUnsigned 64 n then .ok n.toNat else .error (.expected "a number in range")
  | _ => .error (.expected "a natural number")

/-- A source, by its name or as the first key of an object with `null` there. -/
def asSourceKind (value : Json) : Decoded SourceKind := do
  let name ← match value with
    | .obj ((name, .null) :: _) => pure name
    | value => value.asText
  match SourceKind.ofText? name with
  | some kind => return kind
  | none => throw (.expected "a source of webhooks")

def asSourceSettings (value : Json) : Decoded SourceSettings := do
  let fields ← fieldsOf ["source", "path", "reload_interval_seconds"] value
  let d : SourceSettings := {}
  return {
    source := ← fields.defaulted "source" d.source asSourceKind
    path := ← fields.defaulted "path" d.path Json.asText
    reloadIntervalSeconds :=
      ← fields.defaulted "reload_interval_seconds" d.reloadIntervalSeconds asCount }

/-- Access to a host; an array must name all of it. -/
def asAccessSettings (value : Json) : Decoded AccessSettings := do
  let names := ["token_file", "client_cert_path", "client_key_path", "ca_path", "server_name"]
  let fields ← fieldsOf names value
  if let .arr items := value then
    if items.length < names.length then throw (.expected "all fields")
  return {
    tokenFile := ← fields.nullable "token_file" Json.asText
    clientCertPath := ← fields.nullable "client_cert_path" Json.asText
    clientKeyPath := ← fields.nullable "client_key_path" Json.asText
    caPath := ← fields.nullable "ca_path" Json.asText
    serverName := ← fields.nullable "server_name" Json.asText }

def asClientSettings (value : Json) : Decoded ClientSettings := do
  let fields ← fieldsOf
    ["cache_size", "default_timeout_seconds", "ready_timeout_seconds", "auth"] value
  let d : ClientSettings := {}
  return {
    cacheSize := ← fields.defaulted "cache_size" d.cacheSize asCount
    defaultTimeoutSeconds :=
      ← fields.defaulted "default_timeout_seconds" d.defaultTimeoutSeconds asCount
    readyTimeoutSeconds := ← fields.defaulted "ready_timeout_seconds" d.readyTimeoutSeconds asCount
    access := ← fields.defaulted "auth" d.access (Json.asDict asAccessSettings) }

def asEquivalentResource (value : Json) : Decoded EquivalentResource := do
  let fields ← fieldsOf ["group", "version", "resource", "subresource", "kind"] value
  return {
    group := ← fields.defaulted "group" "" Json.asText
    version := ← fields.required "version" Json.asText
    resource := ← fields.required "resource" Json.asText
    subresource := ← fields.defaulted "subresource" "" Json.asText
    kind := ← fields.required "kind" Json.asText }

/-- Reads settings out of an object. -/
def ofJson (value : Json) : Decoded Settings := do
  let fields ← value.asFields
  let d : Settings := {}
  return {
    listenAddr := ← fields.defaulted "listen_addr" d.listenAddr Json.asText
    tlsCertPath := ← fields.defaulted "tls_cert_path" d.tlsCertPath Json.asText
    tlsKeyPath := ← fields.defaulted "tls_key_path" d.tlsKeyPath Json.asText
    metricsAddr := ← fields.defaulted "metrics_addr" d.metricsAddr Json.asText
    logLevel := ← fields.defaulted "log_level" d.logLevel Json.asText
    webhooks := ← fields.defaulted "webhooks" d.webhooks asSourceSettings
    client := ← fields.defaulted "client" d.client asClientSettings
    equivalentResources := ← fields.defaulted "equivalent_resources" d.equivalentResources
      (Json.asList (Json.asList asEquivalentResource))
    namespaces := ← fields.defaulted "namespaces" d.namespaces
      (Json.asDict (Json.asDict Json.asText)) }

/-- Loads settings: what a file says, if there is one, and over it what the environment says. -/
def load (file : Option String) (environment : List (String × String)) :
    Except SettingsError Settings := do
  let base ← match file with
    | some text => (Yaml.readRecord text).mapError .malformed
    | none => pure []
  (ofJson ((Json.obj base).overlay (Environment.settings environment))).mapError .undecodable

/-! ## 2. writing -/

/-- A text or `null`. -/
def textOrNull : Option String → Json
  | some text => .str text
  | none => .null

def sourceJson (s : SourceSettings) : Json :=
  .obj [("path", .str s.path), ("reload_interval_seconds", .int s.reloadIntervalSeconds),
    ("source", .str s.source.text)]

def accessJson (s : AccessSettings) : Json :=
  .obj [("ca_path", textOrNull s.caPath), ("client_cert_path", textOrNull s.clientCertPath),
    ("client_key_path", textOrNull s.clientKeyPath), ("server_name", textOrNull s.serverName),
    ("token_file", textOrNull s.tokenFile)]

def clientJson (s : ClientSettings) : Json :=
  .obj [("auth", .obj (s.access.map accessJson).fields), ("cache_size", .int s.cacheSize),
    ("default_timeout_seconds", .int s.defaultTimeoutSeconds),
    ("ready_timeout_seconds", .int s.readyTimeoutSeconds)]

def equivalentResourceJson (r : EquivalentResource) : Json :=
  .obj [("group", .str r.group), ("kind", .str r.kind), ("resource", .str r.resource),
    ("subresource", .str r.subresource), ("version", .str r.version)]

def toJson (s : Settings) : Json :=
  .obj [("client", clientJson s.client),
    ("equivalent_resources",
      .arr (s.equivalentResources.map fun group => .arr (group.map equivalentResourceJson))),
    ("listen_addr", .str s.listenAddr), ("log_level", .str s.logLevel),
    ("metrics_addr", .str s.metricsAddr),
    ("namespaces", .obj (s.namespaces.map fun labels => .obj (labels.map .str).fields).fields),
    ("tls_cert_path", .str s.tlsCertPath), ("tls_key_path", .str s.tlsKeyPath),
    ("webhooks", sourceJson s.webhooks)]

end Settings

end Admission
