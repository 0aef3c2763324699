import Admission.Webhook.Configuration
import Admission.Yaml.Value

/-!
# Manifests of webhook configurations

A manifest is a text of YAML documents.  Its documents of the two kinds of webhook configurations
count, in their order; documents of other kinds are passed over.  One document that is malformed or
cannot be decoded spoils the manifest.
-/

namespace Admission

/-- The configurations of a manifest. -/
structure Manifest where
  mutating : List Configuration := []
  validating : List Configuration := []
  deriving DecidableEq

/-- Why a manifest cannot be had. -/
inductive ManifestError where
  /-- There is no such file, or it cannot be read as text. -/
  | unreadable
  | malformed (fault : Yaml.Fault)
  | undecodable (cause : DecodeError)
  deriving DecidableEq, Repr

/-- The wording, for a file. -/
def ManifestError.message (path : String) : ManifestError → String
  | .unreadable => s!"failed to read {path}"
  | .malformed fault => s!"failed to parse {path}: {fault.message}"
  | .undecodable cause => s!"failed to parse {path}: {cause.message}"

namespace Manifest

/-- The kind of configuration a document says it is. -/
def kindOf? (document : Yaml.Value) : Option WebhookKind := do
  let kind ← (← document.field? "kind").text?
  [WebhookKind.mutating, .validating].find? fun k => Configuration.kindName k = kind

/-- Reads a document of one of the two kinds. -/
def configuration? (document : Yaml.Value) : Except ManifestError (Option Configuration) :=
  match kindOf? document with
  | none => .ok none
  | some kind =>
    match Configuration.read Json.nullAsEmpty kind document.toJson with
    | .ok configuration => .ok (some configuration)
    | .error cause => .error (.undecodable cause)

/-- The configurations sorted by kind, each kind in its order. -/
def ofConfigurations (configurations : List Configuration) : Manifest where
  mutating := configurations.filter (·.kind = .mutating)
  validating := configurations.filter (·.kind = .validating)

/-- Reads a text as manifest. -/
def ofText (text : String) : Except ManifestError Manifest :=
  match Yaml.Value.readAll text with
  | .error fault => .error (.malformed fault)
  | .ok documents => do
    return ofConfigurations ((← documents.mapM configuration?).filterMap id)

/-- Reads the manifest that a file holds, if there is such a file. -/
def load (contents : Option String) : Except ManifestError Manifest :=
  match contents with
  | some text => ofText text
  | none => .error .unreadable

end Manifest

end Admission
