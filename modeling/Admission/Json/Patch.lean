import Admission.Json.Decode
import Admission.Json.Pointer
import Admission.Json.Reader

/-!
# JSON patches

A patch is a list of operations, each working on the outcome of those before it.  If one fails, the
whole patch fails.
-/

namespace Admission

/-- One step of a patch. -/
inductive PatchOperation where
  | add (path : Pointer) (value : Json)
  | remove (path : Pointer)
  | replace (path : Pointer) (value : Json)
  | move (source path : Pointer)
  | copy (source path : Pointer)
  | test (path : Pointer) (value : Json)
  deriving DecidableEq

/-- Why an operation fails. -/
inductive PatchFault where
  | testFailed
  | invalidSource
  | invalidPath
  | moveInside
  deriving DecidableEq, Repr

def PatchFault.message : PatchFault → String
  | .testFailed => "value did not match"
  | .invalidSource => "\"from\" path is invalid"
  | .invalidPath => "path is invalid"
  | .moveInside => "cannot move the value inside itself"

/-- The operation of a patch that fails, by its position, and why. -/
structure PatchError where
  operation : Nat
  path : Pointer
  fault : PatchFault
  deriving DecidableEq, Repr

def PatchError.message (e : PatchError) : String :=
  s!"operation \x27/{e.operation}\x27 failed at path \x27{e.path.text}\x27: {e.fault.message}"

/-- The operations of a patch in their order. -/
abbrev Patch := List PatchOperation

namespace PatchOperation

/-- Where an operation has its effect. -/
def path : PatchOperation → Pointer
  | .add path _ => path
  | .remove path => path
  | .replace path _ => path
  | .move _ path => path
  | .copy _ path => path
  | .test path _ => path

/-- Puts a value under the last step of a path: under a key of an object, or before an item of an
array, `-` standing for its end. -/
def put (step : String) (value : Json) : Json → Except PatchFault Json
  | .obj fields => .ok (.obj (Fields.insert step value fields))
  | .arr items =>
    if step = "-" then .ok (.arr (items ++ [value]))
    else
      match Pointer.index? (items.length + 1) step with
      | some i => .ok (.arr (items.take i ++ value :: items.drop i))
      | none => .error .invalidPath
  | _ => .error .invalidPath

/-- Takes away what is under the last step of a path. -/
def drop (step : String) : Json → Except PatchFault Json
  | .obj fields =>
    if (Fields.get? step fields).isSome then .ok (.obj (Fields.erase step fields))
    else .error .invalidPath
  | .arr items =>
    match Pointer.index? items.length step with
    | some i => .ok (.arr (items.eraseIdx i))
    | none => .error .invalidPath
  | _ => .error .invalidPath

/-- Adds a value at a path. -/
def addAt (path : Pointer) (value document : Json) : Except PatchFault Json :=
  match path.getLast? with
  | none => .ok value
  | some step => document.modifyAt .invalidPath (put step value) path.dropLast

/-- Removes the value at a path; of the whole document `null` is left. -/
def removeAt (path : Pointer) (document : Json) : Except PatchFault Json :=
  match path.getLast? with
  | none => .ok .null
  | some step => document.modifyAt .invalidPath (drop step) path.dropLast

/-- One operation on a document. -/
def apply (document : Json) : PatchOperation → Except PatchFault Json
  | .add path value => addAt path value document
  | .remove path => removeAt path document
  | .replace path value => document.modifyAt .invalidPath (fun _ => .ok value) path
  | .move source path =>
    if source.isPrefixOf path ∧ source ≠ path then .error .moveInside
    else
      match document.at? source, removeAt source document with
      | some value, .ok rest => addAt path value rest
      | _, _ => .error .invalidSource
  | .copy source path =>
    match document.at? source with
    | some value => addAt path value document
    | none => .error .invalidSource
  | .test path value =>
    match document.at? path with
    | some found => if found.same value then .ok document else .error .testFailed
    | none => .error .invalidPath

def pointerOfJson (value : Json) : Decoded Pointer := do
  match Pointer.ofText? (← value.asText) with
  | some pointer => .ok pointer
  | none => .error (.expected "a JSON pointer")

/-- The name of an operation and the rest of it: from an object by the key `op`, which is there once;
from an array by position. -/
def named : Json → Decoded (String × Json)
  | .obj fields => do
    match fields.filter (·.1 = "op") with
    | [] => .error (.missing "op")
    | [(_, name)] => return (← name.asText, .obj (fields.filter (·.1 ≠ "op")))
    | _ => .error (.repeated "op")
  | .arr [] => .error (.missing "op")
  | .arr (name :: rest) => return (← name.asText, .arr rest)
  | _ => .error (.expected "a patch operation")

/-- An operation at a path with a value, which is taken in its canonical form. -/
def withValue (make : Pointer → Json → PatchOperation) (rest : Json) : Decoded PatchOperation := do
  let fields ← rest.asRecord ["path", "value"]
  return make (← fields.required "path" pointerOfJson)
    (← fields.required "value" fun value => .ok value.canonical)

/-- An operation from one path to another. -/
def withSource (make : Pointer → Pointer → PatchOperation) (rest : Json) :
    Decoded PatchOperation := do
  let fields ← rest.asRecord ["from", "path"]
  return make (← fields.required "from" pointerOfJson) (← fields.required "path" pointerOfJson)

/-- An operation at a path alone. -/
def withPath (make : Pointer → PatchOperation) (rest : Json) : Decoded PatchOperation := do
  let fields ← rest.asRecord ["path"]
  return make (← fields.required "path" pointerOfJson)

/-- Reads an operation.  What belongs to it may not be repeated; all else is passed over. -/
def ofJson (value : Json) : Decoded PatchOperation := do
  let (name, rest) ← named value
  match name with
  | "add" => withValue .add rest
  | "remove" => withPath .remove rest
  | "replace" => withValue .replace rest
  | "move" => withSource .move rest
  | "copy" => withSource .copy rest
  | "test" => withValue .test rest
  | _ => .error (.expected "a patch operation")

/-- The object an operation is written as: its name, its source, its path and its value. -/
def toJson : PatchOperation → Json
  | .add path value =>
    .obj [("op", .str "add"), ("path", .str path.text), ("value", value)]
  | .remove path => .obj [("op", .str "remove"), ("path", .str path.text)]
  | .replace path value =>
    .obj [("op", .str "replace"), ("path", .str path.text), ("value", value)]
  | .move source path =>
    .obj [("op", .str "move"), ("from", .str source.text), ("path", .str path.text)]
  | .copy source path =>
    .obj [("op", .str "copy"), ("from", .str source.text), ("path", .str path.text)]
  | .test path value =>
    .obj [("op", .str "test"), ("path", .str path.text), ("value", value)]

end PatchOperation

namespace Patch

/-- The operations from a position on, one after another. -/
def applyFrom (position : Nat) : Patch → Json → Except PatchError Json
  | [], document => .ok document
  | operation :: rest, document =>
    match operation.apply document with
    | .ok document => applyFrom (position + 1) rest document
    | .error fault => .error ⟨position, operation.path, fault⟩

/-- The whole patch. -/
def apply (patch : Patch) (document : Json) : Except PatchError Json := applyFrom 0 patch document

def ofJson (value : Json) : Decoded Patch := value.asList PatchOperation.ofJson

/-- Reads a patch from text. -/
def ofText (text : String) : Decoded Patch :=
  match Json.readRaw? text with
  | some value => ofJson value
  | none => .error .malformed

def toJson (patch : Patch) : Json := .arr (patch.map PatchOperation.toJson)

end Patch

end Admission
