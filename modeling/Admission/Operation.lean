import Admission.Json.Decode

/-!
# Operations of a request
-/

namespace Admission

/-- What a request does to its resource. -/
inductive Operation where
  | create
  | update
  | delete
  | connect
  deriving DecidableEq, Repr, Inhabited

namespace Operation

def all : List Operation := [.create, .update, .delete, .connect]

/-- The name, upper case. -/
def text : Operation → String
  | .create => "CREATE"
  | .update => "UPDATE"
  | .delete => "DELETE"
  | .connect => "CONNECT"

/-- The operation of a name in any ASCII case. -/
def ofText? (name : String) : Option Operation :=
  let upper := String.ofList (name.toList.map Char.toUpper)
  all.find? (fun operation => operation.text = upper)

/-- Reads the name, upper case only; it may also stand as the one key of an object, above `null`. -/
def ofJson (value : Json) : Decoded Operation := do
  let name ← match value with
    | .obj [(name, .null)] => .ok name
    | value => value.asText
  match all.find? (fun operation => operation.text = name) with
  | some operation => .ok operation
  | none => .error (.expected "an operation")

end Operation

end Admission
