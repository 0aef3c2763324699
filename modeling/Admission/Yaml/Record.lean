import Admission.Yaml.Tree

/-!
# YAML documents as records

A text of one document that is a mapping, or of none, is read as nested records.  Their keys are
the texts of scalars, whatever these would say as values; of equal keys the last one counts.  No
value carries a tag of its own.
-/

namespace Admission.Yaml

/-- The key that a node is. -/
def keyOf : Tree → Except Fault String
  | .scalar _ _ text => .ok text
  | _ => .error .arrangement

mutual

/-- The value that a node is. -/
def recordValue : Tree → Except Fault Json
  | .scalar tag plain text =>
    if (localTag? tag).isSome then .error .tag else Scalar.value tag plain text
  | .sequence tag items =>
    if (localTag? tag).isSome then .error .tag else .arr <$> recordItems items
  | .mapping tag pairs =>
    if (localTag? tag).isSome then .error .tag
    else do return .obj (Fields.sort (← recordFields pairs))

def recordItems : List Tree → Except Fault (List Json)
  | [] => .ok []
  | item :: rest => do return (← recordValue item) :: (← recordItems rest)

def recordFields : List (Tree × Tree) → Except Fault (List (String × Json))
  | [] => .ok []
  | (key, value) :: rest => do
    return (← keyOf key, ← recordValue value) :: (← recordFields rest)

end

/-- Reads a text as one record. -/
def readRecord (text : String) : Except Fault (Fields Json) := do
  match ← trees text with
  | [] | [.scalar _ _ ""] => return []
  | [.mapping _ pairs] => return Fields.sort (← recordFields pairs)
  | [_] => throw .arrangement
  | _ => throw .documents

end Admission.Yaml
