import Admission.Json.Patch

/-!
# The patch between two values

Objects are compared key by key: what the new one has is added or changed, then what it lacks is
removed.  Arrays are compared position by position: items beyond the new end are removed one after
another at that end, items beyond the old end are added.  Anything else that is not the same is
replaced.
-/

namespace Admission.Json

/-- The removal of the keys of one object that another one lacks. -/
def removals (path : Pointer) (new old : List (String × Json)) : Patch :=
  (old.filter fun pair => (Fields.get? pair.1 new).isNone).map fun pair =>
    .remove (path ++ [pair.1])

mutual

/-- The patch at a path from an old value to a new one. -/
def diffAt (path : Pointer) (old : Json) : Json → Patch
  | .obj new =>
    match old with
    | .obj fields => diffFields path fields new ++ removals path new fields
    | _ => [.replace path (.obj new)]
  | .arr new =>
    match old with
    | .arr items => diffItems path 0 items new
    | _ => [.replace path (.arr new)]
  | new => if old.same new then [] else [.replace path new]

/-- What the new object adds and changes. -/
def diffFields (path : Pointer) (old : List (String × Json)) : List (String × Json) → Patch
  | [] => []
  | (key, value) :: rest =>
    (match Fields.get? key old with
      | some before => diffAt (path ++ [key]) before value
      | none => [.add (path ++ [key]) value]) ++ diffFields path old rest

/-- The patch from old items to new ones, from a position on. -/
def diffItems (path : Pointer) (position : Nat) (old : List Json) : List Json → Patch
  | [] => old.map fun _ => .remove (path ++ [toString position])
  | value :: rest =>
    (match old with
      | before :: _ => diffAt (path ++ [toString position]) before value
      | [] => [.add (path ++ [toString position]) value]) ++
      diffItems path (position + 1) old.tail rest

end

/-- The patch that takes an old value to a new one. -/
def diff (old new : Json) : Patch := diffAt [] old new

end Admission.Json
