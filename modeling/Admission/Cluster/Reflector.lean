import Admission.Dict

/-!
# A local copy of the objects of a kind

The copy is kept by events.  A list announces itself, gives its objects and says when it is done:
only then it replaces the copy, so that a list that breaks off has changed nothing.  Afterwards
single objects are put in or taken out.  Objects are told apart by their names.
-/

namespace Admission

/-- What happens to the objects of a kind. -/
inductive StoreEvent (α : Type) where
  /-- A list begins. -/
  | listing
  /-- An object of the list. -/
  | listed (name : String) (object : α)
  /-- The list is complete. -/
  | listDone
  /-- An object is new or has changed. -/
  | applied (name : String) (object : α)
  | deleted (name : String)
  /-- Something went wrong; there may be another list. -/
  | failed
  deriving DecidableEq

/-- The copy, and the list that is being read. -/
structure Reflector (α : Type) where
  objects : Dict α
  listing : Dict α

namespace Reflector

variable {α : Type}

instance [DecidableEq α] : DecidableEq (Reflector α) := fun a b =>
  decidable_of_iff (a.objects = b.objects ∧ a.listing = b.listing) (by
    cases a; cases b; simp)

def empty : Reflector α := ⟨∅, ∅⟩

instance : Inhabited (Reflector α) := ⟨empty⟩

def handle (r : Reflector α) : StoreEvent α → Reflector α
  | .listing => { r with listing := ∅ }
  | .listed name object => { r with listing := r.listing.insert name object }
  | .listDone => ⟨r.listing, ∅⟩
  | .applied name object => { r with objects := r.objects.insert name object }
  | .deleted name => { r with objects := r.objects.erase name }
  | .failed => r

end Reflector

end Admission
