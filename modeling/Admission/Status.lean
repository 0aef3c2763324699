import Admission.Json.Decode

/-!
# Statuses and the errors made of them

A `Status` tells a caller why a request was refused.  The constructors of a `StatusError` below give
each kind of refusal its code, reason and wording; `StatusError.webhookDenied` makes sure that the
answer of a refusing webhook never reads as a success.
-/

namespace Admission

/-- Why and how a request ended. -/
structure Status where
  /-- `Failure` or `Success`. -/
  status : String
  message : String
  /-- A word for the kind of refusal. -/
  reason : String
  code : Int
  deriving DecidableEq, Repr, Inhabited

namespace Status

def failure : String := "Failure"

def success : String := "Success"

/-- Texts default to the empty one and the code to zero; the code fits 32 bits. -/
def ofJson (value : Json) : Decoded Status := do
  let fields ← value.asRecord ["status", "message", "reason", "code"]
  return ⟨← fields.defaulted "status" "" Json.asText, ← fields.defaulted "message" "" Json.asText,
    ← fields.defaulted "reason" "" Json.asText, ← fields.defaulted "code" 0 Json.asInt32⟩

/-- Empty texts are left out, the code is always there. -/
def toJson (s : Status) : Json :=
  .ofSome [("code", some (.int s.code)), ("message", Json.nonempty s.message),
    ("reason", Json.nonempty s.reason), ("status", Json.nonempty s.status)]

end Status

/-- A refusal. -/
structure StatusError where
  status : Status
  deriving DecidableEq, Repr, Inhabited

namespace StatusError

def text (e : StatusError) : String := e.status.message

def code (e : StatusError) : Int := e.status.code

/-- A failure with a code, a reason and a message. -/
def failure (code : Int) (reason message : String) : StatusError :=
  ⟨⟨Status.failure, message, reason, code⟩⟩

def internal (cause : String) : StatusError :=
  failure 500 "InternalError" s!"Internal error occurred: {cause}"

def badRequest (message : String) : StatusError := failure 400 "BadRequest" message

def forbidden (resource name cause : String) : StatusError :=
  failure 403 "Forbidden"
    (if name = "" then s!"{resource} is forbidden: {cause}"
     else s!"{resource} \"{name}\" is forbidden: {cause}")

def notFound (resource name : String) : StatusError :=
  failure 404 "NotFound" s!"{resource} \"{name}\" not found"

def dryRunUnsupported (webhook : String) : StatusError :=
  badRequest s!"admission webhook \"{webhook}\" does not support dry run"

/-- The refusal that a webhook's verdict stands for.  The code is raised to at least 400, a status
that is empty or a success becomes a failure, and the message always says who refused. -/
def webhookDenied (webhook : String) (result : Option Status) : StatusError :=
  let deniedBy := s!"admission webhook \"{webhook}\" denied the request"
  let given := result.getD ⟨"", "", "", 0⟩
  ⟨{ status := if given.status = "" ∨ given.status = Status.success then Status.failure
       else given.status
     message :=
       if given.message ≠ "" then s!"{deniedBy}: {given.message}"
       else if given.reason ≠ "" then s!"{deniedBy}: {given.reason}"
       else s!"{deniedBy} without explanation"
     reason := given.reason
     code := if given.code < 400 then 400 else given.code }⟩

end StatusError

end Admission
