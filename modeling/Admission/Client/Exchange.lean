import Admission.Client.Cache
import Admission.Json.Reader
import Admission.Text.Utf8

/-!
# Exchanges and the connections they use

A client posts JSON and reads JSON.  A connection that is still open after an exchange is kept idle,
up to eight of them, and used again; one that has gone stale is dropped and the next one is tried,
and only when none is left a new connection is dialled.  Everything about the other side is asked of
a `Network`: what dialling gives, whether an idle connection is ready, and how a request fares.
-/

namespace Admission

/-- The number of a connection. -/
abbrev Connection := Nat

/-- A request as it goes out. -/
structure HttpRequest where
  authority : String
  /-- The path and query of the request line. -/
  target : String
  bearerToken : Option String
  body : Json
  deriving DecidableEq

/-- What becomes of dialling. -/
inductive Dialled where
  | opened (connection : Connection)
  | refused (reason : String)
  /-- A connection that could not be secured. -/
  | unsecured (reason : String)
  /-- No answer at all. -/
  | silence

/-- What becomes of a request on a connection. -/
inductive Sent where
  | reply (status : Nat) (body : List UInt8)
  /-- The connection was closed before the request went out. -/
  | canceled
  | failed (reason : String)
  /-- No answer at all. -/
  | silence

/-- The other side: a state and what it does. -/
structure Network (σ : Type) where
  dial : Endpoint → Option SecureName → σ → Dialled × σ
  ready : Connection → σ → Bool × σ
  send : Connection → HttpRequest → σ → Sent × σ
  /-- Whether a connection is known to be closed. -/
  isClosed : Connection → σ → Bool

/-- The connections a client keeps idle, the last used first. -/
abbrev Pool := List Connection

namespace Pool

/-- The most connections that are kept idle. -/
def limit : Nat := 8

/-- Keeps a connection unless it is closed or there are enough. -/
def release (closed : Bool) (connection : Connection) (pool : Pool) : Pool :=
  if closed || limit ≤ pool.length then pool else connection :: pool

end Pool

namespace Client

/-- The most bytes of a refusing answer that are shown. -/
def maxErrorBody : Nat := 512

/-- The request target: the path with one leading slash at least, and a hint of the timeout in whole
seconds, rounded up, as the last parameter of its query. -/
def targetText (path : String) (timeout : Time.Span) : String :=
  let path := if path.toList.head? = some '/' then path else "/" ++ path
  let mark := if path.toList.contains '?' then "&" else "?"
  s!"{path}{mark}timeout={timeout.secondsUp}s"

/-- The request target, if it is well-formed. -/
def requestTarget? (path : String) (timeout : Time.Span) : Option String :=
  (Net.Uri.ofText? (targetText path timeout)).map Net.Uri.target

/-- Whether a text may stand in a header: no control characters but the tab. -/
def isHeaderText (text : String) : Bool :=
  text.toList.all fun c => (32 ≤ c.toNat && c.toNat ≠ 127) || c = '\t'

/-- The request, if its headers can be written. -/
def request? (client : Client) (target : String) (body : Json) : Option HttpRequest :=
  if isHeaderText client.authority && (client.bearerToken.map isHeaderText).getD true then
    some ⟨client.authority, target, client.bearerToken, body⟩
  else none

/-- What the outcome of a request is to the caller. -/
def received (timeout : Time.Span) : Sent → Except ClientError (List UInt8)
  | .reply status body =>
    if 200 ≤ status ∧ status < 300 then .ok body
    else .error (.status status (Utf8.decodeLossy (body.take maxErrorBody)))
  | .canceled => .error (.http "operation was canceled")
  | .failed reason => .error (.http reason)
  | .silence => .error (.timeout timeout)

variable {σ : Type}

/-- A request on a fresh connection. -/
def sendFresh (client : Client) (network : Network σ) (target : String) (body : Json)
    (timeout : Time.Span) (pool : Pool) (world : σ) :
    Except ClientError (List UInt8) × Pool × σ :=
  match client.target.resolve with
  | .error e => (.error e, pool, world)
  | .ok endpoint =>
    match network.dial endpoint client.tls world with
    | (.refused reason, world) => (.error (.connect endpoint.text reason), pool, world)
    | (.unsecured reason, world) => (.error (.handshake client.authority reason), pool, world)
    | (.silence, world) => (.error (.timeout timeout), pool, world)
    | (.opened connection, world) =>
      match client.request? target body with
      | none => (.error (.invalidRequest "failed to parse header value"), pool, world)
      | some request =>
        match network.send connection request world with
        | (.silence, world) => (.error (.timeout timeout), pool, world)
        | (sent, world) =>
          (received timeout sent, Pool.release (network.isClosed connection world) connection pool,
            world)

/-- A request on the idle connections one after another, and on a fresh one when they are all
stale.  What is left of the pool is what was not tried. -/
def send (client : Client) (network : Network σ) (target : String) (body : Json)
    (timeout : Time.Span) : Pool → σ → Except ClientError (List UInt8) × Pool × σ
  | [], world => client.sendFresh network target body timeout [] world
  | connection :: pool, world =>
    match network.ready connection world with
    | (false, world) => send client network target body timeout pool world
    | (true, world) =>
      match client.request? target body with
      | none => (.error (.invalidRequest "failed to parse header value"), pool, world)
      | some request =>
        match network.send connection request world with
        | (.canceled, world) => send client network target body timeout pool world
        | (.silence, world) => (.error (.timeout timeout), pool, world)
        | (sent, world) =>
          (received timeout sent, Pool.release (network.isClosed connection world) connection pool,
            world)

/-- Posts a body; gives the bytes of the answer. -/
def postBytes (client : Client) (network : Network σ) (body : Json) (timeout : Time.Span)
    (pool : Pool) (world : σ) : Except ClientError (List UInt8) × Pool × σ :=
  match requestTarget? client.path timeout with
  | none => (.error (.invalidRequest "invalid uri"), pool, world)
  | some target => client.send network target body timeout pool world

end Client

end Admission
