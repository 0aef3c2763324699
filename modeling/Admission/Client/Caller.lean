import Admission.Client.Exchange
import Admission.Dispatch.Call

/-!
# Calling webhooks over a network

The caller that gets its clients from a manager and exchanges reviews over their connections.
-/

namespace Admission

/-- The clients there are, the connections each of them keeps idle, and the other side. -/
structure Traffic (σ : Type) where
  store : ClientStore := {}
  /-- The idle connections of a client, by its number. -/
  pools : List (Nat × Pool) := []
  world : σ

namespace Traffic

variable {σ : Type}

/-- The idle connections of a client. -/
def pool (traffic : Traffic σ) (client : Nat) : Pool := (traffic.pools.lookup client).getD []

def withPool (traffic : Traffic σ) (client : Nat) (pool : Pool) (world : σ) : Traffic σ :=
  { traffic with
    pools := (client, pool) :: traffic.pools.filter (·.1 ≠ client)
    world := world }

/-- Posts a body on a client; gives the bytes of the answer. -/
def post (network : Network σ) (client : Nat) (body : Json) (timeout : Time.Span)
    (traffic : Traffic σ) : Except ClientError (List UInt8) × Traffic σ :=
  match traffic.store.built[client]? with
  | none => (.error (.notConfigured "client"), traffic)
  | some known =>
    let (reply, pool, world) :=
      known.postBytes network body timeout (traffic.pool client) traffic.world
    (reply, traffic.withPool client pool world)

end Traffic

/-- Reads the bytes of an answer as a review. -/
def Review.ofBytes (bytes : List UInt8) : Except ClientError Review :=
  match Review.ofChars (Utf8.chars none bytes) with
  | .ok review => .ok review
  | .error e => .error (.decode e.message)

/-- Calls webhooks over a network; `clock` tells the time of the other side. -/
def Caller.overNetwork {σ : Type} (manager : ClientManager) (network : Network σ)
    (clock : σ → Time.Span) (defaultTimeout : Time.Span) : Caller (Traffic σ) where
  Handle := Nat
  connect hook traffic :=
    let (client, store) := manager.clientOf hook traffic.store
    (client, { traffic with store := store })
  post client review timeout traffic :=
    let (reply, after) := traffic.post network client review.toJson timeout
    (⟨reply.bind Review.ofBytes,
      ⟨(clock after.world).nanoseconds - (clock traffic.world).nanoseconds⟩⟩, after)
  defaultTimeout := defaultTimeout

end Admission
