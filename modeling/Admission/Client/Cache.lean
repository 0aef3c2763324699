import Admission.Client.Basic

/-!
# The cache of clients

Clients are built once and kept, up to a number of them; the one not used for longest makes room.
What a client is kept under is everything that affects its connections, so the webhook's name does
not count.  A client that was built has a number, by which two results are known to be the very same
client.  An entry of a snapshot that has got a client holds on to it.
-/

namespace Admission

/-- What a client is kept under. -/
structure CacheKey where
  url : Option String
  service : Option ServiceReference
  caBundle : List UInt8
  deriving DecidableEq, Repr

/-- The part of a configuration that affects connections. -/
def ClientConfig.cacheKey (config : ClientConfig) : CacheKey :=
  ⟨config.url, config.service, config.caBundle⟩

/-- All clients that were built, those that are kept, and who holds on to which. -/
structure ClientStore where
  /-- The clients by their numbers. -/
  built : List Client := []
  /-- The numbers that are kept, the last used first. -/
  kept : List (CacheKey × Nat) := []
  /-- The clients that entries of snapshots hold. -/
  held : List ((WebhookKind × Nat) × Nat) := []
  deriving DecidableEq

/-- Builds clients and keeps up to `capacity` of them. -/
structure ClientManager where
  builder : ClientBuilder
  capacity : Nat

namespace ClientManager

/-- The capacity when zero is asked for. -/
def defaultCapacity : Nat := 200

/-- A manager with a capacity, zero standing for the default. -/
def withCapacity (builder : ClientBuilder) (capacity : Nat) : ClientManager :=
  ⟨builder, if capacity = 0 then defaultCapacity else capacity⟩

/-- The number of a client for a configuration: the one that is kept, now the last used, or one
that is built and kept.  A failure to build leaves everything as it was. -/
def clientFor (manager : ClientManager) (config : ClientConfig) (store : ClientStore) :
    Except ClientError Nat × ClientStore :=
  let key := config.cacheKey
  match store.kept.lookup key with
  | some number =>
    (.ok number, { store with kept := (key, number) :: store.kept.filter (·.1 ≠ key) })
  | none =>
    match manager.builder.build config with
    | .error e => (.error e, store)
    | .ok client =>
      let number := store.built.length
      (.ok number,
        { store with
          built := store.built ++ [client]
          kept := ((key, number) :: store.kept).take manager.capacity })

/-- The number of the client of a snapshot's entry: the one it holds, or one it gets and holds. -/
def clientOf (manager : ClientManager) (hook : Webhook) (store : ClientStore) :
    Except ClientError Nat × ClientStore :=
  match store.held.lookup (hook.kind, hook.entry) with
  | some number => (.ok number, store)
  | none =>
    match manager.clientFor hook.client store with
    | (.ok number, store) =>
      (.ok number, { store with held := ((hook.kind, hook.entry), number) :: store.held })
    | (.error e, store) => (.error e, store)

end ClientManager

end Admission
