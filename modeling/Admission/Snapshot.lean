import Admission.Webhook.Configuration

/-!
# The merged configuration

A `Snapshot` holds the webhooks of all configurations of one kind: configurations in the order of
their names, equal names in the order given, webhooks in the order declared.  It is replaced as a
whole.  Whether it is complete is a separate flag that, once set, stays set.
-/

namespace Admission

/-- The webhooks of one kind that are in force. -/
structure Snapshot where
  webhooks : List Webhook
  /-- Whether a complete list has been published. -/
  synced : Bool
  /-- The number the next entry gets. -/
  nextEntry : Nat
  deriving DecidableEq

namespace Snapshot

/-- The webhooks of configurations, merged. -/
def merge (configurations : List Configuration) : List Webhook :=
  (configurations.mergeSort fun a b => a.name ≤ b.name).flatMap (·.webhooks)

/-- Nothing published yet. -/
def initial : Snapshot := ⟨[], false, 0⟩

instance : Inhabited Snapshot := ⟨initial⟩

/-- Gives every entry a number of its own. -/
def number (next : Nat) : List Webhook → List Webhook
  | [] => []
  | hook :: rest => { hook with entry := next } :: number (next + 1) rest

/-- Replaces the webhooks by those of configurations. -/
def publish (snapshot : Snapshot) (configurations : List Configuration) : Snapshot :=
  let merged := merge configurations
  { snapshot with
    webhooks := number snapshot.nextEntry merged
    nextEntry := snapshot.nextEntry + merged.length }

def markSynced (snapshot : Snapshot) : Snapshot := { snapshot with synced := true }

end Snapshot

end Admission
