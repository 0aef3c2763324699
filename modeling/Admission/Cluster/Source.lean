import Admission.Cluster.Reflector
import Admission.Selector
import Admission.Snapshot

/-!
# Configurations from a cluster

The configuration objects of a cluster are copied, and the snapshot follows the copy: it is
published when a list is complete and after every single change, never in the middle of a list.
Namespaces are copied in the same way for their labels.
-/

namespace Admission

/-- The configurations of one kind in a cluster. -/
structure ClusterSource where
  reflector : Reflector Configuration := .empty
  snapshot : Snapshot := .initial
  deriving DecidableEq

namespace ClusterSource

/-- The configurations of the copy. -/
def configurations (r : Reflector Configuration) : List Configuration :=
  r.objects.fields.map (·.2)

/-- Copies an event and publishes what it changed; the copy may give its objects in any order. -/
def handleIn (arrange : List Configuration → List Configuration) (source : ClusterSource)
    (event : StoreEvent Configuration) : ClusterSource :=
  let reflector := source.reflector.handle event
  let published := source.snapshot.publish (arrange (configurations reflector))
  let snapshot := match event with
    | .listDone => published.markSynced
    | .applied _ _ | .deleted _ => published
    | .listing | .listed _ _ | .failed => source.snapshot
  ⟨reflector, snapshot⟩

/-- Copies an event and publishes what it changed. -/
def handle (source : ClusterSource) (event : StoreEvent Configuration) : ClusterSource :=
  source.handleIn id event

end ClusterSource

/-- The labels of the namespaces of a cluster. -/
def Reflector.namespaceLabels (r : Reflector Labels) : NamespaceLister := r.objects.get?

end Admission
