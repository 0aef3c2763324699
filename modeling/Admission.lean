import Admission.Client.Caller
import Admission.Cluster.Watch
import Admission.FileWatch
import Admission.Gateway
import Admission.Main
import Admission.Manifest
import Admission.Service
import Admission.Settings.Access
import Admission.Settings.Format
import Admission.Proofs.Dispatch.Mutating
import Admission.Proofs.Dispatch.Validating
import Admission.Proofs.Equivalence
import Admission.Proofs.Selection
import Admission.Proofs.Dict
import Admission.Proofs.Json.Number
import Admission.Proofs.Json.Proper
import Admission.Proofs.Json.Patch
import Admission.Proofs.Object
import Admission.Proofs.Dispatch.Fidelity
import Admission.Proofs.Refusal
import Admission.Proofs.Json.Diff
import Admission.Proofs.Gateway.Answer
import Admission.Proofs.Object.Same
import Admission.Proofs.Time
import Admission.Proofs.Object.Tracks
import Admission.Proofs.Object.Posted
import Admission.Proofs.Gateway.Patch
import Admission.Proofs.Dispatch.Kinds
import Admission.Proofs.Dispatch.OnePolicy
import Admission.Proofs.Dispatch.FailOpen
import Admission.Proofs.Dispatch.Causes
import Admission.Proofs.Dispatch.DryRun
import Admission.Proofs.Cluster.Source
import Admission.Proofs.Dispatch.Notes
import Admission.Proofs.Dispatch.Collected
import Admission.Proofs.FileSource
import Admission.Proofs.ClientCache
import Admission.Proofs.Representation
import Admission.Proofs.Gateway.Accounts
import Admission.Proofs.Client.Dial
import Admission.Proofs.Client.Credentials
import Admission.Proofs.Client.Connections
import Admission.Proofs.Dispatch.Measured
import Admission.Proofs.Selector
import Admission.Proofs.Selection.Governing
import Admission.Proofs.Snapshot.Readers
import Admission.Proofs.Review.Text
import Admission.Proofs.Dispatch.Ways
import Admission.Proofs.Dispatch.Borrowed
import Admission.Proofs.Client.Deadline
import Admission.Proofs.Client.Barred
