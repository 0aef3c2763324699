import Admission.Manifest
import Admission.Snapshot

/-!
# Configurations from a file

The manifest in a file is read at the start and then once in every interval.  One that loads
replaces both snapshots, whatever it holds, and completes them; one that does not leaves both as
they are.

* `FileSource.reloadAll` is the state after any number of readings.
-/

namespace Admission

/-- The two snapshots that a manifest fills. -/
structure FileSource where
  mutating : Snapshot := .initial
  validating : Snapshot := .initial
  deriving DecidableEq

namespace FileSource

/-- Puts the configurations of a manifest in force. -/
def publish (source : FileSource) (manifest : Manifest) : FileSource where
  mutating := (source.mutating.publish manifest.mutating).markSynced
  validating := (source.validating.publish manifest.validating).markSynced

/-- One reading: a manifest that does not load changes nothing. -/
def reload (source : FileSource) (reading : Except ManifestError Manifest) : FileSource :=
  match reading with
  | .ok manifest => source.publish manifest
  | .error _ => source

/-- One reading after another. -/
def reloadAll (source : FileSource) (readings : List (Except ManifestError Manifest)) :
    FileSource :=
  readings.foldl reload source

end FileSource

/-- Whether a file is being watched. -/
inductive WatchState where
  | idle
  /-- The time since the last reading. -/
  | running (elapsed : Time.Span)
  | stopped
  deriving DecidableEq, Repr

/-- A file that is read once in every interval. -/
structure FileWatch where
  interval : Time.Span
  source : FileSource := {}
  state : WatchState := .idle
  deriving DecidableEq

namespace FileWatch

def isRunning (w : FileWatch) : Bool :=
  match w.state with
  | .running _ => true
  | _ => false

/-- Starts with a reading.  A watch that was stopped before does not start, and an interval of no
length is none. -/
def start (w : FileWatch) (contents : Option String) : FileWatch :=
  match w.state with
  | .idle =>
    if w.interval.nanoseconds = 0 then { w with state := .stopped }
    else { w with source := w.source.reload (Manifest.load contents), state := .running ⟨0⟩ }
  | _ => w

/-- Lets time pass while the file does not change: when a reading falls due, however often, the
file is read. -/
def advance (w : FileWatch) (passed : Time.Span) (contents : Option String) : FileWatch :=
  match w.state with
  | .running elapsed =>
    let total := elapsed.nanoseconds + passed.nanoseconds
    if total < w.interval.nanoseconds then { w with state := .running ⟨total⟩ }
    else { w with
      source := w.source.reload (Manifest.load contents)
      state := .running ⟨total % w.interval.nanoseconds⟩ }
  | _ => w

def stop (w : FileWatch) : FileWatch := { w with state := .stopped }

end FileWatch

end Admission
