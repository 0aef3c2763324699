import Admission.FileWatch
import Admission.Proofs.Results
import Admission.Proofs.Snapshot
import Mathlib.Data.List.Induction

/-!
# What a file source holds

A manifest is read to its end before anything of it is published, so what spoils it, in whatever document,
leaves both snapshots as they were; one that is not spoilt replaces both.  Hence both snapshots are always
those of the last manifest that was not spoilt, and both flags say that there was one
(`FileSource.holds_last_manifest`).
-/

namespace Admission

/-! ## 1. Manifests -/

namespace Manifest

/-- The configurations of a kind. -/
def ofKind (manifest : Manifest) : WebhookKind → List Configuration
  | .mutating => manifest.mutating
  | .validating => manifest.validating

theorem ext_ofKind {manifest other : Manifest} (h : ∀ kind, manifest.ofKind kind = other.ofKind kind) :
    manifest = other := by
  cases manifest
  cases other
  exact congr (congrArg Manifest.mk (h .mutating)) (h .validating)

theorem ofKind_ofConfigurations (configurations : List Configuration) (kind : WebhookKind) :
    (ofConfigurations configurations).ofKind kind = configurations.filter (·.kind = kind) := by
  cases kind <;> rfl

/-- A document says that it is a configuration of a kind. -/
def Declares (kind : WebhookKind) (document : Yaml.Value) : Prop :=
  (document.field? "kind").bind (·.text?) = some (Configuration.kindName kind)

instance (kind : WebhookKind) : DecidablePred (Declares kind) := fun document =>
  inferInstanceAs (Decidable ((document.field? "kind").bind (·.text?) = _))

theorem kindOf?_eq_some {document : Yaml.Value} {kind : WebhookKind} :
    kindOf? document = some kind ↔ Declares kind document := by
  have hunfold : kindOf? document = ((document.field? "kind").bind (·.text?)).bind fun text =>
      [WebhookKind.mutating, .validating].find? fun k => Configuration.kindName k = text := by
    cases h : document.field? "kind" with
    | none => simp [kindOf?, h]
    | some value => cases h' : value.text? <;> simp [kindOf?, h, h']
  rw [hunfold, Declares]
  cases (document.field? "kind").bind (·.text?) with
  | none => simp
  | some text =>
    rw [Option.bind_some, Option.some_inj]
    constructor
    · intro h
      simpa [eq_comm] using List.find?_some h
    · rintro rfl
      cases kind <;> rfl

theorem Declares.unique {document : Yaml.Value} {kind other : WebhookKind} (h : Declares kind document)
    (h' : Declares other document) : kind = other :=
  Option.some.inj ((kindOf?_eq_some.2 h).symm.trans (kindOf?_eq_some.2 h'))

theorem Declares.iff_eq {document : Yaml.Value} {kind : WebhookKind} (h : Declares kind document)
    (other : WebhookKind) : Declares other document ↔ other = kind :=
  ⟨fun h' => h'.unique h, fun heq => heq ▸ h⟩

theorem kindOf?_eq_none {document : Yaml.Value} :
    kindOf? document = none ↔ ∀ kind, ¬ Declares kind document := by
  simp only [Option.eq_none_iff_forall_ne_some, ne_eq, kindOf?_eq_some]

/-- A document without fields, null for one, is of no kind. -/
theorem not_declares_leaf (kind : WebhookKind) (value : Json) : ¬ Declares kind (.leaf value) := by
  intro h
  cases h

/-- How a document of a kind is read. -/
def Reads (kind : WebhookKind) (document : Yaml.Value) (configuration : Configuration) : Prop :=
  Configuration.read Json.nullAsEmpty kind document.toJson = .ok configuration

theorem Reads.kind_eq {kind : WebhookKind} {document : Yaml.Value} {configuration : Configuration}
    (h : Reads kind document configuration) : configuration.kind = kind := by
  obtain ⟨fields, -, h⟩ := bind_eq_ok.1 h
  obtain ⟨-, -, h⟩ := bind_eq_ok.1 h
  obtain ⟨-, -, h⟩ := bind_eq_ok.1 h
  obtain ⟨metadata, -, h⟩ := bind_eq_ok.1 h
  obtain ⟨items, -, h⟩ := bind_eq_ok.1 h
  obtain ⟨webhooks, -, h⟩ := bind_eq_ok.1 h
  cases h
  rfl

/-- **Documents make up a manifest**: of each kind it has one configuration for every document of that kind,
in their order, and no others. -/
def Of (documents : List Yaml.Value) (manifest : Manifest) : Prop :=
  ∀ kind, List.Forall₂ (Reads kind) (documents.filter (Declares kind)) (manifest.ofKind kind)

theorem Of.unique {documents : List Yaml.Value} {manifest other : Manifest} (h : Of documents manifest)
    (h' : Of documents other) : manifest = other := by
  refine ext_ofKind fun kind => ?_
  have hreads : Relator.RightUnique (Reads kind) := fun document a b ha hb =>
    Except.ok.inj (ha.symm.trans hb)
  exact List.right_unique_forall₂' hreads (h kind) (h' kind)

theorem configuration?_eq_ok {document : Yaml.Value} {found : Option Configuration} :
    configuration? document = .ok found ↔
      (found = none ∧ ∀ kind, ¬ Declares kind document) ∨
      ∃ kind configuration, found = some configuration ∧ Declares kind document ∧
        Reads kind document configuration := by
  unfold configuration? Reads
  cases hkind : kindOf? document with
  | none => simp [kindOf?_eq_none.1 hkind, eq_comm]
  | some kind =>
    have hone := (kindOf?_eq_some.1 hkind).iff_eq
    cases hread : Configuration.read Json.nullAsEmpty kind document.toJson with
    | error cause => simp [hone, hread]
    | ok configuration => simp [hone, hread, eq_comm]

/-- A document spoils the manifest it stands in if it is of a kind and cannot be decoded. -/
theorem configuration?_eq_error {document : Yaml.Value} :
    (∃ e, configuration? document = .error e) ↔
      ∃ kind cause, Declares kind document ∧
        Configuration.read Json.nullAsEmpty kind document.toJson = .error cause := by
  unfold configuration?
  cases hkind : kindOf? document with
  | none => simp [kindOf?_eq_none.1 hkind]
  | some kind =>
    have hone := (kindOf?_eq_some.1 hkind).iff_eq
    cases hread : Configuration.read Json.nullAsEmpty kind document.toJson with
    | error cause => simp [hone, hread]
    | ok configuration => simp [hone, hread]

theorem of_ofConfigurations {documents : List Yaml.Value} {found : List (Option Configuration)}
    (h : List.Forall₂ (fun document found => configuration? document = .ok found) documents found) :
    Of documents (ofConfigurations (found.filterMap id)) := by
  intro kind
  rw [ofKind_ofConfigurations]
  induction h with
  | nil => exact .nil
  | @cons document found documents rest hhead _ ih =>
    rcases configuration?_eq_ok.1 hhead with ⟨rfl, hnone⟩ | ⟨own, configuration, rfl, hdeclares, hreads⟩
    · rw [List.filter_cons_of_neg (by simpa using hnone kind)]
      exact ih
    · rw [show (some configuration :: rest).filterMap id = configuration :: rest.filterMap id from rfl]
      by_cases hkind : own = kind
      · subst hkind
        rw [List.filter_cons_of_pos (by simpa using hdeclares),
          List.filter_cons_of_pos (by simpa using hreads.kind_eq)]
        exact .cons hreads ih
      · have hother : ¬ Declares kind document := fun h' => hkind (hdeclares.unique h')
        rw [List.filter_cons_of_neg (by simpa using hother),
          List.filter_cons_of_neg (by simpa [hreads.kind_eq] using hkind)]
        exact ih

/-- **What spoils a manifest**: there is no text, it is not made of documents, one of its documents is
malformed, or one of its documents is of a kind and cannot be decoded. -/
inductive Spoilt : Option String → Prop where
  | missing : Spoilt none
  | unseparated {text : String} {fault : Yaml.Fault} (h : Yaml.trees text = .error fault) :
      Spoilt (some text)
  | malformed {text : String} {trees : List Yaml.Tree} {tree : Yaml.Tree} {fault : Yaml.Fault}
      (h : Yaml.trees text = .ok trees) (among : tree ∈ trees)
      (bad : Yaml.Value.ofTree tree = .error fault) : Spoilt (some text)
  | undecodable {text : String} {documents : List Yaml.Value} {document : Yaml.Value}
      {kind : WebhookKind} {cause : DecodeError} (h : Yaml.Value.readAll text = .ok documents)
      (among : document ∈ documents) (declares : Declares kind document)
      (bad : Configuration.read Json.nullAsEmpty kind document.toJson = .error cause) :
      Spoilt (some text)

theorem readAll_eq_error {text : String} : (∃ fault, Yaml.Value.readAll text = .error fault) ↔
    (∃ fault, Yaml.trees text = .error fault) ∨
      ∃ trees, Yaml.trees text = .ok trees ∧
        ∃ tree ∈ trees, ∃ fault, Yaml.Value.ofTree tree = .error fault := by
  unfold Yaml.Value.readAll
  cases Yaml.trees text with
  | error fault => simp [bind, Except.bind]
  | ok trees =>
    have hall : (∃ fault, trees.mapM Yaml.Value.ofTree = .error fault) ↔
        ∃ tree ∈ trees, ∃ fault, Yaml.Value.ofTree tree = .error fault := exists_mapM_eq_error
    simpa [bind, Except.bind] using hall

/-- **A manifest does not load exactly if it is spoilt.** -/
theorem load_eq_error {contents : Option String} :
    (∃ e, load contents = .error e) ↔ Spoilt contents := by
  cases contents with
  | none => exact iff_of_true ⟨_, rfl⟩ .missing
  | some text =>
    constructor
    · rintro ⟨e, h⟩
      unfold load ofText at h
      cases hread : Yaml.Value.readAll text with
      | error fault =>
        rcases readAll_eq_error.1 ⟨fault, hread⟩ with ⟨fault, h⟩ | ⟨trees, h, tree, htree, fault, hbad⟩
        · exact .unseparated h
        · exact .malformed h htree hbad
      | ok documents =>
        simp only [hread] at h
        rcases bind_eq_error.1 h with h | ⟨found, -, h⟩
        · obtain ⟨document, hm, hbad⟩ := exists_mapM_eq_error.1 ⟨e, h⟩
          obtain ⟨kind, cause, hdeclares, hbad⟩ := configuration?_eq_error.1 hbad
          exact .undecodable hread hm hdeclares hbad
        · cases h
    · intro h
      have hfault : (∃ fault, Yaml.Value.readAll text = .error fault) →
          ∃ e, load (some text) = .error e := by
        rintro ⟨fault, h⟩
        exact ⟨.malformed fault, by simp [load, ofText, h]⟩
      cases h with
      | unseparated h => exact hfault (readAll_eq_error.2 (.inl ⟨_, h⟩))
      | malformed h among bad => exact hfault (readAll_eq_error.2 (.inr ⟨_, h, _, among, _, bad⟩))
      | undecodable h among declares bad =>
        obtain ⟨e, hbad⟩ := exists_mapM_eq_error.2
          ⟨_, among, configuration?_eq_error.2 ⟨_, _, declares, bad⟩⟩
        refine ⟨e, ?_⟩
        unfold load ofText
        simp only [h]
        exact bind_eq_error.2 (.inl hbad)

theorem of_load {contents : Option String} {manifest : Manifest} (h : load contents = .ok manifest) :
    ∃ text documents, contents = some text ∧ Yaml.Value.readAll text = .ok documents ∧
      Of documents manifest := by
  cases contents with
  | none => cases h
  | some text =>
    unfold load ofText at h
    cases hread : Yaml.Value.readAll text with
    | error fault =>
      simp only [hread] at h
      cases h
    | ok documents =>
      simp only [hread] at h
      obtain ⟨found, hfound, h⟩ := bind_eq_ok.1 h
      cases h
      exact ⟨text, documents, rfl, hread, of_ofConfigurations (mapM_eq_ok.1 hfound)⟩

theorem Of.exists_reads {documents : List Yaml.Value} {manifest : Manifest} (h : Of documents manifest)
    {document : Yaml.Value} (hm : document ∈ documents) {kind : WebhookKind}
    (hdeclares : Declares kind document) : ∃ configuration, Reads kind document configuration := by
  have hmem : document ∈ documents.filter (Declares kind) := by simp [hm, hdeclares]
  obtain ⟨i, hi, rfl⟩ := List.getElem_of_mem hmem
  exact ⟨_, (h kind).get hi ((h kind).length_eq ▸ hi)⟩

/-- **A manifest loads exactly if it is made of documents that make it up.** -/
theorem load_eq_ok {contents : Option String} {manifest : Manifest} :
    load contents = .ok manifest ↔ ∃ text documents, contents = some text ∧
      Yaml.Value.readAll text = .ok documents ∧ Of documents manifest := by
  refine ⟨of_load, ?_⟩
  rintro ⟨text, documents, rfl, hread, hof⟩
  cases hload : load (some text) with
  | ok other =>
    obtain ⟨text', documents', heq, hread', hof'⟩ := of_load hload
    cases heq
    obtain rfl := Except.ok.inj (hread.symm.trans hread')
    rw [hof.unique hof']
  | error e =>
    have hlegible : ¬ ∃ fault, Yaml.Value.readAll text = .error fault := by
      rintro ⟨fault, hbad⟩
      rw [hread] at hbad
      cases hbad
    cases load_eq_error.1 ⟨e, hload⟩ with
    | unseparated h => exact absurd (readAll_eq_error.2 (.inl ⟨_, h⟩)) hlegible
    | malformed h among bad => exact absurd (readAll_eq_error.2 (.inr ⟨_, h, _, among, _, bad⟩)) hlegible
    | undecodable h among declares bad =>
      obtain rfl := Except.ok.inj (hread.symm.trans h)
      obtain ⟨configuration, hreads⟩ := hof.exists_reads among declares
      rw [Reads, bad] at hreads
      cases hreads

end Manifest

/-! ## 2. Readings -/

namespace FileSource

/-- The snapshot of a kind. -/
def snapshot (source : FileSource) : WebhookKind → Snapshot
  | .mutating => source.mutating
  | .validating => source.validating

theorem snapshot_publish (source : FileSource) (manifest : Manifest) (kind : WebhookKind) :
    (source.publish manifest).snapshot kind =
      ((source.snapshot kind).publish (manifest.ofKind kind)).markSynced := by
  cases kind <;> rfl

/-- The source after a file was read, with what it held every time. -/
def after (readings : List (Option String)) : FileSource :=
  reloadAll {} (readings.map Manifest.load)

theorem after_concat (readings : List (Option String)) (contents : Option String) :
    after (readings ++ [contents]) = (after readings).reload (Manifest.load contents) := by
  simp [after, reloadAll]

/-- The last manifest that loaded. -/
def lastLoaded? (readings : List (Option String)) : Option Manifest :=
  (readings.filterMap fun contents => (Manifest.load contents).toOption).getLast?

theorem lastLoaded?_concat (readings : List (Option String)) (contents : Option String) :
    lastLoaded? (readings ++ [contents]) =
      (Manifest.load contents).toOption.or (lastLoaded? readings) := by
  unfold lastLoaded?
  rw [List.filterMap_append, List.getLast?_append]
  cases h : Manifest.load contents with
  | ok manifest => simp [h, Except.toOption]
  | error e => simp [h, Except.toOption]

theorem isSome_lastLoaded? (readings : List (Option String)) :
    (lastLoaded? readings).isSome ↔ ∃ contents ∈ readings, ¬ Manifest.Spoilt contents := by
  induction readings using List.reverseRecOn with
  | nil => simp [lastLoaded?]
  | append_singleton readings contents ih =>
    have hspoilt : (∃ e, Manifest.load contents = .error e) ↔ Manifest.Spoilt contents :=
      Manifest.load_eq_error
    rw [lastLoaded?_concat]
    cases hload : Manifest.load contents with
    | ok manifest =>
      have hgood : ¬ Manifest.Spoilt contents := fun h => by
        obtain ⟨e, he⟩ := hspoilt.2 h
        rw [hload] at he
        cases he
      exact iff_of_true rfl ⟨contents, by simp, hgood⟩
    | error e =>
      rw [show (Except.error e : Except ManifestError Manifest).toOption = none from rfl,
        Option.none_or, ih]
      simp only [List.mem_append, List.mem_singleton, or_and_right, exists_or, exists_eq_left]
      exact (or_iff_left (not_not_intro (hspoilt.1 ⟨e, hload⟩))).symm

/-- **What holds of a source after readings.** -/
structure Holds (source : FileSource) (readings : List (Option String)) : Prop where
  merged : ∀ manifest, lastLoaded? readings = some manifest → ∀ kind,
    Snapshot.Merges (source.snapshot kind).webhooks (manifest.ofKind kind)
  untouched : lastLoaded? readings = none → source = {}
  synced_iff : ∀ kind, (source.snapshot kind).synced = true ↔ (lastLoaded? readings).isSome

theorem reload_of_spoilt {contents : Option String} (h : Manifest.Spoilt contents)
    (source : FileSource) : source.reload (Manifest.load contents) = source := by
  obtain ⟨e, he⟩ := Manifest.load_eq_error.2 h
  rw [he]
  rfl

/-- **One reading.** -/
theorem Holds.reload {source : FileSource} {readings : List (Option String)}
    (h : source.Holds readings) (contents : Option String) :
    (source.reload (Manifest.load contents)).Holds (readings ++ [contents]) := by
  have hlast := lastLoaded?_concat readings contents
  cases hload : Manifest.load contents with
  | ok manifest =>
    rw [hload] at hlast
    constructor
    case merged =>
      intro other hother kind
      obtain rfl := Option.some.inj (hlast.symm.trans hother)
      show Snapshot.Merges ((source.publish manifest).snapshot kind).webhooks _
      rw [snapshot_publish]
      exact Snapshot.merges_publish _ _
    case untouched =>
      intro hnone
      cases hlast.symm.trans hnone
    case synced_iff =>
      intro kind
      show ((source.publish manifest).snapshot kind).synced = true ↔ _
      rw [snapshot_publish, hlast]
      exact iff_of_true rfl rfl
  | error e =>
    rw [hload] at hlast
    exact ⟨hlast ▸ h.merged, hlast ▸ h.untouched, hlast ▸ h.synced_iff⟩

/-- **All readings.** -/
theorem holds_after (readings : List (Option String)) : (after readings).Holds readings := by
  induction readings using List.reverseRecOn with
  | nil =>
    constructor
    case merged => exact fun _ h => by (cases h)
    case untouched => exact fun _ => rfl
    case synced_iff =>
      intro kind
      cases kind <;> decide
  | append_singleton readings contents ih =>
    rw [after_concat]
    exact ih.reload contents

end FileSource

/-! ## 3. The watch -/

namespace FileWatch

/-- What can happen to a watch; the file is what it is then, if it is there. -/
inductive Event where
  | started (contents : Option String)
  | passed (time : Time.Span) (contents : Option String)
  | stopped

def handle (w : FileWatch) : Event → FileWatch
  | .started contents => w.start contents
  | .passed time contents => w.advance time contents
  | .stopped => w.stop

/-- What is read of the file: at the start, and when a reading falls due. -/
def reading? (w : FileWatch) : Event → Option (Option String)
  | .started contents =>
    match w.state with
    | .idle => if w.interval.nanoseconds = 0 then none else some contents
    | _ => none
  | .passed time contents =>
    match w.state with
    | .running elapsed =>
      if elapsed.nanoseconds + time.nanoseconds < w.interval.nanoseconds then none
      else some contents
    | _ => none
  | .stopped => none

/-- All that is read. -/
def readings (w : FileWatch) : List Event → List (Option String)
  | [] => []
  | event :: rest => (w.reading? event).toList ++ (w.handle event).readings rest

theorem source_handle (w : FileWatch) (event : Event) :
    (w.handle event).source = w.source.reloadAll ((w.reading? event).toList.map Manifest.load) := by
  cases event with
  | started contents =>
    cases hstate : w.state with
    | idle =>
      by_cases hinterval : w.interval.nanoseconds = 0
      · simp [handle, start, reading?, FileSource.reloadAll, hstate, hinterval]
      · simp [handle, start, reading?, FileSource.reloadAll, hstate, hinterval]
    | running _ | stopped => simp [handle, start, reading?, FileSource.reloadAll, hstate]
  | passed time contents =>
    cases hstate : w.state with
    | running elapsed =>
      by_cases hdue : elapsed.nanoseconds + time.nanoseconds < w.interval.nanoseconds
      · simp [handle, advance, reading?, FileSource.reloadAll, hstate, hdue]
      · simp [handle, advance, reading?, FileSource.reloadAll, hstate, hdue]
    | idle | stopped => simp [handle, advance, reading?, FileSource.reloadAll, hstate]
  | stopped => rfl

theorem source_foldl (w : FileWatch) (events : List Event) :
    (events.foldl handle w).source = w.source.reloadAll ((w.readings events).map Manifest.load) := by
  induction events generalizing w with
  | nil => rfl
  | cons event rest ih =>
    rw [List.foldl_cons, ih, source_handle, readings, List.map_append, FileSource.reloadAll,
      FileSource.reloadAll, FileSource.reloadAll, List.foldl_append]

end FileWatch

/-! ## 4. Every run -/

namespace FileSource

/-- **A file source holds the last manifest that loaded.**  However often the file is read, and whatever it
held: both snapshots are merged of the configurations of the last manifest that loaded, and nothing is
published before there is one; both flags say that there was one, and neither is taken back.  What is spoilt
changes nothing, be it in the last document.  A manifest that is not spoilt has one configuration for every
document that says it is of the kind, and none for null or a document of another kind.  A watch does nothing
but read. -/
theorem holds_last_manifest (readings : List (Option String)) :
    (∀ manifest, lastLoaded? readings = some manifest → ∀ kind,
      Snapshot.Merges ((after readings).snapshot kind).webhooks (manifest.ofKind kind)) ∧
    (lastLoaded? readings = none → after readings = {}) ∧
    (∀ kind, ((after readings).snapshot kind).synced = true ↔
      ∃ contents ∈ readings, ¬ Manifest.Spoilt contents) ∧
    (∀ more kind, ((after readings).snapshot kind).synced = true →
      ((after (readings ++ more)).snapshot kind).synced = true) ∧
    (∀ contents, Manifest.Spoilt contents → after (readings ++ [contents]) = after readings) ∧
    (∀ contents, (∃ e, Manifest.load contents = .error e) ↔ Manifest.Spoilt contents) ∧
    (∀ contents manifest, Manifest.load contents = .ok manifest ↔
      ∃ text documents, contents = some text ∧ Yaml.Value.readAll text = .ok documents ∧
        Manifest.Of documents manifest) ∧
    (∀ kind, ¬ Manifest.Declares kind (.leaf .null)) ∧
    ∀ interval events, (events.foldl FileWatch.handle { interval := interval }).source =
      after (FileWatch.readings { interval := interval } events) := by
  have hsynced : ∀ given kind, ((after given).snapshot kind).synced = true ↔
      ∃ contents ∈ given, ¬ Manifest.Spoilt contents := fun given kind =>
    ((holds_after given).synced_iff kind).trans (isSome_lastLoaded? given)
  refine ⟨(holds_after readings).merged, (holds_after readings).untouched, hsynced readings, ?_, ?_,
    fun _ => Manifest.load_eq_error, fun _ _ => Manifest.load_eq_ok,
    fun kind => Manifest.not_declares_leaf kind .null, ?_⟩
  · intro more kind h
    obtain ⟨contents, hm, hgood⟩ := (hsynced readings kind).1 h
    exact (hsynced _ kind).2 ⟨contents, List.mem_append_left _ hm, hgood⟩
  · intro contents hspoilt
    rw [after_concat, reload_of_spoilt hspoilt]
  · exact fun interval events => FileWatch.source_foldl _ events

end FileSource

end Admission
