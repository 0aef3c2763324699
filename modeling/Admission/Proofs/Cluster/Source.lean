import Admission.Proofs.Cluster.Events
import Admission.Proofs.Snapshot
import Mathlib.Data.List.Induction

/-!
# What a cluster source publishes

A source hands every event to the copy and publishes what the copy then holds, in one write, when a list is
done and after every single change; that a list was done is a second write after the first list.  Whoever
looks may look between the two, so what is said here is said of everything that there ever is to see
(`ClusterSource.Run`): nothing before the first list is done, and from then on all configurations that are
there by the events so far, whatever order the copy gives them in.
-/

namespace Admission

open StoreEvent

/-! ## 1. Publishing -/

namespace Snapshot

/-- **What is published shows what there is after events**: the webhooks of exactly the configurations that
are there, in the order of their names and each in the order declared. -/
def Shows (webhooks : List Webhook) (events : List (StoreEvent Configuration)) : Prop :=
  ∃ (configurations : List Configuration) (next : Nat),
    configurations.Pairwise (fun a b => a.name < b.name) ∧
    (∀ c, c ∈ configurations ↔ ∃ name, alive events name = some c) ∧
    webhooks = number next (configurations.flatMap (·.webhooks))

theorem Shows.congr {webhooks : List Webhook} {events more : List (StoreEvent Configuration)}
    (h : Shows webhooks events) (hsame : alive more = alive events) : Shows webhooks more := by
  unfold Shows at h ⊢
  rwa [hsame]

end Snapshot

/-! ## 2. Runs -/

namespace ClusterSource

theorem configurations_of_holds {reflector : Reflector Configuration}
    {events : List (StoreEvent Configuration)} (hholds : reflector.Holds events)
    (hnames : ∀ event ∈ events, event.OwnName Configuration.name) :
    (configurations reflector).Pairwise (fun a b => a.name < b.name) ∧
      ∀ c, c ∈ configurations reflector ↔ ∃ name, alive events name = some c := by
  have hget : ∀ pair ∈ reflector.objects.fields, alive events pair.1 = some pair.2 := by
    intro pair hm
    rw [← hholds.objects]
    exact reflector.objects.sorted.get?_of_mem hm
  have hname : ∀ pair ∈ reflector.objects.fields, pair.2.name = pair.1 := by
    intro pair hm
    obtain ⟨event, he, hgives⟩ := exists_of_alive (hget pair hm)
    exact hnames event he _ _ hgives
  refine ⟨?_, fun c => ⟨fun hm => ?_, fun ⟨name, h⟩ => ?_⟩⟩
  · refine List.pairwise_map.2 (reflector.objects.sorted.imp_of_mem fun ha hb h => ?_)
    rwa [hname _ ha, hname _ hb]
  · obtain ⟨pair, hp, rfl⟩ := List.mem_map.1 hm
    exact ⟨pair.1, hget pair hp⟩
  · rw [← hholds.objects] at h
    exact List.mem_map.2 ⟨_, Fields.mem_of_get? h, rfl⟩

/-- What is published of a copy shows what there is. -/
theorem shows_publish {reflector : Reflector Configuration} {events : List (StoreEvent Configuration)}
    (hholds : reflector.Holds events)
    (hnames : ∀ event ∈ events, event.OwnName Configuration.name) (snapshot : Snapshot)
    {given : List Configuration} (hperm : given.Perm (configurations reflector)) :
    Snapshot.Shows (snapshot.publish given).webhooks events := by
  obtain ⟨hsorted, hmem⟩ := configurations_of_holds hholds hnames
  refine ⟨configurations reflector, snapshot.nextEntry, hsorted, hmem, ?_⟩
  show Snapshot.number snapshot.nextEntry (Snapshot.merge given) = _
  rw [Snapshot.merge_of_perm hperm hsorted]

/-- What there is to see, write by write, while an event is handled. -/
def seenDuring (arrange : List Configuration → List Configuration) (source : ClusterSource)
    (event : StoreEvent Configuration) : List Snapshot :=
  let published := source.snapshot.publish (arrange (configurations (source.reflector.handle event)))
  match event with
  | .listDone => [published, published.markSynced]
  | .applied _ _ | .deleted _ => [published]
  | .listing | .listed _ _ | .failed => []

section During

variable (arrange : List Configuration → List Configuration) (source : ClusterSource)
  (event : StoreEvent Configuration)

theorem getLast?_seenDuring :
    (source.snapshot :: source.seenDuring arrange event).getLast? =
      some (source.handleIn arrange event).snapshot := by
  cases event <;> rfl

theorem pairwise_seenDuring : (source.snapshot :: source.seenDuring arrange event).Pairwise
    fun earlier later => earlier.synced = true → later.synced = true := by
  cases event <;> simp [seenDuring, Snapshot.publish, Snapshot.markSynced]

theorem webhooks_of_mem_seenDuring {snapshot : Snapshot}
    (h : snapshot ∈ source.seenDuring arrange event) : snapshot.webhooks =
      (source.snapshot.publish (arrange (configurations (source.reflector.handle event)))).webhooks := by
  cases event with
  | listDone =>
    rcases List.mem_pair.1 h with rfl | rfl
    · rfl
    · rfl
  | applied _ _ | deleted _ =>
    rw [List.mem_singleton.1 h]
  | listing | listed _ _ | failed => cases h

end During

/-- Whether an event says nothing about what there is. -/
def IsQuiet (event : StoreEvent Configuration) : Prop :=
  event = .listing ∨ (∃ name object, event = .listed name object) ∨ event = .failed

theorem seenDuring_of_isQuiet {event : StoreEvent Configuration} (h : IsQuiet event)
    (arrange : List Configuration → List Configuration) (source : ClusterSource) :
    source.seenDuring arrange event = [] := by
  rcases h with rfl | ⟨_, _, rfl⟩ | rfl <;> rfl

theorem mem_seenDuring {event : StoreEvent Configuration} (h : ¬ IsQuiet event)
    (arrange : List Configuration → List Configuration) (source : ClusterSource) :
    (source.handleIn arrange event).snapshot ∈ source.seenDuring arrange event := by
  unfold IsQuiet at h
  cases event with
  | listing => exact absurd (.inl rfl) h
  | listed name object => exact absurd (.inr (.inl ⟨_, _, rfl⟩)) h
  | failed => exact absurd (.inr (.inr rfl)) h
  | listDone => exact List.mem_cons_of_mem _ List.mem_cons_self
  | applied _ _ | deleted _ => exact List.mem_cons_self

theorem handleIn_of_isQuiet {event : StoreEvent Configuration} (h : IsQuiet event)
    (arrange : List Configuration → List Configuration) (source : ClusterSource) :
    (source.handleIn arrange event).snapshot = source.snapshot := by
  rcases h with rfl | ⟨_, _, rfl⟩ | rfl <;> rfl

theorem alive_of_isQuiet {event : StoreEvent Configuration} (h : IsQuiet event)
    (events : List (StoreEvent Configuration)) : alive (events ++ [event]) = alive events := by
  funext name
  rw [alive_concat]
  rcases h with rfl | ⟨_, _, rfl⟩ | rfl <;> rfl

theorem done_of_not_isQuiet {stage next : Stage} {event : StoreEvent Configuration}
    (hnext : stage.next? event = some next) (h : ¬ IsQuiet event) :
    event = .listDone ∨ stage = .current := by
  unfold IsQuiet at h
  cases event with
  | listing => exact absurd (.inl rfl) h
  | listed name object => exact absurd (.inr (.inl ⟨_, _, rfl⟩)) h
  | failed => exact absurd (.inr (.inr rfl)) h
  | listDone => exact .inl rfl
  | applied _ _ | deleted _ =>
    cases stage
    · cases hnext
    · cases hnext
    · exact .inr rfl

/-- **A source that has run**: events have come in stages, each object under its own name, and after every
event the copy gave its objects in some order.  Everything there ever was to see is kept, in the order it
was published. -/
inductive Run : Stage → List (StoreEvent Configuration) → List Snapshot → ClusterSource → Prop where
  | created : Run .unlisted [] [.initial] {}
  | handled {stage next events seen source event} (run : Run stage events seen source)
      (inStage : stage.next? event = some next) (ownName : event.OwnName Configuration.name)
      (arrange : List Configuration → List Configuration) (perm : ∀ given, (arrange given).Perm given) :
      Run next (events ++ [event]) (seen ++ source.seenDuring arrange event)
        (source.handleIn arrange event)

/-- **What holds of a source between two events.** -/
structure Faithful (stage : Stage) (events : List (StoreEvent Configuration)) (seen : List Snapshot)
    (source : ClusterSource) : Prop where
  holds : source.reflector.Holds events
  ownNames : ∀ event ∈ events, event.OwnName Configuration.name
  listed : stage = .current → .listDone ∈ events
  /-- The flag says that a list was done. -/
  synced_iff : source.snapshot.synced = true ↔ .listDone ∈ events
  empty : .listDone ∉ events → source.snapshot.webhooks = []
  shows : .listDone ∈ events → Snapshot.Shows source.snapshot.webhooks events
  last : seen.getLast? = some source.snapshot
  /-- Whoever saw the flag sees it still. -/
  settled : seen.Pairwise fun earlier later => earlier.synced = true → later.synced = true
  /-- Whoever sees the flag sees a list that was complete. -/
  complete : ∀ snapshot ∈ seen, snapshot.synced = true → ∃ past, past <+: events ∧
    .listDone ∈ past ∧ Snapshot.Shows snapshot.webhooks past

theorem faithful_created : Faithful .unlisted [] [.initial] {} where
  holds := Reflector.holds_empty
  ownNames _ h := by cases h
  listed h := by cases h
  synced_iff := by simp [Snapshot.initial]
  empty _ := rfl
  shows h := by cases h
  last := rfl
  settled := List.pairwise_singleton _ _
  complete snapshot hm h := by
    rw [List.mem_singleton.1 hm] at h
    cases h

/-- **What holds between two events holds after the next.** -/
theorem Faithful.handle {stage next : Stage} {events : List (StoreEvent Configuration)}
    {seen : List Snapshot} {source : ClusterSource} {event : StoreEvent Configuration}
    (h : Faithful stage events seen source) (hnext : stage.next? event = some next)
    (hown : event.OwnName Configuration.name) {arrange : List Configuration → List Configuration}
    (hperm : ∀ given, (arrange given).Perm given) :
    Faithful next (events ++ [event]) (seen ++ source.seenDuring arrange event)
      (source.handleIn arrange event) := by
  have hholds := h.holds.handle event
  have hnames : ∀ other ∈ events ++ [event], other.OwnName Configuration.name := by
    intro other hm
    rcases List.mem_append.1 hm with hm | hm
    · exact h.ownNames other hm
    · rw [List.mem_singleton.1 hm]
      exact hown
  have hshows : ∀ snapshot ∈ source.seenDuring arrange event,
      Snapshot.Shows snapshot.webhooks (events ++ [event]) := by
    intro snapshot hm
    rw [webhooks_of_mem_seenDuring arrange source event hm]
    exact shows_publish hholds hnames source.snapshot (hperm _)
  obtain ⟨hkept, hpairs⟩ := List.pairwise_cons.1 (pairwise_seenDuring arrange source event)
  have hdone : ¬ IsQuiet event → .listDone ∈ events ++ [event] := by
    intro hquiet
    rcases done_of_not_isQuiet hnext hquiet with rfl | hcurrent
    · exact List.mem_append_right _ List.mem_cons_self
    · exact List.mem_append_left _ (h.listed hcurrent)
  have hquietDone : IsQuiet event → (.listDone ∈ events ++ [event] ↔ .listDone ∈ events) := by
    intro hquiet
    rw [List.mem_append, List.mem_singleton]
    rcases hquiet with rfl | ⟨_, _, rfl⟩ | rfl <;> simp
  constructor
  case holds => exact hholds
  case ownNames => exact hnames
  case listed =>
    rintro rfl
    by_cases hquiet : IsQuiet event
    · -- only a failure can be quiet and leave the list complete
      rcases hquiet with rfl | ⟨_, _, rfl⟩ | rfl <;> cases stage <;> cases hnext
      exact List.mem_append_left _ (h.listed rfl)
    · exact hdone hquiet
  case synced_iff =>
    by_cases hquiet : IsQuiet event
    · rw [handleIn_of_isQuiet hquiet, hquietDone hquiet]
      exact h.synced_iff
    · refine iff_of_true ?_ (hdone hquiet)
      rcases done_of_not_isQuiet hnext hquiet with rfl | hcurrent
      · rfl
      · exact hkept _ (mem_seenDuring hquiet arrange source) (h.synced_iff.2 (h.listed hcurrent))
  case empty =>
    intro hnone
    by_cases hquiet : IsQuiet event
    · rw [handleIn_of_isQuiet hquiet]
      exact h.empty fun hm => hnone ((hquietDone hquiet).2 hm)
    · exact absurd (hdone hquiet) hnone
  case shows =>
    intro hm
    by_cases hquiet : IsQuiet event
    · rw [handleIn_of_isQuiet hquiet]
      exact (h.shows ((hquietDone hquiet).1 hm)).congr (alive_of_isQuiet hquiet events)
    · exact hshows _ (mem_seenDuring hquiet arrange source)
  case last =>
    rw [List.getLast?_append, h.last, ← getLast?_seenDuring, List.getLast?_cons]
    cases (source.seenDuring arrange event).getLast? <;> rfl
  case settled =>
    refine List.pairwise_append.2 ⟨h.settled, hpairs, fun earlier he later hl hsynced => ?_⟩
    obtain ⟨past, hpast, hdone, -⟩ := h.complete earlier he hsynced
    exact hkept later hl (h.synced_iff.2 (hpast.subset hdone))
  case complete =>
    intro snapshot hm hsynced
    rcases List.mem_append.1 hm with hm | hm
    · obtain ⟨past, hpast, hdone, hshown⟩ := h.complete snapshot hm hsynced
      exact ⟨past, hpast.trans (List.prefix_append _ _), hdone, hshown⟩
    · by_cases hquiet : IsQuiet event
      · rw [seenDuring_of_isQuiet hquiet] at hm
        cases hm
      · exact ⟨_, List.prefix_refl _, hdone hquiet, hshows snapshot hm⟩

theorem Run.faithful {stage : Stage} {events : List (StoreEvent Configuration)} {seen : List Snapshot}
    {source : ClusterSource} (h : Run stage events seen source) :
    Faithful stage events seen source := by
  induction h with
  | created => exact faithful_created
  | handled _ inStage ownName _ perm ih => exact ih.handle inStage ownName perm

theorem exists_run {stage : Stage} {events : List (StoreEvent Configuration)}
    (hstages : Stage.unlisted.through? events = some stage)
    (hnames : ∀ event ∈ events, event.OwnName Configuration.name) :
    ∃ seen, Run stage events seen (events.foldl ClusterSource.handle {}) := by
  induction events using List.reverseRecOn generalizing stage with
  | nil =>
    cases hstages
    exact ⟨_, .created⟩
  | append_singleton events event ih =>
    rw [Stage.through?_append] at hstages
    obtain ⟨before, hbefore, hlast⟩ := Option.bind_eq_some_iff.1 hstages
    obtain ⟨next, hnext, hstages⟩ := Option.bind_eq_some_iff.1 hlast
    cases hstages
    obtain ⟨seen, hrun⟩ := ih hbefore fun other hm => hnames other (List.mem_append_left _ hm)
    have hown := hnames event (List.mem_append_right _ List.mem_cons_self)
    rw [List.foldl_append]
    exact ⟨_, hrun.handled hnext hown id fun given => .refl given⟩

/-! ## 3. Every run -/

/-- **A source publishes complete lists and nothing else.**  Whatever events come in stages, and in whatever
order the copy gives its objects: the flag is set exactly if some list was done; nothing is published before
that, and afterwards exactly the configurations that are there by the events so far.  A list that has not
been done, and a failure, leave what is published as it is, and what a list has left out is gone when it is
done.  Whoever has seen the flag sees the flag for ever, and with it what was there after some list was done,
even while writes are made.  The events of a watcher are such events. -/
theorem source_shows_complete_lists {stage : Stage} {events : List (StoreEvent Configuration)}
    {seen : List Snapshot} {source : ClusterSource} (h : Run stage events seen source) :
    (source.snapshot.synced = true ↔ .listDone ∈ events) ∧
    (.listDone ∉ events → source.snapshot.webhooks = []) ∧
    (.listDone ∈ events → Snapshot.Shows source.snapshot.webhooks events) ∧
    (∀ event, IsQuiet event → ∀ arrange,
      (source.handleIn arrange event).snapshot = source.snapshot) ∧
    (∀ past given name, events = past ++ .listing :: given ++ [.listDone] →
      (∀ event ∈ given, event = .failed ∨
        ∃ other object, event = .listed other object ∧ name ≠ other) →
      alive events name = none) ∧
    (seen.getLast? = some source.snapshot ∧
      ∀ (i j : Nat) (earlier later : Snapshot), i ≤ j → seen[i]? = some earlier →
        seen[j]? = some later → earlier.synced = true →
          later.synced = true ∧ ∃ past, past <+: events ∧ .listDone ∈ past ∧
            Snapshot.Shows later.webhooks past) ∧
    ∀ kind watcher given, Watcher.Gives (.configuration kind) watcher given →
      ∃ stage seen, Run stage given seen (given.foldl ClusterSource.handle {}) := by
  have hfaithful := h.faithful
  refine ⟨hfaithful.synced_iff, hfaithful.empty, hfaithful.shows, ?_, ?_, ⟨hfaithful.last, ?_⟩, ?_⟩
  · exact fun event hquiet arrange => handleIn_of_isQuiet hquiet arrange source
  · rintro past given name rfl hgiven
    exact alive_of_left_out hgiven
  · intro i j earlier later hle hi hj hsynced
    have hlater : later.synced = true := by
      rcases Nat.lt_or_eq_of_le hle with hlt | rfl
      · obtain ⟨hi', rfl⟩ := List.getElem?_eq_some_iff.1 hi
        obtain ⟨hj', rfl⟩ := List.getElem?_eq_some_iff.1 hj
        exact List.pairwise_iff_getElem.1 hfaithful.settled i j hi' hj' hlt hsynced
      · obtain rfl : earlier = later := Option.some.inj (hi.symm.trans hj)
        exact hsynced
    exact ⟨hlater, hfaithful.complete later (List.mem_of_getElem? hj) hlater⟩
  · intro kind watcher given hgives
    obtain ⟨stage, hstages, -, hnames⟩ :=
      hgives.inStages (Watched.readsNames_configuration kind)
    exact ⟨stage, exists_run hstages hnames⟩

/-! ### two lists -/

/-- A configuration with one webhook. -/
def lone (name : String) : Configuration :=
  ⟨.mutating, { name := some name }, [.bare name .mutating]⟩

/-- A list is done; the next one breaks off, and the one after it has another configuration. -/
def relisted : List (StoreEvent Configuration) :=
  [.listing, .listed "first" (lone "first"), .listDone, .listing, .failed, .listing,
    .listed "second" (lone "second"), .listDone]

/-- What the last list has left out is gone. -/
theorem source_shows_complete_lists_relisted :
    ∃ seen, Run .current relisted seen (relisted.foldl ClusterSource.handle {}) ∧
      (relisted.foldl ClusterSource.handle {}).snapshot.synced = true ∧
      Snapshot.Shows (relisted.foldl ClusterSource.handle {}).snapshot.webhooks relisted ∧
      alive relisted "first" = none ∧ alive relisted "second" = some (lone "second") := by
  have hnames : ∀ event ∈ relisted, event.OwnName Configuration.name := by
    intro event hm name object hgives
    rcases hgives with rfl | rfl
    · simp only [relisted, List.mem_cons, List.not_mem_nil, or_false, reduceCtorEq, false_or,
        StoreEvent.listed.injEq] at hm
      rcases hm with ⟨rfl, rfl⟩ | ⟨rfl, rfl⟩ <;> rfl
    · simp [relisted] at hm
  have hstages : Stage.unlisted.through? relisted = some .current := rfl
  obtain ⟨seen, hrun⟩ := exists_run hstages hnames
  obtain ⟨hsynced, -, hshows, -, hleft, -⟩ := source_shows_complete_lists hrun
  have hdone : .listDone ∈ relisted := by simp [relisted]
  have hgone := hleft (relisted.take 5) [.listed "second" (lone "second")] "first" rfl
    fun event hm => .inr ⟨_, _, List.mem_singleton.1 hm, by decide⟩
  exact ⟨seen, hrun, hsynced.2 hdone, hshows hdone, hgone, by decide +kernel⟩

end ClusterSource

end Admission
