import Admission.Proofs.Results
import Admission.Proofs.Snapshot
import Admission.Proofs.Text.Joined

/-!
# What readers see of a snapshot

A configuration that was read numbers its webhooks, and the uid of a webhook is made of the name of the
configuration, its own name and its number, with slashes between them (`Configuration.uid_of_isRead`).  The name
of a webhook may have slashes too.  The uid can be taken apart all the same: its first slash comes right behind
the name of the configuration if there is none in there, and its last one right before the number.  So the uids
in a snapshot are different if the names of the configurations are (`Snapshot.nodup_uids`).

Readers keep the list they loaded (`Readers.play_load`).  What a later rebuild publishes is a list of its own,
whose webhooks have numbers that no webhook had before, so nothing that is kept by that number is shared with the
webhooks that some reader still holds (`Readers.entry_ne_of_rebuilt`).
-/

namespace Admission

/-! ## 1. The uids of a configuration -/

/-- The uid of a webhook at a place of a configuration. -/
def uidAt (configuration webhook : String) (index : Nat) : String :=
  s!"{configuration}/{webhook}/{index}"

/-- **A uid can be taken apart**, whatever the webhook is called. -/
theorem uidAt_inj {configuration other webhook otherWebhook : String} {index otherIndex : Nat}
    (h : '/' ∉ configuration.toList) (hother : '/' ∉ other.toList) :
    uidAt configuration webhook index = uidAt other otherWebhook otherIndex ↔
      configuration = other ∧ webhook = otherWebhook ∧ index = otherIndex := by
  have hjoined : ∀ c w i, uidAt c w i = c ++ "/" ++ (w ++ "/" ++ toString i) := by
    intro c w i
    show c ++ "/" ++ w ++ "/" ++ toString i = _
    simp only [String.append_assoc]
  rw [hjoined, hjoined, joined_inj_first h hother,
    joined_inj_last (slash_notMem_toString index) (slash_notMem_toString otherIndex)]
  exact and_congr_right' (and_congr_right' toString_nat_inj)

namespace Configuration

/-- The configuration was read. -/
def IsRead (c : Configuration) : Prop := ∃ prepare kind value, read prepare kind value = .ok c

theorem uid_of_webhookOfJson {prepare : Json → Json} {kind : WebhookKind} {configuration : String}
    {index : Nat} {value : Json} {hook : Webhook}
    (h : webhookOfJson prepare kind configuration index value = .ok hook) :
    hook.uid = uidAt configuration hook.name index := by
  unfold webhookOfJson at h
  obtain ⟨fields, -, h⟩ := bind_eq_ok.1 h
  obtain ⟨name, -, h⟩ := bind_eq_ok.1 h
  obtain ⟨client, -, h⟩ := bind_eq_ok.1 h
  obtain ⟨rules, -, h⟩ := bind_eq_ok.1 h
  obtain ⟨failurePolicy, -, h⟩ := bind_eq_ok.1 h
  obtain ⟨matchPolicy, -, h⟩ := bind_eq_ok.1 h
  obtain ⟨namespaceSelector, -, h⟩ := bind_eq_ok.1 h
  obtain ⟨objectSelector, -, h⟩ := bind_eq_ok.1 h
  obtain ⟨sideEffects, -, h⟩ := bind_eq_ok.1 h
  obtain ⟨timeout, -, h⟩ := bind_eq_ok.1 h
  obtain ⟨versions, -, h⟩ := bind_eq_ok.1 h
  obtain ⟨-, -, h⟩ := bind_eq_ok.1 h
  split at h
  · obtain ⟨-, -, h⟩ := bind_eq_ok.1 h
    cases h
    rfl
  · cases h
    rfl

theorem uid_of_webhooksOfJson {prepare : Json → Json} {kind : WebhookKind} {configuration : String}
    {start : Nat} {items : List Json} {hooks : List Webhook}
    (h : webhooksOfJson prepare kind configuration start items = .ok hooks) {i : Nat} {hook : Webhook}
    (hi : hooks[i]? = some hook) : hook.uid = uidAt configuration hook.name (start + i) := by
  induction items generalizing start hooks i with
  | nil =>
    cases h
    simp at hi
  | cons value rest ih =>
    obtain ⟨first, hfirst, h⟩ := bind_eq_ok.1 h
    obtain ⟨others, hothers, h⟩ := bind_eq_ok.1 h
    cases h
    cases i with
    | zero =>
      cases hi
      exact uid_of_webhookOfJson hfirst
    | succ i =>
      rw [ih hothers hi, Nat.add_assoc, Nat.add_comm 1]

/-- **The uids of a configuration that was read** tell its name, and the name and the place of the webhook. -/
theorem uid_of_isRead {c : Configuration} (h : c.IsRead) {i : Nat} {hook : Webhook}
    (hi : c.webhooks[i]? = some hook) : hook.uid = uidAt c.name hook.name i := by
  obtain ⟨prepare, kind, value, h⟩ := h
  obtain ⟨fields, -, h⟩ := bind_eq_ok.1 h
  obtain ⟨-, -, h⟩ := bind_eq_ok.1 h
  obtain ⟨-, -, h⟩ := bind_eq_ok.1 h
  obtain ⟨metadata, -, h⟩ := bind_eq_ok.1 h
  obtain ⟨items, -, h⟩ := bind_eq_ok.1 h
  obtain ⟨webhooks, hwebhooks, h⟩ := bind_eq_ok.1 h
  cases h
  have huid := uid_of_webhooksOfJson hwebhooks hi
  rwa [Nat.zero_add] at huid

end Configuration

namespace Snapshot

section Published

variable {configurations : List Configuration} (snapshot : Snapshot)

theorem merge_eq_byName (configurations : List Configuration) :
    merge configurations = (byName configurations).flatMap (·.webhooks) := rfl

/-- **What is published does not depend on the order given** where the names are different. -/
theorem publish_of_perm {given : List Configuration} (hnames : (configurations.map (·.name)).Nodup)
    (hperm : given.Perm configurations) : snapshot.publish given = snapshot.publish configurations := by
  have hsorted : (byName configurations).Pairwise fun a b => a.name < b.name := by
    have hne : ((byName configurations).map (·.name)).Nodup :=
      ((byName_perm configurations).map _).nodup_iff.2 hnames
    refine ((pairwise_byName configurations).and (List.pairwise_map.1 hne)).imp fun ⟨hle, hne⟩ => ?_
    exact String.not_le.1 fun h => hne (String.le_antisymm hle h)
  have hmerge : merge given = merge configurations := by
    rw [merge_of_perm (hperm.trans (byName_perm configurations).symm) hsorted, merge_eq_byName]
  rw [publish, publish, hmerge]

theorem uids_publish :
    (snapshot.publish configurations).webhooks.map (·.uid) =
      (byName configurations).flatMap fun c => c.webhooks.map (·.uid) := by
  have hnumbered := congrArg (List.map (·.uid)) (map_unnumbered_number snapshot.nextEntry
    (merge configurations))
  rw [List.map_map, List.map_map] at hnumbered
  rw [← List.map_flatMap, ← merge_eq_byName]
  exact hnumbered

theorem declared_of_published (hread : ∀ c ∈ configurations, c.IsRead) {hook : Webhook}
    (h : hook ∈ (snapshot.publish configurations).webhooks) :
    ∃ c ∈ configurations, ∃ i, c.webhooks[i]?.map unnumbered = some (unnumbered hook) ∧
      hook.uid = uidAt c.name hook.name i := by
  have hmem : unnumbered hook ∈ (snapshot.publish configurations).webhooks.map unnumbered :=
    List.mem_map_of_mem h
  rw [show (snapshot.publish configurations).webhooks.map unnumbered =
    (merge configurations).map unnumbered from map_unnumbered_number _ _] at hmem
  obtain ⟨declared, hdeclared, hsame⟩ := List.mem_map.1 hmem
  obtain ⟨c, hc, hdeclared⟩ := List.mem_flatMap.1 hdeclared
  obtain ⟨i, hi⟩ := List.mem_iff_getElem?.1 hdeclared
  have hread := hread c ((byName_perm configurations).mem_iff.1 hc)
  refine ⟨c, (byName_perm configurations).mem_iff.1 hc, i, by rw [hi, Option.map_some, hsame], ?_⟩
  have huid : hook.uid = declared.uid := (congrArg Webhook.uid hsame).symm
  have hname : hook.name = declared.name := (congrArg Webhook.name hsame).symm
  rw [huid, hname, Configuration.uid_of_isRead hread hi]

theorem exists_uidAt {c : Configuration} (h : c.IsRead) {uid : String}
    (huid : uid ∈ c.webhooks.map (·.uid)) : ∃ webhook i, uid = uidAt c.name webhook i := by
  obtain ⟨hook, hhook, rfl⟩ := List.mem_map.1 huid
  obtain ⟨i, hi⟩ := List.mem_iff_getElem?.1 hhook
  exact ⟨hook.name, i, Configuration.uid_of_isRead h hi⟩

/-- The uids in one configuration are different, whatever the webhooks are called. -/
theorem nodup_uids_of_isRead {c : Configuration} (h : c.IsRead) (hslash : '/' ∉ c.name.toList) :
    (c.webhooks.map (·.uid)).Nodup := by
  refine List.nodup_iff_getElem?_ne_getElem?.2 fun i j hij hj heq => ?_
  rw [List.length_map] at hj
  rw [List.getElem?_map, List.getElem?_map, List.getElem?_eq_getElem (hij.trans hj),
    List.getElem?_eq_getElem hj] at heq
  have hplaces : c.webhooks[i].uid = c.webhooks[j].uid := Option.some.inj heq
  rw [Configuration.uid_of_isRead h (List.getElem?_eq_getElem (hij.trans hj)),
    Configuration.uid_of_isRead h (List.getElem?_eq_getElem hj), uidAt_inj hslash hslash] at hplaces
  exact absurd hplaces.2.2 (Nat.ne_of_lt hij)

/-- **The uids in a snapshot are different** if the names of the configurations are and have no slash. -/
theorem nodup_uids (hnames : (configurations.map (·.name)).Nodup)
    (hread : ∀ c ∈ configurations, '/' ∉ c.name.toList ∧ c.IsRead) :
    ((snapshot.publish configurations).webhooks.map (·.uid)).Nodup := by
  have hmem : ∀ {c}, c ∈ byName configurations → c ∈ configurations :=
    (byName_perm configurations).mem_iff.1
  have hne : ((byName configurations).map (·.name)).Nodup :=
    ((byName_perm configurations).map _).nodup_iff.2 hnames
  rw [uids_publish]
  refine List.nodup_flatMap.2 ⟨fun c hc => ?_, ?_⟩
  · exact nodup_uids_of_isRead (hread c (hmem hc)).2 (hread c (hmem hc)).1
  -- a uid in two configurations would give them one name
  · refine (List.pairwise_map.1 hne).imp_of_mem fun {c c'} hc hc' hnames uid huid huid' => ?_
    obtain ⟨webhook, i, rfl⟩ := exists_uidAt (hread c (hmem hc)).2 huid
    obtain ⟨webhook', i', heq⟩ := exists_uidAt (hread c' (hmem hc')).2 huid'
    exact hnames ((uidAt_inj (hread c (hmem hc)).1 (hread c' (hmem hc')).1).1 heq).1

end Published

/-! ## 3. Readers -/

/-- What happens to a snapshot. -/
inductive Event
  | rebuilt (configurations : List Configuration)
  | synced
  | loaded

/-- A snapshot, and the lists of webhooks that readers loaded, in their order. -/
structure Readers where
  snapshot : Snapshot := .initial
  held : List (List Webhook) := []

namespace Readers

def step (readers : Readers) : Event → Readers
  | .rebuilt configurations => { readers with snapshot := readers.snapshot.publish configurations }
  | .synced => { readers with snapshot := readers.snapshot.markSynced }
  | .loaded => { readers with held := readers.held ++ [readers.snapshot.webhooks] }

def play (readers : Readers) (events : List Event) : Readers := events.foldl step readers

/-- The readers at the end of a history. -/
def after (events : List Event) : Readers := ({} : Readers).play events

/-- The configurations of the last rebuild. -/
def lastRebuilt (events : List Event) : List Configuration :=
  events.foldl (fun last event => match event with
    | .rebuilt configurations => configurations
    | .synced | .loaded => last) []

theorem play_append (readers : Readers) (earlier later : List Event) :
    readers.play (earlier ++ later) = (readers.play earlier).play later := List.foldl_append

theorem exists_held_step (readers : Readers) (event : Event) :
    ∃ loaded, (readers.step event).held = readers.held ++ loaded := by
  cases event with
  | rebuilt configurations => exact ⟨[], (List.append_nil _).symm⟩
  | synced => exact ⟨[], (List.append_nil _).symm⟩
  | loaded => exact ⟨[_], rfl⟩

theorem exists_held_play (readers : Readers) (events : List Event) :
    ∃ loaded, (readers.play events).held = readers.held ++ loaded := by
  induction events generalizing readers with
  | nil => exact ⟨[], (List.append_nil _).symm⟩
  | cons event rest ih =>
    obtain ⟨first, hfirst⟩ := exists_held_step readers event
    obtain ⟨others, hothers⟩ := ih (readers.step event)
    exact ⟨first ++ others, by rw [← List.append_assoc, ← hfirst]; exact hothers⟩

/-- **What a reader loaded is held for good**, whatever happens later. -/
theorem play_load (readers : Readers) (earlier later : List Event) :
    (readers.play (earlier ++ .loaded :: later)).held[(readers.play earlier).held.length]? =
      some (readers.play earlier).snapshot.webhooks := by
  obtain ⟨loaded, hloaded⟩ := exists_held_play ((readers.play earlier).step .loaded) later
  rw [play_append, show (readers.play earlier).play (.loaded :: later) =
    ((readers.play earlier).step .loaded).play later from rfl, hloaded, step, List.append_assoc,
    List.getElem?_append_right (Nat.le_refl _), Nat.sub_self]
  rfl

/-- Webhooks have numbers that were given before a number. -/
def Given (next : Nat) (webhooks : List Webhook) : Prop := ∀ hook ∈ webhooks, hook.entry < next

theorem Given.mono {next later : Nat} {webhooks : List Webhook} (h : Given next webhooks)
    (hle : next ≤ later) : Given later webhooks :=
  fun hook hhook => Nat.lt_of_lt_of_le (h hook hhook) hle

/-- **The webhooks in force and those held were published**: the former are those of the last rebuild, and no
number that is still to be given is the number of any of them. -/
structure Published (readers : Readers) (last : List Configuration) : Prop where
  merges : Merges readers.snapshot.webhooks last
  given : Given readers.snapshot.nextEntry readers.snapshot.webhooks
  heldGiven : ∀ webhooks ∈ readers.held, Given readers.snapshot.nextEntry webhooks

theorem entry_of_published (snapshot : Snapshot) (configurations : List Configuration) {hook : Webhook}
    (h : hook ∈ (snapshot.publish configurations).webhooks) :
    snapshot.nextEntry ≤ hook.entry ∧ hook.entry < (snapshot.publish configurations).nextEntry := by
  have hmem : hook.entry ∈ (snapshot.publish configurations).webhooks.map (·.entry) :=
    List.mem_map_of_mem h
  rw [show (snapshot.publish configurations).webhooks.map (·.entry) =
    List.range' snapshot.nextEntry (merge configurations).length from entries_number _ _] at hmem
  exact List.mem_range'_1.1 hmem

theorem merges_nil : Merges [] [] where
  declared := ⟨[], .refl _, .nil, fun _ => rfl, rfl⟩
  numbered := .nil

theorem Published.initial : Published {} [] where
  merges := merges_nil
  given := fun _ h => absurd h List.not_mem_nil
  heldGiven := fun _ h => absurd h List.not_mem_nil

theorem Published.step {readers : Readers} {last : List Configuration} (h : Published readers last)
    (event : Event) :
    Published (readers.step event) (match event with
      | .rebuilt configurations => configurations
      | .synced | .loaded => last) := by
  cases event with
  | rebuilt configurations =>
    have hnext : readers.snapshot.nextEntry ≤ (readers.snapshot.publish configurations).nextEntry :=
      Nat.le_add_right _ _
    exact ⟨merges_publish _ _, fun hook hhook => (entry_of_published _ _ hhook).2,
      fun webhooks hwebhooks => (h.heldGiven webhooks hwebhooks).mono hnext⟩
  | synced => exact ⟨h.merges, h.given, h.heldGiven⟩
  | loaded =>
    refine ⟨h.merges, h.given, fun webhooks hwebhooks => ?_⟩
    obtain hheld | hnew := List.mem_append.1 hwebhooks
    · exact h.heldGiven webhooks hheld
    · rw [List.mem_singleton.1 hnew]
      exact h.given

theorem published_after (events : List Event) : Published (after events) (lastRebuilt events) := by
  induction events using List.reverseRecOn with
  | nil => exact .initial
  | append_singleton earlier event ih =>
    have hlast : lastRebuilt (earlier ++ [event]) = match event with
        | .rebuilt configurations => configurations
        | .synced | .loaded => lastRebuilt earlier := by
      rw [lastRebuilt, List.foldl_append]
      rfl
    rw [hlast, after, play_append]
    exact ih.step event

/-- **A rebuild shares no webhook with what readers hold.** -/
theorem entry_ne_of_rebuilt {events : List Event} {webhooks : List Webhook}
    (h : webhooks ∈ (after events).held) (configurations : List Configuration) {hook rebuilt : Webhook}
    (hhook : hook ∈ webhooks)
    (hrebuilt : rebuilt ∈ (after (events ++ [.rebuilt configurations])).snapshot.webhooks) :
    hook.entry ≠ rebuilt.entry := by
  rw [after, play_append] at hrebuilt
  have hnew := (entry_of_published (after events).snapshot configurations hrebuilt).1
  exact Nat.ne_of_lt (Nat.lt_of_lt_of_le ((published_after events).heldGiven webhooks h hook hhook) hnew)

end Readers

/-! ## 4. Rebuilding -/

/-- **A rebuild merges the configurations**: the snapshot has every webhook of every configuration once, those
of one configuration next to each other as they are declared, the configurations by their names and those of
one name in the order given.  If the names are different, the order given does not show; and if they have no
slash besides, the uids are different.  What a reader loaded before stays what it was, and has no webhook of
the rebuilt snapshot in it. -/
theorem rebuild_merges_configurations (configurations : List Configuration) :
    (∀ snapshot : Snapshot, Merges (snapshot.publish configurations).webhooks configurations) ∧
    ((configurations.map (·.name)).Nodup → ∀ (snapshot : Snapshot) (given : List Configuration),
      given.Perm configurations → snapshot.publish given = snapshot.publish configurations) ∧
    ((∀ c ∈ configurations, c.IsRead) → ∀ snapshot : Snapshot,
      (∀ hook ∈ (snapshot.publish configurations).webhooks, ∃ c ∈ configurations, ∃ i,
        c.webhooks[i]?.map unnumbered = some (unnumbered hook) ∧
          hook.uid = uidAt c.name hook.name i) ∧
      ((configurations.map (·.name)).Nodup → (∀ c ∈ configurations, '/' ∉ c.name.toList) →
        ((snapshot.publish configurations).webhooks.map (·.uid)).Nodup)) ∧
    ∀ earlier later : List Event,
      (Readers.after (earlier ++ .loaded :: (later ++ [.rebuilt configurations]))).held[
          (Readers.after earlier).held.length]? = some (Readers.after earlier).snapshot.webhooks ∧
      Merges (Readers.after earlier).snapshot.webhooks (Readers.lastRebuilt earlier) ∧
      Merges (Readers.after (earlier ++ .loaded :: (later ++ [.rebuilt configurations]))).snapshot.webhooks
        configurations ∧
      ∀ hook ∈ (Readers.after earlier).snapshot.webhooks, ∀ rebuilt ∈ (Readers.after
          (earlier ++ .loaded :: (later ++ [.rebuilt configurations]))).snapshot.webhooks,
        hook.entry ≠ rebuilt.entry := by
  refine ⟨fun snapshot => merges_publish snapshot configurations,
    fun hnames snapshot given hperm => publish_of_perm snapshot hnames hperm,
    fun hread snapshot => ⟨fun hook hhook => declared_of_published snapshot hread hhook,
      fun hnames hslash => nodup_uids snapshot hnames fun c hc => ⟨hslash c hc, hread c hc⟩⟩, ?_⟩
  intro earlier later
  have hheld := Readers.play_load {} earlier (later ++ [.rebuilt configurations])
  have hloaded := Readers.play_load {} earlier later
  rw [← List.cons_append, ← List.append_assoc] at hheld ⊢
  have hrebuilt : Readers.after (earlier ++ .loaded :: later ++ [.rebuilt configurations]) =
      (Readers.after (earlier ++ .loaded :: later)).step (.rebuilt configurations) := by
    rw [Readers.after, Readers.play_append]
    rfl
  refine ⟨hheld, (Readers.published_after earlier).merges, ?_, fun hook hhook rebuilt h => ?_⟩
  · rw [hrebuilt]
    exact merges_publish _ configurations
  · exact Readers.entry_ne_of_rebuilt (List.mem_of_getElem? hloaded) configurations hhook h

/-- A configuration object, in which nothing but the names is declared. -/
def namesJson (configuration : String) (webhooks : List String) : Json :=
  .obj [("metadata", .obj [("name", .str configuration)]),
    ("webhooks", .arr (webhooks.map fun webhook => .obj [("name", .str webhook)]))]

/-- What is read of it. -/
def namesOnly (configuration : String) (webhooks : List String) : Configuration where
  kind := .mutating
  metadata := { name := some configuration }
  webhooks := webhooks.mapIdx fun i webhook =>
    { Webhook.bare webhook .mutating with
      uid := uidAt configuration webhook i
      configuration := configuration
      sideEffects := none
      reviewVersions := [] }

/-- Two configurations, the second one to be merged first, with a webhook declared twice and one whose name looks
like the end of the other one's uid. -/
def slashed : List Configuration := [namesOnly "b" ["x", "x", "x/0"], namesOnly "a" ["b/x", "x"]]

theorem isRead_slashed : ∀ c ∈ slashed, c.IsRead := by
  have hb : Configuration.ofJson .mutating (namesJson "b" ["x", "x", "x/0"]) =
      .ok (namesOnly "b" ["x", "x", "x/0"]) := by decide +kernel
  have ha : Configuration.ofJson .mutating (namesJson "a" ["b/x", "x"]) =
      .ok (namesOnly "a" ["b/x", "x"]) := by decide +kernel
  exact List.forall_mem_cons.2 ⟨⟨_, _, _, hb⟩, List.forall_mem_singleton.2 ⟨_, _, _, ha⟩⟩

/-- The uids are different, in whatever order the two are given, and a reader of the first rebuild keeps its
list. -/
theorem rebuild_merges_configurations_slashed :
    Snapshot.initial.publish slashed.reverse = Snapshot.initial.publish slashed ∧
    (Snapshot.initial.publish slashed).webhooks.map (·.uid) =
      ["a/b/x/0", "a/x/1", "b/x/0", "b/x/1", "b/x/0/2"] ∧
    ((Snapshot.initial.publish slashed).webhooks.map (·.uid)).Nodup ∧
    (Readers.after [.rebuilt slashed.reverse, .loaded, .rebuilt slashed]).held[0]? =
      some (Snapshot.initial.publish slashed.reverse).webhooks := by
  obtain ⟨-, hperm, huids, hreaders⟩ := rebuild_merges_configurations slashed
  have hnames : (slashed.map (·.name)).Nodup := by decide
  have hslash : ∀ c ∈ slashed, '/' ∉ c.name.toList := by decide
  have horder := hperm hnames Snapshot.initial _ (List.reverse_perm _)
  refine ⟨horder, ?_, ?_, ?_⟩
  · rw [← horder, uids_publish, byName, List.mergeSort_of_pairwise (by decide)]
    decide +kernel
  · exact (huids isRead_slashed _).2 hnames hslash
  · exact (hreaders [.rebuilt slashed.reverse] []).1

end Snapshot

end Admission
