import Admission.Cluster.Watch
import Admission.Proofs.Dict
import Admission.Proofs.Results

/-!
# What events say of the objects of a kind

Events come in stages: a list announces itself, gives its objects and is done, and only then single objects
come and go, until there is another list (`Stage`).  At any time the last event that says something about an
object decides whether it is there (`alive`); a list that is done says something about every object, that
it is there or, by leaving it out, that it is gone.

A copy that is kept by events holds exactly the objects that are there by the events so far
(`Reflector.Holds.handle`), and the events of a watcher come in stages, each object under its own name
(`Watcher.Gives.inStages`).
-/

namespace Admission

variable {α : Type}

/-! ## 1. Stages -/

/-- How far one is with the objects of a kind. -/
inductive Stage where
  /-- No list has begun. -/
  | unlisted
  /-- A list is being read. -/
  | listing
  /-- A list is complete. -/
  | current
  deriving DecidableEq, Repr

namespace Stage

/-- The stage after an event; none if the event cannot come at this stage.  A list may begin and something
may go wrong at any stage. -/
def next? : Stage → StoreEvent α → Option Stage
  | _, .listing => some .listing
  | .listing, .listed _ _ => some .listing
  | .listing, .listDone => some .current
  | .current, .applied _ _ => some .current
  | .current, .deleted _ => some .current
  | stage, .failed => some stage
  | _, _ => none

/-- The stage after events, if they come in stages. -/
def through? (stage : Stage) (events : List (StoreEvent α)) : Option Stage :=
  events.foldlM next? stage

theorem through?_append (stage : Stage) (events more : List (StoreEvent α)) :
    stage.through? (events ++ more) = (stage.through? events).bind (·.through? more) :=
  List.foldlM_append

theorem through?_cons (stage : Stage) (event : StoreEvent α) (events : List (StoreEvent α)) :
    stage.through? (event :: events) = (stage.next? event).bind (·.through? events) := rfl

theorem through?_listed (objects : List (String × α)) :
    Stage.listing.through? (objects.map fun (name, object) => .listed name object) =
      some .listing := by
  induction objects with
  | nil => rfl
  | cons object rest ih => exact ih

end Stage

/-! ## 2. Objects that are there -/

namespace StoreEvent

/-- What the list that is being read has given under a name, the newest event first. -/
def listedUnder (name : String) : List (StoreEvent α) → Option α
  | .listed other object :: older => if name = other then some object else listedUnder name older
  | .listing :: _ => none
  | .listDone :: _ => none
  | _ :: older => listedUnder name older
  | [] => none

/-- What there is under a name, the newest event first: **the last event that says something about the name
decides**. -/
def aliveUnder (name : String) : List (StoreEvent α) → Option α
  | .listDone :: older => listedUnder name older
  | .applied other object :: older => if name = other then some object else aliveUnder name older
  | .deleted other :: older => if name = other then none else aliveUnder name older
  | _ :: older => aliveUnder name older
  | [] => none

/-- What there is under a name after events. -/
def alive (events : List (StoreEvent α)) (name : String) : Option α :=
  aliveUnder name events.reverse

/-- What the list that is being read after events has given under a name. -/
def listed? (events : List (StoreEvent α)) (name : String) : Option α :=
  listedUnder name events.reverse

theorem alive_concat (events : List (StoreEvent α)) (event : StoreEvent α) (name : String) :
    alive (events ++ [event]) name = aliveUnder name (event :: events.reverse) := by
  unfold alive
  rw [List.reverse_append]
  rfl

theorem listed?_concat (events : List (StoreEvent α)) (event : StoreEvent α) (name : String) :
    listed? (events ++ [event]) name = listedUnder name (event :: events.reverse) := by
  unfold listed?
  rw [List.reverse_append]
  rfl

/-- Whether an event is about an object and says so, under a name. -/
def Gives (name : String) (object : α) (event : StoreEvent α) : Prop :=
  event = .listed name object ∨ event = .applied name object

theorem exists_of_listedUnder {name : String} {object : α} {events : List (StoreEvent α)}
    (h : listedUnder name events = some object) : ∃ event ∈ events, event.Gives name object := by
  induction events with
  | nil => cases h
  | cons event older ih =>
    cases event with
    | listed other given =>
      unfold listedUnder at h
      split at h
      · rename_i hname
        cases h
        exact ⟨_, List.mem_cons_self, .inl (by rw [hname])⟩
      · exact List.exists_mem_cons_of_exists (ih h)
    | listing => cases h
    | listDone => cases h
    | applied _ _ | deleted _ | failed =>
      exact List.exists_mem_cons_of_exists (ih h)

theorem exists_of_aliveUnder {name : String} {object : α} {events : List (StoreEvent α)}
    (h : aliveUnder name events = some object) : ∃ event ∈ events, event.Gives name object := by
  induction events with
  | nil => cases h
  | cons event older ih =>
    cases event with
    | listDone =>
      exact List.exists_mem_cons_of_exists (exists_of_listedUnder h)
    | applied other given =>
      unfold aliveUnder at h
      split at h
      · rename_i hname
        cases h
        exact ⟨_, List.mem_cons_self, .inr (by rw [hname])⟩
      · exact List.exists_mem_cons_of_exists (ih h)
    | deleted other =>
      unfold aliveUnder at h
      split at h
      · cases h
      · exact List.exists_mem_cons_of_exists (ih h)
    | listing | listed _ _ | failed =>
      exact List.exists_mem_cons_of_exists (ih h)

theorem exists_of_alive {name : String} {object : α} {events : List (StoreEvent α)}
    (h : alive events name = some object) : ∃ event ∈ events, event.Gives name object := by
  obtain ⟨event, hm, hgives⟩ := exists_of_aliveUnder h
  exact ⟨event, List.mem_reverse.1 hm, hgives⟩

/-- **What a list leaves out is gone when it is done**, whatever was there before and whatever went wrong in
the middle. -/
theorem alive_of_left_out {past given : List (StoreEvent α)} {name : String}
    (hgiven : ∀ event ∈ given, event = .failed ∨ ∃ other object, event = .listed other object ∧
      name ≠ other) :
    alive (past ++ .listing :: given ++ [.listDone]) name = none := by
  rw [alive_concat]
  show listedUnder name (past ++ .listing :: given).reverse = none
  rw [List.reverse_append, List.reverse_cons, List.append_assoc]
  generalize hnewest : given.reverse = newest
  have hnewest' : ∀ event ∈ newest, event = .failed ∨
      ∃ other object, event = .listed other object ∧ name ≠ other :=
    fun event hm => hgiven event (List.mem_reverse.1 (hnewest ▸ hm))
  clear hnewest
  induction newest with
  | nil => rfl
  | cons event older ih =>
    have hrest := ih fun event hm => hnewest' event (List.mem_cons_of_mem _ hm)
    rcases hnewest' event List.mem_cons_self with rfl | ⟨other, object, rfl, hne⟩
    · exact hrest
    · exact (if_neg hne).trans hrest

end StoreEvent

/-! ## 3. The copy -/

open StoreEvent

/-- **What a copy holds after events**: the objects that are there, and what the list that is being read has
given so far. -/
structure Reflector.Holds (reflector : Reflector α) (events : List (StoreEvent α)) : Prop where
  objects : ∀ name, reflector.objects.get? name = alive events name
  listing : ∀ name, reflector.listing.get? name = listed? events name

theorem Reflector.holds_empty : (Reflector.empty : Reflector α).Holds [] :=
  ⟨fun _ => rfl, fun _ => rfl⟩

theorem Reflector.Holds.handle {reflector : Reflector α} {events : List (StoreEvent α)}
    (h : reflector.Holds events) (event : StoreEvent α) :
    (reflector.handle event).Holds (events ++ [event]) := by
  refine ⟨fun name => ?_, fun name => ?_⟩
  · rw [alive_concat]
    cases event with
    | listDone => exact h.listing name
    | applied other object =>
      refine (Dict.get?_insert _ other object name).trans ?_
      rw [h.objects]
      rfl
    | deleted other =>
      refine (Dict.get?_erase _ other name).trans ?_
      rw [h.objects]
      rfl
    | listing | listed _ _ | failed => exact h.objects name
  · rw [listed?_concat]
    cases event with
    | listing | listDone => rfl
    | listed other object =>
      refine (Dict.get?_insert _ other object name).trans ?_
      rw [h.listing]
      rfl
    | applied _ _ | deleted _ | failed => exact h.listing name

/-! ## 4. The events of a watcher -/

/-- Every object is given under its own name. -/
def StoreEvent.OwnName (nameOf : α → String) (event : StoreEvent α) : Prop :=
  ∀ name object, event.Gives name object → nameOf object = name

/-- What is read of an object has the name that its metadata say. -/
def Watched.ReadsNames (read : Watched α) (nameOf : α → String) : Prop :=
  ∀ value metadata object, read value = .ok (metadata, object) → metadata.name.getD "" = nameOf object

theorem Watched.readsNames_configuration (kind : WebhookKind) :
    (Watched.configuration kind).ReadsNames Configuration.name := by
  intro value metadata object h
  obtain ⟨configuration, -, h⟩ := bind_eq_ok.1 h
  cases h
  rfl

/-- Whether an event is one of those that come between lists, with an object under its own name. -/
inductive StoreEvent.Change (nameOf : α → String) : StoreEvent α → Prop where
  | applied (object : α) : Change nameOf (.applied (nameOf object) object)
  | deleted (name : String) : Change nameOf (.deleted name)
  | failed : Change nameOf .failed

theorem StoreEvent.Change.ownName {nameOf : α → String} {event : StoreEvent α}
    (h : event.Change nameOf) : event.OwnName nameOf := by
  intro name object hgives
  rcases hgives with rfl | rfl
  · cases h
  · cases h
    rfl

theorem Stage.through?_changes {nameOf : α → String} {events : List (StoreEvent α)}
    (h : ∀ event ∈ events, event.Change nameOf) : Stage.current.through? events = some .current := by
  induction events with
  | nil => rfl
  | cons event rest ih =>
    have hrest := ih fun event hm => h event (List.mem_cons_of_mem _ hm)
    cases h event List.mem_cons_self with
    | applied | deleted | failed => exact hrest

section Reading

variable {read : Watched α} {nameOf : α → String}

theorem WatchMeaning.change_of_ofEvent (hread : read.ReadsNames nameOf) {value : Json}
    {event : StoreEvent α} (h : WatchMeaning.ofEvent read value = .change event) :
    event.Change nameOf := by
  have hobject : ∀ {change : String → α → StoreEvent α} {value : Json},
      (∀ object, (change (nameOf object) object).Change nameOf) →
      WatchMeaning.ofObject read change value = .change event → event.Change nameOf := by
    intro change value hchange h
    unfold ofObject at h
    split at h
    · cases h
    · rename_i metadata object hvalue
      split at h
      · cases h
      · cases h
        rw [hread _ _ _ hvalue]
        exact hchange object
  unfold ofEvent at h
  split at h
  · rename_i type object _ _
    by_cases h1 : type = "ADDED" ∨ type = "MODIFIED"
    · rw [if_pos h1] at h
      exact hobject .applied h
    · rw [if_neg h1] at h
      by_cases h2 : type = "DELETED"
      · rw [if_pos h2] at h
        exact hobject (fun object => .deleted (nameOf object)) h
      · rw [if_neg h2] at h
        -- what is left are bookmarks and errors
        repeat' split at h
        all_goals cases h
  · cases h

theorem Json.exists_of_orNull_asList {value : Json} {items : Option (List (ObjectMeta × α))}
    (h : value.orNull (Json.asList read) = .ok items) :
    ∀ p ∈ items.getD [], ∃ item, read item = .ok p := by
  intro p hp
  unfold Json.orNull at h
  split at h
  · cases h
    cases hp
  · cases hlist : Json.asList read value with
    | error e => rw [hlist] at h; cases h
    | ok list =>
      rw [hlist] at h
      cases h
      cases value with
      | arr values =>
        obtain ⟨item, -, hitem⟩ := exists_of_mapM_eq_ok hlist hp
        exact ⟨item, hitem⟩
      | _ => cases hlist

theorem ListReply.nameOf_of_objects (hread : read.ReadsNames nameOf) {reply : ListReply}
    {objects : List (String × α)} (h : reply.objects read = some objects) :
    ∀ p ∈ objects, nameOf p.2 = p.1 := by
  have hdecoded := toOption_eq_some.1 (Option.join_eq_some_iff.1 h)
  obtain ⟨fields, -, hdecoded⟩ := bind_eq_ok.1 hdecoded
  obtain ⟨metadata, -, hdecoded⟩ := bind_eq_ok.1 hdecoded
  obtain ⟨version, -, hdecoded⟩ := bind_eq_ok.1 hdecoded
  obtain ⟨items, hitems, hdecoded⟩ := bind_eq_ok.1 hdecoded
  have hfound := Except.ok.inj hdecoded
  split at hfound
  · rw [← Option.some.inj hfound]
    intro p hp
    obtain ⟨⟨metadata, object⟩, hm, rfl⟩ := List.mem_map.1 hp
    unfold Fields.required at hitems
    split at hitems
    · obtain ⟨item, hitem⟩ := Json.exists_of_orNull_asList hitems _ hm
      exact (hread item metadata object hitem).symm
    · cases hitems
  · cases hfound

end Reading

namespace Watcher

/-- **What a watcher has given**: it is started, lines arrive and time passes, in any order and any number of
times, and every request for a list is answered somehow. -/
inductive Gives (read : Watched α) : Watcher → List (StoreEvent α) → Prop where
  | created : Gives read {} []
  | started {watcher events} (reply : ListReply) (h : Gives read watcher events) :
      Gives read (watcher.start read reply).1 (events ++ (watcher.start read reply).2)
  | received {watcher events} (line : WatchLine) (h : Gives read watcher events) :
      Gives read (watcher.receive read line).1 (events ++ (watcher.receive read line).2)
  | advanced {watcher events} (reply : ListReply) (passed : Time.Span)
      (h : Gives read watcher events) :
      Gives read (watcher.advance read reply passed).1
        (events ++ (watcher.advance read reply passed).2)

section Gives

variable {read : Watched α} {nameOf : α → String}

theorem change_of_take (hread : read.ReadsNames nameOf) (lines : List WatchLine) (watcher : Watcher) :
    ∀ event ∈ (watcher.take read lines).2, event.Change nameOf := by
  induction lines generalizing watcher with
  | nil => exact fun event hm => by cases hm
  | cons line rest ih =>
    cases line with
    | closed => exact ih _
    | event value =>
      unfold take
      cases hmeaning : WatchMeaning.ofEvent read value with
      | change event =>
        intro other hm
        rcases List.mem_cons.1 hm with rfl | hm
        · exact WatchMeaning.change_of_ofEvent hread hmeaning
        · exact ih _ other hm
      | nothing => exact ih _
      | lost | fault =>
        intro other hm
        rw [List.mem_singleton.1 hm]
        exact .failed

/-- After a list that was read a watch is open, and all that has been given is the list. -/
theorem list_cases (hread : read.ReadsNames nameOf) (reply : ListReply) (watcher : Watcher) :
    ((watcher.list read reply).1.phase = .unlisted ∧
      (watcher.list read reply).2 = [.listing, .failed]) ∨
    ∃ objects : List (String × α), (∀ p ∈ objects, nameOf p.2 = p.1) ∧
      (watcher.list read reply).2 =
        .listing :: objects.map (fun (name, object) => .listed name object) ++ [.listDone] := by
  unfold list
  cases hreply : reply.objects read with
  | none => exact .inl ⟨rfl, rfl⟩
  | some objects => exact .inr ⟨objects, ListReply.nameOf_of_objects hread hreply, rfl⟩

/-- **What a watcher gives comes in stages**, with objects under their own names, and between lists while a
watch is open. -/
def InStages (nameOf : α → String) (stage : Stage) (given : Watcher × List (StoreEvent α)) : Prop :=
  ∃ next, stage.through? given.2 = some next ∧ (given.1.phase = .watching → next = .current) ∧
    ∀ event ∈ given.2, event.OwnName nameOf

theorem inStages_nil {watcher : Watcher} {stage : Stage}
    (h : watcher.phase = .watching → stage = .current) : InStages nameOf stage (watcher, []) :=
  ⟨stage, rfl, h, fun event hm => by cases hm⟩

theorem inStages_list (hread : read.ReadsNames nameOf) (reply : ListReply) (watcher : Watcher)
    (stage : Stage) : InStages nameOf stage (watcher.list read reply) := by
  rcases list_cases hread reply watcher with ⟨hphase, hgiven⟩ | ⟨objects, hnames, hgiven⟩
  · refine ⟨.listing, ?_, fun h => ?_, ?_⟩
    · rw [hgiven]
      rfl
    · rw [hphase] at h
      cases h
    · rw [hgiven]
      intro event hm name object hgives
      rcases List.mem_pair.1 hm with rfl | rfl <;> rcases hgives with h | h <;> cases h
  · refine ⟨.current, ?_, fun _ => rfl, ?_⟩
    · rw [hgiven, List.cons_append, Stage.through?_cons]
      show Stage.listing.through? _ = _
      rw [Stage.through?_append, Stage.through?_listed]
      rfl
    · rw [hgiven]
      intro event hm name object hgives
      simp only [List.cons_append, List.mem_cons, List.mem_append, List.mem_map,
        List.not_mem_nil, or_false] at hm
      rcases hm with rfl | ⟨p, hp, rfl⟩ | rfl
      · rcases hgives with h | h <;> cases h
      · rcases hgives with h | h
        · cases h
          exact hnames p hp
        · cases h
      · rcases hgives with h | h <;> cases h

theorem inStages_take (hread : read.ReadsNames nameOf) (lines : List WatchLine) (watcher : Watcher) :
    InStages nameOf .current (watcher.take read lines) := by
  have hchanges := change_of_take hread lines watcher
  exact ⟨.current, Stage.through?_changes hchanges, fun _ => rfl,
    fun event hm => (hchanges event hm).ownName⟩

theorem InStages.append {stage : Stage} {watcher after : Watcher} {events more : List (StoreEvent α)}
    (h : InStages nameOf stage (watcher, events))
    (hmore : ∀ next : Stage, (watcher.phase = .watching → next = .current) →
      InStages nameOf next (after, more)) : InStages nameOf stage (after, events ++ more) := by
  obtain ⟨next, hthrough, hphase, hnames⟩ := h
  obtain ⟨last, hlast, hafter, hothers⟩ := hmore next hphase
  refine ⟨last, ?_, hafter, fun event hm => ?_⟩
  · rw [Stage.through?_append, hthrough]
    exact hlast
  · exact (List.mem_append.1 hm).elim (hnames event) (hothers event)

/-- Whatever happens, the events of a watcher come in stages. -/
theorem Gives.inStages (hread : read.ReadsNames nameOf) {watcher : Watcher}
    {events : List (StoreEvent α)} (h : Gives read watcher events) :
    InStages nameOf .unlisted (watcher, events) := by
  induction h with
  | created => exact inStages_nil fun h => by cases h
  | @started watcher events reply _ ih =>
    refine ih.append fun stage hstage => ?_
    unfold start
    split
    · exact inStages_list hread reply watcher stage
    · exact inStages_nil hstage
  | @received watcher events line _ ih =>
    refine ih.append fun stage hstage => ?_
    unfold receive
    split
    · rename_i hphase _
      rw [hstage hphase]
      exact inStages_take hread [line] watcher
    · exact inStages_nil hstage
    · exact inStages_nil hstage
  | @advanced watcher events reply passed _ ih =>
    refine ih.append fun stage hstage => ?_
    unfold advance
    split
    · exact inStages_nil hstage
    · split
      · exact inStages_nil hstage
      · split
        · rename_i hphase
          rw [hstage hphase]
          exact inStages_take hread watcher.inbox _
        · exact inStages_list hread reply watcher stage

end Gives

end Watcher

end Admission
