import Admission.Proofs.Dispatch.Fidelity
import Admission.Proofs.Text.Joined

/-!
# What the notes of a dispatch are worth

A dispatch notes of every mutating webhook that it went well or that it was passed over, under a key that
says at which place of the list the webhook stands.  Webhooks put annotations on the same record, each under
keys that start with its own name, and what is first on record stays.  Two keys are the same only if their
starts are, because there is no slash in what is behind the slash of a note's key (`joined_inj`), and the
notes on different webhooks have different keys.  So the only webhooks that can put something in a note's
place are those that bear the start of its key as their name, and what they get there is written out in
`notes_are_true_unless_forged`.
-/

namespace Admission

/-! ## 1. Keys -/

theorem slash_notMem_placeKey (index : Nat) : '/' ∉ (placeKey index).toList := by
  rw [placeKey, String.toList_append, List.mem_append, not_or]
  exact ⟨by decide, slash_notMem_toString index⟩

theorem placeKey_inj {i j : Nat} : placeKey i = placeKey j ↔ i = j := by
  unfold placeKey
  rw [String.append_right_inj]
  exact Nat.repr_inj

theorem slash_notMem_of_noteStarts {start : String} (h : start ∈ noteStarts) :
    '/' ∉ start.toList := by
  revert start
  decide

/-- **Notes have the same key only if they are of the same sort and on the same place.** -/
theorem annotationKey_inj {start other : String} (h : start ∈ noteStarts) {i j : Nat} :
    annotationKey other j = annotationKey start i ↔ other = start ∧ j = i := by
  rw [annotationKey_eq, annotationKey_eq, joined_inj (slash_notMem_of_noteStarts h)
    (slash_notMem_placeKey i), placeKey_inj]

/-! ## 2. What a call puts in the place of a note -/

/-- What stands in the place of a note. -/
def AuditRecord.inPlace? (record : AuditRecord) (start : String) (index : Nat) : Option String :=
  record.annotations.get? (annotationKey start index)

namespace CallReport

/-- What the answer of a webhook has under a key of its own. -/
def answered? (report : CallReport) (key : String) : Option String :=
  match report.outcome with
  | .ok response => (response.auditAnnotations.getD ∅).get? key
  | .error _ => none

/-- What a webhook puts in the place of a note: something, if it bears the name that the key of the note
starts with. -/
def forged? (report : CallReport) (hook : Webhook) (start : String) (index : Nat) : Option String :=
  if hook.name = start then report.answered? (placeKey index) else none

/-- What the note on a webhook says, if it is of a sort. -/
def noted? (report : CallReport) (hook : Webhook) (start : String) : Option String :=
  match report.outcome with
  | .ok _ =>
    if start = Mutation.annotationStart then some (Mutation.annotationValue hook report.patches)
    else none
  | .error _ => if start = Policy.failOpenKey hook.kind then some hook.name else none

end CallReport

namespace Effect

theorem firstFor?_annotations (name : String) {start rest : String} (hstart : '/' ∉ start.toList)
    (hrest : '/' ∉ rest.toList) (fields : Fields String) :
    firstFor? (start ++ "/" ++ rest)
        (fields.map fun pair => .annotate (name ++ "/" ++ pair.1) pair.2) =
      if name = start then fields.get? rest else none := by
  induction fields with
  | nil => simp [firstFor?]
  | cons pair others ih =>
    unfold firstFor? at ih ⊢
    rw [List.map_cons, List.findSome?_cons, ih, valueFor?]
    by_cases hname : name = start
    · rw [if_pos hname, if_pos hname]
      by_cases hkey : pair.1 = rest
      · rw [if_pos ((joined_inj hstart hrest).2 ⟨hname, hkey⟩), Fields.get?, if_pos hkey]
      · rw [if_neg fun h => hkey ((joined_inj hstart hrest).1 h).2, Fields.get?, if_neg hkey]
    · rw [if_neg fun h => hname ((joined_inj hstart hrest).1 h).1, if_neg hname, if_neg hname]

theorem firstFor?_warnings (key : String) (texts : List String) :
    firstFor? key (texts.map warn) = none := by
  unfold firstFor?
  rw [List.findSome?_eq_none_iff]
  intro effect hm
  obtain ⟨text, -, rfl⟩ := List.mem_map.1 hm
  rfl

variable {start : String} (h : start ∈ noteStarts)
include h

/-- **What a call leaves behind is in the place of a note** only if the webhook bears the start of its
key as its name. -/
theorem firstFor?_effects (report : CallReport) (hook : Webhook) (operation : Operation) (index : Nat) :
    firstFor? (annotationKey start index) (report.effects hook operation) =
      report.forged? hook start index := by
  unfold CallReport.effects CallReport.forged? CallReport.answered?
  rw [firstFor?_append, annotationKey_eq]
  refine (congrArg (Option.or · _) (?measured : _ = none)).trans ?answered
  case measured => rcases report.measured with _ | ⟨rejected, took⟩ <;> rfl
  case answered =>
    rw [Option.none_or]
    cases report.outcome with
    | error failure => simp [firstFor?]
    | ok response =>
      dsimp only
      rw [firstFor?_append, firstFor?_warnings, Option.or_none]
      exact firstFor?_annotations hook.name (slash_notMem_of_noteStarts h) (slash_notMem_placeKey index) _

theorem firstFor?_turnNote (report : CallReport) (hook : Webhook) (place index : Nat) :
    firstFor? (annotationKey start index) [MutatingDispatch.turnNote hook place report] =
      if place = index then report.noted? hook start else none := by
  have hkey : ∀ other value : String,
      firstFor? (annotationKey start index) [annotate (annotationKey other place) value] =
        if place = index then if start = other then some value else none else none := by
    intro other value
    unfold firstFor?
    rw [List.findSome?_cons, List.findSome?_nil, valueFor?]
    by_cases hplace : place = index
    · by_cases hother : start = other
      · rw [if_pos ((annotationKey_inj h).2 ⟨hother.symm, hplace⟩), if_pos hplace, if_pos hother]
      · rw [if_neg fun heq => hother ((annotationKey_inj h).1 heq).1.symm, if_pos hplace,
          if_neg hother]
    · rw [if_neg fun heq => hplace ((annotationKey_inj h).1 heq).2, if_neg hplace]
  unfold MutatingDispatch.turnNote CallReport.noted?
  cases report.outcome with
  | ok response => exact hkey _ _
  | error failure => exact hkey _ _

end Effect

namespace MutatingDispatch

variable {σ : Type}

/-! ## 3. What a run puts in the place of a note -/

/-- What webhooks after which the request went on have written, the first of them at a place. -/
def turns (operation : Operation) : Nat → History → List Effect
  | _, [] => []
  | place, call :: rest =>
    call.2.effects call.1.webhook operation ++
      turnNote call.1.webhook place call.2 :: turns operation (place + 1) rest

/-- What webhooks put in the place of a note; the first counts. -/
def forged? (start : String) (index : Nat) (history : History) : Option String :=
  history.findSome? fun call => call.2.forged? call.1.webhook start index

/-- What the note on the webhook at a place says, if it is of a sort. -/
def noted? (start : String) (index : Nat) (history : History) : Option String :=
  history[index]?.bind fun call => call.2.noted? call.1.webhook start

theorem turns_append (operation : Operation) (place : Nat) (xs ys : History) :
    turns operation place (xs ++ ys) =
      turns operation place xs ++ turns operation (place + xs.length) ys := by
  induction xs generalizing place with
  | nil => rfl
  | cons call rest ih =>
    rw [List.cons_append, turns, turns, ih, List.length_cons, List.append_assoc, List.cons_append]
    congr 4
    omega

section Places

variable {start : String} (h : start ∈ noteStarts) (operation : Operation)
include h

theorem firstFor?_turn (call : Invocation × CallReport) (place index : Nat) :
    Effect.firstFor? (annotationKey start index) (turns operation place [call]) =
      (call.2.forged? call.1.webhook start index).or
        (if place = index then call.2.noted? call.1.webhook start else none) := by
  show Effect.firstFor? _ (call.2.effects call.1.webhook operation ++
    [turnNote call.1.webhook place call.2]) = _
  rw [Effect.firstFor?_append, Effect.firstFor?_effects h, Effect.firstFor?_turnNote h]

/-- In the place of a note on another webhook there is only what is put there. -/
theorem firstFor?_turns_elsewhere {place index : Nat} {history : History}
    (hne : index < place ∨ place + history.length ≤ index) :
    Effect.firstFor? (annotationKey start index) (turns operation place history) =
      forged? start index history := by
  induction history generalizing place with
  | nil => rfl
  | cons call rest ih =>
    have hother : place ≠ index := by
      rw [List.length_cons] at hne
      omega
    have hrest : index < place + 1 ∨ place + 1 + rest.length ≤ index := by
      rw [List.length_cons] at hne
      omega
    have hcons : turns operation place (call :: rest) =
        turns operation place [call] ++ turns operation (place + 1) rest :=
      turns_append operation place [call] rest
    rw [hcons, Effect.firstFor?_append, firstFor?_turn h, if_neg hother, Option.or_none, ih hrest]
    unfold forged?
    rw [List.findSome?_cons]
    cases call.2.forged? call.1.webhook start index <;> rfl

/-- **In the place of a note is the first of**: what webhooks put there up to the webhook in question, the
note, and what later webhooks put there. -/
theorem firstFor?_turns (history : History) (index : Nat) :
    Effect.firstFor? (annotationKey start index) (turns operation 0 history) =
      (forged? start index (history.take (index + 1))).or
        ((noted? start index history).or (forged? start index (history.drop (index + 1)))) := by
  unfold noted?
  cases hcall : history[index]? with
  | none =>
    have hlen : history.length ≤ index := List.getElem?_eq_none_iff.1 hcall
    rw [List.take_of_length_le (by omega), List.drop_of_length_le (by omega),
      firstFor?_turns_elsewhere h operation (.inr (by omega))]
    exact Option.or_none.symm
  | some call =>
    have hlt : index < history.length := (List.getElem?_eq_some_iff.1 hcall).1
    have htake : history.take (index + 1) = history.take index ++ [call] := by
      rw [List.take_add_one, hcall]
      rfl
    have hlen : (history.take index).length = index := List.length_take_of_le (Nat.le_of_lt hlt)
    calc Effect.firstFor? (annotationKey start index) (turns operation 0 history)
        = Effect.firstFor? (annotationKey start index) (turns operation 0
            (history.take index ++ [call] ++ history.drop (index + 1))) := by
          rw [← htake, List.take_append_drop]
      _ = ((forged? start index (history.take index)).or
            ((call.2.forged? call.1.webhook start index).or
              (call.2.noted? call.1.webhook start))).or
            (forged? start index (history.drop (index + 1))) := by
          rw [turns_append, turns_append, Effect.firstFor?_append, Effect.firstFor?_append,
            firstFor?_turns_elsewhere h operation (.inr (by omega)), firstFor?_turn h,
            if_pos (by omega), firstFor?_turns_elsewhere h operation (.inl ?_)]
          rw [List.length_append, hlen, List.length_singleton]
          omega
      _ = _ := by
          rw [htake]
          unfold forged?
          rw [List.findSome?_append, Option.or_assoc, Option.or_assoc, Option.or_assoc,
            List.findSome?_cons, List.findSome?_nil]
          cases call.2.forged? call.1.webhook start index <;> rfl

end Places

/-! ## 4. The record of a dispatch -/

/-- What a run has put on record: what webhooks after which the request went on have written, and what the
call that ended it has left behind, if one did. -/
def written (operation : Operation) (place : Nat) (passed last : History) : List Effect :=
  turns operation place passed ++ last.flatMap fun call => call.2.effects call.1.webhook operation

theorem written_cons (operation : Operation) (place : Nat) (call : Invocation × CallReport)
    (passed last : History) : written operation place (call :: passed) last =
      call.2.effects call.1.webhook operation ++
        turnNote call.1.webhook place call.2 :: written operation (place + 1) passed last := by
  rw [written, turns, List.append_assoc, List.cons_append]
  rfl

section Record

variable {caller : Caller σ} {scheme : Scheme} {request : Request}

/-- **A run puts on record** what its calls leave behind, in the order of the webhooks, each with the note on
it if the request goes on. -/
theorem record_of_steps {invocations : List Invocation} {place : Nat} {stop : Option StatusError}
    {run after : Run σ}
    (h : steps caller scheme request place invocations run = (stop, after)) :
    ∃ reports passed last, after.reports = run.reports ++ reports ∧
      invocations.zip reports = passed ++ last ∧ last.length ≤ 1 ∧ (stop = none → last = []) ∧
      after.tally.record =
        Effect.noteAll run.tally.record (written request.operation place passed last) := by
  induction invocations generalizing place run with
  | nil =>
    cases h
    exact ⟨[], [], [], (List.append_nil _).symm, rfl, Nat.zero_le _, fun _ => rfl, rfl⟩
  | cons invocation rest ih =>
    unfold steps at h
    cases hobjects : (run.held request).convertTo scheme.convert invocation.kind with
    | error e =>
      rw [step_unconvertible caller scheme request place invocation run hobjects] at h
      cases h
      exact ⟨[], [], [], (List.append_nil _).symm, rfl, Nat.zero_le _, fun _ => rfl, rfl⟩
    | ok objects =>
      generalize hcall : caller.call request invocation objects run.world = called
      obtain ⟨report, world⟩ := called
      have hstep := step_recorded caller scheme request place invocation run hobjects hcall
      cases hend : Mutation.conclude scheme invocation.webhook report objects.object with
      | error e =>
        rw [hend] at hstep
        obtain ⟨next, hs, hreports, -, -, hrecord⟩ := hstep
        rw [hs] at h
        cases h
        refine ⟨[report], [], [(invocation, report)], hreports, ?_, Nat.le_refl _,
          (fun h => by cases h), ?_⟩
        · rw [List.zip_cons_cons, List.zip_nil_right]
          rfl
        · rw [hrecord, written, List.flatMap_singleton]
          rfl
      | ok object =>
        rw [hend] at hstep
        obtain ⟨next, hs, hreports, -, -, hrecord⟩ := hstep
        rw [hs] at h
        obtain ⟨reports, passed, last, hafter, hzip, hlast, hstop, hnoted⟩ := ih h
        refine ⟨report :: reports, (invocation, report) :: passed, last, ?_, ?_, hlast, hstop, ?_⟩
        · rw [hafter, hreports, List.append_assoc]
          rfl
        · rw [List.zip_cons_cons, hzip]
          rfl
        · rw [hnoted, hrecord, written_cons]
          unfold Effect.noteAll
          rw [List.foldl_append, List.foldl_cons]

theorem record_of_dispatch (caller : Caller σ) (scheme : Scheme) (request : Request) (tally : Tally)
    (invocations : List Invocation) (world : σ) :
    let after := dispatch caller scheme request tally invocations world
    ∃ passed last, invocations.zip after.reports = passed ++ last ∧ last.length ≤ 1 ∧
      (after.verdict = .ok () → last = []) ∧
      after.tally.record =
        Effect.noteAll tally.record (written request.operation 0 passed last) := by
  intro after
  generalize hrun : steps caller scheme request 0 invocations ⟨none, tally, [], world⟩ = ended
  obtain ⟨stop, run⟩ := ended
  obtain ⟨reports, passed, last, hafter, hzip, hlast, hstop, hrecord⟩ := record_of_steps hrun
  have hreports : after.reports = run.reports := (dispatch_reports hrun).1
  rw [List.nil_append] at hafter
  refine ⟨passed, last, by rw [hreports, hafter, hzip], hlast, fun hok => ?_, ?_⟩
  · cases stop with
    | none => exact hstop rfl
    | some e =>
      unfold after dispatch at hok
      rw [hrun] at hok
      cases hok
  · rw [show after.tally = run.tally from dispatch_tally hrun, hrecord]

end Record

/-- Nobody puts something in the place of a note. -/
def Unforged (start : String) (index : Nat) (history : History) : Prop :=
  ∀ call ∈ history, call.1.webhook.name = start → call.2.answered? (placeKey index) = none

theorem Unforged.forged? {start : String} {index : Nat} {history part : History}
    (h : Unforged start index history) (hpart : part ⊆ history) :
    MutatingDispatch.forged? start index part = none := by
  unfold MutatingDispatch.forged?
  rw [List.findSome?_eq_none_iff]
  intro call hm
  unfold CallReport.forged?
  split
  · rename_i hname
    exact h call (hpart hm) hname
  · rfl

/-- **The notes of a dispatch are true unless they are forged.**  Let a request without annotations go on
after mutating webhooks.  Then all of them have been called, and in the place of a note there is the first of:
what webhooks that bear the start of its key as their name put there, up to the webhook in question; the
note; what later webhooks of that name put there.  Where nobody does, exactly one of two notes on a webhook
is there: that it went well, with its configuration, its name and whether it changed the object, or, if it
could not be asked, its name as one that was passed over; and there are no notes on webhooks that are not
in the list. -/
theorem notes_are_true_unless_forged (caller : Caller σ) (scheme : Scheme) (request : Request)
    {tally : Tally} (hempty : tally.record.annotations = ∅) (invocations : List Invocation) (world : σ)
    (hok : (dispatch caller scheme request tally invocations world).verdict = .ok ()) :
    let after := dispatch caller scheme request tally invocations world
    let history := invocations.zip after.reports
    let record := after.tally.record
    after.reports.length = invocations.length ∧
    (∀ start ∈ noteStarts, ∀ index, record.inPlace? start index =
      (forged? start index (history.take (index + 1))).or
        ((noted? start index history).or (forged? start index (history.drop (index + 1))))) ∧
    (∀ index invocation report, history[index]? = some (invocation, report) →
      Unforged Mutation.annotationStart index history →
      Unforged (Policy.failOpenKey invocation.webhook.kind) index history →
      ((∃ response, report.outcome = .ok response) ∧
          record.inPlace? Mutation.annotationStart index =
            some (Mutation.annotationValue invocation.webhook report.patches) ∧
          record.inPlace? (Policy.failOpenKey invocation.webhook.kind) index = none) ∨
        ((∃ name cause, report.outcome = .error (.calling name cause)) ∧
          invocation.webhook.failurePolicy = .ignore ∧
          record.inPlace? Mutation.annotationStart index = none ∧
          record.inPlace? (Policy.failOpenKey invocation.webhook.kind) index =
            some invocation.webhook.name)) ∧
    ∀ start ∈ noteStarts, ∀ index ≥ invocations.length, Unforged start index history →
      record.inPlace? start index = none := by
  intro after history record
  obtain ⟨stop, run, hrun, hhalt⟩ := exists_halt caller scheme request tally invocations world
  obtain ⟨hall, hpasses⟩ := (hhalt.ending hrun).of_ok hok
  have hlen : history.length = invocations.length := by
    rw [List.length_zip, hall, Nat.min_self]
  have hvalue : ∀ start ∈ noteStarts, ∀ index, record.inPlace? start index =
      (forged? start index (history.take (index + 1))).or
        ((noted? start index history).or (forged? start index (history.drop (index + 1)))) := by
    intro start hstart index
    obtain ⟨passed, last, hzip, -, hlast, hrecord⟩ :=
      record_of_dispatch caller scheme request tally invocations world
    have hpassed : passed = history := by
      rw [hlast hok, List.append_nil] at hzip
      exact hzip.symm
    unfold AuditRecord.inPlace?
    rw [show record = _ from hrecord, hlast hok, hpassed, Effect.get?_noteAll, hempty, Dict.get?_empty,
      Option.none_or, written, List.flatMap_nil, List.append_nil, firstFor?_turns hstart]
  have htrue : ∀ start ∈ noteStarts, ∀ index, Unforged start index history →
      record.inPlace? start index = noted? start index history := by
    intro start hstart index hnone
    rw [hvalue start hstart, hnone.forged? (List.take_subset _ _),
      hnone.forged? (List.drop_subset _ _), Option.none_or, Option.or_none]
  refine ⟨hall, hvalue, fun index invocation report hcall hwell hopen => ?_,
    fun start hstart index hindex hnone => ?_⟩
  · have hne : ∀ kind, Policy.failOpenKey kind ≠ Mutation.annotationStart := by
      intro kind
      cases kind <;> decide
    have hnoted : ∀ start, noted? start index history = report.noted? invocation.webhook start := by
      intro start
      unfold noted?
      rw [hcall]
      rfl
    rw [htrue _ (by simp [noteStarts]) index hwell, htrue _ (failOpenKey_mem _) index hopen, hnoted,
      hnoted]
    unfold CallReport.noted?
    rcases hpasses _ (List.mem_of_getElem? hcall) with ⟨response, hresponse, -⟩ | ⟨name, cause, hfailed,
      hpolicy⟩
    · rw [hresponse]
      exact .inl ⟨⟨response, rfl⟩, if_pos rfl, if_neg (hne _)⟩
    · rw [hfailed]
      exact .inr ⟨⟨name, cause, rfl⟩, hpolicy, if_neg (hne _).symm, if_pos rfl⟩
  · rw [htrue start hstart index hnone]
    unfold noted?
    rw [List.getElem?_eq_none (by omega)]
    rfl

/-! ### a pod and a webhook that forges notes -/

/-- A webhook server that allows every request as it is, with annotations. -/
def annotating (annotations : Fields String) : Caller Unit where
  Handle := Unit
  connect _ world := (.ok (), world)
  post _ review _ world :=
    (⟨.ok {
      apiVersion := Review.version
      kind := Review.kindName
      response := some {
        uid := (review.request.map (·.uid)).getD ""
        allowed := true
        auditAnnotations := some (.ofFields annotations) } }, ⟨0⟩⟩, world)
  defaultTimeout := ⟨0⟩

/-- The places of two notes: one on the only webhook there is, and one on no webhook. -/
def forgedNotes : Fields String :=
  [("round_0_index_0", "forged"), ("round_0_index_5", "forged")]

/-- The name of the webhook is that of the notes. -/
def forgingInvocation : Invocation :=
  { podInvocation with webhook := .bare Mutation.annotationStart .mutating }

/-- Under any other name the note is what it should be. -/
theorem notes_are_true_unless_forged_named_pod :
    let after := dispatch (annotating forgedNotes) plainScheme podCreation ⟨.empty, {}, []⟩
      [podInvocation] ()
    AuditRecord.empty.annotations = ∅ ∧ after.verdict = .ok () ∧
    after.tally.record.inPlace? Mutation.annotationStart 0 =
      some (Mutation.annotationValue podInvocation.webhook false) ∧
    after.tally.record.inPlace? Mutation.annotationStart 5 = none := by
  intro after
  have hempty : AuditRecord.empty.annotations = ∅ := rfl
  have hok : after.verdict = .ok () := by decide +kernel
  obtain ⟨-, -, hnotes, hbeyond⟩ := notes_are_true_unless_forged (annotating forgedNotes) plainScheme
    podCreation hempty [podInvocation] () hok
  have hstart : Mutation.annotationStart ∈ noteStarts := by simp [noteStarts]
  have hhistory : ∃ report, [podInvocation].zip after.reports = [(podInvocation, report)] ∧
      report.patches = false ∧ ∃ response, report.outcome = .ok response := by
    have hlen : after.reports.length = 1 := by decide +kernel
    obtain ⟨report, hreport⟩ := List.length_eq_one_iff.1 hlen
    have hpatches : after.reports.map (·.patches) = [false] := by decide +kernel
    have houtcome : after.reports.map (·.outcome.isOk) = [true] := by decide +kernel
    rw [hreport] at hpatches houtcome
    refine ⟨report, by rw [hreport]; rfl, (List.cons.inj hpatches).1, ?_⟩
    cases hr : report.outcome with
    | ok response => exact ⟨response, rfl⟩
    | error failure => simp [hr, Except.isOk, Except.toBool] at houtcome
  obtain ⟨report, hhistory, hpatches, response, hresponse⟩ := hhistory
  have hother : podInvocation.webhook.name ∉ noteStarts := by decide
  have hunforged : ∀ start ∈ noteStarts, ∀ index,
      Unforged start index ([podInvocation].zip after.reports) := by
    intro start hs index call hm hname
    rw [hhistory, List.mem_singleton] at hm
    subst hm hname
    exact absurd hs hother
  refine ⟨hempty, hok, ?_, hbeyond _ hstart 5 (by decide) (hunforged _ hstart 5)⟩
  rcases hnotes 0 podInvocation report (by rw [hhistory]; rfl) (hunforged _ hstart 0)
    (hunforged _ (failOpenKey_mem _) 0) with ⟨-, hvalue, -⟩ | ⟨⟨_, _, hfailed⟩, -⟩
  · exact hvalue.trans (by rw [hpatches])
  · rw [hresponse] at hfailed
    cases hfailed

/-- **A webhook that bears the start of the notes as its name forges them**: what it says of itself stands
in the place of the note on it, and a note on a webhook that is not in the list is there. -/
theorem notes_forged_by_name :
    let after := dispatch (annotating forgedNotes) plainScheme podCreation ⟨.empty, {}, []⟩
      [forgingInvocation] ()
    after.verdict = .ok () ∧
    after.tally.record.inPlace? Mutation.annotationStart 0 = some "forged" ∧
    (∀ mutated, Mutation.annotationValue forgingInvocation.webhook mutated ≠ "forged") ∧
    after.tally.record.inPlace? Mutation.annotationStart 5 = some "forged" := by
  refine ⟨?_, ?_, ?_, ?_⟩ <;> decide +kernel

end MutatingDispatch

end Admission
