import Admission.Proofs.Dispatch.Reference

/-!
# What the client sees of a dispatch

Of the writes of a dispatch the client gets to see the annotations, the warnings and the errors; what is
counted it does not see.  So the record a dispatch leaves depends on the writes that show alone
(`Effect.noteAll_congr`).  What is on record stays there: an annotation has the value that was offered first
(`Effect.get?_noteAll`), and warnings come after those there were.

And it depends on less than the outcomes of the calls.  Two calls that both failed, or came to the same,
are `Alike`: they mean the same for the request, and their writes that show are the same, whatever the
cause of the failure and whatever the answer that did not count.
-/

namespace Admission

/-! ## 1. Writes that show -/

namespace Effect

/-- Whether the client gets to see a write. -/
def isShown : Effect → Bool
  | .annotate _ _ | .warn _ | .fail _ => true
  | .measure _ _ | .countFailOpen _ | .countRejection _ => false

/-- The writes that the client gets to see. -/
def shown (effects : List Effect) : List Effect := effects.filter isShown

theorem shown_append (xs ys : List Effect) : shown (xs ++ ys) = shown xs ++ shown ys :=
  List.filter_append ..

/-- What a write puts on record. -/
def note (record : AuditRecord) : Effect → AuditRecord
  | .annotate key value => record.offer key value
  | .warn text => record.warn text
  | .measure _ _ | .countFailOpen _ | .countRejection _ | .fail _ => record

/-- What writes put on record, one after another. -/
def noteAll (record : AuditRecord) (effects : List Effect) : AuditRecord := effects.foldl note record

theorem record_applyAll (effects : List Effect) (tally : Tally) :
    (applyAll tally effects).record = noteAll tally.record effects := by
  induction effects generalizing tally with
  | nil => rfl
  | cons effect rest ih =>
    have h : (effect.apply tally).record = note tally.record effect := by cases effect <;> rfl
    calc (applyAll tally (effect :: rest)).record
        = noteAll (effect.apply tally).record rest := ih _
      _ = noteAll tally.record (effect :: rest) := by rw [h]; rfl

theorem noteAll_shown (effects : List Effect) (record : AuditRecord) :
    noteAll record (shown effects) = noteAll record effects := by
  induction effects generalizing record with
  | nil => rfl
  | cons effect rest ih => cases effect <;> exact ih _

/-- **The record depends on the writes that show alone.** -/
theorem noteAll_congr {xs ys : List Effect} (h : shown xs = shown ys) (record : AuditRecord) :
    noteAll record xs = noteAll record ys := by
  rw [← noteAll_shown xs, h, noteAll_shown]

theorem messages_filter {shows : Effect → Bool} (h : ∀ e, shows (.fail e) = true)
    (effects : List Effect) : messages (effects.filter shows) = messages effects := by
  unfold messages
  rw [List.filterMap_filter]
  congr 1
  funext effect
  cases effect <;> simp [message?, h]

end Effect

/-! ## 2. Records -/

namespace AuditRecord

theorem offer_eq (record : AuditRecord) (key value : String) :
    record.offer key value = match record.annotations.get? key with
      | some _ => record
      | none => { record with annotations := record.annotations.insert key value } := by
  unfold offer annotate
  cases record.annotations.get? key with
  | none => rfl
  | some existing => by_cases h : existing = value <;> simp [h]

theorem get?_offer (record : AuditRecord) (key value k : String) :
    (record.offer key value).annotations.get? k =
      if k = key then some ((record.annotations.get? key).getD value)
      else record.annotations.get? k := by
  rw [offer_eq]
  cases h : record.annotations.get? key with
  | none => exact Dict.get?_insert ..
  | some existing =>
    dsimp only
    split
    · rename_i hk
      rw [hk, h]
      rfl
    · rfl

theorem warnings_offer (record : AuditRecord) (key value : String) :
    (record.offer key value).warnings = record.warnings := by
  rw [offer_eq]
  split <;> rfl

end AuditRecord

namespace Effect

/-- The value that a write offers under a key. -/
def valueFor? (key : String) : Effect → Option String
  | .annotate k value => if k = key then some value else none
  | _ => none

/-- The value that is offered first under a key. -/
def firstFor? (key : String) (effects : List Effect) : Option String :=
  effects.findSome? (valueFor? key)

/-- The text of a warning. -/
def warning? : Effect → Option String
  | .warn text => some text
  | _ => none

theorem firstFor?_append (key : String) (xs ys : List Effect) :
    firstFor? key (xs ++ ys) = (firstFor? key xs).or (firstFor? key ys) :=
  List.findSome?_append

/-- **An annotation has the value it had, or else the one that was offered first.** -/
theorem get?_noteAll (effects : List Effect) (record : AuditRecord) (key : String) :
    (noteAll record effects).annotations.get? key =
      (record.annotations.get? key).or (firstFor? key effects) := by
  induction effects generalizing record with
  | nil => exact Option.or_none.symm
  | cons effect rest ih =>
    have hrest := ih (effect.note record)
    refine hrest.trans ?_
    unfold firstFor?
    rw [List.findSome?_cons]
    cases effect with
    | annotate k value =>
      show ((record.offer k value).annotations.get? key).or _ = _
      rw [AuditRecord.get?_offer, valueFor?]
      by_cases hk : key = k
      · subst hk
        rw [if_pos rfl, if_pos rfl]
        cases record.annotations.get? key <;> rfl
      · rw [if_neg hk, if_neg (Ne.symm hk)]
    | measure _ _ | warn _ | countFailOpen _ | countRejection _ | fail _ => rfl

theorem warnings_noteAll (effects : List Effect) (record : AuditRecord) :
    (noteAll record effects).warnings = record.warnings ++ effects.filterMap warning? := by
  induction effects generalizing record with
  | nil => exact (List.append_nil _).symm
  | cons effect rest ih =>
    refine (ih (effect.note record)).trans ?_
    cases effect with
    | annotate key value =>
      show (record.offer key value).warnings ++ _ = _
      rw [AuditRecord.warnings_offer]
      rfl
    | warn text => exact List.append_assoc ..
    | measure _ _ | countFailOpen _ | countRejection _ | fail _ => rfl

end Effect

/-! ## 3. Calls that are alike -/

/-- Webhooks that mean the same to a dispatch, however they are called. -/
structure Webhook.SameRole (a b : Webhook) : Prop where
  configuration : a.configuration = b.configuration
  name : a.name = b.name
  kind : a.kind = b.kind
  failurePolicy : a.failurePolicy = b.failurePolicy

/-- Invocations that mean the same to a dispatch. -/
structure Invocation.SameRole (a b : Invocation) : Prop where
  webhook : a.webhook.SameRole b.webhook
  kind : a.kind = b.kind

theorem Webhook.SameRole.refl (hook : Webhook) : hook.SameRole hook := ⟨rfl, rfl, rfl, rfl⟩

namespace CallReport

/-- The webhook could not be asked, or its answer does not count. -/
def Failed (report : CallReport) : Prop :=
  ∃ webhook cause, report.outcome = .error (.calling webhook cause)

/-- **Calls that differ at most in why they failed.** -/
def Alike (a b : CallReport) : Prop := a.outcome = b.outcome ∨ a.Failed ∧ b.Failed

/-- What a call means for the request does not depend on why it failed. -/
theorem Alike.abort? {a b : CallReport} (h : a.Alike b) {hook other : Webhook}
    (hr : hook.SameRole other) : a.abort? hook = b.abort? other := by
  unfold CallReport.abort?
  rcases h with h | ⟨⟨_, _, ha⟩, _, _, hb⟩
  · rw [h, hr.name, hr.failurePolicy]
  · rw [ha, hb, hr.name, hr.failurePolicy]

theorem Alike.patch? {a b : CallReport} (h : a.Alike b) : a.patch? = b.patch? := by
  unfold CallReport.patch?
  rcases h with h | ⟨⟨_, _, ha⟩, _, _, hb⟩
  · rw [h]
  · rw [ha, hb]

theorem Alike.patches {a b : CallReport} (h : a.Alike b) : a.patches = b.patches := by
  unfold CallReport.patches
  rw [h.patch?]

/-- **Calls that are alike make the same of the object.** -/
theorem Alike.conclude {a b : CallReport} (h : a.Alike b) {hook other : Webhook}
    (hr : hook.SameRole other) (scheme : Scheme) (object : Option Object) :
    Mutation.conclude scheme hook a object = Mutation.conclude scheme other b object := by
  unfold Mutation.conclude
  rw [h.abort? hr, h.patch?, hr.name]

theorem Failed.shown_effects {report : CallReport} (h : report.Failed) (hook : Webhook)
    (operation : Operation) : Effect.shown (report.effects hook operation) = [] := by
  obtain ⟨_, _, h⟩ := h
  unfold CallReport.effects
  rw [h]
  cases report.measured <;> rfl

/-- **Calls that are alike leave the same behind**, as far as it shows. -/
theorem Alike.shown_effects {a b : CallReport} (h : a.Alike b) {hook other : Webhook}
    (hr : hook.SameRole other) (operation : Operation) :
    Effect.shown (a.effects hook operation) = Effect.shown (b.effects other operation) := by
  rcases h with h | ⟨ha, hb⟩
  · unfold CallReport.effects
    rw [Effect.shown_append, Effect.shown_append, h, hr.name]
    congr 1
    cases a.measured <;> cases b.measured <;> rfl
  · rw [ha.shown_effects, hb.shown_effects]

end CallReport

/-! ## 4. Notes -/

/-- What stands behind the start of the key of a note: the place of the webhook. -/
def placeKey (index : Nat) : String := "round_0_index_" ++ toString index

theorem annotationKey_eq (start : String) (index : Nat) :
    annotationKey start index = start ++ "/" ++ placeKey index := by
  have hrest : "/round_0_index_" = "/" ++ "round_0_index_" := rfl
  show start ++ "/round_0_index_" ++ toString index = _
  rw [hrest, placeKey, String.append_assoc, String.append_assoc, String.append_assoc]

/-- What the keys of notes start with. -/
def noteStarts : List String :=
  [Mutation.annotationStart, Policy.failOpenKey .mutating, Policy.failOpenKey .validating]

theorem failOpenKey_mem (kind : WebhookKind) : Policy.failOpenKey kind ∈ noteStarts := by
  cases kind <;> simp [noteStarts]

namespace MutatingDispatch

/-- The note about a webhook after which the request went on: that it went well and whether it changed
the object, or that it was passed over. -/
def turnNote (hook : Webhook) (index : Nat) (report : CallReport) : Effect :=
  match report.outcome with
  | .ok _ => .annotate (annotationKey Mutation.annotationStart index)
      (Mutation.annotationValue hook report.patches)
  | .error _ => .annotate (annotationKey (Policy.failOpenKey hook.kind) index) hook.name

end MutatingDispatch

theorem CallReport.Alike.turnNote {a b : CallReport} (h : a.Alike b) {hook other : Webhook}
    (hr : hook.SameRole other) (index : Nat) :
    MutatingDispatch.turnNote hook index a = MutatingDispatch.turnNote other index b := by
  have hp := h.patches
  unfold MutatingDispatch.turnNote Mutation.annotationValue
  rcases h with h | ⟨⟨_, _, ha⟩, _, _, hb⟩
  · rw [h, hp, hr.configuration, hr.name, hr.kind]
  · rw [ha, hb, hr.name, hr.kind]

end Admission
