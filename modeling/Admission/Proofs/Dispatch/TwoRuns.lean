import Admission.Proofs.Dispatch.Mutating
import Admission.Proofs.Dispatch.Validating

/-!
# Two runs side by side

Two runs that hold the same objects for the next webhook, and whose calls of it are alike, take the same
step (`step_alike`): they hold the same afterwards, and the same is put on record, but for the place in the
count that the note about the webhook is under.

Tasks that are made at the same time take no steps together.  What can be compared is what they have
written when all of them have ended: tasks that write the same, in the same order, have written the same
altogether (`Crew.Finished.filter_writes`).
-/

namespace Admission

variable {σ τ : Type}

/-! ## 1. Mutating webhooks -/

namespace MutatingDispatch

/-- **What two runs have done alike**: one has called a webhook at one place in the count, the other a
webhook at another place. -/
structure Abreast (hook other : Webhook) (index place : Nat) (x y : CallReport) (a a' : Run σ)
    (b b' : Run τ) : Prop where
  objects : a'.objects = b'.objects
  left : a'.reports = a.reports ++ [x]
  right : b'.reports = b.reports ++ [y]
  /-- The same writes, and then a note on both sides or on neither. -/
  record : ∃ effects,
    (a'.tally.record = Effect.noteAll a.tally.record effects ∧
      b'.tally.record = Effect.noteAll b.tally.record effects) ∨
    (a'.tally.record = Effect.note (Effect.noteAll a.tally.record effects) (turnNote hook index x) ∧
      b'.tally.record = Effect.note (Effect.noteAll b.tally.record effects) (turnNote other place y))

variable {left : Caller σ} {right : Caller τ} {scheme : Scheme} {request : Request}
  {i j : Invocation} {a : Run σ} {b : Run τ} {objects : Versioned}

/-- **Runs that are at the same objects take the same step** if their calls are alike: it ends both, with
the same error, or neither. -/
theorem step_alike (ha : (a.held request).convertTo scheme.convert i.kind = .ok objects)
    (hb : (b.held request).convertTo scheme.convert j.kind = .ok objects)
    (hr : i.webhook.SameRole j.webhook)
    (halike : (left.call request i objects a.world).1.Alike (right.call request j objects b.world).1)
    (index place : Nat) :
    ∃ stop a' b', step left scheme request index i a = (stop, a') ∧
      step right scheme request place j b = (stop, b') ∧
      a'.world = (left.call request i objects a.world).2 ∧
      b'.world = (right.call request j objects b.world).2 ∧
      Abreast i.webhook j.webhook index place (left.call request i objects a.world).1
        (right.call request j objects b.world).1 a a' b b' := by
  generalize hx : left.call request i objects a.world = l at halike
  generalize hy : right.call request j objects b.world = r at halike
  obtain ⟨x, v⟩ := l
  obtain ⟨y, w⟩ := r
  have hleft := step_recorded left scheme request index i a ha hx
  have hright := step_recorded right scheme request place j b hb hy
  -- what shows of the calls is the same, and nothing else is on record
  have hshown : Effect.noteAll b.tally.record (y.effects j.webhook request.operation) =
      Effect.noteAll b.tally.record (x.effects i.webhook request.operation) :=
    Effect.noteAll_congr (halike.shown_effects hr _).symm _
  dsimp only at halike
  rw [hshown, ← halike.conclude hr scheme objects.object] at hright
  cases hend : Mutation.conclude scheme i.webhook x objects.object with
  | error e =>
    rw [hend] at hleft hright
    obtain ⟨a', hs, hreports, hworld, hobjects, hrecord⟩ := hleft
    obtain ⟨b', hs', hreports', hworld', hobjects', hrecord'⟩ := hright
    exact ⟨_, a', b', hs, hs', hworld, hworld', hobjects.trans hobjects'.symm, hreports, hreports',
      _, .inl ⟨hrecord, hrecord'⟩⟩
  | ok object =>
    rw [hend] at hleft hright
    obtain ⟨a', hs, hreports, hworld, hobjects, hrecord⟩ := hleft
    obtain ⟨b', hs', hreports', hworld', hobjects', hrecord'⟩ := hright
    have hpatches : x.patches = y.patches := by
      unfold CallReport.patches
      rw [halike.patch?]
    exact ⟨_, a', b', hs, hs', hworld, hworld', by rw [hobjects, hobjects', hpatches], hreports,
      hreports', _, .inr ⟨hrecord, hrecord'⟩⟩

end MutatingDispatch

/-! ## 2. Validating webhooks -/

namespace ValidatingDispatch

section One

variable {caller : Caller σ} {scheme : Scheme} {request : Request} {invocations : List Invocation}
  {world : σ} {crew : Crew σ}

/-- **When all tasks have ended**, each has made all writes of its call. -/
theorem Crew.Finished.writesOf (h : crew.Finished caller scheme request invocations world) (i : Nat) :
    (invocations[i]? = none ∧ crew.writesOf i = []) ∨
      ∃ invocation report, invocations[i]? = some invocation ∧ (i, report) ∈ crew.calls ∧
        crew.writesOf i = taskEffects request.operation i invocation report := by
  obtain ⟨prepared, hprepare, hv, hjoined⟩ := h.exists_valid
  obtain ⟨hmap, -⟩ := prepare_ok hprepare
  cases ht : crew.tasks[i]? with
  | none =>
    refine .inl ⟨?_, hv.stray i ht⟩
    rw [List.getElem?_eq_none_iff] at ht ⊢
    rw [← hmap, List.length_map, ← hv.length]
    exact ht
  | some task =>
    obtain ⟨report, rfl⟩ := hjoined task (List.mem_of_getElem? ht)
    obtain ⟨p, hp, hw⟩ := hv.writing i report [] ht
    refine .inr ⟨p.1, report, ?_, (hv.called i report).2 ⟨[], ht⟩, by rw [← hw, List.append_nil]⟩
    rw [← hmap, List.getElem?_map, hp]
    rfl

/-- The order of the tasks, write by write, for the writes that are looked at. -/
def Crew.order (crew : Crew σ) (shows : Effect → Bool) : List Nat :=
  (crew.writes.filter (shows ·.2)).map (·.1)

theorem Crew.filter_writesOf (crew : Crew σ) (shows : Effect → Bool) (i : Nat) :
    (crew.writesOf i).filter shows =
      ((crew.writes.filter (shows ·.2)).filter (·.1 = i)).map (·.2) := by
  unfold writesOf
  rw [List.filter_map, List.filter_filter, List.filter_filter]
  congr 2
  funext w
  exact Bool.and_comm _ _

end One

section Two

variable {left : Caller σ} {right : Caller τ} {scheme : Scheme} {request : Request}
  {xs ys : List Invocation} {v : σ} {w : τ} {a : Crew σ} {b : Crew τ} {shows : Effect → Bool}

/-- **Tasks that write the same in the same order have written the same altogether**, as far as one looks.
A task of one side may have another number than the task of the other side that it writes the same as. -/
theorem Crew.Finished.filter_writes (ha : a.Finished left scheme request xs v)
    (hb : b.Finished right scheme request ys w) {place : Nat → Nat} (hplace : place.Injective)
    (htasks : ∀ i, xs[place i]? = none ↔ ys[i]? = none)
    (hsame : ∀ i p q x y, xs[place i]? = some p → ys[i]? = some q → (place i, x) ∈ a.calls →
      (i, y) ∈ b.calls → (taskEffects request.operation (place i) p x).filter shows =
        (taskEffects request.operation i q y).filter shows)
    (horder : a.order shows = (b.order shows).map place) :
    (a.writes.map (·.2)).filter shows = (b.writes.map (·.2)).filter shows := by
  rw [List.filter_map, List.filter_map]
  refine map_snd_eq_of_filter hplace horder fun i _ => ?_
  change ((a.writes.filter (shows ·.2)).filter (·.1 = place i)).map (·.2) =
    ((b.writes.filter (shows ·.2)).filter (·.1 = i)).map (·.2)
  rw [← Crew.filter_writesOf, ← Crew.filter_writesOf]
  obtain ⟨hp, hwa⟩ | ⟨p, x, hp, hx, hwa⟩ := ha.writesOf (place i)
  · obtain ⟨-, hwb⟩ | ⟨q, y, hq, -, -⟩ := hb.writesOf i
    · rw [hwa, hwb]
    · rw [(htasks i).1 hp] at hq
      cases hq
  · obtain ⟨hq, -⟩ | ⟨q, y, hq, hy, hwb⟩ := hb.writesOf i
    · rw [(htasks i).2 hq] at hp
      cases hp
    · rw [hwa, hwb]
      exact hsame i p q x y hp hq hx hy

theorem Crew.verdict_congr (hfail : ∀ e, shows (.fail e) = true)
    (h : (a.writes.map (·.2)).filter shows = (b.writes.map (·.2)).filter shows) :
    a.verdict = b.verdict := by
  rw [a.verdict_eq ⟨.empty, {}, []⟩, b.verdict_eq ⟨.empty, {}, []⟩, Effect.errors_applyAll,
    Effect.errors_applyAll, ← Effect.messages_filter hfail, h, Effect.messages_filter hfail]

end Two

end ValidatingDispatch

end Admission
