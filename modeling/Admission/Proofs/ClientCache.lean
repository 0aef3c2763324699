import Admission.Client.Cache
import Admission.Proofs.Lists
import Admission.Proofs.Snapshot
import Mathlib.Data.List.Induction

/-!
# Which client a call gets

Clients are got from a cache that makes room for new ones, and an entry of a snapshot holds on to the one it
got.  That neither shows in the client itself is because a client is made of nothing but what it is kept
under (`ClientBuilder.build_congr`): whatever is kept, and whatever is held, is what building afresh would
give.  Which clients are kept follows from what was looked up alone: those that were looked up last, as many
as there is room for (`ClientStore.Sound.recent`).
-/

namespace Admission

theorem ClientBuilder.build_congr {config other : ClientConfig}
    (h : config.cacheKey = other.cacheKey) (builder : ClientBuilder) :
    builder.build config = builder.build other := by
  cases config
  cases other
  simp only [ClientConfig.cacheKey, CacheKey.mk.injEq] at h
  obtain ⟨rfl, rfl, rfl⟩ := h
  rfl

/-! ## 1. Calls -/

/-- What a manager is asked for. -/
inductive ClientCall where
  /-- The client for a configuration. -/
  | direct (config : ClientConfig)
  /-- The client of an entry of a snapshot. -/
  | webhook (hook : Webhook)

namespace ClientCall

/-- The configuration that the client is wanted for. -/
def wanted : ClientCall → ClientConfig
  | .direct config => config
  | .webhook hook => hook.client

/-- **An entry is one webhook**: whenever it is called, it has the same configuration. -/
def Consistent (calls : List ClientCall) : Prop :=
  ∀ hook other, .webhook hook ∈ calls → .webhook other ∈ calls → hook.kind = other.kind →
    hook.entry = other.entry → hook.client = other.client

theorem Consistent.subset {calls more : List ClientCall} (h : Consistent more) (hsub : calls ⊆ more) :
    Consistent calls :=
  fun hook other hm hm' => h hook other (hsub hm) (hsub hm')

theorem consistent_of_published {publications : WebhookKind → List (List Configuration)}
    {calls : List ClientCall} (h : ∀ hook, .webhook hook ∈ calls →
      hook ∈ Snapshot.initial.published (publications hook.kind)) : Consistent calls := by
  intro hook other hm hm' hkind hentry
  have hnodup : ((Snapshot.initial.published (publications hook.kind)).map (·.entry)).Nodup := by
    rw [Snapshot.entries_published]
    exact List.nodup_range'
  rw [List.inj_on_of_nodup_map hnodup (h hook hm) (hkind ▸ h other hm') hentry]

end ClientCall

namespace ClientStore

/-- The client that an entry holds. -/
def held? (store : ClientStore) : ClientCall → Option Nat
  | .direct _ => none
  | .webhook hook => store.held.lookup (hook.kind, hook.entry)

/-- The entry that asked holds on to what it got. -/
def hold (store : ClientStore) (call : ClientCall) (number : Nat) : ClientStore :=
  match call with
  | .direct _ => store
  | .webhook hook => { store with held := ((hook.kind, hook.entry), number) :: store.held }

section Hold

variable (store : ClientStore) (call : ClientCall) (number : Nat)

@[simp] theorem built_hold : (store.hold call number).built = store.built := by cases call <;> rfl

@[simp] theorem kept_hold : (store.hold call number).kept = store.kept := by cases call <;> rfl

end Hold

end ClientStore

namespace ClientManager

variable (manager : ClientManager)

/-- One call. -/
def answer (call : ClientCall) (store : ClientStore) : Except ClientError Nat × ClientStore :=
  match call with
  | .direct config => manager.clientFor config store
  | .webhook hook => manager.clientOf hook store

/-- What is left of calls, one after another. -/
def storeAfter (calls : List ClientCall) : ClientStore :=
  calls.foldl (fun store call => (manager.answer call store).2) {}

/-- What a call gives after others. -/
def result (earlier : List ClientCall) (call : ClientCall) : Except ClientError Nat :=
  (manager.answer call (manager.storeAfter earlier)).1

/-- What is looked up among the clients that are kept, and found or built. -/
def lookedUp? (call : ClientCall) (store : ClientStore) : Option CacheKey :=
  match store.held? call, (manager.clientFor call.wanted store).1 with
  | none, .ok _ => some call.wanted.cacheKey
  | _, _ => none

/-- What calls look up, one after another. -/
def lookedUp (store : ClientStore) : List ClientCall → List CacheKey
  | [] => []
  | call :: rest => (manager.lookedUp? call store).toList ++ lookedUp (manager.answer call store).2 rest

variable {manager}

theorem storeAfter_concat (calls : List ClientCall) (call : ClientCall) :
    manager.storeAfter (calls ++ [call]) = (manager.answer call (manager.storeAfter calls)).2 := by
  simp [storeAfter]

theorem lookedUp_append (store : ClientStore) (calls more : List ClientCall) :
    manager.lookedUp store (calls ++ more) = manager.lookedUp store calls ++
      manager.lookedUp (calls.foldl (fun store call => (manager.answer call store).2) store) more := by
  induction calls generalizing store with
  | nil => rfl
  | cons call rest ih => simp [lookedUp, ih]

/-- **How a call goes**: what it gives, what it looks up, and what is left. -/
inductive Answers (manager : ClientManager) (call : ClientCall) (store : ClientStore) :
    Except ClientError Nat → Option CacheKey → ClientStore → Prop where
  | held {number : Nat} (h : store.held? call = some number) :
      Answers manager call store (.ok number) none store
  | failed {e : ClientError} (unheld : store.held? call = none)
      (missing : store.kept.lookup call.wanted.cacheKey = none)
      (build : manager.builder.build call.wanted = .error e) :
      Answers manager call store (.error e) none store
  | found {number : Nat} (unheld : store.held? call = none)
      (kept : store.kept.lookup call.wanted.cacheKey = some number) :
      Answers manager call store (.ok number) (some call.wanted.cacheKey)
        (({ store with
          kept := (call.wanted.cacheKey, number) ::
            store.kept.filter (·.1 ≠ call.wanted.cacheKey) } : ClientStore).hold call number)
  | built {client : Client} (unheld : store.held? call = none)
      (missing : store.kept.lookup call.wanted.cacheKey = none)
      (build : manager.builder.build call.wanted = .ok client) :
      Answers manager call store (.ok store.built.length) (some call.wanted.cacheKey)
        (({ store with
          built := store.built ++ [client]
          kept := ((call.wanted.cacheKey, store.built.length) :: store.kept).take manager.capacity } :
            ClientStore).hold call store.built.length)

theorem exists_answers (call : ClientCall) (store : ClientStore) :
    ∃ result key? after, manager.answer call store = (result, after) ∧
      manager.lookedUp? call store = key? ∧ Answers manager call store result key? after := by
  refine ⟨(manager.answer call store).1, manager.lookedUp? call store, (manager.answer call store).2,
    rfl, rfl, ?_⟩
  cases hheld : store.held? call with
  | some number =>
    cases call with
    | direct config => cases hheld
    | webhook hook =>
      have hanswer : manager.answer (.webhook hook) store = (.ok number, store) := by
        have hlookup : store.held.lookup (hook.kind, hook.entry) = some number := hheld
        simp only [answer, clientOf, hlookup]
      have hlooked : manager.lookedUp? (.webhook hook) store = none := by simp [lookedUp?, hheld]
      rw [hanswer, hlooked]
      exact .held hheld
  | none =>
    have hanswer : ∀ result after, manager.clientFor call.wanted store = (result, after) →
        (∀ number, result = .ok number → manager.answer call store = (result, after.hold call number)) ∧
        (∀ e, result = .error e → manager.answer call store = (result, after)) := by
      intro result after hfor
      cases call with
      | direct config => exact ⟨fun _ _ => hfor, fun _ _ => hfor⟩
      | webhook hook =>
        have hlookup : store.held.lookup (hook.kind, hook.entry) = none := hheld
        have hhook : manager.clientFor hook.client store = (result, after) := hfor
        constructor
        · rintro number rfl
          simp only [answer, clientOf, hlookup, hhook, ClientStore.hold]
        · rintro e rfl
          simp only [answer, clientOf, hlookup, hhook]
    unfold lookedUp?
    rw [hheld]
    cases hkept : store.kept.lookup call.wanted.cacheKey with
    | some number =>
      have hfor : manager.clientFor call.wanted store = (.ok number, { store with
          kept := (call.wanted.cacheKey, number) ::
            store.kept.filter (·.1 ≠ call.wanted.cacheKey) }) := by
        simp only [clientFor, hkept]
      rw [(hanswer _ _ hfor).1 number rfl, hfor]
      exact .found hheld hkept
    | none =>
      cases hbuild : manager.builder.build call.wanted with
      | error e =>
        have hfor : manager.clientFor call.wanted store = (.error e, store) := by
          simp only [clientFor, hkept, hbuild]
        rw [(hanswer _ _ hfor).2 e rfl, hfor]
        exact .failed hheld hkept hbuild
      | ok client =>
        have hfor : manager.clientFor call.wanted store = (.ok store.built.length, { store with
            built := store.built ++ [client]
            kept := ((call.wanted.cacheKey, store.built.length) :: store.kept).take
              manager.capacity }) := by
          simp only [clientFor, hkept, hbuild]
        rw [(hanswer _ _ hfor).1 _ rfl, hfor]
        exact .built hheld hkept hbuild

end ClientManager

/-! ## 2. What is kept -/

namespace ClientStore

/-- **What holds of the clients after calls.**  Every client was built for some key, `keys` says which, and is
what building afresh for that key gives; what is kept under a key, or held by an entry, was built for that
key.  What is kept is what was looked up last. -/
structure Sound (manager : ClientManager) (calls : List ClientCall) (keys looked : List CacheKey)
    (store : ClientStore) : Prop where
  built : List.Forall₂ (fun key client => ∀ config : ClientConfig, config.cacheKey = key →
    manager.builder.build config = .ok client) keys store.built
  kept : ∀ pair ∈ store.kept, keys[pair.2]? = some pair.1
  recent : store.kept.map (·.1) = looked.dedup.reverse.take manager.capacity
  held : ∀ pair ∈ store.held, ∃ hook, .webhook hook ∈ calls ∧ (hook.kind, hook.entry) = pair.1 ∧
    keys[pair.2]? = some hook.client.cacheKey

variable {manager : ClientManager} {calls more : List ClientCall} {keys looked : List CacheKey}
  {store : ClientStore} {call : ClientCall} {number : Nat}

theorem Sound.length_le (h : store.Sound manager calls keys looked) :
    store.kept.length ≤ manager.capacity := by
  have hlength := congrArg List.length h.recent
  rw [List.length_map] at hlength
  exact hlength ▸ List.length_take_le _ _

theorem Sound.nodup (h : store.Sound manager calls keys looked) : (store.kept.map (·.1)).Nodup := by
  rw [h.recent]
  exact (List.take_sublist _ _).nodup (List.nodup_reverse.2 (List.nodup_dedup _))

/-- What is kept under a key is one client. -/
theorem Sound.lookup_of_mem (h : store.Sound manager calls keys looked) {key : CacheKey}
    (hm : (key, number) ∈ store.kept) : store.kept.lookup key = some number := by
  cases hlookup : store.kept.lookup key with
  | none => simpa using List.lookup_eq_none_iff.1 hlookup _ hm
  | some other =>
    rw [(Prod.mk.inj (List.inj_on_of_nodup_map h.nodup hm (mem_of_lookup hlookup) rfl)).2]

theorem Sound.subset (h : store.Sound manager calls keys looked) (hsub : calls ⊆ more) :
    store.Sound manager more keys looked where
  built := h.built
  kept := h.kept
  recent := h.recent
  held pair hm := by
    obtain ⟨hook, hcall, hentry, hkey⟩ := h.held pair hm
    exact ⟨hook, hsub hcall, hentry, hkey⟩

section Recent

variable {kept : List (CacheKey × Nat)} {room : Nat} {key : CacheKey}

theorem recent_found (hrecent : kept.map (·.1) = looked.dedup.reverse.take (room + 1))
    (hm : key ∈ kept.map (·.1)) (number : Nat) :
    ((key, number) :: kept.filter (·.1 ≠ key)).map (·.1) =
      (looked ++ [key]).dedup.reverse.take (room + 1) := by
  have hothers : (kept.filter (·.1 ≠ key)).map (·.1) = (kept.map (·.1)).filter (· ≠ key) := by
    rw [List.filter_map]
    rfl
  have hroom : ((kept.map (·.1)).filter (· ≠ key)).length ≤ room := by
    have hlength : (kept.map (·.1)).length ≤ room + 1 := by
      rw [hrecent]
      exact List.length_take_le _ _
    have hless : ((kept.map (·.1)).filter (· ≠ key)).length < (kept.map (·.1)).length :=
      List.length_filter_lt_length_iff_exists.2 ⟨key, hm, by simp⟩
    exact Nat.le_of_lt_succ (hless.trans_le hlength)
  rw [reverse_dedup_concat, List.take_succ_cons,
    take_filter_ne (List.nodup_reverse.2 (List.nodup_dedup looked)), ← hrecent, List.map_cons, hothers,
    List.take_of_length_le hroom]

theorem recent_built (hrecent : kept.map (·.1) = looked.dedup.reverse.take (room + 1))
    (hm : key ∉ kept.map (·.1)) (number : Nat) :
    (((key, number) :: kept).take (room + 1)).map (·.1) =
      (looked ++ [key]).dedup.reverse.take (room + 1) := by
  have hall : (kept.map (·.1)).filter (· ≠ key) = kept.map (·.1) :=
    List.filter_eq_self.2 fun other hother => decide_eq_true fun h => hm (h ▸ hother)
  rw [reverse_dedup_concat, List.take_succ_cons, List.take_succ_cons,
    take_filter_ne (List.nodup_reverse.2 (List.nodup_dedup looked)), ← hrecent, hall, List.map_cons,
    List.map_take]

end Recent

theorem Sound.hold (h : store.Sound manager calls keys looked) (hm : call ∈ calls)
    (hkey : keys[number]? = some call.wanted.cacheKey) :
    (store.hold call number).Sound manager calls keys looked := by
  cases call with
  | direct config => exact h
  | webhook hook =>
    refine ⟨h.built, h.kept, h.recent, fun pair hpair => ?_⟩
    rcases List.mem_cons.1 hpair with rfl | hpair
    · exact ⟨hook, hm, rfl, hkey⟩
    · exact h.held pair hpair

/-- **One call.** -/
theorem Sound.answer (h : store.Sound manager calls keys looked) (hcapacity : 0 < manager.capacity)
    (hconsistent : ClientCall.Consistent (calls ++ [call])) :
    ∃ built, keys <+: built ∧
      (manager.answer call store).2.Sound manager (calls ++ [call]) built
        (looked ++ (manager.lookedUp? call store).toList) ∧
      ∀ number, (manager.answer call store).1 = .ok number →
        built[number]? = some call.wanted.cacheKey := by
  have hsub : calls ⊆ calls ++ [call] := List.subset_append_left _ _
  have hmem : call ∈ calls ++ [call] := by simp
  obtain ⟨room, hroom⟩ := Nat.exists_eq_add_of_lt hcapacity
  rw [Nat.zero_add] at hroom
  obtain ⟨result, key?, after, hanswer, hlooked, hanswers⟩ := manager.exists_answers call store
  rw [hanswer, hlooked]
  cases hanswers with
  | held hheld =>
    refine ⟨keys, List.prefix_rfl, by simpa using h.subset hsub, fun _ hnumber => ?_⟩
    cases hnumber
    cases call with
    | direct config => cases hheld
    | webhook hook =>
      obtain ⟨other, hother, hentry, hkey⟩ := h.held _ (mem_of_lookup hheld)
      obtain ⟨hkind, hentry⟩ := Prod.mk.inj hentry
      rw [hkey, hconsistent other hook (hsub hother) hmem hkind hentry]
      rfl
  | failed _ _ _ => exact ⟨keys, List.prefix_rfl, by simpa using h.subset hsub, fun _ h => by cases h⟩
  | @found number _ hkept =>
    have hpair := mem_of_lookup hkept
    refine ⟨keys, List.prefix_rfl, ?_, fun _ hnumber => ?_⟩
    · refine Sound.hold ⟨h.built, fun pair hm => ?_, ?_, (h.subset hsub).held⟩ hmem (h.kept _ hpair)
      · rcases List.mem_cons.1 hm with rfl | hm
        · exact h.kept _ hpair
        · exact h.kept pair (List.mem_of_mem_filter hm)
      · have hfront := recent_found (hroom ▸ h.recent) (List.mem_map_of_mem hpair) number
        exact hroom ▸ hfront
    · cases hnumber
      exact h.kept _ hpair
  | @built client _ hmissing hbuild =>
    have hlength : keys.length = store.built.length := h.built.length_eq
    have hnew : (keys ++ [call.wanted.cacheKey])[store.built.length]? = some call.wanted.cacheKey := by
      rw [← hlength]
      exact List.getElem?_concat_length
    have hprefix : keys <+: keys ++ [call.wanted.cacheKey] := List.prefix_append _ _
    refine ⟨_, hprefix, ?_, fun _ hnumber => ?_⟩
    · refine Sound.hold ⟨?_, fun pair hm => ?_, ?_, fun pair hm => ?_⟩ hmem hnew
      · refine List.rel_append h.built (.cons (fun config hconfig => ?_) .nil)
        rw [manager.builder.build_congr hconfig, hbuild]
      · rcases List.mem_cons.1 (List.mem_of_mem_take hm) with rfl | hm
        · exact hnew
        · exact getElem?_of_prefix hprefix (h.kept pair hm)
      · have hout : call.wanted.cacheKey ∉ store.kept.map (·.1) := fun hm => by
          obtain ⟨pair, hpair, hkey⟩ := List.mem_map.1 hm
          simpa [hkey] using List.lookup_eq_none_iff.1 hmissing pair hpair
        have hfront := recent_built (hroom ▸ h.recent) hout store.built.length
        exact hroom ▸ hfront
      · obtain ⟨hook, hcall, hentry, hkey⟩ := (h.subset hsub).held pair hm
        exact ⟨hook, hcall, hentry, getElem?_of_prefix hprefix hkey⟩
    · cases hnumber
      exact hnew

theorem Sound.mem_answer (h : store.Sound manager calls keys looked) {key : CacheKey}
    (hm : (key, number) ∈ store.kept)
    (hafter : key ∈ (manager.answer call store).2.kept.map (·.1)) :
    (key, number) ∈ (manager.answer call store).2.kept := by
  obtain ⟨result, key?, after, hanswer, -, hanswers⟩ := manager.exists_answers call store
  rw [hanswer] at hafter ⊢
  obtain ⟨⟨found, other⟩, hother, rfl⟩ := List.mem_map.1 hafter
  change (found, number) ∈ store.kept at hm
  change (found, number) ∈ after.kept
  -- the number that the key has afterwards it had before, or it was looked up
  have hsame : ∀ {n}, (found, n) ∈ store.kept → n = number := fun hn =>
    Option.some.inj ((h.lookup_of_mem hn).symm.trans (h.lookup_of_mem hm))
  cases hanswers with
  | held _ | failed _ _ _ => exact hm
  | found _ hkept =>
    rw [kept_hold] at hother ⊢
    rcases List.mem_cons.1 hother with heq | hin
    · obtain ⟨rfl, rfl⟩ := Prod.mk.inj heq
      rw [← hsame (mem_of_lookup hkept)]
      exact hother
    · rw [← hsame (List.mem_of_mem_filter hin)]
      exact hother
  | built _ hmissing _ =>
    rw [kept_hold] at hother ⊢
    rcases List.mem_cons.1 (List.mem_of_mem_take hother) with heq | hin
    · obtain ⟨rfl, rfl⟩ := Prod.mk.inj heq
      simpa using List.lookup_eq_none_iff.1 hmissing _ hm
    · rw [← hsame hin]
      exact hother

end ClientStore

/-! ## 3. Runs -/

namespace ClientManager

variable {manager : ClientManager}

/-- **All calls**: one account says what every client was built for, whichever call got it. -/
theorem exists_keys (hcapacity : 0 < manager.capacity) {calls : List ClientCall}
    (hconsistent : ClientCall.Consistent calls) :
    ∃ keys, (manager.storeAfter calls).Sound manager calls keys (manager.lookedUp {} calls) ∧
      ∀ earlier call later number, calls = earlier ++ call :: later →
        manager.result earlier call = .ok number → keys[number]? = some call.wanted.cacheKey := by
  induction calls using List.reverseRecOn with
  | nil =>
    refine ⟨[], ⟨.nil, fun _ h => ?_, ?_, fun _ h => ?_⟩, fun _ _ _ _ h => by simp at h⟩
    · cases h
    · simp [storeAfter, lookedUp]
    · cases h
  | append_singleton calls last ih =>
    obtain ⟨keys, hsound, hgiven⟩ := ih (hconsistent.subset (List.subset_append_left _ _))
    obtain ⟨built, hprefix, hafter, hlast⟩ := hsound.answer hcapacity hconsistent
    refine ⟨built, ?_, fun earlier call later number hcalls hresult => ?_⟩
    · rw [storeAfter_concat, lookedUp_append]
      simpa [lookedUp, storeAfter] using hafter
    · rcases List.eq_nil_or_concat later with rfl | ⟨before, end_, rfl⟩
      · obtain ⟨rfl, h⟩ := List.append_inj' hcalls rfl
        obtain rfl := List.singleton_inj.1 h
        exact hlast number hresult
      · have hcalls' : calls ++ [last] = (earlier ++ call :: before) ++ [end_] := by simpa using hcalls
        obtain ⟨rfl, -⟩ := List.append_inj' hcalls' rfl
        exact getElem?_of_prefix hprefix (hgiven earlier call before number rfl hresult)

theorem held?_answer {store : ClientStore} {hook : Webhook} {number : Nat}
    (h : store.held? (.webhook hook) = some number) (call : ClientCall) :
    (manager.answer call store).2.held? (.webhook hook) = some number := by
  have hheld : ∀ (other : ClientStore) (n : Nat), store.held? call = none → other.held = store.held →
      (other.hold call n).held? (.webhook hook) = some number := by
    intro other n hnone heq
    cases call with
    | direct config =>
      show other.held.lookup _ = _
      rw [heq]
      exact h
    | webhook asking =>
      show List.lookup (hook.kind, hook.entry) (((asking.kind, asking.entry), n) :: other.held) = _
      have hother : ((hook.kind, hook.entry) == (asking.kind, asking.entry)) = false := by
        refine beq_eq_false_iff_ne.2 fun hsame => ?_
        have hlookup : store.held.lookup (asking.kind, asking.entry) = some number := hsame ▸ h
        exact Option.some_ne_none _ (hlookup.symm.trans hnone)
      rw [List.lookup_cons, hother, heq]
      exact h
  obtain ⟨result, key?, after, hanswer, -, hanswers⟩ := manager.exists_answers call store
  rw [hanswer]
  cases hanswers with
  | held _ | failed _ _ _ => exact h
  | found hnone _ => exact hheld _ _ hnone rfl
  | built hnone _ _ => exact hheld _ _ hnone rfl

theorem held?_storeAfter {calls : List ClientCall} {hook : Webhook} {number : Nat}
    (h : (manager.storeAfter calls).held? (.webhook hook) = some number) (more : List ClientCall) :
    (manager.storeAfter (calls ++ more)).held? (.webhook hook) = some number := by
  induction more using List.reverseRecOn with
  | nil => simpa using h
  | append_singleton more call ih =>
    rw [← List.append_assoc, storeAfter_concat]
    exact held?_answer ih call

theorem held?_of_answer {store : ClientStore} {hook : Webhook} {number : Nat}
    (h : (manager.answer (.webhook hook) store).1 = .ok number) :
    (manager.answer (.webhook hook) store).2.held? (.webhook hook) = some number := by
  obtain ⟨result, key?, after, hanswer, -, hanswers⟩ := manager.exists_answers (.webhook hook) store
  rw [hanswer] at h ⊢
  cases h
  cases hanswers with
  | held hheld => exact hheld
  | found _ _ | built _ _ _ => exact List.lookup_cons_self

theorem answer_of_held {store : ClientStore} {hook : Webhook} {number : Nat}
    (h : store.held? (.webhook hook) = some number) :
    (manager.answer (.webhook hook) store).1 = .ok number := by
  obtain ⟨result, key?, after, hanswer, -, hanswers⟩ := manager.exists_answers (.webhook hook) store
  rw [hanswer]
  cases hanswers with
  | held hheld => rw [Option.some.inj (hheld.symm.trans h)]
  | failed hnone _ _ | found hnone _ | built hnone _ _ => cases hnone.symm.trans h

theorem result_of_entry {earlier between : List ClientCall} {hook other : Webhook} {number : Nat}
    (hkind : hook.kind = other.kind) (hentry : hook.entry = other.entry)
    (h : manager.result earlier (.webhook hook) = .ok number) :
    manager.result (earlier ++ .webhook hook :: between) (.webhook other) = .ok number := by
  have hheld := held?_of_answer h
  rw [← storeAfter_concat] at hheld
  have hlater := held?_storeAfter hheld between
  rw [List.append_assoc, List.singleton_append] at hlater
  have hother : (manager.storeAfter (earlier ++ .webhook hook :: between)).held? (.webhook other) =
      some number := by
    show List.lookup (other.kind, other.entry) _ = _
    rw [← hkind, ← hentry]
    exact hlater
  exact answer_of_held hother

theorem kept_of_answer (hcapacity : 0 < manager.capacity) {store : ClientStore} {config : ClientConfig}
    {number : Nat} (h : (manager.answer (.direct config) store).1 = .ok number) :
    (config.cacheKey, number) ∈ (manager.answer (.direct config) store).2.kept ∧
      manager.lookedUp? (.direct config) store = some config.cacheKey := by
  obtain ⟨room, hroom⟩ := Nat.exists_eq_add_of_lt hcapacity
  obtain ⟨result, key?, after, hanswer, hlooked, hanswers⟩ :=
    manager.exists_answers (.direct config) store
  rw [hanswer] at h ⊢
  rw [hlooked]
  cases h
  cases hanswers with
  | held hheld => cases hheld
  | found _ _ => exact ⟨List.mem_cons_self, rfl⟩
  | built _ _ _ =>
    refine ⟨?_, rfl⟩
    show _ ∈ (_ :: store.kept).take manager.capacity
    rw [hroom, List.take_succ_cons]
    exact List.mem_cons_self

/-- A failure leaves everything as it was, and what is wanted is not there: neither kept nor held. -/
theorem answer_of_error {store : ClientStore} {call : ClientCall} {e : ClientError}
    (h : (manager.answer call store).1 = .error e) :
    (manager.answer call store).2 = store ∧ manager.builder.build call.wanted = .error e ∧
      store.held? call = none ∧ store.kept.lookup call.wanted.cacheKey = none := by
  obtain ⟨result, key?, after, hanswer, -, hanswers⟩ := manager.exists_answers call store
  rw [hanswer] at h ⊢
  cases h
  cases hanswers with
  | failed hheld hmissing hbuild => exact ⟨rfl, hbuild, hheld, hmissing⟩

theorem answer_of_missing {store : ClientStore} {call : ClientCall} {client : Client}
    (hheld : store.held? call = none) (hmissing : store.kept.lookup call.wanted.cacheKey = none)
    (hbuild : manager.builder.build call.wanted = .ok client) :
    (manager.answer call store).1 = .ok store.built.length ∧
      (manager.answer call store).2.built = store.built ++ [client] := by
  obtain ⟨result, key?, after, hanswer, -, hanswers⟩ := manager.exists_answers call store
  rw [hanswer]
  cases hanswers with
  | held h => cases hheld.symm.trans h
  | failed _ _ h => cases hbuild.symm.trans h
  | found _ h => cases hmissing.symm.trans h
  | built _ _ h =>
    cases hbuild.symm.trans h
    exact ⟨rfl, ClientStore.built_hold _ _ _⟩

theorem answer_of_kept {store : ClientStore} {config : ClientConfig} {number : Nat}
    (h : store.kept.lookup config.cacheKey = some number) :
    (manager.answer (.direct config) store).1 = .ok number := by
  obtain ⟨result, key?, after, hanswer, -, hanswers⟩ :=
    manager.exists_answers (.direct config) store
  rw [hanswer]
  cases hanswers with
  | held hheld => cases hheld
  | failed _ hnone _ | built _ hnone _ => cases hnone.symm.trans h
  | found _ hfound => rw [Option.some.inj (hfound.symm.trans h)]

/-- **What was looked up stays, the very same client, while not many others are looked up.** -/
theorem kept_between (hcapacity : 0 < manager.capacity) {earlier between : List ClientCall}
    {config : ClientConfig} {number : Nat}
    (hconsistent : ClientCall.Consistent (earlier ++ .direct config :: between))
    (h : manager.result earlier (.direct config) = .ok number)
    (hfew : ((manager.lookedUp (manager.storeAfter (earlier ++ [.direct config])) between).filter
      (· ≠ config.cacheKey)).toFinset.card < manager.capacity) :
    (config.cacheKey, number) ∈
      (manager.storeAfter (earlier ++ .direct config :: between)).kept := by
  obtain ⟨hkept, hlooked⟩ := kept_of_answer hcapacity h
  have hall : ∀ calls, manager.lookedUp {} (earlier ++ .direct config :: calls) =
      manager.lookedUp {} earlier ++ config.cacheKey ::
        manager.lookedUp (manager.storeAfter (earlier ++ [.direct config])) calls := by
    intro calls
    rw [lookedUp_append, lookedUp, storeAfter_concat]
    show _ ++ ((manager.lookedUp? (.direct config) (manager.storeAfter earlier)).toList ++ _) = _
    rw [hlooked]
    rfl
  induction between using List.reverseRecOn with
  | nil =>
    rw [storeAfter_concat]
    exact hkept
  | append_singleton between call ih =>
    have hassoc : earlier ++ .direct config :: (between ++ [call]) =
        (earlier ++ .direct config :: between) ++ [call] := by simp
    have hbefore : ClientCall.Consistent (earlier ++ .direct config :: between) :=
      hconsistent.subset (hassoc ▸ List.subset_append_left _ _)
    have hfewer : ((manager.lookedUp (manager.storeAfter (earlier ++ [.direct config])) between).filter
        (· ≠ config.cacheKey)).toFinset.card < manager.capacity := by
      refine (Finset.card_le_card fun key hkey => ?_).trans_lt hfew
      rw [lookedUp_append, List.filter_append, List.toFinset_append]
      exact Finset.mem_union_left _ hkey
    have hin := ih hbefore hfewer
    obtain ⟨keys, hsound, -⟩ := exists_keys hcapacity hbefore
    obtain ⟨keys', hsound', -⟩ := exists_keys hcapacity hconsistent
    rw [hassoc, storeAfter_concat]
    refine hsound.mem_answer hin ?_
    rw [← storeAfter_concat, ← hassoc, hsound'.recent, hall]
    exact mem_take_reverse_dedup hfew

/-! ## 4. Every run -/

theorem capacity_withCapacity_pos (builder : ClientBuilder) (asked : Nat) :
    0 < (withCapacity builder asked).capacity := by
  show 0 < if asked = 0 then defaultCapacity else asked
  by_cases h : asked = 0
  · rw [if_pos h]
    decide
  · rw [if_neg h]
    exact Nat.pos_of_ne_zero h

/-- **The client that a call gets is what building afresh would give, and is shared exactly as far as what it
is made of is.**  However calls for configurations and for entries of snapshots follow one another: whoever
gets a client gets what its own configuration makes, now and later; never more clients are kept than there is
room for, and they are those that were looked up last.  A failure is that of building, leaves everything as
it was and is not remembered: when building succeeds, the same call does.  Configurations that differ in the
name only get the very same client if, in between, fewer others were looked up than there is room for;
those that differ in anything else never do.  An entry that got a client gets it for ever. -/
theorem clients_are_fresh_and_shared (builder : ClientBuilder) (asked : Nat) {calls : List ClientCall}
    (hconsistent : ClientCall.Consistent calls) :
    let manager := withCapacity builder asked
    let room := if asked = 0 then 200 else asked
    (∀ earlier call later number, calls = earlier ++ call :: later →
      manager.result earlier call = .ok number →
      ∃ client, builder.build call.wanted = .ok client ∧
        (manager.storeAfter calls).built[number]? = some client) ∧
    ((manager.storeAfter calls).kept.length ≤ room ∧
      (manager.storeAfter calls).kept.map (·.1) =
        (manager.lookedUp {} calls).dedup.reverse.take room) ∧
    (∀ earlier call later e, calls = earlier ++ call :: later →
      manager.result earlier call = .error e →
      builder.build call.wanted = .error e ∧
        manager.storeAfter (earlier ++ [call]) = manager.storeAfter earlier ∧
        ∀ (repaired : ClientManager) (client : Client),
          repaired.builder.build call.wanted = .ok client →
          let again := repaired.answer call (manager.storeAfter (earlier ++ [call]))
          ∃ number, again.1 = .ok number ∧ again.2.built[number]? = some client) ∧
    (∀ earlier first between second later number,
      calls = earlier ++ .direct first :: (between ++ .direct second :: later) →
      first.url = second.url → first.service = second.service → first.caBundle = second.caBundle →
      manager.result earlier (.direct first) = .ok number →
      ((manager.lookedUp (manager.storeAfter (earlier ++ [.direct first])) between).filter
        (· ≠ first.cacheKey)).toFinset.card < room →
      manager.result (earlier ++ .direct first :: between) (.direct second) = .ok number) ∧
    (∀ earlier call between other later number,
      calls = earlier ++ call :: (between ++ other :: later) →
      manager.result earlier call = .ok number →
      manager.result (earlier ++ call :: between) other = .ok number →
      call.wanted.url = other.wanted.url ∧ call.wanted.service = other.wanted.service ∧
        call.wanted.caBundle = other.wanted.caBundle) ∧
    ∀ earlier hook between number, manager.result earlier (.webhook hook) = .ok number →
      manager.result (earlier ++ .webhook hook :: between) (.webhook hook) = .ok number := by
  intro manager room
  have hcapacity : 0 < manager.capacity := capacity_withCapacity_pos builder asked
  obtain ⟨keys, hsound, hkeys⟩ := exists_keys hcapacity hconsistent
  refine ⟨?_, ⟨hsound.length_le, hsound.recent⟩, ?_, ?_, ?_, fun _ _ _ _ => result_of_entry rfl rfl⟩
  · intro earlier call later number hcalls hresult
    obtain ⟨hlt, hkey⟩ := List.getElem?_eq_some_iff.1 (hkeys earlier call later number hcalls hresult)
    have hlt' : number < (manager.storeAfter calls).built.length :=
      hsound.built.length_eq ▸ hlt
    have hbuild := hsound.built.get hlt hlt' call.wanted hkey.symm
    exact ⟨_, hbuild, List.getElem?_eq_getElem hlt'⟩
  · intro earlier call later e hcalls hresult
    obtain ⟨hstore, hbuild, hheld, hmissing⟩ := answer_of_error hresult
    refine ⟨hbuild, ?_, fun repaired client hrepaired => ?_⟩
    · rw [storeAfter_concat, hstore]
    · rw [storeAfter_concat, hstore]
      obtain ⟨hagain, hbuilt⟩ := answer_of_missing hheld hmissing hrepaired
      refine ⟨_, hagain, ?_⟩
      rw [hbuilt]
      exact List.getElem?_concat_length
  · intro earlier first between second later number hcalls hurl hservice hbundle hresult hfew
    have hkey : first.cacheKey = second.cacheKey := by
      rw [ClientConfig.cacheKey, hurl, hservice, hbundle]
      rfl
    have hbetween : ClientCall.Consistent (earlier ++ .direct first :: between) := by
      refine hconsistent.subset ?_
      rw [hcalls]
      exact (((List.sublist_append_left _ _).cons_cons _).append_left _).subset
    have hkept := kept_between hcapacity hbetween hresult hfew
    obtain ⟨keys', hsound', -⟩ := exists_keys hcapacity hbetween
    exact answer_of_kept (hkey ▸ hsound'.lookup_of_mem hkept)
  · intro earlier call between other later number hcalls hresult hother
    have hfirst := hkeys earlier call _ number hcalls hresult
    have hsecond := hkeys (earlier ++ call :: between) other later number (by simpa using hcalls) hother
    have hkey := Option.some.inj (hfirst.symm.trans hsecond)
    simpa [ClientConfig.cacheKey] using hkey

/-! ### room for one -/

/-- A builder that knows no credentials. -/
def anonymous : ClientBuilder := ⟨some .empty, true, ⟨fun _ => true, fun _ _ => true⟩⟩

/-- A configuration in which nothing but the name is left open. -/
def named (name : String) : ClientConfig := { name := name, url := some "http://host/path" }

/-- The entry of a first snapshot. -/
def firstEntry : Webhook :=
  { Webhook.bare "entry" .validating with
    client := { name := "entry", url := some "http://host/entry" } }

/-- Two configurations that differ in the name, an entry, and the first of them again, for which the client of
the entry leaves; then the entry again. -/
def crowded : List ClientCall :=
  [.direct (named "first"), .direct (named "second"), .webhook firstEntry, .direct (named "first"),
    .webhook firstEntry]

theorem consistent_crowded : ClientCall.Consistent crowded := by
  let publications : WebhookKind → List (List Configuration) :=
    fun _ => [[⟨.validating, { name := some "only" }, [firstEntry]⟩]]
  have hpublished : ∀ hook, .webhook hook ∈ crowded →
      hook ∈ Snapshot.initial.published (publications hook.kind) := by
    intro hook hm
    obtain rfl : hook = firstEntry := by simpa [crowded] using hm
    decide +kernel
  exact ClientCall.consistent_of_published hpublished

/-- The second configuration gets the client of the first, the entry its own for ever, and the first one its
own built again when it had to leave. -/
theorem clients_are_fresh_and_shared_crowded :
    (withCapacity anonymous 1).result [.direct (named "first")] (.direct (named "second")) = .ok 0 ∧
      (withCapacity anonymous 1).result (crowded.take 4) (.webhook firstEntry) = .ok 1 ∧
      ((withCapacity anonymous 1).storeAfter crowded).kept.length ≤ 1 ∧
      (∃ client, anonymous.build (named "first") = .ok client ∧
        ((withCapacity anonymous 1).storeAfter crowded).built[2]? = some client) := by
  obtain ⟨hfresh, ⟨hroom, -⟩, -, hshared, -, hheld⟩ :=
    clients_are_fresh_and_shared anonymous 1 consistent_crowded
  have hfirst : (withCapacity anonymous 1).result [] (.direct (named "first")) = .ok 0 := by
    decide +kernel
  have hentry : (withCapacity anonymous 1).result (crowded.take 2) (.webhook firstEntry) = .ok 1 := by
    decide +kernel
  have hagain : (withCapacity anonymous 1).result (crowded.take 3) (.direct (named "first")) = .ok 2 := by
    decide +kernel
  refine ⟨?_, ?_, hroom, ?_⟩
  · exact hshared [] (named "first") [] (named "second") _ 0 rfl rfl rfl rfl hfirst (by decide)
  · exact hheld (crowded.take 2) firstEntry [.direct (named "first")] 1 hentry
  · exact hfresh (crowded.take 3) (.direct (named "first")) _ 2 rfl hagain

end ClientManager

end Admission
