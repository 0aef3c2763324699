import Admission.Client.Caller
import Admission.Proofs.Client.Trust
import Admission.Proofs.Dispatch.DryRun

/-!
# Webhooks that are never asked

A webhook whose connections cannot be secured has no client, and without a client nothing is sent.  It does
not help that clients are kept and held: what is kept under a key, or held by an entry, was built for what it
is got for, so where building fails nothing was ever there (`ClientManager.exists_client_of_result`).

That is so whatever happens.  What may happen is put as wide as can be (`Caller.Happens`): clients are got and
reviews go out on them, in any order and for any number of requests at once, and in between the manager is
used by others and the other side does what it likes.  Dispatches are among it, to mutating webhooks one after
another (`Caller.Happens.mutating`) and to validating ones with their tasks in any order
(`Caller.Happens.validating`).
-/

namespace Admission

/-! ## 1. What may happen -/

namespace Caller

section Happens

variable {σ : Type} (caller : Caller σ) (known : Webhook → Prop) (elsewhere : σ → σ → Prop) (first : σ)

/-- **What may happen from a world on**, one thing after another, and the clients that have been got by then:
webhooks that are known get clients, on clients that were got reviews go out, and elsewhere the world goes
on. -/
inductive Happens : σ → List caller.Handle → Prop where
  | start : Happens first []
  | elsewhere {world next given} (h : Happens world given) (goes : elsewhere world next) : Happens next given
  | connected {world next given hook result} (h : Happens world given) (isKnown : known hook)
      (connect : caller.connect hook world = (result, next)) : Happens next (result.toOption.toList ++ given)
  | posted {world next given handle review timeout exchanged} (h : Happens world given)
      (got : handle ∈ given) (post : caller.post handle review timeout world = (exchanged, next)) :
      Happens next given

variable {caller known elsewhere first} {world : σ} {given : List caller.Handle} {request : Request}

theorem Happens.call (h : caller.Happens known elsewhere first world given) {invocation : Invocation}
    (hknown : known invocation.webhook) (objects : Versioned) :
    ∃ given', caller.Happens known elsewhere first (caller.call request invocation objects world).2 given' := by
  have hcourse := caller.course_call request invocation objects world
  generalize caller.call request invocation objects world = result at hcourse
  cases hcourse with
  | closed gate => exact ⟨_, h⟩
  | clientless gate connect => exact ⟨_, h.connected hknown connect⟩
  | unreached gate connect post reply =>
    exact ⟨_, (h.connected hknown connect).posted List.mem_cons_self post⟩
  | unverified gate connect post reply verify =>
    exact ⟨_, (h.connected hknown connect).posted List.mem_cons_self post⟩
  | answered gate connect post reply verify =>
    exact ⟨_, (h.connected hknown connect).posted List.mem_cons_self post⟩

theorem Happens.callAll (h : caller.Happens known elsewhere first world given) (request : Request)
    {prepared : List (Invocation × Versioned)} (hknown : ∀ p ∈ prepared, known p.1.webhook) :
    ∃ given', caller.Happens known elsewhere first
      (ValidatingDispatch.callAll caller request prepared world).2 given' := by
  induction prepared generalizing world given with
  | nil => exact ⟨given, h⟩
  | cons p rest ih =>
    obtain ⟨hp, hrest⟩ := List.forall_mem_cons.1 hknown
    obtain ⟨given', hcall⟩ := h.call hp p.2
    exact ih hcall hrest

/-- **A dispatch to mutating webhooks may happen.** -/
theorem Happens.mutating (h : caller.Happens known elsewhere first world given) (scheme : Scheme)
    (request : Request) (tally : Tally) {invocations : List Invocation}
    (hknown : ∀ invocation ∈ invocations, known invocation.webhook) :
    ∃ given', caller.Happens known elsewhere first
      (MutatingDispatch.dispatch caller scheme request tally invocations world).world given' := by
  obtain ⟨stop, run, hrun, hhalt⟩ :=
    MutatingDispatch.exists_halt caller scheme request tally invocations world
  obtain ⟨past, hpast, -, hcalls⟩ := hhalt.calls
  have hin : ∀ p ∈ past, known p.1.webhook := by
    intro p hm
    have hmem : p.1 ∈ invocations.take run.reports.length := hpast ▸ List.mem_map_of_mem hm
    exact hknown p.1 (List.mem_of_mem_take hmem)
  have hall := h.callAll request hin
  rw [hcalls.sequence] at hall
  rw [(MutatingDispatch.dispatch_reports hrun).2]
  exact hall

/-- **The turns of the tasks of a dispatch to validating webhooks may happen too.** -/
theorem Happens.validating (h : caller.Happens known elsewhere first world given)
    {prepared : List (Invocation × Versioned)} (hknown : ∀ p ∈ prepared, known p.1.webhook)
    {turns : List Nat} {crew : ValidatingDispatch.Crew σ}
    (hrun : ValidatingDispatch.Crew.run caller request turns
      (ValidatingDispatch.Crew.spawn prepared world) = some crew) :
    ∃ given', caller.Happens known elsewhere first crew.world given' := by
  have hvalid := (ValidatingDispatch.Crew.valid_spawn caller request prepared world).run hrun
  have hin : ∀ p ∈ crew.calls.filterMap fun c => prepared[c.1]?, known p.1.webhook := by
    intro p hm
    obtain ⟨c, -, hc⟩ := List.mem_filterMap.1 hm
    exact hknown p (List.mem_of_getElem? hc)
  have hall := h.callAll request hin
  rw [hvalid.sequence] at hall
  exact hall

end Happens

end Caller

/-! ## 2. Clients were built -/

/-- **An entry is one webhook** among those that are known: it has the same configuration whenever it is
called. -/
def Webhook.OnePerEntry (known : Webhook → Prop) : Prop :=
  ∀ hook other, known hook → known other → hook.kind = other.kind → hook.entry = other.entry →
    hook.client = other.client

namespace ClientManager

variable {manager : ClientManager}

theorem exists_client_of_result (hcapacity : 0 < manager.capacity) {earlier : List ClientCall}
    {call : ClientCall} (hconsistent : ClientCall.Consistent (earlier ++ [call])) {number : Nat}
    (h : manager.result earlier call = .ok number) :
    ∃ client, manager.builder.build call.wanted = .ok client := by
  obtain ⟨keys, hsound, hkeys⟩ := exists_keys hcapacity hconsistent
  obtain ⟨hlt, hkey⟩ := List.getElem?_eq_some_iff.1 (hkeys earlier call [] number rfl h)
  have hlt' : number < (manager.storeAfter (earlier ++ [call])).built.length := hsound.built.length_eq ▸ hlt
  exact ⟨_, hsound.built.get hlt hlt' call.wanted hkey.symm⟩

/-- **What has been asked of a manager** so far, all of it by webhooks that are known or for configurations. -/
def Asked (manager : ClientManager) (known : Webhook → Prop) (store : ClientStore) : Prop :=
  ∃ calls, (∀ hook, .webhook hook ∈ calls → known hook) ∧ store = manager.storeAfter calls

variable {known : Webhook → Prop} {store : ClientStore}

theorem Asked.exists_calls (h : manager.Asked known store) {call : ClientCall}
    (hcall : ∀ hook, call = .webhook hook → known hook) :
    ∃ calls, (∀ hook, .webhook hook ∈ calls ++ [call] → known hook) ∧ store = manager.storeAfter calls := by
  obtain ⟨calls, hcalls, hstore⟩ := h
  refine ⟨calls, fun hook hm => ?_, hstore⟩
  rcases List.mem_append.1 hm with hm | hm
  · exact hcalls hook hm
  · exact hcall hook (List.mem_singleton.1 hm).symm

theorem Asked.answer (h : manager.Asked known store) {call : ClientCall}
    (hcall : ∀ hook, call = .webhook hook → known hook) : manager.Asked known (manager.answer call store).2 := by
  obtain ⟨calls, hcalls, rfl⟩ := h.exists_calls hcall
  exact ⟨calls ++ [call], hcalls, (storeAfter_concat calls call).symm⟩

/-- If an entry is one webhook, whoever gets a client gets it for what can be built. -/
theorem Asked.exists_client (h : manager.Asked known store) (hcapacity : 0 < manager.capacity)
    (hone : Webhook.OnePerEntry known) {call : ClientCall} (hcall : ∀ hook, call = .webhook hook → known hook)
    {number : Nat} (hok : (manager.answer call store).1 = .ok number) :
    ∃ client, manager.builder.build call.wanted = .ok client := by
  obtain ⟨calls, hcalls, rfl⟩ := h.exists_calls hcall
  have hconsistent : ClientCall.Consistent (calls ++ [call]) :=
    fun hook other hm hm' => hone hook other (hcalls hook hm) (hcalls other hm')
  exact exists_client_of_result hcapacity hconsistent hok

/-- **There is no client for what cannot be built**, and asking leaves everything as it was. -/
theorem Asked.answer_eq_error (h : manager.Asked known store) (hcapacity : 0 < manager.capacity)
    (hone : Webhook.OnePerEntry known) (call : ClientCall) (hcall : ∀ hook, call = .webhook hook → known hook)
    {e : ClientError} (hbuild : manager.builder.build call.wanted = .error e) :
    manager.answer call store = (.error e, store) := by
  cases hresult : (manager.answer call store).1 with
  | ok number =>
    obtain ⟨client, hclient⟩ := h.exists_client hcapacity hone hcall hresult
    rw [hbuild] at hclient
    cases hclient
  | error e' =>
    obtain ⟨hstore, hbuild', -, -⟩ := answer_of_error hresult
    rw [hbuild] at hbuild'
    cases hbuild'
    exact Prod.ext hresult hstore

end ClientManager

/-! ## 3. Traffic -/

section Traffic

variable {σ : Type}

/-- What happens besides calls of webhooks: somebody asks the manager for a client, or the other side moves. -/
inductive Traffic.GoesOn (manager : ClientManager) : Traffic σ × Log → Traffic σ × Log → Prop where
  | asked (config : ClientConfig) (traffic : Traffic σ) (log : Log) : GoesOn manager (traffic, log)
      ({ traffic with store := (manager.clientFor config traffic.store).2 }, log)
  | moved (world : σ) (traffic : Traffic σ) (log : Log) : GoesOn manager (traffic, log)
      ({ traffic with world := world }, log)

/-- **Whatever may happen on a network**, with a log of what goes out to whom. -/
abbrev Traffic.Happens (manager : ClientManager) (network : Network σ) (clock : σ → Time.Span)
    (timeout : Time.Span) (known : Webhook → Prop) (first : σ) (after : Traffic σ × Log) : Prop :=
  ∃ given, (Caller.overNetwork manager network clock timeout).recording.Happens known
    (Traffic.GoesOn manager) ({ world := first }, []) after given

variable {manager : ClientManager} {network : Network σ} {clock : σ → Time.Span} {timeout : Time.Span}
  {known : Webhook → Prop} {first : σ}

theorem Traffic.store_post (network : Network σ) (client : Nat) (body : Json) (limit : Time.Span)
    (traffic : Traffic σ) :
    (traffic.post network client body limit).2.store = traffic.store := by
  unfold Traffic.post
  split <;> rfl

/-- **Everything was built**: the clients that are kept were asked for, and those that were got, and those that
reviews went out on, are of webhooks whose clients can be built. -/
structure Traffic.Sound (manager : ClientManager) (known : Webhook → Prop) (after : Traffic σ × Log)
    (given : List (Webhook × Nat)) : Prop where
  asked : manager.Asked known after.1.store
  given : ∀ handle ∈ given, ∃ client, manager.builder.build handle.1.client = .ok client
  sent : ∀ entry ∈ after.2, ∃ client, manager.builder.build entry.1.client = .ok client

section Sound

variable {traffic : Traffic σ} {log : Log} {given : List (Webhook × Nat)} {hook : Webhook}

theorem Traffic.Sound.goesOn {after next : Traffic σ × Log} (h : Traffic.Sound manager known after given)
    (goes : Traffic.GoesOn manager after next) : Traffic.Sound manager known next given := by
  cases goes with
  | asked config traffic log =>
    have hcall : ∀ hook, ClientCall.direct config = .webhook hook → known hook := by
      intro hook hdirect
      cases hdirect
    exact ⟨h.asked.answer hcall, h.given, h.sent⟩
  | moved world traffic log => exact ⟨h.asked, h.given, h.sent⟩

theorem Traffic.Sound.connected (h : Traffic.Sound manager known (traffic, log) given)
    (hcapacity : 0 < manager.capacity) (hone : Webhook.OnePerEntry known) (hknown : known hook) :
    Traffic.Sound manager known
      ({ traffic with store := (manager.answer (.webhook hook) traffic.store).2 }, log)
      (((manager.answer (.webhook hook) traffic.store).1.map (hook, ·)).toOption.toList ++ given) := by
  have hcall : ∀ other, ClientCall.webhook hook = .webhook other → known other := by
    rintro _ ⟨⟩
    exact hknown
  refine ⟨h.asked.answer hcall, fun handle hm => ?_, h.sent⟩
  rcases List.mem_append.1 hm with hm | hm
  · cases hanswer : (manager.answer (.webhook hook) traffic.store).1 with
    | error e =>
      rw [hanswer] at hm
      exact absurd hm List.not_mem_nil
    | ok number =>
      rw [hanswer] at hm
      obtain rfl := List.mem_singleton.1 hm
      exact h.asked.exists_client hcapacity hone hcall hanswer
  · exact h.given handle hm

theorem Traffic.Sound.posted (h : Traffic.Sound manager known (traffic, log) given) {client : Nat}
    (got : (hook, client) ∈ given) (review : Review) (limit : Time.Span) :
    Traffic.Sound manager known
      ((traffic.post network client review.toJson limit).2, log ++ [(hook, review)]) given := by
  have hstore := Traffic.store_post network client review.toJson limit traffic
  refine ⟨(congrArg (manager.Asked known) hstore).mpr h.asked, h.given, fun entry hm => ?_⟩
  rcases List.mem_append.1 hm with hm | hm
  · exact h.sent entry hm
  · obtain rfl := List.mem_singleton.1 hm
    exact h.given (hook, client) got

end Sound

/-- **Whatever happens, everything was built.** -/
theorem Traffic.Happens.sound (hcapacity : 0 < manager.capacity) (hone : Webhook.OnePerEntry known)
    {after : Traffic σ × Log} (h : Traffic.Happens manager network clock timeout known first after) :
    ∃ given, Traffic.Sound manager known after given := by
  obtain ⟨given, h⟩ := h
  refine ⟨given, ?_⟩
  induction h with
  | start =>
    exact ⟨⟨[], fun _ hm => absurd hm List.not_mem_nil, rfl⟩, fun _ hm => absurd hm List.not_mem_nil,
      fun _ hm => absurd hm List.not_mem_nil⟩
  | elsewhere _ goes ih => exact ih.goesOn goes
  | connected _ isKnown connect ih =>
    cases connect
    exact ih.connected hcapacity hone isKnown
  | posted _ got post ih =>
    cases post
    exact ih.posted got _ _

/-- **Nothing has gone out to webhooks with a configuration**, whatever their names. -/
def Log.Spares (log : Log) (config : ClientConfig) : Prop :=
  ∀ entry ∈ log, entry.1.client.cacheKey ≠ config.cacheKey

/-- **A configuration is barred**, with an error: whatever happens on a network, there is no client for it, for
whoever asks, and nothing goes out to webhooks that have it. -/
structure ClientManager.Bars (manager : ClientManager) (network : Network σ) (clock : σ → Time.Span)
    (timeout : Time.Span) (known : Webhook → Prop) (first : σ) (config : ClientConfig) (e : ClientError) :
    Prop where
  /-- Asking gives the error and leaves the clients as they are. -/
  refused : ∀ after, Traffic.Happens manager network clock timeout known first after →
    manager.clientFor config after.1.store = (.error e, after.1.store) ∧
      ∀ hook, known hook → hook.client.cacheKey = config.cacheKey →
        manager.clientOf hook after.1.store = (.error e, after.1.store)
  spared : ∀ after, Traffic.Happens manager network clock timeout known first after → after.2.Spares config
  /-- Then a request is dispatched to mutating webhooks. -/
  mutating : ∀ after, Traffic.Happens manager network clock timeout known first after →
    ∀ scheme request tally invocations, (∀ invocation ∈ invocations, known invocation.webhook) →
      Log.Spares (MutatingDispatch.dispatch (Caller.overNetwork manager network clock timeout).recording scheme
        request tally invocations after).world.2 config
  /-- Or to validating ones, and the tasks have taken some turns. -/
  validating : ∀ after, Traffic.Happens manager network clock timeout known first after →
    ∀ request prepared turns crew, (∀ p ∈ prepared, known p.1.webhook) →
      ValidatingDispatch.Crew.run (Caller.overNetwork manager network clock timeout).recording request turns
        (ValidatingDispatch.Crew.spawn prepared after) = some crew → Log.Spares crew.world.2 config

/-- **What cannot be built is barred.** -/
theorem ClientManager.bars_of_build (hcapacity : 0 < manager.capacity) (hone : Webhook.OnePerEntry known)
    {config : ClientConfig} {e : ClientError} (hbuild : manager.builder.build config = .error e) :
    manager.Bars network clock timeout known first config e := by
  have hspared : ∀ after, Traffic.Happens manager network clock timeout known first after →
      after.2.Spares config := by
    intro after h entry hm hkey
    obtain ⟨given, hsound⟩ := h.sound hcapacity hone
    obtain ⟨client, hclient⟩ := hsound.sent entry hm
    rw [ClientBuilder.build_congr hkey, hbuild] at hclient
    cases hclient
  refine ⟨fun after h => ?_, hspared, ?_, ?_⟩
  · obtain ⟨given, hsound⟩ := h.sound hcapacity hone
    have hasked := hsound.asked
    refine ⟨hasked.answer_eq_error hcapacity hone (.direct config) (fun _ hd => by cases hd) hbuild,
      fun hook hknown hkey => hasked.answer_eq_error hcapacity hone (.webhook hook) ?_ ?_⟩
    · rintro _ ⟨⟩
      exact hknown
    · exact (ClientBuilder.build_congr hkey _).trans hbuild
  · rintro after ⟨given, h⟩ scheme request tally invocations hknown
    exact hspared _ (h.mutating scheme request tally hknown)
  · rintro after ⟨given, h⟩ request prepared turns crew hknown hrun
    exact hspared _ (h.validating hknown hrun)

end Traffic

/-! ## 4. Trust -/

/-- **Trust is what the bundles say, or there is no connection.**  Of some bundles and perhaps an identity
a connection's security is made exactly if each bundle that is not empty holds certificates, all of which can
be trusted, and the identity can be shown.  The roots of the platform are trusted just if all bundles are empty;
otherwise those are trusted who are in the bundles, and nobody else, whatever the platform trusts.  The order of
the bundles does not count, nor do empty ones.

A client of a service or of a URL of https is secured by what its credentials and the bundle of its webhook make.
If that is nothing there is no client: it cannot be built, whatever was asked before, none is kept, and whatever
happens no review goes out to such a webhook. -/
theorem trust_is_never_weakened (builder : ClientBuilder) (capacity : Nat) (bundles : List (List UInt8))
    (identity : Option Identity) :
    ((∃ tls, TlsConfig.forClient builder.pki bundles identity = .ok tls) ↔
      (∀ bundle ∈ bundles, bundle ≠ [] → TlsConfig.Usable builder.pki bundle) ∧
        ∀ one ∈ identity, TlsConfig.Showable builder.pki one) ∧
    (∀ tls, TlsConfig.forClient builder.pki bundles identity = .ok tls →
      (tls.roots = .platform ↔ ∀ bundle ∈ bundles, bundle = []) ∧
      ((∃ bundle ∈ bundles, bundle ≠ []) → ∀ platform certificate,
        certificate ∈ tls.roots.trusted platform ↔ TlsConfig.InBundles bundles certificate) ∧
      ∀ other, (∀ bundle, bundle ≠ [] → (bundle ∈ other ↔ bundle ∈ bundles)) →
        ∃ tls', TlsConfig.forClient builder.pki other identity = .ok tls' ∧ tls'.identity = tls.identity ∧
          ∀ platform certificate,
            certificate ∈ tls'.roots.trusted platform ↔ certificate ∈ tls.roots.trusted platform) ∧
    ∀ table config credentials, builder.credentials = some table → config.SecuredWith table credentials →
      let made := TlsConfig.forClient builder.pki [credentials.caData, config.caBundle] credentials.identity
      (∀ client, builder.build config = .ok client →
        ∃ secured, client.tls = some secured ∧ made = .ok secured.config) ∧
      ((∀ tls, made ≠ .ok tls) → ∃ e, builder.build config = .error e ∧
        ∀ (σ : Type) (network : Network σ) clock timeout known first, Webhook.OnePerEntry known →
          (ClientManager.withCapacity builder capacity).Bars network clock timeout known first config e) := by
  refine ⟨TlsConfig.exists_forClient_iff, fun tls htls => ⟨?_, ?_, ?_⟩, ?_⟩
  · obtain ⟨hroots, -⟩ := TlsConfig.forClient_eq_ok.1 htls
    rcases TlsConfig.rootsOf_eq_ok hroots with ⟨hplatform, hempty⟩ | ⟨certificates, honly, ⟨bundle, hm, hne⟩, -⟩
    · exact ⟨fun _ => hempty, fun _ => hplatform⟩
    · rw [honly]
      exact ⟨nofun, fun hempty => absurd (hempty bundle hm) hne⟩
  · rintro ⟨bundle, hm, hne⟩ platform certificate
    obtain ⟨hroots, -⟩ := TlsConfig.forClient_eq_ok.1 htls
    rcases TlsConfig.rootsOf_eq_ok hroots with ⟨-, hempty⟩ | ⟨certificates, honly, -, hall⟩
    · exact absurd (hempty bundle hm) hne
    · rw [honly]
      exact hall certificate
  · exact fun other hsame => TlsConfig.forClient_congr hsame htls
  · intro table config credentials htable hsecured made
    refine ⟨fun client hclient => ClientBuilder.forClient_of_build htable hsecured hclient, fun hbroken => ?_⟩
    obtain ⟨e, he⟩ := ClientBuilder.build_eq_error htable hsecured hbroken
    exact ⟨e, he, fun σ network clock timeout known first hone =>
      ClientManager.bars_of_build (ClientManager.capacity_withCapacity_pos builder capacity) hone he⟩

/-! ### a service with a broken bundle -/

/-- A bundle of one certificate. -/
def firstAuthority : List UInt8 :=
  Utf8.encode "-----BEGIN CERTIFICATE-----\nAAAA\n-----END CERTIFICATE-----\n"

/-- A bundle of another one. -/
def secondAuthority : List UInt8 :=
  Utf8.encode "-----BEGIN CERTIFICATE-----\nBBBB\n-----END CERTIFICATE-----\n"

/-- Somebody who can use any certificate, and has no credentials. -/
def trustingBuilder : ClientBuilder := ⟨some .empty, true, ⟨fun _ => true, fun _ _ => true⟩⟩

/-- A webhook that is a service, with a bundle in which there is no certificate. -/
def distrustedHook : Webhook :=
  { Webhook.bare "entry" .validating with
    client := { name := "policy.example.com", service := some ⟨"policy", "system", "/hook", 443⟩,
                caBundle := Utf8.encode "no certificate" } }

/-- Two bundles and an empty one make two certificates trusted; a broken one bars a webhook from getting a client,
and reviews from going out to it. -/
theorem trust_is_never_weakened_service :
    (∃ tls, TlsConfig.forClient trustingBuilder.pki [firstAuthority, [], secondAuthority] none = .ok tls ∧
      [0, 0, 0] ∈ tls.roots.trusted [] ∧ [4, 16, 65] ∈ tls.roots.trusted []) ∧
    ∃ e, trustingBuilder.build distrustedHook.client = .error e ∧
      ∀ (σ : Type) (network : Network σ) clock timeout first,
        (ClientManager.withCapacity trustingBuilder 0).clientOf distrustedHook {} = (.error e, {}) ∧
          (ClientManager.withCapacity trustingBuilder 0).Bars network clock timeout (· = distrustedHook) first
            distrustedHook.client e := by
  obtain ⟨hmade, htrusted, hbarred⟩ :=
    trust_is_never_weakened trustingBuilder 0 [firstAuthority, [], secondAuthority] none
  have hfirst : Pem.certificates firstAuthority = .ok [[0, 0, 0]] := by decide +kernel
  have hsecond : Pem.certificates secondAuthority = .ok [[4, 16, 65]] := by decide +kernel
  have hnone : Pem.certificates distrustedHook.client.caBundle = .ok [] := by decide +kernel
  constructor
  · have husable : ∀ bundle ∈ [firstAuthority, [], secondAuthority], bundle ≠ [] →
        TlsConfig.Usable trustingBuilder.pki bundle := by
      intro bundle hm hne
      obtain rfl | rfl | rfl : bundle = firstAuthority ∨ bundle = [] ∨ bundle = secondAuthority := by
        simpa using hm
      · exact ⟨_, hfirst, by decide, fun _ _ => rfl⟩
      · exact absurd rfl hne
      · exact ⟨_, hsecond, by decide, fun _ _ => rfl⟩
    obtain ⟨tls, htls⟩ := hmade.2 ⟨husable, nofun⟩
    obtain ⟨-, hin, -⟩ := htrusted tls htls
    have hgiven : firstAuthority ≠ [] ∧ secondAuthority ≠ [] := by decide +kernel
    have hexact := hin ⟨firstAuthority, by simp, hgiven.1⟩ []
    refine ⟨tls, htls, (hexact _).2 ?_, (hexact _).2 ?_⟩
    · exact ⟨firstAuthority, by simp, hgiven.1, _, hfirst, by simp⟩
    · exact ⟨secondAuthority, by simp, hgiven.2, _, hsecond, by simp⟩
  · obtain ⟨-, hbroken⟩ := hbarred .empty distrustedHook.client _ rfl
      (.inl ⟨⟨"policy", "system", "/hook", 443⟩, rfl, rfl⟩)
    obtain ⟨e, hbuild, hbars⟩ := hbroken fun tls htls => by
      obtain ⟨husable, -⟩ := TlsConfig.exists_forClient_iff.1 ⟨tls, htls⟩
      obtain ⟨certificates, hread, hne, -⟩ :=
        husable distrustedHook.client.caBundle (by simp) (by decide +kernel)
      rw [hnone] at hread
      cases hread
      exact hne rfl
    refine ⟨e, hbuild, fun σ network clock timeout first => ?_⟩
    have hone : Webhook.OnePerEntry (· = distrustedHook) := by
      rintro _ _ rfl rfl - -
      rfl
    have hall := hbars σ network clock timeout (· = distrustedHook) first hone
    obtain ⟨-, hentry⟩ := hall.refused _ ⟨[], .start⟩
    exact ⟨hentry distrustedHook rfl rfl, hall⟩

end Admission
