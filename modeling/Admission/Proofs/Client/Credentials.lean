import Admission.Proofs.Client.Dial

/-!
# Whose credentials a webhook is shown

The host whose credentials are looked up is found by code that knows nothing of the code that finds the host
to dial: it cuts the authority at its brackets or at its last colon.  For the authorities that are written as
a host and perhaps a port both find the same host (`Address.hostOf_text`, `Address.trimBrackets_host`), so a
lookup asks for the authority, for the host that is dialled and for `*`, and for nothing else
(`ClientConfig.Calls`).  Two tables that say the same of these make the same clients, whatever they say of
other hosts; a token that was meant for another host cannot go out.
-/

namespace Admission

open Net

/-! ## 1. Lookups -/

namespace CredentialTable

variable {left right : CredentialTable}

/-- **Tables that agree on what is asked give the same.** -/
theorem lookup_congr {candidates : List String}
    (h : ∀ key ∈ candidates ++ [anyHost], left.get? key = right.get? key) :
    left.lookup candidates = right.lookup candidates := by
  have hsame : ∀ keys : List String, (∀ key ∈ keys, left.get? key = right.get? key) →
      keys.findSome? left.get? = keys.findSome? right.get? := by
    intro keys hkeys
    induction keys with
    | nil => rfl
    | cons key rest ih =>
      obtain ⟨hkey, hrest⟩ := List.forall_mem_cons.1 hkeys
      rw [List.findSome?_cons, List.findSome?_cons, hkey, ih hrest]
  unfold lookup
  rw [hsame _ h]

end CredentialTable

namespace ClientBuilder

variable {left right : CredentialTable} {resolves : Bool} {pki : Pki} {caBundle : List UInt8}

/-- A builder with a table of credentials. -/
def withTable (table : CredentialTable) (resolves : Bool) (pki : Pki) : ClientBuilder :=
  ⟨some table, resolves, pki⟩

theorem buildService_congr {service : ServiceReference}
    (h : left.forService service.name service.namespaceName service.port =
      right.forService service.name service.namespaceName service.port) :
    (withTable left resolves pki).buildService left service caBundle =
      (withTable right resolves pki).buildService right service caBundle := by
  unfold buildService
  rw [h]
  rfl

theorem buildUrl_congr {url : String}
    (h : ∀ uri scheme authority, Uri.ofText? url = some uri → uri.scheme = some scheme →
      scheme = "http" ∨ scheme = "https" → uri.authority = some authority →
      left.forAuthority authority = right.forAuthority authority) :
    (withTable left resolves pki).buildUrl left url caBundle =
      (withTable right resolves pki).buildUrl right url caBundle := by
  unfold buildUrl
  cases huri : Uri.ofText? url with
  | none => rfl
  | some uri =>
    dsimp only
    cases hauthority : uri.authority with
    | none => rfl
    | some authority =>
      by_cases hhttps : uri.scheme = some "https"
      · have hsame := h uri "https" authority huri hhttps (.inr rfl) hauthority
        rw [if_pos hhttps, if_pos hhttps]
        dsimp only [bind, Except.bind]
        rw [hsame]
        rfl
      · by_cases hhttp : uri.scheme = some "http"
        · have hsame := h uri "http" authority huri hhttp (.inl rfl) hauthority
          rw [if_neg hhttps, if_neg hhttps, if_pos hhttp, if_pos hhttp]
          dsimp only [bind, Except.bind]
          rw [hsame]
          rfl
        · rw [if_neg hhttps, if_neg hhttps, if_neg hhttp, if_neg hhttp]
          rfl

variable {table : CredentialTable} {config : ClientConfig}

theorem build_of_service {service : ServiceReference} (h : config.service = some service) :
    (withTable table resolves pki).build config =
      if resolves then (withTable table resolves pki).buildService table service config.caBundle
      else .error (.notConfigured "service resolver") := by
  unfold build
  simp only [withTable, h]
  rfl

theorem build_of_url {url : String} (hservice : config.service = none) (h : config.url = some url) :
    (withTable table resolves pki).build config =
      (withTable table resolves pki).buildUrl table url config.caBundle := by
  unfold build
  simp only [withTable, hservice, h]

end ClientBuilder

/-! ## 2. What is called -/

namespace Net.Address

/-- **An authority of a host and perhaps a port**, which is a number of 16 bits. -/
structure IsPlain (address : Address) : Prop where
  user : address.user = none
  port : ∀ text ∈ address.port, ∃ n, Spells text n ∧ n < 65536

end Net.Address

/-- **Whom a configuration calls**: an authority and the host in it. -/
inductive ClientConfig.Calls (config : ClientConfig) : String → String → Prop where
  | service {service : ServiceReference} (given : config.service = some service) :
      Calls config
        s!"{CredentialTable.serviceHost service.name service.namespaceName}:{service.port}"
        (CredentialTable.serviceHost service.name service.namespaceName)
  | url {url scheme : String} {address : Address} (unserved : config.service = none)
      (given : config.url = some url) (colon : ':' ∉ scheme.toList)
      (names : address.Names url scheme) (plain : address.IsPlain) :
      Calls config address.text (String.ofList address.host)
  /-- A URL without a scheme, for which there is no client. -/
  | bare {url : String} {address : Address} (unserved : config.service = none)
      (given : config.url = some url) (written : url.toList = address.written) (plain : address.IsPlain) :
      Calls config address.text (String.ofList address.host)

namespace Net.Address

variable {address : Address}

theorem IsPlain.forAuthority (h : address.IsPlain) (table : CredentialTable) :
    table.forAuthority address.text = table.lookup [address.text, String.ofList address.host] := by
  unfold CredentialTable.forAuthority
  rw [address.hostOf_text h.user h.port]

theorem scheme_ne_of_written {url scheme : String} {uri : Uri} (h : url.toList = address.written)
    (huri : Uri.ofText? url = some uri) (hknown : scheme = "http" ∨ scheme = "https") :
    uri.scheme ≠ some scheme := by
  intro hscheme
  obtain ⟨start, body, hurl, -⟩ := Uri.exists_start huri hscheme hknown
  have hslash := address.notMem_written (c := '/') (by decide)
  rw [← h, hurl] at hslash
  exact hslash (by simp)

end Net.Address

namespace ClientConfig

variable {config : ClientConfig} {authority host : String} {left right : CredentialTable} {resolves : Bool}
  {pki : Pki}

/-- **Two tables that agree on whom a configuration calls make the same of it.** -/
theorem Calls.build_eq (h : config.Calls authority host)
    (hagree : ∀ key ∈ [authority, host, "*"], left.get? key = right.get? key) :
    (ClientBuilder.withTable left resolves pki).build config =
      (ClientBuilder.withTable right resolves pki).build config := by
  have hlookup : left.lookup [authority, host] = right.lookup [authority, host] :=
    CredentialTable.lookup_congr hagree
  cases h with
  | service given =>
    rw [ClientBuilder.build_of_service given, ClientBuilder.build_of_service given,
      ClientBuilder.buildService_congr hlookup]
  | url unserved given colon names plain =>
    rw [ClientBuilder.build_of_url unserved given, ClientBuilder.build_of_url unserved given]
    refine ClientBuilder.buildUrl_congr fun uri scheme text huri hscheme hknown htext => ?_
    obtain rfl := names.scheme_eq colon huri hscheme hknown
    obtain ⟨-, hauthority⟩ := names.ofText? hknown huri
    obtain rfl := Option.some.inj (htext.symm.trans hauthority)
    rw [plain.forAuthority, plain.forAuthority, hlookup]
  | bare unserved given written plain =>
    rw [ClientBuilder.build_of_url unserved given, ClientBuilder.build_of_url unserved given]
    exact ClientBuilder.buildUrl_congr fun uri scheme text huri hscheme hknown _ =>
      absurd hscheme (Address.scheme_ne_of_written written huri hknown)

/-- **A client shows what is found for whom it calls**, and goes there. -/
theorem Calls.shown {table : CredentialTable} {client : Client} (h : config.Calls authority host)
    (hbuild : (ClientBuilder.withTable table resolves pki).build config = .ok client) :
    client.bearerToken = (table.lookup [authority, host]).bearerToken ∧
      (∀ secured ∈ client.tls,
        secured.serverName = (table.lookup [authority, host]).serverName.getD host ∧
          TlsConfig.forClient pki [(table.lookup [authority, host]).caData, config.caBundle]
            (table.lookup [authority, host]).identity = .ok secured.config) ∧
      ∀ endpoint, client.target.resolve = .ok endpoint → endpoint.host = host := by
  cases h with
  | service given =>
    rw [ClientBuilder.build_of_service given] at hbuild
    split at hbuild
    · obtain ⟨secured, hsecured, rfl⟩ := ClientBuilder.buildService_eq_ok hbuild
      refine ⟨rfl, ?_, fun endpoint hresolve => ?_⟩
      · rintro _ ⟨⟩
        exact ClientBuilder.secure_eq_ok hsecured
      · rw [(ServiceReference.resolve_eq_ok hresolve).2]
    · cases hbuild
  | @url url scheme address unserved given colon names plain =>
    rw [ClientBuilder.build_of_url unserved given] at hbuild
    obtain ⟨made, text, hmade⟩ := ClientBuilder.buildUrl_eq_ok hbuild
    obtain ⟨uri, huri, hscheme, -⟩ := hmade.found
    obtain rfl := names.scheme_eq colon huri hscheme hmade.scheme_eq
    obtain ⟨-, rfl⟩ := hmade.authority_of_names hmade.scheme_eq names
    rw [← plain.forAuthority]
    refine ⟨hmade.bearerToken, fun secured hsecured => ?_, fun endpoint hresolve => ?_⟩
    · rcases hmade.scheme_eq with rfl | rfl
      · rw [hmade.plain rfl] at hsecured
        cases hsecured
      · obtain ⟨found, htls, hsecure⟩ := hmade.secured rfl
        rw [htls] at hsecured
        cases hsecured
        rw [address.trimBrackets_host] at hsecure
        exact ClientBuilder.secure_eq_ok hsecure
    · rw [hmade.target_of_names hmade.scheme_eq names] at hresolve
      cases hresolve
      rfl
  | bare unserved given written plain =>
    rw [ClientBuilder.build_of_url unserved given] at hbuild
    obtain ⟨made, text, hmade⟩ := ClientBuilder.buildUrl_eq_ok hbuild
    obtain ⟨uri, huri, hscheme, -⟩ := hmade.found
    exact absurd hscheme (Address.scheme_ne_of_written written huri hmade.scheme_eq)

end ClientConfig

/-- **Whatever tables say of other hosts does not show.**  Take two tables that agree on the authority that a
configuration calls, on the host that is dialled for it, and on `*`.  However two managers with these tables
were used before, they give out the same client or fail with the same error.  The client shows what the first
of these keys with an entry says, and a client without an entry shows nothing: its token is the one on every
request, its identity and the certificates it trusts are those of every connection, its server name is the one
to be proved, and the host itself if it has none; and what is dialled is that host. -/
theorem credentials_are_isolated (left right : CredentialTable) (resolves : Bool) (pki : Pki)
    {config : ClientConfig} {authority host : String} (hcalls : config.Calls authority host)
    (hagree : ∀ key ∈ [authority, host, "*"], left.get? key = right.get? key)
    (asked asked' : Nat) (earlier earlier' : List ClientCall) (call call' : ClientCall)
    (hwanted : call.wanted = config) (hwanted' : call'.wanted = config)
    (hconsistent : ClientCall.Consistent (earlier ++ [call]))
    (hconsistent' : ClientCall.Consistent (earlier' ++ [call'])) :
    let ofLeft := ClientManager.withCapacity (.withTable left resolves pki) asked
    let ofRight := ClientManager.withCapacity (.withTable right resolves pki) asked'
    ofLeft.clientAfter earlier call = ofRight.clientAfter earlier' call' ∧
      ∀ client, ofLeft.clientAfter earlier call = .ok client →
        let entry := ([authority, host, "*"].findSome? left.get?).getD {}
        client.bearerToken = entry.bearerToken ∧
          (∀ secured ∈ client.tls, secured.serverName = entry.serverName.getD host ∧
            TlsConfig.forClient pki [entry.caData, config.caBundle] entry.identity = .ok secured.config) ∧
          ∀ {σ : Type} (network : Network σ) body timeout pool world,
            (∀ endpoint tls, .dialled endpoint tls ∈ client.seen network body timeout pool world →
              endpoint.host = host ∧ tls = client.tls) ∧
            ∀ connection request,
              .wrote connection request ∈ client.seen network body timeout pool world →
                request.bearerToken = entry.bearerToken := by
  intro ofLeft ofRight
  have hleft : ofLeft.clientAfter earlier call = (ClientBuilder.withTable left resolves pki).build config := by
    rw [← hwanted]
    exact ClientManager.clientAfter_eq (ClientManager.capacity_withCapacity_pos _ asked) hconsistent
  have hright : ofRight.clientAfter earlier' call' =
      (ClientBuilder.withTable right resolves pki).build config := by
    rw [← hwanted']
    exact ClientManager.clientAfter_eq (ClientManager.capacity_withCapacity_pos _ asked') hconsistent'
  refine ⟨by rw [hleft, hright, hcalls.build_eq hagree], fun client hclient => ?_⟩
  obtain ⟨htoken, htls, hhost⟩ := hcalls.shown (hleft.symm.trans hclient)
  refine ⟨htoken, htls, fun network body timeout pool world => ⟨?_, ?_⟩⟩
  · intro endpoint tls hdialled
    obtain ⟨hresolve, hsame⟩ := Client.does_of_mem_seen hdialled
    exact ⟨hhost endpoint hresolve, hsame⟩
  · intro connection request hwrote
    obtain ⟨-, hcarried⟩ := Client.does_of_mem_seen hwrote
    exact hcarried.trans htoken

/-- A host whose brackets are left out in a table, and a stranger. -/
theorem credentials_are_isolated_loopback :
    let own : CredentialTable := Dict.empty.insert "::1" { bearerToken := some "own" }
    let both : CredentialTable := own.insert "other" { bearerToken := some "other" }
    let call : ClientCall := .direct (.ofUrl "https://[::1]:8443/path")
    ∃ client, (ClientManager.withCapacity (.withTable both true ClientManager.anonymous.pki) 1).clientAfter
        [.direct (.ofUrl "http://other/path")] call = .ok client ∧
      (ClientManager.withCapacity (.withTable own true ClientManager.anonymous.pki) 0).clientAfter [] call =
        .ok client ∧
      (client.seen .willing .null (.ofSeconds 5) [] 0).length = 2 ∧
      ∀ connection request, .wrote connection request ∈ client.seen .willing .null (.ofSeconds 5) [] 0 →
        request.bearerToken = some "own" := by
  intro own both call
  have hcalls : (ClientConfig.ofUrl "https://[::1]:8443/path").Calls Address.loopback.text
      (String.ofList Address.loopback.host) := by
    have hnames : Address.loopback.Names "https://[::1]:8443/path" "https" :=
      ⟨"https".toList, "/path".toList, by decide +kernel, by decide +kernel, by simp⟩
    refine .url rfl rfl (by decide +kernel) hnames ⟨rfl, fun text htext => ?_⟩
    cases htext
    exact ⟨8443, portNumber?_eq_some.1 (by decide +kernel)⟩
  have hafter := ClientCall.consistent_direct [.ofUrl "http://other/path", .ofUrl "https://[::1]:8443/path"]
  have hfirst := ClientCall.consistent_direct [.ofUrl "https://[::1]:8443/path"]
  obtain ⟨hsame, hshown⟩ := credentials_are_isolated both own true ClientManager.anonymous.pki hcalls
    (by decide +kernel) 1 0 [.direct (.ofUrl "http://other/path")] [] call call rfl rfl hafter hfirst
  have hclient : (ClientManager.withCapacity (.withTable both true ClientManager.anonymous.pki) 1).clientAfter
      [.direct (.ofUrl "http://other/path")] call =
        .ok ⟨.address "::1" 8443, "[::1]:8443", "/path", some ⟨⟨.platform, none⟩, "::1"⟩, some "own"⟩ := by
    decide +kernel
  obtain ⟨-, -, hseen⟩ := hshown _ hclient
  exact ⟨_, hclient, hsame.symm.trans hclient, by decide +kernel,
    (hseen .willing .null (.ofSeconds 5) [] 0).2⟩

end Admission
