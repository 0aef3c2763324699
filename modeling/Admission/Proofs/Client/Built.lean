import Admission.Proofs.ClientCache
import Admission.Proofs.Results

/-!
# What clients are made of

A client that a manager gives out is one that was built for the configuration it was asked for, whatever it
was asked before (`ClientManager.result_eq`).  What building takes from where is said once for services
(`ClientBuilder.buildService_eq_ok`) and once for URLs (`ClientBuilder.OfUrl`).
-/

namespace Admission

namespace ClientBuilder

variable {builder : ClientBuilder} {table : CredentialTable} {caBundle : List UInt8} {client : Client}

theorem secure_eq_ok {credentials : Credentials} {serverName : String} {secured : SecureName}
    (h : builder.secure credentials caBundle serverName = .ok secured) :
    secured.serverName = serverName ∧
      TlsConfig.forClient builder.pki [credentials.caData, caBundle] credentials.identity =
        .ok secured.config := by
  unfold secure at h
  split at h
  · cases h
  · split at h
    · cases h
      exact ⟨rfl, by assumption⟩
    · cases h

theorem buildService_eq_ok {service : ServiceReference}
    (h : builder.buildService table service caBundle = .ok client) :
    let credentials := table.forService service.name service.namespaceName service.port
    let host := CredentialTable.serviceHost service.name service.namespaceName
    ∃ secured, builder.secure credentials caBundle (credentials.serverName.getD host) = .ok secured ∧
      client = ⟨.service service, s!"{host}:{service.port}", service.path, some secured,
        credentials.bearerToken⟩ := by
  unfold buildService at h
  obtain ⟨secured, hsecured, hclient⟩ := bind_eq_ok.1 h
  exact ⟨secured, hsecured, (Except.ok.inj hclient).symm⟩

/-- **The client of a URL**: what each of its parts is. -/
structure OfUrl (builder : ClientBuilder) (table : CredentialTable) (url : String) (caBundle : List UInt8)
    (scheme authority : String) (client : Client) : Prop where
  scheme_eq : scheme = "http" ∨ scheme = "https"
  found : ∃ uri, Net.Uri.ofText? url = some uri ∧ uri.scheme = some scheme ∧
    uri.authority = some authority
  target : client.target = .address (trimBrackets (Net.Uri.host authority))
    ((Net.Uri.port? authority).getD (if scheme = "https" then 443 else 80))
  authority_eq : client.authority = authority
  bearerToken : client.bearerToken = (table.forAuthority authority).bearerToken
  plain : scheme = "http" → client.tls = none
  secured : scheme = "https" → ∃ secured, client.tls = some secured ∧
    builder.secure (table.forAuthority authority) caBundle ((table.forAuthority authority).serverName.getD
      (trimBrackets (Net.Uri.host authority))) = .ok secured

theorem buildUrl_eq_ok {url : String} (h : builder.buildUrl table url caBundle = .ok client) :
    ∃ scheme authority, builder.OfUrl table url caBundle scheme authority client := by
  unfold buildUrl at h
  cases huri : Net.Uri.ofText? url with
  | none =>
    rw [huri] at h
    cases h
  | some uri =>
    rw [huri] at h
    dsimp only at h
    by_cases hhttps : uri.scheme = some "https"
    · rw [if_pos hhttps] at h
      obtain ⟨_, ⟨⟩, h⟩ := bind_eq_ok.1 h
      cases hauthority : uri.authority with
      | none =>
        rw [hauthority] at h
        cases h
      | some authority =>
        rw [hauthority] at h
        dsimp only at h
        rw [if_pos rfl] at h
        obtain ⟨tls, htls, hclient⟩ := bind_eq_ok.1 h
        obtain ⟨secured, hsecured, hsome⟩ := bind_eq_ok.1 ((map_eq_pure_bind _ _).symm.trans htls)
        cases hclient
        cases hsome
        exact ⟨"https", authority, .inr rfl, ⟨uri, huri, hhttps, hauthority⟩, rfl, rfl, rfl,
          fun hother => absurd hother (by decide), fun _ => ⟨secured, rfl, hsecured⟩⟩
    · rw [if_neg hhttps] at h
      by_cases hhttp : uri.scheme = some "http"
      · rw [if_pos hhttp] at h
        obtain ⟨_, ⟨⟩, h⟩ := bind_eq_ok.1 h
        cases hauthority : uri.authority with
        | none =>
          rw [hauthority] at h
          cases h
        | some authority =>
          rw [hauthority] at h
          cases h
          exact ⟨"http", authority, .inl rfl, ⟨uri, huri, hhttp, hauthority⟩, rfl, rfl, rfl,
            fun _ => rfl, fun hother => absurd hother (by decide)⟩
      · rw [if_neg hhttp] at h
        cases h

/-- **The client of a configuration**: that of the service if it names one, and else that of the URL. -/
theorem build_eq_ok {config : ClientConfig} (h : builder.build config = .ok client) :
    ∃ table, builder.credentials = some table ∧
      ((∃ service, config.service = some service ∧
          builder.buildService table service config.caBundle = .ok client) ∨
        (config.service = none ∧ ∃ url, config.url = some url ∧
          builder.buildUrl table url config.caBundle = .ok client)) := by
  unfold build at h
  cases htable : builder.credentials with
  | none =>
    rw [htable] at h
    cases h
  | some table =>
    rw [htable] at h
    refine ⟨table, rfl, ?_⟩
    cases hservice : config.service with
    | some service =>
      simp only [hservice] at h
      split at h
      · exact .inl ⟨service, rfl, h⟩
      · cases h
    | none =>
      cases hurl : config.url with
      | some url =>
        simp only [hservice, hurl] at h
        exact .inr ⟨rfl, url, rfl, h⟩
      | none =>
        simp only [hservice, hurl] at h
        cases h

end ClientBuilder

theorem ClientCall.consistent_direct (configs : List ClientConfig) :
    ClientCall.Consistent (configs.map .direct) := by
  intro hook other hm
  simp at hm

namespace ClientManager

variable {manager : ClientManager} {earlier : List ClientCall} {call : ClientCall}

/-- What a call gives after others: the client itself. -/
def clientAfter (manager : ClientManager) (earlier : List ClientCall) (call : ClientCall) :
    Except ClientError Client :=
  match manager.result earlier call with
  | .error e => .error e
  | .ok number =>
    match (manager.storeAfter (earlier ++ [call])).built[number]? with
    | some client => .ok client
    | none => .error (.notConfigured "client")

/-- **What a manager gives is what building gives**, a client or a failure, whatever it was asked before. -/
theorem clientAfter_eq (hcapacity : 0 < manager.capacity)
    (hconsistent : ClientCall.Consistent (earlier ++ [call])) :
    manager.clientAfter earlier call = manager.builder.build call.wanted := by
  obtain ⟨keys, hsound, hkeys⟩ := exists_keys hcapacity hconsistent
  unfold clientAfter
  cases hresult : manager.result earlier call with
  | error e => exact (answer_of_error hresult).2.1.symm
  | ok number =>
    obtain ⟨hlt, hkey⟩ := List.getElem?_eq_some_iff.1 (hkeys earlier call [] number rfl hresult)
    have hlt' : number < (manager.storeAfter (earlier ++ [call])).built.length :=
      hsound.built.length_eq ▸ hlt
    have hbuild := hsound.built.get hlt hlt' call.wanted hkey.symm
    dsimp only
    rw [List.getElem?_eq_getElem hlt']
    exact hbuild.symm

end ClientManager

end Admission
