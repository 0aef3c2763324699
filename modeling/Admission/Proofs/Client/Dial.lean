import Admission.Proofs.Client.Address
import Admission.Proofs.Client.Built
import Admission.Proofs.Client.Wire

/-!
# Where connections go

What a client dials is fixed when it is built, by code that takes host, port and server name out of the
configuration one by one.  They agree with each other and with what the configuration says: whatever is seen
of a client (`Client.seen`) leads to the host that the URL names, or to the name that the cluster gives to the
service, and is secured for that host.

Of ports this holds as long as they are numbers of 16 bits.  A service whose port is not one is refused when a
connection is wanted.  A URL is not: a port that cannot be read is passed over, and the connection goes to the
port of the scheme (`unreadable_port_is_passed_over`).
-/

namespace Admission

open Net

theorem ServiceReference.resolve_eq_ok {service : ServiceReference} {endpoint : Endpoint}
    (h : service.resolve = .ok endpoint) :
    (0 ≤ service.port ∧ service.port ≤ 65535) ∧
      endpoint = ⟨CredentialTable.serviceHost service.name service.namespaceName, service.port.toNat⟩ := by
  unfold resolve at h
  dsimp only at h
  split at h
  · cases h
  · split at h
    · exact ⟨by assumption, (Except.ok.inj h).symm⟩
    · cases h

namespace ClientBuilder.OfUrl

variable {builder : ClientBuilder} {table : CredentialTable} {url scheme authority : String}
  {caBundle : List UInt8} {client : Client} {address : Address} {name : String}

theorem authority_of_names (h : builder.OfUrl table url caBundle scheme authority client)
    (hname : name = "http" ∨ name = "https") (hnames : address.Names url name) :
    scheme = name ∧ authority = address.text := by
  obtain ⟨uri, huri, hscheme, hauthority⟩ := h.found
  obtain ⟨hscheme', hauthority'⟩ := hnames.ofText? hname huri
  exact ⟨Option.some.inj (hscheme.symm.trans hscheme'),
    Option.some.inj (hauthority.symm.trans hauthority')⟩

theorem target_of_names (h : builder.OfUrl table url caBundle scheme authority client)
    (hname : name = "http" ∨ name = "https") (hnames : address.Names url name) :
    client.target = .address (String.ofList address.host)
      ((address.port.bind Uri.portNumber?).getD (if name = "https" then 443 else 80)) := by
  obtain ⟨rfl, rfl⟩ := h.authority_of_names hname hnames
  rw [h.target, address.trimBrackets_host, address.port?_text]

theorem tls_of_names (h : builder.OfUrl table url caBundle "https" authority client)
    (hnames : address.Names url "https") :
    ∃ config, client.tls =
      some ⟨config, (table.forAuthority address.text).serverName.getD (String.ofList address.host)⟩ := by
  obtain ⟨-, rfl⟩ := h.authority_of_names (.inr rfl) hnames
  obtain ⟨secured, htls, hsecured⟩ := h.secured rfl
  obtain ⟨hserver, -⟩ := secure_eq_ok hsecured
  rw [address.trimBrackets_host] at hserver
  exact ⟨secured.config, by rw [htls, ← hserver]⟩

end ClientBuilder.OfUrl

/-- **Connections go where the configuration says.**  Let a manager give out a client, whatever it was asked
before, and let the client post: every connection it wants is

* for a service, to `<name>.<namespace>.svc` at just the port given, which is one from 0 to 65535, and is
  secured for the configured server name or else for that host;
* for a URL, to the host that the URL names and to the port it names, which is that of the scheme if it names
  none; it is secured if the scheme says so, for the configured server name or else for that host.

A URL that a client was built for names an address if the brackets of its authority are in place, around the whole
host or nowhere.  Of one with a bracket elsewhere nothing is said: it names no host. -/
theorem connections_go_where_configured (builder : ClientBuilder) (asked : Nat) (earlier : List ClientCall)
    (call : ClientCall) {client : Client} (hconsistent : ClientCall.Consistent (earlier ++ [call]))
    (hclient : (ClientManager.withCapacity builder asked).clientAfter earlier call = .ok client) :
    ∃ table, builder.credentials = some table ∧
      (∀ service, call.wanted.service = some service →
        ∀ {σ : Type} (network : Network σ) body timeout pool world endpoint tls,
          .dialled endpoint tls ∈ client.seen network body timeout pool world →
          let host := s!"{service.name}.{service.namespaceName}.svc"
          (0 ≤ service.port ∧ service.port ≤ 65535) ∧ endpoint = ⟨host, service.port.toNat⟩ ∧
            ∃ config, tls = some ⟨config, (table.forService service.name service.namespaceName
              service.port).serverName.getD host⟩) ∧
      ∀ url, call.wanted.service = none → call.wanted.url = some url →
        (Address.InPlace client.authority.toList →
          ∃ (scheme : String) (address : Address), (scheme = "http" ∨ scheme = "https") ∧
            address.Names url scheme) ∧
        ∀ (scheme : String) (address : Address), scheme = "http" ∨ scheme = "https" →
          address.Names url scheme →
          ∀ {σ : Type} (network : Network σ) body timeout pool world endpoint tls,
            .dialled endpoint tls ∈ client.seen network body timeout pool world →
            endpoint.host = String.ofList address.host ∧
              (address.port.getD [] = [] → endpoint.port = if scheme = "https" then 443 else 80) ∧
              (∀ text n, address.port = some text → Spells text n → n < 65536 → endpoint.port = n) ∧
              (scheme = "http" → tls = none) ∧
              (scheme = "https" → ∃ config, tls = some ⟨config,
                (table.forAuthority address.text).serverName.getD (String.ofList address.host)⟩) := by
  rw [ClientManager.clientAfter_eq (ClientManager.capacity_withCapacity_pos builder asked) hconsistent]
    at hclient
  obtain ⟨table, htable, hbuilt⟩ := ClientBuilder.build_eq_ok hclient
  refine ⟨table, htable, ?_, ?_⟩
  · intro service hservice σ network body timeout pool world endpoint tls hdialled
    rcases hbuilt with ⟨reference, hreference, hbuild⟩ | ⟨hnone, -⟩
    · obtain rfl := Option.some.inj (hreference.symm.trans hservice)
      obtain ⟨secured, hsecured, rfl⟩ := ClientBuilder.buildService_eq_ok hbuild
      obtain ⟨hresolve, htls⟩ := Client.does_of_mem_seen hdialled
      obtain ⟨hport, hendpoint⟩ := ServiceReference.resolve_eq_ok hresolve
      refine ⟨hport, hendpoint, secured.config, ?_⟩
      have hserver := (ClientBuilder.secure_eq_ok hsecured).1
      rw [htls]
      show some secured = some ⟨secured.config, _⟩
      exact congrArg (fun name => some (SecureName.mk secured.config name)) hserver
    · rw [hnone] at hservice
      cases hservice
  · intro url hservice hurl
    rcases hbuilt with ⟨reference, hreference, -⟩ | ⟨-, url', hurl', hbuild⟩
    · rw [hservice] at hreference
      cases hreference
    · obtain rfl := Option.some.inj (hurl'.symm.trans hurl)
      obtain ⟨made, authority, hmade⟩ := ClientBuilder.buildUrl_eq_ok hbuild
      constructor
      · intro hplace
        obtain ⟨uri, huri, hscheme, hauthority⟩ := hmade.found
        rw [hmade.authority_eq] at hplace
        obtain ⟨address, hnames, -⟩ :=
          Address.exists_names huri hmade.scheme_eq hscheme hauthority hplace
        exact ⟨made, address, hmade.scheme_eq, hnames⟩
      · intro scheme address hname hnames σ network body timeout pool world endpoint tls hdialled
        obtain ⟨rfl, -⟩ := hmade.authority_of_names hname hnames
        obtain ⟨hresolve, htls⟩ := Client.does_of_mem_seen hdialled
        rw [hmade.target_of_names hname hnames] at hresolve
        obtain rfl := Except.ok.inj hresolve
        refine ⟨rfl, ?_, ?_, ?_, ?_⟩
        · intro hempty
          have hunread : address.port.bind Uri.portNumber? = none := by
            cases hport : address.port with
            | none => rfl
            | some text =>
              rw [hport] at hempty
              rw [show text = [] from hempty]
              rfl
          show Option.getD _ _ = _
          rw [hunread]
          rfl
        · intro text n hport hspells hn
          show Option.getD _ _ = _
          rw [hport, Option.bind_some, portNumber?_eq_some.2 ⟨hspells, hn⟩]
          rfl
        · intro hhttp
          rw [htls, hmade.plain hhttp]
        · rintro rfl
          obtain ⟨config, hconfig⟩ := hmade.tls_of_names hnames
          exact ⟨config, htls.trans hconfig⟩

/-- A configuration that says nothing but a URL. -/
def ClientConfig.ofUrl (url : String) : ClientConfig := { name := "hook", url := some url }

/-- An address whose host has colons of its own. -/
def Net.Address.loopback : Address where
  host := "::1".toList
  bracketed := true
  port := some "8443".toList
  user_plain := by simp
  host_plain := by simp
  port_plain := by simp

/-- A client of an address in brackets opens its connections there, and has that address proved. -/
theorem connections_go_where_configured_loopback :
    ∃ client, (ClientManager.withCapacity ClientManager.anonymous 1).clientAfter []
        (.direct (.ofUrl "https://[::1]:8443/path")) = .ok client ∧
      (client.seen .willing .null (.ofSeconds 5) [] 0).length = 2 ∧
      ∀ endpoint tls, .dialled endpoint tls ∈ client.seen .willing .null (.ofSeconds 5) [] 0 →
        endpoint = ⟨"::1", 8443⟩ ∧ ∃ config, tls = some ⟨config, "::1"⟩ := by
  have hclient : (ClientManager.withCapacity ClientManager.anonymous 1).clientAfter []
      (.direct (.ofUrl "https://[::1]:8443/path")) =
        .ok ⟨.address "::1" 8443, "[::1]:8443", "/path", some ⟨⟨.platform, none⟩, "::1"⟩, none⟩ := by
    decide +kernel
  refine ⟨_, hclient, by decide +kernel, fun endpoint tls hdialled => ?_⟩
  have hconsistent := ClientCall.consistent_direct [.ofUrl "https://[::1]:8443/path"]
  obtain ⟨table, htable, -, hurl⟩ := connections_go_where_configured ClientManager.anonymous 1 []
    (.direct (.ofUrl "https://[::1]:8443/path")) hconsistent hclient
  cases htable
  have hnames : Address.loopback.Names "https://[::1]:8443/path" "https" :=
    ⟨"https".toList, "/path".toList, by decide +kernel, by decide +kernel, by simp⟩
  obtain ⟨hhost, -, hport, -, htls⟩ := (hurl _ rfl rfl).2 "https" .loopback (.inr rfl) hnames .willing .null
    (.ofSeconds 5) [] 0 endpoint tls hdialled
  have hnumber : Spells "8443".toList 8443 := (portNumber?_eq_some.1 (by decide +kernel)).1
  obtain ⟨config, hconfig⟩ := htls rfl
  refine ⟨?_, config, hconfig⟩
  obtain ⟨host, port⟩ := endpoint
  cases hhost
  cases hport _ _ rfl hnumber (by decide)
  rfl

/-- An address whose port is no number of 16 bits. -/
def Net.Address.outOfRange : Address where
  host := "host".toList
  port := some "70000".toList
  user_plain := by simp
  host_plain := by simp
  port_plain := by simp

/-- **A port that cannot be read is passed over**: the URL names one, no number of 16 bits, and the connection
is opened on the port of the scheme. -/
theorem unreadable_port_is_passed_over :
    ∃ client, (ClientManager.withCapacity ClientManager.anonymous 1).clientAfter []
        (.direct (.ofUrl "http://host:70000/path")) = .ok client ∧
      (∃ address : Address, address.Names "http://host:70000/path" "http" ∧
        address.port = some "70000".toList ∧ Spells "70000".toList 70000) ∧
      client.seen .willing .null (.ofSeconds 5) [] 0 =
        [.dialled ⟨"host", 80⟩ none, .wrote 0 ⟨"host:70000", "/path?timeout=5s", none, .null⟩] := by
  refine ⟨⟨.address "host" 80, "host:70000", "/path", none, none⟩, by decide +kernel, ?_, by decide +kernel⟩
  have hnames : Address.outOfRange.Names "http://host:70000/path" "http" :=
    ⟨"http".toList, "/path".toList, by decide +kernel, by decide +kernel, by simp⟩
  have hnumber : Spells "70000".toList 70000 :=
    ⟨"70000".toList, .inl rfl, by simp, by simp, by decide +kernel⟩
  exact ⟨.outOfRange, hnames, rfl, hnumber⟩

end Admission
