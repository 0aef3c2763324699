import Admission.Proofs.Client.Built

/-!
# Whom a connection trusts

The bundles that are given decide whom a connection trusts, and each of those that are not empty has its say:
all of them must be usable, and then just the certificates in them are trusted (`TlsConfig.rootsOf_eq_ok`).
What the platform trusts is a matter for connections without any bundle; it does not come in where a bundle
turns out to be broken, nor do the other bundles take its place.  A client that depends on such a bundle is
not built at all (`ClientBuilder.build_eq_error`).
-/

namespace Admission

/-- The certificates that are trusted, on a platform that trusts some itself. -/
def Roots.trusted (platform : List (List UInt8)) : Roots → List (List UInt8)
  | .platform => platform
  | .only certificates => certificates

namespace TlsConfig

/-! ## 1. Bundles and identities -/

/-- **A bundle can be used**: there are certificates in it, and each of them can be trusted. -/
def Usable (pki : Pki) (bundle : List UInt8) : Prop :=
  ∃ certificates, Pem.certificates bundle = .ok certificates ∧ certificates ≠ [] ∧
    ∀ certificate ∈ certificates, pki.isAnchor certificate = true

/-- **An identity can be shown**: its certificates can be read, it has a key, and the two belong together. -/
def Showable (pki : Pki) (identity : Identity) : Prop :=
  ∃ chain key, Pem.certificates identity.certificates = .ok chain ∧
    Pem.privateKey identity.key = .ok (some key) ∧ pki.isIdentity chain key = true

/-- **A certificate is in the bundles**, those that are not empty. -/
def InBundles (bundles : List (List UInt8)) (certificate : List UInt8) : Prop :=
  ∃ bundle ∈ bundles, bundle ≠ [] ∧
    ∃ certificates, Pem.certificates bundle = .ok certificates ∧ certificate ∈ certificates

variable {pki : Pki} {bundle : List UInt8} {bundles : List (List UInt8)} {identity : Option Identity}

theorem bundleAnchors_eq_ok {anchors : List (List UInt8)} :
    bundleAnchors pki bundle = .ok anchors ↔ Pem.certificates bundle = .ok anchors ∧ anchors ≠ [] ∧
      ∀ certificate ∈ anchors, pki.isAnchor certificate = true := by
  unfold bundleAnchors
  split
  · rename_i e he
    simp [he]
  · rename_i hnone
    simp only [hnone]
    constructor
    · rintro ⟨⟩
    · rintro ⟨hsame, hne, -⟩
      cases hsame
      exact absurd rfl hne
  · rename_i certificates hne hread
    rw [hread]
    by_cases hall : certificates.all pki.isAnchor = true
    · rw [if_pos hall]
      constructor
      · rintro ⟨⟩
        exact ⟨rfl, hne, List.all_eq_true.1 hall⟩
      · rintro ⟨hsame, -⟩
        cases hsame
        rfl
    · rw [if_neg hall]
      constructor
      · rintro ⟨⟩
      · rintro ⟨hsame, -, hgood⟩
        cases hsame
        exact absurd (List.all_eq_true.2 hgood) hall

theorem exists_bundleAnchors_iff : (∃ anchors, bundleAnchors pki bundle = .ok anchors) ↔ Usable pki bundle := by
  simp only [bundleAnchors_eq_ok, Usable]

theorem exists_identityOf_iff {identity : Identity} :
    (∃ shown, identityOf pki identity = .ok shown) ↔ Showable pki identity := by
  unfold identityOf Showable
  cases hchain : Pem.certificates identity.certificates with
  | error e => simp
  | ok chain =>
    cases hkey : Pem.privateKey identity.key with
    | error e => simp
    | ok key? =>
      cases key? with
      | none => simp
      | some key => cases hpair : pki.isIdentity chain key <;> simp [hpair]

/-! ## 2. Roots -/

theorem exists_mapM_bundleAnchors_iff {given : List (List UInt8)} :
    (∃ lists, given.mapM (bundleAnchors pki) = .ok lists) ↔ ∀ bundle ∈ given, Usable pki bundle := by
  simp only [← exists_bundleAnchors_iff]
  constructor
  · rintro ⟨lists, hlists⟩ bundle hm
    obtain ⟨anchors, -, hanchors⟩ := outcome_of_mapM_eq_ok hlists hm
    exact ⟨anchors, hanchors⟩
  · intro hall
    cases hlists : given.mapM (bundleAnchors pki) with
    | ok lists => exact ⟨lists, rfl⟩
    | error e =>
      obtain ⟨bundle, hm, e', he⟩ := exists_mapM_eq_error.1 ⟨e, hlists⟩
      obtain ⟨anchors, hanchors⟩ := hall bundle hm
      rw [he] at hanchors
      cases hanchors

/-- **Each bundle that is not empty has to be usable**, whatever the others are. -/
theorem exists_rootsOf_iff : (∃ roots, rootsOf pki bundles = .ok roots) ↔
    ∀ bundle ∈ bundles, bundle ≠ [] → Usable pki bundle := by
  have hgiven : (∀ bundle ∈ bundles.filter (· ≠ []), Usable pki bundle) ↔
      ∀ bundle ∈ bundles, bundle ≠ [] → Usable pki bundle := by
    simp [and_imp]
  rw [← hgiven, ← exists_mapM_bundleAnchors_iff]
  unfold rootsOf
  cases bundles.filter (· ≠ []) with
  | nil => exact ⟨fun _ => ⟨[], rfl⟩, fun _ => ⟨_, rfl⟩⟩
  | cons bundle rest =>
    constructor
    · rintro ⟨roots, h⟩
      obtain ⟨lists, hlists, -⟩ := bind_eq_ok.1 h
      exact ⟨lists, hlists⟩
    · rintro ⟨lists, hlists⟩
      exact ⟨_, bind_eq_ok.2 ⟨lists, hlists, rfl⟩⟩

/-- **Whom usable bundles make trusted**: the platform's own if there are none, and else whoever is in them. -/
theorem rootsOf_eq_ok {roots : Roots} (h : rootsOf pki bundles = .ok roots) :
    (roots = .platform ∧ ∀ bundle ∈ bundles, bundle = []) ∨
      ∃ certificates, roots = .only certificates ∧ (∃ bundle ∈ bundles, bundle ≠ []) ∧
        ∀ certificate, certificate ∈ certificates ↔ InBundles bundles certificate := by
  have hin : ∀ bundle, bundle ∈ bundles.filter (· ≠ []) ↔ bundle ∈ bundles ∧ bundle ≠ [] := by
    simp
  unfold rootsOf at h
  generalize bundles.filter (· ≠ []) = given at h hin
  cases given with
  | nil =>
    cases h
    refine .inl ⟨rfl, fun bundle hm => ?_⟩
    by_contra hne
    exact List.not_mem_nil ((hin bundle).2 ⟨hm, hne⟩)
  | cons first rest =>
    obtain ⟨lists, hlists, hroots⟩ := bind_eq_ok.1 h
    cases hroots
    obtain ⟨hfirst, hne⟩ := (hin first).1 List.mem_cons_self
    refine .inr ⟨_, rfl, ⟨first, hfirst, hne⟩, fun certificate => ?_⟩
    rw [List.mem_flatten]
    constructor
    · rintro ⟨anchors, hm, hcertificate⟩
      obtain ⟨bundle, hbundle, hanchors⟩ := exists_of_mapM_eq_ok hlists hm
      obtain ⟨hmem, hnonempty⟩ := (hin bundle).1 hbundle
      exact ⟨bundle, hmem, hnonempty, anchors, (bundleAnchors_eq_ok.1 hanchors).1, hcertificate⟩
    · rintro ⟨bundle, hmem, hnonempty, certificates, hcertificates, hcertificate⟩
      obtain ⟨anchors, hm, hanchors⟩ := outcome_of_mapM_eq_ok hlists ((hin bundle).2 ⟨hmem, hnonempty⟩)
      have hsame := (bundleAnchors_eq_ok.1 hanchors).1
      rw [hcertificates] at hsame
      cases hsame
      exact ⟨_, hm, hcertificate⟩

/-! ## 3. The security of a connection -/

/-- **What makes a connection's security**: the roots and, if one is to be shown, the identity. -/
theorem forClient_eq_ok {config : TlsConfig} : forClient pki bundles identity = .ok config ↔
    rootsOf pki bundles = .ok config.roots ∧
      ((identity = none ∧ config.identity = none) ∨ ∃ one shown, identity = some one ∧
        identityOf pki one = .ok shown ∧ config.identity = some shown) := by
  obtain ⟨roots, shown?⟩ := config
  unfold forClient
  rw [bind_eq_ok]
  cases identity with
  | none =>
    constructor
    · rintro ⟨_, hroots, h⟩
      cases h
      exact ⟨hroots, .inl ⟨rfl, rfl⟩⟩
    · rintro ⟨hroots, ⟨-, hnone⟩ | ⟨_, _, hsome, -⟩⟩
      · cases hnone
        exact ⟨_, hroots, rfl⟩
      · cases hsome
  | some one =>
    constructor
    · rintro ⟨_, hroots, h⟩
      obtain ⟨shown, hshown, h⟩ := bind_eq_ok.1 h
      cases h
      exact ⟨hroots, .inr ⟨one, shown, rfl, hshown, rfl⟩⟩
    · rintro ⟨hroots, ⟨hnone, -⟩ | ⟨_, shown, hsome, hshown, hsame⟩⟩
      · cases hnone
      · cases hsome
        cases hsame
        exact ⟨_, hroots, bind_eq_ok.2 ⟨shown, hshown, rfl⟩⟩

/-- **When there is any**: the bundles that are not empty and the identity are each as they should be. -/
theorem exists_forClient_iff : (∃ config, forClient pki bundles identity = .ok config) ↔
    (∀ bundle ∈ bundles, bundle ≠ [] → Usable pki bundle) ∧ ∀ one ∈ identity, Showable pki one := by
  rw [← exists_rootsOf_iff]
  simp only [forClient_eq_ok, ← exists_identityOf_iff]
  constructor
  · rintro ⟨config, hroots, ⟨rfl, -⟩ | ⟨one, shown, rfl, hshown, -⟩⟩
    · exact ⟨⟨_, hroots⟩, nofun⟩
    · exact ⟨⟨_, hroots⟩, by rintro _ ⟨⟩; exact ⟨shown, hshown⟩⟩
  · rintro ⟨⟨roots, hroots⟩, hidentity⟩
    cases identity with
    | none => exact ⟨⟨roots, none⟩, hroots, .inl ⟨rfl, rfl⟩⟩
    | some one =>
      obtain ⟨shown, hshown⟩ := hidentity one rfl
      exact ⟨⟨roots, some shown⟩, hroots, .inr ⟨one, shown, rfl, hshown, rfl⟩⟩

/-- **Bundles count as what they are**: with the same ones besides empty ones, in whatever order and however
often, the same is trusted and shown. -/
theorem forClient_congr {other : List (List UInt8)}
    (hsame : ∀ bundle, bundle ≠ [] → (bundle ∈ other ↔ bundle ∈ bundles)) {config : TlsConfig}
    (h : forClient pki bundles identity = .ok config) :
    ∃ config', forClient pki other identity = .ok config' ∧ config'.identity = config.identity ∧
      ∀ platform certificate,
        certificate ∈ config'.roots.trusted platform ↔ certificate ∈ config.roots.trusted platform := by
  obtain ⟨hroots, hidentity⟩ := forClient_eq_ok.1 h
  have hother : ∀ bundle ∈ other, bundle ≠ [] → Usable pki bundle :=
    fun bundle hm hne => exists_rootsOf_iff.1 ⟨_, hroots⟩ bundle ((hsame bundle hne).1 hm) hne
  obtain ⟨roots, hroots'⟩ := exists_rootsOf_iff.2 hother
  refine ⟨⟨roots, config.identity⟩, forClient_eq_ok.2 ⟨hroots', hidentity⟩, rfl, fun platform certificate => ?_⟩
  have hin : InBundles other certificate ↔ InBundles bundles certificate := by
    constructor
    · rintro ⟨bundle, hm, hne, hrest⟩
      exact ⟨bundle, (hsame bundle hne).1 hm, hne, hrest⟩
    · rintro ⟨bundle, hm, hne, hrest⟩
      exact ⟨bundle, (hsame bundle hne).2 hm, hne, hrest⟩
  dsimp only
  rcases rootsOf_eq_ok hroots with ⟨hconfig, hnone⟩ | ⟨certificates, hconfig, ⟨bundle, hm, hne⟩, hall⟩ <;>
    rcases rootsOf_eq_ok hroots' with ⟨rfl, hnone'⟩ | ⟨certificates', rfl, ⟨bundle', hm', hne'⟩, hall'⟩
  · rw [hconfig]
  · exact absurd (hnone bundle' ((hsame bundle' hne').1 hm')) hne'
  · exact absurd (hnone' bundle ((hsame bundle hne).2 hm)) hne
  · rw [hconfig]
    exact (hall' certificate).trans (hin.trans (hall certificate).symm)

end TlsConfig

/-! ## 4. Clients -/

/-- **A configuration makes secured connections, with some credentials** out of a table: those for the service
that it names, or for the authority of its URL if that is one of https. -/
def ClientConfig.SecuredWith (config : ClientConfig) (table : CredentialTable) (credentials : Credentials) :
    Prop :=
  (∃ service, config.service = some service ∧
    credentials = table.forService service.name service.namespaceName service.port) ∨
  (config.service = none ∧ ∃ url uri authority, config.url = some url ∧ Net.Uri.ofText? url = some uri ∧
    uri.scheme = some "https" ∧ uri.authority = some authority ∧ credentials = table.forAuthority authority)

namespace ClientBuilder

variable {builder : ClientBuilder} {table : CredentialTable} {config : ClientConfig}
  {credentials : Credentials} {client : Client}

/-- **A client that was built is secured** by what its credentials and the bundle of its webhook make. -/
theorem forClient_of_build (htable : builder.credentials = some table)
    (hsecured : config.SecuredWith table credentials) (h : builder.build config = .ok client) :
    ∃ secured, client.tls = some secured ∧
      TlsConfig.forClient builder.pki [credentials.caData, config.caBundle] credentials.identity =
        .ok secured.config := by
  obtain ⟨other, hother, hbuild⟩ := build_eq_ok h
  rw [htable] at hother
  cases hother
  rcases hsecured with ⟨service, hservice, rfl⟩ |
    ⟨hnone, url, uri, authority, hurl, huri, hhttps, hauthority, rfl⟩
  · obtain ⟨service', hservice', hbuild⟩ | ⟨hnone, -⟩ := hbuild
    · rw [hservice] at hservice'
      cases hservice'
      obtain ⟨secured, hsecured, rfl⟩ := buildService_eq_ok hbuild
      exact ⟨secured, rfl, (secure_eq_ok hsecured).2⟩
    · rw [hservice] at hnone
      cases hnone
  · obtain ⟨service, hservice, -⟩ | ⟨-, url', hurl', hbuild⟩ := hbuild
    · rw [hnone] at hservice
      cases hservice
    · rw [hurl] at hurl'
      cases hurl'
      obtain ⟨scheme, authority', hclient⟩ := buildUrl_eq_ok hbuild
      obtain ⟨uri', huri', hscheme', hauthority'⟩ := hclient.found
      rw [huri] at huri'
      cases huri'
      rw [hhttps] at hscheme'
      rw [hauthority] at hauthority'
      cases hscheme'
      cases hauthority'
      obtain ⟨secured, htls, hsecured⟩ := hclient.secured rfl
      exact ⟨secured, htls, (secure_eq_ok hsecured).2⟩

/-- **Without such a security there is no client.** -/
theorem build_eq_error (htable : builder.credentials = some table)
    (hsecured : config.SecuredWith table credentials)
    (hbroken : ∀ tls, TlsConfig.forClient builder.pki [credentials.caData, config.caBundle]
      credentials.identity ≠ .ok tls) : ∃ e, builder.build config = .error e := by
  cases h : builder.build config with
  | error e => exact ⟨e, rfl⟩
  | ok client =>
    obtain ⟨secured, -, htls⟩ := forClient_of_build htable hsecured h
    exact absurd htls (hbroken _)

end ClientBuilder

end Admission
