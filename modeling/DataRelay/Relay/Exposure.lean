import DataRelay.Relay.Egress

/-! Who can reach the listener of a configuration that was loaded, and what then stands in the way.

    The loader reads the bind host, the mode and the secrets one by one; here is what they have
    to do with each other once all the checks are behind it. -/

namespace DataRelay.Relay
open Lib

section Load
variable {getaddrinfo : Resolver} {float : String → Option Bool} {env : Dict String String}
  {cfg : RelayConfig}

/-- Where the fields that concern the listener and its authentication come from. -/
theorem loadConfig_listener (h : loadConfig getaddrinfo float env = .ok cfg) :
    cfg.bindHost = setting env "DRLINK_RELAY_BIND" "127.0.0.1" ∧
      loadMockToken env = .ok cfg.mockPluginToken ∧
      cfg.allowNonLoopbackBind = flag env "DRLINK_RELAY_ALLOW_NON_LOOPBACK_BIND" ∧
      loadOAuth env cfg.bindHost cfg.authMode = .ok ⟨cfg.publicBaseUrl, cfg.resourceUrl,
        cfg.ownerApprovalSecret, cfg.oauthStatePath, cfg.oauthAllowEphemeral⟩ ∧
      checkBind cfg.bindHost cfg.authMode cfg.allowNonLoopbackBind cfg.mockPluginToken =
        .ok () := by
  simp only [loadConfig, bind, Except.bind, pure, Except.pure] at h
  iterate 4
    split at h
    · cases h
  split at h
  · cases h
  rename_i token htoken
  split at h
  · cases h
  rename_i oauth hoauth
  split at h
  · cases h
  rename_i hbind
  obtain rfl := Except.ok.inj h
  dsimp only
  exact ⟨rfl, htoken, rfl, hoauth, hbind⟩

theorem loadMockToken_ne {token : String} (h : loadMockToken env = .ok token) : token ≠ "" := by
  unfold loadMockToken at h
  dsimp only at h
  split at h
  all_goals
    split at h
    · cases h
    · rename_i hne
      obtain rfl := Except.ok.inj h
      exact hne

/-- What is known of a bind host that others can reach. -/
theorem checkBind_ok {bindHost token : String} {authMode : AuthMode} {allow : Bool}
    (h : checkBind bindHost authMode allow token = .ok ())
    (hpublic : isLoopbackHost bindHost = false) :
    authMode = .oauth ∨ (allow = true ∧ token ≠ defaultMockPluginToken) := by
  unfold checkBind at h
  split at h
  · rename_i hor
    exact .inl (hor.resolve_left (by simp [hpublic]))
  split at h
  · cases h
  rename_i hallow
  split at h
  · cases h
  rename_i hne
  exact .inr ⟨by simpa using hallow, hne⟩

/-! ### OAuth mode -/

theorem parseAbsolute_ok {key url : String} {parsed : Url.ParseResult}
    (h : parseAbsolute key url = .ok parsed) :
    Url.urlparse url = .ok parsed ∧
      (parsed.scheme = "http".toList ∨ parsed.scheme = "https".toList) ∧ parsed.netloc ≠ [] := by
  simp only [parseAbsolute, bind, Except.bind, pure, Except.pure] at h
  split at h
  · cases h
  rename_i p hp
  split at h
  · cases h
  rename_i habs
  obtain rfl := Except.ok.inj h
  rw [not_or, not_and_or, not_ne_iff, not_ne_iff] at habs
  exact ⟨parseUrl_ok hp, habs⟩

/-- What the loader has seen of a public base URL that it accepts. -/
theorem loadPublicBase_ok {base host : String} (h : loadPublicBase env = .ok (base, host)) :
    ∃ parsed, base = stripSlashes (setting env "DRLINK_RELAY_PUBLIC_BASE_URL" "") ∧ base ≠ "" ∧
      Url.urlparse base = .ok parsed ∧ host = (Url.parsedHostname parsed).getD "" ∧
      (parsed.scheme = "https".toList ∨
        (parsed.scheme = "http".toList ∧ isLoopbackHost host = true)) ∧
      parsed.netloc ≠ [] ∧ (parsed.path = [] ∨ parsed.path = ['/']) := by
  simp only [loadPublicBase, bind, Except.bind, pure, Except.pure, guard_ok] at h
  obtain ⟨hne, h⟩ := h
  split at h
  · cases h
  rename_i parsed habs
  simp only [guard_ok] at h
  obtain ⟨hhttp, hpath, h⟩ := h
  obtain ⟨rfl, rfl⟩ := Prod.mk.inj (Except.ok.inj h)
  obtain ⟨hparsed, hscheme, hnetloc⟩ := parseAbsolute_ok habs
  refine ⟨parsed, rfl, hne, hparsed, rfl, ?_, hnetloc, ?_⟩
  · rcases hscheme with hs | hs
    · exact .inr ⟨hs, by simpa using fun hn => hhttp ⟨hs, hn⟩⟩
    · exact .inl hs
  · rwa [not_and_or, not_ne_iff, not_ne_iff] at hpath

theorem loadOwnerSecret_ok {secret : String} (h : loadOwnerSecret env = .ok secret) :
    secret = strip (getD env "DRLINK_RELAY_OWNER_APPROVAL_SECRET" "") ∧ 16 ≤ secret.length := by
  unfold loadOwnerSecret at h
  dsimp only at h
  split at h
  · cases h
  split at h
  · cases h
  rename_i hlen
  obtain rfl := Except.ok.inj h
  exact ⟨rfl, Nat.not_lt.mp hlen⟩

/-- Either there is a path or the state may be lost, and then only where nobody else is served. -/
theorem loadStatePath_ok {bindHost publicHost : String} {path : Option String}
    (h : loadStatePath env bindHost publicHost = .ok path) :
    (∃ p, p ≠ "" ∧ path = some p ∧ flag env "DRLINK_RELAY_OAUTH_ALLOW_EPHEMERAL" = false) ∨
      (path = none ∧ flag env "DRLINK_RELAY_OAUTH_ALLOW_EPHEMERAL" = true ∧
        isLoopbackHost bindHost = true ∧ isLoopbackHost publicHost = true) := by
  unfold loadStatePath at h
  dsimp only at h
  split at h
  · rename_i hne
    split at h
    · cases h
    rename_i hflag
    obtain rfl := Except.ok.inj h
    exact .inl ⟨_, hne, rfl, by simpa using hflag⟩
  split at h
  · cases h
  rename_i hlocal
  split at h
  · cases h
  rename_i hflag
  obtain rfl := Except.ok.inj h
  rw [not_or, Bool.not_eq_false, Bool.not_eq_false] at hlocal
  exact .inr ⟨rfl, by simpa using hflag, hlocal⟩

/-- The settings of OAuth mode, each with the check it has passed. -/
theorem loadOAuth_ok {bindHost : String} {oauth : OAuthSettings}
    (h : loadOAuth env bindHost .oauth = .ok oauth) :
    ∃ base host resource secret, loadPublicBase env = .ok (base, host) ∧
      loadResource env base = .ok resource ∧ loadOwnerSecret env = .ok secret ∧
      loadStatePath env bindHost host = .ok oauth.oauthStatePath ∧
      oauth.publicBaseUrl = some base ∧ oauth.resourceUrl = some resource ∧
      oauth.ownerApprovalSecret = some secret ∧
      oauth.oauthAllowEphemeral = flag env "DRLINK_RELAY_OAUTH_ALLOW_EPHEMERAL" := by
  simp only [loadOAuth, bind, Except.bind, pure, Except.pure] at h
  split at h
  · cases h
  rename_i pair hpair
  obtain ⟨base, host⟩ := pair
  split at h
  · cases h
  rename_i resource hresource
  split at h
  · cases h
  rename_i secret hsecret
  split at h
  · cases h
  rename_i path hpath
  obtain rfl := Except.ok.inj h
  dsimp only
  exact ⟨base, host, resource, secret, hpair, hresource, hsecret, hpath, rfl, rfl, rfl, rfl⟩

end Load

/-- What OAuth mode makes sure of: the owner's secret is long, the origin is not spoken to in the
    clear over a network, and the state is kept wherever others are served. -/
structure StrongAuth (env : Dict String String) (cfg : RelayConfig) : Prop where
  secret : ∃ secret, cfg.ownerApprovalSecret = some secret ∧
    secret = strip (getD env "DRLINK_RELAY_OWNER_APPROVAL_SECRET" "") ∧ 16 ≤ secret.length
  origin : ∃ base parsed, cfg.publicBaseUrl = some base ∧ Url.urlparse base = .ok parsed ∧
    (parsed.scheme = "https".toList ∨
      isLoopbackHost ((Url.parsedHostname parsed).getD "") = true) ∧
    (isLoopbackHost cfg.bindHost = false ∨
        isLoopbackHost ((Url.parsedHostname parsed).getD "") = false →
      ∃ path, cfg.oauthStatePath = some path)
  state : (∃ path, path ≠ "" ∧ cfg.oauthStatePath = some path ∧ cfg.oauthAllowEphemeral = false) ∨
    (cfg.oauthStatePath = none ∧ cfg.oauthAllowEphemeral = true)

/-- A listener that others can reach has OAuth in front of it, or a mock token that was chosen for
    it by an operator who asked for the listener. -/
def Sheltered (env : Dict String String) (cfg : RelayConfig) : Prop :=
  isLoopbackHost cfg.bindHost = false →
    cfg.authMode = .oauth ∨
      (flag env "DRLINK_RELAY_ALLOW_NON_LOOPBACK_BIND" = true ∧
        cfg.allowNonLoopbackBind = true ∧ cfg.mockPluginToken ≠ "" ∧
        cfg.mockPluginToken ≠ defaultMockPluginToken)

/-- The settings of OAuth mode, with all their checks behind them, are strong. -/
theorem strongAuth_of_load {getaddrinfo : Resolver} {float : String → Option Bool}
    {env : Dict String String} {cfg : RelayConfig}
    (h : loadConfig getaddrinfo float env = .ok cfg) (hmode : cfg.authMode = .oauth) :
    StrongAuth env cfg := by
  obtain ⟨-, -, -, hoauth, -⟩ := loadConfig_listener h
  rw [hmode] at hoauth
  obtain ⟨base, host, resource, secret, hbase, -, hsecret, hpath, hurl, -, howner, hflag⟩ :=
    loadOAuth_ok hoauth
  dsimp only at hpath hurl howner hflag
  obtain ⟨parsed, -, -, hparsed, rfl, hscheme, -, -⟩ := loadPublicBase_ok hbase
  have hstate := loadStatePath_ok hpath
  refine ⟨⟨secret, howner, loadOwnerSecret_ok hsecret⟩, ⟨base, parsed, hurl, hparsed, ?_, ?_⟩, ?_⟩
  · exact hscheme.imp_right And.right
  · intro hpublic
    rcases hstate with ⟨p, -, hp, -⟩ | ⟨-, -, hbind, hhost⟩
    · exact ⟨p, hp⟩
    · simp [hbind, hhost] at hpublic
  · rw [hflag]
    rcases hstate with hp | ⟨hnone, hephemeral, -⟩
    · exact .inl hp
    · exact .inr ⟨hnone, hephemeral⟩

/-- Every configuration that loads is sheltered, and one in OAuth mode is strong. -/
theorem no_exposed_listener {getaddrinfo : Resolver} {float : String → Option Bool}
    {env : Dict String String} {cfg : RelayConfig}
    (h : loadConfig getaddrinfo float env = .ok cfg) :
    Sheltered env cfg ∧ (cfg.authMode = .oauth → StrongAuth env cfg) := by
  refine ⟨fun hpublic => ?_, strongAuth_of_load h⟩
  obtain ⟨-, htoken, hallow, -, hbind⟩ := loadConfig_listener h
  rcases checkBind_ok hbind hpublic with hmode | ⟨hset, hne⟩
  · exact .inl hmode
  · exact .inr ⟨hallow ▸ hset, hset, loadMockToken_ne htoken, hne⟩

/-- An environment of OAuth mode on all interfaces, at the public origin `base`. -/
def oauthEnv (base : String) : Dict String String :=
  .ofList [("DRLINK_RELAY_UPSTREAM_URL", "https://u.example/mcp"),
    ("DRLINK_RELAY_BIND", " 0.0.0.0 "), ("DRLINK_RELAY_AUTH_MODE", "OAuth"),
    ("DRLINK_RELAY_PUBLIC_BASE_URL", base),
    ("DRLINK_RELAY_OWNER_APPROVAL_SECRET", "owner-approval-secret"),
    ("DRLINK_RELAY_OAUTH_STATE_PATH", "/var/lib/relay.json")]

/-- What is loaded from it. -/
def oauthConfig (base : String) : RelayConfig where
  bindHost := "0.0.0.0"
  bindPort := 8741
  upstreamUrl := "https://u.example/mcp"
  upstreamConnectIps := [publicIp]
  upstreamToken := none
  allowLoopbackUpstream := false
  mockPluginToken := defaultMockPluginToken
  requestTimeoutS := "30"
  authMode := .oauth
  publicBaseUrl := some base
  resourceUrl := some (base ++ "/mcp")
  ownerApprovalSecret := some "owner-approval-secret"
  allowNonLoopbackBind := false
  oauthStatePath := some "/var/lib/relay.json"
  oauthAllowEphemeral := false

theorem oauthEnv_loads : loadConfig (answering "8.8.8.8") (fun _ => some true)
    (oauthEnv "https://relay.example") = .ok (oauthConfig "https://relay.example") := by
  decide +kernel

theorem no_exposed_listener_sample :
    isLoopbackHost (oauthConfig "https://relay.example").bindHost = false ∧
      StrongAuth (oauthEnv "https://relay.example") (oauthConfig "https://relay.example") :=
  ⟨by decide +kernel, (no_exposed_listener oauthEnv_loads).2 rfl⟩

end DataRelay.Relay
