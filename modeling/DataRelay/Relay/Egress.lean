import DataRelay.Relay.Proxy

/-! Where the relay connects to: the addresses that were checked when the configuration was loaded.

    The loader accepts an answer of the resolver address by address, the proxy dials the first
    address that was accepted and checks it again. Between the two no name is resolved, so what the
    resolver says later plays no part. -/

namespace DataRelay.Relay
open Lib

/-! ### One address -/

theorem assertIpAllowed_ok {ip ip' : IpAddress} {allowLoopback : Bool}
    (h : assertIpAllowed ip allowLoopback = .ok ip') :
    ip' = ip ∧ (ip.isLoopback = true → allowLoopback = true) ∧
      (ip.isLoopback = false → ip.isBlocked = false) := by
  unfold assertIpAllowed at h
  split at h
  · rename_i hloop
    split at h
    · rename_i hallow
      cases h
      exact ⟨rfl, fun _ => hallow, fun hn => by simp [hloop] at hn⟩
    · cases h
  · rename_i hloop
    split at h
    · cases h
    · rename_i hblocked
      cases h
      exact ⟨rfl, fun ht => absurd ht hloop, fun _ => by simpa using hblocked⟩

theorem assertConnectIpAllowed_ok {info : String} {ip : IpAddress} {allowLoopback : Bool}
    (h : assertConnectIpAllowed info allowLoopback = .ok ip) :
    ipAddress info = some ip ∧ (ip.isLoopback = true → allowLoopback = true) ∧
      (ip.isLoopback = false → ip.isBlocked = false) := by
  unfold assertConnectIpAllowed at h
  split at h
  · cases h
  · rename_i ip' hread
    obtain ⟨rfl, hloop, hblocked⟩ := assertIpAllowed_ok h
    exact ⟨hread, hloop, hblocked⟩

/-- The shared address space and the loopback addresses have nothing in common. -/
theorem IpAddress.isLoopback_of_isShared {ip : IpAddress} (h : ip.isShared = true) :
    ip.isLoopback = false := by
  have hshared : ∀ n, shared4Of n = true → n / 4194304 = 401 := by
    intro n hn
    simpa [shared4Of, IpNetwork.v4, IpNetwork.contains, Nat.shiftRight_eq_div_pow] using hn
  cases ip with
  | v4 n =>
    have := hshared n h
    simp only [isLoopback, IpNetwork.v4, IpNetwork.contains, Nat.shiftRight_eq_div_pow,
      decide_eq_false_iff_not]
    omega
  | v6 n scope =>
    simp only [isLoopback, decide_eq_false_iff_not]
    intro h1
    simp [isShared, mapped, h1] at h

/-! ### The answer of the resolver -/

/-- The loop accepts every address of the answer, keeps each of them, and adds nothing else. -/
theorem collectAllowed_ok {allowLoopback : Bool} {infos : List String} :
    ∀ {allowed out : List IpAddress}, collectAllowed allowLoopback allowed infos = .ok out →
      (∀ info ∈ infos, ∃ ip ∈ out, assertConnectIpAllowed info allowLoopback = .ok ip) ∧
      (∀ ip ∈ out, ip ∈ allowed ∨
        ∃ info ∈ infos, assertConnectIpAllowed info allowLoopback = .ok ip) ∧
      ∃ new, out = allowed ++ new := by
  induction infos with
  | nil =>
    intro allowed out h
    cases h
    exact ⟨by simp, fun ip hip => .inl hip, [], by simp⟩
  | cons info infos ih =>
    intro allowed out h
    unfold collectAllowed at h
    split at h
    · cases h
    rename_i ip hip
    obtain ⟨hkeep, honly, new, hnew⟩ := ih h
    have hmem : ip ∈ out := by
      rw [hnew]
      split <;> simp_all
    refine ⟨?_, ?_, ?_⟩
    · intro i hi
      rcases List.mem_cons.mp hi with rfl | hi
      · exact ⟨ip, hmem, hip⟩
      · exact hkeep i hi
    · intro ip' hip'
      rcases honly ip' hip' with hold | ⟨i, hi, hok⟩
      · split at hold
        · exact .inl hold
        · rcases List.mem_append.mp hold with hold | hold
          · exact .inl hold
          · obtain rfl := List.mem_singleton.mp hold
            exact .inr ⟨info, by simp, hip⟩
      · exact .inr ⟨i, by simp [hi], hok⟩
    · split at hnew
      · exact ⟨new, hnew⟩
      · exact ⟨ip :: new, by rw [hnew]; simp⟩

/-- The first address of the answer is the first one accepted. -/
theorem collectAllowed_head {allowLoopback : Bool} {info : String} {infos : List String}
    {out : List IpAddress} (h : collectAllowed allowLoopback [] (info :: infos) = .ok out) :
    ∃ ip rest, ipAddress info = some ip ∧ out = ip :: rest := by
  unfold collectAllowed at h
  split at h
  · cases h
  rename_i ip hip
  obtain ⟨-, -, new, hnew⟩ := collectAllowed_ok h
  exact ⟨ip, new, (assertConnectIpAllowed_ok hip).1, by simpa using hnew⟩

/-! ### The configuration -/

/-- The host that an upstream URL names. -/
def upstreamHost (url : String) : String :=
  match Url.urlparse (strip url) with
  | .error _ => ""
  | .ok parsed => (Url.parsedHostname parsed).getD ""

/-- What the resolver answers for the upstream of an environment. -/
def upstreamAnswers (getaddrinfo : Resolver) (env : Dict String String) : List String :=
  match getaddrinfo (lookupName (upstreamHost (getD env "DRLINK_RELAY_UPSTREAM_URL" ""))) with
  | .error _ => []
  | .ok infos => infos

theorem resolveAllowedIps_ok {getaddrinfo : Resolver} {hostname : String} {allowLoopback : Bool}
    {ips : List IpAddress} (h : resolveAllowedIps getaddrinfo hostname allowLoopback = .ok ips) :
    ∃ infos, getaddrinfo (lookupName hostname) = .ok infos ∧ infos ≠ [] ∧
      collectAllowed allowLoopback [] infos = .ok ips := by
  unfold resolveAllowedIps at h
  split at h
  · cases h
  dsimp only at h
  split at h
  · cases h
  split at h
  · cases h
  · cases h
  rename_i infos hinfos
  split at h
  · cases h
  rename_i hne
  split at h
  · cases h
  rename_i allowed hallowed
  split at h
  · cases h
  · cases h
    exact ⟨infos, hinfos, hne, hallowed⟩

theorem parseUrl_ok {url : String} {parsed : Url.ParseResult}
    (h : parseUrl url = .ok parsed) : Url.urlparse url = .ok parsed := by
  unfold parseUrl at h
  generalize Url.urlparse url = x at h ⊢
  cases x with
  | error e => cases h
  | ok p => cases h; rfl

/-- What is known of an upstream URL that was accepted. -/
theorem validateUpstreamBinding_ok {getaddrinfo : Resolver} {url : String} {allowLoopback : Bool}
    {up : ValidatedUpstream}
    (h : validateUpstreamBinding getaddrinfo url allowLoopback = .ok up) :
    ∃ parsed, Url.urlparse (strip url) = .ok parsed ∧ up.url = strip url ∧
      (parsed.scheme = "http".toList → allowLoopback = true) ∧
      resolveAllowedIps getaddrinfo (upstreamHost url) allowLoopback = .ok up.connectIps := by
  simp only [validateUpstreamBinding, bind, Except.bind, pure, Except.pure, guard_ok] at h
  obtain ⟨-, h⟩ := h
  split at h
  · cases h
  rename_i parsed hparsed
  have hurl := parseUrl_ok hparsed
  have hhost : upstreamHost url = (Url.parsedHostname parsed).getD "" := by
    rw [upstreamHost, hurl]
  simp only [guard_ok] at h
  obtain ⟨-, -, -, -, hscheme, hloop, h⟩ := h
  split at h
  · cases h
  rename_i ips hips
  obtain rfl := Except.ok.inj h
  rw [← hhost] at hips
  refine ⟨parsed, hurl, rfl, ?_, hips⟩
  intro hhttp
  have hname : isLoopbackHost ((Url.parsedHostname parsed).getD "") = true := by
    simpa using fun hn => hscheme ⟨hhttp, hn⟩
  simpa using fun hn => hloop ⟨hname, hn⟩

section Load
variable {getaddrinfo : Resolver} {float : String → Option Bool} {env : Dict String String}
  {cfg : RelayConfig}

/-- The upstream of a configuration is the one that was validated. -/
theorem loadConfig_ok (h : loadConfig getaddrinfo float env = .ok cfg) :
    ∃ up, validateUpstreamBinding getaddrinfo (getD env "DRLINK_RELAY_UPSTREAM_URL" "")
        (allowLoopback env) = .ok up ∧
      cfg.upstreamUrl = up.url ∧ cfg.upstreamConnectIps = up.connectIps ∧
      cfg.allowLoopbackUpstream = allowLoopback env := by
  simp only [loadConfig, bind, Except.bind, pure, Except.pure] at h
  split at h
  · cases h
  rename_i up hup
  refine ⟨up, hup, ?_⟩
  iterate 6
    split at h
    · cases h
  obtain rfl := Except.ok.inj h
  simp only [and_self]

/-- The addresses of a configuration are those the resolver answered with, each of them allowed. -/
theorem loadConfig_answers (h : loadConfig getaddrinfo float env = .ok cfg) :
    (∀ ip ∈ cfg.upstreamConnectIps,
      (∃ info ∈ upstreamAnswers getaddrinfo env, ipAddress info = some ip) ∧
        (ip.isLoopback = true → allowLoopback env = true) ∧
        (ip.isLoopback = false → ip.isBlocked = false)) ∧
      (∀ info ∈ upstreamAnswers getaddrinfo env, ∃ ip ∈ cfg.upstreamConnectIps,
        ipAddress info = some ip) ∧
      ∃ ip rest, cfg.upstreamConnectIps = ip :: rest ∧
        (upstreamAnswers getaddrinfo env).head?.bind ipAddress = some ip := by
  obtain ⟨up, hup, -, hips, -⟩ := loadConfig_ok h
  obtain ⟨parsed, -, -, -, hresolve⟩ := validateUpstreamBinding_ok hup
  obtain ⟨infos, hinfos, hne, hcollect⟩ := resolveAllowedIps_ok hresolve
  have hanswers : upstreamAnswers getaddrinfo env = infos := by
    rw [upstreamAnswers, hinfos]
  obtain ⟨hkeep, honly, -⟩ := collectAllowed_ok hcollect
  rw [hanswers, hips]
  refine ⟨?_, ?_, ?_⟩
  · -- each stored address is an answer that passed the check
    intro ip hip
    rcases honly ip hip with hnone | ⟨info, hinfo, hok⟩
    · cases hnone
    · obtain ⟨hread, hloop, hblocked⟩ := assertConnectIpAllowed_ok hok
      exact ⟨⟨info, hinfo, hread⟩, hloop, hblocked⟩
  · intro info hinfo
    obtain ⟨ip, hip, hok⟩ := hkeep info hinfo
    exact ⟨ip, hip, (assertConnectIpAllowed_ok hok).1⟩
  · obtain ⟨info, infos', rfl⟩ := List.exists_cons_of_ne_nil hne
    obtain ⟨ip, rest, hread, hout⟩ := collectAllowed_head hcollect
    exact ⟨ip, rest, hout, hread⟩

end Load

/-! ### The connection -/

/-- The proxy dials the first address of the binding, and only an allowed one. -/
theorem proxyMcpRequest_dials {upstream : UpstreamRequest → UpstreamOutcome} {method : String}
    {binding : UpstreamBinding} {body : Bytes} {requestHeaders : Dict String String}
    {timeoutS : String} {r : UpstreamRequest}
    (h : (proxyMcpRequest upstream method binding body requestHeaders timeoutS).1 = some r) :
    binding.upstreamConnectIps.head? = some r.connectIp ∧
      ∃ parsed, Url.urlparse binding.upstreamUrl = .ok parsed ∧
        r.tls = decide (parsed.scheme = "https".toList) := by
  unfold proxyMcpRequest at h
  split at h
  · cases h
  rename_i request hrequest
  cases h
  unfold upstreamRequest at hrequest
  split at hrequest
  · cases hrequest
  rename_i parsed hparsed
  split at hrequest
  · cases hrequest
  split at hrequest
  · cases hrequest
  rename_i connectIp hpinned
  split at hrequest
  · cases hrequest
  cases hrequest
  refine ⟨?_, parsed, hparsed, rfl⟩
  -- the address is the first stored one, asked for again among the stored ones
  unfold pinnedConnectIp at hpinned
  split at hpinned
  · cases hpinned
  rename_i ip rest hips
  split at hpinned
  · cases hpinned
  rename_i ip' hallowed
  cases hpinned
  rw [hips, (assertIpAllowed_ok hallowed).1]
  rfl

/-- A destination the relay may connect to: an address of the resolver's answer which is either a
    loopback address, where the environment allows that, or a public address. -/
def Permitted (getaddrinfo : Resolver) (env : Dict String String) (ip : IpAddress) : Prop :=
  (∃ info ∈ upstreamAnswers getaddrinfo env, ipAddress info = some ip) ∧
    ((ip.isLoopback = true ∧ allowLoopback env = true) ∨
      (ip.isGlobal = true ∧ ip.isPrivate = false ∧ ip.isLinkLocal = false ∧
        ip.isMulticast = false ∧ ip.isReserved = false ∧ ip.isUnspecified = false))

/-- The dialled address is a permitted one exactly when the first address in the resolver's answer
    is not in the shared address space. -/
theorem dialled_permitted_iff {getaddrinfo : Resolver} {float : String → Option Bool}
    {env : Dict String String} {cfg : RelayConfig}
    (hload : loadConfig getaddrinfo float env = .ok cfg)
    {upstream : UpstreamRequest → UpstreamOutcome} {method bindingId subject : String}
    {body : Bytes} {requestHeaders : Dict String String} {r : UpstreamRequest}
    (hdial : (proxyMcpRequest upstream method (upstreamBinding cfg bindingId subject) body
      requestHeaders cfg.requestTimeoutS).1 = some r) :
    Permitted getaddrinfo env r.connectIp ↔
      ((upstreamAnswers getaddrinfo env).head?.bind ipAddress).any IpAddress.isShared = false := by
  obtain ⟨hall, -, ip, rest, hips, hfirst⟩ := loadConfig_answers hload
  have hconnect : r.connectIp = ip := by
    have hhead := (proxyMcpRequest_dials hdial).1
    simpa [upstreamBinding, hips, eq_comm] using hhead
  obtain ⟨hanswer, hloop, hpublic⟩ := hall ip (by simp [hips])
  rw [hconnect, hfirst, Option.any_some]
  constructor
  · rintro ⟨-, ⟨hl, -⟩ | ⟨hglobal, -⟩⟩
    · -- a shared address is neither a loopback nor a global one
      by_contra hshared
      simp [IpAddress.isLoopback_of_isShared (Bool.eq_true_of_not_eq_false hshared)] at hl
    · rw [IpAddress.isGlobal_eq] at hglobal
      simp_all
  · intro hshared
    refine ⟨hanswer, ?_⟩
    cases hl : ip.isLoopback with
    | true => exact .inl ⟨rfl, hloop hl⟩
    | false =>
      -- `_blocked` leaves the shared range as the only address that is not global
      have hblocked := hpublic hl
      simp only [IpAddress.isBlocked, Bool.or_eq_false_iff] at hblocked
      obtain ⟨⟨⟨⟨hprivate, hlink⟩, hmulti⟩, hreserved⟩, hunspecified⟩ := hblocked
      refine .inr ⟨?_, hprivate, hlink, hmulti, hreserved, hunspecified⟩
      simp [IpAddress.isGlobal_eq, hshared, hprivate]

/-- With an upstream URL of scheme `http`, only loopback addresses are stored and dialled exactly
    when the resolver answers with loopback addresses alone. -/
theorem plain_http_local_iff {getaddrinfo : Resolver} {float : String → Option Bool}
    {env : Dict String String} {cfg : RelayConfig}
    (hload : loadConfig getaddrinfo float env = .ok cfg) {parsed : Url.ParseResult}
    (hparsed : Url.urlparse cfg.upstreamUrl = .ok parsed)
    (hscheme : parsed.scheme = "http".toList) :
    (cfg.allowLoopbackUpstream = true ∧ (∀ ip ∈ cfg.upstreamConnectIps, ip.isLoopback = true) ∧
      ∀ upstream method bindingId subject body requestHeaders r,
        (proxyMcpRequest upstream method (upstreamBinding cfg bindingId subject) body
          requestHeaders cfg.requestTimeoutS).1 = some r → r.connectIp.isLoopback = true) ↔
      ∀ info ∈ upstreamAnswers getaddrinfo env,
        (ipAddress info).any IpAddress.isLoopback = true := by
  obtain ⟨honly, hkeep, -⟩ := loadConfig_answers hload
  constructor
  · rintro ⟨-, hips, -⟩ info hinfo
    obtain ⟨ip, hip, hread⟩ := hkeep info hinfo
    rw [hread, Option.any_some]
    exact hips ip hip
  · -- only loopback answers, so all that is stored is a loopback address
    intro hanswers
    have hips : ∀ ip ∈ cfg.upstreamConnectIps, ip.isLoopback = true := by
      intro ip hip
      obtain ⟨⟨info, hinfo, hread⟩, -, -⟩ := honly ip hip
      simpa [hread] using hanswers info hinfo
    refine ⟨?_, hips, ?_⟩
    · -- the switch was on, or the url would have been refused
      obtain ⟨up, hup, hurl, -, hallow⟩ := loadConfig_ok hload
      obtain ⟨parsed', hparsed', hurl', hplain, -⟩ := validateUpstreamBinding_ok hup
      rw [hurl, hurl', hparsed'] at hparsed
      obtain rfl := Except.ok.inj hparsed
      rw [hallow]
      exact hplain hscheme
    · intro upstream method bindingId subject body requestHeaders r hdial
      have hhead := (proxyMcpRequest_dials hdial).1
      exact hips _ (List.mem_of_mem_head? hhead)

/-! ### A sample -/

/-- The environment that only names an upstream, and lets it be a loopback one. -/
def sampleEnv (url : String) : Dict String String :=
  .ofList [("DRLINK_RELAY_UPSTREAM_URL", url), ("DRLINK_RELAY_ALLOW_LOOPBACK_UPSTREAM", "1")]

/-- What is loaded from it when the resolver answers with the one address `ip`. -/
def sampleConfig (url : String) (ip : IpAddress) : RelayConfig where
  bindHost := "127.0.0.1"
  bindPort := 8741
  upstreamUrl := url
  upstreamConnectIps := [ip]
  upstreamToken := none
  allowLoopbackUpstream := true
  mockPluginToken := defaultMockPluginToken
  requestTimeoutS := "30"
  authMode := .mock
  publicBaseUrl := none
  resourceUrl := none
  ownerApprovalSecret := none
  allowNonLoopbackBind := false
  oauthStatePath := none
  oauthAllowEphemeral := false

/-- A resolver that knows one address only. -/
def answering (address : String) : Resolver := fun _ => .ok [address]

def sampleRequest (url : String) (ip : IpAddress) : Option UpstreamRequest :=
  (proxyMcpRequest (fun _ => .failed) "POST"
    (upstreamBinding (sampleConfig url ip) mockBindingId "mock-plugin-user") [] ∅ "30").1

/-- `8.8.8.8`. -/
def publicIp : IpAddress := .v4 ⟨134744072, by decide⟩

/-- `100.64.0.1`. -/
def sharedIp : IpAddress := .v4 ⟨1681915905, by decide⟩

theorem dialled_permitted_public :
    ∃ r, sampleRequest "https://u.example/mcp" publicIp = some r ∧
      Permitted (answering "8.8.8.8") (sampleEnv "https://u.example/mcp") r.connectIp := by
  have hload : loadConfig (answering "8.8.8.8") (fun _ => some true)
      (sampleEnv "https://u.example/mcp") =
        .ok (sampleConfig "https://u.example/mcp" publicIp) := by decide +kernel
  have hsome : (sampleRequest "https://u.example/mcp" publicIp).isSome = true := by decide +kernel
  obtain ⟨r, hr⟩ := Option.isSome_iff_exists.mp hsome
  exact ⟨r, hr, (dialled_permitted_iff hload hr).mpr (by decide +kernel)⟩

/-- An upstream in the shared address space is dialled. -/
theorem shared_dialled :
    ∃ cfg r, loadConfig (answering "100.64.0.1") (fun _ => some true)
        (sampleEnv "https://u.example/mcp") = .ok cfg ∧
      (proxyMcpRequest (fun _ => .failed) "POST"
        (upstreamBinding cfg mockBindingId "mock-plugin-user") [] ∅ "30").1 = some r ∧
      r.connectIp = sharedIp ∧
      ¬ Permitted (answering "100.64.0.1") (sampleEnv "https://u.example/mcp") r.connectIp := by
  have hdialled : (sampleRequest "https://u.example/mcp" sharedIp).map (·.connectIp) =
      some sharedIp := by decide +kernel
  obtain ⟨r, hr, hip⟩ := Option.map_eq_some_iff.mp hdialled
  refine ⟨_, r, by decide +kernel, hr, hip, ?_⟩
  rw [hip]
  rintro ⟨-, ⟨hl, -⟩ | ⟨hg, -⟩⟩
  · exact absurd hl (by decide)
  · exact absurd hg (by decide)

/-- `127.0.0.1`. -/
def loopbackIp : IpAddress := .v4 ⟨2130706433, by decide⟩

theorem plain_http_local_sample :
    (∀ ip ∈ (sampleConfig "http://localhost/mcp" loopbackIp).upstreamConnectIps,
      ip.isLoopback = true) ∧
      ∀ info ∈ upstreamAnswers (answering "127.0.0.1") (sampleEnv "http://localhost/mcp"),
        (ipAddress info).any IpAddress.isLoopback = true := by
  have hload : loadConfig (answering "127.0.0.1") (fun _ => some true)
      (sampleEnv "http://localhost/mcp") =
        .ok (sampleConfig "http://localhost/mcp" loopbackIp) := by decide +kernel
  have hparsed : Url.urlparse "http://localhost/mcp" =
      .ok ⟨"http".toList, "localhost".toList, "/mcp".toList, [], [], []⟩ := by decide +kernel
  have hlocal := plain_http_local_iff hload hparsed rfl
  have hanswers : ∀ info ∈ upstreamAnswers (answering "127.0.0.1")
      (sampleEnv "http://localhost/mcp"), (ipAddress info).any IpAddress.isLoopback = true := by
    decide +kernel
  exact ⟨(hlocal.mpr hanswers).2.1, hanswers⟩

/-- A name that passes for a loopback host takes plain HTTP to a public address. -/
theorem plain_http_leaves :
    ∃ cfg parsed r, loadConfig (answering "8.8.8.8") (fun _ => some true)
        (sampleEnv "http://localhost/mcp") = .ok cfg ∧
      Url.urlparse cfg.upstreamUrl = .ok parsed ∧ parsed.scheme = "http".toList ∧
      publicIp ∈ cfg.upstreamConnectIps ∧ publicIp.isLoopback = false ∧
      (proxyMcpRequest (fun _ => .failed) "POST"
        (upstreamBinding cfg mockBindingId "mock-plugin-user") [] ∅ "30").1 = some r ∧
      r.tls = false ∧ r.connectIp = publicIp := by
  have hdialled : (sampleRequest "http://localhost/mcp" publicIp).map
      (fun r => (r.tls, r.connectIp)) = some (false, publicIp) := by decide +kernel
  obtain ⟨r, hr, heq⟩ := Option.map_eq_some_iff.mp hdialled
  obtain ⟨htls, hip⟩ := Prod.mk.inj heq
  refine ⟨sampleConfig "http://localhost/mcp" publicIp,
    ⟨"http".toList, "localhost".toList, "/mcp".toList, [], [], []⟩, r, ?_, ?_, rfl, ?_, ?_, hr,
    htls, hip⟩
  · decide +kernel
  · decide +kernel
  · decide
  · decide

end DataRelay.Relay
