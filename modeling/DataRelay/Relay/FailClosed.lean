import DataRelay.Relay.HttpClient

/-! The two ways out of `proxy_mcp_request`: a response, or `UpstreamUnavailable`, which `/mcp` turns
    into a 502. A configuration that was loaded leaves open the port of its URL, and whatever
    `http.client` does not put into a request. -/

namespace DataRelay.Relay
open Lib

/-! ### The request of a loaded configuration -/

theorem resolveAllowedIps_ne {getaddrinfo : Resolver} {hostname : String} {allowLoopback : Bool}
    {ips : List IpAddress} (h : resolveAllowedIps getaddrinfo hostname allowLoopback = .ok ips) :
    hostname ≠ "" := (guard_ok.mp h).1

theorem assertIpAllowed_eq {ip : IpAddress} {allowLoopback : Bool}
    (hl : ip.isLoopback = true → allowLoopback = true)
    (hb : ip.isLoopback = false → ip.isBlocked = false) :
    assertIpAllowed ip allowLoopback = .ok ip := by
  unfold assertIpAllowed
  cases hloop : ip.isLoopback with
  | true => rw [if_pos rfl, if_pos (hl hloop)]
  | false => rw [if_neg (by decide), if_neg (by simp [hb hloop])]

section Load
variable {getaddrinfo : Resolver} {float : String → Option Bool} {env : Dict String String}
  {cfg : RelayConfig}

/-- The URL of a configuration parses, and it names a host. -/
theorem loadConfig_host (h : loadConfig getaddrinfo float env = .ok cfg) :
    ∃ parsed host, Url.urlparse cfg.upstreamUrl = .ok parsed ∧
      Url.parsedHostname parsed = some host := by
  obtain ⟨up, hup, hurl, -, -⟩ := loadConfig_ok h
  obtain ⟨parsed, hparsed, hraw, -, hresolve⟩ := validateUpstreamBinding_ok hup
  have hne := resolveAllowedIps_ne hresolve
  rw [upstreamHost, hparsed] at hne
  refine ⟨parsed, ?_⟩
  cases hhost : Url.parsedHostname parsed with
  | none => exact absurd (by simp [hhost]) hne
  | some host => exact ⟨host, by rw [hurl, hraw, hparsed], rfl⟩

/-- The address that the proxy dials passes its second check. -/
theorem loadConfig_pinned (h : loadConfig getaddrinfo float env = .ok cfg)
    (bindingId subject : String) :
    ∃ ip, pinnedConnectIp (upstreamBinding cfg bindingId subject) = .ok ip := by
  obtain ⟨hall, -, ip, rest, hips, -⟩ := loadConfig_answers h
  obtain ⟨-, -, -, -, hallow⟩ := loadConfig_ok h
  obtain ⟨-, hl, hb⟩ := hall ip (by rw [hips]; exact List.mem_cons_self)
  rw [← hallow] at hl
  refine ⟨ip, ?_⟩
  unfold pinnedConnectIp upstreamBinding
  simp only [hips, assertIpAllowed_eq hl hb]

/-- The only thing that can go wrong before the connection is made is the port. -/
theorem upstreamRequest_loaded (h : loadConfig getaddrinfo float env = .ok cfg)
    (bindingId subject method : String) (body : Bytes) (requestHeaders : Dict String String)
    (timeoutS : String) :
    ∃ parsed, Url.urlparse cfg.upstreamUrl = .ok parsed ∧
      ((∃ e, Url.port parsed = .error e ∧
          upstreamRequest method (upstreamBinding cfg bindingId subject) body requestHeaders
            timeoutS = .error (.other e)) ∨
        (∃ port r, Url.port parsed = .ok port ∧
          upstreamRequest method (upstreamBinding cfg bindingId subject) body requestHeaders
            timeoutS = .ok r)) := by
  obtain ⟨parsed, host, hparsed, hhost⟩ := loadConfig_host h
  obtain ⟨ip, hip⟩ := loadConfig_pinned h bindingId subject
  have hurl : Url.urlparse (upstreamBinding cfg bindingId subject).upstreamUrl = .ok parsed :=
    hparsed
  refine ⟨parsed, hparsed, ?_⟩
  unfold upstreamRequest
  simp only [hurl, hhost, hip]
  cases hport : Url.port parsed with
  | error e => exact .inl ⟨e, rfl, rfl⟩
  | ok port => exact .inr ⟨port, _, rfl, rfl⟩

end Load

/-! ### The two ways out -/

/-- A response, or `UpstreamUnavailable`. -/
def Closed (result : Except ProxyError ProxiedResponse) : Prop :=
  (∃ p, result = .ok p) ∨ result = .error .upstreamUnavailable

/-- What leaves the proxy by another way: the port of the URL is none, or the request that is built
    is not caught. -/
def Escapes (net : Network) (method : String) (binding : UpstreamBinding) (body : Bytes)
    (requestHeaders : Dict String String) (timeoutS : String) : Prop :=
  (∃ parsed e, Url.urlparse binding.upstreamUrl = .ok parsed ∧ Url.port parsed = .error e) ∨
    ∃ r, upstreamRequest method binding body requestHeaders timeoutS = .ok r ∧ Uncaught net r

theorem closed_proxy_iff {net : Network} {method : String} {binding : UpstreamBinding}
    {body : Bytes} {requestHeaders : Dict String String} {timeoutS : String} {r : UpstreamRequest}
    (hr : upstreamRequest method binding body requestHeaders timeoutS = .ok r) :
    Closed (proxyMcpRequest net.upstream method binding body requestHeaders timeoutS).2 ↔
      ¬ Uncaught net r := by
  rw [← upstream_raised_iff, proxyMcpRequest, hr]
  cases hu : net.upstream r with
  | response a => exact iff_of_true (.inl ⟨_, by simp only [hu]; rfl⟩) (by simp)
  | failed => exact iff_of_true (.inr (by simp only [hu])) (by simp)
  | raised e =>
    refine iff_of_false ?_ (by simp)
    simp only [hu]
    rintro (⟨p, hp⟩ | hp) <;> cases hp

/-- A binding that resolved is one of the configuration. -/
theorem closed_iff {getaddrinfo : Resolver} {float : String → Option Bool}
    {env : Dict String String} {cfg : RelayConfig}
    (hload : loadConfig getaddrinfo float env = .ok cfg) {b : BindingResolver}
    (hcfg : b.config = cfg) {env' : OAuth.Env} {authorization : Option String}
    {binding : UpstreamBinding} (hresolve : b.resolve env' authorization = .ok binding)
    (net : Network) (method : String) (body : Bytes) (requestHeaders : Dict String String) :
    Closed (proxyMcpRequest net.upstream method binding body requestHeaders
        cfg.requestTimeoutS).2 ↔
      ¬ Escapes net method binding body requestHeaders cfg.requestTimeoutS := by
  obtain ⟨bindingId, subject, rfl⟩ := resolve_ok hresolve
  rw [hcfg]
  obtain ⟨parsed, hparsed, hrequest⟩ := upstreamRequest_loaded hload bindingId subject method body
    requestHeaders cfg.requestTimeoutS
  -- the port is read outside the try: either it raises, or there is a request
  rcases hrequest with ⟨e, hport, hr⟩ | ⟨port, r, hport, hr⟩
  · refine iff_of_false ?_ fun hescapes => hescapes (.inl ⟨parsed, e, hparsed, hport⟩)
    rw [proxyMcpRequest, hr]
    rintro (⟨p, hp⟩ | hp) <;> cases hp
  · rw [closed_proxy_iff hr, not_iff_not]
    refine ⟨fun hu => .inr ⟨r, hr, hu⟩, ?_⟩
    rintro (⟨parsed', e, hparsed', hport'⟩ | ⟨r', hr', hu⟩)
    · rw [show (upstreamBinding cfg bindingId subject).upstreamUrl = cfg.upstreamUrl from rfl,
        hparsed] at hparsed'
      obtain rfl := Except.ok.inj hparsed'
      rw [hport] at hport'
      cases hport'
    · rw [hr] at hr'
      obtain rfl := Except.ok.inj hr'
      exact hu

/-! ### What `/mcp` answers -/

theorem isLatin1_latin1 (bs : Bytes) : isLatin1 (latin1 bs) = true := by
  simp only [isLatin1, latin1, String.toList_ofList, List.all_map, List.all_eq_true,
    Function.comp_apply, decide_eq_true_eq]
  intro b _
  have hb : b.toNat < 256 := b.toNat_lt
  have hvalid : b.toNat.isValidChar := .inl (by omega)
  rw [Char.ofNat, dif_pos hvalid]
  exact hb

theorem headerOk_lengthHeader (body : Bytes) : headerOk (lengthHeader body) = true := by
  rw [headerOk, lengthHeader, Bool.and_eq_true]
  refine ⟨(by decide : isLatin1 "Content-Length" = true), ?_⟩
  simp only [isLatin1, List.all_eq_true, decide_eq_true_eq]
  intro c hc
  have hdigit := Nat.isDigit_of_mem_toDigits (by decide) (by decide) (Nat.toList_repr ▸ hc)
  simp only [Char.isDigit, Bool.and_eq_true, decide_eq_true_eq, UInt32.le_iff_toNat_le] at hdigit
  exact lt_of_le_of_lt hdigit.2 (by decide)

/-- A response goes out when its headers are Latin-1. -/
theorem send_of_headerOk (status : ℕ) {headers : Headers} (body : Bytes)
    (h : ∀ e ∈ headers, headerOk e = true) :
    ∃ out, (send [] status headers body).result = .ok out := by
  rw [send, if_pos (List.all_eq_true.mpr h)]
  exact ⟨_, rfl⟩

/-- The client gets what the upstream answered, or else a 502 with an error of JSON-RPC. -/
def McpAnswered (ctx : Context) (req : Request) (stream : Bytes) : Prop :=
  ∃ out, (handleMcp ctx req stream).outcome = .ok out ∧
    ((∃ r answer, (handleMcp ctx req stream).upstream = some r ∧
        ctx.upstream r = .response answer ∧ out.status = some answer.status ∧
        out.body = answer.body) ∨
      (out.status = some 502 ∧ out.body = ctx.codec.dumps upstreamUnavailableJson))

/-- What `/mcp` sends is made of what the proxy returned. -/
theorem handleMcp_outcome {ctx : Context} {req : Request} {stream body : Bytes}
    (hread : (readBody req.headers stream).1 = .ok body) {binding : UpstreamBinding}
    (hresolve : ctx.bindings.resolve ctx.env (header? req.headers "Authorization") =
      .ok binding) :
    (handleMcp ctx req stream).outcome =
      (sendProxied ctx (proxyMcpRequest ctx.upstream (methodText req.method) binding body
        (.ofList req.headers) ctx.bindings.config.requestTimeoutS).2).result := by
  unfold handleMcp
  generalize readBody req.headers stream = p at hread ⊢
  obtain ⟨x, rest⟩ := p
  obtain rfl : x = .ok body := hread
  simp only [hresolve]

/-- The response of the proxy is the one of the upstream, its headers selected. -/
theorem proxyMcpRequest_ok {upstream : UpstreamRequest → UpstreamOutcome} {method : String}
    {binding : UpstreamBinding} {body : Bytes} {requestHeaders : Dict String String}
    {timeoutS : String} {p : ProxiedResponse}
    (h : (proxyMcpRequest upstream method binding body requestHeaders timeoutS).2 = .ok p) :
    ∃ r answer, upstreamRequest method binding body requestHeaders timeoutS = .ok r ∧
      upstream r = .response answer ∧ p.status = answer.status ∧ p.body = answer.body ∧
      p.headers = selectHeaders answer.headers forwardResponseHeaders := by
  unfold proxyMcpRequest at h
  cases hr : upstreamRequest method binding body requestHeaders timeoutS with
  | error e => rw [hr] at h; cases h
  | ok r =>
    rw [hr] at h
    dsimp only at h
    cases hu : upstream r with
    | failed => rw [hu] at h; cases h
    | raised e => rw [hu] at h; cases h
    | response answer =>
      rw [hu] at h
      obtain rfl := Except.ok.inj h
      exact ⟨r, answer, rfl, hu, rfl, rfl, rfl⟩

/-- The headers that the upstream sends can be passed on. -/
theorem upstream_headerOk {net : Network} {r : UpstreamRequest} {answer : UpstreamResponse}
    (h : net.upstream r = .response answer) : ∀ e ∈ answer.headers, headerOk e = true := by
  unfold Network.upstream at h
  split at h
  · cases h
  split at h
  next response hresponse =>
    cases h
    intro e he
    obtain ⟨raw, -, rfl⟩ := List.mem_map.mp he
    rw [headerOk, isLatin1_latin1, isLatin1_latin1]
    rfl
  · split at h <;> cases h

/-- What the proxy returned by one of its two ways, `/mcp` answers. -/
theorem mcpAnswered_of_closed {ctx : Context} {net : Network} (hup : ctx.upstream = net.upstream)
    {req : Request} {stream body : Bytes}
    (hread : (readBody req.headers stream).1 = .ok body) {binding : UpstreamBinding}
    (hresolve : ctx.bindings.resolve ctx.env (header? req.headers "Authorization") =
      .ok binding)
    (hclosed : Closed (proxyMcpRequest net.upstream (methodText req.method) binding body
      (.ofList req.headers) ctx.bindings.config.requestTimeoutS).2) :
    McpAnswered ctx req stream := by
  have hout := handleMcp_outcome hread hresolve
  have hmade := handleMcp_upstream hread hresolve
  rw [hup] at hout
  rcases hclosed with ⟨p, hp⟩ | hp
  · obtain ⟨r, answer, hr, hu, hstatus, hbody, hheaders⟩ := proxyMcpRequest_ok hp
    rw [hp, sendProxied, sendBytes] at hout
    have hall : ∀ e ∈ p.headers ++ [lengthHeader p.body], headerOk e = true := by
      intro e he
      rcases List.mem_append.mp he with he | he
      · rw [hheaders] at he
        exact upstream_headerOk hu e (List.mem_filter.mp he).1
      · rw [List.mem_singleton.mp he]
        exact headerOk_lengthHeader _
    obtain ⟨out, hsent⟩ := send_of_headerOk p.status p.body hall
    obtain ⟨hs, -, hb⟩ := send_ok hsent
    refine ⟨out, hout.trans hsent, .inl ⟨r, answer, ?_, hup ▸ hu, hs.trans ?_, hb.trans hbody⟩⟩
    · rw [hmade, hr]
      rfl
    · rw [hstatus]
  · rw [hp, sendProxied, sendJson] at hout
    have hall : ∀ e ∈ [("Content-Type", "application/json"),
        lengthHeader (ctx.codec.dumps upstreamUnavailableJson)] ++ [], headerOk e = true := by
      intro e he
      rcases List.mem_cons.mp he with rfl | he
      · decide
      · rw [List.mem_singleton.mp he]
        exact headerOk_lengthHeader _
    obtain ⟨out, hsent⟩ := send_of_headerOk 502 (ctx.codec.dumps upstreamUnavailableJson) hall
    obtain ⟨hs, -, hb⟩ := send_ok hsent
    exact ⟨out, hout.trans hsent, .inr ⟨hs, hb⟩⟩

/-- What leaves the proxy by another way leaves `/mcp` without an answer. -/
theorem closed_of_mcpAnswered {ctx : Context} {net : Network} (hup : ctx.upstream = net.upstream)
    {req : Request} {stream body : Bytes}
    (hread : (readBody req.headers stream).1 = .ok body) {binding : UpstreamBinding}
    (hresolve : ctx.bindings.resolve ctx.env (header? req.headers "Authorization") =
      .ok binding) (h : McpAnswered ctx req stream) :
    Closed (proxyMcpRequest net.upstream (methodText req.method) binding body
      (.ofList req.headers) ctx.bindings.config.requestTimeoutS).2 := by
  obtain ⟨out, hout, -⟩ := h
  rw [handleMcp_outcome hread hresolve, hup] at hout
  generalize (proxyMcpRequest net.upstream (methodText req.method) binding body
    (.ofList req.headers) ctx.bindings.config.requestTimeoutS).2 = result at hout ⊢
  match result with
  | .ok p => exact .inl ⟨p, rfl⟩
  | .error .upstreamUnavailable => exact .inr rfl
  | .error .assertion => cases hout
  | .error (.other e) => cases hout

/-- The proxy returns a response or raises `UpstreamUnavailable`, and `/mcp` answers with the
    response or with a 502, exactly where nothing escapes. -/
theorem fails_closed_iff {getaddrinfo : Resolver} {float : String → Option Bool}
    {env : Dict String String} {cfg : RelayConfig}
    (hload : loadConfig getaddrinfo float env = .ok cfg) {b : BindingResolver}
    (hcfg : b.config = cfg) {env' : OAuth.Env} {authorization : Option String}
    {binding : UpstreamBinding} (hresolve : b.resolve env' authorization = .ok binding)
    (net : Network) :
    (∀ method body requestHeaders,
      Closed (proxyMcpRequest net.upstream method binding body requestHeaders
          cfg.requestTimeoutS).2 ↔
        ¬ Escapes net method binding body requestHeaders cfg.requestTimeoutS) ∧
      ∀ (ctx : Context) (req : Request) (stream body : Bytes), ctx.bindings = b →
        ctx.env = env' → header? req.headers "Authorization" = authorization →
        ctx.upstream = net.upstream → (readBody req.headers stream).1 = .ok body →
        (McpAnswered ctx req stream ↔
          ¬ Escapes net (methodText req.method) binding body (.ofList req.headers)
            cfg.requestTimeoutS) := by
  refine ⟨closed_iff hload hcfg hresolve net, ?_⟩
  rintro ctx req stream body hb henv hauth hup hread
  have hctx : ctx.bindings.resolve ctx.env (header? req.headers "Authorization") =
      .ok binding := by rw [hb, henv, hauth, hresolve]
  have htimeout : ctx.bindings.config.requestTimeoutS = cfg.requestTimeoutS := by rw [hb, hcfg]
  rw [← closed_iff hload hcfg hresolve net, ← htimeout]
  exact ⟨closed_of_mcpAnswered hup hread hctx, mcpAnswered_of_closed hup hread hctx⟩

/-! ### A sample -/

/-- An upstream that refuses every connection. -/
def downNetwork : Network where
  idna _ := true
  settimeout _ := true
  exchange _ := .error .osError

def sampleResolver (url : String) : BindingResolver := ⟨sampleConfig url publicIp, ∅, none⟩

def sampleBinding (url : String) : UpstreamBinding :=
  upstreamBinding (sampleConfig url publicIp) mockBindingId "mock-plugin-user"

theorem sampleResolver_resolve (url : String) (env : OAuth.Env) :
    (sampleResolver url).resolve env (some "Bearer dev-plugin-token") =
      .ok (sampleBinding url) := by
  rfl

def raised : UpstreamOutcome → Bool
  | .raised _ => true
  | _ => false

def escaped : Except ProxyError ProxiedResponse → Bool
  | .error (.other _) => true
  | _ => false

/-- A refused connection is answered with a 502. -/
theorem fails_closed_down :
    Closed (proxyMcpRequest downNetwork.upstream "POST" (sampleBinding "https://u.example/mcp") [] ∅
      "30").2 := by
  have hload : loadConfig (answering "8.8.8.8") (fun _ => some true)
      (sampleEnv "https://u.example/mcp") =
        .ok (sampleConfig "https://u.example/mcp" publicIp) := by decide +kernel
  refine ((fails_closed_iff hload rfl (sampleResolver_resolve _ (sampleContext plainAnswer).env)
    downNetwork).1 "POST" [] ∅).mpr ?_
  have hport : (Url.urlparse "https://u.example/mcp").toOption.map
      (fun parsed => (Url.port parsed).toOption) = some (some none) := by decide +kernel
  have hraised : (upstreamRequest "POST" (sampleBinding "https://u.example/mcp") [] ∅ "30").toOption.map
      (fun r => raised (downNetwork.upstream r)) = some false := by decide +kernel
  rintro (⟨parsed, e, hparsed, he⟩ | ⟨r, hr, hu⟩)
  · rw [show Url.urlparse "https://u.example/mcp" = .ok parsed from hparsed] at hport
    simp [Except.toOption, he] at hport
  · obtain ⟨e, he⟩ := (upstream_raised_iff _ _).mpr hu
    rw [show upstreamRequest "POST" (sampleBinding "https://u.example/mcp") [] ∅ "30" = .ok r
      from hr] at hraised
    simp [Except.toOption, he, raised] at hraised

/-- A port above 65535 is accepted by the loader, and raises a `ValueError` on every request. -/
theorem port_escapes :
    ¬ ∀ (getaddrinfo : Resolver) (float : String → Option Bool) (env : Dict String String)
      (cfg : RelayConfig), loadConfig getaddrinfo float env = .ok cfg →
      ∀ (b : BindingResolver), b.config = cfg → ∀ (env' : OAuth.Env) (authorization : Option String)
        (binding : UpstreamBinding), b.resolve env' authorization = .ok binding →
      ∀ net : Network, (∀ r e, net.exchange r = .error e → caught e = true) →
      ∀ method body requestHeaders,
        Closed (proxyMcpRequest net.upstream method binding body requestHeaders
          cfg.requestTimeoutS).2 := by
  intro hall
  have hload : loadConfig (answering "8.8.8.8") (fun _ => some true)
      (sampleEnv "https://u.example:99999/mcp") =
        .ok (sampleConfig "https://u.example:99999/mcp" publicIp) := by decide +kernel
  have hclosed := hall _ _ _ _ hload (sampleResolver _) rfl _ _ _
    (sampleResolver_resolve _ (sampleContext plainAnswer).env) downNetwork
    (fun r e h => by cases h; rfl) "POST" [] ∅
  have hother : escaped (proxyMcpRequest downNetwork.upstream "POST"
      (sampleBinding "https://u.example:99999/mcp") [] ∅ "30").2 = true := by decide +kernel
  rcases hclosed with ⟨p, hp⟩ | hp
  · rw [show (proxyMcpRequest downNetwork.upstream "POST"
      (sampleBinding "https://u.example:99999/mcp") [] ∅ "30").2 = .ok p from hp] at hother
    cases hother
  · rw [show (proxyMcpRequest downNetwork.upstream "POST"
      (sampleBinding "https://u.example:99999/mcp") [] ∅ "30").2 = .error .upstreamUnavailable
      from hp] at hother
    cases hother

end DataRelay.Relay
