import DataRelay.OAuth.Token
import DataRelay.Relay.Config

/-! The binding of an inbound credential to the upstream, and the request that is passed on.

    What the upstream does with a request is a function of the request: it answers, it fails in a
    way that `proxy_mcp_request` turns into `UpstreamUnavailable`, or it raises something else. -/

namespace DataRelay.Relay
open Lib

/-- The bytes of a body. -/
abbrev Bytes := List UInt8

/-- The headers of a message, in their order. -/
abbrev Headers := List (String × String)

/-! ### Bindings -/

/-- `UpstreamBinding`. -/
structure UpstreamBinding where
  bindingId : String
  upstreamUrl : String
  upstreamConnectIps : List IpAddress
  allowLoopbackUpstream : Bool
  upstreamAuthorization : Option String
  pluginSubject : String

/-- `BindingError`, and what else gets out of `resolve`. -/
inductive BindingError where
  | binding (message : String) (status : ℕ) (oauthError oauthDescription : Option String)
  | other (e : PyError)

/-- `_upstream_binding`. -/
def upstreamBinding (config : RelayConfig) (bindingId subject : String) : UpstreamBinding where
  bindingId := bindingId
  upstreamUrl := config.upstreamUrl
  upstreamConnectIps := config.upstreamConnectIps
  allowLoopbackUpstream := config.allowLoopbackUpstream
  upstreamAuthorization := config.upstreamToken.bind fun token =>
    if token = "" then none else some ("Bearer " ++ token)
  pluginSubject := subject

/-- The resolver of credentials: the binding ids that are revoked in mock mode, and the OAuth
    service when there is one. -/
structure BindingResolver where
  config : RelayConfig
  mockRevoked : Finset String
  oauth : Option OAuth.OAuthService

/-- The id of the one mock binding. -/
def mockBindingId : String := "mock-binding-1"

/-- `MockBindingStore.resolve`. -/
def BindingResolver.resolveMock (b : BindingResolver) (authorization : Option String) :
    Except BindingError UpstreamBinding :=
  if mockBindingId ∈ b.mockRevoked then .error (.binding "binding revoked" 401 none none)
  else if authorization ≠ some ("Bearer " ++ b.config.mockPluginToken) then
    .error (.binding "unbound or invalid plugin identity" 401 none none)
  else .ok (upstreamBinding b.config mockBindingId "mock-plugin-user")

/-- An `OAuthError` as a `BindingError`; `str(exc)` is the description, or else the error. -/
def BindingError.ofPyError : PyError → BindingError
  | .oauth error description status =>
    .binding (if description = "" then error else description) status (some error)
      (some description)
  | e => .other e

/-- `BindingResolver.resolve`. -/
def BindingResolver.resolve (b : BindingResolver) (env : OAuth.Env)
    (authorization : Option String) : Except BindingError UpstreamBinding :=
  match b.config.authMode with
  | .oauth =>
    match b.oauth with
    | none => .error (.binding "oauth not configured" 401 none none)
    | some oauth =>
      match oauth.validateBearer b.config.oauth env authorization ∅ with
      | .error e => .error (.ofPyError e)
      | .ok token => .ok (upstreamBinding b.config "oauth-binding-1" token.subject)
  | .mock => b.resolveMock authorization

/-! ### The request that is passed on -/

/-- `_FORWARD_REQUEST_HEADERS`. -/
def forwardRequestHeaders : List String :=
  ["accept", "accept-encoding", "content-type", "mcp-session-id", "last-event-id",
    "mcp-protocol-version", "mcp-method", "mcp-name"]

/-- `_FORWARD_RESPONSE_HEADERS`. -/
def forwardResponseHeaders : List String :=
  ["content-type", "mcp-session-id", "mcp-protocol-version", "cache-control"]

/-- `_select_headers`. -/
def selectHeaders (items : Headers) (allowed : List String) : Headers :=
  items.filter fun e => allowed.contains (lower e.1)

/-- What is sent upstream, and to which address. -/
structure UpstreamRequest where
  tls : Bool
  host : String
  connectIp : IpAddress
  port : ℕ
  timeout : String
  method : String
  path : String
  body : Bytes
  headers : Dict String String

/-- What comes back. -/
structure UpstreamResponse where
  status : ℕ
  reason : String
  headers : Headers
  body : Bytes

/-- How a request to the upstream ends. -/
inductive UpstreamOutcome where
  | response (r : UpstreamResponse)
  | failed
  | raised (e : PyError)

/-- `UpstreamUnavailable`, and what else gets out of `proxy_mcp_request`. -/
inductive ProxyError where
  | upstreamUnavailable
  | assertion
  | other (e : PyError)

/-- `str.title()` on ASCII text; `inWord` says whether the character before was a letter. -/
def titleAux : Bool → List Char → List Char
  | _, [] => []
  | inWord, c :: cs =>
    (if inWord then c.toLower else c.toUpper) :: titleAux (Url.isAsciiAlpha c) cs

/-- `str.title`. -/
def title (s : String) : String := String.ofList (titleAux false s.toList)

/-- Text that counts as true. -/
def truthy (s : Option String) : Option String := s.filter (· ≠ "")

/-- The headers with the credential of the binding, if it has one. -/
def withAuthorization (headers : Dict String String) : Option String → Dict String String
  | none => headers
  | some authorization => headers.set "Authorization" authorization

/-- The headers of the request that is passed on: the allowed ones, the credential of the binding,
    and a content type for a body that has none. -/
def upstreamHeaders (binding : UpstreamBinding) (body : Bytes)
    (requestHeaders : Dict String String) : Dict String String :=
  let selected := Dict.ofList (selectHeaders requestHeaders.items forwardRequestHeaders)
  let headers := withAuthorization selected (truthy binding.upstreamAuthorization)
  if body ≠ [] ∧ "Content-Type" ∉ headers.keys.map title then
    if "content-type" ∉ headers.keys.map lower then headers.set "Content-Type" "application/json"
    else headers
  else headers

/-- `_pinned_connect_ip`: the first address of the binding. -/
def pinnedConnectIp (binding : UpstreamBinding) : Except ProxyError IpAddress :=
  match binding.upstreamConnectIps with
  | [] => .error .upstreamUnavailable
  | connectIp :: _ =>
    match assertIpAllowed connectIp binding.allowLoopbackUpstream with
    | .error _ => .error .upstreamUnavailable
    | .ok ip => .ok ip

/-- `parsed.path or "/"`, with the query behind it. -/
def requestTarget (parsed : Url.ParseResult) : String :=
  String.ofList ((if parsed.path = [] then ['/'] else parsed.path) ++
    if parsed.query = [] then [] else '?' :: parsed.query)

/-- `parsed.port or default`. -/
def portOr (default : ℕ) : Option ℕ → ℕ
  | none => default
  | some 0 => default
  | some n => n

/-- The request that is made of the upstream, up to the point where the connection is opened. -/
def upstreamRequest (method : String) (binding : UpstreamBinding) (body : Bytes)
    (requestHeaders : Dict String String) (timeoutS : String) :
    Except ProxyError UpstreamRequest :=
  match Url.urlparse binding.upstreamUrl with
  | .error e => .error (.other e)
  | .ok parsed =>
    match Url.parsedHostname parsed with
    | none => .error .assertion
    | some host =>
      match pinnedConnectIp binding with
      | .error e => .error e
      | .ok connectIp =>
        match Url.port parsed with
        | .error e => .error (.other e)
        | .ok port =>
          let tls := decide (parsed.scheme = "https".toList)
          .ok {
            tls := tls
            host := host
            connectIp := connectIp
            port := portOr (if tls then 443 else 80) port
            timeout := timeoutS
            method := upper method
            path := requestTarget parsed
            body := body
            headers := upstreamHeaders binding body requestHeaders }

/-- `ProxiedResponse`. -/
structure ProxiedResponse where
  status : ℕ
  reason : String
  headers : Headers
  body : Bytes

/-- What `proxy_mcp_request` does: the request it makes of the upstream, if any, and what it
    returns. -/
def proxyMcpRequest (upstream : UpstreamRequest → UpstreamOutcome) (method : String)
    (binding : UpstreamBinding) (body : Bytes) (requestHeaders : Dict String String)
    (timeoutS : String) : Option UpstreamRequest × Except ProxyError ProxiedResponse :=
  match upstreamRequest method binding body requestHeaders timeoutS with
  | .error e => (none, .error e)
  | .ok request => (some request,
      match upstream request with
      | .failed => .error .upstreamUnavailable
      | .raised e => .error (.other e)
      | .response r =>
        .ok ⟨r.status, r.reason, selectHeaders r.headers forwardResponseHeaders, r.body⟩)

end DataRelay.Relay
