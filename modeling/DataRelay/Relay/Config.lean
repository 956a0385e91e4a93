import DataRelay.OAuth.Records
import DataRelay.Relay.IpAddress

/-! `load_config`, and what it asks of the upstream: the URL, and every address its host resolves
    to.

    The resolver is a function from a host name to the texts of the addresses it answers with. What
    `float` makes of a text is taken from outside; a timeout is kept as its text. -/

namespace DataRelay.Relay
open Lib

/-- `ConfigError`, and what else gets out of `load_config`. -/
inductive ConfigError where
  | config (message : String)
  | other (e : PyError)
deriving DecidableEq

/-- The two modes of authentication. -/
inductive AuthMode where
  | mock
  | oauth
deriving DecidableEq

/-- `RelayConfig`. -/
structure RelayConfig where
  bindHost : String
  bindPort : ℤ
  upstreamUrl : String
  upstreamConnectIps : List IpAddress
  upstreamToken : Option String
  allowLoopbackUpstream : Bool
  mockPluginToken : String
  requestTimeoutS : String
  authMode : AuthMode
  publicBaseUrl : Option String
  resourceUrl : Option String
  ownerApprovalSecret : Option String
  allowNonLoopbackBind : Bool
  oauthStatePath : Option String
  oauthAllowEphemeral : Bool
deriving DecidableEq

/-- What the authorization server is given of the configuration. -/
def RelayConfig.oauth (cfg : RelayConfig) : OAuth.Config where
  publicBaseUrl := cfg.publicBaseUrl.getD ""
  resourceUrl := cfg.resourceUrl.getD ""
  ownerApprovalSecret := cfg.ownerApprovalSecret
  oauthStatePath := cfg.oauthStatePath

/-- `DEFAULT_MOCK_PLUGIN_TOKEN`. -/
def defaultMockPluginToken : String := "dev-plugin-token"

/-- `socket.getaddrinfo`: the addresses in the answer, or `osError` for a `gaierror`. -/
abbrev Resolver := String → Except PyError (List String)

/-! ### The upstream -/

/-- What `strip("[]")` takes away. -/
def isBracket (c : Char) : Bool := c == '[' || c == ']'

/-- `hostname.strip("[]")`. -/
def stripBrackets (s : String) : String :=
  String.ofList ((s.toList.dropWhile isBracket).reverse.dropWhile isBracket).reverse

/-- `_is_loopback_host`. -/
def isLoopbackHost (hostname : String) : Bool :=
  let host := lower (stripBrackets hostname)
  ["localhost", "127.0.0.1", "::1"].contains host || (ipAddress host).any IpAddress.isLoopback

/-- A loopback address that the environment does not allow. -/
def loopbackDenied : ConfigError :=
  .config "loopback upstream requires DRLINK_RELAY_ALLOW_LOOPBACK_UPSTREAM=1"

/-- One of the predicates that block an address. -/
def IpAddress.isBlocked (ip : IpAddress) : Bool :=
  ip.isPrivate || ip.isLinkLocal || ip.isMulticast || ip.isReserved || ip.isUnspecified

/-- `assert_connect_ip_allowed`, on an address that was read. -/
def assertIpAllowed (ip : IpAddress) (allowLoopback : Bool) : Except ConfigError IpAddress :=
  if ip.isLoopback then if allowLoopback then .ok ip else .error loopbackDenied
  else if ip.isBlocked then
    .error (.config ("upstream resolves to a non-public address which is blocked: " ++ ip.text))
  else .ok ip

/-- `assert_connect_ip_allowed`. -/
def assertConnectIpAllowed (ipStr : String) (allowLoopback : Bool) :
    Except ConfigError IpAddress :=
  match ipAddress ipStr with
  | none => .error (.config ("invalid upstream connect address: " ++ ipStr))
  | some ip => assertIpAllowed ip allowLoopback

/-- The loop over the resolver's answer; `allowed` are the addresses already accepted. -/
def collectAllowed (allowLoopback : Bool) :
    List IpAddress → List String → Except ConfigError (List IpAddress)
  | allowed, [] => .ok allowed
  | allowed, info :: infos =>
    match assertConnectIpAllowed info allowLoopback with
    | .error e => .error e
    | .ok ip =>
      collectAllowed allowLoopback (if allowed.contains ip then allowed else allowed ++ [ip]) infos

/-- A host name without an address. -/
def unresolved (host : String) : ConfigError :=
  .config ("upstream hostname cannot be resolved: " ++ host)

/-- The name that is given to the resolver. -/
def lookupName (hostname : String) : String := lower (stripBrackets hostname)

/-- `_resolve_allowed_ips`. -/
def resolveAllowedIps (getaddrinfo : Resolver) (hostname : String) (allowLoopback : Bool) :
    Except ConfigError (List IpAddress) :=
  if hostname = "" then .error (.config "upstream URL hostname is required")
  else
    let host := lookupName hostname
    if ["metadata.google.internal", "metadata"].contains host then
      .error (.config "upstream hostname is blocked")
    else match getaddrinfo host with
      | .error .osError => .error (unresolved host)
      | .error e => .error (.other e)
      | .ok infos =>
        if infos = [] then .error (unresolved host)
        else match collectAllowed allowLoopback [] infos with
          | .error e => .error e
          | .ok allowed => if allowed = [] then .error (unresolved host) else .ok allowed

/-- `ValidatedUpstream`. -/
structure ValidatedUpstream where
  url : String
  hostname : String
  connectIps : List IpAddress

/-- `urlparse`, with a refused URL as an error of the loader. -/
def parseUrl (url : String) : Except ConfigError Url.ParseResult :=
  (Url.urlparse url).mapError .other

/-- `validate_upstream_binding`. -/
def validateUpstreamBinding (getaddrinfo : Resolver) (url : String) (allowLoopback : Bool) :
    Except ConfigError ValidatedUpstream := do
  let raw := strip url
  if raw = "" then .error (.config "DRLINK_RELAY_UPSTREAM_URL is required")
  let parsed ← parseUrl raw
  if parsed.scheme ≠ "http".toList ∧ parsed.scheme ≠ "https".toList then
    .error (.config "upstream URL scheme must be http or https")
  let hostname := (Url.parsedHostname parsed).getD ""
  if hostname = "" then .error (.config "upstream URL must include a hostname")
  if Url.hasCredentials parsed then
    .error (.config "upstream URL must not embed credentials")
  if parsed.fragment ≠ [] then .error (.config "upstream URL must not include a fragment")
  if parsed.scheme = "http".toList ∧ isLoopbackHost hostname = false then
    .error (.config "non-loopback upstream URLs must use https")
  if isLoopbackHost hostname = true ∧ allowLoopback = false then .error loopbackDenied
  let connectIps ← resolveAllowedIps getaddrinfo hostname allowLoopback
  return ⟨raw, stripBrackets hostname, connectIps⟩

/-! ### The environment -/

/-- `env.get(key, "").strip()` is one of the spellings of true. -/
def flag (env : Dict String String) (key : String) : Bool :=
  ["1", "true", "TRUE", "yes", "YES"].contains (strip (getD env key ""))

/-- `(env.get(key) or default).strip()`. -/
def setting (env : Dict String String) (key default : String) : String :=
  strip (if getD env key "" = "" then default else getD env key "")

/-- `rstrip("/")`. -/
def stripSlashes (s : String) : String :=
  String.ofList (s.toList.reverse.dropWhile (· == '/')).reverse

/-- The upstream token, when there is one that is not blank. -/
def loadToken (env : Dict String String) : Option String :=
  let token := strip (getD env "DRLINK_RELAY_UPSTREAM_TOKEN" "")
  if token = "" then none else some token

/-- The port, by `int`. -/
def loadPort (env : Dict String String) : Except ConfigError ℤ :=
  match int (setting env "DRLINK_RELAY_PORT" "8741") with
  | .error _ => .error (.config "DRLINK_RELAY_PORT must be an integer")
  | .ok port =>
    if 1 ≤ port ∧ port ≤ 65535 then .ok port
    else .error (.config "DRLINK_RELAY_PORT out of range")

/-- `float` says whether a text is a number, and whether the number is above zero (or no number that
    compares). -/
def loadTimeout (float : String → Option Bool) (env : Dict String String) :
    Except ConfigError String :=
  let raw := setting env "DRLINK_RELAY_TIMEOUT_S" "30"
  match float raw with
  | none => .error (.config "DRLINK_RELAY_TIMEOUT_S must be a number")
  | some false => .error (.config "DRLINK_RELAY_TIMEOUT_S must be positive")
  | some true => .ok raw

/-- The mode of authentication. -/
def loadAuthMode (env : Dict String String) : Except ConfigError AuthMode :=
  let mode := lower (setting env "DRLINK_RELAY_AUTH_MODE" "mock")
  if mode = "mock" then .ok .mock
  else if mode = "oauth" then .ok .oauth
  else .error (.config "DRLINK_RELAY_AUTH_MODE must be 'mock' or 'oauth'")

/-- The token of the mock mode, which may not be empty. -/
def loadMockToken (env : Dict String String) : Except ConfigError String :=
  let token := match env.get? "DRLINK_RELAY_MOCK_PLUGIN_TOKEN" with
    | none => defaultMockPluginToken
    | some token => strip token
  if token = "" then .error (.config "DRLINK_RELAY_MOCK_PLUGIN_TOKEN must not be empty")
  else .ok token

/-- An absolute HTTP or HTTPS URL, parsed. -/
def parseAbsolute (key url : String) : Except ConfigError Url.ParseResult := do
  let parsed ← parseUrl url
  if (parsed.scheme ≠ "http".toList ∧ parsed.scheme ≠ "https".toList) ∨ parsed.netloc = [] then
    .error (.config (key ++ " must be an absolute http(s) URL"))
  else return parsed

/-- The public origin of the relay, and the host in it. -/
def loadPublicBase (env : Dict String String) : Except ConfigError (String × String) := do
  let raw := stripSlashes (setting env "DRLINK_RELAY_PUBLIC_BASE_URL" "")
  if raw = "" then
    .error (.config ("oauth mode requires DRLINK_RELAY_PUBLIC_BASE_URL " ++
      "(canonical public HTTPS origin of the relay)"))
  let parsed ← parseAbsolute "DRLINK_RELAY_PUBLIC_BASE_URL" raw
  let host := (Url.parsedHostname parsed).getD ""
  if parsed.scheme = "http".toList ∧ isLoopbackHost host = false then
    .error (.config "non-loopback DRLINK_RELAY_PUBLIC_BASE_URL must use https")
  if parsed.path ≠ [] ∧ parsed.path ≠ ['/'] then
    .error (.config ("DRLINK_RELAY_PUBLIC_BASE_URL must be an origin (no path); " ++
      "set DRLINK_RELAY_RESOURCE_URL for a non-default MCP resource URI"))
  return (raw, host)

/-- The resource URL, which the public base URL stands in for. -/
def loadResource (env : Dict String String) (publicBaseUrl : String) :
    Except ConfigError String := do
  let raw := stripSlashes (setting env "DRLINK_RELAY_RESOURCE_URL" "")
  if raw = "" then return publicBaseUrl ++ "/mcp"
  let _ ← parseAbsolute "DRLINK_RELAY_RESOURCE_URL" raw
  return raw

/-- The owner's approval secret, which may not be empty. -/
def loadOwnerSecret (env : Dict String String) : Except ConfigError String :=
  let secret := strip (getD env "DRLINK_RELAY_OWNER_APPROVAL_SECRET" "")
  if secret = "" then
    .error (.config ("oauth mode requires DRLINK_RELAY_OWNER_APPROVAL_SECRET " ++
      "(runtime owner approval secret; never commit it)"))
  else if secret.length < 16 then
    .error (.config "DRLINK_RELAY_OWNER_APPROVAL_SECRET must be at least 16 characters")
  else .ok secret

/-- The state path: a public listener or origin needs one, a local one has to say that it wants
    none. -/
def loadStatePath (env : Dict String String) (bindHost publicHost : String) :
    Except ConfigError (Option String) :=
  let raw := setting env "DRLINK_RELAY_OAUTH_STATE_PATH" ""
  let ephemeral := flag env "DRLINK_RELAY_OAUTH_ALLOW_EPHEMERAL"
  if raw ≠ "" then
    if ephemeral then
      .error (.config ("DRLINK_RELAY_OAUTH_ALLOW_EPHEMERAL cannot be set together with " ++
        "DRLINK_RELAY_OAUTH_STATE_PATH"))
    else .ok (some raw)
  else if isLoopbackHost bindHost = false ∨ isLoopbackHost publicHost = false then
    .error (.config ("public/non-loopback oauth mode requires DRLINK_RELAY_OAUTH_STATE_PATH " ++
      "(durable client/refresh state)"))
  else if ephemeral = false then
    .error (.config ("loopback oauth mode requires DRLINK_RELAY_OAUTH_STATE_PATH " ++
      "or explicit DRLINK_RELAY_OAUTH_ALLOW_EPHEMERAL=1 for tests"))
  else .ok none

/-- A listener that others reach needs OAuth, or a mock token of its own. -/
def checkBind (bindHost : String) (authMode : AuthMode) (allowNonLoopbackBind : Bool)
    (mockPluginToken : String) : Except ConfigError Unit :=
  if isLoopbackHost bindHost = true ∨ authMode = .oauth then .ok ()
  else if allowNonLoopbackBind = false then
    .error (.config ("non-loopback bind requires DRLINK_RELAY_AUTH_MODE=oauth " ++
      "(or legacy DRLINK_RELAY_ALLOW_NON_LOOPBACK_BIND=1 for local mock only)"))
  else if mockPluginToken = defaultMockPluginToken then
    .error (.config ("non-loopback bind rejects the default mock plugin token; " ++
      "set an explicit strong DRLINK_RELAY_MOCK_PLUGIN_TOKEN"))
  else .ok ()

/-- The settings that only OAuth mode has, without it all absent. -/
structure OAuthSettings where
  publicBaseUrl : Option String
  resourceUrl : Option String
  ownerApprovalSecret : Option String
  oauthStatePath : Option String
  oauthAllowEphemeral : Bool

/-- The settings that the OAuth mode adds. -/
def loadOAuth (env : Dict String String) (bindHost : String) :
    AuthMode → Except ConfigError OAuthSettings
  | .mock => .ok ⟨none, none, none, none, false⟩
  | .oauth => do
    let (publicBaseUrl, publicHost) ← loadPublicBase env
    let resourceUrl ← loadResource env publicBaseUrl
    let ownerApprovalSecret ← loadOwnerSecret env
    let oauthStatePath ← loadStatePath env bindHost publicHost
    return ⟨some publicBaseUrl, some resourceUrl, some ownerApprovalSecret, oauthStatePath,
      flag env "DRLINK_RELAY_OAUTH_ALLOW_EPHEMERAL"⟩

/-- The environment allows a loopback upstream. -/
def allowLoopback (env : Dict String String) : Bool :=
  flag env "DRLINK_RELAY_ALLOW_LOOPBACK_UPSTREAM"

/-- `load_config`: the settings in the order of the source, the first problem stops it. -/
def loadConfig (getaddrinfo : Resolver) (float : String → Option Bool)
    (env : Dict String String) : Except ConfigError RelayConfig := do
  let upstream ← validateUpstreamBinding getaddrinfo (getD env "DRLINK_RELAY_UPSTREAM_URL" "")
    (allowLoopback env)
  let bindHost := setting env "DRLINK_RELAY_BIND" "127.0.0.1"
  let bindPort ← loadPort env
  let requestTimeoutS ← loadTimeout float env
  let authMode ← loadAuthMode env
  let mockPluginToken ← loadMockToken env
  let allowNonLoopbackBind := flag env "DRLINK_RELAY_ALLOW_NON_LOOPBACK_BIND"
  let oauth ← loadOAuth env bindHost authMode
  checkBind bindHost authMode allowNonLoopbackBind mockPluginToken
  return {
    bindHost := bindHost
    bindPort := bindPort
    upstreamUrl := upstream.url
    upstreamConnectIps := upstream.connectIps
    upstreamToken := loadToken env
    allowLoopbackUpstream := allowLoopback env
    mockPluginToken := mockPluginToken
    requestTimeoutS := requestTimeoutS
    authMode := authMode
    publicBaseUrl := oauth.publicBaseUrl
    resourceUrl := oauth.resourceUrl
    ownerApprovalSecret := oauth.ownerApprovalSecret
    allowNonLoopbackBind := allowNonLoopbackBind
    oauthStatePath := oauth.oauthStatePath
    oauthAllowEphemeral := oauth.oauthAllowEphemeral }

end DataRelay.Relay
