import DataRelay.UrlParts
import DataRelay.Relay.Exposure
import DataRelay.Relay.Server

/-! What the relay advertises of itself in OAuth mode, and whether the router serves it.

    The metadata documents and the challenge put fixed paths behind the public base URL. The
    loader wants the base URL to be an origin, and looks at its path only. -/

namespace DataRelay.Relay
open Lib

/-! ### The documents -/

/-- `issuer`. -/
def issuer (cfg : OAuth.Config) : String := cfg.publicBaseUrl

/-- `scopes_supported`. -/
def scopesSupported : List String := [OAuth.defaultScope]

/-- `protected_resource_metadata`. -/
def protectedResourceMetadata (cfg : OAuth.Config) : Json :=
  .obj [field "resource" cfg.resourceUrl, ("authorization_servers", OAuth.strs [issuer cfg]),
    ("scopes_supported", OAuth.strs scopesSupported),
    ("bearer_methods_supported", OAuth.strs ["header"]),
    field "resource_documentation" (issuer cfg ++ "/health")]

/-- `authorization_server_metadata`. -/
def authorizationServerMetadata (cfg : OAuth.Config) : Json :=
  let base := issuer cfg
  .obj [field "issuer" base,
    field "authorization_endpoint" (base ++ "/oauth/authorize"),
    field "token_endpoint" (base ++ "/oauth/token"),
    field "registration_endpoint" (base ++ "/oauth/register"),
    field "revocation_endpoint" (base ++ "/oauth/revoke"),
    ("response_types_supported", OAuth.strs ["code"]),
    ("grant_types_supported", OAuth.strs ["authorization_code", "refresh_token"]),
    ("code_challenge_methods_supported", OAuth.strs ["S256"]),
    ("token_endpoint_auth_methods_supported", OAuth.strs ["none"]),
    ("scopes_supported", OAuth.strs scopesSupported),
    ("authorization_response_iss_parameter_supported", .bool true),
    ("revocation_endpoint_auth_methods_supported", OAuth.strs ["none"]),
    ("client_id_metadata_document_supported", .bool false)]

/-- `_default_error_description`. -/
def defaultErrorDescription (error : String) : String :=
  if error = "insufficient_scope" then "missing required scope" else "authentication required"

/-- `or`: the text, or the default for an empty one or none. -/
def orElse (text : Option String) (default : String) : String := (truthy text).getD default

/-- `error.replace("\\", "").replace('"', "")`. -/
def safeError (error : String) : String :=
  String.ofList (error.toList.filter fun c => c ≠ '\\' && c ≠ '"')

/-- A description without what a quoted string cannot hold. -/
def safeDescription (isprintable : Char → Bool) (error description : String) : String :=
  let desc := strip (String.ofList (description.toList.filter fun c =>
    isprintable c && c ≠ '"' && c ≠ '\\'))
  if desc = "" then defaultErrorDescription error else desc

/-- A parameter of a challenge. -/
def quoted (name value : String) : String := name ++ "=\"" ++ value ++ "\""

/-- The parameters of a challenge that name an error. -/
def errorParts (isprintable : Char → Bool) (error description : Option String) : List String :=
  match truthy error with
  | none => []
  | some error => [quoted "error" (safeError error), quoted "error_description"
      (safeDescription isprintable error (orElse description (defaultErrorDescription error)))]

/-- `www_authenticate`. -/
def wwwAuthenticate (isprintable : Char → Bool) (cfg : OAuth.Config)
    (error description scope : Option String) : String :=
  String.intercalate ", " (
    [quoted "Bearer resource_metadata" (issuer cfg ++ "/.well-known/oauth-protected-resource"),
      quoted "scope" (orElse scope OAuth.defaultScope)] ++
    errorParts isprintable error description)

/-! ### What a client makes of them -/

/-- The text of a quoted string, from behind its first quote: a backslash stands for the character
    behind it. -/
def quotedString : List Char → List Char
  | [] => []
  | '"' :: _ => []
  | '\\' :: c :: cs => c :: quotedString cs
  | c :: cs => c :: quotedString cs

/-- The URL that a challenge points to. -/
def challengeUrl (challenge : String) : String :=
  String.ofList (quotedString (challenge.toList.drop "Bearer resource_metadata=\"".length))

/-- The URL has the scheme and the authority of `origin`, the path, and nothing else. -/
def PointsTo (origin : Url.ParseResult) (url path : String) : Prop :=
  Url.urlparse url = .ok ⟨origin.scheme, origin.netloc, path.toList, [], [], []⟩

/-- Scheme and authority without user information, and nothing else. -/
def BareOrigin (p : Url.ParseResult) : Prop :=
  (p.scheme = "http".toList ∨ p.scheme = "https".toList) ∧ p.netloc ≠ [] ∧ '@' ∉ p.netloc ∧
    p.path = [] ∧ p.params = [] ∧ p.query = [] ∧ p.fragment = []

/-! ### What the router makes of them -/

/-- What answers a request. -/
abbrev Handler := Context → Request → Url.ParseResult → Bytes → Exchange

/-- A request for the path is given to the handler. -/
def Dispatched (method : Method) (path : String) (handler : Handler) : Prop :=
  ∀ ctx req parsed stream, req.method = method → Url.urlparse req.path = .ok parsed →
    parsed.path = path.toList → handle ctx req stream = handler ctx req parsed stream

/-- Where the documents give the URL of an endpoint, and who is meant to serve it. -/
structure Endpoint where
  url : OAuth.Config → Option Json
  path : String
  method : Method
  handler : Handler

/-- An endpoint that the metadata of the server names. -/
def serverEndpoint (key path : String) (method : Method) (handler : Handler) : Endpoint :=
  ⟨fun cfg => (authorizationServerMetadata cfg).get? key, path, method, handler⟩

/-- The documentation, which is the health page. -/
def healthEndpoint : Endpoint :=
  ⟨fun cfg => (protectedResourceMetadata cfg).get? "resource_documentation", "/health", .get,
    fun ctx _ _ stream => handleHealth ctx stream⟩

/-- The endpoints that the two documents name. -/
def endpoints : List Endpoint :=
  [serverEndpoint "authorization_endpoint" "/oauth/authorize" .get
      (fun ctx _ parsed stream => handleAuthorizeGet ctx (String.ofList parsed.query) stream),
    serverEndpoint "authorization_endpoint" "/oauth/authorize" .post
      (fun ctx req _ stream => handleAuthorizePost ctx req stream),
    serverEndpoint "token_endpoint" "/oauth/token" .post
      (fun ctx req _ stream => handleToken ctx req stream),
    serverEndpoint "registration_endpoint" "/oauth/register" .post
      (fun ctx req _ stream => handleRegister ctx req stream),
    serverEndpoint "revocation_endpoint" "/oauth/revoke" .post
      (fun ctx req _ stream => handleRevoke ctx req stream),
    healthEndpoint]

theorem dispatched_get {path : String} {handler : Handler}
    (h : ∀ ctx req parsed stream, parsed.path = path.toList →
      doGet ctx req parsed stream = handler ctx req parsed stream) :
    Dispatched .get path handler := by
  intro ctx req parsed stream hmethod hparsed hpath
  rw [handle, hparsed, hmethod]
  exact h ctx req parsed stream hpath

theorem dispatched_post {path : String} {handler : Handler}
    (h : ∀ ctx req parsed stream, parsed.path = path.toList →
      doPost ctx req parsed stream = handler ctx req parsed stream) :
    Dispatched .post path handler := by
  intro ctx req parsed stream hmethod hparsed hpath
  rw [handle, hparsed, hmethod]
  exact h ctx req parsed stream hpath

/-- Every endpoint has its path in the router. -/
theorem endpoints_dispatched : ∀ e ∈ endpoints, Dispatched e.method e.path e.handler := by
  simp only [endpoints, serverEndpoint, healthEndpoint, List.forall_mem_cons, List.not_mem_nil,
    false_imp_iff, implies_true, and_true]
  refine ⟨dispatched_get ?_, dispatched_post ?_, dispatched_post ?_, dispatched_post ?_,
    dispatched_post ?_, dispatched_get ?_⟩
  all_goals
    intro ctx req parsed stream hpath
    simp [doGet, doPost, hpath]

theorem metadata_dispatched : Dispatched .get "/.well-known/oauth-protected-resource"
    fun ctx _ _ stream => handleProtectedResourceMetadata ctx stream :=
  dispatched_get fun ctx req parsed stream hpath => by simp [doGet, hpath]

/-- The base URL is a bare origin, every endpoint of the documents and the challenge points to the
    place in it where the router serves that endpoint, and so does the default resource. -/
def Advertised (isprintable : Char → Bool) (env : Dict String String) (cfg : RelayConfig) : Prop :=
  ∃ base parsed, cfg.publicBaseUrl = some base ∧ Url.urlparse base = .ok parsed ∧
    BareOrigin parsed ∧
    (∀ e ∈ endpoints, Dispatched e.method e.path e.handler ∧
      ∃ url, e.url cfg.oauth = some (.str url) ∧ PointsTo parsed url e.path) ∧
    (Dispatched .get "/.well-known/oauth-protected-resource"
        (fun ctx _ _ stream => handleProtectedResourceMetadata ctx stream) ∧
      ∀ error description scope, PointsTo parsed
        (challengeUrl (wwwAuthenticate isprintable cfg.oauth error description scope))
        "/.well-known/oauth-protected-resource") ∧
    (stripSlashes (setting env "DRLINK_RELAY_RESOURCE_URL" "") = "" →
      ∃ url, cfg.resourceUrl = some url ∧ PointsTo parsed url "/mcp")

/-- The base URL that is set, without the spaces around it and the slashes behind it. -/
def publicBase (env : Dict String String) : String :=
  stripSlashes (setting env "DRLINK_RELAY_PUBLIC_BASE_URL" "")

/-- The URL ends with its authority, which names no user and has nothing in it that a quoted string
    would end with or leave out. -/
def EndsWithAuthority (url : String) : Prop :=
  Url.behindAuthority url.toList = [] ∧ '@' ∉ url.toList ∧ '"' ∉ url.toList ∧ '\\' ∉ url.toList

/-! ### Pointing to a path -/

section Points
variable {base : String} {origin : Url.ParseResult}

theorem pointsTo_append (h : Url.urlparse base = .ok origin) (hs : origin.scheme ≠ [])
    (hn : origin.netloc ≠ []) {path : String} (hpath : Url.Plain path.toList)
    (hb : Url.behindAuthority base.toList = []) : PointsTo origin (base ++ path) path := by
  rw [PointsTo, Url.urlparse_append h hs hn hpath, hb, List.nil_append, Url.parts_plain hpath]

/-- Where the health endpoint is found, nothing is behind the authority. -/
theorem behind_of_pointsTo (h : Url.urlparse base = .ok origin) (hs : origin.scheme ≠ [])
    (hn : origin.netloc ≠ []) (hp : PointsTo origin (base ++ "/health") "/health") :
    Url.behindAuthority base.toList = [] := by
  rw [PointsTo, Url.urlparse_append h hs hn (by decide)] at hp
  have heq : Url.parts origin.scheme origin.netloc
      (Url.behindAuthority base.toList ++ '/' :: "health".toList) =
        ⟨origin.scheme, origin.netloc, '/' :: "health".toList, [], [], []⟩ := Except.ok.inj hp
  exact Url.parts_continued (by decide) (by decide) heq

end Points

/-! ### The challenge -/

/-- The characters with a meaning inside a quoted string. -/
def isQuoteMark (c : Char) : Bool := c == '"' || c == '\\'

theorem quotedString_cons {c : Char} (h : isQuoteMark c = false) (cs : List Char) :
    quotedString (c :: cs) = c :: quotedString cs := by
  rw [quotedString]
  · rintro rfl
    cases h
  · rintro _ _ rfl
    cases h

theorem quotedString_plain (rest : List Char) :
    ∀ {text : List Char}, (∀ c ∈ text, isQuoteMark c = false) →
      quotedString (text ++ '"' :: rest) = text
  | [], _ => rfl
  | c :: cs, h => by
    obtain ⟨hc, hcs⟩ := List.forall_mem_cons.mp h
    rw [List.cons_append, quotedString_cons hc, quotedString_plain rest hcs]

/-- Of the marks in a text, those that have their meaning are lost. -/
theorem quotedString_marks (path : List Char) (rest : List Char)
    (hpath : ∀ c ∈ '/' :: path, isQuoteMark c = false) : ∀ text : List Char,
      (quotedString (text ++ '/' :: path ++ '"' :: rest)).countP isQuoteMark ≤
        text.countP isQuoteMark - 1
  | [] => by
    rw [List.nil_append, quotedString_plain rest hpath]
    exact (List.countP_eq_zero.mpr fun c hc => by simp [hpath c hc]).le
  | c :: text => by
    by_cases hc : isQuoteMark c = true
    · rw [isQuoteMark, Bool.or_eq_true, beq_iff_eq, beq_iff_eq] at hc
      rcases hc with rfl | rfl
      · -- a quote ends the string at once
        simp [quotedString]
      -- a backslash is dropped and keeps what it escapes, so a mark is lost either way
      cases text with
      | nil =>
        have hrest := List.forall_mem_cons.mp hpath
        have hq : quotedString (['\\'] ++ '/' :: path ++ '"' :: rest) =
            '/' :: quotedString (path ++ '"' :: rest) := rfl
        rw [hq, quotedString_plain rest hrest.2]
        exact (List.countP_eq_zero.mpr fun c hc => by simp [hpath c hc]).le
      | cons d text =>
        have ih := quotedString_marks path rest hpath text
        have hq : quotedString ('\\' :: d :: text ++ '/' :: path ++ '"' :: rest) =
            d :: quotedString (text ++ '/' :: path ++ '"' :: rest) := rfl
        have hmark : isQuoteMark '\\' = true := rfl
        simp only [hq, List.countP_cons, hmark, if_true]
        omega
    · have ih := quotedString_marks path rest hpath text
      rw [List.cons_append, List.cons_append, quotedString_cons (by simpa using hc),
        List.countP_cons_of_neg hc, List.countP_cons_of_neg hc]
      exact ih

/-- What a challenge begins with. -/
theorem wwwAuthenticate_url (isprintable : Char → Bool) (cfg : OAuth.Config)
    (error description scope : Option String) :
    ∃ rest, (wwwAuthenticate isprintable cfg error description scope).toList.drop
        "Bearer resource_metadata=\"".length =
      cfg.publicBaseUrl.toList ++ '/' :: ".well-known/oauth-protected-resource".toList ++
        '"' :: rest := by
  refine ⟨(", " ++ String.intercalate ", " (quoted "scope" (orElse scope OAuth.defaultScope) ::
    errorParts isprintable error description)).toList, ?_⟩
  rw [wwwAuthenticate, List.cons_append, List.cons_append, List.nil_append,
    String.intercalate_cons_cons]
  have hlead : "Bearer resource_metadata=\"".length =
      ("Bearer resource_metadata".toList ++ "=\"".toList).length := rfl
  simp only [quoted, issuer, String.toList_append, List.append_assoc]
  rw [hlead, ← List.append_assoc "Bearer resource_metadata".toList, List.drop_left]
  rfl

section Challenge
variable {isprintable : Char → Bool} {cfg : OAuth.Config} {error description scope : Option String}
  {origin : Url.ParseResult}

/-- Without marks in the base URL, the challenge points to the metadata behind it. -/
theorem challengeUrl_plain (h : ∀ c ∈ cfg.publicBaseUrl.toList, isQuoteMark c = false) :
    challengeUrl (wwwAuthenticate isprintable cfg error description scope) =
      cfg.publicBaseUrl ++ "/.well-known/oauth-protected-resource" := by
  obtain ⟨rest, hrest⟩ := wwwAuthenticate_url isprintable cfg error description scope
  have hpath : ∀ c ∈ '/' :: ".well-known/oauth-protected-resource".toList,
      isQuoteMark c = false := List.all_iff_forall_prop.mp (by decide)
  rw [challengeUrl, hrest, quotedString_plain, ← String.toList_inj, String.toList_ofList,
    String.toList_append]
  · rfl
  · intro c hc
    exact (List.mem_append.mp hc).elim (h c) (hpath c)

/-- A mark in the base URL is lost to the client, and with it the authority. -/
theorem marks_of_pointsTo (h : Url.urlparse cfg.publicBaseUrl = .ok origin)
    (hs : origin.scheme ≠ []) (hn : origin.netloc ≠ [])
    (hb : Url.behindAuthority cfg.publicBaseUrl.toList = [])
    (hp : PointsTo origin (challengeUrl (wwwAuthenticate isprintable cfg error description scope))
      "/.well-known/oauth-protected-resource") :
    ∀ c ∈ cfg.publicBaseUrl.toList, isQuoteMark c = false := by
  obtain ⟨rest, hrest⟩ := wwwAuthenticate_url isprintable cfg error description scope
  have hfree : ∀ c, isQuoteMark c = true →
      32 < c.toNat ∧ Url.schemeChar c = false ∧ c ≠ ':' ∧ c ≠ '/' := by
    intro c hc
    rw [isQuoteMark, Bool.or_eq_true, beq_iff_eq, beq_iff_eq] at hc
    rcases hc with rfl | rfl <;> decide
  have hbase := (Url.countP_netloc hfree h hs hn).2 hb
  have hread := (Url.countP_netloc hfree hp hs hn).1
  have hlost := quotedString_marks ".well-known/oauth-protected-resource".toList rest
    (List.all_iff_forall_prop.mp (by decide)) cfg.publicBaseUrl.toList
  simp only [challengeUrl, hrest, String.toList_ofList] at hread
  have hnone : cfg.publicBaseUrl.toList.countP isQuoteMark = 0 := by omega
  intro c hc
  simpa using List.countP_eq_zero.mp hnone c hc

end Challenge

/-! ### The configuration -/

/-- The public base URL of OAuth mode, and what the loader knows of it. -/
theorem loadConfig_base {getaddrinfo : Resolver} {float : String → Option Bool}
    {env : Dict String String} {cfg : RelayConfig}
    (h : loadConfig getaddrinfo float env = .ok cfg) (hmode : cfg.authMode = .oauth) :
    ∃ parsed resource, cfg.publicBaseUrl = some (publicBase env) ∧
      Url.urlparse (publicBase env) = .ok parsed ∧
      (parsed.scheme = "http".toList ∨ parsed.scheme = "https".toList) ∧ parsed.netloc ≠ [] ∧
      cfg.resourceUrl = some resource ∧ loadResource env (publicBase env) = .ok resource := by
  obtain ⟨-, -, -, hoauth, -⟩ := loadConfig_listener h
  rw [hmode] at hoauth
  obtain ⟨base, host, resource, secret, hbase, hresource, -, -, hurl, hres, -, -⟩ :=
    loadOAuth_ok hoauth
  obtain ⟨parsed, rfl, -, hparsed, -, hscheme, hnetloc, -⟩ := loadPublicBase_ok hbase
  exact ⟨parsed, resource, hurl, hparsed, hscheme.elim .inr fun hs => .inl hs.1, hnetloc, hres,
    hresource⟩

theorem loadResource_default {env : Dict String String} {base resource : String}
    (h : loadResource env base = .ok resource)
    (hnone : stripSlashes (setting env "DRLINK_RELAY_RESOURCE_URL" "") = "") :
    resource = base ++ "/mcp" := by
  simp only [loadResource, bind, Except.bind, pure, Except.pure, hnone, if_true] at h
  exact (Except.ok.inj h).symm

/-- User information is seen in the whole URL, when nothing is behind the authority. -/
theorem mem_netloc_iff {base : String} {parsed : Url.ParseResult}
    (h : Url.urlparse base = .ok parsed) (hs : parsed.scheme ≠ []) (hn : parsed.netloc ≠ [])
    (hb : Url.behindAuthority base.toList = []) : '@' ∈ parsed.netloc ↔ '@' ∈ base.toList := by
  have hfree : ∀ c, (c == '@') = true →
      32 < c.toNat ∧ Url.schemeChar c = false ∧ c ≠ ':' ∧ c ≠ '/' := by
    intro c hc
    obtain rfl := beq_iff_eq.mp hc
    decide
  have hcount := (Url.countP_netloc hfree h hs hn).2 hb
  rw [← List.count_pos_iff, ← List.count_pos_iff, List.count_eq_countP, List.count_eq_countP,
    hcount]

theorem parts_nil {parsed : Url.ParseResult} {base : String} (h : Url.urlparse base = .ok parsed)
    (hb : Url.behindAuthority base.toList = []) :
    parsed.path = [] ∧ parsed.params = [] ∧ parsed.query = [] ∧ parsed.fragment = [] := by
  obtain ⟨-, rfl⟩ := Url.urlparse_ok_iff.mp h
  simp [hb, Url.parts, Url.partition, Url.pathParams]

theorem publicBaseUrl_oauth {cfg : RelayConfig} {base : String}
    (h : cfg.publicBaseUrl = some base) : cfg.oauth.publicBaseUrl = base := by
  simp [RelayConfig.oauth, h]

/-- Every endpoint of the documents is its path behind the base URL. -/
theorem endpoint_url {cfg : RelayConfig} {base : String} (h : cfg.publicBaseUrl = some base) :
    ∀ e ∈ endpoints, e.url cfg.oauth = some (.str (base ++ e.path)) ∧
      Url.Plain e.path.toList := by
  have hbase := publicBaseUrl_oauth h
  simp only [endpoints, serverEndpoint, healthEndpoint, List.forall_mem_cons, List.not_mem_nil,
    false_imp_iff, implies_true, and_true]
  refine ⟨⟨?_, by decide⟩, ⟨?_, by decide⟩, ⟨?_, by decide⟩, ⟨?_, by decide⟩, ⟨?_, by decide⟩,
    ⟨?_, by decide⟩⟩
  all_goals
    simp [authorizationServerMetadata, protectedResourceMetadata, Json.get?, field, issuer, hbase]

section Load
variable {getaddrinfo : Resolver} {float : String → Option Bool} {env : Dict String String}
  {cfg : RelayConfig} {isprintable : Char → Bool}

theorem ends_of_advertised (h : loadConfig getaddrinfo float env = .ok cfg)
    (hmode : cfg.authMode = .oauth) (hadv : Advertised isprintable env cfg) :
    EndsWithAuthority (publicBase env) := by
  obtain ⟨parsed, resource, hurl, hparsed, hscheme, hn, -, -⟩ := loadConfig_base h hmode
  have hs : parsed.scheme ≠ [] := by
    rcases hscheme with hs | hs <;> rw [hs] <;> decide
  have hbase := publicBaseUrl_oauth hurl
  obtain ⟨base, origin, hurl', horigin, hbare, hend, ⟨-, hchallenge⟩, -⟩ := hadv
  obtain rfl := Option.some.inj (hurl'.symm.trans hurl)
  obtain rfl := Except.ok.inj (horigin.symm.trans hparsed)
  -- the health address is the base and a path: nothing may stand behind the authority
  have hb : Url.behindAuthority (publicBase env).toList = [] := by
    obtain ⟨-, url, hhealth, hpoints⟩ := hend healthEndpoint (by simp [endpoints])
    rw [(endpoint_url hurl healthEndpoint (by simp [endpoints])).1] at hhealth
    obtain rfl := Json.str.inj (Option.some.inj hhealth)
    exact behind_of_pointsTo hparsed hs hn hpoints
  have hat := mt (mem_netloc_iff hparsed hs hn hb).mpr hbare.2.2.1
  rw [← hbase] at hb hparsed
  -- the challenge quotes the base, so a mark in it would be cut or dropped
  have hmarks := marks_of_pointsTo hparsed hs hn hb (hchallenge none none none)
  rw [hbase] at hb hmarks
  refine ⟨hb, hat, ?_, ?_⟩
  · exact fun hq => by simpa [isQuoteMark] using hmarks _ hq
  · exact fun hq => by simpa [isQuoteMark] using hmarks _ hq

theorem advertised_of_ends (h : loadConfig getaddrinfo float env = .ok cfg)
    (hmode : cfg.authMode = .oauth) (hends : EndsWithAuthority (publicBase env)) :
    Advertised isprintable env cfg := by
  obtain ⟨parsed, resource, hurl, hparsed, hscheme, hn, hres, hresource⟩ := loadConfig_base h hmode
  have hs : parsed.scheme ≠ [] := by
    rcases hscheme with hs | hs <;> rw [hs] <;> decide
  have hbase := publicBaseUrl_oauth hurl
  obtain ⟨hb, hat, hquote, hslash⟩ := hends
  refine ⟨_, parsed, hurl, hparsed, ⟨hscheme, hn, ?_, parts_nil hparsed hb⟩, ?_, ?_, ?_⟩
  · rwa [mem_netloc_iff hparsed hs hn hb]
  · -- each endpoint is the base with its own path appended
    intro e he
    obtain ⟨heq, hplain⟩ := endpoint_url hurl e he
    exact ⟨endpoints_dispatched e he, _, heq, pointsTo_append hparsed hs hn hplain hb⟩
  · refine ⟨metadata_dispatched, fun error description scope => ?_⟩
    rw [challengeUrl_plain, hbase]
    · exact pointsTo_append hparsed hs hn (by decide) hb
    · intro c hc
      rw [hbase] at hc
      rw [isQuoteMark, Bool.or_eq_false_iff, beq_eq_false_iff_ne, beq_eq_false_iff_ne]
      exact ⟨fun hcq => hquote (hcq ▸ hc), fun hcs => hslash (hcs ▸ hc)⟩
  · -- without a resource of its own it is the base and `/mcp`
    intro hnone
    obtain rfl := loadResource_default hresource hnone
    exact ⟨_, hres, pointsTo_append hparsed hs hn (by decide) hb⟩

end Load

/-- What is advertised is served exactly when the base URL ends with its authority. -/
theorem advertised_iff {getaddrinfo : Resolver} {float : String → Option Bool}
    {env : Dict String String} {cfg : RelayConfig} {isprintable : Char → Bool}
    (h : loadConfig getaddrinfo float env = .ok cfg) (hmode : cfg.authMode = .oauth) :
    Advertised isprintable env cfg ↔ EndsWithAuthority (publicBase env) :=
  ⟨ends_of_advertised h hmode, advertised_of_ends h hmode⟩

instance (url : String) : Decidable (EndsWithAuthority url) := by
  unfold EndsWithAuthority
  infer_instance

theorem advertised_sample :
    Advertised Char.isAlphanum (oauthEnv "https://relay.example")
      (oauthConfig "https://relay.example") :=
  (advertised_iff oauthEnv_loads rfl).mpr (by decide +kernel)

/-- With a question mark behind the authority the endpoints are all in the query. -/
theorem query_not_served :
    loadConfig (answering "8.8.8.8") (fun _ => some true) (oauthEnv "https://relay.example?x") =
        .ok (oauthConfig "https://relay.example?x") ∧
      Url.urlparse "https://relay.example?x/oauth/token" =
        .ok ⟨"https".toList, "relay.example".toList, [], [], "x/oauth/token".toList, []⟩ ∧
      ¬ Advertised Char.isAlphanum (oauthEnv "https://relay.example?x")
        (oauthConfig "https://relay.example?x") := by
  have hload : loadConfig (answering "8.8.8.8") (fun _ => some true)
      (oauthEnv "https://relay.example?x") = .ok (oauthConfig "https://relay.example?x") := by
    decide +kernel
  refine ⟨hload, by decide +kernel, fun hadv => ?_⟩
  exact absurd (ends_of_advertised hload rfl hadv) (by decide +kernel)

end DataRelay.Relay
