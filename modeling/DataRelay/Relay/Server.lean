import DataRelay.OAuth.Payload
import DataRelay.Relay.Proxy

/-! `RelayRequestHandler`: what it does with one request on a connection.

    A handler gets the bytes that follow the head of its request. It takes some of them as the body,
    may make a request of the upstream, and answers, or an exception leaves it and the connection is
    closed. Headers are collected in a buffer that goes out when the headers end: an exception in
    between leaves the buffer as it is. `Server` and `Date`, which `http.server` adds, are left
    out. -/

namespace DataRelay.Relay
open Lib

/-- The methods that the handler has an answer for. -/
inductive Method where
  | get
  | post
  | delete
deriving DecidableEq

/-- The head of a request. -/
structure Request where
  method : Method
  path : String
  headers : Headers
deriving DecidableEq

/-- What the handlers take from outside: decoding, and the texts of JSON values. -/
structure Codec where
  decode : Bytes → Except PyError String
  loads : String → Except PyError Json
  dumps : Json → Bytes
  encode : String → Bytes
  str : Json → String
  parseQs : String → List (String × List String)
  parseQsKeepingBlanks : String → List (String × List String)

/-- What the OAuth service answers to the calls of one request. -/
structure OAuthCalls where
  registerClient : Json → String → Except PyError Json
  beginAuthorization : Dict String String → String →
    Except PyError (OAuth.PendingAuthorization ⊕ List (String × String))
  completeAuthorization : OAuth.CompleteRequest → Except PyError String
  pending : String → Option OAuth.PendingAuthorization
  exchangeToken : Dict String String → Except PyError Json
  revoke : Dict String String → Except PyError Unit
  consentHtml : OAuth.PendingAuthorization → Option String → String
  protectedResourceMetadata : Json
  authorizationServerMetadata : Json
  wwwAuthenticate : String → String → String

/-- What the handlers use: the bindings, the OAuth service, its calls, and the network. -/
structure Context where
  bindings : BindingResolver
  env : OAuth.Env
  upstream : UpstreamRequest → UpstreamOutcome
  codec : Codec
  calls : OAuthCalls
  source : String
  version : String

/-- There is an OAuth service, which `_require_oauth` asks for. -/
def Context.oauthEnabled (ctx : Context) : Bool := ctx.bindings.oauth.isSome

/-! ### Reading -/

/-- `self.headers.get(name)`: the first header of that name, in any case of letters. -/
def header? (headers : Headers) (name : String) : Option String :=
  (headers.find? fun e => lower e.1 = lower name).map Prod.snd

/-- `int(self.headers.get("Content-Length") or "0")`. -/
def contentLength (headers : Headers) : Except PyError ℤ :=
  int ((truthy (header? headers "Content-Length")).getD "0")

/-- The longest body that is read. -/
def maxBody : ℤ := 16 * 1024 * 1024

/-- `_read_body`: the body, or a `ValueError`, and what is left to read. -/
def readBody (headers : Headers) (stream : Bytes) : Except PyError Bytes × Bytes :=
  match contentLength headers with
  | .error e => (.error e, stream)
  | .ok length =>
    if length < 0 ∨ maxBody < length then (.error .valueError, stream)
    else (.ok (stream.take length.toNat), stream.drop length.toNat)

/-! ### Writing -/

/-- One line of the buffered head of a response. -/
inductive Line where
  | status (code : ℕ)
  | header (name value : String)
deriving DecidableEq

/-- A response as it goes out: the lines of its head, and its body. -/
structure Response where
  head : List Line
  body : Bytes
deriving DecidableEq

/-- The headers buffer after an attempt to send, and the response or the exception. -/
structure Sent where
  buffer : List Line
  result : Except PyError Response

/-- A header goes out as Latin-1. -/
def isLatin1 (s : String) : Bool := s.toList.all fun c => c.toNat < 256

/-- `http.server` can encode the header. -/
def headerOk (e : String × String) : Bool := isLatin1 e.1 && isLatin1 e.2

/-- `send_response`, `send_header` for each header, `end_headers`, and the body. -/
def send (buffer : List Line) (status : ℕ) (headers : Headers) (body : Bytes) : Sent :=
  let lines := (headers.takeWhile headerOk).map fun e => Line.header e.1 e.2
  let buffer := buffer ++ .status status :: lines
  if headers.all headerOk then ⟨[], .ok ⟨buffer, body⟩⟩ else ⟨buffer, .error .unicodeError⟩

/-- The header for the length of a body. -/
def lengthHeader (body : Bytes) : String × String := ("Content-Length", toString body.length)

/-- `_send_json`. -/
def sendJson (ctx : Context) (buffer : List Line) (status : ℕ) (payload : Json)
    (extraHeaders : Headers) : Sent :=
  let body := ctx.codec.dumps payload
  send buffer status ([("Content-Type", "application/json"), lengthHeader body] ++ extraHeaders)
    body

/-- `_send_html`. -/
def sendHtml (ctx : Context) (status : ℕ) (page : String) : Sent :=
  let raw := ctx.codec.encode page
  send [] status [("Content-Type", "text/html; charset=utf-8"), lengthHeader raw] raw

/-- `_send_bytes`. -/
def sendBytes (status : ℕ) (body : Bytes) (headers : Headers) : Sent :=
  send [] status (headers ++ [lengthHeader body]) body

/-- `_send_redirect`. -/
def sendRedirect (location : String) : Sent :=
  send [] 302 [("Location", location), ("Content-Length", "0")] []

/-- A field with a text. -/
def field (name value : String) : String × Json := (name, .str value)

/-- The body of an OAuth error. -/
def errorJson (error description : String) : Json :=
  .obj [field "error" error, field "error_description" description]

/-- The answer to an OAuth error. -/
def sendOAuthError (ctx : Context) (error description : String) (status : ℕ) : Sent :=
  sendJson ctx [] status (errorJson error description) []

/-- The answer to a path that nothing is at. -/
def sendNotFound (ctx : Context) : Sent :=
  sendJson ctx [] 404 (.obj [field "error" "not_found"]) []

/-- `except ValueError`: the answer goes into the buffer behind what is there. -/
def sendInvalidRequest (ctx : Context) (buffer : List Line) : Sent :=
  sendJson ctx buffer 400 (.obj [field "error" "invalid_request"]) []

/-- The exceptions that `except ValueError` takes. -/
def isValueError : PyError → Bool
  | .valueError => true
  | .unicodeError => true
  | _ => false

/-- `except ValueError` around an answer. -/
def Sent.catchValueError (ctx : Context) (s : Sent) : Sent :=
  match s.result with
  | .ok _ => s
  | .error e => if isValueError e then sendInvalidRequest ctx s.buffer else s

/-- The answer to an exception: an `OAuthError` and a `ValueError` are caught. -/
def sendError (ctx : Context) : PyError → Sent
  | .oauth error description status => sendOAuthError ctx error description status
  | e => if isValueError e then sendInvalidRequest ctx [] else ⟨[], .error e⟩

/-! ### Forms -/

/-- The media type of the body, without its parameters. -/
def mediaTypeOf (headers : Headers) : String :=
  let value := (header? headers "Content-Type").getD ""
  lower (strip (String.ofList (Url.partition ';' value.toList).1))

/-- Every field with its last value. -/
def lastValues (fields : List (String × List String)) : Dict String String :=
  .ofList (fields.map fun f => (f.1, f.2.getLast?.getD ""))

/-- `json.loads(raw.decode("utf-8") or default)`. -/
def loadJson (codec : Codec) (raw : Bytes) (default : String) : Except PyError Json :=
  match codec.decode raw with
  | .error e => .error e
  | .ok text => codec.loads (if text = "" then default else text)

/-- `_parse_form`. -/
def parseForm (codec : Codec) (headers : Headers) (raw : Bytes) :
    Except PyError (Dict String String) :=
  if mediaTypeOf headers = "application/json" then
    match loadJson codec raw "\x7b\x7d" with
    | .error .valueError => .error (.oauth "invalid_request" "malformed JSON body" 400)
    | .error e => .error e
    | .ok (.obj fields) =>
      .ok (.ofList (fields.map fun f => (f.1, match f.2 with
        | .null => ""
        | v => codec.str v)))
    | .ok _ => .error (.oauth "invalid_request" "JSON body must be an object" 400)
  else (codec.decode raw).map fun text => lastValues (codec.parseQsKeepingBlanks text)

/-! ### The OAuth endpoints -/

/-- What a handler leaves of the bytes it was given, the request it made of the upstream, and its
    response, or the exception that left it. -/
structure Exchange where
  rest : Bytes
  upstream : Option UpstreamRequest
  outcome : Except PyError Response

/-- A handler that answers without reading. -/
def unread (stream : Bytes) (s : Sent) : Exchange := ⟨stream, none, s.result⟩

@[simp] theorem unread_rest (stream : Bytes) (s : Sent) : (unread stream s).rest = stream := rfl

@[simp] theorem unread_upstream (stream : Bytes) (s : Sent) :
    (unread stream s).upstream = none := rfl

/-- The shape of the handlers of a form: OAuth is required first, and then the body is read. -/
def withBody (ctx : Context) (headers : Headers) (stream : Bytes) (handle : Bytes → Sent) :
    Exchange :=
  if ctx.oauthEnabled = false then
    unread stream (sendOAuthError ctx "invalid_request" "oauth not enabled" 404)
  else match readBody headers stream with
    | (.error e, rest) => unread rest (sendError ctx e)
    | (.ok raw, rest) => unread rest (handle raw)

/-- The registration in a form. -/
def registerForm (form : Dict String String) : Json :=
  let name := getD form "client_name" ""
  .obj [("redirect_uris", OAuth.strs (split (getD form "redirect_uris" ""))),
    ("client_name", if name = "" then .null else .str name),
    field "token_endpoint_auth_method" (getD form "token_endpoint_auth_method" "none")]

/-- The body of a registration: the JSON object as it stands, or a form. -/
def registerBody (codec : Codec) (headers : Headers) (raw : Bytes) : Except PyError Json :=
  match parseForm codec headers raw with
  | .error e => .error e
  | .ok form =>
    if mediaTypeOf headers = "application/json" then
      match loadJson codec raw "\x7b\x7d" with
      | .error e => .error e
      | .ok (.obj fields) => .ok (.obj fields)
      | .ok _ => .ok (.obj [])
    else .ok (registerForm form)

/-- `_handle_register`. -/
def handleRegister (ctx : Context) (req : Request) (stream : Bytes) : Exchange :=
  withBody ctx req.headers stream fun raw =>
    match registerBody ctx.codec req.headers raw with
    | .error e => sendError ctx e
    | .ok body =>
      match ctx.calls.registerClient body ctx.source with
      | .error e => sendError ctx e
      | .ok result => (sendJson ctx [] 201 result []).catchValueError ctx

/-- Where an error of `begin_authorization` is redirected to. -/
def errorLocation (redirectUri : String) (result : List (String × String)) :
    Except PyError String :=
  match Url.urlparse redirectUri with
  | .error e => .error e
  | .ok parsed =>
    let extra := Url.urlencode result
    let query := if parsed.query ≠ [] then parsed.query ++ '&' :: extra else extra
    .ok (String.ofList (Url.urlunparse { parsed with query := query }))

/-- The answer to what `begin_authorization` made of the parameters. -/
def sendAuthorizeGet (ctx : Context) (params : Dict String String) :
    Except PyError (OAuth.PendingAuthorization ⊕ List (String × String)) → Sent
  | .error (.oauth error description status) => sendOAuthError ctx error description status
  | .error e => ⟨[], .error e⟩
  | .ok (.inl p) => sendHtml ctx 200 (ctx.calls.consentHtml p none)
  | .ok (.inr result) =>
    match errorLocation (getD params "redirect_uri" "") result with
    | .error e => ⟨[], .error e⟩
    | .ok location => sendRedirect location

/-- `_handle_authorize_get`. -/
def handleAuthorizeGet (ctx : Context) (query : String) (stream : Bytes) : Exchange :=
  if ctx.oauthEnabled = false then
    unread stream (sendOAuthError ctx "invalid_request" "oauth not enabled" 404)
  else
    let params := lastValues (ctx.codec.parseQs query)
    unread stream (sendAuthorizeGet ctx params (ctx.calls.beginAuthorization params ctx.source))

/-- The answer to what `complete_authorization` made of a decision: a denied one gets the consent
    page once more while its request is pending. -/
def sendAuthorizePost (ctx : Context) (requestId : String) : Except PyError String → Sent
  | .ok location => (sendRedirect location).catchValueError ctx
  | .error (.oauth error description status) =>
    match if requestId = "" then none else ctx.calls.pending requestId with
    | some p =>
      if error = "access_denied" then
        sendHtml ctx 401 (ctx.calls.consentHtml p (some description))
      else sendOAuthError ctx error description status
    | none => sendOAuthError ctx error description status
  | .error e => sendError ctx e

/-- The decision in a form. -/
def completeRequest (form : Dict String String) (source : String) : OAuth.CompleteRequest where
  requestId := getD form "request_id" ""
  ownerSecret := getD form "owner_secret" ""
  decision := getD form "decision" "deny"
  source := source

/-- `_handle_authorize_post`. -/
def handleAuthorizePost (ctx : Context) (req : Request) (stream : Bytes) : Exchange :=
  withBody ctx req.headers stream fun raw =>
    match parseForm ctx.codec req.headers raw with
    | .error e => sendError ctx e
    | .ok form =>
      let decision := completeRequest form ctx.source
      sendAuthorizePost ctx decision.requestId (ctx.calls.completeAuthorization decision)

/-- `_handle_token`. -/
def handleToken (ctx : Context) (req : Request) (stream : Bytes) : Exchange :=
  withBody ctx req.headers stream fun raw =>
    match parseForm ctx.codec req.headers raw with
    | .error e => sendError ctx e
    | .ok form =>
      match ctx.calls.exchangeToken form with
      | .error e => sendError ctx e
      | .ok result => (sendJson ctx [] 200 result []).catchValueError ctx

/-- `_handle_revoke`. -/
def handleRevoke (ctx : Context) (req : Request) (stream : Bytes) : Exchange :=
  withBody ctx req.headers stream fun raw =>
    match parseForm ctx.codec req.headers raw with
    | .error e => sendError ctx e
    | .ok form =>
      match ctx.calls.revoke form with
      | .error e => sendError ctx e
      | .ok () => send [] 200 [("Content-Length", "0")] []

/-! ### Health and metadata -/

/-- The mode, as `/health` reports it. -/
def authModeText : AuthMode → String
  | .mock => "mock"
  | .oauth => "oauth"

/-- `_handle_health`. -/
def handleHealth (ctx : Context) (stream : Bytes) : Exchange :=
  unread stream (sendJson ctx [] 200 (.obj [field "status" "ok",
    field "service" "datarelay-link-relay", field "version" ctx.version, field "mcp_path" "/mcp",
    field "auth_mode" (authModeText ctx.bindings.config.authMode)]) [])

/-- A metadata document, when OAuth is enabled. -/
def handleMetadata (ctx : Context) (metadata : Json) (stream : Bytes) : Exchange :=
  if ctx.oauthEnabled = false then unread stream (sendNotFound ctx)
  else unread stream (sendJson ctx [] 200 metadata [])

/-- `_handle_protected_resource_metadata`. -/
def handleProtectedResourceMetadata (ctx : Context) (stream : Bytes) : Exchange :=
  handleMetadata ctx ctx.calls.protectedResourceMetadata stream

/-- `_handle_authorization_server_metadata`. -/
def handleAuthorizationServerMetadata (ctx : Context) (stream : Bytes) : Exchange :=
  handleMetadata ctx ctx.calls.authorizationServerMetadata stream

/-! ### `/mcp` -/

/-- The tool result of `_mcp_auth_challenge_payload`. -/
def challengeResult (challenge text : String) : Json :=
  .obj [("content", .arr [.obj [field "type" "text", field "text" text]]), ("isError", .bool true),
    ("_meta", .obj [("mcp/www_authenticate", .arr [.str challenge])])]

/-- `_mcp_auth_challenge_payload`. -/
def mcpAuthChallengePayload (codec : Codec) (body : Bytes) (challenge description : String) :
    Except PyError (Option Json) :=
  match loadJson codec body "null" with
  | .error e => if isValueError e then .ok none else .error e
  | .ok parsed =>
    match parsed.get? "jsonrpc" with
    | some (.str "2.0") =>
      let text := if strip description = "" then "authentication required" else strip description
      .ok (some (.obj [field "jsonrpc" "2.0", ("id", (parsed.get? "id").getD .null),
        ("result", challengeResult challenge text)]))
    | _ => .ok none

/-- The answer to a credential that does not resolve. -/
def sendBindingError (ctx : Context) (body : Bytes) (message : String) (status : ℕ)
    (oauthError oauthDescription : Option String) : Sent :=
  let unauthorized := Json.obj [field "error" "unauthorized", field "message" message]
  if ctx.bindings.config.authMode = .oauth ∧ ctx.oauthEnabled = true then
    let error := (truthy oauthError).getD
      (if status = 403 then "insufficient_scope" else "invalid_token")
    let description := (truthy oauthDescription).getD message
    let challenge := ctx.calls.wwwAuthenticate error description
    match mcpAuthChallengePayload ctx.codec body challenge description with
    | .error e => ⟨[], .error e⟩
    | .ok payload =>
      sendJson ctx [] status (payload.getD unauthorized) [("WWW-Authenticate", challenge)]
  else sendJson ctx [] status unauthorized []

/-- The JSON-RPC error for an upstream that is not there. -/
def upstreamUnavailableJson : Json :=
  .obj [field "jsonrpc" "2.0", ("id", .null), ("error", .obj [("code", .int (-32000)),
    field "message" "upstream MCP endpoint unavailable"])]

/-- What the proxy raised, where nothing catches it. -/
def ProxyError.toPyError : ProxyError → PyError
  | .other e => e
  | _ => .typeError

/-- The answer to what came back of a request to the upstream. -/
def sendProxied (ctx : Context) : Except ProxyError ProxiedResponse → Sent
  | .ok proxied => sendBytes proxied.status proxied.body proxied.headers
  | .error .upstreamUnavailable => sendJson ctx [] 502 upstreamUnavailableJson []
  | .error e => ⟨[], .error e.toPyError⟩

/-- The method, as it is sent upstream. -/
def methodText : Method → String
  | .get => "GET"
  | .post => "POST"
  | .delete => "DELETE"

/-- `_handle_mcp`. -/
def handleMcp (ctx : Context) (req : Request) (stream : Bytes) : Exchange :=
  match readBody req.headers stream with
  | (.error e, rest) =>
    if isValueError e then
      unread rest (sendJson ctx [] 400 (.obj [field "error" "invalid_body"]) [])
    else ⟨rest, none, .error e⟩
  | (.ok body, rest) =>
    match ctx.bindings.resolve ctx.env (header? req.headers "Authorization") with
    | .error (.binding message status oauthError oauthDescription) =>
      unread rest (sendBindingError ctx body message status oauthError oauthDescription)
    | .error (.other e) => ⟨rest, none, .error e⟩
    | .ok binding =>
      let r := proxyMcpRequest ctx.upstream (methodText req.method) binding body
        (.ofList req.headers) ctx.bindings.config.requestTimeoutS
      ⟨rest, r.1, (sendProxied ctx r.2).result⟩

/-! ### Dispatch -/

/-- `do_GET`. -/
def doGet (ctx : Context) (req : Request) (parsed : Url.ParseResult) (stream : Bytes) :
    Exchange :=
  match String.ofList parsed.path with
  | "/health" => handleHealth ctx stream
  | "/.well-known/oauth-protected-resource" => handleProtectedResourceMetadata ctx stream
  | "/.well-known/oauth-authorization-server" => handleAuthorizationServerMetadata ctx stream
  | "/oauth/authorize" => handleAuthorizeGet ctx (String.ofList parsed.query) stream
  | "/mcp" => handleMcp ctx req stream
  | _ => unread stream (sendNotFound ctx)

/-- `do_POST`. -/
def doPost (ctx : Context) (req : Request) (parsed : Url.ParseResult) (stream : Bytes) :
    Exchange :=
  match String.ofList parsed.path with
  | "/oauth/register" => handleRegister ctx req stream
  | "/oauth/authorize" => handleAuthorizePost ctx req stream
  | "/oauth/token" => handleToken ctx req stream
  | "/oauth/revoke" => handleRevoke ctx req stream
  | "/mcp" => handleMcp ctx req stream
  | _ => unread stream (sendNotFound ctx)

/-- `do_DELETE`. -/
def doDelete (ctx : Context) (req : Request) (parsed : Url.ParseResult) (stream : Bytes) :
    Exchange :=
  match String.ofList parsed.path with
  | "/mcp" => handleMcp ctx req stream
  | _ => unread stream (sendNotFound ctx)

/-- The handler of one request. -/
def handle (ctx : Context) (req : Request) (stream : Bytes) : Exchange :=
  match Url.urlparse req.path with
  | .error e => ⟨stream, none, .error e⟩
  | .ok parsed =>
    match req.method with
    | .get => doGet ctx req parsed stream
    | .post => doPost ctx req parsed stream
    | .delete => doDelete ctx req parsed stream

end DataRelay.Relay
