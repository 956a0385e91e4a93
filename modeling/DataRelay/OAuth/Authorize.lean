import DataRelay.OAuth.Service

/-! `begin_authorization` and `complete_authorization`, one function for each stretch that runs
    without letting another thread in.

    A stretch under the lock is atomic; a stretch between two lock acquisitions touches no shared
    state, so it is one step as well, or part of the step before it when it reads no clock. -/

namespace DataRelay.OAuth
open Lib

/-! ### `begin_authorization` -/

/-- The parameters of an authorize request. -/
structure AuthorizeRequest where
  clientId : String
  redirectUri : String
  responseType : String
  state : Option String
  codeChallenge : String
  codeChallengeMethod : String
  resource : String
  scope : Option String
deriving DecidableEq

/-- The parameters that `begin_authorization` reads, a missing one being empty. -/
def AuthorizeRequest.ofParams (params : Dict String String) : AuthorizeRequest where
  clientId := getD params "client_id" ""
  redirectUri := getD params "redirect_uri" ""
  responseType := getD params "response_type" ""
  state := params.get? "state"
  codeChallenge := getD params "code_challenge" ""
  codeChallengeMethod := getD params "code_challenge_method" ""
  resource := getD params "resource" ""
  scope := params.get? "scope"

/-- `scopes_supported`. -/
def scopesSupported : Finset String := {defaultScope}

/-- `_parse_scopes`. -/
def parseScopes (scope : Option String) : Except PyError (Finset String) :=
  let text := scope.getD ""
  if strip text = "" then .ok scopesSupported
  else if (split text).toFinset ⊆ scopesSupported then .ok (split text).toFinset
  else .error (.oauth "invalid_scope" "unsupported scope requested" 400)

/-- The checks of a request that need no shared state. -/
def checkRequest (cfg : Config) (req : AuthorizeRequest) : Except PyError (Finset String) :=
  if req.responseType ≠ "code" then
    .error (.oauth "unsupported_response_type" "only code is supported" 400)
  else if req.codeChallengeMethod ≠ "S256" then
    .error (.oauth "invalid_request" "code_challenge_method must be S256" 400)
  else if req.codeChallenge = "" then
    .error (.oauth "invalid_request" "code_challenge required" 400)
  else if req.resource ≠ cfg.resourceUrl then
    .error (.oauth "invalid_target" "resource does not match MCP resource" 400)
  else parseScopes req.scope

namespace OAuthService
variable (cfg : Config) (env : Env) (s : OAuthService)

/-- A registered client with this redirect URI. -/
def clientAllows (clientId redirectUri : String) : Bool :=
  match s.clients.get? clientId with
  | none => false
  | some c => c.redirectUris.contains redirectUri

/-- The first lock, and the checks behind it: their error is one to redirect with. -/
def beginCheck (req : AuthorizeRequest) : Except PyError (Except PyError (Finset String)) :=
  match s.clients.get? req.clientId with
  | none => .error (.oauth "unauthorized_client" "unknown client_id" 400)
  | some c =>
    if c.redirectUris.contains req.redirectUri = false then
      .error (.oauth "invalid_request" "redirect_uri mismatch" 400)
    else .ok (checkRequest cfg req)

/-- `error_redirect`: the error travels in a redirect as long as the client, looked up under the
    lock once more, still allows it. -/
def errorRedirect (req : AuthorizeRequest) : PyError → Except PyError (List (String × String))
  | .oauth error description _ =>
    if req.redirectUri = "" ∨ req.clientId = "" ∨
        s.clientAllows req.clientId req.redirectUri = false then
      .error (.oauth error description 400)
    else .ok ([("error", error), ("error_description", description),
      ("iss", cfg.publicBaseUrl)] ++ (req.state.map ("state", ·)).toList)
  | e => .error e

/-- The pending authorization of a checked request. -/
def beginBuild (req : AuthorizeRequest) (scopes : Finset String) : PendingAuthorization where
  requestId := newToken "authreq" env.random0
  clientId := req.clientId
  redirectUri := req.redirectUri
  state := req.state
  codeChallenge := req.codeChallenge
  codeChallengeMethod := req.codeChallengeMethod
  resource := req.resource
  scopes := scopes
  expiresAt := env.t0 + codeTtlS

/-- `_pending_count_for_client_locked`. -/
def pendingCountForClient (clientId : String) : ℕ :=
  s.pending.count fun _ p => p.clientId = clientId

/-- `_cleanup_pending_locked`: expired entries go. -/
def cleanupPending (now : Time) : OAuthService :=
  { s with pending := s.pending.filter fun _ p => !(p.expiresAt < now) }

/-- The last lock: admit the request or refuse it. -/
def beginAdmit (p : PendingAuthorization) (source : String) :
    OAuthService × Except PyError PendingAuthorization :=
  let admitted := s.authzLimiter.allow source env.t0
  let s0 := { s with authzLimiter := admitted.1 }
  if admitted.2 = false then
    (s0, .error (.oauth "temporarily_unavailable" "authorization request rate limit exceeded" 429))
  else
    let s1 := s0.cleanupPending env.t1
    if maxPendingPerClient ≤ s1.pendingCountForClient p.clientId then
      (s1, .error (.oauth "temporarily_unavailable"
        "authorization request limit for client exceeded" 429))
    else if maxPendingAuthorizations ≤ s1.pending.size then
      (s1, .error (.oauth "temporarily_unavailable"
        "authorization request capacity exceeded" 429))
    else ({ s1 with
      pending := s1.pending.set p.requestId p
      authzLimiter := s1.authzLimiter.record source env.t2 }, .ok p)

end OAuthService

/-! ### `complete_authorization` -/

/-- What `complete_authorization` is called with. -/
structure CompleteRequest where
  requestId : String
  ownerSecret : String
  decision : String
  source : String
deriving DecidableEq

/-- A redirect: the parameters appended to the query, and the whole `Location`. -/
structure Redirect where
  query : List (String × String)
  location : String
deriving DecidableEq

/-- `redirect`: the state of the request and the issuer go along. -/
def redirect (cfg : Config) (p : PendingAuthorization) (params : List (String × String)) :
    Except PyError Redirect :=
  match Url.urlparse p.redirectUri with
  | .error e => .error e
  | .ok parsed =>
    let q := params ++ (p.state.map ("state", ·)).toList ++ [("iss", cfg.publicBaseUrl)]
    let query := if parsed.query ≠ [] then parsed.query ++ '&' :: Url.urlencode q
      else Url.urlencode q
    .ok ⟨q, String.ofList (Url.urlunparse { parsed with query := query })⟩

/-- What the client is redirected with after a denial. -/
def ownerDenied : List (String × String) :=
  [("error", "access_denied"), ("error_description", "owner denied authorization")]

/-- The owner's secret is wrong. -/
def denied : PyError := .oauth "access_denied" "authorization denied" 401

/-- There is no such pending request. -/
def expiredOrUnknown : PyError :=
  .oauth "invalid_request" "authorization request expired or unknown" 400

namespace OAuthService
variable (cfg : Config) (env : Env) (s : OAuthService)

/-- The first lock: the entry is taken out. -/
def completePop (req : CompleteRequest) : OAuthService × Option PendingAuthorization :=
  ({ s with pending := s.pending.erase req.requestId }, s.pending.get? req.requestId)

/-- Between the locks: what is left to do with the entry taken out. -/
def completeCheck (req : CompleteRequest) (pending : Option PendingAuthorization) :
    Except PyError (Redirect ⊕ PendingAuthorization) :=
  match pending with
  | none => .error expiredOrUnknown
  | some p =>
    if p.expiresAt < env.t0 then .error expiredOrUnknown
    else if req.decision ≠ "approve" then (redirect cfg p ownerDenied).map Sum.inl
    else .ok (.inr p)

/-- `client.last_used_at = now`, for a client that is still registered. -/
def touch (clientId : String) (now : Time) : OAuthService :=
  { s with clients := s.clients.modify clientId fun c => { c with lastUsedAt := now } }

/-- The entry that was popped is put back. -/
def putBack (req : CompleteRequest) (p : PendingAuthorization) : OAuthService :=
  { s with pending := s.pending.set req.requestId p }

/-- The second lock: the owner's secret is checked, and a failure puts the entry back. -/
def completeDecide (req : CompleteRequest) (p : PendingAuthorization) :
    OAuthService × Except PyError Unit :=
  let admitted := s.ownerFailLimiter.allow req.source env.t0
  let s0 := { s with ownerFailLimiter := admitted.1 }
  if admitted.2 = false then (s0.putBack req p, .error denied)
  else
    let expected := cfg.ownerApprovalSecret.getD ""
    let failure := { s0 with
      ownerFailLimiter := s0.ownerFailLimiter.record req.source env.t1 }.putBack req p
    if expected = "" then (failure, .error denied)
    else match compareDigest req.ownerSecret expected with
      | .error e => (s0, .error e)
      | .ok false => (failure, .error denied)
      | .ok true => (s0.touch p.clientId env.t1, .ok ())

/-- The code of an approved request. -/
def completeBuild (p : PendingAuthorization) : AuthCode where
  code := newToken "code" env.random0
  clientId := p.clientId
  redirectUri := p.redirectUri
  codeChallenge := p.codeChallenge
  codeChallengeMethod := p.codeChallengeMethod
  resource := p.resource
  scopes := p.scopes
  expiresAt := env.t0 + codeTtlS
  used := false

/-- The third lock: the code is stored, and the redirect made. -/
def completeStore (p : PendingAuthorization) (c : AuthCode) :
    OAuthService × Except PyError Redirect :=
  let s0 := { s with codes := s.codes.set c.code c }
  match s0.persist cfg env env.t0 with
  | (s1, .error e) => (s1, .error e)
  | (s1, .ok ()) => (s1, redirect cfg p [("code", c.code)])

/-- `complete_authorization` on its own: its stretches one behind the other, each with what it takes
    from outside. -/
def completeAuthorization (check decide build store : Env) (req : CompleteRequest) :
    OAuthService × Except PyError Redirect :=
  let popped := s.completePop req
  match completeCheck cfg check req popped.2 with
  | .error e => (popped.1, .error e)
  | .ok (.inl r) => (popped.1, .ok r)
  | .ok (.inr p) =>
    let decided := popped.1.completeDecide cfg decide req p
    match decided.2 with
    | .error e => (decided.1, .error e)
    | .ok () => decided.1.completeStore cfg store p (completeBuild build p)

end OAuthService

end DataRelay.OAuth
