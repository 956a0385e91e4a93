import DataRelay.OAuth.Authorize

/-! `exchange_token`, `revoke` and `validate_bearer`, each under one lock, and `__post_init__`. -/

namespace DataRelay.OAuth
open Lib

/-- `TokenResponse`. -/
structure TokenResponse where
  accessToken : String
  tokenType : String
  expiresIn : ℤ
  refreshToken : String
  scope : String
  resource : String
deriving DecidableEq

/-- An `invalid_grant`. -/
def invalidGrant (description : String) : PyError := .oauth "invalid_grant" description 400

/-- The request is for another resource. -/
def invalidTarget : PyError := .oauth "invalid_target" "resource mismatch" 400

namespace OAuthService
variable (cfg : Config) (env : Env) (s : OAuthService)

/-! ### `exchange_token` -/

/-- The access token that `_issue_tokens` makes. -/
def newAccess (clientId resource : String) (scopes : Finset String) : AccessToken where
  token := newToken "atk" env.random0
  clientId := clientId
  resource := resource
  scopes := scopes
  expiresAt := env.t2 + seconds accessTtlS
  revoked := false
  subject := relayOwner

/-- The refresh token that `_issue_tokens` makes. -/
def newRefresh (clientId resource : String) (scopes : Finset String) : RefreshToken where
  token := newToken "rtk" env.random1
  clientId := clientId
  resource := resource
  scopes := scopes
  expiresAt := env.t2 + seconds refreshTtlS
  revoked := false
  subject := relayOwner

/-- `_issue_tokens`: the two tokens are made at `t2` and saved at `t3`. -/
def issueTokens (clientId resource : String) (scopes : Finset String) :
    OAuthService × Except PyError TokenResponse :=
  let access := newAccess env clientId resource scopes
  let refresh := newRefresh env clientId resource scopes
  let s0 := { s with
    accessTokens := s.accessTokens.set access.token access
    refreshTokens := s.refreshTokens.set refresh.token refresh }
  match s0.persist cfg env env.t3 with
  | (s1, .error e) => (s1, .error e)
  | (s1, .ok ()) => (s1, .ok ⟨access.token, "Bearer", accessTtlS, refresh.token,
      " ".intercalate (sorted scopes), resource⟩)

/-- `not verifier or _pkce_s256(verifier) != record.code_challenge`, negated. -/
def pkceOk (verifier challenge : String) : Except PyError Bool :=
  if verifier = "" then .ok false else (pkceS256 verifier).map (· = challenge)

/-- The checks of a code that was found, after it was taken out of the map. -/
def checkCode (form : Dict String String) (record : AuthCode) : Except PyError Unit := do
  if record.used ∨ record.expiresAt < env.t0 then
    .error (invalidGrant "authorization code expired or used")
  if record.clientId ≠ getD form "client_id" "" then .error (invalidGrant "client_id mismatch")
  if s.clients.contains record.clientId = false then
    .error (.oauth "unauthorized_client" "unknown client" 400)
  if record.redirectUri ≠ getD form "redirect_uri" "" then
    .error (invalidGrant "redirect_uri mismatch")
  if getD form "resource" "" ≠ record.resource ∨ getD form "resource" "" ≠ cfg.resourceUrl then
    .error invalidTarget
  if record.codeChallengeMethod ≠ "S256" then .error (invalidGrant "PKCE method not S256")
  if !(← pkceOk (getD form "code_verifier" "") record.codeChallenge) then
    .error (invalidGrant "PKCE verification failed")

/-- What a code that passes the checks is known to be. -/
theorem checkCode_ok {form : Dict String String} {record : AuthCode}
    (h : s.checkCode cfg env form record = .ok ()) :
    record.used = false ∧ env.t0 ≤ record.expiresAt ∧ record.clientId = getD form "client_id" "" ∧
      s.clients.contains record.clientId = true ∧
      record.redirectUri = getD form "redirect_uri" "" ∧ getD form "resource" "" = record.resource ∧
      record.resource = cfg.resourceUrl ∧ record.codeChallengeMethod = "S256" ∧
      pkceS256 (getD form "code_verifier" "") = .ok record.codeChallenge := by
  simp only [checkCode, bind, Except.bind, pure, Except.pure, guard_ok, not_or, not_lt,
    Bool.not_eq_true, Bool.not_eq_false, ne_eq, not_not] at h
  obtain ⟨⟨hused, hlive⟩, hclient, hreg, huri, ⟨hres, hres'⟩, hmethod, h⟩ := h
  refine ⟨hused, hlive, hclient, hreg, huri, hres, hres ▸ hres', hmethod, ?_⟩
  split at h
  · cases h
  rename_i ok hok
  split at h
  · cases h
  rename_i htrue
  unfold pkceOk at hok
  split at hok
  · cases hok; simp at htrue
  · cases hv : pkceS256 (getD form "code_verifier" "") with
    | error e => rw [hv] at hok; cases hok
    | ok hash =>
      rw [hv] at hok; cases hok
      simpa using htrue

/-- `_exchange_authorization_code`. -/
def exchangeAuthorizationCode (form : Dict String String) :
    OAuthService × Except PyError TokenResponse :=
  match s.codes.get? (getD form "code" "") with
  | none => (s, .error (invalidGrant "unknown authorization code"))
  | some record =>
    let s0 := { s with codes := s.codes.erase (getD form "code" "") }
    match s0.checkCode cfg env form record with
    | .error e => (s0, .error e)
    | .ok () => (s0.touch record.clientId env.t1).issueTokens cfg env record.clientId
        record.resource record.scopes

/-- The checks of a refresh token that come before it is rotated. -/
def checkRefresh (form : Dict String String) (record : RefreshToken) : Except PyError Unit := do
  if record.revoked ∨ record.expiresAt < env.t0 then
    .error (invalidGrant "invalid refresh token")
  if record.clientId ≠ getD form "client_id" "" then .error (invalidGrant "client_id mismatch")
  if getD form "resource" "" ≠ "" ∧ getD form "resource" "" ≠ record.resource then
    .error invalidTarget
  if getD form "resource" "" ≠ "" ∧ getD form "resource" "" ≠ cfg.resourceUrl then
    .error invalidTarget

theorem checkRefresh_ok {form : Dict String String} {record : RefreshToken}
    (h : checkRefresh cfg env form record = .ok ()) :
    record.revoked = false ∧ env.t0 ≤ record.expiresAt ∧
      record.clientId = getD form "client_id" "" := by
  simp only [checkRefresh, bind, Except.bind, pure, Except.pure, guard_ok, not_or, not_lt,
    Bool.not_eq_true, ne_eq, not_not] at h
  exact ⟨h.1.1, h.1.2, h.2.1⟩

/-- The scopes of the new tokens: those asked for, within those of the old. -/
def refreshScopes (form : Dict String String) (record : RefreshToken) :
    Except PyError (Finset String) := do
  if getD form "scope" "" = "" then return record.scopes
  let requested ← parseScopes (form.get? "scope")
  if requested ⊆ record.scopes then return requested
  else .error (.oauth "invalid_scope" "cannot expand scopes on refresh" 400)

theorem refreshScopes_ok {form : Dict String String} {record : RefreshToken}
    {scopes : Finset String} (h : refreshScopes form record = .ok scopes) :
    scopes ⊆ record.scopes := by
  simp only [refreshScopes, bind, Except.bind, pure, Except.pure] at h
  split at h
  · cases h; exact subset_rfl
  split at h
  · cases h
  split at h
  · rename_i hsub; cases h; exact hsub
  · cases h

/-- The refresh token is revoked, if it is there. -/
def revokeRefresh (token : String) : OAuthService :=
  { s with refreshTokens := s.refreshTokens.modify token fun t => { t with revoked := true } }

/-- The access token is revoked, if it is there. -/
def revokeAccess (token : String) : OAuthService :=
  { s with accessTokens := s.accessTokens.modify token fun t => { t with revoked := true } }

/-- `_exchange_refresh_token`. -/
def exchangeRefreshToken (form : Dict String String) :
    OAuthService × Except PyError TokenResponse :=
  match s.refreshTokens.get? (getD form "refresh_token" "") with
  | none => (s, .error (invalidGrant "invalid refresh token"))
  | some record =>
    match checkRefresh cfg env form record with
    | .error e => (s, .error e)
    | .ok () =>
      -- the old token is revoked before the scopes are looked at
      let s0 := s.revokeRefresh (getD form "refresh_token" "")
      match refreshScopes form record with
      | .error e => (s0, .error e)
      | .ok scopes => (s0.touch record.clientId env.t1).issueTokens cfg env record.clientId
          record.resource scopes

/-- `exchange_token`. -/
def exchangeToken (form : Dict String String) : OAuthService × Except PyError TokenResponse :=
  if getD form "grant_type" "" = "authorization_code" then
    s.exchangeAuthorizationCode cfg env form
  else if getD form "grant_type" "" = "refresh_token" then s.exchangeRefreshToken cfg env form
  else (s, .error (.oauth "unsupported_grant_type" "unsupported grant_type" 400))

/-! ### `revoke` and `validate_bearer` -/

/-- The record or records that `revoke` marks: a hint of the wrong kind is not trusted, and an
    unknown one marks both kinds. -/
def markRevoked (token hint : String) : OAuthService :=
  if (hint = "" ∨ hint = "access_token") ∧ s.accessTokens.contains token then s.revokeAccess token
  else if (hint = "" ∨ hint = "refresh_token") ∧ s.refreshTokens.contains token then
    s.revokeRefresh token
  else (s.revokeAccess token).revokeRefresh token

/-- `revoke`. -/
def revoke (form : Dict String String) : OAuthService × Except PyError Unit :=
  (s.markRevoked (getD form "token" "") (getD form "token_type_hint" "")).persist cfg env env.t0

/-- An `invalid_token`. -/
def invalidToken (description : String) : PyError := .oauth "invalid_token" description 401

/-- The token of an `Authorization` header. -/
def bearerToken (authorization : Option String) : Option String :=
  let header := (authorization.getD "").toList
  if header.take 7 = "Bearer ".toList then
    let token := strip (String.ofList (header.drop 7))
    if token = "" then none else some token
  else none

/-- `validate_bearer`. -/
def validateBearer (authorization : Option String) (requiredScopes : Finset String) :
    Except PyError AccessToken :=
  match bearerToken authorization with
  | none => .error (invalidToken "missing bearer token")
  | some token =>
    let required := if requiredScopes = ∅ then scopesSupported else requiredScopes
    match s.accessTokens.get? token with
    | none => .error (invalidToken "token revoked or unknown")
    | some record =>
      if record.revoked then .error (invalidToken "token revoked or unknown")
      else if record.expiresAt < env.t0 then .error (invalidToken "token expired")
      else if record.resource ≠ cfg.resourceUrl then
        .error (invalidToken "wrong resource audience")
      else if required ⊆ record.scopes then .ok record
      else .error (.oauth "insufficient_scope" "missing required scope" 403)

/-! ### `__post_init__` -/

/-- What the calls of a start answer. -/
structure StartCalls where
  init : DurableOAuthStore.InitCalls
  load : DurableOAuthStore.LoadCalls
deriving DecidableEq

/-- The service as `_load_payload` fills it from the state file. -/
def loaded (store : DurableOAuthStore) (calls : StartCalls) (file : Option (List Char)) :
    Except PyError OAuthService := do
  store.init calls.init
  let (clients, refreshTokens) ← loadPayload (← store.load calls.load file)
  return { empty file with clients := clients, refreshTokens := refreshTokens }

/-- A new service over a state file; what a failed start leaves is the file. -/
def start (calls : StartCalls) (file : Option (List Char)) : OAuthService × Except PyError Unit :=
  match cfg.store with
  | none => (empty file, .ok ())
  | some store =>
    match loaded store calls file with
    | .error e => (empty file, .error e)
    | .ok s =>
      let cleaned := s.cleanupInactiveClients env.t0 0
      if cleaned.2 = [] then (cleaned.1, .ok ()) else cleaned.1.persist cfg env env.t1

end OAuthService

end DataRelay.OAuth
