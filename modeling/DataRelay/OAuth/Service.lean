import DataRelay.OAuth.Payload
import DataRelay.OAuth.SlidingWindow
import DataRelay.OAuth.Store

/-! `OAuthService`: its state and what each of its operations does under the lock.

    An operation that takes the lock once is one function here; `begin_authorization` and
    `complete_authorization`, which take it more than once, are one function for each stretch between
    two points where another thread can run. A function takes the state before and gives back the
    state after together with the value returned or the exception raised: an exception keeps what
    was changed up to it. -/

namespace DataRelay.OAuth
open Lib

/-- The maps of the service, its rate limiters, and the text of its state file. -/
structure OAuthService where
  clients : Dict String RegisteredClient
  codes : Dict String AuthCode
  accessTokens : Dict String AccessToken
  refreshTokens : Dict String RefreshToken
  pending : Dict String PendingAuthorization
  dcrLimiter : SlidingWindow
  authzLimiter : SlidingWindow
  ownerFailLimiter : SlidingWindow
  file : Option (List Char)

/-- What one stretch takes from outside: the readings of the clock in order, the random parts of
    the tokens it makes, and the outcome of its save. -/
structure Env where
  t0 : Time
  t1 : Time
  t2 : Time
  t3 : Time
  random0 : String
  random1 : String
  save : DurableOAuthStore.SaveCalls

/-- The store of the state file, if the configuration has a path for it. -/
def Config.store (cfg : Config) : Option DurableOAuthStore :=
  match cfg.oauthStatePath with
  | none => none
  | some path => if path = "" then none else some ⟨path⟩

/-- A limiter without events, with the bound on the sources that all have. -/
def limiter (maxEvents : ℕ) (window : Time) : SlidingWindow :=
  ⟨maxEvents, window, maxRateLimitSources, ∅, by decide⟩

namespace OAuthService

/-- A service without any record, over a state file. -/
def empty (file : Option (List Char)) : OAuthService where
  clients := ∅
  codes := ∅
  accessTokens := ∅
  refreshTokens := ∅
  pending := ∅
  dcrLimiter := limiter dcrRateLimit dcrRateWindowS
  authzLimiter := limiter authzRateLimit authzRateWindowS
  ownerFailLimiter := limiter ownerFailLimit ownerFailWindowS
  file := file

variable (cfg : Config) (env : Env) (s : OAuthService)

/-! ### Saving -/

/-- Revoked records past their expiry are dropped before the payload is built. -/
def dropExpired (now : Time) : OAuthService :=
  { s with refreshTokens := s.refreshTokens.filter fun _ t => !(t.expiresAt < now && t.revoked) }

/-- `_persist_locked`, at the time `now`. -/
def persist (now : Time) : OAuthService × Except PyError Unit :=
  match cfg.store with
  | none => (s, .ok ())
  | some store =>
    let s' := s.dropExpired now
    let dir : Dir := ⟨s.file, none⟩
    let saved := store.save env.save (payload s'.clients s'.refreshTokens) dir
    ({ s' with file := (saved.last dir).file },
      match saved.result with
      | .error (.oauthState message) => .error (.oauth "server_error" message 500)
      | r => r)

/-! ### Clients -/

/-- `_client_has_live_refresh`. -/
def clientHasLiveRefresh (clientId : String) (now : Time) : Bool :=
  s.refreshTokens.values.any fun t => t.clientId = clientId && !t.revoked && t.expiresAt ≥ now

/-- `_client_has_live_pending_locked`. -/
def clientHasLivePending (clientId : String) (now : Time) : Bool :=
  s.pending.values.any fun p => p.clientId = clientId && p.expiresAt ≥ now

/-- `_remove_client_locked`. -/
def removeClient (clientId : String) : OAuthService :=
  { s with
    refreshTokens := s.refreshTokens.filter fun _ t => t.clientId ≠ clientId
    clients := s.clients.erase clientId }

/-- `_inactive_occupancy_locked`. -/
def inactiveOccupancy (now : Time) : ℕ :=
  s.clients.count fun clientId _ => !s.clientHasLiveRefresh clientId now

/-- Neither a live refresh token nor a live consent refers to the client. -/
def evictable (now : Time) (c : RegisteredClient) : Bool :=
  !s.clientHasLiveRefresh c.clientId now && !s.clientHasLivePending c.clientId now

/-- The order of eviction: `(issued_at, last_used_at, client_id)`. -/
def evictsBefore (a b : RegisteredClient) : Prop :=
  a.issuedAt < b.issuedAt ∨ (a.issuedAt = b.issuedAt ∧ (a.lastUsedAt < b.lastUsedAt ∨
    (a.lastUsedAt = b.lastUsedAt ∧ a.clientId ≤ b.clientId)))

instance : DecidableRel evictsBefore := fun a b => by unfold evictsBefore; infer_instance

/-- `_inactive_clients_locked`, the next to be evicted first. -/
def inactiveClients (now : Time) : List RegisteredClient :=
  (s.clients.values.filter fun c => s.evictable now c).insertionSort evictsBefore

/-- The first loop: clients past the inactive TTL go. -/
def evictStale (now : Time) : List RegisteredClient → OAuthService → OAuthService × List String
  | [], s => (s, [])
  | c :: cs, s =>
    if s.evictable now c && inactiveClientTtlS ≤ now - c.lastUsedAt then
      let r := evictStale now cs (s.removeClient c.clientId)
      (r.1, c.clientId :: r.2)
    else evictStale now cs s

/-- The second loop: the oldest inactive client goes while a budget is exceeded. Each round removes
    a client, so their number is fuel enough. -/
def evictOver (now : Time) (inactiveBudget totalBudget : ℕ) :
    ℕ → OAuthService → OAuthService × List String
  | 0, s => (s, [])
  | fuel + 1, s =>
    if s.inactiveOccupancy now ≤ inactiveBudget ∧ s.clients.size ≤ totalBudget then (s, [])
    else match s.inactiveClients now with
      | [] => (s, [])
      | victim :: _ =>
        let r := evictOver now inactiveBudget totalBudget fuel (s.removeClient victim.clientId)
        (r.1, victim.clientId :: r.2)

/-- `_cleanup_inactive_clients_locked`: the state after it and the clients it evicted. -/
def cleanupInactiveClients (now : Time) (reserveSlots : ℕ) : OAuthService × List String :=
  let stale := evictStale now s.clients.values s
  let excess := evictOver now (maxInactiveDcrClients - reserveSlots) (maxDcrClients - reserveSlots)
    stale.1.clients.size stale.1
  (excess.1, stale.2 ++ excess.2)

/-! ### `register_client` -/

/-- What `register_client` answers. -/
structure Registration where
  clientId : String
  clientIdIssuedAt : ℤ
  redirectUris : List String
  tokenEndpointAuthMethod : String
  grantTypes : List String
  responseTypes : List String
  clientName : Option String
deriving DecidableEq

/-- A redirect URI that is not safe. -/
def badRedirectUri : PyError :=
  .oauth "invalid_redirect_uri" "redirect_uri must be https or loopback http" 400

/-- The redirect URIs of a body, checked one by one. -/
def cleanUris : List Json → Except PyError (List String)
  | [] => .ok []
  | .str uri :: uris => do
    if !(← Url.redirectUriSafe uri) then .error badRedirectUri
    else return uri :: (← cleanUris uris)
  | _ :: _ => .error badRedirectUri

/-- Python cannot hash lists and dicts, and so cannot look for them in a set. -/
def hashable : Json → Bool
  | .arr _ => false
  | .obj _ => false
  | _ => true

/-- The value is this text. -/
def isText (text : String) : Json → Bool
  | .str s => s = text
  | _ => false

/-- `any(g not in allowed_grants for g in grant_types)` stops at the first that is not. -/
def checkGrants : List Json → Except PyError Unit
  | [] => .ok ()
  | g :: gs =>
    if hashable g = false then .error .typeError
    else if isText "authorization_code" g || isText "refresh_token" g then checkGrants gs
    else .error (.oauth "invalid_client_metadata" "unsupported grant_type" 400)

/-- `set(value) == {"code"}`, on a value that is not falsy. -/
def isCodeSet : Json → Except PyError Bool
  | .arr items =>
    if items.all hashable then .ok (items.all (isText "code")) else .error .typeError
  | .obj fields => .ok (fields.all fun f => f.1 = "code")
  | .str _ => .ok false
  | _ => .error .typeError

/-- `response_types == ["code"]`. -/
def isCodeList : Json → Bool
  | .arr [g] => isText "code" g
  | _ => false

/-- The check of `redirect_uris`. -/
def checkUris : Option Json → Except PyError (List String)
  | some (.arr (uri :: uris)) => cleanUris (uri :: uris)
  | _ => .error (.oauth "invalid_redirect_uri" "redirect_uris required" 400)

/-- The check of `token_endpoint_auth_method`. -/
def checkAuthMethod (value : Option Json) : Except PyError Unit :=
  if isText "none" (value.getD (.str "none")) then .ok ()
  else .error (.oauth "invalid_client_metadata"
    "only public clients (token_endpoint_auth_method=none) are supported" 400)

/-- The check of `grant_types`. -/
def checkGrantTypes (value : Option Json) : Except PyError (List String) :=
  match orDefault value (strs ["authorization_code", "refresh_token"]) with
  | .arr items => (checkGrants items).map fun _ => items.filterMap asStr
  | _ => .error (.oauth "invalid_client_metadata" "grant_types invalid" 400)

/-- The check of `response_types`. -/
def checkResponseTypes (value : Option Json) : Except PyError Unit :=
  let responseTypes := orDefault value (strs ["code"])
  if isCodeList responseTypes then .ok ()
  else match isCodeSet responseTypes with
    | .error e => .error e
    | .ok true => .ok ()
    | .ok false => .error (.oauth "invalid_client_metadata" "only response_type=code" 400)

/-- The fields of a registration body, checked in the order of the source: the redirect URIs, the
    grant types and the client name. -/
def checkBody (body : Json) : Except PyError (List String × List String × Option String) := do
  let uris ← checkUris (body.get? "redirect_uris")
  checkAuthMethod (body.get? "token_endpoint_auth_method")
  let grantTypes ← checkGrantTypes (body.get? "grant_types")
  checkResponseTypes (body.get? "response_types")
  return (uris, grantTypes, (body.get? "client_name").bind asStr)

/-- No room for another client. -/
def limitReached : PyError :=
  .oauth "invalid_client_metadata" "client registration limit reached" 400

/-- `register_client`: the limiter, the cleanup, the bounds, the body, and then the save. -/
def registerClient (body : Json) (source : String) : OAuthService × Except PyError Registration :=
  let admitted := s.dcrLimiter.allow source env.t0
  let s0 := { s with dcrLimiter := admitted.1 }
  if admitted.2 = false then
    (s0, .error (.oauth "temporarily_unavailable" "client registration rate limit exceeded" 429))
  else
    let s1 := (s0.cleanupInactiveClients env.t1 1).1
    if maxInactiveDcrClients ≤ s1.inactiveOccupancy env.t1 then (s1, .error limitReached)
    else if maxDcrClients ≤ s1.clients.size then (s1, .error limitReached)
    else match checkBody body with
      | .error e => (s1, .error e)
      | .ok (redirectUris, grantTypes, clientName) =>
        let clientId := newToken "client" env.random0
        let client : RegisteredClient :=
          ⟨clientId, redirectUris, clientName, "none", grantTypes, ["code"], env.t1.toInt, env.t1⟩
        let s2 := { s1 with
          clients := s1.clients.set clientId client
          dcrLimiter := s1.dcrLimiter.record source env.t1 }
        match s2.persist cfg env env.t2 with
        | (s3, .error e) => (s3, .error e)
        | (s3, .ok ()) =>
          (s3, .ok ⟨clientId, env.t1.toInt, redirectUris, "none", grantTypes, ["code"], clientName⟩)

end OAuthService

end DataRelay.OAuth
