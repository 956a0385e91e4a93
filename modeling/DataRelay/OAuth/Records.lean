import Mathlib.Data.Finset.Sort
import Mathlib.Data.String.Basic
import DataRelay.Python

/-! The records of the authorization server, its limits, and the strings it makes. -/

namespace DataRelay.OAuth
open Lib

/-! ### Limits -/

/-- `DEFAULT_SCOPE`. -/
def defaultScope : String := "mcp:proxy"

/-- `CODE_TTL_S`. -/
def codeTtlS : Time := seconds 60

/-- `ACCESS_TTL_S`. -/
def accessTtlS : ℤ := 3600

/-- `REFRESH_TTL_S`. -/
def refreshTtlS : ℤ := 30 * 24 * 3600

/-- `MAX_DCR_CLIENTS`. -/
def maxDcrClients : ℕ := 64

/-- `MAX_INACTIVE_DCR_CLIENTS`. -/
def maxInactiveDcrClients : ℕ := 16

/-- `INACTIVE_CLIENT_TTL_S`. -/
def inactiveClientTtlS : Time := seconds (60 * 60)

/-- `MAX_PENDING_AUTHORIZATIONS`. -/
def maxPendingAuthorizations : ℕ := 32

/-- `MAX_PENDING_PER_CLIENT`. -/
def maxPendingPerClient : ℕ := 4

/-- `AUTHZ_RATE_LIMIT`. -/
def authzRateLimit : ℕ := 16

/-- `AUTHZ_RATE_WINDOW_S`. -/
def authzRateWindowS : Time := seconds 60

/-- `DCR_RATE_LIMIT`. -/
def dcrRateLimit : ℕ := 8

/-- `DCR_RATE_WINDOW_S`. -/
def dcrRateWindowS : Time := seconds (15 * 60)

/-- `OWNER_FAIL_LIMIT`. -/
def ownerFailLimit : ℕ := 5

/-- `OWNER_FAIL_WINDOW_S`. -/
def ownerFailWindowS : Time := seconds (15 * 60)

/-- `MAX_RATE_LIMIT_SOURCES`. -/
def maxRateLimitSources : ℕ := 256

/-! ### Records -/

/-- What the authorization server reads of the relay's configuration. -/
structure Config where
  publicBaseUrl : String
  resourceUrl : String
  ownerApprovalSecret : Option String
  oauthStatePath : Option String

/-- `RegisteredClient`. -/
structure RegisteredClient where
  clientId : String
  redirectUris : List String
  clientName : Option String
  tokenEndpointAuthMethod : String
  grantTypes : List String
  responseTypes : List String
  issuedAt : ℤ
  lastUsedAt : Time
deriving DecidableEq

/-- `AuthCode`. -/
structure AuthCode where
  code : String
  clientId : String
  redirectUri : String
  codeChallenge : String
  codeChallengeMethod : String
  resource : String
  scopes : Finset String
  expiresAt : Time
  used : Bool
deriving DecidableEq

/-- `AccessToken`. -/
structure AccessToken where
  token : String
  clientId : String
  resource : String
  scopes : Finset String
  expiresAt : Time
  revoked : Bool
  subject : String
deriving DecidableEq

/-- `RefreshToken`. -/
structure RefreshToken where
  token : String
  clientId : String
  resource : String
  scopes : Finset String
  expiresAt : Time
  revoked : Bool
  subject : String
deriving DecidableEq

/-- `PendingAuthorization`. -/
structure PendingAuthorization where
  requestId : String
  clientId : String
  redirectUri : String
  state : Option String
  codeChallenge : String
  codeChallengeMethod : String
  resource : String
  scopes : Finset String
  expiresAt : Time
deriving DecidableEq

/-- The subject that every token is issued to. -/
def relayOwner : String := "relay-owner"

/-! ### Strings -/

/-- `_new_token`; `random` stands for the 32 random bytes as text. -/
def newToken (kind random : String) : String := kind ++ "_" ++ random

/-- The kind of a token, without an underscore, can be read off it. -/
theorem newToken_kind {p q r r' : String} (hp : '_' ∉ p.toList) (hq : '_' ∉ q.toList)
    (h : newToken p r = newToken q r') : p = q := by
  have hkind : ∀ {p r : String}, '_' ∉ p.toList →
      (newToken p r).toList.takeWhile (· ≠ '_') = p.toList := by
    intro p r hp
    have hall : ∀ c ∈ p.toList, decide (c ≠ '_') = true := by
      intro c hc
      simpa using fun he : c = '_' => hp (he ▸ hc)
    have happ : (newToken p r).toList = p.toList ++ '_' :: r.toList := by simp [newToken]
    rw [happ, List.takeWhile_append_of_pos hall, List.takeWhile_cons_of_neg (by simp),
      List.append_nil]
  exact String.toList_inj.mp ((hkind hp).symm.trans ((congrArg _ (congrArg _ h)).trans (hkind hq)))

/-- `_pkce_s256`. -/
def pkceS256 (verifier : String) : Except PyError String :=
  match encodeAscii verifier with
  | .error e => .error e
  | .ok bytes => .ok (String.ofList (base64Url (sha256 bytes)))

/-- `sorted(s)` for a set of strings. -/
def sorted (s : Finset String) : List String :=
  Quotient.liftOn s.val (fun l => l.insertionSort (· ≤ ·)) fun a b h =>
    ((a.perm_insertionSort _).trans (h.trans (b.perm_insertionSort _).symm)).eq_of_pairwise
      (fun _ _ _ _ h h' => le_antisymm h h') (a.pairwise_insertionSort _)
      (b.pairwise_insertionSort _)

@[simp] theorem mem_sorted (s : Finset String) (x : String) : x ∈ sorted s ↔ x ∈ s := by
  obtain ⟨m, hm⟩ := s
  induction m using Quotient.inductionOn with
  | h l =>
    change x ∈ l.insertionSort (· ≤ ·) ↔ x ∈ l
    exact List.mem_insertionSort _

@[simp] theorem toFinset_sorted (s : Finset String) : (sorted s).toFinset = s := by
  ext x; simp

end DataRelay.OAuth
