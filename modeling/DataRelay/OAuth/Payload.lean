import DataRelay.Lib.Json
import DataRelay.OAuth.Records

/-! The durable records as JSON: the payload that `_persist_locked` writes and `_load_payload` reads.

    Reading applies the defaults of the source, `or` included. A field whose value is not of the
    type the service writes is refused here; Python would convert some of these. -/

namespace DataRelay.OAuth
open Lib

/-! ### Writing -/

/-- A list of texts. -/
def strs (l : List String) : Json := .arr (l.map .str)

/-- A text or `None`. -/
def optStr : Option String → Json
  | none => .null
  | some s => .str s

/-- The record of a client. -/
def clientRecord (c : RegisteredClient) : Json :=
  .obj [("client_id", .str c.clientId), ("redirect_uris", strs c.redirectUris),
    ("client_name", optStr c.clientName),
    ("token_endpoint_auth_method", .str c.tokenEndpointAuthMethod),
    ("grant_types", strs c.grantTypes), ("response_types", strs c.responseTypes),
    ("issued_at", .int c.issuedAt), ("last_used_at", .float c.lastUsedAt)]

/-- The record of a refresh token. -/
def refreshRecord (t : RefreshToken) : Json :=
  .obj [("token", .str t.token), ("client_id", .str t.clientId), ("resource", .str t.resource),
    ("scopes", strs (sorted t.scopes)), ("expires_at", .float t.expiresAt),
    ("revoked", .bool t.revoked), ("subject", .str t.subject)]

/-- The payload of the two tables. -/
def payload (clients : Dict String RegisteredClient) (refreshTokens : Dict String RefreshToken) :
    Json :=
  .obj [("version", .int 1),
    ("clients", .obj (clients.items.map fun e => (e.1, clientRecord e.2))),
    ("refresh_tokens", .obj (refreshTokens.items.map fun e => (e.1, refreshRecord e.2)))]

/-! ### Reading -/

/-- Python's truth value; a missing field counts as `None`. -/
def truthy : Option Json → Bool
  | none => false
  | some .null => false
  | some (.bool b) => b
  | some (.int n) => n ≠ 0
  | some (.float x) => x ≠ 0
  | some (.str s) => s ≠ ""
  | some (.arr items) => !items.isEmpty
  | some (.obj fields) => !fields.isEmpty

/-- `value.get(key) or default`. -/
def orDefault (value : Option Json) (default : Json) : Json :=
  if truthy value then value.getD default else default

/-- The text of a value that is one. -/
def asStr : Json → Option String
  | .str s => some s
  | _ => none

/-- A string or `None`. -/
def asOptStr : Json → Option (Option String)
  | .null => some none
  | .str s => some (some s)
  | _ => none

/-- The texts of a list that has no other items. -/
def asStrs : Json → Option (List String)
  | .arr items => items.mapM asStr
  | _ => none

/-- `int(value)` of a number. -/
def asInt : Json → Option ℤ
  | .int n => some n
  | .float x => some (Time.toInt x)
  | .bool b => some b.toInt
  | _ => none

/-- `float(value)` of a number. -/
def asTime : Json → Option Time
  | .int n => some (seconds n)
  | .float x => some x
  | .bool b => some (seconds b.toInt)
  | _ => none

/-- A client from its record. -/
def readClient (value : Json) : Option RegisteredClient := do
  let clientId ← asStr (← value.get? "client_id")
  let redirectUris ← asStrs (← value.get? "redirect_uris")
  let clientName ← asOptStr ((value.get? "client_name").getD .null)
  let authMethod ← asStr ((value.get? "token_endpoint_auth_method").getD (.str "none"))
  let grantTypes ← asStrs
    (orDefault (value.get? "grant_types") (strs ["authorization_code", "refresh_token"]))
  let responseTypes ← asStrs (orDefault (value.get? "response_types") (strs ["code"]))
  let issuedAt ← asInt (← value.get? "issued_at")
  let lastUsedAt ← asTime (orDefault (value.get? "last_used_at") (← value.get? "issued_at"))
  return ⟨clientId, redirectUris, clientName, authMethod, grantTypes, responseTypes, issuedAt,
    lastUsedAt⟩

/-- A refresh token from its record. -/
def readRefresh (value : Json) : Option RefreshToken := do
  let token ← asStr (← value.get? "token")
  let clientId ← asStr (← value.get? "client_id")
  let resource ← asStr (← value.get? "resource")
  let scopes ← asStrs (orDefault (value.get? "scopes") (.arr []))
  let expiresAt ← asTime (← value.get? "expires_at")
  let subject ← asStr (orDefault (value.get? "subject") (.str relayOwner))
  return ⟨token, clientId, resource, scopes.toFinset, expiresAt, truthy (value.get? "revoked"),
    subject⟩

/-- One turn of the loop over the stored clients. -/
def readClientItem (item : String × Json) : Except PyError (String × RegisteredClient) :=
  match readClient item.2 with
  | none => .error (.oauthState "invalid durable client record")
  | some c =>
    if c.clientId ≠ item.1 then .error (.oauthState "durable client_id mismatch")
    else .ok (item.1, c)

/-- One turn of the loop over the stored refresh tokens. -/
def readRefreshItem (item : String × Json) : Except PyError (String × RefreshToken) :=
  match readRefresh item.2 with
  | none => .error (.oauthState "invalid durable refresh token record")
  | some t =>
    if t.token ≠ item.1 then .error (.oauthState "durable refresh token key mismatch")
    else .ok (item.1, t)

/-- The items of a map of the payload; a missing or empty one has none. -/
def itemsOf (payload : Json) (key : String) : List (String × Json) :=
  match payload.get? key with
  | some (.obj fields) => fields
  | _ => []

/-- `_load_payload`: the clients and the refresh tokens of a payload. -/
def loadPayload (payload : Json) :
    Except PyError (Dict String RegisteredClient × Dict String RefreshToken) := do
  let clients ← (itemsOf payload "clients").mapM readClientItem
  let refreshTokens ← (itemsOf payload "refresh_tokens").mapM readRefreshItem
  return (Dict.ofList clients, Dict.ofList refreshTokens)

end DataRelay.OAuth
