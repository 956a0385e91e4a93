import DataRelay.Tools.Paths
import DataRelay.Tools.Values

/-! `work_admission`: whether a second worker may start beside the ones that hold a claim.

    A claim is read from JSON with its paths made canonical. The proposed one is then held against
    the existing ones check by check, and the first check that fails gives the answer. -/

namespace DataRelay.Tools.Admission
open Lib

/-- `AdmissionFactsError`, with the class that ambiguous facts are denied under. -/
def admissionFactsError (reason : String) : ToolError := .admissionFacts reason ambiguousFacts

def requireMapping : Json → String → Except ToolError Obj :=
  Tools.requireMapping admissionFactsError

def requireStr : Json → String → Except ToolError String := Tools.requireStr admissionFactsError

/-- `_require_int`, with a minimum. -/
def requireInt (value : Json) (label : String) (minimum : ℤ) : Except ToolError ℤ :=
  match value with
  | .int n =>
    if n < minimum then .error (admissionFactsError s!"{label} must be >= {intStr minimum}")
    else .ok n
  | _ => .error (admissionFactsError s!"{label} must be an integer")

/-- `_require_bool`. -/
def requireBool (value : Json) (label : String) : Except ToolError Bool :=
  match value with
  | .bool b => .ok b
  | _ => .error (admissionFactsError s!"{label} must be a boolean")

/-- `_require_list`. -/
def requireList (value : Json) (label : String) : Except ToolError (List Json) :=
  match value with
  | .arr items => .ok items
  | _ => .error (admissionFactsError s!"{label} must be a JSON array")

/-! ### Paths -/

/-- `value.strip().replace("\\", "/")`. -/
def slashed (value : String) : List Char :=
  (strip value).toList.map fun c => if c = '\\' then '/' else c

/-- What `normalize_path` raises for a path above its root. -/
def escapesRoot : ToolError := admissionFactsError "owned path escapes repository root via '..'"

/-- The loop of `normalize_path`: the parts so far, newest first, and the ones to come. -/
def collapse : List (List Char) → List (List Char) → Except ToolError (List (List Char))
  | parts, [] => .ok parts
  | parts, part :: rest =>
    if part = [] ∨ part = ['.'] then collapse parts rest
    else if part = ['.', '.'] then match parts with
      | [] => .error escapesRoot
      | _ :: before => collapse before rest
    else collapse (part :: parts) rest

/-- `normalize_path`. -/
def normalizePath (value : String) : Except ToolError String :=
  let text := slashed value
  if text = [] ∨ text = ['.'] ∨ text = ['/'] then
    .error (admissionFactsError "owned path must be a non-empty repository-relative path")
  else if text.head? = some '/' ∨ text[1]? = some ':' then
    .error (admissionFactsError "owned path must be repository-relative, not absolute")
  else match collapse [] (pathParts [] text) with
    | .error e => .error e
    | .ok [] => .error (admissionFactsError "owned path resolves to an empty path")
    | .ok parts => .ok (String.ofList (List.intercalate ['/'] parts.reverse))

/-- `text.rstrip("/")`. -/
def rstripSlash (text : String) : String :=
  String.ofList (text.toList.reverse.dropWhile (· = '/')).reverse

/-- `canonicalize_worktree`. -/
def canonicalizeWorktree (value : String) : Except ToolError String :=
  let text := slashed value
  if text.head? ≠ some '/' then
    .error (admissionFactsError "worktree must be an absolute path")
  else
    let normalized := normpath (String.ofList text)
    let normalized := if normalized ≠ "/" ∧ normalized.toList.getLast? = some '/' then
      rstripSlash normalized else normalized
    if ["", ".", "/"].contains normalized then
      .error (admissionFactsError "worktree canonicalization produced an invalid path")
    else .ok normalized

/-- The path with a slash behind it. -/
def slashBehind (path : String) : List Char :=
  if path.toList.getLast? = some '/' then path.toList else path.toList ++ ['/']

/-- `paths_overlap`, on the two paths as they are given, normalized once more. -/
def pathsOverlap (left right : String) : Except ToolError Bool :=
  match normalizePath left with
  | .error e => .error e
  | .ok a =>
    match normalizePath right with
    | .error e => .error e
    | .ok b => .ok (a = b || (slashBehind b).isPrefixOf a.toList ||
        (slashBehind a).isPrefixOf b.toList)

/-! ### Claims -/

/-- The status of a claim. -/
inductive ClaimStatus where
  | claimed
  | active
  | wait
  | yield
  | retry
  | complete
  | abandon
  | superseded
  | released
deriving DecidableEq, Repr

def ClaimStatus.text : ClaimStatus → String
  | .claimed => "CLAIMED"
  | .active => "ACTIVE"
  | .wait => "WAIT"
  | .yield => "YIELD"
  | .retry => "RETRY"
  | .complete => "COMPLETE"
  | .abandon => "ABANDON"
  | .superseded => "SUPERSEDED"
  | .released => "RELEASED"

/-- `KNOWN_CLAIM_STATUSES`. -/
def knownClaimStatuses : List ClaimStatus :=
  [.claimed, .active, .wait, .yield, .retry, .complete, .abandon, .superseded, .released]

/-- `ACTIVE_CLAIM_STATUSES`. -/
def activeClaimStatuses : List ClaimStatus := [.claimed, .active, .wait, .yield, .retry]

/-- The status that a text names, in any case of letters. -/
def claimStatus (text : String) : Option ClaimStatus :=
  knownClaimStatuses.find? fun s => s.text = upper text

/-- A runtime that several workers can use. -/
structure SharedRuntime where
  id : String
  isolated : Bool
deriving DecidableEq, Repr

/-- A claim of a worker: its work, its place, and the paths it owns. -/
structure Claim where
  claimId : String
  repository : String
  workstream : String
  intentRevision : ℤ
  worktree : String
  ownedPaths : List String
  status : ClaimStatus
  sharedRuntime : Option SharedRuntime
  dirty : Bool
  unpushed : Bool
  ambiguous : Bool
deriving DecidableEq, Repr

/-- The claim is held. -/
def Claim.isActive (claim : Claim) : Bool := activeClaimStatuses.contains claim.status

/-- The loop over `owned_paths`, from an index on. -/
def parseOwnedPaths (label : String) : List Json → ℕ → Except ToolError (List String)
  | [], _ => .ok []
  | item :: rest, index => do
    let text ← requireStr item s!"{label}.owned_paths[{index}]"
    let path ← normalizePath text
    let paths ← parseOwnedPaths label rest (index + 1)
    return path :: paths

/-- The status of a claim. -/
def parseStatus (raw : Json) (label : String) : Except ToolError ClaimStatus := do
  let text ← requireStr raw s!"{label}.status"
  match claimStatus text with
  | none => .error (admissionFactsError s!"{label}.status is unknown: {upper text}")
  | some status => return status

/-- The shared runtime of a claim, if it names one. -/
def parseRuntime (raw : Json) (label : String) : Except ToolError (Option SharedRuntime) :=
  match raw with
  | .null => .ok none
  | raw => do
    let runtime ← requireMapping raw s!"{label}.shared_runtime"
    let id ← requireStr (field runtime "id") s!"{label}.shared_runtime.id"
    let isolated ← requireBool (field runtime "isolated") s!"{label}.shared_runtime.isolated"
    return some ⟨id, isolated⟩

/-- `parse_claim`. -/
def parseClaim (raw : Json) (label : String) : Except ToolError Claim := do
  let data ← requireMapping raw label
  let claimId ← requireStr (field data "claim_id") s!"{label}.claim_id"
  let repository ← requireStr (field data "repository") s!"{label}.repository"
  let workstream ← requireStr (field data "workstream") s!"{label}.workstream"
  let intentRevision ← requireInt (field data "intent_revision") s!"{label}.intent_revision" 1
  let worktreeText ← requireStr (field data "worktree") s!"{label}.worktree"
  let worktree ← canonicalizeWorktree worktreeText
  let ownedRaw ← requireList (fieldD data "owned_paths" (.arr [])) s!"{label}.owned_paths"
  let ownedPaths ← parseOwnedPaths label ownedRaw 0
  let status ← parseStatus (fieldD data "status" (.str "CLAIMED")) label
  let sharedRuntime ← parseRuntime (field data "shared_runtime") label
  let dirty ← requireBool (fieldD data "dirty" (.bool false)) s!"{label}.dirty"
  let unpushed ← requireBool (fieldD data "unpushed" (.bool false)) s!"{label}.unpushed"
  let ambiguous ← requireBool (fieldD data "ambiguous" (.bool false)) s!"{label}.ambiguous"
  return {
    claimId := claimId
    repository := repository
    workstream := workstream
    intentRevision := intentRevision
    worktree := worktree
    ownedPaths := ownedPaths
    status := status
    sharedRuntime := sharedRuntime
    dirty := dirty
    unpushed := unpushed
    ambiguous := ambiguous }

/-- The existing claims, numbered from `index`. -/
def parseClaims : List Json → ℕ → Except ToolError (List Claim)
  | [], _ => .ok []
  | item :: rest, index => do
    let claim ← parseClaim item s!"existing_claims[{index}]"
    let claims ← parseClaims rest (index + 1)
    return claim :: claims

/-- The claims that are held. -/
def activeClaims (claims : List Claim) : List Claim := claims.filter Claim.isActive

/-- `claim_identity_key`. -/
def Claim.identityKey (claim : Claim) : String × String × ℤ :=
  (claim.repository, claim.workstream, claim.intentRevision)

/-- How the check of the host's resources ended. -/
inductive HostResult where
  | pass
  | warn
  | block
deriving DecidableEq, Repr

def HostResult.text : HostResult → String
  | .pass => "PASS"
  | .warn => "WARN"
  | .block => "BLOCK"

/-- The check of the host's resources. -/
structure HostResource where
  result : HostResult
  exitCode : ℤ
deriving DecidableEq, Repr

/-- The result of a name, in any case. -/
def hostResult (text : String) : Option HostResult :=
  [HostResult.pass, .warn, .block].find? fun r => r.text = upper text

/-- `parse_host_resource`. -/
def parseHostResource (raw : Json) : Except ToolError HostResource := do
  let data ← requireMapping raw "host_resource"
  let text ← requireStr (field data "result") "host_resource.result"
  match hostResult text with
  | none => .error (admissionFactsError "host_resource.result must be PASS, WARN, or BLOCK")
  | some result =>
    let exitCode ← requireInt (field data "exit_code") "host_resource.exit_code" 0
    if result ≠ .block ∧ exitCode ≠ 0 then
      .error (admissionFactsError "host_resource PASS/WARN requires exit_code 0")
    if result = .block ∧ exitCode ≠ 2 ∧ exitCode ≠ 3 then
      .error (admissionFactsError "host_resource BLOCK requires exit_code 2 or 3")
    return ⟨result, exitCode⟩

/-! ### The decision -/

/-- How an admission is decided. -/
inductive Decision where
  | allow
  | deny
deriving DecidableEq, Repr

def Decision.text : Decision → String
  | .allow => "ALLOW"
  | .deny => "DENY"

/-- What is reported: the decision and its reason, and fields of the command. -/
structure Report where
  decision : Decision
  exitCode : String
  reason : String
  denyClass : String
  mutatesExistingSessions : String
  fields : List (String × String)
deriving DecidableEq, Repr

/-- A report that denies. -/
def deny (reason denyClass : String) (fields : List (String × String)) : Report :=
  ⟨.deny, "2", reason, denyClass, "NO", fields⟩

/-- A report that allows. -/
def allow (reason : String) (fields : List (String × String)) : Report :=
  ⟨.allow, "0", reason, "NONE", "NO", fields⟩

/-- The reason and the class of a denial. -/
structure Denial where
  reason : String
  denyClass : String
deriving DecidableEq, Repr

/-- The loop over all existing claims: `seenIds` are the ids before. -/
def checkExisting : List String → List Claim → Option Denial
  | _, [] => none
  | seenIds, claim :: rest =>
    if seenIds.contains claim.claimId then
      some ⟨s!"duplicate claim_id {claim.claimId} in existing claims", "AMBIGUOUS_CLAIM"⟩
    else if claim.ambiguous ∧ claim.isActive then
      some ⟨s!"existing claim {claim.claimId} is ambiguous", "AMBIGUOUS_CLAIM"⟩
    else checkExisting (claim.claimId :: seenIds) rest

/-- Two claims that share a runtime which one of them does not isolate. -/
def runtimesConflict : Option SharedRuntime → Option SharedRuntime → Bool
  | some left, some right => left.id = right.id && (!left.isolated || !right.isolated)
  | _, _ => false

/-- The id of a shared runtime, empty if there is none. -/
def runtimeId : Option SharedRuntime → String
  | some runtime => runtime.id
  | none => ""

/-- One path of the proposed claim against the paths of another claim. -/
def checkPath (claimId left : String) : List String → Except ToolError (Option Denial)
  | [] => .ok none
  | right :: rights =>
    match pathsOverlap left right with
    | .error e => .error e
    | .ok true => .ok (some ⟨s!"owned path {String.ofList (reprStr left)} overlaps claim " ++
        s!"{claimId} path {String.ofList (reprStr right)}", "OVERLAPPING_PATHS"⟩)
    | .ok false => checkPath claimId left rights

/-- The inner loops over the owned paths of one claim. -/
def checkPaths (claimId : String) (rights : List String) :
    List String → Except ToolError (Option Denial)
  | [] => .ok none
  | left :: lefts =>
    match checkPath claimId left rights with
    | .ok none => checkPaths claimId rights lefts
    | r => r

/-- The proposed claim against one active claim. -/
def checkClaim (proposed claim : Claim) : Except ToolError (Option Denial) :=
  if runtimesConflict proposed.sharedRuntime claim.sharedRuntime then
    .ok (some ⟨s!"shared runtime {runtimeId proposed.sharedRuntime} " ++
      "is not isolated for both claims", "SHARED_RUNTIME"⟩)
  else if claim.repository ≠ proposed.repository then .ok none
  else if claim.worktree = proposed.worktree then
    .ok (some ⟨s!"proposed worktree overlaps active claim {claim.claimId}", "SHARED_WORKTREE"⟩)
  else if claim.identityKey = proposed.identityKey then
    .ok (some ⟨"repository/workstream/intent_revision claim identity already held",
      "OVERLAPPING_CLAIM"⟩)
  else if claim.workstream = proposed.workstream ∧
      claim.intentRevision ≠ proposed.intentRevision then
    .ok (some ⟨s!"stale or conflicting intent_revision against claim {claim.claimId}",
      "STALE_INTENT_REVISION"⟩)
  else if proposed.ownedPaths = [] ∨ claim.ownedPaths = [] then
    .ok (some ⟨"insufficient ownership facts to prove same-repository independence",
      "INSUFFICIENT_OWNERSHIP"⟩)
  else checkPaths claim.claimId claim.ownedPaths proposed.ownedPaths

/-- The loop over the active claims, up to the first that denies. -/
def checkLive (proposed : Claim) : List Claim → Except ToolError (Option Denial)
  | [] => .ok none
  | claim :: rest =>
    match checkClaim proposed claim with
    | .ok none => checkLive proposed rest
    | r => r

/-- The first thing that speaks against the proposed claim. -/
def denial (proposed : Claim) (existing : List Claim) (host : HostResource) (wipLimit : ℤ) :
    Except ToolError (Option Denial) :=
  let live := activeClaims existing
  if proposed.ambiguous then
    .ok (some ⟨"proposed claim is marked ambiguous", "AMBIGUOUS_CLAIM"⟩)
  else if proposed.isActive = false then
    .ok (some ⟨s!"proposed claim status {proposed.status.text} is not an active worker status",
      "AMBIGUOUS_CLAIM"⟩)
  else if host.result = .block then
    .ok (some ⟨s!"host resource admission blocked with result {host.result.text} " ++
      s!"exit {intStr host.exitCode}", "HOST_BUDGET"⟩)
  else match checkExisting [] existing with
  | some d => .ok (some d)
  | none =>
    if (existing.map Claim.claimId).contains proposed.claimId then
      .ok (some ⟨s!"proposed claim_id {proposed.claimId} already exists", "AMBIGUOUS_CLAIM"⟩)
    else if live ≠ [] ∧ wipLimit ≤ live.length then
      .ok (some ⟨s!"active claims {live.length} already meet wip_limit {intStr wipLimit}",
        "WIP_LIMIT"⟩)
    else checkLive proposed live

/-- `evaluate_admit`. -/
def evaluateAdmit (request : Obj) : Except ToolError Report := do
  let proposed ← parseClaim (field request "proposed") "proposed"
  let existingRaw ← requireList (fieldD request "existing_claims" (.arr [])) "existing_claims"
  let existing ← parseClaims existingRaw 0
  let host ← parseHostResource (field request "host_resource")
  let wipLimit ← requireInt (fieldD request "wip_limit" (.int 1)) "wip_limit" 1
  let fields := [("PROPOSED_CLAIM_ID", proposed.claimId),
    ("ACTIVE_CLAIM_COUNT", toString (activeClaims existing).length),
    ("WIP_LIMIT", intStr wipLimit), ("HOST_RESOURCE_RESULT", host.result.text)]
  match ← denial proposed existing host wipLimit with
  | some d => return deny d.reason d.denyClass fields
  | none => return allow "proposed worker is independent under claim/worktree/resource facts" fields

end DataRelay.Tools.Admission
