import Mathlib.Data.Finset.Sort
import DataRelay.Tools.Dispatch
import DataRelay.Tools.Host

/-! The permission contract: the profiles, the merge of a repository's contract into them, and
    `authorize`.

    `authorize` is run by the agent whose action it decides on, in a repository that this agent
    writes. What it reads stands in a `Sight`: the host's trust anchor, the two signed assertions, the
    contract of the repository (which it loads twice) and the clock. `Profiles` cannot hold a profile
    that allows more than the default of its name. -/

namespace DataRelay.Tools.Skills
open Lib
open Watch (sha256Hex)
open Host (canonicalRequestSha256 isText)

/-! ### Classes, profiles and tools -/

/-- `ACTION_CLASSES`. -/
def actionClasses : Finset String :=
  {"read", "repo_write", "shell", "network", "external_read", "external_write", "production_read",
    "production_write", "destructive"}

/-- `HIGH_RISK_CLASSES`. -/
def highRiskClasses : Finset String := {"external_write", "production_write", "destructive"}

/-- The classes of a list of names, in the order of their names. -/
def sorted (classes : Finset String) : List String := classes.sort (· ≤ ·)

/-- A profile allows or denies every class, and requires approval for some that it allows. -/
structure Profile where
  allowed : Finset String
  denied : Finset String
  requireApproval : Finset String
  apart : Disjoint allowed denied
  covers : allowed ∪ denied = actionClasses
  approval : requireApproval ⊆ allowed

/-- `_profile`, which raises where the three sets make no profile. -/
def profile (allowed denied requireApproval : Finset String) : Option Profile :=
  if h : Disjoint allowed denied ∧ allowed ∪ denied = actionClasses ∧ requireApproval ⊆ allowed then
    some ⟨allowed, denied, requireApproval, h.1, h.2.1, h.2.2⟩
  else none

/-- The profile that denies whatever it does not allow. -/
def allowing (allowed requireApproval : Finset String) (h : allowed ⊆ actionClasses)
    (ha : requireApproval ⊆ allowed) : Profile :=
  ⟨allowed, actionClasses \ allowed, requireApproval, Finset.disjoint_sdiff,
    Finset.union_sdiff_of_subset h, ha⟩

/-- What the profiles from `external_read` on have in common. -/
def externalReads : Finset String := {"read", "repo_write", "shell", "network", "external_read"}

/-- `DEFAULT_PROFILES`. -/
def defaultProfiles : Dict String Profile := .ofList [
  ("repo_read", allowing {"read"} ∅ (by decide +kernel) (by decide +kernel)),
  ("repo_write", allowing {"read", "repo_write", "shell"} ∅ (by decide +kernel) (by decide +kernel)),
  ("external_read", allowing externalReads ∅ (by decide +kernel) (by decide +kernel)),
  ("external_write", allowing (insert "external_write" externalReads) {"external_write"}
    (by decide +kernel) (by decide +kernel)),
  ("production_read", allowing (insert "production_read" externalReads) ∅ (by decide +kernel)
    (by decide +kernel)),
  ("production_write", allowing actionClasses highRiskClasses (by decide +kernel)
    (by decide +kernel))]

/-- `DEFAULT_TOOL_REGISTRY`. -/
def defaultToolRegistry : Dict String (Finset String) := .ofList [
  ("repo.read", {"read"}),
  ("repo.write", {"read", "repo_write"}),
  ("shell.local", {"shell"}),
  ("shell.network", {"shell", "network", "external_read"}),
  ("shell.external_write", {"shell", "network", "external_read", "external_write"}),
  ("shell.production_write",
    {"shell", "network", "external_read", "production_write", "destructive"}),
  ("network.fetch", {"network", "external_read"}),
  ("network.post", {"network", "external_write"}),
  ("production.read", {"production_read", "network", "external_read"}),
  ("production.write", {"production_write", "network", "external_write", "destructive"})]

/-- `is_narrowing`. -/
def Profile.Narrows (custom canonical : Profile) : Prop :=
  custom.allowed ⊆ canonical.allowed ∧ canonical.denied ⊆ custom.denied ∧
    canonical.requireApproval ⊆ custom.requireApproval

instance (custom canonical : Profile) : Decidable (custom.Narrows canonical) :=
  inferInstanceAs (Decidable (_ ∧ _))

theorem Profile.Narrows.refl (p : Profile) : p.Narrows p :=
  ⟨Finset.Subset.refl _, Finset.Subset.refl _, Finset.Subset.refl _⟩

/-- The active profiles: each narrows the default of its name, and no default is missing. -/
structure Profiles where
  entries : Dict String Profile
  narrow : ∀ name p, entries.get? name = some p →
    ∃ d, defaultProfiles.get? name = some d ∧ p.Narrows d
  total : ∀ name d, defaultProfiles.get? name = some d → ∃ p, entries.get? name = some p

/-- The default profiles, as they are. -/
def Profiles.default : Profiles where
  entries := defaultProfiles
  narrow _ p h := ⟨p, h, .refl p⟩
  total _ d h := ⟨d, h⟩

/-- `profiles[name] = parsed`, behind the checks of the merge. -/
def Profiles.replace (ps : Profiles) (name : String) (p d : Profile)
    (h : defaultProfiles.get? name = some d) (hn : p.Narrows d) : Profiles where
  entries := ps.entries.set name p
  narrow k q hq := by
    rcases Dict.get?_of_set hq with ⟨rfl, rfl⟩ | ⟨-, hold⟩
    · exact ⟨d, h, hn⟩
    · exact ps.narrow k q hold
  total k q hq := by
    by_cases hk : k = name
    · exact ⟨p, by rw [hk, Dict.get?_set_self]⟩
    · rw [Dict.get?_set_ne _ hk]
      exact ps.total k q hq

/-! ### Reading a contract -/

/-- What is wrong with a contract. -/
structure Finding where
  code : String
  detail : String
deriving DecidableEq, Repr

/-- `finding`, which cuts the detail. -/
def finding (code detail : String) : Finding := ⟨code, String.ofList (detail.toList.take 180)⟩

/-- What ends `authorize` without a decision: `SystemExit` with its text, the exceptions that a caller
    tells apart, and any other. -/
inductive Abort where
  | exit (message : String)
  | osError
  | jsonError
  | otherError
deriving DecidableEq, Repr

/-- `normalize_classes`. -/
def normalizeClasses : Json → Option (Finset String)
  | .null => some ∅
  | .str s =>
    let parts := (s.toList.splitOn ',').map fun part => strip (String.ofList part)
    some (parts.filter (· ≠ "")).toFinset
  | .arr items =>
    let parts := items.map fun item => strip (pyStr item)
    if "" ∈ parts then none else some parts.toFinset
  | _ => none

/-- The keys of an object, as a set. -/
def keySet (fields : Obj) : Finset String := (fields.map Prod.fst).toFinset

/-- `parse_profile_mapping`. -/
def parseProfileMapping : Json → Option Profile
  | .obj fields =>
    if keySet fields ≠ {"allowed", "denied", "require_approval"} then none
    else do
      let allowed ← normalizeClasses (field fields "allowed")
      let denied ← normalizeClasses (field fields "denied")
      let approval ← normalizeClasses (field fields "require_approval")
      if ¬ allowed ⊆ actionClasses ∨ ¬ denied ⊆ actionClasses ∨ ¬ approval ⊆ actionClasses then
        none
      else profile allowed denied approval
  | _ => none

/-- One profile of a contract. -/
def mergeProfile (merged : Profiles × List Finding) (entry : String × Json) :
    Profiles × List Finding :=
  let (profiles, findings) := merged
  let (name, raw) := entry
  match h : defaultProfiles.get? name with
  | none => (profiles, findings ++ [finding "PROFILE" s!"unknown profile {name}"])
  | some canonical =>
    match parseProfileMapping raw with
    | none => (profiles, findings ++ [finding "PROFILE" s!"invalid profile {name}"])
    | some parsed =>
      if hn : parsed.Narrows canonical then (profiles.replace name parsed canonical h hn, findings)
      else (profiles, findings ++ [finding "PROFILE_BROADEN" name])

/-- `merge_profiles`. -/
def mergeProfiles (custom : Json) : Profiles × List Finding :=
  if !truthy custom then (.default, [])
  else match custom with
    | .obj fields => fields.foldl mergeProfile (.default, [])
    | _ => (.default, [finding "PROFILE" "profiles mapping required"])

/-- What `for item in value or []` goes through. -/
def iterate (value : Json) : Except Abort (List Json) :=
  if !truthy value then .ok []
  else match value with
    | .arr items => .ok items
    | .str s => .ok (s.toList.map fun c => .str (String.ofList [c]))
    | .obj fields => .ok (fields.map fun e => .str e.1)
    | _ => .error .otherError

/-- A list of texts. -/
def strings (texts : List String) : Json := .arr (texts.map .str)

/-- `profile_to_public`. -/
def profileToPublic (p : Profile) : Json :=
  .obj [("allowed", strings (sorted p.allowed)), ("denied", strings (sorted p.denied)),
    ("require_approval", strings (sorted p.requireApproval))]

/-- `HOOK_NAMES`. -/
def hookNames : List String := ["session_start", "pre_tool", "post_tool", "session_end"]

/-- What is digested of one hook. -/
def hookEntry : Json → Json
  | .obj item => .obj [("id", .str (strOrEmpty (field item "id"))),
      ("kind", .str (strOrEmpty (field item "kind")))]
  | item => .obj [("id", .str (pyStr item)), ("kind", .str "invalid")]

/-- `_hook_payload`. -/
def hookPayload : Json → Except Abort Obj
  | .obj hooks => hookNames.mapM fun name => do
      let items ← iterate (field hooks name)
      return (name, .arr (items.map hookEntry))
  | _ => .ok (hookNames.map fun name => (name, .arr []))

/-- What is digested of one skill. -/
def skillPayload (skill : Obj) : Except Abort Obj := do
  let resources ← iterate (field skill "resources")
  let scripts ← iterate (field skill "scripts")
  return [("id", field skill "id"), ("trigger", field skill "trigger"),
    ("body", field skill "body"), ("resources", .arr resources), ("scripts", .arr scripts)]

/-- The mappings of a list; the other items are passed over. -/
def mappings (items : List Json) : List Obj :=
  items.filterMap fun
    | .obj fields => some fields
    | _ => none

/-- `_contract_authority_payload`. -/
def contractAuthorityPayload (profiles : Profiles) (contract : Option Obj) : Except Abort Json := do
  let loaded := contract.getD []
  let items ← iterate (field loaded "skills")
  let skills ← (mappings items).mapM skillPayload
  let hooks ← hookPayload (field loaded "hooks")
  let byId := skills.insertionSort fun a b => strOrEmpty (field a "id") ≤ strOrEmpty (field b "id")
  return .obj [("hooks_executable", .bool false), ("resources_executable", .bool false),
    ("scripts_grant_execution", .bool false), ("hooks", .obj hooks),
    ("profiles", .obj (profiles.entries.items.map fun e => (e.1, profileToPublic e.2))),
    ("skills", .arr (byId.map .obj)),
    ("tools", .obj (defaultToolRegistry.items.map fun e => (e.1, strings (sorted e.2))))]

/-- `policy_digest`. -/
def policyDigest (profiles : Profiles) (contract : Option Obj) : Except Abort String := do
  return sha256Hex (Json.dumps (← contractAuthorityPayload profiles contract))

/-! ### The contract of a repository -/

/-- What is found at a path below the repository. -/
inductive PathState where
  | outside | missing | file
deriving DecidableEq, Repr

/-- One look at `.engineering/skills.yaml`: the document as far as JSON has its values, or the first
    line of what the YAML reader says. -/
inductive ContractFile where
  | absent
  | unreadable (e : Abort)
  | malformed (line : String)
  | loaded (document : Json)

/-- What a run sees of the repository. The contract is loaded by `check_contract`, and once more. -/
structure Repository where
  first : ContractFile
  second : ContractFile
  /-- What the repository's own schema says about a document. -/
  schemaFindings : Json → Except Abort (List Finding)
  resolved : String → Except Abort PathState

/-- `safe_repo_path`, and whether a file is there. -/
def safeRepoPath (repo : Repository) : Json → Except Abort PathState
  | .str raw =>
    if raw = "" ∨ ['/', '\\'].contains (raw.toList.headD ' ') ∨ raw.toList.contains '\\' then
      .ok .outside
    else if (pathParts [] raw.toList).contains ['.', '.'] then .ok .outside
    else repo.resolved raw
  | _ => .ok .outside

/-- The finding about one path of a skill. -/
def pathFinding (repo : Repository) (label : String) (raw : Json) : Except Abort (List Finding) := do
  match ← safeRepoPath repo raw with
  | .outside => return [finding "PATH" label]
  | .missing => return [finding "PATH_MISSING" label]
  | .file => return []

/-- The findings about a list of paths of a skill. -/
def pathFindings (repo : Repository) (label : String) (raws : List Json) :
    Except Abort (List Finding) := do
  return (← raws.mapM (pathFinding repo label)).flatten

/-- The loop of `skill_path_findings`, with the ids that were seen. -/
def skillFindings (repo : Repository) : List Json → List String → Except Abort (List Finding)
  | [], _ => .ok []
  | .obj skill :: rest, seen => do
    let id := strOrEmpty (field skill "id")
    let duplicate := if seen.contains id then [finding "SKILL" s!"duplicate id {id}"] else []
    let body ← pathFinding repo s!"{id}:body" (field skill "body")
    let resources ← pathFindings repo s!"{id}:resource" (← iterate (field skill "resources"))
    let scripts ← pathFindings repo s!"{id}:script" (← iterate (field skill "scripts"))
    let others ← skillFindings repo rest (id :: seen)
    return duplicate ++ body ++ resources ++ scripts ++ others
  | _ :: rest, seen => do
    let others ← skillFindings repo rest seen
    return finding "SKILL" "skill mapping required" :: others

/-- `skill_path_findings`. -/
def skillPathFindings (repo : Repository) (contract : Obj) : Except Abort (List Finding) :=
  let skills := field contract "skills"
  if !truthy skills then .ok []
  else match skills with
    | .arr items => skillFindings repo items []
    | _ => .ok [finding "SKILL" "skills must be a list"]

/-- The finding about one hook, which is metadata and nothing else. -/
def hookFinding (name : String) : Json → List Finding
  | .obj item =>
    let id := pyStr (field item "id")
    if keySet item ≠ {"id", "kind"} then [finding "HOOK" s!"{name} fields"]
    else if !isText (field item "kind") "metadata" then
      [finding "HOOK_EXECUTABLE" s!"{name}:{id}"]
    else []
  | _ => [finding "HOOK" s!"{name} fields"]

/-- `hook_findings`. -/
def hookFindings (contract : Obj) : List Finding :=
  let hooks := field contract "hooks"
  if !truthy hooks then []
  else match hooks with
    | .obj fields =>
      if fields.any fun e => !hookNames.contains e.1 then [finding "HOOK" "unknown hook name"]
      else fields.flatMap fun
        | (name, .arr entries) => entries.flatMap (hookFinding name)
        | (name, _) => [finding "HOOK" s!"{name} list required"]
    | _ => [finding "HOOK" "unknown hook name"]

/-- What `check_contract` reports; the switches that are always off are left out. -/
structure ContractReport where
  isPresent : Bool
  pass : Bool
  policyDigest : String
  profiles : Option Profiles
  findings : List Finding

/-- `ordered`: by code, and by detail among the same. -/
def ordered (findings : List Finding) : List Finding :=
  findings.insertionSort fun a b => a.code < b.code ∨ a.code = b.code ∧ a.detail ≤ b.detail

/-- The findings about a mapping that its schema has none about, and the profiles it makes. -/
def contractFindings (repo : Repository) (contract : Obj) :
    Except Abort (List Finding × Profiles) := do
  let paths ← skillPathFindings repo contract
  let (merged, profileFindings) := mergeProfiles (field contract "profiles")
  return (paths ++ hookFindings contract ++ profileFindings, merged)

/-- The findings about a document, and the profiles it makes. -/
def documentFindings (repo : Repository) (schema : List Finding) :
    Json → Except Abort (List Finding × Profiles)
  | .obj contract => if schema = [] then contractFindings repo contract else .ok (schema, .default)
  | _ => .ok (schema, .default)

/-- The contract of a file, if it holds a mapping. -/
def contractOf : ContractFile → Option Obj
  | .loaded (.obj contract) => some contract
  | _ => none

/-- `check_contract`. -/
def checkContract (repo : Repository) : Except Abort ContractReport :=
  match repo.first with
  | .absent => do return ⟨false, true, ← policyDigest .default none, some .default, []⟩
  | .unreadable e => .error e
  | .malformed line => .ok ⟨true, false, "", none, [finding "SCHEMA" line]⟩
  | .loaded document => do
    let schema ← repo.schemaFindings document
    let (findings, profiles) ← documentFindings repo schema document
    if findings = [] then
      let digest ← policyDigest profiles (contractOf repo.first)
      return ⟨true, true, digest, some profiles, []⟩
    else return ⟨true, false, "", some profiles, ordered findings⟩

/-- `load_contract_instance`. -/
def loadContractInstance (repo : Repository) : Except Abort (Option Obj) :=
  match repo.second with
  | .unreadable e => .error e
  | file => .ok (contractOf file)

/-- `fail_usage`: the text that ends the run. -/
def failUsage (message : String) : Abort := .exit ("SKILLS_CONTRACT=FAIL " ++ message)

/-- `load_effective_state`: the profiles are those of the second look, the digest that of the first. -/
def loadEffectiveState (repo : Repository) : Except Abort (Profiles × String) := do
  let report ← checkContract repo
  if !report.pass then .error (failUsage "contract invalid")
  let contract ← loadContractInstance repo
  let (profiles, findings) := mergeProfiles (field (contract.getD []) "profiles")
  if findings ≠ [] then .error (failUsage "profile merge failed")
  return (profiles, report.policyDigest)

/-! ### Sessions and actions -/

/-- `AUTHORIZED_PERMISSIONS`: the permissions of who may author work. -/
def authorizedPermissions : Finset String := {"admin", "maintain", "write"}

/-- `normalize_permission`. -/
def normalizePermission (value : Json) : String := lower (strip (strOrEmpty value))

/-- `authorize_work_packet_author_permission`. -/
def authorizeAuthorPermission (permission : Json) : Except Abort String :=
  let normalized := normalizePermission permission
  if normalized ∈ authorizedPermissions then .ok normalized
  else .error (.exit "WORK_PACKET_AUTHOR_UNTRUSTED")

/-- The authority of a collaborator's permission. -/
def collaboratorBasis : String := "collaborator_permission"

/-- The authority of the policy for production approvers. -/
def productionApproverBasis : String := "production_approver_policy"

/-- The permission under this policy. -/
def productionApprover : String := "production_approver"

/-- `TrustedSessionBinding`. -/
structure SessionBinding where
  profile : String
  policyDigest : String
  authorityPermission : String
  authorityBasis : String
  approvedClasses : Finset String

/-- The permission of a session, by what its authority rests on. -/
def trustedPermission (profile basis : String) (permission : Json) : Except Abort String :=
  if basis = collaboratorBasis then authorizeAuthorPermission permission
  else if basis = productionApproverBasis ∧ normalizePermission permission = productionApprover ∧
      profile = "production_write" then .ok productionApprover
  else .error (failUsage "trusted authority basis invalid")

/-- `bind_session`. -/
def bindSession (profile : String) (permission : Json) (basis digest : String) (approved : Json)
    (profiles : Profiles) (expectedDigest publicKeySha256 : String) : Except Abort SessionBinding := do
  let permission ← trustedPermission profile (lower (strip basis)) permission
  if (profiles.entries.get? profile).isNone then .error (failUsage "unknown profile")
  if digest ≠ expectedDigest then .error (failUsage "policy digest mismatch")
  match normalizeClasses approved with
  | none => .error (failUsage "invalid approved classes")
  | some approved =>
    if ¬ approved ⊆ actionClasses then .error (failUsage "invalid approved classes")
    if publicKeySha256.toList.length ≠ 64 then .error (failUsage "invalid public key hash")
    return ⟨profile, digest, permission, lower (strip basis), approved⟩

/-- `ActionRequest`. -/
structure ActionRequest where
  toolId : String
  classes : Finset String

/-- `action_request_for_tool`. -/
def actionRequestForTool (toolId : String) : Except Abort ActionRequest :=
  match defaultToolRegistry.get? toolId with
  | none => .error (failUsage "unknown tool")
  | some classes => .ok ⟨toolId, classes⟩

/-- `Decision`: what is answered, and why. -/
structure Decision where
  allowed : Bool
  reason : String
deriving DecidableEq, Repr

/-- The decision that allows. -/
def Decision.allow : Decision := ⟨true, "ALLOW"⟩

/-- A decision that denies, with its reason. -/
def Decision.deny (reason : String) : Decision := ⟨false, reason⟩

/-- The loop of `evaluate_action` over the classes of a request. -/
def evaluateClasses (profile : Profile) (approved : Finset String) : List String → Decision
  | [] => .allow
  | c :: rest =>
    if c ∈ profile.denied ∨ c ∉ profile.allowed then .deny "CLASS_DENIED"
    else if c ∈ profile.requireApproval ∧ c ∉ approved then .deny "APPROVAL_REQUIRED"
    else evaluateClasses profile approved rest

/-- `evaluate_action`. -/
def evaluateAction (binding : SessionBinding) (request : ActionRequest) (profiles : Profiles)
    (expectedDigest : String) : Decision :=
  let collaborator : Bool := binding.authorityBasis = collaboratorBasis ∧
    binding.authorityPermission ∈ authorizedPermissions
  let approver : Bool := binding.authorityBasis = productionApproverBasis ∧
    binding.authorityPermission = productionApprover
  if binding.policyDigest ≠ expectedDigest then .deny "POLICY_DIGEST_MISMATCH"
  else if !(collaborator || approver) then .deny "AUTHORITY_UNTRUSTED"
  else if approver && request.toolId ≠ "shell.production_write" then .deny "AUTHORITY_UNTRUSTED"
  else match profiles.entries.get? binding.profile with
    | none => .deny "UNKNOWN_PROFILE"
    | some profile =>
      match defaultToolRegistry.get? request.toolId with
      | none => .deny "UNKNOWN_TOOL"
      | some registered =>
        if request.classes ≠ registered then .deny "CLASSIFICATION_TAMPER"
        else if request.classes = ∅ then .deny "EMPTY_CLASSIFICATION"
        else evaluateClasses profile binding.approvedClasses (sorted request.classes)

/-- The keys that only the assertions may set. -/
def overrideKeys : List String :=
  ["profile", "approval", "approved", "approved_classes", "policy_digest", "authority_permission",
    "authority_basis", "binding", "classes", "signature", "tool", "tool_id", "tool_classes",
    "private_key", "public_key", "trust_anchor"]

/-- `reject_untrusted_override`. -/
def rejectUntrustedOverride (payload : Obj) : Option Decision :=
  if payload.any fun e => overrideKeys.contains e.1 then some (.deny "UNTRUSTED_OVERRIDE") else none

/-! ### Signed assertions -/

/-- The trust anchor of the host: what the fixed verifier accepts under it, and the digest of its
    file. -/
structure Anchor where
  verify : List Char → String → Bool
  sha256 : String

/-- An assertion file, when it is looked for and read. -/
inductive AssertionFile where
  | missing
  | unreadable (e : Abort)
  | content (text : List Char)

/-- `canonical_payload_bytes`. -/
def canonicalPayload (payload : Obj) : List Char :=
  Json.dumps (.obj (payload.filter fun e => e.1 ≠ "signature"))

/-- `verify_signed_json`. -/
def verifySignedJson (anchor : Anchor) : AssertionFile → Except Abort Obj
  | .missing => .error .osError
  | .unreadable e => .error e
  | .content text =>
    match Json.loads text with
    | none => .error .jsonError
    | some (.obj payload) =>
      if !has payload "signature" then .error (failUsage "signed artifact incomplete")
      else if !anchor.verify (canonicalPayload payload) (pyStr (field payload "signature")) then
        .error (failUsage "signature mismatch")
      else .ok payload
    | some _ => .error (failUsage "signed artifact incomplete")

/-- `signed_payload_sha256`. -/
def signedPayloadSha256 (payload : Obj) : String := sha256Hex (canonicalPayload payload)

/-! ### The scope of a dispatch with a high risk -/

/-- `AUTHORITY_SCOPE_KEYS`. -/
def authorityScopeKeys : Finset String :=
  {"target_repo", "worktree", "workstream", "branch", "subject_head", "intent_revision", "session_id"}

/-- `WORKSTREAM_RE.fullmatch`. -/
def workstreamSlug (s : String) : Bool := workstreamRe s && s.toList.length ≤ 120

/-- `SESSION_ID_RE.fullmatch`. -/
def sessionId (s : String) : Bool :=
  match s.toList with
  | [] => false
  | c :: cs => isAlnumAscii c && cs.length ≤ 127 && cs.all fun c => isSlugChar c || c == ':'

/-- A branch of at most 240 characters on one line. -/
def branchName (s : String) : Bool :=
  s ≠ "" && s.toList.length ≤ 240 && !s.toList.any fun c => c == '\r' || c == '\n' || c.toNat == 0

/-- A field that is a text and passes its pattern. -/
def textField (scope : Obj) (key : String) (pattern : String → Bool) : Option String :=
  match field scope key with
  | .str s => if pattern s then some s else none
  | _ => none

/-- `AUTHORITY_SCOPE`, once its fields have passed their patterns. -/
structure Scope where
  targetRepo : String
  worktree : String
  workstream : String
  branch : String
  subjectHead : String
  intentRevision : ℤ
  sessionId : String
deriving DecidableEq, Repr

/-- The fields of a scope, each by its pattern. -/
def parseScope (scope : Obj) : Option Scope := do
  let targetRepo ← textField scope "target_repo" repositoryRe
  let worktree ← textField scope "worktree" (· ≠ "")
  let workstream ← textField scope "workstream" workstreamSlug
  let branch ← textField scope "branch" branchName
  let subjectHead ← textField scope "subject_head" fullSha
  let intentRevision ← match field scope "intent_revision" with
    | .int n => if 1 ≤ n then some n else none
    | _ => none
  let session ← textField scope "session_id" sessionId
  return ⟨targetRepo, worktree, workstream, branch, subjectHead, intentRevision, session⟩

/-- `value == n`, which `True`, `False` and a float can be too. -/
def isInt (value : Json) (n : ℤ) : Bool :=
  match value with
  | .int m => m = n
  | .float x => x = n * 10 ^ 7
  | .bool b => n = if b then 1 else 0
  | _ => false

/-- The request names the same place, work and revision as the scope. -/
def Scope.matchesRequest (scope : Scope) (request : Obj) : Bool :=
  isText (field request "target_repo") scope.targetRepo &&
    isText (field request "workstream") scope.workstream &&
    isText (field request "branch") scope.branch &&
    isText (field request "subject_head") scope.subjectHead &&
    isInt (field request "intent_revision") scope.intentRevision

/-- `_high_risk_scope_problem`; `atRoot` is what comparing the resolved worktree and root gives, an
    `OSError` being a difference. -/
def highRiskScopeProblem (atRoot : String → Except Abort Bool) (binding dispatch request : Obj) :
    Except Abort (Option String) :=
  match field binding "scope" with
  | .obj scope =>
    if keySet scope ≠ authorityScopeKeys then .ok (some "AUTHORITY_SCOPE_MISSING")
    else match parseScope scope with
      | none => .ok (some "AUTHORITY_SCOPE_INVALID")
      | some parsed => do
        if !(← atRoot parsed.worktree) then return some "WORKTREE_SCOPE_MISMATCH"
        if !parsed.matchesRequest request then return some "AUTHORITY_SCOPE_MISMATCH"
        if !isText (field dispatch "session_id") parsed.sessionId then
          return some "SESSION_SCOPE_MISMATCH"
        if !isText (field dispatch "scope_sha256") (canonicalRequestSha256 scope) then
          return some "AUTHORITY_SCOPE_MISMATCH"
        return none
  | _ => .ok (some "AUTHORITY_SCOPE_MISSING")

/-! ### `authorize` -/

/-- What a run of `authorize` sees. -/
structure Sight where
  linux : Bool
  verifierReady : Bool
  anchor : Option Anchor
  binding : AssertionFile
  dispatch : AssertionFile
  atRoot : String → Except Abort Bool
  now : ℤ
  repository : Repository

/-- How `authorize` ends before its last line: with a denial, or without a decision. -/
inductive Stop where
  | denied (reason : String)
  | aborted (e : Abort)
deriving DecidableEq, Repr

/-- What is raised ends the run without a decision. -/
def orAbort {α : Type} : Except Abort α → Except Stop α
  | .ok a => .ok a
  | .error e => .error (.aborted e)

/-- A signature that does not verify is a denial; what else stops a verification is not. -/
def verified (anchor : Anchor) (file : AssertionFile) : Except Stop Obj :=
  match verifySignedJson anchor file with
  | .ok payload => .ok payload
  | .error e =>
    if e = failUsage "signature mismatch" then .error (.denied "SIGNATURE_MISMATCH")
    else .error (.aborted e)

/-- A request is decided on unless it sets what only the assertions may. -/
def acceptRequest (payload : Obj) : Except Stop Obj :=
  match rejectUntrustedOverride payload with
  | some decision => .error (.denied decision.reason)
  | none => .ok payload

/-- The request that a text spells. -/
def requestOf (requestJson : String) : Except Stop Obj :=
  if requestJson = "" then .ok []
  else match Json.loads requestJson.toList with
    | none => .error (.aborted (failUsage "request json: "))
    | some (.obj payload) => acceptRequest payload
    | some _ => .error (.denied "REQUEST_INVALID")

/-- The classes that a dispatch claims. -/
def dispatchClasses (dispatch : Obj) : Except Stop (Finset String) :=
  let classes := field dispatch "classes"
  if !truthy classes then .ok ∅
  else match classes with
    | .arr items => .ok (items.map pyStr).toFinset
    | _ => .error (.denied "CLASSIFICATION_TAMPER")

/-- `isinstance(value, int)`: a truth value is one. -/
def asInt : Json → Option ℤ
  | .int n => some n
  | .bool b => some (if b then 1 else 0)
  | _ => none

/-- The dispatch id that a dispatch with a high risk is consumed under. -/
def highRiskDispatch (sight : Sight) (binding dispatch request : Obj) : Except Stop String := do
  match ← orAbort (highRiskScopeProblem sight.atRoot binding dispatch request) with
  | some problem => .error (.denied problem)
  | none => pure ()
  match field dispatch "dispatch_id", asInt (field dispatch "expires_at_unix") with
  | .str dispatchId, some expires =>
    if strip dispatchId = "" ∨ expires ≤ 0 then .error (.denied "REPLAY_CONTRACT_INCOMPLETE")
    if expires ≤ sight.now then .error (.denied "DISPATCH_EXPIRED")
    return dispatchId
  | _, _ => .error (.denied "REPLAY_CONTRACT_INCOMPLETE")

/-- The dispatch is consumed if one of its classes has a high risk. -/
def dispatchToConsume (sight : Sight) (binding dispatch request : Obj) (classes : Finset String) :
    Except Stop (Option String) :=
  if classes ∩ highRiskClasses = ∅ then .ok none
  else (highRiskDispatch sight binding dispatch request).map some

/-- The two assertions belong to this anchor, to each other and to the request. -/
def checkAssertions (anchor : Anchor) (binding dispatch request : Obj) : Except Stop Unit := do
  if !isText (field binding "public_key_sha256") anchor.sha256 then
    .error (.denied "TRUST_ANCHOR_MISMATCH")
  if !isText (field dispatch "binding_public_key_sha256") anchor.sha256 then
    .error (.denied "TRUST_ANCHOR_MISMATCH")
  if !isText (field dispatch "binding_sha256") (signedPayloadSha256 binding) then
    .error (.denied "BINDING_ASSERTION_MISMATCH")
  if !isText (field dispatch "request_sha256") (canonicalRequestSha256 request) then
    .error (.denied "REQUEST_BINDING_MISMATCH")

/-- The end of `authorize`, on the contract and the action. -/
def checkAction (sight : Sight) (binding dispatch : Obj) (classes : Finset String) :
    Except Stop Unit := do
  let (profiles, digest) ← orAbort (loadEffectiveState sight.repository)
  if !isText (field binding "policy_digest") digest then .error (.denied "POLICY_DIGEST_MISMATCH")
  if !isText (field dispatch "policy_digest") digest then .error (.denied "POLICY_DIGEST_MISMATCH")
  let session ← orAbort (bindSession (strOrEmpty (field binding "profile"))
    (field binding "authority_permission")
    (orStr (strOrEmpty (field binding "authority_basis")) collaboratorBasis)
    (strOrEmpty (field binding "policy_digest")) (fieldD binding "approved_classes" (.arr []))
    profiles digest (strOrEmpty (field binding "public_key_sha256")))
  let request ← orAbort (actionRequestForTool (strOrEmpty (field dispatch "tool_id")))
  if sorted request.classes ≠ sorted classes then .error (.denied "CLASSIFICATION_TAMPER")
  let decision := evaluateAction session request profiles digest
  if !decision.allowed then .error (.denied decision.reason)

/-- `authorize` up to the consumption: the dispatch id that is still to be consumed. -/
def authorizeCheck (sight : Sight) (read : Except Stop Obj) : Except Stop (Option String) := do
  if !sight.linux || !sight.verifierReady then .error (.denied "BOUNDARY_UNAVAILABLE")
  match sight.anchor with
  | none => .error (.denied "BOUNDARY_UNAVAILABLE")
  | some anchor =>
    let request ← read
    match sight.binding, sight.dispatch with
    | .missing, _ | _, .missing => .error (.denied "ASSERTION_MISSING")
    | bindingFile, dispatchFile =>
      let binding ← verified anchor bindingFile
      let dispatch ← verified anchor dispatchFile
      checkAssertions anchor binding dispatch request
      let classes ← dispatchClasses dispatch
      let dispatchId ← dispatchToConsume sight binding dispatch request classes
      checkAction sight binding dispatch classes
      return dispatchId

/-- The consumption of a dispatch with a high risk, and what `authorize` makes of its outcome. -/
def consumeGranted (dispatchId : String) : Dispatch.Program (Except Abort Decision) := do
  match ← Dispatch.consumeDispatchOnce dispatchId with
  | .ok => return .ok .allow
  | .replay => return .ok (.deny "REPLAY")
  | _ => return .ok (.deny "BOUNDARY_UNAVAILABLE")

/-- `authorize`, as a program over the dispatch markers. -/
def authorize (sight : Sight) (read : Except Stop Obj) (consumeReplay : Bool) :
    Dispatch.Program (Except Abort Decision) :=
  match authorizeCheck sight read with
  | .error (.aborted e) => .ret (.error e)
  | .error (.denied reason) => .ret (.ok (.deny reason))
  | .ok (some dispatchId) =>
    if consumeReplay then consumeGranted dispatchId else .ret (.ok .allow)
  | .ok none => .ret (.ok .allow)

end DataRelay.Tools.Skills
