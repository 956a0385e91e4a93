import DataRelay.Tools.Values

/-! `normalize_facts`: the structured facts of one packet, with every section that is absent at its
    unknown value. -/

namespace DataRelay.Tools
open Lib

namespace Coordinator

/-- `PlannerFactsError`, with the class that ambiguous facts are denied under. -/
def plannerFactsError (reason : String) : ToolError := .plannerFacts reason ambiguousFacts

/-! ### The facts -/

/-- `PACKET_STATUSES`. -/
inductive PacketStatus where
  | active | paused | blocked | complete
deriving DecidableEq, Repr

/-- `PRIORITIES`. -/
inductive Priority where
  | urgent | high | normal | low
deriving DecidableEq, Repr

/-- `CHANGE_RISKS`. -/
inductive ChangeRisk where
  | low | medium | high | critical
deriving DecidableEq, Repr

/-- `FAILURE_CLASSES`. -/
inductive FailureClass where
  | none | transient | semantic | resource | authority | ambiguousMutation | humanRequired
deriving DecidableEq, Repr

/-- `WORKER_STATUSES`. -/
inductive WorkerStatus where
  | claimed | active | wait | yield | retry | complete | abandon | superseded | released
deriving DecidableEq, Repr

/-- `RESOURCE_RESULTS`. -/
inductive ResourceResult where
  | pass | warn | block | unknown
deriving DecidableEq, Repr

/-- `ADMISSION_DECISIONS`. -/
inductive AdmissionDecision where
  | allow | deny | unknown
deriving DecidableEq, Repr

/-- `AUDIT_RESULTS`. -/
inductive AuditResult where
  | unknown | pass | fail
deriving DecidableEq, Repr

/-- `PR_STATES`. -/
inductive PrState where
  | «open» | merged | closed
deriving DecidableEq, Repr

/-- What is known of whether a pull request can be merged. -/
inductive Mergeable where
  | yes | no | unknown
deriving DecidableEq, Repr

/-- `CI_STATES`. -/
inductive CiState where
  | unknown | pending | pass | fail
deriving DecidableEq, Repr

/-- `REVIEW_STATES`. -/
inductive ReviewState where
  | unknown | «open» | clear
deriving DecidableEq, Repr

/-- `ROLLOUT_GATES`. -/
inductive RolloutGate where
  | notRequired | pending | authorized
deriving DecidableEq, Repr

def PacketStatus.name : PacketStatus → String
  | .active => "ACTIVE" | .paused => "PAUSED" | .blocked => "BLOCKED" | .complete => "COMPLETE"

def Priority.name : Priority → String
  | .urgent => "URGENT" | .high => "HIGH" | .normal => "NORMAL" | .low => "LOW"

def ChangeRisk.name : ChangeRisk → String
  | .low => "LOW" | .medium => "MEDIUM" | .high => "HIGH" | .critical => "CRITICAL"

def FailureClass.name : FailureClass → String
  | .none => "NONE" | .transient => "TRANSIENT" | .semantic => "SEMANTIC"
  | .resource => "RESOURCE" | .authority => "AUTHORITY"
  | .ambiguousMutation => "AMBIGUOUS_MUTATION" | .humanRequired => "HUMAN_REQUIRED"

def WorkerStatus.name : WorkerStatus → String
  | .claimed => "CLAIMED" | .active => "ACTIVE" | .wait => "WAIT" | .yield => "YIELD"
  | .retry => "RETRY" | .complete => "COMPLETE" | .abandon => "ABANDON"
  | .superseded => "SUPERSEDED" | .released => "RELEASED"

def ResourceResult.name : ResourceResult → String
  | .pass => "PASS" | .warn => "WARN" | .block => "BLOCK" | .unknown => "UNKNOWN"

def AdmissionDecision.name : AdmissionDecision → String
  | .allow => "ALLOW" | .deny => "DENY" | .unknown => "UNKNOWN"

def AuditResult.name : AuditResult → String
  | .unknown => "UNKNOWN" | .pass => "PASS" | .fail => "FAIL"

def PrState.name : PrState → String
  | .open => "OPEN" | .merged => "MERGED" | .closed => "CLOSED"

def Mergeable.name : Mergeable → String
  | .yes => "YES" | .no => "NO" | .unknown => "UNKNOWN"

def CiState.name : CiState → String
  | .unknown => "UNKNOWN" | .pending => "PENDING" | .pass => "PASS" | .fail => "FAIL"

def ReviewState.name : ReviewState → String
  | .unknown => "UNKNOWN" | .open => "OPEN" | .clear => "CLEAR"

def RolloutGate.name : RolloutGate → String
  | .notRequired => "NOT_REQUIRED" | .pending => "PENDING" | .authorized => "AUTHORIZED"

/-- A workstream that the packet waits for, in its last known status. -/
structure Dependency where
  workstream : String
  status : PacketStatus
deriving DecidableEq, Repr

/-- The `packet` section: the work, its place and its intent revision. -/
structure Packet where
  repository : String
  workstream : String
  status : PacketStatus
  priority : Priority
  intentRevision : ℤ
  changeRisk : ChangeRisk
  taskKind : Option String
  dependencies : Option (List Dependency)
deriving DecidableEq, Repr

/-- The `worker` section; a worker that is not present has neither status nor revision. -/
structure Worker where
  present : Bool
  status : Option WorkerStatus
  startingIntentRevision : Option ℤ
  progressEvidence : Bool
deriving DecidableEq, Repr

/-- The `git` section; a missing observation is `none`, a missing head the text `UNKNOWN`. -/
structure Git where
  head : String
  dirty : Option Bool
  unpushed : Option Bool
  yieldedForAudit : Bool
deriving DecidableEq, Repr

/-- The `admission` section. -/
structure Admission where
  decision : AdmissionDecision
  denyClass : Option String
deriving DecidableEq, Repr

/-- The `mutation` section: an earlier effect with an unknown outcome. -/
structure Mutation where
  ambiguous : Bool
  kind : Option String
deriving DecidableEq, Repr

/-- The `failure` section. -/
structure Failure where
  failureClass : FailureClass
  identicalSemanticCount : ℤ
deriving DecidableEq, Repr

/-- The `publication` section: the coordinator's audit, and what it authorized. -/
structure Publication where
  coordinatorAudit : AuditResult
  authorizedIntentRevision : Option ℤ
deriving DecidableEq, Repr

/-- The `pr` section; without a pull request it has no state. -/
structure Pr where
  exist : Bool
  state : Option PrState
  head : String
  mergeable : Mergeable
deriving DecidableEq, Repr

/-- The `ci` section, and the head that it is about. -/
structure Ci where
  state : CiState
  subjectHead : String
deriving DecidableEq, Repr

/-- The `review` section, and the head that it is about. -/
structure Review where
  actionableOpen : Option Bool
  state : ReviewState
  subjectHead : String
deriving DecidableEq, Repr

/-- The `wait` section. -/
structure Wait where
  external : Bool
  condition : Option String
  retryCount : ℤ
  retryBudget : ℤ
deriving DecidableEq, Repr

/-- The decision of the run before, under its notification key. -/
structure PreviousDecision where
  key : String
  decision : String
deriving DecidableEq, Repr

/-- What `normalize_facts` returns: every section, missing ones by their defaults. -/
structure Facts where
  packet : Packet
  worker : Worker
  git : Git
  resource : ResourceResult
  admission : Admission
  mutation : Mutation
  failure : Failure
  publication : Publication
  pr : Pr
  ci : Ci
  review : Review
  wait : Wait
  orgRollout : RolloutGate
  previousDecision : Option PreviousDecision
deriving DecidableEq, Repr

/-! ### Checks of a field -/

def requireStr : Json → String → Except ToolError String := Tools.requireStr plannerFactsError

def requireMapping : Json → String → Except ToolError Obj := Tools.requireMapping plannerFactsError

def rejectUnknown : Obj → List String → String → Except ToolError Unit :=
  Tools.rejectUnknown plannerFactsError

/-- `_require_int`. -/
def requireInt (value : Json) (label : String) (minimum : ℤ) : Except ToolError ℤ :=
  match value with
  | .int n =>
    if n < minimum then .error (plannerFactsError s!"{label} must be >= {minimum}") else .ok n
  | _ => .error (plannerFactsError s!"{label} must be an integer")

/-- `_require_bool`. -/
def requireBool (value : Json) (label : String) : Except ToolError Bool :=
  match value with
  | .bool b => .ok b
  | _ => .error (plannerFactsError s!"{label} must be a boolean")

/-- `_require_list`. -/
def requireList (value : Json) (label : String) : Except ToolError (List Json) :=
  match value with
  | .arr items => .ok items
  | _ => .error (plannerFactsError s!"{label} must be a JSON array")

/-- `_optional_mapping`. -/
def optionalMapping (payload : Obj) (key : String) : Except ToolError (Option Obj) :=
  if has payload key then (requireMapping (field payload key) key).map some else .ok none

/-- `_enum`: the member of `all` with the name that the text spells in any case. -/
def enum {α : Type} (all : List α) (name : α → String) (value : Json) (label : String) :
    Except ToolError α := do
  let text := upper (← requireStr value label)
  match all.find? fun a => name a = text with
  | some a => .ok a
  | none => .error (plannerFactsError s!"{label} is unknown: {text}")

/-- `_sha_or_unknown`. -/
def shaOrUnknown (value : Json) (label : String) : Except ToolError String := do
  let text ← requireStr value label
  if text = "UNKNOWN" then return "UNKNOWN"
  if fullSha (lower text) then return lower text
  .error (plannerFactsError s!"{label} must be UNKNOWN or a 40-char lowercase hex Git SHA")

/-- A field that is read only when the key is there. -/
def ifPresent {α : Type} (data : Obj) (key : String) (default : α)
    (read : Json → Except ToolError α) : Except ToolError α :=
  if has data key then read (field data key) else .ok default

/-- A field that is read only when the key is there with a value. -/
def ifValue {α : Type} (data : Obj) (key : String) (read : Json → Except ToolError α) :
    Except ToolError (Option α) :=
  match field data key with
  | .null => .ok none
  | value => (read value).map some

/-- A status of a packet or of a dependency, by `_enum`. -/
def packetStatus : Json → String → Except ToolError PacketStatus :=
  enum [.active, .paused, .blocked, .complete] PacketStatus.name

/-! ### The sections -/

/-- One turn of the loop over `packet.dependencies`. -/
def parseDependency (index : ℕ) (item : Json) : Except ToolError Dependency := do
  let dep ← requireMapping item s!"packet.dependencies[{index}]"
  rejectUnknown dep ["workstream", "status"] s!"packet.dependencies[{index}]"
  let status ← packetStatus (field dep "status") s!"packet.dependencies[{index}].status"
  let workstream ← requireStr (field dep "workstream") s!"packet.dependencies[{index}].workstream"
  return ⟨workstream, status⟩

/-- The loop over `packet.dependencies`, from an index on. -/
def parseDependencies : ℕ → List Json → Except ToolError (List Dependency)
  | _, [] => .ok []
  | index, item :: items => do
    let dep ← parseDependency index item
    let deps ← parseDependencies (index + 1) items
    return dep :: deps

/-- `_parse_packet`. -/
def parsePacket (raw : Json) : Except ToolError Packet := do
  let data ← requireMapping raw "packet"
  rejectUnknown data ["repository", "workstream", "status", "priority", "intent_revision",
    "change_risk", "task_kind", "dependencies"] "packet"
  let repository ← requireStr (field data "repository") "packet.repository"
  if !repositoryRe repository then
    .error (plannerFactsError "packet.repository must be owner/name")
  let workstream ← requireStr (field data "workstream") "packet.workstream"
  if !workstreamRe workstream then
    .error (plannerFactsError "packet.workstream must be a stable slug without separators")
  let status ← packetStatus (field data "status") "packet.status"
  let priority ← enum [.urgent, .high, .normal, .low] Priority.name
    (fieldD data "priority" (.str "NORMAL")) "packet.priority"
  let changeRisk ← enum [.low, .medium, .high, .critical] ChangeRisk.name
    (fieldD data "change_risk" (.str "MEDIUM")) "packet.change_risk"
  let intentRevision ← requireInt (field data "intent_revision") "packet.intent_revision" 1
  let taskKind ← ifPresent data "task_kind" none fun v =>
    (requireStr v "packet.task_kind").map some
  let dependencies ← ifPresent data "dependencies" none fun v => do
    let items ← requireList v "packet.dependencies"
    (parseDependencies 0 items).map some
  return ⟨repository, workstream, status, priority, intentRevision, changeRisk, taskKind,
    dependencies⟩

/-- The default of the section: no worker. -/
def noWorker : Worker := ⟨false, none, none, false⟩

/-- `_parse_worker`. -/
def parseWorker : Option Obj → Except ToolError Worker
  | none => .ok noWorker
  | some raw => do
    rejectUnknown raw ["present", "status", "starting_intent_revision", "progress_evidence"]
      "worker"
    let present ← requireBool (field raw "present") "worker.present"
    if !present then
      if raw.any fun e => e.1 ≠ "present" then
        .error (plannerFactsError "worker fields other than present require worker.present true")
      return noWorker
    let status ← enum [.claimed, .active, .wait, .yield, .retry, .complete, .abandon, .superseded,
      .released] WorkerStatus.name (field raw "status") "worker.status"
    let starting ← requireInt (field raw "starting_intent_revision")
      "worker.starting_intent_revision" 1
    let progress ← ifPresent raw "progress_evidence" false fun v =>
      requireBool v "worker.progress_evidence"
    return ⟨true, some status, some starting, progress⟩

/-- `_parse_git`. -/
def parseGit : Option Obj → Except ToolError Git
  | none => .ok ⟨"UNKNOWN", none, none, false⟩
  | some raw => do
    rejectUnknown raw ["head", "dirty", "unpushed", "yielded_for_audit"] "git"
    let head ← ifPresent raw "head" "UNKNOWN" fun v => shaOrUnknown v "git.head"
    let dirty ← ifPresent raw "dirty" none fun v => (requireBool v "git.dirty").map some
    let unpushed ← ifPresent raw "unpushed" none fun v => (requireBool v "git.unpushed").map some
    let yielded ← ifPresent raw "yielded_for_audit" false fun v =>
      requireBool v "git.yielded_for_audit"
    return ⟨head, dirty, unpushed, yielded⟩

/-- `_parse_resource`. -/
def parseResource : Option Obj → Except ToolError ResourceResult
  | none => .ok .unknown
  | some raw => do
    rejectUnknown raw ["result"] "resource"
    enum [.pass, .warn, .block, .unknown] ResourceResult.name
      (fieldD raw "result" (.str "UNKNOWN")) "resource.result"

/-- `_parse_admission`. -/
def parseAdmission : Option Obj → Except ToolError Admission
  | none => .ok ⟨.unknown, none⟩
  | some raw => do
    rejectUnknown raw ["decision", "deny_class"] "admission"
    let decision ← enum [.allow, .deny, .unknown] AdmissionDecision.name
      (fieldD raw "decision" (.str "UNKNOWN")) "admission.decision"
    let denyClass ← ifValue raw "deny_class" fun v => requireStr v "admission.deny_class"
    return ⟨decision, denyClass⟩

/-- `_parse_mutation`. -/
def parseMutation : Option Obj → Except ToolError Mutation
  | none => .ok ⟨false, none⟩
  | some raw => do
    rejectUnknown raw ["ambiguous", "kind"] "mutation"
    let ambiguous ← requireBool (fieldD raw "ambiguous" (.bool false)) "mutation.ambiguous"
    let kind ← ifValue raw "kind" fun v => requireStr v "mutation.kind"
    return ⟨ambiguous, kind⟩

/-- `_parse_failure`. -/
def parseFailure : Option Obj → Except ToolError Failure
  | none => .ok ⟨.none, 0⟩
  | some raw => do
    rejectUnknown raw ["class", "identical_semantic_count"] "failure"
    let failureClass ← enum [.none, .transient, .semantic, .resource, .authority,
      .ambiguousMutation, .humanRequired] FailureClass.name
      (fieldD raw "class" (.str "NONE")) "failure.class"
    let count ← ifPresent raw "identical_semantic_count" 0 fun v =>
      requireInt v "failure.identical_semantic_count" 0
    return ⟨failureClass, count⟩

/-- `_parse_publication`. -/
def parsePublication : Option Obj → Except ToolError Publication
  | none => .ok ⟨.unknown, none⟩
  | some raw => do
    rejectUnknown raw ["coordinator_audit", "authorized_intent_revision"] "publication"
    let audit ← enum [.unknown, .pass, .fail] AuditResult.name
      (fieldD raw "coordinator_audit" (.str "UNKNOWN")) "publication.coordinator_audit"
    let authorized ← ifValue raw "authorized_intent_revision" fun v =>
      requireInt v "publication.authorized_intent_revision" 1
    return ⟨audit, authorized⟩

/-- The default of the section: no pull request. -/
def noPr : Pr := ⟨false, none, "UNKNOWN", .unknown⟩

/-- `_parse_pr`. -/
def parsePr : Option Obj → Except ToolError Pr
  | none => .ok noPr
  | some raw => do
    rejectUnknown raw ["exists", "state", "head", "mergeable"] "pr"
    let exist ← requireBool (field raw "exists") "pr.exists"
    if !exist then
      if raw.any fun e => e.1 ≠ "exists" then
        .error (plannerFactsError "pr fields other than exists require pr.exists true")
      return noPr
    let state ← enum [.open, .merged, .closed] PrState.name (field raw "state") "pr.state"
    let head ← ifPresent raw "head" "UNKNOWN" fun v => shaOrUnknown v "pr.head"
    let mergeable ← enum [.yes, .no, .unknown] Mergeable.name
      (fieldD raw "mergeable" (.str "UNKNOWN")) "pr.mergeable"
    return ⟨true, some state, head, mergeable⟩

/-- `_parse_ci`. -/
def parseCi : Option Obj → Except ToolError Ci
  | none => .ok ⟨.unknown, "UNKNOWN"⟩
  | some raw => do
    rejectUnknown raw ["state", "subject_head"] "ci"
    let state ← enum [.unknown, .pending, .pass, .fail] CiState.name
      (fieldD raw "state" (.str "UNKNOWN")) "ci.state"
    let subject ← ifPresent raw "subject_head" "UNKNOWN" fun v => shaOrUnknown v "ci.subject_head"
    return ⟨state, subject⟩

/-- `_parse_review`. -/
def parseReview : Option Obj → Except ToolError Review
  | none => .ok ⟨none, .unknown, "UNKNOWN"⟩
  | some raw => do
    rejectUnknown raw ["actionable_open", "state", "subject_head"] "review"
    let actionable ← ifPresent raw "actionable_open" none fun v =>
      (requireBool v "review.actionable_open").map some
    let state ← enum [.unknown, .open, .clear] ReviewState.name
      (fieldD raw "state" (.str "UNKNOWN")) "review.state"
    let subject ← ifPresent raw "subject_head" "UNKNOWN" fun v =>
      shaOrUnknown v "review.subject_head"
    return ⟨actionable, state, subject⟩

/-- `_parse_wait`. -/
def parseWait : Option Obj → Except ToolError Wait
  | none => .ok ⟨false, none, 0, 3⟩
  | some raw => do
    rejectUnknown raw ["external", "condition", "retry_count", "retry_budget"] "wait"
    let external ← requireBool (fieldD raw "external" (.bool false)) "wait.external"
    let condition ← ifValue raw "condition" fun v => requireStr v "wait.condition"
    let retryCount ← requireInt (fieldD raw "retry_count" (.int 0)) "wait.retry_count" 0
    let retryBudget ← requireInt (fieldD raw "retry_budget" (.int 3)) "wait.retry_budget" 0
    return ⟨external, condition, retryCount, retryBudget⟩

/-- `_parse_gates`, where a missing section is a gate that is not required. -/
def parseGates : Option Obj → Except ToolError RolloutGate
  | none => .ok .notRequired
  | some raw => do
    rejectUnknown raw ["org_rollout"] "gates"
    enum [.notRequired, .pending, .authorized] RolloutGate.name
      (fieldD raw "org_rollout" (.str "NOT_REQUIRED")) "gates.org_rollout"

/-- `_parse_previous`. -/
def parsePrevious : Option Obj → Except ToolError (Option PreviousDecision)
  | none => .ok none
  | some raw => do
    rejectUnknown raw ["key", "decision"] "previous_decision"
    let key ← ifPresent raw "key" "" fun v => requireStr v "previous_decision.key"
    let decision ← ifPresent raw "decision" "" fun v => requireStr v "previous_decision.decision"
    return if key = "" then none else some ⟨key, decision⟩

/-! ### The document -/

/-- `TOP_LEVEL_KEYS`. -/
def topLevelKeys : List String :=
  ["packet", "worker", "git", "resource", "admission", "mutation", "failure", "publication", "pr",
    "ci", "review", "wait", "gates", "previous_decision"]

/-- `normalize_facts`: the sections in the order of the source, the first problem stops it. -/
def normalizeFacts (data : Obj) : Except ToolError Facts := do
  rejectExecutionKeys data "facts"
  rejectUnknown data topLevelKeys "facts"
  if !has data "packet" then .error (plannerFactsError "facts.packet is required")
  let packet ← parsePacket (field data "packet")
  let worker ← parseWorker (← optionalMapping data "worker")
  let git ← parseGit (← optionalMapping data "git")
  let resource ← parseResource (← optionalMapping data "resource")
  let admission ← parseAdmission (← optionalMapping data "admission")
  let mutation ← parseMutation (← optionalMapping data "mutation")
  let failure ← parseFailure (← optionalMapping data "failure")
  let publication ← parsePublication (← optionalMapping data "publication")
  let pr ← parsePr (← optionalMapping data "pr")
  let ci ← parseCi (← optionalMapping data "ci")
  let review ← parseReview (← optionalMapping data "review")
  let wait ← parseWait (← optionalMapping data "wait")
  let orgRollout ← parseGates (← optionalMapping data "gates")
  let previousDecision ← parsePrevious (← optionalMapping data "previous_decision")
  return ⟨packet, worker, git, resource, admission, mutation, failure, publication, pr, ci, review,
    wait, orgRollout, previousDecision⟩

end Coordinator

end DataRelay.Tools
