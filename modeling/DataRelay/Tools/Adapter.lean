import DataRelay.Tools.Skills

/-! The worker adapter: `evaluate` classifies one bound request to write outside.

    The caller states the request, what is authoritative, and the state of earlier attempts; only two
    signed assertions can grant the write. They are read here first, and again by `authorize`, so a
    `View` has each of the two looks. -/

namespace DataRelay.Tools.Adapter
open Lib
open Coordinator (PacketStatus)
open Host (canonicalRequestSha256 concreteEffect isText Verification)
open Skills (Abort Anchor AssertionFile Decision Sight acceptRequest authorizeAuthorPermission
  verifySignedJson)

/-! ### Facts -/

/-- `_require_mapping`. -/
def requireMapping (value : Json) (label : String) : Except String Obj :=
  match value with
  | .obj fields => .ok fields
  | _ => .error s!"{label} must be a JSON object"

/-- `_require_str`. -/
def requireStr (value : Json) (label : String) : Except String String :=
  match value with
  | .str s =>
    if strip s = "" then .error s!"{label} must be a non-empty string" else .ok (strip s)
  | _ => .error s!"{label} must be a non-empty string"

/-- `_require_int`. -/
def requireInt (value : Json) (label : String) (minimum : ℤ) : Except String ℤ :=
  match value with
  | .int n => if n < minimum then .error s!"{label} must be >= {minimum}" else .ok n
  | _ => .error s!"{label} must be an integer"

/-- `_reject_unknown`. -/
def rejectUnknown (payload : Obj) (allowed : List String) (label : String) : Except String Unit :=
  match unknownKeys payload allowed with
  | [] => .ok ()
  | key :: _ => .error s!"{label} contains unknown key {String.ofList (reprStr key)}"

/-- `FORBIDDEN_REQUEST_KEYS`. -/
def forbiddenRequestKeys : List String :=
  ["command", "commands", "shell", "argv", "execute", "exec", "script", "subprocess", "bash",
    "powershell", "endpoint", "signing_key", "hmac_secret", "private_key", "mint"]

mutual

/-- `_contains_forbidden_key`. -/
def containsForbiddenKey : Json → Option String
  | .obj fields => forbiddenIn fields
  | .arr items => forbiddenAmong items
  | _ => none

/-- The first forbidden key of a mapping, its own ones and those below. -/
def forbiddenIn : Obj → Option String
  | [] => none
  | (key, value) :: rest =>
    if forbiddenRequestKeys.contains (lower (strip key)) then some key
    else (containsForbiddenKey value).or (forbiddenIn rest)

/-- The first forbidden key in the items of a list. -/
def forbiddenAmong : List Json → Option String
  | [] => none
  | item :: rest => (containsForbiddenKey item).or (forbiddenAmong rest)

end

/-- `_sha`. -/
def sha (value : Json) (label : String) : Except String String := do
  let text := lower (← requireStr value label)
  if !fullSha text then .error s!"{label} must be a 40-char lowercase hex Git SHA"
  return text

/-- `PACKET_STATUSES`, in any case. -/
def packetStatus (value : Json) (label : String) : Except String PacketStatus := do
  let text := upper (← requireStr value label)
  match [PacketStatus.active, .paused, .blocked, .complete].find? fun s => s.name = text with
  | some status => .ok status
  | none => .error s!"{label} is unknown: {text}"

/-- A packet, as a request names it and as it is. -/
structure Subject where
  targetRepo : String
  workstream : String
  intentRevision : ℤ
  subjectHead : String
  branch : String
  status : PacketStatus
deriving DecidableEq, Repr

/-- What a payload asks for, once its subject and its action are read. -/
structure Bound where
  subject : Subject
  requestedAction : String
deriving DecidableEq, Repr

/-- `_parse_bound`. -/
def parseBound (raw : Json) : Except String Bound := do
  let data ← requireMapping raw "bound_request"
  rejectUnknown data ["target_repo", "workstream", "intent_revision", "subject_head",
    "requested_action", "branch", "expected_status"] "bound_request"
  let repository ← requireStr (field data "target_repo") "bound_request.target_repo"
  if !repositoryRe repository then .error "bound_request.target_repo must be owner/name"
  let workstream ← requireStr (field data "workstream") "bound_request.workstream"
  if !workstreamRe workstream then .error "bound_request.workstream must be a stable slug"
  let action ← requireStr (field data "requested_action") "bound_request.requested_action"
  let status ← packetStatus (fieldD data "expected_status" (.str "ACTIVE"))
    "bound_request.expected_status"
  let revision ← requireInt (field data "intent_revision") "bound_request.intent_revision" 1
  let head ← sha (field data "subject_head") "bound_request.subject_head"
  let branch ← requireStr (field data "branch") "bound_request.branch"
  return ⟨⟨repository, workstream, revision, head, branch, status⟩, action⟩

/-- The bound request, as the source keeps it. -/
def Bound.fields (b : Bound) : Obj :=
  [("target_repo", .str b.subject.targetRepo), ("workstream", .str b.subject.workstream),
    ("intent_revision", .int b.subject.intentRevision), ("subject_head", .str b.subject.subjectHead),
    ("requested_action", .str b.requestedAction), ("branch", .str b.subject.branch),
    ("expected_status", .str b.subject.status.name)]

/-- `_parse_authoritative`. -/
def parseAuthoritative (raw : Json) : Except String Subject := do
  let data ← requireMapping raw "authoritative"
  rejectUnknown data ["target_repo", "workstream", "intent_revision", "status", "subject_head",
    "branch"] "authoritative"
  let status ← packetStatus (field data "status") "authoritative.status"
  let repository ← requireStr (field data "target_repo") "authoritative.target_repo"
  let workstream ← requireStr (field data "workstream") "authoritative.workstream"
  let revision ← requireInt (field data "intent_revision") "authoritative.intent_revision" 1
  let head ← sha (field data "subject_head") "authoritative.subject_head"
  let branch ← requireStr (field data "branch") "authoritative.branch"
  return ⟨repository, workstream, revision, head, branch, status⟩

/-- What is to be written, and where. -/
structure Proposed where
  kind : String
  id : String
  content : String
deriving DecidableEq, Repr

/-- `_parse_proposed`. -/
def parseProposed (raw : Json) : Except String Proposed := do
  let data ← requireMapping raw "proposed_mutation"
  rejectUnknown data ["target", "content"] "proposed_mutation"
  let target ← requireMapping (field data "target") "proposed_mutation.target"
  rejectUnknown target ["kind", "id"] "proposed_mutation.target"
  let kind ← requireStr (field target "kind") "proposed_mutation.target.kind"
  if kind ≠ "issue" ∧ kind ≠ "pull_request" then
    .error s!"proposed_mutation.target.kind is unknown: {kind}"
  match field data "content" with
  | .str content =>
    let id ← requireStr (field target "id") "proposed_mutation.target.id"
    return ⟨kind, id, content⟩
  | _ => .error "proposed_mutation.content must be a string"

/-- The proposed mutation, as an effect holds it. -/
def Proposed.fields (p : Proposed) : Obj :=
  [("target", .obj [("kind", .str p.kind), ("id", .str p.id)]), ("content", .str p.content)]

/-- `_parse_verification`. -/
def parseVerification : Json → Except String (Option Verification)
  | .null => .ok none
  | raw => do
    let data ← requireMapping raw "verification"
    rejectUnknown data ["binding_assertion", "dispatch_assertion"] "verification"
    let binding ← requireStr (field data "binding_assertion") "verification.binding_assertion"
    let dispatch ← requireStr (field data "dispatch_assertion") "verification.dispatch_assertion"
    return some ⟨pathText binding, pathText dispatch⟩

/-- `_parse_prior`. -/
def parsePrior : Json → Except String (Option String)
  | .null => .ok none
  | raw => do
    let data ← requireMapping raw "prior_delivery"
    rejectUnknown data ["applied_digest"] "prior_delivery"
    match field data "applied_digest" with
    | .null => return none
    | value => return some (lower (← requireStr value "prior_delivery.applied_digest"))

/-- `MUTATION_OUTCOMES`. -/
inductive Outcome where
  | notSent | applied | timeout | unknown | ambiguous
deriving DecidableEq, Repr

def Outcome.name : Outcome → String
  | .notSent => "NOT_SENT" | .applied => "APPLIED" | .timeout => "TIMEOUT"
  | .unknown => "UNKNOWN" | .ambiguous => "AMBIGUOUS"

/-- `AMBIGUOUS_OUTCOMES`. -/
def Outcome.isAmbiguous : Outcome → Bool
  | .timeout | .unknown | .ambiguous => true
  | _ => false

/-- `_parse_mutation`. -/
def parseMutation : Json → Except String Outcome
  | .null => .ok .notSent
  | raw => do
    let data ← requireMapping raw "mutation"
    rejectUnknown data ["outcome"] "mutation"
    let text := upper (← requireStr (fieldD data "outcome" (.str "NOT_SENT")) "mutation.outcome")
    match [Outcome.notSent, .applied, .timeout, .unknown, .ambiguous].find? fun o => o.name = text with
    | some outcome => .ok outcome
    | none => .error s!"mutation.outcome is unknown: {text}"

/-- `_parse_failure`. -/
def parseFailure : Json → Except String String
  | .null => .ok "NONE"
  | raw => do
    let data ← requireMapping raw "failure"
    rejectUnknown data ["class"] "failure"
    return upper (← requireStr (fieldD data "class" (.str "NONE")) "failure.class")

/-- `_parse_wait`: the retries so far, and how many there may be. -/
def parseWait : Json → Except String (ℤ × ℤ)
  | .null => .ok (0, 3)
  | raw => do
    let data ← requireMapping raw "wait"
    rejectUnknown data ["retry_count", "retry_budget"] "wait"
    let count ← requireInt (fieldD data "retry_count" (.int 0)) "wait.retry_count" 0
    let budget ← requireInt (fieldD data "retry_budget" (.int 3)) "wait.retry_budget" 0
    return (count, budget)

/-- What `evaluate` takes of a request. -/
structure Request where
  bound : Bound
  authoritative : Subject
  proposed : Proposed
  verification : Option Verification
  prior : Option String
  outcome : Outcome
  failure : String
  retryCount : ℤ
  retryBudget : ℤ
  resource : String
  admission : String
  denyClass : String
deriving DecidableEq, Repr

/-- A section with a single result, `UNKNOWN` if it is not there. -/
def sectionText (data : Obj) (name key : String) (allowed : List String) :
    Except String (String × Obj) := do
  let fields ← requireMapping (fieldD data name (.obj [(key, .str "UNKNOWN")])) name
  rejectUnknown fields allowed name
  let text ← requireStr (fieldD fields key (.str "UNKNOWN")) s!"{name}.{key}"
  return (upper text, fields)

/-- The reading part of `evaluate`. -/
def parseRequest (data : Obj) : Except String Request := do
  rejectUnknown data ["bound_request", "authoritative", "author_permission", "author_association",
    "trusted_dispatch", "resource", "admission", "prior_delivery", "mutation", "failure", "wait",
    "proposed_mutation", "verification"] "request"
  if !has data "bound_request" || !has data "authoritative" then
    .error "bound_request and authoritative facts are required"
  let bound ← parseBound (field data "bound_request")
  let authoritative ← parseAuthoritative (field data "authoritative")
  if !has data "proposed_mutation" then .error "proposed_mutation is required"
  let proposed ← parseProposed (field data "proposed_mutation")
  let verification ← parseVerification (field data "verification")
  let prior ← parsePrior (field data "prior_delivery")
  let outcome ← parseMutation (field data "mutation")
  let failure ← parseFailure (field data "failure")
  let (retryCount, retryBudget) ← parseWait (field data "wait")
  let (resource, _) ← sectionText data "resource" "result" ["result"]
  let (admission, admissionFields) ← sectionText data "admission" "decision"
    ["decision", "deny_class"]
  return ⟨bound, authoritative, proposed, verification, prior, outcome, failure, retryCount,
    retryBudget, resource, admission, upper (strOrEmpty (field admissionFields "deny_class"))⟩

/-! ### The gate -/

/-- The effect that the dispatch has to be for. -/
def Request.effect (r : Request) : Obj := concreteEffect r.bound.fields r.proposed.fields

/-- `request_digest`. -/
def Request.digest (r : Request) : String := canonicalRequestSha256 r.effect

/-- What one run sees: the assertions at the first look, and what `authorize` sees under a worktree. -/
structure View where
  anchor : Option Anchor
  dispatch : AssertionFile
  binding : AssertionFile
  sightAt : String → Sight

/-- `_authorize_concrete_effect` returns `ALLOW`, `REPLAY`, or the reason of a denial. -/
inductive Gate where
  | allow
  | replay
  | denied (reason : String)
deriving DecidableEq, Repr

/-- An exception of the first look that is caught is a denial, and so is `SystemExit` later. -/
def caught {α : Type} (reason : String) (catches : Abort → Bool) (x : Except Abort α) :
    Except Abort (Except Gate α) :=
  match x with
  | .ok a => .ok (.ok a)
  | .error e => if catches e then .ok (.error (.denied reason)) else .error e

/-- The exceptions that the first look catches. -/
def isCaught : Abort → Bool
  | .exit _ | .osError | .jsonError => true
  | .otherError => false

/-- `"external_write" in classes`, on a list. -/
def claimsExternalWrite : Json → Bool
  | .arr items => items.any fun item => isText item "external_write"
  | _ => false

/-- What the first look has to find in the two assertions; the result is the signed worktree. -/
def firstLook (dispatch binding effect : Obj) : Except Gate String :=
  if !isText (field dispatch "tool_id") "network.post" ||
      !claimsExternalWrite (field dispatch "classes") then
    .error (.denied "dispatch is not a signed network.post external_write for this effect")
  else if !isText (field dispatch "request_sha256") (canonicalRequestSha256 effect) then
    .error (.denied "dispatch is not bound to the concrete mutation target and content")
  else match authorizeAuthorPermission (field binding "authority_permission") with
    | .error _ => .error (.denied "signed binding permission is missing or weaker than write")
    | .ok _ =>
      match field binding "scope" with
      | .obj scope =>
        match field scope "worktree" with
        | .str worktree =>
          if worktree.toList.headD ' ' = '/' then .ok worktree
          else .error (.denied "signed binding worktree is missing or invalid")
        | _ => .error (.denied "signed binding worktree is missing or invalid")
      | _ => .error (.denied "signed binding worktree is missing or invalid")

/-- The part of `_authorize_concrete_effect` before `authorize`. -/
def gateCheck (view : View) (verification : Option Verification) (effect : Obj) :
    Except Abort (Except Gate String) :=
  match verification, view.anchor with
  | none, _ => .ok (.error (.denied ("trusted verification assertions are missing; " ++
      "caller-supplied permission or dispatch facts are not authority")))
  | some _, none => .ok (.error (.denied "trusted verification boundary is unavailable"))
  | some _, some anchor => do
    let failed := "trusted dispatch signature verification failed"
    match ← caught failed isCaught (verifySignedJson anchor view.dispatch) with
    | .error gate => return .error gate
    | .ok dispatch =>
      match ← caught failed isCaught (verifySignedJson anchor view.binding) with
      | .error gate => return .error gate
      | .ok binding => return firstLook dispatch binding effect

/-- What the gate makes of the decision of `authorize`. -/
def gateOf : Except Abort Decision → Except Abort Gate
  | .ok decision =>
    if decision.allowed then .ok .allow
    else if decision.reason = "REPLAY" then .ok .replay
    else
      let reason := decision.reason
      .ok (.denied s!"trusted authorize path denied the effect: {reason}")
  | .error (.exit _) => .ok (.denied "trusted authorize path failed closed")
  | .error e => .error e

/-- `_authorize_concrete_effect`. The effect is put to `authorize` as its text, which is read back. -/
def authorizeConcreteEffect (view : View) (verification : Option Verification) (effect : Obj)
    (consumeReplay : Bool) : Dispatch.Program (Except Abort Gate) :=
  match gateCheck view verification effect with
  | .error e => .ret (.error e)
  | .ok (.error gate) => .ret (.ok gate)
  | .ok (.ok worktree) => do
    return gateOf (← Skills.authorize (view.sightAt worktree) (acceptRequest effect) consumeReplay)

/-! ### `evaluate` -/

/-- `RESULTS`. -/
inductive Result where
  | applied | noChange | staleWorker | authorityDenied | resourceBlocked | reconcileAmbiguous
  | transientRetryable | failedSemantic
deriving DecidableEq, Repr

def Result.name : Result → String
  | .applied => "APPLIED" | .noChange => "NO_CHANGE" | .staleWorker => "STALE_WORKER"
  | .authorityDenied => "AUTHORITY_DENIED" | .resourceBlocked => "RESOURCE_BLOCKED"
  | .reconcileAmbiguous => "RECONCILE_AMBIGUOUS" | .transientRetryable => "TRANSIENT_RETRYABLE"
  | .failedSemantic => "FAILED_SEMANTIC"

/-- `_emit`, with the fields that are not always the same. -/
structure Report where
  result : Result
  reason : String
  requestDigest : String
  authorizesWrite : Bool
deriving DecidableEq, Repr

/-- How `evaluate` ends without a report: `AdapterFactsError`, or an exception of the gate. -/
inductive Failure where
  | facts (reason : String)
  | raised (e : Abort)
deriving DecidableEq, Repr

/-- `ALLOWED_ACTIONS`. -/
def allowedActions : List String :=
  ["update_work_packet", "comment_work_packet", "create_pull_request", "update_pull_request",
    "authorize_publication"]

/-- The fields in which the request is no longer what is authoritative. -/
def mismatches (bound authoritative : Subject) : List String :=
  (if authoritative.targetRepo ≠ bound.targetRepo then ["target_repo"] else []) ++
    (if authoritative.workstream ≠ bound.workstream then ["workstream"] else []) ++
    (if authoritative.intentRevision ≠ bound.intentRevision then ["intent_revision"] else []) ++
    (if authoritative.subjectHead ≠ bound.subjectHead then ["subject_head"] else []) ++
    (if authoritative.branch ≠ bound.branch then ["branch"] else []) ++
    if authoritative.status ≠ bound.status then ["status"] else []

/-- What `evaluate` answers before it looks at the assertions. -/
def classify (r : Request) : Option (Result × String) :=
  let fields := mismatches r.bound.subject r.authoritative
  if !allowedActions.contains r.bound.requestedAction then
    some (.authorityDenied, "requested_action is outside the typed coordinator action set")
  else if fields ≠ [] then
    some (.staleWorker, "authoritative packet no longer matches the bound request: " ++
      String.intercalate "," fields)
  else if r.outcome.isAmbiguous then
    some (.reconcileAmbiguous,
      "external mutation outcome is unknown; reconcile durable state before any retry")
  else if r.failure = "SEMANTIC" then
    some (.failedSemantic, "semantic failure must be re-planned rather than rewritten")
  else if r.resource = "BLOCK" ∨ r.admission = "DENY" ∧ r.denyClass = "HOST_BUDGET" then
    some (.resourceBlocked,
      "resource or host admission blocks the effect and does not stop unrelated sessions")
  else if r.admission ≠ "ALLOW" then
    some (.resourceBlocked, "admission does not allow the effect")
  else if r.prior = some r.digest ∨ r.outcome = .applied then
    some (.noChange, "the same authorized request was already applied")
  else if r.failure = "TRANSIENT" then
    if r.retryCount < r.retryBudget ∧ r.outcome = .notSent then
      some (.transientRetryable,
        "transient failure stayed before send and remains inside the retry budget")
    else some (.reconcileAmbiguous,
      "transient retry is not authorized after the budget or after a send attempt")
  else none

/-- What `evaluate` makes of the gate. -/
def reportGate (digest : String) : Gate → Report
  | .replay => ⟨.noChange, "trusted dispatch was already consumed for this concrete effect", digest,
      false⟩
  | .denied reason => ⟨.authorityDenied, reason, digest, false⟩
  | .allow => ⟨.applied, "host-verified dispatch matches this concrete external effect", digest, true⟩

/-- The request of a payload, or the answer that it gets without one. -/
def readPayload (payload : Json) : Except String (Except Report Request) :=
  match payload with
  | .obj data =>
    match containsForbiddenKey payload with
    | some key => .ok (.error ⟨.authorityDenied,
        s!"request contains forbidden execution or authority-mint key {key}", "NONE", false⟩)
    | none => (parseRequest data).map .ok
  | _ => .error "request must be a JSON object"

/-- `evaluate`. -/
def evaluate (view : View) (payload : Json) (consumeReplay : Bool) :
    Dispatch.Program (Except Failure Report) :=
  match readPayload payload with
  | .error reason => .ret (.error (.facts reason))
  | .ok (.error report) => .ret (.ok report)
  | .ok (.ok r) =>
    match classify r with
    | some (result, reason) => .ret (.ok ⟨result, reason, r.digest, false⟩)
    | none => do
      match ← authorizeConcreteEffect view r.verification r.effect consumeReplay with
      | .ok gate => return .ok (reportGate r.digest gate)
      | .error e => return .error (.raised e)

end DataRelay.Tools.Adapter
