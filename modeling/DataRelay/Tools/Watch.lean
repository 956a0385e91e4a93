import DataRelay.Tools.Coordinator
import DataRelay.Tools.Datetime

/-! The watch evaluator: facts and the durable state of one watch in, one re-entry result and the
    next durable state out. -/

namespace DataRelay.Tools
open Lib

namespace Watch
open Coordinator (Facts Decision bar)

/-- `WATCH_CLASSES`. -/
inductive WatchClass where
  | workPacketState | exactHeadCi | reviewState | workerProgressOrYield | resourceAdmission
deriving DecidableEq, Repr

/-- The class, as it is read and stored. -/
def WatchClass.name : WatchClass → String
  | .workPacketState => "work_packet_state"
  | .exactHeadCi => "exact_head_ci"
  | .reviewState => "review_state"
  | .workerProgressOrYield => "worker_progress_or_yield"
  | .resourceAdmission => "resource_admission"

/-- The classes in the order in which a text is compared with them. -/
def watchClasses : List WatchClass :=
  [.workPacketState, .exactHeadCi, .reviewState, .workerProgressOrYield, .resourceAdmission]

/-- `RESULTS`. -/
inductive Result where
  | noChange | recheckLater | wakeCoordinator | resumeAdmittedWorker | notifyOwner | closeWatch
  | blockReconciliation
deriving DecidableEq, Repr

def Result.name : Result → String
  | .noChange => "NO_CHANGE"
  | .recheckLater => "RECHECK_LATER"
  | .wakeCoordinator => "WAKE_COORDINATOR"
  | .resumeAdmittedWorker => "RESUME_ADMITTED_WORKER"
  | .notifyOwner => "NOTIFY_OWNER"
  | .closeWatch => "CLOSE_WATCH"
  | .blockReconciliation => "BLOCK_RECONCILIATION"

/-- `TERMINAL_STATES`. -/
inductive TerminalState where
  | «open» | closed
deriving DecidableEq, Repr

def TerminalState.name : TerminalState → String
  | .open => "OPEN"
  | .closed => "CLOSED"

/-- `facts.watch`. -/
structure WatchFacts where
  watchClass : WatchClass
  observedAt : String
  subjectVersion : Option String
  intentRevision : Option ℤ
deriving DecidableEq, Repr

/-- `IDENTITY_KEYS`: what a watch is of. A stored state has all of them or none. -/
structure Identity where
  targetRepo : String
  workstream : String
  intentRevision : ℤ
  watchClass : WatchClass
  subjectVersion : String
deriving DecidableEq, Repr

/-- The watch state as `_parse_state` reads it. -/
structure State where
  identity : Option Identity
  lastObservationDigest : String
  lastDecision : String
  lastDecisionKey : String
  lastTransitionAt : String
  lastObservationAt : String
  consecutiveTransientFailures : ℤ
  nextEligibleCheckAt : Option String
  terminalState : TerminalState
deriving DecidableEq, Repr

/-- The watch state as `_persist` writes it; `lastObservationAt` can be left out. -/
structure Persisted where
  identity : Identity
  lastObservationDigest : String
  lastDecision : String
  lastDecisionKey : String
  lastTransitionAt : String
  consecutiveTransientFailures : ℤ
  nextEligibleCheckAt : Option String
  terminalState : TerminalState
  lastObservationAt : Option String
deriving DecidableEq, Repr

/-- A text or `None`. -/
def optStr : Option String → Json
  | none => .null
  | some s => .str s

/-- `next_watch_state`, as a document. -/
def Persisted.toJson (p : Persisted) : Json :=
  .obj ([("schema_version", .int 1), ("target_repo", .str p.identity.targetRepo),
    ("workstream", .str p.identity.workstream), ("intent_revision", .int p.identity.intentRevision),
    ("watch_class", .str p.identity.watchClass.name),
    ("subject_version", .str p.identity.subjectVersion),
    ("last_observation_digest", .str p.lastObservationDigest),
    ("last_decision", .str p.lastDecision), ("last_decision_key", .str p.lastDecisionKey),
    ("last_transition_at", .str p.lastTransitionAt),
    ("consecutive_transient_failures", .int p.consecutiveTransientFailures),
    ("next_eligible_check_at", optStr p.nextEligibleCheckAt),
    ("terminal_state", .str p.terminalState.name)] ++
      match p.lastObservationAt with
      | none => []
      | some s => [("last_observation_at", .str s)])

/-- What `evaluate` returns. -/
structure WatchResult where
  result : Result
  reason : String
  coordinatorDecision : String
  watchClass : WatchClass
  notificationDisposition : String
  notificationKey : String
  notificationSuppressReason : String
  resumesWorker : Bool
  wakesCoordinator : Bool
  closesWatch : Bool
  retriesAction : Bool
  stopsUnrelatedSessions : Bool
  mutatesExistingSessions : Bool
  spawnsProcess : Bool
  mutatesGithub : Bool
  sendsNotification : Bool
  nextEligibleCheckAt : Option String
  nextWatchState : Persisted
  repository : String
  workstream : String
  intentRevision : ℤ
deriving DecidableEq, Repr

/-! ### Parsing -/

def requireStr : Json → String → Except ToolError String := Tools.requireStr watchFactsError

def requireMapping : Json → String → Except ToolError Obj := Tools.requireMapping watchFactsError

def rejectUnknown : Obj → List String → String → Except ToolError Unit :=
  Tools.rejectUnknown watchFactsError

/-- A class of `WATCH_CLASSES`, by its name. -/
def watchClass (value : Json) (label : String) : Except ToolError WatchClass := do
  let text ← requireStr value label
  match watchClasses.find? fun c => c.name = text with
  | some c => .ok c
  | none => .error (watchFactsError s!"{label} is unknown: {text}")

/-- An integer from one on. -/
def positiveInt (value : Json) (label : String) : Except ToolError ℤ :=
  match value with
  | .int n => if n < 1 then .error (watchFactsError s!"{label} must be an integer >= 1") else .ok n
  | _ => .error (watchFactsError s!"{label} must be an integer >= 1")

/-- `_parse_watch`. -/
def parseWatch (raw : Json) : Except ToolError WatchFacts := do
  let data ← requireMapping raw "watch"
  rejectUnknown data ["watch_class", "subject_version", "observed_at", "intent_revision"] "watch"
  let watchClass ← watchClass (field data "watch_class") "watch.watch_class"
  let observedAt ← requireStr (field data "observed_at") "watch.observed_at"
  let observed ← parseTime observedAt "watch.observed_at"
  let subject ← Coordinator.ifPresent data "subject_version" none fun v =>
    (requireStr v "watch.subject_version").map some
  let revision ← Coordinator.ifPresent data "intent_revision" none fun v =>
    (positiveInt v "watch.intent_revision").map some
  return ⟨watchClass, formatTime observed, subject, revision⟩

/-- `IDENTITY_KEYS`. -/
def identityKeys : List String :=
  ["target_repo", "workstream", "intent_revision", "watch_class", "subject_version"]

/-- `STATE_KEYS`. -/
def stateKeys : List String :=
  ["schema_version", "target_repo", "workstream", "intent_revision", "watch_class",
    "subject_version", "last_observation_digest", "last_decision", "last_decision_key",
    "last_transition_at", "last_observation_at", "consecutive_transient_failures",
    "next_eligible_check_at", "terminal_state"]

/-- The identity of a stored state, which is there as a whole or not at all. -/
def parseIdentity (data : Obj) : Except ToolError (Option Identity) := do
  let present := identityKeys.filter (has data)
  if present ≠ [] ∧ present.length ≠ identityKeys.length then
    .error (watchFactsError "watch_state identity must include every identity field")
  if present = [] then return none
  let watchClass ← watchClass (field data "watch_class") "watch_state.watch_class"
  let revision ← positiveInt (field data "intent_revision") "watch_state.intent_revision"
  let repo ← requireStr (field data "target_repo") "watch_state.target_repo"
  let workstream ← requireStr (field data "workstream") "watch_state.workstream"
  let subject ← requireStr (field data "subject_version") "watch_state.subject_version"
  return some ⟨repo, workstream, revision, watchClass, subject⟩

/-- The terminal state, which is open if none is stored. -/
def parseTerminal (data : Obj) : Except ToolError TerminalState := do
  if !has data "terminal_state" then return .open
  let text ← requireStr (field data "terminal_state") "watch_state.terminal_state"
  if text = "OPEN" then return .open
  if text = "CLOSED" then return .closed
  .error (watchFactsError s!"watch_state.terminal_state is unknown: {text}")

/-- The transient failures in a row, none if none are stored. -/
def parseFailures (data : Obj) : Except ToolError ℤ :=
  if !has data "consecutive_transient_failures" then .ok 0
  else match field data "consecutive_transient_failures" with
    | .int n =>
      if n < 0 then
        .error (watchFactsError
          "watch_state.consecutive_transient_failures must be an integer >= 0")
      else .ok n
    | _ => .error (watchFactsError
        "watch_state.consecutive_transient_failures must be an integer >= 0")

/-- A timestamp of the state: `None` and the empty text stand for none. -/
def stateTime (data : Obj) (key : String) : Except ToolError (Option String) :=
  match field data key with
  | .null => .ok none
  | .str "" => .ok (some "")
  | value => do
    let text ← requireStr value s!"watch_state.{key}"
    let _ ← parseTime text s!"watch_state.{key}"
    match value with
    | .str s => return some s
    | _ => return none

/-- `_parse_state`. -/
def parseState (raw : Json) : Except ToolError State := do
  let data ← requireMapping raw "watch_state"
  rejectExecutionKeys data "watch_state"
  rejectUnknown data stateKeys "watch_state"
  if has data "schema_version" ∧ !isOne (field data "schema_version") then
    .error (watchFactsError "watch_state.schema_version must be 1")
  let identity ← parseIdentity data
  let terminal ← parseTerminal data
  let failures ← parseFailures data
  let lastTransitionAt ← stateTime data "last_transition_at"
  let lastObservationAt ← stateTime data "last_observation_at"
  let nextEligibleCheckAt ← stateTime data "next_eligible_check_at"
  return {
    identity
    lastObservationDigest := strOrEmpty (field data "last_observation_digest")
    lastDecision := strOrEmpty (field data "last_decision")
    lastDecisionKey := strOrEmpty (field data "last_decision_key")
    lastTransitionAt := lastTransitionAt.getD ""
    lastObservationAt := lastObservationAt.getD ""
    consecutiveTransientFailures := failures
    nextEligibleCheckAt
    terminalState := terminal }

/-! ### What an observation is -/

/-- An integer or `None`. -/
def optInt : Option ℤ → Json
  | none => .null
  | some n => .int n

/-- A truth value or `None`. -/
def optBool : Option Bool → Json
  | none => .null
  | some b => .bool b

/-- `sha256(text).hexdigest()` of an ASCII text. -/
def sha256Hex (text : List Char) : String :=
  String.ofList ((sha256 (text.map Char.toNat)).flatMap hex2)

/-- `_observation_digest`. -/
def observationDigest (facts : Facts) (decision : Decision) : String :=
  let worker := facts.worker
  sha256Hex <| Json.dumps <| .obj [
    ("admission", .obj [("decision", .str facts.admission.decision.name),
      ("deny_class", optStr facts.admission.denyClass)]),
    ("ci", .obj [("state", .str facts.ci.state.name), ("subject_head", .str facts.ci.subjectHead)]),
    ("decision", .str decision.name), ("intent_revision", .int facts.packet.intentRevision),
    ("mutation_ambiguous", .bool facts.mutation.ambiguous),
    ("packet_status", .str facts.packet.status.name), ("pr_head", .str facts.pr.head),
    ("resource", .obj [("result", .str facts.resource.name)]),
    ("review_actionable_open", optBool facts.review.actionableOpen),
    ("review_state", .str facts.review.state.name),
    ("review_subject_head", .str facts.review.subjectHead),
    ("worker", .obj [("present", .bool worker.present),
      ("status", optStr (worker.status.map Coordinator.WorkerStatus.name)),
      ("starting_intent_revision", optInt worker.startingIntentRevision),
      ("progress_evidence", .bool worker.progressEvidence)])]

/-- `_notification_key`. -/
def notificationKey (facts : Facts) (result : Result) (subject decision : String) : String :=
  bar [facts.packet.repository, facts.packet.workstream, intStr facts.packet.intentRevision,
    result.name, decision, subject]

/-- `_resume_allowed`. -/
def resumeAllowed (facts : Facts) : Bool :=
  facts.worker.present && facts.worker.progressEvidence &&
    facts.worker.startingIntentRevision = some facts.packet.intentRevision &&
    (facts.resource = .pass || facts.resource = .warn) && facts.admission.decision = .allow

/-- `_resume_in_scope`. -/
def resumeInScope (watch : WatchFacts) : Bool := watch.watchClass = .workerProgressOrYield

/-- Latest accepted observation, or the transition time when schema-v1 omits it. -/
def observationBoundary (state : State) : String :=
  orStr state.lastObservationAt state.lastTransitionAt

/-- `_observation_is_older`: older than the last observation or transition of the state. -/
def observationIsOlder (watch : WatchFacts) (state : State) : Except ToolError Bool := do
  if observationBoundary state = "" then return false
  let observed ← parseTime watch.observedAt "watch.observed_at"
  let prior ← parseTime (observationBoundary state) "watch_state.observation_boundary"
  return observed < prior

/-- `data[key] = value`. -/
def setField (data : Obj) (key : String) (value : Json) : Obj :=
  if has data key then data.map fun e => if e.1 = key then (key, value) else e
  else data ++ [(key, value)]

/-- The persisted watch counter is the authoritative transient retry count. -/
def bindTransientRetry (payload : Obj) (facts : Facts) (state : State) : Obj :=
  if facts.failure.failureClass ≠ .transient then payload
  else
    let wait := match field payload "wait" with
      | .obj fields => fields
      | _ => []
    setField payload "wait" (.obj (setField wait "retry_count"
      (.int (max state.consecutiveTransientFailures facts.wait.retryCount))))

/-- `BASE_RECHECK_SECONDS`. -/
def baseRecheckSeconds : ℤ := 300

/-- `MAX_RECHECK_SECONDS`. -/
def maxRecheckSeconds : ℤ := 3600

/-- `_backoff_seconds`: twice the last wait, up to the maximum, while nothing changes. -/
def backoffSeconds (state : State) (unchanged : Bool) : Except ToolError ℤ := do
  if !unchanged then return baseRecheckSeconds
  let previousNext := state.nextEligibleCheckAt.getD ""
  if previousNext = "" ∨ state.lastTransitionAt = "" then return baseRecheckSeconds
  let next ← parseTime previousNext "watch_state.next_eligible_check_at"
  let transition ← parseTime state.lastTransitionAt "watch_state.last_transition_at"
  let previous := (next - transition).tdiv second
  if previous ≤ 0 then return baseRecheckSeconds
  return min (previous * 2) maxRecheckSeconds

/-- `_next_check`. -/
def nextCheck (observedAt : String) (state : State) (unchanged : Bool) :
    Except ToolError String := do
  let observed ← parseTime observedAt "watch.observed_at"
  let backoff ← backoffSeconds state unchanged
  let next ← checkRange (observed + backoff * second)
  return formatTime next

/-- `_transient_count`. -/
def transientCount (facts : Facts) (state : State) : ℤ :=
  if facts.failure.failureClass = .transient then state.consecutiveTransientFailures + 1 else 0

/-! ### The result -/

/-- The keyword arguments of `_emit`. -/
structure Emission where
  result : Result
  reason : String
  coordinatorDecision : String
  subject : String
  digest : String
  suppress : String
  notification : String
  terminalState : TerminalState := .open
  nextEligible : Option String := none
  unchanged : Bool := false
  preserveDurable : Bool := false

/-- `_persist`: what is stored of a decision. -/
def persist (facts : Facts) (watch : WatchFacts) (state : State) (e : Emission)
    (decision key : String) : Persisted :=
  let repo := (state.identity.map (·.targetRepo)).getD facts.packet.repository
  let workstream := (state.identity.map (·.workstream)).getD facts.packet.workstream
  if e.preserveDurable then
    { identity := {
        targetRepo := repo
        workstream := workstream
        intentRevision := (state.identity.map (·.intentRevision)).getD facts.packet.intentRevision
        watchClass := (state.identity.map (·.watchClass)).getD watch.watchClass
        subjectVersion := (state.identity.map (·.subjectVersion)).getD e.subject }
      lastObservationDigest := orStr state.lastObservationDigest e.digest
      lastDecision := orStr state.lastDecision decision
      lastDecisionKey := orStr state.lastDecisionKey key
      lastTransitionAt := orStr state.lastTransitionAt watch.observedAt
      consecutiveTransientFailures := state.consecutiveTransientFailures
      nextEligibleCheckAt := state.nextEligibleCheckAt
      terminalState := state.terminalState
      lastObservationAt := if state.lastObservationAt = "" then none
        else some state.lastObservationAt }
  else
    { identity := {
        targetRepo := repo
        workstream := workstream
        intentRevision := facts.packet.intentRevision
        watchClass := watch.watchClass
        subjectVersion := e.subject }
      lastObservationDigest := e.digest
      lastDecision := decision
      lastDecisionKey := key
      lastTransitionAt :=
        if e.result = .noChange ∧ e.unchanged then orStr state.lastTransitionAt watch.observedAt
        else watch.observedAt
      consecutiveTransientFailures := transientCount facts state
      nextEligibleCheckAt := e.nextEligible
      terminalState := e.terminalState
      lastObservationAt := if watch.observedAt = "" then none else some watch.observedAt }

/-- `_emit`, before an identity is put over the persisted state. -/
def emit (facts : Facts) (watch : WatchFacts) (state : State) (e : Emission) : WatchResult :=
  let reported := if e.preserveDurable then orStr state.lastDecision e.coordinatorDecision
    else e.coordinatorDecision
  let key := notificationKey facts e.result e.subject reported
  let key := if e.result = .noChange ∨ e.preserveDurable then orStr state.lastDecisionKey key
    else key
  { result := e.result
    reason := e.reason
    coordinatorDecision := reported
    watchClass := watch.watchClass
    notificationDisposition := e.notification
    notificationKey := key
    notificationSuppressReason := e.suppress
    resumesWorker := e.result = .resumeAdmittedWorker
    wakesCoordinator := e.result = .wakeCoordinator
    closesWatch := e.result = .closeWatch
    retriesAction := false
    stopsUnrelatedSessions := false
    mutatesExistingSessions := false
    spawnsProcess := false
    mutatesGithub := false
    sendsNotification := false
    nextEligibleCheckAt := e.nextEligible
    nextWatchState := persist facts watch state e reported key
    repository := facts.packet.repository
    workstream := facts.packet.workstream
    intentRevision := facts.packet.intentRevision }

/-- The identity under which a stale watch is closed: the one it has. -/
def closedIdentity (facts : Facts) (watch : WatchFacts) (state : State) (subject : String) :
    Identity :=
  state.identity.getD {
    targetRepo := facts.packet.repository
    workstream := facts.packet.workstream
    intentRevision := watch.intentRevision.getD facts.packet.intentRevision
    watchClass := watch.watchClass
    subjectVersion := subject }

/-- `_close_stale`. -/
def closeStale (facts : Facts) (watch : WatchFacts) (state : State) (subject reason : String) :
    WatchResult :=
  let identity := closedIdentity facts watch state subject
  let emitted := emit facts watch state {
    result := .closeWatch
    reason := reason
    coordinatorDecision := "STALE_WATCH"
    subject := identity.subjectVersion
    digest := "STALE"
    suppress := "NONE"
    notification := "SEND"
    terminalState := .closed }
  { emitted with
    nextWatchState := { emitted.nextWatchState with
      identity := identity
      terminalState := .closed
      nextEligibleCheckAt := none }
    resumesWorker := false
    wakesCoordinator := false }

/-- `_map_decision`. -/
def mapDecision (facts : Facts) (watch : WatchFacts) (state : State) (decision : Decision)
    (planReason subject : String) : Except ToolError WatchResult := do
  let name := decision.name
  let digest := observationDigest facts decision
  let unchanged := state.lastObservationDigest ≠ "" && state.lastObservationDigest = digest
  let sameDecision := state.lastDecision ≠ "" && state.lastDecision = name
  let emit := emit facts watch state
  if decision = .noopComplete ∨ facts.packet.status = .complete then
    return emit {
      result := .closeWatch
      reason := "COMPLETE packet closes the watch"
      coordinatorDecision := name, subject, digest
      suppress := "NONE"
      notification := "SEND"
      terminalState := .closed }
  match decision with
  | .noopComplete | .reconcileAmbiguous =>
    let duplicate := state.lastDecisionKey = notificationKey facts .blockReconciliation subject name
    return emit {
      result := .blockReconciliation
      reason := "ambiguous external mutation must be reconciled before any retry"
      coordinatorDecision := name, subject, digest
      suppress := if duplicate then "DEDUP" else "NONE"
      notification := if duplicate then "SUPPRESS" else "SEND" }
  | .blockHuman =>
    if state.lastDecisionKey = notificationKey facts .notifyOwner subject name then
      let next ← nextCheck watch.observedAt state true
      return emit {
        result := .noChange
        reason := "identical owner notification is deduplicated"
        coordinatorDecision := name, subject, digest
        suppress := "DEDUP"
        notification := "SUPPRESS"
        nextEligible := next
        unchanged := true }
    return emit {
      result := .notifyOwner
      reason := "human action is required and is not auto-authorized"
      coordinatorDecision := name, subject, digest
      suppress := "NONE"
      notification := "SEND" }
  | .resumeWorker =>
    if !resumeInScope watch then
      return emit {
        result := .blockReconciliation
        reason := s!"watch class {watch.watchClass.name} cannot authorize worker resume"
        coordinatorDecision := "OUT_OF_SCOPE", subject, digest
        suppress := "NONE"
        notification := "SUPPRESS" }
    if !resumeAllowed facts then
      let next ← nextCheck watch.observedAt state unchanged
      return emit {
        result := .recheckLater
        reason := "resource or admission facts block worker resume and do not mutate unrelated sessions"
        coordinatorDecision := name, subject, digest
        suppress := if unchanged then "IDENTICAL_WAIT" else "QUIET_WAIT"
        notification := "SUPPRESS"
        nextEligible := next
        unchanged }
    if sameDecision ∧ unchanged then
      let next ← nextCheck watch.observedAt state true
      return emit {
        result := .noChange
        reason := "admitted worker resume was already emitted for this observation"
        coordinatorDecision := name, subject, digest
        suppress := "DEDUP"
        notification := "SUPPRESS"
        nextEligible := next
        unchanged := true }
    let next ← nextCheck watch.observedAt state false
    return emit {
      result := .resumeAdmittedWorker
      reason := "admitted same-revision worker has positive progress and resource admission still allows resume"
      coordinatorDecision := name, subject, digest
      suppress := "NONE"
      notification := "SUPPRESS"
      nextEligible := next }
  | .yieldResource | .waitExternal | .waitExactHeadCi | .noopPaused =>
    let next ← nextCheck watch.observedAt state unchanged
    return emit {
      result := .recheckLater
      reason :=
        if decision = .yieldResource then
          "resource block does not resume a worker and does not mutate unrelated sessions"
        else if decision = .noopPaused then "PAUSED packet does not launch or resume a worker"
        else if isIn "progress evidence" planReason then
          "worker liveness without positive progress does not resume"
        else "identical observation schedules a bounded recheck without notification"
      coordinatorDecision := name, subject, digest
      suppress := if unchanged then "IDENTICAL_WAIT" else "QUIET_WAIT"
      notification := "SUPPRESS"
      nextEligible := next
      unchanged }
  | .admitImplementation | .auditDirtyTree | .authorizePublication | .auditReview | .mergeReady
  | .replanSemanticFailure | .staleWorker =>
    if sameDecision then
      let next ← nextCheck watch.observedAt state true
      return emit {
        result := .noChange
        reason := "coordinator decision is unchanged, so the watch does not wake again"
        coordinatorDecision := name, subject, digest
        suppress := "DEDUP"
        notification := "SUPPRESS"
        nextEligible := next
        unchanged := true }
    let next ← nextCheck watch.observedAt state false
    return emit {
      result := .wakeCoordinator
      reason := s!"coordinator decision changed to {name}"
      coordinatorDecision := name, subject, digest
      suppress := "NONE"
      notification := "SEND"
      nextEligible := next }

/-! ### `evaluate` -/

/-- The identity of the state against the packet and the watch. -/
def checkIdentity (state : State) (facts : Facts) (watch : WatchFacts) : Except ToolError Unit :=
  match state.identity with
  | none => .ok ()
  | some identity =>
    if identity.targetRepo ≠ facts.packet.repository ∨
        identity.workstream ≠ facts.packet.workstream then
      .error (watchFactsError
        "watch_state identity does not match the packet repository or workstream")
    else if identity.watchClass ≠ watch.watchClass then
      .error (watchFactsError "watch_state.watch_class does not match facts.watch.watch_class")
    else .ok ()

/-- The facts are about another revision or another subject than the watch. -/
def staleIdentity (state : State) (facts : Facts) (watch : WatchFacts) : Bool :=
  (state.identity.any fun i => i.intentRevision ≠ facts.packet.intentRevision) ||
    (watch.intentRevision.any fun r => r ≠ facts.packet.intentRevision) ||
    state.identity.any fun i => i.subjectVersion ≠ Coordinator.subjectVersion facts

/-- The answer of a closed watch. -/
def closedEmission (state : State) (subject : String) : Emission where
  result := .closeWatch
  reason := "watch is already closed"
  coordinatorDecision := orStr state.lastDecision "CLOSED"
  subject := (state.identity.map (·.subjectVersion)).getD subject
  digest := orStr state.lastObservationDigest "CLOSED"
  suppress := "DEDUP"
  notification := "SUPPRESS"
  terminalState := .closed
  nextEligible := state.nextEligibleCheckAt
  unchanged := true
  preserveDurable := true

/-- The answer to an observation from before the latest accepted one. -/
def olderEmission (state : State) (subject : String) : Emission where
  result := .noChange
  reason := "observation is older than the latest accepted observation and does not change durable watch state"
  coordinatorDecision := state.lastDecision
  subject := subject
  digest := state.lastObservationDigest
  suppress := "DEDUP"
  notification := "SUPPRESS"
  nextEligible := state.nextEligibleCheckAt
  unchanged := true
  preserveDurable := true

/-- `evaluate`, behind the parsing of its documents; `planner` is the payload without its watch. -/
def evaluateParsed (planner : Obj) (facts : Facts) (watch : WatchFacts) (state : State) :
    Except ToolError WatchResult := do
  let subject := Coordinator.subjectVersion facts
  if watch.subjectVersion.any fun s => s ≠ subject then
    .error (.watchFacts "watch.subject_version does not match the coordinator-derived subject"
      "SUBJECT_OVERRIDE")
  checkIdentity state facts watch
  if state.terminalState = .closed then
    return emit facts watch state (closedEmission state subject)
  if staleIdentity state facts watch then
    return closeStale facts watch state subject
      "stale watch identity cannot act and must be reconciled against the current packet"
  if ← observationIsOlder watch state then
    if state.lastDecision = "" ∨ state.lastObservationDigest = "" ∨ state.lastDecisionKey = "" then
      .error (watchFactsError "older observation cannot roll back an incomplete watch state")
    return emit facts watch state (olderEmission state subject)
  if facts.mutation.ambiguous ∨ facts.failure.failureClass = .ambiguousMutation then
    mapDecision facts watch state .reconcileAmbiguous "ambiguous mutation" subject
  else
    let plan ← Coordinator.plan (bindTransientRetry planner facts state)
    mapDecision facts watch state plan.decision plan.reason subject

/-- `evaluate`: the facts with their watch, the stored state, and then the decision. -/
def evaluate (factsPayload statePayload : Json) : Except ToolError WatchResult := do
  let raw ← requireMapping factsPayload "facts"
  rejectExecutionKeys raw "facts"
  rejectUnknown raw ("watch" :: Coordinator.topLevelKeys) "facts"
  if !has raw "watch" then .error (watchFactsError "facts.watch is required")
  let watch ← parseWatch (field raw "watch")
  let state ← parseState statePayload
  let planner := raw.filter fun e => e.1 ≠ "watch"
  let facts ← Coordinator.normalizeFacts planner
  evaluateParsed planner facts watch state

end Watch

end DataRelay.Tools
