import DataRelay.Tools.Facts

/-! The planner: the facts of one packet in, one bounded decision out. -/

namespace DataRelay.Tools.Coordinator

/-- `DECISIONS`. -/
inductive Decision where
  | noopComplete | noopPaused | blockHuman | waitExternal | reconcileAmbiguous
  | admitImplementation | resumeWorker | auditDirtyTree | authorizePublication
  | waitExactHeadCi | auditReview | mergeReady | replanSemanticFailure | yieldResource
  | staleWorker
deriving DecidableEq, Repr

def Decision.name : Decision → String
  | .noopComplete => "NOOP_COMPLETE"
  | .noopPaused => "NOOP_PAUSED"
  | .blockHuman => "BLOCK_HUMAN"
  | .waitExternal => "WAIT_EXTERNAL"
  | .reconcileAmbiguous => "RECONCILE_AMBIGUOUS"
  | .admitImplementation => "ADMIT_IMPLEMENTATION"
  | .resumeWorker => "RESUME_WORKER"
  | .auditDirtyTree => "AUDIT_DIRTY_TREE"
  | .authorizePublication => "AUTHORIZE_PUBLICATION"
  | .waitExactHeadCi => "WAIT_EXACT_HEAD_CI"
  | .auditReview => "AUDIT_REVIEW"
  | .mergeReady => "MERGE_READY"
  | .replanSemanticFailure => "REPLAN_SEMANTIC_FAILURE"
  | .yieldResource => "YIELD_RESOURCE"
  | .staleWorker => "STALE_WORKER"

/-- `WAIT_DECISIONS`. -/
def waitDecisions : List Decision := [.waitExternal, .waitExactHeadCi]

/-- `QUIET_MICROSTEPS`. -/
def quietMicrosteps : List Decision := [.resumeWorker]

/-- `ACTIVE_WORKER_STATUSES`. -/
def activeWorkerStatuses : List WorkerStatus := [.claimed, .active, .wait, .yield, .retry]

/-- `HIGH_RISKS`. -/
def highRisks : List ChangeRisk := [.high, .critical]

/-- What the planner answers. -/
structure Plan where
  decision : Decision
  reason : String
  decisionClass : String
  notificationDisposition : String
  notificationKey : String
  notificationSuppressReason : String
  subjectVersion : String
  launchesWorker : Bool
  mutatesExistingSessions : Bool
  stopsUnrelatedSessions : Bool
  spawnsProcess : Bool
  mutatesGithub : Bool
  sendsNotification : Bool
  priority : Priority
  changeRisk : ChangeRisk
  intentRevision : ℤ
  repository : String
  workstream : String
deriving DecidableEq, Repr

/-- `decision_class`. -/
def decisionClass (decision : Decision) : String :=
  if waitDecisions.contains decision then "WAIT" else decision.name

/-- The first head that is known. -/
def subjectVersion (facts : Facts) : String :=
  ([facts.pr.head, facts.ci.subjectHead, facts.git.head].find? fun value =>
    value ≠ "UNKNOWN" && fullSha value).getD "NONE"

/-- `"|".join(parts)`. -/
def bar : List String → String
  | [] => ""
  | [part] => part
  | part :: parts => part ++ "|" ++ bar parts

/-- `_dependencies_eligible`. -/
def dependenciesEligible (packet : Packet) : String :=
  match packet.dependencies with
  | none => "UNKNOWN"
  | some deps => if deps.all fun d => d.status = .complete then "YES" else "NO"

/-- `_active_worker`. -/
def activeWorker (facts : Facts) : Bool :=
  facts.worker.present && facts.worker.status.any activeWorkerStatuses.contains &&
    facts.worker.startingIntentRevision = some facts.packet.intentRevision

/-- `_emit`: the notification is kept back where the last decision had the same key. -/
def emit (facts : Facts) (decision : Decision) (reason : String) (subject : Option String) :
    Plan :=
  let packet := facts.packet
  let version := subject.getD (subjectVersion facts)
  let key := bar [packet.repository, packet.workstream, intStr packet.intentRevision,
    decisionClass decision, version]
  let same := facts.previousDecision.any fun p => p.key = key
  let (disposition, suppress) :=
    if quietMicrosteps.contains decision then ("SUPPRESS", "WORKER_MICROSTEP")
    else if waitDecisions.contains decision && same then ("SUPPRESS", "IDENTICAL_WAIT")
    else if same then ("SUPPRESS", "DEDUP")
    else ("SEND", "NONE")
  { decision, reason, decisionClass := decisionClass decision,
    notificationDisposition := disposition, notificationKey := key,
    notificationSuppressReason := suppress, subjectVersion := version,
    launchesWorker := decision = .admitImplementation, mutatesExistingSessions := false,
    stopsUnrelatedSessions := false, spawnsProcess := false, mutatesGithub := false,
    sendsNotification := false, priority := packet.priority, changeRisk := packet.changeRisk,
    intentRevision := packet.intentRevision, repository := packet.repository,
    workstream := packet.workstream }

/-- `_audit_or_authorize`. -/
def auditOrAuthorize (facts : Facts) : Plan :=
  let publication := facts.publication
  let intent := facts.packet.intentRevision
  if publication.coordinatorAudit = .fail then
    emit facts .replanSemanticFailure
      "coordinator audit failed; re-plan instead of publishing the same result" none
  else if publication.coordinatorAudit = .pass ∧
      publication.authorizedIntentRevision = some intent then
    emit facts .authorizePublication "coordinator audit PASS matches the current intent revision"
      none
  else if publication.coordinatorAudit = .pass then
    emit facts .auditDirtyTree
      "publication authorization does not match the current intent revision" none
  else
    emit facts .auditDirtyTree
      "yielded or dirty implementation requires coordinator audit before publication" none

/-- Coordinator audit passed for the revision that the packet has now. -/
def auditOk (facts : Facts) : Bool :=
  facts.publication.coordinatorAudit = .pass &&
    facts.publication.authorizedIntentRevision = some facts.packet.intentRevision

/-- The state of the pull request, as a reason has it. -/
def prStateText : Option PrState → String
  | some state => state.name
  | none => "None"

/-- `_pr_pipeline`. -/
def prPipeline (facts : Facts) : Plan :=
  let pr := facts.pr
  let head := pr.head
  let ci := facts.ci
  let review := facts.review
  let exactTree := facts.git.head ≠ "UNKNOWN" && head ≠ "UNKNOWN" && facts.git.head = head &&
    fullSha head
  let ciExact : Bool := ci.subjectHead = head
  let actionable := review.actionableOpen = some true || review.state = .open
  let reviewClear := review.actionableOpen = some false && review.state = .clear &&
    review.subjectHead = head
  if pr.state ≠ some .open then
    emit facts .waitExternal
      s!"pull request state {prStateText pr.state} is not an open merge candidate" none
  else if !exactTree then
    emit facts .waitExactHeadCi "pull request head is not bound to the observed Git HEAD"
      (some (if head ≠ "UNKNOWN" then head else "NONE"))
  else if ci.state = .fail && ciExact then
    emit facts .replanSemanticFailure
      "exact-head CI failed; re-plan instead of retrying publication" (some head)
  else if ci.state ≠ .pass || !ciExact then
    emit facts .waitExactHeadCi
      "exact-head CI is pending or not bound to the pull request head" (some head)
  else if !reviewClear || actionable then
    emit facts .auditReview "exact-head CI passed with actionable or unbound review state"
      (some head)
  else if facts.git.dirty ≠ some false then
    emit facts .auditDirtyTree "open pull request worktree is dirty or unverified" (some head)
  else if facts.git.unpushed ≠ some false then
    emit facts .waitExternal
      "unpushed commits are not proven present on the pull request head" (some head)
  else if facts.orgRollout = .pending then
    emit facts .waitExternal
      "org rollout authorization is a separate gate and is still pending" (some head)
  else if highRisks.contains facts.packet.changeRisk && !auditOk facts then
    emit facts .waitExternal
      "HIGH or CRITICAL merge requires coordinator audit PASS for the current intent revision"
      (some head)
  else if pr.mergeable ≠ .yes then
    emit facts .waitExternal "pull request mergeability is not YES" (some head)
  else
    emit facts .mergeReady "exact-head CI, review, audit, and mergeability gates are green"
      (some head)

/-- `_implementation_path`. -/
def implementationPath (facts : Facts) : Plan :=
  let git := facts.git
  let implementing := activeWorker facts && !git.yieldedForAudit
  let resource := facts.resource
  let admission := facts.admission.decision
  if git.dirty = some true && !implementing then auditOrAuthorize facts
  else if git.yieldedForAudit then auditOrAuthorize facts
  else if implementing then
    if facts.worker.progressEvidence then
      emit facts .resumeWorker
        "active worker matches the packet intent revision and has machine-observable progress evidence"
        none
    else
      emit facts .waitExternal
        "matching active worker has no machine-observable progress evidence; reconcile before resume"
        none
  else if git.dirty = none || git.unpushed = none then
    emit facts .waitExternal "Git dirty or unpushed state is UNKNOWN" none
  else if git.dirty = some false && (resource = .pass || resource = .warn) &&
      admission = .allow then
    emit facts .admitImplementation
      "ACTIVE packet is dependency-eligible and resource/admission facts allow one worker" none
  else if admission = .deny then
    emit facts .waitExternal "admission DENY blocks worker launch until facts change" none
  else
    emit facts .waitExternal "resource or admission facts do not allow worker launch" none

/-- The kind of an ambiguous mutation, as a reason has it. -/
def mutationKind (facts : Facts) : String := facts.mutation.kind.getD "mutation"

/-- What is waited for, as a reason has it. -/
def waitCondition (facts : Facts) : String := facts.wait.condition.getD "external condition"

/-- `plan`, behind `normalize_facts`. -/
def planFacts (facts : Facts) : Plan :=
  let packet := facts.packet
  let worker := facts.worker
  let failure := facts.failure
  let eligibility := dependenciesEligible packet
  if packet.status = .complete then
    emit facts .noopComplete "COMPLETE packets do not launch workers" none
  else if packet.status = .paused then
    emit facts .noopPaused "PAUSED packets do not launch workers" none
  else if packet.status = .blocked then
    emit facts .blockHuman "BLOCKED packets stay with the owner and do not launch workers" none
  else if facts.mutation.ambiguous || failure.failureClass = .ambiguousMutation then
    emit facts .reconcileAmbiguous
      s!"ambiguous {mutationKind facts} outcome must be reconciled before retry" none
  else if worker.present && worker.status.any activeWorkerStatuses.contains &&
      worker.startingIntentRevision ≠ some packet.intentRevision then
    emit facts .staleWorker
      "worker intent revision does not match the packet; do not finalize or publish" none
  else if failure.failureClass = .semantic || 2 ≤ failure.identicalSemanticCount then
    emit facts .replanSemanticFailure
      "semantic failure requires a new plan rather than another identical attempt" none
  else if failure.failureClass = .humanRequired || failure.failureClass = .authority then
    emit facts .blockHuman s!"failure class {failure.failureClass.name} requires the owner" none
  else if facts.resource = .block || failure.failureClass = .resource ||
      facts.admission.decision = .deny && facts.admission.denyClass = some "HOST_BUDGET" then
    emit facts .yieldResource
      "resource preflight BLOCK yields until capacity facts change and does not stop unrelated sessions"
      none
  else if failure.failureClass = .transient then
    if facts.wait.retryCount < facts.wait.retryBudget then
      emit facts .waitExternal "transient failure stays inside the bounded retry budget" none
    else emit facts .blockHuman "transient retry budget is exhausted" none
  else if eligibility ≠ "YES" then
    emit facts .waitExternal s!"dependencies are {eligibility} and cannot start work" none
  else if facts.pr.exist then prPipeline facts
  else if facts.wait.external then
    emit facts .waitExternal s!"waiting for {waitCondition facts}" none
  else implementationPath facts

/-- `plan`. -/
def plan (payload : Obj) : Except ToolError Plan := (normalizeFacts payload).map planFacts

end DataRelay.Tools.Coordinator
