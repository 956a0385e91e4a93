import DataRelay.Tools.Paths
import DataRelay.Tools.Watch

/-! What the run-once host of one watch parses, checks and builds; the run itself is in
    `DataRelay.Tools.HostRun`. -/

namespace DataRelay.Tools.Host
open Lib
open Watch (WatchResult WatchClass Result optStr sha256Hex)
open Coordinator (Facts bar)

/-! ### Errors and checks -/

/-- An exception of a run: one of the tools', or any other. -/
inductive Failure where
  | tool (e : ToolError)
  | other
deriving DecidableEq, Repr

/-- `HostRequestError(reason)`. -/
def hostError (reason : String) : ToolError := .hostRequest reason ambiguousFacts

def requireMapping : Json → String → Except ToolError Obj := Tools.requireMapping hostError

def requireStr : Json → String → Except ToolError String := Tools.requireStr hostError

def rejectUnknown : Obj → List String → String → Except ToolError Unit :=
  Tools.rejectUnknown hostError

/-- `REQUEST_KEYS`. -/
def requestKeys : List String :=
  ["schema_version", "target_repo", "workstream", "watch_class", "branch", "effect_target_id",
    "lock_path", "watch_state_path", "ledger_path", "work_budget", "verification"]

/-- `EXTRA_FORBIDDEN_KEYS`. -/
def extraForbiddenKeys : List String :=
  ["endpoint", "url", "uri", "webhook", "signing_key", "hmac_secret", "private_key", "mint", "prompt",
    "chat", "secret", "token", "password"]

/-- `reject_execution_keys`, with its error as a `HostRequestError`. -/
def plannerReject (payload : Obj) (label : String) : Except ToolError Unit :=
  match rejectExecutionKeys payload label with
  | .error (.plannerFacts reason denyClass) => .error (.hostRequest reason denyClass)
  | outcome => outcome

mutual

/-- `_reject_execution`. -/
def rejectExecution : Json → String → Except ToolError Unit
  | .obj fields, label => do
    plannerReject fields label
    rejectFields fields label
  | .arr items, label => rejectItems items label 0
  | _, _ => .ok ()

/-- The loop of `_reject_execution` over a mapping. -/
def rejectFields : Obj → String → Except ToolError Unit
  | [], _ => .ok ()
  | (key, value) :: rest, label =>
    if extraForbiddenKeys.contains (lower (strip key)) then
      .error (.hostRequest s!"{label} contains forbidden execution key {String.ofList (reprStr key)}"
        "EXECUTION_FORBIDDEN")
    else do
      rejectExecution value s!"{label}.{key}"
      rejectFields rest label

/-- The loop of `_reject_execution` over a list, from an index on. -/
def rejectItems : List Json → String → ℕ → Except ToolError Unit
  | [], _, _ => .ok ()
  | item :: rest, label, index => do
    rejectExecution item s!"{label}[{index}]"
    rejectItems rest label (index + 1)

end

/-- `MAX_TEXT`. -/
def maxText : ℕ := 512

/-- `_bounded_text`. -/
def boundedText (value label : String) : Except ToolError String :=
  if maxText < value.toList.length ∨ (Char.ofNat 0) ∈ value.toList ∨ '\n' ∈ value.toList then
    .error (hostError s!"{label} is not a bounded single-line value")
  else .ok value

/-- `BRANCH_RE.fullmatch`. -/
def branchRe (s : String) : Bool := s ≠ "" && s.toList.all fun c => isSlugChar c || c == '/'

/-- `TARGET_RE.fullmatch`. -/
def targetRe (s : String) : Bool := s ≠ "" && s.toList.all isSlugChar

/-! ### The request -/

/-- The paths of the two signed assertions. -/
structure Verification where
  bindingAssertion : String
  dispatchAssertion : String
deriving DecidableEq, Repr

/-- What `_parse_request` returns. -/
structure Request where
  targetRepo : String
  workstream : String
  watchClass : WatchClass
  branch : String
  effectTargetId : String
  verification : Option Verification
  lockPath : Option String
  watchStatePath : Option String
  ledgerPath : Option String
deriving DecidableEq, Repr

/-- A path that may be left out or `None`. -/
def optionalPath (raw : Obj) (key label : String) : Except ToolError (Option String) :=
  match field raw key with
  | .null => .ok none
  | value => (requireStr value label).map (some ∘ pathText)

/-- The verification of a request, if it has one. -/
def parseVerification (raw : Obj) : Except ToolError (Option Verification) :=
  match field raw "verification" with
  | .null => .ok none
  | value => do
    let data ← requireMapping value "verification"
    rejectUnknown data ["binding_assertion", "dispatch_assertion"] "verification"
    let binding ← requireStr (field data "binding_assertion") "verification.binding_assertion"
    let dispatch ← requireStr (field data "dispatch_assertion") "verification.dispatch_assertion"
    return some ⟨pathText binding, pathText dispatch⟩

/-- A required text of the request that is bounded and matches a pattern. -/
def patternStr (raw : Obj) (key label : String) (pattern : String → Bool) (message : String) :
    Except ToolError String := do
  let text ← requireStr (field raw key) label
  let text ← boundedText text label
  if !pattern text then .error (hostError message)
  return text

/-- `_parse_request`. -/
def parseRequest (raw : Obj) : Except ToolError Request := do
  rejectExecution (.obj raw) "request"
  if has raw "collected_facts_path" ∨ has raw "authoritative_facts_path" then
    .error (.hostRequest "caller-selected fact paths are not authoritative" "AUTHORITY_DENIED")
  rejectUnknown raw requestKeys "request"
  if !isOne (field raw "schema_version") then
    .error (hostError "request.schema_version must be 1")
  let targetRepo ← patternStr raw "target_repo" "request.target_repo" repositoryRe
    "request.target_repo must be owner/name"
  let workstream ← patternStr raw "workstream" "request.workstream" workstreamRe
    "request.workstream must be a stable slug"
  let className ← requireStr (field raw "watch_class") "request.watch_class"
  let watchClass ← match Watch.watchClasses.find? fun c => c.name = className with
    | some c => .ok c
    | none => .error (hostError s!"request.watch_class is unknown: {className}")
  let branch ← patternStr raw "branch" "request.branch" branchRe
    "request.branch contains unsupported characters"
  let effectTargetId ← patternStr raw "effect_target_id" "request.effect_target_id" targetRe
    "request.effect_target_id contains unsupported characters"
  match field raw "work_budget" with
  | .int 1 => .ok ()
  | _ => .error (hostError "request.work_budget must be 1")
  let verification ← parseVerification raw
  let lockPath ← optionalPath raw "lock_path" "request.lock_path"
  let watchStatePath ← optionalPath raw "watch_state_path" "request.watch_state_path"
  let ledgerPath ← optionalPath raw "ledger_path" "request.ledger_path"
  return ⟨targetRepo, workstream, watchClass, branch, effectTargetId, verification, lockPath,
    watchStatePath, ledgerPath⟩

/-! ### The watch directory -/

/-- `canonical_watch_dir`, relative to the state root. -/
def canonicalWatchDir (request : Request) (facts : Facts) : String :=
  String.ofList <| List.take 32 <| String.toList <| sha256Hex <| String.toList <|
    bar [request.targetRepo, request.workstream, intStr facts.packet.intentRevision,
      request.watchClass.name, Coordinator.subjectVersion facts]

/-- The paths that a request names are the ones of its watch. -/
def checkPath (supplied : Option String) (root directory name key : String) :
    Except ToolError Unit :=
  match supplied with
  | none => .ok ()
  | some path =>
    if normpath path ≠ root ++ "/" ++ directory ++ "/" ++ name then
      .error (hostError s!"request.{key} does not match the canonical watch identity")
    else .ok ()

/-- The three paths of a request are the canonical ones. -/
def checkPaths (request : Request) (root directory : String) : Except ToolError Unit := do
  checkPath request.lockPath root directory "lock" "lock_path"
  checkPath request.watchStatePath root directory "watch-state.json" "watch_state_path"
  checkPath request.ledgerPath root directory "ledger.json" "ledger_path"

/-! ### The facts -/

/-- `value == text`. -/
def isText (value : Json) (text : String) : Bool :=
  match value with
  | .str s => s = text
  | _ => false

/-- `_accept_facts`. -/
def acceptFacts (raw : Json) (request : Request) : Except ToolError (Obj × Facts) := do
  let data ← requireMapping raw "facts"
  rejectExecution (.obj data) "facts"
  let watch ← requireMapping (field data "watch") "facts.watch"
  if !isText (field watch "watch_class") request.watchClass.name then
    .error (hostError "facts.watch.watch_class does not match the declared watch")
  let facts ← match Coordinator.normalizeFacts (data.filter fun e => e.1 ≠ "watch") with
    | .error (.plannerFacts reason denyClass) => .error (.hostRequest reason denyClass)
    | outcome => outcome
  if facts.packet.repository ≠ request.targetRepo ∨
      facts.packet.workstream ≠ request.workstream then
    .error (hostError "facts do not match the declared repository or workstream")
  return (data, facts)

/-- What `_snapshot` takes of the facts to compare two reads. -/
structure Snapshot where
  repository : String
  workstream : String
  intentRevision : ℤ
  status : Coordinator.PacketStatus
  branch : String
  gitHead : String
  prHead : String
  ciSubjectHead : String
  progressEvidence : Bool
  startingIntentRevision : Option ℤ
deriving DecidableEq, Repr

/-- `_snapshot`. -/
def snapshot (facts : Facts) (branch : String) : Snapshot where
  repository := facts.packet.repository
  workstream := facts.packet.workstream
  intentRevision := facts.packet.intentRevision
  status := facts.packet.status
  branch := branch
  gitHead := facts.git.head
  prHead := facts.pr.head
  ciSubjectHead := facts.ci.subjectHead
  progressEvidence := facts.worker.progressEvidence
  startingIntentRevision := facts.worker.startingIntentRevision

/-- `HOST_RESULTS`. -/
inductive HostResult where
  | noAction | delivered | dedup | lockHeld | staleReconcile | resourceBlocked | reconcileAmbiguous
  | authorityDenied
deriving DecidableEq, Repr

/-- `_reconcile`, of the two snapshots and the facts that stand beside them. -/
def reconcile (collected authoritative : Facts) (collectedBranch authoritativeBranch : String)
    (name : Result) : Option HostResult :=
  if authoritative.mutation.ambiguous then some .reconcileAmbiguous
  else if snapshot collected collectedBranch ≠ snapshot authoritative authoritativeBranch then
    some .staleReconcile
  else if authoritative.resource = .block ∨ authoritative.admission.decision = .deny then
    some .resourceBlocked
  else if collected.resource ≠ authoritative.resource ∨
      collected.admission.decision ≠ authoritative.admission.decision then
    some .staleReconcile
  else if name = .resumeAdmittedWorker ∧ !authoritative.worker.progressEvidence then
    some .staleReconcile
  else none

/-- Why a run goes back to the facts. -/
def reconcileReason : HostResult → String
  | .staleReconcile => "authoritative packet or subject changed before the typed action"
  | .resourceBlocked => "resource or admission became blocked before the typed action"
  | _ => "authoritative mutation state is ambiguous; no typed action is retried"

/-! ### The ledger -/

/-- An action that was applied, under its key. -/
structure LedgerEntry where
  key : String
  outcome : String
  result : String
deriving DecidableEq, Repr

/-- `MAX_LEDGER_ENTRIES`. -/
def maxLedgerEntries : ℕ := 32

/-- One turn of the loop over the ledger. -/
def parseEntry (index : ℕ) (item : Json) : Except ToolError LedgerEntry := do
  let data ← requireMapping item s!"ledger.applied[{index}]"
  rejectUnknown data ["key", "outcome", "result"] s!"ledger.applied[{index}]"
  let key ← requireStr (field data "key") "ledger key"
  let key ← boundedText key "ledger key"
  let outcome ← requireStr (field data "outcome") "ledger outcome"
  let outcome ← boundedText outcome "ledger outcome"
  let result ← requireStr (field data "result") "ledger result"
  let result ← boundedText result "ledger result"
  return ⟨key, outcome, result⟩

/-- The loop over the ledger, from an index on. -/
def parseEntries : ℕ → List Json → Except ToolError (List LedgerEntry)
  | _, [] => .ok []
  | index, item :: items => do
    let entry ← parseEntry index item
    let entries ← parseEntries (index + 1) items
    return entry :: entries

/-- What `_ledger_entries` makes of the document. -/
def parseLedger (raw : Obj) : Except ToolError (List LedgerEntry) := do
  rejectUnknown raw ["schema_version", "applied"] "ledger"
  if !isOne (field raw "schema_version") then
    .error (hostError "ledger.schema_version must be 1")
  match fieldD raw "applied" (.arr []) with
  | .arr items =>
    if maxLedgerEntries < items.length then
      .error (hostError "ledger exceeds the bounded action history")
    else parseEntries 0 items
  | _ => .error (hostError "ledger.applied must be a JSON array")

/-- The entry, as it is stored. -/
def LedgerEntry.toJson (e : LedgerEntry) : Json :=
  .obj [("key", .str e.key), ("outcome", .str e.outcome), ("result", .str e.result)]

/-- The document that `_persist_ledger` writes. -/
def ledgerFields (entries : List LedgerEntry) : Obj :=
  [("schema_version", .int 1), ("applied", .arr (entries.map LedgerEntry.toJson))]

/-- `AMBIGUOUS_OUTCOMES`. -/
def ambiguousOutcomes : List String := ["AMBIGUOUS", "UNKNOWN", "TIMEOUT"]

/-! ### The journal -/

/-- `JOURNAL_PHASES`. -/
inductive Phase where
  | intent | sending | ambiguous | receipt
deriving DecidableEq, Repr

def Phase.name : Phase → String
  | .intent => "INTENT"
  | .sending => "SENDING"
  | .ambiguous => "AMBIGUOUS"
  | .receipt => "RECEIPT"

/-- `JOURNAL_PHASES`. -/
def phases : List Phase := [.intent, .sending, .ambiguous, .receipt]

/-- The journal of one effect: how far it is, and for which dispatch and attempt. -/
structure Journal where
  phase : Phase
  effectSha256 : String
  dispatchId : String
  receipt : String
  kind : String
  attemptId : String
deriving DecidableEq, Repr

/-- The keys of a journal; it has all of them and no other. -/
def journalKeys : List String :=
  ["schema_version", "phase", "effect_sha256", "dispatch_id", "receipt", "kind", "attempt_id"]

/-- What `_load_journal` makes of the document. -/
def parseJournal (raw : Obj) : Except ToolError Journal := do
  rejectUnknown raw journalKeys "effect_journal"
  if !isOne (field raw "schema_version") then
    .error (hostError "effect journal schema_version must be 1")
  let name ← requireStr (field raw "phase") "effect_journal.phase"
  let phase ← match phases.find? fun p => p.name = name with
    | some p => .ok p
    | none => .error (hostError "effect journal phase is unknown")
  let effectSha256 ← requireStr (field raw "effect_sha256") "effect_journal.effect_sha256"
  let dispatchId ← requireStr (field raw "dispatch_id") "effect_journal.dispatch_id"
  let receipt := strOrEmpty (field raw "receipt")
  let kind ← requireStr (field raw "kind") "effect_journal.kind"
  let attemptId ← requireStr (field raw "attempt_id") "effect_journal.attempt_id"
  return ⟨phase, effectSha256, dispatchId, receipt, kind, attemptId⟩

/-- The document that `_commit_journal` writes. -/
def Journal.fields (j : Journal) : Obj :=
  [("schema_version", .int 1), ("phase", .str j.phase.name), ("effect_sha256", .str j.effectSha256),
    ("dispatch_id", .str j.dispatchId), ("receipt", .str j.receipt), ("kind", .str j.kind),
    ("attempt_id", .str j.attemptId)]

/-- The document of a watch state, as fields. -/
def watchStateFields (p : Watch.Persisted) : Obj :=
  match p.toJson with
  | .obj fields => fields
  | _ => []

/-! ### Effects -/

/-- `WRITE_ACTIONS`. -/
def writeAction : Result → String
  | .wakeCoordinator => "comment_work_packet"
  | .resumeAdmittedWorker => "update_work_packet"
  | _ => ""

/-- `effect_content`. -/
def effectContent (w : WatchResult) : String :=
  s!"RESULT={w.result.name}\nCOORDINATOR_DECISION={w.coordinatorDecision}\n" ++
    s!"NOTIFICATION_KEY={w.notificationKey}\nWATCH_CLASS={w.watchClass.name}\n" ++
    s!"INTENT_REVISION={intStr w.intentRevision}\n" ++
    s!"SUBJECT={w.nextWatchState.identity.subjectVersion}\n"

/-- `owner_notice_effect`. -/
def ownerNoticeEffect (w : WatchResult) (branch : String) : Obj :=
  let subject := w.nextWatchState.identity.subjectVersion
  [("branch", .str branch), ("coordinator_decision", .str w.coordinatorDecision),
    ("intent_revision", .int w.intentRevision), ("kind", .str "owner_notice"),
    ("level", .str "INFO"), ("notification_key", .str w.notificationKey),
    ("subject_head", .str subject), ("subject_version", .str subject),
    ("target_repo", .str w.repository), ("watch_class", .str w.watchClass.name),
    ("watch_result", .str w.result.name), ("workstream", .str w.workstream)]

/-- The bound request, and what is proposed, of a write. -/
def boundRequest (facts : Facts) (w : WatchResult) (subject branch : String) : Obj :=
  [("target_repo", .str facts.packet.repository), ("workstream", .str facts.packet.workstream),
    ("intent_revision", .int facts.packet.intentRevision), ("subject_head", .str subject),
    ("requested_action", .str (writeAction w.result)), ("branch", .str branch),
    ("expected_status", .str facts.packet.status.name)]

/-- The mutation that a write proposes. -/
def proposedMutation (request : Request) (w : WatchResult) : Obj :=
  [("target", .obj [("kind", .str "issue"), ("id", .str request.effectTargetId)]),
    ("content", .str (effectContent w))]

/-- `concrete_effect`. -/
def concreteEffect (bound proposed : Obj) : Obj :=
  [("branch", field bound "branch"), ("expected_status", field bound "expected_status"),
    ("intent_revision", field bound "intent_revision"),
    ("mutation_content", field proposed "content"), ("mutation_target", field proposed "target"),
    ("requested_action", field bound "requested_action"),
    ("subject_head", field bound "subject_head"), ("target_repo", field bound "target_repo"),
    ("workstream", field bound "workstream")]

/-- `canonical_request_sha256`. -/
def canonicalRequestSha256 (effect : Obj) : String := sha256Hex (Json.dumps (.obj effect))

/-- What `_deliver_write` puts to the worker adapter. -/
def writePayload (request : Request) (facts : Facts) (bound proposed : Obj)
    (subject branch : String) : Obj :=
  let admission : Obj := [("decision", .str facts.admission.decision.name)] ++
    match facts.admission.denyClass with
    | none | some "" => []
    | some denyClass => [("deny_class", .str denyClass)]
  let verification : Obj := match request.verification with
    | none => []
    | some v => [("verification", .obj [("binding_assertion", .str v.bindingAssertion),
        ("dispatch_assertion", .str v.dispatchAssertion)])]
  [("bound_request", .obj bound),
    ("authoritative", .obj [("target_repo", .str facts.packet.repository),
      ("workstream", .str facts.packet.workstream),
      ("intent_revision", .int facts.packet.intentRevision),
      ("status", .str facts.packet.status.name), ("subject_head", .str subject),
      ("branch", .str branch)]),
    ("proposed_mutation", .obj proposed), ("resource", .obj [("result", .str facts.resource.name)]),
    ("admission", .obj admission), ("mutation", .obj [("outcome", .str "NOT_SENT")]),
    ("failure", .obj [("class", .str "NONE")])] ++ verification

/-! ### What a run answers -/

/-- What `_FileLock.acquire` answers. -/
inductive Lock where
  | acquired | held
deriving DecidableEq, Repr

/-- The result of a run, without the fields that are the same in every one. `effect` is not one of its
    fields: it says which directory and which effect digest `_execute_authorized` answered for. -/
structure Report where
  result : HostResult
  reason : String
  watchResult : Option Result
  actions : ℕ := 0
  wakes : ℕ := 0
  resumes : ℕ := 0
  notifications : ℕ := 0
  level : String := "NONE"
  delivery : String := "NONE"
  lock : Lock := .acquired
  nextCheck : Option String
  mutatesGithub : Bool := false
  effect : Option (String × String) := none
deriving DecidableEq, Repr

/-- A result of a run that delivered nothing. -/
def answer (result : HostResult) (reason : String) (w : WatchResult) : Report where
  result := result
  reason := reason
  watchResult := some w.result
  nextCheck := w.nextEligibleCheckAt

/-- The report of a denied authority. -/
def denied (reason : String) (w : WatchResult) : Report :=
  { answer .authorityDenied reason w with delivery := "DENIED" }

end DataRelay.Tools.Host
