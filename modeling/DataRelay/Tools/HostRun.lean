import DataRelay.Tools.Dispatch
import DataRelay.Tools.Host

/-! `run_once`, call by call: any number of runs over the watch directories and the dispatch markers of
    one host.

    What a run gets from outside (the facts it collects, the gates of the worker adapter, whether
    delivery is set up, the outcome of a send) is a call with any answer; so is an error of the system
    where the source makes a system call. -/

namespace DataRelay.Tools.Host
open Lib
open Watch (WatchResult Result)
open Coordinator (Facts)

/-! ### The state of a host -/

/-- The mutable files of a watch directory. -/
inductive StateFile where
  | watchState | ledger | journal
deriving DecidableEq, Repr

/-- The file, as the errors name it. -/
def StateFile.label : StateFile → String
  | .watchState => "watch_state"
  | .ledger => "ledger"
  | .journal => "effect_journal"

/-- `canonical_state_paths`. -/
def StateFile.fileName : StateFile → String
  | .watchState => "watch-state.json"
  | .ledger => "ledger.json"
  | .journal => "effect-journal.json"

/-- What is in a state file: a document, or the front part of one. -/
inductive Stored where
  | doc (v : Json)
  | torn

/-- What `send_effect` returns. -/
structure Execution where
  outcome : String
  receipt : String
  level : String
deriving DecidableEq, Repr

/-- What `evaluate` of the worker adapter decides, when it raises no `AdapterFactsError`. -/
structure WriteDecision where
  result : String
  authorizesWrite : Bool
  reason : String
deriving DecidableEq, Repr

/-- What an effect is sent for. -/
structure SendFor where
  dir : String
  dispatchId : String
  attemptId : String
deriving DecidableEq, Repr

/-- One call of `send_effect`, with the process that made it and what it was made for. -/
structure Sent where
  pid : ℕ
  target : SendFor
  kind : Result
  effect : Obj
  reply : Except Failure Execution

/-- The effects that were sent stand newest first. -/
structure Shared where
  markers : Dispatch.Markers
  locks : String → Option ℕ
  files : String → StateFile → Option Stored
  attempts : List String
  sent : List Sent

/-! ### Calls -/

/-- The calls of the host to what is outside it: dispatch markers, files, locks, environment and
    senders. -/
inductive Call where
  | dispatch (c : Dispatch.Call)
  | stateRoot
  | collect (request : Request)
  | mkdir (dir : String)
  | confine (dir : String)
  | acquire (dir : String)
  | release (dir : String)
  | read (dir : String) (file : StateFile)
  /-- The journal is read for an effect, whose digest is not part of the system call. -/
  | readJournal (dir effectSha256 : String)
  | replace (dir : String) (file : StateFile) (payload : Obj)
  | telegramConfigured
  | githubConfigured
  | verifyDispatch (assertion : String)
  | authorize (verification : Verification) (effect : Obj)
  | evaluateWrite (payload : Obj)
  | tokenHex
  /-- `send_effect` gets the kind and the effect. -/
  | send (target : SendFor) (kind : Result) (effect : Obj)

/-- What each call is answered. -/
abbrev Call.Answer : Call → Type
  | .dispatch c => c.Answer
  | .stateRoot => Option String
  | .collect _ => Except Failure (Json × Json)
  | .acquire _ => Except Failure Bool
  | .read .. | .readJournal .. => Except Failure (Option Json)
  | .telegramConfigured | .githubConfigured => Bool
  | .verifyDispatch _ => Except Failure Json
  | .authorize .. => Except Failure String
  | .evaluateWrite _ => Except Failure (Except String WriteDecision)
  | .tokenHex => String
  | .send .. => Except Failure Execution
  | _ => Except Failure Unit

/-- What a replacement leaves in place; a short write is not noticed. -/
inductive Kept where
  | old | whole | torn
deriving DecidableEq, Repr

/-- What the outside decides at a call. -/
inductive Choice where
  | dispatch (x : Dispatch.Choice)
  | go
  | fail (e : Failure)
  | flag (b : Bool)
  | root (path : Option String)
  | facts (facts branch : Json)
  | doc (v : Json)
  | text (s : String)
  | decision (d : Except String WriteDecision)
  | reply (x : Execution)
  | replace (kept : Kept) (raised : Option Failure)

/-- `secrets.token_hex(16)`. -/
def isTokenHex (s : String) : Bool := s.toList.length = 32 && s.toList.all isLowerHex

/-- The lock of a directory has another holder. -/
def setLock (s : Shared) (dir : String) (holder : Option ℕ) : Shared :=
  { s with locks := Function.update s.locks dir holder }

/-- A file of a directory has been replaced. -/
def setFile (s : Shared) (dir : String) (file : StateFile) (stored : Stored) : Shared :=
  { s with files := Function.update s.files dir (Function.update (s.files dir) file (some stored)) }

/-- One more effect has gone out. -/
def addSent (s : Shared) (x : Sent) : Shared := { s with sent := x :: s.sent }

/-- What reading a state file gives. -/
def readFile (s : Shared) (dir : String) (file : StateFile) : Except Failure (Option Json) :=
  match s.files dir file with
  | none => .ok none
  | some (.doc v) => .ok (some v)
  | some .torn => .error (.tool (hostError s!"{file.label} is unreadable"))

/-- A lock is given up by the process that holds it. -/
def unlock (pid : ℕ) (s : Shared) (dir : String) : Shared :=
  if s.locks dir = some pid then setLock s dir none else s

/-- One call of the process `pid`. The file lock of a directory is exclusive, a replacement is atomic,
    and an attempt id is one that was never given before. -/
def exec (pid : ℕ) (s : Shared) : (c : Call) → Choice → Option (c.Answer × Shared)
  | .dispatch c, .dispatch x =>
    (Dispatch.exec pid s.markers c x).map fun (r, markers) => (r, { s with markers })
  | .stateRoot, .root path => some (path, s)
  | .collect _, .facts facts branch => some (.ok (facts, branch), s)
  | .collect _, .fail e => some (.error e, s)
  | .mkdir _, .go | .confine _, .go => some (.ok (), s)
  | .mkdir _, .fail e | .confine _, .fail e => some (.error e, s)
  | .acquire dir, .go =>
    match s.locks dir with
    | some _ => some (.ok false, s)
    | none => some (.ok true, setLock s dir (some pid))
  | .acquire _, .fail e => some (.error e, s)
  | .release dir, .go => some (.ok (), unlock pid s dir)
  | .release dir, .fail e => some (.error e, unlock pid s dir)
  | .read dir file, .go => some (readFile s dir file, s)
  | .read _ _, .fail e => some (.error e, s)
  | .readJournal dir _, .go => some (readFile s dir .journal, s)
  | .readJournal _ _, .fail e => some (.error e, s)
  | .replace dir file payload, .replace kept raised =>
    let answer : Except Failure Unit := match raised with
      | none => .ok ()
      | some e => .error e
    match kept with
    | .old => if raised = none then none else some (answer, s)
    | .whole => some (answer, setFile s dir file (.doc (.obj payload)))
    | .torn => some (answer, setFile s dir file .torn)
  | .telegramConfigured, .flag b | .githubConfigured, .flag b => some (b, s)
  | .verifyDispatch _, .doc v => some (.ok v, s)
  | .verifyDispatch _, .fail e => some (.error e, s)
  | .authorize _ _, .text gate => some (.ok gate, s)
  | .authorize _ _, .fail e => some (.error e, s)
  | .evaluateWrite _, .decision d => some (.ok d, s)
  | .evaluateWrite _, .fail e => some (.error e, s)
  | .tokenHex, .text a =>
    if isTokenHex a ∧ a ∉ s.attempts then some (a, { s with attempts := a :: s.attempts }) else none
  | .send target kind effect, .reply x =>
    some (.ok x, addSent s ⟨pid, target, kind, effect, .ok x⟩)
  | .send target kind effect, .fail e =>
    some (.error e, addSent s ⟨pid, target, kind, effect, .error e⟩)
  | _, _ => none

/-- A process that ends gives up its locks. -/
def crash (pid : ℕ) (s : Shared) : Shared :=
  { s with
    markers := Dispatch.crash pid s.markers
    locks := fun dir => if s.locks dir = some pid then none else s.locks dir }

/-- What the calls do to the shared state. -/
def world : World Shared Call.Answer Choice := ⟨exec, crash⟩

/-- A program over these calls. -/
abbrev Program (α : Type) := Prog Call.Answer α

/-- A part of a run, which can raise. -/
abbrev Run (α : Type) := ExceptT Failure Program α

/-! ### Calls as parts of a run -/

/-- A step that reads no outside state and can raise. -/
def check {α : Type} (outcome : Except ToolError α) : Run α :=
  ExceptT.mk (.ret (outcome.mapError .tool))

/-- `resolve_host_state_root`. -/
def resolveHostStateRoot : Run (Option String) := ExceptT.lift (.call .stateRoot .ret)

/-- `collect_authoritative`. -/
def collectAuthoritative (request : Request) : Run (Json × Json) :=
  ExceptT.mk (.call (.collect request) .ret)

/-- `_mkdir_identity`. -/
def mkdirIdentity (dir : String) : Run Unit := ExceptT.mk (.call (.mkdir dir) .ret)

/-- `_confine_mutable_paths`. -/
def confineMutablePaths (dir : String) : Run Unit := ExceptT.mk (.call (.confine dir) .ret)

/-- `_FileLock.acquire`. -/
def acquire (dir : String) : Run Bool := ExceptT.mk (.call (.acquire dir) .ret)

/-- Whether Telegram has its token and chat. -/
def telegramConfigured : Run Bool := ExceptT.lift (.call .telegramConfigured .ret)

/-- Whether GitHub has its token. -/
def githubConfigured : Run Bool := ExceptT.lift (.call .githubConfigured .ret)

/-- `verify_signed_json` of the dispatch assertion. -/
def verifySignedJson (assertion : String) : Run Json :=
  ExceptT.mk (.call (.verifyDispatch assertion) .ret)

/-- `_authorize_concrete_effect` of the worker adapter, without a consumption. -/
def authorizeConcreteEffect (verification : Verification) (effect : Obj) : Run String :=
  ExceptT.mk (.call (.authorize verification effect) .ret)

/-- `evaluate` of the worker adapter. -/
def evaluateWrite (payload : Obj) : Run (Except String WriteDecision) :=
  ExceptT.mk (.call (.evaluateWrite payload) .ret)

/-- `secrets.token_hex`. -/
def tokenHex : Run String := ExceptT.lift (.call .tokenHex .ret)

/-- `send_effect`. -/
def sendEffect (target : SendFor) (kind : Result) (effect : Obj) : Run Execution :=
  ExceptT.mk (.call (.send target kind effect) .ret)

/-- An operation on the dispatch markers, call by call. -/
def dispatched {α : Type} (p : Dispatch.Program α) : Program α := p.lift Call.dispatch fun _ r => r

/-- `reserve_dispatch`, where what it raises ends the run. -/
def reserveDispatch (dispatchId effectSha256 attemptId : String) : Run Dispatch.Reply := do
  let reply ← ExceptT.lift (dispatched (Dispatch.reserveDispatch dispatchId effectSha256 attemptId))
  if reply = .raised then throw .other
  return reply

/-- `finalize_dispatch`, where what it raises ends the run. -/
def finalizeDispatch (dispatchId effectSha256 attemptId : String) : Run Dispatch.Reply := do
  let reply ← ExceptT.lift (dispatched (Dispatch.finalizeDispatch dispatchId effectSha256 attemptId))
  if reply = .raised then throw .other
  return reply

/-- `_read_json_object`, of a file that may not be there. -/
def readObject (file : StateFile) (read : Run (Option Json)) : Run (Option Obj) := do
  match ← read with
  | none => return none
  | some v =>
    let data ← check (requireMapping v file.label)
    check (rejectExecution (.obj data) file.label)
    return some data

/-- `_write_json`. -/
def writeJson (dir : String) (file : StateFile) (payload : Obj) : Run Unit := do
  check (rejectExecution (.obj payload) file.fileName)
  ExceptT.mk (.call (.replace dir file payload) .ret)

/-- `_load_watch_state`: a missing file is an empty state. -/
def loadWatchState (dir : String) : Run Obj := do
  return (← readObject .watchState (ExceptT.mk (.call (.read dir .watchState) .ret))).getD []

/-- `_ledger_entries`. -/
def ledgerEntries (dir : String) : Run (List LedgerEntry) := do
  match ← readObject .ledger (ExceptT.mk (.call (.read dir .ledger) .ret)) with
  | none => return []
  | some raw => check (parseLedger raw)

/-- `_load_journal`. -/
def loadJournal (dir effectSha256 : String) : Run (Option Journal) := do
  match ← readObject .journal (ExceptT.mk (.call (.readJournal dir effectSha256) .ret)) with
  | none => return none
  | some raw => return some (← check (parseJournal raw))

/-- `_commit_journal`. -/
def commitJournal (dir : String) (j : Journal) : Run Unit := writeJson dir .journal j.fields

/-- `_persist_watch`. -/
def persistWatch (dir : String) (w : WatchResult) : Run Unit :=
  writeJson dir .watchState (watchStateFields w.nextWatchState)

/-- `_persist_ledger`. -/
def persistLedger (dir : String) (entries : List LedgerEntry) : Run Unit := do
  if maxLedgerEntries < entries.length then
    throw (.tool (hostError "ledger exceeds the bounded action history"))
  writeJson dir .ledger (ledgerFields entries)

/-! ### The run -/

/-- `_dispatch_id`. -/
def dispatchIdOf (request : Request) : Run String := do
  match request.verification with
  | none => throw (.tool (hostError "trusted verification boundary is unavailable"))
  | some verification =>
    match ← verifySignedJson verification.dispatchAssertion with
    | .obj payload =>
      match field payload "dispatch_id" with
      | .str id =>
        if strip id = "" then throw (.tool (hostError "trusted dispatch id is missing"))
        return strip id
      | _ => throw (.tool (hostError "trusted dispatch id is missing"))
    | _ => throw (.tool (hostError "trusted dispatch id is missing"))

/-- The ledger has the key as an applied action. -/
def isApplied (key : String) (entry : LedgerEntry) : Bool :=
  entry.key = key && entry.outcome = "APPLIED"

/-- What `_record_applied` reports. -/
def deliveredReport (w : WatchResult) (receipt : String) : Report :=
  let notice := w.result = .notifyOwner
  { answer .delivered
      (if notice then "telegram delivery receipt is durable for one INFO owner notice"
        else s!"github delivery receipt {receipt} is durable for the typed action") w with
    actions := 1
    wakes := if w.result = .wakeCoordinator then 1 else 0
    resumes := if w.result = .resumeAdmittedWorker then 1 else 0
    notifications := if notice then 1 else 0
    level := if notice then "INFO" else "NONE"
    delivery := if notice then "VERIFIED" else "NONE"
    mutatesGithub := !notice }

/-- `_record_applied`. -/
def recordApplied (dir : String) (w : WatchResult) (entries : List LedgerEntry) (receipt : String) :
    Run Report := do
  if !entries.any (isApplied w.notificationKey) then
    persistLedger dir (entries ++ [⟨w.notificationKey, "APPLIED", w.result.name⟩])
  persistWatch dir w
  return deliveredReport w receipt

/-- The end of `_execute_authorized`, behind the durable receipt. -/
def finishDelivery (dir : String) (w : WatchResult) (entries : List LedgerEntry)
    (dispatchId digest attemptId receipt : String) : Run Report := do
  if (← finalizeDispatch dispatchId digest attemptId) ≠ .ok then
    return answer .reconcileAmbiguous
      "delivery receipt is durable but dispatch finalization is not confirmed" w
  recordApplied dir w entries receipt

/-- The delivery boundary of a typed action. -/
def isConfigured : Result → Run Bool
  | .notifyOwner => telegramConfigured
  | _ => githubConfigured

/-- Why nothing is sent where the sender is not configured. -/
def boundaryReason : Result → String
  | .notifyOwner => "telegram delivery boundary is unavailable; authorization is not delivery"
  | _ => "github delivery boundary is unavailable; authorization is not delivery"

/-- The part of `_execute_authorized` behind the journalled phase SENDING. -/
def sendOnce (dir : String) (w : WatchResult) (entries : List LedgerEntry) (effect : Obj)
    (base : Journal) : Run Report := do
  let execution ← sendEffect ⟨dir, base.dispatchId, base.attemptId⟩ w.result effect
  if execution.outcome ≠ "SUCCEEDED" ∨ execution.receipt = "" then
    commitJournal dir { base with phase := .ambiguous }
    persistLedger dir (entries ++ [⟨w.notificationKey, "AMBIGUOUS", w.result.name⟩])
    return answer .reconcileAmbiguous
      "effect send did not return a verifiable receipt; reconcile before any retry" w
  if w.result = .notifyOwner ∧ execution.level ≠ "INFO" then
    commitJournal dir { base with phase := .ambiguous }
    return answer .reconcileAmbiguous "owner notice receipt was not INFO" w
  commitJournal dir { base with phase := .receipt, receipt := execution.receipt }
  finishDelivery dir w entries base.dispatchId base.effectSha256 base.attemptId execution.receipt

/-- The part of `_execute_authorized` that reserves the dispatch and sends. -/
def reserveAndSend (dir : String) (w : WatchResult) (entries : List LedgerEntry) (effect : Obj)
    (base : Journal) : Run Report := do
  match ← reserveDispatch base.dispatchId base.effectSha256 base.attemptId with
  | .conflict => return denied "dispatch is reserved or consumed by another effect owner" w
  | .unavailable => return denied "dispatch reservation boundary is unavailable" w
  | .ownedConsumed =>
    return answer .reconcileAmbiguous
      "dispatch is consumed without a durable receipt for this attempt" w
  | _ =>
    commitJournal dir { base with phase := .sending }
    sendOnce dir w entries effect base

/-- The part of `_execute_authorized` for a journal that is empty, or holds the intent. -/
def executeIntent (dir : String) (w : WatchResult) (entries : List LedgerEntry) (effect : Obj)
    (digest dispatchId : String) (journal : Option Journal) : Run Report := do
  if !(← isConfigured w.result) then return denied (boundaryReason w.result) w
  match journal with
  | some j =>
    reserveAndSend dir w entries effect ⟨.intent, digest, dispatchId, "", w.result.name, j.attemptId⟩
  | none =>
    let attemptId ← tokenHex
    let base : Journal := ⟨.intent, digest, dispatchId, "", w.result.name, attemptId⟩
    commitJournal dir base
    reserveAndSend dir w entries effect base

/-- `_execute_authorized`. -/
def executeAuthorized (dir : String) (request : Request) (w : WatchResult)
    (entries : List LedgerEntry) (effect : Obj) : Run Report := do
  let digest := canonicalRequestSha256 effect
  let dispatchId ← dispatchIdOf request
  let journal ← loadJournal dir digest
  let report ← match journal with
    | none => executeIntent dir w entries effect digest dispatchId none
    | some j =>
      if j.phase = .sending ∨ j.phase = .ambiguous then
        pure (answer .reconcileAmbiguous
          "effect send outcome is ambiguous; reconcile before any retry" w)
      else if j.effectSha256 ≠ digest then do
        commitJournal dir { j with phase := .ambiguous, receipt := "", kind := w.result.name }
        pure (answer .reconcileAmbiguous "durable effect intent does not match this effect" w)
      else if j.phase = .receipt then
        finishDelivery dir w entries dispatchId digest j.attemptId j.receipt
      else executeIntent dir w entries effect digest dispatchId (some j)
  return { report with effect := some (dir, digest) }

/-- `_deliver_write`, and what `_finish_typed` makes of its decision. -/
def finishWrite (dir : String) (request : Request) (w : WatchResult) (facts : Facts)
    (branch : String) (entries : List LedgerEntry) : Run Report := do
  let subject := Coordinator.subjectVersion facts
  if !fullSha subject then return denied "typed action subject is not an exact Git head" w
  let bound := boundRequest facts w subject branch
  let proposed := proposedMutation request w
  match ← evaluateWrite (writePayload request facts bound proposed subject branch) with
  | .error reason => return denied reason w
  | .ok decision =>
    if decision.result = "APPLIED" then
      if decision.authorizesWrite then
        executeAuthorized dir request w entries (concreteEffect bound proposed)
      else return denied "worker adapter authorization did not bind a concrete effect" w
    else if decision.result = "NO_CHANGE" then
      persistWatch dir w
      return answer .dedup "trusted dispatch was already consumed for this typed action" w
    else if decision.result = "STALE_WORKER" then
      return answer .staleReconcile "authoritative packet no longer matches the typed action" w
    else if decision.result = "RESOURCE_BLOCKED" then
      return answer .resourceBlocked
        "resource or admission blocks the typed action and does not stop unrelated sessions" w
    else if decision.result = "RECONCILE_AMBIGUOUS" ∨ decision.result = "TRANSIENT_RETRYABLE" ∨
        decision.result = "FAILED_SEMANTIC" then
      persistLedger dir (entries ++ [⟨w.notificationKey, "AMBIGUOUS", w.result.name⟩])
      return answer .reconcileAmbiguous "typed action outcome is not retryable inside this run" w
    else
      return denied (if decision.reason = "" then "trusted dispatch denied the typed action"
        else decision.reason) w

/-- The owner notice of `_finish_typed`. -/
def finishNotice (dir : String) (request : Request) (verification : Verification)
    (w : WatchResult) (branch : String) (entries : List LedgerEntry) : Run Report := do
  let gate ← authorizeConcreteEffect verification (ownerNoticeEffect w request.branch)
  if gate = "REPLAY" then
    persistWatch dir w
    return { answer .dedup "trusted dispatch was already consumed for this owner notice" w with
      delivery := "DEDUP" }
  else if gate ≠ "ALLOW" then return denied gate w
  else executeAuthorized dir request w entries (ownerNoticeEffect w branch)

/-- `_finish_typed`. -/
def finishTyped (dir : String) (request : Request) (w : WatchResult) (facts : Facts)
    (branch : String) (entries : List LedgerEntry) : Run Report := do
  let prior := entries.filter fun entry => entry.key = w.notificationKey
  if prior.any fun entry => ambiguousOutcomes.contains entry.outcome then
    return answer .reconcileAmbiguous
      "prior typed action outcome is ambiguous; reconcile before any retry" w
  else if prior.any fun entry => entry.outcome = "APPLIED" then
    persistWatch dir w
    return answer .dedup "the same typed action was already applied" w
  else match request.verification with
    | none =>
      return answer .authorityDenied "trusted verification assertions are missing; caller-supplied permission or dispatch facts are not authority" w
    | some verification =>
      if request.branch ≠ branch then
        return answer .staleReconcile
          "requested branch does not match the authoritative branch" w
      else if w.result = .notifyOwner then
        finishNotice dir request verification w branch entries
      else finishWrite dir request w facts branch entries

/-- `_collect`. -/
def collect (request : Request) : Run (Obj × Facts × String) := do
  let (facts, branch) ← collectAuthoritative request
  let (raw, facts) ← check (acceptFacts facts request)
  return (raw, facts, pyStr branch)

/-- `_bind_canonical`. -/
def bindCanonical (request : Request) (root : String) (facts : Facts) : Run String := do
  let dir := canonicalWatchDir request facts
  mkdirIdentity dir
  check (checkPaths request root dir)
  confineMutablePaths dir
  return dir

/-- The part of `run_once` that runs under the lock. -/
def underLock (dir : String) (request : Request) (raw : Obj) (facts : Facts) (branch : String) :
    Run Report := do
  let state ← loadWatchState dir
  let w ← check (Watch.evaluate (.obj raw) (.obj state))
  if w.result = .wakeCoordinator ∨ w.result = .resumeAdmittedWorker ∨ w.result = .notifyOwner then
    if request.branch ≠ branch then
      return answer .staleReconcile "requested branch does not match the authoritative branch" w
    let (_, authoritative, authoritativeBranch) ← collect request
    match reconcile facts authoritative branch authoritativeBranch w.result with
    | some blocked => return answer blocked (reconcileReason blocked) w
    | none =>
      let entries ← ledgerEntries dir
      finishTyped dir request w authoritative authoritativeBranch entries
  else
    persistWatch dir w
    if w.result = .blockReconciliation then
      return answer .reconcileAmbiguous
        "watch reconciliation blocked the action and authorized no retry" w
    else return answer .noAction "watch result requires no typed external action" w

/-- What a run answers that finds the lock held. -/
def lockHeldReport : Report where
  result := .lockHeld
  reason := "watch host lock is already owned; this run yields without evaluating"
  watchResult := none
  lock := .held
  nextCheck := none

/-- `lock.release()` at the end of `try … finally`: an error of its own replaces the outcome. -/
def releasing (dir : String) (outcome : Except Failure Report) : Program (Except Failure Report) :=
  .call (.release dir) fun
    | .ok () => .ret outcome
    | .error e => .ret (.error e)

/-- `run_once`. -/
def runOnce (payload : Json) : Run Report := do
  let request ← check (requireMapping payload "request" >>= parseRequest)
  match ← resolveHostStateRoot with
  | none =>
    throw (.tool (.hostRequest
      "host state root is unavailable; caller-selected paths are not a state root"
      "STATE_ROOT_UNAVAILABLE"))
  | some root =>
    let (raw, facts, branch) ← collect request
    let dir ← bindCanonical request root facts
    if !(← acquire dir) then return lockHeldReport
    ExceptT.mk ((underLock dir request raw facts branch).run >>= releasing dir)

/-- Any number of runs on a host whose state directory is empty. -/
def machine : Machine (System Shared Call.Answer Json (Except Failure Report)) (Move Json Choice)
    Unit :=
  System.machine world (fun payload => (runOnce payload).run) fun s =>
    s = ⟨fun _ => none, fun _ => none, fun _ _ => none, [], []⟩

end DataRelay.Tools.Host
