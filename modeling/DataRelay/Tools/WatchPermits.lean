import DataRelay.Tools.Gates
import DataRelay.Tools.WatchProgress

/-! What a watch permits: a worker to be resumed, and a pull request to be merged. Either goes through
    the evaluator and then through the planner, and what the two of them check is true of the facts
    that were accepted. -/

namespace DataRelay.Tools.Watch
open Lib
open Coordinator (Facts Decision Plan)

/-! ### What a permission says -/

/-- The observation is from no earlier than the last one that the state accepted, if any. -/
def NotOlder (watch : WatchFacts) (state : State) : Prop :=
  observationBoundary state = "" ∨
    ∃ t t', parseTime watch.observedAt "watch.observed_at" = .ok t ∧
      parseTime (observationBoundary state) "watch_state.observation_boundary" = .ok t' ∧ t' ≤ t

/-- What is true of the facts, the watch and its state where a worker is resumed. -/
structure Resumable (facts : Facts) (watch : WatchFacts) (state : State) : Prop where
  active : facts.packet.status = .active
  mutation : facts.mutation.ambiguous = false ∧ facts.failure.failureClass ≠ .ambiguousMutation
  terminal : state.terminalState = .open
  watchClass : watch.watchClass = .workerProgressOrYield
  present : facts.worker.present = true
  status : ∃ status ∈ Coordinator.activeWorkerStatuses, facts.worker.status = some status
  progress : facts.worker.progressEvidence = true
  revision : facts.worker.startingIntentRevision = some facts.packet.intentRevision
  watchRevision : ∀ n, watch.intentRevision = some n → n = facts.packet.intentRevision
  stateRevision : ∀ i, state.identity = some i → i.intentRevision = facts.packet.intentRevision
  resource : facts.resource = .pass ∨ facts.resource = .warn
  admission : facts.admission.decision = .allow
  dependencies : ∃ deps, facts.packet.dependencies = some deps ∧ ∀ d ∈ deps, d.status = .complete
  notOlder : NotOlder watch state

/-- What is true of the facts where the coordinator is woken to merge. -/
structure Mergeable (facts : Facts) : Prop where
  head : ∃ head, fullSha head = true ∧ facts.git.head = head ∧ facts.pr.head = head ∧
    facts.ci.subjectHead = head ∧ facts.review.subjectHead = head
  ci : facts.ci.state = .pass
  review : facts.review.state = .clear ∧ facts.review.actionableOpen = some false
  clean : facts.git.dirty = some false
  pushed : facts.git.unpushed = some false
  rollout : facts.orgRollout ≠ .pending
  mergeable : facts.pr.mergeable = .yes
  resource : facts.resource ≠ .block
  audit : facts.packet.changeRisk = .high ∨ facts.packet.changeRisk = .critical →
    facts.publication.coordinatorAudit = .pass ∧
      facts.publication.authorizedIntentRevision = some facts.packet.intentRevision

variable {facts : Facts} {watch : WatchFacts} {state : State}

/-! ### From the answer to the decision -/

/-- A worker is resumed on a decision of the planner, in the scope of the watch, and where it is
    allowed once more; the coordinator is woken with the decision that was made. -/
structure Follows (facts : Facts) (watch : WatchFacts) (decision : Decision) (r : WatchResult) :
    Prop where
  resumes : r.result = .resumeAdmittedWorker →
    decision = .resumeWorker ∧ resumeInScope watch = true ∧ resumeAllowed facts = true
  wakes : r.result = .wakeCoordinator → r.coordinatorDecision = decision.name

/-- An answer that neither resumes nor wakes. -/
def Result.quiet : Result → Bool
  | .resumeAdmittedWorker | .wakeCoordinator => false
  | _ => true

theorem Follows.quiet {decision : Decision} {e : Emission} (hq : e.result.quiet = true) :
    Follows facts watch decision (emit facts watch state e) := by
  constructor
  · intro hr
    rw [show e.result = _ from hr] at hq
    cases hq
  · intro hr
    rw [show e.result = _ from hr] at hq
    cases hq

theorem mapDecision_follows {decision : Decision} {reason subject : String} {r : WatchResult}
    (h : mapDecision facts watch state decision reason subject = .ok r) :
    Follows facts watch decision r := by
  unfold mapDecision at h
  split at h
  · -- a finished packet closes the watch, and asks nobody for anything
    obtain rfl := Except.ok.inj h
    exact .quiet rfl
  cases decision with
  | noopComplete | reconcileAmbiguous =>
    obtain rfl := Except.ok.inj h
    exact .quiet rfl
  | blockHuman =>
    simp only at h
    split at h
    · obtain ⟨next, -, h⟩ := bind_ok.mp h
      obtain rfl := Except.ok.inj h
      exact .quiet rfl
    · obtain rfl := Except.ok.inj h
      exact .quiet rfl
  | resumeWorker =>
    simp only at h
    split at h
    · obtain rfl := Except.ok.inj h
      exact .quiet rfl
    next hscope =>
    split at h
    · obtain ⟨next, -, h⟩ := bind_ok.mp h
      obtain rfl := Except.ok.inj h
      exact .quiet rfl
    next hallowed =>
    split at h
    · obtain ⟨next, -, h⟩ := bind_ok.mp h
      obtain rfl := Except.ok.inj h
      exact .quiet rfl
    · obtain ⟨next, -, h⟩ := bind_ok.mp h
      obtain rfl := Except.ok.inj h
      refine ⟨fun _ => ⟨rfl, by simpa using hscope, by simpa using hallowed⟩, fun hr => ?_⟩
      cases hr
  | yieldResource | waitExternal | waitExactHeadCi | noopPaused =>
    obtain ⟨next, -, h⟩ := bind_ok.mp h
    obtain rfl := Except.ok.inj h
    exact .quiet rfl
  | _ =>
    simp only at h
    split at h
    · obtain ⟨next, -, h⟩ := bind_ok.mp h
      obtain rfl := Except.ok.inj h
      exact .quiet rfl
    · obtain ⟨next, -, h⟩ := bind_ok.mp h
      obtain rfl := Except.ok.inj h
      refine ⟨fun hr => ?_, fun _ => rfl⟩
      cases hr

theorem name_mergeReady {decision : Decision} (h : decision.name = Decision.mergeReady.name) :
    decision = .mergeReady := by
  cases decision <;> first | rfl | exact absurd h (by decide)

/-- What a permission went through before the planner: the watch is open, the observation is of its
    identity and not older, and nothing is ambiguous. -/
structure Admitted (facts : Facts) (watch : WatchFacts) (state : State) : Prop where
  terminal : state.terminalState = .open
  fresh : staleIdentity state facts watch = false
  notOlder : NotOlder watch state
  mutation : facts.mutation.ambiguous = false ∧ facts.failure.failureClass ≠ .ambiguousMutation

theorem notOlder_of_false (h : observationIsOlder watch state = .ok false) :
    NotOlder watch state := by
  unfold observationIsOlder at h
  split at h
  next hb => exact .inl hb
  next hb =>
    obtain ⟨t, ht, h⟩ := bind_ok.mp h
    obtain ⟨t', ht', h⟩ := bind_ok.mp h
    exact .inr ⟨t, t', ht, ht', by simpa using Except.ok.inj h⟩

/-- An answer that resumes or wakes is the mapped decision of the planner. -/
theorem evaluateParsed_permits {planner : Obj} {r : WatchResult}
    (h : evaluateParsed planner facts watch state = .ok r)
    (hr : r.result = .resumeAdmittedWorker ∨
      r.result = .wakeCoordinator ∧ r.coordinatorDecision = Decision.mergeReady.name) :
    Admitted facts watch state ∧
      ∃ plan, Coordinator.plan (bindTransientRetry planner facts state) = .ok plan ∧
        mapDecision facts watch state plan.decision plan.reason
          (Coordinator.subjectVersion facts) = .ok r := by
  unfold evaluateParsed at h
  obtain ⟨-, h⟩ := check_ok.mp h
  obtain ⟨-, -, h⟩ := bind_ok.mp h
  split at h
  next hclosed =>
    obtain rfl := Except.ok.inj h
    rcases hr with hr | ⟨hr, -⟩ <;> cases hr
  next hclosed =>
  split at h
  next hstale =>
    obtain rfl := Except.ok.inj h
    rcases hr with hr | ⟨hr, -⟩ <;> cases hr
  next hstale =>
  obtain ⟨older, holder, h⟩ := bind_ok.mp h
  cases older with
  | true =>
    obtain ⟨-, h⟩ := check_ok.mp h
    obtain rfl := Except.ok.inj h
    rcases hr with hr | ⟨hr, -⟩ <;> cases hr
  | false =>
    rw [if_neg (by decide)] at h
    split at h
    next hambiguous =>
      rcases hr with hr | ⟨hr, hm⟩
      · cases ((mapDecision_follows h).resumes hr).1
      · rw [(mapDecision_follows h).wakes hr] at hm
        exact absurd hm (by decide)
    next hambiguous =>
      obtain ⟨plan, hplan, h⟩ := bind_ok.mp h
      -- past the four exits: open, not stale, not older and not ambiguous
      have hopen : state.terminalState = .open := by
        cases ht : state.terminalState with
        | «open» => rfl
        | closed => exact absurd ht hclosed
      simp only [not_or, Bool.not_eq_true] at hambiguous
      exact ⟨⟨hopen, by simpa using hstale, notOlder_of_false holder, hambiguous⟩, plan, hplan, h⟩

/-! ### From the decision to the facts -/

theorem get?_setField_of_ne (data : Obj) (value : Json) {key k : String} (h : k ≠ key) :
    (Json.obj (setField data key value)).get? k = (Json.obj data).get? k := by
  unfold setField
  split
  next hhas =>
    clear hhas
    induction data with
    | nil => rfl
    | cons e es ih =>
      simp only [Json.get?, List.map_cons, List.find?_cons] at ih ⊢
      by_cases he : e.1 = key
      · simp only [he, if_true, h.symm, decide_false]
        exact ih
      · rw [if_neg he]
        split
        · rfl
        · exact ih
  · simp [Json.get?, List.find?_append, h.symm]

/-- A decision that opens a gate is made of the accepted facts: the retry count is bound only to a
    transient failure, which opens none. -/
theorem plan_bindTransientRetry {planner : Obj} {plan : Plan}
    (hf : Coordinator.normalizeFacts planner = .ok facts)
    (h : Coordinator.plan (bindTransientRetry planner facts state) = .ok plan)
    (hd : plan.decision ∈ Coordinator.gates) : plan = Coordinator.planFacts facts := by
  unfold bindTransientRetry at h
  split at h
  · rw [Coordinator.plan, hf] at h
    exact (Except.ok.inj h).symm
  next htransient =>
  obtain ⟨facts', hf', rfl⟩ := Coordinator.plan_ok.mp h
  exfalso
  have hfailure : facts'.failure = facts.failure := by
    have hs := (Coordinator.normalizeFacts_sections hf').failure
    rw [Coordinator.parsed_congr (get?_setField_of_ne _ _ (by decide)),
      (Coordinator.normalizeFacts_sections hf).failure] at hs
    exact (Except.ok.inj hs).symm
  obtain ⟨hclear, -⟩ := (Coordinator.planFacts_decision hd).mp rfl
  refine hclear.free (.failed ?_)
  rw [hfailure, not_not.mp htransient]
  decide

/-- What a permitted decision of the planner rests on. -/
theorem opens_of_permit {planner : Obj} {r : WatchResult}
    (hf : Coordinator.normalizeFacts planner = .ok facts)
    (h : evaluateParsed planner facts watch state = .ok r)
    (hr : r.result = .resumeAdmittedWorker ∨
      r.result = .wakeCoordinator ∧ r.coordinatorDecision = Decision.mergeReady.name) :
    Admitted facts watch state ∧ Coordinator.Clear facts ∧
      ((r.result = .resumeAdmittedWorker ∧ Coordinator.Opens facts .resumeWorker ∧
          resumeInScope watch = true ∧ resumeAllowed facts = true) ∨
        (r.result = .wakeCoordinator ∧ Coordinator.Opens facts .mergeReady)) := by
  obtain ⟨hadmitted, plan, hplan, hmapped⟩ := evaluateParsed_permits h hr
  have hfollows := mapDecision_follows hmapped
  refine ⟨hadmitted, ?_⟩
  rcases hr with hr | ⟨hr, hm⟩
  · obtain ⟨hd, hscope, hallowed⟩ := hfollows.resumes hr
    have hgate : plan.decision ∈ Coordinator.gates := by rw [hd]; decide
    -- the retry of a transient failure changes no plan that opens a gate
    rw [plan_bindTransientRetry hf hplan hgate] at hd
    obtain ⟨hclear, hopens⟩ := (Coordinator.planFacts_decision (by decide)).mp hd
    exact ⟨hclear, .inl ⟨hr, hopens, hscope, hallowed⟩⟩
  · have hd := name_mergeReady ((hfollows.wakes hr).symm.trans hm)
    have hgate : plan.decision ∈ Coordinator.gates := by rw [hd]; decide
    rw [plan_bindTransientRetry hf hplan hgate] at hd
    obtain ⟨hclear, hopens⟩ := (Coordinator.planFacts_decision (by decide)).mp hd
    exact ⟨hclear, .inr ⟨hr, hopens⟩⟩

theorem Admitted.revisions (h : Admitted facts watch state) :
    (∀ n, watch.intentRevision = some n → n = facts.packet.intentRevision) ∧
      ∀ i, state.identity = some i → i.intentRevision = facts.packet.intentRevision := by
  have hfresh := h.fresh
  simp only [staleIdentity, Bool.or_eq_false_iff] at hfresh
  obtain ⟨⟨hstate, hwatch⟩, -⟩ := hfresh
  constructor
  · intro n hn
    simpa [hn] using hwatch
  · intro i hi
    simpa [hi] using hstate

theorem resumable_of_opens (hadmitted : Admitted facts watch state)
    (hclear : Coordinator.Clear facts) (ho : Coordinator.Opens facts .resumeWorker)
    (hscope : resumeInScope watch = true) (hallowed : resumeAllowed facts = true) :
    Resumable facts watch state := by
  obtain - | - | ⟨-, -, hi, -⟩ | - := ho
  simp only [Coordinator.implementing, Coordinator.activeWorker, Bool.and_eq_true] at hi
  obtain ⟨⟨⟨-, hstatus⟩, -⟩, -⟩ := hi
  simp only [resumeAllowed, Bool.and_eq_true, Bool.or_eq_true, decide_eq_true_eq] at hallowed
  obtain ⟨⟨⟨⟨hpresent, hprogress⟩, hrevision⟩, hresource⟩, hadmission⟩ := hallowed
  obtain ⟨hwatch, hstate⟩ := hadmitted.revisions
  exact {
    active := hclear.active
    mutation := hadmitted.mutation
    terminal := hadmitted.terminal
    watchClass := by simpa [resumeInScope] using hscope
    present := hpresent
    status := by
      cases hs : facts.worker.status with
      | none => rw [hs] at hstatus; cases hstatus
      | some status =>
        rw [hs] at hstatus
        exact ⟨status, List.contains_iff_mem.mp hstatus, rfl⟩
    progress := hprogress
    revision := hrevision
    watchRevision := hwatch
    stateRevision := hstate
    resource := hresource
    admission := hadmission
    dependencies := Coordinator.dependenciesEligible_yes.mp hclear.dependencies
    notOlder := hadmitted.notOlder }

theorem mergeable_of_opens (hclear : Coordinator.Clear facts)
    (ho : Coordinator.Opens facts .mergeReady) : Mergeable facts := by
  obtain ⟨-, hm⟩ | - | - | - := ho
  exact {
    head := ⟨facts.pr.head, hm.sha, hm.gitHead, rfl, hm.ciHead, hm.reviewHead⟩
    ci := hm.ci
    review := ⟨hm.review, hm.actionable⟩
    clean := hm.clean
    pushed := hm.pushed
    rollout := hm.rollout
    mergeable := hm.mergeable
    resource := fun h => hclear.free (.blocked h)
    audit := fun h => by
      have hok := hm.audit (by simpa [Coordinator.highRisks] using h)
      simpa [Coordinator.auditOk] using hok }

/-- A worker is resumed, and the coordinator is woken to merge, only on facts that allow it. -/
theorem permissions_sound {factsPayload statePayload : Json} {r : WatchResult}
    (h : evaluate factsPayload statePayload = .ok r) :
    ∃ facts watch state, accepted factsPayload = some (facts, watch) ∧
      parseState statePayload = .ok state ∧
      (r.result = .resumeAdmittedWorker → Resumable facts watch state) ∧
      (r.result = .wakeCoordinator → r.coordinatorDecision = Decision.mergeReady.name →
        Mergeable facts) := by
  unfold evaluate at h
  obtain ⟨raw, hraw, h⟩ := bind_ok.mp h
  obtain ⟨-, -, h⟩ := bind_ok.mp h
  obtain ⟨-, -, h⟩ := bind_ok.mp h
  obtain ⟨-, h⟩ := check_ok.mp h
  obtain ⟨watch, hwatch, h⟩ := bind_ok.mp h
  obtain ⟨state, hstate, h⟩ := bind_ok.mp h
  obtain ⟨facts, hfacts, h⟩ := bind_ok.mp h
  refine ⟨facts, watch, state, ?_, hstate, fun hr => ?_, fun hr hm => ?_⟩
  · simp only [accepted, hraw, hwatch, hfacts]
  · obtain ⟨hadmitted, hclear, ⟨-, ho, hscope, hallowed⟩ | ⟨hr', -⟩⟩ :=
      opens_of_permit hfacts h (.inl hr)
    · exact resumable_of_opens hadmitted hclear ho hscope hallowed
    · cases hr.symm.trans hr'
  · obtain ⟨hadmitted, hclear, ⟨hr', -⟩ | ⟨-, ho⟩⟩ := opens_of_permit hfacts h (.inr ⟨hr, hm⟩)
    · cases hr.symm.trans hr'
    · exact mergeable_of_opens hclear ho

/-- A worker at work on its packet, under a watch of its progress. -/
def resumeFacts : Json :=
  .obj [
    ("packet", .obj [("repository", .str "o/r"), ("workstream", .str "w"),
      ("status", .str "ACTIVE"), ("intent_revision", .int 1), ("dependencies", .arr [])]),
    ("worker", .obj [("present", .bool true), ("status", .str "ACTIVE"),
      ("starting_intent_revision", .int 1), ("progress_evidence", .bool true)]),
    ("resource", .obj [("result", .str "PASS")]),
    ("admission", .obj [("decision", .str "ALLOW")]),
    ("watch", .obj [("watch_class", .str "worker_progress_or_yield"),
      ("observed_at", .str "2026-03-01T10:00:00Z")])]

/-- A pull request with everything green. -/
def mergeFacts : Json :=
  .obj [
    ("packet", .obj [("repository", .str "o/r"), ("workstream", .str "w"),
      ("status", .str "ACTIVE"), ("intent_revision", .int 1), ("dependencies", .arr [])]),
    ("git", .obj [("head", .str headA), ("dirty", .bool false), ("unpushed", .bool false)]),
    ("pr", .obj [("exists", .bool true), ("state", .str "OPEN"), ("head", .str headA),
      ("mergeable", .str "YES")]),
    ("ci", .obj [("state", .str "PASS"), ("subject_head", .str headA)]),
    ("review", .obj [("actionable_open", .bool false), ("state", .str "CLEAR"),
      ("subject_head", .str headA)]),
    ("watch", .obj [("watch_class", .str "exact_head_ci"),
      ("observed_at", .str "2026-03-01T10:00:00Z")])]

/-- What an observation an hour before left, without progress of the worker or a result of CI. -/
def waitingState (watchClass : WatchClass) (subject decision digest : String) : Persisted where
  identity := ⟨"o/r", "w", 1, watchClass, subject⟩
  lastObservationDigest := digest
  lastDecision := decision
  lastDecisionKey := "o/r|w|1|RECHECK_LATER|" ++ decision ++ "|" ++ subject
  lastTransitionAt := "2026-03-01T09:00:00Z"
  consecutiveTransientFailures := 0
  nextEligibleCheckAt := some "2026-03-01T09:05:00Z"
  terminalState := .open
  lastObservationAt := some "2026-03-01T09:00:00Z"

def workerState : Persisted :=
  waitingState .workerProgressOrYield "NONE" "WAIT_EXTERNAL"
    "7f919f40416df63ed5058a926ebc4d46137e9b9ffcc2672e693d8988e7535c70"

def ciState : Persisted :=
  waitingState .exactHeadCi headA "WAIT_EXACT_HEAD_CI"
    "b54de87777e25c53bb9bbc7183b7f267264806ced623b0692d99c67745e1c29b"

/-- Both permissions are given to a watch that has waited an hour. -/
theorem permissions_sound_sample :
    (∃ facts watch state, accepted resumeFacts = some (facts, watch) ∧
      parseState workerState.toJson = .ok state ∧ Resumable facts watch state) ∧
    ∃ facts watch state, accepted mergeFacts = some (facts, watch) ∧
      parseState ciState.toJson = .ok state ∧ Mergeable facts := by
  have hresume : ((evaluate resumeFacts workerState.toJson).toOption.map fun r => r.result) =
      some .resumeAdmittedWorker := by decide +kernel
  have hmerge : ((evaluate mergeFacts ciState.toJson).toOption.map fun r =>
      (r.result, r.coordinatorDecision)) = some (.wakeCoordinator, "MERGE_READY") := by
    decide +kernel
  obtain ⟨r, hr, hresult⟩ := map_toOption_eq_some hresume
  obtain ⟨r', hr', hresult'⟩ := map_toOption_eq_some hmerge
  obtain ⟨facts, watch, state, hf, hs, hresumes, -⟩ := permissions_sound hr
  obtain ⟨facts', watch', state', hf', hs', -, hmerges⟩ := permissions_sound hr'
  obtain ⟨hwake, hdecision⟩ := Prod.mk.inj hresult'
  exact ⟨⟨facts, watch, state, hf, hs, hresumes hresult⟩, facts', watch', state', hf', hs',
    hmerges hwake hdecision⟩

end DataRelay.Tools.Watch
