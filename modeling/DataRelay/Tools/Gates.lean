import DataRelay.Tools.WatchState

/-! The gates of the planner: the four decisions that let something happen, and what the facts of a
    packet have to be for each of them. -/

namespace DataRelay.Tools.Coordinator
open Lib

/-- The decisions that open a gate. -/
def gates : List Decision :=
  [.mergeReady, .authorizePublication, .resumeWorker, .admitImplementation]

/-! ### What comes before the gates -/

/-- A worker is on record that is not done. -/
def workerActive (facts : Facts) : Bool :=
  facts.worker.present && facts.worker.status.any activeWorkerStatuses.contains

/-- A fact on record that stops the packet, whatever else is known. -/
inductive Stopped (facts : Facts) : Prop
  | ambiguous : facts.mutation.ambiguous = true → Stopped facts
  | failed : facts.failure.failureClass ≠ .none → Stopped facts
  | repeated : 2 ≤ facts.failure.identicalSemanticCount → Stopped facts
  | stale : workerActive facts = true →
      facts.worker.startingIntentRevision ≠ some facts.packet.intentRevision → Stopped facts
  | blocked : facts.resource = .block → Stopped facts
  | budget : facts.admission.decision = .deny → facts.admission.denyClass = some "HOST_BUDGET" →
      Stopped facts

/-- The packet may go on to its gates. -/
structure Clear (facts : Facts) : Prop where
  active : facts.packet.status = .active
  free : ¬ Stopped facts
  dependencies : dependenciesEligible facts.packet = "YES"

theorem dependenciesEligible_yes {packet : Packet} :
    dependenciesEligible packet = "YES" ↔
      ∃ deps, packet.dependencies = some deps ∧ ∀ d ∈ deps, d.status = .complete := by
  unfold dependenciesEligible
  cases packet.dependencies with
  | none => simp
  | some deps =>
    simp only [Option.some.injEq, exists_eq_left']
    split
    next h => simpa using h
    next h => exact iff_of_false (by decide) (by simpa using h)

/-! ### The gates -/

structure MergeReady (facts : Facts) : Prop where
  state : facts.pr.state = some .open
  sha : fullSha facts.pr.head = true
  gitHead : facts.git.head = facts.pr.head
  ci : facts.ci.state = .pass
  ciHead : facts.ci.subjectHead = facts.pr.head
  review : facts.review.state = .clear
  actionable : facts.review.actionableOpen = some false
  reviewHead : facts.review.subjectHead = facts.pr.head
  clean : facts.git.dirty = some false
  pushed : facts.git.unpushed = some false
  rollout : facts.orgRollout ≠ .pending
  audit : facts.packet.changeRisk ∈ highRisks → auditOk facts = true
  mergeable : facts.pr.mergeable = .yes

/-- The worker of the packet is at work. -/
def implementing (facts : Facts) : Bool := activeWorker facts && !facts.git.yieldedForAudit

/-- The implementation is on its way to an audit. -/
def audits (facts : Facts) : Bool :=
  facts.git.dirty = some true && !implementing facts || facts.git.yieldedForAudit

/-- One more worker may be launched. -/
structure Admissible (facts : Facts) : Prop where
  clean : facts.git.dirty = some false
  unpushed : facts.git.unpushed ≠ none
  resource : facts.resource = .pass ∨ facts.resource = .warn
  admission : facts.admission.decision = .allow

/-- The packet has no pull request and waits for nothing outside. -/
def Unpublished (facts : Facts) : Prop := facts.pr.exist = false ∧ facts.wait.external = false

/-- What the facts have to be for each gate. -/
inductive Opens (facts : Facts) : Decision → Prop
  | merge : facts.pr.exist = true → MergeReady facts → Opens facts .mergeReady
  | authorize : Unpublished facts → audits facts = true → auditOk facts = true →
      Opens facts .authorizePublication
  | resume : Unpublished facts → audits facts = false → implementing facts = true →
      facts.worker.progressEvidence = true → Opens facts .resumeWorker
  | admission : Unpublished facts → audits facts = false → implementing facts = false →
      Admissible facts → Opens facts .admitImplementation

variable {facts : Facts}

theorem Opens.mem_gates {decision : Decision} (h : Opens facts decision) : decision ∈ gates := by
  cases h <;> decide

/-- Where the planner goes with a packet that is clear. -/
def pipeline (facts : Facts) : Plan :=
  if facts.pr.exist then prPipeline facts
  else if facts.wait.external then
    emit facts .waitExternal s!"waiting for {waitCondition facts}" none
  else implementationPath facts

/-- A plan is `goal` where the guard holds, and opens no gate elsewhere. -/
def Guarded (guard : Prop) (goal plan : Plan) : Prop :=
  (guard ∧ plan = goal) ∨ (¬ guard ∧ plan.decision ∉ gates)

/-- An early return of a decision that opens no gate, where the guard does not hold. -/
theorem Guarded.stop {guard c : Prop} [Decidable c] {decision : Decision} {reason : String}
    {subject : Option String} {goal plan : Plan} (hd : decision ∉ gates) (hc : c → ¬ guard)
    (hplan : ¬ c → Guarded guard goal plan) :
    Guarded guard goal (if c then emit facts decision reason subject else plan) := by
  by_cases h : c
  · rw [if_pos h]
    exact .inr ⟨hc h, hd⟩
  · rw [if_neg h]
    exact hplan h

/-- What a guarded plan decides at a gate. -/
theorem Guarded.decision {guard : Prop} {goal plan : Plan} (h : Guarded guard goal plan)
    {decision : Decision} (hd : decision ∈ gates) :
    plan.decision = decision ↔ guard ∧ goal.decision = decision := by
  rcases h with ⟨hg, rfl⟩ | ⟨hg, hn⟩
  · simp [hg]
  · simp only [hg, false_and, iff_false]
    rintro rfl
    exact hn hd

/-- The early returns of `plan`. -/
theorem planFacts_guarded (facts : Facts) :
    Guarded (Clear facts) (pipeline facts) (planFacts facts) := by
  have hstop {c : Prop} (h : c → Stopped facts) : c → ¬ Clear facts :=
    fun hc hclear => hclear.free (h hc)
  dsimp only [planFacts]
  refine .stop (by decide) (fun h hc => ?_) fun hcomplete => ?_
  · rw [hc.active] at h; cases h
  refine .stop (by decide) (fun h hc => ?_) fun hpaused => ?_
  · rw [hc.active] at h; cases h
  refine .stop (by decide) (fun h hc => ?_) fun hblocked => ?_
  · rw [hc.active] at h; cases h
  refine .stop (by decide) (hstop fun h => ?_) fun hambiguous => ?_
  · simp only [Bool.or_eq_true, decide_eq_true_eq] at h
    rcases h with h | h
    · exact .ambiguous h
    · exact .failed (by rw [h]; decide)
  refine .stop (by decide) (hstop fun h => ?_) fun hstale => ?_
  · simp only [Bool.and_eq_true, decide_eq_true_eq] at h
    exact .stale (by simpa [workerActive] using h.1) h.2
  refine .stop (by decide) (hstop fun h => ?_) fun hsemantic => ?_
  · simp only [Bool.or_eq_true, decide_eq_true_eq] at h
    rcases h with h | h
    · exact .failed (by rw [h]; decide)
    · exact .repeated h
  refine .stop (by decide) (hstop fun h => ?_) fun hhuman => ?_
  · simp only [Bool.or_eq_true, decide_eq_true_eq] at h
    rcases h with h | h <;> exact .failed (by rw [h]; decide)
  refine .stop (by decide) (hstop fun h => ?_) fun hresource => ?_
  · simp only [Bool.or_eq_true, Bool.and_eq_true, decide_eq_true_eq] at h
    rcases h with (h | h) | h
    · exact .blocked h
    · exact .failed (by rw [h]; decide)
    · exact .budget h.1 h.2
  -- the transient failure has two exits, and neither of them is a gate
  by_cases htransient : facts.failure.failureClass = .transient
  · rw [if_pos htransient]
    have hfailed : ¬ Clear facts := fun hc => hc.free (.failed (by rw [htransient]; decide))
    split
    · exact .inr ⟨hfailed, (by decide : Decision.waitExternal ∉ gates)⟩
    · exact .inr ⟨hfailed, (by decide : Decision.blockHuman ∉ gates)⟩
  rw [if_neg htransient]
  refine .stop (by decide) (fun h hc => h hc.dependencies) fun hdependencies => .inl ⟨?_, rfl⟩
  simp only [Bool.or_eq_true, Bool.and_eq_true, decide_eq_true_eq, not_or, not_and] at *
  refine ⟨?_, ?_, by simpa using hdependencies⟩
  · cases hs : facts.packet.status <;> simp_all
  · rintro (h | h | h | ⟨h, h'⟩ | h | ⟨h, h'⟩)
    · exact hambiguous.1 h
    · cases hclass : facts.failure.failureClass <;> simp_all
    · exact hsemantic.2 h
    · exact hstale (by simpa [workerActive] using h) h'
    · exact hresource.1.1 h
    · exact hresource.2 h h'

/-! ### When each gate opens -/

theorem ne_unknown_of_fullSha {s : String} (h : fullSha s = true) : s ≠ "UNKNOWN" := by
  rintro rfl
  exact absurd h (by decide)

def mergeReadyPlan (facts : Facts) : Plan :=
  emit facts .mergeReady "exact-head CI, review, audit, and mergeability gates are green"
    (some facts.pr.head)

theorem prPipeline_guarded (facts : Facts) :
    Guarded (MergeReady facts) (mergeReadyPlan facts) (prPipeline facts) := by
  dsimp only [prPipeline]
  refine .stop (by decide) (fun h hm => h hm.state) fun hstate => ?_
  refine .stop (by decide) (fun h hm => ?_) fun htree => ?_
  · simp [hm.gitHead, hm.sha, ne_unknown_of_fullSha hm.sha] at h
  refine .stop (by decide) (fun h hm => ?_) fun hfail => ?_
  · simp [hm.ci] at h
  refine .stop (by decide) (fun h hm => ?_) fun hci => ?_
  · simp [hm.ci, hm.ciHead] at h
  refine .stop (by decide) (fun h hm => ?_) fun hreview => ?_
  · simp [hm.review, hm.actionable, hm.reviewHead] at h
  refine .stop (by decide) (fun h hm => h hm.clean) fun hdirty => ?_
  refine .stop (by decide) (fun h hm => h hm.pushed) fun hunpushed => ?_
  refine .stop (by decide) (fun h hm => hm.rollout h) fun hrollout => ?_
  refine .stop (by decide) (fun h hm => ?_) fun haudit => ?_
  · simp only [Bool.and_eq_true, List.contains_iff_mem, Bool.not_eq_true'] at h
    rw [hm.audit h.1] at h
    cases h.2
  refine .stop (by decide) (fun h hm => h hm.mergeable) fun hmergeable => .inl ⟨?_, rfl⟩
  simp only [Bool.not_eq_true', Bool.not_eq_false, Bool.or_eq_true, Bool.and_eq_true,
    decide_eq_true_eq, decide_not, not_or, not_and, not_not, decide_eq_false_iff_not,
    List.contains_iff_mem] at *
  -- the tests passed on the way down are the conditions themselves
  exact {
    state := hstate
    sha := htree.2
    gitHead := htree.1.2
    ci := hci.1
    ciHead := hci.2
    review := hreview.1.1.2
    actionable := hreview.1.1.1
    reviewHead := hreview.1.2
    clean := hdirty
    pushed := hunpushed
    rollout := hrollout
    audit := haudit
    mergeable := hmergeable }

theorem auditOrAuthorize_guarded (facts : Facts) :
    Guarded (auditOk facts = true)
      (emit facts .authorizePublication
        "coordinator audit PASS matches the current intent revision" none)
      (auditOrAuthorize facts) := by
  dsimp only [auditOrAuthorize]
  refine .stop (by decide) (fun h hok => ?_) fun hfail => ?_
  · simp [auditOk, h] at hok
  by_cases hok : facts.publication.coordinatorAudit = .pass ∧
      facts.publication.authorizedIntentRevision = some facts.packet.intentRevision
  · rw [if_pos hok]
    exact .inl ⟨by simpa [auditOk] using hok, rfl⟩
  · rw [if_neg hok]
    have hno : ¬ auditOk facts = true := by simpa [auditOk] using hok
    split
    · exact .inr ⟨hno, (by decide : Decision.auditDirtyTree ∉ gates)⟩
    · exact .inr ⟨hno, (by decide : Decision.auditDirtyTree ∉ gates)⟩

theorem implementationPath_audits (h : audits facts = true) :
    implementationPath facts = auditOrAuthorize facts := by
  simp only [audits, implementing, Bool.or_eq_true, Bool.and_eq_true, decide_eq_true_eq] at h
  dsimp only [implementationPath]
  rcases h with ⟨hdirty, hi⟩ | hyielded
  · rw [if_pos (by simp [hdirty, hi])]
  · rw [if_pos hyielded, ite_self]

theorem implementationPath_implementing (ha : audits facts = false)
    (hi : implementing facts = true) :
    Guarded (facts.worker.progressEvidence = true)
      (emit facts .resumeWorker
        "active worker matches the packet intent revision and has machine-observable progress evidence"
        none)
      (implementationPath facts) := by
  simp only [audits, hi, Bool.not_true, Bool.and_false, Bool.false_or] at ha
  have hactive : activeWorker facts = true := by simpa [implementing, ha] using hi
  dsimp only [implementationPath]
  rw [ha, hactive, if_neg (by simp), if_neg (by simp), if_pos (by simp)]
  by_cases hprogress : facts.worker.progressEvidence = true
  · rw [if_pos hprogress]
    exact .inl ⟨hprogress, rfl⟩
  · rw [if_neg hprogress]
    exact .inr ⟨hprogress, (by decide : Decision.waitExternal ∉ gates)⟩

theorem implementationPath_idle (ha : audits facts = false) (hi : implementing facts = false) :
    Guarded (Admissible facts)
      (emit facts .admitImplementation
        "ACTIVE packet is dependency-eligible and resource/admission facts allow one worker" none)
      (implementationPath facts) := by
  have hno : facts.git.dirty ≠ some true ∧ facts.git.yieldedForAudit = false := by
    simpa [audits, hi] using ha
  dsimp only [implementationPath]
  rw [← implementing, hi, if_neg (by simp [hno.1]), if_neg (by simp [hno.2]), if_neg (by simp)]
  refine .stop (by decide) (fun h hadm => ?_) fun hknown => ?_
  · simp [hadm.clean, hadm.unpushed] at h
  simp only [Bool.or_eq_true, decide_eq_true_eq, not_or] at hknown
  by_cases hallow : facts.git.dirty = some false ∧
      (facts.resource = .pass ∨ facts.resource = .warn) ∧ facts.admission.decision = .allow
  · rw [if_pos (by simpa [and_assoc] using hallow)]
    exact .inl ⟨⟨hallow.1, hknown.2, hallow.2.1, hallow.2.2⟩, rfl⟩
  · rw [if_neg (by simpa [and_assoc] using hallow)]
    have hclosed : ¬ Admissible facts := fun h => hallow ⟨h.clean, h.resource, h.admission⟩
    split
    · exact .inr ⟨hclosed, (by decide : Decision.waitExternal ∉ gates)⟩
    · exact .inr ⟨hclosed, (by decide : Decision.waitExternal ∉ gates)⟩

/-- The pipeline of a clear packet opens a gate when the facts are what it needs. -/
theorem pipeline_decision {decision : Decision} (hd : decision ∈ gates) :
    (pipeline facts).decision = decision ↔ Opens facts decision := by
  unfold pipeline
  -- the four ways exclude one another: published, auditing, implementing, idle
  by_cases hpr : facts.pr.exist = true
  · rw [if_pos hpr, (prPipeline_guarded facts).decision hd]
    constructor
    · rintro ⟨hm, rfl⟩
      exact .merge hpr hm
    · rintro (⟨-, hm⟩ | ⟨⟨h, -⟩, -⟩ | ⟨⟨h, -⟩, -⟩ | ⟨⟨h, -⟩, -⟩)
      · exact ⟨hm, rfl⟩
      all_goals rw [hpr] at h; cases h
  rw [if_neg hpr]
  by_cases hwait : facts.wait.external = true
  · -- waiting for something external opens nothing
    rw [if_pos hwait]
    refine iff_of_false ?_ ?_
    · rintro rfl
      exact absurd hd (by decide : Decision.waitExternal ∉ gates)
    · rintro (⟨h, -⟩ | ⟨⟨-, h⟩, -⟩ | ⟨⟨-, h⟩, -⟩ | ⟨⟨-, h⟩, -⟩)
      · exact hpr h
      all_goals rw [hwait] at h; cases h
  rw [if_neg hwait]
  have hun : Unpublished facts := ⟨by simpa using hpr, by simpa using hwait⟩
  by_cases ha : audits facts = true
  · rw [implementationPath_audits ha, (auditOrAuthorize_guarded facts).decision hd]
    constructor
    · rintro ⟨hok, rfl⟩
      exact .authorize hun ha hok
    · rintro (⟨h, -⟩ | ⟨-, -, hok⟩ | ⟨-, h, -⟩ | ⟨-, h, -⟩)
      · exact absurd h hpr
      · exact ⟨hok, rfl⟩
      all_goals rw [ha] at h; cases h
  rw [Bool.not_eq_true] at ha
  by_cases hi : implementing facts = true
  · rw [(implementationPath_implementing ha hi).decision hd]
    constructor
    · rintro ⟨hp, rfl⟩
      exact .resume hun ha hi hp
    · rintro (⟨h, -⟩ | ⟨-, h, -⟩ | ⟨-, -, -, hp⟩ | ⟨-, -, h, -⟩)
      · exact absurd h hpr
      · rw [ha] at h; cases h
      · exact ⟨hp, rfl⟩
      · rw [hi] at h; cases h
  · rw [Bool.not_eq_true] at hi
    rw [(implementationPath_idle ha hi).decision hd]
    constructor
    · rintro ⟨hadm, rfl⟩
      exact .admission hun ha hi hadm
    · rintro (⟨h, -⟩ | ⟨-, h, -⟩ | ⟨-, -, h, -⟩ | ⟨-, -, -, hadm⟩)
      · exact absurd h hpr
      · rw [ha] at h; cases h
      · rw [hi] at h; cases h
      · exact ⟨hadm, rfl⟩

/-- The planner opens a gate for a clear packet whose facts are what the gate needs, and for no
    other. -/
theorem planFacts_decision {decision : Decision} (hd : decision ∈ gates) :
    (planFacts facts).decision = decision ↔ Clear facts ∧ Opens facts decision := by
  rw [(planFacts_guarded facts).decision hd, pipeline_decision hd]

theorem plan_ok {payload : Obj} {p : Plan} :
    plan payload = .ok p ↔ ∃ facts, normalizeFacts payload = .ok facts ∧ planFacts facts = p := by
  unfold plan
  cases normalizeFacts payload with
  | error e => simp [Except.map]
  | ok facts => simp [Except.map]

/-! ### The sections of a document -/

/-- A section of the document, as its parser reads it. -/
def parsed {α : Type} (data : Obj) (key : String) (parse : Option Obj → Except ToolError α) :
    Except ToolError α := optionalMapping data key >>= parse

theorem section_ok {α β : Type} {data : Obj} {key : String}
    {parse : Option Obj → Except ToolError α} {f : α → Except ToolError β} {b : β} :
    (optionalMapping data key >>= fun raw => parse raw >>= f) = .ok b ↔
      ∃ a, parsed data key parse = .ok a ∧ f a = .ok b := by
  rw [parsed, ← bind_ok, bind_assoc]

/-- What is parsed of a section depends on nothing else in the document. -/
theorem parsed_congr {α : Type} {data data' : Obj} {key : String}
    (h : (Json.obj data').get? key = (Json.obj data).get? key)
    (parse : Option Obj → Except ToolError α) : parsed data' key parse = parsed data key parse := by
  unfold parsed optionalMapping has field
  rw [h]

/-- Every part of the facts is what its section of the document says. -/
structure Sections (data : Obj) (facts : Facts) : Prop where
  packet : parsePacket (field data "packet") = .ok facts.packet
  worker : parsed data "worker" parseWorker = .ok facts.worker
  git : parsed data "git" parseGit = .ok facts.git
  resource : parsed data "resource" parseResource = .ok facts.resource
  admission : parsed data "admission" parseAdmission = .ok facts.admission
  mutation : parsed data "mutation" parseMutation = .ok facts.mutation
  failure : parsed data "failure" parseFailure = .ok facts.failure
  publication : parsed data "publication" parsePublication = .ok facts.publication
  pr : parsed data "pr" parsePr = .ok facts.pr
  ci : parsed data "ci" parseCi = .ok facts.ci
  review : parsed data "review" parseReview = .ok facts.review
  wait : parsed data "wait" parseWait = .ok facts.wait
  gates : parsed data "gates" parseGates = .ok facts.orgRollout

theorem normalizeFacts_sections {data : Obj} (h : normalizeFacts data = .ok facts) :
    Sections data facts := by
  unfold normalizeFacts at h
  obtain ⟨-, -, h⟩ := bind_ok.mp h
  obtain ⟨-, -, h⟩ := bind_ok.mp h
  obtain ⟨-, h⟩ := check_ok.mp h
  obtain ⟨packet, hpacket, h⟩ := bind_ok.mp h
  obtain ⟨worker, hworker, h⟩ := section_ok.mp h
  obtain ⟨git, hgit, h⟩ := section_ok.mp h
  obtain ⟨resource, hresource, h⟩ := section_ok.mp h
  obtain ⟨admission, hadmission, h⟩ := section_ok.mp h
  obtain ⟨mutation, hmutation, h⟩ := section_ok.mp h
  obtain ⟨failure, hfailure, h⟩ := section_ok.mp h
  obtain ⟨publication, hpublication, h⟩ := section_ok.mp h
  obtain ⟨pr, hpr, h⟩ := section_ok.mp h
  obtain ⟨ci, hci, h⟩ := section_ok.mp h
  obtain ⟨review, hreview, h⟩ := section_ok.mp h
  obtain ⟨wait, hwait, h⟩ := section_ok.mp h
  obtain ⟨gates, hgates, h⟩ := section_ok.mp h
  obtain ⟨previous, hprevious, h⟩ := section_ok.mp h
  obtain rfl := Except.ok.inj h
  exact ⟨hpacket, hworker, hgit, hresource, hadmission, hmutation, hfailure, hpublication, hpr, hci,
    hreview, hwait, hgates⟩

end DataRelay.Tools.Coordinator
