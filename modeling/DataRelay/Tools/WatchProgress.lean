import DataRelay.Lib.Trace
import DataRelay.Tools.WatchState

/-! Runs of the watch: `evaluate` over and over, each time from the state that the time before
    persisted. The state moves forward unless a delayed observation is about another subject or
    another revision than the open watch it reaches: such an observation closes the watch, and takes
    the time of the last observation back. -/

namespace DataRelay.Tools.Watch
open Lib
open Coordinator (Facts Decision)

/-! ### Observations -/

/-- The facts and the watch that a document gives, once they are accepted. -/
def accepted (factsPayload : Json) : Option (Facts × WatchFacts) :=
  match requireMapping factsPayload "facts" with
  | .error _ => none
  | .ok raw =>
    match Coordinator.normalizeFacts (raw.filter fun e => e.1 ≠ "watch"),
      parseWatch (field raw "watch") with
    | .ok facts, .ok watch => some (facts, watch)
    | _, _ => none

/-- When the observation of a document was made. -/
def observed (factsPayload : Json) : Option Instant :=
  (accepted factsPayload).bind fun a => (parseTime a.2.observedAt "watch.observed_at").toOption

/-- The last accepted observation of a state. -/
def lastAccepted (p : Persisted) : Option Instant :=
  (parseTime (observationBoundary p.view) "watch_state.observation_boundary").toOption

/-- The observation is from before the last one that the state accepted. -/
def Older (p : Persisted) (factsPayload : Json) : Prop :=
  ∃ t t', observed factsPayload = some t ∧ lastAccepted p = some t' ∧ t < t'

/-- The facts are about another revision or another subject than the state. -/
def OtherIdentity (p : Persisted) (factsPayload : Json) : Prop :=
  ∃ a, accepted factsPayload = some a ∧ staleIdentity p.view a.1 a.2 = true

/-- An open watch is given a delayed observation of something else. -/
def Misdirected (p : Persisted) (factsPayload : Json) : Prop :=
  p.terminalState = .open ∧ Older p factsPayload ∧ OtherIdentity p factsPayload

/-- The last accepted observation is not taken back. -/
def NotBefore (p p' : Persisted) : Prop :=
  ∀ t t', lastAccepted p = some t → lastAccepted p' = some t' → t ≤ t'

theorem NotBefore.of_eq {p p' : Persisted} (h : p' = p) : NotBefore p p' := by
  intro t t' ht ht'
  rw [h, ht] at ht'
  exact (Option.some.inj ht').le

/-! ### One run -/

theorem evaluate_ok {factsPayload statePayload : Json} {r : WatchResult}
    (h : evaluate factsPayload statePayload = .ok r) :
    ∃ facts watch state, accepted factsPayload = some (facts, watch) ∧
      parseState statePayload = .ok state ∧ Accepted facts watch state ∧
      checkIdentity state facts watch = .ok () ∧ Answered facts watch state r := by
  unfold evaluate at h
  obtain ⟨raw, hraw, h⟩ := bind_ok.mp h
  obtain ⟨-, -, h⟩ := bind_ok.mp h
  obtain ⟨-, -, h⟩ := bind_ok.mp h
  obtain ⟨-, h⟩ := check_ok.mp h
  obtain ⟨watch, hwatch, h⟩ := bind_ok.mp h
  obtain ⟨state, hstate, h⟩ := bind_ok.mp h
  obtain ⟨facts, hfacts, h⟩ := bind_ok.mp h
  obtain ⟨hid, hanswered⟩ := evaluateParsed_cases h
  refine ⟨facts, watch, state, ?_, hstate, ?_, hid, hanswered⟩
  · simp only [accepted, hraw, hwatch, hfacts]
  · obtain ⟨hrepo, hws⟩ := Coordinator.normalizeFacts_trimmed hfacts
    exact ⟨hrepo, hws, parseWatch_observed hwatch, fun i hi => parseState_identity hstate hi⟩

/-- Whatever a run persists is valid. -/
theorem evaluate_valid {factsPayload statePayload : Json} {r : WatchResult}
    (h : evaluate factsPayload statePayload = .ok r) : r.nextWatchState.Valid := by
  obtain ⟨facts, watch, state, -, -, ha, -, hanswered⟩ := evaluate_ok h
  exact hanswered.valid ha

theorem observationBoundary_view {p : Persisted} (hp : p.Valid) :
    observationBoundary p.view ≠ "" := orStr_ne hp.transition

/-- The age of an observation, where the run compares it. -/
theorem observationIsOlder_ok {p : Persisted} (hp : p.Valid) {watch : WatchFacts} {older : Bool}
    (h : observationIsOlder watch p.view = .ok older) :
    ∃ t t', parseTime watch.observedAt "watch.observed_at" = .ok t ∧ lastAccepted p = some t' ∧
      older = decide (t < t') := by
  unfold observationIsOlder at h
  rw [if_neg (observationBoundary_view hp)] at h
  obtain ⟨t, ht, h⟩ := bind_ok.mp h
  obtain ⟨t', ht', h⟩ := bind_ok.mp h
  exact ⟨t, t', ht, toOption_eq_some.mpr ht', (Except.ok.inj h).symm⟩

/-- A durable answer persists the state it was given. -/
theorem persist_durable {p : Persisted} (hp : p.Valid) (facts : Facts) (watch : WatchFacts)
    {e : Emission} (he : e.preserveDurable = true) (decision key : String) :
    persist facts watch p.view e decision key = p := by
  have hobs : (if p.lastObservationAt.getD "" = "" then none
      else some (p.lastObservationAt.getD "")) = p.lastObservationAt := by
    cases ho : p.lastObservationAt with
    | none => rfl
    | some s => exact if_neg fun hs => hp.observation (ho.trans (congrArg some hs))
  unfold persist
  rw [if_pos he]
  simp only [Persisted.view, Option.map_some, Option.getD_some, orStr_of_ne hp.digest,
    orStr_of_ne hp.decision, orStr_of_ne hp.key, orStr_of_ne hp.transition]
  exact congrArg (fun observation => { p with lastObservationAt := observation }) hobs

theorem emit_durable {p : Persisted} (hp : p.Valid) (facts : Facts) (watch : WatchFacts)
    {e : Emission} (he : e.preserveDurable = true) :
    (emit facts watch p.view e).nextWatchState = p := persist_durable hp facts watch he _ _

/-- Any other answer persists the time of its own observation. -/
theorem persist_observed (facts : Facts) {watch : WatchFacts} (hw : watch.observedAt ≠ "")
    (state : State) {e : Emission} (he : e.preserveDurable = false) (decision key : String) :
    (persist facts watch state e decision key).lastObservationAt = some watch.observedAt := by
  simp [persist, he, hw]

theorem lastAccepted_observed {p : Persisted} {s : String} (hs : s ≠ "")
    (h : p.lastObservationAt = some s) :
    lastAccepted p = (parseTime s "watch_state.observation_boundary").toOption := by
  rw [lastAccepted, observationBoundary, Persisted.view, h, Option.getD_some, orStr_of_ne hs]

/-- A state that a run accepts has a last accepted observation. -/
theorem lastAccepted_of_evaluate {p : Persisted} (hp : p.Valid) {factsPayload : Json}
    {r : WatchResult} (h : evaluate factsPayload p.toJson = .ok r) :
    ∃ t, lastAccepted p = some t := by
  obtain ⟨-, -, state, -, hstate, -⟩ := evaluate_ok h
  unfold parseState at hstate
  obtain ⟨data, hdata, h⟩ := bind_ok.mp hstate
  have hd := p.fields hdata
  iterate 2 obtain ⟨_, -, h⟩ := bind_ok.mp h
  obtain ⟨-, h⟩ := check_ok.mp h
  iterate 3 obtain ⟨_, -, h⟩ := bind_ok.mp h
  obtain ⟨transition, htransition, h⟩ := bind_ok.mp h
  obtain ⟨observation, hobservation, -⟩ := bind_ok.mp h
  cases ho : p.lastObservationAt with
  | none =>
    obtain ⟨t, ht⟩ := stateTime_parses hd.transition hp.transition htransition
    refine ⟨t, toOption_eq_some.mpr ?_⟩
    rw [observationBoundary, Persisted.view, ho]
    exact parseTime_label ht _
  | some s =>
    have hs : s ≠ "" := fun hs => hp.observation (ho.trans (congrArg some hs))
    obtain ⟨t, ht⟩ := stateTime_parses (hd.observation.trans (congrArg optStr ho)) hs hobservation
    refine ⟨t, ?_⟩
    rw [lastAccepted_observed hs ho, toOption_eq_some]
    exact parseTime_label ht _

/-! ### What one run does to the state -/

/-- The watch moves forward with one run: an older observation leaves the state as it is, the last
    accepted observation is not taken back, and a closed watch stays as it is. -/
structure Forward (p : Persisted) (factsPayload : Json) (p' : Persisted) : Prop where
  older : Older p factsPayload → p' = p
  notBefore : NotBefore p p'
  closed : p.terminalState = .closed → p' = p

theorem Forward.of_eq {p p' : Persisted} (h : p' = p) (factsPayload : Json) :
    Forward p factsPayload p' := ⟨fun _ => h, .of_eq h, fun _ => h⟩

variable {p : Persisted} {factsPayload : Json} {facts : Facts} {watch : WatchFacts}

/-- An open watch that persists the time of an observation which is not older moves forward. -/
theorem forward_of_observed (hf : accepted factsPayload = some (facts, watch))
    (hopen : p.terminalState = .open) {p' : Persisted} (hw : watch.observedAt ≠ "")
    (ho : p'.lastObservationAt = some watch.observedAt) (hold : ¬ Older p factsPayload) :
    Forward p factsPayload p' := by
  refine ⟨fun h => absurd h hold, ?_, fun hc => by rw [hopen] at hc; cases hc⟩
  intro t t' ht ht'
  rw [lastAccepted_observed hw ho, toOption_eq_some] at ht'
  by_contra hlt
  refine hold ⟨t', t, ?_, ht, not_le.mp hlt⟩
  rw [observed, hf, Option.bind_some, toOption_eq_some]
  exact parseTime_label ht' _

/-- Closing a stale watch does not leave it as it was. -/
theorem closeStale_terminal (facts : Facts) (watch : WatchFacts) (state : State)
    (subject reason : String) :
    (closeStale facts watch state subject reason).nextWatchState.terminalState = .closed := rfl

theorem closeStale_observed (facts : Facts) {watch : WatchFacts} (hw : watch.observedAt ≠ "")
    (state : State) (subject reason : String) :
    (closeStale facts watch state subject reason).nextWatchState.lastObservationAt =
      some watch.observedAt := persist_observed facts hw state rfl _ _

/-- One run moves the watch forward, unless its observation is misdirected. -/
theorem forward_iff (hp : p.Valid) {r : WatchResult}
    (h : evaluate factsPayload p.toJson = .ok r) :
    Forward p factsPayload r.nextWatchState ↔ ¬ Misdirected p factsPayload := by
  obtain ⟨facts, watch, state, hf, hstate, ha, -, hanswered⟩ := evaluate_ok h
  obtain rfl := parseState_toJson hp hstate
  -- by the exit taken: only the stale one can turn back
  cases hanswered with
  | closed hclosed =>
    refine iff_of_true (.of_eq (emit_durable hp facts watch rfl) _) ?_
    rintro ⟨hopen, -⟩
    cases hopen.symm.trans hclosed
  | stale reason hopen hstale =>
    constructor
    · -- closing an open state on an older observation is the step backwards
      rintro hforward ⟨-, holder, -⟩
      have hterminal := closeStale_terminal facts watch p.view
        (Coordinator.subjectVersion facts) reason
      rw [hforward.older holder, show p.terminalState = .open from hopen] at hterminal
      cases hterminal
    · intro hm
      exact forward_of_observed hf hopen ha.observed (closeStale_observed facts ha.observed ..)
        fun holder => hm ⟨hopen, holder, (facts, watch), hf, hstale⟩
  | older hopen hfresh =>
    refine iff_of_true (.of_eq (emit_durable hp facts watch rfl) _) ?_
    rintro ⟨-, -, a, hf', hstale⟩
    obtain rfl := Option.some.inj (hf.symm.trans hf')
    rw [hfresh] at hstale
    cases hstale
  | mapped decision e hopen hfresh holder _ _ _ hdurable =>
    obtain ⟨t, t', ht, ht', hlt⟩ := observationIsOlder_ok hp holder
    refine iff_of_true (forward_of_observed hf hopen ha.observed
      (persist_observed facts ha.observed _ hdurable _ _) ?_) ?_
    · rintro ⟨u, u', hu, hu', hlt'⟩
      rw [observed, hf, Option.bind_some, toOption_eq_some, ht] at hu
      obtain rfl := Except.ok.inj hu
      obtain rfl := Option.some.inj (ht'.symm.trans hu')
      simp [hlt'] at hlt
    · rintro ⟨-, -, a, hf', hstale⟩
      obtain rfl := Option.some.inj (hf.symm.trans hf')
      rw [hfresh] at hstale
      cases hstale

/-! ### Runs -/

/-- The watch as a machine: it starts in any state that some run persisted, and an accepted document
    takes it to the next one. -/
def machine : Machine Persisted Json WatchResult where
  init p := ∃ factsPayload statePayload r,
    evaluate factsPayload statePayload = .ok r ∧ r.nextWatchState = p
  step p factsPayload :=
    match evaluate factsPayload p.toJson with
    | .ok r => some (r.nextWatchState, r)
    | .error _ => none

theorem machine_step {p p' : Persisted} {factsPayload : Json} {r : WatchResult}
    (h : machine.step p factsPayload = some (p', r)) :
    evaluate factsPayload p.toJson = .ok r ∧ p' = r.nextWatchState := by
  simp only [machine] at h
  split at h
  next r' hr =>
    obtain ⟨rfl, rfl⟩ := Prod.mk.inj (Option.some.inj h)
    exact ⟨hr, rfl⟩
  · cases h

variable {tr : History Persisted Json WatchResult}

theorem run_valid {s : Persisted} (h : machine.Run tr s) : s.Valid := by
  cases h with
  | start hi =>
    obtain ⟨_, _, r, hr, rfl⟩ := hi
    exact evaluate_valid hr
  | step _ hs =>
    obtain ⟨hr, rfl⟩ := machine_step hs
    exact evaluate_valid hr

/-- From the state before `e` to the state after the later `e'`: the last accepted observation is not
    taken back, and a watch that was closed has not changed. -/
def Keeps (e' e : Entry Persisted Json WatchResult) : Prop :=
  NotBefore e.pre e'.post ∧ (e.pre.terminalState = .closed → e'.post = e.pre)

/-- Over the whole run, an older observation changes nothing, and every entry keeps what the entries
    before it reached. -/
def MovesForward (tr : History Persisted Json WatchResult) : Prop :=
  (∀ e ∈ tr, Older e.pre e.act → e.post = e.pre) ∧ (∀ e ∈ tr, Keeps e e) ∧ tr.Pairwise Keeps

/-- What was kept up to the state before an entry that moves forward is kept after it. -/
theorem Keeps.step {last e e' : Entry Persisted Json WatchResult} {t : Instant}
    (h : Keeps last e) (hpre : e'.pre = last.post) (ht : lastAccepted e'.pre = some t)
    (hf : Forward e'.pre e'.act e'.post) : Keeps e' e := by
  refine ⟨fun u u' hu hu' => ?_, fun hc => ?_⟩
  · exact (h.1 u t hu (hpre ▸ ht)).trans (hf.notBefore t u' ht hu')
  · have hlast := h.2 hc
    have hclosed : e'.pre.terminalState = .closed := by rw [hpre, hlast, hc]
    rw [hf.closed hclosed, hpre, hlast]

theorem movesForward_of_forward {s : Persisted} (h : machine.Run tr s)
    (hf : ∀ e ∈ tr, Forward e.pre e.act e.post) : MovesForward tr := by
  induction h with
  | start => exact ⟨by simp, by simp, List.Pairwise.nil⟩
  | @step tr s factsPayload s' r hrun hs ih =>
    have hold : ∀ e ∈ tr, Forward e.pre e.act e.post := fun e he => hf e (List.mem_cons_of_mem _ he)
    obtain ⟨hr, -⟩ := machine_step hs
    obtain ⟨t, ht⟩ := lastAccepted_of_evaluate (run_valid hrun) hr
    obtain ⟨-, hself, hpairs⟩ := ih hold
    refine ⟨fun e he => (hf e he).older, fun e he => ⟨(hf e he).notBefore, (hf e he).closed⟩,
      List.pairwise_cons.mpr ⟨fun e he => ?_, hpairs⟩⟩
    -- the entry before the new one already kept what `e` reached
    cases hrun with
    | start => cases he
    | @step tr a b _ c hrun' hs' =>
      have hkept : Keeps ⟨a, b, s, c⟩ e := by
        rcases List.mem_cons.mp he with rfl | he'
        · exact hself _ List.mem_cons_self
        · exact List.rel_of_pairwise_cons hpairs he'
      exact hkept.step rfl ht (hf _ List.mem_cons_self)

/-- The watch state only moves forward, in exactly the runs without a misdirected observation. -/
theorem moves_forward_iff {s : Persisted} (h : machine.Run tr s) :
    MovesForward tr ↔ ∀ e ∈ tr, ¬ Misdirected e.pre e.act := by
  have hstep : ∀ e ∈ tr, (Forward e.pre e.act e.post ↔ ¬ Misdirected e.pre e.act) := by
    intro e he
    obtain ⟨newer, older, rfl⟩ := List.append_of_mem he
    obtain ⟨-, hrun, hs⟩ := h.split
    obtain ⟨hr, hpost⟩ := machine_step hs
    rw [hpost]
    exact forward_iff (run_valid hrun) hr
  constructor
  · rintro ⟨holder, hself, -⟩ e he
    exact (hstep e he).mp ⟨holder e he, (hself e he).1, (hself e he).2⟩
  · intro hm
    exact movesForward_of_forward h fun e he => (hstep e he).mpr (hm e he)

/-- An observation of a packet whose worktree stands at `head`. -/
def sampleFacts (head observedAt : String) : Json :=
  .obj [
    ("packet", .obj [("repository", .str "o/r"), ("workstream", .str "w"),
      ("status", .str "ACTIVE"), ("intent_revision", .int 1)]),
    ("git", .obj [("head", .str head)]),
    ("watch", .obj [("watch_class", .str "exact_head_ci"), ("observed_at", .str observedAt)])]

def headA : String := "aaaaaaaaaaaaaaaaaaaaaaaaaaaaaaaaaaaaaaaa"
def headB : String := "bbbbbbbbbbbbbbbbbbbbbbbbbbbbbbbbbbbbbbbb"

/-- What the observation of `headA` at ten o'clock leaves. -/
def sampleState : Persisted where
  identity := ⟨"o/r", "w", 1, .exactHeadCi, headA⟩
  lastObservationDigest := "0c2d01ce2b68fbef81c1436c7b2870aa6c3e098875893ba66caa8db716c5c908"
  lastDecision := "WAIT_EXTERNAL"
  lastDecisionKey := "o/r|w|1|RECHECK_LATER|WAIT_EXTERNAL|aaaaaaaaaaaaaaaaaaaaaaaaaaaaaaaaaaaaaaaa"
  lastTransitionAt := "2026-03-01T10:00:00Z"
  consecutiveTransientFailures := 0
  nextEligibleCheckAt := some "2026-03-01T10:05:00Z"
  terminalState := .open
  lastObservationAt := some "2026-03-01T10:00:00Z"

theorem sampleState_run : machine.Run [] sampleState := by
  have h : ((evaluate (sampleFacts headA "2026-03-01T10:00:00Z") (.obj [])).toOption.map
      WatchResult.nextWatchState) = some sampleState := by decide +kernel
  obtain ⟨r, hr, hs⟩ := map_toOption_eq_some h
  exact .start ⟨_, _, r, hr, hs⟩

/-- A run of one more observation. -/
theorem sampleState_step {factsPayload : Json} {r : WatchResult}
    (h : evaluate factsPayload sampleState.toJson = .ok r) :
    machine.Run [⟨sampleState, factsPayload, r.nextWatchState, r⟩] r.nextWatchState :=
  sampleState_run.step (by simp only [machine, h])

/-- An observation of `headA` from an hour before changes nothing. -/
theorem moves_forward_sample : ∃ e : Entry Persisted Json WatchResult,
    e.pre = sampleState ∧ e.act = sampleFacts headA "2026-03-01T09:00:00Z" ∧
      machine.Run [e] e.post ∧ MovesForward [e] := by
  have h : ((evaluate (sampleFacts headA "2026-03-01T09:00:00Z") sampleState.toJson).toOption.map
      fun _ => ()) = some () := by decide +kernel
  obtain ⟨r, hr, -⟩ := map_toOption_eq_some h
  have hrun := sampleState_step hr
  refine ⟨_, rfl, rfl, hrun, (moves_forward_iff hrun).mpr ?_⟩
  rintro e he ⟨-, -, a, ha, hstale⟩
  obtain rfl := List.mem_singleton.mp he
  have hfresh : ((accepted (sampleFacts headA "2026-03-01T09:00:00Z")).map fun a =>
      staleIdentity sampleState.view a.1 a.2) = some false := by decide +kernel
  rw [show accepted (sampleFacts headA "2026-03-01T09:00:00Z") = some a from ha] at hfresh
  cases (Option.some.inj hfresh).symm.trans hstale

/-- An observation of `headB` from an hour before closes the watch on `headA`. -/
theorem delayed_observation_closes :
    ¬ ∀ (tr : History Persisted Json WatchResult) (s : Persisted), machine.Run tr s →
      MovesForward tr := by
  intro hall
  have h : ((evaluate (sampleFacts headB "2026-03-01T09:00:00Z") sampleState.toJson).toOption.map
      fun r => r.nextWatchState.terminalState) = some .closed := by decide +kernel
  obtain ⟨r, hr, hclosed⟩ := map_toOption_eq_some h
  have hcomp : observed (sampleFacts headB "2026-03-01T09:00:00Z") = some 63907952400000000 ∧
      lastAccepted sampleState = some 63907956000000000 := by decide +kernel
  obtain ⟨holder, -⟩ := hall _ _ (sampleState_step hr)
  have hpost := holder _ List.mem_cons_self ⟨_, _, hcomp.1, hcomp.2, by decide⟩
  rw [show r.nextWatchState = sampleState from hpost] at hclosed
  cases hclosed

end DataRelay.Tools.Watch
