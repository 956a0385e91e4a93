import Mathlib.Data.List.DropRight
import DataRelay.Tools.Watch

/-! The watch state that a run persists: what it always holds, and that the next run reads it back. -/

namespace DataRelay.Tools
open Lib

/-! ### Trimmed text -/

theorem strip_eq_self {s : String} (h : ∀ c ∈ s.toList, isSpace c = false) : strip s = s := by
  have hdrop : ∀ l : List Char, (∀ c ∈ l, isSpace c = false) → l.dropWhile isSpace = l := by
    intro l hl
    cases l with
    | nil => rfl
    | cons c cs => simp [hl c (by simp)]
  have hback : s.toList.rdropWhile isSpace = s.toList := by
    rw [List.rdropWhile, hdrop _ (by simpa using h), List.reverse_reverse]
  rw [strip, hdrop _ h, hback, String.ofList_toList]

theorem strip_strip (s : String) : strip (strip s) = strip s := by
  have htrim : ∀ l : List Char, strip (String.ofList l) =
      String.ofList ((l.dropWhile isSpace).rdropWhile isSpace) := by
    intro l
    simp only [strip, String.toList_ofList]
  have hs : strip s = String.ofList ((s.toList.dropWhile isSpace).rdropWhile isSpace) := rfl
  rw [hs, htrim]
  generalize hl : s.toList.dropWhile isSpace = l
  -- what is cut off behind leaves the head alone, which is no space
  have hfront : (l.rdropWhile isSpace).dropWhile isSpace = l.rdropWhile isSpace := by
    rw [List.dropWhile_eq_self_iff]
    intro hpos
    have hpre := List.rdropWhile_prefix isSpace l
    have hlen : 0 < l.length := lt_of_lt_of_le hpos hpre.length_le
    have hhead : (l.rdropWhile isSpace)[0] = l[0] := hpre.getElem hpos
    have hself : l.dropWhile isSpace = l := by rw [← hl, List.dropWhile_idempotent]
    simpa [hhead] using List.dropWhile_eq_self_iff.mp hself hlen
  rw [hfront, List.rdropWhile_idempotent]

theorem isSpace_of_isLowerHex {c : Char} (h : isLowerHex c = true) : isSpace c = false := by
  simp only [isLowerHex, isDigitAscii, Bool.or_eq_true, Bool.and_eq_true, decide_eq_true_eq,
    Char.le_def, UInt32.le_iff_toNat_le] at h
  have hn : (48 ≤ c.toNat ∧ c.toNat ≤ 57) ∨ (97 ≤ c.toNat ∧ c.toNat ≤ 102) := h
  simp only [isSpace, isSpaceCode, Bool.or_eq_false_iff, Bool.and_eq_false_iff, decide_eq_false_iff_not,
    beq_eq_false_iff_ne]
  omega

theorem isLowerHex_hexChar {n : ℕ} (h : n < 16) : isLowerHex (Json.hexChar n) = true := by
  revert n
  decide

theorem isLowerHex_hex2 (n : ℕ) : ∀ c ∈ hex2 n, isLowerHex c = true := by
  intro c hc
  simp only [hex2, List.mem_cons, List.not_mem_nil, or_false] at hc
  rcases hc with rfl | rfl
  · exact isLowerHex_hexChar (Nat.mod_lt _ (by decide))
  · exact isLowerHex_hexChar (Nat.mod_lt _ (by decide))

theorem strip_fullSha {s : String} (h : fullSha s = true) : strip s = s := by
  simp only [fullSha, Bool.and_eq_true, List.all_eq_true] at h
  exact strip_eq_self fun c hc => isSpace_of_isLowerHex (h.2 c hc)

/-- A text that `_require_str` gives back as it is. -/
def Trimmed (s : String) : Prop := strip s = s ∧ s ≠ ""

theorem requireStr_ok {raise : String → ToolError} {value : Json} {label s : String}
    (h : requireStr raise value label = .ok s) : ∃ t, value = .str t ∧ s = strip t ∧ s ≠ "" := by
  cases value with
  | str t =>
    obtain ⟨hne, h⟩ := guard_ok.mp h
    obtain rfl := Except.ok.inj h
    exact ⟨t, rfl, rfl, hne⟩
  | _ => cases h

theorem trimmed_of_requireStr {raise : String → ToolError} {value : Json} {label s : String}
    (h : requireStr raise value label = .ok s) : Trimmed s := by
  obtain ⟨t, -, rfl, hne⟩ := requireStr_ok h
  exact ⟨strip_strip t, hne⟩

theorem requireStr_trimmed {raise : String → ToolError} {label s : String} (h : Trimmed s) :
    requireStr raise (.str s) label = .ok s := by
  simp [requireStr, h.1, h.2]

theorem orStr_of_ne {a : String} (h : a ≠ "") (b : String) : orStr a b = a := if_neg h

theorem orStr_ne {a b : String} (h : b ≠ "") : orStr a b ≠ "" := by
  unfold orStr
  split <;> assumption

/-- An instant that is read does not depend on the name of its field. -/
theorem parseTime_label {value label : String} {t : Instant} (h : parseTime value label = .ok t)
    (label' : String) : parseTime value label' = .ok t := by
  unfold parseTime at h ⊢
  split at h
  · cases h
  · cases h
  · exact h

theorem parseTime_strip (value label : String) :
    parseTime (strip value) label = parseTime value label := by
  unfold parseTime
  rw [strip_strip]

theorem formatTime_ne (t : Instant) : formatTime t ≠ "" := by
  intro h
  have hnil := congrArg String.toList h
  simp only [formatTime, String.toList_ofList] at hnil
  exact List.append_ne_nil_of_right_ne_nil _ (List.cons_ne_nil _ _) hnil

namespace Coordinator

theorem trimmed_subjectVersion (facts : Facts) : Trimmed (subjectVersion facts) := by
  unfold subjectVersion
  cases h : List.find? (fun value => value ≠ "UNKNOWN" && fullSha value)
      [facts.pr.head, facts.ci.subjectHead, facts.git.head] with
  | none => exact ⟨by decide, by decide⟩
  | some s =>
    have hs := List.find?_some h
    simp only [Bool.and_eq_true] at hs
    refine ⟨strip_fullSha hs.2, ?_⟩
    rintro rfl
    simp [fullSha] at hs

/-- The packet of accepted facts names its repository and its workstream by trimmed texts. -/
theorem parsePacket_trimmed {raw : Json} {packet : Packet} (h : parsePacket raw = .ok packet) :
    Trimmed packet.repository ∧ Trimmed packet.workstream := by
  unfold parsePacket at h
  obtain ⟨data, -, h⟩ := bind_ok.mp h
  obtain ⟨-, -, h⟩ := bind_ok.mp h
  obtain ⟨repo, hrepo, h⟩ := bind_ok.mp h
  obtain ⟨-, h⟩ := check_ok.mp h
  obtain ⟨ws, hws, h⟩ := bind_ok.mp h
  obtain ⟨-, h⟩ := check_ok.mp h
  obtain ⟨status, -, h⟩ := bind_ok.mp h
  obtain ⟨priority, -, h⟩ := bind_ok.mp h
  obtain ⟨risk, -, h⟩ := bind_ok.mp h
  obtain ⟨revision, -, h⟩ := bind_ok.mp h
  obtain ⟨kind, -, h⟩ := bind_ok.mp h
  obtain ⟨deps, -, h⟩ := bind_ok.mp h
  obtain rfl := Except.ok.inj h
  exact ⟨trimmed_of_requireStr hrepo, trimmed_of_requireStr hws⟩

theorem normalizeFacts_trimmed {data : Obj} {facts : Facts} (h : normalizeFacts data = .ok facts) :
    Trimmed facts.packet.repository ∧ Trimmed facts.packet.workstream := by
  unfold normalizeFacts at h
  obtain ⟨-, -, h⟩ := bind_ok.mp h
  obtain ⟨-, -, h⟩ := bind_ok.mp h
  obtain ⟨-, h⟩ := check_ok.mp h
  obtain ⟨packet, hpacket, h⟩ := bind_ok.mp h
  iterate 26 obtain ⟨_, -, h⟩ := bind_ok.mp h
  obtain rfl := Except.ok.inj h
  exact parsePacket_trimmed hpacket

end Coordinator

namespace Watch
open Coordinator (Facts Decision)

/-! ### Reading back -/

/-- What the next run reads of a persisted state. -/
def Persisted.view (p : Persisted) : State where
  identity := some p.identity
  lastObservationDigest := p.lastObservationDigest
  lastDecision := p.lastDecision
  lastDecisionKey := p.lastDecisionKey
  lastTransitionAt := p.lastTransitionAt
  lastObservationAt := p.lastObservationAt.getD ""
  consecutiveTransientFailures := p.consecutiveTransientFailures
  nextEligibleCheckAt := p.nextEligibleCheckAt
  terminalState := p.terminalState

/-- What every persisted state keeps: an identity of trimmed texts, and no empty record of the last
    observation, decision and transition. -/
structure Persisted.Valid (p : Persisted) : Prop where
  repo : Trimmed p.identity.targetRepo
  workstream : Trimmed p.identity.workstream
  subject : Trimmed p.identity.subjectVersion
  digest : p.lastObservationDigest ≠ ""
  decision : p.lastDecision ≠ ""
  key : p.lastDecisionKey ≠ ""
  transition : p.lastTransitionAt ≠ ""
  observation : p.lastObservationAt ≠ some ""

theorem watchClass_name {c c' : WatchClass} {label : String}
    (h : watchClass (.str c.name) label = .ok c') : c' = c := by
  cases c <;> exact (Except.ok.inj h).symm

/-- A timestamp that is read comes back as the text it is. -/
theorem stateTime_str {data : Obj} {key s : String} {o : Option String}
    (hf : field data key = .str s) (h : stateTime data key = .ok o) : o = some s := by
  unfold stateTime at h
  rw [hf] at h
  by_cases hs : s = ""
  · subst hs
    exact (Except.ok.inj h).symm
  · split at h
    · next he => cases he
    · next he => cases he; exact absurd rfl hs
    · obtain ⟨text, -, h⟩ := bind_ok.mp h
      obtain ⟨t, -, h⟩ := bind_ok.mp h
      exact (Except.ok.inj h).symm

/-- A timestamp that is accepted and not empty can be read. -/
theorem stateTime_parses {data : Obj} {key s : String} {o : Option String}
    (hf : field data key = .str s) (hs : s ≠ "") (h : stateTime data key = .ok o) :
    ∃ t, parseTime s s!"watch_state.{key}" = .ok t := by
  unfold stateTime at h
  rw [hf] at h
  split at h
  · next he => cases he
  · next he => cases he; exact absurd rfl hs
  · obtain ⟨text, htext, h⟩ := bind_ok.mp h
    obtain ⟨t, ht, -⟩ := bind_ok.mp h
    obtain ⟨_, he, rfl, -⟩ := requireStr_ok htext
    cases he
    exact ⟨t, (parseTime_strip _ _).symm.trans ht⟩

theorem stateTime_null {data : Obj} {key : String} {o : Option String}
    (hf : field data key = .null) (h : stateTime data key = .ok o) : o = none := by
  unfold stateTime at h
  rw [hf] at h
  exact (Except.ok.inj h).symm

theorem stateTime_optStr {data : Obj} {key : String} {v o : Option String}
    (hf : field data key = optStr v) (h : stateTime data key = .ok o) : o = v := by
  cases v with
  | none => exact stateTime_null hf h
  | some s => exact stateTime_str hf h

/-- The fields of a persisted state, by name. -/
structure Persisted.Fields (p : Persisted) (data : Obj) : Prop where
  repo : field data "target_repo" = .str p.identity.targetRepo
  workstream : field data "workstream" = .str p.identity.workstream
  revision : field data "intent_revision" = .int p.identity.intentRevision
  watchClass : field data "watch_class" = .str p.identity.watchClass.name
  subject : field data "subject_version" = .str p.identity.subjectVersion
  present : identityKeys.filter (has data) = identityKeys
  digest : field data "last_observation_digest" = .str p.lastObservationDigest
  decision : field data "last_decision" = .str p.lastDecision
  key : field data "last_decision_key" = .str p.lastDecisionKey
  transition : field data "last_transition_at" = .str p.lastTransitionAt
  observation : field data "last_observation_at" = optStr p.lastObservationAt
  hasFailures : has data "consecutive_transient_failures" = true
  failures : field data "consecutive_transient_failures" = .int p.consecutiveTransientFailures
  next : field data "next_eligible_check_at" = optStr p.nextEligibleCheckAt
  hasTerminal : has data "terminal_state" = true
  terminal : field data "terminal_state" = .str p.terminalState.name

theorem Persisted.fields (p : Persisted) {data : Obj} {label : String}
    (h : requireMapping p.toJson label = .ok data) : p.Fields data := by
  obtain rfl := Except.ok.inj h
  cases p with
  | mk identity _ _ _ _ _ _ _ observation =>
    cases observation <;> constructor <;> simp [field, has, Json.get?, identityKeys, optStr]

theorem parseIdentity_persisted {p : Persisted} (hp : p.Valid) {data : Obj} (hd : p.Fields data)
    {o : Option Identity} (h : parseIdentity data = .ok o) : o = some p.identity := by
  unfold parseIdentity at h
  obtain ⟨-, h⟩ := check_ok.mp h
  rw [hd.present, hd.watchClass, hd.revision, hd.repo, hd.workstream, hd.subject] at h
  rw [if_neg (by decide)] at h
  obtain ⟨c, hc, h⟩ := bind_ok.mp h
  obtain ⟨n, hn, h⟩ := bind_ok.mp h
  obtain ⟨repo, hrepo, h⟩ := bind_ok.mp h
  obtain ⟨ws, hws, h⟩ := bind_ok.mp h
  obtain ⟨subject, hsubject, h⟩ := bind_ok.mp h
  obtain rfl := watchClass_name hc
  obtain ⟨-, hn⟩ := guard_ok.mp hn
  obtain rfl := Except.ok.inj hn
  obtain rfl := Except.ok.inj ((requireStr_trimmed hp.repo).symm.trans hrepo)
  obtain rfl := Except.ok.inj ((requireStr_trimmed hp.workstream).symm.trans hws)
  obtain rfl := Except.ok.inj ((requireStr_trimmed hp.subject).symm.trans hsubject)
  exact (Except.ok.inj h).symm

theorem parseTerminal_persisted {p : Persisted} {data : Obj} (hd : p.Fields data)
    {t : TerminalState} (h : parseTerminal data = .ok t) : t = p.terminalState := by
  unfold parseTerminal at h
  rw [hd.hasTerminal, hd.terminal] at h
  cases ht : p.terminalState <;> rw [ht] at h <;> exact (Except.ok.inj h).symm

theorem parseFailures_persisted {p : Persisted} {data : Obj} (hd : p.Fields data) {n : ℤ}
    (h : parseFailures data = .ok n) : n = p.consecutiveTransientFailures := by
  unfold parseFailures at h
  rw [hd.hasFailures, hd.failures] at h
  exact (Except.ok.inj (guard_ok.mp h).2).symm

/-- A persisted state that the next run accepts is read back as it is. -/
theorem parseState_toJson {p : Persisted} (hp : p.Valid) {s : State}
    (h : parseState p.toJson = .ok s) : s = p.view := by
  unfold parseState at h
  obtain ⟨data, hdata, h⟩ := bind_ok.mp h
  have hd := p.fields hdata
  obtain ⟨-, -, h⟩ := bind_ok.mp h
  obtain ⟨-, -, h⟩ := bind_ok.mp h
  obtain ⟨-, h⟩ := check_ok.mp h
  obtain ⟨identity, hidentity, h⟩ := bind_ok.mp h
  obtain ⟨terminal, hterminal, h⟩ := bind_ok.mp h
  obtain ⟨failures, hfailures, h⟩ := bind_ok.mp h
  obtain ⟨transition, htransition, h⟩ := bind_ok.mp h
  obtain ⟨observation, hobservation, h⟩ := bind_ok.mp h
  obtain ⟨next, hnext, h⟩ := bind_ok.mp h
  obtain rfl := parseIdentity_persisted hp hd hidentity
  obtain rfl := parseTerminal_persisted hd hterminal
  obtain rfl := parseFailures_persisted hd hfailures
  obtain rfl := stateTime_str hd.transition htransition
  obtain rfl := stateTime_optStr hd.observation hobservation
  obtain rfl := stateTime_optStr hd.next hnext
  rw [hd.digest, hd.decision, hd.key, strOrEmpty_str, strOrEmpty_str, strOrEmpty_str] at h
  exact (Except.ok.inj h).symm

theorem parseWatch_observed {raw : Json} {watch : WatchFacts} (h : parseWatch raw = .ok watch) :
    watch.observedAt ≠ "" := by
  unfold parseWatch at h
  iterate 6 obtain ⟨_, -, h⟩ := bind_ok.mp h
  obtain ⟨revision, -, h⟩ := bind_ok.mp h
  obtain rfl := Except.ok.inj h
  exact formatTime_ne _

theorem parseState_identity {raw : Json} {state : State} (h : parseState raw = .ok state)
    {i : Identity} (hi : state.identity = some i) :
    Trimmed i.targetRepo ∧ Trimmed i.workstream ∧ Trimmed i.subjectVersion := by
  unfold parseState at h
  iterate 3 obtain ⟨_, -, h⟩ := bind_ok.mp h
  obtain ⟨-, h⟩ := check_ok.mp h
  obtain ⟨identity, hidentity, h⟩ := bind_ok.mp h
  iterate 5 obtain ⟨_, -, h⟩ := bind_ok.mp h
  obtain rfl := Except.ok.inj h
  unfold parseIdentity at hidentity
  obtain ⟨-, hidentity⟩ := check_ok.mp hidentity
  split at hidentity
  · obtain rfl := Except.ok.inj hidentity
    cases hi
  · iterate 2 obtain ⟨_, -, hidentity⟩ := bind_ok.mp hidentity
    obtain ⟨repo, hrepo, hidentity⟩ := bind_ok.mp hidentity
    obtain ⟨ws, hws, hidentity⟩ := bind_ok.mp hidentity
    obtain ⟨subject, hsubject, hidentity⟩ := bind_ok.mp hidentity
    obtain rfl := Except.ok.inj hidentity
    obtain rfl := Option.some.inj hi
    exact ⟨trimmed_of_requireStr hrepo, trimmed_of_requireStr hws, trimmed_of_requireStr hsubject⟩

/-! ### What a run can do -/

theorem mapDecision_ok {facts : Facts} {watch : WatchFacts} {state : State} {decision : Decision}
    {planReason subject : String} {r : WatchResult}
    (h : mapDecision facts watch state decision planReason subject = .ok r) :
    ∃ e : Emission, r = emit facts watch state e ∧ e.subject = subject ∧
      e.digest = observationDigest facts decision ∧ e.coordinatorDecision ≠ "" ∧
      e.preserveDurable = false := by
  have hname : decision.name ≠ "" := by cases decision <;> decide
  unfold mapDecision at h
  split at h
  · exact ⟨_, (Except.ok.inj h).symm, rfl, rfl, hname, rfl⟩
  cases decision with
  | noopComplete => exact ⟨_, (Except.ok.inj h).symm, rfl, rfl, hname, rfl⟩
  | reconcileAmbiguous => exact ⟨_, (Except.ok.inj h).symm, rfl, rfl, hname, rfl⟩
  | blockHuman =>
    simp only at h
    split at h
    · obtain ⟨next, -, h⟩ := bind_ok.mp h
      exact ⟨_, (Except.ok.inj h).symm, rfl, rfl, hname, rfl⟩
    · exact ⟨_, (Except.ok.inj h).symm, rfl, rfl, hname, rfl⟩
  | resumeWorker =>
    simp only at h
    split at h
    · exact ⟨_, (Except.ok.inj h).symm, rfl, rfl, (by decide : "OUT_OF_SCOPE" ≠ ""), rfl⟩
    split at h
    · obtain ⟨next, -, h⟩ := bind_ok.mp h
      exact ⟨_, (Except.ok.inj h).symm, rfl, rfl, hname, rfl⟩
    split at h
    · obtain ⟨next, -, h⟩ := bind_ok.mp h
      exact ⟨_, (Except.ok.inj h).symm, rfl, rfl, hname, rfl⟩
    · obtain ⟨next, -, h⟩ := bind_ok.mp h
      exact ⟨_, (Except.ok.inj h).symm, rfl, rfl, hname, rfl⟩
  | yieldResource | waitExternal | waitExactHeadCi | noopPaused =>
    obtain ⟨next, -, h⟩ := bind_ok.mp h
    exact ⟨_, (Except.ok.inj h).symm, rfl, rfl, hname, rfl⟩
  | _ =>
    simp only at h
    split at h
    · obtain ⟨next, -, h⟩ := bind_ok.mp h
      exact ⟨_, (Except.ok.inj h).symm, rfl, rfl, hname, rfl⟩
    · obtain ⟨next, -, h⟩ := bind_ok.mp h
      exact ⟨_, (Except.ok.inj h).symm, rfl, rfl, hname, rfl⟩

/-- The four ways in which accepted facts are answered. -/
inductive Answered (facts : Facts) (watch : WatchFacts) (state : State) : WatchResult → Prop
  | closed : state.terminalState = .closed →
      Answered facts watch state
        (emit facts watch state (closedEmission state (Coordinator.subjectVersion facts)))
  | stale (reason : String) : state.terminalState = .open →
      staleIdentity state facts watch = true →
      Answered facts watch state
        (closeStale facts watch state (Coordinator.subjectVersion facts) reason)
  | older : state.terminalState = .open → staleIdentity state facts watch = false →
      observationIsOlder watch state = .ok true → state.lastDecision ≠ "" →
      state.lastObservationDigest ≠ "" → state.lastDecisionKey ≠ "" →
      Answered facts watch state
        (emit facts watch state (olderEmission state (Coordinator.subjectVersion facts)))
  | mapped (decision : Decision) (e : Emission) : state.terminalState = .open →
      staleIdentity state facts watch = false → observationIsOlder watch state = .ok false →
      e.subject = Coordinator.subjectVersion facts → e.digest = observationDigest facts decision →
      e.coordinatorDecision ≠ "" → e.preserveDurable = false →
      Answered facts watch state (emit facts watch state e)

theorem evaluateParsed_cases {planner : Obj} {facts : Facts} {watch : WatchFacts} {state : State}
    {r : WatchResult} (h : evaluateParsed planner facts watch state = .ok r) :
    checkIdentity state facts watch = .ok () ∧ Answered facts watch state r := by
  unfold evaluateParsed at h
  obtain ⟨-, h⟩ := check_ok.mp h
  obtain ⟨⟨⟩, hid, h⟩ := bind_ok.mp h
  refine ⟨hid, ?_⟩
  split at h
  next hclosed =>
    obtain rfl := Except.ok.inj h
    exact .closed hclosed
  next hclosed =>
  have hopen : state.terminalState = .open := by
    cases ht : state.terminalState with
    | «open» => rfl
    | closed => exact absurd ht hclosed
  split at h
  next hstale =>
    obtain rfl := Except.ok.inj h
    exact .stale _ hopen hstale
  next hstale =>
  have hfresh : staleIdentity state facts watch = false := by simpa using hstale
  obtain ⟨older, holder, h⟩ := bind_ok.mp h
  cases older with
  | true =>
    obtain ⟨hcomplete, h⟩ := check_ok.mp h
    obtain rfl := Except.ok.inj h
    simp only [not_or] at hcomplete
    exact .older hopen hfresh holder hcomplete.1 hcomplete.2.1 hcomplete.2.2
  | false =>
    rw [if_neg (by decide)] at h
    split at h
    · obtain ⟨e, rfl, hsubject, hdigest, hdecision, hdurable⟩ := mapDecision_ok h
      exact .mapped _ e hopen hfresh holder hsubject hdigest hdecision hdurable
    · obtain ⟨plan, -, h⟩ := bind_ok.mp h
      obtain ⟨e, rfl, hsubject, hdigest, hdecision, hdurable⟩ := mapDecision_ok h
      exact .mapped _ e hopen hfresh holder hsubject hdigest hdecision hdurable

/-! ### What is persisted is valid -/

theorem notificationKey_ne (facts : Facts) (result : Result) (subject decision : String) :
    notificationKey facts result subject decision ≠ "" := by
  intro h
  simpa [notificationKey, Coordinator.bar] using congrArg String.toList h

theorem length_sha256Hex (text : List Char) : (sha256Hex text).toList.length = 64 := by
  simp only [sha256Hex, String.toList_ofList, List.length_flatMap, hex2, List.length_cons,
    List.length_nil, List.map_const', length_sha256]
  rfl

theorem observationDigest_ne (facts : Facts) (decision : Decision) :
    observationDigest facts decision ≠ "" := by
  intro h
  have hlen := congrArg (fun s => s.toList.length) h
  rw [observationDigest, length_sha256Hex] at hlen
  cases hlen

/-- What the documents of a run give it: names that are trimmed, and a time that was read. -/
structure Accepted (facts : Facts) (watch : WatchFacts) (state : State) : Prop where
  repo : Trimmed facts.packet.repository
  workstream : Trimmed facts.packet.workstream
  observed : watch.observedAt ≠ ""
  identity : ∀ i, state.identity = some i →
    Trimmed i.targetRepo ∧ Trimmed i.workstream ∧ Trimmed i.subjectVersion

variable {facts : Facts} {watch : WatchFacts} {state : State}

theorem trimmed_map_getD {f : Identity → String}
    (hf : ∀ i, state.identity = some i → Trimmed (f i)) {default : String} (hd : Trimmed default) :
    Trimmed ((state.identity.map f).getD default) := by
  cases hi : state.identity with
  | none => exact hd
  | some i => exact hf i hi

theorem persist_valid (ha : Accepted facts watch state) {e : Emission} {decision key : String}
    (hsubject : Trimmed e.subject) (hdigest : e.digest ≠ "") (hdecision : decision ≠ "")
    (hkey : key ≠ "") : (persist facts watch state e decision key).Valid := by
  have hrepo := trimmed_map_getD (fun i hi => (ha.identity i hi).1) ha.repo
  have hws := trimmed_map_getD (fun i hi => (ha.identity i hi).2.1) ha.workstream
  have hsub := trimmed_map_getD (fun i hi => (ha.identity i hi).2.2) hsubject
  unfold persist
  split
  · -- what is kept durable keeps the older value where there is one
    refine ⟨hrepo, hws, hsub, orStr_ne hdigest, orStr_ne hdecision, orStr_ne hkey,
      orStr_ne ha.observed, ?_⟩
    simp only
    split
    · simp
    · next h => exact fun he => h (Option.some.inj he)
  · refine ⟨hrepo, hws, hsubject, hdigest, hdecision, hkey, ?_, ?_⟩
    · simp only
      split
      · exact orStr_ne ha.observed
      · exact ha.observed
    · simp only [if_neg ha.observed]
      exact fun he => ha.observed (Option.some.inj he)

theorem emit_valid (ha : Accepted facts watch state) {e : Emission} (hsubject : Trimmed e.subject)
    (hdigest : e.digest ≠ "") (hdecision : e.coordinatorDecision ≠ "") :
    (emit facts watch state e).nextWatchState.Valid := by
  refine persist_valid ha hsubject hdigest ?_ ?_
  · split
    · exact orStr_ne hdecision
    · exact hdecision
  · split
    · exact orStr_ne (notificationKey_ne _ _ _ _)
    · exact notificationKey_ne _ _ _ _

theorem Accepted.closedIdentity (ha : Accepted facts watch state) {subject : String}
    (hs : Trimmed subject) :
    Trimmed (closedIdentity facts watch state subject).targetRepo ∧
      Trimmed (closedIdentity facts watch state subject).workstream ∧
      Trimmed (closedIdentity facts watch state subject).subjectVersion := by
  unfold Watch.closedIdentity
  cases hi : state.identity with
  | none => exact ⟨ha.repo, ha.workstream, hs⟩
  | some i => exact ha.identity i hi

theorem Answered.valid (ha : Accepted facts watch state) {r : WatchResult}
    (h : Answered facts watch state r) : r.nextWatchState.Valid := by
  have hsubject := Coordinator.trimmed_subjectVersion facts
  cases h with
  | closed =>
    exact emit_valid ha (trimmed_map_getD (fun i hi => (ha.identity i hi).2.2) hsubject)
      (orStr_ne (by decide)) (orStr_ne (by decide))
  | stale reason =>
    obtain ⟨hrepo, hws, hsub⟩ := ha.closedIdentity hsubject
    have hv := emit_valid ha (e := {
      result := .closeWatch, reason, coordinatorDecision := "STALE_WATCH"
      subject := (closedIdentity facts watch state _).subjectVersion
      digest := "STALE", suppress := "NONE", notification := "SEND", terminalState := .closed })
      hsub (by decide : "STALE" ≠ "") (by decide : "STALE_WATCH" ≠ "")
    exact ⟨hrepo, hws, hsub, hv.digest, hv.decision, hv.key, hv.transition, hv.observation⟩
  | older _ _ _ hdecision hdigest => exact emit_valid ha hsubject hdigest hdecision
  | mapped decision e _ _ _ hs hdigest hdecision =>
    exact emit_valid ha (hs ▸ hsubject) (hdigest ▸ observationDigest_ne _ _) hdecision

end Watch

end DataRelay.Tools
