import Mathlib.Data.List.Forall2
import DataRelay.Tools.CanonicalPaths

/-! Whether the workers that hold a claim stay out of each other's way.

    What a claim occupies is read from the JSON as it stands: its directories are those that its
    paths denote, whatever the spelling. Admission compares canonical texts instead; an admitted
    worker is apart from the others exactly when no two of these texts hide one directory. -/

namespace DataRelay.Tools.Admission
open Lib

/-! ### What a claim occupies -/

/-- What a claim occupies, read without any check. -/
structure Occupation where
  claimId : String
  repository : String
  workstream : String
  worktree : List LexPath.Component
  ownedPaths : List (List LexPath.Component)
  sharedRuntime : Option SharedRuntime

/-- A field of a claim, with a default for a missing one. -/
def rawField (raw : Json) (key : String) (default : Json) : Json :=
  match raw with
  | .obj fields => fieldD fields key default
  | _ => default

/-- A text without the blanks around it. -/
def textOf : Json → String
  | .str s => strip s
  | _ => ""

/-- The items of a list. -/
def itemsOf : Json → List Json
  | .arr items => items
  | _ => []

/-- The shared runtime that a mapping names. -/
def runtimeOf : Json → Option SharedRuntime
  | .obj fields => some ⟨textOf (field fields "id"), truthy (field fields "isolated")⟩
  | _ => none

/-- The occupation of a claim, in the fields as they stand in the request. -/
def occupation (raw : Json) : Occupation where
  claimId := textOf (rawField raw "claim_id" .null)
  repository := textOf (rawField raw "repository" .null)
  workstream := textOf (rawField raw "workstream" .null)
  worktree := directory (textOf (rawField raw "worktree" .null))
  ownedPaths := (itemsOf (rawField raw "owned_paths" (.arr []))).map fun p => directory (textOf p)
  sharedRuntime := runtimeOf (rawField raw "shared_runtime" .null)

/-- The claim is held by a worker that has not finished. -/
def occupies (raw : Json) : Bool :=
  (claimStatus (textOf (rawField raw "status" (.str "CLAIMED")))).any activeClaimStatuses.contains

/-- Two workers that have nothing in common that one of them could change under the other. -/
structure Apart (a b : Occupation) : Prop where
  claimId : a.claimId ≠ b.claimId
  runtime : ∀ r ∈ a.sharedRuntime, ∀ s ∈ b.sharedRuntime, r.id = s.id →
    r.isolated = true ∧ s.isolated = true
  workstream : a.repository = b.repository → a.workstream ≠ b.workstream
  worktree : a.repository = b.repository → a.worktree ≠ b.worktree
  ownedPaths : a.repository = b.repository → ∀ p ∈ a.ownedPaths, ∀ q ∈ b.ownedPaths,
    ¬ p <+: q ∧ ¬ q <+: p

/-- No two workers share anything, and there are no more of them than allowed. -/
def Independent (wipLimit : ℤ) (workers : List Occupation) : Prop :=
  workers.Pairwise Apart ∧ (workers.length : ℤ) ≤ wipLimit

/-! ### Reading a claim -/

theorem requireStr_ok {value : Json} {label text : String} (h : requireStr value label = .ok text) :
    text = textOf value := by
  unfold requireStr Tools.requireStr at h
  split at h
  · split at h
    · cases h
    · exact (Except.ok.inj h).symm
  · cases h

theorem requireBool_ok {value : Json} {label : String} {b : Bool}
    (h : requireBool value label = .ok b) : b = truthy value := by
  unfold requireBool at h
  split at h
  · exact (Except.ok.inj h).symm
  · cases h

theorem requireList_ok {value : Json} {label : String} {items : List Json}
    (h : requireList value label = .ok items) : items = itemsOf value := by
  unfold requireList at h
  split at h
  · exact (Except.ok.inj h).symm
  · cases h

/-- A claim that was read, and what it occupies. -/
structure Reads (raw : Json) (claim : Claim) : Prop where
  claimId : (occupation raw).claimId = claim.claimId
  repository : (occupation raw).repository = claim.repository
  workstream : (occupation raw).workstream = claim.workstream
  worktree : Worktree claim.worktree (occupation raw).worktree
  ownedPaths : List.Forall₂ OwnedPath claim.ownedPaths (occupation raw).ownedPaths
  sharedRuntime : (occupation raw).sharedRuntime = claim.sharedRuntime
  isActive : occupies raw = claim.isActive

theorem parseOwnedPaths_ok {label : String} : ∀ {items : List Json} {index : ℕ}
    {paths : List String}, parseOwnedPaths label items index = .ok paths →
      List.Forall₂ OwnedPath paths (items.map fun p => directory (textOf p))
  | [], _, _, h => by
    cases h
    exact .nil
  | item :: rest, index, paths, h => by
    simp only [parseOwnedPaths, bind_ok] at h
    obtain ⟨text, htext, path, hpath, tail, htail, heq⟩ := h
    obtain rfl := Except.ok.inj heq
    rw [requireStr_ok htext] at hpath
    exact .cons (ownedPath_of_normalize hpath) (parseOwnedPaths_ok htail)

theorem parseStatus_ok {raw : Json} {label : String} {status : ClaimStatus}
    (h : parseStatus raw label = .ok status) : claimStatus (textOf raw) = some status := by
  simp only [parseStatus, bind_ok] at h
  obtain ⟨text, htext, h⟩ := h
  rw [← requireStr_ok htext]
  split at h
  · cases h
  · rename_i hstatus
    rw [hstatus, Except.ok.inj h]

theorem parseRuntime_ok {raw : Json} {label : String} {runtime : Option SharedRuntime}
    (h : parseRuntime raw label = .ok runtime) : runtimeOf raw = runtime := by
  unfold parseRuntime at h
  split at h
  · exact Except.ok.inj h
  · simp only [bind_ok] at h
    obtain ⟨fields, hfields, id, hid, isolated, hisolated, heq⟩ := h
    unfold requireMapping Tools.requireMapping at hfields
    split at hfields
    · cases hfields
      rw [← Except.ok.inj heq, requireStr_ok hid, requireBool_ok hisolated]
      rfl
    · cases hfields

theorem occupation_obj (fields : Obj) : occupation (.obj fields) =
    ⟨textOf (field fields "claim_id"), textOf (field fields "repository"),
      textOf (field fields "workstream"), directory (textOf (field fields "worktree")),
      (itemsOf (fieldD fields "owned_paths" (.arr []))).map fun p => directory (textOf p),
      runtimeOf (field fields "shared_runtime")⟩ := rfl

theorem parseClaim_reads {raw : Json} {label : String} {claim : Claim}
    (h : parseClaim raw label = .ok claim) : Reads raw claim := by
  simp only [parseClaim, bind_ok] at h
  obtain ⟨data, hdata, claimId, hid, repository, hrepository, workstream, hworkstream, revision, -,
    text, htext, worktree, hworktree, items, hitems, paths, hpaths, status, hstatus, runtime,
    hruntime, dirty, -, unpushed, -, ambiguous, -, heq⟩ := h
  obtain rfl := Except.ok.inj heq
  unfold requireMapping Tools.requireMapping at hdata
  split at hdata
  · cases hdata
    rw [requireStr_ok htext] at hworktree
    rw [requireList_ok hitems] at hpaths
    have hactive : occupies (.obj data) = activeClaimStatuses.contains status := by
      rw [occupies, rawField, parseStatus_ok hstatus, Option.any_some]
    refine ⟨?_, ?_, ?_, ?_, ?_, ?_, hactive⟩
    all_goals dsimp only [occupation_obj]
    · rw [requireStr_ok hid]
    · rw [requireStr_ok hrepository]
    · rw [requireStr_ok hworkstream]
    · exact worktree_of_canonical hworktree
    · exact parseOwnedPaths_ok hpaths
    · exact parseRuntime_ok hruntime
  · cases hdata

theorem parseClaims_reads : ∀ {raws : List Json} {index : ℕ} {claims : List Claim},
    parseClaims raws index = .ok claims → List.Forall₂ Reads raws claims
  | [], _, _, h => by
    cases h
    exact .nil
  | raw :: rest, index, claims, h => by
    simp only [parseClaims, bind_ok] at h
    obtain ⟨claim, hclaim, tail, htail, heq⟩ := h
    obtain rfl := Except.ok.inj heq
    exact .cons (parseClaim_reads hclaim) (parseClaims_reads htail)

/-- The claims that are active are those of the workers. -/
theorem Reads.filter {raws : List Json} {claims : List Claim} (h : List.Forall₂ Reads raws claims) :
    List.Forall₂ Reads (raws.filter occupies) (activeClaims claims) := by
  induction h with
  | nil => exact .nil
  | @cons raw claim _ _ hread _ ih =>
    rw [activeClaims, List.filter_cons, List.filter_cons, hread.isActive]
    split
    · exact .cons hread ih
    · exact ih

/-! ### What the checks have seen -/

theorem checkPath_none {claimId left : String} : ∀ {rights : List String},
    checkPath claimId left rights = .ok none → ∀ right ∈ rights, pathsOverlap left right = .ok false
  | [], _ => by simp
  | right :: rights, h => by
    unfold checkPath at h
    split at h
    · cases h
    · cases h
    · rename_i hno
      exact List.forall_mem_cons.mpr ⟨hno, checkPath_none h⟩

theorem checkPaths_none {claimId : String} {rights : List String} : ∀ {lefts : List String},
    checkPaths claimId rights lefts = .ok none →
      ∀ left ∈ lefts, ∀ right ∈ rights, pathsOverlap left right = .ok false
  | [], _ => by simp
  | left :: lefts, h => by
    unfold checkPaths at h
    split at h
    · rename_i hleft
      exact List.forall_mem_cons.mpr ⟨checkPath_none hleft, checkPaths_none h⟩
    · rename_i hne
      exact absurd h hne

/-- What is known of an active claim that the proposed one was held against. -/
structure Passed (proposed claim : Claim) : Prop where
  runtime : runtimesConflict proposed.sharedRuntime claim.sharedRuntime = false
  worktree : claim.repository = proposed.repository → claim.worktree ≠ proposed.worktree
  workstream : claim.repository = proposed.repository → claim.workstream ≠ proposed.workstream
  ownedPaths : claim.repository = proposed.repository → ∀ left ∈ proposed.ownedPaths,
    ∀ right ∈ claim.ownedPaths, pathsOverlap left right = .ok false

theorem checkClaim_none {proposed claim : Claim} (h : checkClaim proposed claim = .ok none) :
    Passed proposed claim := by
  unfold checkClaim at h
  split at h
  · cases h
  rename_i hruntime
  rw [Bool.not_eq_true] at hruntime
  split at h
  · rename_i hrepo
    exact ⟨hruntime, fun heq => absurd heq hrepo, fun heq => absurd heq hrepo,
      fun heq => absurd heq hrepo⟩
  rename_i hrepo
  have hsame := not_not.mp hrepo
  split at h
  · cases h
  rename_i hworktree
  split at h
  · cases h
  rename_i hkey
  split at h
  · cases h
  rename_i hstale
  split at h
  · cases h
  refine ⟨hruntime, fun _ => hworktree, fun _ hstream => ?_, fun _ => checkPaths_none h⟩
  -- the same workstream is either the same claim or another revision of it
  refine hstale ⟨hstream, fun hrevision => hkey ?_⟩
  rw [Claim.identityKey, Claim.identityKey, hsame, hstream, hrevision]

theorem checkLive_none {proposed : Claim} : ∀ {live : List Claim},
    checkLive proposed live = .ok none → ∀ claim ∈ live, Passed proposed claim
  | [], _ => by simp
  | claim :: rest, h => by
    unfold checkLive at h
    split at h
    · rename_i hclaim
      exact List.forall_mem_cons.mpr ⟨checkClaim_none hclaim, checkLive_none h⟩
    · rename_i hne
      exact absurd h hne

/-- Nothing speaks against the proposed claim. -/
theorem denial_none {proposed : Claim} {existing : List Claim} {host : HostResource} {wipLimit : ℤ}
    (h : denial proposed existing host wipLimit = .ok none) :
    (∀ claim ∈ existing, claim.claimId ≠ proposed.claimId) ∧
      (activeClaims existing = [] ∨ ((activeClaims existing).length : ℤ) < wipLimit) ∧
      ∀ claim ∈ activeClaims existing, Passed proposed claim := by
  unfold denial at h
  dsimp only at h
  split at h
  · cases h
  split at h
  · cases h
  split at h
  · cases h
  split at h
  · cases h
  split at h
  · cases h
  rename_i hid
  split at h
  · cases h
  rename_i hlimit
  refine ⟨fun claim hclaim heq => hid ?_, ?_, checkLive_none h⟩
  · rw [List.contains_iff_mem, ← heq]
    exact List.mem_map_of_mem hclaim
  · rw [not_and_or, not_not, not_le] at hlimit
    exact hlimit

/-! ### The request -/

/-- The claim that is proposed. -/
def proposedOf (request : Obj) : Json := field request "proposed"

/-- The claims that are there. -/
def existingOf (request : Obj) : List Json := itemsOf (fieldD request "existing_claims" (.arr []))

/-- The limit of the work in progress, which is one if the request has none. -/
def wipLimitOf (request : Obj) : ℤ :=
  match fieldD request "wip_limit" (.int 1) with
  | .int n => n
  | _ => 1

/-- The workers that hold an existing claim of the request. -/
def workers (request : Obj) : List Occupation :=
  ((existingOf request).filter occupies).map occupation

theorem requireInt_ok {value : Json} {label : String} {minimum n : ℤ}
    (h : requireInt value label minimum = .ok n) : value = .int n ∧ minimum ≤ n := by
  unfold requireInt at h
  split at h
  · split at h
    · cases h
    rename_i hmin
    cases h
    exact ⟨rfl, not_lt.mp hmin⟩
  · cases h

/-- A request that is allowed was read whole, and nothing spoke against it. -/
theorem evaluateAdmit_allow {request : Obj} {report : Report}
    (h : evaluateAdmit request = .ok report) (hallow : report.decision = .allow) :
    ∃ proposed existing host, parseClaim (proposedOf request) "proposed" = .ok proposed ∧
      parseClaims (existingOf request) 0 = .ok existing ∧ 1 ≤ wipLimitOf request ∧
      denial proposed existing host (wipLimitOf request) = .ok none := by
  simp only [evaluateAdmit, bind_ok] at h
  obtain ⟨proposed, hproposed, raws, hraws, existing, hexisting, host, -, wipLimit, hlimit, answer,
    hanswer, heq⟩ := h
  obtain ⟨hint, hmin⟩ := requireInt_ok hlimit
  rw [requireList_ok hraws] at hexisting
  have hwip : wipLimitOf request = wipLimit := by rw [wipLimitOf, hint]
  refine ⟨proposed, existing, host, hproposed, hexisting, hwip ▸ hmin, ?_⟩
  cases answer with
  | none => rwa [hwip]
  | some d =>
    obtain rfl := Except.ok.inj heq
    cases hallow

/-- No two canonical texts of the two claims hide one directory: the worktrees do not differ by a
    second slash in front, and no owned path that ends with white space has the other below it. -/
def Unaliased (proposed claim : Claim) : Prop :=
  proposed.repository = claim.repository →
    ¬ SlashTwin proposed.worktree claim.worktree ∧
      ∀ p ∈ proposed.ownedPaths, ∀ q ∈ claim.ownedPaths, ¬ Hidden p q ∧ ¬ Hidden q p

theorem runtimesConflict_false {a b : Option SharedRuntime} (h : runtimesConflict a b = false) :
    ∀ r ∈ a, ∀ s ∈ b, r.id = s.id → r.isolated = true ∧ s.isolated = true := by
  rintro r rfl s rfl hid
  simpa [runtimesConflict, hid] using h

/-- What holds of the members of one list, member by member, holds of those of the other. -/
theorem forall_mem_iff {α β : Type} {R : α → β → Prop} {p : α → Prop} {q : β → Prop}
    {as : List α} {bs : List β} (h : List.Forall₂ R as bs)
    (hpq : ∀ a ∈ as, ∀ b, R a b → (p a ↔ q b)) : (∀ a ∈ as, p a) ↔ ∀ b ∈ bs, q b := by
  induction h with
  | nil => simp
  | cons hab _ ih =>
    rw [List.forall_mem_cons, List.forall_mem_cons, hpq _ (by simp) _ hab,
      ih fun a ha b hr => hpq a (by simp [ha]) b hr]

section Pair
variable {raw raw' : Json} {proposed claim : Claim}

/-- A worker that passed the checks against another is apart from it exactly when their canonical
    texts are unaliased. -/
theorem apart_iff (hp : Reads raw proposed) (hc : Reads raw' claim) (hpass : Passed proposed claim)
    (hid : claim.claimId ≠ proposed.claimId) :
    Apart (occupation raw) (occupation raw') ↔ Unaliased proposed claim := by
  have hruntime := runtimesConflict_false hpass.runtime
  rw [← hp.sharedRuntime, ← hc.sharedRuntime] at hruntime
  -- within one repository, what the code lets pass as separate may still hide one path in the other
  have howned (hrepo : proposed.repository = claim.repository) :
      (∀ p ∈ (occupation raw).ownedPaths, ∀ q ∈ (occupation raw').ownedPaths,
        ¬ p <+: q ∧ ¬ q <+: p) ↔
      ∀ p ∈ proposed.ownedPaths, ∀ q ∈ claim.ownedPaths, ¬ Hidden p q ∧ ¬ Hidden q p := by
    refine (forall_mem_iff hp.ownedPaths fun a ha dirA hA => ?_).symm
    refine (forall_mem_iff hc.ownedPaths fun b hb dirB hB => ?_)
    have hno := pathsOverlap_false (hpass.ownedPaths hrepo.symm a ha b hb)
    rw [below_iff_hidden hA hB hno, below_iff_hidden hB hA hno.symm]
  have htree (hrepo : proposed.repository = claim.repository) :
      (occupation raw).worktree ≠ (occupation raw').worktree ↔
        ¬ SlashTwin proposed.worktree claim.worktree :=
    not_congr (hp.worktree.same_iff hc.worktree (hpass.worktree hrepo.symm).symm)
  constructor
  · intro hapart hrepo
    have hsame : (occupation raw).repository = (occupation raw').repository := by
      rw [hp.repository, hc.repository, hrepo]
    exact ⟨(htree hrepo).mp (hapart.worktree hsame), (howned hrepo).mp (hapart.ownedPaths hsame)⟩
  · -- in two repositories only the ids and the runtimes are compared
    intro hclear
    have hrepo (hsame : (occupation raw).repository = (occupation raw').repository) :
        proposed.repository = claim.repository := by
      rwa [hp.repository, hc.repository] at hsame
    exact {
      claimId := by
        rw [hp.claimId, hc.claimId]
        exact hid.symm
      runtime := hruntime
      workstream := fun hsame => by
        rw [hp.workstream, hc.workstream]
        exact (hpass.workstream (hrepo hsame).symm).symm
      worktree := fun hsame => (htree (hrepo hsame)).mpr (hclear (hrepo hsame)).1
      ownedPaths := fun hsame => (howned (hrepo hsame)).mpr (hclear (hrepo hsame)).2 }

end Pair

/-- An admitted worker leaves the workers independent exactly when its canonical texts are
    unaliased with those of the workers that are there. -/
theorem admit_keeps_iff {request : Obj} {report : Report} {proposed : Claim} {existing : List Claim}
    (hproposed : parseClaim (proposedOf request) "proposed" = .ok proposed)
    (hexisting : parseClaims (existingOf request) 0 = .ok existing)
    (h : evaluateAdmit request = .ok report) (hallow : report.decision = .allow)
    (hapart : (workers request).Pairwise Apart) :
    Independent (wipLimitOf request) (occupation (proposedOf request) :: workers request) ↔
      ∀ claim ∈ activeClaims existing, Unaliased proposed claim := by
  obtain ⟨proposed', existing', host, hproposed', hexisting', hmin, hdenial⟩ :=
    evaluateAdmit_allow h hallow
  obtain rfl := Except.ok.inj (hproposed.symm.trans hproposed')
  obtain rfl := Except.ok.inj (hexisting.symm.trans hexisting')
  obtain ⟨hids, hroom, hpassed⟩ := denial_none hdenial
  have hreads := Reads.filter (parseClaims_reads hexisting)
  have hlimit : ((occupation (proposedOf request) :: workers request).length : ℤ) ≤
      wipLimitOf request := by
    rw [List.length_cons, workers, List.length_map, hreads.length_eq]
    rcases hroom with hnone | hroom
    · simpa [hnone] using hmin
    · push_cast
      omega
  -- the workers that occupy something are the active claims, one by one
  have hpair : (∀ w ∈ workers request, Apart (occupation (proposedOf request)) w) ↔
      ∀ claim ∈ activeClaims existing, Unaliased proposed claim := by
    rw [workers, List.forall_mem_map]
    refine (forall_mem_iff hreads.flip fun claim hclaim raw hread => ?_).symm
    have hid := hids claim (List.mem_of_mem_filter hclaim)
    exact (apart_iff (parseClaim_reads hproposed) hread (hpassed claim hclaim) hid).symm
  rw [Independent, List.pairwise_cons, hpair]
  exact ⟨fun hkeep => hkeep.1.1, fun hclear => ⟨⟨hclear, hapart⟩, hlimit⟩⟩

/-! ### Samples -/

/-- A claim of revision 1 on `worktree`, which owns one path. -/
def sampleClaim (claimId workstream worktree path : String) : Json :=
  .obj [("claim_id", .str claimId), ("repository", .str "o/r"), ("workstream", .str workstream),
    ("intent_revision", .int 1), ("worktree", .str worktree), ("owned_paths", .arr [.str path])]

/-- Beside a worker on `/tmp/wt` that owns the path `held`, another one is proposed. -/
def sampleRequest (held worktree path : String) : Obj :=
  [("proposed", sampleClaim "c2" "ws2" worktree path),
    ("existing_claims", .arr [sampleClaim "c1" "ws1" "/tmp/wt" held]),
    ("host_resource", .obj [("result", .str "PASS"), ("exit_code", .int 0)]), ("wip_limit", .int 2)]

/-- The report for a second worker on paths of its own. -/
def sampleReport : Report :=
  allow "proposed worker is independent under claim/worktree/resource facts"
    [("PROPOSED_CLAIM_ID", "c2"), ("ACTIVE_CLAIM_COUNT", "1"), ("WIP_LIMIT", "2"),
      ("HOST_RESOURCE_RESULT", "PASS")]

/-- A claim as it is read from the sample. -/
def parsedClaim (claimId workstream worktree path : String) : Claim :=
  ⟨claimId, "o/r", workstream, 1, worktree, [path], .claimed, none, false, false, false⟩

theorem sample_apart (held worktree path : String) :
    (workers (sampleRequest held worktree path)).Pairwise Apart := by
  have hone : existingOf (sampleRequest held worktree path) =
      [sampleClaim "c1" "ws1" "/tmp/wt" held] := rfl
  rw [workers, hone, List.filter_singleton]
  cases occupies (sampleClaim "c1" "ws1" "/tmp/wt" held) <;> simp

theorem admit_keeps_sample :
    Independent 2 (occupation (proposedOf (sampleRequest "src/a" "/tmp/x/../y" "src/b")) ::
      workers (sampleRequest "src/a" "/tmp/x/../y" "src/b")) := by
  have hproposed : parseClaim (proposedOf (sampleRequest "src/a" "/tmp/x/../y" "src/b"))
      "proposed" = .ok (parsedClaim "c2" "ws2" "/tmp/y" "src/b") := by decide +kernel
  have hexisting : parseClaims (existingOf (sampleRequest "src/a" "/tmp/x/../y" "src/b")) 0 =
      .ok [parsedClaim "c1" "ws1" "/tmp/wt" "src/a"] := by decide +kernel
  have hallow : evaluateAdmit (sampleRequest "src/a" "/tmp/x/../y" "src/b") =
      .ok sampleReport := by decide +kernel
  refine (admit_keeps_iff hproposed hexisting hallow rfl (sample_apart _ _ _)).mpr ?_
  intro claim hclaim _
  obtain rfl := List.mem_singleton.mp (List.mem_of_mem_filter hclaim)
  refine ⟨by unfold SlashTwin; decide, ?_⟩
  simp only [parsedClaim, List.forall_mem_singleton, Hidden]
  decide

/-- With a second slash in front, a second worker gets the worktree of the first. -/
theorem second_slash_shares :
    evaluateAdmit (sampleRequest "src/a" "//tmp/wt" "src/b") = .ok sampleReport ∧
      (workers (sampleRequest "src/a" "//tmp/wt" "src/b")).Pairwise Apart ∧
      ¬ Independent 2 (occupation (proposedOf (sampleRequest "src/a" "//tmp/wt" "src/b")) ::
        workers (sampleRequest "src/a" "//tmp/wt" "src/b")) := by
  refine ⟨by decide +kernel, sample_apart _ _ _, fun hind => ?_⟩
  have hapart := (List.pairwise_cons.mp hind.1).1
    (occupation (sampleClaim "c1" "ws1" "/tmp/wt" "src/a")) (by exact List.mem_singleton.mpr rfl)
  exact hapart.worktree rfl (by decide +kernel)

/-- A directory whose name ends with a space is taken for another one. -/
example : evaluateAdmit (sampleRequest "src/a /x" "/tmp/other" "src/a /.") = .ok sampleReport := by
  decide +kernel

end DataRelay.Tools.Admission
