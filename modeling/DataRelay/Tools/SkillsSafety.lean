import DataRelay.Lib.JsonWellFormed
import DataRelay.Tools.SkillsMerge

/-! What an `ALLOW` of `authorize` rests on.

    Whatever the repository, the files and the environment hold, an `ALLOW` goes back to two documents
    that the host's trust anchor verifies. They name each other, the anchor, the request and a
    registered tool, and the classes of the tool are permitted by the default profile that the
    binding names: the contract of the repository cannot add to it. -/

namespace DataRelay.Tools.Skills
open Lib
open Watch (sha256Hex)
open Host (canonicalRequestSha256 isText)

/-! ### Permissions -/

/-- A profile permits the classes, those that it requires approval for being approved. -/
structure Permits (p : Profile) (approved classes : Finset String) : Prop where
  allowed : classes ⊆ p.allowed
  approval : ∀ c ∈ classes, c ∈ p.requireApproval → c ∈ approved

/-- What a narrower profile permits is permitted. -/
theorem Permits.widen {p d : Profile} {approved classes : Finset String}
    (h : Permits p approved classes) (hn : p.Narrows d) : Permits d approved classes :=
  ⟨h.allowed.trans hn.1, fun c hc hr => h.approval c hc (hn.2.2 hr)⟩

theorem evaluateClasses_allowed (p : Profile) (approved : Finset String) (cs : List String) :
    (evaluateClasses p approved cs).allowed = true ↔
      ∀ c ∈ cs, c ∈ p.allowed ∧ (c ∈ p.requireApproval → c ∈ approved) := by
  induction cs with
  | nil => simp [evaluateClasses, Decision.allow]
  | cons c cs ih =>
    -- a class that is allowed is not denied, so the order of the tests does not matter
    have hdenied : c ∈ p.allowed → c ∉ p.denied := fun ha => Finset.disjoint_left.mp p.apart ha
    rw [evaluateClasses, List.forall_mem_cons]
    split
    · next hbad =>
      simp only [Decision.deny, Bool.false_eq_true, false_iff, not_and]
      exact fun hc => absurd hbad (by simp [hc.1, hdenied hc.1])
    · next hgood =>
      obtain ⟨-, ha⟩ := not_or.mp hgood
      split
      · next hreq =>
        simp only [Decision.deny, Bool.false_eq_true, false_iff, not_and]
        exact fun hc => absurd (hc.2 hreq.1) hreq.2
      · next hok =>
        rw [ih]
        exact ⟨fun h => ⟨⟨not_not.mp ha, fun hr => by_contra fun hn => hok ⟨hr, hn⟩⟩, h⟩, And.right⟩

theorem permits_iff {p : Profile} {approved classes : Finset String} :
    (evaluateClasses p approved (sorted classes)).allowed = true ↔ Permits p approved classes := by
  simp only [evaluateClasses_allowed, sorted, Finset.mem_sort]
  exact ⟨fun h => ⟨fun c hc => (h c hc).1, fun c hc => (h c hc).2⟩,
    fun h c hc => ⟨h.allowed hc, h.approval c hc⟩⟩

/-- The authority of a session: a collaborator, or a production approver at the one tool for it. -/
def HasBasis (session : SessionBinding) (tool : String) : Prop :=
  (session.authorityBasis = collaboratorBasis ∧
    session.authorityPermission ∈ authorizedPermissions) ∨
  (session.authorityBasis = productionApproverBasis ∧ tool = "shell.production_write")

/-- An action that is allowed is permitted by a profile that narrows the default of its name. -/
theorem evaluateAction_allowed {session : SessionBinding} {request : ActionRequest} {ps : Profiles}
    {digest : String} (h : (evaluateAction session request ps digest).allowed = true) :
    HasBasis session request.toolId ∧
      defaultToolRegistry.get? request.toolId = some request.classes ∧
      ∃ p, ps.entries.get? session.profile = some p ∧
        Permits p session.approvedClasses request.classes := by
  unfold evaluateAction at h
  dsimp only at h
  split at h
  · cases h
  split at h
  · cases h
  next hauthority =>
  split at h
  · cases h
  next happrover =>
  split at h
  · cases h
  next p hp =>
  split at h
  · cases h
  next registered hregistered =>
  split at h
  · cases h
  next hclasses =>
  split at h
  · cases h
  refine ⟨?_, ?_, p, hp, permits_iff.mp h⟩
  · -- one of the two bases holds, or the first test would have refused
    by_cases hc : session.authorityBasis = collaboratorBasis ∧
        session.authorityPermission ∈ authorizedPermissions
    · exact .inl hc
    by_cases ha : session.authorityBasis = productionApproverBasis ∧
        session.authorityPermission = productionApprover
    · exact .inr ⟨ha.1, by simpa [ha] using happrover⟩
    · exact absurd (by simp [hc, ha]) hauthority
  · rw [hregistered, not_not.mp hclasses]

/-! ### Signed documents -/

theorem isText_iff {value : Json} {text : String} : isText value text = true ↔ value = .str text := by
  cases value <;> simp [isText]

/-- The document without its signature. -/
def unsigned (payload : Obj) : Obj := payload.filter fun e => e.1 ≠ "signature"

theorem get?_unsigned (payload : Obj) {key : String} (h : key ≠ "signature") :
    (Json.obj (unsigned payload)).get? key = (Json.obj payload).get? key := by
  simp only [Json.get?, unsigned, List.find?_filter]
  congr 2
  funext e
  by_cases he : e.1 = key
  · simp [he, h]
  · simp [he]

theorem field_unsigned (payload : Obj) {key : String} (h : key ≠ "signature") :
    field (unsigned payload) key = field payload key := by
  rw [field, field, get?_unsigned payload h]

theorem fieldD_unsigned (payload : Obj) {key : String} (default : Json) (h : key ≠ "signature") :
    fieldD (unsigned payload) key default = fieldD payload key default := by
  rw [fieldD, fieldD, get?_unsigned payload h]

theorem wf_unsigned {payload : Obj} (h : Json.WF (.obj payload)) : Json.WF (.obj (unsigned payload)) := by
  rw [Json.WF, Json.WFFields_iff] at h ⊢
  exact ⟨h.1.sublist (List.filter_sublist.map Prod.fst),
    fun e he => h.2 e (List.mem_filter.mp he).1⟩

/-- The anchor verifies a signature of the document. -/
def Signed (anchor : Anchor) (document : Obj) : Prop :=
  Json.WF (.obj document) ∧
    ∃ signature, anchor.verify (Json.dumps (.obj document)) signature = true

/-- The file holds the document, beside a signature of it that the anchor verifies. -/
structure Asserted (anchor : Anchor) (file : AssertionFile) (document : Obj) : Prop where
  signed : Signed anchor document
  held : ∃ payload, verified anchor file = .ok payload ∧ document = unsigned payload

theorem verified_ok {anchor : Anchor} {file : AssertionFile} {payload : Obj}
    (h : verified anchor file = .ok payload) : Asserted anchor file (unsigned payload) := by
  refine ⟨?_, payload, h, rfl⟩
  unfold verified at h
  split at h
  · next p hp =>
    cases h
    unfold verifySignedJson at hp
    split at hp
    · cases hp
    · cases hp
    · split at hp
      · cases hp
      · next payload' hload =>
        obtain ⟨-, hp⟩ := guard_ok.mp hp
        obtain ⟨hverify, hp⟩ := guard_ok.mp hp
        cases hp
        exact ⟨wf_unsigned (Json.wf_of_loads hload), pyStr (field payload "signature"),
          by simpa [canonicalPayload, unsigned] using hverify⟩
      · cases hp
  · split at h <;> cases h

theorem orAbort_ok {α : Type} {x : Except Abort α} {a : α} : orAbort x = .ok a ↔ x = .ok a := by
  cases x <;> simp [orAbort]

/-! ### What is granted -/

/-- The binding is of a collaborator who may write, or of a production approver at the one tool and
    the one profile for it. -/
def HasAuthority (binding : Obj) (tool : String) : Prop :=
  normalizePermission (field binding "authority_permission") ∈ authorizedPermissions ∨
    normalizePermission (field binding "authority_permission") = productionApprover ∧
      tool = "shell.production_write" ∧ strOrEmpty (field binding "profile") = "production_write"

/-- A binding and a dispatch grant a request, for a registered tool and its classes. -/
structure Grant (anchor : Anchor) (binding dispatch request : Obj) (tool : String)
    (classes : Finset String) : Prop where
  anchorBinding : field binding "public_key_sha256" = .str anchor.sha256
  anchorDispatch : field dispatch "binding_public_key_sha256" = .str anchor.sha256
  forBinding : field dispatch "binding_sha256" = .str (sha256Hex (Json.dumps (.obj binding)))
  forRequest : field dispatch "request_sha256" = .str (canonicalRequestSha256 request)
  forTool : strOrEmpty (field dispatch "tool_id") = tool
  registered : defaultToolRegistry.get? tool = some classes
  authority : HasAuthority binding tool
  permits : ∃ d approved,
    defaultProfiles.get? (strOrEmpty (field binding "profile")) = some d ∧
      normalizeClasses (fieldD binding "approved_classes" (.arr [])) = some approved ∧
        Permits d approved classes

/-- The dispatch has a high risk: the binding names the worktree, the work and the session it is for,
    and its time is not over. -/
structure HighRisk (sight : Sight) (binding dispatch request : Obj) (dispatchId : String) :
    Prop where
  id : field dispatch "dispatch_id" = .str dispatchId ∧ strip dispatchId ≠ ""
  live : ∃ expires, asInt (field dispatch "expires_at_unix") = some expires ∧ sight.now < expires
  scope : ∃ scope parsed, field binding "scope" = .obj scope ∧ parseScope scope = some parsed ∧
    sight.atRoot parsed.worktree = .ok true ∧ parsed.matchesRequest request = true ∧
      field dispatch "session_id" = .str parsed.sessionId ∧
        field dispatch "scope_sha256" = .str (canonicalRequestSha256 scope)

theorem HighRisk.unsigned {sight : Sight} {binding dispatch request : Obj} {id : String}
    (h : HighRisk sight binding dispatch request id) :
    HighRisk sight (unsigned binding) (unsigned dispatch) request id := by
  obtain ⟨hid, hlive, hscope⟩ := h
  constructor <;> simp only [field_unsigned, ne_eq, String.reduceEq, not_false_eq_true]
  · exact hid
  · exact hlive
  · exact hscope

theorem checkAssertions_ok {anchor : Anchor} {binding dispatch request : Obj}
    (h : checkAssertions anchor binding dispatch request = .ok ()) :
    field binding "public_key_sha256" = .str anchor.sha256 ∧
      field dispatch "binding_public_key_sha256" = .str anchor.sha256 ∧
      field dispatch "binding_sha256" = .str (signedPayloadSha256 binding) ∧
      field dispatch "request_sha256" = .str (canonicalRequestSha256 request) := by
  unfold checkAssertions at h
  obtain ⟨hbinding, h⟩ := check_ok.mp h
  obtain ⟨hdispatch, h⟩ := check_ok.mp h
  obtain ⟨hbound, h⟩ := check_ok.mp h
  obtain ⟨hrequest, -⟩ := guard_ok.mp h
  simp only [Bool.not_eq_true', Bool.not_eq_false, isText_iff] at hbinding hdispatch hbound hrequest
  exact ⟨hbinding, hdispatch, hbound, hrequest⟩

theorem highRiskScopeProblem_none {atRoot : String → Except Abort Bool}
    {binding dispatch request : Obj}
    (h : highRiskScopeProblem atRoot binding dispatch request = .ok none) :
    ∃ scope parsed, field binding "scope" = .obj scope ∧ parseScope scope = some parsed ∧
      atRoot parsed.worktree = .ok true ∧ parsed.matchesRequest request = true ∧
        field dispatch "session_id" = .str parsed.sessionId ∧
          field dispatch "scope_sha256" = .str (canonicalRequestSha256 scope) := by
  unfold highRiskScopeProblem at h
  split at h
  · -- past all the problems, each test has gone the other way
    next scope hscope =>
    split at h
    · cases h
    split at h
    · cases h
    next parsed hparsed =>
    obtain ⟨there, hthere, h⟩ := bind_ok.mp h
    split at h
    · cases h
    next hroot =>
    split at h
    · cases h
    next hmatches =>
    split at h
    · cases h
    next hsession =>
    split at h
    · cases h
    next hsha =>
    simp only [Bool.not_eq_true', Bool.not_eq_false, isText_iff] at hroot hmatches hsession hsha
    exact ⟨scope, parsed, hscope, hparsed, by rw [hthere, hroot], hmatches, hsession, hsha⟩
  · cases h

theorem highRiskDispatch_ok {sight : Sight} {binding dispatch request : Obj} {dispatchId : String}
    (h : highRiskDispatch sight binding dispatch request = .ok dispatchId) :
    HighRisk sight binding dispatch request dispatchId := by
  unfold highRiskDispatch at h
  obtain ⟨problem, hscope, h⟩ := bind_ok.mp h
  dsimp only at h
  split at h
  · cases h
  split at h
  · next dispatchId' expires hid hexpires =>
    obtain ⟨hcomplete, h⟩ := check_ok.mp h
    obtain ⟨hlive, h⟩ := check_ok.mp h
    cases h
    exact ⟨⟨hid, fun he => hcomplete (.inl he)⟩, ⟨expires, hexpires, not_le.mp hlive⟩,
      highRiskScopeProblem_none (orAbort_ok.mp hscope)⟩
  · cases h

theorem trustedPermission_ok {profile basis granted : String} {permission : Json}
    (h : trustedPermission profile basis permission = .ok granted) :
    (basis = collaboratorBasis ∧ normalizePermission permission ∈ authorizedPermissions) ∨
      (basis = productionApproverBasis ∧ normalizePermission permission = productionApprover ∧
        profile = "production_write") := by
  unfold trustedPermission at h
  split at h
  · next hbasis =>
    refine .inl ⟨hbasis, ?_⟩
    unfold authorizeAuthorPermission at h
    dsimp only at h
    split at h
    · next hmem => exact hmem
    · cases h
  split at h
  · next hbasis => exact .inr hbasis
  · cases h

theorem bindSession_ok {profile basis digest key expected : String} {permission approved : Json}
    {ps : Profiles} {session : SessionBinding}
    (h : bindSession profile permission basis digest approved ps expected key = .ok session) :
    session.profile = profile ∧
      ((session.authorityBasis = collaboratorBasis ∧
          normalizePermission permission ∈ authorizedPermissions) ∨
        (session.authorityBasis = productionApproverBasis ∧
          normalizePermission permission = productionApprover ∧ profile = "production_write")) ∧
      normalizeClasses approved = some session.approvedClasses := by
  unfold bindSession at h
  obtain ⟨permission', hpermission, h⟩ := bind_ok.mp h
  obtain ⟨-, h⟩ := check_ok.mp h
  obtain ⟨-, h⟩ := check_ok.mp h
  split at h
  · cases h
  next classes hclasses =>
  obtain ⟨-, h⟩ := check_ok.mp h
  obtain ⟨-, h⟩ := check_ok.mp h
  cases h
  exact ⟨rfl, trustedPermission_ok hpermission, hclasses⟩

theorem sorted_injective {s t : Finset String} (h : sorted s = sorted t) : s = t := by
  have heq := congrArg List.toFinset h
  simpa [sorted] using heq

/-- The contract in force, which has the digest that both documents name, permits the classes. -/
structure InForce (repo : Repository) (binding dispatch : Obj) (classes : Finset String)
    (ps : Profiles) (digest : String) : Prop where
  load : loadEffectiveState repo = .ok (ps, digest)
  policyBinding : field binding "policy_digest" = .str digest
  policyDispatch : field dispatch "policy_digest" = .str digest
  permits : ∃ p approved, ps.entries.get? (strOrEmpty (field binding "profile")) = some p ∧
    normalizeClasses (fieldD binding "approved_classes" (.arr [])) = some approved ∧
      Permits p approved classes

theorem checkAction_ok {sight : Sight} {binding dispatch : Obj} {classes : Finset String}
    (h : checkAction sight binding dispatch classes = .ok ()) :
    defaultToolRegistry.get? (strOrEmpty (field dispatch "tool_id")) = some classes ∧
      HasAuthority binding (strOrEmpty (field dispatch "tool_id")) ∧
      ∃ ps digest, InForce sight.repository binding dispatch classes ps digest := by
  unfold checkAction at h
  obtain ⟨⟨ps, digest⟩, hload, h⟩ := bind_ok.mp h
  obtain ⟨hbinding, h⟩ := check_ok.mp h
  obtain ⟨hdispatch, h⟩ := check_ok.mp h
  obtain ⟨session, hsession, h⟩ := bind_ok.mp h
  obtain ⟨request, hrequest, h⟩ := bind_ok.mp h
  obtain ⟨hsorted, h⟩ := check_ok.mp h
  obtain ⟨hallowed, -⟩ := guard_ok.mp h
  simp only [Bool.not_eq_true', Bool.not_eq_false, isText_iff] at hbinding hdispatch hallowed
  obtain ⟨hprofile, hauthority, happroved⟩ := bindSession_ok (orAbort_ok.mp hsession)
  obtain ⟨hhas, hregistered, p, hp, hpermits⟩ := evaluateAction_allowed hallowed
  have hclasses := sorted_injective (not_not.mp hsorted)
  have htool : strOrEmpty (field dispatch "tool_id") = request.toolId := by
    have hreq := orAbort_ok.mp hrequest
    unfold actionRequestForTool at hreq
    split at hreq
    · cases hreq
    · cases hreq
      rfl
  rw [hclasses] at hregistered hpermits
  refine ⟨htool ▸ hregistered, ?_, ps, digest, orAbort_ok.mp hload, hbinding, hdispatch, p, _,
    hprofile ▸ hp, happroved, hpermits⟩
  rcases hauthority with ⟨-, hmem⟩ | ⟨hbasis, happrover, hwrite⟩
  · exact .inl hmem
  · -- the session and the action name the same basis of authority
    rcases hhas with ⟨hbasis', -⟩ | ⟨-, htool'⟩
    · rw [hbasis] at hbasis'
      exact absurd hbasis' (by decide)
    · exact .inr ⟨happrover, htool.trans htool', hwrite⟩

/-- What a run that comes to an `ALLOW` has read. -/
theorem allow_read {sight : Sight} {read : Except Stop Obj} {dispatchId : Option String}
    (h : authorizeCheck sight read = .ok dispatchId) :
    ∃ anchor binding dispatch request classes, sight.anchor = some anchor ∧
      read = .ok request ∧ Asserted anchor sight.binding (unsigned binding) ∧
      Asserted anchor sight.dispatch (unsigned dispatch) ∧
      checkAssertions anchor binding dispatch request = .ok () ∧
      dispatchToConsume sight binding dispatch request classes = .ok dispatchId ∧
      checkAction sight binding dispatch classes = .ok () := by
  unfold authorizeCheck at h
  obtain ⟨-, h⟩ := check_ok.mp h
  split at h
  · cases h
  next anchor hanchor =>
  obtain ⟨request, hrequest, h⟩ := bind_ok.mp h
  split at h
  · cases h
  · cases h
  obtain ⟨binding, hbinding, h⟩ := bind_ok.mp h
  obtain ⟨dispatch, hdispatch, h⟩ := bind_ok.mp h
  obtain ⟨⟨⟩, hassertions, h⟩ := bind_ok.mp h
  obtain ⟨classes, -, h⟩ := bind_ok.mp h
  obtain ⟨id, hid, h⟩ := bind_ok.mp h
  obtain ⟨⟨⟩, haction, h⟩ := bind_ok.mp h
  cases h
  exact ⟨anchor, binding, dispatch, request, classes, hanchor, hrequest, verified_ok hbinding,
    verified_ok hdispatch, hassertions, hid, haction⟩

theorem dispatchToConsume_ok {sight : Sight} {binding dispatch request : Obj}
    {classes : Finset String} {dispatchId : Option String}
    (h : dispatchToConsume sight binding dispatch request classes = .ok dispatchId) :
    (dispatchId = none ∧ Disjoint classes highRiskClasses) ∨
      ∃ id, dispatchId = some id ∧ HighRisk sight binding dispatch request id := by
  unfold dispatchToConsume at h
  split at h
  · next hempty =>
    cases h
    exact .inl ⟨rfl, Finset.disjoint_iff_inter_eq_empty.mpr hempty⟩
  · cases hrisk : highRiskDispatch sight binding dispatch request with
    | error e =>
      rw [hrisk] at h
      cases h
    | ok id =>
      rw [hrisk] at h
      cases h
      exact .inr ⟨id, rfl, highRiskDispatch_ok hrisk⟩

/-- What an `ALLOW` rests on, up to the consumption of its dispatch. -/
theorem allow_grant {sight : Sight} {read : Except Stop Obj} {dispatchId : Option String}
    (h : authorizeCheck sight read = .ok dispatchId) :
    ∃ anchor binding dispatch request tool classes, sight.anchor = some anchor ∧
      read = .ok request ∧ Asserted anchor sight.binding binding ∧
      Asserted anchor sight.dispatch dispatch ∧
      Grant anchor binding dispatch request tool classes ∧
      ((dispatchId = none ∧ Disjoint classes highRiskClasses) ∨
        ∃ id, dispatchId = some id ∧ HighRisk sight binding dispatch request id) ∧
      ∃ ps digest, InForce sight.repository binding dispatch classes ps digest := by
  obtain ⟨anchor, binding, dispatch, request, classes, hanchor, hrequest, hbinding, hdispatch,
    hassertions, hid, haction⟩ := allow_read h
  obtain ⟨hregistered, hauthority, ps, digest, hload, hpb, hpd, p, approved, hp, happroved,
    hpermits⟩ := checkAction_ok haction
  obtain ⟨hb, hd, hbound, hrequested⟩ := checkAssertions_ok hassertions
  obtain ⟨d, hd', hn⟩ := ps.narrow _ p hp
  have hrisk : (dispatchId = none ∧ Disjoint classes highRiskClasses) ∨ ∃ id,
      dispatchId = some id ∧ HighRisk sight (unsigned binding) (unsigned dispatch) request id :=
    (dispatchToConsume_ok hid).imp_right fun ⟨id, he, hrisk⟩ => ⟨id, he, hrisk.unsigned⟩
  refine ⟨anchor, unsigned binding, unsigned dispatch, request, _, classes, hanchor, hrequest,
    hbinding, hdispatch, ⟨?_, ?_, ?_, ?_, rfl, ?_, ?_, ?_⟩, hrisk, ps, digest, hload, ?_, ?_, ?_⟩
  all_goals simp only [HasAuthority, fieldD_unsigned, field_unsigned, ne_eq, String.reduceEq,
    not_false_eq_true]
  · exact hb
  · exact hd
  · exact hbound
  · exact hrequested
  · exact hregistered
  · exact hauthority
  · exact ⟨d, approved, hd', happroved, hpermits.widen hn⟩
  · exact hpb
  · exact hpd
  · exact ⟨p, approved, hp, happroved, hpermits⟩

/-- A run of `authorize` allows behind its checks, and behind a consumption that was answered `ok` if
    it is to consume. -/
theorem authorize_allows {sight : Sight} {read : Except Stop Obj} {consumeReplay : Bool}
    {calls : List ((c : Dispatch.Call) × c.Answer)}
    (h : (authorize sight read consumeReplay).Returns calls (.ok .allow)) :
    ∃ dispatchId, authorizeCheck sight read = .ok dispatchId ∧ (consumeReplay = true →
      ∀ id, dispatchId = some id → (Dispatch.consumeDispatchOnce id).Returns calls .ok) := by
  unfold authorize at h
  cases hcheck : authorizeCheck sight read with
  | error e =>
    rw [hcheck] at h
    cases e with
    | denied reason => cases h
    | aborted e => cases h
  | ok dispatchId =>
    refine ⟨dispatchId, rfl, fun hconsume id hid => ?_⟩
    subst hconsume hid
    rw [hcheck] at h
    obtain ⟨calls₁, calls₂, reply, rfl, hreply, hrest⟩ := Prog.Returns.of_bind h
    -- only an `ok` is turned into an `ALLOW`, and no call comes behind it
    cases reply <;> cases hrest
    simpa using hreply

/-- Whatever its calls are answered, an `ALLOW` of `authorize` goes back to two documents that the
    anchor of the host verifies. Whatever the repository holds, they grant the request a registered
    tool whose classes the default profile permits; with a high risk they are for this place and time
    and name a dispatch, which `consume_dispatch_once` has consumed if the run is to consume. -/
theorem allow_sound {sight : Sight} {read : Except Stop Obj} {consumeReplay : Bool}
    {calls : List ((c : Dispatch.Call) × c.Answer)}
    (h : (authorize sight read consumeReplay).Returns calls (.ok .allow)) :
    ∃ anchor binding dispatch request tool classes dispatchId, sight.anchor = some anchor ∧
      read = .ok request ∧ authorizeCheck sight read = .ok dispatchId ∧
      Asserted anchor sight.binding binding ∧ Asserted anchor sight.dispatch dispatch ∧
      Grant anchor binding dispatch request tool classes ∧
      ((dispatchId = none ∧ Disjoint classes highRiskClasses) ∨
        ∃ id, dispatchId = some id ∧ HighRisk sight binding dispatch request id) ∧
      (consumeReplay = true → ∀ id, dispatchId = some id →
        (Dispatch.consumeDispatchOnce id).Returns calls .ok) := by
  obtain ⟨dispatchId, hcheck, hconsumed⟩ := authorize_allows h
  obtain ⟨anchor, binding, dispatch, request, tool, classes, hanchor, hrequest, hbinding,
    hdispatch, hgrant, hrisk, -⟩ := allow_grant hcheck
  exact ⟨anchor, binding, dispatch, request, tool, classes, dispatchId, hanchor, hrequest, hcheck,
    hbinding, hdispatch, hgrant, hrisk, hconsumed⟩

/-! ### A write to the network -/

/-- A file of the text of a document whose signature the anchor verifies. -/
theorem verified_text {anchor : Anchor} {payload : Obj} (hwf : Json.WF (.obj payload))
    (hsigned : has payload "signature" = true)
    (hverify : anchor.verify (canonicalPayload payload) (pyStr (field payload "signature")) = true) :
    verified anchor (.content (Json.text (.obj payload))) = .ok payload := by
  simp only [verified, verifySignedJson, Json.loads_text hwf, hsigned, hverify, Bool.not_true,
    Bool.false_eq_true, if_false]

/-- A repository whose contract leaves the profiles as they are. -/
def sampleRepository : Repository where
  first := .loaded (.obj [("skills", .arr [])])
  second := .loaded (.obj [("skills", .arr [])])
  schemaFindings _ := .ok []
  resolved _ := .ok .missing

/-- What the policy digest of this repository is of. -/
def samplePayload : Json :=
  .obj [("hooks_executable", .bool false), ("resources_executable", .bool false),
    ("scripts_grant_execution", .bool false),
    ("hooks", .obj (hookNames.map fun name => (name, .arr []))),
    ("profiles", .obj (published .default)), ("skills", .arr []),
    ("tools", .obj (defaultToolRegistry.items.map fun e => (e.1, strings (sorted e.2))))]

/-- The policy digest of this repository. -/
def sampleDigest : String := sha256Hex (Json.dumps samplePayload)

theorem sample_load : loadEffectiveState sampleRepository = .ok (.default, sampleDigest) := by
  have hpayload : contractAuthorityPayload .default (some [("skills", .arr [])]) =
      .ok samplePayload := rfl
  have hdigest : policyDigest .default (some [("skills", .arr [])]) = .ok sampleDigest := by
    rw [policyDigest, hpayload]
    rfl
  have hreport : checkContract sampleRepository = (do
      let digest ← policyDigest .default (some [("skills", .arr [])])
      return ⟨true, true, digest, some .default, []⟩) := rfl
  rw [loadEffectiveState, hreport, hdigest]
  rfl

/-- The place, the work and the session that the dispatch is for. -/
def sampleScope : Obj :=
  [("target_repo", .str "o/r"), ("worktree", .str "/w"), ("workstream", .str "w"),
    ("branch", .str "b"), ("subject_head", .str "aaaaaaaaaaaaaaaaaaaaaaaaaaaaaaaaaaaaaaaa"),
    ("intent_revision", .int 1), ("session_id", .str "s")]

/-- A request from this place. -/
def sampleRequest : Obj :=
  [("target_repo", .str "o/r"), ("workstream", .str "w"), ("branch", .str "b"),
    ("subject_head", .str "aaaaaaaaaaaaaaaaaaaaaaaaaaaaaaaaaaaaaaaa"), ("intent_revision", .int 1)]

/-- The digest of the anchor's file. -/
def sampleKey : String := "bbbbbbbbbbbbbbbbbbbbbbbbbbbbbbbbbbbbbbbbbbbbbbbbbbbbbbbbbbbbbbbb"

/-- A binding for a collaborator who may write, approved for `external_write`. -/
def sampleBinding : Obj :=
  [("public_key_sha256", .str sampleKey), ("policy_digest", .str sampleDigest),
    ("profile", .str "external_write"), ("authority_permission", .str "write"),
    ("approved_classes", strings ["external_write"]), ("scope", .obj sampleScope),
    ("signature", .str "s")]

/-- A dispatch of `network.post` for the request, up to time 100. -/
def sampleDispatch : Obj :=
  [("binding_public_key_sha256", .str sampleKey),
    ("binding_sha256", .str (signedPayloadSha256 sampleBinding)),
    ("request_sha256", .str (canonicalRequestSha256 sampleRequest)),
    ("policy_digest", .str sampleDigest), ("tool_id", .str "network.post"),
    ("classes", strings ["external_write", "network"]), ("dispatch_id", .str "d"),
    ("expires_at_unix", .int 100), ("session_id", .str "s"),
    ("scope_sha256", .str (canonicalRequestSha256 sampleScope)), ("signature", .str "t")]

/-- The anchor verifies one signature of each of the two documents. -/
def sampleAnchor : Anchor where
  verify payload signature :=
    payload = canonicalPayload sampleBinding ∧ signature = "s" ∨
      payload = canonicalPayload sampleDispatch ∧ signature = "t"
  sha256 := sampleKey

/-- The two documents, seen from the worktree of the scope before the dispatch expires. -/
def sampleSight : Sight where
  linux := true
  verifierReady := true
  anchor := some sampleAnchor
  binding := .content (Json.text (.obj sampleBinding))
  dispatch := .content (Json.text (.obj sampleDispatch))
  atRoot worktree := .ok (worktree = "/w")
  now := 50
  repository := sampleRepository

theorem sample_binding : verified sampleAnchor sampleSight.binding = .ok sampleBinding :=
  verified_text
    (by simp [sampleBinding, sampleScope, strings, Json.WF, Json.WFFields, Json.WFItems]) rfl
    (by simp [sampleAnchor, sampleBinding, field, pyStr, Json.get?])

theorem sample_dispatch : verified sampleAnchor sampleSight.dispatch = .ok sampleDispatch :=
  verified_text (by simp [sampleDispatch, strings, Json.WF, Json.WFFields, Json.WFItems]) rfl
    (by simp [sampleAnchor, sampleDispatch, field, pyStr, Json.get?])

theorem sample_assertions :
    checkAssertions sampleAnchor sampleBinding sampleDispatch sampleRequest = .ok () := by
  have htext : ∀ text : String, ¬ (!isText (.str text) text) = true := by simp [isText]
  unfold checkAssertions
  exact check_ok.mpr ⟨htext sampleKey, check_ok.mpr ⟨htext sampleKey,
    check_ok.mpr ⟨htext (signedPayloadSha256 sampleBinding),
      guard_ok.mpr ⟨htext (canonicalRequestSha256 sampleRequest), rfl⟩⟩⟩⟩

/-- The dispatch is for this worktree, session and request, and is consumed under its id. -/
theorem sample_risk : dispatchToConsume sampleSight sampleBinding sampleDispatch sampleRequest
    {"external_write", "network"} = .ok (some "d") := by
  have hkeys : keySet sampleScope = authorityScopeKeys := by decide +kernel
  have hparsed : parseScope sampleScope = some
      ⟨"o/r", "/w", "w", "b", "aaaaaaaaaaaaaaaaaaaaaaaaaaaaaaaaaaaaaaaa", 1, "s"⟩ := by
    decide +kernel
  have hscope : field sampleBinding "scope" = .obj sampleScope := rfl
  have hdigest : field sampleDispatch "scope_sha256" =
      .str (canonicalRequestSha256 sampleScope) := rfl
  have hproblem : highRiskScopeProblem sampleSight.atRoot sampleBinding sampleDispatch
      sampleRequest = .ok none := by
    simp only [highRiskScopeProblem, hscope, hkeys, hparsed, hdigest, ne_eq, not_true, if_false]
    simp [isText]
    rfl
  rw [dispatchToConsume, if_neg (by decide +kernel), highRiskDispatch, hproblem]
  rfl

/-- The session of a collaborator who may write, and has the approval for `external_write`. -/
def sampleSession : SessionBinding :=
  ⟨"external_write", sampleDigest, "write", collaboratorBasis, {"external_write"}⟩

theorem sample_session : bindSession "external_write" (.str "write") collaboratorBasis sampleDigest
    (strings ["external_write"]) .default sampleDigest sampleKey = .ok sampleSession := by
  have hpermission : trustedPermission "external_write" (lower (strip collaboratorBasis))
      (.str "write") = .ok "write" := by decide +kernel
  have hprofile : (Profiles.default.entries.get? "external_write").isNone = false := by
    decide +kernel
  have happroved : normalizeClasses (strings ["external_write"]) = some {"external_write"} := by
    decide +kernel
  have hclasses : ({"external_write"} : Finset String) ⊆ actionClasses := by decide +kernel
  have hkey : sampleKey.toList.length = 64 := by decide +kernel
  unfold bindSession
  refine bind_ok.mpr ⟨_, hpermission, check_ok.mpr ⟨by simp [hprofile], check_ok.mpr ⟨by simp, ?_⟩⟩⟩
  rw [happroved]
  exact check_ok.mpr ⟨not_not.mpr hclasses, check_ok.mpr ⟨not_not.mpr hkey, rfl⟩⟩

theorem sample_decision : (evaluateAction sampleSession
    ⟨"network.post", {"network", "external_write"}⟩ .default sampleDigest).allowed = true := by
  have hprofile : ∃ p, Profiles.default.entries.get? "external_write" = some p ∧
      Permits p {"external_write"} {"network", "external_write"} :=
    ⟨_, rfl, by decide +kernel, by decide +kernel⟩
  obtain ⟨p, hp, hpermits⟩ := hprofile
  have hregistered : defaultToolRegistry.get? "network.post" = some {"network", "external_write"} :=
    rfl
  have hempty : ({"network", "external_write"} : Finset String) ≠ ∅ := by decide +kernel
  have hwrite : "write" ∈ authorizedPermissions := by decide +kernel
  unfold evaluateAction
  simp [sampleSession, hp, hregistered, hempty, hwrite, permits_iff.mpr hpermits,
    collaboratorBasis, productionApproverBasis]

theorem sample_action :
    checkAction sampleSight sampleBinding sampleDispatch {"external_write", "network"} = .ok () := by
  have hclasses : ({"network", "external_write"} : Finset String) = {"external_write", "network"} :=
    Finset.pair_comm _ _
  have hrequest : actionRequestForTool (strOrEmpty (field sampleDispatch "tool_id")) =
      .ok ⟨"network.post", {"network", "external_write"}⟩ := rfl
  have hnull : strOrEmpty .null = "" := rfl
  unfold checkAction
  refine bind_ok.mpr ⟨_, orAbort_ok.mpr sample_load, check_ok.mpr ⟨?_, check_ok.mpr ⟨?_, ?_⟩⟩⟩
  · simp [isText, field, Json.get?, sampleBinding]
  · simp [isText, field, Json.get?, sampleDispatch]
  refine bind_ok.mpr ⟨sampleSession, orAbort_ok.mpr ?_,
    bind_ok.mpr ⟨_, orAbort_ok.mpr hrequest, check_ok.mpr ⟨?_, guard_ok.mpr ⟨?_, rfl⟩⟩⟩⟩
  · simpa [sampleBinding, field, fieldD, strOrEmpty_str, hnull, orStr, Json.get?]
      using sample_session
  · exact not_not.mpr (congrArg sorted hclasses)
  · simp [sample_decision]

theorem sample_check : authorizeCheck sampleSight (.ok sampleRequest) = .ok (some "d") := by
  have hclasses : dispatchClasses sampleDispatch = .ok {"external_write", "network"} := by
    decide +kernel
  unfold authorizeCheck
  refine check_ok.mpr ⟨by decide, bind_ok.mpr ⟨sampleRequest, rfl, ?_⟩⟩
  exact bind_ok.mpr ⟨_, sample_binding, bind_ok.mpr ⟨_, sample_dispatch,
    bind_ok.mpr ⟨_, sample_assertions, bind_ok.mpr ⟨_, hclasses,
      bind_ok.mpr ⟨_, sample_risk, bind_ok.mpr ⟨_, sample_action, rfl⟩⟩⟩⟩⟩⟩

/-- A host without a marker of the dispatch, where every call succeeds. -/
def freshHost : (c : Dispatch.Call) → c.Answer
  | .ready => true
  | .existsLegacy _ | .existsMarker _ => false
  | .read _ => .ok []
  | .write .. => .done
  | .openExcl _ | .openRead _ | .openWrite _ | .flock _ | .truncate _ | .fsync _ | .close _ => .ok ()

theorem sample_returns :
    ∃ calls, (authorize sampleSight (.ok sampleRequest) true).Returns calls (.ok .allow) := by
  have hallow : ((authorize sampleSight (.ok sampleRequest) true).replay freshHost).2 =
      .ok .allow := by
    rw [authorize, sample_check]
    decide +kernel
  have hreturns := Prog.returns_replay freshHost (authorize sampleSight (.ok sampleRequest) true)
  rw [hallow] at hreturns
  exact ⟨_, hreturns⟩

/-- The request of the sample is allowed, and its dispatch `d` consumed. -/
theorem allow_sound_sample : ∃ calls,
    (authorize sampleSight (.ok sampleRequest) true).Returns calls (.ok .allow) ∧
      (Dispatch.consumeDispatchOnce "d").Returns calls .ok ∧
      ∃ anchor binding dispatch tool classes,
        Grant anchor binding dispatch sampleRequest tool classes ∧
          HighRisk sampleSight binding dispatch sampleRequest "d" := by
  obtain ⟨calls, hreturns⟩ := sample_returns
  obtain ⟨anchor, binding, dispatch, request, tool, classes, dispatchId, -, hread, hcheck, -, -,
    hgrant, hrisk, hconsumed⟩ := allow_sound hreturns
  rw [sample_check] at hcheck
  cases hcheck
  cases hread
  refine ⟨calls, hreturns, hconsumed rfl "d" rfl, anchor, binding, dispatch, tool, classes, hgrant, ?_⟩
  rcases hrisk with ⟨hnone, -⟩ | ⟨id, hsome, hrisk⟩
  · cases hnone
  · cases hsome
    exact hrisk

end DataRelay.Tools.Skills
