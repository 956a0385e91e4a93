import DataRelay.Tools.SkillsSafety

/-! The policy that a binding was signed for.

    A digest names its profiles: two contracts with one policy digest have the same profiles in
    force, or their texts collide. So an `ALLOW` is permitted by the contract that the digest of its
    binding was computed from, however the repository was edited since, provided that the two looks
    of the run see one contract. -/

namespace DataRelay.Tools.Skills
open Lib
open Watch (sha256Hex)
open Host (canonicalRequestSha256 isText)

/-! ### What a digest is of -/

theorem wf_strings (texts : List String) : Json.WF (strings texts) := by
  have hitems : ∀ texts : List String, Json.WFItems (texts.map .str) := by
    intro texts
    induction texts with
    | nil => simp [Json.WFItems]
    | cons t ts ih => simpa [Json.WFItems, Json.WF] using ih
  rw [strings, Json.WF]
  exact hitems texts

theorem wfItems_iff : ∀ vs : List Json, Json.WFItems vs ↔ ∀ v ∈ vs, Json.WF v
  | [] => by simp [Json.WFItems]
  | v :: vs => by simp [Json.WFItems, wfItems_iff vs]

theorem wf_field {fields : Obj} (h : Json.WF (.obj fields)) (key : String) :
    Json.WF (field fields key) := by
  rw [Json.WF, Json.WFFields_iff] at h
  cases hfind : fields.find? (·.1 = key) with
  | none => simp [field, Json.get?, hfind, Json.WF]
  | some e => simpa [field, Json.get?, hfind] using h.2 e (List.mem_of_find?_eq_some hfind)

theorem wf_iterate {value : Json} (h : Json.WF value) {items : List Json}
    (hi : iterate value = .ok items) : ∀ v ∈ items, Json.WF v := by
  unfold iterate at hi
  split at hi
  · cases hi
    exact fun v hv => by cases hv
  split at hi
  · cases hi
    rw [Json.WF] at h
    exact (wfItems_iff _).mp h
  · cases hi
    intro v hv
    obtain ⟨c, -, rfl⟩ := List.mem_map.mp hv
    simp only [Json.WF]
  · cases hi
    intro v hv
    obtain ⟨e, -, rfl⟩ := List.mem_map.mp hv
    simp only [Json.WF]
  · cases hi

theorem mapM_ok {α β : Type} {f : α → Except Abort β} : ∀ {xs : List α} {ys : List β},
    xs.mapM f = .ok ys → ∀ y ∈ ys, ∃ x ∈ xs, f x = .ok y
  | [], ys, h => by
    cases h
    exact fun y hy => by cases hy
  | x :: xs, ys, h => by
    rw [List.mapM_cons] at h
    obtain ⟨y, hy, h⟩ := bind_ok.mp h
    obtain ⟨ys', hys, h⟩ := bind_ok.mp h
    cases h
    intro y' hy'
    rcases List.mem_cons.mp hy' with rfl | hmem
    · exact ⟨x, List.mem_cons_self, hy⟩
    · obtain ⟨x', hx', hf⟩ := mapM_ok hys y' hmem
      exact ⟨x', List.mem_cons_of_mem _ hx', hf⟩

theorem wf_skillPayload {skill out : Obj} (h : Json.WF (.obj skill))
    (ho : skillPayload skill = .ok out) : Json.WF (.obj out) := by
  unfold skillPayload at ho
  obtain ⟨resources, hr, ho⟩ := bind_ok.mp ho
  obtain ⟨scripts, hs, ho⟩ := bind_ok.mp ho
  cases ho
  have hresources := (wfItems_iff _).mpr (wf_iterate (wf_field h _) hr)
  have hscripts := (wfItems_iff _).mpr (wf_iterate (wf_field h _) hs)
  simp only [Json.WF, Json.WFFields, wf_field h, hresources, hscripts, List.map_cons, List.map_nil,
    and_true]
  simp

theorem wf_hookEntry (item : Json) : Json.WF (hookEntry item) := by
  unfold hookEntry
  split <;> simp [Json.WF, Json.WFFields]

theorem mapM_keys {β : Type} {f : String → Except Abort (String × β)}
    (hf : ∀ x y, f x = .ok y → y.1 = x) : ∀ {xs : List String} {ys : List (String × β)},
      xs.mapM f = .ok ys → ys.map Prod.fst = xs
  | [], ys, h => by
    cases h
    rfl
  | x :: xs, ys, h => by
    rw [List.mapM_cons] at h
    obtain ⟨y, hy, h⟩ := bind_ok.mp h
    obtain ⟨ys', hys, h⟩ := bind_ok.mp h
    cases h
    rw [List.map_cons, hf x y hy, mapM_keys hf hys]

theorem wf_hookPayload {hooks : Json} {out : Obj} (h : hookPayload hooks = .ok out) :
    Json.WF (.obj out) := by
  have hnames : hookNames.Nodup := by decide
  have harr : ∀ items : List Json, Json.WF (.arr (items.map hookEntry)) := by
    intro items
    rw [Json.WF, wfItems_iff]
    intro v hv
    obtain ⟨item, -, rfl⟩ := List.mem_map.mp hv
    exact wf_hookEntry item
  unfold hookPayload at h
  rw [Json.WF, Json.WFFields_iff]
  split at h
  · next fields =>
    have hentry : ∀ name e, (do
        let items ← iterate (field fields name)
        return (name, Json.arr (items.map hookEntry)) : Except Abort (String × Json)) = .ok e →
          e.1 = name ∧ Json.WF e.2 := by
      intro name e he
      obtain ⟨items, -, he⟩ := bind_ok.mp he
      cases he
      exact ⟨rfl, harr items⟩
    refine ⟨?_, fun e he => ?_⟩
    · rw [mapM_keys (fun x y hy => (hentry x y hy).1) h]
      exact hnames
    · obtain ⟨name, -, hname⟩ := mapM_ok h e he
      exact (hentry name e hname).2
  · cases h
    refine ⟨by decide, fun e he => ?_⟩
    obtain ⟨name, -, rfl⟩ := List.mem_map.mp he
    exact harr []

theorem wf_public (p : Profile) : Json.WF (profileToPublic p) := by
  simp [profileToPublic, Json.WF, Json.WFFields, wf_strings]

theorem keys_published (ps : Profiles) : (published ps).map Prod.fst = ps.entries.keys := by
  rw [published, List.map_map]
  rfl

theorem wf_published (ps : Profiles) : Json.WF (.obj (published ps)) := by
  rw [Json.WF, Json.WFFields_iff, keys_published]
  refine ⟨ps.entries.nodup, fun e he => ?_⟩
  obtain ⟨e', -, rfl⟩ := List.mem_map.mp he
  exact wf_public e'.2

/-- What is digested of well-formed contracts is well formed, and holds the profiles. -/
theorem wf_payload {ps : Profiles} {contract : Option Obj} {payload : Json}
    (hwf : ∀ c, contract = some c → Json.WF (.obj c))
    (h : contractAuthorityPayload ps contract = .ok payload) : ∃ fields, payload = .obj fields ∧
      Json.WF (.obj fields) ∧ (Json.obj fields).get? "profiles" = some (.obj (published ps)) := by
  have hloaded : Json.WF (.obj (contract.getD [])) := by
    cases contract with
    | none => simp [Json.WF, Json.WFFields]
    | some c => exact hwf c rfl
  unfold contractAuthorityPayload at h
  dsimp only at h
  obtain ⟨items, hitems, h⟩ := bind_ok.mp h
  obtain ⟨skills, hskills, h⟩ := bind_ok.mp h
  obtain ⟨hooks, hhooks, h⟩ := bind_ok.mp h
  cases h
  have hskill : ∀ skill ∈ skills, Json.WF (.obj skill) := by
    intro skill hmem
    obtain ⟨item, hitem, hskill⟩ := mapM_ok hskills skill hmem
    obtain ⟨v, hv, hobj⟩ := List.mem_filterMap.mp hitem
    have hvwf := wf_iterate (wf_field hloaded _) hitems v hv
    split at hobj
    · cases hobj
      exact wf_skillPayload hvwf hskill
    · cases hobj
  refine ⟨_, rfl, ?_, ?_⟩
  · -- sorting by id changes the order and not the items
    have hbyId : ∀ skill : Obj, skill ∈ skills.insertionSort (fun a b =>
        strOrEmpty (field a "id") ≤ strOrEmpty (field b "id")) → Json.WF (.obj skill) :=
      fun skill hmem => hskill skill ((List.mem_insertionSort _).mp hmem)
    have htools : Json.WF (.obj (defaultToolRegistry.items.map fun e =>
        (e.1, strings (sorted e.2)))) := by
      rw [Json.WF, Json.WFFields_iff, List.map_map]
      refine ⟨defaultToolRegistry.nodup, fun e he => ?_⟩
      obtain ⟨e', -, rfl⟩ := List.mem_map.mp he
      exact wf_strings _
    have hskills' : Json.WFItems ((skills.insertionSort (fun a b =>
        strOrEmpty (field a "id") ≤ strOrEmpty (field b "id"))).map Json.obj) := by
      rw [wfItems_iff]
      intro v hv
      obtain ⟨skill, hmem, rfl⟩ := List.mem_map.mp hv
      exact hbyId skill hmem
    have hpublished := wf_published ps
    have hhooks' := wf_hookPayload hhooks
    rw [published] at hpublished
    rw [Json.WF, Json.WFFields_iff]
    refine ⟨by simp, ?_⟩
    simp only [List.mem_cons, List.not_mem_nil, or_false, forall_eq_or_imp, forall_eq]
    refine ⟨?_, ?_, ?_, hhooks', hpublished, ?_, htools⟩
    · simp only [Json.WF]
    · simp only [Json.WF]
    · simp only [Json.WF]
    · rw [Json.WF]
      exact hskills'
  · simp [Json.get?, List.find?, published]

theorem sortKeys_strings (texts : List String) : Json.sortKeys (strings texts) = strings texts := by
  have hitems : ∀ texts : List String, Json.sortItems (texts.map .str) = texts.map .str := by
    intro texts
    induction texts with
    | nil => simp [Json.sortItems]
    | cons t ts ih => simp [Json.sortItems, Json.sortKeys, ih]
  simp [strings, Json.sortKeys, hitems]

theorem strings_injective {a b : List String} (h : strings a = strings b) : a = b := by
  simp only [strings, Json.arr.injEq] at h
  exact List.map_injective_iff.mpr (fun _ _ hs => by simpa using hs) h

/-- A published profile is told by its text. -/
theorem public_injective {p q : Profile}
    (h : Json.sortKeys (profileToPublic p) = Json.sortKeys (profileToPublic q)) : p = q := by
  have hfield : ∀ r : Profile, ∀ key, (Json.sortKeys (profileToPublic r)).get? key =
      ((profileToPublic r).get? key).map Json.sortKeys := by
    intro r key
    rw [profileToPublic, Json.get?_sortKeys (by simp)]
  have hsame : ∀ key, ((profileToPublic p).get? key).map Json.sortKeys =
      ((profileToPublic q).get? key).map Json.sortKeys := by
    intro key
    rw [← hfield, ← hfield, h]
  have hallowed := hsame "allowed"
  have hdenied := hsame "denied"
  have happroval := hsame "require_approval"
  simp only [profileToPublic, Json.get?, List.find?, decide_true, decide_false, String.reduceEq,
    Option.map_some, sortKeys_strings, Option.some.injEq] at hallowed hdenied happroval
  exact Profile.ext (sorted_injective (strings_injective hallowed))
    (sorted_injective (strings_injective hdenied)) (sorted_injective (strings_injective happroval))

/-- Contracts of one digested text have the same profiles in force. -/
theorem policy_pinned {ps ps' : Profiles} {contract contract' : Option Obj} {payload payload' : Json}
    (hwf : ∀ c, contract = some c → Json.WF (.obj c))
    (hwf' : ∀ c, contract' = some c → Json.WF (.obj c))
    (h : contractAuthorityPayload ps contract = .ok payload)
    (h' : contractAuthorityPayload ps' contract' = .ok payload')
    (htext : Json.dumps payload = Json.dumps payload') :
    ∀ name, ps.entries.get? name = ps'.entries.get? name := by
  obtain ⟨fields, rfl, hfields, hprofiles⟩ := wf_payload hwf h
  obtain ⟨fields', rfl, hfields', hprofiles'⟩ := wf_payload hwf' h'
  have hsame := Json.get?_of_dumps hfields hfields' htext "profiles"
  rw [hprofiles, hprofiles', Option.map_some, Option.map_some, Option.some.injEq] at hsame
  have hlookup : ∀ (qs : Profiles) (name : String),
      (Json.sortKeys (.obj (published qs))).get? name =
        (qs.entries.get? name).map fun p => Json.sortKeys (profileToPublic p) := by
    intro qs name
    have hnodup : ((published qs).map Prod.fst).Nodup := by
      rw [keys_published]
      exact qs.entries.nodup
    rw [Json.get?_sortKeys hnodup]
    ext v
    simp only [Option.map_eq_some_iff, Json.get?_obj_iff hnodup, mem_published]
    constructor
    · rintro ⟨w, ⟨p, hp, rfl⟩, rfl⟩
      exact ⟨p, hp, rfl⟩
    · rintro ⟨p, hp, rfl⟩
      exact ⟨_, ⟨p, hp, rfl⟩, rfl⟩
  intro name
  have hname := hlookup ps name
  rw [hsame, hlookup ps' name] at hname
  cases hp : ps.entries.get? name with
  | none => simpa [hp, eq_comm] using hname
  | some p =>
    cases hp' : ps'.entries.get? name with
    | none => simp [hp, hp'] at hname
    | some p' =>
      rw [hp, hp', Option.map_some, Option.map_some, Option.some.injEq] at hname
      rw [public_injective hname]

/-! ### One contract at both looks -/

theorem policyDigest_ok {ps : Profiles} {contract : Option Obj} {digest : String}
    (h : policyDigest ps contract = .ok digest) : ∃ payload,
      contractAuthorityPayload ps contract = .ok payload ∧
        digest = sha256Hex (Json.dumps payload) := by
  unfold policyDigest at h
  obtain ⟨payload, hp, h⟩ := bind_ok.mp h
  cases h
  exact ⟨payload, hp, rfl⟩

def profilesOf (contract : Option Obj) : Profiles :=
  (mergeProfiles (field (contract.getD []) "profiles")).1

theorem documentFindings_nil {repo : Repository} {schema : List Finding} {document : Json}
    {ps : Profiles} (h : documentFindings repo schema document = .ok ([], ps)) :
    ps = profilesOf (contractOf (.loaded document)) := by
  unfold documentFindings at h
  split at h
  · split at h
    · unfold contractFindings at h
      obtain ⟨paths, -, h⟩ := bind_ok.mp h
      simp only [pure, Except.pure, Except.ok.injEq, Prod.mk.injEq] at h
      exact h.2.symm
    · next hschema =>
      simp only [Except.ok.injEq, Prod.mk.injEq] at h
      exact absurd h.1 hschema
  · next hobj =>
    simp only [Except.ok.injEq, Prod.mk.injEq] at h
    have hnone : contractOf (.loaded document) = none := by
      unfold contractOf
      split
      · next heq =>
        cases heq
        exact absurd rfl (hobj _)
      · rfl
    rw [hnone, ← h.2]
    rfl

/-- What `check_contract` passes is digested with the profiles that its contract makes. -/
theorem checkContract_pass {repo : Repository} {report : ContractReport}
    (h : checkContract repo = .ok report) (hpass : report.pass = true) :
    policyDigest (profilesOf (contractOf repo.first)) (contractOf repo.first) =
      .ok report.policyDigest := by
  unfold checkContract at h
  split at h
  · next hfirst =>
    obtain ⟨digest, hdigest, h⟩ := bind_ok.mp h
    cases h
    rw [hfirst]
    exact hdigest
  · cases h
  · cases h
    cases hpass
  · -- a document that differs passes only without findings, and then its profiles are the loaded
    -- ones
    next document hfirst =>
    obtain ⟨schema, -, h⟩ := bind_ok.mp h
    obtain ⟨⟨findings, ps⟩, hfindings, h⟩ := bind_ok.mp h
    dsimp only at h
    split at h
    · next hempty =>
      subst hempty
      obtain ⟨digest, hdigest, h⟩ := bind_ok.mp h
      cases h
      rw [documentFindings_nil hfindings, ← hfirst] at hdigest
      exact hdigest
    · cases h
      cases hpass

theorem loadContractInstance_ok {repo : Repository} {contract : Option Obj}
    (h : loadContractInstance repo = .ok contract) : contract = contractOf repo.second := by
  unfold loadContractInstance at h
  split at h
  · cases h
  · exact (Except.ok.inj h).symm

/-- A repository whose two looks see one contract, with the text that its policy digest is of. -/
structure Steady (repo : Repository) (ps : Profiles) (text : List Char) : Prop where
  looks : repo.first = repo.second
  wf : ∀ c, contractOf repo.first = some c → Json.WF (.obj c)
  load : loadEffectiveState repo = .ok (ps, sha256Hex text)
  text : ∃ payload, contractAuthorityPayload ps (contractOf repo.first) = .ok payload ∧
    text = Json.dumps payload

/-- Two looks at one contract put its profiles in force, under the digest of their text. -/
theorem Steady.of_load {repo : Repository} {ps : Profiles} {digest : String}
    (h : loadEffectiveState repo = .ok (ps, digest)) (hlooks : repo.first = repo.second)
    (hwf : ∀ c, contractOf repo.first = some c → Json.WF (.obj c)) :
    ∃ text, digest = sha256Hex text ∧ Steady repo ps text := by
  have hload := h
  unfold loadEffectiveState at h
  obtain ⟨report, hreport, h⟩ := bind_ok.mp h
  obtain ⟨hpass, h⟩ := check_ok.mp h
  obtain ⟨contract, hcontract, h⟩ := bind_ok.mp h
  obtain ⟨-, h⟩ := check_ok.mp h
  cases h
  -- the digest is of the first look, the profiles are of the second
  have hdigest := checkContract_pass hreport (by simpa using hpass)
  obtain ⟨payload, hpayload, htext⟩ := policyDigest_ok hdigest
  have hsame : profilesOf (contractOf repo.first) = profilesOf contract := by
    rw [loadContractInstance_ok hcontract, ← hlooks]
  rw [htext] at hload
  rw [hsame] at hpayload
  exact ⟨_, htext, hlooks, hwf, hload, payload, hpayload, rfl⟩

/-- Steady repositories of one text have the same profiles in force. -/
theorem Steady.pinned {repo repo' : Repository} {ps ps' : Profiles} {text text' : List Char}
    (h : Steady repo ps text) (h' : Steady repo' ps' text') (htext : text = text') (name : String) :
    ps.entries.get? name = ps'.entries.get? name := by
  obtain ⟨payload, hpayload, rfl⟩ := h.text
  obtain ⟨payload', hpayload', rfl⟩ := h'.text
  exact policy_pinned h.wf h'.wf hpayload hpayload' htext name

/-- An `ALLOW` in a repository whose contract does not change under it is permitted by the contract
    that the digest of its binding was computed from, wherever that was, unless the digested texts of
    the two contracts are a collision. -/
theorem allow_pinned {sight : Sight} {read : Except Stop Obj} {consumeReplay : Bool}
    {calls : List ((c : Dispatch.Call) × c.Answer)}
    (h : (authorize sight read consumeReplay).Returns calls (.ok .allow)) :
    ∃ anchor binding dispatch request tool classes, sight.anchor = some anchor ∧
      Asserted anchor sight.binding binding ∧ Asserted anchor sight.dispatch dispatch ∧
      Grant anchor binding dispatch request tool classes ∧
      ∀ ps text, Steady sight.repository ps text → ∀ trusted ps' text',
        Steady trusted ps' text' → (sha256Hex text = sha256Hex text' → text = text') →
        field binding "policy_digest" = .str (sha256Hex text') →
          ∃ p approved, ps'.entries.get? (strOrEmpty (field binding "profile")) = some p ∧
            normalizeClasses (fieldD binding "approved_classes" (.arr [])) = some approved ∧
            Permits p approved classes := by
  obtain ⟨dispatchId, hcheck, -⟩ := authorize_allows h
  obtain ⟨anchor, binding, dispatch, request, tool, classes, hanchor, -, hbinding, hdispatch,
    hgrant, -, ps, digest, hforce⟩ := allow_grant hcheck
  refine ⟨anchor, binding, dispatch, request, tool, classes, hanchor, hbinding, hdispatch, hgrant,
    fun ps₁ text hsteady trusted ps' text' htrusted hcollision hdigest => ?_⟩
  have hload := hsteady.load.symm.trans hforce.load
  simp only [Except.ok.injEq, Prod.mk.injEq] at hload
  obtain ⟨rfl, rfl⟩ := hload
  have hsame : sha256Hex text = sha256Hex text' := by
    have hboth := hforce.policyBinding.symm.trans hdigest
    simpa using hboth
  obtain ⟨p, approved, hp, happroved, hpermits⟩ := hforce.permits
  rw [hsteady.pinned htrusted (hcollision hsame)] at hp
  exact ⟨p, approved, hp, happroved, hpermits⟩

/-- The write of the sample is permitted by the contract that its binding was signed for. -/
theorem allow_pinned_sample : ∃ text p approved, Steady sampleRepository .default text ∧
    Profiles.default.entries.get? "external_write" = some p ∧
      normalizeClasses (fieldD (unsigned sampleBinding) "approved_classes" (.arr [])) =
        some approved ∧ Permits p approved {"network", "external_write"} := by
  obtain ⟨text, hdigest, hsteady⟩ := Steady.of_load sample_load rfl (by
    rintro c ⟨⟩
    simp [Json.WF, Json.WFFields, Json.WFItems])
  obtain ⟨calls, hreturns⟩ := sample_returns
  obtain ⟨anchor, binding, dispatch, request, tool, classes, hanchor, hbinding, hdispatch, hgrant,
    hpinned⟩ := allow_pinned hreturns
  cases hanchor
  obtain ⟨-, payload, hpayload, rfl⟩ := hbinding
  rw [sample_binding] at hpayload
  cases hpayload
  obtain ⟨-, payload, hpayload, rfl⟩ := hdispatch
  rw [sample_dispatch] at hpayload
  cases hpayload
  have hname : field (unsigned sampleBinding) "profile" = .str "external_write" := rfl
  have hbound : field (unsigned sampleBinding) "policy_digest" = .str (sha256Hex text) := by
    rw [← hdigest]
    rfl
  have hclasses : classes = {"network", "external_write"} := by
    have hregistered := hgrant.registered
    rw [← hgrant.forTool] at hregistered
    exact (Option.some.inj hregistered).symm
  obtain ⟨p, approved, hp, happroved, hpermits⟩ :=
    hpinned _ _ hsteady _ _ _ hsteady (fun _ => rfl) hbound
  rw [hname, strOrEmpty_str] at hp
  rw [hclasses] at hpermits
  exact ⟨text, p, approved, hsteady, hp, happroved, hpermits⟩

end DataRelay.Tools.Skills
