import DataRelay.Tools.Gates

/-! Facts that are left out. A document that says less opens no gate by what it lacks, except where
    the value that stands for a missing fact is a permissive one: no failure, no ambiguous mutation,
    no stale worker, no blocked resource, no refused budget, no pull request, nothing to wait for, no
    rollout gate, and a risk that needs no audit. -/

namespace DataRelay.Tools.Coordinator
open Lib

/-! ### Deleting facts -/

/-- Every field of `q` is a field of `p`. -/
def Within (q p : Obj) : Prop :=
  ∀ key value, (Json.obj q).get? key = some value → (Json.obj p).get? key = some value

/-- `data'` is `data` without some of its sections, and without some fields of those it keeps. -/
def Deletion (data data' : Obj) : Prop :=
  ∀ key value', (Json.obj data').get? key = some value' →
    ∃ value, (Json.obj data).get? key = some value ∧
      (value' = value ∨ ∃ p q, value = .obj p ∧ value' = .obj q ∧ Within q p)

/-- A section without the fields that are not kept. -/
def keepFields (keep : String → Bool) : Json → Json
  | .obj fields => .obj (fields.filter fun f => keep f.1)
  | value => value

/-- The document without the sections and the fields that are not kept. -/
def keepFacts (keepSection : String → Bool) (keepField : String → String → Bool) (data : Obj) :
    Obj :=
  (data.filter fun e => keepSection e.1).map fun e => (e.1, keepFields (keepField e.1) e.2)

theorem get?_filter (keep : String → Bool) (data : Obj) (key : String) :
    (Json.obj (data.filter fun e => keep e.1)).get? key =
      if keep key then (Json.obj data).get? key else none := by
  have hcond : (fun e : String × Json => decide (keep e.1 = true ∧ decide (e.1 = key) = true)) =
      fun e => keep key && decide (e.1 = key) := by
    funext e
    by_cases h : e.1 = key <;> simp [h]
  rw [Json.get?, List.find?_filter, hcond]
  cases keep key <;> simp [Json.get?]

theorem get?_map (f : String → Json → Json) (data : Obj) (key : String) :
    (Json.obj (data.map fun e => (e.1, f e.1 e.2))).get? key =
      ((Json.obj data).get? key).map (f key) := by
  simp only [Json.get?, List.find?_map, Function.comp_def, Option.map_map]
  cases h : data.find? fun e => decide (e.1 = key) with
  | none => rfl
  | some e =>
    have hkey : e.1 = key := by simpa using List.find?_some h
    simp [hkey]

theorem within_filter (keep : String → Bool) (p : Obj) : Within (p.filter fun e => keep e.1) p := by
  intro key value h
  rw [get?_filter] at h
  split at h
  · exact h
  · cases h

/-- Whatever is not kept, the document that is left is one with facts deleted. -/
theorem deletion_keepFacts (keepSection : String → Bool) (keepField : String → String → Bool)
    (data : Obj) : Deletion data (keepFacts keepSection keepField data) := by
  intro key value' h
  rw [keepFacts, get?_map (fun k => keepFields (keepField k)), get?_filter] at h
  split at h
  · obtain ⟨value, hvalue, rfl⟩ := Option.map_eq_some_iff.mp h
    refine ⟨value, hvalue, ?_⟩
    cases value with
    | obj fields => exact .inr ⟨fields, _, rfl, rfl, within_filter _ _⟩
    | _ => exact .inl rfl
  · cases h

variable {data data' : Obj} {key : String}

theorem optionalMapping_ok {o : Option Obj} :
    optionalMapping data key = .ok o ↔
      (o = none ∧ (Json.obj data).get? key = none) ∨
        ∃ fields, o = some fields ∧ (Json.obj data).get? key = some (.obj fields) := by
  unfold optionalMapping has field
  cases h : (Json.obj data).get? key with
  | none => simp [eq_comm]
  | some value =>
    cases value <;> simp [requireMapping, Tools.requireMapping, Except.map, eq_comm]

/-- A section of the smaller document is missing, or it says nothing that the section of the larger
    one does not. -/
theorem Deletion.section {α : Type} {parse : Option Obj → Except ToolError α} {a b : α}
    (h : Deletion data data') (ha : parsed data key parse = .ok a)
    (hb : parsed data' key parse = .ok b) :
    parse none = .ok b ∨
      ∃ p q, Within q p ∧ parse (some p) = .ok a ∧ parse (some q) = .ok b := by
  obtain ⟨o, ho, ha⟩ := bind_ok.mp ha
  obtain ⟨o', ho', hb⟩ := bind_ok.mp hb
  rcases optionalMapping_ok.mp ho' with ⟨rfl, -⟩ | ⟨q, rfl, hq⟩
  · exact .inl hb
  right
  obtain ⟨value, hvalue, hsame⟩ := h key _ hq
  rcases optionalMapping_ok.mp ho with ⟨rfl, hnone⟩ | ⟨p, rfl, hp⟩
  · rw [hvalue] at hnone
    cases hnone
  rw [hp] at hvalue
  obtain rfl := Option.some.inj hvalue
  rcases hsame with hsame | ⟨p', q', hp', hq', hw⟩
  · cases hsame
    exact ⟨q, q, fun _ _ h => h, ha, hb⟩
  · cases hp'
    cases hq'
    exact ⟨p, q, hw, ha, hb⟩

/-! ### Single fields -/

section fields
variable {α : Type} {p q : Obj} {a b : α}

/-- A field that is read with a default. -/
theorem Within.readD (h : Within q p) {default : Json} (read : Json → Except ToolError α)
    (ha : read (fieldD p key default) = .ok a) (hb : read (fieldD q key default) = .ok b) :
    b = a ∨ read default = .ok b := by
  unfold fieldD at ha hb
  cases hq : (Json.obj q).get? key with
  | none =>
    rw [hq] at hb
    exact .inr hb
  | some value =>
    rw [hq] at hb
    rw [h key value hq] at ha
    exact .inl (Except.ok.inj (hb.symm.trans ha))

/-- A field that has to be there. -/
theorem Within.readField (h : Within q p) (read : Json → Except ToolError α)
    (ha : read (field p key) = .ok a) (hb : read (field q key) = .ok b)
    (hnull : ∀ c, read .null ≠ .ok c) : b = a :=
  (h.readD read ha hb).resolve_right (hnull b)

theorem Within.present (h : Within q p) {default : α} {read : Json → Except ToolError α}
    (ha : ifPresent p key default read = .ok a) (hb : ifPresent q key default read = .ok b) :
    b = a ∨ b = default := by
  unfold ifPresent has field at ha hb
  cases hq : (Json.obj q).get? key with
  | none =>
    rw [hq] at hb
    exact .inr (Except.ok.inj hb).symm
  | some value =>
    rw [hq] at hb
    rw [h key value hq] at ha
    exact .inl (Except.ok.inj (hb.symm.trans ha))

theorem Within.value (h : Within q p) {read : Json → Except ToolError α} {a b : Option α}
    (ha : ifValue p key read = .ok a) (hb : ifValue q key read = .ok b) : b = a ∨ b = none := by
  unfold ifValue field at ha hb
  cases hq : (Json.obj q).get? key with
  | none =>
    rw [hq] at hb
    exact .inr (Except.ok.inj hb).symm
  | some value =>
    rw [hq] at hb
    rw [h key value hq] at ha
    exact .inl (Except.ok.inj (hb.symm.trans ha))

end fields

/-! ### What the smaller document says -/

/-- A fact of the smaller document: the one of the larger, or the one that stands for a missing
    fact. -/
def Kept {α : Type} (default a b : α) : Prop := b = a ∨ b = default

/-- The facts of the smaller document, as far as a gate can rest on them. -/
structure Thinner (p q : Facts) : Prop where
  status : q.packet.status = p.packet.status
  revision : q.packet.intentRevision = p.packet.intentRevision
  dependencies : Kept none p.packet.dependencies q.packet.dependencies
  worker : q.worker.present = true → p.worker.present = true ∧
    p.worker.status = q.worker.status ∧
    p.worker.startingIntentRevision = q.worker.startingIntentRevision ∧
    Kept false p.worker.progressEvidence q.worker.progressEvidence
  head : Kept "UNKNOWN" p.git.head q.git.head
  dirty : Kept none p.git.dirty q.git.dirty
  unpushed : Kept none p.git.unpushed q.git.unpushed
  resource : Kept .unknown p.resource q.resource
  admission : Kept .unknown p.admission.decision q.admission.decision
  audit : Kept .unknown p.publication.coordinatorAudit q.publication.coordinatorAudit
  authorized : Kept none p.publication.authorizedIntentRevision
    q.publication.authorizedIntentRevision
  pr : q.pr.exist = true → p.pr.exist = true ∧ p.pr.state = q.pr.state ∧
    Kept "UNKNOWN" p.pr.head q.pr.head ∧ Kept .unknown p.pr.mergeable q.pr.mergeable
  ci : Kept .unknown p.ci.state q.ci.state
  ciHead : Kept "UNKNOWN" p.ci.subjectHead q.ci.subjectHead
  review : Kept .unknown p.review.state q.review.state
  actionable : Kept none p.review.actionableOpen q.review.actionableOpen
  reviewHead : Kept "UNKNOWN" p.review.subjectHead q.review.subjectHead

/-- The packet as a section. -/
theorem parsed_packet {packet : Packet} (h : parsePacket (field data "packet") = .ok packet) :
    parsed data "packet" (fun o => parsePacket ((o.map Json.obj).getD .null)) = .ok packet := by
  obtain ⟨fields, hfields, -⟩ := bind_ok.mp h
  have hfield : field data "packet" = .obj fields := by
    cases hv : field data "packet" <;> rw [hv] at hfields <;> cases hfields
    rfl
  have hget : (Json.obj data).get? "packet" = some (.obj fields) := by
    unfold field at hfield
    cases hv : (Json.obj data).get? "packet" with
    | none => rw [hv] at hfield; cases hfield
    | some value => rw [hv] at hfield; exact congrArg some hfield
  rw [parsed, optionalMapping_ok.mpr (.inr ⟨fields, rfl, hget⟩)]
  rw [hfield] at h
  exact h

theorem Kept.default {α : Type} {default a : α} : Kept default a default := .inr rfl

theorem Within.enumD {α : Type} {p q : Obj} {key label : String} {all : List α} {name : α → String}
    {a b default : α} {value : Json} (h : Within q p)
    (ha : enum all name (fieldD p key value) label = .ok a)
    (hb : enum all name (fieldD q key value) label = .ok b)
    (hd : enum all name value label = .ok default) : Kept default a b :=
  (h.readD (fun v => enum all name v label) ha hb).imp_right fun hb =>
    Except.ok.inj (hb.symm.trans hd)

theorem Within.enumField {α : Type} {p q : Obj} {key label : String} {all : List α}
    {name : α → String} {a b : α} (h : Within q p)
    (ha : enum all name (field p key) label = .ok a)
    (hb : enum all name (field q key) label = .ok b) : b = a := by
  refine h.readField (fun v => enum all name v label) ha hb fun c hc => ?_
  cases hc

theorem git_kept (h : Deletion data data') {p q : Git} (hp : parsed data "git" parseGit = .ok p)
    (hq : parsed data' "git" parseGit = .ok q) :
    Kept "UNKNOWN" p.head q.head ∧ Kept none p.dirty q.dirty ∧
      Kept none p.unpushed q.unpushed := by
  rcases h.section hp hq with hq | ⟨f, g, hw, hp, hq⟩
  · obtain rfl := Except.ok.inj hq
    exact ⟨.default, .default, .default⟩
  obtain ⟨-, -, hp⟩ := bind_ok.mp hp
  obtain ⟨head, hhead, hp⟩ := bind_ok.mp hp
  obtain ⟨dirty, hdirty, hp⟩ := bind_ok.mp hp
  obtain ⟨unpushed, hunpushed, hp⟩ := bind_ok.mp hp
  obtain ⟨yielded, -, hp⟩ := bind_ok.mp hp
  obtain rfl := Except.ok.inj hp
  obtain ⟨-, -, hq⟩ := bind_ok.mp hq
  obtain ⟨head', hhead', hq⟩ := bind_ok.mp hq
  obtain ⟨dirty', hdirty', hq⟩ := bind_ok.mp hq
  obtain ⟨unpushed', hunpushed', hq⟩ := bind_ok.mp hq
  obtain ⟨yielded', -, hq⟩ := bind_ok.mp hq
  obtain rfl := Except.ok.inj hq
  exact ⟨hw.present hhead hhead', hw.present hdirty hdirty', hw.present hunpushed hunpushed'⟩

theorem resource_kept (h : Deletion data data') {p q : ResourceResult}
    (hp : parsed data "resource" parseResource = .ok p)
    (hq : parsed data' "resource" parseResource = .ok q) : Kept .unknown p q := by
  rcases h.section hp hq with hq | ⟨f, g, hw, hp, hq⟩
  · obtain rfl := Except.ok.inj hq
    exact .default
  obtain ⟨-, -, hp⟩ := bind_ok.mp hp
  obtain ⟨-, -, hq⟩ := bind_ok.mp hq
  exact hw.enumD hp hq rfl

theorem admission_kept (h : Deletion data data') {p q : Admission}
    (hp : parsed data "admission" parseAdmission = .ok p)
    (hq : parsed data' "admission" parseAdmission = .ok q) : Kept .unknown p.decision q.decision := by
  rcases h.section hp hq with hq | ⟨f, g, hw, hp, hq⟩
  · obtain rfl := Except.ok.inj hq
    exact .default
  obtain ⟨-, -, hp⟩ := bind_ok.mp hp
  obtain ⟨decision, hdecision, hp⟩ := bind_ok.mp hp
  obtain ⟨denyClass, -, hp⟩ := bind_ok.mp hp
  obtain rfl := Except.ok.inj hp
  obtain ⟨-, -, hq⟩ := bind_ok.mp hq
  obtain ⟨decision', hdecision', hq⟩ := bind_ok.mp hq
  obtain ⟨denyClass', -, hq⟩ := bind_ok.mp hq
  obtain rfl := Except.ok.inj hq
  exact hw.enumD hdecision hdecision' rfl

theorem publication_kept (h : Deletion data data') {p q : Publication}
    (hp : parsed data "publication" parsePublication = .ok p)
    (hq : parsed data' "publication" parsePublication = .ok q) :
    Kept .unknown p.coordinatorAudit q.coordinatorAudit ∧
      Kept none p.authorizedIntentRevision q.authorizedIntentRevision := by
  rcases h.section hp hq with hq | ⟨f, g, hw, hp, hq⟩
  · obtain rfl := Except.ok.inj hq
    exact ⟨.default, .default⟩
  obtain ⟨-, -, hp⟩ := bind_ok.mp hp
  obtain ⟨audit, haudit, hp⟩ := bind_ok.mp hp
  obtain ⟨authorized, hauthorized, hp⟩ := bind_ok.mp hp
  obtain rfl := Except.ok.inj hp
  obtain ⟨-, -, hq⟩ := bind_ok.mp hq
  obtain ⟨audit', haudit', hq⟩ := bind_ok.mp hq
  obtain ⟨authorized', hauthorized', hq⟩ := bind_ok.mp hq
  obtain rfl := Except.ok.inj hq
  exact ⟨hw.enumD haudit haudit' rfl, hw.value hauthorized hauthorized'⟩

theorem ci_kept (h : Deletion data data') {p q : Ci} (hp : parsed data "ci" parseCi = .ok p)
    (hq : parsed data' "ci" parseCi = .ok q) :
    Kept .unknown p.state q.state ∧ Kept "UNKNOWN" p.subjectHead q.subjectHead := by
  rcases h.section hp hq with hq | ⟨f, g, hw, hp, hq⟩
  · obtain rfl := Except.ok.inj hq
    exact ⟨.default, .default⟩
  obtain ⟨-, -, hp⟩ := bind_ok.mp hp
  obtain ⟨state, hstate, hp⟩ := bind_ok.mp hp
  obtain ⟨subject, hsubject, hp⟩ := bind_ok.mp hp
  obtain rfl := Except.ok.inj hp
  obtain ⟨-, -, hq⟩ := bind_ok.mp hq
  obtain ⟨state', hstate', hq⟩ := bind_ok.mp hq
  obtain ⟨subject', hsubject', hq⟩ := bind_ok.mp hq
  obtain rfl := Except.ok.inj hq
  exact ⟨hw.enumD hstate hstate' rfl, hw.present hsubject hsubject'⟩

theorem review_kept (h : Deletion data data') {p q : Review}
    (hp : parsed data "review" parseReview = .ok p)
    (hq : parsed data' "review" parseReview = .ok q) :
    Kept .unknown p.state q.state ∧ Kept none p.actionableOpen q.actionableOpen ∧
      Kept "UNKNOWN" p.subjectHead q.subjectHead := by
  rcases h.section hp hq with hq | ⟨f, g, hw, hp, hq⟩
  · obtain rfl := Except.ok.inj hq
    exact ⟨.default, .default, .default⟩
  obtain ⟨-, -, hp⟩ := bind_ok.mp hp
  obtain ⟨actionable, hactionable, hp⟩ := bind_ok.mp hp
  obtain ⟨state, hstate, hp⟩ := bind_ok.mp hp
  obtain ⟨subject, hsubject, hp⟩ := bind_ok.mp hp
  obtain rfl := Except.ok.inj hp
  obtain ⟨-, -, hq⟩ := bind_ok.mp hq
  obtain ⟨actionable', hactionable', hq⟩ := bind_ok.mp hq
  obtain ⟨state', hstate', hq⟩ := bind_ok.mp hq
  obtain ⟨subject', hsubject', hq⟩ := bind_ok.mp hq
  obtain rfl := Except.ok.inj hq
  exact ⟨hw.enumD hstate hstate' rfl, hw.present hactionable hactionable',
    hw.present hsubject hsubject'⟩

/-- A pull request that is still on record is the same one. -/
theorem pr_kept (h : Deletion data data') {p q : Pr} (hp : parsed data "pr" parsePr = .ok p)
    (hq : parsed data' "pr" parsePr = .ok q) (hexist : q.exist = true) :
    p.exist = true ∧ p.state = q.state ∧ Kept "UNKNOWN" p.head q.head ∧
      Kept .unknown p.mergeable q.mergeable := by
  rcases h.section hp hq with hq | ⟨f, g, hw, hp, hq⟩
  · obtain rfl := Except.ok.inj hq
    cases hexist
  obtain ⟨-, -, hp⟩ := bind_ok.mp hp
  obtain ⟨exist, hex, hp⟩ := bind_ok.mp hp
  obtain ⟨-, -, hq⟩ := bind_ok.mp hq
  obtain ⟨exist', hex', hq⟩ := bind_ok.mp hq
  obtain rfl := hw.readField (fun v => requireBool v "pr.exists") hex hex' (by simp [requireBool])
  cases exist' with
  | false =>
    obtain ⟨-, hq⟩ := check_ok.mp hq
    obtain rfl := Except.ok.inj hq
    cases hexist
  | true =>
    obtain ⟨state, hstate, hp⟩ := bind_ok.mp hp
    obtain ⟨head, hhead, hp⟩ := bind_ok.mp hp
    obtain ⟨mergeable, hmergeable, hp⟩ := bind_ok.mp hp
    obtain rfl := Except.ok.inj hp
    obtain ⟨state', hstate', hq⟩ := bind_ok.mp hq
    obtain ⟨head', hhead', hq⟩ := bind_ok.mp hq
    obtain ⟨mergeable', hmergeable', hq⟩ := bind_ok.mp hq
    obtain rfl := Except.ok.inj hq
    exact ⟨rfl, congrArg some (hw.enumField hstate hstate').symm, hw.present hhead hhead',
      hw.enumD hmergeable hmergeable' rfl⟩

/-- A worker that is still on record is the same one. -/
theorem worker_kept (h : Deletion data data') {p q : Worker}
    (hp : parsed data "worker" parseWorker = .ok p)
    (hq : parsed data' "worker" parseWorker = .ok q) (hpresent : q.present = true) :
    p.present = true ∧ p.status = q.status ∧
      p.startingIntentRevision = q.startingIntentRevision ∧
      Kept false p.progressEvidence q.progressEvidence := by
  rcases h.section hp hq with hq | ⟨f, g, hw, hp, hq⟩
  · obtain rfl := Except.ok.inj hq
    cases hpresent
  obtain ⟨-, -, hp⟩ := bind_ok.mp hp
  obtain ⟨present, hpres, hp⟩ := bind_ok.mp hp
  obtain ⟨-, -, hq⟩ := bind_ok.mp hq
  obtain ⟨present', hpres', hq⟩ := bind_ok.mp hq
  obtain rfl := hw.readField (fun v => requireBool v "worker.present") hpres hpres'
    (by simp [requireBool])
  cases present' with
  | false =>
    obtain ⟨-, hq⟩ := check_ok.mp hq
    obtain rfl := Except.ok.inj hq
    cases hpresent
  | true =>
    obtain ⟨status, hstatus, hp⟩ := bind_ok.mp hp
    obtain ⟨starting, hstarting, hp⟩ := bind_ok.mp hp
    obtain ⟨progress, hprogress, hp⟩ := bind_ok.mp hp
    obtain rfl := Except.ok.inj hp
    obtain ⟨status', hstatus', hq⟩ := bind_ok.mp hq
    obtain ⟨starting', hstarting', hq⟩ := bind_ok.mp hq
    obtain ⟨progress', hprogress', hq⟩ := bind_ok.mp hq
    obtain rfl := Except.ok.inj hq
    have hstart := hw.readField (fun v => requireInt v "worker.starting_intent_revision" 1) hstarting
      hstarting' (by simp [requireInt])
    exact ⟨rfl, congrArg some (hw.enumField hstatus hstatus').symm, congrArg some hstart.symm,
      hw.present hprogress hprogress'⟩

/-- The packet is a section that cannot be missing. -/
theorem packet_kept (h : Deletion data data') {p q : Packet}
    (hp : parsePacket (field data "packet") = .ok p)
    (hq : parsePacket (field data' "packet") = .ok q) :
    q.status = p.status ∧ q.intentRevision = p.intentRevision ∧
      Kept none p.dependencies q.dependencies := by
  rcases h.section (parsed_packet hp) (parsed_packet hq) with hq | ⟨f, g, hw, hp, hq⟩
  · cases hq
  obtain ⟨_, hf, hp⟩ := bind_ok.mp hp
  obtain rfl := Except.ok.inj hf
  obtain ⟨-, -, hp⟩ := bind_ok.mp hp
  obtain ⟨repo, hrepo, hp⟩ := bind_ok.mp hp
  obtain ⟨-, hp⟩ := check_ok.mp hp
  obtain ⟨ws, hws, hp⟩ := bind_ok.mp hp
  obtain ⟨-, hp⟩ := check_ok.mp hp
  obtain ⟨status, hstatus, hp⟩ := bind_ok.mp hp
  obtain ⟨priority, -, hp⟩ := bind_ok.mp hp
  obtain ⟨risk, -, hp⟩ := bind_ok.mp hp
  obtain ⟨revision, hrevision, hp⟩ := bind_ok.mp hp
  obtain ⟨kind, -, hp⟩ := bind_ok.mp hp
  obtain ⟨deps, hdeps, hp⟩ := bind_ok.mp hp
  obtain rfl := Except.ok.inj hp
  obtain ⟨_, hg, hq⟩ := bind_ok.mp hq
  obtain rfl := Except.ok.inj hg
  obtain ⟨-, -, hq⟩ := bind_ok.mp hq
  obtain ⟨repo', hrepo', hq⟩ := bind_ok.mp hq
  obtain ⟨-, hq⟩ := check_ok.mp hq
  obtain ⟨ws', hws', hq⟩ := bind_ok.mp hq
  obtain ⟨-, hq⟩ := check_ok.mp hq
  obtain ⟨status', hstatus', hq⟩ := bind_ok.mp hq
  obtain ⟨priority', -, hq⟩ := bind_ok.mp hq
  obtain ⟨risk', -, hq⟩ := bind_ok.mp hq
  obtain ⟨revision', hrevision', hq⟩ := bind_ok.mp hq
  obtain ⟨kind', -, hq⟩ := bind_ok.mp hq
  obtain ⟨deps', hdeps', hq⟩ := bind_ok.mp hq
  obtain rfl := Except.ok.inj hq
  exact ⟨hw.enumField hstatus hstatus',
    hw.readField (fun v => requireInt v "packet.intent_revision" 1) hrevision hrevision'
      (by simp [requireInt]),
    hw.present hdeps hdeps'⟩

theorem thinner_of_deletion (h : Deletion data data') {p q : Facts}
    (hp : normalizeFacts data = .ok p) (hq : normalizeFacts data' = .ok q) : Thinner p q := by
  have hsp := normalizeFacts_sections hp
  have hsq := normalizeFacts_sections hq
  obtain ⟨hstatus, hrevision, hdeps⟩ := packet_kept h hsp.packet hsq.packet
  obtain ⟨hhead, hdirty, hunpushed⟩ := git_kept h hsp.git hsq.git
  obtain ⟨haudit, hauthorized⟩ := publication_kept h hsp.publication hsq.publication
  obtain ⟨hci, hciHead⟩ := ci_kept h hsp.ci hsq.ci
  obtain ⟨hreview, hactionable, hreviewHead⟩ := review_kept h hsp.review hsq.review
  exact {
    status := hstatus
    revision := hrevision
    dependencies := hdeps
    worker := worker_kept h hsp.worker hsq.worker
    head := hhead
    dirty := hdirty
    unpushed := hunpushed
    resource := resource_kept h hsp.resource hsq.resource
    admission := admission_kept h hsp.admission hsq.admission
    audit := haudit
    authorized := hauthorized
    pr := pr_kept h hsp.pr hsq.pr
    ci := hci
    ciHead := hciHead
    review := hreview
    actionable := hactionable
    reviewHead := hreviewHead }

/-! ### What was lost -/

/-- A fact of `p` that `q` has lost, and that keeps shut what is open for `q`. -/
inductive Lost (p q : Facts) : Prop
  | stopped : Stopped p → Lost p q
  | rollout : q.pr.exist = true → p.orgRollout = .pending → Lost p q
  | risk : q.pr.exist = true → p.packet.changeRisk ∈ highRisks → auditOk p = false → Lost p q
  | pr : q.pr.exist = false → p.pr.exist = true → Lost p q
  | wait : q.pr.exist = false → p.wait.external = true → Lost p q
  | path : q.pr.exist = false → ¬ (audits p = audits q ∧ implementing p = implementing q) →
      Lost p q

theorem Kept.eq {α : Type} {default a b : α} (h : Kept default a b) (hb : b ≠ default) : a = b :=
  (h.resolve_right hb).symm

theorem implementing_of_audits {facts : Facts} (h : audits facts = true) :
    implementing facts = false := by
  simp only [audits, Bool.or_eq_true, Bool.and_eq_true, Bool.not_eq_true'] at h
  rcases h with ⟨-, h⟩ | h
  · exact h
  · simp [implementing, h]

/-- What is lost to a packet with a pull request. -/
theorem not_lost_published {p q : Facts} (hq : q.pr.exist = true) :
    ¬ Lost p q ↔ ¬ Stopped p ∧ p.orgRollout ≠ .pending ∧
      (p.packet.changeRisk ∈ highRisks → auditOk p = true) := by
  constructor
  · intro hlost
    refine ⟨fun hs => hlost (.stopped hs), fun hr => hlost (.rollout hq hr), fun hrisk => ?_⟩
    by_contra hok
    exact hlost (.risk hq hrisk (by simpa using hok))
  · rintro ⟨hfree, hrollout, haudit⟩ (hs | ⟨-, hr⟩ | ⟨-, hrisk, hok⟩ | ⟨h, -⟩ | ⟨h, -⟩ | ⟨h, -⟩)
    · exact hfree hs
    · exact hrollout hr
    · rw [haudit hrisk] at hok
      cases hok
    all_goals rw [hq] at h; cases h

/-- What is lost to a packet without one. -/
theorem not_lost_unpublished {p q : Facts} (hq : Unpublished q) :
    ¬ Lost p q ↔ ¬ Stopped p ∧ Unpublished p ∧ audits p = audits q ∧
      implementing p = implementing q := by
  constructor
  · -- what `Lost` lists is all that could have made the difference
    intro hlost
    refine ⟨fun hs => hlost (.stopped hs), ⟨?_, ?_⟩, ?_⟩
    · by_contra hpr
      exact hlost (.pr hq.1 (by simpa using hpr))
    · by_contra hwait
      exact hlost (.wait hq.1 (by simpa using hwait))
    · by_contra hpath
      exact hlost (.path hq.1 hpath)
  · rintro ⟨hfree, ⟨hpr, hwait⟩, hpath⟩ (hs | ⟨h, -⟩ | ⟨h, -⟩ | ⟨-, h⟩ | ⟨-, h⟩ | ⟨-, h⟩)
    · exact hfree hs
    · rw [hq.1] at h
      cases h
    · rw [hq.1] at h
      cases h
    · rw [hpr] at h
      cases h
    · rw [hwait] at h
      cases h
    · exact h hpath

section
variable {p q : Facts} (h : Thinner p q)
include h

theorem Thinner.clear (hq : Clear q) : Clear p ↔ ¬ Stopped p := by
  refine ⟨Clear.free, fun hfree => ⟨h.status ▸ hq.active, hfree, ?_⟩⟩
  obtain ⟨deps, hdeps, hcomplete⟩ := dependenciesEligible_yes.mp hq.dependencies
  refine dependenciesEligible_yes.mpr ⟨deps, ?_, hcomplete⟩
  rw [h.dependencies.eq (by simp [hdeps]), hdeps]

theorem Thinner.auditOk (hq : auditOk q = true) : auditOk p = true := by
  simp only [Coordinator.auditOk, Bool.and_eq_true, decide_eq_true_eq] at hq ⊢
  obtain ⟨haudit, hauthorized⟩ := hq
  rw [h.audit.eq (by simp [haudit]), h.authorized.eq (by simp [hauthorized]), ← h.revision]
  exact ⟨haudit, hauthorized⟩

theorem Thinner.mergeReady (hexist : q.pr.exist = true) (hq : MergeReady q) :
    MergeReady p ↔
      p.orgRollout ≠ .pending ∧ (p.packet.changeRisk ∈ highRisks → Coordinator.auditOk p = true) := by
  refine ⟨fun hp => ⟨hp.rollout, hp.audit⟩, fun ⟨hrollout, haudit⟩ => ?_⟩
  obtain ⟨-, hstate, hhead, hmergeable⟩ := h.pr hexist
  have hknown := ne_unknown_of_fullSha hq.sha
  have hsame := hhead.eq hknown
  exact {
    state := hstate ▸ hq.state
    sha := hsame ▸ hq.sha
    gitHead := by rw [h.head.eq (hq.gitHead ▸ hknown), hsame, hq.gitHead]
    ci := by rw [h.ci.eq (by simp [hq.ci]), hq.ci]
    ciHead := by rw [h.ciHead.eq (hq.ciHead ▸ hknown), hsame, hq.ciHead]
    review := by rw [h.review.eq (by simp [hq.review]), hq.review]
    actionable := by rw [h.actionable.eq (by simp [hq.actionable]), hq.actionable]
    reviewHead := by rw [h.reviewHead.eq (hq.reviewHead ▸ hknown), hsame, hq.reviewHead]
    clean := by rw [h.dirty.eq (by simp [hq.clean]), hq.clean]
    pushed := by rw [h.unpushed.eq (by simp [hq.pushed]), hq.pushed]
    rollout := hrollout
    audit := haudit
    mergeable := by rw [hmergeable.eq (by simp [hq.mergeable]), hq.mergeable] }

theorem Thinner.admissible (hq : Admissible q) : Admissible p where
  clean := by rw [h.dirty.eq (by simp [hq.clean]), hq.clean]
  unpushed := by
    rw [h.unpushed.eq hq.unpushed]
    exact hq.unpushed
  resource := by
    rw [h.resource.eq (by rcases hq.resource with hr | hr <;> simp [hr])]
    exact hq.resource
  admission := by rw [h.admission.eq (by simp [hq.admission]), hq.admission]

theorem Thinner.progress (hi : implementing q = true) (hq : q.worker.progressEvidence = true) :
    p.worker.progressEvidence = true := by
  simp only [implementing, activeWorker, Bool.and_eq_true] at hi
  obtain ⟨-, -, -, hprogress⟩ := h.worker hi.1.1.1
  rw [hprogress.eq (by simp [hq]), hq]

/-- What is open for the smaller document is open for the larger, unless a fact was lost. -/
theorem Thinner.opens {decision : Decision} (hclear : Clear q) (ho : Opens q decision) :
    Clear p ∧ Opens p decision ↔ ¬ Lost p q := by
  rw [h.clear hclear]
  -- by the gate that the thinner facts open
  cases ho with
  | merge hexist hm =>
    obtain ⟨hpr, -⟩ := h.pr hexist
    rw [not_lost_published hexist, ← h.mergeReady hexist hm]
    refine and_congr_right fun _ => ⟨?_, .merge hpr⟩
    rintro (⟨-, hp⟩ | - | - | -)
    exact hp
  | authorize hun ha hok =>
    rw [not_lost_unpublished hun, ha, implementing_of_audits ha]
    refine and_congr_right fun _ => ⟨?_, fun hp => .authorize hp.1 hp.2.1 (h.auditOk hok)⟩
    rintro (- | ⟨hun', ha', -⟩ | - | -)
    exact ⟨hun', ha', implementing_of_audits ha'⟩
  | resume hun ha hi hprogress =>
    rw [not_lost_unpublished hun, ha, hi]
    refine and_congr_right fun _ => ⟨?_, fun hp =>
      .resume hp.1 hp.2.1 hp.2.2 (h.progress hi hprogress)⟩
    rintro (- | - | ⟨hun', ha', hi', -⟩ | -)
    exact ⟨hun', ha', hi'⟩
  | admission hun ha hi hadm =>
    rw [not_lost_unpublished hun, ha, hi]
    refine and_congr_right fun _ => ⟨?_, fun hp =>
      .admission hp.1 hp.2.1 hp.2.2 (h.admissible hadm)⟩
    rintro (- | - | - | ⟨hun', ha', hi', -⟩)
    exact ⟨hun', ha', hi'⟩

end

/-- The deletion loses a fact that keeps shut what is open without it. -/
def Unguarded (data data' : Obj) : Prop :=
  ∃ p q, normalizeFacts data = .ok p ∧ normalizeFacts data' = .ok q ∧ Clear q ∧
    (∃ decision, Opens q decision) ∧ Lost p q

/-- A gate that is open for the smaller document is open for the larger one, in exactly the
    deletions that lose nothing that keeps it shut. -/
theorem missing_facts_iff (h : Deletion data data') {P Q : Plan} (hP : plan data = .ok P)
    (hQ : plan data' = .ok Q) :
    (Q.decision ∈ gates → P.decision = Q.decision) ↔ ¬ Unguarded data data' := by
  obtain ⟨p, hp, rfl⟩ := plan_ok.mp hP
  obtain ⟨q, hq, rfl⟩ := plan_ok.mp hQ
  have hthin := thinner_of_deletion h hp hq
  constructor
  · -- lost facts would have closed the gate that the thinner document opens
    rintro hsame ⟨p', q', hp', hq', hclear, ⟨decision, ho⟩, hlost⟩
    obtain rfl := Except.ok.inj (hp.symm.trans hp')
    obtain rfl := Except.ok.inj (hq.symm.trans hq')
    have hd := ho.mem_gates
    have hQ := (planFacts_decision hd).mpr ⟨hclear, ho⟩
    have hP := hsame (hQ ▸ hd)
    rw [hQ] at hP
    exact (hthin.opens hclear ho).mp ((planFacts_decision hd).mp hP) hlost
  · intro hlost hd
    obtain ⟨hclear, ho⟩ := (planFacts_decision hd).mp rfl
    exact (planFacts_decision hd).mpr ((hthin.opens hclear ho).mpr fun hl =>
      hlost ⟨p, q, hp, hq, hclear, ⟨_, ho⟩, hl⟩)

def sampleHead : String := "aaaaaaaaaaaaaaaaaaaaaaaaaaaaaaaaaaaaaaaa"

/-- Everything is green, up to the rollout gate. -/
def greenFacts (rollout : String) : Obj :=
  [("packet", .obj [("repository", .str "o/r"), ("workstream", .str "w"),
      ("status", .str "ACTIVE"), ("intent_revision", .int 1), ("dependencies", .arr [])]),
    ("git", .obj [("head", .str sampleHead), ("dirty", .bool false), ("unpushed", .bool false)]),
    ("pr", .obj [("exists", .bool true), ("state", .str "OPEN"), ("head", .str sampleHead),
      ("mergeable", .str "YES")]),
    ("ci", .obj [("state", .str "PASS"), ("subject_head", .str sampleHead)]),
    ("review", .obj [("actionable_open", .bool false), ("state", .str "CLEAR"),
      ("subject_head", .str sampleHead)]),
    ("gates", .obj [("org_rollout", .str rollout)])]

def withoutGates : Obj → Obj := keepFacts (fun key => key ≠ "gates") fun _ _ => true

/-- A rollout that was authorized may be left out. -/
theorem missing_facts_authorized :
    ¬ Unguarded (greenFacts "AUTHORIZED") (withoutGates (greenFacts "AUTHORIZED")) := by
  have h : (plan (greenFacts "AUTHORIZED")).toOption.map Plan.decision = some .mergeReady := by
    decide +kernel
  have h' : (plan (withoutGates (greenFacts "AUTHORIZED"))).toOption.map Plan.decision =
      some .mergeReady := by decide +kernel
  obtain ⟨P, hP, hdecision⟩ := map_toOption_eq_some h
  obtain ⟨Q, hQ, hdecision'⟩ := map_toOption_eq_some h'
  exact (missing_facts_iff (deletion_keepFacts _ _ _) hP hQ).mp fun _ =>
    hdecision.trans hdecision'.symm

/-- A rollout that is pending may not, but the pull request is then ready to be merged. -/
theorem missing_rollout_merges :
    ¬ ∀ (data data' : Obj) (P Q : Plan), Deletion data data' → plan data = .ok P →
      plan data' = .ok Q → Q.decision ∈ gates → P.decision = Q.decision := by
  intro hall
  have h : (plan (greenFacts "PENDING")).toOption.map Plan.decision = some .waitExternal := by
    decide +kernel
  have h' : (plan (withoutGates (greenFacts "PENDING"))).toOption.map Plan.decision =
      some .mergeReady := by decide +kernel
  obtain ⟨P, hP, hdecision⟩ := map_toOption_eq_some h
  obtain ⟨Q, hQ, hdecision'⟩ := map_toOption_eq_some h'
  have hsame := hall _ _ P Q (deletion_keepFacts _ _ _) hP hQ (by rw [hdecision']; decide)
  rw [hdecision, hdecision'] at hsame
  cases hsame

end DataRelay.Tools.Coordinator
