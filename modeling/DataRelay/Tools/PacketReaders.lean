import DataRelay.Tools.Collect

/-! The two readers of a Work Packet, side by side.

    Both keep the first value of a key. The scan looks for it in the structural lines only, those
    outside of every fence and above the first heading, and wants the key in the first column;
    `_parse_body` looks for it in every line. -/

namespace DataRelay.Tools.Packet
open Lib
open Collect (Body bodyEntry parseBody packetFacts required)

/-! ### The structural lines -/

/-- The lines outside of fences and above the first heading. -/
def structural : Option Fence → List Line → List Line
  | _, [] => []
  | fence, line :: rest =>
    match fenceRe line with
    | some marker => structural (toggle fence marker) rest
    | none =>
      if fence.isSome then structural fence rest
      else if (headingRe line).isSome then []
      else line :: structural fence rest

def Scan.read (s : Scan) (line : Line) : Scan :=
  match metaRe line with
  | none => s
  | some (key, value) => s.add key value

/-- The scan is a pass over the structural lines. -/
theorem scanLines_eq : ∀ (lines : List Line) (s : Scan) (fence : Option Fence),
    scanLines s fence lines = (structural fence lines).foldl Scan.read s
  | [], _, _ => rfl
  | line :: rest, s, fence => by
    unfold scanLines structural
    cases fenceRe line with
    | some marker => exact scanLines_eq rest s _
    | none =>
      dsimp only
      by_cases hfence : fence.isSome = true
      · rw [if_pos hfence, if_pos hfence]
        exact scanLines_eq rest s fence
      rw [if_neg hfence, if_neg hfence]
      by_cases hheading : (headingRe line).isSome = true
      · rw [if_pos hheading, if_pos hheading]
        rfl
      rw [if_neg hheading, if_neg hheading, List.foldl_cons, Scan.read]
      cases metaRe line with
      | none => exact scanLines_eq rest s fence
      | some e => exact scanLines_eq rest _ fence

/-! ### First values -/

/-- The value of the first line that has the key. -/
def firstValue (entry : Line → Option (String × String)) (key : String) (lines : List Line) :
    Option String :=
  ((lines.filterMap entry).find? (·.1 = key)).map Prod.snd

/-- Whoever keeps the first value of a key at every line has the first value in the end. -/
theorem foldl_firstValue {σ : Type} (get : σ → Option String) {step : σ → Line → σ}
    {entry : Line → Option (String × String)} {key : String}
    (h : ∀ s line, get (step s line) = (get s).or (firstValue entry key [line])) :
    ∀ (lines : List Line) (s : σ),
      get (lines.foldl step s) = (get s).or (firstValue entry key lines)
  | [], s => by simp [firstValue]
  | line :: rest, s => by
    rw [List.foldl_cons, foldl_firstValue get h rest, h, Option.or_assoc]
    congr 1
    cases hentry : entry line with
    | none => simp [firstValue, hentry]
    | some e =>
      by_cases hkey : e.1 = key
      · simp [firstValue, hentry, hkey]
      · simp [firstValue, hentry, hkey]

theorem firstValue_some {entry : Line → Option (String × String)} {key value : String}
    {lines : List Line} (h : firstValue entry key lines = some value) :
    ∃ before line after, lines = before ++ line :: after ∧
      (∀ l ∈ before, ∀ v, entry l ≠ some (key, v)) ∧ entry line = some (key, value) := by
  induction lines with
  | nil => simp [firstValue] at h
  | cons line rest ih =>
    by_cases hnames : ∃ v, entry line = some (key, v)
    · obtain ⟨v, hv⟩ := hnames
      simp only [firstValue, List.filterMap_cons, hv, List.find?_cons, decide_true,
        Option.map_some, Option.some.injEq] at h
      exact ⟨[], line, rest, rfl, by simp, h ▸ hv⟩
    · rw [not_exists] at hnames
      have hskip : firstValue entry key (line :: rest) = firstValue entry key rest := by
        cases hentry : entry line with
        | none => simp [firstValue, hentry]
        | some e =>
          have hkey : e.1 ≠ key := fun hk => hnames e.2 (by rw [hentry, ← hk])
          simp [firstValue, hentry, hkey]
      obtain ⟨before, l, after, rfl, hbefore, hl⟩ := ih (hskip ▸ h)
      exact ⟨line :: before, l, after, rfl, List.forall_mem_cons.mpr ⟨hnames, hbefore⟩, hl⟩

theorem firstValue_of_first {entry : Line → Option (String × String)} {key value : String}
    {before : List Line} {line : Line} (hbefore : ∀ l ∈ before, ∀ v, entry l ≠ some (key, v))
    (hline : entry line = some (key, value)) (after : List Line) :
    firstValue entry key (before ++ line :: after) = some value := by
  induction before with
  | nil => simp [firstValue, hline]
  | cons l before ih =>
    obtain ⟨hl, hrest⟩ := List.forall_mem_cons.mp hbefore
    have hrec := ih hrest
    cases hentry : entry l with
    | none => simpa [firstValue, hentry] using hrec
    | some e =>
      have hkey : e.1 ≠ key := fun hk => hl e.2 (by rw [hentry, ← hk])
      simpa [firstValue, hentry, hkey] using hrec

/-! ### The two readers -/

theorem Scan.read_get? (key : String) (s : Scan) (line : Line) :
    (s.read line).metadata.get? key =
      (s.metadata.get? key).or (firstValue metaRe key [line]) := by
  unfold Scan.read
  cases hentry : metaRe line with
  | none => simp [firstValue, hentry]
  | some e =>
    obtain ⟨k, value⟩ := e
    dsimp only
    unfold Scan.add
    cases hget : s.metadata.get? k with
    | some v =>
      by_cases hk : k = key
      · subst hk
        simp [hget]
      · simp [firstValue, hentry, hk]
    | none =>
      by_cases hk : k = key
      · subst hk
        simp [firstValue, hentry, hget]
      · simp [firstValue, hentry, hk, Dict.get?_set_ne _ (Ne.symm hk)]

theorem scanPacketMetadata_get? (text key : String) :
    (scanPacketMetadata text).metadata.get? key =
      firstValue metaRe key (structural none (splitlines text)) := by
  rw [scanPacketMetadata, scanLines_eq]
  exact (foldl_firstValue (fun s : Scan => s.metadata.get? key) (Scan.read_get? key) _ _).trans (by simp)

theorem Body.read_get? {key : String} (hkey : key ≠ "") (hdep : key ≠ "DEPENDENCY") (b : Body)
    (line : Line) : (b.read line).fields.get? key =
      (b.fields.get? key).or (firstValue bodyEntry key [line]) := by
  unfold Collect.Body.read
  cases hentry : bodyEntry line with
  | none => simp [firstValue, hentry]
  | some e =>
    obtain ⟨k, value⟩ := e
    dsimp only
    split
    · -- a dependency line fills its own list and no field
      rename_i hdependency
      have hne : k ≠ key := fun hk => hdep (hk.symm.trans hdependency.1)
      simp [firstValue, hentry, hne]
    cases hget : b.fields.get? k with
    | some v =>
      rw [if_neg (by simp)]
      by_cases hk : k = key
      · subst hk
        simp [hget]
      · simp [firstValue, hentry, hk]
    | none =>
      by_cases hk : k = key
      · subst hk
        simp [firstValue, hentry, hget, hkey]
      · split
        · simp [firstValue, hentry, hk, Dict.get?_set_ne _ (Ne.symm hk)]
        · simp [firstValue, hentry, hk]

theorem parseBody_get? {key : String} (hkey : key ≠ "") (hdep : key ≠ "DEPENDENCY")
    (text : String) :
    (parseBody text).fields.get? key = firstValue bodyEntry key (splitlines text) :=
  (foldl_firstValue (fun b : Body => b.fields.get? key) (Body.read_get? hkey hdep) _ _).trans
    (by simp)

/-- A line that added no duplicate has given its value. -/
theorem Scan.read_no_duplicates {s : Scan} {line : Line} (h : (s.read line).duplicates = []) :
    s.duplicates = [] ∧ ∀ key value, metaRe line = some (key, value) →
      (s.read line).metadata.get? key = some value := by
  unfold Scan.read at h ⊢
  cases hentry : metaRe line with
  | none => simpa [hentry] using h
  | some e =>
    obtain ⟨k, v⟩ := e
    rw [hentry] at h
    dsimp only at h ⊢
    unfold Scan.add at h ⊢
    split at h
    · simp at h
    · rename_i hnone
      rw [if_neg hnone]
      refine ⟨h, fun key value heq => ?_⟩
      obtain ⟨rfl, rfl⟩ := Prod.mk.inj (Option.some.inj heq)
      exact Dict.get?_set_self _ _ _

/-- Without a duplicate, every structural line gives the value of its key. -/
theorem foldl_no_duplicates : ∀ (lines : List Line) (s : Scan),
    (lines.foldl Scan.read s).duplicates = [] →
      s.duplicates = [] ∧ ∀ line ∈ lines, ∀ key value, metaRe line = some (key, value) →
        (lines.foldl Scan.read s).metadata.get? key = some value
  | [], s, h => ⟨h, by simp⟩
  | line :: rest, s, h => by
    rw [List.foldl_cons] at h ⊢
    obtain ⟨hread, hrest⟩ := foldl_no_duplicates rest (s.read line) h
    obtain ⟨hdup, hline⟩ := Scan.read_no_duplicates hread
    refine ⟨hdup, List.forall_mem_cons.mpr ⟨fun key value hentry => ?_, hrest⟩⟩
    have hkeep := foldl_firstValue (fun s : Scan => s.metadata.get? key) (Scan.read_get? key) rest
      (s.read line)
    rw [hkeep, hline key value hentry, Option.some_or]

/-! ### Agreement -/

/-- The keys that decide which watch a packet is for, and where it stands. -/
def packetKeys : List String := ["TARGET_REPO", "WORKSTREAM", "BRANCH", "STATUS", "INTENT_REVISION"]

/-- Whatever line names one of the keys first, in a fence, indented or in a later section, gives the
    value that a structural line gives. -/
def Undisturbed (text : String) : Prop :=
  ∀ key ∈ packetKeys, ∀ before line after value,
    splitlines text = before ++ line :: after →
    (∀ l ∈ before, ∀ v, bodyEntry l ≠ some (key, v)) → bodyEntry line = some (key, value) →
    ∃ s ∈ structural none (splitlines text), metaRe s = some (key, value)

theorem required_ok {b : Body} {key value : String} (h : required b key = .ok value) :
    ∃ v, b.fields.get? key = some v := by
  unfold required at h
  split at h
  · cases h
  · rename_i v hv
    exact ⟨v, hv⟩

/-- A packet that gets past the checks has a value for each of the keys. -/
theorem packetFacts_keys {repository workstream : String} {b : Body} {facts : Collect.PacketFacts}
    (h : packetFacts repository workstream b = .ok facts) :
    ∀ key ∈ packetKeys, ∃ v, b.fields.get? key = some v := by
  simp only [packetFacts, Tools.bind_ok, Tools.check_ok] at h
  obtain ⟨repo, hrepo, stream, hstream, -, branch, hbranch, -, status, hstatus, revision, hrevision,
    -⟩ := h
  have hint : ∃ text, required b "INTENT_REVISION" = .ok text := by
    simp only [Collect.requiredInt, Tools.bind_ok] at hrevision
    exact hrevision.imp fun _ hr => hr.1
  obtain ⟨text, htext⟩ := hint
  simp only [packetKeys, List.forall_mem_cons, List.not_mem_nil, false_imp_iff, implies_true,
    and_true]
  exact ⟨required_ok hrepo, required_ok hstream, required_ok hbranch, required_ok hstatus,
    required_ok htext⟩

/-- The two readers agree on a packet that gets past the checks exactly when it is undisturbed. -/
theorem readers_agree_iff {text repository workstream : String} {facts : Collect.PacketFacts}
    (hdup : (scanPacketMetadata text).duplicates = [])
    (h : packetFacts repository workstream (parseBody text) = .ok facts) :
    (∀ key ∈ packetKeys, (parseBody text).fields.get? key =
      (scanPacketMetadata text).metadata.get? key) ↔ Undisturbed text := by
  have hplain : ∀ key ∈ packetKeys, key ≠ "" ∧ key ≠ "DEPENDENCY" := by decide
  rw [scanPacketMetadata, scanLines_eq] at hdup
  constructor
  · intro hagree key hkey before line after value hlines hbefore hline
    have hfirst := firstValue_of_first hbefore hline after
    rw [← hlines, ← parseBody_get? (hplain key hkey).1 (hplain key hkey).2, hagree key hkey,
      scanPacketMetadata_get?] at hfirst
    obtain ⟨_, s, _, hs, -, hmeta⟩ := firstValue_some hfirst
    exact ⟨s, by rw [hs]; simp, hmeta⟩
  · intro hundisturbed key hkey
    obtain ⟨value, hvalue⟩ := packetFacts_keys h key hkey
    rw [hvalue]
    rw [parseBody_get? (hplain key hkey).1 (hplain key hkey).2] at hvalue
    obtain ⟨before, line, after, hlines, hbefore, hline⟩ := firstValue_some hvalue
    obtain ⟨s, hs, hmeta⟩ := hundisturbed key hkey before line after value hlines hbefore hline
    rw [scanPacketMetadata, scanLines_eq]
    -- without duplicates the scan keeps the value of that line
    exact ((foldl_no_duplicates _ _ hdup).2 s hs key value hmeta).symm

/-! ### Samples -/

def samplePacket : String :=
  "TARGET_REPO=o/r\nWORKSTREAM=ws\nBRANCH=main\nSTATUS=ACTIVE\nINTENT_REVISION=1\n" ++
  "PRIORITY=P1\nCHANGE_RISK=LOW\nTASK_KIND=IMPLEMENT\n## Goal\n"

/-- What the collector keeps of it, in the status `status`. -/
def sampleFacts (status : String) : Collect.PacketFacts :=
  ⟨"main", status, 1, "P1", "LOW", "IMPLEMENT", []⟩

theorem readers_agree_sample :
    (∀ key ∈ packetKeys, (parseBody samplePacket).fields.get? key =
      (scanPacketMetadata samplePacket).metadata.get? key) ∧ Undisturbed samplePacket := by
  have hdup : (scanPacketMetadata samplePacket).duplicates = [] := by decide +kernel
  have hfacts : packetFacts "o/r" "ws" (parseBody samplePacket) = .ok (sampleFacts "ACTIVE") := by
    decide +kernel
  have hagree : ∀ key ∈ packetKeys, (parseBody samplePacket).fields.get? key =
      (scanPacketMetadata samplePacket).metadata.get? key := by decide +kernel
  exact ⟨hagree, (readers_agree_iff hdup hfacts).mp hagree⟩

/-- The same packet behind a fence that quotes another status. -/
def fencedPacket : String := "```\nSTATUS=PAUSED\n```\n" ++ samplePacket

/-- The fence supplies the status. -/
theorem fence_supplies_status :
    (scanPacketMetadata fencedPacket).duplicates = [] ∧
      packetFacts "o/r" "ws" (parseBody fencedPacket) = .ok (sampleFacts "PAUSED") ∧
      (scanPacketMetadata fencedPacket).metadata.get? "STATUS" = some "ACTIVE" ∧
      ¬ ∀ key ∈ packetKeys, (parseBody fencedPacket).fields.get? key =
        (scanPacketMetadata fencedPacket).metadata.get? key := by
  decide +kernel

end DataRelay.Tools.Packet
