import DataRelay.Tools.PacketText

/-! `context_epoch`: what a Work Packet must satisfy to be worked on, and the identity that a
    selected packet is held to.

    The checks are given what `load_profile` made of the repository: its execution profile, or the
    exception it raised. -/

namespace DataRelay.Tools.Context
open Lib
open Tools.Packet (Line Fence splitlines fenceRe headingRe metaRe toggle scanPacketMetadata isUpper)

/-- `ContextError`, and the built-in exceptions that get past it. -/
inductive EpochError where
  | context (reason : String)
  | builtin (e : PyError)
deriving DecidableEq, Repr

/-- A call whose exceptions nobody catches. -/
def raised {α : Type} (x : Except PyError α) : Except EpochError α := x.mapError .builtin

/-- The lines of the front matter, by their key. -/
abbrev Metadata := Dict String String

/-! ### Text -/

/-- A string of Python: its code points, where a surrogate may stand alone. -/
abbrev PyStr := List (Fin 0x110000)

/-- The text, when `encode("utf-8")` takes it. -/
def encodable (text : PyStr) : Option String :=
  (text.mapM fun c => Json.scalar c.val).map String.ofList

/-- `str.encode("utf-8")`. -/
def encodeUtf8 (text : String) : List ℕ :=
  text.toList.flatMap fun c => (String.utf8EncodeChar c).map UInt8.toNat

/-- `hashlib.sha256(data).hexdigest()`. -/
def hexdigest (data : List ℕ) : String := String.ofList ((sha256 data).flatMap hex2)

/-- The digits that are no decimal digits: superscripts, circled digits and the like. -/
def otherDigits : List (ℕ × ℕ) :=
  [(0xb2, 0xb3), (0xb9, 0xb9), (0x1369, 0x1371), (0x19da, 0x19da), (0x2070, 0x2070),
    (0x2074, 0x2079), (0x2080, 0x2089), (0x2460, 0x2468), (0x2474, 0x247c), (0x2488, 0x2490),
    (0x24ea, 0x24ea), (0x24f5, 0x24fd), (0x24ff, 0x24ff), (0x2776, 0x277e), (0x2780, 0x2788),
    (0x278a, 0x2792), (0x10a40, 0x10a43), (0x10e60, 0x10e68), (0x11052, 0x1105a),
    (0x1f100, 0x1f10a)]

/-- `str.isdigit` takes it, `int` does not. -/
def isOtherDigit (c : Char) : Bool := otherDigits.any fun r => r.1 ≤ c.toNat && c.toNat ≤ r.2

/-- `str.isdigit`. -/
def isDigit (s : String) : Bool :=
  s ≠ "" && s.toList.all fun c => (digitValue c).isSome || isOtherDigit c

/-- `sorted(set(items))`. -/
def sortedSet (items : List String) : List String := items.dedup.insertionSort (· ≤ ·)

/-! ### The packet -/

/-- `Packet`. -/
structure Packet where
  metadata : Metadata
  sections : Dict String String
  duplicateMetadata : List String
  duplicateSections : List String
  headings : List String
  charCount : ℕ
  lineCount : ℕ
  bodySha256 : String

/-- What the loop of `parse_packet` has of the sections. -/
structure Sections where
  current : Option String
  fence : Option Fence
  bodies : Dict String (List Line)
  duplicates : List String
  headings : List String

/-- A line goes to the section that is being read, if there is one. -/
def Sections.keep (s : Sections) (raw : Line) : Sections :=
  match s.current with
  | none => s
  | some name => { s with bodies := s.bodies.modify name (· ++ [raw]) }

/-- A heading opens its section; a heading that was there goes on with it and is noted. -/
def Sections.start (s : Sections) (heading : String) : Sections where
  current := some heading
  fence := s.fence
  bodies := if s.bodies.contains heading then s.bodies else s.bodies.set heading []
  duplicates := if s.bodies.contains heading then s.duplicates ++ [heading] else s.duplicates
  headings := s.headings ++ [heading]

/-- One line of the text: fences hide the headings between them. -/
def Sections.read (s : Sections) (raw : Line) : Sections :=
  match fenceRe raw with
  | some marker => { s with fence := toggle s.fence marker }.keep raw
  | none =>
    if s.fence.isSome then s.keep raw
    else match headingRe raw with
      | some heading => s.start heading
      | none => s.keep raw

/-- The loop of `parse_packet` over the lines. -/
def sectionsOf (text : String) : Sections :=
  (splitlines text).foldl Sections.read ⟨none, none, ∅, [], []⟩

/-- `"\n".join(lines).strip()`. -/
def rendered (lines : List Line) : String := strip (String.ofList (List.intercalate ['\n'] lines))

/-- The packet of a text without a lone surrogate. -/
def packetOf (text : String) : Packet where
  metadata := (scanPacketMetadata text).metadata
  sections := (sectionsOf text).bodies.map rendered
  duplicateMetadata := (scanPacketMetadata text).duplicates
  duplicateSections := (sectionsOf text).duplicates
  headings := (sectionsOf text).headings
  charCount := text.toList.length
  lineCount := (splitlines text).length
  bodySha256 := hexdigest (encodeUtf8 text)

/-- `parse_packet`, which raises where the text has a lone surrogate. -/
def parsePacket (text : PyStr) : Except EpochError Packet :=
  match encodable text with
  | none => .error (.builtin .unicodeError)
  | some text => .ok (packetOf text)

/-! ### The execution profile -/

/-- A pattern `[first][rest]{0,n}`, on the whole text. -/
def word (first rest : Char → Bool) (n : ℕ) (s : String) : Bool :=
  match s.toList with
  | [] => false
  | c :: cs => first c && cs.all rest && cs.length ≤ n

/-- The pattern of an execution profile id. -/
def profileIdRe : String → Bool := word isAlnumAscii isSlugChar 63

/-- The pattern of a runtime id. -/
def runtimeIdRe : String → Bool := word isAlnumAscii isSlugChar 63

/-- What the packet checks read of a profile that `load_profile_text` has let through. -/
structure Profile where
  profileId : String
  revision : ℤ
  legacyV2Implementers : Dict String String
  profileId_ok : profileIdRe profileId = true
  revision_ok : 1 ≤ revision
  legacy_ok : ∀ key target, legacyV2Implementers.get? key = some target →
    runtimeIdRe key = true ∧ target = profileId

/-- `ProfileError`, or what else reading the profile raises. -/
inductive ProfileFailure where
  | profile
  | builtin (e : PyError)
deriving DecidableEq, Repr

/-- The execution profile, or why it could not be loaded. -/
abbrev Loaded := Except ProfileFailure Profile

/-- `not revision.isdigit() or int(revision) < 1`. -/
def badRevision (revision : String) : Except EpochError Bool :=
  if isDigit revision then (raised (int revision)).map fun n => decide (n < 1) else .ok true

/-- The check of `EXECUTION_PROFILE_REVISION` against the revision of the profile. -/
def profileRevision (selected : ℤ) (revision : String) : Except EpochError (List String) := do
  if ← badRevision revision then return ["EXECUTION_PROFILE_REVISION_INVALID"]
  let n ← raised (int revision)
  return if n ≠ selected then ["EXECUTION_PROFILE_REVISION_MISMATCH"] else []

/-- `packet_authority`: what blocks the packet, and what is a warning only. -/
def packetAuthority (profile : Profile) (metadata : Metadata) :
    Except EpochError (List String × List String) :=
  let version := getD metadata "PACKET_VERSION" ""
  if version = "3" then do
    let ambiguous := if metadata.contains "IMPLEMENTER" then ["EXECUTION_AUTHORITY_AMBIGUOUS"] else []
    let mismatch :=
      if metadata.get? "EXECUTION_PROFILE" ≠ some profile.profileId then
        ["EXECUTION_PROFILE_ID_MISMATCH"]
      else []
    let revision ← profileRevision profile.revision (getD metadata "EXECUTION_PROFILE_REVISION" "")
    return (sortedSet (ambiguous ++ mismatch ++ revision), [])
  else if version = "2" then
    let ambiguous :=
      if metadata.contains "EXECUTION_PROFILE" || metadata.contains "EXECUTION_PROFILE_REVISION" then
        ["EXECUTION_AUTHORITY_AMBIGUOUS"]
      else []
    let mapped := profile.legacyV2Implementers.get? (getD metadata "IMPLEMENTER" "")
    if mapped ≠ some profile.profileId then
      .ok (sortedSet (ambiguous ++ ["LEGACY_PACKET_IMPLEMENTER_MISMATCH"]), [])
    else
      .ok (ambiguous, if ambiguous = [] then ["LEGACY_EXECUTION_PROFILE_COMPAT"] else [])
  else .ok (["PACKET_PROFILE_AUTHORITY_UNSUPPORTED"], [])

/-! ### The audit -/

/-- How an audit of a packet ends. -/
inductive AuditStatus where
  | block
  | warn
  | pass
deriving DecidableEq, Repr

def AuditStatus.text : AuditStatus → String
  | .block => "BLOCK"
  | .warn => "WARN"
  | .pass => "PASS"

/-- What `analyze_packet` counts. -/
structure Metrics where
  chars : ℕ
  lines : ℕ
  sections : ℕ
  noncanonicalSections : ℕ
deriving DecidableEq, Repr

/-- What `analyze_packet` returns. -/
structure Audit where
  status : AuditStatus
  blocking : List String
  warnings : List String
  compatibility : List String
  metrics : Metrics
  noncanonicalSections : List String
deriving DecidableEq, Repr

/-- What `analyze_packet` may be asked for besides. -/
structure Limits where
  expectedTargetRepo : Option String := none
  warnChars : Option ℤ := none
  warnLines : Option ℤ := none

/-- `REQUIRED_META_COMMON`. -/
def requiredMetaCommon : List String :=
  ["PACKET_VERSION", "TARGET_REPO", "WORKSTREAM", "STATUS", "BRANCH", "TASK_KIND", "OWNER_INTENT",
    "INTENT_REVISION", "CHANGE_RISK"]

/-- `CANONICAL_SECTIONS`. -/
def canonicalSections : List String :=
  ["Goal", "Current State", "Next Action", "Handoff Sizing", "Completion Contract",
    "Follow-up Discoveries", "Constraints", "Canonical References", "Latest Evidence", "Blockers"]

/-- `REQUIRED_SECTIONS`. -/
def requiredSections : List String := ["Goal", "Current State", "Next Action", "Blockers"]

/-- `TEMPLATE_META_SENTINELS`. -/
def templateMetaSentinels : List (String × String) :=
  [("TARGET_REPO", "owner/repository"), ("WORKSTREAM", "replace-with-stable-slug"),
    ("BRANCH", "replace-with-branch-or-N/A"),
    ("OWNER_INTENT", "State the owner's current explicit request in one concise line.")]

/-- `TEMPLATE_SECTION_SENTINELS`. -/
def templateSectionSentinels : List (String × String) :=
  [("Goal", "State the stable workstream outcome in one concise paragraph."),
    ("Current State", "- Keep only facts needed to resume now."),
    ("Next Action", "State the next bounded **outcome / execution bundle**, " ++
      "not one command, one tiny Issue, or one micro-step.")]

/-- The label, when the key has a value and the value is bad. -/
def flag (metadata : Metadata) (key label : String) (bad : String → Bool) : List String :=
  let value := getD metadata key ""
  if value ≠ "" ∧ bad value = true then [label] else []

/-- The required keys that a packet of its version lacks. -/
def versionMissing (metadata : Metadata) : List String :=
  let version := metadata.get? "PACKET_VERSION"
  if version = some "2" ∨ version = some "3" then
    let required := requiredMetaCommon ++
      if version = some "2" then ["IMPLEMENTER"]
      else ["EXECUTION_PROFILE", "EXECUTION_PROFILE_REVISION"]
    (required.filter fun key => getD metadata key "" = "").map ("MISSING_META:" ++ ·)
  else if getD metadata "PACKET_VERSION" "" = "" then ["MISSING_META:PACKET_VERSION"]
  else []

/-- Neither version 2 nor version 3. -/
def badVersion (version : String) : Bool := version ≠ "2" && version ≠ "3"

/-- Longer than 200 characters, or no `SAFE_REPO_RE`. -/
def badRepository (repository : String) : Bool :=
  decide (200 < repository.toList.length) || !repositoryRe repository

/-- `SAFE_WORKSTREAM_RE` does not match. -/
def badWorkstream (workstream : String) : Bool := !word isAlnumAscii isSlugChar 127 workstream

/-- `SAFE_BRANCH_RE` does not match, or the branch has two dots or ends with a slash. -/
def badBranch (branch : String) : Bool :=
  !word isAlnumAscii (fun c => isSlugChar c || c == '/') 239 branch || isIn ".." branch ||
    branch.toList.getLast? = some '/'

/-- `SAFE_TASK_KIND_RE` does not match. -/
def badTaskKind (kind : String) : Bool :=
  !word isUpper (fun c => isUpper c || isDigitAscii c || c == '_' || c == '-') 63 kind

/-- None of the four risks. -/
def badChangeRisk (risk : String) : Bool :=
  !(["LOW", "MEDIUM", "HIGH", "CRITICAL"].contains risk)

/-- Not in `ALLOWED_STATUSES`. -/
def badStatus (status : String) : Bool :=
  !(["ACTIVE", "PAUSED", "BLOCKED", "COMPLETE"].contains status)

/-- The check of the repository that the caller expects, if it names one. -/
def scopeBlocking (metadata : Metadata) : Option String → List String
  | none => []
  | some expected =>
    if badRepository expected then ["EXPECTED_TARGET_REPO_INVALID"]
    else flag metadata "TARGET_REPO" "TARGET_REPO_SCOPE_MISMATCH" (· ≠ expected)

/-- The check of the intent revision, which can raise. -/
def revisionBlocking (metadata : Metadata) : Except EpochError (List String) := do
  let revision := getD metadata "INTENT_REVISION" ""
  if revision = "" then return []
  return if ← badRevision revision then ["INTENT_REVISION_INVALID"] else []

/-- What the profile makes of the packet, or that there is none. -/
def profileBlocking (loaded : Loaded) (metadata : Metadata) :
    Except EpochError (List String × List String) :=
  match loaded with
  | .error .profile => .ok (["EXECUTION_PROFILE_UNAVAILABLE"], [])
  | .error (.builtin e) => .error (.builtin e)
  | .ok profile => packetAuthority profile metadata

/-- The texts of the template that the packet still holds. -/
def placeholders (packet : Packet) : List String :=
  if packet.metadata.get? "PACKET_VERSION" = some "3" then
    ((templateMetaSentinels.filter fun e => packet.metadata.get? e.1 = some e.2) ++
      templateSectionSentinels.filter fun e => isIn e.2 (getD packet.sections e.1 "")).map
        ("PACKET_TEMPLATE_PLACEHOLDER:" ++ ·.1)
  else []

/-- The sections that are missing, and the canonical ones that are there twice. -/
def sectionBlocking (packet : Packet) : List String :=
  (requiredSections.filter fun name => !packet.sections.contains name).map
      ("MISSING_SECTION:" ++ ·) ++
    (packet.duplicateSections.filter canonicalSections.contains).map ("DUPLICATE_SECTION:" ++ ·)

/-- The count is over its limit. -/
def exceeded (limit : Option ℤ) (count : ℕ) (label : String) : List String :=
  if limit.any (· < (count : ℤ)) then [label] else []

/-- `analyze_packet`. -/
def analyzePacket (loaded : Loaded) (limits : Limits) (packet : Packet) :
    Except EpochError Audit := do
  let metadata := packet.metadata
  let revision ← revisionBlocking metadata
  let (profile, compatibility) ← profileBlocking loaded metadata
  let blocking := versionMissing metadata ++
    packet.duplicateMetadata.map ("DUPLICATE_META:" ++ ·) ++
    flag metadata "PACKET_VERSION" "PACKET_VERSION_INVALID" badVersion ++
    flag metadata "TARGET_REPO" "TARGET_REPO_INVALID" badRepository ++
    scopeBlocking metadata limits.expectedTargetRepo ++
    flag metadata "WORKSTREAM" "WORKSTREAM_INVALID" badWorkstream ++
    flag metadata "BRANCH" "BRANCH_INVALID" badBranch ++
    flag metadata "TASK_KIND" "TASK_KIND_INVALID" badTaskKind ++
    revision ++
    flag metadata "CHANGE_RISK" "CHANGE_RISK_INVALID" badChangeRisk ++
    profile ++
    flag metadata "STATUS" "STATUS_INVALID" badStatus ++
    placeholders packet ++
    sectionBlocking packet
  let noncanonical := sortedSet (packet.headings.filter fun name => !canonicalSections.contains name)
  let reasons := (if noncanonical = [] then [] else ["NONCANONICAL_HISTORY_SECTIONS"]) ++
    exceeded limits.warnChars packet.charCount "CHAR_CANARY_EXCEEDED" ++
    exceeded limits.warnLines packet.lineCount "LINE_CANARY_EXCEEDED"
  return {
    status := if blocking ≠ [] then .block else if reasons ≠ [] then .warn else .pass
    blocking := sortedSet blocking
    warnings := sortedSet reasons
    compatibility := sortedSet compatibility
    metrics := ⟨packet.charCount, packet.lineCount, packet.headings.length, noncanonical.length⟩
    noncanonicalSections := noncanonical }

/-! ### Identity -/

/-- `IDENTITY_KEYS`. -/
def identityKeys : List String :=
  ["PACKET_VERSION", "TARGET_REPO", "WORKSTREAM", "STATUS", "BRANCH", "TASK_KIND",
    "INTENT_REVISION", "CHANGE_RISK", "EXECUTION_PROFILE", "EXECUTION_PROFILE_REVISION",
    "IMPLEMENTER"]

/-- `MISSING_IDENTITY_VALUE`. -/
def missingIdentityValue : String := "<missing>"

/-- `IDENTITY_BINDING_KEYS`. -/
def identityBindingKeys : List String := identityKeys ++ ["PACKET_BODY_SHA256"]

/-- The error of a packet that is blocked. -/
def identityInvalid (audit : Audit) : EpochError :=
  .context ("PACKET_IDENTITY_INVALID:" ++ ",".intercalate audit.blocking)

/-- The lines of the identity, as keys and values. -/
def identityEntries (packet : Packet) (status : AuditStatus) : List (String × String) :=
  (identityKeys.map fun key => (key, getD packet.metadata key missingIdentityValue)) ++
    [("PACKET_BODY_SHA256", packet.bodySha256), ("PACKET_CONTEXT_AUDIT", status.text),
      ("PACKET_IDENTITY", "PASS")]

/-- A line of the identity binding. -/
def entryLine (entry : String × String) : Line := entry.1.toList ++ '=' :: entry.2.toList

/-- `"\n".join(lines) + "\n"`. -/
def joinLines (lines : List Line) : String :=
  String.ofList (List.intercalate ['\n'] lines ++ ['\n'])

/-- `packet_identity`. -/
def packetIdentity (loaded : Loaded) (packet : Packet) : Except EpochError String := do
  let audit ← analyzePacket loaded {} packet
  if audit.status = .block then .error (identityInvalid audit)
  else return joinLines ((identityEntries packet audit.status).map entryLine)

/-- What reading a file as text makes of its line ends. -/
def universalNewlines : List Char → List Char
  | [] => []
  | '\r' :: '\n' :: cs => '\n' :: universalNewlines cs
  | '\r' :: cs => '\n' :: universalNewlines cs
  | c :: cs => c :: universalNewlines cs

/-- The loop of `load_identity_binding`. -/
def readBinding : Metadata → List Line → Except EpochError Metadata
  | values, [] => .ok values
  | values, raw :: rest =>
    match metaRe raw with
    | none => .error (.context "PACKET_IDENTITY_BINDING_INVALID")
    | some (key, value) =>
      if values.contains key then
        .error (.context ("PACKET_IDENTITY_BINDING_DUPLICATE:" ++ key))
      else readBinding (values.set key value) rest

/-- `[0-9a-f]{64}`, on the whole text. -/
def sha256Re (s : String) : Bool := s.toList.length = 64 && s.toList.all isLowerHex

/-- What `load_identity_binding` makes of the values it has read. -/
def checkBinding (values : Metadata) : Except EpochError (Metadata × String) :=
  let audit := values.get? "PACKET_CONTEXT_AUDIT"
  let missing := identityBindingKeys.filter fun key => !values.contains key
  let digest := getD values "PACKET_BODY_SHA256" ""
  if values.get? "PACKET_IDENTITY" ≠ some "PASS" then
    .error (.context "PACKET_IDENTITY_BINDING_NOT_PASS")
  else if audit ≠ some "PASS" ∧ audit ≠ some "WARN" then
    .error (.context "PACKET_IDENTITY_BINDING_AUDIT_INVALID")
  else if missing ≠ [] then
    .error (.context ("PACKET_IDENTITY_BINDING_MISSING:" ++ ",".intercalate missing))
  else if sha256Re digest = false then .error (.context "PACKET_BODY_SHA256_INVALID")
  else .ok (Dict.ofList (identityKeys.map fun key => (key, getD values key "")), digest)

/-- `load_identity_binding`, on the content of the file. -/
def loadIdentityBinding (file : String) : Except EpochError (Metadata × String) := do
  let text := String.ofList (universalNewlines file.toList)
  if 4096 < text.toList.length ∨ 16 < (splitlines text).length then
    .error (.context "PACKET_IDENTITY_BINDING_OVERSIZED")
  else checkBinding (← readBinding ∅ (splitlines text))

/-- The packet has another value for the key than the one expected, if one is. -/
def mismatched (metadata expected : Metadata) (key : String) : Bool :=
  match expected.get? key with
  | none => false
  | some value =>
    if value = missingIdentityValue then metadata.contains key else metadata.get? key ≠ some value

/-- What `require_identity` raises for the keys that differ. -/
def reportMismatches (mismatches : List String) : Except EpochError Unit :=
  if mismatches = [] then .ok ()
  else .error (.context ("PACKET_IDENTITY_MISMATCH:" ++ ",".intercalate mismatches))

/-- `require_identity`; a key whose expected value is `None` is one that `expected` does not have. -/
def requireIdentity (loaded : Loaded) (packet : Packet) (expected : Metadata)
    (expectedBodySha256 : Option String) : Except EpochError Unit := do
  let audit ← analyzePacket loaded {} packet
  if audit.status = .block then .error (identityInvalid audit)
  else
    let mismatches := identityKeys.filter (mismatched packet.metadata expected)
    match expectedBodySha256 with
    | none => reportMismatches mismatches
    | some digest =>
      if sha256Re digest = false then .error (.context "PACKET_BODY_SHA256_INVALID")
      else
        reportMismatches
          (mismatches ++ if packet.bodySha256 ≠ digest then ["PACKET_BODY_SHA256"] else [])

end DataRelay.Tools.Context
