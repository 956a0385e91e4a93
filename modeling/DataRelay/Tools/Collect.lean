import DataRelay.Tools.PacketText

/-! What the watch collector takes from the body of an issue: `_parse_body`, and the checks that
    `collect_authoritative` makes of the fields. The reads of the forge and of the host are left
    out. -/

namespace DataRelay.Tools.Collect
open Lib
open Packet (Line splitlines)

structure CollectError where
  reason : String
deriving DecidableEq, Repr

/-- The fields of a body, each with its first value, and its dependencies. -/
structure Body where
  fields : Dict String String
  dependencies : List (String × String)

/-- The key and the value of a line, without the blanks around each. -/
def bodyEntry (raw : Line) : Option (String × String) :=
  let line := (strip (String.ofList raw)).toList
  if line = [] ∨ line.head? = some '#' ∨ '=' ∉ line then none
  else some (strip (String.ofList (line.takeWhile (· ≠ '='))),
    strip (String.ofList ((line.dropWhile (· ≠ '=')).drop 1)))

/-- `value.split(":", 1)`, each part without the blanks around it. -/
def splitDependency (value : String) : String × String :=
  (strip (String.ofList (value.toList.takeWhile (· ≠ ':'))),
    upper (strip (String.ofList ((value.toList.dropWhile (· ≠ ':')).drop 1))))

/-- One line of the loop of `_parse_body`. -/
def Body.read (body : Body) (line : Line) : Body :=
  match bodyEntry line with
  | none => body
  | some (key, value) =>
    if key = "DEPENDENCY" ∧ ':' ∈ value.toList then
      { body with dependencies := body.dependencies ++ [splitDependency value] }
    else if key ≠ "" ∧ (body.fields.get? key).isSome = false then
      { body with fields := body.fields.set key value }
    else body

/-- `_parse_body`. -/
def parseBody (text : String) : Body := (splitlines text).foldl Body.read ⟨∅, []⟩

/-- `_required`. -/
def required (body : Body) (key : String) : Except CollectError String :=
  match body.fields.get? key with
  | none => .error ⟨s!"authoritative packet is missing {key}"⟩
  | some value =>
    if strip value = "" then .error ⟨s!"authoritative packet is missing {key}"⟩
    else .ok (strip value)

/-- `BRANCH_RE.fullmatch`. -/
def branchRe (s : String) : Bool := s ≠ "" && s.toList.all fun c => isSlugChar c || c == '/'

/-- What the collector keeps of a packet. -/
structure PacketFacts where
  branch : String
  status : String
  intentRevision : ℤ
  priority : String
  changeRisk : String
  taskKind : String
  dependencies : List (String × String)
deriving DecidableEq, Repr

def badRevision : CollectError := ⟨"authoritative intent revision is not an integer"⟩

/-- `int` of a field. -/
def requiredInt (body : Body) (key : String) : Except CollectError ℤ := do
  let text ← required body key
  match int text with
  | .error _ => .error badRevision
  | .ok n => return n

/-- The checks of the identity and of the required fields, in order. -/
def packetFacts (repository workstream : String) (body : Body) :
    Except CollectError PacketFacts := do
  let packetRepo ← required body "TARGET_REPO"
  let packetWorkstream ← required body "WORKSTREAM"
  if packetRepo ≠ repository ∨ packetWorkstream ≠ workstream then
    .error ⟨"gh issue packet identity does not match the declared watch"⟩
  let branch ← required body "BRANCH"
  if branchRe branch = false then .error ⟨"authoritative branch is not a bounded git ref"⟩
  let status ← required body "STATUS"
  let intentRevision ← requiredInt body "INTENT_REVISION"
  if intentRevision < 1 then .error badRevision
  let priority ← required body "PRIORITY"
  let changeRisk ← required body "CHANGE_RISK"
  let taskKind ← required body "TASK_KIND"
  return ⟨branch, upper status, intentRevision, upper priority, upper changeRisk, upper taskKind,
    body.dependencies⟩

end DataRelay.Tools.Collect
