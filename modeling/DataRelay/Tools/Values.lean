import Mathlib.Data.List.Sort
import DataRelay.Lib.Json
import DataRelay.Python

/-! What the coordinator tools share: the errors they raise, the checks they make of a JSON document,
    and what Python makes of a JSON value as a text or as a truth value.

    `_require_mapping`, `_require_str` and `_reject_unknown` stand in every tool, each with the
    exception of that tool; here they take it as `raise`. -/

namespace DataRelay.Tools
open Lib

/-- `PlannerFactsError`, `WatchFactsError`, `HostRequestError` and `AdmissionFactsError`, and the
    built-in exception that gets past them. -/
inductive ToolError where
  | plannerFacts (reason denyClass : String)
  | watchFacts (reason denyClass : String)
  | hostRequest (reason denyClass : String)
  | admissionFacts (reason denyClass : String)
  | overflowError
deriving DecidableEq, Repr

/-- A sequence of two steps returns what the second makes of the result of the first. -/
theorem bind_ok {ε α β : Type} {x : Except ε α} {f : α → Except ε β} {b : β} :
    (x >>= f) = .ok b ↔ ∃ a, x = .ok a ∧ f a = .ok b := by
  cases x with
  | error e => simp [bind, Except.bind]
  | ok a => simp [bind, Except.bind]

theorem toOption_eq_some {ε α : Type} {x : Except ε α} {a : α} : x.toOption = some a ↔ x = .ok a := by
  cases x <;> simp [Except.toOption]

/-- What is read off a result is read off a result there is. -/
theorem map_toOption_eq_some {ε α β : Type} {x : Except ε α} {f : α → β} {b : β}
    (h : x.toOption.map f = some b) : ∃ a, x = .ok a ∧ f a = b := by
  obtain ⟨a, ha, rfl⟩ := Option.map_eq_some_iff.mp h
  exact ⟨a, toOption_eq_some.mp ha, rfl⟩

/-- A check that raises was passed by whatever comes after it. -/
theorem check_ok {ε α β : Type} {c : Prop} [Decidable c] {e : ε} {f : α → Except ε β}
    {x : Except ε β} {b : β} :
    (if c then (.error e >>= f) else x) = .ok b ↔ ¬ c ∧ x = .ok b := guard_ok

/-- The class that ambiguous facts are denied under. -/
def ambiguousFacts : String := "AMBIGUOUS_FACTS"

/-- The fields of a JSON object, in order. -/
abbrev Obj := List (String × Json)

/-! ### Values -/

/-- `key in data`. -/
def has (data : Obj) (key : String) : Bool := ((Json.obj data).get? key).isSome

/-- `data.get(key)`. -/
def field (data : Obj) (key : String) : Json := ((Json.obj data).get? key).getD .null

/-- `data.get(key, default)`. -/
def fieldD (data : Obj) (key : String) (default : Json) : Json :=
  ((Json.obj data).get? key).getD default

/-- Python's truth value. -/
def truthy : Json → Bool
  | .null => false
  | .bool b => b
  | .int n => n ≠ 0
  | .float x => x ≠ 0
  | .str s => s ≠ ""
  | .arr items => !items.isEmpty
  | .obj fields => !fields.isEmpty

/-- `a or b` on two texts. -/
def orStr (a b : String) : String := if a = "" then b else a

/-- `value == 1`, which `True` and `1.0` are too. -/
def isOne : Json → Bool
  | .int n => n = 1
  | .float x => x = 10 ^ 7
  | .bool b => b
  | _ => false

/-- A byte in two hexadecimal digits. -/
def hex2 (n : ℕ) : List Char := [Json.hexChar (n / 16 % 16), Json.hexChar (n % 16)]

/-- One character between the quotes of `repr`; beyond ASCII every character counts as printable. -/
def reprChar (quote c : Char) : List Char :=
  if c = quote ∨ c = '\\' then ['\\', c]
  else if c = '\n' then ['\\', 'n']
  else if c = '\r' then ['\\', 'r']
  else if c = '\t' then ['\\', 't']
  else if c.toNat < 32 ∨ 127 ≤ c.toNat ∧ c.toNat ≤ 160 then '\\' :: 'x' :: hex2 c.toNat
  else [c]

/-- `repr(text)`. -/
def reprStr (text : String) : List Char :=
  let quote := if text.toList.contains '\'' && !text.toList.contains '"' then '"' else '\''
  quote :: text.toList.flatMap (reprChar quote) ++ [quote]

mutual

/-- `repr(value)`. -/
def reprJson : Json → List Char
  | .null => "None".toList
  | .bool true => "True".toList
  | .bool false => "False".toList
  | .int n => Json.intText n
  | .float x => Json.floatText x
  | .str s => reprStr s
  | .arr items => '[' :: reprItems items ++ [']']
  | .obj fields => '{' :: reprFields fields ++ ['}']

/-- The items of a list, with commas. -/
def reprItems : List Json → List Char
  | [] => []
  | [v] => reprJson v
  | v :: vs => reprJson v ++ [',', ' '] ++ reprItems vs

/-- The items of a mapping, with commas. -/
def reprFields : Obj → List Char
  | [] => []
  | [(k, v)] => reprStr k ++ [':', ' '] ++ reprJson v
  | (k, v) :: fs => reprStr k ++ [':', ' '] ++ reprJson v ++ [',', ' '] ++ reprFields fs

end

/-- `str(value)`. -/
def pyStr : Json → String
  | .str s => s
  | v => String.ofList (reprJson v)

/-- `str(value or "")`. -/
def strOrEmpty (value : Json) : String := if truthy value then pyStr value else ""

theorem strOrEmpty_str (s : String) : strOrEmpty (.str s) = s := by
  by_cases h : s = "" <;> simp [strOrEmpty, truthy, pyStr, h]

/-- `str(n)`. -/
def intStr (n : ℤ) : String := String.ofList (Json.intText n)

/-! ### Checks -/

/-- `_require_mapping`. -/
def requireMapping (raise : String → ToolError) (value : Json) (label : String) :
    Except ToolError Obj :=
  match value with
  | .obj fields => .ok fields
  | _ => .error (raise s!"{label} must be a JSON object")

/-- `_require_str`. -/
def requireStr (raise : String → ToolError) (value : Json) (label : String) :
    Except ToolError String :=
  match value with
  | .str s =>
    if strip s = "" then .error (raise s!"{label} must be a non-empty string") else .ok (strip s)
  | _ => .error (raise s!"{label} must be a non-empty string")

/-- The keys that are not allowed, sorted. -/
def unknownKeys (payload : Obj) (allowed : List String) : List String :=
  ((payload.map Prod.fst).filter fun k => !allowed.contains k).insertionSort (· ≤ ·)

/-- `_reject_unknown`. -/
def rejectUnknown (raise : String → ToolError) (payload : Obj) (allowed : List String)
    (label : String) : Except ToolError Unit :=
  match unknownKeys payload allowed with
  | [] => .ok ()
  | key :: _ => .error (raise s!"{label} contains unknown key {String.ofList (reprStr key)}")

/-! ### Patterns -/

/-- `[0-9]`. -/
def isDigitAscii (c : Char) : Bool := '0' ≤ c && c ≤ '9'

/-- `[A-Za-z0-9]`. -/
def isAlnumAscii (c : Char) : Bool := isDigitAscii c || 'a' ≤ c && c ≤ 'z' || 'A' ≤ c && c ≤ 'Z'

/-- `[0-9a-f]`. -/
def isLowerHex (c : Char) : Bool := isDigitAscii c || 'a' ≤ c && c ≤ 'f'

/-- `[A-Za-z0-9_.-]`. -/
def isSlugChar (c : Char) : Bool := isAlnumAscii c || c == '_' || c == '.' || c == '-'

/-- `FULL_SHA_RE.fullmatch`. -/
def fullSha (s : String) : Bool := s.toList.length = 40 && s.toList.all isLowerHex

/-- `REPOSITORY_RE.fullmatch`. -/
def repositoryRe (s : String) : Bool :=
  let owner := s.toList.takeWhile isSlugChar
  let name := s.toList.drop (owner.length + 1)
  s.toList[owner.length]? = some '/' && !owner.isEmpty && !name.isEmpty && name.all isSlugChar

/-- `WORKSTREAM_RE.fullmatch`. -/
def workstreamRe (s : String) : Bool :=
  match s.toList with
  | [] => false
  | c :: cs => isAlnumAscii c && cs.all isSlugChar

/-! ### Execution keys -/

/-- `FORBIDDEN_REQUEST_KEYS`. -/
def forbiddenRequestKeys : List String :=
  ["command", "commands", "shell", "argv", "execute", "exec", "script", "run", "subprocess", "bash",
    "powershell"]

mutual

/-- `reject_execution_keys`: every object below the payload is looked at, through objects and through
    the items of a list, but not through a list inside a list. -/
def rejectExecutionKeys : Obj → String → Except ToolError Unit
  | [], _ => .ok ()
  | (key, child) :: rest, path =>
    if forbiddenRequestKeys.contains (lower (strip key)) then
      .error (.plannerFacts
        s!"{path} contains forbidden execution key {String.ofList (reprStr key)}"
        "EXECUTION_FORBIDDEN")
    else do
      rejectExecutionChild child s!"{path}.{key}"
      rejectExecutionKeys rest path

/-- One value of a mapping. -/
def rejectExecutionChild : Json → String → Except ToolError Unit
  | .obj fields, path => rejectExecutionKeys fields path
  | .arr items, path => rejectExecutionItems items path 0
  | _, _ => .ok ()

/-- The items of a list, from an index on. -/
def rejectExecutionItems : List Json → String → ℕ → Except ToolError Unit
  | [], _, _ => .ok ()
  | .obj fields :: rest, path, index => do
    rejectExecutionKeys fields s!"{path}[{index}]"
    rejectExecutionItems rest path (index + 1)
  | _ :: rest, path, index => rejectExecutionItems rest path (index + 1)

end

end DataRelay.Tools
