import DataRelay.Lib.Process
import DataRelay.Tools.Values

/-! Dispatch markers: `consume_dispatch_once`, `reserve_dispatch` and `finalize_dispatch`, call by call.

    The module variables that only tests set have the value they are given in the module, so each
    operation works on the marker file of its token. What is written to a marker is ASCII text, and
    its content is kept as the text. -/

namespace DataRelay.Tools.Dispatch
open Lib

/-! ### The marker files -/

/-- An `OSError`, as far as the code tells one from another. -/
inductive Errno where
  | exist | noEntry | loop | other
deriving DecidableEq, Repr

/-- A marker file, and the process that holds its lock. -/
structure Marker where
  content : List Char
  lock : Option ℕ
deriving DecidableEq, Repr

/-- The host directory of the markers, by token. -/
abbrev Markers := String → Option Marker

/-- How far a write came: it put some bytes down and goes on, or it is over. -/
inductive Written where
  | more (n : ℕ)
  | done
  | failed (e : Errno)
deriving DecidableEq, Repr

/-- The system calls on the markers. -/
inductive Call where
  | ready
  | existsLegacy (token : String)
  | existsMarker (token : String)
  | openExcl (token : String)
  | openRead (token : String)
  | openWrite (token : String)
  | read (token : String)
  | flock (token : String)
  | truncate (token : String)
  | write (token : String) (offset : ℕ) (data : List Char)
  | fsync (token : String)
  | close (token : String)
deriving DecidableEq, Repr

/-- What each call is answered. -/
abbrev Call.Answer : Call → Type
  | .ready | .existsLegacy _ | .existsMarker _ => Bool
  | .read _ => Except Errno (List Char)
  | .write .. => Written
  | _ => Except Errno Unit

/-- What a call leaves open: an error of its own, an answer from outside, or how much of a write is
    put down at once and whether the write ends there. -/
inductive Choice where
  | go
  | fail (e : Errno)
  | answer (b : Bool)
  | put (n : ℕ) (stop : Option (Option Errno))
deriving DecidableEq, Repr

/-- The content after some bytes were written at an offset; a gap is filled with zeros. -/
def writeAt (content : List Char) (offset : ℕ) (data : List Char) : List Char :=
  content.take offset ++ List.replicate (offset - content.length) (Char.ofNat 0) ++ data ++
    content.drop (offset + data.length)

/-- A marker is replaced. -/
def setMarker (s : Markers) (token : String) (m : Marker) : Markers :=
  Function.update s token (some m)

/-- The lock of a marker is given up by the process that holds it. -/
def Marker.unlock (pid : ℕ) (m : Marker) : Marker :=
  if m.lock = some pid then { m with lock := none } else m

/-- One call of the process `pid`. A lock that another process holds stops it; a call on a marker
    that is not there fails. -/
def exec (pid : ℕ) (s : Markers) : (c : Call) → Choice → Option (c.Answer × Markers)
  | .ready, .answer b => some (b, s)
  | .existsLegacy _, .answer b => some (b, s)
  | .existsMarker token, .go => some ((s token).isSome, s)
  | .openExcl token, .go =>
    match s token with
    | some _ => some (.error .exist, s)
    | none => some (.ok (), setMarker s token ⟨[], none⟩)
  | .openExcl _, .fail e => some (.error e, s)
  | .openRead token, .go => some (if (s token).isSome then .ok () else .error .noEntry, s)
  | .openRead _, .fail e => some (.error e, s)
  | .openWrite token, .go => some (if (s token).isSome then .ok () else .error .noEntry, s)
  | .openWrite _, .fail e => some (.error e, s)
  | .read token, .go =>
    match s token with
    | some m => some (.ok (m.content.take 4096), s)
    | none => some (.error .other, s)
  | .read _, .fail e => some (.error e, s)
  | .flock token, .go =>
    match s token with
    | some m =>
      if m.lock = none ∨ m.lock = some pid then
        some (.ok (), setMarker s token { m with lock := some pid })
      else none
    | none => some (.error .other, s)
  | .flock _, .fail e => some (.error e, s)
  | .truncate token, .go =>
    match s token with
    | some m => some (.ok (), setMarker s token { m with content := [] })
    | none => some (.error .other, s)
  | .truncate _, .fail e => some (.error e, s)
  | .write token offset data, .put n stop =>
    match s token with
    | some m =>
      let written : Written := match stop with
        | none => .more (data.take n).length
        | some none => .done
        | some (some e) => .failed e
      some (written, setMarker s token { m with content := writeAt m.content offset (data.take n) })
    | none => some (.failed .other, s)
  | .fsync _, .go => some (.ok (), s)
  | .fsync _, .fail e => some (.error e, s)
  | .close token, .go =>
    match s token with
    | some m => some (.ok (), setMarker s token (m.unlock pid))
    | none => some (.error .other, s)
  | .close token, .fail e =>
    match s token with
    | some m => some (.error e, setMarker s token (m.unlock pid))
    | none => some (.error e, s)
  | _, _ => none

example (pid : ℕ) (s : Markers) (token : String) (e : Errno) :
    exec pid s (.flock token) (.fail e) = some (.error e, s) := by
  simp only [exec]

/-- A process that ends gives up its locks. -/
def crash (pid : ℕ) (s : Markers) : Markers := fun token => (s token).map (Marker.unlock pid)

/-- What the calls do to the markers. -/
def world : World Markers Call.Answer Choice := ⟨exec, crash⟩

/-- A program over these calls. -/
abbrev Program (α : Type) := Prog Call.Answer α

/-! ### The calls as programs -/

/-- `_production_replay_ready`. -/
def replayReady : Program Bool := .call .ready .ret

/-- The legacy marker is there. -/
def existsLegacy (token : String) : Program Bool := .call (.existsLegacy token) .ret

/-- The marker is there. -/
def existsMarker (token : String) : Program Bool := .call (.existsMarker token) .ret

/-- `os.open` with `O_CREAT | O_EXCL`. -/
def openExcl (token : String) : Program (Except Errno Unit) := .call (.openExcl token) .ret

/-- `os.open` for reading. -/
def openRead (token : String) : Program (Except Errno Unit) := .call (.openRead token) .ret

/-- `os.open` for reading and writing. -/
def openWrite (token : String) : Program (Except Errno Unit) := .call (.openWrite token) .ret

/-- `os.read` up to the end. -/
def osRead (token : String) : Program (Except Errno (List Char)) := .call (.read token) .ret

/-- `fcntl.flock`. -/
def flock (token : String) : Program (Except Errno Unit) := .call (.flock token) .ret

/-- `os.ftruncate` to nothing. -/
def ftruncate (token : String) : Program (Except Errno Unit) := .call (.truncate token) .ret

/-- `os.fsync`. -/
def fsync (token : String) : Program (Except Errno Unit) := .call (.fsync token) .ret

/-- `os.close`. -/
def osClose (token : String) : Program (Except Errno Unit) := .call (.close token) .ret

/-- `os.write`, on a file that stands at `offset`. The bytes may reach the file a few at a time; how
    many of them did is not looked at. -/
def osWrite (token : String) : ℕ → ℕ → List Char → Program (Except Errno Unit)
  | 0, _, _ => .ret (.ok ())
  | fuel + 1, offset, data =>
    if data = [] then .ret (.ok ())
    else .call (.write token offset data) fun
      | .more n => osWrite token fuel (offset + n) (data.drop n)
      | .done => .ret (.ok ())
      | .failed e => .ret (.error e)

/-! ### Tokens and records -/

/-- A character that a dispatch id keeps in its token. -/
def isTokenChar (c : Char) : Bool := isSlugChar c

/-- `_safe_dispatch_token`. -/
def safeDispatchToken (dispatchId : String) : Option String :=
  let token := strip dispatchId
  if token = "" ∨ 128 < token.toList.length then none
  else if token.toList.all isTokenChar then some token
  else none

/-- The pair that a dispatch is reserved for. -/
structure Binding where
  effect : String
  attempt : String
deriving DecidableEq, Repr

/-- `_effect_binding`. -/
def effectBinding (effectSha256 attemptId : String) : Option Binding :=
  let effect := lower (strip effectSha256)
  match safeDispatchToken attemptId with
  | none => none
  | some attempt =>
    if effect.toList.length = 64 ∧ effect.toList.all isLowerHex then some ⟨effect, attempt⟩
    else none

/-- The state of a record. -/
inductive RecordState where
  | reserved | consumed
deriving DecidableEq, Repr

def RecordState.name : RecordState → String
  | .reserved => "reserved"
  | .consumed => "consumed"

/-- What a marker says; a record that no content was read for has no fields beside its state. -/
structure Record where
  state : RecordState
  effect : Option String
  attempt : Option String
deriving DecidableEq, Repr

/-- What an unreadable record counts as: consumed, and of nobody. -/
def takenRecord : Record := ⟨.consumed, some "", some ""⟩

/-- The record of a content; whatever is not a record counts as consumed. -/
def parseRecord (text : List Char) : Record :=
  if text = "consumed\n".toList then takenRecord
  else match Json.loads text with
    | some (.obj parsed) =>
      let fields (state : RecordState) : Record :=
        ⟨state, strOrEmpty (field parsed "effect_sha256"), strOrEmpty (field parsed "attempt_id")⟩
      if strOrEmpty (field parsed "state") = "reserved" then fields .reserved
      else if strOrEmpty (field parsed "state") = "consumed" then fields .consumed
      else takenRecord
    | _ => takenRecord

/-- `_binding_matches`. -/
def Record.matches (record : Record) (b : Binding) : Bool :=
  record.effect = some b.effect && record.attempt = some b.attempt

/-- The content of a marker that is reserved for, or consumed by, a pair. -/
def bindingText (state : RecordState) (b : Binding) : List Char :=
  Json.text (.obj [("state", .str state.name), ("effect_sha256", .str b.effect),
    ("attempt_id", .str b.attempt)])

/-- The record that `consume_dispatch_once` writes. -/
def consumedText : List Char := Json.text (.obj [("state", .str "consumed")]) ++ ['\n']

/-! ### The operations -/

/-- What an operation answers; `raised` is an exception that gets past it. -/
inductive Reply where
  | ok | replay | unavailable | reserved | ownedReserved | ownedConsumed | conflict | raised
deriving DecidableEq, Repr

/-- The call at the end of `try … finally: os.close(fd)`: an error of its own replaces the outcome. -/
def closing {α : Type} (token : String) (outcome : Except Errno α) : Program (Except Errno α) := do
  match ← osClose token with
  | .ok () => return outcome
  | .error e => return .error e

/-- The exclusive creation of a marker with a content. -/
def createMarker (token : String) (data : List Char) : Program (Except Errno Unit) := do
  match ← openExcl token with
  | .error e => return .error e
  | .ok () =>
    let written ← osWrite token (data.length + 1) 0 data
    closing token written

/-- `_read_dispatch_record`; an error inside is an exception of the function. -/
def readDispatchRecord (token : String) : Program (Except Errno (Option Record)) := do
  match ← openRead token with
  | .error .noEntry => return .ok none
  | .error _ => return .ok (some ⟨.consumed, none, none⟩)
  | .ok () =>
    let raw ← osRead token
    closing token (raw.map fun text => some (parseRecord text))

/-- `consume_dispatch_once`. -/
def consumeDispatchOnce (dispatchId : String) : Program Reply := do
  match safeDispatchToken dispatchId with
  | none => return .unavailable
  | some token =>
    if !(← replayReady) then return .unavailable
    if ← existsLegacy token then return .replay
    if ← existsMarker token then return .replay
    match ← createMarker token consumedText with
    | .ok () => return .ok
    | .error .exist => return .replay
    | .error .loop => return .replay
    | .error _ => return .unavailable

/-- `reserve_dispatch`. -/
def reserveDispatch (dispatchId effectSha256 attemptId : String) : Program Reply := do
  match safeDispatchToken dispatchId, effectBinding effectSha256 attemptId with
  | some token, some b =>
    if !(← replayReady) then return .unavailable
    if ← existsLegacy token then return .conflict
    match ← createMarker token (bindingText .reserved b) with
    | .ok () => return .reserved
    | .error .exist =>
      match ← readDispatchRecord token with
      | .error _ => return .raised
      | .ok none => return .unavailable
      | .ok (some record) =>
        if record.matches b then
          return if record.state = .consumed then .ownedConsumed else .ownedReserved
        return .conflict
    | .error .loop => return .conflict
    | .error _ => return .unavailable
  | _, _ => return .unavailable

/-- The state, when the content names the pair. -/
def ownedState (raw : List Char) (b : Binding) : Option String :=
  match Json.loads raw with
  | some (.obj parsed) =>
    if strOrEmpty (field parsed "effect_sha256") = b.effect ∧
        strOrEmpty (field parsed "attempt_id") = b.attempt then
      some (strOrEmpty (field parsed "state"))
    else none
  | _ => none

/-- The locked part of `finalize_dispatch`, an `OSError` inside being its error. -/
def finalizeLocked (token : String) (b : Binding) : Program (Except Errno Reply) := do
  match ← flock token with
  | .error e => return .error e
  | .ok () =>
  match ← osRead token with
  | .error e => return .error e
  | .ok raw =>
  match ownedState raw b with
  | none => return .ok .conflict
  | some state =>
  if state = "consumed" then return .ok .ok
  if state ≠ "reserved" then return .ok .conflict
  match ← ftruncate token with
  | .error e => return .error e
  | .ok () =>
  let data := bindingText .consumed b
  match ← osWrite token (data.length + 1) 0 data with
  | .error e => return .error e
  | .ok () =>
  match ← fsync token with
  | .error e => return .error e
  | .ok () => return .ok .ok

/-- `finalize_dispatch`. -/
def finalizeDispatch (dispatchId effectSha256 attemptId : String) : Program Reply := do
  match safeDispatchToken dispatchId, effectBinding effectSha256 attemptId with
  | some token, some b =>
    if !(← replayReady) then return .unavailable
    match ← openWrite token with
    | .error .noEntry => return .conflict
    | .error _ => return .unavailable
    | .ok () =>
      let outcome ← finalizeLocked token b
      let reply : Reply := match outcome with
        | .ok reply => reply
        | .error _ => .unavailable
      match ← osClose token with
      | .ok () => return reply
      | .error _ => return .raised
  | _, _ => return .unavailable

/-! ### Processes -/

/-- What a process is started for. -/
inductive Task where
  | consume (dispatchId : String)
  | reserve (dispatchId effectSha256 attemptId : String)
  | finalize (dispatchId effectSha256 attemptId : String)
deriving DecidableEq, Repr

/-- The program of a task. -/
def Task.body : Task → Program Reply
  | .consume dispatchId => consumeDispatchOnce dispatchId
  | .reserve dispatchId effectSha256 attemptId => reserveDispatch dispatchId effectSha256 attemptId
  | .finalize dispatchId effectSha256 attemptId => finalizeDispatch dispatchId effectSha256 attemptId

/-- Any number of processes on a host without markers. -/
def machine : Machine (System Markers Call.Answer Task Reply) (Move Task Choice) Unit :=
  System.machine world Task.body fun s => s = fun _ => none

end DataRelay.Tools.Dispatch
