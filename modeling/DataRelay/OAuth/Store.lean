import DataRelay.Lib.Json
import DataRelay.Url

/-! The state file: `DurableOAuthStore`, system call by system call.

    A call the operating system answers is a field of `SaveCalls`, `LoadCalls` or `InitCalls`, so
    every outcome of every call is an input of the model. `save` returns the directory after each
    call that changed it: what a crash leaves behind is the directory it started from or one of
    these. The text of the file is a list of characters; `dumps` writes ASCII only, so a character
    is a byte. -/

namespace DataRelay.OAuth
open Lib

/-- The state file and the temporary file beside it. -/
structure Dir where
  file : Option (List Char)
  tmp : Option (List Char)
deriving DecidableEq

/-- What `_assert_safe_dir` finds of the parent directory. -/
inductive DirCheck where
  | safe | notDirectory | writable | osError
deriving DecidableEq

/-- What `_assert_safe_file_mode` finds of the state file. -/
inductive ModeCheck where
  | safe | tooOpen | osError
deriving DecidableEq

/-- `DurableOAuthStore`. -/
structure DurableOAuthStore where
  path : String
deriving DecidableEq

namespace DurableOAuthStore
variable (store : DurableOAuthStore)

/-- `STATE_VERSION`. -/
def stateVersion : ℤ := 1

/-- `_FORBIDDEN_TOP_LEVEL`. -/
def forbiddenTopLevel : List String :=
  ["owner_approval_secret", "upstream_token", "mock_plugin_token"]

/-- The directory of the state file. -/
def parent : String :=
  match Url.rpartition '/' store.path.toList with
  | ([], true, _) => "/"
  | (dirs, true, _) => String.ofList dirs
  | (_, false, _) => "."

/-- `_assert_safe_dir`. -/
def assertSafeDir : DirCheck → Except PyError Unit
  | .safe => .ok ()
  | .notDirectory =>
    .error (.oauthState ("oauth state parent is not a directory: " ++ store.parent))
  | .writable =>
    .error (.oauthState ("oauth state directory is group/world-writable: " ++ store.parent))
  | .osError => .error .osError

/-- `_assert_safe_file_mode`. -/
def assertSafeFileMode : ModeCheck → Except PyError Unit
  | .safe => .ok ()
  | .tooOpen => .error (.oauthState
    ("oauth state file permissions too open (expected 0600): " ++ store.path))
  | .osError => .error .osError

/-- What the calls of `__init__` answer. -/
structure InitCalls where
  isDir : Bool
  dir : DirCheck
deriving DecidableEq

/-- The constructor. -/
def init (calls : InitCalls) : Except PyError Unit :=
  if calls.isDir then .error (.oauthState
    ("oauth state path must be a file, not a directory: " ++ store.path))
  else store.assertSafeDir calls.dir

/-! ### Loading -/

/-- What the calls of `load` answer. -/
structure LoadCalls where
  mode : ModeCheck
  read : Bool
deriving DecidableEq

/-- `payload.get("version") == STATE_VERSION`: `1`, `1.0` and `True` are equal. -/
def versionOk (payload : Json) : Bool :=
  match payload.get? "version" with
  | some (.int n) => n = stateVersion
  | some (.float x) => x = stateVersion * 10 ^ 7
  | some (.bool b) => b
  | _ => false

/-- The payload holds a secret at its top. -/
def hasForbidden (payload : Json) : Bool :=
  forbiddenTopLevel.any fun k => (payload.get? k).isSome

/-- The value is a mapping. -/
def isObj : Json → Bool
  | .obj _ => true
  | _ => false

/-- The two maps of a payload are objects. -/
def hasMaps (payload : Json) : Bool :=
  (payload.get? "clients").any isObj && (payload.get? "refresh_tokens").any isObj

/-- What `load` returns where there is no file. -/
def emptyPayload : Json :=
  .obj [("version", .int stateVersion), ("clients", .obj []), ("refresh_tokens", .obj [])]

/-- The checks that `load` makes of the parsed file; the message about the version is given without
    the value it prints. -/
def checkPayload (payload : Json) : Except PyError Json :=
  if isObj payload = false then .error (.oauthState "oauth state root must be an object")
  else if versionOk payload = false then
    .error (.oauthState "unsupported oauth state schema version")
  else if hasForbidden payload then
    .error (.oauthState "oauth state contains forbidden credential fields")
  else if hasMaps payload = false then
    .error (.oauthState "oauth state missing clients/refresh_tokens maps")
  else .ok payload

/-- The file is no state file. -/
def corrupt : PyError := .oauthState ("corrupt oauth state file: " ++ store.path)

/-- `load`, of what is in the file. -/
def load (calls : LoadCalls) : Option (List Char) → Except PyError Json
  | none => .ok emptyPayload
  | some text =>
    match store.assertSafeFileMode calls.mode with
    | .error e => .error e
    | .ok () =>
      if calls.read = false then .error store.corrupt
      else match Json.loads text with
        | none => .error store.corrupt
        | some payload => checkPayload payload

/-! ### Saving -/

/-- The outcome of each system call of one `save`: whether it succeeds, and for the write how much
    it transfers. -/
structure SaveCalls where
  dir : DirCheck
  mkstemp : Bool
  write : Option ℕ
  fsync : Bool
  close : Bool
  chmodTmp : Bool
  replace : Bool
  openDir : Bool
  fsyncDir : Bool
  closeDir : Bool
  chmodPath : Bool
  mode : ModeCheck
  unlink : Bool
deriving DecidableEq

/-- The directory after each call of a `save` that changed it, in order, and how `save` ended. -/
structure Saved where
  states : List Dir
  result : Except PyError Unit

/-- The state could not be saved. -/
def failed : PyError := .oauthState ("failed to persist oauth state: " ++ store.path)

/-- A call before the rename failed: the `finally` block unlinks the temporary file. -/
def abort (calls : SaveCalls) (states : List Dir) (dir : Dir) : Saved :=
  ⟨if calls.unlink then states ++ [{ dir with tmp := none }] else states, .error store.failed⟩

/-- After the rename: the directory is synced, and the mode of the file is set and checked. -/
def finish (calls : SaveCalls) : Except PyError Unit :=
  if calls.openDir && calls.fsyncDir && calls.closeDir && calls.chmodPath then
    match store.assertSafeFileMode calls.mode with
    | .error .osError => .error store.failed
    | r => r
  else .error store.failed

/-- `save`, with what the directory holds after each call that changed it. -/
def save (calls : SaveCalls) (payload : Json) (dir : Dir) : Saved :=
  match store.assertSafeDir calls.dir with
  | .error e => ⟨[], .error e⟩
  | .ok () =>
    if versionOk payload = false then
      ⟨[], .error (.oauthState "refusing to persist unsupported oauth state version")⟩
    else if hasForbidden payload then
      ⟨[], .error (.oauthState "refusing to persist forbidden credential fields")⟩
    else if calls.mkstemp = false then ⟨[], .error store.failed⟩
    else
      let made : Dir := { dir with tmp := some [] }
      match calls.write with
      | none => store.abort calls [made] made
      | some n =>
        -- `os.write` reports how much it wrote; nobody reads that
        let written : Dir := { dir with tmp := some ((Json.dumps payload).take n) }
        if calls.fsync && calls.close && calls.chmodTmp && calls.replace then
          ⟨[made, written, ⟨written.tmp, none⟩], store.finish calls⟩
        else store.abort calls [made, written] written

/-- The directory a `save` that ran to its end leaves. -/
def Saved.last (saved : Saved) (dir : Dir) : Dir := saved.states.getLast?.getD dir

end DurableOAuthStore

end DataRelay.OAuth
