import DataRelay.Lib.Trace
import DataRelay.OAuth.Token

/-! The service with its callers: a machine whose steps are the stretches of all the calls, in any
    order, with crashes and restarts.

    A call of `begin_authorization` or `complete_authorization` runs on a thread, which remembers
    where the call stands between two stretches; the other calls are one step each. A crash ends the
    process behind any stretch: the response is lost, and with it everything but the state file. A
    crash in the middle of a stretch leaves the file that stretch would have left had a call of its
    save failed, so it is a crash behind a stretch with that save. -/

namespace DataRelay.OAuth
open Lib

/-- Where a call stands between two stretches. -/
inductive Thread where
  | beginError (req : AuthorizeRequest) (e : PyError)
  | beginChecked (req : AuthorizeRequest) (source : String) (scopes : Finset String)
  | beginReady (source : String) (p : PendingAuthorization)
  | completePopped (req : CompleteRequest) (pending : Option PendingAuthorization)
  | completeDeciding (req : CompleteRequest) (p : PendingAuthorization)
  | completeApproved (req : CompleteRequest) (p : PendingAuthorization)
  | completeReady (req : CompleteRequest) (p : PendingAuthorization) (c : AuthCode)

/-- One stretch of a call; `tid` is the thread it runs on. -/
inductive Op where
  | register (body : Json) (source : String)
  | beginCall (tid : ℕ) (params : Dict String String) (source : String)
  | beginRedirect (tid : ℕ)
  | beginBuild (tid : ℕ)
  | beginAdmit (tid : ℕ)
  | completeCall (tid : ℕ) (req : CompleteRequest)
  | completeCheck (tid : ℕ)
  | completeDecide (tid : ℕ)
  | completeBuild (tid : ℕ)
  | completeStore (tid : ℕ)
  | exchange (form : Dict String String)
  | revoke (form : Dict String String)
  | validate (authorization : Option String) (requiredScopes : Finset String)
  | restart (calls : OAuthService.StartCalls)

/-- A stretch, what it takes from outside, and whether the process dies behind it. -/
structure Act where
  op : Op
  env : Env
  crash : Bool

/-- What a caller sees of a stretch. -/
inductive Resp where
  | running
  | registered (r : OAuthService.Registration)
  | authorized (p : PendingAuthorization)
  | errorRedirected (params : List (String × String))
  | redirected (r : Redirect)
  | issued (t : TokenResponse)
  | revoked
  | bearer (t : AccessToken)
  | started
  | raised (e : PyError)
  | crashed

/-- The answer to a call that returned or raised. -/
def respond {α : Type} (f : α → Resp) : Except PyError α → Resp
  | .ok x => f x
  | .error e => .raised e

/-- The process, if it is up: the service, and for each thread the point its call is at. While it is
    down only the state file is left. -/
structure System where
  svc : OAuthService
  threads : Dict ℕ Thread
  up : Bool

namespace System
variable (cfg : Config) (env : Env) (sys : System)

/-- The process is gone; the state file stays. -/
def crash : System := ⟨.empty sys.svc.file, ∅, false⟩

/-- The call on `tid` goes on from a new point. -/
def goOn (tid : ℕ) (svc : OAuthService) (thread : Thread) : System × Resp :=
  ({ sys with svc := svc, threads := sys.threads.set tid thread }, .running)

/-- The call on `tid` ends. -/
def finish (tid : ℕ) (svc : OAuthService) (resp : Resp) : System × Resp :=
  ({ sys with svc := svc, threads := sys.threads.erase tid }, resp)

/-- A call that is one stretch. -/
def atOnce (svc : OAuthService) (resp : Resp) : System × Resp := ({ sys with svc := svc }, resp)

/-- The first stretch of `begin_authorization`, under the first lock. -/
def begun (tid : ℕ) (params : Dict String String) (source : String) : System × Resp :=
  let req := AuthorizeRequest.ofParams params
  match sys.svc.beginCheck cfg req with
  | .error e => (sys, .raised e)
  | .ok (.error e) => sys.goOn tid sys.svc (.beginError req e)
  | .ok (.ok scopes) => sys.goOn tid sys.svc (.beginChecked req source scopes)

/-- The stretch of `complete_authorization` that looks at the popped entry, without a lock. -/
def checked (tid : ℕ) (req : CompleteRequest) (pending : Option PendingAuthorization) :
    System × Resp :=
  match OAuthService.completeCheck cfg env req pending with
  | .error e => sys.finish tid sys.svc (.raised e)
  | .ok (.inl r) => sys.finish tid sys.svc (.redirected r)
  | .ok (.inr p) => sys.goOn tid sys.svc (.completeDeciding req p)

/-- The stretch of `complete_authorization` that compares the owner's secret and can put the entry
    back. -/
def decided (tid : ℕ) (req : CompleteRequest) (p : PendingAuthorization) : System × Resp :=
  let r := sys.svc.completeDecide cfg env req p
  match r.2 with
  | .error e => sys.finish tid r.1 (.raised e)
  | .ok () => sys.goOn tid r.1 (.completeApproved req p)

/-- A start from the state file; if it raises, the process stays down. -/
def restarted (calls : OAuthService.StartCalls) : System × Resp :=
  let r := OAuthService.start cfg env calls sys.svc.file
  match r.2 with
  | .error e => (⟨.empty r.1.file, ∅, false⟩, .raised e)
  | .ok () => (⟨r.1, ∅, true⟩, .started)

/-- One stretch of a call on a thread. -/
def onThread (tid : ℕ) : Op → Thread → Option (System × Resp)
  | .beginRedirect _, .beginError req e =>
    some (sys.finish tid sys.svc (respond .errorRedirected (sys.svc.errorRedirect cfg req e)))
  | .beginBuild _, .beginChecked req source scopes =>
    some (sys.goOn tid sys.svc (.beginReady source (OAuthService.beginBuild env req scopes)))
  | .beginAdmit _, .beginReady source p =>
    let r := sys.svc.beginAdmit env p source
    some (sys.finish tid r.1 (respond .authorized r.2))
  | .completeCheck _, .completePopped req pending => some (sys.checked cfg env tid req pending)
  | .completeDecide _, .completeDeciding req p => some (sys.decided cfg env tid req p)
  | .completeBuild _, .completeApproved req p =>
    some (sys.goOn tid sys.svc (.completeReady req p (OAuthService.completeBuild env p)))
  | .completeStore _, .completeReady _ p c =>
    let r := sys.svc.completeStore cfg env p c
    some (sys.finish tid r.1 (respond .redirected r.2))
  | _, _ => none

end System

/-- The thread an operation starts a call on. -/
def Op.starts : Op → Option ℕ
  | .beginCall tid _ _ => some tid
  | .completeCall tid _ => some tid
  | _ => none

/-- The thread whose call an operation goes on with. -/
def Op.resumes : Op → Option ℕ
  | .beginRedirect tid => some tid
  | .beginBuild tid => some tid
  | .beginAdmit tid => some tid
  | .completeCheck tid => some tid
  | .completeDecide tid => some tid
  | .completeBuild tid => some tid
  | .completeStore tid => some tid
  | _ => none

namespace System
variable (cfg : Config) (env : Env) (sys : System)

/-- One stretch on a running service. -/
def stretch (op : Op) : Option (System × Resp) :=
  match op.resumes with
  | some tid => (sys.threads.get? tid).bind (sys.onThread cfg env tid op)
  | none =>
    if op.starts.any sys.threads.contains then none
    else match op with
      | .register body source =>
        let r := sys.svc.registerClient cfg env body source
        some (sys.atOnce r.1 (respond .registered r.2))
      | .beginCall tid params source => some (sys.begun cfg tid params source)
      | .completeCall tid req =>
        let r := sys.svc.completePop req
        some (sys.goOn tid r.1 (.completePopped req r.2))
      | .exchange form =>
        let r := sys.svc.exchangeToken cfg env form
        some (sys.atOnce r.1 (respond .issued r.2))
      | .revoke form =>
        let r := sys.svc.revoke cfg env form
        some (sys.atOnce r.1 (respond (fun _ => .revoked) r.2))
      | .validate authorization requiredScopes =>
        some (sys, respond .bearer
          (sys.svc.validateBearer cfg env authorization requiredScopes))
      | _ => none

/-- A start when the process is down, any other call when it is up. -/
def step (a : Act) : Option (System × Resp) :=
  let r := match a.op with
    | .restart calls => some (sys.restarted cfg a.env calls)
    | op => if sys.up then sys.stretch cfg a.env op else none
  r.map fun r => if a.crash then (r.1.crash, .crashed) else r

end System

/-- A service that runs with an empty store, no state file and no call. -/
def System.initial : System := ⟨.empty none, ∅, true⟩

/-- A step of a run, with the states before and behind it. -/
abbrev Event := Entry System Act Resp

/-- The steps of a run, the newest first. -/
abbrev Trace := History System Act Resp

/-- The service as a machine, with a process that has not started yet. -/
def machine (cfg : Config) : Machine System Act Resp where
  init sys := sys = System.initial
  step := System.step cfg

end DataRelay.OAuth
