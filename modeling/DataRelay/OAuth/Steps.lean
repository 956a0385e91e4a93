import DataRelay.OAuth.System

/-! What one step can do, said once.

    `Effect` lists what a stretch does to the service, `Arises` how a call can come to stand at a new
    point. Every step is an effect, with the memory lost behind it when the process dies, and every
    thread after a step was there before or has arisen. The invariants are proved by cases on these
    two relations; nothing else unfolds the machine. -/

namespace DataRelay.OAuth
open Lib

/-- The operations that leave the service alone and give no record away. -/
def Op.idle : Op → Bool
  | .beginCall .. => true
  | .beginRedirect _ => true
  | .beginBuild _ => true
  | .completeCheck _ => true
  | .completeBuild _ => true
  | _ => false

/-- What an operation does to the service, and what the caller sees of it. -/
inductive Effect (cfg : Config) (env : Env) (sys : System) : Op → OAuthService → Resp → Prop where
  | idle {op : Op} {resp : Resp} (hop : op.idle = true) (h : ∀ t, resp ≠ .bearer t)
      (h' : ∀ t, resp ≠ .issued t) (h'' : resp ≠ .revoked) : Effect cfg env sys op sys.svc resp
  | validate (authorization : Option String) (requiredScopes : Finset String) :
      Effect cfg env sys (.validate authorization requiredScopes) sys.svc
        (respond .bearer (sys.svc.validateBearer cfg env authorization requiredScopes))
  | register (body : Json) (source : String) :
      Effect cfg env sys (.register body source) (sys.svc.registerClient cfg env body source).1
        (respond .registered (sys.svc.registerClient cfg env body source).2)
  | admission {tid : ℕ} {source : String} {p : PendingAuthorization}
      (ht : sys.threads.get? tid = some (.beginReady source p)) :
      Effect cfg env sys (.beginAdmit tid) (sys.svc.beginAdmit env p source).1
        (respond .authorized (sys.svc.beginAdmit env p source).2)
  | pop (tid : ℕ) (req : CompleteRequest) :
      Effect cfg env sys (.completeCall tid req) (sys.svc.completePop req).1 .running
  | decide {tid : ℕ} {req : CompleteRequest} {p : PendingAuthorization}
      (ht : sys.threads.get? tid = some (.completeDeciding req p)) :
      Effect cfg env sys (.completeDecide tid) (sys.svc.completeDecide cfg env req p).1
        (respond (fun _ => .running) (sys.svc.completeDecide cfg env req p).2)
  | store {tid : ℕ} {req : CompleteRequest} {p : PendingAuthorization} {c : AuthCode}
      (ht : sys.threads.get? tid = some (.completeReady req p c)) :
      Effect cfg env sys (.completeStore tid) (sys.svc.completeStore cfg env p c).1
        (respond .redirected (sys.svc.completeStore cfg env p c).2)
  | exchange (form : Dict String String) :
      Effect cfg env sys (.exchange form) (sys.svc.exchangeToken cfg env form).1
        (respond .issued (sys.svc.exchangeToken cfg env form).2)
  | revoke (form : Dict String String) :
      Effect cfg env sys (.revoke form) (sys.svc.revoke cfg env form).1
        (respond (fun _ => .revoked) (sys.svc.revoke cfg env form).2)
  | start (calls : OAuthService.StartCalls) :
      Effect cfg env sys (.restart calls) (OAuthService.start cfg env calls sys.svc.file).1
        (respond (fun _ => .started) (OAuthService.start cfg env calls sys.svc.file).2)

/-- How a thread comes to a new point. -/
inductive Arises (cfg : Config) (env : Env) (sys : System) (tid : ℕ) : Op → Thread → Prop where
  | error {params : Dict String String} {source : String} {e : PyError}
      (h : sys.svc.beginCheck cfg (.ofParams params) = .ok (.error e)) :
      Arises cfg env sys tid (.beginCall tid params source) (.beginError (.ofParams params) e)
  | checked {params : Dict String String} {source : String} {scopes : Finset String}
      (h : sys.svc.beginCheck cfg (.ofParams params) = .ok (.ok scopes)) :
      Arises cfg env sys tid (.beginCall tid params source)
        (.beginChecked (.ofParams params) source scopes)
  | begun {req : AuthorizeRequest} {source : String} {scopes : Finset String}
      (ht : sys.threads.get? tid = some (.beginChecked req source scopes)) :
      Arises cfg env sys tid (.beginBuild tid)
        (.beginReady source (OAuthService.beginBuild env req scopes))
  | popped (req : CompleteRequest) :
      Arises cfg env sys tid (.completeCall tid req)
        (.completePopped req (sys.svc.pending.get? req.requestId))
  | deciding {req : CompleteRequest} {p : PendingAuthorization}
      (ht : sys.threads.get? tid = some (.completePopped req (some p)))
      (hd : req.decision = "approve") (hlive : env.t0 ≤ p.expiresAt) :
      Arises cfg env sys tid (.completeCheck tid) (.completeDeciding req p)
  | approved {req : CompleteRequest} {p : PendingAuthorization}
      (ht : sys.threads.get? tid = some (.completeDeciding req p))
      (hok : (sys.svc.completeDecide cfg env req p).2 = .ok ()) :
      Arises cfg env sys tid (.completeDecide tid) (.completeApproved req p)
  | ready {req : CompleteRequest} {p : PendingAuthorization}
      (ht : sys.threads.get? tid = some (.completeApproved req p)) :
      Arises cfg env sys tid (.completeBuild tid)
        (.completeReady req p (OAuthService.completeBuild env p))

variable {cfg : Config} {env : Env} {sys sys' : System} {op : Op} {r : Resp} {tid : ℕ}

theorem respond_ne {α : Type} {f : α → Resp} {x : Except PyError α} {resp : Resp}
    (hf : ∀ y, f y ≠ resp) (he : ∀ e, resp ≠ .raised e) : respond f x ≠ resp := by
  cases x with
  | ok y => exact hf y
  | error e => exact (he e).symm

/-! ### Calls on a thread -/

theorem checked_effect {req : CompleteRequest} {pending : Option PendingAuthorization}
    (hop : op.idle = true) : Effect cfg env sys op (sys.checked cfg env tid req pending).1.svc
      (sys.checked cfg env tid req pending).2 := by
  unfold System.checked
  split <;> exact .idle hop (by intro _ h; cases h) (by intro _ h; cases h) (by intro h; cases h)

theorem decided_effect {req : CompleteRequest} {p : PendingAuthorization}
    (ht : sys.threads.get? tid = some (.completeDeciding req p)) :
    Effect cfg env sys (.completeDecide tid) (sys.decided cfg env tid req p).1.svc
      (sys.decided cfg env tid req p).2 := by
  have h : Effect cfg env sys (.completeDecide tid) _ _ := .decide ht
  unfold System.decided
  dsimp only
  cases hd : (sys.svc.completeDecide cfg env req p).2 with
  | error e => rw [hd] at h; exact h
  | ok u => rw [hd] at h; exact h

theorem onThread_effect {th : Thread} (ht : sys.threads.get? tid = some th)
    (hop : op.resumes = some tid) (h : sys.onThread cfg env tid op th = some (sys', r)) :
    Effect cfg env sys op sys'.svc r := by
  unfold System.onThread at h
  split at h <;> try obtain rfl := Option.some.inj hop
  · cases h
    exact .idle rfl (fun _ => respond_ne (by simp) (by simp))
      (fun _ => respond_ne (by simp) (by simp)) (respond_ne (by simp) (by simp))
  · cases h; exact .idle rfl (by simp) (by simp) (by simp)
  · cases h; exact .admission ht
  · obtain ⟨rfl, rfl⟩ := Prod.mk.inj (Option.some.inj h)
    exact checked_effect rfl
  · obtain ⟨rfl, rfl⟩ := Prod.mk.inj (Option.some.inj h)
    exact decided_effect ht
  · cases h; exact .idle rfl (by simp) (by simp) (by simp)
  · cases h; exact .store ht
  · cases h

/-- What another thread is, or where this one has come to. -/
def Moves (cfg : Config) (env : Env) (sys : System) (tid : ℕ) (op : Op) (threads : Dict ℕ Thread) :
    Prop :=
  ∀ j th, threads.get? j = some th →
    (j ≠ tid ∧ sys.threads.get? j = some th) ∨ (j = tid ∧ Arises cfg env sys tid op th)

theorem moves_goOn {th : Thread} (h : Arises cfg env sys tid op th) :
    Moves cfg env sys tid op (sys.threads.set tid th) := by
  intro j th' hj
  rcases Dict.get?_of_set hj with ⟨rfl, rfl⟩ | ⟨hne, hj⟩
  · exact Or.inr ⟨rfl, h⟩
  · exact Or.inl ⟨hne, hj⟩

theorem moves_finish : Moves cfg env sys tid op (sys.threads.erase tid) :=
  fun _ _ hj => Or.inl (Dict.get?_of_erase hj)

theorem moves_checked {req : CompleteRequest} {pending : Option PendingAuthorization}
    (ht : sys.threads.get? tid = some (.completePopped req pending)) :
    Moves cfg env sys tid (.completeCheck tid) (sys.checked cfg env tid req pending).1.threads := by
  unfold System.checked
  split
  · exact moves_finish
  · exact moves_finish
  · rename_i p hc
    unfold OAuthService.completeCheck at hc
    split at hc
    · cases hc
    split at hc
    · cases hc
    rename_i hlive
    split at hc
    · cases hr : redirect cfg _ ownerDenied <;> rw [hr] at hc <;> cases hc
    rename_i hd
    cases hc
    exact moves_goOn (.deciding ht (not_not.mp hd) (not_lt.mp hlive))

theorem moves_decided {req : CompleteRequest} {p : PendingAuthorization}
    (ht : sys.threads.get? tid = some (.completeDeciding req p)) :
    Moves cfg env sys tid (.completeDecide tid) (sys.decided cfg env tid req p).1.threads := by
  unfold System.decided
  dsimp only
  split
  · exact moves_finish
  · rename_i hd; exact moves_goOn (.approved ht hd)

theorem moves_onThread {th : Thread} (ht : sys.threads.get? tid = some th)
    (hop : op.resumes = some tid) (h : sys.onThread cfg env tid op th = some (sys', r)) :
    Moves cfg env sys tid op sys'.threads := by
  unfold System.onThread at h
  split at h <;> try obtain rfl := Option.some.inj hop
  · cases h; exact moves_finish
  · cases h; exact moves_goOn (.begun ht)
  · cases h; exact moves_finish
  · obtain ⟨rfl, rfl⟩ := Prod.mk.inj (Option.some.inj h)
    exact moves_checked ht
  · obtain ⟨rfl, rfl⟩ := Prod.mk.inj (Option.some.inj h)
    exact moves_decided ht
  · cases h; exact moves_goOn (.ready ht)
  · cases h; exact moves_finish
  · cases h

theorem moves_begun {params : Dict String String} {source : String}
    (ht : sys.threads.get? tid = none) :
    Moves cfg env sys tid (.beginCall tid params source)
      (sys.begun cfg tid params source).1.threads := by
  unfold System.begun
  dsimp only
  split
  · intro j th hj
    refine Or.inl ⟨?_, hj⟩
    rintro rfl
    rw [ht] at hj; cases hj
  · rename_i hb; exact moves_goOn (.error hb)
  · rename_i hb; exact moves_goOn (.checked hb)

theorem begun_effect {params : Dict String String} {source : String} (hop : op.idle = true) :
    Effect cfg env sys op (sys.begun cfg tid params source).1.svc
      (sys.begun cfg tid params source).2 := by
  unfold System.begun
  dsimp only
  split <;> exact .idle hop (by intro _ h; cases h) (by intro _ h; cases h) (by intro h; cases h)

/-! ### Steps -/

theorem stretch_effect (h : sys.stretch cfg env op = some (sys', r)) :
    Effect cfg env sys op sys'.svc r := by
  unfold System.stretch at h
  split at h
  · rename_i tid hop
    obtain ⟨th, ht, h⟩ := Option.bind_eq_some_iff.mp h
    exact onThread_effect ht hop h
  · split at h
    · cases h
    split at h
    · cases h; exact .register _ _
    · obtain ⟨rfl, rfl⟩ := Prod.mk.inj (Option.some.inj h)
      exact begun_effect rfl
    · cases h; exact .pop _ _
    · cases h; exact .exchange _
    · cases h; exact .revoke _
    · cases h; exact .validate _ _
    · cases h

/-- The thread an operation is about. -/
def Op.thread (op : Op) : Option ℕ := op.starts.or op.resumes

theorem stretch_threads (h : sys.stretch cfg env op = some (sys', r)) {j : ℕ} {th : Thread}
    (hj : sys'.threads.get? j = some th) :
    (op.thread ≠ some j ∧ sys.threads.get? j = some th) ∨
      (op.thread = some j ∧ Arises cfg env sys j op th) := by
  have hmoves {tid : ℕ} (ht : op.thread = some tid) (hm : Moves cfg env sys tid op sys'.threads) :
      (op.thread ≠ some j ∧ sys.threads.get? j = some th) ∨
        (op.thread = some j ∧ Arises cfg env sys j op th) := by
    rcases hm j th hj with ⟨hne, h⟩ | ⟨rfl, h⟩
    · exact Or.inl ⟨fun he => hne (Option.some.inj (he.symm.trans ht)), h⟩
    · exact Or.inr ⟨ht, h⟩
  unfold System.stretch at h
  split at h
  · rename_i tid hop
    obtain ⟨th', ht, h⟩ := Option.bind_eq_some_iff.mp h
    refine hmoves ?_ (moves_onThread ht hop h)
    cases op <;> first | cases hop; rfl | cases hop
  · rename_i hop
    split at h
    · cases h
    rename_i hidle
    have hnone {tid : ℕ} (hs : op.starts = some tid) : sys.threads.get? tid = none := by
      simpa [hs, Dict.contains] using hidle
    split at h
    · cases h; exact Or.inl ⟨by simp [Op.thread, Op.starts, Op.resumes], hj⟩
    · obtain ⟨rfl, rfl⟩ := Prod.mk.inj (Option.some.inj h)
      exact hmoves rfl (moves_begun (hnone rfl))
    · cases h; exact hmoves rfl (moves_goOn (.popped _))
    · cases h; exact Or.inl ⟨by simp [Op.thread, Op.starts, Op.resumes], hj⟩
    · cases h; exact Or.inl ⟨by simp [Op.thread, Op.starts, Op.resumes], hj⟩
    · cases h; exact Or.inl ⟨by simp [Op.thread, Op.starts, Op.resumes], hj⟩
    · cases h

/-- The process is gone behind the step: it crashed, or a start failed. -/
def Lost (a : Act) (r : Resp) : Prop :=
  (a.crash = true ∧ r = .crashed) ∨ ∃ calls e, a.op = .restart calls ∧ r = .raised e

/-- A step is an effect on the service, and behind it the process may be gone. -/
theorem step_effect {a : Act} (h : sys.step cfg a = some (sys', r)) :
    ∃ svc resp, Effect cfg a.env sys a.op svc resp ∧
      ((a.crash = false ∧ sys'.svc = svc ∧ r = resp) ∨
        (sys' = ⟨.empty svc.file, ∅, false⟩ ∧ Lost a r)) := by
  unfold System.step at h
  obtain ⟨⟨sys1, r1⟩, h1, h2⟩ := Option.map_eq_some_iff.mp h
  -- what the service does, before a crash is looked at
  have heff : ∃ svc resp, Effect cfg a.env sys a.op svc resp ∧ sys1.svc.file = svc.file ∧
      ((sys1.svc = svc ∧ r1 = resp) ∨ (sys1 = ⟨.empty svc.file, ∅, false⟩ ∧
        ∃ calls e, a.op = .restart calls ∧ r1 = .raised e)) := by
    split at h1
    · rename_i calls hop
      obtain ⟨rfl, rfl⟩ := Prod.mk.inj (Option.some.inj h1)
      have heff : Effect cfg a.env sys (.restart calls) _ _ := .start calls
      rw [hop]
      split
      · -- a start that raises leaves no process, as if it had crashed
        rename_i e hs
        exact ⟨_, _, heff, rfl, Or.inr ⟨rfl, calls, e, rfl, rfl⟩⟩
      · rename_i hs
        rw [hs] at heff
        exact ⟨_, _, heff, rfl, Or.inl ⟨rfl, rfl⟩⟩
    · split at h1
      · exact ⟨_, _, stretch_effect h1, rfl, Or.inl ⟨rfl, rfl⟩⟩
      · cases h1
  obtain ⟨svc, resp, heff, hfile, hcase⟩ := heff
  refine ⟨svc, resp, heff, ?_⟩
  split at h2
  · -- a crash keeps the file of the step and nothing of its memory
    rename_i hc
    cases h2
    exact Or.inr ⟨by rw [← hfile]; rfl, Or.inl ⟨hc, rfl⟩⟩
  · rename_i hc
    cases h2
    rcases hcase with ⟨h1, h2⟩ | ⟨h1, h2⟩
    · exact Or.inl ⟨by simpa using hc, h1, h2⟩
    · exact Or.inr ⟨h1, Or.inr h2⟩

/-- A thread after a step was there before, and the step was not about it, or it has arisen. -/
theorem step_threads {a : Act} (h : sys.step cfg a = some (sys', r)) {j : ℕ} {th : Thread}
    (hj : sys'.threads.get? j = some th) : a.crash = false ∧
      ((a.op.thread ≠ some j ∧ sys.threads.get? j = some th) ∨
        (a.op.thread = some j ∧ Arises cfg a.env sys j a.op th)) := by
  unfold System.step at h
  obtain ⟨⟨sys1, r1⟩, h1, h2⟩ := Option.map_eq_some_iff.mp h
  split at h2
  · cases h2; cases hj
  rename_i hc
  cases h2
  refine ⟨by simpa using hc, ?_⟩
  split at h1
  · exfalso
    obtain ⟨rfl, rfl⟩ := Prod.mk.inj (Option.some.inj h1)
    split at hj <;> cases hj
  · split at h1
    · exact stretch_threads h1 hj
    · cases h1

end DataRelay.OAuth
