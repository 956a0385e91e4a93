import DataRelay.OAuth.Provenance

/-! The owner's approval: what the second lock of `complete_authorization` does with every secret.

    A source that is locked out and a wrong secret get the same answer, and the entry goes back. The
    one way out that does neither is an exception of `compare_digest`, which compares ASCII strings
    only; `failed_approval_iff` says that it is the only one. -/

namespace DataRelay.OAuth
open Lib

/-! ### The second lock -/

section Decide
variable {cfg : Config} {env : Env} {s : OAuthService} {req : CompleteRequest}
  {p : PendingAuthorization}

/-- The configured secret, empty when there is none. -/
def Config.expected (cfg : Config) : String := cfg.ownerApprovalSecret.getD ""

theorem compareDigest_of_ne {a b : String} (h : a ≠ b) :
    compareDigest a b = if isAscii a ∧ isAscii b then .ok false else .error .typeError := by
  simp [compareDigest, h]

theorem decide_lockedOut (h : (s.ownerFailLimiter.allow req.source env.t0).2 = false) :
    s.completeDecide cfg env req p =
      (OAuthService.putBack { s with
        ownerFailLimiter := (s.ownerFailLimiter.allow req.source env.t0).1 } req p,
        .error denied) := by
  simp only [OAuthService.completeDecide, h, if_true]

/-- A wrong secret that can be compared is counted, and the entry goes back. -/
theorem decide_wrong (h : (s.ownerFailLimiter.allow req.source env.t0).2 = true)
    (hs : cfg.expected = "" ∨ compareDigest req.ownerSecret cfg.expected = .ok false) :
    s.completeDecide cfg env req p =
      (OAuthService.putBack { s with
        ownerFailLimiter :=
          (s.ownerFailLimiter.allow req.source env.t0).1.record req.source env.t1 } req p,
        .error denied) := by
  unfold Config.expected at hs
  simp only [OAuthService.completeDecide, h, Bool.true_eq_false, if_false]
  rcases hs with hs | hs
  · simp only [hs, if_true]
  · split
    · rfl
    · simp only [hs]

/-- An exception of the comparison leaves the entry out and the failure uncounted. -/
theorem decide_raises (h : (s.ownerFailLimiter.allow req.source env.t0).2 = true)
    (hne : cfg.expected ≠ "") {e : PyError}
    (he : compareDigest req.ownerSecret cfg.expected = .error e) :
    s.completeDecide cfg env req p =
      ({ s with ownerFailLimiter := (s.ownerFailLimiter.allow req.source env.t0).1 },
        .error e) := by
  unfold Config.expected at hne he
  simp only [OAuthService.completeDecide, h, Bool.true_eq_false, if_false, hne, he]

/-- The entry goes back: the source is locked out, or the secret is compared and is wrong. -/
def OAuthService.PutsBack (cfg : Config) (env : Env) (s : OAuthService) (req : CompleteRequest) :
    Prop :=
  (s.ownerFailLimiter.allow req.source env.t0).2 = false ∨ cfg.expected = "" ∨
    compareDigest req.ownerSecret cfg.expected = .ok false

theorem decide_putsBack (h : s.PutsBack cfg env req) : ∃ limiter,
    s.completeDecide cfg env req p =
      (OAuthService.putBack { s with ownerFailLimiter := limiter } req p, .error denied) := by
  cases hallow : (s.ownerFailLimiter.allow req.source env.t0).2 with
  | false => exact ⟨_, decide_lockedOut hallow⟩
  | true => exact ⟨_, decide_wrong hallow (h.resolve_left (by simp [hallow]))⟩

theorem decide_not_putsBack (h : ¬ s.PutsBack cfg env req) :
    (s.completeDecide cfg env req p).1.pending = s.pending := by
  simp only [OAuthService.PutsBack, not_or, Bool.not_eq_false] at h
  obtain ⟨hallow, hne, hcmp⟩ := h
  unfold Config.expected at hne hcmp
  simp only [OAuthService.completeDecide, hallow, Bool.true_eq_false, if_false, hne]
  split
  · rfl
  · rename_i hwrong
    exact absurd hwrong hcmp
  · rfl

end Decide

/-! ### A call on its own -/

/-- The stretches of a `complete_authorization` on thread `tid`. -/
def completeActs (tid : ℕ) (req : CompleteRequest) (pop check decide build store : Env) : List Act :=
  [⟨.completeCall tid req, pop, false⟩, ⟨.completeCheck tid, check, false⟩,
    ⟨.completeDecide tid, decide, false⟩, ⟨.completeBuild tid, build, false⟩,
    ⟨.completeStore tid, store, false⟩]

theorem step_call (cfg : Config) (env : Env) {tid : ℕ} (req : CompleteRequest) {sys : System}
    (hup : sys.up = true) (hfree : sys.threads.get? tid = none) :
    sys.step cfg ⟨.completeCall tid req, env, false⟩ = some (sys.goOn tid (sys.svc.completePop req).1
      (.completePopped req (sys.svc.completePop req).2)) := by
  simp [System.step, System.stretch, hup, Op.resumes, Op.starts, Dict.contains, hfree]

/-- The call that just came to a point goes on from there. -/
theorem step_goOn (cfg : Config) (env : Env) {tid : ℕ} (op : Op) (sys : System)
    (svc : OAuthService) (th : Thread) (hup : sys.up = true) (hop : op.resumes = some tid) :
    (sys.goOn tid svc th).1.step cfg ⟨op, env, false⟩ =
      (sys.goOn tid svc th).1.onThread cfg env tid op th := by
  have ht : (sys.goOn tid svc th).1.threads.get? tid = some th := Dict.get?_set_self _ _ _
  have hup' : (sys.goOn tid svc th).1.up = true := hup
  have hstretch : (sys.goOn tid svc th).1.stretch cfg env op =
      (sys.goOn tid svc th).1.onThread cfg env tid op th := by
    simp only [System.stretch, hop, ht, Option.bind_some]
  cases op <;> first
    | (simp [Op.resumes] at hop; done)
    | simp [System.step, hup', hstretch]

/-- The actions lead to this service, and to this answer last. -/
def Ends (cfg : Config) (as : List Act) (sys : System) (svc : OAuthService) (r : Resp) : Prop :=
  ∀ tr : Trace, ∃ tr' sys', (machine cfg).exec as (tr, sys) = some (tr', sys') ∧ sys'.svc = svc ∧
    tr'.head?.map Entry.resp = some r

theorem Ends.last {cfg : Config} {a : Act} {sys sys' : System} {r : Resp}
    (h : sys.step cfg a = some (sys', r)) : Ends cfg [a] sys sys'.svc r :=
  fun tr => ⟨⟨sys, a, sys', r⟩ :: tr, sys', by simp [Machine.exec, machine, h], rfl, rfl⟩

theorem Ends.cons {cfg : Config} {a : Act} {as : List Act} {sys sys' : System} {svc : OAuthService}
    {r r' : Resp} (h : sys.step cfg a = some (sys', r)) (he : Ends cfg as sys' svc r') :
    Ends cfg (a :: as) sys svc r' := by
  intro tr
  obtain ⟨tr', s', hexec, hsvc⟩ := he (⟨sys, a, sys', r⟩ :: tr)
  exact ⟨tr', s', by simpa [Machine.exec, machine, h] using hexec, hsvc⟩

theorem ends_approved {cfg : Config} {tid : ℕ} {req : CompleteRequest} {p : PendingAuthorization}
    {build store : Env} {sys : System} {svc : OAuthService} (hup : sys.up = true) :
    Ends cfg [⟨.completeBuild tid, build, false⟩, ⟨.completeStore tid, store, false⟩]
      (sys.goOn tid svc (.completeApproved req p)).1
      (svc.completeStore cfg store p (OAuthService.completeBuild build p)).1
      (respond .redirected
        (svc.completeStore cfg store p (OAuthService.completeBuild build p)).2) := by
  have hbuild := step_goOn cfg build (.completeBuild tid) sys svc (.completeApproved req p) hup rfl
  have hstore := step_goOn cfg store (.completeStore tid)
    (sys.goOn tid svc (.completeApproved req p)).1 svc
    (.completeReady req p (OAuthService.completeBuild build p)) hup rfl
  exact .cons hbuild (.last hstore)

/-- With no other call in between, the machine does what `completeAuthorization` computes. -/
theorem ends_completeAuthorization {cfg : Config} {tid : ℕ} {req : CompleteRequest}
    {pop check decide build store : Env} {sys : System} (hup : sys.up = true)
    (hfree : sys.threads.get? tid = none) : ∃ n,
      Ends cfg ((completeActs tid req pop check decide build store).take n) sys
        (sys.svc.completeAuthorization cfg check decide build store req).1
        (respond .redirected
          (sys.svc.completeAuthorization cfg check decide build store req).2) := by
  have hcall := step_call cfg pop req hup hfree
  have hcheck := step_goOn cfg check (.completeCheck tid) sys (sys.svc.completePop req).1
    (.completePopped req (sys.svc.completePop req).2) hup rfl
  simp only [System.onThread, System.checked] at hcheck
  unfold OAuthService.completeAuthorization
  dsimp only
  split
  · rename_i e hc
    rw [hc] at hcheck
    exact ⟨2, .cons hcall (.last hcheck)⟩
  · rename_i r hc
    rw [hc] at hcheck
    exact ⟨2, .cons hcall (.last hcheck)⟩
  rename_i p hc
  rw [hc] at hcheck
  have hdecide := step_goOn cfg decide (.completeDecide tid)
    (sys.goOn tid (sys.svc.completePop req).1
      (.completePopped req (sys.svc.completePop req).2)).1 (sys.svc.completePop req).1
    (.completeDeciding req p) hup rfl
  simp only [System.onThread, System.decided] at hdecide
  have hsvc : (System.goOn (sys.goOn tid (sys.svc.completePop req).1
      (.completePopped req (sys.svc.completePop req).2)).1 tid (sys.svc.completePop req).1
        (.completeDeciding req p)).1.svc = (sys.svc.completePop req).1 := rfl
  split
  · rename_i e hd
    rw [hsvc, hd] at hdecide
    exact ⟨3, .cons hcall (.cons hcheck (.last hdecide))⟩
  · rename_i hd
    rw [hsvc, hd] at hdecide
    exact ⟨5, .cons hcall (.cons hcheck (.cons hdecide (ends_approved hup)))⟩

/-! ### A failed approval -/

section Failed
variable {cfg : Config} {check decide build store : Env} {s : OAuthService}
  {req : CompleteRequest} {p : PendingAuthorization}

/-- A failed approval is harmless and counted: the one denial, every entry of `pending` as before,
    nothing else changed, and one failure more unless the source was locked out. -/
structure Harmless (decide : Env) (s : OAuthService) (req : CompleteRequest)
    (r : OAuthService × Except PyError Redirect) : Prop where
  denial : r.2 = .error denied
  pending : ∀ k, r.1.pending.get? k = s.pending.get? k
  codes : r.1.codes = s.codes
  clients : r.1.clients = s.clients
  accessTokens : r.1.accessTokens = s.accessTokens
  refreshTokens : r.1.refreshTokens = s.refreshTokens
  counted : (s.ownerFailLimiter.allow req.source decide.t0).2 = true →
    r.1.ownerFailLimiter.bucket req.source =
      SlidingWindow.live (decide.t1 - s.ownerFailLimiter.window)
        ((s.ownerFailLimiter.allow req.source decide.t0).1.bucket req.source) ++ [decide.t1]

theorem completePop_completeDecide (build store : Env)
    (hp : s.pending.get? req.requestId = some p) (hlive : check.t0 ≤ p.expiresAt)
    (hd : req.decision = "approve") {e : PyError} {s' : OAuthService}
    (h : (s.completePop req).1.completeDecide cfg decide req p = (s', .error e)) :
    s.completeAuthorization cfg check decide build store req = (s', .error e) := by
  have hc : OAuthService.completeCheck cfg check req (s.completePop req).2 = .ok (.inr p) := by
    simp [OAuthService.completePop, hp, OAuthService.completeCheck, hlive, hd]
  simp only [OAuthService.completeAuthorization, hc, h]

/-- An entry that is taken out and put back is where it was. -/
theorem get?_putBack (hp : s.pending.get? req.requestId = some p) (k : String) :
    ((s.pending.erase req.requestId).set req.requestId p).get? k = s.pending.get? k := by
  rw [Dict.get?_set]
  split
  · rename_i hk; rw [hk, hp]
  · rename_i hk; exact Dict.get?_erase_ne _ hk

/-- A failed approval is harmless and counted exactly when the source is locked out, no secret is
    configured, or both secrets are ASCII. -/
theorem failed_approval_iff (hp : s.pending.get? req.requestId = some p)
    (hlive : check.t0 ≤ p.expiresAt) (hd : req.decision = "approve")
    (hs : cfg.ownerApprovalSecret ≠ some req.ownerSecret) :
    Harmless decide s req (s.completeAuthorization cfg check decide build store req) ↔
      (s.ownerFailLimiter.allow req.source decide.t0).2 = false ∨ cfg.expected = "" ∨
        (isAscii req.ownerSecret = true ∧ isAscii cfg.expected = true) := by
  have hdecide {e s'} := @completePop_completeDecide cfg check decide s req p build store hp hlive hd
    e s'
  have hallow : (s.completePop req).1.ownerFailLimiter = s.ownerFailLimiter := rfl
  cases ha : (s.ownerFailLimiter.allow req.source decide.t0).2 with
  | false =>
    rw [hdecide (decide_lockedOut (by rw [hallow, ha]))]
    exact ⟨fun _ => Or.inl rfl, fun _ => ⟨rfl, get?_putBack hp, rfl, rfl, rfl, rfl, by simp [ha]⟩⟩
  | true =>
    have hwrong (hs : cfg.expected = "" ∨ compareDigest req.ownerSecret cfg.expected = .ok false) :
        Harmless decide s req (s.completeAuthorization cfg check decide build store req) := by
      rw [hdecide (decide_wrong (by rw [hallow, ha]) hs)]
      refine ⟨rfl, get?_putBack hp, rfl, rfl, rfl, rfl, fun _ => ?_⟩
      have hb := SlidingWindow.bucket_record (s.ownerFailLimiter.allow req.source decide.t0).1
        req.source decide.t1 req.source
      rw [if_pos rfl, (SlidingWindow.bounds_allow _ _ _).2.1] at hb
      exact hb
    by_cases hne : cfg.expected = ""
    · exact ⟨fun _ => Or.inr (Or.inl hne), fun _ => hwrong (Or.inl hne)⟩
    · have hdiff : req.ownerSecret ≠ cfg.expected := by
        intro he
        cases hsecret : cfg.ownerApprovalSecret with
        | none => simp [Config.expected, hsecret] at hne
        | some secret => exact hs (by rw [hsecret, he, Config.expected, hsecret]; rfl)
      -- `compare_digest` raises on a text that is not ASCII: the popped entry is then lost
      have hcmp := compareDigest_of_ne hdiff
      by_cases hascii : isAscii req.ownerSecret = true ∧ isAscii cfg.expected = true
      · rw [if_pos hascii] at hcmp
        exact ⟨fun _ => Or.inr (Or.inr hascii), fun _ => hwrong (Or.inr hcmp)⟩
      · rw [if_neg hascii] at hcmp
        rw [hdecide (decide_raises (by rw [hallow, ha]) hne hcmp)]
        refine ⟨fun h => ?_, fun h => ?_⟩
        · cases h.denial
        · rcases h with h | h | h
          · cases h
          · exact absurd h hne
          · exact absurd h hascii

end Failed

/-! ### A secret that cannot be compared -/

def samplePending : PendingAuthorization :=
  ⟨"authreq_p", "client_c", "https://app.example/cb", none, "challenge", "S256",
    "https://relay.example/mcp", scopesSupported, seconds 60⟩

/-- A service with one pending request. -/
def samplePendingService : OAuthService :=
  { OAuthService.empty none with pending := .ofList [("authreq_p", samplePending)] }

def guess (ownerSecret : String) : CompleteRequest := ⟨"authreq_p", ownerSecret, "approve", "o"⟩

def atOne : Env := ⟨1, 1, 1, 1, "", "", callsOk 1000⟩

theorem failed_approval_ascii : Harmless atOne samplePendingService (guess "wrong")
    (samplePendingService.completeAuthorization sampleConfig atOne atOne atOne atOne
      (guess "wrong")) :=
  (failed_approval_iff (p := samplePending) rfl (by decide) rfl (by decide)).mpr
    (Or.inr (Or.inr (by decide)))

/-- One `é` loses the pending request, and the failure is not counted. -/
theorem failed_approval_raises :
    ¬ Harmless atOne samplePendingService (guess "é")
      (samplePendingService.completeAuthorization sampleConfig atOne atOne atOne atOne
        (guess "é")) ∧
    (samplePendingService.completeAuthorization sampleConfig atOne atOne atOne atOne
      (guess "é")).1.pending.size = 0 ∧
    (samplePendingService.completeAuthorization sampleConfig atOne atOne atOne atOne
      (guess "é")).1.ownerFailLimiter.bucket "o" = [] := by
  refine ⟨fun h => ?_, by decide, by decide⟩
  have hdenial : (.error .typeError : Except PyError Redirect) = .error denied := h.denial
  cases hdenial

end DataRelay.OAuth
