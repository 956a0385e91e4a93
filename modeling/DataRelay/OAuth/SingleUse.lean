import DataRelay.OAuth.Revocation

/-! Every grant artefact is used once.

    A pending request or a code is at one place at a time: in a map, or with the one call that took
    it out. A step may carry it to another place, and once it is at no place it never comes back,
    because identifiers are not generated twice. A refresh token that was rotated is dead. Together
    they leave at most one usable refresh token for each approved request. -/

namespace DataRelay.OAuth
open Lib

/-! ### Places -/

/-- What can be redeemed once: a pending request or a code, by its identifier. -/
inductive Artefact where
  | request (id : String)
  | code (id : String)

def Artefact.id : Artefact → String
  | .request id => id
  | .code id => id

/-- Where an artefact can be. -/
inductive Place where
  | pending
  | thread (tid : ℕ)
  | codes

/-- The artefacts that only this call has. -/
def Thread.Holds : Thread → Artefact → Prop
  | .beginReady _ p, x => x = .request p.requestId
  | .completePopped _ (some p), x => x = .request p.requestId
  | .completeDeciding _ p, x => x = .request p.requestId
  | .completeApproved _ p, x => x = .request p.requestId
  | .completeReady _ p c, x => x = .request p.requestId ∨ x = .code c.code
  | _, _ => False

def System.Holds (sys : System) (x : Artefact) : Place → Prop
  | .pending => ∃ p, x = .request p.requestId ∧ sys.svc.pending.get? p.requestId = some p
  | .thread tid => ∃ th, sys.threads.get? tid = some th ∧ th.Holds x
  | .codes => ∃ c, x = .code c.code ∧ sys.svc.codes.get? c.code = some c

/-- The stretches that carry an artefact from one place to another. -/
inductive Carries : Op → Place → Place → Prop where
  | pop (tid : ℕ) (req : CompleteRequest) : Carries (.completeCall tid req) .pending (.thread tid)
  | admission (tid : ℕ) : Carries (.beginAdmit tid) (.thread tid) .pending
  | putBack (tid : ℕ) : Carries (.completeDecide tid) (.thread tid) .pending
  | store (tid : ℕ) : Carries (.completeStore tid) (.thread tid) .codes

theorem Carries.unique {op : Op} {q q1 q2 : Place} (h : Carries op q q1) (h' : Carries op q q2) :
    q1 = q2 := by
  cases h <;> cases h' <;> rfl

section Step
variable {cfg : Config} {sys sys' : System} {a : Act} {r : Resp} {tr : Trace}

/-- A call whose last stretch this was is gone. -/
theorem step_finished (h : sys.step cfg a = some (sys', r)) {tid : ℕ}
    (ht : a.op.thread = some tid) (hno : ∀ th, ¬ Arises cfg a.env sys tid a.op th) :
    sys'.threads.get? tid = none := by
  rw [Option.eq_none_iff_forall_ne_some]
  intro th hth
  rcases (step_threads h hth).2 with ⟨hne, -⟩ | ⟨-, ha⟩
  · exact hne ht
  · exact hno th ha

/-- The entry that `complete_authorization` takes out is gone. -/
theorem step_popped (h : sys.step cfg a = some (sys', r)) {tid : ℕ} {req : CompleteRequest}
    (hop : a.op = .completeCall tid req) : sys'.svc.pending.get? req.requestId = none := by
  obtain ⟨svc, resp, heff, hcase⟩ := step_effect h
  rw [hop] at heff
  rcases hcase with ⟨-, rfl, -⟩ | ⟨rfl, -⟩
  · generalize hsvc : sys'.svc = svc at heff
    cases heff with
    | idle hop => cases hop
    | pop => exact Dict.get?_erase_self _ _
  · rfl

/-- Where an artefact is after a step: where it was, where the step carried it, or with the call
    that made it. -/
theorem step_holds (h : sys.step cfg a = some (sys', r)) (hv : sys.Valid) {x : Artefact}
    {q : Place} (hq : sys'.Holds x q) : sys.Holds x q ∨
      (∃ q0, Carries a.op q0 q ∧ sys.Holds x q0 ∧ ¬ sys'.Holds x q0) ∨
      (x.id ∈ a.generates ∧ ∃ tid, q = .thread tid ∧ a.op.thread = some tid) := by
  have hgone {tid : ℕ} (ht : a.op.thread = some tid)
      (hno : ∀ th, ¬ Arises cfg a.env sys tid a.op th) : ¬ sys'.Holds x (.thread tid) := by
    rintro ⟨th, hth, -⟩
    rw [step_finished h ht hno] at hth
    cases hth
  cases q with
  | pending =>
    obtain ⟨p, rfl, hp⟩ := hq
    rcases step_pending h hp with hold | ⟨tid, source, hop, -, ht⟩ | ⟨tid, req, hop, hk, ht, hne⟩
    · exact Or.inl ⟨p, rfl, hold⟩
    · refine Or.inr (Or.inl ⟨.thread tid, hop ▸ .admission tid, ⟨_, ht, rfl⟩, ?_⟩)
      exact hgone (by rw [hop]; rfl) fun th ha => by rw [hop] at ha; cases ha
    · refine Or.inr (Or.inl ⟨.thread tid, hop ▸ .putBack tid, ⟨_, ht, rfl⟩, ?_⟩)
      refine hgone (by rw [hop]; rfl) fun th ha => ?_
      rw [hop] at ha
      cases ha with
      | approved ht' hok =>
        obtain ⟨rfl, rfl⟩ := Thread.completeDeciding.inj (Option.some.inj (ht.symm.trans ht'))
        exact hne hok
  | codes =>
    obtain ⟨c, rfl, hc⟩ := hq
    rcases step_codes h hc with hold | ⟨-, tid, req, p, hop, ht⟩
    · exact Or.inl ⟨c, rfl, hold⟩
    · refine Or.inr (Or.inl ⟨.thread tid, hop ▸ .store tid, ⟨_, ht, Or.inr rfl⟩, ?_⟩)
      exact hgone (by rw [hop]; rfl) fun th ha => by rw [hop] at ha; cases ha
  | thread tid =>
    obtain ⟨th, hth, hx⟩ := hq
    rcases (step_threads h hth).2 with ⟨-, hold⟩ | ⟨ht, ha⟩
    · exact Or.inl ⟨th, hold, hx⟩
    generalize hop : a.op = op at ha
    cases ha with
    | error => cases hx
    | checked => cases hx
    | begun =>
      obtain rfl : x = _ := hx
      exact Or.inr (Or.inr ⟨by simp [Act.generates, hop, Artefact.id, OAuthService.beginBuild],
        tid, rfl, hop ▸ ht⟩)
    | popped req =>
      cases hp : sys.svc.pending.get? req.requestId with
      | none => rw [hp] at hx; cases hx
      | some p =>
        rw [hp] at hx
        obtain rfl : x = _ := hx
        -- the pop moves the entry from the table to the thread that popped it
        have hk := hv.svc.pending _ p hp
        refine Or.inr (Or.inl ⟨.pending, .pop tid req, ⟨p, rfl, hk ▸ hp⟩, ?_⟩)
        rintro ⟨p', hid, hp'⟩
        rw [← Artefact.request.inj hid, hk, step_popped h hop] at hp'
        cases hp'
    | deciding hold => exact Or.inl ⟨_, hold, hx⟩
    | approved hold => exact Or.inl ⟨_, hold, hx⟩
    | ready hold =>
      rcases hx with rfl | rfl
      · exact Or.inl ⟨_, hold, rfl⟩
      · exact Or.inr (Or.inr ⟨by simp [Act.generates, hop, Artefact.id, OAuthService.completeBuild],
          tid, rfl, hop ▸ ht⟩)

end Step

/-! ### One place at a time -/

section Unique
variable {cfg : Config} {tr : Trace} {sys : System} {x : Artefact} {q : Place}

theorem Approved.admitted {tid : ℕ} {req : CompleteRequest} {p : PendingAuthorization}
    (h : Approved cfg tid req p tr) : Admitted cfg p tr := by
  obtain ⟨newer, e, older, rfl, ⟨-, -, hlive⟩, -⟩ := since_iff.mp h
  exact once_append newer (Or.inr hlive.admitted)

theorem Popped.admitted {tid : ℕ} {req : CompleteRequest} {p : PendingAuthorization}
    (h : Popped cfg tid req p tr) : Admitted cfg p tr := by
  obtain ⟨newer, e, older, rfl, ⟨-, -, hadm⟩, -⟩ := since_iff.mp h
  exact once_append newer (Or.inr hadm)

theorem Minted.admitted {tid : ℕ} {p : PendingAuthorization} {c : AuthCode} {t : Time}
    (h : Minted cfg tid p c t tr) : Admitted cfg p tr := by
  obtain ⟨newer, e, older, rfl, ⟨req, -, -, -, -, happ⟩, -⟩ := since_iff.mp h
  exact once_append newer (Or.inr happ.admitted)

/-- Whatever is at some place was generated before. -/
theorem Provenance.generated (hp : Provenance cfg tr sys) (h : sys.Holds x q) :
    x.id ∈ generated tr := by
  cases q with
  | pending =>
    obtain ⟨p, rfl, hk⟩ := h
    exact (hp.pending _ p hk).generated
  | codes =>
    obtain ⟨c, rfl, hk⟩ := h
    obtain ⟨p, t, hg⟩ := hp.codes _ c hk
    exact hg.generated.1
  | thread tid =>
    obtain ⟨th, hth, hx⟩ := h
    have hg := hp.threads tid th hth
    cases th with
    | beginError => cases hx
    | beginChecked => cases hx
    | beginReady source p =>
      obtain rfl : x = _ := hx
      exact Requested.generated hg
    | completePopped req pending =>
      cases pending with
      | none => cases hx
      | some p =>
        obtain rfl : x = _ := hx
        exact (Popped.admitted hg).generated
    | completeDeciding req p =>
      obtain rfl : x = _ := hx
      exact (Live.admitted hg).generated
    | completeApproved req p =>
      obtain rfl : x = _ := hx
      exact (Approved.admitted hg).generated
    | completeReady req p c =>
      obtain ⟨t, hm⟩ := hg
      rcases hx with rfl | rfl
      · exact hm.admitted.generated
      · exact hm.generated.1

/-- Every artefact is at one place at most. -/
def System.Unique (sys : System) : Prop :=
  ∀ x q q', sys.Holds x q → sys.Holds x q' → q = q'

/-- The artefact was generated, and is nowhere any more. -/
def Gone (x : Artefact) (tr : Trace) (sys : System) : Prop :=
  x.id ∈ generated tr ∧ ∀ q, ¬ sys.Holds x q

variable {sys' : System} {a : Act} {r : Resp}

theorem step_unique (h : sys.step cfg a = some (sys', r)) (hv : sys.Valid)
    (hp : Provenance cfg tr sys) (hfresh : Fresh (⟨sys, a, sys', r⟩ :: tr)) (hu : sys.Unique) :
    sys'.Unique := by
  have hnew : ∀ x q, x.id ∈ a.generates → ¬ sys.Holds x q :=
    fun x q hx hq => hfresh.not_generates (hp.generated hq) hx
  intro x q q' hq hq'
  rcases step_holds h hv hq with hs | ⟨q0, hc, hs, hno⟩ | ⟨hx, tid, rfl, ht⟩
  · rcases step_holds h hv hq' with hs' | ⟨q0', -, hs', hno'⟩ | ⟨hx, -⟩
    · exact hu x q q' hs hs'
    · exact absurd (hu x q q0' hs hs' ▸ hq) hno'
    · exact absurd hs (hnew x q hx)
  · rcases step_holds h hv hq' with hs' | ⟨q0', hc', hs', -⟩ | ⟨hx, -⟩
    · exact absurd (hu x q' q0 hs' hs ▸ hq') hno
    · obtain rfl := hu x q0 q0' hs hs'
      exact hc.unique hc'
    · exact absurd hs (hnew x q0 hx)
  · rcases step_holds h hv hq' with hs' | ⟨q0', -, hs', -⟩ | ⟨-, tid', rfl, ht'⟩
    · exact absurd hs' (hnew x q' hx)
    · exact absurd hs' (hnew x q0' hx)
    · rw [ht] at ht'
      rw [Option.some.inj ht']

theorem step_gone (h : sys.step cfg a = some (sys', r)) (hv : sys.Valid)
    (hfresh : Fresh (⟨sys, a, sys', r⟩ :: tr)) (hg : Gone x tr sys) :
    Gone x (⟨sys, a, sys', r⟩ :: tr) sys' := by
  refine ⟨generated_tail _ hg.1, fun q hq => ?_⟩
  rcases step_holds h hv hq with hs | ⟨q0, -, hs, -⟩ | ⟨hx, -⟩
  · exact hg.2 q hs
  · exact hg.2 q0 hs
  · exact hfresh.not_generates hg.1 hx

/-- In a run whose identifiers are not generated twice, every artefact is at one place at most. -/
theorem run_unique (h : (machine cfg).Run tr sys) (hfresh : Fresh tr) : sys.Unique := by
  refine h.invariant (A := Fresh) (I := fun _ s => s.Unique) (fun _ _ => Fresh.tail) ?_ ?_ hfresh
  · rintro _ rfl x q q' hq
    cases q with
    | pending => obtain ⟨p, -, h⟩ := hq; cases h
    | thread tid => obtain ⟨th, h, -⟩ := hq; cases h
    | codes => obtain ⟨c, -, h⟩ := hq; cases h
  · exact fun _ _ _ _ _ hrun hf hu hstep =>
      step_unique hstep (run_valid hrun) (run_provenance hrun) hf hu

end Unique

/-! ### Pending requests and codes -/

section Once
variable {cfg : Config} {tr : Trace} {sys : System}

/-- The stretch stores a code for the request. -/
def Yields (requestId : String) (e : Event) : Prop :=
  ∃ tid req p c, e.act.op = .completeStore tid ∧
    e.pre.threads.get? tid = some (.completeReady req p c) ∧ p.requestId = requestId

/-- The stretch is an exchange that finds the code. -/
def Finds (code : String) (e : Event) : Prop :=
  ∃ form, e.act.op = .exchange form ∧ getD form "grant_type" "" = "authorization_code" ∧
    getD form "code" "" = code ∧ e.pre.svc.codes.contains code = true

/-- Each admitted request yields at most one code. -/
theorem yields_once (h : (machine cfg).Run tr sys) (hfresh : Fresh tr) (requestId : String) :
    AtMostOnce (Yields requestId) tr := by
  refine h.atMostOnce (A := Fresh) (J := Gone (.request requestId)) (fun _ _ => Fresh.tail) ?_ ?_
    hfresh
  · rintro e tr hrun' hf ⟨tid, req, p, c, hop, ht, rfl⟩
    obtain ⟨hrun, hstep, -⟩ := hrun'.cons
    have hholds : e.pre.Holds (.request p.requestId) (.thread tid) := ⟨_, ht, Or.inl rfl⟩
    have hgen := (run_provenance hrun).generated hholds
    refine ⟨generated_tail e hgen, fun q hq => ?_⟩
    -- the request was in this thread only, and the thread has ended
    rcases step_holds hstep (run_valid hrun) hq with hs | ⟨q0, hc, -, -⟩ | ⟨hx, -⟩
    · obtain rfl := run_unique hrun hf.tail _ _ _ hholds hs
      obtain ⟨th, hth, -⟩ := hq
      have hend : e.post.threads.get? tid = none :=
        step_finished hstep (by rw [hop]; rfl) fun th ha => by rw [hop] at ha; cases ha
      rw [hend] at hth
      cases hth
    · rw [hop] at hc
      cases hc
      obtain ⟨c', hc', -⟩ := hq
      cases hc'
    · exact hf.not_generates hgen hx
  · rintro e tr hrun' hf hg
    obtain ⟨hrun, hstep, -⟩ := hrun'.cons
    refine ⟨?_, step_gone hstep (run_valid hrun) hf hg⟩
    rintro ⟨tid, req, p, c, -, ht, rfl⟩
    exact hg.2 (.thread tid) ⟨_, ht, Or.inl rfl⟩

/-- What `exchange_token` makes of the service, in memory or behind a crash. -/
theorem step_exchange {sys' : System} {a : Act} {r : Resp} (h : sys.step cfg a = some (sys', r))
    {form : Dict String String} (hop : a.op = .exchange form) :
    sys'.svc = (sys.svc.exchangeToken cfg a.env form).1 ∨
      sys'.svc = .empty (sys.svc.exchangeToken cfg a.env form).1.file := by
  obtain ⟨svc, resp, heff, hcase⟩ := step_effect h
  rw [hop] at heff
  have hsvc : svc = (sys.svc.exchangeToken cfg a.env form).1 := by
    cases heff with
    | idle hop => cases hop
    | exchange => rfl
  rcases hcase with ⟨-, h, -⟩ | ⟨rfl, -⟩
  · exact Or.inl (h.trans hsvc)
  · exact Or.inr (by rw [hsvc])

/-- Tokens that reached their caller come from an exchange whose save returned. -/
theorem step_issued {sys' : System} {a : Act} {r : TokenResponse}
    (h : sys.step cfg a = some (sys', .issued r)) : ∃ form, a.op = .exchange form ∧
      sys'.svc = (sys.svc.exchangeToken cfg a.env form).1 ∧
      (sys.svc.exchangeToken cfg a.env form).2 = .ok r := by
  have heff := step_answered h (by simp) (by simp)
  obtain ⟨op, env, crash⟩ := a
  generalize hsvc : sys'.svc = svc at heff
  generalize hresp : Resp.issued r = resp at heff
  cases heff with
  | idle _ _ hne => exact absurd hresp.symm (hne r)
  | exchange form =>
    refine ⟨form, rfl, rfl, ?_⟩
    cases hb : (sys.svc.exchangeToken cfg env form).2 with
    | ok r' => rw [hb] at hresp; cases hresp; rfl
    | error e => rw [hb] at hresp; cases hresp
  | pop => cases hresp
  | _ => exact absurd hresp.symm (respond_ne (by simp) (by simp))

/-- `_issue_tokens` is a save of the maps with the two tokens added. -/
theorem issueTokens_eq (env : Env) (s0 : OAuthService) (clientId resource : String)
    (scopes : Finset String) : ∃ s1 : OAuthService, s1.codes = s0.codes ∧
      s1.refreshTokens = s0.refreshTokens.set
        (OAuthService.newRefresh env clientId resource scopes).token
        (OAuthService.newRefresh env clientId resource scopes) ∧
      (s0.issueTokens cfg env clientId resource scopes).1 = (s1.persist cfg env env.t3).1 ∧
      ∀ r, (s0.issueTokens cfg env clientId resource scopes).2 = .ok r →
        (s1.persist cfg env env.t3).2 = .ok () := by
  refine ⟨{ s0 with
    accessTokens := s0.accessTokens.set (OAuthService.newAccess env clientId resource scopes).token
      (OAuthService.newAccess env clientId resource scopes)
    refreshTokens := s0.refreshTokens.set
      (OAuthService.newRefresh env clientId resource scopes).token
      (OAuthService.newRefresh env clientId resource scopes) }, rfl, rfl, ?_, ?_⟩
  · unfold OAuthService.issueTokens
    dsimp only
    split <;> rename_i hp <;> rw [← congrArg Prod.fst hp]
  · intro r h
    unfold OAuthService.issueTokens at h
    dsimp only at h
    split at h
    · cases h
    · rename_i hp
      rw [hp]

/-- A code that an exchange looked up is no longer stored. -/
theorem exchange_codes {env : Env} {s : OAuthService} {form : Dict String String}
    (hg : getD form "grant_type" "" = "authorization_code") :
    (s.exchangeToken cfg env form).1.codes.get? (getD form "code" "") = none := by
  have h := exchange_exchanged cfg env s form
  generalize s.exchangeToken cfg env form = res at h
  cases h with
  | refused e hf hk hfile hcode => exact hcode hg
  | @issued s0 clientId resource scopes hi hf hk hfile hcode hrefresh =>
    obtain ⟨s1, hcodes, -, heq, -⟩ := issueTokens_eq env s0 clientId resource scopes
    rw [heq, Option.eq_none_iff_forall_ne_some]
    intro c hc
    have hc1 := (s1.persist_fades cfg env env.t3).codes _ c hc
    rw [hcodes, hcode hg] at hc1
    cases hc1

/-- Each code is found by at most one exchange. -/
theorem finds_once (h : (machine cfg).Run tr sys) (hfresh : Fresh tr) (code : String) :
    AtMostOnce (Finds code) tr := by
  refine h.atMostOnce (A := Fresh) (J := Gone (.code code)) (fun _ _ => Fresh.tail) ?_ ?_ hfresh
  · rintro e tr hrun' hf ⟨form, hop, hg, rfl, hc⟩
    obtain ⟨hrun, hstep, -⟩ := hrun'.cons
    obtain ⟨c, hc⟩ := (Dict.contains_iff _ _).mp hc
    have hk := (run_valid hrun).svc.codes _ c hc
    have hholds : e.pre.Holds (.code (getD form "code" "")) .codes := ⟨c, by rw [hk], hk ▸ hc⟩
    have hgen := (run_provenance hrun).generated hholds
    refine ⟨generated_tail e hgen, fun q hq => ?_⟩
    rcases step_holds hstep (run_valid hrun) hq with hs | ⟨q0, hc, -, -⟩ | ⟨hx, -⟩
    · -- the code was in the table only, and an exchange takes it out
      obtain rfl := run_unique hrun hf.tail _ _ _ hholds hs
      obtain ⟨c', hk', hc'⟩ := hq
      rw [← Artefact.code.inj hk'] at hc'
      rcases step_exchange hstep hop with hsvc | hsvc
      · rw [hsvc, exchange_codes hg] at hc'
        cases hc'
      · rw [hsvc] at hc'
        cases hc'
    · rw [hop] at hc
      cases hc
    · exact hf.not_generates hgen hx
  · rintro e tr hrun' hf hg
    obtain ⟨hrun, hstep, -⟩ := hrun'.cons
    refine ⟨?_, step_gone hstep (run_valid hrun) hf hg⟩
    rintro ⟨form, -, -, rfl, hc⟩
    obtain ⟨c, hc⟩ := (Dict.contains_iff _ _).mp hc
    have hk := (run_valid hrun).svc.codes _ c hc
    exact hg.2 .codes ⟨c, by rw [hk], hk ▸ hc⟩

end Once

/-! ### Refresh tokens -/

section Refresh
variable {cfg : Config} {tr : Trace} {sys : System}

/-- The stretch answers with tokens for the artefact that its form has under `key`. -/
def Answers (grant key artefact : String) (e : Event) : Prop :=
  ∃ form r, e.act.op = .exchange form ∧ getD form "grant_type" "" = grant ∧
    getD form key "" = artefact ∧ e.resp = .issued r

theorem Answers.issues {grant key artefact : String} {e : Event}
    (hstep : e.pre.step cfg e.act = some (e.post, e.resp)) (h : Answers grant key artefact e) :
    ∃ form at' rt, e.act.op = .exchange form ∧ getD form "grant_type" "" = grant ∧
      getD form key "" = artefact ∧ Issues cfg e.act.env e.pre.svc form at' rt := by
  obtain ⟨form, r, hop, hg, hk, hresp⟩ := h
  obtain ⟨form', hop', -, hok⟩ := step_issued (hresp ▸ hstep)
  obtain rfl : form = form' := by rw [hop] at hop'; exact Op.exchange.inj hop'
  obtain ⟨at', rt, hi⟩ := exchange_ok hok
  exact ⟨form, at', rt, hop, hg, hk, hi⟩

/-- Whoever gets tokens for a code found it. -/
theorem Answers.finds {code : String} {e : Event}
    (hstep : e.pre.step cfg e.act = some (e.post, e.resp))
    (h : Answers "authorization_code" "code" code e) : Finds code e := by
  obtain ⟨form, at', rt, hop, hg, hk, hi⟩ := h.issues hstep
  cases hi with
  | code _ hc => exact ⟨form, hop, hg, hk, (Dict.contains_iff _ _).mpr ⟨_, hk ▸ hc⟩⟩
  | refresh hg' => exact absurd (hg.symm.trans hg') (by decide)

/-- A refresh token for which tokens were issued was usable, and is dead from then on. -/
theorem Answers.rotated {token : String} {e : Event} (h : (machine cfg).Run (e :: tr) e.post)
    (hfresh : Fresh (e :: tr)) (ha : Answers "refresh_token" "refresh_token" token e) :
    token ∈ generated tr ∧ e.post.svc.RefreshDead token := by
  obtain ⟨hrun, hstep, -⟩ := h.cons
  obtain ⟨form, at', rt, hop, hg, rfl, hi⟩ := ha.issues hstep
  have hgen : getD form "refresh_token" "" ∈ generated tr := by
    cases hi with
    | code hg' => exact absurd (hg.symm.trans hg') (by decide)
    | refresh _ hr =>
      exact (stored_generated hrun (Or.inr ((Dict.contains_iff _ _).mpr ⟨_, hr⟩))).2
  refine ⟨hgen, fun t ht => ?_⟩
  obtain ⟨-, r, -, -, -, hresp⟩ := ha
  obtain ⟨form', hop', hsvc, hok⟩ := step_issued (hresp ▸ hstep)
  obtain rfl : form = form' := by rw [hop] at hop'; exact Op.exchange.inj hop'
  have hv' := (run_valid h).svc
  have hfile := run_file h
  rw [hsvc] at ht hv' hfile
  have hex := exchange_exchanged cfg e.act.env e.pre.svc form
  generalize e.pre.svc.exchangeToken cfg e.act.env form = res at ht hv' hfile hok hex
  cases hex with
  | refused => cases hok
  | @issued s0 clientId resource scopes _ hf _ _ _ hrefresh =>
    obtain ⟨s1, -, hset, heq, hsaved⟩ := issueTokens_eq e.act.env s0 clientId resource scopes
    rw [heq] at ht hv' hfile
    -- an answer means that the save returned, so the file says what memory says
    have hmem := persist_synced (hsaved r hok) hv' hfile ht
    have hmem := OAuthService.persist_refresh cfg e.act.env s1 e.act.env.t3 hmem
    rw [hset] at hmem
    -- the only record put in is the fresh one, and the presented one stays revoked
    rcases Dict.get?_of_set hmem with ⟨hk, -⟩ | ⟨-, hold⟩
    · refine absurd ?_ (hfresh.not_generates hgen)
      simp [Act.generates, hop, hk, OAuthService.newRefresh]
    · exact hrefresh hg t hold

/-- Each refresh token gets at most one answer with tokens. -/
theorem refresh_once (h : (machine cfg).Run tr sys) (hfresh : Fresh tr) (token : String) :
    AtMostOnce (Answers "refresh_token" "refresh_token" token) tr := by
  refine h.atMostOnce (A := Fresh)
    (J := fun tr sys => token ∈ generated tr ∧ sys.svc.RefreshDead token) (fun _ _ => Fresh.tail)
    ?_ ?_ hfresh
  · intro e tr hrun' hf ha
    obtain ⟨hgen, hd⟩ := ha.rotated hrun' hf
    exact ⟨generated_tail e hgen, hd⟩
  · rintro e tr hrun' hf ⟨hgen, hd⟩
    obtain ⟨hrun, hstep, -⟩ := hrun'.cons
    refine ⟨fun ha => ?_, generated_tail e hgen,
      step_refreshDead hstep (run_valid hrun) hd (hf.not_generates hgen)⟩
    obtain ⟨form, at', rt, -, hg, rfl, hi⟩ := ha.issues hstep
    cases hi with
    | code hg' => exact absurd (hg.symm.trans hg') (by decide)
    | refresh _ hr hok =>
      have hlive := (OAuthService.checkRefresh_ok _ _ hok).1
      rw [hd _ (Or.inl hr)] at hlive
      cases hlive

end Refresh

/-! ### One usable refresh token for each request -/

section Single
variable {cfg : Config} {tr : Trace} {sys : System} {p : PendingAuthorization} {k : String}

/-- Two usable refresh tokens of the map that descend from one request are the same. -/
def Single (cfg : Config) (tr : Trace) (m : Dict String RefreshToken) : Prop :=
  ∀ p k k' t t', m.get? k = some t → m.get? k' = some t' → t.revoked = false →
    t'.revoked = false → Descends cfg p tr k → Descends cfg p tr k' → k = k'

/-- A token that was generated before descends as it did. -/
theorem descends_older {e : Event} (hfresh : Fresh (e :: tr)) (hk : k ∈ generated tr)
    (h : Descends cfg p (e :: tr) k) : Descends cfg p tr k := by
  rcases h with h | ⟨form, at', rt, hop, hi, htoken, -⟩
  · exact h
  · refine absurd ?_ (hfresh.not_generates hk)
    obtain ⟨hat, hrt⟩ := hi.token_eq
    rcases htoken with rfl | rfl
    · simp [Act.generates, hop, hat]
    · simp [Act.generates, hop, hrt]

/-- A map whose records come from another map has no more usable tokens than that one. -/
theorem Single.ages {e : Event} {m m' : Dict String RefreshToken} (h : Single cfg tr m)
    (hfresh : Fresh (e :: tr)) (hgen : ∀ k t, m.get? k = some t → k ∈ generated tr)
    (hages : ∀ k t', m'.get? k = some t' → ∃ t, m.get? k = some t ∧ t.Ages t') :
    Single cfg (e :: tr) m' := by
  intro p k k' t t' hk hk' hlive hlive' hd hd'
  obtain ⟨t0, h0, ha⟩ := hages k t hk
  obtain ⟨t0', h0', ha'⟩ := hages k' t' hk'
  have hlive0 : t0.revoked = false := by
    by_contra hr
    rw [ha.2 (by simpa using hr)] at hlive
    cases hlive
  have hlive0' : t0'.revoked = false := by
    by_contra hr
    rw [ha'.2 (by simpa using hr)] at hlive'
    cases hlive'
  exact h p k k' t0 t0' h0 h0' hlive0 hlive0' 
    (descends_older hfresh (hgen k t0 h0) hd) (descends_older hfresh (hgen k' t0' h0') hd')

/-- A token descends from an exchange that found a code of its request. -/
theorem Descends.root : ∀ {tr sys k}, (machine cfg).Run tr sys → Descends cfg p tr k →
    ∃ e ∈ tr, ∃ c t, Granted cfg p c t tr ∧ Finds c.code e
  | e :: tr, _, _, hrun, h => by
    obtain ⟨hrun, -, -⟩ := hrun.cons
    rcases h with h | ⟨form, at', rt, hop, hi, -, hred | ⟨-, -, hd⟩⟩
    · obtain ⟨e', he', c, t, hg, hf⟩ := h.root hrun
      exact ⟨e', List.mem_cons_of_mem e he', c, t, Or.inr hg, hf⟩
    · obtain ⟨c, t, hgrant, hcode, hg, -⟩ := hred
      refine ⟨e, List.mem_cons_self, c, t, Or.inr hg, form, hop, hgrant, hcode, ?_⟩
      cases hi with
      | code _ hc => exact (Dict.contains_iff _ _).mpr ⟨_, hcode ▸ hc⟩
      | refresh hg' => exact absurd (hgrant.symm.trans hg') (by decide)
    · obtain ⟨e', he', c, t, hg, hf⟩ := hd.root hrun
      exact ⟨e', List.mem_cons_of_mem e he', c, t, Or.inr hg, hf⟩

/-- A request has one code. -/
theorem Granted.unique (h : (machine cfg).Run tr sys) (hfresh : Fresh tr) {c c' : AuthCode}
    {t t' : Time} (hc : Granted cfg p c t tr) (hc' : Granted cfg p c' t' tr) : c = c' := by
  obtain ⟨newer, e, older, rfl, tid, req, hop, ht, -⟩ := once_iff.mp hc
  obtain ⟨newer', e', older', htr, tid', req', hop', ht', -⟩ := once_iff.mp hc'
  have he' : e' ∈ newer ++ e :: older := by rw [htr]; simp
  have he : e ∈ newer ++ e :: older := by simp
  obtain rfl := (yields_once h hfresh p.requestId).eq he he' ⟨tid, req, p, c, hop, ht, rfl⟩
    ⟨tid', req', p, c', hop', ht', rfl⟩
  obtain rfl : tid = tid' := Op.completeStore.inj (hop.symm.trans hop')
  exact (Thread.completeReady.inj (Option.some.inj (ht.symm.trans ht'))).2.2

/-- The token that an exchange issues for a request is the only usable one of that request. -/
theorem issued_single {e : Event} (hrun : (machine cfg).Run (e :: tr) e.post)
    (hfresh : Fresh (e :: tr)) (hs : Single cfg tr e.pre.svc.refreshTokens)
    {form : Dict String String} (hop : e.act.op = .exchange form) {at' : AccessToken}
    {rt : RefreshToken} (hi : Issues cfg e.act.env e.pre.svc form at' rt)
    (hd : Descends cfg p (e :: tr) rt.token) {t : RefreshToken}
    (ht : e.pre.svc.refreshTokens.get? k = some t) (hlive : t.revoked = false)
    (hk : Descends cfg p tr k) :
    getD form "grant_type" "" = "refresh_token" ∧ getD form "refresh_token" "" = k := by
  have hpre := hrun.cons.1
  have hnew : rt.token ∈ e.act.generates := by simp [Act.generates, hop, hi.token_eq.2]
  rcases hd with hd | ⟨form', _, _, hop', -, -, hred | ⟨hg, -, hd⟩⟩
  · exact absurd hnew (hfresh.not_generates hd.generated)
  · -- a code of the request was found before, when the root of the other token was issued
    obtain rfl : form = form' := Op.exchange.inj (hop.symm.trans hop')
    obtain ⟨c, t0, hgrant, hcode, hg, -⟩ := hred
    obtain ⟨e', he', c', t0', hg', hfinds'⟩ := hk.root hpre
    obtain rfl := hg.unique hpre hfresh.tail hg'
    cases hi with
    | refresh hg'' => exact absurd (hgrant.symm.trans hg'') (by decide)
    | code _ hc =>
      have hfinds : Finds c.code e :=
        ⟨form, hop, hgrant, hcode, (Dict.contains_iff _ _).mpr ⟨_, hcode ▸ hc⟩⟩
      exact absurd ⟨hfinds, hfinds'⟩
        (List.rel_of_pairwise_cons (finds_once hrun hfresh c.code) he')
  · obtain rfl : form = form' := Op.exchange.inj (hop.symm.trans hop')
    refine ⟨hg, ?_⟩
    cases hi with
    | code hg' => exact absurd (hg.symm.trans hg') (by decide)
    | refresh _ hr hok =>
      exact hs p _ k _ t hr ht (OAuthService.checkRefresh_ok _ _ hok).1 hlive hd hk

/-- Behind an exchange, one usable refresh token for each request is left in memory. -/
theorem exchange_single {e : Event} (hrun : (machine cfg).Run (e :: tr) e.post)
    (hfresh : Fresh (e :: tr)) (hs : Single cfg tr e.pre.svc.refreshTokens)
    {form : Dict String String} (hop : e.act.op = .exchange form) :
    Single cfg (e :: tr) (e.pre.svc.exchangeToken cfg e.act.env form).1.refreshTokens := by
  have hgen : ∀ k t, e.pre.svc.refreshTokens.get? k = some t → k ∈ generated tr := fun k t ht =>
    (stored_generated hrun.cons.1 (Or.inr ((Dict.contains_iff _ _).mpr ⟨t, ht⟩))).2
  have hex := exchange_exchanged cfg e.act.env e.pre.svc form
  generalize e.pre.svc.exchangeToken cfg e.act.env form = res at hex
  cases hex with
  | refused err hf => exact hs.ages hfresh hgen hf.refresh
  | @issued s0 clientId resource scopes hi hf _ _ _ hrefresh =>
    obtain ⟨s1, -, hset, heq, -⟩ := @issueTokens_eq cfg e.act.env s0 clientId resource scopes
    rw [heq]
    have hold : Single cfg (e :: tr) s0.refreshTokens := hs.ages hfresh hgen hf.refresh
    have horigin : ∀ k t, (s1.persist cfg e.act.env e.act.env.t3).1.refreshTokens.get? k = some t →
        k = (OAuthService.newRefresh e.act.env clientId resource scopes).token ∨
          s0.refreshTokens.get? k = some t := by
      intro k t h
      have h := OAuthService.persist_refresh cfg e.act.env s1 e.act.env.t3 h
      rw [hset] at h
      exact (Dict.get?_of_set h).imp (·.1) (·.2)
    -- a usable token of before beside the new one would be the one redeemed, which is revoked
    have hclash : ∀ p k t', Descends cfg p (e :: tr) k →
        Descends cfg p (e :: tr) (OAuthService.newRefresh e.act.env clientId resource scopes).token →
        s0.refreshTokens.get? k = some t' → t'.revoked = true := by
      intro p k t' hd hdnew h'
      obtain ⟨t, ht, ha⟩ := hf.refresh k t' h'
      by_cases hlive : t.revoked = true
      · exact ha.2 hlive
      · obtain ⟨hg, rfl⟩ := issued_single hrun hfresh hs hop hi hdnew ht (by simpa using hlive)
          (descends_older hfresh (hgen k t ht) hd)
        exact hrefresh hg t' h'
    intro p k k' t t' hk hk' hlive hlive' hd hd'
    rcases horigin k t hk with rfl | h
    · rcases horigin k' t' hk' with rfl | h'
      · rfl
      · rw [hclash p k' t' hd' hd h'] at hlive'
        cases hlive'
    · rcases horigin k' t' hk' with rfl | h'
      · rw [hclash p k t hd hd' h] at hlive
        cases hlive
      · exact hold p k k' t t' h h' hlive hlive' hd hd'

/-- Every step leaves one usable refresh token for each request, in memory and in the state file. -/
theorem step_single {e : Event} (hrun : (machine cfg).Run (e :: tr) e.post)
    (hfresh : Fresh (e :: tr)) (hs : ∀ m, e.pre.svc.Backs m → Single cfg tr m) :
    ∀ m, e.post.svc.Backs m → Single cfg (e :: tr) m := by
  obtain ⟨hpre, hstep, -⟩ := hrun.cons
  have hp := run_provenance hpre
  have hv := (run_valid hpre).svc
  have hgen : ∀ m, e.pre.svc.Backs m → ∀ k t, m.get? k = some t → k ∈ generated tr := by
    intro m hm k t ht
    obtain ⟨p, hd, -⟩ := hp.refresh k t (hm.holds ht)
    exact (hv.refresh k t (hm.holds ht)).1 ▸ hd.generated
  obtain ⟨svc, resp, heff, hcase⟩ := step_effect hstep
  have hev := effect_evolves heff
  have hvalid := hev.valid
    (newOf_valid fun tid req p ht => (run_valid hpre).threads tid _ ht) hv
  have hmem : Single cfg (e :: tr) svc.refreshTokens := by
    by_cases hop : ∃ form, e.act.op = .exchange form
    · obtain ⟨form, hop⟩ := hop
      have hsvc : svc = (e.pre.svc.exchangeToken cfg e.act.env form).1 := by
        rw [hop] at heff
        cases heff with
        | idle hop => cases hop
        | exchange => rfl
      rw [hsvc]
      exact exchange_single hrun hfresh (hs _ (Or.inl rfl)) hop
    · obtain ⟨m, hm, h⟩ := hev.refresh
      refine (hs m hm).ages hfresh (hgen m hm) fun k t' ht' => ?_
      rcases h k t' ht' with hold | ⟨-, hn⟩
      · exact hold
      · obtain ⟨form, -, hop', -⟩ := newOf_refresh hn
        exact absurd ⟨form, hop'⟩ hop
  have hfile : ∀ read, readFile svc.file = some read → Single cfg (e :: tr) read.2 := by
    intro read hread
    rcases hev.file.read (fun k c hk => hvalid.clients k c (Or.inl hk))
      (fun k t hk => hvalid.refresh k t (Or.inl hk)) hread with hold | hre
    · have hback : e.pre.svc.Backs read.2 := Or.inr ⟨read, hold, rfl⟩
      exact (hs _ hback).ages hfresh (hgen _ hback) fun k t ht => ⟨t, ht, .refl t⟩
    · intro p k k' t t' hk hk'
      have hsame : ∀ k t, read.2.get? k = some t → svc.refreshTokens.get? k = some t := by
        intro k t hk
        rw [hre.2] at hk
        obtain ⟨t0, h0, rfl⟩ := Option.map_eq_some_iff.mp hk
        rw [(hvalid.refresh k t0 (Or.inl h0)).reload]
        exact h0
      exact hmem p k k' t t' (hsame k t hk) (hsame k' t' hk')
  rintro m (rfl | ⟨read, hread, rfl⟩)
  · rcases hcase with ⟨-, h, -⟩ | ⟨h, -⟩ <;> rw [h]
    · exact hmem
    · exact fun _ _ _ _ _ hk => (nomatch hk)
  · refine hfile read ?_
    rcases hcase with ⟨-, h, -⟩ | ⟨h, -⟩ <;> rw [h] at hread <;> exact hread

theorem run_single (h : (machine cfg).Run tr sys) (hfresh : Fresh tr) :
    ∀ m, sys.svc.Backs m → Single cfg tr m := by
  refine h.invariant (A := Fresh) (I := fun tr s => ∀ m, s.svc.Backs m → Single cfg tr m)
    (fun _ _ => Fresh.tail) ?_ ?_ hfresh
  · rintro _ rfl m - p k k' t t' - - - - hd
    exact hd.elim
  · exact fun _ _ _ _ _ hrun hf hs hstep =>
      step_single (e := ⟨_, _, _, _⟩) (.step hrun hstep) hf hs

/-- Single use of every grant artefact, over all interleavings, crashes and restarts: each admitted
    request yields one code at most, each code is found by one exchange and gets one answer with
    tokens at most, each refresh token gets one, and at every moment one refresh token at most that
    descends from a request is usable, in memory and in the state file. -/
theorem single_use (h : (machine cfg).Run tr sys) (hfresh : Fresh tr) :
    (∀ requestId, AtMostOnce (Yields requestId) tr) ∧
    (∀ code, AtMostOnce (Finds code) tr ∧
      AtMostOnce (Answers "authorization_code" "code" code) tr) ∧
    (∀ token, AtMostOnce (Answers "refresh_token" "refresh_token" token) tr) ∧
    ∀ m, sys.svc.Backs m → Single cfg tr m := by
  refine ⟨yields_once h hfresh, fun code => ⟨finds_once h hfresh code, ?_⟩, refresh_once h hfresh,
    run_single h hfresh⟩
  refine (finds_once h hfresh code).imp fun e he ha => ?_
  obtain ⟨newer, older, rfl⟩ := List.append_of_mem he
  exact ha.finds h.split.2.2

end Single

/-- The sample run, its code once more, and its refresh token twice. -/
def replayRun : List Act :=
  sampleRun ++
    [(Op.exchange (sampleForm "client_c" "code_k")).run 6 "x2" "y2",
      (Op.exchange (.ofList [("grant_type", "refresh_token"), ("refresh_token", "rtk_y"),
        ("client_id", "client_c")])).run 7 "x3" "y3",
      (Op.exchange (.ofList [("grant_type", "refresh_token"), ("refresh_token", "rtk_y"),
        ("client_id", "client_c")])).run 8 "x4" "y4"]

def isIssued : Resp → Bool
  | .issued _ => true
  | _ => false

theorem single_use_replay :
    ((after sampleConfig replayRun).1.countP fun e => isIssued e.resp) = 2 ∧
      AtMostOnce (Finds "code_k") (after sampleConfig replayRun).1 := by
  have hfresh : Fresh (after sampleConfig replayRun).1 := by
    unfold Fresh
    decide +kernel
  exact ⟨by decide +kernel, ((single_use (after_run sampleConfig replayRun) hfresh).2.1 _).1⟩

end DataRelay.OAuth
