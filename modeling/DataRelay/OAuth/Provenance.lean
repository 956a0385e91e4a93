import DataRelay.OAuth.Invariants

/-! Every token descends from an owner's approval.

    The history of a run says how each record came about: `Admitted` for a pending request, `Approved`
    for a call that passed the owner's secret, `Granted` for a code, `Descends` for a token.
    `Provenance` states these of every record that is held, in memory, on a thread or in the state
    file; it is kept by every step, and the result about `validate_bearer` is read off it. -/

namespace DataRelay.OAuth
open Lib

/-- The newest call begun on a thread did `P`, at some point. -/
def OnThread (tid : ℕ) (P : Event → Trace → Prop) : Trace → Prop :=
  Since P fun e => e.act.op.starts ≠ some tid

theorem OnThread.later {tid : ℕ} {P : Event → Trace → Prop} {e : Event} {tr : Trace}
    (h : OnThread tid P tr) (he : e.act.op.starts ≠ some tid) : OnThread tid P (e :: tr) :=
  Or.inr ⟨he, h⟩

section Grounds
variable (cfg : Config)

/-- The call on `tid` is a `begin_authorization` that passed its checks: the client was registered
    with exactly this redirect URI. -/
def Checked (tid : ℕ) (req : AuthorizeRequest) (scopes : Finset String) : Trace → Prop :=
  OnThread tid fun e _ => ∃ params source, e.act.op = .beginCall tid params source ∧
    req = .ofParams params ∧ checkRequest cfg req = .ok scopes ∧
    e.pre.svc.clientAllows req.clientId req.redirectUri = true

/-- The request that the call on `tid` made is `p`. -/
def Requested (tid : ℕ) (p : PendingAuthorization) : Trace → Prop :=
  OnThread tid fun e tr => ∃ req scopes, e.act.op = .beginBuild tid ∧
    p = OAuthService.beginBuild e.act.env req scopes ∧ Checked cfg tid req scopes tr

/-- `begin_authorization` put `p` into `pending`. -/
def Admitted (p : PendingAuthorization) : Trace → Prop :=
  Once fun e tr => ∃ tid, e.act.op = .beginAdmit tid ∧
    e.post.svc.pending.get? p.requestId = some p ∧ Requested cfg tid p tr

/-- The call on `tid` is a `complete_authorization` that found `p`. -/
def Popped (tid : ℕ) (req : CompleteRequest) (p : PendingAuthorization) : Trace → Prop :=
  OnThread tid fun e tr => e.act.op = .completeCall tid req ∧
    e.pre.svc.pending.get? req.requestId = some p ∧ Admitted cfg p tr

/-- It said to approve, before the request expired. -/
def Live (tid : ℕ) (req : CompleteRequest) (p : PendingAuthorization) : Trace → Prop :=
  OnThread tid fun e tr => e.act.op = .completeCheck tid ∧ req.decision = "approve" ∧
    e.act.env.t0 ≤ p.expiresAt ∧ Popped cfg tid req p tr

/-- It gave the owner's secret. -/
def Approved (tid : ℕ) (req : CompleteRequest) (p : PendingAuthorization) : Trace → Prop :=
  OnThread tid fun e tr => e.act.op = .completeDecide tid ∧
    cfg.ownerApprovalSecret = some req.ownerSecret ∧ Live cfg tid req p tr

/-- It made the code `c` at time `t`. -/
def Minted (tid : ℕ) (p : PendingAuthorization) (c : AuthCode) (t : Time) : Trace → Prop :=
  OnThread tid fun e tr => ∃ req, e.act.op = .completeBuild tid ∧ e.act.env.t0 = t ∧
    e.pre.threads.get? tid = some (.completeApproved req p) ∧
    c = OAuthService.completeBuild e.act.env p ∧ Approved cfg tid req p tr

/-- The code `c` was made for `p` at time `t`, and stored. -/
def Granted (p : PendingAuthorization) (c : AuthCode) (t : Time) : Trace → Prop :=
  Once fun e tr => ∃ tid req, e.act.op = .completeStore tid ∧
    e.pre.threads.get? tid = some (.completeReady req p c) ∧ Minted cfg tid p c t tr

/-- The form redeems a code of `p` at time `now`: the code is not older than its lifetime, the client
    and the redirect URI are those of the request, and the verifier hashes to its challenge. -/
def Redeems (p : PendingAuthorization) (form : Dict String String) (now : Time) (tr : Trace) :
    Prop :=
  ∃ c t, getD form "grant_type" "" = "authorization_code" ∧ getD form "code" "" = c.code ∧
    Granted cfg p c t tr ∧ now ≤ t + codeTtlS ∧ getD form "client_id" "" = p.clientId ∧
    getD form "redirect_uri" "" = p.redirectUri ∧
    pkceS256 (getD form "code_verifier" "") = .ok p.codeChallenge

/-- The token comes from the exchange of a code of `p`, through any number of refreshes by the client
    of `p`. -/
def Descends (p : PendingAuthorization) : Trace → String → Prop
  | [], _ => False
  | e :: tr, token => Descends p tr token ∨
    ∃ form at' rt, e.act.op = .exchange form ∧ Issues cfg e.act.env e.pre.svc form at' rt ∧
      (token = at'.token ∨ token = rt.token) ∧
      (Redeems cfg p form e.act.env.t0 tr ∨
        (getD form "grant_type" "" = "refresh_token" ∧ getD form "client_id" "" = p.clientId ∧
          Descends p tr (getD form "refresh_token" "")))

end Grounds

section Lemmas
variable {cfg : Config} {tr : Trace} {e : Event} {p : PendingAuthorization} {c : AuthCode} {t : Time}
  {tid : ℕ}

/-- A code carries the request it was made for, and expires `CODE_TTL_S` after it was made. -/
theorem Minted.code_eq (h : Minted cfg tid p c t tr) : c.clientId = p.clientId ∧
    c.redirectUri = p.redirectUri ∧ c.codeChallenge = p.codeChallenge ∧ c.resource = p.resource ∧
    c.scopes = p.scopes ∧ c.expiresAt = t + codeTtlS := by
  obtain ⟨_, e, _, rfl, ⟨req, -, rfl, -, rfl, -⟩, -⟩ := since_iff.mp h
  exact ⟨rfl, rfl, rfl, rfl, rfl, rfl⟩

theorem Granted.code_eq (h : Granted cfg p c t tr) : c.clientId = p.clientId ∧
    c.redirectUri = p.redirectUri ∧ c.codeChallenge = p.codeChallenge ∧ c.resource = p.resource ∧
    c.scopes = p.scopes ∧ c.expiresAt = t + codeTtlS := by
  obtain ⟨_, _, _, rfl, tid, -, -, -, hm⟩ := once_iff.mp h
  exact hm.code_eq

/-- The request of a call that goes on was admitted before. -/
theorem Live.admitted {req : CompleteRequest} (h : Live cfg tid req p tr) : Admitted cfg p tr := by
  obtain ⟨newer, e, older, rfl, ⟨-, -, -, hpop⟩, -⟩ := since_iff.mp h
  obtain ⟨newer', e', older', rfl, ⟨-, -, hadm⟩, -⟩ := since_iff.mp hpop
  exact once_append newer (Or.inr (once_append newer' (Or.inr hadm)))

/-- Whoever passed the second lock gave the configured secret. -/
theorem secret_of_decided {env : Env} {s : OAuthService} {req : CompleteRequest}
    (h : (s.completeDecide cfg env req p).2 = .ok ()) :
    cfg.ownerApprovalSecret = some req.ownerSecret := by
  unfold OAuthService.completeDecide at h
  dsimp only at h
  split at h
  · cases h
  split at h
  · cases h
  rename_i hne
  split at h
  · cases h
  · cases h
  rename_i heq
  unfold compareDigest at heq
  split at heq
  · have heq : req.ownerSecret = cfg.ownerApprovalSecret.getD "" := by simpa using heq
    cases hs : cfg.ownerApprovalSecret with
    | none => rw [hs] at hne; exact absurd rfl hne
    | some secret => rw [heq, hs]; rfl
  · cases heq

theorem beginCheck_ok {s : OAuthService} {req : AuthorizeRequest} {scopes : Finset String}
    (h : s.beginCheck cfg req = .ok (.ok scopes)) :
    checkRequest cfg req = .ok scopes ∧ s.clientAllows req.clientId req.redirectUri = true := by
  unfold OAuthService.beginCheck at h
  unfold OAuthService.clientAllows
  split at h
  · cases h
  rename_i c hc
  split at h
  · cases h
  rename_i huri
  exact ⟨Except.ok.inj h, by simpa [hc] using huri⟩

end Lemmas

/-! ### The invariant -/

section Invariant
variable (cfg : Config)

/-- The grounds on which a call stands where it stands. -/
def Grounded (tr : Trace) (tid : ℕ) : Thread → Prop
  | .beginChecked req _ scopes => Checked cfg tid req scopes tr
  | .beginReady _ p => Requested cfg tid p tr
  | .completePopped req (some p) => Popped cfg tid req p tr
  | .completeDeciding req p => Live cfg tid req p tr
  | .completeApproved req p => Approved cfg tid req p tr
  | .completeReady _ p c => ∃ t, Minted cfg tid p c t tr
  | _ => True

/-- A token of this client, resource and scopes stays within what was approved for `p`. -/
def Within (p : PendingAuthorization) (clientId resource : String) (scopes : Finset String) : Prop :=
  clientId = p.clientId ∧ resource = p.resource ∧ resource = cfg.resourceUrl ∧ scopes ⊆ p.scopes

/-- Where what the service and its calls hold comes from in the run. -/
structure Provenance (tr : Trace) (sys : System) : Prop where
  pending : ∀ k p, sys.svc.pending.get? k = some p → Admitted cfg p tr
  threads : ∀ tid th, sys.threads.get? tid = some th → Grounded cfg tr tid th
  codes : ∀ k c, sys.svc.codes.get? k = some c → ∃ p t, Granted cfg p c t tr
  access : ∀ k t, sys.svc.accessTokens.get? k = some t →
    ∃ p, Descends cfg p tr t.token ∧ Within cfg p t.clientId t.resource t.scopes
  refresh : ∀ k t, sys.svc.HoldsRefresh k t →
    ∃ p, Descends cfg p tr t.token ∧ Within cfg p t.clientId t.resource t.scopes

variable {cfg} {tr : Trace} {sys sys' : System} {a : Act} {r : Resp}

/-- Grounds stay grounds as long as no new call begins on the thread. -/
theorem Grounded.later {tid : ℕ} {th : Thread} {e : Event} (h : Grounded cfg tr tid th)
    (he : e.act.op.starts ≠ some tid) : Grounded cfg (e :: tr) tid th := by
  cases th with
  | beginChecked => exact OnThread.later h he
  | beginReady => exact OnThread.later h he
  | completePopped req pending =>
    cases pending with
    | none => trivial
    | some p => exact OnThread.later h he
  | completeDeciding => exact OnThread.later h he
  | completeApproved => exact OnThread.later h he
  | completeReady =>
    obtain ⟨t, h⟩ := h
    exact ⟨t, OnThread.later h he⟩
  | beginError => trivial

/-- A call that comes to a new point has the grounds for it. -/
theorem Arises.grounded {tid : ℕ} {th : Thread} (hp : Provenance cfg tr sys)
    (h : Arises cfg a.env sys tid a.op th) :
    Grounded cfg (⟨sys, a, sys', r⟩ :: tr) tid th := by
  obtain ⟨op, env, crash⟩ := a
  cases h with
  | error => trivial
  | checked hb =>
    obtain ⟨hok, hallows⟩ := beginCheck_ok hb
    exact Or.inl ⟨_, _, rfl, rfl, hok, hallows⟩
  | begun ht => exact Or.inl ⟨_, _, rfl, rfl, hp.threads _ _ ht⟩
  -- a popped entry was pending, so it is admitted by then
  | popped req =>
    cases hpop : sys.svc.pending.get? req.requestId with
    | none => trivial
    | some p => exact Or.inl ⟨rfl, hpop, hp.pending _ p hpop⟩
  | deciding ht hd hlive =>
    have hpop : Popped cfg tid _ _ tr := hp.threads _ _ ht
    exact Or.inl ⟨rfl, hd, hlive, hpop⟩
  | approved ht hok =>
    have hlive : Live cfg tid _ _ tr := hp.threads _ _ ht
    exact Or.inl ⟨rfl, secret_of_decided hok, hlive⟩
  | ready ht =>
    have happ : Approved cfg tid _ _ tr := hp.threads _ _ ht
    exact ⟨_, Or.inl ⟨_, rfl, rfl, ht, rfl, happ⟩⟩

/-- What an exchange issues descends from an approved request. -/
theorem Issues.descends {form : Dict String String} {at' : AccessToken} {rt : RefreshToken}
    (hv : sys.Valid) (hp : Provenance cfg tr sys) (hop : a.op = .exchange form)
    (h : Issues cfg a.env sys.svc form at' rt) :
    ∃ p, (∀ token, token = at'.token ∨ token = rt.token →
        Descends cfg p (⟨sys, a, sys', r⟩ :: tr) token) ∧
      Within cfg p at'.clientId at'.resource at'.scopes ∧
      Within cfg p rt.clientId rt.resource rt.scopes := by
  have hissue := h
  cases h with
  | @code record hg hc hok =>
    obtain ⟨p, t, hgrant⟩ := hp.codes _ record hc
    obtain ⟨-, hlive, hclient, -, huri, -, hres, -, hpkce⟩ := OAuthService.checkCode_ok _ _ _ hok
    obtain ⟨hc1, hc2, hc3, hc4, hc5, hc6⟩ := hgrant.code_eq
    have hwithin : Within cfg p record.clientId record.resource record.scopes :=
      ⟨hc1, hc4, hres, hc5.le⟩
    refine ⟨p, fun token ht => Or.inr ⟨form, _, _, hop, hissue, ht, Or.inl ?_⟩, hwithin, hwithin⟩
    exact ⟨record, t, hg, (hv.svc.codes _ record hc).symm, hgrant, hc6 ▸ hlive,
      hclient.symm.trans hc1, huri.symm.trans hc2, hc3 ▸ hpkce⟩
  | @refresh record scopes hg hr hok hs =>
    obtain ⟨p, hd, hw1, hw2, hw3, hw4⟩ := hp.refresh _ record (Or.inl hr)
    obtain ⟨-, -, hclient⟩ := OAuthService.checkRefresh_ok _ _ hok
    have hwithin : Within cfg p record.clientId record.resource scopes :=
      ⟨hw1, hw2, hw3, (OAuthService.refreshScopes_ok hs).trans hw4⟩
    refine ⟨p, fun token ht => Or.inr ⟨form, _, _, hop, hissue, ht, Or.inr ?_⟩, hwithin, hwithin⟩
    rw [(hv.svc.refresh _ record (Or.inl hr)).1] at hd
    exact ⟨hg, hclient.symm.trans hw1, hd⟩

theorem step_provenance (hv : sys.Valid) (hp : Provenance cfg tr sys)
    (h : sys.step cfg a = some (sys', r)) : Provenance cfg (⟨sys, a, sys', r⟩ :: tr) sys' where
  pending k p hk := by
    rcases step_pending h hk with hold | ⟨tid, source, hop, rfl, ht⟩ | ⟨tid, req, hop, -, ht, -⟩
    · exact Or.inr (hp.pending k p hold)
    · exact Or.inl ⟨tid, hop, hk, hp.threads tid _ ht⟩
    · -- an entry that is put back was live on its thread, so it was admitted
      have hlive : Live cfg tid req p tr := hp.threads tid _ ht
      exact Or.inr hlive.admitted
  threads tid th ht := by
    rcases (step_threads h ht).2 with ⟨hne, hold⟩ | ⟨-, ha⟩
    · refine (hp.threads tid th hold).later fun hs => hne ?_
      rw [Op.thread, hs]; rfl
    · exact ha.grounded hp
  codes k c hk := by
    rcases step_codes h hk with hold | ⟨rfl, tid, req, p, hop, ht⟩
    · obtain ⟨p, t, hg⟩ := hp.codes k c hold
      exact ⟨p, t, Or.inr hg⟩
    · obtain ⟨t, hm⟩ := hp.threads tid _ ht
      exact ⟨p, t, Or.inl ⟨tid, req, hop, ht, hm⟩⟩
  access k t' hk := by
    rcases step_access h hk with ⟨t, hold, ha⟩ | ⟨-, form, rt, hop, hi⟩
    · obtain ⟨p, hd, hw⟩ := hp.access k t hold
      rw [ha.1]
      exact ⟨p, Or.inl hd, hw⟩
    · -- the one other way to an access token is the exchange of this step
      obtain ⟨p, hd, hw, -⟩ := hi.descends hv hp hop
      exact ⟨p, hd _ (Or.inl rfl), hw⟩
  refresh k t' hk := by
    rcases step_holdsRefresh h hv hk with ⟨t, hold, ha⟩ | ⟨-, form, at', hop, hi⟩
    · obtain ⟨p, hd, hw⟩ := hp.refresh k t hold
      rw [ha.1]
      exact ⟨p, Or.inl hd, hw⟩
    · obtain ⟨p, hd, -, hw⟩ := hi.descends hv hp hop
      exact ⟨p, hd _ (Or.inr rfl), hw⟩

end Invariant

/-! ### Every run -/

section Runs
variable {cfg : Config} {tr : Trace} {sys : System}

theorem init_provenance : Provenance cfg [] System.initial where
  pending _ _ h := nomatch h
  threads _ _ h := nomatch h
  codes _ _ h := nomatch h
  access _ _ h := nomatch h
  refresh _ _ h := by
    rcases h with h | ⟨read, hread, h⟩
    · cases h
    · cases hread; cases h

theorem run_provenance (h : (machine cfg).Run tr sys) : Provenance cfg tr sys :=
  h.invariant (A := fun _ => True) (I := Provenance cfg) (fun _ _ _ => trivial)
    (by rintro _ rfl; exact init_provenance)
    (fun _ _ _ _ _ hrun _ hp hstep => step_provenance (run_valid hrun) hp hstep) trivial

theorem validate_ok {env : Env} {s : OAuthService} {authorization : Option String}
    {required : Finset String} {t : AccessToken}
    (h : s.validateBearer cfg env authorization required = .ok t) :
    ∃ token, OAuthService.bearerToken authorization = some token ∧ s.accessTokens.get? token = some t ∧
      t.revoked = false := by
  unfold OAuthService.validateBearer at h
  split at h
  · cases h
  rename_i token htoken
  dsimp only at h
  split at h
  · cases h
  rename_i record hrecord
  simp only [guard_ok] at h
  obtain ⟨hrevoked, -, -, h⟩ := h
  generalize (if required = ∅ then scopesSupported else required) = needed at h
  split at h
  · cases h; exact ⟨token, htoken, hrecord, by simpa using hrevoked⟩
  · cases h

/-- A response with a token comes from a `validate_bearer` that accepted it. -/
theorem step_bearer {a : Act} {sys sys' : System} {t : AccessToken}
    (h : sys.step cfg a = some (sys', .bearer t)) :
    ∃ authorization required, a.op = .validate authorization required ∧
      sys.svc.validateBearer cfg a.env authorization required = .ok t := by
  obtain ⟨svc, resp, heff, hcase⟩ := step_effect h
  obtain ⟨op, env, crash⟩ := a
  rcases hcase with ⟨-, -, rfl⟩ | ⟨-, hlost⟩
  · generalize hr : Resp.bearer t = resp at heff
    cases heff with
    | idle _ hb => exact absurd hr.symm (hb t)
    | validate authorization required =>
      cases hv : sys.svc.validateBearer cfg env authorization required with
      | ok t' => rw [hv] at hr; cases hr; exact ⟨authorization, required, rfl, hv⟩
      | error e => rw [hv] at hr; cases hr
    | pop => cases hr
    | _ => exact absurd hr.symm (respond_ne (by simp) (by simp))
  · rcases hlost with ⟨-, hr⟩ | ⟨calls, e, -, hr⟩ <;> cases hr

/-- Provenance of access tokens: a token that `validate_bearer` accepts, at any point of any run, was
    presented in the header and descends from the exchange of a code that the owner approved, for the
    same client and resource, and for no more than the scopes of the request. -/
theorem bearer_descends {e : Event} (h : (machine cfg).Run (e :: tr) sys) {t : AccessToken}
    (ht : e.resp = .bearer t) :
    (∃ authorization required, e.act.op = .validate authorization required ∧
      OAuthService.bearerToken authorization = some t.token) ∧
    ∃ p, Descends cfg p tr t.token ∧ t.clientId = p.clientId ∧ t.resource = p.resource ∧
      t.resource = cfg.resourceUrl ∧ t.scopes ⊆ p.scopes := by
  obtain ⟨hrun, hstep, -⟩ := h.cons
  obtain ⟨authorization, required, hop, hok⟩ := step_bearer (ht ▸ hstep)
  obtain ⟨token, htoken, hget, -⟩ := validate_ok hok
  -- the accepted token is in the table, where all descend
  obtain ⟨p, hd, hw⟩ := (run_provenance hrun).access token t hget
  rw [← ((run_valid hrun).svc.access token t hget).1] at htoken
  exact ⟨⟨authorization, required, hop, htoken⟩, p, hd, hw⟩

end Runs

/-! ### A run from registration to use -/

/-- An operation at time `t`, whose tokens are made of `r0` and `r1` and whose save succeeds. -/
def Op.run (op : Op) (t : Time) (r0 r1 : String) : Act :=
  ⟨op, ⟨t, t, t, t, r0, r1, callsOk 100000⟩, false⟩

/-- The owner's secret of the samples. -/
def ownerSecret : String := "owner-secret-0123"

/-- A service without a state file. -/
def sampleConfig : Config :=
  ⟨"https://relay.example", "https://relay.example/mcp", some ownerSecret, none⟩

/-- A registration with one redirect URI. -/
def sampleBody : Json := .obj [("redirect_uris", strs ["https://app.example/cb"])]

/-- A request for authorization with a PKCE challenge. -/
def sampleParams (clientId : String) : Dict String String :=
  .ofList [("client_id", clientId), ("redirect_uri", "https://app.example/cb"),
    ("response_type", "code"),
    ("code_challenge", "iMnq5o6zALKXGivsnlom_0F5_WYda32GHkxlV7mq7hQ"),
    ("code_challenge_method", "S256"), ("resource", "https://relay.example/mcp")]

/-- The exchange of a code with the verifier of this challenge. -/
def sampleForm (clientId code : String) : Dict String String :=
  .ofList [("grant_type", "authorization_code"), ("code", code), ("client_id", clientId),
    ("redirect_uri", "https://app.example/cb"), ("code_verifier", "verifier"),
    ("resource", "https://relay.example/mcp")]

/-- The stretches of a `begin_authorization` on thread `tid` that makes `authreq_r`. -/
def beginOps (tid : ℕ) (clientId r : String) (t : Time) : List Act :=
  [(Op.beginCall tid (sampleParams clientId) "a").run t "" "", (Op.beginBuild tid).run t r "",
    (Op.beginAdmit tid).run t "" ""]

/-- The stretches of a `complete_authorization` on thread `tid` that makes `code_r`. -/
def approveOps (tid : ℕ) (requestId r : String) (t : Time) : List Act :=
  [(Op.completeCall tid ⟨requestId, ownerSecret, "approve", "o"⟩).run t "" "",
    (Op.completeCheck tid).run t "" "", (Op.completeDecide tid).run t "" "",
    (Op.completeBuild tid).run t r "", (Op.completeStore tid).run t "" ""]

/-- A registration, an approved authorization, its exchange, and a use of the token. -/
def sampleRun : List Act :=
  (Op.register sampleBody "a").run 1 "c" "" :: beginOps 0 "client_c" "p" 2 ++
    approveOps 1 "authreq_p" "k" 3 ++
    [(Op.exchange (sampleForm "client_c" "code_k")).run 4 "x" "y",
      (Op.validate (some "Bearer atk_x") ∅).run 5 "" ""]

/-- The token that a bearer was accepted with. -/
def bearerOf : Resp → Option AccessToken
  | .bearer t => some t
  | _ => none

theorem bearerOf_eq {r : Resp} {t : AccessToken} (h : bearerOf r = some t) : r = .bearer t := by
  cases r <;> cases h
  rfl

/-- The history and the state behind a list of actions that can be executed. -/
def after (cfg : Config) (as : List Act) : Trace × System :=
  ((machine cfg).exec as ([], System.initial)).getD ([], System.initial)

theorem after_run (cfg : Config) (as : List Act) :
    (machine cfg).Run (after cfg as).1 (after cfg as).2 := by
  unfold after
  cases h : (machine cfg).exec as ([], System.initial) with
  | none => exact .start rfl
  | some r => exact (Machine.Run.start rfl).exec h

/-- A history that has an entry of some kind, `n` entries back, splits there. -/
theorem entry_eq {α : Type} {f : Event → Option α} {tr : Trace} {n : ℕ} {x : α}
    (h : tr[n]?.bind f = some x) :
    ∃ newer e older, tr = newer ++ e :: older ∧ newer.length = n ∧ f e = some x := by
  obtain ⟨e, he, hf⟩ := Option.bind_eq_some_iff.mp h
  obtain ⟨hn, rfl⟩ := List.getElem?_eq_some_iff.mp he
  refine ⟨tr.take n, tr[n], tr.drop (n + 1), ?_, List.length_take_of_le hn.le, hf⟩
  rw [← List.drop_eq_getElem_cons hn, List.take_append_drop]

theorem bearer_descends_sample : ∃ e tr sys t, (machine sampleConfig).Run (e :: tr) sys ∧
    e.resp = .bearer t ∧ ∃ p, Descends sampleConfig p tr t.token := by
  have hsome : ((after sampleConfig sampleRun).1[0]?.bind fun e => bearerOf e.resp).isSome := by
    decide +kernel
  obtain ⟨t, ht⟩ := Option.isSome_iff_exists.mp hsome
  obtain ⟨newer, e, older, htr, hlen, hr⟩ := entry_eq ht
  obtain rfl := List.length_eq_zero_iff.mp hlen
  have hrun : (machine sampleConfig).Run (e :: older) _ := htr ▸ after_run sampleConfig sampleRun
  obtain ⟨-, p, hd, -⟩ := bearer_descends hrun (bearerOf_eq hr)
  exact ⟨e, older, _, t, hrun, bearerOf_eq hr, p, hd⟩

end DataRelay.OAuth
