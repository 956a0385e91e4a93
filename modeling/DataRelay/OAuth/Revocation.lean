import DataRelay.OAuth.Provenance

/-! A token that was revoked stays unusable.

    `AccessDead` and `RefreshDead` say that no usable record of a token is left, in memory or in the
    state file. A step keeps them as long as it does not generate the token anew; a `revoke` or a
    rotation that returns establishes them, because what it saved is what the memory holds. -/

namespace DataRelay.OAuth
open Lib

/-! ### Generated identifiers -/

/-- The identifiers that a stretch generates. -/
def Act.generates (a : Act) : List String :=
  match a.op with
  | .register .. => [newToken "client" a.env.random0]
  | .beginBuild _ => [newToken "authreq" a.env.random0]
  | .completeBuild _ => [newToken "code" a.env.random0]
  | .exchange _ => [newToken "atk" a.env.random0, newToken "rtk" a.env.random1]
  | _ => []

def generated (tr : Trace) : List String := tr.flatMap fun e => e.act.generates

/-- No identifier is generated twice. -/
def Fresh (tr : Trace) : Prop := (generated tr).Nodup

section Generated
variable {cfg : Config} {tr : Trace} {e : Event} {p : PendingAuthorization} {c : AuthCode} {t : Time}
  {tid : ℕ} {x : String}

theorem generated_cons : generated (e :: tr) = e.act.generates ++ generated tr :=
  List.flatMap_cons

theorem Fresh.tail (h : Fresh (e :: tr)) : Fresh tr := by
  rw [Fresh, generated_cons] at h
  exact (List.nodup_append.mp h).2.1

theorem Fresh.not_generates (h : Fresh (e :: tr)) (hx : x ∈ generated tr) :
    x ∉ e.act.generates := by
  rw [Fresh, generated_cons] at h
  exact fun hx' => (List.nodup_append.mp h).2.2 x hx' x hx rfl

theorem generated_entry (newer older : Trace) (hx : x ∈ e.act.generates) :
    x ∈ generated (newer ++ e :: older) :=
  List.mem_flatMap.mpr ⟨e, by simp, hx⟩

theorem generated_later (newer : Trace) (hx : x ∈ generated tr) : x ∈ generated (newer ++ tr) := by
  rw [generated, List.flatMap_append]
  exact List.mem_append_right _ hx

theorem generated_tail (e : Event) (hx : x ∈ generated tr) : x ∈ generated (e :: tr) :=
  generated_later [e] hx

theorem Issues.token_eq {env : Env} {s : OAuthService} {form : Dict String String}
    {at' : AccessToken} {rt : RefreshToken} (h : Issues cfg env s form at' rt) :
    at'.token = newToken "atk" env.random0 ∧ rt.token = newToken "rtk" env.random1 := by
  cases h <;> exact ⟨rfl, rfl⟩

theorem Descends.generated : ∀ {tr : Trace}, Descends cfg p tr x → x ∈ generated tr
  | e :: tr, h => by
    rcases h with h | ⟨form, at', rt, hop, hi, hx, -⟩
    · exact generated_tail e h.generated
    · refine generated_entry [] tr ?_
      obtain ⟨hat, hrt⟩ := hi.token_eq
      simpa [Act.generates, hop, hat, hrt] using hx

theorem Requested.generated (h : Requested cfg tid p tr) : p.requestId ∈ generated tr := by
  obtain ⟨newer, e, older, rfl, ⟨req, scopes, hop, rfl, -⟩, -⟩ := since_iff.mp h
  exact generated_entry _ _ (by simp [Act.generates, hop, OAuthService.beginBuild])

theorem Admitted.generated (h : Admitted cfg p tr) : p.requestId ∈ generated tr := by
  obtain ⟨newer, e, older, rfl, tid, -, -, hreq⟩ := once_iff.mp h
  exact generated_later _ (generated_tail e hreq.generated)

theorem Minted.generated (h : Minted cfg tid p c t tr) :
    c.code ∈ generated tr ∧ ∃ random, c.code = newToken "code" random := by
  obtain ⟨newer, e, older, rfl, ⟨req, hop, -, -, rfl, -⟩, -⟩ := since_iff.mp h
  exact ⟨generated_entry _ _ (by simp [Act.generates, hop, OAuthService.completeBuild]), _, rfl⟩

theorem Granted.generated (h : Granted cfg p c t tr) :
    c.code ∈ generated tr ∧ ∃ random, c.code = newToken "code" random := by
  obtain ⟨newer, e, older, rfl, tid, -, -, -, hm⟩ := once_iff.mp h
  obtain ⟨hmem, hkind⟩ := hm.generated
  exact ⟨generated_later _ (generated_tail e hmem), hkind⟩

end Generated

/-! ### Dead tokens -/

namespace OAuthService
variable (s : OAuthService) (token : String)

/-- No usable access token of this name. -/
def AccessDead : Prop := ∀ t, s.accessTokens.get? token = some t → t.revoked = true

/-- No usable refresh token of this name, in memory or in the state file. -/
def RefreshDead : Prop := ∀ t, s.HoldsRefresh token t → t.revoked = true

end OAuthService

section Dead
variable {cfg : Config} {sys sys' : System} {a : Act} {r : Resp} {k : String}
  (h : sys.step cfg a = some (sys', r))
include h

theorem step_accessDead (hd : sys.svc.AccessDead k) (hnew : k ∉ a.generates) :
    sys'.svc.AccessDead k := by
  intro t' ht'
  rcases step_access h ht' with ⟨t, ht, ha⟩ | ⟨rfl, form, rt, hop, hi⟩
  · exact ha.2 (hd t ht)
  · exact absurd (by simp [Act.generates, hop, hi.token_eq.1]) hnew

theorem step_refreshDead (hv : sys.Valid) (hd : sys.svc.RefreshDead k) (hnew : k ∉ a.generates) :
    sys'.svc.RefreshDead k := by
  intro t' ht'
  rcases step_holdsRefresh h hv ht' with ⟨t, ht, ha⟩ | ⟨rfl, form, at', hop, hi⟩
  · exact ha.2 (hd t ht)
  · exact absurd (by simp [Act.generates, hop, hi.token_eq.2]) hnew

/-- An answer that reached its caller is that of the effect, and nothing was lost behind it. -/
theorem step_answered (hr : r ≠ .crashed) (hr' : ∀ e, r ≠ .raised e) :
    Effect cfg a.env sys a.op sys'.svc r := by
  obtain ⟨svc, resp, heff, hcase⟩ := step_effect h
  rcases hcase with ⟨-, rfl, rfl⟩ | ⟨-, hlost⟩
  · exact heff
  · rcases hlost with ⟨-, rfl⟩ | ⟨calls, e, -, rfl⟩
    · exact absurd rfl hr
    · exact absurd rfl (hr' e)

end Dead

/-! ### What a save that returns leaves in the state file -/

section Saved
variable {cfg : Config} {env : Env} {s : OAuthService} {now : Time} {k : String}

/-- A save that returns has written what the memory holds, unless there is no state file. -/
theorem persist_ok (hok : (s.persist cfg env now).2 = .ok ()) : cfg.store = none ∨
    ∃ n, (s.persist cfg env now).1.file = some ((Json.dumps (payload
      (s.persist cfg env now).1.clients (s.persist cfg env now).1.refreshTokens)).take n) := by
  unfold OAuthService.persist at hok ⊢
  split
  · rename_i hstore
    exact Or.inl hstore
  · rename_i store hstore
    right
    rw [hstore] at hok
    have hacc := accepted_payload (s.dropExpired now).clients (s.dropExpired now).refreshTokens
    have hsaved : (store.save env.save (payload (s.dropExpired now).clients
        (s.dropExpired now).refreshTokens) ⟨s.file, none⟩).result = .ok () := by
      dsimp only at hok
      split at hok
      · cases hok
      · exact hok
    obtain ⟨n, hn⟩ := DurableOAuthStore.renames_of_ok store env.save _ ⟨s.file, none⟩ rfl hsaved
    refine ⟨n, ?_⟩
    dsimp only
    rw [DurableOAuthStore.save_of_renames store env.save _ _ hacc hn]
    rfl

/-- Behind a save that returns, every refresh token of the state file is in memory. -/
theorem persist_synced (hok : (s.persist cfg env now).2 = .ok ())
    (hv : (s.persist cfg env now).1.Valid)
    (hfile : cfg.store = none → (s.persist cfg env now).1.file = none) {t : RefreshToken}
    (ht : (s.persist cfg env now).1.HoldsRefresh k t) :
    (s.persist cfg env now).1.refreshTokens.get? k = some t := by
  rcases ht with ht | ⟨read, hread, ht⟩
  · exact ht
  rcases persist_ok hok with hstore | ⟨n, hn⟩
  · rw [hfile hstore] at hread
    cases hread; cases ht
  · rw [hn] at hread
    have hre := readFile_take (fun k c hk => (hv.clients k c (Or.inl hk)).1)
      (fun k t hk => (hv.refresh k t (Or.inl hk)).1) hread
    rw [hre.2] at ht
    obtain ⟨t0, h0, rfl⟩ := Option.map_eq_some_iff.mp ht
    rw [(hv.refresh k t0 (Or.inl h0)).reload]
    exact h0

end Saved

/-! ### What establishes it -/

section Establish
variable {cfg : Config} {tr : Trace} {sys sys' : System} {a : Act} {k : String}

theorem revokeAccess_dead (s : OAuthService) : (s.revokeAccess k).AccessDead k := by
  intro t h
  rw [OAuthService.revokeAccess, Dict.get?_modify, if_pos rfl] at h
  obtain ⟨t', -, rfl⟩ := Option.map_eq_some_iff.mp h
  rfl

/-- A stored token is of one kind only, and the mark reaches it whatever the hint says. -/
theorem markRevoked_dead {s : OAuthService} (hv : s.Valid) (hint : String) :
    (s.markRevoked k hint).AccessDead k ∧
      ∀ t, (s.markRevoked k hint).refreshTokens.get? k = some t → t.revoked = true := by
  have hone : ∀ {a t}, s.accessTokens.get? k = some a → s.refreshTokens.get? k = some t → False := by
    intro a t ha ht
    obtain ⟨-, x, hx⟩ := hv.access k a ha
    obtain ⟨-, -, y, hy⟩ := hv.refresh k t (Or.inl ht)
    exact absurd (newToken_kind (by decide) (by decide) (hx.symm.trans hy)) (by decide)
  unfold OAuthService.markRevoked
  split
  · rename_i h
    obtain ⟨a, ha⟩ := (Dict.contains_iff _ _).mp h.2
    exact ⟨revokeAccess_dead s, fun t ht => (hone ha ht).elim⟩
  split
  · rename_i h
    obtain ⟨t, ht⟩ := (Dict.contains_iff _ _).mp h.2
    exact ⟨fun a ha => (hone ha ht).elim, fun t ht => revokeRefresh_get? s ht⟩
  · exact ⟨revokeAccess_dead s, fun t ht => revokeRefresh_get? _ ht⟩

/-- An answer of `revoke` comes from a `revoke` whose save returned. -/
theorem step_revoked (h : sys.step cfg a = some (sys', .revoked)) : ∃ form, a.op = .revoke form ∧
    sys'.svc = (sys.svc.revoke cfg a.env form).1 ∧ (sys.svc.revoke cfg a.env form).2 = .ok () := by
  have heff := step_answered h (by simp) (by simp)
  obtain ⟨op, env, crash⟩ := a
  generalize hsvc : sys'.svc = svc at heff
  generalize hresp : Resp.revoked = resp at heff
  cases heff with
  | idle _ _ _ hne => exact absurd hresp.symm hne
  | revoke form =>
    refine ⟨form, rfl, rfl, ?_⟩
    cases hb : (sys.svc.revoke cfg env form).2 with
    | ok u => rfl
    | error e => rw [hb] at hresp; cases hresp
  | pop => cases hresp
  | _ => exact absurd hresp.symm (respond_ne (by simp) (by simp))

/-- Behind a `revoke` that returned, the token is dead. -/
theorem revoke_dead {e : Event} (h : (machine cfg).Run (e :: tr) e.post)
    {form : Dict String String} (hop : e.act.op = .revoke form) (hresp : e.resp = .revoked) :
    e.post.svc.AccessDead (getD form "token" "") ∧
      e.post.svc.RefreshDead (getD form "token" "") := by
  obtain ⟨hrun, hstep, -⟩ := h.cons
  obtain ⟨form', hop', hsvc, hok⟩ := step_revoked (hresp ▸ hstep)
  obtain rfl : form = form' := by rw [hop] at hop'; exact Op.revoke.inj hop'
  have hv' := (run_valid h).svc
  have hfile := run_file h
  rw [hsvc] at hv' hfile ⊢
  obtain ⟨ha, hr⟩ := markRevoked_dead (k := getD form "token" "") (run_valid hrun).svc
    (getD form "token_type_hint" "")
  refine ⟨fun t ht => ?_, fun t ht => ?_⟩
  · obtain ⟨t0, h0, hage⟩ :=
      (OAuthService.persist_fades cfg e.act.env _ e.act.env.t0).access _ t ht
    exact hage.2 (ha t0 h0)
  · have hmem := persist_synced hok hv' hfile ht
    exact hr t (OAuthService.persist_refresh cfg e.act.env _ e.act.env.t0 hmem)

end Establish

/-! ### Dead tokens are refused -/

section Refused
variable {cfg : Config} {env : Env} {s : OAuthService} {form : Dict String String} {token : String}

/-- The form presents the string as a code or as a refresh token. -/
def Presents (form : Dict String String) (token : String) : Prop :=
  (getD form "grant_type" "" = "authorization_code" ∧ getD form "code" "" = token) ∨
    (getD form "grant_type" "" = "refresh_token" ∧ getD form "refresh_token" "" = token)

theorem exchange_ok {r : TokenResponse} (h : (s.exchangeToken cfg env form).2 = .ok r) :
    ∃ at' rt, Issues cfg env s form at' rt := by
  have hex := exchange_exchanged cfg env s form
  generalize s.exchangeToken cfg env form = res at h hex
  cases hex with
  | refused => cases h
  | issued hi => exact ⟨_, _, hi⟩

theorem validate_dead (hd : s.AccessDead token) {authorization : Option String}
    (hb : OAuthService.bearerToken authorization = some token) {required : Finset String}
    {t : AccessToken} : s.validateBearer cfg env authorization required ≠ .ok t := by
  intro h
  obtain ⟨token', htoken', hget, hlive⟩ := validate_ok h
  obtain rfl : token = token' := Option.some.inj (hb.symm.trans htoken')
  rw [hd t hget] at hlive
  cases hlive

theorem exchange_dead (hd : s.RefreshDead token) (hcode : s.codes.get? token = none)
    (hp : Presents form token) {r : TokenResponse} :
    (s.exchangeToken cfg env form).2 ≠ .ok r := by
  intro h
  obtain ⟨at', rt, hi⟩ := exchange_ok h
  cases hi with
  | code hg hc =>
    rcases hp with ⟨-, rfl⟩ | ⟨hg', -⟩
    · rw [hcode] at hc; cases hc
    · exact absurd (hg.symm.trans hg') (by decide)
  | refresh hg hr hok =>
    rcases hp with ⟨hg', -⟩ | ⟨-, rfl⟩
    · exact absurd (hg.symm.trans hg') (by decide)
    · have hlive := (OAuthService.checkRefresh_ok _ _ hok).1
      rw [hd _ (Or.inl hr)] at hlive
      cases hlive

end Refused

section Final
variable {cfg : Config}

/-- The stretch is a `validate_bearer` that accepts the token or an `exchange_token` that redeems
    it, whether or not the answer reaches the caller. -/
def Accepts (cfg : Config) (token : String) (e : Event) : Prop :=
  (∃ authorization required t, e.act.op = .validate authorization required ∧
    OAuthService.bearerToken authorization = some token ∧
    e.pre.svc.validateBearer cfg e.act.env authorization required = .ok t) ∨
  ∃ form r, e.act.op = .exchange form ∧ Presents form token ∧
    (e.pre.svc.exchangeToken cfg e.act.env form).2 = .ok r

/-- The identifier of an access or refresh token. -/
def IsToken (token : String) : Prop :=
  ∃ random, token = newToken "atk" random ∨ token = newToken "rtk" random

/-- A token is not the identifier of a code. -/
theorem Provenance.not_code {tr : Trace} {sys : System} (hp : Provenance cfg tr sys)
    (hv : sys.svc.Valid) {token : String} (ht : IsToken token) :
    sys.svc.codes.get? token = none := by
  rw [Option.eq_none_iff_forall_ne_some]
  intro c hc
  obtain ⟨p, t, hg⟩ := hp.codes token c hc
  obtain ⟨-, x, hx⟩ := hg.generated
  rw [hv.codes token c hc] at hx
  obtain ⟨y, hy | hy⟩ := ht
  · exact absurd (newToken_kind (by decide) (by decide) (hx.symm.trans hy)) (by decide)
  · exact absurd (newToken_kind (by decide) (by decide) (hx.symm.trans hy)) (by decide)

/-- A stored token was generated before. -/
theorem stored_generated {tr : Trace} {sys : System} (h : (machine cfg).Run tr sys)
    {token : String} (hs : sys.svc.accessTokens.contains token = true ∨
      sys.svc.refreshTokens.contains token = true) : IsToken token ∧ token ∈ generated tr := by
  have hv := (run_valid h).svc
  have hp := run_provenance h
  rcases hs with hs | hs
  · obtain ⟨t, ht⟩ := (Dict.contains_iff _ _).mp hs
    obtain ⟨htok, x, hx⟩ := hv.access token t ht
    obtain ⟨p, hd, -⟩ := hp.access token t ht
    exact ⟨⟨x, Or.inl hx⟩, htok ▸ hd.generated⟩
  · obtain ⟨t, ht⟩ := (Dict.contains_iff _ _).mp hs
    obtain ⟨htok, -, x, hx⟩ := hv.refresh token t (Or.inl ht)
    obtain ⟨p, hd, -⟩ := hp.refresh token t (Or.inl ht)
    exact ⟨⟨x, Or.inr hx⟩, htok ▸ hd.generated⟩

/-- A stored token that is dead is never accepted again. -/
theorem dead_never {newer older : Trace} {e : Event} {sys : System} {token : String}
    (h : (machine cfg).Run (newer ++ e :: older) sys) (hfresh : Fresh (newer ++ e :: older))
    (ht : IsToken token) (hg : token ∈ generated (e :: older))
    (hd : e.post.svc.AccessDead token ∧ e.post.svc.RefreshDead token) :
    ∀ e' ∈ newer, ¬ Accepts cfg token e' := by
  refine (h.never (A := Fresh) (J := fun tr sys => token ∈ generated tr ∧
    sys.svc.AccessDead token ∧ sys.svc.RefreshDead token) (fun _ _ => Fresh.tail) ?_ hfresh
    ⟨hg, hd⟩).1
  rintro e' tr hrun' hfresh' ⟨hg, ha, hr⟩
  obtain ⟨hrun, hstep, -⟩ := hrun'.cons
  have hnew := hfresh'.not_generates hg
  refine ⟨?_, generated_tail e' hg, step_accessDead hstep ha hnew,
    step_refreshDead hstep (run_valid hrun) hr hnew⟩
  rintro (⟨authorization, required, t, -, hb, hok⟩ | ⟨form, r, -, hpres, hok⟩)
  · exact validate_dead ha hb hok
  · exact exchange_dead hr ((run_provenance hrun).not_code (run_valid hrun).svc ht) hpres hok

/-- Revocation is final: once `revoke` has returned, whatever its hint, no later stretch of any run
    accepts the token it was given, if that was a stored access or refresh token. -/
theorem revoke_final {newer older : Trace} {e : Event} {sys : System}
    (h : (machine cfg).Run (newer ++ e :: older) sys) (hfresh : Fresh (newer ++ e :: older))
    {form : Dict String String} (hop : e.act.op = .revoke form) (hresp : e.resp = .revoked)
    (hstored : e.pre.svc.accessTokens.contains (getD form "token" "") = true ∨
      e.pre.svc.refreshTokens.contains (getD form "token" "") = true) :
    ∀ e' ∈ newer, ¬ Accepts cfg (getD form "token" "") e' := by
  obtain ⟨hpost, hpre, -⟩ := h.split
  obtain ⟨ht, hg⟩ := stored_generated hpre hstored
  -- dead where the call ends, and no later step brings an identifier back
  exact dead_never h hfresh ht (generated_tail e hg) (revoke_dead hpost hop hresp)

end Final

/-- The stored access token that a `revoke` which returned was given. -/
def revokedAccess (e : Event) : Option String :=
  match e.act.op, e.resp with
  | .revoke form, .revoked =>
    if e.pre.svc.accessTokens.contains (getD form "token" "") then some (getD form "token" "")
    else none
  | _, _ => none

theorem revokedAccess_eq {e : Event} {token : String} (h : revokedAccess e = some token) :
    ∃ form, e.act.op = .revoke form ∧ e.resp = .revoked ∧
      e.pre.svc.accessTokens.contains (getD form "token" "") = true ∧
      token = getD form "token" "" := by
  unfold revokedAccess at h
  split at h
  · rename_i form hop hresp
    split at h
    · rename_i hs
      exact ⟨form, hop, hresp, hs, (Option.some.inj h).symm⟩
    · cases h
  · cases h

/-- The sample run, then a `revoke` of its access token with the wrong hint and one more use. -/
def revokedRun : List Act :=
  sampleRun ++
    [(Op.revoke (.ofList [("token", "atk_x"), ("token_type_hint", "refresh_token")])).run 6 "" "",
      (Op.validate (some "Bearer atk_x") ∅).run 7 "" ""]

theorem revoke_final_sample : ∃ newer e older sys,
    (machine sampleConfig).Run (newer ++ e :: older) sys ∧ newer.length = 1 ∧ e.resp = .revoked ∧
      ∀ e' ∈ newer, ¬ Accepts sampleConfig "atk_x" e' := by
  have he : (after sampleConfig revokedRun).1[1]?.bind revokedAccess = some "atk_x" := by
    decide +kernel
  have hfresh : Fresh (after sampleConfig revokedRun).1 := by
    unfold Fresh
    decide +kernel
  have hrun := after_run sampleConfig revokedRun
  obtain ⟨newer, e, older, htr, hlen, he⟩ := entry_eq he
  obtain ⟨form, hop, hresp, hs, htoken⟩ := revokedAccess_eq he
  rw [htr] at hrun hfresh
  exact ⟨newer, e, older, _, hrun, hlen, hresp,
    htoken ▸ revoke_final hrun hfresh hop hresp (Or.inl hs)⟩

end DataRelay.OAuth
