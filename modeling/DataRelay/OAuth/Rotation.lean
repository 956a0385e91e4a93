import DataRelay.OAuth.Registration
import DataRelay.OAuth.SingleUse

/-! What a refused refresh changes.

    `_exchange_refresh_token` marks the old token as revoked before it looks at the scopes asked for.
    A refusal before the mark leaves the service as it was; a refusal of the scopes leaves the token
    revoked in memory, and usable in the state file. -/

namespace DataRelay.OAuth
open Lib

namespace OAuthService
variable (cfg : Config) (env : Env) (s : OAuthService)

/-- Nothing of what a later exchange or a restart looks at has changed. -/
structure Spared (s s' : OAuthService) : Prop where
  clients : s'.clients = s.clients
  accessTokens : s'.accessTokens = s.accessTokens
  refreshTokens : s'.refreshTokens = s.refreshTokens
  file : s'.file = s.file
  again : ∀ env form, (s'.exchangeToken cfg env form).2 = (s.exchangeToken cfg env form).2

/-- The token is found and passes its checks, but the scopes asked for are refused. -/
def Burns (form : Dict String String) : Prop :=
  ∃ record e, s.refreshTokens.get? (getD form "refresh_token" "") = some record ∧
    checkRefresh cfg env form record = .ok () ∧ refreshScopes form record = .error e

variable {cfg env s}

/-- A failed exchange that is no client error has issued tokens and failed to save them. -/
theorem issueTokens_error {clientId resource : String} {scopes : Finset String} {e : PyError}
    (h : (s.issueTokens cfg env clientId resource scopes).2 = .error e) :
    (∃ message, e = .oauth "server_error" message 500) ∨ e = .osError := by
  unfold issueTokens at h
  dsimp only at h
  split at h
  · next hp =>
    cases h
    exact persist_error (congrArg Prod.snd hp)
  · cases h

variable {form : Dict String String} {error description : String} {status : ℕ}

/-- A refresh refused with a client error leaves the service alone, or with the token revoked. -/
theorem refresh_refused (hg : getD form "grant_type" "" = "refresh_token")
    (hr : (s.exchangeToken cfg env form).2 = .error (.oauth error description status))
    (hst : status < 500) :
    (s.Burns cfg env form ∧
      (s.exchangeToken cfg env form).1 = s.revokeRefresh (getD form "refresh_token" "")) ∨
    (¬ s.Burns cfg env form ∧ (s.exchangeToken cfg env form).1 = s) := by
  have hne : getD form "grant_type" "" ≠ "authorization_code" := by rw [hg]; decide
  have hex : s.exchangeToken cfg env form = s.exchangeRefreshToken cfg env form := by
    rw [exchangeToken, if_neg hne, if_pos hg]
  rw [hex] at hr ⊢
  unfold exchangeRefreshToken at hr ⊢
  split
  · next hnone =>
    refine .inr ⟨?_, rfl⟩
    rintro ⟨record, e, hsome, -⟩
    rw [hnone] at hsome
    cases hsome
  next record hsome =>
  rw [hsome] at hr
  dsimp only at hr
  split
  · next e hcheck =>
    refine .inr ⟨?_, rfl⟩
    rintro ⟨record', e', hsome', hok, -⟩
    obtain rfl : record = record' := Option.some.inj (hsome.symm.trans hsome')
    rw [hcheck] at hok
    cases hok
  next hcheck =>
  rw [hcheck] at hr
  dsimp only at hr ⊢
  split
  · -- the record is revoked already when the scopes are looked at
    next e hscopes => exact .inl ⟨⟨record, e, hsome, hcheck, hscopes⟩, rfl⟩
  · next scopes hscopes =>
    rw [hscopes] at hr
    dsimp only at hr
    -- once scopes are found, only the save is left to fail, and that is no refusal
    rcases issueTokens_error hr with ⟨message, he⟩ | he <;> simp at he
    omega

/-- A refused refresh changes nothing exactly when it is not the scopes that are refused. -/
theorem refused_refresh_iff (hg : getD form "grant_type" "" = "refresh_token")
    (hr : (s.exchangeToken cfg env form).2 = .error (.oauth error description status))
    (hst : status < 500) :
    Spared cfg s (s.exchangeToken cfg env form).1 ↔ ¬ s.Burns cfg env form := by
  rcases refresh_refused hg hr hst with ⟨hb, hs⟩ | ⟨hb, hs⟩
  · refine iff_of_false (fun hspared => ?_) (not_not.mpr hb)
    obtain ⟨record, e, hsome, hcheck, -⟩ := hb
    have hlive := (checkRefresh_ok cfg env hcheck).1
    have hdead : (s.revokeRefresh (getD form "refresh_token" "")).refreshTokens.get?
        (getD form "refresh_token" "") = some record → record.revoked = true :=
      revokeRefresh_get? s
    rw [← hs, hspared.refreshTokens, hlive] at hdead
    cases hdead hsome
  · rw [hs]
    exact iff_of_true ⟨rfl, rfl, rfl, rfl, fun _ _ => rfl⟩ hb

end OAuthService

/-! ### A typo in the scope -/

def storeConfig : Config := { sampleConfig with oauthStatePath := some "/state/oauth.json" }

def refreshForm (scope : String) : Dict String String :=
  .ofList [("grant_type", "refresh_token"), ("refresh_token", "rtk_y"), ("client_id", "client_c"),
    ("scope", scope)]

/-- The sample run with a state file, up to the moment where its client holds `rtk_y`. -/
def grantedRun : List Act :=
  (Op.register sampleBody "a").run 1 "c" "" :: beginOps 0 "client_c" "p" 2 ++
    approveOps 1 "authreq_p" "k" 3 ++ [(Op.exchange (sampleForm "client_c" "code_k")).run 4 "x" "y"]

/-- A refusal of the grant itself leaves everything as it was. -/
theorem refused_refresh_sample : OAuthService.Spared storeConfig (after storeConfig grantedRun).2.svc
    ((after storeConfig grantedRun).2.svc.exchangeToken storeConfig (later 5)
      ((refreshForm "").set "client_id" "client_d")).1 := by
  have hr : ((after storeConfig grantedRun).2.svc.exchangeToken storeConfig (later 5)
      ((refreshForm "").set "client_id" "client_d")).2 =
        .error (.oauth "invalid_grant" "client_id mismatch" 400) := by decide +kernel
  refine (OAuthService.refused_refresh_iff (by decide +kernel) hr (by decide)).mpr ?_
  rintro ⟨record, e, hsome, hcheck, -⟩
  have hid := (OAuthService.checkRefresh_ok storeConfig (later 5) hcheck).2.2
  have hclient : ((after storeConfig grantedRun).2.svc.refreshTokens.get? "rtk_y").map
      RefreshToken.clientId = some "client_c" := by decide +kernel
  have hsome' : (after storeConfig grantedRun).2.svc.refreshTokens.get? "rtk_y" = some record :=
    hsome
  rw [hsome', Option.map_some, hid] at hclient
  revert hclient
  decide +kernel

/-- The client asks for a scope that does not exist. -/
def typo : Act := (Op.exchange (refreshForm "mcp:proxi")).run 5 "x2" "y2"

/-- It is refused, and the token is gone: the same token without the typo is refused as well, while
    a service restarted from the state file redeems it. -/
theorem refused_refresh_burns :
    (∃ tr sys form, (machine storeConfig).Run tr sys ∧
      getD form "grant_type" "" = "refresh_token" ∧
      (sys.svc.exchangeToken storeConfig typo.env form).2 =
        .error (.oauth "invalid_scope" "unsupported scope requested" 400) ∧
      ¬ OAuthService.Spared storeConfig sys.svc
        (sys.svc.exchangeToken storeConfig typo.env form).1) ∧
    ((after storeConfig (grantedRun ++ [typo, (Op.exchange (refreshForm "")).run 6 "x3" "y3"])).1.map
      fun e => isIssued e.resp).head? = some false ∧
    ((after storeConfig (grantedRun ++ [typo, (Op.restart ⟨⟨false, .safe⟩, ⟨.safe, true⟩⟩).run 6 "" "",
      (Op.exchange (refreshForm "")).run 6 "x3" "y3"])).1.map
      fun e => isIssued e.resp).head? = some true := by
  refine ⟨⟨_, _, refreshForm "mcp:proxi", after_run storeConfig grantedRun, by decide +kernel,
    by decide +kernel, fun hs => ?_⟩, by decide +kernel, by decide +kernel⟩
  have hlive : ((after storeConfig grantedRun).2.svc.refreshTokens.get? "rtk_y").any
      RefreshToken.revoked = false := by decide +kernel
  have hdead : (((after storeConfig grantedRun).2.svc.exchangeToken storeConfig typo.env
      (refreshForm "mcp:proxi")).1.refreshTokens.get? "rtk_y").any RefreshToken.revoked = true := by
    decide +kernel
  rw [hs.refreshTokens, hlive] at hdead
  cases hdead

end DataRelay.OAuth
