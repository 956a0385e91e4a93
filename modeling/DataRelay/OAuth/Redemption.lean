import DataRelay.OAuth.BruteForce
import DataRelay.OAuth.Durability

/-! What an approved code is worth.

    A stored code stays where it is until an exchange presents it, so as long as the process lives
    the one thing that can take its worth is the eviction of its client. An exchange that presents it
    in time, with what the request was made with, succeeds exactly while the client is registered,
    if its own save succeeds, and the client is registered exactly as long as no cleanup evicts
    it. -/

namespace DataRelay.OAuth
open Lib

variable {cfg : Config} {env : Env}

/-! ### Saves -/

/-- Every call of a save succeeds, or there is no state file. -/
def SavesOk (cfg : Config) (env : Env) : Prop :=
  cfg.store = none ∨ ((∃ n, env.save.Renames n) ∧ env.save.Syncs)

/-- Whether a save returns depends on its calls only. -/
theorem persist_ok_iff (s : OAuthService) (now : Time) :
    (s.persist cfg env now).2 = .ok () ↔ SavesOk cfg env := by
  unfold OAuthService.persist SavesOk
  split
  · next hnone => simp [hnone]
  next store hstore =>
  have hacc := accepted_payload (s.dropExpired now).clients (s.dropExpired now).refreshTokens
  have hfinish := DurableOAuthStore.finish_ok_iff store env.save
  simp only [hstore, reduceCtorEq, false_or]
  constructor
  · intro h
    have hsaved : (store.save env.save (payload (s.dropExpired now).clients
        (s.dropExpired now).refreshTokens) ⟨s.file, none⟩).result = .ok () := by
      split at h
      · cases h
      · exact h
    -- a save that returns has got as far as the rename
    obtain ⟨n, hn⟩ := DurableOAuthStore.renames_of_ok store env.save _ ⟨s.file, none⟩ rfl hsaved
    rw [DurableOAuthStore.save_of_renames store env.save _ _ hacc hn] at hsaved
    exact ⟨⟨n, hn⟩, hfinish.mp hsaved⟩
  · rintro ⟨⟨n, hn⟩, hsyncs⟩
    simp only [DurableOAuthStore.save_of_renames store env.save _ _ hacc hn, hfinish.mpr hsyncs]

theorem issueTokens_ok_iff (s : OAuthService) (clientId resource : String)
    (scopes : Finset String) :
    (∃ r, (s.issueTokens cfg env clientId resource scopes).2 = .ok r) ↔ SavesOk cfg env := by
  rw [← persist_ok_iff (s.tokened env clientId resource scopes) env.t3,
    OAuthService.issueTokens_eq]
  cases ((s.tokened env clientId resource scopes).persist cfg env env.t3).2 <;> simp [Except.map]

/-! ### The exchange of a code -/

/-- The form presents the code with the parameters of the request it was made for. -/
structure Offers (cfg : Config) (c : AuthCode) (form : Dict String String) : Prop where
  grant : getD form "grant_type" "" = "authorization_code"
  code : getD form "code" "" = c.code
  client : getD form "client_id" "" = c.clientId
  uri : getD form "redirect_uri" "" = c.redirectUri
  resource : getD form "resource" "" = cfg.resourceUrl
  verifier : getD form "code_verifier" "" ≠ ""
  challenge : pkceS256 (getD form "code_verifier" "") = .ok c.codeChallenge

/-- What every stored code has in common. -/
structure AuthCode.Standard (cfg : Config) (c : AuthCode) : Prop where
  used : c.used = false
  method : c.codeChallengeMethod = "S256"
  resource : c.resource = cfg.resourceUrl

theorem checkCode_offered {s : OAuthService} {c : AuthCode} {form : Dict String String}
    (hc : c.Standard cfg) (hf : Offers cfg c form) (hlive : env.t0 ≤ c.expiresAt) :
    s.checkCode cfg env form c = .ok () ↔ s.clients.contains c.clientId = true := by
  constructor
  · exact fun h => (OAuthService.checkCode_ok cfg env s h).2.2.2.1
  · intro hreg
    have hpkce : OAuthService.pkceOk (getD form "code_verifier" "") c.codeChallenge = .ok true := by
      simp [OAuthService.pkceOk, hf.verifier, hf.challenge, Except.map]
    simp [OAuthService.checkCode, bind, Except.bind, pure, Except.pure, hc.used, not_lt.mpr hlive,
      hf.client, hreg, hf.uri, hf.resource, hc.resource, hc.method, hpkce]

/-- The code is found: the exchange succeeds exactly when its client is registered and its save
    succeeds. -/
theorem exchange_offered {s : OAuthService} {c : AuthCode} {form : Dict String String}
    (hget : s.codes.get? c.code = some c) (hc : c.Standard cfg) (hf : Offers cfg c form)
    (hlive : env.t0 ≤ c.expiresAt) : (∃ r, (s.exchangeToken cfg env form).2 = .ok r) ↔
      s.clients.contains c.clientId = true ∧ SavesOk cfg env := by
  have hcheck := checkCode_offered (s := { s with codes := s.codes.erase c.code }) hc hf hlive
  unfold OAuthService.exchangeToken
  rw [if_pos hf.grant]
  unfold OAuthService.exchangeAuthorizationCode
  rw [hf.code, hget]
  dsimp only
  split
  · next e he =>
    rw [he] at hcheck
    constructor
    · rintro ⟨r, hr⟩
      cases hr
    · rintro ⟨hreg, -⟩
      cases hcheck.mpr hreg
  · next he => rw [issueTokens_ok_iff, and_iff_right (hcheck.mp he)]

/-! ### The code -/

section Run
variable {tr : Trace} {sys : System} {e : Event} {tid : ℕ} {c : AuthCode} {k : String}

theorem Requested.standard {p : PendingAuthorization} (h : Requested cfg tid p tr) :
    p.codeChallengeMethod = "S256" ∧ p.resource = cfg.resourceUrl := by
  obtain ⟨newer, e, older, rfl, ⟨req, scopes, -, rfl, hchecked⟩, -⟩ := since_iff.mp h
  obtain ⟨newer', e', older', rfl, ⟨params, source, -, -, hreq, -⟩, -⟩ := since_iff.mp hchecked
  unfold checkRequest at hreq
  split at hreq
  · cases hreq
  split at hreq
  · cases hreq
  next hmethod =>
  split at hreq
  · cases hreq
  split at hreq
  · cases hreq
  next hresource => exact ⟨not_not.mp hmethod, not_not.mp hresource⟩

theorem Minted.standard {p : PendingAuthorization} {t : Time} (h : Minted cfg tid p c t tr) :
    c.Standard cfg := by
  have hadmitted : Admitted cfg p tr := h.admitted
  obtain ⟨_, _, _, rfl, tid', -, -, hreq⟩ := once_iff.mp hadmitted
  obtain ⟨hmethod, hresource⟩ := hreq.standard
  obtain ⟨_, e, _, heq, ⟨req, -, -, -, rfl, -⟩, -⟩ := since_iff.mp h
  exact ⟨rfl, hmethod, hresource⟩

/-- The client of a request was registered when the request was checked. -/
theorem client_of_requested {p : PendingAuthorization} (hrun : (machine cfg).Run tr sys)
    (h : Requested cfg tid p tr) : p.clientId ∈ generated tr := by
  obtain ⟨newer, e, older, rfl, ⟨req, scopes, -, rfl, hchecked⟩, -⟩ := since_iff.mp h
  obtain ⟨newer', e', older', rfl, ⟨params, source, -, -, -, hallows⟩, -⟩ := since_iff.mp hchecked
  obtain ⟨c, hc, -⟩ := clientAllows_iff.mp hallows
  have hpre := hrun.split.1.cons.1.split.1.cons.1
  have hgen := client_generated hpre (Or.inl hc)
  exact generated_later newer (generated_tail e (generated_later newer' (generated_tail e' hgen)))

/-- So was the client of a code. -/
theorem client_of_minted {p : PendingAuthorization} {t : Time} (hrun : (machine cfg).Run tr sys)
    (h : Minted cfg tid p c t tr) : c.clientId ∈ generated tr := by
  have hadmitted : Admitted cfg p tr := h.admitted
  obtain ⟨newer, e, older, rfl, tid', -, -, hreq⟩ := once_iff.mp hadmitted
  rw [h.code_eq.1]
  exact generated_later newer (generated_tail e (client_of_requested hrun.split.1.cons.1 hreq))

/-- The stretch is not an exchange that presents the code, and the process lives on. -/
def SparesCode (code : String) (x : Event) : Prop :=
  Lives x ∧ ∀ form, x.act.op = .exchange form → getD form "grant_type" "" = "authorization_code" →
    getD form "code" "" ≠ code

/-- A step behind which the process lives is its effect. -/
theorem lives_effect (hstep : e.pre.step cfg e.act = some (e.post, e.resp)) (hl : Lives e) :
    ∃ resp, Effect cfg e.act.env e.pre e.act.op e.post.svc resp := by
  obtain ⟨svc, resp, heff, hcase⟩ := step_effect hstep
  rcases hcase with ⟨-, hsvc, -⟩ | ⟨-, ⟨hcrash, -⟩ | ⟨calls, err, hop, -⟩⟩
  · exact ⟨resp, hsvc ▸ heff⟩
  · rw [hl.1] at hcrash
    cases hcrash
  · exact absurd hop (hl.not_restart calls)

/-- A stored code stays as long as no exchange presents it. -/
theorem code_step (h : (machine cfg).Run (e :: tr) e.post) (hfresh : Fresh (e :: tr))
    (hs : SparesCode k e) (hc : e.pre.svc.codes.get? k = some c) :
    e.post.svc.codes.get? k = some c := by
  obtain ⟨hrun, hstep, -⟩ := h.cons
  have hv := run_valid hrun
  obtain ⟨resp, heff⟩ := lives_effect hstep hs.1
  refine (effect_keeps hv.svc heff).codes k c hc fun hl => ?_
  cases hop : e.act.op with
  | completeStore tid =>
    -- The code would be in the map and with the call that is about to store it.
    rw [hop] at hl
    obtain ⟨req, p, c', ht, rfl⟩ := hl
    have hcode : c.code = c'.code := hv.svc.codes _ c hc
    have hthread : e.pre.Holds (.code c'.code) (.thread tid) := ⟨_, ht, .inr rfl⟩
    have hmap : e.pre.Holds (.code c'.code) .codes := ⟨c, by rw [hcode], by rw [hcode]; exact hc⟩
    exact absurd (run_unique hrun hfresh.tail _ _ _ hthread hmap) (by simp)
  | exchange form =>
    rw [hop] at hl
    exact hs.2 form hop hl.1 hl.2
  | restart calls => exact absurd hop (hs.1.not_restart calls)
  | _ => rw [hop] at hl; exact hl

/-- A code that was stored is found, as it was stored, until an exchange presents it. -/
theorem code_kept {newer : Trace} (h : (machine cfg).Run (newer ++ e :: tr) sys)
    (hfresh : Fresh (newer ++ e :: tr)) (hc : e.post.svc.codes.get? k = some c)
    (hall : ∀ x ∈ newer, SparesCode k x) : sys.svc.codes.get? k = some c :=
  h.since (A := Fresh) (Q := SparesCode k) (J := fun _ s => s.svc.codes.get? k = some c)
    (fun _ _ => Fresh.tail) (fun _ _ hx hf hs hj => code_step hx hf hs hj) hfresh hc hall

/-- The stretch that stores a code leaves it in the map. -/
theorem code_stored (h : (machine cfg).Run (e :: tr) e.post) (hop : e.act.op = .completeStore tid)
    {req : CompleteRequest} {p : PendingAuthorization}
    (ht : e.pre.threads.get? tid = some (.completeReady req p c)) (hl : Lives e) :
    e.post.svc.codes.get? c.code = some c ∧ c.Standard cfg := by
  obtain ⟨hrun, hstep, -⟩ := h.cons
  obtain ⟨resp, heff⟩ := lives_effect hstep hl
  have hground := (run_provenance hrun).threads tid _ ht
  obtain ⟨t, hminted⟩ : ∃ t, Minted cfg tid p c t tr := hground
  refine ⟨?_, hminted.standard⟩
  rw [hop] at heff
  generalize hsvc : e.post.svc = svc at heff
  cases heff with
  | idle hidle => cases hidle
  | store ht' =>
    rw [ht] at ht'
    cases ht'
    unfold OAuthService.completeStore
    dsimp only
    -- the code is in memory before the save, whose failure does not take it back
    have hkeep : Keeps {} _ _ := OAuthService.persist_keeps cfg e.act.env
      { e.pre.svc with codes := e.pre.svc.codes.set c.code c } e.act.env.t0
    split <;> rename_i hp <;> rw [hp] at hkeep <;>
      exact hkeep.codes c.code c (Dict.get?_set_self ..) id

/-! ### The client -/

/-- A registration leaves no client that its cleanup evicts, and adds none but its own. -/
theorem register_clients {s : OAuthService} (hk : Keyed RegisteredClient.clientId s.clients)
    (body : Json) (source : String) (hne : k ≠ newToken "client" env.random0)
    (h : (s.registerClient cfg env body source).1.clients.contains k = true) :
    s.clients.contains k = true ∧ ¬ Evicts env s source k := by
  have hroom : (s.roomMade env source).clients.contains k = true →
      s.clients.contains k = true ∧ k ∉ s.evicted env.t1 1 := by
    rw [Dict.contains_iff, Dict.contains_iff]
    rintro ⟨c, hc⟩
    rw [OAuthService.roomMade, OAuthService.clients_removeClients] at hc
    split at hc
    · cases hc
    · next hnot => exact ⟨⟨c, hc⟩, hnot⟩
  have hreg := OAuthService.register_registers cfg env s hk body source
  generalize s.registerClient cfg env body source = r at h hreg
  cases hreg with
  | limited hlimit =>
    refine ⟨h, fun hev => ?_⟩
    have hpassed : (s.dcrLimiter.allow source env.t0).2 = true := hev.1
    rw [hlimit] at hpassed
    cases hpassed
  | full => exact ⟨(hroom h).1, fun hev => (hroom h).2 hev.2⟩
  | refused => exact ⟨(hroom h).1, fun hev => (hroom h).2 hev.2⟩
  | @saved uris grants name registration =>
    obtain ⟨c, hc⟩ := (Dict.contains_iff _ _).mp h
    rw [OAuthService.clients_saved, Dict.get?_set_ne _ (show k ≠
      (OAuthService.newClient env uris grants name).clientId from hne)] at hc
    have hold := hroom ((Dict.contains_iff _ _).mpr ⟨c, hc⟩)
    exact ⟨hold.1, fun hev => hold.2 hev.2⟩

theorem Fades.contains {s s' : OAuthService} (h : Fades s s')
    (hk : s'.clients.contains k = true) : s.clients.contains k = true := by
  obtain ⟨c', hc'⟩ := (Dict.contains_iff _ _).mp hk
  obtain ⟨c, hc, -⟩ := h.clients k c' hc'
  exact (Dict.contains_iff _ _).mpr ⟨c, hc⟩

theorem persist_contains (s : OAuthService) (now : Time) :
    (s.persist cfg env now).1.clients.contains k = s.clients.contains k := by
  obtain ⟨ts, file, hrest⟩ := s.persist_rest cfg env now
  rw [hrest]

/-- No stretch but a registration or a start brings a client in. -/
theorem effect_contains {op : Op} {svc : OAuthService} {r : Resp} (h : Effect cfg env sys op svc r)
    (hregister : ∀ body source, op ≠ .register body source) (hrestart : ∀ calls, op ≠ .restart calls)
    (hk : svc.clients.contains k = true) : sys.svc.clients.contains k = true := by
  cases h with
  | idle => exact hk
  | validate => exact hk
  | register body source => exact absurd rfl (hregister body source)
  | admission =>
    unfold OAuthService.beginAdmit at hk
    dsimp only at hk
    split at hk
    · exact hk
    split at hk
    · exact hk
    split at hk <;> exact hk
  | pop => exact hk
  | decide =>
    unfold OAuthService.completeDecide at hk
    dsimp only at hk
    split at hk
    · exact hk
    split at hk
    · exact hk
    split at hk
    · exact hk
    · exact hk
    · exact (OAuthService.touch_fades _ _ _).contains hk
  | store =>
    unfold OAuthService.completeStore at hk
    dsimp only at hk
    split at hk <;> rename_i hp <;> rw [← congrArg Prod.fst hp, persist_contains] at hk <;> exact hk
  | exchange form =>
    have hex := exchange_exchanged cfg env sys.svc form
    generalize sys.svc.exchangeToken cfg env form = res at hk hex
    cases hex with
    | refused e hf => exact hf.contains hk
    | issued hi hf =>
      refine hf.contains ?_
      unfold OAuthService.issueTokens at hk
      dsimp only at hk
      split at hk <;> rename_i hp <;> rw [← congrArg Prod.fst hp, persist_contains] at hk <;>
        exact hk
  | revoke form =>
    rw [OAuthService.revoke, persist_contains] at hk
    exact (OAuthService.markRevoked_fades _ _ _).contains hk
  | start calls => exact absurd rfl (hrestart calls)

/-- The stretch is a registration whose cleanup evicts the client. -/
def EvictsClient (k : String) (x : Event) : Prop :=
  ∃ body source, x.act.op = .register body source ∧ Evicts x.act.env x.pre.svc source k

/-- Behind a stretch a client that was registered before is registered exactly if it was and is not
    evicted. -/
theorem client_contains (h : (machine cfg).Run (e :: tr) e.post) (hfresh : Fresh (e :: tr))
    (hl : Lives e) (hgen : k ∈ generated tr) :
    e.post.svc.clients.contains k = true ↔
      e.pre.svc.clients.contains k = true ∧ ¬ EvictsClient k e := by
  obtain ⟨hrun, hstep, -⟩ := h.cons
  have hv := run_valid hrun
  obtain ⟨resp, heff⟩ := lives_effect hstep hl
  have hnew := hfresh.not_generates hgen
  constructor
  · intro hk
    by_cases hop : ∃ body source, e.act.op = .register body source
    · obtain ⟨body, source, hop⟩ := hop
      have hne : k ≠ newToken "client" e.act.env.random0 := by
        rintro rfl
        exact hnew (by simp [Act.generates, hop])
      have hsvc : e.post.svc = (e.pre.svc.registerClient cfg e.act.env body source).1 := by
        rw [hop] at heff
        generalize e.post.svc = svc at heff
        cases heff with
        | idle hidle => cases hidle
        | register => rfl
      rw [hsvc] at hk
      obtain ⟨hpre, hnot⟩ := register_clients hv.svc.filed.clients body source hne hk
      refine ⟨hpre, ?_⟩
      rintro ⟨body', source', hop', hev⟩
      rw [hop] at hop'
      cases hop'
      exact hnot hev
    · have hregister := fun body source heq => hop ⟨body, source, heq⟩
      refine ⟨effect_contains heff hregister hl.not_restart hk, ?_⟩
      rintro ⟨body, source, heq, -⟩
      exact hregister body source heq
  · rintro ⟨hpre, hnot⟩
    obtain ⟨c, hc⟩ := (Dict.contains_iff _ _).mp hpre
    have hspared : ¬ (lossOf cfg e.act.env e.pre e.act.op).client k := by
      intro hloss
      -- a lost client was evicted, or overwritten by a registration with its id
      rcases lossOf_client hloss with ⟨body, source, hop, hev | hid⟩ | ⟨calls, hop⟩
      · exact hnot ⟨body, source, hop, hev⟩
      · exact hnew (by simp [Act.generates, hop, hid])
      · exact hl.not_restart calls hop
    obtain ⟨c', hc', -⟩ := (effect_keeps hv.svc heff).clients k c hc hspared
    exact (Dict.contains_iff _ _).mpr ⟨c', hc'⟩

/-- While the process lives, a client stays registered exactly as long as no cleanup evicts it. -/
theorem client_until_evicted {newer : Trace} (h : (machine cfg).Run (newer ++ e :: tr) sys)
    (hfresh : Fresh (newer ++ e :: tr)) (hgen : k ∈ generated (e :: tr))
    (hall : ∀ x ∈ newer, Lives x) : sys.svc.clients.contains k = true ↔
      e.post.svc.clients.contains k = true ∧ ∀ x ∈ newer, ¬ EvictsClient k x := by
  induction newer generalizing sys with
  | nil =>
    obtain ⟨-, -, rfl⟩ := h.cons
    simp
  | cons x newer ih =>
    obtain ⟨hrun, -, rfl⟩ := h.cons
    have hgen' : k ∈ generated (newer ++ e :: tr) := generated_later newer hgen
    rw [client_contains h hfresh (hall x List.mem_cons_self) hgen',
      ih hrun hfresh.tail fun y hy => hall y (List.mem_cons_of_mem x hy), and_assoc]
    simp [and_comm]

/-- A code that an approval stored is worth its tokens exactly as long as its client is not evicted:
    while the process lives and no exchange presents the code, an exchange that presents it in time,
    with the parameters of its request, succeeds exactly if the client was registered when the code
    was stored, no registration since has evicted it, and the save of the exchange succeeds. -/
theorem redeemable_iff {newer : Trace} (h : (machine cfg).Run (newer ++ e :: tr) sys)
    (hfresh : Fresh (newer ++ e :: tr)) (hop : e.act.op = .completeStore tid)
    {req : CompleteRequest} {p : PendingAuthorization}
    (ht : e.pre.threads.get? tid = some (.completeReady req p c)) (hl : Lives e)
    (hall : ∀ x ∈ newer, SparesCode c.code x) {form : Dict String String}
    (hform : Offers cfg c form) (hlive : env.t0 ≤ c.expiresAt) :
    (∃ r, (sys.svc.exchangeToken cfg env form).2 = .ok r) ↔
      e.post.svc.clients.contains c.clientId = true ∧
        (∀ x ∈ newer, ¬ EvictsClient c.clientId x) ∧ SavesOk cfg env := by
  obtain ⟨hstored, hstandard⟩ := code_stored h.split.1 hop ht hl
  have hgen : c.clientId ∈ generated (e :: tr) := by
    obtain ⟨hrun, -, -⟩ := h.split.1.cons
    obtain ⟨t, hminted⟩ : ∃ t, Minted cfg tid p c t tr := (run_provenance hrun).threads tid _ ht
    exact generated_tail e (client_of_minted hrun hminted)
  rw [exchange_offered (code_kept h hfresh hstored hall) hstandard hform hlive,
    client_until_evicted h hfresh hgen fun x hx => (hall x hx).1, and_assoc]

end Run

/-- An approval, and a registration behind it. -/
def approvedRun : List Act :=
  (Op.register sampleBody "a").run 1 "c" "" :: beginOps 0 "client_c" "p" 2 ++
    approveOps 1 "authreq_p" "k" 3 ++ [(Op.register sampleBody "b").run 4 "d" ""]

/-- The code that the stretch is about to store. -/
def readyOf (e : Event) : Option (ℕ × CompleteRequest × PendingAuthorization × AuthCode) :=
  match e.act.op with
  | .completeStore tid =>
    match e.pre.threads.get? tid with
    | some (.completeReady req p c) => some (tid, req, p, c)
    | _ => none
  | _ => none

theorem readyOf_eq {e : Event} {tid : ℕ} {req : CompleteRequest} {p : PendingAuthorization}
    {c : AuthCode} (h : readyOf e = some (tid, req, p, c)) :
    e.act.op = .completeStore tid ∧
      e.pre.threads.get? tid = some (.completeReady req p c) := by
  unfold readyOf at h
  split at h
  · next hop =>
    split at h
    · next ht =>
      cases h
      exact ⟨hop, ht⟩
    · cases h
  · cases h

def sparesSampleCode (x : Event) : Bool :=
  decide (Lives x) && match x.act.op with
    | .register _ _ => !((x.pre.svc.evicted x.act.env.t1 1).contains "client_c")
    | _ => false

/-- What is seen of the run: its identifiers differ, the registration behind the approval evicts
    nobody, and the code that was stored is the one the sample form presents. -/
def approvedSeen (r : Trace × System) : Bool :=
  decide (generated r.1).Nodup && (r.1.take 1).all sparesSampleCode &&
    (r.1[1]?.bind readyOf).any (fun x => x.2.2.2.code = "code_k" && x.2.2.2.clientId = "client_c" &&
      x.2.2.2.redirectUri = "https://app.example/cb" && 5 ≤ x.2.2.2.expiresAt &&
      x.2.2.2.codeChallenge = "iMnq5o6zALKXGivsnlom_0F5_WYda32GHkxlV7mq7hQ") &&
    r.1[1]?.all fun e => decide (Lives e) && e.post.svc.clients.contains "client_c"

theorem approved_seen : approvedSeen (after sampleConfig approvedRun) = true := by
  decide +kernel

theorem sparesCode_of_sample {x : Event} (h : sparesSampleCode x = true) :
    SparesCode "code_k" x ∧ ¬ EvictsClient "client_c" x := by
  unfold sparesSampleCode at h
  simp only [Bool.and_eq_true, decide_eq_true_eq] at h
  obtain ⟨hl, hop⟩ := h
  refine ⟨⟨hl, fun form heq => ?_⟩, ?_⟩
  · rw [heq] at hop
    cases hop
  · rintro ⟨body, source, heq, -, hev⟩
    rw [heq] at hop
    simp only [Bool.not_eq_true', List.contains_eq_mem, decide_eq_false_iff_not] at hop
    exact hop hev

/-- The code of the sample run is redeemed behind the registration. -/
theorem redeemable_sample : ∃ tr sys, (machine sampleConfig).Run tr sys ∧ 1 < tr.length ∧
    ∃ r, (sys.svc.exchangeToken sampleConfig ⟨5, 5, 5, 5, "x", "y", callsOk 100000⟩
      (sampleForm "client_c" "code_k")).2 = .ok r := by
  have hrun := after_run sampleConfig approvedRun
  have hseen := approved_seen
  generalize after sampleConfig approvedRun = res at hrun hseen
  obtain ⟨tr, sys⟩ := res
  simp only [approvedSeen, Bool.and_eq_true, decide_eq_true_eq] at hseen
  obtain ⟨⟨⟨hnodup, hspares⟩, hready⟩, hlive⟩ := hseen
  obtain ⟨⟨tid, req, p, c⟩, hr, hfields⟩ := (Option.any_eq_true _ _).mp hready
  simp only [Bool.and_eq_true, decide_eq_true_eq] at hfields
  obtain ⟨⟨⟨⟨hcode, hclient⟩, huri⟩, hexpires⟩, hchallenge⟩ := hfields
  obtain ⟨newer, e, older, rfl, hlen, hresp⟩ := entry_eq hr
  have hget : (newer ++ e :: older)[1]? = some e := by
    rw [List.getElem?_append_right hlen.le, hlen]
    rfl
  have htake : (newer ++ e :: older).take 1 = newer := by rw [← hlen, List.take_left]
  rw [hget] at hlive
  rw [htake] at hspares
  simp only [Option.all_some, Bool.and_eq_true, decide_eq_true_eq] at hlive
  obtain ⟨hop, ht⟩ := readyOf_eq hresp
  have hspare := fun x hx => sparesCode_of_sample (List.all_eq_true.mp hspares x hx)
  have hform : Offers sampleConfig c (sampleForm "client_c" "code_k") := by
    constructor
    · decide
    · rw [hcode]; decide
    · rw [hclient]; decide
    · rw [huri]; decide
    · decide
    · decide
    · rw [hchallenge]; decide +kernel
  refine ⟨_, sys, hrun, by simp [hlen], ?_⟩
  refine (redeemable_iff hrun hnodup hop ht hlive.1 ?_ hform hexpires).mpr ?_
  · rw [hcode]
    exact fun x hx => (hspare x hx).1
  · rw [hclient]
    exact ⟨hlive.2, fun x hx => (hspare x hx).2, .inl rfl⟩

end DataRelay.OAuth
