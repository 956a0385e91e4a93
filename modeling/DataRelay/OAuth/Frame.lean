import DataRelay.OAuth.StateFile
import DataRelay.OAuth.Steps

/-! What an operation may change, map by map.

    `Fades` says that nothing is new: every record was there before, a client perhaps used and a
    token perhaps revoked since. `Keeps` is the other direction: nothing is lost but what the
    operation takes away. `Evolves` adds to `Fades` what an operation makes, and what it writes to
    the state file. One lemma an operation, then `effect_evolves` for every step of the machine. -/

namespace DataRelay.OAuth
open Lib

/-- The same client, perhaps used since. -/
def RegisteredClient.Ages (c c' : RegisteredClient) : Prop :=
  c' = { c with lastUsedAt := c'.lastUsedAt }

/-- The same access token, perhaps revoked since. -/
def AccessToken.Ages (t t' : AccessToken) : Prop :=
  t' = { t with revoked := t'.revoked } ∧ (t.revoked = true → t'.revoked = true)

/-- The same refresh token, perhaps revoked since. -/
def RefreshToken.Ages (t t' : RefreshToken) : Prop :=
  t' = { t with revoked := t'.revoked } ∧ (t.revoked = true → t'.revoked = true)

theorem RegisteredClient.Ages.refl (c : RegisteredClient) : c.Ages c := rfl

theorem AccessToken.Ages.refl (t : AccessToken) : t.Ages t := ⟨rfl, id⟩

theorem RefreshToken.Ages.refl (t : RefreshToken) : t.Ages t := ⟨rfl, id⟩

theorem RegisteredClient.Ages.trans {a b c : RegisteredClient} (h : a.Ages b) (h' : b.Ages c) :
    a.Ages c := by
  unfold Ages at h h' ⊢
  rw [h', h]

theorem AccessToken.Ages.trans {a b c : AccessToken} (h : a.Ages b) (h' : b.Ages c) :
    a.Ages c := by
  refine ⟨?_, h'.2 ∘ h.2⟩
  rw [h'.1, h.1]

theorem RefreshToken.Ages.trans {a b c : RefreshToken} (h : a.Ages b) (h' : b.Ages c) :
    a.Ages c := by
  refine ⟨?_, h'.2 ∘ h.2⟩
  rw [h'.1, h.1]

/-- Nothing in the maps is new. -/
structure Fades (s s' : OAuthService) : Prop where
  clients : ∀ k c', s'.clients.get? k = some c' → ∃ c, s.clients.get? k = some c ∧ c.Ages c'
  codes : ∀ k c, s'.codes.get? k = some c → s.codes.get? k = some c
  access : ∀ k t', s'.accessTokens.get? k = some t' →
    ∃ t, s.accessTokens.get? k = some t ∧ t.Ages t'
  refresh : ∀ k t', s'.refreshTokens.get? k = some t' →
    ∃ t, s.refreshTokens.get? k = some t ∧ t.Ages t'
  pending : ∀ k p, s'.pending.get? k = some p → s.pending.get? k = some p

theorem Fades.refl (s : OAuthService) : Fades s s :=
  ⟨fun _ c h => ⟨c, h, .refl c⟩, fun _ _ h => h, fun _ t h => ⟨t, h, .refl t⟩,
    fun _ t h => ⟨t, h, .refl t⟩, fun _ _ h => h⟩

theorem Fades.trans {s s1 s2 : OAuthService} (h : Fades s s1) (h' : Fades s1 s2) : Fades s s2 where
  clients k c2 h2 := by
    obtain ⟨c1, h1, ha1⟩ := h'.clients k c2 h2
    obtain ⟨c, h0, ha⟩ := h.clients k c1 h1
    exact ⟨c, h0, ha.trans ha1⟩
  codes k c h2 := h.codes k c (h'.codes k c h2)
  access k t2 h2 := by
    obtain ⟨t1, h1, ha1⟩ := h'.access k t2 h2
    obtain ⟨t, h0, ha⟩ := h.access k t1 h1
    exact ⟨t, h0, ha.trans ha1⟩
  refresh k t2 h2 := by
    obtain ⟨t1, h1, ha1⟩ := h'.refresh k t2 h2
    obtain ⟨t, h0, ha⟩ := h.refresh k t1 h1
    exact ⟨t, h0, ha.trans ha1⟩
  pending k p h2 := h.pending k p (h'.pending k p h2)

/-- The identifiers whose records an operation takes away or writes over. -/
structure Loss where
  client : String → Prop := fun _ => False
  code : String → Prop := fun _ => False
  refresh : String → Prop := fun _ => False

/-- Nothing is lost but `loss`: clients, codes, and refresh tokens that are not revoked. -/
structure Keeps (loss : Loss) (s s' : OAuthService) : Prop where
  clients : ∀ k c, s.clients.get? k = some c → ¬ loss.client k →
    ∃ c', s'.clients.get? k = some c' ∧ c.Ages c'
  codes : ∀ k c, s.codes.get? k = some c → ¬ loss.code k → s'.codes.get? k = some c
  refresh : ∀ k t, s.refreshTokens.get? k = some t → t.revoked = false →
    ¬ loss.client t.clientId → ¬ loss.refresh k → s'.refreshTokens.get? k = some t

theorem Keeps.refl {loss : Loss} (s : OAuthService) : Keeps loss s s :=
  ⟨fun _ c h _ => ⟨c, h, .refl c⟩, fun _ _ h _ => h, fun _ _ h _ _ _ => h⟩

theorem Keeps.trans {loss : Loss} {s s1 s2 : OAuthService} (h : Keeps loss s s1)
    (h' : Keeps loss s1 s2) : Keeps loss s s2 where
  clients k c hk hn := by
    obtain ⟨c1, h1, ha1⟩ := h.clients k c hk hn
    obtain ⟨c2, h2, ha2⟩ := h'.clients k c1 h1 hn
    exact ⟨c2, h2, ha1.trans ha2⟩
  codes k c hk hn := h'.codes k c (h.codes k c hk hn) hn
  refresh k t hk hr hc hn := h'.refresh k t (h.refresh k t hk hr hc hn) hr hc hn

namespace OAuthService
variable (cfg : Config) (env : Env) (s : OAuthService)

/-! ### The helpers under the lock -/

theorem removeClient_fades (clientId : String) : Fades s (s.removeClient clientId) :=
  { Fades.refl s with
    clients := fun _ c h => ⟨c, (Dict.get?_of_erase h).2, .refl c⟩
    refresh := fun _ t h => ⟨t, (Dict.get?_of_filter h).1, .refl t⟩ }

theorem evictStale_fades (now : Time) : ∀ (cs : List RegisteredClient) (s : OAuthService),
    Fades s (evictStale now cs s).1
  | [], s => .refl s
  | c :: cs, s => by
    unfold evictStale
    split
    · exact (s.removeClient_fades c.clientId).trans (evictStale_fades now cs _)
    · exact evictStale_fades now cs s

theorem evictOver_fades (now : Time) (b b' : ℕ) : ∀ (fuel : ℕ) (s : OAuthService),
    Fades s (evictOver now b b' fuel s).1
  | 0, s => .refl s
  | fuel + 1, s => by
    unfold evictOver
    split
    · exact .refl s
    split
    · exact .refl s
    · exact (s.removeClient_fades _).trans (evictOver_fades now b b' fuel _)

theorem cleanup_fades (now : Time) (n : ℕ) : Fades s (s.cleanupInactiveClients now n).1 :=
  (evictStale_fades now _ s).trans (evictOver_fades now _ _ _ _)

theorem touch_fades (clientId : String) (now : Time) : Fades s (s.touch clientId now) :=
  { Fades.refl s with
    clients := fun k c' h => by
      obtain ⟨c, hc, rfl | ⟨-, rfl⟩⟩ := Dict.get?_of_modify h
      · exact ⟨_, hc, .refl _⟩
      · exact ⟨c, hc, rfl⟩ }

theorem touch_keeps {loss : Loss} (clientId : String) (now : Time) :
    Keeps loss s (s.touch clientId now) :=
  { Keeps.refl s with
    clients := fun k c hk _ => by
      rw [touch, Dict.get?_modify, hk]
      split
      · exact ⟨_, rfl, rfl⟩
      · exact ⟨c, rfl, rfl⟩ }

theorem revokeRefresh_fades (token : String) : Fades s (s.revokeRefresh token) :=
  { Fades.refl s with
    refresh := fun k t' h => by
      obtain ⟨t, ht, rfl | ⟨-, rfl⟩⟩ := Dict.get?_of_modify h
      · exact ⟨_, ht, .refl _⟩
      · exact ⟨t, ht, rfl, fun _ => rfl⟩ }

theorem revokeRefresh_keeps {loss : Loss} {token : String} (h : loss.refresh token) :
    Keeps loss s (s.revokeRefresh token) :=
  { Keeps.refl s with
    refresh := fun k t hk _ _ hn => by
      have hne : k ≠ token := fun he => hn (he ▸ h)
      rwa [revokeRefresh, Dict.get?_modify, if_neg hne] }

theorem revokeAccess_fades (token : String) : Fades s (s.revokeAccess token) :=
  { Fades.refl s with
    access := fun k t' h => by
      obtain ⟨t, ht, rfl | ⟨-, rfl⟩⟩ := Dict.get?_of_modify h
      · exact ⟨_, ht, .refl _⟩
      · exact ⟨t, ht, rfl, fun _ => rfl⟩ }

theorem markRevoked_fades (token hint : String) : Fades s (s.markRevoked token hint) := by
  unfold markRevoked
  split
  · exact s.revokeAccess_fades token
  split
  · exact s.revokeRefresh_fades token
  · exact (s.revokeAccess_fades token).trans (revokeRefresh_fades _ token)

/-! ### Saving -/

/-- Everything but the clients and the refresh tokens is left alone. -/
theorem evictStale_rest (now : Time) : ∀ (cs : List RegisteredClient) (s : OAuthService),
    ∃ clients refreshTokens, (evictStale now cs s).1 =
      { s with clients := clients, refreshTokens := refreshTokens }
  | [], s => ⟨_, _, rfl⟩
  | c :: cs, s => by
    unfold evictStale
    split
    · obtain ⟨_, _, h⟩ := evictStale_rest now cs (s.removeClient c.clientId)
      exact ⟨_, _, h⟩
    · exact evictStale_rest now cs s

theorem evictOver_rest (now : Time) (b b' : ℕ) : ∀ (fuel : ℕ) (s : OAuthService),
    ∃ clients refreshTokens, (evictOver now b b' fuel s).1 =
      { s with clients := clients, refreshTokens := refreshTokens }
  | 0, s => ⟨_, _, rfl⟩
  | fuel + 1, s => by
    unfold evictOver
    split
    · exact ⟨_, _, rfl⟩
    split
    · exact ⟨_, _, rfl⟩
    · obtain ⟨_, _, h⟩ := evictOver_rest now b b' fuel (s.removeClient _)
      exact ⟨_, _, h⟩

theorem cleanup_rest (now : Time) (n : ℕ) : ∃ clients refreshTokens,
    (s.cleanupInactiveClients now n).1 =
      { s with clients := clients, refreshTokens := refreshTokens } := by
  obtain ⟨_, _, h⟩ := evictStale_rest now s.clients.values s
  obtain ⟨_, _, h'⟩ := evictOver_rest now (maxInactiveDcrClients - n) (maxDcrClients - n)
    (evictStale now s.clients.values s).1.clients.size (evictStale now s.clients.values s).1
  exact ⟨_, _, h'.trans (by rw [h])⟩

theorem persist_rest (now : Time) : ∃ refreshTokens file, (s.persist cfg env now).1 =
    { s with refreshTokens := refreshTokens, file := file } := by
  unfold persist
  split <;> exact ⟨_, _, rfl⟩

theorem persist_refresh (now : Time) {k : String} {t : RefreshToken}
    (h : (s.persist cfg env now).1.refreshTokens.get? k = some t) :
    s.refreshTokens.get? k = some t := by
  unfold persist at h
  split at h
  · exact h
  · exact (Dict.get?_of_filter h).1

/-- A save drops revoked tokens only. -/
theorem persist_keeps {loss : Loss} (now : Time) : Keeps loss s (s.persist cfg env now).1 := by
  unfold persist
  split
  · exact .refl s
  · exact { Keeps.refl s with
      refresh := fun k t hk hr _ _ => by
        rw [dropExpired, Dict.get?_filter, hk]
        simp [hr] }

theorem persist_fades (now : Time) : Fades s (s.persist cfg env now).1 := by
  obtain ⟨r, f, h⟩ := s.persist_rest cfg env now
  have hsub {k t} := s.persist_refresh cfg env now (k := k) (t := t)
  rw [h] at hsub ⊢
  exact { Fades.refl s with refresh := fun k t ht => ⟨t, hsub ht, .refl t⟩ }

end OAuthService

/-- The file is as it was, or there is a store and the file holds a text that was to be the payload
    of the maps of `s'`. -/
def Writes (cfg : Config) (s s' : OAuthService) : Prop :=
  s'.file = s.file ∨ (cfg.store ≠ none ∧
    ∃ n, s'.file = some ((Json.dumps (payload s'.clients s'.refreshTokens)).take n))

theorem OAuthService.persist_writes (cfg : Config) (env : Env) (s : OAuthService) (now : Time) :
    Writes cfg s (s.persist cfg env now).1 := by
  unfold persist
  split
  · exact Or.inl rfl
  · rename_i store hstore
    rcases DurableOAuthStore.file_save store env.save _ ⟨s.file, none⟩
      (accepted_payload (s.dropExpired now).clients (s.dropExpired now).refreshTokens) rfl with
      h | ⟨n, -, h⟩
    · exact Or.inl h
    · exact Or.inr ⟨by rw [hstore]; simp, n, h⟩

/-! ### What is new -/

/-- The records that an operation may make. -/
structure New where
  client : RegisteredClient → Prop := fun _ => False
  code : AuthCode → Prop := fun _ => False
  access : AccessToken → Prop := fun _ => False
  refresh : RefreshToken → Prop := fun _ => False
  pending : String → PendingAuthorization → Prop := fun _ _ => False

/-- A client in memory or in the state file. -/
def OAuthService.HoldsClient (s : OAuthService) (k : String) (c : RegisteredClient) : Prop :=
  s.clients.get? k = some c ∨ ∃ read, readFile s.file = some read ∧ read.1.get? k = some c

/-- A refresh token in memory or in the state file. -/
def OAuthService.HoldsRefresh (s : OAuthService) (k : String) (t : RefreshToken) : Prop :=
  s.refreshTokens.get? k = some t ∨ ∃ read, readFile s.file = some read ∧ read.2.get? k = some t

/-- A map of refresh tokens, in memory or in the state file. -/
def OAuthService.Backs (s : OAuthService) (m : Dict String RefreshToken) : Prop :=
  m = s.refreshTokens ∨ ∃ read, readFile s.file = some read ∧ m = read.2

theorem OAuthService.Backs.holds {s : OAuthService} {m : Dict String RefreshToken} (h : s.Backs m)
    {k : String} {t : RefreshToken} (ht : m.get? k = some t) : s.HoldsRefresh k t := by
  rcases h with rfl | ⟨read, hread, rfl⟩
  · exact Or.inl ht
  · exact Or.inr ⟨read, hread, ht⟩

/-- Every record was there before, or is one that the operation makes. -/
structure Evolves (cfg : Config) (new : New) (s s' : OAuthService) : Prop where
  clients : ∀ k c', s'.clients.get? k = some c' →
    (∃ c, s.HoldsClient k c ∧ c.Ages c') ∨ (k = c'.clientId ∧ new.client c')
  codes : ∀ k c, s'.codes.get? k = some c → s.codes.get? k = some c ∨ (k = c.code ∧ new.code c)
  access : ∀ k t', s'.accessTokens.get? k = some t' →
    (∃ t, s.accessTokens.get? k = some t ∧ t.Ages t') ∨ (k = t'.token ∧ new.access t')
  refresh : ∃ m, s.Backs m ∧ ∀ k t', s'.refreshTokens.get? k = some t' →
    (∃ t, m.get? k = some t ∧ t.Ages t') ∨ (k = t'.token ∧ new.refresh t')
  pending : ∀ k p, s'.pending.get? k = some p → s.pending.get? k = some p ∨ new.pending k p
  file : Writes cfg s s'

theorem Evolves.refresh_holds {cfg : Config} {new : New} {s s' : OAuthService}
    (h : Evolves cfg new s s') (k : String) (t' : RefreshToken)
    (hk : s'.refreshTokens.get? k = some t') :
    (∃ t, s.HoldsRefresh k t ∧ t.Ages t') ∨ (k = t'.token ∧ new.refresh t') := by
  obtain ⟨m, hm, h⟩ := h.refresh
  exact (h k t' hk).imp_left fun ⟨t, ht, ha⟩ => ⟨t, hm.holds ht, ha⟩

theorem Fades.evolves {new : New} {s s' : OAuthService} (h : Fades s s') (cfg : Config)
    (hw : Writes cfg s s') : Evolves cfg new s s' where
  clients k c' h' := by
    obtain ⟨c, hc, ha⟩ := h.clients k c' h'
    exact Or.inl ⟨c, Or.inl hc, ha⟩
  codes k c h' := Or.inl (h.codes k c h')
  access k t' h' := Or.inl (h.access k t' h')
  refresh := ⟨_, Or.inl rfl, fun k t' h' => Or.inl (h.refresh k t' h')⟩
  pending k p h' := Or.inl (h.pending k p h')
  file := hw

/-- A save at the end of an operation adds nothing. -/
theorem Evolves.persist {cfg : Config} {new : New} {s s' : OAuthService} (h : Evolves cfg new s s')
    (hfile : s'.file = s.file) (env : Env) (now : Time) :
    Evolves cfg new s (s'.persist cfg env now).1 := by
  obtain ⟨r, f, hrest⟩ := s'.persist_rest cfg env now
  have hsub {k t} := s'.persist_refresh cfg env now (k := k) (t := t)
  have hw := s'.persist_writes cfg env now
  rw [hrest] at hsub hw ⊢
  obtain ⟨m, hm, hrefresh⟩ := h.refresh
  exact { h with
    refresh := ⟨m, hm, fun k t' h' => hrefresh k t' (hsub h')⟩
    file := by rw [Writes, ← hfile]; exact hw }

/-- The pair of tokens that an exchange issues, and on what grounds. -/
inductive Issues (cfg : Config) (env : Env) (s : OAuthService) (form : Dict String String) :
    AccessToken → RefreshToken → Prop where
  | code {record : AuthCode} (hg : getD form "grant_type" "" = "authorization_code")
      (hc : s.codes.get? (getD form "code" "") = some record)
      (hok : s.checkCode cfg env form record = .ok ()) :
      Issues cfg env s form
        (OAuthService.newAccess env record.clientId record.resource record.scopes)
        (OAuthService.newRefresh env record.clientId record.resource record.scopes)
  | refresh {record : RefreshToken} {scopes : Finset String}
      (hg : getD form "grant_type" "" = "refresh_token")
      (hr : s.refreshTokens.get? (getD form "refresh_token" "") = some record)
      (hok : OAuthService.checkRefresh cfg env form record = .ok ())
      (hs : OAuthService.refreshScopes form record = .ok scopes) :
      Issues cfg env s form (OAuthService.newAccess env record.clientId record.resource scopes)
        (OAuthService.newRefresh env record.clientId record.resource scopes)

/-- The client that a registration makes. -/
def NewClient (env : Env) (body : Json) (c : RegisteredClient) : Prop :=
  ∃ uris grants name, OAuthService.checkBody body = .ok (uris, grants, name) ∧
    c = ⟨newToken "client" env.random0, uris, name, "none", grants, ["code"], env.t1.toInt, env.t1⟩

/-- What an operation may make. -/
def newOf (cfg : Config) (env : Env) (sys : System) : Op → New
  | .register body _ => { client := NewClient env body }
  | .beginAdmit tid =>
    { pending := fun k p => k = p.requestId ∧
        ∃ source, sys.threads.get? tid = some (.beginReady source p) }
  | .completeDecide tid =>
    { pending := fun k p => ∃ req, k = req.requestId ∧
        sys.threads.get? tid = some (.completeDeciding req p) ∧
        (sys.svc.completeDecide cfg env req p).2 ≠ .ok () }
  | .completeStore tid =>
    { code := fun c => ∃ req p, sys.threads.get? tid = some (.completeReady req p c) }
  | .exchange form =>
    { access := fun t => ∃ t', Issues cfg env sys.svc form t t'
      refresh := fun t' => ∃ t, Issues cfg env sys.svc form t t' }
  | _ => {}

/-! ### One operation -/

section Operations
variable (cfg : Config) (env : Env) (s : OAuthService)

theorem register_evolves (body : Json) (source : String) :
    Evolves cfg { client := NewClient env body } s (s.registerClient cfg env body source).1 := by
  unfold OAuthService.registerClient
  generalize s.dcrLimiter.allow source env.t0 = admitted
  have hfades : Fades s { s with dcrLimiter := admitted.1 } := { Fades.refl s with }
  have hclean := hfades.trans (OAuthService.cleanup_fades { s with dcrLimiter := admitted.1 } env.t1 1)
  obtain ⟨cs, ts, hrest⟩ :=
    OAuthService.cleanup_rest { s with dcrLimiter := admitted.1 } env.t1 1
  have hfile : Writes cfg s
      (OAuthService.cleanupInactiveClients { s with dcrLimiter := admitted.1 } env.t1 1).1 := by
    rw [hrest]; exact Or.inl rfl
  dsimp only
  split
  · exact hfades.evolves cfg (Or.inl rfl)
  split
  · exact hclean.evolves cfg hfile
  split
  · exact hclean.evolves cfg hfile
  cases hb : OAuthService.checkBody body with
  | error e => exact hclean.evolves cfg hfile
  | ok fields =>
    obtain ⟨uris, grants, name⟩ := fields
    dsimp only
    have hnew : Evolves cfg { client := NewClient env body } s
        { (OAuthService.cleanupInactiveClients { s with dcrLimiter := admitted.1 } env.t1 1).1 with
          clients := (OAuthService.cleanupInactiveClients { s with dcrLimiter := admitted.1 }
            env.t1 1).1.clients.set (newToken "client" env.random0)
            ⟨newToken "client" env.random0, uris, name, "none", grants, ["code"],
              env.t1.toInt, env.t1⟩
          dcrLimiter := (OAuthService.cleanupInactiveClients { s with dcrLimiter := admitted.1 }
            env.t1 1).1.dcrLimiter.record source env.t1 } :=
      { hclean.evolves cfg hfile with
        clients := fun k c' h => by
          rcases Dict.get?_of_set h with ⟨rfl, rfl⟩ | ⟨-, h⟩
          · exact Or.inr ⟨rfl, uris, grants, name, hb, rfl⟩
          · exact (hclean.evolves cfg hfile).clients k c' h
        file := by rw [hrest]; exact Or.inl rfl }
    -- the save changes the file, and the memory by the purge only
    have hsame := hnew.persist (by rw [hrest]) env env.t2
    split <;> rename_i hp <;> rw [← congrArg Prod.fst hp] <;> exact hsame

theorem admit_evolves (p : PendingAuthorization) (source : String) :
    Evolves cfg { pending := fun k q => k = p.requestId ∧ q = p } s (s.beginAdmit env p source).1 := by
  have hfades (limiter : SlidingWindow) : Fades s { s with authzLimiter := limiter } :=
    { Fades.refl s with }
  have hclean (limiter : SlidingWindow) :
      Fades s (OAuthService.cleanupPending { s with authzLimiter := limiter } env.t1) :=
    { Fades.refl s with pending := fun _ _ h => (Dict.get?_of_filter h).1 }
  unfold OAuthService.beginAdmit
  dsimp only
  split
  · exact (hfades _).evolves cfg (Or.inl rfl)
  split
  · exact (hclean _).evolves cfg (Or.inl rfl)
  split
  · exact (hclean _).evolves cfg (Or.inl rfl)
  · have hclean' := hclean (s.authzLimiter.allow source env.t0).1
    exact { hclean'.evolves cfg (Or.inl rfl) with
      pending := fun k q h => by
        rcases Dict.get?_of_set h with ⟨rfl, rfl⟩ | ⟨-, h⟩
        · exact Or.inr ⟨rfl, rfl⟩
        · exact Or.inl (hclean'.pending k q h)
      file := Or.inl rfl }

theorem pop_evolves (req : CompleteRequest) : Evolves cfg {} s (s.completePop req).1 := by
  have hfades : Fades s (s.completePop req).1 :=
    { Fades.refl s with pending := fun _ _ h => (Dict.get?_of_erase h).2 }
  exact hfades.evolves cfg (Or.inl rfl)

theorem decide_evolves (req : CompleteRequest) (p : PendingAuthorization) :
    Evolves cfg { pending := fun k q => k = req.requestId ∧ q = p ∧
        (s.completeDecide cfg env req p).2 ≠ .ok () } s (s.completeDecide cfg env req p).1 := by
  have hfades (limiter : SlidingWindow) : Fades s { s with ownerFailLimiter := limiter } :=
    { Fades.refl s with }
  have hback (limiter : SlidingWindow) (e : PyError) :
      Evolves cfg { pending := fun k q => k = req.requestId ∧ q = p ∧
        (Except.error e : Except PyError Unit) ≠ .ok () } s
        (OAuthService.putBack { s with ownerFailLimiter := limiter } req p) :=
    { (hfades limiter).evolves cfg (Or.inl rfl) with
      pending := fun k q h => by
        rcases Dict.get?_of_set h with ⟨rfl, rfl⟩ | ⟨-, h⟩
        · exact Or.inr ⟨rfl, rfl, by simp⟩
        · exact Or.inl h
      file := Or.inl rfl }
  unfold OAuthService.completeDecide
  dsimp only
  split
  · exact hback _ _
  split
  · exact hback _ _
  split
  · exact (hfades _).evolves cfg (Or.inl rfl)
  · exact hback _ _
  · exact ((hfades _).trans (OAuthService.touch_fades _ p.clientId env.t1)).evolves cfg (Or.inl rfl)

theorem store_evolves (p : PendingAuthorization) (c : AuthCode) :
    Evolves cfg { code := fun c' => c' = c } s (s.completeStore cfg env p c).1 := by
  have hset : Evolves cfg { code := fun c' => c' = c } s { s with codes := s.codes.set c.code c } :=
    { (Fades.refl s).evolves cfg (Or.inl rfl) with
      codes := fun k c' h => by
        rcases Dict.get?_of_set h with ⟨rfl, rfl⟩ | ⟨-, h⟩
        · exact Or.inr ⟨rfl, rfl⟩
        · exact Or.inl h
      file := Or.inl rfl }
  have hsame := hset.persist rfl env env.t0
  unfold OAuthService.completeStore
  dsimp only
  split <;> rename_i hp <;> rw [← congrArg Prod.fst hp] <;> exact hsame

theorem issue_evolves {s s0 : OAuthService} (h : Fades s s0) (hfile : s0.file = s.file)
    (clientId resource : String) (scopes : Finset String) :
    Evolves cfg { access := (· = OAuthService.newAccess env clientId resource scopes)
                  refresh := (· = OAuthService.newRefresh env clientId resource scopes) } s
      (s0.issueTokens cfg env clientId resource scopes).1 := by
  have hset : Evolves cfg { access := (· = OAuthService.newAccess env clientId resource scopes)
                            refresh := (· = OAuthService.newRefresh env clientId resource scopes) } s
      { s0 with
        accessTokens := s0.accessTokens.set (OAuthService.newAccess env clientId resource scopes).token
          (OAuthService.newAccess env clientId resource scopes)
        refreshTokens := s0.refreshTokens.set
          (OAuthService.newRefresh env clientId resource scopes).token
          (OAuthService.newRefresh env clientId resource scopes) } :=
    { h.evolves cfg (Or.inl hfile) with
      access := fun k t' ht => by
        rcases Dict.get?_of_set ht with ⟨rfl, rfl⟩ | ⟨-, ht⟩
        · exact Or.inr ⟨rfl, rfl⟩
        · exact Or.inl (h.access k t' ht)
      refresh := ⟨_, Or.inl rfl, fun k t' ht => by
        rcases Dict.get?_of_set ht with ⟨rfl, rfl⟩ | ⟨-, ht⟩
        · exact Or.inr ⟨rfl, rfl⟩
        · exact Or.inl (h.refresh k t' ht)⟩
      file := Or.inl hfile }
  have hsame := hset.persist hfile env env.t3
  unfold OAuthService.issueTokens
  dsimp only
  split <;> rename_i hp <;> rw [← congrArg Prod.fst hp] <;> exact hsame

theorem Evolves.imp {cfg : Config} {new new' : New} {s s' : OAuthService} (h : Evolves cfg new s s')
    (hc : ∀ c, new.client c → new'.client c) (hd : ∀ c, new.code c → new'.code c)
    (ha : ∀ t, new.access t → new'.access t) (hr : ∀ t, new.refresh t → new'.refresh t)
    (hp : ∀ k p, new.pending k p → new'.pending k p) : Evolves cfg new' s s' where
  clients k c h' := (h.clients k c h').imp_right fun e => ⟨e.1, hc c e.2⟩
  codes k c h' := (h.codes k c h').imp_right fun e => ⟨e.1, hd c e.2⟩
  access k t h' := (h.access k t h').imp_right fun e => ⟨e.1, ha t e.2⟩
  refresh := by
    obtain ⟨m, hm, h⟩ := h.refresh
    exact ⟨m, hm, fun k t h' => (h k t h').imp_right fun e => ⟨e.1, hr t e.2⟩⟩
  pending k p h' := (h.pending k p h').imp_right (hp k p)
  file := h.file

/-- The exchange revokes the refresh token: it is the one presented, and passes the checks. -/
def Rotates (form : Dict String String) (k : String) : Prop :=
  getD form "grant_type" "" = "refresh_token" ∧ getD form "refresh_token" "" = k ∧
    ∃ record, s.refreshTokens.get? k = some record ∧
      OAuthService.checkRefresh cfg env form record = .ok ()

/-- What an exchange takes away before it issues anything. -/
def spent (form : Dict String String) : Loss where
  code := fun k => getD form "grant_type" "" = "authorization_code" ∧ getD form "code" "" = k
  refresh := Rotates cfg env s form

/-- What `exchange_token` does: it refuses, or issues a pair of tokens. A code that was looked up is
    gone, and a refresh token that was redeemed is revoked. -/
inductive Exchanged (form : Dict String String) :
    OAuthService × Except PyError TokenResponse → Prop where
  | refused {s' : OAuthService} (e : PyError) (hf : Fades s s')
      (hk : Keeps (spent cfg env s form) s s') (hfile : s'.file = s.file)
      (hcode : getD form "grant_type" "" = "authorization_code" →
        s'.codes.get? (getD form "code" "") = none) : Exchanged form (s', .error e)
  | issued {s0 : OAuthService} {clientId resource : String} {scopes : Finset String}
      (hi : Issues cfg env s form (OAuthService.newAccess env clientId resource scopes)
        (OAuthService.newRefresh env clientId resource scopes))
      (hf : Fades s s0) (hk : Keeps (spent cfg env s form) s s0) (hfile : s0.file = s.file)
      (hcode : getD form "grant_type" "" = "authorization_code" →
        s0.codes.get? (getD form "code" "") = none)
      (hrefresh : getD form "grant_type" "" = "refresh_token" →
        ∀ t, s0.refreshTokens.get? (getD form "refresh_token" "") = some t → t.revoked = true) :
      Exchanged form (s0.issueTokens cfg env clientId resource scopes)

theorem revokeRefresh_get? {token : String} {t : RefreshToken}
    (h : (s.revokeRefresh token).refreshTokens.get? token = some t) : t.revoked = true := by
  rw [OAuthService.revokeRefresh, Dict.get?_modify, if_pos rfl] at h
  obtain ⟨t', -, rfl⟩ := Option.map_eq_some_iff.mp h
  rfl

theorem exchange_exchanged (form : Dict String String) :
    Exchanged cfg env s form (s.exchangeToken cfg env form) := by
  unfold OAuthService.exchangeToken
  split
  · rename_i hg
    unfold OAuthService.exchangeAuthorizationCode
    split
    · rename_i hc
      exact .refused _ (.refl s) (.refl s) rfl fun _ => hc
    · rename_i record hc
      have hfades : Fades s { s with codes := s.codes.erase (getD form "code" "") } :=
        { Fades.refl s with codes := fun _ _ h => (Dict.get?_of_erase h).2 }
      have hkeeps : Keeps (spent cfg env s form) s
          { s with codes := s.codes.erase (getD form "code" "") } :=
        { Keeps.refl s with
          codes := fun k c hk hn => by rwa [Dict.get?_erase_ne _ fun he => hn ⟨hg, he.symm⟩] }
      -- the code is gone before it is checked, whatever comes of it
      have hgone : (s.codes.erase (getD form "code" "")).get? (getD form "code" "") = none :=
        Dict.get?_erase_self _ _
      dsimp only
      split
      · exact .refused _ hfades hkeeps rfl fun _ => hgone
      · rename_i hok
        exact .issued (.code hg hc hok) (hfades.trans (OAuthService.touch_fades _ _ _))
          (hkeeps.trans (OAuthService.touch_keeps _ _ _)) rfl (fun _ => hgone)
          fun hg' => absurd (hg'.symm.trans hg) (by decide)
  split
  · rename_i hne hg
    unfold OAuthService.exchangeRefreshToken
    split
    · exact .refused _ (.refl s) (.refl s) rfl fun h => absurd h hne
    · rename_i record hr
      split
      · exact .refused _ (.refl s) (.refl s) rfl fun h => absurd h hne
      rename_i hok
      -- the presented token is revoked before the scopes are checked
      have hfades := s.revokeRefresh_fades (getD form "refresh_token" "")
      have hkeeps : Keeps (spent cfg env s form) s
          (s.revokeRefresh (getD form "refresh_token" "")) :=
        OAuthService.revokeRefresh_keeps s ⟨hg, rfl, record, hr, hok⟩
      dsimp only
      split
      · exact .refused _ hfades hkeeps rfl fun h => absurd h hne
      · rename_i scopes hs
        exact .issued (.refresh hg hr hok hs) (hfades.trans (OAuthService.touch_fades _ _ _))
          (hkeeps.trans (OAuthService.touch_keeps _ _ _)) rfl (fun h => absurd h hne)
          fun _ _ ht => revokeRefresh_get? s ht
  · rename_i hne _
    exact .refused _ (.refl s) (.refl s) rfl fun h => absurd h hne

theorem exchange_evolves (form : Dict String String) :
    Evolves cfg { access := fun t => ∃ t', Issues cfg env s form t t'
                  refresh := fun t' => ∃ t, Issues cfg env s form t t' } s
      (s.exchangeToken cfg env form).1 := by
  have h := exchange_exchanged cfg env s form
  generalize s.exchangeToken cfg env form = r at h
  cases h with
  | refused e hf _ hfile => exact hf.evolves cfg (Or.inl hfile)
  | issued hi hf _ hfile =>
    exact (issue_evolves cfg env hf hfile _ _ _).imp (fun _ => False.elim) (fun _ => False.elim)
      (fun t ht => ⟨_, ht ▸ hi⟩) (fun t ht => ⟨_, ht ▸ hi⟩) (fun _ _ => False.elim)

theorem revoke_evolves (form : Dict String String) : Evolves cfg {} s (s.revoke cfg env form).1 := by
  have hfile : (s.markRevoked (getD form "token" "") (getD form "token_type_hint" "")).file =
      s.file := by
    unfold OAuthService.markRevoked
    split
    · rfl
    split <;> rfl
  exact ((s.markRevoked_fades _ _).evolves cfg (Or.inl hfile)).persist hfile env env.t0

theorem loaded_eq {store : DurableOAuthStore} {calls : OAuthService.StartCalls}
    {file : Option (List Char)} {s : OAuthService}
    (h : OAuthService.loaded store calls file = .ok s) :
    ∃ read, readFile file = some read ∧
      s = { OAuthService.empty file with clients := read.1, refreshTokens := read.2 } := by
  simp only [OAuthService.loaded, bind, Except.bind, pure, Except.pure] at h
  split at h
  · cases h
  split at h
  · cases h
  rename_i p hp
  split at h
  · cases h
  rename_i read hread
  cases h
  refine ⟨read, ?_, rfl⟩
  cases file with
  | none => cases hp; cases hread; rfl
  | some text =>
    simp only [DurableOAuthStore.load] at hp
    split at hp
    · cases hp
    split at hp
    · cases hp
    split at hp
    · cases hp
    rename_i p' hp'
    simp only [readFile, hp', Option.bind_some, hp, hread, Except.toOption]

theorem start_evolves (calls : OAuthService.StartCalls) :
    Evolves cfg {} s (OAuthService.start cfg env calls s.file).1 := by
  have hempty : Evolves cfg {} s (.empty s.file) :=
    ⟨fun _ _ h => (nomatch h), fun _ _ h => (nomatch h), fun _ _ h => (nomatch h),
      ⟨_, Or.inl rfl, fun _ _ h => (nomatch h)⟩, fun _ _ h => (nomatch h), Or.inl rfl⟩
  unfold OAuthService.start
  split
  · exact hempty
  split
  · exact hempty
  · rename_i s0 hload
    obtain ⟨read, hread, rfl⟩ := loaded_eq hload
    have hfades := OAuthService.cleanup_fades
      { OAuthService.empty s.file with clients := read.1, refreshTokens := read.2 } env.t0 0
    obtain ⟨cs, ts, hrest⟩ := OAuthService.cleanup_rest
      { OAuthService.empty s.file with clients := read.1, refreshTokens := read.2 } env.t0 0
    have hevolves : Evolves cfg {} s (OAuthService.cleanupInactiveClients
        { OAuthService.empty s.file with clients := read.1, refreshTokens := read.2 } env.t0 0).1 :=
      { clients := fun k c' h => by
          obtain ⟨c, hc, ha⟩ := hfades.clients k c' h
          exact Or.inl ⟨c, Or.inr ⟨read, hread, hc⟩, ha⟩
        codes := fun k c h => by cases hfades.codes k c h
        access := fun k t h => by obtain ⟨_, h, -⟩ := hfades.access k t h; cases h
        refresh := ⟨_, Or.inr ⟨read, hread, rfl⟩, fun k t' h => Or.inl (hfades.refresh k t' h)⟩
        pending := fun k p h => by cases hfades.pending k p h
        file := by rw [hrest]; exact Or.inl rfl }
    dsimp only
    split
    · exact hevolves
    · exact hevolves.persist (by rw [hrest]; rfl) env env.t1

end Operations

/-! ### One step -/

variable {cfg : Config} {env : Env} {sys sys' : System} {op : Op} {svc : OAuthService} {r : Resp}

/-- Every effect makes what its operation may make, and nothing else. -/
theorem effect_evolves (h : Effect cfg env sys op svc r) :
    Evolves cfg (newOf cfg env sys op) sys.svc svc := by
  cases h with
  | idle => exact (Fades.refl _).evolves cfg (Or.inl rfl)
  | validate => exact (Fades.refl _).evolves cfg (Or.inl rfl)
  | register body source => exact register_evolves cfg env sys.svc body source
  | admission ht =>
    exact (admit_evolves cfg env sys.svc _ _).imp (fun _ h => h) (fun _ h => h) (fun _ h => h)
      (fun _ h => h) fun k q hq => by obtain ⟨rfl, rfl⟩ := hq; exact ⟨rfl, _, ht⟩
  | pop tid req => exact pop_evolves cfg sys.svc req
  | decide ht =>
    exact (decide_evolves cfg env sys.svc _ _).imp (fun _ h => h) (fun _ h => h) (fun _ h => h)
      (fun _ h => h) fun k q hq => by obtain ⟨rfl, rfl, he⟩ := hq; exact ⟨_, rfl, ht, he⟩
  | store ht =>
    exact (store_evolves cfg env sys.svc _ _).imp (fun _ h => h)
      (fun c hc => by rw [hc]; exact ⟨_, _, ht⟩) (fun _ h => h) (fun _ h => h) (fun _ _ h => h)
  | exchange form => exact exchange_evolves cfg env sys.svc form
  | revoke form => exact revoke_evolves cfg env sys.svc form
  | start calls => exact start_evolves cfg env sys.svc calls

end DataRelay.OAuth
