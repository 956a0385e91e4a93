import DataRelay.OAuth.Invariants

/-! What the cleanup of inactive clients evicts, in closed form.

    Both loops of `_cleanup_inactive_clients_locked` remove clients one by one and look at the service
    anew each time. Removing one client changes nothing about another, so the first loop evicts the
    stale clients, and the second as many of the inactive clients, in order, as the budgets are
    exceeded by. -/

namespace DataRelay.OAuth
open Lib

namespace OAuthService
variable (s : OAuthService) (now : Time)

/-! ### Removing several clients -/

/-- The service without some clients and their refresh tokens. -/
def removeClients (ids : List String) : OAuthService :=
  { s with
    refreshTokens := s.refreshTokens.filter fun _ t => t.clientId ∉ ids
    clients := s.clients.filter fun k _ => k ∉ ids }

theorem removeClients_nil : s.removeClients [] = s := by
  unfold removeClients
  rw [Dict.filter_eq_self (by simp), Dict.filter_eq_self (by simp)]

theorem removeClients_append (ids ids' : List String) :
    (s.removeClients ids).removeClients ids' = s.removeClients (ids ++ ids') := by
  unfold removeClients
  simp only [Dict.filter_filter, List.mem_append, not_or, Bool.decide_and]

theorem removeClient_eq (id : String) : s.removeClient id = s.removeClients [id] := by
  unfold removeClient removeClients Dict.erase
  simp only [List.mem_singleton, ne_eq, decide_not]

theorem hasLiveRefresh_iff (id : String) : s.clientHasLiveRefresh id now = true ↔
    ∃ k t, s.refreshTokens.get? k = some t ∧ t.clientId = id ∧ t.revoked = false ∧
      now ≤ t.expiresAt := by
  simp only [clientHasLiveRefresh, List.any_eq_true, Dict.mem_values_iff, Bool.and_eq_true,
    decide_eq_true_eq, Bool.not_eq_true', ge_iff_le, and_assoc]
  constructor
  · rintro ⟨t, ⟨k, hk⟩, h⟩; exact ⟨k, t, hk, h⟩
  · rintro ⟨k, t, hk, h⟩; exact ⟨t, ⟨k, hk⟩, h⟩

theorem hasLivePending_iff (id : String) : s.clientHasLivePending id now = true ↔
    ∃ k p, s.pending.get? k = some p ∧ p.clientId = id ∧ now ≤ p.expiresAt := by
  simp only [clientHasLivePending, List.any_eq_true, Dict.mem_values_iff, Bool.and_eq_true,
    decide_eq_true_eq, ge_iff_le]
  constructor
  · rintro ⟨p, ⟨k, hk⟩, h⟩; exact ⟨k, p, hk, h⟩
  · rintro ⟨k, p, hk, h⟩; exact ⟨p, ⟨k, hk⟩, h⟩

variable {s now} {ids : List String}

theorem hasLiveRefresh_removeClients {id : String} (h : id ∉ ids) :
    (s.removeClients ids).clientHasLiveRefresh id now = s.clientHasLiveRefresh id now := by
  rw [Bool.eq_iff_iff, hasLiveRefresh_iff, hasLiveRefresh_iff]
  constructor
  · rintro ⟨k, t, ht, hrest⟩
    exact ⟨k, t, (Dict.get?_of_filter ht).1, hrest⟩
  · rintro ⟨k, t, ht, rfl, hrest⟩
    refine ⟨k, t, ?_, rfl, hrest⟩
    rw [removeClients, Dict.get?_filter, ht]
    simpa using h

theorem evictable_removeClients {c : RegisteredClient} (h : c.clientId ∉ ids) :
    (s.removeClients ids).evictable now c = s.evictable now c := by
  unfold evictable
  rw [hasLiveRefresh_removeClients h]
  rfl

/-! ### The first loop -/

/-- A client past the inactive TTL that nothing protects. -/
def stale (s : OAuthService) (now : Time) (c : RegisteredClient) : Bool :=
  s.evictable now c && inactiveClientTtlS ≤ now - c.lastUsedAt

def idsOf (cs : List RegisteredClient) : List String := cs.map RegisteredClient.clientId

theorem evictStale_eq : ∀ {cs : List RegisteredClient} {ids : List String}, (idsOf cs).Nodup →
    (∀ c ∈ cs, c.clientId ∉ ids) → evictStale now cs (s.removeClients ids) =
      (s.removeClients (ids ++ idsOf (cs.filter (s.stale now))), idsOf (cs.filter (s.stale now)))
  | [], ids, _, _ => by simp [evictStale, idsOf]
  | c :: cs, ids, hn, hids => by
    obtain ⟨hc, hn⟩ := List.nodup_cons.mp hn
    have hstale : ((s.removeClients ids).evictable now c &&
        decide (inactiveClientTtlS ≤ now - c.lastUsedAt)) = s.stale now c := by
      rw [evictable_removeClients (hids c List.mem_cons_self)]; rfl
    -- removing the clients so far does not change whether the next one is stale
    unfold evictStale
    rw [hstale]
    split
    · rename_i h
      have hids' : ∀ c' ∈ cs, c'.clientId ∉ ids ++ [c.clientId] := by
        intro c' hc'
        rw [List.mem_append, List.mem_singleton, not_or]
        refine ⟨hids c' (List.mem_cons_of_mem c hc'), fun he => hc ?_⟩
        exact List.mem_map.mpr ⟨c', hc', he⟩
      rw [removeClient_eq, removeClients_append, evictStale_eq hn hids', List.filter_cons_of_pos h]
      simp [idsOf]
    · rename_i h
      rw [List.filter_cons_of_neg h]
      exact evictStale_eq hn fun c' hc' => hids c' (List.mem_cons_of_mem c hc')

/-! ### The second loop -/

instance : Std.Total evictsBefore := ⟨fun a b => by
  unfold evictsBefore
  rcases lt_trichotomy a.issuedAt b.issuedAt with h | h | h
  · exact Or.inl (Or.inl h)
  · rcases lt_trichotomy a.lastUsedAt b.lastUsedAt with h' | h' | h'
    · exact Or.inl (Or.inr ⟨h, Or.inl h'⟩)
    · rcases le_total a.clientId b.clientId with h'' | h''
      · exact Or.inl (Or.inr ⟨h, Or.inr ⟨h', h''⟩⟩)
      · exact Or.inr (Or.inr ⟨h.symm, Or.inr ⟨h'.symm, h''⟩⟩)
    · exact Or.inr (Or.inr ⟨h.symm, Or.inl h'⟩)
  · exact Or.inr (Or.inl h)⟩

instance : IsTrans RegisteredClient evictsBefore := ⟨fun a b c hab hbc => by
  unfold evictsBefore at *
  rcases hab with h1 | ⟨h1, h2 | ⟨h2, h3⟩⟩ <;> rcases hbc with h4 | ⟨h4, h5 | ⟨h5, h6⟩⟩
  · exact Or.inl (h1.trans h4)
  · exact Or.inl (h4 ▸ h1)
  · exact Or.inl (h4 ▸ h1)
  · exact Or.inl (h1 ▸ h4)
  · exact Or.inr ⟨h1.trans h4, Or.inl (h2.trans h5)⟩
  · exact Or.inr ⟨h1.trans h4, Or.inl (h5 ▸ h2)⟩
  · exact Or.inl (h1 ▸ h4)
  · exact Or.inr ⟨h1.trans h4, Or.inl (h2 ▸ h5)⟩
  · exact Or.inr ⟨h1.trans h4, Or.inr ⟨h2.trans h5, h3.trans h6⟩⟩⟩

theorem evictsBefore_antisymm {a b : RegisteredClient} (h : evictsBefore a b)
    (h' : evictsBefore b a) : a.clientId = b.clientId := by
  unfold evictsBefore at h h'
  rcases h with h1 | ⟨h1, h2 | ⟨h2, h3⟩⟩ <;> rcases h' with h4 | ⟨h4, h5 | ⟨h5, h6⟩⟩
  · exact absurd h1 h4.not_gt
  · exact absurd h4 h1.ne'
  · exact absurd h4 h1.ne'
  · exact absurd h1 h4.ne'
  · exact absurd h2 h5.not_gt
  · exact absurd h5 h2.ne'
  · exact absurd h1 h4.ne'
  · exact absurd h2 h5.ne'
  · exact le_antisymm h3 h6

/-- By how much a budget is exceeded. -/
def excess (s : OAuthService) (now : Time) (inactiveBudget totalBudget : ℕ) : ℕ :=
  max (s.inactiveOccupancy now - inactiveBudget) (s.clients.size - totalBudget)

section Keyed
variable (hk : Keyed RegisteredClient.clientId s.clients)
include hk

theorem nodup_idsOf : (idsOf s.clients.values).Nodup := by
  have hfst : idsOf s.clients.values = s.clients.items.map Prod.fst := by
    unfold idsOf Dict.values
    rw [List.map_map]
    exact List.map_congr_left fun e he => hk e.1 e.2 ((Dict.get?_iff_mem _ _ _).mpr he)
  rw [hfst]
  exact s.clients.nodup

theorem keyed_removeClients : Keyed RegisteredClient.clientId (s.removeClients ids).clients :=
  fun k c h => hk k c (Dict.get?_of_filter h).1

theorem values_removeClients : (s.removeClients ids).clients.values =
    s.clients.values.filter fun c => c.clientId ∉ ids := by
  unfold removeClients Dict.values Dict.filter
  rw [List.filter_map]
  refine congrArg _ (List.filter_congr fun e he => ?_)
  have hid : e.2.clientId = e.1 := hk e.1 e.2 ((Dict.get?_iff_mem _ _ _).mpr he)
  simp only [Function.comp_apply, hid]

/-- The clients in eviction order, without some of them. -/
theorem inactiveClients_removeClients : (s.removeClients ids).inactiveClients now =
    (s.inactiveClients now).filter fun c => c.clientId ∉ ids := by
  have hfilter : (s.removeClients ids).clients.values.filter
      (fun c => (s.removeClients ids).evictable now c) =
      (s.clients.values.filter fun c => s.evictable now c).filter fun c => c.clientId ∉ ids := by
    rw [values_removeClients hk, List.filter_filter, List.filter_filter]
    refine List.filter_congr fun c _ => ?_
    by_cases hc : c.clientId ∈ ids
    · simp [hc]
    · rw [evictable_removeClients hc]; simp [hc]
  unfold inactiveClients
  rw [hfilter]
  -- two sorted permutations of one list agree, as no two clients tie
  refine List.Perm.eq_of_pairwise ?_ (List.pairwise_insertionSort evictsBefore _)
    ((List.pairwise_insertionSort evictsBefore _).filter _)
    ((List.perm_insertionSort _ _).trans ((List.perm_insertionSort _ _).symm.filter _))
  intro a b ha hb hab hba
  have hmem : ∀ {c}, c ∈ (s.clients.values.filter fun c => s.evictable now c).insertionSort
      evictsBefore → c ∈ s.clients.values := fun h =>
    (List.mem_filter.mp ((List.mem_insertionSort _).mp h)).1
  have ha' : a ∈ s.clients.values :=
    (List.mem_filter.mp (List.mem_filter.mp ((List.mem_insertionSort _).mp ha)).1).1
  have hb' := hmem (List.mem_filter.mp hb).1
  exact List.inj_on_of_nodup_map (nodup_idsOf hk) ha' hb' (evictsBefore_antisymm hab hba)

theorem mem_inactiveClients {c : RegisteredClient} (h : c ∈ s.inactiveClients now) :
    s.clients.get? c.clientId = some c ∧ s.evictable now c = true := by
  obtain ⟨hmem, hev⟩ := List.mem_filter.mp ((List.mem_insertionSort _).mp h)
  obtain ⟨k, hget⟩ := (Dict.mem_values_iff _ _).mp hmem
  exact ⟨(hk k c hget) ▸ hget, hev⟩

theorem nodup_inactiveClients : (idsOf (s.inactiveClients now)).Nodup := by
  have hsub : (idsOf (s.clients.values.filter fun c => s.evictable now c)).Nodup :=
    (nodup_idsOf hk).sublist (List.filter_sublist.map _)
  exact ((List.perm_insertionSort evictsBefore _).map RegisteredClient.clientId).nodup_iff.mpr hsub

/-- Evicting one inactive client takes one off every excess. -/
theorem excess_removeClients {c : RegisteredClient} (h : c ∈ s.inactiveClients now) (b b' : ℕ) :
    (s.removeClients [c.clientId]).clients.size + 1 = s.clients.size ∧
      (s.removeClients [c.clientId]).excess now b b' = s.excess now b b' - 1 := by
  obtain ⟨hget, hev⟩ := mem_inactiveClients hk h
  have herase : (s.removeClients [c.clientId]).clients = s.clients.erase c.clientId := by
    rw [← removeClient_eq]; rfl
  have hsize : (s.removeClients [c.clientId]).clients.size + 1 = s.clients.size := by
    rw [herase, Dict.size_eq_count, Dict.size_eq_count]
    exact Dict.count_erase_add hget _
  have hdead : s.clientHasLiveRefresh c.clientId now = false := by
    unfold evictable at hev
    simpa using (Bool.and_eq_true_iff.mp hev).1
  have hocc : (s.removeClients [c.clientId]).inactiveOccupancy now + 1 =
      s.inactiveOccupancy now := by
    have hcount := Dict.count_erase_add hget fun k _ => !s.clientHasLiveRefresh k now
    rw [hdead] at hcount
    rw [inactiveOccupancy, inactiveOccupancy, herase, ← hcount]
    refine congrArg (· + 1) (Dict.count_congr fun e he => ?_)
    have hne : e.1 ∉ [c.clientId] := by
      have := (Dict.get?_iff_mem _ _ _).mpr he
      simpa using (Dict.get?_of_erase this).1
    rw [hasLiveRefresh_removeClients hne]
  refine ⟨hsize, ?_⟩
  unfold excess
  omega

end Keyed

/-- The second loop evicts as many inactive clients, in order, as a budget is exceeded by. -/
theorem evictOver_eq (b b' : ℕ) : ∀ {fuel : ℕ} {s : OAuthService},
    Keyed RegisteredClient.clientId s.clients → s.clients.size ≤ fuel →
    evictOver now b b' fuel s =
      (s.removeClients (idsOf ((s.inactiveClients now).take (s.excess now b b'))),
        idsOf ((s.inactiveClients now).take (s.excess now b b')))
  | 0, s, hk, hf => by
    have hzero : s.excess now b b' = 0 := by
      have hle : s.inactiveOccupancy now ≤ s.clients.size := List.countP_le_length
      unfold excess
      omega
    rw [hzero]
    simp [evictOver, idsOf, removeClients_nil]
  | fuel + 1, s, hk, hf => by
    unfold evictOver
    split
    · rename_i h
      have hzero : s.excess now b b' = 0 := by unfold excess; omega
      rw [hzero]
      simp [idsOf, removeClients_nil]
    rename_i h
    have hpos : s.excess now b b' = (s.excess now b b' - 1) + 1 := by unfold excess; omega
    split
    · rename_i hnil
      simp [hnil, idsOf, removeClients_nil]
    · -- one client goes: the excess is one less and the order of the rest stays
      rename_i c cs hcons
      have hc : c ∈ s.inactiveClients now := hcons ▸ List.mem_cons_self
      obtain ⟨hsize, hex⟩ := excess_removeClients hk hc b b'
      have hrest : (s.removeClients [c.clientId]).inactiveClients now = cs := by
        have hnodup : (idsOf (c :: cs)).Nodup := hcons ▸ nodup_inactiveClients hk
        rw [inactiveClients_removeClients hk, hcons, List.filter_cons_of_neg (by simp)]
        refine List.filter_eq_self.mpr fun x hx => ?_
        have hne : x.clientId ≠ c.clientId := fun he =>
          (List.nodup_cons.mp hnodup).1 (List.mem_map.mpr ⟨x, hx, he⟩)
        simpa using hne
      rw [removeClient_eq]
      dsimp only
      rw [evictOver_eq b b' (keyed_removeClients hk) (by omega), hrest, hex, hpos,
        removeClients_append, hcons]
      simp [idsOf]

/-! ### The whole cleanup -/

/-- The service without its stale clients. -/
def withoutStale (s : OAuthService) (now : Time) : OAuthService :=
  s.removeClients (idsOf (s.clients.values.filter (s.stale now)))

/-- The clients that a cleanup evicts: the stale ones, and of the inactive ones that are left, in
    order, as many as a budget is exceeded by. -/
def evicted (s : OAuthService) (now : Time) (reserveSlots : ℕ) : List String :=
  idsOf (s.clients.values.filter (s.stale now)) ++
    idsOf (((s.withoutStale now).inactiveClients now).take ((s.withoutStale now).excess now
      (maxInactiveDcrClients - reserveSlots) (maxDcrClients - reserveSlots)))

theorem cleanup_eq (hk : Keyed RegisteredClient.clientId s.clients) (n : ℕ) :
    s.cleanupInactiveClients now n = (s.removeClients (s.evicted now n), s.evicted now n) := by
  have hstale := @evictStale_eq s now _ [] (nodup_idsOf hk) (by simp)
  rw [removeClients_nil, List.nil_append] at hstale
  unfold cleanupInactiveClients
  rw [hstale]
  dsimp only
  rw [evictOver_eq _ _ (keyed_removeClients hk) le_rfl, removeClients_append]
  rfl

/-- Only a client that nothing protects is evicted. -/
theorem evictable_of_evicted (hk : Keyed RegisteredClient.clientId s.clients) {n : ℕ} {k : String}
    (h : k ∈ s.evicted now n) : ∃ c, s.clients.get? k = some c ∧ s.evictable now c = true := by
  rcases List.mem_append.mp h with h | h
  · obtain ⟨c, hc, rfl⟩ := List.mem_map.mp h
    obtain ⟨hmem, hstale⟩ := List.mem_filter.mp hc
    obtain ⟨k, hget⟩ := (Dict.mem_values_iff _ _).mp hmem
    exact ⟨c, hk k c hget ▸ hget, (Bool.and_eq_true_iff.mp hstale).1⟩
  · obtain ⟨c, hc, rfl⟩ := List.mem_map.mp h
    obtain ⟨hget, hev⟩ := mem_inactiveClients (keyed_removeClients hk) (List.mem_of_mem_take hc)
    obtain ⟨hget, hnot⟩ := Dict.get?_of_filter hget
    refine ⟨c, hget, ?_⟩
    rwa [evictable_removeClients (by simpa using hnot)] at hev

theorem clients_removeClients (k : String) : (s.removeClients ids).clients.get? k =
    if k ∈ ids then none else s.clients.get? k := by
  rw [removeClients, Dict.get?_filter]
  by_cases hk : k ∈ ids <;> cases s.clients.get? k <;> simp [hk]

theorem refresh_removeClients (k : String) : (s.removeClients ids).refreshTokens.get? k =
    (s.refreshTokens.get? k).filter fun t => t.clientId ∉ ids := by
  rw [removeClients, Dict.get?_filter]

/-- A cleanup takes nothing but the evicted clients and their refresh tokens. -/
theorem cleanup_keeps (hk : Keyed RegisteredClient.clientId s.clients) (n : ℕ) {loss : Loss}
    (hl : ∀ k ∈ s.evicted now n, loss.client k) : Keeps loss s (s.cleanupInactiveClients now n).1 := by
  rw [cleanup_eq hk]
  exact { Keeps.refl s with
    clients := fun k c h hn => by
      rw [clients_removeClients, if_neg fun hm => hn (hl k hm)]
      exact ⟨c, h, .refl c⟩
    refresh := fun k t h _ hn _ => by
      rw [refresh_removeClients, h]
      simpa using fun hm => hn (hl t.clientId hm) }

theorem markRevoked_keeps {loss : Loss} {token : String} (hint : String) (h : loss.refresh token) :
    Keeps loss s (s.markRevoked token hint) := by
  have haccess : ∀ s : OAuthService, Keeps loss s (s.revokeAccess token) :=
    fun s => { Keeps.refl s with }
  unfold markRevoked
  split
  · exact haccess s
  split
  · exact s.revokeRefresh_keeps h
  · exact (haccess s).trans (revokeRefresh_keeps _ h)

end OAuthService

/-! ### What a step keeps -/

/-- The registration runs a cleanup, and that evicts the client. -/
def Evicts (env : Env) (s : OAuthService) (source : String) (k : String) : Prop :=
  (s.dcrLimiter.allow source env.t0).2 = true ∧ k ∈ s.evicted env.t1 1

/-- What an operation may take away, or write over. -/
def lossOf (cfg : Config) (env : Env) (sys : System) : Op → Loss
  | .register _ source =>
    { client := fun k => Evicts env sys.svc source k ∨ k = newToken "client" env.random0 }
  | .completeStore tid =>
    { code := fun k => ∃ req p c, sys.threads.get? tid = some (.completeReady req p c) ∧ k = c.code }
  | .exchange form =>
    { spent cfg env sys.svc form with
      refresh := fun k => Rotates cfg env sys.svc form k ∨ k = newToken "rtk" env.random1 }
  | .revoke form => { refresh := fun k => k = getD form "token" "" }
  | .restart _ => ⟨fun _ => True, fun _ => True, fun _ => True⟩
  | _ => {}

section Keeps
variable (cfg : Config) (env : Env) (s : OAuthService)

theorem setClient_keeps {loss : Loss} {k : String} (h : loss.client k) (c : RegisteredClient)
    (limiter : SlidingWindow) :
    Keeps loss s { s with clients := s.clients.set k c, dcrLimiter := limiter } :=
  { Keeps.refl s with
    clients := fun j c' hj hn => by
      have hne : j ≠ k := fun he => hn (he ▸ h)
      exact ⟨c', by rwa [Dict.get?_set_ne _ hne], .refl c'⟩ }

theorem register_keeps (hk : Keyed RegisteredClient.clientId s.clients) (body : Json)
    (source : String) {loss : Loss} (hl : ∀ k, Evicts env s source k → loss.client k)
    (hnew : loss.client (newToken "client" env.random0)) :
    Keeps loss s (s.registerClient cfg env body source).1 := by
  unfold OAuthService.registerClient
  dsimp only
  have hlimit : Keeps loss s { s with dcrLimiter := (s.dcrLimiter.allow source env.t0).1 } :=
    { Keeps.refl s with }
  split
  · exact hlimit
  rename_i hallow
  have hclean := hlimit.trans (OAuthService.cleanup_keeps
    (s := { s with dcrLimiter := (s.dcrLimiter.allow source env.t0).1 }) hk 1
    fun k hm => hl k ⟨by simpa using hallow, hm⟩)
  split
  · exact hclean
  split
  · exact hclean
  split
  · exact hclean
  · -- a failing save keeps the new client all the same
    have hset := fun c limiter => hclean.trans (setClient_keeps _ hnew c limiter)
    split <;> rename_i hp <;> rw [← congrArg Prod.fst hp] <;>
      exact (hset _ _).trans (OAuthService.persist_keeps _ _ _ _)

theorem store_keeps {loss : Loss} (p : PendingAuthorization) (c : AuthCode) (h : loss.code c.code) :
    Keeps loss s (s.completeStore cfg env p c).1 := by
  have hset : Keeps loss s { s with codes := s.codes.set c.code c } :=
    { Keeps.refl s with
      codes := fun k c' hk hn => by
        have hne : k ≠ c.code := fun he => hn (he ▸ h)
        rwa [Dict.get?_set_ne _ hne] }
  unfold OAuthService.completeStore
  dsimp only
  split <;> rename_i hp <;> rw [← congrArg Prod.fst hp] <;>
    exact hset.trans (OAuthService.persist_keeps _ _ _ _)

theorem issue_keeps {loss : Loss} (clientId resource : String) (scopes : Finset String)
    (h : loss.refresh (newToken "rtk" env.random1)) :
    Keeps loss s (s.issueTokens cfg env clientId resource scopes).1 := by
  have hset : Keeps loss s { s with
      accessTokens := s.accessTokens.set
        (OAuthService.newAccess env clientId resource scopes).token
        (OAuthService.newAccess env clientId resource scopes)
      refreshTokens := s.refreshTokens.set
        (OAuthService.newRefresh env clientId resource scopes).token
        (OAuthService.newRefresh env clientId resource scopes) } :=
    { Keeps.refl s with
      refresh := fun k t hk _ _ hn => by
        have hne : k ≠ (OAuthService.newRefresh env clientId resource scopes).token :=
          fun he => hn (he ▸ h)
        rwa [Dict.get?_set_ne _ hne] }
  unfold OAuthService.issueTokens
  dsimp only
  split <;> rename_i hp <;> rw [← congrArg Prod.fst hp] <;>
    exact hset.trans (OAuthService.persist_keeps _ _ _ _)

theorem Keeps.imp {loss loss' : Loss} {s s' : OAuthService} (h : Keeps loss s s')
    (hc : ∀ k, loss.client k → loss'.client k) (hd : ∀ k, loss.code k → loss'.code k)
    (hr : ∀ k, loss.refresh k → loss'.refresh k) : Keeps loss' s s' where
  clients k c hk hn := h.clients k c hk fun hl => hn (hc k hl)
  codes k c hk hn := h.codes k c hk fun hl => hn (hd k hl)
  refresh k t hk hlive hn hn' :=
    h.refresh k t hk hlive (fun hl => hn (hc _ hl)) fun hl => hn' (hr k hl)

theorem decide_keeps {loss : Loss} (req : CompleteRequest) (p : PendingAuthorization) :
    Keeps loss s (s.completeDecide cfg env req p).1 := by
  have hrest : ∀ limiter pending,
      Keeps loss s { s with ownerFailLimiter := limiter, pending := pending } :=
    fun _ _ => { Keeps.refl s with }
  unfold OAuthService.completeDecide
  dsimp only
  split
  · exact hrest _ _
  split
  · exact hrest _ _
  split
  · exact hrest _ s.pending
  · exact hrest _ _
  · exact (hrest _ s.pending).trans (OAuthService.touch_keeps _ _ _)

theorem admit_keeps {loss : Loss} (p : PendingAuthorization) (source : String) :
    Keeps loss s (s.beginAdmit env p source).1 := by
  have hrest : ∀ limiter pending,
      Keeps loss s { s with authzLimiter := limiter, pending := pending } :=
    fun _ _ => { Keeps.refl s with }
  unfold OAuthService.beginAdmit
  dsimp only
  split
  · exact hrest _ s.pending
  split
  · exact hrest _ _
  split <;> exact hrest _ _

end Keeps

/-- A service starts with its clients and its refresh tokens, and nothing else. -/
theorem start_rest {cfg : Config} {env : Env} (calls : OAuthService.StartCalls)
    (file : Option (List Char)) :
    ∃ clients refreshTokens file', (OAuthService.start cfg env calls file).1 =
      { OAuthService.empty file' with clients := clients, refreshTokens := refreshTokens } := by
  unfold OAuthService.start
  split
  · exact ⟨_, _, _, rfl⟩
  split
  · exact ⟨_, _, _, rfl⟩
  · rename_i s hload
    obtain ⟨read, -, rfl⟩ := loaded_eq hload
    obtain ⟨cs, ts, hrest⟩ := OAuthService.cleanup_rest
      { OAuthService.empty file with clients := read.1, refreshTokens := read.2 } env.t0 0
    dsimp only
    split
    · exact ⟨_, _, _, hrest⟩
    · -- a start whose cleanup removes somebody saves once more
      obtain ⟨ts', file', hrest'⟩ := OAuthService.persist_rest cfg env
        (OAuthService.cleanupInactiveClients
          { OAuthService.empty file with clients := read.1, refreshTokens := read.2 } env.t0 0).1
        env.t1
      refine ⟨cs, ts', file', hrest'.trans ?_⟩
      rw [hrest]
      rfl

variable {cfg : Config} {env : Env} {sys : System} {op : Op} {svc : OAuthService} {r : Resp}

/-- Every effect keeps everything but what its operation takes away. -/
theorem effect_keeps (hv : sys.svc.Valid) (h : Effect cfg env sys op svc r) :
    Keeps (lossOf cfg env sys op) sys.svc svc := by
  have hk : Keyed RegisteredClient.clientId sys.svc.clients :=
    fun k c hc => (hv.clients k c (Or.inl hc)).1
  cases h with
  | idle => exact .refl _
  | validate => exact .refl _
  | register body source =>
    exact register_keeps cfg env sys.svc hk body source (fun _ => Or.inl) (Or.inr rfl)
  | admission => exact admit_keeps env sys.svc _ _
  | pop => exact { Keeps.refl _ with }
  | decide => exact decide_keeps cfg env sys.svc _ _
  | store ht => exact store_keeps cfg env sys.svc _ _ ⟨_, _, _, ht, rfl⟩
  | exchange form =>
    -- the exchange loses what it presents, and nothing by the tokens it makes
    have hex := exchange_exchanged cfg env sys.svc form
    generalize sys.svc.exchangeToken cfg env form = res at hex
    cases hex with
    | refused e hf hkeeps => exact hkeeps.imp (fun _ => id) (fun _ => id) fun _ => Or.inl
    | @issued s0 _ _ _ hi hf hkeeps =>
      have h0 : Keeps (lossOf cfg env sys (.exchange form)) sys.svc s0 :=
        hkeeps.imp (fun _ => id) (fun _ => id) fun _ => Or.inl
      exact h0.trans (issue_keeps cfg env _ _ _ _ (Or.inr rfl))
  | revoke form =>
    exact (OAuthService.markRevoked_keeps _ rfl).trans (OAuthService.persist_keeps _ _ _ _)
  | start calls =>
    exact ⟨fun _ _ _ h => absurd trivial h, fun _ _ _ h => absurd trivial h,
      fun _ _ _ _ h => absurd trivial h⟩

end DataRelay.OAuth
