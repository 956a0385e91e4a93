import DataRelay.OAuth.Cleanup
import DataRelay.OAuth.Provenance

/-! `register_client`, exit by exit, and what it admits.

    A registration is refused by the rate limit before anything else; every other exit lies behind
    the cleanup of inactive clients. `register_registers` says this once; what a cleanup evicts,
    when a registration is refused for capacity, and what a refused one changes is read off it. -/

namespace DataRelay.OAuth
open Lib

def rateLimited : PyError :=
  .oauth "temporarily_unavailable" "client registration rate limit exceeded" 429

namespace OAuthService
variable (cfg : Config) (env : Env) (s : OAuthService)

/-- The service after the rate limiter was asked. -/
def asked (source : String) : OAuthService :=
  { s with dcrLimiter := (s.dcrLimiter.allow source env.t0).1 }

/-- The service after the cleanup that makes room for one client. -/
def roomMade (source : String) : OAuthService :=
  (s.asked env source).removeClients (s.evicted env.t1 1)

/-- There is no room for another client. -/
def Full (now : Time) : Prop :=
  maxInactiveDcrClients ≤ s.inactiveOccupancy now ∨ maxDcrClients ≤ s.clients.size

/-- The client of a registration. -/
def newClient (uris grants : List String) (name : Option String) : RegisteredClient :=
  ⟨newToken "client" env.random0, uris, name, "none", grants, ["code"], env.t1.toInt, env.t1⟩

/-- The service with the new client in it. -/
def inserted (source : String) (c : RegisteredClient) : OAuthService :=
  { s with
    clients := s.clients.set c.clientId c
    dcrLimiter := s.dcrLimiter.record source env.t1 }

/-- The outcome of the save, with the new client in the service. -/
def saved (source : String) (c : RegisteredClient) : OAuthService × Except PyError Unit :=
  ((s.roomMade env source).inserted env source c).persist cfg env env.t2

/-- The exits of a registration. -/
inductive Registers (body : Json) (source : String) :
    OAuthService × Except PyError Registration → Prop where
  | limited (h : (s.dcrLimiter.allow source env.t0).2 = false) :
      Registers body source (s.asked env source, .error rateLimited)
  | full (h : (s.dcrLimiter.allow source env.t0).2 = true)
      (hf : (s.roomMade env source).Full env.t1) :
      Registers body source (s.roomMade env source, .error limitReached)
  | refused {e : PyError} (h : (s.dcrLimiter.allow source env.t0).2 = true)
      (hf : ¬ (s.roomMade env source).Full env.t1) (hb : checkBody body = .error e) :
      Registers body source (s.roomMade env source, .error e)
  | saved {uris grants : List String} {name : Option String} {registration : Registration}
      (h : (s.dcrLimiter.allow source env.t0).2 = true) (hf : ¬ (s.roomMade env source).Full env.t1)
      (hb : checkBody body = .ok (uris, grants, name))
      (hr : registration.clientId = (newClient env uris grants name).clientId) :
      Registers body source ((s.saved cfg env source (newClient env uris grants name)).1,
        (s.saved cfg env source (newClient env uris grants name)).2.map fun _ => registration)

theorem registerClient_unfold (body : Json) (source : String) :
    s.registerClient cfg env body source =
      if (s.dcrLimiter.allow source env.t0).2 = false then (s.asked env source, .error rateLimited)
      else
        let s1 := ((s.asked env source).cleanupInactiveClients env.t1 1).1
        if maxInactiveDcrClients ≤ s1.inactiveOccupancy env.t1 then (s1, .error limitReached)
        else if maxDcrClients ≤ s1.clients.size then (s1, .error limitReached)
        else match checkBody body with
          | .error e => (s1, .error e)
          | .ok (uris, grants, name) =>
            let c := newClient env uris grants name
            match (s1.inserted env source c).persist cfg env env.t2 with
            | (s3, .error e) => (s3, .error e)
            | (s3, .ok ()) =>
              (s3, .ok ⟨c.clientId, env.t1.toInt, uris, "none", grants, ["code"], name⟩) := rfl

/-- `register_client` with its cleanup in closed form. -/
theorem registerClient_eq (hk : Keyed RegisteredClient.clientId s.clients) (body : Json)
    (source : String) : s.registerClient cfg env body source =
      if (s.dcrLimiter.allow source env.t0).2 = false then (s.asked env source, .error rateLimited)
      else if maxInactiveDcrClients ≤ (s.roomMade env source).inactiveOccupancy env.t1 then
        (s.roomMade env source, .error limitReached)
      else if maxDcrClients ≤ (s.roomMade env source).clients.size then
        (s.roomMade env source, .error limitReached)
      else match checkBody body with
        | .error e => (s.roomMade env source, .error e)
        | .ok (uris, grants, name) =>
          let c := newClient env uris grants name
          ((s.saved cfg env source c).1, (s.saved cfg env source c).2.map fun _ =>
            ⟨c.clientId, env.t1.toInt, uris, "none", grants, ["code"], name⟩) := by
  have hclean : (s.asked env source).cleanupInactiveClients env.t1 1 =
      (s.roomMade env source, s.evicted env.t1 1) := cleanup_eq (s := s.asked env source) hk 1
  rw [registerClient_unfold, hclean]
  dsimp only
  cases checkBody body with
  | error e => rfl
  | ok fields =>
    obtain ⟨uris, grants, name⟩ := fields
    dsimp only
    have hsaved : s.saved cfg env source (newClient env uris grants name) =
      ((s.roomMade env source).inserted env source (newClient env uris grants name)).persist cfg env
        env.t2 := rfl
    rw [← hsaved]
    rcases s.saved cfg env source (newClient env uris grants name) with ⟨s3, e | u⟩ <;> rfl

theorem register_registers (hk : Keyed RegisteredClient.clientId s.clients) (body : Json)
    (source : String) : Registers cfg env s body source (s.registerClient cfg env body source) := by
  rw [registerClient_eq cfg env s hk]
  split
  · next h => exact .limited h
  next h =>
  replace h : (s.dcrLimiter.allow source env.t0).2 = true := by simpa using h
  split
  · next hf => exact .full h (.inl hf)
  next hi =>
  split
  · next hf => exact .full h (.inr hf)
  next ht =>
  have hroom : ¬ (s.roomMade env source).Full env.t1 := not_or.mpr ⟨hi, ht⟩
  split
  · next hb => exact .refused h hroom hb
  · next hb => exact .saved h hroom hb rfl

/-! ### The cleanup, exactly -/

/-- Both budgets of a cleanup are kept. -/
def Within (now : Time) (n : ℕ) : Prop :=
  s.inactiveOccupancy now ≤ maxInactiveDcrClients - n ∧ s.clients.size ≤ maxDcrClients - n

/-- The `while True` loop, round by round: it ends when the budgets are kept or no inactive client
    is left, and a round removes the first inactive client. -/
inductive EvictLoop (now : Time) (n : ℕ) : OAuthService → OAuthService × List String → Prop where
  | stop {s : OAuthService} (h : s.Within now n ∨ s.inactiveClients now = []) :
      EvictLoop now n s (s, [])
  | round {s : OAuthService} {victim : RegisteredClient} {rest : List RegisteredClient}
      {r : OAuthService × List String} (h : ¬ s.Within now n)
      (hv : s.inactiveClients now = victim :: rest)
      (hr : EvictLoop now n (s.removeClient victim.clientId) r) :
      EvictLoop now n s (r.1, victim.clientId :: r.2)

/-- The loop ends: in every round there is a client less. -/
theorem evictOver_loop (now : Time) (n : ℕ) : ∀ {fuel : ℕ} {s : OAuthService},
    Keyed RegisteredClient.clientId s.clients → s.clients.size ≤ fuel → EvictLoop now n s
      (evictOver now (maxInactiveDcrClients - n) (maxDcrClients - n) fuel s)
  | 0, s, _, hf => by
    have hle : s.inactiveOccupancy now ≤ s.clients.size := List.countP_le_length
    exact .stop (.inl ⟨by omega, by omega⟩)
  | fuel + 1, s, hk, hf => by
    unfold evictOver
    split
    · next h => exact .stop (.inl h)
    next h =>
    split
    · next hnil => exact .stop (.inr hnil)
    · next victim rest hv =>
      have hmem : victim ∈ s.inactiveClients now := hv ▸ List.mem_cons_self
      have hsize := (excess_removeClients hk hmem 0 0).1
      refine .round h hv ?_
      rw [removeClient_eq]
      exact evictOver_loop now n (keyed_removeClients hk) (by omega)

variable {now : Time} {n : ℕ} {s}

theorem within_iff : s.Within now n ↔
    s.excess now (maxInactiveDcrClients - n) (maxDcrClients - n) = 0 := by
  unfold Within excess
  omega

/-- Evicting inactive clients in order takes as many off every excess. -/
theorem excess_take (b b' : ℕ) : ∀ {j : ℕ} {s : OAuthService},
    Keyed RegisteredClient.clientId s.clients → j ≤ (s.inactiveClients now).length →
    (s.removeClients (idsOf ((s.inactiveClients now).take j))).excess now b b' =
        s.excess now b b' - j ∧
      (s.removeClients (idsOf ((s.inactiveClients now).take j))).inactiveClients now =
        (s.inactiveClients now).drop j
  | 0, s, _, _ => by simp [idsOf, removeClients_nil]
  | j + 1, s, hk, hj => by
    cases hcs : s.inactiveClients now with
    | nil => simp [hcs] at hj
    | cons c cs =>
      have hc : c ∈ s.inactiveClients now := hcs ▸ List.mem_cons_self
      have hrest : (s.removeClients [c.clientId]).inactiveClients now = cs := by
        have hnodup : (idsOf (c :: cs)).Nodup := hcs ▸ nodup_inactiveClients hk
        rw [inactiveClients_removeClients hk, hcs, List.filter_cons_of_neg (by simp)]
        refine List.filter_eq_self.mpr fun x hx => ?_
        have hne : x.clientId ≠ c.clientId := fun he =>
          (List.nodup_cons.mp hnodup).1 (List.mem_map.mpr ⟨x, hx, he⟩)
        simpa using hne
      have hlen : j ≤ ((s.removeClients [c.clientId]).inactiveClients now).length := by
        rw [hrest]; simpa [hcs] using hj
      have ih := excess_take b b' (keyed_removeClients hk) hlen
      rw [hrest, removeClients_append, (excess_removeClients hk hc b b').2] at ih
      refine ⟨?_, ?_⟩
      · rw [List.take_succ_cons]
        exact ih.1.trans (by omega)
      · rw [List.take_succ_cons, List.drop_succ_cons]
        exact ih.2

/-- What a cleanup does: the stale clients go, then the shortest sequence of `j` inactive clients,
    in order, that keeps the budgets or leaves no inactive client. -/
structure Cleans (s : OAuthService) (now : Time) (n j : ℕ) (r : OAuthService × List String) :
    Prop where
  loop : EvictLoop now n (s.withoutStale now)
    (r.1, idsOf (((s.withoutStale now).inactiveClients now).take j))
  ids : r.2 = idsOf (s.clients.values.filter (s.stale now)) ++
    idsOf (((s.withoutStale now).inactiveClients now).take j)
  removed : r.1 = s.removeClients r.2
  spares : ∀ k, s.clientHasLiveRefresh k now = true ∨ s.clientHasLivePending k now = true → k ∉ r.2
  shortest : ∀ i < j, ¬ ((s.withoutStale now).removeClients
    (idsOf (((s.withoutStale now).inactiveClients now).take i))).Within now n
  enough : r.1.Within now n ∨ r.1.inactiveClients now = []
  sorted : ((s.withoutStale now).inactiveClients now).Pairwise evictsBefore

theorem cleanup_cleans (hk : Keyed RegisteredClient.clientId s.clients) (now : Time) (n : ℕ) :
    ∃ j, Cleans s now n j (s.cleanupInactiveClients now n) := by
  have hk1 : Keyed RegisteredClient.clientId (s.withoutStale now).clients := keyed_removeClients hk
  have hloop := evictOver_loop now n hk1 le_rfl
  rw [evictOver_eq _ _ hk1 le_rfl] at hloop
  generalize hcs : (s.withoutStale now).inactiveClients now = cs at hloop
  generalize hb : (s.withoutStale now).excess now (maxInactiveDcrClients - n)
    (maxDcrClients - n) = b at hloop
  obtain ⟨j, hj, htake, hjb⟩ : ∃ j ≤ cs.length, cs.take b = cs.take j ∧
      (j = b ∨ (j < b ∧ j = cs.length)) := by
    rcases le_or_gt b cs.length with h | h
    · exact ⟨b, h, rfl, .inl rfl⟩
    · have hall : cs.take b = cs.take cs.length := by
        rw [List.take_length, List.take_of_length_le h.le]
      exact ⟨cs.length, le_rfl, hall, .inr ⟨h, rfl⟩⟩
  have hexcess : ∀ i ≤ cs.length, ((s.withoutStale now).removeClients (idsOf (cs.take i))).excess
      now (maxInactiveDcrClients - n) (maxDcrClients - n) = b - i := by
    intro i hi
    have h := (excess_take (maxInactiveDcrClients - n) (maxDcrClients - n) hk1 (hcs ▸ hi)).1
    rwa [hcs, hb] at h
  have hev : s.evicted now n =
      idsOf (s.clients.values.filter (s.stale now)) ++ idsOf (cs.take j) := by
    rw [evicted, hb, hcs, htake]
  have hfinal : s.removeClients (s.evicted now n) =
      (s.withoutStale now).removeClients (idsOf (cs.take j)) := by
    rw [hev, withoutStale, removeClients_append]
  have hstop : (s.removeClients (s.evicted now n)).Within now n ∨
      (s.removeClients (s.evicted now n)).inactiveClients now = [] := by
    rw [hfinal, within_iff, hexcess j hj]
    rcases hjb with rfl | ⟨-, rfl⟩
    · exact .inl (Nat.sub_self j)
    · have hdrop := (excess_take 0 0 hk1 (hcs ▸ le_refl cs.length)).2
      rw [hcs, List.drop_length] at hdrop
      exact .inr hdrop
  rw [htake, ← hfinal] at hloop
  refine ⟨j, ?_⟩
  rw [cleanup_eq hk]
  exact {
    loop := by rw [hcs]; exact hloop
    ids := by rw [hcs]; exact hev
    removed := rfl
    spares := fun k hlive hmem => by
      obtain ⟨c, hc, hevict⟩ := evictable_of_evicted hk hmem
      obtain rfl := hk k c hc
      unfold evictable at hevict
      rcases hlive with h | h <;> rw [h] at hevict <;> simp at hevict
    shortest := fun i hi => by
      rw [hcs, within_iff, hexcess i (by omega)]
      omega
    enough := hstop
    sorted := List.pairwise_insertionSort _ _ }

/-! ### Capacity -/

/-- The clients that only a live consent protects. -/
def consenting (s : OAuthService) (now : Time) : ℕ :=
  s.clients.count fun k _ => !s.clientHasLiveRefresh k now && s.clientHasLivePending k now

/-- The clients that a live refresh token or a live consent protects. -/
def shielded (s : OAuthService) (now : Time) : ℕ :=
  s.clients.count fun k _ => s.clientHasLiveRefresh k now || s.clientHasLivePending k now

/-- Eviction does not change how many protected clients there are. -/
theorem count_removeClients {ids : List String} {p : Bool → Bool → Bool}
    (hp : p false false = false) (hspares : ∀ k,
      s.clientHasLiveRefresh k now = true ∨ s.clientHasLivePending k now = true → k ∉ ids) :
    ((s.removeClients ids).clients.count fun k _ =>
      p ((s.removeClients ids).clientHasLiveRefresh k now)
        ((s.removeClients ids).clientHasLivePending k now)) =
    s.clients.count fun k _ => p (s.clientHasLiveRefresh k now) (s.clientHasLivePending k now) := by
  have hclients : (s.removeClients ids).clients = s.clients.filter fun k _ => k ∉ ids := rfl
  rw [hclients, Dict.count_filter]
  refine Dict.count_congr fun e _ => ?_
  have hpending : (s.removeClients ids).clientHasLivePending e.1 now =
    s.clientHasLivePending e.1 now := rfl
  rw [hpending]
  by_cases hid : e.1 ∈ ids
  · have hr : s.clientHasLiveRefresh e.1 now = false := by
      simpa using fun h => hspares e.1 (.inl h) hid
    have hpe : s.clientHasLivePending e.1 now = false := by
      simpa using fun h => hspares e.1 (.inr h) hid
    simp [hid, hr, hpe, hp]
  · rw [hasLiveRefresh_removeClients hid]
    simp [hid]

/-- Without an inactive client every client is protected. -/
theorem protected_of_inactive (hk : Keyed RegisteredClient.clientId s.clients)
    (h : s.inactiveClients now = []) {k : String} {c : RegisteredClient}
    (hc : s.clients.get? k = some c) :
    s.clientHasLiveRefresh k now = true ∨ s.clientHasLivePending k now = true := by
  have hfilter : s.clients.values.filter (fun c => s.evictable now c) = [] :=
    ((List.perm_insertionSort evictsBefore _).symm.trans (h ▸ List.Perm.refl _)).eq_nil
  have hno := List.filter_eq_nil_iff.mp hfilter c ((Dict.mem_values_iff _ _).mpr ⟨k, hc⟩)
  rw [evictable, hk k c hc] at hno
  cases hr : s.clientHasLiveRefresh k now <;> simp_all

/-- There is no room exactly when the protected clients leave none. -/
theorem full_roomMade_iff (hk : Keyed RegisteredClient.clientId s.clients) (env : Env)
    (source : String) : (s.roomMade env source).Full env.t1 ↔
      maxInactiveDcrClients ≤ s.consenting env.t1 ∨ maxDcrClients ≤ s.shielded env.t1 := by
  -- the cleanup removes whoever it may, so being full is about the protected ones
  obtain ⟨j, hcleans⟩ := cleanup_cleans hk env.t1 1
  rw [cleanup_eq hk] at hcleans
  have hc : (s.removeClients (s.evicted env.t1 1)).consenting env.t1 = s.consenting env.t1 :=
    count_removeClients (p := fun r p => !r && p) rfl hcleans.spares
  have hs : (s.removeClients (s.evicted env.t1 1)).shielded env.t1 = s.shielded env.t1 :=
    count_removeClients (p := fun r p => r || p) rfl hcleans.spares
  have henough : (s.removeClients (s.evicted env.t1 1)).Within env.t1 1 ∨
      (s.removeClients (s.evicted env.t1 1)).inactiveClients env.t1 = [] := hcleans.enough
  have hk1 : Keyed RegisteredClient.clientId (s.removeClients (s.evicted env.t1 1)).clients :=
    keyed_removeClients hk
  change (s.removeClients (s.evicted env.t1 1)).Full env.t1 ↔ _
  rw [← hc, ← hs]
  clear hcleans hc hs
  generalize s.removeClients (s.evicted env.t1 1) = s1 at henough hk1 ⊢
  have hconsenting : s1.consenting env.t1 ≤ s1.inactiveOccupancy env.t1 :=
    List.countP_mono_left fun e _ h => (Bool.and_eq_true_iff.mp h).1
  have hshielded : s1.shielded env.t1 ≤ s1.clients.size := List.countP_le_length
  unfold Full
  -- it stopped with enough room, or when nobody was left to evict
  rcases henough with ⟨h1, h2⟩ | hnil
  · have hb : maxInactiveDcrClients - 1 < maxInactiveDcrClients := by decide
    have hb' : maxDcrClients - 1 < maxDcrClients := by decide
    omega
  · have hlive : ∀ e ∈ s1.clients.items, s1.clientHasLiveRefresh e.1 env.t1 = true ∨
        s1.clientHasLivePending e.1 env.t1 = true :=
      fun e he => protected_of_inactive hk1 hnil ((Dict.get?_iff_mem _ _ _).mpr he)
    have ho : s1.inactiveOccupancy env.t1 = s1.consenting env.t1 :=
      Dict.count_congr fun e he => by
        rcases hlive e he with h | h <;> simp [h]
    have ht : s1.clients.size = s1.shielded env.t1 := by
      rw [Dict.size_eq_count]
      exact Dict.count_congr fun e he => by
        rcases hlive e he with h | h <;> simp [h]
    rw [ho, ht]

/-- A save takes no live refresh token. -/
theorem hasLiveRefresh_persist (cfg : Config) (env : Env) (t : Time) (clientId : String) :
    (s.persist cfg env t).1.clientHasLiveRefresh clientId now =
      s.clientHasLiveRefresh clientId now := by
  rw [Bool.eq_iff_iff, hasLiveRefresh_iff, hasLiveRefresh_iff]
  constructor
  · rintro ⟨k, token, ht, hrest⟩
    exact ⟨k, token, s.persist_refresh cfg env t ht, hrest⟩
  · rintro ⟨k, token, ht, hid, hr, hlive⟩
    have hkeeps : Keeps {} s (s.persist cfg env t).1 := s.persist_keeps cfg env t
    exact ⟨k, token, hkeeps.refresh k token ht hr id id, hid, hr, hlive⟩

theorem save_error (store : DurableOAuthStore) (calls : DurableOAuthStore.SaveCalls) (p : Json)
    (dir : Dir) {e : PyError} (h : (store.save calls p dir).result = .error e) :
    (∃ message, e = .oauthState message) ∨ e = .osError := by
  unfold DurableOAuthStore.save at h
  split at h
  · next hd =>
    cases h
    unfold DurableOAuthStore.assertSafeDir at hd
    split at hd <;> cases hd <;> simp
  split at h
  · cases h; exact .inl ⟨_, rfl⟩
  split at h
  · cases h; exact .inl ⟨_, rfl⟩
  split at h
  · cases h; exact .inl ⟨_, rfl⟩
  dsimp only at h
  split at h
  · cases h; exact .inl ⟨_, rfl⟩
  split at h
  · dsimp only at h
    unfold DurableOAuthStore.finish at h
    split at h
    · split at h
      · cases h; exact .inl ⟨_, rfl⟩
      · unfold DurableOAuthStore.assertSafeFileMode at h
        split at h <;> cases h <;> simp
    · cases h; exact .inl ⟨_, rfl⟩
  · cases h; exact .inl ⟨_, rfl⟩

/-- A failed save is a server error. -/
theorem persist_error {cfg : Config} {env : Env} {t : Time} {e : PyError}
    (h : (s.persist cfg env t).2 = .error e) :
    (∃ message, e = .oauth "server_error" message 500) ∨ e = .osError := by
  unfold persist at h
  split at h
  · cases h
  dsimp only at h
  split at h
  · cases h; exact .inl ⟨_, rfl⟩
  · next hne =>
    rcases save_error _ _ _ _ h with ⟨m, rfl⟩ | rfl
    · exact absurd h (hne m)
    · exact .inr rfl

section Register
variable {cfg : Config} {env : Env} {body : Json} {source : String}
variable (hk : Keyed RegisteredClient.clientId s.clients)

theorem clients_saved (c : RegisteredClient) : (s.saved cfg env source c).1.clients =
    (s.roomMade env source).clients.set c.clientId c := by
  obtain ⟨tokens, file, hrest⟩ :=
    ((s.roomMade env source).inserted env source c).persist_rest cfg env env.t2
  rw [saved, hrest]
  rfl

include hk

/-- A registration refused for capacity finds no room behind the cleanup. -/
theorem register_limit_iff (hallow : (s.dcrLimiter.allow source env.t0).2 = true)
    {fields : List String × List String × Option String} (hbody : checkBody body = .ok fields) :
    (s.registerClient cfg env body source).2 = .error limitReached ↔
      (s.roomMade env source).Full env.t1 := by
  have h := register_registers cfg env s hk body source
  generalize s.registerClient cfg env body source = r at h
  cases h with
  | limited h => rw [hallow] at h; cases h
  | full _ hf => exact ⟨fun _ => hf, fun _ => rfl⟩
  | refused _ _ hb => rw [hbody] at hb; cases hb
  | @saved uris grants name _ _ hf _ _ =>
    refine ⟨fun he => ?_, fun hf' => absurd hf' hf⟩
    cases hp : (s.saved cfg env source (newClient env uris grants name)).2 with
    | ok u => rw [hp] at he; cases he
    | error e =>
      rw [hp] at he
      cases he
      rcases persist_error hp with ⟨m, h⟩ | h <;> simp [limitReached] at h

/-- An accepted registration stays within both limits. -/
theorem register_within {registration : Registration}
    (hr : (s.registerClient cfg env body source).2 = .ok registration) :
    (s.registerClient cfg env body source).1.inactiveOccupancy env.t1 ≤ maxInactiveDcrClients ∧
      (s.registerClient cfg env body source).1.clients.size ≤ maxDcrClients := by
  have h := register_registers cfg env s hk body source
  generalize s.registerClient cfg env body source = r at h hr
  cases h with
  | limited h => cases hr
  | full _ hf => cases hr
  | refused _ _ hb => cases hr
  | @saved uris grants name _ _ hf _ _ =>
    obtain ⟨ho, ht⟩ := not_or.mp hf
    have hlive : ∀ k c, (s.saved cfg env source c).1.clientHasLiveRefresh k env.t1 =
        (s.roomMade env source).clientHasLiveRefresh k env.t1 :=
      fun k c => hasLiveRefresh_persist cfg env env.t2 k
    generalize newClient env uris grants name = c
    constructor
    · have hset := Dict.count_set_le (s.roomMade env source).clients c.clientId c
        fun k _ => !(s.roomMade env source).clientHasLiveRefresh k env.t1
      unfold inactiveOccupancy at ho ⊢
      rw [clients_saved]
      simp only [hlive]
      split at hset <;> omega
    · have hset := Dict.count_set_le (s.roomMade env source).clients c.clientId c fun _ _ => true
      rw [← Dict.size_eq_count, ← Dict.size_eq_count] at hset
      rw [clients_saved]
      simp only [if_true] at hset
      omega

end Register

/-- Admission is exact: what a cleanup evicts, when a registration is refused for capacity, and
    that an accepted one keeps the limits. -/
theorem admission_exact (cfg : Config) (env : Env) (s : OAuthService)
    (hk : Keyed RegisteredClient.clientId s.clients) :
    (∀ now n, ∃ j, Cleans s now n j (s.cleanupInactiveClients now n)) ∧
    ∀ body source,
      ((s.dcrLimiter.allow source env.t0).2 = true → (∃ fields, checkBody body = .ok fields) →
        ((s.registerClient cfg env body source).2 = .error limitReached ↔
          maxInactiveDcrClients ≤ s.consenting env.t1 ∨ maxDcrClients ≤ s.shielded env.t1)) ∧
      ∀ registration, (s.registerClient cfg env body source).2 = .ok registration →
        (s.registerClient cfg env body source).1.inactiveOccupancy env.t1 ≤ maxInactiveDcrClients ∧
          (s.registerClient cfg env body source).1.clients.size ≤ maxDcrClients := by
  refine ⟨cleanup_cleans hk, fun body source => ⟨fun hallow ⟨fields, hbody⟩ => ?_,
    fun registration => register_within hk⟩⟩
  -- behind the limiter and the body, the bounds are all that can refuse
  rw [register_limit_iff hk hallow hbody, full_roomMade_iff hk]

/-! ### A refused registration -/

/-- The clients, the refresh tokens and the state file are as they were. -/
structure Untouched (s s' : OAuthService) : Prop where
  clients : s'.clients = s.clients
  refreshTokens : s'.refreshTokens = s.refreshTokens
  file : s'.file = s.file

/-- A cleanup for one more client evicts nobody. -/
def Settled (s : OAuthService) (now : Time) : Prop :=
  (∀ c ∈ s.clients.values, s.stale now c = false) ∧
    (s.Within now 1 ∨ s.inactiveClients now = [])

instance : Decidable (s.Settled now) := by unfold Settled Within; infer_instance

theorem evicted_nil_iff : s.evicted now 1 = [] ↔ s.Settled now := by
  have hstale : idsOf (s.clients.values.filter (s.stale now)) = [] ↔
      ∀ c ∈ s.clients.values, s.stale now c = false := by
    simp [idsOf, List.filter_eq_nil_iff]
  unfold evicted Settled
  rw [List.append_eq_nil_iff, hstale]
  refine and_congr_right fun hno => ?_
  have hsame : s.withoutStale now = s := by
    rw [withoutStale, hstale.mpr hno, removeClients_nil]
  rw [hsame, within_iff, idsOf, List.map_eq_nil_iff, List.take_eq_nil_iff]

/-- A cleanup that takes a client changes the map of clients. -/
theorem evicted_nil_of_clients (hk : Keyed RegisteredClient.clientId s.clients) {k : ℕ}
    (h : (s.removeClients (s.evicted now k)).clients = s.clients) : s.evicted now k = [] := by
  refine List.eq_nil_iff_forall_not_mem.mpr fun id hid => ?_
  obtain ⟨c, hc, -⟩ := evictable_of_evicted hk hid
  have hgone : (s.removeClients (s.evicted now k)).clients.get? id =
      if id ∈ s.evicted now k then none else s.clients.get? id := clients_removeClients id
  rw [h, hc, if_pos hid] at hgone
  cases hgone

/-- A registration that raises changes nothing exactly when the rate limit refuses it, or when the
    cleanup evicts nobody and it fails at the capacity or at its body. -/
theorem register_untouched_iff {cfg : Config} {env : Env}
    (hk : Keyed RegisteredClient.clientId s.clients) {body : Json} {source : String} {e : PyError}
    (hr : (s.registerClient cfg env body source).2 = .error e)
    (hnew : s.clients.get? (newToken "client" env.random0) = none) :
    Untouched s (s.registerClient cfg env body source).1 ↔
      (s.dcrLimiter.allow source env.t0).2 = false ∨ (s.Settled env.t1 ∧
        (maxInactiveDcrClients ≤ s.consenting env.t1 ∨ maxDcrClients ≤ s.shielded env.t1 ∨
          ∃ e, checkBody body = .error e)) := by
  have h := register_registers cfg env s hk body source
  generalize s.registerClient cfg env body source = r at h hr
  have hcleaned : Untouched s (s.roomMade env source) ↔ s.Settled env.t1 := by
    rw [← evicted_nil_iff]
    constructor
    · -- an accepted registration has added its client, even if the save failed
      intro hu
      have hclients : (s.removeClients (s.evicted env.t1 1)).clients = s.clients := hu.clients
      exact evicted_nil_of_clients hk hclients
    · intro hnil
      rw [roomMade, hnil, removeClients_nil]
      exact ⟨rfl, rfl, rfl⟩
  rw [← or_assoc, ← full_roomMade_iff hk env source]
  cases h with
  | limited h => exact ⟨fun _ => .inl h, fun _ => ⟨rfl, rfl, rfl⟩⟩
  | full h hf =>
    simp only [hcleaned, h, hf, true_or, and_true, reduceCtorEq, false_or]
  | @refused e' h hf hb =>
    simp only [hcleaned, h, hf, hb, reduceCtorEq, false_or, Except.error.injEq, exists_eq',
      and_true]
  | @saved uris grants name _ h hf hb =>
    simp only [h, hf, hb, reduceCtorEq, exists_false, or_self, and_false, iff_false]
    intro hu
    have hin : (s.saved cfg env source (newClient env uris grants name)).1.clients =
        (s.roomMade env source).clients.set (newToken "client" env.random0)
          (newClient env uris grants name) := clients_saved _
    have hself : ((s.roomMade env source).clients.set (newToken "client" env.random0)
        (newClient env uris grants name)).get? (newToken "client" env.random0) = some _ :=
      Dict.get?_set_self _ _ _
    rw [hu.clients] at hin
    rw [← hin, hnew] at hself
    cases hself

end OAuthService

/-! ### In every reachable state -/

variable {cfg : Config} {tr : Trace} {sys : System}

theorem keyed_clients (h : (machine cfg).Run tr sys) :
    Keyed RegisteredClient.clientId sys.svc.clients :=
  fun k c hc => ((run_valid h).svc.clients k c (.inl hc)).1

open OAuthService in
/-- When a refused registration changes nothing. -/
theorem refused_registration_iff (h : (machine cfg).Run tr sys) {env : Env} {body : Json}
    {source : String} {e : PyError} (hr : (sys.svc.registerClient cfg env body source).2 = .error e)
    (hnew : sys.svc.clients.get? (newToken "client" env.random0) = none) :
    Untouched sys.svc (sys.svc.registerClient cfg env body source).1 ↔
      (sys.svc.dcrLimiter.allow source env.t0).2 = false ∨ (sys.svc.Settled env.t1 ∧
        (maxInactiveDcrClients ≤ sys.svc.consenting env.t1 ∨
          maxDcrClients ≤ sys.svc.shielded env.t1 ∨ ∃ e, checkBody body = .error e)) :=
  register_untouched_iff (keyed_clients h) hr hnew

/-- One registered client, an hour later. -/
def registeredRun : List Act := [(Op.register sampleBody "a").run 1 "c" ""]

def later (t : Time) : Env := ⟨t, t, t, t, "d", "", callsOk 100000⟩

/-- A registration in the state behind `registeredRun`. -/
def registerLater (t : Time) (body : Json) :
    OAuthService × Except PyError OAuthService.Registration :=
  (after sampleConfig registeredRun).2.svc.registerClient sampleConfig (later t) body "b"

theorem admission_exact_sample :
    (∃ j, OAuthService.Cleans (after sampleConfig registeredRun).2.svc (seconds 3700) 1 j
      ((after sampleConfig registeredRun).2.svc.cleanupInactiveClients (seconds 3700) 1)) ∧
    ((after sampleConfig registeredRun).2.svc.cleanupInactiveClients (seconds 3700) 1).2 =
      ["client_c"] ∧
    (registerLater (seconds 3700) sampleBody).2 ≠ .error OAuthService.limitReached := by
  obtain ⟨hcleans, hregister⟩ := OAuthService.admission_exact sampleConfig (later (seconds 3700))
    (after sampleConfig registeredRun).2.svc (keyed_clients (after_run sampleConfig registeredRun))
  refine ⟨hcleans _ _, by decide +kernel, fun hr => ?_⟩
  have hbody : (OAuthService.checkBody sampleBody).toOption.isSome = true := by decide +kernel
  have hcapacity := ((hregister sampleBody "b").1 (by decide +kernel) ?_).mp hr
  · revert hcapacity
    decide +kernel
  · cases hb : OAuthService.checkBody sampleBody with
    | error e => rw [hb] at hbody; cases hbody
    | ok fields => exact ⟨fields, rfl⟩

/-- Within the hour nobody is evicted, and a body without redirect URIs changes nothing. -/
theorem refused_registration_sample : OAuthService.Untouched
    (after sampleConfig registeredRun).2.svc (registerLater 2 (.obj [])).1 := by
  have hr : (registerLater 2 (.obj [])).2 =
      .error (.oauth "invalid_redirect_uri" "redirect_uris required" 400) := by decide +kernel
  exact (refused_registration_iff (after_run sampleConfig registeredRun) hr
    (by decide +kernel)).mpr (.inr ⟨by decide +kernel, .inr (.inr ⟨_, rfl⟩)⟩)

/-- An hour later the same body is refused as well, but the client is gone. -/
theorem refused_registration_evicts : ∃ tr sys env body source e,
    (machine sampleConfig).Run tr sys ∧ sys.svc.clients.size = 1 ∧
    (sys.svc.registerClient sampleConfig env body source).2 = .error e ∧
    (sys.svc.registerClient sampleConfig env body source).1.clients.size = 0 ∧
    ¬ OAuthService.Untouched sys.svc (sys.svc.registerClient sampleConfig env body source).1 := by
  have hsize : (after sampleConfig registeredRun).2.svc.clients.size = 1 := by decide +kernel
  have hgone : (registerLater (seconds 3700) (.obj [])).1.clients.size = 0 := by decide +kernel
  refine ⟨_, _, later (seconds 3700), .obj [], "b",
    .oauth "invalid_redirect_uri" "redirect_uris required" 400,
    after_run sampleConfig registeredRun, hsize, by decide +kernel, hgone, fun hu => ?_⟩
  rw [registerLater, hu.clients, hsize] at hgone
  cases hgone

end DataRelay.OAuth
